import Mathlib
import Formula.Proofs.Rpn.Account
import Formula.Proofs.Rpn.Decoding

namespace Formula.Rpn

/-! The operands that calls get.

In the RPN of a formula the words of a call's arguments, each as the argument has it by itself, stand
directly before the function. If the formula has no excess, or no shortage, the arguments are as many
as the function takes and none is empty. Then its operands are its arguments, provided that each of
these is a formula by itself.
-/

open OperatorTree
open Phrase (commaSeparated)

theorem givenBeyond_le_spare (before : List Token) (token : Token) (after : List Token) :
    givenBeyond after token ≤ spare (before ++ token :: after) := by
  induction before with
  | nil =>
      rw [List.nil_append, spare]
      omega
  | cons first others ih =>
      rw [List.cons_append, spare]
      omega

theorem takenBeyond_le_wanting (before : List Token) (token : Token) (after : List Token) :
    takenBeyond after token ≤ wanting (before ++ token :: after) := by
  induction before with
  | nil =>
      rw [List.nil_append, wanting]
      omega
  | cons first others ih =>
      rw [List.cons_append, wanting]
      omega

/-- A place that ends without an operand is unfilled, if it is not that of a call without
arguments. -/
theorem unfilled_pos {place mark : Token} (expects : operandExpected (some place) = true)
    (ends : mark.endsPlace = true) (other : place ≠ .openParen ∨ mark ≠ .closeParen)
    (before : Option Token) (earlier later : List Token) :
    0 < unfilled before (earlier ++ place :: mark :: later) := by
  generalize same : earlier ++ place :: mark :: later = tokens
  fun_induction unfilled before tokens generalizing earlier with
  | case1 before => simp at same
  | case2 before function rest ih =>
      -- The pair overlaps the call, or it stands behind it.
      rcases earlier with _ | ⟨first, _ | ⟨second, _ | ⟨third, others⟩⟩⟩
      · obtain ⟨rfl, further⟩ := List.cons.inj same
        obtain ⟨rfl, _⟩ := List.cons.inj further
        contradiction
      · obtain ⟨rfl, further⟩ := List.cons.inj (List.cons.inj same).2
        obtain ⟨rfl, _⟩ := List.cons.inj further
        simp at other
      · obtain ⟨rfl, _⟩ := List.cons.inj (List.cons.inj (List.cons.inj same).2).2
        contradiction
      · exact ih others (List.cons.inj (List.cons.inj (List.cons.inj same).2).2).2
  | case3 before token rest notCall ih =>
      cases earlier with
      | nil =>
          obtain ⟨rfl, rfl⟩ := List.cons.inj same
          have counted : unfilled (some place) (mark :: later) = 1 + unfilled (some mark) later := by
            cases mark <;> first | contradiction | simp [unfilled, expects, Token.endsPlace]
          omega
      | cons first others =>
          have further := ih others (List.cons.inj same).2
          omega

theorem unfilled_pos_of_arguments {arguments : List (List Token)} (empty : [] ∈ arguments)
    {place : Token} (expects : operandExpected (some place) = true)
    (apart : place ≠ .openParen ∨ arguments ≠ [[]]) (before : Option Token)
    (earlier rest : List Token) :
    0 < unfilled before (earlier ++ place :: (commaSeparated arguments ++ .closeParen :: rest)) := by
  induction arguments generalizing place earlier with
  | nil => simp at empty
  | cons first others ih =>
      cases others with
      | nil =>
          obtain rfl : [] = first := by simpa using empty
          exact unfilled_pos expects rfl (by simpa using apart) before earlier rest
      | cons next others =>
          cases first with
          | nil => exact unfilled_pos expects rfl (.inr (by simp)) before earlier _
          | cons token remaining =>
              have later := @ih (by simpa using empty) .comma rfl (.inl (by simp))
                (earlier ++ place :: token :: remaining)
              simpa [commaSeparated] using later

/-- In tokens without excess and shortage a function is given as many arguments as it takes, and none
of them is empty. -/
theorem arguments_of_settled {tokens before : List Token} {function : FunctionSymbol}
    {arguments : List (List Token)} {rest : List Token} (apart : arguments ≠ [[]])
    (each : ∀ argument ∈ arguments, Nested argument)
    (here : tokens = before ++
      .function function :: .openParen :: (commaSeparated arguments ++ .closeParen :: rest))
    (noExcess : excess tokens = 0) (noShortage : shortage tokens = 0) :
    arguments.length = function.arity ∧ [] ∉ arguments := by
  subst here
  constructor
  · have most := givenBeyond_le_spare before (.function function)
      (.openParen :: (commaSeparated arguments ++ .closeParen :: rest))
    have least := takenBeyond_le_wanting before (.function function)
      (.openParen :: (commaSeparated arguments ++ .closeParen :: rest))
    simp only [excess, shortage] at noExcess noShortage
    simp only [givenBeyond, takenBeyond, argumentsGiven_eq apart each] at most least
    omega
  · intro empty
    have positive := @unfilled_pos_of_arguments arguments empty .openParen rfl (.inr apart) none
      (before ++ [.function function]) rest
    rw [List.append_assoc, List.singleton_append] at positive
    simp only [shortage] at noShortage
    omega

theorem map_order_eq {arguments words : List (List Token)}
    (each : List.Forall₂ OrdersInto arguments words) :
    arguments.map (order []) = words.map .ok := by
  induction each with
  | nil => rfl
  | cons first later ih => rw [List.map_cons, first.order_eq, ih, List.map_cons]

theorem exists_word_of_call {before rest ordered : List Token} {function : FunctionSymbol}
    {arguments words : List (List Token)} (each : List.Forall₂ OrdersInto arguments words)
    (result : order [] (before ++ .function function :: .openParen ::
      (commaSeparated arguments ++ .closeParen :: rest)) = .ok ordered) :
    ∃ left right, ordered = left ++ words.flatten ++ .function function :: right := by
  obtain ⟨left, waiting, later, _, onward, rfl, _⟩ := exists_leads_of_append result
  have call := reads_call each function waiting
  have whole : order waiting
      (.function function :: .openParen :: commaSeparated arguments ++ [.closeParen] ++ rest) =
        .ok later := by
    simpa using onward
  obtain ⟨right, _, rfl⟩ := Leads.exists_of_order call whole
  exact ⟨left, right, by simp⟩

theorem exists_ofTokens_iff {text word : List Token} (orders : OrdersInto text word) :
    (∃ ordered, ofTokens false text = .ok ordered) ↔ balance word = .ok () := by
  have ordered : order [] (withProducts false text) = .ok word := orders.order_eq
  constructor
  · rintro ⟨other, accepted⟩
    obtain ⟨again, balanced⟩ := ofTokens_eq_ok_iff.mp accepted
    cases ordered.symm.trans again
    exact balanced
  · exact fun balanced => ⟨word, ofTokens_eq_ok_iff.mpr ⟨ordered, balanced⟩⟩

theorem forall_balance_iff {arguments words : List (List Token)}
    (each : List.Forall₂ OrdersInto arguments words) :
    (∀ word ∈ words, balance (word.map Lexical.token) = .ok ()) ↔
      ∀ argument ∈ arguments, ∃ word, ofTokens false argument = .ok word := by
  induction each with
  | nil => simp
  | @cons argument word arguments words first later ih =>
      rw [List.forall_mem_cons, List.forall_mem_cons, ih, exists_ofTokens_iff first,
        map_lexical_token]

/-- In an accepted formula without excess, or without shortage, every call has in its parentheses as
many arguments as the function takes, and none is empty. In the RPN the words of the arguments, each
as the argument has it by itself, stand in order directly before the function; they are its operands
if and only if every argument is a formula by itself. -/
theorem operands_of_call {vocabulary : Vocabulary} {juxtaposition : Bool} {text : String}
    {tokens : List Located} (lexed : vocabulary.lexicon.tokens text = .ok tokens) {rpn : List Token}
    (accepted : ofText vocabulary.lexicon juxtaposition text = .ok rpn)
    (oneSided : excess (withProducts juxtaposition (tokens.map Located.token)) = 0 ∨
      shortage (withProducts juxtaposition (tokens.map Located.token)) = 0)
    {before after : List Token} {function : FunctionSymbol}
    (here : withProducts juxtaposition (tokens.map Located.token) =
      before ++ .function function :: after) :
    ∃ arguments rest words left right,
      after = .openParen :: (commaSeparated arguments ++ .closeParen :: rest) ∧
      arguments.length = function.arity ∧ [] ∉ arguments ∧
      arguments.map (order []) = words.map .ok ∧
      rpn = left ++ words.flatten ++ .function function :: right ∧
      ((operandsAfter (left ++ words.flatten) (.function function)).map postorder = words ↔
        ∀ argument ∈ arguments, ∃ word, ofTokens false argument = .ok word) := by
  rw [ofText_eq_ofTokens lexed, ofTokens_eq_ok_iff] at accepted
  obtain ⟨result, balanced⟩ := accepted
  have placed := placed_withProducts
    (Lexicon.tokens_placed vocabulary.lexicon_positional lexed) juxtaposition
  have account := excess_eq_shortage placed result balanced
  obtain ⟨arguments, rest, apart, each, rfl⟩ :=
    (nested_of_order placed result).2 before function after here
  obtain ⟨count, filled⟩ := arguments_of_settled apart each here (by omega) (by omega)
  obtain ⟨words, orders⟩ := exists_words fun argument member => (each argument member).exists_ordersInto
  rw [here] at result
  obtain ⟨left, right, rfl⟩ := exists_word_of_call orders result
  refine ⟨arguments, rest, words, left, right, rfl, count, filled, map_order_eq orders, rfl, ?_⟩
  have decoded := @map_postorder_operandsAfter_iff Token _ left right words (.function function)
    (by rw [map_lexical_token]; exact balanced)
  rw [decoded, forall_balance_iff orders, ← orders.length_eq]
  exact and_iff_right count

/-- `2logb(x, f()+1)`, with a product that is not written and a call without arguments. -/
theorem operands_of_call_in_product :
    excess [.number 2, .operator .times, .function ⟨"logb", 2⟩, .openParen, .var "x", .comma,
      .function ⟨"f", 0⟩, .openParen, .closeParen, .operator ⟨"+", 2, true, 500⟩, .number 1,
      .closeParen] = 0 ∧
    ∃ arguments rest words left right,
      [Token.openParen, .var "x", .comma, .function ⟨"f", 0⟩, .openParen, .closeParen,
          .operator ⟨"+", 2, true, 500⟩, .number 1, .closeParen] =
        .openParen :: (commaSeparated arguments ++ .closeParen :: rest) ∧
      arguments.length = 2 ∧ [] ∉ arguments ∧
      arguments.map (order []) = words.map .ok ∧
      [Token.number 2, .var "x", .function ⟨"f", 0⟩, .number 1, .operator ⟨"+", 2, true, 500⟩,
          .function ⟨"logb", 2⟩, .operator .times] =
        left ++ words.flatten ++ .function ⟨"logb", 2⟩ :: right ∧
      ((operandsAfter (left ++ words.flatten) (.function ⟨"logb", 2⟩)).map postorder = words ↔
        ∀ argument ∈ arguments, ∃ word, ofTokens false argument = .ok word) := by
  have lexed : (Vocabulary.lexicon { names := ["x"], functions := [⟨"f", 0⟩] }).tokens
      "2logb(x, f()+1)" = .ok [⟨.number 2, ⟨0, 1⟩⟩, ⟨.function ⟨"logb", 2⟩, ⟨1, 5⟩⟩,
        ⟨.openParen, ⟨5, 6⟩⟩, ⟨.var "x", ⟨6, 7⟩⟩, ⟨.comma, ⟨7, 8⟩⟩, ⟨.function ⟨"f", 0⟩, ⟨9, 10⟩⟩,
        ⟨.openParen, ⟨10, 11⟩⟩, ⟨.closeParen, ⟨11, 12⟩⟩, ⟨.operator ⟨"+", 2, true, 500⟩, ⟨12, 13⟩⟩,
        ⟨.number 1, ⟨13, 14⟩⟩, ⟨.closeParen, ⟨14, 15⟩⟩] := by
    decide +kernel
  have accepted : ofText (Vocabulary.lexicon { names := ["x"], functions := [⟨"f", 0⟩] }) true
      "2logb(x, f()+1)" = .ok [.number 2, .var "x", .function ⟨"f", 0⟩, .number 1,
        .operator ⟨"+", 2, true, 500⟩, .function ⟨"logb", 2⟩, .operator .times] := by
    decide +kernel
  have noExcess : excess [.number 2, .operator .times, .function ⟨"logb", 2⟩, .openParen, .var "x",
      .comma, .function ⟨"f", 0⟩, .openParen, .closeParen, .operator ⟨"+", 2, true, 500⟩, .number 1,
      .closeParen] = 0 := by
    decide +kernel
  refine ⟨noExcess, ?_⟩
  exact @operands_of_call { names := ["x"], functions := [⟨"f", 0⟩] } true _ _ lexed _ accepted
    (.inl noExcess) [.number 2, .operator .times] _ ⟨"logb", 2⟩ rfl

/-- The argument too many of the inner call makes up for the one that the outer call lacks. -/
theorem ofText_logb_of_logb :
    (Vocabulary.lexicon {}).tokens "logb(logb(1,2,3))" = .ok [⟨.function ⟨"logb", 2⟩, ⟨0, 4⟩⟩,
        ⟨.openParen, ⟨4, 5⟩⟩, ⟨.function ⟨"logb", 2⟩, ⟨5, 9⟩⟩, ⟨.openParen, ⟨9, 10⟩⟩,
        ⟨.number 1, ⟨10, 11⟩⟩, ⟨.comma, ⟨11, 12⟩⟩, ⟨.number 2, ⟨12, 13⟩⟩, ⟨.comma, ⟨13, 14⟩⟩,
        ⟨.number 3, ⟨14, 15⟩⟩, ⟨.closeParen, ⟨15, 16⟩⟩, ⟨.closeParen, ⟨16, 17⟩⟩] ∧
      argumentsGiven [.openParen, .number 1, .comma, .number 2, .comma, .number 3, .closeParen,
        .closeParen] = 3 ∧
      ∀ juxtaposition, ofText (Vocabulary.lexicon {}) juxtaposition "logb(logb(1,2,3))" =
        .ok [.number 1, .number 2, .number 3, .function ⟨"logb", 2⟩, .function ⟨"logb", 2⟩] := by
  decide +kernel

end Formula.Rpn
