import Formula.Proofs.Rpn.Acceptance
import Formula.Proofs.Rpn.Calls
import Formula.Proofs.Rpn.Decoding

namespace Formula

/-! A formula in parentheses in the place of a variable.

Nothing outside a pair of parentheses reaches what stands between them, and to its neighbours a group
looks like a variable: the same products are inserted around it. So where a variable stands, a formula
in parentheses is ordered as by itself, and its RPN stands in the place of the variable.
-/

namespace Token

/-- The token, or the part that stands for it if it is the variable. -/
def replaced (name : String) (part : List Token) : Token → List Token
  | .var other => if other = name then part else [.var other]
  | token => [token]

/-- The tokens with a part in the place of every occurrence of a variable. -/
def substitute (name : String) (part tokens : List Token) : List Token :=
  tokens.flatMap (replaced name part)

/-- The tokens in parentheses. -/
def grouped (tokens : List Token) : List Token := .openParen :: tokens ++ [.closeParen]

variable {name : String} {part : List Token}

@[simp] theorem replaced_var : replaced name part (.var name) = part := if_pos rfl

theorem replaced_of_ne {token : Token} (other : token ≠ .var name) :
    replaced name part token = [token] := by
  cases token with
  | var written => exact if_neg fun same => other (by rw [same])
  | _ => rfl

@[simp] theorem substitute_nil : substitute name part [] = [] := rfl

@[simp] theorem substitute_cons (token : Token) (rest : List Token) :
    substitute name part (token :: rest) = replaced name part token ++ substitute name part rest :=
  List.flatMap_cons

@[simp] theorem substitute_append (tokens rest : List Token) :
    substitute name part (tokens ++ rest) =
      substitute name part tokens ++ substitute name part rest :=
  List.flatMap_append

theorem substitute_eq_self {tokens : List Token} (absent : .var name ∉ tokens) :
    substitute name part tokens = tokens := by
  induction tokens with
  | nil => rfl
  | cons token rest ih =>
      have here : token ≠ .var name := fun same => absurd absent (by simp [same])
      have further : .var name ∉ rest := fun member => absent (List.mem_cons_of_mem _ member)
      rw [substitute_cons, replaced_of_ne here, ih further]
      rfl

theorem substitute_flatten (words : List (List Token)) :
    substitute name part words.flatten = (words.map (substitute name part)).flatten := by
  induction words with
  | nil => rfl
  | cons word others ih => simp [ih]

theorem substitute_commaSeparated (texts : List (List Token)) :
    substitute name part (Phrase.commaSeparated texts) =
      Phrase.commaSeparated (texts.map (substitute name part)) := by
  induction texts with
  | nil => rfl
  | cons text others ih =>
      cases others with
      | nil => rfl
      | cons next others =>
          simp only [Phrase.commaSeparated, substitute_append, substitute_cons, ih, List.map_cons]
          rfl

theorem replaced_begins (name : String) (body : List Token) (token : Token) :
    ∃ first later, replaced name (grouped body) token = first :: later ∧
      ∀ left : Token, left.multipliesWith first = left.multipliesWith token := by
  by_cases same : token = .var name
  · rw [same, replaced_var]
    exact ⟨.openParen, body ++ [.closeParen], rfl, fun left => rfl⟩
  · rw [replaced_of_ne same]
    exact ⟨token, [], rfl, fun left => rfl⟩

theorem replaced_ends (name : String) (body : List Token) (token : Token) :
    ∃ earlier last, replaced name (grouped body) token = earlier ++ [last] ∧
      ∀ right : Token, last.multipliesWith right = token.multipliesWith right := by
  by_cases same : token = .var name
  · rw [same, replaced_var]
    refine ⟨.openParen :: body, .closeParen, rfl, fun right => ?_⟩
    cases right <;> rfl
  · rw [replaced_of_ne same]
    exact ⟨[], token, rfl, fun right => rfl⟩

end Token

open Token

theorem insertProducts_append_cons (earlier : List Token) (left right : Token)
    (later : List Token) :
    insertProducts (earlier ++ left :: right :: later) =
      insertProducts (earlier ++ [left]) ++
        (if left.multipliesWith right then [.operator .times] else []) ++
        insertProducts (right :: later) := by
  induction earlier with
  | nil =>
      rw [List.nil_append, insertProducts_cons_cons]
      split <;> rfl
  | cons first others ih =>
      cases others with
      | nil =>
          simp only [List.cons_append, List.nil_append, insertProducts_cons_cons] at ih ⊢
          rw [ih]
          split <;> rfl
      | cons second others =>
          simp only [List.cons_append, insertProducts_cons_cons] at ih ⊢
          rw [ih]
          split <;> rfl

theorem insertProducts_grouped (body : List Token) :
    insertProducts (grouped body) = grouped (insertProducts body) := by
  have closing : insertProducts (body ++ [.closeParen]) = insertProducts body ++ [.closeParen] := by
    rcases List.eq_nil_or_concat body with rfl | ⟨earlier, last, rfl⟩
    · rfl
    · rw [List.concat_eq_append, List.append_assoc, List.singleton_append,
        insertProducts_append_cons]
      have apart : last.multipliesWith .closeParen = false := by simp [multipliesWith]
      simp [apart, insertProducts]
  rw [grouped, List.cons_append, grouped, List.cons_append, ← closing]
  cases inner : body ++ [.closeParen] with
  | nil => rfl
  | cons first later =>
      rw [insertProducts_cons_cons]
      rfl

theorem insertProducts_replaced (name : String) (body : List Token) (token : Token) :
    insertProducts (replaced name (grouped body) token) =
      replaced name (grouped (insertProducts body)) token := by
  by_cases same : token = .var name
  · rw [same, replaced_var, replaced_var, insertProducts_grouped]
  · rw [replaced_of_ne same, replaced_of_ne same]
    rfl

/-- Products are inserted around a group as around the variable, and inside it as by itself. -/
theorem insertProducts_substitute (name : String) (body tokens : List Token) :
    insertProducts (substitute name (grouped body) tokens) =
      substitute name (grouped (insertProducts body)) (insertProducts tokens) := by
  induction tokens with
  | nil => rfl
  | cons left rest ih =>
      cases rest with
      | nil =>
          rw [substitute_cons, substitute_nil, List.append_nil, insertProducts_replaced]
          exact (List.append_nil _).symm
      | cons right others =>
          obtain ⟨earlier, last, ends, sameRight⟩ := replaced_ends name body left
          obtain ⟨first, later, begins, sameLeft⟩ := replaced_begins name body right
          have inserted := insertProducts_replaced name body left
          rw [ends] at inserted
          rw [substitute_cons, begins] at ih
          rw [substitute_cons, substitute_cons, ends, begins, List.append_assoc,
            List.singleton_append, List.cons_append, insertProducts_append_cons, sameRight, sameLeft,
            inserted, ← List.cons_append, ih, insertProducts_cons_cons]
          have product : replaced name (grouped (insertProducts body)) (.operator .times) =
              [.operator .times] := rfl
          split <;> simp [product]

namespace Rpn

open Phrase (commaSeparated)

theorem withProducts_grouped (juxtaposition : Bool) (body : List Token) :
    withProducts juxtaposition (grouped body) = grouped (withProducts juxtaposition body) := by
  cases juxtaposition with
  | false => rfl
  | true => exact insertProducts_grouped body

theorem withProducts_substitute (juxtaposition : Bool) (name : String) (body tokens : List Token) :
    withProducts juxtaposition (substitute name (grouped body) tokens) =
      substitute name (grouped (withProducts juxtaposition body))
        (withProducts juxtaposition tokens) := by
  cases juxtaposition with
  | false => rfl
  | true => exact insertProducts_substitute name body tokens

section

variable {name : String} {body word text held : List Token}

theorem substitute_of_operators {part : List Token} (operators : Operators held) :
    substitute name part held = held := by
  refine substitute_eq_self fun isVar => ?_
  obtain ⟨operator, carried, _⟩ := operators _ isVar
  contradiction

theorem OrdersInto.turns_grouped (orders : OrdersInto body word) (operators : Operators held) :
    Turns held (grouped body) word held := by
  obtain ⟨given, left, turns, closed, rfl⟩ := orders
  intro base grounded
  exact Reads.group rfl rfl (turns _ (.opening _)) closed.closed
    (quiet_of_operators operators grounded)

/-- Nested tokens are ordered in the same way with a group in the place of a variable, and what they
are ordered into has the word of the group in its place. -/
theorem Nested.exists_turns_substitute (nested : Nested text) (orders : OrdersInto body word)
    (operators : Operators held) :
    ∃ given left, Turns held text given left ∧
      Turns held (substitute name (grouped body) text) (substitute name word given) left ∧
      Operators left := by
  induction nested generalizing held with
  | nil => exact ⟨[], held, fun base _ => .nil _, fun base _ => .nil _, operators⟩
  | @leaf token rest isLeaf onward ih =>
      obtain ⟨given, left, turns, replacing, remaining⟩ := ih operators
      refine ⟨_, left, Turns.trans (fun base _ => .leaf isLeaf) turns, ?_, remaining⟩
      rw [substitute_cons, List.singleton_append, substitute_cons]
      refine Turns.trans ?_ replacing
      by_cases same : token = .var name
      · rw [same, replaced_var, replaced_var]
        exact orders.turns_grouped operators
      · rw [replaced_of_ne same, replaced_of_ne same]
        exact fun base _ => .leaf isLeaf
  | @operator operator rest onward ih =>
      obtain ⟨given, left, turns, replacing, remaining⟩ := ih (operators.afterOperator operator)
      refine ⟨_, left, (Turns.operator held operator).trans turns, ?_, remaining⟩
      have released : Operators (held.takeWhile (isReleasedBy operator)) :=
        fun item member => operators item ((List.takeWhile_sublist _).mem member)
      rw [substitute_append, substitute_of_operators released]
      exact (Turns.operator held operator).trans replacing
  | @group inner rest nested onward innerIH ih =>
      obtain ⟨innerGiven, innerLeft, innerTurns, innerReplacing, closed⟩ :=
        @innerIH [] (by simp [Operators])
      obtain ⟨given, left, turns, replacing, remaining⟩ := ih operators
      have group := OrdersInto.turns_grouped ⟨_, _, innerTurns, closed, rfl⟩ operators
      have groupReplacing := OrdersInto.turns_grouped ⟨_, _, innerReplacing, closed, rfl⟩ operators
      refine ⟨innerGiven ++ innerLeft ++ given, left, ?_, ?_, remaining⟩
      · simpa [grouped] using group.trans turns
      · have whole := groupReplacing.trans replacing
        simpa [grouped, replaced, substitute_of_operators closed] using whole
  | @call function arguments rest apart each onward eachIH ih =>
      have orderings : ∀ argument ∈ arguments, ∃ word', OrdersInto argument word' ∧
          OrdersInto (substitute name (grouped body) argument) (substitute name word word') := by
        intro argument member
        obtain ⟨given, left, turns, replacing, closed⟩ := @eachIH argument member [] (by simp [Operators])
        refine ⟨_, ⟨given, left, turns, closed, rfl⟩, given.flatMap (replaced name word), left,
          replacing, closed, ?_⟩
        rw [substitute_append, substitute_of_operators closed]
        rfl
      obtain ⟨words, both⟩ := exists_words orderings
      obtain ⟨given, left, turns, replacing, remaining⟩ := ih operators
      have each := reads_call (both.imp fun _ _ pair => pair.1) function
      have eachReplacing := reads_call
        (List.forall₂_map_left_iff.mpr (List.forall₂_map_right_iff.mpr
          (both.imp fun _ _ pair => pair.2))) function
      have call : Turns held
          (.function function :: .openParen :: commaSeparated arguments ++ [.closeParen])
          (words.flatten ++ [.function function]) held := fun base _ => each (held ++ base)
      have callReplacing : Turns held
          (.function function :: .openParen ::
            commaSeparated (arguments.map (substitute name (grouped body))) ++ [.closeParen])
          ((words.map (substitute name word)).flatten ++ [.function function]) held :=
        fun base _ => eachReplacing (held ++ base)
      refine ⟨words.flatten ++ [.function function] ++ given, left, ?_, ?_, remaining⟩
      · simpa using call.trans turns
      · have whole := callReplacing.trans replacing
        simpa [replaced, substitute_flatten, substitute_commaSeparated] using whole

theorem Nested.order_substitute (nested : Nested text) (orders : OrdersInto body word)
    {rpn : List Token} (result : order [] text = .ok rpn) :
    order [] (substitute name (grouped body) text) = .ok (substitute name word rpn) := by
  obtain ⟨given, left, turns, replacing, closed⟩ :=
    @nested.exists_turns_substitute name body word text [] orders (by simp [Operators])
  have same : order [] text = .ok (given ++ left) :=
    OrdersInto.order_eq ⟨given, left, turns, closed, rfl⟩
  cases result.symm.trans same
  have replaced := OrdersInto.order_eq ⟨_, left, replacing, closed, rfl⟩
  rwa [substitute_append, substitute_of_operators closed]

/-- A word that makes one value counts as the variable does. -/
theorem balanceFrom_substitute (balanced : balance word = .ok ()) (name : String) (count : Nat)
    (tokens : List Token) :
    balanceFrom count (substitute name word tokens) = balanceFrom count tokens := by
  obtain ⟨tree, saturated, written⟩ : ∃ tree : OperatorTree Token, tree.Saturated ∧
      tree.postorder = word := OperatorTree.exists_of_balance (by simpa using balanced)
  induction tokens generalizing count with
  | nil => rfl
  | cons token rest ih =>
      rw [substitute_cons]
      by_cases same : token = .var name
      · have counted := balanceFrom_postorder saturated count (substitute name word rest)
        rw [written, map_lexical_token] at counted
        rw [same, replaced_var, counted, ih]
        rfl
      · rw [replaced_of_ne same]
        simp only [List.singleton_append, balanceFrom, ih]

theorem balance_substitute (balanced : balance word = .ok ()) {rpn : List Token}
    (alsoBalanced : balance rpn = .ok ()) (name : String) :
    balance (substitute name word rpn) = .ok () := by
  have counted := balanceFrom_substitute balanced name 0 rpn
  cases rpn with
  | nil => contradiction
  | cons first rest =>
      have word_ne_nil : word ≠ [] := by
        rintro rfl
        contradiction
      have nonempty : replaced name word first ≠ [] := by
        by_cases same : first = .var name
        · rwa [same, replaced_var]
        · rw [replaced_of_ne same]
          simp
      rw [balance, List.isEmpty_cons, if_neg Bool.false_ne_true] at alsoBalanced
      rw [balance, if_neg (by simp [nonempty]), counted, alsoBalanced]

end

/-- The tokens of a formula that is accepted are nested, are ordered into its RPN wherever they stand
in parentheses, and the RPN is balanced. -/
theorem nested_of_ofText {lexicon : Lexicon} (positional : lexicon.Positional)
    {juxtaposition : Bool} {text : String} {tokens : List Located}
    (lexed : lexicon.tokens text = .ok tokens) {rpn : List Token}
    (accepted : ofText lexicon juxtaposition text = .ok rpn) :
    Nested (withProducts juxtaposition (tokens.map Located.token)) ∧
      OrdersInto (withProducts juxtaposition (tokens.map Located.token)) rpn ∧
      balance rpn = .ok () := by
  rw [ofText_eq_ofTokens lexed, ofTokens_eq_ok_iff] at accepted
  obtain ⟨result, balanced⟩ := accepted
  have placed := placed_withProducts (Lexicon.tokens_placed positional lexed) juxtaposition
  have nested := (nested_of_order placed result).1
  obtain ⟨word, orders⟩ := nested.exists_ordersInto
  cases result.symm.trans orders.order_eq
  exact ⟨nested, orders, balanced⟩

/-- Two formulas that are accepted, whatever tables of functions and operators each is read by
(`Lexicon.ofTables_positional`): with the second in parentheses in the place of every occurrence of a
variable, the tokens of the first are accepted, and in the RPN the variable is replaced by the RPN of
the second. The second in parentheses has the RPN that it has without them. -/
theorem ofTokens_substitute {lexicon other : Lexicon} (positional : lexicon.Positional)
    (alsoPositional : other.Positional) {juxtaposition : Bool} {text inner : String}
    {tokens body : List Located} (lexed : lexicon.tokens text = .ok tokens)
    (innerLexed : other.tokens inner = .ok body) {rpn word : List Token}
    (accepted : ofText lexicon juxtaposition text = .ok rpn)
    (innerAccepted : ofText other juxtaposition inner = .ok word) (name : String) :
    ofTokens juxtaposition
        (substitute name (grouped (body.map Located.token)) (tokens.map Located.token)) =
      .ok (substitute name word rpn) ∧
    ofTokens juxtaposition (grouped (body.map Located.token)) = .ok word := by
  obtain ⟨nested, orders, balanced⟩ := nested_of_ofText positional lexed accepted
  obtain ⟨_, innerOrders, innerBalanced⟩ := nested_of_ofText alsoPositional innerLexed innerAccepted
  constructor
  · rw [ofTokens_eq_ok_iff, withProducts_substitute]
    exact ⟨nested.order_substitute innerOrders orders.order_eq,
      balance_substitute innerBalanced balanced name⟩
  · rw [ofTokens_eq_ok_iff, withProducts_grouped]
    have reads := innerOrders.turns_grouped (show Operators [] by simp [Operators]) [] .nil
    exact ⟨by simpa using Reads.order_eq_ok reads (by simp), innerBalanced⟩

/-- `x + 1` in the place of `x` in `2x!`, with a product that is not written and a suffix of the
user: `2(x + 1)!` -/
theorem ofTokens_substitute_in_product :
    let suffix : Operator := ⟨"!", 1, true, 10001⟩
    let sum : Operator := ⟨"+", 2, true, 500⟩
    ofTokens true [Token.number 2, .openParen, .var "x", .operator sum, .number 1, .closeParen,
        .operator suffix] =
      .ok [.number 2, .var "x", .number 1, .operator sum, .operator suffix, .operator .times] ∧
    ofTokens true [Token.openParen, .var "x", .operator sum, .number 1, .closeParen] =
      .ok [.var "x", .number 1, .operator sum] := by
  intro suffix sum
  have lexed : (Vocabulary.lexicon { names := ["x"], operators := [suffix] }).tokens "2x!" =
      .ok [⟨.number 2, ⟨0, 1⟩⟩, ⟨.var "x", ⟨1, 2⟩⟩, ⟨.operator suffix, ⟨2, 3⟩⟩] := by
    decide +kernel
  have innerLexed : (Vocabulary.lexicon { names := ["x"], operators := [suffix] }).tokens "x + 1" =
      .ok [⟨.var "x", ⟨0, 1⟩⟩, ⟨.operator sum, ⟨2, 3⟩⟩, ⟨.number 1, ⟨4, 5⟩⟩] := by
    decide +kernel
  have accepted : ofText (Vocabulary.lexicon { names := ["x"], operators := [suffix] }) true "2x!" =
      .ok [.number 2, .var "x", .operator suffix, .operator .times] := by
    decide +kernel
  have innerAccepted : ofText (Vocabulary.lexicon { names := ["x"], operators := [suffix] }) true
      "x + 1" = .ok [.var "x", .number 1, .operator sum] := by
    decide +kernel
  have positional := Vocabulary.lexicon_positional { names := ["x"], operators := [suffix] }
  exact ofTokens_substitute positional positional lexed innerLexed accepted innerAccepted "x"

end Rpn

end Formula
