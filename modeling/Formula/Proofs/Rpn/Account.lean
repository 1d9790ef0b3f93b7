import Mathlib
import Formula.Proofs.Rpn.Acceptance
import Formula.Proofs.Rpn.Calls
import Formula.Proofs.Rpn.Grammar

namespace Formula

/-! The account of operands that a formula keeps.

Every token that is read has a place. Operands in excess crowd the one that has just ended, or are
arguments beyond those that a function takes; operands are short where a place is left empty, or where
a function or an operator takes more than it is given. A formula is accepted only if its values come
out at one, and that is: only if the excess is the shortage. The two are not looked at by themselves,
so an excess in one part is made up for by a shortage in another.
-/

namespace Token

/-- Whether the place for an operand ends before the token. -/
def endsPlace : Token → Bool
  | .closeParen | .comma => true
  | .number _ | .var _ | .operator _ | .function _ | .openParen => false

/-- How many operands the token takes beyond its places for them: a function has one place, an
operator one on each side, and a comma makes another. -/
def demand : Token → Int
  | .operator definition => if definition.isUnary then 0 else definition.operands - 2
  | .function definition => definition.arity - 1
  | .comma => -1
  | .number _ | .var _ | .openParen | .closeParen => 0

end Token

theorem Operator.isSuffix_eq_false_of_isPrefix {operator : Operator}
    (stands : operator.isPrefix = true) : operator.isSuffix = false := by
  simp only [isPrefix, isSuffix, Bool.and_eq_true, Bool.not_eq_true'] at stands ⊢
  simp [stands.2]

namespace Rpn

open Grammar
open Phrase (commaSeparated)

/-! Places alone: a function has the place behind its parenthesis, and commas make others. -/

/-- How many operands begin directly after one. -/
def crowded : (before : Option Token) → List Token → Nat
  | _, [] => 0
  | before, token :: rest =>
      (token.beginsOperand && !operandExpected before).toNat + crowded (some token) rest

/-- How many places for an operand end without one. -/
def missing : (before : Option Token) → List Token → Nat
  | before, [] => (operandExpected before).toNat
  | before, token :: rest =>
      (token.endsPlace && operandExpected before).toNat + missing (some token) rest

theorem writtenSurplus_cons (token : Token) (rest : List Token) :
    writtenSurplus (token :: rest) = writtenSurplus [token] + writtenSurplus rest := by
  cases made : makesValue token <;> simp [writtenSurplus, made]

theorem surplus_of_operator {before : Option Token} {operator : Operator} {rest : List Token}
    (fits : (Token.operator operator).Fits before rest) :
    1 - (operator.operands : Int) + (!operandExpected before).toInt +
        (Token.operator operator).demand =
      operator.isSuffix.toInt := by
  rw [← fits.1 operator rfl, Token.demand]
  cases isPrefix : operator.isPrefix with
  | true =>
      have operands := operands_of_isPrefix isPrefix
      rw [Operator.isSuffix_eq_false_of_isPrefix isPrefix]
      simp [Operator.isUnary, operands]
  | false =>
      cases unary : operator.isUnary with
      | true =>
          have operands : operator.operands = 1 := by simpa [Operator.isUnary] using unary
          have isSuffix : operator.isSuffix = true := by
            simpa [Operator.isPrefix, Operator.isSuffix, unary] using isPrefix
          simp [operands, isSuffix]
      | false =>
          have noSuffix : operator.isSuffix = false := by simp [Operator.isSuffix, unary]
          simp only [noSuffix, Bool.not_false, Bool.toInt_true, Bool.toInt_false,
            Bool.false_eq_true, ↓reduceIte]
          omega

/-- Every token that fits keeps account: the value it makes goes to its place, or crowds. -/
theorem surplus_of_fits {before : Option Token} {token : Token} {rest : List Token}
    (fits : token.Fits before rest) :
    writtenSurplus [token] + (!operandExpected before).toInt +
        ((token.endsPlace && operandExpected before).toNat + token.demand) =
      (token.beginsOperand && !operandExpected before).toNat +
        (!operandExpected (some token)).toInt := by
  cases token with
  | operator operator =>
      have account := surplus_of_operator fits
      rw [writtenSurplus_operator]
      simp only [Token.endsPlace, Token.beginsOperand, Bool.false_and, Bool.toNat_false,
        writtenSurplus_nil, operandExpected_eq, Option.any_some, Token.endsOperand,
        Bool.not_not] at account ⊢
      omega
  | number value =>
      rw [writtenSurplus_leaf (.inl ⟨value, rfl⟩)]
      cases operandExpected before <;> rfl
  | var name =>
      rw [writtenSurplus_leaf (.inr ⟨name, rfl⟩)]
      cases operandExpected before <;> rfl
  | function function =>
      rw [writtenSurplus_function, Token.demand]
      cases operandExpected before <;>
        simp [Token.endsPlace, Token.beginsOperand, operandExpected_eq, Token.endsOperand]
  | openParen => cases operandExpected before <;> rfl
  | closeParen => cases operandExpected before <;> rfl
  | comma => cases operandExpected before <;> rfl

/-- The values that tokens make and those that their places lack are one, for the whole, and the
operands that crowd. -/
theorem writtenSurplus_add_missing {before : Option Token} {tokens : List Token}
    (placed : Placed before tokens) :
    writtenSurplus tokens + (!operandExpected before).toInt +
        (missing before tokens + (tokens.map Token.demand).sum) =
      1 + crowded before tokens := by
  induction placed with
  | @nil before => cases place : operandExpected before <;> simp [missing, crowded, place]
  | @cons before token rest fits placed ih =>
      have account := surplus_of_fits fits
      rw [writtenSurplus_cons, missing, crowded, List.map_cons, List.sum_cons]
      push_cast
      omega

/-! Calls: the commas in the parentheses of a function are its own, and a call without arguments has
no place. -/

/-- How many commas stand between a parenthesis and its partner, with `depth` others open. -/
def separators : (depth : Nat) → List Token → Nat
  | _, [] => 0
  | depth, .openParen :: rest => separators (depth + 1) rest
  | depth, .closeParen :: rest => if depth = 0 then 0 else separators (depth - 1) rest
  | depth, .comma :: rest => (if depth = 0 then 1 else 0) + separators depth rest
  | depth, _ :: rest => separators depth rest

/-- How many arguments a function is given by what follows it. -/
def argumentsGiven : (after : List Token) → Nat
  | .openParen :: .closeParen :: _ => 0
  | .openParen :: rest => separators 0 rest + 1
  | _ => 0

/-- How many calls have nothing between their parentheses. -/
def emptyCalls : List Token → Nat
  | [] => 0
  | .function _ :: .openParen :: .closeParen :: rest => emptyCalls rest + 1
  | _ :: rest => emptyCalls rest

/-- How many places for an operand end without one, calls without arguments apart. -/
def unfilled : (before : Option Token) → List Token → Nat
  | before, [] => (operandExpected before).toNat
  | _, .function _ :: .openParen :: .closeParen :: rest => unfilled (some .closeParen) rest
  | before, token :: rest =>
      (token.endsPlace && operandExpected before).toNat + unfilled (some token) rest

theorem missing_eq (before : Option Token) (tokens : List Token) :
    missing before tokens = unfilled before tokens + emptyCalls tokens := by
  fun_induction unfilled before tokens with
  | case1 before => simp [missing, emptyCalls]
  | case2 before function rest ih =>
      simp only [missing, emptyCalls, ih]
      simp [operandExpected_eq, Token.endsPlace, Token.endsOperand]
      omega
  | case3 before token rest other ih =>
      rw [missing, ih, emptyCalls]
      · omega
      · exact other

/-- How many operands a token is given beyond those it takes, with `after` behind it. -/
def givenBeyond (after : List Token) : Token → Nat
  | .operator definition => if definition.isUnary then 0 else 2 - definition.operands
  | .function definition => argumentsGiven after - definition.arity
  | .number _ | .var _ | .openParen | .closeParen | .comma => 0

/-- How many operands a token takes beyond those it is given, with `after` behind it. -/
def takenBeyond (after : List Token) : Token → Nat
  | .operator definition => if definition.isUnary then 0 else definition.operands - 2
  | .function definition => definition.arity - argumentsGiven after
  | .number _ | .var _ | .openParen | .closeParen | .comma => 0

/-- How many operands tokens are given beyond those they take. -/
def spare : List Token → Nat
  | [] => 0
  | token :: rest => givenBeyond rest token + spare rest

/-- How many operands tokens take beyond those they are given. -/
def wanting : List Token → Nat
  | [] => 0
  | token :: rest => takenBeyond rest token + wanting rest

/-- How many operands are in excess: those that crowd, and those that no token takes. -/
def excess (tokens : List Token) : Nat := crowded none tokens + spare tokens

/-- How many operands are short: those whose place is empty, and those that tokens take beyond. -/
def shortage (tokens : List Token) : Nat := unfilled none tokens + wanting tokens

/-- What the commas add to a measure that arguments leave as it is. -/
theorem measure_commaSeparated {α : Type} [AddCommMonoid α] {measure : List Token → α} {step : α}
    {arguments : List (List Token)}
    (each : ∀ argument ∈ arguments, ∀ after, measure (argument ++ after) = measure after)
    (comma : ∀ after, measure (.comma :: after) = step + measure after) (after : List Token) :
    measure (commaSeparated arguments ++ after) = (arguments.length - 1) • step + measure after := by
  induction arguments with
  | nil => simp [commaSeparated]
  | cons first others ih =>
      have later := ih fun argument member => each argument (List.mem_cons_of_mem _ member)
      cases others with
      | nil => simp [commaSeparated, each first]
      | cons next others =>
          rw [commaSeparated, List.append_assoc, each first (by simp), List.cons_append, comma, later]
          simp only [List.length_cons, Nat.add_sub_cancel, succ_nsmul']
          rw [add_assoc]

theorem Nested.separators_append {text : List Token} (nested : Nested text) (depth : Nat)
    (after : List Token) : separators depth (text ++ after) = separators depth after := by
  induction nested generalizing depth after with
  | nil => rfl
  | leaf isLeaf onward ih =>
      rcases isLeaf with ⟨value, carried⟩ | ⟨name, carried⟩ <;> cases carried
      · exact ih depth after
      · exact ih depth after
  | operator onward ih => exact ih depth after
  | group nested onward innerIH ih => simp [separators, innerIH, ih]
  | @call function arguments rest apart each onward eachIH ih =>
      have inner (after : List Token) :
          separators (depth + 1) (commaSeparated arguments ++ after) = separators (depth + 1) after := by
        have measured := @measure_commaSeparated Nat _ (separators (depth + 1)) 0 arguments
          (fun argument member after => eachIH argument member (depth + 1) after)
          (fun after => by simp [separators]) after
        simpa using measured
      simp [separators, inner, ih]

theorem head?_ne_closeParen_of_nested {text : List Token} (nested : Nested text)
    (nonempty : text ≠ []) (after : List Token) : (text ++ after).head? ≠ some .closeParen := by
  cases nested with
  | nil => contradiction
  | leaf isLeaf onward =>
      rcases isLeaf with ⟨value, carried⟩ | ⟨name, carried⟩ <;> cases carried <;> simp
  | operator onward => simp
  | group nested onward => simp
  | call apart each onward => simp

theorem head?_ne_closeParen_of_arguments {arguments : List (List Token)} (apart : arguments ≠ [[]])
    (nonempty : arguments ≠ []) (each : ∀ argument ∈ arguments, Nested argument)
    (after : List Token) : (commaSeparated arguments ++ after).head? ≠ some .closeParen := by
  cases arguments with
  | nil => contradiction
  | cons first others =>
      obtain ⟨later, separated, further⟩ := exists_commaSeparated_cons others
      rw [separated, List.append_assoc]
      cases first with
      | nil =>
          obtain ⟨rest, rfl⟩ := List.head?_eq_some_iff.mp (further (by simpa using apart))
          simp
      | cons token remaining =>
          exact head?_ne_closeParen_of_nested (each _ (by simp)) (by simp) _

theorem argumentsGiven_of_head? {inner : List Token} (other : inner.head? ≠ some .closeParen) :
    argumentsGiven (.openParen :: inner) = separators 0 inner + 1 := by
  cases inner with
  | nil => rfl
  | cons token rest => cases token <;> first | rfl | simp at other

theorem argumentsGiven_eq {arguments : List (List Token)} (apart : arguments ≠ [[]])
    (each : ∀ argument ∈ arguments, Nested argument) (rest : List Token) :
    argumentsGiven (.openParen :: (commaSeparated arguments ++ .closeParen :: rest)) =
      arguments.length := by
  cases arguments with
  | nil => rfl
  | cons first others =>
      rw [argumentsGiven_of_head? (head?_ne_closeParen_of_arguments apart (by simp) each _)]
      have measured := @measure_commaSeparated Nat _ (separators 0) 1 (first :: others)
        (fun argument member after => (each argument member).separators_append 0 after)
        (fun after => by simp [separators]) (.closeParen :: rest)
      rw [measured]
      simp [separators]

/-- What is left of the demand of tokens when calls and operators are settled with what they are
given. -/
def unsettled (tokens : List Token) : Int :=
  (tokens.map Token.demand).sum + emptyCalls tokens + spare tokens - wanting tokens

theorem unsettled_cons {token : Token} (other : token.isFunction = false) (rest : List Token) :
    unsettled (token :: rest) =
      token.demand + givenBeyond rest token - takenBeyond rest token + unsettled rest := by
  have noCall : emptyCalls (token :: rest) = emptyCalls rest := by
    cases token <;> first | rfl | contradiction
  simp only [unsettled, noCall, spare, wanting, List.map_cons, List.sum_cons]
  push_cast
  omega

theorem unsettled_operator (operator : Operator) (rest : List Token) :
    unsettled (.operator operator :: rest) = unsettled rest := by
  rw [unsettled_cons rfl, Token.demand, givenBeyond, takenBeyond]
  split <;> omega

theorem unsettled_emptyCall (function : FunctionSymbol) (rest : List Token) :
    unsettled (.function function :: .openParen :: .closeParen :: rest) = unsettled rest := by
  simp only [unsettled, emptyCalls, spare, wanting, givenBeyond, takenBeyond, argumentsGiven,
    Token.demand, List.map_cons, List.sum_cons]
  push_cast
  omega

theorem unsettled_call (function : FunctionSymbol) {inner : List Token}
    (other : inner.head? ≠ some .closeParen) :
    unsettled (.function function :: .openParen :: inner) = separators 0 inner + unsettled inner := by
  have noCall : emptyCalls (.function function :: .openParen :: inner) = emptyCalls inner := by
    rw [emptyCalls]
    · rfl
    · rintro definition rest _ same
      obtain ⟨-, rfl⟩ := List.cons.inj same
      simp at other
  simp only [unsettled, noCall, spare, wanting, givenBeyond, takenBeyond,
    argumentsGiven_of_head? other, Token.demand, List.map_cons, List.sum_cons]
  push_cast
  omega

@[simp] theorem unsettled_openParen (rest : List Token) :
    unsettled (.openParen :: rest) = unsettled rest := by
  rw [unsettled_cons rfl]
  simp [Token.demand, givenBeyond, takenBeyond]

@[simp] theorem unsettled_closeParen (rest : List Token) :
    unsettled (.closeParen :: rest) = unsettled rest := by
  rw [unsettled_cons rfl]
  simp [Token.demand, givenBeyond, takenBeyond]

theorem unsettled_comma (rest : List Token) :
    unsettled (.comma :: rest) = -1 + unsettled rest := by
  rw [unsettled_cons rfl]
  simp [Token.demand, givenBeyond, takenBeyond]

theorem unsettled_leaf {token : Token} (isLeaf : IsLeaf token) (rest : List Token) :
    unsettled (token :: rest) = unsettled rest := by
  rcases isLeaf with ⟨value, carried⟩ | ⟨name, carried⟩ <;> cases carried <;>
    rw [unsettled_cons rfl] <;> simp [Token.demand, givenBeyond, takenBeyond]

theorem Nested.unsettled_append {text : List Token} (nested : Nested text) (after : List Token) :
    unsettled (text ++ after) = unsettled after := by
  induction nested generalizing after with
  | nil => rfl
  | leaf isLeaf onward ih => rw [List.cons_append, unsettled_leaf isLeaf, ih]
  | operator onward ih => rw [List.cons_append, unsettled_operator, ih]
  | group nested onward innerIH ih =>
      rw [List.cons_append, List.append_assoc, unsettled_openParen, innerIH, List.cons_append,
        unsettled_closeParen, ih]
  | @call function arguments rest apart each onward eachIH ih =>
      cases arguments with
      | nil =>
          rw [commaSeparated, List.nil_append, List.cons_append, List.cons_append, List.cons_append,
            unsettled_emptyCall, ih]
      | cons first others =>
          -- The commas give back what the function asks for beyond its first place.
          have begins := head?_ne_closeParen_of_arguments apart (by simp) each
            (.closeParen :: (rest ++ after))
          have given := argumentsGiven_eq apart each (rest ++ after)
          rw [argumentsGiven_of_head? begins] at given
          have inner := @measure_commaSeparated Int _ unsettled (-1) (first :: others) eachIH
            unsettled_comma (.closeParen :: (rest ++ after))
          rw [List.cons_append, List.cons_append, List.append_assoc, List.cons_append,
            unsettled_call function begins, inner, unsettled_closeParen, ih]
          simp only [List.length_cons, Nat.add_sub_cancel, nsmul_eq_mul] at given ⊢
          omega

theorem surplus_of_order {tokens ordered : List Token} (result : order [] tokens = .ok ordered) :
    surplus ordered = writtenSurplus tokens :=
  surplus_perm ((run_of_order result).perm (by simp [Waiting]))

/-- What tokens that can be ordered leave, and the shortage, are one value and the excess. -/
theorem surplus_add_shortage {tokens ordered : List Token} (placed : Placed none tokens)
    (result : order [] tokens = .ok ordered) :
    surplus ordered + shortage tokens = 1 + excess tokens := by
  have kept := surplus_of_order result
  have account := writtenSurplus_add_missing placed
  have settled : unsettled tokens = 0 := by
    have appended := (nested_of_order placed result).1.unsettled_append []
    rwa [List.append_nil] at appended
  rw [missing_eq] at account
  simp only [operandExpected_eq, Option.any_none, Bool.not_false, Bool.not_true, Bool.toInt_false]
    at account
  simp only [unsettled] at settled
  simp only [excess, shortage]
  push_cast at account ⊢
  omega

/-- In tokens that are ordered and balanced the excess is the shortage. -/
theorem excess_eq_shortage {tokens ordered : List Token} (placed : Placed none tokens)
    (result : order [] tokens = .ok ordered) (balanced : balance ordered = .ok ()) :
    excess tokens = shortage tokens := by
  have account := surplus_add_shortage placed result
  rw [balance_surplus balanced] at account
  omega

theorem crowded_pos {left right : Token} (ends : left.endsOperand = true)
    (begins : right.beginsOperand = true) (before : Option Token) (earlier later : List Token) :
    0 < crowded before (earlier ++ left :: right :: later) := by
  induction earlier generalizing before with
  | nil =>
      have crowd : (right.beginsOperand && !operandExpected (some left)).toNat = 1 := by
        simp [begins, operandExpected_eq, ends]
      rw [List.nil_append, crowded, crowded, crowd]
      omega
  | cons token others ih =>
      have further := ih (some token)
      rw [List.cons_append, crowded]
      omega

/-- Neighbours that are operands, and do not multiply, are in excess. -/
theorem excess_pos_of_neighbours {juxtaposition : Bool} {left right : Token}
    (operands : left.isNumber = true ∧ right.isNumber = true ∨
      juxtaposition = false ∧ left.endsOperand = true ∧ right.beginsOperand = true)
    (earlier later : List Token) :
    0 < excess (withProducts juxtaposition (earlier ++ left :: right :: later)) := by
  have crowd : left.endsOperand = true ∧ right.beginsOperand = true := by
    rcases operands with ⟨first, second⟩ | ⟨_, ends, begins⟩
    · cases left <;> cases right <;> first | contradiction | exact ⟨rfl, rfl⟩
    · exact ⟨ends, begins⟩
  have kept : ∃ before after, withProducts juxtaposition (earlier ++ left :: right :: later) =
      before ++ left :: right :: after := by
    cases juxtaposition with
    | false => exact ⟨earlier, later, rfl⟩
    | true =>
        refine exists_neighbours_insertProducts ?_ earlier later
        rcases operands with ⟨first, second⟩ | ⟨never, _⟩
        · simp [Token.multipliesWith_eq, first, second]
        · contradiction
  obtain ⟨before, after, same⟩ := kept
  rw [same, excess]
  have positive := crowded_pos crowd.1 crowd.2 none before after
  omega

/-- Two numbers side by side, or without juxtaposition any two operands, are an error unless operands
are short somewhere in the formula. -/
theorem ofText_error_of_neighbours {vocabulary : Vocabulary} {juxtaposition : Bool} {text : String}
    {tokens : List Located} (lexed : vocabulary.lexicon.tokens text = .ok tokens)
    {earlier later : List Token} {left right : Token}
    (adjacent : tokens.map Located.token = earlier ++ left :: right :: later)
    (operands : left.isNumber = true ∧ right.isNumber = true ∨
      juxtaposition = false ∧ left.endsOperand = true ∧ right.beginsOperand = true)
    (supplied : shortage (withProducts juxtaposition (tokens.map Located.token)) = 0) :
    ∃ reason, ofText vocabulary.lexicon juxtaposition text = .error reason := by
  cases outcome : ofText vocabulary.lexicon juxtaposition text with
  | error reason => exact ⟨reason, rfl⟩
  | ok rpn =>
      rw [ofText_eq_ofTokens lexed, ofTokens_eq_ok_iff] at outcome
      have placed := Lexicon.tokens_placed vocabulary.lexicon_positional lexed
      have account := excess_eq_shortage (placed_withProducts placed juxtaposition) outcome.1 outcome.2
      have positive := excess_pos_of_neighbours operands earlier later
      rw [adjacent] at account supplied
      omega

/-- `2 3 + 1` -/
theorem ofText_error_of_neighbours_in_sum :
    shortage [.number 2, .number 3, .operator ⟨"+", 2, true, 500⟩, .number 1] = 0 ∧
      ∃ reason, ofText (Vocabulary.lexicon {}) true "2 3 + 1" = .error reason := by
  have lexed : (Vocabulary.lexicon {}).tokens "2 3 + 1" =
      .ok [⟨.number 2, ⟨0, 1⟩⟩, ⟨.number 3, ⟨2, 3⟩⟩, ⟨.operator ⟨"+", 2, true, 500⟩, ⟨4, 5⟩⟩,
        ⟨.number 1, ⟨6, 7⟩⟩] := by
    decide +kernel
  have supplied :
      shortage [.number 2, .number 3, .operator ⟨"+", 2, true, 500⟩, .number 1] = 0 := by
    decide
  refine ⟨supplied, ?_⟩
  exact @ofText_error_of_neighbours {} true "2 3 + 1" _ lexed [] _ (.number 2) (.number 3) rfl
    (.inl ⟨rfl, rfl⟩) supplied

/-- An operand that is missing at the end of `2 3 +` makes up for the numbers side by side. -/
theorem ofText_numbers_before_sum :
    (Vocabulary.lexicon {}).tokens "2 3 +" = .ok [⟨.number 2, ⟨0, 1⟩⟩, ⟨.number 3, ⟨2, 3⟩⟩,
        ⟨.operator ⟨"+", 2, true, 500⟩, ⟨4, 5⟩⟩] ∧
      ∀ juxtaposition, ofText (Vocabulary.lexicon {}) juxtaposition "2 3 +" =
        .ok [.number 2, .number 3, .operator ⟨"+", 2, true, 500⟩] := by
  decide +kernel

end Rpn

end Formula
