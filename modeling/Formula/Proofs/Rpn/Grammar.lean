import Formula.Proofs.Rpn.Conservation
import Formula.Proofs.Token.Products

namespace Formula

/-! The grammar of expressions with built-in operators and functions of one argument, and that
nothing else is accepted.

Three facts about accepted tokens meet here. Each token stands where it fits, so operands and binary
operators alternate, except that a parenthesis may close where an operand is missing. Every missing
operand costs one value, and there is exactly one value in the end, so none is missing. And the
parentheses close. What alternates without gaps and closes is derivable.
-/

namespace Grammar

open Rpn

mutual
/-- `E ::= U (binop U)*` -/
inductive Expression : List Token → Prop
  | chain {first others : List Token} (operand : Operand first) (links : Links others) :
      Expression (first ++ others)

/-- `(binop U)*` -/
inductive Links : List Token → Prop
  | nil : Links []
  | cons {operator : Operator} {next others : List Token} (builtin : operator ∈ Operator.builtins)
      (binary : operator.operands = 2) (operand : Operand next) (links : Links others) :
      Links (.operator operator :: next ++ others)

/-- `U ::= prefixop* P` -/
inductive Operand : List Token → Prop
  | primary {tokens : List Token} (primary : Primary tokens) : Operand tokens
  | signed {operator : Operator} {tokens : List Token} (builtin : operator ∈ Operator.builtins)
      (sign : operator.isPrefix = true) (operand : Operand tokens) :
      Operand (.operator operator :: tokens)

/-- `P ::= Number | Variable | '(' E ')' | Function '(' E ')'` -/
inductive Primary : List Token → Prop
  | number (value : Float) : Primary [.number value]
  | var (name : String) : Primary [.var name]
  | group {inner : List Token} (expression : Expression inner) :
      Primary (.openParen :: inner ++ [.closeParen])
  | call {inner : List Token} (function : FunctionSymbol) (expression : Expression inner) :
      Primary (.function function :: .openParen :: inner ++ [.closeParen])
end

/-- Operands begin only where one is expected, and binary operators stand only after one. With
`gaps`, a parenthesis may close, or the tokens end, where an operand is still expected. -/
inductive Alternating (gaps : Bool) : (expected : Bool) → List Token → Prop
  | nil {expected : Bool} (gap : expected = true → gaps = true) : Alternating gaps expected []
  | leaf {token : Token} {rest : List Token} (isLeaf : Rpn.IsLeaf token)
      (onward : Alternating gaps false rest) : Alternating gaps true (token :: rest)
  | sign {operator : Operator} {rest : List Token} (builtin : operator ∈ Operator.builtins)
      (isPrefix : operator.isPrefix = true) (onward : Alternating gaps true rest) :
      Alternating gaps true (.operator operator :: rest)
  | opening {rest : List Token} (onward : Alternating gaps true rest) :
      Alternating gaps true (.openParen :: rest)
  | call {function : FunctionSymbol} {rest : List Token} (unary : function.arity = 1)
      (onward : Alternating gaps true rest) :
      Alternating gaps true (.function function :: .openParen :: rest)
  | closing {expected : Bool} {rest : List Token} (gap : expected = true → gaps = true)
      (onward : Alternating gaps false rest) : Alternating gaps expected (.closeParen :: rest)
  | binary {operator : Operator} {rest : List Token} (builtin : operator ∈ Operator.builtins)
      (binary : operator.operands = 2) (onward : Alternating gaps true rest) :
      Alternating gaps false (.operator operator :: rest)

theorem operands_of_isPrefix {operator : Operator} (isPrefix : operator.isPrefix = true) :
    operator.operands = 1 := by
  simp only [Operator.isPrefix, Operator.isUnary, Bool.and_eq_true, beq_iff_eq] at isPrefix
  exact isPrefix.1

theorem operands_of_not_isPrefix :
    ∀ operator ∈ Operator.builtins, operator.isPrefix = false → operator.operands = 2 := by
  decide

theorem not_isSuffix_of_mem_builtins :
    ∀ operator ∈ Operator.builtins, operator.isSuffix = false := by
  decide

theorem operandExpected_of_separate {before : Option Token} {token : Token} {rest : List Token}
    (begins : token.beginsOperand = true)
    (separate : (before.toList ++ token :: rest).IsChain fun left right =>
      left.endsOperand = true → right.beginsOperand = false) :
    operandExpected before = true := by
  cases before with
  | none => rfl
  | some earlier =>
      have neighbours := (List.isChain_cons_cons.mp separate).1
      rw [begins] at neighbours
      simpa [operandExpected_eq] using neighbours

theorem alternating_of_placed {before : Option Token} {tokens : List Token}
    (placed : Placed before tokens)
    (separate : (before.toList ++ tokens).IsChain fun left right =>
      left.endsOperand = true → right.beginsOperand = false)
    (builtin : ∀ operator, Token.operator operator ∈ tokens → operator ∈ Operator.builtins)
    (unary : ∀ function, Token.function function ∈ tokens → function.arity = 1)
    (commas : Token.comma ∉ tokens) :
    Alternating true (operandExpected before) tokens := by
  induction placed with
  | nil => exact .nil fun _ => rfl
  | @cons before token rest fits placed ih =>
      have onward : Alternating true (operandExpected (some token)) rest := by
        refine ih ?_ ?_ ?_ ?_
        · cases before with
          | none => exact separate
          | some earlier => exact (List.isChain_cons_cons.mp separate).2
        · exact fun operator member => builtin operator (List.mem_cons_of_mem _ member)
        · exact fun function member => unary function (List.mem_cons_of_mem _ member)
        · exact fun member => commas (List.mem_cons_of_mem _ member)
      cases token with
      | number value =>
          rw [operandExpected_of_separate rfl separate]
          exact .leaf (.inl ⟨value, rfl⟩) onward
      | var name =>
          rw [operandExpected_of_separate rfl separate]
          exact .leaf (.inr ⟨name, rfl⟩) onward
      | openParen =>
          rw [operandExpected_of_separate rfl separate]
          exact .opening onward
      | closeParen => exact .closing (fun _ => rfl) onward
      | comma => simp at commas
      | function function =>
          rw [operandExpected_of_separate rfl separate]
          obtain ⟨others, rfl⟩ := List.head?_eq_some_iff.mp (fits.2 rfl)
          -- The parenthesis after the name is the one of the call.
          cases onward with
          | leaf isLeaf _ => rcases isLeaf with ⟨_, same⟩ | ⟨_, same⟩ <;> contradiction
          | opening inner => exact .call (unary function (by simp)) inner
      | operator operator =>
          have known := builtin operator (by simp)
          have expects : operandExpected (some (.operator operator)) = true := by
            simp [operandExpected_eq, Token.endsOperand, not_isSuffix_of_mem_builtins operator known]
          rw [expects] at onward
          rw [← fits.1 operator rfl]
          cases isPrefix : operator.isPrefix with
          | true => exact .sign known isPrefix onward
          | false => exact .binary known (operands_of_not_isPrefix operator known isPrefix) onward

/-- The surplus of tokens as they are written, punctuation aside. -/
def writtenSurplus (tokens : List Token) : Int := surplus (tokens.filter makesValue)

@[simp] theorem writtenSurplus_nil : writtenSurplus [] = 0 := rfl

@[simp] theorem writtenSurplus_openParen (rest : List Token) :
    writtenSurplus (.openParen :: rest) = writtenSurplus rest := rfl

@[simp] theorem writtenSurplus_closeParen (rest : List Token) :
    writtenSurplus (.closeParen :: rest) = writtenSurplus rest := rfl

@[simp] theorem writtenSurplus_operator (operator : Operator) (rest : List Token) :
    writtenSurplus (.operator operator :: rest) =
      1 - (operator.operands : Int) + writtenSurplus rest := rfl

@[simp] theorem writtenSurplus_function (function : FunctionSymbol) (rest : List Token) :
    writtenSurplus (.function function :: rest) =
      1 - (function.arity : Int) + writtenSurplus rest := rfl

theorem writtenSurplus_leaf {token : Token} (isLeaf : IsLeaf token) (rest : List Token) :
    writtenSurplus (token :: rest) = 1 + writtenSurplus rest := by
  rcases isLeaf with ⟨value, carried⟩ | ⟨name, carried⟩
  · obtain rfl : token = .number value := carried
    rfl
  · obtain rfl : token = .var name := carried
    rfl

namespace Alternating

variable {gaps expected : Bool} {tokens : List Token}

/-- Tokens that alternate make at most one value where an operand is expected, and at most none
where one has ended. -/
theorem writtenSurplus_le (alternating : Alternating gaps expected tokens) :
    writtenSurplus tokens ≤ expected.toInt := by
  induction alternating with
  | @nil expected gap => cases expected <;> simp
  | leaf isLeaf onward ih =>
      rw [writtenSurplus_leaf isLeaf]
      simp only [Bool.toInt_true, Bool.toInt_false] at ih ⊢
      omega
  | sign builtin isPrefix onward ih =>
      rw [writtenSurplus_operator, operands_of_isPrefix isPrefix]
      simpa using ih
  | opening onward ih => exact ih
  | call unary onward ih =>
      rw [writtenSurplus_function, unary]
      simpa using ih
  | @closing expected rest gap onward ih =>
      rw [writtenSurplus_closeParen]
      cases expected with
      | false => exact ih
      | true =>
          simp only [Bool.toInt_true, Bool.toInt_false] at ih ⊢
          omega
  | binary builtin binary onward ih =>
      rw [writtenSurplus_operator, binary]
      simp only [Bool.toInt_true, Bool.toInt_false] at ih ⊢
      omega

/-- With as many values as that, no operand is missing. -/
theorem complete (alternating : Alternating gaps expected tokens)
    (full : expected.toInt ≤ writtenSurplus tokens) : Alternating false expected tokens := by
  induction alternating with
  | @nil expected gap =>
      refine .nil fun missing => ?_
      rw [missing] at full
      simp at full
  | leaf isLeaf onward ih =>
      rw [writtenSurplus_leaf isLeaf] at full
      refine .leaf isLeaf (ih ?_)
      simp only [Bool.toInt_true, Bool.toInt_false] at full ⊢
      omega
  | sign builtin isPrefix onward ih =>
      rw [writtenSurplus_operator, operands_of_isPrefix isPrefix] at full
      exact .sign builtin isPrefix (ih (by simpa using full))
  | opening onward ih => exact .opening (ih full)
  | call unary onward ih =>
      rw [writtenSurplus_function, unary] at full
      exact .call unary (ih (by simpa using full))
  | @closing expected rest gap onward ih =>
      rw [writtenSurplus_closeParen] at full
      have atMost := onward.writtenSurplus_le
      cases expected with
      | false => exact .closing (by simp) (ih full)
      | true =>
          -- Closing in a gap costs the value that nothing later can give back.
          simp only [Bool.toInt_true, Bool.toInt_false] at full atMost
          omega
  | binary builtin binary onward ih =>
      rw [writtenSurplus_operator, binary] at full
      refine .binary builtin binary (ih ?_)
      simp only [Bool.toInt_true, Bool.toInt_false] at full ⊢
      omega

end Alternating

/-- What follows an operand with `depth` parentheses open: links, and behind every closing
parenthesis links again. -/
inductive Remainder : (depth : Nat) → List Token → Prop
  | last {tokens : List Token} (links : Links tokens) : Remainder 0 tokens
  | close {depth : Nat} {inner outer : List Token} (links : Links inner)
      (remainder : Remainder depth outer) : Remainder (depth + 1) (inner ++ .closeParen :: outer)

namespace Remainder

variable {depth : Nat} {next rest first : List Token}

theorem closing (remainder : Remainder depth rest) :
    Remainder (depth + 1) (.closeParen :: rest) :=
  .close .nil remainder

theorem link {operator : Operator} (builtin : operator ∈ Operator.builtins)
    (binary : operator.operands = 2) (operand : Operand next) (remainder : Remainder depth rest) :
    Remainder depth (.operator operator :: next ++ rest) := by
  cases remainder with
  | last links => exact .last (.cons builtin binary operand links)
  | @close depth inner outer links further =>
      rw [← List.append_assoc]
      exact .close (.cons builtin binary operand links) further

/-- An operand and what follows it inside a parenthesis make the expression in it. -/
theorem enclosed (operand : Operand first) (remainder : Remainder (depth + 1) rest) :
    ∃ inner outer, first ++ rest = inner ++ .closeParen :: outer ∧ Expression inner ∧
      Remainder depth outer := by
  cases remainder with
  | @close depth inner outer links further =>
      exact ⟨first ++ inner, outer, by rw [List.append_assoc], .chain operand links, further⟩

end Remainder

/-- Tokens without gaps and with closed parentheses divide into an operand, if one is expected, and
what can follow it. -/
theorem Alternating.divides {expected : Bool} {tokens : List Token}
    (alternating : Alternating false expected tokens) {depth : Nat} (closes : Closes depth tokens) :
    ∃ first rest, tokens = first ++ rest ∧ Remainder depth rest ∧
      (if expected then Operand first else first = []) := by
  induction alternating generalizing depth with
  | @nil expected gap =>
      cases closes
      cases expected with
      | true => exact absurd (gap rfl) Bool.false_ne_true
      | false => exact ⟨[], [], rfl, .last .nil, rfl⟩
  | @leaf token rest isLeaf onward ih =>
      rcases isLeaf with ⟨value, carried⟩ | ⟨name, carried⟩
      · obtain rfl : token = .number value := carried
        cases closes with
        | other opens closes further =>
            obtain ⟨_, rest, rfl, remainder, rfl⟩ := ih further
            exact ⟨[.number value], rest, rfl, remainder, .primary (.number value)⟩
      · obtain rfl : token = .var name := carried
        cases closes with
        | other opens closes further =>
            obtain ⟨_, rest, rfl, remainder, rfl⟩ := ih further
            exact ⟨[.var name], rest, rfl, remainder, .primary (.var name)⟩
  | @sign operator rest builtin isPrefix onward ih =>
      cases closes with
      | other opens closes further =>
          obtain ⟨first, rest, rfl, remainder, operand⟩ := ih further
          exact ⟨.operator operator :: first, rest, rfl, remainder,
            .signed builtin isPrefix operand⟩
  | @opening rest onward ih =>
      cases closes with
      | opening further =>
          obtain ⟨first, rest, rfl, remainder, operand⟩ := ih further
          obtain ⟨inner, outer, same, expression, remainder⟩ := remainder.enclosed operand
          refine ⟨.openParen :: inner ++ [.closeParen], outer, ?_, remainder,
            .primary (.group expression)⟩
          simp [same]
      | other opens _ _ => contradiction
  | @call function rest unary onward ih =>
      cases closes with
      | other opens closes further =>
          cases further with
          | opening further =>
              obtain ⟨first, rest, rfl, remainder, operand⟩ := ih further
              obtain ⟨inner, outer, same, expression, remainder⟩ := remainder.enclosed operand
              refine ⟨.function function :: .openParen :: inner ++ [.closeParen], outer, ?_,
                remainder, .primary (.call function expression)⟩
              simp [same]
          | other opens _ _ => contradiction
  | @closing expected rest gap onward ih =>
      cases expected with
      | true => exact absurd (gap rfl) Bool.false_ne_true
      | false =>
          cases closes with
          | closing further =>
              obtain ⟨_, rest, rfl, remainder, rfl⟩ := ih further
              exact ⟨[], _, rfl, remainder.closing, rfl⟩
          | other _ closes _ => contradiction
  | @binary operator rest builtin binary onward ih =>
      cases closes with
      | other opens closes further =>
          obtain ⟨first, rest, rfl, remainder, operand⟩ := ih further
          exact ⟨[], _, rfl, remainder.link builtin binary operand, rfl⟩

theorem Alternating.expression {tokens : List Token} (alternating : Alternating false true tokens)
    (closes : Closes 0 tokens) : Expression tokens := by
  obtain ⟨first, rest, rfl, remainder, operand⟩ := alternating.divides closes
  cases remainder with
  | last links => exact .chain operand links

/-- A formula with built-in operators only, without commas, with functions of one argument only and
without two numbers side by side is accepted only if its tokens, with the products that are not
written, are an expression of the grammar. -/
theorem expression_of_ofText {lexicon : Lexicon} (plain : lexicon.HasBuiltinOperators)
    {text : String} {tokens : List Located} (lexed : lexicon.tokens text = .ok tokens)
    (commas : Token.comma ∉ tokens.map Located.token)
    (unary : ∀ function, Token.function function ∈ tokens.map Located.token → function.arity = 1)
    (apart : (tokens.map Located.token).IsChain fun left right =>
      ¬(left.isNumber = true ∧ right.isNumber = true))
    {rpn : List Token} (accepted : ofText lexicon true text = .ok rpn) :
    Expression ((insertProducts tokens).map Located.token) := by
  obtain ⟨_, ordered, relexed, run, rfl, balanced⟩ := exists_run_of_ofText accepted
  cases lexed.symm.trans relexed
  simp only [↓reduceIte] at run
  have closes : Closes 0 ((insertProducts tokens).map Located.token) := run.closes
  have full : writtenSurplus ((insertProducts tokens).map Located.token) = 1 := by
    have kept := (run.perm (by simp [Waiting])).map Located.token
    rw [writtenSurplus, List.filter_map]
    exact (surplus_perm kept).symm.trans (balance_surplus balanced)
  rw [insertProducts_map_token] at closes full ⊢
  have placed := (Lexicon.tokens_placed plain.positional lexed).insertProducts
  have builtin : ∀ operator, Token.operator operator ∈ insertProducts (tokens.map Located.token) →
      operator ∈ Operator.builtins := by
    intro operator member
    rcases mem_insertProducts member with given | product
    · exact plain.mem_builtins lexed given
    · cases product
      decide
  have single : ∀ function, Token.function function ∈ insertProducts (tokens.map Located.token) →
      function.arity = 1 := by
    intro function member
    rcases mem_insertProducts member with given | product
    · exact unary function given
    · contradiction
  have together : Token.comma ∉ insertProducts (tokens.map Located.token) := by
    intro member
    rcases mem_insertProducts member with given | product
    · exact commas given
    · contradiction
  have alternating :=
    alternating_of_placed placed (insertProducts_separate apart) builtin single together
  exact (alternating.complete (Int.le_of_eq full.symm)).expression closes

/-- `2x(y-sin(-x))`, with two products that are not written. -/
theorem expression_of_ofText_product_of_difference :
    (Vocabulary.lexicon { names := ["x", "y"] }).HasBuiltinOperators ∧
    Expression [.number 2, .operator .times, .var "x", .operator .times, .openParen, .var "y",
      .operator ⟨"-", 2, true, 500⟩, .function ⟨"sin", 1⟩, .openParen,
      .operator ⟨"-", 1, false, 5000⟩, .var "x", .closeParen, .closeParen] := by
  have plain : (Vocabulary.lexicon { names := ["x", "y"] }).HasBuiltinOperators :=
    Vocabulary.lexicon_hasBuiltinOperators rfl
  have lexed : (Vocabulary.lexicon { names := ["x", "y"] }).tokens "2x(y-sin(-x))" =
      .ok [⟨.number 2, ⟨0, 1⟩⟩, ⟨.var "x", ⟨1, 2⟩⟩, ⟨.openParen, ⟨2, 3⟩⟩, ⟨.var "y", ⟨3, 4⟩⟩,
        ⟨.operator ⟨"-", 2, true, 500⟩, ⟨4, 5⟩⟩, ⟨.function ⟨"sin", 1⟩, ⟨5, 8⟩⟩,
        ⟨.openParen, ⟨8, 9⟩⟩, ⟨.operator ⟨"-", 1, false, 5000⟩, ⟨9, 10⟩⟩, ⟨.var "x", ⟨10, 11⟩⟩,
        ⟨.closeParen, ⟨11, 12⟩⟩, ⟨.closeParen, ⟨12, 13⟩⟩] := by
    decide +kernel
  have accepted : ofText (Vocabulary.lexicon { names := ["x", "y"] }) true "2x(y-sin(-x))" =
      .ok [.number 2, .var "x", .operator .times, .var "y", .var "x",
        .operator ⟨"-", 1, false, 5000⟩, .function ⟨"sin", 1⟩, .operator ⟨"-", 2, true, 500⟩,
        .operator .times] := by
    decide +kernel
  refine ⟨plain, ?_⟩
  exact expression_of_ofText plain lexed (by simp) (by simp) (by simp [Token.isNumber]) accepted

end Grammar

end Formula
