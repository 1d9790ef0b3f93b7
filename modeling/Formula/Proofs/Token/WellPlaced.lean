import Mathlib
import Formula.Proofs.Token.Products

namespace Formula

/-! That reading and insertion agree on where an operand ends.

Reading asks whether an operand is expected, insertion whether one has ended, and one is the case
where the other is not. So what reading puts in its place is in its place by the other, too, and
inserted products leave it there, for they stand where an operand has ended and are no prefix
operators.
-/

/-- Every prefix operator stands first or after a token that ends no operand, every other operator
directly after one that does, and every function directly before a parenthesis. -/
structure WellPlaced (tokens : List Token) : Prop where
  prefixOperators : ∀ earlier operator later, tokens = earlier ++ .operator operator :: later →
    operator.isPrefix = true → ∀ last ∈ earlier.getLast?, last.endsOperand = false
  otherOperators : ∀ earlier operator later, tokens = earlier ++ .operator operator :: later →
    operator.isPrefix = false → ∃ last ∈ earlier.getLast?, last.endsOperand = true
  functions : ∀ earlier function later, tokens = earlier ++ .function function :: later →
    later.head? = some .openParen

theorem operandExpected_eq_true_iff {before : Option Token} :
    operandExpected before = true ↔ ∀ last ∈ before, last.endsOperand = false := by
  cases before <;> simp [operandExpected_eq]

theorem operandExpected_eq_false_iff {before : Option Token} :
    operandExpected before = false ↔ ∃ last ∈ before, last.endsOperand = true := by
  cases before <;> simp [operandExpected_eq]

theorem Placed.isPrefix_eq {earlier later : List Token} {operator : Operator}
    (placed : Placed none (earlier ++ .operator operator :: later)) :
    operator.isPrefix = operandExpected earlier.getLast? := by
  have stands := placed.fits_of_append.1 operator rfl
  rwa [Option.or_none] at stands

theorem Placed.wellPlaced {tokens : List Token} (placed : Placed none tokens) :
    WellPlaced tokens where
  prefixOperators := by
    rintro earlier operator later rfl isPrefix
    exact operandExpected_eq_true_iff.mp (placed.isPrefix_eq.symm.trans isPrefix)
  otherOperators := by
    rintro earlier operator later rfl noPrefix
    exact operandExpected_eq_false_iff.mp (placed.isPrefix_eq.symm.trans noPrefix)
  functions := by
    rintro earlier function later rfl
    exact placed.fits_of_append.2 rfl

/-- Whatever tables a text is read by, its tokens are well placed, and so are they with the products
that are not written. Insertion only adds built-in products, it leaves no neighbours that multiply,
and to insert again changes nothing. -/
theorem wellPlaced_tokens_and_products (isName : String → Bool)
    (function? : String → Option FunctionSymbol) (operator? : String → Option Operator) :
    (∀ text tokens, (Lexicon.ofTables isName function? operator?).tokens text = .ok tokens →
      WellPlaced (tokens.map Located.token) ∧
        WellPlaced (insertProducts (tokens.map Located.token))) ∧
    ∀ items : List Token,
      Interspersed (· = .operator .times) items (insertProducts items) ∧
        ((insertProducts items).IsChain fun left right => left.multipliesWith right = false) ∧
        insertProducts (insertProducts items) = insertProducts items := by
  constructor
  · intro text tokens lexed
    have placed := Lexicon.tokens_placed (Lexicon.ofTables_positional _ _ _) lexed
    exact ⟨placed.wellPlaced, placed.insertProducts.wellPlaced⟩
  · intro items
    refine ⟨(interspersed_insertProducts items).mono ?_, insertProducts_apart items,
      insertProducts_insertProducts items⟩
    rintro product ⟨left, right, same⟩
    exact same

/-- `-2x! g(x)`, where `f` stands in the table under `g`. -/
theorem wellPlaced_tokens_and_products_of_suffix :
    let suffix : Operator := ⟨"!", 1, true, 10001⟩
    let minus : Operator := ⟨"-", 1, false, 5000⟩
    let lexicon := Lexicon.ofTables (· == "x") (fun key => if key = "g" then some ⟨"f", 1⟩ else none)
      (fun key => if key = "!" then some suffix else none)
    let tokens : List Located := [⟨.operator minus, ⟨0, 1⟩⟩, ⟨.number 2, ⟨1, 2⟩⟩,
      ⟨.var "x", ⟨2, 3⟩⟩, ⟨.operator suffix, ⟨3, 4⟩⟩, ⟨.function ⟨"f", 1⟩, ⟨5, 6⟩⟩,
      ⟨.openParen, ⟨6, 7⟩⟩, ⟨.var "x", ⟨7, 8⟩⟩, ⟨.closeParen, ⟨8, 9⟩⟩]
    lexicon.tokens "-2x! g(x)" = .ok tokens ∧
      WellPlaced [.operator minus, .number 2, .var "x", .operator suffix, .function ⟨"f", 1⟩,
        .openParen, .var "x", .closeParen] ∧
      WellPlaced [.operator minus, .number 2, .operator .times, .var "x", .operator suffix,
        .operator .times, .function ⟨"f", 1⟩, .openParen, .var "x", .closeParen] := by
  intro suffix minus lexicon tokens
  have lexed : lexicon.tokens "-2x! g(x)" = .ok tokens := by decide +kernel
  exact ⟨lexed, (wellPlaced_tokens_and_products _ _ _).1 "-2x! g(x)" tokens lexed⟩

end Formula
