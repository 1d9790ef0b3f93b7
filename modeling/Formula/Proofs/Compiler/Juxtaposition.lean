import Formula.Proofs.Compiler.Outcome
import Formula.Proofs.Rpn.Acceptance
import Formula.Proofs.Token.WrittenProducts

namespace Formula

/-! Neighbours that multiply, and products that are written.

If `*` between operands is the built-in product, then a formula and the one in which its products are
written have the same tokens once products are inserted. So they have the same RPN and compile to the
same tree, whatever the operators are expanded to.
-/

/-- The text with ` * ` written where its tokens have products that are not written. -/
def withWrittenProducts (tokens : List Located) (text : String) : String :=
  String.ofList (writeProducts (productPlaces tokens) 0 text.toList)

namespace Rpn

variable {lexicon : Lexicon} {text : String} {tokens : List Located}

/-- Whether neighbours multiply or not, the text with written products has the RPN of the text. -/
theorem ofText_withWrittenProducts (explicit : lexicon.operator? false "*" = some .times)
    (lexed : lexicon.tokens text = .ok tokens) (juxtaposition : Bool) :
    ofText lexicon juxtaposition (withWrittenProducts tokens text) = ofText lexicon true text := by
  obtain ⟨located, written, same⟩ := lexicon.tokens_writeProducts explicit lexed
  rw [withWrittenProducts, ofText_eq_ofTokens written, ofText_eq_ofTokens lexed, same]
  cases juxtaposition with
  | false => rfl
  | true => simp only [ofTokens, ↓reduceIte, insertProducts_insertProducts]

end Rpn

namespace Compiler

variable {α : Type} {compiler : Compiler α} {text : String}

/-- The lexicon that the formulas of the compiler are read by. -/
def lexicon (compiler : Compiler α) : Lexicon :=
  { compiler.vocabulary with names := compiler.names ++ NamedConstant.names : Vocabulary }.lexicon

theorem rpn_congr {other : String} {juxtaposition multiplying : Bool}
    (same : Rpn.ofText compiler.lexicon juxtaposition text =
      Rpn.ofText compiler.lexicon multiplying other) :
    Expression.rpn ⟨text, compiler.vocabulary, juxtaposition⟩ =
      Expression.rpn ⟨other, compiler.vocabulary, multiplying⟩ := by
  cases collision : Expression.collision? ⟨text, compiler.vocabulary, juxtaposition⟩ with
  | some name =>
      have likewise : Expression.collision? ⟨other, compiler.vocabulary, multiplying⟩ = some name :=
        collision
      rw [Expression.rpn, Expression.rpn, collision, likewise]
  | none =>
      have likewise : Expression.collision? ⟨other, compiler.vocabulary, multiplying⟩ = none :=
        collision
      rw [Expression.rpn, Expression.rpn, collision, likewise]
      exact congrArg (·.mapError CompileError.malformed) same

theorem visible_withWrittenProducts (visible : text.toList.all Character.isBlank = false)
    (tokens : List Located) :
    (withWrittenProducts tokens text).toList.all Character.isBlank = false := by
  simp only [List.all_eq_false] at visible ⊢
  obtain ⟨character, member, isVisible⟩ := visible
  refine ⟨character, ?_, isVisible⟩
  rw [withWrittenProducts, String.toList_ofList]
  exact mem_writeProducts member _ 0

theorem visible_of_expression {expression : Expression}
    (made : compiler.expression text = .ok expression) :
    text.toList.all Character.isBlank = false := by
  simp only [Compiler.expression, Expression.ofText?] at made
  split at made
  · contradiction
  case isFalse visible => simpa using visible

variable [Numeral α]

/-- If `*` between operands is the built-in product, then a formula that compiles where neighbours
multiply compiles to the same tree when its products are written, whether neighbours still multiply
or not. -/
theorem compile_withWrittenProducts {tree : Node α}
    (explicit : compiler.vocabulary.operator? false "*" = some .times)
    (compiled : ({ compiler with juxtaposition := true } : Compiler α).compile text = .ok tree) :
    ∃ tokens, compiler.lexicon.tokens text = .ok tokens ∧
      ∀ juxtaposition, ({ compiler with juxtaposition } : Compiler α).compile
        (withWrittenProducts tokens text) = .ok tree := by
  obtain ⟨expression, rpn, made, ordered, built⟩ := exists_rpn_of_compile compiled
  obtain rfl : expression = ⟨text, compiler.vocabulary, true⟩ := eq_of_expression made
  obtain ⟨tokens, _, lexed, _⟩ := Rpn.exists_run_of_ofText (Expression.ofText_of_rpn ordered)
  refine ⟨tokens, lexed, fun juxtaposition => ?_⟩
  have visible := visible_withWrittenProducts (visible_of_expression made) tokens
  have same := @Rpn.ofText_withWrittenProducts compiler.lexicon text tokens explicit lexed juxtaposition
  have again : ({ compiler with juxtaposition } : Compiler α).expression
      (withWrittenProducts tokens text) =
        .ok ⟨withWrittenProducts tokens text, compiler.vocabulary, juxtaposition⟩ :=
    expression_eq_ok_of_expression made visible juxtaposition
  rw [compile_eq_build again, rpn_congr same, ordered]
  exact built

/-- `2x(x + 1)`, where products are replaced by an expansion. -/
theorem compile_withWrittenProducts_of_sum :
    let compiler : Compiler Float :=
      { bindings := [⟨"x", 3⟩]
        extensions := { operators := [⟨.times, (·.foldr (.binary .sub) (.constant 0))⟩] } }
    let product (left right : Node Float) : Node Float :=
      .binary .sub left (.binary .sub right (.constant 0))
    let tree := product (product (.constant 2) (.var "x")) (.binary .add (.var "x") (.constant 1))
    compiler.vocabulary.operator? false "*" = some .times ∧
      ({ compiler with juxtaposition := true } : Compiler Float).compile "2x(x + 1)" = .ok tree ∧
      ∃ tokens, compiler.lexicon.tokens "2x(x + 1)" = .ok tokens ∧
        ∀ juxtaposition, ({ compiler with juxtaposition } : Compiler Float).compile
          (withWrittenProducts tokens "2x(x + 1)") = .ok tree := by
  intro compiler product tree
  have explicit : compiler.vocabulary.operator? false "*" = some .times := by decide
  have compiled : ({ compiler with juxtaposition := true } : Compiler Float).compile "2x(x + 1)" =
      .ok tree := by
    decide +kernel
  exact ⟨explicit, compiled, compile_withWrittenProducts explicit compiled⟩

/-- With a product that binds more loosely than sums, `1 + 2x` is not `1 + 2 * x`. -/
theorem compile_looser_product :
    let compiler : Compiler Float :=
      { bindings := [⟨"x", 3⟩]
        extensions := { operators := [⟨⟨"*", 2, true, 100⟩, fun operands =>
          .binary .mul (operands.headD (.constant 0)) (operands.getLastD (.constant 0))⟩] } }
    let tokens : List Located := [⟨.number 1, ⟨0, 1⟩⟩, ⟨.operator ⟨"+", 2, true, 500⟩, ⟨2, 3⟩⟩,
      ⟨.number 2, ⟨4, 5⟩⟩, ⟨.var "x", ⟨5, 6⟩⟩]
    compiler.lexicon.tokens "1 + 2x" = .ok tokens ∧
      withWrittenProducts tokens "1 + 2x" = "1 + 2 * x" ∧
      compiler.compile "1 + 2x" =
        .ok (.binary .add (.constant 1) (.binary .mul (.constant 2) (.var "x"))) ∧
      compiler.compile "1 + 2 * x" =
        .ok (.binary .mul (.binary .add (.constant 1) (.constant 2)) (.var "x")) := by
  decide +kernel

end Compiler

end Formula
