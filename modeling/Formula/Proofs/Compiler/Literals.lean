import Mathlib
import Formula.Proofs.Compiler.Resolution
import Formula.Proofs.Scalar.Magnitude
import Formula.Proofs.Token.Coverage

namespace Formula

open Float.Model

/-! What the number literals of a formula are built as.

A literal is read in double precision, and what is read is made a constant only if the scalar type has
it. Neither step looks at the size: a literal beyond the range of double precision is read as infinity,
which every scalar type has.
-/

/-- Number tokens are written with literals that are read as their numbers. -/
theorem Vocabulary.exists_decimal_of_mem_tokens {vocabulary : Vocabulary} {text : String}
    {tokens : List Located} (lexed : vocabulary.lexicon.tokens text = .ok tokens) {item : Located}
    (member : item ∈ tokens) {literal : Float} (carried : item.token = .number literal) :
    ∃ decimal, Decimal.ofText? (item.span.characters text.toList) = some decimal ∧
      decimal.toFloat = literal := by
  obtain ⟨last, passes⟩ := Lexicon.exists_passes_of_scan lexed
  obtain ⟨earlier, later, split⟩ := List.append_of_mem member
  have written := passes.writes List.drop_zero earlier item later split
  rw [carried] at written
  cases written with
  | number parsed => exact ⟨_, parsed, rfl⟩

/-- Every token of a formula that makes a value is in its RPN. -/
theorem Rpn.mem_of_mem_tokens {lexicon : Lexicon} {juxtaposition : Bool} {text : String}
    {rpn : List Token} (accepted : ofText lexicon juxtaposition text = .ok rpn)
    {tokens : List Located} (lexed : lexicon.tokens text = .ok tokens) {item : Located}
    (member : item ∈ tokens) (value : item.token.isPunctuation = false) : item.token ∈ rpn := by
  obtain ⟨others, ordered, isRead, run, rfl, _⟩ := exists_run_of_ofText accepted
  obtain rfl := Except.ok.inj (lexed.symm.trans isRead)
  have present : item ∈ if juxtaposition then insertProducts tokens else tokens := by
    cases juxtaposition with
    | false => exact member
    | true => exact (interspersed_insertProducts tokens).sublist.mem member
  have waiting : Waiting ([] : List Located) := fun other isPending => by simp at isPending
  have makes : makesValue item = true := by rw [makesValue_eq rfl, Located.token_eq, value]; rfl
  refine List.mem_map_of_mem ((run.perm waiting).mem_iff.mpr ?_)
  exact List.mem_filter.mpr ⟨present, makes⟩

namespace Numeral

theorem isFinite_of_beq {left right : Float} (same : (left == right) = true)
    (finite : right.isFinite = true) : left.isFinite = true := by
  obtain ⟨_, _, equal⟩ :=
    (UnpackedFloat.beq_iff_ne_notANumber_and_eq (unpacked left) (unpacked right)).mp same
  change (unpacked left).isFinite = true
  rcases equal with equal | ⟨zero, _⟩ | ⟨zero, _⟩
  · rw [equal]
    exact finite
  · rw [zero]
    rfl
  · rw [zero]
    rfl

end Numeral

/-- A literal begins the constant that is nearest to it, and that is equal to it. -/
theorem Assembler.eq_of_beginning_number {α N : Type} [Numeral α] {assembler : Assembler α N}
    {literal : Float} {beginning : Beginning N}
    (begins : assembler.beginning (.number literal) = .ok beginning) :
    beginning = .node (assembler.target.constant (Numeral.ofFloat literal)) ∧
      (Numeral.toFloat (Numeral.ofFloat literal : α) == literal) = true := by
  simp only [Assembler.beginning, Numeral.ofLiteral?] at begins
  split at begins
  case h_1 value read =>
    split at read
    case isTrue same =>
      cases read
      cases begins
      exact ⟨rfl, same⟩
    case isFalse => contradiction
  case h_2 => contradiction

namespace Compiler

variable {α : Type} [Numeral α]

/-- The literal is built as a constant that in double precision is the same number, and that is
finite if the literal is. -/
def KeepsLiteral (compiler : Compiler α) (literal : Float) : Prop :=
  ∃ value : α, compiler.assembler.beginning (.number literal) = .ok (.node (.constant value)) ∧
    (Numeral.toFloat value == literal) = true ∧
    (literal.isFinite = true → Numeral.isFinite value = true)

variable {compiler : Compiler α} {text : String} {tree : Node α}

/-- The number tokens of a formula that compiles are in its RPN, and have begun nodes. -/
theorem exists_beginning_of_compile (compiled : compiler.compile text = .ok tree) :
    ∃ tokens rpn, compiler.lexicon.tokens text = .ok tokens ∧
      compiler.assembler.build rpn = .ok tree ∧
      ∀ item ∈ tokens, ∀ literal, item.token = .number literal → .number literal ∈ rpn ∧
        ∃ beginning, compiler.assembler.beginning (.number literal) = .ok beginning := by
  obtain ⟨expression, rpn, made, ordered, built⟩ := exists_rpn_of_compile compiled
  obtain rfl := eq_of_expression made
  have accepted : Rpn.ofText compiler.lexicon compiler.juxtaposition text = .ok rpn :=
    Expression.ofText_of_rpn ordered
  obtain ⟨tokens, _, lexed, _⟩ := Rpn.exists_run_of_ofText accepted
  refine ⟨tokens, rpn, lexed, built, fun item member literal carried => ?_⟩
  have present := Rpn.mem_of_mem_tokens accepted lexed member (by rw [carried]; rfl)
  rw [carried] at present
  exact ⟨present, Assembler.exists_beginning_of_build built _ present⟩

variable [LawfulNumeral α]

/-- What is built for a finite literal is the nearest scalar, which is then finite as well. -/
theorem isFinite_of_beginning {literal : Float} {beginning : Beginning (Node α)}
    (begins : compiler.assembler.beginning (.number literal) = .ok beginning)
    (finite : literal.isFinite = true) : Numeral.isFinite (Numeral.ofFloat literal : α) = true := by
  obtain ⟨_, same⟩ := Assembler.eq_of_beginning_number begins
  exact LawfulNumeral.isFinite_of_toFloat _ (Numeral.isFinite_of_beq same finite)

/-- In double and in single precision alike: if a formula compiles, then every literal is built as a
constant that is the number read from it, and that is finite if this number is. A formula is refused
if it has a literal that double precision can hold but that is too large for the scalar type. -/
theorem compile_keeps_literals (compiler : Compiler α) (text : String) :
    (∀ tree, compiler.compile text = .ok tree →
      ∃ tokens rpn, compiler.lexicon.tokens text = .ok tokens ∧
        compiler.assembler.build rpn = .ok tree ∧
        ∀ item ∈ tokens, ∀ literal, item.token = .number literal →
          .number literal ∈ rpn ∧
          (∃ decimal, Decimal.ofText? (item.span.characters text.toList) = some decimal ∧
            decimal.toFloat = literal) ∧
          compiler.KeepsLiteral literal) ∧
    ∀ tokens, compiler.lexicon.tokens text = .ok tokens →
      ∀ item ∈ tokens, ∀ literal, item.token = .number literal → literal.isFinite = true →
        Numeral.isFinite (Numeral.ofFloat literal : α) = false →
          ∃ reason, compiler.compile text = .error reason := by
  constructor
  · intro tree compiled
    obtain ⟨tokens, rpn, lexed, built, each⟩ := exists_beginning_of_compile compiled
    refine ⟨tokens, rpn, lexed, built, fun item member literal carried => ?_⟩
    obtain ⟨present, beginning, begins⟩ := each item member literal carried
    -- All that is checked is that the constant equals what was read, be it infinite or not.
    have keeps : compiler.KeepsLiteral literal := by
      obtain ⟨rfl, same⟩ := Assembler.eq_of_beginning_number begins
      exact ⟨_, begins, same, isFinite_of_beginning begins⟩
    exact ⟨present, Vocabulary.exists_decimal_of_mem_tokens lexed member carried, keeps⟩
  · intro tokens lexed item member literal carried finite tooLarge
    cases compiled : compiler.compile text with
    | error reason => exact ⟨reason, rfl⟩
    | ok tree =>
        obtain ⟨others, rpn, isRead, _, each⟩ := exists_beginning_of_compile compiled
        obtain rfl := Except.ok.inj (lexed.symm.trans isRead)
        obtain ⟨_, beginning, begins⟩ := each item member literal carried
        rw [isFinite_of_beginning begins finite] at tooLarge
        contradiction

/-- In single precision `2.5` is kept, and `3.5e38` is refused. -/
theorem compile_keeps_literals_of_single_precision :
    let compiler : Compiler Float32 := { bindings := [⟨"x", 2⟩] }
    compiler.compile "x^2.5" = .ok (.power (.var "x") (.constant 2.5)) ∧
      compiler.KeepsLiteral 2.5 ∧ ∃ reason, compiler.compile "3.5e38x" = .error reason := by
  intro compiler
  have compiled : compiler.compile "x^2.5" = .ok (.power (.var "x") (.constant 2.5)) := by
    decide +kernel
  have isRead : compiler.lexicon.tokens "x^2.5" = .ok [⟨.var "x", 0, 1⟩,
      ⟨.operator ⟨"^", 2, false, 10000⟩, 1, 2⟩, ⟨.number 2.5, 2, 5⟩] := by
    decide +kernel
  have isReadLarge : compiler.lexicon.tokens "3.5e38x" =
      .ok [⟨.number 3.5e38, 0, 6⟩, ⟨.var "x", 6, 7⟩] := by
    decide +kernel
  obtain ⟨tokens, _, lexed, _, each⟩ := (compile_keeps_literals compiler "x^2.5").1 _ compiled
  obtain rfl := Except.ok.inj (isRead.symm.trans lexed)
  have kept := (each ⟨.number 2.5, 2, 5⟩ (by simp) 2.5 rfl).2.2
  have refused := (compile_keeps_literals compiler "3.5e38x").2 _ isReadLarge ⟨.number 3.5e38, 0, 6⟩
    (by simp) 3.5e38 rfl (by decide +kernel) (by decide +kernel)
  exact ⟨compiled, kept, refused⟩

/-- `1e999` is beyond double precision and compiles to infinity. -/
theorem compile_literal_beyond_double_precision :
    Decimal.ofText? "1e999".toList = some ⟨1, 999⟩ ∧
      ({} : Compiler Float).compile "1e999" = .ok (.constant (1 / 0)) ∧
      ({} : Compiler Float32).compile "1e999" = .ok (.constant (1 / 0)) ∧
      Numeral.isFinite (1 / 0 : Float) = false ∧ Numeral.isFinite (1 / 0 : Float32) = false := by
  decide +kernel

end Compiler

end Formula
