import Formula.Decimal.Literal
import Formula.Proofs.Scalar.Magnitude

namespace Formula

open Float.Model

/-! What the texts of machine numbers are read as.

Without its sign a finite number is written with digits and at most a point, which makes a literal.
A literal is read in double precision and then taken by the scalar type if that keeps its value, so
it need not give the number that it was written for.
-/

namespace Decimal

theorem isLiteralBody_of_isDigit {character : Char} (digit : character.isDigit = true) :
    isLiteralBody character = true := by
  simp [isLiteralBody, digit]

/-- A whole number, or digits before and after a point. -/
inductive IsPlain : List Char → Prop
  | whole {digits : List Char} (nonempty : digits ≠ [])
      (isDigit : ∀ character ∈ digits, character.isDigit = true) : IsPlain digits
  | point {whole fraction : List Char} (nonempty : whole ≠ [])
      (before : ∀ character ∈ whole, character.isDigit = true)
      (after : ∀ character ∈ fraction, character.isDigit = true) :
      IsPlain (whole ++ '.' :: fraction)

theorem IsPlain.isLiteralBody {text : List Char} (plain : IsPlain text) :
    ∀ character ∈ text, isLiteralBody character = true := by
  intro character member
  cases plain with
  | whole _ isDigit => exact isLiteralBody_of_isDigit (isDigit character member)
  | point _ before after =>
      rcases List.mem_append.mp member with inWhole | later
      · exact isLiteralBody_of_isDigit (before character inWhole)
      · rcases List.mem_cons.mp later with rfl | inFraction
        · rfl
        · exact isLiteralBody_of_isDigit (after character inFraction)

/-- Such a text is a literal. -/
theorem IsPlain.exists_decimal {text : List Char} (plain : IsPlain text) :
    ∃ decimal, ofText? text = some decimal := by
  cases plain with
  | whole nonempty isDigit =>
      have whole : text.takeWhile Char.isDigit = text := List.takeWhile_eq_self_iff.mpr isDigit
      have rest : text.dropWhile Char.isDigit = [] := List.dropWhile_eq_nil_iff.mpr isDigit
      simp [ofText?, whole, rest, splitFraction, readExponent?, nonempty]
  | @point whole fraction nonempty before after =>
      have taken : fraction.takeWhile Char.isDigit = fraction :=
        List.takeWhile_eq_self_iff.mpr after
      have rest : fraction.dropWhile Char.isDigit = [] := List.dropWhile_eq_nil_iff.mpr after
      have point : ¬ Char.isDigit '.' = true := by decide
      simp [ofText?, List.takeWhile_append_of_pos before, List.dropWhile_append_of_pos before,
        splitFraction, taken, rest, readExponent?, nonempty]

theorem isPlain_positional (decimal : Decimal) : IsPlain decimal.positional := by
  have nonempty : decimal.digits ≠ [] := @Nat.toDigits_ne_nil decimal.coefficient 10
  have isDigit : ∀ character ∈ decimal.digits, character.isDigit = true := fun character member =>
    Nat.isDigit_of_mem_toDigits (by decide) (by decide) member
  have zero (count : Nat) : ∀ character ∈ List.replicate count '0', character.isDigit = true :=
    fun character isZero => by rw [List.eq_of_mem_replicate isZero]; rfl
  simp only [positional]
  split
  case h_1 zeros _ =>
    exact .whole (by simp [nonempty]) (List.forall_mem_append.mpr ⟨isDigit, zero zeros⟩)
  case h_2 below _ =>
    have padded := List.forall_mem_append.mpr ⟨zero (below + 1 + 1 - decimal.digits.length), isDigit⟩
    refine .point ?_ (fun character member => padded character (List.mem_of_mem_take member))
      fun character member => padded character (List.mem_of_mem_drop member)
    refine List.ne_nil_of_length_pos ?_
    simp only [List.length_take, List.length_append, List.length_replicate]
    omega

theorem isLiteralBody_of_mem_positional {decimal : Decimal} {character : Char}
    (member : character ∈ decimal.positional) : isLiteralBody character = true :=
  decimal.isPlain_positional.isLiteralBody character member

end Decimal

namespace Numeral

/-- Without a sign, a finite number is written with digits and at most a point. -/
theorem isPlain_constantText {α : Type} [Numeral α] {number : α} (finite : isFinite number = true)
    (notBelow : isBelowZero number = false) :
    Decimal.IsPlain (constantText number).toList := by
  rw [isFinite] at finite
  simp only [isBelowZero] at notBelow
  simp only [constantText, plainText]
  cases parts : unpacked number with
  | notANumber => simp [parts, UnpackedFloat.isFinite] at finite
  | infinity sign => simp [parts, UnpackedFloat.isFinite] at finite
  | zero sign => exact .whole (by simp) (by simp)
  | finite sign significand exponent positive =>
      cases sign with
      | negative => simp [parts] at notBelow
      | positive =>
          simp only [signed]
          split
          case h_1 integer _ =>
            rw [String.toList_ofList]
            exact .whole Nat.toDigits_ne_nil fun character member =>
              Nat.isDigit_of_mem_toDigits (by decide) (by decide) member
          case h_2 =>
            rw [String.toList_ofList]
            exact Decimal.isPlain_positional _

section

variable {α : Type} [Numeral α] {number : α}

/-- The double-precision number that the text of the number is read as, if it is a literal. -/
def reading? (number : α) : Option Float :=
  (Decimal.ofText? (constantText number).toList).map Decimal.toFloat

/-- The number that the text is read as; zero, if it is no literal. -/
def reading (number : α) : Float := (reading? number).getD 0

theorem exists_decimal_of_isFinite (finite : isFinite number = true)
    (notBelow : isBelowZero number = false) :
    ∃ decimal, Decimal.ofText? (constantText number).toList = some decimal ∧
      decimal.toFloat = reading number := by
  obtain ⟨decimal, parsed⟩ := (isPlain_constantText finite notBelow).exists_decimal
  exact ⟨decimal, parsed, by simp [reading, reading?, parsed]⟩

/-- The text of the number is a literal that the scalar type takes, as this number or another one. -/
def IsLiteral (number : α) : Prop :=
  ((reading? number).bind (ofLiteral? (α := α))).isSome = true

theorem isLiteral_iff (finite : isFinite number = true) (notBelow : isBelowZero number = false) :
    IsLiteral number ↔ (ofLiteral? (reading number) : Option α).isSome = true := by
  obtain ⟨decimal, parsed, same⟩ := exists_decimal_of_isFinite finite notBelow
  rw [IsLiteral, ← same, reading?, parsed]
  rfl

/-- Taken as a literal, the text of the number gives the number. -/
def LiteralReadsBack (number : α) : Prop := (reading? number).bind ofLiteral? = some number

instance [DecidableEq α] (number : α) : Decidable (LiteralReadsBack number) :=
  inferInstanceAs (Decidable (_ = _))

theorem LiteralReadsBack.ofLiteral?_eq (reads : LiteralReadsBack number) :
    ofLiteral? (reading number) = some number := by
  obtain ⟨literal, isRead, gives⟩ := Option.bind_eq_some_iff.mp reads
  rw [reading, isRead, Option.getD_some, gives]

variable [LawfulNumeral α]

/-- A finite number that its text tells from all others: it is no zero with a sign. -/
structure Printable (number : α) : Prop where
  finite : isFinite number = true
  asShown : shown number = number

theorem printable_shown (finite : isFinite number = true) : Printable (shown number) :=
  ⟨by simpa using finite, shown_shown number⟩

theorem printable_magnitude (finite : isFinite number = true) : Printable (magnitude number) :=
  ⟨by simpa using finite, by simp [shown]⟩

theorem Printable.magnitude_eq (printable : Printable number)
    (unsigned : isBelowZero number = false) : magnitude number = number := by
  have same := printable.asShown
  simpa [shown, unsigned] using same

end

section

variable {number : Float}

theorem beq_self_of_isFinite (finite : number.isFinite = true) : (number == number) = true := by
  change (unpacked number).isFinite = true at finite
  refine (UnpackedFloat.beq_iff_ne_notANumber_and_eq _ _).mpr ⟨?_, ?_, .inl rfl⟩
  · intro special
    change unpacked number = _ at special
    rw [special] at finite
    contradiction
  · intro special
    change unpacked number = _ at special
    rw [special] at finite
    contradiction

theorem ofLiteral?_of_isFinite (finite : number.isFinite = true) :
    ofLiteral? number = some number :=
  if_pos (beq_self_of_isFinite finite)

end

end Numeral

end Formula
