import Formula.Proofs.Token.Locality

namespace Formula

open Character

/-! The way of a scan through a text, token by token.

A scan reads tokens until nothing is left or a token cannot be read. `Passes` keeps what is left, so
it says the same of both endings. A text that is cut off where the scan has come to is read as the
same tokens, for none of them depends on what comes there.
-/

theorem Decimal.exponentPart_eq_nil_of_isPrefix {shorter text : List Char}
    (isPrefix : shorter <+: text) (nothing : exponentPart text = []) :
    exponentPart shorter = [] := by
  obtain ⟨extra, rfl⟩ := isPrefix
  match shorter with
  | [] => rfl
  | [mark] => simp [exponentPart, splitSign]
  | mark :: first :: rest =>
      simp only [List.cons_append, exponentPart] at nothing ⊢
      rw [← List.cons_append, splitSign_append_right] at nothing
      have digits := takeWhile_isPrefix Char.isDigit
        (List.prefix_append (splitSign (first :: rest)).2 extra)
      split at nothing
      case isTrue => contradiction
      case isFalse noExponent =>
        refine if_neg fun exponent => noExponent ?_
        rw [Bool.and_eq_true, Bool.not_eq_true', List.isEmpty_eq_false_iff] at exponent ⊢
        exact ⟨exponent.1, digits.ne_nil exponent.2⟩

theorem Token.EndsAlike.of_isPrefix {token : Token} {after shorter : List Char}
    (isPrefix : shorter <+: after) (call : token.isFunction = true → beginsCall shorter = true) :
    token.EndsAlike after shorter where
  number _ := by
    refine ⟨fun next isNext => .inr ?_, Decimal.exponentPart_eq_nil_of_isPrefix isPrefix⟩
    obtain ⟨more, rfl⟩ := List.head?_eq_some_iff.mp isNext
    obtain ⟨extra, rfl⟩ := isPrefix
    rfl
  word _ := takeWhile_isPrefix isWordPart isPrefix
  call := call
  symbol _ _ := takeWhile_isPrefix isOperatorChar isPrefix

namespace Lexicon

/-- The scan of a text, which begins at a position, reads some tokens and comes to the rest of the
text. `before` and `last` are the latest tokens before the text and before its rest. -/
inductive Passes (lexicon : Lexicon) :
    (position : Nat) → (before : Option Token) → (text : List Char) → List Located →
      (last : Option Token) → (rest : List Char) → Prop
  | done {position : Nat} {before : Option Token} {text : List Char} :
      Passes lexicon position before text [] before text
  | blank {position : Nat} {before last : Option Token} {first : Char} {text rest : List Char}
      {tokens : List Located} (blank : isBlank first = true)
      (onward : Passes lexicon (position + 1) before text tokens last rest) :
      Passes lexicon position before (first :: text) tokens last rest
  | token {position : Nat} {before last : Option Token} {first : Char}
      {part after rest : List Char} {token : Token} {tokens : List Located}
      (visible : isBlank first = false)
      (read : lexicon.lexeme before position first (part ++ after) = .ok (token, part.length + 1))
      (onward : Passes lexicon (position + (part.length + 1)) (some token) after tokens last rest) :
      Passes lexicon position before (first :: part ++ after)
        (⟨token, ⟨position, position + (part.length + 1)⟩⟩ :: tokens) last rest

variable {lexicon : Lexicon} {position : Nat} {before last : Option Token}
variable {text rest : List Char} {tokens : List Located}

theorem scan_token {start : Nat} {first : Char} {part after : List Char} {token : Token}
    (visible : isBlank first = false)
    (read : lexicon.lexeme before start first (part ++ after) = .ok (token, part.length + 1)) :
    lexicon.scan 0 start before (first :: part ++ after) =
      (lexicon.scan 0 (start + (part.length + 1)) (some token) after).map
        (⟨token, ⟨start, start + (part.length + 1)⟩⟩ :: ·) := by
  have moved : start + 1 + part.length = start + (part.length + 1) := by omega
  simp only [List.cons_append, scan, visible, Bool.false_eq_true, ↓reduceIte, read,
    Nat.add_sub_cancel, scan_covered, moved]

theorem Passes.scan_eq (passes : lexicon.Passes position before text tokens last []) :
    lexicon.scan 0 position before text = .ok tokens := by
  generalize empty : ([] : List Char) = rest at passes
  induction passes with
  | done => rw [← empty]; rfl
  | blank blank _ ih => simpa [scan, blank] using ih empty
  | token visible read _ ih =>
      rw [scan_token visible read, ih empty]
      rfl

/-- A scan comes to the end of the text, or to a character where no token can be read. -/
theorem scan_cases (lexicon : Lexicon) (position : Nat) (before : Option Token)
    (text : List Char) :
    (∃ tokens last, lexicon.scan 0 position before text = .ok tokens ∧
      lexicon.Passes position before text tokens last []) ∨
    ∃ reason tokens last passed first rest,
      lexicon.scan 0 position before text = .error reason ∧
      text = passed ++ first :: rest ∧ isBlank first = false ∧
      lexicon.Passes position before text tokens last (first :: rest) ∧
      lexicon.lexeme last (position + passed.length) first rest = .error reason := by
  induction measure : text.length using Nat.strong_induction_on generalizing position before text with
  | _ size ih =>
  cases text with
  | nil => exact .inl ⟨[], before, rfl, .done⟩
  | cons first text =>
  cases blank : isBlank first with
  | true =>
      have skip : lexicon.scan 0 position before (first :: text) =
          lexicon.scan 0 (position + 1) before text := by simp [scan, blank]
      rw [skip]
      rcases ih _ (by simp [← measure]) (position + 1) before text rfl with
        ⟨tokens, last, scanned, passes⟩ |
        ⟨reason, tokens, last, passed, stop, rest, failed, rfl, visible, passes, unread⟩
      · exact .inl ⟨tokens, last, scanned, .blank blank passes⟩
      · refine .inr ⟨reason, tokens, last, first :: passed, stop, rest, failed, rfl, visible,
          .blank blank passes, ?_⟩
        rwa [List.length_cons, Nat.add_comm passed.length, ← Nat.add_assoc]
  | false =>
  cases read : lexicon.lexeme before position first text with
  | error reason =>
      refine .inr ⟨reason, [], before, [], first, text, ?_, rfl, blank, .done, read⟩
      simp [scan, blank, read]
  | ok result =>
      obtain ⟨token, length⟩ := result
      obtain ⟨part, after, rfl, rfl⟩ := exists_part_of_lexeme read
      rw [← List.cons_append, scan_token blank read]
      have shorter : after.length < size := by
        rw [← measure, List.length_cons, List.length_append]
        omega
      rcases ih _ shorter (position + (part.length + 1)) (some token) after rfl with
        ⟨tokens, last, scanned, passes⟩ |
        ⟨reason, tokens, last, passed, stop, rest, failed, rfl, visible, passes, unread⟩
      · exact .inl ⟨_, last, by rw [scanned]; rfl, .token blank read passes⟩
      · refine .inr ⟨reason, _, last, first :: part ++ passed, stop, rest, by rw [failed]; rfl,
          by simp, visible, .token blank read passes, ?_⟩
        rwa [List.length_append, List.length_cons, ← Nat.add_assoc]

theorem exists_passes_of_scan (scanned : lexicon.scan 0 position before text = .ok tokens) :
    ∃ last, lexicon.Passes position before text tokens last [] := by
  rcases scan_cases lexicon position before text with
    ⟨_, last, same, passes⟩ | ⟨_, _, _, _, _, _, failed, _⟩
  · cases same.symm.trans scanned
    exact ⟨last, passes⟩
  · cases failed.symm.trans scanned

/-- Nothing that a token needs begins here: no parenthesis, and no blank before one. -/
def Severs (rest : List Char) : Prop := ∀ next ∈ rest.head?, isBlank next = false ∧ next ≠ '('

theorem beginsCall_of_severs (severs : Severs rest) {middle : List Char}
    (begins : beginsCall (middle ++ rest) = true) : beginsCall middle = true := by
  induction middle with
  | nil =>
      cases rest with
      | nil => exact begins
      | cons first others =>
          obtain ⟨visible, noOpening⟩ := severs first rfl
          simp [beginsCall, visible, noOpening] at begins
  | cons first others ih =>
      cases blank : isBlank first with
      | true =>
          rw [List.cons_append, beginsCall_cons_of_isBlank blank] at begins
          rw [beginsCall_cons_of_isBlank blank]
          exact ih begins
      | false => simpa [beginsCall, blank] using begins

/-- What the scan has passed is a text of its own, with the same tokens. -/
theorem Passes.exists_passed (passes : lexicon.Passes position before text tokens last rest)
    (severs : Severs rest) :
    ∃ passed, text = passed ++ rest ∧ lexicon.Passes position before passed tokens last [] := by
  induction passes with
  | done => exact ⟨[], rfl, .done⟩
  | blank blank _ ih =>
      obtain ⟨passed, rfl, passes⟩ := ih severs
      exact ⟨_ :: passed, rfl, .blank blank passes⟩
  | @token position before last first part after rest token tokens visible read _ ih =>
      obtain ⟨passed, rfl, passes⟩ := ih severs
      have alike : token.EndsAlike (passed ++ rest) passed :=
        .of_isPrefix (List.prefix_append passed rest) fun isFunction => by
          have begins := beginsCall_of_lexeme isFunction read
          rw [Nat.add_sub_cancel, List.drop_left] at begins
          exact beginsCall_of_severs severs begins
      exact ⟨first :: part ++ passed, by simp, .token visible
        (lexeme_append read alike (.inl rfl) position) passes⟩

end Lexicon

end Formula
