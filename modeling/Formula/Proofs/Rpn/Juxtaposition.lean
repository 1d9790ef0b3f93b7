import Mathlib
import Formula.Proofs.Rpn.Account

namespace Formula.Rpn

/-! Formulas read with and without juxtaposition.

A product that is inserted takes two operands and makes one, so every one of them lowers the number
of values that a formula leaves. That number is one in both readings if both are accepted, and then
nothing was inserted.
-/

open Grammar

theorem insertProducts_eq_of_length {τ : Type} [Lexical τ] {items : List τ}
    (same : (insertProducts items).length = items.length) : insertProducts items = items :=
  ((interspersed_insertProducts items).sublist.eq_of_length same.symm).symm

/-- Every product costs one value. -/
theorem writtenSurplus_insertProducts (tokens : List Token) :
    writtenSurplus (insertProducts tokens) + (insertProducts tokens).length =
      writtenSurplus tokens + tokens.length := by
  induction tokens with
  | nil => rfl
  | cons left rest ih =>
      cases rest with
      | nil => rfl
      | cons right others =>
          have product : writtenSurplus [.operator .times] = -1 := rfl
          rw [insertProducts_cons_cons, writtenSurplus_cons left (right :: others)]
          split
          · rw [writtenSurplus_cons left, writtenSurplus_cons (.operator .times), product]
            simp only [List.length_cons] at ih ⊢
            push_cast at ih ⊢
            omega
          · rw [writtenSurplus_cons left]
            simp only [List.length_cons] at ih ⊢
            push_cast at ih ⊢
            omega

theorem writtenSurplus_of_ofTokens {juxtaposition : Bool} {tokens rpn : List Token}
    (accepted : ofTokens juxtaposition tokens = .ok rpn) :
    writtenSurplus (withProducts juxtaposition tokens) = 1 := by
  obtain ⟨ordered, balanced⟩ := ofTokens_eq_ok_iff.mp accepted
  rw [← surplus_of_order ordered, balance_surplus balanced]

theorem insertProducts_eq_of_ofTokens {tokens multiplied plain : List Token}
    (on : ofTokens true tokens = .ok multiplied) (off : ofTokens false tokens = .ok plain) :
    insertProducts tokens = tokens := by
  have one : writtenSurplus (insertProducts tokens) = 1 := writtenSurplus_of_ofTokens on
  have alone : writtenSurplus tokens = 1 := writtenSurplus_of_ofTokens off
  have account := writtenSurplus_insertProducts tokens
  exact insertProducts_eq_of_length (by omega)

/-- A formula that is accepted with juxtaposition and without it has the same RPN in both readings,
for no product was inserted. -/
theorem ofText_juxtaposition_irrelevant {lexicon : Lexicon} {text : String}
    {multiplied plain : List Token} (on : ofText lexicon true text = .ok multiplied)
    (off : ofText lexicon false text = .ok plain) :
    multiplied = plain ∧
      ∃ tokens, lexicon.tokens text = .ok tokens ∧ insertProducts tokens = tokens := by
  obtain ⟨tokens, -, lexed, -⟩ := exists_run_of_ofText on
  rw [ofText_eq_ofTokens lexed] at on off
  have apart := insertProducts_eq_of_ofTokens on off
  have same : multiplied = plain := by
    simp only [ofTokens, if_true, apart] at on
    exact Except.ok.inj (on.symm.trans off)
  refine ⟨same, tokens, lexed, insertProducts_eq_of_length ?_⟩
  have lengths := congrArg List.length apart
  rw [← insertProducts_map_token] at lengths
  simpa using lengths

/-- `2 * (x + 1)` -/
theorem ofText_juxtaposition_irrelevant_of_product :
    ∃ multiplied plain,
      ofText (Vocabulary.lexicon { names := ["x"] }) true "2 * (x + 1)" = .ok multiplied ∧
        ofText (Vocabulary.lexicon { names := ["x"] }) false "2 * (x + 1)" = .ok plain ∧
        multiplied = plain := by
  have on : ofText (Vocabulary.lexicon { names := ["x"] }) true "2 * (x + 1)" =
      .ok [.number 2, .var "x", .number 1, .operator ⟨"+", 2, true, 500⟩, .operator .times] := by
    decide +kernel
  have off : ofText (Vocabulary.lexicon { names := ["x"] }) false "2 * (x + 1)" =
      .ok [.number 2, .var "x", .number 1, .operator ⟨"+", 2, true, 500⟩, .operator .times] := by
    decide +kernel
  exact ⟨_, _, on, off, (ofText_juxtaposition_irrelevant on off).1⟩

end Formula.Rpn
