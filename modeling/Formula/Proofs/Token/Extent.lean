import Mathlib.Data.List.Chain
import Formula.Proofs.Token.Products

namespace Formula

/-! The characters that tokens take up.

Tokens are read from left to right, so they stand in the text in their order and do not overlap, and
each takes up at least one character. A product that is not written takes up none, and fits between
its neighbours.
-/

namespace Located

/-- The first item ends where the second begins or before, and neither ends before it begins. -/
def Precedes (left right : Located) : Prop :=
  left.span.start ≤ left.span.stop ∧ left.span.stop ≤ right.span.start ∧
    right.span.start ≤ right.span.stop

theorem Precedes.trans {left middle right : Located} (first : left.Precedes middle)
    (second : middle.Precedes right) : left.Precedes right :=
  ⟨first.1, first.2.1.trans (first.2.2.trans second.2.1), second.2.2⟩

instance : IsTrans Located Precedes := ⟨fun _ _ _ => Precedes.trans⟩

end Located

namespace Lexicon

variable {lexicon : Lexicon} {before : Option Token} {covered position start length : Nat}
variable {first : Char} {text rest : List Char} {token : Token} {tokens : List Located}

theorem length_pos_of_lexeme
    (read : lexicon.lexeme before start first rest = .ok (token, length)) : 0 < length := by
  rcases lexeme_cases read with asNumber | ⟨_, rfl⟩ | asWord | asSymbol
  · obtain ⟨decimal, parsed, _, rfl⟩ := number_cases asNumber
    refine List.length_pos_iff.mpr fun nothing => ?_
    rw [nothing] at parsed
    contradiction
  · exact Nat.one_pos
  · obtain ⟨_, known, _⟩ := word_cases asWord
    exact (longestKnownUpTo_eq_some known).1
  · obtain ⟨_, known, _⟩ := symbol_cases asSymbol
    exact (longestKnownUpTo_eq_some known).1

theorem scan_extent (scanned : lexicon.scan covered position before text = .ok tokens) :
    (∀ item ∈ tokens, position + covered ≤ item.span.start ∧ item.span.start < item.span.stop) ∧
      tokens.Pairwise Located.Precedes := by
  induction text generalizing covered position before tokens with
  | nil =>
      obtain rfl : [] = tokens := by simpa [scan] using scanned
      simp
  | cons first rest ih =>
      rcases scan_cons_cases scanned with
        ⟨remaining, passed, onward⟩ | ⟨rfl, _, token, length, later, read, onward, rfl⟩
      · obtain ⟨extents, ordered⟩ := ih onward
        refine ⟨fun item member => ?_, ordered⟩
        have extent := extents item member
        omega
      · have positive := length_pos_of_lexeme read
        obtain ⟨extents, ordered⟩ := ih onward
        constructor
        · intro item member
          rcases List.mem_cons.mp member with rfl | further
          · simp only [Nat.add_zero]
            omega
          · have extent := extents item further
            omega
        · refine List.pairwise_cons.mpr ⟨fun item member => ?_, ordered⟩
          have extent := extents item member
          simp only [Located.Precedes]
          omega

/-- The tokens of a text stand in it one after the other. -/
theorem tokens_precede {text : String} (lexed : lexicon.tokens text = .ok tokens) :
    tokens.Pairwise Located.Precedes :=
  (scan_extent lexed).2

/-- Every token of a text takes up at least one character. -/
theorem covers_of_mem_tokens {text : String} (lexed : lexicon.tokens text = .ok tokens)
    {item : Located} (member : item ∈ tokens) : item.span.start < item.span.stop :=
  ((scan_extent lexed).1 item member).2

end Lexicon

/-- With the products that are not written, items still stand one after the other. -/
theorem insertProducts_precede {items : List Located}
    (ordered : items.Pairwise Located.Precedes) :
    (insertProducts items).Pairwise Located.Precedes := by
  rw [← List.isChain_iff_pairwise] at ordered ⊢
  induction items with
  | nil => exact .nil
  | cons left rest ih =>
      cases rest with
      | nil => exact .singleton left
      | cons right others =>
          obtain ⟨here, further⟩ := List.isChain_cons_cons.mp ordered
          obtain ⟨later, begins⟩ := exists_insertProducts_eq_cons right others
          have onward := ih further
          simp only [insertProducts]
          rw [begins] at onward ⊢
          split
          · exact .cons_cons ⟨here.1, here.2.1, le_refl _⟩
              (.cons_cons ⟨le_refl _, le_refl _, here.2.2⟩ onward)
          · exact .cons_cons here onward

end Formula
