import Mathlib
import Formula.Expression
import Formula.Proofs.Token.Meaning

namespace Formula

/-! Names with two meanings.

An expression is refused if a name that it declares is kept for a constant, or if a name is that of a
function as well. In every other expression a word is a name or a function and never both, so it does
not matter for the reading of a text which of the two is looked for first.
-/

namespace Expression

theorem leastName?_eq_none_iff {names : List String} : leastName? names = none ↔ names = [] := by
  cases names with
  | nil => exact iff_of_true rfl rfl
  | cons name rest => cases further : leastName? rest <;> simp [leastName?, further]

theorem isLeast_of_leastName? {names : List String} {least : String}
    (found : leastName? names = some least) : IsLeast {name | name ∈ names} least := by
  induction names generalizing least with
  | nil => contradiction
  | cons name rest ih =>
      cases further : leastName? rest with
      | none =>
          obtain rfl := leastName?_eq_none_iff.mp further
          obtain rfl : name = least := by simpa [leastName?] using found
          simp [IsLeast, lowerBounds]
      | some smallest =>
          obtain ⟨member, below⟩ := ih further
          simp only [leastName?, further, Option.some.injEq] at found
          split at found
          case isTrue smaller =>
            cases found
            refine ⟨List.mem_cons_self, fun other isOther => ?_⟩
            rcases List.mem_cons.mp isOther with rfl | isLater
            · exact le_refl _
            · exact smaller.trans (below isLater)
          case isFalse larger =>
            cases found
            refine ⟨List.mem_cons_of_mem name member, fun other isOther => ?_⟩
            rcases List.mem_cons.mp isOther with rfl | isLater
            · exact le_of_not_ge larger
            · exact below isLater

variable {expression : Expression} {name : String}

/-- Whether the name of a variable or constant is also that of a function. -/
def Collides (expression : Expression) (name : String) : Prop :=
  name ∈ expression.fullVocabulary.names ∧ expression.vocabulary.HasFunction name

theorem mem_colliding_iff :
    name ∈ (expression.vocabulary.names ++ NamedConstant.names).filter (fun name =>
      (expression.vocabulary.function? name).isSome) ↔ expression.Collides name := by
  rw [List.mem_filter, Vocabulary.isSome_function?_iff]
  rfl

/-- What is reported: a declared name that is kept for a constant, else the least that collides. -/
theorem collision?_eq_some (reported : expression.collision? = some name) :
    (name ∈ expression.vocabulary.names ∧ name ∈ NamedConstant.names) ∨
      (∀ declared ∈ expression.vocabulary.names, declared ∉ NamedConstant.names) ∧
        IsLeast {other | expression.Collides other} name := by
  rcases Option.or_eq_some_iff.mp reported with kept | ⟨noneKept, least⟩
  · exact .inl ⟨List.mem_of_find?_eq_some kept, List.contains_iff_mem.mp (List.find?_some kept)⟩
  · refine .inr ⟨fun declared isDeclared isConstant => ?_, ?_⟩
    · have notKept := List.find?_eq_none.mp noneKept declared isDeclared
      exact notKept (List.contains_iff_mem.mpr isConstant)
    · have isLeast := isLeast_of_leastName? least
      simpa only [mem_colliding_iff] using isLeast

theorem collision?_eq_none_iff :
    expression.collision? = none ↔
      (∀ declared ∈ expression.vocabulary.names, declared ∉ NamedConstant.names) ∧
        ∀ other, ¬ expression.Collides other := by
  rw [collision?, Option.or_eq_none_iff, leastName?_eq_none_iff, List.find?_eq_none,
    List.eq_nil_iff_forall_not_mem]
  simp only [mem_colliding_iff, NamedConstant.isName, List.contains_iff_mem]

theorem rpn_eq_nameCollision_iff :
    expression.rpn = .error (.nameCollision name) ↔ expression.collision? = some name := by
  simp only [rpn]
  split
  case h_1 other reported => simp [reported]
  case h_2 unreported =>
    -- What reading reports is a syntax error, and no name.
    cases Rpn.ofText expression.fullVocabulary.lexicon expression.juxtaposition expression.text <;>
      simp [unreported, Except.mapError]

end Expression

namespace Vocabulary

/-- The meanings of words and symbols if a word were a function before it is a name. -/
def functionFirst (vocabulary : Vocabulary) : Lexicon where
  word? text := ((vocabulary.function? text).map Word.function).or
    (if vocabulary.names.contains text then some (.name text) else none)
  operator? := vocabulary.operator?

theorem functionFirst_eq_lexicon {vocabulary : Vocabulary}
    (apart : ∀ name ∈ vocabulary.names, ¬ vocabulary.HasFunction name) :
    vocabulary.functionFirst = vocabulary.lexicon := by
  have word (text : String) : vocabulary.functionFirst.word? text = vocabulary.word? text := by
    simp only [functionFirst, word?]
    split
    case isTrue declared =>
      have noFunction := apart text (List.contains_iff_mem.mp declared)
      rw [← isSome_function?_iff, Bool.not_eq_true, Option.isSome_eq_false_iff,
        Option.isNone_iff_eq_none] at noFunction
      rw [noFunction]
      rfl
    case isFalse => exact Option.or_none
  have same : vocabulary.functionFirst.word? = vocabulary.word? := funext word
  rw [lexicon, ← same]
  rfl

end Vocabulary

/-- An expression is refused for a name exactly if it declares a name that is kept for a constant, or
if the name of a variable or constant is also that of a function; of the latter the least in code
point order is reported, if there are none of the former. In every other expression no word has two
meanings, and texts are read alike whether names or functions are looked for first. -/
theorem Expression.rpn_of_collision (expression : Expression) :
    ((∃ name, expression.rpn = .error (.nameCollision name)) ↔
      (∃ name ∈ expression.vocabulary.names, name ∈ NamedConstant.names) ∨
        ∃ name, expression.Collides name) ∧
    (∀ name, expression.rpn = .error (.nameCollision name) →
      (∀ declared ∈ expression.vocabulary.names, declared ∉ NamedConstant.names) →
        IsLeast {other | expression.Collides other} name) ∧
    ((∀ name, expression.rpn ≠ .error (.nameCollision name)) →
      (∀ word, ¬ (word ∈ expression.fullVocabulary.names ∧
        expression.fullVocabulary.HasFunction word)) ∧
      ∀ text, expression.fullVocabulary.functionFirst.tokens text =
        expression.fullVocabulary.lexicon.tokens text) := by
  have refused : (∃ name, expression.rpn = .error (.nameCollision name)) ↔
      ¬ expression.collision? = none := by
    simp only [rpn_eq_nameCollision_iff, ← Option.isSome_iff_exists, Option.isSome_iff_ne_none,
      ne_eq]
  refine ⟨?_, fun name reported noneKept => ?_, fun accepted => ?_⟩
  · rw [refused, collision?_eq_none_iff, not_and_or]
    push Not
    rfl
  · rcases collision?_eq_some (rpn_eq_nameCollision_iff.mp reported) with ⟨declared, constant⟩ | least
    · exact absurd constant (noneKept name declared)
    · exact least.2
  · have unreported : expression.collision? = none := by
      by_contra reported
      obtain ⟨name, refusal⟩ := refused.mpr reported
      exact accepted name refusal
    have apart := (collision?_eq_none_iff.mp unreported).2
    refine ⟨apart, fun text => ?_⟩
    rw [Vocabulary.functionFirst_eq_lexicon fun name declared hasFunction =>
      apart name ⟨declared, hasFunction⟩]

/-- Of `sin` and `logb` it is `logb` that is reported, though it is declared later. -/
theorem Expression.rpn_of_collision_of_functions :
    let expression : Expression := { text := "x", vocabulary := { names := ["x", "sin", "logb"] } }
    expression.rpn = .error (.nameCollision "logb") ∧
      IsLeast {other | expression.Collides other} "logb" := by
  intro expression
  have refused : expression.rpn = .error (.nameCollision "logb") := by decide +kernel
  exact ⟨refused, (rpn_of_collision expression).2.1 "logb" refused (by decide)⟩

end Formula
