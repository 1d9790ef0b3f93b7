namespace Formula

/-! Where the longest beginning ends that has a property throughout: before the first item without
it, whatever stands after that item.
-/

variable {β : Type} {p : β → Bool} {part after other shorter list : List β}

/-- What has the property throughout is the longest such beginning, if the next item does not have
it. -/
theorem takeWhile_append_of_head (inside : ∀ item ∈ part, p item = true)
    (outside : ∀ next ∈ after.head?, p next = false) :
    (part ++ after).takeWhile p = part ∧ (part ++ after).dropWhile p = after := by
  rw [List.takeWhile_append_of_pos inside, List.dropWhile_append_of_pos inside]
  cases after with
  | nil => simp
  | cons next rest =>
      have stops := outside next rfl
      simp [stops]

/-- The beginning stays what it is if what stands after it changes and its first item does not. -/
theorem takeWhile_append_of_head_or (taken : (part ++ after).takeWhile p = part)
    (ends : ∀ next ∈ other.head?, p next = false ∨ after.head? = some next) :
    (part ++ other).takeWhile p = part ∧ (part ++ other).dropWhile p = other := by
  have inside : ∀ item ∈ part, p item = true := by
    rw [← taken]
    exact List.all_eq_true.mp List.all_takeWhile
  refine takeWhile_append_of_head inside fun next isNext => ?_
  rcases ends next isNext with stops | same
  · exact stops
  have left := @List.takeWhile_append_dropWhile β p (part ++ after)
  rw [taken, List.append_cancel_left_eq] at left
  have stops := List.head?_dropWhile_not p (part ++ after)
  rw [left, same] at stops
  exact stops

theorem takeWhile_isPrefix (p : β → Bool) (isPrefix : shorter <+: list) :
    shorter.takeWhile p <+: list.takeWhile p := by
  obtain ⟨extra, rfl⟩ := isPrefix
  rw [List.takeWhile_append]
  split
  · exact (List.takeWhile_prefix p).trans (List.prefix_append _ _)
  · exact List.prefix_refl _

end Formula
