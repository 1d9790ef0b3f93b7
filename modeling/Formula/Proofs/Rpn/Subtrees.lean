import Formula.Proofs.Rpn.Conservation
import Formula.Proofs.Rpn.Decoding

namespace Formula

/-! The parts of the operator tree that RPN writes.

Every item of RPN heads a part of the tree, whose operands stand directly before it. An item that
stands in RPN only once heads only one part, so its operands are those that decoding finds.
-/

namespace OperatorTree

variable {τ : Type} {part tree : OperatorTree τ} {operands : List (OperatorTree τ)} {item : τ}

/-- The first tree is the second, or occurs in an operand of it. -/
inductive Within (part : OperatorTree τ) : OperatorTree τ → Prop
  | self : Within part part
  | operand {head : τ} {operands : List (OperatorTree τ)} {operand : OperatorTree τ}
      (member : operand ∈ operands) (inner : Within part operand) :
      Within part (.node head operands)

theorem exists_forestPostorder_of_mem {forest : List (OperatorTree τ)} (member : tree ∈ forest) :
    ∃ earlier later, forestPostorder forest = earlier ++ tree.postorder ++ later := by
  obtain ⟨first, others, rfl⟩ := List.append_of_mem member
  exact ⟨forestPostorder first, forestPostorder others, by simp⟩

theorem Within.exists_postorder (within : (node item operands).Within tree) :
    ∃ earlier later, tree.postorder = earlier ++ forestPostorder operands ++ item :: later := by
  induction within with
  | self => exact ⟨[], [], by simp⟩
  | @operand head forest operand member inner ih =>
      obtain ⟨earlier, later, written⟩ := ih
      obtain ⟨before, after, whole⟩ := exists_forestPostorder_of_mem member
      exact ⟨before ++ earlier, later ++ after ++ [head], by simp [whole, written]⟩

theorem exists_mem_of_suffix {earlier word : List τ} (suffix : tree.postorder <:+ earlier ++ word)
    (nonempty : word ≠ []) : ∃ item ∈ tree.postorder, item ∈ word := by
  refine ⟨_, List.getLast_mem tree.postorder_ne_nil, ?_⟩
  rw [suffix.getLast tree.postorder_ne_nil, List.getLast_append_of_ne_nil _ nonempty]
  exact List.getLast_mem nonempty

section

variable [Lexical τ]

theorem Within.saturated (within : part.Within tree) (saturated : tree.Saturated) :
    part.Saturated := by
  induction within with
  | self => exact saturated
  | operand member inner ih =>
      cases saturated with
      | node count each => exact ih (each _ member)

theorem exists_within_of_mem (saturated : tree.Saturated) (member : item ∈ tree.postorder) :
    ∃ operands, (node item operands).Within tree := by
  induction saturated with
  | @node head forest count each ih =>
      rw [postorder_node, List.mem_append, forestPostorder_eq_flatten, List.mem_flatten] at member
      rcases member with ⟨word, isWord, inside⟩ | isHead
      · obtain ⟨operand, isOperand, rfl⟩ := List.mem_map.mp isWord
        obtain ⟨operands, within⟩ := ih operand isOperand inside
        exact ⟨operands, .operand isOperand within⟩
      · obtain rfl : item = head := by simpa using isHead
        exact ⟨forest, .self⟩

omit [Lexical τ] in
theorem exists_mem_of_forestPostorder_eq {forest : List (OperatorTree τ)} {earlier later : List τ}
    (written : forestPostorder forest = earlier ++ item :: later) :
    ∃ tree ∈ forest, ∃ before word rest,
      tree.postorder = word ++ item :: rest ∧ earlier = before ++ word := by
  induction forest generalizing earlier with
  | nil => simp at written
  | cons first others ih =>
      rw [forestPostorder_cons] at written
      rcases List.append_eq_append_iff.mp written with ⟨word, rfl, further⟩ | ⟨word, whole, further⟩
      · obtain ⟨tree, member, before, inner, rest, same, rfl⟩ := ih further
        exact ⟨tree, by simp [member], first.postorder ++ before, inner, rest, same,
          (List.append_assoc ..).symm⟩
      · cases word with
        | nil =>
            obtain ⟨tree, member, before, inner, rest, same, nothing⟩ := @ih [] further.symm
            refine ⟨tree, by simp [member], earlier ++ before, inner, rest, same, ?_⟩
            rw [List.append_assoc, ← nothing, List.append_nil]
        | cons head rest =>
            obtain ⟨rfl, rfl⟩ := List.cons.inj further
            exact ⟨first, by simp, [], earlier, rest, whole, rfl⟩

/-- The operands of an item, wherever it is written, stand directly before it. -/
theorem exists_within_of_postorder_eq {earlier later : List τ} (saturated : tree.Saturated)
    (written : tree.postorder = earlier ++ item :: later) :
    ∃ operands before, (node item operands).Within tree ∧
      earlier = before ++ forestPostorder operands := by
  induction saturated generalizing earlier later with
  | @node head forest count each ih =>
      rw [postorder_node] at written
      rcases List.eq_nil_or_concat later with rfl | ⟨rest, last, rfl⟩
      · obtain ⟨rfl, same⟩ := List.append_inj' written rfl
        obtain rfl : head = item := by simpa using same
        exact ⟨forest, [], .self, rfl⟩
      · rw [List.concat_eq_append, ← List.cons_append, ← List.append_assoc] at written
        obtain ⟨inside, _⟩ := List.append_inj' written rfl
        obtain ⟨operand, member, before, word, remaining, whole, rfl⟩ :=
          exists_mem_of_forestPostorder_eq inside
        obtain ⟨operands, outside, within, rfl⟩ := ih operand member whole
        exact ⟨operands, before ++ outside, .operand member within, (List.append_assoc ..).symm⟩

/-- At the end of RPN stands one saturated tree at most. -/
theorem Saturated.eq_of_append_postorder_eq {other : OperatorTree τ} {earlier before : List τ}
    (saturated : tree.Saturated) (also : other.Saturated)
    (same : earlier ++ tree.postorder = before ++ other.postorder) : tree = other := by
  have piled := congrArg ofRpn same
  simp only [ofRpn, List.foldl_append, saturated.foldl_pile, also.foldl_pile] at piled
  exact (List.cons.inj piled).1

/-- Of an item that is written once, decoding finds the operands. -/
theorem within_iff {earlier later : List τ} (saturated : tree.Saturated)
    (written : tree.postorder = earlier ++ item :: later) (once : item ∉ earlier ++ later) :
    (node item operands).Within tree ↔ operands = operandsAfter earlier item := by
  have decoded {operands : List (OperatorTree τ)} (within : (node item operands).Within tree) :
      operands = operandsAfter earlier item := by
    obtain ⟨before, after, same⟩ := within.exists_postorder
    rw [List.mem_append, not_or] at once
    obtain ⟨rfl, _, _⟩ :=
      (List.append_cons_inj_of_notMem once.1 once.2).mp (written.symm.trans same)
    cases within.saturated saturated with
    | node count each => exact (operandsAfter_eq each count before).symm
  refine ⟨decoded, ?_⟩
  rintro rfl
  obtain ⟨operands, within⟩ := @exists_within_of_mem _ tree item _ saturated (by simp [written])
  rwa [← decoded within]

theorem forestPostorder_operandsAfter_suffix (earlier : List τ) (item : τ) :
    forestPostorder (operandsAfter earlier item) <:+ earlier := by
  have written := forestPostorder_reverse_foldl ([] : List (OperatorTree τ)) earlier
  rw [List.reverse_nil, forestPostorder_nil, List.nil_append] at written
  refine ⟨forestPostorder ((ofRpn earlier).drop (Lexical.token item).operands).reverse, ?_⟩
  rw [operandsAfter, ← forestPostorder_append, ← List.reverse_append, List.take_append_drop]
  exact written

theorem exists_ofRpn_eq {items : List τ} (balanced : Rpn.balance (items.map Lexical.token) = .ok ()) :
    ∃ tree : OperatorTree τ, ofRpn items = [tree] ∧ tree.Saturated ∧ tree.postorder = items := by
  obtain ⟨tree, saturated, rfl⟩ := exists_of_balance balanced
  exact ⟨tree, ofRpn_postorder saturated, saturated, rfl⟩

theorem surplus_postorder (saturated : tree.Saturated) :
    Rpn.surplus (tree.postorder.map Lexical.token) = 1 :=
  Rpn.balance_surplus (Rpn.balance_postorder saturated)

/-- The end of a tree's postorder has no surplus, since something is there already. -/
theorem surplus_of_suffix {first rest : List τ} (saturated : tree.Saturated)
    (written : tree.postorder = first ++ rest) (nonempty : first ≠ []) :
    Rpn.surplus (rest.map Lexical.token) ≤ 0 := by
  cases rest with
  | nil => exact le_refl _
  | cons next others =>
      have counted := Rpn.balanceFrom_postorder saturated 0 []
      rw [written, List.map_append, List.append_nil] at counted
      have balanced : Rpn.balanceFrom ([] : List (OperatorTree τ)).length
          (first.map Lexical.token ++ (next :: others).map Lexical.token) = .ok () := counted
      obtain ⟨_, remaining⟩ := balanceFrom_foldl_pile (by simp) balanced
      have high : 0 < (first.foldl pile ([] : List (OperatorTree τ))).length := by
        rcases List.eq_nil_or_concat first with rfl | ⟨earlier, last, rfl⟩
        · contradiction
        · simp [pile]
      have left := Rpn.balanceFrom_surplus remaining (.inl (by simp))
      omega

/-- A tree that stands at the end of RPN is in a word there that has a surplus. -/
theorem Saturated.suffix_of_surplus {earlier word : List τ} (saturated : tree.Saturated)
    (suffix : tree.postorder <:+ earlier ++ word)
    (filled : 1 ≤ Rpn.surplus (word.map Lexical.token)) : tree.postorder <:+ word := by
  obtain ⟨outside, same⟩ := suffix
  rcases List.append_eq_append_iff.mp same with ⟨first, _, whole⟩ | ⟨others, _, rfl⟩
  · rcases List.eq_nil_or_concat first with rfl | ⟨_, _, rfl⟩
    · exact ⟨[], whole⟩
    · have counted := surplus_of_suffix saturated whole (by simp)
      omega
  · exact ⟨others, rfl⟩

/-- A tree that stands at the end of RPN reaches beyond a word there that makes no value. -/
theorem Saturated.exists_mem_of_surplus {earlier word : List τ} (saturated : tree.Saturated)
    (suffix : tree.postorder <:+ earlier ++ word)
    (unfilled : ∀ part, part <:+ word → Rpn.surplus (part.map Lexical.token) ≤ 0) :
    ∃ item ∈ tree.postorder, item ∈ earlier := by
  have one := surplus_postorder saturated
  obtain ⟨outside, same⟩ := suffix
  rcases List.append_eq_append_iff.mp same with ⟨first, within, whole⟩ | ⟨others, _, rfl⟩
  · rcases List.eq_nil_or_concat first with rfl | ⟨start, last, rfl⟩
    · have empty := unfilled word (List.suffix_refl word)
      rw [List.nil_append] at whole
      rw [whole] at one
      omega
    · exact ⟨last, by simp [whole], by simp [within]⟩
  · have empty := unfilled tree.postorder (List.suffix_append others _)
    omega

/-- A unary item that stands once in balanced RPN has one operand, directly before it. -/
theorem exists_operand [DecidableEq τ] {rpn : List τ} {operator : Operator}
    (balanced : Rpn.balance (rpn.map Lexical.token) = .ok ())
    (carried : Lexical.token item = .operator operator) (unary : operator.isUnary = true)
    (once : rpn.count item = 1) :
    ∃ tree operand : OperatorTree τ, ofRpn rpn = [tree] ∧ operand.Saturated ∧
      (∀ operands, (node item operands).Within tree ↔ operands = [operand]) ∧
      ∀ earlier later, rpn = earlier ++ item :: later → operand.postorder <:+ earlier := by
  obtain ⟨tree, decoded, saturated, rfl⟩ := exists_ofRpn_eq balanced
  obtain ⟨earlier, later, written⟩ :=
    List.append_of_mem (List.count_pos_iff.mp (Nat.lt_of_lt_of_eq Nat.one_pos once.symm))
  have apart : item ∉ earlier ++ later := by
    rw [written, List.count_append, List.count_cons_self] at once
    rw [← List.count_eq_zero, List.count_append]
    omega
  rw [written] at balanced
  obtain ⟨count, each⟩ := saturated_operandsAfter balanced
  have one : (Lexical.token item).operands = 1 := by
    simpa [carried, Token.operands, Operator.isUnary] using unary
  obtain ⟨operand, taken⟩ := List.length_eq_one_iff.mp (count.trans one)
  refine ⟨tree, operand, decoded, each operand (by simp [taken]), fun operands => ?_, ?_⟩
  · rw [within_iff saturated written apart, taken]
  · intro before after same
    rw [List.mem_append, not_or] at apart
    obtain ⟨rfl, _, _⟩ :=
      (List.append_cons_inj_of_notMem apart.1 apart.2).mp (written.symm.trans same)
    simpa [taken] using forestPostorder_operandsAfter_suffix earlier item

end

end OperatorTree

end Formula
