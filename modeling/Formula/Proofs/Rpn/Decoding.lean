import Formula.Proofs.Rpn.OperatorTree

namespace Formula

/-! The operator tree that RPN writes.

Reading RPN piles up trees, and every item takes its operands from the top of the pile. The pile
always writes what has been read, a saturated tree is piled up as it is, and the count of values is
the height of the pile. So balanced RPN writes exactly one saturated tree, and what an item takes in
it is settled by what stands before it.
-/

namespace OperatorTree

variable {τ : Type} [Lexical τ]

/-- The pile of trees, the latest first, after one more item of RPN. -/
def pile (trees : List (OperatorTree τ)) (item : τ) : List (OperatorTree τ) :=
  .node item (trees.take (Lexical.token item).operands).reverse ::
    trees.drop (Lexical.token item).operands

/-- The trees that RPN writes, the latest first. -/
def ofRpn (items : List τ) : List (OperatorTree τ) := items.foldl pile []

/-- The operands that an item takes after `earlier` in RPN. -/
def operandsAfter (earlier : List τ) (item : τ) : List (OperatorTree τ) :=
  ((ofRpn earlier).take (Lexical.token item).operands).reverse

omit [Lexical τ] in
@[simp] theorem forestPostorder_append (forest others : List (OperatorTree τ)) :
    forestPostorder (forest ++ others) = forestPostorder forest ++ forestPostorder others := by
  induction forest with
  | nil => simp
  | cons first rest ih => simp [ih]

omit [Lexical τ] in
theorem forestPostorder_eq_flatten (forest : List (OperatorTree τ)) :
    forestPostorder forest = (forest.map postorder).flatten := by
  induction forest with
  | nil => simp
  | cons first rest ih => simp [ih]

omit [Lexical τ] in
theorem forall_mem_postorder_node {head : τ} {operands : List (OperatorTree τ)} {holds : τ → Prop} :
    (∀ item ∈ (node head operands).postorder, holds item) ↔
      (∀ operand ∈ operands, ∀ item ∈ operand.postorder, holds item) ∧ holds head := by
  rw [postorder_node, List.forall_mem_append, List.forall_mem_singleton,
    forestPostorder_eq_flatten, List.forall_mem_flatten, List.forall_mem_map]

theorem forestPostorder_reverse_pile (trees : List (OperatorTree τ)) (item : τ) :
    forestPostorder (pile trees item).reverse = forestPostorder trees.reverse ++ [item] := by
  have parted : trees.reverse = (trees.drop (Lexical.token item).operands).reverse ++
      (trees.take (Lexical.token item).operands).reverse := by
    rw [← List.reverse_append, List.take_append_drop]
  rw [pile, List.reverse_cons, parted, forestPostorder_append, forestPostorder_append]
  simp

theorem forestPostorder_reverse_foldl (trees : List (OperatorTree τ)) (items : List τ) :
    forestPostorder (items.foldl pile trees).reverse = forestPostorder trees.reverse ++ items := by
  induction items generalizing trees with
  | nil => simp
  | cons item rest ih =>
      rw [List.foldl_cons, ih, forestPostorder_reverse_pile, List.append_assoc]
      rfl

theorem foldl_pile_forest {forest : List (OperatorTree τ)}
    (each : ∀ tree ∈ forest, ∀ trees, tree.postorder.foldl pile trees = tree :: trees)
    (trees : List (OperatorTree τ)) :
    (forestPostorder forest).foldl pile trees = forest.reverse ++ trees := by
  induction forest generalizing trees with
  | nil => simp
  | cons first others ih =>
      have remaining := ih fun tree member => each tree (List.mem_cons_of_mem _ member)
      rw [forestPostorder_cons, List.foldl_append, each first (by simp), remaining]
      simp

theorem Saturated.foldl_pile {tree : OperatorTree τ} (saturated : tree.Saturated)
    (trees : List (OperatorTree τ)) : tree.postorder.foldl pile trees = tree :: trees := by
  induction saturated generalizing trees with
  | @node head operands count each ih =>
      have top : operands.reverse.length = (Lexical.token head).operands := by
        rw [List.length_reverse, count]
      rw [postorder_node, List.foldl_append, foldl_pile_forest ih, List.foldl_cons, List.foldl_nil,
        pile, ← top, List.take_left, List.drop_left, List.reverse_reverse]

theorem ofRpn_postorder {tree : OperatorTree τ} (saturated : tree.Saturated) :
    ofRpn tree.postorder = [tree] :=
  saturated.foldl_pile []

/-- RPN writes one saturated tree at most. -/
theorem Saturated.eq_of_postorder_eq {tree other : OperatorTree τ} (saturated : tree.Saturated)
    (also : other.Saturated) (same : tree.postorder = other.postorder) : tree = other := by
  have pileUp := ofRpn_postorder saturated
  rw [same, ofRpn_postorder also] at pileUp
  simpa using pileUp.symm

theorem operandsAfter_eq {forest : List (OperatorTree τ)} {item : τ}
    (each : ∀ tree ∈ forest, tree.Saturated) (count : forest.length = (Lexical.token item).operands)
    (earlier : List τ) : operandsAfter (earlier ++ forestPostorder forest) item = forest := by
  have top : forest.reverse.length = (Lexical.token item).operands := by
    rw [List.length_reverse, count]
  rw [operandsAfter, ofRpn, List.foldl_append,
    foldl_pile_forest fun tree member => (each tree member).foldl_pile, ← top, List.take_left,
    List.reverse_reverse]

/-- While the count of values goes through, it is the height of the pile, and every tree in it is
saturated. -/
theorem balanceFrom_foldl_pile {trees : List (OperatorTree τ)}
    (each : ∀ tree ∈ trees, tree.Saturated) {items : List τ} {rest : List Token}
    (balanced : Rpn.balanceFrom trees.length (items.map Lexical.token ++ rest) = .ok ()) :
    (∀ tree ∈ items.foldl pile trees, tree.Saturated) ∧
      Rpn.balanceFrom (items.foldl pile trees).length rest = .ok () := by
  induction items generalizing trees with
  | nil => exact ⟨each, balanced⟩
  | cons item others ih =>
      simp only [List.map_cons, List.cons_append, Rpn.balanceFrom] at balanced
      split at balanced
      · contradiction
      case isFalse enough =>
        refine @ih (pile trees item) ?_ ?_
        · intro tree member
          rcases List.mem_cons.mp member with rfl | further
          · refine .node ?_ fun operand taken => ?_
            · rw [List.length_reverse, List.length_take]
              omega
            · exact each operand (List.mem_of_mem_take (List.mem_reverse.mp taken))
          · exact each tree (List.mem_of_mem_drop further)
        · rw [pile, List.length_cons, List.length_drop]
          exact balanced

theorem exists_of_balance {items : List τ}
    (balanced : Rpn.balance (items.map Lexical.token) = .ok ()) :
    ∃ tree : OperatorTree τ, tree.Saturated ∧ tree.postorder = items := by
  simp only [Rpn.balance] at balanced
  split at balanced
  · contradiction
  case isFalse nonempty =>
    have counted := @balanceFrom_foldl_pile τ _ [] (by simp) items []
      (by rw [List.append_nil]; exact balanced)
    have written := @forestPostorder_reverse_foldl τ _ [] items
    obtain ⟨each, low⟩ := counted
    cases piled : items.foldl pile [] with
    | nil =>
        rw [piled] at written
        have nothing : items = [] := by simpa using written
        simp [nothing] at nonempty
    | cons tree others =>
        rw [piled] at each low written
        simp only [Rpn.balanceFrom] at low
        split at low
        · contradiction
        case isFalse few =>
          obtain rfl : others = [] := List.length_eq_zero_iff.mp (by simpa using few)
          exact ⟨tree, each tree (by simp), by simpa using written⟩

/-- In balanced RPN every item finds its operands. -/
theorem saturated_operandsAfter {earlier later : List τ} {item : τ}
    (balanced : Rpn.balance ((earlier ++ item :: later).map Lexical.token) = .ok ()) :
    (operandsAfter earlier item).length = (Lexical.token item).operands ∧
      ∀ operand ∈ operandsAfter earlier item, operand.Saturated := by
  simp only [Rpn.balance] at balanced
  split at balanced
  · contradiction
  · rw [List.map_append] at balanced
    obtain ⟨each, enough⟩ := @balanceFrom_foldl_pile τ _ [] (by simp) earlier _ balanced
    simp only [List.map_cons, Rpn.balanceFrom] at enough
    split at enough
    · contradiction
    case isFalse high =>
      refine ⟨?_, fun operand taken => ?_⟩
      · rw [operandsAfter, ofRpn, List.length_reverse, List.length_take]
        omega
      · exact each operand (List.mem_of_mem_take (List.mem_reverse.mp taken))

theorem exists_forest_of_balance {words : List (List τ)}
    (each : ∀ word ∈ words, Rpn.balance (word.map Lexical.token) = .ok ()) :
    ∃ forest : List (OperatorTree τ), (∀ tree ∈ forest, tree.Saturated) ∧
      forest.map postorder = words := by
  induction words with
  | nil => exact ⟨[], by simp, rfl⟩
  | cons word others ih =>
      obtain ⟨tree, saturated, rfl⟩ := exists_of_balance (each word (by simp))
      obtain ⟨forest, further, rfl⟩ := ih fun other member => each other (by simp [member])
      exact ⟨tree :: forest, by simpa using ⟨saturated, further⟩, rfl⟩

/-- Words directly before an item are its operands exactly if each makes one value and they are as
many as it takes. -/
theorem map_postorder_operandsAfter_iff {earlier later : List τ} {words : List (List τ)} {item : τ}
    (balanced : Rpn.balance ((earlier ++ words.flatten ++ item :: later).map Lexical.token) =
      .ok ()) :
    (operandsAfter (earlier ++ words.flatten) item).map postorder = words ↔
      words.length = (Lexical.token item).operands ∧
        ∀ word ∈ words, Rpn.balance (word.map Lexical.token) = .ok () := by
  constructor
  · intro same
    obtain ⟨count, each⟩ := saturated_operandsAfter balanced
    have lengths := congrArg List.length same
    rw [List.length_map, count] at lengths
    refine ⟨lengths.symm, fun word member => ?_⟩
    rw [← same] at member
    obtain ⟨operand, taken, rfl⟩ := List.mem_map.mp member
    exact Rpn.balance_postorder (each operand taken)
  · rintro ⟨count, each⟩
    obtain ⟨forest, saturated, same⟩ := exists_forest_of_balance each
    have whole : words.flatten = forestPostorder forest := by
      rw [forestPostorder_eq_flatten, same]
    have lengths := congrArg List.length same
    rw [List.length_map, count] at lengths
    rw [whole, operandsAfter_eq saturated lengths, same]

end OperatorTree

end Formula
