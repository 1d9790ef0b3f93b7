import Formula.Proofs.Assembly.Consumption
import Formula.Proofs.Rpn.Decoding

namespace Formula

/-! Assembly as recursion over the operator tree.

Assembly reads tokens one by one and keeps the applications that lack operands as frames. On the RPN
of a tree this is recursion over the tree, from the last operand to the first, in which the number
of frames is the depth. So what holds of every node at its depth can be shown by induction on trees.
-/

variable {α N : Type}

namespace Frame

/-- The frame with the last of the operands that it lacks, if it lacks more than that one. -/
def given (node : N) : Frame N → Frame N
  | .right finish => .left finish node
  | .arguments expand (more + 1) read => .arguments expand more (node :: read)
  | frame => frame

variable {node : N} {frame : Frame N}

theorem supply_last (one : frame.lacks = 1) (frames : List (Frame N)) :
    supply node (frame :: frames) = frame.closed [node] >>= (supply · frames) := by
  cases frame with
  | unary finish => rfl
  | right finish => simp [lacks] at one
  | left finish second =>
      rw [supply, closed]
      cases finish node second <;> rfl
  | arguments expand more read =>
      obtain rfl : more = 0 := by simpa [lacks] using one
      rfl

theorem supply_more (more : 1 < frame.lacks) (frames : List (Frame N)) :
    supply node (frame :: frames) = .ok (.reading (frame.given node :: frames)) := by
  cases frame with
  | unary finish => simp [lacks] at more
  | right finish => rfl
  | left finish second => simp [lacks] at more
  | arguments expand others read =>
      cases others with
      | zero => simp [lacks] at more
      | succ others => rfl

theorem lacks_given (more : 1 < frame.lacks) : (frame.given node).lacks + 1 = frame.lacks := by
  cases frame with
  | unary finish => simp [lacks] at more
  | right finish => rfl
  | left finish second => simp [lacks] at more
  | arguments expand others read =>
      cases others with
      | zero => simp [lacks] at more
      | succ others => rfl

theorem closed_given {nodes : List N} (count : frame.lacks = nodes.length + 1) (more : nodes ≠ []) :
    (frame.given node).closed nodes = frame.closed (nodes ++ [node]) := by
  have several := List.length_pos_iff.mpr more
  cases frame with
  | unary finish =>
      simp only [lacks] at count
      omega
  | right finish =>
      have one : nodes.length = 1 := by simpa [lacks] using count.symm
      obtain ⟨first, rfl⟩ := List.length_eq_one_iff.mp one
      rfl
  | left finish second =>
      simp only [lacks] at count
      omega
  | arguments expand others read =>
      cases others with
      | zero =>
          simp only [lacks] at count
          omega
      | succ others => simp [given, closed]

end Frame

namespace Assembler

open OperatorTree

variable [Numeral α]

mutual

/-- What a tree whose root lies at a depth becomes. The depth is looked at before the root, and the
root before its operands. -/
def descend (assembler : Assembler α N) (depth : Nat) : OperatorTree Token → Except CompileError N
  | .node head operands =>
      if assembler.maxDepth.any (decide <| · < depth) then .error .depthExceeded
      else
        match assembler.beginning head with
        | .error reason => .error reason
        | .ok (.node complete) => .ok complete
        | .ok (.frame opened) => assembler.descendForest (depth + 1) operands >>= opened.closed
        | .ok .nothing => .error .unexpectedEnd

/-- What several trees at one depth become, the last one first. -/
def descendForest (assembler : Assembler α N) (depth : Nat) :
    List (OperatorTree Token) → Except CompileError (List N)
  | [] => .ok []
  | first :: others => do
      let nodes ← assembler.descendForest depth others
      return (← assembler.descend depth first) :: nodes

end

/-- Assembly reads as many nodes for the token as the token counts operands, unless it fails. -/
def Counts (assembler : Assembler α N) (token : Token) : Prop :=
  match assembler.beginning token with
  | .ok (.node _) => token.operands = 0
  | .ok (.frame opened) => opened.lacks = token.operands
  | .ok .nothing => False
  | .error _ => True

variable {assembler : Assembler α N}

theorem Admits.counts {token : Token} (admitted : assembler.Admits token) :
    assembler.Counts token := by
  have begins := begins_beginning admitted
  rw [Counts]
  split <;> simp_all [Begins]

theorem descendForest_append_singleton (depth : Nat) (earlier : List (OperatorTree Token))
    (last : OperatorTree Token) :
    assembler.descendForest depth (earlier ++ [last]) = (do
      let node ← assembler.descend depth last
      return (← assembler.descendForest depth earlier) ++ [node]) := by
  induction earlier with
  | nil =>
      rw [List.nil_append, descendForest, descendForest]
      cases assembler.descend depth last <;> rfl
  | cons first others ih =>
      rw [List.cons_append, descendForest, ih, descendForest]
      cases assembler.descend depth last with
      | error reason => rfl
      | ok node =>
          cases assembler.descendForest depth others with
          | error reason => rfl
          | ok nodes => cases assembler.descend depth first <;> rfl

theorem descendForest_cons_eq_ok_iff {depth : Nat} {first : OperatorTree Token}
    {others : List (OperatorTree Token)} {nodes : List N} :
    assembler.descendForest depth (first :: others) = .ok nodes ↔
      ∃ node later, assembler.descend depth first = .ok node ∧
        assembler.descendForest depth others = .ok later ∧ nodes = node :: later := by
  rw [descendForest, bind_eq_ok_iff]
  simp only [bind_eq_ok_iff]
  constructor
  · rintro ⟨later, further, node, here, ⟨⟩⟩
    exact ⟨node, later, here, further, rfl⟩
  · rintro ⟨node, later, here, further, rfl⟩
    exact ⟨later, further, node, here, rfl⟩

theorem length_descendForest {depth : Nat} {forest : List (OperatorTree Token)} {nodes : List N}
    (read : assembler.descendForest depth forest = .ok nodes) : nodes.length = forest.length := by
  induction forest generalizing nodes with
  | nil =>
      obtain rfl : [] = nodes := by simpa [descendForest] using read
      rfl
  | cons first others ih =>
      obtain ⟨node, later, _, further, rfl⟩ := descendForest_cons_eq_ok_iff.mp read
      rw [List.length_cons, List.length_cons, ih further]

/-- What steps make of the RPN of the tree inside any frames: the node that recursion makes at that
depth, given to the frames. -/
def Descends (assembler : Assembler α N) (tree : OperatorTree Token) : Prop :=
  ∀ frames, tree.postorder.reverse.foldlM assembler.step (.reading frames) =
    assembler.descend (frames.length + 1) tree >>= (Frame.supply · frames)

/-- A frame reads its operands from the last to the first and is then closed. -/
theorem foldlM_step_forest {forest : List (OperatorTree Token)}
    (each : ∀ tree ∈ forest, assembler.Descends tree) {frame : Frame N}
    (count : frame.lacks = forest.length) (frames : List (Frame N)) :
    (forestPostorder forest).reverse.foldlM assembler.step (.reading (frame :: frames)) =
      assembler.descendForest (frames.length + 2) forest >>= frame.closed >>=
        (Frame.supply · frames) := by
  induction forest using List.reverseRecOn generalizing frame with
  | nil =>
      have positive := frame.lacks_pos
      simp only [List.length_nil] at count
      omega
  | append_singleton earlier last ih =>
      rw [List.length_append, List.length_singleton] at count
      have read := each last (by simp) (frame :: frames)
      rw [forestPostorder_append, forestPostorder_cons, forestPostorder_nil, List.append_nil,
        List.reverse_append, List.foldlM_append, read, descendForest_append_singleton]
      cases assembler.descend (frames.length + 2) last with
      | error reason => rfl
      | ok node =>
          change Frame.supply node (frame :: frames) >>= _ =
            (assembler.descendForest (frames.length + 2) earlier >>= fun nodes =>
              pure (nodes ++ [node])) >>= frame.closed >>= (Frame.supply · frames)
          rcases eq_or_ne earlier [] with rfl | further
          · rw [Frame.supply_last count, forestPostorder_nil, List.reverse_nil]
            exact bind_pure _
          · have more : 1 < frame.lacks := by
              have several := List.length_pos_iff.mpr further
              omega
            have lacking : (frame.given node).lacks + 1 = frame.lacks := Frame.lacks_given more
            rw [Frame.supply_more more]
            refine (ih (fun tree member => each tree (by simp [member])) (by omega)).trans ?_
            cases operands : assembler.descendForest (frames.length + 2) earlier with
            | error reason => rfl
            | ok nodes =>
                have length := length_descendForest operands
                change (frame.given node).closed nodes >>= _ = frame.closed (nodes ++ [node]) >>= _
                rw [Frame.closed_given (by omega) (List.ne_nil_of_length_pos (by omega))]

/-- Steps over the RPN of a tree are recursion over the tree. -/
theorem descends_of_saturated {tree : OperatorTree Token} (saturated : tree.Saturated)
    (counted : ∀ token ∈ tree.postorder, assembler.Counts token) : assembler.Descends tree := by
  induction saturated with
  | @node head operands count each ih =>
      intro frames
      obtain ⟨below, here⟩ := forall_mem_postorder_node.mp counted
      have inner := fun operand member => ih operand member (below operand member)
      rw [postorder_node, List.reverse_append, List.reverse_singleton, List.singleton_append,
        List.foldlM_cons, step, descend, isTooDeep]
      split
      · rfl
      · rw [Counts] at here
        cases opened : assembler.beginning head with
        | error reason => rfl
        | ok beginning =>
            rw [opened] at here
            cases beginning with
            | node complete =>
                obtain rfl : operands = [] := List.length_eq_zero_iff.mp (count.trans here)
                rw [forestPostorder_nil]
                exact bind_pure _
            | frame frame => exact foldlM_step_forest inner (here.trans count.symm) frames
            | nothing => exact here.elim

theorem build_eq_descend {tree : OperatorTree Token} (saturated : tree.Saturated)
    (counted : ∀ token ∈ tree.postorder, assembler.Counts token) :
    assembler.build tree.postorder = assembler.descend 1 tree := by
  rw [build, descends_of_saturated saturated counted []]
  cases assembler.descend 1 tree <;> rfl

end Assembler

end Formula
