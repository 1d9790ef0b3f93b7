import Mathlib
import Formula.Proofs.Rpn.Decoding
import Formula.Proofs.Token.Products

namespace Formula.Rpn

/-! What the count of values tells about RPN.

Tokens that find their operands make up complete trees, one after the other, in one way only, and
the count is the number of these trees. So the count that goes through to one recognises the
postorders of trees, and where it does not go through it reports the first token that the trees
before it leave short of operands, or how many trees there are.
-/

open OperatorTree

/-- The RPN is that of these trees, one after the other, and every token in them has as many operands
as it takes. -/
structure Decomposes (rpn : List Token) (forest : List (OperatorTree Token)) : Prop where
  saturated : ∀ tree ∈ forest, tree.Saturated
  written : forestPostorder forest = rpn

/-- Tokens in RPN are complete trees that provide a token after them with its operands. -/
def Provides (earlier : List Token) (token : Token) : Prop :=
  ∃ forest, Decomposes earlier forest ∧ token.operands ≤ forest.length

/-- Every token finds its operands in the trees before it. -/
def FindsOperands (rpn : List Token) : Prop :=
  ∀ earlier token later, rpn = earlier ++ token :: later → Provides earlier token

/-- What is to be said about RPN: that it is a tree, or what is wrong with it. -/
inductive Diagnosis (rpn : List Token) : Except SyntaxError Unit → Prop
  | tree {tree : OperatorTree Token} (saturated : tree.Saturated) (written : tree.postorder = rpn) :
      Diagnosis rpn (.ok ())
  | empty (nothing : rpn = []) : Diagnosis rpn (.error .empty)
  | short {earlier later : List Token} {token : Token} (here : rpn = earlier ++ token :: later)
      (lacks : ¬ Provides earlier token) (first : FindsOperands earlier) :
      Diagnosis rpn (.error (.missingOperands token))
  | surplus {forest : List (OperatorTree Token)} (decomposes : Decomposes rpn forest)
      (several : 1 < forest.length) : Diagnosis rpn (.error (.tooManyOperands forest.length))

variable {rpn earlier rest : List Token} {forest other : List (OperatorTree Token)} {token : Token}

theorem Decomposes.nil : Decomposes [] [] := ⟨by simp, forestPostorder_nil⟩

theorem Decomposes.eq (decomposes : Decomposes rpn forest) (also : Decomposes rpn other) :
    forest = other := by
  have piled {trees : List (OperatorTree Token)} (decomposes : Decomposes rpn trees) :
      ofRpn rpn = trees.reverse := by
    rw [← decomposes.written, ofRpn,
      foldl_pile_forest fun tree member => (decomposes.saturated tree member).foldl_pile,
      List.append_nil]
  exact List.reverse_injective ((piled decomposes).symm.trans (piled also))

/-- A token takes the last trees as its operands. -/
theorem Decomposes.append (decomposes : Decomposes earlier forest)
    (enough : token.operands ≤ forest.length) :
    ∃ longer, Decomposes (earlier ++ [token]) longer ∧
      longer.length = forest.length - token.operands + 1 := by
  refine ⟨forest.take (forest.length - token.operands) ++
    [.node token (forest.drop (forest.length - token.operands))], ⟨?_, ?_⟩, ?_⟩
  · intro tree member
    rcases List.mem_append.mp member with before | last
    · exact decomposes.saturated tree (List.mem_of_mem_take before)
    · obtain rfl := List.mem_singleton.mp last
      refine .node ?_ fun operand taken => decomposes.saturated operand (List.mem_of_mem_drop taken)
      rw [List.length_drop, Token.token_eq]
      omega
  · rw [forestPostorder_append, forestPostorder_cons, postorder_node, forestPostorder_nil,
      List.append_nil, ← List.append_assoc, ← forestPostorder_append, List.take_append_drop,
      decomposes.written]
  · rw [List.length_append, List.length_take, List.length_singleton]
    omega

theorem Decomposes.balanceFrom_append (decomposes : Decomposes earlier forest) (rest : List Token) :
    balanceFrom 0 (earlier ++ rest) = balanceFrom forest.length rest := by
  have counted := balanceFrom_forestPostorder
    (fun tree member => balanceFrom_postorder (decomposes.saturated tree member)) 0 rest
  rw [decomposes.written, Nat.zero_add] at counted
  rwa [map_lexical_token] at counted

theorem FindsOperands.nil : FindsOperands [] := by
  rintro earlier token later same
  simp at same

theorem FindsOperands.append (each : FindsOperands earlier) (next : Provides earlier token) :
    FindsOperands (earlier ++ [token]) := by
  intro before other after same
  rcases after.eq_nil_or_concat with rfl | ⟨middle, last, rfl⟩
  · obtain ⟨rfl, isOther⟩ := List.append_inj' same rfl
    obtain rfl := List.singleton_inj.mp isOther
    exact next
  · rw [List.concat_eq_append, ← List.cons_append, ← List.append_assoc] at same
    exact each before other middle (List.append_inj' same rfl).1

/-- Where every token finds its operands, the tokens are complete trees. -/
theorem FindsOperands.exists_decomposes (each : FindsOperands rpn) :
    ∃ forest, Decomposes rpn forest := by
  rcases rpn.eq_nil_or_concat with rfl | ⟨earlier, token, rfl⟩
  · exact ⟨[], .nil⟩
  · rw [List.concat_eq_append] at each ⊢
    obtain ⟨forest, decomposes, enough⟩ := each earlier token [] rfl
    obtain ⟨longer, written, _⟩ := decomposes.append enough
    exact ⟨longer, written⟩

/-- Each diagnosis is what the count of values says. -/
theorem Diagnosis.balance_eq {outcome : Except SyntaxError Unit} (diagnosis : Diagnosis rpn outcome) :
    balance rpn = outcome := by
  cases diagnosis with
  | tree saturated written =>
      have counted := balance_postorder saturated
      rwa [map_lexical_token, written] at counted
  | empty nothing => rw [nothing, balance, List.isEmpty_nil, if_pos rfl]
  | @short earlier later token here lacks first =>
      obtain ⟨forest, decomposes⟩ := first.exists_decomposes
      have few : forest.length < token.operands :=
        not_le.mp fun enough => lacks ⟨forest, decomposes, enough⟩
      have nonempty : rpn.isEmpty = false := by simp [here]
      rw [balance, nonempty, if_neg Bool.false_ne_true, here, decomposes.balanceFrom_append,
        balanceFrom, if_pos few]
  | @surplus forest decomposes several =>
      have counted := decomposes.balanceFrom_append []
      have nonempty : rpn.isEmpty = false := by
        cases rpn with
        | nil =>
          obtain rfl := decomposes.eq .nil
          simp at several
        | cons _ _ => rfl
      rw [List.append_nil, balanceFrom, if_pos several] at counted
      rw [balance, nonempty, if_neg Bool.false_ne_true, counted]

/-- The count of values comes to a diagnosis, whatever complete trees it has read. -/
theorem diagnosis_balanceFrom (decomposes : Decomposes earlier forest)
    (first : FindsOperands earlier) (nonempty : earlier ++ rest ≠ []) :
    Diagnosis (earlier ++ rest) (balanceFrom forest.length rest) := by
  -- What is still to be read becomes shorter; the trees that have been read carry the count.
  induction rest generalizing earlier forest with
  | nil =>
      rw [List.append_nil] at nonempty ⊢
      rw [balanceFrom]
      split
      case isTrue several => exact .surplus decomposes several
      case isFalse few =>
        cases forest with
        | nil => exact absurd decomposes.written.symm nonempty
        | cons tree others =>
            obtain rfl : others = [] := by simpa using few
            exact .tree (decomposes.saturated tree (by simp)) (by simpa using decomposes.written)
  | cons token rest ih =>
      rw [balanceFrom]
      split
      case isTrue few =>
        refine .short rfl ?_ first
        rintro ⟨others, also, enough⟩
        rw [also.eq decomposes] at enough
        omega
      case isFalse enough =>
        obtain ⟨longer, written, length⟩ := decomposes.append (not_lt.mp enough)
        rw [← length, List.append_cons]
        exact ih written (first.append ⟨forest, decomposes, not_lt.mp enough⟩) (by simp)

/-- RPN is balanced if and only if it is the postorder of a tree with as many operands for every
token as it takes, and then of one only. Otherwise the count reports that there are no tokens, the
first token that does not find its operands, or how many trees there are. -/
theorem balance_decides (rpn : List Token) :
    (balance rpn = .ok () ↔
      ∃! tree : OperatorTree Token, tree.Saturated ∧ tree.postorder = rpn) ∧
    (∀ outcome, balance rpn = outcome ↔ Diagnosis rpn outcome) ∧
    ∀ forest other, Decomposes rpn forest → Decomposes rpn other → forest = other := by
  have diagnosis : Diagnosis rpn (balance rpn) := by
    cases rpn with
    | nil => exact .empty rfl
    | cons token rest =>
        exact @diagnosis_balanceFrom [] (token :: rest) [] .nil .nil (List.cons_ne_nil token rest)
  have decides (outcome : Except SyntaxError Unit) :
      balance rpn = outcome ↔ Diagnosis rpn outcome :=
    ⟨fun same => same ▸ diagnosis, Diagnosis.balance_eq⟩
  refine ⟨?_, decides, fun forest other => Decomposes.eq⟩
  rw [decides]
  constructor
  · rintro ⟨saturated, written⟩
    exact ⟨_, ⟨saturated, written⟩, fun other also =>
      also.1.eq_of_postorder_eq saturated (also.2.trans written.symm)⟩
  · rintro ⟨tree, ⟨saturated, written⟩, _⟩
    exact .tree saturated written

end Formula.Rpn
