import Mathlib.Data.List.Chain
import Formula.Proofs.Token.Placement
import Formula.Token.Juxtaposition

namespace Formula

/-! Tokens with the products that are not written.

Insertion goes by the tokens alone, so it is the same on tokens with and without their places. A
product stands only between neighbours that multiply, and after it no neighbours do.
-/

@[simp] theorem Token.token_eq (token : Token) : Lexical.token token = token := rfl

@[simp] theorem Located.token_eq (item : Located) : Lexical.token item = item.token := rfl

@[simp] theorem Rpn.map_lexical_token (tokens : List Token) : tokens.map Lexical.token = tokens :=
  List.map_id tokens

/-- The longer list is the items in their order, with others of a certain kind put in anywhere. -/
inductive Interspersed {τ : Type} (added : τ → Prop) : (items longer : List τ) → Prop
  | nil : Interspersed added [] []
  | kept {items longer : List τ} (item : τ) (onward : Interspersed added items longer) :
      Interspersed added (item :: items) (item :: longer)
  | put {items longer : List τ} {item : τ} (isAdded : added item)
      (onward : Interspersed added items longer) : Interspersed added items (item :: longer)

namespace Interspersed

variable {τ : Type} {added : τ → Prop} {items longer : List τ}

theorem sublist (interspersed : Interspersed added items longer) : items.Sublist longer := by
  induction interspersed with
  | nil => exact .slnil
  | kept item _ ih => exact ih.cons_cons item
  | put _ _ ih => exact ih.cons _

theorem added_of_mem (interspersed : Interspersed added items longer) {item : τ}
    (member : item ∈ longer) : item ∈ items ∨ added item := by
  induction interspersed with
  | nil => exact .inl member
  | kept first _ ih =>
      rcases List.mem_cons.mp member with rfl | further
      · exact .inl List.mem_cons_self
      · exact (ih further).imp_left (List.mem_cons_of_mem first)
  | put isAdded _ ih =>
      rcases List.mem_cons.mp member with rfl | further
      · exact .inr isAdded
      · exact ih further

theorem mono {others : τ → Prop} (implies : ∀ item, added item → others item)
    (interspersed : Interspersed added items longer) : Interspersed others items longer := by
  induction interspersed with
  | nil => exact .nil
  | kept item _ ih => exact .kept item ih
  | put isAdded _ ih => exact .put (implies _ isAdded) ih

end Interspersed

namespace Token

def isNumber : Token → Bool
  | .number _ => true
  | _ => false

/-- Whether an operand begins with the token, a sign apart. -/
def beginsOperand : Token → Bool
  | .number _ | .var _ | .function _ | .openParen => true
  | .operator _ | .closeParen | .comma => false

theorem multipliesWith_eq (left right : Token) :
    left.multipliesWith right =
      (left.endsOperand && right.beginsOperand && !(left.isNumber && right.isNumber)) := by
  cases left <;> cases right <;> simp [multipliesWith, endsOperand, beginsOperand, isNumber]

end Token

theorem insertProducts_map_token (items : List Located) :
    (insertProducts items).map Located.token = insertProducts (items.map Located.token) := by
  induction items with
  | nil => rfl
  | cons left rest ih =>
      cases rest with
      | nil => rfl
      | cons right others =>
          simp only [insertProducts, List.map_cons, Token.token_eq, Located.token_eq] at ih ⊢
          split
          · simp only [List.map_cons, ih]
            rfl
          · simp only [List.map_cons, ih]

theorem insertProducts_cons_cons (left right : Token) (rest : List Token) :
    insertProducts (left :: right :: rest) =
      if left.multipliesWith right then
        left :: .operator .times :: insertProducts (right :: rest)
      else left :: insertProducts (right :: rest) := rfl

@[simp]
theorem head?_insertProducts (tokens : List Token) :
    (insertProducts tokens).head? = tokens.head? := by
  match tokens with
  | [] => rfl
  | [_] => rfl
  | left :: right :: rest =>
      rw [insertProducts_cons_cons]
      split <;> rfl

section

variable {τ : Type} [Lexical τ] {items : List τ}

/-- Insertion leaves the first item where it is. -/
theorem exists_insertProducts_eq_cons (first : τ) (rest : List τ) :
    ∃ later, insertProducts (first :: rest) = first :: later := by
  cases rest with
  | nil => exact ⟨[], rfl⟩
  | cons next others =>
      simp only [insertProducts]
      split <;> exact ⟨_, rfl⟩

/-- Insertion puts in products and does nothing else. -/
theorem interspersed_insertProducts (items : List τ) :
    Interspersed (fun item => ∃ left right, item = Lexical.product left right) items
      (insertProducts items) := by
  induction items with
  | nil => exact .nil
  | cons left rest ih =>
      cases rest with
      | nil => exact .kept left .nil
      | cons right others =>
          simp only [insertProducts]
          split
          · exact .kept left (.put ⟨left, right, rfl⟩ ih)
          · exact .kept left ih

theorem insertProducts_eq_self
    (apart : (items.map Lexical.token).IsChain fun left right => left.multipliesWith right = false) :
    insertProducts items = items := by
  induction items with
  | nil => rfl
  | cons left rest ih =>
      cases rest with
      | nil => rfl
      | cons right others =>
          obtain ⟨here, further⟩ := List.isChain_cons_cons.mp apart
          simp only [insertProducts, here, Bool.false_eq_true, ↓reduceIte, ih further]

end

theorem mem_insertProducts {tokens : List Token} {token : Token}
    (member : token ∈ insertProducts tokens) : token ∈ tokens ∨ token = .operator .times := by
  rcases (interspersed_insertProducts tokens).added_of_mem member with given | ⟨left, right, product⟩
  · exact .inl given
  · exact .inr product

/-- A relation between neighbours holds after insertion if it holds around a product, and between
all neighbours that do not multiply. -/
theorem isChain_insertProducts {given relation : Token → Token → Prop} {tokens : List Token}
    (before : ∀ left, relation left (.operator .times))
    (after : ∀ right, relation (.operator .times) right)
    (between : ∀ left right, given left right → left.multipliesWith right = false →
      relation left right)
    (chain : tokens.IsChain given) : (insertProducts tokens).IsChain relation := by
  induction tokens with
  | nil => exact .nil
  | cons left rest ih =>
      cases rest with
      | nil => exact .singleton left
      | cons right others =>
          obtain ⟨here, further⟩ := List.isChain_cons_cons.mp chain
          rw [insertProducts_cons_cons]
          split
          case isTrue multiplies =>
            exact .cons_cons (before left)
              (List.isChain_cons.mpr ⟨fun next _ => after next, ih further⟩)
          case isFalse apart =>
            refine List.isChain_cons.mpr ⟨fun next isNext => ?_, ih further⟩
            obtain rfl : right = next := by simpa using isNext
            exact between left right here (Bool.eq_false_iff.mpr apart)

/-- After insertion no neighbours multiply. -/
theorem insertProducts_apart (tokens : List Token) :
    (insertProducts tokens).IsChain fun left right => left.multipliesWith right = false := by
  have any : tokens.IsChain fun _ _ => True := (List.pairwise_of_forall fun _ _ => trivial).isChain
  refine isChain_insertProducts (fun left => ?_) (fun _ => rfl) (fun _ _ _ => id) any
  simp [Token.multipliesWith]

theorem insertProducts_insertProducts (tokens : List Token) :
    insertProducts (insertProducts tokens) = insertProducts tokens := by
  have apart := insertProducts_apart tokens
  rw [← Rpn.map_lexical_token (insertProducts tokens)] at apart
  exact insertProducts_eq_self apart

/-- If no two numbers are side by side, then after insertion no operand begins where one ends. -/
theorem insertProducts_separate {tokens : List Token}
    (apart : tokens.IsChain fun left right => ¬(left.isNumber = true ∧ right.isNumber = true)) :
    (insertProducts tokens).IsChain fun left right =>
      left.endsOperand = true → right.beginsOperand = false := by
  refine isChain_insertProducts (fun _ _ => rfl) (fun _ ends => ?_) ?_ apart
  · contradiction
  · intro left right apart settled ends
    have notBoth : (left.isNumber && right.isNumber) = false := by
      rw [Bool.eq_false_iff, ne_eq, Bool.and_eq_true]
      exact apart
    simpa [Token.multipliesWith_eq, ends, notBoth] using settled

theorem exists_insertProducts_cons (first : Token) {rest : List Token} (nonempty : rest ≠ []) :
    ∃ between, insertProducts (first :: rest) = first :: between ++ insertProducts rest := by
  cases rest with
  | nil => contradiction
  | cons next others =>
      rw [insertProducts_cons_cons]
      split
      · exact ⟨[.operator .times], rfl⟩
      · exact ⟨[], rfl⟩

theorem exists_neighbours_insertProducts {left right : Token}
    (apart : left.multipliesWith right = false) (earlier later : List Token) :
    ∃ before after, insertProducts (earlier ++ left :: right :: later) =
      before ++ left :: right :: after := by
  induction earlier with
  | nil =>
      obtain ⟨after, same⟩ :=
        List.head?_eq_some_iff.mp (show (insertProducts (right :: later)).head? = some right by simp)
      refine ⟨[], after, ?_⟩
      rw [List.nil_append, insertProducts_cons_cons, apart, same]
      rfl
  | cons first others ih =>
      obtain ⟨before, after, same⟩ := ih
      obtain ⟨between, whole⟩ :=
        exists_insertProducts_cons first (show others ++ left :: right :: later ≠ [] by simp)
      refine ⟨first :: between ++ before, after, ?_⟩
      rw [List.cons_append, whole, same, List.append_assoc]

namespace Placed

variable {before : Option Token} {tokens : List Token}

theorem head_cons {token : Token} {rest : List Token} (placed : Placed before (token :: rest)) :
    token.Fits before rest := by
  cases placed with
  | cons fits _ => exact fits

theorem tail {token : Token} {rest : List Token} (placed : Placed before (token :: rest)) :
    Placed (some token) rest := by
  cases placed with
  | cons _ placed => exact placed

theorem fits_of_append {first rest : List Token} {token : Token}
    (placed : Placed before (first ++ token :: rest)) :
    token.Fits (first.getLast?.or before) rest := by
  induction first generalizing before with
  | nil => exact placed.head_cons
  | cons next others ih =>
      have further := ih placed.tail
      rw [List.getLast?_cons]
      cases last : others.getLast? with
      | none => rwa [last] at further
      | some token => rwa [last] at further

/-- What stands before matters to an operator only. -/
theorem of_beginsOperand {token : Token} {rest : List Token}
    (begins : token.beginsOperand = true) (placed : Placed before (token :: rest))
    (other : Option Token) : Placed other (token :: rest) := by
  refine .cons ⟨?_, placed.head_cons.2⟩ placed.tail
  rintro operator rfl
  contradiction

protected theorem insertProducts (placed : Placed before tokens) :
    Placed before (insertProducts tokens) := by
  induction tokens generalizing before with
  | nil => exact .nil
  | cons left rest ih =>
      cases rest with
      | nil => exact placed
      | cons right others =>
          rw [insertProducts_cons_cons]
          split
          case isTrue multiplies =>
            simp only [Token.multipliesWith_eq, Bool.and_eq_true] at multiplies
            obtain ⟨⟨ends, begins⟩, _⟩ := multiplies
            refine .cons ⟨placed.head_cons.1, fun isFunction => ?_⟩ (.cons ⟨?_, ?_⟩ ?_)
            · cases left <;> contradiction
            · rintro operator same
              cases same
              simp [operandExpected_eq, ends, Operator.isPrefix, Operator.isUnary, Operator.times]
            · simp [Token.isFunction]
            · exact ih (placed.tail.of_beginsOperand begins _)
          case isFalse =>
            refine .cons ⟨placed.head_cons.1, fun isFunction => ?_⟩ (ih placed.tail)
            rw [head?_insertProducts]
            exact placed.head_cons.2 isFunction

end Placed

end Formula
