import Mathlib
import Formula.Proofs.Rpn.Run
import Formula.Rpn.Balance

namespace Formula

/-! What ordering keeps: the items that make values, the order of numbers and names, the nesting of
parentheses, and the surplus of values over operands.
-/

/-- Whether the token only groups or separates others. -/
def Token.isPunctuation : Token → Bool
  | .openParen | .closeParen | .comma => true
  | .number _ | .var _ | .operator _ | .function _ => false

/-- Whether the token is an operand by itself. -/
def Token.isLeaf : Token → Bool
  | .number _ | .var _ => true
  | .operator _ | .function _ | .openParen | .closeParen | .comma => false

namespace Rpn

section

variable {τ : Type} [Lexical τ] {pending items ordered held : List τ} {item : τ}

def makesValue (item : τ) : Bool := !(Lexical.token item).isPunctuation

theorem makesValue_eq {token : Token} (carried : Lexical.token item = token) :
    makesValue item = !token.isPunctuation := by
  rw [makesValue, carried]

theorem IsLeaf.makesValue (isLeaf : IsLeaf item) : makesValue item = true := by
  rcases isLeaf with ⟨value, carried⟩ | ⟨name, carried⟩
  · exact makesValue_eq carried
  · exact makesValue_eq carried

/-- No closing parenthesis and no comma is pending. -/
def Waiting (pending : List τ) : Prop :=
  ∀ item ∈ pending, isOpening item = false → makesValue item = true

theorem Waiting.cons (waiting : Waiting pending)
    (fits : isOpening item = false → makesValue item = true) : Waiting (item :: pending) := by
  intro other member
  rcases List.mem_cons.mp member with rfl | further
  · exact fits
  · exact waiting other further

theorem Waiting.right (waiting : Waiting (held ++ pending)) : Waiting pending :=
  fun item member => waiting item (List.mem_append_right held member)

theorem Waiting.tail (waiting : Waiting (item :: pending)) : Waiting pending :=
  fun other member => waiting other (List.mem_cons_of_mem item member)

theorem Waiting.left (waiting : Waiting (held ++ pending)) : Waiting held :=
  fun item member => waiting item (List.mem_append_left pending member)

theorem Waiting.filter_eq_self (waiting : Waiting held)
    (closed : ∀ item ∈ held, isOpening item = false) : held.filter makesValue = held :=
  List.filter_eq_self.mpr fun item member => waiting item member (closed item member)

theorem Waiting.filter_append (waiting : Waiting (held ++ pending))
    (closed : ∀ item ∈ held, isOpening item = false) :
    (held ++ pending ++ items).filter makesValue = held ++ (pending ++ items).filter makesValue := by
  rw [List.append_assoc, List.filter_append, waiting.left.filter_eq_self closed]

theorem filter_append_cons_of_punctuation (left : List τ) {token : Token}
    (carried : Lexical.token item = token) (punctuation : token.isPunctuation = true) :
    (left ++ item :: items).filter makesValue = (left ++ items).filter makesValue := by
  have dropped : makesValue item = false := by rw [makesValue_eq carried, punctuation]; rfl
  simp [dropped]

theorem isOpening_eq_false_of_isReleasedBy {entering : Operator}
    (released : isReleasedBy entering item = true) : isOpening item = false := by
  cases carried : Lexical.token item <;>
    simp [isReleasedBy, isOpening, carried, Token.isOpenParen] at released ⊢

/-- Ordering only rearranges: the output has every item that makes a value, and no other. -/
theorem Run.perm (run : Run pending items ordered) (waiting : Waiting pending) :
    ordered.Perm ((pending ++ items).filter makesValue) := by
  induction run with
  | done closed => rw [List.append_nil, waiting.filter_eq_self closed]
  | @leaf pending rest ordered item isLeaf onward ih =>
      have later := ih waiting
      rw [List.filter_append] at later ⊢
      rw [List.filter_cons_of_pos isLeaf.makesValue]
      exact (later.cons item).trans List.perm_middle.symm
  | @function pending rest ordered item definition calls onward ih =>
      have later := ih (waiting.cons fun _ => makesValue_eq calls)
      exact later.trans (List.perm_middle.symm.filter makesValue)
  | @opening pending rest ordered item opens onward ih =>
      have later := ih (waiting.cons fun closed => by simp [isOpening_eq_true opens] at closed)
      exact later.trans (List.perm_middle.symm.filter makesValue)
  | @operator released pending rest ordered item entering carried freed kept onward ih =>
      have later := ih (waiting.right.cons fun _ => makesValue_eq carried)
      rw [waiting.filter_append fun other member =>
        isOpening_eq_false_of_isReleasedBy (freed other member)]
      exact (later.trans (List.perm_middle.symm.filter makesValue)).append_left released
  | @comma held pending rest ordered item opening function definition separates closed opens calls
      onward ih =>
      have later := ih waiting.right
      rw [waiting.filter_append closed, filter_append_cons_of_punctuation _ separates rfl]
      exact later.append_left held
  | @group held pending rest ordered item opening closes closed opens quiet onward ih =>
      have later := ih waiting.right.tail
      rw [waiting.filter_append closed, filter_append_cons_of_punctuation _ closes rfl]
      rw [List.cons_append, ← List.nil_append (opening :: _),
        filter_append_cons_of_punctuation _ opens rfl]
      exact later.append_left held
  | @call held pending rest ordered item opening function definition closes closed opens calls
      onward ih =>
      have later := ih waiting.right.tail.tail
      rw [waiting.filter_append closed, filter_append_cons_of_punctuation _ closes rfl]
      rw [List.cons_append, ← List.nil_append (opening :: _),
        filter_append_cons_of_punctuation _ opens rfl, List.nil_append, List.cons_append,
        List.filter_cons_of_pos (makesValue_eq calls)]
      exact (later.cons function).append_left held

theorem Run.makesValue_of_mem (run : Run [] items ordered) (member : item ∈ ordered) :
    makesValue item = true := by
  have waiting : Waiting ([] : List τ) := fun other isPending => by simp at isPending
  exact (List.mem_filter.mp ((run.perm waiting).mem_iff.mp member)).2

/-- The numbers and names among the items. -/
def leaves (items : List τ) : List τ := items.filter fun item => (Lexical.token item).isLeaf

@[simp] theorem leaves_nil : leaves ([] : List τ) = [] := rfl

@[simp] theorem leaves_append (items others : List τ) :
    leaves (items ++ others) = leaves items ++ leaves others :=
  List.filter_append ..

theorem leaves_cons_of_isLeaf (isLeaf : IsLeaf item) (rest : List τ) :
    leaves (item :: rest) = item :: leaves rest := by
  rcases isLeaf with ⟨value, carried⟩ | ⟨name, carried⟩ <;> simp [leaves, carried, Token.isLeaf]

theorem leaves_cons_of_token {token : Token} (carried : Lexical.token item = token)
    (other : token.isLeaf = false) (rest : List τ) : leaves (item :: rest) = leaves rest := by
  simp [leaves, carried, other]

/-- No number and no name is ever pending, so each goes out where it is read. -/
theorem Run.leaves_eq (run : Run pending items ordered) (noneWait : leaves pending = []) :
    leaves ordered = leaves items := by
  induction run with
  | done closed => rw [noneWait, leaves_nil]
  | leaf isLeaf onward ih =>
      rw [leaves_cons_of_isLeaf isLeaf, leaves_cons_of_isLeaf isLeaf, ih noneWait]
  | function calls onward ih =>
      rw [leaves_cons_of_token calls rfl]
      exact ih (by rw [leaves_cons_of_token calls rfl, noneWait])
  | opening opens onward ih =>
      rw [leaves_cons_of_token opens rfl]
      exact ih (by rw [leaves_cons_of_token opens rfl, noneWait])
  | operator carried freed kept onward ih =>
      rw [leaves_append, List.append_eq_nil_iff] at noneWait
      obtain ⟨noneFreed, noneBelow⟩ := noneWait
      rw [leaves_append, noneFreed, List.nil_append, leaves_cons_of_token carried rfl]
      exact ih (by rw [leaves_cons_of_token carried rfl, noneBelow])
  | comma separates closed opens calls onward ih =>
      rw [leaves_append, List.append_eq_nil_iff] at noneWait
      obtain ⟨noneHeld, noneBelow⟩ := noneWait
      rw [leaves_append, noneHeld, List.nil_append, leaves_cons_of_token separates rfl]
      exact ih noneBelow
  | group closes closed opens quiet onward ih =>
      rw [leaves_append, List.append_eq_nil_iff, leaves_cons_of_token opens rfl] at noneWait
      obtain ⟨noneHeld, noneBelow⟩ := noneWait
      rw [leaves_append, noneHeld, List.nil_append, leaves_cons_of_token closes rfl]
      exact ih noneBelow
  | call closes closed opens calls onward ih =>
      rw [leaves_append, List.append_eq_nil_iff, leaves_cons_of_token opens rfl,
        leaves_cons_of_token calls rfl] at noneWait
      obtain ⟨noneHeld, noneBelow⟩ := noneWait
      rw [leaves_append, noneHeld, List.nil_append, leaves_cons_of_token calls rfl,
        leaves_cons_of_token closes rfl]
      exact ih noneBelow

/-- What is ordered is rearranged: parentheses and commas are gone, every other item is there as often
as before, and numbers and names keep their order. -/
theorem order_rearranges (result : order [] items = .ok ordered) :
    (∀ item ∈ ordered, (Lexical.token item).isPunctuation = false) ∧
      ordered.Perm (items.filter fun item => !(Lexical.token item).isPunctuation) ∧
      (ordered.filter fun item => (Lexical.token item).isLeaf) =
        items.filter fun item => (Lexical.token item).isLeaf := by
  have run := run_of_order result
  refine ⟨fun item member => ?_, ?_, run.leaves_eq leaves_nil⟩
  · have made := run.makesValue_of_mem member
    simpa [makesValue] using made
  · exact run.perm (by simp [Waiting])

/-- `f(1, x) - 2`: a call, its comma and an operator that waits. -/
theorem order_rearranges_difference_of_call :
    order [] [Token.function ⟨"f", 2⟩, .openParen, .number 1, .comma, .var "x", .closeParen,
        .operator ⟨"-", 2, true, 500⟩, .number 2] =
      .ok [.number 1, .var "x", .function ⟨"f", 2⟩, .number 2, .operator ⟨"-", 2, true, 500⟩] ∧
    [Token.number 1, .var "x", .function ⟨"f", 2⟩, .number 2, .operator ⟨"-", 2, true, 500⟩].Perm
      [.function ⟨"f", 2⟩, .number 1, .var "x", .operator ⟨"-", 2, true, 500⟩, .number 2] := by
  have ordered : order [] [Token.function ⟨"f", 2⟩, .openParen, .number 1, .comma, .var "x",
      .closeParen, .operator ⟨"-", 2, true, 500⟩, .number 2] =
        .ok [.number 1, .var "x", .function ⟨"f", 2⟩, .number 2, .operator ⟨"-", 2, true, 500⟩] := rfl
  exact ⟨ordered, (order_rearranges ordered).2.1⟩

/-- With `depth` parentheses open, those of the tokens close what is open, and in the end all. -/
inductive Closes : (depth : Nat) → List Token → Prop
  | nil : Closes 0 []
  | opening {depth : Nat} {rest : List Token} (further : Closes (depth + 1) rest) :
      Closes depth (.openParen :: rest)
  | closing {depth : Nat} {rest : List Token} (further : Closes depth rest) :
      Closes (depth + 1) (.closeParen :: rest)
  | other {depth : Nat} {token : Token} {rest : List Token} (opens : token ≠ .openParen)
      (closes : token ≠ .closeParen) (further : Closes depth rest) : Closes depth (token :: rest)

theorem countP_isOpening_of_closed (closed : ∀ item ∈ held, isOpening item = false) :
    held.countP isOpening = 0 :=
  List.countP_eq_zero.mpr fun item member => by simp [closed item member]

theorem isOpening_eq {token : Token} (carried : Lexical.token item = token) :
    isOpening item = token.isOpenParen := by
  rw [isOpening, carried]

/-- What can be ordered has its parentheses closed. -/
theorem Run.closes (run : Run pending items ordered) :
    Closes (pending.countP isOpening) (items.map Lexical.token) := by
  induction run with
  | done closed =>
      rw [countP_isOpening_of_closed closed]
      exact .nil
  | leaf isLeaf onward ih =>
      rcases isLeaf with ⟨value, carried⟩ | ⟨name, carried⟩ <;> rw [List.map_cons, carried]
      · exact .other (by simp) (by simp) ih
      · exact .other (by simp) (by simp) ih
  | function calls onward ih =>
      rw [List.map_cons, calls]
      rw [List.countP_cons, isOpening_eq calls] at ih
      exact .other (by simp) (by simp) ih
  | opening opens onward ih =>
      rw [List.map_cons, opens]
      rw [List.countP_cons, isOpening_eq opens] at ih
      exact .opening ih
  | operator carried freed kept onward ih =>
      rw [List.map_cons, carried, List.countP_append, countP_isOpening_of_closed fun other member =>
        isOpening_eq_false_of_isReleasedBy (freed other member), Nat.zero_add]
      rw [List.countP_cons, isOpening_eq carried] at ih
      exact .other (by simp) (by simp) ih
  | comma separates closed opens calls onward ih =>
      rw [List.map_cons, separates, List.countP_append, countP_isOpening_of_closed closed,
        Nat.zero_add]
      exact .other (by simp) (by simp) ih
  | group closes closed opens quiet onward ih =>
      rw [List.map_cons, closes, List.countP_append, countP_isOpening_of_closed closed, Nat.zero_add,
        List.countP_cons, isOpening_eq opens]
      exact .closing ih
  | call closes closed opens calls onward ih =>
      rw [List.map_cons, closes, List.countP_append, countP_isOpening_of_closed closed, Nat.zero_add,
        List.countP_cons, List.countP_cons, isOpening_eq opens, isOpening_eq calls]
      exact .closing ih

end

/-- How many more values the tokens make than they take. -/
def surplus (tokens : List Token) : Int := (tokens.map fun token => 1 - (token.operands : Int)).sum

@[simp] theorem surplus_nil : surplus [] = 0 := rfl

@[simp] theorem surplus_cons (token : Token) (rest : List Token) :
    surplus (token :: rest) = 1 - (token.operands : Int) + surplus rest := rfl

theorem surplus_perm {tokens others : List Token} (perm : tokens.Perm others) :
    surplus tokens = surplus others :=
  (perm.map _).sum_eq

/-- Balanced tokens use up the values that were there and leave one. -/
theorem balanceFrom_surplus {count : Nat} {tokens : List Token}
    (balanced : balanceFrom count tokens = .ok ()) (ends : tokens ≠ [] ∨ count = 1) :
    count + surplus tokens = 1 := by
  induction tokens generalizing count with
  | nil =>
      have one : count = 1 := by simpa using ends
      simp [one]
  | cons token rest ih =>
      simp only [balanceFrom] at balanced
      split at balanced
      · contradiction
      case isFalse enough =>
        cases rest with
        | nil =>
            simp only [balanceFrom] at balanced
            split at balanced
            · contradiction
            case isFalse few =>
              simp only [surplus_cons, surplus_nil]
              omega
        | cons next others =>
            have later := ih balanced (.inl (by simp))
            simp only [surplus_cons] at later ⊢
            omega

theorem balance_surplus {tokens : List Token} (balanced : balance tokens = .ok ()) :
    surplus tokens = 1 := by
  simp only [balance] at balanced
  split at balanced
  · contradiction
  case isFalse nonempty =>
    have counted := balanceFrom_surplus balanced (.inl (by simpa using nonempty))
    simpa using counted

end Rpn

end Formula
