import Formula.Proofs.List.TakeWhile
import Formula.Rpn.Ordering

namespace Formula.Rpn

/-! What reading a part of a formula does to the pending items, whatever follows it.

A part is described by the items that it releases and those that it leaves pending. Descriptions
compose, so a longer part is described from its pieces without looking at the whole run again.
-/

variable {τ : Type} [Lexical τ] {pending text released held : List τ} {item : τ}

/-- Reading `text` above `pending` gives out `released` and puts `held` on top of them. -/
def Reads (pending text released held : List τ) : Prop :=
  ∀ rest, order pending (text ++ rest) = (order (held ++ pending) rest).map (released ++ ·)

def IsLeaf (item : τ) : Prop :=
  (∃ value, Lexical.token item = .number value) ∨ ∃ name, Lexical.token item = .var name

def IsOperator (property : Operator → Prop) (item : τ) : Prop :=
  ∃ operator, Lexical.token item = .operator operator ∧ property operator

theorem IsOperator.mono {property weaker : Operator → Prop}
    (implies : ∀ operator, property operator → weaker operator)
    (isOperator : IsOperator property item) : IsOperator weaker item := by
  obtain ⟨operator, carried, holds⟩ := isOperator
  exact ⟨operator, carried, implies operator holds⟩

theorem IsOperator.isOpening_eq_false {property : Operator → Prop}
    (isOperator : IsOperator property item) : isOpening item = false := by
  obtain ⟨operator, carried, _⟩ := isOperator
  simp [isOpening, carried, Token.isOpenParen]

theorem IsOperator.isReleasedBy {entering : Operator}
    (isOperator : IsOperator (entering.releases · = true) item) :
    isReleasedBy entering item = true := by
  obtain ⟨operator, carried, released⟩ := isOperator
  simpa only [Rpn.isReleasedBy, carried] using released

/-- The operator does not release the item on top of the pending ones. -/
def Keeps (entering : Operator) (pending : List τ) : Prop :=
  ∀ top ∈ pending.head?, isReleasedBy entering top = false

theorem keeps_of_not_releases {entering top : Operator} (carried : Lexical.token item = .operator top)
    (stays : entering.releases top = false) (pending : List τ) : Keeps entering (item :: pending) := by
  intro other isTop
  obtain rfl : item = other := by simpa using isTop
  simpa only [isReleasedBy, carried] using stays

theorem isOpening_eq_true (opens : Lexical.token item = .openParen) : isOpening item = true := by
  simp [isOpening, opens, Token.isOpenParen]

theorem inside_append_opening {opening : τ} (below : List τ)
    (opens : Lexical.token opening = .openParen)
    (closed : ∀ item ∈ held, isOpening item = false) :
    inside (held ++ opening :: below) = held ∧
      fromOpening (held ++ opening :: below) = opening :: below := by
  refine takeWhile_append_of_head (fun item member => by simp [closed item member]) ?_
  intro next isNext
  obtain rfl : opening = next := by simpa using isNext
  simp [isOpening_eq_true opens]

/-- A parenthesis that opens above the pending items groups and calls nothing. -/
def Quiet (pending : List τ) : Prop := called pending = []

theorem quiet_nil : Quiet ([] : List τ) := rfl

theorem quiet_cons (below : List τ) (notFunction : (Lexical.token item).isFunction = false) :
    Quiet (item :: below) := by
  simp [Quiet, called, notFunction]

theorem called_cons {definition : FunctionSymbol} (below : List τ)
    (calls : Lexical.token item = .function definition) : called (item :: below) = [item] := by
  simp [called, calls, Token.isFunction]

namespace Reads

theorem nil (pending : List τ) : Reads pending [] [] [] := by
  intro rest
  cases outcome : order pending rest <;> simp [Except.map, outcome]

theorem append {later given left : List τ} (first : Reads pending text released held)
    (second : Reads (held ++ pending) later given left) :
    Reads pending (text ++ later) (released ++ given) (left ++ held) := by
  intro rest
  rw [List.append_assoc, first (later ++ rest), second rest, List.append_assoc]
  cases outcome : order (left ++ (held ++ pending)) rest <;> simp [Except.map]

theorem leaf (isLeaf : IsLeaf item) : Reads pending [item] [item] [] := by
  intro rest
  rcases isLeaf with ⟨value, carried⟩ | ⟨name, carried⟩ <;>
    simp only [List.cons_append, List.nil_append, order, carried]

/-- An operator releases what was held for it and then waits itself. -/
theorem operator {entering : Operator} (carried : Lexical.token item = .operator entering)
    (before : Reads pending text released held)
    (freed : ∀ item ∈ held, isReleasedBy entering item = true) (kept : Keeps entering pending) :
    Reads pending (text ++ [item]) (released ++ held) [item] := by
  obtain ⟨taken, dropped⟩ := takeWhile_append_of_head freed kept
  intro rest
  rw [List.append_assoc, before ([item] ++ rest)]
  simp only [List.cons_append, List.nil_append, order, carried, taken, dropped]
  cases outcome : order (item :: pending) rest <;> simp [Except.map]

theorem group {opening closing : τ} (opens : Lexical.token opening = .openParen)
    (closes : Lexical.token closing = .closeParen)
    (inner : Reads (opening :: pending) text released held)
    (closed : ∀ item ∈ held, isOpening item = false) (quiet : Quiet pending) :
    Reads pending (opening :: text ++ [closing]) (released ++ held) [] := by
  obtain ⟨taken, dropped⟩ := inside_append_opening pending opens closed
  intro rest
  have start : order pending (opening :: text ++ [closing] ++ rest) =
      order (opening :: pending) (text ++ (closing :: rest)) := by
    simp only [List.cons_append, List.append_assoc, List.nil_append, order, opens]
  have notCalled : called pending = [] := quiet
  rw [start, inner (closing :: rest)]
  simp only [order, closes, taken, dropped, notCalled, List.length_nil, List.drop_zero,
    List.append_nil, List.nil_append]
  cases outcome : order pending rest <;> simp [Except.map]

theorem comma {opening function separator : τ} {definition : FunctionSymbol}
    (opens : Lexical.token opening = .openParen)
    (calls : Lexical.token function = .function definition)
    (separates : Lexical.token separator = .comma)
    (argument : Reads (opening :: function :: pending) text released held)
    (closed : ∀ item ∈ held, isOpening item = false) :
    Reads (opening :: function :: pending) (text ++ [separator]) (released ++ held) [] := by
  obtain ⟨taken, dropped⟩ := inside_append_opening (function :: pending) opens closed
  intro rest
  rw [List.append_assoc, argument ([separator] ++ rest)]
  simp only [List.cons_append, List.nil_append, order, separates, taken, dropped,
    List.drop_succ_cons, List.drop_zero, called_cons pending calls, List.isEmpty_cons,
    Bool.false_eq_true, ↓reduceIte]
  cases outcome : order (opening :: function :: pending) rest <;> simp [Except.map]

theorem call {opening closing function : τ} {definition : FunctionSymbol}
    (opens : Lexical.token opening = .openParen) (closes : Lexical.token closing = .closeParen)
    (calls : Lexical.token function = .function definition)
    (arguments : Reads (opening :: function :: pending) text released held)
    (closed : ∀ item ∈ held, isOpening item = false) :
    Reads pending (function :: opening :: text ++ [closing]) (released ++ held ++ [function]) [] := by
  obtain ⟨taken, dropped⟩ := inside_append_opening (function :: pending) opens closed
  intro rest
  have start : order pending (function :: opening :: text ++ [closing] ++ rest) =
      order (opening :: function :: pending) (text ++ (closing :: rest)) := by
    simp only [List.cons_append, List.append_assoc, List.nil_append, order, opens, calls]
  rw [start, arguments (closing :: rest)]
  simp only [order, closes, taken, dropped, called_cons pending calls, List.length_cons,
    List.length_nil, List.drop_succ_cons, List.drop_zero, List.nil_append]
  cases outcome : order pending rest <;> simp [Except.map]

/-- At the end everything held is given out. -/
theorem order_eq_ok (whole : Reads [] text released held)
    (closed : ∀ item ∈ held, isOpening item = false) :
    order [] text = .ok (released ++ held) := by
  have ended := whole []
  have noneOpen : held.any isOpening = false := by
    simpa using closed
  simpa [order, noneOpen, Except.map] using ended

end Reads

end Formula.Rpn
