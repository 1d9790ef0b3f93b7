import Formula.Proofs.Rpn.Conservation
import Formula.Proofs.Rpn.Written

namespace Formula.Rpn

/-! Formulas with closed parentheses, read above any pending items.

A part leads from one list of pending items to another, whatever follows it. Between a parenthesis
and its partner, what is pending below is out of reach, so the text there is ordered in the same way
as by itself; and so are the arguments of a call.
-/

open Phrase (commaSeparated)

section

variable {τ : Type} [Lexical τ] {pending waiting text given : List τ} {item : τ}

/-- Reading `text` with these items pending gives out `given` and leaves `waiting` pending. `Reads` is
the case in which all that was pending stays below. -/
def Leads (pending text given waiting : List τ) : Prop :=
  ∀ rest, order pending (text ++ rest) = (order waiting rest).map (given ++ ·)

namespace Leads

theorem nil (pending : List τ) : Leads pending [] [] pending := Reads.nil pending

theorem trans {later further last : List τ} (first : Leads pending text given waiting)
    (second : Leads waiting later further last) :
    Leads pending (text ++ later) (given ++ further) last := by
  intro rest
  rw [List.append_assoc, first (later ++ rest), second rest]
  cases outcome : order last rest <;> simp [Except.map]

theorem leaf (isLeaf : IsLeaf item) : Leads pending [item] [item] pending := Reads.leaf isLeaf

theorem function {definition : FunctionSymbol} (calls : Lexical.token item = .function definition) :
    Leads pending [item] [] (item :: pending) := by
  intro rest
  simp only [List.cons_append, List.nil_append, order, calls]
  cases outcome : order (item :: pending) rest <;> simp [Except.map]

theorem opening (opens : Lexical.token item = .openParen) :
    Leads pending [item] [] (item :: pending) := by
  intro rest
  simp only [List.cons_append, List.nil_append, order, opens]
  cases outcome : order (item :: pending) rest <;> simp [Except.map]

theorem operator {entering : Operator} (carried : Lexical.token item = .operator entering) :
    Leads pending [item] (pending.takeWhile (isReleasedBy entering))
      (item :: pending.dropWhile (isReleasedBy entering)) := by
  intro rest
  simp only [List.cons_append, List.nil_append, order, carried]

/-- What is kept below is out of the operator's reach. -/
theorem operator_append {entering : Operator} {above base : List τ}
    (carried : Lexical.token item = .operator entering)
    (kept : Keeps entering (above.dropWhile (isReleasedBy entering) ++ base)) :
    Leads (above ++ base) [item] (above.takeWhile (isReleasedBy entering))
      (item :: above.dropWhile (isReleasedBy entering) ++ base) := by
  have freed : ∀ item ∈ above.takeWhile (isReleasedBy entering), isReleasedBy entering item = true :=
    List.all_eq_true.mp List.all_takeWhile
  obtain ⟨taken, dropped⟩ := takeWhile_append_of_head freed kept
  rw [← List.append_assoc, List.takeWhile_append_dropWhile] at taken dropped
  have step := @operator τ _ (above ++ base) item entering carried
  rwa [taken, dropped] at step

theorem comma (separates : Lexical.token item = .comma)
    (inCall : (called ((fromOpening pending).drop 1)).isEmpty = false) :
    Leads pending [item] (inside pending) (fromOpening pending) := by
  intro rest
  simp only [List.cons_append, List.nil_append, order, separates, inCall, Bool.false_eq_true,
    ↓reduceIte]

theorem closing {opening : τ} {around : List τ} (closes : Lexical.token item = .closeParen)
    (opened : fromOpening pending = opening :: around) :
    Leads pending [item] (inside pending ++ called around) (around.drop (called around).length) := by
  intro rest
  simp only [List.cons_append, List.nil_append, order, closes, opened]

theorem exists_of_map_eq_ok {rest ordered : List τ}
    (mapped : (order waiting rest).map (given ++ ·) = .ok ordered) :
    ∃ later, order waiting rest = .ok later ∧ ordered = given ++ later := by
  cases outcome : order waiting rest with
  | error reason => simp [outcome, Except.map] at mapped
  | ok later =>
      simp only [outcome, Except.map, Except.ok.injEq] at mapped
      exact ⟨later, rfl, mapped.symm⟩

theorem exists_of_order {rest ordered : List τ} (leads : Leads pending text given waiting)
    (result : order pending (text ++ rest) = .ok ordered) :
    ∃ later, order waiting rest = .ok later ∧ ordered = given ++ later := by
  rw [leads rest] at result
  exact exists_of_map_eq_ok result

end Leads

/-- What a step gives out and leaves pending was pending before, or is the item that is read. -/
theorem exists_leads_of_cons {rest ordered : List τ}
    (result : order pending (item :: rest) = .ok ordered) :
    ∃ given waiting, Leads pending [item] given waiting ∧ given ++ waiting ⊆ item :: pending := by
  cases carried : Lexical.token item with
  | number value => exact ⟨_, _, .leaf (.inl ⟨value, carried⟩), List.Subset.refl _⟩
  | var name => exact ⟨_, _, .leaf (.inr ⟨name, carried⟩), List.Subset.refl _⟩
  | function definition => exact ⟨_, _, .function carried, List.Subset.refl _⟩
  | openParen => exact ⟨_, _, .opening carried, List.Subset.refl _⟩
  | operator entering =>
      refine ⟨_, _, .operator carried, fun other member => ?_⟩
      have parts := @List.takeWhile_append_dropWhile τ (isReleasedBy entering) pending
      rw [List.mem_cons, ← parts, List.mem_append]
      simpa [or_left_comm] using member
  | comma =>
      simp only [order, carried] at result
      split at result
      · contradiction
      case isFalse inCall =>
        refine ⟨_, _, .comma carried (Bool.eq_false_iff.mpr inCall), ?_⟩
        rw [inside_append_fromOpening]
        exact List.subset_cons_self item pending
  | closeParen =>
      simp only [order, carried] at result
      split at result
      · contradiction
      case h_2 opening around opened =>
        refine ⟨_, _, .closing carried opened, fun other member => List.mem_cons_of_mem item ?_⟩
        rw [← inside_append_fromOpening pending, opened, List.mem_append, List.mem_cons]
        rw [List.append_assoc, List.mem_append, List.mem_append] at member
        refine member.imp_right fun outside => .inr ?_
        rcases outside with isCalled | below
        · exact List.mem_of_mem_take (List.mem_of_mem_filter isCalled)
        · exact List.mem_of_mem_drop below

/-- The beginning of what is ordered leads to the rest of it. -/
theorem exists_leads_of_append {rest ordered : List τ}
    (result : order pending (text ++ rest) = .ok ordered) :
    ∃ given waiting later, Leads pending text given waiting ∧ order waiting rest = .ok later ∧
      ordered = given ++ later ∧ given ++ waiting ⊆ pending ++ text := by
  induction text generalizing pending ordered with
  | nil => exact ⟨[], pending, ordered, .nil pending, result, rfl, by simp⟩
  | cons item others ih =>
      obtain ⟨given, waiting, step, first⟩ := exists_leads_of_cons result
      obtain ⟨between, onward, rfl⟩ := step.exists_of_order result
      obtain ⟨further, last, later, leads, outcome, rfl, second⟩ := ih onward
      refine ⟨given ++ further, last, later, step.trans leads, outcome,
        (List.append_assoc ..).symm, fun other member => ?_⟩
      have origin : other ∈ given ∨ other ∈ waiting ∨ other ∈ others := by
        rw [List.append_assoc, List.mem_append] at member
        exact member.imp_right fun further => List.mem_append.mp (second further)
      have earlier := @first other
      simp only [List.mem_append, List.mem_cons] at earlier ⊢
      tauto

end

/-- Tokens with closed parentheses, in which commas separate the arguments of calls. -/
inductive Nested : List Token → Prop
  | nil : Nested []
  | leaf {token : Token} {rest : List Token} (isLeaf : IsLeaf token) (onward : Nested rest) :
      Nested (token :: rest)
  | operator {operator : Operator} {rest : List Token} (onward : Nested rest) :
      Nested (.operator operator :: rest)
  | group {inner rest : List Token} (nested : Nested inner) (onward : Nested rest) :
      Nested (.openParen :: (inner ++ .closeParen :: rest))
  | call {function : FunctionSymbol} {arguments : List (List Token)} {rest : List Token}
      (apart : arguments ≠ [[]]) (each : ∀ argument ∈ arguments, Nested argument)
      (onward : Nested rest) :
      Nested (.function function :: .openParen :: (commaSeparated arguments ++ .closeParen :: rest))

def Operators (held : List Token) : Prop := ∀ item ∈ held, IsOperator (fun _ => True) item

theorem Operators.closed {held : List Token} (operators : Operators held) :
    ∀ item ∈ held, isOpening item = false :=
  fun item member => (operators item member).isOpening_eq_false

/-- Pending items that no operator reaches: at the start, or below an open parenthesis. -/
inductive Grounded : List Token → Prop
  | nil : Grounded []
  | opening (below : List Token) : Grounded (.openParen :: below)

theorem Grounded.keeps {pending : List Token} (grounded : Grounded pending) (entering : Operator) :
    Keeps entering pending := by
  cases grounded with
  | nil => exact fun _ isTop => by simp at isTop
  | opening below => exact Phrase.keeps_cons_openParen entering below

theorem quiet_of_operators {held base : List Token} (operators : Operators held)
    (grounded : Grounded base) : Quiet (held ++ base) := by
  cases held with
  | nil =>
      cases grounded with
      | nil => exact quiet_nil
      | opening below => exact quiet_cons below rfl
  | cons first others =>
      obtain ⟨operator, carried, _⟩ := operators first (by simp)
      exact quiet_cons _ (by rw [carried]; rfl)

/-- Reading `text` above `held` gives out `given` and leaves `left`, at the start of a formula and
behind every opening parenthesis. -/
def Turns (held text given left : List Token) : Prop :=
  ∀ base, Grounded base → Leads (held ++ base) text given (left ++ base)

/-- By itself, and behind every opening parenthesis, the text is ordered into the word. -/
def OrdersInto (text word : List Token) : Prop :=
  ∃ given left, Turns [] text given left ∧ Operators left ∧ given ++ left = word

theorem OrdersInto.order_eq {text word : List Token} (orders : OrdersInto text word) :
    order [] text = .ok word := by
  obtain ⟨given, left, turns, operators, rfl⟩ := orders
  have reads : Reads [] text given left := turns [] .nil
  exact reads.order_eq_ok operators.closed

theorem reads_commaSeparated {arguments words : List (List Token)}
    (each : List.Forall₂ OrdersInto arguments words) (function : FunctionSymbol)
    (pending : List Token) :
    ∃ released held,
      Reads (.openParen :: .function function :: pending) (commaSeparated arguments) released held ∧
      released ++ held = words.flatten ∧ Operators held := by
  induction each with
  | nil => exact ⟨[], [], Reads.nil _, rfl, by simp [Operators]⟩
  | @cons argument word others rest first later ih =>
      obtain ⟨given, left, turns, operators, rfl⟩ := first
      have reads : Reads (.openParen :: .function function :: pending) argument given left :=
        turns _ (.opening _)
      cases later with
      | nil => exact ⟨given, left, reads, by simp, operators⟩
      | cons next others =>
          obtain ⟨released, held, onward, whole, alsoOperators⟩ := ih
          have both :=
            (Reads.comma rfl rfl (.refl Token.comma) reads operators.closed).append onward
          rw [List.append_assoc, List.singleton_append] at both
          refine ⟨_, _, both, ?_, by simpa using alsoOperators⟩
          simp [whole]

/-- A call is ordered, above whatever is pending, into its arguments and the function. -/
theorem reads_call {arguments words : List (List Token)}
    (each : List.Forall₂ OrdersInto arguments words) (function : FunctionSymbol)
    (pending : List Token) :
    Reads pending (.function function :: .openParen :: commaSeparated arguments ++ [.closeParen])
      (words.flatten ++ [.function function]) [] := by
  obtain ⟨released, held, reads, whole, operators⟩ := reads_commaSeparated each function pending
  have call := @Reads.call Token _ pending _ _ _ .openParen .closeParen (.function function)
    function rfl rfl rfl reads operators.closed
  rwa [whole] at call

namespace Turns

variable {held text given left : List Token}

theorem trans {later further last : List Token} (first : Turns held text given left)
    (second : Turns left later further last) : Turns held (text ++ later) (given ++ further) last :=
  fun base grounded => (first base grounded).trans (second base grounded)

theorem operator (held : List Token) (operator : Operator) :
    Turns held [.operator operator] (held.takeWhile (isReleasedBy operator))
      (.operator operator :: held.dropWhile (isReleasedBy operator)) := by
  intro base grounded
  exact .operator_append rfl (keeps_dropWhile_append fun _ => grounded.keeps operator)

end Turns

theorem Operators.afterOperator {held : List Token} (operators : Operators held)
    (operator : Operator) :
    Operators (.operator operator :: held.dropWhile (isReleasedBy operator)) := by
  intro item member
  rcases List.mem_cons.mp member with rfl | remaining
  · exact ⟨operator, rfl, trivial⟩
  · exact operators item ((List.dropWhile_sublist _).mem remaining)

theorem exists_words {α β : Type} {relation : α → β → Prop} {arguments : List α}
    (each : ∀ argument ∈ arguments, ∃ word, relation argument word) :
    ∃ words, List.Forall₂ relation arguments words := by
  induction arguments with
  | nil => exact ⟨[], .nil⟩
  | cons argument others ih =>
      obtain ⟨word, first⟩ := each argument (by simp)
      obtain ⟨words, later⟩ := ih fun other member => each other (by simp [member])
      exact ⟨word :: words, .cons first later⟩

theorem Nested.exists_turns {text held : List Token} (nested : Nested text)
    (operators : Operators held) : ∃ given left, Turns held text given left ∧ Operators left := by
  induction nested generalizing held with
  | nil => exact ⟨[], held, fun base _ => .nil _, operators⟩
  | leaf isLeaf onward ih =>
      obtain ⟨given, left, turns, remaining⟩ := ih operators
      exact ⟨_, left, Turns.trans (fun base _ => .leaf isLeaf) turns, remaining⟩
  | @operator operator rest onward ih =>
      obtain ⟨given, left, turns, remaining⟩ := ih (operators.afterOperator operator)
      exact ⟨_, left, (Turns.operator held operator).trans turns, remaining⟩
  | @group inner rest nested onward innerIH ih =>
      obtain ⟨innerGiven, innerLeft, innerTurns, closed⟩ := @innerIH [] (by simp [Operators])
      obtain ⟨given, left, turns, remaining⟩ := ih operators
      have group : Turns held (.openParen :: inner ++ [.closeParen]) (innerGiven ++ innerLeft) held := by
        intro base grounded
        exact Reads.group rfl rfl (innerTurns _ (.opening _)) closed.closed
          (quiet_of_operators operators grounded)
      have whole := group.trans turns
      rw [List.append_assoc, List.singleton_append] at whole
      exact ⟨_, left, whole, remaining⟩
  | @call function arguments rest apart each onward eachIH ih =>
      have orders : ∀ argument ∈ arguments, ∃ word, OrdersInto argument word := by
        intro argument member
        obtain ⟨given, left, turns, closed⟩ := @eachIH argument member [] (by simp [Operators])
        exact ⟨_, given, left, turns, closed, rfl⟩
      obtain ⟨words, argumentWords⟩ := exists_words orders
      obtain ⟨given, left, turns, remaining⟩ := ih operators
      have call : Turns held
          (.function function :: .openParen :: commaSeparated arguments ++ [.closeParen])
          (words.flatten ++ [.function function]) held :=
        fun base _ => reads_call argumentWords function (held ++ base)
      have whole := call.trans turns
      rw [List.append_assoc, List.singleton_append] at whole
      exact ⟨_, left, whole, remaining⟩

/-- Nested tokens are always ordered, and in the same way behind every opening parenthesis. -/
theorem Nested.exists_ordersInto {text : List Token} (nested : Nested text) :
    ∃ word, OrdersInto text word := by
  obtain ⟨given, left, turns, operators⟩ := @nested.exists_turns text [] (by simp [Operators])
  exact ⟨_, given, left, turns, operators, rfl⟩

end Formula.Rpn
