import Formula.Proofs.Token.Products
import Formula.Proofs.Rpn.Nesting

namespace Formula.Rpn

/-! The calls of a formula.

A formula that can be ordered is nested: what follows an open parenthesis divides at its partner, and
behind a function into arguments. The induction follows the run; what it keeps track of is, for every
parenthesis that is open, whether it is one of a call.
-/

open Phrase (commaSeparated)

/-- What follows a function: its arguments in parentheses. -/
def BeginsArguments (after : List Token) : Prop :=
  ∃ arguments rest, arguments ≠ [[]] ∧ (∀ argument ∈ arguments, Nested argument) ∧
    after = .openParen :: (commaSeparated arguments ++ .closeParen :: rest)

/-- Every function in the tokens is followed by its arguments. -/
def EachCalls (tokens : List Token) : Prop :=
  ∀ before function after, tokens = before ++ .function function :: after → BeginsArguments after

theorem EachCalls.cons {token : Token} {rest : List Token} (later : EachCalls rest)
    (here : token.isFunction = true → BeginsArguments rest) : EachCalls (token :: rest) := by
  intro before function after parted
  cases before with
  | nil =>
      obtain ⟨rfl, rfl⟩ := List.cons.inj parted
      exact here rfl
  | cons first others =>
      obtain ⟨rfl, same⟩ := List.cons.inj parted
      exact later others function after same

/-- The open parentheses among pending items, the innermost first: whether each is one of a call. -/
def openCalls : List Token → List Bool
  | [] => []
  | .openParen :: below => (!(called below).isEmpty) :: openCalls below
  | _ :: below => openCalls below

theorem openCalls_cons {item : Token} (closed : isOpening item = false) (pending : List Token) :
    openCalls (item :: pending) = openCalls pending := by
  cases item <;> first | rfl | contradiction

theorem openCalls_append {held : List Token} (closed : ∀ item ∈ held, isOpening item = false)
    (pending : List Token) : openCalls (held ++ pending) = openCalls pending := by
  induction held with
  | nil => rfl
  | cons first others ih =>
      rw [List.cons_append, openCalls_cons (closed first (by simp)),
        ih fun item member => closed item (by simp [member])]

theorem openCalls_opening_of_quiet {pending : List Token} (quiet : Quiet pending) :
    openCalls (.openParen :: pending) = false :: openCalls pending := by
  have noCall : called pending = [] := quiet
  simp [openCalls, noCall]

theorem openCalls_opening_function (function : FunctionSymbol) (pending : List Token) :
    openCalls (.openParen :: .function function :: pending) = true :: openCalls pending := rfl

/-- What remains of a formula with parentheses open, the innermost first; `true` stands for that of a
call. -/
inductive Remains : List Bool → List Token → Prop
  | last {tokens : List Token} (nested : Nested tokens) : Remains [] tokens
  | group {kinds : List Bool} {inner outer : List Token} (nested : Nested inner)
      (onward : Remains kinds outer) : Remains (false :: kinds) (inner ++ .closeParen :: outer)
  | call {kinds : List Bool} {arguments : List (List Token)} {outer : List Token}
      (apart : arguments ≠ [[]]) (each : ∀ argument ∈ arguments, Nested argument)
      (onward : Remains kinds outer) :
      Remains (true :: kinds) (commaSeparated arguments ++ .closeParen :: outer)

theorem exists_commaSeparated_cons (others : List (List Token)) :
    ∃ later, (∀ first, commaSeparated (first :: others) = first ++ later) ∧
      (others ≠ [] → later.head? = some .comma) := by
  cases others with
  | nil => exact ⟨[], fun first => by simp [commaSeparated], by simp⟩
  | cons next others =>
      exact ⟨.comma :: commaSeparated (next :: others), fun first => rfl, fun _ => rfl⟩

namespace Remains

variable {kinds : List Bool} {rest : List Token}

/-- A closed piece may stand before what remains. -/
theorem prepend {piece : List Token} (nonempty : piece ≠ [])
    (extended : ∀ rest, Nested rest → Nested (piece ++ rest)) (remains : Remains kinds rest) :
    Remains kinds (piece ++ rest) := by
  cases remains with
  | last nested => exact .last (extended _ nested)
  | group nested onward =>
      rw [← List.append_assoc]
      exact .group (extended _ nested) onward
  | @call kinds arguments outer apart each onward =>
      rw [← List.append_assoc]
      cases arguments with
      | nil =>
          have alone : Nested piece := by simpa using extended [] .nil
          have whole := @Remains.call kinds [piece] outer (by simpa using nonempty)
            (by simpa using alone) onward
          simpa [commaSeparated] using whole
      | cons first others =>
          obtain ⟨later, separated, _⟩ := exists_commaSeparated_cons others
          rw [separated, ← List.append_assoc, ← separated]
          refine .call (by simp [nonempty]) ?_ onward
          intro argument member
          rcases List.mem_cons.mp member with rfl | further
          · exact extended first (each first (by simp))
          · exact each argument (List.mem_cons_of_mem _ further)

theorem leaf {token : Token} (isLeaf : IsLeaf token) (remains : Remains kinds rest) :
    Remains kinds (token :: rest) :=
  @prepend kinds rest [token] (by simp) (fun _ nested => .leaf isLeaf nested) remains

theorem operator (operator : Operator) (remains : Remains kinds rest) :
    Remains kinds (.operator operator :: rest) :=
  @prepend kinds rest [.operator operator] (by simp) (fun _ nested => .operator nested) remains

theorem comma (remains : Remains (true :: kinds) rest) :
    Remains (true :: kinds) (.comma :: rest) := by
  cases remains with
  | @call kinds arguments outer apart each onward =>
      cases arguments with
      | nil => exact @Remains.call kinds [[], []] outer (by simp) (by simp [Nested.nil]) onward
      | cons first others =>
          exact @Remains.call kinds ([] :: first :: others) outer (by simp)
            (by simpa [Nested.nil] using each) onward

theorem closeGroup (remains : Remains kinds rest) : Remains (false :: kinds) (.closeParen :: rest) :=
  .group .nil remains

theorem closeCall (remains : Remains kinds rest) : Remains (true :: kinds) (.closeParen :: rest) :=
  @Remains.call kinds [] rest (by simp) (by simp) remains

theorem openGroup (remains : Remains (false :: kinds) rest) :
    Remains kinds (.openParen :: rest) := by
  cases remains with
  | @group kinds inner outer nested onward =>
      have whole := @prepend kinds outer (.openParen :: (inner ++ [.closeParen])) (by simp)
        (fun rest later => by simpa using Nested.group nested later) onward
      simpa using whole

theorem openCall (function : FunctionSymbol) (remains : Remains (true :: kinds) rest) :
    Remains kinds (.function function :: .openParen :: rest) := by
  cases remains with
  | @call kinds arguments outer apart each onward =>
      have whole := @prepend kinds outer
        (.function function :: .openParen :: (commaSeparated arguments ++ [.closeParen])) (by simp)
        (fun rest later => by simpa using Nested.call apart each later) onward
      simpa using whole

theorem beginsArguments_of_nested {function : FunctionSymbol}
    (nested : Nested (.function function :: rest)) (after : List Token) :
    BeginsArguments (rest ++ after) := by
  cases nested with
  | leaf isLeaf _ => rcases isLeaf with ⟨_, same⟩ | ⟨_, same⟩ <;> contradiction
  | @call function arguments rest apart each onward =>
      exact ⟨arguments, rest ++ after, apart, each, by simp⟩

/-- Where a function remains, so do its arguments. -/
theorem beginsArguments {function : FunctionSymbol}
    (remains : Remains kinds (.function function :: rest)) : BeginsArguments rest := by
  generalize same : Token.function function :: rest = tokens at remains
  cases remains with
  | last nested =>
      rw [← same] at nested
      simpa using beginsArguments_of_nested nested []
  | @group kinds inner outer nested onward =>
      cases inner with
      | nil => simp at same
      | cons first others =>
          obtain ⟨rfl, rfl⟩ := List.cons.inj same
          exact beginsArguments_of_nested nested (.closeParen :: outer)
  | @call kinds arguments outer apart each onward =>
      cases arguments with
      | nil => simp [commaSeparated] at same
      | cons argument others =>
          obtain ⟨later, separated, further⟩ := exists_commaSeparated_cons others
          rw [separated] at same
          cases argument with
          | nil =>
              -- An empty argument is never the only one, so a comma follows.
              have next := further (by simpa using apart)
              obtain ⟨rest, rfl⟩ := List.head?_eq_some_iff.mp next
              simp at same
          | cons first remaining =>
              rw [List.append_assoc] at same
              obtain ⟨rfl, rfl⟩ := List.cons.inj same
              have nested : Nested (.function function :: remaining) := each _ (by simp)
              exact beginsArguments_of_nested nested _

end Remains

/-- Functions among pending items have their parenthesis above them. -/
def Shielded (pending : List Token) : Prop :=
  pending.IsChain fun above below => below.isFunction = true → above = .openParen

theorem quiet_of_ne_openParen {pending rest : List Token} {item : Token}
    (opens : Quiet pending ∨ (item :: rest).head? = some .openParen) (other : item ≠ .openParen) :
    Quiet pending := by
  rcases opens with quiet | head
  · exact quiet
  · exact absurd (by simpa using head) other

theorem Shielded.cons {item : Token} {pending : List Token} (shielded : Shielded pending)
    (quiet : Quiet pending) : Shielded (item :: pending) := by
  refine List.isChain_cons.mpr ⟨fun below isTop isFunction => ?_, shielded⟩
  obtain ⟨others, rfl⟩ := List.head?_eq_some_iff.mp isTop
  have noCall : called (below :: others) = [] := quiet
  simp [called, isFunction] at noCall

theorem Shielded.right {held pending : List Token} (shielded : Shielded (held ++ pending)) :
    Shielded pending :=
  (List.isChain_append.mp shielded).2.1

theorem called_append_of_quiet {pending : List Token} (quiet : Quiet pending)
    (items : List Token) : called pending ++ items = items := by
  have noCall : called pending = [] := quiet
  rw [noCall, List.nil_append]

theorem Shielded.quiet_of_cons {item : Token} {pending : List Token}
    (shielded : Shielded (item :: pending)) (closed : isOpening item = false) : Quiet pending := by
  rcases quiet_or_called pending with quiet | ⟨function, below, definition, rfl, calls⟩
  · exact quiet
  · obtain rfl : function = .function definition := calls
    obtain rfl : item = .openParen := (List.isChain_cons_cons.mp shielded).1 rfl
    contradiction

theorem Shielded.quiet_of_append {held pending : List Token} (shielded : Shielded (held ++ pending))
    (closed : ∀ item ∈ held, isOpening item = false) (quiet : Quiet (held ++ pending)) :
    Quiet pending := by
  induction held with
  | nil => exact quiet
  | cons first others ih =>
      have below := shielded.quiet_of_cons (closed first (by simp))
      exact ih shielded.tail (fun item member => closed item (by simp [member])) below

/-- What a run goes through is nested around the parentheses that are open. -/
theorem Run.remains {pending items ordered : List Token} (run : Run pending items ordered)
    (shielded : Shielded pending) (next : Quiet pending ∨ items.head? = some .openParen)
    {before : Option Token} (placed : Placed before items) :
    Remains (openCalls pending) (called pending ++ items) ∧ EachCalls items := by
  -- A function that waits for its parenthesis is counted with what remains, so that the two meet.
  induction run generalizing before with
  | @done pending closed =>
      have quiet : Quiet pending := by simpa using next
      have outermost := openCalls_append closed []
      rw [List.append_nil] at outermost
      rw [outermost, called_append_of_quiet quiet]
      exact ⟨.last .nil, fun before function after parted => by simp at parted⟩
  | @leaf pending rest ordered item isLeaf onward ih =>
      have other : item ≠ .openParen := by
        rcases isLeaf with ⟨value, carried⟩ | ⟨name, carried⟩ <;> rintro rfl <;> contradiction
      have quiet := quiet_of_ne_openParen next other
      obtain ⟨remains, each⟩ := ih shielded (.inl quiet) placed.tail
      rw [called_append_of_quiet quiet] at remains ⊢
      refine ⟨remains.leaf isLeaf, each.cons fun isFunction => ?_⟩
      rcases isLeaf with ⟨value, carried⟩ | ⟨name, carried⟩ <;> cases carried <;> contradiction
  | @function pending rest ordered item definition calls onward ih =>
      obtain rfl : item = .function definition := calls
      have quiet := quiet_of_ne_openParen next (by simp)
      obtain ⟨remains, each⟩ := ih (shielded.cons quiet) (.inr (placed.head_cons.2 rfl)) placed.tail
      rw [openCalls_cons rfl, called_cons pending rfl, List.singleton_append] at remains
      rw [called_append_of_quiet quiet]
      exact ⟨remains, each.cons fun _ => remains.beginsArguments⟩
  | @opening pending rest ordered item opens onward ih =>
      obtain rfl : item = .openParen := opens
      have above : Shielded (.openParen :: pending) :=
        List.isChain_cons.mpr ⟨fun _ _ _ => rfl, shielded⟩
      obtain ⟨remains, each⟩ := ih above (.inl (quiet_cons pending rfl)) placed.tail
      rw [called_append_of_quiet (quiet_cons pending rfl)] at remains
      refine ⟨?_, each.cons fun isFunction => by contradiction⟩
      rcases quiet_or_called pending with quiet | ⟨function, below, definition, rfl, calls⟩
      · rw [openCalls_opening_of_quiet quiet] at remains
        rw [called_append_of_quiet quiet]
        exact remains.openGroup
      · obtain rfl : function = .function definition := calls
        rw [openCalls_opening_function] at remains
        rw [called_cons below rfl, openCalls_cons rfl]
        exact remains.openCall definition
  | @operator released pending rest ordered item entering carried freed kept onward ih =>
      obtain rfl : item = .operator entering := carried
      have quiet := quiet_of_ne_openParen next (by simp)
      have closed : ∀ item ∈ released, isOpening item = false :=
        fun item member => isOpening_eq_false_of_isReleasedBy (freed item member)
      have below := shielded.quiet_of_append closed quiet
      obtain ⟨remains, each⟩ := ih (shielded.right.cons below) (.inl (quiet_cons pending rfl))
        placed.tail
      rw [called_append_of_quiet (quiet_cons pending rfl), openCalls_cons rfl] at remains
      rw [called_append_of_quiet quiet, openCalls_append closed]
      exact ⟨remains.operator entering, each.cons fun isFunction => by contradiction⟩
  | @comma held pending rest ordered item opening function definition separates closed opens calls
      onward ih =>
      obtain rfl : item = .comma := separates
      obtain rfl : opening = .openParen := opens
      obtain rfl : function = .function definition := calls
      have quiet := quiet_of_ne_openParen next (by simp)
      obtain ⟨remains, each⟩ := ih shielded.right (.inl (quiet_cons _ rfl)) placed.tail
      rw [called_append_of_quiet (quiet_cons _ rfl), openCalls_opening_function] at remains
      rw [called_append_of_quiet quiet, openCalls_append closed, openCalls_opening_function]
      exact ⟨remains.comma, each.cons fun isFunction => by contradiction⟩
  | @group held pending rest ordered item opening closes closed opens below onward ih =>
      obtain rfl : item = .closeParen := closes
      obtain rfl : opening = .openParen := opens
      have quiet := quiet_of_ne_openParen next (by simp)
      obtain ⟨remains, each⟩ := ih shielded.right.tail (.inl below) placed.tail
      rw [called_append_of_quiet below] at remains
      rw [called_append_of_quiet quiet, openCalls_append closed, openCalls_opening_of_quiet below]
      exact ⟨remains.closeGroup, each.cons fun isFunction => by contradiction⟩
  | @call held pending rest ordered item opening function definition closes closed opens calls
      onward ih =>
      obtain rfl : item = .closeParen := closes
      obtain rfl : opening = .openParen := opens
      obtain rfl : function = .function definition := calls
      have quiet := quiet_of_ne_openParen next (by simp)
      have below : Quiet pending := Shielded.quiet_of_cons shielded.right.tail rfl
      obtain ⟨remains, each⟩ := ih shielded.right.tail.tail (.inl below) placed.tail
      rw [called_append_of_quiet below] at remains
      rw [called_append_of_quiet quiet, openCalls_append closed, openCalls_opening_function]
      exact ⟨remains.closeCall, each.cons fun isFunction => by contradiction⟩

/-- What can be ordered is nested, and every function in it is followed by its arguments. -/
theorem nested_of_order {tokens ordered : List Token} (placed : Placed none tokens)
    (result : order [] tokens = .ok ordered) : Nested tokens ∧ EachCalls tokens := by
  obtain ⟨remains, each⟩ := (run_of_order result).remains .nil (.inl quiet_nil) placed
  cases remains with
  | last nested => exact ⟨nested, each⟩

end Formula.Rpn
