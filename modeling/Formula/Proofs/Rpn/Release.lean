import Formula.Proofs.Rpn.Account

namespace Formula

/-! How long an operator waits.

As long as an operator is pending, what is read stays above it and never looks below it. So the items
that are read until it is released are ordered as they would be by themselves, and their word stands
directly before the operator. What releases it is the end of its place, or an operator that enters;
a prefix operator that enters does so only if nothing but prefix operators has been read in between.
-/

/-- The operators that stand at the beginning, before anything else. -/
def leadingOperators : List Token → List Operator
  | .operator operator :: rest => operator :: leadingOperators rest
  | _ => []

namespace Operator

theorem releases_of_isPrefix {entering pending : Operator} (enters : entering.isPrefix = true)
    (waits : pending.isUnary = true) :
    entering.releases pending = decide (entering.precedence < pending.precedence) := by
  simp only [isPrefix, Bool.and_eq_true, Bool.not_eq_true'] at enters
  simp [releases, waits, enters.2]

theorem releases_of_isUnary {entering pending : Operator} (enters : entering.isUnary = true)
    (waits : pending.isUnary = false) : entering.releases pending = false := by
  simp [releases, enters, waits]

theorem isUnary_of_isPrefix {operator : Operator} (stands : operator.isPrefix = true) :
    operator.isUnary = true :=
  (Bool.and_eq_true_iff.mp stands).1

end Operator

namespace Rpn

section

variable {τ : Type} [Lexical τ] {above base items rest ordered : List τ} {item anchor : τ}
variable {operator entering : Operator} {before : Option Token}

/-- No unary operator releases the item, or anything below it. -/
def IsBarrier (item : τ) : Prop :=
  ∀ entering : Operator, entering.isUnary = true → isReleasedBy entering item = false

theorem isBarrier_of_not_operator
    (other : ∀ operator, Lexical.token item ≠ .operator operator) : IsBarrier item := by
  intro entering _
  unfold isReleasedBy
  split
  case h_1 pending carried => exact absurd carried (other pending)
  case h_2 => rfl

theorem isBarrier_of_not_isUnary (carried : Lexical.token item = .operator operator)
    (takesMore : operator.isUnary = false) : IsBarrier item := by
  intro entering enters
  simp only [isReleasedBy, carried]
  exact Operator.releases_of_isUnary enters takesMore

theorem IsBarrier.mem_dropWhile {barrier : τ} (blocks : IsBarrier barrier)
    (enters : entering.isUnary = true) (member : barrier ∈ above) :
    barrier ∈ above.dropWhile (isReleasedBy entering) := by
  rw [← @List.takeWhile_append_dropWhile τ (isReleasedBy entering) above, List.mem_append] at member
  refine member.resolve_left fun released => ?_
  have freed := List.all_eq_true.mp List.all_takeWhile barrier released
  rw [blocks entering enters] at freed
  contradiction

/-- Reading the item gives out a pending operator and what is above it. -/
def Frees (operator : Operator) (above : List τ) (item : τ) : Prop :=
  (Lexical.token item).endsPlace = true ∨
    ∃ entering, Lexical.token item = .operator entering ∧
      (∀ other ∈ above, isReleasedBy entering other = true) ∧ entering.releases operator = true

theorem order_nil_of_closed (closed : ∀ item ∈ above, isOpening item = false) :
    order above [] = .ok above := by
  have noneOpen : above.any isOpening = false := by simpa using closed
  simp [order, noneOpen]

theorem closed_of_order_nil (result : order above [] = .ok ordered) :
    (∀ item ∈ above, isOpening item = false) ∧ ordered = above := by
  simp only [order] at result
  split at result
  · contradiction
  case isFalse noneOpen => exact ⟨by simpa using noneOpen, (Except.ok.inj result).symm⟩

theorem isOpening_eq_false_of_operator (carried : Lexical.token item = .operator operator) :
    isOpening item = false := by
  simp [isOpening, carried, Token.isOpenParen]

theorem inside_append_of_closed (closed : ∀ item ∈ above, isOpening item = false)
    (below : List τ) : inside (above ++ below) = above ++ inside below := by
  simp only [inside]
  rw [List.takeWhile_append_of_pos]
  exact fun item member => by simp [closed item member]

theorem inside_cons_of_operator (carried : Lexical.token item = .operator operator)
    (below : List τ) : inside (item :: below) = item :: inside below := by
  simp [inside, isOpening_eq_false_of_operator carried]

/-- An item that frees an operator gives out what is above it and then the operator; so does the end. -/
theorem exists_eq_of_frees (carried : Lexical.token anchor = .operator operator)
    (closed : ∀ item ∈ above, isOpening item = false)
    (frees : ∀ next ∈ items.head?, Frees operator above next)
    (result : order (above ++ anchor :: base) items = .ok ordered) :
    ∃ tail, ordered = above ++ anchor :: tail := by
  cases items with
  | nil => exact ⟨base, (closed_of_order_nil result).2⟩
  | cons item rest =>
      have taken := inside_append_of_closed closed (anchor :: base)
      rw [inside_cons_of_operator carried] at taken
      rcases frees item rfl with ends | ⟨entering, enters, freed, released⟩
      · cases mark : Lexical.token item with
        | comma =>
            simp only [order, mark] at result
            split at result
            · contradiction
            · obtain ⟨later, _, rfl⟩ := Leads.exists_of_map_eq_ok result
              exact ⟨_, by rw [taken, List.append_assoc, List.cons_append]⟩
        | closeParen =>
            simp only [order, mark] at result
            split at result
            · contradiction
            · obtain ⟨later, _, rfl⟩ := Leads.exists_of_map_eq_ok result
              exact ⟨_, by rw [taken, List.append_assoc, List.append_assoc, List.cons_append]⟩
        | number value => simp [mark, Token.endsPlace] at ends
        | var name => simp [mark, Token.endsPlace] at ends
        | operator definition => simp [mark, Token.endsPlace] at ends
        | function definition => simp [mark, Token.endsPlace] at ends
        | openParen => simp [mark, Token.endsPlace] at ends
      · simp only [order, enters] at result
        obtain ⟨later, _, rfl⟩ := Leads.exists_of_map_eq_ok result
        have alsoAnchor : isReleasedBy entering anchor = true := by
          simpa only [isReleasedBy, carried] using released
        rw [List.takeWhile_append_of_pos freed, List.takeWhile_cons_of_pos alsoAnchor]
        exact ⟨_, by rw [List.append_assoc, List.cons_append]⟩

theorem keeps_of_not_freed (carried : Lexical.token anchor = .operator operator)
    (notFreed : ¬ ((∀ other ∈ above, isReleasedBy entering other = true) ∧
      entering.releases operator = true)) (base : List τ) :
    Keeps entering (above.dropWhile (isReleasedBy entering) ++ anchor :: base) :=
  keeps_dropWhile_append fun freed =>
    keeps_of_not_releases carried (Bool.eq_false_iff.mpr fun released => notFreed ⟨freed, released⟩)
      base

theorem called_append_operator (carried : Lexical.token anchor = .operator operator)
    (around : List τ) : called (around ++ anchor :: base) = called around := by
  cases around with
  | nil => exact quiet_cons base (by rw [carried]; rfl)
  | cons top others => rfl

theorem exists_fromOpening_append (opened : ¬ ∀ item ∈ above, isOpening item = false) :
    ∃ opening around, fromOpening above = opening :: around ∧
      Lexical.token opening = .openParen ∧
      ∀ below, inside (above ++ below) = inside above ∧
        fromOpening (above ++ below) = opening :: (around ++ below) := by
  cases first : fromOpening above with
  | nil =>
      refine absurd (fun item member => ?_) opened
      have closed := List.dropWhile_eq_nil_iff.mp first item member
      simpa using closed
  | cons opening around =>
      obtain ⟨held, rfl, taken, closed, opens⟩ := exists_of_fromOpening_eq_cons first
      refine ⟨opening, around, rfl, opens, fun below => ?_⟩
      have parts := inside_append_opening (around ++ below) opens closed
      rw [List.append_assoc, List.cons_append, taken]
      exact parts

/-- The item is read above the pending ones `below` as if they were not there. It is a prefix
operator, or where it leaves an operand expected, a barrier is above them. -/
def StaysAbove (below above : List τ) (item : τ) : Prop :=
  ∃ given remaining, Leads above [item] given remaining ∧
    Leads (above ++ below) [item] given (remaining ++ below) ∧
    ((∃ entering, Lexical.token item = .operator entering ∧ entering.isPrefix = true ∧
        remaining = item :: above.dropWhile (isReleasedBy entering)) ∨
      (operandExpected (some (Lexical.token item)) = true →
        ∃ barrier ∈ remaining, IsBarrier barrier))

theorem staysAbove_leaf (isLeaf : IsLeaf item) (below above : List τ) :
    StaysAbove below above item := by
  refine ⟨_, above, .leaf isLeaf, .leaf isLeaf, .inr fun expects => ?_⟩
  rcases isLeaf with ⟨value, carried⟩ | ⟨name, carried⟩ <;> rw [carried] at expects <;> contradiction

theorem staysAbove_operator (carried : Lexical.token item = .operator entering) {below : List τ}
    (kept : Keeps entering (above.dropWhile (isReleasedBy entering) ++ below)) :
    StaysAbove below above item := by
  refine ⟨_, _, .operator carried, .operator_append carried kept, ?_⟩
  cases stands : entering.isPrefix with
  | true => exact .inl ⟨entering, carried, stands, rfl⟩
  | false =>
      refine .inr fun expects => ⟨item, by simp, isBarrier_of_not_isUnary carried ?_⟩
      rw [carried] at expects
      simp only [operandExpected_eq, Option.any_some, Token.endsOperand, Bool.not_eq_true'] at expects
      cases groups : entering.leftAssociative with
      | true => simpa [Operator.isSuffix, groups] using expects
      | false => simpa [Operator.isPrefix, groups] using stands

theorem staysAbove_comma (carried : Lexical.token anchor = .operator operator)
    (separates : Lexical.token item = .comma)
    (opened : ¬ ∀ other ∈ above, isOpening other = false)
    (result : order (above ++ anchor :: base) (item :: rest) = .ok ordered) :
    StaysAbove (anchor :: base) above item := by
  obtain ⟨opening, around, first, opens, apart⟩ := exists_fromOpening_append opened
  obtain ⟨taken, dropped⟩ := apart (anchor :: base)
  have inCall : (called around).isEmpty = false := by
    simp only [order, separates, dropped, List.drop_succ_cons, List.drop_zero,
      called_append_operator carried] at result
    split at result
    · contradiction
    case isFalse inCall => exact Bool.eq_false_iff.mpr inCall
  have alone := @Leads.comma τ _ above item separates (by rw [first]; exact inCall)
  have whole := @Leads.comma τ _ (above ++ anchor :: base) item separates
    (by rw [dropped, List.drop_succ_cons, List.drop_zero, called_append_operator carried]; exact inCall)
  rw [first] at alone
  rw [taken, dropped] at whole
  exact ⟨_, opening :: around, alone, whole, .inr fun _ =>
    ⟨opening, by simp, isBarrier_of_not_operator (by simp [opens])⟩⟩

theorem staysAbove_closing (carried : Lexical.token anchor = .operator operator)
    (closes : Lexical.token item = .closeParen)
    (opened : ¬ ∀ other ∈ above, isOpening other = false) (base : List τ) :
    StaysAbove (anchor :: base) above item := by
  obtain ⟨opening, around, first, _, apart⟩ := exists_fromOpening_append opened
  obtain ⟨taken, dropped⟩ := apart (anchor :: base)
  have whole := Leads.closing closes dropped
  have fits : (called around).length ≤ around.length :=
    (List.length_filter_le _ _).trans (List.length_take_le' _ _)
  rw [taken, called_append_operator carried, List.drop_append_of_le_length fits] at whole
  refine ⟨_, _, .closing closes first, whole, .inr fun expects => ?_⟩
  rw [closes] at expects
  contradiction

/-- An item frees a pending operator, or stays above it. -/
theorem frees_or_staysAbove (carried : Lexical.token anchor = .operator operator)
    (result : order (above ++ anchor :: base) (item :: rest) = .ok ordered) :
    ((∀ other ∈ above, isOpening other = false) ∧ Frees operator above item) ∨
      StaysAbove (anchor :: base) above item := by
  cases token : Lexical.token item with
  | number value => exact .inr (staysAbove_leaf (.inl ⟨value, token⟩) _ above)
  | var name => exact .inr (staysAbove_leaf (.inr ⟨name, token⟩) _ above)
  | function definition =>
      exact .inr ⟨_, item :: above, .function token, .function token, .inr fun _ =>
        ⟨item, by simp, isBarrier_of_not_operator (by simp [token])⟩⟩
  | openParen =>
      exact .inr ⟨_, item :: above, .opening token, .opening token, .inr fun _ =>
        ⟨item, by simp, isBarrier_of_not_operator (by simp [token])⟩⟩
  | operator entering =>
      by_cases freed : (∀ other ∈ above, isReleasedBy entering other = true) ∧
          entering.releases operator = true
      · exact .inl ⟨fun other member => isOpening_eq_false_of_isReleasedBy (freed.1 other member),
          .inr ⟨entering, token, freed⟩⟩
      · exact .inr (staysAbove_operator token (keeps_of_not_freed carried freed base))
  | comma =>
      by_cases closed : ∀ other ∈ above, isOpening other = false
      · exact .inl ⟨closed, .inl (by rw [token]; rfl)⟩
      · exact .inr (staysAbove_comma carried token closed result)
  | closeParen =>
      by_cases closed : ∀ other ∈ above, isOpening other = false
      · exact .inl ⟨closed, .inl (by rw [token]; rfl)⟩
      · exact .inr (staysAbove_closing carried token closed base)

/-- Where an operand is expected, a barrier is above a pending operator, or no operator that follows
directly releases it. -/
def Guarded (operator : Operator) (before : Option Token) (above items : List τ) : Prop :=
  operandExpected before = true → (∃ barrier ∈ above, IsBarrier barrier) ∨
    ∀ entering ∈ leadingOperators (items.map Lexical.token), entering.releases operator = false

theorem isPrefix_of_placed (placed : Placed before ((item :: rest).map Lexical.token))
    (enters : Lexical.token item = .operator entering) :
    entering.isPrefix = operandExpected before :=
  placed.head_cons.1 entering enters

theorem Guarded.not_isPrefix_of_frees (guarded : Guarded operator before above (item :: rest))
    (placed : Placed before ((item :: rest).map Lexical.token))
    (frees : Frees operator above item) :
    (Lexical.token item).endsPlace = true ∨
      ∃ entering, Lexical.token item = .operator entering ∧ entering.isPrefix = false := by
  refine frees.imp_right fun ⟨entering, enters, freed, released⟩ => ⟨entering, enters, ?_⟩
  refine Bool.eq_false_iff.mpr fun stands => ?_
  have expected := isPrefix_of_placed placed enters
  rw [stands] at expected
  rcases guarded expected.symm with ⟨barrier, member, blocks⟩ | stays
  · have noRelease := blocks entering (Operator.isUnary_of_isPrefix stands)
    rw [freed barrier member] at noRelease
    contradiction
  · have noRelease := stays entering (by simp [enters, leadingOperators])
    rw [released] at noRelease
    contradiction

theorem Guarded.step {remaining : List τ} (guarded : Guarded operator before above (item :: rest))
    (placed : Placed before ((item :: rest).map Lexical.token))
    (stays : (∃ entering, Lexical.token item = .operator entering ∧ entering.isPrefix = true ∧
        remaining = item :: above.dropWhile (isReleasedBy entering)) ∨
      (operandExpected (some (Lexical.token item)) = true →
        ∃ barrier ∈ remaining, IsBarrier barrier)) :
    Guarded operator (some (Lexical.token item)) remaining rest := by
  intro expects
  rcases stays with ⟨entering, enters, stands, rfl⟩ | barred
  · have expected := isPrefix_of_placed placed enters
    rw [stands] at expected
    rcases guarded expected.symm with ⟨barrier, member, blocks⟩ | stays
    · have kept := blocks.mem_dropWhile (Operator.isUnary_of_isPrefix stands) member
      exact .inl ⟨barrier, List.mem_cons_of_mem item kept, blocks⟩
    · exact .inr fun other member => stays other (by simp [enters, leadingOperators, member])
  · exact .inl (barred expects)

theorem isPrefix_of_mem_leadingOperators {tokens : List Token} (placed : Placed before tokens)
    (expected : operandExpected before = true) :
    ∀ entering ∈ leadingOperators tokens, entering.isPrefix = true := by
  induction tokens generalizing before with
  | nil => simp [leadingOperators]
  | cons token rest ih =>
      cases token with
      | operator entering =>
          have enters := placed.head_cons.1 entering rfl
          rw [expected] at enters
          have expects : operandExpected (some (.operator entering)) = true := by
            simp [operandExpected_eq, Token.endsOperand, Operator.isSuffix_eq_false_of_isPrefix enters]
          exact List.forall_mem_cons.mpr ⟨enters, ih placed.tail expects⟩
      | _ => simp [leadingOperators]

/-- The items that are read until a pending operator is released are ordered, above what is above it,
as by themselves; their word stands directly before the operator. -/
theorem exists_release (carried : Lexical.token anchor = .operator operator)
    (placed : Placed before (items.map Lexical.token))
    (guarded : Guarded operator before above items)
    (result : order (above ++ anchor :: base) items = .ok ordered) :
    ∃ text rest word tail, items = text ++ rest ∧ order above text = .ok word ∧
      ordered = word ++ anchor :: tail ∧
      (text = [] → ∀ next ∈ items.head?, Frees operator above next) ∧
      ∀ next ∈ rest.head?, (Lexical.token next).endsPlace = true ∨
        ∃ entering, Lexical.token next = .operator entering ∧ entering.isPrefix = false := by
  -- By what is left to read; the guard says which items can release the operator.
  induction items generalizing above before ordered with
  | nil =>
      obtain ⟨closed, rfl⟩ := closed_of_order_nil result
      have alone : ∀ item ∈ above, isOpening item = false :=
        fun item member => closed item (List.mem_append_left _ member)
      exact ⟨[], [], above, base, rfl, order_nil_of_closed alone, rfl, by simp, by simp⟩
  | cons item rest ih =>
      rcases frees_or_staysAbove carried result with
        ⟨closed, frees⟩ | ⟨given, remaining, alone, whole, stays⟩
      · obtain ⟨tail, rfl⟩ := exists_eq_of_frees carried closed (by simpa using frees) result
        refine ⟨[], item :: rest, above, tail, rfl, order_nil_of_closed closed, rfl, ?_, ?_⟩
        · simpa using frees
        · simpa using guarded.not_isPrefix_of_frees placed frees
      · obtain ⟨later, onward, rfl⟩ := whole.exists_of_order result
        obtain ⟨text, others, word, tail, rfl, ordered, rfl, _, ends⟩ :=
          ih placed.tail (guarded.step placed stays) onward
        refine ⟨item :: text, others, given ++ word, tail, rfl, ?_, by simp, by simp, ends⟩
        have first := alone text
        rw [List.singleton_append, ordered] at first
        exact first

/-- Prefix operators that bind as strongly as the given one, or more strongly. -/
def Prefixes (operator : Operator) (above : List τ) : Prop :=
  ∀ other ∈ above, IsOperator (fun pending =>
    pending.isPrefix = true ∧ operator.precedence ≤ pending.precedence) other

theorem Prefixes.freed (prefixes : Prefixes operator above)
    (enters : entering.isPrefix = true) (looser : entering.precedence < operator.precedence) :
    ∀ other ∈ above, isReleasedBy entering other = true := by
  intro other member
  refine ((prefixes other member).mono fun pending holds => ?_).isReleasedBy
  rw [Operator.releases_of_isPrefix enters (Operator.isUnary_of_isPrefix holds.1)]
  exact decide_eq_true (looser.trans_le holds.2)

theorem Prefixes.cons (prefixes : Prefixes operator above)
    (carried : Lexical.token item = .operator entering) (enters : entering.isPrefix = true)
    (tighter : operator.precedence ≤ entering.precedence) :
    Prefixes operator (item :: above.dropWhile (isReleasedBy entering)) := by
  intro other member
  rcases List.mem_cons.mp member with rfl | further
  · exact ⟨entering, carried, enters, tighter⟩
  · exact prefixes other ((List.dropWhile_sublist _).mem further)

theorem Prefixes.mono (prefixes : Prefixes operator above) {part : List τ} (within : part ⊆ above) :
    ∀ other ∈ part, IsOperator (·.isPrefix = true) other :=
  fun other member => (prefixes other (within member)).mono fun _ => And.left

/-- A prefix operator that binds more loosely, and stands directly behind a prefix operator or behind
others that do, takes its place before it has an operand. -/
theorem exists_early_release (carried : Lexical.token anchor = .operator operator)
    (stands : operator.isPrefix = true) (expected : operandExpected before = true)
    (placed : Placed before (items.map Lexical.token)) (prefixes : Prefixes operator above)
    (looser : ∃ entering ∈ leadingOperators (items.map Lexical.token),
      entering.precedence < operator.precedence)
    (result : order (above ++ anchor :: base) items = .ok ordered) :
    ∃ word tail, ordered = word ++ anchor :: tail ∧
      ∀ other ∈ word, IsOperator (·.isPrefix = true) other := by
  induction items generalizing above before ordered with
  | nil => simp [leadingOperators] at looser
  | cons item rest ih =>
      cases token : Lexical.token item with
      | operator entering =>
          have enters : entering.isPrefix = true := by
            rw [isPrefix_of_placed placed token, expected]
          have releases := Operator.releases_of_isPrefix enters (Operator.isUnary_of_isPrefix stands)
          by_cases lower : entering.precedence < operator.precedence
          · have freed := prefixes.freed enters lower
            have frees : Frees operator above item :=
              .inr ⟨entering, token, freed, releases.trans (decide_eq_true lower)⟩
            obtain ⟨tail, rfl⟩ := exists_eq_of_frees carried
              (fun other member => isOpening_eq_false_of_isReleasedBy (freed other member))
              (by simpa using frees) result
            exact ⟨above, tail, rfl, prefixes.mono (List.Subset.refl above)⟩
          · have stays : entering.releases operator = false :=
              releases.trans (decide_eq_false lower)
            have notFreed : ¬ ((∀ other ∈ above, isReleasedBy entering other = true) ∧
                entering.releases operator = true) := by simp [stays]
            have step := Leads.operator_append token (keeps_of_not_freed carried notFreed base)
            obtain ⟨later, onward, rfl⟩ := step.exists_of_order result
            have expects : operandExpected (some (Lexical.token item)) = true := by
              simp [token, operandExpected_eq, Token.endsOperand,
                Operator.isSuffix_eq_false_of_isPrefix enters]
            have further : ∃ entering ∈ leadingOperators (rest.map Lexical.token),
                entering.precedence < operator.precedence := by
              simpa [token, leadingOperators, lower] using looser
            obtain ⟨word, tail, rfl, allPrefixes⟩ := ih expects placed.tail
              (prefixes.cons token enters (not_lt.mp lower)) further onward
            refine ⟨above.takeWhile (isReleasedBy entering) ++ word, tail, by simp, ?_⟩
            exact List.forall_mem_append.mpr
              ⟨prefixes.mono (List.takeWhile_sublist _).subset, allPrefixes⟩
      | _ => simp [token, leadingOperators] at looser

end

end Rpn

end Formula
