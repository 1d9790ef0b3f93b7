import Mathlib.Data.List.TakeWhile
import Formula.Proofs.Rpn.Reading
import Formula.Rpn

namespace Formula.Rpn

/-! Runs of `order` that succeed, one rule for each kind of item.

A rule names the parts into which the item divides the pending ones, so that a property of all runs
is proved by induction on the rules without opening `order`.
-/

variable {τ : Type} [Lexical τ]

/-- With these items pending, reading `items` to the end gives out `ordered`. -/
inductive Run : (pending items ordered : List τ) → Prop
  | done {pending : List τ} (closed : ∀ item ∈ pending, isOpening item = false) :
      Run pending [] pending
  | leaf {pending rest ordered : List τ} {item : τ} (isLeaf : IsLeaf item)
      (onward : Run pending rest ordered) : Run pending (item :: rest) (item :: ordered)
  | function {pending rest ordered : List τ} {item : τ} {definition : FunctionSymbol}
      (calls : Lexical.token item = .function definition)
      (onward : Run (item :: pending) rest ordered) : Run pending (item :: rest) ordered
  | opening {pending rest ordered : List τ} {item : τ} (opens : Lexical.token item = .openParen)
      (onward : Run (item :: pending) rest ordered) : Run pending (item :: rest) ordered
  | operator {released pending rest ordered : List τ} {item : τ} {entering : Operator}
      (carried : Lexical.token item = .operator entering)
      (freed : ∀ item ∈ released, isReleasedBy entering item = true) (kept : Keeps entering pending)
      (onward : Run (item :: pending) rest ordered) :
      Run (released ++ pending) (item :: rest) (released ++ ordered)
  | comma {held pending rest ordered : List τ} {item opening function : τ}
      {definition : FunctionSymbol} (separates : Lexical.token item = .comma)
      (closed : ∀ item ∈ held, isOpening item = false) (opens : Lexical.token opening = .openParen)
      (calls : Lexical.token function = .function definition)
      (onward : Run (opening :: function :: pending) rest ordered) :
      Run (held ++ opening :: function :: pending) (item :: rest) (held ++ ordered)
  | group {held pending rest ordered : List τ} {item opening : τ}
      (closes : Lexical.token item = .closeParen) (closed : ∀ item ∈ held, isOpening item = false)
      (opens : Lexical.token opening = .openParen) (quiet : Quiet pending)
      (onward : Run pending rest ordered) :
      Run (held ++ opening :: pending) (item :: rest) (held ++ ordered)
  | call {held pending rest ordered : List τ} {item opening function : τ}
      {definition : FunctionSymbol} (closes : Lexical.token item = .closeParen)
      (closed : ∀ item ∈ held, isOpening item = false) (opens : Lexical.token opening = .openParen)
      (calls : Lexical.token function = .function definition)
      (onward : Run pending rest ordered) :
      Run (held ++ opening :: function :: pending) (item :: rest) (held ++ function :: ordered)

variable {pending ordered items : List τ} {opening : τ}

theorem keeps_dropWhile (entering : Operator) (pending : List τ) :
    Keeps entering (pending.dropWhile (isReleasedBy entering)) := by
  intro top isTop
  have first := List.head?_dropWhile_not (isReleasedBy entering) pending
  rw [isTop] at first
  exact first

/-- What is left of the items above keeps the operator, or there is nothing left of them and those
below do. -/
theorem keeps_dropWhile_append {entering : Operator} {above base : List τ}
    (kept : (∀ item ∈ above, isReleasedBy entering item = true) → Keeps entering base) :
    Keeps entering (above.dropWhile (isReleasedBy entering) ++ base) := by
  have inner := keeps_dropWhile entering above
  cases remaining : above.dropWhile (isReleasedBy entering) with
  | nil => exact kept (List.dropWhile_eq_nil_iff.mp remaining)
  | cons top others =>
      rw [remaining] at inner
      exact inner

/-- The innermost open parenthesis divides the pending items. -/
theorem exists_of_fromOpening_eq_cons {around : List τ}
    (opened : fromOpening pending = opening :: around) :
    ∃ held, pending = held ++ opening :: around ∧ inside pending = held ∧
      (∀ item ∈ held, isOpening item = false) ∧ Lexical.token opening = .openParen := by
  have closed : ∀ item ∈ inside pending, isOpening item = false := by
    intro item member
    have outside := List.all_eq_true.mp List.all_takeWhile item member
    simpa using outside
  have first := List.head?_dropWhile_not (!isOpening ·) pending
  have same : pending.dropWhile (!isOpening ·) = opening :: around := opened
  rw [same] at first
  refine ⟨inside pending, by rw [← opened, inside_append_fromOpening], rfl, closed, ?_⟩
  cases carried : Lexical.token opening <;> simp [isOpening, carried, Token.isOpenParen] at first ⊢

theorem quiet_or_called (pending : List τ) :
    Quiet pending ∨ ∃ function below definition,
      pending = function :: below ∧ Lexical.token function = .function definition := by
  cases pending with
  | nil => exact .inl rfl
  | cons top below =>
      cases carried : Lexical.token top with
      | function definition => exact .inr ⟨top, below, definition, rfl, carried⟩
      | _ => exact .inl (quiet_cons below (by rw [carried]; rfl))

/-- Every success of `order` is a run. -/
theorem run_of_order (result : order pending items = .ok ordered) : Run pending items ordered := by
  induction items generalizing pending ordered with
  | nil =>
      simp only [order] at result
      split at result
      · contradiction
      case isFalse closed =>
        obtain rfl : pending = ordered := by simpa using result
        exact .done (by simpa using closed)
  | cons item rest ih =>
      have onward {left given : List τ} (mapped : (order left rest).map (given ++ ·) = .ok ordered) :
          ∃ later, Run left rest later ∧ given ++ later = ordered := by
        cases further : order left rest with
        | error reason => simp [further, Except.map] at mapped
        | ok later =>
            simp only [further, Except.map, Except.ok.injEq] at mapped
            exact ⟨later, ih further, mapped⟩
      cases carried : Lexical.token item with
      | number value =>
          simp only [order, carried] at result
          obtain ⟨later, run, rfl⟩ := @onward _ [item] result
          exact .leaf (.inl ⟨value, carried⟩) run
      | var name =>
          simp only [order, carried] at result
          obtain ⟨later, run, rfl⟩ := @onward _ [item] result
          exact .leaf (.inr ⟨name, carried⟩) run
      | function definition =>
          simp only [order, carried] at result
          exact .function carried (ih result)
      | openParen =>
          simp only [order, carried] at result
          exact .opening carried (ih result)
      | operator entering =>
          simp only [order, carried] at result
          obtain ⟨later, run, rfl⟩ := onward result
          have freed : ∀ item ∈ pending.takeWhile (isReleasedBy entering),
              isReleasedBy entering item = true :=
            List.all_eq_true.mp List.all_takeWhile
          have whole := Run.operator carried freed (keeps_dropWhile entering pending) run
          rwa [List.takeWhile_append_dropWhile] at whole
      | comma =>
          simp only [order, carried] at result
          split at result
          · contradiction
          case isFalse isCall =>
            obtain ⟨later, run, rfl⟩ := onward result
            cases opened : fromOpening pending with
            | nil => simp [opened, called] at isCall
            | cons opening around =>
                rw [opened] at run isCall
                obtain ⟨held, rfl, taken, closed, opens⟩ := exists_of_fromOpening_eq_cons opened
                rw [taken]
                rcases quiet_or_called around with
                  quiet | ⟨function, below, definition, rfl, calls⟩
                · have noCall : called around = [] := quiet
                  simp [noCall] at isCall
                · exact .comma carried closed opens calls run
      | closeParen =>
          simp only [order, carried] at result
          split at result
          · contradiction
          case h_2 opening around opened =>
            obtain ⟨later, run, rfl⟩ := onward result
            obtain ⟨held, rfl, taken, closed, opens⟩ := exists_of_fromOpening_eq_cons opened
            rw [taken]
            rcases quiet_or_called around with quiet | ⟨function, below, definition, rfl, calls⟩
            · have noCall : called around = [] := quiet
              rw [noCall] at run ⊢
              rw [List.append_nil]
              exact .group carried closed opens quiet run
            · rw [called_cons below calls] at run ⊢
              rw [List.append_assoc]
              exact .call carried closed opens calls run

theorem run_of_ofTokens {juxtaposition : Bool}
    (result : ofTokens juxtaposition items = .ok ordered) :
    Run [] (if juxtaposition then insertProducts items else items) ordered ∧
      balance (ordered.map Lexical.token) = .ok () := by
  simp only [ofTokens, bind, Except.bind] at result
  split at result
  · contradiction
  case h_2 given arranged =>
    split at result
    · contradiction
    case h_2 balanced =>
      cases result
      exact ⟨run_of_order arranged, balanced⟩

/-- A formula has an RPN only if its tokens have a run that is balanced. -/
theorem exists_run_of_ofText {lexicon : Lexicon} {juxtaposition : Bool} {text : String}
    {rpn : List Token} (accepted : ofText lexicon juxtaposition text = .ok rpn) :
    ∃ tokens ordered, lexicon.tokens text = .ok tokens ∧
      Run [] (if juxtaposition then insertProducts tokens else tokens) ordered ∧
      rpn = ordered.map Located.token ∧ balance rpn = .ok () := by
  cases result : located lexicon juxtaposition text with
  | error reason => simp [ofText, result, Except.map] at accepted
  | ok ordered =>
      simp only [ofText, result, Except.map, Except.ok.injEq] at accepted
      subst accepted
      cases lexed : lexicon.tokens text with
      | error reason => simp [located, lexed, bind, Except.bind] at result
      | ok tokens =>
          simp only [located, lexed, bind, Except.bind] at result
          obtain ⟨run, balanced⟩ := run_of_ofTokens result
          exact ⟨tokens, ordered, rfl, run, rfl, balanced⟩

end Formula.Rpn
