import Formula.Proofs.Rpn.Acceptance
import Formula.Proofs.Rpn.Calls

namespace Formula

/-! Errors of parentheses and commas.

Ordering keeps no account of open parentheses: it finds them among the pending items, below operators
and above functions, and gives some of these out before it decides. A scan that does nothing but keep
that account comes to the same verdict. What joins the two is `openCalls`, the account that the
pending items hold.
-/

namespace Rpn

/-- What is wrong first with the parentheses and commas of a formula, read from left to right. Of the
parentheses that are open, the innermost first, `opened` says whether each is one of a call, that is,
whether a function stands directly before it. -/
def scanBrackets (opened : List Bool) (afterFunction : Bool) : List Token → Except SyntaxError Unit
  | [] => if opened.isEmpty then .ok () else .error .mismatchedParentheses
  | .openParen :: rest => scanBrackets (afterFunction :: opened) false rest
  | .closeParen :: rest =>
      match opened with
      | [] => .error .mismatchedParentheses
      | _ :: around => scanBrackets around false rest
  | .comma :: rest =>
      if opened.head? = some true then scanBrackets opened false rest else .error .misplacedComma
  | .function _ :: rest => scanBrackets opened true rest
  | .number _ :: rest | .var _ :: rest | .operator _ :: rest => scanBrackets opened false rest

/-- Whether there is a result, or else the error. -/
def verdict {β : Type} (result : Except SyntaxError β) : Except SyntaxError Unit :=
  result.map fun _ => ()

section

variable {β γ : Type} {result : Except SyntaxError β}

@[simp] theorem verdict_map (change : β → γ) : verdict (result.map change) = verdict result := by
  cases result <;> rfl

theorem verdict_eq_error_iff {reason : SyntaxError} :
    verdict result = .error reason ↔ result = .error reason := by
  cases result <;> simp [verdict, Except.map]

theorem verdict_eq_ok_iff : verdict result = .ok () ↔ ∃ value, result = .ok value := by
  cases result <;> simp [verdict, Except.map]

end

/-- Whether a parenthesis that opened here would be one of a call. -/
def callsNext (pending : List Token) : Bool := !(called pending).isEmpty

theorem callsNext_of_quiet {pending : List Token} (quiet : Quiet pending) :
    callsNext pending = false := by
  have noCall : called pending = [] := quiet
  simp [callsNext, noCall]

variable {pending : List Token}

theorem openCalls_of_fromOpening_nil (none : fromOpening pending = []) : openCalls pending = [] := by
  have closed : ∀ item ∈ pending, isOpening item = false := by
    intro item member
    simpa using List.dropWhile_eq_nil_iff.mp none item member
  simpa [openCalls] using openCalls_append closed []

theorem openCalls_of_fromOpening_cons {opening : Token} {around : List Token}
    (opened : fromOpening pending = opening :: around) :
    opening = .openParen ∧ openCalls pending = callsNext around :: openCalls around := by
  obtain ⟨held, rfl, _, closed, opens⟩ := exists_of_fromOpening_eq_cons opened
  obtain rfl : opening = .openParen := opens
  exact ⟨rfl, openCalls_append closed _⟩

theorem any_isOpening_eq (pending : List Token) :
    pending.any isOpening = !(openCalls pending).isEmpty := by
  cases opened : fromOpening pending with
  | nil =>
      rw [openCalls_of_fromOpening_nil opened, List.isEmpty_nil, Bool.not_true, List.any_eq_false]
      intro item member
      simpa using List.dropWhile_eq_nil_iff.mp opened item member
  | cons opening around =>
      obtain ⟨rfl, account⟩ := openCalls_of_fromOpening_cons opened
      rw [account, List.isEmpty_cons, Bool.not_false, List.any_eq_true]
      have member : Token.openParen ∈ fromOpening pending := by simp [opened]
      exact ⟨.openParen, (List.dropWhile_sublist _).mem member, rfl⟩

theorem Shielded.fromOpening (shielded : Shielded pending) : Shielded (fromOpening pending) := by
  rw [← inside_append_fromOpening pending] at shielded
  exact shielded.right

theorem Leads.verdict_eq {item : Token} {given waiting : List Token}
    (leads : Leads pending [item] given waiting) (rest : List Token) :
    verdict (order pending (item :: rest)) = verdict (order waiting rest) := by
  rw [← List.singleton_append, leads rest, verdict_map]

theorem verdict_order_nil (pending : List Token) :
    verdict (order pending []) = scanBrackets (openCalls pending) (callsNext pending) [] := by
  simp only [order, scanBrackets, any_isOpening_eq]
  cases openCalls pending <;> rfl

theorem verdict_order_comma (pending rest : List Token) :
    verdict (order pending (.comma :: rest)) =
      if (openCalls pending).head? = some true then verdict (order (fromOpening pending) rest)
      else .error .misplacedComma := by
  have inCall : (openCalls pending).head? = some true ↔
      (called ((fromOpening pending).drop 1)).isEmpty = false := by
    cases opened : fromOpening pending with
    | nil => simp [openCalls_of_fromOpening_nil opened, called]
    | cons opening around => simp [(openCalls_of_fromOpening_cons opened).2, callsNext]
  split
  case isTrue isCall => exact (Leads.comma (.refl Token.comma) (inCall.mp isCall)).verdict_eq rest
  case isFalse noCall =>
    have none : (called ((fromOpening pending).drop 1)).isEmpty = true := by
      rwa [inCall, Bool.not_eq_false] at noCall
    simp only [order, Token.token_eq, none, ↓reduceIte]
    rfl

theorem verdict_order_closeParen (pending rest : List Token) :
    verdict (order pending (.closeParen :: rest)) =
      match fromOpening pending with
      | [] => .error .mismatchedParentheses
      | _ :: around => verdict (order (around.drop (called around).length) rest) := by
  cases opened : fromOpening pending with
  | nil =>
      simp only [order, Token.token_eq, opened]
      rfl
  | cons opening around => exact (Leads.closing (.refl Token.closeParen) opened).verdict_eq rest

/-- With its parenthesis, the function of a call goes. -/
theorem Shielded.drop_called {around : List Token} (shielded : Shielded around) :
    Shielded (around.drop (called around).length) ∧ Quiet (around.drop (called around).length) ∧
      openCalls (around.drop (called around).length) = openCalls around := by
  rcases quiet_or_called around with quiet | ⟨function, below, definition, rfl, calls⟩
  · have noCall : called around = [] := quiet
    rw [noCall, List.length_nil, List.drop_zero]
    exact ⟨shielded, quiet, rfl⟩
  · obtain rfl : function = .function definition := calls
    exact ⟨shielded.tail, shielded.quiet_of_cons rfl, rfl⟩

/-- An operator leaves the open parentheses as they are. -/
theorem Shielded.operator (shielded : Shielded pending) (quiet : Quiet pending)
    (entering : Operator) :
    Shielded (.operator entering :: pending.dropWhile (isReleasedBy entering)) ∧
      openCalls (.operator entering :: pending.dropWhile (isReleasedBy entering)) =
        openCalls pending := by
  have closed : ∀ item ∈ pending.takeWhile (isReleasedBy entering), isOpening item = false :=
    fun item member => isOpening_eq_false_of_isReleasedBy
      (List.all_eq_true.mp List.all_takeWhile item member)
  have parts := @List.takeWhile_append_dropWhile Token (isReleasedBy entering) pending
  have account := openCalls_append closed (pending.dropWhile (isReleasedBy entering))
  rw [parts] at account
  rw [← parts] at shielded quiet
  exact ⟨shielded.right.cons (shielded.quiet_of_append closed quiet), account.symm⟩

/-- Ordering and the scan come to the same verdict, above pending items that hold the account of the
scan. -/
theorem verdict_order {items : List Token} {before : Option Token} (shielded : Shielded pending)
    (next : Quiet pending ∨ items.head? = some .openParen) (placed : Placed before items) :
    verdict (order pending items) = scanBrackets (openCalls pending) (callsNext pending) items := by
  induction items generalizing pending before with
  | nil => exact verdict_order_nil pending
  | cons item rest ih =>
      -- A function stays on top until the next item, which is its parenthesis.
      have onward {waiting : List Token} (kept : Shielded waiting)
          (further : Quiet waiting ∨ rest.head? = some .openParen) :=
        ih kept further placed.tail
      cases item with
      | number value =>
          have quiet := quiet_of_ne_openParen next (by simp)
          rw [(Leads.leaf (.inl ⟨value, rfl⟩)).verdict_eq, onward shielded (.inl quiet),
            callsNext_of_quiet quiet]
          rfl
      | var name =>
          have quiet := quiet_of_ne_openParen next (by simp)
          rw [(Leads.leaf (.inr ⟨name, rfl⟩)).verdict_eq, onward shielded (.inl quiet),
            callsNext_of_quiet quiet]
          rfl
      | function function =>
          have quiet := quiet_of_ne_openParen next (by simp)
          exact onward (shielded.cons quiet) (.inr (placed.head_cons.2 rfl))
      | openParen =>
          exact onward (List.isChain_cons.mpr ⟨fun _ _ _ => rfl, shielded⟩)
            (.inl (quiet_cons pending rfl))
      | operator entering =>
          have quiet := quiet_of_ne_openParen next (by simp)
          obtain ⟨kept, account⟩ := shielded.operator quiet entering
          rw [(Leads.operator rfl).verdict_eq, onward kept (.inl (quiet_cons _ rfl)), account]
          rfl
      | comma =>
          rw [verdict_order_comma, scanBrackets]
          split
          case isTrue isCall =>
            cases opened : fromOpening pending with
            | nil => simp [openCalls_of_fromOpening_nil opened] at isCall
            | cons opening around =>
                obtain ⟨rfl, account⟩ := openCalls_of_fromOpening_cons opened
                have kept := shielded.fromOpening
                rw [opened] at kept
                rw [onward kept (.inl (quiet_cons around rfl)), account]
                rfl
          case isFalse => rfl
      | closeParen =>
          rw [verdict_order_closeParen]
          cases opened : fromOpening pending with
          | nil =>
              rw [openCalls_of_fromOpening_nil opened]
              rfl
          | cons opening around =>
              have above := shielded.fromOpening
              rw [opened] at above
              have outside : Shielded around := above.tail
              obtain ⟨kept, quiet, account⟩ := outside.drop_called
              rw [(openCalls_of_fromOpening_cons opened).2]
              change verdict (order _ rest) = scanBrackets (openCalls around) false rest
              rw [onward kept (.inl quiet), account, callsNext_of_quiet quiet]

/-- Of what is read from a text, with the products that are not written or without them, ordering
fails for the first bracket or comma that is wrong, with its error, and for nothing else. The lexicon
may come from any tables of functions and operators (`Lexicon.ofTables_positional`). -/
theorem order_error_iff_scanBrackets {lexicon : Lexicon} (positional : lexicon.Positional)
    {text : String} {tokens : List Located} (lexed : lexicon.tokens text = .ok tokens)
    (juxtaposition : Bool) :
    (∀ reason, order [] (withProducts juxtaposition tokens) = .error reason ↔
      scanBrackets [] false ((withProducts juxtaposition tokens).map Located.token) =
        .error reason) ∧
    ((∃ ordered, order [] (withProducts juxtaposition tokens) = .ok ordered) ↔
      scanBrackets [] false ((withProducts juxtaposition tokens).map Located.token) = .ok ()) := by
  have placed : Placed none ((withProducts juxtaposition tokens).map Located.token) := by
    rw [withProducts_map_token]
    exact placed_withProducts (Lexicon.tokens_placed positional lexed) juxtaposition
  have arranged := @order_map Located Token _ _ Located.token (fun _ => rfl) []
    (withProducts juxtaposition tokens)
  rw [List.map_nil] at arranged
  have same : verdict (order [] (withProducts juxtaposition tokens)) =
      scanBrackets [] false ((withProducts juxtaposition tokens).map Located.token) := by
    rw [← verdict_map (List.map Located.token), ← arranged]
    exact verdict_order .nil (.inl quiet_nil) placed
  rw [← same]
  exact ⟨fun reason => verdict_eq_error_iff.symm, verdict_eq_ok_iff.symm⟩

/-- `logb((x, 2)))`: the comma of the inner group is wrong before the last parenthesis is. -/
theorem order_error_of_comma_in_group :
    ∃ tokens, (Vocabulary.lexicon { names := ["x"] }).tokens "logb((x, 2)))" = .ok tokens ∧
      order [] (withProducts true tokens) = .error .misplacedComma := by
  have lexed : (Vocabulary.lexicon { names := ["x"] }).tokens "logb((x, 2)))" =
      .ok [⟨.function ⟨"logb", 2⟩, ⟨0, 4⟩⟩, ⟨.openParen, ⟨4, 5⟩⟩, ⟨.openParen, ⟨5, 6⟩⟩,
        ⟨.var "x", ⟨6, 7⟩⟩, ⟨.comma, ⟨7, 8⟩⟩, ⟨.number 2, ⟨9, 10⟩⟩, ⟨.closeParen, ⟨10, 11⟩⟩,
        ⟨.closeParen, ⟨11, 12⟩⟩, ⟨.closeParen, ⟨12, 13⟩⟩] := by
    decide +kernel
  have positional := Vocabulary.lexicon_positional { names := ["x"] }
  exact ⟨_, lexed, ((order_error_iff_scanBrackets positional lexed true).1 _).mpr rfl⟩

end Rpn

end Formula
