import Formula.Proofs.Rpn.Release
import Formula.Proofs.Rpn.Segments
import Formula.Proofs.Rpn.Subtrees
import Formula.Proofs.Token.Extent

namespace Formula

/-! What unary operators are attached to.

The operand of a unary operator is drawn from what stands directly before it in RPN. For a prefix
operator that is what has been read behind it, unless a prefix operator that binds more loosely takes
its place first. For a postfix operator it is what stands before it, unless the next operator binds
more tightly: then it waits, and takes what comes after.
-/

/-- An item that takes up characters, between those before it and those behind it. -/
structure Located.Stands (before : List Located) (item : Located) (after : List Located) : Prop where
  covers : item.span.start < item.span.stop
  before : ∀ other ∈ before, other.span.start ≤ other.span.stop ∧ other.span.stop ≤ item.span.start
  after : ∀ other ∈ after, item.span.stop ≤ other.span.start ∧ other.span.start ≤ other.span.stop

namespace Located.Stands

variable {before after : List Located} {item other : Located}

theorem notMem_before (stands : Stands before item after) : item ∉ before := fun member => by
  have extent := stands.before item member
  have covers := stands.covers
  omega

theorem notMem_after (stands : Stands before item after) : item ∉ after := fun member => by
  have extent := stands.after item member
  have covers := stands.covers
  omega

end Located.Stands

theorem Operator.ne_times_of_isUnary {operator : Operator} (unary : operator.isUnary = true) :
    operator ≠ .times := by
  rintro rfl
  contradiction

theorem Operator.releases_iff_of_isUnary {entering pending : Operator}
    (waits : pending.isUnary = true) :
    entering.releases pending = true ↔ entering.precedence < pending.precedence ∨
      entering.leftAssociative = true ∧ entering.precedence = pending.precedence := by
  simp [releases, waits]

namespace Rpn

open OperatorTree
open Grammar (operands_of_isPrefix)

variable {vocabulary : Vocabulary} {lexicon : Lexicon} {juxtaposition : Bool} {text : String}
variable {tokens rpn before after : List Located} {anchor : Located} {operator : Operator}

theorem precede_withProducts (lexed : lexicon.tokens text = .ok tokens) (juxtaposition : Bool) :
    (withProducts juxtaposition tokens).Pairwise Located.Precedes := by
  cases juxtaposition with
  | false => exact Lexicon.tokens_precede lexed
  | true => exact insertProducts_precede (Lexicon.tokens_precede lexed)

theorem mem_or_eq_times_of_mem_withProducts (member : anchor ∈ withProducts juxtaposition tokens) :
    anchor ∈ tokens ∨ anchor.token = .operator .times := by
  cases juxtaposition with
  | false => exact .inl member
  | true =>
      rcases (interspersed_insertProducts tokens).added_of_mem member with given | ⟨left, right, rfl⟩
      · exact .inl given
      · exact .inr rfl

theorem placed_of_lexed (lexed : vocabulary.lexicon.tokens text = .ok tokens) {items : List Located}
    (here : withProducts juxtaposition tokens = items) :
    Placed none (items.map Located.token) := by
  rw [← here, withProducts_map_token]
  exact placed_withProducts (Lexicon.tokens_placed vocabulary.lexicon_positional lexed) juxtaposition

theorem stands_of_isUnary (lexed : lexicon.tokens text = .ok tokens)
    (here : withProducts juxtaposition tokens = before ++ anchor :: after)
    (carried : anchor.token = .operator operator) (unary : operator.isUnary = true) :
    anchor.Stands before after := by
  have ordered := precede_withProducts lexed juxtaposition
  rw [here] at ordered
  obtain ⟨_, further, across⟩ := List.pairwise_append.mp ordered
  constructor
  · have member : anchor ∈ withProducts juxtaposition tokens := by simp [here]
    rcases mem_or_eq_times_of_mem_withProducts member with given | product
    · exact Lexicon.covers_of_mem_tokens lexed given
    · rw [carried] at product
      exact absurd (Token.operator.inj product) (Operator.ne_times_of_isUnary unary)
  · intro other member
    have precedes := across other member anchor (by simp)
    exact ⟨precedes.1, precedes.2.1⟩
  · intro other member
    exact (List.rel_of_pairwise_cons further member).2

theorem count_of_stands (stands : anchor.Stands before after)
    (carried : anchor.token = .operator operator)
    (result : order [] (before ++ anchor :: after) = .ok rpn) : rpn.count anchor = 1 := by
  have kept := (run_of_order result).perm (by simp [Waiting])
  have value : makesValue anchor = true := by rw [makesValue, Located.token_eq, carried]; rfl
  rw [kept.count_eq, List.nil_append, List.count_filter value, List.count_append,
    List.count_cons_self, List.count_eq_zero.mpr stands.notMem_before,
    List.count_eq_zero.mpr stands.notMem_after]

section

variable {τ : Type} [Lexical τ] {earlier later items ordered : List τ} {item : τ}

theorem exists_order_above (carried : Lexical.token item = .operator operator)
    (result : order [] (earlier ++ item :: later) = .ok ordered) :
    ∃ given base following, order (item :: base) later = .ok following ∧
      ordered = given ++ following ∧ given ⊆ earlier := by
  obtain ⟨given, waiting, remaining, _, onward, rfl, origin⟩ := exists_leads_of_append result
  have step := @Leads.operator τ _ waiting item operator carried
  obtain ⟨following, further, rfl⟩ := step.exists_of_order onward
  refine ⟨_, _, following, further, (List.append_assoc ..).symm, fun other member => ?_⟩
  refine origin ?_
  rcases List.mem_append.mp member with given | released
  · exact List.mem_append_left _ given
  · exact List.mem_append_right _ ((List.takeWhile_sublist _).mem released)

theorem mem_order_iff (result : order [] items = .ok ordered) :
    item ∈ ordered ↔ item ∈ items ∧ makesValue item = true := by
  rw [((run_of_order result).perm (by simp [Waiting])).mem_iff, List.nil_append, List.mem_filter]

theorem surplus_of_prefixes (prefixes : ∀ item ∈ items, IsOperator (·.isPrefix = true) item) :
    surplus (items.map Lexical.token) = 0 := by
  induction items with
  | nil => rfl
  | cons first others ih =>
      obtain ⟨operator, carried, stands⟩ := prefixes first (by simp)
      have takesOne := operands_of_isPrefix stands
      rw [List.map_cons, surplus_cons, carried, Token.operands, takesOne,
        ih fun item member => prefixes item (List.mem_cons_of_mem _ member)]
      rfl

theorem map_token_of_order (result : order [] items = .ok ordered) :
    order [] (items.map Lexical.token) = .ok (ordered.map Lexical.token) := by
  have arranged := @order_map τ Token _ _ Lexical.token (fun _ => rfl) [] items
  rw [List.map_nil, result] at arranged
  exact arranged

variable {operand : OperatorTree τ}

/-- If no prefix operator behind it binds more loosely, a prefix operator takes what is read behind it,
provided that no operand is short. -/
theorem operand_subset_of_tighter (carried : Lexical.token item = .operator operator)
    (isPrefix : operator.isPrefix = true)
    (placed : Placed none ((earlier ++ item :: later).map Lexical.token))
    (supplied : shortage ((earlier ++ item :: later).map Lexical.token) = 0)
    (tighter : ∀ other ∈ leadingOperators (later.map Lexical.token),
      operator.precedence ≤ other.precedence)
    (result : order [] (earlier ++ item :: later) = .ok ordered) (saturated : operand.Saturated)
    (suffix : ∀ before after, ordered = before ++ item :: after → operand.postorder <:+ before) :
    operand.postorder ⊆ later := by
  rw [List.map_append, List.map_cons, carried] at placed supplied
  have expects : operandExpected (some (.operator operator)) = true := by
    simp [operandExpected_eq, Token.endsOperand, Operator.isSuffix_eq_false_of_isPrefix isPrefix]
  have guarded : Guarded operator (some (.operator operator)) [] later := by
    refine fun _ => .inr fun entering member => ?_
    have enters := isPrefix_of_mem_leadingOperators placed.right expects entering member
    rw [Operator.releases_of_isPrefix enters (Operator.isUnary_of_isPrefix isPrefix)]
    exact decide_eq_false (not_lt.mpr (tighter entering member))
  obtain ⟨given, base, following, onward, rfl, _⟩ := exists_order_above carried result
  obtain ⟨text, rest, word, tail, rfl, alone, rfl, _, ends⟩ :=
    @exists_release τ _ [] base later _ _ operator _ carried placed.right guarded onward
  rw [List.map_append] at placed supplied
  have endsPart : EndsPart (rest.map Lexical.token) := by
    intro next isNext
    rw [List.head?_map] at isNext
    obtain ⟨first, isFirst, rfl⟩ := Option.mem_map.mp isNext
    exact ends first isFirst
  have filled := one_le_surplus_of_part placed expects endsPart supplied (map_token_of_order alone)
  have within : operand.postorder <:+ word :=
    saturated.suffix_of_surplus (suffix (given ++ word) tail (List.append_assoc ..).symm) filled
  exact fun other member =>
    List.mem_append_left _ ((mem_order_iff alone).mp (within.subset member)).1

/-- If a prefix operator behind it binds more loosely, a prefix operator takes something that is read
before it. -/
theorem exists_mem_before_of_looser (carried : Lexical.token item = .operator operator)
    (isPrefix : operator.isPrefix = true)
    (placed : Placed none ((earlier ++ item :: later).map Lexical.token))
    (looser : ∃ other ∈ leadingOperators (later.map Lexical.token),
      other.precedence < operator.precedence)
    (result : order [] (earlier ++ item :: later) = .ok ordered) (saturated : operand.Saturated)
    (suffix : ∀ before after, ordered = before ++ item :: after → operand.postorder <:+ before) :
    ∃ other ∈ operand.postorder, other ∈ earlier := by
  rw [List.map_append, List.map_cons, carried] at placed
  have expects : operandExpected (some (.operator operator)) = true := by
    simp [operandExpected_eq, Token.endsOperand, Operator.isSuffix_eq_false_of_isPrefix isPrefix]
  obtain ⟨given, base, following, onward, rfl, read⟩ := exists_order_above carried result
  obtain ⟨word, tail, rfl, prefixes⟩ := @exists_early_release τ _ [] base later following item operator
    _ carried isPrefix expects placed.right (by simp [Prefixes]) looser onward
  have unfilled : ∀ part, part <:+ word → surplus (part.map Lexical.token) ≤ 0 :=
    fun part within => (surplus_of_prefixes fun other member =>
      prefixes other (within.subset member)).le
  obtain ⟨other, member, isGiven⟩ := saturated.exists_mem_of_surplus
    (suffix (given ++ word) tail (List.append_assoc ..).symm) unfilled
  exact ⟨other, member, read isGiven⟩

/-- A postfix operator that is released by what follows it takes what has been read before it. -/
theorem operand_subset_of_freed (carried : Lexical.token item = .operator operator)
    (frees : ∀ next ∈ later.head?, Frees operator [] next)
    (result : order [] (earlier ++ item :: later) = .ok ordered)
    (suffix : ∀ before after, ordered = before ++ item :: after → operand.postorder <:+ before) :
    operand.postorder ⊆ earlier := by
  obtain ⟨given, base, following, onward, rfl, read⟩ := exists_order_above carried result
  obtain ⟨tail, rfl⟩ := @exists_eq_of_frees τ _ [] base later _ item operator carried (by simp) frees
    onward
  exact fun other member => read ((suffix given tail rfl).subset member)

/-- A postfix operator that an operator behind it does not release takes something that is read
after it. -/
theorem exists_mem_after_of_kept {next : τ} {entering : Operator}
    (carried : Lexical.token item = .operator operator) (isSuffix : operator.isSuffix = true)
    (placed : Placed none ((earlier ++ item :: next :: later).map Lexical.token))
    (enters : Lexical.token next = .operator entering)
    (stays : entering.releases operator = false)
    (result : order [] (earlier ++ item :: next :: later) = .ok ordered)
    (suffix : ∀ before after, ordered = before ++ item :: after → operand.postorder <:+ before) :
    ∃ other ∈ operand.postorder, other ∈ next :: later := by
  rw [List.map_append, List.map_cons, carried] at placed
  have guarded : Guarded operator (some (.operator operator)) [] (next :: later) := by
    intro expects
    simp [operandExpected_eq, Token.endsOperand, isSuffix] at expects
  obtain ⟨given, base, following, onward, rfl, _⟩ := exists_order_above carried result
  obtain ⟨text, rest, word, tail, parted, alone, rfl, freed, _⟩ :=
    @exists_release τ _ [] base (next :: later) _ _ operator _ carried placed.right guarded onward
  have reads : next ∈ text := by
    cases text with
    | nil =>
        rcases freed rfl next rfl with ends | ⟨other, same, _, releases⟩
        · rw [enters] at ends
          contradiction
        · rw [enters] at same
          obtain rfl := Token.operator.inj same
          rw [stays] at releases
          contradiction
    | cons first others =>
        obtain ⟨rfl, _⟩ := List.cons.inj parted
        exact List.mem_cons_self
  have inWord : next ∈ word := (mem_order_iff alone).mpr ⟨reads, makesValue_eq enters⟩
  obtain ⟨other, member, drawn⟩ := exists_mem_of_suffix
    (suffix (given ++ word) tail (List.append_assoc ..).symm) (List.ne_nil_of_mem inWord)
  refine ⟨other, member, ?_⟩
  rw [parted]
  exact List.mem_append_left rest ((mem_order_iff alone).mp drawn).1

end

/-- In an accepted formula without excess, or without shortage, all of the operand of a prefix operator
stands behind it if and only if none of the prefix operators that follow directly binds more
loosely. -/
theorem operand_of_isPrefix (lexed : vocabulary.lexicon.tokens text = .ok tokens)
    (accepted : Rpn.located vocabulary.lexicon juxtaposition text = .ok rpn)
    (oneSided : excess (withProducts juxtaposition (tokens.map Located.token)) = 0 ∨
      shortage (withProducts juxtaposition (tokens.map Located.token)) = 0)
    (here : withProducts juxtaposition tokens = before ++ anchor :: after)
    (carried : anchor.token = .operator operator) (isPrefix : operator.isPrefix = true) :
    ∃ tree operand, ofRpn rpn = [tree] ∧
      (∀ operands, (node anchor operands).Within tree ↔ operands = [operand]) ∧
      ((∀ item ∈ operand.postorder, anchor.span.stop ≤ item.span.start) ↔
        ∀ other ∈ leadingOperators (after.map Located.token),
          operator.precedence ≤ other.precedence) := by
  obtain ⟨result, balanced⟩ := (located_eq_ok_iff lexed).mp accepted
  have unary := Operator.isUnary_of_isPrefix isPrefix
  have stands := stands_of_isUnary lexed here carried unary
  have placed := placed_of_lexed lexed here
  rw [← withProducts_map_token, here] at oneSided
  rw [here] at result
  have account : excess ((before ++ anchor :: after).map Located.token) =
      shortage ((before ++ anchor :: after).map Located.token) :=
    excess_eq_shortage placed (map_token_of_order result) balanced
  have supplied : shortage ((before ++ anchor :: after).map Located.token) = 0 := by omega
  obtain ⟨tree, operand, decoded, saturated, within, suffix⟩ :=
    exists_operand balanced carried unary (count_of_stands stands carried result)
  refine ⟨tree, operand, decoded, within, fun behind other member => not_lt.mp fun looser => ?_,
    fun tighter item member => ?_⟩
  · obtain ⟨item, drawn, isBefore⟩ := exists_mem_before_of_looser carried isPrefix placed
      ⟨other, member, looser⟩ result saturated suffix
    -- The item ends where the operator begins, and it should begin where the operator ends.
    have left := stands.before item isBefore
    have right := behind item drawn
    have covers := stands.covers
    omega
  · have drawn := operand_subset_of_tighter carried isPrefix placed supplied tighter
      result saturated suffix member
    exact (stands.after item drawn).1

/-- `2 + -~x`, with a prefix operator that binds more tightly than the sign. -/
theorem operand_of_isPrefix_of_tighter :
    excess [.number 2, .operator ⟨"+", 2, true, 500⟩, .operator ⟨"-", 1, false, 5000⟩,
        .operator ⟨"~", 1, false, 6000⟩, .var "x"] = 0 ∧
      ∃ tree operand, ofRpn [⟨Token.number 2, ⟨0, 1⟩⟩, ⟨.var "x", ⟨6, 7⟩⟩,
          ⟨.operator ⟨"~", 1, false, 6000⟩, ⟨5, 6⟩⟩, ⟨.operator ⟨"-", 1, false, 5000⟩, ⟨4, 5⟩⟩,
          ⟨.operator ⟨"+", 2, true, 500⟩, ⟨2, 3⟩⟩] = [tree] ∧
        (∀ operands, (node (⟨.operator ⟨"-", 1, false, 5000⟩, ⟨4, 5⟩⟩ : Located) operands).Within tree ↔
          operands = [operand]) ∧
        ((∀ item ∈ operand.postorder, 5 ≤ item.span.start) ↔
          ∀ other ∈ leadingOperators [.operator ⟨"~", 1, false, 6000⟩, .var "x"],
            5000 ≤ other.precedence) := by
  have lexed : (Vocabulary.lexicon { names := ["x"], operators := [⟨"~", 1, false, 6000⟩] }).tokens
      "2 + -~x" = .ok [⟨.number 2, ⟨0, 1⟩⟩, ⟨.operator ⟨"+", 2, true, 500⟩, ⟨2, 3⟩⟩,
        ⟨.operator ⟨"-", 1, false, 5000⟩, ⟨4, 5⟩⟩, ⟨.operator ⟨"~", 1, false, 6000⟩, ⟨5, 6⟩⟩,
        ⟨.var "x", ⟨6, 7⟩⟩] := by
    decide +kernel
  have accepted : Rpn.located
      (Vocabulary.lexicon { names := ["x"], operators := [⟨"~", 1, false, 6000⟩] }) true "2 + -~x" =
        .ok [⟨.number 2, ⟨0, 1⟩⟩, ⟨.var "x", ⟨6, 7⟩⟩, ⟨.operator ⟨"~", 1, false, 6000⟩, ⟨5, 6⟩⟩,
          ⟨.operator ⟨"-", 1, false, 5000⟩, ⟨4, 5⟩⟩, ⟨.operator ⟨"+", 2, true, 500⟩, ⟨2, 3⟩⟩] := by
    decide +kernel
  have noExcess : excess [.number 2, .operator ⟨"+", 2, true, 500⟩, .operator ⟨"-", 1, false, 5000⟩,
      .operator ⟨"~", 1, false, 6000⟩, .var "x"] = 0 := by
    decide +kernel
  refine ⟨noExcess, ?_⟩
  exact @operand_of_isPrefix { names := ["x"], operators := [⟨"~", 1, false, 6000⟩] } true _ _ _
    [⟨.number 2, ⟨0, 1⟩⟩, ⟨.operator ⟨"+", 2, true, 500⟩, ⟨2, 3⟩⟩] _ _ _ lexed accepted (.inl noExcess)
    rfl rfl rfl

/-- In `2 + -~x`, where the second prefix operator binds more loosely, the sign takes the `2`. -/
theorem operand_of_sign_before_looser :
    (∀ juxtaposition, Rpn.located
        (Vocabulary.lexicon { names := ["x"], operators := [⟨"~", 1, false, 100⟩] }) juxtaposition
          "2 + -~x" =
        .ok [⟨.number 2, ⟨0, 1⟩⟩, ⟨.operator ⟨"-", 1, false, 5000⟩, ⟨4, 5⟩⟩, ⟨.var "x", ⟨6, 7⟩⟩,
          ⟨.operator ⟨"~", 1, false, 100⟩, ⟨5, 6⟩⟩, ⟨.operator ⟨"+", 2, true, 500⟩, ⟨2, 3⟩⟩]) ∧
      ∃ tree, ofRpn [⟨Token.number 2, ⟨0, 1⟩⟩, ⟨.operator ⟨"-", 1, false, 5000⟩, ⟨4, 5⟩⟩,
          ⟨.var "x", ⟨6, 7⟩⟩, ⟨.operator ⟨"~", 1, false, 100⟩, ⟨5, 6⟩⟩,
          ⟨.operator ⟨"+", 2, true, 500⟩, ⟨2, 3⟩⟩] = [tree] ∧
        (node (⟨.operator ⟨"-", 1, false, 5000⟩, ⟨4, 5⟩⟩ : Located)
          [node ⟨.number 2, ⟨0, 1⟩⟩ []]).Within tree := by
  refine ⟨by decide +kernel, _, rfl, ?_⟩
  exact .operand List.mem_cons_self .self

theorem beginsOperand_eq_false_of_suffix
    (here : withProducts juxtaposition tokens = before ++ anchor :: after)
    (carried : anchor.token = .operator operator) (isSuffix : operator.isSuffix = true)
    (apart : juxtaposition = true ∨ ∀ next ∈ after.head?, next.token.beginsOperand = false) :
    ∀ next ∈ after.head?, next.token.beginsOperand = false := by
  refine apart.elim (fun always next isNext => ?_) id
  subst always
  obtain ⟨later, rfl⟩ := List.head?_eq_some_iff.mp isNext
  have separate := insertProducts_apart (tokens.map Located.token)
  rw [← insertProducts_map_token, show insertProducts tokens = before ++ anchor :: next :: later from here,
    List.map_append, List.map_cons, List.map_cons, carried] at separate
  have neighbours := (List.isChain_cons_cons.mp separate.right_of_append).1
  simpa [Token.multipliesWith_eq, Token.endsOperand, isSuffix, Token.isNumber] using neighbours

/-- In an accepted formula all of the operand of a postfix operator stands before it if and only if an
operator that follows directly binds more loosely, or as strongly and groups to the left; provided
that no operand follows directly, and if neighbours multiply none does. -/
theorem operand_of_isSuffix (lexed : vocabulary.lexicon.tokens text = .ok tokens)
    (accepted : Rpn.located vocabulary.lexicon juxtaposition text = .ok rpn)
    (here : withProducts juxtaposition tokens = before ++ anchor :: after)
    (carried : anchor.token = .operator operator) (isSuffix : operator.isSuffix = true)
    (apart : juxtaposition = true ∨ ∀ next ∈ after.head?, next.token.beginsOperand = false) :
    ∃ tree operand, ofRpn rpn = [tree] ∧
      (∀ operands, (node anchor operands).Within tree ↔ operands = [operand]) ∧
      ((∀ item ∈ operand.postorder, item.span.stop ≤ anchor.span.start) ↔
        ∀ next ∈ after.head?, ∀ entering, next.token = .operator entering →
          entering.precedence < operator.precedence ∨
            entering.leftAssociative = true ∧ entering.precedence = operator.precedence) := by
  obtain ⟨result, balanced⟩ := (located_eq_ok_iff lexed).mp accepted
  have unary : operator.isUnary = true := (Bool.and_eq_true_iff.mp isSuffix).1
  have stands := stands_of_isUnary lexed here carried unary
  have separate := beginsOperand_eq_false_of_suffix here carried isSuffix apart
  have placed := placed_of_lexed lexed here
  rw [here] at result
  obtain ⟨tree, operand, decoded, saturated, within, suffix⟩ :=
    exists_operand balanced carried unary (count_of_stands stands carried result)
  refine ⟨tree, operand, decoded, within, fun before next isNext entering enters => ?_,
    fun looser item member => ?_⟩
  · rw [← Operator.releases_iff_of_isUnary unary]
    by_contra stays
    obtain ⟨later, rfl⟩ := List.head?_eq_some_iff.mp isNext
    obtain ⟨item, drawn, isAfter⟩ := exists_mem_after_of_kept carried isSuffix placed enters
      (Bool.eq_false_iff.mpr stays) result suffix
    have left := before item drawn
    have right := stands.after item isAfter
    have covers := stands.covers
    omega
  · have frees : ∀ next ∈ after.head?, Frees operator [] next := by
      intro next isNext
      have noOperand := separate next isNext
      cases token : next.token with
      | operator entering =>
          have releases := (Operator.releases_iff_of_isUnary unary).mpr
            (looser next isNext entering token)
          exact .inr ⟨entering, token, by simp, releases⟩
      | closeParen => exact .inl (by rw [Located.token_eq, token]; rfl)
      | comma => exact .inl (by rw [Located.token_eq, token]; rfl)
      | number value => simp [token, Token.beginsOperand] at noOperand
      | var name => simp [token, Token.beginsOperand] at noOperand
      | function definition => simp [token, Token.beginsOperand] at noOperand
      | openParen => simp [token, Token.beginsOperand] at noOperand
    exact (stands.before item (operand_subset_of_freed carried frees result suffix member)).2

/-- `2! * 3`, with a postfix operator that binds more tightly than the product. -/
theorem operand_of_isSuffix_before_product :
    (true = true ∨ ∀ next ∈ [(⟨.operator .times, ⟨3, 4⟩⟩ : Located), ⟨.number 3, ⟨5, 6⟩⟩].head?,
        next.token.beginsOperand = false) ∧
      ∃ tree operand, ofRpn [⟨Token.number 2, ⟨0, 1⟩⟩, ⟨.operator ⟨"!", 1, true, 20000⟩, ⟨1, 2⟩⟩,
          ⟨.number 3, ⟨5, 6⟩⟩, ⟨.operator .times, ⟨3, 4⟩⟩] = [tree] ∧
        (∀ operands, (node (⟨.operator ⟨"!", 1, true, 20000⟩, ⟨1, 2⟩⟩ : Located) operands).Within tree ↔
          operands = [operand]) ∧
        ((∀ item ∈ operand.postorder, item.span.stop ≤ 1) ↔
          ∀ next ∈ [(⟨.operator .times, ⟨3, 4⟩⟩ : Located), ⟨.number 3, ⟨5, 6⟩⟩].head?,
            ∀ entering, next.token = .operator entering → entering.precedence < 20000 ∨
              entering.leftAssociative = true ∧ entering.precedence = 20000) := by
  have lexed : (Vocabulary.lexicon { operators := [⟨"!", 1, true, 20000⟩] }).tokens "2! * 3" =
      .ok [⟨.number 2, ⟨0, 1⟩⟩, ⟨.operator ⟨"!", 1, true, 20000⟩, ⟨1, 2⟩⟩,
        ⟨.operator .times, ⟨3, 4⟩⟩, ⟨.number 3, ⟨5, 6⟩⟩] := by
    decide +kernel
  have accepted : Rpn.located (Vocabulary.lexicon { operators := [⟨"!", 1, true, 20000⟩] }) true
      "2! * 3" = .ok [⟨.number 2, ⟨0, 1⟩⟩, ⟨.operator ⟨"!", 1, true, 20000⟩, ⟨1, 2⟩⟩,
        ⟨.number 3, ⟨5, 6⟩⟩, ⟨.operator .times, ⟨3, 4⟩⟩] := by
    decide +kernel
  refine ⟨.inl rfl, ?_⟩
  exact @operand_of_isSuffix { operators := [⟨"!", 1, true, 20000⟩] } true _ _ _ [⟨.number 2, ⟨0, 1⟩⟩] _ _
    _ lexed accepted rfl rfl rfl (.inl rfl)

/-- In `2! * 3`, where the postfix operator binds more loosely than the product, it takes the product,
with the `3` that stands behind it. -/
theorem operand_of_looser_suffix :
    (∀ juxtaposition, Rpn.located (Vocabulary.lexicon { operators := [⟨"!", 1, true, 100⟩] })
        juxtaposition "2! * 3" =
        .ok [⟨.number 2, ⟨0, 1⟩⟩, ⟨.number 3, ⟨5, 6⟩⟩, ⟨.operator .times, ⟨3, 4⟩⟩,
          ⟨.operator ⟨"!", 1, true, 100⟩, ⟨1, 2⟩⟩]) ∧
      ∃ tree, ofRpn [⟨Token.number 2, ⟨0, 1⟩⟩, ⟨.number 3, ⟨5, 6⟩⟩, ⟨.operator .times, ⟨3, 4⟩⟩,
          ⟨.operator ⟨"!", 1, true, 100⟩, ⟨1, 2⟩⟩] = [tree] ∧
        (node (⟨.operator ⟨"!", 1, true, 100⟩, ⟨1, 2⟩⟩ : Located)
          [node ⟨.operator .times, ⟨3, 4⟩⟩
            [node ⟨.number 2, ⟨0, 1⟩⟩ [], node ⟨.number 3, ⟨5, 6⟩⟩ []]]).Within tree := by
  exact ⟨by decide +kernel, _, rfl, .self⟩

end Rpn

end Formula
