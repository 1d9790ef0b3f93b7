import Formula.Proofs.Rpn.Account

namespace Formula

/-! The account of a part of a formula.

A part that stands behind an operator, where an operand is expected, and goes on to the end of its
place or to an operator that takes it, fits by itself. If no operand is short in the formula, none is
short in the part, so the part makes a value.
-/

namespace Placed

variable {before other : Option Token} {tokens first rest : List Token} {token : Token}

theorem congr (placed : Placed before tokens)
    (same : operandExpected before = operandExpected other) : Placed other tokens := by
  cases placed with
  | nil => exact .nil
  | cons fits onward => exact .cons ⟨fun operator is => (fits.1 operator is).trans same, fits.2⟩ onward

theorem left (placed : Placed before (first ++ rest)) (apart : rest.head? ≠ some .openParen) :
    Placed before first := by
  induction first generalizing before with
  | nil => exact .nil
  | cons token others ih =>
      refine .cons ⟨placed.head_cons.1, fun isFunction => ?_⟩ (ih placed.tail)
      have next := placed.head_cons.2 isFunction
      cases others with
      | nil => exact absurd next apart
      | cons => exact next

theorem right (placed : Placed before (first ++ token :: rest)) : Placed (some token) rest := by
  induction first generalizing before with
  | nil => exact placed.tail
  | cons _ _ ih => exact ih placed.tail

end Placed

namespace Rpn

variable {before other : Option Token} {text rest word : List Token} {operator : Operator}

/-- The place for an operand ends here: without tokens, with one that ends it, or with an operator
that takes what is in it. -/
def EndsPart (rest : List Token) : Prop :=
  ∀ next ∈ rest.head?, next.endsPlace = true ∨
    ∃ entering, next = .operator entering ∧ entering.isPrefix = false

theorem EndsPart.head?_ne_openParen (ends : EndsPart rest) : rest.head? ≠ some .openParen := by
  intro opens
  rcases ends _ opens with mark | ⟨entering, same, _⟩
  · contradiction
  · contradiction

/-! Places -/

theorem unfilled_congr (same : operandExpected before = operandExpected other)
    (tokens : List Token) : unfilled before tokens = unfilled other tokens := by
  fun_cases unfilled before tokens with
  | case1 => rw [unfilled, same]
  | case2 function rest => rw [unfilled]
  | case3 token rest _ notCall =>
      rw [unfilled, same]
      exact notCall

theorem unfilled_le_of_operator (operator : Operator) (before : Option Token)
    (earlier rest : List Token) :
    unfilled (some (.operator operator)) rest ≤
      unfilled before (earlier ++ .operator operator :: rest) := by
  generalize same : earlier ++ .operator operator :: rest = tokens
  fun_induction unfilled before tokens generalizing earlier with
  | case1 before => simp at same
  | case2 before function others ih =>
      rcases earlier with _ | ⟨first, _ | ⟨second, _ | ⟨third, earlier⟩⟩⟩
      · cases (List.cons.inj same).1
      · cases (List.cons.inj (List.cons.inj same).2).1
      · cases (List.cons.inj (List.cons.inj (List.cons.inj same).2).2).1
      · exact ih earlier (List.cons.inj (List.cons.inj (List.cons.inj same).2).2).2
  | case3 before token others notCall ih =>
      cases earlier with
      | nil =>
          obtain ⟨rfl, rfl⟩ := List.cons.inj same
          exact Nat.le_add_left _ _
      | cons first earlier => exact (ih earlier (List.cons.inj same).2).trans (Nat.le_add_left _ _)

theorem EndsPart.operandExpected_le (ends : EndsPart rest) (placed : Placed before rest) :
    (operandExpected before).toNat ≤ unfilled before rest := by
  cases rest with
  | nil => exact le_refl _
  | cons next others =>
      rcases ends next rfl with mark | ⟨entering, rfl, takes⟩
      · cases next <;> first | contradiction | simp [unfilled, Token.endsPlace]
      · have filled := placed.head_cons.1 entering rfl
        rw [← filled, takes]
        exact Nat.zero_le _

theorem Closes.exists_tail {depth : Nat} {token : Token} (closes : Closes depth (token :: rest)) :
    ∃ remaining, Closes remaining rest := by
  cases closes with
  | opening further => exact ⟨_, further⟩
  | closing further => exact ⟨_, further⟩
  | other _ _ further => exact ⟨_, further⟩

theorem Closes.ne_openParen {depth : Nat} (closes : Closes depth text) :
    text ≠ [.openParen] := by
  rintro rfl
  cases closes with
  | opening further => cases further
  | other opens _ _ => contradiction

/-- What is behind a part with closed parentheses fills none of its places. -/
theorem unfilled_le_append {depth : Nat} (closes : Closes depth text)
    (placed : Placed before (text ++ rest)) (ends : EndsPart rest) :
    unfilled before text ≤ unfilled before (text ++ rest) := by
  fun_induction unfilled before text generalizing depth with
  | case1 before => exact ends.operandExpected_le placed
  | case2 before function others ih =>
      obtain ⟨_, further⟩ := closes.exists_tail
      obtain ⟨_, further⟩ := further.exists_tail
      obtain ⟨_, further⟩ := further.exists_tail
      exact ih further placed.tail.tail.tail
  | case3 before token others notCall ih =>
      obtain ⟨_, further⟩ := closes.exists_tail
      have inner := ih further placed.tail
      rw [List.cons_append, unfilled]
      · omega
      · rintro function later rfl same
        -- The parentheses of the call would have to be divided between the part and the rest.
        rcases others with _ | ⟨first, _ | ⟨second, others⟩⟩
        · exact ends.head?_ne_openParen (by rw [List.nil_append] at same; rw [same]; rfl)
        · exact further.ne_openParen (by rw [(List.cons.inj same).1])
        · obtain ⟨opens, closes, _⟩ : first = .openParen ∧ second = .closeParen ∧ _ := by
            simpa using same
          exact notCall function others rfl (by rw [opens, closes])

/-! What functions and operators take -/

theorem wanting_le_append (earlier rest : List Token) :
    wanting rest ≤ wanting (earlier ++ rest) := by
  induction earlier with
  | nil => exact le_refl _
  | cons first others ih =>
      rw [List.cons_append, wanting]
      omega

theorem EachCalls.tail {token : Token} (calls : EachCalls (token :: rest)) : EachCalls rest :=
  fun before function after same => calls (token :: before) function after (by rw [same]; rfl)

theorem argumentsGiven_append (begins : BeginsArguments text) (rest : List Token) :
    argumentsGiven (text ++ rest) = argumentsGiven text := by
  obtain ⟨arguments, after, apart, each, rfl⟩ := begins
  rw [argumentsGiven_eq apart each, List.cons_append, List.append_assoc, List.cons_append,
    argumentsGiven_eq apart each]

/-- What a part with its calls takes does not depend on what is behind it. -/
theorem wanting_append (calls : EachCalls text) (rest : List Token) :
    wanting (text ++ rest) = wanting text + wanting rest := by
  induction text with
  | nil => rw [wanting, List.nil_append, Nat.zero_add]
  | cons token others ih =>
      have same : takenBeyond (others ++ rest) token = takenBeyond others token := by
        cases token with
        | function definition =>
            rw [takenBeyond, takenBeyond, argumentsGiven_append (calls [] definition others rfl)]
        | _ => rfl
      rw [List.cons_append, wanting, wanting, same, ih calls.tail, Nat.add_assoc]

/-! Values -/

/-- If a formula is short of no operand, a part of it that stands behind an operator and fills its
place makes a value at least. -/
theorem one_le_surplus_of_part {earlier : List Token}
    (placed : Placed none (earlier ++ .operator operator :: (text ++ rest)))
    (expects : operandExpected (some (.operator operator)) = true) (ends : EndsPart rest)
    (supplied : shortage (earlier ++ .operator operator :: (text ++ rest)) = 0)
    (result : order [] text = .ok word) : 1 ≤ surplus word := by
  have whole : Placed none (text ++ rest) := placed.right.congr expects
  have alone : Placed none text := whole.left ends.head?_ne_openParen
  have closes : Closes 0 text := by simpa using (run_of_order result).closes
  have places := (unfilled_le_append closes whole ends).trans_eq
    (@unfilled_congr none (some (.operator operator)) expects.symm (text ++ rest))
  have outer := unfilled_le_of_operator operator none earlier (text ++ rest)
  have taken := wanting_append (nested_of_order alone result).2 rest
  have further := wanting_le_append (earlier ++ [.operator operator]) (text ++ rest)
  rw [List.append_assoc, List.singleton_append] at further
  have account := surplus_add_shortage alone result
  simp only [shortage] at supplied account
  omega

end Rpn

end Formula
