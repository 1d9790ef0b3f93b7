import Formula.Proofs.Token.Locality

namespace Formula

open Character

/-! Products that are written out.

A product that is not written stands where the second of two neighbours begins. If ` * ` is written
there, then the text is read as the same tokens, with the product between the two. For what a token
is read as depends on the character behind it at most, and a character that would have ended up in it
is no longer there.
-/

/-- The places where products stand that are not written. -/
def productPlaces (tokens : List Located) : List Nat :=
  ((insertProducts tokens).filter (!·.span.covers)).map (·.span.start)

/-- The text, whose first character is at a position, with ` * ` written at the places. -/
def writeProducts (places : List Nat) : (position : Nat) → List Char → List Char
  | _, [] => []
  | position, first :: rest =>
      if position ∈ places then
        ' ' :: '*' :: ' ' :: first :: writeProducts places (position + 1) rest
      else first :: writeProducts places (position + 1) rest

/-- Where the tokens begin that the one before them multiplies. -/
def factorStarts : (before : Option Token) → List Located → List Nat
  | _, [] => []
  | before, item :: rest =>
      if before.any (·.multipliesWith item.token) then
        item.span.start :: factorStarts (some item.token) rest
      else factorStarts (some item.token) rest

/-- The tokens with a product before each that the one before it multiplies. -/
def factored : (before : Option Token) → List Token → List Token
  | _, [] => []
  | before, token :: rest =>
      if before.any (·.multipliesWith token) then
        .operator .times :: token :: factored (some token) rest
      else token :: factored (some token) rest

theorem insertProducts_eq_factored (tokens : List Token) :
    insertProducts tokens = factored none tokens := by
  have onward (left : Token) (rest : List Token) :
      insertProducts (left :: rest) = left :: factored (some left) rest := by
    induction rest generalizing left with
    | nil => rfl
    | cons right others ih =>
        rw [insertProducts_cons_cons, ih right, factored, Option.any_some]
        split <;> rfl
  cases tokens with
  | nil => rfl
  | cons first rest => exact onward first rest

theorem productPlaces_eq {tokens : List Located}
    (covers : ∀ item ∈ tokens, item.span.start < item.span.stop) :
    productPlaces tokens = factorStarts none tokens := by
  have onward (left : Located) (rest : List Located)
      (covers : ∀ item ∈ left :: rest, item.span.start < item.span.stop) :
      productPlaces (left :: rest) = factorStarts (some left.token) rest := by
    induction rest generalizing left with
    | nil => simp [productPlaces, insertProducts, factorStarts, Span.covers, covers left (by simp)]
    | cons right others ih =>
        have later := ih right fun item member => covers item (List.mem_cons_of_mem _ member)
        simp only [productPlaces] at later ⊢
        have visible := covers left (by simp)
        simp only [insertProducts, Located.token_eq, factorStarts, Option.any_some]
        split
        · simp [Lexical.product, Span.covers, visible, ← later]
        · simp [Span.covers, visible, ← later]
  cases tokens with
  | nil => rfl
  | cons first rest => exact onward first rest covers

theorem exists_of_mem_factorStarts {place : Nat} {before : Option Token} {tokens : List Located}
    (member : place ∈ factorStarts before tokens) : ∃ item ∈ tokens, item.span.start = place := by
  induction tokens generalizing before with
  | nil => simp [factorStarts] at member
  | cons first rest ih =>
      simp only [factorStarts] at member
      split at member
      · rcases List.mem_cons.mp member with rfl | further
        · exact ⟨first, by simp, rfl⟩
        · obtain ⟨item, isLater, same⟩ := ih further
          exact ⟨item, by simp [isLater], same⟩
      · obtain ⟨item, isLater, same⟩ := ih member
        exact ⟨item, by simp [isLater], same⟩

theorem le_of_mem_factorStarts {lexicon : Lexicon} {covered position place : Nat}
    {before left : Option Token} {text : List Char} {tokens : List Located}
    (scanned : lexicon.scan covered position before text = .ok tokens)
    (member : place ∈ factorStarts left tokens) : position + covered ≤ place := by
  obtain ⟨item, isToken, rfl⟩ := exists_of_mem_factorStarts member
  exact ((Lexicon.scan_extent scanned).1 item isToken).1

theorem ends_and_begins_of_multiplies {before : Option Token} {token : Token}
    (multiplies : before.any (·.multipliesWith token) = true) :
    operandExpected before = false ∧ token.beginsOperand = true := by
  cases before with
  | none => contradiction
  | some left =>
      simp only [Option.any_some, Token.multipliesWith_eq, Bool.and_eq_true] at multiplies
      simp [operandExpected_eq, multiplies.1.1, multiplies.1.2]

section

variable {places : List Nat} {position : Nat} {part after text : List Char}

theorem writeProducts_append
    (apart : ∀ place, position ≤ place → place < position + part.length → place ∉ places) :
    writeProducts places position (part ++ after) =
      part ++ writeProducts places (position + part.length) after := by
  induction part generalizing position with
  | nil => rfl
  | cons first rest ih =>
      have here : position ∉ places := apart position (le_refl _) (by simp)
      have later := @ih (position + 1) fun place from_ below => apart place (by omega) (by
        rw [List.length_cons]
        omega)
      rw [List.cons_append, writeProducts, if_neg here, later, List.length_cons, Nat.add_right_comm,
        Nat.add_assoc, List.cons_append]

theorem head?_writeProducts {next : Char}
    (isNext : next ∈ (writeProducts places position text).head?) :
    next = ' ' ∨ position ∉ places ∧ text.head? = some next := by
  cases text with
  | nil => simp [writeProducts] at isNext
  | cons first rest =>
      simp only [writeProducts] at isNext
      split at isNext
      case isTrue => exact .inl (by simpa using isNext.symm)
      case isFalse apart => exact .inr ⟨apart, isNext⟩

theorem mem_writeProducts {character : Char} (member : character ∈ text) (places : List Nat)
    (position : Nat) : character ∈ writeProducts places position text := by
  induction text generalizing position with
  | nil => simp at member
  | cons first rest ih =>
      have further := fun isLater => ih isLater (position + 1)
      simp only [writeProducts]
      split <;> simp only [List.mem_cons] at member ⊢ <;> tauto

end

/-- From a position on the places are those where the tokens are multiplied by the one before. -/
def Meant (places : List Nat) (position : Nat) (before : Option Token) (tokens : List Located) :
    Prop :=
  ∀ place, position ≤ place → (place ∈ places ↔ place ∈ factorStarts before tokens)

namespace Meant

variable {lexicon : Lexicon} {places : List Nat} {covered position stop : Nat}
variable {before : Option Token} {token : Token} {text : List Char} {tokens : List Located}

theorem notMem (meant : Meant places position before tokens)
    (scanned : lexicon.scan covered position before text = .ok tokens) {place : Nat}
    (above : position ≤ place) (below : place < position + covered) : place ∉ places := by
  intro member
  have start := le_of_mem_factorStarts scanned ((meant place above).mp member)
  omega

theorem mono (meant : Meant places position before tokens) (count : Nat) :
    Meant places (position + count) before tokens :=
  fun place above => meant place (by omega)

theorem passed (meant : Meant places position before tokens)
    (onward : lexicon.scan covered (position + 1) before text = .ok tokens) : position ∉ places := by
  intro member
  have start := le_of_mem_factorStarts onward ((meant position (le_refl _)).mp member)
  omega

theorem read (meant : Meant places position before (⟨token, ⟨position, stop⟩⟩ :: tokens))
    (onward : lexicon.scan covered (position + 1) (some token) text = .ok tokens) :
    (position ∈ places ↔ before.any (·.multipliesWith token) = true) ∧
      Meant places (position + 1) (some token) tokens := by
  have later : position ∉ factorStarts (some token) tokens := by
    intro member
    have start := le_of_mem_factorStarts onward member
    omega
  constructor
  · rw [meant position (le_refl _), factorStarts]
    split
    case isTrue multiplies => simpa using multiplies
    case isFalse apart => simp [later, apart]
  · intro place above
    rw [meant place (by omega), factorStarts]
    split
    · have other : place ≠ position := by omega
      simp [other]
    · rfl

end Meant

namespace Lexicon

variable {lexicon : Lexicon} {places : List Nat} {covered position start length : Nat}
variable {before : Option Token} {token : Token} {first : Char} {text rest after : List Char}
variable {tokens later : List Located}

theorem exists_lexeme_of_visible (visible : isBlank first = false)
    (scanned : lexicon.scan 0 position before (first :: rest) = .ok tokens) :
    ∃ token length later, lexicon.lexeme before position first rest = .ok (token, length) ∧
      lexicon.scan (length - 1) (position + 1) (some token) rest = .ok later ∧
      tokens = ⟨token, ⟨position, position + length⟩⟩ :: later := by
  rcases scan_cons_cases scanned with
    ⟨_, overlap | ⟨_, blank, _⟩, _⟩ | ⟨_, _, token, length, later, read, onward, rfl⟩
  · contradiction
  · rw [visible] at blank
    contradiction
  · exact ⟨token, length, later, read, onward, rfl⟩

theorem scan_cons_of_lexeme (visible : isBlank first = false)
    (read : lexicon.lexeme before start first rest = .ok (token, length))
    (onward : lexicon.scan (length - 1) (start + 1) (some token) rest = .ok later) :
    lexicon.scan 0 start before (first :: rest) =
      .ok (⟨token, ⟨start, start + length⟩⟩ :: later) := by
  simp [scan, visible, read, onward, Except.map]

theorem beginsOperand_of_isWordPart (isPart : isWordPart first = true)
    (read : lexicon.lexeme before start first rest = .ok (token, length)) :
    token.beginsOperand = true ∧ token ≠ .openParen ∧
      (isWordStart first = true → token.isNumber = false) := by
  cases starts : isWordStart first with
  | true =>
      rw [lexeme_of_isWordStart _ _ _ _ starts] at read
      obtain ⟨meaning, _, rfl, _⟩ := word_cases read
      cases meaning <;> simp [Word.token, Token.beginsOperand, Token.isNumber]
  | false =>
  cases body : Decimal.isLiteralBody first with
  | true =>
      rw [lexeme_of_isLiteralBody _ _ _ _ body] at read
      obtain ⟨_, _, rfl, _⟩ := number_cases read
      simp [Token.beginsOperand]
  | false =>
      have noMark : first ∉ ['(', ')', ','] := by
        intro isMark
        simp only [List.mem_cons, List.not_mem_nil, or_false] at isMark
        rcases isMark with rfl | rfl | rfl <;> exact absurd isPart (by decide)
      have noOperator : isOperatorChar first = false := by
        rw [Bool.eq_false_iff]
        intro isOperator
        rw [isWordPart_eq_false_of_isOperatorChar isOperator] at isPart
        contradiction
      simp only [List.mem_cons, List.not_mem_nil, or_false, not_or] at noMark
      simp [lexeme, body, starts, noOperator, noMark] at read

theorem exists_of_isWordPart (isPart : isWordPart first = true)
    (scanned : lexicon.scan 0 position before (first :: rest) = .ok tokens) :
    ∃ token stop later, tokens = ⟨token, ⟨position, stop⟩⟩ :: later ∧
      (token.beginsOperand = true ∧ token ≠ .openParen ∧
        (isWordStart first = true → token.isNumber = false)) ∧
      ∃ covered, lexicon.scan covered (position + 1) (some token) rest = .ok later := by
  have visible : isBlank first = false := by
    rw [Bool.eq_false_iff]
    intro blank
    rw [isWordPart_eq_false_of_isBlank blank] at isPart
    contradiction
  obtain ⟨token, length, later, read, onward, rfl⟩ := exists_lexeme_of_visible visible scanned
  exact ⟨token, _, later, rfl, beginsOperand_of_isWordPart isPart read, _, onward⟩

/-- A word directly behind an operand is multiplied by it, and so is a numeral if the operand is not
a number. -/
theorem position_mem_of_isWordPart (meant : Meant places position (some token) later)
    (scanned : lexicon.scan 0 position (some token) (first :: rest) = .ok later)
    (ends : token.endsOperand = true) (isPart : isWordPart first = true)
    (apart : token.isNumber = false ∨ isWordStart first = true) : position ∈ places := by
  obtain ⟨next, stop, further, rfl, ⟨begins, _, noNumber⟩, _, onward⟩ :=
    exists_of_isWordPart isPart scanned
  refine (meant.read onward).1.mpr ?_
  rw [Option.any_some, Token.multipliesWith_eq, ends, begins]
  rcases apart with first | second
  · simp [first]
  · simp [noNumber second]

theorem takeWhile_writeProducts (meant : Meant places position before tokens)
    (scanned : lexicon.scan covered position before text = .ok tokens) :
    (writeProducts places position text).takeWhile isOperatorChar =
      text.takeWhile isOperatorChar := by
  induction text generalizing covered position before tokens with
  | nil => rfl
  | cons first rest ih =>
      have unchanged {later : List Located} {token : Option Token} (apart : position ∉ places)
          (meant : Meant places (position + 1) token later) {covered : Nat}
          (onward : lexicon.scan covered (position + 1) token rest = .ok later) :
          (writeProducts places position (first :: rest)).takeWhile isOperatorChar =
            (first :: rest).takeWhile isOperatorChar := by
        rw [writeProducts, if_neg apart, List.takeWhile_cons, List.takeWhile_cons, ih meant onward]
      rcases scan_cons_cases scanned with
        ⟨remaining, _, onward⟩ | ⟨_, _, token, length, later, read, onward, rfl⟩
      · exact unchanged (meant.passed onward) (meant.mono 1) onward
      · by_cases place : position ∈ places
        · have noOperator : isOperatorChar first = false := by
            rw [Bool.eq_false_iff]
            intro isOperator
            rw [lexeme_of_isOperatorChar _ _ _ _ isOperator] at read
            obtain ⟨operator, _, rfl⟩ := symbol_cases read
            have multiplies := (meant.read onward).1.mp place
            simp [Token.multipliesWith] at multiplies
          rw [writeProducts, if_pos place, List.takeWhile_cons_of_neg (by decide),
            List.takeWhile_cons_of_neg (by simp [noOperator])]
        · exact unchanged place (meant.read onward).2 onward

theorem beginsCall_writeProducts {function : FunctionSymbol}
    (meant : Meant places position (some (.function function)) tokens)
    (scanned : lexicon.scan 0 position (some (.function function)) text = .ok tokens)
    (begins : beginsCall text = true) : beginsCall (writeProducts places position text) = true := by
  induction text generalizing position tokens with
  | nil => exact begins
  | cons first rest ih =>
      cases blank : isBlank first with
      | true =>
          have onward : lexicon.scan 0 (position + 1) (some (.function function)) rest = .ok tokens := by
            simpa [scan, blank] using scanned
          rw [beginsCall_cons_of_isBlank blank] at begins
          rw [writeProducts, if_neg (meant.passed onward), beginsCall_cons_of_isBlank blank]
          exact ih (meant.mono 1) onward begins
      | false =>
          obtain rfl : first = '(' := by simpa [beginsCall, blank] using begins
          obtain ⟨token, length, later, _, onward, rfl⟩ := exists_lexeme_of_visible blank scanned
          have apart : position ∉ places := fun place => by
            have multiplies := (meant.read onward).1.mp place
            simp [Token.multipliesWith, Token.endsOperand] at multiplies
          rw [writeProducts, if_neg apart]
          rfl

theorem endsAlike_writeProducts (meant : Meant places position (some token) later)
    (scanned : lexicon.scan 0 position (some token) after = .ok later)
    (calls : token.isFunction = true → beginsCall after = true) :
    token.EndsAlike after (writeProducts places position after) where
  number isNumber := by
    have ends : token.endsOperand = true := by cases token <;> first | rfl | contradiction
    have noMark : ∀ next ∈ (writeProducts places position after).head?,
        next ≠ 'e' ∧ next ≠ 'E' := by
      intro next isNext
      rcases head?_writeProducts isNext with rfl | ⟨apart, same⟩
      · decide
      · obtain ⟨rest, rfl⟩ := List.head?_eq_some_iff.mp same
        have noWord : isWordStart next = false := Bool.eq_false_iff.mpr fun starts =>
          apart (position_mem_of_isWordPart meant scanned ends (isWordPart_of_isWordStart starts)
            (.inr starts))
        constructor <;> rintro rfl <;> exact absurd noWord (by decide)
    refine ⟨fun next isNext => ?_, fun _ => Decimal.exponentPart_eq_nil noMark⟩
    exact (head?_writeProducts isNext).imp (fun blank => by rw [blank]; decide) And.right
  word isWord := by
    have ends : ∀ next ∈ (writeProducts places position after).head?, isWordPart next = false := by
      intro next isNext
      rcases head?_writeProducts isNext with rfl | ⟨apart, same⟩
      · decide
      · obtain ⟨rest, rfl⟩ := List.head?_eq_some_iff.mp same
        refine Bool.eq_false_iff.mpr fun isPart => ?_
        cases token with
        | var name => exact apart (position_mem_of_isWordPart meant scanned rfl isPart (.inl rfl))
        | function definition =>
            obtain ⟨other, _, _, rfl, ⟨_, noOpening, _⟩, _⟩ := exists_of_isWordPart isPart scanned
            have begins : beginsCall ((next :: rest).drop 0) = true := calls rfl
            exact noOpening (Option.some.inj (scan_head_of_beginsCall begins scanned))
        | _ => contradiction
    obtain ⟨nothing, _⟩ := @takeWhile_append_of_head Char isWordPart [] _ (by simp) ends
    rw [← List.nil_append (writeProducts places position after), nothing]
    exact List.nil_prefix
  call isFunction := by
    cases token with
    | function definition => exact beginsCall_writeProducts meant scanned (calls rfl)
    | _ => contradiction
  symbol _ _ := by rw [takeWhile_writeProducts meant scanned]

theorem scan_product (explicit : lexicon.operator? false "*" = some .times)
    (ends : operandExpected before = false) (start : Nat) (text : List Char) :
    lexicon.scan 0 start before (' ' :: '*' :: ' ' :: text) =
      (lexicon.scan 0 (start + 3) (some (.operator .times)) text).map
        (⟨.operator .times, ⟨start + 1, start + 2⟩⟩ :: ·) := by
  have known : lexicon.operator? (operandExpected before) (String.ofList ['*']) = some .times := by
    rw [ends]
    exact explicit
  have read : lexicon.lexeme before (start + 1) '*' (' ' :: text) = .ok (.operator .times, 1) := by
    rw [lexeme_of_isOperatorChar _ _ _ _ (by decide), symbol]
    have run : ('*' :: ' ' :: text).takeWhile isOperatorChar = ['*'] := rfl
    rw [run, longestKnown_of_known (by simp) known]
    rfl
  have blank : isBlank ' ' = true := by decide
  have visible : isBlank '*' = false := by decide
  simp only [scan, blank, visible, read, Bool.false_eq_true, ↓reduceIte, Nat.sub_self]

theorem lexeme_writeProducts {other : Option Token}
    (read : lexicon.lexeme before position first rest = .ok (token, length))
    (onward : lexicon.scan (length - 1) (position + 1) (some token) rest = .ok later)
    (meant : Meant places (position + 1) (some token) later)
    (expects : operandExpected other = operandExpected before ∨ token.beginsOperand = true)
    (start : Nat) :
    lexicon.lexeme other start first (writeProducts places (position + 1) rest) =
      .ok (token, length) := by
  obtain ⟨part, after, rfl, rfl⟩ := exists_part_of_lexeme read
  have unchanged := @writeProducts_append places (position + 1) part after fun place above below =>
    meant.notMem onward above below
  have reached : lexicon.scan 0 (position + 1 + part.length) (some token) after = .ok later := by
    rw [← scan_covered]
    exact onward
  have alike := endsAlike_writeProducts (meant.mono part.length) reached fun isFunction => by
    have begins := beginsCall_of_lexeme isFunction read
    rwa [Nat.add_sub_cancel, List.drop_left] at begins
  rw [unchanged]
  exact lexeme_append read alike expects start

/-- Where products are written at the places that are meant, a text is read with the products. -/
theorem scan_writeProducts (explicit : lexicon.operator? false "*" = some .times)
    (meant : Meant places position before tokens)
    (scanned : lexicon.scan covered position before text = .ok tokens) (start : Nat) :
    ∃ located, lexicon.scan covered start before (writeProducts places position text) = .ok located ∧
      located.map Located.token = factored before (tokens.map Located.token) := by
  -- `start` is where the character stands in the written text, `position` where it stood.
  induction text generalizing covered position before tokens start with
  | nil =>
      obtain rfl : [] = tokens := by simpa [scan] using scanned
      exact ⟨[], rfl, rfl⟩
  | cons first rest ih =>
      rcases scan_cons_cases scanned with
        ⟨remaining, passed, onward⟩ | ⟨rfl, visible, token, length, later, read, onward, rfl⟩
      · obtain ⟨located, further, same⟩ := ih (meant.mono 1) onward (start + 1)
        refine ⟨located, ?_, same⟩
        rw [writeProducts, if_neg (meant.passed onward)]
        rcases passed with rfl | ⟨rfl, blank, rfl⟩
        · exact further
        · simpa [scan, blank] using further
      · obtain ⟨multiplied, further⟩ := meant.read onward
        rw [writeProducts, List.map_cons, factored]
        by_cases place : position ∈ places
        · have multiplies := multiplied.mp place
          obtain ⟨ends, begins⟩ := ends_and_begins_of_multiplies multiplies
          have reread := @lexeme_writeProducts _ _ _ _ _ _ _ _ _ (some (.operator .times)) read onward
            further (.inr begins) (start + 3)
          obtain ⟨located, scanned, same⟩ := ih further onward (start + 3 + 1)
          rw [if_pos place, if_pos multiplies, scan_product explicit ends,
            scan_cons_of_lexeme visible reread scanned]
          exact ⟨_, rfl, by simp [same]⟩
        · have reread := lexeme_writeProducts read onward further (.inl rfl) start
          obtain ⟨located, scanned, same⟩ := ih further onward (start + 1)
          rw [if_neg place, if_neg (mt multiplied.mpr place)]
          exact ⟨_, scan_cons_of_lexeme visible reread scanned, by simp [same]⟩

/-- A text in which the products are written that were not is read as its tokens with them. -/
theorem tokens_writeProducts {text : String} (explicit : lexicon.operator? false "*" = some .times)
    (lexed : lexicon.tokens text = .ok tokens) :
    ∃ located,
      lexicon.tokens (String.ofList (writeProducts (productPlaces tokens) 0 text.toList)) = .ok located ∧
      located.map Located.token = insertProducts (tokens.map Located.token) := by
  have places := productPlaces_eq fun item member => covers_of_mem_tokens lexed member
  have meant : Meant (productPlaces tokens) 0 none tokens := fun place _ => by rw [places]
  rw [Lexicon.tokens, String.toList_ofList, insertProducts_eq_factored]
  exact scan_writeProducts explicit meant lexed 0

end Lexicon

end Formula
