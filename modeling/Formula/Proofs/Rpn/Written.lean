import Formula.Proofs.Rpn.OperatorTree
import Formula.Proofs.Rpn.Reading
import Formula.Token.Builtin

namespace Formula

/-! Expressions as they are written, and that their order undoes the writing.

A phrase is written if parentheses stand at least where the levels of the operators ask for them,
and anywhere else at will. The levels are those of the notation; that the precedences of the
built-in operators realise them is proved.
-/

namespace Operator

/-- How tightly a built-in operator binds: sums, products, signs before an operand, powers. -/
def level (operator : Operator) : Nat :=
  if operator.operands = 1 then 3
  else if operator.symbol = "^" then 4
  else if operator.symbol = "+" ∨ operator.symbol = "-" then 1
  else 2

/-- What `inner` makes can stand before a binary operator as it is; powers group to the right, the
others to the left. -/
def StandsBefore (inner operator : Operator) : Prop :=
  operator.level < inner.level ∨ (operator.level = inner.level ∧ operator.symbol ≠ "^")

/-- What `inner` makes can stand after a binary operator as it is; a sign always can. -/
def StandsAfter (inner operator : Operator) : Prop :=
  inner.operands = 1 ∨ operator.level < inner.level ∨
    (operator.level = inner.level ∧ operator.symbol = "^")

/-- What `inner` makes can stand after a sign as it is. -/
def StandsUnder (inner sign : Operator) : Prop := sign.level ≤ inner.level

instance (inner operator : Operator) : Decidable (inner.StandsBefore operator) :=
  inferInstanceAs (Decidable (_ ∨ _))

instance (inner operator : Operator) : Decidable (inner.StandsAfter operator) :=
  inferInstanceAs (Decidable (_ ∨ _))

instance (inner sign : Operator) : Decidable (inner.StandsUnder sign) :=
  inferInstanceAs (Decidable (_ ≤ _))

theorem releases_of_standsBefore :
    ∀ entering ∈ builtins, entering.operands = 2 → ∀ inner ∈ builtins,
      inner.StandsBefore entering → entering.releases inner = true := by
  decide

theorem releases_eq_false_of_standsAfter :
    ∀ operator ∈ builtins, operator.operands = 2 → ∀ inner ∈ builtins,
      inner.StandsAfter operator → inner.releases operator = false := by
  decide

theorem releases_eq_false_of_standsUnder :
    ∀ sign ∈ builtins, sign.operands = 1 → ∀ inner ∈ builtins,
      inner.StandsUnder sign → inner.releases sign = false := by
  decide

theorem standsBefore_of_standsAfter :
    ∀ operator ∈ builtins, operator.operands = 2 → ∀ inner ∈ builtins,
      inner.StandsAfter operator → ∀ entering ∈ builtins, entering.operands = 2 →
        operator.StandsBefore entering → inner.StandsBefore entering := by
  decide

theorem standsBefore_of_standsUnder :
    ∀ sign ∈ builtins, sign.operands = 1 → ∀ inner ∈ builtins, inner.StandsUnder sign →
      ∀ entering ∈ builtins, entering.operands = 2 → sign.StandsBefore entering →
        inner.StandsBefore entering := by
  decide

theorem precedence_of_standsBefore :
    ∀ operator ∈ builtins, operator.operands = 2 → ∀ inner ∈ builtins,
      inner.StandsBefore operator →
        operator.precedence < inner.precedence ∨
          (operator.precedence = inner.precedence ∧
            operator.leftAssociative = inner.leftAssociative) := by
  decide

/-- An operator that is kept out by a pending one keeps out all that stands before it. -/
theorem releases_of_standsBefore_of_releases {operator inner waiting : Operator}
    (builtin : operator ∈ builtins) (binary : operator.operands = 2) (inside : inner ∈ builtins)
    (stands : inner.StandsBefore operator) (released : inner.releases waiting = true) :
    operator.releases waiting = true := by
  have order := precedence_of_standsBefore operator builtin binary inner inside stands
  simp only [releases, isUnary, binary, Bool.and_eq_true, Bool.or_eq_true, decide_eq_true_eq,
    beq_iff_eq] at released ⊢
  refine ⟨by simp, ?_⟩
  rcases order with looser | ⟨same, grouping⟩
  · omega
  · rw [same, grouping]
    exact released.2

end Operator

open Operator Rpn

/-- Trees over numbers, names, built-in operators and calls with as many arguments as the function
takes. -/
inductive OperatorTree.Writable : OperatorTree Token → Prop
  | number (value : Float) : Writable (.node (.number value) [])
  | var (name : String) : Writable (.node (.var name) [])
  | call {function : FunctionSymbol} {arguments : List (OperatorTree Token)}
      (count : arguments.length = function.arity)
      (each : ∀ argument ∈ arguments, Writable argument) :
      Writable (.node (.function function) arguments)
  | signed {sign : Operator} {operand : OperatorTree Token} (builtin : sign ∈ builtins)
      (unary : sign.operands = 1) (inner : Writable operand) :
      Writable (.node (.operator sign) [operand])
  | binary {operator : Operator} {left right : OperatorTree Token} (builtin : operator ∈ builtins)
      (takesTwo : operator.operands = 2) (first : Writable left) (second : Writable right) :
      Writable (.node (.operator operator) [left, right])

theorem OperatorTree.Writable.saturated {tree : OperatorTree Token} (writable : tree.Writable) :
    tree.Saturated := by
  induction writable with
  | number value => exact .node rfl (by simp)
  | var name => exact .node rfl (by simp)
  | call count each ih => exact .node count ih
  | signed builtin unary inner ih => exact .node unary.symm (by simpa using ih)
  | binary builtin takesTwo first second firstIH secondIH =>
      exact .node takesTwo.symm (by simpa using ⟨firstIH, secondIH⟩)

/-- A tree and tokens for it. `outer` is the operator that stands outside all parentheses and binds
least, if there is one. -/
structure Phrase where
  outer : Option Operator
  tree : OperatorTree Token
  text : List Token

namespace Phrase

/-- Texts in a row with commas between them. -/
def commaSeparated : List (List Token) → List Token
  | [] => []
  | [last] => last
  | first :: next :: others => first ++ .comma :: commaSeparated (next :: others)

/-- The tokens of the phrase write its tree. -/
inductive Written : Phrase → Prop
  | number (value : Float) : Written ⟨none, .node (.number value) [], [.number value]⟩
  | var (name : String) : Written ⟨none, .node (.var name) [], [.var name]⟩
  | call {function : FunctionSymbol} {arguments : List Phrase}
      (count : arguments.length = function.arity) (each : ∀ argument ∈ arguments, Written argument) :
      Written ⟨none, .node (.function function) (arguments.map (·.tree)),
        .function function :: .openParen :: commaSeparated (arguments.map (·.text)) ++
          [.closeParen]⟩
  | group {inner : Phrase} (written : Written inner) :
      Written ⟨none, inner.tree, .openParen :: inner.text ++ [.closeParen]⟩
  | signed {sign : Operator} {operand : Phrase} (builtin : sign ∈ builtins)
      (unary : sign.operands = 1) (written : Written operand)
      (stands : ∀ inner ∈ operand.outer, inner.StandsUnder sign) :
      Written ⟨some sign, .node (.operator sign) [operand.tree], .operator sign :: operand.text⟩
  | binary {operator : Operator} {left right : Phrase} (builtin : operator ∈ builtins)
      (takesTwo : operator.operands = 2) (first : Written left) (second : Written right)
      (before : ∀ inner ∈ left.outer, inner.StandsBefore operator)
      (after : ∀ inner ∈ right.outer, inner.StandsAfter operator) :
      Written ⟨some operator, .node (.operator operator) [left.tree, right.tree],
        left.text ++ .operator operator :: right.text⟩

theorem list_exists_of_trees {arguments : List (OperatorTree Token)}
    (each : ∀ argument ∈ arguments, ∃ phrase : Phrase, phrase.Written ∧ phrase.tree = argument) :
    ∃ phrases : List Phrase, (∀ phrase ∈ phrases, phrase.Written) ∧
      phrases.map (·.tree) = arguments := by
  induction arguments with
  | nil => exact ⟨[], by simp, rfl⟩
  | cons argument others ih =>
      obtain ⟨phrase, written, rfl⟩ := each argument (by simp)
      obtain ⟨phrases, allWritten, rfl⟩ := ih fun other member => each other (by simp [member])
      exact ⟨phrase :: phrases, by simpa using ⟨written, allWritten⟩, rfl⟩

/-- Every writable tree can be written, for instance with all parentheses. -/
theorem written_exists {tree : OperatorTree Token} (writable : tree.Writable) :
    ∃ phrase : Phrase, phrase.Written ∧ phrase.tree = tree := by
  induction writable with
  | number value => exact ⟨_, .number value, rfl⟩
  | var name => exact ⟨_, .var name, rfl⟩
  | call count each ih =>
      obtain ⟨phrases, written, rfl⟩ := list_exists_of_trees ih
      exact ⟨_, .call (by simpa using count) written, rfl⟩
  | signed builtin unary inner ih =>
      obtain ⟨operand, written, rfl⟩ := ih
      exact ⟨_, .signed builtin unary (.group written) (by simp), rfl⟩
  | binary builtin takesTwo first second firstIH secondIH =>
      obtain ⟨left, leftWritten, rfl⟩ := firstIH
      obtain ⟨right, rightWritten, rfl⟩ := secondIH
      exact ⟨_, .binary builtin takesTwo (.group leftWritten) (.group rightWritten) (by simp)
        (by simp), rfl⟩

/-- Every binary operator that can follow as it is releases the waiting one. -/
def Yields (outer : Option Operator) (waiting : Operator) : Prop :=
  waiting ∈ builtins ∧ ∀ entering ∈ builtins, entering.operands = 2 →
    (∀ inner ∈ outer, inner.StandsBefore entering) → entering.releases waiting = true

theorem Yields.of_standsUnder {sign waiting : Operator} {outer : Option Operator}
    (builtin : sign ∈ builtins) (unary : sign.operands = 1)
    (inside : ∀ inner ∈ outer, inner ∈ builtins)
    (stands : ∀ inner ∈ outer, inner.StandsUnder sign) (yields : Yields outer waiting) :
    Yields (some sign) waiting := by
  refine ⟨yields.1, fun entering known binary before => ?_⟩
  apply yields.2 entering known binary
  intro inner isOuter
  exact standsBefore_of_standsUnder sign builtin unary inner (inside inner isOuter)
    (stands inner isOuter) entering known binary (before sign rfl)

theorem Yields.of_standsAfter {operator waiting : Operator} {outer : Option Operator}
    (builtin : operator ∈ builtins) (takesTwo : operator.operands = 2)
    (inside : ∀ inner ∈ outer, inner ∈ builtins)
    (stands : ∀ inner ∈ outer, inner.StandsAfter operator) (yields : Yields outer waiting) :
    Yields (some operator) waiting := by
  refine ⟨yields.1, fun entering known binary before => ?_⟩
  apply yields.2 entering known binary
  intro inner isOuter
  exact standsBefore_of_standsAfter operator builtin takesTwo inner (inside inner isOuter)
    (stands inner isOuter) entering known binary (before operator rfl)

theorem Yields.self {operator : Operator} (builtin : operator ∈ builtins) :
    Yields (some operator) operator :=
  ⟨builtin, fun entering known binary before =>
    releases_of_standsBefore entering known binary operator builtin (before operator rfl)⟩

theorem closed_of_yields {outer : Option Operator} {held : List Token}
    (yielding : ∀ item ∈ held, IsOperator (Yields outer) item) :
    ∀ item ∈ held, isOpening item = false :=
  fun item member => (yielding item member).isOpening_eq_false

theorem keeps_cons_openParen (entering : Operator) (pending : List Token) :
    Keeps entering (Token.openParen :: pending) := by
  intro item isTop
  obtain rfl : Token.openParen = item := by simpa using isTop
  rfl

/-- What is kept out by an operator is kept out by everything that stands before it. -/
theorem keeps_of_standsBefore {operator inner : Operator} {pending : List Token}
    (builtin : operator ∈ builtins) (takesTwo : operator.operands = 2) (inside : inner ∈ builtins)
    (stands : inner.StandsBefore operator) (kept : Keeps operator pending) :
    Keeps inner pending := by
  intro top isTop
  have stays := kept top isTop
  cases top with
  | operator waiting =>
      cases released : inner.releases waiting with
      | false => exact released
      | true =>
          have contrary := releases_of_standsBefore_of_releases builtin takesTwo inside stands released
          exact absurd (stays.symm.trans contrary) Bool.false_ne_true
  | _ => rfl

/-- Reading the phrase above any pending items gives out a beginning of the postorder and holds the
rest of it, which every operator that can follow releases. -/
structure Readable (phrase : Phrase) : Prop where
  outer_mem : ∀ inner ∈ phrase.outer, inner ∈ builtins
  reads : ∀ pending, Quiet pending → (∀ operator ∈ phrase.outer, Keeps operator pending) →
    ∃ released held, Reads pending phrase.text released held ∧
      released ++ held = phrase.tree.postorder ∧
        ∀ item ∈ held, IsOperator (Yields phrase.outer) item

theorem readable_leaf {token : Token} (isLeaf : IsLeaf token) :
    Readable ⟨none, .node token [], [token]⟩ :=
  ⟨by simp, fun _ _ _ => ⟨_, _, Reads.leaf isLeaf, by simp, by simp⟩⟩

theorem Readable.group {inner : Phrase} (readable : inner.Readable) :
    Readable ⟨none, inner.tree, .openParen :: inner.text ++ [.closeParen]⟩ := by
  refine ⟨by simp, fun pending quiet _ => ?_⟩
  obtain ⟨released, held, reads, whole, yielding⟩ :=
    readable.reads (.openParen :: pending) (quiet_cons pending rfl)
      fun operator _ => keeps_cons_openParen operator pending
  refine ⟨_, _, Reads.group rfl rfl reads (closed_of_yields yielding) quiet, ?_, by simp⟩
  simp [whole]

theorem Readable.signed {sign : Operator} {operand : Phrase} (builtin : sign ∈ builtins)
    (unary : sign.operands = 1) (readable : operand.Readable)
    (stands : ∀ inner ∈ operand.outer, inner.StandsUnder sign) :
    Readable ⟨some sign, .node (.operator sign) [operand.tree], .operator sign :: operand.text⟩ := by
  refine ⟨by simpa using builtin, fun pending quiet kept => ?_⟩
  have entered : Reads pending [.operator sign] [] [.operator sign] :=
    Reads.operator rfl (Reads.nil pending) (by simp) (kept sign rfl)
  obtain ⟨released, held, reads, whole, yielding⟩ :=
    readable.reads (.operator sign :: pending) (quiet_cons pending rfl) (by
      intro operator isOuter
      refine keeps_of_not_releases (.refl (Token.operator sign)) ?_ pending
      exact releases_eq_false_of_standsUnder sign builtin unary operator
        (readable.outer_mem operator isOuter) (stands operator isOuter))
  refine ⟨_, _, entered.append reads, ?_, ?_⟩
  · simp [← whole]
  · intro item member
    rcases List.mem_append.mp member with earlier | last
    · exact (yielding item earlier).mono fun _ yields =>
        yields.of_standsUnder builtin unary readable.outer_mem stands
    · obtain rfl := List.mem_singleton.mp last
      exact ⟨sign, rfl, Yields.self builtin⟩

theorem Readable.binary {operator : Operator} {left right : Phrase} (builtin : operator ∈ builtins)
    (takesTwo : operator.operands = 2) (first : left.Readable) (second : right.Readable)
    (before : ∀ inner ∈ left.outer, inner.StandsBefore operator)
    (after : ∀ inner ∈ right.outer, inner.StandsAfter operator) :
    Readable ⟨some operator, .node (.operator operator) [left.tree, right.tree],
      left.text ++ .operator operator :: right.text⟩ := by
  refine ⟨by simpa using builtin, fun pending quiet kept => ?_⟩
  obtain ⟨leftReleased, leftHeld, leftReads, leftWhole, leftYielding⟩ :=
    first.reads pending quiet fun inner isOuter =>
      keeps_of_standsBefore builtin takesTwo (first.outer_mem inner isOuter)
        (before inner isOuter) (kept operator rfl)
  -- The operator finds the whole left operand complete and nothing else.
  have freed : ∀ item ∈ leftHeld, isReleasedBy operator item = true := fun item member =>
    ((leftYielding item member).mono fun _ yields =>
      yields.2 operator builtin takesTwo before).isReleasedBy
  have entered := leftReads.operator (.refl (Token.operator operator)) freed (kept operator rfl)
  obtain ⟨rightReleased, rightHeld, rightReads, rightWhole, rightYielding⟩ :=
    second.reads (.operator operator :: pending) (quiet_cons pending rfl) (by
      intro inner isOuter
      refine keeps_of_not_releases (.refl (Token.operator operator)) ?_ pending
      exact releases_eq_false_of_standsAfter operator builtin takesTwo inner
        (second.outer_mem inner isOuter) (after inner isOuter))
  have both := entered.append rightReads
  rw [List.append_assoc, List.singleton_append] at both
  refine ⟨_, _, both, ?_, ?_⟩
  · simp [leftWhole, ← rightWhole]
  · intro item member
    rcases List.mem_append.mp member with earlier | last
    · exact (rightYielding item earlier).mono fun _ yields =>
        yields.of_standsAfter builtin takesTwo second.outer_mem after
    · obtain rfl := List.mem_singleton.mp last
      exact ⟨operator, rfl, Yields.self builtin⟩

/-- Inside the parentheses of a call, reading the arguments gives out and holds their postorders. -/
theorem reads_arguments {arguments : List Phrase}
    (each : ∀ argument ∈ arguments, argument.Readable) (function : FunctionSymbol)
    (pending : List Token) :
    ∃ released held,
      Reads (.openParen :: .function function :: pending)
        (commaSeparated (arguments.map (·.text))) released held ∧
      released ++ held = OperatorTree.forestPostorder (arguments.map (·.tree)) ∧
        ∀ item ∈ held, isOpening item = false := by
  induction arguments with
  | nil => exact ⟨_, _, Reads.nil _, by simp, by simp⟩
  | cons argument others ih =>
      obtain ⟨released, held, reads, whole, yielding⟩ :=
        (each argument (by simp)).reads (.openParen :: .function function :: pending)
          (quiet_cons _ rfl) fun operator _ => keeps_cons_openParen operator _
      cases others with
      | nil => exact ⟨_, _, reads, by simp [whole], closed_of_yields yielding⟩
      | cons next others =>
          obtain ⟨laterReleased, laterHeld, laterReads, laterWhole, closed⟩ :=
            ih fun other member => each other (by simp [member])
          have both := (Reads.comma rfl rfl (.refl Token.comma) reads
            (closed_of_yields yielding)).append laterReads
          rw [List.append_assoc, List.singleton_append] at both
          refine ⟨_, _, both, ?_, by simpa using closed⟩
          simp [whole, laterWhole]

theorem Readable.call {function : FunctionSymbol} {arguments : List Phrase}
    (each : ∀ argument ∈ arguments, argument.Readable) :
    Readable ⟨none, .node (.function function) (arguments.map (·.tree)),
      .function function :: .openParen :: commaSeparated (arguments.map (·.text)) ++
        [.closeParen]⟩ := by
  refine ⟨by simp, fun pending _ _ => ?_⟩
  obtain ⟨released, held, reads, whole, closed⟩ := reads_arguments each function pending
  refine ⟨_, _, Reads.call rfl rfl rfl reads closed, ?_, by simp⟩
  simp [whole]

theorem Written.readable {phrase : Phrase} (written : phrase.Written) : phrase.Readable := by
  induction written with
  | number value => exact readable_leaf (.inl ⟨value, rfl⟩)
  | var name => exact readable_leaf (.inr ⟨name, rfl⟩)
  | call count each ih => exact .call ih
  | group written ih => exact ih.group
  | signed builtin unary written stands ih => exact .signed builtin unary ih stands
  | binary builtin takesTwo first second before after firstIH secondIH =>
      exact .binary builtin takesTwo firstIH secondIH before after

theorem Written.order_eq_ok {phrase : Phrase} (written : phrase.Written) :
    order [] phrase.text = .ok phrase.tree.postorder := by
  obtain ⟨released, held, reads, whole, yielding⟩ :=
    written.readable.reads [] quiet_nil fun operator _ top isTop => by simp at isTop
  rw [reads.order_eq_ok (closed_of_yields yielding), whole]

/-- Ordering undoes writing: every writable tree can be written, and whatever writes it is ordered
into its postorder, which comes out at one value. -/
theorem order_text_of_written {tree : OperatorTree Token} (writable : tree.Writable) :
    (∃ phrase : Phrase, phrase.Written ∧ phrase.tree = tree) ∧
      ∀ phrase : Phrase, phrase.Written → phrase.tree = tree →
        order [] phrase.text = .ok tree.postorder ∧ balance tree.postorder = .ok () := by
  refine ⟨written_exists writable, ?_⟩
  rintro phrase written rfl
  have balanced := balance_postorder writable.saturated
  rw [show phrase.tree.postorder.map Lexical.token = phrase.tree.postorder from List.map_id _]
    at balanced
  exact ⟨written.order_eq_ok, balanced⟩

/-- `x ^ -2 * f()`: a sign as right operand, and a call without arguments. -/
theorem order_power_times_call :
    OperatorTree.Writable (.node (.operator .times)
      [.node (.operator ⟨"^", 2, false, 10000⟩) [.node (.var "x") [],
        .node (.operator ⟨"-", 1, false, 5000⟩) [.node (.number 2) []]],
        .node (.function ⟨"f", 0⟩) []]) ∧
    order [] [Token.var "x", .operator ⟨"^", 2, false, 10000⟩, .operator ⟨"-", 1, false, 5000⟩,
        .number 2, .operator .times, .function ⟨"f", 0⟩, .openParen, .closeParen] =
      .ok [.var "x", .number 2, .operator ⟨"-", 1, false, 5000⟩, .operator ⟨"^", 2, false, 10000⟩,
        .function ⟨"f", 0⟩, .operator .times] := by
  have writable : OperatorTree.Writable (.node (.operator .times)
      [.node (.operator ⟨"^", 2, false, 10000⟩) [.node (.var "x") [],
        .node (.operator ⟨"-", 1, false, 5000⟩) [.node (.number 2) []]],
        .node (.function ⟨"f", 0⟩) []]) :=
    .binary (by decide) rfl
      (.binary (by decide) rfl (.var "x") (.signed (by decide) rfl (.number 2)))
      (.call rfl (by simp))
  have sign := @Written.signed ⟨"-", 1, false, 5000⟩ _ (by decide) rfl (.number 2) (by simp)
  have power := @Written.binary ⟨"^", 2, false, 10000⟩ _ _ (by decide) rfl (.var "x") sign (by simp)
    (by decide)
  have call := @Written.call ⟨"f", 0⟩ [] rfl (by simp)
  have written := @Written.binary .times _ _ (by decide) rfl power call (by decide) (by simp)
  exact ⟨writable, ((order_text_of_written writable).2 _ written rfl).1⟩

end Phrase

end Formula
