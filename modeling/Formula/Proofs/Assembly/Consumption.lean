import Mathlib
import Formula.Proofs.Assembly.StackMachine
import Formula.Rpn.Balance

namespace Formula

/-! That assembly uses up balanced RPN exactly.

Assembly reads from the last token, balance counts from the first. At every point in between, the
open frames need as many nodes as the tokens before that point leave values. So the tree is complete
just when no token is left, unless assembly fails for what a token means.
-/

/-- Failures of assembly that are about what a token means, not about tokens that are too few, too
many, out of place or unknown. -/
def CompileError.IsUnbuildable : CompileError → Prop
  | .unsupportedFunction _ | .unsupportedOperator _ | .variableExponent | .unrepresentable _
  | .depthExceeded => True
  | _ => False

namespace Rpn

/-- Tokens that never lack operands, and the number of values that they leave. -/
inductive Leaves : (tokens : List Token) → (count : Nat) → Prop
  | nil : Leaves [] 0
  | append {earlier : List Token} {count : Nat} {token : Token} (enough : token.operands ≤ count)
      (before : Leaves earlier count) : Leaves (earlier ++ [token]) (count - token.operands + 1)

theorem leaves_of_balanceFrom {earlier rest : List Token} {count : Nat}
    (before : Leaves earlier count) (balanced : balanceFrom count rest = .ok ())
    (ends : rest ≠ [] ∨ count = 1) : Leaves (earlier ++ rest) 1 := by
  induction rest generalizing earlier count with
  | nil =>
      obtain rfl : count = 1 := by simpa using ends
      rwa [List.append_nil]
  | cons token rest ih =>
      simp only [balanceFrom] at balanced
      split at balanced
      · contradiction
      case isFalse enough =>
        have next : Leaves (earlier ++ [token]) _ := before.append (by omega)
        rw [← List.singleton_append, ← List.append_assoc]
        refine ih next balanced ?_
        cases rest with
        | nil =>
            simp only [balanceFrom] at balanced
            split at balanced
            · contradiction
            · right
              omega
        | cons _ _ => simp

theorem leaves_of_balance {tokens : List Token} (balanced : balance tokens = .ok ()) :
    Leaves tokens 1 := by
  simp only [balance] at balanced
  split at balanced
  · contradiction
  case isFalse nonempty =>
    exact leaves_of_balanceFrom .nil balanced (.inl (by simpa using nonempty))

end Rpn

/-- The outcome is as wanted, or it is one of the failures that are allowed. -/
def Outcome {β : Type} (allowed : CompileError → Prop) (wanted : β → Prop) :
    Except CompileError β → Prop
  | .ok result => wanted result
  | .error reason => allowed reason

variable {α N : Type}

namespace Frame

theorem lacks_pos (frame : Frame N) : 0 < frame.lacks := by
  cases frame <;> simp [lacks]

/-- Whatever operands the frame is given, it fails only in ways that are allowed. -/
def FailsOnly (allowed : CompileError → Prop) : Frame N → Prop
  | .right finish => ∀ first second reason, finish first second = .error reason → allowed reason
  | .left finish second => ∀ first reason, finish first second = .error reason → allowed reason
  | .unary _ | .arguments _ _ _ => True

/-- How many nodes the frames still need: each as many as it lacks, where what an inner frame makes
is the next operand of the frame around it. -/
def needed (frames : List (Frame N)) : Nat := (frames.map fun frame => frame.lacks - 1).sum + 1

@[simp] theorem needed_nil : needed ([] : List (Frame N)) = 1 := rfl

@[simp] theorem needed_cons (frame : Frame N) (frames : List (Frame N)) :
    needed (frame :: frames) = frame.lacks - 1 + needed frames := by
  simp only [needed, List.map_cons, List.sum_cons]
  omega

end Frame

namespace Progress

def needed : Progress N → Nat
  | .reading frames => Frame.needed frames
  | .complete _ => 0

/-- No open frame fails but in ways that are allowed. -/
def FailsOnly (allowed : CompileError → Prop) : Progress N → Prop
  | .reading frames => ∀ frame ∈ frames, frame.FailsOnly allowed
  | .complete _ => True

end Progress

def Beginning.FailsOnly (allowed : CompileError → Prop) : Beginning N → Prop
  | .frame opened => opened.FailsOnly allowed
  | .node _ | .nothing => True

namespace Frame

variable {allowed : CompileError → Prop} {node : N} {frames : List (Frame N)}

theorem needed_of_supply {progress : Progress N} (supplied : supply node frames = .ok progress) :
    progress.needed + 1 = needed frames := by
  induction frames generalizing node with
  | nil =>
      obtain rfl : Progress.complete node = progress := by simpa [supply] using supplied
      rfl
  | cons frame frames ih =>
      cases frame with
      | unary finish =>
          rw [needed_cons, ← ih supplied]
          simp [lacks]
      | right finish =>
          obtain rfl : Progress.reading (.left finish node :: frames) = progress := by
            simpa [supply] using supplied
          simp only [Progress.needed, needed_cons, lacks]
          omega
      | left finish second =>
          cases made : finish node second with
          | error reason => simp [supply, made] at supplied
          | ok whole =>
              simp only [supply, made] at supplied
              rw [needed_cons, ← ih supplied]
              simp [lacks]
      | arguments expand more read =>
          cases more with
          | zero =>
              rw [needed_cons, ← ih supplied]
              simp [lacks]
          | succ more =>
              obtain rfl : Progress.reading (.arguments expand more (node :: read) :: frames) =
                  progress := by
                simpa [supply] using supplied
              simp only [Progress.needed, needed_cons, lacks]
              omega

theorem supply_failsOnly (each : ∀ frame ∈ frames, frame.FailsOnly allowed) :
    Outcome allowed (Progress.FailsOnly allowed) (supply node frames) := by
  induction frames generalizing node with
  | nil => exact trivial
  | cons frame frames ih =>
      obtain ⟨here, others⟩ := List.forall_mem_cons.mp each
      cases frame with
      | unary finish => exact ih others
      | right finish =>
          have given (first : N) (reason : CompileError)
              (failed : finish first node = .error reason) : allowed reason :=
            here first node reason failed
          exact List.forall_mem_cons.mpr ⟨given, others⟩
      | left finish second =>
          cases made : finish node second with
          | error reason =>
              rw [supply, made]
              exact here node reason made
          | ok whole =>
              rw [supply, made]
              exact ih others
      | arguments expand more read =>
          cases more with
          | zero => exact ih others
          | succ more => exact List.forall_mem_cons.mpr ⟨here, others⟩

end Frame

namespace Assembler

open CompileError

theorem isUnbuildable_of_constantPower {target : Target α N} {base exponent : N}
    {reason : CompileError} (failed : target.constantPower base exponent = .error reason) :
    reason.IsUnbuildable := by
  simp only [Target.constantPower] at failed
  split at failed
  · contradiction
  · cases failed
    exact trivial

theorem builtinFrame?_failsOnly {target : Target α N} {operator : Operator} {frame : Frame N}
    (opened : builtinFrame? target operator = some frame) : frame.FailsOnly IsUnbuildable := by
  simp only [builtinFrame?] at opened
  split at opened
  · split at opened
    · cases opened
      exact trivial
    split at opened
    · cases opened
      exact trivial
    · contradiction
  · split at opened
    · cases opened
      exact fun _ _ _ failed => isUnbuildable_of_constantPower failed
    · obtain ⟨operation, _, rfl⟩ := Option.map_eq_some_iff.mp opened
      exact fun _ _ _ failed => by contradiction
  · contradiction

theorem expansion_failsOnly (expand : List N → N) (operands : Nat) :
    (expansion expand operands).FailsOnly IsUnbuildable := by
  cases operands <;> exact trivial

variable [Numeral α] {assembler : Assembler α N}

/-- Every name among the tokens stands for a node. -/
def Knows (assembler : Assembler α N) (rpn : List Token) : Prop :=
  ∀ name, Token.var name ∈ rpn → ∃ node, assembler.variableNode name = .ok node

theorem beginning_failsOnly {token : Token} (admitted : assembler.Admits token)
    (known : assembler.Knows [token]) :
    Outcome IsUnbuildable (Beginning.FailsOnly IsUnbuildable) (assembler.beginning token) := by
  cases token with
  | number literal =>
      simp only [beginning]
      split <;> exact trivial
  | var name =>
      obtain ⟨node, found⟩ := known name (by simp)
      rw [beginning, found]
      exact trivial
  | function function =>
      simp only [beginning, functionBeginning]
      split
      · exact expansion_failsOnly _ _
      · split <;> exact trivial
  | operator operator =>
      simp only [beginning, operatorBeginning]
      split
      · exact expansion_failsOnly _ _
      · split
        case h_1 frame opened => exact builtinFrame?_failsOnly opened
        case h_2 => exact trivial
  | openParen => exact admitted.elim
  | closeParen => exact admitted.elim
  | comma => exact admitted.elim

/-- One token takes one needed node away and adds its operands, or fails for what it means. -/
theorem step_needed {token : Token} (admitted : assembler.Admits token)
    (known : assembler.Knows [token]) {frames : List (Frame N)}
    (each : ∀ frame ∈ frames, frame.FailsOnly IsUnbuildable) :
    Outcome IsUnbuildable
      (fun next : Progress N => next.needed + 1 = Frame.needed frames + token.operands ∧
        next.FailsOnly IsUnbuildable)
      (assembler.step (.reading frames) token) := by
  have begins := begins_beginning admitted
  have failsOnly := beginning_failsOnly admitted known
  rw [step]
  split
  · exact trivial
  cases opened : assembler.beginning token with
  | error reason =>
      rw [opened] at failsOnly
      exact failsOnly
  | ok beginning =>
      rw [opened] at begins failsOnly
      cases beginning with
      | node complete =>
          have kept : Outcome _ _ (Frame.supply complete frames) := Frame.supply_failsOnly each
          change Outcome _ _ (Frame.supply complete frames)
          cases supplied : Frame.supply complete frames with
          | error reason =>
              rw [supplied] at kept
              exact kept
          | ok next =>
              rw [supplied] at kept
              refine ⟨?_, kept⟩
              rw [Frame.needed_of_supply supplied, begins.1, Nat.add_zero]
      | frame frame =>
          refine ⟨?_, List.forall_mem_cons.mpr ⟨failsOnly, each⟩⟩
          have positive := frame.lacks_pos
          rw [Progress.needed, Frame.needed_cons, ← begins.1]
          omega
      | nothing => exact begins.elim

theorem foldlM_step_of_leaves {rpn : List Token} {count : Nat} (leaves : Rpn.Leaves rpn count)
    (admitted : ∀ token ∈ rpn, assembler.Admits token) (known : assembler.Knows rpn)
    {progress : Progress N} (needed : progress.needed = count)
    (failsOnly : progress.FailsOnly IsUnbuildable) :
    Outcome IsUnbuildable (∃ root, · = Progress.complete root)
      (rpn.reverse.foldlM assembler.step progress) := by
  induction leaves generalizing progress with
  | nil =>
      cases progress with
      | complete root => exact ⟨root, rfl⟩
      | reading frames => simp [Progress.needed, Frame.needed] at needed
  | @append earlier count token enough before ih =>
      cases progress with
      | complete root => simp [Progress.needed] at needed
      | reading frames =>
          have stepped := step_needed (admitted token (by simp))
            (fun name member => known name (List.mem_append_right earlier member)) failsOnly
          rw [List.reverse_append, List.reverse_singleton, List.singleton_append, List.foldlM_cons]
          cases outcome : assembler.step (.reading frames) token with
          | error reason =>
              rw [outcome] at stepped
              exact stepped
          | ok next =>
              rw [outcome] at stepped
              refine ih (fun other member => admitted other (by simp [member]))
                (fun name member => known name (by simp [member])) ?_ stepped.2
              have counted := stepped.1
              simp only [Progress.needed] at needed
              omega

/-- Assembly of balanced RPN reads every token and completes the root with the last, or it meets a
token that cannot be built. -/
theorem foldlM_step_of_balance {rpn : List Token} (balanced : Rpn.balance rpn = .ok ())
    (admitted : ∀ token ∈ rpn, assembler.Admits token) (known : assembler.Knows rpn) :
    Outcome IsUnbuildable (∃ root, · = Progress.complete root)
      (rpn.reverse.foldlM assembler.step (.reading [])) :=
  foldlM_step_of_leaves (Rpn.leaves_of_balance balanced) admitted known rfl
    (by simp [Progress.FailsOnly])

end Assembler

end Formula
