import Mathlib
import Formula.Compiler
import Formula.Proofs.Assembly.StackMachine
import Formula.Proofs.Token.Products

namespace Formula

/-! Parentheses in RPN.

A parenthesis builds nothing, but it is read like every token: it fails beyond the depth limit, and
after the root of the tree. So it may fail earlier than the next token or the end would, and in the
same way. Only where the tree is complete and nothing else is left to read does it fail where
nothing would have failed without it.
-/

def Token.isParenthesis : Token → Bool
  | .openParen | .closeParen => true
  | _ => false

namespace Assembler

variable {α N : Type} [Numeral α] {assembler : Assembler α N} {token : Token}

/-- What the tokens come to, read from the last one on. -/
def readBack (assembler : Assembler α N) (rpn : List Token) : Except CompileError (Progress N) :=
  rpn.reverse.foldlM assembler.step (.reading [])

theorem readBack_cons (token : Token) (rest : List Token) :
    assembler.readBack (token :: rest) = assembler.readBack rest >>= (assembler.step · token) := by
  simp [readBack]

theorem build_eq_readBack (rpn : List Token) :
    assembler.build rpn = assembler.readBack rpn >>= assembler.conclude := rfl

theorem step_parenthesis (parenthesis : token.isParenthesis = true) (frames : List (Frame N)) :
    assembler.step (.reading frames) token =
      if assembler.isTooDeep frames then .error .depthExceeded else .ok (.reading frames) := by
  cases token with
  | openParen => rfl
  | closeParen => rfl
  | number _ => contradiction
  | var _ => contradiction
  | function _ => contradiction
  | operator _ => contradiction
  | comma => contradiction

/-- What tokens come to without parentheses, and with them: the same, or with them a failure has
come already that is still ahead without them. -/
inductive Alike (assembler : Assembler α N) :
    (plain grouped : Except CompileError (Progress N)) → Prop
  | same (outcome : Except CompileError (Progress N)) : Alike assembler outcome outcome
  | deep {frames : List (Frame N)} (deep : assembler.isTooDeep frames = true) :
      Alike assembler (.ok (.reading frames)) (.error .depthExceeded)
  | behind (root : N) : Alike assembler (.ok (.complete root)) (.error .trailingTokens)

namespace Alike

variable {plain grouped : Except CompileError (Progress N)}

/-- The next token fails in the same way, if a parenthesis has failed before it. -/
theorem step_eq (alike : assembler.Alike plain grouped) (token : Token) :
    plain >>= (assembler.step · token) = grouped >>= (assembler.step · token) := by
  cases alike with
  | same outcome => rfl
  | behind root => rfl
  | @deep frames deep =>
      have failed : assembler.step (.reading frames) token = .error .depthExceeded := by
        rw [step, if_pos deep]
      exact failed

omit [Numeral α] in
/-- And so does the end, unless the tree was complete. -/
theorem conclude_eq (alike : assembler.Alike plain grouped) :
    grouped >>= assembler.conclude = plain >>= assembler.conclude ∨
      ∃ root, plain = .ok (.complete root) ∧ grouped = .error .trailingTokens := by
  cases alike with
  | same outcome => exact .inl rfl
  | behind root => exact .inr ⟨root, rfl, rfl⟩
  | @deep frames deep =>
      have failed : assembler.conclude (.reading frames) = .error .depthExceeded := by
        rw [conclude, if_pos deep]
      exact .inl failed.symm

theorem parenthesis (alike : assembler.Alike plain grouped)
    (parenthesis : token.isParenthesis = true) :
    assembler.Alike plain (grouped >>= (assembler.step · token)) := by
  cases alike with
  | deep deep => exact .deep deep
  | behind root => exact .behind root
  | same outcome =>
      cases plain with
      | error reason => exact .same _
      | ok progress =>
          cases progress with
          | complete root => exact .behind root
          | reading frames =>
              change assembler.Alike _ (assembler.step (.reading frames) token)
              rw [step_parenthesis parenthesis]
              split
              case isTrue deep => exact .deep deep
              case isFalse => exact .same _

end Alike

theorem alike_readBack (assembler : Assembler α N) {rpn grouped : List Token}
    (interspersed : Interspersed (Token.isParenthesis · = true) rpn grouped) :
    assembler.Alike (assembler.readBack rpn) (assembler.readBack grouped) := by
  induction interspersed with
  | nil => exact .same _
  | kept token _ ih =>
      rw [readBack_cons, readBack_cons, ih.step_eq]
      exact .same _
  | put parenthesis _ ih =>
      rw [readBack_cons]
      exact ih.parenthesis parenthesis

/-- A parenthesis that is read last completes nothing. -/
theorem exists_error_of_parenthesis (assembler : Assembler α N)
    (parenthesis : token.isParenthesis = true) (rest : List Token) :
    ∃ reason, assembler.build (token :: rest) = .error reason := by
  rw [build_eq_readBack, readBack_cons]
  cases assembler.readBack rest with
  | error reason => exact ⟨reason, rfl⟩
  | ok progress =>
      cases progress with
      | complete root => exact ⟨.trailingTokens, rfl⟩
      | reading frames =>
          change ∃ reason,
            assembler.step (.reading frames) token >>= assembler.conclude = .error reason
          rw [step_parenthesis parenthesis]
          split
          · exact ⟨.depthExceeded, rfl⟩
          · exact ⟨_, rfl⟩

/-- Parentheses at any places in RPN leave what is built of it as it is, tree or error, unless one
stands in front. That one is read when the tree is complete, so where there would be a tree it is a
trailing token, and an error is left as it is there, too. -/
theorem build_withParentheses {rpn grouped : List Token}
    (interspersed : Interspersed (Token.isParenthesis · = true) rpn grouped)
    (assembler : Assembler α N) :
    assembler.build grouped =
      if grouped.head?.any (·.isParenthesis) then
        assembler.build rpn >>= fun _ => .error .trailingTokens
      else assembler.build rpn := by
  have alike := assembler.alike_readBack interspersed
  cases interspersed with
  | nil => rfl
  | @kept rpn grouped token onward =>
      -- The first token is read last, and by then it fails where a parenthesis has failed before it.
      have same : assembler.build (token :: grouped) = assembler.build (token :: rpn) := by
        rw [build_eq_readBack, build_eq_readBack, readBack_cons, readBack_cons,
          (assembler.alike_readBack onward).step_eq]
      rw [same]
      split
      case isFalse => rfl
      case isTrue parenthesis =>
        obtain ⟨reason, failed⟩ := assembler.exists_error_of_parenthesis parenthesis rpn
        rw [failed]
        rfl
  | @put _ grouped token parenthesis onward =>
      obtain ⟨reason, failed⟩ := assembler.exists_error_of_parenthesis parenthesis grouped
      have inFront : (token :: grouped).head?.any (·.isParenthesis) = true := parenthesis
      rw [if_pos inFront, failed]
      rcases alike.conclude_eq with same | ⟨root, plain, behind⟩
      · rw [← build_eq_readBack, ← build_eq_readBack, failed] at same
        rw [← same]
        rfl
      · rw [build_eq_readBack, behind] at failed
        rw [build_eq_readBack, plain]
        exact failed.symm

/-- `x - 2`, with parentheses around the `2` and behind the whole. -/
theorem build_withParentheses_of_difference :
    let minus : Token := .operator ⟨"-", 2, true, 500⟩
    let assembler := Node.assembler [⟨"x", (1 : Float)⟩] {} (some 2)
    Interspersed (Token.isParenthesis · = true) [.var "x", .number 2, minus]
        [.var "x", .openParen, .number 2, .closeParen, minus, .closeParen] ∧
      assembler.build [.var "x", .openParen, .number 2, .closeParen, minus, .closeParen] =
        .ok (.binary .sub (.var "x") (.constant 2)) := by
  intro minus assembler
  have interspersed : Interspersed (Token.isParenthesis · = true) [.var "x", .number 2, minus]
      [.var "x", .openParen, .number 2, .closeParen, minus, .closeParen] :=
    .kept _ (.put rfl (.kept _ (.put rfl (.kept _ (.put rfl .nil)))))
  have built : assembler.build [.var "x", .number 2, minus] =
      .ok (.binary .sub (.var "x") (.constant 2)) := rfl
  exact ⟨interspersed, (build_withParentheses interspersed assembler).trans built⟩

/-- A variable is not built in parentheses. -/
theorem build_variable_in_parentheses :
    let assembler := Node.assembler [⟨"x", (4 : Float)⟩] {} none
    Interspersed (Token.isParenthesis · = true) [.var "x"] [.openParen, .var "x", .closeParen] ∧
      assembler.build [.var "x"] = .ok (.var "x") ∧
      assembler.build [.openParen, .var "x", .closeParen] = .error .trailingTokens :=
  ⟨.put rfl (.kept _ (.put rfl .nil)), rfl, rfl⟩

end Assembler

end Formula
