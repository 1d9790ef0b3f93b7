import Formula.Token.Basic

namespace Formula

/-! What can be wrong with a formula. An error is its cause; `message` is its wording. -/

/-- A formula that cannot be read or does not come out at one value. -/
inductive SyntaxError where
  | unexpectedCharacter (character : Char) (span : Span)
  | invalidNumber (text : String) (span : Span)
  /-- A word no part of which is known. -/
  | unknownIdentifier (name : String) (span : Span)
  /-- Operator characters no part of which is an operator that fits the position. -/
  | unknownOperator (symbol : String) (span : Span)
  | missingCall (name : String) (span : Span)
  | mismatchedParentheses
  | misplacedComma
  /-- A token that takes more values than are there. -/
  | missingOperands (token : Token)
  | tooManyOperands (count : Nat)
  | empty
deriving DecidableEq

namespace SyntaxError

def message : SyntaxError → String
  | unexpectedCharacter character span =>
      "Unable to parse character '" ++ character.toString ++ "'" ++ span.phrase
  | invalidNumber text span => "Invalid number format: '" ++ text ++ "'" ++ span.phrase
  | unknownIdentifier name span =>
      "Unknown function or variable '" ++ name ++ "'" ++ span.phrase
  | unknownOperator symbol span => "Unknown operator '" ++ symbol ++ "'" ++ span.phrase
  | missingCall name span =>
      "Function '" ++ name ++ "' must be followed by '('" ++ span.phrase
  | mismatchedParentheses => "Mismatched parentheses detected"
  | misplacedComma => "Misplaced function separator ',' or mismatched parentheses"
  | missingOperands token => "Invalid number of operands available for '" ++ token.text ++ "'"
  | tooManyOperands count =>
      "Too many operands: the expression leaves " ++ toString count ++ " values"
  | empty => "Expression contains no tokens"

end SyntaxError

inductive Stage where
  | configuration
  | tokenization
  | treeBuilding
deriving Repr, DecidableEq

def Stage.name : Stage → String
  | configuration => "Configuration"
  | tokenization => "Tokenization"
  | treeBuilding => "TreeBuilding"

/-- A formula that does not become an expression tree. -/
inductive CompileError where
  | emptyExpression
  /-- An operator symbol with no character or with one that no operator may have. -/
  | invalidSymbol (symbol : String)
  /-- A name declared twice: as a variable or constant, and as a constant or function. -/
  | nameCollision (name : String)
  | malformed (cause : SyntaxError)
  /-- RPN that ends before its first value is complete. -/
  | unexpectedEnd
  /-- RPN with tokens beyond the one value. -/
  | trailingTokens
  | strayComma
  /-- A function that has neither an expansion nor an elementary meaning. -/
  | unsupportedFunction (name : String)
  /-- An operator that has neither an expansion nor an arithmetic meaning. -/
  | unsupportedOperator (symbol : String)
  | unknownVariable (name : String)
  | variableExponent
  /-- A literal that the scalar type cannot hold. -/
  | unrepresentable (literal : Float)
  /-- A tree that nests deeper than the limit. -/
  | depthExceeded
deriving DecidableEq

namespace CompileError

def message : CompileError → String
  | emptyExpression => "Expression can not be empty"
  | invalidSymbol symbol => "The operator symbol '" ++ symbol ++ "' is invalid"
  | nameCollision name =>
      "A variable can not have the same name as a function or constant [" ++ name ++ "]"
  | malformed cause => "Invalid syntax: " ++ cause.message
  | unexpectedEnd => "Unexpected end of expression"
  | trailingTokens => "Unexpected trailing tokens"
  | strayComma => "Invalid expression"
  | unsupportedFunction name => "Unsupported function: " ++ name
  | unsupportedOperator symbol => "Unsupported operator '" ++ symbol ++ "'"
  | unknownVariable name => "Unknown variable '" ++ name ++ "'"
  | variableExponent => "Unsupported operation: Pow argument was expected to be a constant"
  | unrepresentable literal =>
      "Literal " ++ Numeral.plainText literal ++ " is not representable by the scalar type"
  | depthExceeded => "Expression nesting depth exceeds maximum limit"

def stage : CompileError → Stage
  | emptyExpression | invalidSymbol _ | nameCollision _ => .configuration
  | malformed _ => .tokenization
  | _ => .treeBuilding

end CompileError

end Formula
