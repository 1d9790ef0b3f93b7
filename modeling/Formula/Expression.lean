import Formula.Rpn

namespace Formula

/-! Formulas together with the declarations they are read by, checked for names that would have two
meanings.
-/

/-- A formula and the names it may use. `juxtaposition` says whether neighbours multiply. -/
structure Expression where
  text : String
  vocabulary : Vocabulary := {}
  juxtaposition : Bool := true

namespace Expression

/-- An expression of a text that has more than blanks. -/
def ofText? (text : String) : Except CompileError Expression :=
  if text.toList.all Character.isBlank then .error .emptyExpression else .ok { text }

def declareNames (expression : Expression) (names : List String) : Expression :=
  { expression with vocabulary := names.foldl Vocabulary.declareName expression.vocabulary }

/-- Declare functions; of several with one name the last counts. -/
def declareFunctions (expression : Expression) (definitions : List FunctionSymbol) : Expression :=
  { expression with
    vocabulary := definitions.foldl Vocabulary.declareFunction expression.vocabulary }

/-- Whether a symbol can be an operator's. -/
def isSymbol (symbol : String) : Bool := !symbol.isEmpty && symbol.toList.all isOperatorChar

/-- Declare an operator, if its symbol can be one. -/
def declareOperator (expression : Expression) (definition : Operator) :
    Except CompileError Expression :=
  if isSymbol definition.symbol then
    .ok { expression with vocabulary := expression.vocabulary.declareOperator definition }
  else .error (.invalidSymbol definition.symbol)

/-- Declare operators; of several with one symbol the last counts. -/
def declareOperators (expression : Expression) (definitions : List Operator) :
    Except CompileError Expression :=
  definitions.foldlM declareOperator expression

/-- The least of some names in code point order. -/
def leastName? : List String → Option String
  | [] => none
  | name :: rest =>
      match leastName? rest with
      | some least => some (if name ≤ least then name else least)
      | none => some name

/-- The first declared name that is kept for a constant, else the least name of a variable or
constant that is also the name of a function. -/
def collision? (expression : Expression) : Option String :=
  let vocabulary := expression.vocabulary
  (vocabulary.names.find? NamedConstant.isName).or <|
    leastName? <| (vocabulary.names ++ NamedConstant.names).filter fun name =>
      (vocabulary.function? name).isSome

/-- The vocabulary with the names of the constants, which every expression can use. -/
def fullVocabulary (expression : Expression) : Vocabulary :=
  { expression.vocabulary with names := expression.vocabulary.names ++ NamedConstant.names }

def rpn (expression : Expression) : Except CompileError (List Token) :=
  match expression.collision? with
  | some name => .error (.nameCollision name)
  | none =>
      (Rpn.ofText expression.fullVocabulary.lexicon expression.juxtaposition
        expression.text).mapError .malformed

end Expression

end Formula
