import Formula.Token.Builtin

namespace Formula

/-! The words and operator symbols that a formula may use, and what they mean.

Reading a formula needs only a `Lexicon`, the meanings; a `Vocabulary` lists declarations, and its
lexicon adds the built-in functions and operators to them.
-/

/-- What a known word means. -/
inductive Word where
  | name (text : String)
  | function (definition : FunctionSymbol)
deriving DecidableEq

def Word.token : Word → Token
  | name text => .var text
  | function definition => .function definition

/-- The meaning of words and operator symbols. `operator?` is told whether an operand is expected
where the symbol stands. -/
structure Lexicon where
  word? : String → Option Word
  operator? : Bool → String → Option Operator

/-- The names, functions and operators that a formula may use beside the built-in ones. Of several
functions with one name, or operators with one symbol, the first counts. -/
structure Vocabulary where
  names : List String := []
  functions : List FunctionSymbol := []
  operators : List Operator := []

namespace Vocabulary

def declaredFunction? (vocabulary : Vocabulary) (name : String) : Option FunctionSymbol :=
  vocabulary.functions.find? (·.name == name)

def declaredOperator? (vocabulary : Vocabulary) (symbol : String) : Option Operator :=
  vocabulary.operators.find? (·.symbol == symbol)

/-- The function of a name; a declared one hides a built-in one. -/
def function? (vocabulary : Vocabulary) (name : String) : Option FunctionSymbol :=
  (vocabulary.declaredFunction? name).or (FunctionSymbol.builtin? name)

/-- The meaning of a word: a variable if the name is declared, else a function. -/
def word? (vocabulary : Vocabulary) (text : String) : Option Word :=
  if vocabulary.names.contains text then some (.name text)
  else (vocabulary.function? text).map .function

/-- The operator of a symbol where an operand is expected, or where one has just ended. Before an
operand only prefix operators fit, after one only the others; a declared operator that does not fit
leaves the symbol to the built-in one. -/
def operator? (vocabulary : Vocabulary) (operandExpected : Bool) (symbol : String) :
    Option Operator :=
  ((vocabulary.declaredOperator? symbol).filter (·.isPrefix == operandExpected)).or
    (Operator.builtin? symbol (if operandExpected then 1 else 2))

def lexicon (vocabulary : Vocabulary) : Lexicon where
  word? := vocabulary.word?
  operator? := vocabulary.operator?

def declareName (vocabulary : Vocabulary) (name : String) : Vocabulary :=
  { vocabulary with names := vocabulary.names ++ [name] }

/-- Declare a function; it replaces an earlier one of its name. -/
def declareFunction (vocabulary : Vocabulary) (definition : FunctionSymbol) : Vocabulary :=
  { vocabulary with functions := definition :: vocabulary.functions }

/-- Declare an operator; it replaces an earlier one of its symbol. -/
def declareOperator (vocabulary : Vocabulary) (definition : Operator) : Vocabulary :=
  { vocabulary with operators := definition :: vocabulary.operators }

end Vocabulary

end Formula
