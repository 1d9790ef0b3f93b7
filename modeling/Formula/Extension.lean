import Formula.Vocabulary

namespace Formula

/-! Functions and operators of the user, with what a use of them stands for. -/

/-- A function and the node that replaces a call, given the arguments in the order of writing. -/
structure CustomFunction (N : Type) where
  definition : FunctionSymbol
  expand : List N → N

/-- An operator and the node that replaces its use, given the operands in the order of writing. -/
structure CustomOperator (N : Type) where
  definition : Operator
  expand : List N → N

/-- The functions and operators of the user, the latest first; of several with one name or symbol
the latest counts. -/
structure Extensions (N : Type) where
  functions : List (CustomFunction N) := []
  operators : List (CustomOperator N) := []

namespace Extensions

variable {N : Type}

def function? (extensions : Extensions N) (name : String) : Option (CustomFunction N) :=
  extensions.functions.find? (·.definition.name == name)

def operator? (extensions : Extensions N) (symbol : String) : Option (CustomOperator N) :=
  extensions.operators.find? (·.definition.symbol == symbol)

def declareFunction (extensions : Extensions N) (custom : CustomFunction N) : Extensions N :=
  { extensions with functions := custom :: extensions.functions }

def declareOperator (extensions : Extensions N) (custom : CustomOperator N) : Extensions N :=
  { extensions with operators := custom :: extensions.operators }

/-- The names of the functions, each once, the oldest first. -/
def functionNames (extensions : Extensions N) : List String :=
  (extensions.functions.reverse.map (·.definition.name)).eraseDups

/-- The symbols of the operators, each once, the oldest first. -/
def operatorSymbols (extensions : Extensions N) : List String :=
  (extensions.operators.reverse.map (·.definition.symbol)).eraseDups

def isEmpty (extensions : Extensions N) : Bool :=
  extensions.functions.isEmpty && extensions.operators.isEmpty

/-- The functions as a formula may call them. -/
def functionSymbols (extensions : Extensions N) : List FunctionSymbol :=
  extensions.functions.map (·.definition)

/-- The operators as a formula may write them. -/
def operatorDefinitions (extensions : Extensions N) : List Operator :=
  extensions.operators.map (·.definition)

end Extensions

end Formula
