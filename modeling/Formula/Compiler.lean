import Formula.Assembly
import Formula.Expression
import Formula.Node.Derivative

namespace Formula

/-! From formulas to expression trees, and to values, under a set of bound variables and extensions.
-/

/-- A variable and its present value. -/
structure Variable (α : Type) where
  name : String
  value : α
deriving Repr, DecidableEq

namespace Variable

variable {α : Type}

def find? (bindings : List (Variable α)) (name : String) : Option (Variable α) :=
  bindings.find? (·.name == name)

/-- The values of variables: of several with one name the first counts, and names without a
variable are worth zero. -/
def assignment [Scalar α] (bindings : List (Variable α)) : Assignment α := fun name =>
  match find? bindings name with
  | some found => found.value
  | none => 0

end Variable

/-- Expression trees as the target of an assembly. An exponent is worth what it is under the
assignment, which only matters for nodes with variables, and those are no exponents. -/
def Node.target {α : Type} [Scalar α] (assignment : Assignment α) : Target α (Node α) where
  constant := .constant
  negation := .negation
  call := .call
  binary := .binary
  power := .power
  constantValue? node := if node.isConstant then some (node.value assignment) else none

/-- The assembler of expression trees over some variables. -/
def Node.assembler {α : Type} [Scalar α] (bindings : List (Variable α))
    (extensions : Extensions (Node α)) (maxDepth : Option Nat) : Assembler α (Node α) where
  target := Node.target (Variable.assignment bindings)
  boundNode? name := (Variable.find? bindings name).map fun found => .var found.name
  extensions
  maxDepth

/-- All that formulas are compiled with. -/
structure Compiler (α : Type) where
  bindings : List (Variable α) := []
  extensions : Extensions (Node α) := {}
  juxtaposition : Bool := true
  maxDepth : Option Nat := none

namespace Compiler

variable {α : Type}

def bind (compiler : Compiler α) (added : Variable α) : Compiler α :=
  { compiler with bindings := compiler.bindings ++ [added] }

/-- Give the variable at an index a new value. -/
def assign (compiler : Compiler α) (index : Nat) (value : α) : Compiler α :=
  { compiler with bindings := compiler.bindings.modify index ({ · with value }) }

def names (compiler : Compiler α) : List String := compiler.bindings.map (·.name)

def assignment [Scalar α] (compiler : Compiler α) : Assignment α :=
  Variable.assignment compiler.bindings

/-- The expression of a formula with the names that the compiler knows. -/
def expression (compiler : Compiler α) (text : String) : Except CompileError Expression := do
  let blank ← Expression.ofText? text
  let expression ←
    ({ blank with juxtaposition := compiler.juxtaposition }.declareFunctions
      compiler.extensions.functionSymbols.reverse).declareOperators
      compiler.extensions.operatorDefinitions.reverse
  return expression.declareNames compiler.names

def compile [Numeral α] (compiler : Compiler α) (text : String) : Except CompileError (Node α) := do
  let rpn ← (← compiler.expression text).rpn
  (Node.assembler compiler.bindings compiler.extensions compiler.maxDepth).build rpn

/-- The trees of several formulas, each with its own outcome. -/
def compileAll [Numeral α] (compiler : Compiler α) (texts : List String) :
    List (Except CompileError (Node α)) :=
  texts.map compiler.compile

end Compiler

def evaluate {α : Type} [Numeral α] (text : String) (bindings : List (Variable α)) :
    Except CompileError α := do
  let tree ← ({ bindings : Compiler α }).compile text
  return tree.value (Variable.assignment bindings)

end Formula
