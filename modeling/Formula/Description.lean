import Formula.Compiler
import Formula.Scalar.Text
import Formula.Text.Quoted

namespace Formula

/-! Compilers and their parts described on one line, for people. -/

/-- A record: its name, and its fields between braces. -/
def describeRecord (name : String) (fields : List (String × String)) : String :=
  name ++ " \x7b " ++ ", ".intercalate (fields.map fun field => field.1 ++ ": " ++ field.2) ++
    " \x7d"

/-- The kind of nodes that are built: constants and variables of a scalar type. -/
def describeNodes (α : Type) [Numeral α] : String := "RealFactory<" ++ Numeral.label α ++ ">"

/-- The names and symbols of extensions. -/
def Extensions.describe {N : Type} (extensions : Extensions N) : String :=
  describeRecord "Extensions"
    [("functions", Quoted.list extensions.functionNames),
     ("operators", Quoted.list extensions.operatorSymbols)]

/-- The name and present value of a variable. -/
def Variable.describe {α : Type} [Numeral α] (described : Variable α) : String :=
  describeRecord "Variable"
    [("name", Quoted.text described.name), ("value", Numeral.detailedText described.value)]

/-- The configuration of a compiler; of its variables only the names. -/
def Compiler.describe {α : Type} [Numeral α] (compiler : Compiler α) : String :=
  describeRecord "Compiler"
    [("factory", describeNodes α),
     ("variables", Quoted.list compiler.names),
     ("extensions", compiler.extensions.describe),
     ("implicit_multiplication", toString compiler.juxtaposition),
     ("max_depth", match compiler.maxDepth with
       | none => "None"
       | some limit => "Some(" ++ toString limit ++ ")")]

end Formula
