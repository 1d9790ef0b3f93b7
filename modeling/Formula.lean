import Formula.Compiler
import Formula.Description
import Formula.Node.Text
import Formula.Proofs.Rpn.OperatorTree
import Formula.Proofs.Rpn.Reading
import Formula.Proofs.Rpn.Written
import Formula.Proofs.Assembly.StackMachine
import Formula.Proofs.Assembly.Evaluation
import Formula.Proofs.Node.Differentiation
import Formula.Proofs.Token.Placement
import Formula.Proofs.Token.Products
import Formula.Proofs.Rpn.Run
import Formula.Proofs.Rpn.Conservation
import Formula.Proofs.Rpn.Grammar
import Formula.Proofs.Assembly.Consumption
import Formula.Proofs.Compiler.Declarations
import Formula.Proofs.Compiler.Outcome
import Formula.Proofs.List.TakeWhile
import Formula.Proofs.Scalar.Magnitude
import Formula.Proofs.Scalar.Reading
import Formula.Proofs.Character.Classes
import Formula.Proofs.Token.Spelling
import Formula.Proofs.Rpn.Acceptance
import Formula.Proofs.Node.Rereading
import Formula.Proofs.Node.Spelling
import Formula.Proofs.Node.Names
import Formula.Proofs.Compiler.RoundTrip
import Formula.Proofs.Rpn.Nesting
import Formula.Proofs.Rpn.Calls
import Formula.Proofs.Rpn.Decoding
import Formula.Proofs.Rpn.Account
import Formula.Proofs.Rpn.Operands
import Formula.Proofs.Rpn.Substitution
import Formula.Proofs.Token.Extent
import Formula.Proofs.Rpn.Release
import Formula.Proofs.Rpn.Segments
import Formula.Proofs.Rpn.Subtrees
import Formula.Proofs.Rpn.Attachment
import Formula.Proofs.Token.Locality
import Formula.Proofs.Token.WrittenProducts
import Formula.Proofs.Compiler.Juxtaposition
import Formula.Proofs.Node.Heredity
import Formula.Proofs.Node.Folding
import Formula.Proofs.Node.SecondDerivative
import Formula.Proofs.Rpn.Juxtaposition
import Formula.Proofs.Compiler.Rebinding
import Formula.Proofs.Compiler.Resolution
import Formula.Proofs.Rpn.Brackets
import Formula.Proofs.Rpn.Chains
import Formula.Proofs.Assembly.Buildable
import Formula.Proofs.Assembly.Descent
import Formula.Proofs.Assembly.Depth
import Formula.Proofs.Assembly.Expansions
import Formula.Proofs.Node.Composition
import Formula.Proofs.Node.Triviality
import Formula.Proofs.Node.Dependence
import Formula.Proofs.Node.Growth
import Formula.Proofs.Token.Passage
import Formula.Proofs.Token.Coverage
import Formula.Proofs.Token.Failure
import Formula.Proofs.Scalar.Literal
import Formula.Proofs.Scalar.Integer
import Formula.Proofs.Token.Respacing
import Formula.Proofs.Expression.Collision
import Formula.Proofs.Token.Relevance
import Formula.Proofs.Compiler.Redisplay
import Formula.Proofs.Compiler.Literals
import Formula.Proofs.Token.WellPlaced
import Formula.Proofs.Rpn.Diagnosis
import Formula.Proofs.Assembly.Parentheses
