import ShaderFold.Folder
import ShaderFold.Proofs.InRange
import ShaderFold.Proofs.Kinds
import ShaderFold.Proofs.Foldability
import ShaderFold.Proofs.QueueConsistency
import ShaderFold.Proofs.Reporting
import ShaderFold.Proofs.QueueContents
import ShaderFold.Proofs.Transparency
import ShaderFold.Proofs.Layout
import ShaderFold.Proofs.Construction
import ShaderFold.Proofs.Elementwise
import ShaderFold.Proofs.Equality
import ShaderFold.Proofs.Shift
import ShaderFold.Proofs.MatrixProduct
import ShaderFold.Proofs.SameKind
import ShaderFold.Proofs.Commutativity
import ShaderFold.Proofs.Conversion
import ShaderFold.Proofs.CallRules
import ShaderFold.Proofs.Componentwise
import ShaderFold.Proofs.UnaryLeaves
import ShaderFold.Proofs.IntegerDivision
import ShaderFold.Proofs.VectorProduct
import ShaderFold.Proofs.StepByStep
import ShaderFold.Proofs.LayoutCheck
import ShaderFold.Proofs.Reinterpretation
import ShaderFold.Proofs.ExactIntegers
import ShaderFold.Proofs.IntegerBounds
import ShaderFold.Proofs.IntegerProduct
import ShaderFold.Proofs.ShiftArithmetic
