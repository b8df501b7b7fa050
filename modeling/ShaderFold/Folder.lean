import ShaderFold.Diagnostic.Queue
import ShaderFold.Fold.Binary
import ShaderFold.Fold.Call

namespace ShaderFold

inductive Request where
  | binary (op : BinaryOp) (left right : Constant)
  | unary (op : UnaryOp) (operand : Constant) (resultTy : Ty)
  | builtin (op : Builtin) (operands : List Constant) (span : Span)
  | construct (target : Ty) (sources : List Constant) (span : Span)

namespace Request

def fold : Request → Folded
  | binary op left right => op.fold left right
  | unary op operand resultTy => op.fold operand resultTy
  | builtin op operands span => op.fold operands span
  | construct target sources span => target.construct sources span

/-- The place at which a failure is reported. -/
def span : Request → Span
  | binary _ left right => left.span.merge right.span
  | unary _ operand _ => operand.span
  | builtin _ _ span | construct _ _ span => span

end Request

structure Folder (σ : Type) where
  sink : σ
  /-- Whether everything has to fold. Otherwise what does not fold is left to run time. -/
  strict : Bool

inductive Callee where
  | builtin (op : Builtin)
  | constructor (target : Ty)

def Callee.request (callee : Callee) (operands : List Constant) (span : Span) : Request :=
  match callee with
  | builtin op => .builtin op operands span
  | constructor target => .construct target operands span

def allConstant (children : List (Option Constant)) : Bool :=
  children.all Option.isSome

namespace Folder

variable {σ : Type} [Sink σ]

def notConstant (span : Span) : Diagnostic where
  code := .notConstant
  severity := .error
  message := "expression is not a valid constant expression"
  labels := [⟨span, "this must be computable at compile time", true⟩]
  notes := []

def reports (strict : Bool) (failure : Failure) (span : Span) : List Diagnostic :=
  if strict then [failure.diagnostic .error span, notConstant span]
  else
    [(failure.diagnostic .warning span).addNote "the expression is left for run-time evaluation"]

def report (folder : Folder σ) (outcome : Folded) (span : Span) : Folder σ :=
  match outcome with
  | .ok _ => folder
  | .error failure =>
    { folder with
      sink := (reports folder.strict failure span).foldl Sink.emit folder.sink }

def fold (folder : Folder σ) (request : Request) : Folded × Folder σ :=
  (request.fold, folder.report request.fold request.span)

/-- Fold a node if all its children are constants; otherwise it is kept as it is. -/
def foldNode (folder : Folder σ) (callee : Callee) (children : List (Option Constant))
    (span : Span) : Except Failure (Option Constant) × Folder σ :=
  match children.mapM id with
  | none => (.ok none, folder)
  | some operands =>
    let (outcome, folder) := folder.fold (callee.request operands span)
    (outcome.map some, folder)

end Folder

end ShaderFold
