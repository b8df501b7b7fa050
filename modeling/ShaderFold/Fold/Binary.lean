import ShaderFold.Fold.Failure
import ShaderFold.Scalar.Operations

namespace ShaderFold

/-- The operand whose type an operation on each pair of leaves has: the left one if both have the
same number of leaves, else the one that has more than a single leaf. -/
def broadcastTy (op : BinaryOp) (left right : Constant) : Except Failure Ty :=
  if left.size = right.size then .ok left.ty
  else if left.size = 1 then .ok right.ty
  else if right.size = 1 then .ok left.ty
  else .error (.malformed (.binary op) (.sizes left.size right.size))

def BinaryOp.onLeaves? : BinaryOp → Option (Scalar → Scalar → Option Scalar)
  | add => some Scalar.add?
  | sub => some Scalar.sub?
  | mul | vectorTimesScalar | matrixTimesScalar => some Scalar.mul?
  | div => some Scalar.div?
  | mod => some Scalar.mod?
  | bitAnd => some Scalar.bitAnd?
  | bitOr => some Scalar.bitOr?
  | bitXor => some Scalar.bitXor?
  | shiftLeft => some Scalar.shiftLeft?
  | shiftRight => some Scalar.shiftRight?
  | logicalAnd => some Scalar.logicalAnd?
  | logicalOr => some Scalar.logicalOr?
  | logicalXor => some Scalar.logicalXor?
  | _ => none

/-- Apply a rule to the leaves at every index. The first pair without a result decides the
failure. -/
def elementwise (op : BinaryOp) (rule : Scalar → Scalar → Option Scalar) (left right : Constant) :
    Folded := do
  let ty ← broadcastTy op left right
  let values ← (List.range ty.size).mapM fun i => do
    let a ← left.broadcast i
    let b ← right.broadcast i
    orFail (rule a b) (.unsupported (.binary op) a.kind)
  Constant.result (.binary op) ty values left.span

/-- The sum over `k < n` of the products of leaf `i k` of the left and leaf `j k` of the right
operand. -/
def contract (left right : Constant) (n : Nat) (i j : Nat → Nat) : Except Failure Double := do
  let terms ← (List.range n).mapM fun k => do
    let a ← left.leaf (i k)
    let b ← right.leaf (j k)
    .ok (a.toDouble * b.toDouble)
  .ok (BinaryFloat.sum terms)

def numericKind (op : BinaryOp) (left : Constant) : Except Failure Kind :=
  if left.ty.kind.isNumeric then .ok left.ty.kind
  else .error (.unsupported (.binary op) left.ty.kind)

def storeProduct (op : BinaryOp) (ty : Ty) (sums : List Double) (span : Span) : Folded :=
  Constant.result (.binary op) ty (sums.filterMap (Scalar.ofDouble? ty.kind)) span

def Constant.matrixTimesMatrix (left right : Constant) : Folded := do
  let kind ← numericKind .matrixTimesMatrix left
  match left.ty, right.ty with
  | .matrix _ inner rows, .matrix _ cols inner' =>
    if inner = inner' then do
      let sums ← (List.range (cols * rows)).mapM fun index =>
        contract left right inner (fun k => k * rows + index % rows)
          (fun k => index / rows * inner + k)
      storeProduct .matrixTimesMatrix (.matrix kind cols rows) sums left.span
    else .error (.malformed (.binary .matrixTimesMatrix) (.product left.ty right.ty))
  | _, _ => .error (.malformed (.binary .matrixTimesMatrix) (.product left.ty right.ty))

/-- The right operand counts as a column, whatever its type. -/
def Constant.matrixTimesVector (left right : Constant) : Folded := do
  let kind ← numericKind .matrixTimesVector left
  match left.ty with
  | .matrix _ cols rows =>
    if cols = right.size then do
      let sums ← (List.range rows).mapM fun row =>
        contract left right cols (fun k => k * rows + row) id
      storeProduct .matrixTimesVector (.vector kind rows) sums left.span
    else .error (.malformed (.binary .matrixTimesVector) (.product left.ty right.ty))
  | _ => .error (.malformed (.binary .matrixTimesVector) (.product left.ty right.ty))

/-- The left operand counts as a row, whatever its type. -/
def Constant.vectorTimesMatrix (left right : Constant) : Folded := do
  let kind ← numericKind .vectorTimesMatrix left
  match right.ty with
  | .matrix _ cols rows =>
    if rows = left.size then do
      let sums ← (List.range cols).mapM fun col =>
        contract left right rows id (fun k => col * rows + k)
      storeProduct .vectorTimesMatrix (.vector kind cols) sums left.span
    else .error (.malformed (.binary .vectorTimesMatrix) (.product left.ty right.ty))
  | _ => .error (.malformed (.binary .vectorTimesMatrix) (.product left.ty right.ty))

def BinaryOp.holds? : BinaryOp → Scalar → Scalar → Option Bool
  | .less, a, b => a.less? b
  | .greater, a, b => a.greater? b
  | .lessEqual, a, b => (a.greater? b).map (!·)
  | .greaterEqual, a, b => (a.less? b).map (!·)
  | _, _, _ => none

def foldOrder (op : BinaryOp) (left right : Constant) : Folded := do
  if left.size = 1 ∧ right.size = 1 then
    let a ← left.leaf 0
    let b ← right.leaf 0
    let holds ← orFail (op.holds? a b) (.unsupported (.binary op) a.kind)
    .ok (.scalar (.bool holds) left.span)
  else .error (.malformed (.binary op) (.notScalars left.ty right.ty))

def slice (values : List Scalar) (start stop : Nat) : Except Failure (List Scalar) :=
  if stop ≤ values.length then .ok ((values.drop start).take (stop - start))
  else .error (.outOfRange stop values.length)

mutual

/-- Whether two lists of values agree as values of a type. Lists that do not have the length the
type asks for never agree, and empty lists that do always agree. -/
def Ty.valuesEqual (ty : Ty) (left right : List Scalar) : Except Failure Bool :=
  if left.length = ty.size ∧ right.length = ty.size then
    match ty with
    | .array element len =>
      if ty.size = 0 then .ok true
      else (List.range len).allM fun i => do
        let a ← slice left (i * element.size) ((i + 1) * element.size)
        let b ← slice right (i * element.size) ((i + 1) * element.size)
        element.valuesEqual a b
    | .struct members => Ty.membersEqual members 0 left right
    | _ => .ok (equalLeaves left right)
  else .ok false

def Ty.membersEqual (members : List (Member Ty)) (offset : Nat) (left right : List Scalar) :
    Except Failure Bool :=
  match members with
  | [] => .ok true
  | ⟨_, ty⟩ :: rest => do
    let a ← slice left offset (offset + ty.size)
    let b ← slice right offset (offset + ty.size)
    let same ← if ty.kind = .struct then ty.valuesEqual a b else .ok (equalLeaves a b)
    if same then Ty.membersEqual rest (offset + ty.size) left right else .ok false

end

/-- Compare leaves at the given indices up to the first that differ. Leaves of different kinds
cannot be compared. -/
def broadcastEqual (op : BinaryOp) (left right : Constant) : List Nat → Except Failure Bool
  | [] => .ok true
  | i :: rest => do
    let a ← left.broadcast i
    let b ← right.broadcast i
    if a.kind ≠ b.kind then .error (.unsupported (.binary op) a.kind)
    else if a.equal b then broadcastEqual op left right rest
    else .ok false

def constantsEqual (op : BinaryOp) (left right : Constant) : Except Failure Bool := do
  if left.ty.kind = .struct then
    if left.ty = right.ty then left.ty.valuesEqual left.values right.values
    else .error (.malformed (.binary op) (.incomparable left.ty right.ty))
  else
    let ty ← broadcastTy op left right
    broadcastEqual op left right (List.range ty.size)

def foldEqual (left right : Constant) : Folded := do
  let same ← constantsEqual .equal left right
  .ok (.scalar (.bool same) left.span)

def foldNotEqual (left right : Constant) : Folded := do
  let same ← constantsEqual .notEqual left right
  .ok (.scalar (.bool (!same)) left.span)

def BinaryOp.fold (op : BinaryOp) (left right : Constant) : Folded :=
  match op.onLeaves? with
  | some rule => elementwise op rule left right
  | none =>
    match op with
    | .matrixTimesMatrix => left.matrixTimesMatrix right
    | .matrixTimesVector => left.matrixTimesVector right
    | .vectorTimesMatrix => left.vectorTimesMatrix right
    | .equal => foldEqual left right
    | .notEqual => foldNotEqual left right
    | _ => foldOrder op left right

end ShaderFold
