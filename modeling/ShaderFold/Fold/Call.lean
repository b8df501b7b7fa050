import ShaderFold.Fold.Geometry
import ShaderFold.Fold.LeafFunction

namespace ShaderFold

def storeAll (op : Operator) (kind : Kind) (xs : List Double) : Except Failure (List Scalar) :=
  xs.mapM fun x => orFail (Scalar.ofDouble? kind x) (.unsupported op kind)

def storeVector (op : UnaryOp) (operand : Constant) (resultKind : Kind) (xs : List Double) :
    Except Failure (List Scalar) :=
  if operand.ty.kind.isFloat then storeAll (.unary op) resultKind xs
  else .error (.unsupported (.unary op) operand.ty.kind)

def UnaryOp.values (op : UnaryOp) (operand : Constant) (resultKind : Kind) :
    Except Failure (List Scalar) :=
  match op with
  | .length => storeVector op operand resultKind [operand.norm]
  | .normalize =>
    let norm := operand.norm
    storeVector op operand resultKind (operand.values.map fun v => v.toDouble / norm)
  | _ =>
    operand.values.mapM fun v =>
      orFail (op.onLeaf? resultKind v) (.unsupported (.unary op) v.kind)

def UnaryOp.fold (op : UnaryOp) (operand : Constant) (resultTy : Ty) : Folded := do
  let size := if op.isReduction then 1 else operand.size
  if op.isNeverFolded then .error (.unsupported (.unary op) operand.ty.kind)
  else if resultTy.size ≠ size then .error (.malformed (.unary op) (.resultSize resultTy size))
  else
    let values ← op.values operand resultTy.kind
    Constant.result (.unary op) resultTy values operand.span

/-- A built-in function applied to as many operands as it takes. -/
structure BuiltinCall where
  ty : Ty
  agree : Bool
  numbers : Except Failure (List Double)

namespace BuiltinCall

/-- Whether each operand of a call that is computed index by index has the leaves of the result or
a single one. -/
def broadcasts (ty : Ty) (operands : List Constant) : Bool :=
  operands.all fun c => c.size = 1 ∨ c.size = ty.size

def pairwise (ty : Ty) (a b : Constant) (function : Double → Double → Double) : BuiltinCall :=
  ⟨ty, broadcasts ty [a, b], onPairs ty.size a b function⟩

def triplewise (ty : Ty) (a b c : Constant) (function : Double → Double → Double → Double) :
    BuiltinCall :=
  ⟨ty, broadcasts ty [a, b, c], onTriples ty.size a b c function⟩

end BuiltinCall

def largerTy (a b : Constant) : Ty :=
  if a.size < b.size then b.ty else a.ty

namespace Double

def select (x y a : Double) : Double :=
  if a.equal 0 then x else y

def mix (x y a : Double) : Double :=
  x * (1 - a) + y * a

def step (edge x : Double) : Double :=
  if x.less edge then 0 else 1

def smoothStep (edge0 edge1 x : Double) : Double :=
  let t := ((x - edge0) / (edge1 - edge0)).clamp 0 1
  t * t * (3 - 2 * t)

end Double

/-- What a built-in function makes of its operands; nothing if their number is wrong. -/
def Builtin.call? : Builtin → List Constant → Option BuiltinCall
  | min, [a, b] => some (.pairwise a.ty a b BinaryFloat.min)
  | max, [a, b] => some (.pairwise a.ty a b BinaryFloat.max)
  | atan, [y, x] => some (.pairwise y.ty y x BinaryFloat.arctan2)
  | pow, [x, y] => some (.pairwise x.ty x y BinaryFloat.pow)
  | modf, [x, _] => some ⟨x.ty, true, .error (.notFoldable (.builtin modf))⟩
  | clamp, [x, lo, hi] => some (.triplewise x.ty x lo hi fun x lo hi => (x.max lo).min hi)
  | mix, [x, y, a] =>
    some (.triplewise x.ty x y a (if a.ty.kind = .bool then Double.select else Double.mix))
  | step, [edge, x] => some (.pairwise (largerTy edge x) edge x Double.step)
  | smoothStep, [edge0, edge1, x] =>
    some (.triplewise (largerTy edge0 x) edge0 edge1 x Double.smoothStep)
  | distance, [a, b] => some ⟨.scalar a.ty.kind, a.size = b.size, do .ok [← a.distance b]⟩
  | dot, [a, b] => some ⟨.scalar a.ty.kind, a.size = b.size, do .ok [← a.dot b]⟩
  | cross, [a, b] => some ⟨a.ty, a.size = 3 ∧ b.size = 3, a.cross b⟩
  | faceForward, [n, i, r] => some ⟨n.ty, n.size = i.size ∧ n.size = r.size, n.faceForward i r⟩
  | reflect, [i, n] => some ⟨i.ty, i.size = n.size, i.reflect n⟩
  | refract, [i, n, ratio] => some ⟨i.ty, i.size = n.size ∧ ratio.size = 1, i.refract n ratio⟩
  | outerProduct, [column, row] =>
    some ⟨.matrix column.ty.kind row.size column.size, true, column.outerProduct row⟩
  | _, _ => none

def Builtin.takesIntegers : Builtin → Bool
  | min | max | clamp => true
  | _ => false

/-- The first kind among operands from position `index` on that differs from the kind of the first
operand. Booleans may select between the values that `mix` blends. -/
def Builtin.strayKind? (op : Builtin) (kind : Kind) (index : Nat) : List Constant → Option Kind
  | [] => none
  | c :: rest =>
    if c.ty.kind = kind ∨ op = mix ∧ index = 2 ∧ c.ty.kind = .bool then
      op.strayKind? kind (index + 1) rest
    else some c.ty.kind

def Builtin.unsupportedKind? (op : Builtin) : List Constant → Option Kind
  | [] => none
  | c :: rest =>
    if c.ty.kind.isFloat || op.takesIntegers && c.ty.kind.isInteger then
      op.strayKind? c.ty.kind 1 rest
    else some c.ty.kind

/-- Fold a built-in function. Its number of operands is looked at first, then their kinds, then
their sizes. -/
def Builtin.fold (op : Builtin) (operands : List Constant) (span : Span) : Folded :=
  match op.call? operands with
  | none => .error (.malformed (.builtin op) (.operandCount op.arity operands.length))
  | some call =>
    match op.unsupportedKind? operands with
    | some kind => .error (.unsupported (.builtin op) kind)
    | none =>
      if call.agree then do
        let xs ← call.numbers
        let values ← storeAll (.builtin op) call.ty.kind xs
        Constant.result (.builtin op) call.ty values span
      else .error (.malformed (.builtin op) (.operandTypes (operands.map Constant.ty)))

/-- The leaves that arguments supply when `needed` are asked for: a lone leaf as often as needed,
otherwise all leaves of all arguments in order. -/
def supply (needed : Nat) : List Constant → Except Failure (List Scalar)
  | [single] =>
    if single.size = 1 then do
      let v ← single.leaf 0
      .ok (List.replicate needed v)
    else .ok single.values
  | sources => .ok (sources.flatMap Constant.values)

/-- Convert leaves to the kinds of the leaves they become. Leaves too many are left out. -/
def convertAll (kinds : List Kind) (values : List Scalar) : Except Failure (List Scalar) :=
  (kinds.zip values).mapM fun (k, v) => orFail (v.convert? k) (.unsupported .construct v.kind)

def Ty.construct (target : Ty) (sources : List Constant) (span : Span) : Folded := do
  if sources.isEmpty then .error (.malformed .construct .noArguments)
  else
    let supplied ← supply target.size sources
    if supplied.length < target.size then
      .error (.malformed .construct (.tooFewValues target target.size supplied.length))
    else
      let values ← convertAll target.leafKinds supplied
      Constant.result .construct target values span

end ShaderFold
