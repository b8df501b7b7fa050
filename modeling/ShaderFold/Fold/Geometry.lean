import ShaderFold.Fold.Failure

namespace ShaderFold

def Constant.number (c : Constant) (index : Nat) : Except Failure Double := do
  let v ← c.broadcast index
  .ok v.toDouble

def onPairs (n : Nat) (a b : Constant) (function : Double → Double → Double) :
    Except Failure (List Double) :=
  (List.range n).mapM fun j => do
    let x ← a.number j
    let y ← b.number j
    .ok (function x y)

def onTriples (n : Nat) (a b c : Constant) (function : Double → Double → Double → Double) :
    Except Failure (List Double) :=
  (List.range n).mapM fun j => do
    let x ← a.number j
    let y ← b.number j
    let z ← c.number j
    .ok (function x y z)

namespace Constant

def norm (c : Constant) : Double :=
  (BinaryFloat.sum (c.values.map fun v => v.toDouble * v.toDouble)).sqrt

def dot (a b : Constant) : Except Failure Double := do
  let terms ← onPairs a.size a b (· * ·)
  .ok (BinaryFloat.sum terms)

def distance (a b : Constant) : Except Failure Double := do
  let terms ← onPairs a.size a b fun x y => (x - y) * (x - y)
  .ok (BinaryFloat.sum terms).sqrt

def cross (a b : Constant) : Except Failure (List Double) :=
  (List.range 3).mapM fun j => do
    let p := (j + 1) % 3
    let q := (j + 2) % 3
    let ap ← a.number p
    let bq ← b.number q
    let aq ← a.number q
    let bp ← b.number p
    .ok (ap * bq - aq * bp)

/-- The normal, turned against the incident direction as seen from the reference direction. -/
def faceForward (normal incident reference : Constant) : Except Failure (List Double) := do
  let d ← reference.dot incident
  (List.range normal.size).mapM fun j => do
    let x ← normal.number j
    .ok (if d.less 0 then x else -x)

def reflect (incident normal : Constant) : Except Failure (List Double) := do
  let d ← normal.dot incident
  onPairs incident.size incident normal fun x n => x - 2 * d * n

/-- The refracted direction; zero under total reflection. -/
def refract (incident normal ratio : Constant) : Except Failure (List Double) := do
  let d ← normal.dot incident
  let eta ← ratio.number 0
  let k := 1 - eta * eta * (1 - d * d)
  let slope := eta * d + k.sqrt
  if k.less 0 then .ok (List.replicate incident.size 0)
  else onPairs incident.size incident normal fun x n => eta * x - slope * n

/-- Row and column of an index into a matrix with the given number of rows, which is stored column
by column. A matrix without rows has no indices. -/
def position (rows index : Nat) : Except Failure (Nat × Nat) :=
  if rows = 0 then .error (.outOfRange index 0) else .ok (index % rows, index / rows)

def outerProduct (column row : Constant) : Except Failure (List Double) :=
  (List.range (row.size * column.size)).mapM fun index => do
    let (i, j) ← position column.size index
    let x ← column.number i
    let y ← row.number j
    .ok (x * y)

end Constant

end ShaderFold
