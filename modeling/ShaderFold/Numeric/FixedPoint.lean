import ShaderFold.Numeric.Rounding

namespace ShaderFold.FixedPoint

/-- One, where a real number is an integer counted in units of `2 ^ -w`. -/
def one (w : Nat) : Int :=
  (1 <<< w : Nat)

def mul (w : Nat) (x y : Int) : Int :=
  (x * y).tdiv (one w)

def div (w : Nat) (x y : Int) : Int :=
  (x * one w).tdiv y

/-- The sum of `t / divisor k`, where `step k` leads from `t` to the next term's. It ends with a
zero term or after the given number of terms. -/
def series (step : Nat → Int → Int) (divisor : Nat → Int) : (terms k : Nat) → (t : Int) → Int
  | 0, _, _ => 0
  | terms + 1, k, t =>
    if t = 0 then 0 else t.tdiv (divisor k) + series step divisor terms (k + 1) (step k t)

def artanh (w : Nat) (z : Int) : Int :=
  let square := mul w z z
  series (fun _ t => mul w t square) (fun k => 2 * k + 1) w 0 z

def arctanSmall (w : Nat) (z : Int) : Int :=
  let square := mul w z z
  series (fun _ t => -mul w t square) (fun k => 2 * k + 1) w 0 z

/-- Half a turn, `16 arctan (1 / 5) - 4 arctan (1 / 239)`. -/
def pi (w : Nat) : Int :=
  16 * arctanSmall w (one w / 5) - 4 * arctanSmall w (one w / 239)

def ln2 (w : Nat) : Int :=
  2 * artanh w (one w / 3)

def exp (w : Nat) (x : Int) : Int × Int :=
  let k := x / ln2 w
  let r := x - k * ln2 w
  (k, series (fun k t => (mul w t r).tdiv (k + 1)) (fun _ => 1) w 0 (one w))

/-- The logarithm of `n / 2 ^ scale`, for positive `n`: the power of two nearest to `n` is split
off. -/
def log (w n scale : Nat) : Int :=
  let e := if 2 * n ≤ 3 <<< n.log2 then n.log2 else n.log2 + 1
  let m := n * one w / one e
  2 * artanh w (div w (m - one w) (m + one w)) + (e - scale) * ln2 w

def sinCosSmall (w : Nat) (r : Int) : Int × Int :=
  let square := mul w r r
  let next (j : Nat) (k : Nat) (t : Int) : Int :=
    (-mul w t square).tdiv ((2 * k + j) * (2 * k + j + 1))
  (series (next 2) (fun _ => 1) w 0 r, series (next 1) (fun _ => 1) w 0 (one w))

def sinCos (w : Nat) (x : Int) : Int × Int :=
  let quarter := pi w / 2
  let turns := (2 * x + quarter) / (2 * quarter)
  let (s, c) := sinCosSmall w (x - turns * quarter)
  match (turns % 4).toNat with
  | 0 => (s, c)
  | 1 => (c, -s)
  | 2 => (-s, -c)
  | _ => (-c, s)

/-- The angle whose tangent is `y / x`, for naturals that are not both zero. Tangents above one
are inverted, and those above a quarter are taken relative to a half. -/
def arctan (w y x : Nat) : Int :=
  let within (z : Int) : Int :=
    if 4 * z ≤ one w then arctanSmall w z
    else
      let half := one w / 2
      arctanSmall w half + arctanSmall w (div w (z - half) (one w + z / 2))
  if y ≤ x then within (y * one w / x) else pi w / 2 - within (x * one w / y)

end ShaderFold.FixedPoint
