import ShaderFold.Numeric.BinaryFloat

namespace ShaderFold

structure Decimal where
  digits : Nat
  exponent : Int

namespace Decimal

def units (d : Decimal) (f : FloatFormat) : Nat × Nat :=
  (d.digits * Nat.pow 10 d.exponent.toNat * f.unit, Nat.pow 10 (-d.exponent).toNat)

def readsAs (d : Decimal) (f : FloatFormat) (u : Nat) : Bool :=
  nearest f.precision (d.units f).1 (d.units f).2 = u

/-- The power of ten of the first digit of `u` units, for positive `u`. -/
def order (f : FloatFormat) (u : Nat) : Int :=
  let guess := ((u.log2 : Int) - f.scale) * 30103 / 100000
  let (num, den) := units ⟨1, guess + 1⟩ f
  if num ≤ u * den then guess + 1 else guess

/-- The decimal of the given number of digits that stands for `u` units, if there is one: the
nearer of two, and the upper one if both are equally near. -/
def ofCount? (f : FloatFormat) (u count : Nat) : Option Decimal :=
  let exponent := order f u + 1 - count
  let num := u * Nat.pow 10 (-exponent).toNat
  let den := f.unit * Nat.pow 10 exponent.toNat
  let lower : Decimal := ⟨num / den, exponent⟩
  let upper : Decimal := ⟨num / den + 1, exponent⟩
  match lower.readsAs f u, upper.readsAs f u with
  | true, true => some (if 2 * (num % den) < den then lower else upper)
  | true, false => some lower
  | false, true => some upper
  | false, false => none

/-- The shortest decimal that stands for `u` units, for positive `u`. A decimal has enough digits
when it has as many as the format has bits. -/
def shortest (f : FloatFormat) (u : Nat) : Decimal :=
  ((List.range f.precision).findSome? fun n => ofCount? f u (n + 1)).getD ⟨0, 0⟩

/-- Positional from `10 ^ -4` up to `10 ^ 16`, with at least one digit behind the point; with an
exponent outside. -/
def text (d : Decimal) : String :=
  let all := Nat.toDigits 10 d.digits
  let digits := (all.reverse.dropWhile (· == '0')).reverse
  let order := d.exponent + all.length - 1
  if order < -4 ∨ 16 ≤ order then
    let fraction := digits.drop 1
    String.ofList (digits.take 1 ++ (if fraction.isEmpty then [] else '.' :: fraction)) ++
      "e" ++ toString order
  else if order < 0 then
    String.ofList ('0' :: '.' :: (List.replicate (-order - 1).toNat '0' ++ digits))
  else
    let whole := order.toNat + 1
    let fraction := digits.drop whole
    String.ofList (digits.take whole ++ List.replicate (whole - digits.length) '0' ++
      '.' :: (if fraction.isEmpty then ['0'] else fraction))

end Decimal

def BinaryFloat.text {f : FloatFormat} : BinaryFloat f → String
  | .nan => "NaN"
  | .infinite negative => if negative then "-inf" else "inf"
  | .finite negative u _ =>
    (if negative then "-" else "") ++ if u = 0 then "0.0" else (Decimal.shortest f u).text

end ShaderFold
