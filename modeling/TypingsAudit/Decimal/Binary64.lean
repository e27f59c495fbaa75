set_option autoImplicit false

/-! # Binary floating point, 64 bits

`Magnitude` is a finite number `mantissa · 2 ^ exponent` with at most 53 bits of mantissa. Every
operation computes the exact rational result as a quotient of natural numbers and rounds once, to
the nearest magnitude, ties to an even mantissa: `Magnitude.ofRatio`. A result too large for the
format is `none`. -/

namespace TypingsAudit.Decimal

/-- `num / den` rounded to the nearest natural number, ties to even. -/
def roundDivEven (num den : Nat) : Nat :=
  let q := num / den
  let r := num % den
  if 2 * r < den then q
  else if den < 2 * r then q + 1
  else if q % 2 = 0 then q else q + 1

/-- The finite non-negative numbers of the format. -/
structure Magnitude where
  mantissa : Nat
  exponent : Int
  deriving DecidableEq, Repr

namespace Magnitude

/-- The exponent of the smallest positive magnitude. -/
def leastExponent : Int := -1074

/-- The exponent of the largest magnitudes. -/
def greatestExponent : Int := 971

def zero : Magnitude := ⟨0, leastExponent⟩

/-- `num / den / 2 ^ e` as a quotient of natural numbers. -/
def scaled (num den : Nat) (e : Int) : Nat × Nat :=
  (num * Nat.pow 2 (-e).toNat, den * Nat.pow 2 e.toNat)

/-- The exponent at which `num / den` has 53 bits before the point, or the least one. -/
def exponentOf (num den : Nat) : Int :=
  let e := max ((Nat.log2 num : Int) - Nat.log2 den - 53) leastExponent
  let (n, d) := scaled num den e
  if n / d < Nat.pow 2 53 then e else e + 1

/-- The magnitude nearest to `num / den`, ties to an even mantissa; `none` when it is too large. -/
def ofRatio (num den : Nat) : Option Magnitude :=
  if num = 0 then some zero
  else
    let e := exponentOf num den
    let (n, d) := scaled num den e
    let m := roundDivEven n d
    let result : Magnitude := if m = Nat.pow 2 53 then ⟨Nat.pow 2 52, e + 1⟩ else ⟨m, e⟩
    if result.exponent ≤ greatestExponent then some result else none

/-- The magnitude as a quotient of natural numbers. -/
def ratio (x : Magnitude) : Nat × Nat :=
  scaled x.mantissa 1 (-x.exponent)

/-- `digits · 10 ^ exponent` to the nearest magnitude. -/
def ofDecimal (digits : Nat) (exponent : Int) : Option Magnitude :=
  ofRatio (digits * Nat.pow 10 exponent.toNat) (Nat.pow 10 (-exponent).toNat)

/-- The rounded product. -/
def mul (x y : Magnitude) : Option Magnitude :=
  ofRatio (x.ratio.1 * y.ratio.1) (x.ratio.2 * y.ratio.2)

/-- The rounded quotient by a positive magnitude. -/
def div (x y : Magnitude) : Option Magnitude :=
  ofRatio (x.ratio.1 * y.ratio.2) (x.ratio.2 * y.ratio.1)

example : ofDecimal 5 (-324) = some ⟨1, -1074⟩ := by decide +kernel
example : ofDecimal 1 0 = some ⟨Nat.pow 2 52, -52⟩ := by decide +kernel
example : ofDecimal 1 309 = none := by decide +kernel

end Magnitude

/-- A finite number of the format; zero has two signs. -/
structure Binary64 where
  negative : Bool
  magnitude : Magnitude
  deriving DecidableEq, Repr

end TypingsAudit.Decimal
