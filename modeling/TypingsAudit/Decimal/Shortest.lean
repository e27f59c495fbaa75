import TypingsAudit.Decimal.Binary64

set_option autoImplicit false

/-! # The shortest decimal

The shortest decimal of a magnitude is the one with the fewest significant digits among those that
round back to it; of several with equally few, the nearest. `Magnitude.shortest` looks at grids of
1, 2, … 17 digits in turn. On each it tests the two neighbours of the exact value: when any point
of a grid rounds back, so does one of these two. All comparisons are between natural numbers.

`Layout` says where such digits are written with a point and where with an exponent. -/

namespace TypingsAudit.Decimal

/-- A positive decimal `digits · 10 ^ exponent`. -/
structure Digits where
  digits : Nat
  exponent : Int
  deriving DecidableEq, Repr

namespace Magnitude

/-- Whether `digits · 10 ^ k` lies among the reals that round to `x`. Their bounds are half a unit
    away, or a quarter below the first magnitude of a higher exponent, and belong to them when the
    mantissa is even. -/
def roundsBack (x : Magnitude) (d : Digits) : Bool :=
  let quarter := x.exponent - 2
  let below := if x.mantissa = Nat.pow 2 52 ∧ leastExponent < x.exponent then 1 else 2
  -- both sides of `digits · 10 ^ k` against `bound · 2 ^ quarter`, cleared of denominators
  let point := d.digits * Nat.pow 10 d.exponent.toNat * Nat.pow 2 (-quarter).toNat
  let unit := Nat.pow 10 (-d.exponent).toNat * Nat.pow 2 quarter.toNat
  let low := (4 * x.mantissa - below) * unit
  let high := (4 * x.mantissa + 2) * unit
  if x.mantissa % 2 = 0 then low ≤ point && point ≤ high else low < point && point < high

/-- `⌊x / 10 ^ k⌋`, and whether the next number above is nearer to `x / 10 ^ k`; of two equally
    near ones the even one. -/
def neighbour (x : Magnitude) (k : Int) : Nat × Bool :=
  let (n, d) := x.ratio
  let num := n * Nat.pow 10 (-k).toNat
  let den := d * Nat.pow 10 k.toNat
  (num / den, roundDivEven num den != num / den)

/-- The point of the grid of step `10 ^ k` that is nearest to `x`, if it rounds back, or else the
    other neighbour of `x`. -/
def onGrid? (x : Magnitude) (k : Int) : Option Digits :=
  let (low, up) := x.neighbour k
  let candidates := if up then [low + 1, low] else [low, low + 1]
  (candidates.map fun d => Digits.mk d k).find? x.roundsBack

/-- The number of decimal digits. -/
def decimalLength (n : Nat) : Nat :=
  (Nat.toDigits 10 n).length

/-- The least `p` with `x < 10 ^ p`, for a positive `x`. -/
def decimalExponent (x : Magnitude) : Int :=
  let (n, d) := x.ratio
  if d ≤ n then decimalLength (n / d)
  else
    -- `x < 1`: one place further for every tenfold that stays below one
    let zeros := (List.range 400).find? fun j => d ≤ n * Nat.pow 10 (j + 1)
    Int.negOfNat (zeros.getD 400)

/-- Drop the zeros at the end of the digits; the fuel bounds their number. -/
def dropZeros : Nat → Digits → Digits
  | 0, d => d
  | fuel + 1, d =>
    if d.digits % 10 = 0 ∧ d.digits ≠ 0 then dropZeros fuel ⟨d.digits / 10, d.exponent + 1⟩ else d

/-- The shortest decimal that rounds back to `x`. Seventeen digits always do. -/
def shortest (x : Magnitude) : Digits :=
  if x.mantissa = 0 then ⟨0, 0⟩
  else
    let p := x.decimalExponent
    let found := (List.range 17).findSome? fun (n : Nat) => x.onGrid? (p - n - 1)
    dropZeros 20 (found.getD ⟨0, 0⟩)

end Magnitude

/-- Where digits are written with a point and where with an exponent. -/
structure Layout where
  /-- The exponents of the first digit that are written with a point, from and below; `none` for
      all of them. -/
  positional : Option (Int × Int)
  /-- Whether a whole number ends in `.0`. -/
  wholePoint : Bool

namespace Layout

/-- Digits `ds` with the point after the first `p` of them. -/
def withPoint (layout : Layout) (ds : List Char) (p : Int) : String :=
  let n := ds.length
  if p ≤ 0 then "0." ++ String.ofList (List.replicate (-p).toNat '0' ++ ds)
  else if n ≤ p.toNat then
    String.ofList (ds ++ List.replicate (p.toNat - n) '0') ++ (if layout.wholePoint then ".0" else "")
  else String.ofList (ds.take p.toNat) ++ "." ++ String.ofList (ds.drop p.toNat)

/-- Digits `ds` with the point after the first one, and an exponent that carries its sign. -/
def withExponent (ds : List Char) (e : Int) : String :=
  let mantissa :=
    match ds with
    | [] => ""
    | [d] => String.ofList [d]
    | d :: rest => String.ofList (d :: '.' :: rest)
  mantissa ++ "e" ++ (if e < 0 then "-" else "+") ++ toString e.natAbs

/-- The text of a magnitude by its shortest decimal. -/
def render (layout : Layout) (x : Magnitude) : String :=
  let d := x.shortest
  let ds := Nat.toDigits 10 d.digits
  let p := d.exponent + ds.length
  match layout.positional with
  | none => layout.withPoint ds p
  | some (low, high) =>
    if low ≤ p - 1 ∧ p - 1 < high then layout.withPoint ds p else withExponent ds (p - 1)

end Layout

end TypingsAudit.Decimal
