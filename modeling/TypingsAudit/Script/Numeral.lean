import TypingsAudit.Decimal.Shortest

set_option autoImplicit false

/-! # Numerals

The values of number literals as texts. A property keyed by a number goes by the text of its value,
so `0x10` and `16.0` are one key. Values are floating-point numbers; the text is the shortest
decimal that reads back, always without an exponent. -/

namespace TypingsAudit.Script.Numeral

open TypingsAudit.Decimal

/-- Values are written with a point at most, whole ones without it. -/
def layout : Layout := ⟨none, false⟩

/-- The text of a value; one beyond the format is infinite. -/
def text : Option Magnitude → String
  | some x => layout.render x
  | none => "inf"

/-- The value of a digit up to 15. -/
def digit? (c : Char) : Option Nat :=
  if c.isDigit then some (c.toNat - '0'.toNat)
  else if 'a' ≤ c ∧ c ≤ 'f' then some (c.toNat - 'a'.toNat + 10)
  else if 'A' ≤ c ∧ c ≤ 'F' then some (c.toNat - 'A'.toNat + 10)
  else none

/-- Whether `c` is a digit in the given base, at most sixteen. -/
def isDigitOf (base : Nat) (c : Char) : Bool :=
  (digit? c).any (· < base)

/-- The number written by `digits`, read on from `acc`. -/
def natural (base acc : Nat) (digits : List Char) : Nat :=
  digits.foldl (fun n c => n * base + (digit? c).getD 0) acc

/-- The value of a whole number. -/
def whole (base : Nat) (digits : List Char) : Option Magnitude :=
  Magnitude.ofRatio (natural base 0 digits) 1

/-- The value of a whole number that is rounded after every digit. -/
def stepwise (base : Nat) (digits : List Char) : Option Magnitude :=
  digits.foldl
    (fun (x : Option Magnitude) c => x.bind fun x =>
      let (n, d) := x.ratio
      Magnitude.ofRatio (n * base + (digit? c).getD 0 * d) d)
    (some Magnitude.zero)

/-- How many digits of a base other than ten are sure to fit 64 bits. -/
def exactLength : Nat → Nat
  | 2 => 64
  | 8 => 21
  | _ => 16

/-- The value of a whole number in a base other than ten, with the given number of separators
    between its digits. One with more digits and separators than digits are sure to fit 64 bits is
    rounded after every digit. -/
def based (base separators : Nat) (digits : List Char) : Option Magnitude :=
  if exactLength base < digits.length + separators then stepwise base digits
  else whole base digits

/-- The value of digits in front of the point, digits behind it and a power of ten. -/
def real (before after : List Char) (negative : Bool) (exponent : List Char) : Option Magnitude :=
  let digits := natural 10 (natural 10 0 before) after
  -- beyond these powers of ten the value is zero or infinite whatever its digits are
  let limit := 400 + before.length + after.length
  let power := min (natural 10 0 exponent) limit
  Magnitude.ofDecimal digits ((if negative then -power else power : Int) - after.length)

/-- The text of a big integer. -/
def bigText (base : Nat) (digits : List Char) : String :=
  toString (natural base 0 digits)

end TypingsAudit.Script.Numeral
