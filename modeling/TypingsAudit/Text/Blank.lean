set_option autoImplicit false

/-! # Blank space

`Text.isBlank` is the Unicode property `White_Space`, wider than the four ASCII characters of
`Char.isWhitespace`. -/

namespace TypingsAudit.Text

/-- The characters with the Unicode property `White_Space`. -/
def isBlank (c : Char) : Bool :=
  let n := c.toNat
  (0x09 ≤ n && n ≤ 0x0D) || n == 0x20 || n == 0x85 || n == 0xA0 || n == 0x1680 ||
    (0x2000 ≤ n && n ≤ 0x200A) || n == 0x2028 || n == 0x2029 || n == 0x202F || n == 0x205F ||
    n == 0x3000

/-- The text without the blank space at both of its ends. -/
def trimBlank (s : String) : String :=
  String.ofList (((s.toList.dropWhile isBlank).reverse.dropWhile isBlank).reverse)

/-- The text with `A` to `Z` in lower case and everything else as it is. -/
def lowerAscii (s : String) : String :=
  String.ofList (s.toList.map Char.toLower)

end TypingsAudit.Text
