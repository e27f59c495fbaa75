set_option autoImplicit false

/-! # Styled text

Pieces of text for a terminal. A style is a list of display codes; a piece starts with an escape
sequence that turns them on and ends with one that turns everything off. Where colors are not wanted
a piece is its text alone. -/

namespace TypingsAudit.Report

/-- Display codes, in the order in which they are written. -/
structure Style where
  codes : List Nat
  deriving DecidableEq, Repr

namespace Style

def bold : Style := ⟨[1]⟩
def dimmed : Style := ⟨[2]⟩
def red : Style := ⟨[31]⟩
def cyan : Style := ⟨[36]⟩
def brightBlue : Style := ⟨[94]⟩
def boldRed : Style := ⟨[1, 31]⟩
def boldGreen : Style := ⟨[1, 32]⟩
def boldYellow : Style := ⟨[1, 33]⟩
def boldBlue : Style := ⟨[1, 34]⟩
def boldWhite : Style := ⟨[1, 97]⟩

/-- The sequence that turns a style on. -/
def start (style : Style) : List Char :=
  '\x1b' :: '[' :: (";".intercalate (style.codes.map toString)).toList ++ ['m']

/-- The sequence that turns every style off. -/
def stop : List Char :=
  ['\x1b', '[', '0', 'm']

/-- The text with the style turned on again behind everything in it that turns styles off. -/
def keep (style : Style) : List Char → List Char
  | '\x1b' :: '[' :: '0' :: 'm' :: rest => stop ++ style.start ++ keep style rest
  | c :: rest => c :: keep style rest
  | [] => []

end Style

/-- A way to write styled pieces: with colors or as plain text. -/
structure Painter where
  colors : Bool
  deriving DecidableEq, Repr

namespace Painter

def plain : Painter := ⟨false⟩

/-- A piece of text in a style. -/
def paint (painter : Painter) (style : Style) (text : String) : String :=
  if painter.colors then String.ofList (style.start ++ style.keep text.toList ++ Style.stop)
  else text

theorem paint_plain (style : Style) (text : String) : plain.paint style text = text :=
  rfl

end Painter

end TypingsAudit.Report
