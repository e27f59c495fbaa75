import TypingsAudit.Script.NameChar
import TypingsAudit.Script.Numeral
import TypingsAudit.Script.Token

set_option autoImplicit false

/-! # Reading tokens

`Lexer.next` takes one token off the front of a text, together with the blank space and comments in
front of it. Tokens are read on demand, because two kinds of places change what the characters
mean: a slash where an operand is due starts a regular expression (`Lexer.regex`), and the brace
that closes a substitution goes on with template text (`Lexer.template`). A closing angle bracket is
always a token of its own; where an operator is due, `Lexer.widenAngle` joins it with what follows.

Text that no token can be made of is one last token: nothing behind it is read. A script may end in
front of it, but unlike the end of the text it does not end the statement in front of it on the same
line. A number or a private name that is none does end both. What else is written faultily is read
past, and the reading is marked.

Escapes are decoded. A surrogate that an escape leaves without a partner has no character: a text
with one is spelled with U+FFFD and four hexadecimal digits in its place, and so is every U+FFFD of
the same text, but for one that a backslash behind the first such place stands in front of. -/

namespace TypingsAudit.Script.Lexer

def isLineEnd (c : Char) : Bool :=
  c == '\n' || c == '\r' || c == '\u2028' || c == '\u2029'

/-- White space apart from line ends. -/
def isSpace (c : Char) : Bool :=
  let n := c.toNat
  n == 0x20 || n == 0x09 || n == 0x0B || n == 0x0C || n == 0xA0 || n == 0xFEFF || n == 0x85 ||
    n == 0x1680 || (0x2000 ≤ n && n ≤ 0x200B) || n == 0x202F || n == 0x205F || n == 0x3000

/-- What is read off the front of a text. -/
structure Reading where
  lexeme : Lexeme
  /-- Whether it is written faultily. -/
  isFaulty : Bool
  rest : List Char

/-- The reading of text that no token can be made of. -/
def Reading.unreadable : Reading :=
  ⟨.unreadable, true, []⟩

/-- The reading of a number or a private name that is none: the script ends there. -/
def Reading.ended : Reading :=
  ⟨.finish, true, []⟩

/-! ## Gaps -/

/-- What the characters between two tokens belong to. -/
inductive Gap where
  | blank
  | lineComment
  | blockComment

/-- Skip the gap in front of a token, noting whether a line ends in it. A comment that is never
    closed reaches to the end. -/
def skip : Gap → Bool → List Char → Bool × List Char
  | _, newline, [] => (newline, [])
  | .blank, newline, '/' :: '/' :: cs => skip .lineComment newline cs
  | .blank, newline, '/' :: '*' :: cs => skip .blockComment newline cs
  | .blank, newline, c :: cs =>
    if isLineEnd c then skip .blank true cs
    else if isSpace c then skip .blank newline cs
    else (newline, c :: cs)
  | .lineComment, newline, c :: cs =>
    if isLineEnd c then skip .blank true cs else skip .lineComment newline cs
  | .blockComment, newline, '*' :: '/' :: cs => skip .blank newline cs
  | .blockComment, newline, c :: cs => skip .blockComment (newline || isLineEnd c) cs

/-! ## Escapes -/

/-- How a character of a text is written. -/
inductive Written where
  /-- By itself, or by an escape that gives its code point. -/
  | code (n : Nat)
  /-- Behind a backslash that changes nothing. -/
  | quoted (c : Char)

/-- Take `n` hexadecimal digits off the front, up to the first character that is none. -/
def takeHex : Nat → Nat → List Char → Option Nat × List Char
  | 0, acc, cs => (some acc, cs)
  | _ + 1, _, [] => (none, [])
  | n + 1, acc, c :: cs =>
    match Numeral.digit? c with
    | some d => takeHex n (acc * 16 + d) cs
    | none => (none, c :: cs)

/-- Hexadecimal digits and a closing brace; `some` number read so far means there is a digit. -/
def takeBraced : Option Nat → List Char → Option Nat × List Char
  | _, [] => (none, [])
  | acc, c :: cs =>
    match Numeral.digit? c with
    | some d =>
      let code := acc.getD 0 * 16 + d
      if 0x10FFFF < code then (none, cs) else takeBraced (some code) cs
    | none => if c = '}' ∧ acc.isSome then (acc, cs) else (none, c :: cs)

/-- Take at most `n` octal digits off the front. -/
def takeOctal : Nat → Nat → List Char → Nat × List Char
  | 0, acc, cs => (acc, cs)
  | _ + 1, acc, [] => (acc, [])
  | n + 1, acc, c :: cs =>
    if Numeral.isDigitOf 8 c then takeOctal n (acc * 8 + (c.toNat - '0'.toNat)) cs
    else (acc, c :: cs)

def isLead (code : Nat) : Bool :=
  0xD800 ≤ code && code ≤ 0xDBFF

def isTrail (code : Nat) : Bool :=
  0xDC00 ≤ code && code ≤ 0xDFFF

/-- The code point written by four digits or by digits in braces. -/
def codeEscape : List Char → Option Nat × List Char
  | '{' :: cs => takeBraced none cs
  | cs => takeHex 4 0 cs

/-- The code point of an escape, where two escapes of four digits may make up one character. -/
def pairEscape (cs : List Char) : Option Nat × List Char :=
  match codeEscape cs with
  | (some lead, '\\' :: 'u' :: rest) =>
    let alone := (some lead, '\\' :: 'u' :: rest)
    if isLead lead ∧ cs.head? ≠ some '{' then
      match takeHex 4 0 rest with
      | (some trail, after) =>
        if isTrail trail then
          (some (0x10000 + (lead - 0xD800) * 0x400 + (trail - 0xDC00)), after)
        else alone
      | (none, _) => alone
    else alone
  | read => read

theorem takeHex_length_le (n acc : Nat) (cs : List Char) :
    (takeHex n acc cs).2.length ≤ cs.length := by
  induction cs generalizing n acc with
  | nil => cases n <;> simp [takeHex]
  | cons c cs ih =>
    cases n with
    | zero => simp [takeHex]
    | succ n =>
      simp only [takeHex]
      split
      · exact Nat.le_trans (ih _ _) (by simp)
      · simp

theorem takeBraced_length_le (acc : Option Nat) (cs : List Char) :
    (takeBraced acc cs).2.length ≤ cs.length := by
  induction cs generalizing acc with
  | nil => simp [takeBraced]
  | cons c cs ih =>
    simp only [takeBraced]
    split
    · split
      · simp
      · exact Nat.le_trans (ih _) (by simp)
    · split <;> simp

theorem takeOctal_length_le (n acc : Nat) (cs : List Char) :
    (takeOctal n acc cs).2.length ≤ cs.length := by
  induction cs generalizing n acc with
  | nil => cases n <;> simp [takeOctal]
  | cons c cs ih =>
    cases n with
    | zero => simp [takeOctal]
    | succ n =>
      simp only [takeOctal]
      split
      · exact Nat.le_trans (ih _ _) (by simp)
      · simp

theorem codeEscape_length_le (cs : List Char) : (codeEscape cs).2.length ≤ cs.length := by
  unfold codeEscape
  split
  · exact Nat.le_trans (takeBraced_length_le _ _) (by simp)
  · exact takeHex_length_le _ _ _

theorem pairEscape_length_le (cs : List Char) : (pairEscape cs).2.length ≤ cs.length := by
  have hcode := codeEscape_length_le cs
  unfold pairEscape
  split
  · next lead rest heq =>
    rw [heq] at hcode
    simp only [List.length_cons] at hcode
    split
    · have hhex := takeHex_length_le 4 0 rest
      split
      · next trail after hread =>
        rw [hread] at hhex
        simp only at hhex
        split
        · simp only; omega
        · simpa using hcode
      · simpa using hcode
    · simpa using hcode
  · exact hcode

/-- What follows the line feed that a carriage return may come with. -/
def dropLineFeed : List Char → List Char
  | '\n' :: cs => cs
  | cs => cs

theorem dropLineFeed_length_le (cs : List Char) : (dropLineFeed cs).length ≤ cs.length := by
  unfold dropLineFeed
  split <;> simp

/-- The control characters that a letter after a backslash stands for. -/
def controlEscape? : Char → Option Nat
  | 'b' => some 0x08
  | 'f' => some 0x0C
  | 'n' => some 0x0A
  | 'r' => some 0x0D
  | 't' => some 0x09
  | 'v' => some 0x0B
  | _ => none

/-- A digit after a backslash. In templates only a zero without a digit behind it means anything. -/
def digitEscape (inTemplate : Bool) (c : Char) (cs : List Char) :
    Option (List Written) × List Char :=
  if c = '0' ∧ ¬cs.head?.any Char.isDigit then (some [.code 0], cs)
  else if inTemplate then (none, if c = '0' then cs.tail else cs)
  else if Numeral.isDigitOf 8 c then
    let (code, rest) := takeOctal (if c < '4' then 2 else 1) (c.toNat - '0'.toNat) cs
    (some [.code code], rest)
  else (some [.quoted c], cs)

/-- The characters that an escape after its backslash stands for, or nothing when it means
    nothing. A line end after the backslash stands for no character. -/
def escape (inTemplate : Bool) : List Char → Option (List Written) × List Char
  | [] => (some [], [])
  | c :: cs =>
    match controlEscape? c with
    | some code => (some [.code code], cs)
    | none =>
      if c = '\r' then (some [], dropLineFeed cs)
      else if isLineEnd c then (some [], cs)
      else if c = 'x' then ((takeHex 2 0 cs).1.map ([.code ·]), (takeHex 2 0 cs).2)
      else if c = 'u' then ((pairEscape cs).1.map ([.code ·]), (pairEscape cs).2)
      else if c.isDigit then digitEscape inTemplate c cs
      else (some [.quoted c], cs)

theorem digitEscape_length_le (inTemplate : Bool) (c : Char) (cs : List Char) :
    (digitEscape inTemplate c cs).2.length ≤ cs.length := by
  unfold digitEscape
  split
  · simp
  · split
    · simp only; split <;> simp
    · split
      · exact takeOctal_length_le _ _ _
      · simp

theorem escape_length_le (inTemplate : Bool) (cs : List Char) :
    (escape inTemplate cs).2.length ≤ cs.length := by
  cases cs with
  | nil => simp [escape]
  | cons c cs =>
    simp only [escape, List.length_cons]
    split
    · simp
    · repeat' split
      all_goals first
        | exact Nat.le_succ_of_le (dropLineFeed_length_le _)
        | exact Nat.le_succ_of_le (takeHex_length_le _ _ _)
        | exact Nat.le_succ_of_le (pairEscape_length_le _)
        | exact Nat.le_succ_of_le (digitEscape_length_le _ _ _)
        | exact Nat.le_succ _

/-! ## Text -/

/-- Four hexadecimal digits in lower case. -/
def hex4 (n : Nat) : List Char :=
  [12, 8, 4, 0].map fun shift => Nat.digitChar (n / Nat.pow 2 shift % 16)

namespace Written

/-- Whether this is a surrogate without a partner. -/
def isAlone : Written → Bool
  | .code n => isLead n || isTrail n
  | .quoted _ => false

/-- The character, where there is one. -/
def char : Written → Char
  | .code n => Char.ofNat n
  | .quoted c => c

/-- How the character is spelled in a text with a surrogate without a partner. -/
def spelled : Written → List Char
  | .code n => if isLead n || isTrail n || n == 0xFFFD then '\uFFFD' :: hex4 n else [Char.ofNat n]
  | .quoted c => [c]

end Written

/-- The text of characters, some of which may be surrogates without a partner. In front of the first
    of them, a backslash makes no difference to how U+FFFD is spelled. -/
def textOf (text : List Written) : String :=
  match text.span fun w => !w.isAlone with
  | (_, []) => String.ofList (text.map Written.char)
  | (front, back) =>
    let front := front.map fun w => Written.code w.char.toNat
    String.ofList ((front ++ back).flatMap Written.spelled)

/-- The characters of a string up to its closing quote, those before in reverse order, whether an
    escape means nothing, and what follows; nothing when the line or the text ends first. An escape
    that means nothing stands for no character. -/
def stringBody (quote : Char) (before : List Written) (isFaulty : Bool) :
    List Char → Option (List Written × Bool × List Char)
  | [] => none
  | c :: cs =>
    if c = quote then some (before.reverse, isFaulty, cs)
    else if c = '\\' then
      match escape false cs, escape_length_le false cs with
      | (ws, rest), _ =>
        stringBody quote ((ws.getD []).reverse ++ before) (isFaulty || ws.isNone) rest
    else if c = '\n' ∨ c = '\r' then none
    else stringBody quote (.code c.toNat :: before) isFaulty cs
  termination_by cs => cs.length
  decreasing_by
    · exact Nat.lt_succ_of_le ‹_›
    · exact Nat.lt_succ_self _

/-- A string after its opening quote. -/
def string (quote : Char) (cs : List Char) : Reading :=
  match stringBody quote [] false cs with
  | some (text, isFaulty, rest) => ⟨.string (textOf text), isFaulty, rest⟩
  | none => .unreadable

/-- Template text up to a backtick or a substitution, the characters before it in reverse order
    unless an escape means nothing. -/
def templateBody (before : Option (List Written)) : List Char → Reading
  | [] => .unreadable
  | c :: cs =>
    if c = '\x60' then ⟨.template (before.map fun b => textOf b.reverse) true, false, cs⟩
    else if c = '$' ∧ cs.head? = some '{' then
      ⟨.template (before.map fun b => textOf b.reverse) false, false, cs.tail⟩
    else if c = '\\' then
      match escape true cs, escape_length_le true cs with
      | (ws, rest), _ => templateBody (before.bind fun b => ws.map fun l => l.reverse ++ b) rest
    else if c = '\r' then
      have := dropLineFeed_length_le cs
      templateBody (before.map (.code 0x0A :: ·)) (dropLineFeed cs)
    else templateBody (before.map (.code c.toNat :: ·)) cs
  termination_by cs => cs.length
  decreasing_by
    · exact Nat.lt_succ_of_le ‹_›
    · simp only [List.length_cons]; omega
    · simp

/-- Template text after an opening backtick or after the brace that closes a substitution. -/
def template (cs : List Char) : Reading :=
  templateBody (some []) cs

/-! ## Names -/

/-- What has been read of a name. -/
structure NameFront where
  /-- The characters, the last one first. -/
  reversed : List Char
  isEscaped : Bool
  isFaulty : Bool

/-- The character that an escape in a name stands for: one that belongs there, written by itself. -/
def namedChar? (isFirst isBraced : Bool) (code : Nat) : Option Char :=
  let c := Char.ofNat code
  let belongs := if isFirst then NameChar.isStart c else NameChar.isContinue c
  if belongs ∧ (isBraced ∨ code < 0x10000) then some c else none

/-- The characters of a name. An escape that means nothing there stands for no character; `isFirst`
    says whether nothing has been read so far. -/
def nameBody (isFirst : Bool) (front : NameFront) : List Char → NameFront × List Char
  | [] => (front, [])
  | '\\' :: 'u' :: cs =>
    match pairEscape cs, pairEscape_length_le cs with
    | (code, rest), _ =>
      match code.bind (namedChar? isFirst (cs.head? = some '{')) with
      | some c => nameBody false ⟨c :: front.reversed, true, front.isFaulty⟩ rest
      | none => nameBody false ⟨front.reversed, true, true⟩ rest
  | '\\' :: cs => nameBody false ⟨front.reversed, true, true⟩ cs.tail
  | c :: cs =>
    if NameChar.isContinue c then nameBody false { front with reversed := c :: front.reversed } cs
    else (front, c :: cs)
  termination_by cs => cs.length
  decreasing_by
    · exact Nat.lt_succ_of_lt (Nat.lt_succ_of_le ‹_›)
    · exact Nat.lt_succ_of_lt (Nat.lt_succ_of_le ‹_›)
    · rw [List.length_tail]
      exact Nat.lt_succ_of_le (Nat.sub_le ..)
    · exact Nat.lt_succ_self _

/-- A name from its first character on. -/
def name (cs : List Char) : Reading :=
  let (front, rest) := nameBody true ⟨[], false, false⟩ cs
  ⟨.name (String.ofList front.reversed.reverse) front.isEscaped, front.isFaulty, rest⟩

/-- A private name after its `#`. Where no name follows, the script ends. -/
def privateName (cs : List Char) : Reading :=
  if cs.head?.any fun c => NameChar.isStart c || c == '\\' then
    let (front, rest) := nameBody true ⟨[], false, false⟩ cs
    ⟨.privateName (String.ofList front.reversed.reverse), front.isFaulty, rest⟩
  else .ended

/-! ## Numbers -/

/-- A row of digits off the front of a text. -/
structure Digits where
  digits : List Char
  /-- How many underscores are among them. -/
  separators : Nat
  /-- Whether an underscore that no digit follows ends them. -/
  isFaulty : Bool
  rest : List Char

/-- Digits with single underscores between them. An underscore that no digit follows ends them. -/
def digits (base : Nat) : List Char → Digits
  | '_' :: c :: cs =>
    if Numeral.isDigitOf base c then
      let more := digits base cs
      ⟨c :: more.digits, more.separators + 1, more.isFaulty, more.rest⟩
    else ⟨[], 1, true, c :: cs⟩
  | ['_'] => ⟨[], 1, true, []⟩
  | c :: cs =>
    if Numeral.isDigitOf base c then
      let more := digits base cs
      ⟨c :: more.digits, more.separators, more.isFaulty, more.rest⟩
    else ⟨[], 0, false, c :: cs⟩
  | [] => ⟨[], 0, false, []⟩

/-- The digits at the front, if the text starts with one. -/
def leadingDigits (base : Nat) (cs : List Char) : Digits :=
  if cs.head?.any (Numeral.isDigitOf base) then digits base cs else ⟨[], 0, false, cs⟩

/-- A number, unless a digit or the start of a name follows directly. -/
def closed (number : Reading) : Reading :=
  if number.rest.head?.any fun c => c.isDigit || NameChar.isStart c then .ended else number

/-- The exponent of a number after its `e`. -/
def exponent (before after : List Char) (isFaulty : Bool) (cs : List Char) : Reading :=
  let negative := cs.head? = some '-'
  let cs := if negative ∨ cs.head? = some '+' then cs.tail else cs
  let ds := leadingDigits 10 cs
  if ds.digits.isEmpty then ⟨.malformedNumber, true, ds.rest⟩
  else
    ⟨.number (Numeral.text (Numeral.real before after negative ds.digits)), isFaulty || ds.isFaulty,
      ds.rest⟩

/-- What follows the point of a number. -/
def fraction (before : List Char) (isFaulty : Bool) (cs : List Char) : Reading :=
  let ds := leadingDigits 10 cs
  let isFaulty := isFaulty || ds.isFaulty
  if ds.rest.head? = some 'e' ∨ ds.rest.head? = some 'E' then
    closed (exponent before ds.digits isFaulty ds.rest.tail)
  else closed ⟨.number (Numeral.text (Numeral.real before ds.digits false [])), isFaulty, ds.rest⟩

/-- A number in another base after its prefix. -/
def based (base : Nat) (cs : List Char) : Reading :=
  let ds := leadingDigits base cs
  if ds.digits.isEmpty ∨ ds.isFaulty then .ended
  else if ds.rest.head? = some 'n' then
    closed ⟨.bigint (Numeral.bigText base ds.digits), false, ds.rest.tail⟩
  else
    closed ⟨.number (Numeral.text (Numeral.based base ds.separators ds.digits)), false, ds.rest⟩

/-- A number with a leading zero, behind that zero: octal, unless a digit beyond seven occurs. -/
def zeroLed (cs : List Char) : Reading :=
  let ds := cs.takeWhile Char.isDigit
  let rest := cs.dropWhile Char.isDigit
  if ds.all (Numeral.isDigitOf 8) then
    closed ⟨.number (Numeral.text (Numeral.based 8 0 ds)), false, rest⟩
  else if rest.head? = some '.' then fraction ds false rest.tail
  else if rest.head? = some 'e' then exponent ds [] false rest.tail
  else closed ⟨.number (Numeral.text (Numeral.whole 10 ds)), false, rest⟩

/-- A number from its first digit on. Anything may follow the exponent of one that starts with a
    zero. -/
def number : List Char → Reading
  | '0' :: c :: cs =>
    if c = 'x' ∨ c = 'X' then based 16 cs
    else if c = 'o' ∨ c = 'O' then based 8 cs
    else if c = 'b' ∨ c = 'B' then based 2 cs
    else if c = 'e' ∨ c = 'E' then exponent ['0'] [] false cs
    else if c.isDigit then zeroLed (c :: cs)
    else plain ⟨['0'], 0, false, c :: cs⟩
  | cs => plain (digits 10 cs)
where
  /-- What follows the digits of a decimal number. -/
  plain (ds : Digits) : Reading :=
    match ds.rest with
    | '.' :: more => fraction ds.digits ds.isFaulty more
    | 'e' :: more => closed (exponent ds.digits [] ds.isFaulty more)
    | 'E' :: more => closed (exponent ds.digits [] ds.isFaulty more)
    | 'n' :: more => closed ⟨.bigint (Numeral.bigText 10 ds.digits), ds.isFaulty, more⟩
    | _ => closed ⟨.number (Numeral.text (Numeral.whole 10 ds.digits)), ds.isFaulty, ds.rest⟩

/-! ## Punctuation -/

/-- The punctuation, a longer one before each that it starts with. -/
def punctuation : List String :=
  ["\x7b", "\x7d", "(", ")", "[", "]", ";", ",", ":", "~", "@", "...", ".",
   "<<=", "<<", "<=", "<", ">", "===", "==", "=>", "=", "!==", "!=", "!", "++", "+=", "+",
   "--", "-=", "-", "**=", "**", "*=", "*", "/=", "/", "%=", "%", "&&=", "&&", "&=", "&",
   "||=", "||", "|=", "|", "^=", "^", "??=", "??", "?.", "?"]

/-- The characters of each mark beside the mark. -/
def punctuationChars : List (List Char × String) :=
  punctuation.map fun p => (p.toList, p)

/-- The first of `marks` that the text starts with. In front of a digit, a question mark and a
    point are two marks. -/
def mark? (cs : List Char) : List (List Char × String) → Option (String × List Char)
  | [] => none
  | (chars, p) :: marks =>
    if chars.isPrefixOf cs then
      let rest := cs.drop chars.length
      if p = "?." ∧ rest.head?.any Char.isDigit then mark? cs marks else some (p, rest)
    else mark? cs marks

/-- The token that starts with the first character, which is no blank. -/
def lexeme : List Char → Reading
  | [] => ⟨.finish, false, []⟩
  | c :: cs =>
    if c = '\x22' ∨ c = '\x27' then string c cs
    else if c = '\x60' then template cs
    else if c.isDigit then number (c :: cs)
    else if c = '.' ∧ cs.head?.any Char.isDigit then fraction [] false cs
    else if NameChar.isStart c ∨ c = '\\' then name (c :: cs)
    else if c = '#' then privateName cs
    else
      match mark? (c :: cs) punctuationChars with
      | some (p, rest) => ⟨.punct p, false, rest⟩
      | none => .unreadable

/-- The first token of a text, and whether a line ends in front of it. -/
def next (cs : List Char) : Bool × Reading :=
  let (newline, start) := skip .blank false cs
  (newline, lexeme start)

/-- A text without the interpreter line that it may start with. -/
def withoutInterpreterLine : List Char → List Char
  | '#' :: '!' :: cs => cs.dropWhile fun c => !isLineEnd c
  | cs => cs

/-! ## Places that change what the characters mean -/

/-- The operators that start with a closing angle bracket, the longest first. -/
def angleOperators : List String :=
  [">>>=", ">>=", ">>>", ">>", ">="]

/-- A closing angle bracket joined with the characters `cs` behind it to the longest operator. -/
def widenAngle (cs : List Char) : Reading :=
  match mark? ('>' :: cs) (angleOperators.map fun p => (p.toList, p)) with
  | some (p, rest) => ⟨.punct p, false, rest⟩
  | none => ⟨.punct ">", false, cs⟩

/-- Whether a character of a regular expression is escaped or stands in a class of characters. -/
structure RegexPlace where
  escaped : Bool
  inClass : Bool

/-- The characters of a regular expression up to its closing slash, those before in reverse order, and
    what follows; nothing when the line or the text ends first. -/
def regexBody (before : List Char) (place : RegexPlace) :
    List Char → Option (List Char × List Char)
  | [] => none
  | c :: cs =>
    if isLineEnd c then none
    else if place.escaped then regexBody (c :: before) ⟨false, place.inClass⟩ cs
    else if c = '/' ∧ !place.inClass then some (before.reverse, cs)
    else if c = '[' then regexBody (c :: before) ⟨false, true⟩ cs
    else if c = ']' then regexBody (c :: before) ⟨false, false⟩ cs
    else regexBody (c :: before) ⟨c = '\\', place.inClass⟩ cs

/-- The flags of a regular expression, in the order in which they are shown. -/
def regexFlags : List Char :=
  ['d', 'g', 'i', 'm', 's', 'u', 'v', 'y']

/-- A regular expression after its opening slash. Each of its flags stands there once. -/
def regex (cs : List Char) : Reading :=
  let isFlag (c : Char) : Bool := c.isAlphanum || c == '$' || c == '_'
  match regexBody [] ⟨false, false⟩ cs with
  | none => .unreadable
  | some (body, rest) =>
    let flags := rest.takeWhile isFlag
    let text := '/' :: body ++ '/' :: regexFlags.filter flags.contains
    ⟨.regex (String.ofList text), !(flags.Nodup ∧ flags.all regexFlags.contains),
      rest.dropWhile isFlag⟩

end TypingsAudit.Script.Lexer
