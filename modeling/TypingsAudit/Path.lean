import TypingsAudit.Text.Affix

set_option autoImplicit false

/-! # Paths inside a package

A path is a text. Slashes and backslashes separate its segments, and it is read from the package
root whether or not it starts with one. `Path.normalize?` walks the segments with a stack: empty
segments and `.` stay, `..` leaves the innermost directory, anything else enters one. A walk that
leaves the root has no normal form; the root itself has the empty one.

The other questions asked of a path look at its text alone: what kind of file its ending stands for
(`FileKind.ofPath`), which declaration file goes with a script (`Path.counterpart?`) and which
directory it lies in (`Path.parent?`). -/

namespace TypingsAudit

namespace Path

def isSeparator (c : Char) : Bool :=
  c == '/' || c == '\\'

/-- The segments of a path, empty ones included. -/
def segments (path : List Char) : List (List Char) :=
  path.splitOnP isSeparator

/-- Walk `segments` from a directory given by its segments, innermost first. `none` when the walk
    leaves the root. -/
def walk : List (List Char) → List (List Char) → Option (List (List Char))
  | here, [] => some here
  | here, segment :: rest =>
    if segment = [] ∨ segment = ['.'] then walk here rest
    else if segment = ['.', '.'] then
      match here with
      | [] => none
      | _ :: up => walk up rest
    else walk (segment :: here) rest

/-- Segments, outermost first, as the text of a path. -/
def render (segments : List (List Char)) : String :=
  String.ofList (List.intercalate ['/'] segments)

/-- The normal form of a path; `none` when it escapes the package root. -/
def normalize? (path : String) : Option String :=
  (walk [] (segments path.toList)).map fun here => render here.reverse

/-- The normal form of `request` read from directory `dir`, itself in normal form. -/
def join? (dir request : String) : Option String :=
  if dir = "" then normalize? request else normalize? (dir ++ "/" ++ request)

/-- The directory of a path in normal form. The root has none. -/
def parent? (path : String) : Option String :=
  if path = "" then none
  else
    match Text.cutLast '/' path.toList with
    | some (dir, _) => some (String.ofList dir)
    | none => some ""

theorem cutLast_length_lt {c : Char} {s a b : List Char}
    (h : Text.cutLast c s = some (a, b)) : a.length < s.length := by
  have := (Text.cutLast_eq_some h).1
  subst this
  simp

/-- The parent of a path is shorter than the path. -/
theorem length_parent?_lt {path dir : String} (h : parent? path = some dir) :
    dir.length < path.length := by
  unfold parent? at h
  split at h
  · cases h
  · next hne =>
    split at h
    · next a b hcut =>
      cases h
      have := cutLast_length_lt hcut
      simpa [String.length] using this
    · cases h
      have : path.toList ≠ [] := fun h0 => hne (by
        have := congrArg String.ofList h0
        simpa using this)
      have := List.length_pos_iff.2 this
      simpa [String.length] using this

/-- The directories above a path in normal form, innermost first; the last one is the root. -/
def ancestors (path : String) : List String :=
  match h : parent? path with
  | none => []
  | some dir =>
    have := length_parent?_lt h
    dir :: ancestors dir
  termination_by path.length

/-- The endings of a declaration file. -/
def declarationEndings : List String :=
  [".d.mts", ".d.cts", ".d.ts"]

/-- Whether the path ends like a declaration file. -/
def isDeclaration (path : String) : Bool :=
  declarationEndings.any (Text.endsWith · path)

/-- The endings of a script, each with that of the declaration file that goes with it. -/
def pairedEndings : List (String × String) :=
  [(".mjs", ".d.mts"), (".cjs", ".d.cts"), (".js", ".d.ts")]

/-- The declaration file that goes with a script: `x.d.ts` for `x.js`, `x.d.mts` for `x.mjs` and
    `x.d.cts` for `x.cjs`. -/
def counterpart? (path : String) : Option String :=
  if isDeclaration path then none
  else pairedEndings.findSome? fun (script, declaration) =>
    (Text.dropTail? script path).map (· ++ declaration)

end Path

/-- What kind of file the ending of a path stands for. -/
inductive FileKind where
  | js | mjs | cjs
  | dts | dmts | dcts
  | json
  | other
  deriving DecidableEq, Repr

namespace FileKind

/-- The endings of declarations are looked for first: `x.d.mts` is a declaration file, whatever
    `.mts` alone would be. -/
def ofPath (path : String) : FileKind :=
  if Text.endsWith ".d.mts" path then .dmts
  else if Text.endsWith ".d.cts" path then .dcts
  else if Text.endsWith ".d.ts" path then .dts
  else
    match Text.cutLast '.' path.toList with
    | none => .other
    | some (_, ending) =>
      if ending = ['j', 's'] then .js
      else if ending = ['m', 'j', 's'] then .mjs
      else if ending = ['c', 'j', 's'] then .cjs
      else if ending = ['j', 's', 'o', 'n'] then .json
      else .other

def isDeclaration : FileKind → Bool
  | .dts | .dmts | .dcts => true
  | _ => false

def isScript : FileKind → Bool
  | .js | .mjs | .cjs => true
  | _ => false

def name : FileKind → String
  | .js => "js"
  | .mjs => "mjs"
  | .cjs => "cjs"
  | .dts => "dts"
  | .dmts => "dmts"
  | .dcts => "dcts"
  | .json => "json"
  | .other => "other"

end FileKind

end TypingsAudit
