import TypingsAudit.Json.Basic

set_option autoImplicit false

/-! # The `exports` field

`Exports` is the shape of the field: targets, exclusions, fallback lists, conditions and, at the top
only, subpaths. Order is meaning, so conditions and subpaths are lists.

`Exports.ofJson` reads it and `Exports.toJson` writes it back. An object is a map of subpaths when
its keys start with a dot and a map of conditions when none does; the two do not mix, and subpaths
do not nest. -/

namespace TypingsAudit

inductive Exports where
  /-- A file of the package. -/
  | target (path : String)
  /-- `null`: what would be reached here is not exported. -/
  | excluded
  /-- An array: alternatives in order of preference. -/
  | fallback (items : List Exports)
  /-- An object whose keys are conditions. -/
  | conditions (entries : List (String × Exports))
  /-- An object whose keys are subpaths of the package. -/
  | subpaths (entries : List (String × Exports))
  deriving Repr

namespace Exports

/-- Why a value is no `exports` field. -/
inductive ShapeError where
  /-- A number or a boolean. -/
  | unsupported (value : Json)
  | mixedKeys
  | nestedSubpaths
  deriving Repr

/-- The subpath of the package root. -/
def rootSubpath : String := "."

def isSubpathKey (key : String) : Bool :=
  key.toList.head? == some '.'

/-- What the keys of an object say about it: whether they are subpaths. -/
def keysAreSubpaths (top : Bool) (keys : List String) : Except ShapeError Bool :=
  if keys.any isSubpathKey then
    if !keys.all isSubpathKey then .error .mixedKeys
    else if !top then .error .nestedSubpaths
    else .ok true
  else .ok false

mutual

/-- Read a value that is the field itself (`top`) or lies inside it. -/
def read (top : Bool) : Json → Except ShapeError Exports
  | .string s => .ok (.target s)
  | .null => .ok .excluded
  | .array items => do .ok (.fallback (← readItems items))
  | .object members => do
    let subpaths ← keysAreSubpaths top (members.map (·.1))
    let entries ← readMembers members
    .ok (if subpaths then .subpaths entries else .conditions entries)
  | .bool b => .error (.unsupported (.bool b))
  | .number n => .error (.unsupported (.number n))

def readItems : List Json → Except ShapeError (List Exports)
  | [] => .ok []
  | v :: vs => do
    let e ← read false v
    let es ← readItems vs
    .ok (e :: es)

def readMembers : List (String × Json) → Except ShapeError (List (String × Exports))
  | [] => .ok []
  | (key, v) :: ms => do
    let e ← read false v
    let es ← readMembers ms
    .ok ((key, e) :: es)

end

/-- Read the `exports` field. -/
def ofJson (value : Json) : Except ShapeError Exports :=
  read true value

mutual

/-- The JSON that writes the field. -/
def toJson : Exports → Json
  | .target path => .string path
  | .excluded => .null
  | .fallback items => .array (toJsonItems items)
  | .conditions entries => .object (toJsonEntries entries)
  | .subpaths entries => .object (toJsonEntries entries)

def toJsonItems : List Exports → List Json
  | [] => []
  | e :: es => toJson e :: toJsonItems es

def toJsonEntries : List (String × Exports) → List (String × Json)
  | [] => []
  | (key, e) :: es => (key, toJson e) :: toJsonEntries es

end

/-- The subpaths the field names, with what it says about each. Anything but a map of subpaths
    speaks of the package root. -/
def subpathEntries : Exports → List (String × Exports)
  | .subpaths entries => entries
  | other => [(rootSubpath, other)]

def isExcluded : Exports → Bool
  | .excluded => true
  | _ => false

end Exports

end TypingsAudit
