import Std.Data.TreeSet
import TypingsAudit.Exports.Basic
import TypingsAudit.Text.Star

set_option autoImplicit false

/-! # Looking a subpath up in `exports`

A lookup has two parts. `Exports.select?` finds the entry for a subpath: an equal key, or else the
most specific key with one `*` that matches. `Exports.walk` then collects every target that the
active conditions reach, in order of preference; what follows the first one matters only to those
who look for another file when the first is missing.

A `null` ends the branch it is found on, up to the nearest array around it: its siblings in enclosing
conditions are not looked at, but the items after it in an array are. -/

namespace TypingsAudit

/-- The conditions that are active in one resolution, in order. -/
abbrev ConditionSet := Std.TreeSet String

namespace ConditionSet

/-- The condition that is always active. -/
def always : String := "default"

def ofNames (names : List String) : ConditionSet :=
  Std.TreeSet.ofList names

def isActive (active : ConditionSet) (condition : String) : Bool :=
  condition == always || active.contains condition

end ConditionSet

namespace Exports

/-! ## The entry for a subpath -/

/-- Whether a key is a pattern: it has one `*` and no more. -/
def isPatternKey (key : String) : Bool :=
  key.toList.count '*' == 1

/-- Whether pattern `a` is more specific than `b`: it says more before its `*`, or equally much
    there and more in all. -/
def moreSpecific (a b : String) : Bool :=
  Star.leadLength b < Star.leadLength a ||
    (Star.leadLength a == Star.leadLength b && b.utf8ByteSize < a.utf8ByteSize)

/-- An entry found for a subpath, and what its `*` stands for if its key is a pattern. -/
structure Selection where
  key : String
  value : Exports
  star : Option String

/-- The entry as a match of its pattern, when it is one for this subpath. The `*` stands for at
    least one character. -/
def patternMatch? (subpath : String) (entry : String × Exports) : Option Selection :=
  if isPatternKey entry.1 then
    match Star.match? entry.1 subpath with
    | some star => if star = "" then none else some ⟨entry.1, entry.2, some star⟩
    | none => none
  else none

/-- The most specific selection; of equally specific ones the first. -/
def best : Option Selection → List Selection → Option Selection
  | found, [] => found
  | none, s :: rest => best (some s) rest
  | some b, s :: rest => best (some (if moreSpecific s.key b.key then s else b)) rest

/-- The entry for a subpath. Anything but a map of subpaths speaks of the package root alone. -/
def select? (exports : Exports) (subpath : String) : Option Selection :=
  match exports with
  | .subpaths entries =>
    match entries.find? (·.1 == subpath) with
    | some (key, value) => some ⟨key, value, none⟩
    | none => best none (entries.filterMap (patternMatch? subpath))
  | value => if subpath = rootSubpath then some ⟨rootSubpath, value, none⟩ else none

/-! ## The targets the conditions reach -/

/-- Segments that no target may have after its leading `./`. -/
def forbiddenSegments : List (List Char) :=
  [['.'], ['.', '.'], "node_modules".toList]

/-- Whether a target stays in the package: it starts with `./` and never goes up, stays in place or
    enters `node_modules`. -/
def isValidTarget (target : String) : Bool :=
  match Text.dropFront? "./" target with
  | some rest => !(rest.toList.splitOn '/').any (· ∈ forbiddenSegments)
  | none => false

/-- What a walk has come across. -/
structure Walk where
  candidates : List String
  sawInvalid : Bool
  sawExcluded : Bool
  /-- The branch ended in `null`, and nothing after it counts. -/
  ended : Bool
  deriving DecidableEq, Repr

namespace Walk

def nothing : Walk := ⟨[], false, false, false⟩

/-- One walk after another. -/
def append (a b : Walk) : Walk :=
  { candidates := a.candidates ++ b.candidates
    sawInvalid := a.sawInvalid || b.sawInvalid
    sawExcluded := a.sawExcluded || b.sawExcluded
    ended := b.ended }

end Walk

/-- The target with the text of the pattern's `*` put in. -/
def instantiate (star : Option String) (target : String) : String :=
  match star with
  | some text => Star.substitute target text
  | none => target

mutual

/-- All targets under a value that the active conditions reach. -/
def walk (active : ConditionSet) (star : Option String) : Exports → Walk
  | .target path =>
    let target := instantiate star path
    if isValidTarget target then { Walk.nothing with candidates := [target] }
    else { Walk.nothing with sawInvalid := true }
  | .excluded => { Walk.nothing with sawExcluded := true, ended := true }
  | .fallback items => walkItems active star items
  | .conditions entries => walkEntries active star entries
  | .subpaths _ => .nothing

/-- Every item counts, whatever became of those before it. -/
def walkItems (active : ConditionSet) (star : Option String) : List Exports → Walk
  | [] => .nothing
  | e :: es => (walk active star e).append (walkItems active star es)

/-- The entries whose conditions are active, up to one whose branch ends. -/
def walkEntries (active : ConditionSet) (star : Option String) : List (String × Exports) → Walk
  | [] => .nothing
  | (condition, e) :: es =>
    if active.isActive condition then
      let first := walk active star e
      if first.ended then first else first.append (walkEntries active star es)
    else walkEntries active star es

end

/-- The outcome of a lookup. -/
inductive Lookup where
  /-- No key matches the subpath, or it is excluded. -/
  | notExported
  /-- The subpath is there, but no condition for it is active. -/
  | noActiveCondition
  /-- Every target that is reached leaves the package. -/
  | invalidTarget
  /-- The targets in order of preference, at least one. -/
  | candidates (targets : List String)
  deriving DecidableEq, Repr

/-- What a finished walk amounts to. -/
def Walk.outcome (w : Walk) : Lookup :=
  if w.candidates ≠ [] then .candidates w.candidates
  else if w.sawInvalid then .invalidTarget
  else if w.sawExcluded then .notExported
  else .noActiveCondition

/-- Look a subpath (`"."` or `"./sub"`) up under the active conditions. -/
def lookup (exports : Exports) (subpath : String) (active : ConditionSet) : Lookup :=
  match exports.select? subpath with
  | some selection => (walk active selection.star selection.value).outcome
  | none => .notExported

end Exports

end TypingsAudit
