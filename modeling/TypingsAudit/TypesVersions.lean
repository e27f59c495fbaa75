import TypingsAudit.Json.Basic
import TypingsAudit.Text.Star

set_option autoImplicit false

/-! # The `typesVersions` field

The field maps ranges of compiler versions to maps of paths. Ranges are not evaluated: the first one
is taken to match. Its map sends a path to the places where declarations are looked for instead, by
an equal key or else by the pattern that says most before its `*`. -/

namespace TypingsAudit

/-- The map of paths of the first range. -/
structure TypesVersions where
  range : String
  paths : List (String × List String)
  deriving DecidableEq, Repr

namespace TypesVersions

/-- The places a value names. Items of an array that are no strings are passed over. -/
def targets? : Json → Option (List String)
  | .string s => some [s]
  | .array items => some (items.filterMap Json.string?)
  | _ => none

/-- Read the field. Anything unusable reads as nothing. -/
def ofJson? (value : Json) : Option TypesVersions :=
  match value with
  | .object ((range, .object mapping) :: _) =>
    some { range, paths := mapping.filterMap fun (key, v) => (targets? v).map (key, ·) }
  | _ => none

/-- The range whose map is unusable, if that is what is wrong with the field. -/
def badRange? (value : Json) : Option String :=
  match value with
  | .object ((_, .object _) :: _) => none
  | .object ((range, _) :: _) => some range
  | _ => none

/-- A pattern that matches: how much it says before its `*`, what the `*` stands for, and the places
    it names. -/
structure Match where
  lead : Nat
  star : String
  targets : List String
  deriving DecidableEq, Repr

def match? (path : String) (entry : String × List String) : Option Match :=
  (Star.match? entry.1 path).map fun star => ⟨Star.leadLength entry.1, star, entry.2⟩

/-- The match with the longest lead; of equally long ones the first. -/
def best : Option Match → List Match → Option Match
  | found, [] => found
  | none, m :: rest => best (some m) rest
  | some b, m :: rest => best (some (if b.lead < m.lead then m else b)) rest

/-- Where the declarations for a path (without a leading `./`) are looked for. -/
def map? (versions : TypesVersions) (path : String) : Option (List String) :=
  match versions.paths.find? (·.1 == path) with
  | some (_, targets) => some targets
  | none =>
    (best none (versions.paths.filterMap (match? path))).map fun m =>
      m.targets.map (Star.substitute · m.star)

/-- The keys without `*`, which are subpaths that can be imported. -/
def literalKeys (versions : TypesVersions) : List String :=
  (versions.paths.map (·.1)).filter fun key => '*' ∉ key.toList

end TypesVersions

end TypingsAudit
