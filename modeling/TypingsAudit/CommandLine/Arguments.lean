import TypingsAudit.Analysis

set_option autoImplicit false

/-! # Arguments

The arguments of the program name a package and say how to look at it. `CommandLine.parse` reads
them from left to right and stops at the first that makes no sense, or that asks for help.

A value belongs to an option when it follows an equals sign, or is the next argument and does not
look like an option itself; a dash alone does not. Behind `--` nothing is an option. A flag may be
given once, options as often as wanted. -/

namespace TypingsAudit.CommandLine

/-- What the program is asked to do. -/
structure Invocation where
  /-- The path of the package. -/
  package : String
  /-- Print the whole analysis as JSON. -/
  raw : Bool
  /-- End a report on problems in a summary. -/
  summary : Bool
  options : AnalysisOptions
  deriving DecidableEq, Repr

/-- Why arguments make no sense. -/
inductive Misuse where
  | unknownArgument (text : String)
  | repeatedFlag (flag : String)
  | valueOfFlag (flag value : String)
  | missingValue (option : String)
  | unknownKind (name : ResolutionKind.UnknownName)
  | emptyPackage
  | missingPackage
  deriving DecidableEq, Repr

def Misuse.message : Misuse → String
  | .unknownArgument text => s!"unexpected argument '{text}' found"
  | .repeatedFlag flag => s!"the argument '{flag}' cannot be used multiple times"
  | .valueOfFlag flag value => s!"unexpected value '{value}' for '{flag}' found"
  | .missingValue option => s!"a value is required for '{option}' but none was supplied"
  | .unknownKind name => s!"invalid value for '--resolution': {name.message}"
  | .emptyPackage => "a value is required for '<PACKAGE>' but none was supplied"
  | .missingPackage => "the following required arguments were not provided: <PACKAGE>"

/-- Why the program does not go on to its task. -/
inductive Interruption where
  | help
  | misuse (fault : Misuse)
  deriving DecidableEq, Repr

/-- What has been read of the arguments. -/
structure Draft where
  package : Option String
  raw : Bool
  noSummary : Bool
  kinds : List ResolutionKind
  conditions : List String
  deriving DecidableEq, Repr

namespace Draft

def empty : Draft :=
  { package := none, raw := false, noSummary := false, kinds := [], conditions := [] }

def withRaw (draft : Draft) (flag : String) : Except Interruption Draft :=
  if draft.raw then .error (.misuse (.repeatedFlag flag)) else .ok { draft with raw := true }

def withoutSummary (draft : Draft) (flag : String) : Except Interruption Draft :=
  if draft.noSummary then .error (.misuse (.repeatedFlag flag))
  else .ok { draft with noSummary := true }

/-- Add the algorithms of a list with commas. -/
def addKinds (draft : Draft) (list : String) : Except Interruption Draft :=
  match (list.toList.splitOn ',').mapM fun name => ResolutionKind.ofName (String.ofList name) with
  | .ok kinds => .ok { draft with kinds := draft.kinds ++ kinds }
  | .error name => .error (.misuse (.unknownKind name))

def addCondition (draft : Draft) (condition : String) : Draft :=
  { draft with conditions := draft.conditions ++ [condition] }

/-- Take an argument for the path of the package. -/
def setPackage (draft : Draft) (path : String) : Except Interruption Draft :=
  if draft.package.isSome then .error (.misuse (.unknownArgument path))
  else if path = "" then .error (.misuse .emptyPackage)
  else .ok { draft with package := some path }

/-- Take the letters of an argument behind a single dash for flags. -/
def readLetters (draft : Draft) : List Char → Except Interruption Draft
  | [] => .ok draft
  | 'h' :: _ => .error .help
  | 'r' :: rest => do (← draft.withRaw "-r").readLetters rest
  | letter :: _ => .error (.misuse (.unknownArgument (String.ofList ['-', letter])))

/-- Take an argument behind two dashes for a flag, its value being behind an equals sign. -/
def readFlag (draft : Draft) (name : String) (value : Option String) :
    Except Interruption Draft :=
  if name = "help" ∨ name = "raw" ∨ name = "no-summary" then
    match value with
    | some value => .error (.misuse (.valueOfFlag ("--" ++ name) value))
    | none =>
      if name = "help" then .error .help
      else if name = "raw" then draft.withRaw "--raw"
      else draft.withoutSummary "--no-summary"
  else .error (.misuse (.unknownArgument ("--" ++ name)))

/-- Read the value of an option, when there is an option of that name. -/
def readOption? (draft : Draft) (name : String) : Option (String → Except Interruption Draft) :=
  if name = "resolution" then some draft.addKinds
  else if name = "condition" then some fun condition => .ok (draft.addCondition condition)
  else none

/-- The task that has been read. -/
def finish (draft : Draft) : Except Interruption Invocation :=
  match draft.package with
  | none => .error (.misuse .missingPackage)
  | some package =>
    .ok
      { package
        raw := draft.raw
        summary := !draft.noSummary
        options := { kinds := draft.kinds, conditions := draft.conditions } }

end Draft

/-- An argument by its looks. -/
inductive Argument where
  /-- Two dashes alone. -/
  | separator
  /-- A name behind two dashes, and what follows the first equals sign. -/
  | long (name : String) (value : Option String)
  /-- Letters behind one dash. -/
  | short (letters : List Char)
  | plain (text : String)
  deriving DecidableEq, Repr

def Argument.ofText (text : String) : Argument :=
  match text.toList with
  | ['-', '-'] => .separator
  | '-' :: '-' :: rest =>
    match rest.span (· ≠ '=') with
    | (name, []) => .long (String.ofList name) none
    | (name, _ :: value) => .long (String.ofList name) (some (String.ofList value))
  | '-' :: letter :: rest => .short (letter :: rest)
  | _ => .plain text

/-- Read arguments that are no options. -/
def readPlain (draft : Draft) : List String → Except Interruption Draft
  | [] => .ok draft
  | text :: rest => do readPlain (← draft.setPackage text) rest

/-- Read arguments. -/
def readArguments (draft : Draft) : List String → Except Interruption Draft
  | [] => .ok draft
  | text :: rest =>
    match Argument.ofText text with
    | .separator => readPlain draft rest
    | .plain path => do readArguments (← draft.setPackage path) rest
    | .short letters => do readArguments (← draft.readLetters letters) rest
    | .long name value =>
      match draft.readOption? name with
      | none => do readArguments (← draft.readFlag name value) rest
      | some read =>
        match value with
        | some value => do readArguments (← read value) rest
        | none =>
          match rest with
          | [] => .error (.misuse (.missingValue ("--" ++ name)))
          | next :: rest =>
            match Argument.ofText next with
            | .plain value => do readArguments (← read value) rest
            | _ => .error (.misuse (.missingValue ("--" ++ name)))

/-- The task that arguments ask for. -/
def parse (arguments : List String) : Except Interruption Invocation := do
  (← readArguments .empty arguments).finish

end TypingsAudit.CommandLine
