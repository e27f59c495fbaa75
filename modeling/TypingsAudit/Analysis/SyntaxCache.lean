import TypingsAudit.Analysis.Comparison

set_option autoImplicit false

/-! # Cells compared side by side

How a file is written has to be known for many cells, and is found out by parsing the file. Several
workers may compare cells at once, with one cache for all of them: a `SyntaxCache` keeps what is
known of a file under the path as it was asked for.

What a worker does is an `Inquiry`, which asks about paths and goes on from the answers. A worker
takes three turns for a question that the cache cannot answer: to look the path up, to parse the
file, and to put the outcome into the cache. A `Crew` is the cache and its workers, and a schedule
says whose turn it is. Any schedule may happen, and between two turns of one worker the others may
put anything into the cache. A worker that waits for a free thread is one that gets no turns yet. -/

namespace TypingsAudit

/-- How files are written, by the path as it was asked for. -/
abbrev SyntaxCache := Std.TreeMap String ModuleSyntax

/-- The answer about a path, and the cache afterwards, when nobody else uses the cache. -/
def SyntaxCache.query (cache : SyntaxCache) (tree : FileTree) (path : String) :
    Option ModuleSyntax × SyntaxCache :=
  match cache[path]? with
  | some info => (some info, cache)
  | none =>
    match tree.moduleSyntax? path with
    | some info => (some info, cache.insert path info)
    | none => (none, cache)

/-! ## Inquiries -/

/-- A computation that asks how files are written. -/
inductive Inquiry (α : Type) where
  | answer (result : α)
  | ask (path : String) (next : Option ModuleSyntax → Inquiry α)

namespace Inquiry

variable {α β : Type}

/-- What an inquiry comes to when `syntaxOf` answers its questions. -/
def result (syntaxOf : String → Option ModuleSyntax) : Inquiry α → α
  | .answer result => result
  | .ask path next => (next (syntaxOf path)).result syntaxOf

/-- One inquiry after another. -/
def bind (first : Inquiry α) (second : α → Inquiry β) : Inquiry β :=
  match first with
  | .answer result => second result
  | .ask path next => .ask path fun info => (next info).bind second

/-- Inquiries one after the other, with the list of what they come to. -/
def all : List (Inquiry α) → Inquiry (List α)
  | [] => .answer []
  | first :: rest =>
    first.bind fun result => (all rest).bind fun results => .answer (result :: results)

end Inquiry

namespace Finding

/-- What the exports of both files show. It is asked about the declarations only where there is
    something to be known of the code. -/
def inquireExports (typesPath : String) (runtime : Option ModuleSyntax) : Inquiry (List Finding) :=
  match runtime with
  | some runtime => .ask typesPath fun types => .answer (ofExports types (some runtime))
  | none => .answer []

/-- What is wrong with declarations and code that are both found. -/
def inquireFiles (kind : ResolutionKind) (types runtime : Resolved) : Inquiry (List Finding) :=
  let fallback : List Finding := if types.usedFallback then [⟨.fallbackCondition, .none⟩] else []
  if kind.enforcesFormat then
    .ask runtime.path fun runtimeSyntax =>
      let falseFormats :=
        ofFalseFormats types.format runtime.format (runtimeSyntax.bind ModuleSyntax.format?)
      let required : List Finding :=
        if kind = .node16Cjs ∧ types.format = .esm then [⟨.cjsResolvesToEsm, .none⟩] else []
      let exports :=
        if kind = .node16Esm ∧ runtime.format = .cjs ∧ falseFormats.isEmpty then
          inquireExports types.path runtimeSyntax
        else .answer []
      exports.bind fun exports => .answer (fallback ++ falseFormats ++ required ++ exports)
  else .answer fallback

end Finding

namespace CellResult

/-- What is wrong with a cell. -/
def inquireFindings (result : CellResult) : Inquiry (List Finding) :=
  match result.types, result.runtime with
  | .notFound _, .notFound _ => .answer []
  | .notFound reason, .found _ => .answer [⟨.noResolution, .resolutionFailure reason⟩]
  | .found _, .notFound reason => .answer [⟨.internalResolutionError, .resolutionFailure reason⟩]
  | .found types, .found runtime => Finding.inquireFiles result.cell.kind types runtime

/-- The problems of a cell. -/
def inquiry (result : CellResult) : Inquiry (List Problem) :=
  result.inquireFindings.bind fun findings => .answer (findings.map result.problem)

/-- The problems of several cells, one cell after the other. -/
def inquireAll (results : List CellResult) : Inquiry (List (List Problem)) :=
  Inquiry.all (results.map inquiry)

end CellResult

/-! ## Workers -/

/-- Where a worker stands in its inquiry. -/
inductive Stage (α : Type) where
  | ready (task : Inquiry α)
  /-- The cache did not know the path. -/
  | missed (path : String) (next : Option ModuleSyntax → Inquiry α)
  /-- The file was parsed, and the cache has not been told yet. -/
  | scanned (path : String) (info : ModuleSyntax) (next : Option ModuleSyntax → Inquiry α)

/-- A worker, and the answers it has heard so far. -/
structure Worker (α : Type) where
  stage : Stage α
  heard : List (String × Option ModuleSyntax)

namespace Worker

variable {α : Type}

def start (task : Inquiry α) : Worker α :=
  { stage := .ready task, heard := [] }

/-- What the inquiry came to, when it is over. -/
def result? (worker : Worker α) : Option α :=
  match worker.stage with
  | .ready (.answer result) => some result
  | _ => none

/-- Go on from the answer about a path. -/
def hear (worker : Worker α) (path : String) (info : Option ModuleSyntax)
    (next : Option ModuleSyntax → Inquiry α) : Worker α :=
  { stage := .ready (next info), heard := worker.heard ++ [(path, info)] }

/-- One turn of a worker. -/
def turn (tree : FileTree) (cache : SyntaxCache) (worker : Worker α) : SyntaxCache × Worker α :=
  match worker.stage with
  | .ready (.answer _) => (cache, worker)
  | .ready (.ask path next) =>
    match cache[path]? with
    | some info => (cache, worker.hear path (some info) next)
    | none => (cache, { worker with stage := .missed path next })
  | .missed path next =>
    match tree.moduleSyntax? path with
    | some info => (cache, { worker with stage := .scanned path info next })
    | none => (cache, worker.hear path none next)
  | .scanned path info next => (cache.insert path info, worker.hear path (some info) next)

end Worker

/-- Workers who share a cache. -/
structure Crew (α : Type) where
  cache : SyntaxCache
  workers : List (Worker α)

namespace Crew

variable {α : Type}

/-- A worker for each inquiry, with a cache that may have been used before. -/
def start (cache : SyntaxCache) (tasks : List (Inquiry α)) : Crew α :=
  { cache, workers := tasks.map Worker.start }

/-- Worker `i` takes a turn. -/
def advance (tree : FileTree) (crew : Crew α) (i : Nat) : Crew α :=
  match crew.workers[i]? with
  | none => crew
  | some worker =>
    let (cache, worker) := worker.turn tree crew.cache
    { cache, workers := crew.workers.set i worker }

/-- The workers take turns as the schedule says. -/
def run (tree : FileTree) (crew : Crew α) (schedule : List Nat) : Crew α :=
  schedule.foldl (advance tree) crew

end Crew

end TypingsAudit
