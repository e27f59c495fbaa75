import Mathlib.Data.List.Basic
import TypingsAudit.Analysis.SyntaxCache

set_option autoImplicit false

/-! # The cache does not show

Workers who share a cache hear what they would hear if each of them had a new one, whoever takes a
turn when, and so they come to the same results (`Crew.cache_does_not_show`).

Looking a path up and putting it into the cache are different turns, so a file may be parsed by
several workers at once and put into the cache several times. What carries the proof is that all of
them put in the same: a cache is `Faithful` when it says of every path what the file at that path
says, and a worker is `OnTrack` when what it has heard, followed by what it will still hear, is what
its inquiry hears from the files. Every turn keeps both, and brings an unfinished worker closer to
its end. -/

namespace TypingsAudit

variable {tree : FileTree} {cache : SyntaxCache} {path : String} {info : ModuleSyntax}

/-! ## What the files say -/

theorem FileTree.moduleSyntax?_eq_some_iff :
    tree.moduleSyntax? path = some info ↔
      ∃ file, tree.file? path = some file ∧
        (file.kind.isScript = true ∨ file.kind.isDeclaration = true) ∧
          info = ModuleSyntax.ofSource file.path file.text := by
  rw [moduleSyntax?, Option.bind_eq_bind, Option.bind_eq_some_iff]
  refine exists_congr fun file => and_congr_right fun _ => ?_
  split
  · next hkind =>
      rw [Bool.or_eq_true] at hkind
      simp only [Option.some.injEq, hkind, true_and, @eq_comm _ info]
  · next hkind =>
      rw [Bool.or_eq_true] at hkind
      simp only [reduceCtorEq, hkind, false_and]

theorem FileTree.moduleSyntax?_eq_none_iff :
    tree.moduleSyntax? path = none ↔
      ∀ file, tree.file? path = some file →
        file.kind.isScript = false ∧ file.kind.isDeclaration = false := by
  rw [moduleSyntax?, Option.bind_eq_bind, Option.bind_eq_none_iff]
  refine forall_congr' fun file => forall_congr' fun _ => ?_
  split
  · next hkind =>
      rw [Bool.or_eq_true] at hkind
      cases hscript : file.kind.isScript <;> simp_all
  · next hkind => simpa using hkind

namespace SyntaxCache

/-- What the cache says of a path is what the file there says. -/
def Faithful (tree : FileTree) (cache : SyntaxCache) : Prop :=
  ∀ path info, cache[path]? = some info → tree.moduleSyntax? path = some info

theorem faithful_empty : Faithful tree {} := by
  intro path info h
  exact absurd h (by simp)

theorem Faithful.insert (h : cache.Faithful tree) (hinfo : tree.moduleSyntax? path = some info) :
    Faithful tree (cache.insert path info) := by
  intro other info' hother
  rw [Std.TreeMap.getElem?_insert] at hother
  split at hother
  · next heq =>
      rw [Std.compare_eq_iff_eq] at heq
      rw [← heq, hinfo, hother]
  · exact h other info' hother

/-- A faithful cache answers as the files do. -/
theorem Faithful.query_fst (h : cache.Faithful tree) (path : String) :
    (cache.query tree path).1 = tree.moduleSyntax? path := by
  unfold query
  cases hcached : cache[path]? with
  | some info => exact (h path info hcached).symm
  | none => cases tree.moduleSyntax? path <;> rfl

theorem query_empty : (query {} tree path).1 = tree.moduleSyntax? path :=
  faithful_empty.query_fst path

end SyntaxCache

/-! ## Inquiries -/

namespace Inquiry

variable {α β : Type} {syntaxOf : String → Option ModuleSyntax}

/-- The questions of an inquiry in order, with their answers. -/
def transcript (syntaxOf : String → Option ModuleSyntax) :
    Inquiry α → List (String × Option ModuleSyntax)
  | .answer _ => []
  | .ask path next => (path, syntaxOf path) :: (next (syntaxOf path)).transcript syntaxOf

theorem eq_of_mem_transcript {task : Inquiry α} {path : String} {answer : Option ModuleSyntax}
    (h : (path, answer) ∈ task.transcript syntaxOf) : answer = syntaxOf path := by
  induction task with
  | answer result => exact absurd h (by simp [transcript])
  | ask other next ih =>
      rcases List.mem_cons.1 h with heq | hrest
      · obtain ⟨rfl, rfl⟩ := Prod.mk.inj heq
        rfl
      · exact ih (syntaxOf other) hrest

theorem result_bind (first : Inquiry α) (second : α → Inquiry β) :
    (first.bind second).result syntaxOf = (second (first.result syntaxOf)).result syntaxOf := by
  induction first with
  | answer result => rfl
  | ask path next ih => exact ih (syntaxOf path)

theorem transcript_bind (first : Inquiry α) (second : α → Inquiry β) :
    (first.bind second).transcript syntaxOf
      = first.transcript syntaxOf ++ (second (first.result syntaxOf)).transcript syntaxOf := by
  induction first with
  | answer result => rfl
  | ask path next ih => exact congrArg ((path, syntaxOf path) :: ·) (ih (syntaxOf path))

theorem result_all (tasks : List (Inquiry α)) :
    (all tasks).result syntaxOf = tasks.map (·.result syntaxOf) := by
  induction tasks with
  | nil => rfl
  | cons task rest ih =>
      rw [all, result_bind, result_bind, ih]
      rfl

theorem transcript_all (tasks : List (Inquiry α)) :
    (all tasks).transcript syntaxOf = tasks.flatMap (·.transcript syntaxOf) := by
  induction tasks with
  | nil => rfl
  | cons task rest ih =>
      rw [all, transcript_bind, transcript_bind, ih, List.flatMap_cons]
      simp [transcript]

end Inquiry

/-! ## Cells -/

namespace Finding

theorem result_inquireExports (typesPath : String) (runtime : Option ModuleSyntax)
    (syntaxOf : String → Option ModuleSyntax) :
    (inquireExports typesPath runtime).result syntaxOf
      = ofExports (syntaxOf typesPath) runtime := by
  cases runtime with
  | some runtime => rfl
  | none => cases h : syntaxOf typesPath <;> rfl

theorem result_inquireFiles (kind : ResolutionKind) (types runtime : Resolved) :
    (inquireFiles kind types runtime).result tree.moduleSyntax?
      = ofFiles tree kind types runtime := by
  unfold inquireFiles ofFiles
  by_cases henforces : kind.enforcesFormat = true
  · simp only [if_pos henforces, Inquiry.result, Inquiry.result_bind]
    congr 1
    by_cases himports : kind = .node16Esm ∧ runtime.format = .cjs ∧
        (ofFalseFormats types.format runtime.format
          ((tree.moduleSyntax? runtime.path).bind ModuleSyntax.format?)).isEmpty = true
    · rw [if_pos himports, if_pos himports, result_inquireExports]
    · rw [if_neg himports, if_neg himports]
      rfl
  · simp only [if_neg henforces, Inquiry.result]

/-- For two files that are found, it is asked about the code and the declarations at most. -/
theorem length_transcript_inquireFiles_le (kind : ResolutionKind) (types runtime : Resolved)
    (syntaxOf : String → Option ModuleSyntax) :
    ((inquireFiles kind types runtime).transcript syntaxOf).length ≤ 2 := by
  have hexports : ((inquireExports types.path (syntaxOf runtime.path)).transcript syntaxOf).length
      ≤ 1 := by
    cases syntaxOf runtime.path with
    | some runtime => exact Nat.le_refl 1
    | none => exact Nat.zero_le 1
  unfold inquireFiles
  by_cases henforces : kind.enforcesFormat = true
  · simp only [if_pos henforces, Inquiry.transcript, Inquiry.transcript_bind, List.append_nil,
      List.length_cons]
    refine Nat.succ_le_succ ?_
    split
    · exact hexports
    · exact Nat.zero_le 1
  · simp only [if_neg henforces, Inquiry.transcript]
    exact Nat.zero_le 2

end Finding

namespace CellResult

theorem result_inquireFindings (cell : CellResult) :
    cell.inquireFindings.result tree.moduleSyntax? = cell.findings tree := by
  unfold inquireFindings findings
  cases cell.types with
  | notFound reason => cases cell.runtime <;> rfl
  | found types =>
      cases cell.runtime with
      | notFound reason => rfl
      | found runtime => exact Finding.result_inquireFiles cell.cell.kind types runtime

theorem result_inquiry (cell : CellResult) :
    cell.inquiry.result tree.moduleSyntax? = cell.problems tree := by
  rw [inquiry, Inquiry.result_bind, result_inquireFindings]
  rfl

theorem length_transcript_inquiry_le (cell : CellResult)
    (syntaxOf : String → Option ModuleSyntax) :
    (cell.inquiry.transcript syntaxOf).length ≤ 2 := by
  have hfindings : (cell.inquireFindings.transcript syntaxOf).length ≤ 2 := by
    unfold inquireFindings
    split
    · exact Nat.zero_le 2
    · exact Nat.zero_le 2
    · exact Nat.zero_le 2
    · exact Finding.length_transcript_inquireFiles_le ..
  rw [inquiry, Inquiry.transcript_bind]
  simpa [Inquiry.transcript] using hfindings

end CellResult

/-! ## The turns of one worker -/

namespace Stage

variable {α : Type}

/-- What is left of the inquiry, the question at hand included. -/
def rest : Stage α → Inquiry α
  | .ready task => task
  | .missed path next | .scanned path _ next => .ask path next

/-- The turns already taken for the question at hand. -/
def taken : Stage α → Nat
  | .ready _ => 0
  | .missed .. => 1
  | .scanned .. => 2

/-- The turns that are left at most, with three for a question. -/
def turnsLeft (syntaxOf : String → Option ModuleSyntax) (stage : Stage α) : Nat :=
  3 * (stage.rest.transcript syntaxOf).length - stage.taken

theorem taken_lt_three (stage : Stage α) : stage.taken < 3 := by
  cases stage <;> simp [taken]

end Stage

namespace Worker

variable {α : Type} {task : Inquiry α} {turns : Nat} {worker : Worker α}

/-- The worker has taken so many turns for the task, and is on its way to what the files say. -/
structure OnTrack (tree : FileTree) (task : Inquiry α) (turns : Nat) (worker : Worker α) :
    Prop where
  result : worker.stage.rest.result tree.moduleSyntax? = task.result tree.moduleSyntax?
  heard : worker.heard ++ worker.stage.rest.transcript tree.moduleSyntax?
    = task.transcript tree.moduleSyntax?
  scanned : ∀ path info next, worker.stage = .scanned path info next →
    tree.moduleSyntax? path = some info
  turnsLeft : worker.stage.turnsLeft tree.moduleSyntax?
    ≤ 3 * (task.transcript tree.moduleSyntax?).length - turns

theorem onTrack_start (task : Inquiry α) : (start task).OnTrack tree task 0 where
  result := rfl
  heard := rfl
  scanned := by simp [start]
  turnsLeft := Nat.le_refl _

/-- A true answer leads on to the rest of the inquiry. -/
theorem OnTrack.hear {next : Option ModuleSyntax → Inquiry α} (h : worker.OnTrack tree task turns)
    (hrest : worker.stage.rest = .ask path next) :
    (worker.hear path (tree.moduleSyntax? path) next).OnTrack tree task (turns + 1) := by
  obtain ⟨hresult, hheard, -, hleft⟩ := h
  have htaken := worker.stage.taken_lt_three
  rw [Stage.turnsLeft] at hleft
  rw [hrest] at hresult hheard hleft
  refine ⟨hresult, ?_, by simp [Worker.hear], ?_⟩
  · rw [← hheard]
    simp [Worker.hear, Stage.rest, Inquiry.transcript]
  · rw [Inquiry.transcript, List.length_cons] at hleft
    simp only [Worker.hear, Stage.turnsLeft, Stage.rest, Stage.taken]
    omega

/-- So does a turn that brings the question at hand one step further. -/
theorem OnTrack.proceed {stage : Stage α} (h : worker.OnTrack tree task turns)
    (hrest : stage.rest = worker.stage.rest) (htaken : stage.taken = worker.stage.taken + 1)
    (hscanned : ∀ path info next, stage = .scanned path info next →
      tree.moduleSyntax? path = some info) :
    OnTrack tree task (turns + 1) { worker with stage } := by
  obtain ⟨hresult, hheard, -, hleft⟩ := h
  refine ⟨hrest ▸ hresult, hrest ▸ hheard, hscanned, ?_⟩
  rw [Stage.turnsLeft] at hleft ⊢
  rw [hrest, htaken]
  omega

/-- **A turn keeps a worker on its way**, whatever the others have put into the cache. -/
theorem OnTrack.turn (hcache : cache.Faithful tree) (h : worker.OnTrack tree task turns) :
    (worker.turn tree cache).2.OnTrack tree task (turns + 1) := by
  obtain ⟨stage, heard⟩ := worker
  cases stage with
  | ready inquiry =>
      cases inquiry with
      | answer result =>
          have hdone : 0 ≤ 3 * (task.transcript tree.moduleSyntax?).length - (turns + 1) :=
            Nat.zero_le _
          exact ⟨h.result, h.heard, h.scanned, hdone⟩
      | ask path next =>
          cases hcached : cache[path]? with
          | some info =>
              have hhear := h.hear rfl
              rw [hcache path info hcached] at hhear
              simpa only [Worker.turn, hcached] using hhear
          | none =>
              have hproceed : OnTrack tree task (turns + 1) ⟨.missed path next, heard⟩ :=
                h.proceed rfl rfl (by simp)
              simpa only [Worker.turn, hcached] using hproceed
  | missed path next =>
      cases hinfo : tree.moduleSyntax? path with
      | some info =>
          have hproceed : OnTrack tree task (turns + 1) ⟨.scanned path info next, heard⟩ :=
            h.proceed rfl rfl (by rintro _ _ _ ⟨⟩; exact hinfo)
          simpa only [Worker.turn, hinfo] using hproceed
      | none =>
          have hhear := h.hear rfl
          simpa only [Worker.turn, hinfo] using hhear
  | scanned path info next =>
      have hhear := h.hear rfl
      rw [h.scanned path info next rfl] at hhear
      exact hhear

/-- **A turn keeps the cache faithful.** -/
theorem OnTrack.faithful_turn (hcache : cache.Faithful tree) (h : worker.OnTrack tree task turns) :
    (worker.turn tree cache).1.Faithful tree := by
  unfold Worker.turn
  split
  · exact hcache
  · split <;> exact hcache
  · split <;> exact hcache
  · next path info next hstage => exact hcache.insert (h.scanned path info next hstage)

/-- What a worker comes to is what its inquiry comes to, and it has heard all of it. -/
theorem OnTrack.eq_of_result? (h : worker.OnTrack tree task turns) {result : α}
    (hresult : worker.result? = some result) :
    result = task.result tree.moduleSyntax? ∧
      worker.heard = task.transcript tree.moduleSyntax? := by
  obtain ⟨stage, heard⟩ := worker
  obtain ⟨htrue, hheard, -, -⟩ := h
  unfold result? at hresult
  split at hresult
  · next result' hstage =>
      obtain rfl := Option.some.inj hresult
      rw [hstage] at htrue hheard
      exact ⟨htrue, by simpa [Stage.rest, Inquiry.transcript] using hheard⟩
  · exact absurd hresult (by simp)

/-- After three turns for each question a worker is done. -/
theorem OnTrack.result?_eq_some (h : worker.OnTrack tree task turns)
    (hturns : 3 * (task.transcript tree.moduleSyntax?).length ≤ turns) :
    worker.result? = some (task.result tree.moduleSyntax?) := by
  have hnone : (worker.stage.rest.transcript tree.moduleSyntax?).length = 0 := by
    have hleft := h.turnsLeft
    have htaken := worker.stage.taken_lt_three
    rw [Stage.turnsLeft] at hleft
    omega
  have hdone : ∃ result, worker.result? = some result := by
    obtain ⟨stage, heard⟩ := worker
    cases stage with
    | ready inquiry =>
        cases inquiry with
        | answer result => exact ⟨result, rfl⟩
        | ask path next => exact absurd hnone (by simp [Stage.rest, Inquiry.transcript])
    | missed path next => exact absurd hnone (by simp [Stage.rest, Inquiry.transcript])
    | scanned path info next => exact absurd hnone (by simp [Stage.rest, Inquiry.transcript])
  obtain ⟨result, hresult⟩ := hdone
  rw [hresult, (h.eq_of_result? hresult).1]

end Worker

/-! ## The turns of a crew -/

namespace Crew

variable {α : Type} {tasks : List (Inquiry α)} {turns : Nat → Nat} {crew : Crew α}

/-- The cache is faithful, and every worker has taken its turns and is on its way. -/
structure OnTrack (tree : FileTree) (tasks : List (Inquiry α)) (turns : Nat → Nat)
    (crew : Crew α) : Prop where
  cache : crew.cache.Faithful tree
  length : crew.workers.length = tasks.length
  worker : ∀ (i : Nat) (task : Inquiry α) (worker : Worker α), tasks[i]? = some task →
    crew.workers[i]? = some worker → worker.OnTrack tree task (turns i)

theorem onTrack_start (hcache : cache.Faithful tree) (tasks : List (Inquiry α)) :
    (start cache tasks).OnTrack tree tasks (fun _ => 0) where
  cache := hcache
  length := List.length_map ..
  worker := by
    intro i task worker htask hworker
    rw [start, List.getElem?_map, htask] at hworker
    obtain rfl := Option.some.inj hworker
    exact Worker.onTrack_start task

/-- Whoever takes a turn, the crew stays on its way. -/
theorem OnTrack.advance (h : crew.OnTrack tree tasks turns) (i : Nat) :
    (crew.advance tree i).OnTrack tree tasks (fun j => turns j + if i = j then 1 else 0) := by
  unfold Crew.advance
  cases hworker : crew.workers[i]? with
  | none =>
      refine ⟨h.cache, h.length, fun j task worker htask hj => ?_⟩
      have hne : i ≠ j := by
        rintro rfl
        exact absurd (hworker.symm.trans hj) (by simp)
      rw [if_neg hne]
      exact h.worker j task worker htask hj
  | some worker =>
      obtain ⟨hi, -⟩ := List.getElem?_eq_some_iff.1 hworker
      have hbound : i < tasks.length := h.length ▸ hi
      have htask : tasks[i]? = some tasks[i] := List.getElem?_eq_getElem hbound
      have hon := h.worker i _ worker htask hworker
      refine ⟨hon.faithful_turn h.cache, by simpa using h.length,
        fun j task worker' htask' hj => ?_⟩
      by_cases hij : i = j
      · subst hij
        rw [List.getElem?_set_self hi] at hj
        obtain rfl := Option.some.inj hj
        obtain rfl := Option.some.inj (htask.symm.trans htask')
        simpa using hon.turn h.cache
      · rw [List.getElem?_set_ne hij] at hj
        simpa [hij] using h.worker j task worker' htask' hj

/-- **Under every schedule a crew stays on its way.** -/
theorem OnTrack.run (h : crew.OnTrack tree tasks turns) (schedule : List Nat) :
    (crew.run tree schedule).OnTrack tree tasks (fun i => turns i + schedule.count i) := by
  induction schedule generalizing crew turns with
  | nil => exact h
  | cons i rest ih =>
      have hrest := ih (h.advance i)
      have hcount : (fun j => turns j + (if i = j then 1 else 0) + rest.count j)
          = fun j => turns j + (i :: rest).count j := by
        funext j
        rw [List.count_cons]
        by_cases hij : i = j
        · simp [hij]
          omega
        · simp [hij]
      rwa [hcount] at hrest

/-- **A question that nobody interrupts is a query of the cache.** -/
theorem run_ask_alone (tree : FileTree) (cache : SyntaxCache) (path : String)
    (next : Option ModuleSyntax → Inquiry α) (heard : List (String × Option ModuleSyntax)) :
    ∃ n ≤ 3, run tree ⟨cache, [⟨.ready (.ask path next), heard⟩]⟩ (List.replicate n 0)
      = ⟨(cache.query tree path).2, [⟨.ready (next (cache.query tree path).1),
          heard ++ [(path, (cache.query tree path).1)]⟩]⟩ := by
  cases hcached : cache[path]? with
  | some info =>
      refine ⟨1, by decide, ?_⟩
      simp [run, Crew.advance, Worker.turn, Worker.hear, SyntaxCache.query, hcached]
  | none =>
      cases hinfo : tree.moduleSyntax? path with
      | some info =>
          refine ⟨3, by decide, ?_⟩
          simp [run, Crew.advance, Worker.turn, Worker.hear, SyntaxCache.query, hcached, hinfo,
            List.replicate]
      | none =>
          refine ⟨2, by decide, ?_⟩
          simp [run, Crew.advance, Worker.turn, Worker.hear, SyntaxCache.query, hcached, hinfo,
            List.replicate]

theorem onTrack_run (hcache : cache.Faithful tree) (tasks : List (Inquiry α))
    (schedule : List Nat) :
    ((start cache tasks).run tree schedule).OnTrack tree tasks (fun i => schedule.count i) := by
  have hrun := (onTrack_start hcache tasks).run schedule
  simpa only [Nat.zero_add] using hrun

end Crew

/-! ## Crews that compare cells -/

namespace CellResult

theorem result_inquireAll (share : List CellResult) :
    (inquireAll share).result tree.moduleSyntax? = share.map (·.problems tree) := by
  rw [inquireAll, Inquiry.result_all, List.map_map]
  exact List.map_congr_left fun cell _ => result_inquiry cell

theorem length_transcript_inquireAll_le (share : List CellResult)
    (syntaxOf : String → Option ModuleSyntax) :
    ((inquireAll share).transcript syntaxOf).length ≤ 2 * share.length := by
  rw [inquireAll, Inquiry.transcript_all]
  induction share with
  | nil => exact Nat.zero_le _
  | cons cell rest ih =>
      have hcell := length_transcript_inquiry_le cell syntaxOf
      rw [List.map_cons, List.flatMap_cons, List.length_append, List.length_cons]
      omega

end CellResult

namespace Crew

/-- **The cache does not show.** Workers take over a cache that an earlier crew has left, at any
    point, and take turns under any schedule. Then the cache says of every path what the file there
    says. Every answer that a worker has heard is the one that a new cache would have given, and
    there is none just for a missing file and for one that is neither a script nor a declaration
    file. A worker that is done has come to what its inquiry comes to with a new cache for each
    question, and it is done after three turns for each of them. So workers who share the cells of a
    package among them find the problems of these cells, after six turns for each cell at the
    latest. -/
theorem cache_does_not_show (tree : FileTree) {α β : Type} (earlier : List (Inquiry β))
    (before : List Nat) (tasks : List (Inquiry α)) (shares : List (List CellResult))
    (schedule : List Nat) :
    let used := ((start {} earlier).run tree before).cache
    let crew := (start used tasks).run tree schedule
    let comparing := (start used (shares.map CellResult.inquireAll)).run tree schedule
    let alone := fun path => (SyntaxCache.query {} tree path).1
    (∀ path info, crew.cache[path]? = some info →
      ∃ file, tree.file? path = some file ∧ info = ModuleSyntax.ofSource file.path file.text) ∧
    (∀ path, alone path = none ↔
      ∀ file, tree.file? path = some file →
        file.kind.isScript = false ∧ file.kind.isDeclaration = false) ∧
    (crew.workers.length = tasks.length ∧
      ∀ i task worker, tasks[i]? = some task → crew.workers[i]? = some worker →
        (∀ path answer, (path, answer) ∈ worker.heard → answer = alone path) ∧
        (∀ result, worker.result? = some result →
          result = task.result alone ∧ worker.heard = task.transcript alone) ∧
        (3 * (task.transcript alone).length ≤ schedule.count i →
          worker.result? = some (task.result alone))) ∧
    (comparing.workers.length = shares.length ∧
      ∀ i share worker, shares[i]? = some share → comparing.workers[i]? = some worker →
        (∀ results, worker.result? = some results → results = share.map (·.problems tree)) ∧
        (6 * share.length ≤ schedule.count i →
          worker.result? = some (share.map (·.problems tree)))) := by
  intro used crew comparing alone
  have halone : alone = tree.moduleSyntax? := funext fun path => SyntaxCache.query_empty
  have hused : used.Faithful tree := (onTrack_run SyntaxCache.faithful_empty earlier before).cache
  have hcrew := onTrack_run hused tasks schedule
  have hcomparing := onTrack_run hused (shares.map CellResult.inquireAll) schedule
  rw [halone]
  refine ⟨fun path info hinfo => ?cached, fun path => FileTree.moduleSyntax?_eq_none_iff,
    ⟨hcrew.length, fun i task worker htask hi => ?worker⟩,
    ⟨by simpa using hcomparing.length, fun i share worker hshare hi => ?share⟩⟩
  case cached =>
    obtain ⟨file, hfile, -, hsource⟩ :=
      FileTree.moduleSyntax?_eq_some_iff.1 (hcrew.cache path info hinfo)
    exact ⟨file, hfile, hsource⟩
  case worker =>
    have hon := hcrew.worker i task worker htask hi
    refine ⟨fun path answer hanswer => ?_, fun result => hon.eq_of_result?,
      hon.result?_eq_some⟩
    have hmem : (path, answer) ∈ task.transcript tree.moduleSyntax? := by
      rw [← hon.heard]
      exact List.mem_append_left _ hanswer
    exact Inquiry.eq_of_mem_transcript hmem
  case share =>
    have htask : (shares.map CellResult.inquireAll)[i]? = some (CellResult.inquireAll share) := by
      rw [List.getElem?_map, hshare]
      rfl
    have hon := hcomparing.worker i _ worker htask hi
    rw [← CellResult.result_inquireAll]
    refine ⟨fun results hresults => (hon.eq_of_result? hresults).1, fun hturns => ?_⟩
    have hlength := CellResult.length_transcript_inquireAll_le share tree.moduleSyntax?
    exact hon.result?_eq_some (by omega)

/-- Two workers parse one file at the same time and put it into the cache under two spellings. -/
theorem racing_workers_agree :
    let tree := FileTree.empty.insert "a.mjs" []
    let tasks := [Inquiry.ask "a.mjs" .answer, Inquiry.ask "./a.mjs" .answer]
    let cell : CellResult :=
      ⟨⟨".", .node16Esm⟩, .found ⟨"a.mjs", .esm, false, false⟩,
        .found ⟨"./a.mjs", .esm, false, false⟩⟩
    let schedule := [0, 1, 0, 1, 0, 1, 0, 0, 0]
    let crew := (start {} tasks).run tree schedule
    let comparing := (start {} ([[cell]].map CellResult.inquireAll)).run tree schedule
    let alone := fun path => (SyntaxCache.query {} tree path).1
    (alone "./a.mjs").isSome = true ∧
    crew.workers.map (·.result?) = [some (alone "a.mjs"), some (alone "./a.mjs")] ∧
    (∀ worker ∈ crew.workers, ∀ path answer, (path, answer) ∈ worker.heard → answer = alone path) ∧
    comparing.workers.map (·.result?) = [some [cell.problems tree]] := by
  intro tree tasks cell schedule crew comparing alone
  obtain ⟨-, -, ⟨hlength, hworker⟩, hlength', hworker'⟩ :=
    cache_does_not_show tree ([] : List (Inquiry Unit)) [] tasks [[cell]] schedule
  obtain ⟨first, second, hcrew⟩ : ∃ first second, crew.workers = [first, second] :=
    List.length_eq_two.1 hlength
  obtain ⟨only, hcomparing⟩ : ∃ only, comparing.workers = [only] :=
    List.length_eq_one_iff.1 hlength'
  obtain ⟨hheard, -, hdone⟩ := hworker 0 _ first rfl (congrArg (·[0]?) hcrew)
  obtain ⟨hheard', -, hdone'⟩ := hworker 1 _ second rfl (congrArg (·[1]?) hcrew)
  obtain ⟨-, hcells⟩ := hworker' 0 _ only rfl (congrArg (·[0]?) hcomparing)
  refine ⟨by decide +kernel, ?_, ?_, ?_⟩
  · rw [hcrew, List.map_cons, List.map_singleton, hdone (by decide), hdone' (by decide)]
    rfl
  · rw [hcrew]
    intro worker hmem
    rcases List.mem_pair.1 hmem with rfl | rfl
    · exact hheard
    · exact hheard'
  · rw [hcomparing, List.map_singleton, hcells (by decide)]
    rfl

end Crew

end TypingsAudit
