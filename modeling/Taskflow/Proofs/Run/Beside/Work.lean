import Taskflow.Proofs.Run.Alike
set_option autoImplicit false

/-!
# Work that does not notice a difference between files

The same plan without the log files of some jobs, and what it takes for the work of a plan not to
notice what the reports of these jobs do to the files.

## Main definitions

* `Script.AlikeOn`, `TaskDefinition.IsBlindTo` — scripts and work that do not notice a difference
  between files.
* `TaskDefinition.withoutLog`, `Plan.withoutLogs` — the same without log files.
* `Plan.Overlooks` — no work of a plan notices what the reports of some jobs change.

## Design

The difference between the files is a relation `R`. Nothing is asked of it but that what happens in
a run keeps it up.
-/

namespace Taskflow

/-! ### Work that does not notice -/

namespace Script

variable {ω ε ζ : Type} {R : FileTree → FileTree → Prop}

/-- Two scripts that do the same if the files that they find are related, and leave such files. -/
inductive AlikeOn (R : FileTree → FileTree → Prop) : Script ω ε → Script ω ε → Prop
  | finish (ending : ε) : AlikeOn R (.finish ending) (.finish ending)
  | emit (output : ω) {next next' : Script ω ε} (h : AlikeOn R next next') :
    AlikeOn R (.emit output next) (.emit output next')
  | sleep (time : Duration) {next next' : Unit → Script ω ε}
    (h : ∀ u, AlikeOn R (next u) (next' u)) : AlikeOn R (.sleep time next) (.sleep time next')
  | trigger {next next' : Script ω ε} (h : AlikeOn R next next') :
    AlikeOn R (.trigger next) (.trigger next')
  | note (n : Note) {next next' : Script ω ε} (h : AlikeOn R next next') :
    AlikeOn R (.note n next) (.note n next')
  | files {update update' : FileTree → FileTree} {next next' : FileTree → Script ω ε}
    (hupdate : ∀ t t', R t t' → R (update t) (update' t'))
    (hnext : ∀ t t', R t t' → AlikeOn R (next t) (next' t')) :
    AlikeOn R (.files update next) (.files update' next')

/-- Scripts that do the same do so with other endings. -/
lemma AlikeOn.map (f : ε → ζ) {s s' : Script ω ε} (h : AlikeOn R s s') :
    AlikeOn R (s.map f) (s'.map f) := by
  induction h with
  | finish ending => exact .finish _
  | emit output _ ih => exact .emit output ih
  | sleep time _ ih => exact .sleep time ih
  | trigger _ ih => exact .trigger ih
  | note n _ ih => exact .note n ih
  | files hupdate _ ih => exact .files hupdate ih

end Script

namespace TaskDefinition

/-- The work of a task does the same on files that are related, and leaves such files. -/
def IsBlindTo (R : FileTree → FileTree → Prop) (launch : Launcher) (t : TaskDefinition) : Prop :=
  match t.work with
  | .computation behaviour => ∀ n, Script.AlikeOn R (behaviour n) (behaviour n)
  | .command spec => ∀ files files', R files files' →
    ResultsAlike (Script.AlikeOn R) (launch spec files) (launch spec files')

/-- The task without its log file. -/
def withoutLog (t : TaskDefinition) : TaskDefinition := { t with logFile := none }

/-- The task without its log file, or as it is. -/
def withoutLogIf (quiet : Bool) (t : TaskDefinition) : TaskDefinition :=
  if quiet then t.withoutLog else t

variable (t : TaskDefinition) (quiet : Bool)

/-- Without its log file a task has the same identifier. -/
@[simp] lemma id_withoutLogIf : (t.withoutLogIf quiet).id = t.id := by cases quiet <;> rfl

/-- Without its log file a task has the same name. -/
@[simp] lemma name_withoutLogIf : (t.withoutLogIf quiet).name = t.name := by cases quiet <;> rfl

/-- Without its log file a task has the same work. -/
@[simp] lemma work_withoutLogIf : (t.withoutLogIf quiet).work = t.work := by cases quiet <;> rfl

/-- Without its log file a task has the same policy. -/
@[simp] lemma effectiveRetryPolicy_withoutLogIf :
    (t.withoutLogIf quiet).effectiveRetryPolicy = t.effectiveRetryPolicy := by
  cases quiet <;> rfl

end TaskDefinition

/-- The job without the log file of its task, or as it is. -/
def Job.withoutLogIf (quiet : Bool) (j : Job) : Job := { j with task := j.task.withoutLogIf quiet }

namespace Plan

/-- The same plan without the log files of some jobs. -/
def withoutLogs (p : Plan) (quiet : Nat → Bool) : Plan :=
  { p with jobs := p.jobs.mapIdx fun i j => j.withoutLogIf (quiet i) }

/-- No work of a plan notices a difference `R` between files; the reports of some jobs make no other
difference, and those of the other jobs make none. -/
structure Overlooks (p : Plan) (quiet : Nat → Bool) (R : FileTree → FileTree → Prop) : Prop where
  blind : ∀ {i : Nat} {j : Job}, p.jobs[i]? = some j → j.task.IsBlindTo R p.launch
  save_quiet : ∀ {i : Nat} {j : Job} {path : String}, p.jobs[i]? = some j → quiet i = true →
    j.task.logFile = some path → ∀ (t t' : FileTree) (text : String), R t t' →
      R (t.trySave FileTree.workingDir path text).1 t'
  save_other : ∀ {i : Nat} {j : Job} {path : String}, p.jobs[i]? = some j → quiet i = false →
    j.task.logFile = some path → ∀ (t t' : FileTree) (text : String), R t t' →
      R (t.trySave FileTree.workingDir path text).1 (t'.trySave FileTree.workingDir path text).1

variable {p : Plan} {quiet : Nat → Bool} {i : Nat}

/-- At each place stands the same job, maybe without its log file. -/
lemma getElem?_withoutLogs (p : Plan) (quiet : Nat → Bool) (i : Nat) :
    (p.withoutLogs quiet).jobs[i]? = (p.jobs[i]?).map (·.withoutLogIf (quiet i)) := by
  simp only [withoutLogs, Array.getElem?_mapIdx]

/-- A place names the same task. -/
lemma idAt_withoutLogs (d : Nat) {t t' : TaskDefinition} (h : t'.id = t.id) :
    (p.withoutLogs quiet).idAt d t' = p.idAt d t := by
  unfold idAt
  rw [getElem?_withoutLogs]
  cases p.jobs[d]? with
  | none => exact h
  | some j => exact TaskDefinition.id_withoutLogIf _ _

/-- The same tasks are registered. -/
lemma registrations_withoutLogs (p : Plan) (quiet : Nat → Bool) :
    (p.withoutLogs quiet).registrations = p.registrations := by
  have hzip : (p.withoutLogs quiet).jobs.toList.zipIdx =
      p.jobs.toList.zipIdx.map fun x => (x.1.withoutLogIf (quiet x.2), x.2) := by
    refine List.ext_getElem? fun i => ?_
    rw [List.getElem?_map, List.getElem?_zipIdx, List.getElem?_zipIdx, Array.getElem?_toList,
      Array.getElem?_toList, getElem?_withoutLogs, Option.map_map, Option.map_map]
    simp [Function.comp_def]
  rw [registrations, hzip, List.filter_map, List.map_map, registrations]
  refine List.map_congr_left fun x _ => ?_
  simp [Job.withoutLogIf]

end Plan

end Taskflow
