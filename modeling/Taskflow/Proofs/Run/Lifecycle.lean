import Taskflow.Proofs.Run.Turn
import Taskflow.Proofs.State.Life
set_option autoImplicit false

/-!
# The life of a task, as it is told

What a job has emitted is determined by its phase, up to the lines and retries in between: before
its start nothing, then its start and what happens during the attempts, and last its end. A job that
never starts tells at most that it is blocked.

## Main definitions

* `Phase.Told` — what a job in a phase has emitted since its registration.

## Main results

* `Machine.Reached.told` — in every reached machine a job has emitted what its phase says.
* `Machine.succeeded_iff_of_told` — what others see of a job agrees with the status of its task.
-/

namespace Taskflow

/-! ### What a phase says about the changes -/

open TaskChange

/-- What a job has told that has nothing left to tell: with a result it was handed over for
execution, and came to its end unless the run was interrupted before its start; without one it is
blocked or was interrupted while it waited. -/
def Settled (interrupted : Bool) (cs : List TaskChange) (outcome : NodeOutcome) :
    Option TaskResult → Prop
  | none => outcome = .blocked ∧ (∃ d, cs = [.blocked d]) ∨ outcome = .interrupted ∧ cs = []
  | some r => outcome = .interrupted ∧ cs = [] ∧ interrupted = true ∨
      outcome = .ofTask r.outcome ∧ Completed r.outcome cs

/-- What a job in a phase has emitted since its registration, in a run that is interrupted or
not. -/
def Phase.Told (interrupted : Bool) (cs : List TaskChange) : Phase → Prop
  | .waiting .. | .blocking _ | .requesting | .asking | .queued | .granted | .starting => cs = []
  | .beginning _ | .attempting .. | .playing .. | .judging .. | .resting .. | .reporting ..
  | .completing .. | .crashing _ | .crashed _ => Underway cs
  | .releasing _ outcome => Completed outcome cs
  | .settling outcome result | .ended outcome result => Settled interrupted cs outcome result

/-- What has settled stays so when the run is interrupted. -/
lemma Settled.mono {before after : Bool} (h : before = true → after = true)
    {cs : List TaskChange} {outcome : NodeOutcome} {result : Option TaskResult}
    (hs : Settled before cs outcome result) : Settled after cs outcome result := by
  cases result with
  | none => exact hs
  | some r => exact hs.imp_left (And.imp_right (And.imp_right h))

namespace Machine

variable {p : Plan} {j : Job} {a b : Phase} {k : Nat} {m : Machine} {c : Option TaskChange}
  {cs : List TaskChange} {interrupted : Bool} {interval limit : Nat} {world : Machine}

/-- What was told stays what the phase says when the run is interrupted. -/
lemma told_mono {after : Bool} (h : interrupted = true → after = true)
    (ha : a.Told interrupted cs) : a.Told after cs := by
  cases a with
  | settling outcome result => exact Settled.mono h ha
  | ended outcome result => exact Settled.mono h ha
  | _ => exact ha

/-- The phase that follows the attempts has told what they have. -/
lemma told_concluded {t : TaskDefinition} {attempts : UInt32} {outcome : TaskOutcome}
    (h : Underway cs) : (concluded t attempts outcome).Told interrupted cs := by
  unfold concluded
  split <;> exact h

/-- A move adds to what was told what the next phase expects. -/
lemma Moves.told {s : JobState} {v : Move} (h : Moves p j s m a v)
    (ha : a.Told m.interrupted cs) : v.phase.Told m.interrupted (cs ++ v.deed.told.toList) := by
  cases h with
  | block d => obtain rfl : cs = [] := ha; exact .inl ⟨rfl, _, rfl⟩
  | start => obtain rfl : cs = [] := ha; exact underway_started _
  | giveUp | hearInterrupt => exact .inr ⟨rfl, (List.append_nil _).trans ha⟩
  | withdraw h | leave h | refuse h => exact .inl ⟨rfl, (List.append_nil _).trans ha, h⟩
  | emit | retry => exact Underway.concat ha rfl
  | succeed | exhaust | stop => exact (List.append_nil cs).symm ▸ told_concluded ha
  | keep attempts outcome =>
    rw [told_keepReport]
    exact (List.append_nil cs).symm ▸ ha
  | complete attempts outcome => exact ⟨cs, m.timestamp, ha, rfl⟩
  | release attempts outcome => exact .inr ⟨rfl, (List.append_nil cs).symm ▸ ha⟩
  | _ => exact (List.append_nil cs).symm ▸ ha

/-- A turn adds to what was told what the next phase expects. -/
lemma Turn.told (h : Turn p j m a c b) (ha : a.Told m.interrupted cs) :
    b.Told m.interrupted (cs ++ c.toList) := by
  cases h with
  | stay => exact (List.append_nil cs).symm ▸ ha
  | grant => exact (List.append_nil cs).symm ▸ ha
  | hear => exact (List.append_nil cs).symm ▸ ha
  | move h => exact h.told ha

/-- **In every reached machine a job has emitted what its phase says**, after its registration. -/
theorem Reached.told (hslots : Slots.ofLimit? limit = .ok world.slots)
    (h : Reached p interval world m) (hj : p.jobs[k]? = some j) (ha : m.phaseOf? k = some a) :
    ∃ cs, m.toldBy k = j.registration ++ cs ∧ a.Told m.interrupted cs := by
  refine h.induct_job hslots hj
    (I := fun m a told => ∃ cs, told = j.registration ++ cs ∧ a.Told m.interrupted cs) ?_ ?_ ha
  · refine ⟨[], (List.append_nil _).symm, ?_⟩
    unfold firstPhase
    split <;> rfl
  · rintro m m' a c b told - hs hturn - ⟨cs, rfl, hcs⟩
    exact ⟨cs ++ c.toList, List.append_assoc _ _ _, told_mono hs.interrupted_of (hturn.told hcs)⟩

/-! ### What others see -/

/-- What a settled job has told leaves its task pending, unless it was handed over. -/
lemma pending_of_settled_none {i : Bool} {outcome : NodeOutcome} (h : Settled i cs outcome none)
    (id : TaskId) (name : String) :
    (cs.foldl TaskState.apply (.fresh id name)).status = .pending := by
  rcases h with ⟨-, d, rfl⟩ | ⟨-, rfl⟩ <;> rfl

/-- **The task of a job that has ended has succeeded if others see the job as succeeded.** -/
theorem succeeded_iff_of_told (htold : a.Told interrupted cs) (ha : m.phaseOf? k = some a)
    (hended : a.hasEnded = true) (id : TaskId) (name : String) :
    (cs.foldl TaskState.apply (.fresh id name)).status = .succeeded ↔
      m.outcomeOf? k = some .succeeded := by
  rw [outcomeOf?, ha]
  cases a with
  | ended outcome result =>
    cases result with
    | none =>
      have hsettled : Settled interrupted cs outcome none := htold
      rw [pending_of_settled_none hsettled]
      rcases hsettled with ⟨rfl, -⟩ | ⟨rfl, -⟩ <;> simp
    | some r =>
      rcases htold with ⟨rfl, rfl, -⟩ | ⟨rfl, hcs⟩
      · simp [TaskState.fresh]
      · rw [hcs.status_eq]
        rcases r.outcome with result | ⟨error, command, _ | _⟩ <;>
          simp [TaskOutcome.isSuccess, NodeOutcome.ofTask]
  | crashed message =>
    rw [Underway.status_eq htold]
    simp
  | _ => cases hended

end Machine

end Taskflow
