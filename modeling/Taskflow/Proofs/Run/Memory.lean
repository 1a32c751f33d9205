import Taskflow.Proofs.Run.Turn
set_option autoImplicit false

/-!
# What jobs remember

A job remembers when it was started, and, if its task has a log file, the lines of its latest
attempt. Only its own deeds change this.

## Main definitions

* `Deed.impress` — what a deed leaves with the job that does it.
* `Machine.Act`, `Machine.Acts` — what a step is for one job, with what it does and remembers.
* `Machine.Looks` — a step in which a job does nothing but look.

## Main results

* `Machine.getElem?_make_self`, `Machine.getElem?_make_of_ne` — the states of jobs after a move.
* `Machine.acts_make_self` — a move is an act of its own job.
* `Machine.looks_make_of_ne`, `Machine.looks_arrive`, `Machine.looks_of_same` — in other steps a job
  does nothing but look.
-/

namespace Taskflow

/-- What a deed leaves with the job that does it, whose task is `t`. -/
def Deed.impress (t : TaskDefinition) (now : Nat) : Deed → JobState → JobState
  | .tell change _ => fun s => Machine.remember t now s change
  | .forget => fun s => { s with captured := {} }
  | _ => id

/-- What a deed impresses on a job does not move it. -/
lemma Deed.impress_phase (t : TaskDefinition) (now : Nat) (d : Deed) (s : JobState) :
    (d.impress t now s).phase = s.phase := by
  cases d with
  | tell change record => exact Machine.remember_phase now s change
  | _ => rfl

namespace Machine

variable {p : Plan} {j : Job} {s : JobState} {i k total : Nat} {m m' : Machine} {v : Move}
  {t : TaskDefinition} {d : Deed}

/-- Keeping a report leaves nothing with a job. -/
lemma impress_keepReport (now : Nat) (outcome : TaskOutcome) :
    (m.keepReport j s outcome).impress t now = id := by
  rcases keepReport_cases j s outcome m with h | ⟨files, h⟩ | ⟨files, record, h⟩ <;> rw [h] <;> rfl

/-- A change of the state of one job leaves the others. -/
lemma getElem?_modifyJob (f : JobState → JobState) (i k : Nat) :
    (m.modifyJob i f).jobs[k]? = if i = k then (m.jobs[k]?).map f else m.jobs[k]? := by
  simp only [modifyJob, Array.getElem?_modify]

/-- A slot that is given back changes the phase of the job that gets it. -/
lemma getElem?_releaseSlot (k : Nat) : m.releaseSlot.jobs[k]? =
    if m.slots.release.2 = some k then (m.jobs[k]?).map fun s => { s with phase := .granted }
    else m.jobs[k]? := by
  unfold releaseSlot
  cases m.slots.release.2 with
  | none => rfl
  | some i =>
    simp only [setPhase, getElem?_modifyJob, Option.some_inj]

/-- **What a deed does to the states of jobs.** -/
lemma getElem?_perform (k : Nat) : (m.perform t i d).jobs[k]? =
    if m.heir? d = some k then (m.jobs[k]?).map fun s => { s with phase := .granted }
    else if i = k then (m.jobs[k]?).map (d.impress t m.now) else m.jobs[k]? := by
  cases d with
  | giveSlot =>
    rw [perform, getElem?_releaseSlot, heir?_giveSlot]
    simp [Deed.impress]
  | tell change record =>
    cases record <;> exact getElem?_modifyJob _ _ _
  | forget => exact getElem?_modifyJob _ _ _
  | _ => simp [perform, Deed.impress, heir?, jot, log]

/-- The state of a job after a move of its own. -/
lemma getElem?_make_self (hj : p.jobs[i]? = some j) : (m.make p i v).jobs[i]? =
    (m.jobs[i]?).map fun s => { v.deed.impress j.task m.now s with phase := v.phase } := by
  simp only [make, hj, setPhase, getElem?_modifyJob, getElem?_perform, if_true]
  split_ifs with hheir
  · have hgive : v.deed.impress j.task m.now = id := by
      cases hd : v.deed with
      | giveSlot => rfl
      | _ => simp [hd, heir?] at hheir
    simp only [Option.map_map, Function.comp_def, hgive, id]
  · simp only [Option.map_map, Function.comp_def]

/-- The state of a job after a move of another one. -/
lemma getElem?_make_of_ne (hj : p.jobs[i]? = some j) (hk : i ≠ k) : (m.make p i v).jobs[k]? =
    if m.heir? v.deed = some k then (m.jobs[k]?).map fun s => { s with phase := .granted }
    else m.jobs[k]? := by
  simp only [make, hj, setPhase, getElem?_modifyJob, getElem?_perform, if_neg hk]

/-- What a step is for job `j`, with what it does: it makes a move of its phase, or it does nothing
but look. -/
inductive Act (p : Plan) (j : Job) (m : Machine) : Phase → Move → Prop
  | stay (a : Phase) : Act p j m a ⟨.look, a⟩
  | grant : Act p j m .queued ⟨.look, .granted⟩
  | hear (unseen arrived : List Nat) (d : Nat) (outcome : NodeOutcome)
    (hd : m.outcomeOf? d = some outcome) (hmem : d ∈ unseen) :
    Act p j m (.waiting unseen arrived) ⟨.look, .waiting (unseen.erase d) (arrived ++ [d])⟩
  | move {s : JobState} {a : Phase} {v : Move} (h : Moves p j s m a v) : Act p j m a v

/-- An act is a turn. -/
lemma Act.turn {a : Phase} (h : Act p j m a v) : Turn p j m a v.deed.told v.phase := by
  cases h with
  | stay => exact .stay a
  | grant => exact .grant
  | hear unseen arrived d outcome hd hmem => exact .hear unseen arrived d outcome hd hmem
  | move h => exact .move h

/-- A step in which job `k`, whose state is `s`, does `v`. -/
structure Acts (p : Plan) (k : Nat) (j : Job) (s : JobState) (m m' : Machine) (v : Move) :
    Prop where
  act : Act p j m s.phase v
  state_eq : m'.jobs[k]? = some { v.deed.impress j.task m.now s with phase := v.phase }
  told_eq : m'.toldBy k = m.toldBy k ++ v.deed.told.toList

/-- A move is an act of its own job. -/
lemma acts_make_self {choices : Choices} (hv : m.nextMove? p k choices = some v)
    (hj : p.jobs[k]? = some j) (hstate : m.jobs[k]? = some s) :
    Acts p k j s m (m.make p k v) v := by
  have hphase := phaseOf?_of_state hstate
  obtain ⟨j', s', hj', hs', hmove⟩ := moves_of_nextMove? hv
  obtain rfl : j' = j := Option.some.inj (hj'.symm.trans hj)
  have hsame : s'.phase = s.phase := Option.some.inj (hs'.symm.trans hphase)
  have htold := toldBy_make (m := m) (v := v) hj' k
  rw [hsame] at hmove
  rw [if_pos rfl] at htold
  exact ⟨.move hmove, by rw [getElem?_make_self hj', hstate]; rfl, htold⟩

/-- A job that does nothing but look stays where it is, or is one that waits for others. -/
structure Looks (p : Plan) (k : Nat) (j : Job) (s : JobState) (m m' : Machine) (b : Phase) :
    Prop where
  acts : Acts p k j s m m' ⟨.look, b⟩
  waits : b = s.phase ∨ s.phase = .queued ∨ ∃ unseen arrived, s.phase = .waiting unseen arrived

/-- In a move of another job, a job does nothing but look. -/
lemma looks_make_of_ne (hb : Balanced total m) {j' : Job} (hj' : p.jobs[i]? = some j')
    (hk : i ≠ k) (hstate : m.jobs[k]? = some s) : ∃ b, Looks p k j s m (m.make p i v) b := by
  have hphase := phaseOf?_of_state hstate
  have htold := toldBy_make (m := m) (v := v) hj' k
  rw [if_neg hk] at htold
  have hjobs := getElem?_make_of_ne (m := m) (v := v) hj' hk
  rw [hstate] at hjobs
  by_cases hheir : m.heir? v.deed = some k
  · rw [if_pos hheir] at hjobs
    have hqueued : s.phase = .queued :=
      Option.some.inj (hphase.symm.trans (hb.phaseOf?_of_heir? hheir))
    exact ⟨_, ⟨hqueued ▸ .grant, hjobs, htold⟩, .inr (.inl hqueued)⟩
  · rw [if_neg hheir] at hjobs
    exact ⟨_, ⟨.stay s.phase, hjobs, htold⟩, .inl rfl⟩

/-- When a job hears from another one, every job does nothing but look. -/
lemma looks_arrive {d : Nat} {unseen arrived : List Nat} {outcome : NodeOutcome}
    (hi : m.phaseOf? i = some (.waiting unseen arrived)) (hd : m.outcomeOf? d = some outcome)
    (hmem : d ∈ unseen) (hstate : m.jobs[k]? = some s) :
    ∃ b, Looks p k j s m (m.setPhase i (.waiting (unseen.erase d) (arrived ++ [d]))) b := by
  have hphase := phaseOf?_of_state hstate
  have hjobs := getElem?_modifyJob (m := m) (fun s => { s with
    phase := .waiting (unseen.erase d) (arrived ++ [d]) }) i k
  rw [hstate] at hjobs
  by_cases hk : i = k
  · subst hk
    rw [if_pos rfl] at hjobs
    have hwaiting : s.phase = .waiting unseen arrived := Option.some.inj (hphase.symm.trans hi)
    exact ⟨_, ⟨hwaiting ▸ .hear unseen arrived d outcome hd hmem, hjobs,
      (List.append_nil _).symm⟩, .inr (.inr ⟨unseen, arrived, hwaiting⟩)⟩
  · rw [if_neg hk] at hjobs
    exact ⟨_, ⟨.stay s.phase, hjobs, (List.append_nil _).symm⟩, .inl rfl⟩

/-- In a change of the surroundings, every job does nothing but look. -/
lemma looks_of_same (hjobs : m'.jobs = m.jobs) (hemissions : m'.emissions = m.emissions)
    (hstate : m.jobs[k]? = some s) : Looks p k j s m m' s.phase :=
  ⟨⟨.stay s.phase, by rw [hjobs, hstate]; rfl,
    (toldBy_congr hemissions k).trans (List.append_nil _).symm⟩, .inl rfl⟩

end Machine

end Taskflow
