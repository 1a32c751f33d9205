import Taskflow.Proofs.Run.Holding
set_option autoImplicit false

/-!
# What a step is for one job

Of a small step, a single job sees little: it makes a move itself, it hears from another job, it is
given a slot while it waits for one, or it stays as it is. What it has emitted grows only by its own
moves. So whatever can be said of a job by its phase and by what it has emitted is shown turn by
turn.

## Main definitions

* `Machine.toldBy` — the changes that a job has emitted.
* `Machine.Turn` — what a step is for one job.

## Main results

* `Machine.Step.turn` — every step is a turn of every job.
* `Machine.Reached.induct_job` — what every turn preserves holds in every reached machine.
* `Machine.Reached.exists_phase_of_steps` — and, if it is about phases, from any machine on.
* `Machine.outcomeOf?_of_steps` — a job that has ended stays as it is.
* `Machine.Reached.tagged` — every event is about the task of the job that emitted it.
-/

namespace Taskflow

open Relation

/-- The events that tell of a job before the first step. -/
def Job.registration (j : Job) : List TaskChange :=
  if j.gate.isSome then [.registered j.task.name] else []

namespace Machine

variable {p : Plan} {j : Job} {a : Phase} {i k d : Nat} {m m' : Machine} {v : Move}
  {interval limit total : Nat} {world : Machine}

/-! ### What a job has emitted -/

/-- The changes that job `k` has emitted, in order. -/
def toldBy (m : Machine) (k : Nat) : List TaskChange :=
  (m.emissions.reverse.filter fun e => decide (e.job = k)).map (·.event.change)

/-- What a job has told depends on what was emitted. -/
lemma toldBy_congr (h : m'.emissions = m.emissions) (k : Nat) : m'.toldBy k = m.toldBy k := by
  rw [toldBy, h, toldBy]

/-- A move adds what it tells to what its job has emitted. -/
lemma toldBy_make (hj : p.jobs[i]? = some j) (k : Nat) :
    (m.make p i v).toldBy k = m.toldBy k ++ if i = k then v.deed.told.toList else [] := by
  rw [toldBy, make_emissions hj, toldBy]
  cases v.deed.told with
  | none => simp
  | some c => by_cases hk : i = k <;> simp [hk]

/-- Of the numbered entries of a list, one has a given number. -/
lemma filter_zipIdx {α : Type} (l : List α) (n k : Nat) :
    (l.zipIdx n).filter (fun x => decide (x.2 = n + k)) =
      (l[k]?.map fun x => (x, n + k)).toList := by
  induction l generalizing n k with
  | nil => rfl
  | cons x rest ih =>
    cases k with
    | zero =>
      have hnone : (rest.zipIdx (n + 1)).filter (fun y => decide (y.2 = n)) = [] := by
        rw [List.filter_eq_nil_iff]
        intro y hy
        have := List.le_snd_of_mem_zipIdx hy
        simp only [decide_eq_true_eq]
        omega
      simp [List.zipIdx_cons, hnone]
    | succ k =>
      have h := ih (n + 1) k
      rw [Nat.add_right_comm n 1 k] at h
      rw [List.zipIdx_cons, List.filter_cons_of_neg (by simp)]
      exact h

/-- Before the first step, a job of a graph has been registered, and nothing else. -/
lemma toldBy_start (hj : p.jobs[k]? = some j) :
    (start p interval world).toldBy k = j.registration := by
  have hzip := filter_zipIdx p.jobs.toList 0 k
  rw [Nat.zero_add, Array.getElem?_toList, hj] at hzip
  have hfilter : ((p.jobs.toList.zipIdx.filter fun x => x.1.gate.isSome).filter
      fun x => decide (x.2 = k)) = if j.gate.isSome then [(j, k)] else [] := by
    rw [List.filter_comm, hzip]
    simp [List.filter_cons]
  rw [toldBy, start_emissions, List.reverse_reverse, List.filter_map, List.map_map,
    Plan.registrations, List.filter_map, List.map_map]
  simp only [Function.comp_def] at hfilter ⊢
  rw [hfilter, Job.registration]
  split <;> rfl

/-! ### Turns -/

/-- What a step is for job `j`: from one phase to another, with what it emits. -/
inductive Turn (p : Plan) (j : Job) (m : Machine) : Phase → Option TaskChange → Phase → Prop
  | stay (a : Phase) : Turn p j m a none a
  | grant : Turn p j m .queued none .granted
  | hear (unseen arrived : List Nat) (d : Nat) (outcome : NodeOutcome)
    (hd : m.outcomeOf? d = some outcome) (hmem : d ∈ unseen) :
    Turn p j m (.waiting unseen arrived) none (.waiting (unseen.erase d) (arrived ++ [d]))
  | move {s : JobState} {a : Phase} {v : Move} (h : Moves p j s m a v) :
    Turn p j m a v.deed.told v.phase

/-- **Every step is a turn of every job.** -/
theorem Step.turn (hb : Balanced total m) (hs : Step p m m') (hj : p.jobs[k]? = some j)
    (ha : m.phaseOf? k = some a) : ∃ c b, Turn p j m a c b ∧ m'.phaseOf? k = some b ∧
      m'.toldBy k = m.toldBy k ++ c.toList := by
  cases hs with
  | move hv =>
    rename_i i choices v
    obtain ⟨j', s, hj', hs, hmove⟩ := moves_of_nextMove? hv
    have htold := toldBy_make (m := m) (v := v) hj' k
    by_cases hk : i = k
    · subst hk
      obtain rfl : j' = j := Option.some.inj (hj'.symm.trans hj)
      obtain rfl : s.phase = a := Option.some.inj (hs.symm.trans ha)
      rw [if_pos rfl] at htold
      exact ⟨_, _, .move hmove, phaseOf?_make_self hv, htold⟩
    · rw [if_neg hk] at htold
      have hphase := phaseOf?_make_of_ne (m := m) (v := v) hj' hk
      by_cases hheir : m.heir? v.deed = some k
      · obtain rfl : a = .queued :=
          Option.some.inj (ha.symm.trans (hb.phaseOf?_of_heir? hheir))
        rw [if_pos hheir, ha] at hphase
        exact ⟨none, _, .grant, hphase, htold⟩
      · rw [if_neg hheir, ha] at hphase
        exact ⟨none, _, .stay a, hphase, htold⟩
  | arrive hi hd hmem =>
    rename_i i d unseen arrived outcome
    have hphase := phaseOf?_setPhase m i k (.waiting (unseen.erase d) (arrived ++ [d]))
    by_cases hk : i = k
    · subst hk
      obtain rfl : a = .waiting unseen arrived := Option.some.inj (ha.symm.trans hi)
      rw [if_pos rfl, ha] at hphase
      exact ⟨none, _, .hear unseen arrived d outcome hd hmem, hphase, (List.append_nil _).symm⟩
    · rw [if_neg hk, ha] at hphase
      exact ⟨none, _, .stay a, hphase, (List.append_nil _).symm⟩
  | ambient => exact ⟨none, a, .stay a, ha, (List.append_nil _).symm⟩

/-- **What every turn preserves holds in every reached machine.** The property may speak of the
machine, the phase of the job, and what it has emitted. -/
theorem Reached.induct_job (hslots : Slots.ofLimit? limit = .ok world.slots)
    (h : Reached p interval world m) (hj : p.jobs[k]? = some j)
    {I : Machine → Phase → List TaskChange → Prop}
    (hstart : I (start p interval world) (firstPhase j) j.registration)
    (hstep : ∀ m m' a c b told, Reached p interval world m → Step p m m' → Turn p j m a c b →
      m.phaseOf? k = some a → I m a told → I m' b (told ++ c.toList))
    (ha : m.phaseOf? k = some a) : I m a (m.toldBy k) := by
  induction h generalizing a with
  | refl =>
    rw [start_phaseOf?, hj] at ha
    cases ha
    rw [toldBy_start hj]
    exact hstart
  | tail hr hs ih =>
    have hr : Reached p interval world _ := hr
    obtain ⟨a₀, ha₀⟩ := hr.phaseOf?_of_job hj
    obtain ⟨c, b, hturn, hb, htold⟩ := hs.turn (hr.balanced hslots) hj ha₀
    obtain rfl : b = a := Option.some.inj (hb.symm.trans ha)
    rw [htold]
    exact hstep _ _ _ _ _ _ hr hs hturn ha₀ (ih ha₀)

/-- **What every turn of a job preserves holds from then on.** The property speaks of the phase of
the job alone. -/
theorem Reached.exists_phase_of_steps (hslots : Slots.ofLimit? limit = .ok world.slots)
    (hr : Reached p interval world m) (h : ReflTransGen (Step p) m m') {I : Phase → Prop}
    (hturn : ∀ {m : Machine} {j : Job} {a b : Phase} {c : Option TaskChange},
      Turn p j m a c b → I a → I b)
    (ha : m.phaseOf? k = some a) (hI : I a) : ∃ b, m'.phaseOf? k = some b ∧ I b := by
  induction h with
  | refl => exact ⟨a, ha, hI⟩
  | tail h hs ih =>
    obtain ⟨b, hb, hIb⟩ := ih
    have hr' : Reached p interval world _ := hr.trans h
    obtain ⟨j, hj⟩ := hr'.job_of_phaseOf? hb
    obtain ⟨c, b', hmove, hb', -⟩ := hs.turn (hr'.balanced hslots) hj hb
    exact ⟨b', hb', hturn hmove hIb⟩

/-! ### What stays -/

/-- A job that has ended cannot move. -/
lemma Moves.not_hasEnded {s : JobState} (h : Moves p j s m a v) : a.hasEnded = false := by
  cases h <;> rfl

/-- A job that has ended makes no turns any more. -/
lemma Turn.eq_of_hasEnded {c : Option TaskChange} {b : Phase} (h : Turn p j m a c b)
    (ha : a.hasEnded = true) : b = a ∧ c = none := by
  cases h with
  | stay => exact ⟨rfl, rfl⟩
  | grant => cases ha
  | hear => cases ha
  | move h => rw [h.not_hasEnded] at ha; cases ha

/-- Who has an outcome has ended. -/
lemma hasEnded_of_outcomeOf? {o : NodeOutcome} (h : m.outcomeOf? d = some o) :
    ∃ a, m.phaseOf? d = some a ∧ a.hasEnded = true := by
  unfold outcomeOf? at h
  split at h
  next hd => exact ⟨_, hd, rfl⟩
  next hd => exact ⟨_, hd, rfl⟩
  next => cases h

/-- A job that has ended stays as it is. -/
lemma phaseOf?_of_steps (hslots : Slots.ofLimit? limit = .ok world.slots)
    (hr : Reached p interval world m) (h : ReflTransGen (Step p) m m') (ha : m.phaseOf? d = some a)
    (hended : a.hasEnded = true) : m'.phaseOf? d = some a := by
  obtain ⟨b, hb, rfl⟩ := hr.exists_phase_of_steps hslots h (I := fun b => b = a)
    (fun hturn hb => (hturn.eq_of_hasEnded (hb ▸ hended)).1.trans hb) ha rfl
  exact hb

/-- **The outcome of a job that has ended stays.** -/
theorem outcomeOf?_of_steps (hslots : Slots.ofLimit? limit = .ok world.slots)
    (hr : Reached p interval world m) (h : ReflTransGen (Step p) m m') {o : NodeOutcome}
    (ho : m.outcomeOf? d = some o) : m'.outcomeOf? d = some o := by
  obtain ⟨a, ha, hended⟩ := hasEnded_of_outcomeOf? ho
  rw [outcomeOf?, ha] at ho
  rw [outcomeOf?, phaseOf?_of_steps hslots hr h ha hended]
  exact ho

/-! ### Whose events they are -/

/-- **Every event is about the task of the job that emitted it.** -/
theorem Reached.tagged (h : Reached p interval world m) {e : Emission} (he : e ∈ m.emissions) :
    ∃ j, p.jobs[e.job]? = some j ∧ e.event.task = j.task.id := by
  induction h with
  | refl =>
    rw [start_emissions, List.mem_reverse, List.mem_map] at he
    obtain ⟨x, hx, rfl⟩ := he
    obtain ⟨y, hy, rfl⟩ := List.mem_map.1 hx
    have hmem := List.mem_zipIdx_iff_getElem?.1 (List.mem_filter.1 hy).1
    exact ⟨y.1, by simpa using hmem, rfl⟩
  | tail _ hs ih =>
    cases hs with
    | move hv =>
      obtain ⟨j, s, hj, -, -⟩ := moves_of_nextMove? hv
      rw [make_emissions hj, List.mem_append] at he
      rcases he with he | he
      · obtain ⟨c, -, rfl⟩ := Option.map_eq_some_iff.1 (Option.mem_toList.1 he)
        exact ⟨j, hj, rfl⟩
      · exact ih he
    | arrive => exact ih he
    | ambient => exact ih he

end Machine

end Taskflow
