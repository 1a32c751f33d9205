import Taskflow.Proofs.Run.Endings
import Taskflow.Proofs.Run.Lifecycle
set_option autoImplicit false

/-!
# The limit on concurrency

The jobs of a plan may belong to several runs or to none; they share the slots. In every reached
machine the account of the slots is kept, a task that has started and not come to its end holds a
slot, and so in what any run's queue folds to, at no moment, more tasks are running than there are
slots.

## Main definitions

* `Machine.queueOf` — the queue of a run, that is of some of the jobs.
* `TaskChange.HasStarted`, `TaskChange.HasCompleted` — what a job has told about its execution.
* `Phase.isCalling` — whether a job is being executed or waits for that.
* `Machine.broken` — the jobs whose work has broken down.

## Main results

* `Machine.Reached.held_or_completed` — who has started holds a slot until the end is told.
* `Machine.Reached.completed_of_release` — the end is told before the slot is given back.
* `Machine.Reached.exists_of_running` — whoever is shown as running has a job under way.
* `Machine.Reached.count_running_le_add` — how many tasks are shown as running.
* `Machine.running_at_most_limit` — slots are conserved, and the limit holds in every queue.

## Design

A task is shown as running as long as the last change that touches its status is a start or a retry.
The same identifier may be that of several jobs, one of which may still be running when another one
has ended; so the invariant does not follow one job, but says that some job of that identifier is
under way.
-/

namespace Taskflow

/-! ### Changes of one task -/

namespace TaskChange

variable {cs : List TaskChange} {c : TaskChange} {outcome : TaskOutcome}

/-- A job has told that it has started. -/
def HasStarted (cs : List TaskChange) : Prop := ∃ time, .started time ∈ cs

/-- A job has told that it has come to its end. -/
def HasCompleted (cs : List TaskChange) : Prop := ∃ time outcome, .completed time outcome ∈ cs

/-- A task that is underway has not come to its end. -/
lemma Underway.not_completed (h : Underway cs) : ¬ HasCompleted cs := by
  rintro ⟨time, outcome, hmem⟩
  obtain ⟨time', rest, rfl, hrest⟩ := h
  rcases List.mem_cons.1 hmem with h | h
  · cases h
  · exact absurd (hrest _ h) (by simp [isProgress])

/-- A task that is underway has started. -/
lemma Underway.hasStarted (h : Underway cs) : HasStarted cs := by
  obtain ⟨time, rest, rfl, -⟩ := h
  exact ⟨time, List.mem_cons_self⟩

/-- A task that has come to its end has told so. -/
lemma Completed.hasCompleted (h : Completed outcome cs) : HasCompleted cs := by
  obtain ⟨body, time, -, rfl⟩ := h
  exact ⟨time, outcome, List.mem_append_right _ (List.mem_singleton_self _)⟩

/-- A task that has come to its end has started. -/
lemma Completed.hasStarted (h : Completed outcome cs) : HasStarted cs := by
  obtain ⟨body, time, hbody, rfl⟩ := h
  obtain ⟨start, hmem⟩ := hbody.hasStarted
  exact ⟨start, List.mem_append_left _ hmem⟩

/-- The registration of a job is neither its start nor its end. -/
lemma hasStarted_registration {j : Job} : HasStarted (j.registration ++ cs) ↔ HasStarted cs := by
  refine exists_congr fun time => List.mem_append.trans (or_iff_right fun hmem => ?_)
  rw [Job.registration] at hmem
  split at hmem <;> simp at hmem

/-- A registration is no end. -/
lemma hasCompleted_registration {j : Job} :
    HasCompleted (j.registration ++ cs) ↔ HasCompleted cs := by
  refine exists_congr fun time => exists_congr fun outcome =>
    List.mem_append.trans (or_iff_right fun hmem => ?_)
  rw [Job.registration] at hmem
  split at hmem <;> simp at hmem

end TaskChange

open TaskChange

/-- What a phase tells is part of a life. -/
lemma Phase.Told.lived {a : Phase} {interrupted : Bool} {cs : List TaskChange}
    (h : a.Told interrupted cs) : Lived cs := by
  have hsettled : ∀ {outcome : NodeOutcome} {result : Option TaskResult},
      Settled interrupted cs outcome result → Lived cs := by
    intro outcome result h
    cases result with
    | none => exact h.elim (fun h => .inr (.inl h.2)) fun h => .inl h.2
    | some r => exact h.elim (fun h => .inl h.2.1) fun h => .inr (.inr (.inr ⟨_, h.2⟩))
  cases a with
  | settling outcome result => exact hsettled h
  | ended outcome result => exact hsettled h
  | releasing attempts outcome => exact .inr (.inr (.inr ⟨outcome, h⟩))
  | waiting | blocking | requesting | asking | queued | granted | starting => exact .inl h
  | _ => exact .inr (.inr (.inl h))

/-- A task that is running after a change has just been started or is retried, or it was running
before and has not come to its end. -/
lemma running_of_learn? {id : TaskId} {s : Option TaskState} {t : TaskState} {c : TaskChange}
    (h : TaskState.learn? id s c = some t) (ht : t.status = .running) :
    (∀ name, c ≠ .registered name) ∧ (∀ time outcome, c ≠ .completed time outcome) ∧
      ((∀ d, c ≠ .blocked d) ∧ (∀ stream line, c ≠ .output stream line) ∨
        ∃ u, s = some u ∧ u.status = .running) := by
  cases c with
  | registered name => cases h; cases ht
  | started time => simp
  | retrying attempt maxAttempts time => simp
  | output stream line =>
    obtain ⟨u, rfl, rfl⟩ := Option.map_eq_some_iff.1 h
    exact ⟨by simp, by simp, .inr ⟨u, rfl, by cases stream <;> exact ht⟩⟩
  | blocked d =>
    obtain ⟨u, rfl, rfl⟩ := Option.map_eq_some_iff.1 h
    exact ⟨by simp, by simp, .inr ⟨u, rfl, ht⟩⟩
  | completed time outcome =>
    obtain ⟨u, rfl, rfl⟩ := Option.map_eq_some_iff.1 h
    cases outcome <;> cases ht

/-! ### Slots of those that are under way -/

namespace Phase

/-- Whether a job that stands here is being executed, or waits for a slot to be. -/
def isCalling : Phase → Bool
  | .waiting .. | .blocking _ | .settling .. | .ended .. | .crashing _ | .crashed _ => false
  | _ => true

/-- Who is not calling neither holds a slot nor waits for one. -/
lemma claim_of_not_isCalling {a : Phase} (h : a.isCalling = false) : a.claim = .none := by
  cases a with
  | waiting | blocking | settling | ended | crashing | crashed => rfl
  | _ => cases h

/-- Whether the work of a job that stands here has broken down. -/
def isBroken : Phase → Bool
  | .crashing _ | .crashed _ => true
  | _ => false

end Phase

namespace Machine

variable {p : Plan} {j : Job} {a b : Phase} {k : Nat} {m m' : Machine} {c : Option TaskChange}
  {cs : List TaskChange} {interrupted : Bool} {interval limit : Nat} {world : Machine}
  {sel : Nat → Bool}

/-- The jobs whose work has broken down. -/
def broken (m : Machine) : Finset Nat :=
  (Finset.range m.jobs.size).filter fun k => (m.phaseOf? k).any (·.isBroken) = true

/-- A broken job stands in a broken phase. -/
lemma exists_phase_of_mem_broken (h : k ∈ m.broken) :
    ∃ a, m.phaseOf? k = some a ∧ a.isBroken = true :=
  (Option.any_eq_true _ _).1 (Finset.mem_filter.1 h).2

/-- A job is broken exactly if its phase is. -/
lemma mem_broken (ha : m.phaseOf? k = some a) : k ∈ m.broken ↔ a.isBroken = true := by
  obtain ⟨s, hs, -⟩ := Option.map_eq_some_iff.1 ha
  obtain ⟨hk, -⟩ := Array.getElem?_eq_some_iff.1 hs
  rw [broken, Finset.mem_filter, Finset.mem_range, ha]
  exact and_iff_right hk

/-- A job that has told something besides being blocked holds a slot or has told its end, unless it
broke down. -/
lemma claim_or_completed (htold : a.Told interrupted cs) (hne : HasStarted cs)
    (hok : ∀ message, a ≠ .crashing message ∧ a ≠ .crashed message) :
    a.claim = .held ∨ HasCompleted cs := by
  obtain ⟨time, hmem⟩ := hne
  have hidle : cs ≠ [] := List.ne_nil_of_mem hmem
  have hsettled : ∀ {outcome : NodeOutcome} {result : Option TaskResult},
      Settled interrupted cs outcome result → HasCompleted cs := by
    intro outcome result h
    cases result with
    | none =>
      rcases h with ⟨-, d, rfl⟩ | ⟨-, h⟩
      · simp at hmem
      · exact absurd h hidle
    | some r => exact h.elim (fun h => absurd h.2.1 hidle) fun h => h.2.hasCompleted
  cases a with
  | waiting | blocking | requesting | asking | queued => exact absurd htold hidle
  | settling outcome result => exact .inr (hsettled htold)
  | ended outcome result => exact .inr (hsettled htold)
  | crashing message => exact absurd rfl (hok message).1
  | crashed message => exact absurd rfl (hok message).2
  | _ => exact .inl rfl

section Reached

variable (hslots : Slots.ofLimit? limit = .ok world.slots) (hp : p.NeverPanics)
  (h : Reached p interval world m)
include hslots h

/-- What a job has told since its registration is part of a life. -/
lemma Reached.lived (hj : p.jobs[k]? = some j) :
    ∃ cs, m.toldBy k = j.registration ++ cs ∧ Lived cs := by
  obtain ⟨a, ha⟩ := h.phaseOf?_of_job hj
  obtain ⟨cs, hcs, htold⟩ := h.told hslots hj ha
  exact ⟨cs, hcs, htold.lived⟩

include hp in
/-- **Who has started holds a slot until the end is told.** -/
theorem Reached.held_or_completed (hk : HasStarted (m.toldBy k)) :
    k ∈ m.holders ∨ HasCompleted (m.toldBy k) := by
  obtain ⟨time, hmem⟩ := hk
  -- the job is one of the plan, as it has emitted something
  have hjob : ∃ j, p.jobs[k]? = some j := by
    obtain ⟨e, he, -⟩ := List.mem_map.1 hmem
    obtain ⟨he, hek⟩ := List.mem_filter.1 he
    obtain ⟨j, hj, -⟩ := h.tagged (List.mem_reverse.1 he)
    exact ⟨j, of_decide_eq_true hek ▸ hj⟩
  obtain ⟨j, hj⟩ := hjob
  obtain ⟨a, ha⟩ := h.phaseOf?_of_job hj
  obtain ⟨cs, hcs, htold⟩ := h.told hslots hj ha
  have hstarted : HasStarted cs := hasStarted_registration.1 ⟨time, hcs ▸ hmem⟩
  rw [mem_holders, claimOf_of_phaseOf? ha]
  rcases claim_or_completed htold hstarted fun message => h.not_crashed hslots hp ha message with
    hheld | ⟨time, outcome, hc⟩
  · exact .inl hheld
  · exact .inr ⟨time, outcome, hcs ▸ List.mem_append_right _ hc⟩

include hp in
/-- **The end of a task is told before its slot is given back.** -/
theorem Reached.completed_of_release (hs : Step p m m') (hheld : k ∈ m.holders)
    (hfree : k ∉ m'.holders) (hk : HasStarted (m.toldBy k)) : HasCompleted (m.toldBy k) := by
  rw [mem_holders] at hheld hfree
  obtain ⟨a, ha⟩ : ∃ a, m.phaseOf? k = some a := by
    rw [claimOf] at hheld
    split at hheld
    next a ha => exact ⟨a, ha⟩
    next => cases hheld
  obtain ⟨j, hj⟩ := h.job_of_phaseOf? ha
  obtain ⟨c, b, hturn, hb, htold⟩ := hs.turn (h.balanced hslots) hj ha
  rw [claimOf_of_phaseOf? ha] at hheld
  rw [claimOf_of_phaseOf? hb] at hfree
  -- the step that frees the slot emits nothing
  have hsilent : c = none := by
    cases hturn with
    | stay => exact absurd hheld hfree
    | grant => rfl
    | hear => rfl
    | move hmove =>
      have hclaim := hmove.claim_eq
      generalize Move.deed _ = d at hclaim
      cases d with
      | tell change record => exact absurd (hclaim.trans hheld) hfree
      | _ => rfl
  rw [hsilent, Option.toList_none, List.append_nil] at htold
  have hreached : Reached p interval world m' := h.tail hs
  rw [← htold] at hk ⊢
  refine (hreached.held_or_completed hslots hp hk).resolve_left ?_
  rwa [mem_holders, claimOf_of_phaseOf? hb]

end Reached

/-! ### Queues of runs -/

/-- The queue of a run: the events of its jobs, in order. -/
def queueOf (m : Machine) (sel : Nat → Bool) : List TaskEvent :=
  (m.emissions.reverse.filter fun e => sel e.job).map (·.event)

/-- Some job of a run whose task is `id` is under way. -/
def UnderwayAs (p : Plan) (m : Machine) (sel : Nat → Bool) (id : TaskId) : Prop :=
  ∃ k j cs, sel k = true ∧ p.jobs[k]? = some j ∧ j.task.id = id ∧
    m.toldBy k = j.registration ++ cs ∧ Underway cs

/-- What is emitted next leaves the task of a job under way, unless it is the end of that task. -/
lemma UnderwayAs.emit {id : TaskId} {e : Emission} (hlived : ∀ {k : Nat} {j : Job},
      p.jobs[k]? = some j → ∃ cs, m'.toldBy k = j.registration ++ cs ∧ Lived cs)
    (he : m'.emissions = e :: m.emissions) (h : UnderwayAs p m sel id)
    (hcompleted : e.event.task = id → ∀ time outcome, e.event.change ≠ .completed time outcome)
    (htag : ∃ j, p.jobs[e.job]? = some j ∧ e.event.task = j.task.id) :
    UnderwayAs p m' sel id := by
  obtain ⟨k, j, cs, hsel, hj, hid, hcs, hunder⟩ := h
  have htold : m'.toldBy k = m.toldBy k ++ if e.job = k then [e.event.change] else [] := by
    rw [toldBy, he, toldBy]
    by_cases hk : e.job = k <;> simp [hk]
  by_cases hk : e.job = k
  · rw [if_pos hk, hcs, List.append_assoc] at htold
    obtain ⟨cs', hcs', hlife⟩ := hlived hj
    obtain rfl : cs ++ [e.event.change] = cs' := List.append_cancel_left (htold.symm.trans hcs')
    obtain ⟨j', hj', htask⟩ := htag
    obtain rfl : j' = j := Option.some.inj (hj'.symm.trans (hk ▸ hj))
    exact ⟨k, j', _, hsel, hj, hid, htold,
      hlife.underway_of_underway hunder (hcompleted (htask.trans hid))⟩
  · rw [if_neg hk, List.append_nil] at htold
    exact ⟨k, j, cs, hsel, hj, hid, htold.trans hcs, hunder⟩

/-- A job whose start or retry is emitted next is under way afterwards. -/
lemma underwayAs_self {e : Emission}
    (hlived' : ∀ {k : Nat} {j : Job}, p.jobs[k]? = some j →
      ∃ cs, m'.toldBy k = j.registration ++ cs ∧ Lived cs)
    (hlived : ∀ {k : Nat} {j : Job}, p.jobs[k]? = some j →
      ∃ cs, m.toldBy k = j.registration ++ cs ∧ Lived cs)
    (he : m'.emissions = e :: m.emissions) (hsel : sel e.job = true)
    (htag : ∃ j, p.jobs[e.job]? = some j ∧ e.event.task = j.task.id)
    (hblocked : ∀ d, e.event.change ≠ .blocked d)
    (hcompleted : ∀ time outcome, e.event.change ≠ .completed time outcome) :
    UnderwayAs p m' sel e.event.task := by
  obtain ⟨j, hj, htask⟩ := htag
  obtain ⟨cs, hcs, -⟩ := hlived hj
  obtain ⟨cs', hcs', hlife⟩ := hlived' hj
  have htold : m'.toldBy e.job = m.toldBy e.job ++ [e.event.change] := by
    rw [toldBy, he, toldBy]
    simp
  rw [hcs, List.append_assoc] at htold
  obtain rfl : cs ++ [e.event.change] = cs' := List.append_cancel_left (htold.symm.trans hcs')
  exact ⟨e.job, j, _, hsel, hj, htask.symm, htold, hlife.underway_of_last hblocked hcompleted⟩

/-- **Whoever is shown as running has a job under way.**

**Proof sketch.** Induction on the steps. An event of another task, or of another run, changes
nothing. A start or a retry shows that its own job is under way; an end shows the task as ended, and
everything else leaves the status as it is. -/
theorem Reached.exists_of_running (hslots : Slots.ofLimit? limit = .ok world.slots)
    (h : Reached p interval world m) {id : TaskId} {s : TaskState}
    (hs : (SystemState.empty.fold (m.queueOf sel)).get? id = some s)
    (hrunning : s.status = .running) : UnderwayAs p m sel id := by
  induction h generalizing s with
  | refl =>
    refine absurd (SystemState.pending_of_registered (fun e he => ?_) hs) (by simp [hrunning])
    obtain ⟨x, hx, rfl⟩ := List.mem_map.1 he
    exact registered_of_mem_start (List.mem_reverse.1 (List.mem_filter.1 hx).1)
  | @tail m m' hr hstep ih =>
    have hr : Reached p interval world m := hr
    have hr' : Reached p interval world m' := hr.tail hstep
    rcases hstep.emissions_eq with he | ⟨e, he, -⟩
    · have hqueue : m'.queueOf sel = m.queueOf sel := by rw [queueOf, he, queueOf]
      obtain ⟨k, j, cs, hsel, hj, hid, hcs, hunder⟩ := ih (hqueue ▸ hs) hrunning
      exact ⟨k, j, cs, hsel, hj, hid, (toldBy_congr he k).trans hcs, hunder⟩
    · have htag := hr'.tagged (he ▸ List.mem_cons_self : e ∈ m'.emissions)
      have hlived : ∀ {k : Nat} {j : Job}, p.jobs[k]? = some j →
          ∃ cs, m'.toldBy k = j.registration ++ cs ∧ Lived cs := hr'.lived hslots
      by_cases hsel : sel e.job = true
      · have hqueue : m'.queueOf sel = m.queueOf sel ++ [e.event] := by
          rw [queueOf, he, queueOf]
          simp [hsel]
        rw [hqueue, SystemState.fold_append] at hs
        by_cases htask : e.event.task = id
        · subst htask
          rw [SystemState.fold, List.foldl_cons, List.foldl_nil, SystemState.get?_apply_self] at hs
          obtain ⟨-, hcompleted, hstart | ⟨u, hu, hrun⟩⟩ := running_of_learn? hs hrunning
          · exact underwayAs_self hlived (hr.lived hslots) he hsel htag hstart.1 hcompleted
          · exact (ih hu hrun).emit hlived he (fun _ => hcompleted) htag
        · have hs' : (SystemState.empty.fold (m.queueOf sel)).get? id = some s := by
            rw [SystemState.fold, List.foldl_cons, List.foldl_nil, SystemState.get?_apply,
              if_neg htask] at hs
            exact hs
          exact (ih hs' hrunning).emit hlived he (fun h => absurd h htask) htag
      · have hqueue : m'.queueOf sel = m.queueOf sel := by
          rw [queueOf, he, queueOf]
          simp [hsel]
        obtain ⟨k, j, cs, hk, hj, hid, hcs, hunder⟩ := ih (hqueue ▸ hs) hrunning
        have hne : e.job ≠ k := fun h => hsel (h ▸ hk)
        refine ⟨k, j, cs, hk, hj, hid, ?_, hunder⟩
        rw [← hcs, toldBy, he, toldBy]
        simp [hne]

/-- A job that is under way holds a slot, unless it broke down. -/
lemma claim_of_underway (htold : a.Told interrupted cs) (hcs : Underway cs)
    (hok : ∀ message, a ≠ .crashing message ∧ a ≠ .crashed message) : a.claim = .held :=
  (claim_or_completed htold hcs.hasStarted hok).resolve_right hcs.not_completed

/-- Whoever is shown as running has a job that holds a slot, or whose work broke down. -/
lemma Reached.exists_held_or_broken (hslots : Slots.ofLimit? limit = .ok world.slots)
    (h : Reached p interval world m) {id : TaskId} {s : TaskState}
    (hs : (SystemState.empty.fold (m.queueOf sel)).get? id = some s)
    (hrunning : s.status = .running) :
    ∃ k j, p.jobs[k]? = some j ∧ j.task.id = id ∧ (k ∈ m.holders ∨ k ∈ m.broken) := by
  obtain ⟨k, j, cs, -, hj, hid, hcs, hunder⟩ := h.exists_of_running hslots hs hrunning
  obtain ⟨a, ha⟩ := h.phaseOf?_of_job hj
  obtain ⟨cs', hcs', htold⟩ := h.told hslots hj ha
  obtain rfl : cs = cs' := List.append_cancel_left (hcs.symm.trans hcs')
  refine ⟨k, j, hj, hid, ?_⟩
  rw [mem_holders, claimOf_of_phaseOf? ha, mem_broken ha]
  by_cases hbroken : a.isBroken = true
  · exact .inr hbroken
  · refine .inl (claim_of_underway htold hunder fun message => ?_)
    constructor <;> rintro rfl <;> exact hbroken rfl

/-- **In what the queue of a run folds to, the running tasks** are at most as many as there are
slots, not counting those whose work broke down. -/
theorem Reached.count_running_le_add (hslots : Slots.ofLimit? limit = .ok world.slots)
    (h : Reached p interval world m) (sel : Nat → Bool) :
    (SystemState.empty.fold (m.queueOf sel)).count .running ≤
      Slots.effectiveLimit limit + m.broken.card := by
  -- the identifiers of the tasks whose jobs hold slots or whose work broke down
  let ids := (m.holders ∪ m.broken).toList.map fun k => ((p.jobs[k]?).map (·.task.id)).getD ⟨""⟩
  have hlength : ids.length ≤ Slots.effectiveLimit limit + m.broken.card := by
    have htotal := (h.balanced hslots).total_eq
    have hunion := Finset.card_union_le m.holders m.broken
    simp only [ids, List.length_map, Finset.length_toList]
    omega
  refine le_trans (SystemState.Keyed.count_le (SystemState.keyed_empty.fold _) ?_) hlength
  intro id s hs hrunning
  obtain ⟨k, j, hj, hid, hk⟩ := h.exists_held_or_broken hslots hs hrunning
  exact List.mem_map.2 ⟨k, Finset.mem_toList.2 (Finset.mem_union.2 hk), by rw [hj, ← hid]; rfl⟩

/-- Where no computation breaks down, none has broken down. -/
lemma Reached.broken_eq_empty (hslots : Slots.ofLimit? limit = .ok world.slots)
    (hp : p.NeverPanics) (h : Reached p interval world m) : m.broken = ∅ := by
  refine Finset.eq_empty_of_forall_notMem fun k hk => ?_
  obtain ⟨a, ha, hbroken⟩ := exists_phase_of_mem_broken hk
  cases a with
  | crashing message => exact absurd rfl (h.not_crashed hslots hp ha message).1
  | crashed message => exact absurd rfl (h.not_crashed hslots hp ha message).2
  | _ => cases hbroken

/-- In what the queue of a run folds to, at most as many tasks are running as there are slots. -/
lemma Reached.count_running_le (hslots : Slots.ofLimit? limit = .ok world.slots)
    (hp : p.NeverPanics) (h : Reached p interval world m) (sel : Nat → Bool) :
    (SystemState.empty.fold (m.queueOf sel)).count .running ≤ Slots.effectiveLimit limit := by
  have hle := h.count_running_le_add hslots sel
  rwa [h.broken_eq_empty hslots hp, Finset.card_empty] at hle

/-- **Slots are conserved, and the limit holds in every queue.** For every plan whose computations
do not break down, every limit and every sequence of actions:
* the free slots and those that jobs hold make up the limit;
* a job that has told its start holds a slot, or it has told its end;
* a job whose slot is given back by a step after its start has told its end before that step;
* what any first part of the queue of any run folds to shows at most as many running tasks as the
  limit says;
* all slots are free when no job is being executed or waits for that.

**Proof sketch.** Each step keeps the number of free slots and of holders together (`Balanced`), so
they always make up the limit. A job that is shown as running has told its start and not its end, so
it holds a slot (`Reached.count_running_le`). Every first part of a queue is all that an earlier
machine had emitted, or consists of registrations only. -/
theorem running_at_most_limit (hslots : Slots.ofLimit? limit = .ok world.slots)
    (hp : p.NeverPanics) (interval : Nat) (actions : List Action) :
    let m := (start p interval world).run p actions
    m.slots.free + m.holders.card = max limit 1 ∧
      (∀ k, HasStarted (m.toldBy k) → k ∈ m.holders ∨ HasCompleted (m.toldBy k)) ∧
      (∀ k m', Step p m m' → HasStarted (m.toldBy k) → k ∈ m.holders → k ∉ m'.holders →
        HasCompleted (m.toldBy k)) ∧
      (∀ sel es, es <+: m.queueOf sel →
        (SystemState.empty.fold es).count .running ≤ max limit 1) ∧
      ((∀ k a, m.phaseOf? k = some a → a.isCalling = false) → m.slots.free = max limit 1) := by
  intro m
  have hm : Reached p interval world m := reached_run actions
  have htotal : m.slots.free + m.holders.card = max limit 1 := (hm.balanced hslots).total_eq
  refine ⟨htotal, fun k => hm.held_or_completed hslots hp, ?_, ?_, fun hidle => ?_⟩
  · exact fun k m' hs hk hheld hfree => hm.completed_of_release hslots hp hs hheld hfree hk
  · intro sel es hes
    obtain ⟨l, hl, rfl⟩ := List.prefix_map_iff.1 hes
    obtain ⟨l', hl', rfl⟩ := List.prefix_filter_iff.1 hl
    rcases hm.of_prefix hl' with hreg | ⟨m₀, h₀, -, rfl⟩
    · rw [SystemState.count_running_of_registered fun e he => ?_]
      · exact Nat.zero_le _
      · obtain ⟨x, hx, rfl⟩ := List.mem_map.1 he
        exact registered_of_mem_start (List.mem_reverse.1 (hreg.subset (List.mem_filter.1 hx).1))
    · exact h₀.count_running_le hslots hp sel
  · have hnone : m.holders = ∅ := by
      ext k
      rw [mem_holders, claimOf]
      split
      next a ha => simp [Phase.claim_of_not_isCalling (hidle k a ha)]
      next => simp
    rw [hnone, Finset.card_empty] at htotal
    exact htotal

/-- Two tasks that are handed over directly. -/
def pairPlan : Plan :=
  .ofTasks [.ofComputation ⟨"a"⟩ fun _ => .finish (.ok .null),
    .ofComputation ⟨"b"⟩ fun _ => .finish (.ok .null)] (fun _ _ => .error "") default

/-- Nothing breaks down here. -/
lemma neverPanics_pairPlan : pairPlan.NeverPanics := by
  intro i j hj behaviour hwork n
  match i with
  | 0 => cases hj; cases hwork; exact .finish _ (by simp)
  | 1 => cases hj; cases hwork; exact .finish _ (by simp)
  | i + 2 => simp [pairPlan, Plan.ofTasks] at hj

/-- With one slot, only one of two tasks is running while the other waits in the line. -/
theorem one_slot_for_two :
    let m := (start pairPlan 1 (Machine.world ⟨1, []⟩)).run pairPlan
      (List.replicate 4 (.move 0 {}) ++ List.replicate 3 (.move 1 {}))
    m.slots.line = [1] ∧ 0 ∈ m.holders ∧
      (SystemState.empty.fold (m.queueOf fun _ => true)).count .running ≤ max 1 1 := by
  intro m
  have hline : m.slots.line = [1] := by decide +kernel
  have hstarted : m.toldBy 0 = [.started (.ofMillis 0)] := by decide +kernel
  have hslots : Slots.ofLimit? 1 = .ok (Machine.world ⟨1, []⟩).slots := rfl
  obtain ⟨-, hheld, -, hcount, -⟩ := running_at_most_limit hslots neverPanics_pairPlan 1
    (List.replicate 4 (.move 0 {}) ++ List.replicate 3 (.move 1 {}))
  refine ⟨hline, ?_, hcount (fun _ => true) _ List.prefix_rfl⟩
  have hopen : ¬ HasCompleted (m.toldBy 0) := by
    rw [hstarted]
    rintro ⟨time, outcome, h⟩
    cases List.mem_singleton.1 h
  have hbegun : HasStarted (m.toldBy 0) := by
    rw [hstarted]
    exact ⟨_, List.mem_singleton_self _⟩
  exact (hheld 0 hbegun).resolve_right hopen

end Machine

end Taskflow
