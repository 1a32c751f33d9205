import Taskflow.Proofs.OutputLines
import Taskflow.Proofs.Run.Counters
import Taskflow.Proofs.Run.Endings
import Taskflow.Proofs.Run.Gate
import Taskflow.Proofs.Run.Coordination
set_option autoImplicit false

/-!
# Runs with checks

A run that checks, before everything it does, what could break it: that an attempt did not break
down, that there is a number for the next attempt, that a job which is named exists, that a slot is
there to be taken, and that there is room for one that is given back. If no computation breaks down
and every task has a retry less than there are 32-bit numbers, then no check fails, whatever happens
in whatever order, and the run is the same as without checks.

## Main definitions

* `Phase.canGoOn`, `Slots.allow`, `Machine.canMake` — what is checked before a move.
* `Machine.move?`, `Machine.poll?`, `Machine.step?`, `Machine.run?` — a run with checks.
* `Machine.start?` — the start of a run, with a check of the ticker.
* `OutputLines.iterFrom?` — reading lines, with a check of what is left out.

## Main results

* `Machine.Reached.canMake` — in every reached machine, the next move of a job passes the checks.
* `Machine.Reached.run?_eq` — a run with checks does not fail.
* `Machine.start?_eq` — a run with a period that the clock can add can start.
* `Machine.delayMillis_le` — no wait is longer than the clock can add.
* `Machine.Reached.iterFrom?_eq` — no reader of a snapshot leaves out more than there is.
-/

namespace Taskflow

open Relation

/-! ### Checks -/

/-- Whether a job can go on from a phase: its attempt did not break down, the number of an attempt
that is over, or begins anew, can be counted up, and the job that is to blame exists. -/
def Phase.canGoOn (p : Plan) : Phase → Bool
  | .judging _ (.panic _) => false
  | .judging n _ | .resting n _ => decide (n.toNat < RetryPolicy.maxWord)
  | .blocking d => (p.jobs[d]?).isSome
  | _ => true

/-- Whether the slots allow a deed: a slot that is taken is free, and for one that is given back
there is someone in line or room. -/
def Slots.allow (s : Slots) : Deed → Bool
  | .takeSlot => decide (0 < s.free)
  | .giveSlot => decide (s.line ≠ [] ∨ s.free < maxCount)
  | _ => true

/-- As `iterFrom`, but what is left out before the first chunk that is visited must not be more than
there is. -/
def OutputLines.iterFrom? (b : OutputLines) (start : Nat) : Option (List String) :=
  if min (start / chunkSize) b.sealed.size * chunkSize ≤ min start b.size then
    some (b.iterFrom start)
  else none

namespace Machine

/-- Whether job `i` exists and can make a move. -/
def canMake (p : Plan) (i : Nat) (v : Move) (m : Machine) : Bool :=
  match p.jobs[i]?, m.phaseOf? i with
  | some _, some a => a.canGoOn p && m.slots.allow v.deed
  | _, _ => false

/-- As `move`, with checks. -/
def move? (p : Plan) (i : Nat) (choices : Choices) (m : Machine) : Option Machine :=
  match m.nextMove? p i choices with
  | some v => if m.canMake p i v then some (m.make p i v) else none
  | none => some m

/-- As `poll`, with checks before every move. -/
def poll? (p : Plan) (i : Nat) (choices : Choices) (m : Machine) : Option Machine :=
  match _h : m.nextMove? p i choices with
  | none => some m
  | some v =>
    if m.canMake p i v then
      if v.phase.isReporting then some (m.make p i v) else poll? p i choices (m.make p i v)
    else none
termination_by m.rankOf p i
decreasing_by exact rank_lt_of_nextMove? _h

/-- As `step`, with checks. -/
def step? (p : Plan) (m : Machine) : Action → Option Machine
  | .move i choices => (m.move? p i choices).map closeIfEnded
  | .poll i choices => (m.poll? p i choices).map closeIfEnded
  | a => some (m.step p a)

/-- As `run`, with checks. -/
def run? (p : Plan) (m : Machine) (actions : List Action) : Option Machine :=
  actions.foldlM (step? p) m

/-- As `start`, but the ticker must have a period, and the clock must be able to add it. -/
def start? (p : Plan) (interval : Nat) (world : Machine) : Option Machine :=
  let m := start p interval world
  if 0 < m.coordinator.interval ∧ m.coordinator.interval / 1000 < maxDelaySeconds then some m
  else none

variable {p : Plan} {a : Phase} {i k : Nat} {m : Machine} {choices : Choices} {v : Move}
  {interval limit : Nat} {world : Machine}

/-! ### The start -/

/-- **A run can start** if its interval is a number of 64 bits; that it may be zero does no harm. -/
theorem start?_eq (p : Plan) (world : Machine) (h : interval ≤ RetryPolicy.maxLongWord) :
    start? p interval world = some (start p interval world) := by
  obtain ⟨isClosed, hstart⟩ := start_coordinator p interval world
  have hinterval : (start p interval world).coordinator.interval = max interval 1 := by
    rw [hstart]
    rfl
  have hlong : RetryPolicy.maxLongWord / 1000 < maxDelaySeconds := by decide
  have hone : 1 ≤ RetryPolicy.maxLongWord := by decide
  have hadd : max interval 1 / 1000 < maxDelaySeconds :=
    (Nat.div_le_div_right (Nat.max_le.2 ⟨h, hone⟩)).trans_lt hlong
  rw [start?, hinterval]
  exact if_pos ⟨Nat.le_max_right _ _, hadd⟩

/-- **No wait is longer than the clock can add**, however long a backoff is and however often it
was doubled. -/
theorem delayMillis_le (d : Duration) : delayMillis d ≤ maxDelaySeconds * 1000 := by
  unfold delayMillis
  split
  · decide
  next hshort =>
    have hnanos : d.nanos < maxDelaySeconds * 1000000000 :=
      Nat.lt_mul_of_div_lt (Nat.not_le.1 hshort) (by decide)
    unfold maxDelaySeconds at hnanos ⊢
    omega

/-! ### Every move passes the checks -/

section Checked

variable (hslots : Slots.ofLimit? limit = .ok world.slots) (hr : Reached p interval world m)
include hslots hr

/-- The number of an attempt that is over, or begins anew, is at most that of the retries. -/
lemma Reached.number_le {j : Job} (hj : p.jobs[k]? = some j) (ha : m.phaseOf? k = some a)
    {n : UInt32} (hn : (∃ ending, a = .judging n ending) ∨ ∃ wake, a = .resting n wake) :
    n.toNat ≤ j.task.effectiveRetryPolicy.maxRetries.toNat := by
  obtain ⟨cs, htold, -, hnumbered⟩ := hr.numbered hslots hj ha
  have hannounced := (hr.announced hslots hj).retryAttempt_le
  rw [knownOf, htold, foldl_registration] at hannounced
  obtain ⟨ending, rfl⟩ | ⟨wake, rfl⟩ := hn
  · rwa [show n = _ from hnumbered]
  · rwa [show n = _ from hnumbered]

/-- In every reached machine a job can go on from where it stands. -/
lemma Reached.canGoOn (hpanic : p.NeverPanics)
    (hretries : ∀ (i : Nat) (j : Job), p.jobs[i]? = some j → j.retries < RetryPolicy.maxWord)
    (ha : m.phaseOf? k = some a) : a.canGoOn p = true := by
  obtain ⟨j, hj⟩ := hr.job_of_phaseOf? ha
  have hnumber := fun n => hr.number_le hslots hj ha (n := n)
  have hlt := hretries k j hj
  cases a with
  | judging n ending =>
    have hcount : n.toNat < RetryPolicy.maxWord := (hnumber n (.inl ⟨ending, rfl⟩)).trans_lt hlt
    cases ending with
    | ok | fail => exact decide_eq_true hcount
    | panic message =>
      have hends := hr.ends hslots hpanic
        (fun e he message heq => by rw [heq] at he; exact he) ha
      rcases hends with hends | ⟨hcut, -⟩
      · exact absurd rfl (hends message)
      · cases hcut
  | resting n wake => exact decide_eq_true ((hnumber n (.inr ⟨wake, rfl⟩)).trans_lt hlt)
  | blocking d =>
    -- who is to blame has ended, and only jobs end
    obtain ⟨-, hblame⟩ := hr.gated hslots hj ha
    obtain ⟨b, hb, -⟩ := hblame.elim hasEnded_of_outcomeOf? hasEnded_of_outcomeOf?
    obtain ⟨j', hj'⟩ := hr.job_of_phaseOf? hb
    exact Option.isSome_iff_exists.2 ⟨j', hj'⟩
  | _ => rfl

/-- In every reached machine the slots allow what a job does next. -/
lemma Reached.allow (hv : m.nextMove? p i choices = some v) : m.slots.allow v.deed = true := by
  obtain ⟨j, s, -, hs, hmove⟩ := moves_of_nextMove? hv
  have hclaim := hmove.claim_eq
  have htotal := (hr.balanced hslots).total_eq
  generalize v.deed = d at hclaim
  cases d with
  | takeSlot => exact decide_eq_true hclaim.2.2
  | giveSlot =>
    -- the slot of the job itself is not among the free ones
    have hholder : i ∈ m.holders := mem_holders.2 ((claimOf_of_phaseOf? hs).trans hclaim.1)
    have hcard := Finset.card_pos.2 ⟨i, hholder⟩
    have hlimit : Slots.effectiveLimit limit ≤ Slots.maxCount := by
      unfold Slots.ofLimit? at hslots
      split at hslots
      next hle => exact hle
      next => cases hslots
    exact decide_eq_true (.inr (by omega))
  | _ => rfl

/-- **In every reached machine, the next move of a job passes the checks.** -/
theorem Reached.canMake (hpanic : p.NeverPanics)
    (hretries : ∀ (i : Nat) (j : Job), p.jobs[i]? = some j → j.retries < RetryPolicy.maxWord)
    (hv : m.nextMove? p i choices = some v) : m.canMake p i v = true := by
  obtain ⟨j, s, hj, hs, -⟩ := moves_of_nextMove? hv
  rw [Machine.canMake, hj, hs]
  simp only [hr.canGoOn hslots hpanic hretries hs, hr.allow hslots hv, Bool.and_self]

end Checked

/-! ### Runs -/

section Runs

variable (hslots : Slots.ofLimit? limit = .ok world.slots) (hpanic : p.NeverPanics)
  (hretries : ∀ (i : Nat) (j : Job), p.jobs[i]? = some j → j.retries < RetryPolicy.maxWord)
include hslots hpanic hretries

/-- A move of a reached machine breaks no check. -/
lemma Reached.move?_eq (hr : Reached p interval world m) (i : Nat) (choices : Choices) :
    m.move? p i choices = some (m.move p i choices) := by
  unfold move? move
  cases hv : m.nextMove? p i choices with
  | none => rfl
  | some v => exact if_pos (hr.canMake hslots hpanic hretries hv)

/-- A poll passes the checks, move by move. -/
lemma Reached.poll?_eq (hr : Reached p interval world m) (i : Nat) (choices : Choices) :
    m.poll? p i choices = some (m.poll p i choices) := by
  induction m using poll.induct p i choices with
  | case1 m hv =>
    rw [poll?, poll_of_none hv]
    split
    · rfl
    next hv' => rw [hv] at hv'; cases hv'
  | case2 m v hv hreport =>
    rw [poll?, poll_of_some hv, if_pos hreport]
    split
    next hv' => rw [hv] at hv'; cases hv'
    next v' hv' =>
      obtain rfl : v' = v := Option.some.inj (hv'.symm.trans hv)
      rw [if_pos (hr.canMake hslots hpanic hretries hv), if_pos hreport]
  | case3 m v hv hreport ih =>
    rw [poll?, poll_of_some hv, if_neg hreport]
    split
    next hv' => rw [hv] at hv'; cases hv'
    next v' hv' =>
      obtain rfl : v' = v := Option.some.inj (hv'.symm.trans hv)
      rw [if_pos (hr.canMake hslots hpanic hretries hv), if_neg hreport]
      exact ih (hr.tail (.move hv))

/-- One step passes the checks. -/
lemma Reached.step?_eq (hr : Reached p interval world m) (x : Action) :
    m.step? p x = some (m.step p x) := by
  cases x with
  | move i choices => rw [step?, hr.move?_eq hslots hpanic hretries]; rfl
  | poll i choices => rw [step?, hr.poll?_eq hslots hpanic hretries]; rfl
  | _ => rfl

/-- **A run with checks does not fail**, and it goes the same way as without checks. -/
theorem Reached.run?_eq (hr : Reached p interval world m) (actions : List Action) :
    m.run? p actions = some (m.run p actions) := by
  induction actions generalizing m with
  | nil => rfl
  | cons x rest ih =>
    rw [run?, List.foldlM_cons, hr.step?_eq hslots hpanic hretries]
    exact ih (hr.trans (steps_step x))

end Runs

end Machine

/-! ### Snapshots -/

namespace TaskState

/-- The buffers of a task have full chunks and a tail. -/
def IsChunked (u : TaskState) : Prop := u.stdout.Chunked ∧ u.stderr.Chunked

/-- A task that was registered holds chunks that are cut as they should be. -/
lemma isChunked_fresh (id : TaskId) (name : String) : (fresh id name).IsChunked :=
  ⟨OutputLines.chunked_empty, OutputLines.chunked_empty⟩

/-- Every change leaves the chunks cut as they should be. -/
lemma IsChunked.apply {u : TaskState} (h : u.IsChunked) (c : TaskChange) :
    (u.apply c).IsChunked := by
  cases c with
  | registered name => exact isChunked_fresh u.id name
  | output stream line =>
    cases stream with
    | stdout => exact ⟨h.1.push line, h.2⟩
    | stderr => exact ⟨h.1, h.2.push line⟩
  | completed time outcome => cases outcome <;> exact h
  | started | retrying | blocked => exact h

end TaskState

namespace SystemState

/-- The buffers of all tasks are chunked. -/
def IsChunked (s : SystemState) : Prop := ∀ id u, s.get? id = some u → u.IsChunked

/-- Every event leaves the chunks cut as they should be. -/
lemma IsChunked.apply {s : SystemState} (h : s.IsChunked) (e : TaskEvent) :
    (s.apply e).IsChunked := by
  intro id u hu
  rw [get?_apply] at hu
  split at hu
  · split at hu
    next name _ => cases hu; exact TaskState.isChunked_fresh id name
    next =>
      obtain ⟨u', hu', rfl⟩ := Option.map_eq_some_iff.1 hu
      exact (h id u' hu').apply e.change
  · exact h id u hu

/-- After any events the chunks are cut as they should be. -/
lemma isChunked_fold (events : List TaskEvent) : (empty.fold events).IsChunked := by
  induction events using List.reverseRecOn with
  | nil => intro id u hu; cases hu
  | append_singleton events e ih => rw [fold_append]; exact ih.apply e

end SystemState

namespace Machine

variable {p : Plan} {m : Machine} {interval : Nat} {world : Machine}

/-- **No reader of a snapshot leaves out more lines than there are.** -/
theorem Reached.iterFrom?_eq (h : Reached p interval world m) {s : SystemState}
    (hs : s = m.coordinator.state ∨ ∃ e ∈ m.coordinator.published, e.state = s) {id : TaskId}
    {u : TaskState} (hu : s.get? id = some u) (stream : Stream) (start : Nat) :
    (u.lines stream).iterFrom? start = some ((u.lines stream).iterFrom start) := by
  obtain ⟨taken, -, hstate, hpublished⟩ := h.tracks.state_eq
  have hchunked : s.IsChunked := by
    rcases hs with rfl | ⟨e, he, rfl⟩
    · rw [hstate]
      exact SystemState.isChunked_fold taken
    · obtain ⟨es, -, hes⟩ := hpublished e he
      rw [hes]
      exact SystemState.isChunked_fold es
  obtain ⟨hout, herr⟩ := hchunked id u hu
  cases stream with
  | stdout => exact if_pos (hout.skipped_le start)
  | stderr => exact if_pos (herr.skipped_le start)

end Machine

end Taskflow
