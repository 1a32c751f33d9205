import Taskflow.Run.Move
set_option autoImplicit false

/-!
# Polls

A poll of a job: it goes on, move after move, until it has to wait for something, or until its
report is to be kept, which takes its own time.

## Main definitions

* `Phase.rank` — how much lies before a job, as long as no time passes.
* `Machine.poll` — a job goes on as far as it can.

## Main results

* `Machine.rank_lt_of_nextMove?` — a move lowers the rank, so that every poll ends.
-/

namespace Taskflow

namespace Phase

/-- How much lies before a job with task `t`, in lexicographic order: the part of its life (before
its start, its attempts, their end), the retries that are left, the part of the attempt, the script
that is left, and whether it is about to go on with it. -/
def rank (t : TaskDefinition) : Phase → Nat × Nat × Nat × Attempt × Nat
  | .waiting _ arrived => (2, arrived.length + 6, 0, .finish default, 0)
  | .requesting => (2, 5, 0, .finish default, 0)
  | .asking => (2, 4, 0, .finish default, 0)
  | .queued => (2, 3, 0, .finish default, 0)
  | .granted => (2, 2, 0, .finish default, 0)
  | .starting => (2, 1, 0, .finish default, 0)
  | .resting n _ => (1, left n, 3, .finish default, 0)
  | .beginning n => (1, left n, 2, .finish default, 0)
  | .attempting n _ rest => (1, left n, 1, rest (), 1)
  | .playing n script => (1, left n, 1, script, 0)
  | .judging n _ => (1, left n, 0, .finish default, 0)
  | .blocking _ => (0, 5, 0, .finish default, 0)
  | .reporting .. => (0, 4, 0, .finish default, 0)
  | .completing .. => (0, 3, 0, .finish default, 0)
  | .releasing .. => (0, 2, 0, .finish default, 0)
  | .settling .. | .crashing _ => (0, 1, 0, .finish default, 0)
  | .ended .. | .crashed _ => (0, 0, 0, .finish default, 0)
where
  left (n : UInt32) : Nat := t.effectiveRetryPolicy.maxRetries.toNat + 1 - n.toNat

/-- Whether phase `a` has less before it than phase `b`. -/
def Below (t : TaskDefinition) (a b : Phase) : Prop :=
  WellFoundedRelation.rel (a.rank t) (b.rank t)

/-- Whether a job that stands here is about to keep its report. -/
def isReporting : Phase → Bool
  | .reporting .. => true
  | _ => false

variable {t : TaskDefinition} {a b : Phase}

/-- A phase is below another one if its rank comes first, component by component. -/
theorem below_iff : a.Below t b ↔
    (a.rank t).1 < (b.rank t).1 ∨ (a.rank t).1 = (b.rank t).1 ∧
      ((a.rank t).2.1 < (b.rank t).2.1 ∨ (a.rank t).2.1 = (b.rank t).2.1 ∧
        ((a.rank t).2.2.1 < (b.rank t).2.2.1 ∨ (a.rank t).2.2.1 = (b.rank t).2.2.1 ∧
          ((a.rank t).2.2.2.1.Follows (b.rank t).2.2.2.1 ∨
            (a.rank t).2.2.2.1 = (b.rank t).2.2.2.1 ∧
              (a.rank t).2.2.2.2 < (b.rank t).2.2.2.2))) := by
  refine Prod.lex_def.trans (or_congr_right (and_congr_right fun _ => ?_))
  refine Prod.lex_def.trans (or_congr_right (and_congr_right fun _ => ?_))
  exact Prod.lex_def.trans (or_congr_right (and_congr_right fun _ => Prod.lex_def))

end Phase

namespace Machine

variable {p : Plan} {i : Nat} {choices : Choices} {m : Machine} {t : TaskDefinition} {v : Move}

/-- What follows the last attempt is below everything that comes before it. -/
theorem below_of_concluded (n : UInt32) (outcome : TaskOutcome) {b : Phase}
    (h : 0 < (b.rank t).1) : (concluded t n outcome).Below t b := by
  refine Phase.below_iff.2 (.inl (Nat.lt_of_le_of_lt (Nat.le_of_eq ?_) h))
  unfold concluded
  split <;> rfl

/-- A job that waits goes on to something below. -/
theorem below_of_whenWaiting {unseen arrived : List Nat}
    (h : m.whenWaiting unseen arrived = some v) : v.phase.Below t (.waiting unseen arrived) := by
  rw [Phase.below_iff]
  unfold whenWaiting at h
  split at h
  · cases h; simp [Phase.rank]
  · split at h
    · split at h
      · cases h; simp [Phase.rank]
      · cases h
    · split at h <;> cases h <;> simp [Phase.rank]

/-- A job that sleeps in an attempt goes on to something below. -/
theorem below_of_whenAttempting {n : UInt32} {c : Preference} {wake : Nat} {rest : Unit → Attempt}
    (h : m.whenAttempting n c wake rest = some v) : v.phase.Below t (.attempting n wake rest) := by
  rw [Phase.below_iff]
  unfold whenAttempting at h
  split at h
  · cases h; simp [Phase.rank]
  · split at h <;> cases h
    simp [Phase.rank]

/-- A job that plays a script goes on to something below. -/
theorem below_of_whenPlaying (n : UInt32) (script : Attempt) :
    (m.whenPlaying n script).phase.Below t (.playing n script) := by
  rw [Phase.below_iff]
  cases script with
  | finish e => simp [whenPlaying, Phase.rank]
  | emit o next => simp [whenPlaying, Phase.rank, Script.Follows.emit]
  | sleep d next =>
    have h := Script.Follows.sleep (ω := Stream × String) (ε := Ending) d next ()
    by_cases hd : delayMillis d = 0 <;> simp [whenPlaying, hd, Phase.rank, h]
  | trigger next => simp [whenPlaying, Phase.rank, Script.Follows.trigger]
  | note k next => simp [whenPlaying, Phase.rank, Script.Follows.note]
  | files update next => simp [whenPlaying, Phase.rank, Script.Follows.files]

/-- A retry uses up one of those that are left. -/
theorem left_lt_of_shouldRetry {n : UInt32} (h : t.effectiveRetryPolicy.shouldRetry n = true) :
    Phase.rank.left t (n + 1) < Phase.rank.left t n := by
  obtain ⟨hlt, hn⟩ := RetryPolicy.toNat_succ_of_shouldRetry h
  simp only [Phase.rank.left, hn]
  omega

/-- A job that judges an attempt goes on to something below. -/
theorem below_of_whenJudging (n : UInt32) (ending : Ending) :
    (m.whenJudging t n ending).phase.Below t (.judging n ending) := by
  cases ending with
  | ok result => exact below_of_concluded _ _ (Nat.one_pos)
  | panic message => simp [whenJudging, Phase.below_iff, Phase.rank]
  | fail e =>
    simp only [whenJudging]
    split
    next h => simp [Phase.below_iff, Phase.rank, left_lt_of_shouldRetry h.2]
    next => exact below_of_concluded _ _ (Nat.one_pos)

/-- A job that rests goes on to something below. -/
theorem below_of_whenResting {n : UInt32} {c : Preference} {wake : Nat}
    (h : m.whenResting t n c wake = some v) : v.phase.Below t (.resting n wake) := by
  unfold whenResting at h
  split at h
  · cases h; simp [Phase.below_iff, Phase.rank]
  · split at h <;> cases h
    exact below_of_concluded _ _ (Nat.one_pos)

/-- A move lowers the rank. -/
theorem below_of_moveOf? {j : Job} {s : JobState}
    (h : m.moveOf? p j s choices = some v) : v.phase.Below j.task s.phase := by
  obtain ⟨phase, startedAt, captured⟩ := s
  cases phase with
  | waiting unseen arrived => exact below_of_whenWaiting h
  | attempting n wake rest => exact below_of_whenAttempting h
  | resting n wake => exact below_of_whenResting h
  | playing n script => cases h; exact below_of_whenPlaying n script
  | judging n ending => cases h; exact below_of_whenJudging n ending
  | requesting => cases h; cases m.interrupted <;> simp [withdrawn, Phase.below_iff, Phase.rank]
  | asking => cases h; unfold whenAsking; split <;> simp [Phase.below_iff, Phase.rank]
  | queued =>
    cases hm : m.interrupted <;> simp [moveOf?, hm] at h
    cases h
    simp [withdrawn, Phase.below_iff, Phase.rank]
  | granted => cases h; cases m.interrupted <;> simp [withdrawn, Phase.below_iff, Phase.rank]
  | beginning n => cases h; unfold whenBeginning; split <;> simp [Phase.below_iff, Phase.rank]
  | ended outcome result => cases h
  | crashed message => cases h
  | _ => cases h; simp [Phase.below_iff, Phase.rank]

/-- The rank of job `i`. -/
def rankOf (p : Plan) (i : Nat) (m : Machine) : Nat × Nat × Nat × Attempt × Nat :=
  match p.jobs[i]?, m.phaseOf? i with
  | some j, some phase => phase.rank j.task
  | _, _ => (0, 0, 0, .finish default, 0)

/-- Every move of a job lowers its rank. -/
theorem rank_lt_of_nextMove? (h : m.nextMove? p i choices = some v) :
    WellFoundedRelation.rel ((m.make p i v).rankOf p i) (m.rankOf p i) := by
  have hv := phaseOf?_make_self h
  unfold nextMove? at h
  split at h
  next j s hj hs =>
    have hs' : m.phaseOf? i = some s.phase := by rw [phaseOf?, hs]; rfl
    simp only [rankOf, hj, hv, hs']
    exact below_of_moveOf? h
  next => cases h

/-- Job `i` goes on as far as it can. It stops when its report is to be kept, which takes its own
time. -/
def poll (p : Plan) (i : Nat) (choices : Choices) (m : Machine) : Machine :=
  match _h : m.nextMove? p i choices with
  | none => m
  | some v =>
    if v.phase.isReporting then m.make p i v else poll p i choices (m.make p i v)
termination_by m.rankOf p i
decreasing_by exact rank_lt_of_nextMove? _h

/-- A job that cannot do anything stays as it is when it is polled. -/
theorem poll_of_none (h : m.nextMove? p i choices = none) : m.poll p i choices = m := by
  rw [poll]
  split
  · rfl
  next hv => rw [h] at hv; cases hv

/-- A poll goes on after a move, unless the job is about to keep its report. -/
theorem poll_of_some (h : m.nextMove? p i choices = some v) :
    m.poll p i choices =
      if v.phase.isReporting then m.make p i v else (m.make p i v).poll p i choices := by
  rw [poll]
  split
  next hv => rw [h] at hv; cases hv
  next v' hv =>
    rw [h] at hv
    cases hv
    rfl

end Machine

end Taskflow
