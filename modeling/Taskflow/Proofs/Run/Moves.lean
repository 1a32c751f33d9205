import Mathlib.Tactic.Common
import Taskflow.Run.Move
set_option autoImplicit false

/-!
# What a move can be

All moves of all phases, each with its guard, and what a move changes. Whoever proves something
about every run goes through this list once and need not look at the definition of a move again.

## Main definitions

* `Machine.Moves` — the moves that are possible in a phase.
* `Deed.told` — the change that a deed emits.
* `Machine.heir?` — who has the slot that a deed gives back.

## Main results

* `Machine.moves_of_nextMove?` — what a job does next is one of the moves of its phase.
* `Machine.phaseOf?_make_of_ne` — a move leaves the phases of other jobs alone, except that one of
  them may be given a slot.
-/

namespace Taskflow

/-! ### Deeds -/

namespace Deed

/-- The change of its own task that a job emits with a deed. -/
def told : Deed → Option TaskChange
  | .tell change _ => some change
  | _ => none

end Deed

namespace Machine

variable {p : Plan} {j : Job} {s : JobState} {t : TaskDefinition} {i k : Nat} {choices : Choices}
  {m : Machine} {v : Move}

/-- The job that has the slot which a deed gives back: the head of the line, if there is one. -/
def heir? (m : Machine) : Deed → Option Nat
  | .giveSlot => m.slots.line.head?
  | _ => none

/-! ### The moves of a phase -/

/-- The moves that job `j`, whose state is `s`, can make from a phase. -/
inductive Moves (p : Plan) (j : Job) (s : JobState) (m : Machine) : Phase → Move → Prop
  | giveUp (unseen arrived : List Nat) (h : m.interrupted = true) :
    Moves p j s m (.waiting unseen arrived) ⟨.look, .settling .interrupted none⟩
  | proceed (h : m.interrupted = false) : Moves p j s m (.waiting [] []) ⟨.look, .requesting⟩
  | hearSuccess (unseen arrived : List Nat) (d : Nat) (h : m.interrupted = false)
    (hd : m.outcomeOf? d = some .succeeded) :
    Moves p j s m (.waiting unseen (d :: arrived)) ⟨.look, .waiting unseen arrived⟩
  | hearFailure (unseen arrived : List Nat) (d : Nat) (h : m.interrupted = false)
    (hd : m.outcomeOf? d = some .failed ∨ m.outcomeOf? d = some .blocked) :
    Moves p j s m (.waiting unseen (d :: arrived)) ⟨.look, .blocking d⟩
  | hearInterrupt (unseen arrived : List Nat) (d : Nat) (h : m.interrupted = false)
    (hd : m.outcomeOf? d = some .interrupted ∨ m.outcomeOf? d = none) :
    Moves p j s m (.waiting unseen (d :: arrived)) ⟨.look, .settling .interrupted none⟩
  | block (d : Nat) :
    Moves p j s m (.blocking d) ⟨.tell (.blocked (p.idAt d j.task)), .settling .blocked none⟩
  | withdraw (h : m.interrupted = true) : Moves p j s m .requesting ⟨.look, withdrawn j.task⟩
  | ask (h : m.interrupted = false) : Moves p j s m .requesting ⟨.look, .asking⟩
  | take (h : 0 < m.slots.free) : Moves p j s m .asking ⟨.takeSlot, .starting⟩
  | join (h : m.slots.free = 0) : Moves p j s m .asking ⟨.joinLine, .queued⟩
  | leave (h : m.interrupted = true) : Moves p j s m .queued ⟨.leaveLine, withdrawn j.task⟩
  | refuse (h : m.interrupted = true) : Moves p j s m .granted ⟨.giveSlot, withdrawn j.task⟩
  | accept (h : m.interrupted = false) : Moves p j s m .granted ⟨.look, .starting⟩
  | start : Moves p j s m .starting ⟨.tell (.started m.timestamp), .beginning 0⟩
  | begin (n : UInt32) (script : Attempt) (h : m.attemptScript p j.task n = .ok script) :
    Moves p j s m (.beginning n) ⟨.forget, .attempting n m.now fun _ => script⟩
  | fail (n : UInt32) (e : TaskError) (h : m.attemptScript p j.task n = .error e) :
    Moves p j s m (.beginning n) ⟨.forget, .judging n (.fail e)⟩
  | resume (n : UInt32) (wake : Nat) (rest : Unit → Attempt) (h : wake ≤ m.now) :
    Moves p j s m (.attempting n wake rest) ⟨.look, .playing n (rest ())⟩
  | cancel (n : UInt32) (wake : Nat) (rest : Unit → Attempt) (h : m.interrupted = true) :
    Moves p j s m (.attempting n wake rest) ⟨.look, .judging n (.fail .interrupted)⟩
  | finish (n : UInt32) (ending : Ending) :
    Moves p j s m (.playing n (.finish ending)) ⟨.look, .judging n ending⟩
  | emit (n : UInt32) (stream : Stream) (line : String) (next : Attempt) :
    Moves p j s m (.playing n (.emit (stream, line) next))
      ⟨.tell (.output stream line), .playing n next⟩
  | doze (n : UInt32) (d : Duration) (next : Unit → Attempt) :
    Moves p j s m (.playing n (.sleep d next)) ⟨.look, .playing n (next ())⟩
  | sleep (n : UInt32) (d : Duration) (next : Unit → Attempt) (wake : Nat)
    (h : wake = m.now + delayMillis d) :
    Moves p j s m (.playing n (.sleep d next)) ⟨.look, .attempting n wake next⟩
  | trigger (n : UInt32) (next : Attempt) :
    Moves p j s m (.playing n (.trigger next)) ⟨.trigger, .playing n next⟩
  | note (n : UInt32) (note : Note) (next : Attempt) :
    Moves p j s m (.playing n (.note note next)) ⟨.jot note, .playing n next⟩
  | files (n : UInt32) (update : FileTree → FileTree) (next : FileTree → Attempt) :
    Moves p j s m (.playing n (.files update next))
      ⟨.store (update m.files), .playing n (next m.files)⟩
  | panic (n : UInt32) (message : String) :
    Moves p j s m (.judging n (.panic message)) ⟨.giveSlot, .crashing message⟩
  | succeed (n : UInt32) (result : Json) :
    Moves p j s m (.judging n (.ok result)) ⟨.look, concluded j.task (n + 1) (.success result)⟩
  | retry (n : UInt32) (e : TaskError) (record : LogRecord) (wake : Nat)
    (he : e.isInterrupted = false) (hn : j.task.effectiveRetryPolicy.shouldRetry n = true)
    (hwake : wake = m.now + delayMillis (j.task.effectiveRetryPolicy.delayFor n.toNat)) :
    Moves p j s m (.judging n (.fail e))
      ⟨.tell (.retrying (n + 1) j.task.effectiveRetryPolicy.maxAttempts m.timestamp) (some record),
        .resting (n + 1) wake⟩
  | exhaust (n : UInt32) (e : TaskError)
    (h : e.isInterrupted = true ∨ j.task.effectiveRetryPolicy.shouldRetry n = false) :
    Moves p j s m (.judging n (.fail e)) ⟨.look, concluded j.task (n + 1) (.ofError e)⟩
  | wake (n : UInt32) (wake : Nat) (h : wake ≤ m.now) :
    Moves p j s m (.resting n wake) ⟨.look, .beginning n⟩
  | stop (n : UInt32) (wake : Nat) (h : m.interrupted = true) :
    Moves p j s m (.resting n wake) ⟨.look, concluded j.task (n + 1) (.ofError .interrupted)⟩
  | keep (attempts : UInt32) (outcome : TaskOutcome) :
    Moves p j s m (.reporting attempts outcome)
      ⟨m.keepReport j s outcome, .completing attempts outcome⟩
  | complete (attempts : UInt32) (outcome : TaskOutcome) :
    Moves p j s m (.completing attempts outcome)
      ⟨.tell (.completed m.timestamp outcome), .releasing attempts outcome⟩
  | release (attempts : UInt32) (outcome : TaskOutcome) :
    Moves p j s m (.releasing attempts outcome)
      ⟨.giveSlot, .settling (.ofTask outcome) (some ⟨j.task.id, outcome, attempts⟩)⟩
  | settle (outcome : NodeOutcome) (result : Option TaskResult) :
    Moves p j s m (.settling outcome result) ⟨.look, .ended outcome result⟩
  | crash (message : String) : Moves p j s m (.crashing message) ⟨.look, .crashed message⟩

/-- What a job does next while it waits. -/
lemma moves_of_whenWaiting {unseen arrived : List Nat}
    (h : m.whenWaiting unseen arrived = some v) : Moves p j s m (.waiting unseen arrived) v := by
  unfold whenWaiting at h
  split at h
  next hm => cases h; exact .giveUp _ _ hm
  next hm =>
    have hm : m.interrupted = false := by simpa using hm
    split at h
    · split at h
      next hu => cases h; cases List.isEmpty_iff.1 hu; exact .proceed hm
      next => cases h
    · split at h
      next hd => cases h; exact .hearSuccess _ _ _ hm hd
      next hd => cases h; exact .hearFailure _ _ _ hm (.inl hd)
      next hd => cases h; exact .hearFailure _ _ _ hm (.inr hd)
      next hd => cases h; exact .hearInterrupt _ _ _ hm (.inl hd)
      next hd => cases h; exact .hearInterrupt _ _ _ hm (.inr hd)

/-- What a job does next while it plays a script. -/
lemma moves_of_whenPlaying (n : UInt32) (script : Attempt) :
    Moves p j s m (.playing n script) (m.whenPlaying n script) := by
  cases script with
  | finish ending => exact .finish n ending
  | emit output next => exact .emit n output.1 output.2 next
  | sleep d next =>
    simp only [whenPlaying]
    split
    · exact .doze n d next
    · exact .sleep n d next _ rfl
  | trigger next => exact .trigger n next
  | note k next => exact .note n k next
  | files update next => exact .files n update next

/-- What a job does next when an attempt is over. -/
lemma moves_of_whenJudging (n : UInt32) (ending : Ending) :
    Moves p j s m (.judging n ending) (m.whenJudging j.task n ending) := by
  cases ending with
  | ok result => exact .succeed n result
  | panic message => exact .panic n message
  | fail e =>
    simp only [whenJudging]
    split
    next h => exact .retry n e _ _ (by simpa using h.1) h.2 rfl
    next h =>
      refine .exhaust n e ?_
      by_cases he : e.isInterrupted = true
      · exact .inl he
      · exact .inr (by simpa [he] using h)

/-- The moves of a job are those of its phase. -/
lemma moves_of_moveOf? (h : m.moveOf? p j s choices = some v) : Moves p j s m s.phase v := by
  have hfalse : ∀ {b : Bool}, ¬ b = true → b = false := by simp
  obtain ⟨phase, startedAt, captured⟩ := s
  cases phase with
  | waiting unseen arrived => exact moves_of_whenWaiting h
  | blocking d => cases h; exact .block d
  | requesting =>
    cases h
    by_cases hm : m.interrupted = true
    · simp only [if_pos hm]; exact .withdraw hm
    · simp only [if_neg hm]; exact .ask (hfalse hm)
  | asking =>
    cases h
    unfold whenAsking
    split
    next hf => exact .take hf
    next hf => exact .join (Nat.eq_zero_of_not_pos hf)
  | queued =>
    simp only [moveOf?] at h
    split at h
    next hm => cases h; exact .leave hm
    next => cases h
  | granted =>
    cases h
    by_cases hm : m.interrupted = true
    · simp only [if_pos hm]; exact .refuse hm
    · simp only [if_neg hm]; exact .accept (hfalse hm)
  | starting => cases h; exact .start
  | beginning n =>
    cases h
    unfold whenBeginning
    split
    next script hs => exact .begin n script hs
    next e hs => exact .fail n e hs
  | attempting n wake rest =>
    simp only [moveOf?, whenAttempting] at h
    split at h
    next hw => cases h; exact .resume n wake rest hw.1
    next =>
      split at h
      next hm => cases h; exact .cancel n wake rest hm
      next => cases h
  | playing n script => cases h; exact moves_of_whenPlaying n script
  | judging n ending => cases h; exact moves_of_whenJudging n ending
  | resting n wake =>
    simp only [moveOf?, whenResting] at h
    split at h
    next hw => cases h; exact .wake n wake hw.1
    next =>
      split at h
      next hm => cases h; exact .stop n wake hm
      next => cases h
  | reporting attempts outcome => cases h; exact .keep attempts outcome
  | completing attempts outcome => cases h; exact .complete attempts outcome
  | releasing attempts outcome => cases h; exact .release attempts outcome
  | settling outcome result => cases h; exact .settle outcome result
  | crashing message => cases h; exact .crash message
  | ended outcome result => cases h
  | crashed message => cases h

/-- A job stands where its state says. -/
lemma phaseOf?_of_state (hs : m.jobs[k]? = some s) : m.phaseOf? k = some s.phase := by
  rw [phaseOf?, hs, Option.map_some]

/-- **What a job does next is one of the moves of its phase.** -/
theorem moves_of_nextMove? (h : m.nextMove? p i choices = some v) :
    ∃ j s, p.jobs[i]? = some j ∧ m.phaseOf? i = some s.phase ∧ Moves p j s m s.phase v := by
  unfold nextMove? at h
  split at h
  next j s hj hs => exact ⟨j, s, hj, phaseOf?_of_state hs, moves_of_moveOf? h⟩
  next => cases h

/-- A report is kept without a word to others and without a slot being taken or given back. -/
lemma keepReport_cases (j : Job) (s : JobState) (outcome : TaskOutcome) (m : Machine) :
    m.keepReport j s outcome = .look ∨ (∃ files, m.keepReport j s outcome = .store files) ∨
      ∃ files record, m.keepReport j s outcome = .storePart files record := by
  unfold keepReport
  split
  · exact .inl rfl
  · split
    · exact .inr (.inl ⟨_, rfl⟩)
    · exact .inr (.inr ⟨_, _, rfl⟩)

/-- Keeping a report tells nothing. -/
@[simp] lemma told_keepReport (j : Job) (s : JobState) (outcome : TaskOutcome) (m : Machine) :
    (m.keepReport j s outcome).told = none := by
  rcases keepReport_cases j s outcome m with h | ⟨files, h⟩ | ⟨files, record, h⟩ <;> rw [h] <;> rfl

/-- No move registers a task. -/
lemma Moves.told_ne_registered {phase : Phase} (h : Moves p j s m phase v) {c : TaskChange}
    (hc : v.deed.told = some c) (name : String) : c ≠ .registered name := by
  rintro rfl
  cases h with
  | keep => rw [told_keepReport] at hc; cases hc
  | _ => cases hc

/-! ### What a deed changes -/

variable {d : Deed}

/-- A slot that is given back is free, or goes to the first in the line. -/
lemma releaseSlot_slots : m.releaseSlot.slots = m.slots.release.1 := by
  unfold releaseSlot
  split <;> rfl

/-- A slot that is given back goes to the first in the line. -/
lemma heir?_giveSlot : m.heir? .giveSlot = m.slots.release.2 := by
  simp only [heir?, Slots.release]
  cases m.slots.line <;> rfl

/-- What a deed tells is emitted at that time. -/
lemma perform_emissions : (m.perform t i d).emissions =
    (d.told.map fun c => (⟨m.now, i, t.id, c⟩ : Emission)).toList ++ m.emissions := by
  cases d with
  | giveSlot => simp only [perform, releaseSlot]; split <;> rfl
  | tell change record => cases record <;> rfl
  | _ => rfl

/-- What a deed tells is sent to the coordinator. -/
lemma perform_coordinator : (m.perform t i d).coordinator =
    match d.told with
    | some c => m.coordinator.send ⟨t.id, c⟩
    | none => m.coordinator := by
  cases d with
  | giveSlot => simp only [perform, releaseSlot]; split <;> rfl
  | tell change record => cases record <;> rfl
  | _ => rfl

/-- No deed moves the clock. -/
lemma perform_now : (m.perform t i d).now = m.now := by
  cases d with
  | giveSlot => simp only [perform, releaseSlot]; split <;> rfl
  | tell change record => cases record <;> rfl
  | _ => rfl

/-- A deed interrupts the run only if it is meant to. -/
lemma perform_interrupted : (m.perform t i d).interrupted =
    match d with
    | .trigger => true
    | _ => m.interrupted := by
  cases d with
  | giveSlot => simp only [perform, releaseSlot]; split <;> rfl
  | tell change record => cases record <;> rfl
  | _ => rfl

/-- What a deed does to the slots. -/
lemma perform_slots : (m.perform t i d).slots =
    match d with
    | .takeSlot => m.slots.take
    | .joinLine => m.slots.join i
    | .leaveLine => m.slots.leave i
    | .giveSlot => m.slots.release.1
    | _ => m.slots := by
  cases d with
  | giveSlot => exact releaseSlot_slots
  | tell change record => cases record <;> rfl
  | _ => rfl

/-- A deed leaves a note only if it is meant to. -/
lemma perform_journal : (m.perform t i d).journal =
    match d with
    | .jot note => ⟨m.now, i, t.id, note⟩ :: m.journal
    | _ => m.journal := by
  cases d with
  | giveSlot => simp only [perform, releaseSlot]; split <;> rfl
  | tell change record => cases record <;> rfl
  | _ => rfl

/-- A deed moves another job only by handing a slot to it. -/
lemma phaseOf?_perform : (m.perform t i d).phaseOf? k =
    if m.heir? d = some k then (m.phaseOf? k).map fun _ => .granted else m.phaseOf? k := by
  cases d with
  | giveSlot => rw [perform, phaseOf?_releaseSlot, heir?_giveSlot]
  | tell change record =>
    have hm : ∀ m' : Machine, ((m'.emit i ⟨t.id, change⟩).modifyJob i fun s =>
        remember t m'.now s change).phaseOf? k = m'.phaseOf? k := by
      intro m'
      rw [phaseOf?_modifyJob]
      split
      · simp only [remember_phase]; rfl
      · rfl
    cases record <;> exact hm _
  | forget =>
    simp only [perform, phaseOf?_modifyJob, heir?, reduceCtorEq, if_false]
    split <;> rfl
  | _ => rfl

/-! ### What a move changes -/

section Make

variable (hj : p.jobs[i]? = some j)
include hj

/-- A move emits what its deed tells. -/
lemma make_emissions : (m.make p i v).emissions =
    (v.deed.told.map fun c => (⟨m.now, i, j.task.id, c⟩ : Emission)).toList ++ m.emissions := by
  simp only [make, hj]; exact perform_emissions

/-- A move sends what its deed tells. -/
lemma make_coordinator : (m.make p i v).coordinator =
    match v.deed.told with
    | some c => m.coordinator.send ⟨j.task.id, c⟩
    | none => m.coordinator := by
  simp only [make, hj]; exact perform_coordinator

/-- No move moves the clock. -/
lemma make_now : (m.make p i v).now = m.now := by
  simp only [make, hj]; exact perform_now

/-- A move interrupts the run only if its deed is meant to. -/
lemma make_interrupted : (m.make p i v).interrupted =
    match v.deed with
    | .trigger => true
    | _ => m.interrupted := by
  simp only [make, hj]; exact perform_interrupted

/-- A move does to the slots what its deed does. -/
lemma make_slots : (m.make p i v).slots =
    match v.deed with
    | .takeSlot => m.slots.take
    | .joinLine => m.slots.join i
    | .leaveLine => m.slots.leave i
    | .giveSlot => m.slots.release.1
    | _ => m.slots := by
  simp only [make, hj]; exact perform_slots

/-- A move leaves a note only if its deed does. -/
lemma make_journal : (m.make p i v).journal =
    match v.deed with
    | .jot note => ⟨m.now, i, j.task.id, note⟩ :: m.journal
    | _ => m.journal := by
  simp only [make, hj]; exact perform_journal

/-- **A move leaves the phases of other jobs alone**, except that one of them may be given a slot
while it stands in the line. -/
theorem phaseOf?_make_of_ne (hk : i ≠ k) : (m.make p i v).phaseOf? k =
    if m.heir? v.deed = some k then (m.phaseOf? k).map fun _ => .granted else m.phaseOf? k := by
  simp only [make, hj, phaseOf?_setPhase, if_neg hk]
  exact phaseOf?_perform

end Make

end Machine

end Taskflow
