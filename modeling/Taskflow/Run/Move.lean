import Taskflow.Run.Machine
set_option autoImplicit false

/-!
# Moves of jobs

What a job does next. A move is one deed and the phase that follows it; a deed touches one thing
that others could notice, so that whatever happens between two moves of a job, other jobs can come
in between. Where a job finds both its work to go on and the run interrupted, a choice that is given
with the move decides.

## Main definitions

* `Deed`, `Move` — what a job can do.
* `Choices` — which of two things that are ready at once is looked at first.
* `Machine.nextMove?` — what a job does next, if it can do anything.
* `Machine.make`, `Machine.move` — the move is made.
-/

namespace Taskflow

/-- What a job does in one move, apart from going on to its next phase. -/
inductive Deed where
  /-- nothing that others could notice -/
  | look
  /-- it emits a change of its task, and may write a record to its log before -/
  | tell (change : TaskChange) (record : Option LogRecord := none)
  /-- it takes a free slot -/
  | takeSlot
  /-- it joins the line -/
  | joinLine
  /-- it leaves the line -/
  | leaveLine
  /-- it gives its slot back -/
  | giveSlot
  /-- it forgets the lines of its latest attempt -/
  | forget
  /-- it asks for the run to be interrupted -/
  | trigger
  /-- it leaves a note in the journal -/
  | jot (note : Note)
  /-- it changes the files -/
  | store (files : FileTree)
  /-- it changes the files, and writes a record to its log that this did not go to its end -/
  | storePart (files : FileTree) (record : LogRecord)

/-- A deed, and the phase that follows it. -/
structure Move where
  deed : Deed
  phase : Phase

/-- Which branch of a choice between work and interrupt is looked at first. -/
inductive Preference where
  | work
  | interrupt
  deriving Repr, DecidableEq, Inhabited

/-- The preferences of a poll: for every attempt, one during the attempt and one during the rest
before it. -/
structure Choices where
  attempt : UInt32 → Preference := fun _ => .work
  rest : UInt32 → Preference := fun _ => .work
  deriving Inhabited

namespace Machine

/-! ## Before the start -/

/-- The phase of a job that ends without having had a slot. -/
def withdrawn (t : TaskDefinition) : Phase := .settling .interrupted (some (.notStarted t.id))

/-- A job that waits looks at the interrupt first, and then at those it has heard from, until one
of them did not succeed; when all have, it asks for a slot. -/
def whenWaiting (unseen arrived : List Nat) (m : Machine) : Option Move :=
  if m.interrupted then some ⟨.look, .settling .interrupted none⟩
  else
    match arrived with
    | [] => if unseen.isEmpty then some ⟨.look, .requesting⟩ else none
    | d :: arrived =>
      match m.outcomeOf? d with
      | some .succeeded => some ⟨.look, .waiting unseen arrived⟩
      | some .failed | some .blocked => some ⟨.look, .blocking d⟩
      | some .interrupted | none => some ⟨.look, .settling .interrupted none⟩

/-- A job that asks has a slot at once if one is free. -/
def whenAsking (m : Machine) : Move :=
  if 0 < m.slots.free then ⟨.takeSlot, .starting⟩ else ⟨.joinLine, .queued⟩

/-! ## Attempts -/

/-- The delay of a wait that lies beyond the range of the clock: thirty years. -/
def farFuture : Nat := 86400 * 365 * 30 * 1000

/-- The greatest number of seconds that the clock can add. -/
def maxDelaySeconds : Nat := 9223372036854775807

/-- How many milliseconds a wait takes: parts of a millisecond count as a whole one. -/
def delayMillis (d : Duration) : Nat :=
  if maxDelaySeconds ≤ d.nanos / 1000000000 then farFuture else (d.nanos + 999999) / 1000000

/-- How an attempt ends when a command ends with an exit code. As a `Launcher` gives every process
an end, no attempt ends because its end could not be learned. -/
def endingOfExit (spec : CommandSpec) (code : Int) : Ending :=
  if code = 0 then .ok .null else .fail (.commandFailed (spec.failure code))

/-- The script of attempt `n`, or why its command cannot be started. -/
def attemptScript (p : Plan) (t : TaskDefinition) (n : UInt32) (m : Machine) :
    Except TaskError Attempt :=
  match t.work with
  | .computation behaviour => .ok (behaviour n.toNat)
  | .command spec =>
    match p.launch spec m.files with
    | .ok script => .ok (script.map (endingOfExit spec))
    | .error reason => .error (.notSpawned spec.program reason)

/-- An attempt begins: there is a script to go on with, or the attempt is over at once. -/
def whenBeginning (p : Plan) (t : TaskDefinition) (n : UInt32) (m : Machine) : Move :=
  match m.attemptScript p t n with
  | .ok script => ⟨.forget, .attempting n m.now fun _ => script⟩
  | .error e => ⟨.forget, .judging n (.fail e)⟩

/-- An attempt that sleeps goes on when its time has come, and is over when the run is
interrupted. That the process of a command is killed takes no time here, and what it had put out is
in the queue by then; how long it takes, and what becomes of lines that are on their way, is told by
runs with pipes (`Piped`). -/
def whenAttempting (n : UInt32) (preference : Preference) (wake : Nat) (rest : Unit → Attempt)
    (m : Machine) : Option Move :=
  if wake ≤ m.now ∧ ¬ (preference = .interrupt ∧ m.interrupted) then
    some ⟨.look, .playing n (rest ())⟩
  else if m.interrupted then some ⟨.look, .judging n (.fail .interrupted)⟩
  else none

/-- One step of a script. A sleep that takes no time is none. -/
def whenPlaying (n : UInt32) (m : Machine) : Attempt → Move
  | .finish ending => ⟨.look, .judging n ending⟩
  | .emit (stream, line) next => ⟨.tell (.output stream line), .playing n next⟩
  | .sleep d next =>
    if delayMillis d = 0 then ⟨.look, .playing n (next ())⟩
    else ⟨.look, .attempting n (m.now + delayMillis d) next⟩
  | .trigger next => ⟨.trigger, .playing n next⟩
  | .note k next => ⟨.jot k, .playing n next⟩
  | .files update next => ⟨.store (update m.files), .playing n (next m.files)⟩

/-- What is logged before a rest. -/
def retryRecord (t : TaskDefinition) (policy : RetryPolicy) (n : UInt32) (e : TaskError) :
    LogRecord :=
  .ofTask .warn t.id "attempt failed, retrying"
    [("attempt", .int (n + 1).toNat), ("max_attempts", .int policy.maxAttempts.toNat),
      ("delay_ms", .int ((policy.delayFor n.toNat).millis % (RetryPolicy.maxLongWord + 1) : Nat)),
      ("error", .str e.message)]

/-- The phase of a job whose attempts are over: a task with a log file keeps a report first. -/
def concluded (t : TaskDefinition) (attempts : UInt32) (outcome : TaskOutcome) : Phase :=
  if t.logFile.isSome then .reporting attempts outcome else .completing attempts outcome

/-- What follows attempt `n` once it has come to an ending: an attempt that failed is followed by
another if there may be one and the run was not interrupted. -/
def whenJudging (t : TaskDefinition) (n : UInt32) (m : Machine) : Ending → Move
  | .panic message => ⟨.giveSlot, .crashing message⟩
  | .ok result => ⟨.look, concluded t (n + 1) (.success result)⟩
  | .fail e =>
    let policy := t.effectiveRetryPolicy
    if ¬ e.isInterrupted ∧ policy.shouldRetry n then
      ⟨.tell (.retrying (n + 1) policy.maxAttempts m.timestamp) (some (retryRecord t policy n e)),
        .resting (n + 1) (m.now + delayMillis (policy.delayFor n.toNat))⟩
    else ⟨.look, concluded t (n + 1) (.ofError e)⟩

/-- A rest is over when its time has come or the run is interrupted. -/
def whenResting (t : TaskDefinition) (n : UInt32) (preference : Preference) (wake : Nat)
    (m : Machine) : Option Move :=
  if wake ≤ m.now ∧ ¬ (preference = .interrupt ∧ m.interrupted) then some ⟨.look, .beginning n⟩
  else if m.interrupted then some ⟨.look, concluded t (n + 1) (.ofError .interrupted)⟩
  else none

/-! ## After the attempts -/

/-- The report of job `j`, whose state is `s`. -/
def reportOf (j : Job) (s : JobState) (outcome : TaskOutcome) (m : Machine) : Report :=
  ⟨j.task.id, outcome, m.now - s.startedAt, .ofMillis s.startedAt, j.run, s.captured⟩

/-- Keeps the report of a job; that it could not be kept is logged. -/
def keepReport (j : Job) (s : JobState) (outcome : TaskOutcome) (m : Machine) : Deed :=
  match j.task.logFile with
  | none => .look
  | some path =>
    match m.files.trySave FileTree.workingDir path (m.reportOf j s outcome).text with
    | (files, .ok ()) => .store files
    | (files, .error e) =>
      .storePart files (.ofTask .warn j.task.id "failed to write log file"
        [("path", .str path), ("error", .str e.message)])

/-! ## All moves -/

/-- What a job does next, if it can do anything. -/
def moveOf? (p : Plan) (j : Job) (s : JobState) (choices : Choices) (m : Machine) : Option Move :=
  let t := j.task
  match s.phase with
  | .waiting unseen arrived => m.whenWaiting unseen arrived
  | .blocking d => some ⟨.tell (.blocked (p.idAt d t)), .settling .blocked none⟩
  | .requesting => some ⟨.look, if m.interrupted then withdrawn t else .asking⟩
  | .asking => some m.whenAsking
  | .queued => if m.interrupted then some ⟨.leaveLine, withdrawn t⟩ else none
  | .granted =>
    some (if m.interrupted then ⟨.giveSlot, withdrawn t⟩ else ⟨.look, .starting⟩)
  | .starting => some ⟨.tell (.started m.timestamp), .beginning 0⟩
  | .beginning n => some (m.whenBeginning p t n)
  | .attempting n wake rest => m.whenAttempting n (choices.attempt n) wake rest
  | .playing n script => some (m.whenPlaying n script)
  | .judging n ending => some (m.whenJudging t n ending)
  | .resting n wake => m.whenResting t n (choices.rest n) wake
  | .reporting attempts outcome => some ⟨m.keepReport j s outcome, .completing attempts outcome⟩
  | .completing attempts outcome =>
    some ⟨.tell (.completed m.timestamp outcome), .releasing attempts outcome⟩
  | .releasing attempts outcome =>
    some ⟨.giveSlot, .settling (.ofTask outcome) (some ⟨t.id, outcome, attempts⟩)⟩
  | .settling outcome result => some ⟨.look, .ended outcome result⟩
  | .crashing message => some ⟨.look, .crashed message⟩
  | .ended .. | .crashed _ => none

/-- What job `i` does next, if there is such a job and it can do anything. -/
def nextMove? (p : Plan) (i : Nat) (choices : Choices) (m : Machine) : Option Move :=
  match p.jobs[i]?, m.jobs[i]? with
  | some j, some s => m.moveOf? p j s choices
  | _, _ => none

/-- What a change that is emitted leaves with the job itself: the time of its start, and, if the
task has a log file, a copy of its lines. -/
def remember (t : TaskDefinition) (now : Nat) (s : JobState) : TaskChange → JobState
  | .started _ => { s with startedAt := now }
  | .output stream line =>
    if t.logFile.isSome then { s with captured := s.captured.push stream line } else s
  | _ => s

/-- Job `i`, whose task is `t`, does a deed. -/
def perform (t : TaskDefinition) (i : Nat) (m : Machine) : Deed → Machine
  | .look => m
  | .tell change record =>
    let m := match record with
      | some r => m.log i r
      | none => m
    (m.emit i ⟨t.id, change⟩).modifyJob i fun s => remember t m.now s change
  | .takeSlot => { m with slots := m.slots.take }
  | .joinLine => { m with slots := m.slots.join i }
  | .leaveLine => { m with slots := m.slots.leave i }
  | .giveSlot => m.releaseSlot
  | .forget => m.modifyJob i fun s => { s with captured := {} }
  | .trigger => { m with interrupted := true }
  | .jot note => m.jot t i note
  | .store files => { m with files }
  | .storePart files record => { m.log i record with files }

/-- Job `i` makes a move. -/
def make (p : Plan) (i : Nat) (v : Move) (m : Machine) : Machine :=
  match p.jobs[i]? with
  | some j => (m.perform j.task i v.deed).setPhase i v.phase
  | none => m

/-- Job `i` makes its next move, if it can do anything. -/
def move (p : Plan) (i : Nat) (choices : Choices) (m : Machine) : Machine :=
  match m.nextMove? p i choices with
  | some v => m.make p i v
  | none => m

/-! ## What a move does to the phases -/

variable {p : Plan} {t : TaskDefinition} {i : Nat} {choices : Choices} {m : Machine}

/-- What a job remembers of what it tells does not move it. -/
theorem remember_phase (now : Nat) (s : JobState) (change : TaskChange) :
    (remember t now s change).phase = s.phase := by
  cases change <;> simp only [remember]
  split <;> rfl

/-- No deed adds a job or takes one away. -/
theorem isSome_phaseOf?_perform (d : Deed) (k : Nat) :
    ((m.perform t i d).phaseOf? k).isSome = (m.phaseOf? k).isSome := by
  cases d with
  | giveSlot => rw [perform, phaseOf?_releaseSlot]; split <;> simp
  | forget => simp only [perform, phaseOf?_modifyJob]; split <;> simp [phaseOf?]
  | tell change record =>
    simp only [perform, phaseOf?_modifyJob]
    cases record <;> split <;> simp [phaseOf?, emit, log]
  | _ => rfl

/-- After a move a job stands in the phase of the move. -/
theorem phaseOf?_make_self {v : Move} (hv : m.nextMove? p i choices = some v) :
    (m.make p i v).phaseOf? i = some v.phase := by
  unfold nextMove? at hv
  split at hv
  next j s hj hs =>
    have h : ((m.perform j.task i v.deed).phaseOf? i).isSome := by
      rw [isSome_phaseOf?_perform, phaseOf?, hs]
      rfl
    obtain ⟨phase, h⟩ := Option.isSome_iff_exists.1 h
    simp [make, hj, phaseOf?_setPhase, h]
  next => cases hv

end Machine

end Taskflow
