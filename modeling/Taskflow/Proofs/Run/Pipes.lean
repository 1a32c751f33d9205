import Taskflow.Proofs.Run.LastAttempt
import Taskflow.Proofs.Run.Memory
import Taskflow.Run.Pipes
set_option autoImplicit false

/-!
# Steps of runs with pipes

A run with pipes takes the steps of a machine, and those in which lines are on their way: a command
writes, its readers capture and emit, a process is killed, a reader stops. This file says what each
step is for a single job, and which jobs can have lines that are still on their way.

## Main definitions

* `Pipe.pending` — the lines on their way to the queue.
* `Piped.Step`, `Piped.Trail` — one small step, and the way from the start of a run.
* `Piped.Does` — what a step is for one job.
* `Phase.Unread` — where a command can stand while lines are on their way.

## Main results

* `Piped.exists_trail_run` — whatever actions are carried out, a trail leads there.
* `Piped.Step.does` — every step is one of the things that a job and its readers can do.
* `Piped.Trail.induct` — what all of these preserve holds on every trail.
* `Piped.Trail.unread` — lines are on their way only while a command is at work, or after its work
  was cut short by an interrupt.
* `Piped.reached_of_machine` — a run without pipes is a run with pipes.
-/

namespace Taskflow

open Relation

/-! ### Pipes -/

/-- The lines on their way to the queue: what a reader has captured, and what lies in its pipe. -/
def Pipe.pending (x : Pipe) : List String := x.held.toList ++ x.lines

namespace Pipes

variable (q : Pipes) (stream other : Stream) (x : Pipe)

/-- A pipe is what it was changed to, and the other one stays. -/
lemma get_set : (q.set stream x).get other = if stream = other then x else q.get other := by
  cases stream <;> cases other <;> rfl

/-- A pipe is what it was changed to. -/
@[simp] lemma get_set_self : (q.set stream x).get stream = x := by
  rw [get_set, if_pos rfl]

/-- What a reader has in hand stays, if a pipe is changed to one with the same line in hand. -/
lemma held_get_set {x : Pipe} (hx : x.held = (q.get stream).held) :
    ((q.set stream x).get other).held = (q.get other).held := by
  rw [get_set]
  split
  next heq => rw [hx, heq]
  next => rfl

/-- Both readers have come to the end of their pipes if nothing is left in any of them. -/
lemma isDrained_iff {q : Pipes} : q.isDrained = true ↔ ∀ stream, q.get stream = {} := by
  rw [isDrained, decide_eq_true_eq]
  refine ⟨fun h stream => by rw [h]; cases stream <;> rfl, fun h => ?_⟩
  obtain ⟨stdout, stderr⟩ := q
  exact congrArg₂ Pipes.mk (h .stdout) (h .stderr)

/-- A reader that has something left has not come to the end. -/
lemma not_isDrained {q : Pipes} (h : q.get stream ≠ {}) : q.isDrained = false := by
  rw [← Bool.not_eq_true, isDrained_iff]
  exact fun hall => h (hall stream)

/-- Where both readers are at the end, they have captured nothing that is not emitted. -/
lemma held_of_isDrained {q : Pipes} (h : q.isDrained = true) : (q.get stream).held = none := by
  rw [isDrained_iff.1 h stream]

/-- A reader that stops at the end stays there. -/
lemma isDrained_stop {q : Pipes} (h : q.isDrained = true) :
    (q.set stream ⟨[], (q.get stream).held⟩).isDrained = true := by
  refine isDrained_iff.2 fun other => ?_
  rw [get_set, isDrained_iff.1 h stream, isDrained_iff.1 h other]
  split <;> rfl

end Pipes

namespace Machine

variable {m : Machine} {t : TaskDefinition} {e : TaskEvent} {i k total : Nat} {stream : Stream}
  {line : String}

/-! ### Small changes of a machine -/

/-- An event is told by the job that emits it. -/
lemma toldBy_emit (m : Machine) (e : TaskEvent) (i k : Nat) :
    (m.emit i e).toldBy k = m.toldBy k ++ if i = k then [e.change] else [] := by
  rw [toldBy, emit, toldBy]
  by_cases hk : i = k <;> simp [hk]

/-- A line that is captured leaves every job where it stands. -/
@[simp] lemma phaseOf?_capture (k : Nat) :
    (m.capture t i stream line).phaseOf? k = m.phaseOf? k := by
  rw [capture, phaseOf?_modifyJob]
  split
  · simp only [remember_phase]
    rfl
  · rfl

/-- Whether a job holds a slot or waits for one does not depend on how far its work is. -/
lemma Balanced.setPhase_playing (hb : Balanced total m) {n : UInt32}
    (hn : m.working? i = some n) (script : Attempt) :
    Balanced total (m.setPhase i (.playing n script)) := by
  refine hb.congr rfl fun k => ?_
  rw [claimOf, phaseOf?_setPhase, claimOf]
  by_cases hk : i = k
  · subst hk
    obtain ⟨a, ha, hwork⟩ := Option.bind_eq_some_iff.1 hn
    rw [if_pos rfl, ha]
    cases a with
    | attempting | playing => rfl
    | _ => cases hwork
  · rw [if_neg hk]

end Machine

/-! ### Small steps -/

namespace Piped

variable {p : Plan} {j : Job} {s s' : JobState} {i k total : Nat} {c c' : Piped}
  {cs : List Piped} {told : Option TaskChange} {q q' : Pipes} {m : Machine} {v : Move}
  {a : Phase} {stream : Stream} {line : String} {interval limit : Nat} {world : Machine}

/-- Job `i` is free to make its next move by itself: it has no line to write into a pipe, and no
reader to wait for. -/
def Free (p : Plan) (i : Nat) (c : Piped) : Prop :=
  isCommand p i = true →
    (∀ n output next, c.machine.phaseOf? i ≠ some (.playing n (.emit output next))) ∧
    ∀ n ending, c.machine.phaseOf? i = some (.playing n (.finish ending)) →
      ending = .fail .interrupted ∧ c.machine.interrupted = true ∨ (c.pipes i).isDrained = true

/-- One small step. -/
inductive Step (p : Plan) : Piped → Piped → Prop
  | move {c : Piped} {i : Nat} {choices : Choices} {v : Move} (hfree : c.Free p i)
    (hv : c.machine.nextMove? p i choices = some v) :
    Step p c { c with machine := c.machine.make p i v }
  | arrive {c : Piped} {i d : Nat} {unseen arrived : List Nat} {outcome : NodeOutcome}
    (hi : c.machine.phaseOf? i = some (.waiting unseen arrived))
    (hd : c.machine.outcomeOf? d = some outcome) (hmem : d ∈ unseen) :
    Step p c { c with
      machine := c.machine.setPhase i (.waiting (unseen.erase d) (arrived ++ [d])) }
  | ambient {c : Piped} {coordinator : Coordinator} (now : Nat) (interrupted : Bool)
    (hc : c.machine.Serves coordinator)
    (hm : c.machine.interrupted = true → interrupted = true) :
    Step p c { c with machine := { c.machine with now, interrupted, coordinator } }
  | write {c : Piped} {i : Nat} {n : UInt32} {stream : Stream} {line : String} {next : Attempt}
    (hcommand : isCommand p i = true)
    (hi : c.machine.phaseOf? i = some (.playing n (.emit (stream, line) next))) :
    Step p c (c.update (c.machine.setPhase i (.playing n next)) i ((c.pipes i).write stream line))
  | kill {c : Piped} {i : Nat} {n : UInt32} (left : List (Stream × String))
    (hcommand : isCommand p i = true) (hm : c.machine.interrupted = true)
    (hi : c.machine.working? i = some n) :
    Step p c { c with machine := c.machine.setPhase i (.playing n (killed left)) }
  | capture {c : Piped} {i : Nat} {j : Job} {stream : Stream} {line : String} {rest : List String}
    (hj : p.jobs[i]? = some j) (hq : (c.pipes i).get stream = ⟨line :: rest, none⟩) :
    Step p c (c.update (c.machine.capture j.task i stream line) i
      ((c.pipes i).set stream ⟨rest, some line⟩))
  | emit {c : Piped} {i : Nat} {j : Job} {stream : Stream} {line : String} {rest : List String}
    (hj : p.jobs[i]? = some j) (hq : (c.pipes i).get stream = ⟨rest, some line⟩) :
    Step p c (c.update (c.machine.emit i ⟨j.task.id, .output stream line⟩) i
      ((c.pipes i).set stream ⟨rest, none⟩))
  | stop {c : Piped} {i : Nat} {stream : Stream} (hi : c.machine.working? i = none) :
    Step p c (c.update c.machine i ((c.pipes i).set stream ⟨[], ((c.pipes i).get stream).held⟩))

/-- The ways that small steps come from the start of a run, latest first. -/
inductive Trail (p : Plan) (interval : Nat) (world : Machine) : List Piped → Prop
  | start : Trail p interval world [start p interval world]
  | step {c c' : Piped} {cs : List Piped} (h : Trail p interval world (c :: cs))
    (hs : Step p c c') : Trail p interval world (c' :: c :: cs)

/-! ### Actions as small steps -/

/-- A move is a small step, if it is one at all. -/
lemma steps_move (i : Nat) (choices : Choices) (c : Piped) :
    ReflTransGen (Step p) c (c.move p i choices) := by
  have hmoved : c.Free p i →
      ReflTransGen (Step p) c { c with machine := c.machine.move p i choices } := by
    intro hfree
    unfold Machine.move
    split
    next v hv => exact .single (.move hfree hv)
    next => exact .refl
  unfold move
  by_cases hcommand : isCommand p i = true
  · rw [if_pos hcommand]
    split
    next n stream line next hphase => exact .single (.write hcommand hphase)
    next n ending hphase =>
      split
      next h =>
        refine hmoved fun _ => ⟨fun n output next hother => ?_, fun n e hsame => ?_⟩
        · rw [hphase] at hother
          cases hother
        · rw [hphase] at hsame
          cases hsame
          exact h
      next => exact .refl
    next hemit hfinish =>
      exact hmoved fun _ => ⟨fun n output next h => hemit n output.1 output.2 next h,
        fun n ending h => absurd h (hfinish n ending)⟩
  · rw [if_neg hcommand]
    exact hmoved fun h => absurd h hcommand

/-- The queue is closed in a small step. -/
lemma steps_closeIfOver (c : Piped) : ReflTransGen (Step p) c c.closeIfOver := by
  unfold closeIfOver
  split
  · unfold Machine.closeIfEnded
    split
    next h => exact .single (.ambient c.machine.now c.machine.interrupted (.close h) id)
    next => exact .refl
  · exact .refl

/-- A reader that goes on makes a small step, if it can. -/
lemma steps_read (i : Nat) (stream : Stream) (c : Piped) :
    ReflTransGen (Step p) c (c.read p i stream) := by
  unfold read
  split
  next => exact .refl
  next j hj =>
    split
    next rest line hq => exact .single (.emit hj hq)
    next line rest hq => exact .single (.capture hj hq)
    next => exact .refl

/-- An action is carried out in small steps. -/
lemma steps_step (x : Action) (c : Piped) : ReflTransGen (Step p) c (c.step p x) := by
  cases x with
  | move i choices => exact (steps_move i choices c).trans (steps_closeIfOver _)
  | kill i left =>
    simp only [step, kill]
    split
    next n hn =>
      split
      next h => exact .single (.kill left h.1 h.2 hn)
      next => exact .refl
    next => exact .refl
  | read i stream => exact (steps_read i stream c).trans (steps_closeIfOver _)
  | stop i stream =>
    refine .trans ?_ (steps_closeIfOver _)
    unfold stop
    split
    next h => exact .single (.stop (Option.isNone_iff_eq_none.1 h))
    next => exact .refl
  | arrive i d =>
    simp only [step, Machine.step, Machine.arrive]
    split
    next unseen arrived outcome hi hd =>
      split
      next hmem => exact .single (.arrive hi hd hmem)
      next => exact .refl
    next => exact .refl
  | trigger => exact .single (.ambient c.machine.now true .rest fun _ => rfl)
  | advance time =>
    exact .single (.ambient (max c.machine.now time) c.machine.interrupted .rest id)
  | receive =>
    exact .single (.ambient c.machine.now c.machine.interrupted (.receive c.machine.now) id)
  | tick => exact .single (.ambient c.machine.now c.machine.interrupted (.tick c.machine.now) id)

/-- Small steps prolong a trail. -/
lemma Trail.exists_of_steps (h : Trail p interval world (c :: cs))
    (hsteps : ReflTransGen (Step p) c c') :
    ∃ more, Trail p interval world (c' :: more) ∧ (c :: cs) <:+ (c' :: more) := by
  induction hsteps with
  | refl => exact ⟨cs, h, List.suffix_refl _⟩
  | tail _ hs ih =>
    obtain ⟨more, hmore, hsuffix⟩ := ih
    exact ⟨_, hmore.step hs, hsuffix.trans (List.suffix_cons _ _)⟩

/-- **Whatever actions are carried out, a trail leads there.** -/
theorem exists_trail_run (actions : List Action) :
    ∃ cs, Trail p interval world ((start p interval world).run p actions :: cs) := by
  suffices hsteps : ∀ c, ReflTransGen (Step p) c (c.run p actions) by
    obtain ⟨cs, hcs, -⟩ := Trail.start.exists_of_steps (hsteps (start p interval world))
    exact ⟨cs, hcs⟩
  induction actions with
  | nil => exact fun c => .refl
  | cons x rest ih => exact fun c => (steps_step x c).trans (ih _)

/-! ### What a step is for one job -/

/-- How a job of a command makes its moves by itself: it puts out no line, and its attempt is judged
once its readers are at the end, or after it was cut short by an interrupt. -/
structure Waits (t : TaskDefinition) (m : Machine) (a : Phase) (q : Pipes) (v : Move) : Prop where
  silent : t.isCommand = true → ∀ stream line, v.deed.told ≠ some (.output stream line)
  judged : t.isCommand = true → a.working?.isSome = true → v.phase.working?.isSome = true ∨
    q.isDrained = true ∨ m.interrupted = true ∧ ∃ n, v.phase = .judging n (.fail .interrupted)

/-- What a step is for job `j`, whose state is `s` and whose pipes are `q`, with the change that it
emits: the job makes a move, its command writes or is killed, or one of its readers captures, emits
or stops. -/
inductive Does (p : Plan) (j : Job) (m : Machine) (s : JobState) (q : Pipes) :
    JobState → Pipes → Option TaskChange → Prop
  | act {v : Move} (hact : Machine.Act p j m s.phase v) (hwaits : Waits j.task m s.phase q v) :
    Does p j m s q { v.deed.impress j.task m.now s with phase := v.phase } q v.deed.told
  | write {n : UInt32} {stream : Stream} {line : String} {next : Attempt}
    (hcommand : j.task.isCommand = true) (hs : s.phase = .playing n (.emit (stream, line) next)) :
    Does p j m s q { s with phase := .playing n next } (q.write stream line) none
  | kill {n : UInt32} (left : List (Stream × String)) (hcommand : j.task.isCommand = true)
    (hm : m.interrupted = true) (hs : s.phase.working? = some n) :
    Does p j m s q { s with phase := .playing n (killed left) } q none
  | capture {stream : Stream} {line : String} {rest : List String}
    (hq : q.get stream = ⟨line :: rest, none⟩) :
    Does p j m s q (Machine.remember j.task m.now s (.output stream line))
      (q.set stream ⟨rest, some line⟩) none
  | emit {stream : Stream} {line : String} {rest : List String}
    (hq : q.get stream = ⟨rest, some line⟩) :
    Does p j m s q s (q.set stream ⟨rest, none⟩) (some (.output stream line))
  | stop {stream : Stream} (hs : s.phase.working? = none) :
    Does p j m s q s (q.set stream ⟨[], (q.get stream).held⟩) none

/-- In a step from `c` to `c'`, job `k` goes from state `s` to state `s'` and emits a change, or
none. -/
structure Doing (p : Plan) (k : Nat) (j : Job) (c c' : Piped) (s s' : JobState)
    (told : Option TaskChange) : Prop where
  does : Does p j c.machine s (c.pipes k) s' (c'.pipes k) told
  before_eq : c.machine.jobs[k]? = some s
  after_eq : c'.machine.jobs[k]? = some s'
  told_eq : c'.machine.toldBy k = c.machine.toldBy k ++ told.toList

/-- A job starts a command if its task does. -/
lemma isCommand_eq (hj : p.jobs[k]? = some j) : isCommand p k = j.task.isCommand := by
  rw [isCommand, hj]
  rfl

/-- A job that is free to move waits for its readers. -/
lemma Free.waits {s₀ : JobState} (hfree : c.Free p k) (hj : p.jobs[k]? = some j)
    (ha : c.machine.phaseOf? k = some a) (hmove : Machine.Moves p j s₀ c.machine a v) :
    Waits j.task c.machine a (c.pipes k) v := by
  rw [Free, isCommand_eq hj, ha] at hfree
  refine ⟨fun hcommand stream line => ?_, fun hcommand hwork => ?_⟩
  · cases hmove with
    | emit n stream line next => exact absurd rfl ((hfree hcommand).1 n (stream, line) next)
    | keep => simp
    | _ => simp [Deed.told]
  · cases hmove with
    | resume | emit | doze | sleep | trigger | note | files => exact .inl rfl
    | cancel n wake rest hm => exact .inr (.inr ⟨hm, n, rfl⟩)
    | finish n ending =>
      rcases (hfree hcommand).2 n ending rfl with ⟨rfl, hm⟩ | hq
      · exact .inr (.inr ⟨hm, n, rfl⟩)
      · exact .inr (.inl hq)
    | _ => cases hwork

/-- A job that only looks does not judge its attempt. -/
lemma Doing.of_looks {m' : Machine} {b : Phase} (hstate : c.machine.jobs[k]? = some s)
    (h : Machine.Looks p k j s c.machine m' b) :
    ∃ s' told, Doing p k j c { c with machine := m' } s s' told := by
  refine ⟨_, _, .act h.acts.act ⟨fun _ stream line => by simp [Deed.told], fun _ hwork => ?_⟩,
    hstate, h.acts.state_eq, h.acts.told_eq⟩
  rcases h.waits with rfl | hqueued | ⟨unseen, arrived, hwaiting⟩
  · exact .inl hwork
  · rw [hqueued] at hwork
    cases hwork
  · rw [hwaiting] at hwork
    cases hwork

/-- Pipes that are changed to what they are stay the same. -/
lemma update_self (c : Piped) (m : Machine) (k : Nat) :
    c.update m k (c.pipes k) = { c with machine := m } := by
  simp only [update, mk.injEq, true_and]
  funext i
  split
  next h => rw [h]
  next => rfl

/-- What happens to another job and its pipes does not concern job `k`. -/
lemma Doing.of_other {m' : Machine} (hstate : c.machine.jobs[k]? = some s) (hk : i ≠ k)
    (hjobs : m'.jobs[k]? = c.machine.jobs[k]?) (htold : m'.toldBy k = c.machine.toldBy k) :
    ∃ s' told, Doing p k j c (c.update m' i q) s s' told := by
  have hq : (c.update m' i q).pipes k = c.pipes k := if_neg (Ne.symm hk)
  have hwaits : Waits j.task c.machine s.phase (c.pipes k) ⟨.look, s.phase⟩ :=
    ⟨fun _ stream line => by simp [Deed.told], fun _ hwork => .inl hwork⟩
  refine ⟨s, none, ?_, hstate, hjobs.trans hstate, htold.trans (List.append_nil _).symm⟩
  rw [hq]
  exact .act (.stay s.phase) hwaits

/-- Without a word the state of a job changes, and its pipes. -/
lemma Doing.of_modifyJob {f : JobState → JobState} (hstate : c.machine.jobs[k]? = some s)
    (hdoes : i = k → Does p j c.machine s (c.pipes k) (f s) q none) :
    ∃ s' told, Doing p k j c (c.update (c.machine.modifyJob i f) i q) s s' told := by
  have hjobs := Machine.getElem?_modifyJob (m := c.machine) f i k
  by_cases hk : i = k
  · subst hk
    rw [if_pos rfl, hstate] at hjobs
    refine ⟨f s, none, ?_, hstate, hjobs, (List.append_nil _).symm⟩
    have hq : (c.update (c.machine.modifyJob i f) i q).pipes i = q := if_pos rfl
    rw [hq]
    exact hdoes rfl
  · rw [if_neg hk] at hjobs
    exact of_other hstate hk hjobs rfl

/-- The jobs stay as they are, and job `i` tells something, or the pipes of job `i` change. -/
lemma Doing.of_same_jobs {m' : Machine} (hstate : c.machine.jobs[k]? = some s)
    (hjobs : m'.jobs = c.machine.jobs)
    (htold : m'.toldBy k = c.machine.toldBy k ++ if i = k then told.toList else [])
    (hdoes : i = k → Does p j c.machine s (c.pipes k) s q told) :
    ∃ s' told, Doing p k j c (c.update m' i q) s s' told := by
  have hjobs : m'.jobs[k]? = c.machine.jobs[k]? := by rw [hjobs]
  by_cases hk : i = k
  · subst hk
    rw [if_pos rfl] at htold
    refine ⟨s, told, ?_, hstate, hjobs.trans hstate, htold⟩
    have hq : (c.update m' i q).pipes i = q := if_pos rfl
    rw [hq]
    exact hdoes rfl
  · rw [if_neg hk, List.append_nil] at htold
    exact of_other hstate hk hjobs htold

/-- **Every step is one of the things that a job and its readers can do.** -/
theorem Step.does (hb : Machine.Balanced total c.machine) (hs : Step p c c')
    (hj : p.jobs[k]? = some j) (hstate : c.machine.jobs[k]? = some s) :
    ∃ s' told, Doing p k j c c' s s' told := by
  have hphase := Machine.phaseOf?_of_state hstate
  cases hs with
  | move hfree hv =>
    rename_i i choices v
    obtain ⟨j', s₀, hj', hs₀, hmove⟩ := Machine.moves_of_nextMove? hv
    by_cases hk : i = k
    · subst hk
      have hacts := Machine.acts_make_self hv hj hstate
      have hwaits := hfree.waits hj' hs₀ hmove
      obtain rfl : j' = j := Option.some.inj (hj'.symm.trans hj)
      rw [Option.some.inj (hs₀.symm.trans hphase)] at hwaits
      exact ⟨_, _, .act hacts.act hwaits, hstate, hacts.state_eq, hacts.told_eq⟩
    · obtain ⟨b, hlooks⟩ := Machine.looks_make_of_ne (j := j) (v := v) hb hj' hk hstate
      exact Doing.of_looks hstate hlooks
  | arrive hi hd hmem =>
    obtain ⟨b, hlooks⟩ := Machine.looks_arrive (p := p) (j := j) hi hd hmem hstate
    exact Doing.of_looks hstate hlooks
  | ambient => exact Doing.of_looks hstate (Machine.looks_of_same (by rfl) (by rfl) hstate)
  | write hcommand hi =>
    refine Doing.of_modifyJob hstate ?_
    rintro rfl
    rw [isCommand_eq hj] at hcommand
    exact .write hcommand (Option.some.inj (hphase.symm.trans hi))
  | kill left hcommand hm hi =>
    rename_i i n
    rw [← update_self c _ i]
    refine Doing.of_modifyJob hstate ?_
    rintro rfl
    rw [isCommand_eq hj] at hcommand
    rw [Machine.working?, hphase] at hi
    exact .kill left hcommand hm hi
  | capture hj' hq =>
    refine Doing.of_modifyJob hstate ?_
    rintro rfl
    obtain rfl := Option.some.inj (hj'.symm.trans hj)
    exact .capture hq
  | emit hj' hq =>
    rename_i i j' stream line rest
    have htold : (c.machine.emit i ⟨j'.task.id, .output stream line⟩).toldBy k =
        c.machine.toldBy k ++ if i = k then (some (TaskChange.output stream line)).toList else [] :=
      c.machine.toldBy_emit _ i k
    refine Doing.of_same_jobs hstate rfl htold ?_
    rintro rfl
    exact .emit hq
  | stop hi =>
    rename_i i stream
    have htold : c.machine.toldBy k =
        c.machine.toldBy k ++ if i = k then (none : Option TaskChange).toList else [] := by
      split <;> exact (List.append_nil _).symm
    refine Doing.of_same_jobs hstate rfl htold ?_
    rintro rfl
    rw [Machine.working?, hphase] at hi
    exact .stop hi

/-! ### Trails -/

/-- Every small step keeps the account of the slots. -/
lemma Step.balanced (hb : Machine.Balanced total c.machine) (hs : Step p c c') :
    Machine.Balanced total c'.machine := by
  cases hs with
  | move _ hv => exact hb.step (.move hv)
  | arrive hi hd hmem => exact hb.step (Machine.Step.arrive (p := p) hi hd hmem)
  | ambient => exact hb.congr rfl fun _ => rfl
  | write _ hi => exact hb.setPhase_playing (by rw [Machine.working?, hi]; rfl) _
  | kill _ _ _ hi => exact hb.setPhase_playing hi _
  | capture => exact hb.congr rfl fun k => by simp [update, Machine.claimOf]
  | emit => exact hb.congr rfl fun k => rfl
  | stop => exact hb

/-- A small step leaves the jobs of a machine where they are. -/
lemma Step.isSome_phaseOf? (hs : Step p c c') (k : Nat) :
    (c'.machine.phaseOf? k).isSome = (c.machine.phaseOf? k).isSome := by
  cases hs with
  | move _ hv => exact (Machine.Step.move hv).isSome_phaseOf? k
  | arrive hi hd hmem => exact (Machine.Step.arrive (p := p) hi hd hmem).isSome_phaseOf? k
  | ambient | emit | stop => rfl
  | write | kill =>
    simp only [update, Machine.phaseOf?_setPhase]
    split <;> simp
  | capture => simp [update]

/-- A run that was interrupted stays so. -/
lemma Step.interrupted_of (hs : Step p c c') (hm : c.machine.interrupted = true) :
    c'.machine.interrupted = true := by
  cases hs with
  | move _ hv => exact (Machine.Step.move hv).interrupted_of hm
  | ambient _ _ _ hi => exact hi hm
  | _ => exact hm

/-- The account of the slots holds on every trail. -/
lemma Trail.balanced (hslots : Slots.ofLimit? limit = .ok world.slots)
    (h : Trail p interval world (c :: cs)) :
    Machine.Balanced (Slots.effectiveLimit limit) c.machine := by
  generalize hl : c :: cs = l at h
  induction h generalizing c cs with
  | start =>
    cases hl
    exact Machine.balanced_start hslots
  | step _ hs ih =>
    cases hl
    exact hs.balanced (ih rfl)

/-- The jobs on a trail are those of the plan. -/
lemma Trail.isSome_phaseOf? (h : Trail p interval world (c :: cs)) (k : Nat) :
    (c.machine.phaseOf? k).isSome = (p.jobs[k]?).isSome := by
  generalize hl : c :: cs = l at h
  induction h generalizing c cs with
  | start =>
    cases hl
    rw [Piped.start, Machine.start_phaseOf?, Option.isSome_map]
  | step _ hs ih =>
    cases hl
    rw [hs.isSome_phaseOf?, ih rfl]

/-- Every job of the plan has a state. -/
lemma Trail.state_of_job (h : Trail p interval world (c :: cs)) (hj : p.jobs[k]? = some j) :
    ∃ s, c.machine.jobs[k]? = some s := by
  have hphase := h.isSome_phaseOf? k
  rw [hj, Machine.phaseOf?, Option.isSome_map] at hphase
  exact Option.isSome_iff_exists.1 hphase

/-- **What a job and its readers preserve, whatever they do, holds on every trail.** The property
may speak of the trail, the state of the job, its pipes, and what it has emitted. -/
theorem Trail.induct (hslots : Slots.ofLimit? limit = .ok world.slots)
    (h : Trail p interval world (c :: cs)) (hj : p.jobs[k]? = some j)
    {I : Piped → List Piped → JobState → Pipes → List TaskChange → Prop}
    (hstart : I (Piped.start p interval world) [] { phase := Machine.firstPhase j } {}
      j.registration)
    (hstep : ∀ c c' cs s s' told, Trail p interval world (c :: cs) → Step p c c' →
      Doing p k j c c' s s' told → I c cs s (c.pipes k) (c.machine.toldBy k) →
        I c' (c :: cs) s' (c'.pipes k) (c.machine.toldBy k ++ told.toList))
    (hs : c.machine.jobs[k]? = some s) : I c cs s (c.pipes k) (c.machine.toldBy k) := by
  generalize hl : c :: cs = l at h
  induction h generalizing c cs s with
  | start =>
    cases hl
    rw [Piped.start, Machine.start_jobs, Array.getElem?_map, hj] at hs
    cases hs
    change I _ _ _ _ ((Machine.start p interval world).toldBy k)
    rw [Machine.toldBy_start hj]
    exact hstart
  | step h hstep' ih =>
    cases hl
    obtain ⟨s₀, hs₀⟩ := h.state_of_job hj
    obtain ⟨s₁, told, hdoing⟩ := hstep'.does (h.balanced hslots) hj hs₀
    obtain rfl : s₁ = s := Option.some.inj (hdoing.after_eq.symm.trans hs)
    rw [hdoing.told_eq]
    exact hstep _ _ _ _ _ _ h hstep' hdoing (ih hs₀ rfl)

end Piped

/-! ### Lines on their way -/

/-- Where a command can stand while lines are on their way: it is at work, or its work was cut short
by an interrupt. -/
def Phase.Unread (interrupted : Bool) (a : Phase) : Prop :=
  a.working?.isSome = true ∨ interrupted = true ∧
    ((∃ n, a = .judging n (.fail .interrupted)) ∨
      ∃ attempts, a.conclusion? = some (attempts, .ofError .interrupted))

/-- The number of the attempts and their outcome stay once they are over. -/
lemma Machine.Act.conclusion?_eq {p : Plan} {j : Job} {m : Machine} {a : Phase} {v : Move}
    (h : Machine.Act p j m a v) {x : UInt32 × TaskOutcome} (ha : a.conclusion? = some x) :
    v.phase.conclusion? = some x := by
  cases h with
  | stay => exact ha
  | grant | hear => cases ha
  | move h =>
    cases h with
    | keep | complete | release => exact ha
    | settle outcome result => cases result <;> exact ha
    | _ => cases ha

namespace Piped

variable {p : Plan} {j : Job} {s s' : JobState} {k : Nat} {c : Piped} {cs : List Piped}
  {told : Option TaskChange} {q q' : Pipes} {m m' : Machine} {v : Move} {a : Phase}
  {stream : Stream} {line : String} {interval limit : Nat} {world : Machine}

/-- A move leads on from one place where a command can stand while lines are on their way to
another. -/
lemma Waits.unread (hact : Machine.Act p j m a v) (hwaits : Waits j.task m a q v)
    (hcommand : j.task.isCommand = true) (hq : q.isDrained = false)
    (ha : a.Unread m.interrupted) : v.phase.Unread m.interrupted := by
  rcases ha with hwork | ⟨hm, ⟨n, rfl⟩ | ⟨attempts, hover⟩⟩
  · rcases hwaits.judged hcommand hwork with hwork | hdrained | ⟨hm, n, hv⟩
    · exact .inl hwork
    · rw [hq] at hdrained
      cases hdrained
    · exact .inr ⟨hm, .inl ⟨n, hv⟩⟩
  · cases hact with
    | stay => exact .inr ⟨hm, .inl ⟨n, rfl⟩⟩
    | move hmove =>
      cases hmove with
      | retry n e record wake he => cases he
      | exhaust => exact .inr ⟨hm, .inr ⟨_, Machine.conclusion?_concluded _ _ _⟩⟩
  · exact .inr ⟨hm, .inr ⟨attempts, hact.conclusion?_eq hover⟩⟩

/-- Whatever a job and its readers do, lines are on their way only where they can be. -/
lemma Does.unread (h : Does p j m s q s' q' told) (hq' : q'.isDrained = false)
    (hs : q.isDrained = false → j.task.isCommand = true ∧ s.phase.Unread m.interrupted) :
    j.task.isCommand = true ∧ s'.phase.Unread m.interrupted := by
  cases h with
  | act hact hwaits =>
    obtain ⟨hcommand, hun⟩ := hs hq'
    exact ⟨hcommand, hwaits.unread hact hcommand hq' hun⟩
  | write hcommand => exact ⟨hcommand, .inl rfl⟩
  | kill _ hcommand => exact ⟨hcommand, .inl rfl⟩
  | capture hq =>
    rw [Machine.remember_phase]
    exact hs (q.not_isDrained _ (by rw [hq]; simp))
  | emit hq => exact hs (q.not_isDrained _ (by rw [hq]; simp))
  | stop =>
    refine hs ?_
    rw [← Bool.not_eq_true] at hq' ⊢
    exact fun hdrained => hq' (Pipes.isDrained_stop _ hdrained)

/-- What was said of a run that is not interrupted holds when it is. -/
lemma unread_mono {before after : Bool} (h : before = true → after = true)
    (ha : a.Unread before) : a.Unread after := ha.imp_right (And.imp_left h)

/-- **Lines are on their way only while a command is at work**, or after its work was cut short by
an interrupt. -/
theorem Trail.unread (hslots : Slots.ofLimit? limit = .ok world.slots)
    (h : Trail p interval world (c :: cs)) (hj : p.jobs[k]? = some j)
    (hs : c.machine.jobs[k]? = some s) (hq : (c.pipes k).isDrained = false) :
    j.task.isCommand = true ∧ s.phase.Unread c.machine.interrupted := by
  refine h.induct hslots hj (I := fun c _ s q _ => q.isDrained = false →
    j.task.isCommand = true ∧ s.phase.Unread c.machine.interrupted) ?_ ?_ hs hq
  · intro hq
    cases hq
  · intro c c' cs s s' told _ hstep hdoing hs hq'
    exact (hdoing.does.unread hq' hs).imp_right (unread_mono hstep.interrupted_of)

/-! ### Runs without pipes -/

/-- It is the same whether a job that emits a line goes on first or captures it first. -/
lemma make_output_eq (hj : p.jobs[k]? = some j) (m : Machine) (phase : Phase) (stream : Stream)
    (line : String) : m.make p k ⟨.tell (.output stream line), phase⟩ =
      ((m.setPhase k phase).capture j.task k stream line).emit k
        ⟨j.task.id, .output stream line⟩ := by
  have hjobs : ((m.jobs.modify k fun s =>
        Machine.remember j.task m.now s (.output stream line)).modify k fun s => { s with phase }) =
      (m.jobs.modify k fun s => { s with phase }).modify k fun s =>
        Machine.remember j.task m.now s (.output stream line) := by
    refine Array.ext_getElem? fun i => ?_
    simp only [Array.getElem?_modify]
    split
    · cases m.jobs[i]? with
      | none => rfl
      | some s =>
        simp only [Option.map_some, Machine.remember]
        split <;> rfl
    · rfl
  simp only [Machine.make, hj, Machine.perform, Machine.setPhase, Machine.modifyJob, Machine.emit,
    Machine.capture, hjobs]

/-- The pipes of a job are what they were changed to last. -/
lemma update_update (c : Piped) (m m' : Machine) (k : Nat) (q q' : Pipes) :
    (c.update m k q).update m' k q' = c.update m' k q' := by
  simp only [update, mk.injEq, true_and]
  funext i
  split <;> rfl

/-- A line that is written into an empty pipe is captured and emitted at once. -/
lemma steps_emit {n : UInt32} {next : Attempt} (hj : p.jobs[k]? = some j)
    (hcommand : isCommand p k = true) (hq : (c.pipes k).get stream = {})
    (hk : c.machine.phaseOf? k = some (.playing n (.emit (stream, line) next))) :
    ReflTransGen (Step p) c { c with
      machine := c.machine.make p k ⟨.tell (.output stream line), .playing n next⟩ } := by
  have hset : ∀ x, (((c.pipes k).write stream line).set stream x) = (c.pipes k).set stream x := by
    intro x
    cases stream <;> rfl
  have hend : (c.pipes k).set stream ⟨[], none⟩ = c.pipes k := by
    rw [← hq]
    cases stream <;> rfl
  have hwritten : ((c.pipes k).write stream line).get stream = ⟨[line], none⟩ := by
    rw [Pipes.write, Pipes.get_set_self, hq]
    rfl
  have hupdated : ∀ (m : Machine) (q : Pipes), (c.update m k q).pipes k = q := fun _ _ => if_pos rfl
  generalize hmoved : c.machine.setPhase k (.playing n next) = m
  have hwrite : Step p c (c.update m k ((c.pipes k).write stream line)) :=
    hmoved ▸ .write hcommand hk
  have hcapture : Step p (c.update m k ((c.pipes k).write stream line))
      (c.update (m.capture j.task k stream line) k ((c.pipes k).set stream ⟨[], some line⟩)) := by
    have h := Step.capture (c := c.update m k ((c.pipes k).write stream line)) hj
      ((congrArg (Pipes.get · stream) (hupdated _ _)).trans hwritten)
    rwa [update_update, hupdated, hset] at h
  have hemit : Step p
      (c.update (m.capture j.task k stream line) k ((c.pipes k).set stream ⟨[], some line⟩))
      { c with machine := (m.capture j.task k stream line).emit k ⟨j.task.id, .output stream line⟩ }
      := by
    have h := Step.emit (c := c.update (m.capture j.task k stream line) k
      ((c.pipes k).set stream ⟨[], some line⟩)) hj
      ((congrArg (Pipes.get · stream) (hupdated _ _)).trans (Pipes.get_set_self _ _ _))
    have hsame : ((c.pipes k).set stream ⟨[], some line⟩).set stream ⟨[], none⟩ = c.pipes k := by
      rw [← hend]
      cases stream <;> rfl
    rwa [update_update, hupdated, hsame, update_self] at h
  rw [make_output_eq hj, hmoved]
  exact ((ReflTransGen.single hwrite).tail hcapture).tail hemit

/-- **A run without pipes is a run with pipes**, in which every line is captured and emitted as soon
as it is written. -/
theorem reached_of_machine (h : Machine.Reached p interval world m) :
    ReflTransGen (Step p) (start p interval world) { machine := m } := by
  induction h with
  | refl => exact .refl
  | tail _ hs ih =>
    refine ih.trans ?_
    cases hs with
    | arrive hi hd hmem => exact .single (.arrive hi hd hmem)
    | ambient now interrupted hc hm => exact .single (.ambient now interrupted hc hm)
    | move hv =>
      rename_i m i choices v
      obtain ⟨j, s, hj, hphase, hmove⟩ := Machine.moves_of_nextMove? hv
      generalize s.phase = a at hphase hmove
      by_cases hemit : isCommand p i = true ∧ ∃ n output next, a = .playing n (.emit output next)
      · obtain ⟨hcommand, n, ⟨stream, line⟩, next, rfl⟩ := hemit
        cases hmove
        exact steps_emit hj hcommand (by cases stream <;> rfl) hphase
      · refine .single (.move (fun hcommand => ⟨fun n output next h => ?_, fun _ _ _ => ?_⟩) hv)
        · exact hemit ⟨hcommand, n, output, next, Option.some.inj (hphase.symm.trans h)⟩
        · exact .inr rfl

end Piped

end Taskflow
