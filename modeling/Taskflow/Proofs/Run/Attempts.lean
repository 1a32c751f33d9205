import Taskflow.Proofs.Run.Ceiling
import Taskflow.Proofs.Run.Grammar
import Taskflow.Proofs.Run.LastAttempt
set_option autoImplicit false

/-!
# Counting attempts

An attempt begins when its job goes on from where the attempt was to begin; from then on its work
runs. Attempts begin in the order of their numbers, and each begins once. The result of a task
counts them, with one exception: the number of the next attempt is set before the rest, and an
interrupt that cuts the rest short leaves it so, although that attempt never begins.

## Main definitions

* `Passage`, `Machine.passages` — what the steps of a trail are for one job.
* `Machine.begun` — the numbers of the attempts that have begun on a trail.
* `Machine.hasCutRest` — whether a rest was cut short on a trail.
* `Phase.HasBegun` — what a phase says about both.
* `Machine.footsteps` — a trail that goes on with given actions.

## Main results

* `Machine.Trail.turn_of_mem` — every passage is a turn of its job.
* `Machine.Trail.hasBegun` — in every machine, the attempts that have begun are those that the phase
  of the job says.
* `Machine.Trail.attempts_counted` — how a result counts the attempts.
* `Machine.sleeper_is_counted_twice` — an interrupt in a rest makes one attempt count as two.
-/

namespace Taskflow

open Relation TaskChange

/-! ### Passages -/

/-- What a step is for a job: the machine before it, and the phases of the job before and after. -/
structure Passage where
  machine : Machine
  source : Phase
  target : Phase

namespace Passage

/-- The attempt that begins with a passage. -/
def attempt? (x : Passage) : Option UInt32 :=
  match x.source, x.target with
  | .beginning _, .beginning _ => none
  | .beginning n, _ => some n
  | _, _ => none

/-- Whether a rest ends with a passage without an attempt after it. -/
def cutsRest (x : Passage) : Bool :=
  match x.source, x.target with
  | .resting .., .resting .. | .resting .., .beginning _ => false
  | .resting .., _ => true
  | _, _ => false

end Passage

namespace Machine

variable {p : Plan} {j : Job} {a b : Phase} {k : Nat} {m m' : Machine} {ms : List Machine}
  {c : Option TaskChange} {cs : List TaskChange} {numbers : List UInt32} {cut : Bool}
  {interval limit : Nat} {world : Machine}

/-- What the steps of a trail are for job `k`, latest first. -/
def passages (k : Nat) : List Machine → List Passage
  | m' :: m :: ms =>
    match m.phaseOf? k, m'.phaseOf? k with
    | some a, some b => ⟨m, a, b⟩ :: passages k (m :: ms)
    | _, _ => passages k (m :: ms)
  | _ => []

/-- A step is one more passage. -/
lemma passages_cons (ha : m.phaseOf? k = some a) (hb : m'.phaseOf? k = some b) :
    passages k (m' :: m :: ms) = ⟨m, a, b⟩ :: passages k (m :: ms) := by
  simp only [passages, ha, hb]

/-- The numbers of the attempts of job `k` that have begun on a trail, in order. -/
def begun (k : Nat) (ms : List Machine) : List UInt32 :=
  ((passages k ms).filterMap Passage.attempt?).reverse

/-- Whether a rest of job `k` was cut short on a trail. -/
def hasCutRest (k : Nat) (ms : List Machine) : Bool := (passages k ms).any Passage.cutsRest

/-- A step may begin an attempt. -/
lemma begun_cons (ha : m.phaseOf? k = some a) (hb : m'.phaseOf? k = some b) :
    begun k (m' :: m :: ms) = begun k (m :: ms) ++ (Passage.mk m a b).attempt?.toList := by
  rw [begun, passages_cons ha hb, List.filterMap_cons, begun]
  cases (Passage.mk m a b).attempt? <;> simp

/-- A step may cut a rest short. -/
lemma hasCutRest_cons (ha : m.phaseOf? k = some a) (hb : m'.phaseOf? k = some b) :
    hasCutRest k (m' :: m :: ms) = (hasCutRest k (m :: ms) || (Passage.mk m a b).cutsRest) := by
  rw [hasCutRest, passages_cons ha hb, List.any_cons, Bool.or_comm, hasCutRest]

/-- **Every passage is a turn of its job**, in a machine that the trail came through. -/
theorem Trail.turn_of_mem (hslots : Slots.ofLimit? limit = .ok world.slots)
    (h : Trail p interval world (m :: ms)) (hj : p.jobs[k]? = some j) {x : Passage}
    (hx : x ∈ passages k (m :: ms)) :
    (∃ c, Turn p j x.machine x.source c x.target) ∧ ReflTransGen (Step p) x.machine m := by
  generalize hl : m :: ms = l at h hx
  induction h generalizing m ms with
  | start => cases hx
  | step h hs ih =>
    cases hl
    obtain ⟨a, ha⟩ := h.reached.phaseOf?_of_job hj
    obtain ⟨c, b, hturn, hb, -⟩ := hs.turn (h.reached.balanced hslots) hj ha
    rw [passages_cons ha hb] at hx
    rcases List.mem_cons.1 hx with rfl | hx
    · exact ⟨⟨c, hturn⟩, .single hs⟩
    · exact (ih rfl hx).imp_right fun hsteps => hsteps.tail hs

/-- A rest is cut short only by an interrupt. -/
lemma Turn.interrupted_of_cutsRest (h : Turn p j m a c b)
    (hcut : (Passage.mk m a b).cutsRest = true) : m.interrupted = true := by
  cases h with
  | stay => cases a <;> cases hcut
  | grant | hear => cases hcut
  | move h =>
    cases h with
    | stop _ _ h => exact h
    | _ => cases hcut

/-- A run in which a rest was cut short was interrupted. -/
lemma Trail.interrupted_of_hasCutRest (hslots : Slots.ofLimit? limit = .ok world.slots)
    (h : Trail p interval world (m :: ms)) (hj : p.jobs[k]? = some j)
    (hcut : hasCutRest k (m :: ms) = true) : m.interrupted = true := by
  obtain ⟨x, hx, hcut⟩ := List.any_eq_true.1 hcut
  obtain ⟨⟨c, hturn⟩, hsteps⟩ := h.turn_of_mem hslots hj hx
  exact interrupted_of_steps hsteps (hturn.interrupted_of_cutsRest hcut)

end Machine

/-! ### What a phase says about the attempts -/

/-- The first `n` numbers of attempts. -/
def firstNumbers (n : Nat) : List UInt32 := (List.range n).map UInt32.ofNat

/-- There are as many first numbers as asked for. -/
@[simp] lemma length_firstNumbers (n : Nat) : (firstNumbers n).length = n := by
  simp [firstNumbers]

/-- One more number follows the first ones. -/
lemma firstNumbers_succ (n : UInt32) :
    firstNumbers (n.toNat + 1) = firstNumbers n.toNat ++ [n] := by
  simp [firstNumbers, List.range_succ]

/-- So many attempts with such an outcome are counted for a job with so many retries, of which the
attempts with certain numbers have begun: its last attempt is number `n`, and it has begun, or the
rest before it was cut short. -/
def Counts (retries : Nat) (numbers : List UInt32) (cut : Bool) (attempts : UInt32)
    (outcome : TaskOutcome) : Prop :=
  ∃ n ≤ retries, attempts = .ofNat (n + 1) ∧
    (cut = false ∧ numbers = firstNumbers (n + 1) ∨
      cut = true ∧ 0 < n ∧ numbers = firstNumbers n ∧ outcome = .ofError .interrupted)

/-- Where a job with so many retries stands that has told `cs` since its registration, when the
attempts with certain numbers have begun and a rest was cut short or not. -/
def Phase.HasBegun (retries : Nat) (cs : List TaskChange) (numbers : List UInt32) (cut : Bool) :
    Phase → Prop
  | .waiting .. | .blocking _ | .requesting | .asking | .queued | .granted | .starting
  | .settling _ none | .ended _ none => numbers = [] ∧ cut = false
  | .beginning n => n.toNat ≤ retries ∧ numbers = firstNumbers n.toNat ∧ cut = false
  | .resting n _ => 0 < n.toNat ∧ n.toNat ≤ retries ∧ numbers = firstNumbers n.toNat ∧ cut = false
  | .attempting n .. | .playing n _ | .judging n _ =>
    n.toNat ≤ retries ∧ numbers = firstNumbers (n.toNat + 1) ∧ cut = false
  | .reporting attempts outcome | .completing attempts outcome | .releasing attempts outcome =>
    Counts retries numbers cut attempts outcome
  | .settling _ (some r) | .ended _ (some r) =>
    cs = [] ∧ r.attempts = 0 ∧ numbers = [] ∧ cut = false ∨
      cs ≠ [] ∧ Counts retries numbers cut r.attempts r.outcome
  | .crashing _ | .crashed _ => ∃ n ≤ retries, numbers = firstNumbers (n + 1) ∧ cut = false

/-- Attempts begin in the order of their numbers. -/
lemma Phase.HasBegun.exists_eq {a : Phase} {retries : Nat} {cs : List TaskChange}
    {numbers : List UInt32} {cut : Bool} (h : a.HasBegun retries cs numbers cut) :
    ∃ n, numbers = firstNumbers n := by
  have hcounts : ∀ {attempts : UInt32} {outcome : TaskOutcome},
      Counts retries numbers cut attempts outcome → ∃ n, numbers = firstNumbers n := by
    rintro attempts outcome ⟨n, -, -, ⟨-, h⟩ | ⟨-, -, h, -⟩⟩
    · exact ⟨_, h⟩
    · exact ⟨_, h⟩
  cases a with
  | beginning | attempting | playing | judging => exact ⟨_, h.2.1⟩
  | resting => exact ⟨_, h.2.2.1⟩
  | reporting | completing | releasing => exact hcounts h
  | crashing | crashed =>
    obtain ⟨n, -, h, -⟩ := h
    exact ⟨_, h⟩
  | settling _ result | ended _ result =>
    cases result with
    | none => exact ⟨0, h.1⟩
    | some r =>
      rcases h with ⟨-, -, h, -⟩ | ⟨-, h⟩
      · exact ⟨0, h⟩
      · exact hcounts h
  | _ => exact ⟨0, h.1⟩

namespace Machine

variable {p : Plan} {j : Job} {a b : Phase} {k : Nat} {m m' : Machine} {ms : List Machine}
  {c : Option TaskChange} {cs : List TaskChange} {numbers : List UInt32} {cut : Bool}
  {interval limit : Nat} {world : Machine}

/-- The phase that follows the attempts counts them all. -/
lemma hasBegun_concluded {retries : Nat} {t : TaskDefinition} {attempts : UInt32}
    {outcome : TaskOutcome} (h : Counts retries numbers cut attempts outcome) :
    (concluded t attempts outcome).HasBegun retries cs numbers cut := by
  unfold concluded
  split <;> exact h

/-- A move begins attempts and cuts rests short as its phases say. -/
lemma Moves.hasBegun {s : JobState} {v : Move} (h : Moves p j s m a v)
    (htold : a.Told m.interrupted cs) (ha : a.HasBegun j.retries cs numbers cut) :
    v.phase.HasBegun j.retries (cs ++ v.deed.told.toList)
      (numbers ++ (Passage.mk m a v.phase).attempt?.toList)
      (cut || (Passage.mk m a v.phase).cutsRest) := by
  -- the last attempt has begun, and no rest was cut short
  have hlast : ∀ {n : UInt32} {outcome : TaskOutcome}, n.toNat ≤ j.retries →
      Counts j.retries (firstNumbers (n.toNat + 1)) false (n + 1) outcome :=
    fun {n _} hn => ⟨n.toNat, hn, by simp, .inl ⟨rfl, rfl⟩⟩
  cases h with
  | withdraw | leave | refuse =>
    obtain ⟨rfl, rfl⟩ := ha
    obtain rfl : cs = [] := htold
    exact .inl ⟨rfl, rfl, rfl, rfl⟩
  | start =>
    obtain ⟨rfl, rfl⟩ := ha
    exact ⟨Nat.zero_le _, rfl, rfl⟩
  | begin n | fail n =>
    obtain ⟨hn, rfl, rfl⟩ := ha
    exact ⟨hn, (firstNumbers_succ n).symm, rfl⟩
  | resume | cancel | finish | emit | doze | sleep | trigger | note | files =>
    obtain ⟨hn, rfl, rfl⟩ := ha
    exact ⟨hn, List.append_nil _, rfl⟩
  | panic n =>
    obtain ⟨hn, rfl, rfl⟩ := ha
    exact ⟨_, hn, List.append_nil _, rfl⟩
  | succeed | exhaust =>
    obtain ⟨hn, rfl, rfl⟩ := ha
    exact hasBegun_concluded ((List.append_nil (firstNumbers _)).symm ▸ hlast hn)
  | retry n e record wake he hretry =>
    obtain ⟨hn, rfl, rfl⟩ := ha
    obtain ⟨hlt, hsucc⟩ := RetryPolicy.toNat_succ_of_shouldRetry hretry
    exact ⟨by omega, hsucc ▸ hlt, (List.append_nil _).trans (hsucc ▸ rfl), rfl⟩
  | wake =>
    obtain ⟨-, hn, rfl, rfl⟩ := ha
    exact ⟨hn, List.append_nil _, rfl⟩
  | stop n wake h =>
    obtain ⟨hpos, hn, rfl, rfl⟩ := ha
    have hcut : (Passage.mk m (.resting n wake)
        (concluded j.task (n + 1) (.ofError .interrupted))).cutsRest = true := by
      unfold concluded
      split <;> rfl
    refine hasBegun_concluded ⟨n.toNat, hn, by simp, .inr ⟨?_, hpos, List.append_nil _, rfl⟩⟩
    exact hcut
  | keep | complete =>
    obtain ⟨n, hn, hattempts, hbegun⟩ := ha
    exact ⟨n, hn, hattempts, by simpa [Passage.attempt?, Passage.cutsRest] using hbegun⟩
  | release attempts outcome =>
    obtain ⟨body, time, -, rfl⟩ := htold
    obtain ⟨n, hn, hattempts, hbegun⟩ := ha
    exact .inr ⟨by simp, n, hn, hattempts,
      by simpa [Passage.attempt?, Passage.cutsRest] using hbegun⟩
  | settle outcome result =>
    cases result <;> simpa [Phase.HasBegun, Passage.attempt?, Passage.cutsRest, Deed.told] using ha
  | crash => simpa [Phase.HasBegun, Passage.attempt?, Passage.cutsRest] using ha
  | _ =>
    obtain ⟨rfl, rfl⟩ := ha
    exact ⟨rfl, rfl⟩

/-- **In every machine of a trail, the attempts of a job have begun as its phase says.** -/
theorem Trail.hasBegun (hslots : Slots.ofLimit? limit = .ok world.slots)
    (h : Trail p interval world (m :: ms)) (hj : p.jobs[k]? = some j)
    (ha : m.phaseOf? k = some a) :
    ∃ cs, m.toldBy k = j.registration ++ cs ∧ a.Told m.interrupted cs ∧
      a.HasBegun j.retries cs (begun k (m :: ms)) (hasCutRest k (m :: ms)) := by
  obtain ⟨cs, htold, hcs⟩ := h.reached.told hslots hj ha
  refine ⟨cs, htold, hcs, ?_⟩
  have hinv := h.induct_job hslots hj (I := fun ms a told => ∀ cs, told = j.registration ++ cs →
    a.HasBegun j.retries cs (begun k ms) (hasCutRest k ms)) ?_ ?_ ha
  · exact hinv cs htold
  · intro cs _
    unfold firstPhase
    split <;> exact ⟨rfl, rfl⟩
  · intro m m' ms a c b h hs hturn ha hb hinv cs' hcs'
    obtain ⟨cs, htold, hcs⟩ := h.reached.told hslots hj ha
    have hbegun := hinv cs htold
    obtain rfl : cs ++ c.toList = cs' := by
      rw [htold, List.append_assoc] at hcs'
      exact List.append_cancel_left hcs'
    rw [begun_cons ha hb, hasCutRest_cons ha hb]
    cases hturn with
    | stay =>
      have hstill : (Passage.mk m a a).attempt? = none ∧ (Passage.mk m a a).cutsRest = false := by
        cases a <;> exact ⟨rfl, rfl⟩
      rw [hstill.1, hstill.2]
      simpa using hbegun
    | grant | hear => simpa [Phase.HasBegun, Passage.attempt?, Passage.cutsRest] using hbegun
    | move hmove => exact hmove.hasBegun hcs hbegun

/-! ### Results -/

/-- A job that has a result has ended with it. -/
lemma exists_ended_of_resultOf? {r : TaskResult} (h : m.resultOf? k = some r) :
    ∃ outcome, m.phaseOf? k = some (.ended outcome (some r)) := by
  unfold resultOf? at h
  split at h
  next outcome result ha => exact ⟨outcome, h ▸ ha⟩
  next => cases h

/-- A job that has ended with a result has told its start if it has told anything. -/
lemma hasStarted_iff_of_settled {interrupted : Bool} {outcome : NodeOutcome} {r : TaskResult}
    (h : Settled interrupted cs outcome (some r)) : HasStarted cs ↔ cs ≠ [] := by
  rcases h with ⟨-, rfl, -⟩ | ⟨-, h⟩
  · exact iff_of_false (fun ⟨_, hmem⟩ => nomatch hmem) (by simp)
  · refine iff_of_true h.hasStarted ?_
    rintro rfl
    obtain ⟨body, time, -, h⟩ := h
    simp at h

/-- **How a result counts the attempts.** For every plan, every limit, every job with fewer than
`2 ^ 32 - 1` retries, whatever its attempts come to, and every way to a machine of a run: the
attempts of the job that have begun are numbered from zero, without gaps or repetitions. If the job
has ended with a result:
* unless a rest was cut short, the result counts the attempts that have begun;
* if a rest was cut short, it counts one more. Then the run was interrupted, and so was the task;
* in any case, it counts none exactly if none has begun, and exactly if the task has not started.

**Proof sketch.** Along a trail the phase of a job carries the number of the attempt that is under
way, and what has begun on the trail are the numbers up to it (`Phase.HasBegun`, kept by every
move). A rest is left for the next attempt, or it is cut short; in that case the count has been
raised already. -/
theorem Trail.attempts_counted (hslots : Slots.ofLimit? limit = .ok world.slots)
    (hj : p.jobs[k]? = some j) (hmax : j.retries < RetryPolicy.maxWord)
    (h : Trail p interval world (m :: ms)) :
    let numbers := begun k (m :: ms)
    numbers = firstNumbers numbers.length ∧
    ∀ r, m.resultOf? k = some r →
      (hasCutRest k (m :: ms) = false → r.attempts.toNat = numbers.length) ∧
      (hasCutRest k (m :: ms) = true → r.attempts.toNat = numbers.length + 1 ∧
        0 < numbers.length ∧ r.outcome = .ofError .interrupted ∧ m.interrupted = true) ∧
      (r.wasStarted = true ↔ numbers ≠ []) ∧ (r.wasStarted = true ↔ HasStarted (m.toldBy k)) := by
  intro numbers
  obtain ⟨a, ha⟩ := h.reached.phaseOf?_of_job hj
  obtain ⟨cs, htold, hcs, hbegun⟩ := h.hasBegun hslots hj ha
  refine ⟨?_, fun r hr => ?_⟩
  · obtain ⟨n, hn⟩ := hbegun.exists_eq
    simp only [numbers, hn, length_firstNumbers]
  obtain ⟨outcome, ha'⟩ := exists_ended_of_resultOf? hr
  obtain rfl := Option.some.inj (ha.symm.trans ha')
  rw [htold, hasStarted_registration, hasStarted_iff_of_settled hcs, TaskResult.wasStarted,
    decide_eq_true_eq, UInt32.lt_iff_toNat_lt, UInt32.toNat_zero]
  have hcut := h.interrupted_of_hasCutRest hslots hj
  rcases hbegun with ⟨rfl, hzero, hnone, huncut⟩ | ⟨hne, n, hn, hattempts, hbegun⟩
  · have hnumbers : numbers = [] := hnone
    simp [hnumbers, hzero, huncut]
  · have hcount : r.attempts.toNat = n + 1 := by
      rw [hattempts, RetryPolicy.toNat_ofNat_succ (hn.trans_lt hmax)]
    rcases hbegun with ⟨huncut, hnumbers⟩ | ⟨hcutRest, hpos, hnumbers, houtcome⟩
    · have hlength : numbers.length = n + 1 := by
        simp only [numbers, hnumbers, length_firstNumbers]
      simp [← List.length_pos_iff, huncut, hcount, hlength, hne]
    · have hlength : numbers.length = n := by
        simp only [numbers, hnumbers, length_firstNumbers]
      simp [← List.length_pos_iff, hcutRest, hcount, hlength, hne, hpos, houtcome,
        hcut hcutRest]

/-! ### A task that sleeps -/

/-- The small step that an action stands for, if it is one. -/
def smallStep? (p : Plan) (m : Machine) : Action → Option Machine
  | .move i choices => (m.nextMove? p i choices).map (m.make p i)
  | .trigger => some { m with interrupted := true }
  | .advance time => some { m with now := max m.now time }
  | _ => none

/-- A trail goes on with small steps. -/
def footsteps (p : Plan) (ms : List Machine) (actions : List Action) : List Machine :=
  actions.foldl (fun ms x => ((ms.head?.bind (smallStep? p · x)).toList) ++ ms) ms

/-- An action that is a small step is one. -/
lemma step_of_smallStep? {x : Action} (h : m.smallStep? p x = some m') : Step p m m' := by
  cases x with
  | move i choices =>
    obtain ⟨v, hv, rfl⟩ := Option.map_eq_some_iff.1 h
    exact .move hv
  | trigger => cases h; exact .ambient m.now true .rest fun _ => rfl
  | advance time => cases h; exact .ambient (max m.now time) m.interrupted .rest id
  | _ => cases h

/-- The machines that actions come through prolong a trail. -/
lemma Trail.footsteps (h : Trail p interval world ms) (actions : List Action) :
    Trail p interval world (footsteps p ms actions) := by
  induction actions generalizing ms with
  | nil => exact h
  | cons x rest ih =>
    refine ih ?_
    cases ms with
    | nil => exact h
    | cons m ms =>
      simp only [List.head?_cons, Option.bind_some]
      cases hstep : m.smallStep? p x with
      | none => exact h
      | some m' => exact h.step (step_of_smallStep? hstep)

/-- What was before does not matter for what actions come through. -/
lemma footsteps_append (m : Machine) (ms earlier : List Machine) (actions : List Action) :
    footsteps p (m :: ms ++ earlier) actions = footsteps p (m :: ms) actions ++ earlier := by
  induction actions generalizing m ms with
  | nil => rfl
  | cons x rest ih =>
    simp only [Machine.footsteps, List.foldl_cons, List.cons_append, List.head?_cons,
      Option.bind_some]
    cases m.smallStep? p x with
    | none => exact ih m ms
    | some m' => exact ih m' (m :: ms)

/-- Small steps lead on from where a trail begins. -/
lemma getLast?_footsteps (m : Machine) (ms : List Machine) (actions : List Action) :
    (footsteps p (m :: ms) actions).getLast? = (m :: ms).getLast? := by
  induction actions generalizing m ms with
  | nil => rfl
  | cons x rest ih =>
    simp only [Machine.footsteps, List.foldl_cons, List.head?_cons, Option.bind_some]
    cases m.smallStep? p x with
    | none => exact ih m ms
    | some m' => exact (ih m' (m :: ms)).trans List.getLast?_cons_cons

end Machine

/-- Task `a` fails once and then succeeds. It may be tried twice, with 10 ms in between. -/
def sleeperTask : TaskDefinition :=
  { TaskDefinition.ofComputation ⟨"a"⟩ (fun
      | 0 => .finish (.fail (.failed "boom"))
      | _ + 1 => .finish (.ok .null)) with
    retryPolicy := some ⟨.ofNat 1, .ofMillis 10⟩ }

/-- The task is handed over directly. -/
def sleeperPlan : Plan := .ofTasks [sleeperTask] (fun _ _ => .error "") default

/-- The trail of the task, with one slot. -/
def sleeperTrail (actions : List Action) : List Machine :=
  Machine.footsteps sleeperPlan [Machine.start sleeperPlan 1 (Machine.world ⟨1, []⟩)] actions

/-- The first attempt is made and the rest begins; then something happens, and the task goes on to
its end. -/
def sleeperActions (event : Action) : List Action :=
  List.replicate 7 (.move 0 {}) ++ event :: List.replicate 9 (.move 0 {})

namespace Machine

/-- If the rest is over, both attempts are made and counted. -/
theorem sleeper_is_counted : ∃ m ms r,
    Trail sleeperPlan 1 (Machine.world ⟨1, []⟩) (m :: ms) ∧ m.resultOf? 0 = some r ∧
      begun 0 (m :: ms) = firstNumbers 2 ∧ r.attempts.toNat = 2 := by
  have htrail : Trail sleeperPlan 1 (Machine.world ⟨1, []⟩)
      (sleeperTrail (sleeperActions (.advance 10))) := Trail.start.footsteps _
  have hresult : ((sleeperTrail (sleeperActions (.advance 10))).head?.bind (·.resultOf? 0)).isSome
      = true := by decide +kernel
  have hbegun : begun 0 (sleeperTrail (sleeperActions (.advance 10))) = [0, 1] := by decide +kernel
  have huncut : hasCutRest 0 (sleeperTrail (sleeperActions (.advance 10))) = false := by
    decide +kernel
  generalize sleeperTrail (sleeperActions (.advance 10)) = ms at htrail hresult hbegun huncut
  cases ms with
  | nil => cases hresult
  | cons m ms =>
    obtain ⟨r, hr⟩ := Option.isSome_iff_exists.1 hresult
    have hslots : Slots.ofLimit? 1 = .ok (Machine.world ⟨1, []⟩).slots := rfl
    obtain ⟨-, hcounted⟩ := htrail.attempts_counted hslots (k := 0) rfl (by decide)
    have hcount := (hcounted r hr).1 huncut
    rw [hbegun] at hcount
    exact ⟨m, ms, r, htrail, hr, hbegun, hcount⟩

/-- **An interrupt in a rest makes one attempt count as two.** -/
theorem sleeper_is_counted_twice :
    Trail sleeperPlan 1 (Machine.world ⟨1, []⟩) (sleeperTrail (sleeperActions .trigger)) ∧
      begun 0 (sleeperTrail (sleeperActions .trigger)) = [0] ∧
      ((sleeperTrail (sleeperActions .trigger)).head?.bind (·.resultOf? 0)).map
        (fun r => (r.attempts, r.outcome)) = some (2, .ofError .interrupted) :=
  ⟨Trail.start.footsteps _, by decide +kernel, by decide +kernel⟩

end Machine

end Taskflow
