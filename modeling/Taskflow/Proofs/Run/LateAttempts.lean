import Taskflow.Proofs.Run.Attempts
import Taskflow.Proofs.Run.Interruption
set_option autoImplicit false

/-!
# Attempts after an interrupt

Once a run is interrupted, one thing can still lead to an attempt: a rest that is over. The job then
finds its time come and the run interrupted, and which of the two it looks at first is not said. If
it is the clock, the next attempt begins, although the run was interrupted before.

## Main definitions

* `Passage.WakesLate` — a rest ends with an attempt in an interrupted run.

## Main results

* `Machine.Triggered.attempts_after` — which attempts begin after the interrupt, and when.
* `Machine.attempt_begins_after_interrupt` — one does.

## Design

Between the interrupt and a rest nothing else stands. A job that was about to begin an attempt, or
to start, would not have stopped there (`Machine.parked_run`), and in an interrupted run no job is
given leave to start (`Machine.Poised.of_steps`).
-/

namespace Taskflow

open Relation

namespace Passage

/-- A rest before attempt `n` is over, and the attempt is to begin, in an interrupted run. -/
def WakesLate (n : UInt32) (x : Passage) : Prop :=
  ∃ wake, x.source = .resting n wake ∧ x.target = .beginning n ∧ wake ≤ x.machine.now ∧
    x.machine.interrupted = true

/-- An attempt begins where a job is about to begin it. -/
lemma source_of_attempt? {x : Passage} {n : UInt32} (h : x.attempt? = some n) :
    x.source = .beginning n := by
  unfold attempt? at h
  split at h
  · cases h
  next hsource _ => cases h; exact hsource
  · cases h

end Passage

namespace Machine

variable {p : Plan} {j : Job} {a b : Phase} {k : Nat} {m m₀ m' : Machine}
  {ms later before : List Machine} {c : Option TaskChange} {n : UInt32} {interval limit : Nat}
  {world : Machine}

/-- A first part of a trail is a trail. -/
lemma Trail.of_append (h : Trail p interval world (later ++ m :: ms)) :
    Trail p interval world (m :: ms) := by
  induction later with
  | nil => exact h
  | cons m' later ih =>
    refine ih ?_
    rw [List.cons_append] at h
    generalize hrest : later ++ m :: ms = rest at h
    cases h with
    | start => simp at hrest
    | step h hs => exact h

/-- Steps lead to every machine of the part of a trail that begins with `m₀`. -/
lemma Trail.steps_of_getLast? (h : Trail p interval world (later ++ before))
    (hlast : later.getLast? = some m₀) (hm : m ∈ later) : ReflTransGen (Step p) m₀ m := by
  obtain ⟨after, earlier, rfl⟩ := List.append_of_mem hm
  rw [List.append_assoc, List.cons_append] at h
  refine (h.of_append.steps_of_mem ?_).2
  rw [← List.cons_append]
  refine List.mem_append_left _ (List.mem_of_getLast? ?_)
  rwa [List.getLast?_append_cons] at hlast

/-- In an interrupted run in which nobody is about to start, an attempt is to begin only if it was
before, or if the rest before it is over. -/
lemma Turn.beginning (h : Turn p j m a c (.beginning n)) (hm : m.interrupted = true)
    (ha : a.isCommitted = false) :
    a = .beginning n ∨ (Passage.mk m a (.beginning n)).WakesLate n := by
  generalize hb : Phase.beginning n = b at h
  cases h with
  | stay => exact .inl rfl
  | grant | hear => cases hb
  | move hmove =>
    cases hmove with
    | start => cases ha
    | wake n' wake hwake => cases hb; exact .inr ⟨wake, rfl, rfl, hwake, hm⟩
    | succeed | exhaust | stop =>
      unfold concluded at hb
      split at hb <;> cases hb
    | _ => cases hb

/-- **Whatever attempt begins or is to begin after the interrupt, the rest before it was over.**

**Proof sketch.** Induction on the trail from the interrupt on. At the interrupt no attempt is to
begin; from then on every step that leads to one ends a rest. -/
lemma Triggered.exists_wakesLate (hslots : Slots.ofLimit? limit = .ok world.slots)
    (h₀ : Triggered p interval world m₀) (hj : p.jobs[k]? = some j)
    (hlast : later.getLast? = some m₀) (h : Trail p interval world (later ++ before)) :
    ∀ n, later.head?.bind (·.phaseOf? k) = some (.beginning n) ∨ n ∈ begun k later →
      ∃ x ∈ passages k later, x.WakesLate n := by
  induction later with
  | nil => cases hlast
  | cons m' later ih =>
    intro n hn
    cases later with
    | nil =>
      obtain rfl : m' = m₀ := Option.some.inj hlast
      rcases hn with hn | hn
      · obtain ⟨i, script, heq⟩ := h₀.playing_of_isPassing hn rfl
        cases heq
      · cases hn
    | cons m later =>
      cases h with
      | step h hs =>
        obtain ⟨a, ha⟩ := h.reached.phaseOf?_of_job hj
        obtain ⟨c, b, hturn, hb, -⟩ := hs.turn (h.reached.balanced hslots) hj ha
        rw [List.getLast?_cons_cons] at hlast
        have hsteps : ReflTransGen (Step p) m₀ m :=
          Trail.steps_of_getLast? h hlast List.mem_cons_self
        have hm := interrupted_of_steps hsteps h₀.interrupted
        have hcommitted := (h₀.poised.of_steps h₀.interrupted hsteps).1 k a ha
        have hearlier := ih hlast h n
        rw [passages_cons ha hb]
        rw [begun_cons ha hb, List.mem_append, Option.mem_toList] at hn
        simp only [List.head?_cons, Option.bind_some, ha, hb, Option.some.injEq] at hn hearlier
        rcases hn with rfl | hn | hn
        · rcases hturn.beginning hm hcommitted with rfl | hlate
          · obtain ⟨x, hx, hlate⟩ := hearlier (.inl rfl)
            exact ⟨x, List.mem_cons_of_mem _ hx, hlate⟩
          · exact ⟨_, List.mem_cons_self, hlate⟩
        · obtain ⟨x, hx, hlate⟩ := hearlier (.inr hn)
          exact ⟨x, List.mem_cons_of_mem _ hx, hlate⟩
        · obtain ⟨x, hx, hlate⟩ := hearlier (.inl (Passage.source_of_attempt? hn))
          exact ⟨x, List.mem_cons_of_mem _ hx, hlate⟩

/-- What a job does in a rest of an interrupted run. -/
lemma nextMove?_of_resting (hj : p.jobs[k]? = some j) {wake : Nat}
    (ha : m.phaseOf? k = some (.resting n wake)) (hm : m.interrupted = true) (choices : Choices) :
    m.nextMove? p k choices = some (if wake ≤ m.now ∧ choices.rest n = .work then
      ⟨.look, .beginning n⟩ else ⟨.look, concluded j.task (n + 1) (.ofError .interrupted)⟩) := by
  obtain ⟨s, hs, hphase⟩ := Option.map_eq_some_iff.1 ha
  simp only [nextMove?, hj, hs, moveOf?, hphase, whenResting, hm, if_true]
  by_cases hwake : wake ≤ m.now <;> cases choices.rest n <;> simp [hwake]

/-- **Attempts after an interrupt.** For every plan, every limit, every moment `m₀` at which the run
has been interrupted, every job, whatever its policy and its attempts, and whatever happens after
`m₀`:
* an attempt that begins has been brought to it after `m₀` by a rest that was over;
* in a rest, the job goes on to the next attempt if its time has come and it looks at the clock
  first; otherwise its attempts are over, and it was interrupted;
* so if no rest is over when the job looks, no attempt begins.

**Proof sketch.** When the run is interrupted, no job is about to begin its first attempt, as no job
is about to start (`Triggered.poised`). So an attempt that begins comes from a rest, and a rest is
left for an attempt only if its time has come and the clock is looked at first. -/
theorem Triggered.attempts_after (hslots : Slots.ofLimit? limit = .ok world.slots)
    (h₀ : Triggered p interval world m₀) (hj : p.jobs[k]? = some j)
    (hlast : later.getLast? = some m₀) (h : Trail p interval world (later ++ before)) :
    (∀ n ∈ begun k later, ∃ x ∈ passages k later, x.WakesLate n) ∧
    (∀ m ∈ later, ∀ n wake, m.phaseOf? k = some (.resting n wake) → ∀ choices : Choices,
      m.nextMove? p k choices = some (if wake ≤ m.now ∧ choices.rest n = .work then
        ⟨.look, .beginning n⟩ else ⟨.look, concluded j.task (n + 1) (.ofError .interrupted)⟩)) ∧
    ((∀ x ∈ passages k later, ∀ n wake, x.source = .resting n wake → x.machine.now < wake) →
      begun k later = []) := by
  have hlate := h₀.exists_wakesLate hslots hj hlast h
  refine ⟨fun n hn => hlate n (.inr hn), fun m hm n wake ha choices => ?_, fun hearly => ?_⟩
  · have hsteps := h.steps_of_getLast? hlast hm
    exact nextMove?_of_resting hj ha (interrupted_of_steps hsteps h₀.interrupted) choices
  · refine List.eq_nil_iff_forall_not_mem.2 fun n hn => ?_
    obtain ⟨x, hx, wake, hsource, -, hwake, -⟩ := hlate n (.inr hn)
    exact absurd (hearly x hx n wake hsource) (Nat.not_lt.2 hwake)

end Machine

/-! ### An attempt that begins late -/

/-- Task `a` interrupts the run after 10 ms. The command of `b` cannot be started, and may be tried
twice with 10 ms in between. -/
def lateTasks : List TaskDefinition :=
  [.ofComputation ⟨"a"⟩ fun _ => .sleep (.ofMillis 10) fun _ => .trigger (.finish (.ok .null)),
    { TaskDefinition.ofCommand ⟨"b"⟩ { program := "sh", args := ["-c", "\x00"] } with
      retryPolicy := some ⟨.ofNat 1, .ofMillis 10⟩ }]

/-- Both tasks are handed over directly. -/
def latePlan : Plan :=
  .ofTasks lateTasks (fun _ _ => .error "nul byte found in provided data") default

/-- The start of both tasks, with two slots. -/
def lateStart : Machine := Machine.start latePlan 1 (Machine.world ⟨2, []⟩)

/-- Task `a` sleeps, `b` rests, and the time of both has come. -/
def lateRest : Machine :=
  let m := (Machine.move latePlan 1 {})^[5] ((Machine.move latePlan 0 {})^[6] lateStart)
  { m with now := max m.now 10 }

/-- Task `a` has woken and has just interrupted the run. -/
def lateMoment : Machine := ((Machine.move latePlan 0 {})^[1] lateRest).move latePlan 0 {}

/-- What happens from then on: task `b` goes on to its end. -/
def lateTrail : List Machine :=
  Machine.footsteps latePlan [lateMoment] (List.replicate 6 (.move 1 {}))

namespace Machine

/-- The actions lead to the rest of the late task. -/
lemma run_late : lateStart.run latePlan [.poll 0 {}, .poll 1 {}, .advance 10] = lateRest := by
  have hfirst : lateStart.poll latePlan 0 {} = (move latePlan 0 {})^[6] lateStart :=
    poll_eq_iterate 6 _ (by decide +kernel) (by decide +kernel)
  have hsecond : ((move latePlan 0 {})^[6] lateStart).poll latePlan 1 {} =
      (move latePlan 1 {})^[5] ((move latePlan 0 {})^[6] lateStart) :=
    poll_eq_iterate 5 _ (by decide +kernel) (by decide +kernel)
  have hopen : ∀ m : Machine, m.allEnded = false → m.closeIfEnded = m := by
    intro m hm
    rw [closeIfEnded, hm, if_neg Bool.false_ne_true]
  have hfirst' := hopen ((move latePlan 0 {})^[6] lateStart) (by decide +kernel)
  have hsecond' := hopen ((move latePlan 1 {})^[5] ((move latePlan 0 {})^[6] lateStart))
    (by decide +kernel)
  simp only [run, List.foldl_cons, List.foldl_nil, step, hfirst, hfirst', hsecond, hsecond',
    lateRest]

/-- The run has been interrupted at the late moment. -/
lemma triggered_late : Triggered latePlan 1 (Machine.world ⟨2, []⟩) lateMoment := by
  have hpolls : Polls latePlan 0 {} lateRest ((move latePlan 0 {})^[1] lateRest) :=
    polls_iterate 1 _ (by decide +kernel)
  rw [← run_late] at hpolls
  have hwhole : ∀ x ∈ [Action.poll 0 {}, .poll 1 {}, .advance 10], x.isWhole = true := by
    simp [Action.isWhole]
  have h := Triggered.within hwhole hpolls (by rw [run_late]; decide +kernel)
    (by rw [run_late]; decide +kernel)
  rwa [run_late] at h

/-- A trail leads to the late attempt. -/
lemma exists_trail_late :
    ∃ before, Trail latePlan 1 (Machine.world ⟨2, []⟩) (lateTrail ++ before) := by
  obtain ⟨before, h⟩ := triggered_late.reached.exists_trail
  refine ⟨before, ?_⟩
  rw [lateTrail, ← footsteps_append]
  exact h.footsteps _

/-- The second attempt of `b` has been brought to it after the interrupt, by its rest. -/
theorem late_attempt_is_woken : ∃ x ∈ passages 1 lateTrail, x.WakesLate 1 := by
  have hslots : Slots.ofLimit? 2 = .ok (Machine.world ⟨2, []⟩).slots := rfl
  obtain ⟨before, htrail⟩ := exists_trail_late
  obtain ⟨hlate, -, -⟩ := triggered_late.attempts_after hslots (k := 1) rfl
    (getLast?_footsteps _ _ _) htrail
  exact hlate 1 (by decide +kernel)

/-- **An attempt begins after the interrupt**: the second one of `b`, which finds that its rest is
over before it finds the run interrupted. -/
theorem attempt_begins_after_interrupt :
    Triggered latePlan 1 (Machine.world ⟨2, []⟩) lateMoment ∧
      lateTrail.getLast? = some lateMoment ∧
      (∃ before, Trail latePlan 1 (Machine.world ⟨2, []⟩) (lateTrail ++ before)) ∧
      begun 1 lateTrail = [1] ∧
      (lateTrail.head?.bind (·.resultOf? 1)).map (·.outcome) =
        some (.ofError (.notSpawned "sh" "nul byte found in provided data")) :=
  ⟨triggered_late, getLast?_footsteps _ _ _, exists_trail_late, by decide +kernel,
    by decide +kernel⟩

end Machine

end Taskflow
