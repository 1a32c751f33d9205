import Taskflow.Proofs.Run.Attempts
import Taskflow.Proofs.Run.Isolation
import Taskflow.Run.Journal
import Taskflow.Task.Computation
set_option autoImplicit false

/-!
# What a probe counts

A probe is a computation that is counted while it sleeps: it adds one to a counter before and takes
one off after. An interrupt drops a computation where it is, so a probe that is dropped in its sleep
never takes its one off again. What the counter shows is therefore what really goes on and, beside
it, all that has been dropped, in this run or in an earlier one.

## Main definitions

* `Phase.isProbing` — a probe has begun and has neither ended nor been dropped.
* `Machine.probing`, `Machine.dropped` — the probes that go on, and the number of those that were
  dropped.
* `Machine.Course` — the machines of runs that an executor carries out one after the other.

## Main results

* `Machine.Moves.probing` — a move begins a probe, ends one, drops one, or does none of it.
* `Machine.Step.accounts` — every step keeps account of the probes.
* `Machine.Course.sound` — the account holds on every course.
* `Machine.Course.probes_are_counted` — what the counters show.
* `Machine.dropped_probe_stays_counted` — a probe that was dropped is counted for ever.
-/

namespace Taskflow

/-! ### The phases of a probe -/

/-- What is left of a probe after its sleep. -/
def Computation.leaving : Attempt := .note .left (.finish (.ok .null))

/-- All jobs of a plan are probes. -/
def Plan.IsOfProbes (p : Plan) : Prop :=
  ∀ (k : Nat) (j : Job), p.jobs[k]? = some j → ∃ d, j.task.work = .computation (Computation.probe d)

namespace Phase

open Taskflow.Computation (probe leaving)

/-- A probe that stands here has begun, and it has neither ended nor been dropped. -/
def isProbing : Phase → Bool
  | .playing _ (.sleep ..) => true
  | .playing _ (.note .left _) => true
  | .attempting _ _ rest =>
    match rest () with
    | .note .left _ => true
    | _ => false
  | _ => false

/-- A job that stands here has just been interrupted in an attempt. -/
def isCut : Phase → Bool
  | .judging _ (.fail .interrupted) => true
  | _ => false

/-- Where a probe can stand within an attempt. -/
def OfProbe (d : Duration) : Phase → Prop
  | .attempting _ _ rest => rest () = probe d 0 ∨ rest () = leaving
  | .playing _ script => script = probe d 0 ∨ (script = .sleep d fun _ => leaving) ∨
      script = leaving ∨ script = .finish (.ok .null)
  | _ => True

/-- No job begins with a probe. -/
lemma ofProbe_firstPhase (d : Duration) (j : Job) : (Machine.firstPhase j).OfProbe d := by
  unfold Machine.firstPhase
  split <;> trivial

/-- A probe holds a slot. -/
lemma claim_of_isProbing {a : Phase} (h : a.isProbing = true) : a.claim = .held := by
  cases a <;> first | rfl | cases h

/-- A probe has not ended. -/
lemma not_hasEnded_of_isProbing {a : Phase} (h : a.isProbing = true) : a.hasEnded = false := by
  cases a <;> first | rfl | cases h

/-- A probe that runs was not cut short. -/
lemma not_isCut_of_isProbing {a : Phase} (h : a.isProbing = true) : a.isCut = false := by
  cases a <;> first | rfl | cases h

end Phase

namespace Machine

open Taskflow.Computation (probe leaving)

variable {p q : Plan} {j : Job} {s : JobState} {a : Phase} {i k total limit interval : Nat}
  {d : Duration} {m m' world : Machine} {ms ms' : List Machine} {v : Move}

/-- The phase that follows the attempts plays no probe. -/
lemma concluded_ofProbe (t : TaskDefinition) (n : UInt32) (outcome : TaskOutcome) :
    (concluded t n outcome).OfProbe d ∧ (concluded t n outcome).isProbing = false := by
  unfold concluded
  split <;> exact ⟨trivial, rfl⟩

/-- **A move begins a probe, ends one, drops one, or does none of it**, and only an interrupt makes
it drop one. -/
lemma Moves.probing (hw : j.task.work = .computation (probe d)) (h : Moves p j s m a v)
    (ha : a.OfProbe d) : v.phase.OfProbe d ∧
      match v.deed with
      | .jot .entered => a.isProbing = false ∧ v.phase.isProbing = true
      | .jot .left => a.isProbing = true ∧ v.phase.isProbing = false ∧ v.phase.isCut = false
      | .jot _ => False
      | _ => v.phase.isProbing = a.isProbing ∨
          a.isProbing = true ∧ v.phase.isProbing = false ∧ v.phase.isCut = true ∧
            m.interrupted = true := by
  cases h with
  | begin n script h =>
    rw [attemptScript, hw] at h
    cases h
    exact ⟨.inl rfl, .inl rfl⟩
  | resume n wake rest h =>
    obtain hrest | hrest := ha
    · refine ⟨.inl hrest, .inl ?_⟩
      simp only [Phase.isProbing, hrest]
      rfl
    · refine ⟨.inr (.inr (.inl hrest)), .inl ?_⟩
      simp only [Phase.isProbing, hrest]
      rfl
  | cancel n wake rest h =>
    obtain hrest | hrest := ha
    · refine ⟨trivial, .inl ?_⟩
      simp only [Phase.isProbing, hrest]
      rfl
    · refine ⟨trivial, .inr ⟨?_, rfl, rfl, h⟩⟩
      simp only [Phase.isProbing, hrest]
      rfl
  | doze n d' next =>
    obtain hscript | hscript | hscript | hscript := ha <;> cases hscript
    exact ⟨.inr (.inr (.inl rfl)), .inl rfl⟩
  | sleep n d' next wake =>
    obtain hscript | hscript | hscript | hscript := ha <;> cases hscript
    exact ⟨.inr rfl, .inl rfl⟩
  | note n note next =>
    obtain hscript | hscript | hscript | hscript := ha <;> cases hscript
    · exact ⟨.inr (.inl rfl), rfl, rfl⟩
    · exact ⟨.inr (.inr (.inr rfl)), rfl, rfl, rfl⟩
  | emit | trigger | files =>
    obtain hscript | hscript | hscript | hscript := ha <;> cases hscript
  | keep attempts outcome =>
    obtain hd | ⟨files, hd⟩ | ⟨files, record, hd⟩ := keepReport_cases j s outcome m <;>
      rw [hd] <;> exact ⟨trivial, .inl rfl⟩
  | succeed | exhaust | stop =>
    exact ⟨(concluded_ofProbe _ _ _).1, .inl (concluded_ofProbe (d := d) _ _ _).2⟩
  | _ => exact ⟨trivial, .inl rfl⟩

/-! ### The account of the probes -/

/-- Whether job `k` is a probe that goes on. -/
def isProbing (m : Machine) (k : Nat) : Bool := (m.phaseOf? k).any Phase.isProbing

/-- The probes that go on. -/
def probing (m : Machine) : Finset Nat := (Finset.range m.jobs.size).filter fun k => m.isProbing k

/-- The probes that go on in `m` and are dropped on the step to `m'`. -/
def cut (m m' : Machine) : Finset Nat := m.probing.filter fun k => (m'.phaseOf? k).any Phase.isCut

/-- How many probes have been dropped, in machines that follow one another, latest first. -/
def dropped : List Machine → Nat
  | m' :: m :: ms => (cut m m').card + dropped (m :: ms)
  | _ => 0

/-- How often a probe has begun, and how often one has ended. -/
def noted (m : Machine) (n : Note) : Nat := m.journal.countP fun e => decide (e.note = n)

/-- A job is counted as a probe exactly if it is one. -/
lemma mem_probing : k ∈ m.probing ↔ m.isProbing k = true := by
  rw [probing, Finset.mem_filter, and_iff_right_iff_imp, Finset.mem_range]
  intro h
  by_contra hk
  rw [isProbing, phaseOf?, Array.getElem?_eq_none (Nat.le_of_not_lt hk)] at h
  cases h

/-- Which probes run depends on the jobs. -/
lemma probing_congr (h : ∀ k, m'.isProbing k = m.isProbing k) : m'.probing = m.probing := by
  ext k
  rw [mem_probing, mem_probing, h k]

/-- A probe begins to run. -/
lemma probing_insert (hi : m'.isProbing i = true) (h : ∀ k ≠ i, m'.isProbing k = m.isProbing k) :
    m'.probing = insert i m.probing := by
  ext k
  rw [Finset.mem_insert, mem_probing, mem_probing]
  by_cases hk : k = i
  · simp [hk, hi]
  · simp [hk, h k hk]

/-- A probe ends. -/
lemma probing_erase (hi : m'.isProbing i = false) (h : ∀ k ≠ i, m'.isProbing k = m.isProbing k) :
    m'.probing = m.probing.erase i := by
  ext k
  rw [Finset.mem_erase, mem_probing, mem_probing]
  by_cases hk : k = i
  · simp [hk, hi]
  · simp [hk, h k hk]

/-- Whether a job is a probe is told by its phase. -/
lemma isProbing_of_phaseOf? (h : m.phaseOf? k = some a) : m.isProbing k = a.isProbing := by
  rw [isProbing, h, Option.any_some]

/-- A probe that goes on has not been dropped. -/
lemma not_isCut_of_isProbing (h : m.isProbing k = true) :
    (m.phaseOf? k).any Phase.isCut = false := by
  obtain ⟨a, ha, hprobing⟩ := (Option.any_eq_true _ _).1 h
  rw [ha, Option.any_some, Phase.not_isCut_of_isProbing hprobing]

/-- Nothing is dropped if all probes but `i` go on, and `i` is not interrupted in its sleep. -/
lemma cut_eq_empty (hi : m.isProbing i = true → (m'.phaseOf? i).any Phase.isCut = false)
    (h : ∀ k ≠ i, m'.isProbing k = m.isProbing k) : cut m m' = ∅ := by
  refine Finset.filter_eq_empty_iff.2 fun k hk => ?_
  rw [mem_probing] at hk
  by_cases hki : k = i
  · subst hki
    rw [hi hk]
    exact Bool.false_ne_true
  · rw [not_isCut_of_isProbing ((h k hki).trans hk)]
    exact Bool.false_ne_true

/-- A probe that is interrupted in its sleep is the only one that is dropped. -/
lemma cut_eq_singleton (hi : m.isProbing i = true) (hcut : (m'.phaseOf? i).any Phase.isCut = true)
    (h : ∀ k ≠ i, m'.isProbing k = m.isProbing k) : cut m m' = {i} := by
  ext k
  rw [cut, Finset.mem_filter, mem_probing, Finset.mem_singleton]
  refine ⟨fun hk => ?_, fun hk => hk ▸ ⟨hi, hcut⟩⟩
  by_contra hki
  rw [not_isCut_of_isProbing ((h k hki).trans hk.1)] at hk
  exact Bool.false_ne_true hk.2

/-- A move does not touch other probes. -/
lemma isProbing_make_of_ne (hb : Balanced total m) (hj : p.jobs[i]? = some j) (hk : k ≠ i) :
    (m.make p i v).isProbing k = m.isProbing k := by
  rw [isProbing, phaseOf?_make_of_ne hj (Ne.symm hk)]
  split_ifs with hheir
  · rw [isProbing, hb.phaseOf?_of_heir? hheir]
    rfl
  · rfl

/-- A step notes one thing at most. -/
lemma Step.journal_eq (hs : Step p m m') :
    m'.journal = m.journal ∨ ∃ e, m'.journal = e :: m.journal := by
  cases hs with
  | move hv =>
    obtain ⟨j, s, hj, -, -⟩ := moves_of_nextMove? hv
    rw [make_journal hj]
    split
    · exact .inr ⟨_, rfl⟩
    · exact .inl rfl
  | arrive => exact .inl rfl
  | ambient => exact .inl rfl

/-! ### Where probes can stand -/

/-- Every probe of the plan stands where a probe can stand. -/
def PlaysProbes (p : Plan) (m : Machine) : Prop :=
  ∀ (k : Nat) (j : Job) (d : Duration) (a : Phase), p.jobs[k]? = some j →
    j.task.work = .computation (probe d) → m.phaseOf? k = some a → a.OfProbe d

/-- At the start of a run no probe has begun. -/
lemma playsProbes_start : PlaysProbes p (start p interval world) := by
  intro k j d a hj _ ha
  rw [start_phaseOf?, hj] at ha
  cases ha
  exact Phase.ofProbe_firstPhase d j

/-- A step leads to where a probe can stand. -/
lemma PlaysProbes.step (hm : m.PlaysProbes p) (hb : Balanced total m) (hs : Step p m m') :
    m'.PlaysProbes p := by
  intro k j d b hj hw hb'
  obtain ⟨a, ha⟩ : ∃ a, m.phaseOf? k = some a := by
    rw [← Option.isSome_iff_exists, ← hs.isSome_phaseOf?, hb']
    rfl
  obtain ⟨c, b₁, hturn, hb₁, -⟩ := hs.turn hb hj ha
  obtain rfl : b₁ = b := Option.some.inj (hb₁.symm.trans hb')
  have hstands := hm k j d a hj hw ha
  cases hturn with
  | stay => exact hstands
  | grant => trivial
  | hear => trivial
  | move h => exact (h.probing hw hstands).1

/-! ### The account of a step -/

/-- Whoever begins is counted and goes on; whoever ends is counted and does not go on any more; and
whoever is dropped does not go on either. -/
def Accounts (m m' : Machine) : Prop :=
  m'.noted .entered + m.noted .left + m.probing.card =
    m.noted .entered + m'.noted .left + m'.probing.card + (cut m m').card

/-- A note that is left is counted. -/
lemma noted_of_cons {e : JournalEntry} (h : m'.journal = e :: m.journal) (n : Note) :
    m'.noted n = m.noted n + if e.note = n then 1 else 0 := by
  rw [noted, h, List.countP_cons, noted]
  simp only [decide_eq_true_iff]

section Flags

variable (hother : ∀ k ≠ i, m'.isProbing k = m.isProbing k)
include hother

/-- Nothing happens to the probes. -/
lemma accounts_of_eq (hi : m'.isProbing i = m.isProbing i) (hjournal : m'.journal = m.journal) :
    Accounts m m' ∧ cut m m' = ∅ := by
  have hall : ∀ k, m'.isProbing k = m.isProbing k := fun k => by
    by_cases hk : k = i
    · rw [hk, hi]
    · exact hother k hk
  have hcut : cut m m' = ∅ :=
    cut_eq_empty (fun h => not_isCut_of_isProbing (hi.trans h)) hother
  refine ⟨?_, hcut⟩
  rw [Accounts, hcut, probing_congr hall, noted, noted, noted, noted, hjournal, Finset.card_empty]
  omega

/-- A probe begins. -/
lemma accounts_of_entered {e : JournalEntry} (hjournal : m'.journal = e :: m.journal)
    (he : e.note = .entered) (hbefore : m.isProbing i = false) (hafter : m'.isProbing i = true) :
    Accounts m m' ∧ cut m m' = ∅ := by
  have hcut : cut m m' = ∅ := cut_eq_empty (fun h => by rw [hbefore] at h; cases h) hother
  have hnot : i ∉ m.probing := by rw [mem_probing, hbefore]; exact Bool.false_ne_true
  refine ⟨?_, hcut⟩
  rw [Accounts, hcut, probing_insert hafter hother, Finset.card_insert_of_notMem hnot,
    noted_of_cons hjournal, noted_of_cons hjournal, he, Finset.card_empty]
  simp
  omega

/-- A probe ends. -/
lemma accounts_of_left {e : JournalEntry} (hjournal : m'.journal = e :: m.journal)
    (he : e.note = .left) (hbefore : m.isProbing i = true) (hafter : m'.isProbing i = false)
    (hnotCut : (m'.phaseOf? i).any Phase.isCut = false) : Accounts m m' ∧ cut m m' = ∅ := by
  have hcut : cut m m' = ∅ := cut_eq_empty (fun _ => hnotCut) hother
  have hmem : i ∈ m.probing := mem_probing.2 hbefore
  have hpos := Finset.card_pos.2 ⟨i, hmem⟩
  refine ⟨?_, hcut⟩
  rw [Accounts, hcut, probing_erase hafter hother, Finset.card_erase_of_mem hmem,
    noted_of_cons hjournal, noted_of_cons hjournal, he, Finset.card_empty]
  simp
  omega

/-- A probe is dropped. -/
lemma accounts_of_cut (hjournal : m'.journal = m.journal) (hbefore : m.isProbing i = true)
    (hafter : m'.isProbing i = false) (hcut : (m'.phaseOf? i).any Phase.isCut = true) :
    Accounts m m' := by
  have hmem : i ∈ m.probing := mem_probing.2 hbefore
  have hpos := Finset.card_pos.2 ⟨i, hmem⟩
  rw [Accounts, cut_eq_singleton hbefore hcut hother, probing_erase hafter hother,
    Finset.card_erase_of_mem hmem, Finset.card_singleton, noted, noted, noted, noted, hjournal]
  omega

end Flags

/-- **Every step keeps account of the probes**, and nobody is dropped as long as the run is not
interrupted. -/
lemma Step.accounts (hm : m.PlaysProbes p) (hp : p.IsOfProbes) (hb : Balanced total m)
    (hs : Step p m m') : Accounts m m' ∧ (m.interrupted = false → cut m m' = ∅) := by
  cases hs with
  | move hv =>
    rename_i i choices v
    obtain ⟨j, s, hj, hphase, hmove⟩ := moves_of_nextMove? hv
    obtain ⟨d, hw⟩ := hp i j hj
    have hcase := (hmove.probing hw (hm i j d _ hj hw hphase)).2
    have hbefore := isProbing_of_phaseOf? hphase
    have hafter := isProbing_of_phaseOf? (phaseOf?_make_self hv)
    have hcut : ((m.make p i v).phaseOf? i).any Phase.isCut = v.phase.isCut := by
      rw [phaseOf?_make_self hv, Option.any_some]
    have hother : ∀ k ≠ i, (m.make p i v).isProbing k = m.isProbing k :=
      fun k hk => isProbing_make_of_ne hb hj hk
    have hjournal := make_journal (m := m) (v := v) hj
    generalize v.deed = deed at hcase hjournal
    cases deed with
    | jot note =>
      cases note with
      | entered =>
        obtain ⟨h, h'⟩ := hcase
        exact (accounts_of_entered hother hjournal rfl (hbefore.trans h)
          (hafter.trans h')).imp_right fun h _ => h
      | left =>
        obtain ⟨h, h', hnotCut⟩ := hcase
        exact (accounts_of_left hother hjournal rfl (hbefore.trans h) (hafter.trans h')
          (hcut.trans hnotCut)).imp_right fun h _ => h
      | began | ended | called => exact hcase.elim
    | _ =>
      obtain h | ⟨h, h', hdropped, hinterrupted⟩ := hcase
      · exact (accounts_of_eq hother (hafter.trans (h.trans hbefore.symm)) hjournal).imp_right
          fun h _ => h
      · refine ⟨accounts_of_cut hother hjournal (hbefore.trans h) (hafter.trans h')
          (hcut.trans hdropped), fun hnot => ?_⟩
        rw [hinterrupted] at hnot
        cases hnot
  | arrive hi hd hmem =>
    rename_i i d unseen arrived outcome
    have hphase := phaseOf?_setPhase m i i (.waiting (unseen.erase d) (arrived ++ [d]))
    have hjournal : (m.setPhase i (.waiting (unseen.erase d) (arrived ++ [d]))).journal =
      m.journal := rfl
    rw [if_pos rfl, hi] at hphase
    refine (accounts_of_eq (i := i) (fun k hk => ?_) ?_ hjournal).imp_right fun h _ => h
    · rw [isProbing, phaseOf?_setPhase, if_neg (Ne.symm hk), isProbing]
    · rw [isProbing_of_phaseOf? hphase, isProbing_of_phaseOf? hi]
      rfl
  | ambient => exact (accounts_of_eq (i := 0) (fun _ _ => rfl) rfl rfl).imp_right fun h _ => h

/-! ### Runs one after the other -/

/-- The machines that an executor comes through, latest first, while it carries out runs one after
the other. Slots, interrupt and counters are those of the machine at the end of the run before. -/
inductive Course (limit : Nat) : Plan → List Machine → Prop
  | fresh {slots : Slots} (launch : Launcher) (h : Slots.ofLimit? limit = .ok slots) :
    Course limit ⟨#[], launch⟩ [Machine.world slots]
  | start {p q : Plan} {m : Machine} {ms : List Machine} {interval : Nat}
    (h : Course limit p (m :: ms)) (hall : m.allEnded = true) (hq : q.IsOfProbes) :
    Course limit q (start q interval m :: m :: ms)
  | step {p : Plan} {m m' : Machine} {ms : List Machine} (h : Course limit p (m :: ms))
    (hs : Step p m m') : Course limit p (m' :: m :: ms)

/-- No probe goes on before the first step of a run. -/
lemma probing_start : (start p interval world).probing = ∅ := by
  ext k
  rw [mem_probing, isProbing, start_phaseOf?]
  cases p.jobs[k]? with
  | none => simp
  | some j =>
    simp only [Option.map_some, Option.any_some, firstPhase]
    split <;> simp [Phase.isProbing]

/-- No probe goes on when all jobs have ended. -/
lemma probing_of_allEnded (h : m.allEnded = true) : m.probing = ∅ := by
  ext k
  rw [mem_probing]
  refine iff_of_false (fun hk => ?_) (Finset.notMem_empty k)
  obtain ⟨a, ha, hprobing⟩ := (Option.any_eq_true _ _).1 hk
  have hended := allEnded_iff.1 h k a ha
  rw [Phase.not_hasEnded_of_isProbing hprobing] at hended
  cases hended

/-- Nothing has been counted when a run begins that had not been counted before. -/
lemma noted_start (n : Note) : (start p interval world).noted n = world.noted n := by
  rw [noted, start_journal, noted]

/-- What holds of the latest machine of a course. -/
structure Sound (limit : Nat) (p : Plan) (m : Machine) (ms : List Machine) : Prop where
  limit_eq : Slots.ofLimit? limit = .ok ⟨Slots.effectiveLimit limit, []⟩
  probes : p.IsOfProbes
  plays : m.PlaysProbes p
  balanced : Balanced (Slots.effectiveLimit limit) m
  entered_eq : m.noted .entered = m.noted .left + m.probing.card + dropped (m :: ms)
  dropped_eq : m.interrupted = false → dropped (m :: ms) = 0

/-- At the beginning of the world nothing has been counted. -/
lemma sound_world (hlimit : Slots.ofLimit? limit = .ok ⟨Slots.effectiveLimit limit, []⟩)
    (launch : Launcher) :
    Sound limit ⟨#[], launch⟩ (Machine.world ⟨Slots.effectiveLimit limit, []⟩) [] where
  limit_eq := hlimit
  probes _ _ hj := by simp at hj
  plays _ _ _ _ hj := by simp at hj
  balanced := ⟨List.nodup_nil, fun _ => iff_of_false List.not_mem_nil nofun, fun _ => rfl, rfl⟩
  entered_eq := rfl
  dropped_eq _ := rfl

/-- A run begins when the one before it is over. -/
lemma Sound.start (h : Sound limit p m ms) (hall : m.allEnded = true) (hq : q.IsOfProbes) :
    Sound limit q (Machine.start q interval m) (m :: ms) := by
  have hcut : cut m (Machine.start q interval m) = ∅ := by
    rw [cut, probing_of_allEnded hall, Finset.filter_empty]
  have hslots : Slots.ofLimit? limit = .ok m.slots := by
    rw [h.balanced.slots_of_allEnded hall]
    exact h.limit_eq
  have hentered := h.entered_eq
  refine ⟨h.limit_eq, hq, playsProbes_start, balanced_start hslots, ?_, fun hm => ?_⟩
  · rw [probing_of_allEnded hall] at hentered
    rw [noted_start, noted_start, probing_start, dropped, hcut, hentered, Finset.card_empty,
      Nat.zero_add]
  · rw [start_interrupted] at hm
    rw [dropped, hcut, h.dropped_eq hm, Finset.card_empty]

/-- A step keeps account. -/
lemma Sound.step (h : Sound limit p m ms) (hs : Step p m m') : Sound limit p m' (m :: ms) := by
  obtain ⟨haccount, hnone⟩ := hs.accounts h.plays h.probes h.balanced
  refine ⟨h.limit_eq, h.probes, h.plays.step h.balanced hs, h.balanced.step hs, ?_, fun hm' => ?_⟩
  · have hentered := h.entered_eq
    rw [Accounts] at haccount
    rw [dropped]
    omega
  · have hm := not_interrupted_of_steps (.single hs) hm'
    rw [dropped, hnone hm, h.dropped_eq hm, Finset.card_empty]

/-- **The account of the probes holds on every course.** -/
lemma Course.sound (h : Course limit p (m :: ms)) : Sound limit p m ms := by
  generalize hl : m :: ms = l at h
  induction h generalizing m ms with
  | fresh launch hslots =>
    cases hl
    obtain rfl := Slots.ofLimit?_eq_ok hslots
    exact sound_world hslots launch
  | start h hall hq ih =>
    cases hl
    exact (ih rfl).start hall hq
  | step h hs ih =>
    cases hl
    exact (ih rfl).step hs

/-- What the counter shows is what goes on and what has been dropped. -/
lemma Course.current_eq (h : Course limit p (m :: ms)) :
    Journal.current m.journal = m.probing.card + dropped (m :: ms) := by
  have hentered := h.sound.entered_eq
  show m.noted .entered - m.noted .left = _
  omega

/-- At most as many probes go on as there are slots. -/
lemma Balanced.card_probing_le (h : Balanced total m) : m.probing.card ≤ total := by
  have hsub : m.probing ⊆ m.holders := by
    intro k hk
    obtain ⟨a, ha, hprobing⟩ := (Option.any_eq_true _ _).1 (mem_probing.1 hk)
    rw [mem_holders, claimOf_of_phaseOf? ha]
    exact Phase.claim_of_isProbing hprobing
  have hle := Finset.card_le_card hsub
  have htotal := h.total_eq
  omega

/-! ### Earlier machines -/

/-- A machine of a course and what is before it are a course. -/
lemma Course.of_suffix (h : Course limit p (m :: ms)) (hsuffix : m' :: ms' <:+ m :: ms) :
    ∃ q, Course limit q (m' :: ms') := by
  generalize hl : m :: ms = l at h hsuffix
  induction h generalizing m ms with
  | fresh launch hslots =>
    cases hl
    obtain ⟨rfl, rfl⟩ : m' = _ ∧ ms' = [] := by simpa [List.suffix_cons_iff] using hsuffix
    exact ⟨_, Course.fresh launch hslots⟩
  | start h hall hq ih =>
    obtain heq | hsuffix := List.suffix_cons_iff.1 hsuffix
    · cases heq
      exact ⟨_, Course.start h hall hq⟩
    · exact ih rfl hsuffix
  | step h hs ih =>
    obtain heq | hsuffix := List.suffix_cons_iff.1 hsuffix
    · cases heq
      exact ⟨_, Course.step h hs⟩
    · exact ih rfl hsuffix

/-- What has been dropped stays dropped. -/
lemma dropped_le_of_suffix {l l' : List Machine} (h : l' <:+ l) : dropped l' ≤ dropped l := by
  induction l with
  | nil => rw [List.suffix_nil.1 h]
  | cons m ms ih =>
    obtain rfl | h := List.suffix_cons_iff.1 h
    · exact Nat.le_refl _
    · refine Nat.le_trans (ih h) ?_
      cases ms with
      | nil => exact Nat.zero_le _
      | cons m' ms => exact Nat.le_add_left _ _

/-- Every machine of a course has some before it. -/
lemma exists_suffix_of_mem (h : m ∈ ms) : ∃ ms', m :: ms' <:+ ms := by
  obtain ⟨before, after, rfl⟩ := List.append_of_mem h
  exact ⟨after, List.suffix_append before (m :: after)⟩

/-- A machine adds its own count, unless it has the journal of the one before it. -/
lemma peak_le_cons_iff {n : Nat}
    (hjournal : m'.journal = m.journal ∨ ∃ e, m'.journal = e :: m.journal)
    (ih : Journal.peak m.journal ≤ n ↔
      ∀ m₁ ms₁, m₁ :: ms₁ <:+ m :: ms → Journal.current m₁.journal ≤ n) :
    Journal.peak m'.journal ≤ n ↔
      ∀ m₁ ms₁, m₁ :: ms₁ <:+ m' :: m :: ms → Journal.current m₁.journal ≤ n := by
  have hsplit : (∀ m₁ ms₁, m₁ :: ms₁ <:+ m' :: m :: ms → Journal.current m₁.journal ≤ n) ↔
      Journal.current m'.journal ≤ n ∧ Journal.peak m.journal ≤ n := by
    rw [ih]
    constructor
    · intro h
      exact ⟨h _ _ List.suffix_rfl, fun m₁ ms₁ hs => h _ _ (hs.trans (List.suffix_cons _ _))⟩
    · intro h m₁ ms₁ hs
      obtain heq | hs := List.suffix_cons_iff.1 hs
      · cases heq
        exact h.1
      · exact h.2 _ _ hs
  rw [hsplit]
  obtain hjournal | ⟨e, hjournal⟩ := hjournal
  · rw [hjournal, iff_and_self, ih]
    exact fun h => h _ _ List.suffix_rfl
  · rw [hjournal, Journal.peak, Nat.max_le]

/-- **The greatest count** is that of one of the machines of the course. -/
lemma Course.peak_le_iff (h : Course limit p (m :: ms)) (n : Nat) :
    Journal.peak m.journal ≤ n ↔
      ∀ m' ms', m' :: ms' <:+ m :: ms → Journal.current m'.journal ≤ n := by
  generalize hl : m :: ms = l at h
  induction h generalizing m ms with
  | fresh launch hslots =>
    cases hl
    refine iff_of_true (Nat.zero_le _) fun m' ms' hs => ?_
    obtain ⟨rfl, -⟩ : m' = _ ∧ ms' = [] := by simpa [List.suffix_cons_iff] using hs
    exact Nat.zero_le _
  | start h hall hq ih =>
    cases hl
    exact peak_le_cons_iff (.inl start_journal) (ih rfl)
  | step h hs ih =>
    cases hl
    exact peak_le_cons_iff hs.journal_eq (ih rfl)

/-! ### What the counters show -/

/-- **A probe counts what goes on and what has been dropped.** Whenever an executor carries out
probes, in one run or in several, the counter shows the number of those that go on and of all that
an interrupt has dropped in their sleep, and the greatest count is the greatest such number so far.
At most as many probes go on as the limit allows. As long as nothing has been dropped, and so at
least as long as nobody has interrupted the executor, the counter shows what goes on, which is
nothing when all jobs have ended, and the greatest count is the greatest number of probes that went
on at once, which is within the limit.

**Proof sketch.** Every step keeps the account: a move begins a probe, ends one, drops one, or does
none of it, and the other probes stay where they are. A new count is noted only by a probe that
begins or ends, so the greatest count is that of some machine. -/
theorem Course.probes_are_counted (h : Course limit p (m :: ms)) :
    Journal.current m.journal = m.probing.card + dropped (m :: ms) ∧
    (∀ n, Journal.peak m.journal ≤ n ↔ ∀ m' ms', m' :: ms' <:+ m :: ms →
      m'.probing.card + dropped (m' :: ms') ≤ n) ∧
    (∀ m' ∈ m :: ms, m'.probing.card ≤ Slots.effectiveLimit limit) ∧
    (m.allEnded = true → m.probing = ∅) ∧
    (m.interrupted = false → dropped (m :: ms) = 0) ∧
    (dropped (m :: ms) = 0 →
      Journal.current m.journal = m.probing.card ∧
      (m.allEnded = true → Journal.current m.journal = 0) ∧
      (∀ n, Journal.peak m.journal ≤ n ↔ ∀ m' ∈ m :: ms, m'.probing.card ≤ n) ∧
      Journal.peak m.journal ≤ Slots.effectiveLimit limit) := by
  have hcurrent := h.current_eq
  have hpeak : ∀ n, Journal.peak m.journal ≤ n ↔ ∀ m' ms', m' :: ms' <:+ m :: ms →
      m'.probing.card + dropped (m' :: ms') ≤ n := by
    intro n
    rw [h.peak_le_iff]
    refine forall_congr' fun m' => forall_congr' fun ms' => forall_congr' fun hs => ?_
    obtain ⟨q, hq⟩ := h.of_suffix hs
    rw [hq.current_eq]
  have hlimit : ∀ m' ∈ m :: ms, m'.probing.card ≤ Slots.effectiveLimit limit := by
    intro m' hmem
    obtain ⟨ms', hs⟩ := exists_suffix_of_mem hmem
    obtain ⟨q, hq⟩ := h.of_suffix hs
    exact hq.sound.balanced.card_probing_le
  refine ⟨hcurrent, hpeak, hlimit, probing_of_allEnded, h.sound.dropped_eq, fun hnone => ?_⟩
  have hbusiest : ∀ n, Journal.peak m.journal ≤ n ↔ ∀ m' ∈ m :: ms, m'.probing.card ≤ n := by
    intro n
    rw [hpeak]
    constructor
    · intro hall m' hmem
      obtain ⟨ms', hs⟩ := exists_suffix_of_mem hmem
      exact Nat.le_trans (Nat.le_add_right _ _) (hall m' ms' hs)
    · intro hall m' ms' hs
      have hle := dropped_le_of_suffix hs
      rw [hnone, Nat.le_zero] at hle
      rw [hle]
      exact hall m' (hs.subset List.mem_cons_self)
  refine ⟨by rw [hcurrent, hnone, Nat.add_zero], fun hall => ?_, hbusiest, (hbusiest _).2 hlimit⟩
  rw [hcurrent, hnone, probing_of_allEnded hall]
  rfl

/-- A trail of probes is a part of a course. -/
lemma Course.append_trail {ws : List Machine} (h : Course limit p (world :: ws))
    (hall : world.allEnded = true) (hq : q.IsOfProbes) (htrail : Trail q interval world ms) :
    Course limit q (ms ++ world :: ws) := by
  induction htrail with
  | start => exact .start h hall hq
  | step _ hs ih => exact .step ih hs

end Machine

/-! ### Probes of 100 ms -/

/-- A probe of 100 ms. -/
def probeTask (id : String) : TaskDefinition :=
  .ofComputation ⟨id⟩ (Computation.probe (.ofMillis 100))

/-- Probes that are handed over directly. -/
def probePlan (ids : List String) : Plan :=
  .ofTasks (ids.map probeTask) (fun _ _ => .error "") default

/-- The world before anything has happened, with one slot. -/
def probeWorld : Machine := Machine.world ⟨1, []⟩

/-- A run of probes, from its start on. -/
def probeCourse (ids : List String) (actions : List Action) : List Machine :=
  Machine.footsteps (probePlan ids) [Machine.start (probePlan ids) 1 probeWorld] actions ++
    [probeWorld]

/-- The first probe falls asleep; then something happens, and it goes on to its end. -/
def wokenBy (event : Action) : List Action :=
  List.replicate 7 (.move 0 {}) ++ event :: List.replicate 7 (.move 0 {})

/-- The second probe looks for an interrupt while the first one sleeps. Then there is one, and when
the first one has been dropped, the second takes its slot. -/
def tooLate : List Action :=
  List.replicate 7 (.move 0 {}) ++ .move 1 {} :: .trigger ::
    (List.replicate 7 (.move 0 {}) ++ List.replicate 12 (.move 1 {}))

namespace Machine

/-- All tasks of this plan are probes. -/
lemma isOfProbes_probePlan (ids : List String) : (probePlan ids).IsOfProbes := by
  intro k j hj
  rw [probePlan, Plan.ofTasks, List.getElem?_toArray, List.map_map, List.getElem?_map] at hj
  obtain ⟨id, -, rfl⟩ := Option.map_eq_some_iff.1 hj
  exact ⟨.ofMillis 100, rfl⟩

/-- The run is a course of probes. -/
lemma course_probe (ids : List String) (actions : List Action) :
    Course 1 (probePlan ids) (probeCourse ids actions) := by
  have hfresh : Course 1 ⟨#[], (probePlan ids).launch⟩ [probeWorld] := .fresh _ rfl
  exact hfresh.append_trail (by decide +kernel) (isOfProbes_probePlan ids)
    (Trail.start.footsteps actions)

/-- A probe that sleeps to its end is not counted any more. -/
theorem probe_is_counted : ∃ m ms, Course 1 (probePlan ["a"]) (m :: ms) ∧ m.allEnded = true ∧
    Journal.current m.journal = 0 ∧ Journal.peak m.journal ≤ 1 := by
  have hcourse := course_probe ["a"] (wokenBy (.advance 100))
  have hended : (probeCourse ["a"] (wokenBy (.advance 100))).head?.map (·.allEnded) =
      some true := by decide +kernel
  have hdropped : dropped (probeCourse ["a"] (wokenBy (.advance 100))) = 0 := by decide +kernel
  generalize probeCourse ["a"] (wokenBy (.advance 100)) = ms at hcourse hended hdropped
  cases ms with
  | nil => cases hended
  | cons m ms =>
    have hall : m.allEnded = true := Option.some.inj hended
    obtain ⟨-, -, -, -, -, hcounted⟩ := Course.probes_are_counted hcourse
    obtain ⟨-, hnothing, -, hpeak⟩ := hcounted hdropped
    exact ⟨m, ms, hcourse, hall, hnothing hall, hpeak⟩

/-- **A probe that was dropped is counted for ever**: when all jobs have ended and no probe goes on,
the counter shows one. With a probe that comes too late to see the interrupt, the greatest count is
two, though there is one slot. -/
theorem dropped_probe_stays_counted :
    Course 1 (probePlan ["a"]) (probeCourse ["a"] (wokenBy .trigger)) ∧
    (probeCourse ["a"] (wokenBy .trigger)).head?.map
      (fun m => (m.allEnded, m.probing.card, Journal.current m.journal)) = some (true, 0, 1) ∧
    Course 1 (probePlan ["a", "b"]) (probeCourse ["a", "b"] tooLate) ∧
    (probeCourse ["a", "b"] tooLate).head?.map
      (fun m => (m.allEnded, Journal.peak m.journal)) = some (true, 2) :=
  ⟨course_probe _ _, by decide +kernel, course_probe _ _, by decide +kernel⟩

end Machine

end Taskflow
