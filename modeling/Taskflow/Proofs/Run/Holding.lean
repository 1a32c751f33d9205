import Mathlib.Data.Finset.Card
import Taskflow.Proofs.Run.Reach
set_option autoImplicit false

/-!
# Who holds the slots

In every reached machine the free slots and those that jobs hold add up to the limit, the line holds
exactly the jobs that wait for a slot, and nobody waits while a slot is free.

## Main definitions

* `Phase.claim` — whether a job in a phase holds a slot or waits for one.
* `Machine.holders` — the jobs that hold a slot.
* `Machine.Balanced` — the account of the slots.

## Main results

* `Machine.Moves.claim_eq` — a move changes the claim of its job as its deed says.
* `Machine.Balanced.step` — every small step keeps the account.
* `Machine.Reached.balanced` — the account holds in every reached machine.

## Design

A slot that is given back goes to the head of the line before it counts as free. The job that gets
it holds it from then on, although it has not noticed yet: the phase `granted` counts as holding.
-/

namespace Taskflow

/-! ### Claims -/

/-- What a job has to do with the slots. -/
inductive Claim where
  | none
  | queued
  | held
  deriving Repr, DecidableEq

/-- Whether a job in a phase holds a slot or waits for one. -/
def Phase.claim : Phase → Claim
  | .queued => .queued
  | .granted | .starting | .beginning _ | .attempting .. | .playing .. | .judging .. | .resting ..
  | .reporting .. | .completing .. | .releasing .. => .held
  | _ => .none

/-- Only a job in the line waits for a slot. -/
lemma Phase.claim_eq_queued {a : Phase} : a.claim = .queued ↔ a = .queued := by
  cases a <;> simp [claim]

/-- The slots for a limit are all free, and nobody stands in line. -/
lemma Slots.ofLimit?_eq_ok {limit : Nat} {slots : Slots} (h : Slots.ofLimit? limit = .ok slots) :
    slots = ⟨Slots.effectiveLimit limit, []⟩ := by
  unfold ofLimit? at h
  split at h
  · cases h; rfl
  · cases h

namespace Machine

variable {p : Plan} {j : Job} {s : JobState} {a : Phase} {i k : Nat} {choices : Choices}
  {m m' : Machine} {v : Move} {interval limit total : Nat} {world : Machine}

/-- Whose attempts are over still holds its slot. -/
lemma claim_concluded (t : TaskDefinition) (attempts : UInt32) (outcome : TaskOutcome) :
    (concluded t attempts outcome).claim = .held := by
  unfold concluded
  split <;> rfl

/-- **A move changes the claim of its job as its deed says.** -/
lemma Moves.claim_eq (h : Moves p j s m a v) :
    match v.deed with
    | .takeSlot => a.claim = .none ∧ v.phase.claim = .held ∧ 0 < m.slots.free
    | .joinLine => a.claim = .none ∧ v.phase.claim = .queued ∧ m.slots.free = 0
    | .leaveLine => a.claim = .queued ∧ v.phase.claim = .none
    | .giveSlot => a.claim = .held ∧ v.phase.claim = .none
    | _ => v.phase.claim = a.claim := by
  cases h with
  | keep attempts outcome =>
    rcases keepReport_cases j s outcome m with hd | ⟨files, hd⟩ | ⟨files, record, hd⟩ <;>
      simp only [hd] <;> rfl
  | take h => exact ⟨rfl, rfl, h⟩
  | join h => exact ⟨rfl, rfl, h⟩
  | leave | refuse | panic | release => exact ⟨rfl, rfl⟩
  | succeed | exhaust | stop => exact claim_concluded _ _ _
  | _ => rfl

/-! ### Holders -/

/-- The claim of job `i`. -/
def claimOf (m : Machine) (i : Nat) : Claim :=
  match m.phaseOf? i with
  | some phase => phase.claim
  | none => .none

/-- The jobs that hold a slot. -/
def holders (m : Machine) : Finset Nat :=
  (Finset.range m.jobs.size).filter fun i => m.claimOf i = .held

/-- What a job claims is told by its phase. -/
lemma claimOf_of_phaseOf? (h : m.phaseOf? i = some a) : m.claimOf i = a.claim := by
  rw [claimOf, h]

/-- A job holds a slot exactly if it claims so. -/
lemma mem_holders : i ∈ m.holders ↔ m.claimOf i = .held := by
  rw [holders, Finset.mem_filter, and_iff_right_iff_imp, Finset.mem_range]
  intro h
  by_contra hi
  rw [claimOf, phaseOf?, Array.getElem?_eq_none (Nat.le_of_not_lt hi)] at h
  cases h

/-- The holders after a change of the claim of job `i` to `held`. -/
lemma holders_insert (hi : m'.claimOf i = .held) (hk : ∀ k ≠ i, m'.claimOf k = m.claimOf k) :
    m'.holders = insert i m.holders := by
  ext k
  rw [Finset.mem_insert, mem_holders, mem_holders]
  by_cases h : k = i
  · simp [h, hi]
  · simp [h, hk k h]

/-- The holders after a change of the claim of job `i` to something else. -/
lemma holders_erase (hi : m'.claimOf i ≠ .held) (hk : ∀ k ≠ i, m'.claimOf k = m.claimOf k) :
    m'.holders = m.holders.erase i := by
  ext k
  rw [Finset.mem_erase, mem_holders, mem_holders]
  by_cases h : k = i
  · simp [h, hi]
  · simp [h, hk k h]

/-- Who holds slots depends on what the jobs claim. -/
lemma holders_congr (h : ∀ k, m'.claimOf k = m.claimOf k) : m'.holders = m.holders := by
  ext k
  rw [mem_holders, mem_holders, h k]

/-! ### The account -/

/-- The account of the slots: the line holds those who wait, each once, nobody waits while a slot is
free, and the free slots and those that are held make up `total`. -/
structure Balanced (total : Nat) (m : Machine) : Prop where
  line_nodup : m.slots.line.Nodup
  mem_line : ∀ i, i ∈ m.slots.line ↔ m.claimOf i = .queued
  line_eq_nil : 0 < m.slots.free → m.slots.line = []
  total_eq : m.slots.free + m.holders.card = total

/-- The account depends on the slots and the claims only. -/
lemma Balanced.congr (h : Balanced total m) (hslots : m'.slots = m.slots)
    (hclaims : ∀ k, m'.claimOf k = m.claimOf k) : Balanced total m' where
  line_nodup := hslots ▸ h.line_nodup
  mem_line k := by rw [hslots, hclaims, h.mem_line]
  line_eq_nil := hslots ▸ h.line_eq_nil
  total_eq := by rw [hslots, holders_congr hclaims, h.total_eq]

/-- Whoever stands at the head of the line is waiting. -/
lemma Balanced.phaseOf?_of_heir? (h : Balanced total m) {d : Deed} (hk : m.heir? d = some k) :
    m.phaseOf? k = some .queued := by
  have hmem : k ∈ m.slots.line := by
    unfold heir? at hk
    split at hk
    · exact List.mem_of_head? hk
    · cases hk
  have hclaim := (h.mem_line k).1 hmem
  unfold claimOf at hclaim
  split at hclaim
  next phase hphase => rw [hphase, Phase.claim_eq_queued.1 hclaim]
  next => cases hclaim

/-! ### What the deeds do to the account -/

section Deeds

variable (hb : Balanced total m) (hother : ∀ k ≠ i, m'.claimOf k = m.claimOf k)
include hb hother

/-- A free slot is taken. -/
lemma Balanced.take (hslots : m'.slots = m.slots.take) (hfree : 0 < m.slots.free)
    (hbefore : m.claimOf i = .none) (hafter : m'.claimOf i = .held) : Balanced total m' := by
  have hline := hb.line_eq_nil hfree
  have hline' : m'.slots.line = [] := by rw [hslots, Slots.take, hline]
  have hnot : i ∉ m.holders := by rw [mem_holders, hbefore]; simp
  refine ⟨hline' ▸ List.nodup_nil, fun k => ?_, fun _ => hline', ?_⟩
  · have hk := hb.mem_line k
    rw [hline] at hk
    rw [hline', hk]
    by_cases hki : k = i
    · rw [hki, hbefore, hafter]; simp
    · rw [hother k hki]
  · have htotal := hb.total_eq
    rw [holders_insert hafter hother, Finset.card_insert_of_notMem hnot, hslots]
    simp only [Slots.take]
    omega

/-- A job that holds nothing joins the line, as no slot is free. -/
lemma Balanced.join (hslots : m'.slots = m.slots.join i) (hfree : m.slots.free = 0)
    (hbefore : m.claimOf i = .none) (hafter : m'.claimOf i = .queued) : Balanced total m' := by
  have hnot : i ∉ m.slots.line := by rw [hb.mem_line, hbefore]; simp
  have hnot' : i ∉ m.holders := by rw [mem_holders, hbefore]; simp
  refine ⟨?_, fun k => ?_, fun h => ?_, ?_⟩
  · rw [hslots]
    exact List.nodup_append.2 ⟨hb.line_nodup, List.nodup_singleton i, fun x hx y hy hxy =>
      hnot (List.mem_singleton.1 hy ▸ hxy ▸ hx)⟩
  · rw [hslots, Slots.join, List.mem_append, List.mem_singleton, hb.mem_line]
    by_cases hk : k = i
    · simp [hk, hafter]
    · simp [hk, hother k hk]
  · rw [hslots, Slots.join, hfree] at h
    cases h
  · rw [holders_erase (by simp [hafter]) hother, Finset.erase_eq_of_notMem hnot', hslots]
    exact hb.total_eq

/-- A job that waits leaves the line. -/
lemma Balanced.leave (hslots : m'.slots = m.slots.leave i) (hbefore : m.claimOf i = .queued)
    (hafter : m'.claimOf i = .none) : Balanced total m' := by
  have hnot : i ∉ m.holders := by rw [mem_holders, hbefore]; simp
  refine ⟨?_, fun k => ?_, fun h => ?_, ?_⟩
  · rw [hslots]
    exact hb.line_nodup.erase i
  · rw [hslots, Slots.leave, hb.line_nodup.mem_erase_iff, hb.mem_line]
    by_cases hk : k = i
    · simp [hk, hafter]
    · simp [hk, hother k hk]
  · rw [hslots] at h ⊢
    rw [Slots.leave, hb.line_eq_nil h, List.erase_nil]
  · rw [holders_erase (by simp [hafter]) hother, Finset.erase_eq_of_notMem hnot, hslots]
    exact hb.total_eq

/-- A slot that is given back is free afterwards if nobody waits. -/
lemma Balanced.release (hslots : m'.slots = ⟨m.slots.free + 1, []⟩) (hline : m.slots.line = [])
    (hbefore : m.claimOf i = .held) (hafter : m'.claimOf i = .none) : Balanced total m' := by
  have hmem : i ∈ m.holders := by rw [mem_holders, hbefore]
  have hpos := Finset.card_pos.2 ⟨i, hmem⟩
  have htotal := hb.total_eq
  refine ⟨?_, fun k => ?_, fun _ => ?_, ?_⟩
  · rw [hslots]; exact List.nodup_nil
  · have hk := hb.mem_line k
    rw [hline] at hk
    rw [hslots, hk]
    by_cases hki : k = i
    · rw [hki, hbefore, hafter]; simp
    · rw [hother k hki]
  · rw [hslots]
  · rw [holders_erase (by simp [hafter]) hother, Finset.card_erase_of_mem hmem, hslots]
    simp only
    omega

omit hother in
/-- A slot that is given back goes to the head of the line if there is one. -/
lemma Balanced.handOver {rest : List Nat} (hslots : m'.slots = ⟨m.slots.free, rest⟩)
    (hline : m.slots.line = k :: rest) (hbefore : m.claimOf i = .held)
    (hafter : m'.claimOf i = .none) (hheir : m'.claimOf k = .held)
    (hother : ∀ x, x ≠ i → x ≠ k → m'.claimOf x = m.claimOf x) : Balanced total m' := by
  have hk : m.claimOf k = .queued := (hb.mem_line k).1 (by simp [hline])
  have hne : k ≠ i := by
    rintro rfl
    rw [hbefore] at hk
    cases hk
  have hnodup := hb.line_nodup
  rw [hline, List.nodup_cons] at hnodup
  have hmem : i ∈ m.holders := by rw [mem_holders, hbefore]
  have hnot : k ∉ m.holders.erase i := by
    rw [Finset.mem_erase, mem_holders, hk]
    simp
  have hholders : m'.holders = insert k (m.holders.erase i) := by
    ext x
    rw [Finset.mem_insert, Finset.mem_erase, mem_holders, mem_holders]
    by_cases hxi : x = i
    · simp [hxi, hafter, Ne.symm hne]
    · by_cases hxk : x = k
      · simp [hxk, hheir]
      · simp [hxi, hxk, hother x hxi hxk]
  have hpos := Finset.card_pos.2 ⟨i, hmem⟩
  have htotal := hb.total_eq
  refine ⟨?_, fun x => ?_, fun h => ?_, ?_⟩
  · rw [hslots]; exact hnodup.2
  · have hx := hb.mem_line x
    rw [hline, List.mem_cons] at hx
    rw [hslots]
    by_cases hxi : x = i
    · rw [hxi, hbefore] at hx
      simp only [reduceCtorEq, iff_false, not_or] at hx
      simp [hxi, hafter, hx.2]
    · by_cases hxk : x = k
      · simp [hxk, hheir, hnodup.1]
      · rw [hother x hxi hxk, ← hx]
        simp [hxk]
  · rw [hslots] at h
    rw [hb.line_eq_nil h] at hline
    cases hline
  · rw [hholders, Finset.card_insert_of_notMem hnot, Finset.card_erase_of_mem hmem, hslots]
    simp only
    omega

end Deeds

section Move

variable (hb : Balanced total m) (hv : m.nextMove? p i choices = some v)
include hb hv

/-- After a move, its job has the claim of its new phase, whoever gets its slot holds one, and all
other claims are as before. -/
lemma Balanced.claimOf_make (k : Nat) : (m.make p i v).claimOf k =
    if k = i then v.phase.claim else if m.heir? v.deed = some k then .held else m.claimOf k := by
  obtain ⟨j, s, hj, -, -⟩ := moves_of_nextMove? hv
  by_cases hk : k = i
  · subst hk
    rw [if_pos rfl, claimOf_of_phaseOf? (phaseOf?_make_self hv)]
  · rw [if_neg hk, claimOf, phaseOf?_make_of_ne hj (Ne.symm hk)]
    by_cases hheir : m.heir? v.deed = some k
    · simp only [if_pos hheir, hb.phaseOf?_of_heir? hheir]
      rfl
    · simp only [if_neg hheir]
      rfl

/-- A move keeps the account, by its deed. -/
lemma Balanced.make : Balanced total (m.make p i v) := by
  obtain ⟨j, s, hj, hs, hmove⟩ := moves_of_nextMove? hv
  have hclaims := hb.claimOf_make hv
  have hself : m.claimOf i = s.phase.claim := claimOf_of_phaseOf? hs
  have hafter : (m.make p i v).claimOf i = v.phase.claim := by rw [hclaims, if_pos rfl]
  have hother : m.heir? v.deed = none → ∀ k ≠ i, (m.make p i v).claimOf k = m.claimOf k :=
    fun h k hk => by rw [hclaims, if_neg hk, h, if_neg (by simp)]
  have hslots := make_slots (m := m) (v := v) hj
  have hmoved := hmove.claim_eq
  -- a deed that does not touch the slots leaves all claims alone
  have hframe (h₁ : (m.make p i v).slots = m.slots) (h₂ : m.heir? v.deed = none)
      (h₃ : v.phase.claim = s.phase.claim) : Balanced total (m.make p i v) := by
    refine hb.congr h₁ fun k => ?_
    by_cases hk : k = i
    · rw [hk, hafter, hself, h₃]
    · exact hother h₂ k hk
  generalize v.deed = d at hclaims hother hslots hmoved hframe
  cases d with
  | takeSlot =>
    exact hb.take (hother rfl) hslots hmoved.2.2 (hself.trans hmoved.1) (hafter.trans hmoved.2.1)
  | joinLine =>
    exact hb.join (hother rfl) hslots hmoved.2.2 (hself.trans hmoved.1) (hafter.trans hmoved.2.1)
  | leaveLine =>
    exact hb.leave (hother rfl) hslots (hself.trans hmoved.1) (hafter.trans hmoved.2)
  | giveSlot =>
    have hheld : m.claimOf i = .held := hself.trans hmoved.1
    have hnone : (m.make p i v).claimOf i = .none := hafter.trans hmoved.2
    cases hline : m.slots.line with
    | nil =>
      have hheir : m.heir? .giveSlot = none := by rw [heir?, hline]; rfl
      simp only [Slots.release, hline] at hslots
      exact hb.release (hother hheir) hslots hline hheld hnone
    | cons k rest =>
      have hheir : m.heir? .giveSlot = some k := by rw [heir?, hline]; rfl
      simp only [Slots.release, hline] at hslots
      have hk : m.claimOf k = .queued := (hb.mem_line k).1 (by simp [hline])
      have hne : k ≠ i := by
        rintro rfl
        rw [hheld] at hk
        cases hk
      refine hb.handOver hslots hline hheld hnone ?_ fun x hxi hxk => ?_
      · rw [hclaims, if_neg hne, if_pos hheir]
      · rw [hclaims, if_neg hxi, hheir, if_neg (by simpa using Ne.symm hxk)]
  | _ => exact hframe hslots rfl hmoved

end Move

/-- **Every small step keeps the account.** -/
theorem Balanced.step (hb : Balanced total m) (hs : Step p m m') : Balanced total m' := by
  cases hs with
  | move hv => exact hb.make hv
  | arrive hi hd hmem =>
    rename_i i d unseen arrived outcome
    refine hb.congr rfl fun k => ?_
    by_cases hk : i = k
    · subst hk
      have hi' := phaseOf?_setPhase m i i (.waiting (unseen.erase d) (arrived ++ [d]))
      rw [if_pos rfl, hi] at hi'
      rw [claimOf_of_phaseOf? hi', claimOf_of_phaseOf? hi]
      rfl
    · rw [claimOf, phaseOf?_setPhase, if_neg hk, claimOf]
  | ambient => exact hb.congr rfl fun _ => rfl

/-- Before the first step all slots are free. -/
lemma balanced_start (hslots : Slots.ofLimit? limit = .ok world.slots) :
    Balanced (Slots.effectiveLimit limit) (start p interval world) := by
  have hnone : ∀ k, (start p interval world).claimOf k = .none := by
    intro k
    rw [claimOf, start_phaseOf?]
    cases p.jobs[k]? with
    | none => rfl
    | some j =>
      simp only [Option.map_some, firstPhase]
      split <;> rfl
  have hholders : (start p interval world).holders = ∅ := by
    ext k
    rw [mem_holders, hnone]
    simp
  refine ⟨?_, fun k => ?_, fun _ => ?_, ?_⟩
  · rw [start_slots, Slots.ofLimit?_eq_ok hslots]; exact List.nodup_nil
  · rw [hnone, start_slots, Slots.ofLimit?_eq_ok hslots]; simp
  · rw [start_slots, Slots.ofLimit?_eq_ok hslots]
  · rw [hholders, start_slots, Slots.ofLimit?_eq_ok hslots]; rfl

/-- **The account holds in every reached machine.** -/
theorem Reached.balanced (hslots : Slots.ofLimit? limit = .ok world.slots)
    (h : Reached p interval world m) : Balanced (Slots.effectiveLimit limit) m := by
  induction h with
  | refl => exact balanced_start hslots
  | tail _ hs ih => exact ih.step hs

end Machine

end Taskflow
