import Taskflow.Proofs.Run.Turn
set_option autoImplicit false

/-!
# What a phase says about the dependencies

A job that has been handed over for execution has seen all its dependencies succeed; one that is
blocked can name a dependency that failed or was blocked; one that was interrupted while it waited
was either told to stop or has heard from a dependency that was interrupted.

## Main definitions

* `Job.awaited` — the jobs on which a job depends.
* `Phase.Gated` — what a phase says about them.

## Main results

* `Machine.Reached.gated` — in every reached machine a phase says the truth.
-/

namespace Taskflow

/-- The jobs on which a job depends. -/
def Job.awaited (j : Job) : List Nat := j.gate.getD []

namespace Machine

/-- Job `d` came to an end that keeps others from starting. -/
def DidNotSucceed (m : Machine) (d : Nat) : Prop :=
  m.outcomeOf? d = some .failed ∨ m.outcomeOf? d = some .blocked

/-- Everything on which job `j` depends has succeeded. -/
def AllSucceeded (m : Machine) (j : Job) : Prop :=
  ∀ d ∈ j.awaited, m.outcomeOf? d = some .succeeded

/-- Job `j`, which has emitted `told`, is blocked and says by which dependency. -/
def IsBlamed (p : Plan) (j : Job) (m : Machine) (told : List TaskChange) : Prop :=
  ∃ d ∈ j.awaited, m.DidNotSucceed d ∧ .blocked (p.idAt d j.task) ∈ told

/-- Job `j` had a reason to end as interrupted before it was handed over. -/
def IsCutShort (m : Machine) (j : Job) : Prop :=
  m.interrupted = true ∨ ∃ d ∈ j.awaited, m.outcomeOf? d = some .interrupted

end Machine

open Machine

/-- What the phase of job `j`, which has emitted `told`, says about its dependencies. -/
def Phase.Gated (p : Plan) (j : Job) (m : Machine) (told : List TaskChange) : Phase → Prop
  | .waiting unseen arrived =>
    (∀ d ∈ j.awaited, d ∈ unseen ∨ d ∈ arrived ∨ m.outcomeOf? d = some .succeeded) ∧
      (∀ d ∈ unseen, d ∈ j.awaited) ∧
      ∀ d ∈ arrived, d ∈ j.awaited ∧ ∃ o, m.outcomeOf? d = some o
  | .blocking d => d ∈ j.awaited ∧ m.DidNotSucceed d
  | .settling outcome none | .ended outcome none =>
    outcome = .blocked ∧ IsBlamed p j m told ∨ outcome = .interrupted ∧ m.IsCutShort j
  | _ => m.AllSucceeded j

namespace Machine

variable {p : Plan} {j : Job} {a b : Phase} {k : Nat} {m m' : Machine} {c : Option TaskChange}
  {told : List TaskChange} {interval limit : Nat} {world : Machine}

/-- Who did not succeed has not succeeded. -/
lemma DidNotSucceed.ne_succeeded {d : Nat} (h : m.DidNotSucceed d) :
    m.outcomeOf? d ≠ some .succeeded := by
  rcases h with h | h <;> rw [h] <;> simp

/-- A job of which one dependency did not succeed has not seen all of them succeed. -/
lemma DidNotSucceed.not_allSucceeded {d : Nat} (h : m.DidNotSucceed d) (hd : d ∈ j.awaited) :
    ¬ m.AllSucceeded j := fun hall => h.ne_succeeded (hall d hd)

/-- What a phase says stays true as long as outcomes and the interrupt stay, whatever is told
besides. -/
lemma gated_mono (hout : ∀ d o, m.outcomeOf? d = some o → m'.outcomeOf? d = some o)
    (hint : m.interrupted = true → m'.interrupted = true) {told' : List TaskChange}
    (htold : told ⊆ told') (h : a.Gated p j m told) : a.Gated p j m' told' := by
  have hfail : ∀ d, m.DidNotSucceed d → m'.DidNotSucceed d := fun d => Or.imp (hout d _) (hout d _)
  have hall : m.AllSucceeded j → m'.AllSucceeded j := fun h d hd => hout d _ (h d hd)
  have hsettled : ∀ outcome : NodeOutcome,
      (outcome = .blocked ∧ IsBlamed p j m told ∨ outcome = .interrupted ∧ m.IsCutShort j) →
      (outcome = .blocked ∧ IsBlamed p j m' told' ∨ outcome = .interrupted ∧ m'.IsCutShort j) := by
    rintro outcome (⟨rfl, d, hd, hf, hb⟩ | ⟨rfl, hcut | ⟨d, hd, ho⟩⟩)
    · exact .inl ⟨rfl, d, hd, hfail d hf, htold hb⟩
    · exact .inr ⟨rfl, .inl (hint hcut)⟩
    · exact .inr ⟨rfl, .inr ⟨d, hd, hout d _ ho⟩⟩
  cases a with
  | waiting unseen arrived =>
    obtain ⟨h₁, h₂, h₃⟩ := h
    exact ⟨fun d hd => (h₁ d hd).imp_right (Or.imp_right (hout d _)), h₂,
      fun d hd => ⟨(h₃ d hd).1, (h₃ d hd).2.imp fun o => hout d o⟩⟩
  | blocking d => exact ⟨h.1, hfail d h.2⟩
  | settling outcome result =>
    cases result with
    | none => exact hsettled outcome h
    | some r => exact hall h
  | ended outcome result =>
    cases result with
    | none => exact hsettled outcome h
    | some r => exact hall h
  | _ => exact hall h

/-- What is told more does not make a phase say something false. -/
lemma gated_append (more : List TaskChange) (h : a.Gated p j m told) :
    a.Gated p j m (told ++ more) :=
  gated_mono (fun _ _ => id) id (List.subset_append_left _ _) h

/-- The phase that follows the attempts lies behind the gate. -/
lemma gated_concluded {t : TaskDefinition} {attempts : UInt32} {outcome : TaskOutcome}
    (h : m.AllSucceeded j) : (concluded t attempts outcome).Gated p j m told := by
  unfold concluded
  split <;> exact h

/-- A move leads to a phase that says the truth. -/
lemma Moves.gated {s : JobState} {v : Move} (h : Moves p j s m a v) (ha : a.Gated p j m told) :
    v.phase.Gated p j m (told ++ v.deed.told.toList) := by
  cases h with
  | giveUp unseen arrived hi => exact .inr ⟨rfl, .inl hi⟩
  | proceed hi =>
    intro d hd
    rcases ha.1 d hd with h | h | h
    · cases h
    · cases h
    · exact h
  | hearSuccess unseen arrived d hi hd =>
    refine ⟨fun x hx => ?_, ha.2.1, fun x hx => ha.2.2 x (List.mem_cons_of_mem _ hx)⟩
    rcases ha.1 x hx with h | h | h
    · exact .inl h
    · rcases List.mem_cons.1 h with rfl | h
      · exact .inr (.inr hd)
      · exact .inr (.inl h)
    · exact .inr (.inr h)
  | hearFailure unseen arrived d hi hd => exact ⟨(ha.2.2 d List.mem_cons_self).1, hd⟩
  | hearInterrupt unseen arrived d hi hd =>
    obtain ⟨hmem, o, ho⟩ := ha.2.2 d List.mem_cons_self
    refine .inr ⟨rfl, .inr ⟨d, hmem, hd.resolve_right fun hnone => ?_⟩⟩
    rw [hnone] at ho
    cases ho
  | block d => exact .inl ⟨rfl, d, ha.1, ha.2, List.mem_append_right _ (List.mem_singleton_self _)⟩
  | settle outcome result =>
    refine gated_append (a := .ended outcome result) _ ?_
    cases result <;> exact ha
  | succeed | exhaust | stop => exact gated_concluded ha
  | _ => exact ha

/-- A turn leads to a phase that says the truth. -/
lemma Turn.gated (h : Turn p j m a c b) (ha : a.Gated p j m told) :
    b.Gated p j m (told ++ c.toList) := by
  cases h with
  | stay => exact gated_append _ ha
  | grant => exact ha
  | hear unseen arrived d o ho hmem =>
    refine ⟨fun x hx => ?_, fun x hx => ha.2.1 x (List.mem_of_mem_erase hx), fun x hx => ?_⟩
    · rcases ha.1 x hx with h | h | h
      · by_cases hxd : x = d
        · exact .inr (.inl (List.mem_append_right _ (List.mem_singleton.2 hxd)))
        · exact .inl ((List.mem_erase_of_ne hxd).2 h)
      · exact .inr (.inl (List.mem_append_left _ h))
      · exact .inr (.inr h)
    · rcases List.mem_append.1 hx with hx | hx
      · exact ha.2.2 x hx
      · obtain rfl := List.mem_singleton.1 hx
        exact ⟨ha.2.1 x hmem, o, ho⟩
  | move h => exact h.gated ha

/-- **In every reached machine a phase says the truth about the dependencies.** -/
theorem Reached.gated (hslots : Slots.ofLimit? limit = .ok world.slots)
    (h : Reached p interval world m) (hj : p.jobs[k]? = some j) (ha : m.phaseOf? k = some a) :
    a.Gated p j m (m.toldBy k) := by
  refine h.induct_job hslots hj (I := fun m a told => a.Gated p j m told) ?_ ?_ ha
  · unfold firstPhase
    split
    next deps hgate =>
      refine ⟨fun d hd => .inl ?_, fun d hd => ?_, fun d hd => by cases hd⟩
      · rwa [Job.awaited, hgate] at hd
      · rwa [Job.awaited, hgate]
    next hgate =>
      intro d hd
      rw [Job.awaited, hgate] at hd
      cases hd
  · intro m m' a c b told hr hs hturn _ hgated
    exact gated_mono (fun d o => outcomeOf?_of_steps hslots hr (.single hs)) hs.interrupted_of
      (List.Subset.refl _) (hturn.gated hgated)

end Machine

end Taskflow
