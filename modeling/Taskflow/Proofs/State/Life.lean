import Taskflow.Proofs.State.Projection
set_option autoImplicit false

/-!
# The life of a task

After its registration a task says nothing, or that it is blocked, or it starts, puts out lines and
announces retries, and comes to its end. What it has told at some moment is a first part of that,
and says how far the task has come.

## Main definitions

* `TaskChange.Underway`, `TaskChange.Completed` — the changes of a task that has started, and of one
  that has come to its end.
* `Lived` — what a task can have told at any moment.

## Main results

* `TaskChange.Underway.status_eq`, `TaskChange.Completed.status_eq` — what the changes say about the
  status.
* `Lived.of_append`, `Lived.eq_nil_of_completed` — what was told before, and what can follow.
-/

namespace Taskflow

/-! ### Parts of a life -/

namespace TaskChange

/-- Whether a change is one of those between the start of a task and its end. -/
def isProgress : TaskChange → Bool
  | .output .. | .retrying .. => true
  | _ => false

/-- The changes of a task that has started and not come to its end. -/
def Underway (cs : List TaskChange) : Prop :=
  ∃ time rest, cs = .started time :: rest ∧ ∀ c ∈ rest, c.isProgress = true

/-- The changes of a task that has come to its end. -/
def Completed (outcome : TaskOutcome) (cs : List TaskChange) : Prop :=
  ∃ body time, Underway body ∧ cs = body ++ [.completed time outcome]

/-- Whether nothing can follow a change of a task: it is blocked or has come to its end. -/
def isLast : TaskChange → Bool
  | .blocked _ | .completed .. => true
  | _ => false

/-- Whether a change is the first of a task after its registration: it starts or is blocked. -/
def isFirst : TaskChange → Bool
  | .started _ | .blocked _ => true
  | _ => false

variable {cs more : List TaskChange} {c : TaskChange} {outcome : TaskOutcome}

/-- A task that has started is underway. -/
lemma underway_started (time : Timestamp) : Underway [.started time] :=
  ⟨time, [], rfl, fun _ h => nomatch h⟩

/-- A task that is underway and makes progress stays so. -/
lemma Underway.concat (h : Underway cs) (hc : c.isProgress = true) : Underway (cs ++ [c]) := by
  obtain ⟨time, rest, rfl, hrest⟩ := h
  refine ⟨time, rest ++ [c], rfl, fun x hx => ?_⟩
  rcases List.mem_append.1 hx with hx | hx
  · exact hrest x hx
  · exact List.mem_singleton.1 hx ▸ hc

/-- A task that is under way had told nothing before, or was under way. -/
lemma Underway.of_append (h : Underway (cs ++ more)) : cs = [] ∨ Underway cs := by
  obtain ⟨time, rest, heq, hrest⟩ := h
  cases cs with
  | nil => exact .inl rfl
  | cons c cs =>
    obtain ⟨rfl, rfl⟩ := List.cons.inj heq
    exact .inr ⟨time, cs, rfl, fun x hx => hrest x (List.mem_append_left _ hx)⟩

/-- A task that has started and not come to its end has told nothing that is last. -/
lemma Underway.not_isLast (h : Underway cs) (hc : c ∈ cs) : c.isLast = false := by
  obtain ⟨time, rest, rfl, hrest⟩ := h
  rcases List.mem_cons.1 hc with rfl | hc
  · rfl
  · have hprogress := hrest c hc
    cases c with
    | output | retrying => rfl
    | _ => cases hprogress

/-- Behind the only change there is none. -/
lemma eq_nil_of_singleton {x : TaskChange} {before after : List TaskChange}
    (h : before ++ c :: after = [x]) : after = [] := by
  have hlength := congrArg List.length h
  simp only [List.length_append, List.length_cons, List.length_nil] at hlength
  exact List.eq_nil_of_length_eq_zero (by omega)

/-- Nothing follows the end of a task. -/
lemma Completed.eq_nil_of_isLast {before after : List TaskChange}
    (h : Completed outcome (before ++ c :: after)) (hc : c.isLast = true) : after = [] := by
  obtain ⟨body, time, hbody, hcs⟩ := h
  rcases List.eq_nil_or_concat after with rfl | ⟨after, x, rfl⟩
  · rfl
  · exfalso
    rw [List.concat_eq_append, ← List.cons_append, ← List.append_assoc] at hcs
    have hmem : c ∈ before ++ c :: after := by simp
    rw [(List.append_inj' hcs rfl).1] at hmem
    rw [hbody.not_isLast hmem] at hc
    cases hc

/-- What follows the start of a task up to its end is progress. -/
lemma Completed.exists_of_underway (hcs : Underway cs) (h : Completed outcome (cs ++ more)) :
    ∃ mid time, more = mid ++ [.completed time outcome] ∧ ∀ c ∈ mid, c.isProgress = true := by
  obtain ⟨body, time, ⟨start, rest, rfl, hrest⟩, heq⟩ := h
  rcases List.eq_nil_or_concat more with rfl | ⟨mid, x, rfl⟩
  · rw [List.append_nil] at heq
    have hlast := hcs.not_isLast (c := .completed time outcome) (by rw [heq]; simp)
    cases hlast
  · rw [List.concat_eq_append, ← List.append_assoc] at heq
    obtain ⟨hbody, hx⟩ := List.append_inj' heq rfl
    obtain ⟨start', rest', rfl, -⟩ := hcs
    obtain ⟨-, rfl⟩ := List.cons.inj hbody
    rw [List.concat_eq_append, List.singleton_inj.1 hx]
    exact ⟨mid, time, rfl, fun c hc => hrest c (List.mem_append_right _ hc)⟩

/-- Progress leaves a task running. -/
lemma status_foldl_of_isProgress {s : TaskState} (hs : s.status = .running)
    (hcs : ∀ c ∈ cs, c.isProgress = true) : (cs.foldl TaskState.apply s).status = .running := by
  induction cs generalizing s with
  | nil => exact hs
  | cons c rest ih =>
    refine ih ?_ fun x hx => hcs x (List.mem_cons_of_mem _ hx)
    have hc := hcs c List.mem_cons_self
    cases c with
    | output stream line => cases stream <;> exact hs
    | retrying => rfl
    | _ => cases hc

/-- A task that has started is running. -/
lemma Underway.status_eq (h : Underway cs) (s : TaskState) :
    (cs.foldl TaskState.apply s).status = .running := by
  obtain ⟨time, rest, rfl, hrest⟩ := h
  rw [List.foldl_cons]
  exact status_foldl_of_isProgress rfl hrest

/-- A task that has started is not blocked. -/
lemma Underway.isBlocked_eq (h : Underway cs) (id : TaskId) (name : String) :
    (cs.foldl TaskState.apply (.fresh id name)).isBlocked = false := by
  suffices ∀ s : TaskState,
      s.isBlocked = false → (cs.foldl TaskState.apply s).isBlocked = false from this _ rfl
  have hnot : ∀ d, .blocked d ∉ cs := fun d hd => nomatch h.not_isLast hd
  clear h
  induction cs with
  | nil => exact fun s hs => hs
  | cons c rest ih =>
    intro s hs
    refine ih (fun d hd => hnot d (List.mem_cons_of_mem _ hd)) (s.apply c) ?_
    cases c with
    | registered name => rfl
    | blocked d => exact absurd List.mem_cons_self (hnot d)
    | output stream line => cases stream <;> exact hs
    | completed time outcome => cases outcome <;> exact hs
    | _ => exact hs

/-- A task that has come to its end has the status of its outcome. -/
lemma Completed.status_eq (h : Completed outcome cs) (s : TaskState) :
    (cs.foldl TaskState.apply s).status = if outcome.isSuccess then .succeeded else .failed := by
  obtain ⟨body, time, -, rfl⟩ := h
  rw [List.foldl_append]
  cases outcome <;> rfl

end TaskChange

open TaskChange

/-! ### All moments of a life -/

/-- The changes of a task, at any moment: none, that it is blocked, or its execution so far. -/
def Lived (cs : List TaskChange) : Prop :=
  cs = [] ∨ (∃ d, cs = [.blocked d]) ∨ Underway cs ∨ ∃ outcome, Completed outcome cs

/-- Nothing follows the end of a life. -/
lemma Lived.eq_nil_of_isLast {before after : List TaskChange} {c : TaskChange}
    (h : Lived (before ++ c :: after)) (hc : c.isLast = true) : after = [] := by
  rcases h with h | ⟨d, h⟩ | h | ⟨outcome, h⟩
  · simp at h
  · exact eq_nil_of_singleton h
  · rw [h.not_isLast (List.mem_append_right _ List.mem_cons_self)] at hc
    cases hc
  · exact h.eq_nil_of_isLast hc

/-- A task that has told its end tells nothing more. -/
lemma Lived.eq_nil_of_completed {cs more : List TaskChange} {outcome : TaskOutcome}
    (h : Lived (cs ++ more)) (hcs : Completed outcome cs) : more = [] := by
  obtain ⟨body, time, -, rfl⟩ := hcs
  rw [List.append_assoc] at h
  exact Lived.eq_nil_of_isLast h rfl

/-- A task whose last change is its start or a retry is under way. -/
lemma Lived.underway_of_last {cs : List TaskChange} {c : TaskChange} (h : Lived (cs ++ [c]))
    (hblocked : ∀ d, c ≠ .blocked d) (hcompleted : ∀ time outcome, c ≠ .completed time outcome) :
    Underway (cs ++ [c]) := by
  rcases h with h | ⟨d, h⟩ | h | ⟨outcome, body, time, -, h⟩
  · exact absurd h (by simp)
  · exact absurd (List.append_inj' (h.trans (List.nil_append _).symm) rfl).2
      (by simpa using hblocked d)
  · exact h
  · exact absurd (List.append_inj' h rfl).2 (by simpa using hcompleted time outcome)

/-- A task that is under way and tells something stays under way, unless it comes to its end. -/
lemma Lived.underway_of_underway {cs : List TaskChange} {c : TaskChange} (hcs : Underway cs)
    (h : Lived (cs ++ [c])) (hcompleted : ∀ time outcome, c ≠ .completed time outcome) :
    Underway (cs ++ [c]) := by
  refine h.underway_of_last ?_ hcompleted
  rintro d rfl
  obtain ⟨time, rest, rfl, -⟩ := hcs
  rcases h with h | ⟨d', h⟩ | ⟨time', rest', h, hrest⟩ | ⟨outcome, body, time', -, h⟩
  · cases h
  · exact absurd (congrArg List.length h) (by simp)
  · obtain ⟨-, rfl⟩ := List.cons.inj h
    exact absurd (hrest (.blocked d) (List.mem_append_right _ (List.mem_singleton_self _)))
      (by simp [isProgress])
  · exact absurd (List.append_inj' h rfl).2 (by simp)

/-- What was told before is a first part of a life as well. -/
lemma Lived.of_append {cs more : List TaskChange} (h : Lived (cs ++ more)) : Lived cs := by
  have hbefore : ∀ {rest}, Underway (cs ++ rest) → Lived cs :=
    fun h => h.of_append.elim .inl fun h => .inr (.inr (.inl h))
  rcases h with h | ⟨d, h⟩ | h | ⟨outcome, body, time, hbody, h⟩
  · exact .inl (List.append_eq_nil_iff.1 h).1
  · rcases List.append_eq_singleton_iff.1 h with ⟨hcs, -⟩ | ⟨hcs, -⟩
    · exact .inl hcs
    · exact .inr (.inl ⟨d, hcs⟩)
  · exact hbefore h
  · rcases List.eq_nil_or_concat more with rfl | ⟨mid, c, rfl⟩
    · exact .inr (.inr (.inr ⟨outcome, body, time, hbody, (List.append_nil cs).symm.trans h⟩))
    · rw [List.concat_eq_append, ← List.append_assoc] at h
      exact hbefore ((List.append_inj' h rfl).1 ▸ hbody)

/-- A task that has come to its end has told it. -/
lemma Lived.completed_of_isTerminal {cs : List TaskChange} (h : Lived cs) {id : TaskId}
    {name : String} (hend : (cs.foldl TaskState.apply (.fresh id name)).status.isTerminal = true) :
    ∃ outcome, Completed outcome cs := by
  rcases h with rfl | ⟨d, rfl⟩ | h | h
  · cases hend
  · cases hend
  · rw [h.status_eq] at hend
    cases hend
  · exact h

end Taskflow
