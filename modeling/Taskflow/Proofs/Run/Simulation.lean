import Taskflow.Proofs.Run.Coordination
set_option autoImplicit false

/-!
# Simulations

A relation between machines is a simulation if the second machine can answer whatever happens to the
first one with some actions of its own, so that the relation is kept up. What is said of single
actions then holds of whole runs, action by action. Where the converse of a relation is a simulation
as well, the same holds the other way round.

## Main definitions

* `Action.Unfolds` — the same action, where a job may make another number of moves.
* `Machine.Simulation` — whatever happens to the first machine, the second one can answer.
* `Machine.AnswersMoves` — moves of a job are answered by moves of this job.

## Main results

* `Machine.step_poll_eq_run` — a poll is a number of moves.
* `Machine.AnswersMoves.simulation` — it is enough to answer single moves.
* `Machine.Simulation.run`, `Machine.Simulation.run_map` — whatever is done with the first machine,
  the second one can follow.
-/

namespace Taskflow

namespace Action

/-- Whether an action is no matter of the moves of a job. -/
def isAmbient : Action → Bool
  | .move .. | .poll .. => false
  | _ => true

/-- The same action, where job `i` may make another number of moves. -/
inductive Unfolds : Action → List Action → Prop
  | same (x : Action) : Unfolds x [x]
  | move (i : Nat) (choices : Choices) (n : Nat) :
    Unfolds (.move i choices) (List.replicate n (.move i choices))
  | poll (i : Nat) (choices : Choices) (n : Nat) :
    Unfolds (.poll i choices) (List.replicate n (.move i choices))

end Action

namespace Machine

variable {p p' : Plan} {i : Nat} {m m' : Machine}

/-! ### A poll -/

/-- Actions are carried out one after the other. -/
lemma run_append (actions more : List Action) :
    m.run p (actions ++ more) = (m.run p actions).run p more := List.foldl_append

/-- **A poll is a number of moves.** -/
lemma step_poll_eq_run (i : Nat) (choices : Choices) (m : Machine) : ∃ n,
    m.step p (.poll i choices) = m.run p (List.replicate (n + 1) (.move i choices)) := by
  have hmove : ∀ {m : Machine} {v : Move}, m.nextMove? p i choices = some v →
      m.step p (.move i choices) = (m.make p i v).closeIfEnded := by
    intro m v hv
    rw [step, move, hv]
  induction m using poll.induct p i choices with
  | case1 m hv =>
    refine ⟨0, ?_⟩
    rw [step, poll_of_none hv, List.replicate_one, run, List.foldl_cons, List.foldl_nil, step, move,
      hv]
  | case2 m v hv hr =>
    refine ⟨0, ?_⟩
    rw [step, poll_of_some hv, if_pos hr, List.replicate_one, run, List.foldl_cons, List.foldl_nil,
      hmove hv]
  | case3 m v hv hr ih =>
    have hpoll : m.step p (.poll i choices) = (m.make p i v).step p (.poll i choices) := by
      rw [step, poll_of_some hv, if_neg hr, step]
    cases hall : (m.make p i v).allEnded with
    | true =>
      refine ⟨0, ?_⟩
      rw [hpoll, step, poll_of_none (nextMove?_of_allEnded hall), List.replicate_one, run,
        List.foldl_cons, List.foldl_nil, hmove hv]
    | false =>
      obtain ⟨n, hn⟩ := ih
      refine ⟨n + 1, ?_⟩
      have hopen : (m.make p i v).closeIfEnded = m.make p i v := by simp [closeIfEnded, hall]
      rw [hpoll, hn, List.replicate_succ (n := n + 1), run, run, List.foldl_cons, hmove hv, hopen]

/-! ### Simulations -/

/-- Whatever happens to the first of two machines that are related, the second one can answer with
some actions that `F` allows, so that they stay related. -/
def Simulation (p p' : Plan) (F : Action → List Action → Prop) (R : Machine → Machine → Prop) :
    Prop :=
  ∀ m m', R m m' → ∀ x, ∃ xs, F x xs ∧ R (m.step p x) (m'.run p' xs)

/-- A move of a job in the first of two machines that are related is answered by moves of the same
job in the second one. -/
def AnswersMoves (p p' : Plan) (R : Machine → Machine → Prop) : Prop :=
  ∀ m m', R m m' → ∀ (i : Nat) (choices : Choices), ∃ n,
    R (m.step p (.move i choices)) (m'.run p' (List.replicate n (.move i choices)))

variable {F : Action → List Action → Prop} {R : Machine → Machine → Prop}

/-- **Whatever is done with the first machine, the second one can follow, action by action.**

**Proof sketch.** By induction on the actions, for all machines that are related: the first action
has an answer, and the machines after it are related again. -/
theorem Simulation.run (h : Simulation p p' F R) (hm : R m m') (actions : List Action) :
    ∃ groups, List.Forall₂ F actions groups ∧ ∀ n,
      R (m.run p (actions.take n)) (m'.run p' (groups.take n).flatten) := by
  induction actions generalizing m m' with
  | nil => exact ⟨[], .nil, fun n => by simpa [Machine.run] using hm⟩
  | cons x rest ih =>
    obtain ⟨xs, hxs, hnext⟩ := h m m' hm x
    obtain ⟨groups, hgroups, hrun⟩ := ih hnext
    refine ⟨xs :: groups, .cons hxs hgroups, fun n => ?_⟩
    cases n with
    | zero => exact hm
    | succ n =>
      rw [List.take_succ_cons, List.take_succ_cons, List.flatten_cons, run_append]
      exact hrun n

/-- If each action has one answer, the second machine follows with the answers. -/
theorem Simulation.run_map {f : Action → Action}
    (h : Simulation p p' (fun x xs => xs = [f x]) R) (hm : R m m') (actions : List Action) :
    R (m.run p actions) (m'.run p' (actions.map f)) := by
  obtain ⟨groups, hgroups, hrun⟩ := h.run hm actions
  have hall := hrun actions.length
  rw [List.take_length, hgroups.length_eq, List.take_length] at hall
  have hmap : groups.flatten = actions.map f := by
    clear hrun hall
    induction hgroups with
    | nil => rfl
    | cons hx _ ih => rw [List.flatten_cons, hx, ih, List.map_cons, List.singleton_append]
  rwa [hmap] at hall

/-- Moves of one job are answered by moves of this job. -/
lemma AnswersMoves.run (h : AnswersMoves p p' R) (hm : R m m') (i : Nat) (choices : Choices)
    (count : Nat) : ∃ n, R (m.run p (List.replicate count (.move i choices)))
      (m'.run p' (List.replicate n (.move i choices))) := by
  induction count generalizing m m' with
  | zero => exact ⟨0, hm⟩
  | succ count ih =>
    obtain ⟨n₁, h₁⟩ := h m m' hm i choices
    obtain ⟨n₂, h₂⟩ := ih h₁
    refine ⟨n₁ + n₂, ?_⟩
    rw [List.replicate_add n₁ n₂, run_append]
    exact h₂

/-- **It is enough to answer single moves**, if everything that is no matter of one job happens in
both machines. -/
theorem AnswersMoves.simulation (h : AnswersMoves p p' R)
    (hambient : ∀ m m', R m m' → ∀ x : Action, x.isAmbient = true → R (m.step p x) (m'.step p' x)) :
    Simulation p p' Action.Unfolds R := by
  intro m m' hm x
  cases x with
  | move i choices =>
    obtain ⟨n, hn⟩ := h m m' hm i choices
    exact ⟨_, .move i choices n, hn⟩
  | poll i choices =>
    obtain ⟨count, hcount⟩ := step_poll_eq_run (p := p) i choices m
    obtain ⟨n, hn⟩ := h.run hm i choices (count + 1)
    exact ⟨_, .poll i choices n, hcount ▸ hn⟩
  | _ => exact ⟨_, .same _, hambient m m' hm _ rfl⟩

end Machine

end Taskflow
