import Taskflow.Proofs.Run.Grammar
import Taskflow.Proofs.Run.GraphPlan
import Taskflow.Proofs.Run.Pipes
import Taskflow.Proofs.State.ClosedForm
set_option autoImplicit false

/-!
# The grammar of a queue

The queue of a run of a graph begins with the registrations. After them each task tells its life, as
far as it has come. There is one thing that can follow the end of a life: lines of a command that
was interrupted while they were on their way. Its readers are told to stop, but nobody waits for
them, so what they still have in hand can come late.

## Main definitions

* `TaskChange.outputOn` — the lines that changes put out on a stream.
* `Job.Tells` — what of its life a job has told in a phase.
* `Piped.ComesLate` — what a job has told after its end, and where it comes from.

## Main results

* `Piped.Trail.tells` — on every trail a job has told a first part of a life, and late lines only
  after an interrupted end.
* `Piped.Trail.lives_with_late_lines` — the queue of a run of a graph, as a whole and task by task.
* `Piped.line_follows_end` — a line that follows the end of its task.
-/

namespace Taskflow

open TaskChange

/-! ### Lines -/

/-- The lines that changes put out on a stream. -/
def TaskChange.outputOn (stream : Stream) (cs : List TaskChange) : List String :=
  cs.filterMap (line? stream)

/-- The lines of more changes are more lines. -/
@[simp] lemma TaskChange.outputOn_append (stream : Stream) (cs more : List TaskChange) :
    outputOn stream (cs ++ more) = outputOn stream cs ++ outputOn stream more :=
  List.filterMap_append

namespace Pipes

variable {q : Pipes} {stream other : Stream} {line : String} {rest : List String}

/-- A line that is captured is still on its way. -/
lemma pending_capture (hq : q.get stream = ⟨line :: rest, none⟩) (other : Stream) :
    ((q.set stream ⟨rest, some line⟩).get other).pending = (q.get other).pending := by
  rw [get_set]
  split
  next h => subst h; rw [hq]; rfl
  next => rfl

/-- A line that is emitted was the next one on its way. -/
lemma pending_emit (hq : q.get stream = ⟨rest, some line⟩) (other : Stream) :
    outputOn other [.output stream line] ++ ((q.set stream ⟨rest, none⟩).get other).pending =
      (q.get other).pending := by
  rw [get_set]
  by_cases h : stream = other
  · subst h
    rw [if_pos rfl, hq]
    simp [outputOn, line?, Pipe.pending]
  · rw [if_neg h]
    simp [outputOn, line?, h]

/-- A reader that stops leaves what lies in its pipe. -/
lemma pending_stop (q : Pipes) (stream other : Stream) :
    ((q.set stream ⟨[], (q.get stream).held⟩).get other).pending <+: (q.get other).pending := by
  rw [get_set]
  split
  next h =>
    subst h
    exact ⟨(q.get stream).lines, by rw [Pipe.pending, List.append_nil, Pipe.pending]⟩
  next => exact List.prefix_refl _

end Pipes

/-! ### What a job has told -/

/-- Whether a job that stands here has nothing left to tell. -/
def Phase.isOver : Phase → Bool
  | .releasing .. | .settling .. | .ended .. => true
  | _ => false

/-- What of its life job `j` has told in a phase, in a run that is interrupted or not. -/
structure Job.Tells (j : Job) (interrupted : Bool) (life : List TaskChange) (a : Phase) :
    Prop where
  told : a.Told interrupted life
  recorded : j.retries < RetryPolicy.maxWord → a.Recorded j.retries life

namespace Machine

variable {p : Plan} {j : Job} {a b : Phase} {m : Machine} {v : Move} {life : List TaskChange}
  {i i' : Bool} {n : UInt32}

/-- What was told stays what the phase says when the run is interrupted. -/
lemma tells_mono (h : i = true → i' = true) (ha : j.Tells i life a) : j.Tells i' life a :=
  ⟨told_mono h ha.told, ha.recorded⟩

/-- An act adds to what was told what the next phase expects. -/
lemma Act.tells (hact : Act p j m a v) (ha : j.Tells m.interrupted life a) :
    j.Tells m.interrupted (life ++ v.deed.told.toList) v.phase :=
  ⟨hact.turn.told ha.told, fun hmax => hact.turn.recorded hmax (ha.recorded hmax)⟩

/-- A command that is at work goes on with another script without a word. -/
lemma tells_playing (hwork : a.working? = some n) (ha : j.Tells i life a) (script : Attempt) :
    j.Tells i life (.playing n script) := by
  cases a with
  | attempting | playing => cases hwork; exact ⟨ha.told, ha.recorded⟩
  | _ => cases hwork

/-- A line that was on its way is one more line of a life that is not over. -/
lemma tells_output (hun : a.Unread i') (hover : a.isOver = false) (ha : j.Tells i life a)
    (stream : Stream) (line : String) : j.Tells i (life ++ [.output stream line]) a := by
  obtain ⟨htold, hrecorded⟩ := ha
  cases a with
  | attempting | playing | judging =>
    exact ⟨Underway.concat htold rfl,
      fun hmax => ⟨(hrecorded hmax).1, (hrecorded hmax).2.line stream line⟩⟩
  | reporting | completing =>
    refine ⟨Underway.concat htold rfl, fun hmax => ?_⟩
    obtain ⟨n, hn, h⟩ := hrecorded hmax
    exact ⟨n, hn, h.line stream line⟩
  | releasing | settling | ended => cases hover
  | _ => simp [Phase.Unread, Phase.working?, Phase.conclusion?] at hun

/-- A job that has nothing left to tell tells nothing more. -/
lemma Act.silent_of_isOver (hact : Act p j m a v) (ha : a.isOver = true) :
    v.deed.told = none ∧ v.phase.isOver = true := by
  cases hact with
  | stay => exact ⟨rfl, ha⟩
  | grant | hear => cases ha
  | move hmove =>
    cases hmove with
    | release | settle => exact ⟨rfl, rfl⟩
    | _ => cases ha

/-- A job that has something left to tell, and of which lines are on their way, comes to its end by
telling that it was interrupted. -/
lemma Act.completes (hact : Act p j m a v) (hun : a.Unread i) (ha : a.isOver = false)
    (hover : v.phase.isOver = true) : ∃ attempts, i = true ∧
      a = .completing attempts (.ofError .interrupted) ∧
      v = ⟨.tell (.completed m.timestamp (.ofError .interrupted)),
        .releasing attempts (.ofError .interrupted)⟩ := by
  have hconcluded : ∀ (attempts : UInt32) (outcome : TaskOutcome),
      (concluded j.task attempts outcome).isOver = false := by
    intro attempts outcome
    unfold concluded
    split <;> rfl
  cases hact with
  | stay => rw [ha] at hover; cases hover
  | grant | hear => cases hover
  | move hmove =>
    cases hmove with
    | complete attempts outcome =>
      rcases hun with hwork | ⟨hi, ⟨n, hn⟩ | ⟨attempts, h⟩⟩
      · cases hwork
      · cases hn
      · cases h
        exact ⟨attempts, hi, rfl, rfl⟩
    | release | settle => cases ha
    | succeed | exhaust | stop => rw [hconcluded] at hover; cases hover
    | block | giveUp | hearInterrupt | withdraw | leave | refuse =>
      simp [Phase.Unread, Phase.working?, Phase.conclusion?] at hun
    | _ => cases hover

end Machine

namespace Piped

variable {p : Plan} {j : Job} {s s' : JobState} {k : Nat} {c c' : Piped} {cs : List Piped}
  {a b : Phase} {told : Option TaskChange} {q q' : Pipes} {life late : List TaskChange}
  {interrupted : Bool} {interval limit : Nat} {world : Machine} {g : TaskGraph}
  {launch : Launcher} {run : RunId}

/-! ### Late lines -/

/-- Job `k`, whose command was interrupted, has told `late` after its end: on the trail there is a
moment at which it was about to tell its end, and of the lines that were on their way then, these
have come first. -/
structure ComesLate (j : Job) (k : Nat) (trail : List Piped) (a : Phase) (q : Pipes)
    (life late : List TaskChange) : Prop where
  command : j.task.isCommand = true
  isOver : a.isOver = true
  completed : Completed (.ofError .interrupted) life
  outputs : ∀ x ∈ late, ∃ stream line, x = .output stream line
  source : ∃ c ∈ trail, c.machine.interrupted = true ∧
    ∃ attempts, c.machine.phaseOf? k = some (.completing attempts (.ofError .interrupted)) ∧
      a.conclusion? = some (attempts, .ofError .interrupted) ∧
      ∀ stream, outputOn stream late ++ (q.get stream).pending <+: ((c.pipes k).get stream).pending

/-- What a job has told on a trail: a part of a life, and then what came late. -/
structure TellsAll (j : Job) (k : Nat) (interrupted : Bool) (trail : List Piped) (a : Phase)
    (q : Pipes) (life late : List TaskChange) : Prop where
  tells : j.Tells interrupted life a
  late : late = [] ∧ (a.isOver = true → q.isDrained = true) ∨ ComesLate j k trail a q life late

/-- What comes late are lines. -/
lemma TellsAll.outputs {trail : List Piped} (h : TellsAll j k interrupted trail a q life late) :
    ∀ x ∈ late, ∃ stream line, x = .output stream line := by
  rcases h.late with ⟨rfl, -⟩ | hlate
  · exact fun _ hx => nomatch hx
  · exact hlate.outputs

/-- What comes late comes from a command that was interrupted. -/
lemma TellsAll.comesLate {trail : List Piped} (h : TellsAll j k interrupted trail a q life late)
    (hlate : late ≠ []) : ComesLate j k trail a q life late :=
  h.late.resolve_left fun hnone => hlate hnone.1

/-- Of a job that has nothing left to tell more comes late, or less is on its way. -/
lemma ComesLate.next (h : ComesLate j k (c :: cs) a q life late) (hb : b.isOver = true)
    (hsame : ∀ x, a.conclusion? = some x → b.conclusion? = some x)
    (hmore : ∀ x ∈ told, ∃ stream line, x = .output stream line)
    (hpending : ∀ stream, outputOn stream told.toList ++ (q'.get stream).pending <+:
      (q.get stream).pending) :
    ComesLate j k (c' :: c :: cs) b q' life (late ++ told.toList) where
  command := h.command
  isOver := hb
  completed := h.completed
  outputs x hx := by
    rcases List.mem_append.1 hx with hx | hx
    · exact h.outputs x hx
    · exact hmore x (Option.mem_toList.1 hx)
  source := by
    obtain ⟨c₀, hc₀, hm, attempts, ha, hover, hfront⟩ := h.source
    refine ⟨c₀, List.mem_cons_of_mem _ hc₀, hm, attempts, ha, hsame _ hover, fun stream => ?_⟩
    rw [outputOn_append, List.append_assoc]
    exact ((List.prefix_append_right_inj _).2 (hpending stream)).trans (hfront stream)

/-- A job that makes a move tells its life, and nothing after it. -/
lemma TellsAll.act {v : Move} (h : TellsAll j k c.machine.interrupted (c :: cs) s.phase (c.pipes k)
      life late) (hs : c.machine.phaseOf? k = some s.phase)
    (hact : Machine.Act p j c.machine s.phase v)
    (hun : (c.pipes k).isDrained = false →
      j.task.isCommand = true ∧ s.phase.Unread c.machine.interrupted) :
    ∃ life' late', life ++ late ++ v.deed.told.toList = life' ++ late' ∧
      TellsAll j k c.machine.interrupted (c' :: c :: cs) v.phase (c.pipes k) life' late' := by
  have htells := hact.tells h.tells
  cases hover : s.phase.isOver with
  | true =>
    obtain ⟨hsilent, hover'⟩ := hact.silent_of_isOver hover
    rw [hsilent] at htells ⊢
    refine ⟨life, late ++ Option.toList none, List.append_assoc _ _ _, by simpa using htells, ?_⟩
    rcases h.late with ⟨rfl, hdrained⟩ | hlate
    · exact .inl ⟨rfl, fun _ => hdrained hover⟩
    · exact .inr (hlate.next hover' (fun _ => hact.conclusion?_eq) (fun _ hx => nomatch hx)
        fun stream => List.prefix_refl _)
  | false =>
    obtain ⟨rfl, -⟩ := h.late.resolve_right fun hlate => by
      rw [hlate.isOver] at hover
      cases hover
    refine ⟨_, [], by simp, htells, ?_⟩
    by_cases hkeeps : v.phase.isOver = true → (c.pipes k).isDrained = true
    · exact .inl ⟨rfl, hkeeps⟩
    · obtain ⟨hover', hdrained⟩ := Classical.not_imp.1 hkeeps
      obtain ⟨hcommand, hun⟩ := hun (by simpa using hdrained)
      obtain ⟨attempts, hm, ha, rfl⟩ := hact.completes hun hover hover'
      rw [ha] at hs
      have hcompleted : Completed (.ofError .interrupted) (life ++ [.completed c.machine.timestamp
        (.ofError .interrupted)]) := htells.told
      exact .inr ⟨hcommand, rfl, hcompleted, fun _ hx => (nomatch hx),
        ⟨c, by simp, hm, attempts, hs, rfl, fun stream => List.prefix_refl _⟩⟩

/-- A job whose command goes on tells nothing. -/
lemma TellsAll.works {n : UInt32} (h : TellsAll j k interrupted (c :: cs) a q life late)
    (hwork : a.working? = some n) (script : Attempt) :
    TellsAll j k interrupted (c' :: c :: cs) (.playing n script) q' life late := by
  refine ⟨Machine.tells_playing hwork h.tells script, ?_⟩
  rcases h.late with ⟨rfl, -⟩ | hlate
  · exact .inl ⟨rfl, fun hover => nomatch hover⟩
  · have hover := hlate.isOver
    cases a with
    | attempting | playing => cases hover
    | _ => cases hwork

/-- A job whose readers emit nothing tells nothing. -/
lemma TellsAll.silent (h : TellsAll j k interrupted (c :: cs) a q life late)
    (hdrained : q.isDrained = true → q'.isDrained = true)
    (hpending : ∀ stream, (q'.get stream).pending <+: (q.get stream).pending) :
    TellsAll j k interrupted (c' :: c :: cs) a q' life late := by
  refine ⟨h.tells, ?_⟩
  rcases h.late with ⟨rfl, hover⟩ | hlate
  · exact .inl ⟨rfl, hdrained ∘ hover⟩
  · have hnext : ComesLate j k (c' :: c :: cs) a q' life (late ++ Option.toList none) :=
      hlate.next hlate.isOver (fun _ => id) (fun _ hx => nomatch hx) hpending
    exact .inr ((List.append_nil late) ▸ hnext)

/-- While a job has something left to tell, a line that a reader emits is one more of its life, and
after that it comes late. -/
lemma TellsAll.emits {stream : Stream} {line : String}
    (h : TellsAll j k interrupted (c :: cs) a q life late) (hun : a.Unread interrupted)
    (hq : q.isDrained = false)
    (hpending : ∀ other, outputOn other [.output stream line] ++ (q'.get other).pending <+:
      (q.get other).pending) :
    ∃ life' late', life ++ late ++ [.output stream line] = life' ++ late' ∧
      TellsAll j k interrupted (c' :: c :: cs) a q' life' late' := by
  rcases h.late with ⟨rfl, hdrained⟩ | hlate
  · have hover : a.isOver = false := by
      rw [← Bool.not_eq_true]
      intro hover
      rw [hdrained hover] at hq
      cases hq
    refine ⟨life ++ [.output stream line], [], by simp,
      Machine.tells_output hun hover h.tells stream line, .inl ⟨rfl, fun h => ?_⟩⟩
    rw [hover] at h
    cases h
  · have hnext : ComesLate j k (c' :: c :: cs) a q' life
        (late ++ Option.toList (some (.output stream line))) := by
      refine hlate.next hlate.isOver (fun _ => id) (fun x hx => ?_) hpending
      cases hx
      exact ⟨stream, line, rfl⟩
    exact ⟨life, _, List.append_assoc _ _ _, h.tells, .inr hnext⟩

/-- Whatever a job and its readers do, the job tells its life, and then what comes late. -/
lemma Doing.tellsAll (hdoing : Doing p k j c c' s s' told)
    (h : TellsAll j k c.machine.interrupted (c :: cs) s.phase (c.pipes k) life late)
    (hun : (c.pipes k).isDrained = false →
      j.task.isCommand = true ∧ s.phase.Unread c.machine.interrupted) :
    ∃ life' late', life ++ late ++ told.toList = life' ++ late' ∧
      TellsAll j k c.machine.interrupted (c' :: c :: cs) s'.phase (c'.pipes k) life' late' := by
  have hs := Machine.phaseOf?_of_state hdoing.before_eq
  have hdoes := hdoing.does
  clear hdoing
  generalize c'.pipes k = q' at hdoes ⊢
  cases hdoes with
  | act hact => exact h.act hs hact hun
  | write _ hplaying =>
    exact ⟨life, late, List.append_nil _, h.works (by rw [hplaying]; rfl) _⟩
  | kill _ _ _ hwork => exact ⟨life, late, List.append_nil _, h.works hwork _⟩
  | capture hq =>
    refine ⟨life, late, List.append_nil _, ?_⟩
    rw [Machine.remember_phase]
    refine h.silent (fun hdrained => ?_) fun other => ?_
    · rw [Pipes.isDrained_iff.1 hdrained] at hq
      cases hq
    · rw [Pipes.pending_capture hq]
  | emit hq =>
    have hleft := Pipes.not_isDrained _ (by rw [hq]; simp)
    refine h.emits (hun hleft).2 hleft fun other => ?_
    rw [Pipes.pending_emit hq]
  | stop =>
    exact ⟨life, late, List.append_nil _,
      h.silent (Pipes.isDrained_stop _) (Pipes.pending_stop _ _)⟩

/-- **On every trail a job has told a first part of a life**, after its registration, and late lines
only after an interrupted end. -/
theorem Trail.tells (hslots : Slots.ofLimit? limit = .ok world.slots)
    (h : Trail p interval world (c :: cs)) (hj : p.jobs[k]? = some j)
    (hs : c.machine.jobs[k]? = some s) :
    ∃ life late, c.machine.toldBy k = j.registration ++ (life ++ late) ∧
      TellsAll j k c.machine.interrupted (c :: cs) s.phase (c.pipes k) life late := by
  refine h.induct hslots hj (I := fun c cs s q told => ∃ life late,
    told = j.registration ++ (life ++ late) ∧
      TellsAll j k c.machine.interrupted (c :: cs) s.phase q life late) ?_ ?_ hs
  · refine ⟨[], [], (List.append_nil _).symm, ⟨?_, fun _ => ?_⟩, .inl ⟨rfl, fun _ => rfl⟩⟩
    · unfold Machine.firstPhase
      split <;> rfl
    · unfold Machine.firstPhase
      split <;> rfl
  · rintro c c' cs s s' told h hstep hdoing ⟨life, late, htold, htells⟩
    obtain ⟨life', late', heq, htells'⟩ :=
      hdoing.tellsAll htells (h.unread hslots hj hdoing.before_eq)
    refine ⟨life', late', ?_, Machine.tells_mono hstep.interrupted_of htells'.tells, htells'.late⟩
    rw [htold, List.append_assoc, heq]

/-! ### What attempts come to -/

/-- Where no computation breaks down, no job does. -/
lemma Trail.not_crashed (hslots : Slots.ofLimit? limit = .ok world.slots) (hp : p.NeverPanics)
    (h : Trail p interval world (c :: cs)) (hj : p.jobs[k]? = some j)
    (hs : c.machine.jobs[k]? = some s) (message : String) : s.phase ≠ .crashed message := by
  have hends : s.phase.Ends (fun e => ∀ message, e ≠ .panic message) c.machine.interrupted := by
    refine h.induct hslots hj (I := fun c _ s _ _ =>
      s.phase.Ends (fun e => ∀ message, e ≠ .panic message) c.machine.interrupted) ?_ ?_ hs
    · unfold Machine.firstPhase
      split <;> trivial
    · intro c c' cs s s' told _ hstep hdoing hends
      refine Machine.ends_mono hstep.interrupted_of ?_
      have hdoes := hdoing.does
      clear hdoing
      generalize c'.pipes k = q' at hdoes
      cases hdoes with
      | act hact =>
        exact hact.turn.ends (Machine.ends_job hp
          (fun e he message heq => by rw [heq] at he; exact he) hj) hends
      | write _ hplaying =>
        rw [hplaying] at hends
        cases hends with
        | emit _ _ hnext => exact hnext
      | kill left => exact Script.AllEndings.emitAll (.finish _ (by simp)) left
      | capture => rw [Machine.remember_phase]; exact hends
      | emit | stop => exact hends
  intro hcrashed
  rw [hcrashed] at hends
  exact hends message rfl

/-! ### The queue -/

/-- A small step emits one event at most, about the task of the job that emits it, and registers
nothing. -/
lemma Step.emissions_eq (hs : Step p c c') : c'.machine.emissions = c.machine.emissions ∨
    ∃ e, c'.machine.emissions = e :: c.machine.emissions ∧
      (∀ name, e.event.change ≠ .registered name) ∧
      ∃ j, p.jobs[e.job]? = some j ∧ e.event.task = j.task.id := by
  cases hs with
  | move _ hv =>
    obtain ⟨j, s, hj, -, hmove⟩ := Machine.moves_of_nextMove? hv
    simp only [Machine.make_emissions hj]
    cases hc : Deed.told _ with
    | none => exact .inl rfl
    | some x => exact .inr ⟨_, rfl, hmove.told_ne_registered hc, j, hj, rfl⟩
  | emit hj => exact .inr ⟨_, rfl, fun name => by simp, _, hj, rfl⟩
  | _ => exact .inl rfl

/-- The queue of a trail is that of the start, and events that register nothing; and every event is
about the task of the job that emitted it. -/
lemma Trail.events_eq (h : Trail p interval world (c :: cs)) :
    (∃ es, c.machine.events = p.registrations.map (·.1) ++ es ∧
      ∀ e ∈ es, ∀ name, e.change ≠ .registered name) ∧
    ∀ e ∈ c.machine.emissions, ∃ j, p.jobs[e.job]? = some j ∧ e.event.task = j.task.id := by
  generalize hl : c :: cs = l at h
  induction h generalizing c cs with
  | start =>
    cases hl
    have hstart : Machine.Reached p interval world (Machine.start p interval world) := .refl
    exact ⟨⟨[], Machine.events_start.trans (List.append_nil _).symm, fun e he => nomatch he⟩,
      fun e he => hstart.tagged he⟩
  | step h hs ih =>
    cases hl
    obtain ⟨⟨es, hes, hnot⟩, htagged⟩ := ih rfl
    rcases hs.emissions_eq with he | ⟨e, he, hname, hjob⟩
    · rw [Machine.events, he]
      exact ⟨⟨es, hes, hnot⟩, htagged⟩
    · rw [Machine.events, he, List.reverse_cons, List.map_append]
      refine ⟨⟨es ++ [e.event], ?_, fun x hx => ?_⟩, List.forall_mem_cons.2 ⟨hjob, htagged⟩⟩
      · rw [← List.append_assoc, ← hes]
        rfl
      · rcases List.mem_append.1 hx with hx | hx
        · exact hnot x hx
        · exact List.mem_singleton.1 hx ▸ hname

/-- The queue of the run of a graph begins with its registrations; what follows is about its tasks,
and of each task it is what its job has told after its registration. -/
lemma Trail.events_ofGraph (hg : g.WellFormed)
    (h : Trail (Plan.ofGraph g launch run) interval world (c :: cs)) : ∃ later,
    c.machine.events = (g.orderedTasks.map fun t => ⟨t.id, .registered t.name⟩) ++ later ∧
      (∀ e ∈ later, ∃ t ∈ g.tasks, e.task = t.id) ∧
      ∀ i j told, (Plan.ofGraph g launch run).jobs[i]? = some j →
        c.machine.toldBy i = j.registration ++ told →
          SystemState.changesOf j.task.id later = told := by
  have hp := Plan.linked_ofGraph hg launch run
  obtain ⟨⟨later, hevents, -⟩, htagged⟩ := h.events_eq
  refine ⟨later, by rw [hevents, Plan.registrations_ofGraph], fun e he => ?_,
    fun i j told hj htold => ?_⟩
  · have hmem : e ∈ c.machine.events := hevents ▸ List.mem_append_right _ he
    obtain ⟨x, hx, rfl⟩ := List.mem_map.1 hmem
    obtain ⟨j, hj, htask⟩ := htagged x (List.mem_reverse.1 hx)
    obtain ⟨t, ht, -, rfl⟩ := (Plan.getElem?_jobs_ofGraph_iff hg).1 hj
    exact ⟨t, ht, htask⟩
  · have hstart : Machine.Reached (Plan.ofGraph g launch run) interval world
        (Machine.start (Plan.ofGraph g launch run) interval world) := .refl
    have hfirst := hstart.changesOf_events hp hj
    rw [Machine.events_start, Machine.toldBy_start hj] at hfirst
    have hall := Machine.changesOf_events_of_tagged hp htagged hj
    rw [hevents, htold, SystemState.changesOf_append, hfirst] at hall
    exact List.append_cancel_left hall

/-- **The grammar of a queue.** For every graph that is built, every limit and every way from the
start of a run: the queue begins with one registration of each task, dependencies first. What
follows is about tasks of the graph, and of each task it is the first part of a life, and a whole
life if no computation breaks down and all jobs have ended; and after that there may come lines, but
only those of a command that told as its end that it was interrupted. They are the first of those
lines that its readers had not emitted when it told its end.

**Proof sketch.** What a job has told follows its phase, step by step (`Trail.tells`): a reader
emits a line of an attempt, or, if the job has told its end, a late line. Lines are on their way
after the attempt only if it was cut short (`Trail.unread`). What is on its way when the end is told
is taken from the front and not added to, so late lines are a first part of it. -/
theorem Trail.lives_with_late_lines {tasks : List TaskDefinition}
    (hg : TaskGraph.build tasks = .ok g) (hslots : Slots.ofLimit? limit = .ok world.slots)
    (hmax : ∀ t ∈ g.tasks, t.effectiveRetryPolicy.maxRetries.toNat < RetryPolicy.maxWord)
    (hpanic : (Plan.ofGraph g launch run).NeverPanics)
    (h : Trail (Plan.ofGraph g launch run) interval world (c :: cs)) :
    ∃ (order : List TaskDefinition) (later : List TaskEvent),
      c.machine.events = (order.map fun t => ⟨t.id, .registered t.name⟩) ++ later ∧
      order.Perm g.tasks ∧
      (∀ before t after, order = before ++ t :: after →
        ∀ d ∈ t.dependencies, d ∈ before.map (·.id)) ∧
      (∀ e ∈ later, ∃ t ∈ g.tasks, e.task = t.id) ∧
      ∀ t ∈ g.tasks,
        let retries := t.effectiveRetryPolicy.maxRetries.toNat
        let told := SystemState.changesOf t.id later
        ∃ life late, told = life ++ late ∧
          (∃ rest, Life retries (life ++ rest)) ∧
          (c.machine.allEnded = true → Life retries life) ∧
          (∀ before x after, life = before ++ x :: after → x.isLast = true → after = []) ∧
          (∀ dependency time, .blocked dependency ∈ told → .started time ∉ told) ∧
          (∀ x ∈ late, ∃ stream line, x = .output stream line) ∧
          (late ≠ [] → t.isCommand = true ∧
            (∃ body time, life = body ++ [.completed time (.ofError .interrupted)]) ∧
            ∃ k, (Plan.ofGraph g launch run).jobs[k]? = some (Plan.jobOf g run t) ∧
              ∃ c₀ ∈ c :: cs, c₀.machine.interrupted = true ∧
                (∃ attempts, c₀.machine.phaseOf? k =
                  some (.completing attempts (.ofError .interrupted))) ∧
                ∀ stream, outputOn stream late <+: ((c₀.pipes k).get stream).pending) := by
  have hwf := TaskGraph.wellFormed_of_build hg
  obtain ⟨later, hevents, habout, hlater⟩ := h.events_ofGraph hwf
  refine ⟨g.orderedTasks, later, hevents, hwf.orderedTasks_perm, fun before t after hsplit => ?_,
    habout, fun t ht => ?_⟩
  · have ht : t ∈ g.tasks := hwf.mem_orderedTasks.1 (by rw [hsplit]; simp)
    exact fun d hd => hwf.mem_before_of_dependency hsplit ht hd
  intro retries told
  obtain ⟨k, -, hj⟩ := Plan.exists_job_of_mem hwf launch run ht
  obtain ⟨s, hs⟩ := h.state_of_job hj
  obtain ⟨life, late, hcs, htells⟩ := h.tells hslots hj hs
  have htold : told = life ++ late := hlater k _ (life ++ late) hj hcs
  have hrec : s.phase.Recorded retries life := htells.tells.recorded (hmax t ht)
  obtain ⟨rest, hlife⟩ := hrec.exists_life
  have honly : ∀ x, (∀ stream line, x ≠ .output stream line) → (x ∈ told ↔ x ∈ life) := by
    intro x hx
    rw [htold, List.mem_append, or_iff_left fun hmem => ?_]
    obtain ⟨stream, line, rfl⟩ := htells.outputs x hmem
    exact hx stream line rfl
  refine ⟨life, late, htold, ⟨rest, hlife⟩, fun hall => ?_, fun before x after hsplit hlast => ?_,
    fun dependency time hblocked hstarted => ?_, htells.outputs, fun hne => ?_⟩
  · have hended := Machine.allEnded_iff.1 hall k s.phase (Machine.phaseOf?_of_state hs)
    have hcrashed := h.not_crashed hslots hpanic hj hs
    generalize s.phase = a at hrec hended hcrashed
    cases a with
    | ended outcome result => exact hrec
    | crashed message => exact absurd rfl (hcrashed message)
    | _ => cases hended
  · rw [hsplit, List.append_assoc, List.cons_append] at hlife
    exact (List.append_eq_nil_iff.1 (hlife.eq_nil_of_isLast hlast)).1
  · rw [honly _ (by simp)] at hblocked hstarted
    exact hlife.not_started_of_blocked (List.mem_append_left _ hblocked)
      (List.mem_append_left _ hstarted)
  · have hlate := htells.comesLate hne
    obtain ⟨c₀, hc₀, hm, attempts, ha, -, hfront⟩ := hlate.source
    obtain ⟨body, time, -, hcompleted⟩ := hlate.completed
    exact ⟨hlate.command, ⟨body, time, hcompleted⟩, k, hj, c₀, hc₀, hm, ⟨attempts, ha⟩,
      fun stream => (List.prefix_append _ _).trans (hfront stream)⟩

end Piped

/-! ### A command that is interrupted -/

/-- A task whose command puts out two lines and sleeps for an hour; it has a log file. -/
def chatterTask : TaskDefinition :=
  (TaskDefinition.ofCommand ⟨"chatter"⟩ (.ofProgram "chatter")).withLogFile "logs/chatter.log"

/-- The graph of the task. -/
def chatterGraph : TaskGraph := ⟨[chatterTask], [⟨"chatter"⟩]⟩

/-- What starting the command does. -/
def chatterLaunch : Launcher := fun _ _ =>
  .ok (.emit (.stdout, "one") (.emit (.stdout, "two") (.sleep (.ofMillis 3600000) fun _ =>
    .finish 0)))

/-- The plan of the graph. -/
def chatterPlan : Plan := .ofGraph chatterGraph chatterLaunch default

/-- The command puts out its lines, and its reader emits the first one. The run is interrupted, the
process is killed, and the task comes to its end. Only then the reader goes on. -/
def chatterActions : List Piped.Action :=
  List.replicate 10 (.move 0 {}) ++ [.read 0 .stdout, .read 0 .stdout, .trigger, .kill 0 []] ++
    List.replicate 6 (.move 0 {}) ++ [.read 0 .stdout, .read 0 .stdout]

/-- The run of the graph after these actions, with one slot. -/
def chatterRun : Piped :=
  (Piped.start chatterPlan 1 (Machine.world ⟨1, []⟩)).run chatterPlan chatterActions

namespace Piped

/-- What the task has told. -/
def chatterTold : List TaskChange :=
  [.started (.ofMillis 0), .output .stdout "one",
    .completed (.ofMillis 0) (.ofError .interrupted), .output .stdout "two"]

/-- No task has such a life. -/
lemma not_life_chatterTold (retries : Nat) : ¬ Life retries chatterTold := by
  intro hlife
  have hsplit : Life retries ([.started (.ofMillis 0), .output .stdout "one"] ++
      .completed (.ofMillis 0) (.ofError .interrupted) :: [.output .stdout "two"]) := hlife
  exact absurd (hsplit.eq_nil_of_isLast rfl) (by simp)

/-- **A line follows the end of its task.** The command has put out two lines when the run is
interrupted; its reader emits the second one after the task has come to its end. No task has such a
life. -/
theorem line_follows_end : TaskGraph.build [chatterTask] = .ok chatterGraph ∧
    chatterRun = (start (.ofGraph chatterGraph chatterLaunch default) 1
      (Machine.world ⟨1, []⟩)).run (.ofGraph chatterGraph chatterLaunch default) chatterActions ∧
    chatterRun.machine.allEnded = true ∧
    chatterRun.machine.events.map (·.change) = .registered "chatter" :: chatterTold ∧
    ∀ retries, ¬ Life retries chatterTold :=
  ⟨rfl, rfl, by decide +kernel, by decide +kernel, not_life_chatterTold⟩

/-- The task has told a whole life, and then a line that was still on its way. -/
theorem chatter_lives : ∃ (cs : List Piped) (later : List TaskEvent)
    (life late : List TaskChange), Trail chatterPlan 1 (Machine.world ⟨1, []⟩) (chatterRun :: cs) ∧
      chatterRun.machine.events = ⟨⟨"chatter"⟩, .registered "chatter"⟩ :: later ∧
      SystemState.changesOf ⟨"chatter"⟩ later = life ++ late ∧ Life 0 life ∧ late ≠ [] := by
  have hbuild : TaskGraph.build [chatterTask] = .ok chatterGraph := rfl
  have hslots : Slots.ofLimit? 1 = .ok (Machine.world ⟨1, []⟩).slots := rfl
  have hmax : ∀ t ∈ chatterGraph.tasks,
      t.effectiveRetryPolicy.maxRetries.toNat < RetryPolicy.maxWord :=
    List.forall_mem_singleton.2 (by decide)
  have hpanic : chatterPlan.NeverPanics := by
    intro i j hj behaviour hwork n
    match i with
    | 0 => cases hj; cases hwork
    | i + 1 => cases hj
  have hended : chatterRun.machine.allEnded = true := by decide +kernel
  have htail : SystemState.changesOf ⟨"chatter"⟩ chatterRun.machine.events.tail = chatterTold := by
    decide +kernel
  have hway : ∃ cs, Trail chatterPlan 1 (Machine.world ⟨1, []⟩) (chatterRun :: cs) :=
    exists_trail_run chatterActions
  obtain ⟨cs, htrail⟩ := hway
  obtain ⟨order, later, heq, horder, -, -, hlives⟩ :=
    htrail.lives_with_late_lines hbuild hslots hmax hpanic
  obtain rfl : order = [chatterTask] := List.perm_singleton.1 horder
  obtain ⟨life, late, htold, -, hlife, -⟩ := hlives chatterTask (by simp [chatterGraph])
  refine ⟨cs, later, life, late, htrail, heq, htold, hlife hended, ?_⟩
  rintro rfl
  have hsame : chatterTold = life := by
    rw [← htail, heq, ← List.append_nil life]
    exact htold
  exact not_life_chatterTold 0 (hsame ▸ hlife hended)

end Piped

end Taskflow
