import Mathlib.Data.List.ModifyLast
import Taskflow.Proofs.Files.Saving
import Taskflow.Proofs.Run.Attempts
import Taskflow.Proofs.Run.KeptReports
import Taskflow.Proofs.Run.Pipes.Grammar
import Taskflow.Proofs.State.Growth
set_option autoImplicit false

/-!
# Log files hold the last attempt

What a job puts out belongs to the attempt that has begun last. A task with a log file remembers the
lines of this attempt only, while the state of the task collects those of all attempts. When its
readers have come to the end of their pipes before it keeps its report, the log file holds all lines
of the last attempt, stream by stream, and so the last part of what the state holds. When a command
was interrupted while lines were on their way, the report has the first of them, and what its
readers come to later is in the state alone.

## Main definitions

* `Machine.toldInAttempts` — what a job has told, attempt by attempt.
* `Report.expectedLines` — the lines of a log file.
* `Piped.Remembers` — what the state of a job and its readers say about what it has told.
* `Piped.HasFiled` — a trail comes through a step in which a job keeps its report.

## Main results

* `Piped.Trail.remembers` — a job remembers the lines of its last attempt.
* `Piped.Trail.hasFiled` — whoever is past the report has kept it, with all that was captured.
* `Piped.Trail.log_holds_captured_lines` — what a log file holds, and what the state of its task
  holds.
* `Piped.log_misses_line` — a log file that lacks a line of the last attempt.
-/

namespace Taskflow

open TaskChange

/-! ### Attempt by attempt -/

/-- What a job has told, attempt by attempt, after a passage: an attempt begins with it, or what it
tells belongs to the last one. -/
def Passage.extend (x : Passage) (told : List TaskChange) (attempts : List (List TaskChange)) :
    List (List TaskChange) :=
  if x.attempt?.isSome then attempts ++ [[]] else attempts.modifyLast (· ++ told)

/-- Whether an attempt has begun of a job that stands here, and is not told of as over. -/
def Phase.hasAttempt : Phase → Bool
  | .attempting .. | .playing .. | .judging .. | .resting .. | .reporting .. | .completing ..
  | .releasing .. | .crashing _ | .crashed _ => true
  | _ => false

namespace Machine

variable {p : Plan} {j : Job} {s : JobState} {a b : Phase} {k : Nat} {m m' : Machine}
  {ms : List Machine} {v : Move} {told : Option TaskChange} {cs : List TaskChange}

/-- What job `k` has told in each of its attempts that have begun on a trail, in order: all changes
from the beginning of the attempt up to that of the next one. -/
def toldInAttempts (k : Nat) : List Machine → List (List TaskChange)
  | m' :: m :: ms =>
    match m.phaseOf? k, m'.phaseOf? k with
    | some a, some b =>
      (Passage.mk m a b).extend ((m'.toldBy k).drop (m.toldBy k).length)
        (toldInAttempts k (m :: ms))
    | _, _ => toldInAttempts k (m :: ms)
  | _ => []

/-- Whoever stays where they are begins no attempt. -/
lemma attempt?_self (m : Machine) (a : Phase) : (Passage.mk m a a).attempt? = none := by
  cases a <;> rfl

/-- Whoever is at work begins no attempt. -/
lemma attempt?_of_working {n : UInt32} (m : Machine) (b : Phase) (ha : a.working? = some n) :
    (Passage.mk m a b).attempt? = none := by
  cases a with
  | attempting | playing => rfl
  | _ => cases ha

/-- A step begins an attempt, or something is told in the last one. -/
lemma toldInAttempts_cons (ha : m.phaseOf? k = some a) (hb : m'.phaseOf? k = some b)
    (htold : m'.toldBy k = m.toldBy k ++ told.toList) :
    toldInAttempts k (m' :: m :: ms) =
      (Passage.mk m a b).extend told.toList (toldInAttempts k (m :: ms)) := by
  rw [toldInAttempts, ha, hb]
  simp only [htold, List.drop_left]

/-- Something is told in the last attempt, if there is one. -/
lemma modifyLast_append (attempts : List (List TaskChange)) (cs : List TaskChange) :
    attempts = [] ∧ attempts.modifyLast (· ++ cs) = [] ∨ ∃ earlier last,
      attempts = earlier ++ [last] ∧ attempts.modifyLast (· ++ cs) = earlier ++ [last ++ cs] := by
  rcases List.eq_nil_or_concat attempts with rfl | ⟨earlier, last, rfl⟩
  · exact .inl ⟨rfl, rfl⟩
  · rw [List.concat_eq_append]
    exact .inr ⟨earlier, last, rfl, List.modifyLast_concat _ _ _⟩

/-- Something more is told in as many attempts as before. -/
lemma length_modifyLast (attempts : List (List TaskChange)) (cs : List TaskChange) :
    (attempts.modifyLast (· ++ cs)).length = attempts.length := by
  obtain ⟨rfl, hmodify⟩ | ⟨earlier, last, rfl, hmodify⟩ := modifyLast_append attempts cs
  · rw [hmodify]
  · rw [hmodify]
    simp

/-- **There are as many attempts in which something may have been told as have begun.** -/
lemma length_toldInAttempts (k : Nat) (ms : List Machine) :
    (toldInAttempts k ms).length = (begun k ms).length := by
  induction ms with
  | nil => rfl
  | cons m' ms ih =>
    cases ms with
    | nil => rfl
    | cons m ms =>
      cases ha : m.phaseOf? k with
      | none =>
        have hbegun : begun k (m' :: m :: ms) = begun k (m :: ms) := by
          simp only [begun, passages, ha]
        rw [hbegun, ← ih, toldInAttempts, ha]
      | some a =>
        cases hb : m'.phaseOf? k with
        | none =>
          have hbegun : begun k (m' :: m :: ms) = begun k (m :: ms) := by
            simp only [begun, passages, ha, hb]
          rw [hbegun, ← ih, toldInAttempts, ha, hb]
        | some b =>
          rw [begun_cons ha hb, toldInAttempts, ha, hb]
          unfold Passage.extend
          cases h : (Passage.mk m a b).attempt? with
          | none => simp [h, length_modifyLast, ih]
          | some n => simp [h, ih]

/-- An attempt that has begun stays one. -/
lemma extend_ne_nil (x : Passage) {attempts : List (List TaskChange)} (h : attempts ≠ []) :
    x.extend cs attempts ≠ [] := by
  unfold Passage.extend
  split
  · simp
  · rw [← List.length_pos_iff, length_modifyLast, List.length_pos_iff]
    exact h

/-- A job none of whose attempts has begun begins one, or does not come so far as to tell its
end. -/
lemma Act.tries (h : Act p j m a v) (ha : a.hasAttempt = false) :
    (v.phase.hasAttempt = true → (Passage.mk m a v.phase).attempt?.isSome = true) ∧
      ∀ time outcome, v.deed.told ≠ some (.completed time outcome) := by
  cases h with
  | stay => exact ⟨fun h => absurd h (by simp [ha]), by simp [Deed.told]⟩
  | grant | hear => exact ⟨by simp [Phase.hasAttempt], by simp [Deed.told]⟩
  | move h =>
    cases h with
    | begin | fail => exact ⟨fun _ => rfl, by simp [Deed.told]⟩
    | start | block | settle | giveUp | proceed | hearSuccess | hearFailure | hearInterrupt
    | withdraw | ask | take | join | leave | refuse | accept =>
      exact ⟨by simp [Phase.hasAttempt, withdrawn], by simp [Deed.told]⟩
    | _ => cases ha

/-- A job whose attempts are over remembers nothing new, and tells at most its end. -/
lemma Act.of_conclusion? {attempts : UInt32} {outcome : TaskOutcome} (h : Act p j m a v)
    (ha : a.conclusion? = some (attempts, outcome)) :
    (∀ s, v.deed.impress j.task m.now s = s) ∧
      ∀ x ∈ v.deed.told, ∃ time, x = .completed time outcome := by
  cases h with
  | stay => exact ⟨fun _ => rfl, fun _ hx => nomatch hx⟩
  | grant | hear => cases ha
  | move h =>
    cases h with
    | keep =>
      refine ⟨fun s => by rw [impress_keepReport]; rfl, fun x hx => ?_⟩
      rw [told_keepReport] at hx
      cases hx
    | complete =>
      cases ha
      refine ⟨fun _ => rfl, fun x hx => ?_⟩
      cases hx
      exact ⟨_, rfl⟩
    | release | settle => exact ⟨fun _ => rfl, fun _ hx => nomatch hx⟩
    | _ => cases ha

end Machine

/-! ### The text of a log file -/

/-- The lines of a log file: a header with the task, how and when it was executed, in which run, and
with the error if the task has failed, and then the lines that were written, stream by stream. -/
def Report.expectedLines (j : Job) (start duration : Nat) (outcome : TaskOutcome)
    (written : Stream → List String) : List String :=
  ["# Task: " ++ j.task.id.text,
    "# Status: " ++ (if outcome.isSuccess then "succeeded" else "failed"),
    "# Duration: " ++ Report.secondsText duration,
    "# Started: " ++ (Timestamp.ofMillis start).offsetText,
    "# Run: " ++ j.run.hyphenated] ++
  (match outcome with
    | .success _ => []
    | .failure error _ _ => ["# Error: " ++ error]) ++
  ["", "--- stdout ---"] ++ written .stdout ++ ["", "--- stderr ---"] ++ written .stderr

namespace Machine

/-- A report has the lines that were captured, stream by stream. -/
lemma lines_reportOf (m : Machine) (j : Job) (s : JobState) (outcome : TaskOutcome) :
    (m.reportOf j s outcome).lines =
      Report.expectedLines j s.startedAt (m.now - s.startedAt) outcome s.captured.lines := by
  have hout : "--- " ++ "stdout" ++ " ---" = "--- stdout ---" := rfl
  have herr : "--- " ++ "stderr" ++ " ---" = "--- stderr ---" := rfl
  cases outcome <;>
    simp only [Report.lines, Report.header, Report.statusText, Report.streamSection, reportOf,
      Report.expectedLines, hout, herr, List.append_assoc] <;>
    rfl

/-- The text of a report is made of its lines. -/
lemma text_reportOf (m : Machine) (j : Job) (s : JobState) (outcome : TaskOutcome) :
    (m.reportOf j s outcome).text = String.join ((Report.expectedLines j s.startedAt
      (m.now - s.startedAt) outcome s.captured.lines).map (· ++ "\n")) := by
  rw [Report.text, lines_reportOf]

/-- A report is no empty text. -/
lemma encode_text_ne_nil (r : Report) : Utf8.encode r.text ≠ [] := by
  have hfirst : Utf8.encodeChar '#' ≠ [] := by decide
  obtain ⟨rest, hrest⟩ : ∃ rest, r.lines = ("# Task: " ++ r.task.text) :: rest := ⟨_, rfl⟩
  obtain ⟨more, hmore⟩ : ∃ more, "# Task: ".toList = '#' :: more := ⟨_, rfl⟩
  rw [Utf8.encode, Report.text, hrest, List.map_cons, String.join_cons, String.toList_append,
    String.toList_append, String.toList_append, hmore, List.cons_append, List.cons_append,
    List.cons_append, List.flatMap_cons]
  exact List.append_ne_nil_of_left_ne_nil hfirst _

end Machine

namespace Piped

variable {p : Plan} {j : Job} {s s' : JobState} {k : Nat} {c c' : Piped} {cs : List Piped}
  {a b : Phase} {told : Option TaskChange} {q q' : Pipes} {said life late : List TaskChange}
  {attempts : List (List TaskChange)} {stream : Stream} {line : String} {m : Machine} {v : Move}
  {i : Bool} {path : String} {interval limit : Nat} {world : Machine}

/-! ### What is remembered -/

/-- What the state of a job and its readers say about what it has told: when it started, and the
lines of its last attempt, of which the readers may not have emitted the last one yet. All its lines
belong to attempts. -/
structure Remembers (s : JobState) (q : Pipes) (said : List TaskChange)
    (attempts : List (List TaskChange)) : Prop where
  started : ∀ time, .started time ∈ said → time = .ofMillis s.startedAt
  captured : ∀ stream, s.captured.lines stream =
    outputOn stream (attempts.getLast?.getD []) ++ (q.get stream).held.toList
  lines : ∀ stream, outputOn stream said = attempts.flatMap (outputOn stream)

namespace Remembers

/-- An attempt begins, and the lines of the one before are forgotten. -/
lemma forget (h : Remembers s q said attempts) (b : Phase) (hq : q.isDrained = true) :
    Remembers { s with phase := b, captured := {} } q said (attempts ++ [[]]) where
  started := h.started
  captured stream := by
    rw [Pipes.held_of_isDrained stream hq]
    cases stream <;> simp [CapturedOutput.lines, outputOn]
  lines stream := by
    rw [h.lines stream]
    simp [outputOn]

/-- Something is told in the last attempt, and captured if it is a line. -/
lemma tell (h : Remembers s q said attempts)
    (hattempts : attempts = [] → ∀ stream, outputOn stream told.toList = [])
    (hcaptured : ∀ stream, s'.captured.lines stream = outputOn stream (attempts.getLast?.getD []) ++
      outputOn stream told.toList ++ (q'.get stream).held.toList)
    (hstarted : ∀ time, .started time ∈ said ++ told.toList → time = .ofMillis s'.startedAt) :
    Remembers s' q' (said ++ told.toList) (attempts.modifyLast (· ++ told.toList)) := by
  refine ⟨hstarted, fun stream => ?_, fun stream => ?_⟩
  · rw [hcaptured]
    obtain ⟨rfl, hmodify⟩ | ⟨earlier, last, rfl, hmodify⟩ :=
      Machine.modifyLast_append attempts told.toList
    · rw [hmodify, hattempts rfl]
      simp
    · rw [hmodify]
      simp
  · rw [outputOn_append, h.lines]
    obtain ⟨rfl, hmodify⟩ | ⟨earlier, last, rfl, hmodify⟩ :=
      Machine.modifyLast_append attempts told.toList
    · rw [hmodify, hattempts rfl]
      simp
    · rw [hmodify]
      simp

/-- What is no line may be told, and nothing is captured or emitted. -/
lemma quiet (h : Remembers s q said attempts) (hcaptured : s'.captured = s.captured)
    (hheld : ∀ stream, (q'.get stream).held = (q.get stream).held)
    (hlines : ∀ stream, outputOn stream told.toList = [])
    (hstarted : ∀ time, .started time ∈ said ++ told.toList → time = .ofMillis s'.startedAt) :
    Remembers s' q' (said ++ told.toList) (attempts.modifyLast (· ++ told.toList)) :=
  h.tell (fun _ => hlines)
    (fun stream => by rw [hcaptured, h.captured, hlines, hheld, List.append_nil]) hstarted

/-- Nothing is told, captured or emitted. -/
lemma silent (h : Remembers s q said attempts) (hcaptured : s'.captured = s.captured)
    (hstartedAt : s'.startedAt = s.startedAt)
    (hheld : ∀ stream, (q'.get stream).held = (q.get stream).held) :
    Remembers s' q' (said ++ Option.toList none) (attempts.modifyLast (· ++ Option.toList none)) :=
  h.quiet hcaptured hheld (fun _ => rfl) fun time hmem => by
    rw [hstartedAt]
    exact h.started time (by simpa using hmem)

/-- A line is captured, emitted, or both. -/
lemma output (h : Remembers s q said attempts) (hattempts : attempts ≠ [])
    (hstartedAt : s'.startedAt = s.startedAt)
    (hcaptured : ∀ other, s'.captured.lines other = outputOn other (attempts.getLast?.getD []) ++
      outputOn other [.output stream line] ++ (q'.get other).held.toList) :
    Remembers s' q' (said ++ [.output stream line])
      (attempts.modifyLast (· ++ [.output stream line])) := by
  show Remembers s' q' (said ++ Option.toList (some (.output stream line)))
    (attempts.modifyLast (· ++ Option.toList (some (.output stream line))))
  refine h.tell (fun hnil => absurd hnil hattempts) hcaptured fun time hmem => ?_
  rw [hstartedAt]
  exact h.started time (by simpa using hmem)

end Remembers

/-- A line that is captured is the last one of its stream. -/
lemma lines_push (o : CapturedOutput) (stream other : Stream) (line : String) :
    (o.push stream line).lines other = o.lines other ++ outputOn other [.output stream line] := by
  cases stream <;> cases other <;>
    simp [CapturedOutput.push, CapturedOutput.lines, outputOn, line?]

/-- A job with a log file captures its lines. -/
lemma remember_output (hlog : j.task.logFile.isSome = true) (now : Nat) (s : JobState)
    (stream : Stream) (line : String) :
    Machine.remember j.task now s (.output stream line) =
      { s with captured := s.captured.push stream line } := by
  simp only [Machine.remember, hlog, if_true]

/-- Lines are on their way only where a command is at work, or was cut short. -/
lemma isDrained_of_not_unread (hun : q.isDrained = false → j.task.isCommand = true ∧ a.Unread i)
    (ha : ¬ a.Unread i) : q.isDrained = true := by
  rw [← Bool.not_eq_false]
  exact fun hq => ha (hun hq).2

/-- **A job that makes a move remembers what it does.** -/
lemma Remembers.act (h : Remembers s q said attempts) (hlog : j.task.logFile.isSome = true)
    (hact : Machine.Act p j m s.phase v) (hwaits : Waits j.task m s.phase q v)
    (hun : q.isDrained = false → j.task.isCommand = true ∧ s.phase.Unread m.interrupted)
    (hplaying : ∀ n script, s.phase = .playing n script → attempts ≠ [])
    (hstarting : s.phase = .starting → ¬ HasStarted said) :
    Remembers { v.deed.impress j.task m.now s with phase := v.phase } q (said ++ v.deed.told.toList)
      ((Passage.mk m s.phase v.phase).extend v.deed.told.toList attempts) := by
  have hquiet : ∀ {b : Phase} {x : Option TaskChange}, (∀ stream, outputOn stream x.toList = []) →
      (∀ time, .started time ∉ x.toList) →
        Remembers { s with phase := b } q (said ++ x.toList)
          (attempts.modifyLast (· ++ x.toList)) := by
    intro b x hlines hnot
    refine h.quiet rfl (fun _ => rfl) hlines fun time hmem => ?_
    exact h.started time ((List.mem_append.1 hmem).resolve_right (hnot time))
  have hsilent : ∀ {b : Phase}, Remembers { s with phase := b } q (said ++ Option.toList none)
      (attempts.modifyLast (· ++ Option.toList none)) := h.silent rfl rfl fun _ => rfl
  generalize s.phase = a at hact hwaits hun hplaying hstarting
  cases hact with
  | stay =>
    rw [Passage.extend, Machine.attempt?_self]
    exact hsilent
  | grant | hear => exact hsilent
  | move hmove =>
    cases hmove with
    | start =>
      show Remembers { s with phase := .beginning 0, startedAt := m.now } q
        (said ++ Option.toList (some (.started m.timestamp)))
        (attempts.modifyLast (· ++ Option.toList (some (.started m.timestamp))))
      refine h.quiet rfl (fun _ => rfl) (fun _ => rfl) fun time hmem => ?_
      rcases List.mem_append.1 hmem with hmem | hmem
      · exact absurd ⟨time, hmem⟩ (hstarting rfl)
      · cases List.mem_singleton.1 hmem
        rfl
    | begin | fail =>
      show Remembers _ q (said ++ []) (attempts ++ [[]])
      rw [List.append_nil]
      exact h.forget _ (isDrained_of_not_unread hun
        (by simp [Phase.Unread, Phase.working?, Phase.conclusion?]))
    | emit n stream line next =>
      have hdrained : q.isDrained = true := by
        rw [← Bool.not_eq_false]
        exact fun hq => hwaits.silent (hun hq).1 stream line rfl
      refine h.output (hplaying _ _ rfl) ?_ fun other => ?_
      · simp only [Deed.impress, remember_output hlog]
      · simp only [Deed.impress, remember_output hlog, lines_push, h.captured,
          Pipes.held_of_isDrained other hdrained, Option.toList_none, List.append_nil]
    | block | retry | complete => exact hquiet (fun _ => rfl) (by simp [Deed.told])
    | keep =>
      rw [Machine.told_keepReport, Machine.impress_keepReport]
      exact hsilent
    | _ => exact hsilent

/-- A reader captures a line, which it has in hand then. -/
lemma Remembers.capture (h : Remembers s q said attempts) {rest : List String}
    (hq : q.get stream = ⟨line :: rest, none⟩) :
    Remembers { s with captured := s.captured.push stream line }
      (q.set stream ⟨rest, some line⟩) (said ++ Option.toList none)
      (attempts.modifyLast (· ++ Option.toList none)) := by
  refine h.tell (fun _ _ => rfl) (fun other => ?_)
    fun time hmem => h.started time (by simpa using hmem)
  rw [lines_push, h.captured, Pipes.get_set]
  by_cases heq : stream = other
  · subst heq
    rw [if_pos rfl, hq]
    simp [outputOn, line?]
  · simp [heq, outputOn, line?]

/-- A reader emits the line that it has in hand, which was captured before. -/
lemma Remembers.emit (h : Remembers s q said attempts) (hattempts : attempts ≠ [])
    {rest : List String} (hq : q.get stream = ⟨rest, some line⟩) :
    Remembers s (q.set stream ⟨rest, none⟩) (said ++ [.output stream line])
      (attempts.modifyLast (· ++ [.output stream line])) := by
  refine h.output hattempts rfl fun other => ?_
  rw [h.captured, Pipes.get_set]
  by_cases heq : stream = other
  · subst heq
    rw [if_pos rfl, hq]
    simp [outputOn, line?]
  · simp [heq, outputOn, line?]

/-- Whatever a job and its readers do, the job remembers it. -/
lemma Does.remembers (hdoes : Does p j m s q s' q' told) (h : Remembers s q said attempts)
    (hlog : j.task.logFile.isSome = true)
    (hun : q.isDrained = false → j.task.isCommand = true ∧ s.phase.Unread m.interrupted)
    (htried : s.phase.hasAttempt = true ∨ q.isDrained = false → attempts ≠ [])
    (hstarting : s.phase = .starting → ¬ HasStarted said) :
    Remembers s' q' (said ++ told.toList)
      ((Passage.mk m s.phase s'.phase).extend told.toList attempts) := by
  cases hdoes with
  | act hact hwaits =>
    exact h.act hlog hact hwaits hun
      (fun n script hplaying => htried (.inl (by rw [hplaying]; rfl))) hstarting
  | write _ hplaying =>
    rw [Passage.extend, Machine.attempt?_of_working m _ (by rw [hplaying]; rfl)]
    exact h.silent rfl rfl fun other => q.held_get_set _ other rfl
  | kill _ _ _ hwork =>
    rw [Passage.extend, Machine.attempt?_of_working m _ hwork]
    exact h.silent rfl rfl fun _ => rfl
  | capture hq =>
    rw [remember_output hlog, Passage.extend, Machine.attempt?_self]
    exact h.capture hq
  | emit hq =>
    rw [Passage.extend, Machine.attempt?_self]
    exact h.emit (htried (.inr (Pipes.not_isDrained _ (by rw [hq]; simp)))) hq
  | stop =>
    rw [Passage.extend, Machine.attempt?_self]
    exact h.silent rfl rfl fun other => q.held_get_set _ other rfl

/-- Whatever a job and its readers do, there is an attempt for what is told. -/
lemma Does.tried (hdoes : Does p j m s q s' q' told)
    (h : s.phase.hasAttempt = true ∨ q.isDrained = false ∨ HasCompleted said → attempts ≠ [])
    (htried : s'.phase.hasAttempt = true ∨ q'.isDrained = false ∨
      HasCompleted (said ++ told.toList)) :
    (Passage.mk m s.phase s'.phase).extend told.toList attempts ≠ [] := by
  by_cases hne : attempts ≠ []
  · exact Machine.extend_ne_nil _ hne
  obtain ⟨huntried, hrest⟩ := not_or.1 (mt h hne)
  obtain ⟨hdrained, hsilent⟩ := not_or.1 hrest
  rw [Bool.not_eq_true] at huntried
  rw [Bool.not_eq_false] at hdrained
  have hleft : ∀ {stream : Stream}, q.get stream = {} := fun {stream} =>
    Pipes.isDrained_iff.1 hdrained stream
  cases hdoes with
  | act hact hwaits =>
    rename_i v
    obtain ⟨hbegins, htold⟩ := hact.tries huntried
    have hphase : v.phase.hasAttempt = true := by
      refine htried.resolve_right (not_or.2 ⟨by simp [hdrained], ?_⟩)
      rintro ⟨time, outcome, hmem⟩
      rcases List.mem_append.1 hmem with hmem | hmem
      · exact hsilent ⟨time, outcome, hmem⟩
      · exact htold time outcome (Option.mem_toList.1 hmem)
    rw [Passage.extend, if_pos (hbegins hphase)]
    simp
  | write _ hplaying =>
    rw [hplaying] at huntried
    cases huntried
  | kill _ _ _ hwork =>
    generalize s.phase = a at hwork huntried
    cases a with
    | attempting | playing => cases huntried
    | _ => cases hwork
  | capture hq => rw [hleft] at hq; cases hq
  | emit hq => rw [hleft] at hq; cases hq
  | stop =>
    rw [huntried, Pipes.isDrained_stop _ hdrained] at htried
    simp [hsilent] at htried

/-- The machines of a trail. -/
def machines (cs : List Piped) : List Machine := cs.map (·.machine)

/-- A job that has something left to tell has told what its phase says. -/
lemma Trail.told_of_not_isOver (hslots : Slots.ofLimit? limit = .ok world.slots)
    (h : Trail p interval world (c :: cs)) (hj : p.jobs[k]? = some j)
    (hs : c.machine.jobs[k]? = some s) (hover : s.phase.isOver = false) :
    ∃ life, c.machine.toldBy k = j.registration ++ life ∧
      s.phase.Told c.machine.interrupted life := by
  obtain ⟨life, late, htold, htells⟩ := h.tells hslots hj hs
  have hlate : late = [] := by
    by_contra hne
    exact absurd (htells.comesLate hne).isOver (by simp [hover])
  exact ⟨life, by rw [htold, hlate, List.append_nil], htells.tells.told⟩

/-- **A job with a log file remembers the lines of its last attempt**, on every trail. What it has
told of an attempt, it has told after one has begun. -/
theorem Trail.remembers (hslots : Slots.ofLimit? limit = .ok world.slots)
    (h : Trail p interval world (c :: cs)) (hj : p.jobs[k]? = some j)
    (hlog : j.task.logFile.isSome = true) (hs : c.machine.jobs[k]? = some s) :
    Remembers s (c.pipes k) (c.machine.toldBy k)
        (Machine.toldInAttempts k (machines (c :: cs))) ∧
      (s.phase.hasAttempt = true ∨ (c.pipes k).isDrained = false ∨
        HasCompleted (c.machine.toldBy k) →
          Machine.toldInAttempts k (machines (c :: cs)) ≠ []) := by
  refine h.induct hslots hj (I := fun c cs s q said =>
    Remembers s q said (Machine.toldInAttempts k (machines (c :: cs))) ∧
      (s.phase.hasAttempt = true ∨ q.isDrained = false ∨ HasCompleted said →
        Machine.toldInAttempts k (machines (c :: cs)) ≠ [])) ?_ ?_ hs
  · refine ⟨⟨fun time hmem => ?_, fun stream => ?_, fun stream => ?_⟩, ?_⟩
    · unfold Job.registration at hmem
      split at hmem <;> simp at hmem
    · cases stream <;> rfl
    · unfold Job.registration
      split <;> rfl
    · rintro (hphase | hq | hcompleted)
      · unfold Machine.firstPhase at hphase
        split at hphase <;> cases hphase
      · cases hq
      · rw [← List.append_nil j.registration, hasCompleted_registration] at hcompleted
        obtain ⟨_, _, hmem⟩ := hcompleted
        cases hmem
  · intro c c' cs s s' told h hstep hdoing ⟨hremembers, htried⟩
    have ha := Machine.phaseOf?_of_state hdoing.before_eq
    have hb := Machine.phaseOf?_of_state hdoing.after_eq
    have hcons : Machine.toldInAttempts k (machines (c' :: c :: cs)) =
        (Passage.mk c.machine s.phase s'.phase).extend told.toList
          (Machine.toldInAttempts k (machines (c :: cs))) :=
      Machine.toldInAttempts_cons ha hb hdoing.told_eq
    rw [hcons]
    refine ⟨hdoing.does.remembers hremembers hlog (h.unread hslots hj hdoing.before_eq)
      (fun htry => htried (htry.imp_right .inl)) (fun hphase => ?_), hdoing.does.tried htried⟩
    obtain ⟨life, htold, hlife⟩ :=
      h.told_of_not_isOver hslots hj hdoing.before_eq (by rw [hphase]; rfl)
    rw [hphase] at hlife
    obtain rfl : life = [] := hlife
    rw [htold, hasStarted_registration]
    rintro ⟨_, hmem⟩
    cases hmem

/-! ### The report and what comes after it -/

/-- What has become of a report of job `k`, which the job kept in state `s₀` while its pipes were
`q₀`: the job has come to the end that was reported, and what was captured since is the first part
of what its readers had before them then. -/
structure Follows (s₀ : JobState) (q₀ : Pipes) (attempts : UInt32) (outcome : TaskOutcome)
    (s : JobState) (q : Pipes) (said : List TaskChange) : Prop where
  startedAt : s.startedAt = s₀.startedAt
  conclusion : s.phase.conclusion? = some (attempts, outcome)
  completed : ∀ time o, .completed time o ∈ said → o = outcome
  captured : ∀ stream, ∃ rest, s.captured.lines stream = s₀.captured.lines stream ++ rest ∧
    rest ++ (q.get stream).lines <+: (q₀.get stream).lines
  drained : q₀.isDrained = true → q.isDrained = true

/-- On a trail, job `k` has written its report to its file. -/
def HasFiled (k : Nat) (j : Job) (path : String) (trail : List Piped) (s : JobState) (q : Pipes)
    (said : List TaskChange) : Prop :=
  ∃ later after before earlier s₀ attempts outcome,
    trail = later ++ after :: before :: earlier ∧ before.machine.jobs[k]? = some s₀ ∧
    s₀.phase = .reporting attempts outcome ∧
    after.machine.files = (before.machine.files.trySave FileTree.workingDir path
      (before.machine.reportOf j s₀ outcome).text).1 ∧
    Follows s₀ (before.pipes k) attempts outcome s q said

namespace Follows

variable {s₀ : JobState} {q₀ : Pipes} {n : UInt32} {outcome : TaskOutcome} {rest : List String}

/-- A job that has kept its report is not at work. -/
lemma working?_eq_none (h : Follows s₀ q₀ n outcome s q said) : s.phase.working? = none := by
  have hover := h.conclusion
  cases hphase : s.phase with
  | attempting | playing => rw [hphase] at hover; cases hover
  | _ => rfl

/-- The job makes a move. -/
lemma act (h : Follows s₀ q₀ n outcome s q said) (hact : Machine.Act p j m s.phase v) :
    Follows s₀ q₀ n outcome { v.deed.impress j.task m.now s with phase := v.phase } q
      (said ++ v.deed.told.toList) := by
  obtain ⟨hsame, htold⟩ := hact.of_conclusion? h.conclusion
  rw [hsame]
  refine ⟨h.startedAt, hact.conclusion?_eq h.conclusion, fun time o hmem => ?_, h.captured,
    h.drained⟩
  rcases List.mem_append.1 hmem with hmem | hmem
  · exact h.completed time o hmem
  · obtain ⟨time', heq⟩ := htold _ (Option.mem_toList.1 hmem)
    cases heq
    rfl

/-- A reader captures a line from the front of what it had before it. -/
lemma capture (h : Follows s₀ q₀ n outcome s q said)
    (hq : q.get stream = ⟨line :: rest, none⟩) :
    Follows s₀ q₀ n outcome { s with captured := s.captured.push stream line }
      (q.set stream ⟨rest, some line⟩) said := by
  refine ⟨h.startedAt, h.conclusion, h.completed, fun other => ?_, fun hdrained => ?_⟩
  · obtain ⟨more, hmore, hfront⟩ := h.captured other
    rw [lines_push, hmore, Pipes.get_set, List.append_assoc]
    refine ⟨_, rfl, ?_⟩
    by_cases heq : stream = other
    · subst heq
      rw [hq] at hfront
      simpa [outputOn, line?] using hfront
    · simpa [heq, outputOn, line?] using hfront
  · rw [Pipes.isDrained_iff.1 (h.drained hdrained)] at hq
    cases hq

/-- A reader emits a line. -/
lemma emit (h : Follows s₀ q₀ n outcome s q said) (hq : q.get stream = ⟨rest, some line⟩) :
    Follows s₀ q₀ n outcome s (q.set stream ⟨rest, none⟩) (said ++ [.output stream line]) := by
  refine ⟨h.startedAt, h.conclusion, by simpa using h.completed, fun other => ?_,
    fun hdrained => ?_⟩
  · obtain ⟨more, hmore, hfront⟩ := h.captured other
    refine ⟨more, hmore, ?_⟩
    rw [Pipes.get_set]
    by_cases heq : stream = other
    · subst heq
      rw [if_pos rfl]
      rwa [hq] at hfront
    · rwa [if_neg heq]
  · rw [Pipes.isDrained_iff.1 (h.drained hdrained)] at hq
    cases hq

/-- A reader stops, and what lies in its pipe is captured by nobody. -/
lemma stop (h : Follows s₀ q₀ n outcome s q said) (stream : Stream) :
    Follows s₀ q₀ n outcome s (q.set stream ⟨[], (q.get stream).held⟩) said := by
  refine ⟨h.startedAt, h.conclusion, h.completed, fun other => ?_,
    fun hdrained => Pipes.isDrained_stop _ (h.drained hdrained)⟩
  obtain ⟨more, hmore, hfront⟩ := h.captured other
  refine ⟨more, hmore, ?_⟩
  rw [Pipes.get_set]
  split
  next => exact (List.append_nil more).symm ▸ (List.prefix_append _ _).trans hfront
  next => exact hfront

/-- What follows a report goes on whatever a job and its readers do. -/
lemma does (h : Follows s₀ q₀ n outcome s q said) (hdoes : Does p j m s q s' q' told)
    (hlog : j.task.logFile.isSome = true) :
    Follows s₀ q₀ n outcome s' q' (said ++ told.toList) := by
  have hidle := h.working?_eq_none
  cases hdoes with
  | act hact => exact h.act hact
  | write _ hplaying => rw [hplaying] at hidle; cases hidle
  | kill _ _ _ hwork => rw [hidle] at hwork; cases hwork
  | capture hq =>
    rw [remember_output hlog, Option.toList_none, List.append_nil]
    exact h.capture hq
  | emit hq => exact h.emit hq
  | stop =>
    rw [Option.toList_none, List.append_nil]
    exact h.stop _

/-- The result of the job has the outcome that was reported. -/
lemma outcome_of_resultOf? (h : Follows s₀ q₀ n outcome s q said) {r : TaskResult}
    (hs : m.jobs[k]? = some s) (hr : m.resultOf? k = some r) : r.outcome = outcome := by
  have hover := h.conclusion
  obtain ⟨o, ho⟩ := Machine.exists_ended_of_resultOf? hr
  rw [Machine.phaseOf?_of_state hs] at ho
  have hended : s.phase = .ended o (some r) := Option.some.inj ho
  rw [hended] at hover
  exact congrArg Prod.snd (Option.some.inj hover)

end Follows

/-- The step in which a job keeps its report writes it to its file. -/
lemma Step.saves {attempts : UInt32} {outcome : TaskOutcome} (hstep : Step p c c')
    (hj : p.jobs[k]? = some j) (hlog : j.task.logFile = some path)
    (hs : c.machine.jobs[k]? = some s) (hphase : s.phase = .reporting attempts outcome)
    (hb : c'.machine.phaseOf? k = some (.completing attempts outcome)) :
    c'.machine.files = (c.machine.files.trySave FileTree.workingDir path
      (c.machine.reportOf j s outcome).text).1 := by
  have ha : c.machine.phaseOf? k = some (.reporting attempts outcome) := by
    rw [Machine.phaseOf?_of_state hs, hphase]
  cases hstep with
  | move _ hv => exact ((Machine.Step.move hv).saves hj hlog hs hphase hb).1
  | arrive hi hd hmem =>
    exact ((Machine.Step.arrive (p := p) hi hd hmem).saves hj hlog hs hphase hb).1
  | ambient _ _ hc hm =>
    exact ((Machine.Step.ambient (p := p) _ _ hc hm).saves hj hlog hs hphase hb).1
  | write | kill =>
    simp only [update, Machine.phaseOf?_setPhase, ha] at hb
    split at hb <;> cases hb
  | capture =>
    simp only [update, Machine.phaseOf?_capture, ha] at hb
    cases hb
  | emit | stop =>
    simp only [update, Machine.phaseOf?_emit, ha] at hb
    cases hb

/-- Whatever a job and its readers do, the job is past its report only if it was before, or if it
keeps its report now. -/
lemma Does.isPast (hdoes : Does p j m s q s' q' told) (hlog : j.task.logFile.isSome = true)
    (hpast : Machine.IsPast s'.phase (said ++ told.toList)) :
    Machine.IsPast s.phase said ∨ ∃ attempts outcome, s.phase = .reporting attempts outcome ∧
      s' = { s with phase := .completing attempts outcome } ∧ q' = q ∧ told = none := by
  -- a line is no end
  have hline : ∀ {stream : Stream} {line : String},
      HasCompleted (said ++ [.output stream line]) → HasCompleted said := by
    rintro stream line ⟨time, outcome, hmem⟩
    exact ⟨time, outcome, by simpa using hmem⟩
  have hnil : HasCompleted (said ++ Option.toList none) → HasCompleted said := by
    intro h
    rwa [Option.toList_none, List.append_nil] at h
  cases hdoes with
  | act hact hwaits =>
    rename_i v
    rcases hact.turn.isPast hlog hpast with hpast | ⟨attempts, outcome, ha, hb⟩
    · exact .inl hpast
    · refine .inr ⟨attempts, outcome, ha, ?_⟩
      generalize s.phase = a at ha hact
      subst ha
      cases hact with
      | stay => cases hb
      | move hmove =>
        cases hmove with
        | keep =>
          rw [Machine.impress_keepReport, Machine.told_keepReport]
          exact ⟨rfl, rfl, rfl⟩
  | write | kill =>
    rcases hpast with ⟨_, _, h⟩ | ⟨_, _, h⟩ | h
    · cases h
    · cases h
    · exact .inl (.inr (.inr (hnil h)))
  | capture =>
    rw [Machine.remember_phase] at hpast
    exact .inl (hpast.imp_right (Or.imp_right hnil))
  | emit => exact .inl (hpast.imp_right (Or.imp_right hline))
  | stop => exact .inl (hpast.imp_right (Or.imp_right hnil))

/-- **Whoever is past the report has kept it**, with all that was captured until then. -/
theorem Trail.hasFiled (hslots : Slots.ofLimit? limit = .ok world.slots)
    (h : Trail p interval world (c :: cs)) (hj : p.jobs[k]? = some j)
    (hlog : j.task.logFile = some path) (hs : c.machine.jobs[k]? = some s)
    (hpast : Machine.IsPast s.phase (c.machine.toldBy k)) :
    HasFiled k j path (c :: cs) s (c.pipes k) (c.machine.toldBy k) := by
  refine h.induct hslots hj (I := fun c cs s q said => Machine.IsPast s.phase said →
    HasFiled k j path (c :: cs) s q said) ?_ ?_ hs hpast
  · exact fun h => absurd h (Machine.not_isPast_start j)
  · intro c c' cs s s' told h hstep hdoing hfiled hpast
    rcases hdoing.does.isPast (by rw [hlog]; rfl) hpast with
      hpast | ⟨attempts, outcome, hphase, rfl, hq, rfl⟩
    · obtain ⟨later, after, before, earlier, s₀, attempts, outcome, htrail, hs₀, hphase, hfiles,
        hfollows⟩ := hfiled hpast
      exact ⟨c' :: later, after, before, earlier, s₀, attempts, outcome, by rw [htrail]; rfl, hs₀,
        hphase, hfiles, hfollows.does hdoing.does (by rw [hlog]; rfl)⟩
    · have hb := Machine.phaseOf?_of_state hdoing.after_eq
      refine ⟨[], c', c, cs, s, attempts, outcome, rfl, hdoing.before_eq, hphase,
        hstep.saves hj hlog hdoing.before_eq hphase hb, rfl, rfl, fun time o hmem => ?_,
        fun stream => ⟨[], (List.append_nil _).symm, ?_⟩, ?_⟩
      · obtain ⟨life, htold, hlife⟩ :=
          h.told_of_not_isOver hslots hj hdoing.before_eq (by rw [hphase]; rfl)
        rw [hphase] at hlife
        have hsilent : ¬ HasCompleted (c.machine.toldBy k) := by
          rw [htold, hasCompleted_registration]
          exact Underway.not_completed hlife
        exact absurd ⟨time, o, by simpa using hmem⟩ hsilent
      · rw [hq]
        exact List.prefix_refl _
      · rw [hq]
        exact id

/-! ### The file and the state -/

/-- The state to which all changes lead that a job has told holds the lines of all attempts. -/
lemma lines_foldl_told (hnot : ∀ name, .registered name ∉ said) (stream : Stream) :
    ((((j.registration ++ said).foldl TaskState.apply (.fresh j.task.id j.task.name)).lines
      stream).toList) = outputOn stream (j.registration ++ said) := by
  have hregistration : j.registration.foldl TaskState.apply (.fresh j.task.id j.task.name) =
      .fresh j.task.id j.task.name := by
    unfold Job.registration
    split <;> rfl
  have hnone : outputOn stream j.registration = [] := by
    unfold Job.registration
    split <;> rfl
  rw [List.foldl_append, hregistration, TaskState.foldl_apply_fresh _ _ hnot, outputOn_append,
    hnone, List.nil_append]
  cases stream <;> exact OutputLines.toList_ofList _

/-- After its registration a job registers nothing. -/
lemma TellsAll.registered_notMem {trail : List Piped}
    (h : TellsAll j k i trail a q life late) (name : String) :
    .registered name ∉ life ++ late := by
  intro hmem
  rcases List.mem_append.1 hmem with hmem | hmem
  · exact h.tells.told.lived.registered_notMem name hmem
  · obtain ⟨stream, line, heq⟩ := h.outputs _ hmem
    cases heq

/-- What is known of a task is what its job has told. -/
lemma Trail.get?_fold_events (hp : p.Linked) (h : Trail p interval world (c :: cs))
    (hj : p.jobs[k]? = some j) (htold : c.machine.toldBy k = j.registration ++ said) :
    (SystemState.empty.fold c.machine.events).get? j.task.id =
      some ((c.machine.toldBy k).foldl TaskState.apply (.fresh j.task.id j.task.name)) := by
  rw [SystemState.get?_fold, Machine.changesOf_events_of_tagged hp h.events_eq.2 hj, htold,
    Job.registration, if_pos (hp.gated hj)]
  exact TaskState.foldl_learn?_some said (.fresh j.task.id j.task.name)

/-- Whoever has come to the end of its life has started. -/
lemma hasStarted_of_hasCompleted (h : Lived life) (hend : HasCompleted life) :
    HasStarted life := by
  rcases h with rfl | ⟨d, rfl⟩ | h | ⟨outcome, h⟩
  · obtain ⟨_, _, hmem⟩ := hend
    cases hmem
  · obtain ⟨_, _, hmem⟩ := hend
    simp at hmem
  · exact absurd hend h.not_completed
  · exact h.hasStarted

/-- A job that has told its end has told its start, and remembers when that was. -/
lemma Trail.started_of_hasCompleted (hslots : Slots.ofLimit? limit = .ok world.slots)
    (h : Trail p interval world (c :: cs)) (hj : p.jobs[k]? = some j)
    (hs : c.machine.jobs[k]? = some s)
    (hremembers : Remembers s q (c.machine.toldBy k) attempts)
    (hend : HasCompleted (c.machine.toldBy k)) :
    .started (.ofMillis s.startedAt) ∈ c.machine.toldBy k := by
  obtain ⟨life, late, htold, htells⟩ := h.tells hslots hj hs
  have hcompleted : HasCompleted life := by
    rw [htold, hasCompleted_registration] at hend
    obtain ⟨time, outcome, hmem⟩ := hend
    refine ⟨time, outcome, (List.mem_append.1 hmem).resolve_right fun hlate => ?_⟩
    obtain ⟨stream, line, heq⟩ := htells.outputs _ hlate
    cases heq
  have hstarted : HasStarted (c.machine.toldBy k) := by
    rw [htold, hasStarted_registration]
    obtain ⟨time, hmem⟩ := hasStarted_of_hasCompleted htells.tells.told.lived hcompleted
    exact ⟨time, List.mem_append_left _ hmem⟩
  obtain ⟨time, hmem⟩ := hstarted
  exact hremembers.started time hmem ▸ hmem

/-- What was captured before the report are the first lines of the last attempt; and if nothing was
on its way, they are all its lines. -/
lemma Follows.captured_eq {s₀ : JobState} {q₀ : Pipes} {n : UInt32} {outcome : TaskOutcome}
    {last : List TaskChange} (h : Follows s₀ q₀ n outcome s q said)
    (hremembers : Remembers s q said attempts) (hlast : attempts.getLast? = some last) :
    (∀ stream, ∃ rest, s₀.captured.lines stream ++ rest =
        outputOn stream last ++ (q.get stream).held.toList ∧ rest <+: (q₀.get stream).lines) ∧
      (q₀.isDrained = true → ∀ stream, s₀.captured.lines stream = outputOn stream last) := by
  have hrest : ∀ stream, ∃ rest, s₀.captured.lines stream ++ rest =
      outputOn stream last ++ (q.get stream).held.toList ∧ rest <+: (q₀.get stream).lines := by
    intro stream
    obtain ⟨rest, hcaptured, hfront⟩ := h.captured stream
    refine ⟨rest, ?_, (List.prefix_append _ _).trans hfront⟩
    rw [← hcaptured, hremembers.captured, hlast, Option.getD_some]
  refine ⟨hrest, fun hdrained stream => ?_⟩
  obtain ⟨rest, heq, hfront⟩ := hrest stream
  rw [Pipes.isDrained_iff.1 hdrained stream] at hfront
  rw [List.prefix_nil.1 hfront, Pipes.held_of_isDrained stream (h.drained hdrained)] at heq
  simpa using heq

/-- The lines of the last attempt are the last ones. -/
lemma outputOn_last_suffix {last : List TaskChange} (h : attempts.getLast? = some last)
    (stream : Stream) : outputOn stream last <:+ attempts.flatMap (outputOn stream) := by
  obtain ⟨init, rfl⟩ := List.getLast?_eq_some_iff.1 h
  rw [List.flatMap_append, List.flatMap_singleton]
  exact List.suffix_append _ _

/-- A trail ends with a trail. -/
lemma Trail.of_append {later : List Piped} (h : Trail p interval world (later ++ c :: cs)) :
    Trail p interval world (c :: cs) := by
  induction later with
  | nil => exact h
  | cons c' later ih =>
    have hne : later ++ c :: cs ≠ [] := by simp
    rw [List.cons_append] at h
    refine ih ?_
    generalize later ++ c :: cs = rest at h hne ⊢
    cases h with
    | start => exact absurd rfl hne
    | step h => exact h

/-- A job whose readers have something left when it keeps its report was interrupted. -/
lemma Trail.interrupted_of_reporting (hslots : Slots.ofLimit? limit = .ok world.slots)
    (h : Trail p interval world (c :: cs)) (hj : p.jobs[k]? = some j)
    (hs : c.machine.jobs[k]? = some s) {n : UInt32} {outcome : TaskOutcome}
    (hphase : s.phase = .reporting n outcome) (hq : (c.pipes k).isDrained = false) :
    j.task.isCommand = true ∧ c.machine.interrupted = true ∧ outcome = .ofError .interrupted := by
  obtain ⟨hcommand, hun⟩ := h.unread hslots hj hs hq
  rw [hphase] at hun
  rcases hun with hwork | ⟨hm, ⟨n, hn⟩ | ⟨n, hn⟩⟩
  · cases hwork
  · cases hn
  · cases hn
    exact ⟨hcommand, hm, rfl⟩

/-- A file that was written holds the report, unless its path leads to the device that swallows
everything. -/
lemma find_of_trySave {files files' : FileTree} (r : Report)
    (hfiles : files' = (files.trySave FileTree.workingDir path r.text).1)
    (hok : (files.trySave FileTree.workingDir path r.text).2 = .ok ()) :
    files'.find FileTree.workingDir path = .ok
        (FileTree.destination FileTree.workingDir path, .file (Utf8.encode r.text)) ∨
      files'.find FileTree.workingDir path = .ok
        (FileTree.destination FileTree.workingDir path, .nullDevice) := by
  have hsave : files.save FileTree.workingDir path r.text = .ok files' := by
    rw [FileTree.save, FileTree.finished, hok, hfiles]
    rfl
  exact FileTree.find_of_save hsave (Machine.encode_text_ne_nil _)

/-- **Log files hold the lines of the last attempt that were captured in time.** For every plan,
every limit, every job with a log file, whatever its attempts put out and come to, and every way
from the start of a run on which the job has told its end: the attempts of the job divide what it
has told, and on the way the job has written a text to its log file. The text has a header with the
task, how and when it was executed, and in which run, and with the error if and only if the task has
failed; then come, stream by stream, the first lines of the last attempt that has begun. If the
readers of the job had nothing left when it kept its report, these are all lines of the attempt, and
so the last part of what the state of the task holds. Otherwise the task is a command that was
interrupted, and the other lines are the first of those that lay in its pipes at that moment. If the
text could be written, it is what the file then holds, unless its path leads to the device that
swallows everything.

**Proof sketch.** What the job has captured is what it has told of its last attempt and the line
that a reader has in hand (`Trail.remembers`). On the way past the report the job was in the step
that keeps it, and since then its readers have at most captured more from the front of their pipes
(`Trail.hasFiled`). The state of the task holds the lines of all attempts, so those of the last one
are its last part. -/
theorem Trail.log_holds_captured_lines (hslots : Slots.ofLimit? limit = .ok world.slots)
    (h : Trail p interval world (c :: cs)) (hj : p.jobs[k]? = some j)
    (hlog : j.task.logFile = some path) (hend : HasCompleted (c.machine.toldBy k)) :
    let attempts := Machine.toldInAttempts k (machines (c :: cs))
    let live := (c.machine.toldBy k).foldl TaskState.apply (.fresh j.task.id j.task.name)
    attempts.length = (Machine.begun k (machines (c :: cs))).length ∧
    (p.Linked → (SystemState.empty.fold c.machine.events).get? j.task.id = some live) ∧
    ∃ last, attempts.getLast? = some last ∧
      (∀ stream, (live.lines stream).toList = attempts.flatMap (outputOn stream)) ∧
      ∃ later after before earlier start time outcome written,
        c :: cs = later ++ after :: before :: earlier ∧
        .started (.ofMillis start) ∈ c.machine.toldBy k ∧
        .completed time outcome ∈ c.machine.toldBy k ∧
        (∀ r, c.machine.resultOf? k = some r → r.outcome = outcome) ∧
        (∀ stream, ∃ rest, written stream ++ rest =
            outputOn stream last ++ ((c.pipes k).get stream).held.toList ∧
          rest <+: ((before.pipes k).get stream).lines) ∧
        ((before.pipes k).isDrained = true → ∀ stream, written stream = outputOn stream last ∧
          written stream <:+ (live.lines stream).toList) ∧
        ((before.pipes k).isDrained = false → j.task.isCommand = true ∧
          before.machine.interrupted = true ∧ outcome = .ofError .interrupted) ∧
        let text := String.join ((Report.expectedLines j start (before.machine.now - start) outcome
          written).map (· ++ "\n"))
        after.machine.files =
          (before.machine.files.trySave FileTree.workingDir path text).1 ∧
        ((before.machine.files.trySave FileTree.workingDir path text).2 = .ok () →
          after.machine.files.find FileTree.workingDir path = .ok
            (FileTree.destination FileTree.workingDir path, .file (Utf8.encode text)) ∨
          after.machine.files.find FileTree.workingDir path = .ok
            (FileTree.destination FileTree.workingDir path, .nullDevice)) := by
  intro attempts live
  obtain ⟨s, hs⟩ := h.state_of_job hj
  obtain ⟨life, late, htold, htells⟩ := h.tells hslots hj hs
  obtain ⟨hremembers, htried⟩ := h.remembers hslots hj (by rw [hlog]; rfl) hs
  obtain ⟨later, after, before, earlier, s₀, n, outcome, htrail, hs₀, hphase, hfiles, hfollows⟩ :=
    h.hasFiled hslots hj hlog hs (.inr (.inr hend))
  obtain ⟨time, htime⟩ : ∃ time, .completed time outcome ∈ c.machine.toldBy k := by
    obtain ⟨time, o, hmem⟩ := hend
    exact ⟨time, hfollows.completed time o hmem ▸ hmem⟩
  have hlast := List.getLast?_eq_some_getLast (htried (.inr (.inr hend)))
  generalize (Machine.toldInAttempts k (machines (c :: cs))).getLast _ = last at hlast
  obtain ⟨hwritten, hall⟩ := hfollows.captured_eq hremembers hlast
  have hlines : ∀ stream, (live.lines stream).toList = attempts.flatMap (outputOn stream) := by
    intro stream
    refine Eq.trans ?_ (hremembers.lines stream)
    simp only [live, htold]
    exact lines_foldl_told htells.registered_notMem stream
  refine ⟨Machine.length_toldInAttempts k _, fun hp => h.get?_fold_events hp hj htold, last, hlast,
    hlines, later, after, before, earlier, s.startedAt, time, outcome, s₀.captured.lines, htrail,
    h.started_of_hasCompleted hslots hj hs hremembers hend, htime,
    fun r hr => hfollows.outcome_of_resultOf? hs hr, hwritten,
    fun hdrained stream => ⟨hall hdrained stream, ?_⟩, fun hq => ?_, ?_⟩
  · rw [hall hdrained, hlines]
    exact outputOn_last_suffix hlast stream
  · rw [htrail] at h
    have hway : Trail p interval world ((later ++ [after]) ++ before :: earlier) := by simpa using h
    exact hway.of_append.interrupted_of_reporting hslots hj hs₀ hphase hq
  · intro text
    have htext : text = (before.machine.reportOf j s₀ outcome).text := by
      rw [Machine.text_reportOf, ← hfollows.startedAt]
    rw [htext]
    exact ⟨hfiles, find_of_trySave _ hfiles⟩

/-! ### A line that the file lacks -/

/-- What the log file of the task holds whose command is interrupted. -/
def chatterText : String :=
  "# Task: chatter\n# Status: failed\n# Duration: 0.000s\n# Started: 1970-01-01T00:00:00+00:00\n" ++
    "# Run: 00000000-0000-0000-0000-000000000000\n# Error: interrupted\n" ++
    "\n--- stdout ---\none\n\n--- stderr ---\n"

/-- **A log file lacks a line of the last attempt.** The command has put out two lines when the run
is interrupted; its reader comes to the second one after the report was kept. So the file holds one
line, and the state of the task two. -/
theorem log_misses_line : TaskGraph.build [chatterTask] = .ok chatterGraph ∧
    chatterRun = (start (.ofGraph chatterGraph chatterLaunch default) 1
      (Machine.world ⟨1, []⟩)).run (.ofGraph chatterGraph chatterLaunch default) chatterActions ∧
    chatterRun.machine.allEnded = true ∧
    chatterRun.machine.files.readText FileTree.workingDir "logs/chatter.log" = .ok chatterText ∧
    ((SystemState.empty.fold chatterRun.machine.events).get? ⟨"chatter"⟩).map
      (·.stdout.toList) = some ["one", "two"] :=
  ⟨rfl, rfl, by decide +kernel, by decide +kernel, by decide +kernel⟩

/-- The lines that the file lacks lay in the pipe when the report was kept. -/
theorem chatter_is_logged : ∃ (cs : List Piped) (last : List TaskChange)
    (written : Stream → List String) (rest : List String),
    Trail chatterPlan 1 (Machine.world ⟨1, []⟩) (chatterRun :: cs) ∧
      HasCompleted (chatterRun.machine.toldBy 0) ∧
      (Machine.toldInAttempts 0 (machines (chatterRun :: cs))).getLast? = some last ∧
      written .stdout ++ rest = outputOn .stdout last := by
  have hway : ∃ cs, Trail chatterPlan 1 (Machine.world ⟨1, []⟩) (chatterRun :: cs) :=
    exists_trail_run chatterActions
  obtain ⟨cs, htrail⟩ := hway
  have hslots : Slots.ofLimit? 1 = .ok (Machine.world ⟨1, []⟩).slots := rfl
  have hend : HasCompleted (chatterRun.machine.toldBy 0) :=
    ⟨.ofMillis 0, .ofError .interrupted, by decide +kernel⟩
  have hheld : ((chatterRun.pipes 0).get .stdout).held = none := by decide +kernel
  obtain ⟨-, -, last, hlast, -, -, -, before, -, -, -, -, written, -, -, -, -, hwritten, -⟩ :=
    htrail.log_holds_captured_lines hslots (k := 0) rfl rfl hend
  obtain ⟨rest, heq, -⟩ := hwritten .stdout
  rw [hheld] at heq
  exact ⟨cs, last, written, rest, htrail, hend, hlast, by simpa using heq⟩

end Piped

end Taskflow
