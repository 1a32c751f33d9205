import Taskflow.Command.Launch
import Taskflow.Proofs.Files.Alike
import Taskflow.Proofs.Run.Beside.Runs
import Taskflow.Proofs.Run.KeptReports
set_option autoImplicit false

/-!
# Keeping reports is not seen

A run with log files goes as it does without some of them, as long as no work looks at what their
reports change: not only the files themselves, but also the directories above them that are missing
and are made on the way. A report is kept before anything shows the end of its task.

## Main definitions

* `Plan.LooksElsewhere` — no work of a plan looks at what the reports of some jobs change.

## Main results

* `Machine.reports_are_unseen` — of a run with and without log files the same is seen, and reports
  are kept before an end is seen.
* `Machine.directories_are_seen` — work that looks at a directory above a log file can tell.
-/

namespace Taskflow

/-- No work of a plan looks at the places that are `touched`, nor takes away directories at those
that are `standing`; the log files of some jobs lie there, and those of the others lie there as well
or lead nowhere near. -/
structure Plan.LooksElsewhere (p : Plan) (quiet : Nat → Bool)
    (touched standing : List (List String)) : Prop where
  blind : ∀ {i : Nat} {j : Job}, p.jobs[i]? = some j →
    j.task.IsBlindTo (FileTree.AlikeBut touched standing) p.launch
  covers : ∀ {i : Nat} {j : Job} {path : String}, p.jobs[i]? = some j → quiet i = true →
    j.task.logFile = some path → FileTree.Covers touched standing FileTree.workingDir path
  covers_or_apart : ∀ {i : Nat} {j : Job} {path : String}, p.jobs[i]? = some j →
    quiet i = false → j.task.logFile = some path →
      FileTree.Covers touched standing FileTree.workingDir path ∨
        FileTree.IsApart touched FileTree.workingDir path

variable {p : Plan} {quiet : Nat → Bool} {touched standing : List (List String)}

/-- Work that looks elsewhere overlooks what reports change. -/
lemma Plan.LooksElsewhere.overlooks (h : p.LooksElsewhere quiet touched standing) :
    p.Overlooks quiet (FileTree.AlikeBut touched standing) where
  blind := h.blind
  save_quiet hj hq hlog _ _ text halike := halike.trySave_left (h.covers hj hq hlog) text
  save_other hj hq hlog _ _ text halike := by
    rcases h.covers_or_apart hj hq hlog with hcovers | hapart
    · have hleft := halike.trySave_left hcovers text
      exact (hleft.symm.trySave_left hcovers text).symm
    · exact (halike.trySave hapart text).1

namespace Machine

/-- **Keeping reports is not seen.** For every plan, every limit and every choice of jobs, as long
as no work looks at the places that the log files of these jobs touch:
* whatever is done in the run with log files can be done without those of the chosen jobs, action by
  action, where a job may make another number of moves at a time; after every action of both the
  same is seen, and so is in the end;
* the same holds the other way round;
* whoever sees that a task is over, by its end in the queue, by those who depend on it, by its slot
  or by a snapshot, finds that its report was kept before, or that keeping it was tried.

**Proof sketch.** A run with the log files and one without them are beside each other from the
beginning: all is equal but the files, and a job of the first may be about to keep a report that the
second does not keep (`Beside`). Each can follow the other, because keeping a report is one move
more in which nothing is done that others look at (`Beside.run_right`, `Beside.run_left`). Whoever
has come to its end is past its report (`Trail.hasKept_of_showsEnd`). -/
theorem reports_are_unseen {limit : Nat} {world : Machine}
    (hslots : Slots.ofLimit? limit = .ok world.slots)
    (hp : p.LooksElsewhere quiet touched standing)
    (hstands : ∀ q ∈ standing, world.files.entry? q = some .directory) (interval : Nat) :
    let logged := start p interval world
    let unlogged := start (p.withoutLogs quiet) interval world
    (∀ actions, ∃ groups, List.Forall₂ Action.Unfolds actions groups ∧ ∀ n,
      SeenAlike p (p.withoutLogs quiet) (logged.run p (actions.take n))
        (unlogged.run (p.withoutLogs quiet) (groups.take n).flatten)) ∧
    (∀ actions, ∃ groups, List.Forall₂ Action.Unfolds actions groups ∧ ∀ n,
      SeenAlike p (p.withoutLogs quiet) (logged.run p (groups.take n).flatten)
        (unlogged.run (p.withoutLogs quiet) (actions.take n))) ∧
    ∀ m ms, Trail p interval world (m :: ms) → ∀ (k : Nat) (j : Job) (path : String),
      p.jobs[k]? = some j → j.task.logFile = some path → m.ShowsEnd p k j →
        HasKept k j path (m :: ms) := by
  intro logged unlogged
  have hstart : Beside (FileTree.AlikeBut touched standing) quiet logged unlogged :=
    beside_start p quiet interval ⟨fun _ _ => rfl, fun q hq => ⟨hstands q hq, hstands q hq⟩⟩
  refine ⟨fun actions => ?_, fun actions => ?_, fun m ms htrail k j path hj hlog hend =>
    htrail.hasKept_of_showsEnd hslots hj hlog hend⟩
  · obtain ⟨groups, hgroups, hrun⟩ := hstart.run_right hp.overlooks actions
    exact ⟨groups, hgroups, fun n => (hrun n).seenAlike⟩
  · obtain ⟨groups, hgroups, hrun⟩ := hstart.run_left hp.overlooks actions
    exact ⟨groups, hgroups, fun n => (hrun n).seenAlike⟩

/-! ### A reader and a writer -/

/-- A task with a log file, and a task that depends on it and reads some notes. -/
def notesPlan : Plan where
  jobs := #[
    { task := (TaskDefinition.ofComputation ⟨"writer"⟩ fun _ =>
        .emit (.stdout, "done") (.finish (.ok .null))).withLogFile "logs/writer.log"
      gate := some []
      run := default },
    { task := (TaskDefinition.ofComputation ⟨"reader"⟩ fun _ =>
        .files id fun t => .finish (if t.isDir FileTree.workingDir "notes" then .ok .null
          else .fail (.failed "no notes"))).dependsOn ⟨"writer"⟩
      gate := some [0]
      run := default }]
  launch := fun _ _ => .ok (.finish 0)

/-- The places to which the log file and the directory above it lead. -/
def notesPlaces : List (List String) := FileTree.placesOf FileTree.workingDir "logs/writer.log"

/-- Both tasks run to their ends, with one slot. -/
def notesActions : List Action :=
  List.replicate 16 (.move 0 {}) ++ .arrive 1 0 :: List.replicate 16 (.move 1 {})

/-- The reader looks at nothing but the notes. -/
lemma looksElsewhere_notes : notesPlan.LooksElsewhere (fun _ => true) notesPlaces [] where
  blind {i j} hj := by
    match i with
    | 0 =>
      cases hj
      exact fun _ => .emit _ (.finish _)
    | 1 =>
      cases hj
      refine fun _ => .files (fun _ _ h => h) fun t t' h => ?_
      have hdir : t'.isDir FileTree.workingDir "notes" = t.isDir FileTree.workingDir "notes" :=
        h.isDir_eq (by decide +kernel)
      rw [hdir]
      exact .finish _
    | i + 2 => cases hj
  covers {i j path} hj _ hlog q hq := by
    match i with
    | 0 =>
      cases hj
      cases hlog
      exact .inl hq
    | 1 =>
      cases hj
      cases hlog
    | i + 2 => cases hj
  covers_or_apart _ hquiet := by cases hquiet

/-- The reader fails with and without the report of the writer, which is kept before. -/
theorem notes_are_unseen :
    let m := (start notesPlan 1 (Machine.world ⟨1, []⟩)).run notesPlan notesActions
    let p := notesPlan.withoutLogs fun _ => true
    m.outcomeOf? 1 = some .failed ∧
      (∃ groups, List.Forall₂ Action.Unfolds notesActions groups ∧
        SeenAlike notesPlan p m
          ((start p 1 (Machine.world ⟨1, []⟩)).run p groups.flatten)) ∧
      ∃ ms j, HasKept 0 j "logs/writer.log" (m :: ms) := by
  intro m p
  have hslots : Slots.ofLimit? 1 = .ok (Machine.world ⟨1, []⟩).slots := rfl
  obtain ⟨hright, -, hkept⟩ := reports_are_unseen hslots looksElsewhere_notes (by simp) 1
  have hreached : Reached notesPlan 1 (Machine.world ⟨1, []⟩) m := reached_run notesActions
  obtain ⟨ms, hms⟩ := hreached.exists_trail
  obtain ⟨groups, hgroups, hseen⟩ := hright notesActions
  refine ⟨by decide +kernel, ⟨groups, hgroups, ?_⟩, ms, _, hkept m ms hms 0 _ _ rfl rfl ?_⟩
  · have hlength := hgroups.length_eq
    have hall := hseen notesActions.length
    rwa [List.take_length, hlength, List.take_length] at hall
  · exact .completed ⟨.ofMillis 0, .success .null, by decide +kernel⟩

end Machine

/-! ### A command that looks at a directory above a log file -/

/-- The command of a task that does nothing. -/
def idleSpec : CommandSpec := { program := "true" }

/-- The command of a task that looks for the directory `logs`. -/
def lookSpec : CommandSpec := { program := "test", args := ["-d", "logs"] }

/-- What the two commands do. -/
def lookLaunch : Launcher := fun spec _ =>
  if spec = lookSpec then
    .ok (.files id fun t => .finish (if t.isDir FileTree.workingDir "logs" then 0 else 1))
  else .ok (.finish 0)

/-- A task with a log file in the directory `logs`, and one that looks for this directory. -/
def lookPlan : Plan where
  jobs := #[
    { task := (TaskDefinition.ofCommand ⟨"a"⟩ idleSpec).withLogFile "logs/a.log"
      gate := some []
      run := default },
    { task := (TaskDefinition.ofCommand ⟨"b"⟩ lookSpec).dependsOn ⟨"a"⟩
      gate := some [0]
      run := default }]
  launch := lookLaunch

/-- Starting the command that does nothing. -/
lemma start_idle (t : FileTree) : Launch.start idleSpec t = lookLaunch idleSpec t := by
  have hdir : Launch.directory idleSpec t = .ok FileTree.workingDir := rfl
  have hfind : Launch.find (Shell.carryOut Shell.limit) idleSpec t FileTree.workingDir =
      .ok fun _ => Shell.Run.setStatus 0 := by
    simp [Launch.find, idleSpec]
    rfl
  unfold Launch.start
  rw [if_neg, hdir]
  · simp only [bind, Except.bind, hfind, pure, Except.pure]
    rfl
  · simp [idleSpec, Launch.holdsNul]

/-- The operator that the command asks with. -/
lemma unary?_directory (t : FileTree) (dir : List String) :
    Shell.Condition.unary? t dir "-d" = some fun path => t.isDir dir (Octets.toString path) := by
  refine congrArg some (funext fun path => ?_)
  unfold FileTree.isDir
  beta_reduce
  cases t.find dir (Octets.toString path) with
  | error e => rfl
  | ok found =>
    obtain ⟨place, e⟩ := found
    cases e <;> rfl

/-- The condition that the command asks for. -/
lemma holds_directory (t : FileTree) (dir : List String) :
    Shell.Condition.holds t dir ["-d", "logs"] = .ok (t.isDir dir "logs") := by
  have hname : Octets.toString "logs" = "logs" := by decide +kernel
  have hsingle (fuel : Nat) : Shell.Condition.single t dir (fuel + 1) ["-d", "logs"] =
      pure (t.isDir dir "logs", []) := by
    simp [Shell.Condition.single, unary?_directory, hname]
  simp only [Shell.Condition.holds, Shell.Condition.either, Shell.Condition.both, hsingle]
  rfl

/-- The utility that looks for the directory. -/
lemma test_directory : Shell.Utility.test .outer "test" ["-d", "logs"] = (do
    let t ← Shell.Run.files
    let s ← get
    Shell.Run.setStatus (if t.isDir s.dir "logs" then 0 else 1)) := by
  unfold Shell.Utility.test
  rw [if_neg (by decide)]
  refine bind_congr fun t => bind_congr fun s => ?_
  rw [if_neg (by decide), holds_directory]

/-- Starting the command that looks for the directory. -/
lemma start_look (t : FileTree) : Launch.start lookSpec t = lookLaunch lookSpec t := by
  have hdir : Launch.directory lookSpec t = .ok FileTree.workingDir := rfl
  have hfind : Launch.find (Shell.carryOut Shell.limit) lookSpec t FileTree.workingDir =
      .ok (Shell.Utility.test .outer "test") := by
    simp [Launch.find, lookSpec]
    rfl
  have hargs : lookSpec.args.map Octets.ofString = ["-d", "logs"] := by decide +kernel
  unfold Launch.start
  rw [if_neg, hdir]
  · simp only [bind, Except.bind, hfind, pure, Except.pure, hargs, test_directory]
    show Except.ok (Script.files id fun t => _) = Except.ok (Script.files id fun t => _)
    refine congrArg (fun next => Except.ok (Script.files id next)) (funext fun t => ?_)
    show Launch.lines {} {} (((ExceptT.run
      (Shell.Run.setStatus (if t.isDir FileTree.workingDir "logs" then 0 else 1))).run
      (Launch.session lookSpec FileTree.workingDir)).bind Launch.exitCode) = _
    cases t.isDir FileTree.workingDir "logs" <;> rfl
  · simp [lookSpec, Launch.holdsNul]

/-- The commands of the two tasks do not look at the log file. -/
lemma isBlindTo_look {i : Nat} {j : Job} (hj : lookPlan.jobs[i]? = some j) : j.task.IsBlindTo
    (FileTree.AlikeBut [FileTree.destination FileTree.workingDir "logs/a.log"] [])
    lookPlan.launch := by
  match i with
  | 0 =>
    cases hj
    exact fun _ _ _ => .ok (.finish _)
  | 1 =>
    cases hj
    refine fun _ _ _ => .ok (.files (fun _ _ h => h) fun t t' h => ?_)
    have hdir : t'.isDir FileTree.workingDir "logs" = t.isDir FileTree.workingDir "logs" :=
      h.isDir_eq (by decide +kernel)
    rw [hdir]
    exact .finish _
  | i + 2 => cases hj

namespace Machine

/-- **Work that looks at a directory above a log file can tell**: no work looks at the log file of
task `a`, and still task `b`, which looks for the directory that is made for it, succeeds with this
log file and fails without it. -/
theorem directories_are_seen :
    let actions := List.replicate 16 (.move 0 {}) ++ .arrive 1 0 :: List.replicate 16 (.move 1 {})
    let m := (start lookPlan 1 (Machine.world ⟨1, []⟩)).run lookPlan actions
    let p := lookPlan.withoutLogs (· = 0)
    let m' := (start p 1 (Machine.world ⟨1, []⟩)).run p actions
    (∀ (i : Nat) (j : Job), lookPlan.jobs[i]? = some j →
      (∀ spec t, j.task.work = .command spec → lookPlan.launch spec t = Launch.start spec t) ∧
      j.task.IsBlindTo
        (FileTree.AlikeBut [FileTree.destination FileTree.workingDir "logs/a.log"] [])
        lookPlan.launch) ∧
      m.allEnded = true ∧ m.outcomeOf? 1 = some .succeeded ∧
      m'.allEnded = true ∧ m'.outcomeOf? 1 = some .failed := by
  intro actions m p m'
  refine ⟨fun i j hj => ⟨fun spec t hwork => ?_, isBlindTo_look hj⟩, by decide +kernel,
    by decide +kernel, by decide +kernel, by decide +kernel⟩
  match i with
  | 0 =>
    cases hj
    cases hwork
    exact (start_idle t).symm
  | 1 =>
    cases hj
    cases hwork
    exact (start_look t).symm
  | i + 2 => cases hj

end Machine

end Taskflow
