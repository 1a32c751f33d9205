import Taskflow.Proofs.Run.Beside.Work
import Taskflow.Proofs.Run.Memory
set_option autoImplicit false

/-!
# Machines with and without reports

A plan and the same plan without the log files of some jobs run beside each other: what one of them
does, the other one can do at the same time. A job that keeps a report makes one move more, in which
it does nothing but write; all else goes on as it does without. What the files hold may differ, as
long as no other work can tell the difference.

## Main definitions

* `Deed.bare`, `Deed.leaves` — what a deed does apart from the files, and the files that it leaves.
* `Phase.Abreast`, `Phase.Beside` — phases that are the same but for files, and for a report that
  one of them is about to keep.
* `Machine.Beside` — a machine that keeps reports, and one that does not keep some of them.

## Main results

* `Machine.Beside.nextMove?` — jobs that stand in the same phase make the same moves.
* `Machine.Beside.make` — moves that are the same but for files keep the machines beside each other.
* `Machine.Beside.keep` — a report is kept in the first machine, while nothing happens in the second
  one.
-/

namespace Taskflow

/-! ### Deeds and phases -/

namespace Deed

/-- A deed without what it does to the files. -/
def bare : Deed → Deed
  | .store _ | .storePart .. => .look
  | d => d

/-- The files that a deed leaves. -/
def leaves (t : FileTree) : Deed → FileTree
  | .store files | .storePart files _ => files
  | _ => t

variable {d : Deed} {t : FileTree}

/-- What a deed tells is no matter of files. -/
lemma told_bare (d : Deed) : d.bare.told = d.told := by cases d <;> rfl

/-- What a job remembers is no matter of files. -/
lemma impress_bare (t : TaskDefinition) (now : Nat) (d : Deed) :
    d.bare.impress t now = d.impress t now := by cases d <;> rfl

/-- Without what it does to the files, a deed leaves them as they are. -/
lemma leaves_bare (t : FileTree) (d : Deed) : d.bare.leaves t = t := by cases d <;> rfl

end Deed

namespace Phase

/-- The same phase, but for files. -/
inductive Abreast (R : FileTree → FileTree → Prop) : Phase → Phase → Prop
  | attempting (n : UInt32) (wake : Nat) {rest rest' : Unit → Attempt}
    (h : Script.AlikeOn R (rest ()) (rest' ())) :
    Abreast R (.attempting n wake rest) (.attempting n wake rest')
  | playing (n : UInt32) {script script' : Attempt} (h : Script.AlikeOn R script script') :
    Abreast R (.playing n script) (.playing n script')
  | resting (n : UInt32) (wake : Nat) : Abreast R (.resting n wake) (.resting n wake)
  | plain {a : Phase} (h : a.isPlain = true) : Abreast R a a

/-- The same phase, but for files, or the first one is about to keep a report that the second one
does not keep. -/
inductive Beside (R : FileTree → FileTree → Prop) (quiet : Bool) : Phase → Phase → Prop
  | abreast {a b : Phase} (h : Abreast R a b) : Beside R quiet a b
  | reporting (h : quiet = true) (attempts : UInt32) (outcome : TaskOutcome) :
    Beside R quiet (.reporting attempts outcome) (.completing attempts outcome)

variable {R : FileTree → FileTree → Prop} {quiet : Bool} {a b : Phase}

/-- A phase that knows nothing of files is beside itself. -/
lemma Beside.plain (h : a.isPlain = true) : Beside R quiet a a := .abreast (.plain h)

/-- A job has ended in both, or in none. -/
lemma Beside.hasEnded_eq (h : Beside R quiet a b) : a.hasEnded = b.hasEnded := by
  cases h with
  | abreast h => cases h <;> rfl
  | reporting => rfl

/-- The attempts are over in both. -/
lemma beside_concluded (t : TaskDefinition) (attempts : UInt32) (outcome : TaskOutcome) :
    Beside R quiet (Machine.concluded t attempts outcome)
      (Machine.concluded (t.withoutLogIf quiet) attempts outcome) := by
  unfold Machine.concluded
  cases quiet with
  | false =>
    show Beside R false _ (if t.logFile.isSome then _ else _)
    split <;> exact .plain rfl
  | true =>
    show Beside R true _ (.completing attempts outcome)
    split
    · exact .reporting rfl attempts outcome
    · exact .plain rfl

end Phase

/-- The same move, but for files. -/
structure Move.Beside (R : FileTree → FileTree → Prop) (quiet : Bool) (t t' : FileTree)
    (v v' : Move) : Prop where
  bare_eq : v.deed.bare = v'.deed.bare
  leaves : R (v.deed.leaves t) (v'.deed.leaves t')
  phase : v.phase.Beside R quiet v'.phase

/-- Two moves with a deed that does nothing to the files. -/
lemma Move.Beside.of_bare {R : FileTree → FileTree → Prop} {quiet : Bool} {t t' : FileTree}
    (hR : R t t') {d : Deed} {a b : Phase} (hd : d.bare = d) (h : a.Beside R quiet b) :
    Move.Beside R quiet t t' ⟨d, a⟩ ⟨d, b⟩ := by
  refine ⟨rfl, ?_, h⟩
  show R (d.leaves t) (d.leaves t')
  rw [← hd, Deed.leaves_bare, Deed.leaves_bare]
  exact hR

/-- The states of a job in two machines, of which the second may keep no report of it. -/
structure JobState.Beside (R : FileTree → FileTree → Prop) (quiet : Bool) (s s' : JobState) :
    Prop where
  phase : s.phase.Beside R quiet s'.phase
  startedAt_eq : s.startedAt = s'.startedAt
  captured_eq : quiet = false → s.captured = s'.captured

namespace Machine

/-- Two machines that differ by files, and by the reports that the second one does not keep. -/
structure Beside (R : FileTree → FileTree → Prop) (quiet : Nat → Bool) (m m' : Machine) :
    Prop where
  now_eq : m.now = m'.now
  interrupted_eq : m.interrupted = m'.interrupted
  slots_eq : m.slots = m'.slots
  emissions_eq : m.emissions = m'.emissions
  coordinator_eq : m.coordinator = m'.coordinator
  journal_eq : m.journal = m'.journal
  files : R m.files m'.files
  jobs : ∀ i, Option.Rel (JobState.Beside R (quiet i)) m.jobs[i]? m'.jobs[i]?

variable {R : FileTree → FileTree → Prop} {quiet : Nat → Bool} {p : Plan} {i : Nat}
  {choices : Choices} {m m' : Machine} {j : Job} {s s' : JobState} {n : UInt32} {d : Deed}
  {t : TaskDefinition} {v v' : Move}

/-! ### What a deed does besides files and logs -/

/-- A deed does what it does apart from the files, and leaves some files. -/
lemma perform_eq (m : Machine) (t : TaskDefinition) (i : Nat) (d : Deed) :
    m.perform t i d = { m.perform t i d.bare with
      files := d.leaves m.files
      logs := (m.perform t i d).logs } := by
  cases d with
  | giveSlot => simp only [perform, releaseSlot, Deed.bare, Deed.leaves]; split <;> rfl
  | tell change record => cases record <;> rfl
  | _ => rfl

/-- Who gets a slot is no matter of files. -/
lemma heir?_bare : m.heir? d.bare = m.heir? d := by cases d <;> rfl

/-- Who gets a slot depends on the slots alone. -/
lemma heir?_congr (h : m.slots = m'.slots) : m.heir? d = m'.heir? d := by
  unfold heir?
  rw [h]

/-- The files after a deed are those that it leaves. -/
lemma perform_files : (m.perform t i d).files = d.leaves m.files := by
  rw [perform_eq]

/-- Keeping a report does nothing but change files and write to the log. -/
lemma bare_keepReport (j : Job) (s : JobState) (outcome : TaskOutcome) (m : Machine) :
    (m.keepReport j s outcome).bare = .look := by
  rcases keepReport_cases j s outcome m with h | ⟨files, h⟩ | ⟨files, record, h⟩ <;> rw [h] <;> rfl

/-- The files that keeping a report leaves, whether it goes to its end or not. -/
lemma leaves_keepReport (j : Job) (s : JobState) (outcome : TaskOutcome) (m : Machine) :
    (m.keepReport j s outcome).leaves m.files =
      match j.task.logFile with
      | none => m.files
      | some path =>
        (m.files.trySave FileTree.workingDir path (m.reportOf j s outcome).text).1 := by
  unfold keepReport
  cases j.task.logFile with
  | none => rfl
  | some path =>
    simp only
    split
    next heq => rw [heq]; rfl
    next heq => rw [heq]; rfl

/-- Moving a job to the phase in which it stands changes nothing. -/
lemma setPhase_of_phaseOf? {a : Phase} (ha : m.phaseOf? i = some a) : m.setPhase i a = m := by
  have hjobs : (m.setPhase i a).jobs = m.jobs := by
    refine Array.ext_getElem? fun k => ?_
    rw [setPhase, getElem?_modifyJob]
    split_ifs with hk
    · subst hk
      obtain ⟨s, hs, rfl⟩ := Option.map_eq_some_iff.1 ha
      rw [hs]
      rfl
    · rfl
  show { m with jobs := (m.setPhase i a).jobs } = m
  rw [hjobs]

namespace Beside

/-- At each place there is a job in both machines, or in none. -/
lemma phases (h : Beside R quiet m m') (k : Nat) :
    Option.Rel (Phase.Beside R (quiet k)) (m.phaseOf? k) (m'.phaseOf? k) := by
  have hjob := h.jobs k
  unfold phaseOf?
  generalize m.jobs[k]? = s, m'.jobs[k]? = s' at hjob
  cases hjob with
  | none => exact .none
  | some hs => exact .some hs.phase

/-- A job has ended in the same way in both. -/
lemma outcomeOf?_eq (h : Beside R quiet m m') (k : Nat) : m.outcomeOf? k = m'.outcomeOf? k := by
  have hphase := h.phases k
  unfold outcomeOf?
  generalize m.phaseOf? k = a, m'.phaseOf? k = b at hphase
  cases hphase with
  | none => rfl
  | some hab =>
    cases hab with
    | abreast hab => cases hab <;> rfl
    | reporting => rfl

/-- A job has the same result in both. -/
lemma resultOf?_eq (h : Beside R quiet m m') (k : Nat) : m.resultOf? k = m'.resultOf? k := by
  have hphase := h.phases k
  unfold resultOf?
  generalize m.phaseOf? k = a, m'.phaseOf? k = b at hphase
  cases hphase with
  | none => rfl
  | some hab =>
    cases hab with
    | abreast hab => cases hab <;> rfl
    | reporting => rfl

/-- All jobs have ended in both, or in none. -/
lemma allEnded_eq (h : Beside R quiet m m') : m.allEnded = m'.allEnded := by
  rw [Bool.eq_iff_iff, allEnded_iff, allEnded_iff]
  refine forall_congr' fun i => ?_
  have hphase := h.phases i
  generalize m.phaseOf? i = a, m'.phaseOf? i = b at hphase
  cases hphase with
  | none => simp
  | some hab => simp [hab.hasEnded_eq]

/-! ### Moves -/

section Moves

variable {q : Bool}

/-- A job that waits looks at nothing but the interrupt and at how others have ended. -/
lemma whenWaiting (h : Beside R quiet m m') (unseen arrived : List Nat) :
    Option.Rel (Move.Beside R q m.files m'.files) (m.whenWaiting unseen arrived)
      (m'.whenWaiting unseen arrived) := by
  unfold Machine.whenWaiting
  rw [h.interrupted_eq]
  split
  · exact .some (.of_bare h.files rfl (.plain rfl))
  · split
    · split
      · exact .some (.of_bare h.files rfl (.plain rfl))
      · exact .none
    · rw [h.outcomeOf?_eq]
      split <;> exact .some (.of_bare h.files rfl (.plain rfl))

/-- The scripts of an attempt do the same on the files that they find. -/
lemma attemptScript (h : Beside R quiet m m') (ht : t.IsBlindTo R p.launch) (n : UInt32) :
    ResultsAlike (Script.AlikeOn R) (m.attemptScript p t n)
      (m'.attemptScript (p.withoutLogs quiet) (t.withoutLogIf q) n) := by
  have hsame : (p.withoutLogs quiet).launch = p.launch := rfl
  unfold TaskDefinition.IsBlindTo at ht
  unfold Machine.attemptScript
  rw [TaskDefinition.work_withoutLogIf, hsame]
  cases hwork : t.work with
  | computation behaviour =>
    simp only [hwork] at ht
    exact .ok (ht n.toNat)
  | command spec =>
    simp only [hwork] at ht
    have hlaunch := ht m.files m'.files h.files
    simp only
    generalize p.launch spec m.files = r, p.launch spec m'.files = r' at hlaunch
    cases hlaunch with
    | ok hscript => exact .ok (hscript.map _)
    | error e => exact .error _

/-- An attempt begins in both, or its command fails to start in both. -/
lemma whenBeginning (h : Beside R quiet m m') (ht : t.IsBlindTo R p.launch) (n : UInt32) :
    Move.Beside R q m.files m'.files (m.whenBeginning p t n)
      (m'.whenBeginning (p.withoutLogs quiet) (t.withoutLogIf q) n) := by
  have hscript := h.attemptScript (q := q) ht n
  unfold Machine.whenBeginning
  generalize m.attemptScript p t n = r,
    m'.attemptScript (p.withoutLogs quiet) (t.withoutLogIf q) n = r' at hscript
  cases hscript with
  | ok hscript =>
    rw [h.now_eq]
    exact .of_bare h.files rfl (.abreast (.attempting n _ hscript))
  | error e => exact .of_bare h.files rfl (.plain rfl)

/-- An attempt that sleeps goes on in both, is cut short in both, or still sleeps. -/
lemma whenAttempting (h : Beside R quiet m m') (preference : Preference) (wake : Nat)
    {rest rest' : Unit → Attempt} (hrest : Script.AlikeOn R (rest ()) (rest' ())) :
    Option.Rel (Move.Beside R q m.files m'.files) (m.whenAttempting n preference wake rest)
      (m'.whenAttempting n preference wake rest') := by
  unfold Machine.whenAttempting
  rw [h.now_eq, h.interrupted_eq]
  split
  · exact .some (.of_bare h.files rfl (.abreast (.playing n hrest)))
  · split
    · exact .some (.of_bare h.files rfl (.plain rfl))
    · exact .none

/-- Scripts that are alike on the files go on alike. -/
lemma whenPlaying (h : Beside R quiet m m') {script script' : Attempt}
    (hs : Script.AlikeOn R script script') :
    Move.Beside R q m.files m'.files (m.whenPlaying n script) (m'.whenPlaying n script') := by
  cases hs with
  | finish ending => exact .of_bare h.files rfl (.plain rfl)
  | emit output hnext =>
    obtain ⟨stream, line⟩ := output
    exact .of_bare h.files rfl (.abreast (.playing n hnext))
  | sleep time hnext =>
    simp only [Machine.whenPlaying, h.now_eq]
    split
    · exact .of_bare h.files rfl (.abreast (.playing n (hnext ())))
    · exact .of_bare h.files rfl (.abreast (.attempting n _ (hnext ())))
  | trigger hnext => exact .of_bare h.files rfl (.abreast (.playing n hnext))
  | note k hnext => exact .of_bare h.files rfl (.abreast (.playing n hnext))
  | files hupdate hnext =>
    exact ⟨rfl, hupdate _ _ h.files, .abreast (.playing n (hnext _ _ h.files))⟩

/-- An attempt is judged in the same way in both, up to the report that follows. -/
lemma whenJudging (h : Beside R quiet m m') (t : TaskDefinition) (ending : Ending) :
    Move.Beside R q m.files m'.files (m.whenJudging t n ending)
      (m'.whenJudging (t.withoutLogIf q) n ending) := by
  cases ending with
  | panic message => exact .of_bare h.files rfl (.plain rfl)
  | ok result => exact .of_bare h.files rfl (Phase.beside_concluded _ _ _)
  | fail e =>
    simp only [Machine.whenJudging, retryRecord, TaskDefinition.effectiveRetryPolicy_withoutLogIf,
      TaskDefinition.id_withoutLogIf, Machine.timestamp, h.now_eq]
    split
    · exact .of_bare h.files rfl (.abreast (.resting _ _))
    · exact .of_bare h.files rfl (Phase.beside_concluded _ _ _)

/-- A rest is over in both, is cut short in both, or goes on. -/
lemma whenResting (h : Beside R quiet m m') (t : TaskDefinition) (preference : Preference)
    (wake : Nat) :
    Option.Rel (Move.Beside R q m.files m'.files) (m.whenResting t n preference wake)
      (m'.whenResting (t.withoutLogIf q) n preference wake) := by
  unfold Machine.whenResting
  rw [h.now_eq, h.interrupted_eq]
  split
  · exact .some (.of_bare h.files rfl (.plain rfl))
  · split
    · exact .some (.of_bare h.files rfl (Phase.beside_concluded _ _ _))
    · exact .none

/-- A job that keeps a report in both machines keeps the same one, unless the second one keeps none.
-/
lemma keepReport (h : Beside R quiet m m') (hp : p.Overlooks quiet R) (hj : p.jobs[i]? = some j)
    (hs : s.Beside R (quiet i) s') (outcome : TaskOutcome) :
    (m.keepReport j s outcome).bare = .look ∧
      (m'.keepReport (j.withoutLogIf (quiet i)) s' outcome).bare = .look ∧
      R ((m.keepReport j s outcome).leaves m.files)
        ((m'.keepReport (j.withoutLogIf (quiet i)) s' outcome).leaves m'.files) := by
  refine ⟨bare_keepReport _ _ _ _, bare_keepReport _ _ _ _, ?_⟩
  rw [leaves_keepReport, leaves_keepReport]
  cases hq : quiet i with
  | true =>
    show R (match j.task.logFile with | none => _ | some path => _) m'.files
    cases hlog : j.task.logFile with
    | none => exact h.files
    | some path => exact hp.save_quiet hj hq hlog _ _ _ h.files
  | false =>
    have hreport : m'.reportOf j s' outcome = m.reportOf j s outcome := by
      rw [reportOf, reportOf, h.now_eq, hs.startedAt_eq, hs.captured_eq hq]
    show R _ (match j.task.logFile with
      | none => _
      | some path =>
        (m'.files.trySave FileTree.workingDir path (m'.reportOf j s' outcome).text).1)
    rw [hreport]
    cases hlog : j.task.logFile with
    | none => exact h.files
    | some path => exact hp.save_other hj hq hlog _ _ _ h.files

/-- What a job does next, if it stands in the same phase in both. -/
lemma moveOf? (h : Beside R quiet m m') (hp : p.Overlooks quiet R) (hj : p.jobs[i]? = some j)
    (hs : s.Beside R (quiet i) s') (hphase : s.phase.Abreast R s'.phase) :
    Option.Rel (Move.Beside R (quiet i) m.files m'.files) (m.moveOf? p j s choices)
      (m'.moveOf? (p.withoutLogs quiet) (j.withoutLogIf (quiet i)) s' choices) := by
  have hkeep := h.keepReport hp hj hs
  unfold Machine.moveOf?
  simp only [Job.withoutLogIf, TaskDefinition.id_withoutLogIf] at hkeep ⊢
  generalize hb : s'.phase = b at hphase
  generalize ha : s.phase = a at hphase
  cases hphase with
  | attempting n wake hrest => exact h.whenAttempting _ _ hrest
  | playing n hscript => exact .some (h.whenPlaying hscript)
  | resting n wake => exact h.whenResting _ _ _
  | plain hplain =>
    cases b with
    | attempting | playing | resting => cases hplain
    | waiting unseen arrived => exact h.whenWaiting unseen arrived
    | blocking d =>
      simp only [Plan.idAt_withoutLogs d (TaskDefinition.id_withoutLogIf j.task (quiet i))]
      exact .some (.of_bare h.files rfl (.plain rfl))
    | requesting =>
      simp only [h.interrupted_eq, withdrawn, TaskDefinition.id_withoutLogIf]
      refine .some (.of_bare h.files rfl (.plain ?_))
      split <;> rfl
    | asking =>
      simp only [Machine.whenAsking, h.slots_eq]
      split
      · exact .some (.of_bare h.files rfl (.plain rfl))
      · exact .some (.of_bare h.files rfl (.plain rfl))
    | queued =>
      simp only [h.interrupted_eq, withdrawn, TaskDefinition.id_withoutLogIf]
      split
      · exact .some (.of_bare h.files rfl (.plain rfl))
      · exact .none
    | granted =>
      simp only [h.interrupted_eq, withdrawn, TaskDefinition.id_withoutLogIf]
      split
      · exact .some (.of_bare h.files rfl (.plain rfl))
      · exact .some (.of_bare h.files rfl (.plain rfl))
    | starting =>
      simp only [Machine.timestamp, h.now_eq]
      exact .some (.of_bare h.files rfl (.plain rfl))
    | beginning n => exact .some (h.whenBeginning (hp.blind hj) n)
    | judging n ending => exact .some (h.whenJudging _ ending)
    | reporting attempts outcome =>
      obtain ⟨hleft, hright, hleaves⟩ := hkeep outcome
      exact .some ⟨hleft.trans hright.symm, hleaves, .plain rfl⟩
    | completing attempts outcome =>
      simp only [Machine.timestamp, h.now_eq]
      exact .some (.of_bare h.files rfl (.plain rfl))
    | releasing attempts outcome => exact .some (.of_bare h.files rfl (.plain rfl))
    | settling outcome result => exact .some (.of_bare h.files rfl (.plain rfl))
    | crashing message => exact .some (.of_bare h.files rfl (.plain rfl))
    | ended | crashed => exact .none

end Moves

/-! ### Making moves -/

/-- A deed leaves the same with a job in both machines, but for lines of which only the first one
keeps a report. -/
lemma impress {q : Bool} (hs : s.Beside R q s') (t : TaskDefinition) (now : Nat) (d : Deed) :
    (d.impress t now s).Beside R q (d.impress (t.withoutLogIf q) now s') := by
  refine ⟨by rw [Deed.impress_phase, Deed.impress_phase]; exact hs.phase, ?_, ?_⟩
  · cases d with
    | tell change record =>
      cases change with
      | output stream line =>
        simp only [Deed.impress, remember]
        split <;> split <;> exact hs.startedAt_eq
      | started => rfl
      | _ => exact hs.startedAt_eq
    | _ => exact hs.startedAt_eq
  · rintro rfl
    have hcaptured := hs.captured_eq rfl
    cases d with
    | forget => rfl
    | tell change record =>
      cases change with
      | output stream line =>
        show (if t.logFile.isSome then _ else s).captured =
          (if t.logFile.isSome then _ else s').captured
        split
        · show s.captured.push stream line = s'.captured.push stream line
          rw [hcaptured]
        · exact hcaptured
      | _ => exact hcaptured
    | _ => exact hcaptured

/-- Deeds that are the same but for files leave the machines beside each other. -/
lemma perform (h : Beside R quiet m m') (t : TaskDefinition) (i : Nat) {d d' : Deed}
    (hbare : d.bare = d'.bare) (hleaves : R (d.leaves m.files) (d'.leaves m'.files)) :
    Beside R quiet (m.perform t i d) (m'.perform (t.withoutLogIf (quiet i)) i d') := by
  have htold : d.told = d'.told := by rw [← d.told_bare, hbare, d'.told_bare]
  have hheir : m.heir? d = m'.heir? d' := by
    rw [← heir?_bare, hbare, heir?_bare, heir?_congr h.slots_eq]
  refine
    { now_eq := by rw [perform_now, perform_now, h.now_eq]
      interrupted_eq := ?_
      slots_eq := ?_
      emissions_eq := ?_
      coordinator_eq := ?_
      journal_eq := ?_
      files := by rwa [perform_files, perform_files]
      jobs := fun k => ?_ }
  · rw [perform_eq m, perform_eq m', hbare]
    simp only [perform_interrupted, h.interrupted_eq]
  · rw [perform_eq m, perform_eq m', hbare]
    simp only [perform_slots, h.slots_eq]
  · simp only [perform_emissions, htold, h.emissions_eq, h.now_eq, TaskDefinition.id_withoutLogIf]
  · simp only [perform_coordinator, htold, h.coordinator_eq, TaskDefinition.id_withoutLogIf]
  · rw [perform_eq m, perform_eq m', hbare]
    simp only [perform_journal, h.journal_eq, h.now_eq, TaskDefinition.id_withoutLogIf]
  · have hjob := h.jobs k
    rw [getElem?_perform, getElem?_perform, hheir, h.now_eq]
    generalize m.jobs[k]? = a, m'.jobs[k]? = b at hjob
    cases hjob with
    | none => split_ifs <;> exact .none
    | some hs =>
      split_ifs with hgranted hself
      · exact .some ⟨.plain rfl, hs.startedAt_eq, hs.captured_eq⟩
      · subst hself
        refine .some ?_
        rw [← Deed.impress_bare, hbare, Deed.impress_bare]
        exact impress hs t m'.now d'
      · exact .some hs

/-- A job goes on to phases that are beside each other. -/
lemma setPhase (h : Beside R quiet m m') (i : Nat) {a b : Phase}
    (hab : a.Beside R (quiet i) b) : Beside R quiet (m.setPhase i a) (m'.setPhase i b) := by
  refine { h with jobs := fun k => ?_ }
  have hjob := h.jobs k
  rw [Machine.setPhase, Machine.setPhase, getElem?_modifyJob, getElem?_modifyJob]
  generalize m.jobs[k]? = x, m'.jobs[k]? = y at hjob
  cases hjob with
  | none => split_ifs <;> exact .none
  | some hs =>
    split_ifs with hself
    · subst hself
      exact .some ⟨hab, hs.startedAt_eq, hs.captured_eq⟩
    · exact .some hs

/-- **Moves that are the same but for files leave the machines beside each other.** -/
lemma make (h : Beside R quiet m m') (hj : p.jobs[i]? = some j)
    (hvv : Move.Beside R (quiet i) m.files m'.files v v') :
    Beside R quiet (m.make p i v) (m'.make (p.withoutLogs quiet) i v') := by
  simp only [Machine.make, Plan.getElem?_withoutLogs, hj, Option.map_some]
  exact (h.perform j.task i hvv.bare_eq hvv.leaves).setPhase i hvv.phase

/-- The queue is closed in both, or in none. -/
lemma closeIfEnded (h : Beside R quiet m m') :
    Beside R quiet m.closeIfEnded m'.closeIfEnded := by
  unfold Machine.closeIfEnded
  rw [h.allEnded_eq]
  split
  · exact { h with coordinator_eq := by simp only [h.coordinator_eq] }
  · exact h

/-- A job hears from another one in both, or in none. -/
lemma arrive (h : Beside R quiet m m') (i d : Nat) :
    Beside R quiet (m.arrive i d) (m'.arrive i d) := by
  have hphase := h.phases i
  unfold Machine.arrive
  rw [h.outcomeOf?_eq d]
  generalize m.phaseOf? i = a, m'.phaseOf? i = b at hphase
  cases hphase with
  | none => exact h
  | some hab =>
    cases hab with
    | reporting => exact h
    | abreast hab =>
      cases hab with
      | attempting | playing | resting => exact h
      | plain hplain =>
        rename_i a
        cases a with
        | waiting unseen arrived =>
          cases m'.outcomeOf? d with
          | none => exact h
          | some outcome =>
            simp only
            split
            · exact h.setPhase i (.plain rfl)
            · exact h
        | _ => exact h

/-! ### One of the machines moves -/

/-- Where a move is, there is a job in both machines. -/
lemma exists_job (h : Beside R quiet m m') (hv : m.nextMove? p i choices = some v) :
    ∃ j s s', p.jobs[i]? = some j ∧ m.jobs[i]? = some s ∧ m'.jobs[i]? = some s' ∧
      s.Beside R (quiet i) s' := by
  unfold Machine.nextMove? at hv
  split at hv
  next j s hj hs =>
    have hjob := h.jobs i
    rw [hs] at hjob
    cases hs' : m'.jobs[i]? with
    | none => simp [hs'] at hjob
    | some s' => exact ⟨j, s, s', hj, hs, rfl, by rwa [hs', Option.rel_some_some] at hjob⟩
  next => cases hv

/-- **The jobs make the same moves**, unless one is about to keep a report that the second machine
does not keep. -/
lemma nextMove? (h : Beside R quiet m m') (hp : p.Overlooks quiet R)
    (hphase : Option.Rel (Phase.Abreast R) (m.phaseOf? i) (m'.phaseOf? i)) (choices : Choices) :
    Option.Rel (Move.Beside R (quiet i) m.files m'.files) (m.nextMove? p i choices)
      (m'.nextMove? (p.withoutLogs quiet) i choices) := by
  have hjob := h.jobs i
  unfold Machine.nextMove?
  unfold phaseOf? at hphase
  rw [Plan.getElem?_withoutLogs]
  cases hj : p.jobs[i]? with
  | none => exact .none
  | some j =>
    rw [Option.map_some]
    generalize m.jobs[i]? = a, m'.jobs[i]? = b at hjob hphase
    cases hjob with
    | none => exact .none
    | some hs =>
      rw [Option.map_some, Option.map_some, Option.rel_some_some] at hphase
      exact h.moveOf? hp hj hs hphase

/-- The same move is made in both machines, or none. -/
lemma move (h : Beside R quiet m m') (hp : p.Overlooks quiet R)
    (hphase : Option.Rel (Phase.Abreast R) (m.phaseOf? i) (m'.phaseOf? i)) (choices : Choices) :
    Beside R quiet (m.move p i choices) (m'.move (p.withoutLogs quiet) i choices) := by
  have hnext := h.nextMove? hp hphase choices
  unfold Machine.move
  cases hv : m.nextMove? p i choices with
  | none =>
    cases hv' : m'.nextMove? (p.withoutLogs quiet) i choices with
    | none => exact h
    | some v' => simp [hv, hv'] at hnext
  | some v =>
    obtain ⟨j, s, s', hj, -⟩ := h.exists_job hv
    cases hv' : m'.nextMove? (p.withoutLogs quiet) i choices with
    | none => simp [hv, hv'] at hnext
    | some v' =>
      rw [hv, hv', Option.rel_some_some] at hnext
      exact h.make hj hnext

/-- Either both machines stand in the same phase of job `i`, or the first one is about to keep a
report that the second one does not keep. -/
lemma abreast_or_reporting (h : Beside R quiet m m') (i : Nat) :
    Option.Rel (Phase.Abreast R) (m.phaseOf? i) (m'.phaseOf? i) ∨
      quiet i = true ∧ ∃ attempts outcome, m.phaseOf? i = some (.reporting attempts outcome) ∧
        m'.phaseOf? i = some (.completing attempts outcome) := by
  have hphase := h.phases i
  generalize m.phaseOf? i = a, m'.phaseOf? i = b at hphase
  cases hphase with
  | none => exact .inl .none
  | some hab =>
    cases hab with
    | abreast hab => exact .inl (.some hab)
    | reporting hq attempts outcome => exact .inr ⟨hq, attempts, outcome, rfl, rfl⟩

/-- **A report is kept in the first machine, while nothing happens in the second one.** -/
lemma keep (h : Beside R quiet m m') (hp : p.Overlooks quiet R) (hq : quiet i = true)
    (hj : p.jobs[i]? = some j) {attempts : UInt32} {outcome : TaskOutcome}
    (ha : m.phaseOf? i = some (.reporting attempts outcome))
    (hb : m'.phaseOf? i = some (.completing attempts outcome)) (choices : Choices) :
    Beside R quiet (m.move p i choices) m' ∧
      (m.move p i choices).phaseOf? i = some (.completing attempts outcome) := by
  obtain ⟨s, hs, hphase⟩ := Option.map_eq_some_iff.1 ha
  have hv : m.nextMove? p i choices =
      some ⟨m.keepReport j s outcome, .completing attempts outcome⟩ := by
    simp only [Machine.nextMove?, hj, hs, Machine.moveOf?, hphase]
  have hmove : m.move p i choices =
      m.make p i ⟨m.keepReport j s outcome, .completing attempts outcome⟩ := by
    rw [Machine.move, hv]
  refine ⟨?_, by rw [hmove, phaseOf?_make_self hv]⟩
  obtain ⟨-, s₁, s', -, hs₁, -, hss⟩ := h.exists_job hv
  obtain rfl : s₁ = s := Option.some.inj (hs₁.symm.trans hs)
  obtain ⟨hbare, -, hleaves⟩ := h.keepReport hp hj hss outcome
  have hfiles : (m'.keepReport (j.withoutLogIf (quiet i)) s' outcome).leaves m'.files =
      m'.files := by
    rw [leaves_keepReport, hq]
    rfl
  rw [hfiles] at hleaves
  have hlook : Beside R quiet (m.perform j.task i (m.keepReport j s₁ outcome))
      (m'.perform (j.task.withoutLogIf (quiet i)) i .look) := h.perform j.task i hbare hleaves
  have hkept := hlook.setPhase i
    (.plain rfl : Phase.Beside R (quiet i) (.completing attempts outcome) _)
  rw [hmove]
  simp only [Machine.make, hj]
  rwa [setPhase_of_phaseOf? (m := m'.perform _ i .look) hb] at hkept

end Beside

end Machine

end Taskflow
