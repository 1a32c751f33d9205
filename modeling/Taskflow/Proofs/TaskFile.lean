import Mathlib.Tactic.Common
import Taskflow.TaskFile
set_option autoImplicit false

/-!
# What an accepted task file asks for

Numbers are bounded when they are read, so whatever a file asks for lies within the range of a
machine word; the checks of a file add that the limit on concurrency is not zero. All tasks of a
file are commands.

## Main definitions

* `Yaml.Decode.Yields` — everything that a decoder can read has a property.
* `TaskFile.optionsWith` — the options of a file, with a limit that takes precedence.

## Main results

* `Yaml.Decode.yields_fields` — what every reader of a field preserves holds of the record.
* `TaskFile.bounds_of_parse` — the numbers of an accepted file.
* `TaskFile.concurrency_optionsWith`, `TaskFile.publishInterval_optionsWith_le` — the numbers of
  its options.
-/

namespace Taskflow

/-! ### Decoders -/

namespace Yaml.Decode

variable {α β : Type} {P : α → Prop} {Q : β → Prop}

/-- Everything that a decoder can read, in whatever document, has a property. -/
def Yields (P : α → Prop) (d : Decode α) : Prop :=
  ∀ doc left a left', d doc left = some (a, left') → P a

/-- A value is decoded that fulfils what is asked of it. -/
lemma yields_pure {a : α} (h : P a) : Yields P (Pure.pure a : Decode α) := by
  intro doc left b left' hb
  cases hb
  exact h

/-- Where decoding fails, nothing is asked. -/
lemma yields_fail : Yields P (fail : Decode α) := by
  intro doc left a left' h
  cases h

/-- What the second decoder yields for everything that the first one yields. -/
lemma Yields.bind {d : Decode α} {f : α → Decode β} (hd : Yields P d)
    (hf : ∀ a, P a → Yields Q (f a)) : Yields Q (d >>= f) := by
  intro doc left b left' h
  change Decode.bind d f doc left = some (b, left') at h
  unfold Decode.bind at h
  split at h
  next a left₁ ha => exact hf a (hd _ _ _ _ ha) _ _ _ _ h
  next => cases h

/-- Any decoder yields something. -/
lemma yields_true (d : Decode α) : Yields (fun _ => True) d := fun _ _ _ _ _ => trivial

/-- A number is within its bound. -/
lemma yields_natUpTo (max : Nat) (node : Node) : Yields (· ≤ max) (natUpTo max node) := by
  refine (yields_true _).bind fun node _ => ?_
  split
  next s =>
    split
    · split
      next n hn =>
        refine yields_pure ?_
        unfold nat? at hn
        dsimp only at hn
        split at hn
        · split at hn
          next hle => cases hn; exact hle
          next => cases hn
        · cases hn
      next => exact yields_fail
    · exact yields_fail
  next => exact yields_fail

/-- A value that may be absent has the property if it is there. -/
lemma yields_option {decode : Node → Decode α} (h : ∀ node, Yields P (decode node)) (node : Node) :
    Yields (fun o => ∀ a, o = some a → P a) (option decode node) := by
  have hnone : Yields (fun o : Option α => ∀ a, o = some a → P a) (Pure.pure none) :=
    yields_pure fun _ ha => nomatch ha
  have hsome : ∀ node, Yields (fun o : Option α => ∀ a, o = some a → P a)
      (some <$> decode node) := by
    intro node doc left o left' ho
    change Decode.bind (decode node) (fun a => Decode.pure (some a)) doc left = _ at ho
    unfold Decode.bind at ho
    split at ho
    next a left₁ ha =>
      cases ho
      rintro b ⟨⟩
      exact h node _ _ _ _ ha
    next => cases ho
  refine (yields_true _).bind fun node _ => ?_
  split
  · split
    · exact hnone
    · exact hsome _
  · split
    · split
      · exact hnone
      · exact yields_fail
    · exact hsome _
  · exact hsome _

/-- What every reader of a field preserves, reading members preserves. -/
lemma yields_members {known : String → Option (Node → α → Decode α)}
    (h : ∀ name read, known name = some read → ∀ node a, P a → Yields P (read node a))
    (seen : List String) (ms : List (Node × Node)) {a : α} (ha : P a) :
    Yields P (members known seen ms a) := by
  induction ms generalizing seen a with
  | nil => exact yields_pure ha
  | cons m rest ih =>
    refine (yields_true _).bind fun name _ => ?_
    split
    next read hread =>
      split
      · exact yields_fail
      · exact (h name read hread m.2 a ha).bind fun b hb => ih (name :: seen) hb
    next => exact ih seen ha

/-- **What every reader of a field preserves holds of the record**, if it holds of the empty one. -/
lemma yields_fields {known : String → Option (Node → α → Decode α)} {empty : α}
    (h : ∀ name read, known name = some read → ∀ node a, P a → Yields P (read node a))
    (hempty : P empty) (node : Node) : Yields P (fields known empty node) := by
  refine (yields_true _).bind fun node _ => ?_
  split
  next ms => exact yields_members h [] ms hempty
  next => exact yields_fail

/-- What a decoder yields, reading a whole document yields. -/
lemma Yields.of_run? {decode : Node → Decode α} (h : ∀ node, Yields P (decode node))
    {doc : Document} {a : α} (ha : run? decode doc = some a) : P a := by
  obtain ⟨p, hp, rfl⟩ := Option.map_eq_some_iff.1 ha
  exact h _ _ _ _ _ hp

end Yaml.Decode

/-! ### Task files -/

namespace TaskFile

open Yaml (Decode)

variable {f : TaskFile} {text : String}

/-- What is read so far asks for numbers of 64 bits only. -/
def Fields.IsBounded (fields : Fields) : Prop :=
  (∀ limit, fields.concurrency = some limit → limit ≤ RetryPolicy.maxLongWord) ∧
    ∀ interval, fields.publishInterval = some interval → interval ≤ RetryPolicy.maxLongWord

/-- Before any field is read, nothing is out of bounds. -/
lemma Fields.isBounded_empty : ({} : Fields).IsBounded := by
  constructor <;> rintro _ ⟨⟩

/-- Every field keeps the numbers within 64 bits. -/
lemma yields_reader? {name : String} {read : Yaml.Node → Fields → Decode Fields}
    (hread : reader? name = some read) (node : Yaml.Node) (fields : Fields)
    (h : fields.IsBounded) : Decode.Yields Fields.IsBounded (read node fields) := by
  have hnumber := Decode.yields_option (Decode.yields_natUpTo RetryPolicy.maxLongWord)
  simp only [reader?] at hread
  split at hread
  · cases hread
    exact (hnumber node).bind fun limit hlimit => Decode.yields_pure ⟨hlimit, h.2⟩
  · cases hread
    exact (hnumber node).bind fun interval hinterval => Decode.yields_pure ⟨h.1, hinterval⟩
  · cases hread
    exact (Decode.yields_true _).bind fun _ _ => Decode.yields_pure h
  · cases hread

/-- **The numbers of an accepted file**: they have 64 bits, and the limit is not zero. -/
theorem bounds_of_parse (h : parse text = .ok f) :
    (∀ limit, f.concurrency = some limit → 0 < limit ∧ limit ≤ RetryPolicy.maxLongWord) ∧
      ∀ interval, f.publishInterval = some interval → interval ≤ RetryPolicy.maxLongWord := by
  have hdecode : ∀ node, Decode.Yields (fun g : TaskFile =>
      (∀ limit, g.concurrency = some limit → limit ≤ RetryPolicy.maxLongWord) ∧
        ∀ interval, g.publishInterval = some interval → interval ≤ RetryPolicy.maxLongWord)
      (decode node) := by
    intro node
    refine (Decode.yields_fields (fun _ _ => yields_reader?) Fields.isBounded_empty node).bind
      fun fields hfields => ?_
    exact (Decode.yields_true _).bind fun _ _ => Decode.yields_pure hfields
  unfold parse at h
  split at h
  next g hg =>
    obtain ⟨doc, -, hrun⟩ := Option.bind_eq_some_iff.1 hg
    unfold checked at h
    split at h
    · cases h
    next hkept =>
      cases h
      obtain ⟨hlimit, hinterval⟩ := Decode.Yields.of_run? hdecode hrun
      refine ⟨fun limit hf => ⟨Nat.pos_of_ne_zero ?_, hlimit limit hf⟩, hinterval⟩
      rintro rfl
      simp only [violation?, hf] at hkept
      split at hkept <;> cases hkept
  next => cases h

/-! ### Options -/

/-- The options of a file; a limit that is given besides takes precedence. -/
def optionsWith (f : TaskFile) (limit : Option Nat) : RunOptions :=
  match limit with
  | some limit => f.runOptions.withConcurrency limit
  | none => f.runOptions

/-- The limit that is given, or else that of the file, or else four; zero counts as one. -/
lemma concurrency_optionsWith (f : TaskFile) (limit : Option Nat) :
    (f.optionsWith limit).concurrency =
      Slots.effectiveLimit (limit.getD (f.concurrency.getD 4)) := by
  unfold optionsWith runOptions
  cases limit <;> cases f.concurrency <;> cases f.publishInterval <;> rfl

/-- The interval of the file, or fifty milliseconds. -/
lemma publishInterval_optionsWith (f : TaskFile) (limit : Option Nat) :
    (f.optionsWith limit).publishInterval = f.publishInterval.getD 50 := by
  unfold optionsWith runOptions
  cases limit <;> cases f.concurrency <;> cases f.publishInterval <;> rfl

/-- The interval between snapshots fits into a long word. -/
lemma publishInterval_optionsWith_le (h : parse text = .ok f) (limit : Option Nat) :
    (f.optionsWith limit).publishInterval ≤ RetryPolicy.maxLongWord := by
  rw [publishInterval_optionsWith]
  cases hinterval : f.publishInterval with
  | none => decide
  | some interval => exact (bounds_of_parse h).2 interval hinterval

/-! ### Tasks -/

/-- Adding dependencies leaves the rest of a definition as it is. -/
lemma exists_withDependencies_eq (t : TaskDefinition) (ids : List TaskId) :
    ∃ (dependencies : List TaskId) (dependencies_nodup : dependencies.Nodup),
      t.withDependencies ids = { t with dependencies, dependencies_nodup } := by
  unfold TaskDefinition.withDependencies
  induction ids generalizing t with
  | nil => exact ⟨t.dependencies, t.dependencies_nodup, rfl⟩
  | cons d rest ih =>
    obtain ⟨dependencies, hnodup, heq⟩ := ih (t.dependsOn d)
    refine ⟨dependencies, hnodup, ?_⟩
    rw [List.foldl_cons, heq, TaskDefinition.dependsOn]
    split <;> rfl

/-- A task of a file is a command. -/
lemma work_task (e : TaskEntry) : e.task.work = .command e.spec := by
  obtain ⟨dependencies, hnodup, heq⟩ := exists_withDependencies_eq
    (TaskDefinition.ofCommand ⟨e.id⟩ e.spec) (e.dependsOn.map TaskId.mk)
  unfold TaskEntry.task
  rw [heq]
  cases e.name <;> cases e.retry <;> cases e.logFile <;> rfl

/-- A task of a file is tried again as its entry says. -/
lemma retryPolicy_task (e : TaskEntry) : e.task.retryPolicy = e.retry.map RetryEntry.policy := by
  obtain ⟨dependencies, hnodup, heq⟩ := exists_withDependencies_eq
    (TaskDefinition.ofCommand ⟨e.id⟩ e.spec) (e.dependsOn.map TaskId.mk)
  unfold TaskEntry.task
  rw [heq]
  cases e.name <;> cases e.retry <;> cases e.logFile <;> rfl

end TaskFile

end Taskflow
