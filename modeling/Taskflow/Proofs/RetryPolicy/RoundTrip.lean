import Taskflow.Proofs.Duration
import Taskflow.Proofs.Json.Collections
import Taskflow.RetryPolicy
set_option autoImplicit false

/-!
# Policies as JSON

A policy is written with its base in milliseconds, cut to 64 bits, and read from an object or from
an array. What writing loses is lost at the first time: a policy that was read is written and read
without any loss, whatever text it was read from.

## Main definitions

* `RetryPolicy.ofValue?` — the policy that a JSON value is, told without its text.
* `RetryPolicy.memberOfRetries`, `RetryPolicy.memberOfBase` — the two members of a written policy.

## Main results

* `RetryPolicy.exists_millis_of_ofJson?` — the base of a policy that was read.
* `RetryPolicy.ofJson?_write` — the text of every value that is a policy is read as that policy.
* `RetryPolicy.json_round_trip` — what comes back when a policy is written and read.
-/

namespace Taskflow.RetryPolicy

open Json.Reader

/-! ### What a decoded policy is -/

/-- What is read as a field is no larger than it may be. -/
lemma natField?_le {max n : Nat} {cs rest : List Char} (h : natField? max cs = some (n, rest)) :
    n ≤ max := by
  obtain ⟨⟨number, rest'⟩, -, h⟩ := Option.bind_eq_some_iff.1 h
  obtain ⟨m, hm, h⟩ := Option.bind_eq_some_iff.1 h
  cases h
  unfold Json.Number.natUpTo? at hm
  split at hm
  next k =>
    split at hm
    next hle => cases hm; exact hle
    next => cases hm
  next => cases hm

/-- The milliseconds read so far fit 64 bits. -/
def Fields.MillisFit (f : Fields) : Prop := ∀ ms ∈ f.backoffMillis, ms ≤ maxLongWord

/-- A field that was read as a long word keeps the fields in bounds. -/
lemma Fields.millisFit_set (f : Fields) {r : Nat × List Char} {cs : List Char}
    (h : natField? maxLongWord cs = some r) :
    Fields.MillisFit { f with backoffMillis := some r.1 } := by
  rintro ms ⟨⟩
  exact natField?_le h

/-- Reading a member keeps the fields in bounds. -/
lemma millisFit_readMember? {name : String} {f f' : Fields} {cs rest : List Char}
    (hf : f.MillisFit) (h : readMember? name f cs = some (f', rest)) : f'.MillisFit := by
  unfold readMember? at h
  split at h
  next =>
    split at h
    next => cases h
    next =>
      obtain ⟨r, -, hf'⟩ := Option.map_eq_some_iff.1 h
      cases hf'
      exact hf
  next =>
    split at h
    next =>
      split at h
      next => cases h
      next =>
        obtain ⟨r, hr, hf'⟩ := Option.map_eq_some_iff.1 h
        cases hf'
        exact f.millisFit_set hr
    next =>
      obtain ⟨r, -, hf'⟩ := Option.map_eq_some_iff.1 h
      cases hf'
      exact hf

/-- Reading an item keeps the fields in bounds. -/
lemma millisFit_readItem? {i : Nat} {f f' : Fields} {cs rest : List Char}
    (hf : f.MillisFit) (h : readItem? i f cs = some (f', rest)) : f'.MillisFit := by
  unfold readItem? at h
  split at h
  next =>
    obtain ⟨r, -, hf'⟩ := Option.map_eq_some_iff.1 h
    cases hf'
    exact hf
  next =>
    split at h
    next =>
      obtain ⟨r, hr, hf'⟩ := Option.map_eq_some_iff.1 h
      cases hf'
      exact f.millisFit_set hr
    next => cases h

/-- Reads the two fields, from an object or from an array. -/
def readFields? (cs : List Char) : Option (Fields × List Char) :=
  match skipBlanks cs with
  | '[' :: _ => items? readItem? {} cs
  | _ => members? readMember? {} cs

/-- The first character tells an array from an object. -/
lemma readFields?_of_cons {c : Char} {cs rest : List Char} (h : skipBlanks cs = c :: rest) :
    readFields? cs =
      if c = '[' then items? readItem? {} cs else members? readMember? {} cs := by
  rw [readFields?, h]
  by_cases hc : c = '['
  · subst hc
    rfl
  · simp [hc]

/-- A policy is read from its fields. -/
lemma read?_eq (cs : List Char) : read? cs =
    (readFields? cs).bind fun r => r.1.policy?.bind fun p => some (p, r.2) := by
  unfold read? readFields?
  cases skipBlanks cs with
  | nil => rfl
  | cons c rest =>
    by_cases hc : c = '['
    · subst hc
      rfl
    · simp [hc]

/-- The base of a decoded policy is a number of milliseconds of 64 bits. -/
lemma exists_millis_of_ofJson? {text : String} {p : RetryPolicy} (h : ofJson? text = some p) :
    ∃ ms ≤ maxLongWord, p.backoffBase = .ofMillis ms := by
  obtain ⟨rest, hread⟩ := exists_of_whole? h
  rw [read?_eq] at hread
  obtain ⟨⟨f, rest'⟩, hfields, hread⟩ := Option.bind_eq_some_iff.1 hread
  obtain ⟨q', hpolicy, hread⟩ := Option.bind_eq_some_iff.1 hread
  cases hread
  obtain ⟨retries, -, hpolicy⟩ := Option.bind_eq_some_iff.1 hpolicy
  obtain ⟨ms, hms, hpolicy⟩ := Option.bind_eq_some_iff.1 hpolicy
  cases hpolicy
  have hempty : Fields.MillisFit {} := nofun
  have hf : f.MillisFit := by
    unfold readFields? at hfields
    split at hfields
    next => exact items?_keeps (fun _ _ _ _ _ => millisFit_readItem?) hempty hfields
    next => exact members?_keeps (fun _ _ _ _ _ => millisFit_readMember?) hempty hfields
  exact ⟨ms, hf ms hms, rfl⟩

/-! ### Reading what is written -/

/-- The number of a JSON value, if it is not greater than `max`. -/
def natValue? (max : Nat) : Json → Option Nat
  | .int n => (Json.Number.integer n).natUpTo? max
  | _ => .none

/-- What a member tells about a policy. -/
def takeMember? (f : Fields) (m : String × Json) : Option Fields :=
  if m.1 = "max_retries" then
    if f.maxRetries.isSome then .none
    else (natValue? maxWord m.2).map fun n => { f with maxRetries := some n }
  else if m.1 = "backoff_base" then
    if f.backoffMillis.isSome then .none
    else (natValue? maxLongWord m.2).map fun n => { f with backoffMillis := some n }
  else some f

/-- What the item at a position tells about a policy. -/
def takeItem? (i : Nat) (f : Fields) (v : Json) : Option Fields :=
  if i = 0 then (natValue? maxWord v).map fun n => { f with maxRetries := some n }
  else if i = 1 then (natValue? maxLongWord v).map fun n => { f with backoffMillis := some n }
  else .none

/-- The policy that a JSON value is: an object with both members, or an array of two numbers. -/
def ofValue? : Json → Option RetryPolicy
  | .obj ms => (ms.foldlM takeMember? {}).bind Fields.policy?
  | .arr vs => (takeItems takeItem? 0 {} vs).bind Fields.policy?
  | _ => .none

section Write

variable {l : Json.Layout}

/-- A number that is written is read as a field, if it is no larger than it may be. -/
lemma natField?_write {max n : Nat} {v : Json} (h : natValue? max v = some n) (d : Nat)
    {bs cs : List Char} (hbs : ∀ b ∈ bs, isBlank b = true) (hcs : EndsNumber cs) :
    natField? max (bs ++ ((Json.write l d v).toList ++ cs)) = some (n, cs) := by
  unfold natValue? at h
  split at h
  next m =>
    rw [Json.write, natField?, number?_append hbs, number?_toString m hcs]
    simp [h]
  next => cases h

/-- The members of a policy are read from an object as they are taken from its value. -/
lemma readsMembers (hl : l.IsBlank) : ReadsMembers l readMember? takeMember? := by
  intro d k v f f' bs cs hbs hcs h
  unfold takeMember? at h
  unfold readMember?
  split at h
  next hk =>
    split at h
    next => cases h
    next hfree =>
      obtain ⟨n, hn, rfl⟩ := Option.map_eq_some_iff.1 h
      rw [if_pos hk, if_neg hfree, natField?_write hn d hbs hcs]
      rfl
  next hk =>
    rw [if_neg hk]
    split at h
    next hk' =>
      split at h
      next => cases h
      next hfree =>
        obtain ⟨n, hn, rfl⟩ := Option.map_eq_some_iff.1 h
        rw [if_pos hk', if_neg hfree, natField?_write hn d hbs hcs]
        rfl
    next hk' =>
      cases h
      rw [if_neg hk', skip?_write hl v d hbs hcs]
      rfl

/-- The items of a policy are read from an array as they are taken from its value. -/
lemma readsItems : ReadsItems l readItem? takeItem? := by
  intro d i v f f' bs cs hbs hcs h
  unfold takeItem? at h
  unfold readItem?
  split at h
  next hi =>
    obtain ⟨n, hn, rfl⟩ := Option.map_eq_some_iff.1 h
    rw [if_pos hi, natField?_write hn d hbs hcs]
    rfl
  next hi =>
    rw [if_neg hi]
    split at h
    next hi' =>
      obtain ⟨n, hn, rfl⟩ := Option.map_eq_some_iff.1 h
      rw [if_pos hi', natField?_write hn d hbs hcs]
      rfl
    next => cases h

/-- **A policy is read from the text of every value that is one.** -/
theorem ofJson?_write (hl : l.IsBlank) (d : Nat) {v : Json} {p : RetryPolicy}
    (h : ofValue? v = some p) : ofJson? (Json.write l d v) = some p := by
  have hfields : ∃ f,
      readFields? (Json.write l d v).toList = some (f, []) ∧ f.policy? = some p := by
    unfold ofValue? at h
    split at h
    next ms =>
      obtain ⟨f, hf, hp⟩ := Option.bind_eq_some_iff.1 h
      obtain ⟨cs, hcs⟩ := Json.exists_write_obj l d ms
      have hmembers := members?_write hl (readsMembers hl) d [] [] (by simp) hf
      rw [List.append_nil, List.nil_append, hcs] at hmembers
      refine ⟨f, ?_, hp⟩
      rw [hcs, readFields?_of_cons (skipBlanks_cons (by decide)), if_neg (by decide), hmembers]
    next vs =>
      obtain ⟨f, hf, hp⟩ := Option.bind_eq_some_iff.1 h
      obtain ⟨cs, hcs⟩ := Json.exists_write_arr l d vs
      have hitems := items?_write hl readsItems d [] [] (by simp) hf
      rw [List.append_nil, List.nil_append, hcs] at hitems
      refine ⟨f, ?_, hp⟩
      rw [hcs, readFields?_of_cons (skipBlanks_cons (by decide)), if_pos rfl, hitems]
    next => cases h
  obtain ⟨f, hf, hp⟩ := hfields
  have hpolicy : read? (Json.write l d v).toList = some (p, []) := by
    rw [read?_eq, hf, Option.bind_some, hp]
    rfl
  exact whole?_eq_some hpolicy rfl

end Write

/-! ### Members of an object -/

/-- A natural number is taken, if it is no larger than it may be. -/
lemma natValue?_natCast {max n : Nat} (h : n ≤ max) : natValue? max (.int n) = some n :=
  if_pos h

/-- A member that has the name of one of the two fields. -/
def isField (m : String × Json) : Bool := m.1 = "max_retries" ∨ m.1 = "backoff_base"

/-- Members with other names tell nothing. -/
lemma foldlM_takeMember?_filter (ms : List (String × Json)) (f : Fields) :
    ms.foldlM takeMember? f = (ms.filter isField).foldlM takeMember? f := by
  induction ms generalizing f with
  | nil => rfl
  | cons m ms ih =>
    by_cases hm : isField m = true
    · rw [List.filter_cons_of_pos hm, List.foldlM_cons, List.foldlM_cons]
      exact congrArg _ (funext fun f => ih f)
    · have hskip : takeMember? f m = some f := by
        rw [isField, decide_eq_true_iff, not_or] at hm
        rw [takeMember?, if_neg hm.1, if_neg hm.2]
      rw [List.filter_cons_of_neg hm, List.foldlM_cons, hskip]
      exact ih f

/-- The member that holds the number of retries. -/
def memberOfRetries (n : UInt32) : String × Json := ("max_retries", .int n.toNat)

/-- The member that holds the milliseconds of the base. -/
def memberOfBase (ms : UInt64) : String × Json := ("backoff_base", .int ms.toNat)

/-- An object is a policy if it has the two members, in either order, and whatever others. -/
lemma ofValue?_obj {members : List (String × Json)} {n : UInt32} {ms : UInt64}
    (h : members.filter isField = [memberOfRetries n, memberOfBase ms] ∨
      members.filter isField = [memberOfBase ms, memberOfRetries n]) :
    ofValue? (.obj members) = some ⟨n, .ofMillis ms.toNat⟩ := by
  have hn := natValue?_natCast (Nat.le_of_lt_succ n.toNat_lt : n.toNat ≤ maxWord)
  have hms := natValue?_natCast (Nat.le_of_lt_succ ms.toNat_lt : ms.toNat ≤ maxLongWord)
  rw [ofValue?, foldlM_takeMember?_filter]
  rcases h with h | h <;>
    simp [h, takeMember?, memberOfRetries, memberOfBase, hn, hms, Fields.policy?]

/-- An array of both numbers is the value of a policy. -/
lemma ofValue?_arr (n : UInt32) (ms : UInt64) :
    ofValue? (.arr [.int n.toNat, .int ms.toNat]) = some ⟨n, .ofMillis ms.toNat⟩ := by
  have hn := natValue?_natCast (Nat.le_of_lt_succ n.toNat_lt : n.toNat ≤ maxWord)
  have hms := natValue?_natCast (Nat.le_of_lt_succ ms.toNat_lt : ms.toNat ≤ maxLongWord)
  simp [ofValue?, takeItems, takeItem?, hn, hms, Fields.policy?]

/-! ### Round trips -/

/-- The base is written as a 64-bit number of milliseconds; what does not fit is cut off. -/
lemma toJson_eq (p : RetryPolicy) :
    p.toJson = .obj [memberOfRetries p.maxRetries, memberOfBase (.ofNat p.backoffBase.millis)] := by
  rw [toJson, memberOfRetries, memberOfBase, UInt64.toNat_ofNat']
  rfl

/-- A written policy is read as one with the same number of retries, and with the milliseconds of
its base as far as they fit 64 bits. -/
lemma ofJson?_toJson {l : Json.Layout} (hl : l.IsBlank) (p : RetryPolicy) :
    ofJson? (Json.write l 0 p.toJson) =
      some ⟨p.maxRetries, .ofMillis (p.backoffBase.millis % 2 ^ 64)⟩ := by
  refine ofJson?_write hl 0 ?_
  rw [toJson_eq, ofValue?_obj (.inl rfl), UInt64.toNat_ofNat']

/-- Only a base of whole milliseconds that fit 64 bits is read as it was written. -/
lemma ofJson?_toJson_eq_iff {l : Json.Layout} (hl : l.IsBlank) (p : RetryPolicy) :
    ofJson? (Json.write l 0 p.toJson) = some p ↔
      ∃ ms < 2 ^ 64, p.backoffBase.nanos = ms * 1000000 := by
  have hlt : p.backoffBase.millis % 2 ^ 64 < 2 ^ 64 := Nat.mod_lt _ (by decide)
  rw [ofJson?_toJson hl, Option.some_inj]
  constructor
  · intro h
    refine ⟨_, hlt, ?_⟩
    rw [← Duration.nanos_ofMillis hlt]
    exact congrArg (fun q => q.backoffBase.nanos) h.symm
  · rintro ⟨ms, hms, hbase⟩
    have hmillis : p.backoffBase.millis = ms := by
      rw [Duration.millis, hbase]
      exact Nat.mul_div_cancel _ (by decide)
    have heq : Duration.ofMillis (p.backoffBase.millis % 2 ^ 64) = p.backoffBase := by
      refine Duration.ext ?_
      rw [Duration.nanos_ofMillis hlt, hmillis, Nat.mod_eq_of_lt hms, hbase]
    rw [heq]

/-- **Policies as JSON.**

* A policy that is written and read again keeps its number of retries, and of its base the whole
  milliseconds, reduced to 64 bits.
* So it comes back unchanged exactly if its base is a whole number of milliseconds below `2 ^ 64`.
* Every policy that was read, from whatever text, comes back unchanged; in particular, writing and
  reading a second time changes nothing any more.
* The texts that are read include every object with the two members, in either order and among
  members of any other names and values, and the array of the two numbers, with any blanks.

**Proof sketch.** A base that was read is a number of milliseconds of 64 bits, since the reader of
the number has checked it and nothing behind it changes it (`exists_millis_of_ofJson?`). That a
written value is read is an induction over the value, for each layout of blanks
(`Json.Reader.skip?_write`, `Json.Reader.members?_write`). -/
theorem json_round_trip :
    (∀ p : RetryPolicy, ofJson? p.toJson.compact =
      some ⟨p.maxRetries, .ofMillis (p.backoffBase.millis % 2 ^ 64)⟩) ∧
    (∀ p : RetryPolicy, ofJson? p.toJson.compact = some p ↔
      ∃ ms < 2 ^ 64, p.backoffBase.nanos = ms * 1000000) ∧
    (∀ (text : String) (p : RetryPolicy), ofJson? text = some p →
      ofJson? p.toJson.compact = some p) ∧
    (∀ l : Json.Layout, l.IsBlank → ∀ (members : List (String × Json)) (n : UInt32) (ms : UInt64),
      members.filter isField = [memberOfRetries n, memberOfBase ms] ∨
        members.filter isField = [memberOfBase ms, memberOfRetries n] →
      ofJson? (Json.write l 0 (.obj members)) = some ⟨n, .ofMillis ms.toNat⟩) ∧
    ∀ l : Json.Layout, l.IsBlank → ∀ (n : UInt32) (ms : UInt64),
      ofJson? (Json.write l 0 (.arr [.int n.toNat, .int ms.toNat])) =
        some ⟨n, .ofMillis ms.toNat⟩ := by
  refine ⟨ofJson?_toJson Json.Layout.isBlank_compact,
    ofJson?_toJson_eq_iff Json.Layout.isBlank_compact, fun text p h => ?_,
    fun l hl members n ms h => ofJson?_write hl 0 (ofValue?_obj h),
    fun l hl n ms => ofJson?_write hl 0 (ofValue?_arr n ms)⟩
  obtain ⟨ms, hms, hbase⟩ := exists_millis_of_ofJson? h
  have hlt : ms < 2 ^ 64 := Nat.lt_succ_of_le hms
  refine (ofJson?_toJson_eq_iff Json.Layout.isBlank_compact p).2 ⟨ms, hlt, ?_⟩
  rw [hbase, Duration.nanos_ofMillis hlt]

/-- An object with the base in front, a member of another name, and some blanks is read; and it is
read again from what is written then, and from the same members on lines of their own. -/
theorem noted_policy_comes_back :
    let text := "\x7b\"note\": [null, -1.5e3], \"backoff_base\": 250, \"max_retries\": 3 \x7d"
    let p : RetryPolicy := ⟨3, .ofMillis 250⟩
    let members := [("note", .arr [.null, .int (-1)]), memberOfBase 250, memberOfRetries 3]
    ofJson? text = some p ∧ ofJson? p.toJson.compact = some p ∧ Json.Layout.pretty.IsBlank ∧
      members.filter isField = [memberOfBase 250, memberOfRetries 3] ∧
      ofJson? (Json.pretty (.obj members)) = some p := by
  intro text p members
  have htext : ofJson? text = some p := by decide +kernel
  have hmembers : members.filter isField = [memberOfBase 250, memberOfRetries 3] := by
    decide +kernel
  obtain ⟨-, -, hback, hobj, -⟩ := json_round_trip
  exact ⟨htext, hback text p htext, Json.Layout.isBlank_pretty, hmembers,
    hobj _ Json.Layout.isBlank_pretty members 3 250 (.inr hmembers)⟩

end Taskflow.RetryPolicy
