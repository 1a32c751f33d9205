import Taskflow.Proofs.Json.Reader
set_option autoImplicit false

/-!
# Reading objects and arrays

Objects and arrays are read part by part into a running result. What every part keeps, the whole
keeps, whatever the text; and if each part of a written value is read as it was meant, so is the
whole.

## Main definitions

* `Json.Reader.ReadsMembers`, `Json.Reader.ReadsItems` — a reader takes each written member, each
  written item, as a function on values says.

## Main results

* `Json.Reader.whole?_eq_some`, `Json.Reader.exists_of_whole?` — a text as a whole.
* `Json.Reader.members?_keeps`, `Json.Reader.items?_keeps` — an invariant of the running result.
* `Json.Reader.members?_write`, `Json.Reader.items?_write` — a written object, a written array.
-/

namespace Taskflow.Json.Reader

variable {σ : Type} {P : σ → Prop} {l : Layout}

/-! ### Whole texts -/

/-- A text is read as a whole if nothing but blanks is left of it. -/
lemma whole?_eq_some {read : List Char → Option (σ × List Char)} {text : String} {a : σ}
    {rest : List Char} (h : read text.toList = some (a, rest)) (hrest : skipBlanks rest = []) :
    whole? read text = some a := by
  rw [whole?, h]
  exact if_pos (by rw [hrest]; rfl)

/-- What a whole text is read as is read at its beginning. -/
lemma exists_of_whole? {read : List Char → Option (σ × List Char)} {text : String} {a : σ}
    (h : whole? read text = some a) : ∃ rest, read text.toList = some (a, rest) := by
  obtain ⟨⟨b, rest⟩, hread, h⟩ := Option.bind_eq_some_iff.1 h
  dsimp only at h
  split at h
  next => cases h; exact ⟨rest, hread⟩
  next => cases h

/-! ### Objects -/

section Members

variable {member : String → σ → List Char → Option (σ × List Char)}

/-- What stands behind a member: further members, and the closing brace. -/
def moreMembers? (member : String → σ → List Char → Option (σ × List Char)) (fuel : Nat) (acc : σ)
    (cs : List Char) : Option (σ × List Char) :=
  match skipBlanks cs with
  | ',' :: rest => membersLoop? member fuel acc rest
  | '\x7d' :: rest => some (acc, rest)
  | _ => none

/-- A member is read: its name, a colon, its value, and then the other members. -/
lemma membersLoop?_succ (fuel : Nat) (acc : σ) (cs : List Char) :
    membersLoop? member (fuel + 1) acc cs = (string? cs).bind fun name =>
      (expect? ':' name.2).bind fun rest =>
        (member name.1 acc rest).bind fun r => moreMembers? member fuel r.1 r.2 := rfl

/-- **What the reader of a member keeps, reading an object keeps.** -/
theorem members?_keeps
    (h : ∀ name acc cs acc' rest, P acc → member name acc cs = some (acc', rest) → P acc')
    {init acc : σ} {cs rest : List Char} (hinit : P init)
    (hread : members? member init cs = some (acc, rest)) : P acc := by
  have hloop : ∀ fuel init cs, P init → membersLoop? member fuel init cs = some (acc, rest) →
      P acc := by
    intro fuel
    induction fuel with
    | zero => intro init cs _ hread; cases hread
    | succ fuel ih =>
      intro init cs hinit hread
      rw [membersLoop?_succ] at hread
      obtain ⟨name, -, hread⟩ := Option.bind_eq_some_iff.1 hread
      obtain ⟨cs₁, -, hread⟩ := Option.bind_eq_some_iff.1 hread
      obtain ⟨⟨acc₁, cs₂⟩, hmember, hread⟩ := Option.bind_eq_some_iff.1 hread
      have hacc₁ := h _ _ _ _ _ hinit hmember
      unfold moreMembers? at hread
      split at hread
      next => exact ih _ _ hacc₁ hread
      next => cases hread; exact hacc₁
      next => cases hread
  obtain ⟨cs₁, -, hread⟩ := Option.bind_eq_some_iff.1 hread
  split at hread
  next => cases hread; exact hinit
  next => exact hloop _ _ _ hinit hread

/-- A reader takes each written member as a function on values says. -/
def ReadsMembers (l : Layout) (member : String → σ → List Char → Option (σ × List Char))
    (take : σ → String × Json → Option σ) : Prop :=
  ∀ (d : Nat) (k : String) (v : Json) (acc acc' : σ) (bs cs : List Char),
    (∀ b ∈ bs, isBlank b = true) → EndsNumber cs → take acc (k, v) = some acc' →
      member k acc (bs ++ ((write l d v).toList ++ cs)) = some (acc', cs)

variable {take : σ → String × Json → Option σ}

/-- The first member of some: its name is read, and then its value. -/
lemma membersLoop?_write (hl : l.IsBlank) (hreads : ReadsMembers l member take) (d fuel : Nat)
    {k : String} {v : Json} {acc acc' : σ} {bs cs : List Char} (hbs : ∀ b ∈ bs, isBlank b = true)
    (hcs : EndsNumber cs) (htake : take acc (k, v) = some acc') :
    membersLoop? member (fuel + 1) acc (bs ++ ((quote k).toList ++ (l.colon.toList ++
      ((write l d v).toList ++ cs)))) = moreMembers? member fuel acc' cs := by
  obtain ⟨after, hcolon, hafter⟩ := hl.colon
  rw [membersLoop?_succ, string?_quote k hbs, Option.bind_some, hcolon, List.cons_append,
    ← List.nil_append (':' :: _), expect?_append (by simp) (by decide), Option.bind_some,
    hreads d k v acc acc' after cs hafter hcs htake]
  rfl

/-- The other members of a written object are read up to its closing brace. -/
lemma moreMembers?_write (hl : l.IsBlank) (hreads : ReadsMembers l member take) (d : Nat)
    {ms : List (String × Json)} {fuel : Nat} {acc acc' : σ} {bs : List Char} (cs : List Char)
    (hfuel : ms.length ≤ fuel) (hbs : ∀ b ∈ bs, isBlank b = true)
    (htake : ms.foldlM take acc = some acc') :
    moreMembers? member fuel acc ((writeMembers l d ms).toList ++ (bs ++ '\x7d' :: cs)) =
      some (acc', cs) := by
  induction ms generalizing fuel acc with
  | nil =>
    cases htake
    simp [moreMembers?, writeMembers, skipBlanks_append hbs, skipBlanks_cons, isBlank]
  | cons m ms ih =>
    obtain ⟨k, v⟩ := m
    obtain ⟨fuel, rfl⟩ : ∃ n, fuel = n + 1 := ⟨fuel - 1, by rw [List.length_cons] at hfuel; omega⟩
    obtain ⟨acc₁, hfirst, hrest⟩ := Option.bind_eq_some_iff.1 htake
    have hends := endsNumber_brace hbs cs
    rw [toList_writeMembers, List.cons_append, moreMembers?, skipBlanks_cons (by decide)]
    simp only [List.append_assoc]
    rw [membersLoop?_write hl hreads d fuel (hl.lineBreak d) (endsNumber_writeMembers l d ms hends)
      hfirst]
    exact ih (Nat.le_of_succ_le_succ hfuel) hrest

/-- Each member takes a character at least. -/
lemma length_le_length_writeMembers (l : Layout) (d : Nat) (ms : List (String × Json)) :
    ms.length ≤ (writeMembers l d ms).toList.length := by
  induction ms with
  | nil => exact Nat.le_refl _
  | cons m ms ih =>
    rw [toList_writeMembers]
    simp only [List.length_cons, List.length_append]
    omega

/-- **A written object is read**, member by member. -/
theorem members?_write (hl : l.IsBlank) (hreads : ReadsMembers l member take) (d : Nat)
    {ms : List (String × Json)} {init acc : σ} (bs cs : List Char)
    (hbs : ∀ b ∈ bs, isBlank b = true) (htake : ms.foldlM take init = some acc) :
    members? member init (bs ++ ((write l d (.obj ms)).toList ++ cs)) = some (acc, cs) := by
  match ms with
  | [] =>
    cases htake
    rw [toList_write_obj_nil, List.cons_append, members?, expect?_append hbs (by decide)]
    simp [skipBlanks_cons, isBlank]
  | (k, v) :: ms =>
    obtain ⟨acc₁, hfirst, hrest⟩ := Option.bind_eq_some_iff.1 htake
    have hlength := length_le_length_writeMembers l (d + 1) ms
    have hends := endsNumber_brace (hl.lineBreak d) cs
    have hloop : ∀ fuel, ms.length ≤ fuel → membersLoop? member (fuel + 1) init
        ((quote k).toList ++ (l.colon.toList ++ ((write l (d + 1) v).toList ++
          ((writeMembers l (d + 1) ms).toList ++ ((l.lineBreak d).toList ++ '\x7d' :: cs))))) =
        some (acc, cs) := by
      intro fuel hfuel
      rw [← List.nil_append ((quote k).toList ++ _), membersLoop?_write hl hreads (d + 1) fuel
        (by simp) (endsNumber_writeMembers l _ ms hends) hfirst]
      exact moreMembers?_write hl hreads (d + 1) cs hfuel (hl.lineBreak d) hrest
    rw [toList_write_obj, List.cons_append, members?, expect?_append hbs (by decide)]
    simp only [Option.bind_eq_bind, Option.bind_some, List.append_assoc, List.cons_append,
      List.nil_append]
    rw [skipBlanks_append (hl.lineBreak _)]
    rw [toList_quote] at hloop ⊢
    rw [List.cons_append, skipBlanks_cons (by decide)]
    exact hloop _ (by simp only [List.length_cons, List.length_append]; omega)

end Members

/-! ### Arrays -/

section Items

variable {item : Nat → σ → List Char → Option (σ × List Char)}

/-- What stands behind an item: further items, and the closing bracket. -/
def moreItems? (item : Nat → σ → List Char → Option (σ × List Char)) (fuel i : Nat) (acc : σ)
    (cs : List Char) : Option (σ × List Char) :=
  match skipBlanks cs with
  | ',' :: rest => itemsLoop? item fuel (i + 1) acc rest
  | ']' :: rest => some (acc, rest)
  | _ => none

/-- An item is read, and then the other items. -/
lemma itemsLoop?_succ (fuel i : Nat) (acc : σ) (cs : List Char) :
    itemsLoop? item (fuel + 1) i acc cs =
      (item i acc cs).bind fun r => moreItems? item fuel i r.1 r.2 := rfl

/-- **What the reader of an item keeps, reading an array keeps.** -/
theorem items?_keeps
    (h : ∀ i acc cs acc' rest, P acc → item i acc cs = some (acc', rest) → P acc')
    {init acc : σ} {cs rest : List Char} (hinit : P init)
    (hread : items? item init cs = some (acc, rest)) : P acc := by
  have hloop : ∀ fuel i init cs, P init → itemsLoop? item fuel i init cs = some (acc, rest) →
      P acc := by
    intro fuel
    induction fuel with
    | zero => intro i init cs _ hread; cases hread
    | succ fuel ih =>
      intro i init cs hinit hread
      rw [itemsLoop?_succ] at hread
      obtain ⟨⟨acc₁, cs₁⟩, hitem, hread⟩ := Option.bind_eq_some_iff.1 hread
      have hacc₁ := h _ _ _ _ _ hinit hitem
      unfold moreItems? at hread
      split at hread
      next => exact ih _ _ _ hacc₁ hread
      next => cases hread; exact hacc₁
      next => cases hread
  obtain ⟨cs₁, -, hread⟩ := Option.bind_eq_some_iff.1 hread
  split at hread
  next => cases hread; exact hinit
  next => exact hloop _ _ _ _ hinit hread

/-- A reader takes each written item as a function on values says, by its position. -/
def ReadsItems (l : Layout) (item : Nat → σ → List Char → Option (σ × List Char))
    (take : Nat → σ → Json → Option σ) : Prop :=
  ∀ (d i : Nat) (v : Json) (acc acc' : σ) (bs cs : List Char), (∀ b ∈ bs, isBlank b = true) →
    EndsNumber cs → take i acc v = some acc' →
      item i acc (bs ++ ((write l d v).toList ++ cs)) = some (acc', cs)

/-- Takes all items from a position on. -/
def takeItems (take : Nat → σ → Json → Option σ) : Nat → σ → List Json → Option σ
  | _, acc, [] => some acc
  | i, acc, v :: vs => (take i acc v).bind fun acc => takeItems take (i + 1) acc vs

variable {take : Nat → σ → Json → Option σ}

/-- The other items of a written array are read up to its closing bracket. -/
lemma moreItems?_write (hl : l.IsBlank) (hreads : ReadsItems l item take) (d : Nat)
    {vs : List Json} {fuel i : Nat} {acc acc' : σ} {bs : List Char} (cs : List Char)
    (hfuel : vs.length ≤ fuel) (hbs : ∀ b ∈ bs, isBlank b = true)
    (htake : takeItems take (i + 1) acc vs = some acc') :
    moreItems? item fuel i acc ((writeItems l d vs).toList ++ (bs ++ ']' :: cs)) =
      some (acc', cs) := by
  induction vs generalizing fuel i acc with
  | nil =>
    cases htake
    simp [moreItems?, writeItems, skipBlanks_append hbs, skipBlanks_cons, isBlank]
  | cons v vs ih =>
    obtain ⟨fuel, rfl⟩ : ∃ n, fuel = n + 1 := ⟨fuel - 1, by rw [List.length_cons] at hfuel; omega⟩
    obtain ⟨acc₁, hfirst, hrest⟩ := Option.bind_eq_some_iff.1 htake
    have hends := endsNumber_bracket hbs cs
    rw [toList_writeItems, List.cons_append, moreItems?, skipBlanks_cons (by decide)]
    simp only [List.append_assoc]
    rw [itemsLoop?_succ, hreads d (i + 1) v acc acc₁ _ _ (hl.lineBreak d)
      (endsNumber_writeItems l d vs hends) hfirst]
    exact ih (Nat.le_of_succ_le_succ hfuel) hrest

/-- Each item takes a character at least. -/
lemma length_le_length_writeItems (l : Layout) (d : Nat) (vs : List Json) :
    vs.length ≤ (writeItems l d vs).toList.length := by
  induction vs with
  | nil => exact Nat.le_refl _
  | cons v vs ih =>
    rw [toList_writeItems]
    simp only [List.length_cons, List.length_append]
    omega

/-- **A written array is read**, item by item. -/
theorem items?_write (hl : l.IsBlank) (hreads : ReadsItems l item take) (d : Nat)
    {vs : List Json} {init acc : σ} (bs cs : List Char)
    (hbs : ∀ b ∈ bs, isBlank b = true) (htake : takeItems take 0 init vs = some acc) :
    items? item init (bs ++ ((write l d (.arr vs)).toList ++ cs)) = some (acc, cs) := by
  match vs with
  | [] =>
    cases htake
    rw [toList_write_arr_nil, List.cons_append, items?, expect?_append hbs (by decide)]
    simp [skipBlanks_cons, isBlank]
  | v :: vs =>
    obtain ⟨acc₁, hfirst, hrest⟩ := Option.bind_eq_some_iff.1 htake
    have hlength := length_le_length_writeItems l (d + 1) vs
    have hends := endsNumber_bracket (hl.lineBreak d) cs
    obtain ⟨c, rest, hcons, -, hc⟩ := exists_write_eq_cons l (d + 1) v
    have hloop : ∀ fuel, vs.length ≤ fuel → itemsLoop? item (fuel + 1) 0 init
        ((write l (d + 1) v).toList ++ ((writeItems l (d + 1) vs).toList ++
          ((l.lineBreak d).toList ++ ']' :: cs))) = some (acc, cs) := by
      intro fuel hfuel
      have hitem := hreads (d + 1) 0 v init acc₁ [] _ (by simp)
        (endsNumber_writeItems l (d + 1) vs hends) hfirst
      rw [List.nil_append] at hitem
      rw [itemsLoop?_succ, hitem]
      exact moreItems?_write hl hreads (d + 1) cs hfuel (hl.lineBreak d) hrest
    rw [toList_write_arr, List.cons_append, items?, expect?_append hbs (by decide)]
    simp only [Option.bind_eq_bind, Option.bind_some, List.append_assoc, List.cons_append,
      List.nil_append]
    rw [skipBlanks_write l (d + 1) v (hl.lineBreak _)]
    split
    next heq =>
      rw [hcons] at heq
      cases heq
      exact absurd rfl hc
    next => exact hloop _ (by simp only [List.length_append]; omega)

end Items

end Taskflow.Json.Reader
