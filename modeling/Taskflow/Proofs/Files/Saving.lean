import Mathlib.Tactic.Lemma
import Mathlib.Tactic.SplitIfs
import Taskflow.Files.Tree
set_option autoImplicit false

/-!
# What saving a text does to the files

A text that is saved is what the file then holds, unless the path leads to a device. Everything
else stays: the only other places that change are those of missing directories above the file, and
where a directory stood, it still stands.

## Main definitions

* `FileTree.destination` — where a path leads to if it goes through directories only.
* `FileTree.placesOf` — where a path and those above it lead to.
* `FileTree.KeepsBut` — nothing changes but at some places, and no directory goes away.

## Main results

* `FileTree.keepsBut_trySave` — what saving a text changes, whether it goes to its end or not.
* `FileTree.find_of_save` — what stands at a path to which a text was saved.
-/

namespace Taskflow

/-- A path and those above it, up to the first that is empty; `fuel` bounds their number. -/
def Path.upward : Nat → String → List String
  | 0, _ => []
  | fuel + 1, path =>
    if path = "" then [] else path :: upward fuel ((parent? path).getD "")

namespace FileTree

/-- Where a name leads to from a place. -/
def down (place : List String) (name : String) : List String :=
  if name = "." then place else if name = ".." then place.dropLast else place ++ [name]

/-- Where a path leads to if it goes through directories only. -/
def destination (dir : List String) (path : String) : List String :=
  (Path.names path).foldl down (if Path.isAbsolute path then [] else dir)

/-- Where a path and the paths above it lead to. -/
def placesOf (dir : List String) (path : String) : List (List String) :=
  (path :: Path.upward (((Path.parent? path).getD "").length + 1)
    ((Path.parent? path).getD "")).map (destination dir)

/-- The second tree is the first one but for some places, and no directory has gone away. -/
def KeepsBut (places : List (List String)) (t t' : FileTree) : Prop :=
  ∀ q, q ∉ places ∨ t.entry? q = some .directory → t'.entry? q = t.entry? q

variable {t t' t'' : FileTree} {dir place q : List String} {path text : String} {e : FileEntry}
  {places more : List (List String)} {names : List String} {bytes : List UInt8}

/-! ### Going down a path -/

/-- What was put at a place is found there. -/
lemma get_put_self (hplace : place ≠ []) : entry? (t.put place e) place = some e := by
  simp [ entry?, put, hplace]

/-- What is put at a place is found nowhere else. -/
lemma get_put_of_ne (h : place ≠ q) : entry? (t.put place e) q = t.entry? q := by
  simp [ entry?, put, h]

/-- Whoever goes down from a place finds a directory there. -/
lemma walk_cons {name : String} : t.walk place (name :: names) = .ok q ↔
    t.entry? place = some .directory ∧ name.utf8ByteSize ≤ 255 ∧
      t.walk (down place name) names = .ok q := by
  rw [walk, down]
  split
  next hnone => simp [hnone]
  next hdir =>
    by_cases hlong : name.utf8ByteSize > 255
    · rw [if_pos hlong]
      exact iff_of_false (by simp) fun h => Nat.not_le.2 hlong h.2.1
    · rw [if_neg hlong]
      split_ifs <;> simp [hdir, Nat.not_lt.1 hlong]
  next hother hsome =>
    refine iff_of_false (by simp) ?_
    rintro ⟨hdir, -⟩
    exact hother (Option.some.inj (hsome.symm.trans hdir))

/-- Whoever goes down along names comes to where they lead. -/
lemma eq_of_walk (h : t.walk place names = .ok q) : q = names.foldl down place := by
  induction names generalizing place with
  | nil =>
    cases h
    rfl
  | cons name rest ih => exact ih (walk_cons.1 h).2.2

/-- Nobody who goes down comes through a place that is no directory. -/
lemma walk_put (hplace : t.entry? place ≠ some .directory) {start : List String}
    (h : t.walk start names = .ok q) : (t.put place e).walk start names = .ok q := by
  induction names generalizing start with
  | nil => exact h
  | cons name rest ih =>
    obtain ⟨hdir, hshort, hrest⟩ := walk_cons.1 h
    have hne : place ≠ start := by
      rintro rfl
      exact hplace hdir
    exact walk_cons.2 ⟨(get_put_of_ne hne).trans hdir, hshort, ih hrest⟩

/-- A path that is located leads to its destination. -/
lemma eq_of_locateBare (h : t.locateBare dir path = .ok place) : place = destination dir path := by
  unfold locateBare at h
  rw [destination]
  split_ifs at h ⊢ <;> exact eq_of_walk h

/-- What is put where no directory is does not change where other paths lead. -/
lemma locateBare_put (hplace : t.entry? place ≠ some .directory)
    (h : t.locateBare dir path = .ok q) : (t.put place e).locateBare dir path = .ok q := by
  unfold locateBare at h ⊢
  split_ifs at h ⊢ <;> exact walk_put hplace h

/-! ### What changes -/

namespace KeepsBut

/-- A tree keeps itself. -/
lemma refl (places : List (List String)) (t : FileTree) : KeepsBut places t t := fun _ _ => rfl

/-- What is kept twice is kept. -/
lemma trans (h : KeepsBut places t t') (h' : KeepsBut places t' t'') : KeepsBut places t t'' := by
  intro q hq
  have hkept := h q hq
  rw [← hkept] at hq ⊢
  exact h' q hq

/-- A tree that keeps all but some places keeps all but more of them. -/
lemma mono (h : KeepsBut places t t') (hsub : places ⊆ more) : KeepsBut more t t' :=
  fun q hq => h q (hq.imp_left fun hnot hmem => hnot (hsub hmem))

/-- Something is put where no directory stands. -/
lemma put (hplace : t.entry? place ≠ some .directory) (e : FileEntry) :
    KeepsBut [place] t (t.put place e) := by
  intro q hq
  refine get_put_of_ne ?_
  rintro rfl
  exact hq.elim (fun hnot => hnot (List.mem_singleton_self _)) hplace

end KeepsBut

/-- Making a directory changes its place only. -/
lemma keepsBut_makeDir (h : t.makeDir dir path = .ok t') :
    KeepsBut [destination dir path] t t' := by
  unfold makeDir at h
  cases hplace : t.locateBare dir path with
  | error e => simp [hplace, bind, Except.bind] at h
  | ok place =>
    simp only [hplace, bind, Except.bind] at h
    split at h
    next => cases h
    next hnone =>
      cases h
      rw [← eq_of_locateBare hplace]
      exact .put (by simp [hnone]) _

/-- Writing a file changes its place only. -/
lemma keepsBut_write {append : Bool} (h : t.write dir path append bytes = .ok t') :
    KeepsBut [destination dir path] t t' := by
  unfold write at h
  cases hplace : t.locateBare dir path with
  | error e => simp [hplace, bind, Except.bind] at h
  | ok place =>
    rw [← eq_of_locateBare hplace]
    simp only [hplace, bind, Except.bind] at h
    split at h
    next => cases h
    split at h
    next => cases h
    next =>
      cases h
      exact .refl _ _
    next =>
      split_ifs at h
      cases h
      exact .refl _ _
    next hfile =>
      cases h
      exact .put (by simp [hfile]) _
    next hnone =>
      cases h
      exact .put (by simp [hnone]) _

/-- Making a directory, or staying where one is, changes its place only. -/
lemma keepsBut_makeDirOrStay (t : FileTree) (dir : List String) (path : String) :
    KeepsBut [destination dir path] t (t.makeDirOrStay dir path).1 := by
  unfold makeDirOrStay
  split
  next h => exact keepsBut_makeDir h
  next => exact .refl _ _

/-- Directories are made where the paths above lead to. -/
lemma keepsBut_tryMakeDirsLoop (t : FileTree) (dir : List String) (fuel : Nat) (path : String) :
    KeepsBut ((Path.upward fuel path).map (destination dir)) t
      (t.tryMakeDirsLoop dir fuel path).1 := by
  induction fuel generalizing path with
  | zero => exact .refl _ _
  | succ fuel ih =>
    have habove := ih ((Path.parent? path).getD "")
    rw [tryMakeDirsLoop, Path.upward]
    split_ifs with hempty
    · exact .refl _ _
    · have hself : ∀ t : FileTree, KeepsBut _ t (t.makeDirOrStay dir path).1 := fun t =>
        (keepsBut_makeDirOrStay t dir path).mono
          (List.cons_subset_cons (destination dir path) (List.nil_subset
            ((Path.upward fuel ((Path.parent? path).getD "")).map (destination dir))))
      have hlater := habove.mono (List.subset_cons_self (destination dir path) _)
      split
      next =>
        split
        next t₁ heq =>
          rw [heq] at hlater
          exact hlater.trans (hself t₁)
        next => exact hlater
      next => exact hself t

/-- **What saving a text changes**, whether it goes to its end or not: the places to which the path
and the paths above it lead, unless directories stand there. -/
theorem keepsBut_trySave (t : FileTree) (dir : List String) (path text : String) :
    KeepsBut (placesOf dir path) t (t.trySave dir path text).1 := by
  have habove := (keepsBut_tryMakeDirsLoop t dir (((Path.parent? path).getD "").length + 1)
    ((Path.parent? path).getD "")).mono (List.subset_cons_self (destination dir path) _)
  unfold trySave tryStore tryMakeDirs
  split
  next t₁ heq =>
    rw [heq] at habove
    refine KeepsBut.trans habove ?_
    cases hwrite : t₁.write dir path false (Utf8.encode text) with
    | error e => exact .refl _ _
    | ok t₂ =>
      exact (keepsBut_write hwrite).mono (List.cons_subset_cons _ (List.nil_subset _))
  next => exact habove

/-! ### What a file holds -/

/-- What is written to a path stands there, unless it leads to a device. -/
lemma find_of_write (h : t.write dir path false bytes = .ok t') (hbytes : bytes ≠ []) :
    t'.find dir path = .ok (destination dir path, .file bytes) ∨
      t'.find dir path = .ok (destination dir path, .nullDevice) := by
  unfold write at h
  cases hplace : t.locateBare dir path with
  | error e => simp [hplace, bind, Except.bind] at h
  | ok place =>
    obtain rfl := eq_of_locateBare hplace
    simp only [hplace, bind, Except.bind] at h
    split at h
    next => cases h
    next hslash =>
      have hfind : ∀ {t : FileTree} {e : FileEntry},
          t.locateBare dir path = .ok (destination dir path) →
          t.entry? (destination dir path) = some e →
          t.find dir path = .ok (destination dir path, e) := by
        intro t e hlocate hentry
        simp [find, locate, hlocate, hslash, hentry, bind, Except.bind]
      have hput : t.entry? (destination dir path) ≠ some .directory →
          (t.put (destination dir path) (.file bytes)).find dir path =
            .ok (destination dir path, .file bytes) := by
        intro hnot
        refine hfind (locateBare_put hnot hplace) (get_put_self ?_)
        intro hroot
        rw [hroot] at hnot
        exact hnot rfl
      split at h
      next => cases h
      next hnull =>
        cases h
        exact .inr (hfind hplace hnull)
      next =>
        split at h
        next hempty => exact absurd (List.isEmpty_iff.1 hempty) hbytes
        next => cases h
      next hfile =>
        cases h
        exact .inl (hput (by simp [hfile]))
      next hnone =>
        cases h
        exact .inl (hput (by simp [hnone]))

/-- **What stands at a path to which a text was saved**: a file with the bytes of the text, or the
device that swallows what is written. -/
theorem find_of_save (h : t.save dir path text = .ok t') (htext : Utf8.encode text ≠ []) :
    t'.find dir path = .ok (destination dir path, .file (Utf8.encode text)) ∨
      t'.find dir path = .ok (destination dir path, .nullDevice) := by
  unfold save trySave tryStore finished at h
  split at h
  next t₁ heq =>
    cases hwrite : t₁.write dir path false (Utf8.encode text) with
    | error e => simp [hwrite, whole, Except.map] at h
    | ok t₂ =>
      simp only [hwrite, whole, Except.map, Except.ok.injEq] at h
      exact find_of_write (h ▸ hwrite) htext
  next hfailed =>
    cases hr : (t.tryMakeDirs dir ((Path.parent? path).getD "")).2 with
    | error e => simp [hr, Except.map] at h
    | ok u => exact (hfailed _ (Prod.ext rfl hr)).elim

end FileTree

end Taskflow
