import Taskflow.Proofs.Files.Saving
set_option autoImplicit false

/-!
# Files that differ only where nobody looks

Two trees that hold the same but for some places. A text that is saved to such places in one of them
leaves them so; a text that is saved to the same path in both does, too, if the path keeps to these
places or away from them.

## Main definitions

* `FileTree.AlikeBut` — two trees that hold the same but for some places.
* `FileTree.Covers`, `FileTree.IsApart` — a path whose places are among the given ones, and one that
  does not even pass them.

## Main results

* `FileTree.AlikeBut.trySave`, `FileTree.AlikeBut.trySave_left` — saving a text in both trees, or in
  one of them.
-/

namespace Taskflow

namespace FileTree

/-- Two trees that hold the same but for the places that are `touched`; at the places that are
`standing` there is a directory in both. -/
structure AlikeBut (touched standing : List (List String)) (t t' : FileTree) : Prop where
  same : ∀ q, q ∉ touched → t'.entry? q = t.entry? q
  stands : ∀ q ∈ standing, t.entry? q = some .directory ∧ t'.entry? q = some .directory

/-- The places through which a path leads. -/
def wayOf (dir : List String) (path : String) : List (List String) :=
  (Path.names path).scanl down (if Path.isAbsolute path then [] else dir)

/-- Wherever the path and those above it lead to, the place is touched, or a directory stands there.
-/
def Covers (touched standing : List (List String)) (dir : List String) (path : String) : Prop :=
  ∀ q ∈ placesOf dir path, q ∈ touched ∨ q ∈ standing

/-- Neither the path nor one of those above it leads through a place that is touched. -/
def IsApart (touched : List (List String)) (dir : List String) (path : String) : Prop :=
  ∀ path' ∈ path :: Path.upward (((Path.parent? path).getD "").length + 1)
    ((Path.parent? path).getD ""), ∀ q ∈ wayOf dir path', q ∉ touched

variable {touched standing : List (List String)} {t t' : FileTree} {dir place : List String}
  {path : String} {names : List String}

/-! ### Going down the same way -/

/-- A walk goes on below a directory, and nowhere else. -/
lemma walk_eq (t : FileTree) (place : List String) (name : String) (names : List String) :
    t.walk place (name :: names) =
      match t.entry? place with
      | none => .error .notFound
      | some .directory =>
        if name.utf8ByteSize > 255 then .error .nameTooLong else t.walk (down place name) names
      | some _ => .error .notADirectory := by
  rw [walk, down]
  cases t.entry? place with
  | none => rfl
  | some e =>
    cases e with
    | directory =>
      simp only
      split_ifs <;> rfl
    | _ => rfl

/-- The end of a way lies on it. -/
lemma mem_scanl_last (names : List String) (place : List String) :
    names.foldl down place ∈ names.scanl down place := by
  induction names generalizing place with
  | nil => simp
  | cons name rest ih =>
    rw [List.foldl_cons, List.scanl_cons]
    exact List.mem_cons_of_mem _ (ih _)

/-- The place to which a path leads is the last one of its way. -/
lemma destination_mem_wayOf (dir : List String) (path : String) :
    destination dir path ∈ wayOf dir path := mem_scanl_last _ _

namespace AlikeBut

/-- Trees are alike both ways round. -/
lemma symm (h : AlikeBut touched standing t t') : AlikeBut touched standing t' t :=
  ⟨fun q hq => (h.same q hq).symm, fun q hq => (h.stands q hq).symm⟩

/-- A way that is not touched leads to the same end. -/
lemma walk_eq (h : AlikeBut touched standing t t')
    (hway : ∀ q ∈ names.scanl down place, q ∉ touched) :
    t'.walk place names = t.walk place names := by
  induction names generalizing place with
  | nil => rfl
  | cons name rest ih =>
    rw [List.scanl_cons] at hway
    rw [FileTree.walk_eq, FileTree.walk_eq, h.same place (hway _ List.mem_cons_self),
      ih fun q hq => hway q (List.mem_cons_of_mem _ hq)]

/-- A path whose way is not touched is located at the same place. -/
lemma locateBare_eq (h : AlikeBut touched standing t t')
    (hway : ∀ q ∈ wayOf dir path, q ∉ touched) :
    t'.locateBare dir path = t.locateBare dir path := by
  unfold locateBare
  split_ifs <;> first | rfl | exact h.walk_eq (by simpa [wayOf, *] using hway)

/-- What stands at the end of a way is the same in both. -/
lemma find_eq (h : AlikeBut touched standing t t') (hway : ∀ q ∈ wayOf dir path, q ∉ touched) :
    t'.find dir path = t.find dir path := by
  have hend := hway _ (destination_mem_wayOf dir path)
  unfold find locate
  rw [h.locateBare_eq hway]
  cases hplace : t.locateBare dir path with
  | error e => rfl
  | ok place =>
    obtain rfl := eq_of_locateBare hplace
    have hdot : t'.walk (destination dir path) ["."] = t.walk (destination dir path) ["."] := by
      refine h.walk_eq fun q hq => ?_
      simp only [List.scanl_cons, List.scanl_nil, List.mem_cons, List.not_mem_nil, or_false, down,
        if_true, or_self] at hq
      rwa [hq]
    simp only [bind, Except.bind, hdot]
    have hslash : ∀ {q : List String}, t.walk (destination dir path) ["."] = .ok q →
        q = destination dir path := fun hq => by simpa [down] using eq_of_walk hq
    split_ifs
    · cases hwalk : t.walk (destination dir path) ["."] with
      | error e => rfl
      | ok q =>
        obtain rfl := hslash hwalk
        simp only [h.same _ hend]
    · simp only [h.same _ hend]

/-- A path whose way is not touched is a directory in both, or in none. -/
lemma isDir_eq (h : AlikeBut touched standing t t') (hway : ∀ q ∈ wayOf dir path, q ∉ touched) :
    t'.isDir dir path = t.isDir dir path := by
  unfold isDir
  rw [h.find_eq hway]

/-- The same is put at the same place in both. -/
lemma put (h : AlikeBut touched standing t t') (hplace : t.entry? place ≠ some .directory)
    (e : FileEntry) : AlikeBut touched standing (t.put place e) (t'.put place e) := by
  refine ⟨fun q hq => ?_, fun q hq => ?_⟩
  · by_cases hq' : place = q
    · subst hq'
      by_cases hroot : place = []
      · rw [hroot]
        rfl
      · rw [get_put_self hroot, get_put_self hroot]
    · rw [get_put_of_ne hq', get_put_of_ne hq', h.same q hq]
  · have hne : place ≠ q := by
      rintro rfl
      exact hplace (h.stands _ hq).1
    rw [get_put_of_ne hne, get_put_of_ne hne]
    exact h.stands q hq

end AlikeBut

/-! ### Saving -/

/-- Two operations go on in the same way, and leave trees that are alike. -/
def GoAlike (touched standing : List (List String)) (r r' : FileTree × Except FileError Unit) :
    Prop :=
  AlikeBut touched standing r.1 r'.1 ∧ r.2 = r'.2

namespace AlikeBut

/-- A directory is made in both, or is in the way in both. -/
lemma makeDirOrStay (h : AlikeBut touched standing t t')
    (hway : ∀ q ∈ wayOf dir path, q ∉ touched) :
    GoAlike touched standing (t.makeDirOrStay dir path) (t'.makeDirOrStay dir path) := by
  have hend := hway _ (destination_mem_wayOf dir path)
  unfold FileTree.makeDirOrStay makeDir
  rw [h.locateBare_eq hway, h.isDir_eq hway]
  cases hplace : t.locateBare dir path with
  | error e => exact ⟨h, rfl⟩
  | ok place =>
    obtain rfl := eq_of_locateBare hplace
    simp only [bind, Except.bind, h.same _ hend]
    cases hentry : t.entry? (destination dir path) with
    | some e => exact ⟨h, rfl⟩
    | none => exact ⟨h.put (by simp [hentry]) _, rfl⟩

/-- A parent is missing in both, or in none. -/
lemma makeDir_isMissing (h : AlikeBut touched standing t t')
    (hway : ∀ q ∈ wayOf dir path, q ∉ touched) :
    t'.makeDir dir path = .error .notFound ↔ t.makeDir dir path = .error .notFound := by
  have hend := hway _ (destination_mem_wayOf dir path)
  unfold makeDir
  rw [h.locateBare_eq hway]
  cases hplace : t.locateBare dir path with
  | error e => exact Iff.rfl
  | ok place =>
    obtain rfl := eq_of_locateBare hplace
    simp only [bind, Except.bind, h.same _ hend]
    cases t.entry? (destination dir path) with
    | some e => exact Iff.rfl
    | none => simp

/-- Missing directories are made in both, if none of the paths leads through a place that is
touched. -/
lemma tryMakeDirsLoop (h : AlikeBut touched standing t t') {fuel : Nat}
    (hway : ∀ path' ∈ Path.upward fuel path, ∀ q ∈ wayOf dir path', q ∉ touched) :
    GoAlike touched standing (t.tryMakeDirsLoop dir fuel path)
      (t'.tryMakeDirsLoop dir fuel path) := by
  induction fuel generalizing path with
  | zero => exact ⟨h, rfl⟩
  | succ fuel ih =>
    rw [FileTree.tryMakeDirsLoop, FileTree.tryMakeDirsLoop]
    by_cases hempty : path = ""
    · rw [if_pos hempty, if_pos hempty]
      exact ⟨h, rfl⟩
    rw [if_neg hempty, if_neg hempty]
    rw [Path.upward, if_neg hempty] at hway
    have hself := hway path List.mem_cons_self
    have habove := ih fun path' hmem => hway path' (List.mem_cons_of_mem _ hmem)
    have hmissing := h.makeDir_isMissing hself
    generalize t.tryMakeDirsLoop dir fuel ((Path.parent? path).getD "") = r,
      t'.tryMakeDirsLoop dir fuel ((Path.parent? path).getD "") = r' at habove
    split
    next heq =>
      rw [hmissing.2 heq]
      obtain ⟨t₁, ending⟩ := r
      obtain ⟨t₁', ending'⟩ := r'
      obtain ⟨halike, rfl⟩ : AlikeBut touched standing t₁ t₁' ∧ ending = ending' := habove
      cases ending with
      | ok => exact halike.makeDirOrStay hself
      | error e => exact ⟨halike, rfl⟩
    next hother =>
      split
      next heq => exact absurd (hmissing.1 heq) hother
      next => exact h.makeDirOrStay hself

/-- Writing goes alike in both. -/
lemma write (h : AlikeBut touched standing t t') (hway : ∀ q ∈ wayOf dir path, q ∉ touched)
    (append : Bool) (bytes : List UInt8) :
    GoAlike touched standing (t.whole (t.write dir path append bytes))
      (t'.whole (t'.write dir path append bytes)) := by
  have hend := hway _ (destination_mem_wayOf dir path)
  unfold FileTree.write
  rw [h.locateBare_eq hway]
  cases hplace : t.locateBare dir path with
  | error e => exact ⟨h, rfl⟩
  | ok place =>
    obtain rfl := eq_of_locateBare hplace
    simp only [bind, Except.bind, h.same _ hend]
    by_cases hslash : Path.endsWithSlash path = true
    · rw [if_pos hslash, if_pos hslash]
      exact ⟨h, rfl⟩
    rw [if_neg hslash, if_neg hslash]
    cases hentry : t.entry? (destination dir path) with
    | none => exact ⟨h.put (by simp [hentry]) _, rfl⟩
    | some e =>
      cases e with
      | directory | nullDevice => exact ⟨h, rfl⟩
      | fullDevice => simp only; split_ifs <;> exact ⟨h, rfl⟩
      | file before => exact ⟨h.put (by simp [hentry]) _, rfl⟩

/-- **A text that is saved in both trees leaves them alike**, if the path keeps away from the places
that are touched. -/
theorem trySave (h : AlikeBut touched standing t t') (hapart : IsApart touched dir path)
    (text : String) :
    GoAlike touched standing (t.trySave dir path text) (t'.trySave dir path text) := by
  have hself := hapart path List.mem_cons_self
  have habove := h.tryMakeDirsLoop fun path' hmem => hapart path' (List.mem_cons_of_mem _ hmem)
  unfold FileTree.trySave tryStore tryMakeDirs
  generalize t.tryMakeDirsLoop dir (((Path.parent? path).getD "").length + 1)
      ((Path.parent? path).getD "") = r,
    t'.tryMakeDirsLoop dir (((Path.parent? path).getD "").length + 1)
      ((Path.parent? path).getD "") = r' at habove
  obtain ⟨t₁, ending⟩ := r
  obtain ⟨t₁', ending'⟩ := r'
  obtain ⟨halike, rfl⟩ : AlikeBut touched standing t₁ t₁' ∧ ending = ending' := habove
  cases ending with
  | ok => exact halike.write hself false _
  | error e => exact ⟨halike, rfl⟩

/-- **A text that is saved in one of the trees leaves them alike**, if the path leads nowhere but to
places that are touched or where directories stand. -/
theorem trySave_left (h : AlikeBut touched standing t t')
    (hcovers : Covers touched standing dir path) (text : String) :
    AlikeBut touched standing (t.trySave dir path text).1 t' := by
  have hkept := keepsBut_trySave t dir path text
  have hdir : ∀ q ∈ standing,
      FileTree.entry? (t.trySave dir path text).1 q = some .directory := by
    intro q hq
    rw [hkept q (.inr (h.stands q hq).1)]
    exact (h.stands q hq).1
  refine ⟨fun q hq => ?_, fun q hq => ⟨hdir q hq, (h.stands q hq).2⟩⟩
  by_cases hplace : q ∈ placesOf dir path
  · have hstanding := (hcovers q hplace).resolve_left hq
    rw [hdir q hstanding, (h.stands q hstanding).2]
  · rw [hkept q (.inl hplace), h.same q hq]

end AlikeBut

end FileTree

end Taskflow
