import Taskflow.Proofs.State.Publishing
set_option autoImplicit false

/-!
# What a subscriber sees

A coordinator publishes into its slot, and a subscriber looks into the slot whenever it comes to
it. It may miss snapshots, but what it shows comes in the order of the publications and none of them
is shown twice; and when the publishing side has gone away, the last snapshot has been shown and is
shown once more, for good.

## Main definitions

* `Pipeline` — a coordinator, its slot and a subscriber; `Pipeline.Move` is what can happen to them.
* `Pipeline.Follows` — what a subscriber has seen of what was published.
* `Pipeline.remaining` — how many steps a subscriber has to make once nothing changes any more.

## Main results

* `Pipeline.Follows.step` — the invariant of one move.
* `Pipeline.remaining_run_le` — a subscriber comes to its end.
* `Pipeline.shows_last` — what a subscriber has shown at any moment and in the end.

## Design

The count in the slot is the number of publications, so that the counts a subscriber has seen are
positions among the publications. All there is to say about a moment is how the count of the frame
that was shown last, the count that was seen last and the count in the slot are ordered, for each
place in the loop of the subscriber.
-/

namespace Taskflow

open Coordinator (Service queued sent Orderly serve_publishes serveAll_concat)

/-! ### What was shown -/

/-- The count under which the frame stood in the slot. -/
def Showing.version? : Showing → Option Nat
  | .frame version _ => some version
  | .final _ => none

namespace Viewer

/-- The counts of the frames that were shown, latest first. -/
def versions (v : Viewer) : List Nat := v.calls.filterMap Showing.version?

/-- Every frame has a count. -/
lemma frames_map_eq {v : Viewer} {f : Nat → Option SystemState}
    (h : ∀ n s, .frame n s ∈ v.calls → f n = some s) : v.frames.map some = v.versions.map f := by
  unfold frames versions
  generalize v.calls = calls at h ⊢
  induction calls with
  | nil => rfl
  | cons c rest ih =>
    have hrest := ih fun n s hmem => h n s (List.mem_cons_of_mem _ hmem)
    cases c with
    | frame n s =>
      change some s :: _ = f n :: _
      rw [hrest, h n s List.mem_cons_self]
    | final s => exact hrest

end Viewer

/-! ### Moves -/

/-- A coordinator, whether its side of the slot has gone away, and a subscriber. -/
structure Pipeline where
  coordinator : Coordinator
  isDropped : Bool := false
  viewer : Viewer := {}
  deriving Repr, DecidableEq

namespace Pipeline

/-- What can happen next. -/
inductive Move where
  /-- something happens to the coordinator -/
  | serve (s : Service)
  /-- a coordinator that is done goes away -/
  | drop
  /-- the subscriber makes a step -/
  | view
  deriving Repr, DecidableEq

/-- What happens to the coordinator. -/
def Move.service? : Move → Option Service
  | .serve s => some s
  | .drop | .view => none

/-- What happens to the coordinator, one after the other. -/
def services (moves : List Move) : List Service := moves.filterMap Move.service?

/-- The slot as the subscriber finds it. -/
def slot (p : Pipeline) : Slot := { p.coordinator.slot with isClosed := p.isDropped }

/-- The snapshots in the order in which they were published. -/
def snapshots (p : Pipeline) : List SystemState := p.coordinator.published.reverse.map (·.state)

/-- One move. -/
def step (p : Pipeline) : Move → Pipeline
  | .serve s => { p with coordinator := p.coordinator.serve s }
  | .drop => { p with isDropped := p.isDropped || p.coordinator.isDone }
  | .view => { p with viewer := p.viewer.step p.slot }

/-- One move after the other. -/
def run (p : Pipeline) (moves : List Move) : Pipeline := moves.foldl step p

/-- A new coordinator, and a subscriber to whom what is in the slot already is nothing new. -/
def subscribed (queue : List TaskEvent) (interval now : Nat) (slot : Slot) : Pipeline :=
  { coordinator := queued queue interval now slot, viewer := { seen := slot.version } }

/-- What was shown before anything was shown for good. -/
def NoFinal (calls : List Showing) : Prop := ∀ c ∈ calls, c.final? = none

/-- Where the count `shown` of the latest frame, the count that was seen last and the count in the
slot stand, for each place in the loop. -/
def Stands (p : Pipeline) (shown : Nat) : Prop :=
  match p.viewer.stage with
  | .waiting => NoFinal p.viewer.calls ∧ shown = p.viewer.seen
  | .notified => NoFinal p.viewer.calls ∧ shown < p.viewer.seen
  | .dismissed => NoFinal p.viewer.calls ∧ p.isDropped = true ∧
      shown = p.coordinator.slot.version
  | .done => p.isDropped = true ∧ shown = p.coordinator.slot.version ∧
      ∃ before, p.viewer.calls = .final p.coordinator.slot.state :: before ∧ NoFinal before

/-- What a subscriber has seen of what was published since there were `first` publications: each
frame is the publication that its count names, the counts rise, and none lies behind the slot. -/
structure Follows (first : Nat) (p : Pipeline) : Prop where
  version_eq : p.coordinator.slot.version = first + p.coordinator.published.length
  state_eq : ∀ last rest, p.coordinator.published = last :: rest →
    p.coordinator.slot.state = last.state
  of_isDropped : p.isDropped = true → p.coordinator.isDone = true
  seen_le : p.viewer.seen ≤ p.coordinator.slot.version
  frame_eq : ∀ n s, .frame n s ∈ p.viewer.calls → p.snapshots[n - (first + 1)]? = some s
  rising : (p.viewer.versions ++ [first]).Pairwise (· > ·)
  stands : p.Stands ((p.viewer.versions ++ [first]).head (by simp))

variable {p : Pipeline} {first : Nat}

/-- A new subscriber has seen nothing of what will be published. -/
lemma follows_subscribed (queue : List TaskEvent) (interval now : Nat) (slot : Slot) :
    Follows slot.version (subscribed queue interval now slot) where
  version_eq := rfl
  state_eq := fun _ _ h => nomatch h
  of_isDropped := fun h => nomatch h
  seen_le := Nat.le_refl _
  frame_eq := fun _ _ h => nomatch h
  rising := List.pairwise_singleton _ _
  stands := ⟨(fun _ h => nomatch h), rfl⟩

/-- A coordinator that is done stays done and publishes nothing. -/
lemma serve_eq_of_isDone {c : Coordinator} (hd : c.isDone = true) (s : Service) :
    (c.serve s).isDone = true ∧ (c.serve s).published = c.published ∧
      (c.serve s).slot = c.slot := by
  cases h : s.event? with
  | none =>
    obtain ⟨hdone, -, hpublished, hslot⟩ := Coordinator.serve_of_isDone hd h
    exact ⟨hdone, hpublished, hslot⟩
  | some e =>
    cases s with
    | send e => exact ⟨hd, rfl, rfl⟩
    | close | receive | tick => cases h

namespace Follows

/-- What happens to the coordinator: a snapshot more, and only before it has gone away. -/
lemma serve (h : Follows first p) (s : Service) : Follows first (p.step (.serve s)) := by
  have hdropped : p.isDropped = true → (p.coordinator.serve s).slot = p.coordinator.slot :=
    fun hd => (serve_eq_of_isDone (h.of_isDropped hd) s).2.2
  have hgrows : p.coordinator.slot.version ≤ (p.coordinator.serve s).slot.version := by
    rcases serve_publishes p.coordinator s with ⟨-, hslot⟩ | ⟨time, -, hslot⟩
    · exact hslot ▸ Nat.le_refl _
    · exact hslot ▸ Nat.le_succ _
  obtain ⟨more, hmore⟩ : p.snapshots <+: (p.step (.serve s)).snapshots := by
    refine List.IsPrefix.map _ (List.reverse_prefix.2 ?_)
    rcases serve_publishes p.coordinator s with ⟨hpublished, -⟩ | ⟨time, hpublished, -⟩
    · exact hpublished ▸ List.suffix_rfl
    · exact hpublished ▸ List.suffix_cons _ _
  refine
    { version_eq := ?_
      state_eq := ?_
      of_isDropped := fun hd => (serve_eq_of_isDone (h.of_isDropped hd) s).1
      seen_le := Nat.le_trans h.seen_le hgrows
      frame_eq := fun n state hmem => ?_
      rising := h.rising
      stands := ?_ }
  · change (p.coordinator.serve s).slot.version = first + (p.coordinator.serve s).published.length
    rcases serve_publishes p.coordinator s with ⟨hpublished, hslot⟩ | ⟨time, hpublished, hslot⟩
    · rw [hslot, hpublished, h.version_eq]
    · rw [hslot, hpublished, List.length_cons, ← Nat.add_assoc, ← h.version_eq]
      rfl
  · intro last rest hlast
    change (p.coordinator.serve s).published = last :: rest at hlast
    change (p.coordinator.serve s).slot.state = last.state
    rcases serve_publishes p.coordinator s with ⟨hpublished, hslot⟩ | ⟨time, hpublished, hslot⟩
    · rw [hslot]
      exact h.state_eq last rest (hpublished ▸ hlast)
    · rw [hpublished] at hlast
      rw [hslot, ← (List.cons.inj hlast).1]
      rfl
  · have hframe := h.frame_eq n state hmem
    rw [← hmore, List.getElem?_append_left (List.getElem?_eq_some_iff.1 hframe).1, hframe]
  · have hstands := h.stands
    unfold Stands at hstands ⊢
    cases hstage : p.viewer.stage <;> simp only [hstage, step] at hstands ⊢
    · exact hstands
    · exact hstands
    · rwa [hdropped hstands.2.1]
    · rwa [hdropped hstands.1]

/-- No frame is older than the subscription. -/
lemma first_le_head (h : Follows first p) :
    first ≤ (p.viewer.versions ++ [first]).head (by simp) := by
  have hrising := h.rising
  cases hversions : p.viewer.versions with
  | nil => exact Nat.le_refl _
  | cons n rest =>
    rw [hversions] at hrising
    exact Nat.le_of_lt ((List.pairwise_cons.1 hrising).1 first (by simp))

/-- The publication that is in the slot, if there was one. -/
lemma snapshots_getElem? (h : Follows first p) (hlt : first < p.coordinator.slot.version) :
    p.snapshots[p.coordinator.slot.version - (first + 1)]? =
      some p.coordinator.slot.state := by
  have hversion := h.version_eq
  cases hpublished : p.coordinator.published with
  | nil =>
    rw [hpublished] at hversion
    exact absurd hversion (Nat.ne_of_gt hlt)
  | cons last rest =>
    rw [hpublished, List.length_cons] at hversion
    have hindex :
        p.coordinator.slot.version - (first + 1) = (rest.map (·.state)).reverse.length := by
      rw [List.length_reverse, List.length_map]
      omega
    rw [snapshots, hpublished, List.map_reverse, List.map_cons, List.reverse_cons, hindex,
      List.getElem?_concat_length, h.state_eq last rest hpublished]

/-- The subscriber shows what is in the slot: it is newer than all that was shown. -/
lemma show_frame (h : Follows first p) (hstage : p.viewer.stage = .notified) :
    Follows first (p.step .view) := by
  have hstands := h.stands
  have hfirst := h.first_le_head
  have hrising := h.rising
  simp only [Stands, hstage] at hstands
  obtain ⟨hnone, hnew⟩ := hstands
  have hnewer := Nat.lt_of_lt_of_le hnew h.seen_le
  have hview : p.step .view = { p with viewer :=
      { seen := p.coordinator.slot.version, stage := .waiting,
        calls :=
          .frame p.coordinator.slot.version p.coordinator.slot.state :: p.viewer.calls } } := by
    rw [step, Viewer.step, hstage]
    rfl
  rw [hview]
  refine
    { version_eq := h.version_eq
      state_eq := h.state_eq
      of_isDropped := h.of_isDropped
      seen_le := Nat.le_refl _
      frame_eq := fun n s hmem => ?_
      rising := List.pairwise_cons.2 ⟨fun n hn => ?_, hrising⟩
      stands := ⟨fun c hc => ?_, rfl⟩ }
  · rcases List.mem_cons.1 hmem with heq | hmem
    · cases heq
      exact h.snapshots_getElem? (by omega)
    · exact h.frame_eq n s hmem
  · change n ∈ p.viewer.versions ++ [first] at hn
    cases hversions : p.viewer.versions ++ [first] with
    | nil => simp at hversions
    | cons m rest =>
      simp only [hversions, List.head_cons] at hn hnewer hrising
      rcases List.mem_cons.1 hn with rfl | hn
      · exact hnewer
      · exact Nat.lt_trans ((List.pairwise_cons.1 hrising).1 n hn) hnewer
  · rcases List.mem_cons.1 hc with rfl | hc
    · rfl
    · exact hnone c hc

/-- A step of the subscriber. -/
lemma view (h : Follows first p) : Follows first (p.step .view) := by
  cases hstage : p.viewer.stage with
  | notified => exact h.show_frame hstage
  | waiting =>
    have hstands := h.stands
    simp only [Stands, hstage] at hstands
    obtain ⟨hnone, hshown⟩ := hstands
    have hle := h.seen_le
    rw [step, Viewer.step, hstage]
    simp only
    split
    next hunseen =>
      have hlt : p.viewer.seen < p.coordinator.slot.version := Nat.lt_of_le_of_ne hle hunseen
      exact
        { h with
          seen_le := Nat.le_refl _
          stands := ⟨hnone, hshown ▸ hlt⟩ }
    next hseen =>
      split
      next hclosed =>
        have hversion : p.viewer.seen = p.coordinator.slot.version := not_not.1 hseen
        exact { h with stands := ⟨hnone, hclosed, hshown.trans hversion⟩ }
      next => exact h
  | dismissed =>
    have hstands := h.stands
    simp only [Stands, hstage] at hstands
    obtain ⟨hnone, hdropped, hshown⟩ := hstands
    rw [step, Viewer.step, hstage]
    refine
      { h with
        frame_eq := fun n s hmem => h.frame_eq n s ?_
        stands := ⟨hdropped, hshown, p.viewer.calls, rfl, hnone⟩ }
    exact (List.mem_cons.1 hmem).resolve_left (fun heq => nomatch heq)
  | done =>
    have hsame : p.step .view = p := by
      rw [step, Viewer.step, hstage]
    rwa [hsame]

/-- **The invariant of one move.** -/
lemma step (h : Follows first p) (move : Move) : Follows first (p.step move) := by
  cases move with
  | serve s => exact h.serve s
  | view => exact h.view
  | drop =>
    have hstands := h.stands
    refine { h with of_isDropped := fun hd => ?_, stands := ?_ }
    · exact (Bool.or_eq_true _ _ ▸ hd).elim h.of_isDropped id
    · unfold Stands at hstands ⊢
      cases hstage : p.viewer.stage <;> simp only [hstage, Pipeline.step] at hstands ⊢
      · exact hstands
      · exact hstands
      · simp [hstands]
      · simp [hstands]

/-- The invariant of a run. -/
lemma run (h : Follows first p) (moves : List Move) : Follows first (p.run moves) := by
  induction moves generalizing p with
  | nil => exact h
  | cons move rest ih => exact ih (h.step move)

end Follows

/-! ### The end -/

/-- How many steps the subscriber has to make once nothing changes any more. -/
def remaining (p : Pipeline) : Nat :=
  match p.viewer.stage with
  | .waiting => if p.viewer.seen = p.coordinator.slot.version then 2 else 4
  | .notified => 3
  | .dismissed => 1
  | .done => 0

/-- A viewer needs four steps at most. -/
lemma remaining_le (p : Pipeline) : p.remaining ≤ 4 := by
  unfold remaining
  split
  · split <;> decide
  all_goals decide

/-- A viewer that needs no step is done. -/
lemma remaining_eq_zero_iff : p.remaining = 0 ↔ p.viewer.stage = .done := by
  unfold remaining
  cases p.viewer.stage with
  | waiting => simp only; split <;> simp
  | _ => simp

/-- Once the publishing side has gone away, a step of the subscriber brings it nearer to its end,
and nothing else keeps it from there. -/
lemma remaining_step_le (hdropped : p.isDropped = true) (hdone : p.coordinator.isDone = true)
    (move : Move) : (p.step move).remaining ≤ p.remaining - [move].count .view := by
  cases move with
  | serve s =>
    have hslot := (serve_eq_of_isDone hdone s).2.2
    unfold remaining
    simp only [step, hslot]
    exact Nat.le_refl _
  | drop => exact Nat.le_refl _
  | view =>
    have hclosed : p.slot.isClosed = true := hdropped
    have hversion : p.slot.version = p.coordinator.slot.version := rfl
    unfold remaining
    simp only [step, Viewer.step, hclosed, hversion]
    cases hstage : p.viewer.stage with
    | waiting =>
      by_cases hseen : p.viewer.seen = p.coordinator.slot.version <;> simp [hseen]
    | _ => simp [hstage]

/-- **A subscriber comes to its end** with as many steps as remain. -/
lemma remaining_run_le (h : Follows first p) (hdropped : p.isDropped = true) (moves : List Move) :
    (p.run moves).remaining ≤ p.remaining - moves.count .view := by
  induction moves generalizing p with
  | nil => exact Nat.le_refl _
  | cons move rest ih =>
    have hstep := remaining_step_le hdropped (h.of_isDropped hdropped) move
    have hstill : (p.step move).isDropped = true := by
      cases move with
      | serve s => exact hdropped
      | drop => exact Bool.or_eq_true _ _ ▸ .inl hdropped
      | view => exact hdropped
    have hrest := ih (h.step move) hstill
    have hcount : (move :: rest).count .view = [move].count .view + rest.count .view :=
      @List.count_append _ _ _ [move] rest
    change ((p.step move).run rest).remaining ≤ _
    omega

/-- The coordinator does not notice its subscriber. -/
lemma coordinator_run (p : Pipeline) (moves : List Move) :
    (p.run moves).coordinator = p.coordinator.serveAll (services moves) := by
  induction moves generalizing p with
  | nil => rfl
  | cons move rest ih =>
    change ((p.step move).run rest).coordinator = _
    rw [ih]
    cases move <;> rfl

/-- More moves are made after the first ones. -/
lemma run_append (p : Pipeline) (moves more : List Move) :
    p.run (moves ++ more) = (p.run moves).run more := List.foldl_append

/-- The latest frame is the publication that its count names. -/
lemma Follows.head_frames (h : Follows first p) {n : Nat}
    (hn : p.viewer.versions.head? = some n) :
    p.viewer.frames.head? = p.snapshots[n - (first + 1)]? := by
  have hframes := congrArg List.head? (Viewer.frames_map_eq h.frame_eq)
  rw [List.head?_map, List.head?_map, hn, Option.map_some] at hframes
  obtain ⟨s, hs, heq⟩ := Option.map_eq_some_iff.1 hframes
  rw [hs, heq]

/-- The frames are publications in their order, none of them twice. -/
lemma Follows.exists_marks (h : Follows first p) :
    ∃ marks : List Nat, p.viewer.versions.reverse = marks.map (first + 1 + ·) ∧
      marks.Pairwise (· < ·) ∧ p.viewer.frames.reverse.map some = marks.map (p.snapshots[·]?) := by
  obtain ⟨hrising, -, habove⟩ := List.pairwise_append.1 h.rising
  have hfirst : ∀ n ∈ p.viewer.versions, first < n := fun n hn => habove n hn _ (by simp)
  refine ⟨p.viewer.versions.reverse.map (· - (first + 1)), ?_, ?_, ?_⟩
  · rw [List.map_map, eq_comm]
    refine (List.map_congr_left fun n hn => ?_).trans (List.map_id _)
    have hlt := hfirst n (List.mem_reverse.1 hn)
    simp only [Function.comp_apply, id]
    omega
  · rw [List.pairwise_map, List.pairwise_reverse]
    refine hrising.imp_of_mem fun {m n} hm hn hlt => ?_
    have hm := hfirst m hm
    have hn := hfirst n hn
    omega
  · rw [List.map_reverse, Viewer.frames_map_eq h.frame_eq, List.map_map, List.map_reverse]
    rfl

/-- Nothing is shown for good before the end. -/
lemma Follows.noFinal (h : Follows first p) (hstage : p.viewer.stage ≠ .done) :
    NoFinal p.viewer.calls := by
  have hstands := h.stands
  unfold Stands at hstands
  cases hcase : p.viewer.stage <;> simp only [hcase] at hstands
  · exact hstands.1
  · exact hstands.1
  · exact hstands.1
  · exact absurd hcase hstage

/-- At its end the subscriber has shown what is in the slot, if it was published. -/
lemma Follows.head_of_done (h : Follows first p) (hstage : p.viewer.stage = .done)
    (hnew : first < p.coordinator.slot.version) :
    p.viewer.versions.head? = some p.coordinator.slot.version ∧
      p.viewer.frames.head? = some p.coordinator.slot.state := by
  have hstands := h.stands
  simp only [Stands, hstage] at hstands
  have hhead : p.viewer.versions.head? = some p.coordinator.slot.version := by
    cases hversions : p.viewer.versions with
    | nil =>
      simp only [hversions] at hstands
      exact absurd hstands.2.1 (Nat.ne_of_lt hnew)
    | cons n rest =>
      simp only [hversions] at hstands
      exact congrArg some hstands.2.1
  exact ⟨hhead, (h.head_frames hhead).trans (h.snapshots_getElem? hnew)⟩

/-- **What a subscriber has shown, at any moment and in the end.** A new coordinator publishes into
a slot that may have been in use, and somebody subscribes before the first publication; and then
events are sent, the coordinator is served, goes away when it is done, and the subscriber makes its
steps, in any order. At any moment, what was shown are publications in the order in which they were
published, none of them twice, and nothing was shown for good unless the subscriber is at its end.
Then exactly one snapshot was shown for good, after all others: it is the last publication, the
state of the coordinator and the state after all events, and it was the last to be shown before.
Once the publishing side has gone away, four steps bring the subscriber to its end.

**Proof sketch.** `Follows` holds at first and is kept by every move. At its end the subscriber has
shown the publication that is in the slot, of a coordinator that is done; and a coordinator becomes
done with a publication. -/
theorem shows_last (queue : List TaskEvent) (interval now : Nat) (slot : Slot) (moves : List Move)
    (hs : Orderly (services moves)) :
    let p₀ := subscribed queue interval now slot
    let p := p₀.run moves
    (∃ marks : List Nat, p.viewer.versions.reverse = marks.map (slot.version + 1 + ·) ∧
      marks.Pairwise (· < ·) ∧
      p.viewer.frames.reverse.map some = marks.map (p.snapshots[·]?)) ∧
    (p.viewer.stage ≠ .done → NoFinal p.viewer.calls) ∧
    (p.viewer.stage = .done → ∃ last before, p.viewer.calls = .final last :: before ∧
      NoFinal before ∧ p.snapshots.getLast? = some last ∧ last = p.coordinator.state ∧
      last = SystemState.empty.fold (queue ++ sent (services moves)) ∧
      p.viewer.versions.head? = some (slot.version + p.snapshots.length) ∧
      p.viewer.frames.head? = some last) ∧
    ∀ before after, moves = before ++ after → (p₀.run before).isDropped = true →
      4 ≤ after.count .view → p.viewer.stage = .done := by
  intro p₀ p
  have h₀ : Follows slot.version p₀ := follows_subscribed queue interval now slot
  have h : Follows slot.version p := h₀.run moves
  have hcoordinator : p.coordinator = (queued queue interval now slot).serveAll (services moves) :=
    coordinator_run p₀ moves
  refine ⟨h.exists_marks, h.noFinal, fun hstage => ?_,
    fun before after hmoves hdropped hcount => ?_⟩
  · have hstands := h.stands
    simp only [Stands, hstage] at hstands
    obtain ⟨hdropped, -, before, hcalls, hbefore⟩ := hstands
    have hd := hcoordinator ▸ h.of_isDropped hdropped
    -- a coordinator becomes done with a publication of its state
    obtain ⟨_, time, _, -, -, -, -, hstate, hpublished, -⟩ :=
      Coordinator.last_of_isDone rfl rfl hs hd
    rw [← hstate, ← hcoordinator] at hpublished
    have hslot : p.coordinator.slot.state = p.coordinator.state := h.state_eq _ _ hpublished
    obtain ⟨_, _, hfolds⟩ := Coordinator.publishes_serveAll (.queued queue interval now slot) rfl hs
    have hfold := hfolds.tracks.state_eq_of_isDone hd
    rw [← hcoordinator] at hfold
    have hlength : p.coordinator.slot.version = slot.version + p.snapshots.length := by
      rw [h.version_eq, snapshots, List.length_map, List.length_reverse]
    have hlast : p.snapshots.getLast? = some p.coordinator.state := by
      rw [snapshots, hpublished, List.reverse_cons, List.map_append, List.map_singleton,
        List.getLast?_concat]
    have hnew : slot.version < p.coordinator.slot.version := by
      have hpos := List.length_pos_of_mem (List.mem_of_getLast? hlast)
      omega
    obtain ⟨hversion, hframe⟩ := h.head_of_done hstage hnew
    exact ⟨p.coordinator.state, before, by rw [hcalls, hslot], hbefore, hlast, rfl, hfold,
      by rw [hversion, hlength], by rw [hframe, hslot]⟩
  · subst hmoves
    have hrun : p = (p₀.run before).run after := run_append p₀ before after
    have hend := remaining_run_le (h₀.run before) hdropped after
    have hfour := remaining_le (p₀.run before)
    rw [← remaining_eq_zero_iff, hrun]
    omega

/-- The subscriber is told of the first publication, but comes to look after the second; and before
it makes another step, the coordinator has published its last snapshot and has gone away. -/
def lateMoves : List Move :=
  [.serve (.receive 0), .serve (.tick 0), .view, .serve (.send ⟨⟨"a"⟩, .started (.ofMillis 20)⟩),
    .serve (.receive 60), .view, .serve .close, .serve (.receive 110), .drop, .view, .view, .view,
    .view]

/-- Of three publications the second and the third are shown, and the third once more for good. -/
theorem late_subscriber :
    let queue : List TaskEvent := [⟨⟨"a"⟩, .registered "a"⟩, ⟨⟨"b"⟩, .registered "b"⟩]
    let p := (subscribed queue 50 0 { version := 7 }).run lateMoves
    Orderly (services lateMoves) ∧ p.snapshots.length = 3 ∧ p.viewer.versions = [10, 9] ∧
      ∃ last before, p.viewer.calls = .final last :: before ∧ NoFinal before ∧
        last = SystemState.empty.fold (queue ++ sent (services lateMoves)) ∧
        p.viewer.frames.head? = some last := by
  have hs : Orderly (services lateMoves) := by decide
  obtain ⟨-, -, hend, hdone⟩ :=
    shows_last [⟨⟨"a"⟩, .registered "a"⟩, ⟨⟨"b"⟩, .registered "b"⟩] 50 0 { version := 7 } lateMoves
      hs
  obtain ⟨last, before, hcalls, hbefore, -, -, hfold, -, hhead⟩ :=
    hend (hdone (lateMoves.take 9) (lateMoves.drop 9) rfl (by decide +kernel) (by decide))
  exact ⟨hs, by decide +kernel, by decide +kernel, last, before, hcalls, hbefore, hfold, hhead⟩

end Pipeline

end Taskflow
