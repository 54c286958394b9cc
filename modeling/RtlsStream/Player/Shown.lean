/-
  Player/Shown.lean --- which positions the player shows.

  An observer keeps the part of the past that matters: the list loaded last, and whether
  the map was computed since the clock was last put to the start.  The map is then a
  function of that list and the clock (`shownMap`), and each tag shows the last of its
  points up to the clock.

  The scan of `computePositions` stops at the first point behind the clock; on sorted
  points that is the same as looking at all of them (`collect_sorted`).
-/
import RtlsStream.Player.Clock

set_option autoImplicit false

namespace RtlsStream.Player

open RtlsStream.Foundation RtlsStream.Python

variable {K : Type} [LinearOrder K]

/-! ## The scan -/

/-- On sorted points nothing is missed behind the place where the scan stops. -/
theorem collect_sorted {points : List (Position K)}
    (hsorted : points.Pairwise fun a b => a.tsUtcMs ≤ b.tsUtcMs) (atMs : K) (map : Positions K) :
    Hook.collect atMs map points = (points.filter (·.tsUtcMs ≤ atMs)).foldl .put map := by
  induction points generalizing map with
  | nil => rfl
  | cons p rest ih =>
    obtain ⟨hfirst, hrest⟩ := List.pairwise_cons.mp hsorted
    rw [Hook.collect]
    by_cases hp : atMs < p.tsUtcMs
    · have hnone : (p :: rest).filter (·.tsUtcMs ≤ atMs) = [] := by
        simp only [List.filter_eq_nil_iff, List.forall_mem_cons, decide_eq_true_eq, not_le]
        exact ⟨hp, fun q hq => hp.trans_le (hfirst q hq)⟩
      rw [if_pos hp, hnone, List.foldl_nil]
    · rw [if_neg hp, ih hrest, List.filter_cons_of_pos (by simpa using hp), List.foldl_cons]

/-- The map that belongs to a list of points and a clock. -/
def shownMap (points : List (Position K)) : Option K → Positions K
  | none => .empty
  | some now => Hook.computePositions points now

/-- The last point of a tag that is not behind the clock. -/
def lastShown (points : List (Position K)) (now : Option K) (tag : Str) : Option (Position K) :=
  now.bind fun now => (points.filter fun p => p.tagId = tag ∧ p.tsUtcMs ≤ now).getLast?

/-- Each tag shows the last of its points up to the clock. -/
theorem find?_shownMap {points : List (Position K)}
    (hsorted : points.Pairwise fun a b => a.tsUtcMs ≤ b.tsUtcMs) (now : Option K) (tag : Str) :
    (shownMap points now).find? tag = lastShown points now tag := by
  cases now with
  | none => rfl
  | some now =>
    rw [shownMap, Hook.computePositions, collect_sorted hsorted, Table.find?_foldl_put_getLast?,
      Table.find?_empty, Option.or_none, List.filter_filter]
    simp [lastShown]

/-! ## The observer -/

/-- What an observer keeps of the past. -/
structure Watched (K : Type) where
  /-- the list of the last `load`, empty after a `reset` -/
  loaded : List (Position K)
  /-- a `seek`, or a frame that was not the first after a `play`, since the clock was put
  to the start -/
  moved : Bool
  /-- no frame while playing since the last `play` -/
  fresh : Bool

def Watched.init : Watched K := ⟨[], false, false⟩

/-- What the observer of `h` makes of one more event. -/
def Watched.after (h : Hook K) (w : Watched K) : Event K → Watched K
  | .load points => { w with loaded := points, moved := false }
  | .play => { w with moved := w.moved && !decide h.AtEnd, fresh := true }
  | .pause => w
  | .seek _ => { w with moved := true }
  | .setSpeed _ => w
  | .reset => { w with loaded := [], moved := false }
  | .frame _ _ => if h.playing then { w with moved := w.moved || !w.fresh, fresh := false } else w

/-- A frame of a player that plays. -/
theorem Watched.after_frame {h : Hook K} (w : Watched K) {handle : Nat} {timestamp : K}
    (hplaying : h.playing = true) :
    w.after h (.frame handle timestamp) =
      { w with moved := w.moved || !w.fresh, fresh := false } :=
  if_pos hplaying

variable [Field K]

/-- One event, with the observer beside the hook. -/
def watchStep (s : Hook K × Watched K) (e : Event K) : Option (Hook K × Watched K) :=
  (step s.1 e).map fun h => (h, s.2.after s.1 e)

def watch (events : List (Event K)) : Option (Hook K × Watched K) :=
  events.foldlM watchStep (.init, .init)

/-- The observer does not disturb the hook. -/
theorem watch_of_run {events : List (Event K)} {h : Hook K} (hrun : run events = some h) :
    ∃ w, watch events = some (h, w) := by
  refine foldlM_induction (P := fun events h => ∃ w, watch events = some (h, w)) ⟨_, rfl⟩ ?_ hrun
  rintro events h e h' _ ⟨w, hw⟩ hstep
  exact ⟨w.after h e, foldlM_concat.mpr ⟨_, hw, by simp [watchStep, hstep]⟩⟩

theorem run_of_watch {events : List (Event K)} {h : Hook K} {w : Watched K}
    (hwatch : watch events = some (h, w)) : run events = some h := by
  refine foldlM_induction (P := fun events s => run events = some s.1) rfl ?_ hwatch
  rintro events ⟨h, w⟩ e ⟨h', w'⟩ _ hrun hstep
  simp only [watchStep, Option.map_eq_some_iff, Prod.mk.injEq] at hstep
  obtain ⟨h'', hstep, rfl, _⟩ := hstep
  exact foldlM_concat.mpr ⟨h, hrun, hstep⟩

/-! ## The map over every run -/

/-- The invariant of the hook and its observer. -/
structure Shows (h : Hook K) (w : Watched K) : Prop where
  points : h.sortedPointsRef = Hook.sortByTime w.loaded
  fresh : h.playing = true → (w.fresh = true ↔ h.lastFrameRef = none)
  shown : h.currentPositions =
    if w.moved then shownMap (Hook.sortByTime w.loaded) h.currentTimeMs else .empty

namespace Shows

variable {events : List (Event K)} {h : Hook K} {w : Watched K}

omit [Field K] in
/-- Without points nothing is shown, whatever the observer saw. -/
theorem shown_of_no_clock (hs : Shows h w) (hnow : h.currentTimeMs = none) :
    h.currentPositions = .empty := by
  rw [hs.shown, hnow]
  split <;> rfl

omit [Field K] in
theorem pause (hs : Shows h w) : Shows h.pause w := by
  have hfields : h.pause.sortedPointsRef = h.sortedPointsRef ∧ h.pause.playing = false ∧
      h.pause.currentTimeMs = h.currentTimeMs ∧
      h.pause.currentPositions = h.currentPositions := by
    cases hraf : h.rafRef <;> simp [Hook.pause, Hook.cancelFrame, Hook.setPlaying, hraf]
  obtain ⟨hpoints, hplaying, hnow, hpositions⟩ := hfields
  exact ⟨hpoints.trans hs.points, by simp [hplaying], by rw [hpositions, hnow, hs.shown]⟩

omit [Field K] in
theorem play (hk : Kept events h) (hs : Shows h w) : Shows h.play (w.after h .play) := by
  have hplayed := h.played
  generalize h.play = next at hplayed
  cases hplayed with
  | idle hrange =>
    have hoff : ¬h.AtEnd := by rintro ⟨range, hmem, _⟩; simp [hrange] at hmem
    have hplaying : ¬h.playing = true := fun hon =>
      hk.playing (hk.synced.playing.trans hon) (timeRange_eq_none.mp hrange)
    exact ⟨hs.points, fun hon => absurd hon hplaying, by simpa [Watched.after, hoff] using hs.shown⟩
  | rewinds range hrange hend =>
    exact ⟨hs.points, fun _ => by simp [Watched.after, Hook.requestFrame],
      by simp [Watched.after, hend, Hook.requestFrame, Hook.setPlaying]⟩
  | resumes range hrange hend =>
    exact ⟨hs.points, fun _ => by simp [Watched.after, Hook.requestFrame],
      by simpa [Watched.after, hend, Hook.requestFrame, Hook.setPlaying] using hs.shown⟩

theorem seek (hk : Kept events h) (hs : Shows h w) (p : K) :
    Shows (h.seek p) (w.after h (.seek p)) := by
  unfold Hook.seek
  split
  · rename_i hrange
    have hnow : h.currentTimeMs = none := by
      rw [← hk.synced.time]
      have hwithin := hk.within
      unfold Within at hwithin
      split at hwithin <;> simp_all
    exact ⟨hs.points, hs.fresh, by simp [Watched.after, hs.shown_of_no_clock hnow, hnow, shownMap]⟩
  · refine ⟨hs.points, hs.fresh, ?_⟩
    simp [Watched.after, Hook.showAt, Hook.setTime, shownMap, hs.points]

theorem frame (hk : Kept events h) (hs : Shows h w) (handle : Nat) (timestamp : K) :
    Shows (h.tick timestamp) (w.after h (.frame handle timestamp)) := by
  have hticked := h.ticked timestamp
  generalize h.tick timestamp = next at hticked
  cases hticked with
  | idle hidle =>
    have hplaying : h.playing = false := by
      rw [← hk.synced.playing]
      rcases hidle with hoff | hrange
      · exact hoff
      · exact Bool.eq_false_iff.mpr fun hon => hk.playing hon (timeRange_eq_none.mp hrange)
    simpa [Watched.after, hplaying] using hs
  | first range hplaying _ hfirst =>
    rw [hk.synced.playing] at hplaying
    have hfresh := (hs.fresh hplaying).mpr hfirst
    rw [w.after_frame hplaying]
    exact ⟨hs.points, fun _ => by simp [Hook.requestFrame],
      by simpa [hfresh, Hook.requestFrame] using hs.shown⟩
  | stops range lastFrame hplaying _ hlast _ =>
    rw [hk.synced.playing] at hplaying
    have hfresh : ¬w.fresh = true := by simp [hs.fresh hplaying, hlast]
    rw [w.after_frame hplaying]
    refine ⟨hs.points, ?_,
      by simp [hfresh, Hook.setPlaying, Hook.showAt, Hook.setTime, shownMap, hs.points]⟩
    intro hon
    cases hon
  | goesOn range lastFrame hplaying _ hlast _ =>
    rw [hk.synced.playing] at hplaying
    have hfresh : ¬w.fresh = true := by simp [hs.fresh hplaying, hlast]
    rw [w.after_frame hplaying]
    exact ⟨hs.points, fun _ => by simp [Hook.requestFrame],
      by simp [hfresh, Hook.requestFrame, Hook.showAt, Hook.setTime, shownMap, hs.points]⟩

/-- The step lemma. -/
theorem step (hk : Kept events h) (hs : Shows h w) {e : Event K} {h' : Hook K}
    (hstep : Player.step h e = some h') : Shows h' (w.after h e) := by
  cases e with
  | load points =>
    cases Option.some.inj hstep
    exact ⟨rfl, nofun, rfl⟩
  | play => exact Option.some.inj hstep ▸ hs.play hk
  | pause => exact Option.some.inj hstep ▸ hs.pause
  | seek p => exact Option.some.inj hstep ▸ hs.seek hk p
  | setSpeed s =>
    cases Option.some.inj hstep
    exact ⟨hs.points, hs.fresh, hs.shown⟩
  | reset =>
    cases Option.some.inj hstep
    exact ⟨rfl, hs.pause.fresh, rfl⟩
  | frame handle timestamp =>
    simp only [Player.step, Option.ite_none_right_eq_some, Option.some.injEq] at hstep
    have hs' : Shows { h with pending := h.pending.erase handle } w := ⟨hs.points, hs.fresh, hs.shown⟩
    exact hstep.2 ▸ hs'.frame (hk.of_pending _) handle timestamp

/-- The run lemma. -/
theorem run [IsStrictOrderedRing K] {events : List (Event K)} {h : Hook K} {w : Watched K}
    (hwatch : watch events = some (h, w)) (hordered : FramesOrdered events) : Shows h w := by
  refine foldlM_induction (P := fun events s => FramesOrdered events → Shows s.1 s.2) ?_ ?_
    hwatch hordered
  · intro _
    exact ⟨rfl, nofun, rfl⟩
  · rintro events ⟨h, w⟩ e ⟨h', w'⟩ hwatch ih hstep hordered
    simp only [watchStep, Option.map_eq_some_iff, Prod.mk.injEq] at hstep
    obtain ⟨h'', hstep, rfl, rfl⟩ := hstep
    have hprefix := hordered.of_append
    exact (ih hprefix).step (Kept.run (run_of_watch hwatch) hprefix) hstep

end Shows

variable [IsStrictOrderedRing K]

/-- Before the clock has moved the map is empty; afterwards every tag shows the last of its
points up to the clock, however the clock got there. -/
theorem shown_over_runs {events : List (Event K)} {h : Hook K} (hrun : run events = some h)
    (hordered : FramesOrdered events) :
    ∃ w, watch events = some (h, w) ∧
      (w.moved = false → h.currentPositions = .empty) ∧
      (w.moved = true → ∀ tag, h.currentPositions.find? tag =
        lastShown (Hook.sortByTime w.loaded) h.currentTimeMs tag) ∧
      ∀ events' h' w', watch events' = some (h', w') → FramesOrdered events' →
        w.moved = true → w'.moved = true → w'.loaded = w.loaded →
        h'.currentTimeMs = h.currentTimeMs → h'.currentPositions = h.currentPositions := by
  obtain ⟨w, hwatch⟩ := watch_of_run hrun
  have hs := Shows.run hwatch hordered
  refine ⟨w, hwatch, fun hmoved => ?_, fun hmoved tag => ?_, ?_⟩
  · simpa [hmoved] using hs.shown
  · have hshown := hs.shown
    rw [if_pos hmoved] at hshown
    rw [hshown, find?_shownMap (Hook.sortByTime_sorted w.loaded)]
  · intro events' h' w' hwatch' hordered' hmoved hmoved' hloaded hnow
    rw [hs.shown, (Shows.run hwatch' hordered').shown, if_pos hmoved, if_pos hmoved', hloaded, hnow]

section Examples

/-- Three points of two tags, two of them at one time, and one that is not reached yet. -/
def sampleSeek : List (Event ℚ) :=
  [.load [⟨[66], 5, []⟩, ⟨[65], 20, []⟩, ⟨[65], 5, []⟩, ⟨[66], 0, []⟩], .seek (1 / 2)]

theorem shown_over_runs_sample :
    ∃ h w, run sampleSeek = some h ∧ watch sampleSeek = some (h, w) ∧ w.moved = true ∧
      (∀ tag, h.currentPositions.find? tag =
        lastShown (Hook.sortByTime w.loaded) h.currentTimeMs tag) ∧
      (h.currentPositions.find? [65]).map (·.tsUtcMs) = some 5 ∧
      (h.currentPositions.find? [67]).map (·.tsUtcMs) = none := by
  obtain ⟨h, hrun⟩ := Option.isSome_iff_exists.mp
    (by decide +kernel : (run sampleSeek).isSome = true)
  have hfound : (run sampleSeek).map (fun h => (h.currentPositions.find? [65]).map (·.tsUtcMs)) =
      some (some 5) := by decide +kernel
  have hmissing : (run sampleSeek).map (fun h => (h.currentPositions.find? [67]).map (·.tsUtcMs)) =
      some none := by decide +kernel
  have hmoved : (watch sampleSeek).map (·.2.moved) = some true := by decide +kernel
  obtain ⟨w, hwatch, _, hshown, _⟩ := shown_over_runs hrun (by unfold FramesOrdered; decide +kernel)
  simp only [hrun, hwatch, Option.map_some, Option.some.injEq] at hfound hmissing hmoved
  exact ⟨h, w, hrun, hwatch, hmoved, hshown hmoved, hfound, hmissing⟩

end Examples

end RtlsStream.Player
