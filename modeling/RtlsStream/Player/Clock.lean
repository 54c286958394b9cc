/-
  Player/Clock.lean --- the clock of the player.

  The callbacks keep the refs and the state of the component equal, the clock inside the
  loaded range, and the points sorted.  That a frame never sets the clock back rests on
  the frame before it: `lastFrameRef` is the time of a frame of the run, so with frames
  in order no frame is older.
-/
import RtlsStream.Foundation.Machine
import RtlsStream.Player.Hook
import Mathlib.Algebra.Order.Field.Rat
import Mathlib.Tactic.Positivity
import Mathlib.Tactic.Linarith

set_option autoImplicit false

namespace RtlsStream.Player

open RtlsStream.Foundation RtlsStream.Python

variable {K : Type} [LinearOrder K]

/-! ## What the operations keep -/

/-- The refs say what the state says. -/
structure Synced (h : Hook K) : Prop where
  points : h.sortedPointsRef = h.sortedPoints
  playing : h.playingRef = h.playing
  speed : h.speedRef = h.speed
  time : h.currentTimeMsRef = h.currentTimeMs

/-- The clock lies in the range of the points, and there is none without points. -/
def Within (points : List (Position K)) (now : Option K) : Prop :=
  match timeRange points, now with
  | none, none => True
  | some range, some now => range.start ≤ now ∧ now ≤ range.last
  | _, _ => False

/-- The invariant, for the hook after `events`. -/
structure Kept (events : List (Event K)) (h : Hook K) : Prop where
  synced : Synced h
  sorted : h.sortedPointsRef.Pairwise fun a b => a.tsUtcMs ≤ b.tsUtcMs
  within : Within h.sortedPointsRef h.currentTimeMsRef
  playing : h.playingRef = true → h.sortedPointsRef ≠ []
  lastFrame : ∀ timestamp ∈ h.lastFrameRef, timestamp ∈ events.filterMap Event.frameTime?

theorem within_of_range {points : List (Position K)} {range : TimeRange K} {now : K}
    (hrange : timeRange points = some range) :
    Within points (some now) ↔ range.start ≤ now ∧ now ≤ range.last := by
  simp [Within, hrange]

/-- A clock within points that have a range. -/
theorem Within.exists_now {points : List (Position K)} {now : Option K} {range : TimeRange K}
    (h : Within points now) (hrange : timeRange points = some range) :
    ∃ t, now = some t ∧ range.start ≤ t ∧ t ≤ range.last := by
  cases now with
  | none => simp [Within, hrange] at h
  | some t => exact ⟨t, rfl, (within_of_range hrange).mp h⟩

namespace Kept

variable {events : List (Event K)} {h : Hook K}

/-- One more event leaves the earlier frames where they are. -/
theorem mono (hk : Kept events h) (e : Event K) : Kept (events ++ [e]) h where
  synced := hk.synced
  sorted := hk.sorted
  within := hk.within
  playing := hk.playing
  lastFrame timestamp ht := by
    rw [List.filterMap_append]
    exact List.mem_append_left _ (hk.lastFrame timestamp ht)

theorem of_pending (hk : Kept events h) (pending : List Nat) :
    Kept events { h with pending := pending } :=
  ⟨⟨hk.synced.points, hk.synced.playing, hk.synced.speed, hk.synced.time⟩, hk.sorted, hk.within,
    hk.playing, hk.lastFrame⟩

theorem requestFrame (hk : Kept events h) : Kept events h.requestFrame :=
  ⟨⟨hk.synced.points, hk.synced.playing, hk.synced.speed, hk.synced.time⟩, hk.sorted, hk.within,
    hk.playing, hk.lastFrame⟩

theorem cancelFrame (hk : Kept events h) : Kept events h.cancelFrame := by
  unfold Hook.cancelFrame
  split
  · exact hk.of_pending _
  · exact hk

/-- Playback is switched off, or on with points to play. -/
theorem setPlaying (hk : Kept events h) (playing : Bool) (lastFrame : Option K)
    (hplaying : playing = true → h.sortedPointsRef ≠ [])
    (hframe : ∀ timestamp ∈ lastFrame, timestamp ∈ events.filterMap Event.frameTime?) :
    Kept events { h.setPlaying playing with lastFrameRef := lastFrame } :=
  ⟨⟨hk.synced.points, rfl, hk.synced.speed, hk.synced.time⟩, hk.sorted, hk.within, hplaying,
    hframe⟩

theorem setLastFrame (hk : Kept events h) (timestamp : K)
    (ht : timestamp ∈ events.filterMap Event.frameTime?) :
    Kept events { h with lastFrameRef := some timestamp } where
  synced := ⟨hk.synced.points, hk.synced.playing, hk.synced.speed, hk.synced.time⟩
  sorted := hk.sorted
  within := hk.within
  playing := hk.playing
  lastFrame t heq := by rwa [← Option.some.inj heq]

/-- The clock is set inside the range. -/
theorem setTime (hk : Kept events h) (now : Option K) (positions : Positions K)
    (hwithin : Within h.sortedPointsRef now) :
    Kept events { h.setTime now with currentPositions := positions } :=
  ⟨⟨hk.synced.points, hk.synced.playing, hk.synced.speed, rfl⟩, hk.sorted, hwithin, hk.playing,
    hk.lastFrame⟩

theorem pause (hk : Kept events h) : Kept events h.pause :=
  have hk := (hk.setPlaying false none nofun nofun).cancelFrame
  ⟨⟨hk.synced.points, hk.synced.playing, hk.synced.speed, hk.synced.time⟩, hk.sorted, hk.within,
    hk.playing, hk.lastFrame⟩

theorem setSpeed (hk : Kept events h) (s : PlaybackSpeed) : Kept events (h.setSpeed s) :=
  ⟨⟨hk.synced.points, hk.synced.playing, rfl, hk.synced.time⟩, hk.sorted, hk.within, hk.playing,
    hk.lastFrame⟩

/-- Sorted points fit a clock that stands at their first. -/
theorem load (hk : Kept events h) (points : List (Position K)) : Kept events (h.load points) where
  synced := ⟨rfl, rfl, hk.synced.speed, rfl⟩
  sorted := Hook.sortByTime_sorted points
  within := by
    have hsorted := Hook.sortByTime_sorted points
    cases hrange : timeRange (Hook.sortByTime points) with
    | none => simp [Hook.load, Hook.setPlaying, Hook.setTime, Hook.setPoints, hrange, Within]
    | some range =>
      have hle := Hook.start_le_last hsorted hrange
      simpa [Hook.load, Hook.setPlaying, Hook.setTime, Hook.setPoints, hrange, Within] using hle
  playing := nofun
  lastFrame := nofun

omit [LinearOrder K] in
theorem pause_playingRef (h : Hook K) : h.pause.playingRef = false := by
  cases hraf : h.rafRef <;> simp [Hook.pause, Hook.cancelFrame, Hook.setPlaying, hraf]

theorem reset (hk : Kept events h) : Kept events h.reset where
  synced := ⟨rfl, hk.pause.synced.playing, hk.pause.synced.speed, rfl⟩
  sorted := .nil
  within := trivial
  playing hplaying := absurd ((pause_playingRef h).symm.trans hplaying) nofun
  lastFrame := hk.pause.lastFrame

theorem play (hk : Kept events h) : Kept events h.play := by
  have hplayed := h.played
  generalize h.play = next at hplayed
  cases hplayed with
  | idle _ => exact hk
  | rewinds range hrange hend =>
    have hpoints : h.sortedPointsRef ≠ [] := by simp [← timeRange_eq_none, hrange]
    have hstart : Within h.sortedPointsRef (some range.start) :=
      (within_of_range hrange).mpr ⟨le_rfl, Hook.start_le_last hk.sorted hrange⟩
    exact ((hk.setTime _ .empty hstart).setPlaying true none (fun _ => hpoints) nofun).requestFrame
  | resumes range hrange hend =>
    have hpoints : h.sortedPointsRef ≠ [] := by simp [← timeRange_eq_none, hrange]
    exact (hk.setPlaying true none (fun _ => hpoints) nofun).requestFrame

/-- The time of a frame is not before that of the frame which set `lastFrameRef`. -/
theorem lastFrame_le (hk : Kept events h) {handle : Nat} {timestamp : K}
    (hordered : FramesOrdered (events ++ [.frame handle timestamp])) :
    ∀ t ∈ h.lastFrameRef, t ≤ timestamp := by
  intro t ht
  rw [FramesOrdered, List.filterMap_append, List.pairwise_append] at hordered
  exact hordered.2.2 t (hk.lastFrame t ht) timestamp (by simp [Event.frameTime?])

variable [Field K] [IsStrictOrderedRing K]

theorem seek (hk : Kept events h) (p : K) : Kept events (h.seek p) := by
  unfold Hook.seek
  split
  · exact hk
  · rename_i range hrange
    have hle := Hook.start_le_last hk.sorted hrange
    have hp : 0 ≤ max 0 (min 1 p) ∧ max 0 (min 1 p) ≤ 1 :=
      ⟨le_max_left _ _, max_le zero_le_one (min_le_left _ _)⟩
    refine hk.setTime _ _ ((within_of_range hrange).mpr ⟨?_, ?_⟩)
    · nlinarith [mul_nonneg (sub_nonneg.mpr hle) hp.1]
    · nlinarith [mul_le_of_le_one_right (sub_nonneg.mpr hle) hp.2]

/-- A frame sets the clock forward, and not beyond the end. -/
theorem nextTime_bounds (hk : Kept events h) {range : TimeRange K} {lastFrame timestamp now : K}
    (hrange : timeRange h.sortedPointsRef = some range) (hnow : h.currentTimeMsRef = some now)
    (hle : lastFrame ≤ timestamp) :
    now ≤ h.nextTime range lastFrame timestamp ∧
      h.nextTime range lastFrame timestamp ≤ range.last := by
  have hwithin := hk.within
  rw [hnow, within_of_range hrange] at hwithin
  have hspeed : 0 ≤ h.speedRef.factor (K := K) := by
    cases h.speedRef <;> exact Nat.cast_nonneg _
  simp only [Hook.nextTime, hnow, Option.getD_some]
  refine ⟨le_min ?_ hwithin.2, min_le_right _ _⟩
  linarith only [mul_nonneg (sub_nonneg.mpr hle) hspeed]

/-- A frame that is not older than the frames before it. -/
theorem tick (hk : Kept events h) {timestamp : K}
    (hmem : timestamp ∈ events.filterMap Event.frameTime?)
    (hle : ∀ t ∈ h.lastFrameRef, t ≤ timestamp) : Kept events (h.tick timestamp) := by
  have hticked := h.ticked timestamp
  generalize h.tick timestamp = next at hticked
  cases hticked with
  | idle _ => exact hk
  | first range _ _ _ => exact (hk.setLastFrame timestamp hmem).requestFrame
  | stops range lastFrame _ hrange hlast _ =>
    obtain ⟨now, hnow, hstart, _⟩ := hk.within.exists_now hrange
    have hnext := hk.nextTime_bounds hrange hnow (hle lastFrame hlast)
    have hwithin := (within_of_range hrange).mpr ⟨hstart.trans hnext.1, hnext.2⟩
    exact (hk.setTime _ _ hwithin).setPlaying false none nofun nofun
  | goesOn range lastFrame _ hrange hlast _ =>
    obtain ⟨now, hnow, hstart, _⟩ := hk.within.exists_now hrange
    have hnext := hk.nextTime_bounds hrange hnow (hle lastFrame hlast)
    have hwithin := (within_of_range hrange).mpr ⟨hstart.trans hnext.1, hnext.2⟩
    exact ((hk.setTime _ _ hwithin).setLastFrame timestamp hmem).requestFrame

/-- The step lemma. -/
theorem step (hk : Kept events h) {e : Event K} {h' : Hook K}
    (hordered : FramesOrdered (events ++ [e])) (hstep : Player.step h e = some h') :
    Kept (events ++ [e]) h' := by
  have hk' := hk.mono e
  cases e with
  | load points => exact Option.some.inj hstep ▸ hk'.load points
  | play => exact Option.some.inj hstep ▸ hk'.play
  | pause => exact Option.some.inj hstep ▸ hk'.pause
  | seek p => exact Option.some.inj hstep ▸ hk'.seek p
  | setSpeed s => exact Option.some.inj hstep ▸ hk'.setSpeed s
  | reset => exact Option.some.inj hstep ▸ hk'.reset
  | frame handle timestamp =>
    simp only [Player.step, Option.ite_none_right_eq_some, Option.some.injEq] at hstep
    have hmem : timestamp ∈
        (events ++ [Event.frame handle timestamp]).filterMap Event.frameTime? := by
      simp [Event.frameTime?]
    exact hstep.2 ▸ (hk'.of_pending _).tick hmem (hk.lastFrame_le hordered)

/-- The run lemma. -/
theorem run {events : List (Event K)} {h : Hook K} (hrun : Player.run events = some h)
    (hordered : FramesOrdered events) : Kept events h := by
  refine foldlM_induction (P := fun events h => FramesOrdered events → Kept events h)
    ?_ ?_ hrun hordered
  · intro _
    exact ⟨⟨rfl, rfl, rfl, rfl⟩, .nil, trivial, nofun, nofun⟩
  · intro events h e h' _ ih hstep hordered
    exact (ih hordered.of_append).step hordered hstep

end Kept

/-! ## The clock over every run -/

variable [Field K] [IsStrictOrderedRing K]

/-- `progress` is clamped. -/
theorem progress_bounds (h : Hook K) : 0 ≤ h.progress ∧ h.progress ≤ 1 := by
  unfold Hook.progress
  split
  · split
    · exact ⟨le_min zero_le_one (le_max_left _ _), min_le_left _ _⟩
    · exact ⟨le_rfl, zero_le_one⟩
  · exact ⟨le_rfl, zero_le_one⟩

/-- What a component that shows the player relies on. -/
structure Consistent (h : Hook K) : Prop where
  clock_null : h.currentTimeMs = none ↔ h.sortedPoints = []
  clock_within : ∀ range ∈ timeRange h.sortedPoints, ∀ now ∈ h.currentTimeMs,
    range.start ≤ now ∧ now ≤ range.last
  progress_within : 0 ≤ h.progress ∧ h.progress ≤ 1
  points_of_playing : h.playing = true → h.sortedPoints ≠ []
  synced : Synced h

theorem Kept.consistent {events : List (Event K)} {h : Hook K} (hk : Kept events h) :
    Consistent h := by
  have hwithin := hk.within
  rw [hk.synced.points, hk.synced.time] at hwithin
  refine ⟨?_, ?_, progress_bounds h, ?_, hk.synced⟩
  · rw [← timeRange_eq_none]
    unfold Within at hwithin
    split at hwithin <;> simp_all
  · intro range hrange now hnow
    rwa [hnow, within_of_range hrange] at hwithin
  · rw [← hk.synced.points, ← hk.synced.playing]
    exact hk.playing

/-- A frame does not set the clock back, and one that stops playback sets it to the end. -/
structure FrameForward (h h' : Hook K) : Prop where
  forward : ∀ now ∈ h.currentTimeMs, ∃ next ∈ h'.currentTimeMs, now ≤ next
  stops_at_last : h.playing = true → h'.playing = false →
    ∃ range ∈ timeRange h'.sortedPoints, h'.currentTimeMs = some range.last

theorem Kept.frameForward {events : List (Event K)} {h h' : Hook K} (hk : Kept events h)
    {handle : Nat} {timestamp : K} (hordered : FramesOrdered (events ++ [.frame handle timestamp]))
    (hstep : Player.step h (.frame handle timestamp) = some h') : FrameForward h h' := by
  have hle := hk.lastFrame_le hordered
  simp only [Player.step, Option.ite_none_right_eq_some, Option.some.injEq] at hstep
  obtain ⟨_, hstep⟩ := hstep
  have hticked := Hook.ticked timestamp { h with pending := h.pending.erase handle }
  rw [hstep] at hticked
  cases hticked with
  | idle _ => exact ⟨fun now hnow => ⟨now, hnow, le_rfl⟩, fun hon hoff => by simp_all⟩
  | first range _ _ _ =>
    exact ⟨fun now hnow => ⟨now, hnow, le_rfl⟩,
      fun hon hoff => by simp_all [Hook.requestFrame]⟩
  | stops range lastFrame _ hrange hlast hend =>
    refine ⟨fun now hnow => ⟨_, rfl, ?_⟩, fun _ _ => ⟨range, ?_, ?_⟩⟩
    · exact (hk.of_pending _).nextTime_bounds hrange (hk.synced.time.trans hnow)
        (hle lastFrame hlast) |>.1
    · exact hk.synced.points ▸ hrange
    · exact congrArg some (le_antisymm (min_le_right _ _) hend)
  | goesOn range lastFrame hplaying hrange hlast _ =>
    refine ⟨fun now hnow => ⟨_, rfl, ?_⟩, fun _ hoff => ?_⟩
    · exact (hk.of_pending _).nextTime_bounds hrange (hk.synced.time.trans hnow)
        (hle lastFrame hlast) |>.1
    · have hon := hk.synced.playing.symm.trans hplaying
      cases hon.symm.trans hoff

/-- In every run with its frames in order. -/
theorem clock_over_runs {events : List (Event K)} {h : Hook K} (hrun : run events = some h)
    (hordered : FramesOrdered events) :
    Consistent h ∧
      ∀ handle timestamp h', FramesOrdered (events ++ [.frame handle timestamp]) →
        step h (.frame handle timestamp) = some h' → FrameForward h h' := by
  have hk := Kept.run hrun hordered
  exact ⟨hk.consistent, fun _ _ _ hordered hstep => hk.frameForward hordered hstep⟩

section Examples

/-- Two tags, loaded out of order. -/
def samplePoints : List (Position ℚ) := [⟨[66], 20, []⟩, ⟨[65], 0, []⟩, ⟨[65], 10, []⟩]

/-- Eight time units at double speed, and a frame that is still to come. -/
def sampleRun : List (Event ℚ) :=
  [.load samplePoints, .setSpeed .x2, .play, .frame 0 100, .frame 1 104]

/-- That frame is late and ends the playback. -/
theorem clock_over_runs_sample :
    ∃ h h', run sampleRun = some h ∧ step h (.frame 2 110) = some h' ∧ Consistent h ∧
      FrameForward h h' ∧ h.currentTimeMs = some 8 ∧ h'.currentTimeMs = some 20 := by
  obtain ⟨h, hrun⟩ := Option.isSome_iff_exists.mp
    (by decide +kernel : (run sampleRun).isSome = true)
  have hstep : (run sampleRun).bind (step · (.frame 2 110)) ≠ none := by decide +kernel
  have hnow : (run sampleRun).bind (·.currentTimeMs) = some 8 := by decide +kernel
  have hlast : ((run sampleRun).bind (step · (.frame 2 110))).bind (·.currentTimeMs) = some 20 := by
    decide +kernel
  rw [hrun, Option.bind_some] at hstep hnow hlast
  obtain ⟨h', hstep⟩ := Option.ne_none_iff_exists'.mp hstep
  rw [hstep, Option.bind_some] at hlast
  have hover := clock_over_runs hrun (by unfold FramesOrdered; decide +kernel)
  exact ⟨h, h', hrun, hstep, hover.1,
    hover.2 2 110 h' (by unfold FramesOrdered; decide +kernel) hstep, hnow, hlast⟩

end Examples

end RtlsStream.Player
