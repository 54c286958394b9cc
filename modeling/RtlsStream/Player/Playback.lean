/-
  Player/Playback.lean --- the player keeps time.

  Between a `play` and the next thing the user does there are only frames and changes of
  the speed.  A stopwatch beside the player adds up the time between the frames, each at
  the speed of its moment; the clock is the place where playback began, moved by what the
  stopwatch shows and cut off at the last point.  The callbacks share `lastFrameRef`, so
  neither the number of frames nor the number of callbacks that are pending comes in.

  Times are elements of an ordered field, so the arithmetic is exact; in doubles the frames
  in between would show in the last digits.  A first frame only takes the time: until there
  is a second one, the player shows what it showed at the `play`.
-/
import RtlsStream.Player.Shown

set_option autoImplicit false

namespace RtlsStream.Player

open RtlsStream.Foundation RtlsStream.Python

variable {K : Type}

/-! ## The stopwatch -/

/-- A frame or a change of the speed. -/
def Event.passive : Event K → Bool
  | .setSpeed _ => true
  | .frame _ _ => true
  | _ => false

/-- What is known from the frames and the speeds alone. -/
structure Stopwatch (K : Type) where
  speed : PlaybackSpeed
  /-- the time of the last frame -/
  lastFrame : Option K
  /-- how many frames came after another -/
  intervals : Nat
  /-- the playback time between the first frame and the last -/
  passed : K

section Stopwatch

variable [Field K]

def Stopwatch.start (speed : PlaybackSpeed) : Stopwatch K := ⟨speed, none, 0, 0⟩

def Stopwatch.after (w : Stopwatch K) : Event K → Stopwatch K
  | .setSpeed s => { w with speed := s }
  | .frame _ timestamp =>
    match w.lastFrame with
    | none => { w with lastFrame := some timestamp }
    | some lastFrame =>
      { w with
        lastFrame := some timestamp
        intervals := w.intervals + 1
        passed := w.passed + (timestamp - lastFrame) * w.speed.factor }
  | _ => w

/-- The stopwatch after a list of events. -/
def Stopwatch.run (speed : PlaybackSpeed) (events : List (Event K)) : Stopwatch K :=
  events.foldl .after (.start speed)

theorem Stopwatch.run_concat (speed : PlaybackSpeed) (events : List (Event K)) (e : Event K) :
    Stopwatch.run speed (events ++ [e]) = (Stopwatch.run speed events).after e :=
  List.foldl_concat ..

namespace Stopwatch

variable {w : Stopwatch K} {handle : Nat} {timestamp lastFrame : K}

theorem after_first (h : w.lastFrame = none) :
    w.after (.frame handle timestamp) = { w with lastFrame := some timestamp } := by
  simp [after, h]

theorem after_next (h : w.lastFrame = some lastFrame) :
    w.after (.frame handle timestamp) =
      { w with
        lastFrame := some timestamp
        intervals := w.intervals + 1
        passed := w.passed + (timestamp - lastFrame) * w.speed.factor } := by
  simp [after, h]

/-- With one speed the sum telescopes: the frames in between do not matter. -/
theorem run_frames (speed : PlaybackSpeed) (first : Nat × K) (frames : List (Nat × K)) :
    Stopwatch.run speed ((first :: frames).map fun f => .frame f.1 f.2) =
      { speed := speed
        lastFrame := some (frames.getLastD first).2
        intervals := frames.length
        passed := ((frames.getLastD first).2 - first.2) * speed.factor } := by
  induction frames using List.reverseRecOn with
  | nil => simp [Stopwatch.run, start, after]
  | append_singleton frames f ih =>
    rw [← List.cons_append, List.map_append, List.map_singleton, run_concat, ih, after_next rfl]
    simp only [List.length_append, List.length_singleton, List.getLastD_concat,
      Stopwatch.mk.injEq, true_and]
    ring

/-- A later frame adds to what has passed. -/
theorem passed_le [LinearOrder K] [IsStrictOrderedRing K] (w : Stopwatch K)
    (hle : lastFrame ≤ timestamp) :
    w.passed ≤ w.passed + (timestamp - lastFrame) * w.speed.factor := by
  have hspeed : 0 ≤ w.speed.factor (K := K) := by
    cases w.speed <;> exact Nat.cast_nonneg _
  exact le_add_of_nonneg_right (mul_nonneg (sub_nonneg.mpr hle) hspeed)

/-- The last frame is one of the events. -/
theorem lastFrame_mem (speed : PlaybackSpeed) (events : List (Event K)) :
    ∀ t ∈ (Stopwatch.run speed events).lastFrame, t ∈ events.filterMap Event.frameTime? := by
  induction events using List.reverseRecOn with
  | nil => exact nofun
  | append_singleton events e ih =>
    intro t ht
    rw [run_concat] at ht
    rw [List.filterMap_append, List.mem_append]
    cases e with
    | frame handle timestamp =>
      right
      cases hlast : (Stopwatch.run speed events).lastFrame with
      | none =>
        rw [after_first hlast] at ht
        simpa [Event.frameTime?] using ht.symm
      | some lastFrame =>
        rw [after_next hlast] at ht
        simpa [Event.frameTime?] using ht.symm
    | _ => exact .inl (ih t ht)

end Stopwatch

end Stopwatch

/-! ## The player beside the stopwatch -/

variable [LinearOrder K] [Field K]

/-- Where `play` begins. -/
def Hook.playFrom (h : Hook K) (range : TimeRange K) : K :=
  if h.AtEnd then range.start else h.currentTimeMsRef.getD range.start

/-- What is shown until the clock moves. -/
def Hook.shownAtPlay (h : Hook K) : Positions K :=
  if h.AtEnd then .empty else h.currentPositions

/-- The invariant, with `start` for the player that was told to play. -/
structure InTime (start : Hook K) (range : TimeRange K) (h : Hook K) (w : Stopwatch K) :
    Prop where
  points : h.sortedPointsRef = start.sortedPointsRef
  speed : h.speedRef = w.speed
  passed_nonneg : 0 ≤ w.passed
  passed_zero : w.intervals = 0 → w.passed = 0
  goesOn : h.playingRef = true →
    h.lastFrameRef = w.lastFrame ∧
      h.currentTimeMsRef = some (start.playFrom range + w.passed) ∧
      (w.intervals = 0 ∨ start.playFrom range + w.passed < range.last)
  stopped : h.playingRef = false →
    w.lastFrame ≠ none ∧ 0 < w.intervals ∧ range.last ≤ start.playFrom range + w.passed ∧
      h.currentTimeMsRef = some range.last
  shown : h.currentPositions =
    if w.intervals = 0 then start.shownAtPlay
    else shownMap start.sortedPointsRef (some (min (start.playFrom range + w.passed) range.last))

namespace InTime

variable {start h : Hook K} {range : TimeRange K} {w : Stopwatch K}

/-- The clock, whether or not the player still plays. -/
theorem clock (hin : InTime start range h w) (hstart : start.playFrom range ≤ range.last) :
    h.currentTimeMsRef = some (min (start.playFrom range + w.passed) range.last) := by
  cases hplaying : h.playingRef with
  | false =>
    obtain ⟨_, _, hend, hnow⟩ := hin.stopped hplaying
    rw [hnow, min_eq_right hend]
  | true =>
    obtain ⟨_, hnow, hend⟩ := hin.goesOn hplaying
    rw [hnow, min_eq_left]
    rcases hend with hzero | hlt
    · simpa [hin.passed_zero hzero] using hstart
    · exact hlt.le

/-- The player stops with the frame that reaches the end. -/
theorem playing_iff (hin : InTime start range h w) :
    h.playingRef = true ↔ w.intervals = 0 ∨ start.playFrom range + w.passed < range.last := by
  constructor
  · exact fun hplaying => (hin.goesOn hplaying).2.2
  · intro hend
    by_contra hoff
    obtain ⟨_, hpos, hle, _⟩ := hin.stopped (by simpa using hoff)
    rcases hend with hzero | hlt
    · exact hpos.ne' hzero
    · exact hle.not_gt hlt

/-- After `play`, before any frame. -/
theorem play {events : List (Event K)} (hk : Kept events start)
    (hrange : timeRange start.sortedPointsRef = some range) :
    InTime start range start.play (.start start.speed) := by
  have hon : ∀ {p : Prop}, true = false → p := fun hoff => absurd hoff (by decide)
  have hplayed := start.played
  generalize start.play = next at hplayed
  cases hplayed with
  | idle hnone => simp [hrange] at hnone
  | rewinds range' hrange' hend =>
    obtain rfl : range' = range := by simpa [hrange'] using hrange
    exact ⟨rfl, hk.synced.speed, le_rfl, fun _ => rfl,
      fun _ => ⟨rfl, by simp [Hook.playFrom, hend, Hook.requestFrame, Hook.setPlaying,
        Hook.setTime, Stopwatch.start], .inl rfl⟩, hon,
      by simp [Hook.shownAtPlay, hend, Hook.requestFrame, Hook.setPlaying, Stopwatch.start]⟩
  | resumes range' hrange' hend =>
    obtain ⟨now, hnow, _⟩ := hk.within.exists_now hrange
    exact ⟨rfl, hk.synced.speed, le_rfl, fun _ => rfl,
      fun _ => ⟨rfl, by simp [Hook.playFrom, hend, hnow, Hook.requestFrame, Hook.setPlaying,
        Stopwatch.start], .inl rfl⟩, hon,
      by simp [Hook.shownAtPlay, hend, Hook.requestFrame, Hook.setPlaying, Stopwatch.start]⟩

/-- The pending callbacks do not come in. -/
theorem of_pending (hin : InTime start range h w) (pending : List Nat) :
    InTime start range { h with pending := pending } w :=
  ⟨hin.points, hin.speed, hin.passed_nonneg, hin.passed_zero, hin.goesOn, hin.stopped, hin.shown⟩

theorem setSpeed (hin : InTime start range h w) (s : PlaybackSpeed) :
    InTime start range (h.setSpeed s) (w.after (.setSpeed s)) :=
  ⟨hin.points, rfl, hin.passed_nonneg, hin.passed_zero, hin.goesOn, hin.stopped, hin.shown⟩

/-- A frame that follows another one moves the clock by what the stopwatch adds. -/
theorem nextTime_eq (hin : InTime start range h w) (hplaying : h.playingRef = true)
    (lastFrame timestamp : K) :
    h.nextTime range lastFrame timestamp =
      min (start.playFrom range + (w.passed + (timestamp - lastFrame) * w.speed.factor))
        range.last := by
  obtain ⟨_, hnow, _⟩ := hin.goesOn hplaying
  rw [Hook.nextTime, hnow, Option.getD_some, hin.speed, add_assoc]

variable [IsStrictOrderedRing K] {handle : Nat} {timestamp : K}

/-- A frame of a player that has stopped moves the stopwatch only. -/
theorem frame_stopped (hin : InTime start range h w) (hoff : h.playingRef = false)
    (hordered : ∀ t ∈ w.lastFrame, t ≤ timestamp) :
    InTime start range h (w.after (.frame handle timestamp)) := by
  obtain ⟨hframe, hpos, hend, hnow⟩ := hin.stopped hoff
  obtain ⟨lastFrame, hlast⟩ := Option.ne_none_iff_exists'.mp hframe
  have hle := w.passed_le (hordered lastFrame hlast)
  have hend' := hend.trans (add_le_add_right hle _)
  rw [Stopwatch.after_next hlast]
  refine ⟨hin.points, hin.speed, hin.passed_nonneg.trans hle, nofun, ?_, ?_, ?_⟩
  · exact fun hon => absurd (hoff.symm.trans hon) nofun
  · exact fun _ => ⟨nofun, Nat.succ_pos _, hend', hnow⟩
  · have hshown := hin.shown
    rw [if_neg hpos.ne', min_eq_right hend] at hshown
    rw [if_neg (Nat.succ_ne_zero _), min_eq_right hend', hshown]

theorem frame (hin : InTime start range h w)
    (hrange : timeRange start.sortedPointsRef = some range)
    (hordered : ∀ t ∈ w.lastFrame, t ≤ timestamp) :
    InTime start range (h.tick timestamp) (w.after (.frame handle timestamp)) := by
  have hrange' : timeRange h.sortedPointsRef = some range := hin.points ▸ hrange
  have hticked := h.ticked timestamp
  generalize h.tick timestamp = next at hticked
  cases hticked with
  | idle hidle =>
    refine hin.frame_stopped ?_ hordered
    rcases hidle with hoff | hnone
    · exact hoff
    · simp [hrange'] at hnone
  | first _ hplaying _ hfirst =>
    obtain ⟨hframe, hnow, hend⟩ := hin.goesOn hplaying
    rw [Stopwatch.after_first (hframe ▸ hfirst)]
    exact ⟨hin.points, hin.speed, hin.passed_nonneg, hin.passed_zero,
      fun _ => ⟨rfl, hnow, hend⟩, fun hoff => absurd (hplaying.symm.trans hoff) nofun, hin.shown⟩
  | stops range' lastFrame hplaying hsome hlast hend =>
    obtain rfl : range' = range := by simpa [hsome] using hrange'
    have hframe := (hin.goesOn hplaying).1.symm.trans hlast
    have hle := w.passed_le (hordered lastFrame hframe)
    have hnext := hin.nextTime_eq hplaying lastFrame timestamp
    rw [Stopwatch.after_next hframe]
    rw [hnext, le_min_iff] at hend
    refine ⟨hin.points, hin.speed, hin.passed_nonneg.trans hle, nofun, nofun, fun _ => ?_, ?_⟩
    · refine ⟨nofun, Nat.succ_pos _, hend.1, ?_⟩
      exact congrArg some (hnext.trans (min_eq_right hend.1))
    · rw [if_neg (Nat.succ_ne_zero _), ← hnext, ← hin.points]
      rfl
  | goesOn range' lastFrame hplaying hsome hlast hend =>
    obtain rfl : range' = range := by simpa [hsome] using hrange'
    have hframe := (hin.goesOn hplaying).1.symm.trans hlast
    have hle := w.passed_le (hordered lastFrame hframe)
    have hnext := hin.nextTime_eq hplaying lastFrame timestamp
    rw [Stopwatch.after_next hframe]
    rw [hnext, le_min_iff, not_and_or, or_iff_left (not_not.mpr le_rfl), not_le] at hend
    refine ⟨hin.points, hin.speed, hin.passed_nonneg.trans hle, nofun, fun _ => ?_, ?_, ?_⟩
    · exact ⟨rfl, congrArg some (hnext.trans (min_eq_left hend.le)), .inr hend⟩
    · exact fun hoff => absurd (hplaying.symm.trans hoff) nofun
    · rw [if_neg (Nat.succ_ne_zero _), ← hnext, ← hin.points]
      rfl

/-- The run lemma. -/
theorem run {before after : List (Event K)} (hrun : Player.run before = some start)
    (hrange : timeRange start.sortedPointsRef = some range)
    (hpassive : ∀ e ∈ after, e.passive = true)
    (hordered : FramesOrdered (before ++ .play :: after))
    (hafter : after.foldlM Player.step start.play = some h) :
    InTime start range h (.run start.speed after) := by
  refine foldlM_induction
    (P := fun after h => (∀ e ∈ after, e.passive = true) →
      FramesOrdered (before ++ .play :: after) → InTime start range h (.run start.speed after))
    ?_ ?_ hafter hpassive hordered
  · intro _ hordered
    exact .play (Kept.run hrun hordered.of_append) hrange
  · intro after h e h' _ ih hstep hpassive hordered
    rw [← List.cons_append, ← List.append_assoc] at hordered
    have hin := ih (fun e he => hpassive e (List.mem_append_left _ he)) hordered.of_append
    have he := hpassive e (by simp)
    rw [Stopwatch.run_concat]
    cases e with
    | setSpeed s => exact Option.some.inj hstep ▸ hin.setSpeed s
    | frame handle timestamp =>
      simp only [Player.step, Option.ite_none_right_eq_some, Option.some.injEq] at hstep
      refine hstep.2 ▸ (hin.of_pending _).frame hrange fun t ht => ?_
      rw [FramesOrdered, List.filterMap_append, List.pairwise_append] at hordered
      refine hordered.2.2 t ?_ timestamp (by simp [Event.frameTime?])
      rw [List.filterMap_append, List.mem_append]
      exact .inr (Stopwatch.lastFrame_mem _ after t ht)
    | _ => cases he

end InTime

variable [IsStrictOrderedRing K]

/-- From a `play` on the clock is where playback began, moved by the stopwatch and cut off
at the end; with one speed the first and the last frame decide. -/
theorem playback_keeps_time {before after : List (Event K)} {h h' : Hook K} {range : TimeRange K}
    (hrun : run before = some h) (hrange : timeRange h.sortedPoints = some range)
    (hpassive : ∀ e ∈ after, e.passive = true)
    (hordered : FramesOrdered (before ++ .play :: after))
    (hafter : run (before ++ .play :: after) = some h') :
    let w := Stopwatch.run h.speed after
    h'.currentTimeMs = some (min (h.playFrom range + w.passed) range.last) ∧
      (h'.playing = true ↔ w.intervals = 0 ∨ h.playFrom range + w.passed < range.last) ∧
      (w.intervals = 0 → h'.currentPositions = h.shownAtPlay) ∧
      (0 < w.intervals → ∀ tag, h'.currentPositions.find? tag =
        lastShown h.sortedPoints h'.currentTimeMs tag) ∧
      ∀ (first : Nat × K) frames, after = (first :: frames).map (fun f => .frame f.1 f.2) →
        w.intervals = frames.length ∧
          w.passed = ((frames.getLastD first).2 - first.2) * h.speed.factor := by
  intro w
  have hk := Kept.run hrun hordered.of_append
  have hk' := Kept.run hafter hordered
  rw [← hk.synced.points] at hrange ⊢
  have hfold : after.foldlM step h.play = some h' := by
    rw [run, List.foldlM_append] at hafter
    obtain ⟨h₁, hbefore, hrest⟩ := Option.bind_eq_some_iff.mp hafter
    obtain rfl : h = h₁ := Option.some.inj (hrun.symm.trans hbefore)
    exact hrest
  have hin := InTime.run hrun hrange hpassive hordered hfold
  have hstart : h.playFrom range ≤ range.last := by
    obtain ⟨now, hnow, _, hle⟩ := hk.within.exists_now hrange
    unfold Hook.playFrom
    split
    · exact Hook.start_le_last hk.sorted hrange
    · simpa [hnow] using hle
  have hclock := hin.clock hstart
  rw [hk'.synced.time] at hclock
  refine ⟨hclock, ?_, fun hzero => ?_, fun hpos tag => ?_, ?_⟩
  · rw [← hk'.synced.playing]
    exact hin.playing_iff
  · simpa [w, hzero] using hin.shown
  · rw [hin.shown, if_neg hpos.ne', ← hclock, find?_shownMap hk.sorted]
  · rintro first frames rfl
    exact ⟨congrArg Stopwatch.intervals (Stopwatch.run_frames h.speed first frames),
      congrArg Stopwatch.passed (Stopwatch.run_frames h.speed first frames)⟩

section Examples

/-- Two times four units at double speed, and then one at four times the speed. -/
theorem playback_keeps_time_faster :
    ∃ h h', run [.load samplePoints, .setSpeed .x2] = some h ∧
      run ([.load samplePoints, .setSpeed .x2] ++ .play ::
        [.frame 0 100, .frame 1 104, .setSpeed .x4, .frame 2 105]) = some h' ∧
      h'.currentTimeMs = some 12 ∧ h'.playing = true ∧
      ∀ tag, h'.currentPositions.find? tag = lastShown h.sortedPoints h'.currentTimeMs tag := by
  obtain ⟨h, hrun⟩ := Option.isSome_iff_exists.mp
    (by decide +kernel : (run [.load samplePoints, .setSpeed .x2]).isSome = true)
  obtain ⟨h', hafter⟩ := Option.isSome_iff_exists.mp
    (by decide +kernel : (run ([.load samplePoints, .setSpeed .x2] ++ .play ::
      [.frame 0 100, .frame 1 104, .setSpeed .x4, .frame 2 105])).isSome = true)
  have hspeed : (run [.load samplePoints, .setSpeed .x2]).map (·.speed) = some .x2 := by
    decide +kernel
  have hends : (run [.load samplePoints, .setSpeed .x2]).bind (fun h =>
      (timeRange h.sortedPoints).map fun r => (r.start, r.last, h.playFrom r)) =
        some (0, 20, 0) := by
    decide +kernel
  rw [hrun, Option.map_some, Option.some.injEq] at hspeed
  rw [hrun, Option.bind_some, Option.map_eq_some_iff] at hends
  obtain ⟨range, hrange, hends⟩ := hends
  obtain ⟨hclock, hplaying, _, hshown, _⟩ := playback_keeps_time hrun hrange
    (by decide) (by unfold FramesOrdered; decide +kernel) hafter
  simp only [Prod.mk.injEq] at hends
  rw [hends.2.2, hends.2.1, hspeed] at hclock hplaying
  rw [hspeed] at hshown
  refine ⟨h, h', hrun, hafter, hclock.trans ?_, hplaying.mpr ?_, hshown ?_⟩
  · decide +kernel
  · decide +kernel
  · decide +kernel

end Examples

end RtlsStream.Player
