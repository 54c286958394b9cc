/-
  Player/Hook.lean --- `useHistoryPlayer`.

  The hook plays a list of positions back.  Its callbacks read refs only, and mirror them
  in React state for the component; an animation frame runs `tick`, which asks for the
  next one.  Times are elements of an ordered field, so the arithmetic is exact.

  The browser keeps the callbacks that were asked for until it runs or cancels them; a
  frame may run any of them.  The hook remembers the handle of the latest.
-/
import RtlsStream.Foundation.Table
import RtlsStream.Python.Json
import Mathlib.Algebra.Order.Field.Basic
import Mathlib.Data.List.Sort

set_option autoImplicit false

namespace RtlsStream.Player

open RtlsStream.Foundation RtlsStream.Python

/-- A `Position`; the player passes on what it does not read. -/
structure Position (K : Type) where
  tagId : Str
  tsUtcMs : K
  others : Dict Json

/-- `PlaybackSpeed` -/
inductive PlaybackSpeed where
  | x1
  | x2
  | x4
  | x8
  deriving DecidableEq

namespace PlaybackSpeed

def factor {K : Type} [NatCast K] : PlaybackSpeed → K
  | .x1 => (1 : Nat)
  | .x2 => (2 : Nat)
  | .x4 => (4 : Nat)
  | .x8 => (8 : Nat)

end PlaybackSpeed

/-- The map of the positions shown, one for each tag. -/
abbrev Positions (K : Type) : Type := Table (Position.tagId (K := K))

/-- The first and the last timestamp of sorted points. -/
structure TimeRange (K : Type) where
  start : K
  last : K

/-- The state of the hook, its refs and the callbacks it has asked for. -/
structure Hook (K : Type) where
  sortedPoints : List (Position K)
  playing : Bool
  speed : PlaybackSpeed
  currentTimeMs : Option K
  currentPositions : Positions K
  playingRef : Bool
  speedRef : PlaybackSpeed
  lastFrameRef : Option K
  currentTimeMsRef : Option K
  sortedPointsRef : List (Position K)
  rafRef : Option Nat
  /-- handles of the callbacks that have not run and are not cancelled -/
  pending : List Nat
  /-- the next handle of `requestAnimationFrame` -/
  handles : Nat

variable {K : Type}

/-- `timeRange` of a list of sorted points -/
def timeRange : List (Position K) → Option (TimeRange K)
  | [] => none
  | first :: rest => some ⟨first.tsUtcMs, ((first :: rest).getLast (by simp)).tsUtcMs⟩

@[simp] theorem timeRange_eq_none {points : List (Position K)} :
    timeRange points = none ↔ points = [] := by
  cases points <;> simp [timeRange]

namespace Hook

/-- Before anything was loaded. -/
def init : Hook K where
  sortedPoints := []
  playing := false
  speed := .x1
  currentTimeMs := none
  currentPositions := .empty
  playingRef := false
  speedRef := .x1
  lastFrameRef := none
  currentTimeMsRef := none
  sortedPointsRef := []
  rafRef := none
  pending := []
  handles := 0

/-- `setSortedPoints` and its ref -/
def setPoints (h : Hook K) (points : List (Position K)) : Hook K :=
  { h with sortedPointsRef := points, sortedPoints := points }

/-- `setPlaying` and its ref -/
def setPlaying (h : Hook K) (playing : Bool) : Hook K :=
  { h with playingRef := playing, playing := playing }

/-- `setCurrentTimeMs` and its ref -/
def setTime (h : Hook K) (now : Option K) : Hook K :=
  { h with currentTimeMsRef := now, currentTimeMs := now }

/-- `rafRef.current = requestAnimationFrame(tick)` -/
def requestFrame (h : Hook K) : Hook K :=
  { h with
    rafRef := some h.handles
    pending := h.pending ++ [h.handles]
    handles := h.handles + 1 }

/-- `cancelAnimationFrame(rafRef.current)`, unless that is `null` -/
def cancelFrame (h : Hook K) : Hook K :=
  match h.rafRef with
  | some handle => { h with pending := h.pending.filter (· ≠ handle) }
  | none => h

variable [Field K] [LinearOrder K]

/-- `progress` -/
def progress (h : Hook K) : K :=
  match timeRange h.sortedPoints, h.currentTimeMs with
  | some range, some now =>
    if 0 < range.last - range.start then
      min 1 (max 0 ((now - range.start) / (range.last - range.start)))
    else 0
  | _, _ => 0

/-- The loop of `computePositions`, which stops at the first point behind `atMs`. -/
def collect (atMs : K) : Positions K → List (Position K) → Positions K
  | map, [] => map
  | map, p :: rest => if atMs < p.tsUtcMs then map else collect atMs (map.put p) rest

/-- `computePositions` -/
def computePositions (points : List (Position K)) (atMs : K) : Positions K :=
  collect atMs .empty points

/-- Move the clock and show what belongs to it. -/
def showAt (h : Hook K) (now : K) : Hook K :=
  { h.setTime (some now) with currentPositions := computePositions h.sortedPointsRef now }

/-- Where a frame moves the clock to. -/
def nextTime (h : Hook K) (range : TimeRange K) (lastFrame timestamp : K) : K :=
  let prev := h.currentTimeMsRef.getD range.start
  min (prev + (timestamp - lastFrame) * h.speedRef.factor) range.last

/-- `tick` -/
def tick (timestamp : K) (h : Hook K) : Hook K :=
  if h.playingRef then
    match timeRange h.sortedPointsRef with
    | none => h
    | some range =>
      match h.lastFrameRef with
      | none => { h with lastFrameRef := some timestamp }.requestFrame
      | some lastFrame =>
        let next := h.nextTime range lastFrame timestamp
        if range.last ≤ next then
          { (h.showAt next).setPlaying false with lastFrameRef := none }
        else { h.showAt next with lastFrameRef := some timestamp }.requestFrame
  else h

/-- The clock has come to the end. -/
def AtEnd (h : Hook K) : Prop :=
  ∃ range ∈ timeRange h.sortedPointsRef, ∃ now ∈ h.currentTimeMsRef, range.last ≤ now

instance (h : Hook K) : Decidable h.AtEnd := by
  unfold AtEnd
  infer_instance

/-- `play` -/
def play (h : Hook K) : Hook K :=
  match timeRange h.sortedPointsRef with
  | none => h
  | some range =>
    let h := if h.AtEnd then { h.setTime (some range.start) with currentPositions := .empty } else h
    { h.setPlaying true with lastFrameRef := none }.requestFrame

omit [Field K] [LinearOrder K] in
/-- `pause` -/
def pause (h : Hook K) : Hook K :=
  let h := { h.setPlaying false with lastFrameRef := none }
  { h.cancelFrame with rafRef := none }

/-- `seek` -/
def seek (p : K) (h : Hook K) : Hook K :=
  match timeRange h.sortedPointsRef with
  | none => h
  | some range => h.showAt (range.start + (range.last - range.start) * max 0 (min 1 p))

/-- `sort((a, b) => a.ts_utc_ms - b.ts_utc_ms)`, which is stable -/
def sortByTime (points : List (Position K)) : List (Position K) :=
  points.insertionSort fun a b => a.tsUtcMs ≤ b.tsUtcMs

/-- `load` -/
def load (points : List (Position K)) (h : Hook K) : Hook K :=
  let sorted := sortByTime points
  let h := { (h.setPoints sorted).setTime ((timeRange sorted).map (·.start)) with
    currentPositions := .empty }
  { h.setPlaying false with lastFrameRef := none }

omit [Field K] [LinearOrder K] in
/-- `reset` -/
def reset (h : Hook K) : Hook K :=
  { (h.pause.setPoints []).setTime none with currentPositions := .empty }

omit [Field K] [LinearOrder K] in
/-- `setSpeed` -/
def setSpeed (s : PlaybackSpeed) (h : Hook K) : Hook K := { h with speedRef := s, speed := s }

omit [Field K] [LinearOrder K] in
/-- The clean-up of the effect, when the component is gone. -/
def cleanUp (h : Hook K) : Hook K := h.cancelFrame

/-! ## What a frame and a `play` do -/

/-- The ways a frame can go. -/
inductive Ticked (timestamp : K) (h : Hook K) : Hook K → Prop where
  | idle (hidle : h.playingRef = false ∨ timeRange h.sortedPointsRef = none) :
      Ticked timestamp h h
  | first (range : TimeRange K) (hplaying : h.playingRef = true)
      (hrange : timeRange h.sortedPointsRef = some range) (hfirst : h.lastFrameRef = none) :
      Ticked timestamp h { h with lastFrameRef := some timestamp }.requestFrame
  | stops (range : TimeRange K) (lastFrame : K) (hplaying : h.playingRef = true)
      (hrange : timeRange h.sortedPointsRef = some range)
      (hlast : h.lastFrameRef = some lastFrame)
      (hend : range.last ≤ h.nextTime range lastFrame timestamp) :
      Ticked timestamp h
        { (h.showAt (h.nextTime range lastFrame timestamp)).setPlaying false with
          lastFrameRef := none }
  | goesOn (range : TimeRange K) (lastFrame : K) (hplaying : h.playingRef = true)
      (hrange : timeRange h.sortedPointsRef = some range)
      (hlast : h.lastFrameRef = some lastFrame)
      (hend : ¬range.last ≤ h.nextTime range lastFrame timestamp) :
      Ticked timestamp h
        { h.showAt (h.nextTime range lastFrame timestamp) with
          lastFrameRef := some timestamp }.requestFrame

theorem ticked (timestamp : K) (h : Hook K) : Ticked timestamp h (h.tick timestamp) := by
  unfold tick
  split
  · rename_i hplaying
    split
    · rename_i hrange
      exact .idle (.inr hrange)
    · rename_i range hrange
      split
      · rename_i hfirst
        exact .first range hplaying hrange hfirst
      · rename_i lastFrame hlast
        dsimp only
        split
        · rename_i hend
          exact .stops range lastFrame hplaying hrange hlast hend
        · rename_i hend
          exact .goesOn range lastFrame hplaying hrange hlast hend
  · rename_i hplaying
    exact .idle (.inl (by simpa using hplaying))

/-- The ways `play` can go. -/
inductive Played (h : Hook K) : Hook K → Prop where
  | idle (hrange : timeRange h.sortedPointsRef = none) : Played h h
  | rewinds (range : TimeRange K) (hrange : timeRange h.sortedPointsRef = some range)
      (hend : h.AtEnd) :
      Played h
        { ({ h.setTime (some range.start) with currentPositions := .empty }).setPlaying true with
          lastFrameRef := none }.requestFrame
  | resumes (range : TimeRange K) (hrange : timeRange h.sortedPointsRef = some range)
      (hend : ¬h.AtEnd) :
      Played h { h.setPlaying true with lastFrameRef := none }.requestFrame

omit [Field K] in
theorem played (h : Hook K) : Played h h.play := by
  unfold play
  split
  · rename_i hrange
    exact .idle hrange
  · rename_i range hrange
    by_cases hend : h.AtEnd
    · simp only [if_pos hend]
      exact .rewinds range hrange hend
    · simp only [if_neg hend]
      exact .resumes range hrange hend

end Hook

/-! ## Sorted points -/

namespace Hook

variable [LinearOrder K]

/-- Sorting moves points only. -/
theorem sortByTime_perm (points : List (Position K)) : (sortByTime points).Perm points :=
  List.perm_insertionSort _ points

theorem sortByTime_sorted (points : List (Position K)) :
    (sortByTime points).Pairwise fun a b => a.tsUtcMs ≤ b.tsUtcMs := by
  have : Std.Total fun a b : Position K => a.tsUtcMs ≤ b.tsUtcMs := ⟨fun a b => le_total _ _⟩
  have : IsTrans (Position K) fun a b => a.tsUtcMs ≤ b.tsUtcMs := ⟨fun _ _ _ => le_trans⟩
  exact List.pairwise_insertionSort _ points

/-- The range of sorted points is the right way round. -/
theorem start_le_last {points : List (Position K)}
    (hsorted : points.Pairwise fun a b => a.tsUtcMs ≤ b.tsUtcMs) {range : TimeRange K}
    (hrange : timeRange points = some range) : range.start ≤ range.last := by
  cases points with
  | nil => cases hrange
  | cons first rest =>
    cases Option.some.inj hrange
    rcases List.mem_cons.mp (List.getLast_mem (List.cons_ne_nil first rest)) with heq | hmem
    · simp only [heq, le_refl]
    · exact (List.pairwise_cons.mp hsorted).1 _ hmem

/-- Points of one time stay in the order they were loaded in. -/
theorem sortByTime_stable (points : List (Position K)) (ts : K) :
    (sortByTime points).filter (·.tsUtcMs = ts) = points.filter (·.tsUtcMs = ts) := by
  have hordered : (points.filter (·.tsUtcMs = ts)).Pairwise fun a b => a.tsUtcMs ≤ b.tsUtcMs := by
    refine List.pairwise_of_forall_mem_list fun a ha b hb => ?_
    simp only [List.mem_filter, decide_eq_true_eq] at ha hb
    exact (ha.2.trans hb.2.symm).le
  have hsub : (points.filter (·.tsUtcMs = ts)).Sublist (sortByTime points) :=
    List.sublist_insertionSort hordered List.filter_sublist
  have hsub := hsub.filter (·.tsUtcMs = ts)
  rw [List.filter_filter] at hsub
  simp only [Bool.and_self] at hsub
  exact (hsub.eq_of_length ((sortByTime_perm points).filter _).length_eq.symm).symm

end Hook

/-! ## Runs -/

/-- What may happen to the hook. -/
inductive Event (K : Type) where
  | load (points : List (Position K))
  | play
  | pause
  | seek (p : K)
  | setSpeed (s : PlaybackSpeed)
  | reset
  /-- the browser runs one of the callbacks -/
  | frame (handle : Nat) (timestamp : K)

/-- The time of a frame. -/
def Event.frameTime? : Event K → Option K
  | .frame _ timestamp => some timestamp
  | _ => none

variable [Field K] [LinearOrder K]

/-- One event; only a callback that was asked for is run, and only once. -/
def step (h : Hook K) : Event K → Option (Hook K)
  | .load points => some (h.load points)
  | .play => some h.play
  | .pause => some h.pause
  | .seek p => some (h.seek p)
  | .setSpeed s => some (h.setSpeed s)
  | .reset => some h.reset
  | .frame handle timestamp =>
    if handle ∈ h.pending then
      some ({ h with pending := h.pending.erase handle }.tick timestamp)
    else none

/-- The hook after a list of events. -/
def run (events : List (Event K)) : Option (Hook K) := events.foldlM step .init

/-- The frames come in the order of their times. -/
def FramesOrdered (events : List (Event K)) : Prop :=
  (events.filterMap Event.frameTime?).Pairwise (· ≤ ·)

omit [Field K] in
theorem FramesOrdered.of_append {events more : List (Event K)}
    (h : FramesOrdered (events ++ more)) : FramesOrdered events := by
  rw [FramesOrdered, List.filterMap_append, List.pairwise_append] at h
  exact h.1

end RtlsStream.Player
