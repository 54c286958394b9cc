/-
  Player/Loop.lean --- the callbacks the player has asked for.

  The hook remembers one handle, the latest.  `play` asks for a callback without looking
  whether one is pending, and neither a second `play` nor a `load` cancels what is: then
  two callbacks ask for each other's successors from there on, and `pause` cancels one of
  them.  As long as every `play` finds nothing pending there is one loop (`one_loop_iff`).
-/
import RtlsStream.Foundation.Machine
import RtlsStream.Player.Hook
import Mathlib.Algebra.Order.Field.Rat

set_option autoImplicit false

namespace RtlsStream.Player

open RtlsStream.Foundation

variable {K : Type} [Field K] [LinearOrder K]

/-- At every point of a run at most one callback is pending, and none is after a pause, a
reset or an unmount there. -/
def OneLoop (events : List (Event K)) : Prop :=
  ∀ before after h, events = before ++ after → run before = some h →
    h.pending.length ≤ 1 ∧ h.pause.pending = [] ∧ h.reset.pending = [] ∧ h.cleanUp.pending = []

/-- Every `play` with points loaded is called while nothing is pending. -/
def PlaysAlone (events : List (Event K)) : Prop :=
  ∀ before after h, events = before ++ .play :: after → run before = some h →
    h.sortedPointsRef ≠ [] → h.pending = []

/-- The invariant: what is pending is the callback of the handle that is remembered. -/
def Looped (h : Hook K) : Prop :=
  h.pending = [] ∨ ∃ handle, h.rafRef = some handle ∧ h.pending = [handle]

namespace Looped

variable {h : Hook K}

omit [Field K] [LinearOrder K]

theorem length_le (hl : Looped h) : h.pending.length ≤ 1 := by
  rcases hl with hnone | ⟨handle, _, hone⟩
  · simp [hnone]
  · simp [hone]

theorem cancelFrame_pending (hl : Looped h) : h.cancelFrame.pending = [] := by
  unfold Hook.cancelFrame
  rcases hl with hnone | ⟨handle, hraf, hone⟩
  · split <;> simp [hnone]
  · simp [hraf, hone]

theorem pause_pending (hl : Looped h) : h.pause.pending = [] :=
  cancelFrame_pending (h := { h.setPlaying false with lastFrameRef := none }) hl

theorem requestFrame (hnone : h.pending = []) : Looped h.requestFrame :=
  .inr ⟨h.handles, rfl, by simp [Hook.requestFrame, hnone]⟩

end Looped

/-- A frame leaves no callback but the one it asks for. -/
theorem looped_tick {h : Hook K} (hnone : h.pending = []) (timestamp : K) :
    Looped (h.tick timestamp) := by
  have hticked := h.ticked timestamp
  generalize h.tick timestamp = next at hticked
  cases hticked with
  | idle _ => exact .inl hnone
  | first _ _ _ _ => exact .requestFrame hnone
  | stops _ _ _ _ _ _ => exact .inl hnone
  | goesOn _ _ _ _ _ _ => exact .requestFrame hnone

omit [Field K] in
theorem looped_play {h : Hook K} (hl : Looped h)
    (halone : h.sortedPointsRef ≠ [] → h.pending = []) : Looped h.play := by
  have hplayed := h.played
  generalize h.play = next at hplayed
  cases hplayed with
  | idle _ => exact hl
  | rewinds range hrange _ =>
    exact .requestFrame (halone (by simp [← timeRange_eq_none, hrange]))
  | resumes range hrange _ =>
    exact .requestFrame (halone (by simp [← timeRange_eq_none, hrange]))

/-- The step lemma. -/
theorem Looped.step {h h' : Hook K} (hl : Looped h) {e : Event K} (hstep : step h e = some h')
    (halone : e = .play → h.sortedPointsRef ≠ [] → h.pending = []) : Looped h' := by
  cases e with
  | load points => exact Option.some.inj hstep ▸ hl
  | play => exact Option.some.inj hstep ▸ looped_play hl (halone rfl)
  | pause => exact Option.some.inj hstep ▸ .inl hl.pause_pending
  | seek p =>
    cases Option.some.inj hstep
    unfold Hook.seek
    split
    · exact hl
    · exact hl
  | setSpeed s => exact Option.some.inj hstep ▸ hl
  | reset => exact Option.some.inj hstep ▸ .inl hl.pause_pending
  | frame handle timestamp =>
    simp only [Player.step, Option.ite_none_right_eq_some, Option.some.injEq] at hstep
    obtain ⟨hmem, rfl⟩ := hstep
    refine looped_tick ?_ timestamp
    rcases hl with hnone | ⟨latest, _, hone⟩
    · simp [hnone] at hmem
    · obtain rfl : handle = latest := by simpa [hone] using hmem
      simp [hone]

/-- The run lemma. -/
theorem Looped.run {events before after : List (Event K)} {h : Hook K}
    (halone : PlaysAlone events) (hsplit : events = before ++ after)
    (hrun : run before = some h) : Looped h := by
  refine foldlM_induction
    (P := fun before h => ∀ after, events = before ++ after → Looped h) ?_ ?_ hrun after hsplit
  · exact fun _ _ => .inl rfl
  · intro before h e h' hrun ih hstep after hsplit
    rw [List.append_assoc, List.singleton_append] at hsplit
    exact (ih _ hsplit).step hstep fun he => halone before after h (he ▸ hsplit) hrun

omit [Field K] in
/-- `play` adds a callback to those that are pending. -/
theorem play_pending {h : Hook K} (hpoints : h.sortedPointsRef ≠ []) :
    h.play.pending.length = h.pending.length + 1 := by
  have hplayed := h.played
  generalize h.play = next at hplayed
  cases hplayed with
  | idle hrange => exact absurd (timeRange_eq_none.mp hrange) hpoints
  | rewinds _ _ _ => exact List.length_append
  | resumes _ _ _ => exact List.length_append

/-- There is one loop if and only if nothing is pending at a `play`. -/
theorem one_loop_iff (events : List (Event K)) : OneLoop events ↔ PlaysAlone events := by
  constructor
  · intro hloop before after h hsplit hrun hpoints
    have hplay : run (before ++ [.play]) = some h.play := foldlM_concat.mpr ⟨h, hrun, rfl⟩
    have hlength := (hloop (before ++ [.play]) after _ (by simpa using hsplit) hplay).1
    rw [play_pending hpoints] at hlength
    exact List.length_eq_zero_iff.mp (by omega)
  · intro halone before after h hsplit hrun
    have hl := Looped.run halone hsplit hrun
    exact ⟨hl.length_le, hl.pause_pending, hl.pause_pending, hl.cancelFrame_pending⟩

/-- The second `load` stops the playback but not the callback. -/
def sampleReload : List (Event ℚ) :=
  [.load [⟨[65], 0, []⟩, ⟨[65], 10, []⟩], .play, .load [⟨[65], 0, []⟩, ⟨[65], 20, []⟩], .play]

/-- Two callbacks are pending then, and a pause cancels the newer one only. -/
theorem reload_doubles :
    (run sampleReload).map (·.pending) = some [0, 1] ∧
      (run (sampleReload ++ [.pause])).map (·.pending) = some [0] ∧ ¬OneLoop sampleReload := by
  have hpending : (run sampleReload).map (·.pending) = some [0, 1] := by decide +kernel
  refine ⟨hpending, by decide +kernel, fun hloop => ?_⟩
  obtain ⟨h, hrun, htwo⟩ := Option.map_eq_some_iff.mp hpending
  have hlength := (hloop sampleReload [] h (List.append_nil _).symm hrun).1
  simp [htwo] at hlength

end RtlsStream.Player
