/-
  Live/EventRate.lean --- the event rate `usePositions` shows.

  `recordEvent` notes the time of every envelope, and twice a second `updateEps` drops
  the times that have left the window and shows how many are left.  With a clock that
  does not go back this is the number of all events in the window, whatever earlier
  updates have dropped (`eventsPerSec_exact`).
-/
import RtlsStream.Foundation.Expiry
import RtlsStream.Foundation.Rounding
import Mathlib.Data.List.Induction

set_option autoImplicit false

namespace RtlsStream.Live

open RtlsStream.Foundation

namespace EventRate

/-- `EPS_WINDOW_MS` -/
def epsWindowMs : Int := 1000

/-- What the two callbacks share.  `lastEventTs` is `null` at first and `undefined` after an
array taken for an envelope. -/
structure Hook where
  eventTimestampsRef : List Int
  eventsPerSec : Nat
  lastEventTs : Option (Option Binary64)

def Hook.init : Hook := ⟨[], 0, none⟩

/-- `recordEvent`, when `Date.now()` is `now` -/
def Hook.recordEvent (h : Hook) (eventTsMs : Option Binary64) (now : Int) : Hook :=
  { h with
    eventTimestampsRef := h.eventTimestampsRef ++ [now]
    lastEventTs := some eventTsMs }

/-- `updateEps`, when `Date.now()` is `now`; an index of -1 is `none` -/
def Hook.updateEps (h : Hook) (now : Int) : Hook :=
  let cutoff := now - epsWindowMs
  let ts := h.eventTimestampsRef
  let eventTimestampsRef :=
    match ts.findIdx? (cutoff ≤ ·) with
    | some firstValid => if 0 < firstValid then ts.drop firstValid else ts
    | none => []
  { h with
    eventTimestampsRef := eventTimestampsRef
    eventsPerSec := eventTimestampsRef.length }

/-- A call, with what `Date.now()` returns to it. -/
inductive Call where
  | recordEvent (eventTsMs : Option Binary64) (now : Int)
  | updateEps (now : Int)

def Call.now : Call → Int
  | .recordEvent _ now => now
  | .updateEps now => now

def step (h : Hook) : Call → Hook
  | .recordEvent eventTsMs now => h.recordEvent eventTsMs now
  | .updateEps now => h.updateEps now

def run (calls : List Call) : Hook := calls.foldl step .init

/-- The times of all events. -/
def recorded (calls : List Call) : List Int :=
  calls.filterMap fun
    | .recordEvent _ now => some now
    | .updateEps _ => none

/-- `Date.now()` does not go back. -/
def NonDecreasing (calls : List Call) : Prop := (calls.map Call.now).Pairwise (· ≤ ·)

/-- Up to a call, the clock has not gone back and has not gone past it. -/
theorem NonDecreasing.before {before after : List Call} {c : Call}
    (hclock : NonDecreasing (before ++ c :: after)) :
    NonDecreasing before ∧ ∀ c' ∈ before, c'.now ≤ c.now := by
  rw [NonDecreasing, List.map_append, List.pairwise_append] at hclock
  exact ⟨hclock.1, fun c' hc' => hclock.2.2 _ (List.mem_map_of_mem hc') _ (by simp)⟩

/-- The update drops what has expired. -/
theorem updateEps_eq (h : Hook) (now : Int) :
    h.updateEps now = { h with
      eventTimestampsRef := expire (now - epsWindowMs) h.eventTimestampsRef
      eventsPerSec := (expire (now - epsWindowMs) h.eventTimestampsRef).length } := by
  rw [expire_of_findIdx?, Hook.updateEps]
  cases hindex : h.eventTimestampsRef.findIdx? (now - epsWindowMs ≤ ·) with
  | none => rfl
  | some firstValid =>
    cases firstValid with
    | zero => rfl
    | succ n => rfl

/-- The invariant, at a time no call is later than. -/
structure Keeps (now : Int) (calls : List Call) (h : Hook) : Prop where
  retains : Retains (now - epsWindowMs) (recorded calls) h.eventTimestampsRef
  past : ∀ t ∈ recorded calls, t ≤ now

/-- Time passes. -/
theorem Keeps.mono {now later : Int} {calls : List Call} {h : Hook} (hkeeps : Keeps now calls h)
    (hle : now ≤ later) : Keeps later calls h :=
  ⟨hkeeps.retains.mono (by omega), fun t ht => (hkeeps.past t ht).trans hle⟩

/-- The step lemma. -/
theorem Keeps.step {calls : List Call} {h : Hook} {c : Call} (hkeeps : Keeps c.now calls h) :
    Keeps c.now (calls ++ [c]) (step h c) := by
  cases c with
  | recordEvent eventTsMs now =>
    have hrecorded : recorded (calls ++ [.recordEvent eventTsMs now]) = recorded calls ++ [now] := by
      simp [recorded]
    constructor
    · rw [hrecorded]
      exact hkeeps.retains.push hkeeps.past
    · rw [hrecorded]
      exact List.forall_mem_append.mpr ⟨hkeeps.past, by simp [Call.now]⟩
  | updateEps now =>
    have hrecorded : recorded (calls ++ [.updateEps now]) = recorded calls := by simp [recorded]
    constructor
    · rw [hrecorded, EventRate.step, updateEps_eq]
      exact hkeeps.retains.expire
    · rw [hrecorded]
      exact hkeeps.past

/-- The run lemma. -/
theorem Keeps.run {calls : List Call} (hclock : NonDecreasing calls) {now : Int}
    (hnow : ∀ c ∈ calls, c.now ≤ now) : Keeps now calls (run calls) := by
  induction calls using List.reverseRecOn generalizing now with
  | nil => exact ⟨.nil _, by simp [recorded]⟩
  | append_singleton calls c ih =>
    have hstep := (ih hclock.before.1 hclock.before.2).step
    rw [EventRate.run, List.foldl_append]
    exact hstep.mono (hnow c (by simp))

/-- Every update shows the number of all events in the window. -/
theorem eventsPerSec_exact {calls : List Call} (hclock : NonDecreasing calls) :
    ∀ before now after, calls = before ++ .updateEps now :: after →
      (run (before ++ [.updateEps now])).eventsPerSec =
        (recorded before).countP fun t => now - 1000 ≤ t ∧ t ≤ now := by
  intro before now after hcalls
  subst hcalls
  have hkeeps : Keeps now before (run before) := Keeps.run hclock.before.1 hclock.before.2
  have hwindow : (recorded before).filter (now - epsWindowMs ≤ ·) =
      (recorded before).filter fun t => now - 1000 ≤ t ∧ t ≤ now :=
    List.filter_congr fun t ht => by simp [epsWindowMs, hkeeps.past t ht]
  have hrun : run (before ++ [.updateEps now]) = (run before).updateEps now := by
    simp [run, step]
  rw [hrun, updateEps_eq, List.countP_eq_length_filter, ← hwindow, ← hkeeps.retains.expire_eq]

/-- Three events, of which the first has left the window in the end. -/
def sampleCalls : List Call :=
  [.recordEvent none 0, .recordEvent none 400, .updateEps 500, .recordEvent none 900,
    .updateEps 1100]

theorem eventsPerSec_exact_two : (run sampleCalls).eventsPerSec = 2 := by
  have hclock : NonDecreasing sampleCalls := by
    simp [NonDecreasing, sampleCalls, Call.now]
  exact eventsPerSec_exact hclock (sampleCalls.take 4) 1100 [] rfl

end EventRate

end RtlsStream.Live
