/-
  App/IndoorMap.lean --- moving and scaling the floor plan.

  The plan is drawn at an offset and to a scale.  The wheel changes the scale, within
  bounds, and dragging the offset; where a drag has begun is kept until the button is
  released or the mouse leaves.  Coordinates are elements of an ordered field, so the
  arithmetic is exact, as it is in doubles while `clientX` and `clientY` are integers: the
  offset is a sum of their differences, and the scale is not part of it.
-/
import Mathlib.Algebra.Module.Prod
import Mathlib.Algebra.Order.Field.Basic
import Mathlib.Tactic.Module
import Mathlib.Tactic.NormNum

set_option autoImplicit false

namespace RtlsStream.App

/-- `dragRef` -/
structure Drag (K : Type) where
  start : K × K
  /-- the offset when the drag began -/
  o : K × K

/-- The state of `IndoorMap` -/
structure IndoorMap (K : Type) where
  scale : K
  offset : K × K
  drag : Option (Drag K)

/-- What the mouse does; points are `clientX` and `clientY`. -/
inductive MouseEvent (K : Type) where
  | wheel (deltaY : K)
  | mouseDown (button : Nat) (client : K × K)
  | mouseMove (client : K × K)
  /-- or the mouse leaves -/
  | mouseUp

namespace IndoorMap

variable {K : Type} [Field K] [LinearOrder K]

/-- Before anything was moved -/
def init : IndoorMap K where
  scale := 1
  offset := 0
  drag := none

/-- `handleWheel`, `handleMouseDown`, `handleMouseMove` and `handleMouseUp` -/
def step (m : IndoorMap K) : MouseEvent K → IndoorMap K
  | .wheel deltaY => { m with scale := max (1 / 4) (min 4 (m.scale - deltaY * (1 / 1000))) }
  | .mouseDown button client =>
    if button ≠ 0 then m else { m with drag := some ⟨client, m.offset⟩ }
  | .mouseMove client =>
    match m.drag with
    | none => m
    | some d => { m with offset := d.o + (client - d.start) }
  | .mouseUp => { m with drag := none }

def run (events : List (MouseEvent K)) : IndoorMap K := events.foldl step init

/-- Where a point of the plan is drawn in the container: `translate(...) scale(...)` -/
def draw (m : IndoorMap K) (p : K × K) : K × K := m.offset + m.scale • p

/-- The point of the plan that is drawn there -/
def under (m : IndoorMap K) (q : K × K) : K × K := m.scale⁻¹ • (q - m.offset)

/-- The event does not end a drag and begins none. -/
def keepsDrag : MouseEvent K → Bool
  | .wheel _ | .mouseMove _ => true
  | .mouseDown button _ => button ≠ 0
  | .mouseUp => false

/-! ## The scale -/

variable [IsStrictOrderedRing K]

theorem scale_step {m : IndoorMap K} (h : 1 / 4 ≤ m.scale ∧ m.scale ≤ 4) (e : MouseEvent K) :
    1 / 4 ≤ (m.step e).scale ∧ (m.step e).scale ≤ 4 := by
  cases e with
  | wheel deltaY =>
    refine ⟨le_max_left .., max_le ?_ (min_le_left ..)⟩
    norm_num
  | mouseDown button client =>
    rw [step]
    split <;> exact h
  | mouseMove client =>
    rw [step]
    split <;> exact h
  | mouseUp => exact h

theorem scale_run (events : List (MouseEvent K)) :
    1 / 4 ≤ (run events).scale ∧ (run events).scale ≤ 4 := by
  induction events using List.reverseRecOn with
  | nil => norm_num [run, init]
  | append_singleton events e ih =>
    rw [run, List.foldl_concat]
    exact scale_step ih e

theorem scale_ne_zero (events : List (MouseEvent K)) : (run events).scale ≠ 0 := by
  have hpos : (0 : K) < 1 / 4 := by norm_num
  exact (hpos.trans_le (scale_run events).1).ne'

/-- What is drawn somewhere is found there. -/
theorem under_draw (events : List (MouseEvent K)) (p : K × K) :
    (run events).under ((run events).draw p) = p := by
  rw [under, draw, add_sub_cancel_left, inv_smul_smul₀ (scale_ne_zero events)]

/-! ## Dragging -/

omit [IsStrictOrderedRing K] in
theorem drag_step {m : IndoorMap K} {e : MouseEvent K} (hkeep : keepsDrag e = true) :
    (m.step e).drag = m.drag := by
  cases e with
  | wheel deltaY => rfl
  | mouseUp => cases hkeep
  | mouseDown button client =>
    have hbutton : button ≠ 0 := by simpa [keepsDrag] using hkeep
    rw [step, if_pos hbutton]
  | mouseMove client =>
    rw [step]
    split <;> rfl

omit [IsStrictOrderedRing K] in
theorem drag_foldl {moves : List (MouseEvent K)} (hkeep : ∀ e ∈ moves, keepsDrag e = true)
    (m : IndoorMap K) : (moves.foldl step m).drag = m.drag := by
  induction moves generalizing m with
  | nil => rfl
  | cons e moves ih =>
    obtain ⟨he, hmoves⟩ := List.forall_mem_cons.mp hkeep
    rw [List.foldl_cons, ih hmoves, drag_step he]

omit [LinearOrder K] [IsStrictOrderedRing K] in
/-- Scaled by two factors, only zero comes out the same. -/
theorem inv_smul_eq_iff {a b : K} (v : K × K) : a⁻¹ • v = b⁻¹ • v ↔ a = b ∨ v = 0 := by
  rw [← sub_eq_zero, ← sub_smul, smul_eq_zero, sub_eq_zero, inv_inj]

/-- However the mouse gets from where it grabbed the plan to where it is, and whatever was done
to the plan before: the scale is within its bounds, the plan has moved as far as the mouse,
and what was grabbed is under the mouse exactly if the wheel has not changed the scale, or
the origin of the plan was grabbed. -/
theorem grabbed_stays (before moves : List (MouseEvent K)) (grab now origin : K × K)
    (hkeep : ∀ e ∈ moves, keepsDrag e = true) :
    let m := run before
    let m' := run (before ++ .mouseDown 0 grab :: moves ++ [.mouseMove now])
    (1 / 4 ≤ m'.scale ∧ m'.scale ≤ 4) ∧ m'.offset = m.offset + (now - grab) ∧
      (m'.under (now - origin) = m.under (grab - origin) ↔
        m'.scale = m.scale ∨ grab - origin = m.draw 0) := by
  intro m m'
  have hdrag : (moves.foldl step (m.step (.mouseDown 0 grab))).drag = some ⟨grab, m.offset⟩ :=
    drag_foldl hkeep _
  have hm' : m' = (moves.foldl step (m.step (.mouseDown 0 grab))).step (.mouseMove now) := by
    simp only [m', m, run, List.foldl_append, List.foldl_cons, List.foldl_nil]
  have hoffset : m'.offset = m.offset + (now - grab) := by
    generalize moves.foldl step (m.step (.mouseDown 0 grab)) = moved at hdrag hm'
    rw [hm', step, hdrag]
  have hunder : now - origin - m'.offset = grab - origin - m.offset := by
    rw [hoffset]
    module
  refine ⟨scale_run _, hoffset, ?_⟩
  rw [under, under, hunder, inv_smul_eq_iff, draw, smul_zero, add_zero, sub_eq_zero]

section Examples

/-- At double size, dragged around a corner -/
theorem grabbed_stays_corner :
    (run ([.wheel (-1000)] ++ .mouseDown 0 (2, 4) :: [.mouseMove (2, 9), .mouseDown 2 (2, 9)] ++
      [.mouseMove (7, 9)] : List (MouseEvent ℚ))).offset = (5, 5) := by
  have hstays := grabbed_stays [.wheel (-1000)] [.mouseMove (2, 9), .mouseDown 2 (2, 9)]
    ((2, 4) : ℚ × ℚ) (7, 9) 0 (by simp [keepsDrag])
  rw [hstays.2.1]
  decide +kernel

end Examples

end IndoorMap

end RtlsStream.App
