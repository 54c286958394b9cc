/-
  Foundation/Expiry.lean --- a buffer of times from which old ones are dropped.

  Times are added at the end and dropped at the front, up to a cutoff.  As long as the
  times added never decrease and the cutoff never goes back, the buffer has lost nothing
  that a window from the cutoff on needs (`Retains`), and after `expire` its length is the
  number of all times in the window, also of those that were dropped before.
-/
import Mathlib.Data.List.TakeWhile
import Mathlib.Order.Lattice

set_option autoImplicit false

namespace RtlsStream.Foundation

variable {α : Type*} [LinearOrder α]

/-- The buffer without the times before the cutoff at its front. -/
def expire (cutoff : α) (buffer : List α) : List α := buffer.dropWhile (· < cutoff)

/-- On a sorted buffer nothing old is left behind the place where the search stops. -/
theorem expire_eq_filter {cutoff : α} {buffer : List α} (hsorted : buffer.Pairwise (· ≤ ·)) :
    expire cutoff buffer = buffer.filter (cutoff ≤ ·) := by
  induction buffer with
  | nil => rfl
  | cons t rest ih =>
    obtain ⟨hfirst, hrest⟩ := List.pairwise_cons.mp hsorted
    unfold expire at ih ⊢
    by_cases ht : t < cutoff
    · rw [List.dropWhile_cons_of_pos (by simpa using ht), ih hrest,
        List.filter_cons_of_neg (by simpa using ht)]
    · have hall : ∀ u ∈ t :: rest, cutoff ≤ u := by
        rw [not_lt] at ht
        exact List.forall_mem_cons.mpr ⟨ht, fun u hu => ht.trans (hfirst u hu)⟩
      rw [List.dropWhile_cons_of_neg (by simpa using ht),
        List.filter_eq_self.mpr fun u hu => decide_eq_true (hall u hu)]

/-- The search for the first time that has not expired, and what is kept by its outcome. -/
theorem expire_of_findIdx? {cutoff : α} {buffer : List α} :
    expire cutoff buffer =
      match buffer.findIdx? (cutoff ≤ ·) with
      | some firstValid => buffer.drop firstValid
      | none => [] := by
  unfold expire
  induction buffer with
  | nil => rfl
  | cons t rest ih =>
    rw [List.findIdx?_cons]
    by_cases ht : t < cutoff
    · rw [List.dropWhile_cons_of_pos (by simpa using ht), ih,
        if_neg (by simpa using ht)]
      cases rest.findIdx? (cutoff ≤ ·) <;> rfl
    · rw [List.dropWhile_cons_of_neg (by simpa using ht), if_pos (by simpa using ht)]
      rfl

/-- The buffer is what was recorded, in order, without times before the cutoff. -/
structure Retains (cutoff : α) (recorded buffer : List α) : Prop where
  sorted : recorded.Pairwise (· ≤ ·)
  split : ∃ dropped, recorded = dropped ++ buffer ∧ ∀ t ∈ dropped, t < cutoff

namespace Retains

variable {cutoff : α} {recorded buffer : List α}

theorem nil (cutoff : α) : Retains cutoff [] [] :=
  ⟨List.Pairwise.nil, [], rfl, by simp⟩

/-- The cutoff may move on. -/
theorem mono (h : Retains cutoff recorded buffer) {later : α} (hle : cutoff ≤ later) :
    Retains later recorded buffer := by
  obtain ⟨dropped, hsplit, hdropped⟩ := h.split
  exact ⟨h.sorted, dropped, hsplit, fun t ht => (hdropped t ht).trans_le hle⟩

/-- A new time goes to the end of both. -/
theorem push (h : Retains cutoff recorded buffer) {now : α} (hlatest : ∀ t ∈ recorded, t ≤ now) :
    Retains cutoff (recorded ++ [now]) (buffer ++ [now]) := by
  obtain ⟨dropped, rfl, hdropped⟩ := h.split
  refine ⟨?_, dropped, List.append_assoc _ _ _, hdropped⟩
  exact List.pairwise_append.mpr
    ⟨h.sorted, List.pairwise_singleton _ _, fun t ht u hu => List.mem_singleton.mp hu ▸ hlatest t ht⟩

theorem buffer_sorted (h : Retains cutoff recorded buffer) : buffer.Pairwise (· ≤ ·) := by
  obtain ⟨dropped, rfl, _⟩ := h.split
  exact (List.pairwise_append.mp h.sorted).2.1

/-- What expires is before the cutoff. -/
theorem expire (h : Retains cutoff recorded buffer) :
    Retains cutoff recorded (expire cutoff buffer) := by
  obtain ⟨dropped, hsplit, hdropped⟩ := h.split
  refine ⟨h.sorted, dropped ++ buffer.takeWhile (· < cutoff), ?_, ?_⟩
  · rw [List.append_assoc, Foundation.expire, List.takeWhile_append_dropWhile, hsplit]
  · intro t ht
    rcases List.mem_append.mp ht with ht | ht
    · exact hdropped t ht
    · simpa using List.mem_takeWhile_imp ht

/-- Nothing is missing from the window: what is left are all the times from the cutoff on. -/
theorem expire_eq (h : Retains cutoff recorded buffer) :
    Foundation.expire cutoff buffer = recorded.filter (cutoff ≤ ·) := by
  obtain ⟨dropped, hsplit, hdropped⟩ := h.split
  have hnone : dropped.filter (cutoff ≤ ·) = [] := by
    simpa [List.filter_eq_nil_iff] using hdropped
  rw [expire_eq_filter h.buffer_sorted, hsplit, List.filter_append, hnone, List.nil_append]

end Retains

end RtlsStream.Foundation
