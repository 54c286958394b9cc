/-
  Foundation/Window.lean --- windows over the sorted listing of a growing table.

  A query with `ORDER BY`, `OFFSET` and `LIMIT` returns a window of the sorted
  rows.  Where no two rows tie, a row is in the window exactly when its rank, the
  number of rows listed before it, is (`mem_window`).  New rows can only push
  a row back (`rank_le_of_sublist`), which is why a reader that moves its offset by
  what it has read never steps over a row that was there before.
-/
import Mathlib.Data.List.Sort
import Mathlib.Data.List.Count

set_option autoImplicit false

namespace RtlsStream.Foundation

/-- A fixed order in which rows are listed. -/
structure ListingOrder (α : Type*) where
  le : α → α → Bool
  total : ∀ a b, le a b || le b a
  trans : ∀ a b c, le a b → le b c → le a c

namespace ListingOrder

variable {α : Type*} (o : ListingOrder α)

/-- No two of the rows tie. -/
def Strict (rows : List α) : Prop := ∀ a ∈ rows, ∀ b ∈ rows, o.le a b → o.le b a → a = b

/-- The rows in their order. -/
def listing (rows : List α) : List α := rows.mergeSort o.le

/-- `OFFSET offset LIMIT limit` of the rows in their order. -/
def window (rows : List α) (offset limit : Nat) : List α :=
  ((o.listing rows).drop offset).take limit

theorem listing_perm (rows : List α) : (o.listing rows).Perm rows :=
  List.mergeSort_perm rows o.le

theorem listing_sorted (rows : List α) :
    (o.listing rows).Pairwise fun a b => o.le a b = true :=
  List.pairwise_mergeSort o.trans o.total rows

theorem mem_of_mem_window {rows : List α} {offset limit : Nat} {a : α}
    (h : a ∈ o.window rows offset limit) : a ∈ rows :=
  (o.listing_perm rows).mem_iff.mp (List.mem_of_mem_drop (List.mem_of_mem_take h))

theorem length_window_le (rows : List α) (offset limit : Nat) :
    (o.window rows offset limit).length ≤ limit := by
  unfold window
  exact List.length_take_le _ _

/-- A window that is not empty ends inside the table. -/
theorem offset_add_length_window_le {rows : List α} {offset limit : Nat}
    (h : o.window rows offset limit ≠ []) :
    offset + (o.window rows offset limit).length ≤ rows.length := by
  have hlen : (o.window rows offset limit).length = min limit (rows.length - offset) := by
    unfold window
    rw [List.length_take, List.length_drop, (o.listing_perm rows).length_eq]
  have hpos : 0 < (o.window rows offset limit).length := List.length_pos_iff.mpr h
  omega

/-! ## Ranks -/

variable [DecidableEq α]

/-- How many rows are listed before `a`. -/
def rank (rows : List α) (a : α) : Nat := rows.countP fun b => o.le b a && b ≠ a

/-- A table that has grown lists at least as many rows before `a`. -/
theorem rank_le_of_sublist {rows more : List α} (h : rows.Sublist more) (a : α) :
    o.rank rows a ≤ o.rank more a :=
  h.countP_le

/-- A row of the table is listed after fewer rows than the table has. -/
theorem rank_lt_length {rows : List α} {a : α} (h : a ∈ rows) :
    o.rank rows a < rows.length := by
  have hsplit := rows.length_eq_countP_add_countP fun b => o.le b a && b ≠ a
  have hself : 0 < rows.countP fun b => ¬ (o.le b a && b ≠ a) = true := by
    rw [List.countP_pos_iff]
    exact ⟨a, h, by simp⟩
  unfold rank
  omega

/-- In the listing a row stands behind as many rows as its rank says. -/
theorem rank_eq_length {rows front back : List α} {a : α} (hnodup : rows.Nodup)
    (hstrict : o.Strict rows) (h : o.listing rows = front ++ a :: back) : o.rank rows a = front.length := by
  have hlisted : (o.listing rows).Nodup := (o.listing_perm rows).nodup_iff.mpr hnodup
  have hsorted := o.listing_sorted rows
  have hmem : ∀ b ∈ front ++ a :: back, b ∈ rows := by
    intro b hb
    rw [← h] at hb
    exact (o.listing_perm rows).mem_iff.mp hb
  rw [h] at hlisted hsorted
  have hfront : ∀ b ∈ front, (o.le b a && b ≠ a) = true := by
    intro b hb
    have hle : o.le b a = true := (List.pairwise_append.mp hsorted).2.2 b hb a (by simp)
    have hne : b ≠ a := (List.nodup_append.mp hlisted).2.2 b hb a (by simp)
    simp [hle, hne]
  have hback : ∀ b ∈ back, ¬ (o.le b a && b ≠ a) = true := by
    intro b hb hbefore
    simp only [Bool.and_eq_true, decide_eq_true_eq] at hbefore
    have hle : o.le a b = true :=
      (List.pairwise_cons.mp (List.pairwise_append.mp hsorted).2.1).1 b hb
    exact hbefore.2 (hstrict b (hmem b (by simp [hb])) a (hmem a (by simp)) hbefore.1 hle)
  unfold rank
  rw [← (o.listing_perm rows).countP_eq, h, List.countP_append, List.countP_cons,
    List.countP_eq_length.mpr hfront, List.countP_eq_zero.mpr hback]
  simp

/-- A row is in a window exactly when its rank is. -/
theorem mem_window {rows : List α} (hnodup : rows.Nodup) (hstrict : o.Strict rows) {a : α}
    (ha : a ∈ rows) (offset limit : Nat) :
    a ∈ o.window rows offset limit ↔
      offset ≤ o.rank rows a ∧ o.rank rows a < offset + limit := by
  obtain ⟨front, back, hsplit⟩ :=
    List.append_of_mem ((o.listing_perm rows).mem_iff.mpr ha)
  have hrank := o.rank_eq_length hnodup hstrict hsplit
  have hlisted : (o.listing rows).Nodup := (o.listing_perm rows).nodup_iff.mpr hnodup
  have hget : (o.listing rows)[front.length]? = some a := by simp [hsplit]
  unfold window
  rw [hrank]
  constructor
  · intro hmem
    obtain ⟨k, hk⟩ := List.mem_iff_getElem?.mp hmem
    rw [List.getElem?_take] at hk
    split at hk
    · rename_i hlt
      rw [List.getElem?_drop] at hk
      have hindex : offset + k = front.length :=
        (List.getElem?_inj (List.getElem?_eq_some_iff.mp hk).1 hlisted).mp (hk.trans hget.symm)
      omega
    · simp at hk
  · rintro ⟨hlo, hhi⟩
    refine List.mem_iff_getElem?.mpr ⟨front.length - offset, ?_⟩
    rw [List.getElem?_take, if_pos (by omega), List.getElem?_drop,
      show offset + (front.length - offset) = front.length by omega, hget]

end ListingOrder

end RtlsStream.Foundation
