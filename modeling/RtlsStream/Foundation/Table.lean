/-
  Foundation/Table.lean --- tables with a primary key.

  A table is a list of rows no two of which share a key; the key is a function of
  the row.  `put` replaces the row with the key of the new one, in its place, or
  adds the new one at the end: an SQL `INSERT ... ON CONFLICT DO UPDATE` of a
  whole row, and the `set` of an insertion-ordered map.  `find?_put` is the
  lookup after a write, and `find?_ofList` the lookup in a table built row by
  row from a list that has the key property already.
-/
import Mathlib.Data.List.Basic

set_option autoImplicit false

namespace RtlsStream.Foundation

/-- Rows of type `α`, at most one for each key. -/
structure Table {α κ : Type*} (key : α → κ) where
  rows : List α
  primaryKey : (rows.map key).Nodup

namespace Table

variable {α κ : Type*} [DecidableEq κ] {key : α → κ}

/-- The table without rows. -/
def empty : Table key := ⟨[], by simp⟩

/-- The row of a key. -/
def find? (t : Table key) (k : κ) : Option α := t.rows.find? (key · = k)

@[simp] theorem find?_empty (k : κ) : (empty : Table key).find? k = none := rfl

theorem key_of_find? {t : Table key} {k : κ} {a : α} (h : t.find? k = some a) : key a = k := by
  simpa using List.find?_some h

theorem mem_of_find? {t : Table key} {k : κ} {a : α} (h : t.find? k = some a) : a ∈ t.rows :=
  List.mem_of_find?_eq_some h

/-- A row is the row of its key. -/
theorem find?_of_mem {t : Table key} {a : α} (h : a ∈ t.rows) : t.find? (key a) = some a := by
  obtain ⟨rows, hkey⟩ := t
  simp only [find?]
  induction rows with
  | nil => simp at h
  | cons held rest ih =>
    simp only [List.map_cons, List.nodup_cons, List.mem_map, not_exists, not_and] at hkey
    rcases List.mem_cons.mp h with rfl | hmem
    · simp
    · have hne : key held ≠ key a := fun heq => hkey.1 a hmem heq.symm
      rw [List.find?_cons_of_neg (by simpa using hne)]
      exact ih hkey.2 hmem

/-! ## Writing a row -/

/-- Replace the row with the key of `a` by `a`, or add `a`. -/
def putRow (key : α → κ) (a : α) : List α → List α
  | [] => [a]
  | held :: rest => if key held = key a then a :: rest else held :: putRow key a rest

theorem mem_keys_putRow {rows : List α} {a : α} {k : κ}
    (h : k ∈ (putRow key a rows).map key) : k = key a ∨ k ∈ rows.map key := by
  induction rows with
  | nil => simpa [putRow] using h
  | cons held rest ih =>
    simp only [putRow] at h
    split at h
    · simp only [List.map_cons, List.mem_cons] at h ⊢
      exact h.imp id Or.inr
    · simp only [List.map_cons, List.mem_cons] at h ⊢
      rcases h with h | h
      · exact Or.inr (Or.inl h)
      · exact (ih h).imp id Or.inr

theorem nodup_putRow {rows : List α} (a : α) (h : (rows.map key).Nodup) :
    ((putRow key a rows).map key).Nodup := by
  induction rows with
  | nil => simp [putRow]
  | cons held rest ih =>
    simp only [List.map_cons, List.nodup_cons] at h
    simp only [putRow]
    split
    · rename_i heq
      simpa only [List.map_cons, List.nodup_cons, ← heq] using h
    · rename_i hne
      simp only [List.map_cons, List.nodup_cons]
      refine ⟨fun hmem => ?_, ih h.2⟩
      rcases mem_keys_putRow hmem with heq | hmem
      · exact hne heq
      · exact h.1 hmem

/-- Write a row. -/
def put (t : Table key) (a : α) : Table key :=
  ⟨putRow key a t.rows, nodup_putRow a t.primaryKey⟩

/-- A write shows under its own key and nowhere else. -/
theorem find?_put (t : Table key) (a : α) (k : κ) :
    (t.put a).find? k = if key a = k then some a else t.find? k := by
  obtain ⟨rows, hkey⟩ := t
  simp only [put, find?]
  clear hkey
  induction rows with
  | nil => by_cases h : key a = k <;> simp [putRow, h]
  | cons held rest ih =>
    by_cases hheld : key held = key a
    · by_cases h : key a = k <;> simp [putRow, hheld, h]
    · by_cases h : key held = k
      · have hne : key a ≠ k := fun heq => hheld (h.trans heq.symm)
        simp only [putRow, if_neg hheld, if_neg hne]
        rw [List.find?_cons_of_pos (by simpa using h), List.find?_cons_of_pos (by simpa using h)]
      · simp only [putRow, if_neg hheld]
        rw [List.find?_cons_of_neg (by simpa using h), ih,
          List.find?_cons_of_neg (by simpa using h)]

/-! ## A table from a list of rows -/

/-- The table that writing the rows of a list one after the other leaves. -/
def ofList (key : α → κ) (rows : List α) : Table key := rows.foldl put empty

theorem mem_putRow {rows : List α} {a b : α} (h : b ∈ putRow key a rows) : b = a ∨ b ∈ rows := by
  induction rows with
  | nil => simpa [putRow] using h
  | cons held rest ih =>
    simp only [putRow] at h
    split at h
    · exact (List.mem_cons.mp h).imp id (List.mem_cons_of_mem _)
    · rcases List.mem_cons.mp h with rfl | h
      · exact Or.inr List.mem_cons_self
      · exact (ih h).imp id (List.mem_cons_of_mem _)

theorem mem_foldl_put {rows : List α} {t : Table key} {a : α}
    (h : a ∈ (rows.foldl put t).rows) : a ∈ t.rows ∨ a ∈ rows := by
  induction rows generalizing t with
  | nil => exact Or.inl h
  | cons b rest ih =>
    rcases ih h with hput | hrest
    · rcases mem_putRow hput with rfl | hmem
      · exact Or.inr List.mem_cons_self
      · exact Or.inl hmem
    · exact Or.inr (List.mem_cons_of_mem _ hrest)

/-- The table of a list has no other rows. -/
theorem mem_ofList {rows : List α} {a : α} (h : a ∈ (ofList key rows).rows) : a ∈ rows := by
  rcases mem_foldl_put h with hempty | hmem
  · simp [empty] at hempty
  · exact hmem

theorem find?_foldl_put {rows : List α} (t : Table key) (hkey : (rows.map key).Nodup) (k : κ) :
    (rows.foldl put t).find? k = (rows.find? (key · = k)).or (t.find? k) := by
  induction rows generalizing t with
  | nil => simp
  | cons a rest ih =>
    simp only [List.map_cons, List.nodup_cons, List.mem_map, not_exists, not_and] at hkey
    rw [List.foldl_cons, ih _ hkey.2, find?_put]
    by_cases h : key a = k
    · have hnone : rest.find? (key · = k) = none := by
        simp only [List.find?_eq_none, decide_eq_true_eq]
        intro b hb heq
        exact hkey.1 b hb (heq.trans h.symm)
      rw [if_pos h, List.find?_cons_of_pos (by simpa using h), hnone]
      rfl
    · rw [if_neg h, List.find?_cons_of_neg (by simpa using h)]

/-- Of the rows written under a key the last one stays. -/
theorem find?_foldl_put_getLast? (rows : List α) (t : Table key) (k : κ) :
    (rows.foldl put t).find? k = ((rows.filter (key · = k)).getLast?).or (t.find? k) := by
  induction rows generalizing t with
  | nil => simp
  | cons a rest ih =>
    rw [List.foldl_cons, ih, find?_put]
    by_cases h : key a = k
    · cases hrest : (rest.filter (key · = k)).getLast? <;>
        simp [h, List.getLast?_cons, hrest]
    · simp [h]

/-- Rows with distinct keys are all found again. -/
theorem find?_ofList {rows : List α} (hkey : (rows.map key).Nodup) (k : κ) :
    (ofList key rows).find? k = rows.find? (key · = k) := by
  rw [ofList, find?_foldl_put _ hkey, find?_empty, Option.or_none]

end Table

end RtlsStream.Foundation
