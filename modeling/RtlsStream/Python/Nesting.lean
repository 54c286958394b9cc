/-
  Python/Nesting.lean --- which values `str` can write.

  `repr` raises `ValueError` for an integer beyond the digit limit, which no value that
  was read holds, and `RecursionError` for containers too deep inside each other.  So of
  the values `json.loads` returns, `str` writes those whose nesting `repr` admits.
-/
import RtlsStream.Python.Printable
import RtlsStream.Python.Repr

set_option autoImplicit false

namespace RtlsStream.Python

open RtlsStream.Foundation

mutual

/-- How many containers stand inside each other. -/
def nesting : Json → Nat
  | .null | .bool _ | .int _ | .float _ | .str _ => 0
  | .arr items => nestingItems items + 1
  | .obj members => nestingMembers members + 1

def nestingItems : List Json → Nat
  | [] => 0
  | v :: rest => max (nesting v) (nestingItems rest)

def nestingMembers : List (Str × Json) → Nat
  | [] => 0
  | (_, v) :: rest => max (nesting v) (nestingMembers rest)

end

theorem nestingItems_le {items : List Json} {depth : Nat} :
    nestingItems items ≤ depth ↔ ∀ v ∈ items, nesting v ≤ depth := by
  induction items with
  | nil => simp [nestingItems]
  | cons v rest ih => rw [nestingItems, max_le_iff, ih, List.forall_mem_cons]

theorem nestingMembers_le {members : List (Str × Json)} {depth : Nat} :
    nestingMembers members ≤ depth ↔ ∀ m ∈ members, nesting m.2 ≤ depth := by
  induction members with
  | nil => simp [nestingMembers]
  | cons m rest ih => rw [nestingMembers, max_le_iff, ih, List.forall_mem_cons]

variable [Runtime]

theorem reprItems_ok_iff {depth : Nat} {items : List Json} :
    (∃ t, reprItems depth items = .ok t) ↔ ∀ v ∈ items, ∃ t, reprValue depth v = .ok t := by
  induction items with
  | nil => simp [reprItems]
  | cons v rest ih =>
    rw [List.forall_mem_cons, ← ih, reprItems]
    cases reprValue depth v <;> cases reprItems depth rest <;> simp [bind, Except.bind]

theorem reprMembers_ok_iff {depth : Nat} {members : List (Str × Json)} :
    (∃ t, reprMembers depth members = .ok t) ↔
      ∀ m ∈ members, ∃ t, reprValue depth m.2 = .ok t := by
  induction members with
  | nil => simp [reprMembers]
  | cons m rest ih =>
    obtain ⟨k, v⟩ := m
    rw [List.forall_mem_cons, ← ih, reprMembers]
    cases reprValue depth v <;> cases reprMembers depth rest <;> simp [bind, Except.bind]

/-- A value that `json` can print has a `repr` unless it is nested too deep for it. -/
theorem reprValue_ok_iff {style : DumpStyle} {room : Nat} {v : Json} (h : Dumpable style room v)
    {depth : Nat} : (∃ t, reprValue depth v = .ok t) ↔ nesting v ≤ depth := by
  induction room generalizing v depth with
  | zero =>
    cases v with
    | arr | obj => simp [Dumpable, dumpValue] at h
    | int n => simpa [reprValue, nesting, Dumpable, dumpValue] using h
    | null | bool | float | str => simp [reprValue, nesting]
  | succ room ih =>
    cases v with
    | int n => simpa [reprValue, nesting, Dumpable, dumpValue] using h
    | null | bool | float | str => simp [reprValue, nesting]
    | arr items =>
      cases depth with
      | zero => simp [reprValue, nesting]
      | succ depth =>
        have hitems : (∃ t, reprItems depth items = .ok t) ↔ nestingItems items ≤ depth := by
          rw [reprItems_ok_iff, nestingItems_le]
          exact forall₂_congr fun v hv => ih (dumpable_arr.mp h v hv)
        simp only [reprValue, nesting, Nat.succ_le_succ_iff, ← hitems]
        cases reprItems depth items <;> simp [Except.map]
    | obj members =>
      cases depth with
      | zero => simp [reprValue, nesting]
      | succ depth =>
        have hmembers : (∃ t, reprMembers depth members = .ok t) ↔
            nestingMembers members ≤ depth := by
          rw [reprMembers_ok_iff, nestingMembers_le]
          exact forall₂_congr fun m hm => ih (dumpable_obj.mp h m hm)
        simp only [reprValue, nesting, Nat.succ_le_succ_iff, ← hmembers]
        cases reprMembers depth members <;> simp [Except.map]

/-- `str` writes a value that `json` can print unless it is nested too deep. -/
theorem pyStr_ok_iff {style : DumpStyle} {room : Nat} {v : Json} (h : Dumpable style room v) :
    (∃ t, pyStr v = .ok t) ↔ nesting v ≤ Runtime.reprDepth := by
  cases v with
  | str s => simp [pyStr, nesting]
  | null | bool | int | float | arr | obj => exact reprValue_ok_iff h

end RtlsStream.Python
