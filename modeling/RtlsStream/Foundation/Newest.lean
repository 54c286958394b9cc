/-
  Foundation/Newest.lean --- the register that keeps the newest value it is given.

  A register holds at most one value; a new value replaces the old one unless its
  key is strictly smaller.  Folding a list of writes through an empty register
  leaves the LAST of the values with the LARGEST key (`newest_eq_some_iff`).  From
  that characterisation follow the facts a replicated or retried writer needs:
  the register never goes back (`key_le_keepNewest`) and, where no two
  values share a key, its content depends only on WHICH values were written,
  neither on their order nor on how often (`newest_congr`).
-/
import Mathlib.Order.Basic
import Mathlib.Data.List.Induction
import Mathlib.Data.Set.Function

set_option autoImplicit false

namespace RtlsStream.Foundation

variable {α κ : Type*} [LinearOrder κ]

/-- Write `a` to the register unless what it holds is strictly newer. -/
def keepNewest (key : α → κ) : Option α → α → Option α
  | none, a => some a
  | some held, a => if key held ≤ key a then some a else some held

/-- What an empty register holds after the writes of a list, in order. -/
def newest (key : α → κ) (writes : List α) : Option α :=
  writes.foldl (keepNewest key) none

/-- `a` is the last of the elements of `writes` whose key is the largest. -/
def LastOfLargest (key : α → κ) (writes : List α) (a : α) : Prop :=
  ∃ before after, writes = before ++ a :: after ∧
    (∀ b ∈ before, key b ≤ key a) ∧ ∀ b ∈ after, key b < key a

@[simp] theorem newest_nil (key : α → κ) : newest key [] = none := rfl

@[simp] theorem newest_concat (key : α → κ) (writes : List α) (a : α) :
    newest key (writes ++ [a]) = keepNewest key (newest key writes) a := by
  simp [newest]

/-- A register that was just written to holds something. -/
@[simp] theorem keepNewest_isSome (key : α → κ) (held : Option α) (a : α) :
    (keepNewest key held a).isSome := by
  cases held with
  | none => rfl
  | some b => simp only [keepNewest]; split <;> rfl

/-- What a register holds after a write is what was written or what it held. -/
theorem keepNewest_cases {key : α → κ} {held : Option α} {a b : α}
    (h : keepNewest key held a = some b) : b = a ∨ held = some b := by
  cases held with
  | none => exact Or.inl (Option.some.inj h).symm
  | some c =>
    simp only [keepNewest] at h
    split at h
    · exact Or.inl (Option.some.inj h).symm
    · exact Or.inr h

/-- A write leaves nothing older than what was written. -/
theorem key_le_keepNewest {key : α → κ} {held : Option α} {a b : α}
    (h : keepNewest key held a = some b) : key a ≤ key b := by
  cases held with
  | none => rw [Option.some.inj h]
  | some c =>
    simp only [keepNewest] at h
    split at h
    · rw [Option.some.inj h]
    · rename_i hlt
      rw [← Option.some.inj h]
      exact (not_le.mp hlt).le

/-- A write leaves nothing older than what was held. -/
theorem held_le_keepNewest {key : α → κ} {a b c : α}
    (h : keepNewest key (some c) a = some b) : key c ≤ key b := by
  simp only [keepNewest] at h
  split at h
  · rename_i hle
    rwa [← Option.some.inj h]
  · rw [Option.some.inj h]

/-- The register is empty only before the first write. -/
theorem newest_eq_none_iff {key : α → κ} {writes : List α} :
    newest key writes = none ↔ writes = [] := by
  cases writes using List.reverseRecOn with
  | nil => simp
  | append_singleton front a =>
    have hsome := keepNewest_isSome key (newest key front) a
    simp only [newest_concat, List.append_eq_nil_iff, List.cons_ne_self, and_false, iff_false]
    intro hnone
    simp [hnone] at hsome

/-- A register that was written to holds something. -/
theorem exists_newest {key : α → κ} {writes : List α} (h : writes ≠ []) :
    ∃ a, newest key writes = some a :=
  Option.ne_none_iff_exists'.mp (mt newest_eq_none_iff.mp h)

theorem LastOfLargest.mem {key : α → κ} {writes : List α} {a : α}
    (h : LastOfLargest key writes a) : a ∈ writes := by
  obtain ⟨before, after, rfl, -, -⟩ := h
  simp

theorem LastOfLargest.key_le {key : α → κ} {writes : List α} {a b : α}
    (h : LastOfLargest key writes a) (hb : b ∈ writes) : key b ≤ key a := by
  obtain ⟨before, after, rfl, hbefore, hafter⟩ := h
  simp only [List.mem_append, List.mem_cons] at hb
  rcases hb with hb | rfl | hb
  · exact hbefore b hb
  · exact le_rfl
  · exact (hafter b hb).le

/-- A write that the guard lets through becomes the last of the largest. -/
theorem lastOfLargest_concat {key : α → κ} {writes : List α} {a : α}
    (h : ∀ b ∈ writes, key b ≤ key a) : LastOfLargest key (writes ++ [a]) a :=
  ⟨writes, [], by simp, h, by simp⟩

/-- A write that the guard stops leaves the last of the largest in place. -/
theorem LastOfLargest.concat {key : α → κ} {writes : List α} {a b : α}
    (h : LastOfLargest key writes a) (hb : key b < key a) :
    LastOfLargest key (writes ++ [b]) a := by
  obtain ⟨before, after, rfl, hbefore, hafter⟩ := h
  refine ⟨before, after ++ [b], by simp, hbefore, ?_⟩
  intro c hc
  simp only [List.mem_append, List.mem_singleton] at hc
  rcases hc with hc | rfl
  · exact hafter c hc
  · exact hb

/-- The last of the largest among the writes with a property, as a split of all
the writes. -/
theorem LastOfLargest.of_filter {key : α → κ} {p : α → Bool} {writes : List α} {a : α}
    (h : LastOfLargest key (writes.filter p) a) :
    ∃ before after, writes = before ++ a :: after ∧ p a ∧
      (∀ b ∈ before, p b → key b ≤ key a) ∧ ∀ b ∈ after, p b → key b < key a := by
  obtain ⟨kept, keptAfter, hsplit, hbefore, hafter⟩ := h
  obtain ⟨front, back, rfl, rfl, hback⟩ := List.filter_eq_append_iff.mp hsplit
  obtain ⟨skipped, after, rfl, hskipped, hpa, rfl⟩ := List.filter_eq_cons_iff.mp hback
  refine ⟨front ++ skipped, after, by simp, hpa, ?_, ?_⟩
  · intro b hb hpb
    rcases List.mem_append.mp hb with hb | hb
    · exact hbefore b (List.mem_filter.mpr ⟨hb, hpb⟩)
    · exact absurd hpb (hskipped b hb)
  · intro b hb hpb
    exact hafter b (List.mem_filter.mpr ⟨hb, hpb⟩)

/-- The register holds the last of the largest of what was written to it. -/
theorem newest_lastOfLargest {key : α → κ} {writes : List α} {a : α}
    (h : newest key writes = some a) : LastOfLargest key writes a := by
  induction writes using List.reverseRecOn generalizing a with
  | nil => simp at h
  | append_singleton writes b ih =>
    rw [newest_concat] at h
    cases hheld : newest key writes with
    | none =>
      rw [hheld] at h
      have hempty : writes = [] := newest_eq_none_iff.mp hheld
      have hab : b = a := Option.some.inj h
      subst hab hempty
      exact lastOfLargest_concat (by simp)
    | some held =>
      rw [hheld] at h
      simp only [keepNewest] at h
      have hlast := ih hheld
      split at h
      · rename_i hle
        have hab : b = a := Option.some.inj h
        subst hab
        exact lastOfLargest_concat fun c hc => (hlast.key_le hc).trans hle
      · rename_i hlt
        have hheldEq : held = a := Option.some.inj h
        subst hheldEq
        exact hlast.concat (not_le.mp hlt)

/-- The last of the largest is unique, so it is what the register holds. -/
theorem newest_eq_some_iff {key : α → κ} {writes : List α} {a : α} :
    newest key writes = some a ↔ LastOfLargest key writes a := by
  refine ⟨newest_lastOfLargest, ?_⟩
  intro h
  obtain ⟨held, hheld⟩ : ∃ held, newest key writes = some held :=
    exists_newest (List.ne_nil_of_mem h.mem)
  rw [hheld]
  have hheld' := newest_lastOfLargest hheld
  have hkey : key held = key a :=
    le_antisymm (h.key_le hheld'.mem) (hheld'.key_le h.mem)
  obtain ⟨before, after, rfl, -, hafter⟩ := h
  obtain ⟨before', after', hsplit, -, hafter'⟩ := hheld'
  -- of two split points the later one lies strictly after the earlier
  rcases List.append_eq_append_iff.mp hsplit with ⟨gap, rfl, hgap⟩ | ⟨gap, rfl, hgap⟩
  · cases gap with
    | nil => simp at hgap; rw [hgap.1]
    | cons c gap =>
      simp only [List.cons_append, List.cons.injEq] at hgap
      have hmem : held ∈ after := by rw [hgap.2]; simp
      exact absurd hkey (hafter held hmem).ne
  · cases gap with
    | nil => simp at hgap; rw [hgap.1]
    | cons c gap =>
      simp only [List.cons_append, List.cons.injEq] at hgap
      have hmem : a ∈ after' := by rw [hgap.2]; simp
      exact absurd hkey.symm (hafter' a hmem).ne

theorem newest_mem {key : α → κ} {writes : List α} {a : α}
    (h : newest key writes = some a) : a ∈ writes :=
  (newest_lastOfLargest h).mem

theorem key_le_of_newest {key : α → κ} {writes : List α} {a b : α}
    (h : newest key writes = some a) (hb : b ∈ writes) : key b ≤ key a :=
  (newest_lastOfLargest h).key_le hb

/-- Where nothing older follows, the register holds what was written last. -/
theorem getLast?_eq_newest {key : α → κ} {writes : List α}
    (hsorted : writes.Pairwise fun a b => key a ≤ key b) : writes.getLast? = newest key writes := by
  induction writes using List.reverseRecOn with
  | nil => rfl
  | append_singleton writes a _ =>
    rw [List.getLast?_concat, newest_concat]
    cases hnewest : newest key writes with
    | none => rfl
    | some b =>
      have hle := (List.pairwise_append.mp hsorted).2.2 b (newest_mem hnewest) a (by simp)
      rw [keepNewest, if_pos hle]

/-- Every write without the property is superseded by one that has it: by a later one
that is not smaller, or by an earlier one that is strictly larger. -/
def Superseded (key : α → κ) (p : α → Prop) (writes : List α) : Prop :=
  ∀ before a after, writes = before ++ a :: after → ¬ p a →
    (∃ b ∈ before, p b ∧ key a < key b) ∨ ∃ b ∈ after, p b ∧ key a ≤ key b

/-- Whether a register holds a value with a property is decided by the writes without it. -/
theorem newest_satisfies_iff {key : α → κ} {p : α → Prop} {writes : List α} {a : α}
    (h : newest key writes = some a) : p a ↔ Superseded key p writes := by
  obtain ⟨before, after, hwrites, hbefore, hafter⟩ := newest_lastOfLargest h
  constructor
  · intro hpa front b back hsplit hpb
    rw [hwrites] at hsplit
    -- the write without the property stands before the newest one or behind it
    rcases List.append_eq_append_iff.mp hsplit with ⟨gap, rfl, hgap⟩ | ⟨gap, rfl, hgap⟩
    · cases gap with
      | nil =>
        obtain ⟨rfl, -⟩ := List.cons.inj hgap
        exact absurd hpa hpb
      | cons c gap =>
        obtain ⟨rfl, rfl⟩ := List.cons.inj hgap
        exact Or.inl ⟨a, by simp, hpa, hafter b (by simp)⟩
    · cases gap with
      | nil =>
        obtain ⟨rfl, -⟩ := List.cons.inj hgap
        exact absurd hpa hpb
      | cons c gap =>
        obtain ⟨rfl, rfl⟩ := List.cons.inj hgap
        exact Or.inr ⟨a, by simp, hpa, hbefore b (by simp)⟩
  · intro hsuperseded
    by_contra hpa
    rcases hsuperseded before a after hwrites hpa with ⟨b, hb, -, hlt⟩ | ⟨b, hb, -, hle⟩
    · exact absurd hlt (not_lt.mpr (hbefore b hb))
    · exact absurd hle (not_le.mpr (hafter b hb))

/-- Where the values written have distinct keys, order and repetition of the
writes do not matter: the register is a function of the set of values. -/
theorem newest_congr {key : α → κ} {writes writes' : List α}
    (hsame : ∀ a, a ∈ writes ↔ a ∈ writes')
    (hkey : Set.InjOn key {a | a ∈ writes}) :
    newest key writes = newest key writes' := by
  cases h : newest key writes with
  | none =>
    have hnil : writes = [] := newest_eq_none_iff.mp h
    have hnil' : writes' = [] :=
      List.eq_nil_iff_forall_not_mem.mpr fun a ha => by
        simpa [hnil] using (hsame a).mpr ha
    rw [hnil', newest_nil]
  | some a =>
    have ha : a ∈ writes := newest_mem h
    obtain ⟨b, hb⟩ : ∃ b, newest key writes' = some b :=
      exists_newest (List.ne_nil_of_mem ((hsame a).mp ha))
    have hbmem : b ∈ writes := (hsame b).mpr (newest_mem hb)
    have hkeys : key a = key b :=
      le_antisymm (key_le_of_newest hb ((hsame a).mp ha)) (key_le_of_newest h hbmem)
    rw [hb, hkey ha hbmem hkeys]

end RtlsStream.Foundation
