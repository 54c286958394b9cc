/-
  Foundation/Ties.lean --- prefixes of listings that leave ties open.

  `ORDER BY key DESC` allows every permutation of the rows that is sorted by the key.
  Two such listings may differ in how they order rows of one key, so their first
  `cut` rows need not be the same rows.  They are, unless the rows of one key lie on
  both sides of the cut (`take_perm`); and if they do, some two listings put one of
  these rows before the cut and another one behind it (`Straddled.swap`).
-/
import Mathlib.Data.List.Sort
import Mathlib.Data.List.Perm.Basic

set_option autoImplicit false

namespace RtlsStream.Foundation

variable {α κ : Type*} [LinearOrder κ] {key : α → κ} {rows L L' : List α}

/-- A listing of the rows with the largest key first. -/
structure Listed (key : α → κ) (rows L : List α) : Prop where
  perm : L.Perm rows
  sorted : L.Pairwise fun a b => key b ≤ key a

/-- Listings differ in the rows only, not in the keys. -/
theorem Listed.keys_eq (hL : Listed key rows L) (hL' : Listed key rows L') :
    L.map key = L'.map key := by
  have hsorted : ∀ {L : List α}, Listed key rows L → (L.map key).Pairwise (· ≥ ·) :=
    fun h => List.pairwise_map.mpr h.sorted
  exact List.Perm.eq_of_pairwise (fun _ _ _ _ hab hba => le_antisymm hba hab) (hsorted hL)
    (hsorted hL') ((hL.perm.trans hL'.perm.symm).map key)

/-- The rows of some key lie on both sides of the cut. -/
def Straddled (key : α → κ) (rows : List α) (cut : Nat) : Prop :=
  ∃ v, rows.countP (v < key ·) < cut ∧ cut < rows.countP (v ≤ key ·)

theorem exists_listed (key : α → κ) (rows : List α) : ∃ L, Listed key rows L := by
  refine ⟨rows.mergeSort (fun a b => decide (key b ≤ key a)), List.mergeSort_perm _ _, ?_⟩
  have hsorted : (rows.mergeSort fun a b => decide (key b ≤ key a)).Pairwise
      fun a b => decide (key b ≤ key a) = true :=
    List.pairwise_mergeSort (by simpa using fun a b c hab hbc => le_trans hbc hab)
      (by simpa using fun a b => le_total (key b) (key a)) rows
  simpa using hsorted

/-- Behind a row that is not selected nothing is. -/
theorem none_of_head {p : α → Bool} {a : α} {rest : List α}
    (hup : ∀ a b, key b ≤ key a → p b = true → p a = true) (hfirst : ∀ b ∈ rest, key b ≤ key a)
    (ha : p a = false) : ∀ b ∈ rest, ¬ p b = true := by
  intro b hb hpb
  rw [hup a b (hfirst b hb) hpb] at ha
  cases ha

/-- What an upward closed set of keys selects stands at the front of a listing. -/
theorem filter_eq_take {p : α → Bool} (hsorted : L.Pairwise fun a b => key b ≤ key a)
    (hup : ∀ a b, key b ≤ key a → p b = true → p a = true) :
    L.filter p = L.take (L.countP p) := by
  induction L with
  | nil => rfl
  | cons a rest ih =>
    obtain ⟨hfirst, hrest⟩ := List.pairwise_cons.mp hsorted
    cases ha : p a with
    | true => simp [ha, ih hrest]
    | false =>
      have hnone := none_of_head hup hfirst ha
      simp [ha, List.filter_eq_nil_iff.mpr hnone, List.countP_eq_zero.mpr hnone]

/-- The rows at the front are those that are selected. -/
theorem lt_countP_iff {p : α → Bool} (hsorted : L.Pairwise fun a b => key b ≤ key a)
    (hup : ∀ a b, key b ≤ key a → p b = true → p a = true) {i : Nat} (hi : i < L.length) :
    i < L.countP p ↔ p L[i] = true := by
  induction L generalizing i with
  | nil => simp at hi
  | cons a rest ih =>
    obtain ⟨hfirst, hrest⟩ := List.pairwise_cons.mp hsorted
    cases i with
    | zero =>
      cases ha : p a with
      | true => simp [ha]
      | false => simp [ha, List.countP_eq_zero.mpr (none_of_head hup hfirst ha)]
    | succ i =>
      have hi' : i < rest.length := by simpa using hi
      have htail := ih hrest hi'
      cases ha : p a with
      | true => simpa [ha] using htail
      | false =>
        have hnone := none_of_head hup hfirst ha
        simp [ha, List.countP_eq_zero.mpr hnone, hnone _ (List.getElem_mem hi')]

/-- Where a cut splits no key, every listing has the same rows before it. -/
theorem take_perm {cut : Nat} (hL : Listed key rows L) (hL' : Listed key rows L')
    (hcut : ¬ Straddled key rows cut) : (L.take cut).Perm (L'.take cut) := by
  rcases Nat.eq_zero_or_pos cut with rfl | hpos
  · simp
  rcases Nat.lt_or_ge cut L.length with hlt | hge
  · -- the last row before the cut names the key above which everything is selected
    have hi : cut - 1 < L.length := by omega
    let v := key L[cut - 1]
    have habove : rows.countP (v < key ·) < cut := by
      have hnot : ¬ cut - 1 < L.countP (v < key ·) := by
        rw [lt_countP_iff hL.sorted (by simpa using fun a b hab hb => lt_of_lt_of_le hb hab) hi]
        simp [v]
      rw [hL.perm.countP_eq] at hnot
      omega
    have hup : ∀ a b, key b ≤ key a → decide (v ≤ key b) = true → decide (v ≤ key a) = true := by
      simpa using fun a b hab hb => le_trans hb hab
    have hcount : rows.countP (v ≤ key ·) = cut := by
      have hfront : cut - 1 < L.countP (v ≤ key ·) := by
        rw [lt_countP_iff hL.sorted hup hi]
        simp [v]
      rw [hL.perm.countP_eq] at hfront
      have hsame : ¬ cut < rows.countP (v ≤ key ·) := fun hbelow => hcut ⟨v, habove, hbelow⟩
      omega
    have hfilter := filter_eq_take hL.sorted hup
    have hfilter' := filter_eq_take hL'.sorted hup
    rw [hL.perm.countP_eq, hcount] at hfilter
    rw [hL'.perm.countP_eq, hcount] at hfilter'
    rw [← hfilter, ← hfilter']
    exact (hL.perm.trans hL'.perm.symm).filter _
  · have hge' : L'.length ≤ cut := by rwa [(hL'.perm.trans hL.perm.symm).length_eq]
    rw [List.take_of_length_le hge, List.take_of_length_le hge']
    exact hL.perm.trans hL'.perm.symm

/-- Where a cut splits a key, the two rows next to it may change places. -/
theorem Straddled.swap {cut : Nat} (h : Straddled key rows cut) :
    ∃ front a b back, front.length + 1 = cut ∧ Listed key rows (front ++ a :: b :: back) ∧
      Listed key rows (front ++ b :: a :: back) := by
  obtain ⟨v, habove, hbelow⟩ := h
  obtain ⟨L, hL⟩ := exists_listed key rows
  rw [← hL.perm.countP_eq] at habove hbelow
  have hlength : cut < L.length := hbelow.trans_le List.countP_le_length
  have hpred : cut - 1 < L.length := by omega
  have hupLt : ∀ a b, key b ≤ key a → decide (v < key b) = true → decide (v < key a) = true := by
    simpa using fun a b hab hb => lt_of_lt_of_le hb hab
  have hupLe : ∀ a b, key b ≤ key a → decide (v ≤ key b) = true → decide (v ≤ key a) = true := by
    simpa using fun a b hab hb => le_trans hb hab
  -- both rows next to the cut have the key
  have hbefore : key L[cut - 1] = v := by
    have hnot : ¬ v < key L[cut - 1] := by
      simpa using (lt_countP_iff hL.sorted hupLt hpred).not.mp (by omega)
    have hat : v ≤ key L[cut - 1] := by
      simpa using (lt_countP_iff hL.sorted hupLe hpred).mp (by omega)
    exact le_antisymm (not_lt.mp hnot) hat
  have hbehind : key L[cut] = v := by
    have hnot : ¬ v < key L[cut] := by
      simpa using (lt_countP_iff hL.sorted hupLt hlength).not.mp (by omega)
    have hat : v ≤ key L[cut] := by
      simpa using (lt_countP_iff hL.sorted hupLe hlength).mp hbelow
    exact le_antisymm (not_lt.mp hnot) hat
  have hsplit : L = L.take (cut - 1) ++ L[cut - 1] :: L[cut] :: L.drop (cut + 1) := by
    have hsucc : cut - 1 + 1 = cut := by omega
    have hdrop : L.drop (cut - 1) = L[cut - 1] :: L[cut] :: L.drop (cut + 1) := by
      rw [List.drop_eq_getElem_cons hpred, hsucc, List.drop_eq_getElem_cons hlength]
    rw [← hdrop, List.take_append_drop]
  rw [hsplit] at hL
  refine ⟨L.take (cut - 1), L[cut - 1], L[cut], L.drop (cut + 1), ?_, hL, ?_, ?_⟩
  · rw [List.length_take]
    omega
  · exact ((List.Perm.swap ..).append_left _).trans hL.perm
  · have hsorted := hL.sorted
    simp only [List.pairwise_append, List.pairwise_cons, List.mem_cons, forall_eq_or_imp,
      hbefore, hbehind] at hsorted ⊢
    obtain ⟨hfront, ⟨⟨-, ha⟩, hb, hback⟩, hcross⟩ := hsorted
    exact ⟨hfront, ⟨⟨le_rfl, hb⟩, ha, hback⟩,
      fun x hx => ⟨(hcross x hx).2.1, (hcross x hx).1, (hcross x hx).2.2⟩⟩

end RtlsStream.Foundation
