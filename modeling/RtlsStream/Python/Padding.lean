/-
  Python/Padding.lean --- texts with white space around them.

  `strip` undoes any padding of a text that neither starts nor ends with white space
  (`strip_padded`), and a trimmed text is what `strip` leaves (`trimmed_strip`).  Fields
  joined by a separator come apart again where they were joined (`split_joined`), so
  padded fields are read back as the fields.
-/
import RtlsStream.Python.Text

set_option autoImplicit false

namespace RtlsStream.Python

/-! ## Trimmed texts -/

/-- The text neither starts nor ends with white space. -/
def Trimmed (s : Str) : Prop := strip s = s

instance (s : Str) : Decidable (Trimmed s) := inferInstanceAs (Decidable (_ = _))

/-- White space and nothing else. -/
def Blanks (s : Str) : Prop := ∀ c ∈ s, isSpace c

/-- `written` is `s` with white space around it. -/
def Padded (s written : Str) : Prop :=
  ∃ before after, Blanks before ∧ Blanks after ∧ written = before ++ (s ++ after)

theorem trimmed_nil : Trimmed [] := rfl

theorem dropWhile_blanks {before : Str} (h : Blanks before) (s : Str) :
    (before ++ s).dropWhile isSpace = s.dropWhile isSpace :=
  List.dropWhile_append_of_pos h

theorem rdropWhile_blanks {after : Str} (h : Blanks after) (s : Str) :
    (s ++ after).rdropWhile isSpace = s.rdropWhile isSpace := by
  unfold List.rdropWhile
  rw [List.reverse_append, List.dropWhile_append_of_pos fun c hc => h c (List.mem_reverse.mp hc)]

theorem strip_of_blanks {s : Str} (h : Blanks s) : strip s = [] := by
  have hdrop : s.dropWhile isSpace = [] := by simpa using dropWhile_blanks h []
  rw [strip, hdrop]
  rfl

/-- White space in front of a text makes no difference. -/
theorem strip_blanks_append {before : Str} (h : Blanks before) (s : Str) :
    strip (before ++ s) = strip s := by
  rw [strip, dropWhile_blanks h, strip]

/-- Nor does white space behind it. -/
theorem strip_append_blanks {after : Str} (h : Blanks after) (s : Str) :
    strip (s ++ after) = strip s := by
  by_cases hs : Blanks s
  · have hall : Blanks (s ++ after) := by
      intro c hc
      exact (List.mem_append.mp hc).elim (hs c) (h c)
    rw [strip_of_blanks hall, strip_of_blanks hs]
  · have hne : s.dropWhile isSpace ≠ [] := by
      intro hnil
      exact hs (List.dropWhile_eq_nil_iff.mp hnil)
    rw [strip, List.dropWhile_append, if_neg (by simpa using hne), rdropWhile_blanks h, strip]

/-- Stripping a padded text strips the text. -/
theorem strip_padded {s written : Str} (h : Padded s written) : strip written = strip s := by
  obtain ⟨before, after, hbefore, hafter, rfl⟩ := h
  rw [strip_blanks_append hbefore, strip_append_blanks hafter]

/-- Every text is its stripped form with white space around it. -/
theorem padded_strip (s : Str) : Padded (strip s) s := by
  refine ⟨s.takeWhile isSpace, (s.dropWhile isSpace).rtakeWhile isSpace, ?_, ?_, ?_⟩
  · exact fun c hc => List.mem_takeWhile_imp hc
  · exact fun c hc => List.mem_rtakeWhile_imp hc
  · rw [strip, List.rdropWhile_append_rtakeWhile, List.takeWhile_append_dropWhile]

/-- What is left after stripping is trimmed. -/
theorem trimmed_strip (s : Str) : Trimmed (strip s) := (strip_padded (padded_strip s)).symm

/-- Nothing is dropped from a trimmed text. -/
theorem Trimmed.dropWhile_eq {s : Str} (h : Trimmed s) :
    s.dropWhile isSpace = s ∧ s.reverse.dropWhile isSpace = s.reverse := by
  have hprefix := (List.rdropWhile_prefix isSpace (s.dropWhile isSpace)).length_le
  have hstrip : ((s.dropWhile isSpace).rdropWhile isSpace).length = s.length :=
    congrArg List.length h
  have hdrop : s.dropWhile isSpace = s :=
    (List.dropWhile_sublist isSpace).eq_of_length_le (by omega)
  refine ⟨hdrop, ?_⟩
  have hback : s.rdropWhile isSpace = s := by
    have hstripped : (s.dropWhile isSpace).rdropWhile isSpace = s := h
    rwa [hdrop] at hstripped
  rw [← hback, List.rdropWhile, List.reverse_reverse, List.dropWhile_idempotent]

/-- A text without white space is trimmed. -/
theorem trimmed_of_no_space {s : Str} (h : ∀ c ∈ s, isSpace c = false) : Trimmed s := by
  obtain ⟨before, after, hbefore, hafter, heq⟩ := padded_strip s
  have hnone : ∀ t : Str, (∀ c ∈ t, c ∈ s) → Blanks t → t = [] := by
    intro t hmem hblank
    refine List.eq_nil_iff_forall_not_mem.mpr ?_
    intro c hc
    have hspace := hblank c hc
    rw [h c (hmem c hc)] at hspace
    cases hspace
  have hfront : before = [] := hnone before (fun c hc => by rw [heq]; simp [hc]) hbefore
  have hback : after = [] := hnone after (fun c hc => by rw [heq]; simp [hc]) hafter
  rw [hfront, hback, List.nil_append, List.append_nil] at heq
  exact heq.symm

theorem mem_dropWhile {p : CodePoint → Bool} {s : Str} {c : CodePoint} (hc : c ∈ s)
    (hp : p c = false) : c ∈ s.dropWhile p := by
  rw [← List.takeWhile_append_dropWhile (p := p) (l := s)] at hc
  rcases List.mem_append.mp hc with hc | hc
  · rw [List.mem_takeWhile_imp hc] at hp
    cases hp
  · exact hc

theorem mem_rdropWhile {p : CodePoint → Bool} {s : Str} {c : CodePoint} (hc : c ∈ s)
    (hp : p c = false) : c ∈ s.rdropWhile p :=
  List.mem_reverse.mpr (mem_dropWhile (List.mem_reverse.mpr hc) hp)

/-- Stripping keeps what is no white space. -/
theorem mem_strip {s : Str} {c : CodePoint} (hc : c ∈ s) (hspace : isSpace c = false) :
    c ∈ strip s :=
  mem_rdropWhile (mem_dropWhile hc hspace) hspace

/-- Dropping stops at a text that starts with what is kept. -/
theorem dropWhile_append_stop {p : CodePoint → Bool} {core : Str} (hne : core ≠ [])
    (hhead : ∀ c ∈ core.head?, p c = false) (before : Str) :
    (before ++ core).dropWhile p = before.dropWhile p ++ core := by
  have hcore : core.dropWhile p = core := by
    obtain ⟨c, tail, rfl⟩ := List.exists_cons_of_ne_nil hne
    exact List.dropWhile_cons_of_neg (by simpa using hhead c rfl)
  rw [List.dropWhile_append, hcore]
  split
  · rename_i hempty
    rw [List.isEmpty_iff.mp hempty, List.nil_append]
  · rfl

theorem rdropWhile_append_stop {p : CodePoint → Bool} {core : Str} (hne : core ≠ [])
    (hlast : ∀ c ∈ core.getLast?, p c = false) (after : Str) :
    (core ++ after).rdropWhile p = core ++ after.rdropWhile p := by
  have hstop : (after.reverse ++ core.reverse).dropWhile p =
      after.reverse.dropWhile p ++ core.reverse :=
    dropWhile_append_stop (by simpa using hne) (by simpa using hlast) after.reverse
  rw [List.rdropWhile, List.reverse_append, hstop]
  simp [List.rdropWhile]

/-- Stripping stops at the ends of a text that starts and ends with no white space. -/
theorem strip_append {core : Str} (hne : core ≠ []) (hhead : ∀ c ∈ core.head?, isSpace c = false)
    (hlast : ∀ c ∈ core.getLast?, isSpace c = false) (before after : Str) :
    strip (before ++ (core ++ after)) =
      before.dropWhile isSpace ++ (core ++ after.rdropWhile isSpace) := by
  have hhead' : ∀ c ∈ (core ++ after).head?, isSpace c = false := by
    obtain ⟨c, tail, rfl⟩ := List.exists_cons_of_ne_nil hne
    exact hhead
  have hlast' : ∀ c ∈ (before.dropWhile isSpace ++ core).getLast?, isSpace c = false := by
    rwa [List.getLast?_append_of_ne_nil _ hne]
  rw [strip, dropWhile_append_stop (by simp [hne]) hhead', ← List.append_assoc,
    rdropWhile_append_stop (by simp [hne]) hlast', List.append_assoc]

/-- What nothing is dropped from stays as it is where less is dropped. -/
theorem dropWhile_self_of_imp {p q : CodePoint → Bool} (himp : ∀ c, q c → p c) {s : Str}
    (h : s.dropWhile p = s) : s.dropWhile q = s := by
  rw [List.dropWhile_eq_self_iff] at h ⊢
  exact fun hne hq => h hne (himp _ hq)

/-! ## Joined fields -/

/-- `sep.join(fields)` -/
def joined (sep : CodePoint) (fields : List Str) : Str := [sep].intercalate fields

theorem split_joined {sep : CodePoint} {fields : List Str} (hne : fields ≠ [])
    (h : ∀ field ∈ fields, sep ∉ field) : split sep (joined sep fields) = fields :=
  List.splitOn_intercalate sep h hne

/-- What stands behind the last separator grows with the text. -/
theorem split_append {sep : CodePoint} {more : Str} (h : sep ∉ more) (s : Str) :
    ∃ init last, split sep s = init ++ [last] ∧ split sep (s ++ more) = init ++ [last ++ more] := by
  have hsplit : ∀ c (t : Str), split sep (c :: t) =
      if c = sep then [] :: split sep t else (split sep t).modifyHead (c :: ·) := by
    intro c t
    simp only [split, List.splitOn, List.splitOnP_cons_eq_if_modifyHead, beq_iff_eq]
  induction s with
  | nil =>
    refine ⟨[], [], rfl, ?_⟩
    rw [List.nil_append, split, List.splitOn, List.splitOnP_eq_singleton]
    · rfl
    · intro c hc
      rw [beq_eq_false_iff_ne]
      rintro rfl
      exact h hc
  | cons c rest ih =>
    obtain ⟨init, last, hshort, hlong⟩ := ih
    rw [List.cons_append, hsplit, hsplit, hshort, hlong]
    by_cases hc : c = sep
    · exact ⟨[] :: init, last, by simp [hc], by simp [hc]⟩
    · cases init with
      | nil => exact ⟨[], c :: last, by simp [hc], by simp [hc]⟩
      | cons first others => exact ⟨(c :: first) :: others, last, by simp [hc], by simp [hc]⟩

/-- Stripped fields do not change with white space at the end of the text. -/
theorem map_strip_split {sep : CodePoint} (hsep : isSpace sep = false) {after : Str}
    (h : Blanks after) (s : Str) :
    (split sep (s ++ after)).map strip = (split sep s).map strip := by
  have hnone : sep ∉ after := by
    intro hmem
    rw [h sep hmem] at hsep
    cases hsep
  obtain ⟨init, last, hshort, hlong⟩ := split_append hnone s
  rw [hshort, hlong]
  simp [strip_append_blanks h]

/-- Splitting at the first separator. -/
theorem splitFirst_append {sep : CodePoint} {front : Str} (h : sep ∉ front) (back : Str) :
    splitFirst sep (front ++ sep :: back) = (front, back) := by
  have hfront : ∀ c ∈ front, decide (c ≠ sep) = true := by
    intro c hc
    simp only [decide_eq_true_eq]
    rintro rfl
    exact h hc
  unfold splitFirst
  rw [List.takeWhile_append_of_pos hfront, List.dropWhile_append_of_pos hfront]
  simp

/-- White space around a text goes to the outer ends of its two parts. -/
theorem splitFirst_strip {sep : CodePoint} (hsep : isSpace sep = false) {s : Str} (h : sep ∈ s) :
    strip (splitFirst sep (strip s)).1 = strip (splitFirst sep s).1 ∧
      ∀ sep', isSpace sep' = false → (split sep' (splitFirst sep (strip s)).2).map strip =
        (split sep' (splitFirst sep s).2).map strip := by
  obtain ⟨before, after, hbefore, hafter, heq⟩ := padded_strip s
  obtain ⟨front, back, hstrip, hfront⟩ := List.eq_append_cons_of_mem (mem_strip h hsep)
  have hfront' : sep ∉ before ++ front := by
    intro hmem
    rcases List.mem_append.mp hmem with hmem | hmem
    · exact absurd (hbefore sep hmem) (by simp [hsep])
    · exact hfront hmem
  have hsplit : splitFirst sep s = (before ++ front, back ++ after) := by
    rw [heq, hstrip]
    simpa using splitFirst_append hfront' (back ++ after)
  rw [hsplit, hstrip, splitFirst_append hfront back]
  refine ⟨(strip_blanks_append hbefore front).symm, ?_⟩
  intro sep' hsep'
  exact (map_strip_split hsep' hafter back).symm

end RtlsStream.Python
