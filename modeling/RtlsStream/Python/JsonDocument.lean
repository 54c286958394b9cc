/-
  Python/JsonDocument.lean --- facts about every document `json.loads` accepts.

  They are read off the grammar of `Python.JsonGrammar`: a document is read the same
  without the white space around it (`decodeDocument_strip`), no document contains a
  NUL (`nul_notMem_of_decode`), and in every object that is read the keys are
  distinct (`wellKeyed_of_decode`).
-/
import RtlsStream.Python.JsonGrammar

set_option autoImplicit false

namespace RtlsStream.Python

open RtlsStream.Foundation

variable [Runtime]

/-! ## White space around a document -/

omit [Runtime] in
theorem Units.ends {c : Str} {us : List (CodePoint × Bool)} (h : Units c us) : [34] <:+ c := by
  induction h with
  | close => exact List.suffix_refl _
  | plain _ _ _ _ ih => exact ih.trans (List.suffix_cons _ _)
  | @escape x _ t _ _ _ ih => exact ih.trans (List.suffix_append [92, x] t)
  | @unicode h₁ h₂ h₃ h₄ _ t _ _ _ ih => exact ih.trans (List.suffix_append [92, 117, h₁, h₂, h₃, h₄] t)

theorem Items.ends {depth : Nat} {c : Str} {items : List Json} :
    Items depth c items → [93] <:+ c
  | @Items.last _ _ c ws _ _ _ => (List.suffix_append ws [93]).trans (List.suffix_append c _)
  | @Items.more _ _ c ws ws' c' _ _ _ _ _ hrest => by
    have hcons := (hrest.ends.trans (List.suffix_append ws' c')).trans (List.suffix_cons 44 _)
    exact (hcons.trans (List.suffix_append ws _)).trans (List.suffix_append c _)

theorem Members.ends {depth : Nat} {before members : Dict Json} {c : Str} :
    Members depth before c members → [125] <:+ c
  | @Members.last _ _ _ k _ ws₁ ws₂ c ws₃ _ _ _ _ _ _ => by
    have hclose := (List.suffix_append ws₃ [125]).trans (List.suffix_append c _)
    have hvalue := (hclose.trans (List.suffix_append ws₂ _)).trans (List.suffix_cons 58 _)
    exact ((hvalue.trans (List.suffix_append ws₁ _)).trans (List.suffix_append k _)).trans
      (List.suffix_cons 34 _)
  | @Members.more _ _ _ _ k _ ws₁ ws₂ c ws₃ ws₄ c' _ _ _ _ _ _ _ hrest => by
    have hmore := (hrest.ends.trans (List.suffix_append ws₄ c')).trans (List.suffix_cons 44 _)
    have hclose := (hmore.trans (List.suffix_append ws₃ _)).trans (List.suffix_append c _)
    have hvalue := (hclose.trans (List.suffix_append ws₂ _)).trans (List.suffix_cons 58 _)
    exact ((hvalue.trans (List.suffix_append ws₁ _)).trans (List.suffix_append k _)).trans
      (List.suffix_cons 34 _)

omit [Runtime] in
theorem NumberText.ends {sign integer fraction exponent : Str}
    (h : NumberText sign integer fraction exponent) :
    ∃ z, [z] <:+ sign ++ integer ++ fraction ++ exponent ∧ isAsciiDigit z := by
  have hdigits : ∀ ds : Str, Digits ds → ∃ z, [z] <:+ ds ∧ isAsciiDigit z := by
    intro ds hds
    refine ⟨ds.getLast hds.1, ⟨ds.dropLast, List.dropLast_append_getLast hds.1⟩, ?_⟩
    exact hds.2 _ (List.getLast_mem hds.1)
  rcases h.exponent with rfl | ⟨e, s, ds, -, -, hds, rfl⟩
  · rcases h.fraction with rfl | ⟨ds, hds, rfl⟩
    · rcases h.integer with rfl | ⟨hds, -⟩
      · exact ⟨48, by simp, by decide⟩
      · obtain ⟨z, hz, hdigit⟩ := hdigits integer hds
        exact ⟨z, by simpa using hz.trans (List.suffix_append sign integer), hdigit⟩
    · obtain ⟨z, hz, hdigit⟩ := hdigits ds hds
      refine ⟨z, ?_, hdigit⟩
      rw [List.append_nil]
      exact (hz.trans (List.suffix_cons 46 ds)).trans (List.suffix_append _ _)
  · obtain ⟨z, hz, hdigit⟩ := hdigits ds hds
    refine ⟨z, ?_, hdigit⟩
    exact ((hz.trans (List.suffix_append s ds)).trans (List.suffix_cons e _)).trans
      (List.suffix_append _ _)

/-- A value ends with a character that is no white space. -/
theorem Value.ends {depth : Nat} {c : Str} {v : Json} (h : Value depth c v) :
    ∃ z, [z] <:+ c ∧ isSpace z = false := by
  cases h with
  | string hbody =>
    obtain ⟨us, hunits, -⟩ := hbody
    exact ⟨34, hunits.ends.trans (List.suffix_cons 34 _), by decide⟩
  | keyword hword =>
    simp only [keywords, List.mem_cons, Prod.mk.injEq, List.not_mem_nil, or_false] at hword
    rcases hword with h | h | h | h | h | h <;> rw [h.1]
    · exact ⟨108, ⟨text "nul", rfl⟩, by decide⟩
    · exact ⟨101, ⟨text "tru", rfl⟩, by decide⟩
    · exact ⟨101, ⟨text "fals", rfl⟩, by decide⟩
    · exact ⟨78, ⟨text "Na", rfl⟩, by decide⟩
    · exact ⟨121, ⟨text "Infinit", rfl⟩, by decide⟩
    · exact ⟨121, ⟨text "-Infinit", rfl⟩, by decide⟩
  | number htext _ =>
    obtain ⟨z, hz, hdigit⟩ := htext.ends
    exact ⟨z, hz, (digit_opens_nothing hdigit).1⟩
  | @emptyArray _ ws _ =>
    exact ⟨93, (List.suffix_append ws [93]).trans (List.suffix_cons 91 _), by decide⟩
  | @emptyObject _ ws _ =>
    exact ⟨125, (List.suffix_append ws [125]).trans (List.suffix_cons 123 _), by decide⟩
  | @array _ ws c _ _ hitems =>
    exact ⟨93, (hitems.ends.trans (List.suffix_append ws c)).trans (List.suffix_cons 91 _), by decide⟩
  | @object _ ws c _ _ hmembers =>
    exact ⟨125, (hmembers.ends.trans (List.suffix_append ws c)).trans (List.suffix_cons 123 _),
      by decide⟩

omit [Runtime] in
theorem isSpace_of_isJsonSpace {a : CodePoint} (h : isJsonSpace a) : isSpace a := by
  simp only [isJsonSpace, Bool.or_eq_true, beq_iff_eq] at h
  rcases h with ((rfl | rfl) | rfl) | rfl <;> decide

omit [Runtime] in
/-- Stripping takes the white space around a text that neither starts nor ends with any. -/
theorem strip_eq {ws c ws' : Str} (hws : Space ws) (hws' : Space ws') {a z : CodePoint} {t : Str}
    (hhead : c = a :: t) (ha : isSpace a = false) (hlast : [z] <:+ c) (hz : isSpace z = false) :
    strip (ws ++ (c ++ ws')) = c := by
  have hdrop : (ws ++ (c ++ ws')).dropWhile isSpace = c ++ ws' := by
    rw [List.dropWhile_append_of_pos fun d hd => isSpace_of_isJsonSpace (hws d hd), hhead]
    simp [ha]
  obtain ⟨front, rfl⟩ := hlast
  unfold strip
  rw [hdrop, List.rdropWhile, List.reverse_append,
    List.dropWhile_append_of_pos fun d hd => isSpace_of_isJsonSpace (hws' d (List.mem_reverse.mp hd))]
  simp [hz]

/-- White space around a document makes no difference. -/
theorem decodeDocument_strip {s : Str} {v : Json} (h : decodeDocument s = .ok v) :
    decodeDocument (strip s) = .ok v := by
  obtain ⟨ws, c, ws', rfl, hws, hws', hvalue⟩ := decodeDocument_sound h
  obtain ⟨a, t, hhead, ha, -⟩ := hvalue.head
  obtain ⟨z, hlast, hz⟩ := hvalue.ends
  rw [strip_eq hws hws' hhead ha hlast hz]
  simpa using decodeDocument_complete space_nil space_nil hvalue

/-- An object starts with its brace. -/
theorem Value.brace {depth : Nat} {c : Str} {members : Dict Json}
    (h : Value depth c (.obj members)) : ∃ t, c = 123 :: t := by
  cases h with
  | emptyObject | object => exact ⟨_, rfl⟩
  | keyword hword => simp [keywords] at hword
  | number _ hvalue =>
    unfold numberValue at hvalue
    split at hvalue <;> split at hvalue <;> cases hvalue

/-- A value that starts with a brace is an object. -/
theorem Value.of_brace {depth : Nat} {t : Str} {v : Json} (h : Value depth (123 :: t) v) :
    ∃ members, v = .obj members := by
  generalize hc : (123 :: t : Str) = c at h
  cases h with
  | emptyObject | object => exact ⟨_, rfl⟩
  | string | emptyArray | array => simp at hc
  | keyword hword =>
    obtain ⟨a, u, hword', -, -, -, -, hbrace, -⟩ := keyword_head hword
    rw [hword'] at hc
    exact absurd (List.cons.inj hc).1.symm hbrace
  | number htext =>
    obtain ⟨a, u, heq, ha⟩ := htext.head
    rw [heq] at hc
    obtain rfl := (List.cons.inj hc).1
    rcases ha with ha | ha
    · cases ha
    · exact absurd ha (by decide)

theorem decodeDocument_of_loads {s : Str} {v : Json} (h : loads s = .ok v) :
    decodeDocument s = .ok v := by
  unfold loads at h
  split at h
  · cases h
  · exact h

/-- What is read from a text that starts with a brace is an object. -/
theorem obj_of_loads_brace {s : Str} {v : Json} (hhead : s.head? = some 123)
    (h : loads s = .ok v) : ∃ members, v = .obj members := by
  obtain ⟨ws, c, ws', rfl, hws, -, hvalue⟩ := decodeDocument_sound (decodeDocument_of_loads h)
  obtain ⟨a, t, rfl, -⟩ := hvalue.head
  cases ws with
  | nil =>
    obtain rfl : a = 123 := by simpa using hhead
    exact hvalue.of_brace
  | cons b ws =>
    obtain rfl : b = 123 := by simpa using hhead
    exact absurd (hws 123 (by simp)) (by decide)

/-- A document that is an object starts with its brace, but for white space. -/
theorem strip_of_decode_obj {s : Str} {members : Dict Json}
    (h : decodeDocument s = .ok (.obj members)) : ∃ t, strip s = 123 :: t := by
  obtain ⟨ws, c, ws', rfl, hws, hws', hvalue⟩ := decodeDocument_sound h
  obtain ⟨t, rfl⟩ := hvalue.brace
  obtain ⟨z, hlast, hz⟩ := hvalue.ends
  exact ⟨t, strip_eq hws hws' rfl (by decide) hlast hz⟩

/-! ## No NUL -/

omit [Runtime] in
theorem Space.nul {ws : Str} (h : Space ws) : 0 ∉ ws := by
  intro hmem
  simpa [isJsonSpace] using h 0 hmem

omit [Runtime] in
theorem Units.nul {c : Str} {us : List (CodePoint × Bool)} (h : Units c us) : 0 ∉ c := by
  induction h with
  | close => decide
  | @plain c _ _ _ hlo _ _ ih =>
    have hc : (0 : Nat) ≠ c := (Nat.zero_lt_of_lt hlo).ne
    simp [hc, ih]
  | @escape x _ _ _ hx _ ih =>
    have hne : 0 ≠ x := by
      rintro rfl
      simp [simpleEscape] at hx
    simp [hne, ih]
  | @unicode h₁ h₂ h₃ h₄ _ _ _ hu _ ih =>
    have hdigit : asciiHexDigit 0 = none := by decide
    have hne : 0 ≠ h₁ ∧ 0 ≠ h₂ ∧ 0 ≠ h₃ ∧ 0 ≠ h₄ := by
      refine ⟨?_, ?_, ?_, ?_⟩ <;> rintro rfl <;> simp [hex4, hdigit] at hu
    simp [hne, ih]

omit [Runtime] in
theorem StringBody.nul {c s : Str} (h : StringBody c s) : 0 ∉ c := by
  obtain ⟨us, hunits, -⟩ := h
  exact hunits.nul

omit [Runtime] in
theorem Digits.nul {ds : Str} (h : Digits ds) : 0 ∉ ds := by
  intro hmem
  simpa [isAsciiDigit, asciiDigit] using h.2 0 hmem

omit [Runtime] in
theorem NumberText.nul {sign integer fraction exponent : Str}
    (h : NumberText sign integer fraction exponent) :
    0 ∉ sign ++ integer ++ fraction ++ exponent := by
  have hsign : 0 ∉ sign := by rcases h.sign with rfl | rfl <;> decide
  have hinteger : 0 ∉ integer := by
    rcases h.integer with rfl | ⟨hds, -⟩
    · decide
    · exact hds.nul
  have hfraction : 0 ∉ fraction := by
    rcases h.fraction with rfl | ⟨ds, hds, rfl⟩
    · decide
    · simp [hds.nul]
  have hexponent : 0 ∉ exponent := by
    rcases h.exponent with rfl | ⟨e, s, ds, he, hs, hds, rfl⟩
    · decide
    · have hs' : 0 ∉ s := by rcases hs with rfl | rfl | rfl <;> decide
      have he' : 0 ≠ e := by rcases he with rfl | rfl <;> decide
      simp [he', hs', hds.nul]
  simp [hsign, hinteger, hfraction, hexponent]

mutual

theorem Value.nul {depth : Nat} {c : Str} {v : Json} : Value depth c v → 0 ∉ c
  | .string hbody => by simp [hbody.nul]
  | .keyword hword => by
    simp only [keywords, List.mem_cons, Prod.mk.injEq, List.not_mem_nil, or_false] at hword
    rcases hword with h | h | h | h | h | h <;> rw [h.1] <;> decide
  | .number htext _ => htext.nul
  | .emptyArray hws => by simp [hws.nul]
  | .array hws hitems => by simp [hws.nul, hitems.nul]
  | .emptyObject hws => by simp [hws.nul]
  | .object hws hmembers => by simp [hws.nul, hmembers.nul]

theorem Items.nul {depth : Nat} {c : Str} {items : List Json} : Items depth c items → 0 ∉ c
  | .last hvalue hws => by simp [hvalue.nul, hws.nul]
  | .more hvalue hws hws' hrest => by simp [hvalue.nul, hws.nul, hws'.nul, hrest.nul]

theorem Members.nul {depth : Nat} {before members : Dict Json} {c : Str} :
    Members depth before c members → 0 ∉ c
  | .last hkey h₁ h₂ hvalue h₃ => by simp [hkey.nul, h₁.nul, h₂.nul, hvalue.nul, h₃.nul]
  | .more hkey h₁ h₂ hvalue h₃ h₄ hrest => by
    simp [hkey.nul, h₁.nul, h₂.nul, hvalue.nul, h₃.nul, h₄.nul, hrest.nul]

end

/-- A document that is read contains no NUL. -/
theorem nul_notMem_of_decode {s : Str} {v : Json} (h : decodeDocument s = .ok v) : 0 ∉ s := by
  obtain ⟨ws, c, ws', rfl, hws, hws', hvalue⟩ := decodeDocument_sound h
  simp [hws.nul, hws'.nul, hvalue.nul]

/-! ## Distinct keys -/

mutual

/-- In every object the keys are distinct. -/
def WellKeyed : Json → Prop
  | .arr items => WellKeyedItems items
  | .obj members => Dict.Distinct members ∧ WellKeyedMembers members
  | _ => True

def WellKeyedItems : List Json → Prop
  | [] => True
  | v :: rest => WellKeyed v ∧ WellKeyedItems rest

def WellKeyedMembers : List (Str × Json) → Prop
  | [] => True
  | m :: rest => WellKeyed m.2 ∧ WellKeyedMembers rest

end

omit [Runtime] in
theorem wellKeyedItems_iff {items : List Json} :
    WellKeyedItems items ↔ ∀ v ∈ items, WellKeyed v := by
  induction items with
  | nil => simp [WellKeyedItems]
  | cons v rest ih => simp [WellKeyedItems, ih]

omit [Runtime] in
theorem wellKeyedMembers_iff {members : List (Str × Json)} :
    WellKeyedMembers members ↔ ∀ m ∈ members, WellKeyed m.2 := by
  induction members with
  | nil => simp [WellKeyedMembers]
  | cons m rest ih => simp [WellKeyedMembers, ih]

omit [Runtime] in
theorem WellKeyedMembers.set {members : Dict Json} {v : Json} (h : WellKeyedMembers members)
    (hv : WellKeyed v) (k : Str) : WellKeyedMembers (members.set k v) := by
  induction members with
  | nil => exact ⟨hv, trivial⟩
  | cons m rest ih =>
    obtain ⟨hm, hrest⟩ := h
    simp only [Dict.set]
    split
    · exact ⟨hv, hrest⟩
    · exact ⟨hm, ih hrest⟩

mutual

theorem Value.wellKeyed {depth : Nat} {c : Str} {v : Json} : Value depth c v → WellKeyed v
  | .string _ => trivial
  | .keyword hword => by
    simp only [keywords, List.mem_cons, Prod.mk.injEq, List.not_mem_nil, or_false] at hword
    rcases hword with h | h | h | h | h | h <;> rw [h.2] <;> trivial
  | .number _ hvalue => by
    unfold numberValue at hvalue
    split at hvalue
    · split at hvalue <;> cases hvalue
      trivial
    · split at hvalue <;> cases hvalue
      trivial
  | .emptyArray _ => trivial
  | .array _ hitems => hitems.wellKeyed
  | .emptyObject _ => ⟨List.nodup_nil, trivial⟩
  | .object _ hmembers => hmembers.wellKeyed ⟨List.nodup_nil, trivial⟩

theorem Items.wellKeyed {depth : Nat} {c : Str} {items : List Json} :
    Items depth c items → WellKeyedItems items
  | .last hvalue _ => ⟨hvalue.wellKeyed, trivial⟩
  | .more hvalue _ _ hrest => ⟨hvalue.wellKeyed, hrest.wellKeyed⟩

theorem Members.wellKeyed {depth : Nat} {before members : Dict Json} {c : Str} :
    Members depth before c members → WellKeyed (.obj before) → WellKeyed (.obj members)
  | .last _ _ _ hvalue _, h => ⟨h.1.set _ _, h.2.set hvalue.wellKeyed _⟩
  | .more _ _ _ hvalue _ _ hrest, h =>
    hrest.wellKeyed ⟨h.1.set _ _, h.2.set hvalue.wellKeyed _⟩

end

/-- Every object that is read has distinct keys. -/
theorem wellKeyed_of_decode {s : Str} {v : Json} (h : decodeDocument s = .ok v) : WellKeyed v := by
  obtain ⟨_, _, _, _, _, _, hvalue⟩ := decodeDocument_sound h
  exact hvalue.wellKeyed

end RtlsStream.Python
