/-
  StreamHandler/PackedCoordinates.lean --- three coordinates in one field.

  Where the three fields are not all numbers, `_extract_xyz_from_tokens` looks for three
  numerals in the first of them.  The scan takes each numeral whole, as what separates
  them neither continues nor starts one (`finds_packed`); and a field with three numerals
  and something between them is not itself a number (`parseFloatText_packed`), so the
  scan is reached whatever the other fields hold.
-/
import RtlsStream.StreamHandler.DisplayArea
import RtlsStream.StreamHandler.Reported

set_option autoImplicit false

namespace RtlsStream.StreamHandler

open RtlsStream.Foundation RtlsStream.Python LS1000Parser

section

variable [Runtime]

/-! ## Fields with three numerals -/

/-- A decimal numeral, and the double nearest to it. -/
def SpellsCoord (x : Binary64) (s : Str) : Prop :=
  ∃ sign digits fraction, CoordText sign digits fraction ∧ s = sign ++ digits ++ fraction ∧
    x = coordValue sign digits fraction

/-- No digits, signs, points, commas or underscores. -/
def Separating (s : Str) : Prop := ∀ c ∈ s, isDigit c = false ∧ c ∉ [43, 45, 46, 44, 95]

instance (s : Str) : Decidable (Separating s) :=
  inferInstanceAs (Decidable (∀ c ∈ s, isDigit c = false ∧ c ∉ [43, 45, 46, 44, 95]))

/-- Three numerals with something between them, and maybe something around them. -/
def Packed (x y z : Binary64) (s : Str) : Prop :=
  ∃ before s₁ a s₂ b s₃ after, Separating before ∧ SpellsCoord x s₁ ∧
    (Separating a ∧ a ≠ []) ∧ SpellsCoord y s₂ ∧ (Separating b ∧ b ≠ []) ∧ SpellsCoord z s₃ ∧
    Separating after ∧ s = before ++ (s₁ ++ (a ++ (s₂ ++ (b ++ s₃))) ++ after)

/-! ## The scan -/

/-- The scan of the text finds these numerals. -/
def Finds (s : Str) (coords : List Str) : Prop :=
  ∀ fuel, s.length ≤ fuel → findCoords fuel s = coords

/-- No numeral starts with what separates them. -/
theorem matchCoord_separating {c : CodePoint} {rest : Str}
    (h : isDigit c = false ∧ c ∉ [43, 45, 46, 44, 95]) : matchCoord (c :: rest) = none := by
  obtain ⟨hdigit, hmem⟩ := h
  simp only [List.mem_cons, not_or] at hmem
  unfold matchCoord
  split
  rename_i sign unsigned hsign
  split at hsign
  · rename_i heq
    exact absurd (List.cons.inj heq).1 hmem.1
  · rename_i heq
    exact absurd (List.cons.inj heq).1 hmem.2.1
  · obtain ⟨rfl, rfl⟩ := Prod.mk.inj hsign
    simp [hdigit]

theorem Finds.skip {a s : Str} {coords : List Str} (ha : Separating a) (h : Finds s coords) :
    Finds (a ++ s) coords := by
  induction a with
  | nil => exact h
  | cons c rest ih =>
    intro fuel hfuel
    cases fuel with
    | zero => simp at hfuel
    | succ fuel =>
      rw [List.cons_append, findCoords, matchCoord_separating (ha c List.mem_cons_self)]
      refine ih (fun c' hc' => ha c' (List.mem_cons_of_mem c hc')) fuel ?_
      simpa using hfuel

theorem finds_separating {a : Str} (ha : Separating a) : Finds a [] := by
  have hnil : Finds [] [] := by
    intro fuel _
    cases fuel <;> rfl
  simpa using hnil.skip ha

/-- What comes behind a numeral does not go on with it. -/
def Ends (rest : Str) : Prop := ∀ c ∈ rest.head?, isDigit c = false ∧ c ≠ 46

/-- A numeral is matched whole. -/
theorem matchCoord_append {sign digits fraction rest : Str} (h : CoordText sign digits fraction)
    (hrest : Ends rest) :
    matchCoord (sign ++ digits ++ fraction ++ rest) = some (sign ++ digits ++ fraction, rest) := by
  have hend : ∀ c ∈ rest.head?, isDigit c = false := fun c hc => (hrest c hc).1
  have hbehind : ∀ c ∈ (fraction ++ rest).head?, isDigit c = false := by
    rcases h.fraction with rfl | ⟨fs, -, -, rfl⟩
    · exact hend
    · intro c hc
      obtain rfl : 46 = c := by simpa using hc
      rfl
  obtain ⟨htake, hdrop⟩ := takeWhile_run h.digits.2 hbehind
  rw [List.append_assoc, List.append_assoc]
  unfold matchCoord
  split
  rename_i sign' unsigned hsplit
  obtain ⟨rfl, rfl⟩ : sign = sign' ∧ digits ++ (fraction ++ rest) = unsigned := by
    rcases h.sign with rfl | rfl | rfl
    · -- no digit is a sign
      obtain ⟨d, ds, rfl⟩ := List.exists_cons_of_ne_nil h.digits.1
      have hd : isDigit d := h.digits.2 d List.mem_cons_self
      rw [List.nil_append] at hsplit
      split at hsplit
      · rename_i heq
        rw [(List.cons.inj heq).1] at hd
        cases hd
      · rename_i heq
        rw [(List.cons.inj heq).1] at hd
        cases hd
      · exact Prod.mk.inj hsplit
    · exact Prod.mk.inj hsplit
    · exact Prod.mk.inj hsplit
  simp only [htake, hdrop, if_neg h.digits.1]
  rcases h.fraction with rfl | ⟨fs, hne, hfs, rfl⟩
  · rw [List.nil_append]
    split
    · exact absurd rfl (hrest 46 rfl).2
    · simp
  · obtain ⟨htake', hdrop'⟩ := takeWhile_run hfs hend
    simp [htake', hdrop', hne]

theorem Finds.coord {s rest : Str} {x : Binary64} {coords : List Str} (hs : SpellsCoord x s)
    (hrest : Ends rest) (h : Finds rest coords) : Finds (s ++ rest) (s :: coords) := by
  obtain ⟨sign, digits, fraction, htext, rfl, -⟩ := hs
  have hmatch := matchCoord_append htext hrest
  have hne : sign ++ digits ++ fraction ≠ [] := by simp [htext.digits.1]
  generalize sign ++ digits ++ fraction = s at hmatch hne
  obtain ⟨c, tail, rfl⟩ := List.exists_cons_of_ne_nil hne
  intro fuel hfuel
  cases fuel with
  | zero => simp at hfuel
  | succ fuel =>
    have hroom : rest.length ≤ fuel := by
      simp only [List.cons_append, List.length_cons, List.length_append] at hfuel
      omega
    rw [List.cons_append] at hmatch ⊢
    rw [findCoords, hmatch]
    simp only [h fuel hroom]

theorem ends_separating {a rest : Str} (ha : Separating a) (hne : a ≠ []) : Ends (a ++ rest) := by
  obtain ⟨c, tail, rfl⟩ := List.exists_cons_of_ne_nil hne
  intro c' hc'
  obtain rfl : c = c' := by simpa using hc'
  obtain ⟨hdigit, hmem⟩ := ha c List.mem_cons_self
  simp only [List.mem_cons, not_or] at hmem
  exact ⟨hdigit, hmem.2.2.1⟩

/-- The scan finds the three numerals and nothing else. -/
theorem finds_packed {x y z : Binary64} {s : Str} (h : Packed x y z s) :
    ∃ s₁ s₂ s₃, Finds s [s₁, s₂, s₃] ∧ SpellsCoord x s₁ ∧ SpellsCoord y s₂ ∧ SpellsCoord z s₃ := by
  obtain ⟨before, s₁, a, s₂, b, s₃, after, hbefore, h₁, ha, h₂, hb, h₃, hafter, rfl⟩ := h
  refine ⟨s₁, s₂, s₃, ?_, h₁, h₂, h₃⟩
  have hends : Ends after := by
    cases after with
    | nil => simp [Ends]
    | cons c tail => exact List.append_nil (c :: tail) ▸ ends_separating hafter (by simp)
  have hlast := (finds_separating hafter).coord h₃ hends
  have hsecond := (hlast.skip hb.1).coord h₂ (ends_separating hb.1 hb.2)
  have hfirst := (hsecond.skip ha.1).coord h₁ (ends_separating ha.1 ha.2)
  simpa using hfirst.skip hbefore

/-! ## The field is not a number -/

theorem not_isSpace_of_isDigit {c : CodePoint} (h : isDigit c) : isSpace c = false := by
  obtain ⟨d, hd⟩ := Option.isSome_iff_exists.mp h
  exact not_isSpace_of_decimalDigit hd

/-- A numeral starts and ends with no white space. -/
theorem SpellsCoord.ends {x : Binary64} {s : Str} (h : SpellsCoord x s) :
    s ≠ [] ∧ (∀ c ∈ s.head?, isSpace c = false) ∧ ∀ c ∈ s.getLast?, isSpace c = false := by
  obtain ⟨sign, digits, fraction, htext, rfl, -⟩ := h
  obtain ⟨hne, hdigits⟩ := htext.digits
  refine ⟨by simp [hne], ?_, ?_⟩
  · rcases htext.sign with rfl | rfl | rfl
    · rw [List.nil_append, List.head?_append_of_ne_nil _ hne]
      exact fun c hc => not_isSpace_of_isDigit (hdigits c (List.mem_of_mem_head? hc))
    · simp [isSpace]
    · simp [isSpace]
  · rcases htext.fraction with rfl | ⟨fs, hne', hfs, rfl⟩
    · rw [List.append_nil, List.getLast?_append_of_ne_nil _ hne]
      exact fun c hc => not_isSpace_of_isDigit (hdigits c (List.mem_of_getLast? hc))
    · rw [List.getLast?_append_of_ne_nil _ (by simp), List.getLast?_cons_of_ne_nil hne']
      exact fun c hc => not_isSpace_of_isDigit (hfs c (List.mem_of_getLast? hc))

theorem Packed.strip {x y z : Binary64} {s : Str} (h : Packed x y z s) : Packed x y z (strip s) := by
  obtain ⟨before, s₁, a, s₂, b, s₃, after, hbefore, h₁, ha, h₂, hb, h₃, hafter, rfl⟩ := h
  obtain ⟨hne₁, hhead, -⟩ := h₁.ends
  obtain ⟨hne₃, -, hlast⟩ := h₃.ends
  have hhead' : ∀ c ∈ (s₁ ++ (a ++ (s₂ ++ (b ++ s₃)))).head?, isSpace c = false := by
    rwa [List.head?_append_of_ne_nil _ hne₁]
  have hlast' : ∀ c ∈ (s₁ ++ (a ++ (s₂ ++ (b ++ s₃)))).getLast?, isSpace c = false := by
    simp only [← List.append_assoc]
    rwa [List.getLast?_append_of_ne_nil _ hne₃]
  rw [strip_append (by simp [hne₁]) hhead' hlast']
  refine ⟨before.dropWhile isSpace, s₁, a, s₂, b, s₃, after.rdropWhile isSpace, ?_, h₁, ha, h₂, hb,
    h₃, ?_, by simp⟩
  · exact fun c hc => hbefore c ((List.dropWhile_sublist isSpace).mem hc)
  · exact fun c hc => hafter c ((List.rdropWhile_prefix isSpace _).sublist.mem hc)

/-- Of what separates numerals nothing becomes part of one. -/
theorem isMark_separating {a : Str} (ha : Separating a) : ∀ c ∈ toAsciiNumeral a, isMark c := by
  intro c hc
  obtain ⟨c', hc', rfl⟩ := List.mem_map.mp hc
  obtain ⟨hdigit, hmem⟩ := ha c' hc'
  simp only [List.mem_cons, not_or] at hmem
  have hnone : decimalDigit c' = none := by simpa [isDigit] using hdigit
  split
  · rename_i hascii
    have hnot : isAsciiDigit c' = false := by
      rw [decimalDigit, if_pos hascii] at hnone
      simp [isAsciiDigit, hnone]
    simp [isMark, hnot, hmem.1, hmem.2.1, hmem.2.2.1]
  · rw [hnone]
    split <;> rfl

theorem countP_separating {a : Str} (ha : Separating a) (hne : a ≠ []) :
    1 ≤ (toAsciiNumeral a).countP isMark := by
  rw [List.countP_eq_length.mpr (isMark_separating ha), toAsciiNumeral, List.length_map]
  exact List.length_pos_iff.mpr hne

theorem Packed.marks {x y z : Binary64} {s : Str} (h : Packed x y z s) :
    2 ≤ (toAsciiNumeral s).countP isMark := by
  obtain ⟨before, s₁, a, s₂, b, s₃, after, -, -, ha, -, hb, -, -, rfl⟩ := h
  have hfirst := countP_separating ha.1 ha.2
  have hsecond := countP_separating hb.1 hb.2
  simp only [toAsciiNumeral_append, List.countP_append]
  omega

/-- A digit of the numeral becomes an ASCII digit. -/
theorem Packed.digit {x y z : Binary64} {s : Str} (h : Packed x y z s) :
    ∃ c ∈ toAsciiNumeral s, isAsciiDigit c := by
  obtain ⟨before, _, a, s₂, b, s₃, after, -, ⟨sign, digits, fraction, htext, rfl, -⟩, -, -, -, -, -,
    rfl⟩ := h
  obtain ⟨d, hd⟩ := List.exists_mem_of_ne_nil _ htext.digits.1
  obtain ⟨n, hn⟩ := Option.isSome_iff_exists.mp (htext.digits.2 d hd)
  have hmem : n + 48 ∈ toAsciiNumeral digits := by
    obtain ⟨front, back, rfl⟩ := List.append_of_mem hd
    rw [← List.singleton_append, toAsciiNumeral_append, toAsciiNumeral_append,
      toAsciiNumeral_digit hn]
    simp
  refine ⟨n + 48, ?_, by simp [isAsciiDigit, asciiDigit_add (decimalDigit_lt hn)]⟩
  simp only [toAsciiNumeral_append, List.mem_append]
  tauto

/-- The characters of a numeral. -/
theorem SpellsCoord.chars {x : Binary64} {s : Str} (h : SpellsCoord x s) :
    ∀ c ∈ s, isDigit c ∨ c = 43 ∨ c = 45 ∨ c = 46 := by
  obtain ⟨sign, digits, fraction, htext, rfl, -⟩ := h
  intro c hc
  rcases List.mem_append.mp hc with hc | hc
  · rcases List.mem_append.mp hc with hc | hc
    · rcases htext.sign with rfl | rfl | rfl <;> simp at hc <;> simp [hc]
    · exact Or.inl (htext.digits.2 c hc)
  · rcases htext.fraction with rfl | ⟨fs, -, hfs, rfl⟩
    · cases hc
    · rcases List.mem_cons.mp hc with rfl | hc
      · simp
      · exact Or.inl (hfs c hc)

theorem Packed.no_underscore {x y z : Binary64} {s : Str} (h : Packed x y z s) :
    (95 : Nat) ∉ toAsciiNumeral s := by
  obtain ⟨before, s₁, a, s₂, b, s₃, after, hbefore, h₁, ha, h₂, hb, h₃, hafter, rfl⟩ := h
  have hgap : ∀ {t : Str}, Separating t → (95 : Nat) ∉ t := fun ht hmem => (ht 95 hmem).2 (by simp)
  have hcoord : ∀ {x t}, SpellsCoord x t → (95 : Nat) ∉ t := by
    intro x t ht hmem
    rcases ht.chars 95 hmem with hdigit | h | h | h
    · cases hdigit
    all_goals cases h
  intro hmem
  have hmem' := underscore_of_toAsciiNumeral hmem
  simp only [List.mem_append, hgap hbefore, hgap ha.1, hgap hb.1, hgap hafter, hcoord h₁,
    hcoord h₂, hcoord h₃, or_self] at hmem'

/-- The reading as three fields fails in the first. -/
theorem parseFloatText_packed {x y z : Binary64} {s : Str} (h : Packed x y z s) :
    parseFloatText s = none := by
  have hstrip := h.strip
  unfold parseFloatText
  simp only
  split
  · rfl
  · refine floatOfText_eq_none ?_ ?_ ?_ <;> rw [numeral_strip]
    · exact hstrip.no_underscore
    · exact hstrip.digit
    · exact hstrip.marks

/-! ## The coordinates -/

/-- Three numerals in a field are the coordinates, whatever the other fields hold. -/
theorem extractXyzFromTokens_packed {tokens : List Str} {start : Nat} {x y z : Binary64}
    (h : Packed x y z (token tokens start)) :
    extractXyzFromTokens tokens start = .ok ⟨some x, some y, some z⟩ := by
  obtain ⟨c, hc⟩ := extractXyzFromTokens_returns tokens start
  obtain ⟨s₁, s₂, s₃, hfinds, h₁, h₂, h₃⟩ := finds_packed h
  have hcoords := hfinds _ le_rfl
  have hread : ∀ {x s}, SpellsCoord x s → floatOfText s = some x := by
    rintro x s ⟨sign, digits, fraction, htext, rfl, rfl⟩
    exact floatOfText_coord htext
  rw [hc]
  obtain ⟨hthree, -⟩ | ⟨-, ⟨t₁, t₂, t₃, rest, hfound, ⟨-, hx⟩, ⟨-, hy⟩, -, hz⟩ | ⟨hfew, -⟩⟩ :=
    extractXyzFromTokens_cases hc
  · have hnumber := hthree.2 start (by simp)
    rw [parseFloatText_packed h] at hnumber
    cases hnumber
  · obtain ⟨rfl, rfl, rfl, -⟩ : s₁ = t₁ ∧ s₂ = t₂ ∧ s₃ = t₃ ∧ [] = rest := by
      simpa using hcoords.symm.trans hfound
    rw [hread h₁] at hx
    rw [hread h₂] at hy
    rw [hread h₃] at hz
    cases c
    simp_all
  · exact absurd hcoords (hfew s₁ s₂ s₃ [])

omit [Runtime] in
/-- The fields of a message that is stripped first are those of the message, stripped. -/
theorem token_fieldsOf_strip {s field : Str} {i : Nat}
    (h : (split 44 (splitFirst 58 s).2)[i]? = some field) (hi : 0 < i) :
    token (fieldsOf (Python.strip s)) i = Python.strip field := by
  have hcolon : (58 : Nat) ∈ s := by
    by_contra hnone
    have hall : ∀ c ∈ s, decide (c ≠ 58) = true := by
      intro c hc
      simp only [decide_eq_true_eq]
      rintro rfl
      exact hnone hc
    have hempty : s.dropWhile (· ≠ 58) = [] := List.dropWhile_eq_nil_iff.mpr hall
    rw [splitFirst, hempty] at h
    simp [split, hi.ne'] at h
  have hfields := (splitFirst_strip rfl hcolon).2 44 rfl
  rw [fieldsOf, hfields, token, List.getD_eq_getElem?_getD, List.getElem?_map, h]
  rfl

/-- Three numerals in field 5 of a `display` message are its coordinates, and it has no
area. -/
theorem packed_coordinates {s field : Str} {x y z : Binary64}
    (hfield : (split 44 (splitFirst 58 s).2)[5]? = some field) (hpacked : Packed x y z field) :
    extractXyzFromTokens (fieldsOf (Python.strip s)) 5 = .ok ⟨some x, some y, some z⟩ ∧
      ∀ e, parseMessage ⟨⟩ s = .ok (.ok e) → e.sourceType = BaseType.display.name →
        e.x = some x ∧ e.y = some y ∧ e.z = some z ∧ e.area = none := by
  have htoken := token_fieldsOf_strip hfield (by decide)
  have hplace := extractXyzFromTokens_packed (htoken ▸ hpacked.strip)
  refine ⟨hplace, fun e h hdisplay => ?_⟩
  obtain ⟨p, hp, hx, hy, hz, harea⟩ := place_of_parseDisplay (parseDisplay_of_sourceType h hdisplay)
  obtain rfl := Except.ok.inj (hplace.symm.trans hp)
  exact ⟨hx, hy, hz, harea⟩

end

section Examples

attribute [local instance] asciiRuntime

/-- A point in brackets, with fields behind it that are no numbers. -/
def bracketed : Str := text "display:1,00A320,0,1000,1,(3.5;-4 / 0),hall,7"

theorem packed_coordinates_bracketed :
    ∃ e, parseMessage ⟨⟩ bracketed = .ok (.ok e) ∧
      e.x = some (coordValue [] (text "3") (text ".5")) ∧
      e.y = some (coordValue (text "-") (text "4") []) ∧ e.z = some (coordValue [] (text "0") []) ∧
      e.area = none := by
  have hparsed : ((parseMessage ⟨⟩ bracketed).toOption.bind Except.toOption).map (·.sourceType) =
      some BaseType.display.name := by decide +kernel
  obtain ⟨e, hevent, hdisplay⟩ := exists_event hparsed
  have hfield : (split 44 (splitFirst 58 bracketed).2)[5]? = some (text "(3.5;-4 / 0)") := by
    decide +kernel
  have hx : SpellsCoord (coordValue [] (text "3") (text ".5")) (text "3.5") :=
    ⟨_, _, _, ⟨by simp, by decide, Or.inr ⟨text "5", by decide, by decide, rfl⟩⟩, rfl, rfl⟩
  have hy : SpellsCoord (coordValue (text "-") (text "4") []) (text "-4") :=
    ⟨_, _, _, ⟨by decide, by decide, Or.inl rfl⟩, rfl, rfl⟩
  have hz : SpellsCoord (coordValue [] (text "0") []) (text "0") :=
    ⟨_, _, _, ⟨by simp, by decide, Or.inl rfl⟩, rfl, rfl⟩
  have hpacked : Packed _ _ _ (text "(3.5;-4 / 0)") :=
    ⟨text "(", _, text ";", _, text " / ", _, text ")", by decide, hx, by decide, hy, by decide, hz,
      by decide, rfl⟩
  exact ⟨e, hevent, (packed_coordinates hfield hpacked).2 e hevent hdisplay⟩

end Examples

end RtlsStream.StreamHandler
