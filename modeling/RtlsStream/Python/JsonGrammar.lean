/-
  Python/JsonGrammar.lean --- the texts `json.loads` accepts, as a relation.

  `Value depth c v` says that the text `c` denotes the value `v` and opens at most
  `depth` containers inside each other.  The relation mentions no scanner; what
  connects the two are

      scan_sound      what a scan consumed denotes the value it returned
      scan_complete   a text that denotes a value is scanned to its end

  The second holds with any text behind that does not continue a number (`Follows`)
  and with any fuel from the length of the text on.  A document is then a value with
  white space around it (`decodeDocument_sound`, `decodeDocument_complete`).
-/
import RtlsStream.Python.JsonText
import Mathlib.Tactic.IntervalCases

set_option autoImplicit false

namespace RtlsStream.Python

open RtlsStream.Foundation

/-! ## Strings -/

/-- A text up to the closing quote, and the code units it denotes. -/
inductive Units : Str → List (CodePoint × Bool) → Prop
  | close : Units [34] []
  | plain {c : CodePoint} {t : Str} {us : List (CodePoint × Bool)} :
      c ≠ 34 → 0x1f < c → c ≠ 92 → Units t us → Units (c :: t) ((c, false) :: us)
  | escape {x u : CodePoint} {t : Str} {us : List (CodePoint × Bool)} :
      simpleEscape x = some u → Units t us → Units (92 :: x :: t) ((u, false) :: us)
  | unicode {h₁ h₂ h₃ h₄ u : CodePoint} {t : Str} {us : List (CodePoint × Bool)} :
      hex4 h₁ h₂ h₃ h₄ = some u → Units t us →
      Units (92 :: 117 :: h₁ :: h₂ :: h₃ :: h₄ :: t) ((u, true) :: us)

theorem Units.ne_nil {c : Str} {us : List (CodePoint × Bool)} (h : Units c us) : c ≠ [] := by
  cases h <;> simp

theorem scanUnits_complete {total : Nat} {opening c : Str} {us : List (CodePoint × Bool)}
    (h : Units c us) (rest : Str) : scanUnits total opening (c ++ rest) = .ok (us, rest) := by
  induction h with
  | close =>
    rw [List.cons_append, scanUnits.eq_def]
    simp
  | plain h₁ h₂ h₃ _ ih =>
    rw [List.cons_append, scanUnits.eq_def]
    simp [h₁, Nat.not_le.mpr h₂, h₃, ih, Except.map]
  | @escape x u t us hx _ ih =>
    have hne : x ≠ 117 := by
      rintro rfl
      simp [simpleEscape] at hx
    rw [List.cons_append, List.cons_append, scanUnits.eq_def]
    simp [hne, hx, ih, Except.map]
  | @unicode h₁ h₂ h₃ h₄ u t us hu ht ih =>
    obtain ⟨next, t', rfl⟩ := List.exists_cons_of_ne_nil ht.ne_nil
    simp only [List.cons_append] at ih ⊢
    rw [scanUnits.eq_def]
    simp [hu, ih, Except.map]

theorem scanUnits_sound {total : Nat} {opening s : Str} {us : List (CodePoint × Bool)}
    {rest : Str} (h : scanUnits total opening s = .ok (us, rest)) :
    ∃ c, s = c ++ rest ∧ Units c us := by
  fun_induction scanUnits total opening s generalizing us rest with
  | case1 | case3 | case4 | case6 | case7 | case9 => cases h
  | case2 =>
    obtain ⟨rfl, rfl⟩ := Prod.mk.inj (Except.ok.inj h)
    exact ⟨[34], rfl, .close⟩
  | case5 h₁ h₂ h₃ h₄ next rest' u hu _ _ ih =>
    obtain ⟨r, hr, heq⟩ := map_eq_ok.mp h
    obtain ⟨rfl, rfl⟩ := Prod.mk.inj heq
    obtain ⟨c, hc, hunits⟩ := ih hr
    exact ⟨92 :: 117 :: h₁ :: h₂ :: h₃ :: h₄ :: c, by simp [hc], .unicode hu hunits⟩
  | case8 x rest' _ _ u hu _ _ ih =>
    obtain ⟨r, hr, heq⟩ := map_eq_ok.mp h
    obtain ⟨rfl, rfl⟩ := Prod.mk.inj heq
    obtain ⟨c, hc, hunits⟩ := ih hr
    exact ⟨92 :: x :: c, by simp [hc], .escape hu hunits⟩
  | case10 c _ hquote hcontrol hbackslash ih =>
    obtain ⟨r, hr, heq⟩ := map_eq_ok.mp h
    obtain ⟨rfl, rfl⟩ := Prod.mk.inj heq
    obtain ⟨c', hc, hunits⟩ := ih hr
    exact ⟨c :: c', by simp [hc], .plain hquote (Nat.not_le.mp hcontrol) hbackslash hunits⟩

/-- A text from behind the opening quote to the closing one, and the string it denotes. -/
def StringBody (c : Str) (s : Str) : Prop := ∃ us, Units c us ∧ joinSurrogates us = s

theorem scanString_complete {total : Nat} {c s : Str} (h : StringBody c s) (rest : Str) :
    scanString total (c ++ rest) = .ok (s, rest) := by
  obtain ⟨us, hunits, rfl⟩ := h
  simp [scanString, scanUnits_complete hunits, Except.map]

theorem scanString_sound {total : Nat} {t s rest : Str}
    (h : scanString total t = .ok (s, rest)) : ∃ c, t = c ++ rest ∧ StringBody c s := by
  obtain ⟨r, hr, heq⟩ := map_eq_ok.mp h
  obtain ⟨rfl, rfl⟩ := Prod.mk.inj heq
  obtain ⟨c, hc, hunits⟩ := scanUnits_sound hr
  exact ⟨c, hc, r.1, hunits, rfl⟩

/-! ## Numbers -/

/-- Decimal digits, at least one. -/
def Digits (c : Str) : Prop := c ≠ [] ∧ ∀ d ∈ c, isAsciiDigit d

/-- The parts of a number. -/
structure NumberText (sign integer fraction exponent : Str) : Prop where
  sign : sign = [] ∨ sign = [45]
  integer : integer = [48] ∨ (Digits integer ∧ integer.head? ≠ some 48)
  fraction : fraction = [] ∨ ∃ ds, Digits ds ∧ fraction = 46 :: ds
  exponent : exponent = [] ∨ ∃ e s ds, (e = 101 ∨ e = 69) ∧ (s = [] ∨ s = [43] ∨ s = [45]) ∧
    Digits ds ∧ exponent = e :: (s ++ ds)

/-- A text that does not continue a number before it. -/
def Follows (rest : Str) : Prop :=
  ∀ c ∈ rest.head?, isAsciiDigit c = false ∧ c ≠ 46 ∧ c ≠ 101 ∧ c ≠ 69

theorem follows_nil : Follows [] := by simp [Follows]

/-- A run of what is taken ends where something else comes. -/
theorem takeWhile_run {p : CodePoint → Bool} {run rest : Str} (h : ∀ c ∈ run, p c)
    (hrest : ∀ c ∈ rest.head?, p c = false) :
    (run ++ rest).takeWhile p = run ∧ (run ++ rest).dropWhile p = rest := by
  induction run with
  | nil =>
    cases rest with
    | nil => simp
    | cons c rest =>
      have hc : p c = false := hrest c rfl
      simp [hc]
  | cons c run ih =>
    simp only [List.forall_mem_cons] at h
    obtain ⟨htake, hdrop⟩ := ih h.2
    simp [h.1, htake, hdrop]

theorem matchExponent_complete {exponent rest : Str}
    (h : exponent = [] ∨ ∃ e s ds, (e = 101 ∨ e = 69) ∧ (s = [] ∨ s = [43] ∨ s = [45]) ∧
      Digits ds ∧ exponent = e :: (s ++ ds)) (hrest : Follows rest) :
    matchExponent (exponent ++ rest) = (exponent, rest) := by
  rcases h with rfl | ⟨e, s, ds, he, hs, hds, rfl⟩
  · cases rest with
    | nil => rfl
    | cons c rest =>
      obtain ⟨-, -, h₁, h₂⟩ := hrest c rfl
      simp [matchExponent, h₁, h₂]
  · obtain ⟨htake, hdrop⟩ := takeWhile_run hds.2 fun c hc => (hrest c hc).1
    obtain ⟨d, ds', rfl⟩ := List.exists_cons_of_ne_nil hds.1
    have hd : isAsciiDigit d := hds.2 d (by simp)
    rcases hs with rfl | rfl | rfl
    · -- without a sign the first digit is taken for none either
      have hplus : d ≠ 43 := by rintro rfl; simp [isAsciiDigit, asciiDigit] at hd
      have hminus : d ≠ 45 := by rintro rfl; simp [isAsciiDigit, asciiDigit] at hd
      simp only [List.nil_append, List.cons_append] at htake hdrop ⊢
      simp only [matchExponent, he, if_true]
      split
      · rename_i heq
        exact absurd (List.cons.inj heq).1 hplus
      · rename_i heq
        exact absurd (List.cons.inj heq).1 hminus
      · simp [htake, hdrop]
    · simp only [List.cons_append, List.nil_append] at htake hdrop ⊢
      simp [matchExponent, he, htake, hdrop]
    · simp only [List.cons_append, List.nil_append] at htake hdrop ⊢
      simp [matchExponent, he, htake, hdrop]

theorem matchFraction_complete {fraction rest : Str}
    (h : fraction = [] ∨ ∃ ds, Digits ds ∧ fraction = 46 :: ds)
    (hrest : ∀ c ∈ rest.head?, isAsciiDigit c = false ∧ c ≠ 46) :
    matchFraction (fraction ++ rest) = (fraction, rest) := by
  rcases h with rfl | ⟨ds, hds, rfl⟩
  · cases rest with
    | nil => rfl
    | cons c rest =>
      have hc : c ≠ 46 := (hrest c rfl).2
      unfold matchFraction
      split
      · rename_i heq
        exact absurd (List.cons.inj heq).1 hc
      · rfl
  · obtain ⟨htake, hdrop⟩ := takeWhile_run hds.2 fun c hc => (hrest c hc).1
    simp [matchFraction, htake, hdrop, hds.1]

theorem matchInteger_complete {integer rest : Str}
    (h : integer = [48] ∨ (Digits integer ∧ integer.head? ≠ some 48))
    (hrest : ∀ c ∈ rest.head?, isAsciiDigit c = false) :
    matchInteger (integer ++ rest) = some (integer, rest) := by
  rcases h with rfl | ⟨hds, hhead⟩
  · rfl
  · obtain ⟨htake, hdrop⟩ := takeWhile_run hds.2 hrest
    obtain ⟨d, ds, rfl⟩ := List.exists_cons_of_ne_nil hds.1
    have hd : isAsciiDigit d := hds.2 d (by simp)
    have hzero : d ≠ 48 := by simpa using hhead
    simp only [List.cons_append] at htake hdrop ⊢
    simp [matchInteger, hzero, hd, htake, hdrop]

theorem NumberText.integer_head {sign integer fraction exponent : Str}
    (h : NumberText sign integer fraction exponent) :
    ∃ d ds, integer = d :: ds ∧ isAsciiDigit d := by
  rcases h.integer with rfl | ⟨hds, -⟩
  · exact ⟨48, [], rfl, by decide⟩
  · obtain ⟨d, ds, rfl⟩ := List.exists_cons_of_ne_nil hds.1
    exact ⟨d, ds, rfl, hds.2 d (by simp)⟩

theorem NumberText.integer_digits {sign integer fraction exponent : Str}
    (h : NumberText sign integer fraction exponent) : Digits integer := by
  rcases h.integer with rfl | ⟨hds, -⟩
  · exact ⟨by simp, by simp; decide⟩
  · exact hds

/-- What stands behind the fraction does not continue it. -/
theorem NumberText.behind_fraction {sign integer fraction exponent : Str}
    (h : NumberText sign integer fraction exponent) {rest : Str} (hrest : Follows rest) :
    ∀ c ∈ (exponent ++ rest).head?, isAsciiDigit c = false ∧ c ≠ 46 := by
  rcases h.exponent with hnil | ⟨e, s, ds, he, -, -, hcons⟩
  · subst hnil
    exact fun c hc => ⟨(hrest c hc).1, (hrest c hc).2.1⟩
  · subst hcons
    intro c hc
    obtain rfl : e = c := by simpa using hc
    rcases he with rfl | rfl <;> decide

/-- What stands behind the integer does not continue it. -/
theorem NumberText.behind_integer {sign integer fraction exponent : Str}
    (h : NumberText sign integer fraction exponent) {rest : Str} (hrest : Follows rest) :
    ∀ c ∈ (fraction ++ (exponent ++ rest)).head?, isAsciiDigit c = false := by
  rcases h.fraction with hnil | ⟨ds, -, hcons⟩
  · subst hnil
    exact fun c hc => (h.behind_fraction hrest c hc).1
  · subst hcons
    intro c hc
    obtain rfl : 46 = c := by simpa using hc
    decide

theorem matchNumber_complete {sign integer fraction exponent : Str}
    (h : NumberText sign integer fraction exponent) {rest : Str} (hrest : Follows rest) :
    matchNumber (sign ++ integer ++ fraction ++ exponent ++ rest) =
      some (sign ++ integer ++ fraction ++ exponent,
        decide (fraction ≠ [] ∨ exponent ≠ []), rest) := by
  have hexponent := matchExponent_complete h.exponent hrest
  have hfraction := matchFraction_complete h.fraction (h.behind_fraction hrest)
  have hinteger := matchInteger_complete h.integer (h.behind_integer hrest)
  have hassoc : sign ++ integer ++ fraction ++ exponent ++ rest =
      sign ++ (integer ++ (fraction ++ (exponent ++ rest))) := by simp
  rw [hassoc]
  unfold matchNumber
  rcases h.sign with hsign | hsign
  · subst hsign
    obtain ⟨d, ds, hcons, hd⟩ := h.integer_head
    have hminus : d ≠ 45 := by rintro rfl; simp [isAsciiDigit, asciiDigit] at hd
    subst hcons
    simp only [List.nil_append, List.cons_append] at hinteger ⊢
    split
    · rename_i heq
      exact absurd (List.cons.inj heq).1 hminus
    · simp [hinteger, hfraction, hexponent]
  · subst hsign
    simp [hinteger, hfraction, hexponent]

theorem digits_takeWhile {s : Str} (h : s.takeWhile isAsciiDigit ≠ []) :
    Digits (s.takeWhile isAsciiDigit) :=
  ⟨h, fun _ hd => List.mem_takeWhile_imp hd⟩

theorem matchExponent_sound {s exponent rest : Str} (h : matchExponent s = (exponent, rest)) :
    s = exponent ++ rest ∧ (exponent = [] ∨ ∃ e sign ds, (e = 101 ∨ e = 69) ∧
      (sign = [] ∨ sign = [43] ∨ sign = [45]) ∧ Digits ds ∧ exponent = e :: (sign ++ ds)) := by
  revert h
  fun_cases matchExponent s with
  | case1 | case2 | case4 =>
    intro h
    obtain ⟨rfl, rfl⟩ := Prod.mk.inj h
    exact ⟨rfl, Or.inl rfl⟩
  | case3 c tail he sign rest' hsign ds hds =>
    intro h
    obtain ⟨rfl, rfl⟩ := Prod.mk.inj h
    have hsplit : tail = sign ++ rest' ∧ (sign = [] ∨ sign = [43] ∨ sign = [45]) := by
      split at hsign <;> obtain ⟨rfl, rfl⟩ := Prod.mk.inj hsign <;> simp
    refine ⟨by simp [hsplit.1, ds], Or.inr ⟨c, sign, ds, he, hsplit.2, digits_takeWhile hds, ?_⟩⟩
    simp

theorem matchFraction_sound {s fraction rest : Str} (h : matchFraction s = (fraction, rest)) :
    s = fraction ++ rest ∧ (fraction = [] ∨ ∃ ds, Digits ds ∧ fraction = 46 :: ds) := by
  unfold matchFraction at h
  split at h
  · rename_i tail
    simp only at h
    split at h
    · obtain ⟨rfl, rfl⟩ := Prod.mk.inj h
      exact ⟨rfl, Or.inl rfl⟩
    · rename_i hds
      obtain ⟨rfl, rfl⟩ := Prod.mk.inj h
      exact ⟨by simp, Or.inr ⟨_, digits_takeWhile hds, rfl⟩⟩
  · obtain ⟨rfl, rfl⟩ := Prod.mk.inj h
    exact ⟨rfl, Or.inl rfl⟩

theorem matchInteger_sound {s integer rest : Str} (h : matchInteger s = some (integer, rest)) :
    s = integer ++ rest ∧ (integer = [48] ∨ (Digits integer ∧ integer.head? ≠ some 48)) := by
  cases s with
  | nil => cases h
  | cons c tail =>
    simp only [matchInteger] at h
    split at h
    · rename_i hzero
      obtain ⟨rfl, rfl⟩ := Prod.mk.inj (Option.some.inj h)
      exact ⟨by simp [hzero], Or.inl rfl⟩
    · rename_i hzero
      split at h
      · rename_i hc
        obtain ⟨rfl, rfl⟩ := Prod.mk.inj (Option.some.inj h)
        refine ⟨by simp, Or.inr ⟨digits_takeWhile (by simp [hc]), ?_⟩⟩
        simpa [hc] using hzero
      · cases h

theorem matchNumber_sound {s number rest : Str} {isFloat : Bool}
    (h : matchNumber s = some (number, isFloat, rest)) :
    ∃ sign integer fraction exponent, NumberText sign integer fraction exponent ∧
      number = sign ++ integer ++ fraction ++ exponent ∧
      isFloat = decide (fraction ≠ [] ∨ exponent ≠ []) ∧ s = number ++ rest := by
  unfold matchNumber at h
  split at h
  rename_i sign unsigned hsign
  have hsplit : s = sign ++ unsigned ∧ (sign = [] ∨ sign = [45]) := by
    split at hsign <;> obtain ⟨rfl, rfl⟩ := Prod.mk.inj hsign <;> simp
  obtain ⟨⟨integer, rest₁⟩, hinteger, heq⟩ := Option.map_eq_some_iff.mp h
  obtain ⟨rfl, hinteger'⟩ := matchInteger_sound hinteger
  rcases hf : matchFraction rest₁ with ⟨fraction, rest₂⟩
  rcases he : matchExponent rest₂ with ⟨exponent, rest₃⟩
  simp only [hf, he, Prod.mk.injEq] at heq
  obtain ⟨rfl, rfl, rfl⟩ := heq
  obtain ⟨rfl, hfraction⟩ := matchFraction_sound hf
  obtain ⟨rfl, hexponent⟩ := matchExponent_sound he
  exact ⟨sign, integer, fraction, exponent, ⟨hsplit.2, hinteger', hfraction, hexponent⟩, rfl, rfl,
    by simp [hsplit.1]⟩

/-! ## White space -/

/-- White space between tokens. -/
def Space (ws : Str) : Prop := ∀ c ∈ ws, isJsonSpace c

theorem space_nil : Space [] := by simp [Space]

theorem skipSpace_append {ws s : Str} (hws : Space ws) (hs : ∀ c ∈ s.head?, isJsonSpace c = false) :
    skipSpace (ws ++ s) = s := by
  induction ws with
  | nil =>
    cases s with
    | nil => rfl
    | cons c s => simp [skipSpace, hs c rfl]
  | cons c ws ih =>
    have hc : isJsonSpace c := hws c (by simp)
    simpa [skipSpace, hc] using ih fun d hd => hws d (by simp [hd])

theorem skipSpace_sound (s : Str) : ∃ ws, s = ws ++ skipSpace s ∧ Space ws :=
  ⟨s.takeWhile isJsonSpace, (List.takeWhile_append_dropWhile).symm,
    fun _ hc => List.mem_takeWhile_imp hc⟩

/-- No digit and no quote is a blank. -/
theorem follows_of_space_append {ws s : Str} (hws : Space ws) (hs : Follows s) :
    Follows (ws ++ s) := by
  cases ws with
  | nil => exact hs
  | cons c ws =>
    intro d hd
    obtain rfl : c = d := by simpa using hd
    have hc : isJsonSpace c := hws c (by simp)
    simp only [isJsonSpace, Bool.or_eq_true, beq_iff_eq] at hc
    rcases hc with ((rfl | rfl) | rfl) | rfl <;> decide

/-! ## Values -/

variable [Runtime]

mutual

/-- The text `c` denotes `v` and opens at most `depth` containers inside each other. -/
inductive Value : Nat → Str → Json → Prop
  | string {depth : Nat} {c s : Str} : StringBody c s → Value depth (34 :: c) (.str s)
  | keyword {depth : Nat} {word : Str} {v : Json} : (word, v) ∈ keywords → Value depth word v
  | number {depth : Nat} {sign integer fraction exponent : Str} {v : Json} :
      NumberText sign integer fraction exponent →
      numberValue (decide (fraction ≠ [] ∨ exponent ≠ []))
        (sign ++ integer ++ fraction ++ exponent) = .ok v →
      Value depth (sign ++ integer ++ fraction ++ exponent) v
  | emptyArray {depth : Nat} {ws : Str} : Space ws → Value (depth + 1) (91 :: (ws ++ [93])) (.arr [])
  | array {depth : Nat} {ws c : Str} {items : List Json} :
      Space ws → Items depth c items → Value (depth + 1) (91 :: (ws ++ c)) (.arr items)
  | emptyObject {depth : Nat} {ws : Str} :
      Space ws → Value (depth + 1) (123 :: (ws ++ [125])) (.obj [])
  | object {depth : Nat} {ws c : Str} {members : Dict Json} :
      Space ws → Members depth [] c members → Value (depth + 1) (123 :: (ws ++ c)) (.obj members)

/-- The items of an array up to its closing bracket. -/
inductive Items : Nat → Str → List Json → Prop
  | last {depth : Nat} {c ws : Str} {v : Json} :
      Value depth c v → Space ws → Items depth (c ++ (ws ++ [93])) [v]
  | more {depth : Nat} {c ws ws' c' : Str} {v : Json} {items : List Json} :
      Value depth c v → Space ws → Space ws' → Items depth c' items →
      Items depth (c ++ (ws ++ 44 :: (ws' ++ c'))) (v :: items)

/-- The members of an object up to its closing brace, added to those before. -/
inductive Members : Nat → Dict Json → Str → Dict Json → Prop
  | last {depth : Nat} {before : Dict Json} {k key ws₁ ws₂ c ws₃ : Str} {v : Json} :
      StringBody k key → Space ws₁ → Space ws₂ → Value depth c v → Space ws₃ →
      Members depth before (34 :: (k ++ (ws₁ ++ 58 :: (ws₂ ++ (c ++ (ws₃ ++ [125]))))))
        (before.set key v)
  | more {depth : Nat} {before members : Dict Json} {k key ws₁ ws₂ c ws₃ ws₄ c' : Str} {v : Json} :
      StringBody k key → Space ws₁ → Space ws₂ → Value depth c v → Space ws₃ → Space ws₄ →
      Members depth (before.set key v) c' members →
      Members depth before
        (34 :: (k ++ (ws₁ ++ 58 :: (ws₂ ++ (c ++ (ws₃ ++ 44 :: (ws₄ ++ c'))))))) members

end

omit [Runtime] in
theorem keyword_head {word : Str} {v : Json} (h : (word, v) ∈ keywords) :
    ∃ a t, word = a :: t ∧ isSpace a = false ∧ a ≠ 34 ∧ a ≠ 91 ∧ a ≠ 93 ∧ a ≠ 123 ∧ a ≠ 125 := by
  simp only [keywords, List.mem_cons, Prod.mk.injEq, List.not_mem_nil, or_false] at h
  rcases h with h | h | h | h | h | h <;> rw [h.1] <;> exact ⟨_, _, rfl, by decide⟩

omit [Runtime] in
theorem NumberText.head {sign integer fraction exponent : Str}
    (h : NumberText sign integer fraction exponent) :
    ∃ a t, sign ++ integer ++ fraction ++ exponent = a :: t ∧ (a = 45 ∨ isAsciiDigit a) := by
  obtain ⟨d, ds, rfl, hd⟩ := h.integer_head
  rcases h.sign with rfl | rfl
  · exact ⟨d, _, rfl, Or.inr hd⟩
  · exact ⟨45, _, rfl, Or.inl rfl⟩

omit [Runtime] in
theorem digit_bounds {a : Nat} (h : isAsciiDigit a) : 48 ≤ a ∧ a ≤ 57 := by
  unfold isAsciiDigit asciiDigit at h
  split at h
  · assumption
  · cases h

omit [Runtime] in
theorem digit_opens_nothing {a : Nat} (h : isAsciiDigit a) : isSpace a = false ∧ a ≠ 34 ∧
    a ≠ 91 ∧ a ≠ 93 ∧ a ≠ 123 ∧ a ≠ 125 := by
  obtain ⟨hlo, hhi⟩ := digit_bounds h
  interval_cases a <;> decide

/-- A value starts with a character that is no white space and closes nothing. -/
theorem Value.head {depth : Nat} {c : Str} {v : Json} (h : Value depth c v) :
    ∃ a t, c = a :: t ∧ isSpace a = false ∧ a ≠ 93 ∧ a ≠ 125 := by
  cases h with
  | string => exact ⟨34, _, rfl, by decide⟩
  | emptyArray | array => exact ⟨91, _, rfl, by decide⟩
  | emptyObject | object => exact ⟨123, _, rfl, by decide⟩
  | keyword hword =>
    obtain ⟨a, t, rfl, hspace, -, -, h₁, -, h₂⟩ := keyword_head hword
    exact ⟨a, t, rfl, hspace, h₁, h₂⟩
  | number htext _ =>
    obtain ⟨a, t, heq, ha⟩ := htext.head
    refine ⟨a, t, heq, ?_⟩
    rcases ha with rfl | ha
    · decide
    · obtain ⟨hspace, -, -, h₁, -, h₂⟩ := digit_opens_nothing ha
      exact ⟨hspace, h₁, h₂⟩

omit [Runtime] in
/-- What is no white space for `str.strip` is none between tokens either. -/
theorem isJsonSpace_of_isSpace {a : CodePoint} (h : isSpace a = false) : isJsonSpace a = false := by
  cases hjson : isJsonSpace a with
  | false => rfl
  | true =>
    simp only [isJsonSpace, Bool.or_eq_true, beq_iff_eq] at hjson
    rcases hjson with ((rfl | rfl) | rfl) | rfl <;> simp [isSpace] at h

theorem Value.skipSpace {depth : Nat} {c ws : Str} {v : Json} (h : Value depth c v)
    (hws : Space ws) (rest : Str) : skipSpace (ws ++ (c ++ rest)) = c ++ rest := by
  obtain ⟨a, t, rfl, hspace, -⟩ := h.head
  refine skipSpace_append hws ?_
  intro d hd
  obtain rfl : a = d := by simpa using hd
  exact isJsonSpace_of_isSpace hspace

theorem Items.head {depth : Nat} {c : Str} {items : List Json} (h : Items depth c items) :
    ∃ a t, c = a :: t ∧ isSpace a = false ∧ a ≠ 93 := by
  cases h with
  | last hvalue _ | more hvalue _ _ _ =>
    obtain ⟨a, t, rfl, hspace, hclose, -⟩ := hvalue.head
    exact ⟨a, _, rfl, hspace, hclose⟩

theorem Members.head {depth : Nat} {before members : Dict Json} {c : Str}
    (h : Members depth before c members) : ∃ t, c = 34 :: t := by
  cases h <;> exact ⟨_, rfl⟩

/-! ## What denotes a value is scanned -/

omit [Runtime] in
theorem matchKeyword_complete {word : Str} {v : Json} (h : (word, v) ∈ keywords) (rest : Str) :
    matchKeyword (word ++ rest) = some (v, rest) := by
  simp only [keywords, List.mem_cons, Prod.mk.injEq, List.not_mem_nil, or_false] at h
  rcases h with ⟨rfl, rfl⟩ | ⟨rfl, rfl⟩ | ⟨rfl, rfl⟩ | ⟨rfl, rfl⟩ | ⟨rfl, rfl⟩ | ⟨rfl, rfl⟩ <;> rfl

omit [Runtime] in
/-- No word starts like a number. -/
theorem matchKeyword_number {sign integer fraction exponent : Str}
    (h : NumberText sign integer fraction exponent) (rest : Str) :
    matchKeyword (sign ++ integer ++ fraction ++ exponent ++ rest) = none := by
  obtain ⟨d, ds, rfl, hd⟩ := h.integer_head
  have hne : ∀ c ∈ [110, 116, 102, 78, 73], d ≠ c := by
    rintro c hc rfl
    simp only [List.mem_cons, List.not_mem_nil, or_false] at hc
    rcases hc with rfl | rfl | rfl | rfl | rfl <;> simp [isAsciiDigit, asciiDigit] at hd
  simp only [List.forall_mem_cons, List.not_mem_nil, false_implies, implies_true, and_true] at hne
  obtain ⟨h₁, h₂, h₃, h₄, h₅⟩ := hne
  rcases h.sign with rfl | rfl
  · have hminus : d ≠ 45 := by rintro rfl; simp [isAsciiDigit, asciiDigit] at hd
    simp [matchKeyword, keywords, text, List.isPrefixOf, Ne.symm h₁, Ne.symm h₂, Ne.symm h₃,
      Ne.symm h₄, Ne.symm h₅, Ne.symm hminus]
  · simp [matchKeyword, keywords, text, List.isPrefixOf, Ne.symm h₅]

theorem scanScalar_complete {total : Nat} {sign integer fraction exponent : Str} {v : Json}
    (htext : NumberText sign integer fraction exponent)
    (hvalue : numberValue (decide (fraction ≠ [] ∨ exponent ≠ []))
      (sign ++ integer ++ fraction ++ exponent) = .ok v) {rest : Str} (hrest : Follows rest) :
    scanScalar total (sign ++ integer ++ fraction ++ exponent ++ rest) = .ok (v, rest) := by
  simp only [scanScalar, matchKeyword_number htext, matchNumber_complete htext hrest, hvalue]
  rfl

/-- A scan that starts like a word or a number looks at nothing else. -/
theorem scanValue_scalar {total fuel depth : Nat} {a : CodePoint} {t : Str}
    (h : a ≠ 34 ∧ a ≠ 123 ∧ a ≠ 91) :
    scanValue total (fuel + 1) depth (a :: t) = scanScalar total (a :: t) := by
  simp [scanValue, h.1, h.2.1, h.2.2]

omit [Runtime] in
theorem skipSpace_token {ws : Str} (hws : Space ws) {a : CodePoint} (t : Str)
    (ha : isJsonSpace a = false) : skipSpace (ws ++ a :: t) = a :: t := by
  refine skipSpace_append hws ?_
  intro c hc
  obtain rfl : a = c := by simpa using hc
  exact ha

/-- With this fuel the scans read a text that denotes a value to its end and no further. -/
structure ScanComplete (total fuel : Nat) : Prop where
  value : ∀ {depth : Nat} {c : Str} {v : Json}, Value depth c v →
    ∀ rest, c.length ≤ fuel → Follows rest →
      scanValue total fuel depth (c ++ rest) = .ok (v, rest)
  members : ∀ {depth : Nat} {before members : Dict Json} {c : Str},
    Members depth before c members → ∀ rest, c.length ≤ fuel →
      scanMembers total fuel depth before (c ++ rest) = .ok (members, rest)
  items : ∀ {depth : Nat} {c : Str} {items : List Json}, Items depth c items →
    ∀ rest, c.length ≤ fuel → scanItems total fuel depth (c ++ rest) = .ok (items, rest)

namespace ScanComplete

variable {total fuel depth : Nat} {c : Str}

/-- Nothing that denotes a value is empty. -/
theorem zero (total : Nat) : ScanComplete total 0 := by
  constructor
  case value =>
    intro depth c v h rest hlen
    obtain ⟨a, t, rfl, -⟩ := h.head
    simp at hlen
  case members =>
    intro depth before members c h rest hlen
    cases h <;> simp at hlen
  case items =>
    intro depth c items h rest hlen
    cases h <;> simp at hlen

theorem value_succ (ih : ScanComplete total fuel) {v : Json} (h : Value depth c v) (rest : Str)
    (hlen : c.length ≤ fuel + 1) (hrest : Follows rest) :
    scanValue total (fuel + 1) depth (c ++ rest) = .ok (v, rest) := by
  cases h with
  | string hbody =>
    simp [scanValue, scanString_complete hbody, Except.map]
  | keyword hword =>
    obtain ⟨a, t, rfl, -, h₁, h₂, -, h₃, -⟩ := keyword_head hword
    rw [List.cons_append, scanValue_scalar ⟨h₁, h₃, h₂⟩, ← List.cons_append, scanScalar,
      matchKeyword_complete hword]
  | number htext hvalue =>
    obtain ⟨a, t, heq, ha⟩ := htext.head
    have hopens : a ≠ 34 ∧ a ≠ 123 ∧ a ≠ 91 := by
      rcases ha with rfl | ha
      · decide
      · obtain ⟨-, h₁, h₂, -, h₃, -⟩ := digit_opens_nothing ha
        exact ⟨h₁, h₃, h₂⟩
    rw [heq, List.cons_append, scanValue_scalar hopens, ← List.cons_append, ← heq]
    exact scanScalar_complete htext hvalue hrest
  | emptyArray hws =>
    have hskip := skipSpace_token hws (a := 93) rest (by decide)
    simp [scanValue, hskip]
  | @array depth ws c items hws hitems =>
    obtain ⟨a, t, rfl, hspace, hclose⟩ := hitems.head
    have hskip := skipSpace_token hws (t ++ rest) (isJsonSpace_of_isSpace hspace)
    have hscan := ih.items hitems rest (by simp at hlen ⊢; omega)
    simp only [List.cons_append, List.append_assoc] at hscan ⊢
    simp [scanValue, hskip, hclose, hscan, Except.map]
  | emptyObject hws =>
    have hskip := skipSpace_token hws (a := 125) rest (by decide)
    simp [scanValue, hskip]
  | @object depth ws c members hws hmembers =>
    obtain ⟨t, rfl⟩ := hmembers.head
    have hskip := skipSpace_token hws (t ++ rest) (a := 34) (by decide)
    have hscan := ih.members hmembers rest (by simp at hlen ⊢; omega)
    simp only [List.cons_append, List.append_assoc] at hscan ⊢
    simp [scanValue, hskip, hscan, Except.map]

theorem members_succ (ih : ScanComplete total fuel) {before members : Dict Json}
    (h : Members depth before c members) (rest : Str) (hlen : c.length ≤ fuel + 1) :
    scanMembers total (fuel + 1) depth before (c ++ rest) = .ok (members, rest) := by
  cases h with
  | @last _ _ k key ws₁ ws₂ c ws₃ v hkey h₁ h₂ hvalue h₃ =>
    have hscan := ih.value hvalue (ws₃ ++ 125 :: rest) (by simp at hlen; omega)
      (follows_of_space_append h₃ (by simp [Follows]; decide))
    have hcolon := skipSpace_token h₁ (a := 58) (ws₂ ++ (c ++ (ws₃ ++ 125 :: rest))) (by decide)
    have hskip := skipSpace_token h₃ (a := 125) rest (by decide)
    have hblank := hvalue.skipSpace h₂ (ws₃ ++ 125 :: rest)
    simp [scanMembers, scanString_complete hkey, hcolon, hblank, hscan, hskip]
  | @more _ _ _ k key ws₁ ws₂ c ws₃ ws₄ c' v hkey h₁ h₂ hvalue h₃ h₄ hrest =>
    obtain ⟨t, rfl⟩ := hrest.head
    have hscan := ih.value hvalue (ws₃ ++ 44 :: (ws₄ ++ (34 :: t ++ rest)))
      (by simp at hlen; omega) (follows_of_space_append h₃ (by simp [Follows]; decide))
    have hcolon := skipSpace_token h₁ (a := 58)
      (ws₂ ++ (c ++ (ws₃ ++ 44 :: (ws₄ ++ (34 :: t ++ rest))))) (by decide)
    have hskip := skipSpace_token h₃ (a := 44) (ws₄ ++ (34 :: t ++ rest)) (by decide)
    have hblank := hvalue.skipSpace h₂ (ws₃ ++ 44 :: (ws₄ ++ (34 :: t ++ rest)))
    have hnext := skipSpace_token h₄ (a := 34) (t ++ rest) (by decide)
    have hmore := ih.members hrest rest (by simp at hlen ⊢; omega)
    simp only [List.cons_append] at hscan hcolon hskip hblank hnext hmore
    simp [scanMembers, scanString_complete hkey, hcolon, hblank, hscan, hskip, hnext, hmore]

theorem items_succ (ih : ScanComplete total fuel) {items : List Json} (h : Items depth c items)
    (rest : Str) (hlen : c.length ≤ fuel + 1) :
    scanItems total (fuel + 1) depth (c ++ rest) = .ok (items, rest) := by
  cases h with
  | @last _ c ws v hvalue hws =>
    have hscan := ih.value hvalue (ws ++ 93 :: rest) (by simp at hlen; omega)
      (follows_of_space_append hws (by simp [Follows]; decide))
    have hskip := skipSpace_token hws (a := 93) rest (by decide)
    simp [scanItems, hscan, hskip]
  | @more _ c ws ws' c' v items hvalue hws hws' hrest =>
    obtain ⟨a, t, rfl, hspace, -⟩ := hrest.head
    have hscan := ih.value hvalue (ws ++ 44 :: (ws' ++ (a :: t ++ rest)))
      (by simp at hlen; omega) (follows_of_space_append hws (by simp [Follows]; decide))
    have hskip := skipSpace_token hws (a := 44) (ws' ++ (a :: t ++ rest)) (by decide)
    have hnext := skipSpace_token hws' (t ++ rest) (isJsonSpace_of_isSpace hspace)
    have hmore := ih.items hrest rest (by simp at hlen ⊢; omega)
    simp only [List.cons_append] at hscan hskip hnext hmore
    simp [scanItems, hscan, hskip, hnext, hmore, Except.map]

end ScanComplete

/-- A text that denotes a value is scanned to its end and no further, with any fuel
that reaches its length. -/
theorem scan_complete (total fuel : Nat) : ScanComplete total fuel := by
  induction fuel with
  | zero => exact .zero total
  | succ fuel ih => exact ⟨ih.value_succ, ih.members_succ, ih.items_succ⟩

/-! ## What a scan does -/

/-- The ways the scan of a value can go. -/
inductive ValueScan (total fuel : Nat) : Nat → Str → Scan Json → Prop
  | nothing {depth : Nat} :
      ValueScan total fuel depth [] (failAt total "Expecting value" [])
  | string {depth : Nat} {s : Str} :
      ValueScan total fuel depth (34 :: s) ((scanString total s).map fun r => (.str r.1, r.2))
  | tooDeep {a : CodePoint} {s : Str} :
      a = 91 ∨ a = 123 → ValueScan total fuel 0 (a :: s) (.error .recursionError)
  | emptyObject {depth : Nat} {ws rest : Str} :
      Space ws → ValueScan total fuel (depth + 1) (123 :: (ws ++ 125 :: rest)) (.ok (.obj [], rest))
  | object {depth : Nat} {ws s : Str} :
      Space ws → ValueScan total fuel (depth + 1) (123 :: (ws ++ s))
        ((scanMembers total fuel depth [] s).map fun r => (.obj r.1, r.2))
  | emptyArray {depth : Nat} {ws rest : Str} :
      Space ws → ValueScan total fuel (depth + 1) (91 :: (ws ++ 93 :: rest)) (.ok (.arr [], rest))
  | array {depth : Nat} {ws s : Str} :
      Space ws → ValueScan total fuel (depth + 1) (91 :: (ws ++ s))
        ((scanItems total fuel depth s).map fun r => (.arr r.1, r.2))
  | scalar {depth : Nat} {s : Str} : ValueScan total fuel depth s (scanScalar total s)

theorem valueScan (total fuel depth : Nat) (s : Str) :
    ValueScan total fuel depth s (scanValue total (fuel + 1) depth s) := by
  unfold scanValue
  split
  · exact .nothing
  · rename_i a tail
    obtain ⟨ws, htail, hws⟩ := skipSpace_sound tail
    split
    · rename_i hquote
      exact hquote ▸ .string
    · split
      · rename_i hbrace
        split
        · exact .tooDeep (Or.inr hbrace)
        · split
          · rename_i hskip
            rw [hbrace, htail, hskip]
            exact .emptyObject hws
          · rw [hbrace]
            nth_rewrite 1 [htail]
            exact .object hws
      · split
        · rename_i hbracket
          split
          · exact .tooDeep (Or.inl hbracket)
          · split
            · rename_i hskip
              rw [hbracket, htail, hskip]
              exact .emptyArray hws
            · rw [hbracket]
              nth_rewrite 1 [htail]
              exact .array hws
        · exact .scalar

/-- The ways the scan of members can go. -/
inductive MembersScan (total fuel depth : Nat) (before : Dict Json) :
    Str → Scan (Dict Json) → Prop
  | rejected {s rest : Str} {msg : String} :
      MembersScan total fuel depth before s (failAt total msg rest)
  | badKey {s : Str} {e : PyError} :
      scanString total s = .error e → MembersScan total fuel depth before (34 :: s) (.error e)
  | badValue {k key ws₁ ws₂ s : Str} {e : PyError} :
      StringBody k key → Space ws₁ → Space ws₂ → scanValue total fuel depth s = .error e →
      MembersScan total fuel depth before (34 :: (k ++ (ws₁ ++ 58 :: (ws₂ ++ s)))) (.error e)
  | last {k key ws₁ ws₂ s ws₃ rest : Str} {v : Json} :
      StringBody k key → Space ws₁ → Space ws₂ →
      scanValue total fuel depth s = .ok (v, ws₃ ++ 125 :: rest) → Space ws₃ →
      MembersScan total fuel depth before (34 :: (k ++ (ws₁ ++ 58 :: (ws₂ ++ s))))
        (.ok (before.set key v, rest))
  | more {k key ws₁ ws₂ s ws₃ ws₄ s' : Str} {v : Json} :
      StringBody k key → Space ws₁ → Space ws₂ →
      scanValue total fuel depth s = .ok (v, ws₃ ++ 44 :: (ws₄ ++ s')) → Space ws₃ → Space ws₄ →
      MembersScan total fuel depth before (34 :: (k ++ (ws₁ ++ 58 :: (ws₂ ++ s))))
        (scanMembers total fuel depth (before.set key v) s')

theorem membersScan (total fuel depth : Nat) (before : Dict Json) (s : Str) :
    MembersScan total fuel depth before s (scanMembers total (fuel + 1) depth before s) := by
  unfold scanMembers
  split
  · rename_i tail
    split
    · rename_i hkey
      exact .badKey hkey
    · rename_i key rest₁ hkey
      obtain ⟨k, rfl, hbody⟩ := scanString_sound hkey
      obtain ⟨ws₁, hrest₁, h₁⟩ := skipSpace_sound rest₁
      split
      · rename_i rest₂ hcolon
        obtain ⟨ws₂, hrest₂, h₂⟩ := skipSpace_sound rest₂
        rw [hrest₁, hcolon]
        nth_rewrite 1 [hrest₂]
        split
        · rename_i hvalue
          exact .badValue hbody h₁ h₂ hvalue
        · rename_i value rest₃ hvalue
          obtain ⟨ws₃, hrest₃, h₃⟩ := skipSpace_sound rest₃
          rw [hrest₃] at hvalue
          split
          · rename_i hclose
            rw [hclose] at hvalue
            exact .last hbody h₁ h₂ hvalue h₃
          · rename_i rest₄ hcomma
            obtain ⟨ws₄, hrest₄, h₄⟩ := skipSpace_sound rest₄
            rw [hcomma, hrest₄] at hvalue
            exact .more hbody h₁ h₂ hvalue h₃ h₄
          · exact .rejected
      · exact .rejected
  · exact .rejected

/-- The ways the scan of items can go. -/
inductive ItemsScan (total fuel depth : Nat) : Str → Scan (List Json) → Prop
  | rejected {s rest : Str} {msg : String} :
      ItemsScan total fuel depth s (failAt total msg rest)
  | badItem {s : Str} {e : PyError} :
      scanValue total fuel depth s = .error e → ItemsScan total fuel depth s (.error e)
  | last {s ws rest : Str} {v : Json} :
      scanValue total fuel depth s = .ok (v, ws ++ 93 :: rest) → Space ws →
      ItemsScan total fuel depth s (.ok ([v], rest))
  | more {s ws ws' s' : Str} {v : Json} :
      scanValue total fuel depth s = .ok (v, ws ++ 44 :: (ws' ++ s')) → Space ws → Space ws' →
      ItemsScan total fuel depth s ((scanItems total fuel depth s').map fun r => (v :: r.1, r.2))

theorem itemsScan (total fuel depth : Nat) (s : Str) :
    ItemsScan total fuel depth s (scanItems total (fuel + 1) depth s) := by
  unfold scanItems
  split
  · rename_i hitem
    exact .badItem hitem
  · rename_i item rest₁ hitem
    obtain ⟨ws, hrest₁, hws⟩ := skipSpace_sound rest₁
    rw [hrest₁] at hitem
    split
    · rename_i hclose
      rw [hclose] at hitem
      exact .last hitem hws
    · rename_i rest₂ hcomma
      obtain ⟨ws', hrest₂, hws'⟩ := skipSpace_sound rest₂
      rw [hcomma, hrest₂] at hitem
      exact .more hitem hws hws'
    · exact .rejected

/-! ## What is scanned denotes a value -/

omit [Runtime] in
theorem matchKeyword_sound {s rest : Str} {v : Json} (h : matchKeyword s = some (v, rest)) :
    ∃ word, s = word ++ rest ∧ (word, v) ∈ keywords := by
  obtain ⟨⟨word, w⟩, hfind, heq⟩ := Option.map_eq_some_iff.mp h
  obtain ⟨rfl, rfl⟩ := Prod.mk.inj heq
  have hprefix : word <+: s := List.isPrefixOf_iff_prefix.mp (by simpa using List.find?_some hfind)
  refine ⟨word, ?_, List.mem_of_find?_eq_some hfind⟩
  obtain ⟨tail, rfl⟩ := hprefix
  simp

theorem scanScalar_sound {total depth : Nat} {s rest : Str} {v : Json}
    (h : scanScalar total s = .ok (v, rest)) : ∃ c, s = c ++ rest ∧ Value depth c v := by
  unfold scanScalar at h
  split at h
  · rename_i r hkeyword
    obtain rfl := Except.ok.inj h
    obtain ⟨word, rfl, hword⟩ := matchKeyword_sound hkeyword
    exact ⟨word, rfl, .keyword hword⟩
  · split at h
    · rename_i number isFloat rest' hnumber
      obtain ⟨w, hvalue, heq⟩ := map_eq_ok.mp h
      obtain ⟨rfl, rfl⟩ := Prod.mk.inj heq
      obtain ⟨sign, integer, fraction, exponent, htext, rfl, rfl, rfl⟩ := matchNumber_sound hnumber
      exact ⟨_, rfl, .number htext hvalue⟩
    · cases h

/-- What the scans consume with this fuel denotes what they return. -/
structure ScanSound (total fuel : Nat) : Prop where
  value : ∀ {depth : Nat} {s rest : Str} {v : Json},
    scanValue total fuel depth s = .ok (v, rest) → ∃ c, s = c ++ rest ∧ Value depth c v
  members : ∀ {depth : Nat} {before members : Dict Json} {s rest : Str},
    scanMembers total fuel depth before s = .ok (members, rest) →
      ∃ c, s = c ++ rest ∧ Members depth before c members
  items : ∀ {depth : Nat} {s rest : Str} {items : List Json},
    scanItems total fuel depth s = .ok (items, rest) → ∃ c, s = c ++ rest ∧ Items depth c items

namespace ScanSound

variable {total fuel depth : Nat} {s rest : Str}

theorem value_succ (ih : ScanSound total fuel) {v : Json}
    (h : scanValue total (fuel + 1) depth s = .ok (v, rest)) :
    ∃ c, s = c ++ rest ∧ Value depth c v := by
  have hscan := valueScan total fuel depth s
  generalize scanValue total (fuel + 1) depth s = r at h hscan
  cases hscan with
  | nothing | tooDeep => cases h
  | string =>
    obtain ⟨r, hr, heq⟩ := map_eq_ok.mp h
    obtain ⟨rfl, rfl⟩ := Prod.mk.inj heq
    obtain ⟨c, rfl, hbody⟩ := scanString_sound hr
    exact ⟨34 :: c, rfl, .string hbody⟩
  | @emptyObject _ ws _ hws =>
    obtain ⟨rfl, rfl⟩ := Prod.mk.inj (Except.ok.inj h)
    exact ⟨123 :: (ws ++ [125]), by simp, .emptyObject hws⟩
  | @object _ ws _ hws =>
    obtain ⟨r, hr, heq⟩ := map_eq_ok.mp h
    obtain ⟨rfl, rfl⟩ := Prod.mk.inj heq
    obtain ⟨c, rfl, hmembers⟩ := ih.members hr
    exact ⟨123 :: (ws ++ c), by simp, .object hws hmembers⟩
  | @emptyArray _ ws _ hws =>
    obtain ⟨rfl, rfl⟩ := Prod.mk.inj (Except.ok.inj h)
    exact ⟨91 :: (ws ++ [93]), by simp, .emptyArray hws⟩
  | @array _ ws _ hws =>
    obtain ⟨r, hr, heq⟩ := map_eq_ok.mp h
    obtain ⟨rfl, rfl⟩ := Prod.mk.inj heq
    obtain ⟨c, rfl, hitems⟩ := ih.items hr
    exact ⟨91 :: (ws ++ c), by simp, .array hws hitems⟩
  | scalar => exact scanScalar_sound h

theorem members_succ (ih : ScanSound total fuel) {before members : Dict Json}
    (h : scanMembers total (fuel + 1) depth before s = .ok (members, rest)) :
    ∃ c, s = c ++ rest ∧ Members depth before c members := by
  have hscan := membersScan total fuel depth before s
  generalize scanMembers total (fuel + 1) depth before s = r at h hscan
  cases hscan with
  | rejected | badKey | badValue => cases h
  | last hkey h₁ h₂ hvalue h₃ =>
    obtain ⟨rfl, rfl⟩ := Prod.mk.inj (Except.ok.inj h)
    obtain ⟨c, rfl, hc⟩ := ih.value hvalue
    exact ⟨_, by simp, .last hkey h₁ h₂ hc h₃⟩
  | more hkey h₁ h₂ hvalue h₃ h₄ =>
    obtain ⟨c, rfl, hc⟩ := ih.value hvalue
    obtain ⟨c', rfl, hmore⟩ := ih.members h
    exact ⟨_, by simp, .more hkey h₁ h₂ hc h₃ h₄ hmore⟩

theorem items_succ (ih : ScanSound total fuel) {items : List Json}
    (h : scanItems total (fuel + 1) depth s = .ok (items, rest)) :
    ∃ c, s = c ++ rest ∧ Items depth c items := by
  have hscan := itemsScan total fuel depth s
  generalize scanItems total (fuel + 1) depth s = r at h hscan
  cases hscan with
  | rejected | badItem => cases h
  | last hitem hws =>
    obtain ⟨rfl, rfl⟩ := Prod.mk.inj (Except.ok.inj h)
    obtain ⟨c, rfl, hc⟩ := ih.value hitem
    exact ⟨_, by simp, .last hc hws⟩
  | more hitem hws hws' =>
    obtain ⟨r, hr, heq⟩ := map_eq_ok.mp h
    obtain ⟨rfl, rfl⟩ := Prod.mk.inj heq
    obtain ⟨c, rfl, hc⟩ := ih.value hitem
    obtain ⟨c', rfl, hmore⟩ := ih.items hr
    exact ⟨_, by simp, .more hc hws hws' hmore⟩

end ScanSound

/-- What a scan consumed denotes what it returned. -/
theorem scan_sound (total fuel : Nat) : ScanSound total fuel := by
  induction fuel with
  | zero => constructor <;> simp [scanValue, scanMembers, scanItems]
  | succ fuel ih => exact ⟨ih.value_succ, ih.members_succ, ih.items_succ⟩

/-! ## Documents -/

/-- A document is a value with white space around it. -/
theorem decodeDocument_sound {s : Str} {v : Json} (h : decodeDocument s = .ok v) :
    ∃ ws c ws', s = ws ++ (c ++ ws') ∧ Space ws ∧ Space ws' ∧ Value Runtime.jsonDepth c v := by
  unfold decodeDocument at h
  split at h
  · cases h
  · rename_i w rest hscan
    obtain ⟨ws, hs, hws⟩ := skipSpace_sound s
    obtain ⟨c, hc, hvalue⟩ := (scan_sound _ _).value hscan
    obtain ⟨ws', hrest, hws'⟩ := skipSpace_sound rest
    split at h
    · rename_i hnil
      obtain rfl := Except.ok.inj h
      rw [hnil, List.append_nil] at hrest
      exact ⟨ws, c, ws', by rw [← hrest, ← hc, ← hs], hws, hws', hvalue⟩
    · cases h

theorem decodeDocument_complete {ws c ws' : Str} {v : Json} (hws : Space ws) (hws' : Space ws')
    (h : Value Runtime.jsonDepth c v) : decodeDocument (ws ++ (c ++ ws')) = .ok v := by
  have hscan := (scan_complete (ws ++ (c ++ ws')).length (2 * (ws ++ (c ++ ws')).length + 2)).value h
    ws' (by simp; omega) (by simpa using follows_of_space_append hws' follows_nil)
  have hend : skipSpace ws' = [] := by
    simpa using skipSpace_append hws' (s := []) (by simp)
  unfold decodeDocument
  rw [h.skipSpace hws ws', hscan]
  simp [hend]

end RtlsStream.Python
