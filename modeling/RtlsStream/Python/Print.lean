/-
  Python/Print.lean --- the texts of strings and numbers.

  `json.dumps` prints a string with escapes, an integer in decimal and a float as
  its shortest decimal.  Each of these texts belongs to the grammar of
  `Python.JsonGrammar` and denotes the value it was printed from; for a float this
  is the definition of `shortest` and the exactness of rounding
  (`Binary64.ofRat_exact`), through whichever of the four layouts `repr` chose.
-/
import RtlsStream.Python.JsonDocument
import RtlsStream.Python.Printable
import Mathlib.Tactic.Ring

set_option autoImplicit false

namespace RtlsStream.Python

open RtlsStream.Foundation

/-! ## Strings -/

theorem not_isHighSurrogate {c : Nat} (h : c < 32) : isHighSurrogate c = false := by
  have hlow : ¬ (0xd800 : Nat) ≤ c := by omega
  simp [isHighSurrogate, hlow]

/-- Code units of which no escaped one is a surrogate are joined to nothing. -/
theorem joinSurrogates_of_small {us : List (CodePoint × Bool)}
    (h : ∀ u ∈ us, u.2 = true → u.1 < 32) : joinSurrogates us = us.map (·.1) := by
  fun_induction joinSurrogates us with
  | case1 => rfl
  | case2 => rfl
  | case3 hi escaped lo escaped' rest hpair ih =>
    simp only [Bool.and_eq_true] at hpair
    have hlow := not_isHighSurrogate (h (hi, escaped) (by simp) hpair.1.1.1)
    rw [hlow] at hpair
    cases hpair.1.2
  | case4 hi escaped lo escaped' rest _ ih =>
    simp [ih fun u hu => h u (List.mem_cons_of_mem _ hu)]

theorem hex4_unitEscape {c : Nat} (h : c < 32) :
    hex4 (hexDigit (c / 4096 % 16)) (hexDigit (c / 256 % 16)) (hexDigit (c / 16 % 16))
      (hexDigit (c % 16)) = some c := by
  interval_cases c <;> decide

/-- How a string is written denotes the string. -/
theorem units_escape (s : Str) :
    ∃ us, Units (s.flatMap (escapeChar false) ++ [34]) us ∧ us.map (·.1) = s ∧
      ∀ u ∈ us, u.2 = true → u.1 < 32 := by
  induction s with
  | nil => exact ⟨[], .close, rfl, by simp⟩
  | cons c rest ih =>
    obtain ⟨us, hunits, hmap, hsmall⟩ := ih
    rw [List.flatMap_cons, List.append_assoc]
    have hplain : ∀ x, simpleEscape x = some c → escapeChar false c = [92, x] →
        ∃ us, Units (escapeChar false c ++ (rest.flatMap (escapeChar false) ++ [34])) us ∧
          us.map (·.1) = c :: rest ∧ ∀ u ∈ us, u.2 = true → u.1 < 32 := by
      intro x hx heq
      refine ⟨(c, false) :: us, ?_, by simp [hmap], by simpa using hsmall⟩
      rw [heq]
      exact .escape hx hunits
    by_cases h₁ : c = 34
    · subst h₁; exact hplain 34 (by decide) (by decide)
    by_cases h₂ : c = 92
    · subst h₂; exact hplain 92 (by decide) (by decide)
    by_cases h₃ : c = 10
    · subst h₃; exact hplain 110 (by decide) (by decide)
    by_cases h₄ : c = 13
    · subst h₄; exact hplain 114 (by decide) (by decide)
    by_cases h₅ : c = 9
    · subst h₅; exact hplain 116 (by decide) (by decide)
    by_cases h₆ : c = 8
    · subst h₆; exact hplain 98 (by decide) (by decide)
    by_cases h₇ : c = 12
    · subst h₇; exact hplain 102 (by decide) (by decide)
    by_cases h₈ : c < 32
    · refine ⟨(c, true) :: us, ?_, by simp [hmap], ?_⟩
      · have heq : escapeChar false c = unitEscape c := by
          simp [escapeChar, h₁, h₂, h₃, h₄, h₅, h₆, h₇, h₈]
        rw [heq]
        exact .unicode (hex4_unitEscape h₈) hunits
      · rw [List.forall_mem_cons]
        exact ⟨fun _ => h₈, hsmall⟩
    · refine ⟨(c, false) :: us, ?_, by simp [hmap], by simpa using hsmall⟩
      have heq : escapeChar false c = [c] := by
        simp [escapeChar, h₁, h₂, h₃, h₄, h₅, h₆, h₇, h₈]
      rw [heq]
      exact .plain h₁ (Nat.not_lt.mp h₈) h₂ hunits

theorem stringBody_escape (s : Str) : StringBody (s.flatMap (escapeChar false) ++ [34]) s := by
  obtain ⟨us, hunits, hmap, hsmall⟩ := units_escape s
  exact ⟨us, hunits, by rw [joinSurrogates_of_small hsmall, hmap]⟩

/-! ## Digits -/

/-- The text of a list of decimal digits. -/
def digitText (ds : List Nat) : Str := ds.map (· + 48)

theorem asciiDigit_add {d : Nat} (h : d < 10) : asciiDigit (d + 48) = some d := by
  simp [asciiDigit]
  omega

theorem isAsciiDigit_digitText {ds : List Nat} (h : ∀ d ∈ ds, d < 10) :
    ∀ c ∈ digitText ds, isAsciiDigit c := by
  intro c hc
  obtain ⟨d, hd, rfl⟩ := List.mem_map.mp hc
  simp [isAsciiDigit, asciiDigit_add (h d hd)]

theorem filterMap_digitText {ds : List Nat} (h : ∀ d ∈ ds, d < 10) :
    (digitText ds).filterMap asciiDigit = ds := by
  induction ds with
  | nil => rfl
  | cons d ds ih =>
    simp only [List.forall_mem_cons] at h
    rw [digitText, List.map_cons, List.filterMap_cons_some (asciiDigit_add h.1)]
    exact congrArg (d :: ·) (ih h.2)

theorem readDigits_digitText {ds : List Nat} (h : ∀ d ∈ ds, d < 10) {due : Bool}
    (hne : due = true → ds ≠ []) : readDigits asciiDigit due (digitText ds) = some ds := by
  induction ds generalizing due with
  | nil =>
    cases due with
    | true => exact absurd rfl (hne rfl)
    | false => rfl
  | cons d ds ih =>
    simp only [List.forall_mem_cons] at h
    have hbound : d < 10 := h.1
    have hunderscore : d + 48 ≠ 95 := by omega
    have hrest : readDigits asciiDigit false (ds.map (· + 48)) = some ds := ih h.2 (by simp)
    rw [digitText, List.map_cons, readDigits, if_neg hunderscore, asciiDigit_add h.1]
    simp [hrest]

/-- The decimal digits of a natural number. -/
def decimalDigits (n : Nat) : List Nat := if n = 0 then [0] else (Nat.digits 10 n).reverse

theorem natText_eq (n : Nat) : natText n = digitText (decimalDigits n) := by
  unfold natText decimalDigits digitText
  split <;> rfl

theorem lt_of_mem_decimalDigits {n d : Nat} (h : d ∈ decimalDigits n) : d < 10 := by
  unfold decimalDigits at h
  split at h
  · simp at h
    omega
  · exact Nat.digits_lt_base (by norm_num) (List.mem_reverse.mp h)

theorem decimalDigits_ne_nil (n : Nat) : decimalDigits n ≠ [] := by
  unfold decimalDigits
  split
  · simp
  · rename_i hn
    simpa using Nat.digits_ne_nil_iff_ne_zero.mpr hn

/-- A number has no leading zero. -/
theorem decimalDigits_head {n : Nat} (hn : n ≠ 0) : (decimalDigits n).head? ≠ some 0 := by
  have hne : Nat.digits 10 n ≠ [] := Nat.digits_ne_nil_iff_ne_zero.mpr hn
  rw [decimalDigits, if_neg hn, List.head?_reverse, List.getLast?_eq_some_getLast hne]
  simpa using Nat.getLast_digit_ne_zero 10 hn

theorem ofDigitList_decimalDigits (n : Nat) : ofDigitList 10 (decimalDigits n) = n := by
  unfold decimalDigits
  split
  · rename_i hn
    simp [ofDigitList, hn]
  · have hfold := Nat.ofDigits_eq_foldr (10 : Nat) (Nat.digits 10 n)
    rw [Nat.ofDigits_digits] at hfold
    rw [ofDigitList, List.foldl_reverse]
    refine Eq.trans ?_ hfold.symm
    congr 1
    funext d acc
    simp only [Nat.cast_id]
    omega

/-! ## Reading a numeral -/

/-- The characters of a printed number: ASCII, no white space and no underscore. -/
def Plain (s : Str) : Prop := ∀ c ∈ s, (c : Nat) < 128 ∧ isAsciiSpace c = false ∧ c ≠ 95

theorem digit_plain {c : Nat} (h : isAsciiDigit c) : c < 128 ∧ isAsciiSpace c = false ∧ c ≠ 95 := by
  obtain ⟨hlo, hhi⟩ := digit_bounds h
  interval_cases c <;> decide

theorem Digits.plain {ds : Str} (h : Digits ds) : Plain ds := fun c hc => digit_plain (h.2 c hc)

theorem NumberText.plain {sign integer fraction exponent : Str}
    (h : NumberText sign integer fraction exponent) :
    Plain (sign ++ integer ++ fraction ++ exponent) := by
  have happend : ∀ {a b : Str}, Plain a → Plain b → Plain (a ++ b) := by
    intro a b ha hb c hc
    rcases List.mem_append.mp hc with hc | hc
    · exact ha c hc
    · exact hb c hc
  have hsign : Plain sign := by rcases h.sign with rfl | rfl <;> simp [Plain]; decide
  have hinteger : Plain integer := by
    rcases h.integer with rfl | ⟨hds, -⟩
    · simp [Plain]; decide
    · exact hds.plain
  have hfraction : Plain fraction := by
    rcases h.fraction with rfl | ⟨ds, hds, rfl⟩
    · simp [Plain]
    · exact happend (a := [46]) (by simp [Plain]; decide) hds.plain
  have hexponent : Plain exponent := by
    rcases h.exponent with rfl | ⟨e, s, ds, he, hs, hds, rfl⟩
    · simp [Plain]
    · have he' : Plain [e] := by rcases he with rfl | rfl <;> simp [Plain] <;> decide
      have hs' : Plain s := by rcases hs with rfl | rfl | rfl <;> simp [Plain] <;> decide
      exact happend he' (happend hs' hds.plain)
  exact happend (happend (happend hsign hinteger) hfraction) hexponent

/-- Where only characters of a number are left, no blank is. -/
theorem numeral_of_plain [Runtime] {s : Str} (h : Plain (toAsciiNumeral s)) :
    numeral s = toAsciiNumeral s := by
  unfold numeral
  generalize toAsciiNumeral s = t at h
  have hdrop : t.dropWhile isAsciiSpace = t := by
    cases t with
    | nil => rfl
    | cons c rest => simp [(h c (by simp)).2.1]
  rw [hdrop]
  rcases List.eq_nil_or_concat t with rfl | ⟨front, z, rfl⟩
  · rfl
  · have hz : isAsciiSpace z = false := (h z (by simp)).2.1
    simp [hz]

theorem toAsciiNumeral_plain [Runtime] {s : Str} (h : Plain s) : toAsciiNumeral s = s := by
  unfold toAsciiNumeral
  conv_rhs => rw [← List.map_id s]
  refine List.map_congr_left ?_
  intro c hc
  simp [(h c hc).1]

theorem numeral_plain [Runtime] {s : Str} (h : Plain s) : numeral s = s := by
  have hascii := toAsciiNumeral_plain h
  rw [numeral_of_plain (by rwa [hascii]), hascii]

/-- Without underscores there are none to drop. -/
theorem dropUnderscores_self {s : Str} (h : (95 : Nat) ∉ s) {previous : CodePoint}
    (hprevious : previous ≠ 95) : dropUnderscores previous s = some s := by
  induction s generalizing previous with
  | nil => simp [dropUnderscores, hprevious]
  | cons c rest ih =>
    simp only [List.mem_cons, not_or] at h
    have hrest := ih h.2 (Ne.symm h.1)
    simp [dropUnderscores, Ne.symm h.1, hprevious, hrest]

theorem dropUnderscores_plain {s : Str} (h : Plain s) {previous : CodePoint}
    (hprevious : previous ≠ 95) : dropUnderscores previous s = some s :=
  dropUnderscores_self (fun hmem => (h 95 hmem).2.2 rfl) hprevious

theorem takeSign_digit {c : Nat} {rest : Str} (h : isAsciiDigit c) :
    takeSign (c :: rest) = (false, c :: rest) := by
  obtain ⟨hlo, hhi⟩ := digit_bounds h
  unfold takeSign
  split
  · rename_i heq
    have hc : c = 45 := (List.cons.inj heq).1
    omega
  · rename_i heq
    have hc : c = 43 := (List.cons.inj heq).1
    omega
  · rfl

/-! ## Integers -/

theorem natText_digits (n : Nat) : Digits (natText n) := by
  rw [natText_eq]
  refine ⟨?_, isAsciiDigit_digitText fun d hd => lt_of_mem_decimalDigits hd⟩
  simpa [digitText] using decimalDigits_ne_nil n

theorem numberText_intText (n : Int) :
    ∃ sign, NumberText sign (natText n.natAbs) [] [] ∧ intText n = sign ++ natText n.natAbs ∧
      (sign = [45] ↔ n < 0) := by
  have hinteger : natText n.natAbs = [48] ∨
      (Digits (natText n.natAbs) ∧ (natText n.natAbs).head? ≠ some 48) := by
    by_cases hn : n.natAbs = 0
    · exact Or.inl (by rw [hn]; rfl)
    · refine Or.inr ⟨natText_digits _, ?_⟩
      have hhead := decimalDigits_head hn
      rw [natText_eq, digitText, List.head?_map]
      cases h : (decimalDigits n.natAbs).head? with
      | none => simp
      | some d =>
        rw [h] at hhead
        simpa using hhead
  by_cases hneg : n < 0
  · exact ⟨[45], ⟨Or.inr rfl, hinteger, Or.inl rfl, Or.inl rfl⟩, by simp [intText, hneg], by simp [hneg]⟩
  · exact ⟨[], ⟨Or.inl rfl, hinteger, Or.inl rfl, Or.inl rfl⟩, by simp [intText, hneg], by simp [hneg]⟩

/-- Reading an integer undoes printing it, within the digit limit. -/
theorem intOfText_intText [Runtime] {n : Int} {t : Str} (h : strInt n = .ok t) :
    t = intText n ∧ intOfText t = some n := by
  unfold strInt at h
  split at h
  · rename_i hlen
    obtain rfl := Except.ok.inj h
    refine ⟨rfl, ?_⟩
    obtain ⟨sign, htext, heq, hsign⟩ := numberText_intText n
    have hplain := htext.plain
    simp only [List.append_nil] at hplain
    obtain ⟨d, ds, hcons, hd⟩ := htext.integer_head
    have hread : readDigits asciiDigit true (natText n.natAbs) = some (decimalDigits n.natAbs) := by
      rw [natText_eq]
      exact readDigits_digitText (fun d hd => lt_of_mem_decimalDigits hd)
        fun _ => decimalDigits_ne_nil _
    have hlength : (decimalDigits n.natAbs).length ≤ maxStrDigits := by
      rw [natText_eq, digitText, List.length_map] at hlen
      exact hlen
    unfold intOfText
    rw [heq, numeral_plain hplain]
    rcases htext.sign with rfl | rfl
    · have hneg : ¬ n < 0 := fun hn => by simpa using hsign.mpr hn
      rw [List.nil_append, hcons, takeSign_digit hd, ← hcons]
      simp [hread, hlength, ofDigitList_decimalDigits, signed, abs_of_nonneg (not_lt.mp hneg)]
    · have hneg : n < 0 := hsign.mp rfl
      simp [takeSign, hread, hlength, ofDigitList_decimalDigits, signed, abs_of_neg hneg]
  · cases h

/-! ## Floats -/

/-- The exponent a text ends with. -/
theorem readExponent_digits {e : CodePoint} (he : e = 101 ∨ e = 69) {s : Str}
    (hs : s = [] ∨ s = [43] ∨ s = [45]) {ds : Str} (hds : Digits ds) :
    readExponent (e :: (s ++ ds)) =
      some (signed (s = [45]) (ofDigitList 10 (ds.filterMap asciiDigit))) := by
  have hall : ds.all isAsciiDigit := by simpa using hds.2
  obtain ⟨d, ds', hcons⟩ := List.exists_cons_of_ne_nil hds.1
  have hd : isAsciiDigit d := hds.2 d (by simp [hcons])
  rcases hs with rfl | rfl | rfl
  · rw [List.nil_append, readExponent, if_pos he, hcons, takeSign_digit hd, ← hcons]
    simp [hds.1, hall]
  · simp [readExponent, he, takeSign, hds.1, hall]
  · simp [readExponent, he, takeSign, hds.1, hall]

/-- How the text of a number is read: its digits as one number, its exponent less the
digits behind the point. -/
theorem readDecimal_number {sign integer fraction exponent : Str}
    (h : NumberText sign integer fraction exponent) {e : Int} (he : readExponent exponent = some e) :
    readDecimal (integer ++ fraction ++ exponent) = some
      (ofDigitList 10 ((integer ++ fraction.drop 1).filterMap asciiDigit),
        e - (fraction.drop 1).length) := by
  have hbehind : ∀ c ∈ (fraction ++ exponent).head?, isAsciiDigit c = false := by
    have hnumber := h.behind_integer follows_nil
    rwa [List.append_nil] at hnumber
  have hbehind' : ∀ c ∈ exponent.head?, isAsciiDigit c = false ∧ c ≠ 46 := by
    have hnumber := h.behind_fraction follows_nil
    rwa [List.append_nil] at hnumber
  obtain ⟨htake, hdrop⟩ := takeWhile_run h.integer_digits.2 hbehind
  have hnonempty : integer ≠ [] := h.integer_digits.1
  rw [List.append_assoc]
  unfold readDecimal
  rw [htake, hdrop]
  rcases h.fraction with rfl | ⟨ds, hds, rfl⟩
  · cases exponent with
    | nil => simp [hnonempty, he]
    | cons c rest =>
      have hc : c ≠ 46 := (hbehind' c rfl).2
      simp only [List.nil_append]
      split
      · rename_i heq
        exact absurd (List.cons.inj heq).1 hc
      · simp [hnonempty, he]
  · obtain ⟨htake', hdrop'⟩ := takeWhile_run hds.2 fun c hc => (hbehind' c hc).1
    simp [htake', hdrop', hnonempty, he]

theorem floatOfText_number [Runtime] {sign integer fraction exponent : Str}
    (h : NumberText sign integer fraction exponent) {e : Int} (he : readExponent exponent = some e) :
    floatOfText (sign ++ integer ++ fraction ++ exponent) = some (Binary64.ofDecimal (sign = [45])
      (ofDigitList 10 ((integer ++ fraction.drop 1).filterMap asciiDigit))
      (e - (fraction.drop 1).length)) := by
  have hplain := h.plain
  have hread := readDecimal_number h he
  obtain ⟨d, ds, hcons, hd⟩ := h.integer_head
  unfold floatOfText
  rw [numeral_plain hplain, dropUnderscores_plain hplain (by decide)]
  rcases h.sign with rfl | rfl
  · rw [List.nil_append, hcons, List.cons_append, List.cons_append]
    rw [hcons, List.cons_append, List.cons_append] at hread
    have hsign : takeSign (d :: (ds ++ fraction ++ exponent)) = _ := takeSign_digit hd
    simp only [hsign, hread]
    rfl
  · simp only [List.cons_append, List.nil_append, takeSign, hread]
    rfl

/-! ## `repr` of a float -/

theorem ofDigitList_append (a b : List Nat) :
    ofDigitList 10 (a ++ b) = ofDigitList 10 a * 10 ^ b.length + ofDigitList 10 b := by
  unfold ofDigitList
  rw [List.foldl_append]
  generalize a.foldl (fun acc d => acc * 10 + d) 0 = acc
  induction b using List.reverseRecOn with
  | nil => simp
  | append_singleton b d ih =>
    simp only [List.foldl_append, List.foldl_cons, List.foldl_nil, ih, List.length_append,
      List.length_singleton, pow_succ]
    ring

theorem ofDigitList_zeros (k : Nat) : ofDigitList 10 (List.replicate k 0) = 0 := by
  induction k with
  | zero => rfl
  | succ k ih => simpa [ofDigitList, List.replicate_succ] using ih

theorem digitText_digits {ds : List Nat} (hds : ∀ d ∈ ds, d < 10) (hne : ds ≠ []) :
    Digits (digitText ds) :=
  ⟨by simpa [digitText] using hne, isAsciiDigit_digitText hds⟩

theorem digitText_append (a b : List Nat) : digitText (a ++ b) = digitText a ++ digitText b :=
  List.map_append

theorem lead_of_digits {i : List Nat} (hi : ∀ d ∈ i, d < 10)
    (hlead : i = [0] ∨ (i ≠ [] ∧ i.head? ≠ some 0)) :
    digitText i = [48] ∨ (Digits (digitText i) ∧ (digitText i).head? ≠ some 48) := by
  rcases hlead with rfl | ⟨hne, hhead⟩
  · exact Or.inl rfl
  · refine Or.inr ⟨digitText_digits hi hne, ?_⟩
    rw [digitText, List.head?_map]
    cases h : i.head? with
    | none => simp
    | some d =>
      rw [h] at hhead
      simpa using hhead

/-- The text is a number with a fraction or an exponent and denotes `q`. -/
def DecimalText (t : Str) (q : ℚ) : Prop :=
  ∃ integer fraction exponent, t = integer ++ fraction ++ exponent ∧
    NumberText [] integer fraction exponent ∧ (fraction ≠ [] ∨ exponent ≠ []) ∧
    ∃ e, readExponent exponent = some e ∧
      (ofDigitList 10 ((integer ++ fraction.drop 1).filterMap asciiDigit) : ℚ) *
        10 ^ (e - (fraction.drop 1).length) = q

/-- A number written with a point. -/
theorem decimalText_pointed {i f : List Nat} (hi : ∀ d ∈ i, d < 10) (hf : ∀ d ∈ f, d < 10)
    (hlead : i = [0] ∨ (i ≠ [] ∧ i.head? ≠ some 0)) (hne : f ≠ []) :
    DecimalText (digitText i ++ 46 :: digitText f)
      (ofDigitList 10 (i ++ f) * 10 ^ (-f.length : Int)) := by
  refine ⟨digitText i, 46 :: digitText f, [], by simp, ⟨Or.inl rfl, lead_of_digits hi hlead,
    Or.inr ⟨_, digitText_digits hf hne, rfl⟩, Or.inl rfl⟩, Or.inl (by simp), 0, rfl, ?_⟩
  have hif : ∀ d ∈ i ++ f, d < 10 := List.forall_mem_append.mpr ⟨hi, hf⟩
  have hlength : (digitText f).length = f.length := List.length_map _
  rw [List.drop_one, List.tail_cons, ← digitText_append, filterMap_digitText hif, hlength, zero_sub]

theorem readExponent_layout (e : Int) :
    readExponent (101 :: ([if e < 0 then 45 else 43] ++ exponentText e.natAbs)) = some e ∧
      Digits (exponentText e.natAbs) := by
  have hdigits : ∃ ds : List Nat, exponentText e.natAbs = digitText ds ∧ (∀ d ∈ ds, d < 10) ∧
      ds ≠ [] ∧ ofDigitList 10 ds = e.natAbs := by
    unfold exponentText
    split
    · refine ⟨0 :: decimalDigits e.natAbs, by rw [natText_eq]; rfl, ?_, by simp, ?_⟩
      · simp only [List.forall_mem_cons]
        exact ⟨by norm_num, fun d hd => lt_of_mem_decimalDigits hd⟩
      · simpa [ofDigitList] using ofDigitList_decimalDigits e.natAbs
    · exact ⟨decimalDigits e.natAbs, natText_eq _, fun d hd => lt_of_mem_decimalDigits hd,
        decimalDigits_ne_nil _, ofDigitList_decimalDigits _⟩
  obtain ⟨ds, htext, hds, hne, hvalue⟩ := hdigits
  have hd := digitText_digits hds hne
  rw [htext, readExponent_digits (Or.inl rfl) (by split <;> simp) hd, filterMap_digitText hds, hvalue]
  refine ⟨?_, hd⟩
  by_cases hneg : e < 0
  · simp [hneg, signed, abs_of_neg hneg]
  · simp [hneg, signed, abs_of_nonneg (not_lt.mp hneg)]

/-- A number written with an exponent. -/
theorem decimalText_scientific {ds : List Nat} (hds : ∀ d ∈ ds, d < 10) (hne : ds ≠ [])
    (hhead : ds.head? ≠ some 0) (e : Int) :
    DecimalText ((digitText ds).take 1 ++
        (if (digitText ds).length ≤ 1 then [] else 46 :: (digitText ds).drop 1) ++
        101 :: (if e < 0 then 45 else 43) :: exponentText e.natAbs)
      (ofDigitList 10 ds * 10 ^ (e + 1 - ds.length)) := by
  obtain ⟨hexponent, hdigits⟩ := readExponent_layout e
  obtain ⟨d, rest, rfl⟩ := List.exists_cons_of_ne_nil hne
  have hfirst : NumberText [] [d + 48] [] [] := by
    refine ⟨Or.inl rfl, lead_of_digits (i := [d]) ?_ (Or.inr ⟨by simp, by simpa using hhead⟩),
      Or.inl rfl, Or.inl rfl⟩
    simpa using hds d (by simp)
  have hsign : ([if e < 0 then 45 else 43] : Str) = [] ∨
      ([if e < 0 then 45 else 43] : Str) = [43] ∨ ([if e < 0 then 45 else 43] : Str) = [45] := by
    split <;> simp
  have hvalue := filterMap_digitText hds
  cases rest with
  | nil =>
    refine ⟨[d + 48], [], 101 :: ([if e < 0 then 45 else 43] ++ exponentText e.natAbs),
      by simp [digitText], ⟨Or.inl rfl, hfirst.integer, Or.inl rfl, ?_⟩, Or.inr (by simp), e,
      hexponent, ?_⟩
    · exact Or.inr ⟨101, _, _, Or.inl rfl, hsign, hdigits, rfl⟩
    · simp only [digitText, List.map_cons, List.map_nil] at hvalue
      simp [hvalue]
  | cons d' rest =>
    refine ⟨[d + 48], 46 :: digitText (d' :: rest),
      101 :: ([if e < 0 then 45 else 43] ++ exponentText e.natAbs),
      by simp [digitText], ⟨Or.inl rfl, hfirst.integer, Or.inr ⟨_, ?_, rfl⟩, ?_⟩, Or.inl (by simp), e,
      hexponent, ?_⟩
    · exact digitText_digits (fun x hx => hds x (List.mem_cons_of_mem _ hx)) (by simp)
    · exact Or.inr ⟨101, _, _, Or.inl rfl, hsign, hdigits, rfl⟩
    · have hcons : [d + 48] ++ digitText (d' :: rest) = digitText (d :: d' :: rest) := rfl
      rw [List.drop_one, List.tail_cons, hcons, hvalue]
      have hlen : e - ((digitText (d' :: rest)).length : Int) =
          e + 1 - ((d :: d' :: rest).length : Int) := by
        simp [digitText]
      rw [hlen]

theorem digitText_zeros (k : Nat) : List.replicate k 48 = digitText (List.replicate k 0) := by
  simp [digitText]

theorem lt_of_mem_zeros (k : Nat) : ∀ d ∈ List.replicate k 0, d < 10 := by
  intro d hd
  obtain rfl := List.eq_of_mem_replicate hd
  norm_num

/-- `0.000ddd` -/
theorem decimalText_below {ds : List Nat} (hds : ∀ d ∈ ds, d < 10) (hne : ds ≠ []) {point : Int}
    (hpoint : point ≤ 0) :
    DecimalText ([48, 46] ++ List.replicate (-point).toNat 48 ++ digitText ds)
      (ofDigitList 10 ds * 10 ^ (point - ds.length)) := by
  have htext := decimalText_pointed (i := [0]) (f := List.replicate (-point).toNat 0 ++ ds)
    (by simp) (List.forall_mem_append.mpr ⟨lt_of_mem_zeros _, hds⟩) (Or.inl rfl) (by simp [hne])
  rw [digitText_zeros]
  convert htext using 1
  · simp [digitText]
  · have hexponent : point - (ds.length : Int) =
        -((List.replicate (-point).toNat 0 ++ ds).length : Int) := by
      simp
      omega
    rw [hexponent, ofDigitList_append [0], ofDigitList_append _ ds, ofDigitList_zeros]
    simp [ofDigitList]

/-- `ddd000.0` -/
theorem decimalText_whole {ds : List Nat} (hds : ∀ d ∈ ds, d < 10) (hne : ds ≠ [])
    (hhead : ds.head? ≠ some 0) {point : Int} (hpoint : (ds.length : Int) ≤ point) :
    DecimalText (digitText ds ++ List.replicate (point - ds.length).toNat 48 ++ [46, 48])
      (ofDigitList 10 ds * 10 ^ (point - ds.length)) := by
  have hhead' : (ds ++ List.replicate (point - ds.length).toNat 0).head? ≠ some 0 := by
    rwa [List.head?_append_of_ne_nil _ hne]
  have htext := decimalText_pointed (i := ds ++ List.replicate (point - ds.length).toNat 0)
    (f := [0]) (List.forall_mem_append.mpr ⟨hds, lt_of_mem_zeros _⟩) (by simp)
    (Or.inr ⟨by simp [hne], hhead'⟩) (by simp)
  rw [digitText_zeros, ← digitText_append]
  convert htext using 1
  · rfl
  · have hexponent : point - (ds.length : Int) = ((point - ds.length).toNat : Int) := by omega
    rw [ofDigitList_append _ [0], ofDigitList_append ds, ofDigitList_zeros, hexponent]
    simp [ofDigitList, zpow_natCast]

/-- `d.dd` -/
theorem decimalText_between {ds : List Nat} (hds : ∀ d ∈ ds, d < 10) (hne : ds ≠ [])
    (hhead : ds.head? ≠ some 0) {point : Int} (hpos : 0 < point)
    (hpoint : point < (ds.length : Int)) :
    DecimalText ((digitText ds).take point.toNat ++ 46 :: (digitText ds).drop point.toNat)
      (ofDigitList 10 ds * 10 ^ (point - ds.length)) := by
  have hsplit : ds.take point.toNat ++ ds.drop point.toNat = ds := List.take_append_drop ..
  have hlead : ds.take point.toNat ≠ [] ∧ (ds.take point.toNat).head? ≠ some 0 := by
    rw [List.head?_take, if_neg (by omega)]
    exact ⟨by simp [hne]; omega, hhead⟩
  have htext := decimalText_pointed (i := ds.take point.toNat) (f := ds.drop point.toNat)
    (fun d hd => hds d (List.mem_of_mem_take hd)) (fun d hd => hds d (List.mem_of_mem_drop hd))
    (Or.inr hlead) (by simp; omega)
  convert htext using 1
  · simp [digitText]
  · have hexponent : point - (ds.length : Int) = -((ds.drop point.toNat).length : Int) := by
      rw [List.length_drop]
      omega
    rw [hexponent, hsplit]

/-- The text `layout` writes denotes the digits it was given, with the point where it
was given. -/
theorem decimalText_layout {ds : List Nat} (hds : ∀ d ∈ ds, d < 10) (hne : ds ≠ [])
    (hhead : ds.head? ≠ some 0) (point : Int) :
    DecimalText (layout (digitText ds) point) (ofDigitList 10 ds * 10 ^ (point - ds.length)) := by
  have hlength : (digitText ds).length = ds.length := List.length_map _
  unfold layout
  rw [hlength]
  by_cases hplain : -4 < point ∧ point ≤ 16
  · rw [if_pos hplain]
    by_cases hsmall : point ≤ 0
    · rw [if_pos hsmall]
      exact decimalText_below hds hne hsmall
    · rw [if_neg hsmall]
      by_cases hlong : (ds.length : Int) ≤ point
      · rw [if_pos hlong]
        exact decimalText_whole hds hne hhead hlong
      · rw [if_neg hlong]
        exact decimalText_between hds hne hhead (not_le.mp hsmall) (not_le.mp hlong)
  · rw [if_neg hplain]
    have htext := decimalText_scientific hds hne hhead (point - 1)
    rw [hlength, sub_add_cancel] at htext
    exact htext

/-- The sign plays no part in rounding. -/
theorem ofRat_sign {q : ℚ} {m : Nat} {e : Int} {c : Canonical m e}
    (h : Binary64.ofRat false q = .finite false m e c) (negative : Bool) :
    Binary64.ofRat negative q = .finite negative m e c := by
  have hpack : ∀ m' e', Binary64.pack false m' e' = .finite false m e c →
      Binary64.pack negative m' e' = .finite negative m e c := by
    intro m' e' hfalse
    by_cases hc : Canonical (if m' = 2 ^ 53 then 2 ^ 52 else m') (if m' = 2 ^ 53 then e' + 1 else e')
    · simp only [Binary64.pack, dif_pos hc, Binary64.finite.injEq, true_and] at hfalse ⊢
      exact hfalse
    · simp only [Binary64.pack, dif_neg hc] at hfalse
      cases hfalse
  unfold Binary64.ofRat at h ⊢
  split at h
  · rename_i hzero
    rw [if_pos hzero]
    exact hpack _ _ h
  · rename_i hzero
    rw [if_neg hzero]
    exact hpack _ _ h

/-- The decimal `repr` prints reads back as the value. -/
theorem ofDecimal_shortest {m : Nat} {e : Int} (canonical : Canonical m e) :
    Binary64.ofDecimal false (shortest m e canonical).1 (shortest m e canonical).2 =
      .finite false m e canonical := by
  unfold shortest
  cases hfind : (decimals (Binary64.magnitude m e)).find? fun d =>
      Binary64.ofDecimal false d.1 d.2 = .finite false m e canonical with
  | some d => simpa using List.find?_some hfind
  | none =>
    have hexact : ((exactDecimal m e).1 : ℚ) * 10 ^ (exactDecimal m e).2 = Binary64.magnitude m e := by
      unfold exactDecimal Binary64.magnitude
      split
      · rename_i he
        have hcast : (2 : ℚ) ^ e = 2 ^ e.toNat := by
          rw [← zpow_natCast, Int.toNat_of_nonneg he]
        simp [hcast]
      · rename_i he
        have hten : (10 : ℚ) ^ e = 2 ^ e * 5 ^ e := by
          rw [← mul_zpow]
          norm_num
        have hfive : (5 : ℚ) ^ e = (5 ^ (-e).toNat)⁻¹ := by
          rw [← zpow_natCast, Int.toNat_of_nonneg (by omega), zpow_neg, inv_inv]
        have hne : (5 : ℚ) ^ (-e).toNat ≠ 0 := pow_ne_zero _ (by norm_num)
        simp only [Nat.cast_mul, Nat.cast_pow, Nat.cast_ofNat]
        rw [hten, hfive]
        field_simp
    rw [Option.getD_none, Binary64.ofDecimal, hexact]
    exact Binary64.ofRat_exact false canonical

/-- The digits left of the zeros at the end, and how many zeros there were. -/
theorem strip_zeros {n : Nat} (hn : n ≠ 0) :
    ∃ ds k, (natText n).rdropWhile (· = 48) = digitText ds ∧ (∀ d ∈ ds, d < 10) ∧ ds ≠ [] ∧
      ds.head? ≠ some 0 ∧ n = ofDigitList 10 ds * 10 ^ k ∧ (natText n).length = ds.length + k := by
  have hsplit := List.rdropWhile_append_rtakeWhile (p := fun d : Nat => d = 0) (l := decimalDigits n)
  have hzeros : (decimalDigits n).rtakeWhile (fun d : Nat => d = 0) =
      List.replicate ((decimalDigits n).rtakeWhile fun d : Nat => d = 0).length 0 := by
    refine List.eq_replicate_length.mpr ?_
    intro d hd
    simpa using List.mem_rtakeWhile_imp hd
  generalize (decimalDigits n).rtakeWhile (fun d : Nat => d = 0) = zeros at hsplit hzeros
  generalize hds : (decimalDigits n).rdropWhile (fun d : Nat => d = 0) = ds at hsplit
  have hvalue : n = ofDigitList 10 ds * 10 ^ zeros.length := by
    have hall := ofDigitList_decimalDigits n
    rw [← hsplit, hzeros, ofDigitList_append, ofDigitList_zeros] at hall
    simpa using hall.symm
  have hne : ds ≠ [] := by
    rintro rfl
    exact hn (by simpa [ofDigitList] using hvalue)
  refine ⟨ds, zeros.length, ?_, ?_, hne, ?_, hvalue, ?_⟩
  · have hcomp : ((fun c : CodePoint => decide (c = 48)) ∘ fun d : Nat => d + 48) =
        fun d : Nat => decide (d = 0) := by
      funext d
      simp
    rw [natText_eq, digitText, List.rdropWhile, ← List.map_reverse, List.dropWhile_map, hcomp,
      ← List.map_reverse]
    exact congrArg digitText hds
  · intro d hd
    refine lt_of_mem_decimalDigits (n := n) ?_
    rw [← hsplit]
    exact List.mem_append_left _ hd
  · have hhead := decimalDigits_head hn
    rwa [← hsplit, List.head?_append_of_ne_nil _ hne] at hhead
  · rw [natText_eq, digitText, List.length_map, ← hsplit, List.length_append]

/-- What `repr` writes for a magnitude denotes a number that rounds to it. -/
theorem decimalText_magnitude {m : Nat} {e : Int} (canonical : Canonical m e) :
    ∃ q, DecimalText (magnitudeText m e canonical) q ∧
      Binary64.ofRat false q = .finite false m e canonical := by
  unfold magnitudeText
  by_cases hm : m = 0
  · subst hm
    have he : e = -1074 := by
      rcases canonical.2.2.2 with hlead | he
      · norm_num at hlead
      · exact he
    subst he
    have htext := decimalText_pointed (i := [0]) (f := [0]) (by simp) (by simp) (Or.inl rfl) (by simp)
    have hzero : text "0.0" = digitText [0] ++ 46 :: digitText [0] := by decide
    rw [if_pos rfl, hzero]
    refine ⟨_, htext, ?_⟩
    simp [ofDigitList, Binary64.ofRat, Binary64.pack_canonical false canonical]
  · rw [if_neg hm]
    have hshortest := ofDecimal_shortest canonical
    generalize shortest m e canonical = d at hshortest
    have hn : d.1 ≠ 0 := by
      intro hzero
      rw [hzero, Binary64.ofDecimal] at hshortest
      simp only [Nat.cast_zero, zero_mul, Binary64.ofRat, if_true] at hshortest
      rw [Binary64.pack_canonical false (by decide)] at hshortest
      simp only [Binary64.finite.injEq, true_and] at hshortest
      exact hm hshortest.1.symm
    obtain ⟨ds, k, hstrip, hds, hne, hhead, hvalue, hlength⟩ := strip_zeros hn
    refine ⟨_, ?_, hshortest⟩
    simp only [hstrip]
    have htext := decimalText_layout hds hne hhead ((natText d.1).length + d.2)
    convert htext using 1
    have hexponent : ((natText d.1).length + d.2 : Int) - ds.length = k + d.2 := by
      rw [hlength]
      push_cast
      ring
    rw [hexponent, zpow_add₀ (by norm_num), zpow_natCast, hvalue]
    push_cast
    ring

theorem NumberText.withSign {sign integer fraction exponent : Str}
    (h : NumberText sign integer fraction exponent) {other : Str} (hother : other = [] ∨ other = [45]) :
    NumberText other integer fraction exponent :=
  ⟨hother, h.integer, h.fraction, h.exponent⟩

variable [Runtime]

/-- The text of a float denotes the float. -/
theorem value_floatText (depth : Nat) (x : Binary64) : Value depth (floatText x) (.float x) := by
  cases x with
  | nan => exact .keyword (by decide)
  | infinity negative => cases negative <;> exact .keyword (by decide)
  | finite negative m e canonical =>
    obtain ⟨q, ⟨integer, fraction, exponent, htext, hnumber, hfloat, e', hexponent, hvalue⟩, hround⟩ :=
      decimalText_magnitude canonical
    have hsigned : ∀ sign : Str, (sign = [] ∨ sign = [45]) → ∀ n : Bool, (n ↔ sign = [45]) →
        Value depth (sign ++ integer ++ fraction ++ exponent) (.float (.finite n m e canonical)) := by
      intro sign hsign n hn
      have hread := floatOfText_number (hnumber.withSign hsign) hexponent
      have hn' : decide (sign = [45]) = n := by simp [← hn]
      rw [Binary64.ofDecimal, hvalue, ofRat_sign hround, hn'] at hread
      refine .number (hnumber.withSign hsign) ?_
      rw [decide_eq_true hfloat, numberValue, if_pos rfl, hread]
    cases negative with
    | false =>
      have hfalse : floatText (.finite false m e canonical) = magnitudeText m e canonical := rfl
      rw [hfalse, htext]
      exact hsigned [] (Or.inl rfl) false (by simp)
    | true =>
      have htrue : floatText (.finite true m e canonical) = 45 :: magnitudeText m e canonical := rfl
      rw [htrue, htext]
      exact hsigned [45] (Or.inr rfl) true (by simp)

end RtlsStream.Python
