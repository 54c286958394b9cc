/-
  Python/Numerals.lean --- numerals as people write them.

  JSON admits one spelling of a number's whole part; `int` and `float` admit leading
  zeros, a plus sign, and a point at either end.  The three relations say which texts
  spell a number, and the three theorems that `int`, `int(·, 16)` and `float` read it.
  A text with digits in which two characters are neither digits nor signs nor points
  is no float (`floatOfText_eq_none`).
-/
import RtlsStream.Python.Padding
import RtlsStream.Python.Print

set_option autoImplicit false

namespace RtlsStream.Python

open RtlsStream.Foundation

/-- A sign, which may be missing. -/
def Sign (s : Str) : Prop := s = [] ∨ s = [43] ∨ s = [45]

/-- A decimal integer of at most 4300 digits. -/
def SpellsDecimal (n : Int) (s : Str) : Prop :=
  ∃ sign ds, Sign sign ∧ (ds ≠ [] ∧ ∀ d ∈ ds, d < 10) ∧ ds.length ≤ maxStrDigits ∧
    s = sign ++ digitText ds ∧ n = signed (sign = [45]) (ofDigitList 10 ds)

/-- `0x` and hexadecimal digits. -/
def SpellsHex (n : Int) (s : Str) : Prop :=
  ∃ x hs ds, (x = 120 ∨ x = 88) ∧ hs ≠ [] ∧ hs.map asciiHexDigit = ds.map some ∧
    s = 48 :: x :: hs ∧ n = ofDigitList 16 ds

/-- A decimal number: digits with a point among them or without, and maybe an exponent.
`x` is the double nearest to it. -/
def SpellsNumber (x : Binary64) (s : Str) : Prop :=
  ∃ sign whole point fraction exponent e, Sign sign ∧ (∀ d ∈ whole, d < 10) ∧
    (∀ d ∈ fraction, d < 10) ∧ whole ++ fraction ≠ [] ∧
    (point = 46 :: digitText fraction ∨ (fraction = [] ∧ point = [])) ∧
    (exponent = [] ∧ e = 0 ∨ ∃ c es ds, (c = 101 ∨ c = 69) ∧ Sign es ∧
      (ds ≠ [] ∧ ∀ d ∈ ds, d < 10) ∧ exponent = c :: (es ++ digitText ds) ∧
        e = signed (es = [45]) (ofDigitList 10 ds)) ∧
    s = sign ++ (digitText whole ++ point ++ exponent) ∧
    x = .ofDecimal (sign = [45]) (ofDigitList 10 (whole ++ fraction)) (e - fraction.length)

/-! ## Plain texts -/

theorem plain_append {a b : Str} (ha : Plain a) (hb : Plain b) : Plain (a ++ b) := by
  intro c hc
  exact (List.mem_append.mp hc).elim (ha c) (hb c)

theorem plain_nil : Plain [] := by simp [Plain]

theorem Sign.plain {s : Str} (h : Sign s) : Plain s := by
  rcases h with rfl | rfl | rfl <;> simp [Plain] <;> decide

theorem plain_digitText {ds : List Nat} (h : ∀ d ∈ ds, d < 10) : Plain (digitText ds) :=
  fun c hc => digit_plain (isAsciiDigit_digitText h c hc)

/-- A sign in front of what does not start with one. -/
theorem takeSign_append {sign rest : Str} (h : Sign sign)
    (hrest : ∀ c ∈ rest.head?, c ≠ 43 ∧ c ≠ 45) :
    takeSign (sign ++ rest) = (decide (sign = [45]), rest) := by
  rcases h with rfl | rfl | rfl
  · cases rest with
    | nil => rfl
    | cons c rest =>
      obtain ⟨hplus, hminus⟩ := hrest c rfl
      rw [List.nil_append]
      unfold takeSign
      split
      · rename_i heq
        exact absurd (List.cons.inj heq).1 hminus
      · rename_i heq
        exact absurd (List.cons.inj heq).1 hplus
      · rfl
  · rfl
  · rfl

theorem digit_not_sign {c : Nat} (h : isAsciiDigit c) : c ≠ 43 ∧ c ≠ 45 := by
  obtain ⟨hlo, -⟩ := digit_bounds h
  constructor <;> omega

/-- A decimal integer has signs and digits only. -/
theorem SpellsDecimal.chars {n : Int} {s : Str} (h : SpellsDecimal n s) :
    ∀ c : Nat, c ∈ s → c < 58 := by
  obtain ⟨sign, ds, hsign, ⟨-, hds⟩, -, rfl, -⟩ := h
  intro c hc
  rcases List.mem_append.mp hc with hc | hc
  · rcases hsign with rfl | rfl | rfl
    · cases hc
    · obtain rfl := List.mem_singleton.mp hc
      decide
    · obtain rfl := List.mem_singleton.mp hc
      decide
  · have hbounds := digit_bounds (isAsciiDigit_digitText hds c hc)
    omega

/-! ## What a float has besides digits -/

/-- Neither a digit nor a sign nor a point: what a float may have one of, before its exponent. -/
def isMark (c : CodePoint) : Bool := !isAsciiDigit c && c ≠ 43 && c ≠ 45 && c ≠ 46

theorem countP_isMark_digits {ds : Str} (h : ∀ c ∈ ds, isAsciiDigit c) : ds.countP isMark = 0 := by
  rw [List.countP_eq_zero]
  intro c hc
  simp [isMark, h c hc]

/-- A sign is no mark. -/
theorem countP_isMark_takeSign (s : Str) : (takeSign s).2.countP isMark = s.countP isMark := by
  unfold takeSign
  split
  · exact (List.countP_cons_of_neg (by decide)).symm
  · exact (List.countP_cons_of_neg (by decide)).symm
  · rfl

theorem mem_takeSign {s : Str} {c : Nat} (hc : c ∈ s) (hdigit : isAsciiDigit c) :
    c ∈ (takeSign s).2 := by
  have hnone : c ≠ 45 ∧ c ≠ 43 := by
    obtain ⟨hlo, -⟩ := digit_bounds hdigit
    constructor <;> omega
  unfold takeSign
  split
  · exact (List.mem_cons.mp hc).resolve_left hnone.1
  · exact (List.mem_cons.mp hc).resolve_left hnone.2
  · exact hc

theorem countP_isMark_of_readExponent {s : Str} {e : Int} (h : readExponent s = some e) :
    s.countP isMark ≤ 1 := by
  unfold readExponent at h
  split at h
  · simp
  · rename_i c rest
    split at h
    · simp only [Option.ite_none_right_eq_some] at h
      obtain ⟨⟨-, hdigits⟩, -⟩ := h
      rw [List.all_eq_true] at hdigits
      have hrest : rest.countP isMark = 0 :=
        (countP_isMark_takeSign rest).symm.trans (countP_isMark_digits hdigits)
      rw [List.countP_cons, hrest]
      split <;> omega
    · cases h

/-- An unsigned decimal has no mark but the one of its exponent. -/
theorem countP_isMark_of_readDecimal {s : Str} {r : Nat × Int} (h : readDecimal s = some r) :
    s.countP isMark ≤ 1 := by
  have hwhole : (s.takeWhile isAsciiDigit).countP isMark = 0 :=
    countP_isMark_digits fun c hc => List.mem_takeWhile_imp hc
  have hsplit : s.countP isMark = (s.dropWhile isAsciiDigit).countP isMark := by
    conv_lhs => rw [← List.takeWhile_append_dropWhile (p := isAsciiDigit) (l := s)]
    rw [List.countP_append, hwhole, Nat.zero_add]
  rw [hsplit]
  unfold readDecimal at h
  simp only at h
  split at h
  · rename_i rest hpoint
    rw [hpoint, List.countP_cons_of_neg (by decide)]
    split at h
    · cases h
    · obtain ⟨e, he, -⟩ := Option.map_eq_some_iff.mp h
      have hfraction : (rest.takeWhile isAsciiDigit).countP isMark = 0 :=
        countP_isMark_digits fun c hc => List.mem_takeWhile_imp hc
      conv_lhs => rw [← List.takeWhile_append_dropWhile (p := isAsciiDigit) (l := rest)]
      rw [List.countP_append, hfraction, Nat.zero_add]
      exact countP_isMark_of_readExponent he
  · split at h
    · cases h
    · obtain ⟨e, he, -⟩ := Option.map_eq_some_iff.mp h
      exact countP_isMark_of_readExponent he

theorem asciiLower_digit {c : Nat} (h : isAsciiDigit c) : asciiLower c = c := by
  obtain ⟨-, hhi⟩ := digit_bounds h
  have hsmall : ¬(65 ≤ c ∧ c ≤ 90) := by omega
  exact if_neg hsmall

/-- The words have no digits. -/
theorem not_digit_of_readSpecial {negative : Bool} {s : Str} {x : Binary64}
    (h : readSpecial negative s = some x) : ∀ c ∈ s, isAsciiDigit c = false := by
  have hwords : ∀ word ∈ [text "inf", text "infinity", text "nan"], ∀ c ∈ word,
      isAsciiDigit c = false := by decide
  have hword : ∀ word, s.map asciiLower = word → word ∈ [text "inf", text "infinity", text "nan"] →
      ∀ c ∈ s, isAsciiDigit c = false := by
    intro word hword hmem c hc
    have hlower : isAsciiDigit (asciiLower c) = false :=
      hwords word hmem _ (hword ▸ List.mem_map_of_mem hc)
    by_contra hdigit
    rw [Bool.not_eq_false] at hdigit
    rw [asciiLower_digit hdigit, hdigit] at hlower
    cases hlower
  unfold readSpecial at h
  simp only at h
  split at h
  · rename_i hinf
    rcases hinf with hinf | hinf
    · exact hword _ hinf (by simp)
    · exact hword _ hinf (by simp)
  · split at h
    · rename_i hnan
      exact hword _ hnan (by simp)
    · cases h

variable [Runtime]

/-! ## The ASCII form -/

theorem decimalDigit_lt {c d : Nat} (h : decimalDigit c = some d) : d < 10 := by
  unfold decimalDigit at h
  split at h
  · unfold asciiDigit at h
    obtain ⟨⟨-, hhi⟩, hd⟩ := Option.ite_none_right_eq_some.mp h
    have hvalue : c - 48 = d := Option.some.inj hd
    have hbound : c ≤ 57 := hhi
    omega
  · obtain ⟨k, -, rfl⟩ := Option.map_eq_some_iff.mp h
    exact k.isLt

/-- A digit of any script is no white space. -/
theorem not_isSpace_of_decimalDigit {c d : Nat} (h : decimalDigit c = some d) :
    isSpace c = false := by
  by_contra hspace
  rw [Bool.not_eq_false] at hspace
  unfold decimalDigit at h
  split at h
  · have hdigit : isAsciiDigit c := Option.isSome_of_eq_some h
    obtain ⟨hlo, hhi⟩ := digit_bounds hdigit
    interval_cases c <;> cases hspace
  · rw [Runtime.decimal_of_isSpace c hspace] at h
    cases h

/-- A digit of any script becomes an ASCII digit. -/
theorem toAsciiNumeral_digit {c d : Nat} (h : decimalDigit c = some d) :
    toAsciiNumeral [c] = [d + 48] := by
  simp only [toAsciiNumeral, List.map_cons, List.map_nil, List.cons.injEq, and_true]
  split
  · rename_i hascii
    rw [decimalDigit, if_pos hascii] at h
    unfold asciiDigit at h
    obtain ⟨⟨hlo, -⟩, hd⟩ := Option.ite_none_right_eq_some.mp h
    have hvalue : c - 48 = d := Option.some.inj hd
    have hbound : 48 ≤ c := hlo
    have hsum : c = d + 48 := by omega
    exact hsum
  · rw [if_neg (by simp [not_isSpace_of_decimalDigit h]), h]
    exact Nat.add_comm _ _

theorem toAsciiNumeral_append (a b : Str) :
    toAsciiNumeral (a ++ b) = toAsciiNumeral a ++ toAsciiNumeral b := List.map_append

theorem toAsciiNumeral_digits {s : Str} (h : ∀ c ∈ s, (decimalDigit c).isSome) :
    toAsciiNumeral s = digitText (s.filterMap decimalDigit) ∧
      (s.filterMap decimalDigit).length = s.length := by
  induction s with
  | nil => exact ⟨rfl, rfl⟩
  | cons c rest ih =>
    obtain ⟨d, hd⟩ := Option.isSome_iff_exists.mp (h c List.mem_cons_self)
    obtain ⟨htext, hlength⟩ := ih fun c' hc' => h c' (List.mem_cons_of_mem c hc')
    rw [List.filterMap_cons_some hd, ← List.singleton_append, toAsciiNumeral_append,
      toAsciiNumeral_digit hd, htext]
    exact ⟨rfl, by simp [hlength]⟩

theorem underscore_of_toAsciiNumeral {s : Str} (h : (95 : Nat) ∈ toAsciiNumeral s) :
    (95 : Nat) ∈ s := by
  obtain ⟨c, hc, hform⟩ := List.mem_map.mp h
  split at hform
  · exact hform ▸ hc
  · split at hform
    · cases hform
    · split at hform
      · rename_i d hd
        have hlt := decimalDigit_lt hd
        have hsum : 48 + d = 95 := hform
        omega
      · cases hform

/-- `float` looks at the ASCII form only. -/
theorem floatOfText_congr {s t : Str} (h : toAsciiNumeral s = toAsciiNumeral t) :
    floatOfText s = floatOfText t := by
  rw [floatOfText, floatOfText, numeral, numeral, h]

omit [Runtime] in
theorem isSpace_of_isAsciiSpace {c : Nat} (h : isAsciiSpace c) : isSpace c := by
  simp only [isAsciiSpace, Bool.or_eq_true, Bool.and_eq_true, decide_eq_true_eq, beq_iff_eq] at h
  rcases h with ⟨hlo, hhi⟩ | rfl
  · simp [isSpace, hlo, hhi]
  · rfl

/-- What `float` takes for a blank is white space. -/
theorem isSpace_of_toAsciiNumeral {c b : Nat} (h : toAsciiNumeral [c] = [b])
    (hblank : isAsciiSpace b) : isSpace c := by
  simp only [toAsciiNumeral, List.map_cons, List.map_nil, List.cons.injEq, and_true] at h
  split at h
  · exact isSpace_of_isAsciiSpace (h ▸ hblank)
  · split at h
    · assumption
    · split at h
      · rename_i d hd
        have hdigit : isAsciiDigit b := by
          rw [← h, Nat.add_comm]
          simp [isAsciiDigit, asciiDigit_add (decimalDigit_lt hd)]
        rw [(digit_plain hdigit).2.1] at hblank
        cases hblank
      · subst h
        cases hblank

/-- `float` finds no blanks around a text that has been stripped. -/
theorem numeral_strip (s : Str) : numeral (strip s) = toAsciiNumeral (strip s) := by
  obtain ⟨hfront, hback⟩ := (trimmed_strip s).dropWhile_eq
  generalize strip s = t at hfront hback
  have hkeep : ∀ u : Str, u.dropWhile isSpace = u →
      (toAsciiNumeral u).dropWhile isAsciiSpace = toAsciiNumeral u := by
    intro u hu
    unfold toAsciiNumeral
    rw [List.dropWhile_map, dropWhile_self_of_imp _ hu]
    exact fun c hc => isSpace_of_toAsciiNumeral rfl hc
  have hreverse : (toAsciiNumeral t).reverse = toAsciiNumeral t.reverse := List.map_reverse.symm
  rw [numeral, hkeep t hfront, List.rdropWhile, hreverse, hkeep _ hback, ← hreverse,
    List.reverse_reverse]

/-! ## Integers -/

theorem intOfText_spelled {n : Int} {s : Str} (h : SpellsDecimal n s) :
    intOfText s = some n := by
  obtain ⟨sign, ds, hsign, ⟨hne, hds⟩, hlength, rfl, rfl⟩ := h
  have hplain := plain_append hsign.plain (plain_digitText hds)
  have hhead : ∀ c ∈ (digitText ds).head?, c ≠ 43 ∧ c ≠ 45 :=
    fun c hc => digit_not_sign (isAsciiDigit_digitText hds c (List.mem_of_mem_head? hc))
  unfold intOfText
  rw [numeral_plain hplain, takeSign_append hsign hhead]
  simp [readDigits_digitText hds fun _ => hne, hlength]

omit [Runtime] in
theorem asciiHexDigit_bounds {c d : Nat} (h : asciiHexDigit c = some d) :
    (48 ≤ c ∧ c ≤ 57) ∨ (97 ≤ c ∧ c ≤ 102) ∨ (65 ≤ c ∧ c ≤ 70) := by
  unfold asciiHexDigit at h
  split at h
  · exact Or.inl ‹_›
  · split at h
    · exact Or.inr (Or.inl ‹_›)
    · split at h
      · exact Or.inr (Or.inr ‹_›)
      · cases h

omit [Runtime] in
theorem asciiHexDigit_plain {c d : Nat} (h : asciiHexDigit c = some d) :
    c < 128 ∧ isAsciiSpace c = false ∧ c ≠ 95 := by
  rcases asciiHexDigit_bounds h with ⟨hlo, hhi⟩ | ⟨hlo, hhi⟩ | ⟨hlo, hhi⟩ <;>
    interval_cases c <;> decide

omit [Runtime] in
theorem SpellsHex.plain {n : Int} {s : Str} (h : SpellsHex n s) : Plain s := by
  obtain ⟨x, hs, ds, hx, -, hdigits, rfl, -⟩ := h
  intro c hc
  rcases List.mem_cons.mp hc with rfl | hc
  · decide
  · rcases List.mem_cons.mp hc with rfl | hc
    · rcases hx with rfl | rfl <;> decide
    · have hmem : asciiHexDigit c ∈ ds.map some := hdigits ▸ List.mem_map_of_mem hc
      obtain ⟨d, -, hd⟩ := List.mem_map.mp hmem
      exact asciiHexDigit_plain hd.symm

omit [Runtime] in
theorem readDigits_hex {hs : Str} {ds : List Nat} (h : hs.map asciiHexDigit = ds.map some)
    {due : Bool} (hdue : due = true → hs ≠ []) : readDigits asciiHexDigit due hs = some ds := by
  induction hs generalizing ds due with
  | nil =>
    obtain rfl : ds = [] := by simpa using h.symm
    cases due with
    | true => exact absurd rfl (hdue rfl)
    | false => rfl
  | cons c hs ih =>
    cases ds with
    | nil => cases h
    | cons d ds =>
      obtain ⟨hd, hrest⟩ := List.cons.inj h
      have hunderscore : c ≠ 95 := (asciiHexDigit_plain hd).2.2
      rw [readDigits, if_neg hunderscore, hd]
      have htail : readDigits asciiHexDigit false hs = some ds := ih hrest (by simp)
      simp [htail]

theorem intOfHexText_spelled {n : Int} {s : Str} (h : SpellsHex n s) : intOfHexText s = some n := by
  have hplain := h.plain
  obtain ⟨x, hs, ds, hx, hne, hdigits, rfl, rfl⟩ := h
  have hprefix : dropHexPrefix (48 :: x :: hs) = hs := by
    obtain ⟨c, rest, rfl⟩ := List.exists_cons_of_ne_nil hne
    have hunderscore : c ≠ 95 := (hplain c (by simp)).2.2
    rcases hx with rfl | rfl <;> simp [dropHexPrefix, hunderscore]
  unfold intOfHexText
  rw [numeral_plain hplain]
  simp [takeSign, hprefix, readDigits_hex hdigits fun _ => hne, signed]

/-! ## Floats -/

omit [Runtime] in
/-- The exponent of a spelled number, and that its digits stop before it. -/
theorem readExponent_spelled {exponent : Str} {e : Int}
    (h : exponent = [] ∧ e = 0 ∨ ∃ c es ds, (c = 101 ∨ c = 69) ∧ Sign es ∧
      (ds ≠ [] ∧ ∀ d ∈ ds, d < 10) ∧ exponent = c :: (es ++ digitText ds) ∧
        e = signed (es = [45]) (ofDigitList 10 ds)) :
    readExponent exponent = some e ∧ Plain exponent ∧
      ∀ c ∈ exponent.head?, isAsciiDigit c = false ∧ c ≠ 46 ∧ c ≠ 43 ∧ c ≠ 45 := by
  rcases h with ⟨rfl, rfl⟩ | ⟨c, es, ds, hc, hes, ⟨hne, hds⟩, rfl, rfl⟩
  · exact ⟨rfl, plain_nil, by simp⟩
  · refine ⟨?_, ?_, ?_⟩
    · rw [readExponent_digits hc hes (digitText_digits hds hne), filterMap_digitText hds]
    · have hletter : Plain [c] := by rcases hc with rfl | rfl <;> simp [Plain] <;> decide
      exact plain_append hletter (plain_append hes.plain (plain_digitText hds))
    · intro c' hc'
      obtain rfl : c = c' := by simpa using hc'
      rcases hc with rfl | rfl <;> decide

omit [Runtime] in
/-- The digits on both sides of the point as one number. -/
theorem readDecimal_spelled {whole fraction : List Nat} {point exponent : Str} {e : Int}
    (hwhole : ∀ d ∈ whole, d < 10) (hfraction : ∀ d ∈ fraction, d < 10)
    (hne : whole ++ fraction ≠ [])
    (hpoint : point = 46 :: digitText fraction ∨ (fraction = [] ∧ point = []))
    (hstop : ∀ c ∈ exponent.head?, isAsciiDigit c = false ∧ c ≠ 46)
    (he : readExponent exponent = some e) :
    readDecimal (digitText whole ++ (point ++ exponent)) =
      some (ofDigitList 10 (whole ++ fraction), e - fraction.length) := by
  have hbehind : ∀ c ∈ (point ++ exponent).head?, isAsciiDigit c = false := by
    intro c hc
    rcases hpoint with rfl | ⟨-, rfl⟩
    · obtain rfl : 46 = c := by simpa using hc
      decide
    · exact (hstop c hc).1
  obtain ⟨htake, hdrop⟩ := takeWhile_run (isAsciiDigit_digitText hwhole) hbehind
  have hdigits : (digitText whole ++ digitText fraction).filterMap asciiDigit =
      whole ++ fraction := by
    rw [List.filterMap_append, filterMap_digitText hwhole, filterMap_digitText hfraction]
  have hsome : ¬ (digitText whole = [] ∧ digitText fraction = []) := by
    rintro ⟨hw, hf⟩
    simp only [digitText, List.map_eq_nil_iff] at hw hf
    exact hne (by rw [hw, hf]; rfl)
  unfold readDecimal
  rw [htake, hdrop]
  rcases hpoint with rfl | ⟨rfl, rfl⟩
  · obtain ⟨htake', hdrop'⟩ := takeWhile_run (isAsciiDigit_digitText hfraction)
      fun c hc => (hstop c hc).1
    simp only [List.cons_append, htake', hdrop', if_neg hsome, he, Option.map_some, hdigits]
    simp [digitText]
  · have hwhole' : digitText whole ≠ [] := fun hw => hsome ⟨hw, rfl⟩
    cases exponent with
    | nil => simp [hwhole', he, filterMap_digitText hwhole]
    | cons c rest =>
      have hc : c ≠ 46 := (hstop c rfl).2
      simp only [List.nil_append]
      split
      · rename_i heq
        exact absurd (List.cons.inj heq).1 hc
      · simp [hwhole', he, filterMap_digitText hwhole]

omit [Runtime] in
theorem SpellsNumber.plain {x : Binary64} {s : Str} (h : SpellsNumber x s) : Plain s := by
  obtain ⟨sign, whole, point, fraction, exponent, e, hsign, hwhole, hfraction, -, hpoint,
    hexponent, rfl, -⟩ := h
  have hplainPoint : Plain point := by
    rcases hpoint with rfl | ⟨-, rfl⟩
    · exact plain_append (a := [46]) (by simp [Plain]; decide) (plain_digitText hfraction)
    · exact plain_nil
  exact plain_append hsign.plain (plain_append (plain_append (plain_digitText hwhole) hplainPoint)
    (readExponent_spelled hexponent).2.1)

theorem floatOfText_spelled {x : Binary64} {s : Str} (h : SpellsNumber x s) :
    floatOfText s = some x := by
  have hplain := h.plain
  obtain ⟨sign, whole, point, fraction, exponent, e, hsign, hwhole, hfraction, hne, hpoint,
    hexponent, rfl, rfl⟩ := h
  obtain ⟨he, -, hstop⟩ := readExponent_spelled hexponent
  rw [List.append_assoc] at hplain
  have hhead : ∀ c ∈ (digitText whole ++ (point ++ exponent)).head?, c ≠ 43 ∧ c ≠ 45 := by
    intro c hc
    cases whole with
    | cons d whole =>
      exact digit_not_sign (isAsciiDigit_digitText hwhole c (by
        obtain rfl : d + 48 = c := by simpa [digitText] using hc
        simp [digitText]))
    | nil =>
      rcases hpoint with rfl | ⟨rfl, rfl⟩
      · obtain rfl : 46 = c := by simpa [digitText] using hc
        decide
      · exact absurd rfl hne
  have hread := readDecimal_spelled hwhole hfraction hne hpoint
    (fun c hc => ⟨(hstop c hc).1, (hstop c hc).2.1⟩) he
  unfold floatOfText
  rw [List.append_assoc, numeral_plain hplain, dropUnderscores_plain hplain (by decide)]
  simp only [takeSign_append hsign hhead, hread]

/-! ## Texts that are no floats -/

/-- A text with a digit and two marks is no float. -/
theorem floatOfText_eq_none {s : Str} (hplain : (95 : Nat) ∉ numeral s)
    (hdigit : ∃ c ∈ numeral s, isAsciiDigit c) (hmarks : 2 ≤ (numeral s).countP isMark) :
    floatOfText s = none := by
  unfold floatOfText
  rw [dropUnderscores_self hplain (by decide)]
  generalize numeral s = t at hdigit hmarks
  rw [← countP_isMark_takeSign] at hmarks
  obtain ⟨c, hc, hdigit⟩ := hdigit
  have hmem := mem_takeSign hc hdigit
  simp only
  split
  · rename_i digits e hread
    have hle := countP_isMark_of_readDecimal hread
    omega
  · rw [Option.eq_none_iff_forall_ne_some]
    intro x hx
    have hnone := not_digit_of_readSpecial hx c hmem
    rw [hdigit] at hnone
    cases hnone

end RtlsStream.Python
