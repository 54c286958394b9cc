/-
  Python/JsonLimits.lean --- what `json.loads` raises besides `JSONDecodeError`.

  An integer of more than 4300 digits raises `ValueError`, and a container inside more
  others than the interpreter admits raises `RecursionError`.  Both are raised where the
  scan comes to them, whatever follows.  `ValueBeyond depth s` says so of a text without
  a scanner: behind values that are read, `s` comes to such an integer or container.

      beyond_of_scan   a scan raises nothing else
      scan_of_beyond   and it raises there
-/
import RtlsStream.Python.Print

set_option autoImplicit false

namespace RtlsStream.Python

open RtlsStream.Foundation

/-- An exception that `except json.JSONDecodeError` lets through. -/
def Uncaught (e : PyError) : Prop := ∀ msg pos, e ≠ .jsonDecodeError msg pos

theorem caught_of_failAt {α : Type} {total : Nat} {msg : String} {rest : Str} {e : PyError}
    (h : failAt (α := α) total msg rest = .error e) : ¬ Uncaught e := by
  obtain rfl := Except.error.inj h
  exact fun hu => hu _ _ rfl

theorem map_eq_error {α β : Type} {x : Except PyError α} {f : α → β} {e : PyError} :
    x.map f = .error e ↔ x = .error e := by
  cases x <;> simp [Except.map]

/-! ## Strings and numbers -/

theorem caught_of_scanUnits {total : Nat} {opening s : Str} {e : PyError}
    (h : scanUnits total opening s = .error e) : ¬ Uncaught e := by
  fun_induction scanUnits total opening s with
  | case1 | case3 | case4 | case6 | case7 | case9 => exact caught_of_failAt h
  | case2 => cases h
  | case5 _ _ _ _ _ _ _ _ _ _ ih => exact ih (map_eq_error.mp h)
  | case8 _ _ _ _ _ _ _ _ ih => exact ih (map_eq_error.mp h)
  | case10 _ _ _ _ _ ih => exact ih (map_eq_error.mp h)

theorem caught_of_scanString {total : Nat} {s : Str} {e : PyError}
    (h : scanString total s = .error e) : ¬ Uncaught e :=
  caught_of_scanUnits (map_eq_error.mp h)

theorem readDigits_digits {ds : Str} (hds : ∀ c ∈ ds, isAsciiDigit c) (due : Bool)
    (hdue : due → ds ≠ []) :
    ∃ ns, readDigits asciiDigit due ds = some ns ∧ ns.length = ds.length := by
  induction ds generalizing due with
  | nil =>
    cases due with
    | false => exact ⟨[], by simp [readDigits], rfl⟩
    | true => exact absurd rfl (hdue rfl)
  | cons c rest ih =>
    rw [List.forall_mem_cons] at hds
    obtain ⟨ns, hns, hlength⟩ := ih hds.2 false (by simp)
    obtain ⟨n, hn⟩ := Option.isSome_iff_exists.mp hds.1
    have hplain : c ≠ 95 := (digit_plain hds.1).2.2
    exact ⟨n :: ns, by simp [readDigits, hplain, hn, hns], by simp [hlength]⟩

variable [Runtime]

/-- `int` refuses an integer for its length only. -/
theorem intOfText_eq_none_iff {sign integer : Str} (h : NumberText sign integer [] []) :
    intOfText (sign ++ integer) = none ↔ maxStrDigits < integer.length := by
  have hplain := h.plain
  simp only [List.append_nil] at hplain
  obtain ⟨d, ds, hcons, hd⟩ := h.integer_head
  obtain ⟨ns, hns, hlength⟩ :=
    readDigits_digits h.integer_digits.2 true fun _ => h.integer_digits.1
  have hread : intOfText (sign ++ integer) =
      if ns.length ≤ maxStrDigits then some (signed (sign = [45]) (ofDigitList 10 ns))
      else none := by
    unfold intOfText
    rw [numeral_plain hplain]
    rcases h.sign with rfl | rfl
    · rw [List.nil_append, hcons, takeSign_digit hd, ← hcons]
      simp [hns]
    · simp [takeSign, hns]
  rw [hread, hlength]
  split
  · simpa using ‹integer.length ≤ maxStrDigits›
  · simpa using ‹¬ integer.length ≤ maxStrDigits›

omit [Runtime] in
theorem NumberText.readExponent {sign integer fraction exponent : Str}
    (h : NumberText sign integer fraction exponent) : ∃ e, readExponent exponent = some e := by
  rcases h.exponent with rfl | ⟨a, s, ds, ha, hs, hds, rfl⟩
  · exact ⟨0, rfl⟩
  · exact ⟨_, readExponent_digits ha hs hds⟩

/-- The value of a number is refused for the length of an integer only. -/
theorem numberValue_eq_error {sign integer fraction exponent : Str}
    (h : NumberText sign integer fraction exponent) {e : PyError}
    (hvalue : numberValue (decide (fraction ≠ [] ∨ exponent ≠ []))
      (sign ++ integer ++ fraction ++ exponent) = .error e) :
    fraction = [] ∧ exponent = [] ∧ maxStrDigits < integer.length := by
  unfold numberValue at hvalue
  split at hvalue
  · obtain ⟨n, hn⟩ := h.readExponent
    rw [floatOfText_number h hn] at hvalue
    cases hvalue
  · rename_i hfloat
    have hnone : fraction = [] ∧ exponent = [] := by simpa using hfloat
    obtain ⟨rfl, rfl⟩ := hnone
    simp only [List.append_nil] at hvalue
    split at hvalue
    · cases hvalue
    · rename_i hint
      exact ⟨rfl, rfl, (intOfText_eq_none_iff h).mp hint⟩

omit [Runtime] in
/-- The text starts with an integer of more digits than `int` reads. -/
def IntegerBeyond (s : Str) : Prop :=
  ∃ sign integer rest, NumberText sign integer [] [] ∧ s = sign ++ integer ++ rest ∧
    matchNumber s = some (sign ++ integer, false, rest) ∧ maxStrDigits < integer.length

theorem beyond_of_scanScalar {total : Nat} {s : Str} {e : PyError}
    (h : scanScalar total s = .error e) (he : Uncaught e) : IntegerBeyond s := by
  unfold scanScalar at h
  split at h
  · cases h
  · split at h
    · rename_i number isFloat rest hnumber
      obtain ⟨sign, integer, fraction, exponent, htext, rfl, rfl, rfl⟩ := matchNumber_sound hnumber
      obtain ⟨rfl, rfl, hlength⟩ := numberValue_eq_error htext (map_eq_error.mp h)
      simp only [List.append_nil] at hnumber ⊢
      exact ⟨sign, integer, rest, htext, rfl, by simpa using hnumber, hlength⟩
    · exact absurd he (caught_of_failAt h)

theorem scanScalar_of_beyond {total : Nat} {s : Str} (h : IntegerBeyond s) :
    ∃ e, scanScalar total s = .error e ∧ Uncaught e := by
  obtain ⟨sign, integer, rest, htext, rfl, hnumber, hlength⟩ := h
  have hkeyword : matchKeyword (sign ++ integer ++ rest) = none := by
    simpa using matchKeyword_number htext rest
  have hint := (intOfText_eq_none_iff htext).mpr hlength
  refine ⟨_, by simp only [scanScalar, hkeyword, hnumber, numberValue, hint]; rfl, ?_⟩
  simp [Uncaught]

/-! ## Values -/

mutual

/-- The value at the start of the text cannot be read without coming to a number or a
container beyond the limits, where at most `depth` containers may be opened. -/
inductive ValueBeyond : Nat → Str → Prop
  | integer {depth : Nat} {s : Str} : IntegerBeyond s → ValueBeyond depth s
  | container {a : CodePoint} {s : Str} : a = 91 ∨ a = 123 → ValueBeyond 0 (a :: s)
  | array {depth : Nat} {ws s : Str} :
      Space ws → ItemsBeyond depth s → ValueBeyond (depth + 1) (91 :: (ws ++ s))
  | object {depth : Nat} {ws s : Str} :
      Space ws → MembersBeyond depth s → ValueBeyond (depth + 1) (123 :: (ws ++ s))

/-- The same of the items of an array. -/
inductive ItemsBeyond : Nat → Str → Prop
  | item {depth : Nat} {s : Str} : ValueBeyond depth s → ItemsBeyond depth s
  | more {depth : Nat} {c ws ws' s : Str} {v : Json} :
      Value depth c v → Space ws → Space ws' → ItemsBeyond depth s →
      ItemsBeyond depth (c ++ (ws ++ 44 :: (ws' ++ s)))

/-- The same of the members of an object. -/
inductive MembersBeyond : Nat → Str → Prop
  | member {depth : Nat} {k key ws₁ ws₂ s : Str} :
      StringBody k key → Space ws₁ → Space ws₂ → ValueBeyond depth s →
      MembersBeyond depth (34 :: (k ++ (ws₁ ++ 58 :: (ws₂ ++ s))))
  | more {depth : Nat} {k key ws₁ ws₂ c ws₃ ws₄ s : Str} {v : Json} :
      StringBody k key → Space ws₁ → Space ws₂ → Value depth c v → Space ws₃ → Space ws₄ →
      MembersBeyond depth s →
      MembersBeyond depth (34 :: (k ++ (ws₁ ++ 58 :: (ws₂ ++ (c ++ (ws₃ ++ 44 :: (ws₄ ++ s)))))))

end

/-- What an uncaught exception of the scans came to, with this fuel. -/
structure ScanRaises (total fuel : Nat) : Prop where
  value : ∀ {depth : Nat} {s : Str} {e : PyError}, scanValue total fuel depth s = .error e →
    2 * s.length + 1 ≤ fuel → Uncaught e → ValueBeyond depth s
  members : ∀ {depth : Nat} {before : Dict Json} {s : Str} {e : PyError},
    scanMembers total fuel depth before s = .error e →
      2 * s.length + 1 ≤ fuel → Uncaught e → MembersBeyond depth s
  items : ∀ {depth : Nat} {s : Str} {e : PyError}, scanItems total fuel depth s = .error e →
    2 * s.length + 2 ≤ fuel → Uncaught e → ItemsBeyond depth s

namespace ScanRaises

variable {total fuel depth : Nat} {s : Str} {e : PyError}

theorem value_succ (ih : ScanRaises total fuel)
    (h : scanValue total (fuel + 1) depth s = .error e) (hfuel : 2 * s.length + 1 ≤ fuel + 1)
    (he : Uncaught e) : ValueBeyond depth s := by
  have hscan := valueScan total fuel depth s
  generalize scanValue total (fuel + 1) depth s = r at h hscan
  cases hscan with
  | nothing => exact absurd he (caught_of_failAt h)
  | string => exact absurd he (caught_of_scanString (map_eq_error.mp h))
  | tooDeep ha => exact .container ha
  | emptyObject | emptyArray => cases h
  | object hws =>
    simp only [List.length_cons, List.length_append] at hfuel
    exact .object hws (ih.members (map_eq_error.mp h) (by omega) he)
  | array hws =>
    simp only [List.length_cons, List.length_append] at hfuel
    exact .array hws (ih.items (map_eq_error.mp h) (by omega) he)
  | scalar => exact .integer (beyond_of_scanScalar h he)

theorem members_succ (ih : ScanRaises total fuel) {before : Dict Json}
    (h : scanMembers total (fuel + 1) depth before s = .error e)
    (hfuel : 2 * s.length + 1 ≤ fuel + 1) (he : Uncaught e) : MembersBeyond depth s := by
  have hscan := membersScan total fuel depth before s
  generalize scanMembers total (fuel + 1) depth before s = r at h hscan
  cases hscan with
  | rejected => exact absurd he (caught_of_failAt h)
  | badKey hkey =>
    obtain rfl := Except.error.inj h
    exact absurd he (caught_of_scanString hkey)
  | badValue hkey h₁ h₂ hvalue =>
    obtain rfl := Except.error.inj h
    simp only [List.length_cons, List.length_append] at hfuel
    exact .member hkey h₁ h₂ (ih.value hvalue (by omega) he)
  | last => cases h
  | more hkey h₁ h₂ hvalue h₃ h₄ =>
    obtain ⟨c, rfl, hc⟩ := (scan_sound total fuel).value hvalue
    simp only [List.length_cons, List.length_append] at hfuel
    exact .more hkey h₁ h₂ hc h₃ h₄ (ih.members h (by omega) he)

theorem items_succ (ih : ScanRaises total fuel)
    (h : scanItems total (fuel + 1) depth s = .error e) (hfuel : 2 * s.length + 2 ≤ fuel + 1)
    (he : Uncaught e) : ItemsBeyond depth s := by
  have hscan := itemsScan total fuel depth s
  generalize scanItems total (fuel + 1) depth s = r at h hscan
  cases hscan with
  | rejected => exact absurd he (caught_of_failAt h)
  | badItem hitem =>
    obtain rfl := Except.error.inj h
    exact .item (ih.value hitem (by omega) he)
  | last => cases h
  | more hitem hws hws' =>
    obtain ⟨c, rfl, hc⟩ := (scan_sound total fuel).value hitem
    simp only [List.length_cons, List.length_append] at hfuel
    exact .more hc hws hws' (ih.items (map_eq_error.mp h) (by omega) he)

end ScanRaises

/-- What an uncaught exception of a scan came to; the fuel reaches the end of the text. -/
theorem beyond_of_scan (total fuel : Nat) : ScanRaises total fuel := by
  induction fuel with
  | zero => constructor <;> intros <;> omega
  | succ fuel ih => exact ⟨ih.value_succ, ih.members_succ, ih.items_succ⟩

/-! ## The scan comes to it -/

omit [Runtime] in
theorem NumberText.head_token {sign integer fraction exponent : Str}
    (h : NumberText sign integer fraction exponent) (rest : Str) :
    ∃ a t, sign ++ integer ++ fraction ++ exponent ++ rest = a :: t ∧
      isJsonSpace a = false ∧ a ≠ 93 ∧ a ≠ 34 ∧ a ≠ 123 ∧ a ≠ 91 := by
  obtain ⟨a, t, heq, ha⟩ := h.head
  refine ⟨a, t ++ rest, by rw [heq, List.cons_append], ?_⟩
  rcases ha with rfl | ha
  · decide
  · obtain ⟨hspace, h₁, h₂, h₃, h₄, -⟩ := digit_opens_nothing ha
    exact ⟨isJsonSpace_of_isSpace hspace, h₃, h₁, h₄, h₂⟩

theorem ValueBeyond.head {depth : Nat} {s : Str} (h : ValueBeyond depth s) :
    ∃ a t, s = a :: t ∧ isJsonSpace a = false ∧ a ≠ 93 := by
  cases h with
  | integer h =>
    obtain ⟨sign, integer, rest, htext, rfl, -, -⟩ := h
    obtain ⟨a, t, heq, hspace, hclose, -⟩ := htext.head_token rest
    exact ⟨a, t, by simpa using heq, hspace, hclose⟩
  | container ha =>
    rcases ha with rfl | rfl
    · exact ⟨91, _, rfl, by decide, by decide⟩
    · exact ⟨123, _, rfl, by decide, by decide⟩
  | array => exact ⟨91, _, rfl, by decide, by decide⟩
  | object => exact ⟨123, _, rfl, by decide, by decide⟩

theorem ItemsBeyond.head {depth : Nat} {s : Str} (h : ItemsBeyond depth s) :
    ∃ a t, s = a :: t ∧ isJsonSpace a = false ∧ a ≠ 93 := by
  cases h with
  | item h => exact h.head
  | more hvalue =>
    obtain ⟨a, t, rfl, hspace, hclose⟩ := hvalue.head
    exact ⟨a, _, rfl, isJsonSpace_of_isSpace hspace, hclose.1⟩

theorem MembersBeyond.head {depth : Nat} {s : Str} (h : MembersBeyond depth s) :
    ∃ t, s = 34 :: t := by
  cases h with
  | member => exact ⟨_, rfl⟩
  | more => exact ⟨_, rfl⟩

/-- With this fuel the scans raise where they come to something beyond the limits. -/
structure BeyondRaises (total fuel : Nat) : Prop where
  value : ∀ {depth : Nat} {s : Str}, ValueBeyond depth s → 2 * s.length + 1 ≤ fuel →
    ∃ e, scanValue total fuel depth s = .error e ∧ Uncaught e
  members : ∀ {depth : Nat} {s : Str}, MembersBeyond depth s →
    ∀ before, 2 * s.length + 1 ≤ fuel →
      ∃ e, scanMembers total fuel depth before s = .error e ∧ Uncaught e
  items : ∀ {depth : Nat} {s : Str}, ItemsBeyond depth s → 2 * s.length + 2 ≤ fuel →
    ∃ e, scanItems total fuel depth s = .error e ∧ Uncaught e

namespace BeyondRaises

variable {total fuel depth : Nat} {s : Str}

theorem value_succ (ih : BeyondRaises total fuel) (h : ValueBeyond depth s)
    (hfuel : 2 * s.length + 1 ≤ fuel + 1) :
    ∃ e, scanValue total (fuel + 1) depth s = .error e ∧ Uncaught e := by
  cases h with
  | integer h =>
    obtain ⟨sign, integer, rest, htext, heq, -, -⟩ := id h
    obtain ⟨a, t, hcons, -, -, hopens⟩ := htext.head_token rest
    simp only [List.append_nil, ← heq] at hcons
    rw [hcons] at h ⊢
    rw [scanValue_scalar hopens]
    exact scanScalar_of_beyond h
  | container ha =>
    refine ⟨.recursionError, ?_, by simp [Uncaught]⟩
    rcases ha with rfl | rfl <;> simp [scanValue]
  | @array depth ws s hws hitems =>
    obtain ⟨a, t, rfl, hspace, hclose⟩ := hitems.head
    have hskip := skipSpace_token hws t hspace
    obtain ⟨e, hscan, he⟩ := ih.items hitems (by simp at hfuel ⊢; omega)
    exact ⟨e, by simp [scanValue, hskip, hclose, hscan, Except.map], he⟩
  | @object depth ws s hws hmembers =>
    obtain ⟨t, rfl⟩ := hmembers.head
    have hskip := skipSpace_token hws t (a := 34) (by decide)
    obtain ⟨e, hscan, he⟩ := ih.members hmembers [] (by simp at hfuel ⊢; omega)
    exact ⟨e, by simp [scanValue, hskip, hscan, Except.map], he⟩

theorem members_succ (ih : BeyondRaises total fuel) (h : MembersBeyond depth s)
    (before : Dict Json) (hfuel : 2 * s.length + 1 ≤ fuel + 1) :
    ∃ e, scanMembers total (fuel + 1) depth before s = .error e ∧ Uncaught e := by
  cases h with
  | @member _ k key ws₁ ws₂ s hkey h₁ h₂ hvalue =>
    obtain ⟨a, t, rfl, hspace, -⟩ := hvalue.head
    have hcolon := skipSpace_token h₁ (a := 58) (ws₂ ++ a :: t) (by decide)
    have hblank := skipSpace_token h₂ t hspace
    obtain ⟨e, hscan, he⟩ := ih.value hvalue (by simp at hfuel ⊢; omega)
    exact ⟨e, by simp [scanMembers, scanString_complete hkey, hcolon, hblank, hscan], he⟩
  | @more _ k key ws₁ ws₂ c ws₃ ws₄ s v hkey h₁ h₂ hvalue h₃ h₄ hmembers =>
    obtain ⟨t, rfl⟩ := hmembers.head
    have hscan := (scan_complete total fuel).value hvalue (ws₃ ++ 44 :: (ws₄ ++ 34 :: t))
      (by simp at hfuel; omega) (follows_of_space_append h₃ (by simp [Follows]; decide))
    have hcolon := skipSpace_token h₁ (a := 58)
      (ws₂ ++ (c ++ (ws₃ ++ 44 :: (ws₄ ++ 34 :: t)))) (by decide)
    have hblank := hvalue.skipSpace h₂ (ws₃ ++ 44 :: (ws₄ ++ 34 :: t))
    have hskip := skipSpace_token h₃ (a := 44) (ws₄ ++ 34 :: t) (by decide)
    have hnext := skipSpace_token h₄ (a := 34) t (by decide)
    obtain ⟨e, hmore, he⟩ := ih.members hmembers (before.set key v)
      (by simp at hfuel ⊢; omega)
    exact ⟨e, by simp [scanMembers, scanString_complete hkey, hcolon, hblank, hscan, hskip,
      hnext, hmore], he⟩

theorem items_succ (ih : BeyondRaises total fuel) (h : ItemsBeyond depth s)
    (hfuel : 2 * s.length + 2 ≤ fuel + 1) :
    ∃ e, scanItems total (fuel + 1) depth s = .error e ∧ Uncaught e := by
  cases h with
  | item hvalue =>
    obtain ⟨e, hscan, he⟩ := ih.value hvalue (by omega)
    exact ⟨e, by simp [scanItems, hscan], he⟩
  | @more _ c ws ws' s v hvalue hws hws' hitems =>
    obtain ⟨a, t, rfl, hspace, -⟩ := hitems.head
    have hscan := (scan_complete total fuel).value hvalue (ws ++ 44 :: (ws' ++ a :: t))
      (by simp at hfuel; omega) (follows_of_space_append hws (by simp [Follows]; decide))
    have hskip := skipSpace_token hws (a := 44) (ws' ++ a :: t) (by decide)
    have hnext := skipSpace_token hws' t hspace
    obtain ⟨e, hmore, he⟩ := ih.items hitems (by simp at hfuel ⊢; omega)
    exact ⟨e, by simp [scanItems, hscan, hskip, hnext, hmore, Except.map], he⟩

end BeyondRaises

/-- A scan that comes to a number or a container beyond the limits raises. -/
theorem scan_of_beyond (total fuel : Nat) : BeyondRaises total fuel := by
  induction fuel with
  | zero => constructor <;> intros <;> omega
  | succ fuel ih => exact ⟨ih.value_succ, ih.members_succ, ih.items_succ⟩

/-! ## Documents -/

/-- `json.loads` raises something else than `JSONDecodeError` exactly when it comes to a
number or a container beyond the limits. -/
theorem loads_uncaught_iff {s : Str} (hhead : s.head? = some 123) :
    (∃ e, loads s = .error e ∧ Uncaught e) ↔ ValueBeyond Runtime.jsonDepth s := by
  obtain ⟨t, rfl⟩ : ∃ t, s = 123 :: t := List.head?_eq_some_iff.mp hhead
  have hskip : skipSpace (123 :: t) = 123 :: t := by simp [skipSpace, isJsonSpace]
  have hdecode : loads (123 :: t) = decodeDocument (123 :: t) := by simp [loads]
  rw [hdecode, decodeDocument, hskip]
  constructor
  · rintro ⟨e, h, he⟩
    split at h
    · rename_i hscan
      obtain rfl := Except.error.inj h
      exact (beyond_of_scan _ _).value hscan (by omega) he
    · split at h
      · cases h
      · exact absurd he (caught_of_failAt h)
  · intro h
    obtain ⟨e, hscan, he⟩ := (scan_of_beyond (123 :: t).length (2 * (123 :: t).length + 2)).value h
      (by omega)
    exact ⟨e, by rw [hscan], he⟩

end RtlsStream.Python
