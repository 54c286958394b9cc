/-
  Python/Printable.lean --- what `json.loads` returns, `json.dumps` can print.

  `json.dumps` raises on two kinds of value only: an integer beyond the digit limit
  and a nesting beyond the recursion limit.  `json.loads` raises on the same two,
  so no value it returns is one of them (`dumpable_of_loadsBytes`), nor is any value
  inside it.
-/
import RtlsStream.Python.Bytes
import RtlsStream.Python.JsonGrammar
import Mathlib.Data.Nat.Digits.Lemmas

set_option autoImplicit false

namespace RtlsStream.Python

/-! ## Integers -/

theorem foldl_digits_lt {base : Nat} (digits : List Nat) (h : ∀ d ∈ digits, d < base)
    (acc : Nat) : digits.foldl (fun acc d => acc * base + d) acc < (acc + 1) * base ^ digits.length := by
  induction digits generalizing acc with
  | nil => simp
  | cons d rest ih =>
    have hd : d < base := h d (by simp)
    have hrest := ih (fun d' hd' => h d' (by simp [hd'])) (acc * base + d)
    have hstep : acc * base + d + 1 ≤ (acc + 1) * base := by
      rw [Nat.add_mul]
      omega
    calc (d :: rest).foldl (fun acc d => acc * base + d) acc
        = rest.foldl (fun acc d => acc * base + d) (acc * base + d) := rfl
      _ < (acc * base + d + 1) * base ^ rest.length := hrest
      _ ≤ (acc + 1) * base * base ^ rest.length := Nat.mul_le_mul_right _ hstep
      _ = (acc + 1) * base ^ (d :: rest).length := by
        rw [List.length_cons, Nat.pow_succ']
        ring

/-- A number is below the power of the base that its digits fill. -/
theorem ofDigitList_lt {base : Nat} {digits : List Nat} (h : ∀ d ∈ digits, d < base) :
    ofDigitList base digits < base ^ digits.length := by
  simpa [ofDigitList] using foldl_digits_lt digits h 0

theorem lt_of_asciiDigit {c d : Nat} (h : asciiDigit c = some d) : d < 10 := by
  unfold asciiDigit at h
  split at h
  · rename_i hc
    obtain rfl := Option.some.inj h
    have hhi : c ≤ 57 := hc.2
    omega
  · cases h

theorem lt_of_readDigits {due : Bool} {s : Str} {ds : List Nat}
    (h : readDigits asciiDigit due s = some ds) : ∀ d ∈ ds, d < 10 := by
  induction s generalizing due ds with
  | nil =>
    cases due with
    | true => simp [readDigits] at h
    | false =>
      obtain rfl := Option.some.inj (by simpa [readDigits] using h)
      simp
  | cons c rest ih =>
    simp only [readDigits] at h
    split at h
    · split at h
      · cases h
      · exact ih h
    · split at h
      · cases h
      · rename_i d hd
        obtain ⟨ds', hds', rfl⟩ := Option.map_eq_some_iff.mp h
        intro d' hd'
        rcases List.mem_cons.mp hd' with rfl | hd'
        · exact lt_of_asciiDigit hd
        · exact ih hds' d' hd'

/-- A number below a power of ten has at most so many digits. -/
theorem length_natText_le {n k : Nat} (hk : 0 < k) (h : n < 10 ^ k) : (natText n).length ≤ k := by
  unfold natText
  split
  · exact hk
  · rw [List.length_map, List.length_reverse]
    exact (Nat.digits_length_le_iff (by norm_num) n).mpr h

/-- An integer that `int` could read is one that `str` can write. -/
theorem strInt_of_intOfText [Runtime] {s : Str} {n : Int} (h : intOfText s = some n) :
    strInt n = .ok (intText n) := by
  simp only [intOfText] at h
  split at h
  · simp at h
  · rename_i ds hds
    split at h
    · rename_i hlen
      obtain rfl := Option.some.inj h
      have hlt : (signed (takeSign (numeral s)).1 (ofDigitList 10 ds)).natAbs < 10 ^ maxStrDigits := by
        have habs : (signed (takeSign (numeral s)).1 (ofDigitList 10 ds)).natAbs =
            ofDigitList 10 ds := by
          unfold signed
          split <;> simp
        rw [habs]
        exact (ofDigitList_lt (lt_of_readDigits hds)).trans_le
          (Nat.pow_le_pow_right (by norm_num) hlen)
      unfold strInt
      rw [if_pos (length_natText_le (by decide) hlt)]
    · simp at h

/-! ## Values that can be printed -/

/-- `json.dumps` prints the value inside at most `depth` containers. -/
def Dumpable (style : DumpStyle) (depth : Nat) (v : Json) : Prop :=
  ∃ t, dumpValue style depth v = .ok t

variable {style : DumpStyle} {depth : Nat}

theorem dumpItems_ok_iff {items : List Json} :
    (∃ t, dumpItems style depth items = .ok t) ↔ ∀ v ∈ items, Dumpable style depth v := by
  induction items with
  | nil => simp [dumpItems]
  | cons v rest ih =>
    rw [List.forall_mem_cons, ← ih, dumpItems]
    unfold Dumpable
    cases hv : dumpValue style depth v <;> cases hrest : dumpItems style depth rest <;>
      simp [bind, Except.bind]

theorem dumpMembers_ok_iff {members : List (Str × Json)} :
    (∃ t, dumpMembers style depth members = .ok t) ↔
      ∀ m ∈ members, Dumpable style depth m.2 := by
  induction members with
  | nil => simp [dumpMembers]
  | cons m rest ih =>
    obtain ⟨k, v⟩ := m
    rw [List.forall_mem_cons, ← ih, dumpMembers]
    unfold Dumpable
    cases hv : dumpValue style depth v <;> cases hrest : dumpMembers style depth rest <;>
      simp [bind, Except.bind]

@[simp] theorem dumpable_arr {items : List Json} :
    Dumpable style (depth + 1) (.arr items) ↔ ∀ v ∈ items, Dumpable style depth v := by
  rw [← dumpItems_ok_iff]
  unfold Dumpable
  cases h : dumpItems style depth items <;> simp [dumpValue, h, Except.map]

@[simp] theorem dumpable_obj {members : List (Str × Json)} :
    Dumpable style (depth + 1) (.obj members) ↔ ∀ m ∈ members, Dumpable style depth m.2 := by
  rw [← dumpMembers_ok_iff]
  unfold Dumpable
  cases h : dumpMembers style depth members <;> simp [dumpValue, h, Except.map]

/-- More room does no harm. -/
theorem Dumpable.succ {v : Json} (h : Dumpable style depth v) : Dumpable style (depth + 1) v := by
  induction depth generalizing v with
  | zero =>
    cases v with
    | arr items => simp [Dumpable, dumpValue] at h
    | obj members => simp [Dumpable, dumpValue] at h
    | null | bool | int | float | str => exact h
  | succ depth ih =>
    cases v with
    | arr items => exact dumpable_arr.mpr fun v hv => ih (dumpable_arr.mp h v hv)
    | obj members => exact dumpable_obj.mpr fun m hm => ih (dumpable_obj.mp h m hm)
    | null | bool | int | float | str => exact h

theorem Dumpable.mono {v : Json} (h : Dumpable style depth v) {more : Nat}
    (hle : depth ≤ more) : Dumpable style more v := by
  induction hle with
  | refl => exact h
  | step _ ih => exact ih.succ

/-! ## Values that are read -/

/-- Setting a member keeps every member printable. -/
theorem dumpable_set {members : Dict Json} {v : Json} (k : Str)
    (h : ∀ m ∈ members, Dumpable style depth m.2) (hv : Dumpable style depth v) :
    ∀ m ∈ members.set k v, Dumpable style depth m.2 := by
  induction members with
  | nil => simpa [Dict.set] using hv
  | cons head rest ih =>
    obtain ⟨k', v'⟩ := head
    simp only [List.forall_mem_cons] at h
    simp only [Dict.set]
    split
    · simp only [List.forall_mem_cons]
      exact ⟨hv, h.2⟩
    · simp only [List.forall_mem_cons]
      exact ⟨h.1, ih h.2⟩

variable [Runtime]

/-- A number that is read has few enough digits. -/
theorem dumpable_of_numberValue {isFloat : Bool} {number : Str} {v : Json}
    (h : numberValue isFloat number = .ok v) : Dumpable style depth v := by
  unfold numberValue at h
  split at h
  · split at h
    · obtain rfl := Except.ok.inj h
      exact ⟨_, rfl⟩
    · cases h
  · split at h
    · rename_i n hn
      obtain rfl := Except.ok.inj h
      exact ⟨_, strInt_of_intOfText hn⟩
    · cases h

mutual

/-- A value is printed in the room that its text was read in. -/
theorem Value.dumpable {depth : Nat} {c : Str} {v : Json} : Value depth c v → Dumpable style depth v
  | .string _ => ⟨_, rfl⟩
  | .keyword hword => by
    simp only [keywords, List.mem_cons, Prod.mk.injEq, List.not_mem_nil, or_false] at hword
    rcases hword with h | h | h | h | h | h <;> rw [h.2] <;> exact ⟨_, rfl⟩
  | .number _ hvalue => dumpable_of_numberValue hvalue
  | .emptyArray _ => dumpable_arr.mpr (by simp)
  | .array _ hitems => dumpable_arr.mpr hitems.dumpable
  | .emptyObject _ => dumpable_obj.mpr (by simp)
  | .object _ hmembers => dumpable_obj.mpr (hmembers.dumpable (by simp))

theorem Items.dumpable {depth : Nat} {c : Str} {items : List Json} :
    Items depth c items → ∀ v ∈ items, Dumpable style depth v
  | .last hvalue _ => by simpa using hvalue.dumpable
  | .more hvalue _ _ hrest => List.forall_mem_cons.mpr ⟨hvalue.dumpable, hrest.dumpable⟩

theorem Members.dumpable {depth : Nat} {before members : Dict Json} {c : Str} :
    Members depth before c members → (∀ m ∈ before, Dumpable style depth m.2) →
      ∀ m ∈ members, Dumpable style depth m.2
  | .last _ _ _ hvalue _, h => dumpable_set _ h hvalue.dumpable
  | .more _ _ _ hvalue _ _ hrest, h => hrest.dumpable (dumpable_set _ h hvalue.dumpable)

end

theorem dumpable_of_decodeDocument {s : Str} {v : Json} (h : decodeDocument s = .ok v) :
    Dumpable style Runtime.jsonDepth v := by
  obtain ⟨_, _, _, _, _, _, hvalue⟩ := decodeDocument_sound h
  exact hvalue.dumpable

/-- What `json.loads` of a byte string returns can be printed. -/
theorem dumpable_of_loadsBytes {b : Bytes} {v : Json} (h : loadsBytes b = .ok v) :
    Dumpable style Runtime.jsonDepth v := by
  unfold loadsBytes at h
  split at h
  · exact dumpable_of_decodeDocument h
  · cases h

omit [Runtime] in
/-- A member of a printable object is printable by itself. -/
theorem Dumpable.get? {members : Dict Json} {k : Str} {v : Json}
    (h : Dumpable style depth (.obj members)) (hget : members.get? k = some v) :
    Dumpable style depth v := by
  cases depth with
  | zero => simp [Dumpable, dumpValue] at h
  | succ depth => exact (dumpable_obj.mp h _ (Dict.get?_eq_some_mem hget)).succ

omit [Runtime] in
/-- The members of a printable object have one container less. -/
theorem Dumpable.member {members : Dict Json} {k : Str} {v : Json}
    (h : Dumpable style depth (.obj members)) (hget : members.get? k = some v) :
    Dumpable style (depth - 1) v := by
  cases depth with
  | zero => simp [Dumpable, dumpValue] at h
  | succ depth => exact dumpable_obj.mp h _ (Dict.get?_eq_some_mem hget)

omit [Runtime] in
theorem Dumpable.set {members : Dict Json} {v : Json} (h : Dumpable style depth (.obj members))
    (k : Str) (hv : Dumpable style (depth - 1) v) :
    Dumpable style depth (.obj (members.set k v)) := by
  cases depth with
  | zero => simp [Dumpable, dumpValue] at h
  | succ depth => exact dumpable_obj.mpr (dumpable_set k (dumpable_obj.mp h) hv)

end RtlsStream.Python
