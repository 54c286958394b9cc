/-
  Python/Encodable.lean --- which printed values `str.encode("utf-8")` accepts.

  Only a surrogate cannot be encoded, and printing adds ASCII characters only, so a
  value is printed as a text that can be encoded exactly when its strings can
  (`encodable_of_dump`, `encodableJson_of_dump`).  A text that was decoded from UTF-8 is one
  (`encodable_of_decodeUtf8`).
-/
import RtlsStream.Python.RoundTrip

set_option autoImplicit false

namespace RtlsStream.Python

open RtlsStream.Foundation

/-- Every code point can be encoded. -/
def IsEncodable (s : Str) : Prop := ∀ c ∈ s, (encodeChar c).isSome

instance (s : Str) : Decidable (IsEncodable s) :=
  inferInstanceAs (Decidable (∀ c ∈ s, (encodeChar c).isSome))

theorem encodable_nil : IsEncodable [] := by simp [IsEncodable]

@[simp] theorem encodable_append {a b : Str} :
    IsEncodable (a ++ b) ↔ IsEncodable a ∧ IsEncodable b := by
  simp only [IsEncodable, List.mem_append, or_imp, forall_and]

@[simp] theorem encodable_cons {c : CodePoint} {s : Str} :
    IsEncodable (c :: s) ↔ (encodeChar c).isSome ∧ IsEncodable s := by
  simp only [IsEncodable, List.forall_mem_cons]

theorem encodeUtf8_isSome {s : Str} : (encodeUtf8 s).isSome ↔ IsEncodable s := by
  induction s with
  | nil => simp [encodeUtf8, IsEncodable]
  | cons c rest ih =>
    rw [encodable_cons, ← ih, encodeUtf8]
    cases encodeChar c <;> cases encodeUtf8 rest <;> simp

theorem encodeChar_ascii {c : Nat} (h : c < 128) : (encodeChar c).isSome := by
  simp [encodeChar, h]

/-- ASCII text can be encoded. -/
theorem encodable_of_ascii {s : Str} (h : ∀ c ∈ s, (c : Nat) < 128) : IsEncodable s :=
  fun c hc => encodeChar_ascii (h c hc)

/-! ## Decoded text -/

theorem encodeChar_isSome {c : Nat} (h : c < 0x110000) (hsurrogate : isSurrogate c = false) :
    (encodeChar c).isSome := by
  unfold encodeChar
  split
  · rfl
  · split
    · rfl
    · rw [if_neg (by simp [hsurrogate])]
      split
      · rfl
      · simp

theorem not_isSurrogate_of_lt {c : Nat} (h : c < 0x800) : isSurrogate c = false := by
  have hlow : ¬ 0xd800 ≤ c := by omega
  simp [isSurrogate, hlow]

theorem encodeChar_threeBytes {a b c : UInt8} {cp : Nat} (h : threeBytes false a b c = some cp) :
    (encodeChar cp).isSome := by
  unfold threeBytes at h
  simp only at h
  split at h
  · rename_i hcp
    obtain rfl := Option.some.inj h
    obtain ⟨-, ha, hb, hc, -, hsurrogate⟩ := hcp
    simp only [isContinuation, Bool.and_eq_true, decide_eq_true_eq] at hb hc
    refine encodeChar_isSome (by omega) ?_
    simpa using hsurrogate
  · cases h

theorem encodeChar_fourBytes {a b c d : UInt8} {cp : Nat} (h : fourBytes a b c d = some cp) :
    (encodeChar cp).isSome := by
  unfold fourBytes at h
  simp only at h
  split at h
  · rename_i hcp
    obtain rfl := Option.some.inj h
    obtain ⟨-, -, -, -, hlow, hhigh⟩ := hcp
    refine encodeChar_isSome hhigh ?_
    have hbeyond : ¬ (a.toNat - 0xf0) * 0x40000 + (b.toNat - 0x80) * 0x1000 +
        (c.toNat - 0x80) * 0x40 + (d.toNat - 0x80) ≤ 0xdfff := by omega
    simp [isSurrogate, hbeyond]
  · cases h

/-- What was decoded from UTF-8 can be encoded. -/
theorem encodable_of_decodeUtf8 {b : Bytes} {s : Str} (h : decodeUtf8 false b = some s) :
    IsEncodable s := by
  fun_induction decodeUtf8 false b generalizing s with
  | case1 =>
    obtain rfl := Option.some.inj h
    exact encodable_nil
  | case2 a rest ha ih =>
    obtain ⟨t, ht, rfl⟩ := Option.map_eq_some_iff.mp h
    exact encodable_cons.mpr ⟨encodeChar_ascii ha, ih ht⟩
  | case3 | case5 | case7 | case9 => cases h
  | case4 a _ b rest hab ih =>
    obtain ⟨t, ht, rfl⟩ := Option.map_eq_some_iff.mp h
    obtain ⟨-, ha, hb⟩ := hab
    simp only [isContinuation, Bool.and_eq_true, decide_eq_true_eq] at hb
    have hlt : (a.toNat - 192) * 64 + (b.toNat - 128) < 0x800 := by omega
    exact encodable_cons.mpr
      ⟨encodeChar_isSome (by omega) (not_isSurrogate_of_lt hlt), ih ht⟩
  | case6 a _ b _ c rest cp hcp ih =>
    obtain ⟨t, ht, rfl⟩ := Option.map_eq_some_iff.mp h
    exact encodable_cons.mpr ⟨encodeChar_threeBytes hcp, ih ht⟩
  | case8 a _ b _ c _ d rest cp hcp ih =>
    obtain ⟨t, ht, rfl⟩ := Option.map_eq_some_iff.mp h
    exact encodable_cons.mpr ⟨encodeChar_fourBytes hcp, ih ht⟩

/-! ## Printed text -/

theorem ascii_of_plain {s : Str} (h : Plain s) : IsEncodable s :=
  encodable_of_ascii fun c hc => (h c hc).1

theorem encodable_ite {p : Prop} [Decidable p] {a b : Str} (ha : IsEncodable a)
    (hb : IsEncodable b) : IsEncodable (if p then a else b) := by
  split
  · exact ha
  · exact hb

theorem encodable_escapeChar {c : CodePoint} (h : (encodeChar c).isSome) :
    IsEncodable (escapeChar false c) := by
  have hhex : ∀ n : Nat, n < 16 → (encodeChar (hexDigit n)).isSome := by
    intro n hn
    interval_cases n <;> decide
  have hdigit : ∀ n : Nat, (encodeChar (hexDigit (n % 16))).isSome :=
    fun n => hhex _ (Nat.mod_lt _ (by norm_num))
  have hunit : IsEncodable (unitEscape c) := by
    simp only [unitEscape, encodable_cons, hdigit, encodable_nil, and_true]
    decide
  have hself : IsEncodable [c] := by simpa [encodable_nil] using h
  unfold escapeChar
  -- the one-letter escapes, then the escape of a control character, then the character itself
  iterate 7 refine encodable_ite (by decide) ?_
  refine encodable_ite hunit ?_
  exact hself

theorem encodable_quoted {s : Str} (h : IsEncodable s) : IsEncodable (quoted false s) := by
  have hbody : IsEncodable (s.flatMap (escapeChar false)) := by
    induction s with
    | nil => exact encodable_nil
    | cons c rest ih =>
      rw [encodable_cons] at h
      rw [List.flatMap_cons, encodable_append]
      exact ⟨encodable_escapeChar h.1, ih h.2⟩
  simp only [quoted, encodable_append, encodable_cons, encodable_nil, hbody]
  decide

mutual

/-- Every key and every string in the value can be encoded. -/
def EncodableJson : Json → Prop
  | .str s => IsEncodable s
  | .arr items => EncodableItems items
  | .obj members => EncodableMembers members
  | _ => True

def EncodableItems : List Json → Prop
  | [] => True
  | v :: rest => EncodableJson v ∧ EncodableItems rest

def EncodableMembers : List (Str × Json) → Prop
  | [] => True
  | m :: rest => (IsEncodable m.1 ∧ EncodableJson m.2) ∧ EncodableMembers rest

end

theorem encodableItems_iff {items : List Json} :
    EncodableItems items ↔ ∀ v ∈ items, EncodableJson v := by
  induction items with
  | nil => simp [EncodableItems]
  | cons v rest ih => simp [EncodableItems, ih]

/-- The keys of an object and its values, apart. -/
theorem encodableMembers_iff {members : List (Str × Json)} :
    EncodableMembers members ↔
      (∀ key ∈ members.map (·.1), IsEncodable key) ∧ ∀ m ∈ members, EncodableJson m.2 := by
  induction members with
  | nil => simp [EncodableMembers]
  | cons m rest ih =>
    simp only [EncodableMembers, ih, List.map_cons, List.forall_mem_cons]
    exact and_and_and_comm

theorem EncodableJson.get? {members : Dict Json} {k : Str} {v : Json}
    (h : EncodableJson (.obj members)) (hget : members.get? k = some v) : EncodableJson v :=
  (encodableMembers_iff.mp h).2 _ (Dict.get?_eq_some_mem hget)

theorem EncodableJson.set {members : Dict Json} {k : Str} {v : Json}
    (h : EncodableJson (.obj members)) (hk : IsEncodable k) (hv : EncodableJson v) :
    EncodableJson (.obj (members.set k v)) := by
  induction members with
  | nil => exact ⟨⟨hk, hv⟩, trivial⟩
  | cons head rest ih =>
    simp only [Dict.set]
    split
    · exact ⟨⟨h.1.1, hv⟩, h.2⟩
    · exact ⟨h.1, ih h.2⟩

theorem encodable_items {depth : Nat} {items : List Json}
    (hvalues : ∀ v t, EncodableJson v → dumpValue compact depth v = .ok t → IsEncodable t)
    (hitems : EncodableItems items) {t : Str} (h : dumpItems compact depth items = .ok t) :
    IsEncodable t := by
  induction items generalizing t with
  | nil =>
    obtain rfl := Except.ok.inj h
    exact encodable_nil
  | cons v rest ih =>
    simp only [dumpItems, bind_eq_ok] at h
    obtain ⟨tv, hv, ts, hts, heq⟩ := h
    obtain rfl := Except.ok.inj heq
    have hfirst := hvalues v tv hitems.1 hv
    have hrest := ih hitems.2 hts
    split
    · exact hfirst
    · simp only [encodable_append, hfirst, hrest, true_and, and_true]
      decide

theorem encodable_members {depth : Nat} {members : List (Str × Json)}
    (hvalues : ∀ v t, EncodableJson v → dumpValue compact depth v = .ok t → IsEncodable t)
    (hmembers : EncodableMembers members) {t : Str}
    (h : dumpMembers compact depth members = .ok t) : IsEncodable t := by
  induction members generalizing t with
  | nil =>
    obtain rfl := Except.ok.inj h
    exact encodable_nil
  | cons m rest ih =>
    obtain ⟨k, v⟩ := m
    simp only [dumpMembers, bind_eq_ok] at h
    obtain ⟨tv, hv, ts, hts, heq⟩ := h
    obtain rfl := Except.ok.inj heq
    obtain ⟨⟨hkey, hvalue⟩, hrest⟩ := hmembers
    have hkey' : IsEncodable (quoted compact.ensureAscii k) := encodable_quoted hkey
    have hseparator : IsEncodable compact.keySeparator := by decide
    have hcomma : IsEncodable compact.itemSeparator := by decide
    split <;> simp only [encodable_append, hkey', hseparator, hvalues v tv hvalue hv, hcomma,
      ih hrest hts, and_self]

/-! ## What a text that can be encoded was printed from -/

/-- Only ASCII characters are escaped. -/
theorem encodeChar_of_escapeChar {c : CodePoint} (h : IsEncodable (escapeChar false c)) :
    (encodeChar c).isSome := by
  by_cases hascii : c < 128
  · exact encodeChar_ascii hascii
  · have hself : escapeChar false c = [c] := by
      have hne : ∀ n, n < 128 → c ≠ n := fun n hn heq => hascii (heq ▸ hn)
      have hcontrol : ¬ c < 32 := fun hlt => hascii (hlt.trans (by decide))
      simp [escapeChar, hne, hcontrol]
    rw [hself] at h
    exact h c List.mem_cons_self

theorem encodable_of_quoted {s : Str} (h : IsEncodable (quoted false s)) : IsEncodable s := by
  simp only [quoted, List.cons_append, encodable_cons, encodable_append] at h
  intro c hc
  refine encodeChar_of_escapeChar fun d hd => h.2.1 d ?_
  exact List.mem_flatMap.mpr ⟨c, hc, hd⟩

theorem encodableItems_of_dump {depth : Nat} {items : List Json}
    (hvalues : ∀ v t, dumpValue compact depth v = .ok t → IsEncodable t → EncodableJson v)
    {t : Str} (h : dumpItems compact depth items = .ok t) (ht : IsEncodable t) :
    EncodableItems items := by
  induction items generalizing t with
  | nil => trivial
  | cons v rest ih =>
    simp only [dumpItems, bind_eq_ok] at h
    obtain ⟨tv, hv, ts, hts, heq⟩ := h
    obtain rfl := Except.ok.inj heq
    cases rest with
    | nil => exact ⟨hvalues v tv hv ht, trivial⟩
    | cons w others =>
      simp only [List.isEmpty_cons, Bool.false_eq_true, if_false, encodable_append] at ht
      exact ⟨hvalues v tv hv ht.1.1, ih hts ht.2⟩

theorem encodableMembers_of_dump {depth : Nat} {members : List (Str × Json)}
    (hvalues : ∀ v t, dumpValue compact depth v = .ok t → IsEncodable t → EncodableJson v)
    {t : Str} (h : dumpMembers compact depth members = .ok t) (ht : IsEncodable t) :
    EncodableMembers members := by
  induction members generalizing t with
  | nil => trivial
  | cons m rest ih =>
    obtain ⟨k, v⟩ := m
    simp only [dumpMembers, bind_eq_ok] at h
    obtain ⟨tv, hv, ts, hts, heq⟩ := h
    obtain rfl := Except.ok.inj heq
    cases rest with
    | nil =>
      simp only [List.isEmpty_nil, if_true, encodable_append] at ht
      exact ⟨⟨encodable_of_quoted ht.1.1, hvalues v tv hv ht.2⟩, trivial⟩
    | cons w others =>
      simp only [List.isEmpty_cons, Bool.false_eq_true, if_false, encodable_append] at ht
      exact ⟨⟨encodable_of_quoted ht.1.1.1.1, hvalues v tv hv ht.1.1.2⟩, ih hts ht.2⟩

/-- The strings of a value that is printed as a text that can be encoded can be encoded. -/
theorem encodableJson_of_dump {depth : Nat} {v : Json} {t : Str}
    (h : dumpValue compact depth v = .ok t) (ht : IsEncodable t) : EncodableJson v := by
  induction depth generalizing v t with
  | zero =>
    cases v with
    | arr | obj => cases h
    | str s =>
      obtain rfl := Except.ok.inj h
      exact encodable_of_quoted ht
    | null | bool | int | float => trivial
  | succ depth ih =>
    cases v with
    | str s =>
      obtain rfl := Except.ok.inj h
      exact encodable_of_quoted ht
    | null | bool | int | float => trivial
    | arr items =>
      obtain ⟨ts, hts, rfl⟩ := map_eq_ok.mp h
      simp only [List.cons_append, encodable_cons, encodable_append] at ht
      exact encodableItems_of_dump (fun v t hv ht => ih hv ht) hts ht.2.1
    | obj members =>
      obtain ⟨ts, hts, rfl⟩ := map_eq_ok.mp h
      simp only [List.cons_append, encodable_cons, encodable_append] at ht
      exact encodableMembers_of_dump (fun v t hv ht => ih hv ht) hts ht.2.1

/-! ## Values that can be encoded -/

variable [Runtime]

/-- The texts of words and numbers are ASCII. -/
theorem encodable_scalar {depth : Nat} {v : Json} {t : Str} (h : Value depth t v)
    (hscalar : ∀ s items members, v ≠ .str s ∧ v ≠ .arr items ∧ v ≠ .obj members) :
    IsEncodable t := by
  cases h with
  | keyword hword =>
    simp only [keywords, List.mem_cons, Prod.mk.injEq, List.not_mem_nil, or_false] at hword
    rcases hword with h | h | h | h | h | h <;> rw [h.1] <;> decide
  | number htext _ => exact ascii_of_plain htext.plain
  | string => exact absurd rfl (hscalar _ [] []).1
  | emptyArray | array => exact absurd rfl (hscalar [] _ []).2.1
  | emptyObject | object => exact absurd rfl (hscalar [] [] _).2.2

/-- A value whose strings can be encoded is printed as a text that can. -/
theorem encodable_of_dump {depth : Nat} {v : Json} {t : Str} (hv : EncodableJson v)
    (h : dumpValue compact depth v = .ok t) : IsEncodable t := by
  induction depth generalizing v t with
  | zero =>
    cases v with
    | arr | obj => cases h
    | str s =>
      obtain rfl := Except.ok.inj h
      exact encodable_quoted hv
    | null | bool | int | float =>
      exact encodable_scalar (value_of_scalar (by simp) h) (by simp)
  | succ depth ih =>
    cases v with
    | str s =>
      obtain rfl := Except.ok.inj h
      exact encodable_quoted hv
    | null | bool | int | float =>
      exact encodable_scalar (value_of_scalar (by simp) h) (by simp)
    | arr items =>
      obtain ⟨ts, hts, rfl⟩ := map_eq_ok.mp h
      have hitems := encodable_items (fun v t hv h => ih hv h) hv hts
      simp only [encodable_append, encodable_cons, hitems, encodable_nil]
      decide
    | obj members =>
      obtain ⟨ts, hts, rfl⟩ := map_eq_ok.mp h
      have hmembers := encodable_members (fun v t hv h => ih hv h) hv hts
      simp only [encodable_append, encodable_cons, hmembers, encodable_nil]
      decide

end RtlsStream.Python
