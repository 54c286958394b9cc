/-
  Python/RoundTrip.lean --- `json.loads` undoes `json.dumps`.

  The compact style separates items by a comma and a key from its value by a colon,
  so the printed text of a value with distinct keys belongs to the grammar of
  `Python.JsonGrammar` (`value_of_dump`), and a scan of it returns the value.  The
  receiver relies on this twice: it prints a datagram and reads it again to drop
  the trace keys (`loads_dumps`), and the consumer reads the bytes it publishes
  (`loadsBytes_dumps`).
-/
import RtlsStream.Python.Print

set_option autoImplicit false

namespace RtlsStream.Python

open RtlsStream.Foundation

variable [Runtime]

/-! ## Values -/

/-- The text of an integer denotes the integer. -/
theorem value_strInt (depth : Nat) {n : Int} {t : Str} (h : strInt n = .ok t) :
    Value depth t (.int n) := by
  obtain ⟨heq, hread⟩ := intOfText_intText h
  obtain ⟨sign, htext, hsplit, -⟩ := numberText_intText n
  have ht : t = sign ++ natText n.natAbs ++ [] ++ [] := by simp [heq, hsplit]
  rw [ht] at hread ⊢
  refine .number htext ?_
  simp only [ne_eq, not_true_eq_false, or_self, decide_false, numberValue, hread]
  rfl

theorem value_quoted (depth : Nat) (s : Str) : Value depth (quoted false s) (.str s) :=
  .string (stringBody_escape s)

/-- A value that is no container is printed by its own rule. -/
theorem value_of_scalar {depth : Nat} {v : Json} {t : Str}
    (hscalar : ∀ items members, v ≠ .arr items ∧ v ≠ .obj members)
    (h : dumpValue compact depth v = .ok t) : Value depth t v := by
  cases v with
  | null =>
    obtain rfl := Except.ok.inj h
    exact .keyword (by decide)
  | bool b =>
    obtain rfl := Except.ok.inj h
    cases b <;> exact .keyword (by decide)
  | int n => exact value_strInt depth h
  | float x =>
    obtain rfl := Except.ok.inj h
    exact value_floatText depth x
  | str s =>
    obtain rfl := Except.ok.inj h
    exact value_quoted depth s
  | arr items => exact absurd rfl (hscalar items []).1
  | obj members => exact absurd rfl (hscalar [] members).2

/-- The separators of the compact style leave no white space. -/
theorem items_of_dump {depth : Nat} {items : List Json} (hne : items ≠ [])
    (hvalues : ∀ v ∈ items, ∀ t, dumpValue compact depth v = .ok t → Value depth t v) {t : Str}
    (h : dumpItems compact depth items = .ok t) : Items depth (t ++ [93]) items := by
  induction items generalizing t with
  | nil => exact absurd rfl hne
  | cons v rest ih =>
    simp only [dumpItems, bind_eq_ok] at h
    obtain ⟨tv, hv, ts, hts, heq⟩ := h
    obtain rfl := Except.ok.inj heq
    simp only [List.forall_mem_cons] at hvalues
    have hvalue := hvalues.1 tv hv
    cases rest with
    | nil => simpa using Items.last hvalue space_nil
    | cons v' rest =>
      have hmore := ih (by simp) hvalues.2 hts
      simpa [compact, text] using Items.more hvalue space_nil space_nil hmore

theorem members_of_dump {depth : Nat} {members before : Dict Json} (hne : members ≠ [])
    (hkeys : ((before ++ members).map (·.1)).Nodup)
    (hvalues : ∀ m ∈ members, ∀ t, dumpValue compact depth m.2 = .ok t → Value depth t m.2) {t : Str}
    (h : dumpMembers compact depth members = .ok t) :
    Members depth before (t ++ [125]) (before ++ members) := by
  induction members generalizing before t with
  | nil => exact absurd rfl hne
  | cons m rest ih =>
    obtain ⟨k, v⟩ := m
    simp only [dumpMembers, bind_eq_ok] at h
    obtain ⟨tv, hv, ts, hts, heq⟩ := h
    obtain rfl := Except.ok.inj heq
    simp only [List.forall_mem_cons] at hvalues
    have hvalue := hvalues.1 tv hv
    have hnew : k ∉ before.map (·.1) := by
      rw [List.map_append, List.map_cons] at hkeys
      intro hmem
      exact (List.nodup_append.mp hkeys).2.2 k hmem k List.mem_cons_self rfl
    have hset := Dict.set_of_notMem v hnew
    have hkey := stringBody_escape k
    cases rest with
    | nil =>
      have hlast := @Members.last _ depth before _ _ _ _ _ _ _ hkey space_nil space_nil hvalue space_nil
      rw [hset] at hlast
      simpa [compact, text, quoted] using hlast
    | cons m' rest =>
      have hkeys' : (((before ++ [(k, v)]) ++ (m' :: rest)).map (·.1)).Nodup := by simpa using hkeys
      have hmore := ih (by simp) hkeys' hvalues.2 hts
      rw [← hset] at hmore
      have hall := Members.more hkey space_nil space_nil hvalue space_nil space_nil hmore
      rw [hset] at hall
      simpa [compact, text, quoted] using hall

/-- What is printed denotes the value it was printed from. -/
theorem value_of_dump {depth : Nat} {v : Json} {t : Str} (hkeys : WellKeyed v)
    (h : dumpValue compact depth v = .ok t) : Value depth t v := by
  induction depth generalizing v t with
  | zero =>
    cases v with
    | arr | obj => cases h
    | null | bool | int | float | str => exact value_of_scalar (by simp) h
  | succ depth ih =>
    cases v with
    | null | bool | int | float | str => exact value_of_scalar (by simp) h
    | arr items =>
      obtain ⟨ts, hts, rfl⟩ := map_eq_ok.mp h
      by_cases hne : items = []
      · subst hne
        obtain rfl := Except.ok.inj hts
        exact .emptyArray space_nil
      · have hitems := items_of_dump hne (fun v hv t => ih (wellKeyedItems_iff.mp hkeys v hv)) hts
        exact @Value.array _ _ [] _ _ space_nil hitems
    | obj members =>
      obtain ⟨ts, hts, rfl⟩ := map_eq_ok.mp h
      by_cases hne : members = []
      · subst hne
        obtain rfl := Except.ok.inj hts
        exact .emptyObject space_nil
      · have hkeys' : ((([] : Dict Json) ++ members).map (·.1)).Nodup := hkeys.1
        have hmembers := members_of_dump hne hkeys'
          (fun m hm t => ih (wellKeyedMembers_iff.mp hkeys.2 m hm)) hts
        exact @Value.object _ _ [] _ _ space_nil hmembers

/-- Reading undoes printing. -/
theorem decodeDocument_dumps {v : Json} {t : Str} (hkeys : WellKeyed v)
    (h : dumps compact v = .ok t) : decodeDocument t = .ok v := by
  have hvalue := value_of_dump hkeys h
  simpa using decodeDocument_complete space_nil space_nil hvalue

omit [Runtime] in
/-- An object is printed between braces, its first key in quotes. -/
theorem dumps_obj_head {depth : Nat} {members : Dict Json} {t : Str} (hne : members ≠ [])
    (h : dumpValue compact depth (.obj members) = .ok t) : ∃ rest, t = 123 :: 34 :: rest := by
  cases depth with
  | zero => cases h
  | succ depth =>
    obtain ⟨ts, hts, rfl⟩ := map_eq_ok.mp h
    obtain ⟨⟨k, v⟩, rest, rfl⟩ := List.exists_cons_of_ne_nil hne
    simp only [dumpMembers, bind_eq_ok] at hts
    obtain ⟨tv, -, tr, -, heq⟩ := hts
    obtain rfl := Except.ok.inj heq
    split <;> exact ⟨_, rfl⟩

omit [Runtime] in
theorem dumps_obj_brace {depth : Nat} {members : Dict Json} {t : Str}
    (h : dumpValue compact depth (.obj members) = .ok t) : ∃ rest, t = 123 :: rest := by
  cases depth with
  | zero => cases h
  | succ depth =>
    obtain ⟨ts, -, rfl⟩ := map_eq_ok.mp h
    exact ⟨_, rfl⟩

theorem loads_dumps {members : Dict Json} {t : Str} (hkeys : WellKeyed (.obj members))
    (h : dumps compact (.obj members) = .ok t) : loads t = .ok (.obj members) := by
  obtain ⟨rest, rfl⟩ := dumps_obj_brace h
  rw [loads, if_neg (by simp), decodeDocument_dumps hkeys h]

omit [Runtime] in
/-- Bytes that start with two ASCII characters are taken for UTF-8. -/
theorem decodeDetected_brace (bs : Bytes) :
    decodeDetected (0x7b :: 0x22 :: bs) = decodeUtf8 true (0x7b :: 0x22 :: bs) := by
  match bs with
  | [] => rfl
  | [_] => rfl
  | _ :: _ :: _ => rfl

/-- What is printed and encoded, `json.loads` takes for UTF-8 and reads back. -/
theorem loadsBytes_dumps {members : Dict Json} {t : Str} {b : Bytes} (hne : members ≠ [])
    (hkeys : WellKeyed (.obj members)) (h : dumps compact (.obj members) = .ok t)
    (hencode : encodeUtf8 t = some b) : loadsBytes b = .ok (.obj members) := by
  have hdetect : decodeDetected b = some t := by
    obtain ⟨rest, rfl⟩ := dumps_obj_head hne h
    have hdecode := decodeUtf8_encodeUtf8 true hencode
    obtain ⟨bs, rfl⟩ : ∃ bs, b = 0x7b :: 0x22 :: bs := by
      simp only [encodeUtf8, Option.bind_eq_bind, Option.bind_eq_some_iff] at hencode
      obtain ⟨_, h₁, _, ⟨_, h₂, bs, -, heq'⟩, heq⟩ := hencode
      obtain rfl := Option.some.inj h₁
      obtain rfl := Option.some.inj h₂
      obtain rfl := Option.some.inj heq'
      exact ⟨bs, (Option.some.inj heq).symm⟩
    rw [decodeDetected_brace, hdecode]
  rw [loadsBytes, hdetect]
  exact decodeDocument_dumps hkeys h

end RtlsStream.Python
