/-
  StreamHandler/EventFields.lean --- where the parser's events come from.

  An event is read either from a JSON object or from the fields of a text message
  (`parseMessage_ok`).  Of a text event only the coordinates depend on the type in
  an essential way; its time, layer and texts are those of fixed fields
  (`TextEvent`), so what is asked of them is one question for all four types.
-/
import RtlsStream.Python.Padding
import RtlsStream.StreamHandler.LS1000Parser

set_option autoImplicit false

namespace RtlsStream.StreamHandler

open RtlsStream.Foundation RtlsStream.Python

namespace LS1000Parser

variable [Runtime]

/-- The trimmed, lower-cased part before the first colon. -/
def typeName (raw : Str) : Str := Runtime.lower (strip (splitFirst 58 raw).1)

/-- The type of a text message. -/
def typeOf (raw : Str) : Option BaseType := baseType (Runtime.lower (strip (splitFirst 58 raw).1))

omit [Runtime] in
/-- The fields of a text message. -/
def fieldsOf (raw : Str) : List Str := (split 44 (splitFirst 58 raw).2).map strip

omit [Runtime] in
/-- The field a type has its layer in. -/
def layerField : BaseType → Nat
  | .status1 => 5
  | .display | .status2 | .gpsposi => 4

omit [Runtime] in
/-- How many fields a type needs. -/
def minFields : BaseType → Nat
  | .display => 5
  | .status1 => 6
  | .status2 => 4
  | .gpsposi => 7

omit [Runtime] in
/-- The call returns an error with this code, which holds the message. -/
def Refused (rawMessage : Str) (code : String) (r : Parsed) : Prop :=
  ∃ e : ParseError, r = .ok (.error e) ∧ e.code = text code ∧ e.rawMessage = rawMessage

/-! ## Fields -/

omit [Runtime] in
theorem mem_of_mem_token {tokens : List Str} {i : Nat} {c : CodePoint} (h : c ∈ token tokens i) :
    ∃ t ∈ tokens, c ∈ t := by
  unfold token at h
  rw [List.getD_eq_getElem?_getD] at h
  cases ht : tokens[i]? with
  | none => simp [ht] at h
  | some t => exact ⟨t, List.mem_of_getElem? ht, by simpa [ht] using h⟩

omit [Runtime] in
theorem mem_of_mem_safeToken {tokens : List Str} {i : Nat} {s : Str} {c : CodePoint}
    (hs : s ∈ safeToken tokens i) (h : c ∈ s) : ∃ t ∈ tokens, c ∈ t := by
  unfold safeToken at hs
  split at hs
  · cases hs
  · split at hs
    · cases hs
    · obtain rfl := Option.some.inj hs
      exact mem_of_mem_token (mem_of_mem_strip h)

omit [Runtime] in
/-- The fields hold nothing that is not in the message. -/
theorem mem_of_mem_fieldsOf {raw t : Str} {c : CodePoint} (ht : t ∈ fieldsOf raw) (h : c ∈ t) :
    c ∈ raw := by
  obtain ⟨part, hpart, rfl⟩ := List.mem_map.mp ht
  exact mem_of_mem_splitFirst (mem_of_mem_split hpart (mem_of_mem_strip h))

omit [Runtime] in
theorem token_of_length_le {tokens : List Str} {i : Nat} (h : tokens.length ≤ i) :
    token tokens i = [] := by
  simp [token, List.getD_eq_getElem?_getD, h]

omit [Runtime] in
/-- The fields are trimmed. -/
theorem trimmed_token (raw : Str) (i : Nat) : Trimmed (token (fieldsOf raw) i) := by
  unfold token
  rw [List.getD_eq_getElem?_getD]
  cases h : (fieldsOf raw)[i]? with
  | none => exact trimmed_nil
  | some field =>
    obtain ⟨part, -, rfl⟩ := List.mem_map.mp (List.mem_of_getElem? h)
    exact trimmed_strip part

/-! ## Text messages -/

/-- What the four types have in common. -/
structure TextEvent (type : BaseType) (rawMessage : Str) (tokens : List Str)
    (e : NormalizedEvent) : Prop where
  tagId : ∃ i, e.tagId = token tokens i
  tsUtcMs : ∃ ts, parseIntText true (token tokens 3) = some ts ∧ e.tsUtcMs = .int ts
  layer : e.layer = layerOf (token tokens (layerField type))
  area : ∀ s ∈ e.area, ∀ c ∈ s, ∃ t ∈ tokens, c ∈ t
  status : ∀ s ∈ e.status, ∀ c ∈ s, ∃ t ∈ tokens, c ∈ t
  sourceType : e.sourceType = type.name
  rawMessage : e.rawMessage = rawMessage

variable {rawMessage : Str} {tokens : List Str} {e : NormalizedEvent}

/-- The event that the parser of a type builds from the fields, once it has the time. -/
inductive FieldsEvent (rawMessage : Str) (tokens : List Str) (ts : Int) :
    BaseType → NormalizedEvent → Prop
  | display {p : Coordinates} (hplace : extractXyzFromTokens tokens 5 = .ok p) :
    FieldsEvent rawMessage tokens ts .display
      { textEvent rawMessage .display (token tokens 1) ts with
        x := p.x
        y := p.y
        z := p.z
        layer := layerOf (token tokens 4)
        area := if p.x.isNone then safeToken tokens 6 else none }
  | status1 :
    FieldsEvent rawMessage tokens ts .status1
      { textEvent rawMessage .status1 (token tokens 2) ts with
        layer := layerOf (token tokens 5)
        status := safeToken tokens 7 }
  | status2 :
    FieldsEvent rawMessage tokens ts .status2
      { textEvent rawMessage .status2 (token tokens 1) ts with
        layer := if 4 < tokens.length then layerOf (token tokens 4) else none }
  | gpsposi {lng lat : Binary64} (hlng : parseFloatText (token tokens 5) = some lng)
      (hlat : parseFloatText (token tokens 6) = some lat) :
    FieldsEvent rawMessage tokens ts .gpsposi
      { textEvent rawMessage .gpsposi (token tokens 1) ts with
        z := if 7 < tokens.length then parseFloatText (token tokens 7) else none
        layer := layerOf (token tokens 4)
        lng := some lng
        lat := some lat }

/-- The ways the parser of a type can go. -/
inductive FieldsParsed (rawMessage : Str) (tokens : List Str) (type : BaseType) (r : Parsed) : Prop
  | tooFew (hlength : tokens.length < minFields type)
      (herror : Refused rawMessage "invalid_payload" r)
  | badTime (hlength : minFields type ≤ tokens.length)
      (htime : parseIntText true (token tokens 3) = none)
      (herror : Refused rawMessage "invalid_timestamp" r)
  | badPlace (hlength : minFields type ≤ tokens.length) {ts : Int}
      (htime : parseIntText true (token tokens 3) = some ts) (htype : type = .gpsposi)
      (hplace : parseFloatText (token tokens 5) = none ∨ parseFloatText (token tokens 6) = none)
      (herror : Refused rawMessage "invalid_coordinates" r)
  | raises {error : PyError} (hplace : extractXyzFromTokens tokens 5 = .error error)
      (hraises : r = .error error)
  | event (hlength : minFields type ≤ tokens.length) {ts : Int}
      (htime : parseIntText true (token tokens 3) = some ts) {e : NormalizedEvent}
      (hevent : FieldsEvent rawMessage tokens ts type e) (hreturns : r = .ok (.ok e))

/-- The two checks that all types share, and what is behind them. -/
theorem parsed_of_checks {type : BaseType} {name : Str} {tooFew badTime : String}
    {body : Int → Parsed}
    (hbody : minFields type ≤ tokens.length → ∀ ts, parseIntText true (token tokens 3) = some ts →
      FieldsParsed rawMessage tokens type (body ts)) :
    FieldsParsed rawMessage tokens type
      (if tokens.length < minFields type then err rawMessage name "invalid_payload" tooFew
      else match parseIntText true (token tokens 3) with
        | none => err rawMessage name "invalid_timestamp" badTime
        | some ts => body ts) := by
  split
  · rename_i hlength
    exact .tooFew hlength ⟨_, rfl, rfl, rfl⟩
  · rename_i hlength
    split
    · rename_i htime
      exact .badTime (not_lt.mp hlength) htime ⟨_, rfl, rfl, rfl⟩
    · rename_i ts htime
      exact hbody (not_lt.mp hlength) ts htime

theorem parseFields_parsed (type : BaseType) (rawMessage : Str) (tokens : List Str) :
    FieldsParsed rawMessage tokens type (parseFields type rawMessage tokens) := by
  cases type with
  | display =>
    refine parsed_of_checks fun hlength ts htime => ?_
    cases hplace : extractXyzFromTokens tokens 5 with
    | error error => exact .raises hplace rfl
    | ok p => exact .event hlength htime (.display hplace) rfl
  | status1 => exact parsed_of_checks fun hlength ts htime => .event hlength htime .status1 rfl
  | status2 => exact parsed_of_checks fun hlength ts htime => .event hlength htime .status2 rfl
  | gpsposi =>
    refine parsed_of_checks fun hlength ts htime => ?_
    cases hlng : parseFloatText (token tokens 5) with
    | none => exact .badPlace hlength htime rfl (.inl hlng) ⟨_, rfl, rfl, rfl⟩
    | some lng =>
      cases hlat : parseFloatText (token tokens 6) with
      | none => exact .badPlace hlength htime rfl (.inr hlat) ⟨_, rfl, rfl, rfl⟩
      | some lat => exact .event hlength htime (.gpsposi hlng hlat) rfl

/-- An event comes from enough fields and a time. -/
theorem event_of_parseFields {type : BaseType}
    (h : parseFields type rawMessage tokens = .ok (.ok e)) :
    ∃ ts, parseIntText true (token tokens 3) = some ts ∧
      FieldsEvent rawMessage tokens ts type e := by
  have hparsed := parseFields_parsed type rawMessage tokens
  rw [h] at hparsed
  cases hparsed with
  | tooFew _ herror | badTime _ _ herror | badPlace _ _ _ _ herror =>
    obtain ⟨error, hr, -⟩ := herror
    cases hr
  | raises _ hraises => cases hraises
  | event _ htime hevent hreturns =>
    obtain rfl := Except.ok.inj (Except.ok.inj hreturns)
    exact ⟨_, htime, hevent⟩

theorem parseFields_ok {type : BaseType} (h : parseFields type rawMessage tokens = .ok (.ok e)) :
    TextEvent type rawMessage tokens e := by
  obtain ⟨ts, htime, hevent⟩ := event_of_parseFields h
  cases hevent with
  | display hplace =>
    refine ⟨⟨1, rfl⟩, ⟨ts, htime, rfl⟩, rfl, ?_, by simp [textEvent], rfl, rfl⟩
    intro s hs c hc
    simp only at hs
    split at hs
    · exact mem_of_mem_safeToken hs hc
    · cases hs
  | status1 =>
    exact ⟨⟨2, rfl⟩, ⟨ts, htime, rfl⟩, rfl, by simp [textEvent],
      fun s hs c hc => mem_of_mem_safeToken hs hc, rfl, rfl⟩
  | status2 =>
    refine ⟨⟨1, rfl⟩, ⟨ts, htime, rfl⟩, ?_, by simp [textEvent], by simp [textEvent], rfl, rfl⟩
    simp only [layerField]
    split
    · rfl
    · rename_i hlength
      rw [token_of_length_le (not_lt.mp hlength)]
      rfl
  | gpsposi hlng hlat =>
    exact ⟨⟨1, rfl⟩, ⟨ts, htime, rfl⟩, rfl, by simp [textEvent], by simp [textEvent], rfl, rfl⟩

/-! ## JSON messages -/

/-- What the event of a JSON message takes from the object. -/
structure ObjectEvent (rawMessage : Str) (obj : Dict Json) (e : NormalizedEvent) : Prop where
  tagId : firstStr obj tagKeys = .ok (some e.tagId)
  tsUtcMs : firstInt true obj tsKeys = .ok (some e.tsUtcMs)
  layer : firstInt true obj layerKeys = .ok e.layer
  status : firstStr obj [text "status"] = .ok e.status
  area : firstStr obj [text "area"] = .ok e.area
  sourceType : e.sourceType = text "json"
  rawMessage : e.rawMessage = rawMessage

theorem parseObject_ok {obj : Dict Json} (h : parseObject rawMessage obj = .ok (.ok e)) :
    ObjectEvent rawMessage obj e := by
  unfold parseObject at h
  split at h
  · cases h
  · split at h
    · cases h
    · cases h
    · rename_i tag htag
      split at h
      · cases h
      · cases h
      · rename_i ts hts
        simp only [jsonEvent, bind_eq_ok] at h
        obtain ⟨p, -, lng, -, lat, -, layer, hlayer, status, hstatus, area, harea, heq⟩ := h
        obtain rfl := Except.ok.inj (Except.ok.inj heq)
        exact ⟨htag, hts, hlayer, hstatus, harea, rfl, rfl⟩

/-! ## The checks before the fields -/

/-- The ways a text message can go: one of the checks that all types share refuses it, or
the parser of its type reads its fields. -/
inductive TextParsed (rawMessage raw : Str) (r : Parsed) : Prop
  | invalidFormat (hcolon : 58 ∉ raw) (herror : Refused rawMessage "invalid_format" r)
  | unsupportedType (hcolon : 58 ∈ raw) (hname : typeName raw ∈ unsupportedTypes)
      (herror : Refused rawMessage "unsupported_message_type" r)
  | unknownType (hcolon : 58 ∈ raw) (hname : typeName raw ∉ unsupportedTypes)
      (htype : typeOf raw = none) (herror : Refused rawMessage "unknown_message_type" r)
  | blankFields (hcolon : 58 ∈ raw) (hname : typeName raw ∉ unsupportedTypes) {type : BaseType}
      (htype : typeOf raw = some type) (hblank : ∀ field ∈ fieldsOf raw, field = [])
      (herror : Refused rawMessage "invalid_payload" r)
  | fields (hcolon : 58 ∈ raw) (hname : typeName raw ∉ unsupportedTypes) {type : BaseType}
      (htype : typeOf raw = some type) (hfilled : ∃ field ∈ fieldsOf raw, field ≠ [])
      (hfields : parseFields type rawMessage (fieldsOf raw) = r)

theorem parseText_parsed (rawMessage raw : Str) :
    TextParsed rawMessage raw (parseText rawMessage raw) := by
  unfold parseText
  simp only
  split
  · rename_i hcolon
    exact .invalidFormat hcolon ⟨_, rfl, rfl, rfl⟩
  · rename_i hcolon
    rw [not_not] at hcolon
    split
    · rename_i hname
      exact .unsupportedType hcolon hname ⟨_, rfl, rfl, rfl⟩
    · rename_i hname
      split
      · rename_i htype
        exact .unknownType hcolon hname htype ⟨_, rfl, rfl, rfl⟩
      · rename_i type htype
        split
        · rename_i hblank
          exact .blankFields hcolon hname htype (by simpa [fieldsOf] using hblank)
            ⟨_, rfl, rfl, rfl⟩
        · rename_i hfilled
          exact .fields hcolon hname htype (by simpa [fieldsOf] using hfilled) rfl

/-- Behind the checks stands the parser of the type. -/
theorem TextParsed.refused_or_fields {raw : Str} {r : Parsed} (h : TextParsed rawMessage raw r) :
    (∃ code, Refused rawMessage code r) ∨
      ∃ type, typeOf raw = some type ∧ parseFields type rawMessage (fieldsOf raw) = r := by
  cases h with
  | invalidFormat _ herror => exact Or.inl ⟨_, herror⟩
  | unsupportedType _ _ herror => exact Or.inl ⟨_, herror⟩
  | unknownType _ _ _ herror => exact Or.inl ⟨_, herror⟩
  | blankFields _ _ _ _ herror => exact Or.inl ⟨_, herror⟩
  | fields _ _ htype _ hfields => exact Or.inr ⟨_, htype, hfields⟩

/-! ## The two kinds of message -/

/-- An event comes from the object behind a brace or from the fields of a text. -/
theorem parseMessage_ok (h : parseMessage ⟨⟩ rawMessage = .ok (.ok e)) :
    ((strip rawMessage).head? = some 123 ∧ ∃ obj, loads (strip rawMessage) = .ok (.obj obj) ∧
      parseObject rawMessage obj = .ok (.ok e)) ∨
    ((strip rawMessage).head? ≠ some 123 ∧ ∃ type, typeOf (strip rawMessage) = some type ∧
      parseFields type rawMessage (fieldsOf (strip rawMessage)) = .ok (.ok e)) := by
  unfold parseMessage at h
  simp only at h
  split at h
  · cases h
  · split at h
    · rename_i hbrace
      refine Or.inl ⟨hbrace, ?_⟩
      unfold parseJson at h
      split at h
      · cases h
      · cases h
      · rename_i v hv
        cases v with
        | obj obj => exact ⟨obj, hv, h⟩
        | null | bool | int | float | str | arr => cases h
    · rename_i hbrace
      refine Or.inr ⟨hbrace, ?_⟩
      rcases (parseText_parsed rawMessage (strip rawMessage)).refused_or_fields with
        ⟨_, error, herror, -⟩ | ⟨type, htype, hfields⟩
      · cases herror.symm.trans h
      · exact ⟨type, htype, hfields.trans h⟩

end LS1000Parser

end RtlsStream.StreamHandler
