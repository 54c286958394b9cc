/-
  StreamHandler/Grammar.lean --- the language of the text messages.

  A text message is `<type>:<field>,<field>,...`.  The parser checks it in seven steps,
  spread over `parse_message` and the four functions of the types; `Passes` says what
  each step asks for, without the functions, and `Fault` lists them in their order.
  The parser accepts exactly the messages that pass all steps, and names the first step
  a message fails (`text_grammar`).
-/
import RtlsStream.StreamHandler.Reported

set_option autoImplicit false

namespace RtlsStream.StreamHandler

open RtlsStream.Foundation RtlsStream.Python LS1000Parser

/-! ## The checks -/

/-- What can be wrong with a text message, in the order of the checks. -/
inductive Fault where
  | emptyMessage
  | invalidFormat
  | unsupportedMessageType
  | unknownMessageType
  | invalidPayload
  | invalidTimestamp
  | invalidCoordinates
  deriving DecidableEq

namespace Fault

/-- The `code` of the error. -/
def code : Fault → Str
  | .emptyMessage => text "empty_message"
  | .invalidFormat => text "invalid_format"
  | .unsupportedMessageType => text "unsupported_message_type"
  | .unknownMessageType => text "unknown_message_type"
  | .invalidPayload => text "invalid_payload"
  | .invalidTimestamp => text "invalid_timestamp"
  | .invalidCoordinates => text "invalid_coordinates"

/-- The order of the checks. -/
def order : List Fault :=
  [.emptyMessage, .invalidFormat, .unsupportedMessageType, .unknownMessageType, .invalidPayload,
    .invalidTimestamp, .invalidCoordinates]

end Fault

section

variable [Runtime]

/-- `int(text)`, or `int(text, 16)` of a text that starts with `0x` -/
def ReadsInt (s : Str) : Prop :=
  if (text "0x").isPrefixOf (Runtime.lower s) then (intOfHexText s).isSome else (intOfText s).isSome

/-- `float(text)` -/
def ReadsNumber (s : Str) : Prop := (floatOfText s).isSome

/-- What each check asks of a trimmed message. -/
def Passes (raw : Str) : Fault → Prop
  | .emptyMessage => raw ≠ []
  | .invalidFormat => 58 ∈ raw
  | .unsupportedMessageType => typeName raw ∉ unsupportedTypes
  | .unknownMessageType => ∃ type : BaseType, type.name = typeName raw
  | .invalidPayload => (∃ field ∈ fieldsOf raw, field ≠ []) ∧
      ∀ type ∈ typeOf raw, minFields type ≤ (fieldsOf raw).length
  | .invalidTimestamp => ReadsInt (token (fieldsOf raw) 3)
  | .invalidCoordinates => typeOf raw = some .gpsposi →
      ReadsNumber (token (fieldsOf raw) 5) ∧ ReadsNumber (token (fieldsOf raw) 6)

/-- The message fails this check and passes those before it. -/
def FirstFault (raw : Str) (fault : Fault) : Prop :=
  ¬ Passes raw fault ∧ ∀ earlier ∈ Fault.order.takeWhile (· ≠ fault), Passes raw earlier

/-- The grammar of the text messages. -/
structure TextMessage (raw : Str) : Prop where
  colon : 58 ∈ raw
  /-- the type is one of the four, and there are enough fields for it -/
  fields : ∃ type : BaseType, type.name = typeName raw ∧ minFields type ≤ (fieldsOf raw).length ∧
    (type = .gpsposi →
      ReadsNumber (token (fieldsOf raw) 5) ∧ ReadsNumber (token (fieldsOf raw) 6))
  filled : ∃ field ∈ fieldsOf raw, field ≠ []
  time : ReadsInt (token (fieldsOf raw) 3)

/-! ## Names -/

omit [Runtime] in
theorem baseType_eq_some {name : Str} {type : BaseType} :
    baseType name = some type ↔ type.name = name := by
  constructor
  · intro h
    simpa using List.find?_some h
  · rintro rfl
    cases type <;> decide

omit [Runtime] in
/-- No type is supported and unsupported. -/
theorem name_not_unsupported (type : BaseType) : type.name ∉ unsupportedTypes := by
  cases type <;> decide

/-! ## Fields -/

/-- The empty text is no integer. -/
theorem intOfText_nil : intOfText [] = none := rfl

theorem floatOfText_nil : floatOfText [] = none := rfl

theorem parseIntText_isSome_iff {s : Str} (h : Trimmed s) :
    (parseIntText true s).isSome ↔ ReadsInt s := by
  unfold parseIntText ReadsInt
  rw [show strip s = s from h]
  by_cases hs : s = []
  · subst hs
    have hlower : Runtime.lower [] = [] := Runtime.lower_ascii [] (by simp)
    simp [hlower, intOfText_nil, text]
  · simp only [if_neg hs, true_and]
    split <;> rfl

theorem parseFloatText_isSome_iff {s : Str} (h : Trimmed s) :
    (parseFloatText s).isSome ↔ ReadsNumber s := by
  unfold parseFloatText ReadsNumber
  rw [show strip s = s from h]
  by_cases hs : s = []
  · subst hs
    simp [floatOfText_nil]
  · simp [hs]

/-! ## Answers -/

/-- The call returns an error with the code of the fault. -/
def Answers (r : Parsed) (fault : Fault) : Prop :=
  ∃ e : ParseError, r = .ok (.error e) ∧ e.code = fault.code

omit [Runtime] in
theorem LS1000Parser.Refused.answers {rawMessage : Str} {code : String} {r : Parsed} {fault : Fault}
    (h : Refused rawMessage code r) (hcode : fault.code = text code) : Answers r fault := by
  obtain ⟨e, hr, he, -⟩ := h
  exact ⟨e, hr, he.trans hcode.symm⟩

/-- The call returns an event. -/
def Accepts (r : Parsed) : Prop := ∃ e : NormalizedEvent, r = .ok (.ok e)

/-- An event for a message of the grammar, and for another one its first fault. -/
def Judges (raw : Str) (r : Parsed) : Prop :=
  (TextMessage raw ∧ Accepts r) ∨ ∃ fault, FirstFault raw fault ∧ Answers r fault

variable {rawMessage : Str}

/-- The checks of a message of a known type. -/
theorem judges_parseFields {raw : Str} {type : BaseType} (htype : type.name = typeName raw)
    (hcolon : 58 ∈ raw) (hfilled : ∃ field ∈ fieldsOf raw, field ≠ []) :
    Judges raw (parseFields type rawMessage (fieldsOf raw)) := by
  have hne : raw ≠ [] := List.ne_nil_of_mem hcolon
  have htypeOf : typeOf raw = some type := baseType_eq_some.mpr htype
  have hsupported : typeName raw ∉ unsupportedTypes := htype ▸ name_not_unsupported type
  have hknown : ∃ type : BaseType, type.name = typeName raw := ⟨type, htype⟩
  have hpayload : minFields type ≤ (fieldsOf raw).length → Passes raw .invalidPayload := by
    intro henough
    refine ⟨hfilled, ?_⟩
    intro type' htype'
    rw [htypeOf] at htype'
    exact Option.some.inj htype' ▸ henough
  have hread : ∀ ts, parseIntText true (token (fieldsOf raw) 3) = some ts →
      ReadsInt (token (fieldsOf raw) 3) := by
    intro ts htime
    rw [← parseIntText_isSome_iff (trimmed_token raw 3), htime]
    rfl
  cases parseFields_parsed type rawMessage (fieldsOf raw) with
  | tooFew hshort herror =>
    refine Or.inr ⟨.invalidPayload, ⟨?_, ?_⟩, herror.answers rfl⟩
    · intro hpass
      exact absurd (hpass.2 type htypeOf) (not_le.mpr hshort)
    · simp [Fault.order, Passes, hne, hcolon, hsupported, hknown]
  | badTime henough htime herror =>
    refine Or.inr ⟨.invalidTimestamp, ⟨?_, ?_⟩, herror.answers rfl⟩
    · intro hpass
      have hsome := (parseIntText_isSome_iff (trimmed_token raw 3)).mpr hpass
      rw [htime] at hsome
      cases hsome
    · simpa [Fault.order, Passes, hne, hcolon, hsupported, hknown] using hpayload henough
  | badPlace henough htime hgps hplace herror =>
    refine Or.inr ⟨.invalidCoordinates, ⟨?_, ?_⟩, herror.answers rfl⟩
    · intro hpass
      obtain ⟨hlng, hlat⟩ := hpass (htypeOf.trans (congrArg some hgps))
      rw [← parseFloatText_isSome_iff (trimmed_token raw _)] at hlng hlat
      rcases hplace with hnone | hnone
      · simp [hnone] at hlng
      · simp [hnone] at hlat
    · simpa [Fault.order, Passes, hne, hcolon, hsupported, hknown, hread _ htime]
        using hpayload henough
  | raises hplace =>
    obtain ⟨p, hp⟩ := extractXyzFromTokens_returns (fieldsOf raw) 5
    cases hplace.symm.trans hp
  | event henough htime hevent hreturns =>
    refine Or.inl ⟨⟨hcolon, ⟨type, htype, henough, ?_⟩, hfilled, hread _ htime⟩, _, hreturns⟩
    rintro rfl
    obtain ⟨hlng, hlat⟩ : (parseFloatText (token (fieldsOf raw) 5)).isSome ∧
        (parseFloatText (token (fieldsOf raw) 6)).isSome := by
      cases hevent with
      | gpsposi hlng hlat => simp [hlng, hlat]
    exact ⟨(parseFloatText_isSome_iff (trimmed_token raw 5)).mp hlng,
      (parseFloatText_isSome_iff (trimmed_token raw 6)).mp hlat⟩

/-- The parser answers a text message with an event where it passes every check, and else
with the first fault. -/
theorem judges_parseText {raw : Str} (hne : raw ≠ []) :
    Judges raw (parseText rawMessage raw) := by
  cases parseText_parsed rawMessage raw with
  | invalidFormat hcolon herror =>
    exact Or.inr ⟨.invalidFormat, ⟨hcolon, by simp [Fault.order, Passes, hne]⟩, herror.answers rfl⟩
  | unsupportedType hcolon hname herror =>
    refine Or.inr ⟨.unsupportedMessageType, ⟨?_, ?_⟩, herror.answers rfl⟩
    · exact fun hpass => hpass hname
    · simp [Fault.order, Passes, hne, hcolon]
  | unknownType hcolon hname htype herror =>
    refine Or.inr ⟨.unknownMessageType, ⟨?_, ?_⟩, herror.answers rfl⟩
    · rintro ⟨type, hknown⟩
      cases htype.symm.trans (baseType_eq_some.mpr hknown)
    · simpa [Fault.order, Passes, hne, hcolon] using hname
  | @blankFields hcolon hname type htype hblank herror =>
    refine Or.inr ⟨.invalidPayload, ⟨?_, ?_⟩, herror.answers rfl⟩
    · rintro ⟨⟨field, hfield, hfilled⟩, -⟩
      exact hfilled (hblank field hfield)
    · have hknown : ∃ type : BaseType, type.name = typeName raw :=
        ⟨type, baseType_eq_some.mp htype⟩
      simpa [Fault.order, Passes, hne, hcolon, hknown] using hname
  | fields hcolon hname htype hfilled hfields =>
    exact hfields ▸ judges_parseFields (baseType_eq_some.mp htype) hcolon hfilled

/-- A message of the grammar passes every check. -/
theorem TextMessage.passes {raw : Str} (h : TextMessage raw) (fault : Fault) :
    Passes raw fault := by
  obtain ⟨hcolon, ⟨type, htype, henough, hplaced⟩, hfilled, htime⟩ := h
  have htypeOf : typeOf raw = some type := baseType_eq_some.mpr htype
  cases fault with
  | emptyMessage => exact List.ne_nil_of_mem hcolon
  | invalidFormat => exact hcolon
  | unsupportedMessageType =>
    change typeName raw ∉ unsupportedTypes
    rw [← htype]
    exact name_not_unsupported type
  | unknownMessageType => exact ⟨type, htype⟩
  | invalidPayload =>
    refine ⟨hfilled, ?_⟩
    intro type' htype'
    rw [htypeOf] at htype'
    exact Option.some.inj htype' ▸ henough
  | invalidTimestamp => exact htime
  | invalidCoordinates =>
    intro hgps
    rw [htypeOf] at hgps
    exact hplaced (Option.some.inj hgps)

/-- A call that judges a message accepts it exactly when it is in the grammar. -/
theorem Judges.accepts_iff {raw : Str} {r : Parsed} (h : Judges raw r) :
    (Accepts r ↔ TextMessage raw) ∧
      (¬ TextMessage raw → ∃ fault, FirstFault raw fault ∧ Answers r fault) := by
  rcases h with ⟨hmessage, haccepts⟩ | ⟨fault, hfirst, hanswers⟩
  · exact ⟨iff_of_true haccepts hmessage, fun hnot => absurd hmessage hnot⟩
  · have hnot : ¬ TextMessage raw := fun hmessage => hfirst.1 (hmessage.passes fault)
    refine ⟨iff_of_false ?_ hnot, fun _ => ⟨fault, hfirst, hanswers⟩⟩
    rintro ⟨event, hevent⟩
    obtain ⟨e, herror, -⟩ := hanswers
    rw [hevent] at herror
    cases herror

/-- A message that does not start with a brace is accepted exactly when it is in the
grammar, and else the error names the first check that it fails. -/
theorem text_grammar (s : Str) (h : (strip s).head? ≠ some 123) :
    (Accepts (parseMessage ⟨⟩ s) ↔ TextMessage (strip s)) ∧
      (¬ TextMessage (strip s) →
        ∃ fault, FirstFault (strip s) fault ∧ Answers (parseMessage ⟨⟩ s) fault) := by
  refine Judges.accepts_iff ?_
  unfold parseMessage
  simp only
  split
  · rename_i hempty
    refine Or.inr ⟨.emptyMessage, ⟨fun hpass => hpass hempty, ?_⟩, _, rfl, rfl⟩
    simp [Fault.order]
  · rename_i hne
    exact judges_parseText hne

end

section Examples

attribute [local instance] asciiRuntime

/-- A `status2` message with four fields, its time in hexadecimal. -/
theorem text_grammar_status2 :
    Accepts (parseMessage ⟨⟩ (text " Status2 :1,00A320,0,0X10 ")) ∧
      TextMessage (strip (text " Status2 :1,00A320,0,0X10 ")) := by
  have haccepts : Accepts (parseMessage ⟨⟩ (text " Status2 :1,00A320,0,0X10 ")) := by
    have hparsed : ((parseMessage ⟨⟩ (text " Status2 :1,00A320,0,0X10 ")).toOption.bind
        Except.toOption).map (·.tagId) = some (text "00A320") := by decide +kernel
    obtain ⟨e, hevent, -⟩ := exists_event hparsed
    exact ⟨e, hevent⟩
  exact ⟨haccepts, (text_grammar _ (by decide +kernel)).1.mp haccepts⟩

end Examples

end RtlsStream.StreamHandler
