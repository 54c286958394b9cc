/-
  StreamHandler/TagId.lean --- the tag of an accepted message.

  The two readers of JSON objects take a tag only where one is given (`named_of_firstStr`).
  The four readers of text messages take the field in the tag's place as it is, so a
  message whose device id is blank becomes an event of the tag with the empty name.
-/
import RtlsStream.StreamHandler.PathsAgree

set_option autoImplicit false

namespace RtlsStream.StreamHandler

open RtlsStream.Foundation RtlsStream.Python LS1000Parser

/-- A name: not empty, and without white space around it. -/
def Named (s : Str) : Prop := s ≠ [] ∧ Trimmed s

/-- The field a type has its tag in. -/
def tagField : BaseType → Nat
  | .status1 => 2
  | .display | .status2 | .gpsposi => 1

section

variable [Runtime]

/-- The message is JSON, or the field of its tag is not blank. -/
def TagGiven (s : Str) : Prop :=
  (strip s).head? = some 123 ∨
    ∀ type, typeOf (strip s) = some type → token (fieldsOf (strip s)) (tagField type) ≠ []

/-- A text that `_first_str` returns is a name. -/
theorem named_of_firstStr {obj : Dict Json} {keys : List Str} {s : Str}
    (h : firstStr obj keys = .ok (some s)) : Named s := by
  have hread : ∀ v, parseStr v = .ok (some s) → Named s := by
    intro v hv
    unfold parseStr at hv
    split at hv
    · cases hv
    · cases hstr : pyStr v with
      | error e =>
        rw [hstr] at hv
        cases hv
      | ok t =>
        rw [hstr] at hv
        simp only [Except.map, Except.ok.injEq, Option.ite_none_left_eq_some,
          Option.some.injEq] at hv
        obtain ⟨hne, rfl⟩ := hv
        exact ⟨hne, trimmed_strip t⟩
  unfold firstStr at h
  induction keys with
  | nil => cases h
  | cons key keys ih =>
    unfold firstOf at h
    split at h
    · exact ih h
    · rename_i v hv
      split at h
      · cases h
      · rename_i a hread'
        obtain rfl := Option.some.inj (Except.ok.inj h)
        exact hread v hread'
      · exact ih h

variable {rawMessage : Str} {tokens : List Str} {e : NormalizedEvent}

/-- The tag of a text message is one of its fields, unchecked. -/
theorem tagId_of_parseFields {type : BaseType}
    (h : parseFields type rawMessage tokens = .ok (.ok e)) :
    e.tagId = token tokens (tagField type) := by
  obtain ⟨ts, -, hevent⟩ := event_of_parseFields h
  cases hevent <;> rfl

/-- The event of an accepted message has a name for a tag exactly when the message is JSON
or its field for the tag is not blank; the normaliser's events always have. -/
theorem tag_named_iff :
    (∀ s e, parseMessage ⟨⟩ s = .ok (.ok e) → (Named e.tagId ↔ TagGiven s)) ∧
      ∀ (self : JsonStreamNormalizer) v rawMessage now e,
        self.normalize v rawMessage now = .ok (some e) → Named e.tagId := by
  constructor
  · intro s e h
    rcases parseMessage_ok h with ⟨hbrace, obj, -, hobject⟩ | ⟨hbrace, type, htype, hfields⟩
    · exact iff_of_true (named_of_firstStr (parseObject_ok hobject).tagId) (Or.inl hbrace)
    · rw [tagId_of_parseFields hfields]
      constructor
      · rintro ⟨hne, -⟩
        refine Or.inr ?_
        intro type' htype'
        rw [htype] at htype'
        rwa [← Option.some.inj htype']
      · rintro (hbrace' | hgiven)
        · exact absurd hbrace' hbrace
        · exact ⟨hgiven type htype, trimmed_token _ _⟩
  · intro self v rawMessage now e h
    obtain ⟨obj, tagId, -, htag, hread⟩ := JsonStreamNormalizer.normalize_ok h
    exact named_of_firstStr (hread.tagId ▸ htag)

end

section Examples

attribute [local instance] asciiRuntime

/-- A `display` message without a device id is an event of the tag with the empty name. -/
theorem blank_tag_accepted :
    ∃ e, parseMessage ⟨⟩ (text "display:1,,0,1000,1") = .ok (.ok e) ∧ ¬ Named e.tagId := by
  have hparsed : ((parseMessage ⟨⟩ (text "display:1,,0,1000,1")).toOption.bind
      Except.toOption).map (·.tagId) = some [] := by decide +kernel
  obtain ⟨e, hevent, htag⟩ := exists_event hparsed
  refine ⟨e, hevent, ?_⟩
  rw [htag]
  exact fun hnamed => hnamed.1 rfl

/-- A `display` message with one, and an object with a padded one. -/
theorem tag_named_iff_given :
    (∃ e, parseMessage ⟨⟩ (text "display:1, 00A320 ,0,1000,1") = .ok (.ok e) ∧ Named e.tagId) ∧
      ∃ e, (JsonStreamNormalizer.mk (text "ls-1000")).normalize
        (.obj [(text "tag", .str (text " 00A320 "))]) [] 0 = .ok (some e) ∧ Named e.tagId := by
  constructor
  · have hparsed : ((parseMessage ⟨⟩ (text "display:1, 00A320 ,0,1000,1")).toOption.bind
        Except.toOption).map (·.tagId) = some (text "00A320") := by decide +kernel
    obtain ⟨e, haccepted, -⟩ := exists_event hparsed
    refine ⟨e, haccepted, (tag_named_iff.1 _ e haccepted).mpr (Or.inr ?_)⟩
    intro type htype
    have hdisplay : typeOf (strip (text "display:1, 00A320 ,0,1000,1")) = some .display := by
      decide +kernel
    rw [hdisplay] at htype
    obtain rfl := Option.some.inj htype
    decide +kernel
  · have hnormalized : ((JsonStreamNormalizer.mk (text "ls-1000")).normalize
        (.obj [(text "tag", .str (text " 00A320 "))]) [] 0).toOption.join.isSome := by
      decide +kernel
    obtain ⟨e, he⟩ := Option.isSome_iff_exists.mp hnormalized
    have hevent := eq_ok_of_toOption (Option.join_eq_some_iff.mp he)
    exact ⟨e, hevent, tag_named_iff.2 _ _ _ _ e hevent⟩

end Examples

end RtlsStream.StreamHandler
