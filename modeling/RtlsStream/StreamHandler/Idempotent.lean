/-
  StreamHandler/Idempotent.lean --- an event that is normalised again.

  The dictionary of an event is itself an object that `JsonStreamNormalizer` accepts.
  Each of its fields is under the first of the keys the reader looks at, none is under a
  later one or under `position`, and each is what its own reader makes of it, so the
  same event comes out, now with its time given and nothing to warn of.
-/
import RtlsStream.StreamHandler.TagId

set_option autoImplicit false

namespace RtlsStream.StreamHandler

open RtlsStream.Foundation RtlsStream.Python JsonStreamNormalizer

section

variable [Runtime]

/-! ## Reading a field back -/

omit [Runtime] in
/-- A field under the first key, which its reader takes for what it is, is read back. -/
theorem firstOf_ofOption {α : Type} {parse : Json → Except PyError (Option α)} {json : α → Json}
    {obj : Dict Json} {key : Str} {keys : List Str} {r : Option α}
    (hnull : parse .null = .ok none) (hfixed : ∀ a, r = some a → parse (json a) = .ok (some a))
    (hget : obj.get? key = some (.ofOption json r))
    (habsent : ∀ k ∈ keys, obj.get? k = none) : firstOf parse obj (key :: keys) = .ok r := by
  have hrest : firstOf parse obj keys = .ok none :=
    firstOf_none fun k hk v hv => absurd hv (by simp [habsent k hk])
  unfold firstOf
  rw [hget]
  cases r with
  | none => simp [Json.ofOption, hnull, hrest]
  | some a => simp [Json.ofOption, hfixed a rfl]

/-- An integer or a boolean is returned as it is. -/
theorem parseInt_json (hex : Bool) (n : PyInt) : parseInt hex n.json = .ok (some n) := by
  cases n <;> rfl

/-- A name is what `strip` makes of it. -/
theorem parseStr_named {s : Str} (h : Named s) : parseStr (.str s) = .ok (some s) := by
  have htrimmed : strip s = s := h.2
  simp [parseStr, pyStr, Except.map, htrimmed, h.1]

/-! ## The event of an event -/

/-- What the normaliser leaves in an event, apart from its warnings. -/
structure Normal (normalizer : JsonStreamNormalizer) (e : NormalizedEvent) : Prop where
  origin : e.origin = normalizer.origin
  sourceType : e.sourceType = text "json"
  tagId : Named e.tagId
  area : ∀ s, e.area = some s → Named s
  status : ∀ s, e.status = some s → Named s

theorem normal_of_normalize {self : JsonStreamNormalizer} {value : Json} {rawMessage : Str}
    {now : Int} {e : NormalizedEvent} (h : self.normalize value rawMessage now = .ok (some e)) :
    Normal self e := by
  obtain ⟨obj, tagId, rfl, htag, hread⟩ := normalize_ok h
  constructor
  case origin => exact hread.origin
  case sourceType => exact hread.sourceType
  case tagId => exact named_of_firstStr (hread.tagId ▸ htag)
  case area => exact fun s hs => named_of_firstStr (hread.area.trans (congrArg Except.ok hs))
  case status => exact fun s hs => named_of_firstStr (hread.status.trans (congrArg Except.ok hs))

omit [Runtime] in
/-- The names of the fields. -/
def fieldNames : List Str :=
  [text "origin", text "tag_id", text "ts_utc_ms", text "x", text "y", text "z", text "layer",
    text "area", text "status", text "source_type", text "raw_message", text "lng", text "lat",
    text "parse_warnings"]

omit [Runtime] in
theorem get?_asdict_of_notMem (e : NormalizedEvent) {key : Str} (h : key ∉ fieldNames) :
    (asdict e).get? key = none := by
  rw [Option.eq_none_iff_forall_ne_some]
  intro v hv
  have hnames : (asdict e).map (·.1) = fieldNames := rfl
  exact h (hnames ▸ List.mem_map_of_mem (Dict.get?_eq_some_mem hv))

omit [Runtime] in
/-- A field of the event is read back from its dictionary: no other key that its reader looks
at is the name of a field. -/
theorem firstOf_asdict {α : Type} {parse : Json → Except PyError (Option α)} {json : α → Json}
    (e : NormalizedEvent) {key : Str} {keys : List Str} {r : Option α}
    (hnull : parse .null = .ok none) (hfixed : ∀ a, r = some a → parse (json a) = .ok (some a))
    (hget : (asdict e).get? key = some (.ofOption json r))
    (hother : ∀ k ∈ keys, k ∉ fieldNames) : firstOf parse (asdict e) (key :: keys) = .ok r :=
  firstOf_ofOption hnull hfixed hget fun k hk => get?_asdict_of_notMem e (hother k hk)

/-- A dictionary of an event has no nested position. -/
theorem extractXyz_asdict (e : NormalizedEvent) : extractXyz (asdict e) = .ok (e.x, e.y, e.z) := by
  have hnone : (asdict e).get? (text "position") = none := get?_asdict_of_notMem e (by decide)
  have hx : firstFloat (asdict e) [text "x"] = .ok e.x :=
    firstOf_asdict e rfl (fun _ _ => rfl) rfl nofun
  have hy : firstFloat (asdict e) [text "y"] = .ok e.y :=
    firstOf_asdict e rfl (fun _ _ => rfl) rfl nofun
  have hz : firstFloat (asdict e) [text "z"] = .ok e.z :=
    firstOf_asdict e rfl (fun _ _ => rfl) rfl nofun
  rw [extractXyz_of_not_nested (by simp [hnone]), xyzOf, hx, hy, hz]
  rfl

/-- The readers find every field of the dictionary. -/
theorem normalize_asdict {normalizer : JsonStreamNormalizer} {e : NormalizedEvent}
    (h : Normal normalizer e) (rawMessage : Str) (now : Int) :
    normalizer.normalize (.obj (asdict e)) rawMessage now =
      .ok (some { e with rawMessage := rawMessage, parseWarnings := [] }) := by
  have htag : firstStr (asdict e) tagKeys = .ok (some e.tagId) :=
    firstOf_asdict e rfl (fun s hs => parseStr_named (Option.some.inj hs ▸ h.tagId)) rfl (by decide)
  have hts : firstInt false (asdict e) tsKeys = .ok (some e.tsUtcMs) :=
    firstOf_asdict e rfl (fun n _ => parseInt_json false n) rfl (by decide)
  have hlayer : firstInt false (asdict e) layerKeys = .ok e.layer :=
    firstOf_asdict e rfl (fun n _ => parseInt_json false n) rfl (by decide)
  have hlng : firstFloat (asdict e) lngKeys = .ok e.lng :=
    firstOf_asdict e rfl (fun _ _ => rfl) rfl (by decide)
  have hlat : firstFloat (asdict e) latKeys = .ok e.lat :=
    firstOf_asdict e rfl (fun _ _ => rfl) rfl (by decide)
  have harea : firstStr (asdict e) [text "area", text "rgn"] = .ok e.area :=
    firstOf_asdict e rfl (fun s hs => parseStr_named (h.area s hs)) rfl (by decide)
  have hstatus : firstStr (asdict e) [text "status"] = .ok e.status :=
    firstOf_asdict e rfl (fun s hs => parseStr_named (h.status s hs)) rfl nofun
  exact (normalize_eq_ok htag).mpr ⟨h.origin, rfl, ⟨some e.tsUtcMs, hts, rfl, rfl⟩,
    extractXyz_asdict e, hlayer, harea, hstatus, h.sourceType, rfl, hlng, hlat⟩

/-- Normalising the dictionary of an event, whatever raw message it has and whatever the clock
reads now, gives the event again, without a warning. -/
theorem normalize_idempotent {normalizer : JsonStreamNormalizer} {value : Json}
    {rawMessage : Str} {now : Int} {e : NormalizedEvent}
    (h : normalizer.normalize value rawMessage now = .ok (some e)) (stored rawMessage' : Str)
    (now' : Int) :
    normalizer.normalize (.obj (asdict { e with rawMessage := stored })) rawMessage' now' =
      .ok (some { e with rawMessage := rawMessage', parseWarnings := [] }) := by
  have hnormal := normal_of_normalize h
  have hstored : Normal normalizer { e with rawMessage := stored } :=
    ⟨hnormal.origin, hnormal.sourceType, hnormal.tagId, hnormal.area, hnormal.status⟩
  exact normalize_asdict hstored rawMessage' now'

end

section Examples

attribute [local instance] asciiRuntime

/-- An object without a time, its tag a number and its coordinates nested. -/
def paddedObject : Json :=
  .obj [(text "id", .int 7), (text "rgn", .str (text " hall ")),
    (text "position", .obj [(text "x", .str (text " 3 ")), (text "y", .bool true)])]

theorem normalize_idempotent_sample :
    ∃ e, (JsonStreamNormalizer.mk (text "ls-1000")).normalize paddedObject [] 5 = .ok (some e) ∧
      (JsonStreamNormalizer.mk (text "ls-1000")).normalize (.obj (asdict e)) [] 9 =
        .ok (some { e with rawMessage := [], parseWarnings := [] }) := by
  have hnormalized : ((JsonStreamNormalizer.mk (text "ls-1000")).normalize paddedObject [] 5
      ).toOption.join.isSome := by decide +kernel
  obtain ⟨e, he⟩ := Option.isSome_iff_exists.mp hnormalized
  have hevent := eq_ok_of_toOption (Option.join_eq_some_iff.mp he)
  exact ⟨e, hevent, normalize_idempotent hevent e.rawMessage [] 9⟩

end Examples

end RtlsStream.StreamHandler
