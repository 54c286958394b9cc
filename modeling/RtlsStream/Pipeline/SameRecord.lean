/-
  Pipeline/SameRecord.lean --- one record in the history, the snapshot and the live
  stream.

  The fields of an event are written into a payload, read from it into parameters,
  bound to the columns of two tables, selected again and zipped with names; the
  browser reads the same payload with `JSON.parse`.  Every column that is shown holds the
  value the payload has under its name (`columns_of_record`), and of the values of a row
  the browser rounds only the time: where a binary64 holds it, the three views of a record
  agree wherever it is stored (`same_record`).
-/
import RtlsStream.Live.Envelope
import RtlsStream.History.Query
import RtlsStream.Pipeline.Finite
import RtlsStream.Pipeline.LastKnown
import RtlsStream.Receiver.Origin
import RtlsStream.Store.Statements

set_option autoImplicit false

namespace RtlsStream.Pipeline

open RtlsStream.Foundation RtlsStream.Python RtlsStream.StreamHandler RtlsStream.Receiver
open RtlsStream.Store RtlsStream.History RtlsStream.Live

/-- A value of a row, and the value of the browser: numbers are compared as numbers. -/
def SameValue : Json → Json → Prop
  | .int n, .float x => x.isFinite ∧ x.value = n
  | v, shown => v = shown

/-- The row and the position of the browser agree under each of the twelve names. -/
def SamePosition (row shown : Dict Json) : Prop :=
  ∀ name ∈ currentPosColumns, ∃ v v', row.get? name = some v ∧ shown.get? name = some v' ∧
    SameValue v v'

/-- The time of the payload is a number that a binary64 holds. -/
def ExactTime (payload : Dict Json) : Prop :=
  ∀ ts, payload.get? (text "ts_utc_ms") = some (.int ts) → (Binary64.nearest ts).value = ts

instance (payload : Dict Json) : Decidable (ExactTime payload) :=
  match h : payload.get? (text "ts_utc_ms") with
  | some (.int ts) =>
    decidable_of_iff ((Binary64.nearest ts).value = ts) (by simp [ExactTime, h])
  | none | some .null | some (.bool _) | some (.float _) | some (.str _) | some (.arr _)
  | some (.obj _) => isTrue (by simp [ExactTime, h])

/-! ## What the browser reads -/

/-- A value that the browser reads as it is. -/
def ReadExactly : Json → Prop
  | .int n => (Binary64.nearest n).isFinite ∧ (Binary64.nearest n).value = n
  | .arr _ | .obj _ => False
  | .null | .bool _ | .float _ | .str _ => True

theorem sameValue_jsonParse {v : Json} (h : ReadExactly v) : SameValue v (jsonParse v) := by
  cases v with
  | int n => exact h
  | arr _ => exact h.elim
  | obj _ => exact h.elim
  | null | bool _ | float _ | str _ => rfl

theorem readExactly_ofOption {α : Type} {f : α → Json} (h : ∀ a, ReadExactly (f a))
    (o : Option α) : ReadExactly (.ofOption f o) := by
  cases o with
  | none => trivial
  | some a => exact h a

/-- Of what a row shows only the time may be too large for the browser. -/
theorem readExactly_columns {r : Row} (hts : (Binary64.nearest r.ts).value = r.ts) {name : Str}
    (h : name ∈ currentPosColumns) : ∃ v, r.columns.get? name = some v ∧ ReadExactly v := by
  have htime : ReadExactly (.int r.tsUtcMs.1) := by
    have hrange := r.tsUtcMs.2
    have hle : r.tsUtcMs.1.natAbs ≤ 2 ^ 63 := by omega
    exact ⟨Binary64.isFinite_nearest (hle.trans_lt (by norm_num)), hts⟩
  have hlayer : ∀ n : Integer4, ReadExactly (.int n.1) := by
    intro n
    have hle : n.1.natAbs ≤ 2 ^ 31 := by omega
    exact ⟨Binary64.isFinite_nearest (hle.trans_lt (by norm_num)),
      Binary64.value_nearest_exact (hle.trans (by norm_num))⟩
  have htext : ∀ s : PgText, ReadExactly (.str s.1) := fun _ => trivial
  have hnumber : ∀ x : Binary64, ReadExactly (.float x) := fun _ => trivial
  have hall : ∀ column ∈ currentPosColumns.map r.columns.get?,
      ∃ v, column = some v ∧ ReadExactly v := by
    rw [map_columns]
    simp only [List.forall_mem_cons, List.not_mem_nil, false_implies, implies_true, and_true,
      Option.some.injEq, exists_eq_left']
    exact ⟨trivial, htime, trivial, readExactly_ofOption htext _, readExactly_ofOption hlayer _,
      readExactly_ofOption htext _, readExactly_ofOption hnumber _,
      readExactly_ofOption hnumber _, readExactly_ofOption hnumber _,
      readExactly_ofOption hnumber _, readExactly_ofOption hnumber _, trivial⟩
  exact hall _ (List.mem_map_of_mem h)

/-- What a payload holds under the twelve names. -/
theorem map_asdict (e : NormalizedEvent) : currentPosColumns.map (asdict e).get? =
    [some (.str e.tagId), some e.tsUtcMs.json, some (.str e.sourceType),
      some (.ofOption .str e.status), some (.ofOption PyInt.json e.layer),
      some (.ofOption .str e.area), some (.ofOption .float e.x), some (.ofOption .float e.y),
      some (.ofOption .float e.z), some (.ofOption .float e.lng), some (.ofOption .float e.lat),
      some (.str e.origin)] := rfl

/-! ## Columns that take values of their own type -/

section Columns

variable [Postgres]

theorem nullable_str {o : Option Str} {t : Option PgText}
    (h : nullable Postgres.text (.ofOption .str o) = some t) :
    Json.ofOption (fun s : PgText => .str s.1) t = .ofOption .str o := by
  cases o with
  | none =>
    obtain rfl := Option.some.inj h
    rfl
  | some s =>
    obtain ⟨t', ht', rfl⟩ := Option.map_eq_some_iff.mp h
    simp [Json.ofOption, text_of_str ht']

/-- A layer that is stored is an integer, and it is stored unchanged. -/
theorem nullable_layer {o : Option PyInt} {l : Option Integer4}
    (h : nullable Postgres.integer (.ofOption PyInt.json o) = some l) :
    Json.ofOption (fun n : Integer4 => .int n.1) l = .ofOption PyInt.json o := by
  cases o with
  | none =>
    obtain rfl := Option.some.inj h
    rfl
  | some n =>
    cases n with
    | bool b =>
      obtain ⟨l', hl', -⟩ := Option.map_eq_some_iff.mp h
      cases (Postgres.integer_bool b).symm.trans hl'
    | int n =>
      obtain ⟨l', hl', rfl⟩ := Option.map_eq_some_iff.mp h
      have hbound := (Postgres.integer_int n).symm.trans hl'
      split at hbound
      · rw [← Option.some.inj hbound]
        rfl
      · cases hbound

end Columns

section Stored

variable [Runtime] [Postgres]

/-! ## From the record to its row -/

omit [Postgres] in
theorem extractParams_record {now : Int} {e : NormalizedEvent} {p : Params}
    (h : extractParams (recordEnvelope now e) = .ok p) :
    ∃ warnings, p = { eventParams now e warnings with origin := .str e.origin } := by
  have hextract : extractParams (recordEnvelope now e) =
      (dumps ascii (.arr (e.parseWarnings.map .str))).bind
        fun w => .ok { eventParams now e w with origin := .str e.origin } := rfl
  rw [hextract] at h
  obtain ⟨warnings, -, heq⟩ := bind_eq_ok.mp h
  exact ⟨warnings, (Except.ok.inj heq).symm⟩

/-- Each column that is shown holds what the payload has under its name. -/
theorem columns_of_record {now : Int} {e : NormalizedEvent} {r : Row}
    (h : rowOf (recordEnvelope now e) = some r) :
    ∀ name ∈ currentPosColumns, r.columns.get? name = (asdict e).get? name := by
  obtain ⟨p, hp, hr⟩ := params_of_rowOf h
  have hbound := bindParams_eq_some_iff.mp hr
  obtain ⟨warnings, rfl⟩ := extractParams_record hp
  have htag : r.tagId.1 = e.tagId := text_of_str hbound.tagId
  have hts : Json.int r.tsUtcMs.1 = e.tsUtcMs.json := by
    rw [int_of_bigint hbound.tsUtcMs, PyInt.json]
  have hsource : r.sourceType.1 = e.sourceType := text_of_str hbound.sourceType
  have horigin : r.origin.1 = e.origin := text_of_str hbound.origin
  have hstatus := nullable_str hbound.status
  have hlayer := nullable_layer hbound.layer
  have harea := nullable_str hbound.area
  have hx := nullable_float hbound.x
  have hy := nullable_float hbound.y
  have hz := nullable_float hbound.z
  have hlng := nullable_float hbound.lng
  have hlat := nullable_float hbound.lat
  refine List.map_inj_left.mp ?_
  rw [map_columns, map_asdict, htag, hts, hsource, horigin, hstatus, hlayer, harea, hx, hy, hz, hlng,
    hlat]

omit [Runtime] [Postgres] in
/-- The browser reads the message of a record with finite coordinates. -/
theorem clientPosition_record (now : Int) {e : NormalizedEvent} (h : FiniteEvent e) :
    clientPosition (recordEnvelope now e) = some (jsonParseMembers (asdict e)) := by
  have hparse : parseable (.obj (recordEnvelope now e)) :=
    (parseable_build rfl).mpr (parseable_asdict.mpr h)
  exact clientPosition_eq hparse rfl rfl

/-- A row shows what the browser reads in the message it was stored for. -/
theorem samePosition_of_record {now : Int} {e : NormalizedEvent} {r : Row}
    (h : rowOf (recordEnvelope now e) = some r) (hts : ExactTime (asdict e)) {row : Dict Json}
    (hrow : ∀ name ∈ currentPosColumns, row.get? name = r.columns.get? name) :
    SamePosition row (jsonParseMembers (asdict e)) := by
  have hcolumns := columns_of_record h
  have htime : (Binary64.nearest r.ts).value = r.ts :=
    hts r.ts ((hcolumns (text "ts_utc_ms") (by decide)).symm.trans rfl)
  intro name hname
  obtain ⟨v, hv, hexact⟩ := readExactly_columns htime hname
  refine ⟨v, jsonParse v, (hrow name hname).trans hv, ?_, sameValue_jsonParse hexact⟩
  rw [get?_jsonParseMembers, ← hcolumns name hname, hv, Option.map_some]

/-! ## The three views -/

/-- Whatever origin is configured: wherever a consumer has committed the record of a
datagram, its row in the history and, while it is the newest event of its tag, the current
row of the tag show what the browser reads in the message, if the coordinates are finite and
a binary64 holds the time. -/
theorem same_record {ι : Type} [DecidableEq ι] (origin : Str) (iterErrors : IterErrors)
    {d : Datagram} {message : Bytes} {headers : Headers}
    (h : (startUdpAt origin iterErrors).prepare d = .ok (message, headers)) :
    ∃ envelope payload : Dict Json, loadsBytes message = .ok (.obj envelope) ∧
      envelope.get? (text "payload") = some (.obj payload) ∧
      (FiniteCoordinates payload → ExactTime payload →
        ∃ shown, clientPosition envelope = some shown ∧
          ∀ (calls : ι → Dict Json) (i : ι), calls i = envelope →
            ∀ s, (Transaction.machine calls).Reachable s → ∀ e, s.phase i = .committed e →
              e ∈ s.db.events ∧ SamePosition (historyRow e.row) shown ∧
              (LastOfLargest Row.ts (s.db.eventsOf e.row.tagId) e.row →
                ∃ r, s.db.current.find? e.row.tagId = some r ∧
                  SamePosition (currentRow r) shown)) := by
  obtain ⟨e, hloads⟩ := prepare_record h
  refine ⟨_, asdict e, hloads, rfl, ?_⟩
  intro hfinite hts
  refine ⟨_, clientPosition_record _ (finiteCoordinates_asdict.mp hfinite), ?_⟩
  intro calls i hcall s hreach row hcommitted
  have hsound := Transaction.sound hreach
  have hrow : rowOf (recordEnvelope d.clock.envelope e) = some row.row := by
    rw [← hcall]
    exact hsound.own i row (by rw [hcommitted]; rfl)
  refine ⟨(hsound.logged row).mpr ⟨i, hcommitted⟩, ?_, ?_⟩
  · exact samePosition_of_record hrow hts fun name hname => get?_historyRow _ hname
  · intro hnewest
    refine ⟨row.row, ?_, samePosition_of_record hrow hts fun name hname => get?_currentRow _ hname⟩
    rw [Transaction.current hreach, newest_eq_some_iff]
    exact hnewest

end Stored

section Examples

attribute [local instance] asciiRuntime ownTypes

/-- The envelope that is published for a line. -/
def publishedFor (line : Str) : Option (Dict Json) := do
  let (message, _) ←
    ((startUdpAt (text "test-stream-json") schemeErrors).prepare (received line)).toOption
  match loadsBytes message with
  | .ok (.obj envelope) => some envelope
  | _ => none

theorem exists_message {line : Str} {envelope : Dict Json}
    (h : publishedFor line = some envelope) :
    ∃ message headers,
      (startUdpAt (text "test-stream-json") schemeErrors).prepare (received line) =
        .ok (message, headers) ∧ loadsBytes message = .ok (.obj envelope) := by
  unfold publishedFor at h
  cases hprepare : (startUdpAt (text "test-stream-json") schemeErrors).prepare (received line) with
  | error e => simp [hprepare, Except.toOption] at h
  | ok published =>
    refine ⟨published.1, published.2, rfl, ?_⟩
    simp only [hprepare, Except.toOption, Option.bind_eq_bind, Option.bind_some] at h
    split at h
    · rename_i hloads
      obtain rfl := Option.some.inj h
      exact hloads
    · cases h

theorem exists_committed {envelope : Dict Json} {r : Row} (hrow : rowOf envelope = some r) :
    ∃ s e, (Transaction.machine fun _ : Unit => envelope).Reachable s ∧
      s.phase () = .committed e ∧ e.row = r := by
  have hstart : (Transaction.machine fun _ : Unit => envelope).Reachable
      ⟨fun _ => .waiting, .empty, 1⟩ := .start ⟨fun _ => rfl, rfl⟩
  obtain ⟨s, hs, -, hcommitted, -⟩ := Transaction.persist_alone hstart rfl hrow (by
    intro _ _ _ hphase
    cases hphase)
  exact ⟨s, _, hs, hcommitted, rfl⟩

/-- The record of a `display` message, committed by the only consumer there is. -/
theorem same_record_display :
    ∃ message headers envelope shown s e,
      (startUdpAt (text "test-stream-json") schemeErrors).prepare
        (received (text "display:1,00A320,0,1000,1,3,4,0")) = .ok (message, headers) ∧
      loadsBytes message = .ok (.obj envelope) ∧ clientPosition envelope = some shown ∧
      (Transaction.machine fun _ : Unit => envelope).Reachable s ∧ e ∈ s.db.events ∧
      SamePosition (historyRow e.row) shown := by
  obtain ⟨envelope, hpublished⟩ : ∃ envelope,
      publishedFor (text "display:1,00A320,0,1000,1,3,4,0") = some envelope :=
    Option.isSome_iff_exists.mp (by decide +kernel)
  have hall : ∀ envelope ∈ publishedFor (text "display:1,00A320,0,1000,1,3,4,0"),
      (rowOf envelope).isSome ∧ ∀ v ∈ envelope.get? (text "payload"), ∀ payload ∈ (asDict v).toOption,
        FiniteCoordinates payload ∧ ExactTime payload := by
    decide +kernel
  obtain ⟨message, headers, hprepare, hloads⟩ := exists_message hpublished
  obtain ⟨_, payload, hloads', hpayload, hsame⟩ := same_record (ι := Unit) _ _ hprepare
  obtain rfl := Json.obj.inj (Except.ok.inj (hloads.symm.trans hloads'))
  obtain ⟨hstored, hchecks⟩ := hall envelope hpublished
  obtain ⟨hfinite, hts⟩ := hchecks _ hpayload payload rfl
  obtain ⟨r, hrow⟩ := Option.isSome_iff_exists.mp hstored
  obtain ⟨s, e, hs, hcommitted, -⟩ := exists_committed hrow
  obtain ⟨shown, hshown, hviews⟩ := hsame hfinite hts
  obtain ⟨hmem, hhistory, -⟩ := hviews _ () rfl s hs e hcommitted
  exact ⟨message, headers, envelope, shown, s, e, hprepare, hloads, hshown, hs, hmem, hhistory⟩

/-- A time of 54 bits is stored as it is, and the browser reads the number next to it. -/
theorem same_record_rounds :
    ∃ message headers envelope shown s e,
      (startUdpAt (text "test-stream-json") schemeErrors).prepare
        (received (text "display:1,00A320,0,9007199254740993,1,3,4,0")) = .ok (message, headers) ∧
      loadsBytes message = .ok (.obj envelope) ∧ clientPosition envelope = some shown ∧
      (Transaction.machine fun _ : Unit => envelope).Reachable s ∧ s.phase () = .committed e ∧
      ¬ SamePosition (historyRow e.row) shown := by
  obtain ⟨envelope, hpublished⟩ : ∃ envelope,
      publishedFor (text "display:1,00A320,0,9007199254740993,1,3,4,0") = some envelope :=
    Option.isSome_iff_exists.mp (by decide +kernel)
  have hall : ∀ envelope ∈ publishedFor (text "display:1,00A320,0,9007199254740993,1,3,4,0"),
      (rowOf envelope).isSome ∧ (clientPosition envelope).isSome ∧
        (∀ r ∈ rowOf envelope,
          (historyRow r).get? (text "ts_utc_ms") = some (.int 9007199254740993)) ∧
        ∀ shown ∈ clientPosition envelope,
          shown.get? (text "ts_utc_ms") = some (.float (.nearest 9007199254740993)) := by
    decide +kernel
  obtain ⟨message, headers, hprepare, hloads⟩ := exists_message hpublished
  obtain ⟨hstored, hclient, hhistory, hposition⟩ := hall envelope hpublished
  obtain ⟨r, hrow⟩ := Option.isSome_iff_exists.mp hstored
  obtain ⟨shown, hshown⟩ := Option.isSome_iff_exists.mp hclient
  obtain ⟨s, e, hs, hcommitted, rfl⟩ := exists_committed hrow
  refine ⟨message, headers, envelope, shown, s, e, hprepare, hloads, hshown, hs, hcommitted, ?_⟩
  intro hsame
  obtain ⟨v, v', hv, hv', hvalue⟩ := hsame (text "ts_utc_ms") (by decide)
  obtain rfl := Option.some.inj ((hhistory _ hrow).symm.trans hv)
  obtain rfl := Option.some.inj ((hposition _ hshown).symm.trans hv')
  have hread : (Binary64.nearest 9007199254740993).value = 9007199254740992 := by decide +kernel
  have hequal : ((9007199254740992 : ℚ)) = 9007199254740993 := by
    rw [← hread, hvalue.2]
    norm_num
  norm_num at hequal

end Examples

end RtlsStream.Pipeline
