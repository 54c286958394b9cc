/-
  Pipeline/LastKnown.lean --- whether `current_positions` keeps the last known
  position of a tag.

  The upsert overwrites every column, so an event without coordinates erases those
  of an older one; `status1` and `status2` never have any (`position_status`).  The
  row of a tag therefore has coordinates exactly when every event of the tag without
  them is superseded by one with them (`lastKnown_iff_superseded`).
-/
import RtlsStream.Pipeline.Storable
import RtlsStream.Store.Transaction
import RtlsStream.StreamHandler.EventFields

set_option autoImplicit false

namespace RtlsStream.Pipeline

open RtlsStream.Foundation RtlsStream.Python RtlsStream.StreamHandler RtlsStream.Receiver
open RtlsStream.Store

/-! ## Positions -/

/-- The coordinates of an event or a row. -/
structure Position where
  x : Option Binary64
  y : Option Binary64
  z : Option Binary64
  lng : Option Binary64
  lat : Option Binary64
  deriving DecidableEq

/-- There is a place to show: `x` and `y`, or `lng` and `lat`. -/
def Position.Known (p : Position) : Prop :=
  (p.x.isSome ∧ p.y.isSome) ∨ (p.lng.isSome ∧ p.lat.isSome)

instance (p : Position) : Decidable p.Known := inferInstanceAs (Decidable (_ ∨ _))

/-- The coordinates of an event. -/
def eventPosition (e : NormalizedEvent) : Position := ⟨e.x, e.y, e.z, e.lng, e.lat⟩

/-- The coordinates of a row of either table. -/
def rowPosition (r : Row) : Position := ⟨r.x, r.y, r.z, r.lng, r.lat⟩

/-- An event of the tag with coordinates, and none with coordinates is newer. -/
structure NewestKnown (db : Database) (tag : PgText) (r : Row) : Prop where
  mem : r ∈ db.eventsOf tag
  known : (rowPosition r).Known
  newest : ∀ r' ∈ db.eventsOf tag, (rowPosition r').Known → r'.ts ≤ r.ts

/-- A tag that ever had coordinates is shown where it was last known to be. -/
def LastKnown (db : Database) : Prop :=
  ∀ tag, (∃ r ∈ db.eventsOf tag, (rowPosition r).Known) →
    ∃ row r, db.current.find? tag = some row ∧ NewestKnown db tag r ∧
      rowPosition row = rowPosition r

/-- Of a tag that ever had coordinates, every event without them is superseded by an event
with them: a strictly newer one, or one of the same time that was persisted later. -/
def PositionsSupersede (db : Database) : Prop :=
  ∀ tag, (∃ r ∈ db.eventsOf tag, (rowPosition r).Known) →
    Superseded Row.ts (fun r => (rowPosition r).Known) (db.eventsOf tag)

/-- The tables keep the last known positions exactly when the events with coordinates
supersede those without. -/
theorem lastKnown_iff_superseded {db : Database} (h : db.Current) :
    LastKnown db ↔ PositionsSupersede db := by
  have hrow : ∀ tag, (∃ r ∈ db.eventsOf tag, (rowPosition r).Known) →
      ∃ row, db.current.find? tag = some row ∧ newest Row.ts (db.eventsOf tag) = some row := by
    rintro tag ⟨r, hr, -⟩
    obtain ⟨row, hnewest⟩ : ∃ row, newest Row.ts (db.eventsOf tag) = some row :=
      exists_newest (List.ne_nil_of_mem hr)
    exact ⟨row, (h tag).trans hnewest, hnewest⟩
  constructor
  · intro hkept tag hknown
    obtain ⟨row, hfind, hnewest⟩ := hrow tag hknown
    obtain ⟨row', r, hfind', hr, hsame⟩ := hkept tag hknown
    obtain rfl := Option.some.inj (hfind.symm.trans hfind')
    have hrowKnown : (rowPosition row).Known := by
      rw [hsame]
      exact hr.known
    exact (newest_satisfies_iff hnewest).mp hrowKnown
  · intro hsuperseded tag hknown
    obtain ⟨row, hfind, hnewest⟩ := hrow tag hknown
    have hrowKnown := (newest_satisfies_iff hnewest).mpr (hsuperseded tag hknown)
    refine ⟨row, row, hfind, ⟨newest_mem hnewest, hrowKnown, ?_⟩, rfl⟩
    intro r' hr' _
    exact key_le_of_newest hnewest hr'

/-! ## From the event to the row -/

theorem nullable_float [Postgres] {o t : Option Binary64}
    (h : nullable Postgres.double (.ofOption .float o) = some t) : t = o := by
  cases o with
  | none => exact (Option.some.inj h).symm
  | some x =>
    simp only [Json.ofOption, nullable, Postgres.double_float, Option.map_some,
      Option.some.injEq] at h
    exact h.symm

theorem text_of_str [Postgres] {s : Str} {t : PgText} (h : Postgres.text (.str s) = some t) :
    t.1 = s := by
  rw [Postgres.text_str] at h
  split at h
  · rw [← Option.some.inj h]
  · cases h

theorem int_of_bigint [Postgres] {n : PyInt} {b : Bigint} (h : Postgres.bigint n.json = some b) :
    n = .int b.1 := by
  cases n with
  | bool v =>
    rw [PyInt.json, Postgres.bigint_bool] at h
    cases h
  | int n =>
    rw [PyInt.json, Postgres.bigint_int] at h
    split at h
    · rw [← Option.some.inj h]
    · cases h

/-- A row has the tag, the time and the coordinates of its event. -/
structure RowOfEvent (e : NormalizedEvent) (r : Row) : Prop where
  tagId : r.tagId.1 = e.tagId
  tsUtcMs : e.tsUtcMs = .int r.ts
  position : rowPosition r = eventPosition e

section Persisted

variable [Runtime] [Postgres]

theorem rowOfEvent {now : Int} {e : NormalizedEvent} {r : Row}
    (h : rowOf (eventEnvelope now e) = some r) : RowOfEvent e r := by
  obtain ⟨p, hp, hr⟩ := params_of_rowOf h
  have hbound := bindParams_eq_some_iff.mp hr
  obtain ⟨warnings, hparams⟩ := extractParams_event now e
  obtain rfl := Except.ok.inj (hparams.symm.trans hp)
  constructor
  case tagId => exact text_of_str hbound.tagId
  case tsUtcMs => exact int_of_bigint hbound.tsUtcMs
  case position =>
    have hx := nullable_float hbound.x
    have hy := nullable_float hbound.y
    have hz := nullable_float hbound.z
    have hlng := nullable_float hbound.lng
    have hlat := nullable_float hbound.lat
    simp [rowPosition, eventPosition, hx, hy, hz, hlng, hlat]

/-- Whatever events are persisted, in whatever order and with whatever failures: the
committed rows are those of the events, and the table keeps the last known positions
exactly when the events with coordinates supersede those without. -/
theorem lastKnown_iff {ι : Type} [DecidableEq ι] (ingestedAtMs : ι → Int)
    (event : ι → NormalizedEvent) :
    ∀ s, (Transaction.machine fun i => eventEnvelope (ingestedAtMs i) (event i)).Reachable s →
      (LastKnown s.db ↔ PositionsSupersede s.db) ∧
        ∀ r ∈ s.db.events, ∃ i, s.phase i = .committed r ∧ RowOfEvent (event i) r.row := by
  intro s hreach
  refine ⟨lastKnown_iff_superseded (Transaction.current hreach), ?_⟩
  intro r hr
  have hsound := Transaction.sound hreach
  obtain ⟨i, hi⟩ := (hsound.logged r).mp hr
  exact ⟨i, hi, rowOfEvent (hsound.own i r (by rw [hi]; rfl))⟩

omit [Postgres] in
/-- A `status1` or a `status2` never has coordinates. -/
theorem not_known_of_status {type : LS1000Parser.BaseType} {rawMessage : Str} {tokens : List Str}
    {e : NormalizedEvent} (htype : type = .status1 ∨ type = .status2)
    (h : LS1000Parser.parseFields type rawMessage tokens = .ok (.ok e)) :
    ¬ (eventPosition e).Known := by
  obtain ⟨ts, -, hevent⟩ := LS1000Parser.event_of_parseFields h
  rcases htype with rfl | rfl <;> cases hevent <;>
    simp [eventPosition, Position.Known, LS1000Parser.textEvent]

end Persisted

/-! ## A position and a status -/

section Examples

attribute [local instance] asciiRuntime ownTypes

/-- The position of a tag at second one. -/
def shown : NormalizedEvent :=
  { LS1000Parser.textEvent (text "display:1,00A320,0,1000,1,3,4,0") .display (text "00A320") 1000 with
    x := Binary64.ofInt 3
    y := Binary64.ofInt 4
    z := Binary64.ofInt 0
    layer := some (.int 1) }

/-- Its status, `ts` milliseconds after the epoch. -/
def silent (rawMessage : Str) (ts : Int) : NormalizedEvent :=
  { LS1000Parser.textEvent rawMessage .status1 (text "00A320") ts with layer := some (.int 1) }

/-- The position is persisted first, then the status. -/
theorem persisted_pair (status : NormalizedEvent) (htag : status.tagId = text "00A320")
    (hrow : (rowOf (eventEnvelope 3000 status)).isSome) :
    ∃ s r₁ r₂ tag, (Transaction.machine fun late : Bool =>
        eventEnvelope 3000 (if late then status else shown)).Reachable s ∧
      RowOfEvent shown r₁ ∧ RowOfEvent status r₂ ∧ s.db.eventsOf tag = [r₁, r₂] ∧
      ∀ tag', tag' ≠ tag → s.db.eventsOf tag' = [] := by
  obtain ⟨r₁, h₁⟩ : ∃ r, rowOf (eventEnvelope 3000 shown) = some r :=
    Option.isSome_iff_exists.mp (by decide +kernel)
  obtain ⟨r₂, h₂⟩ := Option.isSome_iff_exists.mp hrow
  have hstart : (Transaction.machine fun late : Bool =>
      eventEnvelope 3000 (if late then status else shown)).Reachable ⟨fun _ => .waiting, .empty, 1⟩ :=
    .start ⟨fun _ => rfl, rfl⟩
  obtain ⟨s, hs, hdb, hphase, hother⟩ := Transaction.persist_alone hstart (i := false) rfl h₁
    fun _ _ _ h => nomatch h
  have hwaiting : s.phase true = .waiting := hother true (by decide)
  obtain ⟨t, ht, hdb', -⟩ := Transaction.persist_alone hs hwaiting h₂ (by
    intro j e w hj
    cases j with
    | false => cases hphase.symm.trans hj
    | true => cases hwaiting.symm.trans hj)
  have hevents : t.db.events.map (·.row) = [r₁, r₂] := by
    rw [hdb', hdb]
    rfl
  have hsame : r₂.tagId = r₁.tagId := by
    refine Subtype.ext ?_
    rw [(rowOfEvent h₁).tagId, (rowOfEvent h₂).tagId, htag]
    rfl
  refine ⟨t, r₁, r₂, r₁.tagId, ht, rowOfEvent h₁, rowOfEvent h₂, ?_, ?_⟩
  · simp [Database.eventsOf, hevents, hsame]
  · intro tag' hne
    simp [Database.eventsOf, hevents, hsame, Ne.symm hne]

/-- A status that arrives late, being older than the position, leaves the position alone. -/
theorem lastKnown_late_status :
    ∃ s, (Transaction.machine fun late : Bool => eventEnvelope 3000
        (if late then silent (text "status1:1,0,00A320,900,0,1") 900 else shown)).Reachable s ∧
      LastKnown s.db := by
  obtain ⟨s, r₁, r₂, tag, hs, h₁, h₂, hevents, hothers⟩ :=
    persisted_pair (silent (text "status1:1,0,00A320,900,0,1") 900) rfl (by decide +kernel)
  have hknown : (rowPosition r₁).Known := by
    rw [h₁.position]
    decide +kernel
  have hts₁ : r₁.ts = 1000 := (PyInt.int.inj h₁.tsUtcMs).symm
  have hts₂ : r₂.ts = 900 := (PyInt.int.inj h₂.tsUtcMs).symm
  refine ⟨s, hs, ((lastKnown_iff (fun _ => 3000) _ s hs).1).mpr ?_⟩
  rintro tag' ⟨r, hr, -⟩ before a after hsplit ha
  by_cases htag : tag' = tag
  · subst htag
    rw [hevents] at hsplit
    match before, hsplit with
    | [], hsplit =>
      obtain ⟨rfl, -⟩ := List.cons.inj hsplit
      exact absurd hknown ha
    | [_], hsplit =>
      obtain ⟨rfl, htail⟩ := List.cons.inj hsplit
      obtain ⟨rfl, -⟩ := List.cons.inj htail
      exact Or.inl ⟨r₁, by simp, hknown, by omega⟩
    | _ :: _ :: _, hsplit => simp at hsplit
  · rw [hothers tag' htag] at hr
    cases hr

/-- A status that is newer than the position erases it. -/
theorem lastKnown_erased :
    LS1000Parser.parseMessage ⟨⟩ (text "display:1,00A320,0,1000,1,3,4,0") = .ok (.ok shown) ∧
      LS1000Parser.parseMessage ⟨⟩ (text "status1:1,0,00A320,2000,0,1") =
        .ok (.ok (silent (text "status1:1,0,00A320,2000,0,1") 2000)) ∧
      ∃ s, (Transaction.machine fun late : Bool => eventEnvelope 3000
          (if late then silent (text "status1:1,0,00A320,2000,0,1") 2000 else shown)).Reachable s ∧
        ¬ LastKnown s.db := by
  refine ⟨by decide +kernel, by decide +kernel, ?_⟩
  obtain ⟨s, r₁, r₂, tag, hs, h₁, h₂, hevents, -⟩ :=
    persisted_pair (silent (text "status1:1,0,00A320,2000,0,1") 2000) rfl (by decide +kernel)
  have hknown : (rowPosition r₁).Known := by
    rw [h₁.position]
    decide +kernel
  have hunknown : ¬ (rowPosition r₂).Known := by
    rw [h₂.position]
    decide +kernel
  have hts₁ : r₁.ts = 1000 := (PyInt.int.inj h₁.tsUtcMs).symm
  have hts₂ : r₂.ts = 2000 := (PyInt.int.inj h₂.tsUtcMs).symm
  refine ⟨s, hs, ?_⟩
  rw [lastKnown_iff_superseded (Transaction.current hs)]
  intro hsupersede
  have hlast := hsupersede tag ⟨r₁, by simp [hevents], hknown⟩ [r₁] r₂ [] hevents hunknown
  simp only [List.mem_singleton, exists_eq_left, hts₁, hts₂, List.not_mem_nil, false_and,
    exists_false, or_false] at hlast
  exact absurd hlast.2 (by decide)

end Examples

end RtlsStream.Pipeline
