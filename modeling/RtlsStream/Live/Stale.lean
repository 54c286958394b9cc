/-
  Live/Stale.lean --- what the staleness filter drops.

  `_snapshot_timestamps` maps the tags of the snapshot to their times, and `_is_stale`
  looks an envelope's tag up in it.  The default of the lookup is 0: a tag that the
  snapshot does not list counts as last seen at the epoch, and an envelope with an
  earlier time is dropped although nothing supersedes it (`isStale_iff_superseded`).
-/
import RtlsStream.Live.Envelope
import RtlsStream.Store.Statements
import Mathlib.Data.List.Nodup

set_option autoImplicit false

namespace RtlsStream.Live

open RtlsStream.Foundation RtlsStream.Python RtlsStream.Store

/-! ## The map of the snapshot -/

/-- A row of a snapshot.  The map is declared `dict[str, int]`: a row with a `tag_id` has a
string there and an integer `ts_utc_ms`. -/
structure SnapshotRow where
  fields : Dict Json
  keyed : ∀ v, fields.get? (text "tag_id") = some v →
    ∃ tag ts, v = .str tag ∧ fields.get? (text "ts_utc_ms") = some (.int ts)

namespace SnapshotRow

/-- `row["tag_id"]: row["ts_utc_ms"]`, of a row with `"tag_id" in row`. -/
def entry (row : SnapshotRow) : Option (Str × Int) :=
  match row.fields.get? (text "tag_id"), row.fields.get? (text "ts_utc_ms") with
  | some (.str tag), some (.int ts) => some (tag, ts)
  | _, _ => none

theorem entry_eq_some {row : SnapshotRow} {tag : Str} {ts : Int} :
    row.entry = some (tag, ts) ↔ row.fields.get? (text "tag_id") = some (.str tag) ∧
      row.fields.get? (text "ts_utc_ms") = some (.int ts) := by
  unfold entry
  split
  · rename_i htag hts
    simp [htag, hts]
  · rename_i hnone
    constructor
    · rintro ⟨⟩
    · rintro ⟨htag, hts⟩
      exact absurd hts (hnone _ _ htag)

/-- The key of the entry is the row's `tag_id`. -/
theorem tagId_eq (row : SnapshotRow) :
    row.fields.get? (text "tag_id") = row.entry.map (Json.str ·.1) := by
  cases htag : row.fields.get? (text "tag_id") with
  | none => simp [entry, htag]
  | some v =>
    obtain ⟨tag, ts, rfl, hts⟩ := row.keyed v htag
    rw [entry_eq_some.mpr ⟨htag, hts⟩]
    rfl

/-- A row as the query returns it. -/
def ofRow (r : Row) : SnapshotRow where
  fields := currentRow r
  keyed := by
    intro v hv
    rw [get?_currentRow_tagId] at hv
    exact ⟨r.tagId.1, r.tsUtcMs.1, (Option.some.inj hv).symm, get?_currentRow_tsUtcMs r⟩

theorem fields_ofRow (r : Row) : (ofRow r).fields = currentRow r := rfl

theorem entry_ofRow (r : Row) : (ofRow r).entry = some (r.tagId.1, r.ts) := by
  rw [entry_eq_some, fields_ofRow, get?_currentRow_tagId, get?_currentRow_tsUtcMs]
  exact ⟨rfl, rfl⟩

end SnapshotRow

/-- `_snapshot_timestamps`, over the dictionaries of the rows -/
def snapshotTimestampsOf (snapshot : List SnapshotRow) : Dict Int :=
  Dict.update [] (snapshot.filterMap SnapshotRow.entry)

/-- On the rows of the query it is the map of `Live.Envelope`. -/
theorem snapshotTimestampsOf_ofRow (rows : List Row) :
    snapshotTimestampsOf (rows.map .ofRow) = snapshotTimestamps rows := by
  have hentries : (rows.map SnapshotRow.ofRow).filterMap SnapshotRow.entry =
      rows.map fun r => (r.tagId.1, r.ts) := by
    rw [List.filterMap_map, ← List.filterMap_eq_map]
    refine List.filterMap_congr fun r _ => ?_
    rw [Function.comp_apply, SnapshotRow.entry_ofRow, Function.comp_apply]
  rw [snapshotTimestampsOf, hentries, Dict.update, List.foldl_map, snapshotTimestamps]

/-- The keys of a snapshot. -/
def tagIds (snapshot : List SnapshotRow) : List Json :=
  snapshot.filterMap fun row => row.fields.get? (text "tag_id")

theorem tagIds_eq (snapshot : List SnapshotRow) :
    tagIds snapshot = (snapshot.filterMap SnapshotRow.entry).map (Json.str ·.1) := by
  rw [List.map_filterMap]
  exact List.filterMap_congr fun row _ => row.tagId_eq

/-- With distinct keys the map has the entries of the rows. -/
theorem get?_snapshotTimestampsOf {snapshot : List SnapshotRow} (hkeys : (tagIds snapshot).Nodup)
    {tag : Str} {ts : Int} :
    (snapshotTimestampsOf snapshot).get? tag = some ts ↔
      ∃ row ∈ snapshot, row.fields.get? (text "tag_id") = some (.str tag) ∧
        row.fields.get? (text "ts_utc_ms") = some (.int ts) := by
  have hdistinct : Dict.Distinct (snapshot.filterMap SnapshotRow.entry) := by
    have hstr : tagIds snapshot =
        ((snapshot.filterMap SnapshotRow.entry).map (·.1)).map Json.str := by
      rw [tagIds_eq, List.map_map]
      rfl
    exact List.Nodup.of_map _ (hstr ▸ hkeys)
  rw [snapshotTimestampsOf, Dict.get?_update hdistinct]
  simp [List.mem_filterMap, SnapshotRow.entry_eq_some]

/-! ## The filter -/

/-- The snapshot has a row of the tag with a later time. -/
def Superseded (snapshot : List SnapshotRow) (tagId : Json) (ts : Int) : Prop :=
  ∃ row ∈ snapshot, row.fields.get? (text "tag_id") = some tagId ∧
    ∃ n, row.fields.get? (text "ts_utc_ms") = some (.int n) ∧ ts < n

/-- A value that can be the key of a dictionary. -/
def hashable : Json → Bool
  | .arr _ | .obj _ => false
  | .null | .bool _ | .int _ | .float _ | .str _ => true

/-- What is compared: an envelope with a tag and an integer time is looked up in the map. -/
theorem isStale_keyed {envelope payload : Dict Json} {tagId : Json} {ts : Int}
    (hpayload : envelope.get? (text "payload") = some (.obj payload))
    (htag : payload.get? (text "tag_id") = some tagId) (hnull : tagId ≠ .null)
    (hts : payload.get? (text "ts_utc_ms") = some (.int ts)) (snapshotTs : Dict Int) :
    isStale envelope snapshotTs =
      (snapshotTime snapshotTs tagId).map fun time => decide (ts < time) := by
  have hdict : asDict (getD envelope "payload" (.obj [])) = .ok payload := by
    simp [getD, hpayload, asDict]
  have htag' : getD payload "tag_id" .null = tagId := by simp [getD, htag]
  have hts' : getD payload "ts_utc_ms" .null = .int ts := by simp [getD, hts]
  have hlookup : isStale envelope snapshotTs =
      (snapshotTime snapshotTs tagId).bind fun time => lessThan (.int ts) time := by
    simp only [isStale, hdict, htag', hts', bind, Except.bind]
  rw [hlookup]
  cases snapshotTime snapshotTs tagId <;> rfl

/-- The map has no keys but those of the snapshot: any other tag counts as last seen at 0. -/
theorem snapshotTime_of_notMem {snapshot : List SnapshotRow} (hkeys : (tagIds snapshot).Nodup)
    {tagId : Json} (hhash : hashable tagId) (hnone : tagId ∉ tagIds snapshot) :
    snapshotTime (snapshotTimestampsOf snapshot) tagId = .ok 0 := by
  cases tagId with
  | str tag =>
    have hget : (snapshotTimestampsOf snapshot).get? tag = none := by
      rw [Option.eq_none_iff_forall_ne_some]
      intro ts hts
      obtain ⟨row, hrow, htag, -⟩ := (get?_snapshotTimestampsOf hkeys).mp hts
      exact hnone (List.mem_filterMap.mpr ⟨row, hrow, htag⟩)
    rw [snapshotTime, hget]
    rfl
  | arr _ => cases hhash
  | obj _ => cases hhash
  | null => rfl
  | bool _ => rfl
  | int _ => rfl
  | float _ => rfl

/-- A tag of the snapshot is looked up in its row. -/
theorem snapshotTime_of_mem {snapshot : List SnapshotRow} (hkeys : (tagIds snapshot).Nodup)
    {tagId : Json} (hmem : tagId ∈ tagIds snapshot) :
    ∃ time, snapshotTime (snapshotTimestampsOf snapshot) tagId = .ok time ∧
      ∀ ts, Superseded snapshot tagId ts ↔ ts < time := by
  obtain ⟨row, hrow, htagId⟩ := List.mem_filterMap.mp hmem
  obtain ⟨tag, time, rfl, htime⟩ := row.keyed tagId htagId
  have hget := (get?_snapshotTimestampsOf hkeys).mpr ⟨row, hrow, htagId, htime⟩
  refine ⟨time, by rw [snapshotTime, hget]; rfl, fun ts => ?_⟩
  constructor
  · rintro ⟨row', hrow', htag', n, hn, hlt⟩
    have hget' := (get?_snapshotTimestampsOf hkeys).mpr ⟨row', hrow', htag', hn⟩
    rwa [Option.some.inj (hget.symm.trans hget')]
  · exact fun hlt => ⟨row, hrow, htagId, time, htime, hlt⟩

/-- The filter drops what the snapshot supersedes and nothing else if and only if the tag is
one of the snapshot or the time is not before the epoch. -/
theorem isStale_iff_superseded {snapshot : List SnapshotRow} (hkeys : (tagIds snapshot).Nodup)
    {envelope payload : Dict Json} {tagId : Json} {ts : Int}
    (hpayload : envelope.get? (text "payload") = some (.obj payload))
    (htag : payload.get? (text "tag_id") = some tagId) (hnull : tagId ≠ .null)
    (hts : payload.get? (text "ts_utc_ms") = some (.int ts)) :
    (∃ stale, isStale envelope (snapshotTimestampsOf snapshot) = .ok stale ∧
        (stale = true ↔ Superseded snapshot tagId ts)) ↔
      hashable tagId ∧ (tagId ∈ tagIds snapshot ∨ 0 ≤ ts) := by
  rw [isStale_keyed hpayload htag hnull hts]
  by_cases hmem : tagId ∈ tagIds snapshot
  · obtain ⟨time, htime, hsuperseded⟩ := snapshotTime_of_mem hkeys hmem
    have hhash : hashable tagId := by
      obtain ⟨row, _, htagId⟩ := List.mem_filterMap.mp hmem
      obtain ⟨tag, _, rfl, _⟩ := row.keyed tagId htagId
      rfl
    simp [htime, hsuperseded, hmem, hhash, Except.map]
  · have hnever : ¬Superseded snapshot tagId ts := by
      rintro ⟨row, hrow, htagId, -⟩
      exact hmem (List.mem_filterMap.mpr ⟨row, hrow, htagId⟩)
    by_cases hhash : hashable tagId
    · simp [snapshotTime_of_notMem hkeys hhash hmem, hnever, hmem, hhash, Except.map]
    · -- the lookup raises
      cases tagId with
      | arr _ => simp [snapshotTime, hashable, Except.map]
      | obj _ => simp [snapshotTime, hashable, Except.map]
      | null => exact absurd rfl hnull
      | bool _ => exact absurd rfl hhash
      | int _ => exact absurd rfl hhash
      | float _ => exact absurd rfl hhash
      | str _ => exact absurd rfl hhash

/-- A device without a clock may send `-1`: the first envelope of a tag is dropped although the
snapshot is empty. -/
theorem absent_tag_dropped :
    isStale (envelopeAt (-1)) (snapshotTimestampsOf []) = .ok true ∧
      ¬Superseded [] (.str (text "00A320")) (-1) := by
  have hpayload : (envelopeAt (-1)).get? (text "payload") =
      some (.obj [(text "tag_id", .str (text "00A320")), (text "ts_utc_ms", .int (-1))]) := rfl
  refine ⟨?_, by simp [Superseded]⟩
  rw [isStale_keyed hpayload rfl (by simp) rfl]
  rfl

/-- A snapshot with one row. -/
def sampleSnapshot : List SnapshotRow :=
  [{ fields := [(text "tag_id", .str (text "00A320")), (text "ts_utc_ms", .int 2000)]
     keyed := fun _ hv => ⟨text "00A320", 2000, (Option.some.inj hv).symm, rfl⟩ }]

/-- An envelope of 1000 is stale, as the snapshot has 2000. -/
theorem isStale_iff_superseded_listed :
    ∃ stale, isStale (envelopeAt 1000) (snapshotTimestampsOf sampleSnapshot) = .ok stale ∧
      (stale = true ↔ Superseded sampleSnapshot (.str (text "00A320")) 1000) := by
  have hkeys : (tagIds sampleSnapshot).Nodup := List.nodup_singleton _
  have hpayload : (envelopeAt 1000).get? (text "payload") =
      some (.obj [(text "tag_id", .str (text "00A320")), (text "ts_utc_ms", .int 1000)]) := rfl
  have hlisted : Json.str (text "00A320") ∈ tagIds sampleSnapshot := List.mem_cons_self
  exact (isStale_iff_superseded hkeys hpayload rfl (by simp) rfl).mpr ⟨rfl, .inl hlisted⟩

end RtlsStream.Live
