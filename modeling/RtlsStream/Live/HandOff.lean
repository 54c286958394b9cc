/-
  Live/HandOff.lean --- from the snapshot to the live stream.

  A session subscribes before it reads the snapshot.  So an envelope published
  before the subscription was committed before the read and is covered by the
  snapshot, and one published later is in the queue.  `HandOff` follows both
  through the four stages of a session: what is published is in the queue, on its
  way, covered by a snapshot that is on its way, or shown.

  The map therefore shows of each tag the newest committed time, as far as a
  binary64 number can hold it, once the queue is drained and every message was read
  (`handOff_complete`); one that `JSON.parse` throws on is not applied.
-/
import RtlsStream.Live.System
import Mathlib.Data.List.Nodup

set_option autoImplicit false

namespace RtlsStream.Live

open RtlsStream.Foundation RtlsStream.Python RtlsStream.Store

section

variable [Runtime] [Postgres]

/-! ## What the browser shows -/

omit [Runtime] [Postgres] in
/-- The map shows the tag at this time or later. -/
def Shows (c : Client) (tag : Str) (ts : Int) : Prop :=
  ∃ p, c.positions.find? tag = some p ∧ (Binary64.nearest ts).value ≤ p.ts

/-- The snapshot has a row of the tag that is at least as new as the envelope. -/
def Covers (rows : List Row) (e : LiveEnvelope) : Prop :=
  ∃ r ∈ rows, r.tagId.1 = e.tagId ∧ e.tsUtcMs ≤ r.ts

omit [Runtime] [Postgres] in
/-- The snapshot has a row at least as new for everything the map shows. -/
def CoversMap (rows : List Row) (c : Client) : Prop :=
  ∀ tag p, c.positions.find? tag = some p →
    ∃ r ∈ rows, r.tagId.1 = tag ∧ p.ts ≤ (Binary64.nearest r.ts).value

omit [Runtime] [Postgres] in
theorem Row.ts_lt (r : Row) : r.ts.natAbs < 2 ^ 200 := by
  have hrange := r.tsUtcMs.2
  have hbig : r.ts.natAbs ≤ 2 ^ 63 := by
    unfold Row.ts
    omega
  exact hbig.trans_lt (by norm_num)

/-- What a newer row shows, it shows of an older envelope too. -/
theorem Shows.of_covers {c : Client} {rows : List Row} {e : LiveEnvelope} (h : Covers rows e)
    (hrows : ∀ r ∈ rows, Shows c r.tagId.1 r.ts) : Shows c e.tagId e.tsUtcMs := by
  obtain ⟨r, hr, htag, hle⟩ := h
  obtain ⟨p, hp, hts⟩ := hrows r hr
  rw [htag] at hp
  exact ⟨p, hp, (Binary64.value_nearest_mono e.tsUtcMs_lt (Row.ts_lt r) hle).trans hts⟩

/-- An envelope never takes the map back. -/
theorem Client.onMessage_envelope_mono {c : Client} {e : LiveEnvelope} {tag : Str} {p : Position}
    (h : c.positions.find? tag = some p) :
    ∃ q, (c.onMessage (.envelope e)).positions.find? tag = some q ∧ p.ts ≤ q.ts := by
  unfold Client.onMessage
  split
  · simp only [find?_upsertPosition]
    split
    · rw [h]
      obtain ⟨q, hq⟩ := Option.isSome_iff_exists.mp
        (keepNewest_isSome Position.ts (some p) e.position)
      exact ⟨q, hq, held_le_keepNewest hq⟩
    · exact ⟨p, h, le_rfl⟩
  · exact ⟨p, h, le_rfl⟩

theorem Shows.onMessage_envelope {c : Client} {e : LiveEnvelope} {tag : Str} {ts : Int}
    (h : Shows c tag ts) : Shows (c.onMessage (.envelope e)) tag ts := by
  obtain ⟨p, hp, hts⟩ := h
  obtain ⟨q, hq, hle⟩ := Client.onMessage_envelope_mono hp
  exact ⟨q, hq, hts.trans hle⟩

/-- An envelope that is read is shown. -/
theorem shows_onMessage_envelope {c : Client} {e : LiveEnvelope}
    (h : (c.onMessage (.envelope e)).unparsed = false) :
    Shows (c.onMessage (.envelope e)) e.tagId e.tsUtcMs := by
  unfold Client.onMessage at h ⊢
  split
  · simp only [Shows, find?_upsertPosition]
    rw [if_pos (show e.position.tagId = e.tagId from rfl)]
    obtain ⟨q, hq⟩ := Option.isSome_iff_exists.mp
      (keepNewest_isSome Position.ts (c.positions.find? e.tagId) e.position)
    have hle : e.position.ts ≤ q.ts := key_le_keepNewest hq
    exact ⟨q, hq, hle⟩
  · rename_i hparse
    simp [hparse] at h

/-- After the snapshot the map is the snapshot. -/
theorem shows_onMessage_snapshot {c : Client} {rows : List Row}
    (hkey : (rows.map (·.tagId)).Nodup) (hfirst : c.gotSnapshot = false)
    (h : (c.onMessage (.snapshot rows)).gotSnapshot = true) {r : Row} (hr : r ∈ rows) :
    (c.onMessage (.snapshot rows)).positions.find? r.tagId.1 = some (positionFromSnapshot r) := by
  have hkeys : ((rows.map positionFromSnapshot).map Position.tagId).Nodup := by
    have hval := hkey.map (f := fun tag : PgText => tag.1) Subtype.val_injective
    rwa [List.map_map] at hval ⊢
  unfold Client.onMessage at h ⊢
  split
  · simp only [hfirst, Bool.false_eq_true, if_false]
    rw [Table.find?_ofList hkeys]
    exact Table.find?_of_mem (t := ⟨_, hkeys⟩) (List.mem_map_of_mem hr)
  · rename_i hparse
    simp [hparse, hfirst] at h

/-! ## The invariant -/

/-- The stage of a session, and where the published envelopes are.  The clauses on the
envelopes hold as long as the queue has not overflowed and, once the browser reads,
as long as it could read everything. -/
inductive HandOff (published : List LiveEnvelope) (S : Session) (c : Client) : Prop
  | early : S.stage = .accepted ∨ S.stage = .subscribed → S.wire = [] →
      c.gotSnapshot = false → c.unparsed = false → HandOff published S c
  | read (rows : List Row) : S.stage = .read rows → S.wire = [] →
      c.gotSnapshot = false → c.unparsed = false → CoversMap rows c →
      (S.overflowed = false → ∀ e ∈ published, e ∈ S.queue ∨ Covers rows e) →
      HandOff published S c
  | sent (rows : List Row) (envelopes : List LiveEnvelope) : S.stage = .streaming rows →
      S.wire = .snapshot rows :: envelopes.map .envelope →
      c.gotSnapshot = false → c.unparsed = false → CoversMap rows c →
      (S.overflowed = false → ∀ e ∈ published, 0 ≤ e.tsUtcMs →
        e ∈ S.queue ∨ e ∈ envelopes ∨ Covers rows e) →
      HandOff published S c
  | live (rows : List Row) (envelopes : List LiveEnvelope) : S.stage = .streaming rows →
      S.wire = envelopes.map .envelope → c.gotSnapshot = true ∨ c.unparsed = true →
      (c.unparsed = false → ∀ r ∈ rows, Shows c r.tagId.1 r.ts) →
      (S.overflowed = false → c.unparsed = false → ∀ e ∈ published, 0 ≤ e.tsUtcMs →
        e ∈ S.queue ∨ e ∈ envelopes ∨ Shows c e.tagId e.tsUtcMs) →
      HandOff published S c

variable {published : List LiveEnvelope} {S : Session} {c : Client}

/-- What an offer does to a subscribed session. -/
theorem Session.offer_cases (S : Session) (e : LiveEnvelope) :
    (S.offer e).stage = S.stage ∧ (S.offer e).wire = S.wire ∧
      (S.stage = .accepted ∨
        ((S.offer e).overflowed = false →
          S.overflowed = false ∧ (S.offer e).queue = S.queue ++ [e])) := by
  unfold Session.offer
  split
  · rename_i hstage
    exact ⟨rfl, rfl, Or.inl hstage⟩
  · split
    · exact ⟨rfl, rfl, Or.inr fun h => ⟨h, rfl⟩⟩
    · exact ⟨rfl, rfl, Or.inr fun h => by simp at h⟩

/-- Of a subscribed session that has not lost one, each published envelope stays in the queue or
where it was, and the new one is in the queue. -/
theorem Session.offer_keeps {S : Session} {e : LiveEnvelope} (hstage : S.stage ≠ .accepted)
    {P Q : LiveEnvelope → Prop}
    (hall : S.overflowed = false → ∀ e' ∈ published, P e' → e' ∈ S.queue ∨ Q e')
    (hroom : (S.offer e).overflowed = false) :
    ∀ e' ∈ e :: published, P e' → e' ∈ (S.offer e).queue ∨ Q e' := by
  obtain ⟨-, -, haccepted | hqueue⟩ := S.offer_cases e
  · exact absurd haccepted hstage
  obtain ⟨hroom', hq⟩ := hqueue hroom
  intro e' he' hP
  rw [hq]
  rcases List.mem_cons.mp he' with rfl | he'
  · exact Or.inl (by simp)
  · exact (hall hroom' e' he' hP).imp (List.mem_append_left _) id

/-- A publish puts the envelope into the queue of every subscribed session. -/
theorem HandOff.offer (h : HandOff published S c) (e : LiveEnvelope) :
    HandOff (e :: published) (S.offer e) c := by
  obtain ⟨hstage, hwire, -⟩ := S.offer_cases e
  cases h with
  | early hearly hempty hgot hparsed =>
    exact .early (by rwa [hstage]) (by rwa [hwire]) hgot hparsed
  | read rows hread hempty hgot hparsed hmap hall =>
    refine .read rows (by rwa [hstage]) (by rwa [hwire]) hgot hparsed hmap ?_
    intro hroom e' he'
    exact Session.offer_keeps (by simp [hread]) (P := fun _ => True)
      (fun hroom' e' he' _ => hall hroom' e' he') hroom e' he' trivial
  | sent rows envelopes hsent hfull hgot hparsed hmap hall =>
    refine .sent rows envelopes (by rwa [hstage]) (by rwa [hwire]) hgot hparsed hmap ?_
    exact Session.offer_keeps (by simp [hsent]) hall
  | live rows envelopes hlive hfull hgot hrows hall =>
    refine .live rows envelopes (by rwa [hstage]) (by rwa [hwire]) hgot hrows ?_
    intro hroom hparsed
    exact Session.offer_keeps (by simp [hlive]) (fun hroom' => hall hroom' hparsed) hroom

/-- What the filter drops, the snapshot covers. -/
theorem covers_of_stale {rows : List Row} {e : LiveEnvelope}
    (h : isStale e.envelope (snapshotTimestamps rows) = .ok true) (hpos : 0 ≤ e.tsUtcMs) :
    Covers rows e := by
  rw [isStale_live] at h
  have hlt : e.tsUtcMs < ((snapshotTimestamps rows).get? e.tagId).getD 0 := by simpa using h
  cases htime : (snapshotTimestamps rows).get? e.tagId with
  | none =>
    rw [htime, Option.getD_none] at hlt
    omega
  | some ts =>
    rw [htime, Option.getD_some] at hlt
    obtain ⟨r, hr, htag, hts⟩ := snapshotTimestamps_row htime
    exact ⟨r, hr, htag, by omega⟩

/-- The head of the queue goes on its way, or is covered. -/
theorem HandOff.dequeue (h : HandOff published S c) {rows : List Row} {e : LiveEnvelope}
    {rest : List LiveEnvelope} (hstage : S.stage = .streaming rows) (hqueue : S.queue = e :: rest)
    (more : List LiveEnvelope) (hmore : e ∈ more ∨ (0 ≤ e.tsUtcMs → Covers rows e)) :
    HandOff published { S with queue := rest, wire := S.wire ++ more.map .envelope } c := by
  cases h with
  | early hearly => rcases hearly with hearly | hearly <;> simp [hstage] at hearly
  | read rows' hread => simp [hstage] at hread
  | sent rows' envelopes hsent hfull hgot hparsed hmap hall =>
    obtain rfl : rows = rows' := by simpa [hstage] using hsent
    refine .sent rows (envelopes ++ more) hstage (by simp [hfull]) hgot hparsed hmap ?_
    intro hroom e' he' hpos
    rcases hall hroom e' he' hpos with hq | hsent | hcovered
    · rw [hqueue] at hq
      rcases List.mem_cons.mp hq with rfl | hq
      · rcases hmore with hmore | hmore
        · exact Or.inr (Or.inl (List.mem_append_right _ hmore))
        · exact Or.inr (Or.inr (hmore hpos))
      · exact Or.inl hq
    · exact Or.inr (Or.inl (List.mem_append_left _ hsent))
    · exact Or.inr (Or.inr hcovered)
  | live rows' envelopes hlive hfull hgot hrows hall =>
    obtain rfl : rows = rows' := by simpa [hstage] using hlive
    refine .live rows (envelopes ++ more) hstage (by simp [hfull]) hgot hrows ?_
    intro hroom hparsed e' he' hpos
    rcases hall hroom hparsed e' he' hpos with hq | hsent | hshown
    · rw [hqueue] at hq
      rcases List.mem_cons.mp hq with rfl | hq
      · rcases hmore with hmore | hmore
        · exact Or.inr (Or.inl (List.mem_append_right _ hmore))
        · exact Or.inr (Or.inr (Shows.of_covers (hmore hpos) (hrows hparsed)))
      · exact Or.inl hq
    · exact Or.inr (Or.inl (List.mem_append_left _ hsent))
    · exact Or.inr (Or.inr hshown)

/-- A message moves from the wire to the map. -/
theorem HandOff.receive (h : HandOff published S c) {m : Message} {rest : List Message}
    (hwire : S.wire = m :: rest)
    (hkey : ∀ rows, Message.snapshot rows ∈ S.wire → (rows.map (·.tagId)).Nodup) :
    HandOff published { S with wire := rest } (c.onMessage m) := by
  cases h with
  | early _ hempty => simp [hwire] at hempty
  | read rows _ hempty => simp [hwire] at hempty
  | sent rows envelopes hsent hfull hgot hparsed hmap hall =>
    have hkeys : (rows.map (·.tagId)).Nodup := hkey rows (by simp [hfull])
    rw [hfull] at hwire
    obtain ⟨rfl, rfl⟩ := List.cons.inj hwire
    have hflags : (c.onMessage (.snapshot rows)).gotSnapshot = true ∨
        (c.onMessage (.snapshot rows)).unparsed = true := by
      unfold Client.onMessage
      split <;> simp [hgot]
    have hrows : (c.onMessage (.snapshot rows)).unparsed = false →
        ∀ r ∈ rows, Shows (c.onMessage (.snapshot rows)) r.tagId.1 r.ts := by
      intro hread r hr
      have hgot' : (c.onMessage (.snapshot rows)).gotSnapshot = true := by simpa [hread] using hflags
      exact ⟨_, shows_onMessage_snapshot hkeys hgot hgot' hr, le_rfl⟩
    refine .live rows envelopes hsent rfl hflags hrows ?_
    intro hroom hread e he hpos
    refine (hall hroom e he hpos).imp id (Or.imp id ?_)
    exact fun hcovered => Shows.of_covers hcovered (hrows hread)
  | live rows envelopes hlive hfull hgot hrows hall =>
    rw [hfull] at hwire
    cases envelopes with
    | nil => cases hwire
    | cons e envelopes =>
      obtain ⟨rfl, rfl⟩ := List.cons.inj hwire
      have hbefore : (c.onMessage (.envelope e)).unparsed = false → c.unparsed = false := by
        unfold Client.onMessage
        split
        · exact id
        · intro hcontra
          cases hcontra
      refine .live rows envelopes hlive rfl ?_ ?_ ?_
      · unfold Client.onMessage
        split
        · exact hgot
        · exact Or.inr rfl
      · exact fun hread r hr => (hrows (hbefore hread) r hr).onMessage_envelope
      · intro hroom hread e' he' hpos
        rcases hall hroom (hbefore hread) e' he' hpos with hq | hsent | hshown
        · exact Or.inl hq
        · rcases List.mem_cons.mp hsent with rfl | hsent
          · exact Or.inr (Or.inr (shows_onMessage_envelope hread))
          · exact Or.inr (Or.inl hsent)
        · exact Or.inr (Or.inr hshown.onMessage_envelope)

/-- A snapshot covers everything that was committed before it was read. -/
theorem Sourced.covers {s : State} (h : Sourced s) {rows : List Row}
    (hperm : rows.Perm s.db.current.rows) {e : LiveEnvelope} (he : e ∈ s.committed) :
    Covers rows e := by
  obtain ⟨r, hr, hle⟩ := h.exists_row he
  refine ⟨r, hperm.mem_iff.mpr (Table.mem_of_find? hr), ?_, hle⟩
  rw [Table.key_of_find? hr, e.row_tagId]

theorem Sourced.coversMap {s : State} (h : Sourced s) {rows : List Row}
    (hperm : rows.Perm s.db.current.rows) : CoversMap rows s.client := by
  intro tag p hp
  obtain ⟨e, he, htag, hshown⟩ := h.shown tag p hp
  obtain ⟨r, hr, hkey, hle⟩ := h.covers hperm he
  refine ⟨r, hr, hkey.trans htag, ?_⟩
  rw [hshown.key.2]
  exact Binary64.value_nearest_mono e.tsUtcMs_lt (Row.ts_lt r) hle

theorem HandOff.subscribe (h : HandOff published S c) (hstage : S.stage = .accepted) :
    HandOff published { S with stage := .subscribed } c := by
  cases h with
  | early _ hempty hgot hparsed => exact .early (Or.inr rfl) hempty hgot hparsed
  | read rows hread => simp [hstage] at hread
  | sent rows envelopes hsent => simp [hstage] at hsent
  | live rows envelopes hlive => simp [hstage] at hlive

theorem HandOff.readSnapshot (h : HandOff published S c) (hstage : S.stage = .subscribed)
    {rows : List Row} (hmap : CoversMap rows c) (hcovers : ∀ e ∈ published, Covers rows e) :
    HandOff published { S with stage := .read rows } c := by
  cases h with
  | early _ hempty hgot hparsed =>
    exact .read rows rfl hempty hgot hparsed hmap fun _ e he => Or.inr (hcovers e he)
  | read rows hread => simp [hstage] at hread
  | sent rows envelopes hsent => simp [hstage] at hsent
  | live rows envelopes hlive => simp [hstage] at hlive

theorem HandOff.sendSnapshot (h : HandOff published S c) {rows : List Row}
    (hstage : S.stage = .read rows) :
    HandOff published { S with stage := .streaming rows, wire := S.wire ++ [.snapshot rows] } c := by
  cases h with
  | early hearly => rcases hearly with hearly | hearly <;> simp [hstage] at hearly
  | read rows' hread hempty hgot hparsed hmap hall =>
    obtain rfl : rows = rows' := by simpa [hstage] using hread
    refine .sent rows [] rfl (by simp [hempty]) hgot hparsed hmap ?_
    exact fun hroom e he _ => (hall hroom e he).imp id Or.inr
  | sent rows envelopes hsent => simp [hstage] at hsent
  | live rows envelopes hlive => simp [hstage] at hlive

theorem HandOff.step {s t : State} (hsourced : Sourced s)
    (h : ∀ S, s.session = some S → HandOff s.published S s.client) (hstep : Step s t) :
    ∀ S, t.session = some S → HandOff t.published S t.client := by
  cases hstep with
  | commit e id => exact h
  | abandon hpending => exact h
  | @publish e before after hpending =>
    intro S hS
    obtain ⟨S₀, hS₀, rfl⟩ := Option.map_eq_some_iff.mp hS
    exact (h S₀ hS₀).offer e
  | connect _ =>
    intro S hS
    obtain rfl := Option.some.inj hS
    exact .early (Or.inl rfl) rfl rfl rfl
  | @subscribe S hS hstage =>
    intro S' hS'
    obtain rfl := Option.some.inj hS'
    exact (h S hS).subscribe hstage
  | @readSnapshot S rows hS hstage hperm =>
    intro S' hS'
    obtain rfl := Option.some.inj hS'
    exact (h S hS).readSnapshot hstage (hsourced.coversMap hperm)
      fun e he => hsourced.covers hperm (hsourced.published e he)
  | @sendSnapshot S rows hS hstage =>
    intro S' hS'
    obtain rfl := Option.some.inj hS'
    exact (h S hS).sendSnapshot hstage
  | @skip S rows e rest hS hstage hqueue hstale =>
    intro S' hS'
    obtain rfl := Option.some.inj hS'
    have hnext := (h S hS).dequeue hstage hqueue [] (Or.inr fun hpos => covers_of_stale hstale hpos)
    simpa using hnext
  | @forward S rows e rest hS hstage hqueue _ =>
    intro S' hS'
    obtain rfl := Option.some.inj hS'
    exact (h S hS).dequeue hstage hqueue [e] (Or.inl (by simp))
  | @receive S m rest hS hwire =>
    intro S' hS'
    obtain rfl := Option.some.inj hS'
    exact (h S hS).receive hwire fun rows hrows => ((hsourced.session S hS).snapshot rows hrows).1
  | close =>
    intro S hS
    cases hS

theorem handOff {s : State} (h : machine.Reachable s) :
    ∀ S, s.session = some S → HandOff s.published S s.client := by
  refine Machine.invariant
    (P := fun s => ∀ S, s.session = some S → HandOff s.published S s.client) ?_ ?_ h
  · rintro s₀ rfl S hS
    cases hS
  · intro s₀ t hreach hand hstep
    exact HandOff.step (sourced hreach) hand hstep

/-! ## Nothing is lost between snapshot and stream -/

/-- The snapshot of the session is applied, everything after it has arrived and been
read, the queue never overflowed, and every committed envelope was published. -/
structure Settled (s : State) (S : Session) : Prop where
  session : s.session = some S
  applied : s.client.gotSnapshot = true
  parsed : s.client.unparsed = false
  queue : S.queue = []
  wire : S.wire = []
  room : S.overflowed = false
  published : ∀ e ∈ s.committed, e ∈ s.published

/-- The map has the tags of `current_positions` and shows each at the time of its row. -/
def ShowsTable (s : State) : Prop :=
  (∀ r ∈ s.db.current.rows, ∃ p, s.client.positions.find? r.tagId.1 = some p ∧ p.ts = r.ts) ∧
    ∀ tag p, s.client.positions.find? tag = some p → ∃ r ∈ s.db.current.rows, r.tagId.1 = tag

/-- In a settled state every committed envelope is shown, or something newer is. -/
theorem shows_of_settled {s : State} (hreach : machine.Reachable s) {S : Session}
    (hS : Settled s S) {e : LiveEnvelope} (he : e ∈ s.committed) (hpos : 0 ≤ e.tsUtcMs) :
    Shows s.client e.tagId e.tsUtcMs := by
  cases handOff hreach S hS.session with
  | early _ _ hgot => simp [hS.applied] at hgot
  | read rows _ _ hgot => simp [hS.applied] at hgot
  | sent rows envelopes _ _ hgot => simp [hS.applied] at hgot
  | live rows envelopes _ hfull _ _ hall =>
    have hnil : envelopes = [] := by simpa [hS.wire] using hfull.symm
    rcases hall hS.room hS.parsed e (hS.published e he) hpos with hq | hsent | hshown
    · simp [hS.queue] at hq
    · simp [hnil] at hsent
    · exact hshown

/-- A row of the live table, the envelope behind it and what the browser shows for it. -/
theorem shown_of_row {s : State} (hreach : machine.Reachable s) {S : Session} (hS : Settled s S)
    (hexact : ∀ e ∈ s.committed, 0 ≤ e.tsUtcMs ∧
      (Binary64.nearest e.tsUtcMs).value = e.tsUtcMs)
    {r : Row} (hr : r ∈ s.db.current.rows) :
    ∃ e ∈ s.committed, e.row = r ∧ ∃ e' ∈ s.committed, e'.tagId = e.tagId ∧
      e'.tsUtcMs = e.tsUtcMs ∧ ∃ p, s.client.positions.find? r.tagId.1 = some p ∧
        e'.ShownAs p ∧ p.ts = r.ts := by
  have hsourced := sourced hreach
  obtain ⟨e, he, rfl⟩ := hsourced.row_of_mem hr
  obtain ⟨p, hp, hle⟩ := shows_of_settled hreach hS he (hexact e he).1
  obtain ⟨e', he', htag, hshown⟩ := hsourced.shown e.tagId p hp
  -- what is shown was committed, so it is no newer than the row
  obtain ⟨r', hr', hle'⟩ := hsourced.exists_row he'
  have hsame : r' = e.row := by
    rw [LiveEnvelope.tagId_eq_iff.mpr htag, Table.find?_of_mem hr] at hr'
    exact (Option.some.inj hr').symm
  rw [hsame, e.row_ts] at hle'
  have hpts : p.ts = e'.tsUtcMs := hshown.key.2.trans (hexact e' he').2
  rw [(hexact e he).2, hpts] at hle
  have hts : e'.tsUtcMs = e.tsUtcMs := le_antisymm hle' (by exact_mod_cast hle)
  refine ⟨e, he, rfl, e', he', htag, hts, p, by rwa [e.row_tagId], hshown, ?_⟩
  rw [hpts, hts, e.row_ts]

/-- Where the browser can hold the times exactly, it shows exactly the live table once the
session is settled: the same tags, the same times, and, unless two envelopes of a
tag share a time, the same envelopes. -/
theorem handOff_complete :
    ∀ s, machine.Reachable s → ∀ S, Settled s S →
      (∀ e ∈ s.committed, 0 ≤ e.tsUtcMs ∧ (Binary64.nearest e.tsUtcMs).value = e.tsUtcMs) →
      ShowsTable s ∧
        ((∀ e ∈ s.committed, ∀ e' ∈ s.committed, e.tagId = e'.tagId →
            e.tsUtcMs = e'.tsUtcMs → e = e') →
          ∀ r ∈ s.db.current.rows, ∃ e ∈ s.committed, e.row = r ∧
            ∃ p, s.client.positions.find? r.tagId.1 = some p ∧ e.ShownAs p) := by
  intro s hreach S hS hexact
  refine ⟨⟨?_, ?_⟩, ?_⟩
  · intro r hr
    obtain ⟨-, -, -, -, -, -, -, p, hp, -, hts⟩ := shown_of_row hreach hS hexact hr
    exact ⟨p, hp, hts⟩
  · intro tag p hp
    obtain ⟨e, he, rfl, -⟩ := (sourced hreach).shown tag p hp
    obtain ⟨r, hr, -⟩ := (sourced hreach).exists_row he
    refine ⟨r, Table.mem_of_find? hr, ?_⟩
    rw [Table.key_of_find? hr, e.row_tagId]
  · intro hdistinct r hr
    obtain ⟨e, he, hrow, e', he', htag, hts, p, hp, hshown, -⟩ := shown_of_row hreach hS hexact hr
    obtain rfl := hdistinct e' he' e he htag hts
    exact ⟨e', he', hrow, p, hp, hshown⟩

end

section Examples

attribute [local instance] asciiRuntime ownTypes

/-- An envelope arrives with the snapshot and a newer one over the queue. -/
theorem handOff_complete_snapshot_and_queue :
    ∃ s, machine.Reachable s ∧ s.db.events.length = 2 ∧ ShowsTable s := by
  let older := liveAt 1000 (by decide +kernel)
  let newer := liveAt 2000 (by decide +kernel)
  let start : State := ⟨.empty, [], [], [], none, ⟨.empty, false, false⟩⟩
  have h₁ : Relation.ReflTransGen Step start (start.delivered older 1).connected :=
    run_connected (run_delivered .refl older 1)
  have h₂ := Machine.Reachable.trans (M := machine) (.start rfl)
    (run_forwarded (e := newer) (run_delivered h₁ newer 2) rfl (by decide +kernel))
  refine ⟨_, h₂, rfl, (handOff_complete _ h₂ _ ⟨rfl, ?_, ?_, rfl, rfl, rfl, ?_⟩ ?_).1⟩
  · decide +kernel
  · decide +kernel
  · simp [start, State.delivered, State.connected]
  · intro e he
    have hcases : e = older ∨ e = newer := by
      simpa [start, State.delivered, State.connected] using he
    rcases hcases with rfl | rfl
    · exact ⟨by decide, Binary64.value_nearest_exact (by decide)⟩
    · exact ⟨by decide, Binary64.value_nearest_exact (by decide)⟩

/-- A time of 54 bits is shown as the number next to it. -/
theorem handOff_rounds :
    ¬ ∀ s, machine.Reachable s → ∀ S, Settled s S → (∀ e ∈ s.committed, 0 ≤ e.tsUtcMs) →
      ShowsTable s := by
  intro hclaim
  let e := liveAt (2 ^ 53 + 1) (by decide +kernel)
  let start : State := ⟨.empty, [], [], [], none, ⟨.empty, false, false⟩⟩
  have h₁ : machine.Reachable (start.delivered e 1).connected :=
    Machine.Reachable.trans (.start rfl) (run_connected (run_delivered .refl e 1))
  have hsettled : Settled (start.delivered e 1).connected ⟨_, [], false, []⟩ :=
    ⟨rfl, by decide +kernel, by decide +kernel, rfl, rfl, rfl,
      by simp [start, State.delivered, State.connected]⟩
  have hshown := (hclaim _ h₁ _ hsettled (by decide +kernel)).1 e.row (by decide +kernel)
  revert hshown
  decide +kernel

end Examples

end RtlsStream.Live
