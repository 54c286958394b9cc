/-
  Live/System.lean --- consumer tasks, one browser and its WebSocket sessions.

  A consumer task commits an envelope and later publishes it; tasks overtake each
  other.  A session subscribes to the broadcast, reads the committed
  `current_positions`, sends them and then forwards its queue, dropping what
  `_is_stale` says.  The browser replaces its map by the snapshot and upserts every
  envelope after it.  Sockets close at any time and the browser reconnects; what
  was on its way over a closed socket is lost.

  The queue of a session is bounded and a full queue drops what it is offered.
-/
import RtlsStream.Live.Envelope
import RtlsStream.Foundation.Machine

set_option autoImplicit false

namespace RtlsStream.Live

open RtlsStream.Foundation RtlsStream.Python RtlsStream.Store

variable [Runtime] [Postgres]

/-! ## The browser -/

/-- A message on the socket. -/
inductive Message where
  | snapshot (rows : List Row)
  | envelope (e : LiveEnvelope)

/-- `JSON.parse` accepts the text of the message. -/
def Message.parseable : Message → Bool
  | .snapshot rows => rows.all fun r => Live.parseable (.obj (currentPositionItem r))
  | .envelope e => Live.parseable (.obj e.envelope)

/-- The map of `usePositions` and `gotSnapshotRef`.  `unparsed` records that `JSON.parse`
has thrown on a message of this connection. -/
structure Client where
  positions : Table Position.tagId
  gotSnapshot : Bool
  unparsed : Bool

omit [Runtime] [Postgres] in
/-- The updater of `setPositions` for an envelope. -/
def upsertPosition (prev : Table Position.tagId) (pos : Position) : Table Position.tagId :=
  match prev.find? pos.tagId with
  | some existing => if existing.ts > pos.ts then prev else prev.put pos
  | none => prev.put pos

/-- `ws.onmessage`.  A session sends one array, so an array never comes after the
snapshot. -/
def Client.onMessage (c : Client) (m : Message) : Client :=
  if m.parseable then
    match m with
    | .snapshot rows =>
      if c.gotSnapshot then c
      else { c with
        positions := .ofList _ (rows.map positionFromSnapshot)
        gotSnapshot := true }
    | .envelope e => { c with positions := upsertPosition c.positions e.position }
  else { c with unparsed := true }

omit [Runtime] [Postgres] in
/-- The map keeps the newest position of each tag. -/
theorem find?_upsertPosition (t : Table Position.tagId) (p : Position) (tag : Str) :
    (upsertPosition t p).find? tag =
      if p.tagId = tag then keepNewest Position.ts (t.find? tag) p else t.find? tag := by
  by_cases htag : p.tagId = tag
  · subst htag
    rw [if_pos rfl, upsertPosition]
    cases hheld : t.find? p.tagId with
    | none => simp [keepNewest, Table.find?_put]
    | some existing =>
      by_cases hnewer : existing.ts > p.ts
      · simp [hnewer, hheld, keepNewest, not_le.mpr hnewer]
      · simp [hnewer, Table.find?_put, keepNewest, not_lt.mp hnewer]
  · rw [if_neg htag, upsertPosition]
    cases hheld : t.find? p.tagId with
    | none => simp [Table.find?_put, htag]
    | some existing =>
      by_cases hnewer : existing.ts > p.ts <;> simp [hnewer, Table.find?_put, htag]

/-! ## A session -/

/-- How far `positions_ws` has come. -/
inductive Stage where
  | accepted
  | subscribed
  | read (snapshot : List Row)
  | streaming (snapshot : List Row)

/-- A session with its queue and what it has sent that has not arrived. -/
structure Session where
  stage : Stage
  queue : List LiveEnvelope
  overflowed : Bool
  wire : List Message

/-- A session that has just been accepted. -/
def Session.fresh : Session := ⟨.accepted, [], false, []⟩

omit [Runtime] [Postgres] in
/-- `maxsize` of `Broadcast` -/
def maxsize : Nat := 256

/-- `Broadcast.publish`, as one subscriber sees it. -/
def Session.offer (S : Session) (e : LiveEnvelope) : Session :=
  match S.stage with
  | .accepted => S
  | _ =>
    if S.queue.length < maxsize then { S with queue := S.queue ++ [e] }
    else { S with overflowed := true }

/-! ## The system -/

/-- The database, the consumer tasks between commit and publish, the session of the
browser and the browser.  `committed` and `published` record what has been. -/
structure State where
  db : Database
  committed : List LiveEnvelope
  pending : List LiveEnvelope
  published : List LiveEnvelope
  session : Option Session
  client : Client

/-- One step of a task, of the session or of the browser. -/
inductive Step : State → State → Prop
  /-- a task has committed its envelope -/
  | commit {s : State} (e : LiveEnvelope) (id : Nat) : Step s { s with
      db := s.db.persist ⟨id, e.row⟩
      committed := s.committed ++ [e]
      pending := e :: s.pending }
  /-- `broadcast.publish`, by any task that has committed -/
  | publish {s : State} {e : LiveEnvelope} {before after : List LiveEnvelope} :
      s.pending = before ++ e :: after → Step s { s with
        pending := before ++ after
        published := e :: s.published
        session := s.session.map (·.offer e) }
  /-- a task ends between its commit and its publish -/
  | abandon {s : State} {e : LiveEnvelope} {before after : List LiveEnvelope} :
      s.pending = before ++ e :: after → Step s { s with pending := before ++ after }
  | connect {s : State} : s.session = none → Step s { s with
      session := some .fresh
      client := { s.client with gotSnapshot := false, unparsed := false } }
  | subscribe {s : State} {S : Session} : s.session = some S → S.stage = .accepted →
      Step s { s with session := some { S with stage := .subscribed } }
  /-- `_snapshot`: `ORDER BY tag_id` is some order of the committed rows -/
  | readSnapshot {s : State} {S : Session} {rows : List Row} : s.session = some S →
      S.stage = .subscribed → rows.Perm s.db.current.rows →
      Step s { s with session := some { S with stage := .read rows } }
  | sendSnapshot {s : State} {S : Session} {rows : List Row} : s.session = some S →
      S.stage = .read rows → Step s { s with
        session := some { S with stage := .streaming rows, wire := S.wire ++ [.snapshot rows] } }
  | skip {s : State} {S : Session} {rows : List Row} {e : LiveEnvelope}
      {rest : List LiveEnvelope} : s.session = some S → S.stage = .streaming rows →
      S.queue = e :: rest → isStale e.envelope (snapshotTimestamps rows) = .ok true →
      Step s { s with session := some { S with queue := rest } }
  | forward {s : State} {S : Session} {rows : List Row} {e : LiveEnvelope}
      {rest : List LiveEnvelope} : s.session = some S → S.stage = .streaming rows →
      S.queue = e :: rest → isStale e.envelope (snapshotTimestamps rows) = .ok false →
      Step s { s with
        session := some { S with queue := rest, wire := S.wire ++ [.envelope e] } }
  | receive {s : State} {S : Session} {m : Message} {rest : List Message} :
      s.session = some S → S.wire = m :: rest → Step s { s with
        session := some { S with wire := rest }
        client := s.client.onMessage m }
  | close {s : State} : Step s { s with session := none }

/-- Empty tables, no task, and a browser that has just mounted. -/
def machine : Machine State where
  init s := s = ⟨.empty, [], [], [], none, ⟨.empty, false, false⟩⟩
  step := Step

/-! ## Where everything comes from -/

/-- Everything in the queue of a session or on its way was committed. -/
structure Session.Sourced (committed : List LiveEnvelope) (S : Session) : Prop where
  queue : ∀ e ∈ S.queue, e ∈ committed
  wire : ∀ e, Message.envelope e ∈ S.wire → e ∈ committed
  stage : ∀ rows, S.stage = .read rows ∨ S.stage = .streaming rows →
    (rows.map (·.tagId)).Nodup ∧ ∀ r ∈ rows, ∃ e ∈ committed, e.row = r
  snapshot : ∀ rows, Message.snapshot rows ∈ S.wire →
    (rows.map (·.tagId)).Nodup ∧ ∀ r ∈ rows, ∃ e ∈ committed, e.row = r

/-- Everything anybody holds was committed. -/
structure Sourced (s : State) : Prop where
  log : s.db.events.map (·.row) = s.committed.map (·.row)
  current : s.db.Current
  pending : ∀ e ∈ s.pending, e ∈ s.committed
  published : ∀ e ∈ s.published, e ∈ s.committed
  session : ∀ S, s.session = some S → S.Sourced s.committed
  shown : ∀ tag p, s.client.positions.find? tag = some p →
    ∃ e ∈ s.committed, e.tagId = tag ∧ e.ShownAs p

theorem Session.Sourced.mono {S : Session} {committed more : List LiveEnvelope}
    (h : S.Sourced committed) (hsub : ∀ e ∈ committed, e ∈ more) : S.Sourced more := by
  refine ⟨fun e he => hsub e (h.queue e he), fun e he => hsub e (h.wire e he), ?_, ?_⟩
  · intro rows hstage
    refine ⟨(h.stage rows hstage).1, ?_⟩
    intro r hr
    obtain ⟨e, he, heq⟩ := (h.stage rows hstage).2 r hr
    exact ⟨e, hsub e he, heq⟩
  · intro rows hwire
    refine ⟨(h.snapshot rows hwire).1, ?_⟩
    intro r hr
    obtain ⟨e, he, heq⟩ := (h.snapshot rows hwire).2 r hr
    exact ⟨e, hsub e he, heq⟩

theorem Session.Sourced.offer {S : Session} {committed : List LiveEnvelope} {e : LiveEnvelope}
    (h : S.Sourced committed) (he : e ∈ committed) : (S.offer e).Sourced committed := by
  unfold Session.offer
  split
  · exact h
  · split
    · refine ⟨?_, h.wire, h.stage, h.snapshot⟩
      intro e' he'
      rcases List.mem_append.mp he' with he' | he'
      · exact h.queue e' he'
      · rwa [List.mem_singleton.mp he']
    · exact ⟨h.queue, h.wire, h.stage, h.snapshot⟩

/-- What leaves the queue was committed, and so is what stays. -/
theorem Session.Sourced.dequeue {S : Session} {committed : List LiveEnvelope} {e : LiveEnvelope}
    {rest : List LiveEnvelope} (h : S.Sourced committed) (hqueue : S.queue = e :: rest) :
    e ∈ committed ∧ Session.Sourced committed { S with queue := rest } := by
  have hall := List.forall_mem_cons.mp (hqueue ▸ h.queue)
  exact ⟨hall.1, hall.2, h.wire, h.stage, h.snapshot⟩

theorem Session.Sourced.sendEnvelope {S : Session} {committed : List LiveEnvelope}
    {e : LiveEnvelope} (h : S.Sourced committed) (he : e ∈ committed) :
    Session.Sourced committed { S with wire := S.wire ++ [.envelope e] } := by
  refine ⟨h.queue, ?_, h.stage, ?_⟩
  · intro e' he'
    rcases List.mem_append.mp he' with he' | he'
    · exact h.wire e' he'
    · obtain rfl : e' = e := by simpa using he'
      exact he
  · intro rows hwire
    exact h.snapshot rows (by simpa using hwire)

theorem Session.Sourced.sendSnapshot {S : Session} {committed : List LiveEnvelope}
    {rows : List Row} (h : S.Sourced committed) (hstage : S.stage = .read rows) :
    Session.Sourced committed
      { S with stage := .streaming rows, wire := S.wire ++ [.snapshot rows] } := by
  refine ⟨h.queue, ?_, ?_, ?_⟩
  · intro e he
    exact h.wire e (by simpa using he)
  · intro rows' hstage'
    obtain rfl : rows = rows' := by simpa using hstage'
    exact h.stage rows (Or.inl hstage)
  · intro rows' hwire
    rcases List.mem_append.mp hwire with hwire | hwire
    · exact h.snapshot rows' hwire
    · obtain rfl : rows' = rows := by simpa using hwire
      exact h.stage rows' (Or.inl hstage)

theorem Session.Sourced.receive {S : Session} {committed : List LiveEnvelope} {m : Message}
    {rest : List Message} (h : S.Sourced committed) (hwire : S.wire = m :: rest) :
    Session.Sourced committed { S with wire := rest } := by
  have hrest : ∀ m' ∈ rest, m' ∈ S.wire := by
    intro m' hm'
    rw [hwire]
    exact List.mem_cons_of_mem _ hm'
  exact ⟨h.queue, fun e he => h.wire e (hrest _ he), h.stage,
    fun rows hrows => h.snapshot rows (hrest _ hrows)⟩

theorem Sourced.row_of_mem {s : State} (h : Sourced s) {r : Row} (hr : r ∈ s.db.current.rows) :
    ∃ e ∈ s.committed, e.row = r := by
  have hfind := Table.find?_of_mem hr
  rw [h.current] at hfind
  obtain ⟨event, hevent, hrow, -⟩ := Database.mem_eventsOf.mp (newest_mem hfind)
  have hmem : r ∈ s.db.events.map (·.row) := List.mem_map.mpr ⟨event, hevent, hrow⟩
  rw [h.log] at hmem
  exact List.mem_map.mp hmem

/-- The live table has a row at least as new as any committed envelope. -/
theorem Sourced.exists_row {s : State} (h : Sourced s) {e : LiveEnvelope} (he : e ∈ s.committed) :
    ∃ r, s.db.current.find? e.row.tagId = some r ∧ e.tsUtcMs ≤ r.ts := by
  have hrow : e.row ∈ s.db.events.map (·.row) := by
    rw [h.log]
    exact List.mem_map_of_mem he
  obtain ⟨event, hevent, heq⟩ := List.mem_map.mp hrow
  have hmem : e.row ∈ s.db.eventsOf e.row.tagId :=
    Database.mem_eventsOf.mpr ⟨event, hevent, heq, rfl⟩
  obtain ⟨r, hr⟩ : ∃ r, newest Row.ts (s.db.eventsOf e.row.tagId) = some r :=
    exists_newest (List.ne_nil_of_mem hmem)
  refine ⟨r, by rw [h.current, hr], ?_⟩
  have hle := key_le_of_newest hr hmem
  rwa [e.row_ts] at hle

/-- What a map holds after a message was in it or in the message. -/
theorem Client.shown_onMessage {c : Client} {m : Message} {tag : Str} {p : Position}
    (h : (c.onMessage m).positions.find? tag = some p) :
    c.positions.find? tag = some p ∨ (∃ e, m = .envelope e ∧ e.tagId = tag ∧ p = e.position) ∨
      ∃ rows, m = .snapshot rows ∧ ∃ r ∈ rows, r.tagId.1 = tag ∧ p = positionFromSnapshot r := by
  unfold Client.onMessage at h
  split at h
  · cases m with
    | snapshot rows =>
      simp only at h
      split at h
      · exact Or.inl h
      · refine Or.inr (Or.inr ⟨rows, rfl, ?_⟩)
        have hkey := Table.key_of_find? h
        obtain ⟨r, hr, rfl⟩ := List.mem_map.mp (Table.mem_ofList (Table.mem_of_find? h))
        exact ⟨r, hr, hkey, rfl⟩
    | envelope e =>
      simp only [find?_upsertPosition] at h
      split at h
      · rename_i htag
        rcases keepNewest_cases h with rfl | hheld
        · exact Or.inr (Or.inl ⟨e, rfl, htag, rfl⟩)
        · exact Or.inl hheld
      · exact Or.inl h
  · exact Or.inl h

/-- A step of the session alone keeps what everything comes from. -/
theorem Sourced.withSession {s : State} (h : Sourced s) {S : Session}
    (hS : S.Sourced s.committed) : Sourced { s with session := some S } := by
  refine ⟨h.log, h.current, h.pending, h.published, ?_, h.shown⟩
  intro S' hS'
  obtain rfl := Option.some.inj hS'
  exact hS

theorem Sourced.commit {s : State} (h : Sourced s) (e : LiveEnvelope) (id : Nat) :
    Sourced { s with
      db := s.db.persist ⟨id, e.row⟩
      committed := s.committed ++ [e]
      pending := e :: s.pending } := by
  have hmore : ∀ e' ∈ s.committed, e' ∈ s.committed ++ [e] :=
    fun e' he' => List.mem_append_left _ he'
  refine ⟨by simp [Database.persist, h.log], h.current.persist _, ?_, ?_, ?_, ?_⟩
  · intro e' he'
    rcases List.mem_cons.mp he' with rfl | he'
    · exact List.mem_append_right _ (List.mem_singleton_self _)
    · exact hmore e' (h.pending e' he')
  · exact fun e' he' => hmore e' (h.published e' he')
  · exact fun S hS => (h.session S hS).mono hmore
  · intro tag p hp
    obtain ⟨e', he', hshown⟩ := h.shown tag p hp
    exact ⟨e', hmore e' he', hshown⟩

/-- A task that goes on has committed its envelope, and so have the others. -/
theorem Sourced.task {s : State} (h : Sourced s) {e : LiveEnvelope}
    {before after : List LiveEnvelope} (hpending : s.pending = before ++ e :: after) :
    e ∈ s.committed ∧ ∀ e' ∈ before ++ after, e' ∈ s.committed := by
  have hall := h.pending
  rw [hpending, List.forall_mem_append, List.forall_mem_cons] at hall
  exact ⟨hall.2.1, List.forall_mem_append.mpr ⟨hall.1, hall.2.2⟩⟩

/-- The step lemma. -/
theorem Sourced.step {s t : State} (h : Sourced s) (hstep : Step s t) : Sourced t := by
  cases hstep with
  | commit e id => exact h.commit e id
  | publish hpending =>
    obtain ⟨he, hothers⟩ := h.task hpending
    refine ⟨h.log, h.current, hothers, List.forall_mem_cons.mpr ⟨he, h.published⟩, ?_, h.shown⟩
    intro S hS
    obtain ⟨S₀, hS₀, rfl⟩ := Option.map_eq_some_iff.mp hS
    exact (h.session S₀ hS₀).offer he
  | abandon hpending =>
    exact ⟨h.log, h.current, (h.task hpending).2, h.published, h.session, h.shown⟩
  | connect _ =>
    have hfresh : Session.Sourced s.committed .fresh := by
      refine ⟨?_, ?_, ?_, ?_⟩ <;> simp [Session.fresh]
    obtain ⟨hlog, hcurrent, hpending, hpublished, -, hshown⟩ := h.withSession hfresh
    exact ⟨hlog, hcurrent, hpending, hpublished, fun S hS => Option.some.inj hS ▸ hfresh, hshown⟩
  | subscribe hS _ =>
    have hsourced := h.session _ hS
    exact h.withSession ⟨hsourced.queue, hsourced.wire, by simp, hsourced.snapshot⟩
  | @readSnapshot S rows hS _ hperm =>
    have hsourced := h.session _ hS
    refine h.withSession ⟨hsourced.queue, hsourced.wire, ?_, hsourced.snapshot⟩
    intro rows' hstage
    obtain rfl : rows = rows' := by simpa using hstage
    refine ⟨(hperm.map _).nodup_iff.mpr s.db.current.primaryKey, ?_⟩
    exact fun r hr => h.row_of_mem (hperm.mem_iff.mp hr)
  | sendSnapshot hS hstage => exact h.withSession ((h.session _ hS).sendSnapshot hstage)
  | skip hS _ hqueue _ => exact h.withSession ((h.session _ hS).dequeue hqueue).2
  | forward hS _ hqueue _ =>
    obtain ⟨he, hrest⟩ := (h.session _ hS).dequeue hqueue
    exact h.withSession (hrest.sendEnvelope he)
  | @receive S m rest hS hwire =>
    have hsourced := h.session _ hS
    obtain ⟨hlog, hcurrent, hpending, hpublished, hsession, -⟩ :=
      h.withSession (hsourced.receive hwire)
    refine ⟨hlog, hcurrent, hpending, hpublished, hsession, ?_⟩
    intro tag p hp
    rcases Client.shown_onMessage hp with hbefore | ⟨e, rfl, htag, rfl⟩ | ⟨rows, rfl, r, hr, htag, rfl⟩
    · exact h.shown tag p hbefore
    · exact ⟨e, hsourced.wire e (by simp [hwire]), htag, Or.inr rfl⟩
    · obtain ⟨e, he, rfl⟩ := (hsourced.snapshot rows (by simp [hwire])).2 r hr
      exact ⟨e, he, by rw [← e.row_tagId, htag], Or.inl rfl⟩
  | close => exact ⟨h.log, h.current, h.pending, h.published, by simp, h.shown⟩

theorem sourced {s : State} (h : machine.Reachable s) : Sourced s := by
  refine Machine.invariant ?_ ?_ h
  · rintro s₀ rfl
    exact ⟨rfl, Database.current_empty, by simp, by simp, by simp, by simp⟩
  · intro s₀ t _ hsourced hstep
    exact hsourced.step hstep

/-! ## How a run goes on -/

/-- A task has committed an envelope and published it to the session. -/
def State.delivered (s : State) (e : LiveEnvelope) (id : Nat) : State where
  db := s.db.persist ⟨id, e.row⟩
  committed := s.committed ++ [e]
  pending := s.pending
  published := e :: s.published
  session := s.session.map (·.offer e)
  client := s.client

/-- The browser has connected anew and received its snapshot. -/
def State.connected (s : State) : State where
  db := s.db
  committed := s.committed
  pending := s.pending
  published := s.published
  session := some ⟨.streaming s.db.current.rows, [], false, []⟩
  client := { s.client with gotSnapshot := false, unparsed := false }.onMessage
    (.snapshot s.db.current.rows)

theorem run_delivered {s t : State} (h : Relation.ReflTransGen Step s t) (e : LiveEnvelope)
    (id : Nat) : Relation.ReflTransGen Step s (t.delivered e id) :=
  (h.tail (.commit e id)).tail (@Step.publish _ _ _ e [] t.pending rfl)

theorem run_connected {s t : State} (h : Relation.ReflTransGen Step s t) :
    Relation.ReflTransGen Step s t.connected := by
  have hsubscribed := ((h.tail .close).tail (.connect rfl)).tail (.subscribe rfl rfl)
  have hread := hsubscribed.tail (.readSnapshot rfl rfl (List.Perm.refl _))
  have hsent := hread.tail (.sendSnapshot rfl rfl)
  exact hsent.tail (.receive (S := ⟨_, [], false, [.snapshot t.db.current.rows]⟩) rfl rfl)

theorem run_forwarded {s t : State} (h : Relation.ReflTransGen Step s t) {rows : List Row}
    {e : LiveEnvelope} (hS : t.session = some ⟨.streaming rows, [e], false, []⟩)
    (hnew : isStale e.envelope (snapshotTimestamps rows) = .ok false) :
    Relation.ReflTransGen Step s { t with
      session := some ⟨.streaming rows, [], false, []⟩
      client := t.client.onMessage (.envelope e) } :=
  (h.tail (.forward hS rfl rfl hnew)).tail
    (.receive (S := ⟨_, [], false, [.envelope e]⟩) rfl rfl)

end RtlsStream.Live
