/-
  Deployment/Devices.lean --- from the datagram of a device to the screen of a browser.

  The messages of the whole are those `serve_forever` publishes for datagrams.  Such a
  message carries the event its datagram reports (`carries_event`), so the times that were
  sent for a tag are the times that were reported for it (`sentTimes_ofSent`), and what the
  browsers show can be told from the datagrams alone.
-/
import RtlsStream.Deployment.Recover
import RtlsStream.Pipeline.Finite
import RtlsStream.Pipeline.LastKnown

set_option autoImplicit false

namespace RtlsStream.Deployment

open RtlsStream.Foundation RtlsStream.Python RtlsStream.Store RtlsStream.Consumer RtlsStream.Live
open RtlsStream.StreamHandler RtlsStream.Receiver RtlsStream.Pipeline
open RtlsStream.Consumer.Delivery (rowOfBody)

section Sent

variable [Runtime]

/-- A datagram, and what `serve_forever` publishes for it. -/
structure Sent (iterErrors : IterErrors) where
  datagram : Datagram
  message : Bytes
  headers : Headers
  prepared : (startUdp iterErrors).prepare datagram = .ok (message, headers)

variable {iterErrors : IterErrors}

/-- The event a datagram reports, by the clock it arrived at. -/
def Sent.Reports (x : Sent iterErrors) (event : NormalizedEvent) : Prop :=
  ∃ decoded, decodeUtf8 false x.datagram.data = some decoded ∧
    EventOf decoded x.datagram.clock.normalizer event

/-- A text has one event: the normaliser sees what the parser rejects. -/
theorem eventOf_unique {decoded : Str} {now : Int} {event event' : NormalizedEvent}
    (h : EventOf decoded now event) (h' : EventOf decoded now event') : event = event' := by
  cases h with
  | parser hparsed =>
    cases h' with
    | parser hparsed' => exact Except.ok.inj (Except.ok.inj (hparsed.symm.trans hparsed'))
    | normalizer hrejected => cases hparsed.symm.trans hrejected
  | normalizer hrejected hloads _ htag hevent =>
    cases h' with
    | parser hparsed => cases hparsed.symm.trans hrejected
    | normalizer _ hloads' _ htag' hevent' =>
      obtain rfl := Json.obj.inj (Except.ok.inj (hloads.symm.trans hloads'))
      obtain rfl := Option.some.inj (Except.ok.inj (htag.symm.trans htag'))
      exact Except.ok.inj (hevent.symm.trans hevent')

theorem Sent.Reports.unique {x : Sent iterErrors} {event event' : NormalizedEvent}
    (h : x.Reports event) (h' : x.Reports event') : event = event' := by
  obtain ⟨decoded, hdecoded, hevent⟩ := h
  obtain ⟨decoded', hdecoded', hevent'⟩ := h'
  obtain rfl := Option.some.inj (hdecoded.symm.trans hdecoded')
  exact eventOf_unique hevent hevent'

/-- What is published was reported, and the consumer's checks let it through. -/
theorem Sent.reports (hvalid : Validates iterErrors) (x : Sent iterErrors) :
    ∃ event, x.Reports event ∧ examine x.message =
      .accepted (eventEnvelope x.datagram.clock.envelope event) (asdict event) := by
  obtain ⟨decoded, event, hdecoded, hevent, hmessage⟩ :=
    (prepare_ok_iff hvalid).mp ⟨x.headers, x.prepared⟩
  refine ⟨event, ⟨decoded, hdecoded, hevent⟩, ?_⟩
  have hpayload : Dict.get? (eventEnvelope x.datagram.clock.envelope event) (text "payload") =
      some (.obj (asdict event)) := rfl
  have htag : Dict.contains (asdict event) (text "tag_id") = true := rfl
  simp [examine, loadsBytes_message hmessage, hpayload, htag]

variable [Postgres]

/-- The envelope of an event that was stored. -/
theorem exists_carries (hvalid : Validates iterErrors) (x : Sent iterErrors) {r : Row}
    (h : rowOfBody x.message = some r) : ∃ e, Carries x.message e := by
  obtain ⟨event, -, hexamine⟩ := x.reports hvalid
  have hrow : rowOf (eventEnvelope x.datagram.clock.envelope event) = some r := by
    simpa [rowOfBody, hexamine] using h
  refine ⟨⟨eventEnvelope x.datagram.clock.envelope event, asdict event, event.tagId, r.ts, r, rfl,
    rfl, ?_, hrow⟩, _, hexamine⟩
  have hts : event.tsUtcMs.json = .int r.ts := by rw [(rowOfEvent hrow).tsUtcMs, PyInt.json]
  exact congrArg some hts

/-- A message carries the event its datagram reports. -/
structure CarriesEvent (event : NormalizedEvent) (e : LiveEnvelope) : Prop where
  tagId : e.tagId = event.tagId
  tsUtcMs : event.tsUtcMs = .int e.tsUtcMs
  row : RowOfEvent event e.row

theorem carries_event (hvalid : Validates iterErrors) {x : Sent iterErrors} {e : LiveEnvelope}
    (h : Carries x.message e) : ∃ event, x.Reports event ∧ CarriesEvent event e := by
  obtain ⟨event, hreports, hexamine⟩ := x.reports hvalid
  obtain ⟨payload, hexamine'⟩ := h
  obtain ⟨henvelope, -⟩ := Admission.accepted.inj (hexamine.symm.trans hexamine')
  have hrow := rowOfEvent (henvelope ▸ e.stored)
  refine ⟨event, hreports, ?_, ?_, hrow⟩
  · rw [← e.row_tagId, hrow.tagId]
  · rw [hrow.tsUtcMs, e.row_ts]

/-- The messages of datagrams. -/
def Feed.ofSent {μ : Type} (hvalid : Validates iterErrors) (sent : μ → Sent iterErrors) : Feed μ where
  body m := (sent m).message
  live m _ h := exists_carries hvalid (sent m) h

end Sent

section Reported

variable [Runtime] [Postgres]
variable {iterErrors : IterErrors} {μ β : Type} {s : State μ β}

/-- The times that datagrams reported for a tag, of those that were sent on and can be
stored -/
def reportedTimes (sent : μ → Sent iterErrors) (s : State μ β) (tag : Str) : Set ℚ :=
  {t | ∃ m event n, s.delivery.place m ≠ .absent ∧ (rowOfBody (sent m).message).isSome ∧
    (sent m).Reports event ∧ event.tagId = tag ∧ event.tsUtcMs = .int n ∧ (n : ℚ) = t}

theorem sentTimes_ofSent (hvalid : Validates iterErrors) (sent : μ → Sent iterErrors) (tag : Str) :
    sentTimes (Feed.ofSent hvalid sent) s tag = reportedTimes sent s tag := by
  ext t
  constructor
  · rintro ⟨m, e, hsent, hcarries, rfl, rfl⟩
    obtain ⟨event, hreports, hevent⟩ := carries_event hvalid hcarries
    have hstored : (rowOfBody (sent m).message).isSome := by
      have hrow : rowOfBody (sent m).message = some e.row := hcarries.row
      simp [hrow]
    exact ⟨m, event, e.tsUtcMs, hsent, hstored, hreports, hevent.tagId.symm, hevent.tsUtcMs, rfl⟩
  · rintro ⟨m, event, n, hsent, hstored, hreports, rfl, hts, rfl⟩
    obtain ⟨r, hr⟩ := Option.isSome_iff_exists.mp hstored
    obtain ⟨e, hcarries⟩ := exists_carries hvalid (sent m) hr
    obtain ⟨event', hreports', hevent⟩ := carries_event hvalid hcarries
    obtain rfl := hreports.unique hreports'
    obtain rfl := PyInt.int.inj (hts.symm.trans hevent.tsUtcMs)
    exact ⟨m, e, hsent, hcarries, hevent.tagId, rfl⟩

/-- Datagrams with times that are not before the epoch and that a binary64 number can hold. -/
def TimesReadable (sent : μ → Sent iterErrors) (s : State μ β) : Prop :=
  ∀ m event n, s.delivery.place m ≠ .absent → (sent m).Reports event → event.tsUtcMs = .int n →
    0 ≤ n ∧ n ≤ 2 ^ 53

theorem TimesReadable.exact {hvalid : Validates iterErrors} {sent : μ → Sent iterErrors}
    (h : TimesReadable sent s) : TimesExact (Feed.ofSent hvalid sent) s := by
  intro m e hsent hcarries
  obtain ⟨event, hreports, hevent⟩ := carries_event hvalid hcarries
  exact h m event e.tsUtcMs hsent hreports hevent.tsUtcMs

omit [Runtime] [Postgres] in
/-- Only a coordinate can make an item of the snapshot unreadable. -/
theorem parseable_currentPositionItem {r : Row} :
    parseable (.obj (currentPositionItem r)) ↔
      ∀ c ∈ [r.x, r.y, r.z, r.lng, r.lat], FiniteOption c := by
  have hstr : ∀ o : Option PgText,
      parseable (.ofOption (fun s : PgText => .str s.1) o) = true := by
    intro o
    cases o <;> rfl
  have hlayer : ∀ o : Option Integer4,
      parseable (.ofOption (fun n : Integer4 => .int n.1) o) = true := by
    intro o
    cases o <;> rfl
  simp only [← parseable_ofOption]
  simp [currentPositionItem, parseable, parseableMembers, hstr, hlayer]

/-- The row of a datagram with finite coordinates can be read by a browser. -/
theorem readable_of_finite {hvalid : Validates iterErrors} {sent : μ → Sent iterErrors}
    (h : ∀ m, s.delivery.place m ≠ .absent → FiniteDatagram (sent m).datagram) :
    Readable (Feed.ofSent hvalid sent) s := by
  intro m e hsent hcarries
  obtain ⟨event, ⟨decoded, hdecoded, hof⟩, hevent⟩ := carries_event hvalid hcarries
  have hfinite : FiniteEvent event := (finiteEvent_iff_content hof).mpr (h m hsent decoded hdecoded)
  have hposition := hevent.row.position
  simp only [rowPosition, eventPosition, Pipeline.Position.mk.injEq] at hposition
  obtain ⟨hx, hy, hz, hlng, hlat⟩ := hposition
  rw [parseable_currentPositionItem, hx, hy, hz, hlng, hlat]
  exact hfinite

variable [DecidableEq μ] [DecidableEq β]

/-- Once everything that can be stored is consumed, a browser that has caught up shows of
each tag the newest of the times that were reported for it and can be stored. -/
theorem shown_iff_newest_reported (hvalid : Validates iterErrors) (sent : μ → Sent iterErrors)
    (h : (machine (Feed.ofSent hvalid sent)).Reachable s)
    (hconsumed : Consumed (Feed.ofSent hvalid sent) s) (htimes : TimesReadable sent s) (b : β)
    (hb : CaughtUp s b) (tag : Str) (t : ℚ) :
    t ∈ shownTimes s b tag ↔ IsGreatest (reportedTimes sent s tag) t := by
  rw [← sentTimes_ofSent hvalid]
  exact shown_iff_newest h hconsumed htimes.exact hb tag t

/-- From any state of any run, while fewer than ten of the messages sent can be neither
dropped nor stored, the broker, the consumer and finitely many browsers can come to show of
each tag the newest of the times that were reported for it and can be stored. -/
theorem canReach_newest_reported (hvalid : Validates iterErrors) (sent : μ → Sent iterErrors)
    {s : State μ β × List μ} (h : (ordered (Feed.ofSent hvalid sent)).Reachable s)
    (hfew : (s.2.filter fun m => Queue.stuck (sent m).message).length < 10)
    (htimes : TimesReadable sent s.1)
    (hfinite : ∀ m, s.1.delivery.place m ≠ .absent → FiniteDatagram (sent m).datagram)
    (browsers : List β) :
    (ordered (Feed.ofSent hvalid sent)).CanReach s fun t =>
      SameSent s.1 t.1 ∧ ∀ b ∈ browsers, ∀ tag u,
        u ∈ shownTimes t.1 b tag ↔ IsGreatest (reportedTimes sent s.1 tag) u := by
  refine (canReach_shown h hfew htimes.exact (readable_of_finite hfinite) browsers).mono ?_
  rintro t ⟨-, hsame, -, hshown⟩
  refine ⟨hsame, fun b hb tag u => ?_⟩
  rw [(hshown b hb).2, sentTimes_ofSent]

end Reported

section Examples

attribute [local instance] asciiRuntime ownTypes

/-- The message of a `status2` datagram. -/
theorem sent_status2 : ∃ x : Sent schemeErrors,
    x.datagram = received (text "status2:7,00A320,0,1700000000000") ∧
      (rowOfBody x.message).isSome := by
  obtain ⟨⟨message, headers⟩, hprepare⟩ : ∃ r, (startUdp schemeErrors).prepare
      (received (text "status2:7,00A320,0,1700000000000")) = .ok r :=
    exists_of_isOk (by decide +kernel)
  refine ⟨⟨_, message, headers, hprepare⟩, rfl, ?_⟩
  have hall : (((startUdp schemeErrors).prepare
      (received (text "status2:7,00A320,0,1700000000000"))).toOption.bind
        fun r => rowOfBody r.1).isSome := by decide +kernel
  simpa [hprepare, Except.toOption] using hall

/-- The event of a `status2` datagram, which has no coordinates. -/
theorem reports_status2 {x : Sent schemeErrors}
    (hx : x.datagram = received (text "status2:7,00A320,0,1700000000000")) :
    (∀ event, x.Reports event → event.tagId = text "00A320" ∧ event.tsUtcMs = .int 1700000000000) ∧
      FiniteDatagram x.datagram := by
  have hdecode : decodeUtf8 false x.datagram.data =
      some (text "status2:7,00A320,0,1700000000000") := by
    rw [hx]
    decide +kernel
  constructor
  · rintro event ⟨decoded, hdecoded, hevent⟩
    obtain rfl := Option.some.inj (hdecode.symm.trans hdecoded)
    have hread : ((LS1000Parser.parseMessage ⟨⟩
        (text "status2:7,00A320,0,1700000000000")).toOption.bind fun r =>
          r.toOption.map fun event => (event.tagId, event.tsUtcMs)) =
        some (text "00A320", .int 1700000000000) := by decide +kernel
    cases hevent with
    | parser hparsed => simpa [hparsed, Except.toOption] using hread
    | normalizer hrejected => simp [hrejected, Except.toOption] at hread
  · intro decoded hdecoded
    obtain rfl := Option.some.inj (hdecode.symm.trans hdecoded)
    have htype : LS1000Parser.typeOf (strip (text "status2:7,00A320,0,1700000000000")) =
        some .status2 := by decide +kernel
    unfold FiniteContent
    rw [if_neg (by decide +kernel), htype]
    simp [FiniteFields]

/-- One browser, and one message that is ready. -/
def oneReady : State Unit Unit where
  delivery := ⟨fun _ => .ready, fun _ => none, .empty, []⟩
  committed := []
  published := []
  browser _ := ⟨none, ⟨.empty, false, false⟩⟩

theorem reachable_oneReady (feed : Feed Unit) : (ordered feed).Reachable (oneReady, [()]) := by
  let start : State Unit Unit := { oneReady with
    delivery := ⟨fun _ => .absent, fun _ => none, .empty, []⟩ }
  have hstart : (ordered feed).Reachable (start, []) :=
    .start ⟨⟨⟨fun _ => rfl, fun _ => rfl, rfl, rfl⟩, rfl, rfl, fun _ => rfl⟩,
      ⟨fun _ => rfl, fun _ => rfl, rfl, rfl⟩, rfl⟩
  have hready : Function.update start.delivery.place () .ready = fun _ => Delivery.Place.ready := by
    funext m
    simp
  have hstep : (ordered feed).step (start, []) (_, [()]) :=
    ⟨.consumer (.publish (m := ()) rfl) rfl fun _ _ htask => htask, .inl (.publish (m := ()) rfl)⟩
  rw [hready] at hstep
  exact hstart.next hstep

/-- One message is fewer than ten. -/
theorem few_oneReady {stuck : Unit → Bool} : ([()].filter stuck).length < 10 :=
  (List.length_filter_le _ _).trans_lt (by simp)

theorem timesReadable_status2 {x : Sent schemeErrors}
    (hx : x.datagram = received (text "status2:7,00A320,0,1700000000000")) (s : State Unit Unit) :
    TimesReadable (fun _ => x) s := by
  intro m event n _ hreports hts
  obtain ⟨-, hevent⟩ := (reports_status2 hx).1 event hreports
  obtain rfl := PyInt.int.inj (hts.symm.trans hevent)
  decide

/-- A `status2` datagram reports one time. -/
theorem reportedTimes_status2 {x : Sent schemeErrors}
    (hx : x.datagram = received (text "status2:7,00A320,0,1700000000000"))
    (hstored : (rowOfBody x.message).isSome) {s : State Unit Unit}
    (hsent : s.delivery.place () ≠ .absent) :
    IsGreatest (reportedTimes (fun _ => x) s (text "00A320")) 1700000000000 := by
  obtain ⟨event, hreports, -⟩ := x.reports validates_schemeErrors
  obtain ⟨htag, hts⟩ := (reports_status2 hx).1 event hreports
  constructor
  · exact ⟨(), event, 1700000000000, hsent, hstored, hreports, htag, hts, by norm_num⟩
  · rintro _ ⟨m, event', n, -, -, hreports', -, hts', rfl⟩
    obtain rfl := hreports.unique hreports'
    obtain rfl := PyInt.int.inj (hts.symm.trans hts')
    norm_num

/-- A browser that has caught up with a `status2` datagram -/
theorem exists_caughtUp_status2 : ∃ (x : Sent schemeErrors) (s : State Unit Unit),
    x.datagram = received (text "status2:7,00A320,0,1700000000000") ∧
      (rowOfBody x.message).isSome ∧
      (machine (Feed.ofSent validates_schemeErrors fun _ => x)).Reachable s ∧
      Consumed (Feed.ofSent validates_schemeErrors fun _ => x) s ∧ CaughtUp s () ∧
      s.delivery.place () ≠ .absent := by
  obtain ⟨x, hx, hstored⟩ := sent_status2
  have hready := reachable_oneReady (Feed.ofSent validates_schemeErrors fun _ => x)
  have hreadable : ∀ {s : State Unit Unit},
      Readable (Feed.ofSent validates_schemeErrors fun _ => x) s :=
    readable_of_finite fun _ _ => (reports_status2 hx).2
  obtain ⟨t, -, hreach, hsame, hconsumed⟩ := canReach_consumed hready few_oneReady
  obtain ⟨⟨u, order⟩, -, hreach', hdelivery, hcaught⟩ := canReach_caughtUp hreach hreadable [()]
  refine ⟨x, u, hx, hstored, hreach'.along_left, ?_, hcaught () (List.mem_singleton_self _), ?_⟩
  · rwa [Consumed, hdelivery]
  · rw [hdelivery, ne_eq, hsame ()]
    simp [oneReady]

/-- A browser shows the one time that was reported. -/
theorem shown_iff_newest_reported_status2 : ∃ (x : Sent schemeErrors) (s : State Unit Unit),
    x.datagram = received (text "status2:7,00A320,0,1700000000000") ∧
      (machine (Feed.ofSent validates_schemeErrors fun _ => x)).Reachable s ∧
      1700000000000 ∈ shownTimes s () (text "00A320") := by
  obtain ⟨x, s, hx, hstored, hreach, hconsumed, hcaught, hsent⟩ := exists_caughtUp_status2
  refine ⟨x, s, hx, hreach, ?_⟩
  exact (shown_iff_newest_reported validates_schemeErrors (fun _ => x) hreach hconsumed
    (timesReadable_status2 hx s) () hcaught _ _).mpr (reportedTimes_status2 hx hstored hsent)

/-- A browser can come to show what is still in the broker. -/
theorem canReach_newest_reported_status2 : ∃ (x : Sent schemeErrors),
    x.datagram = received (text "status2:7,00A320,0,1700000000000") ∧
      (ordered (Feed.ofSent validates_schemeErrors fun _ => x)).CanReach (oneReady, [()]) fun t =>
        SameSent oneReady t.1 ∧ ∀ b ∈ [()], ∀ tag u, u ∈ shownTimes t.1 b tag ↔
          IsGreatest (reportedTimes (fun _ => x) oneReady tag) u := by
  obtain ⟨x, hx, -⟩ := sent_status2
  refine ⟨x, hx, ?_⟩
  exact canReach_newest_reported validates_schemeErrors (fun _ => x) (reachable_oneReady _)
    few_oneReady (timesReadable_status2 hx _) (fun _ _ => (reports_status2 hx).2) [()]

end Examples

end RtlsStream.Deployment
