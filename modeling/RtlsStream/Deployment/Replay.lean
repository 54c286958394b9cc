/-
  Deployment/Replay.lean --- from the datagrams of devices to the history player.

  Redelivery may write a message to `position_events` more than once, and a load may miss
  some of the rows of one timestamp and repeat others; the times are right in either case
  (`historyTimes_eq`, `loaded_iff`).  So when the player stands at a time it shows of each
  tag the newest time that was reported up to there, within the bounds that were asked for.
-/
import RtlsStream.Deployment.Devices
import RtlsStream.History.LoadTimes
import RtlsStream.Player.Shown

set_option autoImplicit false

namespace RtlsStream.Deployment

open RtlsStream.Foundation RtlsStream.Python RtlsStream.Store RtlsStream.Consumer RtlsStream.Live
open RtlsStream.StreamHandler RtlsStream.Receiver RtlsStream.Pipeline RtlsStream.History
open RtlsStream.Consumer.Delivery (rowOfBody)
open RtlsStream.Player (lastShown Watched watch watchStep Shows FramesOrdered)

/-! ## The player -/

section Player

variable {K : Type} [LinearOrder K]

/-- Neither a `load` nor a `reset`. -/
def keepsPoints : Player.Event K → Bool
  | .load _ => false
  | .reset => false
  | _ => true

theorem loaded_after {h : Player.Hook K} {w : Watched K} {e : Player.Event K}
    (hkeep : keepsPoints e = true) : (w.after h e).loaded = w.loaded := by
  cases e with
  | load points => cases hkeep
  | reset => cases hkeep
  | frame handle timestamp =>
    unfold Watched.after
    dsimp only
    split <;> rfl
  | _ => rfl

/-- The player shows of a tag the newest of its points up to the clock. -/
theorem lastShown_iff_newest {points : List (Player.Position K)} {now t : K} {tag : Str} :
    (∃ p, lastShown (Player.Hook.sortByTime points) (some now) tag = some p ∧ p.tsUtcMs = t) ↔
      IsGreatest {u | ∃ p ∈ points, p.tagId = tag ∧ p.tsUtcMs = u ∧ u ≤ now} t := by
  have hsorted := (Player.Hook.sortByTime_sorted points).filter
    fun p => decide (p.tagId = tag ∧ p.tsUtcMs ≤ now)
  have hmem : ∀ p, p ∈ (Player.Hook.sortByTime points).filter
      (fun p => decide (p.tagId = tag ∧ p.tsUtcMs ≤ now)) ↔
        p ∈ points ∧ p.tagId = tag ∧ p.tsUtcMs ≤ now := by
    intro p
    rw [List.mem_filter, (Player.Hook.sortByTime_perm points).mem_iff, decide_eq_true_iff]
  rw [lastShown, Option.bind_some, getLast?_eq_newest hsorted]
  constructor
  · rintro ⟨p, hp, rfl⟩
    obtain ⟨hpoint, htag, hle⟩ := (hmem p).mp (newest_mem hp)
    refine ⟨⟨p, hpoint, htag, rfl, hle⟩, ?_⟩
    rintro _ ⟨q, hq, htag', rfl, hle'⟩
    exact key_le_of_newest hp ((hmem q).mpr ⟨hq, htag', hle'⟩)
  · rintro ⟨⟨p, hpoint, htag, rfl, hle⟩, hgreatest⟩
    have hfound := (hmem p).mpr ⟨hpoint, htag, hle⟩
    obtain ⟨q, hq⟩ : ∃ q, newest Player.Position.tsUtcMs _ = some q :=
      exists_newest (List.ne_nil_of_mem hfound)
    obtain ⟨hpoint', htag', hle'⟩ := (hmem q).mp (newest_mem hq)
    exact ⟨q, hq, le_antisymm (hgreatest ⟨q, hpoint', htag', rfl, hle'⟩)
      (key_le_of_newest hq hfound)⟩

/-- What is shown of a tag is one of its points up to the clock. -/
theorem mem_of_lastShown {points : List (Player.Position K)} {now : K} {tag : Str}
    {p : Player.Position K}
    (hp : lastShown (Player.Hook.sortByTime points) (some now) tag = some p) :
    p ∈ points ∧ p.tagId = tag ∧ p.tsUtcMs ≤ now := by
  have hlast := List.mem_of_getLast? hp
  rwa [List.mem_filter, (Player.Hook.sortByTime_perm points).mem_iff, decide_eq_true_iff] at hlast

/-- Where nothing is shown of a tag, it has no point up to the clock. -/
theorem lt_of_lastShown_eq_none {points : List (Player.Position K)} {now : K} {tag : Str}
    (h : lastShown (Player.Hook.sortByTime points) (some now) tag = none) {p : Player.Position K}
    (hp : p ∈ points) (htag : p.tagId = tag) : now < p.tsUtcMs := by
  rw [lastShown, Option.bind_some, List.getLast?_eq_none_iff, List.filter_eq_nil_iff] at h
  have hlate := h p ((Player.Hook.sortByTime_perm points).mem_iff.mpr hp)
  simpa [htag] using hlate

variable [Field K]

/-- The points of the last `load` stay loaded. -/
theorem loaded_of_watch {before after : List (Player.Event K)} {points : List (Player.Position K)}
    {h : Player.Hook K} {w : Watched K} (hkeep : ∀ e ∈ after, keepsPoints e = true)
    (hwatch : watch (before ++ .load points :: after) = some (h, w)) : w.loaded = points := by
  rw [watch, List.foldlM_append] at hwatch
  obtain ⟨⟨h₀, w₀⟩, -, hafter⟩ := Option.bind_eq_some_iff.mp hwatch
  rw [List.foldlM_cons] at hafter
  refine foldlM_induction (P := fun after s => (∀ e ∈ after, keepsPoints e = true) →
    s.2.loaded = points) (fun _ => rfl) ?_ hafter hkeep
  rintro after ⟨h, w⟩ e ⟨h', w'⟩ - ih hstep hkeep
  obtain ⟨_, -, heq⟩ := Option.map_eq_some_iff.mp hstep
  obtain ⟨-, rfl⟩ := Prod.mk.inj heq
  exact (loaded_after (hkeep e (by simp))).trans
    (ih fun e he => hkeep e (List.mem_append_left _ he))

end Player

/-! ## The history -/

section History

variable [Runtime] [Postgres]
variable {μ β : Type} [DecidableEq μ] [DecidableEq β]
variable {feed : Feed μ} {s : State μ β} {tag : Str}

/-- The times `position_events` has for a tag -/
def historyTimes (s : State μ β) (tag : Str) : Set ℚ :=
  {t | ∃ e ∈ s.delivery.db.events, e.row.tagId.1 = tag ∧ (e.row.ts : ℚ) = t}

/-- What a row of the history was written for. -/
theorem sent_of_event (h : (machine feed).Reachable s) {e : EventRow}
    (he : e ∈ s.delivery.db.events) :
    ∃ m x, s.delivery.place m ≠ .absent ∧ Carries (feed.body m) x ∧ x.row = e.row := by
  rw [(safe h).events] at he
  obtain ⟨⟨m, e⟩, hmem, rfl⟩ := List.mem_map.mp he
  obtain ⟨hsent, -, hrow⟩ := (safe h).logged m e hmem
  obtain ⟨x, hcarries⟩ := feed.live m e.row hrow
  exact ⟨m, x, hsent, hcarries, Option.some.inj (hcarries.row.symm.trans hrow)⟩

/-- Nothing is in the history that was not sent. -/
theorem historyTimes_subset (h : (machine feed).Reachable s) :
    historyTimes s tag ⊆ sentTimes feed s tag := by
  rintro _ ⟨e, he, rfl, rfl⟩
  obtain ⟨m, x, hsent, hcarries, hrow⟩ := sent_of_event h he
  refine ⟨m, x, hsent, hcarries, ?_, ?_⟩
  · rw [← x.row_tagId, hrow]
  · rw [← x.row_ts, hrow]

/-- Once everything that can be stored is consumed, the history has all that was sent. -/
theorem historyTimes_eq (h : (machine feed).Reachable s) (hconsumed : Consumed feed s) :
    historyTimes s tag = sentTimes feed s tag := by
  refine (historyTimes_subset h).antisymm ?_
  rintro _ ⟨m, x, hsent, hcarries, rfl, rfl⟩
  obtain ⟨e, hmem⟩ := (safe h).left m (hconsumed m x hsent hcarries) hcarries.accepted
  obtain ⟨-, -, hrow⟩ := (safe h).logged m e hmem
  obtain hrow : x.row = e.row := Option.some.inj (hcarries.row.symm.trans hrow)
  refine ⟨e, ?_, ?_, ?_⟩
  · rw [(safe h).events]
    exact List.mem_map.mpr ⟨_, hmem, rfl⟩
  · rw [← hrow, x.row_tagId]
  · rw [← hrow, x.row_ts]

/-! ## The points of a load -/

/-- A history item as `res.json()` gives it: `ts_utc_ms` is the nearest binary64. -/
def fetched (p : PositionOut) : Player.Position ℚ where
  tagId := p.tagId.1
  tsUtcMs := (Binary64.nearest p.tsUtcMs.1).value
  others :=
    [(text "source_type", .str p.sourceType.1), (text "origin", .str p.origin.1),
      (text "status", .ofOption (fun s : PgText => .str s.1) p.status),
      (text "layer", .ofOption (fun n : Integer4 => .int n.1) p.layer),
      (text "area", .ofOption (fun s : PgText => .str s.1) p.area),
      (text "x", .ofOption .float p.x), (text "y", .ofOption .float p.y),
      (text "z", .ofOption .float p.z), (text "lng", .ofOption .float p.lng),
      (text "lat", .ofOption .float p.lat)]

theorem fetched_ts (h : (machine feed).Reachable s) (hexact : TimesExact feed s) {e : EventRow}
    (he : e ∈ s.delivery.db.events) : (fetched (positionOut e.row)).tsUtcMs = (e.row.ts : ℚ) := by
  obtain ⟨m, x, hsent, hcarries, hrow⟩ := sent_of_event h he
  obtain ⟨hpos, hle⟩ := hexact m x hsent hcarries
  have hts : e.row.ts = x.tsUtcMs := by rw [← hrow, x.row_ts]
  change (Binary64.nearest e.row.ts).value = _
  rw [hts, Binary64.value_nearest_exact (by omega)]

variable {fromTs toTs : Option Int} {listing : PgText → Nat → List EventRow}
variable {selectedTags : List PgText} {points : List PositionOut}

/-- A time between the bounds of a load -/
def InBounds (fromTs toTs : Option Int) (t : ℚ) : Prop :=
  (∀ from_ts ∈ fromTs, (from_ts : ℚ) ≤ t) ∧ ∀ to_ts ∈ toTs, t ≤ to_ts

omit [DecidableEq μ] [DecidableEq β] in
/-- The rows that a load is about. -/
theorem mem_matching_iff {e : EventRow} {tag : PgText} :
    e ∈ matching ⟨tag, fromTs, toTs⟩ s.delivery.db ↔
      e ∈ s.delivery.db.events ∧ e.row.tagId = tag ∧ InBounds fromTs toTs e.row.ts := by
  rw [mem_matching, Filter.selects_iff, InBounds]
  simp only [Int.cast_le]

/-- The points of a tag have the times of its history that lie between the bounds. -/
theorem loaded_iff (h : (machine feed).Reachable s) (hexact : TimesExact feed s)
    (hchoice : Choice s.delivery.db fromTs toTs listing) (hset : selectedTags.Nodup)
    (hload : handleLoad s.delivery.db fromTs toTs listing selectedTags = some points)
    {tag : PgText} (htag : tag ∈ selectedTags) {t : ℚ} :
    (∃ p ∈ points.map fetched, p.tagId = tag.1 ∧ p.tsUtcMs = t) ↔
      t ∈ historyTimes s tag.1 ∧ InBounds fromTs toTs t := by
  constructor
  · rintro ⟨_, hfetched, htagId, rfl⟩
    obtain ⟨p, hpoint, rfl⟩ := List.mem_map.mp hfetched
    obtain ⟨-, e, he, rfl⟩ := row_of_point hchoice hload hpoint
    obtain ⟨hevent, -, hbounds⟩ := mem_matching_iff.mp he
    rw [fetched_ts h hexact hevent]
    exact ⟨⟨e, hevent, htagId, rfl⟩, hbounds⟩
  · rintro ⟨⟨e, he, htagId, rfl⟩, hbounds⟩
    have hmatch := mem_matching_iff.mpr ⟨he, Subtype.ext htagId, hbounds⟩
    have hmem : e.row.ts ∈ (points.filter (·.tagId = tag)).map (·.tsUtcMs.1) :=
      (times_of_tag hchoice hset hload htag).mem_iff.mpr (List.mem_map_of_mem hmatch)
    obtain ⟨p, hp, hts⟩ := List.mem_map.mp hmem
    obtain ⟨hpoint, htagId'⟩ := List.mem_filter.mp hp
    obtain rfl : p.tagId = tag := by simpa using htagId'
    refine ⟨fetched p, List.mem_map_of_mem hpoint, rfl, ?_⟩
    rw [← fetched_ts h hexact he]
    exact congrArg (fun n => (Binary64.nearest n).value) hts

omit [DecidableEq μ] [DecidableEq β] in
/-- The points of a load are of the tags that were selected. -/
theorem selected_of_loaded (hchoice : Choice s.delivery.db fromTs toTs listing)
    (hload : handleLoad s.delivery.db fromTs toTs listing selectedTags = some points)
    {q : Player.Position ℚ} (hq : q ∈ points.map fetched) :
    ∃ selected ∈ selectedTags, selected.1 = q.tagId := by
  obtain ⟨p, hpoint, rfl⟩ := List.mem_map.mp hq
  exact ⟨p.tagId, (row_of_point hchoice hload hpoint).1, rfl⟩

end History

/-! ## The whole way -/

section Reported

variable [Runtime] [Postgres]
variable {μ β : Type} [DecidableEq μ] [DecidableEq β]
variable {iterErrors : IterErrors} {s : State μ β} {fromTs toTs : Option Int}
variable {listing : PgText → Nat → List EventRow} {selectedTags : List PgText}
variable {points : List PositionOut} {before after : List (Player.Event ℚ)} {hook : Player.Hook ℚ}
variable {w : Watched ℚ} {now : ℚ}

omit [Runtime] [Postgres] [DecidableEq μ] [DecidableEq β] in
/-- The player shows of a tag the last point that it has loaded up to the clock. -/
theorem find?_of_watch (hkeep : ∀ e ∈ after, keepsPoints e = true)
    (hwatch : watch (before ++ .load (points.map fetched) :: after) = some (hook, w))
    (hordered : FramesOrdered (before ++ .load (points.map fetched) :: after))
    (hmoved : w.moved = true) (hnow : hook.currentTimeMs = some now) (tag : Str) :
    hook.currentPositions.find? tag =
      lastShown (Player.Hook.sortByTime (points.map fetched)) (some now) tag := by
  have hshown := (Shows.run hwatch hordered).shown
  rw [if_pos hmoved, loaded_of_watch hkeep hwatch, hnow] at hshown
  rw [hshown]
  exact Player.find?_shownMap (Player.Hook.sortByTime_sorted _) _ tag

/-- The points that were loaded of a tag, up to the clock, have the times that were reported for
it and lie between the bounds. -/
theorem loaded_iff_reported (hvalid : Validates iterErrors) (sent : μ → Sent iterErrors)
    (h : (machine (Feed.ofSent hvalid sent)).Reachable s)
    (hconsumed : Consumed (Feed.ofSent hvalid sent) s) (htimes : TimesReadable sent s)
    (hchoice : Choice s.delivery.db fromTs toTs listing) (hset : selectedTags.Nodup)
    (hload : handleLoad s.delivery.db fromTs toTs listing selectedTags = some points)
    {tag : PgText} (htag : tag ∈ selectedTags) (now u : ℚ) :
    (∃ p ∈ points.map fetched, p.tagId = tag.1 ∧ p.tsUtcMs = u ∧ u ≤ now) ↔
      u ∈ reportedTimes sent s tag.1 ∧ InBounds fromTs toTs u ∧ u ≤ now := by
  rw [← sentTimes_ofSent hvalid, ← historyTimes_eq h hconsumed]
  have hiff := loaded_iff h htimes.exact hchoice hset hload htag (t := u)
  rw [← and_assoc, ← hiff]
  simp only [← exists_and_right, and_assoc]

/-- Once everything that can be stored is consumed, a player that has loaded the history of
some tags and stands at a time shows of each of these tags the newest of the times that were
reported for it and can be stored, up to there and between the bounds, and of other tags
nothing. -/
theorem replay_shows_newest_reported (hvalid : Validates iterErrors) (sent : μ → Sent iterErrors)
    (h : (machine (Feed.ofSent hvalid sent)).Reachable s)
    (hconsumed : Consumed (Feed.ofSent hvalid sent) s) (htimes : TimesReadable sent s)
    (hchoice : Choice s.delivery.db fromTs toTs listing) (hset : selectedTags.Nodup)
    (hload : handleLoad s.delivery.db fromTs toTs listing selectedTags = some points)
    (hkeep : ∀ e ∈ after, keepsPoints e = true)
    (hwatch : watch (before ++ .load (points.map fetched) :: after) = some (hook, w))
    (hordered : FramesOrdered (before ++ .load (points.map fetched) :: after))
    (hmoved : w.moved = true) (hnow : hook.currentTimeMs = some now) :
    (∀ tag ∈ selectedTags, ∀ t,
      (∃ p, hook.currentPositions.find? tag.1 = some p ∧ p.tsUtcMs = t) ↔
        IsGreatest {u | u ∈ reportedTimes sent s tag.1 ∧ InBounds fromTs toTs u ∧ u ≤ now} t) ∧
      ∀ tag p, hook.currentPositions.find? tag = some p →
        ∃ selected ∈ selectedTags, selected.1 = tag := by
  have hfind := find?_of_watch hkeep hwatch hordered hmoved hnow
  constructor
  · intro tag htag t
    rw [hfind, lastShown_iff_newest]
    simp only [loaded_iff_reported hvalid sent h hconsumed htimes hchoice hset hload htag]
  · intro tag p hp
    rw [hfind] at hp
    obtain ⟨hmem, rfl, -⟩ := mem_of_lastShown hp
    exact selected_of_loaded hchoice hload hmem

end Reported

section Examples

attribute [local instance] asciiRuntime ownTypes

/-- A player that has loaded some points and was moved to their end. -/
theorem watch_load_seek {points : List (Player.Position ℚ)} (hpoints : points ≠ []) :
    ∃ hook w now, watch ([] ++ .load points :: [.seek 1]) = some (hook, w) ∧ w.moved = true ∧
      hook.currentTimeMs = some now ∧ ∃ p ∈ points, p.tsUtcMs ≤ now := by
  have hwatch : watch ([] ++ .load points :: [.seek 1]) =
      some ((Player.Hook.init.load points).seek 1, ⟨points, true, false⟩) := rfl
  have hordered : FramesOrdered ([] ++ .load points :: [.seek 1]) := List.Pairwise.nil
  have hk := Player.Kept.run (Player.run_of_watch hwatch) hordered
  have hperm := Player.Hook.sortByTime_perm points
  rw [← (Shows.run hwatch hordered).points] at hperm
  cases hloaded : ((Player.Hook.init.load points).seek 1).sortedPointsRef with
  | nil => exact absurd (hloaded ▸ hperm).symm.eq_nil hpoints
  | cons first rest =>
    have hrange : Player.timeRange ((Player.Hook.init.load points).seek 1).sortedPointsRef =
        some ⟨first.tsUtcMs, ((first :: rest).getLast (by simp)).tsUtcMs⟩ := by rw [hloaded]; rfl
    obtain ⟨now, hnow, hstart, -⟩ := hk.within.exists_now hrange
    rw [hloaded] at hperm
    exact ⟨_, _, now, hwatch, rfl, hk.synced.time ▸ hnow, first,
      hperm.mem_iff.mp List.mem_cons_self, hstart⟩

/-- Every time that the `status2` datagram reports is its own. -/
theorem eq_of_reported_status2 {x : Sent schemeErrors}
    (hx : x.datagram = received (text "status2:7,00A320,0,1700000000000")) {s : State Unit Unit}
    {tag : Str} {u : ℚ} (hu : u ∈ reportedTimes (fun _ => x) s tag) : u = 1700000000000 := by
  obtain ⟨m, event, n, -, -, hreports, -, hts, rfl⟩ := hu
  obtain ⟨-, hevent⟩ := (reports_status2 hx).1 event hreports
  obtain rfl := PyInt.int.inj (hts.symm.trans hevent)
  norm_num

/-- The tag of the `status2` datagram -/
def status2Tag : PgText := ⟨text "00A320", isPgText_sampleTag⟩

/-- The history of the `status2` datagram, loaded into a player that stands at its end -/
theorem exists_replay_status2 : ∃ (x : Sent schemeErrors) (s : State Unit Unit)
    (listing : PgText → Nat → List EventRow) (points : List PositionOut) (hook : Player.Hook ℚ)
    (w : Watched ℚ) (now : ℚ),
    x.datagram = received (text "status2:7,00A320,0,1700000000000") ∧
      (machine (Feed.ofSent validates_schemeErrors fun _ => x)).Reachable s ∧
      Consumed (Feed.ofSent validates_schemeErrors fun _ => x) s ∧
      IsGreatest (reportedTimes (fun _ => x) s (text "00A320")) 1700000000000 ∧
      Choice s.delivery.db none none listing ∧
      handleLoad s.delivery.db none none listing [status2Tag] = some points ∧
      watch ([] ++ .load (points.map fetched) :: [.seek 1]) = some (hook, w) ∧ w.moved = true ∧
      hook.currentTimeMs = some now ∧ 1700000000000 ≤ now := by
  obtain ⟨x, hx, hstored⟩ := sent_status2
  have hready := reachable_oneReady (Feed.ofSent validates_schemeErrors fun _ => x)
  obtain ⟨⟨s, order⟩, -, hordered, hsame, hconsumed⟩ := canReach_consumed hready few_oneReady
  have hreach := hordered.along_left
  have hsent : s.delivery.place () ≠ .absent := by
    rw [ne_eq, hsame ()]
    simp [oneReady]
  have htimes := timesReadable_status2 hx s
  have hgreatest := reportedTimes_status2 hx hstored hsent
  choose other hother using fun tag : PgText =>
    exists_listed (fun e : EventRow => e.row.ts) (matching ⟨tag, none, none⟩ s.delivery.db)
  have hchoice : Choice s.delivery.db none none fun tag _ => other tag := fun tag _ => hother tag
  obtain ⟨points, hload⟩ : ∃ points, handleLoad s.delivery.db none none (fun tag _ => other tag)
      [status2Tag] = some points := ⟨_, if_neg (by simp)⟩
  have hreported := loaded_iff_reported validates_schemeErrors (fun _ => x) hreach hconsumed htimes
    hchoice (by simp) hload (List.mem_singleton_self _)
  obtain ⟨first, hfirst, -⟩ := (hreported 1700000000000 1700000000000).mpr
    ⟨hgreatest.1, by simp [InBounds], le_rfl⟩
  obtain ⟨hook, w, now, hwatch, hmoved, hnow, q, hq, hle⟩ :=
    watch_load_seek (List.ne_nil_of_mem hfirst)
  obtain ⟨selected, hselected, htagId⟩ := selected_of_loaded hchoice hload hq
  obtain rfl := List.mem_singleton.mp hselected
  have hqts : q.tsUtcMs = 1700000000000 := eq_of_reported_status2 hx
    ((hreported q.tsUtcMs q.tsUtcMs).mp ⟨q, hq, htagId.symm, rfl, le_rfl⟩).1
  exact ⟨x, s, _, points, hook, w, now, hx, hreach, hconsumed, hgreatest, hchoice, hload, hwatch,
    hmoved, hnow, hqts ▸ hle⟩

/-- The one time that was reported is found in the history and shown. -/
theorem replay_shows_newest_reported_status2 :
    ∃ (x : Sent schemeErrors) (s : State Unit Unit) (points : List PositionOut)
      (hook : Player.Hook ℚ) (p : Player.Position ℚ),
      x.datagram = received (text "status2:7,00A320,0,1700000000000") ∧
        (machine (Feed.ofSent validates_schemeErrors fun _ => x)).Reachable s ∧
        (∃ listing, handleLoad s.delivery.db none none listing [status2Tag] = some points) ∧
        Player.run ([] ++ .load (points.map fetched) :: [.seek 1]) = some hook ∧
        hook.currentPositions.find? (text "00A320") = some p ∧ p.tsUtcMs = 1700000000000 := by
  obtain ⟨x, s, listing, points, hook, w, now, hx, hreach, hconsumed, hgreatest, hchoice, hload,
    hwatch, hmoved, hnow, hle⟩ := exists_replay_status2
  obtain ⟨p, hp, hpts⟩ := ((replay_shows_newest_reported validates_schemeErrors (fun _ => x) hreach
    hconsumed (timesReadable_status2 hx s) hchoice (by simp) hload (by simp [keepsPoints]) hwatch
    List.Pairwise.nil hmoved hnow).1 status2Tag (List.mem_singleton_self _) 1700000000000).mpr
      ⟨⟨hgreatest.1, by simp [InBounds], hle⟩, fun u hu => hgreatest.2 hu.1⟩
  exact ⟨x, s, points, hook, p, hx, hreach, ⟨_, hload⟩, Player.run_of_watch hwatch, hp, hpts⟩

end Examples

end RtlsStream.Deployment
