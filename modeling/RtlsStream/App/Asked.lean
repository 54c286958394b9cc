/-
  App/Asked.lean --- the points in the history are those that were asked for.

  The positions that the player shows are among its points, and its points are what the last
  load has collected, whatever is played, sought or answered in between.  Where no foreign
  load gets in, the user sees of no tag more than was ticked.
-/
import RtlsStream.App.Loads

set_option autoImplicit false

namespace RtlsStream.App

open RtlsStream.Foundation RtlsStream.Python
open RtlsStream.Player (Hook Position)

variable {K : Type}

/-! ## What the player holds -/

section Holds

variable {P Q : Position K → Prop} {h : Hook K}

/-- The points that are loaded, and those that are shown, are of a kind. -/
structure Holds (P : Position K → Prop) (h : Hook K) : Prop where
  synced : h.sortedPointsRef = h.sortedPoints
  points : ∀ p ∈ h.sortedPoints, P p
  shown : ∀ p ∈ h.currentPositions.rows, P p

namespace Holds

theorem mono (hh : Holds P h) (himp : ∀ p, P p → Q p) : Holds Q h where
  synced := hh.synced
  points p hp := himp p (hh.points p hp)
  shown p hp := himp p (hh.shown p hp)

/-- The clock, the frames and the speed do not matter. -/
theorem congr {h' : Hook K} (hh : Holds P h) (href : h'.sortedPointsRef = h.sortedPointsRef)
    (hpoints : h'.sortedPoints = h.sortedPoints)
    (hshown : h'.currentPositions = h.currentPositions) : Holds P h' where
  synced := by rw [href, hpoints, hh.synced]
  points := by rw [hpoints]; exact hh.points
  shown := by rw [hshown]; exact hh.shown

theorem clear {h' : Hook K} (hh : Holds P h) (href : h'.sortedPointsRef = h.sortedPointsRef)
    (hpoints : h'.sortedPoints = h.sortedPoints) (hshown : h'.currentPositions = .empty) :
    Holds P h' where
  synced := by rw [href, hpoints, hh.synced]
  points := by rw [hpoints]; exact hh.points
  shown := by simp [hshown, Table.empty]

theorem init : Holds P (.init : Hook K) where
  synced := rfl
  points := by simp [Hook.init]
  shown := by simp [Hook.init, Table.empty]

theorem pause (hh : Holds P h) : Holds P h.pause := by
  have hcancel : ∀ h' : Hook K, Holds P h' → Holds P h'.cancelFrame := by
    intro h' hh'
    unfold Hook.cancelFrame
    split
    · exact hh'.congr rfl rfl rfl
    · exact hh'
  have hstopped : Holds P { h.setPlaying false with lastFrameRef := none } :=
    hh.congr rfl rfl rfl
  exact (hcancel _ hstopped).congr rfl rfl rfl

theorem reset (h : Hook K) : Holds P h.reset where
  synced := rfl
  points := by simp [Hook.reset, Hook.setTime, Hook.setPoints]
  shown := by simp [Hook.reset, Table.empty]

variable [LinearOrder K]

theorem load (h : Hook K) {points : List (Position K)} (hpoints : ∀ p ∈ points, P p) :
    Holds P (h.load points) where
  synced := rfl
  points p hp := hpoints p ((Hook.sortByTime_perm points).mem_iff.mp hp)
  shown := by simp [Hook.load, Hook.setPlaying, Table.empty]

/-- What is collected is among the points, or was there before. -/
theorem collect {atMs : K} {map : Player.Positions K} {points : List (Position K)}
    (hmap : ∀ p ∈ map.rows, P p) (hpoints : ∀ p ∈ points, P p) :
    ∀ p ∈ (Hook.collect atMs map points).rows, P p := by
  induction points generalizing map with
  | nil => exact hmap
  | cons first rest ih =>
    obtain ⟨hfirst, hrest⟩ := List.forall_mem_cons.mp hpoints
    unfold Hook.collect
    split
    · exact hmap
    · refine ih (fun p hp => ?_) hrest
      rcases Table.mem_putRow hp with rfl | hp
      · exact hfirst
      · exact hmap p hp

theorem showAt (hh : Holds P h) (now : K) : Holds P (h.showAt now) where
  synced := hh.synced
  points := hh.points
  shown := collect (by simp [Table.empty]) (by rw [hh.synced]; exact hh.points)

theorem play (hh : Holds P h) : Holds P h.play := by
  have hplayed := Hook.played h
  generalize h.play = h' at hplayed
  cases hplayed with
  | idle => exact hh
  | rewinds => exact hh.clear rfl rfl rfl
  | resumes => exact hh.congr rfl rfl rfl

variable [Field K]

theorem seek (hh : Holds P h) (position : K) : Holds P (h.seek position) := by
  unfold Hook.seek
  split
  · exact hh
  · exact hh.showAt _

theorem tick (hh : Holds P h) (timestamp : K) : Holds P (h.tick timestamp) := by
  have hticked := Hook.ticked timestamp h
  generalize h.tick timestamp = h' at hticked
  cases hticked with
  | idle => exact hh
  | first => exact hh.congr rfl rfl rfl
  | stops range lastFrame | goesOn range lastFrame =>
    exact (hh.showAt (h.nextTime range lastFrame timestamp)).congr rfl rfl rfl

theorem control (hh : Holds P h) (c : Control K) : Holds P (c.apply h) := by
  cases c with
  | play => exact hh.play
  | pause => exact hh.pause
  | setSpeed s => exact hh.congr rfl rfl rfl
  | seek position => exact hh.seek position

theorem frame (hh : Holds P h) {handle : Nat} {timestamp : K} {h' : Hook K}
    (hstep : Player.step h (.frame handle timestamp) = some h') : Holds P h' := by
  simp only [Player.step] at hstep
  split at hstep
  · rw [← Option.some.inj hstep]
    exact (hh.congr rfl rfl rfl : Holds P { h with pending := h.pending.erase handle }).tick _
  · cases hstep

end Holds

end Holds

variable [Field K] [LinearOrder K] {s t : State K} {e : Event K}

/-! ## The points that were asked for -/

/-- The server answers with points of the tag that it was asked for. -/
def Honest (events : List (Event K)) : Prop :=
  ∀ before call items total after, events = before ++ .answer call (.page items total) :: after →
    ∀ s l, run before = some s → s.load call = some l → ∀ p ∈ items, p.tagId = l.tagId

/-- The point is of a tag that was ticked for the load that `source` names. -/
def State.Ticked (s : State K) (p : Position K) : Prop :=
  ∃ mount query, s.source = some (mount, query) ∧ p.tagId ∈ query.selectedTags

/-- A load asks for what was ticked. -/
structure Load.Asks (l : Load K) : Prop where
  tagId : l.tagId ∈ l.query.selectedTags
  rest : ∀ tagId ∈ l.rest, tagId ∈ l.query.selectedTags
  points : ∀ p ∈ l.allPoints, p.tagId ∈ l.query.selectedTags

structure Asked (s : State K) : Prop where
  loads : ∀ call l, s.load call = some l → l.Asks
  player : Holds s.Ticked s.player

omit [Field K] [LinearOrder K] in
theorem Load.Asks.receive {l : Load K} {a : Answer K} (hl : l.Asks)
    (hhonest : ∀ items total, a = .page items total → ∀ p ∈ items, p.tagId = l.tagId) :
    (∀ next, l.receive a = .asks next → next.Asks) ∧
      ∀ points, l.receive a = .done points → ∀ p ∈ points, p.tagId ∈ l.query.selectedTags := by
  cases a with
  | notOk | throws => simp [Load.receive]
  | page items total =>
    have hpoints : ∀ p ∈ l.allPoints ++ items, p.tagId ∈ l.query.selectedTags := by
      intro p hp
      rcases List.mem_append.mp hp with hp | hp
      · exact hl.points p hp
      · rw [hhonest items total rfl p hp]
        exact hl.tagId
    simp only [Load.receive]
    split
    · cases hrest : l.rest with
      | nil =>
        simp only [Outcome.done.injEq, reduceCtorEq, false_implies, implies_true, true_and]
        rintro _ rfl
        exact hpoints
      | cons tagId rest =>
        have hticked := hrest ▸ hl.rest
        obtain ⟨hfirst, hothers⟩ := List.forall_mem_cons.mp hticked
        simp only [Outcome.asks.injEq, reduceCtorEq, false_implies, implies_true, and_true]
        rintro _ rfl
        exact ⟨hfirst, hothers, hpoints⟩
    · simp only [Outcome.asks.injEq, reduceCtorEq, false_implies, implies_true, and_true]
      rintro _ rfl
      exact ⟨hl.tagId, hl.rest, hpoints⟩

omit [Field K] [LinearOrder K] in
/-- The loads and the player decide. -/
theorem Asked.congr (hs : Asked s) (hload : t.load = s.load) (hsource : t.source = s.source)
    (hplayer : Holds s.Ticked t.player) : Asked t where
  loads := by rw [hload]; exact hs.loads
  player := hplayer.mono fun p hp => by rwa [State.Ticked, hsource]

omit [Field K] [LinearOrder K] in
theorem Asked.update {call : Nat} {l : Option (Load K)} (hs : Asked s) (hl : ∀ next ∈ l, next.Asks) :
    ∀ call' l', Function.update s.load call l call' = some l' → l'.Asks := by
  intro call' l' hl'
  by_cases hcall : call' = call
  · subst hcall
    rw [Function.update_self] at hl'
    exact hl l' hl'
  · rw [Function.update_of_ne hcall] at hl'
    exact hs.loads call' l' hl'

theorem Asked.step (hs : Asked s) (hstep : step s e = some t)
    (hhonest : ∀ call items total l, e = .answer call (.page items total) → s.load call = some l →
      ∀ p ∈ items, p.tagId = l.tagId) : Asked t := by
  have hreceived : ∀ {call : Nat} {a : Answer K} {l : Load K}, e = .answer call a →
      s.load call = some l → (∀ next, l.receive a = .asks next → next.Asks) ∧
        ∀ points, l.receive a = .done points → ∀ p ∈ points, p.tagId ∈ l.query.selectedTags := by
    rintro call a l rfl hl
    exact (hs.loads call l hl).receive fun items total ha =>
      hhonest call items total l (by rw [ha]) hl
  cases stepped hstep with
  | goesLive | resets => exact ⟨hs.loads, .reset _⟩
  | mounts => exact hs.congr rfl rfl hs.player
  | stays => exact hs
  | edits => exact hs.congr (by simp) (by simp) (by simpa using hs.player)
  | starts _ _ _ hpoints htags =>
    refine ⟨hs.update fun next hnext => ?_, hs.player⟩
    obtain rfl := Option.mem_some_iff.mp hnext
    exact ⟨by simp [htags], by simp +contextual [htags], by simp [hpoints]⟩
  | controls c => exact hs.congr rfl rfl (hs.player.control c)
  | asks hl hreceive =>
    refine ⟨hs.update fun next' hnext => ?_, hs.player⟩
    obtain rfl := Option.mem_some_iff.mp hnext
    exact (hreceived rfl hl).1 _ hreceive
  | fails =>
    refine ⟨?_, ?_⟩
    · rw [setPanel_load]
      exact hs.update (by simp)
    · rw [setPanel_player]
      exact hs.player.mono fun p hp => by rwa [State.Ticked, setPanel_source]
  | @loads call a l points hl hreceive =>
    refine ⟨?_, ?_⟩
    · rw [setPanel_load]
      exact hs.update (by simp)
    · rw [setPanel_player]
      refine .load _ fun p hp => ⟨l.mount, l.query, ?_, (hreceived rfl hl).2 points hreceive p hp⟩
      rw [setPanel_source]
  | frames hframe => exact hs.congr rfl rfl (hs.player.frame hframe)

theorem asked {events : List (Event K)} (hhonest : Honest events) (hrun : run events = some s) :
    Asked s := by
  induction events using List.reverseRecOn generalizing s with
  | nil =>
    rw [← Option.some.inj hrun]
    exact ⟨by simp [State.init], .init⟩
  | append_singleton events e ih =>
    rw [run_append] at hrun
    obtain ⟨s', hs', hstep⟩ := Option.bind_eq_some_iff.mp hrun
    refine (ih ?_ hs').step hstep ?_
    · intro before call items total after hevents
      exact hhonest before call items total (after ++ [e]) (by simp [hevents])
    · rintro call items total l rfl
      exact hhonest events call items total [] rfl s' l hs'

/-- What is shown is among the points that are held. -/
theorem Holds.step (hs : Holds (· ∈ s.player.sortedPoints) s.player) (hstep : step s e = some t) :
    Holds (· ∈ t.player.sortedPoints) t.player := by
  cases stepped hstep with
  | goesLive | resets => exact .reset _
  | mounts | stays | starts | asks => exact hs
  | edits | fails => simpa using hs
  | controls c =>
    exact (hs.control c).mono fun p hp => by rwa [sortedPoints_control]
  | frames hframe =>
    exact (hs.frame hframe).mono fun p hp => by rwa [sortedPoints_frame hframe]
  | @loads call a l points hl hreceive =>
    rw [setPanel_player]
    exact .load _ fun p hp => (Hook.sortByTime_perm points).mem_iff.mpr hp

/-- If the server answers with points of the tag it was asked for and no load finishes after
its panel was unmounted, the live mode finds the player empty, and every point in the history
is of a tag that was ticked in the panel on the screen when it last loaded. -/
theorem shown_was_asked {events : List (Event K)} (hrun : run events = some s)
    (hhonest : Honest events) (hnever : NeverLate events) :
    (s.screen = .live → s.player.sortedPoints = [] ∧ s.player.currentPositions.rows = []) ∧
      ∀ mount panel, s.screen = .history mount panel →
        ∀ p, p ∈ s.player.sortedPoints ∨ p ∈ s.player.currentPositions.rows →
          ∃ query, s.source = some (mount, query) ∧ p.tagId ∈ query.selectedTags := by
  have hasked := asked hhonest hrun
  have howned := owned hnever hrun
  have hwithin := foldlM_induction (P := fun _ s => Holds (· ∈ s.player.sortedPoints) s.player)
    (.init : Holds _ (Hook.init : Hook K)) (fun _ _ _ _ _ hs hstep => hs.step hstep) hrun
  have hheld : ∀ p, p ∈ s.player.sortedPoints ∨ p ∈ s.player.currentPositions.rows →
      p ∈ s.player.sortedPoints := by
    rintro p (hp | hp)
    · exact hp
    · exact hwithin.shown p hp
  constructor
  · intro hscreen
    have hnone : s.player.sortedPoints = [] := by
      rcases howned with hnone | ⟨mount, query, hmounted, -⟩
      · exact hnone
      · simp [State.mounted, hscreen] at hmounted
    refine ⟨hnone, List.eq_nil_iff_forall_not_mem.mpr fun p hp => ?_⟩
    simpa [hnone] using hheld p (.inr hp)
  · intro mount panel hscreen p hp
    obtain ⟨mount', query, hsource, htag⟩ := hasked.player.points p (hheld p hp)
    rcases howned with hnone | ⟨mount'', query', hmounted, hsource'⟩
    · simpa [hnone] using hheld p hp
    · obtain ⟨rfl, rfl⟩ := Prod.mk.inj (Option.some.inj (hsource.symm.trans hsource'))
      rw [State.mounted, hscreen] at hmounted
      obtain rfl := Option.some.inj hmounted
      exact ⟨query, hsource, htag⟩

section Examples

/-- One load of one tag, and the slider at the end. -/
def oneLoad : List (Event ℚ) :=
  [.switchAppMode .history, .toggleTag (text "A"), .clickLoad,
    .answer 0 (.page [⟨text "A", 10, []⟩] 1), .control (.seek 1)]

/-- The position shown is of the tag that was ticked. -/
theorem shown_was_asked_one : ∃ s mount panel query, run oneLoad = some s ∧
    s.screen = .history mount panel ∧ s.source = some (mount, query) ∧
    text "A" ∈ s.player.currentPositions.rows.map (·.tagId) ∧ text "A" ∈ query.selectedTags := by
  have hcalm : Calm oneLoad := by
    intro before after hevents
    have hmem : Event.switchAppMode .live ∈ oneLoad := by simp [hevents]
    simp [oneLoad] at hmem
  have hhonest : Honest oneLoad := by
    intro before call items total after hevents s l hs hl
    rcases before with _ | ⟨_, _ | ⟨_, _ | ⟨_, _ | ⟨_, _ | ⟨_, before⟩⟩⟩⟩⟩ <;>
      simp [oneLoad] at hevents
    obtain ⟨rfl, rfl, rfl, ⟨rfl, rfl, -⟩, -⟩ := hevents
    have htagId : (run ([.switchAppMode .history, .toggleTag (text "A"), .clickLoad] :
        List (Event ℚ))).bind (fun s => (s.load 0).map (·.tagId)) = some (text "A") := rfl
    rw [hs, Option.bind_some, hl] at htagId
    simpa using (Option.some.inj htagId).symm
  obtain ⟨s, hrun⟩ : ∃ s, run oneLoad = some s := Option.isSome_iff_exists.mp (by decide +kernel)
  have hshown : (run oneLoad).map (fun s =>
      (s.mounted, s.player.currentPositions.rows.map (·.tagId))) = some (some 0, [text "A"]) := by
    decide +kernel
  rw [hrun, Option.map_some, Option.some.injEq, Prod.mk.injEq] at hshown
  have hmem : text "A" ∈ s.player.currentPositions.rows.map (·.tagId) := by simp [hshown.2]
  obtain ⟨p, hp, htag⟩ := List.mem_map.mp hmem
  cases hscreen : s.screen with
  | live => simp [State.mounted, hscreen] at hshown
  | history mount panel =>
    obtain ⟨query, hsource, hticked⟩ :=
      (shown_was_asked hrun hhonest hcalm.neverLate).2 mount panel hscreen p (.inr hp)
    exact ⟨s, mount, panel, query, hrun, hscreen, hsource, hmem, htag ▸ hticked⟩

end Examples

end RtlsStream.App
