/-
  App/Loads.lean --- whose points the player holds.

  The points in the player are those of the last load that finished, if it was not emptied
  since (`sourced`).  A load that outlives its panel still loads its points into the player,
  in the live mode or for another panel, and nothing else can bring foreign points there
  (`points_belong_iff`).  Who lets every load end before going back to the live mode is safe
  (`Calm.neverLate`).
-/
import RtlsStream.App.Screen

set_option autoImplicit false

namespace RtlsStream.App

open RtlsStream.Foundation RtlsStream.Python
open RtlsStream.Player (Hook Position)

variable {K : Type}

/-! ## Events of the panel -/

/-- The panel that is mounted -/
def State.mounted (s : State K) : Option Nat :=
  match s.screen with
  | .live => none
  | .history mount _ => some mount

/-- An update of a panel changes that panel, if it is mounted. -/
theorem setPanel_screen {s : State K} {mount mount' : Nat} {f : Panel → Panel} {panel : Panel} :
    (s.setPanel mount f).screen = .history mount' panel ↔
      ∃ before, s.screen = .history mount' before ∧
        panel = if mount' = mount then f before else before := by
  unfold State.setPanel
  cases hscreen : s.screen with
  | live => simp [hscreen]
  | history m before =>
    by_cases hm : m = mount
    · subst hm
      simp only [if_true, Screen.history.injEq]
      constructor
      · rintro ⟨rfl, rfl⟩
        exact ⟨before, ⟨rfl, rfl⟩, by simp⟩
      · rintro ⟨_, ⟨rfl, rfl⟩, rfl⟩
        simp
    · simp only [hm, if_false, hscreen, Screen.history.injEq]
      constructor
      · rintro ⟨rfl, rfl⟩
        exact ⟨before, ⟨rfl, rfl⟩, by simp [hm]⟩
      · rintro ⟨_, ⟨rfl, rfl⟩, rfl⟩
        simp [hm]

section SetPanel

variable (s : State K) (mount : Nat) (f : Panel → Panel)

@[simp] theorem setPanel_mounted : (s.setPanel mount f).mounted = s.mounted := by
  unfold State.setPanel
  split
  · rfl
  · rename_i hscreen
    split
    · simp [State.mounted, hscreen]
    · rfl

@[simp] theorem setPanel_source : (s.setPanel mount f).source = s.source := by
  unfold State.setPanel
  split
  · rfl
  · split <;> rfl

@[simp] theorem setPanel_player : (s.setPanel mount f).player = s.player := by
  unfold State.setPanel
  split
  · rfl
  · split <;> rfl

@[simp] theorem setPanel_load : (s.setPanel mount f).load = s.load := by
  unfold State.setPanel
  split
  · rfl
  · split <;> rfl

@[simp] theorem setPanel_mounts : (s.setPanel mount f).mounts = s.mounts := by
  unfold State.setPanel
  split
  · rfl
  · split <;> rfl

@[simp] theorem setPanel_calls : (s.setPanel mount f).calls = s.calls := by
  unfold State.setPanel
  split
  · rfl
  · split <;> rfl

end SetPanel

variable [Field K] [LinearOrder K] {s t : State K} {e : Event K}

/-! ## Foreign points -/

omit [Field K] [LinearOrder K] in
theorem receive_mount {l next : Load K} {a : Answer K} (h : l.receive a = .asks next) :
    next.mount = l.mount := by
  cases a with
  | notOk | throws => simp [Load.receive] at h
  | page items total =>
    simp only [Load.receive] at h
    split at h
    · split at h
      · cases h
      · rw [← Outcome.asks.inj h]
    · rw [← Outcome.asks.inj h]

/-- A call of the panel came to the points. -/
def LoadedBy (events : List (Event K)) (mount : Nat) (query : Query) (points : List (Position K)) :
    Prop :=
  ∃ before call a after s l collected, events = before ++ .answer call a :: after ∧
    run before = some s ∧ s.load call = some l ∧ l.mount = mount ∧ l.query = query ∧
    l.receive a = .done collected ∧ points = Hook.sortByTime collected

theorem LoadedBy.append {events : List (Event K)} {mount : Nat} {query : Query}
    {points : List (Position K)} (h : LoadedBy events mount query points) (e : Event K) :
    LoadedBy (events ++ [e]) mount query points := by
  obtain ⟨before, call, a, after, s, l, collected, rfl, hrest⟩ := h
  exact ⟨before, call, a, after ++ [e], s, l, collected, by simp, hrest⟩

theorem sortedPoints_control (c : Control K) (h : Hook K) :
    (c.apply h).sortedPoints = h.sortedPoints := by
  cases c with
  | play =>
    have hplayed := Hook.played h
    simp only [Control.apply]
    generalize h.play = h' at hplayed
    cases hplayed <;> rfl
  | pause =>
    simp only [Control.apply, Hook.pause, Hook.cancelFrame]
    split <;> rfl
  | setSpeed => rfl
  | seek position =>
    simp only [Control.apply, Hook.seek]
    split <;> rfl

theorem sortedPoints_frame {h h' : Hook K} {handle : Nat} {timestamp : K}
    (hstep : Player.step h (.frame handle timestamp) = some h') :
    h'.sortedPoints = h.sortedPoints := by
  simp only [Player.step] at hstep
  split at hstep
  · rw [← Option.some.inj hstep]
    have hticked := Hook.ticked timestamp { h with pending := h.pending.erase handle }
    generalize Hook.tick timestamp _ = h'' at hticked
    cases hticked <;> rfl
  · cases hstep

theorem run_append (before : List (Event K)) (e : Event K) :
    run (before ++ [e]) = (run before).bind fun s => step s e := by
  simp [run, List.foldlM_append]

/-- The source of the points, and the call that came to them. -/
structure Sourced (events : List (Event K)) (s : State K) : Prop where
  none : s.source = none → s.player.sortedPoints = []
  some : ∀ mount query, s.source = some (mount, query) →
    LoadedBy events mount query s.player.sortedPoints

/-- Neither the points nor their source change. -/
theorem Sourced.congr {events : List (Event K)} (hs : Sourced events s) (e : Event K)
    (hpoints : t.player.sortedPoints = s.player.sortedPoints) (hsource : t.source = s.source) :
    Sourced (events ++ [e]) t where
  none hnone := hpoints.trans (hs.none (hsource.symm.trans hnone))
  some mount query hsome := by
    rw [hpoints]
    exact (hs.some mount query (hsource.symm.trans hsome)).append e

theorem Sourced.step {events : List (Event K)} (hs : Sourced events s)
    (hrun : run events = .some s) (hstep : step s e = .some t) : Sourced (events ++ [e]) t := by
  cases stepped hstep with
  | goesLive | resets => exact ⟨fun _ => rfl, fun _ _ hsome => by cases hsome⟩
  | mounts | stays | starts | asks => exact hs.congr _ rfl rfl
  | edits | fails => exact hs.congr _ (by simp) (by simp)
  | controls c => exact hs.congr _ (sortedPoints_control c s.player) rfl
  | frames hframe => exact hs.congr _ (sortedPoints_frame hframe) rfl
  | @loads call a l points hl hreceive =>
    constructor
    · intro hnone
      simp at hnone
    · intro mount query hsome
      simp only [setPanel_source, Option.some.injEq, Prod.mk.injEq] at hsome
      refine ⟨events, call, a, [], s, l, points, rfl, hrun, hl, hsome.1, hsome.2, hreceive, ?_⟩
      rw [setPanel_player]
      rfl

/-- The points are those of the last load that finished, if any. -/
theorem sourced {events : List (Event K)} (hrun : run events = .some s) : Sourced events s := by
  induction events using List.reverseRecOn generalizing s with
  | nil =>
    rw [← Option.some.inj hrun]
    exact ⟨fun _ => rfl, fun _ _ hsome => by cases hsome⟩
  | append_singleton events e ih =>
    rw [run_append] at hrun
    obtain ⟨s', hs', hstep⟩ := Option.bind_eq_some_iff.mp hrun
    exact (ih hs').step hs' hstep

/-- The player holds nothing, or points that the mounted panel has loaded, and nobody after
it. -/
def Belongs (events : List (Event K)) (s : State K) : Prop :=
  s.player.sortedPoints = [] ∨ ∃ mount query, s.mounted = some mount ∧
    s.source = some (mount, query) ∧ LoadedBy events mount query s.player.sortedPoints

/-- The same without the call that came to the points. -/
def State.Owned (s : State K) : Prop :=
  s.player.sortedPoints = [] ∨ ∃ mount query, s.mounted = some mount ∧
    s.source = some (mount, query)

theorem belongs_iff {events : List (Event K)} (hrun : run events = some s) :
    Belongs events s ↔ s.Owned := by
  refine or_congr_right ⟨?_, ?_⟩
  · rintro ⟨mount, query, hmounted, hsource, -⟩
    exact ⟨mount, query, hmounted, hsource⟩
  · rintro ⟨mount, query, hmounted, hsource⟩
    exact ⟨mount, query, hmounted, hsource, (sourced hrun).some mount query hsource⟩

/-- A load finishes, with points, whose panel is no longer mounted. -/
def State.Late (s : State K) (e : Event K) : Prop :=
  ∃ call a l points, e = .answer call a ∧ s.load call = some l ∧ l.receive a = .done points ∧
    points ≠ [] ∧ s.mounted ≠ some l.mount

omit [Field K] [LinearOrder K] in
/-- Neither the points nor their source nor the mounted panel change. -/
theorem State.Owned.congr (hs : s.Owned)
    (hpoints : t.player.sortedPoints = s.player.sortedPoints) (hsource : t.source = s.source)
    (hmounted : t.mounted = s.mounted) : t.Owned := by
  rwa [State.Owned, hpoints, hsource, hmounted]

/-- Without late loads foreign points get nowhere. -/
theorem State.Owned.step (hs : s.Owned) (hlate : ¬ s.Late e) (hstep : step s e = some t) :
    t.Owned := by
  cases stepped hstep with
  | goesLive | resets => exact .inl rfl
  | stays | asks => exact hs.congr rfl rfl rfl
  | edits | fails => exact hs.congr (by simp) (by simp) (setPanel_mounted ..)
  | controls c => exact hs.congr (sortedPoints_control c s.player) rfl rfl
  | frames hframe => exact hs.congr (sortedPoints_frame hframe) rfl rfl
  | starts hscreen => exact hs.congr rfl rfl (by simp [State.mounted, hscreen])
  | mounts hscreen =>
    rcases hs with hnone | ⟨mount, query, hmounted, -⟩
    · exact .inl hnone
    · simp [State.mounted, hscreen] at hmounted
  | @loads call a l points hl hreceive =>
    by_cases hpoints : points = []
    · left
      simp [hpoints, Hook.load, Hook.setPlaying, Hook.setTime, Hook.setPoints, Hook.sortByTime]
    · have hmounted : s.mounted = some l.mount := by
        by_contra hne
        exact hlate ⟨call, a, l, points, rfl, hl, hreceive, hpoints, hne⟩
      exact .inr ⟨l.mount, l.query, (setPanel_mounted ..).trans hmounted, by simp⟩

/-- A late load brings foreign points. -/
theorem not_owned_of_late (hlate : s.Late e) : ∃ t, step s e = some t ∧ ¬ t.Owned := by
  obtain ⟨call, a, l, points, rfl, hl, hreceive, hpoints, hmounted⟩ := hlate
  refine ⟨s.answer call l a, by simp [step, hl], ?_⟩
  rw [State.answer, hreceive]
  rintro (hnone | ⟨mount, query, hmount, hsource⟩)
  · rw [setPanel_player] at hnone
    have hsorted : Hook.sortByTime points = [] := hnone
    exact hpoints (List.perm_nil.mp (hsorted ▸ (Hook.sortByTime_perm points).symm))
  · simp only [setPanel_source, Option.some.injEq, Prod.mk.injEq] at hsource
    rw [setPanel_mounted, ← hsource.1] at hmount
    exact hmounted hmount

/-- No event of the run finishes a load whose panel is gone. -/
def NeverLate (events : List (Event K)) : Prop :=
  ∀ before e after, events = before ++ e :: after → ∀ s, run before = some s → ¬ s.Late e

theorem owned {events : List (Event K)} (hnever : NeverLate events)
    (hrun : run events = some s) : s.Owned := by
  induction events using List.reverseRecOn generalizing s with
  | nil =>
    rw [← Option.some.inj hrun]
    exact .inl rfl
  | append_singleton events e ih =>
    rw [run_append] at hrun
    obtain ⟨s', hs', hstep⟩ := Option.bind_eq_some_iff.mp hrun
    refine (ih ?_ hs').step (hnever events e [] rfl s' hs') hstep
    intro before first after hevents
    exact hnever before first (after ++ [e]) (by simp [hevents])

/-- Throughout a run the player holds nothing, or points that the mounted panel was the last to
load, exactly if no load that has points finishes after its panel was unmounted. -/
theorem points_belong_iff (events : List (Event K)) :
    (∀ before after, events = before ++ after → ∀ s, run before = some s → Belongs before s) ↔
      NeverLate events := by
  constructor
  · intro hbelongs before e after hevents s hs hlate
    obtain ⟨t, hstep, hforeign⟩ := not_owned_of_late hlate
    have hnext : run (before ++ [e]) = some t := by rw [run_append, hs, Option.bind_some, hstep]
    exact hforeign ((belongs_iff hnext).mp
      (hbelongs (before ++ [e]) after (by simp [hevents]) t hnext))
  · intro hnever before after hevents s hs
    refine (belongs_iff hs).mpr (owned ?_ hs)
    intro front e rest hbefore
    exact hnever front e (rest ++ after) (by simp [hevents, hbefore])

/-- The user never leaves the history while something is loading. -/
def Calm (events : List (Event K)) : Prop :=
  ∀ before after, events = before ++ .switchAppMode .live :: after →
    ∀ s, run before = some s → ∀ call, s.load call = none

/-- Every load in flight is one of the mounted panel. -/
def State.Kept (s : State K) : Prop :=
  ∀ call l, s.load call = some l → s.mounted = some l.mount

theorem State.Kept.step (hs : s.Kept) (hstep : step s e = some t)
    (hcalm : e = .switchAppMode .live → ∀ call, s.load call = none) : t.Kept := by
  have hsame : ∀ {u : State K}, u.load = s.load → u.mounted = s.mounted → u.Kept := by
    intro u hload hmounted call l hl
    rw [hmounted]
    exact hs call l (hload ▸ hl)
  have hupdate : ∀ {u : State K} {call : Nat} {l : Option (Load K)},
      u.load = Function.update s.load call l → u.mounted = s.mounted →
      (∀ next ∈ l, s.mounted = some next.mount) → u.Kept := by
    intro u call l hload hmounted hl call' l' hl'
    rw [hmounted]
    rw [hload] at hl'
    by_cases hcall : call' = call
    · subst hcall
      rw [Function.update_self] at hl'
      exact hl l' hl'
    · rw [Function.update_of_ne hcall] at hl'
      exact hs call' l' hl'
  cases stepped hstep with
  | goesLive =>
    intro call l hl
    cases (hcalm rfl call).symm.trans hl
  | mounts hscreen =>
    intro call l hl
    have hmounted := hs call l hl
    simp [State.mounted, hscreen] at hmounted
  | stays | resets | controls | frames => exact hsame rfl rfl
  | edits => exact hsame (by simp) (by simp)
  | starts hscreen _ hmount =>
    refine hupdate rfl (by simp [State.mounted, hscreen]) fun next hnext => ?_
    obtain rfl := Option.mem_some_iff.mp hnext
    simp [State.mounted, hscreen, hmount]
  | loads | fails => exact hupdate (setPanel_load ..) (setPanel_mounted ..) (by simp)
  | asks hl hreceive =>
    refine hupdate rfl rfl fun next' hnext => ?_
    obtain rfl := Option.mem_some_iff.mp hnext
    rw [receive_mount hreceive]
    exact hs _ _ hl

/-- Who lets every load end before going back to the live mode has no late loads. -/
theorem Calm.neverLate {events : List (Event K)} (hcalm : Calm events) : NeverLate events := by
  have hkept : ∀ before after, events = before ++ after → ∀ s, run before = some s → s.Kept := by
    intro before
    induction before using List.reverseRecOn with
    | nil =>
      rintro after - s hs
      rw [← Option.some.inj hs]
      simp [State.Kept, State.init]
    | append_singleton before e ih =>
      intro after hevents t ht
      rw [run_append] at ht
      obtain ⟨s, hs, hstep⟩ := Option.bind_eq_some_iff.mp ht
      have hsplit : events = before ++ e :: after := by simp [hevents]
      refine (ih (e :: after) hsplit s hs).step hstep ?_
      rintro rfl
      exact hcalm before after hsplit s hs
  rintro before e after hevents s hs ⟨call, a, l, points, rfl, hl, -, -, hmounted⟩
  exact hmounted (hkept before _ hevents s hs call l hl)

section Examples

/-- The user goes back to the live mode before the response comes. -/
def lateLoad : List (Event ℚ) :=
  [.switchAppMode .history, .toggleTag (text "A"), .clickLoad, .switchAppMode .live,
    .answer 0 (.page [⟨text "A", 10, []⟩] 1)]

/-- The player holds the point in the live mode. -/
example : (run lateLoad).map (fun s => (s.mounted, s.player.sortedPoints.map (·.tagId))) =
    some (none, [text "A"]) := by decide +kernel

end Examples

end RtlsStream.App
