/-
  App/Screen.lean --- `App` with its `HistoryPlayer` and the loads that are in flight.

  The player belongs to `App` and lives as long as the page, a `HistoryPlayer` only from
  switching to the history to switching back.  `handleLoad` awaits its responses, so a load
  may finish when its panel is gone: what it sets in the panel is then lost, and what it
  loads into the player is not.

  `source` records whose points the player holds.  The tags that can be ticked are those of
  the live positions; here they are any.
-/
import RtlsStream.Foundation.Machine
import RtlsStream.History.Paging
import RtlsStream.Player.Hook

set_option autoImplicit false

namespace RtlsStream.App

open RtlsStream.Foundation RtlsStream.Python
open RtlsStream.Player (Hook Position PlaybackSpeed)
open RtlsStream.History (pageSize)

/-! ## Loads -/

/-- What `handleLoad` reads of the panel. -/
structure Query where
  /-- a `Set`, in the order of insertion -/
  selectedTags : List Str
  fromTs : Str
  toTs : Str

/-- A call of `handleLoad` that awaits a response -/
structure Load (K : Type) where
  /-- the panel that it was called in -/
  mount : Nat
  query : Query
  tagId : Str
  /-- the tags that come after `tagId` -/
  rest : List Str
  offset : Nat
  allPoints : List (Position K)

/-- What `fetch` and `res.json` come to. -/
inductive Answer (K : Type) where
  | page (items : List (Position K)) (total : Int)
  /-- `res.ok` is false -/
  | notOk (status : Nat)
  /-- something is thrown; its message, where it is an `Error` -/
  | throws (message : Option Str)

/-- What a load does with a response. -/
inductive Outcome (K : Type) where
  | asks (next : Load K)
  | done (points : List (Position K))
  | fails (message : Str)

variable {K : Type}

/-- The loops of `handleLoad`, from one response to the next request -/
def Load.receive (l : Load K) : Answer K → Outcome K
  | .notOk status => .fails (text "HTTP " ++ natText status ++ text " for " ++ l.tagId)
  | .throws message => .fails (message.getD (text "Unknown error"))
  | .page items total =>
    let allPoints := l.allPoints ++ items
    let offset := l.offset + items.length
    if items.length < pageSize ∨ total ≤ offset then
      match l.rest with
      | [] => .done allPoints
      | tagId :: rest =>
        .asks { l with tagId := tagId, rest := rest, offset := 0, allPoints := allPoints }
    else .asks { l with offset := offset, allPoints := allPoints }

/-! ## The state -/

/-- `AppMode` -/
inductive AppMode where
  | live
  | history
  deriving DecidableEq

/-- The state of a `HistoryPlayer` -/
structure Panel where
  selectedTags : List Str
  fromTs : Str
  toTs : Str
  loading : Bool
  error : Option Str

/-- What a `HistoryPlayer` starts with -/
def Panel.fresh : Panel where
  selectedTags := []
  fromTs := []
  toTs := []
  loading := false
  error := none

/-- `toggleTag` -/
def Panel.toggleTag (panel : Panel) (tagId : Str) : Panel :=
  if panel.selectedTags.contains tagId then
    { panel with selectedTags := panel.selectedTags.erase tagId }
  else { panel with selectedTags := panel.selectedTags ++ [tagId] }

/-- The mode of the app; a panel is mounted in the history only. -/
inductive Screen where
  | live
  | history (mount : Nat) (panel : Panel)

structure State (K : Type) where
  screen : Screen
  /-- how many panels have been mounted -/
  mounts : Nat
  load : Nat → Option (Load K)
  /-- how many loads have been started -/
  calls : Nat
  player : Hook K
  source : Option (Nat × Query)

/-- The first render -/
def State.init : State K where
  screen := .live
  mounts := 0
  load _ := none
  calls := 0
  player := .init
  source := none

/-- The controls that are shown once something is loaded. -/
inductive Control (K : Type) where
  | play
  | pause
  | setSpeed (s : PlaybackSpeed)
  | seek (p : K)

/-- What the user, the server and the browser do. -/
inductive Event (K : Type) where
  | switchAppMode (mode : AppMode)
  | toggleTag (tagId : Str)
  | setFromTs (value : Str)
  | setToTs (value : Str)
  | clickLoad
  | clickReset
  | control (c : Control K)
  | answer (call : Nat) (a : Answer K)
  | frame (handle : Nat) (timestamp : K)

/-! ## Steps -/

namespace State

/-- An update of the panel's state, lost unless the panel is still mounted. -/
def setPanel (s : State K) (mount : Nat) (f : Panel → Panel) : State K :=
  match s.screen with
  | .live => s
  | .history mount' panel =>
    if mount' = mount then { s with screen := .history mount' (f panel) } else s

/-- An event of the mounted panel -/
def onPanel (s : State K) (f : Nat → Panel → Option (State K)) : Option (State K) :=
  match s.screen with
  | .live => none
  | .history mount panel => f mount panel

/-- The start of `handleLoad`, where the button is enabled -/
def clickLoad (s : State K) (mount : Nat) (panel : Panel) : Option (State K) :=
  match panel.selectedTags, panel.loading with
  | tagId :: rest, false => some { s with
      screen := .history mount { panel with loading := true, error := none }
      load := Function.update s.load s.calls (some {
        mount := mount
        query := ⟨panel.selectedTags, panel.fromTs, panel.toTs⟩
        tagId := tagId
        rest := rest
        offset := 0
        allPoints := [] })
      calls := s.calls + 1 }
  | _, _ => none

variable [Field K] [LinearOrder K]

/-- `handleLoad` from a response on -/
def answer (s : State K) (call : Nat) (l : Load K) (a : Answer K) : State K :=
  match l.receive a with
  | .asks next => { s with load := Function.update s.load call (some next) }
  | .done points =>
    { s with
      load := Function.update s.load call none
      player := s.player.load points
      source := some (l.mount, l.query) }.setPanel l.mount fun panel =>
        { panel with loading := false }
  | .fails message =>
    { s with load := Function.update s.load call none }.setPanel l.mount fun panel =>
        { panel with loading := false, error := some message }

/-- `handleSwitchAppMode` -/
def switchAppMode (s : State K) : AppMode → State K
  | .live => { s with screen := .live, player := s.player.reset, source := none }
  | .history =>
    match s.screen with
    | .live => { s with screen := .history s.mounts .fresh, mounts := s.mounts + 1 }
    | .history _ _ => s

end State

variable [Field K] [LinearOrder K]

/-- A control that is shown -/
def Control.apply : Control K → Hook K → Hook K
  | .play, h => h.play
  | .pause, h => h.pause
  | .setSpeed s, h => h.setSpeed s
  | .seek p, h => h.seek p

def step (s : State K) : Event K → Option (State K)
  | .switchAppMode mode => some (s.switchAppMode mode)
  | .toggleTag tagId => s.onPanel fun mount _ => some (s.setPanel mount (·.toggleTag tagId))
  | .setFromTs value =>
    s.onPanel fun mount _ => some (s.setPanel mount ({ · with fromTs := value }))
  | .setToTs value => s.onPanel fun mount _ => some (s.setPanel mount ({ · with toTs := value }))
  | .clickLoad => s.onPanel s.clickLoad
  | .clickReset =>
    s.onPanel fun _ _ => some { s with player := s.player.reset, source := none }
  | .control c => s.onPanel fun _ _ =>
    (Player.timeRange s.player.sortedPoints).map fun _ => { s with player := c.apply s.player }
  | .answer call a => (s.load call).map fun l => s.answer call l a
  | .frame handle timestamp =>
    (Player.step s.player (.frame handle timestamp)).map fun h => { s with player := h }

/-- The page after some events -/
def run (events : List (Event K)) : Option (State K) := events.foldlM step .init

/-! ## What a step can do -/

/-- A step, by what it finds and what it changes. -/
inductive Stepped (s : State K) : Event K → State K → Prop
  | goesLive : Stepped s (.switchAppMode .live)
      { s with screen := .live, player := s.player.reset, source := none }
  | mounts : s.screen = .live → Stepped s (.switchAppMode .history)
      { s with screen := .history s.mounts .fresh, mounts := s.mounts + 1 }
  | stays : Stepped s (.switchAppMode .history) s
  /-- neither `loading` nor the error changes -/
  | edits {e : Event K} (mount : Nat) {f : Panel → Panel} :
      (∀ panel, (f panel).loading = panel.loading) → (∀ panel, (f panel).error = panel.error) →
      Stepped s e (s.setPanel mount f)
  | starts {mount : Nat} {panel : Panel} {l : Load K} : s.screen = .history mount panel →
      panel.loading = false → l.mount = mount → l.allPoints = [] →
      l.query.selectedTags = l.tagId :: l.rest →
      Stepped s .clickLoad { s with
        screen := .history mount { panel with loading := true, error := none }
        load := Function.update s.load s.calls (some l)
        calls := s.calls + 1 }
  | resets : Stepped s .clickReset { s with player := s.player.reset, source := none }
  | controls (c : Control K) : Stepped s (.control c) { s with player := c.apply s.player }
  | asks {call : Nat} {a : Answer K} {l next : Load K} : s.load call = some l →
      l.receive a = .asks next → Stepped s (.answer call a)
        { s with load := Function.update s.load call (some next) }
  | loads {call : Nat} {a : Answer K} {l : Load K} {points : List (Position K)} :
      s.load call = some l → l.receive a = .done points → Stepped s (.answer call a)
        (State.setPanel { s with
          load := Function.update s.load call none
          player := s.player.load points
          source := some (l.mount, l.query) } l.mount fun panel => { panel with loading := false })
  | fails {call : Nat} {a : Answer K} {l : Load K} {message : Str} :
      s.load call = some l → l.receive a = .fails message → Stepped s (.answer call a)
        (State.setPanel { s with load := Function.update s.load call none } l.mount fun panel =>
          { panel with loading := false, error := some message })
  | frames {handle : Nat} {timestamp : K} {h : Hook K} :
      Player.step s.player (.frame handle timestamp) = some h →
      Stepped s (.frame handle timestamp) { s with player := h }

section Stepped

variable {s t : State K} {e : Event K}

omit [Field K] [LinearOrder K] in
theorem onPanel_eq_some {f : Nat → Panel → Option (State K)} :
    s.onPanel f = some t ↔ ∃ mount panel, s.screen = .history mount panel ∧ f mount panel = some t := by
  unfold State.onPanel
  cases hscreen : s.screen with
  | live => simp
  | history mount panel => simp

theorem stepped_clickLoad {mount : Nat} {panel : Panel} (hscreen : s.screen = .history mount panel)
    (hstep : s.clickLoad mount panel = some t) : Stepped s .clickLoad t := by
  unfold State.clickLoad at hstep
  split at hstep
  · rename_i tagId rest htags hloading
    rw [← Option.some.inj hstep]
    exact .starts hscreen hloading rfl rfl htags
  · cases hstep

theorem stepped_switchAppMode (mode : AppMode) :
    Stepped s (.switchAppMode mode) (s.switchAppMode mode) := by
  cases mode with
  | live => exact .goesLive
  | history =>
    unfold State.switchAppMode
    cases hscreen : s.screen with
    | live => exact .mounts hscreen
    | history mount panel => exact .stays

theorem stepped_answer {call : Nat} {l : Load K} (hl : s.load call = some l) (a : Answer K) :
    Stepped s (.answer call a) (s.answer call l a) := by
  unfold State.answer
  cases hreceive : l.receive a with
  | asks next => exact .asks hl hreceive
  | done points => exact .loads hl hreceive
  | fails message => exact .fails hl hreceive

theorem stepped (hstep : step s e = some t) : Stepped s e t := by
  cases e with
  | switchAppMode mode =>
    rw [← Option.some.inj hstep]
    exact stepped_switchAppMode mode
  | toggleTag tagId =>
    obtain ⟨mount, panel, -, ht⟩ := onPanel_eq_some.mp hstep
    rw [← Option.some.inj ht]
    refine .edits mount (fun panel => ?_) fun panel => ?_
    · unfold Panel.toggleTag
      split <;> rfl
    · unfold Panel.toggleTag
      split <;> rfl
  | setFromTs | setToTs =>
    obtain ⟨mount, panel, -, ht⟩ := onPanel_eq_some.mp hstep
    rw [← Option.some.inj ht]
    exact .edits mount (fun _ => rfl) fun _ => rfl
  | clickLoad =>
    obtain ⟨mount, panel, hscreen, ht⟩ := onPanel_eq_some.mp hstep
    exact stepped_clickLoad hscreen ht
  | clickReset =>
    obtain ⟨mount, panel, -, ht⟩ := onPanel_eq_some.mp hstep
    rw [← Option.some.inj ht]
    exact .resets
  | control c =>
    obtain ⟨mount, panel, -, ht⟩ := onPanel_eq_some.mp hstep
    obtain ⟨_, -, rfl⟩ := Option.map_eq_some_iff.mp ht
    exact .controls c
  | answer call a =>
    obtain ⟨l, hl, rfl⟩ := Option.map_eq_some_iff.mp hstep
    exact stepped_answer hl a
  | frame handle timestamp =>
    obtain ⟨h, hframe, rfl⟩ := Option.map_eq_some_iff.mp hstep
    exact .frames hframe

end Stepped

end RtlsStream.App
