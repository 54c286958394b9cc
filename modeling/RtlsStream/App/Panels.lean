/-
  App/Panels.lean --- what a panel says of its loads.

  A panel disables its button from a click to the end of the load, so it has one load in
  flight or none, and `loading` says which.  Loads of panels that are gone do not disturb
  it: what they set is lost.
-/
import RtlsStream.App.Loads

set_option autoImplicit false

namespace RtlsStream.App

open RtlsStream.Foundation RtlsStream.Python

variable {K : Type}

/-- The loads in flight that a panel has started -/
def State.loadsOf (s : State K) (mount : Nat) : Set Nat :=
  {call | ∃ l, s.load call = some l ∧ l.mount = mount}

/-- The panel is loading, with one load in flight and no error, or it is not and has none. -/
def Panel.Tells (panel : Panel) (loads : Set Nat) : Prop :=
  (panel.loading = true ∧ panel.error = none ∧ ∃ call, loads = {call}) ∨
    (panel.loading = false ∧ loads = ∅)

structure Truthful (s : State K) : Prop where
  known : ∀ call l, s.load call = some l → call < s.calls ∧ l.mount < s.mounts
  screen : ∀ mount panel, s.screen = .history mount panel → mount < s.mounts
  panel : ∀ mount panel, s.screen = .history mount panel → panel.Tells (s.loadsOf mount)

/-! ## Loads that start, go on and end -/

section LoadsOf

variable {s t : State K} {call mount : Nat} {l : Load K}

theorem loadsOf_congr (hload : t.load = s.load) (mount : Nat) :
    t.loadsOf mount = s.loadsOf mount := by
  simp only [State.loadsOf, hload]

theorem loadsOf_goesOn {next : Load K} (hl : s.load call = some l) (hnext : next.mount = l.mount)
    (ht : t.load = Function.update s.load call (some next)) :
    t.loadsOf mount = s.loadsOf mount := by
  ext call'
  by_cases hcall : call' = call
  · subst hcall
    simp [State.loadsOf, ht, hl, hnext]
  · simp [State.loadsOf, ht, Function.update_of_ne hcall]

theorem loadsOf_ends (ht : t.load = Function.update s.load call none) :
    t.loadsOf mount = s.loadsOf mount \ {call} := by
  ext call'
  by_cases hcall : call' = call
  · subst hcall
    simp [State.loadsOf, ht]
  · simp [State.loadsOf, ht, hcall]

/-- A load that ends is none of another panel. -/
theorem loadsOf_ends_other (hl : s.load call = some l) (hmount : mount ≠ l.mount)
    (ht : t.load = Function.update s.load call none) : t.loadsOf mount = s.loadsOf mount := by
  rw [loadsOf_ends ht]
  refine Set.sdiff_singleton_eq_self ?_
  rintro ⟨l', hl', rfl⟩
  exact hmount (congrArg Load.mount (Option.some.inj (hl'.symm.trans hl)))

end LoadsOf

variable [Field K] [LinearOrder K] {s t : State K} {e : Event K}

namespace Truthful

omit [Field K] [LinearOrder K] in
/-- The panel is told of its load, and of no other, when it ends. -/
theorem ends (hs : Truthful s) {call : Nat} {l : Load K} (hl : s.load call = some l)
    {u : State K} (hscreen : u.screen = s.screen) (hmounts : u.mounts = s.mounts)
    (hcalls : u.calls = s.calls) (hload : u.load = Function.update s.load call none)
    {f : Panel → Panel} (hf : ∀ panel, (f panel).loading = false) :
    Truthful (u.setPanel l.mount f) where
  known call' l' hl' := by
    rw [setPanel_load, hload] at hl'
    rw [setPanel_calls, setPanel_mounts, hcalls, hmounts]
    by_cases hcall : call' = call
    · subst hcall
      simp at hl'
    · rw [Function.update_of_ne hcall] at hl'
      exact hs.known call' l' hl'
  screen mount panel hpanel := by
    obtain ⟨before, hbefore, -⟩ := setPanel_screen.mp hpanel
    rw [setPanel_mounts, hmounts]
    exact hs.screen mount before (hscreen ▸ hbefore)
  panel mount panel hpanel := by
    obtain ⟨before, hbefore, rfl⟩ := setPanel_screen.mp hpanel
    have htells := hs.panel mount before (hscreen ▸ hbefore)
    rw [loadsOf_congr (setPanel_load ..)]
    by_cases hmount : mount = l.mount
    · subst hmount
      have hmem : call ∈ s.loadsOf l.mount := ⟨l, hl, rfl⟩
      rw [if_pos rfl, loadsOf_ends hload]
      rcases htells with ⟨-, -, call', hone⟩ | ⟨-, hnone⟩
      · rw [hone] at hmem
        obtain rfl : call = call' := hmem
        exact .inr ⟨hf before, by simp [hone]⟩
      · rw [hnone] at hmem
        cases hmem
    · rwa [if_neg hmount, loadsOf_ends_other hl hmount hload]

omit [Field K] [LinearOrder K] in
/-- The panels that are gone, the player and what it holds do not matter. -/
theorem congr (hs : Truthful s) (hload : t.load = s.load) (hcalls : t.calls = s.calls)
    (hmounts : s.mounts ≤ t.mounts)
    (hscreen : ∀ mount panel, t.screen = .history mount panel → mount < t.mounts ∧
      panel.Tells (s.loadsOf mount)) : Truthful t where
  known call l hl := by
    obtain ⟨hcall, hmount⟩ := hs.known call l (hload ▸ hl)
    exact ⟨hcalls ▸ hcall, Nat.lt_of_lt_of_le hmount hmounts⟩
  screen mount panel hpanel := (hscreen mount panel hpanel).1
  panel mount panel hpanel := by
    rw [loadsOf_congr hload]
    exact (hscreen mount panel hpanel).2

omit [Field K] [LinearOrder K] in
/-- The panel on the screen stays. -/
theorem same (hs : Truthful s) (hload : t.load = s.load) (hcalls : t.calls = s.calls)
    (hmounts : t.mounts = s.mounts) (hscreen : t.screen = s.screen) : Truthful t :=
  hs.congr hload hcalls hmounts.ge fun mount panel hpanel =>
    ⟨hmounts ▸ hs.screen mount panel (hscreen ▸ hpanel), hs.panel mount panel (hscreen ▸ hpanel)⟩

omit [Field K] [LinearOrder K] in
/-- A panel that is changed elsewhere -/
theorem edit (hs : Truthful s) (mount : Nat) {f : Panel → Panel}
    (hloading : ∀ panel, (f panel).loading = panel.loading)
    (herror : ∀ panel, (f panel).error = panel.error) : Truthful (s.setPanel mount f) := by
  refine hs.congr (by simp) (by simp) (by simp) fun mount' panel hpanel => ?_
  obtain ⟨before, hbefore, rfl⟩ := setPanel_screen.mp hpanel
  rw [setPanel_mounts]
  refine ⟨hs.screen mount' before hbefore, ?_⟩
  have htells := hs.panel mount' before hbefore
  split
  · unfold Panel.Tells
    rwa [hloading, herror]
  · exact htells

omit [Field K] [LinearOrder K] in
/-- The panel that a load starts in has no other. -/
theorem starts (hs : Truthful s) {mount : Nat} {panel : Panel} {l : Load K}
    (hscreen : s.screen = .history mount panel) (hloading : panel.loading = false)
    (hl : l.mount = mount) :
    Truthful { s with
      screen := .history mount { panel with loading := true, error := none }
      load := Function.update s.load s.calls (some l)
      calls := s.calls + 1 } where
  known call l' hl' := by
    by_cases hcall : call = s.calls
    · subst hcall
      simp only [Function.update_self, Option.some.injEq] at hl'
      rw [← hl', hl]
      exact ⟨Nat.lt_succ_self _, hs.screen mount panel hscreen⟩
    · simp only [Function.update_of_ne hcall] at hl'
      obtain ⟨hlt, hknown⟩ := hs.known call l' hl'
      exact ⟨Nat.lt_succ_of_lt hlt, hknown⟩
  screen := by
    rintro _ _ ⟨⟩
    exact hs.screen mount panel hscreen
  panel := by
    rintro _ _ ⟨⟩
    refine .inl ⟨rfl, rfl, s.calls, ?_⟩
    have hnone : s.loadsOf mount = ∅ := by
      rcases hs.panel mount panel hscreen with ⟨hloads, -⟩ | ⟨-, hnone⟩
      · cases hloading.symm.trans hloads
      · exact hnone
    ext call
    by_cases hcall : call = s.calls
    · subst hcall
      simp [State.loadsOf, hl]
    · have hother : call ∉ s.loadsOf mount := by simp [hnone]
      simpa [State.loadsOf, hcall] using hother

omit [Field K] [LinearOrder K] in
/-- A load that goes on is the panel's as before. -/
theorem goesOn (hs : Truthful s) {call : Nat} {l next : Load K} (hl : s.load call = some l)
    (hnext : next.mount = l.mount) :
    Truthful { s with load := Function.update s.load call (some next) } where
  known call' l' hl' := by
    by_cases hcall : call' = call
    · subst hcall
      simp only [Function.update_self, Option.some.injEq] at hl'
      rw [← hl', hnext]
      exact hs.known call' l hl
    · simp only [Function.update_of_ne hcall] at hl'
      exact hs.known call' l' hl'
  screen := hs.screen
  panel mount panel hpanel := by
    rw [loadsOf_goesOn hl hnext rfl]
    exact hs.panel mount panel hpanel

omit [Field K] [LinearOrder K] in
/-- A new panel has no load yet. -/
theorem mounts (hs : Truthful s) :
    Truthful { s with screen := .history s.mounts .fresh, mounts := s.mounts + 1 } := by
  refine hs.congr rfl rfl (Nat.le_succ _) ?_
  rintro _ _ ⟨⟩
  refine ⟨Nat.lt_succ_self _, .inr ⟨rfl, Set.eq_empty_of_forall_notMem ?_⟩⟩
  rintro call ⟨l, hl, hmount⟩
  have hknown := (hs.known call l hl).2
  omega

theorem step (hs : Truthful s) (hstep : step s e = some t) : Truthful t := by
  cases stepped hstep with
  | goesLive => exact hs.congr rfl rfl le_rfl fun _ _ hpanel => by cases hpanel
  | mounts => exact hs.mounts
  | stays => exact hs
  | edits mount hloading herror => exact hs.edit mount hloading herror
  | starts hscreen hloading hmount => exact hs.starts hscreen hloading hmount
  | resets | controls | frames => exact hs.same rfl rfl rfl rfl
  | asks hl hreceive => exact hs.goesOn hl (receive_mount hreceive)
  | loads hl | fails hl => refine hs.ends hl ?_ ?_ ?_ ?_ fun _ => ?_ <;> rfl

end Truthful

/-- Whatever the user does and however the server answers: the panel on the screen says that it
is loading, and shows no error, while exactly one load of its own is in flight, and says that
it is not while there is none. -/
theorem panel_truthful {events : List (Event K)} (hrun : run events = some s) {mount : Nat}
    {panel : Panel} (hscreen : s.screen = .history mount panel) :
    panel.Tells (s.loadsOf mount) := by
  have htruthful := foldlM_induction (P := fun _ s => Truthful s)
    ⟨by simp [State.init], by simp [State.init], by simp [State.init]⟩
    (fun _ _ _ _ _ hs hstep => hs.step hstep) hrun
  exact htruthful.panel mount panel hscreen

section Examples

/-- A load that fails, after the user has ticked another tag. -/
def failedLoad : List (Event ℚ) :=
  [.switchAppMode .history, .toggleTag (text "A"), .clickLoad, .toggleTag (text "B"),
    .answer 0 (.notOk 500)]

theorem panel_truthful_failed : ∃ s mount panel, run failedLoad = some s ∧
    s.screen = .history mount panel ∧ panel.error = some (text "HTTP 500 for A") ∧
    s.loadsOf mount = ∅ := by
  obtain ⟨s, hrun⟩ : ∃ s, run failedLoad = some s := ⟨_, rfl⟩
  have hscreen : (run failedLoad).map (·.screen) = some (.history 0 {
      selectedTags := [text "A", text "B"]
      fromTs := []
      toTs := []
      loading := false
      error := some (text "HTTP 500 for A") }) := rfl
  rw [hrun, Option.map_some, Option.some.injEq] at hscreen
  refine ⟨s, _, _, hrun, hscreen, rfl, ?_⟩
  rcases panel_truthful hrun hscreen with ⟨hloading, -⟩ | ⟨-, hnone⟩
  · cases hloading
  · exact hnone

end Examples

end RtlsStream.App
