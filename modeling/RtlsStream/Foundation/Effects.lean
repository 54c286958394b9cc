/-
  Foundation/Effects.lean --- programs that change a state and may raise, and what of
  them is left when the instrumentation is taken out.

  A program is `ExceptT ε (StateM σ)`: what it did before it raises stays done.  `Agree π p q`
  says that two programs return or raise the same and leave the same behind, as far as `π`
  looks.  It is a congruence for sequencing, `try ... catch` and `try ... finally`, and a
  program that does nothing `π` sees (`Silent`) can be left out anywhere: before another,
  after it, around it.  So a program and its instrumented copy are compared by going through
  the text of both once.
-/
import Mathlib.Logic.Basic

set_option autoImplicit false

namespace RtlsStream.Foundation

variable {ε σ τ α β : Type}

/-- A program over states `σ` that may raise an `ε`. -/
abbrev Program (ε σ α : Type) : Type := ExceptT ε (StateM σ) α

namespace Program

/-- What a program returns or raises, and the state it leaves. -/
def exec (p : Program ε σ α) (s : σ) : Except ε α × σ := p.run s

@[simp] theorem exec_pure (a : α) (s : σ) : exec (pure a : Program ε σ α) s = (.ok a, s) := rfl

@[simp] theorem exec_throw (e : ε) (s : σ) :
    exec (throw e : Program ε σ α) s = (.error e, s) := rfl

@[simp] theorem exec_modify (f : σ → σ) (s : σ) :
    exec (modify f : Program ε σ Unit) s = (.ok (), f s) := rfl

@[simp] theorem exec_get (s : σ) : exec (get : Program ε σ σ) s = (.ok s, s) := rfl

@[simp] theorem exec_ofExcept (x : Except ε α) (s : σ) :
    exec (MonadExcept.ofExcept x : Program ε σ α) s = (x, s) := by
  cases x <;> rfl

theorem exec_bind (p : Program ε σ α) (f : α → Program ε σ β) (s : σ) :
    exec (p >>= f) s =
      match exec p s with
      | (.ok a, t) => exec (f a) t
      | (.error e, t) => (.error e, t) := by
  rcases h : exec p s with ⟨e | a, t⟩ <;> simp only [exec, ExceptT.run] at h ⊢
  · simp [bind, ExceptT.bind, ExceptT.mk, ExceptT.bindCont, StateT.bind, h]
    rfl
  · simp [bind, ExceptT.bind, ExceptT.mk, ExceptT.bindCont, StateT.bind, h]

/-- A sequence returns when both programs do. -/
theorem exec_bind_isOk (p : Program ε σ α) (q : Program ε σ β) (s : σ) :
    (exec (p >>= fun _ => q) s).1.isOk = ((exec p s).1.isOk && (exec q (exec p s).2).1.isOk) := by
  rw [exec_bind]
  rcases exec p s with ⟨e | a, t⟩ <;> rfl

theorem exec_tryCatch (p : Program ε σ α) (handler : ε → Program ε σ α) (s : σ) :
    exec (tryCatch p handler) s =
      match exec p s with
      | (.ok a, t) => (.ok a, t)
      | (.error e, t) => exec (handler e) t := by
  rcases h : exec p s with ⟨e | a, t⟩ <;> simp only [exec, ExceptT.run] at h ⊢
  · simp [tryCatch, tryCatchThe, MonadExceptOf.tryCatch, ExceptT.tryCatch, ExceptT.mk, bind,
      StateT.bind, h]
  · simp [tryCatch, tryCatchThe, MonadExceptOf.tryCatch, ExceptT.tryCatch, ExceptT.mk, bind,
      StateT.bind, h]
    rfl

/-- An exception of the clean-up takes the place of what the program returned or raised. -/
theorem exec_tryFinally (p : Program ε σ α) (cleanUp : Program ε σ β) (s : σ) :
    exec (tryFinally p cleanUp) s =
      match exec p s with
      | (r, t) =>
        match exec cleanUp t with
        | (.ok _, u) => (r, u)
        | (.error e, u) => (.error e, u) := by
  rcases h : exec p s with ⟨e | a, t⟩ <;> rcases h' : exec cleanUp t with ⟨e' | b, u⟩ <;>
    simp only [exec, ExceptT.run] at h h' ⊢ <;>
    simp [tryFinally, tryFinally', ExceptT.mk, bind, StateT.bind, h, h', Functor.map,
      ExceptT.map] <;>
    rfl

/-! ## A part of the state -/

/-- A program on a part of the state. -/
def zoom (part : σ → τ) (set : τ → σ → σ) (p : Program ε τ α) : Program ε σ α :=
  ExceptT.mk fun s => ((exec p (part s)).1, set (exec p (part s)).2 s)

theorem exec_zoom (part : σ → τ) (set : τ → σ → σ) (p : Program ε τ α) (s : σ) :
    exec (zoom part set p) s = ((exec p (part s)).1, set (exec p (part s)).2 s) :=
  rfl

/-! ## Agreement -/

/-- Run where `π` sees the same, `p` and `q` return or raise the same and leave the same for
`π` to see. -/
def Agree (π : σ → τ) (p q : Program ε σ α) : Prop :=
  ∀ s t, π s = π t → (exec p s).1 = (exec q t).1 ∧ π (exec p s).2 = π (exec q t).2

/-- The program returns, and does nothing that `π` sees. -/
def Silent (π : σ → τ) (p : Program ε σ α) : Prop :=
  ∀ s, (∃ a, (exec p s).1 = .ok a) ∧ π (exec p s).2 = π s

namespace Silent

variable {π : σ → τ}

theorem pure (a : α) : Silent π (Pure.pure a : Program ε σ α) :=
  fun _ => ⟨⟨a, rfl⟩, rfl⟩

theorem of_modify {f : σ → σ} (h : ∀ s, π (f s) = π s) :
    Silent π (modify f : Program ε σ Unit) :=
  fun s => ⟨⟨(), rfl⟩, h s⟩

theorem bind {p : Program ε σ α} {f : α → Program ε σ β} (h : Silent π p)
    (hrest : ∀ a, Silent π (f a)) : Silent π (p >>= f) := by
  intro s
  obtain ⟨⟨a, ha⟩, hstate⟩ := h s
  rw [exec_bind]
  rcases hp : exec p s with ⟨r, t⟩
  rw [hp] at ha hstate
  subst ha
  exact ⟨(hrest a t).1, (hrest a t).2.trans hstate⟩

end Silent

namespace Agree

variable {π : σ → τ} {p q : Program ε σ α}

theorem pure (a : α) : Agree π (Pure.pure a : Program ε σ α) (Pure.pure a) :=
  fun _ _ h => ⟨rfl, h⟩

theorem throw (e : ε) : Agree π (MonadExcept.throw e : Program ε σ α) (MonadExcept.throw e) :=
  fun _ _ h => ⟨rfl, h⟩

theorem ofExcept (x : Except ε α) :
    Agree π (MonadExcept.ofExcept x : Program ε σ α) (MonadExcept.ofExcept x) := by
  cases x with
  | ok a => exact .pure a
  | error e => exact .throw e

/-- What is done to a part of the state that `π` looks at. -/
theorem zoom {ρ : Type} {part : σ → ρ} {set : ρ → σ → σ}
    (hpart : ∀ s t, π s = π t → part s = part t)
    (hset : ∀ x s t, π s = π t → π (set x s) = π (set x t)) (p : Program ε ρ α) :
    Agree π (Program.zoom part set p) (Program.zoom part set p) := by
  intro s t h
  simp only [exec_zoom, hpart s t h, hset _ s t h, and_self]

theorem of_modify {f : σ → σ} (h : ∀ s t, π s = π t → π (f s) = π (f t)) :
    Agree π (modify f : Program ε σ Unit) (modify f) :=
  fun s t hst => ⟨rfl, h s t hst⟩

/-- Two programs that do nothing `π` sees. -/
theorem of_silent {p q : Program ε σ Unit} (hp : Silent π p) (hq : Silent π q) : Agree π p q := by
  intro s t hst
  obtain ⟨⟨_, ha⟩, hs⟩ := hp s
  obtain ⟨⟨_, hb⟩, ht⟩ := hq t
  exact ⟨ha.trans hb.symm, hs.trans (hst.trans ht.symm)⟩

theorem bind {f g : α → Program ε σ β} (h : Agree π p q) (hrest : ∀ a, Agree π (f a) (g a)) :
    Agree π (p >>= f) (q >>= g) := by
  intro s t hst
  obtain ⟨hresult, hstate⟩ := h s t hst
  rw [exec_bind, exec_bind]
  rcases hp : exec p s with ⟨e | a, s'⟩ <;> rcases hq : exec q t with ⟨e' | b, t'⟩ <;>
    simp only [hp, hq, Except.error.injEq, Except.ok.injEq, reduceCtorEq] at hresult hstate
  · exact ⟨congrArg Except.error hresult, hstate⟩
  · subst hresult
    exact hrest a s' t' hstate

theorem tryCatch {handler handler' : ε → Program ε σ α} (h : Agree π p q)
    (hhandler : ∀ e, Agree π (handler e) (handler' e)) :
    Agree π (MonadExcept.tryCatch p handler) (MonadExcept.tryCatch q handler') := by
  intro s t hst
  obtain ⟨hresult, hstate⟩ := h s t hst
  rw [exec_tryCatch, exec_tryCatch]
  rcases hp : exec p s with ⟨e | a, s'⟩ <;> rcases hq : exec q t with ⟨e' | b, t'⟩ <;>
    simp only [hp, hq, Except.error.injEq, Except.ok.injEq, reduceCtorEq] at hresult hstate
  · subst hresult
    exact hhandler e s' t' hstate
  · exact ⟨congrArg Except.ok hresult, hstate⟩

/-- What is silent may stand before. -/
theorem before {silent : Program ε σ β} {f : β → Program ε σ α} (hsilent : Silent π silent)
    (h : ∀ b, Agree π (f b) q) : Agree π (silent >>= f) q := by
  intro s t hst
  obtain ⟨⟨b, hb⟩, hstate⟩ := hsilent s
  rw [exec_bind]
  rcases hp : exec silent s with ⟨r, s'⟩
  rw [hp] at hb hstate
  subst hb
  exact h b s' t (hstate.trans hst)

/-- What is silent may stand behind. -/
theorem after {p q : Program ε σ Unit} {silent : Program ε σ Unit} (h : Agree π p q)
    (hsilent : Silent π silent) : Agree π (p >>= fun _ => silent) q := by
  intro s t hst
  obtain ⟨hresult, hstate⟩ := h s t hst
  rw [exec_bind]
  rcases hp : exec p s with ⟨e | a, s'⟩ <;> rw [hp] at hresult hstate
  · exact ⟨hresult, hstate⟩
  · obtain ⟨⟨b, hb⟩, hstate'⟩ := hsilent s'
    exact ⟨hb.trans hresult, hstate'.trans hstate⟩

/-- A handler that raises its exception again, and is silent otherwise, may be left out. -/
theorem reraise {handler : ε → Program ε σ α} (h : Agree π p q)
    (hhandler : ∀ e, Agree π (handler e) (MonadExcept.throw e)) :
    Agree π (MonadExcept.tryCatch p handler) q := by
  have hcatch := h.tryCatch hhandler
  intro s t hst
  have hboth := hcatch s t hst
  have hsame : exec (MonadExcept.tryCatch q fun e => MonadExcept.throw e) t = exec q t := by
    rw [exec_tryCatch]
    rcases exec q t with ⟨e | a, u⟩ <;> rfl
  rwa [hsame] at hboth

/-- What is silent may clean up. -/
theorem around {silent : Program ε σ β} (h : Agree π p q) (hsilent : Silent π silent) :
    Agree π (tryFinally p silent) q := by
  intro s t hst
  obtain ⟨hresult, hstate⟩ := h s t hst
  rw [exec_tryFinally]
  rcases hp : exec p s with ⟨r, s'⟩
  rw [hp] at hresult hstate
  obtain ⟨⟨b, hb⟩, hstate'⟩ := hsilent s'
  rcases hc : exec silent s' with ⟨r', u⟩
  rw [hc] at hb hstate'
  subst hb
  simp only [hc]
  exact ⟨hresult, hstate'.trans hstate⟩

end Agree

end Program

end RtlsStream.Foundation
