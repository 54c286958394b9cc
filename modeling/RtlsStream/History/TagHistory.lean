/-
  History/TagHistory.lean --- `useTagHistory`.

  Every change of the selection calls `fetchHistory` anew, and each call goes on by itself
  once its response is there.  Nothing ties a response to the selection it was asked for:
  whichever arrives last is shown, and an error of an earlier tag stays when the
  selection is cleared.  As long as no fetch settles after a later selection and no
  error is shown when the selection is cleared, what is shown is the history of what is
  selected (`history_of_selected_iff`).
-/
import RtlsStream.Foundation.Machine
import RtlsStream.Python.Json
import Mathlib.Logic.Function.Basic

set_option autoImplicit false

namespace RtlsStream.History.TagHistory

open RtlsStream.Foundation RtlsStream.Python

/-! ## The hook -/

/-- What the hook is called with; `T` are the timestamps. -/
structure Selection (T : Type) where
  tagId : Option Str
  fromTs : Option T
  toTs : Option T
  deriving DecidableEq

/-- The tag, unless `!tagId`. -/
def Selection.tag {T : Type} (sel : Selection T) : Option Str := sel.tagId.filter (· ≠ [])

/-- `HistoryResponse`; `P` are the positions. -/
structure HistoryResponse (P : Type) where
  items : List P
  total : Int

/-- What `fetch` and `res.json` may throw: an `Error`, or something else. -/
inductive Thrown where
  | error (message : Str)
  | other

/-- `err instanceof Error ? err.message : "Unknown error"` -/
def Thrown.message : Thrown → Str
  | .error message => message
  | .other => text "Unknown error"

/-- The state of the hook. -/
structure Hook (P : Type) where
  data : List P
  total : Int
  loading : Bool
  error : Option Str

def Hook.init {P : Type} : Hook P := ⟨[], 0, false, none⟩

/-- What an outstanding fetch waits for. -/
inductive Phase where
  | response
  | body
  deriving DecidableEq

/-- A fetch with the parameters of its URL. -/
structure Fetch where
  params : Dict Str
  phase : Phase

/-- A call of `setData`: the call of `fetchHistory` that made it, and how many of these there
had been by then. -/
structure Store where
  call : Nat
  calls : Nat

/-- The hook, the selection of its last effect, and the fetches that are outstanding, each under
the number of the call of `fetchHistory` that started it. -/
structure State (P T : Type) where
  hook : Hook P
  selection : Option (Selection T)
  calls : Nat
  fetch : Nat → Option Fetch
  stores : List Store

def State.init {P T : Type} : State P T := ⟨.init, none, 0, fun _ => none, []⟩

inductive Event (P T : Type) where
  /-- the component renders with these arguments -/
  | select (sel : Selection T)
  /-- `fetch` of a call resolves with a status, or rejects -/
  | respond (call : Nat) (response : Except Thrown Nat)
  /-- `res.json` of a call resolves, or rejects -/
  | parse (call : Nat) (body : Except Thrown (HistoryResponse P))

/-- `res.ok` -/
def isOk (status : Nat) : Bool := 200 ≤ status && status ≤ 299

/-- The message of `new Error`. -/
def httpError (status : Nat) : Str := text "HTTP " ++ natText status

section

variable {P T : Type} [DecidableEq T] (string : T → Str)

namespace State

omit [DecidableEq T] in
/-- `URLSearchParams`; `string` is `String` of a timestamp. -/
def params (sel : Selection T) (tag : Str) : Dict Str :=
  let params : Dict Str := [(text "tag_id", tag)]
  let params := match sel.fromTs with
    | some fromTs => params.set (text "from_ts") (string fromTs)
    | none => params
  let params := match sel.toTs with
    | some toTs => params.set (text "to_ts") (string toTs)
    | none => params
  params.set (text "limit") (text "1000")

omit [DecidableEq T] in
/-- `setData`, called by a call of `fetchHistory` -/
def setData (s : State P T) (call : Nat) (data : List P) : State P T :=
  { s with
    hook := { s.hook with data := data }
    stores := s.stores ++ [⟨call, s.calls⟩] }

omit [DecidableEq T] in
/-- A new call of `fetchHistory`, up to its first `await`. -/
def fetchHistory (s : State P T) (sel : Selection T) : State P T :=
  let call := s.calls
  let s := { s with selection := some sel, calls := s.calls + 1 }
  match sel.tag with
  | none =>
    let s := s.setData call []
    { s with hook := { s.hook with total := 0 } }
  | some tag =>
    { s with
      hook := { s.hook with loading := true, error := none }
      fetch := Function.update s.fetch call (some ⟨params string sel tag, .response⟩) }

omit [DecidableEq T] in
/-- The rest of the `try` block, and `finally`. -/
def succeed (s : State P T) (call : Nat) (body : HistoryResponse P) : State P T :=
  let s := s.setData call body.items
  { s with
    hook := { s.hook with total := body.total, loading := false }
    fetch := Function.update s.fetch call none }

omit [DecidableEq T] in
/-- The `catch` block, and `finally`. -/
def fail (s : State P T) (call : Nat) (message : Str) : State P T :=
  let s := s.setData call []
  { s with
    hook := { s.hook with error := some message, total := 0, loading := false }
    fetch := Function.update s.fetch call none }

omit [DecidableEq T] in
/-- The end of a call, one way or the other. -/
def settle (s : State P T) (call : Nat) : Except Str (HistoryResponse P) → State P T
  | .ok body => s.succeed call body
  | .error message => s.fail call message

end State

/-- One event; the effect runs only if the selection has changed. -/
def step (s : State P T) : Event P T → Option (State P T)
  | .select sel => if s.selection = some sel then some s else some (s.fetchHistory string sel)
  | .respond call response =>
    match s.fetch call with
    | some ⟨params, .response⟩ =>
      match response with
      | .ok status =>
        if isOk status then
          some { s with fetch := Function.update s.fetch call (some ⟨params, .body⟩) }
        else some (s.fail call (httpError status))
      | .error err => some (s.fail call err.message)
    | _ => none
  | .parse call body =>
    match s.fetch call with
    | some ⟨_, .body⟩ =>
      match body with
      | .ok body => some (s.succeed call body)
      | .error err => some (s.fail call err.message)
    | _ => none

/-- The state after these events, if they can happen one after the other. -/
def run (events : List (Event P T)) : Option (State P T) := events.foldlM (step string) .init

omit [DecidableEq T]

/-- The call that an event ends, and how. -/
def settlement : Event P T → Option (Nat × Except Str (HistoryResponse P))
  | .select _ => none
  | .respond call (.ok status) =>
    if isOk status then none else some (call, .error (httpError status))
  | .respond call (.error err) => some (call, .error err.message)
  | .parse call (.ok body) => some (call, .ok body)
  | .parse call (.error err) => some (call, .error err.message)

/-- How the fetch of a call has ended. -/
def outcome (events : List (Event P T)) (call : Nat) : Option (Except Str (HistoryResponse P)) :=
  events.findSome? fun e =>
    (settlement e).bind fun settled => if settled.1 = call then some settled.2 else none

/-- What the component is shown. -/
structure Shown (P : Type) where
  data : List P
  total : Int
  error : Option Str

def Hook.shown (h : Hook P) : Shown P := ⟨h.data, h.total, h.error⟩

def Shown.empty : Shown P := ⟨[], 0, none⟩

/-- What a fetch has to show. -/
def Shown.of : Except Str (HistoryResponse P) → Shown P
  | .ok body => ⟨body.items, body.total, none⟩
  | .error message => ⟨[], 0, some message⟩

end

/-! ## What an event does -/

section

variable {P T : Type} {string : T → Str}

namespace State

/-- The fetch of a call is outstanding. -/
def Outstanding (s : State P T) (call : Nat) : Prop := (s.fetch call).isSome

@[simp] theorem settle_selection (s : State P T) (call : Nat) (r : Except Str (HistoryResponse P)) :
    (s.settle call r).selection = s.selection := by cases r <;> rfl

@[simp] theorem settle_calls (s : State P T) (call : Nat) (r : Except Str (HistoryResponse P)) :
    (s.settle call r).calls = s.calls := by cases r <;> rfl

@[simp] theorem settle_fetch (s : State P T) (call : Nat) (r : Except Str (HistoryResponse P)) :
    (s.settle call r).fetch = Function.update s.fetch call none := by cases r <;> rfl

@[simp] theorem settle_stores (s : State P T) (call : Nat) (r : Except Str (HistoryResponse P)) :
    (s.settle call r).stores = s.stores ++ [⟨call, s.calls⟩] := by cases r <;> rfl

/-- A success leaves the error as it is, so it shows the response only where there is none. -/
theorem settle_shown {s : State P T} (herror : s.hook.error = none) (call : Nat)
    (r : Except Str (HistoryResponse P)) : (s.settle call r).hook.shown = Shown.of r := by
  cases r with
  | ok body => simp [settle, succeed, setData, Hook.shown, Shown.of, herror]
  | error message => rfl

/-- A selection without a tag clears the data, but not the error. -/
theorem fetchHistory_of_none {s : State P T} {sel : Selection T} (htag : sel.tag = none) :
    s.fetchHistory string sel =
      { s with
        hook := { s.hook with data := [], total := 0 }
        selection := some sel
        calls := s.calls + 1
        stores := s.stores ++ [⟨s.calls, s.calls + 1⟩] } := by
  simp [fetchHistory, htag, setData]

theorem fetchHistory_of_some {s : State P T} {sel : Selection T} {tag : Str}
    (htag : sel.tag = some tag) :
    s.fetchHistory string sel =
      { s with
        hook := { s.hook with loading := true, error := none }
        selection := some sel
        calls := s.calls + 1
        fetch := Function.update s.fetch s.calls (some ⟨params string sel tag, .response⟩) } := by
  simp [fetchHistory, htag]

end State

/-- What one event can do. -/
inductive Stepped (string : T → Str) (s : State P T) : Event P T → State P T → Prop where
  | same {sel : Selection T} (hsame : s.selection = some sel) : Stepped string s (.select sel) s
  | fetches {sel : Selection T} (hnew : s.selection ≠ some sel) :
    Stepped string s (.select sel) (s.fetchHistory string sel)
  | reads {call status : Nat} {params : Dict Str} (hfetch : s.Outstanding call)
    (hok : isOk status) : Stepped string s (.respond call (.ok status))
      { s with fetch := Function.update s.fetch call (some ⟨params, .body⟩) }
  | settles {e : Event P T} {call : Nat} {r : Except Str (HistoryResponse P)}
    (hfetch : s.Outstanding call) (hsettled : settlement e = some (call, r)) :
    Stepped string s e (s.settle call r)

theorem stepped [DecidableEq T] {s t : State P T} {e : Event P T} (h : step string s e = some t) :
    Stepped string s e t := by
  cases e with
  | select sel =>
    rw [step] at h
    split at h
    · rename_i hsame
      obtain rfl := Option.some.inj h
      exact .same hsame
    · rename_i hnew
      obtain rfl := Option.some.inj h
      exact .fetches hnew
  | respond call response =>
    simp only [step] at h
    split at h
    · rename_i params hfetch
      have houtstanding : s.Outstanding call := Option.isSome_of_eq_some hfetch
      cases response with
      | ok status =>
        simp only at h
        split at h
        · rename_i hok
          obtain rfl := Option.some.inj h
          exact .reads houtstanding hok
        · rename_i hbad
          obtain rfl := Option.some.inj h
          exact .settles (r := .error (httpError status)) houtstanding (if_neg hbad)
      | error err =>
        obtain rfl := Option.some.inj h
        exact .settles (r := .error err.message) houtstanding rfl
    · cases h
  | parse call body =>
    simp only [step] at h
    split at h
    · rename_i params hfetch
      have houtstanding : s.Outstanding call := Option.isSome_of_eq_some hfetch
      cases body with
      | ok body =>
        obtain rfl := Option.some.inj h
        exact .settles (r := .ok body) houtstanding rfl
      | error err =>
        obtain rfl := Option.some.inj h
        exact .settles (r := .error err.message) houtstanding rfl
    · cases h

/-- An event that ends a call does just that. -/
theorem eq_settle [DecidableEq T] {s t : State P T} {e : Event P T} {call : Nat}
    {r : Except Str (HistoryResponse P)} (h : step string s e = some t)
    (hsettled : settlement e = some (call, r)) : t = s.settle call r := by
  cases stepped h with
  | same | fetches => cases hsettled
  | reads _ hok =>
    rw [settlement, if_pos hok] at hsettled
    cases hsettled
  | settles _ hsettled' =>
    obtain ⟨rfl, rfl⟩ := Prod.mk.inj (Option.some.inj (hsettled'.symm.trans hsettled))
    rfl

/-! ## Outcomes -/

theorem outcome_concat (events : List (Event P T)) (e : Event P T) (call : Nat) :
    outcome (events ++ [e]) call = (outcome events call).or
      ((settlement e).bind fun settled => if settled.1 = call then some settled.2 else none) := by
  simp [outcome, List.findSome?_append]

/-- An event that ends no call changes no outcome. -/
theorem outcome_of_none (events : List (Event P T)) {e : Event P T} (h : settlement e = none)
    (call : Nat) : outcome (events ++ [e]) call = outcome events call := by
  rw [outcome_concat, h, Option.bind_none, Option.or_none]

theorem outcome_self {events : List (Event P T)} {e : Event P T} {call : Nat}
    {r : Except Str (HistoryResponse P)} (h : settlement e = some (call, r))
    (hnone : outcome events call = none) : outcome (events ++ [e]) call = some r := by
  simp [outcome_concat, h, hnone]

theorem outcome_other (events : List (Event P T)) {e : Event P T} {call other : Nat}
    {r : Except Str (HistoryResponse P)} (h : settlement e = some (call, r)) (hne : call ≠ other) :
    outcome (events ++ [e]) other = outcome events other := by
  simp [outcome_concat, h, hne]

/-! ## What is shown -/

/-- When no fetch is outstanding the hook shows how the fetch of the last call ended, or nothing
if that call had no tag to fetch. -/
def ShowsSelected (events : List (Event P T)) (s : State P T) : Prop :=
  (∀ call, ¬s.Outstanding call) → ∀ sel last, s.selection = some sel → s.calls = last + 1 →
    match sel.tag with
    | some _ => ∃ r, outcome events last = some r ∧ s.hook.shown = Shown.of r
    | none => s.hook.shown = .empty

/-- At every point of a run the hook shows the history of what is selected, and what was stored
was never stored for an earlier call. -/
def HistoryOfSelected [DecidableEq T] (string : T → Str) (events : List (Event P T)) : Prop :=
  ∀ before after s, events = before ++ after → run string before = some s →
    ShowsSelected before s ∧ ∀ store ∈ s.stores, store.call + 1 = store.calls

/-- An event that does no harm: a call ends while it is the last one, and a selection without a
tag finds no error, unless a fetch is outstanding. -/
structure Orderly (s : State P T) (e : Event P T) : Prop where
  latest : ∀ call r, settlement e = some (call, r) → call + 1 = s.calls
  quiet : ∀ sel, e = .select sel → s.selection ≠ some sel → sel.tag = none →
    s.hook.error = none ∨ ∃ call, s.Outstanding call

/-- Every event of the run is orderly. -/
def InOrder [DecidableEq T] (string : T → Str) (events : List (Event P T)) : Prop :=
  ∀ before e after s t, events = before ++ e :: after → run string before = some s →
    step string s e = some t → Orderly s e

/-- Where the last call stands. -/
inductive Current (events : List (Event P T)) (s : State P T) : Prop where
  | start (hcalls : s.calls = 0)
  | loading {sel : Selection T} {tag : Str} {last : Nat} (hselected : s.selection = some sel)
    (htag : sel.tag = some tag) (hcalls : s.calls = last + 1) (hfetch : s.Outstanding last)
    (herror : s.hook.error = none)
  | loaded {sel : Selection T} {tag : Str} {last : Nat} {r : Except Str (HistoryResponse P)}
    (hselected : s.selection = some sel) (htag : sel.tag = some tag) (hcalls : s.calls = last + 1)
    (hfetch : ¬s.Outstanding last) (hended : outcome events last = some r)
    (hshown : s.hook.shown = Shown.of r)
  | cleared {sel : Selection T} {last : Nat} (hselected : s.selection = some sel)
    (htag : sel.tag = none) (hcalls : s.calls = last + 1) (hfetch : ¬s.Outstanding last)
    (hdata : s.hook.data = []) (htotal : s.hook.total = 0)
    (herror : s.hook.error = none ∨ ∃ call, s.Outstanding call)

/-- The invariant. -/
structure Kept (events : List (Event P T)) (s : State P T) : Prop where
  calls : ∀ call, s.calls ≤ call → ¬s.Outstanding call ∧ outcome events call = none
  unsettled : ∀ call, s.Outstanding call → outcome events call = none
  stores : ∀ store ∈ s.stores, store.call + 1 = store.calls
  current : Current events s

namespace Kept

variable {events : List (Event P T)} {s : State P T}

theorem init : Kept ([] : List (Event P T)) (State.init : State P T) where
  calls _ _ := ⟨by simp [State.Outstanding, State.init], rfl⟩
  unsettled _ _ := rfl
  stores := by simp [State.init]
  current := .start rfl

/-- Once nothing is outstanding the last call has ended. -/
theorem showsSelected (h : Kept events s) : ShowsSelected events s := by
  intro hnone sel last hselected hcalls
  cases h.current with
  | start hstart => omega
  | loading _ _ _ hfetch _ => exact absurd hfetch (hnone _)
  | @loaded sel' _ last' r hselected' htag hcalls' _ hended hshown =>
    obtain rfl : sel = sel' := Option.some.inj (hselected.symm.trans hselected')
    obtain rfl : last = last' := by omega
    rw [htag]
    exact ⟨r, hended, hshown⟩
  | @cleared sel' _ hselected' htag _ _ hdata htotal herror =>
    obtain rfl : sel = sel' := Option.some.inj (hselected.symm.trans hselected')
    have hclear : s.hook.error = none := by
      rcases herror with hclear | ⟨call, hcall⟩
      · exact hclear
      · exact absurd hcall (hnone call)
    rw [htag, Hook.shown, hdata, htotal, hclear]
    rfl

/-- An event that ends no call is no news of the fetches. -/
theorem skip (h : Kept events s) {e : Event P T} (hnone : settlement e = none) :
    Kept (events ++ [e]) s := by
  have hsame := outcome_of_none events hnone
  constructor
  case calls =>
    intro call hcall
    rw [hsame]
    exact h.calls call hcall
  case unsettled =>
    intro call hcall
    rw [hsame]
    exact h.unsettled call hcall
  case stores => exact h.stores
  case current =>
    cases h.current with
    | start hcalls => exact .start hcalls
    | loading hselected htag hcalls hfetch herror =>
      exact .loading hselected htag hcalls hfetch herror
    | loaded hselected htag hcalls hfetch hended hshown =>
      exact .loaded hselected htag hcalls hfetch ((hsame _).trans hended) hshown
    | cleared hselected htag hcalls hfetch hdata htotal herror =>
      exact .cleared hselected htag hcalls hfetch hdata htotal herror

/-- A selection without a tag. -/
theorem clear (h : Kept events s) {sel : Selection T} (htag : sel.tag = none)
    (herror : s.hook.error = none ∨ ∃ call, s.Outstanding call) :
    Kept events (s.fetchHistory string sel) := by
  rw [State.fetchHistory_of_none htag]
  constructor
  case calls => exact fun call hcall => h.calls call (Nat.le_of_succ_le hcall)
  case unsettled => exact h.unsettled
  case stores => exact List.forall_mem_append.mpr ⟨h.stores, by simp⟩
  case current => exact .cleared rfl htag rfl (h.calls s.calls le_rfl).1 rfl rfl herror

/-- A selection with a tag. -/
theorem ask (h : Kept events s) {sel : Selection T} {tag : Str} (htag : sel.tag = some tag) :
    Kept events (s.fetchHistory string sel) := by
  rw [State.fetchHistory_of_some htag]
  constructor
  case calls =>
    intro call hcall
    have hlt : s.calls < call := hcall
    have hbefore := h.calls call hlt.le
    exact ⟨by simpa [State.Outstanding, hlt.ne'] using hbefore.1, hbefore.2⟩
  case unsettled =>
    intro call hcall
    by_cases hnew : call = s.calls
    · exact (h.calls call hnew.ge).2
    · exact h.unsettled call (by simpa [State.Outstanding, hnew] using hcall)
  case stores => exact h.stores
  case current => exact .loading rfl htag rfl (by simp [State.Outstanding]) rfl

/-- The body of a response is waited for. -/
theorem read (h : Kept events s) {call : Nat} {params : Dict Str} (hfetch : s.Outstanding call) :
    Kept events { s with fetch := Function.update s.fetch call (some ⟨params, .body⟩) } := by
  have hsame : ∀ other, State.Outstanding
      { s with fetch := Function.update s.fetch call (some ⟨params, .body⟩) } other ↔
        s.Outstanding other := by
    intro other
    by_cases hother : other = call
    · subst hother
      simpa [State.Outstanding] using hfetch
    · simp [State.Outstanding, hother]
  constructor
  case calls =>
    intro other hother
    rw [hsame]
    exact h.calls other hother
  case unsettled => exact fun other hother => h.unsettled other ((hsame other).mp hother)
  case stores => exact h.stores
  case current =>
    cases h.current with
    | start hcalls => exact .start hcalls
    | loading hselected htag hcalls hlast herror =>
      exact .loading hselected htag hcalls ((hsame _).mpr hlast) herror
    | loaded hselected htag hcalls hlast hended hshown =>
      exact .loaded hselected htag hcalls (mt (hsame _).mp hlast) hended hshown
    | cleared hselected htag hcalls hlast hdata htotal herror =>
      exact .cleared hselected htag hcalls (mt (hsame _).mp hlast) hdata htotal
        (herror.imp id fun ⟨other, hother⟩ => ⟨other, (hsame other).mpr hother⟩)

/-- The last call ends. -/
theorem settle (h : Kept events s) {e : Event P T} {call : Nat}
    {r : Except Str (HistoryResponse P)} (hfetch : s.Outstanding call)
    (hsettled : settlement e = some (call, r)) (hlatest : call + 1 = s.calls) :
    Kept (events ++ [e]) (s.settle call r) := by
  have hsame : ∀ other, (s.settle call r).Outstanding other ↔
      other ≠ call ∧ s.Outstanding other := by
    intro other
    by_cases hother : other = call
    · simp [State.Outstanding, hother]
    · simp [State.Outstanding, hother]
  constructor
  case calls =>
    intro other hother
    rw [State.settle_calls] at hother
    have hbefore := h.calls other hother
    rw [hsame, outcome_other _ hsettled (by omega)]
    exact ⟨fun hout => hbefore.1 hout.2, hbefore.2⟩
  case unsettled =>
    intro other hother
    obtain ⟨hne, hother⟩ := (hsame other).mp hother
    rw [outcome_other _ hsettled (Ne.symm hne)]
    exact h.unsettled other hother
  case stores =>
    rw [State.settle_stores]
    exact List.forall_mem_append.mpr ⟨h.stores, by simpa using hlatest⟩
  case current =>
    cases h.current with
    | start hcalls => omega
    | @loading _ _ last hselected htag hcalls _ herror =>
      obtain rfl : call = last := by omega
      exact .loaded (by simpa using hselected) htag (by simpa using hcalls) (by simp [hsame])
        (outcome_self hsettled (h.unsettled call hfetch)) (State.settle_shown herror call r)
    | @loaded _ _ last _ _ _ hcalls hlast _ _ =>
      obtain rfl : call = last := by omega
      exact absurd hfetch hlast
    | @cleared _ last _ _ hcalls hlast _ _ _ =>
      obtain rfl : call = last := by omega
      exact absurd hfetch hlast

/-- The step lemma. -/
theorem step [DecidableEq T] (h : Kept events s) {e : Event P T} {t : State P T}
    (hstep : TagHistory.step string s e = some t) (horderly : Orderly s e) :
    Kept (events ++ [e]) t := by
  cases stepped hstep with
  | same _ => exact h.skip rfl
  | @fetches sel hnew =>
    cases htag : sel.tag with
    | none => exact (h.clear htag (horderly.quiet sel rfl hnew htag)).skip rfl
    | some tag => exact (h.ask htag).skip rfl
  | reads hfetch hok => exact (h.read hfetch).skip (if_pos hok)
  | settles hfetch hsettled => exact h.settle hfetch hsettled (horderly.latest _ _ hsettled)

/-- The run lemma. -/
theorem run [DecidableEq T] {before after : List (Event P T)} {s : State P T}
    (horder : InOrder string (before ++ after)) (hrun : TagHistory.run string before = some s) :
    Kept before s := by
  refine foldlM_induction
    (P := fun front s => ∀ back, before ++ after = front ++ back → Kept front s) ?_ ?_ hrun after rfl
  · exact fun _ _ => .init
  · intro front s e t hfront ih hstep back hsplit
    rw [List.append_assoc, List.singleton_append] at hsplit
    exact (ih _ hsplit).step hstep (horder front e back s t hsplit hfront hstep)

end Kept

/-- A run shows the history of what is selected if and only if no fetch ends after a later
selection, and no error is left over from before when the selection is cleared. -/
theorem history_of_selected_iff [DecidableEq T] (string : T → Str) (events : List (Event P T)) :
    HistoryOfSelected string events ↔ InOrder string events := by
  constructor
  · intro hshows before e after s t hsplit hrun hstep
    have hnext : run string (before ++ [e]) = some t := foldlM_concat.mpr ⟨s, hrun, hstep⟩
    obtain ⟨hshown, hstores⟩ := hshows (before ++ [e]) after t (by simpa using hsplit) hnext
    constructor
    case latest =>
      intro call r hsettled
      rw [eq_settle hstep hsettled, State.settle_stores] at hstores
      exact hstores ⟨call, s.calls⟩ (by simp)
    case quiet =>
      rintro sel rfl hnew htag
      rw [step, if_neg hnew, Option.some.injEq] at hstep
      by_contra hnot
      obtain ⟨herror, hnone⟩ := not_or.mp hnot
      rw [← hstep, State.fetchHistory_of_none htag] at hshown
      have hempty := hshown (not_exists.mp hnone) sel s.calls rfl rfl
      rw [htag] at hempty
      exact herror (congrArg Shown.error hempty)
  · intro horder before after s hsplit hrun
    have hkept := Kept.run (hsplit ▸ horder) hrun
    exact ⟨hkept.showsSelected, hkept.stores⟩

end

/-- All there is of one tag; the positions are named by it. -/
def selectTag (tagId : String) : Event Str Nat := .select ⟨some (text tagId), none, none⟩

/-- The history of `A` comes after that of `B`, which was selected later. -/
def lateEvents : List (Event Str Nat) :=
  [selectTag "A", selectTag "B", .respond 1 (.ok 200), .parse 1 (.ok ⟨[text "B"], 1⟩),
    .respond 0 (.ok 200), .parse 0 (.ok ⟨[text "A"], 1⟩)]

/-- The selection is cleared after its fetch has failed. -/
def clearedEvents : List (Event Str Nat) :=
  [selectTag "A", .respond 0 (.ok 500), .select ⟨none, none, none⟩]

/-- Then `A` is shown while `B` is selected, and an error while nothing is. -/
theorem late_history_shown :
    (run natText lateEvents).map (fun s => (s.hook.data, s.selection.bind (·.tagId))) =
        some ([text "A"], some (text "B")) ∧ ¬HistoryOfSelected natText lateEvents ∧
      (run natText clearedEvents).map (fun s => (s.hook.error, s.selection.bind (·.tagId))) =
        some (some (text "HTTP 500"), none) ∧ ¬HistoryOfSelected natText clearedEvents := by
  refine ⟨by decide +kernel, fun hshows => ?_, by decide +kernel, fun hshows => ?_⟩
  · have hrun : run natText lateEvents = some _ := rfl
    have hshown := (hshows lateEvents [] _ (List.append_nil _).symm hrun).1
    obtain ⟨r, hended, hselected⟩ := hshown (fun call => by
      rw [State.fetchHistory_of_some rfl, State.fetchHistory_of_some rfl]
      rcases call with _ | _ | call <;>
        simp [State.Outstanding, State.succeed, State.setData, State.init])
      ⟨some (text "B"), none, none⟩ 1 rfl rfl
    have hB : outcome lateEvents 1 = some (.ok ⟨[text "B"], 1⟩) := rfl
    obtain rfl := Option.some.inj (hended.symm.trans hB)
    exact absurd (congrArg Shown.data hselected) (by decide +kernel)
  · have hrun : run natText clearedEvents = some _ := rfl
    have hshown := (hshows clearedEvents [] _ (List.append_nil _).symm hrun).1
    have hempty := hshown (fun call => by
      rw [State.fetchHistory_of_none rfl, State.fetchHistory_of_some rfl]
      cases call <;> simp [State.Outstanding, State.fail, State.setData, State.init])
      ⟨none, none, none⟩ 1 rfl rfl
    exact absurd (congrArg Shown.error hempty) (by decide +kernel)

end RtlsStream.History.TagHistory
