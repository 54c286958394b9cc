/-
  History/Paging.lean --- `HistoryPlayer.handleLoad` reading a table that grows.

  For one tag the loop asks for pages of `PAGE_SIZE` rows, moves its offset by what
  it got, and stops at a short page or once the offset has reached the total.  The
  server answers a request with two statements, and each of them sees what is
  committed when it runs, so rows may be inserted between them as well.

  Offsets count from the newest row: an insert pushes rows back but never forward.
  The invariant is that every row that was there at the start and is not collected
  yet has at least `offset` rows listed before it (`Covered.fetching`), so neither
  exit of the loop can be taken while one is missing.
-/
import RtlsStream.History.Query

set_option autoImplicit false

namespace RtlsStream.History

open RtlsStream.Foundation RtlsStream.Store
open Relation (ReflTransGen)

/-- `PAGE_SIZE` of `handleLoad`. -/
def pageSize : Nat := 1000

/-- A history response, with the offset it answers. -/
structure Response where
  offset : Nat
  items : List PositionOut
  total : Nat

/-- Where the loop for one tag stands. -/
inductive Phase where
  /-- at the loop condition -/
  | fetching
  /-- the server has run its first statement -/
  | selected (page : List EventRow)
  | stopped
  /-- a request failed and `handleLoad` reports an error -/
  | failed

/-- The database and the variables of the loop.  `collected` are the rows behind
`allPoints`, which carry no `id`. -/
structure LoadState where
  db : Database
  phase : Phase
  offset : Nat
  total : Option Nat
  allPoints : List PositionOut
  collected : List EventRow
  responses : List Response

/-- The variables before the first request; `total` is `Infinity`. -/
def LoadState.start (db : Database) : LoadState where
  db := db
  phase := .fetching
  offset := 0
  total := none
  allPoints := []
  collected := []
  responses := []

/-- The loop condition `offset < total`. -/
def LoadState.Continues (s : LoadState) : Prop := ∀ t ∈ s.total, s.offset < t

/-- The loop body from the response on. -/
def LoadState.receive (s : LoadState) (page : List EventRow) (total : Nat) : LoadState :=
  let items := page.map fun e => positionOut e.row
  { s with
    phase := if items.length < pageSize then .stopped else .fetching
    offset := s.offset + items.length
    total := some total
    allPoints := s.allPoints ++ items
    collected := s.collected ++ page
    responses := s.responses ++ [⟨s.offset, items, total⟩] }

/-- What the loop and the server do; the database only changes by inserts. -/
inductive LoadStep (order : HistoryOrder) (f : Filter) : LoadState → LoadState → Prop
  | select {s : LoadState} : s.phase = .fetching → s.Continues →
      LoadStep order f s
        { s with phase := .selected (getPositionHistory order f s.db pageSize s.offset) }
  | count {s : LoadState} {page : List EventRow} : s.phase = .selected page →
      LoadStep order f s (s.receive page (countPositionHistory f s.db))
  | exit {s : LoadState} : s.phase = .fetching → ¬ s.Continues →
      LoadStep order f s { s with phase := .stopped }
  | refused {s : LoadState} : s.phase = .fetching → s.Continues →
      LoadStep order f s { s with phase := .failed }
  | broken {s : LoadState} {page : List EventRow} : s.phase = .selected page →
      LoadStep order f s { s with phase := .failed }

/-- A step of the loop, or an insert of a new row by somebody else. -/
inductive Step (order : HistoryOrder) (f : Filter) : LoadState → LoadState → Prop
  | load {s t : LoadState} : LoadStep order f s t → Step order f s t
  | insert {s : LoadState} {e : EventRow} : e.id ∉ s.db.events.map (·.id) →
      Step order f s { s with db := s.db.persist e }

/-- The loop for one tag, over a table with given contents when it starts. -/
def loading (order : HistoryOrder) (f : Filter) (db : Database) : Machine LoadState where
  init s := s = .start db
  step := Step order f

variable {order : HistoryOrder} {f : Filter} {db : Database} {s t : LoadState}

/-! ## The invariant -/

/-- A row that was there when the loop started and is not collected yet. -/
def LoadState.Missing (f : Filter) (db : Database) (s : LoadState) (e : EventRow) : Prop :=
  e ∈ matching f db ∧ e ∉ s.collected

/-- What holds at every point of the loop. -/
structure Covered (order : HistoryOrder) (f : Filter) (db : Database) (s : LoadState) : Prop where
  ids : DistinctIds s.db
  grown : (matching f db).Sublist (matching f s.db)
  selects : ∀ e ∈ s.collected, f.selects e.row
  points : s.allPoints = s.collected.map fun e => positionOut e.row
  /-- a missing row is listed behind the offset, so the total is not reached -/
  fetching : s.phase = .fetching → ∀ e, s.Missing f db e →
    s.offset ≤ order.rank (matching f s.db) e ∧ s.Continues
  /-- a missing row is on the page, or the page is full and the row is behind it -/
  selected : ∀ page, s.phase = .selected page →
    (∀ e ∈ page, f.selects e.row) ∧ page.length ≤ pageSize ∧
    (page ≠ [] → s.offset + page.length ≤ (matching f s.db).length) ∧
    ∀ e, s.Missing f db e → e ∈ page ∨
      (page.length = pageSize ∧ s.offset + page.length ≤ order.rank (matching f s.db) e)
  stopped : s.phase = .stopped → ∀ e, ¬ s.Missing f db e
  responses : ∀ r ∈ s.responses, r.items ≠ [] → r.offset + r.items.length ≤ r.total

theorem covered_start (hids : DistinctIds db) : Covered order f db (.start db) where
  ids := hids
  grown := List.Sublist.refl _
  selects := by simp [LoadState.start]
  points := rfl
  fetching := by
    intro _ e _
    exact ⟨Nat.zero_le _, by simp [LoadState.Continues, LoadState.start]⟩
  selected := by
    intro page hphase
    cases hphase
  stopped := by
    intro hphase
    cases hphase
  responses := by simp [LoadState.start]

/-- A page leaves out a missing row only by ending before it. -/
theorem Covered.select (h : Covered order f db s) (hphase : s.phase = .fetching) :
    Covered order f db
      { s with phase := .selected (getPositionHistory order f s.db pageSize s.offset) } := by
  have hnodup := h.ids.nodup_matching f
  refine ⟨h.ids, h.grown, h.selects, h.points, ?_, ?_, ?_, h.responses⟩
  · intro hcontra
    cases hcontra
  · rintro _ ⟨⟩
    refine ⟨?_, order.length_window_le _ _ _, order.offset_add_length_window_le, ?_⟩
    · intro e he
      exact (mem_matching.mp (order.mem_of_mem_window he)).2
    · intro e hmissing
      have hmem : e ∈ matching f s.db := h.grown.subset hmissing.1
      have hrank := (h.fetching hphase e hmissing).1
      by_cases hpage : e ∈ getPositionHistory order f s.db pageSize s.offset
      · exact Or.inl hpage
      · right
        have hbehind : s.offset + pageSize ≤ order.rank (matching f s.db) e := by
          unfold getPositionHistory at hpage
          rw [order.mem_window hnodup (h.ids.strict order f) hmem] at hpage
          omega
        -- a row behind the window leaves enough rows to fill it
        have hfull : (getPositionHistory order f s.db pageSize s.offset).length = pageSize := by
          have hlt := order.rank_lt_length hmem
          unfold getPositionHistory ListingOrder.window
          rw [List.length_take, List.length_drop, (order.listing_perm _).length_eq]
          omega
        exact ⟨hfull, by rw [hfull]; exact hbehind⟩
  · intro hcontra
    cases hcontra

/-- The total that arrives with a page counts every row behind it. -/
theorem Covered.receive (h : Covered order f db s) {page : List EventRow}
    (hphase : s.phase = .selected page) :
    Covered order f db (s.receive page (countPositionHistory f s.db)) := by
  obtain ⟨hselects, hlen, htotal, hbehind⟩ := h.selected page hphase
  have hmissing : ∀ e, (s.receive page (countPositionHistory f s.db)).Missing f db e →
      page.length = pageSize ∧ s.offset + page.length ≤ order.rank (matching f s.db) e := by
    intro e he
    have hnot : e ∉ s.collected ++ page := he.2
    simp only [List.mem_append, not_or] at hnot
    rcases hbehind e ⟨he.1, hnot.1⟩ with hpage | hbehind
    · exact absurd hpage hnot.2
    · exact hbehind
  refine ⟨h.ids, h.grown, ?_, ?_, ?_, ?_, ?_, ?_⟩
  · intro e he
    rcases List.mem_append.mp he with he | he
    · exact h.selects e he
    · exact hselects e he
  · simp [LoadState.receive, h.points]
  · intro _ e he
    obtain ⟨_, hrank⟩ := hmissing e he
    have hlt := order.rank_lt_length (h.grown.subset he.1)
    refine ⟨by simpa [LoadState.receive] using hrank, ?_⟩
    intro total htotal
    obtain rfl : countPositionHistory f s.db = total := by
      simpa [LoadState.receive] using htotal
    simp only [LoadState.receive, List.length_map, countPositionHistory]
    omega
  · intro page' hphase'
    unfold LoadState.receive at hphase'
    simp only at hphase'
    split at hphase' <;> cases hphase'
  · intro hstop e he
    obtain ⟨hfull, _⟩ := hmissing e he
    simp [LoadState.receive, hfull] at hstop
  · intro r hr hitems
    rcases List.mem_append.mp hr with hr | hr
    · exact h.responses r hr hitems
    · rw [List.mem_singleton.mp hr] at hitems ⊢
      simp only [List.length_map]
      exact htotal (by simpa using hitems)

/-- Leaving at the loop condition leaves nothing behind. -/
theorem Covered.exit (h : Covered order f db s) (hphase : s.phase = .fetching)
    (hdone : ¬ s.Continues) : Covered order f db { s with phase := .stopped } := by
  refine ⟨h.ids, h.grown, h.selects, h.points, ?_, ?_, ?_, h.responses⟩
  · intro hcontra
    cases hcontra
  · intro page hcontra
    cases hcontra
  · intro _ e hmissing
    exact hdone (h.fetching hphase e hmissing).2

theorem Covered.fail (h : Covered order f db s) :
    Covered order f db { s with phase := .failed } := by
  refine ⟨h.ids, h.grown, h.selects, h.points, ?_, ?_, ?_, h.responses⟩
  all_goals
    intros
    contradiction

/-- An insert pushes rows back and adds to the count. -/
theorem Covered.insert (h : Covered order f db s) {e : EventRow}
    (hnew : e.id ∉ s.db.events.map (·.id)) :
    Covered order f db { s with db := s.db.persist e } := by
  have hsub := matching_sublist_persist f s.db e
  refine ⟨h.ids.persist hnew, h.grown.trans hsub, h.selects, h.points, ?_, ?_, h.stopped,
    h.responses⟩
  · intro hphase e' hmissing
    obtain ⟨hrank, hcontinues⟩ := h.fetching hphase e' hmissing
    exact ⟨hrank.trans (order.rank_le_of_sublist hsub e'), hcontinues⟩
  · intro page hphase
    obtain ⟨hselects, hlen, htotal, hbehind⟩ := h.selected page hphase
    refine ⟨hselects, hlen, fun hne => (htotal hne).trans hsub.length_le, ?_⟩
    intro e' hmissing
    refine (hbehind e' hmissing).imp id ?_
    rintro ⟨hfull, hrank⟩
    exact ⟨hfull, hrank.trans (order.rank_le_of_sublist hsub e')⟩

theorem Covered.loadStep (h : Covered order f db s) (hstep : LoadStep order f s t) :
    Covered order f db t := by
  cases hstep with
  | select hphase _ => exact h.select hphase
  | count hphase => exact h.receive hphase
  | exit hphase hdone => exact h.exit hphase hdone
  | refused | broken => exact h.fail

theorem covered (hids : DistinctIds db) (h : (loading order f db).Reachable s) :
    Covered order f db s := by
  refine Machine.invariant ?_ ?_ h
  · rintro s₀ rfl
    exact covered_start hids
  · intro s₀ t _ hcovered hstep
    cases hstep with
    | load hload => exact hcovered.loadStep hload
    | insert hnew => exact hcovered.insert hnew

/-! ## Termination -/

/-- What is left to do: two statements for each page, counted in rows. -/
def remaining (f : Filter) (s : LoadState) : Nat :=
  match s.phase with
  | .fetching => 2 * ((matching f s.db).length - s.offset) + 2
  | .selected _ => 2 * ((matching f s.db).length - s.offset) + 1
  | .stopped | .failed => 0

/-- Without inserts every step of the loop leaves less to do. -/
theorem Covered.remaining_lt (h : Covered order f db s) (hstep : LoadStep order f s t) :
    remaining f t < remaining f s := by
  cases hstep with
  | select hphase _ => simp [remaining, hphase]
  | exit hphase _ => simp [remaining, hphase]
  | refused hphase _ => simp [remaining, hphase]
  | broken hphase => simp [remaining, hphase]
  | @count page hphase =>
    obtain ⟨_, _, htotal, _⟩ := h.selected page hphase
    by_cases hshort : page.length < pageSize
    · simp [remaining, LoadState.receive, hphase, hshort]
    · have hne : page ≠ [] := by
        rintro rfl
        exact hshort (by decide)
      have hpos : 0 < page.length := List.length_pos_iff.mpr hne
      have hinside := htotal hne
      simp only [remaining, LoadState.receive, hphase, List.length_map, if_neg hshort]
      omega

/-- The loop is never stuck: it can go on until it has stopped or failed. -/
theorem loadStep_or_done (order : HistoryOrder) (f : Filter) (s : LoadState) :
    (∃ t, LoadStep order f s t) ∨ s.phase = .stopped ∨ s.phase = .failed := by
  cases hphase : s.phase with
  | fetching =>
    left
    by_cases hcontinues : s.Continues
    · exact ⟨_, .select hphase hcontinues⟩
    · exact ⟨_, .exit hphase hcontinues⟩
  | selected page => exact Or.inl ⟨_, .count hphase⟩
  | stopped => exact Or.inr (Or.inl rfl)
  | failed => exact Or.inr (Or.inr rfl)

/-! ## Paging under concurrent inserts -/

/-- Whatever is inserted while the loop runs, when it stops it has every row of the
tag and bounds that was there at the start and only rows of the tag and bounds;
no response counts fewer rows than it and the pages before it hold; and from any
point on, a run without inserts is finite and ends with the loop stopped. -/
theorem handleLoad_complete (order : HistoryOrder) (f : Filter) (db : Database)
    (hids : DistinctIds db) :
    ∀ s, (loading order f db).Reachable s →
      (s.phase = .stopped → ∀ e ∈ db.events, f.selects e.row →
        e ∈ s.collected ∧ positionOut e.row ∈ s.allPoints) ∧
      (∀ p ∈ s.allPoints, ∃ e ∈ s.collected, p = positionOut e.row ∧
        e.row.tagId = f.tagId ∧ (∀ from_ts ∈ f.fromTs, from_ts ≤ e.row.ts) ∧
        ∀ to_ts ∈ f.toTs, e.row.ts ≤ to_ts) ∧
      (∀ r ∈ s.responses, r.items ≠ [] → r.offset + r.items.length ≤ r.total) ∧
      ∃ bound, ∀ n t, StepsIn (LoadStep order f) n s t →
        n ≤ bound ∧ ((∃ u, LoadStep order f t u) ∨ t.phase = .stopped ∨ t.phase = .failed) := by
  intro s hreach
  have hcovered := covered hids hreach
  refine ⟨?_, ?_, hcovered.responses, remaining f s, ?_⟩
  · intro hstop e he hselects
    have hcollected : e ∈ s.collected := by
      by_contra hnot
      exact hcovered.stopped hstop e ⟨mem_matching.mpr ⟨he, hselects⟩, hnot⟩
    refine ⟨hcollected, ?_⟩
    rw [hcovered.points]
    exact List.mem_map_of_mem hcollected
  · intro p hp
    rw [hcovered.points] at hp
    obtain ⟨e, he, rfl⟩ := List.mem_map.mp hp
    exact ⟨e, he, rfl, Filter.selects_iff.mp (hcovered.selects e he)⟩
  · intro n t hrun
    have hlen := StepsIn.length_le (remaining f) (fun _ _ h hstep => h.loadStep hstep)
      (fun _ _ h hstep => h.remaining_lt hstep) hrun hcovered
    exact ⟨by omega, loadStep_or_done order f t⟩

/-- A newer row arrives between the two statements of the only request. -/
theorem handleLoad_complete_insert_inside :
    ∃ s, (loading newestFirst ⟨(rowAt ⟨1000, by decide⟩).tagId, none, none⟩
        (Database.empty.persist ⟨1, rowAt ⟨1000, by decide⟩⟩)).Reachable s ∧
      s.phase = .stopped ∧ s.db.events.length = 2 ∧
      (⟨1, rowAt ⟨1000, by decide⟩⟩ : EventRow) ∈ s.collected := by
  let f : Filter := ⟨(rowAt ⟨1000, by decide⟩).tagId, none, none⟩
  let db := Database.empty.persist ⟨1, rowAt ⟨1000, by decide⟩⟩
  let page := getPositionHistory newestFirst f db pageSize 0
  have hpage : page.length < pageSize := by decide +kernel
  have h₀ : (loading newestFirst f db).Reachable (.start db) := .start rfl
  have h₁ : (loading newestFirst f db).Reachable { LoadState.start db with phase := .selected page } :=
    h₀.next (.load (.select rfl (by simp [LoadState.Continues, LoadState.start])))
  have h₂ := h₁.next (@Step.insert _ _ _ ⟨2, rowAt ⟨2000, by decide⟩⟩ (by decide))
  have h₃ := h₂.next (.load (@LoadStep.count _ _ _ page rfl))
  have hids : DistinctIds db := by
    unfold DistinctIds
    decide
  refine ⟨_, h₃, by simp [LoadState.receive, hpage], rfl, ?_⟩
  exact ((handleLoad_complete newestFirst f db hids _ h₃).1 (by simp [LoadState.receive, hpage])
    _ (by simp [db, Database.persist, Database.empty]) (by decide +kernel)).1

end RtlsStream.History
