/-
  History/QuietLoad.lean --- `HistoryPlayer.handleLoad` on a table nobody writes to.

  `ORDER BY ts_utc_ms DESC` does not fix the order of rows of one timestamp, and the
  database may choose it anew for every request.  A page is the window of a listing
  that the request chose; what `handleLoad` passes on is the pages one after the
  other.  They fit together where no timestamp has rows on both sides of a page
  boundary, and only there.

  Every request succeeds here: one that does not, as for a row with a NaN, which FastAPI
  cannot render, ends the load and nothing is passed on (`History.Paging` has those).
-/
import RtlsStream.Foundation.Ties
import RtlsStream.History.Paging

set_option autoImplicit false

namespace RtlsStream.History

open RtlsStream.Foundation RtlsStream.Store

/-- The order in which a request may list the rows it is about. -/
abbrev Listing (f : Filter) (db : Database) (L : List EventRow) : Prop :=
  Listed (fun e : EventRow => e.row.ts) (matching f db) L

/-- The orders of `Query.lean` are such orders, with one choice for every request. -/
theorem listing_of_order (order : HistoryOrder) (f : Filter) (db : Database) :
    Listing f db (order.listing (matching f db)) := by
  refine ⟨order.listing_perm _, ?_⟩
  exact (order.listing_sorted _).imp fun h => order.descending _ _ h

/-- The loop of `handleLoad` for one tag, from the request for a page on; `listing` are the
orders that the requests find.  The first request is always made, as `total` starts as
`Infinity`, and a page that is not full ends the loop. -/
def loadFrom (f : Filter) (db : Database) (listing : Nat → List EventRow) (request offset : Nat) :
    List EventRow :=
  let items := ((listing request).drop offset).take pageSize
  if items.length < pageSize then items
  else if offset + items.length < countPositionHistory f db then
    items ++ loadFrom f db listing (request + 1) (offset + items.length)
  else items
termination_by countPositionHistory f db - offset
decreasing_by
  have hpage : 0 < pageSize := by decide
  change countPositionHistory f db - (offset + items.length) < countPositionHistory f db - offset
  omega

/-- The rows behind `allPoints`, tag by tag. -/
def rowsLoaded (db : Database) (fromTs toTs : Option Int) (listing : PgText → Nat → List EventRow)
    (selectedTags : List PgText) : List EventRow :=
  selectedTags.flatMap fun tag => loadFrom ⟨tag, fromTs, toTs⟩ db (listing tag) 0 0

/-- What `handleLoad` passes to `onLoad`: nothing at all when no tag is selected. -/
def handleLoad (db : Database) (fromTs toTs : Option Int) (listing : PgText → Nat → List EventRow)
    (selectedTags : List PgText) : Option (List PositionOut) :=
  if selectedTags = [] then none
  else some ((rowsLoaded db fromTs toTs listing selectedTags).map fun e => positionOut e.row)

variable {f : Filter} {db : Database} {listing : Nat → List EventRow}

/-! ## The loop for one tag -/

theorem Listing.length {L : List EventRow} (h : Listing f db L) :
    L.length = countPositionHistory f db := h.perm.length_eq

/-- One round of the loop. -/
theorem loadFrom_eq {request offset : Nat} (h : Listing f db (listing request)) :
    loadFrom f db listing request offset =
      if offset + pageSize < countPositionHistory f db then
        ((listing request).drop offset).take pageSize ++
          loadFrom f db listing (request + 1) (offset + pageSize)
      else (listing request).drop offset := by
  have hlength : (((listing request).drop offset).take pageSize).length =
      min pageSize (countPositionHistory f db - offset) := by
    rw [List.length_take, List.length_drop, h.length]
  have hrest : ((listing request).drop offset).length = countPositionHistory f db - offset := by
    rw [List.length_drop, h.length]
  rw [loadFrom]
  simp only [hlength]
  by_cases hmore : offset + pageSize < countPositionHistory f db
  · have hfull : min pageSize (countPositionHistory f db - offset) = pageSize := by omega
    rw [hfull, if_neg (lt_irrefl _), if_pos hmore, if_pos hmore]
  · have hall : ((listing request).drop offset).take pageSize = (listing request).drop offset :=
      List.take_of_length_le (by omega)
    have hend : ¬ offset + min pageSize (countPositionHistory f db - offset) <
        countPositionHistory f db := by omega
    rw [hall, if_neg hend, if_neg hmore, ite_self]

/-- Where no timestamp lies across a page boundary, the pages are the rows, whatever listing
each request finds. -/
theorem loadFrom_perm (hlisting : ∀ k, Listing f db (listing k))
    (hcuts : ∀ k, ¬ Straddled (fun e : EventRow => e.row.ts) (matching f db) (pageSize * k))
    (request : Nat) :
    ((listing request).take (pageSize * request) ++
      loadFrom f db listing request (pageSize * request)).Perm (matching f db) := by
  by_cases hmore : pageSize * request + pageSize < countPositionHistory f db
  · have hnext := loadFrom_perm hlisting hcuts (request + 1)
    have hcut := take_perm (hlisting request) (hlisting (request + 1)) (hcuts (request + 1))
    rw [loadFrom_eq (hlisting request), if_pos hmore, ← List.append_assoc, ← List.take_add,
      ← Nat.mul_succ]
    exact (hcut.append_right _).trans hnext
  · rw [loadFrom_eq (hlisting request), if_neg hmore, List.take_append_drop]
    exact (hlisting request).perm
termination_by countPositionHistory f db - pageSize * request
decreasing_by
  have hpage : 0 < pageSize := by decide
  rw [Nat.mul_succ]
  omega

/-- While every request finds the same listing, the pages are what is left of it. -/
theorem loadFrom_same {L : List EventRow} (hL : Listing f db L) {request : Nat}
    (hsame : ∀ k, request ≤ k → listing k = L) (offset : Nat) :
    loadFrom f db listing request offset = L.drop offset := by
  have hrequest := hsame request le_rfl
  have hlisting : Listing f db (listing request) := by rwa [hrequest]
  by_cases hmore : offset + pageSize < countPositionHistory f db
  · rw [loadFrom_eq hlisting, if_pos hmore, hrequest,
      loadFrom_same hL (fun k hk => hsame k (by omega)) (offset + pageSize), ← List.drop_drop,
      List.take_append_drop]
  · rw [loadFrom_eq hlisting, if_neg hmore, hrequest]
termination_by countPositionHistory f db - offset
decreasing_by
  have hpage : 0 < pageSize := by decide
  omega

/-- The order changes once, between the requests for two pages. -/
theorem loadFrom_changed {L L' : List EventRow} (hL : Listing f db L) (hL' : Listing f db L')
    {last : Nat} (hlast : pageSize * last < countPositionHistory f db)
    (hbefore : ∀ k, k < last → listing k = L) (hafter : ∀ k, last ≤ k → listing k = L') {request : Nat}
    (hrequest : request ≤ last) :
    L.take (pageSize * request) ++ loadFrom f db listing request (pageSize * request) =
      L.take (pageSize * last) ++ L'.drop (pageSize * last) := by
  rcases Nat.lt_or_ge request last with hlt | hge
  · have hlisting : Listing f db (listing request) := by rwa [hbefore request hlt]
    have hmore : pageSize * request + pageSize < countPositionHistory f db :=
      lt_of_le_of_lt (by rw [← Nat.mul_succ]; exact Nat.mul_le_mul_left _ hlt) hlast
    rw [loadFrom_eq hlisting, if_pos hmore, hbefore request hlt, ← List.append_assoc,
      ← List.take_add, ← Nat.mul_succ]
    exact loadFrom_changed hL hL' hlast hbefore hafter hlt
  · obtain rfl : request = last := by omega
    rw [loadFrom_same hL' hafter]
termination_by last - request

/-- Every page is taken from the rows. -/
theorem mem_of_mem_loadFrom (hlisting : ∀ k, Listing f db (listing k)) {request offset : Nat}
    {e : EventRow} (h : e ∈ loadFrom f db listing request offset) : e ∈ matching f db := by
  by_cases hmore : offset + pageSize < countPositionHistory f db
  · rw [loadFrom_eq (hlisting request), if_pos hmore] at h
    rcases List.mem_append.mp h with h | h
    · exact (hlisting request).perm.mem_iff.mp (List.mem_of_mem_drop (List.mem_of_mem_take h))
    · exact mem_of_mem_loadFrom hlisting h
  · rw [loadFrom_eq (hlisting request), if_neg hmore] at h
    exact (hlisting request).perm.mem_iff.mp (List.mem_of_mem_drop h)
termination_by countPositionHistory f db - offset
decreasing_by
  have hpage : 0 < pageSize := by decide
  omega

/-- Where a timestamp lies across a page boundary, some row may be missed. -/
theorem exists_missing (hids : DistinctIds db) {k : Nat}
    (h : Straddled (fun e : EventRow => e.row.ts) (matching f db) (pageSize * k)) :
    ∃ listing, (∀ k, Listing f db (listing k)) ∧
      ∃ e ∈ matching f db, e ∉ loadFrom f db listing 0 0 := by
  have hbelow : pageSize * k < countPositionHistory f db := by
    obtain ⟨v, -, hbelow⟩ := h
    exact hbelow.trans_le List.countP_le_length
  obtain ⟨front, a, b, back, hfront, hL, hL'⟩ := h.swap
  let listing (j : Nat) : List EventRow :=
    if j < k then front ++ a :: b :: back else front ++ b :: a :: back
  have hlisting : ∀ j, Listing f db (listing j) := by
    intro j
    by_cases hj : j < k
    · simpa only [listing, if_pos hj] using hL
    · simpa only [listing, if_neg hj] using hL'
  have hpages : (front ++ a :: b :: back).take (pageSize * 0) ++
      loadFrom f db listing 0 (pageSize * 0) = _ :=
    loadFrom_changed hL hL' hbelow (fun j hj => if_pos hj) (fun j hj => if_neg (by omega))
      (Nat.zero_le _)
  refine ⟨listing, hlisting, b, hL.perm.mem_iff.mp (by simp), ?_⟩
  -- `b` stands behind the cut first and before it later
  have hnodup : (front ++ b :: a :: back).Nodup :=
    hL'.perm.nodup_iff.mpr (hids.nodup_matching f)
  have htake : (front ++ a :: b :: back).take (front.length + 1) = front ++ [a] := by
    simp [List.take_append]
  have hdrop : (front ++ b :: a :: back).drop (front.length + 1) = a :: back := by
    simp [List.drop_append]
  rw [← hfront, htake, hdrop, Nat.mul_zero, List.take_zero, List.nil_append] at hpages
  rw [hpages]
  intro hmem
  obtain ⟨-, hrest, hfresh⟩ := List.nodup_append.mp hnodup
  have hback := (List.nodup_cons.mp hrest).1
  rcases List.mem_append.mp hmem with hmem | hmem
  · rcases List.mem_append.mp hmem with hmem | hmem
    · exact hfresh b hmem b List.mem_cons_self rfl
    · exact hback (by simp [List.mem_singleton.mp hmem])
  · exact hback hmem

/-! ## All selected tags -/

/-- The points that `handleLoad` passes on are the matching rows of the selected tags, each of
them once. -/
def PassesEachOnce (db : Database) (fromTs toTs : Option Int)
    (listing : PgText → Nat → List EventRow) (selectedTags : List PgText) : Prop :=
  ∀ points, handleLoad db fromTs toTs listing selectedTags = some points →
    ∃ rows, rows = rowsLoaded db fromTs toTs listing selectedTags ∧
      points = rows.map (fun e => positionOut e.row) ∧ rows.Nodup ∧
      ∀ e, e ∈ rows ↔ ∃ tag ∈ selectedTags, e ∈ matching ⟨tag, fromTs, toTs⟩ db

/-- The orders that the requests of a load may find. -/
def Choice (db : Database) (fromTs toTs : Option Int) (listing : PgText → Nat → List EventRow) :
    Prop :=
  ∀ tag k, Listing ⟨tag, fromTs, toTs⟩ db (listing tag k)

/-- No timestamp has rows on both sides of a page boundary. -/
def Uncut (f : Filter) (db : Database) : Prop :=
  ∀ k, ¬ Straddled (fun e : EventRow => e.row.ts) (matching f db) (pageSize * k)

/-- A load passes on each row once, whatever orders its requests find, exactly when no page
boundary of a selected tag cuts through the rows of one timestamp. -/
theorem load_exact_iff {db : Database} (hids : DistinctIds db) (fromTs toTs : Option Int)
    {selectedTags : List PgText} (hset : selectedTags.Nodup) :
    (∀ listing, Choice db fromTs toTs listing →
      PassesEachOnce db fromTs toTs listing selectedTags) ↔
      ∀ tag ∈ selectedTags, Uncut ⟨tag, fromTs, toTs⟩ db := by
  constructor
  · intro hexact tag htag k hcut
    obtain ⟨bad, hbad, e, he, hmissing⟩ := exists_missing hids hcut
    choose other hother using fun t : PgText =>
      exists_listed (fun e : EventRow => e.row.ts) (matching ⟨t, fromTs, toTs⟩ db)
    let listing (t : PgText) (k : Nat) : List EventRow := if t = tag then bad k else other t
    have hchoice : Choice db fromTs toTs listing := by
      intro t k
      by_cases ht : t = tag
      · subst ht
        simpa [listing] using hbad k
      · simpa [listing, ht] using hother t
    have hnonempty : selectedTags ≠ [] := List.ne_nil_of_mem htag
    obtain ⟨rows, hrows, -, -, hmem⟩ := hexact listing hchoice _ (if_neg hnonempty)
    have hloaded : e ∈ rowsLoaded db fromTs toTs listing selectedTags := by
      rw [← hrows, hmem]
      exact ⟨tag, htag, he⟩
    obtain ⟨t, -, hload⟩ := List.mem_flatMap.mp hloaded
    -- the row is of the tag, whose pages miss it
    have hmatches := mem_of_mem_loadFrom (hchoice t) hload
    have ht : t = tag := by
      have htag' := (Filter.selects_iff.mp (mem_matching.mp hmatches).2).1
      rw [(Filter.selects_iff.mp (mem_matching.mp he).2).1] at htag'
      exact htag'.symm
    subst ht
    simp only [listing, if_true] at hload
    exact hmissing hload
  · intro huncut listing hchoice points hpoints
    have hperm : ∀ tag ∈ selectedTags,
        (loadFrom ⟨tag, fromTs, toTs⟩ db (listing tag) 0 0).Perm
          (matching ⟨tag, fromTs, toTs⟩ db) := by
      intro tag htag
      simpa using loadFrom_perm (hchoice tag) (huncut tag htag) 0
    refine ⟨_, rfl, ?_, ?_, ?_⟩
    · unfold handleLoad at hpoints
      split at hpoints
      · cases hpoints
      · exact (Option.some.inj hpoints).symm
    · refine List.nodup_flatMap.mpr ⟨?_, ?_⟩
      · intro tag htag
        exact (hperm tag htag).nodup_iff.mpr (hids.nodup_matching _)
      · refine hset.imp ?_
        intro tag tag' hne e he he'
        have htag := (Filter.selects_iff.mp (mem_matching.mp
          (mem_of_mem_loadFrom (hchoice tag) he)).2).1
        have htag' := (Filter.selects_iff.mp (mem_matching.mp
          (mem_of_mem_loadFrom (hchoice tag') he')).2).1
        exact hne (htag.symm.trans htag')
    · intro e
      unfold rowsLoaded
      rw [List.mem_flatMap]
      exact exists_congr fun tag => and_congr_right fun htag => (hperm tag htag).mem_iff

/-! ## A boundary inside a timestamp -/

def sampleTs : Bigint := ⟨1000, by decide⟩

def sampleTag : PgText := (rowAt sampleTs).tagId

/-- Rows of one tag and one time; the last of them has an area. -/
def tiedRow (i : Nat) : EventRow :=
  ⟨i, if i = 1000 then { rowAt sampleTs with area := some (rowAt sampleTs).sourceType }
    else rowAt sampleTs⟩

/-- The first `n` of these rows. -/
def tiedTable (n : Nat) : Database := Database.empty.persistAll ((List.range n).map tiedRow)

theorem tiedRow_ts (i : Nat) : (tiedRow i).row.ts = 1000 := by
  unfold tiedRow
  dsimp only
  split <;> rfl

theorem tiedRow_tagId (i : Nat) : (tiedRow i).row.tagId = sampleTag := by
  unfold tiedRow
  dsimp only
  split <;> rfl

theorem matching_tiedTable (n : Nat) (tag : PgText) : matching ⟨tag, none, none⟩ (tiedTable n) =
    if tag = sampleTag then (List.range n).map tiedRow else [] := by
  have hevents : (tiedTable n).events = (List.range n).map tiedRow := by
    simp [tiedTable, Database.empty]
  rw [matching, hevents]
  split
  · rename_i htag
    refine List.filter_eq_self.mpr ?_
    intro e he
    obtain ⟨i, -, rfl⟩ := List.mem_map.mp he
    simp [Filter.selects, tiedRow_tagId, htag]
  · rename_i htag
    refine List.filter_eq_nil_iff.mpr ?_
    intro e he
    obtain ⟨i, -, rfl⟩ := List.mem_map.mp he
    simp [Filter.selects, tiedRow_tagId, Ne.symm htag]

/-- Every order of the tied rows is a listing. -/
theorem listing_tiedTable {n : Nat} {L : List EventRow} (h : L.Perm ((List.range n).map tiedRow))
    (tag : PgText) : Listing ⟨tag, none, none⟩ (tiedTable n) (if tag = sampleTag then L else []) := by
  have hts : ∀ e ∈ L, e.row.ts = 1000 := by
    intro e he
    obtain ⟨i, -, rfl⟩ := List.mem_map.mp (h.mem_iff.mp he)
    exact tiedRow_ts i
  unfold Listing
  rw [matching_tiedTable]
  split
  · refine ⟨h, List.pairwise_of_forall_mem_list ?_⟩
    intro a ha b hb
    rw [hts a ha, hts b hb]
  · exact ⟨List.Perm.refl _, List.Pairwise.nil⟩

theorem distinctIds_tiedTable (n : Nat) : DistinctIds (tiedTable n) := by
  have hids : (tiedTable n).events.map (·.id) = List.range n := by
    simp [tiedTable, Database.empty, Function.comp_def, tiedRow]
  unfold DistinctIds
  rw [hids]
  exact List.nodup_range

/-- Two tied rows on one page, in the order that the request happens to find. -/
theorem load_exact_iff_one_page :
    PassesEachOnce (tiedTable 2) none none
      (fun tag _ => if tag = sampleTag then [tiedRow 1, tiedRow 0] else []) [sampleTag] := by
  refine (load_exact_iff (distinctIds_tiedTable 2) none none (by simp)).mpr ?_ _ ?_
  · rintro tag - k ⟨v, habove, hbelow⟩
    have hlength : (matching ⟨tag, none, none⟩ (tiedTable 2)).length ≤ 2 := by
      rw [matching_tiedTable]
      split <;> simp
    have hcut : pageSize * k < 2 := (hbelow.trans_le List.countP_le_length).trans_le hlength
    have hzero : pageSize * k = 0 := by
      unfold pageSize at hcut ⊢
      omega
    omega
  · exact fun tag _ => listing_tiedTable (List.Perm.swap ..) tag

/-- The 1001 rows of one timestamp: the second request finds the last two the other way
round, and the position that it moved to the first page is never passed on. -/
theorem load_misses_tied :
    ∃ listing points, Choice (tiedTable 1001) none none listing ∧
      handleLoad (tiedTable 1001) none none listing [sampleTag] = some points ∧
      tiedRow 1000 ∈ matching ⟨sampleTag, none, none⟩ (tiedTable 1001) ∧
      positionOut (tiedRow 1000).row ∉ points := by
  let front : List EventRow := (List.range 999).map tiedRow
  have hrange : (List.range 1001).map tiedRow = front ++ [tiedRow 999, tiedRow 1000] := by
    rw [List.range_succ, List.range_succ]
    simp [front]
  let L : List EventRow := front ++ [tiedRow 999, tiedRow 1000]
  let L' : List EventRow := front ++ [tiedRow 1000, tiedRow 999]
  have hL : L.Perm ((List.range 1001).map tiedRow) := by rw [hrange]
  have hL' : L'.Perm ((List.range 1001).map tiedRow) := by
    rw [hrange]
    exact (List.Perm.swap ..).append_left front
  let listing (tag : PgText) (request : Nat) : List EventRow :=
    if tag = sampleTag then (if request < 1 then L else L') else []
  have hchoice : Choice (tiedTable 1001) none none listing := by
    intro tag request
    by_cases hrequest : request < 1
    · simpa only [listing, if_pos hrequest] using listing_tiedTable hL tag
    · simpa only [listing, if_neg hrequest] using listing_tiedTable hL' tag
  have hfront : front.length = 999 := by simp [front]
  have hpages : L.take (pageSize * 0) ++ loadFrom ⟨sampleTag, none, none⟩ (tiedTable 1001)
      (listing sampleTag) 0 (pageSize * 0) = L.take (pageSize * 1) ++ L'.drop (pageSize * 1) := by
    refine loadFrom_changed ?_ ?_ ?_ ?_ ?_ (Nat.zero_le 1)
    · simpa only [if_true] using listing_tiedTable hL sampleTag
    · simpa only [if_true] using listing_tiedTable hL' sampleTag
    · rw [countPositionHistory, matching_tiedTable, if_pos rfl]
      simp [pageSize]
    · intro k hk
      simp only [listing, if_true, if_pos hk]
    · intro k hk
      simp only [listing, if_true, if_neg (by omega : ¬ k < 1)]
  have htake : L.take (pageSize * 1) = front ++ [tiedRow 999] := by
    simp [L, pageSize, List.take_append, hfront]
  have hdrop : L'.drop (pageSize * 1) = [tiedRow 999] := by
    simp [L', pageSize, List.drop_append, hfront]
  rw [htake, hdrop, Nat.mul_zero, List.take_zero, List.nil_append] at hpages
  have hrows : rowsLoaded (tiedTable 1001) none none listing [sampleTag] =
      front ++ [tiedRow 999] ++ [tiedRow 999] := by
    rw [rowsLoaded, List.flatMap_cons, List.flatMap_nil, List.append_nil, hpages]
  refine ⟨listing, _, hchoice, if_neg (by simp), ?_, ?_⟩
  · rw [matching_tiedTable, if_pos rfl, hrange]
    simp
  · rw [hrows]
    intro hmem
    obtain ⟨e, he, hsame⟩ := List.mem_map.mp hmem
    -- the other rows have no area
    have hnone : (positionOut e.row).area = none := by
      have hother : ∃ i, i < 1000 ∧ e = tiedRow i := by
        simp only [List.mem_append, List.mem_singleton, front, List.mem_map, List.mem_range] at he
        rcases he with (⟨i, hi, rfl⟩ | rfl) | rfl
        · exact ⟨i, by omega, rfl⟩
        · exact ⟨999, by omega, rfl⟩
        · exact ⟨999, by omega, rfl⟩
      obtain ⟨i, hi, rfl⟩ := hother
      simp [tiedRow, positionOut, hi.ne, rowAt]
    rw [hsame] at hnone
    cases hnone

end RtlsStream.History
