/-
  History/LoadTimes.lean --- what a load gets right whatever the order of ties.

  A load may miss rows and repeat others where a page boundary cuts through the rows of
  one timestamp.  The times it passes on are right all the same: two listings of the same
  rows have the same keys in the same places, so the pages of any choice of listings have
  the keys of one listing.  Nobody writes to the table meanwhile, and every request succeeds.
-/
import RtlsStream.History.QuietLoad

set_option autoImplicit false

namespace RtlsStream.History

open RtlsStream.Foundation RtlsStream.Store

variable {f : Filter} {db : Database} {listing : Nat → List EventRow}

/-- The times of the pages are those of one listing, from the offset on. -/
theorem loadFrom_times {L : List EventRow} (hL : Listing f db L)
    (hlisting : ∀ k, Listing f db (listing k)) (request offset : Nat) :
    (loadFrom f db listing request offset).map (·.row.ts) = (L.map (·.row.ts)).drop offset := by
  have hkeys := (hlisting request).keys_eq hL
  by_cases hmore : offset + pageSize < countPositionHistory f db
  · rw [loadFrom_eq (hlisting request), if_pos hmore, List.map_append, List.map_take, List.map_drop,
      hkeys, loadFrom_times hL hlisting (request + 1) (offset + pageSize), ← List.drop_drop,
      List.take_append_drop]
  · rw [loadFrom_eq (hlisting request), if_neg hmore, List.map_drop, hkeys]
termination_by countPositionHistory f db - offset
decreasing_by
  have hpage : 0 < pageSize := by decide
  omega

/-- The rows of a tag have the times of the matching rows, each as often. -/
theorem loadFrom_times_perm (hlisting : ∀ k, Listing f db (listing k)) :
    ((loadFrom f db listing 0 0).map (·.row.ts)).Perm ((matching f db).map (·.row.ts)) := by
  rw [loadFrom_times (hlisting 0) hlisting 0 0, List.drop_zero]
  exact (hlisting 0).perm.map _

variable {fromTs toTs : Option Int} {listing : PgText → Nat → List EventRow}
variable {selectedTags : List PgText}

/-- The pages of a tag have rows of that tag only. -/
theorem tagId_of_mem_loadFrom (hchoice : Choice db fromTs toTs listing) {tag : PgText}
    {e : EventRow} (he : e ∈ loadFrom ⟨tag, fromTs, toTs⟩ db (listing tag) 0 0) :
    e.row.tagId = tag := by
  have hmatches := mem_of_mem_loadFrom (hchoice tag) he
  exact (Filter.selects_iff.mp (mem_matching.mp hmatches).2).1

/-- Of all rows loaded, those of one tag are its pages. -/
theorem filter_rowsLoaded (hchoice : Choice db fromTs toTs listing) (hset : selectedTags.Nodup)
    {tag : PgText} (htag : tag ∈ selectedTags) :
    (rowsLoaded db fromTs toTs listing selectedTags).filter (·.row.tagId = tag) =
      loadFrom ⟨tag, fromTs, toTs⟩ db (listing tag) 0 0 := by
  have hown : ∀ other : PgText, (loadFrom ⟨other, fromTs, toTs⟩ db (listing other) 0 0).filter
      (·.row.tagId = tag) =
        if other = tag then loadFrom ⟨other, fromTs, toTs⟩ db (listing other) 0 0 else [] := by
    intro other
    split
    · rename_i heq
      refine List.filter_eq_self.mpr fun e he => ?_
      simpa [heq] using tagId_of_mem_loadFrom hchoice he
    · rename_i hne
      refine List.filter_eq_nil_iff.mpr fun e he => ?_
      rw [tagId_of_mem_loadFrom hchoice he]
      simpa using hne
  unfold rowsLoaded
  rw [List.filter_flatMap]
  simp only [hown]
  induction selectedTags with
  | nil => cases htag
  | cons first rest ih =>
    obtain ⟨hfirst, hrest⟩ := List.nodup_cons.mp hset
    rw [List.flatMap_cons]
    rcases List.mem_cons.mp htag with rfl | hmem
    · have hnone : rest.flatMap (fun other => if other = tag then
          loadFrom ⟨other, fromTs, toTs⟩ db (listing other) 0 0 else []) = [] := by
        refine List.flatMap_eq_nil_iff.mpr fun other hother => ?_
        rw [if_neg fun heq : other = tag => hfirst (heq ▸ hother)]
      rw [if_pos rfl, hnone, List.append_nil]
    · have hne : first ≠ tag := fun heq : first = tag => hfirst (heq ▸ hmem)
      rw [if_neg hne, List.nil_append]
      exact ih hrest hmem

theorem rows_of_load {points : List PositionOut}
    (hload : handleLoad db fromTs toTs listing selectedTags = some points) :
    points = (rowsLoaded db fromTs toTs listing selectedTags).map fun e => positionOut e.row := by
  unfold handleLoad at hload
  split at hload
  · cases hload
  · exact (Option.some.inj hload).symm

/-- Of a selected tag the points have the times of the matching rows, each as often. -/
theorem times_of_tag {points : List PositionOut} (hchoice : Choice db fromTs toTs listing)
    (hset : selectedTags.Nodup)
    (hload : handleLoad db fromTs toTs listing selectedTags = some points) {tag : PgText}
    (htag : tag ∈ selectedTags) :
    ((points.filter (·.tagId = tag)).map (·.tsUtcMs.1)).Perm
      ((matching ⟨tag, fromTs, toTs⟩ db).map (·.row.ts)) := by
  obtain rfl := rows_of_load hload
  have hpages := filter_rowsLoaded hchoice hset htag
  have htimes := loadFrom_times_perm (hchoice tag)
  rw [← hpages] at htimes
  rw [List.filter_map, List.map_map]
  exact htimes

/-- Every point is one of a matching row of a selected tag. -/
theorem row_of_point {points : List PositionOut} (hchoice : Choice db fromTs toTs listing)
    (hload : handleLoad db fromTs toTs listing selectedTags = some points) {p : PositionOut}
    (hp : p ∈ points) :
    p.tagId ∈ selectedTags ∧ ∃ e ∈ matching ⟨p.tagId, fromTs, toTs⟩ db, p = positionOut e.row := by
  obtain rfl := rows_of_load hload
  obtain ⟨e, he, rfl⟩ := List.mem_map.mp hp
  obtain ⟨tag, htag, hpage⟩ := List.mem_flatMap.mp he
  have htagId : e.row.tagId = tag := tagId_of_mem_loadFrom hchoice hpage
  refine ⟨?_, e, ?_, rfl⟩
  · rwa [positionOut, htagId]
  · rw [positionOut, htagId]
    exact mem_of_mem_loadFrom (hchoice tag) hpage

/-- Whatever orders its requests find, a load passes on points of the matching rows only, and
of each selected tag every time as often as there are rows of it. -/
theorem load_times {points : List PositionOut} (hchoice : Choice db fromTs toTs listing)
    (hset : selectedTags.Nodup)
    (hload : handleLoad db fromTs toTs listing selectedTags = some points) :
    (∀ tag ∈ selectedTags, ((points.filter (·.tagId = tag)).map (·.tsUtcMs.1)).Perm
      ((matching ⟨tag, fromTs, toTs⟩ db).map (·.row.ts))) ∧
    ∀ p ∈ points, p.tagId ∈ selectedTags ∧
      ∃ e ∈ matching ⟨p.tagId, fromTs, toTs⟩ db, p = positionOut e.row :=
  ⟨fun _ htag => times_of_tag hchoice hset hload htag, fun _ hp => row_of_point hchoice hload hp⟩

/-- Two tied rows, in the order the request happens to find. -/
theorem load_times_two :
    ∃ points, handleLoad (tiedTable 2) none none
      (fun tag _ => if tag = sampleTag then [tiedRow 1, tiedRow 0] else []) [sampleTag] =
        some points ∧
      ((points.filter (·.tagId = sampleTag)).map (·.tsUtcMs.1)).Perm [1000, 1000] := by
  have hload : handleLoad (tiedTable 2) none none
      (fun tag _ => if tag = sampleTag then [tiedRow 1, tiedRow 0] else []) [sampleTag] = some _ :=
    if_neg (by simp)
  have htimes := (load_times (fun tag _ => listing_tiedTable (List.Perm.swap ..) tag) (by simp)
    hload).1 sampleTag (by simp)
  rw [matching_tiedTable, if_pos rfl] at htimes
  exact ⟨_, hload, by simpa [tiedRow_ts, List.range_succ] using htimes⟩

end RtlsStream.History
