/-
  Foundation/Topic.lean --- topic patterns.

  A topic is a list of words; in a pattern a segment stands for one given word, for any one
  word, or for any words at all.  `Matches` says what a pattern matches, `matchesBool`
  decides it (`matchesBool_iff`).  A pattern without wildcards matches one topic only
  (`matches_exact`), and a topic whose words are read as segments matches itself
  (`matches_self`), whatever wildcards that makes of them.
-/
import Mathlib.Data.List.Infix

set_option autoImplicit false

namespace RtlsStream.Foundation

variable {α : Type*}

/-- A segment of a pattern. -/
inductive Segment (α : Type*) where
  | exact (word : α)
  /-- one word -/
  | one
  /-- any number of words, none included -/
  | any

/-- The pattern matches the topic. -/
inductive Matches : List (Segment α) → List α → Prop
  | nil : Matches [] []
  | exact {pattern : List (Segment α)} {words : List α} (word : α) : Matches pattern words →
      Matches (.exact word :: pattern) (word :: words)
  | one {pattern : List (Segment α)} {words : List α} (word : α) : Matches pattern words →
      Matches (.one :: pattern) (word :: words)
  | stop {pattern : List (Segment α)} {words : List α} : Matches pattern words →
      Matches (.any :: pattern) words
  | more {pattern : List (Segment α)} {words : List α} (word : α) : Matches (.any :: pattern) words →
      Matches (.any :: pattern) (word :: words)

/-- Behind `any` a pattern may go on after any of the words. -/
theorem matches_any_iff {pattern : List (Segment α)} {words : List α} :
    Matches (.any :: pattern) words ↔ ∃ rest, rest <:+ words ∧ Matches pattern rest := by
  constructor
  · intro h
    induction words with
    | nil =>
      cases h with
      | stop h => exact ⟨[], List.suffix_rfl, h⟩
    | cons word words ih =>
      cases h with
      | stop h => exact ⟨word :: words, List.suffix_rfl, h⟩
      | more _ h =>
        obtain ⟨rest, hrest, hmatches⟩ := ih h
        exact ⟨rest, hrest.trans (List.suffix_cons word words), hmatches⟩
  · rintro ⟨rest, ⟨front, rfl⟩, h⟩
    induction front with
    | nil => exact .stop h
    | cons word front ih => exact .more word ih

/-- A pattern without wildcards matches one topic only. -/
theorem matches_exact {pattern words : List α} :
    Matches (pattern.map .exact) words ↔ words = pattern := by
  constructor
  · intro h
    induction pattern generalizing words with
    | nil =>
      cases h
      rfl
    | cons word pattern ih =>
      cases h with
      | exact _ h => rw [ih h]
  · rintro rfl
    induction words with
    | nil => exact .nil
    | cons word words ih => exact .exact word ih

/-- Words read as segments match themselves. -/
theorem matches_self {read : α → Segment α} (hread : ∀ word other, read word = .exact other →
    other = word) (words : List α) : Matches (words.map read) words := by
  induction words with
  | nil => exact .nil
  | cons word words ih =>
    rw [List.map_cons]
    cases hword : read word with
    | exact other =>
      obtain rfl := hread word other hword
      exact .exact other ih
    | one => exact .one word ih
    | any => exact .more word (.stop ih)

variable [DecidableEq α]

/-- The decision procedure -/
def matchesBool : List (Segment α) → List α → Bool
  | [], words => words.isEmpty
  | .exact word :: pattern, words =>
    match words with
    | [] => false
    | first :: rest => first = word && matchesBool pattern rest
  | .one :: pattern, words =>
    match words with
    | [] => false
    | _ :: rest => matchesBool pattern rest
  | .any :: pattern, words => words.tails.any (matchesBool pattern)

theorem matchesBool_iff {pattern : List (Segment α)} {words : List α} :
    matchesBool pattern words = true ↔ Matches pattern words := by
  induction pattern generalizing words with
  | nil =>
    rw [matchesBool, List.isEmpty_iff]
    constructor
    · rintro rfl
      exact .nil
    · intro h
      cases h
      rfl
  | cons segment pattern ih =>
    cases segment with
    | exact word =>
      cases words with
      | nil =>
        simp only [matchesBool, Bool.false_eq_true, false_iff]
        intro h
        cases h
      | cons first rest =>
        simp only [matchesBool, Bool.and_eq_true, decide_eq_true_eq, ih]
        constructor
        · rintro ⟨rfl, h⟩
          exact .exact first h
        · intro h
          cases h with
          | exact _ h => exact ⟨rfl, h⟩
    | one =>
      cases words with
      | nil =>
        simp only [matchesBool, Bool.false_eq_true, false_iff]
        intro h
        cases h
      | cons first rest =>
        rw [matchesBool, ih]
        constructor
        · exact fun h => .one first h
        · intro h
          cases h with
          | one _ h => exact h
    | any =>
      rw [matchesBool, List.any_eq_true, matches_any_iff]
      simp only [List.mem_tails, ih]

instance (pattern : List (Segment α)) (words : List α) : Decidable (Matches pattern words) :=
  decidable_of_iff _ matchesBool_iff

end RtlsStream.Foundation
