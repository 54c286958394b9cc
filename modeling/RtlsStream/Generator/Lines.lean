/-
  Generator/Lines.lean --- the objects of a JSONL file.

  `get_validated_objects_from_file` reads a file line by line, skips blank lines, and
  collects the objects the schema accepts and, apart from them, the errors of the other
  lines.  What it returns is a function of the lines (`validateLines_eq`): the objects of
  the valid ones, and the errors of the others, both in their order.

  Two things can stop it, an exception of `json.loads` other than `JSONDecodeError` and one
  of the schema package; `LoadsSafely` and `ChecksScheme` rule them out.
-/
import RtlsStream.Python.Bytes
import RtlsStream.Receiver.Validate

set_option autoImplicit false

namespace RtlsStream.Generator

open RtlsStream.Python RtlsStream.Receiver

/-! ## Reading a file -/

/-- Universal newlines: `\r\n` and `\r` are read as `\n`. -/
def translateNewlines : Str → Str
  | 13 :: 10 :: rest => 10 :: translateNewlines rest
  | 13 :: rest => 10 :: translateNewlines rest
  | c :: rest => c :: translateNewlines rest
  | [] => []

/-- The lines of a text, each with the newline that ends it. -/
def linesOf : Str → List Str
  | [] => []
  | c :: rest =>
    if c = 10 then [c] :: linesOf rest
    else
      match linesOf rest with
      | [] => [[c]]
      | line :: others => (c :: line) :: others

/-- The lines of `open(file_path, "r", encoding="utf-8")`. -/
def readLines (content : Bytes) : Except PyError (List Str) :=
  match decodeUtf8 false content with
  | some s => .ok (linesOf (translateNewlines s))
  | none => .error .unicodeDecodeError

variable [Runtime]

/-! ## Validation -/

/-- The loop over `enumerate(file, start=1)`. -/
def validateLines (self : Validator) : List (Str × Nat) → List ValidatedObject →
    List ValidationError → Except PyError (List ValidatedObject × List ValidationError)
  | [], objects, errors => .ok (objects, errors)
  | (line, lineNo) :: rest, objects, errors =>
    let s := strip line
    if s = [] then validateLines self rest objects errors
    else
      match self.getValidatedObject s lineNo with
      | .error e => .error e
      | .ok (.error lineErrors) => validateLines self rest objects (errors ++ lineErrors)
      | .ok (.ok obj) => validateLines self rest (objects ++ [obj]) errors

/-- `get_validated_objects_from_file` -/
def getValidatedObjectsFromFile (self : Validator) (content : Bytes) :
    Except PyError (List ValidatedObject × List ValidationError) :=
  match readLines content with
  | .error e => .error e
  | .ok lines => validateLines self (lines.zipIdx 1) [] []

/-- The object of a line, if the schema accepts it. -/
def validOf (line : Str) : Option Json :=
  match loads (strip line) with
  | .ok v => if scheme v then some v else none
  | .error _ => none

/-- A line that is not blank and has no valid object. -/
def Rejected (line : Str) : Prop := strip line ≠ [] ∧ validOf line = none

/-- `json.loads` fails on the line with `JSONDecodeError`, if at all. -/
def LoadsSafely (line : Str) : Prop :=
  ∀ e, loads (strip line) = .error e → ∃ msg pos, e = .jsonDecodeError msg pos

/-- The schema package returns, and its errors are those of the schema. -/
structure ChecksScheme (iterErrors : IterErrors) : Prop where
  validates : Validates iterErrors
  returns : ∀ v, ∃ errors, iterErrors v = .ok errors

theorem checksScheme_schemeErrors : ChecksScheme schemeErrors :=
  ⟨validates_schemeErrors, fun _ => ⟨_, rfl⟩⟩

/-- The errors of a line. -/
def errorsOf (self : Validator) (line : Str × Nat) : List ValidationError :=
  if strip line.1 = [] then []
  else
    match self.getValidatedObject (strip line.1) line.2 with
    | .ok (.error errors) => errors
    | _ => []

variable {self : Validator} {line : Str} {lineNo : Nat}

theorem loads_nil : ∃ e, loads [] = .error e := ⟨_, rfl⟩

theorem validOf_blank (h : strip line = []) : validOf line = none := by
  obtain ⟨e, he⟩ := loads_nil
  rw [validOf, h, he]

theorem getValidatedObject_of_valid (hchecks : ChecksScheme self.iterErrors) (lineNo : Nat)
    {v : Json} (h : validOf line = some v) :
    self.getValidatedObject (strip line) lineNo = .ok (.ok ⟨self.origin, v⟩) := by
  unfold validOf at h
  split at h
  · rename_i w hloads
    split at h
    · rename_i hscheme
      obtain rfl := Option.some.inj h
      simp only [Validator.getValidatedObject, hloads, (hchecks.validates w).mpr hscheme]
    · cases h
  · cases h

theorem getValidatedObject_of_invalid (hchecks : ChecksScheme self.iterErrors) (lineNo : Nat)
    (hline : LoadsSafely line) (h : validOf line = none) :
    ∃ errors, self.getValidatedObject (strip line) lineNo = .ok (.error errors) ∧
      errors ≠ [] ∧ ∀ e ∈ errors, e.lineNo = lineNo := by
  cases hloads : loads (strip line) with
  | error e =>
    obtain ⟨msg, pos, rfl⟩ := hline e hloads
    refine ⟨[⟨[], lineNo, text "Invalid JSON: " ++ jsonErrorText (strip line) msg pos⟩], ?_,
      by simp, by simp⟩
    simp only [Validator.getValidatedObject, hloads]
  | ok v =>
    obtain ⟨errors, herrors⟩ := hchecks.returns v
    have hne : errors ≠ [] := by
      rintro rfl
      have hscheme := (hchecks.validates v).mp herrors
      simp [validOf, hloads, hscheme] at h
    refine ⟨errors.map fun e => ⟨joinDots (e.1.map PathItem.text), lineNo, e.2⟩, ?_,
      by simpa using hne, ?_⟩
    swap
    · intro e he
      obtain ⟨_, -, rfl⟩ := List.mem_map.mp he
      rfl
    obtain ⟨first, others, rfl⟩ := List.exists_cons_of_ne_nil hne
    simp only [Validator.getValidatedObject, hloads, herrors]

/-- The objects of the valid lines and the errors of the others, in the order of the lines. -/
theorem validateLines_eq (hchecks : ChecksScheme self.iterErrors) {lines : List (Str × Nat)}
    (hlines : ∀ line ∈ lines, LoadsSafely line.1) (objects : List ValidatedObject)
    (errors : List ValidationError) :
    validateLines self lines objects errors =
      .ok (objects ++ (lines.filterMap fun line => validOf line.1).map fun v => ⟨self.origin, v⟩,
        errors ++ lines.flatMap (errorsOf self)) := by
  induction lines generalizing objects errors with
  | nil => simp [validateLines]
  | cons head rest ih =>
    obtain ⟨line, lineNo⟩ := head
    obtain ⟨hline, hrest⟩ := List.forall_mem_cons.mp hlines
    by_cases hblank : strip line = []
    · simp [validateLines, errorsOf, hblank, validOf_blank hblank, ih hrest]
    · cases hvalid : validOf line with
      | some v =>
        have hobject := getValidatedObject_of_valid hchecks lineNo hvalid
        simp [validateLines, errorsOf, hblank, hvalid, hobject, ih hrest]
      | none =>
        obtain ⟨lineErrors, hobject, -, -⟩ :=
          getValidatedObject_of_invalid hchecks lineNo hline hvalid
        simp [validateLines, errorsOf, hblank, hvalid, hobject, ih hrest]

/-- The numbers of the errors are those of the rejected lines. -/
theorem exists_errorsOf_iff (hchecks : ChecksScheme self.iterErrors) (hline : LoadsSafely line)
    (n : Nat) : (∃ e ∈ errorsOf self (line, lineNo), e.lineNo = n) ↔ lineNo = n ∧ Rejected line := by
  unfold errorsOf Rejected
  by_cases hblank : strip line = []
  · simp [hblank]
  · cases hvalid : validOf line with
    | some v => simp [hblank, getValidatedObject_of_valid hchecks lineNo hvalid]
    | none =>
      obtain ⟨errors, hobject, hne, hnumbers⟩ :=
        getValidatedObject_of_invalid hchecks lineNo hline hvalid
      obtain ⟨first, others, rfl⟩ := List.exists_cons_of_ne_nil hne
      simp only [hblank, if_false, hobject]
      constructor
      · rintro ⟨e, he, rfl⟩
        exact ⟨(hnumbers e he).symm, hblank, trivial⟩
      · rintro ⟨rfl, -⟩
        exact ⟨first, by simp, hnumbers first (by simp)⟩

/-- The errors come in the order of their lines. -/
theorem errors_ordered (hchecks : ChecksScheme self.iterErrors) {lines : List (Str × Nat)}
    (hlines : ∀ line ∈ lines, LoadsSafely line.1)
    (hordered : lines.Pairwise fun a b => a.2 ≤ b.2) :
    (lines.flatMap (errorsOf self)).Pairwise fun a b => a.lineNo ≤ b.lineNo := by
  have hnumber : ∀ line ∈ lines, ∀ e ∈ errorsOf self line, e.lineNo = line.2 := by
    intro line hline e he
    exact ((exists_errorsOf_iff hchecks (hlines line hline) e.lineNo).mp ⟨e, he, rfl⟩).1.symm
  rw [List.pairwise_flatMap]
  refine ⟨fun line hline => ?_, ?_⟩
  · refine List.pairwise_of_forall_mem_list fun a ha b hb => ?_
    rw [hnumber line hline a ha, hnumber line hline b hb]
  · refine hordered.imp_of_mem fun {a b} hmema hmemb hle e he e' he' => ?_
    rw [hnumber a hmema e he, hnumber b hmemb e' he']
    exact hle

/-- The errors of a file: in line order, and of the rejected lines only, each of which has
one. -/
structure Reports (lines : List Str) (errors : List ValidationError) : Prop where
  ordered : errors.Pairwise fun a b => a.lineNo ≤ b.lineNo
  of_rejected : ∀ n, (∃ e ∈ errors, e.lineNo = n) ↔ ∃ line, (line, n) ∈ lines.zipIdx 1 ∧ Rejected line

/-- What a file that can be decoded gives. -/
theorem getValidatedObjectsFromFile_eq (hchecks : ChecksScheme self.iterErrors) {content : Bytes}
    {lines : List Str} (hread : readLines content = .ok lines)
    (hlines : ∀ line ∈ lines, LoadsSafely line) :
    ∃ errors, getValidatedObjectsFromFile self content =
        .ok ((lines.filterMap validOf).map fun v => ⟨self.origin, v⟩, errors) ∧
      Reports lines errors := by
  have hnumbered : ∀ line ∈ lines.zipIdx 1, LoadsSafely line.1 := fun line hline =>
    hlines line.1 (List.fst_mem_of_mem_zipIdx hline)
  have hobjects : (lines.zipIdx 1).filterMap (fun line => validOf line.1) =
      lines.filterMap validOf := by
    have hcomp := List.filterMap_map (f := Prod.fst) (g := validOf) (l := lines.zipIdx 1)
    rw [List.zipIdx_map_fst] at hcomp
    exact hcomp.symm
  refine ⟨(lines.zipIdx 1).flatMap (errorsOf self), ?_, ?_, ?_⟩
  · simp only [getValidatedObjectsFromFile, hread, validateLines_eq hchecks hnumbered, hobjects,
      List.nil_append]
  · have hrange : (List.range' 1 lines.length).Pairwise (· ≤ ·) := List.pairwise_le_range'
    rw [← List.zipIdx_map_snd 1 lines, List.pairwise_map] at hrange
    exact errors_ordered hchecks hnumbered hrange
  · intro n
    simp only [List.mem_flatMap]
    constructor
    · rintro ⟨e, ⟨⟨line, lineNo⟩, hmem, he⟩, rfl⟩
      obtain ⟨hn, hrejected⟩ :=
        (exists_errorsOf_iff hchecks (hnumbered _ hmem) e.lineNo).mp ⟨e, he, rfl⟩
      exact ⟨line, hn ▸ hmem, hrejected⟩
    · rintro ⟨line, hmem, hrejected⟩
      obtain ⟨e, he, hn⟩ := (exists_errorsOf_iff hchecks (hnumbered _ hmem) n).mpr ⟨rfl, hrejected⟩
      exact ⟨e, ⟨_, hmem, he⟩, hn⟩

end RtlsStream.Generator
