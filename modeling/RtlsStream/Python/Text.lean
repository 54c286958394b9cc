/-
  Python/Text.lean --- the `str` type, its methods the program calls, and the
  interpreter facts that are data rather than code.

  A Python string is a sequence of code points in which lone surrogates may
  occur, so it is a list of numbers here and not a Lean `String`.  What a `str`
  method takes from the Unicode character database (case mapping, decimal digits
  outside ASCII, printability) and the nesting that `json` admits before it
  raises `RecursionError` differ between interpreter builds; they are the fields
  of `Runtime`, which every definition that needs them takes as an instance.
-/
import Mathlib.Data.List.DropRight
import Mathlib.Data.Nat.Digits.Defs

set_option autoImplicit false

namespace RtlsStream.Python

/-- A code point: a Unicode scalar value or a lone surrogate. -/
abbrev CodePoint := Nat

/-- A Python `str`. -/
abbrev Str := List CodePoint

/-- The code points of a literal. -/
def text (s : String) : Str := s.toList.map Char.toNat

/-- ASCII lower case of one code point. -/
def asciiLower (c : CodePoint) : CodePoint :=
  if 65 ≤ c ∧ c ≤ 90 then c + 32 else c

/-- `str.isspace` of one code point. -/
def isSpace (c : CodePoint) : Bool :=
  (9 ≤ c && c ≤ 13) || (0x1c ≤ c && c ≤ 0x20) || c == 0x85 || c == 0xa0 ||
    c == 0x1680 || (0x2000 ≤ c && c ≤ 0x200a) || c == 0x2028 || c == 0x2029 ||
    c == 0x202f || c == 0x205f || c == 0x3000

/-- What the interpreter brings along: Unicode data and a recursion limit. -/
class Runtime where
  /-- `str.lower` -/
  lower : Str → Str
  /-- on ASCII text `str.lower` maps `A`..`Z` to `a`..`z` and nothing else -/
  lower_ascii : ∀ s : Str, (∀ c ∈ s, c < 128) → lower s = s.map asciiLower
  /-- the decimal digit value of a code point outside ASCII -/
  decimal : CodePoint → Option (Fin 10)
  /-- a digit is no white space -/
  decimal_of_isSpace : ∀ c, isSpace c → decimal c = none
  /-- `str.isprintable` of one code point outside ASCII -/
  printable : CodePoint → Bool
  /-- how many containers `json` reads or writes inside each other -/
  jsonDepth : Nat
  /-- the limit leaves room for the documents the program builds itself -/
  jsonDepth_ge : 16 ≤ jsonDepth
  /-- how many containers `repr` writes inside each other -/
  reprDepth : Nat

/-- An interpreter that knows nothing of Unicode beyond ASCII. -/
@[reducible] def asciiRuntime : Runtime where
  lower s := s.map asciiLower
  lower_ascii _ _ := rfl
  decimal _ := none
  decimal_of_isSpace _ _ := rfl
  printable _ := true
  jsonDepth := 1000
  jsonDepth_ge := by decide
  reprDepth := 1000

/-- Exceptions that reach a handler of the program. -/
inductive PyError where
  /-- `json.JSONDecodeError` with its message and position -/
  | jsonDecodeError (msg : Str) (pos : Nat)
  | unicodeDecodeError
  | unicodeEncodeError
  | valueError (msg : Str)
  | overflowError (msg : Str)
  | recursionError
  | keyError (key : Str)
  | attributeError (name : Str)
  | typeError (msg : Str)
  /-- raised inside a package the program calls -/
  | external (msg : Str)
  deriving DecidableEq, Repr

/-! ## White space -/

/-- `str.strip()` -/
def strip (s : Str) : Str := (s.dropWhile isSpace).rdropWhile isSpace

theorem strip_sublist (s : Str) : (strip s).Sublist s :=
  (List.rdropWhile_prefix isSpace _).sublist.trans (List.dropWhile_sublist isSpace)

/-- Stripping removes code points and adds none. -/
theorem mem_of_mem_strip {s : Str} {c : CodePoint} (h : c ∈ strip s) : c ∈ s :=
  (strip_sublist s).subset h

/-! ## Splitting -/

/-- `str.split(sep)` for a separator of one code point. -/
def split (sep : CodePoint) (s : Str) : List Str := s.splitOn sep

/-- `str.split(sep, 1)` of a string in which `sep` occurs: what stands before its
first occurrence and what stands after. -/
def splitFirst (sep : CodePoint) (s : Str) : Str × Str :=
  (s.takeWhile (· ≠ sep), (s.dropWhile (· ≠ sep)).drop 1)

/-- The parts of a split hold only code points of the whole. -/
theorem mem_of_mem_split {sep : CodePoint} :
    ∀ {s part : Str} {c : CodePoint}, part ∈ split sep s → c ∈ part → c ∈ s := by
  intro s
  induction s with
  | nil =>
    intro part c hpart hc
    simp only [split, List.splitOn_nil, List.mem_singleton] at hpart
    simp [hpart] at hc
  | cons d rest ih =>
    intro part c hpart hc
    simp only [split, List.splitOn, List.splitOnP_cons_eq_if_modifyHead] at hpart
    split at hpart
    · simp only [List.mem_cons] at hpart
      rcases hpart with rfl | hpart
      · simp at hc
      · exact List.mem_cons_of_mem d (ih hpart hc)
    · obtain ⟨first, others, hsplit⟩ :=
        List.exists_cons_of_ne_nil (List.splitOnP_ne_nil (p := (· == sep)) rest)
      rw [hsplit, List.modifyHead_cons, List.mem_cons] at hpart
      have hmem : ∀ q ∈ first :: others, q ∈ split sep rest := by
        intro q hq
        rw [split, List.splitOn, hsplit]
        exact hq
      rcases hpart with rfl | hpart
      · rcases List.mem_cons.mp hc with rfl | hc
        · exact List.mem_cons_self
        · exact List.mem_cons_of_mem d (ih (hmem first List.mem_cons_self) hc)
      · exact List.mem_cons_of_mem d (ih (hmem part (List.mem_cons_of_mem _ hpart)) hc)

theorem mem_of_mem_splitFirst {sep c : CodePoint} {s : Str}
    (h : c ∈ (splitFirst sep s).2) : c ∈ s :=
  (List.dropWhile_sublist _).subset (List.mem_of_mem_drop h)

/-- `s.replace(old, new)` from here on, where `skip` more characters belong to an occurrence
of `old` that was replaced. -/
def replaceFrom (old new : Str) : Nat → Str → Str
  | _, [] => []
  | skip + 1, _ :: rest => replaceFrom old new skip rest
  | 0, c :: rest =>
    if old.isPrefixOf (c :: rest) then new ++ replaceFrom old new (old.length - 1) rest
    else c :: replaceFrom old new 0 rest

/-- `s.replace(old, new)`, for an `old` that is not empty. -/
def replace (old new s : Str) : Str := replaceFrom old new 0 s

/-! ## Decimal text of an integer -/

/-- The decimal digits of a natural number, without a leading zero. -/
def natText (n : Nat) : Str :=
  if n = 0 then [48] else (Nat.digits 10 n).reverse.map (· + 48)

/-- The decimal text of an integer. -/
def intText (n : Int) : Str :=
  if n < 0 then 45 :: natText n.natAbs else natText n.natAbs

/-- `sys.int_info.default_max_str_digits`: longer decimal conversions raise
`ValueError`, in either direction. -/
def maxStrDigits : Nat := 4300

/-- `str` of an integer. -/
def strInt (n : Int) : Except PyError Str :=
  if (natText n.natAbs).length ≤ maxStrDigits then .ok (intText n)
  else .error (.valueError
    (text "Exceeds the limit (4300 digits) for integer string conversion; use sys.set_int_max_str_digits() to increase the limit"))

end RtlsStream.Python
