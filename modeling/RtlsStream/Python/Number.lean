/-
  Python/Number.lean --- `int(text)`, `float(text)` and `repr` of a float.

  `int` and `float` first rewrite the text the way CPython does: any decimal
  digit of Unicode becomes its ASCII digit, any other white space a blank.  Both
  admit single underscores between digits.  A text outside the grammar raises
  `ValueError`, which is `none` here: every caller in the program catches it.

  `repr` of a float is the shortest decimal that reads back as the same value,
  found by trying one significant digit more each time.
-/
import RtlsStream.Python.Text
import RtlsStream.Foundation.Binary64

set_option autoImplicit false

namespace RtlsStream.Python

open RtlsStream.Foundation

/-! ## The text of a numeral -/

/-- The value of an ASCII decimal digit. -/
def asciiDigit (c : CodePoint) : Option Nat :=
  if 48 ≤ c ∧ c ≤ 57 then some (c - 48) else none

/-- The value of an ASCII hexadecimal digit. -/
def asciiHexDigit (c : CodePoint) : Option Nat :=
  if 48 ≤ c ∧ c ≤ 57 then some (c - 48)
  else if 97 ≤ c ∧ c ≤ 102 then some (c - 87)
  else if 65 ≤ c ∧ c ≤ 70 then some (c - 55)
  else none

/-- The decimal digit value of a code point: `\d` of a regular expression matches
exactly the code points that have one. -/
def decimalDigit [Runtime] (c : CodePoint) : Option Nat :=
  if c < 128 then asciiDigit c else (Runtime.decimal c).map Fin.val

/-- The ASCII form of a numeral's text (`_PyUnicode_TransformDecimalAndSpaceToASCII`):
digits and blanks are rewritten, anything else outside ASCII becomes `?`. -/
def toAsciiNumeral [Runtime] (s : Str) : Str :=
  s.map fun c =>
    if c < 128 then c
    else if isSpace c then 32
    else match decimalDigit c with
      | some d => 48 + d
      | none => 63

/-- The white space C's `isspace` knows. -/
def isAsciiSpace (c : CodePoint) : Bool := (9 ≤ c && c ≤ 13) || c == 32

/-- The ASCII form of a numeral's text without the blanks around it. -/
def numeral [Runtime] (s : Str) : Str :=
  ((toAsciiNumeral s).dropWhile isAsciiSpace).rdropWhile isAsciiSpace

/-- A sign that may stand before a numeral: whether it is a minus, and the rest. -/
def takeSign : Str → Bool × Str
  | 45 :: rest => (true, rest)
  | 43 :: rest => (false, rest)
  | s => (false, s)

/-- Digits with single underscores between them; `due` says that a digit must come
next, as it must at the start and after an underscore. -/
def readDigits (digit : CodePoint → Option Nat) (due : Bool) : Str → Option (List Nat)
  | [] => if due then none else some []
  | c :: rest =>
    if c = 95 then
      if due then none else readDigits digit true rest
    else match digit c with
      | none => none
      | some d => (readDigits digit false rest).map (d :: ·)

/-- The number a list of digits denotes. -/
def ofDigitList (base : Nat) (digits : List Nat) : Nat :=
  digits.foldl (fun acc d => acc * base + d) 0

def signed (negative : Bool) (n : Nat) : Int := if negative then -(n : Int) else n

/-! ## `int(text)` -/

/-- `int(text)` -/
def intOfText [Runtime] (s : Str) : Option Int :=
  let (negative, digits) := takeSign (numeral s)
  match readDigits asciiDigit true digits with
  | none => none
  | some ds =>
    if ds.length ≤ maxStrDigits then some (signed negative (ofDigitList 10 ds)) else none

/-- What `int(text, 16)` lets stand before the digits: `0x`, then one underscore. -/
def dropHexPrefix : Str → Str
  | 48 :: 120 :: 95 :: rest => rest
  | 48 :: 88 :: 95 :: rest => rest
  | 48 :: 120 :: rest => rest
  | 48 :: 88 :: rest => rest
  | s => s

/-- `int(text, 16)` -/
def intOfHexText [Runtime] (s : Str) : Option Int :=
  let (negative, digits) := takeSign (numeral s)
  (readDigits asciiHexDigit true (dropHexPrefix digits)).map fun ds =>
    signed negative (ofDigitList 16 ds)

/-! ## `float(text)` -/

def isAsciiDigit (c : CodePoint) : Bool := (asciiDigit c).isSome

/-- Drop the underscores of a float's text; each must stand between two digits. -/
def dropUnderscores (previous : CodePoint) : Str → Option Str
  | [] => if previous = 95 then none else some []
  | c :: rest =>
    if c = 95 then
      if isAsciiDigit previous then dropUnderscores c rest else none
    else if previous = 95 ∧ ¬ isAsciiDigit c then none
    else (dropUnderscores c rest).map (c :: ·)

/-- The exponent that may end a float's text; `none` where something else does. -/
def readExponent : Str → Option Int
  | [] => some 0
  | c :: rest =>
    if c = 101 ∨ c = 69 then
      let (negative, digits) := takeSign rest
      if digits ≠ [] ∧ digits.all isAsciiDigit then
        some (signed negative (ofDigitList 10 (digits.filterMap asciiDigit)))
      else none
    else none

/-- An unsigned decimal: its digits as one number, and its exponent. -/
def readDecimal (s : Str) : Option (Nat × Int) :=
  let whole := s.takeWhile isAsciiDigit
  let afterWhole := s.dropWhile isAsciiDigit
  let (fraction, afterFraction) :=
    match afterWhole with
    | 46 :: rest => (rest.takeWhile isAsciiDigit, rest.dropWhile isAsciiDigit)
    | _ => ([], afterWhole)
  if whole = [] ∧ fraction = [] then none
  else (readExponent afterFraction).map fun e =>
    (ofDigitList 10 ((whole ++ fraction).filterMap asciiDigit), e - fraction.length)

/-- The words `float` knows, in any case. -/
def readSpecial (negative : Bool) (s : Str) : Option Binary64 :=
  let word := s.map asciiLower
  if word = text "inf" ∨ word = text "infinity" then some (.infinity negative)
  else if word = text "nan" then some .nan
  else none

/-- `float(text)` -/
def floatOfText [Runtime] (s : Str) : Option Binary64 :=
  match dropUnderscores 0 (numeral s) with
  | none => none
  | some clean =>
    let (negative, unsigned) := takeSign clean
    match readDecimal unsigned with
    | some (digits, e) => some (Binary64.ofDecimal negative digits e)
    | none => readSpecial negative unsigned

/-! ## `repr` of a float -/

/-- At least two digits of a nonnegative exponent. -/
def exponentText (n : Nat) : Str := if n < 10 then 48 :: natText n else natText n

/-- The digits `digits`, read as `0.digits * 10 ^ point`, as `repr` writes them: plainly
for a decimal point near the digits, with an exponent otherwise. -/
def layout (digits : Str) (point : Int) : Str :=
  if -4 < point ∧ point ≤ 16 then
    if point ≤ 0 then [48, 46] ++ List.replicate (-point).toNat 48 ++ digits
    else if (digits.length : Int) ≤ point then
      digits ++ List.replicate (point - digits.length).toNat 48 ++ [46, 48]
    else digits.take point.toNat ++ 46 :: digits.drop point.toNat
  else
    let mantissa := digits.take 1 ++ (if digits.length ≤ 1 then [] else 46 :: digits.drop 1)
    let e := point - 1
    mantissa ++ 101 :: (if e < 0 then 45 else 43) :: exponentText e.natAbs

/-- The two decimals with `n` significant digits next to `q`, the nearer one first and of two
that are equally near the even one, each with the exponent of its last digit. -/
def neighbours (q : ℚ) (n : Nat) : List (Nat × Int) :=
  let scale := Int.log 10 q + 1 - n
  let below := ⌊q / 10 ^ scale⌋₊
  let rest := q / 10 ^ scale - below
  if rest < 1 / 2 ∨ rest = 1 / 2 ∧ below % 2 = 0 then [(below, scale), (below + 1, scale)]
  else [(below + 1, scale), (below, scale)]

/-- The decimals `repr` tries for a magnitude, shortest first. -/
def decimals (q : ℚ) : List (Nat × Int) :=
  (List.range 17).flatMap fun n => neighbours q (n + 1)

/-- A decimal that reads back as `m * 2 ^ e` in any case: its exact expansion. -/
def exactDecimal (m : Nat) (e : Int) : Nat × Int :=
  if 0 ≤ e then (m * 2 ^ e.toNat, 0) else (m * 5 ^ (-e).toNat, e)

/-- The decimal `repr` prints: the first that reads back as the value. -/
def shortest (m : Nat) (e : Int) (canonical : Canonical m e) : Nat × Int :=
  ((decimals (Binary64.magnitude m e)).find? fun d =>
    Binary64.ofDecimal false d.1 d.2 = .finite false m e canonical).getD (exactDecimal m e)

/-- `repr` of the magnitude of a finite float. -/
def magnitudeText (m : Nat) (e : Int) (canonical : Canonical m e) : Str :=
  if m = 0 then text "0.0"
  else
    let d := shortest m e canonical
    let digits := (natText d.1).rdropWhile (· = 48)
    layout digits ((natText d.1).length + d.2)

/-- `repr` of a float, which is also its `str`. -/
def reprFloat : Binary64 → Str
  | .nan => text "nan"
  | .infinity negative => if negative then text "-inf" else text "inf"
  | .finite negative m e canonical =>
    if negative then 45 :: magnitudeText m e canonical else magnitudeText m e canonical

/-- `int(value)` of a float. -/
def intOfFloat : Binary64 → Except PyError Int
  | .nan => .error (.valueError (text "cannot convert float NaN to integer"))
  | .infinity _ => .error (.overflowError (text "cannot convert float infinity to integer"))
  | .finite negative m e _ => .ok (Binary64.truncate negative m e)

/-- `float(value)` of an integer. -/
def floatOfInt (n : Int) : Except PyError Binary64 :=
  match Binary64.ofInt n with
  | some x => .ok x
  | none => .error (.overflowError (text "int too large to convert to float"))

end RtlsStream.Python
