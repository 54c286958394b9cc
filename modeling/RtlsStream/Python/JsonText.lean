/-
  Python/JsonText.lean --- `json.loads` and `json.dumps`.

  The scanner is CPython's (`_json.c`, the C scanner of 3.12): strict strings,
  `NaN` and the infinities admitted, the last of two equal keys wins, and the
  position an error names is where the C code stops.  It is total by fuel; the
  fuel is never short, because every call consumes a code point or opens a
  container.  Apart from `JSONDecodeError` it can raise `ValueError` (an integer
  beyond the digit limit) and `RecursionError` (nesting beyond the interpreter's
  limit), which the program's handlers do not all expect.
-/
import RtlsStream.Python.Json

set_option autoImplicit false

namespace RtlsStream.Python

open RtlsStream.Foundation

/-! ## Scanning -/

/-- A scan consumes a prefix of the text and returns the rest. -/
abbrev Scan (α : Type) : Type := Except PyError (α × Str)

theorem map_eq_ok {α β : Type} {x : Except PyError α} {f : α → β} {b : β} :
    x.map f = .ok b ↔ ∃ a, x = .ok a ∧ f a = b := by
  cases x <;> simp [Except.map]

theorem bind_eq_ok {α β : Type} {x : Except PyError α} {f : α → Except PyError β} {b : β} :
    (x >>= f) = .ok b ↔ ∃ a, x = .ok a ∧ f a = .ok b := by
  cases x <;> simp [bind, Except.bind]

/-- The error `msg` at the place where `rest` is what is left of a document of `total`
code points. -/
def failAt {α : Type} (total : Nat) (msg : String) (rest : Str) : Except PyError α :=
  .error (.jsonDecodeError (text msg) (total - rest.length))

/-- `str(exc)` of a `JSONDecodeError` raised for `doc` -/
def jsonErrorText (doc msg : Str) (pos : Nat) : Str :=
  let before := doc.take pos
  let line := before.count 10 + 1
  let column := (before.reverse.takeWhile (· ≠ 10)).length + 1
  msg ++ text ": line " ++ natText line ++ text " column " ++ natText column ++ text " (char " ++
    natText pos ++ text ")"

def isJsonSpace (c : CodePoint) : Bool := c == 32 || c == 9 || c == 10 || c == 13

def skipSpace (s : Str) : Str := s.dropWhile isJsonSpace

/-- The one-letter escapes of a string. -/
def simpleEscape (c : CodePoint) : Option CodePoint :=
  if c = 34 ∨ c = 92 ∨ c = 47 then some c
  else if c = 98 then some 8
  else if c = 102 then some 12
  else if c = 110 then some 10
  else if c = 114 then some 13
  else if c = 116 then some 9
  else none

/-- Four hexadecimal digits. -/
def hex4 (a b c d : CodePoint) : Option Nat := do
  let a ← asciiHexDigit a
  let b ← asciiHexDigit b
  let c ← asciiHexDigit c
  let d ← asciiHexDigit d
  some (((a * 16 + b) * 16 + c) * 16 + d)

/-- The code units of a string up to its closing quote; a unit is marked when it was
written as `\uXXXX`.  `opening` is the text from the opening quote on. -/
def scanUnits (total : Nat) (opening : Str) : Str → Scan (List (CodePoint × Bool))
  | [] => failAt total "Unterminated string starting at" opening
  | c :: rest =>
    if c = 34 then .ok ([], rest)
    else if c ≤ 0x1f then failAt total "Invalid control character at" (c :: rest)
    else if c = 92 then
      match rest with
      | [] => failAt total "Unterminated string starting at" opening
      | 117 :: h₁ :: h₂ :: h₃ :: h₄ :: next :: rest' =>
        match hex4 h₁ h₂ h₃ h₄ with
        | some u => (scanUnits total opening (next :: rest')).map fun r => ((u, true) :: r.1, r.2)
        | none => failAt total "Invalid \\uXXXX escape" rest
      | 117 :: _ => failAt total "Invalid \\uXXXX escape" rest
      | x :: rest' =>
        match simpleEscape x with
        | some u => (scanUnits total opening rest').map fun r => ((u, false) :: r.1, r.2)
        | none => failAt total "Invalid \\escape" (c :: rest)
    else (scanUnits total opening rest).map fun r => ((c, false) :: r.1, r.2)

def isHighSurrogate (c : CodePoint) : Bool := 0xd800 ≤ c && c ≤ 0xdbff

def isLowSurrogate (c : CodePoint) : Bool := 0xdc00 ≤ c && c ≤ 0xdfff

/-- Two escaped surrogates that form a pair are one code point. -/
def joinSurrogates : List (CodePoint × Bool) → Str
  | [] => []
  | [(c, _)] => [c]
  | (h, escaped) :: (l, escaped') :: rest =>
    if escaped && escaped' && isHighSurrogate h && isLowSurrogate l then
      (0x10000 + (h - 0xd800) * 0x400 + (l - 0xdc00)) :: joinSurrogates rest
    else h :: joinSurrogates ((l, escaped') :: rest)

/-- A string, from behind its opening quote. -/
def scanString (total : Nat) (rest : Str) : Scan Str :=
  (scanUnits total (34 :: rest) rest).map fun r => (joinSurrogates r.1, r.2)

/-- The fraction a number may have; empty where no digit follows the point. -/
def matchFraction : Str → Str × Str
  | 46 :: rest =>
    let digits := rest.takeWhile isAsciiDigit
    if digits = [] then ([], 46 :: rest) else (46 :: digits, rest.dropWhile isAsciiDigit)
  | s => ([], s)

/-- The exponent a number may have; empty where no digit follows. -/
def matchExponent : Str → Str × Str
  | [] => ([], [])
  | c :: rest =>
    if c = 101 ∨ c = 69 then
      let (sign, rest') : Str × Str := match rest with
        | 43 :: r => ([43], r)
        | 45 :: r => ([45], r)
        | _ => ([], rest)
      let digits := rest'.takeWhile isAsciiDigit
      if digits = [] then ([], c :: rest)
      else (c :: sign ++ digits, rest'.dropWhile isAsciiDigit)
    else ([], c :: rest)

/-- The integer part of a number: `0` or digits that do not start with `0`. -/
def matchInteger : Str → Option (Str × Str)
  | [] => none
  | c :: rest =>
    if c = 48 then some ([48], rest)
    else if isAsciiDigit c then
      some ((c :: rest).takeWhile isAsciiDigit, (c :: rest).dropWhile isAsciiDigit)
    else none

/-- The text of a number, whether it has a fraction or an exponent, and the rest. -/
def matchNumber (s : Str) : Option (Str × Bool × Str) :=
  let (sign, unsigned) : Str × Str := match s with
    | 45 :: rest => ([45], rest)
    | _ => ([], s)
  (matchInteger unsigned).map fun (integer, rest) =>
    let (fraction, rest) := matchFraction rest
    let (exponent, rest) := matchExponent rest
    (sign ++ integer ++ fraction ++ exponent, fraction ≠ [] ∨ exponent ≠ [], rest)

/-- The words that stand for a value. -/
def keywords : List (Str × Json) :=
  [(text "null", .null), (text "true", .bool true), (text "false", .bool false),
    (text "NaN", .float .nan), (text "Infinity", .float (.infinity false)),
    (text "-Infinity", .float (.infinity true))]

/-- The word a text starts with, as its value, and the rest. -/
def matchKeyword (s : Str) : Option (Json × Str) :=
  (keywords.find? fun k => k.1.isPrefixOf s).map fun k => (k.2, s.drop k.1.length)

variable [Runtime]

/-- The value of a number's text. -/
def numberValue (isFloat : Bool) (s : Str) : Except PyError Json :=
  if isFloat then
    match floatOfText s with
    | some x => .ok (.float x)
    | none => .error (.valueError (text "could not convert string to float"))
  else
    match intOfText s with
    | some n => .ok (.int n)
    | none => .error (.valueError
        (text "Exceeds the limit (4300 digits) for integer string conversion"))

/-- A word or a number; anything else is no value. -/
def scanScalar (total : Nat) (s : Str) : Scan Json :=
  match matchKeyword s with
  | some r => .ok r
  | none =>
    match matchNumber s with
    | some (number, isFloat, rest) => (numberValue isFloat number).map fun v => (v, rest)
    | none => failAt total "Expecting value" s

mutual

/-- A value (`scan_once`).  `depth` is how many containers may still be opened. -/
def scanValue (total : Nat) : (fuel depth : Nat) → Str → Scan Json
  | 0, _, _ => .error .recursionError
  | fuel + 1, depth, s =>
    match s with
    | [] => failAt total "Expecting value" []
    | c :: rest =>
      if c = 34 then (scanString total rest).map fun r => (.str r.1, r.2)
      else if c = 123 then
        match depth with
        | 0 => .error .recursionError
        | depth + 1 =>
          match skipSpace rest with
          | 125 :: rest' => .ok (.obj [], rest')
          | rest' => (scanMembers total fuel depth [] rest').map fun r => (.obj r.1, r.2)
      else if c = 91 then
        match depth with
        | 0 => .error .recursionError
        | depth + 1 =>
          match skipSpace rest with
          | 93 :: rest' => .ok (.arr [], rest')
          | rest' => (scanItems total fuel depth rest').map fun r => (.arr r.1, r.2)
      else scanScalar total (c :: rest)

/-- The members of an object that is not empty, up to its closing brace. -/
def scanMembers (total : Nat) : (fuel depth : Nat) → Dict Json → Str → Scan (Dict Json)
  | 0, _, _, _ => .error .recursionError
  | fuel + 1, depth, members, s =>
    match s with
    | 34 :: rest =>
      match scanString total rest with
      | .error e => .error e
      | .ok (key, rest) =>
        match skipSpace rest with
        | 58 :: rest =>
          match scanValue total fuel depth (skipSpace rest) with
          | .error e => .error e
          | .ok (value, rest) =>
            match skipSpace rest with
            | 125 :: rest => .ok (members.set key value, rest)
            | 44 :: rest =>
              scanMembers total fuel depth (members.set key value) (skipSpace rest)
            | rest => failAt total "Expecting ',' delimiter" rest
        | rest => failAt total "Expecting ':' delimiter" rest
    | rest => failAt total "Expecting property name enclosed in double quotes" rest

/-- The items of an array that is not empty, up to its closing bracket. -/
def scanItems (total : Nat) : (fuel depth : Nat) → Str → Scan (List Json)
  | 0, _, _ => .error .recursionError
  | fuel + 1, depth, s =>
    match scanValue total fuel depth s with
    | .error e => .error e
    | .ok (item, rest) =>
      match skipSpace rest with
      | 93 :: rest => .ok ([item], rest)
      | 44 :: rest =>
        (scanItems total fuel depth (skipSpace rest)).map fun r => (item :: r.1, r.2)
      | rest => failAt total "Expecting ',' delimiter" rest

end

/-- `JSONDecoder.decode` -/
def decodeDocument (s : Str) : Except PyError Json :=
  match scanValue s.length (2 * s.length + 2) Runtime.jsonDepth (skipSpace s) with
  | .error e => .error e
  | .ok (v, rest) =>
    match skipSpace rest with
    | [] => .ok v
    | rest => failAt s.length "Extra data" rest

/-- `json.loads(s)` of a `str` -/
def loads (s : Str) : Except PyError Json :=
  if s.head? = some 0xfeff then
    .error (.jsonDecodeError (text "Unexpected UTF-8 BOM (decode using utf-8-sig)") 0)
  else decodeDocument s

/-! ## Printing -/

/-- The arguments of `json.dumps` the program varies. -/
structure DumpStyle where
  ensureAscii : Bool
  itemSeparator : Str
  keySeparator : Str

/-- `json.dumps(obj, ensure_ascii=False, separators=(",", ":"))` -/
def compact : DumpStyle := ⟨false, text ",", text ":"⟩

/-- `json.dumps(obj)` -/
def ascii : DumpStyle := ⟨true, text ", ", text ": "⟩

/-- One lower-case hexadecimal digit. -/
def hexDigit (n : Nat) : CodePoint := if n < 10 then n + 48 else n + 87

/-- `\uXXXX` for a code unit. -/
def unitEscape (u : Nat) : Str :=
  [92, 117, hexDigit (u / 4096 % 16), hexDigit (u / 256 % 16), hexDigit (u / 16 % 16),
    hexDigit (u % 16)]

/-- How a code point of a string is written. -/
def escapeChar (ensureAscii : Bool) (c : CodePoint) : Str :=
  if c = 34 then [92, 34]
  else if c = 92 then [92, 92]
  else if c = 10 then [92, 110]
  else if c = 13 then [92, 114]
  else if c = 9 then [92, 116]
  else if c = 8 then [92, 98]
  else if c = 12 then [92, 102]
  else if c < 32 then unitEscape c
  else if ensureAscii && 126 < c then
    if c < 0x10000 then unitEscape c
    else unitEscape (0xd800 + (c - 0x10000) / 0x400) ++ unitEscape (0xdc00 + (c - 0x10000) % 0x400)
  else [c]

/-- A string with its quotes. -/
def quoted (ensureAscii : Bool) (s : Str) : Str :=
  34 :: s.flatMap (escapeChar ensureAscii) ++ [34]

/-- A float: `repr` where it is finite, the bare words otherwise. -/
def floatText : Binary64 → Str
  | .nan => text "NaN"
  | .infinity negative => if negative then text "-Infinity" else text "Infinity"
  | x => reprFloat x

omit [Runtime] in
mutual

/-- A value as `json.dumps` writes it; `depth` is how many containers may still be
opened. -/
def dumpValue (style : DumpStyle) (depth : Nat) : Json → Except PyError Str
  | .null => .ok (text "null")
  | .bool b => .ok (if b then text "true" else text "false")
  | .int n => strInt n
  | .float x => .ok (floatText x)
  | .str s => .ok (quoted style.ensureAscii s)
  | .arr items =>
    match depth with
    | 0 => .error .recursionError
    | depth + 1 => (dumpItems style depth items).map fun t => 91 :: t ++ [93]
  | .obj members =>
    match depth with
    | 0 => .error .recursionError
    | depth + 1 => (dumpMembers style depth members).map fun t => 123 :: t ++ [125]

def dumpItems (style : DumpStyle) (depth : Nat) : List Json → Except PyError Str
  | [] => .ok []
  | item :: rest => do
    let t ← dumpValue style depth item
    let ts ← dumpItems style depth rest
    .ok (if rest.isEmpty then t else t ++ style.itemSeparator ++ ts)

def dumpMembers (style : DumpStyle) (depth : Nat) : List (Str × Json) → Except PyError Str
  | [] => .ok []
  | (key, value) :: rest => do
    let t ← dumpValue style depth value
    let ts ← dumpMembers style depth rest
    let member := quoted style.ensureAscii key ++ style.keySeparator ++ t
    .ok (if rest.isEmpty then member else member ++ style.itemSeparator ++ ts)

end

/-- `json.dumps(v)` in a given style -/
def dumps (style : DumpStyle) (v : Json) : Except PyError Str :=
  dumpValue style Runtime.jsonDepth v

end RtlsStream.Python
