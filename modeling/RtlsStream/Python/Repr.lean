/-
  Python/Repr.lean --- `str` of a value that `json.loads` returned.

  Both normalisers take `str(value)` of whatever stands under a tag's key, so an
  object or an array becomes its `repr`.
-/
import RtlsStream.Python.JsonText

set_option autoImplicit false

namespace RtlsStream.Python

open RtlsStream.Foundation

/-- `n` in lower-case hexadecimal with exactly `width` digits. -/
def hexText (n : Nat) : (width : Nat) → Str
  | 0 => []
  | width + 1 => hexText (n / 16) width ++ [hexDigit (n % 16)]

variable [Runtime]

/-- How `repr` writes a code point of a string between the given quotes. -/
def reprChar (quote : CodePoint) (c : CodePoint) : Str :=
  if c = quote ∨ c = 92 then [92, c]
  else if c = 9 then [92, 116]
  else if c = 10 then [92, 110]
  else if c = 13 then [92, 114]
  else if c < 32 ∨ c = 127 then [92, 120] ++ hexText c 2
  else if c < 127 then [c]
  else if Runtime.printable c then [c]
  else if c < 0x100 then [92, 120] ++ hexText c 2
  else if c < 0x10000 then [92, 117] ++ hexText c 4
  else [92, 85] ++ hexText c 8

/-- `repr` of a string: in double quotes if it contains single ones and no double ones. -/
def reprText (s : Str) : Str :=
  let quote := if 39 ∈ s ∧ 34 ∉ s then 34 else 39
  quote :: s.flatMap (reprChar quote) ++ [quote]

mutual

/-- `repr(value)`; `depth` is how many containers may still be opened. -/
def reprValue (depth : Nat) : Json → Except PyError Str
  | .null => .ok (text "None")
  | .bool b => .ok (if b then text "True" else text "False")
  | .int n => strInt n
  | .float x => .ok (reprFloat x)
  | .str s => .ok (reprText s)
  | .arr items =>
    match depth with
    | 0 => .error .recursionError
    | depth + 1 => (reprItems depth items).map fun t => 91 :: t ++ [93]
  | .obj members =>
    match depth with
    | 0 => .error .recursionError
    | depth + 1 => (reprMembers depth members).map fun t => 123 :: t ++ [125]

def reprItems (depth : Nat) : List Json → Except PyError Str
  | [] => .ok []
  | item :: rest => do
    let t ← reprValue depth item
    let ts ← reprItems depth rest
    .ok (if rest.isEmpty then t else t ++ text ", " ++ ts)

def reprMembers (depth : Nat) : List (Str × Json) → Except PyError Str
  | [] => .ok []
  | (key, value) :: rest => do
    let t ← reprValue depth value
    let ts ← reprMembers depth rest
    let member := reprText key ++ text ": " ++ t
    .ok (if rest.isEmpty then member else member ++ text ", " ++ ts)

end

/-- `str(value)` -/
def pyStr : Json → Except PyError Str
  | .str s => .ok s
  | v => reprValue Runtime.reprDepth v

end RtlsStream.Python
