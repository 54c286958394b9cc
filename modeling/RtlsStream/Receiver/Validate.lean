/-
  Receiver/Validate.lean --- `core/validate.py` and `config/ls_1000_scheme.json`.

  The evaluation of a JSON schema is the work of a package; a `Validator` is given
  what `iter_errors` yields.  `scheme` is the schema of the repository as a
  predicate on values, written with one combinator for each keyword group it uses;
  `Validates` says that the errors are those of a validator built from it.
-/
import RtlsStream.Python.Repr

set_option autoImplicit false

namespace RtlsStream.Receiver

open RtlsStream.Foundation RtlsStream.Python

/-! ## `Validator` -/

/-- A step of an error's path. -/
inductive PathItem where
  | key (k : Str)
  | index (i : Nat)

/-- `str` of a step -/
def PathItem.text : PathItem → Str
  | .key k => k
  | .index i => natText i

/-- `ValidationError` -/
structure ValidationError where
  path : Str
  lineNo : Nat
  message : Str
  deriving DecidableEq

/-- `ValidatedObject` -/
structure ValidatedObject where
  origin : Str
  data : Json
  deriving DecidableEq

/-- `Validator`, with what `self.validator.iter_errors` yields for a value. -/
structure Validator where
  origin : Str
  iterErrors : Json → Except PyError (List (List PathItem × Str))

/-- `".".join(...)` -/
def joinDots : List Str → Str
  | [] => []
  | [s] => s
  | s :: rest => s ++ 46 :: joinDots rest

/-- `get_validated_object` -/
def Validator.getValidatedObject [Runtime] (self : Validator) (line : Str) (lineNo : Nat) :
    Except PyError (Except (List ValidationError) ValidatedObject) :=
  match loads line with
  | .error (.jsonDecodeError msg pos) =>
    .ok (.error [⟨[], lineNo, text "Invalid JSON: " ++ jsonErrorText line msg pos⟩])
  | .error e => .error e
  | .ok obj =>
    match self.iterErrors obj with
    | .error e => .error e
    | .ok [] => .ok (.ok ⟨self.origin, obj⟩)
    | .ok errors =>
      .ok (.error (errors.map fun e => ⟨joinDots (e.1.map PathItem.text), lineNo, e.2⟩))

/-- `repr` of a list of errors, as an f-string writes it. -/
def reprErrors [Runtime] (errors : List ValidationError) : Str :=
  let item (e : ValidationError) : Str :=
    text "ValidationError(path=" ++ reprText e.path ++ text ", line_no=" ++ natText e.lineNo ++
      text ", message=" ++ reprText e.message ++ text ")"
  91 :: (List.intersperse (text ", ") (errors.map item)).flatten ++ [93]

/-! ## The keywords of the schema -/

/-- A schema, as the predicate it is on values. -/
abbrev Scheme : Type := Json → Bool

/-- `"type": "string"` with a pattern and bounds on the length -/
def stringScheme (pattern : Str → Bool) (minLength maxLength : Nat) : Scheme
  | .str s => pattern s && minLength ≤ s.length && s.length ≤ maxLength
  | _ => false

/-- `"type": "string"` with a pattern -/
def patternScheme (pattern : Str → Bool) : Scheme
  | .str s => pattern s
  | _ => false

/-- `"type": "integer"`: a float without a fraction is one too. -/
def integerScheme : Scheme
  | .int _ => true
  | .float x => x.isInteger
  | _ => false

/-- The number of a value, for `minimum` and `maximum`. -/
def numberOf : Json → Option ℚ
  | .int n => some n
  | .float (.finite negative m e _) =>
    some (if negative then -Binary64.magnitude m e else Binary64.magnitude m e)
  | _ => none

/-- `"minimum"` and `"maximum"` -/
def boundsScheme (minimum maximum : Int) : Scheme := fun v =>
  match numberOf v with
  | some q => decide ((minimum : ℚ) ≤ q ∧ q ≤ maximum)
  | none => true

/-- `"type": "number"`: a `bool` is none. -/
def numberScheme : Scheme
  | .int _ | .float _ => true
  | _ => false

/-- `"type": "string"` alone -/
def textScheme : Scheme
  | .str _ => true
  | _ => false

/-- `"oneOf"` of two schemas -/
def oneOf (a b : Scheme) : Scheme := fun v => xor (a v) (b v)

/-- `"type": "array"` with a schema for the items -/
def arrayScheme (items : Scheme) : Scheme
  | .arr vs => vs.all items
  | _ => false

/-- `"type": "object"` with `"additionalProperties": false` -/
def objectScheme (properties : List (Str × Scheme)) (required : List Str) : Scheme
  | .obj members =>
    (members.all fun m =>
      match properties.find? (·.1 = m.1) with
      | some property => property.2 m.2
      | none => false) && required.all (Dict.contains members)
  | _ => false

/-! ## `ls_1000_scheme.json` -/

/-- `[0-9A-F]` -/
def isUpperHex (c : CodePoint) : Bool := (48 ≤ c && c ≤ 57) || (65 ≤ c && c ≤ 70)

/-- `$` matches at the end and before a newline at the end. -/
def dropFinalNewline (s : Str) : Str := if s.getLast? = some 10 then s.dropLast else s

/-- `^[0-9A-F]+$` -/
def hexPattern (s : Str) : Bool := dropFinalNewline s ≠ [] && (dropFinalNewline s).all isUpperHex

variable [Runtime]

/-- A text of digits (`none`) and given characters, one by one. -/
def fits : List (Option CodePoint) → Str → Bool
  | [], [] => true
  | none :: shape, c :: s => (decimalDigit c).isSome && fits shape s
  | some d :: shape, c :: s => c = d && fits shape s
  | _, _ => false

omit [Runtime] in
/-- `\d{4}-\d{2}-\d{2} \d{2}:\d{2}:\d{2}\.\d{3}` -/
def timestampShape : List (Option CodePoint) :=
  [none, none, none, none, some 45, none, none, some 45, none, none, some 32, none, none, some 58,
    none, none, some 58, none, none, some 46, none, none, none]

/-- The pattern of `timestamp` -/
def timestampPattern (s : Str) : Bool := fits timestampShape (dropFinalNewline s)

omit [Runtime] in
/-- The schema of an item of `samples` -/
def sampleScheme : Scheme :=
  objectScheme [(text "aid", stringScheme hexPattern 1 32), (text "tof", numberScheme)]
    [text "aid", text "tof"]

omit [Runtime] in
/-- The schema of `position` -/
def positionScheme : Scheme :=
  objectScheme
    [(text "rgn", oneOf integerScheme textScheme), (text "x", numberScheme),
      (text "y", numberScheme), (text "z", numberScheme)]
    [text "rgn", text "x", text "y", text "z"]

/-- The properties of a datagram -/
def properties : List (Str × Scheme) :=
  [(text "devid", stringScheme hexPattern 1 32),
    (text "seq", fun v => integerScheme v && boundsScheme 0 65535 v),
    (text "timestamp", patternScheme timestampPattern),
    (text "samples", arrayScheme sampleScheme), (text "position", positionScheme),
    (text "lat", numberScheme), (text "lng", numberScheme)]

/-- `config/ls_1000_scheme.json` -/
def scheme : Scheme :=
  objectScheme properties
    [text "devid", text "seq", text "timestamp", text "samples", text "position"]

/-- What a schema validator yields for a value. -/
abbrev IterErrors : Type := Json → Except PyError (List (List PathItem × Str))

/-- The errors are those of a validator built from the schema: there is none exactly for
the values the schema accepts. -/
def Validates (iterErrors : IterErrors) : Prop := ∀ v, iterErrors v = .ok [] ↔ scheme v

/-- A validator that says no more than that there is an error. -/
def schemeErrors : IterErrors := fun v =>
  .ok (if scheme v then [] else [([], text "not valid under the given schema")])

theorem validates_schemeErrors : Validates schemeErrors := by
  intro v
  unfold schemeErrors
  cases scheme v <;> simp

end RtlsStream.Receiver
