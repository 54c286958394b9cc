/-
  Receiver/Envelope.lean --- `core/envelope`.

  A registry holds a builder for each version; the default registry knows version
  `1.0` only.
-/
import RtlsStream.Python.Json
import Mathlib.Data.List.Lex

set_option autoImplicit false

namespace RtlsStream.Receiver

open RtlsStream.Python

/-- `EnvelopeContext`.  The origin is text unless a payload that was not validated says
otherwise. -/
structure EnvelopeContext where
  schemaVersion : Str
  eventType : Str
  origin : Json
  normalized : Bool
  ingestedAtMs : Int

/-- `EnvelopeBuilder` -/
structure EnvelopeBuilder where
  schemaVersion : Str
  build : Json → EnvelopeContext → Dict Json

/-- `EnvelopeV1Builder` -/
def envelopeV1Builder : EnvelopeBuilder where
  schemaVersion := text "1.0"
  build payload context :=
    [(text "schema_version", .str (text "1.0")), (text "event_type", .str context.eventType),
      (text "origin", context.origin), (text "normalized", .bool context.normalized),
      (text "ingested_at_ms", .int context.ingestedAtMs), (text "payload", payload)]

/-- `EnvelopeRegistry` -/
abbrev EnvelopeRegistry : Type := Dict EnvelopeBuilder

/-- `register` -/
def EnvelopeRegistry.register (registry : EnvelopeRegistry) (builder : EnvelopeBuilder) :
    EnvelopeRegistry :=
  Dict.set registry builder.schemaVersion builder

/-- `", ".join(sorted(keys)) or "<none>"` -/
def EnvelopeRegistry.supported (registry : EnvelopeRegistry) : Str :=
  let keys := (registry.map (·.1)).mergeSort (fun a b => decide (a ≤ b))
  let joined := (List.intersperse (text ", ") keys).flatten
  if joined = [] then text "<none>" else joined

/-- `get` -/
def EnvelopeRegistry.get (registry : EnvelopeRegistry) (version : Str) :
    Except PyError EnvelopeBuilder :=
  match Dict.get? registry version with
  | some builder => .ok builder
  | none => .error (.valueError (text "Unsupported envelope version '" ++ version ++
      text "'. Supported versions: " ++ registry.supported))

/-- `create_default_envelope_registry` -/
def defaultEnvelopeRegistry : EnvelopeRegistry :=
  EnvelopeRegistry.register [] envelopeV1Builder

end RtlsStream.Receiver
