/-
  Receiver/SchemaFields.lean --- where the fields of a valid datagram end up.

  The schema nests the coordinates and the region in `position` and names the tag
  `devid`.  The normaliser finds the tag under that name and the coordinates in the
  nested object, and `float` makes the nearest double of each number; so for every valid
  datagram exactly one envelope is published, and these fields are in its payload
  (`published_fields`).  The region it looks for in the object itself only, where the
  schema admits none: the area of the event is always null.
-/
import RtlsStream.Foundation.Overflow
import RtlsStream.Python.RoundTrip
import RtlsStream.Receiver.EventTime
import RtlsStream.Receiver.Serve
import RtlsStream.StreamHandler.Reported

set_option autoImplicit false

namespace RtlsStream.Receiver

open RtlsStream.Foundation RtlsStream.Python RtlsStream.StreamHandler

/-! ## What is published -/

/-- The topics and messages that are passed to the publisher, whether or not its `publish`
returns. -/
def publications (calls : List Call) : List (Str × Bytes) :=
  calls.filterMap fun
    | .publish topic message _ _ => some (topic, message)
    | .onDecodeError _ _ => none

/-- The number of a value, rounded to the nearest double as `float` does. -/
def doubleOf : Json → Option Binary64
  | .int n => some (Binary64.nearest n)
  | .float x => some x
  | _ => none

/-- The times are those that `int` makes of a float. -/
structure FloatClock (clock : Clock) : Prop where
  normalizer : ∃ x, intOfFloat x = .ok clock.normalizer
  envelope : ∃ x, intOfFloat x = .ok clock.envelope

/-- The tag and the coordinates of a payload are those of the datagram. -/
structure TagAndCoordinates (obj position payload : Dict Json) : Prop where
  tagId : ∃ devid, obj.get? (text "devid") = some (.str devid) ∧
    payload.get? (text "tag_id") = some (.str (strip devid))
  position : ∀ key ∈ [text "x", text "y", text "z"], ∃ v x, position.get? key = some v ∧
    doubleOf v = some x ∧ payload.get? key = some (.float x)
  geodetic : ∀ key ∈ [text "lng", text "lat"],
    payload.get? key = some (.ofOption .float ((obj.get? key).bind doubleOf))

section Fields

variable [Runtime]

/-- The area of a payload is the text of the region, as texts are read: without the white
space around it, and null where nothing is left. -/
def AreaOfRegion (position payload : Dict Json) : Prop :=
  ∃ rgn s, position.get? (text "rgn") = some rgn ∧ parseStr rgn = .ok s ∧
    payload.get? (text "area") = some (.ofOption .str s)

/-- Among the calls is exactly one publication, and its payload has the fields of the
datagram. -/
def FieldsReach (server : UdpServer) (obj : Dict Json) (calls : List Call) : Prop :=
  ∃ message envelope payload position, publications calls = [(server.topic, message)] ∧
    loadsBytes message = .ok (.obj envelope) ∧
    Dict.get? envelope (text "payload") = some (.obj payload) ∧
    obj.get? (text "position") = some (.obj position) ∧
    TagAndCoordinates obj position payload ∧ AreaOfRegion position payload

/-! ## Numbers -/

omit [Runtime] in
theorem tooLarge_eq_false_iff {v : Json} : tooLarge v = false ↔ FloatConverts v := by
  cases v with
  | int n =>
    rw [FloatConverts, ← Binary64.ofInt_isSome_iff]
    cases h : Binary64.ofInt n <;> simp [tooLarge, h]
  | null | bool | float | str | arr | obj => simp [tooLarge, FloatConverts]

omit [Runtime] in
theorem eq_nearest_of_floatOfInt {n : Int} {x : Binary64} (h : floatOfInt n = .ok x) :
    x = Binary64.nearest n := by
  unfold floatOfInt at h
  split at h
  · rename_i hround
    obtain rfl := Except.ok.inj h
    unfold Binary64.ofInt at hround
    unfold Binary64.nearest
    split at hround
    · rename_i heq
      rw [heq]
      exact (Option.some.inj hround).symm
    · cases hround
  · cases h

/-- What is read from a number is its nearest double. -/
theorem eq_doubleOf_of_parseFloat {v : Json} (hv : numberScheme v) {r : Option Binary64}
    (h : parseFloat v = .ok r) : r = doubleOf v := by
  cases v with
  | int n =>
    obtain ⟨x, hx, rfl⟩ := map_eq_ok.mp h
    rw [eq_nearest_of_floatOfInt hx, doubleOf]
  | float x => exact (Except.ok.inj h).symm
  | null | bool | str | arr | obj => cases hv

theorem firstFloat_doubleOf {d : Dict Json} {key : Str} {others : List Str}
    (hv : ∀ v, d.get? key = some v → numberScheme v)
    (hothers : firstFloat d others = .ok none) {r : Option Binary64}
    (h : firstFloat d (key :: others) = .ok r) : r = (d.get? key).bind doubleOf := by
  unfold firstFloat firstOf at h
  cases hget : d.get? key with
  | none =>
    rw [hget] at h
    exact (Except.ok.inj (hothers.symm.trans h)).symm
  | some v =>
    rw [hget] at h
    simp only at h
    cases hread : parseFloat v with
    | error e => simp [hread] at h
    | ok first =>
      have hdouble := eq_doubleOf_of_parseFloat (hv v hget) hread
      rw [hread] at h
      cases first with
      | none =>
        obtain rfl := Except.ok.inj (hothers.symm.trans h)
        exact hdouble
      | some x =>
        obtain rfl := Except.ok.inj h
        exact hdouble

omit [Runtime] in
/-- What `int` makes of a float is within the digit limit. -/
theorem dumpable_of_intOfFloat {n : Int} (h : ∃ x, intOfFloat x = .ok n) :
    Dumpable compact 0 (.int n) := by
  obtain ⟨x, hx⟩ := h
  have hlt : n.natAbs < Binary64.overflowNat := by
    cases x with
    | finite negative m e canonical =>
      obtain rfl := Except.ok.inj hx
      exact Binary64.natAbs_truncate_lt negative canonical
    | nan | infinity => cases hx
  have hpow : ∀ k ≤ maxStrDigits, 2 ^ k ≤ 10 ^ maxStrDigits := fun k hk =>
    (Nat.pow_le_pow_left (by norm_num) k).trans (Nat.pow_le_pow_right (by norm_num) hk)
  have hle : Binary64.overflowNat ≤ 10 ^ maxStrDigits :=
    (Nat.sub_le _ _).trans (hpow 1024 (by decide))
  refine ⟨intText n, ?_⟩
  rw [dumpValue, strInt, if_pos (length_natText_le (by decide) (hlt.trans_le hle))]

/-! ## The fields of the event -/

variable {iterErrors : IterErrors} {decoded : Str} {obj : Dict Json}

/-- A coordinate that is read from a number is its nearest double. -/
theorem doubleOf_of_number {d : Dict Json} {key : Str} {v : Json} {r : Option Binary64}
    (hget : d.get? key = some v) (hv : numberScheme v) (h : firstFloat d [key] = .ok r) :
    ∃ x, doubleOf v = some x ∧ r = some x := by
  have hdouble := firstFloat_doubleOf (fun w hw => by rwa [Option.some.inj (hw.symm.trans hget)])
    rfl h
  rw [hget, Option.bind_some] at hdouble
  cases v with
  | int n => exact ⟨_, rfl, hdouble⟩
  | float x => exact ⟨_, rfl, hdouble⟩
  | null | bool | str | arr | obj => cases hv

omit [Runtime] in
/-- The value of a property is accepted by the schema of the property. -/
theorem accepted_of_property {properties : List (Str × Scheme)} {required : List Str}
    (h : objectScheme properties required (.obj obj)) {key : Str} {s : Scheme}
    (hproperty : properties.find? (·.1 = key) = some (key, s)) {v : Json}
    (hget : obj.get? key = some v) : s v := by
  obtain ⟨property, hproperty', haccepted⟩ := property_of_accepted h hget
  rw [hproperty] at hproperty'
  obtain rfl := Option.some.inj hproperty'
  exact haccepted

theorem tagAndCoordinates_of_event (h : scheme (.obj obj)) {tag : Str} {now : Int}
    {e : NormalizedEvent} (htag : firstStr obj tagKeys = .ok (some tag))
    (he : startNormalizer.eventOf obj decoded now tag = .ok e) :
    ∃ position, obj.get? (text "position") = some (.obj position) ∧
      TagAndCoordinates obj position (asdict e) := by
  obtain ⟨devid, hdevid, hfirst, -⟩ := firstStr_tag h
  obtain rfl := Option.some.inj (Except.ok.inj (hfirst.symm.trans htag))
  obtain ⟨position, hposition, hxyz, -, -, hlng, hlat⟩ := coordinates_of_event h he
  obtain ⟨position', x, y, z, hposition', hx, hy, hz, hx', hy', hz'⟩ := position_of_accepted h
  obtain rfl := Json.obj.inj (Option.some.inj (hposition.symm.trans hposition'))
  obtain ⟨hex, hey, hez⟩ := JsonStreamNormalizer.xyzOf_eq_ok.mp hxyz
  obtain ⟨ax, hax, heX⟩ := doubleOf_of_number hx hx' hex
  obtain ⟨ay, hay, heY⟩ := doubleOf_of_number hy hy' hey
  obtain ⟨az, haz, heZ⟩ := doubleOf_of_number hz hz' hez
  have heLng : e.lng = (obj.get? (text "lng")).bind doubleOf :=
    firstFloat_doubleOf (fun _ => accepted_of_property h rfl) (firstOf_absent _ h (by decide)) hlng
  have heLat : e.lat = (obj.get? (text "lat")).bind doubleOf :=
    firstFloat_doubleOf (fun _ => accepted_of_property h rfl) (firstOf_absent _ h (by decide)) hlat
  refine ⟨position, hposition, ⟨devid, hdevid, ?_⟩, ?_, ?_⟩
  · rw [← (eventOf_fromClock h he).tagId]
    rfl
  · have hget : ∀ {v : Json} {o : Option Binary64} {a : Binary64}, v = .ofOption .float o →
        o = some a → v = .float a := by
      rintro _ _ _ rfl rfl
      rfl
    simp only [List.forall_mem_cons]
    exact ⟨⟨x, ax, hx, hax, congrArg some (hget rfl heX)⟩,
      ⟨y, ay, hy, hay, congrArg some (hget rfl heY)⟩,
      ⟨z, az, hz, haz, congrArg some (hget rfl heZ)⟩, by simp⟩
  · simp only [List.forall_mem_cons, ← heLng, ← heLat]
    exact ⟨rfl, rfl, by simp⟩

/-- For every valid datagram in range, one envelope is published.  Its payload has the tag
and the coordinates, and its area is null. -/
theorem published_fields {σ : Type} (hvalid : Validates iterErrors) {d : Datagram}
    (h : ValidDatagram d.data decoded obj) (hrange : ∀ v ∈ coordinates obj, FloatConverts v)
    (hclock : FloatClock d.clock) (out : Outside σ) (w : World σ) {calls : List Call}
    (hcalls : (handle (startUdp iterErrors) out w d).calls = w.calls ++ calls) :
    ∃ message envelope payload position,
      publications calls = [((startUdp iterErrors).topic, message)] ∧
      loadsBytes message = .ok (.obj envelope) ∧
      Dict.get? envelope (text "payload") = some (.obj payload) ∧
      obj.get? (text "position") = some (.obj position) ∧
      TagAndCoordinates obj position payload ∧ Dict.get? payload (text "area") = some .null := by
  obtain ⟨e, message, hevent, hmessage⟩ := h.message
    (fun v hv => tooLarge_eq_false_iff.mpr (hrange v hv))
    (dumpable_of_intOfFloat hclock.normalizer) (dumpable_of_intOfFloat hclock.envelope)
  obtain ⟨tag, htag, he⟩ := h.event hevent
  obtain ⟨position, hposition, hfields⟩ := tagAndCoordinates_of_event h.accepted htag he
  obtain ⟨base, hprepare⟩ := (prepare_ok_iff hvalid).mpr ⟨decoded, e, h.decodes, hevent, hmessage⟩
  have hpublished : publications calls = [((startUdp iterErrors).topic, message)] := by
    obtain ⟨calls', hcalls', houtcome⟩ := handle_outcome (startUdp iterErrors) out w d
    obtain rfl := List.append_cancel_left (hcalls'.symm.trans hcalls)
    cases houtcome with
    | published hprepare' =>
      obtain ⟨rfl, -⟩ := Prod.mk.inj (Except.ok.inj (hprepare.symm.trans hprepare'))
      simp [publications]
    | rejected hprepare' => cases hprepare.symm.trans hprepare'
    | unpublished hprepare' =>
      obtain ⟨rfl, -⟩ := Prod.mk.inj (Except.ok.inj (hprepare.symm.trans hprepare'))
      simp [publications]
  have harea : Dict.get? (asdict e) (text "area") = some (.ofOption .str e.area) := rfl
  rw [(eventOf_fromClock h.accepted he).area] at harea
  exact ⟨message, _, asdict e, position, hpublished, loadsBytes_message hmessage, rfl, hposition,
    hfields, harea⟩

/-! ## The region -/

/-- The text of a value is not blank where a number is written. -/
theorem strip_ne_nil_of_value {depth : Nat} {t : Str} {v : Json} (h : Value depth t v) :
    strip t ≠ [] := by
  obtain ⟨a, rest, rfl, hspace, -⟩ := h.head
  exact List.ne_nil_of_mem (mem_strip (by simp) hspace)

/-- Of the regions the schema admits, only white space is read as no text. -/
theorem parseStr_region {rgn : Json} (hrgn : oneOf integerScheme textScheme rgn) {s : Option Str}
    (h : parseStr rgn = .ok s) : s = none ↔ ∃ t, rgn = .str t ∧ strip t = [] := by
  have hwritten : ∀ {t : Str}, (if strip t = [] then none else some (strip t)) = s →
      Value 0 t rgn → s ≠ none := by
    rintro t rfl hvalue
    rw [if_neg (strip_ne_nil_of_value hvalue)]
    simp
  cases rgn with
  | int n =>
    obtain ⟨t, ht, hs⟩ := map_eq_ok.mp h
    exact iff_of_false (hwritten hs (value_strInt 0 ht)) (by simp)
  | float x =>
    refine iff_of_false (hwritten (Except.ok.inj h) ?_) (by simp)
    cases x with
    | finite negative m e canonical => exact value_floatText 0 (.finite negative m e canonical)
    | nan | infinity => cases hrgn
  | str t =>
    obtain rfl := Except.ok.inj h
    simp
  | null | bool | arr | obj => cases hrgn

omit [Runtime] in
theorem region_of_accepted [Runtime] (h : scheme (.obj obj)) {position : Dict Json}
    (hposition : obj.get? (text "position") = some (.obj position)) :
    ∃ rgn, position.get? (text "rgn") = some rgn ∧ oneOf integerScheme textScheme rgn :=
  required_of_accepted (accepted_of_property h rfl hposition : positionScheme (.obj position))
    (text "rgn") _ (by decide) rfl

/-- The region of the datagram is a text of white space. -/
def BlankRegion (obj : Dict Json) : Prop :=
  ∃ position rgn, obj.get? (text "position") = some (.obj position) ∧
    Dict.get? position (text "rgn") = some (.str rgn) ∧ strip rgn = []

/-- Where the area is that of the region, the region is blank. -/
theorem blankRegion_of_reach {σ : Type} (hvalid : Validates iterErrors) {d : Datagram}
    (h : ValidDatagram d.data decoded obj) (hrange : ∀ v ∈ coordinates obj, FloatConverts v)
    (hclock : FloatClock d.clock) (out : Outside σ) (w : World σ) {calls : List Call}
    (hcalls : (handle (startUdp iterErrors) out w d).calls = w.calls ++ calls)
    (hreach : FieldsReach (startUdp iterErrors) obj calls) : BlankRegion obj := by
  obtain ⟨message, envelope, payload, position, hpublished, hloads, hpayload, hposition, -, harea⟩ :=
    published_fields hvalid h hrange hclock out w hcalls
  obtain ⟨message', envelope', payload', position', hpublished', hloads', hpayload', hposition', -,
    rgn, s, hrgn, hs, harea'⟩ := hreach
  obtain rfl : message = message' := by simpa using hpublished.symm.trans hpublished'
  obtain rfl := Json.obj.inj (Except.ok.inj (hloads.symm.trans hloads'))
  obtain rfl := Json.obj.inj (Option.some.inj (hpayload.symm.trans hpayload'))
  obtain rfl := Json.obj.inj (Option.some.inj (hposition.symm.trans hposition'))
  obtain ⟨rgn', hrgn', haccepted⟩ := region_of_accepted h.accepted hposition
  obtain rfl := Option.some.inj (hrgn.symm.trans hrgn')
  have hnone : s = none := by
    cases s with
    | none => rfl
    | some t => cases harea.symm.trans harea'
  obtain ⟨t, rfl, hblank⟩ := (parseStr_region haccepted hs).mp hnone
  exact ⟨position, t, hposition, hrgn, hblank⟩

/-- All fields of a valid datagram reach the payload exactly when its region is blank, since
the area is null in any case. -/
theorem fields_reach_iff {σ : Type} (hvalid : Validates iterErrors) {d : Datagram}
    (h : ValidDatagram d.data decoded obj) (hrange : ∀ v ∈ coordinates obj, FloatConverts v)
    (hclock : FloatClock d.clock) (out : Outside σ) (w : World σ) {calls : List Call}
    (hcalls : (handle (startUdp iterErrors) out w d).calls = w.calls ++ calls) :
    FieldsReach (startUdp iterErrors) obj calls ↔ BlankRegion obj := by
  refine ⟨blankRegion_of_reach hvalid h hrange hclock out w hcalls, ?_⟩
  rintro ⟨position', t, hposition', ht, hblank⟩
  obtain ⟨message, envelope, payload, position, hpublished, hloads, hpayload, hposition, hfields,
    harea⟩ := published_fields hvalid h hrange hclock out w hcalls
  obtain rfl := Json.obj.inj (Option.some.inj (hposition.symm.trans hposition'))
  exact ⟨message, envelope, payload, position, hpublished, hloads, hpayload, hposition, hfields,
    .str t, none, ht, by simp [parseStr, pyStr, Except.map, hblank], harea⟩

end Fields

/-! ## Two regions -/

/-- What a device sends from a region. -/
def sentFrom (region : String) : Str :=
  text ("\x7b\"devid\":\"00A320\",\"seq\":7,\"timestamp\":\"2024-01-01 12:00:00.000\"," ++
    "\"samples\":[],\"position\":\x7b\"rgn\":\"" ++ region ++
    "\",\"x\":1,\"y\":2,\"z\":0\x7d,\"lng\":30\x7d")

/-- The object it reads as. -/
def objectFrom (region : String) : Dict Json :=
  [(text "devid", .str (text "00A320")), (text "seq", .int 7),
    (text "timestamp", .str (text "2024-01-01 12:00:00.000")), (text "samples", .arr []),
    (text "position", .obj [(text "rgn", .str (text region)), (text "x", .int 1),
      (text "y", .int 2), (text "z", .int 0)]), (text "lng", .int 30)]

/-- It arrives at second one. -/
def arrivedFrom (region : String) : Datagram :=
  ⟨(sentFrom region).map UInt8.ofNat, text "10.0.0.1", 9000, ⟨1000, 1000⟩⟩

/-- Nothing is traced, and the publisher never raises. -/
def quiet : Outside Unit where
  tracing :=
    { start := fun _ _ _ s => s
      inject := fun _ => []
      inject_keys := by simp
      finish := id }
  publish _ _ _ s := (.ok (), s)
  onDecodeError _ _ s := s

section Examples

attribute [local instance] asciiRuntime

theorem valid_blank : ValidDatagram (arrivedFrom " ").data (sentFrom " ") (objectFrom " ") :=
  ⟨by decide +kernel, by decide +kernel, by decide +kernel⟩

theorem valid_hall : ValidDatagram (arrivedFrom "hall").data (sentFrom "hall") (objectFrom "hall") :=
  ⟨by decide +kernel, by decide +kernel, by decide +kernel⟩

theorem floatClock_arrived (region : String) : FloatClock (arrivedFrom region).clock := by
  have hread : intOfFloat (Binary64.nearest 1000) = .ok 1000 := by decide +kernel
  exact ⟨⟨_, hread⟩, ⟨_, hread⟩⟩

theorem inRange_objectFrom (region : String) :
    ∀ v ∈ coordinates (objectFrom region), FloatConverts v := by
  have hcoordinates : coordinates (objectFrom region) = [.int 1, .int 2, .int 0, .int 30] := rfl
  rw [hcoordinates]
  decide +kernel

/-- From a region of one blank, everything there is to say arrives. -/
theorem fields_reach_blank :
    FieldsReach (startUdp schemeErrors) (objectFrom " ")
      (handle (startUdp schemeErrors) quiet ⟨(), []⟩ (arrivedFrom " ")).calls := by
  refine (fields_reach_iff validates_schemeErrors valid_blank (inRange_objectFrom " ")
    (floatClock_arrived " ") quiet ⟨(), []⟩ (List.nil_append _).symm).mpr ?_
  exact ⟨_, text " ", rfl, rfl, by decide⟩

/-- The name of a region is lost. -/
theorem region_lost : ValidDatagram (arrivedFrom "hall").data (sentFrom "hall") (objectFrom "hall") ∧
    ¬ FieldsReach (startUdp schemeErrors) (objectFrom "hall")
      (handle (startUdp schemeErrors) quiet ⟨(), []⟩ (arrivedFrom "hall")).calls := by
  refine ⟨valid_hall, ?_⟩
  intro hreach
  obtain ⟨position, rgn, hposition, hrgn, hblank⟩ := blankRegion_of_reach validates_schemeErrors
    valid_hall (inRange_objectFrom "hall") (floatClock_arrived "hall") quiet ⟨(), []⟩
    (List.nil_append _).symm hreach
  obtain rfl := Json.obj.inj (Option.some.inj hposition)
  obtain rfl := Json.str.inj (Option.some.inj hrgn)
  exact absurd hblank (by decide)

end Examples

end RtlsStream.Receiver
