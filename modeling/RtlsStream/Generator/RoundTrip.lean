/-
  Generator/RoundTrip.lean --- the receiver reads back what the generator read.

  A valid object has no trace keys, so they are what a copy has more, and taking them away
  gives the object back (`received_payload`).  With `main_agrees`, the datagrams of a run
  are those of the valid lines (`generator_round_trip`).
-/
import RtlsStream.Generator.Send
import RtlsStream.Receiver.Published

set_option autoImplicit false

namespace RtlsStream.Generator

open RtlsStream.Foundation RtlsStream.Foundation.Program RtlsStream.Python RtlsStream.Receiver

/-! ## Trace keys -/

/-- What the propagator sets: trace keys, with texts that can be encoded. -/
def TraceOnly (injected : Dict Str) : Prop :=
  ∀ h ∈ injected, h.1 ∈ traceKeys ∧ IsEncodable h.2

theorem stripTraceKeys_eq_filter (d : Dict Json) :
    stripTraceKeys d = d.filter (·.1 ∉ traceKeys) := by
  simp only [stripTraceKeys, traceKeys, List.foldl_cons, List.foldl_nil, Dict.pop_eq_filter,
    List.filter_filter, List.mem_cons, List.not_mem_nil, or_false, not_or, Bool.decide_and,
    ne_eq, decide_not, Bool.and_comm]

/-- What is set under a trace key is stripped again. -/
theorem stripTraceKeys_set {d : Dict Json} {key : Str} (h : key ∈ traceKeys) (v : Json) :
    stripTraceKeys (d.set key v) = stripTraceKeys d := by
  simp only [stripTraceKeys_eq_filter]
  induction d with
  | nil => simp [Dict.set, h]
  | cons head rest ih =>
    obtain ⟨k', v'⟩ := head
    by_cases hk : k' = key
    · simp [Dict.set, hk, h]
    · simp only [Dict.set, if_neg hk, List.filter_cons, ih]

theorem stripTraceKeys_setTrace {injected : Dict Str} (h : TraceOnly injected) (d : Dict Json) :
    stripTraceKeys (setTrace injected d) = stripTraceKeys d := by
  induction injected generalizing d with
  | nil => rfl
  | cons head rest ih =>
    obtain ⟨hhead, hrest⟩ := List.forall_mem_cons.mp h
    rw [setTrace, List.foldl_cons]
    exact (ih hrest _).trans (stripTraceKeys_set hhead.1 _)

section RoundTrip

variable [Runtime]

/-- An object that can be printed, read back and encoded. -/
structure Sendable (members : Dict Json) : Prop where
  wellKeyed : WellKeyed (.obj members)
  dumpable : Dumpable compact Runtime.jsonDepth (.obj members)
  encodable : EncodableJson (.obj members)

omit [Runtime] in
theorem dumpable_set_str {depth : Nat} {members : Dict Json}
    (h : Dumpable compact depth (.obj members)) (key s : Str) :
    Dumpable compact depth (.obj (members.set key (.str s))) := by
  cases depth with
  | zero => obtain ⟨_, h⟩ := h; cases h
  | succ depth =>
    rw [dumpable_obj] at h ⊢
    exact dumpable_set key h ⟨_, rfl⟩

theorem Sendable.set {members : Dict Json} (h : Sendable members) {key s : Str}
    (hkey : key ∈ traceKeys) (hs : IsEncodable s) : Sendable (members.set key (.str s)) := by
  have hencodable : IsEncodable key := by
    revert key
    decide
  have htext : WellKeyed (.str s) := by simp [WellKeyed]
  exact {
    wellKeyed := ⟨h.wellKeyed.1.set key _, h.wellKeyed.2.set htext key⟩
    dumpable := dumpable_set_str h.dumpable key s
    encodable := h.encodable.set hencodable hs }

/-- The copy of an object that can be sent can be sent. -/
theorem Sendable.setTrace {injected : Dict Str} (htrace : TraceOnly injected)
    {members : Dict Json} (h : Sendable members) : Sendable (setTrace injected members) := by
  induction injected generalizing members with
  | nil => exact h
  | cons head rest ih =>
    obtain ⟨hhead, hrest⟩ := List.forall_mem_cons.mp htrace
    exact ih hrest (h.set hhead.1 hhead.2)

/-! ## The receiver -/

/-- What the receiver reads from a datagram: the JSON of the stripped text. -/
def received (data : Bytes) : Except PyError Json :=
  match decodeUtf8 false data with
  | none => .error .unicodeDecodeError
  | some decoded => stripTraceFromString decoded >>= loads

/-- The server reads no more and no less, where it is given neither parser nor validator nor
normaliser. -/
theorem processDatagram_received {self : UdpServer} (hparser : self.parser = none)
    (hvalidator : self.validator = none) (hnormalizer : self.jsonNormalizer = none)
    (data : Bytes) (headers : Headers) (clock : Clock) :
    self.processDatagram data headers clock =
      (received data).map fun v => (v, headers.set (text "origin") (text "json")) := by
  unfold UdpServer.processDatagram received
  cases decodeUtf8 false data with
  | none => rfl
  | some decoded =>
    simp only [UdpServer.tryParseLs1000, hparser, UdpServer.normalizeJsonPayload,
      UdpServer.validated, hvalidator, hnormalizer]
    cases stripTraceFromString decoded with
    | error e => rfl
    | ok cleaned =>
      rcases hloads : loads cleaned with e | v <;> simp [hloads, bind, Except.bind, Except.map]

/-- What is sent is received, less the trace keys. -/
theorem received_payload {members : Dict Json} (h : Sendable members) :
    ∃ payload, payloadOf (.obj members) = .ok payload ∧
      received payload = .ok (.obj (stripTraceKeys members)) := by
  obtain ⟨t, hdumps⟩ := h.dumpable
  obtain ⟨payload, hpayload⟩ :=
    Option.isSome_iff_exists.mp (encodeUtf8_isSome.mpr (encodable_of_dump h.encodable hdumps))
  obtain ⟨cleaned, hstrip, hloads⟩ := loads_cleaned (loads_dumps h.wellKeyed hdumps)
  refine ⟨payload, ?_, ?_⟩
  · exact bind_eq_ok.mpr ⟨t, hdumps, by rw [hpayload]⟩
  · rw [received, decodeUtf8_encodeUtf8 false hpayload]
    exact bind_eq_ok.mpr ⟨cleaned, hstrip, hloads⟩

/-! ## The objects of a file -/

/-- A valid object: it can be sent, and it has no trace keys. -/
theorem sendable_of_valid {line : Str} {v : Json} (h : validOf line = some v)
    (hscalar : EncodableJson v) :
    ∃ members, v = .obj members ∧ Sendable members ∧ stripTraceKeys members = members := by
  unfold validOf at h
  split at h
  · rename_i w hloads
    split at h
    · rename_i hscheme
      obtain rfl := Option.some.inj h
      obtain ⟨members, rfl⟩ := obj_of_accepted hscheme
      have hdecode := decodeDocument_of_loads hloads
      have hsendable : Sendable members :=
        ⟨wellKeyed_of_decode hdecode, dumpable_of_decodeDocument hdecode, hscalar⟩
      refine ⟨members, rfl, hsendable, stripTraceKeys_eq fun key hkey => absent_key hscheme ?_⟩
      revert key
      decide
    · cases h
  · cases h

/-- The copies of the objects are encoded, and received as the objects. -/
theorem received_traced {outside : Outside} (htrace : ∀ k, TraceOnly (outside.inject k))
    {objs : List Json}
    (hobjs : ∀ v ∈ objs, ∃ members, v = .obj members ∧ Sendable members ∧
      stripTraceKeys members = members) (k : Nat) :
    ∃ (traced : List Json) (payloads : List Bytes),
      injectTraceContext outside k objs = .ok traced ∧
        traced.map payloadOf = payloads.map .ok ∧ payloads.map received = objs.map .ok := by
  induction objs generalizing k with
  | nil => exact ⟨[], [], rfl, rfl, rfl⟩
  | cons v rest ih =>
    obtain ⟨hv, hrest⟩ := List.forall_mem_cons.mp hobjs
    obtain ⟨members, rfl, hsendable, hstripped⟩ := hv
    obtain ⟨traced, payloads, hinject, hpayloads, hreceived⟩ := ih hrest (k + 1)
    obtain ⟨payload, hpayload, hread⟩ := received_payload (hsendable.setTrace (htrace k))
    rw [stripTraceKeys_setTrace (htrace k), hstripped] at hread
    refine ⟨.obj (setTrace (outside.inject k) members) :: traced, payload :: payloads, ?_, ?_, ?_⟩
    · exact bind_eq_ok.mpr ⟨_, rfl, bind_eq_ok.mpr ⟨traced, hinject, rfl⟩⟩
    · rw [List.map_cons, List.map_cons, hpayload, hpayloads]
    · rw [List.map_cons, List.map_cons, hread, hreceived]

/-! ## The round trip -/

/-- The datagrams are received as the objects of the valid lines, each once and in order;
every other line that is not blank is reported; and a `sendto` that raises ends the run with
its exception, when the datagrams before it are sent. -/
theorem generator_round_trip {validator : Validator} (hchecks : ChecksScheme validator.iterErrors)
    {source : Bytes} {lines : List Str} (hread : readLines source = .ok lines)
    (hloads : ∀ line ∈ lines, LoadsSafely line)
    (hscalar : ∀ line ∈ lines, ∀ v, validOf line = some v → EncodableJson v)
    {outside : Outside} (htrace : ∀ k, TraceOnly (outside.inject k))
    {batchSize timeBetweenBatches : Int} (hbatch : 1 ≤ batchSize) (htime : 0 ≤ timeBetweenBatches) :
    ∃ (objects : List ValidatedObject) (errors : List ValidationError) (datagrams : List Bytes),
      getValidatedObjectsFromFile validator source = .ok (objects, errors) ∧
      Reports lines errors ∧
      datagrams.map received = (lines.filterMap validOf).map .ok ∧
      let run := exec (main outside validator source batchSize timeBetweenBatches) .fresh
      ((∀ i < datagrams.length, outside.sendto i = .ok ()) →
        run.1 = .ok () ∧ run.2.sent = datagrams) ∧
      ∀ k < datagrams.length, ∀ e, (∀ i < k, outside.sendto i = .ok ()) →
        outside.sendto k = .error e → run.1 = .error e ∧ run.2.sent = datagrams.take k := by
  obtain ⟨errors, hfile, hreports⟩ := getValidatedObjectsFromFile_eq hchecks hread hloads
  have hobjs : ∀ v ∈ lines.filterMap validOf, ∃ members, v = .obj members ∧ Sendable members ∧
      stripTraceKeys members = members := by
    intro v hv
    obtain ⟨line, hline, hvalid⟩ := List.mem_filterMap.mp hv
    exact sendable_of_valid hvalid (hscalar line hline v hvalid)
  obtain ⟨traced, datagrams, hinject, hpayloads, hreceived⟩ := received_traced htrace hobjs 0
  have hraw : ((lines.filterMap validOf).map (ValidatedObject.mk validator.origin)).map (·.data) =
      lines.filterMap validOf := by
    simp [Function.comp_def]
  have hagrees := main_agrees outside hbatch htime hfile (hraw ▸ hinject) .fresh .fresh rfl
  obtain ⟨hresult, htraffic⟩ := hagrees
  refine ⟨_, errors, datagrams, hfile, hreports, hreceived, fun hreturns => ?_,
    fun k hk e hreturns hraises => ?_⟩
  · rw [exec_transmit hpayloads (by simpa [Network.fresh] using hreturns)] at hresult htraffic
    exact ⟨hresult, congrArg Prod.snd htraffic⟩
  · rw [exec_transmit_raises hpayloads hk (by simpa [Network.fresh] using hreturns)
      (by simpa [Network.fresh] using hraises)] at hresult htraffic
    exact ⟨hresult, congrArg Prod.snd htraffic⟩

/-! ## A file of four lines -/

theorem loadsSafely_of_error {line msg : Str} {pos : Nat}
    (h : loads (strip line) = .error (.jsonDecodeError msg pos)) : LoadsSafely line := by
  intro e he
  obtain rfl := Except.error.inj (h.symm.trans he)
  exact ⟨msg, pos, rfl⟩

theorem validOf_of_loads {line : Str} {v : Json} (h : loads (strip line) = .ok v)
    (hscheme : scheme v) : validOf line = some v := by
  simp only [validOf, h, hscheme, if_true]

theorem loadsSafely_of_valid {line : Str} {v : Json} (h : validOf line = some v) :
    LoadsSafely line := by
  intro e he
  simp [validOf, he] at h

end RoundTrip

/-- A line the schema accepts. -/
def sampleLine : Str :=
  text ("\x7b\"devid\":\"00A320\",\"seq\":1,\"timestamp\":\"2024-01-01 12:00:00.000\"," ++
    "\"samples\":[],\"position\":\x7b\"rgn\":1,\"x\":3,\"y\":2,\"z\":0\x7d\x7d")

/-- The object on it. -/
def sampleObject : Json :=
  .obj [(text "devid", .str (text "00A320")), (text "seq", .int 1),
    (text "timestamp", .str (text "2024-01-01 12:00:00.000")), (text "samples", .arr []),
    (text "position", .obj [(text "rgn", .int 1), (text "x", .int 3), (text "y", .int 2),
      (text "z", .int 0)])]

/-- The line twice, with a blank line and one that is no JSON in between. -/
def sampleFile : Bytes :=
  (sampleLine ++ text "\n\nx\n" ++ sampleLine).map UInt8.ofNat

/-- A network that takes one datagram. -/
def sampleOutside : Outside where
  sendto k := if k = 0 then .ok () else .error (.external (text "Network is unreachable"))
  isSocketError _ := true
  inject _ := [(text "traceparent", text "00-0af7651916cd43dd8448eb211c80319c-b7ad6b7169203331-01")]

section Examples

attribute [local instance] asciiRuntime

/-- The second datagram is not sent. -/
theorem generator_round_trip_sample :
    ∃ datagrams : List Bytes, datagrams.map received = [.ok sampleObject, .ok sampleObject] ∧
      let run := exec (main sampleOutside ⟨settingsOrigin, schemeErrors⟩ sampleFile 10 1) .fresh
      run.1 = .error (.external (text "Network is unreachable")) ∧
        run.2.sent = datagrams.take 1 := by
  have hread : readLines sampleFile = .ok [sampleLine ++ [10], [10], [120, 10], sampleLine] := by
    decide +kernel
  have hobject : loads sampleLine = .ok sampleObject := by decide +kernel
  have hscheme : scheme sampleObject := by decide +kernel
  have hstrip : strip sampleLine = sampleLine ∧ strip (sampleLine ++ [10]) = sampleLine := by
    decide +kernel
  have hlast : validOf sampleLine = some sampleObject :=
    validOf_of_loads (by rw [hstrip.1, hobject]) hscheme
  have hfirst : validOf (sampleLine ++ [10]) = some sampleObject :=
    validOf_of_loads (by rw [hstrip.2, hobject]) hscheme
  have hblank : loads (strip [10]) = .error (.jsonDecodeError (text "Expecting value") 0) := by
    decide +kernel
  have hbad : loads (strip [120, 10]) = .error (.jsonDecodeError (text "Expecting value") 0) := by
    decide +kernel
  have hsafe : ∀ line ∈ [sampleLine ++ [10], [10], [120, 10], sampleLine], LoadsSafely line := by
    simp only [List.forall_mem_cons, List.not_mem_nil, false_imp_iff, implies_true, and_true]
    exact ⟨loadsSafely_of_valid hfirst, loadsSafely_of_error hblank, loadsSafely_of_error hbad,
      loadsSafely_of_valid hlast⟩
  have hvalid : [sampleLine ++ [10], [10], [120, 10], sampleLine].filterMap validOf =
      [sampleObject, sampleObject] := by
    have hnone : validOf [10] = none := by rw [validOf, hblank]
    have hnone' : validOf [120, 10] = none := by rw [validOf, hbad]
    simp only [List.filterMap_cons, hfirst, hnone, hnone', hlast, List.filterMap_nil]
  have hdumps : dumpValue compact 3 sampleObject = .ok sampleLine := by decide +kernel
  have hscalar : EncodableJson sampleObject := encodableJson_of_dump hdumps (by decide +kernel)
  have htrace : ∀ k, TraceOnly (sampleOutside.inject k) := by
    intro k h hmem
    obtain rfl := List.mem_singleton.mp hmem
    decide +kernel
  have hchecks : ChecksScheme (Validator.mk settingsOrigin schemeErrors).iterErrors :=
    checksScheme_schemeErrors
  obtain ⟨objects, errors, datagrams, -, -, hreceived, -, hraises⟩ :=
    generator_round_trip hchecks hread hsafe
      (fun line hline v hv => by
        have hmem : v ∈ [sampleLine ++ [10], [10], [120, 10], sampleLine].filterMap validOf :=
          List.mem_filterMap.mpr ⟨line, hline, hv⟩
        rw [hvalid] at hmem
        simp only [List.mem_cons, List.not_mem_nil, or_false, or_self] at hmem
        exact hmem ▸ hscalar)
      htrace (by decide : (1 : Int) ≤ 10) (by decide : (0 : Int) ≤ 1)
  rw [hvalid] at hreceived
  have hlength : datagrams.length = 2 := by simpa using congrArg List.length hreceived
  refine ⟨datagrams, hreceived, ?_⟩
  exact hraises 1 (by omega) _ (fun i hi => by
    obtain rfl : i = 0 := by omega
    rfl) rfl

end Examples

end RtlsStream.Generator
