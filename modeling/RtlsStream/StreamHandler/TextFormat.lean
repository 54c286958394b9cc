/-
  StreamHandler/TextFormat.lean --- the text format, written and read.

  `Record` is what a text message says and `Fields` how its fields spell it: the fields
  that no event takes anything from hold any text, optional ones may be blank.  A message
  writes a record when it has the type's name in any case and the fields, with any white
  space around each of them (`Writes`).  The parser reads the record back
  (`parseMessage_writes`).
-/
import RtlsStream.Python.Numerals
import RtlsStream.StreamHandler.Grammar

set_option autoImplicit false

namespace RtlsStream.StreamHandler

open RtlsStream.Foundation RtlsStream.Python LS1000Parser

/-! ## Records -/

/-- What a `display` message says about the place. -/
inductive Place where
  | coordinates (x y z : Binary64)
  | area (name : Option Str)

inductive Record where
  | display (tagId : Str) (ts : Int) (layer : Option Int) (place : Place)
  | status1 (tagId : Str) (ts : Int) (layer : Option Int) (status : Option Str)
  | status2 (tagId : Str) (ts : Int) (layer : Option Int)
  | gpsposi (tagId : Str) (ts : Int) (layer : Option Int) (lng lat : Binary64) (z : Option Binary64)

namespace Record

def type : Record → BaseType
  | .display .. => .display
  | .status1 .. => .status1
  | .status2 .. => .status2
  | .gpsposi .. => .gpsposi

/-- The event of the record, in the message `s`. -/
def event (s : Str) : Record → NormalizedEvent
  | .display tagId ts layer (.coordinates x y z) =>
    { textEvent s .display tagId ts with
      layer := layer.map .int
      x := some x
      y := some y
      z := some z }
  | .display tagId ts layer (.area name) =>
    { textEvent s .display tagId ts with
      layer := layer.map .int
      area := name }
  | .status1 tagId ts layer status =>
    { textEvent s .status1 tagId ts with
      layer := layer.map .int
      status := status }
  | .status2 tagId ts layer => { textEvent s .status2 tagId ts with layer := layer.map .int }
  | .gpsposi tagId ts layer lng lat z =>
    { textEvent s .gpsposi tagId ts with
      layer := layer.map .int
      lng := some lng
      lat := some lat
      z := z }

end Record

/-! ## Their texts -/

/-- Decimal, or hexadecimal and not negative. -/
def SpellsInt (n : Int) (s : Str) : Prop := SpellsDecimal n s ∨ SpellsHex n s

/-- Blank where there is none. -/
def SpellsOption {α : Type} (spells : α → Str → Prop) : Option α → Str → Prop
  | none, s => s = []
  | some a, s => spells a s

/-- A text spells itself, and the empty text nothing. -/
def SpellsText (t s : Str) : Prop := s = t ∧ t ≠ []

/-- Three numbers, or a blank field on either side of the area. -/
inductive SpellsPlace : Place → Str → Str → Str → Prop
  | coordinates {x y z : Binary64} {s₁ s₂ s₃ : Str} : SpellsNumber x s₁ → SpellsNumber y s₂ →
      SpellsNumber z s₃ → SpellsPlace (.coordinates x y z) s₁ s₂ s₃
  | area {name : Option Str} {s : Str} : SpellsOption SpellsText name s →
      SpellsPlace (.area name) [] s []

/-- The fields of a message that says what the record does. -/
inductive Fields : Record → List Str → Prop
  | display {tagId len seq time level s₁ s₂ s₃ : Str} {ts : Int} {layer : Option Int}
      {place : Place} {further : List Str} : SpellsInt ts time →
      SpellsOption SpellsInt layer level → SpellsPlace place s₁ s₂ s₃ →
      Fields (.display tagId ts layer place) (len :: tagId :: seq :: time :: level :: s₁ :: s₂ :: s₃ ::
        further)
  | status1 {tagId len tag time vbat level velo sos : Str} {ts : Int} {layer : Option Int}
      {status : Option Str} : SpellsInt ts time → SpellsOption SpellsInt layer level →
      SpellsOption SpellsText status sos →
      Fields (.status1 tagId ts layer status) [len, tag, tagId, time, vbat, level, velo, sos]
  | status2Short {tagId len seq time : Str} {ts : Int} : SpellsInt ts time →
      Fields (.status2 tagId ts none) [len, tagId, seq, time]
  | status2 {tagId len seq time level : Str} {ts : Int} {layer : Option Int} {further : List Str} :
      SpellsInt ts time → SpellsOption SpellsInt layer level →
      Fields (.status2 tagId ts layer) (len :: tagId :: seq :: time :: level :: further)
  | gpsposiFlat {tagId len seq time level s₁ s₂ : Str} {ts : Int} {layer : Option Int}
      {lng lat : Binary64} : SpellsInt ts time → SpellsOption SpellsInt layer level →
      SpellsNumber lng s₁ → SpellsNumber lat s₂ →
      Fields (.gpsposi tagId ts layer lng lat none) [len, tagId, seq, time, level, s₁, s₂]
  | gpsposi {tagId len seq time level s₁ s₂ s₃ : Str} {ts : Int} {layer : Option Int}
      {lng lat : Binary64} {z : Option Binary64} : SpellsInt ts time →
      SpellsOption SpellsInt layer level → SpellsNumber lng s₁ → SpellsNumber lat s₂ →
      SpellsOption SpellsNumber z s₃ →
      Fields (.gpsposi tagId ts layer lng lat z) [len, tagId, seq, time, level, s₁, s₂, s₃]

/-- The message has the fields of the record behind the name of its type, which may be in
any case, and white space anywhere around them. -/
def Writes (r : Record) (s : Str) : Prop :=
  ∃ name front fields written, name.map asciiLower = r.type.name ∧ Padded name front ∧
    Fields r fields ∧ (∀ field ∈ fields, Trimmed field ∧ 44 ∉ field) ∧
    List.Forall₂ Padded fields written ∧ Padded (front ++ 58 :: joined 44 written) s

/-! ## Padding -/

theorem not_mem_padded {c : CodePoint} (hspace : isSpace c = false) {s written : Str}
    (h : Padded s written) (hc : c ∉ s) : c ∉ written := by
  obtain ⟨before, after, hbefore, hafter, rfl⟩ := h
  have hblank : ∀ t : Str, Blanks t → c ∉ t := by
    intro t ht hmem
    rw [ht c hmem] at hspace
    cases hspace
  simp only [List.mem_append, not_or]
  exact ⟨hblank before hbefore, hc, hblank after hafter⟩

/-- Padded fields without a comma come apart at the commas. -/
theorem map_strip_padded {fields written : List Str} (hne : fields ≠ [])
    (hfields : ∀ field ∈ fields, Trimmed field ∧ 44 ∉ field)
    (hpadded : List.Forall₂ Padded fields written) :
    (split 44 (joined 44 written)).map strip = fields := by
  have hparts : (∀ w ∈ written, 44 ∉ w) ∧ written.map strip = fields := by
    clear hne
    induction hpadded with
    | nil => exact ⟨by simp, rfl⟩
    | @cons field w fields written hpad _ ih =>
      rw [List.forall_mem_cons] at hfields
      obtain ⟨hcomma, hstrip⟩ := ih hfields.2
      have htrimmed : strip field = field := hfields.1.1
      refine ⟨List.forall_mem_cons.mpr ⟨not_mem_padded (by decide) hpad hfields.1.2, hcomma⟩, ?_⟩
      rw [List.map_cons, strip_padded hpad, htrimmed, hstrip]
  have hwritten : written ≠ [] := by
    rintro rfl
    exact hne hparts.2.symm
  rw [split_joined hwritten hparts.1, hparts.2]

/-- The names are made of letters and digits, so in any case they are. -/
theorem name_chars {name : Str} {type : BaseType} (h : name.map asciiLower = type.name) :
    ∀ c : Nat, c ∈ name → c < 128 ∧ isSpace c = false ∧ c ≠ 58 ∧ c ≠ 123 := by
  intro c hc
  have hmem : asciiLower c ∈ type.name := h ▸ List.mem_map_of_mem hc
  have hletters : ∀ d ∈ type.name, (48 ≤ d ∧ d ≤ 57) ∨ (97 ≤ d ∧ d ≤ 122) := by
    cases type <;> decide
  have hlower : (48 ≤ c ∧ c ≤ 57) ∨ (97 ≤ c ∧ c ≤ 122) ∨ (65 ≤ c ∧ c ≤ 90) := by
    have hbounds := hletters _ hmem
    unfold asciiLower at hbounds
    split at hbounds
    · exact Or.inr (Or.inr ‹_›)
    · exact hbounds.imp_right Or.inl
  rcases hlower with ⟨hlo, hhi⟩ | ⟨hlo, hhi⟩ | ⟨hlo, hhi⟩ <;> interval_cases c <;> decide

theorem Fields.ne_nil {r : Record} {fields : List Str} (h : Fields r fields) : fields ≠ [] := by
  cases h <;> simp

section

variable [Runtime]

/-- The parser finds the type and the fields that were written. -/
theorem parts_of_writes {r : Record} {s : Str} (h : Writes r s) :
    (strip s).head? ≠ some 123 ∧ 58 ∈ strip s ∧ typeName (strip s) = r.type.name ∧
      ∃ fields, Fields r fields ∧ (∀ field ∈ fields, Trimmed field) ∧
        fieldsOf (strip s) = fields := by
  obtain ⟨name, front, fields, written, hname, hfront, hfields, htrimmed, hwritten, before, after,
    hbefore, hafter, rfl⟩ := h
  have hchars := name_chars hname
  have hcolon : (58 : CodePoint) ∉ before ++ front := by
    have hinside : (58 : CodePoint) ∉ front :=
      not_mem_padded (by decide) hfront fun hmem => (hchars 58 hmem).2.2.1 rfl
    intro hmem
    rcases List.mem_append.mp hmem with hmem | hmem
    · exact absurd (hbefore 58 hmem) (by decide)
    · exact hinside hmem
  have hsplit : splitFirst 58 (before ++ ((front ++ 58 :: joined 44 written) ++ after)) =
      (before ++ front, joined 44 written ++ after) := by
    simpa using splitFirst_append hcolon (joined 44 written ++ after)
  have hmem : (58 : CodePoint) ∈ before ++ ((front ++ 58 :: joined 44 written) ++ after) := by simp
  generalize before ++ ((front ++ 58 :: joined 44 written) ++ after) = s at hsplit hmem
  obtain ⟨htype, hparts⟩ := splitFirst_strip (by decide) hmem
  have hread : strip (splitFirst 58 (strip s)).1 = name := by
    rw [htype, hsplit, strip_blanks_append hbefore, strip_padded hfront]
    exact trimmed_of_no_space fun c hc => (hchars c hc).2.1
  refine ⟨?_, mem_strip hmem (by decide), ?_, fields, hfields, fun f hf => (htrimmed f hf).1, ?_⟩
  · intro hhead
    obtain ⟨rest, hrest⟩ := List.head?_eq_some_iff.mp hhead
    have hbrace : (123 : CodePoint) ∈ (splitFirst 58 (strip s)).1 := by
      rw [hrest]
      simp [splitFirst]
    have hbrace' := mem_strip hbrace (by decide)
    rw [hread] at hbrace'
    exact (hchars 123 hbrace').2.2.2 rfl
  · rw [typeName, hread, Runtime.lower_ascii name fun c hc => (hchars c hc).1, hname]
  · rw [fieldsOf, hparts 44 (by decide), hsplit, map_strip_split (by decide) hafter,
      map_strip_padded hfields.ne_nil htrimmed hwritten]

/-! ## Reading the fields -/

theorem parseIntText_spelled {n : Int} {s : Str} (h : SpellsInt n s) (htrimmed : Trimmed s) :
    parseIntText true s = some n := by
  have hstrip : strip s = s := htrimmed
  unfold parseIntText
  rw [hstrip]
  rcases h with hdecimal | hhex
  · have hread := intOfText_spelled hdecimal
    have hne : s ≠ [] := by
      rintro rfl
      rw [intOfText_nil] at hread
      cases hread
    have hlower : Runtime.lower s = s := by
      rw [Runtime.lower_ascii s fun c hc => (hdecimal.chars c hc).trans (by decide)]
      conv_rhs => rw [← List.map_id s]
      refine List.map_congr_left fun c hc => if_neg ?_
      rintro ⟨hupper, -⟩
      exact absurd (hdecimal.chars c hc) (not_lt.mpr (le_trans (by decide) hupper))
    have hhex : ¬ (text "0x").isPrefixOf (Runtime.lower s) := by
      intro hx
      rw [hlower] at hx
      have hmem : (120 : CodePoint) ∈ s :=
        (List.isPrefixOf_iff_prefix.mp hx).subset (by decide)
      exact absurd (hdecimal.chars 120 hmem) (by decide)
    simp [hne, hhex, hread]
  · have hread := intOfHexText_spelled hhex
    have hplain := hhex.plain
    obtain ⟨x, hs, ds, hx, -, -, rfl, rfl⟩ := hhex
    have hhex : (text "0x").isPrefixOf (Runtime.lower (48 :: x :: hs)) := by
      rw [Runtime.lower_ascii _ fun c hc => (hplain c hc).1]
      rcases hx with rfl | rfl <;> simp [text, asciiLower, List.isPrefixOf]
    simp [hhex, hread]

theorem layerOf_spelled {layer : Option Int} {s : Str} (h : SpellsOption SpellsInt layer s)
    (htrimmed : Trimmed s) : layerOf s = layer.map .int := by
  unfold layerOf
  cases layer with
  | none =>
    obtain rfl : s = [] := h
    rfl
  | some n => rw [parseIntText_spelled h htrimmed]

theorem parseFloatText_spelled {x : Binary64} {s : Str} (h : SpellsNumber x s)
    (htrimmed : Trimmed s) : parseFloatText s = some x := by
  have hstrip : strip s = s := htrimmed
  have hread := floatOfText_spelled h
  have hne : s ≠ [] := by
    rintro rfl
    rw [floatOfText_nil] at hread
    cases hread
  unfold parseFloatText
  rw [hstrip]
  simp [hne, hread]

omit [Runtime] in
theorem safeToken_spelled {name : Option Str} {tokens : List Str} {i : Nat} (hi : i < tokens.length)
    (h : SpellsOption SpellsText name (token tokens i)) (htrimmed : Trimmed (token tokens i)) :
    safeToken tokens i = name := by
  have hstrip : strip (token tokens i) = token tokens i := htrimmed
  unfold safeToken
  rw [if_neg (not_le.mpr hi), hstrip]
  cases name with
  | none => exact if_pos h
  | some t =>
    obtain ⟨heq, hne⟩ := h
    rw [heq, if_neg hne]

/-- The place of a `display` message: three numbers, or none and a field for the area. -/
theorem place_spelled {place : Place} (tokens : List Str) {further : List Str}
    {a b c d e s₁ s₂ s₃ : Str}
    (heq : tokens = a :: b :: c :: d :: e :: s₁ :: s₂ :: s₃ :: further)
    (h : SpellsPlace place s₁ s₂ s₃) (htrimmed : Trimmed s₁ ∧ Trimmed s₂ ∧ Trimmed s₃) :
    match place with
    | .coordinates x y z => extractXyzFromTokens tokens 5 = .ok ⟨some x, some y, some z⟩
    | .area name => extractXyzFromTokens tokens 5 = .ok ⟨none, none, none⟩ ∧
        safeToken tokens 6 = name := by
  obtain ⟨h₁, h₂, h₃⟩ := htrimmed
  subst heq
  cases h with
  | coordinates hx hy hz =>
    simp [extractXyzFromTokens, token, parseFloatText_spelled hx h₁, parseFloatText_spelled hy h₂,
      parseFloatText_spelled hz h₃]
  | area hname =>
    refine ⟨?_, safeToken_spelled (by simp) hname h₂⟩
    have hblank : parseFloatText [] = none := rfl
    simp [extractXyzFromTokens, token, hblank, findCoords]

/-- The parser of a type reads the record from its fields. -/
theorem parseFields_spelled {r : Record} {fields : List Str} (h : Fields r fields)
    (htrimmed : ∀ field ∈ fields, Trimmed field) (s : Str) :
    parseFields r.type s fields = .ok (.ok (r.event s)) := by
  cases h with
  | @display tagId len seq time level s₁ s₂ s₃ ts layer place further htime hlevel hplace =>
    simp only [List.forall_mem_cons] at htrimmed
    obtain ⟨-, -, -, hts, hl, h₁, h₂, h₃, -⟩ := htrimmed
    have hxyz := place_spelled (len :: tagId :: seq :: time :: level :: s₁ :: s₂ :: s₃ :: further)
      rfl hplace ⟨h₁, h₂, h₃⟩
    have hlong : ¬ (len :: tagId :: seq :: time :: level :: s₁ :: s₂ :: s₃ :: further).length < 5 := by
      simp only [List.length_cons]
      omega
    change parseDisplay s _ = _
    rw [parseDisplay, if_neg hlong]
    simp only [token, List.getD_cons_succ, List.getD_cons_zero, parseIntText_spelled htime hts,
      layerOf_spelled hlevel hl]
    cases place with
    | coordinates x y z =>
      simp only at hxyz
      rw [hxyz]
      rfl
    | area name =>
      obtain ⟨hnone, harea⟩ := hxyz
      rw [hnone, harea]
      rfl
  | @status1 tagId len tag time vbat level velo sos ts layer status htime hlevel hstatus =>
    simp only [List.forall_mem_cons] at htrimmed
    obtain ⟨-, -, -, hts, -, hl, -, hs, -⟩ := htrimmed
    have hsafe : safeToken [len, tag, tagId, time, vbat, level, velo, sos] 7 = status :=
      safeToken_spelled (by simp) hstatus hs
    simp [Record.type, Record.event, parseFields, parseStatus1, token,
      parseIntText_spelled htime hts, layerOf_spelled hlevel hl, hsafe]
  | status2Short htime =>
    simp only [List.forall_mem_cons] at htrimmed
    obtain ⟨-, -, -, hts, -⟩ := htrimmed
    simp [Record.type, Record.event, parseFields, parseStatus2, token,
      parseIntText_spelled htime hts, textEvent]
  | status2 htime hlevel =>
    simp only [List.forall_mem_cons] at htrimmed
    obtain ⟨-, -, -, hts, hl, -⟩ := htrimmed
    simp [Record.type, Record.event, parseFields, parseStatus2, token,
      parseIntText_spelled htime hts, layerOf_spelled hlevel hl]
  | gpsposiFlat htime hlevel hlng hlat =>
    simp only [List.forall_mem_cons] at htrimmed
    obtain ⟨-, -, -, hts, hl, h₁, h₂, -⟩ := htrimmed
    simp [Record.type, Record.event, parseFields, parseGpsposi, token,
      parseIntText_spelled htime hts, layerOf_spelled hlevel hl, parseFloatText_spelled hlng h₁,
      parseFloatText_spelled hlat h₂, textEvent]
  | @gpsposi tagId len seq time level s₁ s₂ s₃ ts layer lng lat z htime hlevel hlng hlat hz =>
    simp only [List.forall_mem_cons] at htrimmed
    obtain ⟨-, -, -, hts, hl, h₁, h₂, h₃, -⟩ := htrimmed
    have hread : parseFloatText s₃ = z := by
      cases z with
      | none =>
        obtain rfl : s₃ = [] := hz
        rfl
      | some z => exact parseFloatText_spelled hz h₃
    simp [Record.type, Record.event, parseFields, parseGpsposi, token,
      parseIntText_spelled htime hts, layerOf_spelled hlevel hl, parseFloatText_spelled hlng h₁,
      parseFloatText_spelled hlat h₂, hread]

/-- A field of the time is not blank. -/
theorem Fields.filled {r : Record} {fields : List Str} (h : Fields r fields)
    (htrimmed : ∀ field ∈ fields, Trimmed field) : ∃ field ∈ fields, field ≠ [] := by
  have htime : ∃ time ∈ fields, ∃ ts, SpellsInt ts time := by
    cases h with
    | display htime | status1 htime | status2Short htime | status2 htime | gpsposiFlat htime
    | gpsposi htime => exact ⟨_, by simp, _, htime⟩
  obtain ⟨time, hmem, ts, hspells⟩ := htime
  refine ⟨time, hmem, ?_⟩
  rintro rfl
  have hread := parseIntText_spelled hspells trimmed_nil
  cases hread

/-- A message of a known type with a field in it goes to the parser of the type. -/
theorem parseText_of_type {rawMessage raw : Str} {type : BaseType} (hcolon : 58 ∈ raw)
    (htype : typeOf raw = some type) (hfilled : ∃ field ∈ fieldsOf raw, field ≠ []) :
    parseText rawMessage raw = parseFields type rawMessage (fieldsOf raw) := by
  cases parseText_parsed rawMessage raw with
  | invalidFormat hnone => exact absurd hcolon hnone
  | unsupportedType _ hunsupported =>
    have hname : type.name = typeName raw := baseType_eq_some.mp htype
    exact absurd (hname ▸ hunsupported) (name_not_unsupported type)
  | unknownType _ _ hunknown => cases hunknown.symm.trans htype
  | blankFields _ _ _ hblank =>
    obtain ⟨field, hfield, hne⟩ := hfilled
    exact absurd (hblank field hfield) hne
  | @fields _ _ type' htype' _ hfields =>
    obtain rfl : type = type' := Option.some.inj (htype.symm.trans htype')
    exact hfields.symm

/-- The parser reads back what a message writes. -/
theorem parseMessage_writes {r : Record} {s : Str} (h : Writes r s) :
    parseMessage ⟨⟩ s = .ok (.ok (r.event s)) := by
  obtain ⟨hbrace, hcolon, htype, fields, hfields, htrimmed, heq⟩ := parts_of_writes h
  have hne : strip s ≠ [] := List.ne_nil_of_mem hcolon
  have hfilled : ∃ field ∈ fieldsOf (strip s), field ≠ [] := heq ▸ hfields.filled htrimmed
  have htypeOf : typeOf (strip s) = some r.type := baseType_eq_some.mpr htype.symm
  unfold parseMessage
  simp only [if_neg hne, if_neg hbrace]
  rw [parseText_of_type hcolon htypeOf hfilled, heq]
  exact parseFields_spelled hfields htrimmed s

end

section Examples

attribute [local instance] asciiRuntime

/-- `" Display :12, 00A320,7,-1000,,, hall 2:b ,,x"` -/
def sampleMessage : Str := text " Display :12, 00A320,7,-1000,,, hall 2:b ,,x"

/-- Blank fields shift nothing: the area is the sixth field. -/
def sampleRecord : Record := .display (text "00A320") (-1000) none (.area (some (text "hall 2:b")))

theorem parseMessage_writes_sample :
    Writes sampleRecord sampleMessage ∧
      parseMessage ⟨⟩ sampleMessage = .ok (.ok (sampleRecord.event sampleMessage)) := by
  have hwrites : Writes sampleRecord sampleMessage := by
    have hfields : Fields sampleRecord [text "12", text "00A320", text "7", text "-1000", [], [],
        text "hall 2:b", [], text "x"] := by
      refine .display (Or.inl ⟨[45], [1, 0, 0, 0], ?_, by simp, by decide, rfl, rfl⟩) rfl
        (.area ⟨rfl, by decide⟩)
      exact Or.inr (Or.inr rfl)
    refine ⟨text "Display", text "Display ", _, [text "12", text " 00A320", text "7", text "-1000",
      [], [], text " hall 2:b ", [], text "x"], by decide, ⟨[], [32], ?_⟩, hfields, by decide, ?_,
      [32], [], by simp [Blanks]; decide, by simp [Blanks], rfl⟩
    · exact ⟨by simp [Blanks], by simp [Blanks]; decide, rfl⟩
    · have hsame : ∀ s, Padded s s := fun s => ⟨[], [], by simp [Blanks], by simp [Blanks], by simp⟩
      refine .cons (hsame _) (.cons ⟨[32], [], ?_⟩ (.cons (hsame _) (.cons (hsame _) (.cons (hsame _)
        (.cons (hsame _) (.cons ⟨[32], [32], ?_⟩ (.cons (hsame _) (.cons (hsame _) .nil))))))))
      · exact ⟨by simp [Blanks]; decide, by simp [Blanks], rfl⟩
      · exact ⟨by simp [Blanks]; decide, by simp [Blanks]; decide, rfl⟩
  exact ⟨hwrites, parseMessage_writes hwrites⟩

end Examples

end RtlsStream.StreamHandler
