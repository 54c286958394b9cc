/-
  Python/Bytes.lean --- byte strings, their decoding, and `json.loads` of bytes.

  `bytes.decode("utf-8")` and `str.encode("utf-8")` are strict: neither lets a
  surrogate through.  `json.loads` of bytes guesses the encoding from the first
  bytes and decodes with `surrogatepass`, so it also reads UTF-16 and UTF-32 and
  lets encoded surrogates through.
-/
import RtlsStream.Python.JsonText

set_option autoImplicit false

namespace RtlsStream.Python

/-- A Python `bytes`. -/
abbrev Bytes := List UInt8

def isSurrogate (c : Nat) : Bool := 0xd800 ≤ c && c ≤ 0xdfff

/-! ## UTF-8 -/

def isContinuation (b : UInt8) : Bool := 0x80 ≤ b.toNat && b.toNat < 0xc0

/-- The code point of a three-byte sequence, unless a shorter one would do or it is a
surrogate that may not pass. -/
def threeBytes (surrogatePass : Bool) (a b c : UInt8) : Option CodePoint :=
  let cp := (a.toNat - 0xe0) * 0x1000 + (b.toNat - 0x80) * 0x40 + (c.toNat - 0x80)
  if 0xe0 ≤ a.toNat ∧ a.toNat < 0xf0 ∧ isContinuation b ∧ isContinuation c ∧ 0x800 ≤ cp ∧
      (surrogatePass ∨ ¬ isSurrogate cp) then some cp else none

/-- The code point of a four-byte sequence, unless a shorter one would do or it is
beyond Unicode. -/
def fourBytes (a b c d : UInt8) : Option CodePoint :=
  let cp := (a.toNat - 0xf0) * 0x40000 + (b.toNat - 0x80) * 0x1000 + (c.toNat - 0x80) * 0x40 +
    (d.toNat - 0x80)
  if 0xf0 ≤ a.toNat ∧ isContinuation b ∧ isContinuation c ∧ isContinuation d ∧
      0x10000 ≤ cp ∧ cp < 0x110000 then some cp else none

/-- `bytes.decode("utf-8")`; `none` is `UnicodeDecodeError`. -/
def decodeUtf8 (surrogatePass : Bool) : Bytes → Option Str
  | [] => some []
  | a :: rest =>
    if a.toNat < 0x80 then (decodeUtf8 surrogatePass rest).map (a.toNat :: ·)
    else match rest with
      | [] => none
      | b :: rest =>
        if 0xc2 ≤ a.toNat ∧ a.toNat < 0xe0 ∧ isContinuation b then
          (decodeUtf8 surrogatePass rest).map
            (((a.toNat - 0xc0) * 0x40 + (b.toNat - 0x80)) :: ·)
        else match rest with
          | [] => none
          | c :: rest =>
            match threeBytes surrogatePass a b c with
            | some cp => (decodeUtf8 surrogatePass rest).map (cp :: ·)
            | none => match rest with
              | [] => none
              | d :: rest =>
                match fourBytes a b c d with
                | some cp => (decodeUtf8 surrogatePass rest).map (cp :: ·)
                | none => none

/-- The UTF-8 bytes of a code point; `none` for a surrogate. -/
def encodeChar (c : Nat) : Option Bytes :=
  if c < 0x80 then some [.ofNat c]
  else if c < 0x800 then some [.ofNat (0xc0 + c / 0x40), .ofNat (0x80 + c % 0x40)]
  else if isSurrogate c then none
  else if c < 0x10000 then
    some [.ofNat (0xe0 + c / 0x1000), .ofNat (0x80 + c / 0x40 % 0x40), .ofNat (0x80 + c % 0x40)]
  else if c < 0x110000 then
    some [.ofNat (0xf0 + c / 0x40000), .ofNat (0x80 + c / 0x1000 % 0x40),
      .ofNat (0x80 + c / 0x40 % 0x40), .ofNat (0x80 + c % 0x40)]
  else none

/-- `str.encode("utf-8")`; `none` is `UnicodeEncodeError`. -/
def encodeUtf8 : Str → Option Bytes
  | [] => some []
  | c :: rest => do
    let b ← encodeChar c
    let bs ← encodeUtf8 rest
    some (b ++ bs)

/-! One equation of `decodeUtf8` for each length of a sequence. -/

section Equations

variable (surrogatePass : Bool) {a b c d : UInt8} (rest : Bytes)

theorem decodeUtf8_one (ha : a.toNat < 0x80) :
    decodeUtf8 surrogatePass (a :: rest) =
      (decodeUtf8 surrogatePass rest).map (a.toNat :: ·) := by
  rw [decodeUtf8.eq_def]
  simp [ha]

theorem decodeUtf8_two (ha : ¬ a.toNat < 0x80)
    (hlead : 0xc2 ≤ a.toNat ∧ a.toNat < 0xe0 ∧ isContinuation b) :
    decodeUtf8 surrogatePass (a :: b :: rest) = (decodeUtf8 surrogatePass rest).map
      (((a.toNat - 0xc0) * 0x40 + (b.toNat - 0x80)) :: ·) := by
  rw [decodeUtf8.eq_def]
  simp only [if_neg ha, if_pos hlead]

theorem decodeUtf8_three {cp : CodePoint} (ha : ¬ a.toNat < 0xe0)
    (hthree : threeBytes surrogatePass a b c = some cp) :
    decodeUtf8 surrogatePass (a :: b :: c :: rest) =
      (decodeUtf8 surrogatePass rest).map (cp :: ·) := by
  rw [decodeUtf8.eq_def]
  simp only [if_neg (show ¬ a.toNat < 0x80 by omega),
    if_neg (show ¬ (0xc2 ≤ a.toNat ∧ a.toNat < 0xe0 ∧ isContinuation b) by omega), hthree]

theorem decodeUtf8_four {cp : CodePoint} (ha : ¬ a.toNat < 0xe0)
    (hthree : threeBytes surrogatePass a b c = none) (hfour : fourBytes a b c d = some cp) :
    decodeUtf8 surrogatePass (a :: b :: c :: d :: rest) =
      (decodeUtf8 surrogatePass rest).map (cp :: ·) := by
  rw [decodeUtf8.eq_def]
  simp only [if_neg (show ¬ a.toNat < 0x80 by omega),
    if_neg (show ¬ (0xc2 ≤ a.toNat ∧ a.toNat < 0xe0 ∧ isContinuation b) by omega), hthree, hfour]

end Equations

/-- A number below 256 is the value of its byte. -/
theorem toNat_byte {n : Nat} (h : n < 256) : (UInt8.ofNat n).toNat = n := by
  rw [UInt8.toNat_ofNat']
  exact Nat.mod_eq_of_lt h

/-- Decoding one encoded code point yields it and leaves the rest. -/
theorem decodeUtf8_encodeChar (surrogatePass : Bool) {c : Nat} {b : Bytes}
    (h : encodeChar c = some b) (rest : Bytes) :
    decodeUtf8 surrogatePass (b ++ rest) = (decodeUtf8 surrogatePass rest).map (c :: ·) := by
  unfold encodeChar at h
  split at h
  · rename_i h₁
    obtain rfl := Option.some.inj h
    have hc : (UInt8.ofNat c).toNat = c := toNat_byte (by omega)
    rw [List.singleton_append, decodeUtf8_one _ _ (by omega), hc]
  split at h
  · rename_i h₁ h₂
    obtain rfl := Option.some.inj h
    have ha : (UInt8.ofNat (0xc0 + c / 0x40)).toNat = 0xc0 + c / 0x40 := toNat_byte (by omega)
    have hb : (UInt8.ofNat (0x80 + c % 0x40)).toNat = 0x80 + c % 0x40 := toNat_byte (by omega)
    have hcp : c / 0x40 * 0x40 + c % 0x40 = c := by omega
    have hlead : isContinuation (.ofNat (0x80 + c % 0x40)) = true := by
      simp [isContinuation]; omega
    simp only [List.cons_append, List.nil_append]
    rw [decodeUtf8_two _ _ (by omega) ⟨by omega, by omega, hlead⟩, ha, hb,
      Nat.add_sub_cancel_left, Nat.add_sub_cancel_left, hcp]
  split at h
  · simp at h
  rename_i h₁ h₂ hsurrogate
  split at h
  · rename_i h₃
    obtain rfl := Option.some.inj h
    have ha : (UInt8.ofNat (0xe0 + c / 0x1000)).toNat = 0xe0 + c / 0x1000 := toNat_byte (by omega)
    have hb : (UInt8.ofNat (0x80 + c / 0x40 % 0x40)).toNat = 0x80 + c / 0x40 % 0x40 :=
      toNat_byte (by omega)
    have hd : (UInt8.ofNat (0x80 + c % 0x40)).toNat = 0x80 + c % 0x40 := toNat_byte (by omega)
    have hcp : c / 0x1000 * 0x1000 + c / 0x40 % 0x40 * 0x40 + c % 0x40 = c := by omega
    have hthree : threeBytes surrogatePass (.ofNat (0xe0 + c / 0x1000))
        (.ofNat (0x80 + c / 0x40 % 0x40)) (.ofNat (0x80 + c % 0x40)) = some c := by
      simp only [threeBytes, ha, hb, hd, isContinuation, Nat.add_sub_cancel_left, hcp]
      rw [if_pos ⟨by omega, by omega, by simp; omega, by simp; omega, by omega,
        Or.inr hsurrogate⟩]
    exact decodeUtf8_three _ _ (by omega) hthree
  split at h
  · rename_i h₃ h₄
    obtain rfl := Option.some.inj h
    have ha : (UInt8.ofNat (0xf0 + c / 0x40000)).toNat = 0xf0 + c / 0x40000 := toNat_byte (by omega)
    have hb : (UInt8.ofNat (0x80 + c / 0x1000 % 0x40)).toNat = 0x80 + c / 0x1000 % 0x40 :=
      toNat_byte (by omega)
    have hd : (UInt8.ofNat (0x80 + c / 0x40 % 0x40)).toNat = 0x80 + c / 0x40 % 0x40 :=
      toNat_byte (by omega)
    have he : (UInt8.ofNat (0x80 + c % 0x40)).toNat = 0x80 + c % 0x40 := toNat_byte (by omega)
    have hcp : c / 0x40000 * 0x40000 + c / 0x1000 % 0x40 * 0x1000 + c / 0x40 % 0x40 * 0x40 +
        c % 0x40 = c := by omega
    have hthree : threeBytes surrogatePass (.ofNat (0xf0 + c / 0x40000))
        (.ofNat (0x80 + c / 0x1000 % 0x40)) (.ofNat (0x80 + c / 0x40 % 0x40)) = none := by
      simp only [threeBytes, ha]
      rw [if_neg (by omega)]
    have hfour : fourBytes (.ofNat (0xf0 + c / 0x40000)) (.ofNat (0x80 + c / 0x1000 % 0x40))
        (.ofNat (0x80 + c / 0x40 % 0x40)) (.ofNat (0x80 + c % 0x40)) = some c := by
      simp only [fourBytes, ha, hb, hd, he, isContinuation, Nat.add_sub_cancel_left, hcp]
      rw [if_pos ⟨by omega, by simp; omega, by simp; omega, by simp; omega, by omega, by omega⟩]
    exact decodeUtf8_four _ _ (by omega) hthree hfour
  · simp at h

/-- Decoding undoes encoding. -/
theorem decodeUtf8_encodeUtf8 (surrogatePass : Bool) {s : Str} {b : Bytes}
    (h : encodeUtf8 s = some b) : decodeUtf8 surrogatePass b = some s := by
  induction s generalizing b with
  | nil =>
    obtain rfl := Option.some.inj h
    rfl
  | cons c rest ih =>
    simp only [encodeUtf8, Option.bind_eq_bind, Option.bind_eq_some_iff] at h
    obtain ⟨bc, hc, brest, hrest, heq⟩ := h
    obtain rfl := Option.some.inj heq
    rw [decodeUtf8_encodeChar surrogatePass hc, ih hrest]
    rfl

/-! ## UTF-16 and UTF-32 -/

/-- The code units of a UTF-16 text. -/
def units16 (bigEndian : Bool) : Bytes → Option (List Nat)
  | [] => some []
  | [_] => none
  | a :: b :: rest =>
    let unit := if bigEndian then a.toNat * 256 + b.toNat else b.toNat * 256 + a.toNat
    (units16 bigEndian rest).map (unit :: ·)

/-- `bytes.decode("utf-16-le", "surrogatepass")` and its big-endian twin. -/
def decodeUtf16 (bigEndian : Bool) (b : Bytes) : Option Str :=
  (units16 bigEndian b).map fun units => joinSurrogates (units.map fun u => (u, true))

/-- `bytes.decode("utf-32-le", "surrogatepass")` and its big-endian twin. -/
def decodeUtf32 (bigEndian : Bool) : Bytes → Option Str
  | [] => some []
  | a :: b :: c :: d :: rest =>
    let cp := if bigEndian then ((a.toNat * 256 + b.toNat) * 256 + c.toNat) * 256 + d.toNat
      else ((d.toNat * 256 + c.toNat) * 256 + b.toNat) * 256 + a.toNat
    if cp < 0x110000 then (decodeUtf32 bigEndian rest).map (cp :: ·) else none
  | _ => none

/-! ## `json.loads` of bytes -/

/-- `json.detect_encoding`, then `bytes.decode(encoding, "surrogatepass")`. -/
def decodeDetected : Bytes → Option Str
  | 0 :: 0 :: 0xfe :: 0xff :: rest => decodeUtf32 true rest
  | 0xff :: 0xfe :: 0 :: 0 :: rest => decodeUtf32 false rest
  | 0xfe :: 0xff :: rest => decodeUtf16 true rest
  | 0xff :: 0xfe :: rest => decodeUtf16 false rest
  | 0xef :: 0xbb :: 0xbf :: rest => decodeUtf8 true rest
  | b₀ :: b₁ :: b₂ :: b₃ :: rest =>
    let b := b₀ :: b₁ :: b₂ :: b₃ :: rest
    if b₀ = 0 then (if b₁ = 0 then decodeUtf32 true b else decodeUtf16 true b)
    else if b₁ = 0 then
      (if b₂ = 0 ∧ b₃ = 0 then decodeUtf32 false b else decodeUtf16 false b)
    else decodeUtf8 true b
  | [b₀, b₁] =>
    if b₀ = 0 then decodeUtf16 true [b₀, b₁]
    else if b₁ = 0 then decodeUtf16 false [b₀, b₁]
    else decodeUtf8 true [b₀, b₁]
  | b => decodeUtf8 true b

/-- `json.loads(b)` of a `bytes` -/
def loadsBytes [Runtime] (b : Bytes) : Except PyError Json :=
  match decodeDetected b with
  | some s => decodeDocument s
  | none => .error .unicodeDecodeError

end RtlsStream.Python
