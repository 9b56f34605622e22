import Mathlib.Data.List.Basic

/-! Percent-encoding of URI components as JavaScript does it: characters outside the
unreserved set are written as the octets of their UTF-8 encoding, and decoding collects
octets and asks that they are valid UTF-8 (`URIError` otherwise). -/

namespace Ploydok.Text

open String

def hexDigit (n : Nat) : Char := Char.ofNat (if n < 10 then 48 + n else 55 + n)

def hexValue (c : Char) : Option Nat :=
  if '0' ≤ c ∧ c ≤ '9' then some (c.toNat - 48)
  else if 'A' ≤ c ∧ c ≤ 'F' then some (c.toNat - 55)
  else if 'a' ≤ c ∧ c ≤ 'f' then some (c.toNat - 87)
  else none

theorem hexValue_hexDigit (h : n < 16) : hexValue (hexDigit n) = some n := by
  have hall : ∀ m : Fin 16, hexValue (hexDigit m) = some m.val := by decide
  exact hall ⟨n,h⟩

def percentOctet (b : UInt8) : List Char :=
  ['%', hexDigit (b.toNat / 16), hexDigit (b.toNat % 16)]

/-- The characters `encodeURIComponent` leaves as they are. -/
def isUnreserved (c : Char) : Bool := c.isAlphanum || "-_.!~*'()".toList.contains c

def encodeChar (c : Char) : List Char :=
  if isUnreserved c then [c] else (utf8EncodeChar c).flatMap percentOctet

def encodeURIComponent (s : String) : String := ofList (s.toList.flatMap encodeChar)

/-- The octets a percent-encoded text stands for; a `%` must be followed by two digits. -/
def octets : List Char → Option (List UInt8)
  | [] => some []
  | '%' :: h :: l :: rest => do
    let hi ← hexValue h
    let lo ← hexValue l
    let bytes ← octets rest
    some (UInt8.ofNat (16 * hi + lo) :: bytes)
  | c :: rest =>
    if c = '%' then none else (octets rest).map (utf8EncodeChar c ++ ·)

def decodeURIComponent (s : String) : Option String :=
  (octets s.toList).bind fun bytes => fromUTF8? bytes.toByteArray

theorem octets_percentOctet (b : UInt8) (rest : List Char) :
    octets (percentOctet b ++ rest) = (octets rest).map (b :: ·) := by
  have hb : b.toNat < 256 := b.toNat_lt
  have hhi : hexValue (hexDigit (b.toNat / 16)) = some (b.toNat / 16) :=
    hexValue_hexDigit (by omega)
  have hlo : hexValue (hexDigit (b.toNat % 16)) = some (b.toNat % 16) :=
    hexValue_hexDigit (by omega)
  have hsum : UInt8.ofNat (16 * (b.toNat / 16) + b.toNat % 16) = b := by
    rw [show 16 * (b.toNat / 16) + b.toNat % 16 = b.toNat by omega]
    exact UInt8.ofNat_toNat
  simp only [percentOctet,List.cons_append,List.nil_append,octets,hhi,hlo,
    Option.bind_eq_bind,Option.bind_some,hsum]
  cases octets rest <;> rfl

theorem octets_flatMap_percentOctet (bytes : List UInt8) (rest : List Char) :
    octets (bytes.flatMap percentOctet ++ rest) = (octets rest).map (bytes ++ ·) := by
  induction bytes with
  | nil => simp
  | cons b bytes ih =>
    rw [List.flatMap_cons,List.append_assoc,octets_percentOctet,ih,Option.map_map]
    rfl

theorem octets_encodeChar (c : Char) (rest : List Char) :
    octets (encodeChar c ++ rest) = (octets rest).map (utf8EncodeChar c ++ ·) := by
  unfold encodeChar
  split
  · next hc =>
    -- `%` itself is not unreserved, so an unreserved character is read as it stands
    have hne : c ≠ '%' := by
      rintro rfl
      exact absurd hc (by decide)
    simp [octets,hne]
  · exact octets_flatMap_percentOctet _ rest

theorem octets_flatMap_encodeChar (chars : List Char) :
    octets (chars.flatMap encodeChar) = some (chars.flatMap utf8EncodeChar) := by
  induction chars with
  | nil => rfl
  | cons c chars ih => simp [octets_encodeChar,ih]

theorem decodeURIComponent_encodeURIComponent (s : String) :
    decodeURIComponent (encodeURIComponent s) = some s := by
  have hbytes : (s.toList.flatMap utf8EncodeChar).toByteArray = s.toByteArray := by
    rw [← utf8Encode_toList,List.utf8Encode]
  simp only [decodeURIComponent,encodeURIComponent,toList_ofList,
    octets_flatMap_encodeChar,Option.bind_some,hbytes]
  simp [fromUTF8?,fromUTF8,isValidUTF8]

end Ploydok.Text
