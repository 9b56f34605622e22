import Ploydok.Text.Timestamp

/-! Time-based one-time passwords, `apps/api/src/auth/totp.ts`: base32, the truncated
HMAC of a 30-second counter, and the check of a code against the steps around the
present one. HMAC-SHA1 is a parameter. -/

namespace Ploydok.Auth

open Text

def PERIOD_S : Int := 30

def DIGITS : Nat := 6

def BASE32_ALPHABET : List Char := "ABCDEFGHIJKLMNOPQRSTUVWXYZ234567".toList

/-- `createHmac("sha1", key).update(message).digest()`. -/
abbrev Hmac := List UInt8 → List UInt8 → Vector UInt8 20

/-- One turn of the loop of `decodeBase32`: `value` is a 32-bit register, `bits` of it are
pending. -/
structure Base32 where
  bits : Nat
  value : UInt32
  output : List UInt8

def Base32.push (s : Base32) (idx : Nat) : Base32 :=
  let value := (s.value <<< 5) ||| UInt32.ofNat idx
  let bits := s.bits + 5
  if 8 ≤ bits then
    ⟨bits - 8,value,s.output ++ [UInt8.ofNat ((value >>> UInt32.ofNat (bits - 8)).toNat % 256)]⟩
  else ⟨bits,value,s.output⟩

/-- Case-insensitive, ignoring white space and padding; `none` is the error for a character
outside of the alphabet. -/
def decodeBase32 (s : String) : Option (List UInt8) :=
  let cleaned := (s.toList.map Char.toUpper).filter fun c => !(isJsSpace c || c == '=')
  let loop (s : Option Base32) (c : Char) : Option Base32 :=
    s.bind fun s => (BASE32_ALPHABET.findIdx? (· == c)).map s.push
  (cleaned.foldl loop (some ⟨0,0,[]⟩)).map Base32.output

/-- `writeUInt32BE`. -/
def uint32BE (n : Nat) : List UInt8 :=
  [n / 2 ^ 24, n / 2 ^ 16, n / 2 ^ 8, n].map fun k => UInt8.ofNat (k % 256)

/-- Eight bytes, big endian; `none` is the range error for a negative or too large counter. -/
def packCounter (counter : Int) : Option (List UInt8) :=
  let high := counter / 2 ^ 32
  let low := (counter % 2 ^ 32).toNat
  if 0 ≤ high ∧ high < 2 ^ 32 then some (uint32BE high.toNat ++ uint32BE low) else none

def truncate (hmac : Vector UInt8 20) : Nat :=
  let offset := (hmac.get 19).toNat % 16
  let byte (i : Nat) : Nat := (hmac.toList.getD (offset + i) 0).toNat
  (byte 0 % 128) * 2 ^ 24 + byte 1 * 2 ^ 16 + byte 2 * 2 ^ 8 + byte 3

/-- `none` is an exception. -/
def computeCode (hmacSha1 : Hmac) (secret : String) (unixSeconds : Int) : Option String :=
  (packCounter (unixSeconds / PERIOD_S)).bind fun counterBuf =>
    (decodeBase32 secret).map fun keyBuf =>
      padLeft DIGITS (truncate (hmacSha1 keyBuf counterBuf) % 10 ^ DIGITS)

/-- The steps `-window, …, window` in the order of the loop. -/
def windowSteps (window : Nat) : List Int :=
  (List.range (2 * window + 1)).map fun (i : Nat) => (i : Int) - window

/-- The loop of `verifyCodeDetailed` over the offsets of the steps. -/
def matchStep (hmacSha1 : Hmac) (secret : String) (incoming : String) (nowSec : Int) :
    List Int → Option (Option Int)
  | [] => some none
  | i :: is =>
    (computeCode hmacSha1 secret (nowSec + i * PERIOD_S)).bind fun expected =>
      if expected = incoming then some (some (nowSec / PERIOD_S + i))
      else matchStep hmacSha1 secret incoming nowSec is

/-- The outer `none` is an exception, the inner one a code that does not match. -/
def verifyCodeDetailed (hmacSha1 : Hmac) (secret code : String) (nowSec : Int) (window : Nat) :
    Option (Option Int) :=
  let normalised := code.toList.filter fun c => !isJsSpace c
  if normalised.length ≠ DIGITS ∨ ¬ normalised.all Char.isDigit then some none
  else matchStep hmacSha1 secret (String.ofList normalised) nowSec (windowSteps window)

theorem mem_windowSteps_iff : i ∈ windowSteps window ↔ -(window : Int) ≤ i ∧ i ≤ window := by
  unfold windowSteps
  rw [List.mem_map]
  constructor
  · rintro ⟨n,hn,rfl⟩
    rw [List.mem_range] at hn
    omega
  · rintro ⟨hlo,hhi⟩
    refine ⟨(i + window).toNat,?_,?_⟩
    · rw [List.mem_range]
      omega
    · omega

theorem exists_of_matchStep (h : matchStep hmacSha1 secret incoming nowSec is = some (some step)) :
    ∃ i ∈ is, step = nowSec / PERIOD_S + i := by
  induction is with
  | nil => simp [matchStep] at h
  | cons i is ih =>
    rw [matchStep,Option.bind_eq_some_iff] at h
    obtain ⟨expected,-,h⟩ := h
    split at h
    · exact ⟨i,by simp,by simpa using h.symm⟩
    · obtain ⟨j,hj,hstep⟩ := ih h
      exact ⟨j,by simp [hj],hstep⟩

/-- A matched step is at most `window` away from the present one. -/
theorem bounds_of_verifyCodeDetailed
    (h : verifyCodeDetailed hmacSha1 secret code nowSec window = some (some step)) :
    nowSec / PERIOD_S - window ≤ step ∧ step ≤ nowSec / PERIOD_S + window := by
  unfold verifyCodeDetailed at h
  dsimp only at h
  split at h
  · simp at h
  · obtain ⟨i,hi,hstep⟩ := exists_of_matchStep h
    have hbounds := mem_windowSteps_iff.mp hi
    omega

namespace Example

def secret : String := "GEZDGNBVGY3TQOJQGEZDGNBVGY3TQOJQ"

def digests : List (Nat × Nat) :=
  [(58907519, 0xbc143c8bec3f1ccd284ada3b169bab6b19d6a209),
   (58907520, 0x211afc59dad4cfbb6256c88b73d30f1e2c27e6f1),
   (58907521, 0x04f0c7a8872306be3cf704371698e81c1f51205c),
   (58907522, 0x2f9ba0efd7c5d3554e13aa77f9a46fc183087b64),
   (58907523, 0x44fbfee8d692e17364c9db80cab022fe5633ba2b),
   (58907524, 0x56d983ff29de3ce35c03a135ff43dca62149d5d1),
   (58907525, 0x229f49f42de4c4cb1ea170865f2277b18dfba2bb),
   (58907526, 0x3e1623393315da064e51ca70da2941eddbb0a37a),
   (58907527, 0xaef076a8c19def3ea4aa8c2d44b5a0fe507026db),
   (58907528, 0x37ef7e9338d38e14d808692c8958545b586cabba),
   (58907529, 0xb61680df9dfc9f8d4c59e02d3b5609a241275124),
   (58907530, 0xfd2e145d0494860a9c3b766418eb113bd2457442),
   (58907531, 0x13ebb70d72bfc354cedddcbee605b4fd47bb8d61)]

def hmacSha1 : Hmac := fun _ message =>
  let counter := message.foldl (fun n b => 256 * n + b.toNat) 0
  let digest := (digests.lookup counter).getD 0
  Vector.ofFn fun i => UInt8.ofNat (digest / 256 ^ (19 - i.val) % 256)

example : computeCode hmacSha1 secret 1767225600 = some "745690" := by decide +kernel

end Example

end Ploydok.Auth
