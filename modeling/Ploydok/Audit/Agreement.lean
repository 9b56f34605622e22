import Ploydok.Audit.Verify

/-! Writer against verifier. The writer hashes the text joined by bars, the verifier the payload,
which ends with the stored hash; the texts differ as soon as no hashed text ends with its own
digest. A log therefore verifies only while it is empty. -/

namespace Ploydok.Audit

open Text List

structure System (R : Type) extends Platform R, Crates

variable {R : Type} (S : System R)

/-- Every payload is signed, and the signature verifies under the configured key. -/
def Honest (sign : String → SignResult) : Prop :=
  ∀ payload, ∃ s k bytes, sign payload = .signed s k ∧ S.decodeVec s = some bytes ∧
    bytes.length = 64 ∧ S.verify bytes payload = true

/-- The column reads back as the instant that was stored, and chrono and JavaScript write
its year alike. -/
def ReadsBack (row : AuditRow) : Prop :=
  (S.getTimestamp row.createdAt).bind S.parseFromRfc3339 = some (row.createdAt * 1000000) ∧
    0 ≤ utcYear row.createdAt ∧ utcYear row.createdAt ≤ 9999

/-- The text the verifier compares the stored hash with the digest of. -/
def verifierInput (entry : AuditEntry) : String :=
  entry.prevHash.getD "" ++ rebuildCanonical S.toCrates entry

theorem verifierHash_eq (entry : AuditEntry) :
    verifierHash S.toCrates entry.prevHash (rebuildCanonical S.toCrates entry) =
      S.sha256Hex (verifierInput S entry) := by
  unfold verifierHash verifierInput
  cases entry.prevHash <;> simp

def hashedTexts (rows : List AuditRow) : List String :=
  rows.map chainInput ++
    match rows.mapM (readEntry S.toCrates) with
    | .ok entries => entries.map (verifierInput S)
    | .error _ => []

/-- No two of the texts collide, and none of them ends with its own digest. -/
structure InjectiveEnough (hash : String → String) (texts : List String) : Prop where
  injective : ∀ x ∈ texts, ∀ y ∈ texts, hash x = hash y → x = y
  noFixpoint : ∀ x ∈ texts, ¬ (hash x).toList <:+ x.toList

theorem canonicalLines_lastLine (sha256Hex : String → String) (id : Nat) (iso : String)
    (userId : Option String) (action targetType targetId metadata : String)
    (prevHash hash : Option String) :
    ∃ front, (canonicalLines sha256Hex id iso userId action targetType targetId metadata
      prevHash hash).toList = front ++ '\n' :: (hash.getD "->").toList := by
  have hlines : ["v1", toString id, iso, userId.getD "->", action, targetType, targetId,
      sha256Hex metadata, prevHash.getD "->", hash.getD "->"] = ["v1", toString id, iso,
      userId.getD "->", action, targetType, targetId, sha256Hex metadata, prevHash.getD "->"] ++
      [hash.getD "->"] := rfl
  rw [canonicalLines,hlines,String.intercalate_append_of_ne_nil (cons_ne_nil _ _)
    (cons_ne_nil _ _),String.intercalate_singleton,String.toList_append,
    String.toList_append,append_assoc]
  exact ⟨_,rfl⟩

theorem suffix_canonicalLines (sha256Hex : String → String) (id : Nat) (iso : String)
    (userId : Option String) (action targetType targetId metadata : String)
    (prevHash : Option String) (hash : String) :
    hash.toList <:+ (canonicalLines sha256Hex id iso userId action targetType targetId metadata
      prevHash (some hash)).toList := by
  obtain ⟨front,h⟩ := canonicalLines_lastLine sha256Hex id iso userId action targetType targetId
    metadata prevHash (some hash)
  rw [h]
  exact (suffix_cons _ _).trans (suffix_append _ _)

theorem readEntry_fields (h : readEntry S.toCrates row = .ok entry) :
    ∃ nanos, entry = ⟨row.id,row.userId,row.action,row.targetType,row.targetId,row.metadata,
      nanos,row.prevHash,row.hash,row.signature⟩ := by
  unfold readEntry at h
  cases ht : readTimestamp S.toCrates "parsing created_at timestamp" row.createdAt with
  | error e => simp [ht,Except.map] at h
  | ok nanos =>
    simp only [ht,Except.map,Except.ok.injEq] at h
    exact ⟨nanos,h.symm⟩

theorem not_hashOk_of_written (hi : InjectiveEnough S.sha256Hex texts)
    (hw : Written S.toPlatform signFn row) (hread : readEntry S.toCrates row = .ok entry)
    (hrow : chainInput row ∈ texts) (hentry : verifierInput S entry ∈ texts) :
    ¬ HashOk S.toCrates entry := by
  intro hok
  obtain ⟨nanos,rfl⟩ := readEntry_fields S hread
  have hstored := hok _ hw.hash
  rw [verifierHash_eq] at hstored
  have htexts := hi.injective _ hrow _ hentry hstored
  -- the common text ends with the stored hash, which is its digest
  apply hi.noFixpoint _ hrow
  rw [htexts,← hstored]
  unfold verifierInput rebuildCanonical
  rw [String.toList_append,hw.hash]
  exact (suffix_canonicalLines ..).trans (suffix_append _ _)

theorem exists_of_mapM_ok {α β ε : Type} {f : α → Except ε β} {xs : List α} {ys : List β}
    (h : xs.mapM f = .ok ys) {x : α} (hx : x ∈ xs) : ∃ y ∈ ys, f x = .ok y := by
  induction xs generalizing ys with
  | nil => simp at hx
  | cons a xs ih =>
    rw [mapM_cons] at h
    cases ha : f a with
    | error e =>
      rw [ha] at h
      cases h
    | ok b =>
      cases hr : xs.mapM f with
      | error e =>
        rw [ha,hr] at h
        cases h
      | ok bs =>
        rw [ha,hr] at h
        cases h
        rcases mem_cons.mp hx with rfl | hx
        · exact ⟨b,by simp,ha⟩
        · obtain ⟨y,hy,hf⟩ := ih hr hx
          exact ⟨y,by simp [hy],hf⟩

/-- The verifier accepts what sequential calls wrote exactly when there was no call. -/
theorem exitCode_run_writeLog_iff (signFn : Option (String → SignResult)) (entries : List (Entry R))
    (hi : InjectiveEnough S.sha256Hex (hashedTexts S (writeLog S.toPlatform signFn entries).rows)) :
    (run S.toCrates (writeLog S.toPlatform signFn entries).rows []).map Verdict.exitCode = .ok 0 ↔
      entries = [] := by
  constructor
  · intro h
    obtain ⟨read,hread,hpass⟩ := (exitCode_run_eq_zero_iff _ _).mp h
    by_contra hne
    have hrows : (writeLog S.toPlatform signFn entries).rows ≠ [] := by
      rw [← length_pos_iff,length_writeLog]
      exact length_pos_iff.mpr hne
    obtain ⟨row,hrow⟩ := exists_mem_of_ne_nil _ hrows
    obtain ⟨entry,hentry,hre⟩ := exists_of_mapM_ok hread hrow
    refine not_hashOk_of_written S hi (written_of_mem_writeLog _ _ _ row hrow) hre ?_ ?_
      (hpass entry hentry).2
    · exact mem_append_left _ (mem_map_of_mem hrow)
    · apply mem_append_right
      rw [hread]
      exact mem_map_of_mem hentry
  · rintro rfl
    rfl

/-! ### One signed entry -/

namespace Example

def entry : Entry Unit :=
  ⟨none,"app.create","app","app_1",.absent,1767225600000,none⟩

def metadataDigest : String := "44136fa355b3678a1146ad16f7e8649e94fb4fc21fe77e8310c060f61caaff8a"

def chainDigest : String := "e2315f7351280883ceccdeadd60d2d419dcd3620de9a0966b958cf390bea90ab"

def payload : String :=
  "v1\n1\n2026-01-01T00:00:00.000Z\n->\napp.create\napp\napp_1\n" ++ metadataDigest ++ "\n->\n" ++
    chainDigest

def sha256Hex (text : String) : String :=
  if text = "\x7b\x7d" then metadataDigest
  else if text = "app.create|app|app_1|\x7b\x7d" then chainDigest
  else if text = payload then "d8c64fc13b07ea742fff76ff7315c9f99328a2e57237f96158e1537a9a363474"
  else text

def signatureText : String :=
  "I3v2iogWGbejaz2jD9RdDS1GRNKCVnrYt_6_WPmHj-EJJL-8SwNBXVaS11IVm-25Z_QlA2LMQdbuSq-Gq8jQDg"

def signatureBytes : List UInt8 :=
  [35, 123, 246, 138, 136, 22, 25, 183, 163, 107, 61, 163, 15, 212, 93, 13,
   45, 70, 68, 210, 130, 86, 122, 216, 183, 254, 191, 88, 249, 135, 143, 225,
   9, 36, 191, 188, 75, 3, 65, 93, 86, 146, 215, 82, 21, 155, 237, 185,
   103, 244, 37, 3, 98, 204, 65, 214, 238, 74, 175, 134, 171, 200, 208, 14]

def sign (text : String) : SignResult :=
  if text = payload then .signed signatureText "key-1" else .signed "stand-in" "key-1"

def system (timestamp : Option String) : System Unit where
  stringify := fun _ => "\x7b\x7d"
  emptyRecord := ()
  sha256Hex := sha256Hex
  decodeVec := fun s =>
    if s = signatureText then some signatureBytes
    else if s = "stand-in" then some (replicate 64 0) else none
  verify := fun bytes text =>
    if text = payload then bytes = signatureBytes else bytes = replicate 64 0
  getTimestamp := fun _ => timestamp
  parseFromRfc3339 := fun text =>
    if text = "2026-01-01T00:00:00+00:00" then some 1767225600000000000 else none

theorem honest (timestamp : Option String) : Honest (system timestamp) sign := by
  intro text
  by_cases h : text = payload
  · refine ⟨signatureText,"key-1",signatureBytes,?_,?_,by decide,?_⟩
    · simp [sign,h]
    · simp [system]
    · simp [system,h]
  · refine ⟨"stand-in","key-1",replicate 64 0,by simp [sign,h],?_,by decide,?_⟩
    · simp [system,signatureText]
    · simp [system,h]

def readable : System Unit := system (some "2026-01-01T00:00:00+00:00")

def chainedText : String := "app.create|app|app_1|\x7b\x7d"

def signedRow : AuditRow where
  id := 1
  userId := none
  action := "app.create"
  targetType := "app"
  targetId := "app_1"
  metadata := "\x7b\x7d"
  createdAt := 1767225600000
  prevHash := none
  hash := some chainDigest
  signature := some signatureText
  keyId := some "key-1"
  orgId := none

theorem log_values : (writeLog readable.toPlatform (some sign) [entry]).rows = [signedRow] ∧
      hashedTexts readable [signedRow] = [chainedText, payload] ∧
      hashedTexts (system none) [signedRow] = [chainedText] := by
  decide +kernel

theorem injectiveEnough_readable : InjectiveEnough readable.sha256Hex
    (hashedTexts readable (writeLog readable.toPlatform (some sign) [entry]).rows) := by
  rw [log_values.1,log_values.2.1]
  exact ⟨by decide +kernel,by decide +kernel⟩

theorem injectiveEnough_unreadable : InjectiveEnough (system none).sha256Hex
    (hashedTexts (system none) (writeLog (system none).toPlatform (some sign) [entry]).rows) := by
  have hrows : (writeLog (system none).toPlatform (some sign) [entry]).rows = [signedRow] :=
    log_values.1
  rw [hrows,log_values.2.2]
  exact ⟨by decide +kernel,by decide +kernel⟩

end Example

open Example

/-- The driver refuses to read a timestamp as a string; where it does not, the hash check fails. -/
theorem exitCode_run_writeLog_example :
    (run (system none).toCrates (writeLog (system none).toPlatform
      (some sign) [entry]).rows []).map Verdict.exitCode ≠ .ok 0 ∧
    (run readable.toCrates (writeLog readable.toPlatform
      (some sign) [entry]).rows []).map Verdict.exitCode ≠ .ok 0 := by
  constructor
  · intro h
    exact absurd ((exitCode_run_writeLog_iff (system none) (some sign)
      [entry] injectiveEnough_unreadable).mp h) (cons_ne_nil _ _)
  · intro h
    exact absurd ((exitCode_run_writeLog_iff readable (some sign)
      [entry] injectiveEnough_readable).mp h) (cons_ne_nil _ _)

/-- Honest calls, a hash without collisions and readable rows do not make the verifier accept. -/
theorem honest_log_rejected :
    ¬ ∀ (R : Type) (S : System R) (sign : String → SignResult) (entries : List (Entry R)),
      Honest S sign →
      (∀ row ∈ (writeLog S.toPlatform (some sign) entries).rows, ReadsBack S row) →
      InjectiveEnough S.sha256Hex (hashedTexts S (writeLog S.toPlatform (some sign) entries).rows) →
      (run S.toCrates (writeLog S.toPlatform (some sign) entries).rows []).map Verdict.exitCode =
        .ok 0 := by
  intro h
  have hread : ∀ row ∈ (writeLog readable.toPlatform (some sign)
      [entry]).rows, ReadsBack readable row := by
    rw [log_values.1]
    simp only [forall_mem_singleton]
    exact ⟨rfl,by decide,by decide⟩
  have hzero := h Unit readable sign [entry] (honest _) hread injectiveEnough_readable
  rw [log_values.1] at hzero
  revert hzero
  decide +kernel

end Ploydok.Audit
