import Ploydok.Audit.Agreement

/-! What the verifier finds in a database that an attacker controls. The attacker may write any rows
and anchors, but has no signing key. Rows without a signature are skipped as legacy rows; a row with
one never passes. -/

namespace Ploydok.Audit

open Text List

def HexDigests (hash : String → String) : Prop :=
  ∀ x, (hash x).length = 64 ∧ ∀ c ∈ (hash x).toList, c ∈ "0123456789abcdef".toList

variable {R : Type} (S : System R)

/-- Signatures verify over payloads of the rows and over texts that are no payloads, such as
those of anchors. -/
def Unforgeable (rows : List AuditRow) : Prop :=
  ∀ bytes message, S.verify bytes message = true →
    (∃ row ∈ rows, message = buildCanonicalPayload S.toPlatform row) ∨
      ¬ "v1\n".toList <+: message.toList

def verifierTexts (rows : List AuditRow) : List String :=
  rows.map fun row => verifierInput S (entryOf S.toCrates row)

section Digests

variable {S} (hex : HexDigests S.sha256Hex)
include hex

theorem lineFeed_not_mem_digest (x : String) : '\n' ∉ (S.sha256Hex x).toList := by
  intro h
  exact absurd ((hex x).2 _ h) (by decide)

theorem digest_ne_arrow (x : String) : S.sha256Hex x ≠ "->" := by
  intro h
  have hlen := (hex x).1
  rw [h] at hlen
  exact absurd hlen (by decide)

end Digests

theorem isPrefix_rebuildCanonical (entry : AuditEntry) :
    "v1\n".toList <+: (rebuildCanonical S.toCrates entry).toList := by
  unfold rebuildCanonical canonicalLines
  rw [String.intercalate_cons_of_ne_nil (cons_ne_nil _ _),String.toList_append,
    String.toList_append]
  exact prefix_append _ _

theorem hash_eq_of_payload_eq (hentry : entry.hash.getD "->" = stored)
    (hrow : row.hash = some written) (hs : '\n' ∉ stored.toList) (hw : '\n' ∉ written.toList)
    (h : rebuildCanonical S.toCrates entry = buildCanonicalPayload S.toPlatform row) :
    stored = written := by
  have hchars := congrArg String.toList h
  unfold rebuildCanonical buildCanonicalPayload at hchars
  obtain ⟨front,hfront⟩ := canonicalLines_lastLine S.sha256Hex entry.id
    (toRfc3339Millis entry.createdAt) entry.userId entry.action entry.targetType entry.targetId
    entry.metadata entry.prevHash entry.hash
  obtain ⟨front',hfront'⟩ := canonicalLines_lastLine S.sha256Hex row.id
    (toISOString row.createdAt) row.userId row.action row.targetType row.targetId row.metadata
    row.prevHash row.hash
  rw [hfront,hfront',hentry,hrow,Option.getD_some] at hchars
  have hlast := congrArg (splitLast '\n') hchars
  rw [splitLast_append _ hs,splitLast_append _ hw] at hlast
  exact String.toList_inj.mp (Prod.mk.inj (Option.some.inj hlast)).2

theorem not_rowFits_of_signed (hex : HexDigests S.sha256Hex)
    (hi : InjectiveEnough S.sha256Hex texts) (hu : Unforgeable S log)
    (hwritten : ∀ r ∈ log, Written S.toPlatform signFn r) (hlog : ∀ r ∈ log, chainInput r ∈ texts)
    (htext : verifierInput S (entryOf S.toCrates row) ∈ texts) (hsig : row.signature ≠ none) :
    ¬ RowFits S.toCrates row := by
  rintro (hnone | ⟨hsignature,hhash⟩)
  · exact hsig hnone
  obtain ⟨sig,bytes,-,-,-,hverify⟩ := hsignature
  rcases hu bytes _ hverify with ⟨r,hr,hpayload⟩ | hforeign
  · have hwrote := (hwritten r hr).hash
    have hline := lineFeed_not_mem_digest hex (chainInput r)
    cases hstored : (entryOf S.toCrates row).hash with
    | none =>
      -- a missing hash is written as an arrow, and no digest is one
      have harrow : "->" = S.sha256Hex (chainInput r) :=
        hash_eq_of_payload_eq S (by rw [hstored]; rfl) hwrote (by decide) hline hpayload
      exact digest_ne_arrow hex _ harrow.symm
    | some stored =>
      have hcheck := hhash stored hstored
      rw [verifierHash_eq] at hcheck
      have heq : stored = S.sha256Hex (chainInput r) := by
        refine hash_eq_of_payload_eq S (by rw [hstored]; rfl) hwrote ?_ hline hpayload
        rw [hcheck]
        exact lineFeed_not_mem_digest hex _
      -- then the verifier's text is the writer's, and it ends with its own digest
      have htexts : chainInput r = verifierInput S (entryOf S.toCrates row) :=
        hi.injective _ (hlog r hr) _ htext (heq.symm.trans hcheck)
      apply hi.noFixpoint _ htext
      rw [← hcheck]
      unfold verifierInput rebuildCanonical
      rw [String.toList_append,hstored]
      exact (suffix_canonicalLines ..).trans (suffix_append _ _)
  · exact hforeign (isPrefix_rebuildCanonical S _)

/-- Tampering is reported exactly when all rows and anchors can be read and some row has a signature
or some anchor does not fit. -/
theorem exitCode_run_attacked_iff (signFn : Option (String → SignResult)) (entries : List (Entry R))
    (rows : List AuditRow) (anchors : List AnchorRow) (hex : HexDigests S.sha256Hex)
    (hi : InjectiveEnough S.sha256Hex
      ((writeLog S.toPlatform signFn entries).rows.map chainInput ++ verifierTexts S rows))
    (hu : Unforgeable S (writeLog S.toPlatform signFn entries).rows) :
    (run S.toCrates rows anchors).map Verdict.exitCode = .ok 2 ↔
      AllReadable S.toCrates rows anchors ∧
        ((∃ row ∈ rows, row.signature ≠ none) ∨ ∃ a ∈ anchors, ¬ AnchorFits rows a) := by
  have hrow : ∀ row ∈ rows, (RowFits S.toCrates row ↔ row.signature = none) := by
    intro row hmem
    constructor
    · intro hfits
      by_contra hsig
      refine not_rowFits_of_signed S hex hi hu (written_of_mem_writeLog S.toPlatform signFn entries)
        (fun r hr => mem_append_left _ (mem_map_of_mem hr))
        (mem_append_right _ (mem_map_of_mem hmem)) hsig hfits
    · exact fun h => .inl h
  rw [exitCode_run_eq_two_iff,not_and_or]
  constructor
  · rintro ⟨hread,h | h⟩
    · push Not at h
      obtain ⟨row,hmem,hfits⟩ := h
      exact ⟨hread,.inl ⟨row,hmem,fun hsig => hfits ((hrow row hmem).mpr hsig)⟩⟩
    · push Not at h
      exact ⟨hread,.inr h⟩
  · rintro ⟨hread,⟨row,hmem,hsig⟩ | ⟨a,ha,hfits⟩⟩
    · exact ⟨hread,.inl fun h => hsig ((hrow row hmem).mp (h row hmem))⟩
    · exact ⟨hread,.inr fun h => hfits (h a ha)⟩

namespace Example

def forgedPayload : String :=
  "v1\n1\n2026-01-01T00:00:00.000Z\n->\napp.delete\napp\napp_1\n" ++ metadataDigest ++ "\n->\n" ++
    chainDigest

def digest (text : String) : String :=
  if text = "\x7b\x7d" then metadataDigest
  else if text = "app.create|app|app_1|\x7b\x7d" then chainDigest
  else if text = payload then "d8c64fc13b07ea742fff76ff7315c9f99328a2e57237f96158e1537a9a363474"
  else if text = forgedPayload then
    "99d859cab23e00c64886b156b4a9aab2f3543a61eaea654912f9bbf7ff408213"
  else "e3b0c44298fc1c149afbf4c8996fb92427ae41e4649b934ca495991b7852b855"

def attacked : System Unit :=
  { readable with
    sha256Hex := digest
    verify := fun bytes text => text = payload && bytes = signatureBytes }

def attackedLog : List AuditRow := (writeLog attacked.toPlatform (some sign) [entry]).rows

def forged (keepSignature : Bool) : List AuditRow :=
  attackedLog.map fun row =>
    { row with
      action := "app.delete"
      signature := row.signature.filter fun _ => keepSignature }

def hexDigits : List Char :=
  ['0', '1', '2', '3', '4', '5', '6', '7', '8', '9', 'a', 'b', 'c', 'd', 'e', 'f']

theorem hexDigest_ofList (h : l.length = 64 ∧ l.all hexDigits.contains = true) :
    (String.ofList l).length = 64 ∧
      ∀ c ∈ (String.ofList l).toList, c ∈ "0123456789abcdef".toList := by
  have hdigits : "0123456789abcdef".toList = hexDigits := String.toList_ofList
  rw [String.length_ofList,String.toList_ofList,hdigits]
  exact ⟨h.1,fun c hc => by simpa using all_eq_true.mp h.2 c hc⟩

theorem hexDigests_digest : HexDigests attacked.sha256Hex := by
  intro x
  show (digest x).length = 64 ∧ ∀ c ∈ (digest x).toList, c ∈ "0123456789abcdef".toList
  unfold digest
  split_ifs
  all_goals exact hexDigest_ofList ⟨rfl,rfl⟩

def forgedRow (signature : Option String) : AuditRow :=
  { signedRow with
    action := "app.delete"
    signature := signature }

theorem attacked_values :
    attackedLog = [signedRow] ∧ buildCanonicalPayload attacked.toPlatform signedRow = payload ∧
      verifierTexts attacked [forgedRow none] = [forgedPayload] := by
  decide +kernel

variable (keepSignature : Bool)

theorem forged_eq : forged keepSignature =
    [forgedRow (signedRow.signature.filter fun _ => keepSignature)] := by
  rw [forged,attacked_values.1]
  rfl

theorem unforgeable_attacked : Unforgeable attacked attackedLog := by
  intro bytes message h
  have hm : message = payload := by
    simp only [attacked,Bool.and_eq_true,decide_eq_true_eq] at h
    exact h.1
  left
  rw [hm,attacked_values.1]
  exact ⟨signedRow,mem_singleton_self _,attacked_values.2.1.symm⟩

theorem verifierTexts_forged : verifierTexts attacked (forged keepSignature) = [forgedPayload] := by
  rw [forged_eq]
  exact attacked_values.2.2

theorem injectiveEnough_attacked : InjectiveEnough attacked.sha256Hex
    (attackedLog.map chainInput ++ verifierTexts attacked (forged keepSignature)) := by
  rw [verifierTexts_forged,attacked_values.1]
  exact ⟨by decide +kernel,by decide +kernel⟩

theorem allReadable_forged : AllReadable attacked.toCrates (forged keepSignature) [] := by
  refine ⟨fun row _ => ⟨1767225600000000000,?_⟩,fun a ha => absurd ha not_mem_nil⟩
  rfl

end Example

open Example

/-- With its signature kept, the changed row is found. -/
theorem exitCode_run_attacked_example :
    (run attacked.toCrates (forged true) []).map Verdict.exitCode = .ok 2 := by
  refine (exitCode_run_attacked_iff attacked (some sign) [entry] _ _
    hexDigests_digest (injectiveEnough_attacked true)
    unforgeable_attacked).mpr ⟨allReadable_forged true,.inl ?_⟩
  rw [forged_eq]
  exact ⟨_,mem_singleton_self _,by simp [forgedRow,signedRow]⟩

/-- Without its signature, it is not. -/
theorem stripped_signature_undetected :
    ¬ ∀ (R : Type) (S : System R) (signFn : Option (String → SignResult))
      (entries : List (Entry R)) (rows : List AuditRow) (anchors : List AnchorRow),
      HexDigests S.sha256Hex →
      InjectiveEnough S.sha256Hex
        ((writeLog S.toPlatform signFn entries).rows.map chainInput ++ verifierTexts S rows) →
      Unforgeable S (writeLog S.toPlatform signFn entries).rows →
      AllReadable S.toCrates rows anchors →
      ¬ rows <+: (writeLog S.toPlatform signFn entries).rows →
      (run S.toCrates rows anchors).map Verdict.exitCode = .ok 2 := by
  intro h
  have hcode := h Unit attacked (some sign) [entry] (forged false)
    [] hexDigests_digest (injectiveEnough_attacked false)
    unforgeable_attacked (allReadable_forged false) (by
      show ¬ forged false <+: attackedLog
      rw [forged_eq,attacked_values.1]
      simp [forgedRow,signedRow])
  rw [forged_eq] at hcode
  revert hcode
  decide +kernel

end Ploydok.Audit
