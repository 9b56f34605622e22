import Ploydok.Audit.Log

/-! The audit verifier, `agent/ploydok-cli/src/audit_verify.rs`, from the loaded public key on.
`run` folds the checks of all entries and anchors over a verdict; its exit code is 2 for tampering,
1 for unsigned entries, 0 otherwise. -/

namespace Ploydok.Audit

open Text List

/-- An instant as chrono keeps it: nanoseconds since the epoch. -/
structure AuditEntry where
  id : Nat
  userId : Option String
  (action targetType targetId metadata : String)
  createdAt : Int
  (prevHash hash signature : Option String)

/-- A row of `audit_anchors`; its signature is read but never checked. -/
structure AnchorRow where
  (id headAuditId : Nat)
  headHash : String
  signedAt : Int

structure Crates where
  sha256Hex : String → String
  /-- `Base64UrlUnpadded::decode_vec`. -/
  decodeVec : String → Option (List UInt8)
  /-- `VerificationKey::verify` of 64 signature bytes over a message. -/
  verify : List UInt8 → String → Bool
  /-- `row.get::<String>` on a timestamp column (milliseconds); `none` is its panic. -/
  getTimestamp : Int → Option String
  parseFromRfc3339 : String → Option Int

inductive Failure where
  | panicked
  | error (context : String)
deriving DecidableEq

/-- Four digits for the years 0 to 9999, else a sign and at least four digits. -/
def rfc3339Year (y : Int) : String :=
  if 0 ≤ y ∧ y ≤ 9999 then padLeft 4 y.toNat
  else (if y < 0 then "-" else "+") ++ padLeft 4 y.natAbs

/-- `to_rfc3339_opts(SecondsFormat::Millis, true)`: finer digits are cut off. -/
def toRfc3339Millis (nanos : Int) : String := isoMillis rfc3339Year (nanos / 1000000)

variable (d : Crates)

def readTimestamp (context : String) (column : Int) : Except Failure Int :=
  match d.getTimestamp column with
  | none => .error .panicked
  | some text =>
    match d.parseFromRfc3339 text with
    | none => .error (.error context)
    | some nanos => .ok nanos

def readEntry (row : AuditRow) : Except Failure AuditEntry :=
  (readTimestamp d "parsing created_at timestamp" row.createdAt).map fun createdAt =>
    { id := row.id
      userId := row.userId
      action := row.action
      targetType := row.targetType
      targetId := row.targetId
      metadata := row.metadata
      createdAt := createdAt
      prevHash := row.prevHash
      hash := row.hash
      signature := row.signature }

/-- An anchor is read for its failures and kept as it is. -/
def readAnchor (row : AnchorRow) : Except Failure AnchorRow :=
  (readTimestamp d "parsing signed_at timestamp" row.signedAt).map fun _ => row

/-- The payload as the verifier rebuilds it, the stored hash included. -/
def rebuildCanonical (entry : AuditEntry) : String :=
  canonicalLines d.sha256Hex entry.id (toRfc3339Millis entry.createdAt) entry.userId
    entry.action entry.targetType entry.targetId entry.metadata entry.prevHash entry.hash

/-- `compute_hash` of the verifier: an empty previous hash is put in front like any other. -/
def verifierHash (prevHash : Option String) (canonical : String) : String :=
  match prevHash with
  | some prev => d.sha256Hex (prev ++ canonical)
  | none => d.sha256Hex canonical

/-- The accumulators of `run`. -/
structure Verdict where
  hasUnsigned : Bool := false
  hasTampered : Bool := false
  tamperLocation : Option (Nat × String) := none
deriving DecidableEq

namespace Verdict

def unsigned (v : Verdict) : Verdict := { v with hasUnsigned := true }

def tampered (v : Verdict) (id : Nat) (reason : String) : Verdict :=
  { v with hasTampered := true, tamperLocation := v.tamperLocation.or (some (id, reason)) }

def exitCode (v : Verdict) : Nat :=
  if v.hasTampered then 2 else if v.hasUnsigned then 1 else 0

end Verdict

def checkHash (v : Verdict) (entry : AuditEntry) (canonical : String) : Verdict :=
  match entry.hash with
  | none => v
  | some stored =>
    if stored ≠ verifierHash d entry.prevHash canonical then v.tampered entry.id "hash chain broken"
    else v

def checkEntry (v : Verdict) (entry : AuditEntry) : Verdict :=
  match entry.signature with
  | none => v.unsigned
  | some sig =>
    let canonical := rebuildCanonical d entry
    match d.decodeVec sig with
    | none => checkHash d (v.tampered entry.id "invalid base64url signature") entry canonical
    | some bytes =>
      -- a signature of the wrong length skips the hash check
      if bytes.length ≠ 64 then v.tampered entry.id "invalid signature length"
      else if d.verify bytes canonical then checkHash d v entry canonical
      else checkHash d (v.tampered entry.id "signature verification failed") entry canonical

def checkAnchor (entries : List AuditEntry) (v : Verdict) (anchor : AnchorRow) : Verdict :=
  match entries.find? (·.id == anchor.headAuditId) with
  | some entry =>
    if entry.hash ≠ some anchor.headHash then v.tampered anchor.headAuditId "anchor drift" else v
  | none => v.tampered anchor.headAuditId "anchor points to missing entry"

def run (rows : List AuditRow) (anchorRows : List AnchorRow) : Except Failure Verdict := do
  let entries ← rows.mapM (readEntry d)
  let anchors ← anchorRows.mapM (readAnchor d)
  let v := entries.foldl (checkEntry d) {}
  return anchors.foldl (checkAnchor entries) v

def Verdict.Clean (v : Verdict) : Prop := v.hasTampered = false ∧ v.hasUnsigned = false

variable (v : Verdict)

theorem Verdict.exitCode_eq_zero_iff : v.exitCode = 0 ↔ v.Clean := by
  unfold Verdict.exitCode Verdict.Clean
  cases v.hasTampered <;> cases v.hasUnsigned <;> simp

@[simp] theorem Verdict.not_clean_tampered (id : Nat) (reason : String) :
    ¬ (v.tampered id reason).Clean := by simp [tampered,Clean]

@[simp] theorem Verdict.not_clean_unsigned : ¬ v.unsigned.Clean := by
  simp [unsigned,Clean]

theorem checkHash_iff {J : Verdict → Prop} (hJ : ∀ v id reason, ¬ J (.tampered v id reason))
    (v : Verdict) (entry : AuditEntry) (canonical : String) :
    J (checkHash d v entry canonical) ↔ J v ∧ ∀ stored, entry.hash = some stored →
      stored = verifierHash d entry.prevHash canonical := by
  unfold checkHash
  cases h : entry.hash with
  | none => simp
  | some stored =>
    by_cases hs : stored = verifierHash d entry.prevHash canonical
    · simp [← hs]
    · simp [hs,hJ]

def SignatureOk (entry : AuditEntry) : Prop :=
  ∃ sig bytes, entry.signature = some sig ∧ d.decodeVec sig = some bytes ∧
    bytes.length = 64 ∧ d.verify bytes (rebuildCanonical d entry) = true

def HashOk (entry : AuditEntry) : Prop :=
  ∀ stored, entry.hash = some stored →
    stored = verifierHash d entry.prevHash (rebuildCanonical d entry)

theorem signatureOk_iff_of_decode {entry : AuditEntry} (hs : entry.signature = some sig) :
    SignatureOk d entry ↔ ∃ bytes, d.decodeVec sig = some bytes ∧
      bytes.length = 64 ∧ d.verify bytes (rebuildCanonical d entry) = true := by
  constructor
  · rintro ⟨sig',bytes,h,hb⟩
    obtain rfl : sig = sig' := Option.some.inj (hs.symm.trans h)
    exact ⟨bytes,hb⟩
  · rintro ⟨bytes,hb⟩
    exact ⟨sig,bytes,hs,hb⟩

theorem checkEntry_iff {J : Verdict → Prop} (hJ : ∀ v id reason, ¬ J (.tampered v id reason))
    (v : Verdict) (entry : AuditEntry) : J (checkEntry d v entry) ↔
      entry.signature = none ∧ J v.unsigned ∨ J v ∧ SignatureOk d entry ∧ HashOk d entry := by
  unfold checkEntry
  cases hs : entry.signature with
  | none => simp [SignatureOk,hs]
  | some sig =>
    rw [signatureOk_iff_of_decode d hs]
    cases hd : d.decodeVec sig with
    | none => simp [hd,checkHash_iff d hJ,hJ]
    | some bytes =>
      by_cases hl : bytes.length = 64
      · cases hv : d.verify bytes (rebuildCanonical d entry) with
        | true => simp [hd,hl,hv,checkHash_iff d hJ,HashOk]
        | false => simp [hd,hl,hv,checkHash_iff d hJ,hJ]
      · simp [hd,hl,hJ]

theorem clean_foldl_checkEntry_iff (entries : List AuditEntry) :
    (entries.foldl (checkEntry d) v).Clean ↔
      v.Clean ∧ ∀ entry ∈ entries, SignatureOk d entry ∧ HashOk d entry := by
  induction entries generalizing v with
  | nil => simp
  | cons entry entries ih =>
    simp [ih,checkEntry_iff d Verdict.not_clean_tampered,Verdict.not_clean_unsigned,and_assoc]

variable (rows : List AuditRow)

theorem exitCode_run_eq_zero_iff : (run d rows []).map Verdict.exitCode = .ok 0 ↔
      ∃ entries, rows.mapM (readEntry d) = .ok entries ∧
        ∀ entry ∈ entries, SignatureOk d entry ∧ HashOk d entry := by
  have hclean : ({} : Verdict).Clean := ⟨rfl,rfl⟩
  cases h : rows.mapM (readEntry d) with
  | error e =>
    have hrun : run d rows [] = .error e := by
      unfold run
      rw [h]
      rfl
    simp [hrun,Except.map]
  | ok entries =>
    have hrun : run d rows [] = .ok (entries.foldl (checkEntry d) {}) := by
      unfold run
      rw [h]
      rfl
    simp [hrun,Except.map,Verdict.exitCode_eq_zero_iff,clean_foldl_checkEntry_iff,hclean]

/-! ### What no tampering means -/

def Readable (column : Int) : Prop :=
  ∃ nanos, (d.getTimestamp column).bind d.parseFromRfc3339 = some nanos

def entryOf (row : AuditRow) : AuditEntry :=
  { id := row.id
    userId := row.userId
    action := row.action
    targetType := row.targetType
    targetId := row.targetId
    metadata := row.metadata
    createdAt := ((d.getTimestamp row.createdAt).bind d.parseFromRfc3339).getD 0
    prevHash := row.prevHash
    hash := row.hash
    signature := row.signature }

theorem readTimestamp_eq_ok_iff (context : String) (column nanos : Int) :
    readTimestamp d context column = .ok nanos ↔
      (d.getTimestamp column).bind d.parseFromRfc3339 = some nanos := by
  unfold readTimestamp
  cases d.getTimestamp column with
  | none => simp
  | some text => cases h : d.parseFromRfc3339 text <;> simp [h]

theorem readEntry_eq_ok_iff (row : AuditRow) (entry : AuditEntry) :
    readEntry d row = .ok entry ↔ Readable d row.createdAt ∧ entry = entryOf d row := by
  unfold readEntry Readable entryOf
  constructor
  · intro h
    cases ht : readTimestamp d "parsing created_at timestamp" row.createdAt with
    | error e => simp [ht,Except.map] at h
    | ok nanos =>
      simp only [ht,Except.map,Except.ok.injEq] at h
      have hread := (readTimestamp_eq_ok_iff d _ _ _).mp ht
      exact ⟨⟨nanos,hread⟩,by rw [← h,hread]; rfl⟩
  · rintro ⟨⟨nanos,hread⟩,rfl⟩
    rw [(readTimestamp_eq_ok_iff d _ _ _).mpr hread,hread]
    rfl

theorem readAnchor_eq_ok_iff (row anchor : AnchorRow) :
    readAnchor d row = .ok anchor ↔ Readable d row.signedAt ∧ anchor = row := by
  unfold readAnchor Readable
  constructor
  · intro h
    cases ht : readTimestamp d "parsing signed_at timestamp" row.signedAt with
    | error e => simp [ht,Except.map] at h
    | ok nanos =>
      simp only [ht,Except.map,Except.ok.injEq] at h
      exact ⟨⟨nanos,(readTimestamp_eq_ok_iff d _ _ _).mp ht⟩,h.symm⟩
  · rintro ⟨⟨nanos,hread⟩,rfl⟩
    rw [(readTimestamp_eq_ok_iff d _ _ _).mpr hread]
    rfl

/-- A reader that gives `g x` on every good `x` and fails on the others. -/
theorem mapM_eq_ok_iff {α β ε : Type} {f : α → Except ε β} {good : α → Prop} {g : α → β}
    (hf : ∀ x y, f x = .ok y ↔ good x ∧ y = g x) (xs : List α) (ys : List β) :
    xs.mapM f = .ok ys ↔ (∀ x ∈ xs, good x) ∧ ys = xs.map g := by
  induction xs generalizing ys with
  | nil => simp [pure,Except.pure,eq_comm]
  | cons x xs ih =>
    rw [mapM_cons]
    constructor
    · intro h
      cases hx : f x with
      | error e => simp [hx,bind,Except.bind] at h
      | ok y =>
        cases hxs : xs.mapM f with
        | error e => simp [hx,hxs,bind,Except.bind] at h
        | ok zs =>
          simp only [hx,hxs,bind,Except.bind,pure,Except.pure,Except.ok.injEq] at h
          obtain ⟨hgood,rfl⟩ := (hf x y).mp hx
          obtain ⟨hrest,rfl⟩ := (ih zs).mp hxs
          exact ⟨forall_mem_cons.mpr ⟨hgood,hrest⟩,h.symm⟩
    · rintro ⟨hgood,rfl⟩
      obtain ⟨hx,hxs⟩ := forall_mem_cons.mp hgood
      rw [(hf x (g x)).mpr ⟨hx,rfl⟩,(ih _).mpr ⟨hxs,rfl⟩]
      rfl

theorem run_eq_ok_iff (anchors : List AnchorRow) (v : Verdict) : run d rows anchors = .ok v ↔
      (∀ row ∈ rows, Readable d row.createdAt) ∧ (∀ a ∈ anchors, Readable d a.signedAt) ∧
      v = anchors.foldl (checkAnchor (rows.map (entryOf d)))
        ((rows.map (entryOf d)).foldl (checkEntry d) {}) := by
  unfold run
  constructor
  · intro h
    cases hrows : rows.mapM (readEntry d) with
    | error e => simp [hrows,bind,Except.bind] at h
    | ok entries =>
      cases hanchors : anchors.mapM (readAnchor d) with
      | error e => simp [hrows,hanchors,bind,Except.bind] at h
      | ok as =>
        simp only [hrows,hanchors,bind,Except.bind,pure,Except.pure,Except.ok.injEq] at h
        obtain ⟨hr,rfl⟩ := (mapM_eq_ok_iff (readEntry_eq_ok_iff d) _ _).mp hrows
        obtain ⟨ha,rfl⟩ := (mapM_eq_ok_iff (g := id) (readAnchor_eq_ok_iff d) _ _).mp hanchors
        rw [map_id] at h
        exact ⟨hr,ha,h.symm⟩
  · rintro ⟨hr,ha,rfl⟩
    have hrows := (mapM_eq_ok_iff (readEntry_eq_ok_iff d) rows _).mpr ⟨hr,rfl⟩
    have hanchors := (mapM_eq_ok_iff (g := id) (readAnchor_eq_ok_iff d) anchors _).mpr ⟨ha,rfl⟩
    rw [map_id] at hanchors
    rw [hrows,hanchors]
    rfl

def Verdict.Intact (v : Verdict) : Prop := v.hasTampered = false

@[simp] theorem Verdict.not_intact_tampered (id : Nat) (reason : String) :
    ¬ (v.tampered id reason).Intact := by simp [tampered,Intact]

@[simp] theorem Verdict.intact_unsigned : v.unsigned.Intact ↔ v.Intact := Iff.rfl

theorem Verdict.exitCode_eq_two_iff : v.exitCode = 2 ↔ ¬ v.Intact := by
  unfold exitCode Intact
  cases v.hasTampered <;> cases v.hasUnsigned <;> simp

theorem intact_checkEntry_iff (entry : AuditEntry) : (checkEntry d v entry).Intact ↔
      v.Intact ∧ (entry.signature = none ∨ SignatureOk d entry ∧ HashOk d entry) := by
  rw [checkEntry_iff d Verdict.not_intact_tampered,Verdict.intact_unsigned]
  tauto

def AnchorFits (rows : List AuditRow) (anchor : AnchorRow) : Prop :=
  (rows.find? (·.id == anchor.headAuditId)).map (·.hash) = some (some anchor.headHash)

instance (rows : List AuditRow) (anchor : AnchorRow) : Decidable (AnchorFits rows anchor) := by
  unfold AnchorFits
  infer_instance

theorem intact_checkAnchor_iff (anchor : AnchorRow) :
    (checkAnchor (rows.map (entryOf d)) v anchor).Intact ↔ v.Intact ∧ AnchorFits rows anchor := by
  have hfind : (rows.map (entryOf d)).find? (·.id == anchor.headAuditId) =
      (rows.find? (·.id == anchor.headAuditId)).map (entryOf d) := find?_map ..
  unfold checkAnchor AnchorFits
  rw [hfind]
  cases rows.find? (·.id == anchor.headAuditId) with
  | none => simp
  | some row =>
    have hhash : (entryOf d row).hash = row.hash := rfl
    by_cases h : row.hash = some anchor.headHash
    · simp [hhash,h]
    · simp [hhash,h]

def RowFits (row : AuditRow) : Prop :=
  row.signature = none ∨ SignatureOk d (entryOf d row) ∧ HashOk d (entryOf d row)

theorem intact_foldl_checkEntry_iff (rows : List AuditRow) :
    ((rows.map (entryOf d)).foldl (checkEntry d) v).Intact ↔
      v.Intact ∧ ∀ row ∈ rows, RowFits d row := by
  induction rows generalizing v with
  | nil => simp
  | cons row rows ih =>
    simp only [map_cons,foldl_cons,ih,intact_checkEntry_iff,forall_mem_cons, and_assoc]
    rfl

theorem intact_foldl_checkAnchor_iff
    (anchors : List AnchorRow) : (anchors.foldl (checkAnchor (rows.map (entryOf d))) v).Intact ↔
      v.Intact ∧ ∀ a ∈ anchors, AnchorFits rows a := by
  induction anchors generalizing v with
  | nil => simp
  | cons a anchors ih =>
    simp only [foldl_cons,ih,intact_checkAnchor_iff,forall_mem_cons,and_assoc]

theorem intact_run_iff {rows : List AuditRow} {v : Verdict} (h : run d rows anchors = .ok v) :
    v.Intact ↔ (∀ row ∈ rows, RowFits d row) ∧ ∀ a ∈ anchors, AnchorFits rows a := by
  obtain ⟨-,-,rfl⟩ := (run_eq_ok_iff d rows anchors v).mp h
  rw [intact_foldl_checkAnchor_iff,intact_foldl_checkEntry_iff]
  exact and_congr_left' (and_iff_right rfl)

def AllReadable (rows : List AuditRow) (anchors : List AnchorRow) : Prop :=
  (∀ row ∈ rows, Readable d row.createdAt) ∧ ∀ a ∈ anchors, Readable d a.signedAt

theorem exitCode_run_eq_two_iff (anchors : List AnchorRow) :
    (run d rows anchors).map Verdict.exitCode = .ok 2 ↔ AllReadable d rows anchors ∧
        ¬ ((∀ row ∈ rows, RowFits d row) ∧ ∀ a ∈ anchors, AnchorFits rows a) := by
  constructor
  · intro h
    cases hrun : run d rows anchors with
    | error e => simp [hrun,Except.map] at h
    | ok v =>
      simp only [hrun,Except.map,Except.ok.injEq] at h
      obtain ⟨hr,ha,-⟩ := (run_eq_ok_iff d rows anchors v).mp hrun
      rw [Verdict.exitCode_eq_two_iff,intact_run_iff d hrun] at h
      exact ⟨⟨hr,ha⟩,h⟩
  · rintro ⟨⟨hr,ha⟩,hfits⟩
    have hrun := (run_eq_ok_iff d rows anchors _).mpr ⟨hr,ha,rfl⟩
    rw [hrun]
    simp only [Except.map,Except.ok.injEq]
    rwa [Verdict.exitCode_eq_two_iff,intact_run_iff d hrun]

def NoTampering (rows : List AuditRow) (anchors : List AnchorRow) : Prop :=
  ∃ v, run d rows anchors = .ok v ∧ v.exitCode ≠ 2

theorem noTampering_iff (anchors : List AnchorRow) :
    NoTampering d rows anchors ↔ AllReadable d rows anchors ∧
      (∀ row ∈ rows, RowFits d row) ∧ ∀ a ∈ anchors, AnchorFits rows a := by
  constructor
  · rintro ⟨v,hrun,hv⟩
    obtain ⟨hr,ha,-⟩ := (run_eq_ok_iff d rows anchors v).mp hrun
    rw [Ne,Verdict.exitCode_eq_two_iff,not_not,intact_run_iff d hrun] at hv
    exact ⟨⟨hr,ha⟩,hv⟩
  · rintro ⟨⟨hr,ha⟩,hfits⟩
    have hrun := (run_eq_ok_iff d rows anchors _).mpr ⟨hr,ha,rfl⟩
    refine ⟨_,hrun,?_⟩
    rwa [Ne,Verdict.exitCode_eq_two_iff,not_not,intact_run_iff d hrun]

end Ploydok.Audit
