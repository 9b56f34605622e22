import Ploydok.Audit.Encoding
import Ploydok.Audit.Soundness
import Mathlib.Data.Rat.Floor

/-! Maintenance of the audit log: the retention job `worker/handlers/audit-retention.ts`,
the anchor job `worker/jobs/audit-anchor.ts`, and the deletion of a user, which sets
`audit_log.user_id` to null. Each keeps the verifier quiet under its own condition. -/

namespace Ploydok.Audit

open Text List

structure AuditDb where
  rows : List AuditRow
  anchors : List AnchorRow
  lastAnchorId : Nat

def DEFAULT_RETENTION_DAYS : Rat := 30

def MAX_RETENTION_DAYS : Rat := 3650

/-- `new Date(ms)` cuts a fraction off. -/
def dateFromMs (ms : Rat) : Int := if 0 ≤ ms then ⌊ms⌋ else ⌈ms⌉

structure PurgeResult where
  deleted : Nat
  cutoff : Int
  retentionDays : Rat
  skipped : Bool

/-- The number of days, from the argument or from `PLOYDOK_AUDIT_RETENTION_DAYS`: the finite number
that `Number` reads in it, `none` where it reads none. -/
def retentionDays (arg : Option Rat) (envValue : Option (Option Rat)) : Rat :=
  let days := match arg with
    | some days => days
    | none =>
      match envValue with
      | some (some parsed) => if 1 ≤ parsed then parsed else DEFAULT_RETENTION_DAYS
      | some none | none => DEFAULT_RETENTION_DAYS
  max 1 (min MAX_RETENTION_DAYS days)

def cutoffOf (now : Int) (days : Rat) : Int := dateFromMs (now - days * msPerDay)

def purgeOldAuditEntries (now : Int) (arg : Option Rat) (envValue : Option (Option Rat))
    (db : AuditDb) : PurgeResult × AuditDb :=
  let days := retentionDays arg envValue
  if days < 1 then (⟨0,0,0,true⟩, db)
  else
    let cutoff := cutoffOf now days
    let kept := db.rows.filter fun row => ¬ row.createdAt < cutoff
    (⟨db.rows.length - kept.length,cutoff,days,false⟩, { db with rows := kept })

def buildCanonicalAnchorPayload (headAuditId : Nat) (headHash : String) (signedAt : Int) : String :=
  "\n".intercalate ["anchor-v1", toString headAuditId, headHash, toISOString signedAt]

structure AnchorRun where
  signedAt : Int
  /-- `agent.signAuditEntry`; `none` is an exception. -/
  signAuditEntry : String → Option (String × String)
  (fileWritten inserted : Bool)

/-- `none` is the exception that the job throws on. -/
def runAuditAnchor (r : AnchorRun) (db : AuditDb) : Option (Option Nat) × AuditDb :=
  match db.rows.getLast? with
  | none => (some none, db)
  | some tail =>
    match tail.hash with
    | none => (some none, db)
    | some headHash =>
      if headHash = "" then (some none, db)
      else
        match r.signAuditEntry (buildCanonicalAnchorPayload tail.id headHash r.signedAt) with
        | none => (none, db)
        | some _ =>
          if r.fileWritten && r.inserted then
            (some (some tail.id),
              { db with
                anchors := db.anchors ++ [⟨db.lastAnchorId + 1,tail.id,headHash,r.signedAt⟩]
                lastAnchorId := db.lastAnchorId + 1 })
          else (none, db)

/-- `ON DELETE SET NULL`. -/
def AuditRow.forgetUser (userId : String) (row : AuditRow) : AuditRow :=
  if row.userId = some userId then { row with userId := none } else row

def deleteUser (userId : String) (db : AuditDb) : AuditDb :=
  { db with rows := db.rows.map (·.forgetUser userId) }

/-! ### What each of them keeps -/

variable (d : Crates) {rows : List AuditRow}

def AuditDb.NoTampering (db : AuditDb) : Prop := Audit.NoTampering d db.rows db.anchors

/-- Ids are a primary key, and the verifier reads the rows in their order. -/
def AuditDb.Ordered (db : AuditDb) : Prop := db.rows.Pairwise (·.id < ·.id)

theorem one_le_retentionDays (arg : Option Rat) (envValue : Option (Option Rat)) :
    1 ≤ retentionDays arg envValue := le_max_left _ _

theorem rows_purge (now : Int) (arg : Option Rat) (envValue : Option (Option Rat)) (db : AuditDb) :
    (purgeOldAuditEntries now arg envValue db).2 = { db with
      rows := db.rows.filter fun row =>
        ¬ row.createdAt < cutoffOf now (retentionDays arg envValue) } := by
  unfold purgeOldAuditEntries
  rw [if_neg (not_lt.mpr (one_le_retentionDays arg envValue))]

theorem find?_id_eq_some_iff (h : rows.Pairwise (·.id < ·.id)) (id : Nat)
    (row : AuditRow) : rows.find? (·.id == id) = some row ↔ row ∈ rows ∧ row.id = id := by
  induction rows with
  | nil => simp
  | cons r rows ih =>
    obtain ⟨hr,hrows⟩ := pairwise_cons.mp h
    rw [find?_cons]
    by_cases hid : r.id = id
    · simp only [hid,beq_self_eq_true,Option.some.injEq,mem_cons]
      constructor
      · rintro rfl
        exact ⟨.inl rfl,hid⟩
      · rintro ⟨rfl | hmem,hrow⟩
        · rfl
        · have := hr row hmem
          omega
    · simp only [beq_eq_false_iff_ne.mpr hid,ih hrows,mem_cons]
      constructor
      · rintro ⟨hmem,hrow⟩
        exact ⟨.inr hmem,hrow⟩
      · rintro ⟨rfl | hmem,hrow⟩
        · exact absurd hrow hid
        · exact ⟨hmem,hrow⟩

theorem anchorFits_iff (h : rows.Pairwise (·.id < ·.id))
    (anchor : AnchorRow) : AnchorFits rows anchor ↔
      ∃ row ∈ rows, row.id = anchor.headAuditId ∧ row.hash = some anchor.headHash := by
  unfold AnchorFits
  rw [Option.map_eq_some_iff]
  constructor
  · rintro ⟨row,hfind,hhash⟩
    obtain ⟨hmem,hid⟩ := (find?_id_eq_some_iff h _ _).mp hfind
    exact ⟨row,hmem,hid,hhash⟩
  · rintro ⟨row,hmem,hid,hhash⟩
    exact ⟨row,(find?_id_eq_some_iff h _ _).mpr ⟨hmem,hid⟩,hhash⟩

variable {d} {db : AuditDb} {r : AnchorRun}

theorem noTampering_purge_iff (ho : db.Ordered) (h : db.NoTampering d) (now : Int)
    (arg : Option Rat) (envValue : Option (Option Rat)) :
    (purgeOldAuditEntries now arg envValue db).2.NoTampering d ↔
      ∀ a ∈ db.anchors, ∀ row ∈ db.rows, row.id = a.headAuditId →
        cutoffOf now (retentionDays arg envValue) ≤ row.createdAt := by
  obtain ⟨⟨hreadRows,hreadAnchors⟩,hrows,hanchors⟩ := (noTampering_iff d _ _).mp h
  have hordered : (db.rows.filter fun row =>
      ¬ row.createdAt < cutoffOf now (retentionDays arg envValue)).Pairwise (·.id < ·.id) :=
    ho.filter _
  rw [AuditDb.NoTampering,rows_purge,noTampering_iff]
  simp only [anchorFits_iff hordered]
  constructor
  · rintro ⟨-,-,hfits⟩ a ha row hrow hid
    obtain ⟨row',hrow',hid',-⟩ := hfits a ha
    obtain ⟨hmem',hkept⟩ := mem_filter.mp hrow'
    -- ids are unique, so the row that is left is this one
    have hfind := (find?_id_eq_some_iff ho a.headAuditId row).mpr ⟨hrow,hid⟩
    have hfind' := (find?_id_eq_some_iff ho a.headAuditId row').mpr ⟨hmem',hid'⟩
    obtain rfl : row = row' := Option.some.inj (hfind.symm.trans hfind')
    simpa using hkept
  · intro hnew
    refine ⟨⟨fun row hrow => hreadRows row (mem_filter.mp hrow).1,hreadAnchors⟩,
      fun row hrow => hrows row (mem_filter.mp hrow).1,fun a ha => ?_⟩
    obtain ⟨row,hrow,hid,hhash⟩ := (anchorFits_iff ho a).mp (hanchors a ha)
    exact ⟨row,mem_filter.mpr ⟨hrow,by simpa using hnew a ha row hrow hid⟩,hid,hhash⟩

def AnchorRun.Adds (r : AnchorRun) (db : AuditDb) : Prop :=
  ∃ tail headHash, db.rows.getLast? = some tail ∧ tail.hash = some headHash ∧ headHash ≠ "" ∧
    (r.signAuditEntry (buildCanonicalAnchorPayload tail.id headHash r.signedAt)).isSome ∧
    r.fileWritten = true ∧ r.inserted = true

theorem runAuditAnchor_of_not_adds (h : ¬ r.Adds db) : (runAuditAnchor r db).2 = db := by
  unfold runAuditAnchor
  split
  · rfl
  · next tail htail =>
    split
    · rfl
    · next headHash hhash =>
      split_ifs with hempty hdone
      · rfl
      · split
        · rfl
        · next result hsign =>
          rw [Bool.and_eq_true] at hdone
          exact absurd ⟨tail,headHash,htail,hhash,hempty,by rw [hsign]; rfl,hdone⟩ h
      · split <;> rfl

theorem runAuditAnchor_of_adds {tail : AuditRow} (htail : db.rows.getLast? = some tail)
    (hhash : tail.hash = some headHash) (hne : headHash ≠ "")
    (hsign : (r.signAuditEntry (buildCanonicalAnchorPayload tail.id headHash r.signedAt)).isSome)
    (hfile : r.fileWritten = true) (hinsert : r.inserted = true) :
    (runAuditAnchor r db).2 = { db with
      anchors := db.anchors ++ [⟨db.lastAnchorId + 1,tail.id,headHash,r.signedAt⟩]
      lastAnchorId := db.lastAnchorId + 1 } := by
  obtain ⟨result,hresult⟩ := Option.isSome_iff_exists.mp hsign
  simp [runAuditAnchor,htail,hhash,hne,hresult,hfile,hinsert]

theorem noTampering_anchor_iff (ho : db.Ordered) (h : db.NoTampering d) (r : AnchorRun) :
    (runAuditAnchor r db).2.NoTampering d ↔ (r.Adds db → Readable d r.signedAt) := by
  by_cases hadds : r.Adds db
  · obtain ⟨tail,headHash,htail,hhash,hne,hsign,hfile,hinsert⟩ := id hadds
    rw [runAuditAnchor_of_adds htail hhash hne hsign hfile hinsert]
    obtain ⟨⟨hreadRows,hreadAnchors⟩,hrows,hanchors⟩ := (noTampering_iff d _ _).mp h
    have hfits : AnchorFits db.rows ⟨db.lastAnchorId + 1,tail.id,headHash,r.signedAt⟩ :=
      (anchorFits_iff ho _).mpr ⟨tail,mem_of_getLast? htail,rfl,hhash⟩
    rw [AuditDb.NoTampering,noTampering_iff]
    unfold AllReadable
    simp only [forall_mem_append,forall_mem_singleton]
    exact ⟨fun hall _ => hall.1.2.2,fun hread => ⟨⟨hreadRows,hreadAnchors,hread hadds⟩,hrows,
      hanchors,hfits⟩⟩
  · rw [runAuditAnchor_of_not_adds hadds]
    exact ⟨fun _ hno => absurd hno hadds,fun _ => h⟩

def BindsMessage (d : Crates) : Prop :=
  ∀ bytes m m', d.verify bytes m = true → d.verify bytes m' = true → m = m'

theorem rebuildCanonical_user (entry : AuditEntry) : ∃ front back : String,
    ∀ userId : Option String, rebuildCanonical d { entry with userId := userId } =
      front ++ userId.getD "->" ++ back := by
  refine ⟨"\n".intercalate ["v1", toString entry.id, toRfc3339Millis entry.createdAt] ++ "\n",
    "\n" ++ "\n".intercalate [entry.action, entry.targetType, entry.targetId,
      d.sha256Hex entry.metadata, entry.prevHash.getD "->", entry.hash.getD "->"],?_⟩
  simp [rebuildCanonical,canonicalLines,String.append_assoc]

theorem rebuildCanonical_forget_iff (entry : AuditEntry) (userId : String)
    (hu : entry.userId = some userId) :
    rebuildCanonical d { entry with userId := none } = rebuildCanonical d entry ↔
      userId = "->" := by
  obtain ⟨front,back,h⟩ := rebuildCanonical_user entry
  have hself : rebuildCanonical d entry = front ++ userId ++ back := by
    rw [← Option.getD_some (a := userId) (b := "->"),← hu]
    exact h entry.userId
  rw [hself,h none,Option.getD_none,← String.toList_inj]
  simp only [String.toList_append,append_assoc,append_cancel_left_eq,
    append_cancel_right_eq,String.toList_inj]
  exact eq_comm

theorem rowFits_forgetUser_iff (hb : BindsMessage d) (h : RowFits d row) (userId : String) :
    RowFits d (row.forgetUser userId) ↔
      (row.userId = some userId → row.signature = none ∨ userId = "->") := by
  by_cases hu : row.userId = some userId
  · have hrow : row.forgetUser userId = { row with userId := none } := if_pos hu
    have hentry : entryOf d { row with userId := none } =
        { entryOf d row with userId := none } := rfl
    have hforget := rebuildCanonical_forget_iff (d := d) (entryOf d row) userId hu
    rw [hrow]
    unfold RowFits
    rw [hentry]
    constructor
    · rintro (hnone | ⟨⟨sig,bytes,hsig,hdecode,-,hverify⟩,-⟩) -
      · exact .inl hnone
      · rcases h with hnone | ⟨⟨sig',bytes',hsig',hdecode',-,hverify'⟩,-⟩
        · exact .inl hnone
        · -- the same signature, so the same message
          obtain rfl : sig = sig' := Option.some.inj (hsig.symm.trans hsig')
          obtain rfl : bytes = bytes' := Option.some.inj (hdecode.symm.trans hdecode')
          exact .inr (hforget.mp (hb bytes _ _ hverify hverify'))
    · intro hcond
      rcases hcond hu with hnone | harrow
      · exact .inl hnone
      · have hsame := hforget.mpr harrow
        rcases h with hnone | ⟨⟨sig,bytes,hsig,hdecode,hlen,hverify⟩,hhash⟩
        · exact .inl hnone
        · refine .inr ⟨⟨sig,bytes,hsig,hdecode,hlen,?_⟩,fun stored hstored => ?_⟩
          · rw [hsame]
            exact hverify
          · rw [hsame]
            exact hhash stored hstored
  · have hrow : row.forgetUser userId = row := if_neg hu
    rw [hrow]
    exact ⟨fun _ hu' => absurd hu' hu,fun _ => h⟩

@[simp] theorem forgetUser_id (row : AuditRow) (userId : String) :
    (row.forgetUser userId).id = row.id := by
  unfold AuditRow.forgetUser
  split <;> rfl

@[simp] theorem forgetUser_hash (row : AuditRow) (userId : String) :
    (row.forgetUser userId).hash = row.hash := by
  unfold AuditRow.forgetUser
  split <;> rfl

@[simp] theorem forgetUser_createdAt (row : AuditRow) (userId : String) :
    (row.forgetUser userId).createdAt = row.createdAt := by
  unfold AuditRow.forgetUser
  split <;> rfl

theorem noTampering_deleteUser_iff (hb : BindsMessage d) (h : db.NoTampering d)
    (userId : String) : (deleteUser userId db).NoTampering d ↔
      ∀ row ∈ db.rows, row.userId = some userId → row.signature = none ∨ userId = "->" := by
  obtain ⟨⟨hreadRows,hreadAnchors⟩,hrows,hanchors⟩ := (noTampering_iff d _ _).mp h
  have hfits : ∀ a, AnchorFits (db.rows.map (·.forgetUser userId)) a ↔ AnchorFits db.rows a := by
    intro a
    unfold AnchorFits
    simp [Function.comp_def]
  rw [AuditDb.NoTampering,noTampering_iff]
  unfold AllReadable deleteUser
  simp only [forall_mem_map,forgetUser_createdAt,hfits]
  constructor
  · rintro ⟨-,hnew,-⟩ row hrow
    exact (rowFits_forgetUser_iff hb (hrows row hrow) userId).mp (hnew row hrow)
  · intro hcond
    exact ⟨⟨hreadRows,hreadAnchors⟩,
      fun row hrow => (rowFits_forgetUser_iff hb (hrows row hrow) userId).mpr (hcond row hrow),
      hanchors⟩

namespace Example

def anchored : AuditDb where
  rows := [{ encodedRow with id := 1, userId := some "usr_1", prevHash := none }]
  anchors := [⟨1,1,metadataDigest,1767229200000⟩]
  lastAnchorId := 1

def anchorRun : AnchorRun where
  signedAt := 1767232800000
  signAuditEntry := fun _ => some ("signature", "key-1")
  fileWritten := true
  inserted := true

theorem readable_attacked (column : Int) : Readable attacked.toCrates column := by
  refine ⟨1767225600000000000,?_⟩
  rfl

theorem bindsMessage_attacked : BindsMessage attacked.toCrates := by
  intro bytes m m' h h'
  simp only [attacked,Bool.and_eq_true,decide_eq_true_eq] at h h'
  exact h.1.trans h'.1.symm

theorem ordered_anchored : anchored.Ordered := by simp [AuditDb.Ordered,anchored]

theorem noTampering_anchored : anchored.NoTampering attacked.toCrates := by
  rw [AuditDb.NoTampering,noTampering_iff]
  refine ⟨⟨fun _ _ => readable_attacked _,fun _ _ => readable_attacked _⟩,?_,by decide⟩
  intro row hrow
  obtain rfl := mem_singleton.mp hrow
  exact .inl rfl

end Example

open Example

end Ploydok.Audit
