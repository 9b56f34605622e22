import Ploydok.Text.Timestamp

/-! The audit writer, `packages/db/src/queries/audit-log.ts`. Each entry stores a hash that chains
it to the row before it, over a text joined by bars, and a signature over a payload of ten lines
that includes that hash. Calls run one after the other. -/

namespace Ploydok.Audit

open Text

/-- `Record<string, unknown> | string | undefined`, over any type of records. -/
inductive Metadata (R : Type) where
  | record (r : R)
  | text (s : String)
  | absent

/-- The argument of `insertAuditLogSigned`. -/
structure Entry (R : Type) where
  userId : Option String
  (action targetType targetId : String)
  metadata : Metadata R
  /-- A `Date`: milliseconds since the epoch. -/
  createdAt : Int
  orgId : Option String

structure AuditRow where
  id : Nat
  userId : Option String
  (action targetType targetId metadata : String)
  createdAt : Int
  (prevHash hash signature keyId orgId : Option String)
deriving DecidableEq

structure Table where
  rows : List AuditRow
  lastId : Nat

def Table.empty : Table := ⟨[],0⟩

/-- What the writer takes from its platform: `JSON.stringify` and hex digests of SHA-256. -/
structure Platform (R : Type) where
  stringify : R → String
  emptyRecord : R
  sha256Hex : String → String

/-- How a call of `signFn` ends. -/
inductive SignResult where
  | signed (signature keyId : String)
  | null
  | threw

/-- `Date.prototype.toISOString`: four digits for the years 0 to 9999, else a sign and six. -/
def isoYear (y : Int) : String :=
  if 0 ≤ y ∧ y ≤ 9999 then padLeft 4 y.toNat
  else (if y < 0 then "-" else "+") ++ padLeft 6 y.natAbs

def toISOString (createdAt : Int) : String := isoMillis isoYear createdAt

variable {R : Type} (p : Platform R)

def metadataText : Metadata R → String
  | .text s => s
  | .record r => p.stringify r
  | .absent => p.stringify p.emptyRecord

/-- The ten lines of a payload; the reader has its own rendering of the instant. -/
def canonicalLines (sha256Hex : String → String) (id : Nat) (iso : String)
    (userId : Option String) (action targetType targetId metadata : String)
    (prevHash hash : Option String) : String :=
  "\n".intercalate ["v1", toString id, iso, userId.getD "->", action, targetType, targetId,
    sha256Hex metadata, prevHash.getD "->", hash.getD "->"]

def buildCanonicalPayload (entry : AuditRow) : String :=
  canonicalLines p.sha256Hex entry.id (toISOString entry.createdAt) entry.userId entry.action
    entry.targetType entry.targetId entry.metadata entry.prevHash entry.hash

def computeHash (sha256Hex : String → String) (prevHash : Option String) (canonical : String) :
    String :=
  match prevHash with
  | some prev => if prev = "" then sha256Hex canonical else sha256Hex (prev ++ canonical)
  | none => sha256Hex canonical

def chainText (action targetType targetId metadata : String) : String :=
  action ++ "|" ++ targetType ++ "|" ++ targetId ++ "|" ++ metadata

def tailHash (t : Table) : Option String := t.rows.getLast?.bind (·.hash)

/-- The values of the `INSERT`, under the id it returns. -/
def newRow (id : Nat) (prevHash : Option String) (entry : Entry R) : AuditRow :=
  let metadata := metadataText p entry.metadata
  { id := id
    userId := entry.userId
    action := entry.action
    targetType := entry.targetType
    targetId := entry.targetId
    metadata := metadata
    createdAt := entry.createdAt
    prevHash := prevHash
    hash := some (computeHash p.sha256Hex prevHash
      (chainText entry.action entry.targetType entry.targetId metadata))
    signature := none
    keyId := none
    orgId := entry.orgId.filter (· ≠ "") }

/-- The second phase: a signature that cannot be had leaves the row unsigned. -/
def signRow (signFn : Option (String → SignResult)) (row : AuditRow) : AuditRow :=
  match signFn with
  | none => row
  | some sign =>
    match sign (buildCanonicalPayload p row) with
    | .signed signature keyId => { row with signature := some signature, keyId := some keyId }
    | .null | .threw => row

def insertAuditLogSigned (signFn : Option (String → SignResult)) (t : Table) (entry : Entry R) :
    Table :=
  let row := signRow p signFn (newRow p (t.lastId + 1) (tailHash t) entry)
  ⟨t.rows ++ [row],t.lastId + 1⟩

def writeLog (signFn : Option (String → SignResult)) (entries : List (Entry R)) : Table :=
  entries.foldl (insertAuditLogSigned p signFn) Table.empty

/-- The text whose digest the writer stores as the hash of a row. -/
def chainInput (row : AuditRow) : String :=
  row.prevHash.getD "" ++ chainText row.action row.targetType row.targetId row.metadata

theorem computeHash_eq (h : String → String) (prevHash : Option String) (canonical : String) :
    computeHash h prevHash canonical = h (prevHash.getD "" ++ canonical) := by
  cases prevHash with
  | none => simp [computeHash]
  | some prev =>
    by_cases hp : prev = ""
    · simp [computeHash,hp]
    · simp [computeHash,hp]

/-- What holds of a row from its `INSERT` on. -/
structure Written (signFn : Option (String → SignResult)) (row : AuditRow) : Prop where
  hash : row.hash = some (p.sha256Hex (chainInput row))
  signature : ∀ sign, signFn = some sign → ∀ s k,
    sign (buildCanonicalPayload p row) = .signed s k → row.signature = some s

variable (signFn : Option (String → SignResult))

theorem signRow_fields (row : AuditRow) :
    ∃ s k, signRow p signFn row = { row with signature := s, keyId := k } := by
  unfold signRow
  split
  · exact ⟨row.signature,row.keyId,rfl⟩
  · split
    · exact ⟨_,_,rfl⟩
    · exact ⟨row.signature,row.keyId,rfl⟩
    · exact ⟨row.signature,row.keyId,rfl⟩

theorem buildCanonicalPayload_signRow (row : AuditRow) :
    buildCanonicalPayload p (signRow p signFn row) = buildCanonicalPayload p row := by
  obtain ⟨s,k,h⟩ := signRow_fields p signFn row
  rw [h]
  rfl

theorem written_signRow_newRow (id : Nat) (prevHash : Option String) (entry : Entry R) :
    Written p signFn (signRow p signFn (newRow p id prevHash entry)) := by
  constructor
  · obtain ⟨s,k,h⟩ := signRow_fields p signFn (newRow p id prevHash entry)
    rw [h]
    simp only [newRow,computeHash_eq,chainInput]
  · rintro sign rfl s k hs
    rw [buildCanonicalPayload_signRow] at hs
    simp only [signRow,hs]

theorem written_of_mem_writeLog (entries : List (Entry R)) :
    ∀ row ∈ (writeLog p signFn entries).rows, Written p signFn row := by
  suffices h : ∀ t : Table, (∀ row ∈ t.rows, Written p signFn row) →
      ∀ row ∈ (entries.foldl (insertAuditLogSigned p signFn) t).rows, Written p signFn row from
    h Table.empty (by simp [Table.empty])
  induction entries with
  | nil => exact fun t ht => ht
  | cons entry entries ih =>
    intro t ht
    refine ih _ fun row hrow => ?_
    simp only [insertAuditLogSigned,List.mem_append,List.mem_singleton] at hrow
    rcases hrow with hrow | rfl
    · exact ht row hrow
    · exact written_signRow_newRow p signFn _ _ entry

theorem length_writeLog (entries : List (Entry R)) :
    (writeLog p signFn entries).rows.length = entries.length := by
  unfold writeLog
  suffices h : ∀ t : Table, (entries.foldl (insertAuditLogSigned p signFn) t).rows.length =
      t.rows.length + entries.length by simpa [Table.empty] using h Table.empty
  induction entries with
  | nil => simp
  | cons entry entries ih =>
    intro t
    rw [List.foldl_cons,ih]
    simp only [insertAuditLogSigned,List.length_append,List.length_cons,List.length_nil]
    omega

end Ploydok.Audit
