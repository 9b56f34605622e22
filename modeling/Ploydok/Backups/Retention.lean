import Ploydok.Backups.Dump

/-! The retention of backups: `purgeOldBackups` of `databases/backup.ts`, `purgeOldVolumeBackups` of
`backups/volume.ts` and `deleteBackupArtifact` of `backups/storage.ts`. A failed deletion of an
artifact is logged, and the row goes all the same. -/

namespace Ploydok.Backups.Retention

inductive Owner where
  | database (id : String)
  | volume (appId volumeId : String)
deriving DecidableEq

/-- The table of a row and its key there. -/
inductive RowId where
  | backups (id : String)
  | volumeBackups (id : String)
deriving DecidableEq

structure BackupRow where
  id : RowId
  owner : Owner
  (configId location : String)
  startedAt : Int
deriving DecidableEq

structure Config where
  id : String
  retentionDays : Int
  destinationKind : DestinationKind
  s3CredentialsSecretId : Option String

inductive Artifact where
  | file (path : String)
  | object (bucket key : String)
deriving DecidableEq

/-- The host and path of a URL, the file at a path, whether a secret holds credentials, and the error
with which the deletion made for a row fails. -/
structure Outside where
  url : String → Except String (String × String)
  realPath : String → String
  credentials : String → Except String Unit
  failure : RowId → Option String

structure State where
  rows : List BackupRow
  stored : Artifact → Bool
  primaryKey : ∀ a ∈ rows, ∀ b ∈ rows, a.id = b.id → a = b

def isS3 (location : String) : Bool := Text.startsWith location.toList "s3://".toList

def resolveS3Credentials (out : Outside) (config : Config) : Except String Unit :=
  match config.s3CredentialsSecretId.filter (· ≠ "") with
  | none => .error "S3 backup config is missing s3_credentials_secret_id"
  | some secretId => out.credentials secretId

def parseS3Location (out : Outside) (location : String) : Except String Artifact :=
  (out.url location).map fun (hostname, pathname) =>
    .object hostname (if pathname.startsWith "/" then (pathname.drop 1).toString else pathname)

def remove (fault : Option String) (a : Artifact) (stored : Artifact → Bool) :
    Except String Unit × (Artifact → Bool) :=
  match fault with
  | some e => (.error e, stored)
  | none => (.ok (), Function.update stored a false)

def deleteBackupArtifact (out : Outside) (fault : Option String) (location : String)
    (config : Option Config) (stored : Artifact → Bool) :
    Except String Unit × (Artifact → Bool) :=
  if isS3 location then
    match config with
    | none => (.ok (), stored)
    | some config =>
      match resolveS3Credentials out config, parseS3Location out location with
      | .error e, _ | .ok _, .error e => (.error e, stored)
      | .ok _, .ok a => remove fault a stored
  else
    -- `unlink(location).catch(() => {})`
    (.ok (), (remove fault (.file (out.realPath location)) stored).2)

def Config.cutoff (config : Config) (now : Int) : Int :=
  now - config.retentionDays * 24 * 60 * 60 * 1000

def State.old (st : State) (owner : Owner) (config : Config) (now : Int) : List BackupRow :=
  st.rows.filter fun row =>
    row.owner = owner ∧ row.configId = config.id ∧ row.startedAt < config.cutoff now

/-- The loop of a purge: what `deleteBackupArtifact` throws is caught. -/
def purge (out : Outside) (s3Config : String → Option Config) (st : State)
    (old : List BackupRow) : State :=
  old.foldl (fun st backup =>
    { rows := st.rows.filter (·.id ≠ backup.id)
      stored := (deleteBackupArtifact out (out.failure backup.id) backup.location
        (s3Config backup.location) st.stored).2
      primaryKey := fun a ha b hb =>
        st.primaryKey a (List.mem_of_mem_filter ha) b (List.mem_of_mem_filter hb) }) st

/-- The configuration that the purge of a database, by the kind of destination configured now, and
that of a volume, by the location, hand on. -/
def Config.handedOn (config : Config) : Owner → String → Option Config
  | .database _, _ =>
    match config.destinationKind with
    | .s3 => some config
    | .localDisk => none
  | .volume _ _, location => if isS3 location then some config else none

def purgeOldBackups (out : Outside) (databaseId : String) (config : Config) (now : Int)
    (st : State) : State :=
  purge out (config.handedOn (.database databaseId)) st (st.old (.database databaseId) config now)

def purgeOldVolumeBackups (out : Outside) (appId volumeId : String) (config : Config) (now : Int)
    (st : State) : State :=
  purge out (config.handedOn (.volume appId volumeId)) st
    (st.old (.volume appId volumeId) config now)

def purgeOld (out : Outside) (config : Config) (now : Int) (st : State) : Owner → State
  | .database databaseId => purgeOldBackups out databaseId config now st
  | .volume appId volumeId => purgeOldVolumeBackups out appId volumeId config now st

/-! ### What a run deletes -/

def Outside.artifactOf (out : Outside) (location : String) : Option Artifact :=
  if isS3 location then (parseS3Location out location).toOption
  else some (.file (out.realPath location))

/-- The deletion of the artifact at a location goes through. -/
def Deletable (out : Outside) (fault : Option String) (config : Option Config)
    (location : String) : Prop :=
  fault = none ∧
    (isS3 location = true → ∃ c, config = some c ∧ resolveS3Credentials out c = .ok ())

variable {out : Outside} {config : Config} {now : Int} {st : State} {owner : Owner}
  {fault : Option String} {location : String} {a : Artifact} {stored : Artifact → Bool}

theorem stored_remove :
    (remove fault b stored).2 a = true ↔ stored a = true ∧ ¬ (b = a ∧ fault = none) := by
  unfold remove
  by_cases hab : b = a
  · subst hab
    split <;> simp
  · split <;> simp [hab,Ne.symm hab]

theorem stored_deleteBackupArtifact :
    (deleteBackupArtifact out fault location c stored).2 a = true ↔
      stored a = true ∧ ¬ (out.artifactOf location = some a ∧ Deletable out fault c location) := by
  unfold Outside.artifactOf Deletable
  fun_cases deleteBackupArtifact out fault location c stored
  · next hs3 => simp [hs3]
  · next hs3 _ _ hresolve => simp [hs3,hresolve]
  · next hs3 _ _ _ hparse _ => simp [hs3,hparse,Except.toOption]
  · next hs3 _ _ _ hparse hresolve => simp [stored_remove,hs3,hparse,hresolve,Except.toOption]
  · next hs3 => simp [stored_remove,hs3]

/-- The deletion made for one of the backups removes the artifact. -/
def Erased (out : Outside) (s3Config : String → Option Config) (old : List BackupRow)
    (a : Artifact) : Prop :=
  ∃ backup ∈ old, out.artifactOf backup.location = some a ∧
    Deletable out (out.failure backup.id) (s3Config backup.location) backup.location

theorem purge_spec (out : Outside) (s3Config : String → Option Config) (old : List BackupRow)
    (st : State) :
    (∀ row, row ∈ (purge out s3Config st old).rows ↔
      row ∈ st.rows ∧ ∀ backup ∈ old, row.id ≠ backup.id) ∧
    ∀ a, (purge out s3Config st old).stored a = true ↔
      st.stored a = true ∧ ¬ Erased out s3Config old a := by
  induction old generalizing st with
  | nil => simp [purge,Erased]
  | cons backup old ih =>
    obtain ⟨hrows,hstored⟩ := ih _
    refine ⟨fun row => (hrows row).trans ?_,fun a => (hstored a).trans ?_⟩
    · simp only [List.mem_filter,decide_eq_true_eq,List.forall_mem_cons,and_assoc]
    · simp only [stored_deleteBackupArtifact,Erased,List.mem_cons,or_and_right,exists_or,
        exists_eq_left,not_or,and_assoc]

/-- A backup that retention must leave alone. -/
def Protected (config : Config) (now : Int) (owner : Owner) (row : BackupRow) : Prop :=
  row.owner ≠ owner ∨ config.cutoff now ≤ row.startedAt

structure Remembers (out : Outside) (config : Config) (now : Int) (owner : Owner)
    (st st' : State) : Prop where
  deleted : ∀ row ∈ st.rows, row ∉ st'.rows →
    ∀ a, out.artifactOf row.location = some a → st'.stored a = false
  kept : ∀ row ∈ st.rows, Protected config now owner row → row ∈ st'.rows ∧
    ∀ a, out.artifactOf row.location = some a → st.stored a = true → st'.stored a = true

theorem mem_old : backup ∈ st.old owner config now ↔
    backup ∈ st.rows ∧ backup.owner = owner ∧ backup.configId = config.id ∧
      backup.startedAt < config.cutoff now := by
  simp [State.old]

/-- A run of the retention forgets no artifact exactly where every stored artifact of a backup that
it selects can be deleted and is not that of a backup it must leave alone. -/
theorem remembers_iff (out : Outside) (config : Config) (now : Int) (owner : Owner) (st : State) :
    Remembers out config now owner st (purgeOld out config now st owner) ↔
      ∀ backup ∈ st.old owner config now, ∀ a, out.artifactOf backup.location = some a →
        st.stored a = true → Erased out (config.handedOn owner) (st.old owner config now) a ∧
          ∀ row ∈ st.rows, Protected config now owner row →
            out.artifactOf row.location ≠ some a := by
  have hpurge : purgeOld out config now st owner =
      purge out (config.handedOn owner) st (st.old owner config now) := by
    cases owner <;> rfl
  rw [hpurge]
  obtain ⟨hrows,hstored⟩ := purge_spec out (config.handedOn owner) (st.old owner config now) st
  constructor
  · intro h backup hbackup a hart ha
    have hgone := h.deleted backup (mem_old.mp hbackup).1
      (fun hin => ((hrows backup).mp hin).2 backup hbackup rfl) a hart
    rw [← Bool.not_eq_true,hstored a] at hgone
    have herased : Erased _ _ _ a := by_contra fun hnot => hgone ⟨ha,hnot⟩
    refine ⟨herased,fun row hrow hp hsame => ?_⟩
    exact ((hstored a).mp ((h.kept row hrow hp).2 a hsame ha)).2 herased
  · intro h
    -- a row that has gone is one of those selected
    have hselected : ∀ row ∈ st.rows, row ∉ (purge out (config.handedOn owner) st
        (st.old owner config now)).rows → row ∈ st.old owner config now := by
      intro row hrow hnot
      by_contra hout
      refine hnot ((hrows row).mpr ⟨hrow,fun backup hbackup hid => hout ?_⟩)
      rwa [st.primaryKey row hrow backup (mem_old.mp hbackup).1 hid]
    refine ⟨fun row hrow hnot a hart => ?_,fun row hrow hp => ⟨?_,fun a hart ha => ?_⟩⟩
    · rw [← Bool.not_eq_true,hstored a]
      exact fun ⟨ha,hkept⟩ => hkept (h row (hselected row hrow hnot) a hart ha).1
    · by_contra hnot
      obtain ⟨-,howner,-,hold⟩ := mem_old.mp (hselected row hrow hnot)
      exact hp.elim (absurd howner) (Int.not_le.mpr hold)
    · refine (hstored a).mpr ⟨ha,fun ⟨backup,hbackup,hart',_⟩ => ?_⟩
      exact (h backup hbackup a hart' ha).2 row hrow hp hart

def refusing : Outside :=
  { url := fun _ => .ok ("backups", "/db_1/old.dump")
    realPath := id
    credentials := fun _ => .ok ()
    failure := fun _ => some "AccessDenied" }

def oldBackup : BackupRow :=
  ⟨.backups "bk_1",.database "db_1","cfg_1","s3://backups/db_1/old.dump",0⟩

/-- The deletion of an object is refused: its row goes, the object stays. -/
theorem refused_deletion_forgotten :
    ¬ ∀ (out : Outside) (config : Config) (now : Int) (owner : Owner) (st : State),
      Remembers out config now owner st (purgeOld out config now st owner) := by
  intro h
  have hgone := (h refusing ⟨"cfg_1",7,.s3,some "sec_1"⟩ 1000000000 (.database "db_1")
    ⟨[oldBackup],fun _ => true,by simp⟩).deleted oldBackup (by simp) (by decide +kernel) _ rfl
  revert hgone
  decide +kernel

end Ploydok.Backups.Retention
