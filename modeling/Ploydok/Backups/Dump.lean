import Ploydok.Text.Segments

/-! Dumps and restores: `dump_database` and `restore_database` of the agent, `runBackupOnce` of
`databases/backup.ts`, `runRestore` of `databases/restore.ts`. The API sees the output of a command
and how its stream ends; nobody asks for the exit code. -/

namespace Ploydok.Backups

open Text List

abbrev Bytes := List UInt8

/-! ### The agent: dump -/

inductive OutputItem where
  | stdOut (message : Bytes)
  | other
  | error (message : String)

inductive ExecOutcome where
  | createFails (message : String)
  | startFails (message : String)
  | attached (output : List OutputItem) (exitCode : Int)

def dumpCmd (kind : String) : List String :=
  if kind = "postgres" then ["pg_dumpall", "-U", "postgres"]
  else if kind = "redis" then ["redis-cli", "--rdb", "/dev/stdout"]
  else if kind = "mongo" then ["mongodump", "--archive"]
  else []

def supportedKinds : List String := ["postgres", "redis", "mongo"]

/-- The command of a dump, piped through `age` if there is a recipient. -/
def finalDumpCmd (kind ageRecipient : String) : List String :=
  if ageRecipient ≠ "" then
    ["sh", "-c", " ".intercalate (dumpCmd kind) ++ " | age -r " ++ ageRecipient]
  else dumpCmd kind

def isAgeChar (c : Char) : Bool := ('a' ≤ c && c ≤ 'z') || c.isDigit

/-- `validate_age_recipient`; lengths are those of the UTF-8 text. -/
def validateAgeRecipient (recipient : String) : Except String Unit :=
  if ¬ startsWith recipient.toList "age1".toList then .error "age_recipient_format"
  else if recipient.utf8ByteSize < 60 ∨ recipient.utf8ByteSize > 100 then
    .error "age_recipient_length"
  else if ¬ (recipient.toList.drop 4).all isAgeChar then .error "age_recipient_chars"
  else .ok ()

def DUMP_CHUNK_SIZE : Nat := 4 * 1024 * 1024

/-- The full chunks of a buffer, and what is left; at most one chunk for each unit of fuel. -/
def drainFrom : Nat → Bytes → List Bytes × Bytes
  | 0, buf => ([], buf)
  | fuel + 1, buf =>
    if DUMP_CHUNK_SIZE ≤ buf.length then
      let (chunks, rest) := drainFrom fuel (buf.drop DUMP_CHUNK_SIZE)
      (buf.take DUMP_CHUNK_SIZE :: chunks, rest)
    else ([], buf)

def drain (buf : Bytes) : List Bytes × Bytes := drainFrom buf.length buf

/-- What is sent while the output is read: chunks, and an error if the output fails. -/
def pump : List OutputItem → Bytes → List (Except String Bytes)
  | [], buf => if buf = [] then [] else [.ok buf]
  | .stdOut message :: items, buf =>
    (drain (buf ++ message)).1.map .ok ++ pump items (drain (buf ++ message)).2
  | .other :: items, buf => pump items buf
  | .error message :: _, _ => [.error ("exec output error: " ++ message)]

/-- What `dump_database_task` sends before its sender is dropped. Its own result is only
logged. -/
def dumpDatabaseTask : ExecOutcome → List (Except String Bytes)
  | .createFails _ | .startFails _ => []
  | .attached output _ => pump output []

abbrev Docker := String → List String → ExecOutcome

/-- `dump_database`: an error of the call, or the stream. -/
def dumpDatabase (docker : Docker) (containerId kind ageRecipient : String) :
    List (Except String Bytes) :=
  if kind ∉ supportedKinds then [.error ("unsupported db kind: " ++ kind)]
  else if ageRecipient ≠ "" then
    match validateAgeRecipient ageRecipient with
    | .error message => [.error message]
    | .ok () => dumpDatabaseTask (docker containerId (finalDumpCmd kind ageRecipient))
  else dumpDatabaseTask (docker containerId (finalDumpCmd kind ageRecipient))

/-! ### The API: backup -/

/-- The message of an `AgentError`. -/
def agentMessage (details : String) : String := "[agent] " ++ details

def readDump : List (Except String Bytes) → List Bytes × Option String
  | [] => ([], none)
  | .ok data :: rest =>
    if data.length > 0 then (data :: (readDump rest).1, (readDump rest).2) else readDump rest
  | .error details :: _ => ([], some (agentMessage details))

inductive DestinationKind where
  | s3
  | localDisk

structure Destination where
  kind : DestinationKind
  failure : Option String

inductive Settled (α : Type) where
  | returned (a : α)
  | threw (message : String)
  | pending

/-- `writeBackupStream`. An error of the source does not pass a `pipe`: the upload then waits for an
end that does not come. -/
def writeBackupStream (dest : Destination) (source : List Bytes × Option String) :
    Settled Bytes :=
  match dest.failure, source.2, dest.kind with
  | some message, _, _ => .threw message
  | none, none, _ => .returned source.1.flatten
  | none, some message, .localDisk => .threw message
  | none, some _, .s3 => .pending

structure DumpTarget where
  containerId : Option String
  kind : String

structure DumpConfig where
  ageRecipientPublicKey : Option String
  destination : Destination

inductive BackupStatus where
  | succeeded
  | failed
  deriving DecidableEq

structure BackupRecord where
  status : BackupStatus
  error : Option String
  sizeBytes : Nat
  stored : Option Bytes

inductive BackupRun where
  /-- Nothing is recorded. -/
  | refused (message : String)
  /-- The row stays at running. -/
  | unfinished
  | finished (record : BackupRecord)

/-- The record after an error; one with an empty message is taken for none. -/
def recordOfError (message : String) : BackupRecord :=
  { status := if message = "" then .succeeded else .failed
    error := some message
    sizeBytes := 0
    stored := none }

def recordOf : Settled Bytes → BackupRun
  | .returned stored => .finished ⟨.succeeded,none,stored.length,some stored⟩
  | .threw message => .finished (recordOfError message)
  | .pending => .unfinished

def runBackupOnce (docker : Docker) (databaseId : String) (target : Option DumpTarget)
    (config : Option DumpConfig) : BackupRun :=
  match target with
  | none => .refused ("Database not found: " ++ databaseId)
  | some target =>
    match target.containerId.filter (· ≠ "") with
    | none => .refused ("Database " ++ databaseId ++ " has no container_id")
    | some containerId =>
      match config with
      | none => .refused ("No enabled backup config for database " ++ databaseId)
      | some config =>
        let stream := dumpDatabase docker containerId target.kind
          (config.ageRecipientPublicKey.getD "")
        recordOf (writeBackupStream config.destination (readDump stream))

/-- A command that reads its standard input: how writing to it fails, what it has read and its
exit code. -/
structure RestoreProcess where
  inputError : Option String
  consumed : Bytes
  exitCode : Int

inductive RestoreOutcome where
  | createFails (message : String)
  | startFails (message : String)
  | attached (process : RestoreProcess)

abbrev RestoreDocker := String → List String → RestoreOutcome

def restoreCmd (kind : String) : List String :=
  if kind = "postgres" then ["psql", "-U", "postgres"]
  else if kind = "redis" then ["redis-cli", "--pipe"]
  else if kind = "mongo" then ["mongorestore", "--archive"]
  else []

def finalRestoreCmd (kind ageIdentity : String) : List String :=
  if ageIdentity ≠ "" then
    ["sh", "-c", "age -d -i /dev/stdin | " ++ " ".intercalate (restoreCmd kind)]
  else restoreCmd kind

/-- The result of `restore_database_task` once its stream has ended. -/
def restoreDatabaseTask : RestoreOutcome → Except String Unit
  | .createFails message => .error ("create_exec failed: " ++ message)
  | .startFails message => .error ("start_exec failed: " ++ message)
  | .attached process =>
    match process.inputError with
    | some message => .error message
    | none => .ok ()

def restoreInput (ageIdentity : String) (data : List Bytes) : Bytes :=
  (if ageIdentity ≠ "" then ageIdentity.toUTF8.data.toList ++ [10] else []) ++ data.flatten

structure RestoreResult where
  ok : Bool
  error : String

def restoreDatabase (docker : RestoreDocker) (containerId kind ageIdentity : String) :
    Except String RestoreResult :=
  if kind ∉ supportedKinds then .error ("unsupported db kind: " ++ kind)
  else
    match restoreDatabaseTask (docker containerId (finalRestoreCmd kind ageIdentity)) with
    | .ok () => .ok ⟨true,""⟩
    | .error message => .ok ⟨false,message⟩

structure StoredBackup where
  (databaseId status : String)
  target : Option DumpTarget

abbrev Download := Except String (List Bytes × Option String)

/-- What `runRestore` answers, or the message it throws. A download that fails rejects before the
agent has seen the end. -/
def runRestore (docker : RestoreDocker) (backupId : String) (backup : Option StoredBackup)
    (download : Download) (ageIdentity : Option String) : Except String RestoreResult :=
  match backup with
  | none => .error ("Backup not found: " ++ backupId)
  | some backup =>
    if backup.status ≠ "succeeded" then
      .error ("Cannot restore backup with status " ++ backup.status)
    else
      match backup.target with
      | none => .error ("Database not found: " ++ backup.databaseId)
      | some target =>
        match target.containerId.filter (· ≠ "") with
        | none => .error ("Database " ++ backup.databaseId ++ " has no container_id")
        | some containerId =>
          match download with
          | .error message | .ok (_, some message) => .error message
          | .ok (_, none) =>
            match restoreDatabase docker containerId target.kind (ageIdentity.getD "") with
            | .error details => .error (agentMessage details)
            | .ok result => .ok result

def stdoutOf : List OutputItem → Bytes
  | [] => []
  | .stdOut message :: items => message ++ stdoutOf items
  | .other :: items => stdoutOf items
  | .error _ :: _ => []

def outputFails : List OutputItem → Bool
  | [] => false
  | .stdOut _ :: items | .other :: items => outputFails items
  | .error _ :: _ => true

theorem flatten_drainFrom (fuel : Nat) (buf : Bytes) :
    (drainFrom fuel buf).1.flatten ++ (drainFrom fuel buf).2 = buf := by
  induction fuel generalizing buf with
  | zero => rfl
  | succ fuel ih =>
    unfold drainFrom
    split
    · rw [flatten_cons,append_assoc,ih,take_append_drop]
    · rfl

theorem drainFrom_chunks (fuel : Nat) (buf : Bytes) (hfuel : buf.length ≤ fuel) :
    (∀ chunk ∈ (drainFrom fuel buf).1,chunk.length = DUMP_CHUNK_SIZE) ∧
      (drainFrom fuel buf).2.length < DUMP_CHUNK_SIZE := by
  induction fuel generalizing buf with
  | zero => exact ⟨nofun,Nat.lt_of_le_of_lt hfuel (by decide)⟩
  | succ fuel ih =>
    unfold drainFrom
    split
    · next hfull =>
      have hpos : 0 < DUMP_CHUNK_SIZE := by decide
      obtain ⟨hchunks,hrest⟩ := ih (buf.drop DUMP_CHUNK_SIZE) (by rw [length_drop]; omega)
      exact ⟨forall_mem_cons.mpr ⟨length_take_of_le hfull,hchunks⟩,hrest⟩
    · next hfull => exact ⟨nofun,Nat.lt_of_not_le hfull⟩

/-- Full chunks, then at most one that is not. -/
theorem pump_chunks (output : List OutputItem) (buf : Bytes) (hok : outputFails output = false)
    (hbuf : buf.length < DUMP_CHUNK_SIZE) : ∃ full last : List Bytes,
      pump output buf = (full ++ last).map .ok ∧ (full ++ last).flatten = buf ++ stdoutOf output ∧
      (∀ chunk ∈ full, chunk.length = DUMP_CHUNK_SIZE) ∧ last.length ≤ 1 ∧ [] ∉ last := by
  induction output generalizing buf with
  | nil =>
    by_cases hnil : buf = []
    · exact ⟨[],[],by simp [pump,hnil],by simp [stdoutOf,hnil],nofun,by simp,nofun⟩
    · exact ⟨[],[buf],by simp [pump,hnil],by simp [stdoutOf],nofun,by simp,
        by simpa [eq_comm] using hnil⟩
  | cons item items ih =>
    cases item with
    | other => exact ih buf hok hbuf
    | error message => cases hok
    | stdOut message =>
      obtain ⟨hchunks,hrest⟩ := drainFrom_chunks _ (buf ++ message) (Nat.le_refl _)
      obtain ⟨full,last,hpump,hflat,hfull,hlast⟩ := ih (drain (buf ++ message)).2 hok hrest
      refine ⟨(drain (buf ++ message)).1 ++ full,last,?_,?_,forall_mem_append.mpr ⟨hchunks,hfull⟩,hlast⟩
      · rw [pump,hpump,← map_append,append_assoc]
      · rw [append_assoc,flatten_append,hflat,← append_assoc,drain,
          flatten_drainFrom,stdoutOf,append_assoc]

/-- The chunks of a dump without an error, put together, are the whole output; all but the last are
full, and none is empty. -/
theorem chunks_lossless {output : List OutputItem} (hok : outputFails output = false) (exitCode : Int) :
    ∃ chunks : List Bytes, dumpDatabaseTask (.attached output exitCode) = chunks.map .ok ∧
      chunks.flatten = stdoutOf output ∧
      (∀ chunk ∈ chunks.dropLast, chunk.length = DUMP_CHUNK_SIZE) ∧ [] ∉ chunks := by
  obtain ⟨full,last,hpump,hflat,hfull,hlength,hlast⟩ := pump_chunks output [] hok (by decide)
  refine ⟨full ++ last,hpump,hflat,fun chunk hmem => hfull chunk ?_,fun hmem => ?_⟩
  · match last,hlength with
    | [],_ => exact dropLast_subset _ (by simpa using hmem)
    | [_],_ => simpa using hmem
  · rcases mem_append.mp hmem with hmem | hmem
    · cases hfull [] hmem
    · exact hlast hmem

/-- The second message fills the first chunk and begins the next. -/
theorem chunks_lossless_across : ∃ chunks : List Bytes,
    dumpDatabaseTask (.attached [.other,.stdOut [1, 2],.stdOut (replicate DUMP_CHUNK_SIZE 3)] 0) =
        chunks.map .ok ∧
      chunks.flatten = 1 :: 2 :: replicate DUMP_CHUNK_SIZE 3 ∧
      (∀ chunk ∈ chunks.dropLast, chunk.length = DUMP_CHUNK_SIZE) ∧ [] ∉ chunks := by
  have hok : outputFails [.other,.stdOut [1, 2],.stdOut (replicate DUMP_CHUNK_SIZE 3)] = false := rfl
  simpa [stdoutOf] using chunks_lossless hok 0

theorem readDump_append (chunks : List Bytes) (rest : List (Except String Bytes)) :
    (readDump (chunks.map .ok ++ rest)).1.flatten = chunks.flatten ++ (readDump rest).1.flatten ∧
      (readDump (chunks.map .ok ++ rest)).2 = (readDump rest).2 := by
  induction chunks with
  | nil => exact ⟨rfl,rfl⟩
  | cons chunk chunks ih =>
    simp only [map_cons,cons_append,readDump]
    split_ifs with hlen
    · simp [ih]
    · have hnil : chunk = [] := eq_nil_of_length_eq_zero (by omega)
      rw [hnil]
      exact ih

variable {output : List OutputItem}

theorem readDump_fails (hfails : outputFails output = true) (buf : Bytes) :
    (readDump (pump output buf)).2.isSome = true := by
  induction output generalizing buf with
  | nil => cases hfails
  | cons item items ih =>
    cases item with
    | other => exact ih hfails buf
    | error message => rfl
    | stdOut message =>
      rw [pump,(readDump_append _ _).2]
      exact ih hfails _

theorem readDump_ok (hok : outputFails output = false) :
    (readDump (pump output [])).1.flatten = stdoutOf output ∧ (readDump (pump output [])).2 = none := by
  obtain ⟨full,last,hpump,hflat,-⟩ := pump_chunks output [] hok (by decide)
  have hread := readDump_append (full ++ last) []
  rw [append_nil,← hpump] at hread
  simpa [hread,readDump] using hflat

variable {stream : List (Except String Bytes)}

theorem readDump_message (h : (readDump stream).2 = some message) : message ≠ "" := by
  induction stream with
  | nil => cases h
  | cons item rest ih =>
    cases item with
    | ok data =>
      unfold readDump at h
      split_ifs at h
      · exact ih h
      · exact ih h
    | error details =>
      obtain rfl := Option.some.inj h
      intro hempty
      have hlen := congrArg (fun s : String => s.toList.length) hempty
      simp [agentMessage] at hlen

/-! ### Reported success -/

def Accepted (kind ageRecipient : String) : Prop :=
  kind ∈ supportedKinds ∧ (ageRecipient = "" ∨ validateAgeRecipient ageRecipient = .ok ())

variable {ageRecipient : String}

theorem dumpDatabase_of_accepted (h : Accepted kind ageRecipient) (docker : Docker)
    (containerId : String) :
    dumpDatabase docker containerId kind ageRecipient =
      dumpDatabaseTask (docker containerId (finalDumpCmd kind ageRecipient)) := by
  unfold dumpDatabase
  rw [if_neg (not_not_intro h.1)]
  split_ifs with hage
  · rw [h.2.resolve_left hage]
  · rfl

theorem dumpDatabase_of_not_accepted (h : ¬ Accepted kind ageRecipient) (docker : Docker)
    (containerId : String) :
    ∃ message, dumpDatabase docker containerId kind ageRecipient = [.error message] := by
  unfold dumpDatabase
  by_cases hkind : kind ∈ supportedKinds
  · have hage : ageRecipient ≠ "" := fun hage => h ⟨hkind,.inl hage⟩
    rw [if_neg (not_not_intro hkind),if_pos hage]
    cases hvalid : validateAgeRecipient ageRecipient with
    | error message => exact ⟨message,rfl⟩
    | ok u => exact absurd ⟨hkind,.inr hvalid⟩ h
  · rw [if_pos hkind]
    exact ⟨_,rfl⟩

def DumpConfig.outcome (config : DumpConfig) (docker : Docker) (containerId kind : String) :
    ExecOutcome :=
  docker containerId (finalDumpCmd kind (config.ageRecipientPublicKey.getD ""))

def Honest (outcome : ExecOutcome) (run : BackupRun) : Prop :=
  ∀ record, run = .finished record → record.status = .succeeded →
    ∃ output, outcome = .attached output 0 ∧ outputFails output = false ∧
      record.stored = some (stdoutOf output)

theorem honest_returned_iff (outcome : ExecOutcome) (stored : Bytes) :
    Honest outcome (recordOf (.returned stored)) ↔
      ∃ output, outcome = .attached output 0 ∧ outputFails output = false ∧
        stored = stdoutOf output := by
  simp [Honest,recordOf]

theorem honest_threw_iff (outcome : ExecOutcome) (message : String) :
    Honest outcome (recordOf (.threw message)) ↔ message ≠ "" := by
  by_cases hmessage : message = ""
  · simp [Honest,recordOf,recordOfError,hmessage]
  · simp [Honest,recordOf,recordOfError,hmessage]

variable {dest : Destination}

theorem honest_of_error (hdest : dest.failure = none) (h : (readDump stream).2.isSome = true)
    (outcome : ExecOutcome) :
    Honest outcome (recordOf (writeBackupStream dest (readDump stream))) := by
  obtain ⟨message,hmessage⟩ := Option.isSome_iff_exists.mp h
  unfold writeBackupStream
  rw [hdest,hmessage]
  cases dest.kind with
  | s3 => exact fun _ hrecord => nomatch hrecord
  | localDisk => exact (honest_threw_iff _ _).mpr (readDump_message hmessage)

theorem writeBackupStream_of_end (hdest : dest.failure = none) (h : source.2 = none) :
    writeBackupStream dest source = .returned source.1.flatten := by
  unfold writeBackupStream
  rw [hdest,h]

/-- Storing does not fail with an empty message; if it does not fail and the agent takes the
request, the command starts and exits with 0 unless its output fails. -/
def DumpSound (outcome : ExecOutcome) (kind : String) (config : DumpConfig) : Prop :=
  config.destination.failure ≠ some "" ∧
    (config.destination.failure = none →
      Accepted kind (config.ageRecipientPublicKey.getD "") →
      ∃ output exitCode, outcome = .attached output exitCode ∧
        (outputFails output = true ∨ exitCode = 0))

theorem honest_dumpDatabaseTask_iff (hdest : dest.failure = none) (outcome : ExecOutcome) :
    Honest outcome (recordOf (writeBackupStream dest (readDump (dumpDatabaseTask outcome)))) ↔
      ∃ output exitCode, outcome = .attached output exitCode ∧
        (outputFails output = true ∨ exitCode = 0) := by
  cases outcome with
  | createFails | startFails =>
    rw [writeBackupStream_of_end hdest rfl,honest_returned_iff]
    simp
  | attached output exitCode =>
    simp only [ExecOutcome.attached.injEq,dumpDatabaseTask]
    cases houtput : outputFails output with
    | true =>
      refine iff_of_true (honest_of_error hdest (readDump_fails houtput []) _) ?_
      exact ⟨output,exitCode,⟨rfl,rfl⟩,.inl houtput⟩
    | false =>
      obtain ⟨hflat,hnone⟩ := readDump_ok houtput
      rw [writeBackupStream_of_end hdest hnone,honest_returned_iff,hflat]
      constructor
      · rintro ⟨output',hattached,-,-⟩
        cases hattached
        exact ⟨output,0,⟨rfl,rfl⟩,.inr rfl⟩
      · rintro ⟨output',exitCode',⟨rfl,rfl⟩,hfail | rfl⟩
        · rw [houtput] at hfail
          cases hfail
        · exact ⟨output,rfl,houtput,rfl⟩

theorem honest_backup_iff (docker : Docker) (containerId kind : String) (config : DumpConfig) :
    Honest (config.outcome docker containerId kind) (recordOf (writeBackupStream
        config.destination (readDump (dumpDatabase docker containerId kind
          (config.ageRecipientPublicKey.getD ""))))) ↔
      DumpSound (config.outcome docker containerId kind) kind config := by
  unfold DumpSound
  cases hfail : config.destination.failure with
  | some message =>
    have hwrite : ∀ source, writeBackupStream config.destination source = .threw message := by
      intro source
      unfold writeBackupStream
      rw [hfail]
    rw [hwrite,honest_threw_iff]
    simp
  | none =>
    by_cases haccepted : Accepted kind (config.ageRecipientPublicKey.getD "")
    · rw [dumpDatabase_of_accepted haccepted]
      refine (honest_dumpDatabaseTask_iff hfail (config.outcome docker containerId kind)).trans ?_
      simp [haccepted]
    · obtain ⟨message,hstream⟩ := dumpDatabase_of_not_accepted haccepted docker containerId
      rw [hstream]
      exact iff_of_true (honest_of_error hfail rfl _) ⟨by simp,fun _ h => absurd h haccepted⟩

def TruthfulBackup (docker : Docker) (databaseId : String) (target : Option DumpTarget)
    (config : Option DumpConfig) : Prop :=
  ∀ record, runBackupOnce docker databaseId target config = .finished record →
    record.status = .succeeded →
    ∃ dumped containerId enabled output, target = some dumped ∧
      dumped.containerId = some containerId ∧ config = some enabled ∧
      enabled.outcome docker containerId dumped.kind = .attached output 0 ∧
      outputFails output = false ∧ record.stored = some (stdoutOf output)

/-- Whenever the rows lead to a command, it is one whose success is visible. -/
def BackupSound (docker : Docker) (target : Option DumpTarget) (config : Option DumpConfig) :
    Prop :=
  ∀ dumped containerId enabled, target = some dumped → dumped.containerId = some containerId →
    containerId ≠ "" → config = some enabled →
    DumpSound (enabled.outcome docker containerId dumped.kind) dumped.kind enabled

attribute [local simp] Option.filter

theorem runBackupOnce_finished_iff (docker : Docker) (databaseId : String)
    (target : Option DumpTarget) (config : Option DumpConfig) (record : BackupRecord) :
    runBackupOnce docker databaseId target config = .finished record ↔
      ∃ dumped containerId enabled, target = some dumped ∧ dumped.containerId = some containerId ∧
        containerId ≠ "" ∧ config = some enabled ∧
        recordOf (writeBackupStream enabled.destination (readDump (dumpDatabase docker containerId
          dumped.kind (enabled.ageRecipientPublicKey.getD "")))) = .finished record := by
  rcases target with _ | ⟨containerId,kind⟩
  · simp [runBackupOnce]
  rcases containerId with _ | containerId
  · simp [runBackupOnce]
  by_cases hempty : containerId = ""
  · simp [runBackupOnce,hempty]
  rcases config with _ | config
  · simp [runBackupOnce,hempty]
  · simp [runBackupOnce,hempty]

theorem truthfulBackup_iff (docker : Docker) (databaseId : String) (target : Option DumpTarget)
    (config : Option DumpConfig) :
    TruthfulBackup docker databaseId target config ↔ BackupSound docker target config := by
  constructor
  · rintro htruth dumped containerId enabled rfl hcontainer hempty rfl
    refine (honest_backup_iff ..).mp fun record hrecord hstatus => ?_
    have hrun := (runBackupOnce_finished_iff docker databaseId (some dumped) (some enabled)
      record).mpr ⟨dumped,containerId,enabled,rfl,hcontainer,hempty,rfl,hrecord⟩
    obtain ⟨_,containerId',_,output,⟨⟩,hcontainer',⟨⟩,hgenuine⟩ := htruth record hrun hstatus
    rw [hcontainer] at hcontainer'
    cases hcontainer'
    exact ⟨output,hgenuine⟩
  · intro hsound record hrun hstatus
    obtain ⟨dumped,containerId,enabled,htarget,hcontainer,hempty,hconfig,hrecord⟩ :=
      (runBackupOnce_finished_iff ..).mp hrun
    have hdump := hsound dumped containerId enabled htarget hcontainer hempty hconfig
    obtain ⟨output,hgenuine⟩ := (honest_backup_iff ..).mpr hdump record hrecord hstatus
    exact ⟨dumped,containerId,enabled,output,htarget,hcontainer,hconfig,hgenuine⟩

def Restored (outcome : RestoreOutcome) (input : Bytes) : Prop :=
  ∃ process, outcome = .attached process ∧ process.exitCode = 0 ∧ process.consumed = input

def TruthfulRestore (docker : RestoreDocker) (backupId : String) (backup : Option StoredBackup)
    (download : Download) (ageIdentity : Option String) : Prop :=
  ∀ result, runRestore docker backupId backup download ageIdentity = .ok result →
    result.ok = true →
    ∃ restored target containerId data, backup = some restored ∧
      restored.target = some target ∧ target.containerId = some containerId ∧
      download = .ok (data, none) ∧
      Restored (docker containerId (finalRestoreCmd target.kind (ageIdentity.getD "")))
        (restoreInput (ageIdentity.getD "") data)

def RestoreSound (docker : RestoreDocker) (backup : Option StoredBackup) (download : Download)
    (ageIdentity : Option String) : Prop :=
  ∀ restored target containerId data process, backup = some restored →
    restored.status = "succeeded" → restored.target = some target →
    target.containerId = some containerId → containerId ≠ "" → download = .ok (data, none) →
    target.kind ∈ supportedKinds →
    docker containerId (finalRestoreCmd target.kind (ageIdentity.getD "")) = .attached process →
    process.inputError = none →
    process.exitCode = 0 ∧ process.consumed = restoreInput (ageIdentity.getD "") data

theorem restoreDatabase_ok_iff (docker : RestoreDocker) (containerId kind ageIdentity : String) :
    (∃ result, restoreDatabase docker containerId kind ageIdentity = .ok result ∧
        result.ok = true) ↔
      kind ∈ supportedKinds ∧ ∃ process,
        docker containerId (finalRestoreCmd kind ageIdentity) = .attached process ∧
          process.inputError = none := by
  unfold restoreDatabase
  by_cases hkind : kind ∈ supportedKinds
  · rw [if_neg (not_not_intro hkind)]
    cases docker containerId (finalRestoreCmd kind ageIdentity) with
    | createFails | startFails => simp [restoreDatabaseTask]
    | attached process =>
      cases hinput : process.inputError with
      | none => simp [restoreDatabaseTask,hinput,hkind]
      | some message => simp [restoreDatabaseTask,hinput]
  · rw [if_pos hkind]
    simp [hkind]

attribute [local simp] runRestore

/-- When `runRestore` answers ok: everything is there, and the agent answers ok. -/
theorem runRestore_ok_iff (docker : RestoreDocker) (backupId : String)
    (backup : Option StoredBackup) (download : Download) (ageIdentity : Option String) :
    (∃ result, runRestore docker backupId backup download ageIdentity = .ok result ∧
        result.ok = true) ↔
      ∃ restored target containerId data, backup = some restored ∧
        restored.status = "succeeded" ∧ restored.target = some target ∧
        target.containerId = some containerId ∧ containerId ≠ "" ∧ download = .ok (data, none) ∧
        ∃ result, restoreDatabase docker containerId target.kind (ageIdentity.getD "") =
          .ok result ∧ result.ok = true := by
  rcases backup with _ | ⟨databaseId,status,target⟩
  · simp
  by_cases hstatus : status = "succeeded"
  swap
  · simp [hstatus]
  rcases target with _ | ⟨containerId,kind⟩
  · simp [hstatus]
  rcases containerId with _ | containerId
  · simp [hstatus]
  by_cases hempty : containerId = ""
  · simp [hstatus,hempty]
  rcases download with message | ⟨data,_ | message⟩
  · simp [hstatus,hempty]
  · cases hrestore : restoreDatabase docker containerId kind (ageIdentity.getD "") with
    | error | ok => simp [hstatus,hempty,hrestore]
  · simp [hstatus,hempty]

theorem truthfulRestore_iff (docker : RestoreDocker) (backupId : String)
    (backup : Option StoredBackup) (download : Download) (ageIdentity : Option String) :
    TruthfulRestore docker backupId backup download ageIdentity ↔
      RestoreSound docker backup download ageIdentity := by
  have hok := runRestore_ok_iff docker backupId backup download ageIdentity
  constructor
  · intro htruth restored target containerId data process hbackup hstatus htarget hcontainer
      hempty hdownload hkind hprocess hinput
    obtain ⟨result,hresult,htrue⟩ := hok.mpr ⟨restored,target,containerId,data,hbackup,
      hstatus,htarget,hcontainer,hempty,hdownload,
      (restoreDatabase_ok_iff ..).mpr ⟨hkind,process,hprocess,hinput⟩⟩
    obtain ⟨restored',target',containerId',data',hbackup',htarget',hcontainer',hdownload',
      process',hprocess',hexit,hconsumed⟩ := htruth result hresult htrue
    rw [hbackup] at hbackup'
    cases hbackup'
    rw [htarget] at htarget'
    cases htarget'
    rw [hcontainer] at hcontainer'
    cases hcontainer'
    rw [hdownload] at hdownload'
    cases hdownload'
    rw [hprocess] at hprocess'
    cases hprocess'
    exact ⟨hexit,hconsumed⟩
  · intro hsound result hresult htrue
    obtain ⟨restored,target,containerId,data,hbackup,hstatus,htarget,hcontainer,hempty,
      hdownload,hagent⟩ := hok.mp ⟨result,hresult,htrue⟩
    obtain ⟨hkind,process,hprocess,hinput⟩ := (restoreDatabase_ok_iff ..).mp hagent
    exact ⟨restored,target,containerId,data,hbackup,htarget,hcontainer,hdownload,process,
      hprocess,hsound restored target containerId data process hbackup hstatus htarget
        hcontainer hempty hdownload hkind hprocess hinput⟩

/-- Neither reports a false success, exactly for the commands that exit with 0 whenever they start
and their streams do not fail. -/
theorem no_false_success_iff (docker : Docker) (databaseId : String) (target : Option DumpTarget)
    (config : Option DumpConfig) (restoreDocker : RestoreDocker) (backupId : String)
    (backup : Option StoredBackup) (download : Download) (ageIdentity : Option String) :
    (TruthfulBackup docker databaseId target config ↔ BackupSound docker target config) ∧
      (TruthfulRestore restoreDocker backupId backup download ageIdentity ↔
        RestoreSound restoreDocker backup download ageIdentity) :=
  ⟨truthfulBackup_iff docker databaseId target config,
    truthfulRestore_iff restoreDocker backupId backup download ageIdentity⟩

/-- A dump whose command cannot be created is recorded as a succeeded backup; a restore whose
command exits with 1 is reported as done. -/
theorem failed_commands_succeed :
    ¬ TruthfulBackup (fun _ _ => .createFails "no such container") "db1"
        (some ⟨some "c1","postgres"⟩) (some ⟨none,⟨.localDisk,none⟩⟩) ∧
      ¬ TruthfulRestore (fun _ _ => .attached ⟨none,[],1⟩) "b1"
        (some ⟨"db1","succeeded",some ⟨some "c1","postgres"⟩⟩) (.ok ([[1]], none)) none := by
  constructor
  · intro htruth
    obtain ⟨_,_,_,output,⟨⟩,⟨⟩,⟨⟩,hattached,-⟩ := htruth ⟨.succeeded,none,0,some []⟩ rfl rfl
    cases hattached
  · intro htruth
    obtain ⟨_,_,_,_,⟨⟩,⟨⟩,⟨⟩,⟨⟩,process,⟨⟩,hexit,-⟩ := htruth ⟨true,""⟩ rfl rfl
    cases hexit

/-! ### The command line of an encrypted dump -/

/-- The characters that a shell takes as they are, outside quotes and anywhere in a word. -/
def isPlainChar (c : Char) : Bool :=
  isAgeChar c || ('A' ≤ c && c ≤ 'Z') || ['-', '_', '/', '.'].contains c

def reservedWords : List String :=
  ["case", "do", "done", "elif", "else", "esac", "fi", "for", "if", "in", "then", "until", "while"]

/-- The words of a simple command. -/
def parseCommand (text : List Char) : Option (List String) :=
  match ((text.splitOn ' ').filter (· ≠ [])).map String.ofList with
  | [] => none
  | word :: words => if word ∈ reservedWords then none else some (word :: words)

/-- A text without quotes, expansions and operators. -/
def unquoted (text : List Char) : Bool := text.all fun c => isPlainChar c || c == ' '

/-- A pipeline as the shell reads it, where its commands are unquoted. -/
def parsePipeline (text : List Char) : Option (List (List String)) :=
  if (text.splitOn '|').all unquoted then (text.splitOn '|').mapM parseCommand else none

theorem parsePipeline_bar (ha : unquoted a = true) (hb : unquoted b = true)
    (hwords : parseCommand a = some words) (hwords' : parseCommand b = some words') :
    parsePipeline (a ++ '|' :: b) = some [words, words'] := by
  have hbar : ∀ {text}, unquoted text = true → text.splitOn '|' = [text] := by
    intro text htext
    refine splitOn_eq_singleton fun hmem => ?_
    exact absurd (all_eq_true.mp htext _ hmem) (by decide)
  rw [parsePipeline,splitOn_append_cons_self,hbar ha,hbar hb]
  simp [ha,hb,hwords,hwords']

theorem isAgeChar_of_validateAgeRecipient (h : validateAgeRecipient recipient = .ok ()) :
    recipient.toList ≠ [] ∧ ∀ c ∈ recipient.toList, isAgeChar c = true := by
  unfold validateAgeRecipient at h
  split_ifs at h with hstart _ hbody
  rw [all_eq_true] at hbody
  have hage : ∀ c ∈ "age1".toList, isAgeChar c = true := all_eq_true.mp (by decide)
  obtain ⟨body,hrecipient⟩ := startsWith_iff.mp hstart
  rw [← hrecipient] at hbody ⊢
  refine ⟨append_ne_nil_of_left_ne_nil (by decide) _,fun c hc => ?_⟩
  exact (mem_append.mp hc).elim (hage c) (hbody c)

theorem parseCommand_age (hne : recipient.toList ≠ []) (hblank : ' ' ∉ recipient.toList) :
    parseCommand (" age -r".toList ++ ' ' :: recipient.toList) = some ["age", "-r", recipient] := by
  have hfixed : " age -r".toList.splitOn ' ' = [[], "age".toList, "-r".toList] := by decide
  rw [parseCommand,splitOn_append_cons_self,splitOn_eq_singleton hblank,hfixed]
  simp [hne,reservedWords]

theorem parseCommand_dumpCmd : ∀ kind ∈ supportedKinds,
    unquoted (" ".intercalate (dumpCmd kind) ++ " ").toList = true ∧
      parseCommand (" ".intercalate (dumpCmd kind) ++ " ").toList = some (dumpCmd kind) := by
  decide

/-- The shell line of an encrypted dump runs the dump and `age` with the recipient as one word. -/
theorem encrypted_dump_line {kind recipient : String} (hkind : kind ∈ supportedKinds)
    (h : validateAgeRecipient recipient = .ok ()) :
    ∃ line, finalDumpCmd kind recipient = ["sh", "-c", line] ∧
      parsePipeline line.toList = some [dumpCmd kind, ["age", "-r", recipient]] := by
  obtain ⟨hne,hchars⟩ := isAgeChar_of_validateAgeRecipient h
  obtain ⟨hfront,hwords⟩ := parseCommand_dumpCmd kind hkind
  have hblank : ' ' ∉ recipient.toList := fun hmem => absurd (hchars _ hmem) (by decide)
  have hage : unquoted (" age -r".toList ++ ' ' :: recipient.toList) = true := by
    have hrecipient : unquoted recipient.toList = true :=
      all_eq_true.mpr fun c hc => by simp [isPlainChar,hchars c hc]
    rw [unquoted,all_append,all_cons]
    exact Bool.and_eq_true_iff.mpr ⟨by decide,hrecipient⟩
  refine ⟨_,if_pos (by simpa using hne),?_⟩
  have hline : (" ".intercalate (dumpCmd kind) ++ " | age -r " ++ recipient).toList =
      (" ".intercalate (dumpCmd kind) ++ " ").toList ++ '|' ::
        (" age -r".toList ++ ' ' :: recipient.toList) := by simp
  rw [hline]
  exact parsePipeline_bar hfront hage hwords (parseCommand_age hne hblank)

theorem encrypted_dump_line_mongo : ∃ line,
    finalDumpCmd "mongo" ("age1" ++ String.ofList (replicate 58 'q')) = ["sh", "-c", line] ∧
      parsePipeline line.toList = some [["mongodump", "--archive"],
        ["age", "-r", "age1" ++ String.ofList (replicate 58 'q')]] :=
  encrypted_dump_line (by decide) (by decide +kernel)

end Ploydok.Backups
