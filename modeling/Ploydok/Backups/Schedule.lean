import Ploydok.Text.Number

/-! When scheduled backups are taken: `worker/jobs/backup-databases.ts`. The ticks of the cron all
fall on minute 20 of an hour, and a schedule is due only in the minute it names. -/

namespace Ploydok.Backups

open Text

def msPerMinute : Int := 60000

def msPerHour : Int := 3600000

def msPerDay : Int := 86400000

def getUTCMinutes (now : Int) : Int := now / msPerMinute % 60

def getUTCHours (now : Int) : Int := now / msPerHour % 24

/-- `text.split(/\s+/)` of a text without white space at its ends. -/
def splitSpaces (cs : List Char) : List (List Char) :=
  match (cs.splitOnP isJsSpace).filter (· ≠ []) with
  | [] => [[]]
  | parts => parts

/-- A field of a schedule: any value, or the one it names. -/
def matchField (part : List Char) (value : Int) : Bool :=
  part = ['*'] || parseInt part = some value

def cronFields (expr : String) : List (List Char) := splitSpaces (trimEnds isJsSpace expr.toList)

def isCronDue (expr : String) (now : Int) : Bool :=
  match cronFields expr with
  | [minPart, hourPart, dom, month, dow] =>
    dom = ['*'] && month = ['*'] && dow = ['*'] &&
      (matchField minPart (getUTCMinutes now) && matchField hourPart (getUTCHours now))
  | _ => false

/-- A schedule `M H * * *`. -/
def DailyAt (expr : String) (minute hour : Nat) : Prop :=
  ∃ minPart hourPart, cronFields expr = [minPart, hourPart, ['*'], ['*'], ['*']] ∧
    parseInt minPart = some (minute : Int) ∧ parseInt hourPart = some (hour : Int)

def daily (minute hour : Nat) : String := toString minute ++ " " ++ toString hour ++ " * * *"

structure DatabaseRow where
  (id status projectId : String)

structure BackupConfig where
  (id databaseId : String)
  enabled : Bool
  scheduleCron : String

structure AppRow where
  (id name projectId : String)

structure VolumeBackupConfig where
  (id appId volumeId : String)
  enabled : Bool
  scheduleCron : String

structure Tables where
  databases : List DatabaseRow
  backupConfigs : List BackupConfig
  apps : List AppRow
  volumeBackupConfigs : List VolumeBackupConfig

def Tables.configs (tables : Tables) : List (BackupConfig × DatabaseRow) :=
  tables.backupConfigs.flatMap fun config =>
    (tables.databases.filter fun db =>
      config.databaseId = db.id && (config.enabled && db.status = "running")).map (config, ·)

def Tables.volumeConfigs (tables : Tables) : List (VolumeBackupConfig × AppRow) :=
  tables.volumeBackupConfigs.flatMap fun config =>
    (tables.apps.filter fun app => config.appId = app.id && config.enabled).map (config, ·)

structure Scan where
  backups : List (BackupConfig × DatabaseRow)
  volumeBackups : List (VolumeBackupConfig × AppRow)
  (queued skipped : Nat)

def runScheduledBackups (tables : Tables) (now : Int) : Scan :=
  let backups := tables.configs.filter fun row => isCronDue row.1.scheduleCron now
  let volumeBackups := tables.volumeConfigs.filter fun row => isCronDue row.1.scheduleCron now
  { backups := backups
    volumeBackups := volumeBackups
    queued := backups.length + volumeBackups.length
    skipped := tables.configs.length - backups.length +
      (tables.volumeConfigs.length - volumeBackups.length) }

/-- The delay of the first tick of a cron that is started at an instant. -/
def startDelay (now : Int) : Int :=
  let next := now - now % msPerHour + 20 * msPerMinute
  if next ≤ now then next + msPerHour - now else next - now

def tick (start : Int) (k : Nat) : Int := start + startDelay start + k * msPerHour

theorem tick_eq (start : Int) :
    ∃ hour : Int, ∀ k : Nat, tick start k = (hour + k) * msPerHour + 20 * msPerMinute := by
  unfold tick startDelay msPerHour msPerMinute
  by_cases h : start - start % 3600000 + 20 * 60000 ≤ start
  · refine ⟨start / 3600000 + 1,fun k => ?_⟩
    simp only [h,↓reduceIte]
    omega
  · refine ⟨start / 3600000,fun k => ?_⟩
    simp only [h,↓reduceIte]
    omega

theorem getUTCMinutes_tick (start : Int) (k : Nat) : getUTCMinutes (tick start k) = 20 := by
  obtain ⟨hour,htick⟩ := tick_eq start
  rw [htick k]
  unfold getUTCMinutes msPerHour msPerMinute
  omega

theorem tick_div_hour (start : Int) (k : Nat) :
    tick start k / msPerHour = tick start 0 / msPerHour + k := by
  obtain ⟨hour,htick⟩ := tick_eq start
  rw [htick k,htick 0]
  unfold msPerHour msPerMinute
  omega

/-- The day, counted from 1970-01-01, has a tick in each of its hours. -/
def Covered (start day : Int) : Prop :=
  ∀ hour : Nat, hour < 24 → ∃ k : Nat, tick start k / msPerHour = day * 24 + hour

theorem matchField_of_parseInt (h : parseInt part = some (n : Int)) (value : Int) :
    matchField part value = true ↔ value = n := by
  have hstar : part ≠ ['*'] := by
    rintro rfl
    have hnone : parseInt ['*'] = none := by decide
    rw [hnone] at h
    cases h
  simp only [matchField,hstar,h,decide_false,Bool.false_or,decide_eq_true_eq, Option.some.injEq]
  exact eq_comm

theorem isCronDue_iff (h : DailyAt expr minute hour) (now : Int) :
    isCronDue expr now = true ↔ getUTCMinutes now = minute ∧ getUTCHours now = hour := by
  obtain ⟨minPart,hourPart,hfields,hmin,hhour⟩ := h
  unfold isCronDue
  rw [hfields]
  simp [matchField_of_parseInt hmin,matchField_of_parseInt hhour]

theorem isCronDue_tick_iff (h : DailyAt expr minute hour) (hhour : hour < 24) (start day : Int)
    (k : Nat) :
    tick start k / msPerDay = day ∧ isCronDue expr (tick start k) = true ↔
      minute = 20 ∧ tick start k / msPerHour = day * 24 + hour := by
  rw [isCronDue_iff h,getUTCMinutes_tick]
  unfold getUTCHours msPerDay msPerHour
  omega

theorem mem_backups_iff (tables : Tables) (now : Int) (row : BackupConfig × DatabaseRow) :
    row ∈ (runScheduledBackups tables now).backups ↔
      row ∈ tables.configs ∧ isCronDue row.1.scheduleCron now = true := List.mem_filter

/-- Scheduled backups are taken once a day exactly if the schedule names minute 20: for every start
of the cron, every day with a tick in each hour and every enabled config of a running database. -/
theorem due_once_iff (start day : Int) (hcovered : Covered start day) (tables : Nat → Tables)
    (config : BackupConfig) (db : DatabaseRow) (hrow : ∀ k, (config, db) ∈ (tables k).configs)
    (minute hour : Nat) (hhour : hour < 24) (hcron : DailyAt config.scheduleCron minute hour) :
    (∃! k : Nat, tick start k / msPerDay = day ∧
      (config, db) ∈ (runScheduledBackups (tables k) (tick start k)).backups) ↔ minute = 20 := by
  have hdue : ∀ k : Nat, (tick start k / msPerDay = day ∧
      (config, db) ∈ (runScheduledBackups (tables k) (tick start k)).backups) ↔
      minute = 20 ∧ tick start k / msPerHour = day * 24 + hour := by
    intro k
    rw [mem_backups_iff,and_iff_right (hrow k)]
    exact isCronDue_tick_iff hcron hhour start day k
  simp only [hdue]
  constructor
  · rintro ⟨k,⟨hminute,-⟩,-⟩
    exact hminute
  · intro hminute
    obtain ⟨k,hk⟩ := hcovered hour hhour
    refine ⟨k,⟨hminute,hk⟩,?_⟩
    rintro j ⟨-,hj⟩
    -- two ticks of one hour are the same tick
    rw [tick_div_hour] at hj hk
    omega

def nightly (minute : Nat) : BackupConfig :=
  { id := "bc_1", databaseId := "db_1", enabled := true, scheduleCron := daily minute 3 }

def postgres : DatabaseRow := { id := "db_1", status := "running", projectId := "p_1" }

def nightlyTables (minute : Nat) : Tables :=
  { databases := [postgres], backupConfigs := [nightly minute], apps := []
    volumeBackupConfigs := [] }

theorem mem_nightlyTables (minute : Nat) :
    (nightly minute, postgres) ∈ (nightlyTables minute).configs := by
  simp [Tables.configs,nightlyTables,nightly,postgres]

/-- A cron that starts at midnight has a tick in every hour of the day. -/
theorem covered_zero : Covered 0 0 := by
  intro hour _
  refine ⟨hour,?_⟩
  rw [tick_div_hour]
  rfl

theorem dailyAt_nightly : DailyAt (daily 20 3) 20 3 ∧ DailyAt (daily 0 3) 0 3 :=
  ⟨⟨['2', '0'],['3'],by decide +kernel⟩,⟨['0'],['3'],by decide +kernel⟩⟩

theorem nightly_at_twenty_due_once : ∃! k : Nat, tick 0 k / msPerDay = 0 ∧
      (nightly 20, postgres) ∈ (runScheduledBackups (nightlyTables 20) (tick 0 k)).backups :=
  (due_once_iff 0 0 covered_zero (fun _ => nightlyTables 20) (nightly 20)
    postgres (fun _ => mem_nightlyTables 20) 20 3 (by decide) dailyAt_nightly.1).mpr rfl

/-- The default schedule, `0 3 * * *`, is due at no tick of the day. -/
theorem default_schedule_never_due : Covered 0 0 ∧ DailyAt (nightly 0).scheduleCron 0 3 ∧
      (nightly 0, postgres) ∈ (nightlyTables 0).configs ∧
      ¬ ∃! k : Nat, tick 0 k / msPerDay = 0 ∧
        (nightly 0, postgres) ∈ (runScheduledBackups (nightlyTables 0) (tick 0 k)).backups := by
  refine ⟨covered_zero,dailyAt_nightly.2,mem_nightlyTables 0,?_⟩
  rintro ⟨k,⟨hday,hmem⟩,-⟩
  have hdue := ((mem_backups_iff _ _ _).mp hmem).2
  have htick := (isCronDue_tick_iff dailyAt_nightly.2 (by decide) 0 0 k).mp ⟨hday,hdue⟩
  exact absurd htick.1 (by decide)

end Ploydok.Backups
