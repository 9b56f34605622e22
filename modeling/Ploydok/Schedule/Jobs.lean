import Ploydok.Columns
import Ploydok.Effect.Pool
import Mathlib.Data.List.Nodup

/-! Scheduled jobs: the runs of `worker/jobs/scheduled-jobs-runner.ts` and the edits of `PATCH /:id`
in `routes/scheduled-jobs.ts`. The claim of a run and its end are a transaction each; an edit is a
read and a later update. -/

namespace Ploydok.Schedule

open Effect Effect.Prog List

/-! ### Tables -/

inductive Outcome where
  | succeeded
  | failed
  | timeout
  deriving DecidableEq

inductive RunStatus where
  | running
  | ended (outcome : Outcome)
  deriving DecidableEq

inductive Kind where
  | appExec
  | containerRun
  deriving DecidableEq

structure Job where
  (id orgId scheduleCron : String)
  kind : Kind
  (appId image : Option String)
  command : Option (List String)
  timeoutSeconds : Nat
  enabled : Bool
  lastRunAt : Option Int
  lastRunStatus : Option RunStatus
  nextRunAt : Option Int

/-- The columns an update sets; every update sets `next_run_at`. -/
structure JobPatch where
  scheduleCron : Option String := none
  kind : Option Kind := none
  appId : Option String := none
  image : Option String := none
  command : Option (List String) := none
  timeoutSeconds : Option Nat := none
  enabled : Option Bool := none
  lastRunAt : Option Int := none
  lastRunStatus : Option RunStatus := none
  nextRunAt : Option Int

def Job.apply (p : JobPatch) (j : Job) : Job where
  id := j.id
  orgId := j.orgId
  scheduleCron := p.scheduleCron.getD j.scheduleCron
  kind := p.kind.getD j.kind
  appId := p.appId.or j.appId
  image := p.image.or j.image
  command := p.command.or j.command
  timeoutSeconds := p.timeoutSeconds.getD j.timeoutSeconds
  enabled := p.enabled.getD j.enabled
  lastRunAt := p.lastRunAt.or j.lastRunAt
  lastRunStatus := p.lastRunStatus.or j.lastRunStatus
  nextRunAt := p.nextRunAt

structure Jobs where
  rows : List Job
  unique : (rows.map (·.id)).Nodup

namespace Jobs

def getScheduledJob (w : Jobs) (id : String) : Option Job := w.rows.find? (·.id = id)

def patched (id : String) (p : JobPatch) (j : Job) : Job := if j.id = id then j.apply p else j

def updateScheduledJob (w : Jobs) (id : String) (p : JobPatch) : Jobs where
  rows := w.rows.map (patched id p)
  unique := by
    have hids : (fun j : Job => j.id) ∘ patched id p = fun j => j.id := by
      funext j
      simp only [Function.comp_apply,patched]
      split_ifs <;> rfl
    rw [map_map,hids]
    exact w.unique

variable {w : Jobs} {id : String} {p : JobPatch} {P : Job → Prop}

theorem forall_updateScheduledJob (h : ∀ j ∈ w.rows, P j)
    (hp : ∀ j ∈ w.rows, j.id = id → P (j.apply p)) :
    ∀ j ∈ (w.updateScheduledJob id p).rows, P j := by
  intro j' hj'
  obtain ⟨j,hj,rfl⟩ := mem_map.mp hj'
  unfold patched
  split_ifs with hid
  · exact hp j hj hid
  · exact h j hj

theorem getScheduledJob_eq_some (h : w.getScheduledJob id = some job) :
    job ∈ w.rows ∧ job.id = id :=
  ⟨mem_of_find?_eq_some h,by simpa using find?_some h⟩

theorem eq_of_id (hj : j ∈ w.rows) (hj' : j' ∈ w.rows) (h : j.id = j'.id) : j = j' :=
  inj_on_of_nodup_map w.unique hj hj' h

end Jobs

structure Run where
  (id jobId : String)
  startedAt : Int
  finishedAt : Option Int
  status : RunStatus
  exitCode : Option Int
  (output error : Option String)

def Run.isRunning (r : Run) : Bool := r.status = .running

/-- The table of runs, with `scheduled_job_runs_one_running_per_job_idx`. -/
structure Runs where
  rows : List Run
  one : ((rows.filter Run.isRunning).map (·.jobId)).Nodup

theorem filter_isRunning_map_sublist (hf : ∀ r, f r = r ∨ (f r).isRunning = false) (rows : List Run) :
    ((rows.map f).filter Run.isRunning).Sublist (rows.filter Run.isRunning) := by
  induction rows with
  | nil => exact .refl _
  | cons r rows ih =>
    rw [map_cons]
    rcases hf r with h | h
    · rw [h,filter_cons,filter_cons]
      split_ifs
      · exact ih.cons_cons r
      · exact ih
    · rw [filter_cons_of_neg (by simp [h])]
      exact ih.trans ((sublist_cons_self r rows).filter _)

namespace Runs

def mapRows (w : Runs) (f : Run → Run) (hf : ∀ r, f r = r ∨ (f r).isRunning = false) : Runs where
  rows := w.rows.map f
  one := w.one.sublist ((filter_isRunning_map_sublist hf w.rows).map _)

def staleEnd (jobId : String) (staleBefore finishedAt : Int) (r : Run) : Run :=
  if r.jobId = jobId ∧ r.status = .running ∧ r.startedAt < staleBefore then
    { r with
      status := .ended .timeout
      finishedAt := some finishedAt
      error := some "Previous runner stopped before recording completion" }
  else r

def sweep (w : Runs) (jobId : String) (staleBefore finishedAt : Int) : Runs :=
  w.mapRows (staleEnd jobId staleBefore finishedAt) fun r => by
    unfold staleEnd
    split_ifs
    · exact .inr rfl
    · exact .inl rfl

/-- The insert is refused if the index would not hold after it. -/
def createScheduledJobRun (w : Runs) (r : Run) : Option Runs :=
  if h : (((w.rows ++ [r]).filter Run.isRunning).map (·.jobId)).Nodup then some ⟨w.rows ++ [r],h⟩
  else none

end Runs

structure RunEnd where
  outcome : Outcome
  exitCode : Option Int
  (output error : Option String)
  finishedAt : Int

def RunEnd.record (e : RunEnd) (runId : String) (r : Run) : Run :=
  if r.id = runId then
    { r with
      status := .ended e.outcome
      exitCode := e.exitCode
      output := e.output
      error := e.error
      finishedAt := some e.finishedAt }
  else r

def Runs.updateScheduledJobRun (w : Runs) (runId : String) (e : RunEnd) : Runs :=
  w.mapRows (e.record runId) fun r => by
    unfold RunEnd.record
    split_ifs
    · exact .inr rfl
    · exact .inl rfl

/-- The tables, and `_activeJobs` of every process that starts runs. -/
structure World where
  jobs : Jobs
  runs : Runs
  active : List (String × String)

inductive Source where
  | tick
  | manual
  deriving DecidableEq

structure RunOptions where
  allowDisabled : Bool
  source : Source

inductive Failure where
  | alreadyRunning (jobId : String)
  | timedOut (jobId : String) (timeoutMs : Nat)
  /-- `scheduled_job_runs_one_running_per_job_idx` is violated. -/
  | concurrentRun
  | other (message : String)

def Failure.message : Failure → String
  | alreadyRunning jobId => s!"scheduled job {jobId} is already running"
  | timedOut jobId timeoutMs => s!"scheduled job {jobId} timed out after {timeoutMs}ms"
  | concurrentRun => "duplicate key value violates unique constraint"
  | other message => message

section Cron

/-- The first date of a cron expression after a date, or `none` if the parser throws. -/
abbrev NextRun := String → Int → Option Int

variable (next : NextRun)

def Occurrence (cron : String) (t : Int) : Prop := ∃ now, next cron now = some t

def computeNextRunAt (job : Job) (now : Int) (source : Source) : Option Int :=
  let upcoming := job.nextRunAt.filter fun t => now < t
  if source = .manual ∧ upcoming.isSome then upcoming
  else (next job.scheduleCron now).or job.nextRunAt

structure Claimed where
  job : Job
  run : Run
  nextRunAt : Option Int

def Job.timeout (job : Job) : Nat := if job.timeoutSeconds = 0 then 300 else job.timeoutSeconds

/-- The transaction of `claimScheduledJobRun`. -/
def claimTransaction (jobId : String) (opts : RunOptions) (startedAt : Int) (runId : String)
    (w : World) : Except Failure (Claimed × World) :=
  match w.jobs.getScheduledJob jobId with
  | none => .error (.other "scheduled job not found")
  | some job =>
    if !job.enabled && !opts.allowDisabled then .error (.other "scheduled job is disabled")
    else
      let staleBefore := startedAt - (job.timeout + 60) * 1000
      let nextRunAt := computeNextRunAt next job startedAt opts.source
      let run : Run := ⟨runId,job.id,startedAt,none,.running,none,none,none⟩
      match (w.runs.sweep job.id staleBefore startedAt).createScheduledJobRun run with
      | none => .error .concurrentRun
      | some runs =>
        let patch : JobPatch :=
          { lastRunAt := some startedAt, lastRunStatus := some .running, nextRunAt }
        .ok (⟨job,run,nextRunAt⟩,
          { w with runs, jobs := w.jobs.updateScheduledJob job.id patch })

end Cron

def endTransaction (runId jobId : String) (e : RunEnd) (nextRunAt : Option Int) (w : World) : World :=
  let patch : JobPatch :=
    { lastRunAt := some e.finishedAt, lastRunStatus := some (.ended e.outcome), nextRunAt }
  { w with
    runs := w.runs.updateScheduledJobRun runId e
    jobs := w.jobs.updateScheduledJob jobId patch }

structure ExecResult where
  exitCode : Int
  (stdout stderr : String)

inductive Call where
  | getOrg (slug : String)
  | verifyOrgOwnership (orgId userId : String)
  | findAppInOrg (orgId appId : String)
  | getScheduledJob (id : String)
  | listDueJobs
  | date
  | isActive (process jobId : String)
  | activate (process jobId : String)
  | deactivate (process jobId : String)
  | claim (jobId : String) (opts : RunOptions) (startedAt : Int)
  /-- `executeAppCommand` or `executeContainerCommand`. -/
  | execute (job : Job) (timeoutMs : Nat)
  | finish (runId jobId : String) (e : RunEnd) (nextRunAt : Option Int)
  | updateScheduledJob (id : String) (p : JobPatch)

abbrev Call.Res : Call → Type
  | getOrg _ => Option String
  | verifyOrgOwnership _ _ | findAppInOrg _ _ => Bool
  | getScheduledJob _ => Option Job
  | listDueJobs => List Job
  | date => Int
  | isActive _ _ => Bool
  | claim _ _ _ => Claimed
  | execute _ _ => ExecResult
  | _ => Unit

abbrev JobSig : Sig := ⟨Call,Call.Res⟩

abbrev JobProg (α : Type) := Prog JobSig Failure α

abbrev query (o : Call) : JobProg o.Res := Prog.perform (S := JobSig) o

def Call.Local : Call → Prop
  | date | isActive _ _ | activate _ _ | deactivate _ _ => True
  | _ => False

section Semantics

variable (next : NextRun)

/-- The answers about organizations and apps, the clock and the commands are left open. -/
def Responds : (o : Call) → World → o.Res → World → Prop
  | .getScheduledJob id, w, r, w' => r = w.jobs.getScheduledJob id ∧ w' = w
  | .listDueJobs, w, r, w' => w' = w ∧ ∃ now : Int,
    r = w.jobs.rows.filter fun j => j.enabled ∧ ∃ t ∈ j.nextRunAt, t ≤ now
  | .isActive process jobId, w, r, w' => r = w.active.contains (process, jobId) ∧ w' = w
  | .activate process jobId, w, _, w' => w' = { w with active := w.active ++ [(process, jobId)] }
  | .deactivate process jobId, w, _, w' =>
    w' = { w with active := w.active.filter (· ≠ (process, jobId)) }
  | .claim jobId opts startedAt, w, r, w' => ∃ runId,
    claimTransaction next jobId opts startedAt runId w = .ok (r, w')
  | .finish runId jobId e nextRunAt, w, _, w' => w' = endTransaction runId jobId e nextRunAt w
  | .updateScheduledJob id p, w, _, w' => w' = { w with jobs := w.jobs.updateScheduledJob id p }
  | .getOrg _, w, _, w' | .verifyOrgOwnership _ _, w, _, w' | .findAppInOrg _ _, w, _, w'
  | .date, w, _, w' | .execute _ _, w, _, w' => w' = w

def Refused : Call → World → Failure → Prop
  | .claim jobId opts startedAt, w, e => ∃ runId,
    claimTransaction next jobId opts startedAt runId w = .error e
  | _, _, _ => False

/-- What is not local may throw, with or without having had its effect. -/
def jobSem : Sem JobSig Failure World := fun o w r w' =>
  match r with
  | .ok a => Responds next o w a w'
  | .error e => (Refused next o w e ∧ w' = w) ∨
    (¬ o.Local ∧ (w' = w ∨ ∃ a, Responds next o w a w'))

end Semantics

def maxCapturedLogBytes : Nat := 32 * 1024

def truncateLog (text : String) : Option String :=
  if text.length = 0 then none
  else if maxCapturedLogBytes < text.length then
    some (String.ofList (text.toList.drop (text.length - maxCapturedLogBytes)))
  else some text

def RunEnd.of (r : Except Failure ExecResult) (finishedAt : Int) : RunEnd :=
  match r with
  | .ok result =>
    { outcome := if result.exitCode = 0 then .succeeded else .failed
      exitCode := some result.exitCode
      output := truncateLog result.stdout
      error := truncateLog result.stderr
      finishedAt }
  | .error e =>
    { outcome := match e with
        | .timedOut _ _ => .timeout
        | _ => .failed
      exitCode := none
      output := truncateLog ""
      error := truncateLog e.message
      finishedAt }

def claimScheduledJobRun (process jobId : String) (opts : RunOptions) : JobProg Claimed :=
  (query (.isActive process jobId)).bind fun active =>
  if active then .throw (.alreadyRunning jobId)
  else
    (query .date).bind fun startedAt =>
    (query (.claim jobId opts startedAt)).tryCatch fun e =>
      match e with
      | .concurrentRun => .throw (.alreadyRunning jobId)
      | e => .throw e

/-- The run after its claim. The `finally` does not wait for the transaction, so the job has left
`_activeJobs` before it is carried out. -/
def runClaimed (process jobId : String) (claimed : Claimed) : JobProg Unit :=
  (query (.activate process jobId)).bind fun _ =>
  (query (.execute claimed.job (claimed.job.timeout * 1000))).attempt.bind fun result =>
  (query .date).bind fun finishedAt =>
  (query (.deactivate process jobId)).bind fun _ =>
  query (.finish claimed.run.id claimed.job.id (.of result finishedAt) claimed.nextRunAt)

def runScheduledJobNow (process jobId : String) (opts : RunOptions) : JobProg Unit :=
  (claimScheduledJobRun process jobId opts).bind (runClaimed process jobId)

inductive Answer where
  | ok
  | error (status : Nat) (message : String) (details : Option String)

/-- What a tick does about one job; the runs of a tick do not wait for one another. -/
def tickJob (process jobId : String) : JobProg Answer :=
  (query .listDueJobs).bind fun dueJobs =>
  if dueJobs.any (·.id = jobId) then
    ((runScheduledJobNow process jobId ⟨false,.tick⟩).bind fun _ => .ret .ok).tryCatch
      fun _ => .ret .ok
  else .ret .ok

/-! ### Routes -/

structure Request where
  user : Option String
  (orgSlug jobId : String)

def withJob (req : Request) (handler : String → Job → JobProg Answer) : JobProg Answer :=
  match req.user with
  | none => .ret (.error 401 "Unauthorized" none)
  | some user => (query (.getOrg req.orgSlug)).bind fun org =>
    match org with
    | none => .ret (.error 404 "Organization not found" none)
    | some orgId => (query (.verifyOrgOwnership orgId user)).bind fun hasAccess =>
      if hasAccess then
        (query (.getScheduledJob req.jobId)).bind fun job =>
        match job with
        | none => .ret (.error 404 "Job not found" none)
        | some job =>
          if job.orgId ≠ orgId then .ret (.error 404 "Job not found" none) else handler orgId job
      else .ret (.error 403 "Forbidden" none)

def runJobRoute (process : String) (req : Request) : JobProg Answer :=
  withJob req fun _ _ =>
    ((runScheduledJobNow process req.jobId ⟨true,.manual⟩).bind fun _ => .ret .ok).tryCatch
      fun e => match e with
        | .alreadyRunning _ => .ret (.error 409 "Job is already running" none)
        | e => .ret (.error 500 "Manual run failed" (some e.message))

/-- What `ScheduledJobUpdateSchema` lets through. -/
structure Edit where
  scheduleCron : Option String
  kind : Option Kind
  (appId image : Option String)
  command : Option (List String)
  timeoutSeconds : Option Nat
  enabled : Option Bool
  cron_ne : ∀ cron ∈ scheduleCron, cron ≠ ""

def validateJobConfig (orgId : String) (kind : Kind) (appId image : Option String)
    (command : Option (List String)) : JobProg (Option String) :=
  if command.getD [] = [] then .ret (some "command is required")
  else if kind = .appExec ∧ truthy appId = none then .ret (some "app_id is required for app_exec")
  else if kind = .containerRun ∧ truthy image = none ∧ truthy appId = none then
    .ret (some "image or app_id is required for container_run")
  else
    match truthy appId with
    | none => .ret none
    | some appId => (query (.findAppInOrg orgId appId)).bind fun found =>
      .ret (if found then none else some "app_id must belong to the organization")

def Edit.patch (edit : Edit) (nextRunAt : Option Int) : JobPatch where
  scheduleCron := edit.scheduleCron
  kind := edit.kind
  appId := edit.appId
  image := edit.image
  command := edit.command
  timeoutSeconds := edit.timeoutSeconds
  enabled := edit.enabled
  nextRunAt := nextRunAt

def writeEdit (jobId : String) (edit : Edit) (nextRunAt : Option Int) : JobProg Answer :=
  (query (.updateScheduledJob jobId (edit.patch nextRunAt))).bind fun _ => .ret .ok

def editJob (next : NextRun) (jobId : String) (edit : Edit) (orgId : String)
    (job : Job) : JobProg Answer :=
  (validateJobConfig orgId (edit.kind.getD job.kind) (edit.appId.or job.appId)
    (edit.image.or job.image) (edit.command.or job.command)).bind fun configError =>
  match configError with
  | some message => .ret (.error 400 "Validation failed" (some message))
  | none =>
    match edit.scheduleCron with
    | none => writeEdit jobId edit job.nextRunAt
    | some cron => (query .date).bind fun now =>
      match next cron now with
      | none => .ret (.error 400 "Invalid cron expression" none)
      | some t => writeEdit jobId edit (some t)

/-- `body` is what the schema made of the body. -/
def patchRoute (next : NextRun) (req : Request) (body : Option Edit) :
    JobProg Answer :=
  withJob req fun orgId job =>
    match body with
    | none => .ret (.error 400 "Validation failed" none)
    | some edit => (editJob next req.jobId edit orgId job).tryCatch fun _ =>
      .ret (.error 400 "Invalid request" none)

inductive Party where
  | tick (process jobId : String)
  | manual (process : String) (req : Request)
  | edit (req : Request) (body : Option Edit)

def Party.program (next : NextRun) : Party → JobProg Answer
  | tick process jobId => tickJob process jobId
  | manual process req => runJobRoute process req
  | edit req body => patchRoute next req body

end Ploydok.Schedule
