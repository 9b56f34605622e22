import Ploydok.Schedule.Jobs

/-! The bookkeeping of scheduled jobs over all interleavings of ticks, manual runs and edits: one
running run for a job, and a `next_run_at` that belongs to the schedule of the job. What a request
writes at its end was computed from the row it read at its start. -/

namespace Ploydok.Schedule

open Effect Effect.Prog Option

variable {next : NextRun}

/-! ### What a request carries from its read to its write -/

structure Reading where
  id : String
  job : Job
  nextRunAt : Option Int

structure Held where
  reading : Option Reading
  now : Int

def Held.carries (h : Held) (id : String) (nextRunAt : Option Int) : Bool :=
  h.reading.any fun r => r.id = id ∧ r.nextRunAt = nextRunAt

/-- An update sets a schedule and its next date, or what was read. -/
def Held.fits (next : NextRun) (h : Held) (id : String) (p : JobPatch) : Bool :=
  match p.scheduleCron with
  | some cron => p.nextRunAt.isSome && p.nextRunAt = next cron h.now
  | none => h.carries id p.nextRunAt

def heldNext (next : NextRun) (h : Held) : Event JobSig Failure → Option Held
  | ⟨.getScheduledJob id,.ok (some job)⟩ => some { h with reading := some ⟨id,job,job.nextRunAt⟩ }
  | ⟨.claim _ _ _,.ok claimed⟩ =>
    some { h with reading := some ⟨claimed.job.id,claimed.job,claimed.nextRunAt⟩ }
  | ⟨.date,.ok now⟩ => some { h with now }
  | ⟨.finish _ jobId _ nextRunAt,_⟩ => if h.carries jobId nextRunAt then some h else none
  | ⟨.updateScheduledJob id p,_⟩ => if h.fits next id p then some h else none
  | _ => some h

def heldProtocol (next : NextRun) : Protocol JobSig Failure :=
  ⟨Held,heldNext next⟩

def Held.empty : Held := ⟨none,0⟩

section Follows

/-- The programs are followed to their ends, whatever these are. -/
abbrev Carried (next : NextRun) (h : Held) (p : JobProg α) : Prop :=
  p.Follows (heldProtocol next) h fun _ _ => True

variable {h : Held} (process : String)

theorem carried_runClaimed (jobId : String) (claimed : Claimed)
    (hread : h.reading = some ⟨claimed.job.id,claimed.job,claimed.nextRunAt⟩) :
    Carried next h (runClaimed process jobId claimed) := by
  refine follows_perform_bind (fun _ => ⟨h,rfl,?_⟩) fun _ => ⟨h,rfl,trivial⟩
  refine follows_bind (fun (s : Held) _ => s.reading = h.reading)
    (follows_attempt (follows_perform fun r => ⟨h,rfl,rfl⟩)) ?_
    fun _ _ _ => trivial
  intro (s : Held) result hs
  refine follows_perform_bind (fun t => ⟨{ s with now := t },rfl,?_⟩) fun _ => ⟨s,rfl,trivial⟩
  refine follows_perform_bind (fun _ => ⟨{ s with now := t },rfl,?_⟩)
    fun _ => ⟨{ s with now := t },rfl,trivial⟩
  refine follows_perform fun r => ⟨{ s with now := t },?_,trivial⟩
  exact if_pos (by simp [Held.carries,hs,hread])

/-- The claim that succeeds is what the run carries on. -/
def HoldsClaim (s : Held) (r : Except Failure Claimed) : Prop :=
  ∀ claimed, r = .ok claimed → s.reading = some ⟨claimed.job.id,claimed.job,claimed.nextRunAt⟩

theorem holdsClaim_error (s : Held) (e : Failure) : HoldsClaim s (.error e) := by
  intro claimed heq
  cases heq

theorem follows_claimScheduledJobRun (jobId : String) (opts : RunOptions) :
    (claimScheduledJobRun process jobId opts).Follows (heldProtocol next) h HoldsClaim := by
  refine follows_perform_bind (fun active => ⟨h,rfl,?_⟩) fun e => ⟨h,rfl,holdsClaim_error h e⟩
  split
  · exact holdsClaim_error h _
  refine follows_perform_bind
    (fun t => ⟨{ h with now := t },rfl,?_⟩) fun e => ⟨h,rfl,holdsClaim_error h e⟩
  refine follows_tryCatch HoldsClaim ?_ (fun _ _ hs => hs) ?_
  · refine follows_perform fun r => ?_
    cases r with
    | ok claimed =>
      refine ⟨⟨some ⟨claimed.job.id,claimed.job,claimed.nextRunAt⟩,t⟩,rfl,?_⟩
      intro claimed' heq
      cases heq
      rfl
    | error e => exact ⟨⟨h.reading,t⟩,rfl,holdsClaim_error _ e⟩
  · intro (s : Held) e _
    cases e <;> exact holdsClaim_error s _

theorem carried_runScheduledJobNow (jobId : String) (opts : RunOptions) :
    Carried next h (runScheduledJobNow process jobId opts) := by
  refine follows_bind HoldsClaim (follows_claimScheduledJobRun process jobId opts) ?_
    fun _ _ _ => trivial
  intro s claimed hs
  exact carried_runClaimed process jobId claimed (hs claimed rfl)

theorem carried_tickJob (jobId : String) : Carried next h (tickJob process jobId) := by
  refine follows_perform_bind (fun due => ⟨h,rfl,?_⟩) fun _ => ⟨h,rfl,trivial⟩
  split
  · refine follows_tryCatch (fun _ _ => True) ?_ (fun _ _ _ => trivial) fun _ _ _ => trivial
    exact follows_bind (fun _ _ => True) (carried_runScheduledJobNow process jobId _)
      (fun _ _ _ => trivial) fun _ _ _ => trivial
  · exact trivial

theorem carried_withJob (req : Request)
    (hh : ∀ (s : Held) orgId job, s.reading = some ⟨req.jobId,job,job.nextRunAt⟩ →
      Carried next s (handler orgId job)) : Carried next h (withJob req handler) := by
  unfold withJob
  cases req.user with
  | none => exact trivial
  | some user =>
    refine follows_perform_bind (fun org => ⟨h,rfl,?_⟩) fun _ => ⟨h,rfl,trivial⟩
    cases org with
    | none => exact trivial
    | some orgId =>
      refine follows_perform_bind (fun access => ⟨h,rfl,?_⟩) fun _ => ⟨h,rfl,trivial⟩
      split
      · refine follows_perform_bind (fun job => ?_) fun _ => ⟨h,rfl,trivial⟩
        cases job with
        | none => exact ⟨h,rfl,trivial⟩
        | some job =>
          refine ⟨{ h with reading := some ⟨req.jobId,job,job.nextRunAt⟩ },rfl,?_⟩
          dsimp only
          split
          · exact trivial
          · exact hh _ orgId job rfl
      · exact trivial

theorem carried_runJobRoute (req : Request) : Carried next h (runJobRoute process req) := by
  refine carried_withJob req fun s _ _ _ => ?_
  refine follows_tryCatch (fun _ _ => True) ?_ (fun _ _ _ => trivial) fun _ e _ => ?_
  · exact follows_bind (fun _ _ => True) (carried_runScheduledJobNow process req.jobId _)
      (fun _ _ _ => trivial) fun _ _ _ => trivial
  · cases e <;> exact trivial

theorem carried_writeEdit (hfits : h.fits next jobId (edit.patch nextRunAt) = true) :
    Carried next h (writeEdit jobId edit nextRunAt) := by
  exact follows_perform_bind (fun _ => ⟨h,if_pos hfits,trivial⟩) fun _ => ⟨h,if_pos hfits,trivial⟩

theorem follows_validateJobConfig (orgId : String) (kind : Kind) (appId image : Option String)
    (command : Option (List String)) :
    (validateJobConfig orgId kind appId image command).Follows (heldProtocol next) h
      fun (s : Held) _ => s = h := by
  unfold validateJobConfig
  split
  · exact rfl
  split
  · exact rfl
  split
  · exact rfl
  split
  · exact rfl
  · exact follows_perform_bind (fun _ => ⟨h,rfl,rfl⟩) fun _ => ⟨h,rfl,rfl⟩

theorem carried_editJob (edit : Edit) (orgId : String)
    (hread : h.reading = some ⟨jobId,job,job.nextRunAt⟩) :
    Carried next h (editJob next jobId edit orgId job) := by
  refine follows_bind (fun (s : Held) _ => s = h) (follows_validateJobConfig ..) ?_
    fun _ _ _ => trivial
  rintro (s : Held) configError rfl
  cases configError with
  | some message => exact trivial
  | none =>
    cases hcron : edit.scheduleCron with
    | none =>
      simp only
      exact carried_writeEdit (by simp [Held.fits,Edit.patch,hcron,Held.carries,hread])
    | some cron =>
      simp only
      refine follows_perform_bind
        (fun now => ⟨{ s with now := now },rfl,?_⟩) fun _ => ⟨s,rfl,trivial⟩
      cases ht : next cron now with
      | none => exact trivial
      | some t => exact carried_writeEdit (by simp [Held.fits,Edit.patch,hcron,ht])

theorem carried_program (party : Party) : Carried next h (party.program next) := by
  cases party with
  | tick process jobId => exact carried_tickJob process jobId
  | manual process req => exact carried_runJobRoute process req
  | edit req body =>
    refine carried_withJob req fun s orgId job hread => ?_
    cases body with
    | none => exact trivial
    | some edit =>
      exact follows_tryCatch (fun _ _ => True) (carried_editJob edit orgId hread)
        (fun _ _ _ => trivial) fun _ _ _ => trivial

end Follows

def Due (next : NextRun) (cron : String) (nextRunAt : Option Int) : Prop :=
  ∃ t, nextRunAt = some t ∧ Occurrence next cron t

theorem due_computeNextRunAt (h : Due next job.scheduleCron job.nextRunAt) (now : Int)
    (source : Source) : Due next job.scheduleCron (computeNextRunAt next job now source) := by
  obtain ⟨t,ht,hocc⟩ := h
  unfold computeNextRunAt
  simp only [ht]
  split
  · next hkeep =>
    -- the date that is kept is the one the row has
    obtain ⟨u,hu⟩ := isSome_iff_exists.mp hkeep.2
    obtain ⟨hsome,-⟩ := filter_eq_some_iff.mp hu
    exact ⟨u,hu,(some.inj hsome) ▸ hocc⟩
  · cases hn : next job.scheduleCron now with
    | none => exact ⟨t,rfl,hocc⟩
    | some u => exact ⟨u,rfl,now,hn⟩

def AllDue (next : NextRun) (w : World) : Prop :=
  ∀ j ∈ w.jobs.rows, Due next j.scheduleCron j.nextRunAt

def WriteFits (next : NextRun) (w : World) : Call → Prop
  | .finish _ jobId _ nextRunAt =>
    ∀ j ∈ w.jobs.rows, j.id = jobId → Due next j.scheduleCron nextRunAt
  | .updateScheduledJob id p =>
    ∀ j ∈ w.jobs.rows, j.id = id → Due next (p.scheduleCron.getD j.scheduleCron) p.nextRunAt
  | _ => True

variable {w w' : World} {o : Call}

theorem claimTransaction_eq_ok
    (h : claimTransaction next jobId opts startedAt runId w = .ok (claimed, w')) :
    w.jobs.getScheduledJob jobId = some claimed.job ∧
      claimed.nextRunAt = computeNextRunAt next claimed.job startedAt opts.source ∧
      w'.jobs = w.jobs.updateScheduledJob claimed.job.id
        { lastRunAt := some startedAt, lastRunStatus := some .running
          nextRunAt := claimed.nextRunAt } := by
  revert h
  fun_cases claimTransaction next jobId opts startedAt runId w <;> rintro ⟨⟩
  next hjob _ _ _ _ _ _ _ => exact ⟨hjob,rfl,rfl⟩

theorem allDue_of_responds (hw : AllDue next w) (hfits : WriteFits next w o)
    (h : Responds next o w a w') : AllDue next w' := by
  cases o with
  | claim jobId opts startedAt =>
    obtain ⟨runId,hclaim⟩ := h
    obtain ⟨hfind,hnext,hjobs⟩ := claimTransaction_eq_ok hclaim
    obtain ⟨hmem,-⟩ := Jobs.getScheduledJob_eq_some hfind
    unfold AllDue
    rw [hjobs]
    refine Jobs.forall_updateScheduledJob hw fun j hj hid => ?_
    rw [Jobs.eq_of_id hj hmem hid]
    show Due next _ a.nextRunAt
    rw [hnext]
    exact due_computeNextRunAt (hw _ hmem) startedAt opts.source
  | finish runId jobId e nextRunAt =>
    obtain rfl : w' = endTransaction runId jobId e nextRunAt w := h
    exact Jobs.forall_updateScheduledJob hw hfits
  | updateScheduledJob id p =>
    obtain rfl : w' = { w with jobs := w.jobs.updateScheduledJob id p } := h
    exact Jobs.forall_updateScheduledJob hw hfits
  | getScheduledJob | isActive =>
    obtain ⟨-,rfl⟩ := h
    exact hw
  | listDueJobs =>
    obtain ⟨rfl,-⟩ := h
    exact hw
  | activate | deactivate =>
    obtain rfl : w' = _ := h
    exact hw
  | getOrg | verifyOrgOwnership | findAppInOrg | date | execute =>
    obtain rfl : w' = w := h
    exact hw

variable {r : Except Failure o.Res}

theorem allDue_of_sem (hw : AllDue next w) (hfits : WriteFits next w o)
    (h : jobSem next o w r w') : AllDue next w' := by
  cases r with
  | ok a => exact allDue_of_responds hw hfits h
  | error e =>
    rcases h with ⟨-,rfl⟩ | ⟨-,rfl | ⟨a,ha⟩⟩
    · exact hw
    · exact hw
    · exact allDue_of_responds hw hfits ha

/-! ### All interleavings -/

section Interleavings

variable {ι : Type} [DecidableEq ι]

abbrev JobPool (ι : Type) := Pool JobSig Failure Answer ι World

def startJobs (next : NextRun) (w : World) (parties : ι → Party) : JobPool ι :=
  .start w fun i => (parties i).program next

def lastRead (next : NextRun) (log : List (Event JobSig Failure)) : Option Job :=
  ((heldProtocol next).after Held.empty log).bind fun (h : Held) => h.reading.map (·.job)

/-- The id of the job whose `next_run_at` is written without its schedule. -/
def Call.keepsSchedule : Call → Option String
  | finish _ jobId _ _ => some jobId
  | updateScheduledJob id p => if p.scheduleCron.isNone then some id else none
  | _ => none

/-- The end of a run, and an edit without a schedule, are written while the job has the schedule
that was read. -/
def UpToDate (next : NextRun) (c : JobPool ι) (i : ι) : Prop :=
  ∀ o k, c.prog i = .call o k → ∀ jobId ∈ o.keepsSchedule, ∀ job ∈ lastRead next (c.log i),
    ∀ row ∈ c.world.jobs.rows, row.id = jobId → row.scheduleCron = job.scheduleCron

/-- At most one run of every job is running, and while none is, `next_run_at` is a date of the
job's schedule. -/
structure Bookkeeping (next : NextRun) (w : World) : Prop where
  one : ∀ jobId, (w.runs.rows.filter fun r => r.isRunning ∧ r.jobId = jobId).length ≤ 1
  due : ∀ j ∈ w.jobs.rows, (∀ r ∈ w.runs.rows, r.jobId = j.id → r.status ≠ .running) →
    Due next j.scheduleCron j.nextRunAt

theorem length_running_le_one (w : Runs) (jobId : String) :
    (w.rows.filter fun r => r.isRunning ∧ r.jobId = jobId).length ≤ 1 := by
  have hcount := List.nodup_iff_count_le_one.mp w.one jobId
  rw [List.count_eq_countP,List.countP_map,List.countP_filter,List.countP_eq_length_filter]
    at hcount
  simpa [Bool.and_comm,beq_eq_decide] using hcount

structure Kept (next : NextRun) (c : JobPool ι) (φ : ι → Held) : Prop where
  due : AllDue next c.world
  held : ∀ j, ∀ r ∈ (φ j).reading, Due next r.job.scheduleCron r.nextRunAt

variable {parties : ι → Party} {c : JobPool ι} {φ : ι → Held} {i : ι}

omit [DecidableEq ι] in
theorem lastRead_of_phased
    (hφ : Pool.Phased (heldProtocol next) (fun _ _ => True) (fun _ => Held.empty) c φ) (i : ι) :
    lastRead next (c.log i) = (φ i).reading.map (·.job) := by
  unfold lastRead
  rw [hφ.after i]
  rfl

theorem due_reading (hw : AllDue next w)
    (hh : ∀ r ∈ h.reading, Due next r.job.scheduleCron r.nextRunAt) (hs : jobSem next o w r w')
    (hnext : heldNext next h ⟨o,r⟩ = some h') :
    ∀ r ∈ h'.reading, Due next r.job.scheduleCron r.nextRunAt := by
  generalize hev : (⟨o,r⟩ : Event JobSig Failure) = ev at hnext
  revert hnext
  fun_cases heldNext next h ev <;> rintro ⟨⟩ <;> cases hev
  · rintro _ ⟨⟩
    exact hw _ (Jobs.getScheduledJob_eq_some hs.1.symm).1
  · next claimed =>
    rintro _ ⟨⟩
    obtain ⟨runId,hclaim⟩ := hs
    obtain ⟨hfind,hdate,-⟩ := claimTransaction_eq_ok hclaim
    show Due next claimed.job.scheduleCron claimed.nextRunAt
    rw [hdate]
    exact due_computeNextRunAt (hw _ (Jobs.getScheduledJob_eq_some hfind).1) _ _
  all_goals exact hh

omit [DecidableEq ι] in
theorem due_of_carries
    (hφ : Pool.Phased (heldProtocol next) (fun _ _ => True) (fun _ => Held.empty) c φ)
    (hJ : Kept next c φ) (hok : UpToDate next c i) (hc : c.prog i = .call o k)
    (ho : o.keepsSchedule = some jobId) (hcarries : (φ i).carries jobId nextRunAt = true)
    (hj : j ∈ c.world.jobs.rows) (hid : j.id = jobId) : Due next j.scheduleCron nextRunAt := by
  obtain ⟨r,hr,hfits⟩ := (any_eq_true _ _).mp hcarries
  obtain ⟨-,hdate⟩ : r.id = jobId ∧ r.nextRunAt = nextRunAt := by simpa using hfits
  have hread : lastRead next (c.log i) = some r.job := by
    rw [lastRead_of_phased hφ i,hr]
    rfl
  rw [hok o k hc jobId ho r.job hread j hj hid,← hdate]
  exact hJ.held i r hr

omit [DecidableEq ι] in
theorem writeFits_of_upToDate
    (hφ : Pool.Phased (heldProtocol next) (fun _ _ => True) (fun _ => Held.empty) c φ)
    (hJ : Kept next c φ) (hok : UpToDate next c i) (hc : c.prog i = .call o k)
    (hnext : heldNext next (φ i) ⟨o,r⟩ = some h') : WriteFits next c.world o := by
  cases o with
  | finish runId jobId e nextRunAt =>
    obtain ⟨hcarries,-⟩ := ite_none_right_eq_some.mp hnext
    intro j hj hid
    exact due_of_carries hφ hJ hok hc rfl hcarries hj hid
  | updateScheduledJob id p =>
    obtain ⟨hfits,-⟩ := ite_none_right_eq_some.mp hnext
    intro j hj hid
    unfold Held.fits at hfits
    cases hcron : p.scheduleCron with
    | none =>
      simp only [hcron] at hfits
      exact due_of_carries hφ hJ hok hc (by simp [Call.keepsSchedule,hcron]) hfits hj hid
    | some cron =>
      simp only [hcron,Bool.and_eq_true,decide_eq_true_eq] at hfits
      obtain ⟨t,ht⟩ := isSome_iff_exists.mp hfits.1
      exact ⟨t,ht,(φ i).now,hfits.2.symm.trans ht⟩
  | _ => exact trivial

theorem kept_of_reach (hw : AllDue next w)
    (h : Pool.Reach (jobSem next) (UpToDate next) (startJobs next w parties) c) :
    ∃ φ, Pool.Phased (heldProtocol next) (fun _ _ => True) (fun _ => Held.empty) c φ ∧
      Kept next c φ := by
  refine Pool.reach_phased (heldProtocol next) (fun _ _ => True)
    (fun i => carried_program (parties i)) (Kept next) ⟨hw,fun j r hr => ?_⟩ ?_ h
  · cases hr
  · intro c φ i o k r w' h' hφ hJ hok hc hs hnext _
    refine ⟨allDue_of_sem hJ.due (writeFits_of_upToDate hφ hJ hok hc hnext) hs,fun j => ?_⟩
    by_cases hji : j = i
    · subst hji
      simpa using due_reading hJ.due (hJ.held j) hs hnext
    · simpa [hji] using hJ.held j

/-- The bookkeeping is right in every run in which nobody writes the date of a schedule that was
replaced. -/
theorem scheduled_job_bookkeeping (next : String → Int → Option Int) (w : World)
    (parties : ι → Party) (hw : AllDue next w) (c : JobPool ι)
    (h : Pool.Reach (jobSem next) (UpToDate next) (startJobs next w parties) c) :
    Bookkeeping next c.world := by
  obtain ⟨φ,-,hJ⟩ := kept_of_reach hw h
  exact ⟨fun jobId => length_running_le_one c.world.runs jobId,fun j hj _ => hJ.due j hj⟩

end Interleavings

/-! ### The shop -/

namespace Shop

def hourly (cron : String) (now : Int) : Option Int :=
  if cron = "0 * * * *" then some ((now / 60 + 1) * 60)
  else if cron = "30 * * * *" then some (((now - 30) / 60 + 1) * 60 + 30)
  else none

def report : Job :=
  ⟨"report","shop","0 * * * *",.containerRun,none,some "alpine",some ["report"],300,true,
    none,none,some 60⟩

def world : World where
  jobs := ⟨[report],by decide⟩
  runs := ⟨[],by decide⟩
  active := []

def reschedule : Edit where
  scheduleCron := some "30 * * * *"
  kind := none
  appId := none
  image := none
  command := none
  timeoutSeconds := none
  enabled := none
  cron_ne := by simp

def parties : Bool → Party
  | true => .tick "worker" "report"
  | false => .edit ⟨some "ada","shop","report"⟩ (some reschedule)

def answer : (o : Call) → World → Except Failure o.Res × World
  | .getOrg slug, w => (.ok (some slug), w)
  | .verifyOrgOwnership _ _, w | .findAppInOrg _ _, w => (.ok true, w)
  | .getScheduledJob id, w => (.ok (w.jobs.getScheduledJob id), w)
  | .listDueJobs, w =>
    (.ok (w.jobs.rows.filter fun j => j.enabled ∧ ∃ t ∈ j.nextRunAt, t ≤ 60), w)
  | .date, w => (.ok 60, w)
  | .isActive process jobId, w => (.ok (w.active.contains (process, jobId)), w)
  | .activate process jobId, w => (.ok (), { w with active := w.active ++ [(process, jobId)] })
  | .deactivate process jobId, w =>
    (.ok (), { w with active := w.active.filter (· ≠ (process, jobId)) })
  | .claim jobId opts startedAt, w =>
    match claimTransaction hourly jobId opts startedAt "run" w with
    | .ok (claimed, w') => (.ok claimed, w')
    | .error e => (.error e, w)
  | .execute _ _, w => (.ok ⟨0,"",""⟩, w)
  | .finish runId jobId e nextRunAt, w => (.ok (), endTransaction runId jobId e nextRunAt w)
  | .updateScheduledJob id p, w => (.ok (), { w with jobs := w.jobs.updateScheduledJob id p })

theorem jobSem_answer (o : Call) (w : World) : jobSem hourly o w (answer o w).1 (answer o w).2 := by
  cases o with
  | claim jobId opts startedAt =>
    cases hclaim : claimTransaction hourly jobId opts startedAt "run" w with
    | ok a =>
      simp only [answer,hclaim]
      exact ⟨"run",hclaim⟩
    | error e =>
      simp only [answer,hclaim]
      exact .inl ⟨⟨"run",hclaim⟩,rfl⟩
  | getScheduledJob | isActive => exact ⟨rfl,rfl⟩
  | listDueJobs => exact ⟨rfl,60,rfl⟩
  | _ => exact rfl

theorem allDue_world : AllDue hourly world := by
  intro j hj
  rw [List.mem_singleton.mp hj]
  exact ⟨60,rfl,0,rfl⟩

def replaced : JobPool Bool :=
  [true, true, true, true, true, true, false, false, false, false, false, true, true, true].foldl
    (Pool.tick answer) (startJobs hourly world parties)

theorem not_due_replaced : ¬ Due hourly "30 * * * *" (some 120) := by
  rintro ⟨t,ht,now,hnow⟩
  cases ht
  have hdate : ((now - 30) / 60 + 1) * 60 + 30 = 120 := some.inj hnow
  omega

end Shop

open Shop

theorem replaced_schedule_reinstated : ¬ ∀ (next : String → Int → Option Int) (w : World)
    (parties : Bool → Party), AllDue next w → ∀ c : JobPool Bool,
      Pool.Reach (jobSem next) (fun _ _ => True) (startJobs next w parties) c →
        Bookkeeping next c.world := by
  intro h
  have hbook := h hourly world parties allDue_world replaced
    (Pool.reach_schedule jobSem_answer _ _ (Pool.admits_of_forall (fun _ _ => trivial) _ _))
  have hquiet : ∀ r ∈ replaced.world.runs.rows, r.status ≠ .running := by decide +kernel
  have hrow : ∃ j ∈ replaced.world.jobs.rows,
      j.scheduleCron = "30 * * * *" ∧ j.nextRunAt = some 120 := by decide +kernel
  obtain ⟨j,hj,hcron,hdate⟩ := hrow
  have hdue := hbook.due j hj fun r hr _ => hquiet r hr
  rw [hcron,hdate] at hdue
  exact not_due_replaced hdue

namespace Shop

def turns : List Bool :=
  [true, true, true, true, true, true, true, true, true, false, false, false, false, false]

def edited : JobPool Bool := turns.foldl (Pool.tick answer) (startJobs hourly world parties)

def mayWrite (c : JobPool Bool) (i : Bool) : Bool :=
  match c.prog i with
  | .call o _ => o.keepsSchedule.all fun jobId => (lastRead hourly (c.log i)).all fun job =>
    c.world.jobs.rows.all fun row => row.id ≠ jobId ∨ row.scheduleCron = job.scheduleCron
  | _ => true

theorem upToDate_of_mayWrite (h : mayWrite c i = true) : UpToDate hourly c i := by
  intro o k hc jobId ho job hjob row hrow hid
  rw [mem_def] at ho hjob
  simp only [mayWrite,hc,ho,hjob,all_some,List.all_eq_true,decide_eq_true_eq] at h
  rcases h row hrow with hne | heq
  · exact absurd hid hne
  · exact heq

theorem admits_turns : Pool.Admits (UpToDate hourly) answer (startJobs hourly world parties) turns := by
  have h : Pool.Admits (fun c i => mayWrite c i = true) answer (startJobs hourly world parties)
      turns := by
    decide +kernel
  exact h.mono fun _ _ => upToDate_of_mayWrite

end Shop

theorem scheduled_job_bookkeeping_shop : AllDue hourly world ∧ Bookkeeping hourly edited.world ∧
    edited.world.jobs.rows.map (fun j => (j.scheduleCron, j.nextRunAt)) =
      [("30 * * * *", some 90)] :=
  ⟨allDue_world,scheduled_job_bookkeeping hourly world parties allDue_world _
    (Pool.reach_schedule jobSem_answer _ _ admits_turns),by decide +kernel⟩

end Ploydok.Schedule
