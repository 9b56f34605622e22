import Ploydok.Builds.Execution

/-! Cancelling one build, `routes/apps.ts`. The route removes every queued job of the app, whichever
build the job is for. -/

namespace Ploydok.Builds

open Effect Effect.Prog Queue

def appOfPayload (w : World) (payload : Payload) : Option String :=
  match payload.buildId with
  | some buildId => (w.builds buildId).map (·.appId)
  | none => payload.appId

structure Confined (buildId : String) (w w' : World) : Prop where
  jobs : ∀ j ∈ w.queue.jobs, j.data.buildId ≠ some buildId → j ∈ w'.queue.jobs
  pending : ∀ id row, id ≠ buildId → w.builds id = some row → row.status = .pending →
    (∃ j ∈ w.queue.jobs, j.data.buildId = some id) → ∃ j ∈ w'.queue.jobs, j.data.buildId = some id

def CancelAccepted (w : World) (userId appId buildId : String) : Prop :=
  w.access appId userId = true ∧
    ∃ row, w.builds buildId = some row ∧ row.appId = appId ∧ row.status.active = true

def OnlyJobsOf (w : World) (appId buildId : String) : Prop :=
  ∀ j ∈ w.queue.jobs, j.state.queued = true → appOfPayload w j.data = some appId →
    j.data.buildId = some buildId

variable {F : Faults} {w w' w₀ : World} {userId appId buildId : String}

theorem Confined.of_jobs
    (h : ∀ j ∈ w.queue.jobs, j.data.buildId ≠ some buildId → j ∈ w'.queue.jobs) :
    Confined buildId w w' := by
  refine ⟨h,fun id row hne _ _ ⟨j,hj,hid⟩ => ⟨j,h j hj ?_,hid⟩⟩
  rw [hid]
  intro heq
  exact hne (Option.some.inj heq)

structure Kept (buildId : String) (w₀ w : World) : Prop where
  builds : w.builds = w₀.builds
  sub : ∀ j ∈ w.queue.jobs, j ∈ w₀.queue.jobs
  jobs : ∀ j ∈ w₀.queue.jobs, j.data.buildId ≠ some buildId → j ∈ w.queue.jobs

theorem Kept.refl (w : World) : Kept buildId w w := ⟨rfl,fun _ h => h,fun _ h _ => h⟩

theorem Kept.of_eq (h : Kept buildId w₀ w) (hbuilds : w'.builds = w.builds)
    (hqueue : w'.queue = w.queue) : Kept buildId w₀ w' := by
  refine ⟨hbuilds.trans h.builds,?_,?_⟩
  · rw [hqueue]
    exact h.sub
  · rw [hqueue]
    exact h.jobs

def CancelRead : Call → Prop
  | .getAppForUser _ _ | .getBuildForApp _ _ | .getJobs | .appOfBuild _ => True
  | _ => False

theorem eq_of_read (ho : CancelRead o) (h : sem F o w r w') :
    w'.builds = w.builds ∧ w'.queue = w.queue ∧
      ∀ x, r = .ok x → Responds o w x w := by
  obtain ⟨now,-,h⟩ := h
  have hresponds : ∀ x, Responds o { w with now := now } x w' → w' = { w with now := now } ∧
      Responds o w x w := by
    intro x hx
    cases o <;> first | exact ho.elim | exact ⟨hx.2,hx.1,rfl⟩
  cases r with
  | ok x =>
    obtain ⟨rfl,hx⟩ := hresponds x h
    refine ⟨rfl,rfl,?_⟩
    rintro _ ⟨⟩
    exact hx
  | error e =>
    rcases h with ⟨-,rfl⟩ | ⟨-,x,hx⟩
    · exact ⟨rfl,rfl,fun _ hr => by cases hr⟩
    · obtain ⟨rfl,-⟩ := hresponds x hx
      exact ⟨rfl,rfl,fun _ hr => by cases hr⟩

theorem post_jobAppId (payload : Payload) (hw : Kept buildId w₀ w) :
    Post (sem F) (jobAppId payload) w fun r w' => Kept buildId w₀ w' ∧
      ∀ owner, r = .ok owner → owner = appOfPayload w₀ payload := by
  unfold jobAppId appOfPayload
  cases payload.buildId with
  | some id =>
    refine post_perform fun r w' h => ?_
    obtain ⟨hbuilds,hqueue,hread⟩ := eq_of_read (o := .appOfBuild id) trivial h
    refine ⟨hw.of_eq hbuilds hqueue,fun owner hr => ?_⟩
    rw [(hread owner hr).1,hw.builds]
  | none =>
    refine post_ret ⟨hw,?_⟩
    rintro owner ⟨⟩
    rfl

theorem Kept.remove (hw : Kept buildId w₀ w) (hj : j ∈ w₀.queue.jobs)
    (hunfinished : j.state.unfinished = true) (hnames : j.state.queued = true →
      j.data.buildId = some buildId) (hq : w.queue.remove j.id = some q) :
    Kept buildId w₀ { w with queue := q } := by
  refine ⟨hw.builds,fun k hk => hw.sub k ((Bull.mem_jobs_remove hq k).mp hk).1,?_⟩
  intro k hk hne
  refine (Bull.mem_jobs_remove hq k).mpr ⟨hw.jobs k hk hne,fun hid => ?_⟩
  have hkj : k = j := List.inj_on_of_nodup_map w₀.queue.ids hk hj hid
  subst hkj
  -- a job that is not queued is being run, and cannot be removed
  have hqueued : k.state.queued ≠ true := fun hqueued => hne (hnames hqueued)
  have hactive : k.state = .active := by
    cases hs : k.state <;> simp_all [JobState.queued,JobState.unfinished]
  have hfound : w.queue.getJob k.id = some k := Bull.getJob_eq_some_iff.mpr ⟨hw.jobs k hk hne,rfl⟩
  simp [Bull.remove,hfound,hactive] at hq

theorem post_removeJob (hw : Kept buildId w₀ w) (hj : j ∈ w₀.queue.jobs)
    (hunfinished : j.state.unfinished = true)
    (hnames : j.state.queued = true → j.data.buildId = some buildId) :
    Post (sem F) ((act (.removeJob j.id)).tryCatch fun _ => .ret ()) w
      fun _ w' => Kept buildId w₀ w' := by
  refine post_of_calls
    (calls_tryCatch (calls_act rfl) fun _ => calls_ret ()) (Kept buildId w₀) ?_ hw
  rintro _ w r w' rfl hw h
  obtain ⟨now,rfl | ⟨x,q,hq,rfl⟩⟩ := responds_of_sem h
  · exact hw.of_eq rfl rfl
  · exact (hw.remove hj hunfinished hnames hq).of_eq rfl rfl

theorem post_removeJobs (h : OnlyJobsOf w₀ appId buildId) (hw : Kept buildId w₀ w) :
    Post (sem F) (removeJobs appId) w fun _ w' => Kept buildId w₀ w' := by
  refine post_tryCatch (fun _ w' => Kept buildId w₀ w') ?_ (fun _ _ h => h) fun _ _ h => post_ret h
  refine post_bind (fun r w' => Kept buildId w₀ w' ∧ ∀ jobs : List (Job Payload), r = .ok jobs →
    ∀ j ∈ jobs, j ∈ w₀.queue.jobs ∧ j.state.unfinished = true) ?_ ?_ fun _ _ h => h.1
  · refine post_perform fun r w' hr => ?_
    obtain ⟨hbuilds,hqueue,hread⟩ := eq_of_read (o := .getJobs) trivial hr
    refine ⟨hw.of_eq hbuilds hqueue,fun jobs hjobs j hj => ?_⟩
    rw [(hread jobs hjobs).1] at hj
    exact ⟨hw.sub j (List.mem_of_mem_filter hj),by simpa using List.of_mem_filter hj⟩
  · rintro jobs w1 ⟨hw1,hjobs⟩
    refine post_forEach (Kept buildId w₀) jobs (fun j hj w2 hw2 => ?_) hw1
    obtain ⟨hmem,hunfinished⟩ := hjobs jobs rfl j hj
    refine post_bind _ (post_jobAppId j.data hw2) ?_ fun _ _ h => h.1
    rintro owner w3 ⟨hw3,howner⟩
    split
    · next hown =>
      exact post_removeJob hw3 hmem hunfinished fun hqueued =>
        h j hmem hqueued (by rw [← howner owner rfl,hown])
    · exact post_ret hw3

theorem queue_updateBuildStatus (h : sem F (.updateBuildStatus buildId status patch) w r w') :
    w'.queue = w.queue := by
  have hupdate : ∀ (w : World) (f : BuildRow → Option BuildRow),
      (w.updateBuild buildId f).2.queue = w.queue := by
    intro w f
    unfold World.updateBuild
    split <;> rfl
  obtain ⟨now,rfl | ⟨x,hx⟩⟩ := responds_of_sem h
  · rfl
  · rw [show w' = _ from hx,hupdate]

theorem post_cancelBuild (h : CancelAccepted w userId appId buildId → OnlyJobsOf w appId buildId) :
    Post (sem F) (cancelBuild userId appId buildId) w fun _ w' => Confined buildId w w' := by
  suffices hkept : Post (sem F) (cancelBuild userId appId buildId) w fun _ w' =>
      ∀ j ∈ w.queue.jobs, j.data.buildId ≠ some buildId → j ∈ w'.queue.jobs from
    post_mono hkept fun _ _ h => .of_jobs h
  refine post_bind (fun r w' => Kept buildId w w' ∧ (r = .ok true → w.access appId userId = true))
    ?_ ?_ fun _ _ h => h.1.jobs
  · refine post_perform fun r w' hr => ?_
    obtain ⟨hbuilds,hqueue,hread⟩ := eq_of_read (o := .getAppForUser appId userId) trivial hr
    exact ⟨(Kept.refl w).of_eq hbuilds hqueue,fun hx => (hread _ hx).1.symm⟩
  rintro hasAccess w1 ⟨hw1,haccess⟩
  split
  · next htrue =>
    subst htrue
    refine post_bind (fun r w' => Kept buildId w w' ∧ ∀ status : BuildStatus, r = .ok (some status) →
      ∃ row, w.builds buildId = some row ∧ row.appId = appId ∧ row.status = status) ?_ ?_
      fun _ _ h => h.1.jobs
    · refine post_perform fun r w' hr => ?_
      obtain ⟨hbuilds,hqueue,hread⟩ := eq_of_read (o := .getBuildForApp buildId appId) trivial hr
      refine ⟨hw1.of_eq hbuilds hqueue,fun status hx => ?_⟩
      have hsome : ((w1.builds buildId).filter (·.appId = appId)).map (·.status) = some status :=
        (hread _ hx).1.symm
      simp only [hw1.builds,Option.map_eq_some_iff,Option.filter_eq_some_iff,
        decide_eq_true_eq] at hsome
      obtain ⟨row,⟨hrow,happ⟩,hstatus⟩ := hsome
      exact ⟨row,hrow,happ,hstatus⟩
    rintro found w2 ⟨hw2,hfound⟩
    cases found with
    | none => exact post_ret hw2.jobs
    | some status =>
      dsimp only
      split
      · next hactive =>
        obtain ⟨row,hrow,happ,rfl⟩ := hfound status rfl
        have honly := h ⟨haccess rfl,row,hrow,happ,hactive⟩
        refine post_bind _ (post_removeJobs honly hw2) ?_ fun _ _ h => h.jobs
        intro _ w3 hw3
        refine post_bind (fun _ w' => w'.queue = w3.queue)
          (post_perform fun r w' hr => queue_updateBuildStatus hr) ?_ ?_
        · intro _ w4 hw4
          refine post_ret ?_
          rw [hw4]
          exact hw3.jobs
        · intro _ w4 hw4
          rw [hw4]
          exact hw3.jobs
      · exact post_ret hw2.jobs
  · exact post_ret hw1.jobs

/-! ### What a request does if nothing fails -/

theorem sem_of_responds (h : Responds o w x w') : sem F o w (.ok x) w' :=
  ⟨w.now,le_refl _,h⟩

theorem ends_call (h : Responds o w x w') : (call o).Ends (sem F) w (.ok x) w' :=
  ends_perform (sem_of_responds h)

theorem ends_jobAppId (F : Faults) (w : World) (payload : Payload) :
    (jobAppId payload).Ends (sem F) w (.ok (appOfPayload w payload)) w := by
  unfold jobAppId appOfPayload
  cases payload.buildId with
  | some id => exact ends_call ⟨rfl,rfl⟩
  | none => exact ends_ret _

theorem ends_removeJob (F : Faults) (w : World) (id : String) :
    ∃ q, ((act (.removeJob id)).tryCatch fun _ => .ret ()).Ends (sem F) w (.ok ())
      { w with queue := q } ∧
      (w.queue.remove id = some q ∨ w.queue.remove id = none ∧ q = w.queue) := by
  cases hq : w.queue.remove id with
  | some q =>
    exact ⟨q,ends_tryCatch_ok (ends_bind (a := ()) (ends_call ⟨q,hq,rfl⟩) (ends_ret ())),.inl rfl⟩
  | none =>
    have hrefused : sem F (.removeJob id) w (.error (.other "")) w :=
      ⟨w.now,le_refl _,.inl ⟨.inr hq,rfl⟩⟩
    exact ⟨w.queue,ends_tryCatch (ends_bind_error (ends_perform hrefused)) (ends_ret ()),
      .inr ⟨rfl,rfl⟩⟩

theorem ends_round (F : Faults) (w : World) (appId : String) (j : Job Payload) :
    ∃ q, ((jobAppId j.data).bind fun owner =>
      if owner = some appId then (act (.removeJob j.id)).tryCatch fun _ => .ret ()
      else .ret ()).Ends (sem F) w (.ok ()) { w with queue := q } ∧
      (∀ k ∈ q.jobs, k ∈ w.queue.jobs) ∧
      (j ∈ w.queue.jobs → j.state.queued = true → appOfPayload w j.data = some appId →
        j ∉ q.jobs) := by
  by_cases hown : appOfPayload w j.data = some appId
  · obtain ⟨q,hends,hq⟩ := ends_removeJob F w j.id
    refine ⟨q,ends_bind (ends_jobAppId F w j.data) (by rw [if_pos hown]; exact hends),?_,?_⟩
    · rcases hq with hq | ⟨-,rfl⟩
      · exact fun k hk => ((Bull.mem_jobs_remove hq k).mp hk).1
      · exact fun k hk => hk
    · intro hj hqueued _
      rcases hq with hq | ⟨hq,-⟩
      · exact fun hmem => ((Bull.mem_jobs_remove hq j).mp hmem).2 rfl
      · have hfound : w.queue.getJob j.id = some j := Bull.getJob_eq_some_iff.mpr ⟨hj,rfl⟩
        simp only [Bull.remove,hfound,Option.any_some,ite_eq_left_iff,reduceCtorEq] at hq
        cases hs : j.state <;> simp_all [JobState.queued]
  · refine ⟨w.queue,ends_bind (ends_jobAppId F w j.data) (by rw [if_neg hown]; exact ends_ret ()),
      fun k hk => hk,fun _ _ h => absurd h hown⟩

theorem ends_loop (F : Faults) (w : World) (appId : String) (js : List (Job Payload)) :
    ∃ q, (forEach js fun j => (jobAppId j.data).bind fun owner =>
      if owner = some appId then (act (.removeJob j.id)).tryCatch fun _ => .ret ()
      else .ret ()).Ends (sem F) w (.ok ()) { w with queue := q } ∧
      (∀ k ∈ q.jobs, k ∈ w.queue.jobs) ∧
      ∀ j ∈ js, j.state.queued = true → appOfPayload w j.data = some appId → j ∉ q.jobs := by
  induction js generalizing w with
  | nil => exact ⟨w.queue,ends_ret (),fun _ h => h,fun _ h => absurd h List.not_mem_nil⟩
  | cons j js ih =>
    obtain ⟨q1,hround,hsub1,hgone⟩ := ends_round F w appId j
    obtain ⟨q,hrest,hsub,hothers⟩ := ih { w with queue := q1 }
    refine ⟨q,ends_bind hround hrest,fun k hk => hsub1 k (hsub k hk),?_⟩
    intro k hk hqueued hown
    rcases List.mem_cons.mp hk with rfl | hk
    · intro hmem
      have hq1 := hsub k hmem
      exact hgone (hsub1 k hq1) hqueued hown hq1
    · exact hothers k hk hqueued hown

theorem ends_cancelBuild (F : Faults) (h : CancelAccepted w userId appId buildId) :
    ∃ w', (cancelBuild userId appId buildId).Ends (sem F) w (.ok .ok) w' ∧
      ∀ j ∈ w.queue.jobs, j.state.queued = true → appOfPayload w j.data = some appId →
        j ∉ w'.queue.jobs := by
  obtain ⟨haccess,row,hrow,happ,hactive⟩ := h
  obtain ⟨q,hloop,-,hgone⟩ := ends_loop F w appId (w.queue.jobs.filter (·.state.unfinished))
  have hstatus : ((w.builds buildId).filter (·.appId = appId)).map (·.status) = some row.status := by
    simp [hrow,happ]
  have hremove : (removeJobs appId).Ends (sem F) w (.ok ()) { w with queue := q } :=
    ends_tryCatch_ok (ends_bind (ends_call ⟨rfl,rfl⟩) hloop)
  obtain ⟨w',hw'⟩ : ∃ w', Responds (.updateBuildStatus buildId .cancelled .finished)
      { w with queue := q } () w' := ⟨_,rfl⟩
  have hqueue : w'.queue = q := queue_updateBuildStatus (sem_of_responds (F := F) hw')
  refine ⟨w',ends_bind (ends_call ⟨haccess.symm,rfl⟩) ?_,?_⟩
  · refine ends_bind (ends_call ⟨hstatus.symm,rfl⟩) ?_
    dsimp only
    rw [if_pos hactive]
    exact ends_bind hremove (ends_bind (ends_call hw') (ends_ret _))
  · intro j hj hqueued hown
    rw [hqueue]
    refine hgone j (List.mem_filter.mpr ⟨hj,?_⟩) hqueued hown
    cases hs : j.state <;> simp_all [JobState.queued,JobState.unfinished]

/-- A request is confined to its build exactly if it is refused, or every removable job of the app
is for it. -/
theorem cancel_confined_iff (F : Faults) (w : World) (userId appId buildId : String) :
    (∀ out w', (cancelBuild userId appId buildId).Ends (sem F) w out w' → Confined buildId w w') ↔
    (CancelAccepted w userId appId buildId → OnlyJobsOf w appId buildId) := by
  constructor
  · intro hconfined haccepted j hj hqueued hown
    obtain ⟨w',hends,hgone⟩ := ends_cancelBuild F haccepted
    by_contra hne
    exact hgone j hj hqueued hown ((hconfined _ w' hends).jobs j hj hne)
  · intro honly out w' hends
    exact (post_cancelBuild honly).ends hends

namespace Shop

def pushJob : Job Payload := ⟨"deploy:shop:main",⟨some "b1",none,none,none,true⟩,.waiting,0,3⟩

def manualJob : Job Payload := ⟨"17",⟨some "b2",none,none,none,true⟩,.waiting,0,1⟩

def twoBuilds : World where
  now := 0
  builds := fun id => if id = "b1" ∨ id = "b2" then some ⟨"shop",.pending,none,0,none⟩ else none
  apps := fun _ => none
  access := fun _ _ => true
  routes := fun _ => none
  queue := ⟨[pushJob, manualJob],by decide⟩

end Shop

/-- Cancelling the build of the push takes the job of the other build with it, which stays pending. -/
theorem cancel_removes_other_job : ¬ ∀ (F : Faults) (w : World) (userId appId buildId : String)
      (out : Except DeployError CancelAnswer) (w' : World),
      (cancelBuild userId appId buildId).Ends (sem F) w out w' → Confined buildId w w' := by
  intro h
  have haccepted : CancelAccepted Shop.twoBuilds "ana" "shop" "b1" :=
    ⟨rfl,⟨"shop",.pending,none,0,none⟩,rfl,rfl,rfl⟩
  obtain ⟨w',hends,hgone⟩ := ends_cancelBuild ⟨fun _ _ => False,fun _ _ => False⟩ haccepted
  have hmem : Shop.manualJob ∈ Shop.twoBuilds.queue.jobs := by
    simp [Shop.twoBuilds]
  exact hgone Shop.manualJob hmem rfl rfl
    ((h _ _ _ _ _ _ _ hends).jobs Shop.manualJob hmem (by decide))

end Ploydok.Builds
