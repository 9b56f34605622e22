import Ploydok.Preview.Deploy

/-! A redeploy of a preview that fails. The new container is made, checked and dialled before the
old one goes; where both have one name, the clean-up after the failed `containerCreate` removes the
live one. -/

namespace Ploydok.Preview

open Effect Effect.Prog Ploydok.Runtime

structure World.Live (w : World) (name : String) (port : Nat) : Prop where
  container : w.docker.Live name
  route : w.route.map Route.target = some (.dial name port)

def Call.spares (name : String) : Call → Prop
  | .containerStop n | .containerRemove n => n ≠ name
  | _ => True

def Call.leavesRoute : Call → Prop
  | .upsertRoute _ | .removeRoute => False
  | _ => True

def Call.calm (name : String) (o : Call) : Prop := o.spares name ∧ o.leavesRoute

section Calm

variable {f : Faults} {w w' : World} {o : Call} {name : String} {port : Nat} {α : Type} {a : o.Res}
  {r : Except String o.Res}

theorem container_of_responds (ho : o.spares name) (hw : w.docker.Live name)
    (h : Responds o w a w') : w'.docker.Live name := by
  cases o with
  | containerCreate n image =>
    obtain ⟨docker,hcreate,rfl⟩ := h
    exact (hw.create hcreate).1
  | containerStart id =>
    obtain ⟨-,rfl⟩ := h
    exact hw.start _
  | containerStop n =>
    obtain ⟨-,rfl⟩ := h
    exact hw.stop (Docker.means_name _ n) ho.symm
  | containerRemove n =>
    obtain ⟨-,rfl⟩ := h
    exact hw.remove (Docker.means_name _ n) ho.symm
  | getPreviewDeployment | listExpiredPreviews => exact h.2 ▸ hw
  | takeTeardownJob =>
    obtain ⟨-,rfl⟩ := h
    exact hw
  | _ =>
    obtain rfl := h
    exact hw

theorem route_of_responds (ho : o.leavesRoute) (h : Responds o w a w') : w'.route = w.route := by
  cases o with
  | upsertRoute | removeRoute => exact ho.elim
  | containerCreate n image =>
    obtain ⟨docker,-,rfl⟩ := h
    rfl
  | containerStart | containerStop | containerRemove | takeTeardownJob =>
    obtain ⟨-,rfl⟩ := h
    rfl
  | getPreviewDeployment | listExpiredPreviews => rw [h.2]
  | _ =>
    obtain rfl := h
    rfl

theorem container_of_sem (ho : o.spares name)
    (hw : w.docker.Live name) (h : previewSem f o w r w') : w'.docker.Live name := by
  rcases responds_of_sem h with rfl | ⟨a,h⟩
  · exact hw
  · exact container_of_responds ho hw h

theorem route_of_sem (ho : o.leavesRoute) (h : previewSem f o w r w') : w'.route = w.route := by
  rcases responds_of_sem h with rfl | ⟨a,h⟩
  · rfl
  · exact route_of_responds ho h

theorem post_calm (hp : p.Calls (Call.calm name)) (hw : w.Live name port) :
    Post (previewSem f) p w fun _ w' => w'.Live name port :=
  post_of_calls hp (World.Live · name port) (fun _ _ _ _ ho hw h =>
    ⟨container_of_sem ho.1 hw.container h,(route_of_sem ho.2 h).symm ▸ hw.route⟩) hw

theorem calls_stopPreviewContainer (h : ref ≠ some name) :
    (stopPreviewContainer ref).Calls (Call.calm name) := by
  cases ref with
  | none => exact calls_ret _
  | some n =>
    have hn : n ≠ name := fun hn => h (congrArg some hn)
    refine calls_bind (calls_attempt (calls_perform ⟨hn,trivial⟩)) fun _ => ?_
    exact calls_bind (calls_attempt (calls_perform ⟨hn,trivial⟩)) fun _ => calls_ret _

theorem total_stopPreviewContainer (ref : Option String) : (stopPreviewContainer ref).Total := by
  cases ref with
  | none => trivial
  | some n => exact Prog.total_bind (Prog.total_attempt _) fun _ =>
      Prog.total_bind (Prog.total_attempt _) fun _ => trivial

end Calm

/-! ### Where a failed deploy leaves the preview live -/

/-- After a throw the preview is live, after a return `A` holds. -/
def OrLive (A : World → Prop) (name : String) (port : Nat) :
    Except String α → World → Prop
  | .ok _, w => A w
  | .error _, w => w.Live name port

/-- The route that `restorePreviousPreviewRoute` sets for a previous container. -/
def DeployJob.previousRoute (job : DeployJob) (preview : PreviewRow) (name : String) : Route :=
  ⟨preview.domain,.dial name (job.app.runtimePort.getD 3000)⟩

/-- A switch that throws has not been carried out, and one that cannot be recorded is undone. -/
def DeployJob.Returns (job : DeployJob) (f : Faults) (preview : PreviewRow) (name : String)
    (port : Nat) (newContainerRef : Option String) (route : Route) : Prop :=
  ¬ f.loses (.upsertRoute route) ∧
  (f.throws (.updatePreviewDeployment (recordPatch job newContainerRef)) →
    ¬ f.fails (.upsertRoute (job.previousRoute preview name)) ∧
      job.app.runtimePort.getD 3000 = port)

section Redeploy

variable {f : Faults} {w w' : World} {job : DeployJob} {preview : PreviewRow} {name : String}
  {port : Nat} {ref : Option String} {A : World → Prop} {α : Type} {p : PreviewProg α}

theorem post_failed (href : ref ≠ some name) (hw : w.Live name port) (e : String) :
    Post (previewSem f) (failed ref e : PreviewProg α) w (OrLive A name port) := by
  refine post_bind (fun _ w' => w'.Live name port) (post_calm (calls_perform ⟨trivial,trivial⟩) hw) ?_
    fun _ _ h => h
  intro _ w1 hw1
  refine post_bind (fun _ w' => w'.Live name port)
    (post_calm (calls_stopPreviewContainer href) hw1) ?_ fun _ _ h => h
  exact fun _ _ hw2 => post_throw hw2

theorem post_guarded (href : ref ≠ some name) (hp : Post (previewSem f) p w (OrLive A name port)) :
    Post (previewSem f) (p.tryCatch (failed ref)) w (OrLive A name port) :=
  post_tryCatch _ hp (fun _ _ h => h) fun e _ h => post_failed href h e

theorem post_stages_orLive (hw : w.Live name port) (hp : p.Calls (Call.isStage · = true)) :
    Post (previewSem f) p w (OrLive (· = w) name port) := by
  refine post_mono (post_stages hp) ?_
  rintro out _ rfl
  cases out with
  | ok a => rfl
  | error e => exact hw

theorem restore_eq (hprevious : truthy preview.containerId = some name) :
    restorePreviousPreviewRoute job preview =
      call (.upsertRoute (job.previousRoute preview name)) := by
  rw [restorePreviousPreviewRoute,hprevious]
  rfl

theorem post_restore (hprevious : truthy preview.containerId = some name)
    (hw : w.docker.Live name) (hfails : ¬ f.fails (.upsertRoute (job.previousRoute preview name)))
    (hport : job.app.runtimePort.getD 3000 = port) :
    Post (previewSem f) (restorePreviousPreviewRoute job preview) w
      (OrLive (World.Live · name port) name port) := by
  rw [restore_eq hprevious]
  have hset : ∀ w', Responds (.upsertRoute (job.previousRoute preview name)) w () w' →
      w'.Live name port := by
    rintro w' rfl
    exact ⟨hw,by simp [DeployJob.previousRoute,hport]⟩
  refine post_perform fun r w' hr => ?_
  cases r with
  | ok a => exact hset w' hr
  | error e =>
    rcases hr with ⟨hfail | hstuck,-⟩ | ⟨-,a,hr⟩
    · exact (hfails hfail).elim
    · exact (hstuck ⟨(),_,rfl⟩).elim
    · exact hset w' hr

theorem post_switchOver (href : ref ≠ some name)
    (hprevious : truthy preview.containerId = some name) (hrest : rest.Total)
    (hswitch : Post (previewSem f) switch w (OrLive (fun w' => w'.docker.Live name ∧
      (f.throws (.updatePreviewDeployment (recordPatch job ref)) →
        ¬ f.fails (.upsertRoute (job.previousRoute preview name)) ∧
          job.app.runtimePort.getD 3000 = port)) name port)) :
    Post (previewSem f) (switchOver job preview ref switch rest) w
      (OrLive (fun _ => True) name port) := by
  refine post_bind _ (post_guarded href hswitch) ?_ fun _ _ h => h
  rintro - w1 ⟨hlive,hreturns⟩
  refine post_attempt_bind (fun r w' => w'.docker.Live name ∧ ∀ e, r = .error e →
      f.throws (.updatePreviewDeployment (recordPatch job ref)))
    (post_perform fun r w' hr =>
      ⟨container_of_sem (o := .updatePreviewDeployment _) trivial hlive hr,?_⟩) ?_
  · rintro e rfl
    exact throws_of_sem hr ⟨(),_,rfl⟩
  rintro recorded w2 ⟨hlive2,hthrows⟩
  cases recorded with
  | ok _ =>
    refine post_mono (hrest.post w2) fun out w' hout => ?_
    obtain ⟨a,rfl⟩ := hout
    trivial
  | error e =>
    obtain ⟨hfails,hport⟩ := hreturns (hthrows e rfl)
    refine post_bind _ (post_guarded href (post_restore hprevious hlive2 hfails hport)) ?_
      fun _ _ h => h
    intro _ w3 hw3
    refine post_bind (fun _ w' => w'.Live name port)
      (post_calm (calls_stopPreviewContainer href) hw3) ?_ fun _ _ h => h
    exact fun _ w4 hw4 => post_failed (by simp) hw4 e

theorem post_upsertRoute (hw : w.Live name port) (hloses : ¬ f.loses (.upsertRoute route))
    (hA : ∀ w', w'.docker.Live name → A w') :
    Post (previewSem f) (call (.upsertRoute route)) w (OrLive A name port) := by
  refine post_perform fun r w' hr => ?_
  cases r with
  | ok a =>
    obtain rfl := hr
    exact hA _ hw.container
  | error e =>
    rcases hr with ⟨-,rfl⟩ | ⟨hlost,-⟩
    · exact hw
    · exact (hloses hlost).elim

theorem post_publish (hw : w.Live name port)
    (hloses : ¬ f.loses (.upsertRoute ⟨preview.domain,.files⟩))
    (hA : ∀ w', w'.docker.Live name → A w') :
    Post (previewSem f) (publish preview) w (OrLive A name port) := by
  refine post_bind _ (post_stages (calls_stage _)) ?_ ?_
  · rintro _ w1 rfl
    exact post_upsertRoute hw hloses hA
  · rintro e w1 rfl
    exact hw

theorem calls_waitForPreviewHealth (id retries : Nat) :
    (waitForPreviewHealth id retries).Calls (Call.calm name) := by
  induction retries with
  | zero => exact calls_ret _
  | succ retries ih =>
    refine calls_bind (calls_perform ⟨trivial,trivial⟩) fun health => ?_
    cases health with
    | healthy | missing | unavailable => exact calls_ret _
    | starting | unhealthy => exact ih

theorem post_launch (hw : w.Live name port)
    (hswitch : w.docker.has (.name job.containerName) = true ∨ job.retries = 0 ∨
      ¬ f.loses (.upsertRoute ⟨preview.domain,.dial job.containerName job.runtimePort⟩) ∧
        ∀ w', w'.docker.Live name → A w') :
    Post (previewSem f) (launch job preview) w (OrLive A name port) := by
  refine post_bind (fun out w' => w'.Live name port ∧
      ∀ id, out = .ok id → w.docker.has (.name job.containerName) = false)
    (post_perform fun r w' hr => ⟨?_,?_⟩) ?_ fun _ _ h => h.1
  · exact ⟨container_of_sem (o := .containerCreate _ _) trivial hw.container hr,
      route_of_sem (o := .containerCreate _ _) trivial hr ▸ hw.route⟩
  · rintro id rfl
    obtain ⟨docker,hcreate,-⟩ := hr
    exact (Docker.create?_eq_some hcreate).1
  rintro id w1 ⟨hw1,hfree⟩
  refine post_bind (fun _ w' => w'.Live name port)
    (post_calm (calls_perform ⟨trivial,trivial⟩) hw1) ?_ fun _ _ h => h
  intro _ w2 hw2
  refine post_bind (fun out w' => w'.Live name port ∧
      ∀ healthy, out = .ok healthy → healthy = true → job.retries ≠ 0) ?_ ?_ fun _ _ h => h.1
  · cases job.retries with
    | zero => exact post_ret ⟨hw2,fun healthy hout => by cases hout; simp⟩
    | succ retries =>
      exact post_mono (post_calm (calls_waitForPreviewHealth _ _) hw2) fun _ _ h =>
        ⟨h,fun _ _ _ => Nat.succ_ne_zero _⟩
  rintro healthy w3 ⟨hw3,hretries⟩
  split
  · next hhealthy =>
    rcases hswitch with hhas | hzero | ⟨hloses,hA⟩
    · cases hhas.symm.trans (hfree id rfl)
    · exact (hretries healthy rfl hhealthy hzero).elim
    · exact post_upsertRoute hw3 hloses hA
  · exact post_throw hw3

theorem eq_of_check {p : PreviewRow} (h : job.check (some preview) = .ok p) : p = preview := by
  dsimp only [DeployJob.check] at h
  split_ifs at h
  exact (Except.ok.inj h).symm

theorem post_buildPreview (hw : w.Live name port) :
    Post (previewSem f) ((buildPreview job).tryCatch (failed none)) w
      (OrLive (fun w' => w'.Live name port ∧ w'.docker = w.docker) name port) := by
  refine post_guarded (by simp) ?_
  refine post_bind (fun _ w' => w'.Live name port ∧ w'.docker = w.docker)
    (post_perform fun r w' hr => ?_) ?_ fun _ _ h => h.1
  · rcases responds_of_sem hr with rfl | ⟨_,hr⟩
    · exact ⟨hw,rfl⟩
    · obtain rfl := hr
      exact ⟨⟨hw.container,hw.route⟩,rfl⟩
  · rintro _ w1 ⟨hw1,hdocker⟩
    refine post_mono (post_stages_orLive hw1 (calls_checkoutAndDetect job)) ?_
    intro out w2 h
    cases out with
    | ok a =>
      obtain rfl := h
      exact ⟨hw1,hdocker⟩
    | error e => exact h

/-- The deploy is refused before its first write, or switches over in a way that is undone, for a
static build or a container of another name. Where the name is taken, or no health check is made,
the route is not switched. -/
def DeployJob.Spares (job : DeployJob) (f : Faults) (w : World) (preview : PreviewRow)
    (name : String) (port : Nat) : Prop :=
  (job.check (some preview)).isOk = false ∨
  if job.checkout.method = .static then
    job.Returns f preview name port none ⟨preview.domain,.files⟩
  else
    job.containerName ≠ name ∧
    (w.docker.has (.name job.containerName) = true ∨ job.retries = 0 ∨
      job.Returns f preview name port (some job.containerName)
        ⟨preview.domain,.dial job.containerName job.runtimePort⟩)

theorem post_deployChecked (hprevious : truthy preview.containerId = some name)
    (hw : w.Live name port)
    (hspares : job.Spares f w preview name port) (hok : (job.check (some preview)).isOk = true) :
    Post (previewSem f) (deployChecked job preview) w (OrLive (fun _ => True) name port) := by
  have hspares := hspares.resolve_left (by simp [hok])
  refine post_bind _ (post_buildPreview hw) ?_ fun _ _ h => h
  rintro _ w1 ⟨hw1,hdocker⟩
  split
  · next hstatic =>
    rw [if_pos hstatic] at hspares
    refine post_switchOver (by simp) hprevious ?_
      (post_publish hw1 hspares.1 fun _ hlive => ⟨hlive,hspares.2⟩)
    exact Prog.total_bind (total_stopPreviewContainer _) fun _ =>
      Prog.total_bind (Prog.total_attempt _) fun _ => trivial
  · next hstatic =>
    rw [if_neg hstatic] at hspares
    obtain ⟨hname,hswitch⟩ := hspares
    have href : some job.containerName ≠ some name := fun h => hname (Option.some.inj h)
    refine post_bind (OrLive (· = w1) name port) (post_guarded (by simp) ?_) ?_ fun _ _ h => h
    · exact post_stages_orLive hw1 (calls_prepareImage job)
    · rintro _ w2 rfl
      refine post_switchOver href hprevious ?_ (post_launch hw1 ?_)
      · unfold stopPrevious
        split
        · trivial
        · exact total_stopPreviewContainer _
      · rw [hdocker]
        exact hswitch.imp_right (Or.imp_right fun h => ⟨h.1,fun _ hlive => ⟨hlive,h.2⟩⟩)

/-! ### How a failed deploy loses the preview -/

variable {w1 : World} {e : String} {switch rest : PreviewProg Unit} {route : Route}

theorem ends_stopPreviewContainer (f : Faults) (ref : Option String) (w : World) :
    ∃ w', (stopPreviewContainer ref).Ends (previewSem f) w (.ok ()) w' ∧ w'.route = w.route := by
  cases ref with
  | none => exact ⟨w,ends_ret (),rfl⟩
  | some n =>
    obtain ⟨r1,w1,h1⟩ := exists_sem f (.containerStop n) w
    obtain ⟨r2,w2,h2⟩ := exists_sem f (.containerRemove n) w1
    refine ⟨w2,ends_bind (ends_attempt (ends_perform h1)) <|
      ends_bind (ends_attempt (ends_perform h2)) (ends_ret ()),?_⟩
    exact (route_of_sem (o := .containerRemove n) trivial h2).trans
      (route_of_sem (o := .containerStop n) trivial h1)

theorem ends_update (patch : Patch) (w : World) :
    (call (.updatePreviewDeployment patch)).Ends (previewSem f) w (.ok ())
      { w with row := w.row.map patch.apply } :=
  ends_call rfl

theorem ends_failed (α : Type) (f : Faults) (ref : Option String) (e : String) (w : World) :
    ∃ w', (failed ref e : PreviewProg α).Ends (previewSem f) w (.error e) w' ∧ w'.route = w.route := by
  obtain ⟨w',hstop,hroute⟩ := ends_stopPreviewContainer f ref
    { w with row := w.row.map (Patch.ofStatus .failed).apply }
  exact ⟨w',ends_bind (ends_update _ w) (ends_bind hstop (ends_throw e)),hroute⟩

theorem ends_switchOver_of_error (job : DeployJob) (preview : PreviewRow) (ref : Option String)
    (rest : PreviewProg Unit) (h : switch.Ends (previewSem f) w (.error e) w1) :
    ∃ w', (switchOver job preview ref switch rest).Ends (previewSem f) w (.error e) w' ∧
      w'.route = w1.route := by
  obtain ⟨w',hfailed,hroute⟩ := ends_failed Unit f ref e w1
  exact ⟨w',ends_bind_error (ends_tryCatch h hfailed),hroute⟩

theorem ends_switchOver_of_record (h : switch.Ends (previewSem f) w (.ok ()) w1)
    (hthrows : f.throws (.updatePreviewDeployment (recordPatch job ref)))
    (hrestore : ∀ w2 : World, w2.route = w1.route → ∃ w3,
      (restorePreviousPreviewRoute job preview).Ends (previewSem f) w2 r w3 ∧ w3.route = target) :
    ∃ e w', (switchOver job preview ref switch rest).Ends (previewSem f) w (.error e) w' ∧
      w'.route = target := by
  have hrecord : ∃ w2, previewSem f (.updatePreviewDeployment (recordPatch job ref)) w1
      (.error "") w2 ∧ w2.route = w1.route := by
    rcases hthrows with hfails | hloses
    · exact ⟨w1,.inl ⟨.inl hfails,rfl⟩,rfl⟩
    · exact ⟨_,.inr ⟨hloses,(),rfl⟩,rfl⟩
  obtain ⟨w2,hrecord,hroute2⟩ := hrecord
  obtain ⟨w3,hrestore,hroute3⟩ := hrestore w2 hroute2
  have hbefore := ends_tryCatch_ok (h := failed ref) h
  have hattempt := ends_attempt (ends_perform hrecord)
  cases r with
  | error e =>
    obtain ⟨w',hfailed,hroute⟩ := ends_failed Unit f ref e w3
    exact ⟨e,w',ends_bind hbefore (ends_bind hattempt
      (ends_bind_error (ends_tryCatch hrestore hfailed))),hroute.trans hroute3⟩
  | ok a =>
    obtain ⟨w4,hstop,hroute4⟩ := ends_stopPreviewContainer f ref w3
    obtain ⟨w',hfailed,hroute⟩ := ends_failed Unit f none "" w4
    exact ⟨"",w',ends_bind hbefore (ends_bind hattempt
      (ends_bind (ends_tryCatch_ok hrestore) (ends_bind hstop hfailed))),
      hroute.trans (hroute4.trans hroute3)⟩

theorem returns_of_ends (hprevious : truthy preview.containerId = some name)
    (htarget : route.target ≠ .dial name port)
    (hswitch : ∃ w1, ∀ r w2, previewSem f (.upsertRoute route) w1 r w2 →
      switch.Ends (previewSem f) w r w2)
    (hkept : ∀ e w', (switchOver job preview ref switch rest).Ends (previewSem f) w (.error e) w' →
      w'.Live name port) : job.Returns f preview name port ref route := by
  obtain ⟨w1,hswitch⟩ := hswitch
  -- no failed run may end with the route of the switch
  have hnot : ∀ e w', (switchOver job preview ref switch rest).Ends (previewSem f) w (.error e) w' →
      w'.route ≠ some route := by
    intro e w' hends hroute
    have hlive := (hkept e w' hends).route
    rw [hroute] at hlive
    exact htarget (Option.some.inj hlive)
  have hswitched := hswitch (.ok ()) { w1 with route := some route } rfl
  have hrestore : ∀ w2 r w3, previewSem f (.upsertRoute (job.previousRoute preview name)) w2 r w3 →
      (restorePreviousPreviewRoute job preview).Ends (previewSem f) w2 r w3 := by
    rw [restore_eq hprevious]
    exact fun _ _ _ => ends_perform
  refine ⟨fun hloses => ?_,fun hthrows => ⟨fun hfails => ?_,?_⟩⟩
  · obtain ⟨w',hends,hroute⟩ := ends_switchOver_of_error job preview ref rest
      (hswitch (.error "") _ (.inr ⟨hloses,(),rfl⟩))
    exact hnot _ w' hends hroute
  · obtain ⟨e,w',hends,hroute⟩ := ends_switchOver_of_record hswitched hthrows
      fun w2 hroute => ⟨w2,hrestore w2 (.error "") w2 (.inl ⟨.inl hfails,rfl⟩),hroute⟩
    exact hnot e w' hends hroute
  · obtain ⟨e,w',hends,hroute⟩ := ends_switchOver_of_record hswitched hthrows
      fun w2 _ => ⟨_,hrestore w2 (.ok ()) _ rfl,rfl⟩
    have hlive := (hkept e w' hends).route
    rw [hroute] at hlive
    exact (Target.dial.inj (Option.some.inj hlive)).2

theorem ends_launch (hfree : w.docker.has (.name job.containerName) = false)
    (hretries : job.retries ≠ 0) : ∃ w1, ∀ r w2,
    previewSem f (.upsertRoute ⟨preview.domain,.dial job.containerName job.runtimePort⟩) w1 r w2 →
      (launch job preview).Ends (previewSem f) w r w2 := by
  obtain ⟨id,docker,hcreate⟩ := Docker.exists_create hfree job.checkout.imageRef
  obtain ⟨retries,hsucc⟩ := Nat.exists_eq_succ_of_ne_zero hretries
  have hhas := (Docker.owns_create hcreate).has
  refine ⟨{ w with docker := docker.setRunning (.id id) true },fun r w2 h => ?_⟩
  have hcreated : (call (.containerCreate job.containerName job.checkout.imageRef)).Ends
      (previewSem f) w (.ok id) { w with docker := docker } :=
    ends_call ⟨docker,hcreate,rfl⟩
  have hstarted : (call (.containerStart id)).Ends (previewSem f) { w with docker := docker }
      (.ok ()) { w with docker := docker.setRunning (.id id) true } :=
    ends_call ⟨hhas,rfl⟩
  have hhealthy : (waitForPreviewHealth id job.retries).Ends (previewSem f)
      { w with docker := docker.setRunning (.id id) true } (.ok true)
      { w with docker := docker.setRunning (.id id) true } := by
    rw [hsucc]
    exact ends_bind (a := Health.healthy) (ends_call (o := .inspectContainerHealth id) rfl)
      (ends_ret true)
  exact ends_bind hcreated <| ends_bind hstarted <| ends_bind hhealthy (ends_perform h)

theorem ends_launch_taken (f : Faults) (preview : PreviewRow) (rest : PreviewProg Unit)
    (hw : w.Live name port) (hname : job.containerName = name) :
    ∃ e w', (switchOver job preview (some job.containerName) (launch job preview) rest).Ends
      (previewSem f) w (.error e) w' ∧ ¬ w'.docker.Live name := by
  have hstuck : ¬ ∃ id w', Responds (.containerCreate job.containerName job.checkout.imageRef)
      w id w' := by
    rintro ⟨id,w',docker,hcreate,-⟩
    have hfree := (Docker.create?_eq_some hcreate).1
    rw [hname,hw.container.has] at hfree
    cases hfree
  have hlaunch : (launch job preview).Ends (previewSem f) w (.error "") w :=
    ends_bind_error (ends_perform (.inl ⟨.inr hstuck,rfl⟩))
  obtain ⟨r,w',hremove⟩ := exists_sem f (.containerRemove name) { w with
      row := w.row.map (Patch.ofStatus .failed).apply
      docker := w.docker.setRunning (.name name) false }
  have hgone : ¬ w'.docker.Live name := by
    intro hlive
    rcases responds_of_sem hremove with rfl | ⟨_,-,rfl⟩
    · exact Docker.not_live_stop _ _ hlive
    · exact Docker.not_live_stop _ _ hlive.of_remove
  have hfailed : (failed (some name) "" : PreviewProg Unit).Ends (previewSem f) w (.error "") w' := by
    have hstopped : (call (.containerStop name)).Ends (previewSem f)
        { w with row := w.row.map (Patch.ofStatus .failed).apply } (.ok ()) _ :=
      ends_call ⟨hw.container.has,rfl⟩
    have hstop : (stopPreviewContainer (some name)).Ends (previewSem f)
        { w with row := w.row.map (Patch.ofStatus .failed).apply } (.ok ()) w' :=
      ends_bind (ends_attempt hstopped) <|
        ends_bind (ends_attempt (ends_perform hremove)) (ends_ret ())
    exact ends_bind (ends_update _ w) (ends_bind hstop (ends_throw ""))
  rw [hname]
  exact ⟨"",w',ends_bind_error (ends_tryCatch hlaunch hfailed),hgone⟩

def World.building (w : World) (job : DeployJob) : World :=
  { w with row := w.row.map (Patch.mk (some job.headSha) (some .building) none).apply }

theorem ends_handlePreviewDeploy (hrow : w.row = some preview)
    (hcheck : job.check (some preview) = .ok preview)
    (h : (if job.checkout.method = .static then deployStatic job preview
      else deployContainer job preview).Ends (previewSem f) (w.building job) out w') :
    (handlePreviewDeploy job).Ends (previewSem f) w out w' := by
  have hbuild : (buildPreview job).Ends (previewSem f) w (.ok ()) (w.building job) :=
    ends_bind (ends_update _ w) (ends_checkoutAndDetect job)
  have hread : (call .getPreviewDeployment).Ends (previewSem f) w (.ok (some preview)) w :=
    ends_call ⟨hrow.symm,rfl⟩
  refine ends_bind (ends_stage _) (ends_bind hread ?_)
  rw [hcheck]
  exact ends_bind (ends_tryCatch_ok hbuild) h

theorem spares_of_static (hprevious : truthy preview.containerId = some name)
    (hkept : ∀ e w', (deployStatic job preview).Ends (previewSem f) w (.error e) w' →
      w'.Live name port) : job.Returns f preview name port none ⟨preview.domain,.files⟩ := by
  unfold deployStatic at hkept
  exact returns_of_ends hprevious (by simp)
    ⟨w,fun _ _ h => ends_bind (ends_stage _) (ends_perform h)⟩ hkept

theorem spares_of_container (hprevious : truthy preview.containerId = some name)
    (hw : w.Live name port)
    (hkept : ∀ e w', (deployContainer job preview).Ends (previewSem f) w (.error e) w' →
      w'.Live name port) :
    job.containerName ≠ name ∧
    (w.docker.has (.name job.containerName) = true ∨ job.retries = 0 ∨
      job.Returns f preview name port (some job.containerName)
        ⟨preview.domain,.dial job.containerName job.runtimePort⟩) := by
  have hkept' : ∀ e w', (switchOver job preview (some job.containerName) (launch job preview)
      (stopPrevious job preview)).Ends (previewSem f) w (.error e) w' → w'.Live name port :=
    fun e w' h => hkept e w' (ends_bind (ends_tryCatch_ok (ends_prepareImage job)) h)
  have hname : job.containerName ≠ name := by
    intro hname
    obtain ⟨e,w',hends,hgone⟩ := ends_launch_taken f preview (stopPrevious job preview) hw hname
    exact hgone (hkept' e w' hends).container
  refine ⟨hname,?_⟩
  by_cases htaken : w.docker.has (.name job.containerName) = true
  · exact .inl htaken
  by_cases hretries : job.retries = 0
  · exact .inr (.inl hretries)
  refine .inr (.inr (returns_of_ends hprevious ?_ (ends_launch ?_ hretries) hkept'))
  · simp [hname]
  · simpa using htaken

end Redeploy

theorem post_handlePreviewDeploy (hrow : w.row = some preview)
    (hprevious : truthy preview.containerId = some name) (hw : w.Live name port)
    (hspares : job.Spares f w preview name port) :
    Post (previewSem f) (handlePreviewDeploy job) w (OrLive (fun _ => True) name port) := by
  refine post_bind _ (post_stages_orLive hw (calls_stage _)) ?_ fun _ _ h => h
  rintro _ w1 rfl
  refine post_bind _ post_getPreviewDeployment ?_ ?_
  · rintro row w2 ⟨rfl,hread⟩
    obtain rfl := (hread row rfl).trans hrow
    cases hcheck : job.check (some preview) with
    | error e => exact post_throw hw
    | ok p =>
      obtain rfl := eq_of_check hcheck
      exact post_deployChecked hprevious hw hspares (by rw [hcheck]; rfl)
  · rintro e w2 ⟨rfl,-⟩
    exact hw

/-- A deploy that throws, at whatever call, leaves the preview live exactly if the job spares it. -/
theorem failed_redeploy_keeps_preview_iff (f : Faults) (job : DeployJob) (w : World)
    (preview : PreviewRow) (name : String) (port : Nat) (hrow : w.row = some preview)
    (hprevious : truthy preview.containerId = some name) (hw : w.Live name port) :
    (∀ e w', (handlePreviewDeploy job).Ends (previewSem f) w (.error e) w' → w'.Live name port) ↔
      job.Spares f w preview name port := by
  constructor
  · intro hkept
    cases hcheck : job.check (some preview) with
    | error e => exact .inl (by rw [hcheck]; rfl)
    | ok p =>
      obtain rfl := eq_of_check hcheck
      refine .inr ?_
      split
      · next hstatic =>
        refine spares_of_static (w := w.building job) hprevious
          fun e w' hends => hkept e w' (ends_handlePreviewDeploy hrow hcheck ?_)
        rw [if_pos hstatic]
        exact hends
      · next hstatic =>
        refine spares_of_container (w := w.building job) hprevious ⟨hw.container,hw.route⟩
          fun e w' hends => hkept e w' (ends_handlePreviewDeploy hrow hcheck ?_)
        rw [if_neg hstatic]
        exact hends
  · intro hspares e w' hends
    exact (post_handlePreviewDeploy hrow hprevious hw hspares).ends hends

/-! ### A preview of a shop -/

namespace Shop

def noFaults : Faults := ⟨fun _ => False,fun _ => False⟩

def app : AppForPreview where
  id := "shop"
  gitProvider := some "github"
  repoFullName := some "acme/shop"
  branch := some "main"
  buildMethod := some "docker"
  runtimePort := some 3000
  previewEnabled := true
  healthcheckRetries := none

def job (sha : String) : DeployJob where
  app := app
  prNumber := 7
  headSha := sha
  checkout := ⟨sha,.docker,.other,none,"registry/preview-app-shop:" ++ sha⟩

def preview : PreviewRow where
  headSha := "a1b2c3d"
  domain := "pr-7.preview.shop"
  containerId := some (job "a1b2c3d").containerName
  status := .running

def docker : Docker where
  containers := [⟨0,(job "a1b2c3d").containerName,(job "a1b2c3d").checkout.imageRef,true⟩]
  nextId := 1
  id_lt := by simp
  ids := by simp
  names := by simp

def world : World where
  docker := docker
  row := some preview
  route := some ⟨preview.domain,.dial (job "a1b2c3d").containerName 3000⟩
  jobs := []

theorem live_world : world.Live (job "a1b2c3d").containerName 3000 :=
  ⟨⟨_,List.mem_singleton.mpr rfl,rfl,rfl⟩,rfl⟩

theorem truthy_preview :
    truthy preview.containerId = some (job "a1b2c3d").containerName := by decide +kernel

theorem spares_job :
    (job "d4e5f6a").Spares noFaults world preview (job "a1b2c3d").containerName 3000 := by
  have hname : (job "d4e5f6a").containerName ≠ (job "a1b2c3d").containerName := by decide +kernel
  have hthrows : ∀ o, ¬ noFaults.throws o := fun _ h => h.elim id id
  exact .inr ⟨hname,.inr (.inr ⟨id,fun h => (hthrows _ h).elim⟩)⟩

end Shop

open Shop

theorem failed_redeploy_keeps_preview_shop : (job "d4e5f6a").Spares noFaults world preview
      (job "a1b2c3d").containerName 3000 ∧
    ∀ e w', (handlePreviewDeploy (job "d4e5f6a")).Ends (previewSem noFaults) world
      (.error e) w' → w'.Live (job "a1b2c3d").containerName 3000 :=
  ⟨spares_job,(failed_redeploy_keeps_preview_iff noFaults (job "d4e5f6a")
    world preview _ 3000 rfl truthy_preview live_world).mpr spares_job⟩

/-- A redelivered event deploys the live commit again: the name is taken, and the clean-up removes
the live container. -/
theorem redelivered_deploy_loses_preview :
    ¬ ∀ (f : Faults) (job : DeployJob) (w : World) (preview : PreviewRow) (name : String)
      (port : Nat), w.row = some preview → truthy preview.containerId = some name →
      w.Live name port → ∀ e w',
        (handlePreviewDeploy job).Ends (previewSem f) w (.error e) w' → w'.Live name port := by
  intro hclaim
  have hkept := hclaim noFaults (job "a1b2c3d") world preview _ 3000 rfl truthy_preview live_world
  have hlive : (world.building (job "a1b2c3d")).Live
      (job "a1b2c3d").containerName 3000 := ⟨live_world.container,live_world.route⟩
  refine (spares_of_container (f := noFaults) truthy_preview hlive ?_).1 rfl
  intro e w' hends
  exact hkept e w' (ends_handlePreviewDeploy rfl rfl hends)

end Ploydok.Preview
