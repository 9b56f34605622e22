import Ploydok.Swarm.Deploy

/-! A deploy after one that failed. The networks and attachments of the first deploy do no harm to
the next one; but a service that was created stays, and the next deploy creates it again unless
the row names it. -/

namespace Ploydok.Swarm

open Effect Effect.Prog

/-! ### What a deploy leaves -/

structure Kept (w w' : World) : Prop where
  projects : w'.projects = w.projects
  volumes : w'.volumes = w.volumes
  databases : w'.databases = w.databases
  containers : w'.containers = w.containers
  caddy : w'.caddy = w.caddy
  accepts : w'.accepts = w.accepts
  services : ∀ name, w.hasService name = true → w'.hasService name = true

theorem Kept.refl (w : World) : Kept w w := ⟨rfl,rfl,rfl,rfl,rfl,rfl,fun _ h => h⟩

variable {w1 : World}

theorem Kept.trans (h : Kept w1 w2) (h' : Kept w2 w3) : Kept w1 w3 where
  projects := h'.projects.trans h.projects
  volumes := h'.volumes.trans h.volumes
  databases := h'.databases.trans h.databases
  containers := h'.containers.trans h.containers
  caddy := h'.caddy.trans h.caddy
  accepts := h'.accepts.trans h.accepts
  services name hname := h'.services name (h.services name hname)

theorem hasService_map (w : World) (spec : ServiceSpec) (name : String) :
    { w with services := w.services.map fun (s : ServiceSpec) =>
      if s.name = spec.name then spec else s }.hasService name = w.hasService name := by
  unfold World.hasService
  rw [List.any_map]
  congr 1
  funext s
  by_cases hs : s.name = spec.name
  · simp [hs]
  · simp [hs]

theorem kept_serve (o : Call) (w : World) : Kept w (serve o w).2 := by
  cases o <;> simp only [serve] <;> try exact Kept.refl w
  case networkCreate name =>
    split
    · exact Kept.refl w
    · exact ⟨rfl,rfl,rfl,rfl,rfl,rfl,fun _ h => h⟩
  case networkConnect network container aliases =>
    split
    · exact Kept.refl w
    · split
      · exact Kept.refl w
      · exact ⟨rfl,rfl,rfl,rfl,rfl,rfl,fun _ h => h⟩
  case serviceCreate spec =>
    split
    · exact Kept.refl w
    · split
      · exact Kept.refl w
      · exact ⟨rfl,rfl,rfl,rfl,rfl,rfl,fun _ h => by simp_all [World.hasService]⟩
  case serviceUpdateImage spec =>
    split
    · exact Kept.refl w
    · split
      · exact Kept.refl w
      · exact ⟨rfl,rfl,rfl,rfl,rfl,rfl,fun name h => (hasService_map w spec name).trans h⟩
  case listServiceTasks name => exact ⟨rfl,rfl,rfl,rfl,rfl,rfl,fun _ h => h⟩
  case setUpstream domain host port => exact ⟨rfl,rfl,rfl,rfl,rfl,rfl,fun _ h => h⟩
  case updateApp name => exact ⟨rfl,rfl,rfl,rfl,rfl,rfl,fun _ h => h⟩

variable {o : Call} {w' : World}

theorem Kept.step (h : faultySem o w r w') : Kept w w' := by
  rcases h with h | ⟨e,-,rfl | rfl⟩
  · have hw' : w' = (serve o w).2 := (congrArg Prod.snd h).symm
    rw [hw']
    exact kept_serve o w
  · exact Kept.refl _
  · exact kept_serve o _

theorem row_serve (ho : o.stage ≠ .record) (w : World) : (serve o w).2.row = w.row := by
  cases o <;> simp only [serve] <;> try rfl
  case networkCreate name => split_ifs <;> rfl
  case networkConnect network container aliases => split_ifs <;> rfl
  case serviceCreate spec => split_ifs <;> rfl
  case serviceUpdateImage spec => split_ifs <;> rfl
  case updateApp name => exact absurd rfl ho

theorem row_step (ho : o.stage ≠ .record) (h : faultySem o w r w') : w'.row = w.row := by
  rcases h with h | ⟨e,-,rfl | rfl⟩
  · have hw' : w' = (serve o w).2 := (congrArg Prod.snd h).symm
    rw [hw']
    exact row_serve ho w
  · rfl
  · exact row_serve ho _

structure Unrecorded (w w' : World) : Prop extends Kept w w' where
  row : w'.row = w.row

section Deploy

variable {α : Type} {w : World}

theorem post_unrecorded (hstage : stage ≠ .record) (hp : p.Calls (Call.stage · = stage))
    (h : Unrecorded w w1) : Post faultySem p w1 fun _ w' => Unrecorded w w' := by
  refine post_of_calls hp (Unrecorded w) ?_ h
  intro o w2 r w3 ho h2 hstep
  exact ⟨h2.toKept.trans (Kept.step hstep),(row_step (ho ▸ hstage) hstep).trans h2.row⟩

theorem post_createOrUpdateService (app : AppRow) (spec : ServiceSpec) (h : Unrecorded w w1) :
    Post faultySem (createOrUpdateService app spec) w1 fun out w' =>
      Unrecorded w w' ∧ (out = .ok () → w'.hasService spec.name = true) := by
  intro tr out w' hrun
  refine ⟨post_unrecorded (by decide) (calls_createOrUpdateService app spec) h _ _ _ hrun,?_⟩
  rintro rfl
  unfold createOrUpdateService at hrun
  split_ifs at hrun
  · obtain ⟨hserve | ⟨e,he,-⟩,-⟩ := runs_perform.mp hrun
    · simp only [serve] at hserve
      split_ifs at hserve with haccepts hservice
      · cases hserve
        exact (hasService_map w1 spec spec.name).trans hservice
      all_goals cases hserve
    · cases he
  · obtain ⟨hserve | ⟨e,he,-⟩,-⟩ := runs_perform.mp hrun
    · simp only [serve] at hserve
      split_ifs at hserve with haccepts hservice
      · cases hserve
      · cases hserve
        simp [World.hasService]
      all_goals cases hserve
    · cases he

structure Left (w w' : World) : Prop extends Kept w w' where
  row : w'.row = w.row ∨ ∃ app, w.row = some app ∧
    w'.row = some (app.live app.serviceName) ∧ w'.hasService app.serviceName = true

theorem Unrecorded.left (h : Unrecorded w w') : Left w w' := ⟨h.toKept,.inl h.row⟩

theorem post_finish (opts : RunSwarmDeployOptions) (hrow : w.row = some app) (h : Unrecorded w w1)
    (hservice : w1.hasService app.serviceName = true) :
    Post faultySem (finish opts app) w1 fun _ w' => Left w w' := by
  refine post_bind (fun _ w' => Unrecorded w w' ∧ w'.hasService app.serviceName = true)
    ?_ ?_ fun e w2 h2 => h2.1.left
  · intro tr out w' hrun
    have hkept : Unrecorded w1 w' := post_unrecorded (by decide) (calls_switchRoute opts app)
      ⟨Kept.refl w1,rfl⟩ _ _ _ hrun
    exact ⟨⟨h.toKept.trans hkept.toKept,hkept.row.trans h.row⟩,hkept.services _ hservice⟩
  rintro - w2 ⟨h2,hservice2⟩
  refine post_bind (fun _ w' => Left w w') ?_ ?_ fun e w3 h3 => h3
  · refine post_perform fun r w3 hstep => ?_
    have hkept := h2.toKept.trans (Kept.step hstep)
    have hrow3 : w3.row = w2.row ∨ w3.row = w2.row.map (·.live app.serviceName) := by
      rcases hstep with hserve | ⟨e,-,rfl | rfl⟩
      · cases hserve
        exact .inr rfl
      · exact .inl rfl
      · exact .inr rfl
    refine ⟨hkept,hrow3.imp (fun h3 => h3.trans h2.row) fun h3 => ⟨app,hrow,?_,?_⟩⟩
    · rw [h3,h2.row,hrow]
      rfl
    · exact (Kept.step hstep).services _ hservice2
  · intro _ w3 h3
    refine post_bind (fun _ w' => Left w w') ?_ (fun _ _ h => post_ret h) fun e w' h' => h'
    intro tr out w' hrun
    have hkept : Unrecorded w3 w' := post_unrecorded (by decide) (calls_announce opts)
      ⟨Kept.refl w3,rfl⟩ _ _ _ hrun
    refine ⟨h3.toKept.trans hkept.toKept,?_⟩
    rw [hkept.row]
    exact h3.row.imp id fun ⟨app,happ,hlive,hexists⟩ => ⟨app,happ,hlive,hkept.services _ hexists⟩

theorem post_runSwarmDeploy (opts : RunSwarmDeployOptions) :
    Post faultySem (runSwarmDeploy opts) w fun _ w' => Left w w' := by
  refine post_bind (fun out w' => Unrecorded w w' ∧ ∀ row, out = .ok row → row = w.row)
    ?_ ?_ fun e w1 h1 => h1.1.left
  · refine post_perform fun r w1 hstep => ⟨⟨Kept.step hstep,row_step (by decide) hstep⟩,?_⟩
    rintro row rfl
    rcases hstep with hserve | ⟨e,he,-⟩
    · cases hserve
      rfl
    · cases he
  rintro row w1 ⟨h1,hrow⟩
  obtain rfl := hrow row rfl
  cases hrow : w.row with
  | none => exact post_throw h1.left
  | some app =>
    refine post_bind _ (post_unrecorded (by decide) (calls_prepare opts app) h1) ?_
      fun e w2 h2 => h2.left
    rintro prepared w2 h2
    refine post_bind _ (post_createOrUpdateService app _ h2) ?_ fun e w3 h3 => h3.1.left
    rintro _ w3 ⟨h3,hservice⟩
    refine post_bind (fun _ w' => Unrecorded w w' ∧ w'.hasService app.serviceName = true)
      ?_ (fun _ w4 h4 => post_finish opts hrow h4.1 h4.2) fun e w4 h4 => h4.1.left
    intro tr out w' hrun
    have hkept : Unrecorded w3 w' := post_unrecorded (by decide)
      (calls_waitForServiceHealthy _ _ _) ⟨Kept.refl w3,rfl⟩ _ _ _ hrun
    exact ⟨⟨h3.toKept.trans hkept.toKept,hkept.row.trans h3.row⟩,hkept.services _ (hservice rfl)⟩

end Deploy

def World.later (w : World) (polls : Nat → List Container) : World :=
  { w with polls := polls, polled := 0 }

theorem Left.deployable_iff (h : Left w w') (happ : (w.later polls).Deployable opts app)
    (happ' : app' = app ∨ app' = app.live app.serviceName) :
    (w'.later polls).Deployable opts app' ↔ w'.hasService app'.serviceName = app'.named := by
  refine ⟨fun hdeploy => hdeploy.service,fun hservice => ?_⟩
  have hready : (w'.later polls).Ready app := by
    obtain ⟨⟨hvolumes,hproject,hdatabases,hcaddy⟩,-⟩ := happ
    simp only [World.later] at hvolumes hproject hdatabases hcaddy
    refine ⟨?_,?_,?_,?_⟩ <;> simp only [World.later,h.volumes,h.projects,h.databases,
      h.containers,h.caddy]
    · exact hvolumes
    · exact hproject
    · exact hdatabases
    · exact hcaddy
  have haccepted : (w'.later polls).accepts ((w'.later polls).spec opts app) = true := by
    have haccepts := happ.accepted
    simp only [World.later,World.spec] at haccepts ⊢
    rw [h.accepts,h.volumes]
    exact haccepts
  -- the update at the end changes no column that a deploy reads but the name, which stays
  rcases happ' with rfl | rfl
  · exact ⟨hready,haccepted,hservice,happ.healthy⟩
  · exact ⟨⟨hready.volumes,hready.project,hready.databases,hready.caddy⟩,haccepted,hservice,
      happ.healthy⟩

/-- After a deploy that threw, of an app that could be deployed without faults, the next deploy
without faults succeeds exactly if the row names a service or no service of the app's name exists.
-/
theorem retry_succeeds_iff (opts : RunSwarmDeployOptions) {w w' : World}
    {tr : List (Event Platform SwarmError)} {e : SwarmError}
    (hrun : (runSwarmDeploy opts).Runs faultySem w tr (.error e) w') (polls : Nat → List Container)
    (hfirst : ∃ name, ((runSwarmDeploy opts).exec serve (w.later polls)).1 = .ok name) :
    (∃ name, ((runSwarmDeploy opts).exec serve (w'.later polls)).1 = .ok name) ↔
      ∀ app, w'.row = some app → app.named = true ∨ w'.hasService app.serviceName = false := by
  have hleft : Left w w' := post_runSwarmDeploy opts _ _ _ hrun
  obtain ⟨app,hrow,hdeployable⟩ := (exec_runSwarmDeploy_ok_iff opts _).mp hfirst
  have hservice : w.hasService app.serviceName = app.named := hdeployable.service
  rw [exec_runSwarmDeploy_ok_iff]
  have hrow' : (w'.later polls).row = w'.row := rfl
  rw [hrow']
  rcases hleft.row with hsame | ⟨app',happ',hlive,hexists⟩
  · rw [hsame]
    have hrow : w.row = some app := hrow
    rw [hrow]
    simp only [Option.some.injEq,exists_eq_left',forall_eq',
      hleft.deployable_iff hdeployable (.inl rfl)]
    cases hnamed : app.named with
    | true => simpa using hleft.services _ (hservice.trans hnamed)
    | false => simp
  · have hrow : w.row = some app := hrow
    obtain rfl : app' = app := Option.some.inj (happ'.symm.trans hrow)
    have hname : (app'.live app'.serviceName).serviceName = app'.serviceName := rfl
    rw [hlive]
    simp only [Option.some.injEq,exists_eq_left',forall_eq',
      hleft.deployable_iff hdeployable (.inr rfl),hname,hexists,Bool.true_eq_false,or_false]
    exact eq_comm

/-- No task becomes healthy during the first deploy, which leaves its service; the second fails, as
it exists. -/
theorem created_service_blocks_retry :
    (∃ e, (runSwarmDeploy shopOptions).Runs faultySem (shopWorld shop fun _ => [])
      ((runSwarmDeploy shopOptions).trace serve (shopWorld shop fun _ => [])) (.error e)
      ((runSwarmDeploy shopOptions).exec serve (shopWorld shop fun _ => [])).2) ∧
    ((runSwarmDeploy shopOptions).exec serve (shopWorld shop healthyPolls)).1 =
      .ok "ploydok-app-shop-a1" ∧
    ((runSwarmDeploy shopOptions).exec serve
      (((runSwarmDeploy shopOptions).exec serve (shopWorld shop fun _ => [])).2.later
        healthyPolls)).1 = .error (.grpc .alreadyExists "create_service") := by
  refine ⟨⟨_,runs_exec_serve shopOptions (shopWorld shop fun _ => [])⟩,rfl,rfl⟩

/-- The service of an earlier deploy, which the row names. -/
def outdated : World :=
  let w := shopWorld (shop.live "ploydok-app-shop-a1") fun _ => []
  { w with services := [w.spec { shopOptions with imageRef := "shop:1" } shop] }

/-- The deploy that throws has changed the image of the service; the next one succeeds. -/
theorem retry_after_update :
    let failed := (runSwarmDeploy shopOptions).exec serve outdated
    failed.1.isOk = false ∧ failed.2.services = [outdated.spec shopOptions shop] ∧
      ∃ name, ((runSwarmDeploy shopOptions).exec serve (failed.2.later healthyPolls)).1 =
        .ok name := by
  refine ⟨rfl,rfl,?_⟩
  refine (retry_succeeds_iff shopOptions (runs_exec_serve shopOptions outdated) healthyPolls
    ⟨_,rfl⟩).mpr ?_
  rintro app ⟨⟩
  exact .inl rfl

end Ploydok.Swarm
