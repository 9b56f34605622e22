import Ploydok.Runtime.Outcome

/-! Which version of an app a restart starts: the image of the newest build whose status is
`succeeded`, not that of the live container. Rollbacks leave the builds as they are, and a deploy
whose last hook fails goes live without such a build. -/

namespace Ploydok.Runtime

open Effect Deploy

def World.liveImage (w : World) : Option String :=
  w.route.bind fun route =>
    (w.docker.containers.find? (·.name = route.upstream.host)).map (·.image)

def World.UpToDate (w : World) : Prop := w.lastSucceededTag = w.liveImage

instance (w : World) : Decidable w.UpToDate :=
  inferInstanceAs (Decidable (w.lastSucceededTag = w.liveImage))

/-- How a build may end. One that is cancelled half way stays cancelled, whatever its deploy goes on
to do. -/
def EndsAs (out : Except RunnerError RunBlueGreenResult) (status : BuildStatus) : Prop :=
  match out with
  | .ok _ => status = .succeeded ∨ status = .succeededWithWarning ∨ status = .cancelled
  | .error _ => status = .failed ∨ status = .cancelled

inductive History (appId : String) (w₀ : World) : World → Prop
  | refl : History appId w₀ w₀
  /-- The build ends before there is anything to run. -/
  | unbuilt {w : World} {buildId : String} {status : BuildStatus} {imageTag : Option String}
      (h : History appId w₀ w) (hstatus : status = .failed ∨ status = .cancelled) :
      History appId w₀ { w with builds := ⟨buildId,status,imageTag,none⟩ :: w.builds }
  /-- The image is deployed while its build is still `running`; then the build gets its status. -/
  | deploy {w w' : World} {buildId : String} {status : BuildStatus} {opts : RunBlueGreenOptions}
      {containerId : Option String} {f : Faults} {tr : List (Event Platform RunnerError)}
      {out : Except RunnerError RunBlueGreenResult} (h : History appId w₀ w)
      (hrun : (runBlueGreen appId opts).Runs (platformSem f)
        { w with builds := ⟨buildId,.running,some opts.imageRef,none⟩ :: w.builds } tr out w')
      (hstatus : EndsAs out status) :
      History appId w₀
        { w' with builds := ⟨buildId,status,some opts.imageRef,containerId⟩ :: w.builds }
  | rollback {w w' : World} {targetBuildId : Option String} {f : Faults}
      {tr : List (Event Platform RunnerError)} {out : Except RunnerError Unit}
      (h : History appId w₀ w)
      (hrun : (rollbackApp appId targetBuildId).Runs (platformSem f) w tr out w') :
      History appId w₀ w'

theorem find?_of_mem {d : Docker} (hk : k ∈ d.containers) :
    d.containers.find? (·.name = k.name) = some k := by
  have hfound : (d.containers.find? (·.name = k.name)).isSome := by
    rw [List.find?_isSome]
    exact ⟨k,hk,by simp⟩
  obtain ⟨k',hk'⟩ := Option.isSome_iff_exists.mp hfound
  have hname : k'.name = k.name := by simpa using List.find?_some hk'
  rw [hk',List.inj_on_of_nodup_map d.names (List.mem_of_find?_eq_some hk') hk hname]

theorem LiveOn.liveImage {row : AppRow} (h : LiveOn row u image w) : w.liveImage = some image := by
  obtain ⟨domain,hroute⟩ := h.route
  obtain ⟨id,hk⟩ := h.container
  have hfind := find?_of_mem hk
  simp only [World.liveImage,hroute,Option.bind_some]
  rw [hfind]
  rfl

/-! ### What a history does to the version -/

section History

variable {f : Faults} {w w' : World}

theorem post_builds (p : RunProg α) :
    Prog.Post (platformSem f) p w fun _ w' => w'.builds = w.builds :=
  post_kept (I := fun v => v.builds = w.builds) (fun _ _ h => h) (fun _ _ h => h)
    (fun _ _ _ h => h) rfl p

/-- A deploy that returns leaves the app up to date exactly if its build ends as `succeeded`, or
if the newest build that did is of the same image. -/
theorem upToDate_deploy_iff {opts : RunBlueGreenOptions} {res : RunBlueGreenResult}
    (hrun : (runBlueGreen appId opts).Runs (platformSem f) w₁ tr (.ok res) w')
    (himage : opts.imageRef ≠ "") (buildId : String) (status : BuildStatus)
    (containerId : Option String) :
    World.UpToDate { w' with
        builds := ⟨buildId,status,some opts.imageRef,containerId⟩ :: w.builds } ↔
      status = .succeeded ∨ w.lastSucceededTag = some opts.imageRef := by
  obtain ⟨row,u,hlive⟩ := post_runBlueGreen_live appId opts tr (.ok res) w' hrun res rfl
  have hpresent : truthy (some opts.imageRef) = some opts.imageRef := if_neg himage
  have himage' : World.liveImage { w' with
      builds := ⟨buildId,status,some opts.imageRef,containerId⟩ :: w.builds } =
      some opts.imageRef := hlive.liveImage
  rw [World.UpToDate,himage']
  by_cases hs : status = .succeeded
  · simp [World.lastSucceededTag,hs,hpresent]
  · simp [World.lastSucceededTag,hs]

/-- A rollback that returns leaves the app up to date exactly if the newest build that succeeded
is of the image it has gone back to. -/
theorem upToDate_rollback_iff
    (hrun : (rollbackApp appId targetBuildId).Runs (platformSem f) w tr (.ok ()) w') :
    ∃ build image, w.rollbackBuild targetBuildId = some build ∧
      truthy build.imageTag = some image ∧
        (w'.UpToDate ↔ w.lastSucceededTag = some image) := by
  obtain ⟨build,row,u,image,hbuild,himage,hlive⟩ :=
    post_rollbackApp_ok appId targetBuildId tr (.ok ()) w' hrun rfl
  refine ⟨build,image,hbuild,himage,?_⟩
  rw [World.UpToDate,hlive.liveImage,World.lastSucceededTag,
    post_builds (rollbackApp appId targetBuildId) tr (.ok ()) w' hrun]
  rfl

end History

/-- A restart that succeeds keeps the live version exactly if the newest build that succeeded is of
that version. -/
theorem restart_keeps_version_iff (appId : String) (f : Faults) (w w' : World)
    (tr : List (Event Platform RunnerError))
    (hrun : (restartApp appId).Runs (platformSem f) w tr (.ok ()) w') :
    w'.liveImage = w.liveImage ↔ w.UpToDate := by
  obtain ⟨row,u,image,htag,hlive⟩ := post_restartApp_ok appId tr (.ok ()) w' hrun rfl
  rw [World.UpToDate,hlive.liveImage,htag]

namespace Shop

def rolledBack : World := ((rollbackApp "a1" none).exec serve world).2

end Shop

open Shop

theorem restart_keeps_version_shop : world.UpToDate ∧
      ((restartApp "a1").exec serve world).2.liveImage = some "shop:2" := by
  obtain ⟨_,tr,hrun⟩ := Prog.runs_exec_of_isOk (platformSem_serve .none)
    (p := restartApp "a1") (w := world) (by decide +kernel)
  have hlive : world.liveImage = some "shop:2" := by decide +kernel
  have hcurrent : world.UpToDate := by decide +kernel
  exact ⟨hcurrent,((restart_keeps_version_iff "a1" .none _ _ tr hrun).mpr hcurrent).trans hlive⟩

/-- A restart undoes a rollback. -/
theorem restart_undoes_rollback :
    ¬ ∀ (appId : String) (w0 w w' : World) (f : Faults) (tr : List (Event Platform RunnerError)),
      w0.UpToDate → History appId w0 w →
      (restartApp appId).Runs (platformSem f) w tr (.ok ()) w' → w'.liveImage = w.liveImage := by
  intro hall
  obtain ⟨_,tr,hrun⟩ := Prog.runs_exec_of_isOk (platformSem_serve .none)
    (p := restartApp "a1") (w := rolledBack) (by decide +kernel)
  have hkept := hall "a1" world _ _ .none tr (by decide +kernel)
    (History.refl.rollback (Prog.runs_exec (platformSem_serve .none) _ _)) hrun
  exact absurd hkept (by decide +kernel)

end Ploydok.Runtime
