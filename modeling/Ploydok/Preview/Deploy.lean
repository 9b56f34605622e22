import Ploydok.Containers.Requests
import Ploydok.Effect.Pool
import Ploydok.Runtime.Docker

/-! Previews of pull requests: `worker/handlers/preview-deploy.ts`, `preview-teardown.ts` and
`worker/jobs/cleanup-previews.ts`, which share one row, one route and the containers of the preview.
A call may throw before it had an effect or after it. -/

namespace Ploydok.Preview

open Effect Ploydok.Runtime
open Effect.Prog hiding throw
open Containers (previewContainerName)

inductive Status where
  | pending | building | running | tornDown | failed
  deriving DecidableEq, Repr

structure PreviewRow where
  (headSha domain : String)
  containerId : Option String
  status : Status
  deriving DecidableEq, Repr

inductive Target where
  | dial (container : String) (port : Nat)
  | files
  deriving DecidableEq, Repr

structure Route where
  host : String
  target : Target
  deriving DecidableEq, Repr

/-- The containers, row and route of one preview, and the queued teardown jobs with their attempts.
-/
structure World where
  docker : Docker
  row : Option PreviewRow
  route : Option Route
  jobs : List Nat

structure Patch where
  headSha : Option String
  status : Option Status
  containerId : Option (Option String)
  deriving DecidableEq, Repr

def Patch.apply (patch : Patch) (row : PreviewRow) : PreviewRow :=
  { row with
    headSha := patch.headSha.getD row.headSha
    status := patch.status.getD row.status
    containerId := patch.containerId.getD row.containerId }

/-- `updatePreviewDeploymentStatus`. -/
def Patch.ofStatus (status : Status) : Patch := ⟨none,some status,none⟩

/-- The steps of a deploy that touch neither the row nor the route nor a container. -/
inductive Stage where
  | getAppForPreview | resolveInstallationToken | cloneRepo | checkoutPreviewHead
  | detectBuildMethod | classifyWorkspaceStack | ensureFrameworkEnvVars | detectDockerfilePort
  | buildEnvPairForDeploy | assertDeployableFrameworkEnv | buildImage | pushImage
  | ensureProjectNetwork | ensureCaddyOnProjectNetwork | pullPreviewImage
  | dispatchStaticDeploy | promoteSha | gcOldShas | removeStaticFiles
  deriving DecidableEq, Repr

inductive Health where
  | missing | healthy | starting | unhealthy | unavailable
  deriving DecidableEq, Repr

inductive Call where
  | stage (s : Stage)
  | getPreviewDeployment
  | updatePreviewDeployment (patch : Patch)
  | containerCreate (name image : String)
  | containerStart (id : Nat)
  | inspectContainerHealth (id : Nat)
  | containerStop (name : String)
  | containerRemove (name : String)
  | upsertRoute (route : Route)
  | removeRoute
  | listExpiredPreviews
  | addTeardownJob (attempts : Nat)
  | takeTeardownJob
  deriving DecidableEq

@[reducible] def Call.Res : Call → Type
  | .getPreviewDeployment => Option PreviewRow
  | .containerCreate _ _ => Nat
  | .inspectContainerHealth _ => Health
  | .listExpiredPreviews => Bool
  | .takeTeardownJob => Nat
  | _ => Unit

abbrev PreviewSig : Sig := ⟨Call,Call.Res⟩

abbrev PreviewProg := Prog PreviewSig String

def call (o : Call) : PreviewProg o.Res := Prog.perform (S := PreviewSig) o

def stage (s : Stage) : PreviewProg Unit := call (.stage s)

/-! ### Deploying -/

inductive Stack where
  | laravel | symfony | php | django | flask | fastapi | python | astro | elixir | go | rust | java
  | hono | next | remix | node | bun | deno | ruby | other
  deriving DecidableEq, Repr

/-- The ports of the stacks that Nixpacks and Railpack build. -/
def Stack.defaultPort : Stack → Option Nat
  | laravel | symfony | php => some 80
  | django | flask | fastapi | python => some 8000
  | astro => some 4321
  | elixir => some 4000
  | go | rust | java => some 8080
  | hono | next | remix | node | bun | deno | ruby => some 3000
  | other => none

def defaultRuntimePortForStack (method : BuildMethod) (stack : Stack) : Option Nat :=
  match method with
  | .nixpacks | .railpack => stack.defaultPort
  | _ => none

structure AppForPreview where
  id : String
  (gitProvider repoFullName branch buildMethod : Option String)
  runtimePort : Option Nat
  previewEnabled : Bool
  healthcheckRetries : Option Int
  deriving DecidableEq, Repr

structure Checkout where
  resolvedHeadSha : String
  method : BuildMethod
  stack : Stack
  dockerfilePort : Option Nat
  imageRef : String
  deriving DecidableEq, Repr

structure DeployJob where
  app : AppForPreview
  prNumber : Nat
  headSha : String
  checkout : Checkout
  deriving DecidableEq, Repr

namespace DeployJob

variable (job : DeployJob)

def previewId : String := job.app.id ++ ":pr-" ++ toString job.prNumber

def containerName : String :=
  previewContainerName job.app.id job.prNumber job.checkout.resolvedHeadSha

def runtimePort : Nat :=
  match job.app.runtimePort with
  | some port => port
  | none =>
    match if job.checkout.method = .docker then job.checkout.dockerfilePort else none with
    | some port => port
    | none => (defaultRuntimePortForStack job.checkout.method job.checkout.stack).getD 3000

def retries : Nat := (job.app.healthcheckRetries.getD 6).toNat

def check : Option PreviewRow → Except String PreviewRow
  | none => .error ("Preview deployment not found: " ++ job.previewId)
  | some preview =>
    if job.app.previewEnabled = false then
      .error ("Preview deployments are disabled for app " ++ job.app.id)
    else if preview.domain = "" then
      .error ("Preview deployment " ++ job.previewId ++ " has no domain")
    else if job.app.gitProvider ≠ some "github" then
      .error "Preview deployments currently support GitHub app sources only"
    else if truthy job.app.repoFullName = none ∨ truthy job.app.branch = none then
      .error ("App " ++ job.app.id ++ " is missing repo_full_name or branch")
    else if job.app.buildMethod = some "compose" then
      .error "Preview deployments do not support compose apps yet"
    else .ok preview

end DeployJob

/-- `stopPreviewContainer`: both errors are only logged. -/
def stopPreviewContainer : Option String → PreviewProg Unit
  | none => .ret ()
  | some name =>
    (call (.containerStop name)).attempt.bind fun _ =>
      (call (.containerRemove name)).attempt.bind fun _ => .ret ()

/-- The `catch` of `handlePreviewDeploy`, for the value that `newContainerRef` has at the throw. -/
def failed (newContainerRef : Option String) (error : String) : PreviewProg α :=
  (call (.updatePreviewDeployment (.ofStatus .failed))).bind fun _ =>
    (stopPreviewContainer newContainerRef).bind fun _ => .throw error

def restorePreviousPreviewRoute (job : DeployJob) (previous : PreviewRow) : PreviewProg Unit :=
  match truthy previous.containerId with
  | some name => call (.upsertRoute ⟨previous.domain,.dial name (job.app.runtimePort.getD 3000)⟩)
  | none =>
    if previous.headSha = "" then call .removeRoute
    else
      ((stage .promoteSha).bind fun _ => call (.upsertRoute ⟨previous.domain,.files⟩)).tryCatch
        fun _ => call .removeRoute

/-- The port is looked for in the Dockerfile only where the app has none. -/
def detectPort (job : DeployJob) : PreviewProg Unit :=
  if job.checkout.method = .docker ∧ job.app.runtimePort = none then stage .detectDockerfilePort
  else .ret ()

def checkoutAndDetect (job : DeployJob) : PreviewProg Unit := do
  stage .resolveInstallationToken
  stage .cloneRepo
  stage .checkoutPreviewHead
  stage .detectBuildMethod
  stage .classifyWorkspaceStack
  stage .ensureFrameworkEnvVars
  detectPort job
  stage .buildEnvPairForDeploy
  stage .assertDeployableFrameworkEnv

def buildPreview (job : DeployJob) : PreviewProg Unit :=
  (call (.updatePreviewDeployment ⟨some job.headSha,some .building,none⟩)).bind fun _ =>
    checkoutAndDetect job

/-- BuildKit pushes by itself, the other builders do not. -/
def pushImage (job : DeployJob) : PreviewProg Unit :=
  if job.checkout.method = .docker then .ret () else stage .pushImage

def prepareImage (job : DeployJob) : PreviewProg Unit := do
  stage .buildImage
  pushImage job
  stage .ensureProjectNetwork
  stage .ensureCaddyOnProjectNetwork
  stage .pullPreviewImage

def waitForPreviewHealth (id : Nat) : Nat → PreviewProg Bool
  | 0 => .ret false
  | retries + 1 => (call (.inspectContainerHealth id)).bind fun health =>
    match health with
    | .healthy => .ret true
    | .starting | .unhealthy => waitForPreviewHealth id retries
    | .missing | .unavailable => .ret false

/-- From `containerCreate` to the switch of the route. -/
def launch (job : DeployJob) (preview : PreviewRow) : PreviewProg Unit :=
  (call (.containerCreate job.containerName job.checkout.imageRef)).bind fun id =>
  (call (.containerStart id)).bind fun _ =>
  (waitForPreviewHealth id job.retries).bind fun healthy =>
    if healthy then call (.upsertRoute ⟨preview.domain,.dial job.containerName job.runtimePort⟩)
    else .throw "Preview container did not become healthy"

def recordPatch (job : DeployJob) (containerRef : Option String) : Patch :=
  ⟨some job.checkout.resolvedHeadSha,some .running,some containerRef⟩

/-- Switch the route, record it, and go on with `rest`. A switch that cannot be recorded is undone.
-/
def switchOver (job : DeployJob) (preview : PreviewRow) (newContainerRef : Option String)
    (switch rest : PreviewProg Unit) : PreviewProg Unit :=
  (switch.tryCatch (failed newContainerRef)).bind fun _ =>
  (call (.updatePreviewDeployment (recordPatch job newContainerRef))).attempt.bind fun
    | .error error =>
      ((restorePreviousPreviewRoute job preview).tryCatch (failed newContainerRef)).bind fun _ =>
        (stopPreviewContainer newContainerRef).bind fun _ => failed none error
    | .ok _ => rest

def stopPrevious (job : DeployJob) (preview : PreviewRow) : PreviewProg Unit :=
  if truthy preview.containerId = some job.containerName then .ret ()
  else stopPreviewContainer (truthy preview.containerId)

def deployContainer (job : DeployJob) (preview : PreviewRow) : PreviewProg Unit :=
  ((prepareImage job).tryCatch (failed none)).bind fun _ =>
    switchOver job preview (some job.containerName) (launch job preview) (stopPrevious job preview)

def publish (preview : PreviewRow) : PreviewProg Unit :=
  (stage .dispatchStaticDeploy).bind fun _ => call (.upsertRoute ⟨preview.domain,.files⟩)

def deployStatic (job : DeployJob) (preview : PreviewRow) : PreviewProg Unit :=
  switchOver job preview none (publish preview)
    ((stopPreviewContainer (truthy preview.containerId)).bind fun _ =>
      (stage .gcOldShas).attempt.bind fun _ => .ret ())

def deployChecked (job : DeployJob) (preview : PreviewRow) : PreviewProg Unit :=
  ((buildPreview job).tryCatch (failed none)).bind fun _ =>
    if job.checkout.method = .static then deployStatic job preview
    else deployContainer job preview

def handlePreviewDeploy (job : DeployJob) : PreviewProg Unit :=
  (stage .getAppForPreview).bind fun _ =>
  (call .getPreviewDeployment).bind fun row =>
    match job.check row with
    | .error error => .throw error
    | .ok preview => deployChecked job preview

def handlePreviewTeardown : PreviewProg Unit :=
  (call .getPreviewDeployment).bind fun preview =>
  (call (.updatePreviewDeployment (.ofStatus .pending))).attempt.bind fun _ =>
  (call .removeRoute).bind fun _ =>
  (stopPreviewContainer (truthy (preview.bind PreviewRow.containerId))).bind fun _ =>
  (stage .removeStaticFiles).attempt.bind fun _ =>
  (call (.updatePreviewDeployment ⟨none,some .tornDown,some none⟩)).bind fun _ =>
  call (.updatePreviewDeployment (.ofStatus .tornDown))

def runTeardownJob : PreviewProg Unit :=
  (call .takeTeardownJob).bind fun attempts =>
  handlePreviewTeardown.attempt.bind fun
    | .ok _ => .ret ()
    | .error error =>
      if attempts ≤ 1 then .throw error else call (.addTeardownJob (attempts - 1))

/-- The attempts of a job, `previewDefaults`. -/
def previewAttempts : Nat := 3

/-- `cleanupExpiredPreviews`, as far as it is about this preview; an error is only logged. -/
def cleanupExpiredPreviews : PreviewProg Unit :=
  ((call .listExpiredPreviews).bind fun expired =>
    if expired then
      (call (.addTeardownJob previewAttempts)).bind fun _ =>
        call (.updatePreviewDeployment (.ofStatus .tornDown))
    else .ret ()).tryCatch fun _ => .ret ()

def Responds : (o : Call) → World → o.Res → World → Prop
  | .stage _, w, _, w' => w' = w
  | .getPreviewDeployment, w, r, w' => r = w.row ∧ w' = w
  | .updatePreviewDeployment patch, w, _, w' => w' = { w with row := w.row.map patch.apply }
  | .containerCreate name image, w, id, w' =>
    ∃ docker, w.docker.create? name image = some (id, docker) ∧ w' = { w with docker := docker }
  | .containerStart id, w, _, w' =>
    w.docker.has (.id id) = true ∧ w' = { w with docker := w.docker.setRunning (.id id) true }
  | .inspectContainerHealth _, w, _, w' => w' = w
  | .containerStop name, w, _, w' =>
    w.docker.has (.name name) = true ∧
      w' = { w with docker := w.docker.setRunning (.name name) false }
  | .containerRemove name, w, _, w' =>
    w.docker.has (.name name) = true ∧ w' = { w with docker := w.docker.remove (.name name) }
  | .upsertRoute route, w, _, w' => w' = { w with route := some route }
  | .removeRoute, w, _, w' => w' = { w with route := none }
  | .listExpiredPreviews, w, r, w' =>
    (r = true → ∃ row, w.row = some row ∧ row.status = .running) ∧ w' = w
  | .addTeardownJob attempts, w, _, w' => w' = { w with jobs := attempts :: w.jobs }
  | .takeTeardownJob, w, attempts, w' =>
    attempts ∈ w.jobs ∧ w' = { w with jobs := w.jobs.erase attempts }

/-- Which calls may throw before they had an effect, and which after it. -/
structure Faults where
  (fails loses : Call → Prop)

def Faults.throws (f : Faults) (o : Call) : Prop := f.fails o ∨ f.loses o

def previewSem (f : Faults) : Sem PreviewSig String World := fun o w r w' =>
  match r with
  | .ok a => Responds o w a w'
  | .error _ => ((f.fails o ∨ ¬ ∃ a w'', Responds o w a w'') ∧ w' = w) ∨
      (f.loses o ∧ ∃ a, Responds o w a w')

/-! ### Steps -/

section Steps

variable {f : Faults} {w w' : World} {o : Call}

theorem responds_of_sem (h : previewSem f o w r w') : w' = w ∨ ∃ a, Responds o w a w' := by
  cases r with
  | ok a => exact .inr ⟨a,h⟩
  | error e =>
    rcases h with ⟨-,rfl⟩ | ⟨-,h⟩
    · exact .inl rfl
    · exact .inr h

theorem exists_sem (f : Faults) (o : Call) (w : World) : ∃ r w', previewSem f o w r w' := by
  by_cases h : ∃ a w', Responds o w a w'
  · obtain ⟨a,w',h⟩ := h
    exact ⟨.ok a,w',h⟩
  · exact ⟨.error "",w,.inl ⟨.inr h,rfl⟩⟩

theorem throws_of_sem (h : previewSem f o w (.error e) w') (hcan : ∃ a w'', Responds o w a w'') :
    f.throws o := by
  rcases h with ⟨hfails | hstuck,-⟩ | ⟨hloses,-⟩
  · exact .inl hfails
  · exact (hstuck hcan).elim
  · exact .inr hloses

def Call.isStage : Call → Bool
  | .stage _ => true
  | _ => false

theorem calls_stage (s : Stage) : (stage s).Calls (Call.isStage · = true) := calls_perform rfl

variable (job : DeployJob)

theorem calls_detectPort : (detectPort job).Calls (Call.isStage · = true) := by
  unfold detectPort
  split
  · exact calls_stage _
  · exact calls_ret _

theorem calls_pushImage : (pushImage job).Calls (Call.isStage · = true) := by
  unfold pushImage
  split
  · exact calls_ret _
  · exact calls_stage _

theorem calls_checkoutAndDetect : (checkoutAndDetect job).Calls (Call.isStage · = true) :=
  calls_bind (calls_stage _) fun _ => calls_bind (calls_stage _) fun _ =>
  calls_bind (calls_stage _) fun _ => calls_bind (calls_stage _) fun _ =>
  calls_bind (calls_stage _) fun _ => calls_bind (calls_stage _) fun _ =>
  calls_bind (calls_detectPort job) fun _ => calls_bind (calls_stage _) fun _ =>
  calls_stage _

theorem calls_prepareImage : (prepareImage job).Calls (Call.isStage · = true) :=
  calls_bind (calls_stage _) fun _ => calls_bind (calls_pushImage job) fun _ =>
  calls_bind (calls_stage _) fun _ => calls_bind (calls_stage _) fun _ => calls_stage _

theorem eq_of_isStage (ho : o.isStage = true) (h : previewSem f o w r w') : w' = w := by
  cases o with
  | stage s =>
    rcases responds_of_sem h with rfl | ⟨_,h⟩
    · rfl
    · exact h
  | _ => cases ho

theorem post_stages {p : PreviewProg α} (hp : p.Calls (Call.isStage · = true)) :
    Post (previewSem f) p w fun _ w' => w' = w :=
  post_of_calls hp (· = w) (fun _ _ _ _ ho hw h => (eq_of_isStage ho h).trans hw) rfl

theorem post_getPreviewDeployment : Post (previewSem f) (call .getPreviewDeployment) w fun out w' =>
      w' = w ∧ ∀ row, out = .ok row → row = w.row := by
  refine post_perform fun r w' hr => ⟨?_,?_⟩
  · rcases responds_of_sem (o := .getPreviewDeployment) hr with rfl | ⟨_,-,rfl⟩
    · rfl
    · rfl
  · rintro row rfl
    exact hr.1

theorem ends_call (h : Responds o w a w') : (call o).Ends (previewSem f) w (.ok a) w' :=
  ends_perform h

theorem ends_stage (s : Stage) : (stage s).Ends (previewSem f) w (.ok ()) w :=
  ends_call rfl

theorem ends_checkoutAndDetect : (checkoutAndDetect job).Ends (previewSem f) w (.ok ()) w := by
  have hport : (detectPort job).Ends (previewSem f) w (.ok ()) w := by
    unfold detectPort
    split
    · exact ends_stage _
    · exact ends_ret ()
  exact ends_bind (ends_stage _) <| ends_bind (ends_stage _) <|
    ends_bind (ends_stage _) <| ends_bind (ends_stage _) <|
    ends_bind (ends_stage _) <| ends_bind (ends_stage _) <|
    ends_bind hport <| ends_bind (ends_stage _) <| ends_stage _

theorem ends_prepareImage : (prepareImage job).Ends (previewSem f) w (.ok ()) w := by
  have hpush : (pushImage job).Ends (previewSem f) w (.ok ()) w := by
    unfold pushImage
    split
    · exact ends_ret ()
    · exact ends_stage _
  exact ends_bind (ends_stage _) <| ends_bind hpush <|
    ends_bind (ends_stage _) <| ends_bind (ends_stage _) <| ends_stage _

end Steps

end Ploydok.Preview
