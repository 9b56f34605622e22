import Ploydok.Builds.Model

/-! The programs over these statements: `handleDeploy` of `worker/handlers/deploy.ts`, the route
that cancels a build, and `reapStuckBuilds`. -/

namespace Ploydok.Builds

open Effect Effect.Prog Queue

/-! ### Deploying -/

structure DeployJob where
  payload : Payload
  (attempts maxAttempts : Nat)
  deriving DecidableEq, Repr

def normalizedMethod (app : AppRow) : BuildMethod :=
  match app.buildMethod with
  | some .docker | some .dockerfile => .docker
  | some .nixpacks => .nixpacks
  | some .railpack => .railpack
  | some .static => .static
  | _ => .auto

/-- The method in the build row before anything has been detected. -/
def resolvedBuildMethod (app : AppRow) : BuildMethod :=
  match normalizedMethod app with
  | .auto => .docker
  | method => method

inductive SourceCheck where
  | refuse (message : String)
  | stale (update : ImageUpdate)
  | deploy
  deriving DecidableEq, Repr

def sourceCheck (appId : String) (app : AppRow) (update : Option ImageUpdate) : SourceCheck :=
  if app.gitProvider = some .image then
    if truthy app.imageRef = none then
      .refuse ("App " ++ appId ++ " has git_provider='image' but no image_ref set")
    else
      match update with
      | some u =>
        if app.trackLatest = false ∨ app.lastImageDigest ≠ some u.fromDigest ∨
            app.pendingImageDigest ≠ some u.toDigest then .stale u
        else .deploy
      | none => .deploy
  else if truthy app.repoFullName = none ∨ truthy app.branch = none then
    .refuse ("App " ++ appId ++ " is missing repo_full_name or branch — cannot deploy")
  else .deploy

def switchRoute (appId target : String) : DeployProg Unit :=
  (call (.switch appId target)).bind fun _ => act (.phase .purge)

def switchPublic (appId : String) (app : AppRow) (target : String) : DeployProg Unit :=
  if (truthy app.domain).isSome then switchRoute appId target else .ret ()

/-- `runBlueGreen` or `runSwarmDeploy`: start, switch the traffic, write the row, clean up. -/
def runRuntime (appId : String) (app : AppRow) : DeployProg Unit :=
  (call (.phase .start)).bind fun (name : String) =>
  match app.runtimeMode with
  | .docker =>
    (switchRoute appId name).bind fun _ =>
    (call (.updateApp appId (.live name))).bind fun _ =>
    act (.phase .cleanup)
  | .swarm =>
    (switchPublic appId app name).bind fun _ =>
    act (.updateApp appId (.liveSwarm name))

inductive FinalStatus where
  | succeeded | succeededWithWarning | failed
  deriving DecidableEq, Repr

def FinalStatus.toBuildStatus : FinalStatus → BuildStatus
  | succeeded => .succeeded
  | succeededWithWarning => .succeededWithWarning
  | failed => .failed

def runPostDeployHook : DeployProg FinalStatus :=
  (call (.phase .postHook)).bind fun (ok : Bool) =>
  .ret (if ok then .succeeded else .succeededWithWarning)

def finalizeUpdate (appId : String) : Option ImageUpdate → DeployProg Unit
  | some u => act (.updateApp appId (.finalize u.toDigest))
  | none => .ret ()

def deployImage (job : DeployJob) (buildId appId : String) (app : AppRow) :
    DeployProg FinalStatus :=
  (call (.updateBuildStatus buildId .running .imageTag)).bind fun _ =>
  (call (.phase .loadEnv)).bind fun _ =>
  (call (.phase .preHook)).bind fun _ =>
  (runRuntime appId app).bind fun _ =>
  runPostDeployHook.bind fun status =>
  (finalizeUpdate appId job.payload.imageUpdate).bind fun _ => .ret status

def deployStatic (appId : String) (app : AppRow) : DeployProg FinalStatus :=
  (call (.phase .install)).bind fun _ =>
  (switchPublic appId app "static").bind fun _ =>
  (call (.phase .collect)).bind fun _ =>
  (call (.updateApp appId .serving)).bind fun _ => .ret .succeeded

def deployBuilt (buildId appId : String) (app : AppRow) : DeployProg FinalStatus :=
  (call (.phase .build)).bind fun _ =>
  (call (.updateBuildStatus buildId .running .imageTag)).bind fun _ =>
  (call (.phase .preHook)).bind fun _ =>
  (runRuntime appId app).bind fun _ => runPostDeployHook

/-- A write to the build row that is made under a condition. -/
def noteBuild (condition : Bool) (buildId : String) (patch : Patch) : DeployProg Unit :=
  if condition then act (.updateBuildStatus buildId .running patch) else .ret ()

def deployGit (job : DeployJob) (buildId appId : String) (app : AppRow) :
    DeployProg FinalStatus :=
  (call (.phase .clone)).bind fun (head : Option String) =>
  (noteBuild (job.payload.commitSha.isNone && (truthy head).isSome) buildId .commitSha).bind fun _ =>
  (call (.phase .detect)).bind fun (method : BuildMethod) =>
  (noteBuild (method ≠ resolvedBuildMethod app) buildId .buildMethod).bind fun _ =>
  (call (.phase .prepare)).bind fun _ =>
  if method = .static then deployStatic appId app else deployBuilt buildId appId app

/-- What stands between `try` and `catch`; it returns the status to write. -/
def deployBody (job : DeployJob) (buildId appId : String) (app : AppRow) :
    DeployProg FinalStatus :=
  if app.gitProvider = some .image then deployImage job buildId appId app
  else deployGit job buildId appId app

def fallbackStatus (job : DeployJob) (app : AppRow) : AppStatus :=
  match job.payload.imageUpdate with
  | some u => u.previousStatus
  | none => if app.status = .running then .running else .failed

/-- The `catch` block. -/
def afterFailure (job : DeployJob) (appId : String) (app : AppRow) : DeployProg Unit :=
  (call (.updateApp appId (.status (fallbackStatus job app)))).bind fun _ =>
  match job.payload.imageUpdate with
  | some u =>
    if job.maxAttempts ≤ job.attempts then
      act (.updateApp appId (.release u.toDigest))
    else .ret ()
  | none => .ret ()

/-- The `finally` block. -/
def finishBuild (buildId : String) (finalStatus : FinalStatus) : DeployProg Unit :=
  (call (.selectBuildStatus buildId)).bind fun (current : Option BuildStatus) =>
  if current = some .cancelled then .ret ()
  else act (.updateBuildStatus buildId finalStatus.toBuildStatus .finished)

def finalStatusOf : Except DeployError FinalStatus → FinalStatus
  | .ok status => status
  | .error _ => .failed

/-- `try … catch … finally`. -/
def deployGuarded (job : DeployJob) (buildId appId : String) (app : AppRow) : DeployProg Unit :=
  ((deployBody job buildId appId app).tryCatch fun err =>
    (afterFailure job appId app).bind fun _ => .throw err).attempt.bind fun outcome =>
  (finishBuild buildId (finalStatusOf outcome)).bind fun _ =>
  (ofExcept outcome).bind fun _ => .ret ()

def deployChecked (job : DeployJob) (buildId appId : String) (app : AppRow) : DeployProg Unit :=
  if app.buildMethod = some .compose then
    .throw (.fatal "build_method=\"compose\" is not yet supported (planned sprint 3.3)")
  else
    (call (.hydrateBuild buildId)).bind fun _ =>
    (call (.updateBuildStatus buildId .running .started)).bind fun _ =>
    (call (.updateApp appId (.status .building))).bind fun _ =>
    (call (.phase .openLog)).bind fun _ =>
    (call (.updateBuildStatus buildId .running .logPath)).bind fun _ =>
    deployGuarded job buildId appId app

def deployAllowed (job : DeployJob) (buildId appId : String) (app : AppRow)
    (requestedBy : Option String) : DeployProg Unit :=
  match requestedBy with
  | none => deployChecked job buildId appId app
  | some userId =>
    (call (.getAppForUser appId userId)).bind fun (hasAccess : Bool) =>
    if hasAccess then deployChecked job buildId appId app
    else act (.updateBuildStatus buildId .failed .finished)

def deployFound (job : DeployJob) (buildId : String) (claimed : BuildRow) (app : AppRow) :
    DeployProg Unit :=
  match sourceCheck claimed.appId app job.payload.imageUpdate with
  | .refuse message => .throw (.fatal message)
  | .stale u =>
    (call (.updateBuildStatus buildId .cancelled .finished)).bind fun _ =>
    act (.updateApp claimed.appId (.release u.toDigest))
  | .deploy => deployAllowed job buildId claimed.appId app claimed.requestedByUserId

def deployClaimed (job : DeployJob) (buildId : String) (claimed : BuildRow) : DeployProg Unit :=
  (call (.getAppForDeploy claimed.appId)).bind fun (found : Option AppRow) =>
  match found with
  | none => .throw (.other ("App not found: " ++ claimed.appId))
  | some app => deployFound job buildId claimed app

def expectedStatuses (job : DeployJob) : List BuildStatus :=
  if 1 < job.attempts then [.pending, .failed] else [.pending]

def handleDeploy (job : DeployJob) : DeployProg Unit :=
  if job.payload.valid = false then .throw (.other "invalid payload")
  else
    match truthy job.payload.buildId with
    | some buildId =>
      (call (.claim buildId (expectedStatuses job))).bind fun (claimed : Option BuildRow) =>
      match claimed with
      | none => .ret ()
      | some row => deployClaimed job buildId row
    | none =>
      if (truthy job.payload.appId).isSome then .ret ()
      else .throw (.fatal "Payload missing both buildId and appId")

inductive CancelAnswer where
  | notFound (message : String)
  | invalidState (status : BuildStatus)
  | ok
  deriving DecidableEq, Repr

def jobAppId (payload : Payload) : DeployProg (Option String) :=
  match payload.buildId with
  | some buildId => call (.appOfBuild buildId)
  | none => .ret payload.appId

def removeJobs (appId : String) : DeployProg Unit :=
  ((call .getJobs).bind fun (jobs : List (Job Payload)) =>
    forEach jobs fun j =>
      (jobAppId j.data).bind fun owner =>
      if owner = some appId then (act (.removeJob j.id)).tryCatch fun _ => .ret ()
      else .ret ()).tryCatch fun _ => .ret ()

def cancelBuild (userId appId buildId : String) : DeployProg CancelAnswer :=
  (call (.getAppForUser appId userId)).bind fun (hasAccess : Bool) =>
  if hasAccess then
    (call (.getBuildForApp buildId appId)).bind fun (status : Option BuildStatus) =>
    match status with
    | none => .ret (.notFound "Build not found")
    | some status =>
      if status.active then
        (removeJobs appId).bind fun _ =>
        (call (.updateBuildStatus buildId .cancelled .finished)).bind fun _ => .ret .ok
      else .ret (.invalidState status)
  else .ret (.notFound "App not found")

def repairAppStatusAfterReap (appId : String) : DeployProg Unit :=
  (call (.hasActiveBuild appId)).bind fun (hasActive : Bool) =>
  if hasActive then .ret ()
  else
    (call (.selectApp appId)).bind fun (found : Option AppRow) =>
    match found with
    | none => .ret ()
    | some app =>
      if app.status = .building then
        act (.updateApp appId (.status
          (if (truthy app.containerId).isSome then .running else .failed)))
      else .ret ()

def reap (stuck : String × String) : DeployProg Unit :=
  (call (.updateBuildStatus stuck.1 .cancelled .finished)).bind fun _ =>
  repairAppStatusAfterReap stuck.2

def reapStuckBuilds : DeployProg Unit :=
  (call .stuckRunning).bind fun (running : List (String × String)) =>
  (forEach running reap).bind fun _ =>
  (call .stuckPending).bind fun (pending : List (String × String)) =>
  forEach pending reap

end Ploydok.Builds
