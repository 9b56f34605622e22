import Ploydok.Deploy.Handler
import Ploydok.Effect.Program
import Ploydok.Runtime.Docker
import Ploydok.Runtime.Names

/-! The operations on a docker-mode app, `worker/runner.ts`: a blue/green deploy, a rollback, a
restart and a stop, as programs over the calls they make to the database, the agent and Caddy. -/

namespace Ploydok.Runtime

open Effect Deploy

structure Upstream where
  host : String
  port : Nat
  deriving DecidableEq, Repr

structure Route where
  domain : String
  upstream : Upstream
  deriving DecidableEq, Repr

/-- What the runner reads of a row of `apps`. -/
structure AppRow extends App where
  domain : Option String
  runtimePort : Option Nat
  healthcheckPath : Option String
  (healthcheckPort healthcheckIntervalS healthcheckRetries healthcheckStartPeriodS : Option Nat)
  status : AppStatus
  containerId : Option String
  deriving DecidableEq, Repr

structure BuildRow where
  id : String
  status : BuildStatus
  (imageTag containerId : Option String)
  deriving DecidableEq, Repr

structure World where
  row : Option AppRow
  builds : List BuildRow
  docker : Docker
  route : Option Route

inductive GrpcStatus where
  | alreadyExists | notFound | internal | unavailable
  deriving DecidableEq, Repr

inductive RunnerError where
  | error (message : String)
  | deployFailed (appId reason : String)
  | agent (code : GrpcStatus) (details : String)
  deriving DecidableEq, Repr

def RunnerError.isAlreadyExists : RunnerError → Bool
  | .agent .alreadyExists _ => true
  | .agent .internal details =>
    Text.includes (toLowerCase details.toList) "already exists".toList
  | _ => false

inductive HealthStatus where
  | none | starting | healthy | unhealthy
  deriving DecidableEq, Repr

structure HealthReport where
  containerMissing : Bool
  status : HealthStatus
  deriving DecidableEq, Repr

inductive Preparation where
  | projectNetwork | caddyOnNetwork | volumes
  deriving DecidableEq, Repr

inductive Call where
  | readApp
  | readContainerId
  | readBuild (id : String)
  | readSucceededBuilds (limit : Nat)
  | loadRuntimeEnv
  | pullImage (image : String)
  | prepare (step : Preparation)
  | containerCreate (name image : String)
  | containerStart (id : Nat)
  | inspectContainerHealth (id : Nat)
  | containerLogs (id : Nat) (tail : Nat)
  | readContainerFile (id : Nat) (path : String)
  | containerStop (ref : Ref)
  | containerRemove (ref : Ref)
  | getUpstream
  | setUpstream (domain : String) (upstream : Upstream)
  | removeUpstream
  | purgeCloudflare
  | setLive (containerId : String)
  | setRestarting
  | setStopped
  | onLive
  | sleep (ms : Nat)
  | turn
  deriving DecidableEq

@[reducible] def Call.Res : Call → Type
  | .readApp => Option AppRow
  | .readContainerId => Option String
  | .readBuild _ => Option BuildRow
  | .readSucceededBuilds _ => List BuildRow
  | .containerCreate .. => Nat
  | .inspectContainerHealth _ => HealthReport
  | .getUpstream => Option Upstream
  | .turn => Bool
  | _ => Unit

abbrev Platform : Sig := ⟨Call,Call.Res⟩

abbrev RunProg := Prog Platform RunnerError

def call (o : Call) : RunProg o.Res := Prog.perform (S := Platform) o

def quietly (p : RunProg Unit) : RunProg Unit := p.tryCatch fun _ => return ()

/-! ### The programs -/

/-- Stop and remove a container; failures are only logged. -/
def stopContainer (ref : Ref) : RunProg Unit := do
  quietly (call (.containerStop ref))
  quietly (call (.containerRemove ref))

def stopContainerCandidates (names : List String) : RunProg Unit :=
  Prog.forEach names fun name => stopContainer (.name name)

def stopBothColors (app : App) : RunProg Unit :=
  Prog.allSettled .turn id
    (stopContainerCandidates (runtimeContainerNameCandidates app .blue))
    (stopContainerCandidates (runtimeContainerNameCandidates app .green))

def createContainerWithStaleSlotRecovery (containerName image : String) : RunProg Nat :=
  (call (.containerCreate containerName image)).tryCatch fun err =>
    if ¬err.isAlreadyExists then throw err
    else do
      let upstream ← (call .getUpstream).tryCatch fun _ => throw err
      if upstream.map (·.host) = some containerName then throw err
      else do
        stopContainer (.name containerName)
        call (.containerCreate containerName image)

/-- `getCurrentColor`: the builds are read only if the app row has no colour. -/
def readCurrentColor : RunProg Color := do
  let containerId ← call .readContainerId
  match inferContainerColor containerId with
  | some color => return color
  | none =>
    let builds ← call (.readSucceededBuilds 1)
    return getCurrentColor containerId (builds.map (·.containerId))

def launch (containerName image : String) : RunProg Nat := do
  call (.pullImage image)
  call (.prepare .projectNetwork)
  call (.prepare .caddyOnNetwork)
  call (.prepare .volumes)
  let containerId ← createContainerWithStaleSlotRecovery containerName image
  call (.containerStart containerId)
  return containerId

/-- The probes of `pollHealthcheck`; an inspection that throws counts as one of them. -/
def probe (containerId intervalMs : Nat) : Nat → RunProg Bool
  | 0 => return false
  | retries + 1 => do
    call (.sleep intervalMs)
    let resp ← (call (.inspectContainerHealth containerId)).attempt
    match resp with
    | .error _ => probe containerId intervalMs retries
    | .ok report =>
      if report.containerMissing then return false
      else
        match report.status with
        | .healthy => return true
        | .unhealthy | .starting => probe containerId intervalMs retries
        | .none => return false

def pollHealthcheck (containerId intervalMs retries startPeriodMs : Nat) : RunProg Bool :=
  if startPeriodMs > 0 then do
    call (.sleep startPeriodMs)
    probe containerId intervalMs retries
  else probe containerId intervalMs retries

structure RunBlueGreenOptions where
  imageRef : String
  runtimePort : Option Nat := none
  healthcheckPath : Option String := none
  healthcheckPort : Option Nat := none
  healthcheckIntervalS : Option Nat := none
  healthcheckRetries : Option Nat := none
  healthcheckStartPeriodS : Option Nat := none
  deriving DecidableEq, Repr

structure RunBlueGreenResult where
  containerId : Nat
  color : Color
  deriving DecidableEq, Repr

def graceMs : Nat := 30000

def AppRow.domainOrDefault (row : AppRow) (appId : String) : String :=
  row.domain.getD (appId ++ ".ploydok.local")

def appNotFound (appId : String) : RunnerError := .error ("App not found: " ++ appId)

def publishContainerLogTail (containerId : Nat) : RunProg Unit :=
  quietly (call (.containerLogs containerId 200))

def knownAppLogPaths : List String :=
  ["/app/storage/logs/laravel.log", "/app/var/log/prod.log", "/app/var/log/dev.log"]

def publishKnownAppLogFiles (containerId : Nat) : RunProg Unit :=
  Prog.forEach knownAppLogPaths fun path => quietly (call (.readContainerFile containerId path))

def abandon (appId : String) (containerId : Nat) (path : String) (port retries : Nat) :
    RunProg RunBlueGreenResult := do
  publishContainerLogTail containerId
  publishKnownAppLogFiles containerId
  stopContainer (.id containerId)
  throw (.deployFailed appId ("Docker health for " ++ path ++ ":" ++ toString port ++
    " did not become healthy after " ++ toString retries ++ " retries"))

def switchTo (appId : String) (row : AppRow) (containerName : String) (port : Nat) :
    RunProg Unit := do
  call (.setUpstream (row.domainOrDefault appId) ⟨containerName,port⟩)
  quietly (call .purgeCloudflare)

def runBlueGreen (appId : String) (opts : RunBlueGreenOptions) : RunProg RunBlueGreenResult := do
  let found ← call .readApp
  match found with
  | none => throw (appNotFound appId)
  | some appRow =>
    let hcPath := (opts.healthcheckPath.or appRow.healthcheckPath).getD "/"
    let runtimePort := (opts.runtimePort.or appRow.runtimePort).getD 3000
    let hcPort := (opts.healthcheckPort.or appRow.healthcheckPort).getD runtimePort
    let hcIntervalS := (opts.healthcheckIntervalS.or appRow.healthcheckIntervalS).getD 5
    let hcRetries := (opts.healthcheckRetries.or appRow.healthcheckRetries).getD 6
    let hcStartPeriodS := (opts.healthcheckStartPeriodS.or appRow.healthcheckStartPeriodS).getD 30
    let currentColor ← readCurrentColor
    let newColor := currentColor.oppositeColor
    let newName := runtimeContainerName appRow.toApp newColor
    let oldNames := runtimeContainerNameCandidates appRow.toApp currentColor
    let newContainerId ← launch newName opts.imageRef
    let healthy ← pollHealthcheck newContainerId (hcIntervalS * 1000) hcRetries
      (hcStartPeriodS * 1000)
    if ¬healthy then abandon appId newContainerId hcPath hcPort hcRetries
    else do
      switchTo appId appRow newName runtimePort
      call (.setLive newName)
      quietly (call .onLive)
      call (.sleep graceMs)
      stopContainerCandidates oldNames
      return ⟨newContainerId,newColor⟩

def stopApp (appId : String) : RunProg Unit := do
  let found ← call .readApp
  match found with
  | none => throw (appNotFound appId)
  | some app =>
    stopBothColors app.toApp
    call .removeUpstream
    call .setStopped

def rollbackTarget (appId : String) (targetBuildId : Option String) : RunProg BuildRow :=
  match truthy targetBuildId with
  | some buildId => do
    let found ← call (.readBuild buildId)
    match found with
    | none => throw (.error ("Rollback build " ++ buildId ++ " not found for app " ++ appId))
    | some build => return build
  | none => do
    let builds ← call (.readSucceededBuilds 2)
    match builds with
    | _ :: build :: _ => return build
    | builds => throw (.error ("Cannot rollback app " ++ appId ++
        ": need at least 2 succeeded builds, found " ++ toString builds.length))

def rollbackApp (appId : String) (targetBuildId : Option String) : RunProg Unit := do
  let previousBuild ← rollbackTarget appId targetBuildId
  match truthy previousBuild.imageTag with
  | none => throw (.error ("Rollback target build " ++ previousBuild.id ++ " has no image_tag"))
  | some imageTag =>
    let currentColor ← readCurrentColor
    let found ← call .readApp
    match found with
    | none => throw (appNotFound appId)
    | some appRow =>
      let rollbackName := runtimeContainerName appRow.toApp currentColor.oppositeColor
      let oldNames := runtimeContainerNameCandidates appRow.toApp currentColor
      call .loadRuntimeEnv
      let _ ← launch rollbackName imageTag
      switchTo appId appRow rollbackName (appRow.runtimePort.getD 3000)
      stopContainerCandidates oldNames
      call (.setLive rollbackName)

def runRestartHeavyWork (appId imageRef : String) : RunProg Unit := do
  let found ← call .readApp
  match found with
  | none => throw (appNotFound appId)
  | some app =>
    stopBothColors app.toApp
    call .removeUpstream
    let row ← call .readApp
    let runtimePort := (row.bind (·.runtimePort)).getD 3000
    call .loadRuntimeEnv
    let _ ← runBlueGreen appId { imageRef := imageRef, runtimePort := some runtimePort }

/-- `restartApp`: in the background, what follows the update of the row only has its errors logged.
-/
def restartAppIn (background : Bool) (appId : String) : RunProg Unit := do
  let rows ← call (.readSucceededBuilds 1)
  match truthy (rows.head?.bind (·.imageTag)) with
  | none => throw (.error ("Cannot restart app " ++ appId ++
      ": no succeeded build with an image_tag"))
  | some imageTag =>
    call .setRestarting
    if background then quietly (runRestartHeavyWork appId imageTag)
    else runRestartHeavyWork appId imageTag

def restartApp (appId : String) : RunProg Unit := restartAppIn false appId

inductive Operation where
  | deploy (opts : RunBlueGreenOptions)
  | rollback (targetBuildId : Option String)
  | restart
  | stop
  deriving DecidableEq, Repr

def Operation.run (appId : String) : Operation → RunProg Unit
  | deploy opts => do let _ ← runBlueGreen appId opts
  | rollback targetBuildId => rollbackApp appId targetBuildId
  | restart => restartApp appId
  | stop => stopApp appId

def World.setRow (w : World) (f : AppRow → AppRow) : World := { w with row := w.row.map f }

/-- A call that is carried out. The health that an inspection finds is up to the app. -/
def Responds : (o : Call) → World → o.Res → World → Prop
  | .readApp, w, r, w' => r = w.row ∧ w' = w
  | .readContainerId, w, r, w' => r = w.row.bind (·.containerId) ∧ w' = w
  | .readBuild id, w, r, w' => r = w.builds.find? (·.id = id) ∧ w' = w
  | .readSucceededBuilds limit, w, r, w' =>
    r = (w.builds.filter (·.status = .succeeded)).take limit ∧ w' = w
  | .containerCreate name image, w, r, w' =>
    ∃ d, w.docker.create? name image = some (r, d) ∧ w' = { w with docker := d }
  | .containerStart id, w, _, w' =>
    w.docker.has (.id id) = true ∧ w' = { w with docker := w.docker.setRunning (.id id) true }
  | .inspectContainerHealth id, w, r, w' =>
    r.containerMissing = !w.docker.has (.id id) ∧ w' = w
  | .containerStop ref, w, _, w' =>
    w.docker.has ref = true ∧ w' = { w with docker := w.docker.setRunning ref false }
  | .containerRemove ref, w, _, w' =>
    w.docker.has ref = true ∧ w' = { w with docker := w.docker.remove ref }
  | .getUpstream, w, r, w' => r = w.route.map (·.upstream) ∧ w' = w
  | .setUpstream domain upstream, w, _, w' => w' = { w with route := some ⟨domain,upstream⟩ }
  | .removeUpstream, w, _, w' => w' = { w with route := none }
  | .setLive containerId, w, _, w' =>
    w' = w.setRow fun row => { row with containerId := some containerId, status := .running }
  | .setRestarting, w, _, w' => w' = w.setRow fun row => { row with status := .restarting }
  | .setStopped, w, _, w' =>
    w' = w.setRow fun row => { row with containerId := none, status := .stopped }
  | _, w, _, w' => w' = w

/-- What the agent refuses because of the containers it has. -/
def Refuses : Call → World → RunnerError → Prop
  | .containerCreate name _, w, e =>
    w.docker.has (.name name) = true ∧ ∃ details, e = .agent .alreadyExists details
  | .containerStart id, w, e =>
    w.docker.has (.id id) = false ∧ ∃ details, e = .agent .notFound details
  | .containerStop ref, w, e => w.docker.has ref = false ∧ ∃ details, e = .agent .notFound details
  | .containerRemove ref, w, e =>
    w.docker.has ref = false ∧ ∃ details, e = .agent .notFound details
  | _, _, _ => False

def Call.fallible : Call → Bool
  | .sleep _ | .turn => false
  | _ => true

/-- Which calls may fail on their own: without effect, or after they were carried out. -/
structure Faults where
  (fails loses : Call → Prop)

def Faults.none : Faults := ⟨fun _ => False,fun _ => False⟩

def platformSem (f : Faults) : Sem Platform RunnerError World := fun o w r w' =>
  match r with
  | .ok a => Responds o w a w'
  | .error e => (Refuses o w e ∧ w' = w) ∨ (o.fallible = true ∧ f.fails o ∧ w' = w) ∨
      (o.fallible = true ∧ f.loses o ∧ ∃ a, Responds o w a w')

/-- Containers are healthy, and no call fails on its own. -/
def serve : Handler Platform RunnerError World
  | .readApp, w => (.ok w.row, w)
  | .readContainerId, w => (.ok (w.row.bind (·.containerId)), w)
  | .readBuild id, w => (.ok (w.builds.find? (·.id = id)), w)
  | .readSucceededBuilds limit, w =>
    (.ok ((w.builds.filter (·.status = .succeeded)).take limit), w)
  | .containerCreate name image, w =>
    match w.docker.create? name image with
    | some (id, d) => (.ok id, { w with docker := d })
    | none => (.error (.agent .alreadyExists "create_container"), w)
  | .containerStart id, w =>
    if w.docker.has (.id id) then
      (.ok (), { w with docker := w.docker.setRunning (.id id) true })
    else (.error (.agent .notFound "start_container"), w)
  | .inspectContainerHealth id, w => (.ok ⟨!w.docker.has (.id id),.healthy⟩, w)
  | .containerStop ref, w =>
    if w.docker.has ref then (.ok (), { w with docker := w.docker.setRunning ref false })
    else (.error (.agent .notFound "stop_container"), w)
  | .containerRemove ref, w =>
    if w.docker.has ref then (.ok (), { w with docker := w.docker.remove ref })
    else (.error (.agent .notFound "remove_container"), w)
  | .getUpstream, w => (.ok (w.route.map (·.upstream)), w)
  | .setUpstream domain upstream, w => (.ok (), { w with route := some ⟨domain,upstream⟩ })
  | .removeUpstream, w => (.ok (), { w with route := none })
  | .setLive containerId, w =>
    (.ok (), w.setRow fun row => { row with containerId := some containerId, status := .running })
  | .setRestarting, w => (.ok (), w.setRow fun row => { row with status := .restarting })
  | .setStopped, w =>
    (.ok (), w.setRow fun row => { row with containerId := none, status := .stopped })
  | .loadRuntimeEnv, w | .pullImage _, w | .prepare _, w | .containerLogs .., w
  | .readContainerFile .., w | .purgeCloudflare, w | .onLive, w | .sleep _, w => (.ok (), w)
  | .turn, w => (.ok true, w)

theorem platformSem_serve (f : Faults) (o : Call) (w : World) :
    platformSem f o w (serve o w).1 (serve o w).2 := by
  cases o with
  | containerCreate name image =>
    simp only [serve]
    split
    · next id d h => exact ⟨d,h,rfl⟩
    · next h =>
      refine .inl ⟨⟨?_,_,rfl⟩,rfl⟩
      unfold Docker.create? at h
      split at h
      · assumption
      · cases h
  | containerStart | containerStop | containerRemove =>
    simp only [serve]
    split
    · next h => exact ⟨h,rfl⟩
    · next h => exact .inl ⟨⟨by simpa using h,_,rfl⟩,rfl⟩
  | _ => simp [serve,platformSem,Responds]

end Ploydok.Runtime
