import Ploydok.Caddy.Protection
import Ploydok.Registry.Collection
import Ploydok.Runtime.Teardown

/-! The deletion of an app, `handleDeleteApp` of `worker/handlers/delete-app.ts`. Its steps are
carried out whatever the others did, and the job has succeeded if none of them reported an error;
several report none although they leave something behind. -/

namespace Ploydok.Apps

open Function
open Ploydok.Runtime (Docker Route RunnerError HostFaults)
open Caddy (Nanoid Domain routeId)
open Registry (GcFaults GcOptions Repos runRegistryGc)

/-! ### Rows and resources -/

structure AppRow extends Runtime.AppRow where
  projectId : String
  runtimeMode : RuntimeMode
  swarmServiceName : Option String
  keepPerRepo : Option Nat
deriving DecidableEq

def AppRow.forRegistry (row : AppRow) : Registry.AppRow where
  toApp := row.toApp
  runtimeMode := row.runtimeMode
  containerId := row.containerId
  swarmServiceName := row.swarmServiceName
  keepPerRepo := row.keepPerRepo

structure DomainRow extends Domain where
  appId : String

structure Project where
  id : String
  networkName : Option String

/-- A service of the swarm, with its label `ploydok.app_id`. -/
structure SwarmService where
  (name appId : String)
deriving DecidableEq

inductive JobStatus where
  | pending | running | succeeded | failed | cancelled
deriving DecidableEq

/-- The flags of a job; one that is not set counts as true. -/
structure DeleteOptions where
  deleteImages : Option Bool := none
  dockerCleanup : Option Bool := none
  deleteBuildArtifacts : Option Bool := none
  deleteCaddyRoutes : Option Bool := none

structure DeleteJob where
  appId : Nanoid
  status : JobStatus
  options : DeleteOptions
  errorMessage : Option String

structure World where
  apps : List AppRow
  builds : List Registry.BuildRow
  domains : List DomainRow
  projects : List Project
  /-- The projects of the rows of `databases` and of `services`. -/
  (databases services : List String)
  /-- The rows of `app_delete_jobs` by their ids. -/
  jobs : String → Option DeleteJob
  docker : Docker
  /-- The label `ploydok.app_id` of a container. -/
  labels : Nat → Option String
  swarm : List SwarmService
  networks : List String
  /-- The routes of Caddy by their ids. -/
  routes : String → Option Route
  repos : Repos
  /-- The apps with a build workspace, with static files and with volumes. -/
  (buildDirs staticDirs volumeDirs : List String)

namespace World

def app? (w : World) (appId : String) : Option AppRow := w.apps.find? (·.id = appId)

def db (w : World) : Registry.Db := ⟨w.apps.map AppRow.forRegistry,w.builds⟩

def runtime (w : World) (appId : String) : Runtime.World where
  row := (w.app? appId).map (·.toAppRow)
  builds := (w.db.newestBuilds (·.appId = appId)).map fun build =>
    ⟨build.id,build.status,build.imageTag,build.containerId⟩
  docker := w.docker
  route := w.routes (routeId appId)

def withRuntime (w : World) (appId : String) (rt : Runtime.World) : World :=
  { w with
    apps := w.apps.map fun row =>
      if row.id = appId then { row with toAppRow := rt.row.getD row.toAppRow } else row
    docker := rt.docker
    routes := update w.routes (routeId appId) rt.route }

end World

/-! ### The steps -/

/-- What goes wrong with the network of the project; all of it is only logged. -/
structure NetworkFaults where
  read : Bool := false
  detach : Bool := false
  remove : Bool := false
  update : Bool := false

structure Faults where
  claim : Option String := none
  host : HostFaults := {}
  registryRows : Option String := none
  registry : GcFaults
  removeRoute : Option String := none
  buildArtifacts : Option String := none
  staticArtifacts : Option String := none
  appVolumes : Option String := none
  network : NetworkFaults := {}
  dbCascade : Option String := none
  finalize : JobStatus → Option String := fun _ => none

def errToString : RunnerError → String
  | .error message => message
  | .deployFailed appId reason => "DeployFailedError[" ++ appId ++ "]: " ++ reason
  | .agent _ details => details

section Steps

variable (faults : Faults) (appId : String) (w : World)

def stopContainers : Except String Unit × World :=
  let (out, rt, _) := (Runtime.stopApp appId).exec faults.host.serve
    (w.runtime appId, faults.host.turns)
  (out.mapError errToString, w.withRuntime appId rt)

def wipeOptions : GcOptions := { keepPerRepo := 0, appFilter := some appId }

def wipeImages : Except String Unit × World :=
  match faults.registryRows with
  | some e => (.error e, w)
  | none =>
    let (out, repos) := runRegistryGc w.db (wipeOptions appId) faults.registry w.repos
    (out.map fun _ => (), { w with repos := repos })

def once (fault : Option String) (done : World) : Except String Unit × World :=
  match fault with
  | some e => (.error e, w)
  | none => (.ok (), done)

def removeRoute : Except String Unit × World :=
  once w faults.removeRoute { w with routes := update w.routes (routeId appId) none }

def removeBuildArtifacts : Except String Unit × World :=
  once w faults.buildArtifacts { w with buildDirs := w.buildDirs.filter (· ≠ appId) }

def removeStaticArtifacts : Except String Unit × World :=
  once w faults.staticArtifacts { w with staticDirs := w.staticDirs.filter (· ≠ appId) }

def purgeAppVolumeRoot : Except String Unit × World :=
  once w faults.appVolumes { w with volumeDirs := w.volumeDirs.filter (· ≠ appId) }

def deleteRow : Except String Unit × World :=
  once w faults.dbCascade
    { w with
      apps := w.apps.filter (·.id ≠ appId)
      builds := w.builds.filter (·.appId ≠ appId)
      domains := w.domains.filter (·.appId ≠ appId) }

def projectHasRemainingNetworkConsumers (projectId : String) : Bool :=
  w.apps.any (fun row => row.projectId = projectId && row.id ≠ appId) ||
    w.databases.contains projectId || w.services.contains projectId

def dropProjectNetwork : World :=
  match w.app? appId with
  | none => w
  | some row =>
    if faults.network.read || projectHasRemainingNetworkConsumers appId w row.projectId then w
    else
      match truthy ((w.projects.find? (·.id = row.projectId)).bind (·.networkName)) with
      | none => w
      | some network =>
        if faults.network.detach || faults.network.remove then w
        else
          let w := { w with networks := w.networks.filter (· ≠ network) }
          if faults.network.update then w
          else
            { w with projects := w.projects.map fun p =>
                if p.id = row.projectId then { p with networkName := none } else p }

end Steps

/-! ### The handler -/

structure StepResult where
  ok : Bool
  error : Option String

structure Steps where
  (containers registry caddy buildArtifacts staticArtifacts appVolumes dbCascade : StepResult)

namespace Steps

def values (steps : Steps) : List StepResult :=
  [steps.containers, steps.registry, steps.caddy, steps.buildArtifacts, steps.staticArtifacts,
    steps.appVolumes, steps.dbCascade]

def finalStatus (steps : Steps) : JobStatus :=
  if steps.values.all (·.ok) then .succeeded else .failed

def errorMsg (steps : Steps) : String :=
  String.intercalate "; " (steps.values.filterMap fun step => truthy step.error)

end Steps

/-- A step that its flag may skip. An error is kept for the report. -/
def step (enabled : Bool) (run : World → Except String Unit × World) (w : World) :
    StepResult × World :=
  if enabled then
    match run w with
    | (.ok _, w') => (⟨true,none⟩, w')
    | (.error e, w') => (⟨false,some e⟩, w')
  else (⟨true,none⟩, w)

def cascade (faults : Faults) (options : DeleteOptions) (appId : String) (w : World) :
    Steps × World :=
  let deleteImages := options.deleteImages.getD true
  let dockerCleanup := options.dockerCleanup.getD true
  let deleteBuildArtifacts := options.deleteBuildArtifacts.getD true
  let deleteCaddyRoutes := options.deleteCaddyRoutes.getD true
  let containers := step dockerCleanup (stopContainers faults appId) w
  let registry := step deleteImages (wipeImages faults appId) containers.2
  let caddy := step (deleteCaddyRoutes && !dockerCleanup) (removeRoute faults appId) registry.2
  let builds := step deleteBuildArtifacts (removeBuildArtifacts faults appId) caddy.2
  let statics := step true (removeStaticArtifacts faults appId) builds.2
  let volumes := step true (purgeAppVolumeRoot faults appId) statics.2
  let row := step true (deleteRow faults appId) (dropProjectNetwork faults appId volumes.2)
  (⟨containers.1,registry.1,caddy.1,builds.1,statics.1,volumes.1,row.1⟩, row.2)

structure Payload where
  (jobId appId : Option String)

inductive Outcome where
  | unauthorized (reason : String)
  | finished
  | threw (message : String)
deriving DecidableEq

def World.claim (w : World) (jobId : String) (job : DeleteJob) : World :=
  { w with jobs := update w.jobs jobId (some { job with status := .running }) }

def claimQueuedRow (jobId : String) (w : World) : Option (DeleteJob × World) :=
  match w.jobs jobId with
  | none => none
  | some job =>
    if job.status = .pending then some (job, w.claim jobId job) else none

def finalize (faults : Faults) (jobId : String) (status : JobStatus) (errorMessage : String)
    (w : World) : Except String Unit × World :=
  once w (faults.finalize status)
    { w with jobs := update w.jobs jobId ((w.jobs jobId).map fun job =>
        { job with
          status := status
          errorMessage := (truthy (some errorMessage)).or job.errorMessage }) }

def handleDeleteApp (faults : Faults) (payload : Payload) (w : World) : Outcome × World :=
  match truthy payload.jobId with
  | none =>
    if (truthy payload.appId).isSome then
      (.unauthorized "legacy payload format — drop after queue drain", w)
    else (.unauthorized "jobId missing from payload", w)
  | some jobId =>
    match faults.claim with
    | some e => (.threw e, w)
    | none =>
      match claimQueuedRow jobId w with
      | none => (.unauthorized "app_delete_job row not found or not pending", w)
      | some (job, w) =>
        let (steps, w) := cascade faults job.options job.appId.text w
        match finalize faults jobId steps.finalStatus steps.errorMsg w with
        | (.ok _, w) => (.finished, w)
        | (.error e, w) =>
          match finalize faults jobId .failed e w with
          | (.ok _, w) => (.threw e, w)
          | (.error e, w) => (.threw e, w)

end Ploydok.Apps
