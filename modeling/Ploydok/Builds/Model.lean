import Ploydok.Columns
import Ploydok.Effect.Pool
import Ploydok.Queue.Bull
import Mathlib.Algebra.Order.Ring.Nat

/-! The rows of `builds` and `apps`, the deploy queue, and the statements made on them. A statement
is one step; time passes between steps; a statement may throw before it had its effect or after it.
-/

namespace Ploydok.Builds

open Effect Queue

structure BuildRow where
  appId : String
  status : BuildStatus
  requestedByUserId : Option String
  createdAt : Nat
  startedAt : Option Nat
  deriving DecidableEq, Repr

structure AppRow where
  status : AppStatus
  gitProvider : Option GitProvider
  (repoFullName branch imageRef : Option String)
  buildMethod : Option BuildMethod
  runtimeMode : RuntimeMode
  (domain containerId swarmServiceName : Option String)
  trackLatest : Bool
  (lastImageDigest pendingImageDigest : Option String)
  deriving DecidableEq, Repr

structure ImageUpdate where
  (fromDigest toDigest : String)
  previousStatus : AppStatus
  deriving DecidableEq, Repr

/-- The data of a deploy job; `valid` says whether the schema of the payload accepts it. -/
structure Payload where
  (buildId appId commitSha : Option String)
  imageUpdate : Option ImageUpdate
  valid : Bool
  deriving DecidableEq, Repr

structure World where
  now : Nat
  builds : String → Option BuildRow
  apps : String → Option AppRow
  /-- The apps that a user may see. -/
  access : String → String → Bool
  /-- Where the route of an app leads. -/
  routes : String → Option String
  queue : Bull Payload

/-- The statements on `apps`, by what they set and where. -/
inductive AppUpdate where
  | status (s : AppStatus)
  | live (containerName : String)
  | liveSwarm (serviceName : String)
  | serving
  /-- `pending_image_digest = null` where it is `toDigest`. -/
  | release (toDigest : String)
  | finalize (toDigest : String)
  deriving DecidableEq, Repr

/-- The row after the update, `none` if the conditions do not hold. -/
def AppUpdate.apply (row : AppRow) : AppUpdate → Option AppRow
  | status s => some { row with status := s }
  | live name => some { row with containerId := some name, status := .running }
  | liveSwarm name => some { row with
      runtimeMode := .swarm, swarmServiceName := some name, containerId := none,
      status := .running }
  | serving => some { row with containerId := none, status := .serving }
  | release toDigest =>
    if row.pendingImageDigest = some toDigest then some { row with pendingImageDigest := none }
    else none
  | finalize toDigest =>
    if row.trackLatest ∧ row.pendingImageDigest = some toDigest then
      some { row with lastImageDigest := some toDigest, pendingImageDigest := none }
    else none

/-- The other columns that a call of `updateBuildStatus` sets. -/
inductive Patch where
  | started | logPath | commitSha | buildMethod | imageTag | finished
  deriving DecidableEq, Repr

def Patch.apply (now : Nat) (row : BuildRow) : Patch → BuildRow
  | started => { row with startedAt := some now }
  | _ => row

inductive DeployError where
  | fatal (message : String)
  | other (message : String)
  deriving DecidableEq, Repr

/-- The parts of a deploy that touch no row that is modelled here. -/
inductive Phase where
  | openLog | loadEnv | preHook | clone | detect | prepare | build | start | purge | cleanup
  | postHook | install | collect
  deriving DecidableEq, Repr

def Phase.Res : Phase → Type
  | clone => Option String
  | detect => BuildMethod
  | start => String
  | postHook => Bool
  | _ => Unit

inductive Call where
  | claim (buildId : String) (expected : List BuildStatus)
  | updateBuildStatus (buildId : String) (status : BuildStatus) (patch : Patch)
  | hydrateBuild (buildId : String)
  | selectBuildStatus (buildId : String)
  | getBuildForApp (buildId appId : String)
  | getAppForDeploy (appId : String)
  | getAppForUser (appId userId : String)
  | selectApp (appId : String)
  | updateApp (appId : String) (update : AppUpdate)
  | phase (p : Phase)
  | switch (appId target : String)
  | stuckRunning
  | stuckPending
  | hasActiveBuild (appId : String)
  | getJobs
  | appOfBuild (buildId : String)
  | removeJob (jobId : String)

def Call.Res : Call → Type
  | claim _ _ => Option BuildRow
  | selectBuildStatus _ | getBuildForApp _ _ => Option BuildStatus
  | getAppForDeploy _ => Option AppRow
  | getAppForUser _ _ => Bool
  | selectApp _ => Option AppRow
  | updateApp _ _ => Bool
  | phase p => p.Res
  | stuckRunning | stuckPending => List (String × String)
  | hasActiveBuild _ => Bool
  | getJobs => List (Job Payload)
  | appOfBuild _ => Option String
  | _ => Unit

abbrev DeploySig : Sig := ⟨Call,Call.Res⟩

abbrev DeployProg := Prog DeploySig DeployError

def call (o : Call) : DeployProg o.Res := Prog.perform (S := DeploySig) o

def act (o : Call) : DeployProg Unit := (call o).bind fun _ => .ret ()

/-! ### Effects -/

namespace World

/-- `UPDATE builds … WHERE id = …`, with the row it returns. -/
def updateBuild (w : World) (id : String) (f : BuildRow → Option BuildRow) :
    Option BuildRow × World :=
  match (w.builds id).bind f with
  | some row => (some row, { w with builds := Function.update w.builds id (some row) })
  | none => (none, w)

def updateApp (w : World) (id : String) (f : AppRow → Option AppRow) : Option AppRow × World :=
  match (w.apps id).bind f with
  | some row => (some row, { w with apps := Function.update w.apps id (some row) })
  | none => (none, w)

end World

def claimRow (expected : List BuildStatus) (row : BuildRow) : Option BuildRow :=
  if row.status ∈ expected then some { row with status := .running } else none

/-- The sticky rule: only a pending or running build is changed. -/
def statusRow (status : BuildStatus) (patch : Patch) (now : Nat) (row : BuildRow) :
    Option BuildRow :=
  if row.status.active then some (patch.apply now { row with status := status }) else none

def stuckThresholdMs : Nat := 30 * 60 * 1000

def BuildRow.stuckRunning (now : Nat) (row : BuildRow) : Bool :=
  row.status = .running && row.startedAt.any fun t => t + stuckThresholdMs < now

def BuildRow.stuckPending (now : Nat) (row : BuildRow) : Bool :=
  row.status = .pending && row.createdAt + stuckThresholdMs < now

def Lists {α β : Type} (r : List (α × β)) (P : α → β → Prop) : Prop := ∀ a b, (a, b) ∈ r ↔ P a b

def Responds : (o : Call) → World → o.Res → World → Prop
  | .claim id expected, w, r, w' => (r, w') = w.updateBuild id (claimRow expected)
  | .updateBuildStatus id status patch, w, _, w' =>
    w' = (w.updateBuild id (statusRow status patch w.now)).2
  | .hydrateBuild _, w, _, w' => w' = w
  | .selectBuildStatus id, w, r, w' => r = (w.builds id).map (·.status) ∧ w' = w
  | .getBuildForApp id appId, w, r, w' =>
    r = ((w.builds id).filter (·.appId = appId)).map (·.status) ∧ w' = w
  | .getAppForDeploy id, w, r, w' => r = w.apps id ∧ w' = w
  | .getAppForUser id userId, w, r, w' => r = w.access id userId ∧ w' = w
  | .selectApp id, w, r, w' => r = w.apps id ∧ w' = w
  | .updateApp id update, w, r, w' =>
    r = (w.updateApp id (update.apply ·)).1.isSome ∧ w' = (w.updateApp id (update.apply ·)).2
  | .phase _, w, _, w' => w' = w
  | .switch appId target, w, _, w' =>
    w' = { w with routes := Function.update w.routes appId (some target) }
  | .stuckRunning, w, r, w' => (Lists r fun id appId =>
    ∃ row, w.builds id = some row ∧ row.appId = appId ∧ row.stuckRunning w.now = true) ∧ w' = w
  | .stuckPending, w, r, w' => (Lists r fun id appId =>
    ∃ row, w.builds id = some row ∧ row.appId = appId ∧ row.stuckPending w.now = true) ∧ w' = w
  | .hasActiveBuild appId, w, r, w' => (r = true ↔
    ∃ id row, w.builds id = some row ∧ row.appId = appId ∧ row.status.active = true) ∧ w' = w
  | .getJobs, w, r, w' => r = w.queue.jobs.filter (·.state.unfinished) ∧ w' = w
  | .appOfBuild id, w, r, w' => r = (w.builds id).map (·.appId) ∧ w' = w
  | .removeJob id, w, _, w' => ∃ q, w.queue.remove id = some q ∧ w' = { w with queue := q }

def Refused : Call → World → Prop
  | .removeJob id, w => w.queue.remove id = none
  | _, _ => False

/-- Which calls may throw which errors: without any effect, or after they were carried out. -/
structure Faults where
  (fails loses : Call → DeployError → Prop)

/-- Time passes, and the call is carried out or throws. -/
def sem (F : Faults) : Sem DeploySig DeployError World := fun o w r w' =>
  ∃ now, w.now ≤ now ∧
    match r with
    | .ok a => Responds o { w with now := now } a w'
    | .error e => ((F.fails o e ∨ Refused o w) ∧ w' = { w with now := now }) ∨
        (F.loses o e ∧ ∃ a, Responds o { w with now := now } a w')

end Ploydok.Builds
