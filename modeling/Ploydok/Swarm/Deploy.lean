import Ploydok.Effect.Program
import Ploydok.Swarm.Tasks

/-! The deploy of an app as a swarm service: `runSwarmDeploy` of `worker/swarm-runner.ts` with the
networks it prepares, as a program of its calls. The service is created if the app row names none,
and updated otherwise; the row gets the name only at the end. -/

namespace Ploydok.Swarm

open Effect Effect.Prog Text
open Ploydok.Runtime (toLowerCase runtimeServiceName healthcheckShell)

/-! ### Rows and requests -/

structure AppRow where
  (id slug : String)
  domain : Option String
  runtimePort : Option Nat
  healthcheckPath : Option String
  healthcheckPort : Option Nat
  (healthcheckIntervalS healthcheckTimeoutS healthcheckRetries healthcheckStartPeriodS : Option Int)
  (projectId ownerId : String)
  replicas : Option Int
  updateOrder : Option String
  (updateParallelism updateDelayS updateMonitorS : Option Int)
  failureAction : Option String
  stopGracePeriodS : Option Int
  swarmServiceName : Option String
  runtimeMode : String
  containerId : Option String
  status : String

structure Mount where
  (hostPath containerPath : String)
  readOnly : Bool

structure HealthcheckSpec where
  test : List String
  (intervalSeconds timeoutSeconds retries startPeriodSeconds : Int)

/-- The specification of a service; of two entries of the environment with one key the later
one counts. -/
structure ServiceSpec where
  (name image : String)
  (env labels : List (String × String))
  networks : List String
  mounts : List Mount
  healthcheck : HealthcheckSpec
  (replicas runtimePort : Nat)
  (updateParallelism updateDelaySeconds updateMonitorSeconds : Int)
  (updateOrder failureAction : String)
  stopGracePeriodSeconds : Int

structure VolumeRow where
  (id mountPath : String)

/-- A managed database with a container; the loop over them skips an empty id. -/
structure DatabaseRow where
  host : Option String
  containerId : String

inductive GrpcStatus where
  | alreadyExists
  | notFound
  | internal
  | other
  deriving DecidableEq

inductive SwarmError where
  | error (message : String)
  | grpc (code : GrpcStatus) (details : String)

def mentions (details phrase : String) : Bool :=
  includes (toLowerCase details.toList) phrase.toList

def SwarmError.isAlreadyExists : SwarmError → Bool
  | .error _ => false
  | .grpc code details =>
    code = .alreadyExists || (code = .internal && mentions details "already exists")

def SwarmError.isNotFound : SwarmError → Bool
  | .error _ => false
  | .grpc code details => code = .notFound || (code = .internal &&
      (mentions details "no such" || mentions details "not found" ||
        mentions details "is not connected"))

def SwarmError.mentionsContainer : SwarmError → Bool
  | .error message => mentions message "container"
  | .grpc _ details => mentions details "container"

def SwarmError.saysAlready : SwarmError → Bool
  | .error message => includes message.toList "already exists".toList
  | .grpc code details => code = .alreadyExists || mentions details "already exists" ||
      mentions details "already connected" || mentions details "is already attached"

inductive Call where
  | selectApp
  | swarmEnsureSingleNode
  | listAppVolumes
  | makeDirectories (paths : List String)
  | selectProject (projectId : String)
  | networkCreate (name : String)
  | selectDatabases (projectId : String)
  | caddyContainer
  | networkConnect (networkId containerId : String) (aliases : List String)
  | serviceCreate (spec : ServiceSpec)
  | serviceUpdateImage (spec : ServiceSpec)
  | listServiceTasks (serviceName : String)
  | sleep (ms : Nat)
  | setUpstream (domain host : String) (port : Nat)
  | purgeCloudflare
  | updateApp (serviceName : String)
  | onLive

@[reducible] def Call.Res : Call → Type
  | .selectApp => Option AppRow
  | .listAppVolumes => List VolumeRow
  | .selectProject _ => Bool
  | .selectDatabases _ => List DatabaseRow
  | .caddyContainer => Option String
  | .listServiceTasks _ => List SwarmTaskSnapshot
  | _ => Unit

abbrev Platform : Sig := ⟨Call,Call.Res⟩

abbrev SwarmProg := Prog Platform SwarmError

abbrev ask (o : Call) : SwarmProg o.Res := Prog.perform (S := Platform) o

def projectSwarmNetworkName (projectId : String) : String :=
  "ploydok-swarm-proj-" ++ String.ofList (toLowerCase projectId.toList)

def tolerating (accepts : SwarmError → Bool) (p : SwarmProg Unit) : SwarmProg Unit :=
  p.tryCatch fun err => if accepts err then .ret () else .throw err

def ensureProjectSwarmNetwork (projectId : String) : SwarmProg String :=
  (ask (.selectProject projectId)).bind fun (found : Bool) =>
    if found then
      (tolerating SwarmError.saysAlready
        (ask (.networkCreate (projectSwarmNetworkName projectId)))).bind fun _ =>
        .ret (projectSwarmNetworkName projectId)
    else .throw (.error ("Project not found: " ++ projectId))

def attachDatabase (network : String) (db : DatabaseRow) : SwarmProg Unit :=
  tolerating (fun err => err.isAlreadyExists || err.saysAlready)
    (ask (.networkConnect network db.containerId (db.host.toList.filter (· ≠ ""))))

def ensureProjectDatabasesOnSwarmNetwork (projectId network : String) : SwarmProg Unit :=
  (ask (.selectDatabases projectId)).bind fun rows => Prog.forEach rows (attachDatabase network)

def resolveCaddyContainerId : SwarmProg String :=
  (ask .caddyContainer).bind fun
    | some id => .ret id
    | none => .throw (.error "caddy container not found")

/-- Attached already is fine; a container that is gone is looked up once more. -/
def ensureCaddyOnProjectNetwork (network : String) : SwarmProg Unit :=
  resolveCaddyContainerId.bind fun caddyId =>
    (ask (.networkConnect network caddyId [])).tryCatch fun err =>
      if err.isAlreadyExists then .ret ()
      else if err.isNotFound && err.mentionsContainer then
        resolveCaddyContainerId.bind fun freshId => ask (.networkConnect network freshId [])
      else .throw err

/-! ### The deploy -/

/-- `polls` is the number of rounds that fit into the time the deploy waits for healthy tasks. -/
structure RunSwarmDeployOptions where
  (appId imageRef : String)
  env : List (String × String)
  runtimePort : Option Nat
  hasOnLive : Bool
  polls : Nat
  volumesRoot : String

namespace AppRow

/-- `app.swarm_service_name ?? runtimeServiceName(app)`. -/
def serviceName (app : AppRow) : String :=
  app.swarmServiceName.getD (runtimeServiceName ⟨app.id,app.slug⟩)

/-- The row names a service; the empty text is no name. -/
def named (app : AppRow) : Bool := app.swarmServiceName.any (· ≠ "")

def replicaCount (app : AppRow) : Nat := (max 1 (app.replicas.getD 1)).toNat

def port (app : AppRow) (opts : RunSwarmDeployOptions) : Nat :=
  opts.runtimePort.getD (app.runtimePort.getD 3000)

end AppRow

def mountOf (opts : RunSwarmDeployOptions) (volume : VolumeRow) : Mount :=
  { hostPath := opts.volumesRoot ++ "/" ++ opts.appId ++ "/" ++ volume.id
    containerPath := volume.mountPath
    readOnly := false }

def specOf (opts : RunSwarmDeployOptions) (app : AppRow) (mounts : List Mount) (network : String) :
    ServiceSpec where
  name := app.serviceName
  image := opts.imageRef
  env := opts.env ++ [("PORT", toString (app.port opts)), ("PLOYDOK_RUNTIME_MODE", "swarm"),
    ("PLOYDOK_SERVICE_NAME", app.serviceName)]
  labels := [("ploydok.kind", "app"), ("ploydok.app_id", opts.appId),
    ("ploydok.owner_id", app.ownerId), ("ploydok.runtime", "swarm")]
  networks := [network]
  mounts := mounts
  healthcheck :=
    { test := ["CMD-SHELL", healthcheckShell (app.healthcheckPort.getD (app.port opts))
        (app.healthcheckPath.getD "/")]
      intervalSeconds := app.healthcheckIntervalS.getD 5
      timeoutSeconds := app.healthcheckTimeoutS.getD 3
      retries := app.healthcheckRetries.getD 6
      startPeriodSeconds := app.healthcheckStartPeriodS.getD 30 }
  replicas := app.replicaCount
  runtimePort := app.port opts
  updateParallelism := app.updateParallelism.getD 1
  updateDelaySeconds := app.updateDelayS.getD 10
  updateMonitorSeconds := app.updateMonitorS.getD 30
  updateOrder := app.updateOrder.getD "start-first"
  failureAction := app.failureAction.getD "rollback"
  stopGracePeriodSeconds := app.stopGracePeriodS.getD 10

/-- `listRuntimeAppVolumeMounts` with its directories. -/
def listRuntimeAppVolumeMounts (opts : RunSwarmDeployOptions) : SwarmProg (List Mount) :=
  (ask .listAppVolumes).bind fun (rows : List VolumeRow) =>
    if rows = [] then .ret []
    else (ask (.makeDirectories ((rows.map (mountOf opts)).map (·.hostPath)))).bind fun _ =>
      .ret (rows.map (mountOf opts))

def prepare (opts : RunSwarmDeployOptions) (app : AppRow) : SwarmProg (List Mount × String) :=
  (ask .swarmEnsureSingleNode).bind fun _ =>
    (listRuntimeAppVolumeMounts opts).bind fun mounts =>
      if app.replicaCount > 1 && mounts.any (fun mount => !mount.readOnly) then
        .throw (.error
          "Cannot run more than one replica while the app has writable local volumes")
      else
        (ensureProjectSwarmNetwork app.projectId).bind fun network =>
          (ensureProjectDatabasesOnSwarmNetwork app.projectId network).bind fun _ =>
            (ensureCaddyOnProjectNetwork network).bind fun _ => .ret (mounts, network)

def createOrUpdateService (app : AppRow) (spec : ServiceSpec) : SwarmProg Unit :=
  if app.named then ask (.serviceUpdateImage spec) else ask (.serviceCreate spec)

def pollMs : Nat := 2000

/-- The rounds of `waitForServiceHealthy` until its time is over. -/
def waitForServiceHealthy (serviceName : String) (replicas : Nat) : Nat → SwarmProg Unit
  | 0 => .throw (.error ("Swarm service " ++ serviceName ++ " did not reach " ++
      toString replicas ++ " healthy task(s)"))
  | rounds + 1 =>
    (ask (.listServiceTasks serviceName)).bind fun (tasks : List SwarmTaskSnapshot) =>
      if replicas ≤ (tasks.filter fun task => taskIsHealthy task.status).length then .ret ()
      else (ask (.sleep pollMs)).bind fun _ => waitForServiceHealthy serviceName replicas rounds

def switchRoute (opts : RunSwarmDeployOptions) (app : AppRow) : SwarmProg Unit :=
  match app.domain.filter (· ≠ "") with
  | none => .ret ()
  | some domain =>
    (ask (.setUpstream domain app.serviceName (app.port opts))).bind fun _ => ask .purgeCloudflare

def announce (opts : RunSwarmDeployOptions) : SwarmProg Unit :=
  if opts.hasOnLive then ask .onLive else .ret ()

def finish (opts : RunSwarmDeployOptions) (app : AppRow) : SwarmProg String :=
  (switchRoute opts app).bind fun _ =>
    (ask (.updateApp app.serviceName)).bind fun _ =>
      (announce opts).bind fun _ => .ret app.serviceName

def runSwarmDeploy (opts : RunSwarmDeployOptions) : SwarmProg String :=
  (ask .selectApp).bind fun
    | none => .throw (.error ("App not found: " ++ opts.appId))
    | some (app : AppRow) =>
      (prepare opts app).bind fun prepared =>
        (createOrUpdateService app (specOf opts app prepared.1 prepared.2)).bind fun _ =>
          (waitForServiceHealthy app.serviceName app.replicaCount opts.polls).bind fun _ =>
            finish opts app

structure World where
  row : Option AppRow
  projects : List String
  volumes : List VolumeRow
  databases : List DatabaseRow
  containers : List String
  caddy : Option String
  networks : List String
  attached : List (String × String)
  accepts : ServiceSpec → Bool
  services : List ServiceSpec
  upstream : Option (String × Nat)
  polls : Nat → List Container
  polled : Nat

def AppRow.live (app : AppRow) (serviceName : String) : AppRow :=
  { app with
    runtimeMode := "swarm", swarmServiceName := some serviceName, containerId := none
    status := "running" }

def World.hasService (w : World) (name : String) : Bool := w.services.any (·.name = name)

/-- The answer to a call on a host without faults. A specification may be refused by the agent or by
Docker. -/
def serve : (o : Call) → World → Except SwarmError o.Res × World
  | .selectApp, w => (.ok w.row, w)
  | .swarmEnsureSingleNode, w => (.ok (), w)
  | .listAppVolumes, w => (.ok w.volumes, w)
  | .makeDirectories _, w => (.ok (), w)
  | .selectProject id, w => (.ok (w.projects.contains id), w)
  | .networkCreate name, w =>
    if name ∈ w.networks then (.error (.grpc .alreadyExists "create_network"), w)
    else (.ok (), { w with networks := w.networks ++ [name] })
  | .selectDatabases _, w => (.ok w.databases, w)
  | .caddyContainer, w => (.ok w.caddy, w)
  | .networkConnect network container _, w =>
    if container ∉ w.containers then
      (.error (.grpc .notFound "connect_network: No such container"), w)
    else if w.attached.contains (network, container) then
      (.error (.grpc .alreadyExists "connect_network"), w)
    else (.ok (), { w with attached := w.attached ++ [(network, container)] })
  | .serviceCreate spec, w =>
    if ¬ w.accepts spec then (.error (.grpc .other "create_service"), w)
    else if w.hasService spec.name then (.error (.grpc .alreadyExists "create_service"), w)
    else (.ok (), { w with services := w.services ++ [spec] })
  | .serviceUpdateImage spec, w =>
    if ¬ w.accepts spec then (.error (.grpc .other "update_service"), w)
    else if ¬ w.hasService spec.name then (.error (.grpc .notFound "inspect_service"), w)
    else (.ok (), { w with
      services := w.services.map fun s => if s.name = spec.name then spec else s })
  | .listServiceTasks name, w =>
    (.ok (listServiceTasks name (w.polls w.polled)), { w with polled := w.polled + 1 })
  | .sleep _, w => (.ok (), w)
  | .setUpstream _ host port, w => (.ok (), { w with upstream := some (host, port) })
  | .purgeCloudflare, w => (.ok (), w)
  | .updateApp name, w => (.ok (), { w with row := w.row.map (·.live name) })
  | .onLive, w => (.ok (), w)

/-- With faults: any call may fail, without effect or after it was carried out. -/
def faultySem : Sem Platform SwarmError World := fun o w r w' =>
  serve o w = (r, w') ∨ ∃ e, r = .error e ∧ (w' = w ∨ w' = (serve o w).2)

/-! ### Preparations without faults -/

def World.rewired (w : World) (networks : List String) (attached : List (String × String)) :
    World := { w with networks := networks, attached := attached }

@[simp] theorem rewired_volumes (w : World) (networks : List String)
    (attached : List (String × String)) : (w.rewired networks attached).volumes = w.volumes := rfl

/-- The program returns the value if a condition holds and throws otherwise; it changes only
networks and attachments. -/
def Ends (p : SwarmProg α) (w : World) (ok : Prop) (a : α) : Prop :=
  ∃ networks attached,
    ok ∧ p.exec serve w = (.ok a, w.rewired networks attached) ∨
      ¬ ok ∧ ∃ e, p.exec serve w = (.error e, w.rewired networks attached)

section Ends

variable {α β : Type} {w : World}

theorem ends_ret (a : α) : Ends (.ret a) w True a :=
  ⟨w.networks,w.attached,.inl ⟨trivial,rfl⟩⟩

theorem ends_throw (e : SwarmError) (a : α) : Ends (.throw e) w False a :=
  ⟨w.networks,w.attached,.inr ⟨id,e,rfl⟩⟩

theorem ends_ask (h : serve o w = (.ok a, w)) : Ends (ask o) w True a :=
  ⟨w.networks,w.attached,.inl ⟨trivial,(exec_perform (S := Platform) serve o w).trans h⟩⟩

variable {p : SwarmProg α} {ok : Prop} {a : α} {f : α → SwarmProg β} {b : β}

theorem Ends.congr (h : Ends p w q a) (hok : q ↔ ok) : Ends p w ok a := by
  rw [← propext hok]
  exact h

theorem Ends.bind (hp : Ends p w ok a)
    (hf : ∀ networks attached, Ends (f a) (w.rewired networks attached) q b) :
    Ends (p.bind f) w (ok ∧ q) b := by
  obtain ⟨networks,attached,⟨hok,hexec⟩ | ⟨hok,e,hexec⟩⟩ := hp
  · obtain ⟨networks',attached',hrest⟩ := hf networks attached
    refine ⟨networks',attached',?_⟩
    rw [exec_bind,hexec]
    exact hrest.imp (fun h => ⟨⟨hok,h.1⟩,h.2⟩) fun h => ⟨fun hboth => h.1 hboth.2,h.2⟩
  · refine ⟨networks,attached,.inr ⟨fun hboth => hok hboth.1,e,?_⟩⟩
    rw [exec_bind,hexec]

theorem Ends.bind_of_true (hp : Ends p w True a)
    (hf : ∀ networks attached, Ends (f a) (w.rewired networks attached) ok b) :
    Ends (p.bind f) w ok b := (hp.bind hf).congr (by simp)

variable (opts : RunSwarmDeployOptions) {container : String}

theorem ends_listRuntimeAppVolumeMounts :
    Ends (listRuntimeAppVolumeMounts opts) w True (w.volumes.map (mountOf opts)) := by
  refine Ends.bind_of_true (ends_ask rfl) fun networks attached => ?_
  by_cases hrows : w.volumes = []
  · rw [if_pos hrows,hrows]
    exact ends_ret _
  · rw [if_neg hrows]
    exact Ends.bind_of_true (ends_ask rfl) fun _ _ => ends_ret _

theorem ends_networkCreate (name : String) :
    Ends (tolerating SwarmError.saysAlready (ask (.networkCreate name))) w True () := by
  have hexec : (ask (.networkCreate name)).exec serve w = serve (.networkCreate name) w :=
    exec_perform (S := Platform) serve _ w
  refine ⟨if name ∈ w.networks then w.networks else w.networks ++ [name],w.attached,
    .inl ⟨trivial,?_⟩⟩
  unfold tolerating
  rw [exec_tryCatch,hexec]
  simp only [serve]
  split_ifs
  · rfl
  · rfl

theorem ends_ensureProjectSwarmNetwork (projectId : String) :
    Ends (ensureProjectSwarmNetwork projectId) w (w.projects.contains projectId = true)
      (projectSwarmNetworkName projectId) := by
  refine Ends.bind_of_true (ends_ask rfl) fun _ _ => ?_
  cases hfound : w.projects.contains projectId with
  | true =>
    refine Ends.congr (q := True) ?_ (by simp)
    exact Ends.bind_of_true (ends_networkCreate _) fun _ _ => ends_ret _
  | false => exact (ends_throw _ _).congr (by simp)

theorem exec_networkConnect (h : container ∈ w.containers)
    (network : String) (aliases : List String) :
    (ask (.networkConnect network container aliases)).exec serve w =
        (.error (.grpc .alreadyExists "connect_network"), w) ∨
      ∃ attached, (ask (.networkConnect network container aliases)).exec serve w =
        (.ok (), w.rewired w.networks attached) := by
  rw [exec_perform]
  simp only [serve,h,not_true_eq_false,↓reduceIte]
  split_ifs
  · exact .inl rfl
  · exact .inr ⟨w.attached ++ [(network, container)],rfl⟩

theorem exec_networkConnect_gone (h : container ∉ w.containers)
    (network : String) (aliases : List String) :
    (ask (.networkConnect network container aliases)).exec serve w =
      (.error (.grpc .notFound "connect_network: No such container"), w) := by
  rw [exec_perform]
  simp [serve,h]

theorem ends_attachDatabase (network : String) (db : DatabaseRow) :
    Ends (attachDatabase network db) w (db.containerId ∈ w.containers) () := by
  unfold attachDatabase tolerating
  by_cases hcontainer : db.containerId ∈ w.containers
  · rcases exec_networkConnect hcontainer network (db.host.toList.filter (· ≠ "")) with
      hexec | ⟨attached,hexec⟩
    · refine ⟨w.networks,w.attached,.inl ⟨hcontainer,?_⟩⟩
      rw [exec_tryCatch,hexec]
      rfl
    · refine ⟨w.networks,attached,.inl ⟨hcontainer,?_⟩⟩
      rw [exec_tryCatch,hexec]
  · refine ⟨w.networks,w.attached,
      .inr ⟨hcontainer,.grpc .notFound "connect_network: No such container",?_⟩⟩
    rw [exec_tryCatch,exec_networkConnect_gone hcontainer]
    dsimp only
    rw [if_neg (by decide)]
    rfl

theorem ends_forEach_attachDatabase (network : String) (rows : List DatabaseRow) :
    Ends (Prog.forEach rows (attachDatabase network)) w
      (∀ db ∈ rows, db.containerId ∈ w.containers) () := by
  induction rows generalizing w with
  | nil => exact (ends_ret ()).congr (by simp)
  | cons db rows ih =>
    have hrest : ∀ networks attached,
        Ends (Prog.forEach rows (attachDatabase network)) (w.rewired networks attached)
          (∀ db ∈ rows, db.containerId ∈ w.containers) () := fun _ _ => ih
    exact ((ends_attachDatabase network db).bind hrest).congr (by simp)

theorem exec_resolveCaddyContainerId (w : World) : resolveCaddyContainerId.exec serve w =
      match w.caddy with
      | some id => (.ok id, w)
      | none => (.error (.error "caddy container not found"), w) := by
  unfold resolveCaddyContainerId
  rw [exec_bind,exec_perform]
  simp only [serve]
  cases w.caddy <;> rfl

theorem exec_caddy_bind {id : String} (h : w.caddy = some id) (f : String → SwarmProg β) :
    (resolveCaddyContainerId.bind f).exec serve w = (f id).exec serve w := by
  rw [exec_bind,exec_resolveCaddyContainerId,h]

theorem ends_ensureCaddyOnProjectNetwork (network : String) :
    Ends (ensureCaddyOnProjectNetwork network) w (∃ id, w.caddy = some id ∧ id ∈ w.containers)
      () := by
  unfold ensureCaddyOnProjectNetwork
  cases hcaddy : w.caddy with
  | none =>
    refine ⟨w.networks,w.attached,.inr ⟨by simp,.error "caddy container not found",?_⟩⟩
    rw [exec_bind,exec_resolveCaddyContainerId,hcaddy]
    rfl
  | some id =>
    unfold Ends
    rw [exec_caddy_bind hcaddy,exec_tryCatch]
    by_cases hid : id ∈ w.containers
    · rcases exec_networkConnect hid network [] with hexec | ⟨attached,hexec⟩
      · exact ⟨w.networks,w.attached,.inl ⟨⟨id,rfl,hid⟩,by rw [hexec]; rfl⟩⟩
      · exact ⟨w.networks,attached,.inl ⟨⟨id,rfl,hid⟩,by rw [hexec]⟩⟩
    · have hgone := exec_networkConnect_gone hid network []
      refine ⟨w.networks,w.attached,
        .inr ⟨by simpa using hid,.grpc .notFound "connect_network: No such container",?_⟩⟩
      rw [hgone]
      dsimp only
      rw [if_neg (by decide)]
      split_ifs
      · rw [exec_caddy_bind hcaddy,hgone]
        rfl
      · rfl

structure World.Ready (w : World) (app : AppRow) : Prop where
  volumes : ¬ (1 < app.replicaCount ∧ w.volumes ≠ [])
  project : w.projects.contains app.projectId = true
  databases : ∀ db ∈ w.databases, db.containerId ∈ w.containers
  caddy : ∃ id, w.caddy = some id ∧ id ∈ w.containers

theorem ends_prepare (app : AppRow) : Ends (prepare opts app) w (w.Ready app)
      (w.volumes.map (mountOf opts), projectSwarmNetworkName app.projectId) := by
  unfold prepare
  refine Ends.bind_of_true (ends_ask (o := .swarmEnsureSingleNode) rfl) fun _ _ => ?_
  refine Ends.bind_of_true (ends_listRuntimeAppVolumeMounts opts) fun _ _ => ?_
  rw [rewired_volumes]
  have hwritable : (w.volumes.map (mountOf opts)).any (fun mount => !mount.readOnly) = true ↔
      w.volumes ≠ [] := by
    cases w.volumes with
    | nil => simp
    | cons volume volumes => simp [mountOf]
  simp only [Bool.and_eq_true,decide_eq_true_eq,hwritable]
  by_cases hvolumes : 1 < app.replicaCount ∧ w.volumes ≠ []
  · rw [if_pos hvolumes]
    exact (ends_throw _ _).congr ⟨False.elim,fun h => h.volumes hvolumes⟩
  · rw [if_neg hvolumes]
    refine Ends.congr ((ends_ensureProjectSwarmNetwork app.projectId).bind
      (q := (∀ db ∈ w.databases, db.containerId ∈ w.containers) ∧
        (∃ id, w.caddy = some id ∧ id ∈ w.containers) ∧ True) fun _ _ => ?_) ?_
    · refine Ends.bind (Ends.bind_of_true (ends_ask rfl) fun _ _ =>
        ends_forEach_attachDatabase _ _) fun _ _ => ?_
      exact (ends_ensureCaddyOnProjectNetwork _).bind fun _ _ => ends_ret _
    · exact ⟨fun h => ⟨hvolumes,h.1,h.2.1,h.2.2.1⟩,
        fun h => ⟨h.project,h.databases,h.caddy,trivial⟩⟩

end Ends

abbrev Enough (serviceName : String) (replicas : Nat) (containers : List Container) : Prop :=
  replicas ≤ ((listServiceTasks serviceName containers).filter
    fun task => taskIsHealthy task.status).length

theorem exec_waitForServiceHealthy (serviceName : String) (replicas rounds : Nat) (w : World) :
    ∃ polled, (∃ i < rounds, Enough serviceName replicas (w.polls (w.polled + i))) ∧
        (waitForServiceHealthy serviceName replicas rounds).exec serve w =
          (.ok (), { w with polled := polled }) ∨
      ¬ (∃ i < rounds, Enough serviceName replicas (w.polls (w.polled + i))) ∧
        ∃ e, (waitForServiceHealthy serviceName replicas rounds).exec serve w =
          (.error e, { w with polled := polled }) := by
  induction rounds generalizing w with
  | zero => exact ⟨w.polled,.inr ⟨by simp,_,rfl⟩⟩
  | succ rounds ih =>
    unfold waitForServiceHealthy
    rw [exec_perform_bind (S := Platform) rfl]
    by_cases hnow : Enough serviceName replicas (w.polls w.polled)
    · refine ⟨w.polled + 1,.inl ⟨⟨0,by omega,hnow⟩,?_⟩⟩
      rw [if_pos hnow]
      rfl
    · rw [if_neg hnow,exec_perform_bind rfl]
      have hlater : (∃ i < rounds, Enough serviceName replicas (w.polls (w.polled + 1 + i))) ↔
          ∃ i < rounds + 1, Enough serviceName replicas (w.polls (w.polled + i)) := by
        constructor
        · rintro ⟨i,hi,henough⟩
          exact ⟨i + 1,by omega,by rwa [← Nat.add_assoc,Nat.add_right_comm]⟩
        · rintro ⟨i,hi,henough⟩
          cases i with
          | zero => exact absurd henough hnow
          | succ i => exact ⟨i,by omega,by rwa [Nat.add_right_comm,Nat.add_assoc]⟩
      obtain ⟨polled,hrest⟩ := ih { w with polled := w.polled + 1 }
      rw [← hlater]
      exact ⟨polled,hrest⟩

def World.spec (w : World) (opts : RunSwarmDeployOptions) (app : AppRow) : ServiceSpec :=
  specOf opts app (w.volumes.map (mountOf opts)) (projectSwarmNetworkName app.projectId)

structure World.Deployable (w : World) (opts : RunSwarmDeployOptions) (app : AppRow) : Prop where
  ready : w.Ready app
  accepted : w.accepts (w.spec opts app) = true
  service : w.hasService app.serviceName = app.named
  healthy : ∃ i < opts.polls, Enough app.serviceName app.replicaCount (w.polls (w.polled + i))

theorem exec_createOrUpdateService (opts : RunSwarmDeployOptions) (app : AppRow) (w : World) :
    ∃ services, (w.accepts (w.spec opts app) = true ∧ w.hasService app.serviceName = app.named) ∧
        (createOrUpdateService app (w.spec opts app)).exec serve w =
          (.ok (), { w with services := services }) ∨
      ¬ (w.accepts (w.spec opts app) = true ∧ w.hasService app.serviceName = app.named) ∧
        ∃ e, (createOrUpdateService app (w.spec opts app)).exec serve w =
          (.error e, { w with services := services }) := by
  have hname : (w.spec opts app).name = app.serviceName := rfl
  unfold createOrUpdateService
  by_cases haccepts : w.accepts (w.spec opts app) = true
  · cases hnamed : app.named with
    | true =>
      rw [if_pos rfl,exec_perform]
      simp only [serve,haccepts,hname,not_true_eq_false,↓reduceIte,true_and]
      by_cases hservice : w.hasService app.serviceName = true
      · exact ⟨_,.inl ⟨hservice,if_neg (not_not_intro hservice)⟩⟩
      · exact ⟨w.services,.inr ⟨hservice,_,if_pos hservice⟩⟩
    | false =>
      rw [if_neg Bool.false_ne_true,exec_perform]
      simp only [serve,haccepts,hname,not_true_eq_false,↓reduceIte,true_and]
      by_cases hservice : w.hasService app.serviceName = true
      · exact ⟨w.services,.inr ⟨by simp [hservice],_,if_pos hservice⟩⟩
      · exact ⟨_,.inl ⟨by simpa using hservice,if_neg hservice⟩⟩
  · refine ⟨w.services,.inr ⟨fun h => haccepts h.1,.grpc .other ?_,?_⟩⟩
    · exact if app.named then "update_service" else "create_service"
    · split_ifs <;> rw [exec_perform] <;> simp [serve,haccepts]

theorem exec_finish (opts : RunSwarmDeployOptions) (app : AppRow) (w : World) :
    ((finish opts app).exec serve w).1 = .ok app.serviceName := by
  unfold finish switchRoute announce
  split
  · rw [Prog.ret_bind]
    split_ifs <;> rfl
  · split_ifs <;> rfl

theorem exec_runSwarmDeploy_ok_iff (opts : RunSwarmDeployOptions) (w : World) :
    (∃ name, ((runSwarmDeploy opts).exec serve w).1 = .ok name) ↔
      ∃ app, w.row = some app ∧ w.Deployable opts app := by
  unfold runSwarmDeploy
  rw [exec_perform_bind (S := Platform) rfl]
  cases hrow : w.row with
  | none => simp
  | some app =>
    simp only [Option.some.injEq,exists_eq_left']
    obtain ⟨networks,attached,⟨hready,hprepare⟩ | ⟨hready,e,hprepare⟩⟩ := ends_prepare opts app
    · have hspec : (w.rewired networks attached).spec opts app = specOf opts app
          (w.volumes.map (mountOf opts)) (projectSwarmNetworkName app.projectId) := rfl
      rw [exec_bind,hprepare]
      dsimp only
      obtain ⟨services,⟨⟨haccepted,hservice⟩,hcreate⟩ | ⟨hservice,e,hcreate⟩⟩ :=
        exec_createOrUpdateService opts app (w.rewired networks attached)
      · rw [hspec] at hcreate
        rw [exec_bind,hcreate]
        dsimp only
        obtain ⟨polled,⟨hhealthy,hwait⟩ | ⟨hhealthy,e,hwait⟩⟩ :=
          exec_waitForServiceHealthy app.serviceName app.replicaCount opts.polls
            { w.rewired networks attached with services := services }
        · refine iff_of_true ⟨app.serviceName,?_⟩ ⟨hready,haccepted,hservice,hhealthy⟩
          rw [exec_bind,hwait]
          exact exec_finish opts app _
        · refine iff_of_false ?_ fun h => hhealthy h.healthy
          rw [exec_bind,hwait]
          simp
      · refine iff_of_false ?_ fun h => hservice ⟨h.accepted,h.service⟩
        rw [hspec] at hcreate
        rw [exec_bind,hcreate]
        simp
    · refine iff_of_false ?_ fun h => hready h.ready
      rw [exec_bind,hprepare]
      simp

inductive Stage where
  | select
  | preparation
  | service
  | wait
  | route
  | record
  | announcement
  deriving DecidableEq

def Call.stage : Call → Stage
  | .selectApp => .select
  | .swarmEnsureSingleNode | .listAppVolumes | .makeDirectories _ | .selectProject _
  | .networkCreate _ | .selectDatabases _ | .caddyContainer | .networkConnect _ _ _ => .preparation
  | .serviceCreate _ | .serviceUpdateImage _ => .service
  | .listServiceTasks _ | .sleep _ => .wait
  | .setUpstream _ _ _ | .purgeCloudflare => .route
  | .updateApp _ => .record
  | .onLive => .announcement

theorem calls_tolerating (h : p.Calls P) : (tolerating accepts p).Calls P := by
  refine calls_tryCatch h fun e => ?_
  split_ifs <;> trivial

theorem calls_resolveCaddyContainerId :
    resolveCaddyContainerId.Calls (Call.stage · = .preparation) := by
  refine calls_bind (calls_perform rfl) fun id => ?_
  split <;> trivial

theorem calls_ensureCaddyOnProjectNetwork (network : String) :
    (ensureCaddyOnProjectNetwork network).Calls (Call.stage · = .preparation) := by
  refine calls_bind calls_resolveCaddyContainerId fun id => ?_
  refine calls_tryCatch (calls_perform rfl) fun e => ?_
  split_ifs
  · trivial
  · exact calls_bind calls_resolveCaddyContainerId fun _ => calls_perform rfl
  · trivial

theorem calls_prepare (opts : RunSwarmDeployOptions) (app : AppRow) :
    (prepare opts app).Calls (Call.stage · = .preparation) := by
  refine calls_bind (calls_perform rfl) fun _ => ?_
  refine calls_bind (calls_bind (calls_perform rfl) fun rows => ?_) fun mounts => ?_
  · split_ifs
    · trivial
    · exact calls_bind (calls_perform rfl) fun _ => trivial
  split_ifs
  · trivial
  refine calls_bind (calls_bind (calls_perform rfl) fun found => ?_) fun network => ?_
  · split_ifs
    · exact calls_bind (calls_tolerating (calls_perform rfl)) fun _ => trivial
    · trivial
  refine calls_bind (calls_bind (calls_perform rfl) fun rows => ?_) fun _ => ?_
  · exact calls_forEach fun db _ => calls_tolerating (calls_perform rfl)
  · exact calls_bind (calls_ensureCaddyOnProjectNetwork network) fun _ => trivial

theorem calls_createOrUpdateService (app : AppRow) (spec : ServiceSpec) :
    (createOrUpdateService app spec).Calls (Call.stage · = .service) := by
  unfold createOrUpdateService
  split_ifs <;> exact calls_perform rfl

theorem calls_waitForServiceHealthy (serviceName : String) (replicas rounds : Nat) :
    (waitForServiceHealthy serviceName replicas rounds).Calls (Call.stage · = .wait) := by
  induction rounds with
  | zero => trivial
  | succ rounds ih =>
    refine calls_bind (calls_perform rfl) fun tasks => ?_
    split_ifs
    · trivial
    · exact calls_bind (calls_perform rfl) fun _ => ih

theorem calls_switchRoute (opts : RunSwarmDeployOptions) (app : AppRow) :
    (switchRoute opts app).Calls (Call.stage · = .route) := by
  unfold switchRoute
  split
  · trivial
  · exact calls_bind (calls_perform rfl) fun _ => calls_perform rfl

theorem calls_announce (opts : RunSwarmDeployOptions) :
    (announce opts).Calls (Call.stage · = .announcement) := by
  unfold announce
  split_ifs
  · exact calls_perform rfl
  · trivial

def shop : AppRow :=
  { id := "a1", slug := "shop", domain := none, runtimePort := none, healthcheckPath := none
    healthcheckPort := none, healthcheckIntervalS := none, healthcheckTimeoutS := none
    healthcheckRetries := none, healthcheckStartPeriodS := none, projectId := "p1"
    ownerId := "o1", replicas := none, updateOrder := none, updateParallelism := none
    updateDelayS := none, updateMonitorS := none, failureAction := none, stopGracePeriodS := none
    swarmServiceName := none, runtimeMode := "container", containerId := none
    status := "stopped" }

def shopOptions : RunSwarmDeployOptions :=
  { appId := "a1", imageRef := "shop:2", env := [], runtimePort := none, hasOnLive := false
    polls := 1, volumesRoot := "/volumes" }

def shopWorld (row : AppRow) (polls : Nat → List Container) : World :=
  { row := some row, projects := ["p1"], volumes := [], databases := [], containers := ["c1"]
    caddy := some "c1", networks := [], attached := [], accepts := fun _ => true, services := []
    upstream := none, polls := polls, polled := 0 }

def healthyPolls (_ : Nat) : List Container :=
  [⟨some "ploydok-app-shop-a1",some "shop:2",some (.up .aboutAMinute (some .healthy))⟩]

theorem runs_exec_serve (opts : RunSwarmDeployOptions) (w : World) :
    (runSwarmDeploy opts).Runs faultySem w ((runSwarmDeploy opts).trace serve w)
      ((runSwarmDeploy opts).exec serve w).1 ((runSwarmDeploy opts).exec serve w).2 :=
  runs_exec (fun _ _ => .inl rfl) _ w

end Ploydok.Swarm
