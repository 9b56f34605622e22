import Ploydok.Registry.Collection

/-! Collections between releases. The collector looks for the build of the running container by
comparing `apps.container_id`, a name, with `builds.container_id`, an id of Docker, and never finds
one. A running image is protected only by the age of its tags or as that of the latest succeeded
build. -/

namespace Ploydok.Registry

open Ploydok.Runtime Function List

/-! ### Releases -/

/-- The digests of the images that the live container, the service and its previous specification
run. -/
structure Running where
  (container service previous : Option String)

structure State where
  db : Db
  running : String → Running

namespace State

def live (s : State) (appId : String) : List String :=
  (s.running appId).container.toList ++ (s.running appId).service.toList

def setApp (s : State) (appId : String) (f : AppRow → AppRow) : State :=
  { s with db := { s.db with
    apps := s.db.apps.map fun app => if app.id = appId then f app else app } }

def setRunning (s : State) (appId : String) (f : Running → Running) : State :=
  { s with running := update s.running appId (f (s.running appId)) }

def nextName (s : State) (app : AppRow) : String :=
  runtimeContainerName app.toApp (getCurrentColor app.containerId
    ((s.db.succeededBuilds app.id).map (·.containerId))).oppositeColor

/-- `runBlueGreen`, and likewise the swap of `rollbackApp`: a container from the image in the
free slot. -/
def switchContainer (s : State) (app : AppRow) (digest : String) : State :=
  (s.setApp app.id fun row => { row with containerId := some (s.nextName app) }).setRunning app.id
    fun r => { r with container := some digest }

def setServiceImage (s : State) (appId digest : String) : State :=
  s.setRunning appId fun r => { r with service := some digest, previous := r.service }

def runSwarmDeploy (s : State) (app : AppRow) (serviceName digest : String) : State :=
  (s.setApp app.id fun row =>
    { row with
      runtimeMode := .swarm
      swarmServiceName := some serviceName
      containerId := none }).setServiceImage app.id digest

/-- The build as `handleDeploy` leaves it. -/
def finishBuild (s : State) (build : BuildRow) : State :=
  { s with db := { s.db with builds := build :: s.db.builds } }

end State

def IsContainerId (containerId : String) : Prop :=
  containerId.length = 64 ∧
    ∀ c ∈ containerId.toList, ('0' ≤ c ∧ c ≤ '9') ∨ ('a' ≤ c ∧ c ≤ 'f')

instance : DecidablePred IsContainerId := fun containerId =>
  @instDecidableAnd _ _ inferInstance (decidableBAll
    (fun c => ('0' ≤ c ∧ c ≤ '9') ∨ ('a' ≤ c ∧ c ≤ 'f')) containerId.toList)

def Succeeds (status : BuildStatus) : Prop := status = .succeeded ∨ status = .succeededWithWarning

/-- Operations that went well. The digest is what the image reference resolved to. -/
inductive Step (s : State) : State → Prop
  | create (app : AppRow) (hid : ∀ other ∈ s.db.apps, other.id ≠ app.id)
      (hcontainer : app.containerId = none) (hservice : app.swarmServiceName = none) :
      Step s { db := { s.db with apps := app :: s.db.apps }
               running := update s.running app.id ⟨none,none,none⟩ }
  | deployDocker (app : AppRow) {status : BuildStatus} {id imageRef containerId digest : String}
      {createdAt : Int} (happ : app ∈ s.db.apps) (hmode : app.runtimeMode = .docker)
      (hstatus : Succeeds status) (hid : IsContainerId containerId) :
      Step s ((s.switchContainer app digest).finishBuild
        ⟨id,app.id,status,some imageRef,some containerId,createdAt⟩)
  | deploySwarm (app : AppRow) {status : BuildStatus} {id imageRef serviceName digest : String}
      {createdAt : Int} (happ : app ∈ s.db.apps) (hmode : app.runtimeMode = .swarm)
      (hstatus : Succeeds status) :
      Step s ((s.runSwarmDeploy app serviceName digest).finishBuild
        ⟨id,app.id,status,some imageRef,none,createdAt⟩)
  | rollbackDocker (app : AppRow) (build : BuildRow) {imageTag digest : String}
      (happ : app ∈ s.db.apps) (hmode : app.runtimeMode = .docker)
      (hbuild : build ∈ s.db.succeededBuilds app.id)
      (himage : truthy build.imageTag = some imageTag) : Step s (s.switchContainer app digest)
  | rollbackSwarm (app : AppRow) (build : BuildRow) {imageTag serviceName digest : String}
      (happ : app ∈ s.db.apps) (hmode : app.runtimeMode = .swarm)
      (hservice : app.swarmServiceName = some serviceName)
      (hbuild : build ∈ s.db.succeededBuilds app.id)
      (himage : truthy build.imageTag = some imageTag) : Step s (s.setServiceImage app.id digest)
  | rollbackService (app : AppRow) {serviceName digest : String}
      (happ : app ∈ s.db.apps) (hmode : app.runtimeMode = .swarm)
      (hservice : app.swarmServiceName = some serviceName)
      (hprevious : (s.running app.id).previous = some digest) :
      Step s (s.setServiceImage app.id digest)
  | restart (app : AppRow) {build : BuildRow} {imageTag digest : String} (happ : app ∈ s.db.apps)
      (hbuild : (s.db.succeededBuilds app.id).head? = some build)
      (himage : truthy build.imageTag = some imageTag) : Step s (s.switchContainer app digest)

inductive Reachable : State → Prop
  | empty : Reachable ⟨⟨[],[]⟩,fun _ => ⟨none,none,none⟩⟩
  | step {s s' : State} (hr : Reachable s) (hs : Step s s') : Reachable s'

/-- Apps name their containers and builds have their ids. -/
structure Apart (db : Db) : Prop where
  names : ∀ app ∈ db.apps, ∀ ref, app.containerId = some ref →
    ∃ (named : App) (color : Color), ref = runtimeContainerName named color
  ids : ∀ build ∈ db.builds, ∀ ref, build.containerId = some ref → IsContainerId ref

theorem not_isContainerId_name (app : App) (color : Color) :
    ¬ IsContainerId (runtimeContainerName app color) := by
  rintro ⟨-,hall⟩
  have hp : 'p' ∈ (runtimeContainerName app color).toList := by
    rw [runtimeContainerName_toList]
    exact mem_append_left _ (by decide)
  rcases hall 'p' hp with h | h
  · exact absurd h (by decide)
  · exact absurd h (by decide)

section Steps

variable {s s' : State}

theorem Apart.setApp (h : Apart s.db) (appId : String)
    (hf : ∀ app ref, (f app).containerId = some ref →
      ∃ (named : App) (color : Color), ref = runtimeContainerName named color) :
    Apart (s.setApp appId f).db where
  names := by
    intro row hrow ref href
    obtain ⟨app,happ,rfl⟩ := mem_map.mp hrow
    split_ifs at href
    · exact hf app ref href
    · exact h.names app happ ref href
  ids := h.ids

theorem Apart.finishBuild (h : Apart s.db)
    (hbuild : ∀ ref, build.containerId = some ref → IsContainerId ref) :
    Apart (s.finishBuild build).db where
  names := h.names
  ids := by
    intro b hb
    rcases mem_cons.mp hb with rfl | hb
    · exact hbuild
    · exact h.ids b hb

theorem Apart.switchContainer (h : Apart s.db) (app : AppRow) (digest : String) :
    Apart (s.switchContainer app digest).db :=
  h.setApp app.id fun _ _ href => ⟨_,_,(Option.some.inj href).symm⟩

theorem apart_step (h : Apart s.db) (hs : Step s s') : Apart s'.db := by
  cases hs with
  | create app hid hcontainer hservice =>
    refine ⟨fun row hrow ref href => ?_,h.ids⟩
    rcases mem_cons.mp hrow with rfl | hrow
    · rw [hcontainer] at href
      cases href
    · exact h.names row hrow ref href
  | deployDocker app happ hmode hstatus hid =>
    refine (h.switchContainer _ _).finishBuild fun ref href => ?_
    cases href
    exact hid
  | deploySwarm app happ hmode hstatus =>
    refine (Apart.setApp h _ fun row ref href => ?_).finishBuild fun ref href => ?_
    · cases href
    · cases href
  | rollbackDocker | restart => exact h.switchContainer _ _
  | rollbackSwarm | rollbackService => exact h

theorem apart_of_reachable (h : Reachable s) : Apart s.db := by
  induction h with
  | empty => exact ⟨by simp,by simp⟩
  | step _ hs ih => exact apart_step ih hs

theorem runningTag_eq_none (h : Apart db) (happ : app ∈ db.apps) :
    runningTag db app.containerId = none := by
  unfold runningTag
  cases hid : truthy app.containerId with
  | none => rfl
  | some ref =>
    obtain ⟨named,color,rfl⟩ := h.names app happ ref (truthy_eq_some hid)
    have hfind : db.builds.find? (·.containerId = some (runtimeContainerName named color)) =
        none := by
      rw [find?_eq_none]
      intro build hbuild heq
      exact not_isContainerId_name named color (h.ids build hbuild _ (by simpa using heq))
    simp [hfind]

end Steps

/-! ### Running images -/

def ranked (db : Db) (repos : Repos) (app : AppRow) : List Item :=
  candidates usable (buildDateByTag db app.id) (repos (imageRepoForApp app.id))

/-- The tags of the digest are among the first that are kept, or the latest succeeded build has it.
-/
def Retained (db : Db) (keepPerRepo : Nat) (repos : Repos) (app : AppRow) (digest : String) :
    Prop :=
  (∀ item ∈ ranked db repos app, item.digest = digest →
    item ∈ (ranked db repos app).take (effectiveKeep keepPerRepo app)) ∨
  ∃ item ∈ ranked db repos app, latestTag db app.id = some item.tag ∧ item.digest = digest

instance (db : Db) (keepPerRepo : Nat) (repos : Repos) (app : AppRow) :
    DecidablePred (Retained db keepPerRepo repos app) := fun _ =>
  inferInstanceAs (Decidable ((∀ item ∈ _, _) ∨ ∃ item ∈ _, _))

def RunningImagesStay (s : State) (opts : GcOptions) (repos : Repos) : Prop :=
  ∀ app ∈ s.db.apps, ∀ digest ∈ s.live app.id, (repos (imageRepoForApp app.id)).Stores digest →
    ∀ faults, ((runRegistryGc s.db opts faults repos).2 (imageRepoForApp app.id)).Stores digest

section Images

variable {s : State} {opts : GcOptions} {repos : Repos} {app : AppRow}

theorem mem_apps_of_selected {db : Db} (h : app ∈ db.selected appFilter) : app ∈ db.apps := by
  unfold Db.selected at h
  split at h
  · exact (mem_filter.mp (mem_of_mem_take h)).1
  · exact h

theorem not_appExtra_iff (h : Apart s.db) (happ : app ∈ s.db.apps) :
    ¬ AppExtra s.db keepPerRepo repos app d ↔ Retained s.db keepPerRepo repos app d := by
  have htags : loadProtectedTags s.db app.id app.containerId = (latestTag s.db app.id).toList := by
    rw [loadProtectedTags,runningTag_eq_none h happ]
    rfl
  rw [AppExtra,not_extra_iff,htags,Retained,ranked]
  simp [Option.mem_toList]

theorem no_appExtra_iff (h : Apart s.db) (happ : app ∈ s.db.apps) :
    (∀ d, ¬ AppExtra s.db keepPerRepo repos app d) ↔
      ∀ item ∈ ranked s.db repos app, Retained s.db keepPerRepo repos app item.digest := by
  constructor
  · intro hnone item _
    exact (not_appExtra_iff h happ).mp (hnone item.digest)
  · intro hall d hextra
    obtain ⟨item,hitem,rfl⟩ := hextra.1
    exact (not_appExtra_iff h happ).mpr (hall item (mem_of_mem_drop hitem)) hextra

end Images

/-- A run of the collector keeps the running images exactly when each is retained by every app
scanned in its repository, and has a tag unless no blobs are reclaimed. -/
theorem running_images_stay_iff {s : State} (hs : Reachable s) (opts : GcOptions) (repos : Repos) :
    RunningImagesStay s opts repos ↔ ∀ app ∈ s.db.apps, ∀ digest ∈ s.live app.id,
        (repos (imageRepoForApp app.id)).Stores digest →
        (∀ other ∈ s.db.selected opts.appFilter, imageRepoForApp other.id = imageRepoForApp app.id →
          Retained s.db opts.keepPerRepo repos other digest) ∧
        ((repos (imageRepoForApp app.id)).Tagged digest ∨ opts.skipBlobReclaim = true ∨
          ∀ other ∈ s.db.selected opts.appFilter, ∀ item ∈ ranked s.db repos other,
            Retained s.db opts.keepPerRepo repos other item.digest) := by
  have hapart := apart_of_reachable hs
  refine forall₂_congr fun app happ => forall₂_congr fun d hd => forall_congr' fun hstores => ?_
  rw [stores_runRegistryGc_iff hstores]
  refine and_congr ?_ (or_congr_right (or_congr_right ?_))
  · refine forall₂_congr fun other hother => forall_congr' fun _ => ?_
    exact not_appExtra_iff hapart (mem_apps_of_selected hother)
  · refine forall₂_congr fun other hother => ?_
    exact no_appExtra_iff hapart (mem_apps_of_selected hother)

namespace Example

def containerId : String := "4c01db0b339c4f3d9b3a7b1b0a5c8f0e6d2e4a9c7b5d3f1e0a8c6b4d2f0e1c3a"

def shop : AppRow := ⟨⟨"a1","shop"⟩,.docker,none,none,none⟩

def build (id commit : String) (createdAt : Int) : BuildRow :=
  ⟨id,"a1",.succeeded,some ("localhost:5000/app-a1:" ++ commit),some containerId,createdAt⟩

def created : State where
  db := ⟨[shop],[]⟩
  running := update (fun _ => ⟨none,none,none⟩) "a1" ⟨none,none,none⟩

def shop1 : AppRow := { shop with containerId := some (created.nextName shop) }

def deployed : State :=
  (created.switchContainer shop "sha256:d1").finishBuild (build "b1" "c1" 1)

def shop2 : AppRow := { shop with containerId := some (deployed.nextName shop1) }

def deployedTwice : State :=
  (deployed.switchContainer shop1 "sha256:d2").finishBuild (build "b2" "c2" 2)

def rolledBack : State := deployedTwice.switchContainer shop2 "sha256:d1"

theorem reachable_deployedTwice : Reachable deployedTwice :=
  .step (.step (.step .empty (.create shop (by simp) rfl rfl))
    (.deployDocker shop (by decide +kernel) rfl (.inl rfl) (by decide +kernel)))
    (.deployDocker shop1 (by decide +kernel) rfl (.inl rfl) (by decide +kernel))

def repos : Repos := fun name =>
  if name = "app-a1" then
    { tags := ["c1", "c2"]
      nodup := by decide
      manifest := fun tag =>
        if tag = "c1" then some ⟨"sha256:d1",some 1⟩
        else if tag = "c2" then some ⟨"sha256:d2",some 2⟩
        else none
      untagged := [] }
  else ⟨[],nodup_nil,fun _ => none,[]⟩

end Example

open Example

theorem running_images_stay_example : RunningImagesStay deployedTwice { keepPerRepo := 1 } repos :=
  (running_images_stay_iff reachable_deployedTwice { keepPerRepo := 1 }
    repos).mpr (by decide +kernel)

/-- After a rollback the image of the running container is deleted. -/
theorem rolled_back_image_deleted :
    ¬ ∀ s, Reachable s → ∀ opts repos, RunningImagesStay s opts repos := by
  intro h
  have hreach : Reachable rolledBack := .step reachable_deployedTwice (.rollbackDocker shop2
      (build "b1" "c1" 1) (by decide +kernel) rfl (by decide +kernel)
      (by decide +kernel : truthy _ = some "localhost:5000/app-a1:c1"))
  have hstays := h rolledBack hreach { keepPerRepo := 1 } repos
    { shop with containerId := some (deployedTwice.nextName shop2) }
    (by decide +kernel) "sha256:d1" (by decide +kernel) (by decide +kernel)
    ⟨fun _ => {},⟨true,""⟩,fun _ _ => false⟩
  revert hstays
  decide +kernel

end Ploydok.Registry
