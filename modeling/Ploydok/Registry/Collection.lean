import Ploydok.Registry.Repository
import Ploydok.Deploy.Handler
import Ploydok.Runtime.Names
import Ploydok.Text.Number

/-! The registry collector, `runRegistryGc` of `apps/api/src/worker/handlers/gc-registry.ts`,
over the rows of `apps` and `builds` and every repository of the registry. What a run can delete
is an extra of the registry it started from. -/

namespace Ploydok.Registry

open Ploydok.Runtime Text Function List

/-! ### Rows -/

structure AppRow extends App where
  runtimeMode : RuntimeMode
  (containerId swarmServiceName : Option String)
  keepPerRepo : Option Nat
deriving DecidableEq

structure BuildRow where
  (id appId : String)
  status : BuildStatus
  (imageTag containerId : Option String)
  createdAt : Int
deriving DecidableEq

structure Db where
  apps : List AppRow
  builds : List BuildRow

def imageRepoForApp (appId : String) : String :=
  let sanitized := trimEnds (· == '-') (collapse (fun c => !isAlnum c) '-'
    (toLowerCase appId.toList))
  "app-" ++ if sanitized = [] then "anon" else String.ofList sanitized

namespace Db

/-- `ORDER BY created_at DESC`. -/
def newestBuilds (db : Db) (p : BuildRow → Bool) : List BuildRow :=
  (db.builds.filter p).insertionSort fun a b => b.createdAt ≤ a.createdAt

def succeededBuilds (db : Db) (appId : String) : List BuildRow :=
  db.newestBuilds fun build => build.appId = appId && build.status = .succeeded

def selected (db : Db) (appFilter : Option String) : List AppRow :=
  match truthy appFilter with
  | some id => (db.apps.filter (·.id = id)).take 1
  | none => db.apps

end Db

/-- `imageTag.split(":").at(-1)`. -/
def shortTag (imageTag : String) : String :=
  match splitLast ':' imageTag.toList with
  | some (_, tag) => String.ofList tag
  | none => imageTag

/-- The dates of the builds by tag; of several builds of a tag the oldest one counts. -/
def buildDateByTag (db : Db) (appId tag : String) : Option Int :=
  ((db.newestBuilds (·.appId = appId)).reverse.find? fun build =>
    (truthy build.imageTag).map shortTag = some tag).map (·.createdAt)

def latestTag (db : Db) (appId : String) : Option String :=
  ((db.succeededBuilds appId).head?.bind fun build => truthy build.imageTag).map shortTag

/-- The tag of a build with the `container_id` of the app. -/
def runningTag (db : Db) (containerId : Option String) : Option String :=
  ((truthy containerId).bind fun id => (db.builds.find? (·.containerId = some id)).bind
    fun build => truthy build.imageTag).map shortTag

def loadProtectedTags (db : Db) (appId : String) (containerId : Option String) : List String :=
  (runningTag db containerId).toList ++ (latestTag db appId).toList

structure GcOptions where
  keepPerRepo : Nat := 3
  appFilter : Option String := none
  skipBlobReclaim : Bool := false

structure BlobReclaim where
  ok : Bool
  output : String

structure GcResult where
  (reposScanned tagsDeleted bytesFreed : Nat)
  blobReclaim : Option BlobReclaim

/-- What goes wrong: in the pass over each app, and with `registry garbage-collect`, which may stop
half way. -/
structure GcFaults where
  pass : String → Faults
  blobReclaim : BlobReclaim
  swept : String → String → Bool

abbrev Repos := String → Repo

def effectiveKeep (keepPerRepo : Nat) (app : AppRow) : Nat :=
  if keepPerRepo = 0 then 0 else app.keepPerRepo.getD keepPerRepo

def collectApp (db : Db) (keepPerRepo : Nat) (faults : GcFaults) (app : AppRow) (repos : Repos) :
    Except String (Option Nat) × Repos :=
  let repo := imageRepoForApp app.id
  let (out, collected) := collectRepo (faults.pass app.id)
    (loadProtectedTags db app.id app.containerId) (buildDateByTag db app.id)
    (effectiveKeep keepPerRepo app) (repos repo)
  (out, update repos repo collected)

def collectApps (db : Db) (keepPerRepo : Nat) (faults : GcFaults) :
    List AppRow → Nat → Nat → Repos → Except String (Nat × Nat) × Repos
  | [], scanned, deleted, repos => (.ok (scanned, deleted), repos)
  | app :: apps, scanned, deleted, repos =>
    match collectApp db keepPerRepo faults app repos with
    | (.error e, repos') => (.error e, repos')
    | (.ok none, repos') => collectApps db keepPerRepo faults apps scanned deleted repos'
    | (.ok (some n), repos') =>
      collectApps db keepPerRepo faults apps (scanned + 1) (deleted + n) repos'

def runRegistryGc (db : Db) (opts : GcOptions) (faults : GcFaults) (repos : Repos) :
    Except String GcResult × Repos :=
  match collectApps db opts.keepPerRepo faults (db.selected opts.appFilter) 0 0 repos with
  | (.error e, repos') => (.error e, repos')
  | (.ok (scanned, deleted), repos') =>
    if opts.skipBlobReclaim = false ∧ 0 < deleted then
      (.ok ⟨scanned,deleted,0,some faults.blobReclaim⟩, fun name =>
        (repos' name).sweep fun digest => faults.blobReclaim.ok || faults.swept name digest)
    else (.ok ⟨scanned,deleted,0,none⟩, repos')

/-! ### What a run deletes -/

def AppExtra (db : Db) (keepPerRepo : Nat) (repos : Repos) (app : AppRow) (digest : String) :
    Prop :=
  Extra (loadProtectedTags db app.id app.containerId) (buildDateByTag db app.id)
    (effectiveKeep keepPerRepo app) (repos (imageRepoForApp app.id)) digest

def Repos.without (repos : Repos) (ds : String → List String) : Repos :=
  fun name => (repos name).without (ds name)

def only (repo : String) (ds : List String) (name : String) : List String :=
  if name = repo then ds else []

theorem mem_only : d ∈ only repo ds name ↔ name = repo ∧ d ∈ ds := by
  by_cases h : name = repo <;> simp [only,h]

section Runs

variable {db : Db} {keepPerRepo : Nat} {faults : GcFaults} {repos repos' : Repos} {app : AppRow}
  {d : String} {opts : GcOptions} {out : Except String (Nat × Nat)}

theorem Repos.without_nil (repos : Repos) : repos.without (fun _ => []) = repos := by
  funext name
  exact Repo.without_nil _

theorem Repos.without_without (repos : Repos) (ds ds' : String → List String) :
    (repos.without ds).without ds' = repos.without fun name => ds name ++ ds' name := by
  funext name
  exact Repo.without_without _ _ _

theorem collectApp_spec (db : Db) (keepPerRepo : Nat) (faults : GcFaults) (app : AppRow)
    (repos : Repos) :
    ∃ ds, (collectApp db keepPerRepo faults app repos).2 =
        repos.without (only (imageRepoForApp app.id) ds) ∧
      (∀ d ∈ ds, AppExtra db keepPerRepo repos app d ∧ (faults.pass app.id).deleteDigest d = none) ∧
      ∀ k, (collectApp db keepPerRepo faults app repos).1 = .ok k → k.getD 0 = ds.length ∧
        ∀ d, AppExtra db keepPerRepo repos app d →
          (faults.pass app.id).deleteDigest d = none → d ∈ ds := by
  obtain ⟨ds,hrepo,hextra,hall⟩ := collectRepo_spec (faults.pass app.id)
    (loadProtectedTags db app.id app.containerId) (buildDateByTag db app.id)
    (effectiveKeep keepPerRepo app) (repos (imageRepoForApp app.id))
  refine ⟨ds,?_,hextra,hall⟩
  funext name
  by_cases hname : name = imageRepoForApp app.id
  · subst hname
    simpa [collectApp,Repos.without,only] using hrepo
  · simp [collectApp,Repos.without,only,hname,Repo.without_nil]

/-- One app of the loop: it ends in an error, or goes on from what the pass has left. -/
theorem collectApps_cons (db : Db) (keepPerRepo : Nat) (faults : GcFaults) (app : AppRow)
    (apps : List AppRow) (scanned deleted : Nat) (repos : Repos) :
    ∃ here, (∀ d ∈ here, AppExtra db keepPerRepo repos app d ∧
        (faults.pass app.id).deleteDigest d = none) ∧
      ((∃ e, collectApps db keepPerRepo faults (app :: apps) scanned deleted repos =
          (.error e, repos.without (only (imageRepoForApp app.id) here)) ∧
          ¬ (faults.pass app.id).Reads) ∨
        ∃ scanned1, collectApps db keepPerRepo faults (app :: apps) scanned deleted repos =
          collectApps db keepPerRepo faults apps scanned1 (deleted + here.length)
            (repos.without (only (imageRepoForApp app.id) here)) ∧
          ∀ d, AppExtra db keepPerRepo repos app d →
            (faults.pass app.id).deleteDigest d = none → d ∈ here) := by
  obtain ⟨here,hrepos,hextra,hcount⟩ := collectApp_spec db keepPerRepo faults app repos
  refine ⟨here,hextra,?_⟩
  rw [collectApps]
  rcases hpass : collectApp db keepPerRepo faults app repos with ⟨out,repos'⟩
  rw [hpass] at hrepos hcount
  obtain rfl : repos' = _ := hrepos
  match out with
  | .error e =>
    refine .inl ⟨e,rfl,fun hreads => ?_⟩
    obtain ⟨k,hk⟩ := collectRepo_ok hreads (loadProtectedTags db app.id app.containerId)
      (buildDateByTag db app.id) (effectiveKeep keepPerRepo app) (repos (imageRepoForApp app.id))
    have hout : (collectApp db keepPerRepo faults app repos).1 = .ok k := hk
    rw [hpass] at hout
    cases hout
  | .ok none =>
    obtain ⟨hlength,hall⟩ := hcount none rfl
    exact .inr ⟨scanned,by rw [← hlength]; rfl,hall⟩
  | .ok (some n) =>
    obtain ⟨hlength,hall⟩ := hcount (some n) rfl
    exact .inr ⟨scanned + 1,by rw [← hlength]; rfl,hall⟩

theorem collectApps_spec (db : Db) (keepPerRepo : Nat) (faults : GcFaults) (apps : List AppRow)
    (scanned deleted : Nat) (repos : Repos) :
    ∃ ds, (collectApps db keepPerRepo faults apps scanned deleted repos).2 = repos.without ds ∧
      (∀ name, ∀ d ∈ ds name, ∃ app ∈ apps, imageRepoForApp app.id = name ∧
        AppExtra db keepPerRepo repos app d) ∧
      ∀ scanned' deleted', (collectApps db keepPerRepo faults apps scanned deleted repos).1 =
        .ok (scanned', deleted') → deleted < deleted' → ∃ name d, d ∈ ds name := by
  induction apps generalizing scanned deleted repos with
  | nil =>
    refine ⟨fun _ => [],(Repos.without_nil repos).symm,by simp,fun _ _ h hlt => ?_⟩
    cases h
    exact absurd hlt (lt_irrefl _)
  | cons app apps ih =>
    obtain ⟨here,hextra,hcons⟩ :=
      collectApps_cons db keepPerRepo faults app apps scanned deleted repos
    have hmine : ∀ name, ∀ d ∈ only (imageRepoForApp app.id) here name, ∃ app' ∈ app :: apps,
        imageRepoForApp app'.id = name ∧ AppExtra db keepPerRepo repos app' d := by
      intro name d hd
      obtain ⟨hname,hd⟩ := mem_only.mp hd
      exact ⟨app,mem_cons_self,hname.symm,(hextra d hd).1⟩
    rcases hcons with ⟨e,hcons,-⟩ | ⟨scanned1,hcons,-⟩
    · rw [hcons]
      exact ⟨_,rfl,hmine,fun _ _ hout => by cases hout⟩
    · rw [hcons]
      obtain ⟨ds,hrepos,hrest,hcount⟩ := ih scanned1 (deleted + here.length)
        (repos.without (only (imageRepoForApp app.id) here))
      refine ⟨fun name => only (imageRepoForApp app.id) here name ++ ds name,?_,?_,?_⟩
      · rw [hrepos,Repos.without_without]
      · intro name d hd
        rcases mem_append.mp hd with hd | hd
        · exact hmine name d hd
        · obtain ⟨app',happ',hname,he⟩ := hrest name d hd
          exact ⟨app',mem_cons_of_mem _ happ',hname,extra_of_without he⟩
      · intro scanned' deleted' hout hlt
        by_cases hhere : here = []
        · obtain ⟨name,d,hd⟩ := hcount _ _ hout (by simpa [hhere] using hlt)
          exact ⟨name,d,mem_append_right _ hd⟩
        · obtain ⟨d,hd⟩ := exists_mem_of_ne_nil _ hhere
          exact ⟨_,d,mem_append_left _ (mem_only.mpr ⟨rfl,hd⟩)⟩

theorem collectApps_ok (db : Db) (keepPerRepo : Nat) (hreads : ∀ id, (faults.pass id).Reads)
    (apps : List AppRow) (scanned deleted : Nat) (repos : Repos) :
    ∃ scanned' deleted', (collectApps db keepPerRepo faults apps scanned deleted repos).1 =
      .ok (scanned', deleted') ∧ deleted ≤ deleted' := by
  induction apps generalizing scanned deleted repos with
  | nil => exact ⟨scanned,deleted,rfl,le_rfl⟩
  | cons app apps ih =>
    obtain ⟨here,-,⟨e,-,hfails⟩ | ⟨scanned1,hcons,-⟩⟩ :=
      collectApps_cons db keepPerRepo faults app apps scanned deleted repos
    · exact absurd (hreads app.id) hfails
    · rw [hcons]
      obtain ⟨scanned',deleted',hout,hle⟩ := ih scanned1 (deleted + here.length) _
      exact ⟨scanned',deleted',hout,by omega⟩

/-- Every deletion fails but that of one digest in the pass over one app. -/
def GcFaults.allBut (id digest : String) : GcFaults where
  pass := fun id' =>
    { deleteDigest := fun digest' =>
        if id' = id ∧ digest' = digest then none else some (.network "unreachable") }
  blobReclaim := ⟨true,""⟩
  swept := fun _ _ => false

theorem reads_allBut (id digest id' : String) : ((GcFaults.allBut id digest).pass id').Reads :=
  ⟨rfl,fun _ => rfl⟩

theorem deleteDigest_allBut_iff {id digest id' digest' : String} :
    ((GcFaults.allBut id digest).pass id').deleteDigest digest' = none ↔
      id' = id ∧ digest' = digest := by
  simp [GcFaults.allBut]

theorem collectApps_allBut {apps : List AppRow} (happ : app ∈ apps)
    (hextra : AppExtra db keepPerRepo repos app d) (scanned deleted : Nat) :
    (∃ scanned' deleted', (collectApps db keepPerRepo (.allBut app.id d) apps scanned deleted
        repos).1 = .ok (scanned', deleted') ∧ deleted < deleted') ∧
      ∃ ds, (collectApps db keepPerRepo (.allBut app.id d) apps scanned deleted repos).2 =
        repos.without ds ∧ d ∈ ds (imageRepoForApp app.id) := by
  induction apps generalizing scanned deleted with
  | nil => cases happ
  | cons b apps ih =>
    obtain ⟨here,hhere,⟨e,-,hfails⟩ | ⟨scanned1,hcons,hall⟩⟩ :=
      collectApps_cons db keepPerRepo (.allBut app.id d) b apps scanned deleted repos
    · exact absurd (reads_allBut app.id d b.id) hfails
    rw [hcons]
    by_cases hnil : here = []
    · -- nothing went, so this was not the pass over the app
      subst hnil
      have hrest : app ∈ apps := by
        rcases mem_cons.mp happ with rfl | hrest
        · cases hall d hextra (deleteDigest_allBut_iff.mpr ⟨rfl,rfl⟩)
        · exact hrest
      have hsame : only (imageRepoForApp b.id) [] = fun _ => [] := by
        funext name
        simp [only]
      rw [hsame,Repos.without_nil]
      exact ih hrest scanned1 deleted
    · obtain ⟨d',hd'⟩ := exists_mem_of_ne_nil _ hnil
      obtain ⟨hid,rfl⟩ := deleteDigest_allBut_iff.mp (hhere d' hd').2
      have hpos := length_pos_of_ne_nil hnil
      obtain ⟨scanned',deleted',hout,hle⟩ := collectApps_ok db keepPerRepo
        (reads_allBut app.id d') apps scanned1 (deleted + here.length)
        (repos.without (only (imageRepoForApp b.id) here))
      obtain ⟨ds,hafter,-,-⟩ := collectApps_spec db keepPerRepo (.allBut app.id d') apps scanned1
        (deleted + here.length) (repos.without (only (imageRepoForApp b.id) here))
      refine ⟨⟨scanned',deleted',hout,by omega⟩,?_⟩
      rw [hafter,Repos.without_without]
      exact ⟨_,rfl,mem_append_left _ (mem_only.mpr ⟨congrArg imageRepoForApp hid.symm,hd'⟩)⟩

def Reclaims (opts : GcOptions) (out : Except String (Nat × Nat)) : Prop :=
  ∃ scanned deleted, out = .ok (scanned, deleted) ∧ opts.skipBlobReclaim = false ∧ 0 < deleted

theorem runRegistryGc_of_reclaims
    (hloop : collectApps db opts.keepPerRepo faults (db.selected opts.appFilter) 0 0 repos =
      (out, repos')) (h : Reclaims opts out) :
    (runRegistryGc db opts faults repos).2 = fun name =>
      (repos' name).sweep fun digest => faults.blobReclaim.ok || faults.swept name digest := by
  obtain ⟨scanned,deleted,rfl,hskip,hpos⟩ := h
  simp [runRegistryGc,hloop,hskip,hpos]

theorem runRegistryGc_of_not_reclaims
    (hloop : collectApps db opts.keepPerRepo faults (db.selected opts.appFilter) 0 0 repos =
      (out, repos')) (h : ¬ Reclaims opts out) :
    (runRegistryGc db opts faults repos).2 = repos' := by
  cases out with
  | error e => simp [runRegistryGc,hloop]
  | ok counts =>
    obtain ⟨scanned,deleted⟩ := counts
    have hnot : ¬ (opts.skipBlobReclaim = false ∧ 0 < deleted) := fun hboth =>
      h ⟨scanned,deleted,rfl,hboth.1,hboth.2⟩
    simp [runRegistryGc,hloop,hnot]

theorem stores_runRegistryGc_iff (hstores : (repos name).Stores d) :
    (∀ faults, ((runRegistryGc db opts faults repos).2 name).Stores d) ↔
      (∀ app ∈ db.selected opts.appFilter, imageRepoForApp app.id = name →
        ¬ AppExtra db opts.keepPerRepo repos app d) ∧
      ((repos name).Tagged d ∨ opts.skipBlobReclaim = true ∨
        ∀ app ∈ db.selected opts.appFilter, ∀ d', ¬ AppExtra db opts.keepPerRepo repos app d') := by
  constructor
  · intro hall
    refine ⟨fun app happ hname hextra => ?_,?_⟩
    · -- the run in which this extra goes
      obtain ⟨-,ds,hrepos,hd⟩ := collectApps_allBut happ hextra 0 0
      rcases hloop : collectApps db opts.keepPerRepo (.allBut app.id d)
        (db.selected opts.appFilter) 0 0 repos with ⟨out,repos'⟩
      rw [hloop] at hrepos
      dsimp only at hrepos
      have hgone : ¬ (repos' name).Stores d := by
        rw [hrepos,Repos.without,Repo.stores_without_iff]
        exact fun h => h.2 (hname ▸ hd)
      have hafter := hall (.allBut app.id d)
      by_cases hreclaims : Reclaims opts out
      · rw [runRegistryGc_of_reclaims hloop hreclaims,Repo.stores_sweep_iff] at hafter
        exact hgone (hafter.imp And.left id)
      · rw [runRegistryGc_of_not_reclaims hloop hreclaims] at hafter
        exact hgone hafter
    · by_contra hnot
      push Not at hnot
      obtain ⟨htag,hskip,app,happ,d',hextra⟩ := hnot
      obtain ⟨⟨scanned,deleted,hout,hpos⟩,ds,hrepos,-⟩ := collectApps_allBut happ hextra 0 0
      rcases hloop : collectApps db opts.keepPerRepo (.allBut app.id d')
        (db.selected opts.appFilter) 0 0 repos with ⟨out,repos'⟩
      rw [hloop] at hout hrepos
      dsimp only at hout hrepos
      have hafter := hall (.allBut app.id d')
      rw [runRegistryGc_of_reclaims hloop ⟨scanned,deleted,hout,by simpa using hskip,hpos⟩,
        Repo.stores_sweep_iff] at hafter
      rcases hafter with ⟨-,hswept⟩ | htagged
      · simp [GcFaults.allBut] at hswept
      · rw [hrepos,Repos.without,Repo.tagged_without_iff] at htagged
        exact htag htagged.1
  · rintro ⟨hnone,hswept⟩ faults
    obtain ⟨ds,hrepos,hextra,hcount⟩ := collectApps_spec db opts.keepPerRepo faults
      (db.selected opts.appFilter) 0 0 repos
    rcases hloop : collectApps db opts.keepPerRepo faults (db.selected opts.appFilter) 0 0 repos
      with ⟨out,repos'⟩
    rw [hloop] at hrepos hcount
    dsimp only at hrepos hcount
    have hleft : d ∉ ds name := by
      intro hd
      obtain ⟨app,happ,hname,he⟩ := hextra name d hd
      exact hnone app happ hname he
    by_cases hreclaims : Reclaims opts out
    · rw [runRegistryGc_of_reclaims hloop hreclaims,Repo.stores_sweep_iff]
      obtain ⟨scanned,deleted,hout,hskip,hpos⟩ := hreclaims
      obtain ⟨name',d',hd'⟩ := hcount scanned deleted hout hpos
      obtain ⟨app,happ,-,he⟩ := hextra name' d' hd'
      rcases hswept with htagged | hskip' | hquiet
      · rw [hrepos,Repos.without,Repo.tagged_without_iff]
        exact .inr ⟨htagged,hleft⟩
      · rw [hskip'] at hskip
        cases hskip
      · exact absurd he (hquiet app happ d')
    · rw [runRegistryGc_of_not_reclaims hloop hreclaims,hrepos,Repos.without,
        Repo.stores_without_iff]
      exact ⟨hstores,hleft⟩

end Runs

/-! ### One repository per app -/

/-- Where a deploy pushes the images of an app, the collector looks for them, the deletion wipes
them (by a run of the collector), and `getRegistryUsageForApp` counts them. -/
structure AppRepos where
  (pushed collected wiped counted : String)

def appRepos (appId : String) : AppRepos where
  pushed := imageRepoForApp appId
  collected := imageRepoForApp appId
  wiped := imageRepoForApp appId
  counted := "app-" ++ String.ofList (toLowerCase appId.toList)

/-- Alphanumerics separated by single dashes; the flag says that a dash may come next. -/
def pathComponent : Bool → List Char → Bool
  | dash, [] => dash
  | dash, c :: cs =>
    if isAlnum c then pathComponent true cs else c == '-' && dash && pathComponent false cs

structure OneRepository (repos : AppRepos) : Prop where
  collected : repos.collected = repos.pushed
  wiped : repos.wiped = repos.pushed
  counted : repos.counted = repos.pushed
  valid : pathComponent false repos.pushed.toList = true

theorem collapseFrom_of_pathComponent (hrun : dash = true → inRun = false)
    (h : pathComponent dash cs = true) : collapseFrom (fun c => !isAlnum c) '-' inRun cs = cs := by
  induction cs generalizing dash inRun with
  | nil => rfl
  | cons c cs ih =>
    by_cases hc : isAlnum c = true
    · simp only [pathComponent,hc,↓reduceIte] at h
      simp [collapseFrom,hc,ih (fun _ => rfl) h]
    · simp only [pathComponent,hc,Bool.false_eq_true,↓reduceIte,Bool.and_eq_true, beq_iff_eq] at h
      obtain ⟨⟨rfl,hdash⟩,hcs⟩ := h
      have hrest : collapseFrom (fun c => !isAlnum c) '-' true cs = cs :=
        ih (fun hfalse => by cases hfalse) hcs
      simp [collapseFrom,hc,hrun hdash,hrest]

theorem isAlnum_getLast_of_pathComponent (hne : cs ≠ []) (h : pathComponent dash cs = true) :
    isAlnum (cs.getLast hne) = true := by
  induction cs generalizing dash with
  | nil => exact absurd rfl hne
  | cons c cs ih =>
    by_cases hcs : cs = []
    · subst hcs
      revert h
      simp [pathComponent]
    · rw [getLast_cons hcs]
      rw [pathComponent] at h
      split at h
      · exact ih hcs h
      · exact ih hcs (Bool.and_eq_true_iff.mp h).2

theorem imageRepoForApp_of_pathComponent (h : pathComponent false (toLowerCase appId.toList) = true) :
    imageRepoForApp appId = "app-" ++ String.ofList (toLowerCase appId.toList) := by
  unfold imageRepoForApp trimEnds collapse
  rw [collapseFrom_of_pathComponent (fun _ => rfl) h]
  cases hid : toLowerCase appId.toList with
  | nil =>
    rw [hid] at h
    cases h
  | cons c cs =>
    rw [hid] at h
    have hdash : ∀ d, isAlnum d = true → ¬ (d == '-') = true := by
      rintro d hd hdash
      rw [beq_iff_eq.mp hdash] at hd
      revert hd
      decide
    have hfirst : isAlnum c = true := by
      by_contra hc
      simp [pathComponent,hc] at h
    have hlast := hdash _ (isAlnum_getLast_of_pathComponent (cons_ne_nil c cs) h)
    have hstart : (c :: cs).dropWhile (· == '-') = c :: cs := dropWhile_cons_of_neg (hdash c hfirst)
    rw [hstart,rdropWhile_eq_self_iff.mpr fun _ => hlast]
    simp

/-- The push, the collection and the count mean one valid repository exactly if the id in lower case
is a path component. -/
theorem one_repository_iff (appId : String) :
    OneRepository (appRepos appId) ↔ pathComponent false (toLowerCase appId.toList) = true := by
  have hvalid : pathComponent false (appRepos appId).counted.toList =
      pathComponent false (toLowerCase appId.toList) := by
    simp [appRepos,pathComponent,isAlnum]
  rw [← hvalid]
  constructor
  · intro h
    rw [h.counted,h.valid]
  · intro h
    have hcounted : (appRepos appId).counted = (appRepos appId).pushed :=
      (imageRepoForApp_of_pathComponent (hvalid ▸ h)).symm
    exact ⟨rfl,rfl,hcounted,hcounted ▸ h⟩

theorem underscore_repository_uncounted : ¬ ∀ appId : String,
    (∀ c ∈ appId.toList, (isNameChar c || ('A' ≤ c && c ≤ 'Z') || c == '_') = true) →
      OneRepository (appRepos appId) := by
  intro h
  have hcounted := (h "V1StGXR8_Z5jdHi6B-myT" (all_eq_true.mp (by decide))).counted
  revert hcounted
  decide

end Ploydok.Registry
