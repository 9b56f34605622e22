import Ploydok.Apps.Deletion

/-! When a deletion leaves nothing behind. A stop that succeeded has removed the app's containers
whose removals did not fail; a wipe that ended well has emptied the repository exactly if every
manifest could be deleted. -/

namespace Ploydok.Apps

open Function List
open Ploydok.Runtime (Docker Cleared slotNames)
open Caddy (Nanoid Domain domainRouteId routeId)
open Registry (GcFaults Repo Repos imageRepoForApp latestTag runRegistryGc usable AppExtra)

/-- What the wipe finds can be deleted, tagged or in the sweep that follows. -/
structure Erasable (db : Registry.Db) (faults : GcFaults) (appId : String) (repo : Repo) :
    Prop where
  tagged : ∀ tag ∈ repo.tags, ∀ m, repo.manifest tag = some m → usable m.digest = true ∧
    (faults.pass appId).deleteDigest m.digest = none ∧ latestTag db appId ≠ some tag
  untagged : ∀ d ∈ repo.untagged, repo.Tagged d ∨ (∃ d', repo.Tagged d') ∧
    (faults.blobReclaim.ok || faults.swept (imageRepoForApp appId) d) = true

section Wipe

variable {db : Registry.Db} {faults : GcFaults} {repos : Repos} {app : Registry.AppRow}
  {appId : String} {result : Registry.GcResult}

theorem appExtra_zero_iff (hstopped : app.containerId = none) :
    AppExtra db 0 repos app d ↔ (repos (imageRepoForApp app.id)).Tagged d ∧ usable d = true ∧
      ∀ tag ∈ (repos (imageRepoForApp app.id)).tags, latestTag db app.id = some tag →
        ((repos (imageRepoForApp app.id)).manifest tag).map (·.digest) ≠ some d := by
  have hprotected : d ∈ Registry.protectedDigests
      (Registry.loadProtectedTags db app.id app.containerId)
      (Registry.candidates usable (Registry.buildDateByTag db app.id)
        (repos (imageRepoForApp app.id))) ↔
      usable d = true ∧ ∃ tag ∈ (repos (imageRepoForApp app.id)).tags,
        latestTag db app.id = some tag ∧
        ((repos (imageRepoForApp app.id)).manifest tag).map (·.digest) = some d := by
    rw [← Registry.exists_candidate_iff usable (Registry.buildDateByTag db app.id)]
    simp only [Registry.protectedDigests,Registry.loadProtectedTags,hstopped,mem_map, mem_filter]
    simp [Registry.runningTag,truthy,and_assoc]
  have hcandidate := Registry.exists_candidate_iff usable (Registry.buildDateByTag db app.id)
    (repos (imageRepoForApp app.id)) (fun _ => True) d
  simp only [true_and] at hcandidate
  unfold AppExtra Registry.Extra
  rw [hprotected,Registry.effectiveKeep,if_pos rfl,drop_zero,hcandidate]
  simp only [Repo.Tagged]
  grind

theorem runRegistryGc_wipe (hselected : db.selected (some appId) = [app])
    (hok : (runRegistryGc db (wipeOptions appId) faults repos).1 = .ok result) :
    ∃ ds, (∀ d, d ∈ ds ↔ AppExtra db 0 repos app d ∧ (faults.pass app.id).deleteDigest d = none) ∧
      (runRegistryGc db (wipeOptions appId) faults repos).2 (imageRepoForApp app.id) =
        if ds = [] then repos (imageRepoForApp app.id)
        else ((repos (imageRepoForApp app.id)).without ds).sweep fun d =>
          faults.blobReclaim.ok || faults.swept (imageRepoForApp app.id) d := by
  obtain ⟨ds,hextra,⟨e,hloop,-⟩ | ⟨scanned,hloop,hall⟩⟩ :=
    Registry.collectApps_cons db 0 faults app [] 0 0 repos
  · simp [runRegistryGc,wipeOptions,hselected,hloop] at hok
  · rw [← hselected,Registry.collectApps,Nat.zero_add] at hloop
    have hhere : repos.without (Registry.only (imageRepoForApp app.id) ds) (imageRepoForApp app.id) =
        (repos (imageRepoForApp app.id)).without ds := by
      rw [Repos.without,Registry.only,if_pos rfl]
    refine ⟨ds,fun d => ⟨hextra d,fun h => hall d h.1 h.2⟩,?_⟩
    by_cases hnil : ds = []
    · have hquiet : ¬ Registry.Reclaims (wipeOptions appId) (.ok (scanned, ds.length)) := by
        rintro ⟨_,_,heq,-,hpos⟩
        cases heq
        exact ne_nil_of_length_pos hpos hnil
      rw [if_pos hnil,Registry.runRegistryGc_of_not_reclaims hloop hquiet,hhere,hnil,
        Repo.without_nil]
    · rw [if_neg hnil,Registry.runRegistryGc_of_reclaims hloop
        ⟨scanned,ds.length,rfl,rfl,length_pos_of_ne_nil hnil⟩]
      dsimp only
      rw [hhere]

theorem wiped_iff (hselected : db.selected (some appId) = [app])
    (hid : app.id = appId) (hstopped : app.containerId = none)
    (hok : (runRegistryGc db (wipeOptions appId) faults repos).1 = .ok result) :
    (∀ d, ¬ ((runRegistryGc db (wipeOptions appId) faults repos).2
        (imageRepoForApp appId)).Stores d) ↔
      Erasable db faults appId (repos (imageRepoForApp appId)) := by
  obtain ⟨ds,hmem,hrepo⟩ := runRegistryGc_wipe hselected hok
  subst hid
  rw [hrepo]
  generalize hr : repos (imageRepoForApp app.id) = repo
  have hds : ∀ d, d ∈ ds ↔ (repo.Tagged d ∧ usable d = true ∧ ∀ tag ∈ repo.tags,
      latestTag db app.id = some tag → (repo.manifest tag).map (·.digest) ≠ some d) ∧
      (faults.pass app.id).deleteDigest d = none := by
    intro d
    rw [hmem,appExtra_zero_iff hstopped,hr]
  -- what is stored afterwards
  have hstores : ∀ d, (if ds = [] then repo else (repo.without ds).sweep fun d =>
      faults.blobReclaim.ok || faults.swept (imageRepoForApp app.id) d).Stores d ↔
      (repo.Tagged d ∧ d ∉ ds) ∨ (d ∈ repo.untagged ∧ d ∉ ds ∧ (ds ≠ [] →
        (faults.blobReclaim.ok || faults.swept (imageRepoForApp app.id) d) = false)) := by
    intro d
    by_cases hnil : ds = []
    · rw [if_pos hnil,Repo.Stores,hnil]
      simp [or_comm]
    · rw [if_neg hnil,Repo.stores_sweep_iff,Repo.tagged_without_iff]
      simp [Repo.without,hnil,or_comm,and_assoc]
  have hsub : ∀ d ∈ ds, repo.Tagged d := fun d hd => ((hds d).mp hd).1.1
  simp only [hstores,not_or,not_and]
  constructor
  · intro hgone
    refine ⟨fun tag htag m hm => ?_,fun d hd => ?_⟩
    · have hm' : (repo.manifest tag).map (·.digest) = some m.digest := by rw [hm]; rfl
      have hin : m.digest ∈ ds := by
        by_contra hnot
        exact (hgone m.digest).1 ⟨tag,htag,hm'⟩ hnot
      obtain ⟨⟨-,husable,hlatest⟩,hdelete⟩ := (hds _).mp hin
      exact ⟨husable,hdelete,fun h => hlatest tag htag h hm'⟩
    · by_cases hin : d ∈ ds
      · exact .inl (hsub d hin)
      · have hswept := (hgone d).2 hd hin
        push Not at hswept
        obtain ⟨d',hd'⟩ := exists_mem_of_ne_nil _ hswept.1
        exact .inr ⟨⟨d',hsub d' hd'⟩,eq_true_of_ne_false hswept.2⟩
  · rintro ⟨htagged,huntagged⟩
    have hall : ∀ d, repo.Tagged d → d ∈ ds := by
      rintro d ⟨tag,htag,hd⟩
      obtain ⟨m,hm,rfl⟩ := Option.map_eq_some_iff.mp hd
      obtain ⟨husable,hdelete,-⟩ := htagged tag htag m hm
      refine (hds _).mpr ⟨⟨⟨tag,htag,hd⟩,husable,fun tag' htag' hlatest hd' => ?_⟩,hdelete⟩
      obtain ⟨m',hm',-⟩ := Option.map_eq_some_iff.mp hd'
      exact (htagged tag' htag' m' hm').2.2 hlatest
    intro d
    refine ⟨fun htag hnot => hnot (hall d htag),fun hd hnot hquiet => ?_⟩
    rcases huntagged d hd with htag | ⟨⟨d',hd'⟩,hswept⟩
    · exact hnot (hall d htag)
    · rw [hquiet (ne_nil_of_mem (hall d' hd'))] at hswept
      cases hswept

end Wipe

/-! ### A whole deletion -/

structure SameResources (w w' : World) : Prop where
  jobs : w'.jobs = w.jobs
  docker : w'.docker = w.docker
  labels : w'.labels = w.labels
  swarm : w'.swarm = w.swarm
  routes : w'.routes = w.routes
  repos : w'.repos = w.repos

namespace SameResources

variable {w w' w'' : World}

theorem rfl' (w : World) : SameResources w w := ⟨rfl,rfl,rfl,rfl,rfl,rfl⟩

theorem trans (h : SameResources w w') (h' : SameResources w' w'') : SameResources w w'' :=
  ⟨h'.jobs.trans h.jobs,h'.docker.trans h.docker,h'.labels.trans h.labels,h'.swarm.trans h.swarm,
    h'.routes.trans h.routes,h'.repos.trans h.repos⟩

theorem once (h : SameResources w done) (fault : Option String) :
    SameResources w (once w fault done).2 := by
  cases fault with
  | some e => exact rfl' w
  | none => exact h

theorem step (h : SameResources w (run w).2) : SameResources w (step enabled run w).2 := by
  unfold Apps.step
  split
  · split <;> simp_all
  · exact rfl' w

variable (faults : Faults) (appId : String) (w : World)

theorem removeBuildArtifacts : SameResources w (removeBuildArtifacts faults appId w).2 := by
  apply once
  exact ⟨rfl,rfl,rfl,rfl,rfl,rfl⟩

theorem removeStaticArtifacts : SameResources w (removeStaticArtifacts faults appId w).2 := by
  apply once
  exact ⟨rfl,rfl,rfl,rfl,rfl,rfl⟩

theorem purgeAppVolumeRoot : SameResources w (purgeAppVolumeRoot faults appId w).2 := by
  apply once
  exact ⟨rfl,rfl,rfl,rfl,rfl,rfl⟩

theorem deleteRow : SameResources w (deleteRow faults appId w).2 := by
  apply once
  exact ⟨rfl,rfl,rfl,rfl,rfl,rfl⟩

theorem dropProjectNetwork : SameResources w (dropProjectNetwork faults appId w) := by
  unfold Apps.dropProjectNetwork
  split
  · exact rfl' w
  · split
    · exact rfl' w
    · split
      · exact rfl' w
      · split
        · exact rfl' w
        · dsimp only
          split <;> exact ⟨rfl,rfl,rfl,rfl,rfl,rfl⟩

end SameResources

section Deletion

variable {faults : Faults} {appId : String} {w : World} {run : World → Except String Unit × World}

theorem step_ok (h : (step true run w).1.ok = true) :
    (run w).1 = .ok () ∧ (step true run w).2 = (run w).2 := by
  unfold step at *
  rcases hrun : run w with ⟨out,w'⟩
  rw [hrun] at h
  cases out with
  | ok _ => exact ⟨rfl,by simp⟩
  | error e => simp at h

variable (faults appId w) {options : DeleteOptions}

theorem sameResources_cascade (hclean : options.dockerCleanup.getD true = true)
    (himages : options.deleteImages.getD true = true) :
    SameResources
      (step true (wipeImages faults appId) (step true (stopContainers faults appId) w).2).2
      (cascade faults options appId w).2 := by
  simp only [cascade,hclean,himages,Bool.not_true,Bool.and_false]
  refine .trans ?_ (.step (.deleteRow faults appId _))
  refine .trans ?_ (.dropProjectNetwork faults appId _)
  refine .trans ?_ (.step (.purgeAppVolumeRoot faults appId _))
  refine .trans ?_ (.step (.removeStaticArtifacts faults appId _))
  exact .step (.removeBuildArtifacts faults appId _)

theorem wipeImages_eq :
    (wipeImages faults appId w).2 = { w with repos := (wipeImages faults appId w).2.repos } := by
  unfold wipeImages
  split <;> rfl

variable {w} in
theorem jobs_step (h : (run w).2.jobs = w.jobs) : (step enabled run w).2.jobs = w.jobs := by
  unfold step
  split
  · split <;> simp_all
  · rfl

theorem jobs_cascade (hclean : options.dockerCleanup.getD true = true)
    (himages : options.deleteImages.getD true = true) :
    (cascade faults options appId w).2.jobs = w.jobs := by
  have hwipe : ∀ w, (wipeImages faults appId w).2.jobs = w.jobs := by
    intro w
    rw [wipeImages_eq]
  rw [(sameResources_cascade faults appId w hclean himages).jobs,jobs_step (hwipe _)]
  exact jobs_step rfl

variable {faults appId w} {row : AppRow}

theorem cascade_succeeded (hclean : options.dockerCleanup.getD true = true)
    (himages : options.deleteImages.getD true = true)
    (hok : (cascade faults options appId w).1.finalStatus = .succeeded) :
    (stopContainers faults appId w).1 = .ok () ∧
      (wipeImages faults appId (stopContainers faults appId w).2).1 = .ok () ∧
      SameResources (wipeImages faults appId (stopContainers faults appId w).2).2
        (cascade faults options appId w).2 := by
  have hall : (cascade faults options appId w).1.values.all (·.ok) = true := by
    by_contra hnot
    rw [Steps.finalStatus,if_neg hnot] at hok
    cases hok
  simp only [cascade,Steps.values,hclean,himages,all_cons,Bool.and_eq_true] at hall
  obtain ⟨hcontainers,hregistry,-⟩ := hall
  obtain ⟨hstop,hstopped⟩ := step_ok hcontainers
  rw [hstopped] at hregistry
  obtain ⟨hwipe,hwiped⟩ := step_ok hregistry
  refine ⟨hstop,hwipe,?_⟩
  have hrest := sameResources_cascade faults appId w hclean himages
  rw [hstopped,hwiped] at hrest
  exact hrest

structure AfterStop (faults : Faults) (appId : String) (w w' : World) (row : AppRow) : Prop where
  containers : ∀ p, p ∈ w'.docker.idNames ↔ p ∈ w.docker.idNames ∧
    ¬ (p.2 ∈ slotNames row.toApp ∧ faults.host.fails (.containerRemove (.name p.2)) = none)
  labels : w'.labels = w.labels
  swarm : w'.swarm = w.swarm
  routes : w'.routes = update w.routes (routeId appId) none
  repos : w'.repos = w.repos
  builds : w'.db.builds = w.db.builds
  app? : w'.app? appId = some { row with containerId := none, status := .stopped }

theorem find?_map_write {f : AppRow → AppRow} (hf : ∀ row, (f row).id = row.id) {apps : List AppRow}
    (h : apps.find? (·.id = appId) = some row) :
    (apps.map f).find? (·.id = appId) = some (f row) := by
  rw [find?_map]
  simp only [comp_def,hf]
  rw [h]
  rfl

theorem stopContainers_ok (h : (stopContainers faults appId w).1 = .ok ()) :
    ∃ row, w.app? appId = some row ∧
      AfterStop faults appId w (stopContainers faults appId w).2 row := by
  have hexec : ((Runtime.stopApp appId).exec faults.host.serve
      (w.runtime appId, faults.host.turns)).1 = .ok () := by
    unfold stopContainers at h
    dsimp only at h
    cases hout : ((Runtime.stopApp appId).exec faults.host.serve
      (w.runtime appId, faults.host.turns)).1 with
    | ok _ => rfl
    | error e =>
      rw [hout] at h
      cases h
  obtain ⟨row,rt,hrow,hcleared,hafter⟩ := Runtime.stopApp_ok hexec
  obtain ⟨appRow,happ,rfl⟩ := Option.map_eq_some_iff.mp hrow
  have hw : (stopContainers faults appId w).2 = w.withRuntime appId
      ({ rt with route := none }.setRow fun row =>
        { row with containerId := none, status := .stopped }) := by
    rw [← hafter]
    rfl
  refine ⟨appRow,happ,?_⟩
  rw [hw]
  refine ⟨hcleared.containers,rfl,rfl,rfl,rfl,rfl,?_⟩
  have hid : appRow.id = appId := by simpa using find?_some happ
  have hwritten : rt.row = some appRow.toAppRow := hcleared.row.trans hrow
  refine (find?_map_write (fun row => ?_) happ).trans ?_
  · split
    · next hrow => simp [Runtime.World.setRow,hwritten,hid,hrow]
    · rfl
  · simp [Runtime.World.setRow,hwritten,hid]

theorem selected_of_app? (hid : appId ≠ "") (h : w.app? appId = some row) :
    w.db.selected (some appId) = [row.forRegistry] := by
  have hfind : (w.apps.map AppRow.forRegistry).find? (·.id = appId) = some row.forRegistry := by
    rw [find?_map]
    exact congrArg (Option.map _) h
  rw [Registry.Db.selected,truthy,if_neg hid]
  dsimp only [World.db]
  rw [take_one,head?_filter,hfind]
  rfl

end Deletion

/-! ### Complete deletions -/

/-- Nothing is left of the app, whose domains are those of the world `old`. -/
structure Clean (old w : World) (appId : String) : Prop where
  containers : ∀ p ∈ w.docker.idNames, w.labels p.1 ≠ some appId
  swarm : ∀ service ∈ w.swarm, service.appId ≠ appId
  route : w.routes (routeId appId) = none
  domainRoutes : ∀ d ∈ old.domains, d.appId = appId →
    w.routes (routeId (domainRouteId d.toDomain)) = none
  manifests : ∀ d, ¬ (w.repos (imageRepoForApp appId)).Stores d

structure Removable (faults : Faults) (w : World) (appId : String) : Prop where
  containers : ∀ p ∈ w.docker.idNames, w.labels p.1 = some appId →
    (∃ row, w.app? appId = some row ∧ p.2 ∈ slotNames row.toApp) ∧
      faults.host.fails (.containerRemove (.name p.2)) = none
  swarm : ∀ service ∈ w.swarm, service.appId ≠ appId
  domainRoutes : ∀ d ∈ w.domains, d.appId = appId →
    w.routes (routeId (domainRouteId d.toDomain)) = none
  manifests : Erasable w.db faults.registry appId (w.repos (imageRepoForApp appId))

section Complete

variable {faults : Faults} {w : World} {appId : Nanoid}

theorem routeId_domain_ne (d : Domain) (appId : Nanoid) :
    routeId (domainRouteId d) ≠ routeId appId.text := by
  intro h
  have hlength := congrArg String.length h
  simp only [routeId,domainRouteId,String.length_append,d.id.length_eq,appId.length_eq] at hlength
  revert hlength
  decide

theorem wipeImages_manifests_iff (hafter : AfterStop faults appId.text w w' row)
    (hok : (wipeImages faults appId.text w').1 = .ok ()) :
    (∀ d, ¬ ((wipeImages faults appId.text w').2.repos (imageRepoForApp appId.text)).Stores d) ↔
      Erasable w.db faults.registry appId.text (w.repos (imageRepoForApp appId.text)) := by
  have hid : appId.text ≠ "" := by
    intro hempty
    have hlength := appId.length_eq
    rw [hempty] at hlength
    cases hlength
  have hlatest : latestTag w'.db appId.text = latestTag w.db appId.text := by
    simp only [latestTag,Registry.Db.succeededBuilds,Registry.Db.newestBuilds,hafter.builds]
  have happ : row.id = appId.text := by simpa using find?_some hafter.app?
  unfold wipeImages at hok ⊢
  cases hrows : faults.registryRows with
  | some e =>
    rw [hrows] at hok
    cases hok
  | none =>
    rw [hrows] at hok
    dsimp only at hok ⊢
    cases hgc : (runRegistryGc w'.db (wipeOptions appId.text) faults.registry w'.repos).1 with
    | error e =>
      rw [hgc] at hok
      cases hok
    | ok result =>
      rw [wiped_iff (selected_of_app? hid hafter.app?) happ rfl hgc,hafter.repos]
      constructor
      · rintro ⟨htagged,huntagged⟩
        exact ⟨by rwa [hlatest] at htagged,huntagged⟩
      · rintro ⟨htagged,huntagged⟩
        exact ⟨by rwa [hlatest],huntagged⟩

theorem clean_cascade_iff (hclean : options.dockerCleanup.getD true = true)
    (himages : options.deleteImages.getD true = true)
    (hok : (cascade faults options appId.text w).1.finalStatus = .succeeded) :
    Clean w (cascade faults options appId.text w).2 appId.text ↔ Removable faults w appId.text := by
  obtain ⟨hstop,hwipe,hsame⟩ := cascade_succeeded hclean himages hok
  obtain ⟨row,happ,hafter⟩ := stopContainers_ok hstop
  have hmanifests := wipeImages_manifests_iff hafter hwipe
  have hwiped := wipeImages_eq faults appId.text (stopContainers faults appId.text w).2
  have hdocker := hsame.docker.trans (congrArg World.docker hwiped)
  have hlabels := (hsame.labels.trans (congrArg World.labels hwiped)).trans hafter.labels
  have hswarm := (hsame.swarm.trans (congrArg World.swarm hwiped)).trans hafter.swarm
  have hroutes := (hsame.routes.trans (congrArg World.routes hwiped)).trans hafter.routes
  -- the routes of the domains have other ids than the one that is removed
  have hdomain : ∀ d : Domain, (cascade faults options appId.text w).2.routes
      (routeId (domainRouteId d)) = w.routes (routeId (domainRouteId d)) := by
    intro d
    rw [hroutes,update_of_ne (routeId_domain_ne d appId)]
  rw [← hsame.repos] at hmanifests
  constructor
  · rintro ⟨hcontainers,hservices,-,hdomains,hgone⟩
    refine ⟨fun p hp hlabel => ?_,?_,?_,hmanifests.mp hgone⟩
    · by_contra hnot
      refine hcontainers p ?_ (by rw [hlabels]; exact hlabel)
      rw [hdocker]
      refine (hafter.containers p).mpr ⟨hp,fun hremoved => hnot ?_⟩
      exact ⟨⟨row,happ,hremoved.1⟩,hremoved.2⟩
    · rwa [hswarm] at hservices
    · intro d hd happId
      rw [← hdomain]
      exact hdomains d hd happId
  · rintro ⟨hcontainers,hservices,hdomains,herasable⟩
    refine ⟨fun p hp hlabel => ?_,?_,?_,?_,hmanifests.mpr herasable⟩
    · rw [hdocker] at hp
      rw [hlabels] at hlabel
      obtain ⟨hp,hstays⟩ := (hafter.containers p).mp hp
      obtain ⟨⟨row',hrow',hname⟩,hfails⟩ := hcontainers p hp hlabel
      obtain rfl : row = row' := Option.some.inj (happ.symm.trans hrow')
      exact hstays ⟨hname,hfails⟩
    · rwa [hswarm]
    · rw [hroutes,update_self]
    · intro d hd happId
      rw [hdomain]
      exact hdomains d hd happId

theorem handleDeleteApp_succeeded (hpayload : payload.jobId = some jobId)
    (hjob : w.jobs jobId = some job) (hpending : job.status = .pending)
    (hclean : job.options.dockerCleanup.getD true = true)
    (himages : job.options.deleteImages.getD true = true)
    (hsucceeded : ((handleDeleteApp faults payload w).2.jobs jobId).map (·.status) =
      some .succeeded) :
    (cascade faults job.options job.appId.text (w.claim jobId job)).1.finalStatus = .succeeded ∧
      ∃ jobs, (handleDeleteApp faults payload w).2 =
        { (cascade faults job.options job.appId.text (w.claim jobId job)).2 with
          jobs := jobs } := by
  -- the row is still pending unless it was claimed
  have hclaimed : truthy (some jobId) = some jobId ∧ faults.claim = none := by
    by_contra hnot
    have hsame : (handleDeleteApp faults payload w).2.jobs = w.jobs := by
      unfold handleDeleteApp
      rw [hpayload]
      by_cases hempty : jobId = ""
      · rw [show truthy (some jobId) = none from if_pos hempty]
        dsimp only
        split <;> rfl
      · have hpresent : truthy (some jobId) = some jobId := if_neg hempty
        rw [hpresent]
        cases hclaim : faults.claim with
        | some e => rfl
        | none => exact absurd ⟨hpresent,hclaim⟩ hnot
    rw [hsame,hjob] at hsucceeded
    simp [hpending] at hsucceeded
  obtain ⟨hpresent,hclaim⟩ := hclaimed
  have hrow : claimQueuedRow jobId w = some (job, w.claim jobId job) := by
    rw [claimQueuedRow,hjob]
    exact if_pos hpending
  unfold handleDeleteApp at hsucceeded ⊢
  simp only [hpayload,hpresent,hclaim,hrow] at hsucceeded ⊢
  have hjobs := jobs_cascade faults job.appId.text (w.claim jobId job) hclean himages
  generalize cascade faults job.options job.appId.text (w.claim jobId job) = result at *
  have hrunning : result.2.jobs jobId = some { job with status := .running } := by
    rw [hjobs]
    exact update_self ..
  unfold finalize once at *
  cases hfinal : faults.finalize result.1.finalStatus with
  | none =>
    rw [hfinal] at hsucceeded
    simpa [hrunning] using hsucceeded
  | some e =>
    -- the second attempt records a failure or nothing
    rw [hfinal] at hsucceeded
    cases hagain : faults.finalize .failed with
    | none | some =>
      rw [hagain] at hsucceeded
      simp [hrunning] at hsucceeded

/-- A deletion recorded as succeeded is complete exactly if the containers have the names of the two
colours and can be removed, there is no swarm service and no route of a custom domain, and the
registry can delete every manifest. -/
theorem succeeded_deletion_complete_iff (faults : Faults) (payload : Payload) (w : World)
    (jobId : String) (job : DeleteJob) (hpayload : payload.jobId = some jobId)
    (hjob : w.jobs jobId = some job) (hpending : job.status = .pending)
    (hdocker : job.options.dockerCleanup.getD true = true)
    (himages : job.options.deleteImages.getD true = true)
    (hsucceeded : ((handleDeleteApp faults payload w).2.jobs jobId).map (·.status) =
      some .succeeded) :
    Clean w (handleDeleteApp faults payload w).2 job.appId.text ↔
      Removable faults w job.appId.text := by
  obtain ⟨hstatus,jobs,hw⟩ :=
    handleDeleteApp_succeeded hpayload hjob hpending hdocker himages hsucceeded
  have hiff := clean_cascade_iff hdocker himages hstatus
  rw [hw]
  constructor
  · rintro ⟨h1,h2,h3,h4,h5⟩
    obtain ⟨h1,h2,h3,h4⟩ := hiff.mp ⟨h1,h2,h3,h4,h5⟩
    exact ⟨h1,h2,h3,h4⟩
  · rintro ⟨h1,h2,h3,h4⟩
    obtain ⟨h1,h2,h3,h4,h5⟩ := hiff.mpr ⟨h1,h2,h3,h4⟩
    exact ⟨h1,h2,h3,h4,h5⟩

end Complete

namespace Example

def appId : Nanoid := ⟨"abcdefghijklmnopqrstu",by decide⟩

def domainId : Nanoid := ⟨"uvwxyzabcdefghijklmno",by decide⟩

def row (mode : RuntimeMode) (service : Option String) : AppRow where
  id := appId.text
  slug := "shop"
  domain := none
  runtimePort := none
  healthcheckPath := none
  healthcheckPort := none
  healthcheckIntervalS := none
  healthcheckRetries := none
  healthcheckStartPeriodS := none
  status := .running
  containerId := none
  projectId := "p1"
  runtimeMode := mode
  swarmServiceName := service
  keepPerRepo := none

def build : Registry.BuildRow := ⟨"b2",appId.text,.succeeded,some "registry/app:t2",none,2⟩

def job : DeleteJob := ⟨appId,.pending,{},none⟩

def payload : Payload := ⟨some "j1",none⟩

def faults : Faults := { registry := ⟨fun _ => {},⟨true,""⟩,fun _ _ => false⟩ }

def repo (tag : String) : Repo where
  tags := [tag]
  nodup := nodup_singleton tag
  manifest := fun tag' => if tag' = tag then some ⟨"sha256:1",some 1⟩ else none
  untagged := ["sha256:0"]

def host : Docker := ⟨[⟨0,"ploydok-app-shop-abcdefgh-blue","registry/app:t1",true⟩],1,
  by decide,by decide,by decide⟩

def world (app : AppRow) (swarm : List SwarmService) (routes : List String) (tag : String) :
    World where
  apps := [app]
  builds := [build]
  domains := [⟨⟨domainId,"shop.example"⟩,appId.text⟩]
  projects := []
  databases := []
  services := []
  jobs := update (fun _ => none) "j1" (some job)
  docker := host
  labels := fun _ => some appId.text
  swarm := swarm
  networks := []
  routes := fun id => if id ∈ routes then some ⟨"shop.example",⟨"shop",3000⟩⟩ else none
  repos := fun _ => repo tag
  buildDirs := [appId.text]
  staticDirs := []
  volumeDirs := []

def plain : World := world (row .docker none) [] [routeId appId.text] "t1"

def full : World := world (row .swarm (some "shop"))
  [⟨"shop",appId.text⟩] [routeId appId.text, routeId ("domain-" ++ domainId.text)] "t2"

end Example

open Example in
/-- A docker app of which nothing is left. -/
theorem succeeded_deletion_complete_example :
    ((handleDeleteApp faults payload plain).2.jobs "j1").map (·.status) = some .succeeded ∧
      Clean plain (handleDeleteApp faults payload plain).2 Example.appId.text := by
  have hsucceeded : ((handleDeleteApp faults payload plain).2.jobs "j1").map (·.status) =
      some .succeeded := by decide +kernel
  refine ⟨hsucceeded,(succeeded_deletion_complete_iff faults payload plain "j1" job rfl rfl rfl rfl
    rfl hsucceeded).mpr ⟨?_,?_,?_,?_⟩⟩
  · intro p hp _
    obtain rfl : p = (0, "ploydok-app-shop-abcdefgh-blue") := by
      simpa [plain,world,host,Docker.idNames] using hp
    exact ⟨⟨row .docker none,by decide +kernel,by decide +kernel⟩,rfl⟩
  · intro service hservice
    cases hservice
  · intro d hd _
    obtain rfl : d = ⟨⟨domainId,"shop.example"⟩,Example.appId.text⟩ := by
      simpa [plain,world] using hd
    decide +kernel
  · refine ⟨?_,?_⟩
    · intro tag htag m hm
      obtain rfl : tag = "t1" := by simpa [plain,world,repo] using htag
      obtain rfl : m = ⟨"sha256:1",some 1⟩ := by
        have hm' := Option.some.inj hm
        exact hm'.symm
      decide +kernel
    · intro d hd
      refine .inr ⟨⟨"sha256:1","t1",?_,?_⟩,rfl⟩ <;> decide +kernel

open Example in
/-- A deletion without any failure leaves the swarm service, the route of the domain and the
manifest of the last build. -/
theorem swarm_service_survives_deletion :
    ¬ ∀ (faults : Faults) (payload : Payload) (w : World) (jobId : String) (job : DeleteJob),
      payload.jobId = some jobId → w.jobs jobId = some job → job.status = .pending →
      job.options.dockerCleanup.getD true = true → job.options.deleteImages.getD true = true →
      job.options.deleteCaddyRoutes.getD true = true →
      ((handleDeleteApp faults payload w).2.jobs jobId).map (·.status) = some .succeeded →
      Clean w (handleDeleteApp faults payload w).2 job.appId.text := by
  intro h
  have hclean := h faults payload full "j1" job rfl rfl rfl rfl rfl rfl (by decide +kernel)
  refine hclean.swarm ⟨"shop",Example.appId.text⟩ ?_ rfl
  decide +kernel

open Example in
/-- The other two are left as well. -/
example : (handleDeleteApp faults payload full).2.routes
      (routeId ("domain-" ++ domainId.text)) ≠ none ∧
    ((handleDeleteApp faults payload full).2.repos
      (imageRepoForApp Example.appId.text)).Stores "sha256:1" := by
  decide +kernel

end Ploydok.Apps
