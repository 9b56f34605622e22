import Ploydok.Containers.Agreement
import Ploydok.Marketplace.Confinement

/-! Sequences of installations (`installFromTemplate` of `services/marketplace-orchestrator.ts`,
`uniqueServiceSlug` of `queries/services.ts`): whether two installed services can meet in the
name of a container or in a directory of the host. -/

namespace Ploydok.Marketplace

open Data Text Agent Containers List

structure Service where
  projectId : String
  install : Install
  containers : List ComposeContainer

structure InstallRequest where
  (userId projectId name serviceId : String)
  /-- The template with its variables resolved, for a slug. -/
  compose : String → String

def InstallRequest.install (request : InstallRequest) (attempt : Option Nat) : Install :=
  ⟨request.name,attempt,request.serviceId,request.compose (serviceSlug request.name attempt)⟩

structure Directory where
  projects : List String
  owner : String → String → Bool

inductive InstallError where
  | notFound (message : String)
  | forbidden (message : String)
  | compose (error : ComposeError)

def slugTaken (services : List Service) (projectId slug : String) : Bool :=
  services.any fun service => service.projectId = projectId && service.install.slug = slug

/-- The loop over the attempts, of which it makes at most `fuel`. -/
def freeAttempt (taken : String → Bool) (name : String) : Nat → Nat → Nat
  | 0, attempt => attempt
  | fuel + 1, attempt =>
    if taken (serviceSlug name (some attempt)) then freeAttempt taken name fuel (attempt + 1)
    else attempt

def uniqueServiceSlug (services : List Service) (projectId name : String) : Option Nat :=
  if slugTaken services projectId (serviceSlug name none) then
    some (freeAttempt (slugTaken services projectId) name (services.length + 1) 2)
  else none

section Run

variable (directory : Directory) (parse : YamlParser)

def installFromTemplate (services : List Service) (request : InstallRequest) :
    Except InstallError (List Service) :=
  if request.projectId ∉ directory.projects then .error (.notFound "Project not found")
  else if !directory.owner request.projectId request.userId then .error (.forbidden "Forbidden")
  else
    let install := request.install (uniqueServiceSlug services request.projectId request.name)
    match composeToContainers parse install.input with
    | .error error => .error (.compose error)
    | .ok containers => .ok (services ++ [⟨request.projectId,install,containers⟩])

/-- A request that fails leaves the services as they are. -/
def installStep (services : List Service) (request : InstallRequest) : List Service :=
  match installFromTemplate directory parse services request with
  | .ok services => services
  | .error _ => services

def installAll (services : List Service) (requests : List InstallRequest) : List Service :=
  requests.foldl (installStep directory parse) services

end Run

theorem serviceSlug_injective (name : String) :
    Function.Injective fun n : Nat => serviceSlug name (some n) := by
  intro m n h
  have hlist := congrArg String.toList h
  exact toString_nat_inj (String.toList_inj.mp (by simpa [serviceSlug] using hlist))

theorem taken_of_freeAttempt {taken : String → Bool}
    (h : taken (serviceSlug name (some (freeAttempt taken name fuel attempt))) = true) :
    ∀ k < fuel, taken (serviceSlug name (some (attempt + k))) = true := by
  induction fuel generalizing attempt with
  | zero => intro k hk; omega
  | succ fuel ih =>
    unfold freeAttempt at h
    split at h
    · next htaken =>
      intro k hk
      cases k with
      | zero => exact htaken
      | succ k =>
        have hlater := ih h k (by omega)
        rwa [show attempt + (k + 1) = attempt + 1 + k by omega]
    · next hfree => exact absurd h hfree

theorem slugTaken_uniqueServiceSlug (services : List Service) (projectId name : String) :
    slugTaken services projectId (serviceSlug name (uniqueServiceSlug services projectId name)) =
      false := by
  unfold uniqueServiceSlug
  split
  · rw [← Bool.not_eq_true]
    intro htaken
    have hall := taken_of_freeAttempt htaken
    have hsub : (range (services.length + 1)).map
        (fun k => serviceSlug name (some (2 + k))) ⊆ services.map (·.install.slug) := by
      intro slug hslug
      obtain ⟨k,hk,rfl⟩ := mem_map.mp hslug
      obtain ⟨service,hservice,hmatch⟩ := any_eq_true.mp (hall k (mem_range.mp hk))
      simp only [Bool.and_eq_true,decide_eq_true_eq] at hmatch
      exact mem_map.mpr ⟨service,hservice,hmatch.2⟩
    have hnodup : ((range (services.length + 1)).map
        (fun k => serviceSlug name (some (2 + k)))).Nodup := by
      refine nodup_range.map fun j k hjk => ?_
      have := serviceSlug_injective name hjk
      omega
    have hlength := (subperm_of_subset hnodup hsub).length_le
    simp only [length_map,length_range] at hlength
    omega
  · next hfree => simpa using hfree

/-- Two services share no container name, and no mount of one is, contains or is contained in one
of the other. -/
def Apart (s t : Service) : Prop :=
  (∀ c ∈ s.containers, ∀ d ∈ t.containers, c.name ≠ d.name) ∧
    ∀ c ∈ s.containers, ∀ v ∈ c.volumes, ∀ d ∈ t.containers, ∀ w ∈ d.volumes,
      ¬ normalizePath v.hostPath.toList <+: normalizePath w.hostPath.toList ∧
        ¬ normalizePath w.hostPath.toList <+: normalizePath v.hostPath.toList

instance (s t : Service) : Decidable (Apart s t) := inferInstanceAs (Decidable (_ ∧ _))

def Isolated (services : List Service) : Prop := services.Pairwise Apart

instance (services : List Service) : Decidable (Isolated services) :=
  inferInstanceAs (Decidable (services.Pairwise Apart))

structure Separate (parse : YamlParser) (services : List Service)
    (request : InstallRequest) : Prop where
  slugs : ∀ service ∈ services, service.projectId ≠ request.projectId →
    ∀ attempt, service.install.slug ≠ serviceSlug request.name attempt
  names : ∀ slug service, ServiceOf parse (request.compose slug) service → '-' ∉ service.1.toList
  volumes : ∀ attempt, SourcesStay parse (request.install attempt).input

def AllSeparate (directory : Directory) (parse : YamlParser) :
    List Service → List InstallRequest → Prop
  | _, [] => True
  | services, request :: requests =>
    Separate parse services request ∧
      AllSeparate directory parse (installStep directory parse services request) requests

structure KeepsToItself (service : Service) : Prop where
  names : ∀ c ∈ service.containers, ∃ name : String, '-' ∉ name.toList ∧
    c.name = service.install.input.servicePrefix ++ "-" ++ name
  confined : Confined service.install.input.servicePrefix service.containers

theorem serviceDir_eq (install : Install) : serviceDir install.input.servicePrefix =
      normalizePath volumesRoot.toList ++ [install.input.servicePrefix.toList] := by
  have hname : NameText install.input.servicePrefix :=
    NameText.append (by decide) (nameText_slug install)
  have hsegments : pathSegments install.input.servicePrefix.toList =
      [install.input.servicePrefix.toList] :=
    splitOn_eq_singleton (not_mem_of_nameText hname (by decide))
  have hpath : (volumesRoot ++ "/" ++ install.input.servicePrefix).toList =
      volumesRoot.toList ++ '/' :: install.input.servicePrefix.toList := by simp
  rw [serviceDir,hpath,normalizePath_append,hsegments]
  -- the name begins with `ploydok-svc-`, so the segment is entered
  have hstart : install.input.servicePrefix.toList =
      "ploydok-svc-".toList ++ install.slug.toList := String.toList_append
  rw [hstart]
  rfl

theorem servicePrefix_inj {a b : Install}
    (h : a.input.servicePrefix = b.input.servicePrefix) : a.slug = b.slug := by
  have := congrArg String.toList h
  exact String.toList_inj.mp (by simpa [Install.input] using this)

theorem eq_of_common_path (hdir : dir <+: path) (hdir' : dir' <+: path')
    (hlength : dir.length = dir'.length) (h : path <+: path') : dir = dir' :=
  (prefix_of_prefix_length_le (hdir.trans h) hdir' hlength.le).eq_of_length hlength

theorem apart_of_slug_ne {s t : Service} (hs : KeepsToItself s) (ht : KeepsToItself t)
    (hslug : s.install.slug ≠ t.install.slug) : Apart s t := by
  have hdir : serviceDir s.install.input.servicePrefix ≠
      serviceDir t.install.input.servicePrefix := by
    rw [serviceDir_eq,serviceDir_eq]
    intro h
    have hlast := append_cancel_left h
    exact hslug (servicePrefix_inj (String.toList_inj.mp (singleton_inj.mp hlast)))
  have hlength : (serviceDir s.install.input.servicePrefix).length =
      (serviceDir t.install.input.servicePrefix).length := by
    rw [serviceDir_eq,serviceDir_eq,length_append,length_append]
    rfl
  constructor
  · intro c hc d hd h
    obtain ⟨x,hx,hcname⟩ := hs.names c hc
    obtain ⟨y,hy,hdname⟩ := ht.names d hd
    rw [hcname,hdname] at h
    -- the name of the compose service is what stands behind the last dash
    have hsplit := splitLast_append s.install.input.servicePrefix.toList hx
    have htext := congrArg String.toList h
    simp only [String.toList_append] at htext
    have hcons : s.install.input.servicePrefix.toList ++ '-' :: x.toList =
        t.install.input.servicePrefix.toList ++ '-' :: y.toList := by
      simpa using htext
    rw [hcons,splitLast_append _ hy] at hsplit
    have hprefix := (Prod.mk.inj (Option.some.inj hsplit)).1
    exact hslug (servicePrefix_inj (String.toList_inj.mp hprefix)).symm
  · intro c hc v hv d hd w hw
    have hown := hs.confined c hc v hv
    have hother := ht.confined d hd w hw
    exact ⟨fun h => hdir (eq_of_common_path hown hother hlength h),
      fun h => hdir (eq_of_common_path hother hown hlength.symm h).symm⟩

section Runs

variable {directory : Directory} {parse : YamlParser} {services : List Service}
  {request : InstallRequest}

theorem installStep_cases (directory : Directory) (parse : YamlParser)
    (services : List Service) (request : InstallRequest) :
    installStep directory parse services request = services ∨
      ∃ containers, composeToContainers parse
        (request.install (uniqueServiceSlug services request.projectId request.name)).input =
          .ok containers ∧
        installStep directory parse services request = services ++ [⟨request.projectId,
          request.install (uniqueServiceSlug services request.projectId request.name),
          containers⟩] := by
  unfold installStep installFromTemplate
  by_cases hproject : request.projectId ∉ directory.projects
  · rw [if_pos hproject]
    exact .inl rfl
  rw [if_neg hproject]
  by_cases howner : (!directory.owner request.projectId request.userId) = true
  · rw [if_pos howner]
    exact .inl rfl
  · rw [if_neg howner]
    dsimp only
    cases h : composeToContainers parse
      (request.install (uniqueServiceSlug services request.projectId request.name)).input with
    | error error => exact .inl rfl
    | ok containers => exact .inr ⟨containers,rfl,rfl⟩

theorem keepsToItself_install (h : Separate parse services request)
    (hcompose : composeToContainers parse (request.install attempt).input = .ok containers) :
    KeepsToItself ⟨request.projectId,request.install attempt,containers⟩ := by
  constructor
  · obtain ⟨doc,compose,hdoc,hcomposed,hmem,-⟩ := mem_composeToContainers_iff hcompose
    intro c hc
    obtain ⟨⟨name,svc⟩,hservice,hparsed⟩ := (hmem c).mp hc
    exact ⟨name,h.names _ _ ⟨doc,compose,hdoc,hcomposed,hservice⟩,
      (builtFrom_of_parseService hparsed).name⟩
  · exact (forall_containers_iff hcompose fun _ _ _ hparsed => volumes_confined_iff hparsed).mpr
      (h.volumes attempt)

structure Separated (services : List Service) : Prop where
  own : ∀ service ∈ services, KeepsToItself service
  slugs : services.Pairwise fun s t => s.install.slug ≠ t.install.slug

theorem Separated.isolated (h : Separated services) : Isolated services :=
  h.slugs.imp_of_mem fun hs ht hslug => apart_of_slug_ne (h.own _ hs) (h.own _ ht) hslug

theorem separated_installStep (h : Separated services) (hrequest : Separate parse services request) :
    Separated (installStep directory parse services request) := by
  rcases installStep_cases directory parse services request with hsame | ⟨containers,hok,hnew⟩
  · rw [hsame]
    exact h
  · rw [hnew]
    constructor
    · intro service hservice
      rcases mem_append.mp hservice with hold | hlast
      · exact h.own service hold
      · rw [mem_singleton.mp hlast]
        exact keepsToItself_install hrequest hok
    · refine pairwise_append.mpr ⟨h.slugs,pairwise_singleton _ _,?_⟩
      intro service hold last hlast hslug
      rw [mem_singleton.mp hlast] at hslug
      -- in the same project the loop has looked for it, in another one the request is separate
      by_cases hproject : service.projectId = request.projectId
      · have hfree := slugTaken_uniqueServiceSlug services request.projectId request.name
        rw [slugTaken,any_eq_false] at hfree
        refine hfree service hold ?_
        simp only [hproject,decide_true,Bool.true_and,decide_eq_true_eq]
        exact hslug
      · exact hrequest.slugs service hold hproject _ hslug

theorem separated_installAll {requests : List InstallRequest} (h : Separated services)
    (hall : AllSeparate directory parse services requests) :
    Separated (installAll directory parse services requests) := by
  induction requests generalizing services with
  | nil => exact h
  | cons request requests ih => exact ih (separated_installStep h hall.1) hall.2

end Runs

/-- Requests that are all kept apart install services that never meet. -/
theorem installs_isolated (directory : Directory) (parse : String → Except String Yaml)
    (requests : List InstallRequest) (h : AllSeparate directory parse [] requests) :
    Isolated (installAll directory parse [] requests) :=
  (separated_installAll ⟨fun _ hnil => absurd hnil not_mem_nil,.nil⟩ h).isolated

namespace Shop

def directory : Directory := ⟨["shop", "bank"],fun _ _ => true⟩

def install (projectId : String) : InstallRequest :=
  ⟨"ann",projectId,"My Shop","V1StGXR8",fun _ => "file"⟩

theorem separate (h : ∀ service ∈ services, service.projectId = "shop") :
    Separate (fun _ => .ok (file "./data:/data" "tier=web")) services (install "shop") := by
  constructor
  · intro service hservice hother
    exact absurd (h service hservice) hother
  · intro slug service hservice
    rw [service_eq hservice]
    decide
  · intro attempt service hservice item hitem src rest hread
    rw [service_eq hservice] at hitem hread
    obtain rfl := mem_singleton.mp hitem
    cases hread
    exact ⟨["data".toList],rfl⟩

end Shop

open Shop

/-- The same template twice in one project. -/
theorem installs_isolated_shop : ∃ directory parse requests,
    AllSeparate directory parse [] requests ∧
      (installAll directory parse [] requests).map (·.install.slug) = ["my-shop", "my-shop-2"] ∧
      Isolated (installAll directory parse [] requests) := by
  have hall : AllSeparate directory (fun _ => .ok (file "./data:/data" "tier=web")) []
      [install "shop", install "shop"] := by
    refine ⟨separate ?_,separate ?_,trivial⟩
    · decide
    · decide +kernel
  exact ⟨_,_,_,hall,by decide +kernel,installs_isolated _ _ _ hall⟩

/-- The same template in two projects: one name and one directory for two services. -/
theorem services_of_two_projects_meet : ¬ ∀ (directory : Directory)
    (parse : String → Except String Yaml) (requests : List InstallRequest),
    Isolated (installAll directory parse [] requests) := by
  intro h
  have hisolated := h directory (fun _ => .ok (file "./data:/data" "tier=web"))
    [install "shop", install "bank"]
  revert hisolated
  decide +kernel

end Ploydok.Marketplace
