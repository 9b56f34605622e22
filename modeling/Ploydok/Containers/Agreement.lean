import Ploydok.Containers.Requests
import Ploydok.Marketplace.Compose

/-! Whether the agent accepts the containers that the API asks for. The requests of a template
(`installFromTemplate`) carry the labels of the compose file and two of the platform, of which
neither is one that the agent requires. -/

namespace Ploydok.Containers

open Data Text Agent Marketplace String
open Ploydok.Runtime (toLowerCase isAlnum isNameChar)

def slugify (name : String) : String :=
  ofList ((trimEnds (· == '-') (collapse (fun c => !isAlnum c) '-'
    (toLowerCase name.toList))).take 32)

/-- A candidate of `uniqueServiceSlug`: the base, or the base with the number of the attempt. -/
def serviceSlug (name : String) (attempt : Option Nat) : String :=
  let base := if slugify name = "" then "service" else slugify name
  match attempt with
  | none => base
  | some n => base ++ "-" ++ toString n

structure Install where
  name : String
  attempt : Option Nat
  serviceId : String
  /-- The compose file, its template variables resolved. -/
  compose : String

namespace Install

variable (install : Install)

def slug : String := serviceSlug install.name install.attempt

def input : ComposeToContainersInput where
  compose := install.compose
  servicePrefix := "ploydok-svc-" ++ install.slug
  network := "ploydok-public"
  labels := [("ploydok.kind", "service"), ("ploydok.service_id", install.serviceId)]

end Install

def serviceRequest (spec : ComposeContainer) : ContainerCreateRequest where
  name := spec.name
  image := spec.image
  labels := spec.labels
  network := spec.networks.head?.getD ""
  networks := spec.networks
  volumes := spec.volumes
  resourceLimits := none
  user := ""
  healthcheck := spec.healthcheck.map fun h =>
    ⟨h.test,h.intervalSeconds.getD 0,h.timeoutSeconds.getD 0,h.startPeriodSeconds.getD 0⟩

/-! ### Host paths -/

theorem dots_infix_append_iff (ha : '.' ∉ a) : "..".toList <:+: a ++ b ↔ "..".toList <:+: b := by
  induction a with
  | nil => rfl
  | cons c a ih =>
    have hc : c ≠ '.' := fun h => ha (h ▸ List.mem_cons_self)
    rw [List.cons_append,List.infix_cons_iff,ih fun h => ha (List.mem_cons_of_mem _ h)]
    refine ⟨fun h => h.resolve_left fun hstart => ?_,.inr⟩
    exact hc (List.cons_prefix_cons.mp hstart).1.symm

theorem traversal_append (hdot : '.' ∉ a.toList) (hnul : Char.ofNat 0 ∉ a.toList) :
    traversal (a ++ b) = traversal b := by
  have hdots := dots_infix_append_iff (b := b.toList) hdot
  unfold traversal includes
  rw [toList_append]
  simp only [hdots,List.contains_eq_mem,List.mem_append,hnul,false_or]

theorem not_mem_of_nameText (h : NameText s) (hc : isNameChar c = false) : c ∉ s.toList := by
  intro hmem
  rw [h c hmem] at hc
  cases hc

def SourceAllowed (namedVolumes : List String) (src : String) : Prop :=
  if startsWith src.toList ['/'] then
    traversal src = false ∧
      (src = volumesRoot ∨ startsWith src.toList (volumesRoot ++ "/").toList = true)
  else traversal (relativePart namedVolumes src) = false

instance (namedVolumes : List String) (src : String) : Decidable (SourceAllowed namedVolumes src) :=
  inferInstanceAs (Decidable (if startsWith src.toList ['/'] then
    traversal src = false ∧
      (src = volumesRoot ∨ startsWith src.toList (volumesRoot ++ "/").toList = true)
  else traversal (relativePart namedVolumes src) = false))

structure DefaultRoots (cfg : ValidatorConfig) : Prop where
  volumePrefix : cfg.volumePrefix = volumesRoot
  appVolumePrefix : cfg.appVolumePrefix = "/var/lib/ploydok/app-volumes"

theorem startsWith_append (a b : String) : startsWith (a ++ b).toList a.toList = true := by
  rw [startsWith_iff,toList_append]
  exact List.prefix_append _ _

theorem startsWith_of_append {s a b : String} (h : startsWith s.toList (a ++ b).toList = true) :
    startsWith s.toList a.toList = true := by
  rw [startsWith_iff,toList_append] at h
  exact startsWith_iff.mpr ((List.prefix_append _ _).trans h)

variable {path : String}

theorem under_iff (hroot : root.toList.rdropWhile (· == '/') = root.toList) :
    under path root = true ↔ startsWith path.toList (root ++ "/").toList = true ∨ path = root := by
  unfold under
  rw [hroot,toList_append]
  simp only [Bool.or_eq_true,beq_iff_eq,toList_inj]
  rfl

theorem not_under_appVolumes (h : startsWith path.toList volumesRoot.toList = true) :
    ¬ under path "/var/lib/ploydok/app-volumes" = true := by
  intro hunder
  have happ : "/var/lib/ploydok/app-volumes".toList <+: path.toList := by
    rcases (under_iff (by decide)).mp hunder with hstarts | rfl
    · exact startsWith_iff.mp (startsWith_of_append hstarts)
    · exact List.prefix_rfl
  rcases List.prefix_or_prefix_of_prefix (startsWith_iff.mp h) happ with hstart | hstart
  · revert hstart
    decide
  · revert hstart
    decide

variable {cfg : ValidatorConfig} {namedVolumes : List String} {install : Install}

theorem allowedPath_iff (hcfg : DefaultRoots cfg)
    (h : startsWith path.toList volumesRoot.toList = true) :
    AllowedPath cfg path ↔ traversal path = false ∧
      (path = volumesRoot ∨ startsWith path.toList (volumesRoot ++ "/").toList = true) := by
  unfold AllowedPath
  rw [hcfg.volumePrefix,hcfg.appVolumePrefix,under_iff (by decide),
    or_iff_left (not_under_appVolumes h),or_comm]

theorem resolveHostPath_allowed_iff (hcfg : DefaultRoots cfg) (hstart : NameText servicePrefix)
    (h : resolveHostPath src servicePrefix namedVolumes serviceName = .ok path) :
    AllowedPath cfg path ↔ SourceAllowed namedVolumes src := by
  unfold resolveHostPath at h
  unfold SourceAllowed
  split at h
  · next habsolute =>
    rw [if_pos habsolute]
    split at h
    · next hroot =>
      cases h
      exact allowedPath_iff hcfg hroot
    · cases h
  · next hrelative =>
    rw [if_neg hrelative]
    cases h
    have hbelow : startsWith (volumesRoot ++ "/" ++ servicePrefix ++ "/" ++
        relativePart namedVolumes src).toList (volumesRoot ++ "/").toList = true := by
      rw [append_assoc,append_assoc]
      exact startsWith_append _ _
    rw [allowedPath_iff hcfg (startsWith_of_append hbelow)]
    have hclean : ∀ c, isNameChar c = false → c ≠ '/' → c ∉ volumesRoot.toList →
        c ∉ (volumesRoot ++ "/" ++ servicePrefix ++ "/").toList := by
      intro c hc hslash hvolumes
      simp only [toList_append,List.mem_append,not_or]
      exact ⟨⟨⟨hvolumes,by simpa using hslash⟩,not_mem_of_nameText hstart hc⟩,
        by simpa using hslash⟩
    rw [traversal_append (hclean '.' (by decide) (by decide) (by decide))
      (hclean (Char.ofNat 0) (by decide) (by decide) (by decide))]
    exact ⟨And.left,fun hclean => ⟨hclean,.inr hbelow⟩⟩

theorem nameText_slug (install : Install) : NameText install.slug := by
  have hslugify : NameText (slugify install.name) := by
    intro c hc
    unfold slugify at hc
    rw [toList_ofList] at hc
    rcases mem_collapse (mem_of_mem_trimEnds (List.mem_of_mem_take hc)) with rfl | ⟨-,halnum⟩
    · exact isNameChar_dash
    · simp only [Bool.not_eq_false'] at halnum
      simp [isNameChar,halnum]
  have hbase : NameText
      (if slugify install.name = "" then "service" else slugify install.name) := by
    split
    · decide
    · exact hslugify
  unfold Install.slug serviceSlug
  cases install.attempt with
  | none => exact hbase
  | some n => exact (hbase.append (by decide)).append (nameText_toString n)

theorem nameMatches_service_iff (hslug : NameText slug) :
    nameMatches ("ploydok-svc-" ++ slug ++ "-" ++ svcName) = true ↔
      NameText svcName ∧ slug.toList.length + svcName.toList.length ≤ 58 := by
  have hname : "ploydok-svc-" ++ slug ++ "-" ++ svcName = ofList ("ploydok-".toList ++
      's' :: ("vc-".toList ++ slug.toList ++ "-".toList ++ svcName.toList)) := by
    rw [← toList_inj,toList_ofList]
    simp only [toList_append,List.append_assoc]
    rfl
  have hlength : ("vc-".toList ++ slug.toList ++ "-".toList ++ svcName.toList).length =
      slug.toList.length + svcName.toList.length + 4 := by
    simp only [List.length_append]
    have hvc : "vc-".toList.length = 3 := rfl
    have hdash : "-".toList.length = 1 := rfl
    omega
  rw [hname,nameMatches_append_iff (by decide),hlength]
  refine and_congr ⟨fun h c hc => h c (List.mem_append_right _ hc),fun h c hc => ?_⟩ (by omega)
  rcases List.mem_append.mp hc with hc | hc
  · have hfixed : NameText "vc-" ∧ NameText "-" := by decide
    rcases List.mem_append.mp hc with hc | hc
    · exact (List.mem_append.mp hc).elim (hfixed.1 c) (hslug c)
    · exact hfixed.2 c hc
  · exact h c hc

theorem lookup_append (h : ∀ entry ∈ more, entry.1 ≠ key) :
    lookup (entries ++ more) key = lookup entries key := by
  have hmore : more.reverse.find? (·.1 = key) = none := by
    rw [List.find?_eq_none]
    intro entry hentry
    simpa using h entry (List.mem_reverse.mp hentry)
  unfold lookup
  rw [List.reverse_append,List.find?_append,hmore,Option.none_or]

structure ServiceAllowed (slug : String) (namedVolumes : List String) (service : String × Yaml) :
    Prop where
  name : NameText service.1
  length : slug.toList.length + service.1.toList.length ≤ 58
  labels : ∀ key ∈ requiredLabels,
    ∃ value, lookup (parseLabels (service.2.field? "labels")) key = some value ∧ value ≠ ""
  volumes : ∀ item ∈ itemsOf (service.2.field? "volumes"), ∀ src rest,
    volumeItem service.1 item = .ok (some (src, rest)) → SourceAllowed namedVolumes src
  healthcheck : ∀ h, parseHealthcheck (service.2.field? "healthcheck") = some h →
    ∃ mode ∈ healthcheckModes, h.test.head? = some mode

theorem healthcheck_valid_iff (hparse : parseHealthcheck raw = some h) :
    HealthcheckConfig.Valid ⟨h.test,h.intervalSeconds.getD 0,h.timeoutSeconds.getD 0,
      h.startPeriodSeconds.getD 0⟩ ↔ ∃ mode ∈ healthcheckModes, h.test.head? = some mode := by
  refine ⟨fun hvalid => hvalid.mode,fun hmode => ⟨hmode,?_,?_,?_⟩⟩
  all_goals
    refine (getD_nonneg_iff le_rfl).mpr fun s hs => ?_
    unfold parseHealthcheck at hparse
    split at hparse
    · cases hparse
      cases hs
    · cases hparse
      exact parseDuration_nonneg hs
    · cases hparse

theorem service_accepted_iff (hcfg : DefaultRoots cfg)
    (hbuilt : parseService install.input namedVolumes service = .ok spec)
    (himage : extractRegistry spec.image ∈ cfg.allowedRegistries) :
    Accepted cfg (serviceRequest spec) ↔ ServiceAllowed install.slug namedVolumes service := by
  obtain ⟨svcName,svc⟩ := service
  have hfrom := builtFrom_of_parseService hbuilt
  have hname : nameMatches spec.name = true ↔
      NameText svcName ∧ install.slug.toList.length + svcName.toList.length ≤ 58 := by
    rw [hfrom.name]
    exact nameMatches_service_iff (nameText_slug install)
  have hstart : NameText install.input.servicePrefix :=
    .append (by decide) (nameText_slug install)
  have hvolumes : (∀ volume ∈ spec.volumes, AllowedPath cfg volume.hostPath) ↔
      ∀ item ∈ itemsOf (svc.field? "volumes"), ∀ src rest,
        volumeItem svcName item = .ok (some (src, rest)) → SourceAllowed namedVolumes src := by
    rw [forall_mem_parseVolumes_iff hfrom.volumes]
    refine forall₂_congr fun item hmem => forall₃_congr fun src rest hitem => ?_
    -- The file was accepted, so the source has a path.
    obtain ⟨path,hpath,-⟩ := (forall_mem_parseVolumes_iff (P := fun _ => True)
      hfrom.volumes).mp (fun _ _ => trivial) item hmem src rest hitem
    rw [← resolveHostPath_allowed_iff hcfg hstart hpath,hpath]
    simp
  have hlabels : ∀ key ∈ requiredLabels,
      lookup spec.labels key = lookup (parseLabels (svc.field? "labels")) key := by
    intro key hkey
    rw [hfrom.labels]
    refine lookup_append fun entry hentry => ?_
    have hown : ∀ key ∈ requiredLabels, key ≠ "ploydok.kind" ∧ key ≠ "ploydok.service_id" := by
      decide
    rcases List.mem_cons.mp hentry with rfl | hentry
    · exact (hown key hkey).1.symm
    · rw [List.mem_singleton.mp hentry]
      exact (hown key hkey).2.symm
  constructor
  · intro h
    refine ⟨(hname.mp h.name).1,(hname.mp h.name).2,fun key hkey => ?_,hvolumes.mp h.volumes,
      fun check hcheck => ?_⟩
    · rw [← hlabels key hkey]
      exact h.labels key hkey
    · refine (healthcheck_valid_iff hcheck).mp (h.healthcheck _ ?_)
      rw [serviceRequest,hfrom.healthcheck,hcheck]
      rfl
  · intro h
    refine ⟨hname.mpr ⟨h.name,h.length⟩,himage,hvolumes.mpr h.volumes,fun key hkey => ?_,
      fun check hcheck => ?_,fun network hnetwork => ?_,no_user,fun limits hlimits => ?_⟩
    · show ∃ value, lookup spec.labels key = some value ∧ value ≠ ""
      rw [hlabels key hkey]
      exact h.labels key hkey
    · rw [serviceRequest,hfrom.healthcheck] at hcheck
      obtain ⟨parsed,hparsed,rfl⟩ := Option.map_eq_some_iff.mp hcheck
      exact (healthcheck_valid_iff hparsed).mpr (h.healthcheck parsed hparsed)
    · rw [netCandidates,serviceRequest,hfrom.networks] at hnetwork
      have hpublic : network = "ploydok-public" := by
        rcases List.mem_cons.mp (List.mem_of_mem_filter hnetwork) with rfl | hmem
        · rfl
        · exact List.mem_singleton.mp hmem
      rw [hpublic]
      decide
    · cases hlimits

inductive Origin where
  | scheduledJob (job : RunnableJob) (imageRef : Option String) (project : ProjectRow)
      (nanoid : String)
  | hook (appId imageRef : String) (phase : HookPhase) (project : ProjectRow) (nanoid : String)
  | preview (app : AppForPreview) (project : ProjectRow) (previewId : String) (prNumber : Nat)
      (headSha imageRef : String) (runtimePort : Nat)
  | template (install : Install)

/-- The requests that are built; none where the API gives up before. -/
def requests (parse : YamlParser) : Origin → List ContainerCreateRequest
  | .scheduledJob job imageRef project nanoid =>
    (scheduledJobRequest job imageRef project nanoid).toOption.toList
  | .hook appId imageRef phase project nanoid =>
    [hookRequest appId imageRef phase project nanoid]
  | .preview app project previewId prNumber headSha imageRef runtimePort =>
    [previewRequest app project previewId prNumber headSha imageRef runtimePort]
  | .template install =>
    ((composeToContainers parse install.input).toOption.getD []).map serviceRequest

def TemplateAllowed (parse : YamlParser) (install : Install) : Prop :=
  ∀ containers, composeToContainers parse install.input = .ok containers →
    ∀ doc services, parse install.compose = .ok doc → servicesOf doc = some services →
      ∀ service ∈ services, ServiceAllowed install.slug (namedVolumesOf doc) service

def Agreeable (parse : YamlParser) (cfg : ValidatorConfig) : Origin → Prop
  | .scheduledJob job imageRef _ _ => job.command.getD [] = [] ∨ jobImage job imageRef = none
  | .hook .. => False
  | .preview app .. => PreviewAllowed cfg app
  | .template install => TemplateAllowed parse install

attribute [local simp] Except.toOption

theorem scheduledJobRequest_eq_error_iff (project : ProjectRow) (nanoid : String) :
    (scheduledJobRequest job imageRef project nanoid).toOption = none ↔
      job.command.getD [] = [] ∨ jobImage job imageRef = none := by
  unfold scheduledJobRequest
  by_cases hcommand : job.command.getD [] = []
  · simp [hcommand]
  · rw [if_neg (by simpa using hcommand)]
    cases jobImage job imageRef with
    | none => simp
    | some image => simp [hcommand]

theorem template_accepted_iff (hcfg : DefaultRoots cfg)
    (himages : ∀ req ∈ requests parse (.template install),
      extractRegistry req.image ∈ cfg.allowedRegistries) :
    (∀ req ∈ requests parse (.template install), Accepted cfg req) ↔
      TemplateAllowed parse install := by
  have hrequests : requests parse (.template install) =
      ((composeToContainers parse install.input).toOption.getD []).map serviceRequest := rfl
  rw [hrequests] at himages ⊢
  unfold TemplateAllowed
  cases hcompose : composeToContainers parse install.input with
  | error e => simp
  | ok containers =>
    rw [hcompose] at himages
    obtain ⟨doc,services,hparse,hservices,hmem,hall⟩ := mem_composeToContainers_iff hcompose
    have haccepted : ∀ service ∈ services, ∀ spec,
        parseService install.input (namedVolumesOf doc) service = .ok spec →
          (Accepted cfg (serviceRequest spec) ↔
            ServiceAllowed install.slug (namedVolumesOf doc) service) := by
      intro service hservice spec hspec
      refine service_accepted_iff hcfg hspec (himages (serviceRequest spec) ?_)
      exact List.mem_map_of_mem ((hmem spec).mpr ⟨service,hservice,hspec⟩)
    constructor
    · intro h _ _ doc' services' hparse' hservices' service hservice
      cases hparse.symm.trans hparse'
      cases hservices.symm.trans hservices'
      obtain ⟨spec,hspec⟩ := hall service hservice
      refine (haccepted service hservice spec hspec).mp (h _ ?_)
      exact List.mem_map_of_mem ((hmem spec).mpr ⟨service,hservice,hspec⟩)
    · intro h req hreq
      obtain ⟨spec,hspec,rfl⟩ := List.mem_map.mp hreq
      obtain ⟨service,hservice,hbuilt⟩ := (hmem spec).mp hspec
      exact (haccepted service hservice spec hbuilt).mpr
        (h containers rfl doc services hparse hservices service hservice)

/-- The agent accepts every request of an origin exactly if the origin is agreeable: a job or a hook
that gets as far as a request never is, for want of the required labels. -/
theorem requests_accepted_iff (parse : String → Except String Yaml) (cfg : ValidatorConfig)
    (hcfg : DefaultRoots cfg) (origin : Origin)
    (himages : ∀ req ∈ requests parse origin, extractRegistry req.image ∈ cfg.allowedRegistries) :
    (∀ req ∈ requests parse origin, validateContainerCreate cfg req = .ok ()) ↔
      Agreeable parse cfg origin := by
  simp only [validateContainerCreate_eq_ok_iff]
  cases origin with
  | scheduledJob job imageRef project nanoid =>
    rw [Agreeable,← scheduledJobRequest_eq_error_iff project nanoid,requests]
    cases hreq : scheduledJobRequest job imageRef project nanoid with
    | error e => simp
    | ok req => simp [scheduledJob_not_accepted hreq]
  | hook appId imageRef phase project nanoid =>
    refine iff_false_intro fun h => ?_
    rw [requests,List.forall_mem_singleton] at h
    exact hook_not_accepted cfg appId imageRef phase project nanoid h
  | preview app project previewId prNumber headSha imageRef runtimePort =>
    rw [requests,List.forall_mem_singleton,Agreeable]
    exact preview_accepted_iff (himages _ List.mem_cons_self)
  | template install => exact template_accepted_iff hcfg himages

def labelledFile : Yaml :=
  .map [("services", .map [("web", .map [("image", .string "nginx:1.27"),
    ("labels", .map [("ploydok.app_id", .string "shop"), ("ploydok.owner_id", .string "ada")]),
    ("volumes", .seq [.string "data:/data"])])]), ("volumes", .map [("data", .null)])]

def labelledInstall : Install := ⟨"My Shop",none,"V1StGXR8","file"⟩

theorem labelled_template_accepted :
    Agreeable (fun _ => .ok labelledFile) {} (.template labelledInstall) ∧
      ∀ req ∈ requests (fun _ => .ok labelledFile) (.template labelledInstall),
        validateContainerCreate {} req = .ok () := by
  have hagree : Agreeable (fun _ => .ok labelledFile) {} (.template labelledInstall) := by
    intro containers _ doc services hdoc hservices service hservice
    cases hdoc
    cases hservices
    obtain rfl := List.mem_singleton.mp hservice
    refine ⟨by decide,by decide,?_,?_,?_⟩
    · intro key hkey
      rcases List.mem_cons.mp hkey with rfl | hkey
      · exact ⟨"shop",rfl,by decide⟩
      · rw [List.mem_singleton.mp hkey]
        exact ⟨"ada",rfl,by decide⟩
    · intro item hitem src rest hsrc
      obtain rfl := List.mem_singleton.mp hitem
      cases hsrc
      decide
    · intro h hh
      cases hh
  refine ⟨hagree,(requests_accepted_iff _ {} ⟨rfl,rfl⟩ _ ?_).mpr hagree⟩
  intro req hreq
  obtain rfl := List.mem_singleton.mp hreq
  decide

/-- The request of a hook, whatever its image. -/
theorem hook_request_denied :
    ¬ ∀ (parse : String → Except String Yaml) (cfg : ValidatorConfig) (origin : Origin),
      DefaultRoots cfg →
      (∀ req ∈ requests parse origin, extractRegistry req.image ∈ cfg.allowedRegistries) →
      ∀ req ∈ requests parse origin, validateContainerCreate cfg req = .ok () := by
  intro h
  have haccepted := h (fun _ => .error "") {}
    (.hook "shop" "nginx:1.27" .pre ⟨"proj",none,.inl rfl⟩ "v1stgxr8") ⟨rfl,rfl⟩
    (fun req hreq => by
      obtain rfl := List.mem_singleton.mp hreq
      decide) _ List.mem_cons_self
  revert haccepted
  decide

end Ploydok.Containers
