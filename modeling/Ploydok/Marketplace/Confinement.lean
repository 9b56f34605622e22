import Ploydok.Marketplace.Compose
import Ploydok.Text.Path

/-! What a compose file can reach outside its own service: the host paths its volumes are mounted
from, and the labels of the platform. -/

namespace Ploydok.Marketplace

open Data Text Agent List

variable {parse : YamlParser} {input : ComposeToContainersInput}
  {containers : List ComposeContainer} {namedVolumes : List String}

def ServiceOf (parse : YamlParser) (compose : String) (service : String × Yaml) :
    Prop :=
  ∃ doc services, parse compose = .ok doc ∧ servicesOf doc = some services ∧ service ∈ services

theorem forall_containers_iff (h : composeToContainers parse input = .ok containers)
    {P : ComposeContainer → Prop} {Q : String × Yaml → Prop}
    (hPQ : ∀ namedVolumes service container,
      parseService input namedVolumes service = .ok container → (P container ↔ Q service)) :
    (∀ container ∈ containers, P container) ↔
      ∀ service, ServiceOf parse input.compose service → Q service := by
  obtain ⟨doc,services,hdoc,hservices,hmem,hall⟩ := mem_composeToContainers_iff h
  constructor
  · rintro hP service ⟨doc',services',hdoc',hservices',hservice⟩
    cases hdoc.symm.trans hdoc'
    cases hservices.symm.trans hservices'
    obtain ⟨container,hparsed⟩ := hall service hservice
    exact (hPQ _ _ _ hparsed).mp (hP container ((hmem container).mpr ⟨service,hservice,hparsed⟩))
  · intro hQ container hcontainer
    obtain ⟨service,hservice,hparsed⟩ := (hmem container).mp hcontainer
    exact (hPQ _ _ _ hparsed).mpr (hQ service ⟨doc,services,hdoc,hservices,hservice⟩)

def serviceDir (servicePrefix : String) : Segments :=
  normalizePath (volumesRoot ++ "/" ++ servicePrefix).toList

def Confined (servicePrefix : String) (containers : List ComposeContainer) : Prop :=
  ∀ container ∈ containers, ∀ volume ∈ container.volumes,
    serviceDir servicePrefix <+: normalizePath volume.hostPath.toList

/-- The source of every volume, read from the directory of the service, leads to it or below it. -/
def SourcesStay (parse : YamlParser) (input : ComposeToContainersInput) : Prop :=
  ∀ service, ServiceOf parse input.compose service →
    ∀ item ∈ itemsOf (service.2.field? "volumes"), ∀ src rest,
      volumeItem service.1 item = .ok (some (src, rest)) →
        serviceDir input.servicePrefix <+: resolvePath (serviceDir input.servicePrefix) src.toList

/-- The branch that strips a leading `./` does not change where the source leads. -/
theorem walk_relativePart (dir : Segments) (namedVolumes : List String) (src : String) :
    walk dir (pathSegments (relativePart namedVolumes src).toList) =
      walk dir (pathSegments src.toList) := by
  unfold relativePart
  split_ifs with hname hdot
  · rfl
  · obtain ⟨rest,hrest⟩ := startsWith_iff.mp hdot
    rw [← hrest,walk_dot_slash]
    simp
  · rfl

theorem normalizePath_resolveHostPath
    (h : resolveHostPath src servicePrefix namedVolumes serviceName = .ok path) :
    normalizePath path.toList = resolvePath (serviceDir servicePrefix) src.toList := by
  unfold resolveHostPath at h
  unfold resolvePath
  split at h
  · next habsolute =>
    rw [if_pos habsolute]
    split at h
    · cases h
      rfl
    · cases h
  · next hrelative =>
    rw [if_neg hrelative]
    cases h
    have hpath : (volumesRoot ++ "/" ++ servicePrefix ++ "/" ++
        relativePart namedVolumes src).toList =
      (volumesRoot ++ "/" ++ servicePrefix).toList ++
        '/' :: (relativePart namedVolumes src).toList := by
      simp
    rw [hpath,normalizePath_append,walk_relativePart]
    rfl

theorem volumes_confined_iff (h : parseService input namedVolumes service = .ok container) :
    (∀ volume ∈ container.volumes,
        serviceDir input.servicePrefix <+: normalizePath volume.hostPath.toList) ↔
      ∀ item ∈ itemsOf (service.2.field? "volumes"), ∀ src rest,
        volumeItem service.1 item = .ok (some (src, rest)) → serviceDir input.servicePrefix <+:
            resolvePath (serviceDir input.servicePrefix) src.toList := by
  obtain ⟨svcName,svc⟩ := service
  have hvolumes := (builtFrom_of_parseService h).volumes
  rw [forall_mem_parseVolumes_iff hvolumes
    (P := fun path => serviceDir input.servicePrefix <+: normalizePath path.toList)]
  refine forall_congr' fun item => forall_congr' fun hitem => forall_congr' fun src =>
    forall_congr' fun rest => forall_congr' fun hread => ?_
  constructor
  · rintro ⟨path,hpath,hstay⟩
    rwa [← normalizePath_resolveHostPath hpath]
  · intro hstay
    -- the items have been read, so the source was not refused
    obtain ⟨path,hpath,-⟩ := (forall_mem_parseVolumes_iff hvolumes (P := fun _ => True)).mp
      (fun _ _ => trivial) item hitem src rest hread
    exact ⟨path,hpath,by rwa [normalizePath_resolveHostPath hpath]⟩

/-- Volumes stay in the directory of their service exactly if their sources do. -/
theorem confined_iff (parse : String → Except String Yaml) (input : ComposeToContainersInput)
    (containers : List ComposeContainer) (h : composeToContainers parse input = .ok containers) :
    Confined input.servicePrefix containers ↔ SourcesStay parse input :=
  forall_containers_iff h fun _ _ _ hparsed => volumes_confined_iff hparsed

/-- The value of a key in an object that is made from these entries: the last one. -/
def labelOf (labels : List (String × String)) (key : String) : Option String :=
  (labels.reverse.find? (·.1 = key)).map (·.2)

theorem labelOf_append (xs ys : List (String × String)) (key : String) :
    labelOf (xs ++ ys) key = (labelOf ys key).or (labelOf xs key) := by
  unfold labelOf
  rw [reverse_append,find?_append]
  cases ys.reverse.find? (·.1 = key) with
  | none | some => rfl

theorem labelOf_eq_none_iff (labels : List (String × String)) (key : String) :
    labelOf labels key = none ↔ key ∉ labels.map (·.1) := by
  rw [labelOf,Option.map_eq_none_iff,find?_eq_none]
  simp only [mem_reverse,decide_eq_true_eq,mem_map,not_exists,not_and]

def isPlatformKey (key : String) : Bool := startsWith key.toList "ploydok.".toList

def PlatformLabels (input : ComposeToContainersInput) (containers : List ComposeContainer) : Prop :=
  ∀ container ∈ containers, ∀ key, isPlatformKey key = true →
    labelOf container.labels key = labelOf input.labels key

/-- The compose file uses no key of the platform but those that the platform supplies itself. -/
def LabelsAllowed (parse : YamlParser) (input : ComposeToContainersInput) : Prop :=
  ∀ service, ServiceOf parse input.compose service →
    ∀ label ∈ parseLabels (service.2.field? "labels"), isPlatformKey label.1 = true →
      label.1 ∈ input.labels.map (·.1)

/-- The labels of the platform cannot be forged exactly if the file does not try other keys. -/
theorem platformLabels_iff (parse : String → Except String Yaml) (input : ComposeToContainersInput)
    (containers : List ComposeContainer) (h : composeToContainers parse input = .ok containers) :
    PlatformLabels input containers ↔ LabelsAllowed parse input := by
  refine forall_containers_iff h fun namedVolumes service container hparsed => ?_
  obtain ⟨svcName,svc⟩ := service
  rw [(builtFrom_of_parseService hparsed).labels]
  simp only [labelOf_append]
  constructor
  · intro hsame label hlabel hkey
    by_contra hnew
    have hmerged := hsame label.1 hkey
    rw [(labelOf_eq_none_iff _ _).mpr hnew,Option.none_or,labelOf_eq_none_iff] at hmerged
    exact hmerged (mem_map_of_mem hlabel)
  · intro hallowed key hkey
    cases hplatform : labelOf input.labels key with
    | some value => rfl
    | none =>
      rw [Option.none_or,labelOf_eq_none_iff]
      intro huser
      obtain ⟨label,hlabel,rfl⟩ := mem_map.mp huser
      exact (labelOf_eq_none_iff _ _).mp hplatform (hallowed label hlabel hkey)

namespace Shop

def request : ComposeToContainersInput :=
  ⟨"file","ploydok-svc-shop","ploydok-public",
    [("ploydok.kind", "service"), ("ploydok.service_id", "V1StGXR8")]⟩

def file (volume label : String) : Yaml :=
  .map [("services", .map [("web", .map [("image", .string "nginx:1.27"),
    ("labels", .seq [.string label]), ("volumes", .seq [.string volume])])])]

theorem service_eq (h : ServiceOf (fun _ => .ok (file volume label)) request.compose service) :
    service = ("web", .map [("image", .string "nginx:1.27"), ("labels", .seq [.string label]),
      ("volumes", .seq [.string volume])]) := by
  obtain ⟨doc,services,hdoc,hservices,hservice⟩ := h
  cases hdoc
  cases hservices
  exact mem_singleton.mp hservice

def web (hostPath : String) (label : String × String) : ComposeContainer :=
  ⟨"ploydok-svc-shop-web","nginx:1.27",[],label :: request.labels,["ploydok-public"],
    [⟨hostPath,"/data",false⟩],[],none⟩

theorem compose_plain :
    composeToContainers (fun _ => .ok (file "./data:/data" "tier=web")) request =
      .ok [web "/var/lib/ploydok/volumes/ploydok-svc-shop/data" ("tier", "web")] := by
  decide +kernel

theorem compose_escaping :
    composeToContainers (fun _ => .ok (file "../ploydok-svc-bank/data:/data" "tier=web")) request =
      .ok [web "/var/lib/ploydok/volumes/ploydok-svc-shop/../ploydok-svc-bank/data"
        ("tier", "web")] := by
  decide +kernel

theorem compose_forging :
    composeToContainers (fun _ => .ok (file "./data:/data" "ploydok.app_id=bank")) request =
      .ok [web "/var/lib/ploydok/volumes/ploydok-svc-shop/data" ("ploydok.app_id", "bank")] := by
  decide +kernel

end Shop

open Shop

/-- A volume in the directory of the service. -/
theorem confined_iff_shop : ∃ containers,
    composeToContainers (fun _ => .ok (file "./data:/data" "tier=web")) request =
      .ok containers ∧ containers.length = 1 ∧ Confined request.servicePrefix containers := by
  refine ⟨_,compose_plain,rfl,(confined_iff _ _ _ compose_plain).mpr ?_⟩
  intro service hservice item hitem src rest hread
  rw [service_eq hservice] at hitem hread
  obtain rfl := mem_singleton.mp hitem
  cases hread
  decide

/-- A volume of another service. -/
theorem compose_volume_escapes : ¬ ∀ (parse : String → Except String Yaml)
    (input : ComposeToContainersInput) (containers : List ComposeContainer),
    composeToContainers parse input = .ok containers → Confined input.servicePrefix containers := by
  intro h
  have hconfined := h _ request _ compose_escaping _ mem_cons_self _ mem_cons_self
  revert hconfined
  decide +kernel

/-- A label of the template's own. -/
theorem platformLabels_iff_shop : ∃ containers,
    composeToContainers (fun _ => .ok (file "./data:/data" "tier=web")) request =
      .ok containers ∧ containers.length = 1 ∧ PlatformLabels request containers := by
  refine ⟨_,compose_plain,rfl,(platformLabels_iff _ _ _ compose_plain).mpr ?_⟩
  intro service hservice label hlabel hkey
  rw [service_eq hservice] at hlabel
  obtain rfl := mem_singleton.mp hlabel
  revert hkey
  decide

/-- A label that names an app. -/
theorem platform_label_forged : ¬ ∀ (parse : String → Except String Yaml)
    (input : ComposeToContainersInput) (containers : List ComposeContainer),
    composeToContainers parse input = .ok containers → PlatformLabels input containers := by
  intro h
  have hlabels := h _ request _ compose_forging _ mem_cons_self "ploydok.app_id" (by decide)
  revert hlabels
  decide

end Ploydok.Marketplace
