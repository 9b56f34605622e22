import Ploydok.Agent.ContainerPolicy
import Ploydok.Order.DepthFirst
import Ploydok.Text.Number
import Mathlib.Data.Rat.Floor

/-! The containers of a marketplace template: `composeToContainers` of
`marketplace/compose-to-containers.ts`, with every way in which a compose file is refused. The
text is parsed by a YAML library; what it returns is a value as JavaScript sees it. -/

namespace Ploydok.Marketplace

open Data Text Agent List

/-- A number, with its text and whether it counts as true. -/
structure JsNumber where
  text : String
  truthy : Bool
deriving DecidableEq

inductive Yaml where
  | null
  | bool (b : Bool)
  | number (n : JsNumber)
  | string (s : String)
  | seq (items : List Yaml)
  | map (entries : List (String × Yaml))

/-- The YAML parser; it throws a message. -/
abbrev YamlParser := String → Except String Yaml

def normalize : List (String × α) → List (String × α)
  | [] => []
  | (key, value) :: rest =>
    if key ∈ (normalize rest).map (·.1) then normalize rest else (key, value) :: normalize rest

namespace Yaml

def truthy : Yaml → Bool
  | null => false
  | bool b => b
  | number n => n.truthy
  | string s => s ≠ ""
  | seq _ | map _ => true

mutual

/-- `String(value)`. -/
def text : Yaml → String
  | null => "null"
  | bool b => if b then "true" else "false"
  | number n => n.text
  | string s => s
  | seq items => String.intercalate "," (texts items)
  | map _ => "[object Object]"

def texts : List Yaml → List String
  | [] => []
  | null :: items => "" :: texts items
  | item :: items => item.text :: texts items

end

/-- `Object.entries(value)` of a value of type `object`. -/
def entries? : Yaml → Option (List (String × Yaml))
  | seq items => some (normalize (items.zipIdx.map fun item => (toString item.2, item.1)))
  | map entries => some (normalize entries)
  | _ => none

/-- `value.key`, with `none` for `undefined`. The keys that are asked for are none of an array. -/
def field? (value : Yaml) (key : String) : Option Yaml :=
  match value with
  | map entries => ((normalize entries).find? (·.1 = key)).map (·.2)
  | _ => none

end Yaml

def present (value : Option Yaml) : Option Yaml := value.filter Yaml.truthy

/-! ### The parts of a service -/

inductive ComposeError where
  | error (message : String)
  | unsupported (message : String)
deriving DecidableEq

structure ComposeHealthcheck where
  test : List String
  (intervalSeconds timeoutSeconds startPeriodSeconds : Option Int)
deriving DecidableEq

structure ComposeContainer where
  (name image : String)
  (env labels : List (String × String))
  networks : List String
  volumes : List VolumeMount
  dependsOn : List String
  healthcheck : Option ComposeHealthcheck
deriving DecidableEq

structure ComposeToContainersInput where
  (compose servicePrefix network : String)
  labels : List (String × String)

def volumesRoot : String := "/var/lib/ploydok/volumes"

/-- The digits after the point of a number and what follows them. -/
def fractionOf (s : List Char) : List Char × List Char :=
  match s with
  | '.' :: rest => (rest.takeWhile Char.isDigit, rest.dropWhile Char.isDigit)
  | rest => ([], rest)

/-- How many seconds a unit has; without a unit the number is one of seconds. -/
def secondsOf (unit : List Char) : Option ℚ :=
  if unit = [] ∨ unit = ['s'] then some 1
  else if unit = ['m', 's'] then some (1 / 1000)
  else if unit = ['m'] then some 60
  else if unit = ['h'] then some 3600
  else none

/-- The seconds of `^(\d+(?:\.\d+)?)(ms|s|m|h)?$`, rounded. -/
def durationOf (s : List Char) : Option Int :=
  let whole := s.takeWhile Char.isDigit
  let (frac, unit) := fractionOf (s.dropWhile Char.isDigit)
  let n : ℚ := Nat.ofDigitChars 10 (whole ++ frac) 0 / 10 ^ frac.length
  if whole = [] ∨ s.dropWhile Char.isDigit = '.' :: unit then none
  else (secondsOf unit).map fun seconds => ⌊n * seconds + 1 / 2⌋

def parseDuration (value : Option Yaml) : Option Int :=
  match value with
  | none => none
  | some .null => none
  | some value => durationOf value.text.toList

/-- `key=value` at the first equals sign. -/
def splitEntry (item : String) : String × String :=
  (String.ofList (item.toList.takeWhile (· ≠ '=')),
    String.ofList ((item.toList.dropWhile (· ≠ '=')).drop 1))

/-- The loop that `parseEnv` and `parseLabels` share; `none` for a value that is neither a map
nor an array. -/
def parseEntries (raw : Option Yaml) : Option (List (String × String)) :=
  match present raw with
  | none => some []
  | some (.seq items) => some (items.filterMap fun item =>
      match item with
      | .string s => some (splitEntry s)
      | _ => none)
  | some (.map entries) => some ((normalize entries).map fun entry =>
      (entry.1, match entry.2 with
        | .null => ""
        | value => value.text))
  | some _ => none

def parseEnv (raw : Option Yaml) (serviceName : String) :
    Except ComposeError (List (String × String)) :=
  match parseEntries raw with
  | some env => .ok env
  | none => .error (.unsupported
      ("Service \"" ++ serviceName ++ "\": environment must be a map or array"))

def parseLabels (raw : Option Yaml) : List (String × String) := (parseEntries raw).getD []

/-- What is mounted below the directory of the service. -/
def relativePart (namedVolumes : List String) (src : String) : String :=
  if src ∈ namedVolumes ∨ (¬ startsWith src.toList ['.'] ∧ ¬ startsWith src.toList ['~'] ∧
      '/' ∉ src.toList) then src
  else if startsWith src.toList ['.', '/'] then String.ofList (src.toList.drop 2)
  else src

def resolveHostPath (src servicePrefix : String) (namedVolumes : List String)
    (serviceName : String) : Except ComposeError String :=
  if startsWith src.toList ['/'] then
    if startsWith src.toList volumesRoot.toList then .ok src
    else .error (.unsupported ("Service \"" ++ serviceName ++ "\": absolute host volume path \"" ++
      src ++ "\" is not allowed. Only paths under " ++ volumesRoot ++ " are permitted."))
  else .ok (volumesRoot ++ "/" ++ servicePrefix ++ "/" ++ relativePart namedVolumes src)

/-- The source and the rest of an item of `volumes`; `none` if the item is passed over. -/
def volumeItem (serviceName : String) (item : Yaml) :
    Except ComposeError (Option (String × String × Bool)) :=
  match item with
  | .string s =>
    match s.toList.splitOn ':' with
    | src :: dst :: rest => .ok (some (String.ofList src, String.ofList dst,
        rest.head? = some ['r', 'o']))
    | _ => .error (.unsupported ("Service \"" ++ serviceName ++ "\": invalid volume spec \"" ++ s ++
        "\""))
  | .seq _ => .ok (some ("", "", false))
  | .map _ =>
    let part := fun key => match item.field? key with
      | none | some .null => ""
      | some value => value.text
    .ok (some (part "source", part "target", match item.field? "read_only" with
      | some (.bool true) => true
      | _ => false))
  | _ => .ok none

def parseVolume (serviceName servicePrefix : String) (namedVolumes : List String) (item : Yaml) :
    Except ComposeError (Option VolumeMount) := do
  match ← volumeItem serviceName item with
  | none => return none
  | some (src, dst, readOnly) =>
    let hostPath ← resolveHostPath src servicePrefix namedVolumes serviceName
    return some ⟨hostPath,dst,readOnly⟩

def itemsOf (raw : Option Yaml) : List Yaml :=
  match raw with
  | some (.seq items) => items
  | _ => []

def parseVolumes (raw : Option Yaml) (serviceName servicePrefix : String)
    (namedVolumes : List String) : Except ComposeError (List VolumeMount) := do
  let volumes ← (itemsOf raw).mapM (parseVolume serviceName servicePrefix namedVolumes)
  return volumes.filterMap id

/-- The two numbers of a port mapping in a text are numbers. -/
def portNumbers (item : String) : Bool :=
  match (item.toList.takeWhile (· ≠ '/')).splitOn ':' with
  | [_, host, container]
  | [host, container] => (parseInt host).isSome && (parseInt container).isSome
  | container :: _ => (parseInt container).isSome
  | [] => false

/-- The check of `parsePorts`; the ports themselves are of no use here. -/
def parsePorts (raw : Option Yaml) (serviceName : String) : Except ComposeError Unit :=
  (itemsOf raw).forM fun item =>
    match item with
    | .string s => ensure (portNumbers s) (.unsupported
        ("Service \"" ++ serviceName ++ "\": invalid port mapping \"" ++ s ++ "\""))
    | _ => .ok ()

def parseDependsOn (raw : Option Yaml) : List String :=
  match present raw with
  | some (.seq items) => items.map Yaml.text
  | some (.map entries) => (normalize entries).map (·.1)
  | _ => []

def parseTest (raw : Option Yaml) : List String :=
  match raw with
  | some (.seq items) => items.map Yaml.text
  | some (.string s) => ["CMD-SHELL", s]
  | _ => []

def parseHealthcheck (raw : Option Yaml) : Option ComposeHealthcheck :=
  match raw with
  | some (.seq _) => some ⟨[],none,none,none⟩
  | some (.map entries) =>
    let h := Yaml.map entries
    some ⟨parseTest (h.field? "test"),parseDuration (h.field? "interval"),
      parseDuration (h.field? "timeout"),parseDuration (h.field? "start_period")⟩
  | _ => none

/-- What a service must not say, with the message for it. -/
def unsupportedFeatures : List (String × String) :=
  [("build", "\"build\" is not supported. Provide a pre-built image reference."),
    ("env_file", "\"env_file\" is not supported. Inline all variables in \"environment\"."),
    ("extends", "\"extends\" is not supported."),
    ("deploy", "\"deploy\" (Swarm) is not supported."),
    ("networks", "per-service \"networks\" override is not supported. " ++
      "All services are joined to the provided network.")]

def parseService (input : ComposeToContainersInput) (namedVolumes : List String)
    (service : String × Yaml) : Except ComposeError ComposeContainer := do
  let (svcName, svc) := service
  if let .null := svc then
    throw (.error "null is not an object (evaluating 'svc.build')")
  unsupportedFeatures.forM fun feature =>
    ensure (svc.field? feature.1).isNone
      (.unsupported ("Service \"" ++ svcName ++ "\": " ++ feature.2))
  match present (svc.field? "image") with
  | none => throw (.error ("Service \"" ++ svcName ++ "\": \"image\" is required"))
  | some image =>
    let env ← parseEnv (svc.field? "environment") svcName
    let volumes ← parseVolumes (svc.field? "volumes") svcName input.servicePrefix namedVolumes
    parsePorts (svc.field? "ports") svcName
    return {
      name := input.servicePrefix ++ "-" ++ svcName
      image := image.text
      env := env
      labels := parseLabels (svc.field? "labels") ++ input.labels
      networks := [input.network]
      volumes := volumes
      dependsOn := parseDependsOn (svc.field? "depends_on")
      healthcheck := parseHealthcheck (svc.field? "healthcheck") }

def servicesOf (doc : Yaml) : Option (List (String × Yaml)) :=
  (doc.field? "services").bind Yaml.entries?

def namedVolumesOf (doc : Yaml) : List String :=
  (((doc.field? "volumes").bind Yaml.entries?).getD []).map (·.1)

def assertNoUnsupportedTopLevel (doc : Yaml) : Except ComposeError Unit :=
  ["configs", "secrets"].forM fun key => ensure (doc.field? key).isNone
    (.unsupported ("Top-level \"" ++ key ++ "\" is not supported in Ploydok marketplace composes"))

abbrev Parsed := List (String × ComposeContainer)

def dependsOn (parsed : Parsed) (name : String) : List String :=
  ((parsed.find? (·.1 = name)).map (·.2.dependsOn)).getD []

/-- The keys that `in` finds in every object. -/
def objectPrototype : List String :=
  ["constructor", "__proto__", "__defineGetter__", "__defineSetter__", "__lookupGetter__",
    "__lookupSetter__", "hasOwnProperty", "isPrototypeOf", "propertyIsEnumerable",
    "toLocaleString", "toString", "valueOf"]

def topoSort (parsed : Parsed) : Except ComposeError (List String) :=
  Order.topoSort (parsed.map (·.1) ++ objectPrototype) (dependsOn parsed)
    (fun path => .error ("Cycle detected in depends_on: " ++ String.intercalate " → " path))
    (fun name dep => .error ("Service \"" ++ name ++ "\" depends on unknown service \"" ++ dep ++
      "\""))
    (parsed.map (·.1))

/-- The containers in an order of names, without the field-less ones for names of the prototype. -/
def arrange (parsed : Parsed) (order : List String) : List ComposeContainer :=
  order.filterMap fun name => (parsed.find? (·.1 = name)).map (·.2)

def parseDoc (parse : YamlParser) (compose : String) : Except ComposeError Yaml :=
  match parse compose with
  | .error msg => .error (.error ("Invalid YAML: " ++ msg))
  | .ok doc =>
    if doc.entries?.isNone then .error (.error "Invalid YAML: Parsed compose is not an object")
    else .ok doc

def composeToContainers (parse : YamlParser) (input : ComposeToContainersInput) :
    Except ComposeError (List ComposeContainer) := do
  let doc ← parseDoc parse input.compose
  assertNoUnsupportedTopLevel doc
  ensure (doc.field? "include").isNone
    (.unsupported "\"include\" is not supported in Ploydok marketplace composes")
  match servicesOf doc with
  | none => throw (.error "Compose file must have a \"services\" key")
  | some services =>
    let containers ← services.mapM (parseService input (namedVolumesOf doc))
    let parsed := (services.map (·.1)).zip containers
    let order ← topoSort parsed
    return arrange parsed order

/-! ### What comes out -/

theorem secondsOf_nonneg (h : secondsOf unit = some seconds) : 0 ≤ seconds := by
  unfold secondsOf at h
  split_ifs at h
  all_goals cases h
  all_goals norm_num

theorem durationOf_nonneg (h : durationOf s = some d) : 0 ≤ d := by
  unfold durationOf at h
  dsimp only at h
  split at h
  · cases h
  · obtain ⟨seconds,hseconds,rfl⟩ := Option.map_eq_some_iff.mp h
    have hunit : 0 ≤ seconds := secondsOf_nonneg hseconds
    refine Int.floor_nonneg.mpr ?_
    positivity

theorem parseDuration_nonneg (h : parseDuration value = some d) : 0 ≤ d := by
  unfold parseDuration at h
  split at h
  · cases h
  · cases h
  · exact durationOf_nonneg h

section Service

variable {input : ComposeToContainersInput} {namedVolumes : List String} {svcName : String}
  {svc : Yaml} {container : ComposeContainer}

structure BuiltFrom (input : ComposeToContainersInput) (namedVolumes : List String)
    (svcName : String) (svc : Yaml) (container : ComposeContainer) : Prop where
  name : container.name = input.servicePrefix ++ "-" ++ svcName
  labels : container.labels = parseLabels (svc.field? "labels") ++ input.labels
  networks : container.networks = [input.network]
  volumes : parseVolumes (svc.field? "volumes") svcName input.servicePrefix namedVolumes =
    .ok container.volumes
  healthcheck : container.healthcheck = parseHealthcheck (svc.field? "healthcheck")

theorem builtFrom_of_parseService
    (h : parseService input namedVolumes (svcName, svc) = .ok container) :
    BuiltFrom input namedVolumes svcName svc container := by
  unfold parseService at h
  dsimp only at h
  split at h
  · cases h
  · obtain ⟨⟨⟩,-,h⟩ := bind_eq_ok_iff.mp h
    split at h
    · cases h
    · obtain ⟨env,-,h⟩ := bind_eq_ok_iff.mp h
      obtain ⟨volumes,hvolumes,h⟩ := bind_eq_ok_iff.mp h
      obtain ⟨⟨⟩,-,h⟩ := bind_eq_ok_iff.mp h
      cases h
      exact ⟨rfl,rfl,rfl,hvolumes,rfl⟩

theorem forall_mem_parseVolumes_iff {P : String → Prop}
    (h : parseVolumes raw svcName servicePrefix namedVolumes = .ok volumes) :
    (∀ volume ∈ volumes, P volume.hostPath) ↔
      ∀ item ∈ itemsOf raw, ∀ src rest, volumeItem svcName item = .ok (some (src, rest)) →
        ∃ path, resolveHostPath src servicePrefix namedVolumes svcName = .ok path ∧ P path := by
  obtain ⟨mounts,hmounts,hret⟩ := bind_eq_ok_iff.mp h
  cases hret
  replace hmounts := (mapM_eq_ok_iff_forall₂ _ _).mp hmounts
  clear h
  generalize itemsOf raw = items at hmounts ⊢
  induction hmounts with
  | nil => simp
  | @cons item mount items mounts hitem _ ih =>
    rw [forall_mem_cons]
    refine Iff.trans ?_ (and_congr_right' ih)
    obtain ⟨read,hread,hmount⟩ := bind_eq_ok_iff.mp hitem
    cases read with
    | none =>
      cases hmount
      simp [hread]
    | some read =>
      obtain ⟨path,hpath,hret⟩ := bind_eq_ok_iff.mp hmount
      cases hret
      rw [filterMap_cons,id,forall_mem_cons]
      refine and_congr_left fun _ => ⟨fun hP src rest hsrc => ?_,fun h => ?_⟩
      · cases hread.symm.trans hsrc
        exact ⟨path,hpath,hP⟩
      · obtain ⟨path',hpath',hP⟩ := h _ _ hread
        cases hpath.symm.trans hpath'
        exact hP

end Service

theorem nodup_normalize (entries : List (String × α)) :
    ((normalize entries).map (·.1)).Nodup := by
  induction entries with
  | nil => exact nodup_nil
  | cons entry rest ih =>
    obtain ⟨key,value⟩ := entry
    rw [normalize]
    split
    · exact ih
    · next hnew => exact nodup_cons.mpr ⟨hnew,ih⟩

theorem nodup_servicesOf (h : servicesOf doc = some services) : (services.map (·.1)).Nodup := by
  obtain ⟨value,-,hentries⟩ := Option.bind_eq_some_iff.mp h
  unfold Yaml.entries? at hentries
  split at hentries
  · cases hentries
    exact nodup_normalize _
  · cases hentries
    exact nodup_normalize _
  · cases hentries

theorem find?_of_mem {parsed : Parsed} (hnodup : (parsed.map (·.1)).Nodup) (h : service ∈ parsed) :
    parsed.find? (·.1 = service.1) = some service := by
  obtain ⟨found,hfind⟩ : ∃ found, parsed.find? (·.1 = service.1) = some found :=
    Option.isSome_iff_exists.mp (find?_isSome.mpr ⟨service,h,decide_eq_true rfl⟩)
  have hkey : found.1 = service.1 := by simpa using find?_some hfind
  rw [hfind,inj_on_of_nodup_map hnodup (mem_of_find?_eq_some hfind) h hkey]

theorem mem_arrange_iff {parsed : Parsed} (hnodup : (parsed.map (·.1)).Nodup)
    (horder : ∀ n ∈ parsed.map (·.1), n ∈ order) (container : ComposeContainer) :
    container ∈ arrange parsed order ↔ ∃ name, (name, container) ∈ parsed := by
  simp only [arrange,mem_filterMap,Option.map_eq_some_iff]
  constructor
  · rintro ⟨name,-,entry,hfind,rfl⟩
    exact ⟨entry.1,mem_of_find?_eq_some hfind⟩
  · rintro ⟨name,hmem⟩
    exact ⟨name,horder name (mem_map_of_mem hmem),_,find?_of_mem hnodup hmem,rfl⟩

theorem parse_of_parseDoc (h : parseDoc parse compose = .ok doc) : parse compose = .ok doc := by
  revert h
  fun_cases parseDoc parse compose <;> rintro ⟨⟩
  next hparsed _ => exact hparsed

theorem mem_zip_keys_iff {α β : Type} {R : String × α → β → Prop} {entries : List (String × α)}
    {bs : List β} (h : List.Forall₂ R entries bs) (hfun : ∀ e b b', R e b → R e b' → b = b')
    (b : β) : (∃ name, (name, b) ∈ (entries.map (·.1)).zip bs) ↔ ∃ e ∈ entries, R e b := by
  induction h with
  | nil => simp
  | @cons e b1 entries bs he _ ih =>
    simp only [map_cons,zip_cons_cons,mem_cons,Prod.mk.injEq,exists_or, exists_eq_or_imp,ih]
    refine or_congr_left ⟨?_,fun hb => ⟨e.1,rfl,hfun e b b1 hb he⟩⟩
    rintro ⟨name,-,rfl⟩
    exact he

def Reads (parse : YamlParser) (input : ComposeToContainersInput)
    (parsed : Parsed) : Prop :=
  ∃ doc services containers, parseDoc parse input.compose = .ok doc ∧
    assertNoUnsupportedTopLevel doc = .ok () ∧ (doc.field? "include").isNone = true ∧
    servicesOf doc = some services ∧
    services.mapM (parseService input (namedVolumesOf doc)) = .ok containers ∧
    parsed = (services.map (·.1)).zip containers

section Reads

variable {parse : YamlParser} {input : ComposeToContainersInput}
  {containers : List ComposeContainer} {parsed : Parsed}

theorem reads_of_ok (h : composeToContainers parse input = .ok containers) :
    ∃ parsed, Reads parse input parsed := by
  unfold composeToContainers at h
  obtain ⟨doc,hdoc,h⟩ := bind_eq_ok_iff.mp h
  obtain ⟨⟨⟩,htop,h⟩ := bind_eq_ok_iff.mp h
  obtain ⟨⟨⟩,hinclude,h⟩ := bind_eq_ok_iff.mp h
  split at h
  · cases h
  · next services hservices =>
    obtain ⟨specs,hspecs,-⟩ := bind_eq_ok_iff.mp h
    exact ⟨_,doc,services,specs,hdoc,htop,ensure_eq_ok_iff.mp hinclude,hservices,hspecs,rfl⟩

theorem Reads.composeToContainers (h : Reads parse input parsed) :
    composeToContainers parse input = (topoSort parsed).map (arrange parsed) := by
  obtain ⟨doc,services,specs,hdoc,htop,hinclude,hservices,hspecs,rfl⟩ := h
  simp only [Marketplace.composeToContainers,hdoc,htop,ensure,hinclude,↓reduceIte,hservices,
    hspecs,bind,Except.bind]
  cases topoSort ((services.map (·.1)).zip specs) with
  | ok | error => rfl

theorem Reads.nodup (h : Reads parse input parsed) : (parsed.map (·.1)).Nodup := by
  obtain ⟨doc,services,specs,-,-,-,hservices,hspecs,rfl⟩ := h
  have hlength := ((mapM_eq_ok_iff_forall₂ _ _).mp hspecs).length_eq
  rw [map_fst_zip (by simp [hlength])]
  exact nodup_servicesOf hservices

theorem Reads.exists_order (h : Reads parse input parsed)
    (hok : Marketplace.composeToContainers parse input = .ok containers) :
    ∃ order, topoSort parsed = .ok order ∧ containers = arrange parsed order := by
  rw [h.composeToContainers] at hok
  cases horder : topoSort parsed with
  | error e =>
    rw [horder] at hok
    cases hok
  | ok order =>
    rw [horder] at hok
    exact ⟨order,rfl,(Except.ok.inj hok).symm⟩

theorem topoSort_ok (h : topoSort parsed = .ok order) :
    Order.Listed (dependsOn parsed) order ∧ (∀ n ∈ order, Order.Met
      (parsed.map (·.1) ++ objectPrototype) (dependsOn parsed) (parsed.map (·.1)) n) ∧
      ∀ n ∈ parsed.map (·.1), n ∈ order := by
  have hends : Ends (topoSort parsed) _ _ := Order.topoSort_ends (subset_append_left _ _)
  rwa [h] at hends

theorem mem_composeToContainers_iff (h : composeToContainers parse input = .ok containers) :
    ∃ doc services, parse input.compose = .ok doc ∧ servicesOf doc = some services ∧
      (∀ container, container ∈ containers ↔
        ∃ service ∈ services, parseService input (namedVolumesOf doc) service = .ok container) ∧
      ∀ service ∈ services,
        ∃ container, parseService input (namedVolumesOf doc) service = .ok container := by
  obtain ⟨parsed,hreads⟩ := reads_of_ok h
  have hnodup := hreads.nodup
  obtain ⟨order,horder,rfl⟩ := hreads.exists_order h
  have hall := (topoSort_ok horder).2.2
  obtain ⟨doc,services,specs,hdoc,-,-,hservices,hspecs,rfl⟩ := hreads
  replace hspecs := (mapM_eq_ok_iff_forall₂ _ _).mp hspecs
  refine ⟨doc,services,parse_of_parseDoc hdoc,hservices,fun container => ?_,
    fun service hservice => ?_⟩
  · rw [mem_arrange_iff hnodup hall]
    exact mem_zip_keys_iff hspecs (fun _ _ _ h h' => Except.ok.inj (h.symm.trans h')) container
  · obtain ⟨container,-,hparsed⟩ := exists_of_forall₂ hspecs hservice
    exact ⟨container,hparsed⟩

end Reads

end Ploydok.Marketplace
