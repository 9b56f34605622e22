import Ploydok.Data.Checks
import Ploydok.Runtime.Names
import Mathlib.Algebra.Order.Ring.Rat

/-! The agent's policy for new containers: `validate_container_create` of the `StrictValidator`
in `agent/ploydok-agent/src/validator.rs`. The checks run in a fixed order and the first one
that fails decides the answer. -/

namespace Ploydok.Agent

open Data Text
open Ploydok.Runtime (isAlnum isNameChar)

structure VolumeMount where
  (hostPath containerPath : String)
  readOnly : Bool
deriving DecidableEq

structure ResourceLimits where
  cpu : ℚ
  (memoryBytes pidsLimit : Int)
deriving DecidableEq

structure HealthcheckConfig where
  test : List String
  (intervalSeconds timeoutSeconds startPeriodSeconds : Int)
deriving DecidableEq

/-- The fields the policy looks at. Of several labels with one key the last one counts. -/
structure ContainerCreateRequest where
  (name image : String)
  labels : List (String × String)
  network : String
  networks : List String
  volumes : List VolumeMount
  resourceLimits : Option ResourceLimits
  user : String
  healthcheck : Option HealthcheckConfig
deriving DecidableEq

/-- The value of a key in an object that is built entry by entry. -/
def lookup (entries : List (String × String)) (key : String) : Option String :=
  (entries.reverse.find? (·.1 = key)).map (·.2)

structure ValidatorConfig where
  allowedRegistries : List String := ["docker.io", "ghcr.io", "registry.ploydok.io"]
  volumePrefix : String := "/var/lib/ploydok/volumes"
  appVolumePrefix : String := "/var/lib/ploydok/app-volumes"
  maxCpu : ℚ := 4
  maxMemoryBytes : Int := 8 * 1024 * 1024 * 1024

inductive Code where
  | invalidArgument | permissionDenied
deriving DecidableEq

inductive Value where
  | text (s : String)
  | texts (l : List String)
  | number (q : ℚ)
deriving DecidableEq

/-- `deny(code, rule, detail)`. -/
structure Denial where
  code : Code
  rule : String
  detail : List (String × Value)
deriving DecidableEq

/-! ### The checks -/

def extractRegistry (image : String) : String :=
  let withoutTag := image.toList.takeWhile (· ≠ '@')
  let candidate := withoutTag.takeWhile (· ≠ '/')
  if '/' ∈ withoutTag ∧
      ('.' ∈ candidate ∨ ':' ∈ candidate ∨ candidate = "localhost".toList) then
    String.ofList candidate
  else "docker.io"

def traversal (hostPath : String) : Bool :=
  hostPath.toList.contains (Char.ofNat 0) || includes hostPath.toList "..".toList

def under (hostPath root : String) : Bool :=
  let normalized := root.toList.rdropWhile (· == '/')
  startsWith hostPath.toList (normalized ++ ['/']) || hostPath.toList == normalized

def validateHostPath (hostPath : String) (allowedPrefixes : List String) : Except String Unit :=
  if traversal hostPath then
    .error ("path traversal détecté dans host_path: " ++ hostPath)
  else if allowedPrefixes.any (under hostPath) then .ok ()
  else .error ("host_path '" ++ hostPath ++ "' hors des préfixes autorisés: " ++
    String.intercalate ", " allowedPrefixes)

def namePattern : String := "^ploydok-[a-z0-9][a-z0-9-]\x7b0,62\x7d$"

/-- The name matches `namePattern`. -/
def nameMatches (name : String) : Bool :=
  startsWith name.toList "ploydok-".toList &&
    match name.toList.drop 8 with
    | [] => false
    | c :: rest => isAlnum c && rest.all isNameChar && rest.length ≤ 62

def requiredLabels : List String := ["ploydok.app_id", "ploydok.owner_id"]

def healthcheckModes : List String := ["CMD", "CMD-SHELL", "NONE"]

section Checks

variable (cfg : ValidatorConfig) (req : ContainerCreateRequest)

def checkName : Except Denial Unit :=
  ensure (nameMatches req.name) ⟨.invalidArgument,"container_name_prefix",
    [("name", .text req.name), ("expected", .text namePattern)]⟩

def checkImage : Except Denial Unit :=
  ensure (cfg.allowedRegistries.contains (extractRegistry req.image))
    ⟨.permissionDenied,"image_registry_allowlist",
      [("image", .text req.image), ("registry", .text (extractRegistry req.image)),
        ("allowed", .texts cfg.allowedRegistries)]⟩

def checkVolume (volume : VolumeMount) : Except Denial Unit :=
  match validateHostPath volume.hostPath [cfg.volumePrefix, cfg.appVolumePrefix] with
  | .ok _ => .ok ()
  | .error reason => .error ⟨.permissionDenied,"volume_host_path",
      [("host_path", .text volume.hostPath), ("reason", .text reason)]⟩

def checkLabel (key : String) : Except Denial Unit :=
  ensure ((lookup req.labels key).any (· ≠ ""))
    ⟨.invalidArgument,"required_labels",[("missing_label", .text key)]⟩

def checkDuration (field : String × Int) : Except Denial Unit :=
  ensure (0 ≤ field.2) ⟨.invalidArgument,"healthcheck_negative_duration",
    [("field", .text field.1), ("value", .number field.2)]⟩

def checkHealthcheck : Except Denial Unit :=
  match req.healthcheck with
  | none => .ok ()
  | some healthcheck =>
    match healthcheck.test with
    | [] => .error ⟨.invalidArgument,"healthcheck_test_empty",
        [("healthcheck", .text "test array must not be empty when provided")]⟩
    | mode :: _ => do
      ensure (healthcheckModes.contains mode) ⟨.invalidArgument,"healthcheck_mode_invalid",
        [("mode", .text mode), ("allowed", .texts healthcheckModes)]⟩
      [("interval_seconds", healthcheck.intervalSeconds),
        ("timeout_seconds", healthcheck.timeoutSeconds),
        ("start_period_seconds", healthcheck.startPeriodSeconds)].forM checkDuration

def checkNetwork (network : String) : Except Denial Unit := do
  ensure (network ≠ "host") ⟨.permissionDenied,"network_host_forbidden",
    [("network", .text network)]⟩
  ensure (startsWith network.toList "ploydok-".toList) ⟨.permissionDenied,"network_prefix",
    [("network", .text network), ("expected_prefix", .text "ploydok-")]⟩

def netCandidates : List String := (req.network :: req.networks).filter (· ≠ "")

def checkUser : Except Denial Unit :=
  ensure (!(req.user = "root" || req.user = "0" || startsWith req.user.toList "0:".toList))
    ⟨.permissionDenied,"user_root_forbidden",[("user", .text req.user)]⟩

def checkLimits : Except Denial Unit :=
  match req.resourceLimits with
  | none => .ok ()
  | some limits => do
    ensure (!(cfg.maxCpu < limits.cpu && 0 < limits.cpu)) ⟨.invalidArgument,"resource_cpu_limit",
      [("cpu", .number limits.cpu), ("max_cpu", .number cfg.maxCpu)]⟩
    ensure (!(cfg.maxMemoryBytes < limits.memoryBytes && 0 < limits.memoryBytes))
      ⟨.invalidArgument,"resource_memory_limit",[("memory_bytes", .number limits.memoryBytes),
        ("max_memory_bytes", .number cfg.maxMemoryBytes)]⟩

def validateContainerCreate : Except Denial Unit := do
  checkName req
  checkImage cfg req
  req.volumes.forM (checkVolume cfg)
  requiredLabels.forM (checkLabel req)
  checkHealthcheck req
  (netCandidates req).forM checkNetwork
  checkUser req
  checkLimits cfg req

/-! ### What the policy accepts -/

structure HealthcheckConfig.Valid (healthcheck : HealthcheckConfig) : Prop where
  mode : ∃ mode ∈ healthcheckModes, healthcheck.test.head? = some mode
  interval : 0 ≤ healthcheck.intervalSeconds
  timeout : 0 ≤ healthcheck.timeoutSeconds
  startPeriod : 0 ≤ healthcheck.startPeriodSeconds

def ResourceLimits.Within (cfg : ValidatorConfig) (limits : ResourceLimits) : Prop :=
  (limits.cpu ≤ cfg.maxCpu ∨ limits.cpu ≤ 0) ∧
    (limits.memoryBytes ≤ cfg.maxMemoryBytes ∨ limits.memoryBytes ≤ 0)

def AllowedPath (cfg : ValidatorConfig) (hostPath : String) : Prop :=
  traversal hostPath = false ∧
    (under hostPath cfg.volumePrefix = true ∨ under hostPath cfg.appVolumePrefix = true)

structure Accepted (cfg : ValidatorConfig) (req : ContainerCreateRequest) : Prop where
  name : nameMatches req.name = true
  image : extractRegistry req.image ∈ cfg.allowedRegistries
  volumes : ∀ volume ∈ req.volumes, AllowedPath cfg volume.hostPath
  labels : ∀ key ∈ requiredLabels, ∃ value, lookup req.labels key = some value ∧ value ≠ ""
  healthcheck : ∀ healthcheck, req.healthcheck = some healthcheck → healthcheck.Valid
  networks : ∀ network ∈ netCandidates req, startsWith network.toList "ploydok-".toList = true
  user : req.user ≠ "root" ∧ req.user ≠ "0" ∧ startsWith req.user.toList "0:".toList = false
  limits : ∀ limits, req.resourceLimits = some limits → limits.Within cfg

theorem no_user : "" ≠ "root" ∧ "" ≠ "0" ∧ startsWith "".toList "0:".toList = false := by decide

variable {cfg : ValidatorConfig} {req : ContainerCreateRequest}

theorem checkVolume_eq_ok_iff :
    checkVolume cfg volume = .ok () ↔ AllowedPath cfg volume.hostPath := by
  have hany : [cfg.volumePrefix, cfg.appVolumePrefix].any (under volume.hostPath) = true ↔
      under volume.hostPath cfg.volumePrefix = true ∨
        under volume.hostPath cfg.appVolumePrefix = true := by simp
  unfold checkVolume validateHostPath AllowedPath
  rw [← hany]
  cases traversal volume.hostPath with
  | true => simp
  | false =>
    cases [cfg.volumePrefix, cfg.appVolumePrefix].any (under volume.hostPath) with
    | true | false => simp

theorem checkLabel_eq_ok_iff :
    checkLabel req key = .ok () ↔ ∃ value, lookup req.labels key = some value ∧ value ≠ "" := by
  rw [checkLabel,ensure_eq_ok_iff]
  cases lookup req.labels key with
  | none | some => simp

theorem checkDuration_eq_ok_iff : checkDuration field = .ok () ↔ 0 ≤ field.2 := by
  rw [checkDuration,ensure_eq_ok_iff,decide_eq_true_iff]

theorem checkHealthcheck_eq_ok_iff : checkHealthcheck req = .ok () ↔
    ∀ healthcheck, req.healthcheck = some healthcheck → healthcheck.Valid := by
  unfold checkHealthcheck
  cases req.healthcheck with
  | none => simp
  | some healthcheck =>
    simp only [Option.some.injEq,forall_eq']
    cases htest : healthcheck.test with
    | nil =>
      refine ⟨fun h => (by cases h),fun h => ?_⟩
      obtain ⟨mode,-,hmode⟩ := h.mode
      simp [htest] at hmode
    | cons mode rest =>
      simp only [seq_eq_ok_iff,forM_eq_ok_iff,ensure_eq_ok_iff,List.contains_iff_mem,
        List.forall_mem_cons,checkDuration_eq_ok_iff]
      constructor
      · rintro ⟨hmode,hinterval,htimeout,hstart,-⟩
        exact ⟨⟨mode,hmode,by rw [htest]; rfl⟩,hinterval,htimeout,hstart⟩
      · rintro ⟨⟨mode',hmode,hhead⟩,hinterval,htimeout,hstart⟩
        obtain rfl : mode = mode' := by simpa [htest] using hhead
        exact ⟨hmode,hinterval,htimeout,hstart,by simp⟩

/-- A name that starts with `ploydok-` is not `host`. -/
theorem checkNetwork_eq_ok_iff :
    checkNetwork network = .ok () ↔ startsWith network.toList "ploydok-".toList = true := by
  rw [checkNetwork,seq_eq_ok_iff,ensure_eq_ok_iff,ensure_eq_ok_iff]
  refine ⟨And.right,fun hstarts => ⟨?_,hstarts⟩⟩
  simp only [decide_not,Bool.not_eq_true',decide_eq_false_iff_not]
  rintro rfl
  revert hstarts
  decide

theorem checkLimits_eq_ok_iff : checkLimits cfg req = .ok () ↔
    ∀ limits, req.resourceLimits = some limits → limits.Within cfg := by
  unfold checkLimits
  cases req.resourceLimits with
  | none => simp
  | some limits =>
    simp [seq_eq_ok_iff,ensure_eq_ok_iff,ResourceLimits.Within]

theorem validateContainerCreate_eq_ok_iff :
    validateContainerCreate cfg req = .ok () ↔ Accepted cfg req := by
  unfold validateContainerCreate
  simp only [seq_eq_ok_iff,forM_eq_ok_iff,checkVolume_eq_ok_iff,checkLabel_eq_ok_iff,
    checkHealthcheck_eq_ok_iff,checkNetwork_eq_ok_iff,checkLimits_eq_ok_iff,checkName,
    checkImage,checkUser,ensure_eq_ok_iff,List.contains_iff_mem,Bool.not_eq_true',
    Bool.or_eq_false_iff,decide_eq_false_iff_not,and_assoc]
  constructor
  · rintro ⟨h1,h2,h3,h4,h5,h6,h7,h8,h9,h10⟩
    exact ⟨h1,h2,h3,h4,h5,h6,⟨h7,h8,h9⟩,h10⟩
  · rintro ⟨h1,h2,h3,h4,h5,h6,⟨h7,h8,h9⟩,h10⟩
    exact ⟨h1,h2,h3,h4,h5,h6,h7,h8,h9,h10⟩

end Checks

end Ploydok.Agent
