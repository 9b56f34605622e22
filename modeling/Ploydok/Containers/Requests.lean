import Ploydok.Agent.ContainerPolicy
import Ploydok.Deploy.Handler
import Ploydok.Text.Number

/-! The requests for containers beside those of an app: for a scheduled job
(`executeContainerCommand`), a deploy hook (`runHook` of `worker/hooks.ts`) and a preview of a pull
request (`worker/handlers/preview-deploy.ts`). -/

namespace Ploydok.Containers

open Text Agent List
open Ploydok.Runtime (toLowerCase isAlnum isNameChar nameToken runtimeContainerShortId
  healthcheckShell)

def lower (s : String) : String := String.ofList (toLowerCase s.toList)

def projectNetworkName (projectId : String) : String := "ploydok-proj-" ++ lower projectId

/-- The columns of `projects`. The name of the network is written by `ensureProjectNetwork`. -/
structure ProjectRow where
  id : String
  networkName : Option String
  written : networkName = none ∨ networkName = some (projectNetworkName id)

def ensureProjectNetwork (project : ProjectRow) : String :=
  (truthy project.networkName).getD (projectNetworkName project.id)

structure RunnableJob where
  (id orgId : String)
  (appId image : Option String)
  command : Option (List String)

def scheduledJobContainerName (jobId nanoid : String) : String :=
  let safeJobId := (trimEnds (· == '-') (collapse (fun c => !isNameChar c) '-'
    (toLowerCase jobId.toList))).take 24
  "ploydok-scheduled-job-" ++ (if safeJobId = [] then "job" else String.ofList safeJobId) ++ "-" ++
    lower nanoid

def smallLimits : ResourceLimits := ⟨1 / 2,256 * 1024 * 1024,100⟩

def jobImage (job : RunnableJob) (imageRef : Option String) : Option String :=
  match truthy job.image with
  | some image => some image
  | none => if (truthy job.appId).isSome then truthy imageRef else none

/-- The request of `executeContainerCommand`; `imageRef` is that of the app of the job. -/
def scheduledJobRequest (job : RunnableJob) (imageRef : Option String) (project : ProjectRow)
    (nanoid : String) : Except String ContainerCreateRequest :=
  if (job.command.getD []).isEmpty then .error "scheduled job command is required"
  else
    match jobImage job imageRef with
    | none => .error "container_run kind requires image or app_id with image_ref"
    | some image => .ok
      { name := scheduledJobContainerName job.id nanoid
        image := image
        labels := [("ploydok.kind", "scheduled-job"), ("ploydok.org_id", job.orgId),
          ("ploydok.scheduled_job_id", job.id)]
        network := project.networkName.getD ""
        networks := (truthy project.networkName).toList
        volumes := []
        resourceLimits := some smallLimits
        user := ""
        healthcheck := none }

inductive HookPhase where
  | pre | post

def HookPhase.text : HookPhase → String
  | pre => "pre"
  | post => "post"

def hookRequest (appId imageRef : String) (phase : HookPhase) (project : ProjectRow)
    (nanoid : String) : ContainerCreateRequest where
  name := "ploydok-hook-" ++ lower appId ++ "-" ++ phase.text ++ "-" ++ nanoid
  image := imageRef
  labels := [("ploydok.kind", "hook"), ("ploydok.app_id", appId),
    ("ploydok.hook_phase", phase.text)]
  network := ensureProjectNetwork project
  networks := [ensureProjectNetwork project]
  volumes := []
  resourceLimits := some smallLimits
  user := ""
  healthcheck := none

/-! ### Previews -/

structure AppForPreview where
  (id ownerId : String)
  healthcheckPath : Option String
  healthcheckPort : Option Nat
  (healthcheckIntervalS healthcheckTimeoutS healthcheckStartPeriodS : Option Int)
  plan : Option String
  cpuLimit : Option ℚ
  (memLimitBytes pidsLimit : Option Int)

structure PlanLimits where
  cpu : ℚ
  (memMB pids : Int)

/-- `PLANS`; the custom plan sets no limits. -/
def plans : List (String × Option PlanLimits) :=
  [("nano", some ⟨1 / 4,256,128⟩), ("small", some ⟨1 / 2,512,256⟩),
    ("medium", some ⟨1,1024,512⟩), ("large", some ⟨2,2048,1024⟩), ("custom", none)]

namespace AppForPreview

variable (app : AppForPreview)

def planLimits : Option PlanLimits :=
  ((plans.find? (·.1 = app.plan.getD "custom")).map (·.2)).join

def cpu : ℚ := app.cpuLimit.getD ((app.planLimits.map (·.cpu)).getD 0)

def memoryBytes : Int :=
  let memMB := (app.planLimits.map (·.memMB)).getD 0
  app.memLimitBytes.getD (if 0 < memMB then memMB * 1024 * 1024 else 0)

def pids : Int := app.pidsLimit.getD ((app.planLimits.map (·.pids)).getD 0)

def resolveResourceLimits : Option ResourceLimits :=
  if app.cpu = 0 ∧ app.memoryBytes = 0 ∧ app.pids = 0 then none
  else some ⟨app.cpu,app.memoryBytes,app.pids⟩

def healthcheckConfig (runtimePort : Nat) : HealthcheckConfig :=
  { test := ["CMD-SHELL", healthcheckShell (app.healthcheckPort.getD runtimePort)
      (app.healthcheckPath.getD "/")]
    intervalSeconds := app.healthcheckIntervalS.getD 5
    timeoutSeconds := app.healthcheckTimeoutS.getD 3
    startPeriodSeconds := app.healthcheckStartPeriodS.getD 30 }

end AppForPreview

def sanitizeToken (value : String) (maxLen : Nat) : String := nameToken maxLen "app" value

def previewResourceId (appId : String) (prNumber : Nat) : String :=
  "preview-" ++ sanitizeToken appId 16 ++ "-" ++ runtimeContainerShortId appId ++ "-pr-" ++
    toString prNumber

def previewContainerName (appId : String) (prNumber : Nat) (headSha : String) : String :=
  String.ofList (("ploydok-" ++ previewResourceId appId prNumber ++ "-" ++
    sanitizeToken headSha 12).toList.take 63)

def previewRequest (app : AppForPreview) (project : ProjectRow) (previewId : String)
    (prNumber : Nat) (headSha imageRef : String) (runtimePort : Nat) : ContainerCreateRequest where
  name := previewContainerName app.id prNumber headSha
  image := imageRef
  labels := [("ploydok.kind", "preview"), ("ploydok.app_id", app.id),
    ("ploydok.owner_id", app.ownerId), ("ploydok.preview_id", previewId),
    ("ploydok.pr_number", toString prNumber)]
  network := ""
  networks := [ensureProjectNetwork project]
  volumes := []
  resourceLimits := app.resolveResourceLimits
  user := ""
  healthcheck := some (app.healthcheckConfig runtimePort)

/-! ### Which of them are accepted -/

/-- All characters are in `[a-z0-9-]`. -/
def NameText (s : String) : Prop := ∀ c ∈ s.toList, isNameChar c = true

instance (s : String) : Decidable (NameText s) :=
  decidableBAll (fun c => isNameChar c = true) s.toList

theorem NameText.append (hs : NameText s) (ht : NameText t) : NameText (s ++ t) := by
  intro c hc
  rw [String.toList_append,mem_append] at hc
  exact hc.elim (hs c) (ht c)

theorem isNameChar_dash : isNameChar '-' = true := by decide

/-- Once the characters outside `[a-z0-9-]` are replaced, all are name characters. -/
theorem isNameChar_of_mem_collapse {c : Char} (h : c ∈ collapse (fun c => !isNameChar c) '-' cs) :
    isNameChar c = true := by
  rcases mem_collapse h with rfl | ⟨-,h⟩
  · exact isNameChar_dash
  · simpa using h

theorem nameText_toString (n : Nat) : NameText (toString n) := by
  intro c hc
  have hdigit := isDigit_of_mem_toString hc
  unfold Char.isDigit at hdigit
  simp only [isNameChar,isAlnum,Bool.or_eq_true,Bool.and_eq_true,decide_eq_true_eq] at *
  exact .inl (.inr hdigit)

theorem isNameChar_of_mem_token {cs : List Char} (h : c ∈ (trimEnds p (collapse (· == '-') '-'
      (collapse (fun c => !isNameChar c) '-' cs))).take n) : isNameChar c = true := by
  rcases mem_collapse (mem_of_mem_trimEnds (mem_of_mem_take h)) with rfl | ⟨hc,-⟩
  · exact isNameChar_dash
  · exact isNameChar_of_mem_collapse hc

theorem nameText_app : NameText "app" := by decide

theorem nameText_nameToken (hfallback : NameText fallback) (maxLen : Nat) (value : String) :
    NameText (nameToken maxLen fallback value) := by
  unfold nameToken
  dsimp only
  split
  · exact hfallback
  · intro c hc
    rw [String.toList_ofList] at hc
    exact isNameChar_of_mem_token hc

theorem nameText_shortId (appId : String) : NameText (runtimeContainerShortId appId) := by
  intro c hc
  unfold runtimeContainerShortId at hc
  rw [String.toList_ofList] at hc
  exact isNameChar_of_mem_collapse ((dropWhile_sublist _).mem (mem_of_mem_take hc))

theorem nameMatches_append_iff {rest : List Char} (hfirst : isAlnum first = true) :
    nameMatches (String.ofList ("ploydok-".toList ++ first :: rest)) = true ↔
      (∀ c ∈ rest, isNameChar c = true) ∧ rest.length ≤ 62 := by
  have hstart : startsWith ("ploydok-".toList ++ first :: rest) "ploydok-".toList = true :=
    startsWith_iff.mpr (prefix_append _ _)
  have hdrop : ("ploydok-".toList ++ first :: rest).drop 8 = first :: rest := rfl
  simp only [nameMatches,String.toList_ofList,hstart,hdrop,hfirst,Bool.true_and,
    Bool.and_eq_true,all_eq_true,decide_eq_true_eq]

theorem nameMatches_preview (appId : String) (prNumber : Nat) (headSha : String) :
    nameMatches (previewContainerName appId prNumber headSha) = true := by
  have hlist : ("ploydok-" ++ previewResourceId appId prNumber ++ "-" ++
      sanitizeToken headSha 12).toList = "ploydok-".toList ++ 'p' ::
        ("review-" ++ sanitizeToken appId 16 ++ "-" ++ runtimeContainerShortId appId ++
          "-pr-" ++ toString prNumber ++ "-" ++ sanitizeToken headSha 12).toList := by
    simp only [previewResourceId,String.toList_append,append_assoc]
    rfl
  unfold previewContainerName
  rw [hlist]
  have htext : NameText ("review-" ++ sanitizeToken appId 16 ++ "-" ++
      runtimeContainerShortId appId ++ "-pr-" ++ toString prNumber ++ "-" ++
      sanitizeToken headSha 12) := by
    refine .append (.append (.append (.append (.append (.append (.append ?_ ?_) ?_) ?_) ?_) ?_)
      ?_) ?_
    · decide
    · exact nameText_nameToken nameText_app _ _
    · decide
    · exact nameText_shortId appId
    · decide
    · exact nameText_toString prNumber
    · decide
    · exact nameText_nameToken nameText_app _ _
  refine (nameMatches_append_iff (by decide)).mpr ⟨fun c hc => htext c (mem_of_mem_take hc),?_⟩
  have hlength : (take 54 ("review-" ++ sanitizeToken appId 16 ++ "-" ++
      runtimeContainerShortId appId ++ "-pr-" ++ toString prNumber ++ "-" ++
      sanitizeToken headSha 12).toList).length ≤ 54 := length_take_le _ _
  exact hlength.trans (by decide)

theorem startsWith_ensureProjectNetwork (project : ProjectRow) :
    startsWith (ensureProjectNetwork project).toList "ploydok-".toList = true := by
  have hname : ensureProjectNetwork project = projectNetworkName project.id := by
    unfold ensureProjectNetwork
    rcases project.written with h | h
    · rw [h]
      rfl
    · rw [h,truthy]
      split <;> rfl
  rw [hname,startsWith_iff]
  refine ⟨("proj-" ++ lower project.id).toList,?_⟩
  rw [projectNetworkName,String.toList_append,String.toList_append]
  rfl

variable {cfg : ValidatorConfig} {project : ProjectRow}

theorem scheduledJob_not_accepted {imageRef : Option String}
    (h : scheduledJobRequest job imageRef project nanoid = .ok req) : ¬ Accepted cfg req := by
  intro haccepted
  obtain ⟨value,hvalue,-⟩ := haccepted.labels "ploydok.app_id" (by decide)
  revert h
  fun_cases scheduledJobRequest job imageRef project nanoid <;> rintro ⟨⟩
  cases hvalue

theorem hook_not_accepted (cfg : ValidatorConfig) (appId imageRef : String) (phase : HookPhase)
    (project : ProjectRow) (nanoid : String) :
    ¬ Accepted cfg (hookRequest appId imageRef phase project nanoid) := by
  intro haccepted
  obtain ⟨value,hvalue,-⟩ := haccepted.labels "ploydok.owner_id" (by decide)
  cases hvalue

structure PreviewAllowed (cfg : ValidatorConfig) (app : AppForPreview) : Prop where
  id : app.id ≠ ""
  owner : app.ownerId ≠ ""
  interval : ∀ s, app.healthcheckIntervalS = some s → 0 ≤ s
  timeout : ∀ s, app.healthcheckTimeoutS = some s → 0 ≤ s
  startPeriod : ∀ s, app.healthcheckStartPeriodS = some s → 0 ≤ s
  cpu : app.cpu ≤ cfg.maxCpu ∨ app.cpu ≤ 0
  memory : app.memoryBytes ≤ cfg.maxMemoryBytes ∨ app.memoryBytes ≤ 0

theorem getD_nonneg_iff {d : Int} (hd : 0 ≤ d) : 0 ≤ o.getD d ↔ ∀ s, o = some s → 0 ≤ s := by
  cases o <;> simp [hd]

theorem limits_within_iff {app : AppForPreview} :
    (∀ limits, app.resolveResourceLimits = some limits → limits.Within cfg) ↔
      (app.cpu ≤ cfg.maxCpu ∨ app.cpu ≤ 0) ∧
        (app.memoryBytes ≤ cfg.maxMemoryBytes ∨ app.memoryBytes ≤ 0) := by
  unfold AppForPreview.resolveResourceLimits
  by_cases hzero : app.cpu = 0 ∧ app.memoryBytes = 0 ∧ app.pids = 0
  · rw [if_pos hzero,hzero.1,hzero.2.1]
    simp
  · rw [if_neg hzero]
    simp [ResourceLimits.Within]

theorem preview_accepted_iff {app : AppForPreview} {previewId : String}
    (himage : extractRegistry imageRef ∈ cfg.allowedRegistries) :
    Accepted cfg (previewRequest app project previewId prNumber headSha imageRef runtimePort) ↔
      PreviewAllowed cfg app := by
  have happ : lookup (previewRequest app project previewId prNumber headSha imageRef
      runtimePort).labels "ploydok.app_id" = some app.id := rfl
  have howner : lookup (previewRequest app project previewId prNumber headSha imageRef
      runtimePort).labels "ploydok.owner_id" = some app.ownerId := rfl
  constructor
  · intro h
    obtain ⟨-,hinterval,htimeout,hstart⟩ := h.healthcheck _ rfl
    obtain ⟨hcpu,hmemory⟩ := limits_within_iff.mp h.limits
    refine ⟨?_,?_,(getD_nonneg_iff (by decide)).mp hinterval,
      (getD_nonneg_iff (by decide)).mp htimeout,(getD_nonneg_iff (by decide)).mp hstart,hcpu,
      hmemory⟩
    · obtain ⟨value,hvalue,hne⟩ := h.labels "ploydok.app_id" (by decide)
      rw [happ] at hvalue
      exact Option.some.inj hvalue ▸ hne
    · obtain ⟨value,hvalue,hne⟩ := h.labels "ploydok.owner_id" (by decide)
      rw [howner] at hvalue
      exact Option.some.inj hvalue ▸ hne
  · intro h
    refine ⟨nameMatches_preview _ _ _,himage,?_,?_,?_,?_,?_,limits_within_iff.mpr ⟨h.cpu,h.memory⟩⟩
    · intro volume hvolume
      cases hvolume
    · intro key hkey
      rcases mem_cons.mp hkey with rfl | hkey
      · exact ⟨_,happ,h.id⟩
      · rw [mem_singleton.mp hkey]
        exact ⟨_,howner,h.owner⟩
    · rintro _ ⟨⟩
      exact ⟨⟨"CMD-SHELL",by decide,rfl⟩,(getD_nonneg_iff (by decide)).mpr h.interval,
        (getD_nonneg_iff (by decide)).mpr h.timeout,
        (getD_nonneg_iff (by decide)).mpr h.startPeriod⟩
    · intro network hnetwork
      obtain ⟨hmem,hne⟩ := mem_filter.mp hnetwork
      rcases mem_cons.mp hmem with rfl | hmem
      · exact absurd rfl (of_decide_eq_true hne)
      · rw [mem_singleton.mp hmem]
        exact startsWith_ensureProjectNetwork project
    · exact no_user

end Ploydok.Containers
