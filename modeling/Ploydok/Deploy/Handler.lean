import Ploydok.Columns
import Mathlib.Data.List.Basic

/-! The handler of `deploy.requested` jobs: the payload is checked against its schema, the build row
is claimed, and the app's row decides whether the deploy goes ahead. -/

namespace Ploydok.Deploy

structure ImageUpdate where
  (fromDigest toDigest previousStatus : String)
  deriving DecidableEq, Repr

/-- The JSON object in the queue; `none` is an absent (or, for `nullish`, a null) property. -/
structure RawPayload where
  buildId : Option String := none
  appId : Option String := none
  commitSha : Option String := none
  commitMessage : Option String := none
  kind : Option String := none
  tag : Option String := none
  imageUpdate : Option ImageUpdate := none
  deriving DecidableEq, Repr

inductive PayloadKind where
  | tag
  deriving DecidableEq, Repr

structure DeployPayload where
  (buildId appId commitSha commitMessage : Option String)
  kind : Option PayloadKind
  tag : Option String
  imageUpdate : Option ImageUpdate
  deriving DecidableEq, Repr

/-- One issue of a `ZodError`. -/
structure ZodIssue where
  path : List String
  message : String
  deriving DecidableEq, Repr

/-- `z.enum(["tag"]).optional()`. -/
def parseKind : Option String → Except ZodIssue (Option PayloadKind)
  | none => .ok none
  | some kind =>
    if kind = "tag" then .ok (some .tag)
    else .error ⟨["kind"],"Invalid input: expected \"tag\""⟩

/-- `DeployPayloadSchema.parse`; the producers are typed, so only `kind` can be outside the schema.
-/
def parsePayload (raw : RawPayload) : Except ZodIssue DeployPayload := do
  let kind ← parseKind raw.kind
  return { buildId := raw.buildId, appId := raw.appId, commitSha := raw.commitSha
           commitMessage := raw.commitMessage, kind := kind, tag := raw.tag
           imageUpdate := raw.imageUpdate }

structure Job where
  id : String
  payload : RawPayload
  attempts : Nat
  deriving DecidableEq, Repr

structure App where
  (id projectId : String)
  status : AppStatus
  gitProvider : Option GitProvider
  (imageRef repoFullName branch buildMethod : Option String)
  runtimeMode : RuntimeMode
  trackLatest : Bool
  (lastImageDigest pendingImageDigest : Option String)
  deriving DecidableEq, Repr

structure Build where
  (id appId : String)
  status : BuildStatus
  requestedByUserId : Option String
  deriving DecidableEq, Repr

structure State where
  apps : List App
  builds : List Build
  deriving DecidableEq, Repr

inductive Handled where
  | invalid (issue : ZodIssue)
  | unauthorized (reason : String)
  | fatal (message : String)
  | error (message : String)
  | cancelled (buildId : String)
  | lostAccess (buildId : String)
  | serving (appId : String)
  | started (appId : String) (env : List (String × String))
  deriving DecidableEq, Repr

/-- What the handler learns from outside: whether a user still has access, what `detectBuildMethod`
finds, and the environment of an app. -/
structure Env where
  hasAccess : String → String → Bool
  isStaticWorkspace : App → Bool
  runtimeEnv : String → List (String × String)

namespace State

def app? (s : State) (id : String) : Option App := s.apps.find? (·.id = id)

def setBuildStatus (s : State) (id : String) (status : BuildStatus) : State :=
  { s with builds := s.builds.map fun b => if b.id = id then { b with status := status } else b }

def updateApp (s : State) (id : String) (f : App → App) : State :=
  { s with apps := s.apps.map fun a => if a.id = id then f a else a }

/-- `claimQueuedRow`: one conditional update that returns the row it changed. -/
def claimQueuedRow (s : State) (id : String) (expected : List BuildStatus) :
    Option (Build × State) :=
  match s.builds.find? fun b => b.id = id ∧ b.status ∈ expected with
  | none => none
  | some b => some ({ b with status := .running }, s.setBuildStatus id .running)

end State

def staleImageUpdate (app : App) (update : ImageUpdate) : Bool :=
  !app.trackLatest || app.lastImageDigest != some update.fromDigest ||
    app.pendingImageDigest != some update.toDigest

def runDeploy (env : Env) (app : App) (buildId : String) (s : State) : Handled × State :=
  if app.gitProvider ≠ some .image ∧ env.isStaticWorkspace app then
    (.serving app.id, (s.setBuildStatus buildId .succeeded).updateApp app.id
      fun a => { a with status := .serving })
  else
    (.started app.id (env.runtimeEnv app.id), (s.setBuildStatus buildId .succeeded).updateApp
      app.id fun a => { a with status := .running })

def deployClaimed (env : Env) (payload : DeployPayload) (claimed : Build) (s : State) :
    Handled × State :=
  match s.app? claimed.appId with
  | none => (.error ("App not found: " ++ claimed.appId), s)
  | some app =>
    let isImageSource := app.gitProvider = some .image
    if isImageSource ∧ truthy app.imageRef = none then
      (.fatal ("App " ++ app.id ++ " has git_provider='image' but no image_ref set"), s)
    else if isImageSource ∧ payload.imageUpdate.any (staleImageUpdate app) then
      (.cancelled claimed.id, (s.setBuildStatus claimed.id .cancelled).updateApp app.id fun a =>
        if a.pendingImageDigest = payload.imageUpdate.map (·.toDigest) then
          { a with pendingImageDigest := none } else a)
    else if ¬isImageSource ∧ (truthy app.repoFullName = none ∨ truthy app.branch = none) then
      (.fatal ("App " ++ app.id ++ " is missing repo_full_name or branch — cannot deploy"), s)
    else if claimed.requestedByUserId.any fun user => !env.hasAccess claimed.appId user then
      (.lostAccess claimed.id, s.setBuildStatus claimed.id .failed)
    else if app.buildMethod = some "compose" then
      (.fatal "build_method=\"compose\" is not yet supported (planned sprint 3.3)", s)
    else runDeploy env app claimed.id s

def claimable (attempts : Nat) : List BuildStatus :=
  if attempts > 1 then [.pending, .failed] else [.pending]

def handleDeploy (env : Env) (job : Job) (s : State) : Handled × State :=
  match parsePayload job.payload with
  | .error issue => (.invalid issue, s)
  | .ok payload =>
    match truthy payload.buildId with
    | some buildId =>
      match s.claimQueuedRow buildId (claimable job.attempts) with
      | none => (.unauthorized "build row not found or not pending", s)
      | some (claimed, s) => deployClaimed env payload claimed s
    | none =>
      match truthy payload.appId with
      | some _ => (.unauthorized "legacy payload format — drop after queue drain", s)
      | none => (.fatal "Payload missing both buildId and appId", s)

theorem parsePayload_ok_iff :
    (∃ p, parsePayload raw = .ok p) ↔ raw.kind = none ∨ raw.kind = some "tag" := by
  unfold parsePayload parseKind
  cases raw.kind with
  | none => exact iff_of_true ⟨_,rfl⟩ (.inl rfl)
  | some kind =>
    by_cases h : kind = "tag"
    · subst h
      exact iff_of_true ⟨_,rfl⟩ (.inr rfl)
    · simp only [if_neg h]
      refine iff_of_false ?_ (by simp [h])
      rintro ⟨p,hp⟩
      cases hp

theorem parsePayload_ok (h : parsePayload raw = .ok p) :
    p.buildId = raw.buildId ∧ p.imageUpdate = raw.imageUpdate := by
  unfold parsePayload at h
  cases hk : parseKind raw.kind with
  | error issue =>
    rw [hk] at h
    cases h
  | ok kind =>
    rw [hk] at h
    cases h
    exact ⟨rfl,rfl⟩

structure Startable (env : Env) (update : Option ImageUpdate) (build : Build) (app : App) :
    Prop where
  image : app.gitProvider = some .image →
    truthy app.imageRef ≠ none ∧ update.any (staleImageUpdate app) = false
  git : app.gitProvider ≠ some .image →
    truthy app.repoFullName ≠ none ∧ truthy app.branch ≠ none ∧
      env.isStaticWorkspace app = false
  access : build.requestedByUserId.all (env.hasAccess build.appId) = true
  method : app.buildMethod ≠ some "compose"

theorem deployClaimed_started_iff :
    (deployClaimed env payload claimed s).1 = .started appId vars ↔
      ∃ app, s.app? claimed.appId = some app ∧ app.id = appId ∧
        Startable env payload.imageUpdate claimed app ∧ vars = env.runtimeEnv appId := by
  unfold deployClaimed
  cases happ : s.app? claimed.appId with
  | none => simp
  | some app =>
    have haccess : claimed.requestedByUserId.any (fun user => !env.hasAccess claimed.appId user) =
        !claimed.requestedByUserId.all (env.hasAccess claimed.appId) := by
      cases claimed.requestedByUserId <;> rfl
    simp only [runDeploy,haccess]
    constructor
    · intro h
      -- every check that stops the deploy answers with another outcome
      split_ifs at h with himage hstale hrepo hlost hcompose hstatic
      all_goals cases h
      refine ⟨app,rfl,rfl,⟨fun hi => ?_,fun hi => ?_,?_,hcompose⟩,rfl⟩
      · simpa [hi] using And.intro himage hstale
      · simp only [hi,not_false_eq_true,true_and,not_or,ne_eq] at hrepo hstatic
        exact ⟨hrepo.1,hrepo.2,by simpa using hstatic⟩
      · simpa using hlost
    · rintro ⟨app',happ',rfl,hst,rfl⟩
      obtain rfl := Option.some.inj happ'
      by_cases hi : app.gitProvider = some .image
      · simp [hi,hst.image hi,hst.access,hst.method]
      · simp [hi,hst.git hi,hst.access,hst.method]

def Deployable (env : Env) (job : Job) (s : State) (appId : String) : Prop :=
  (job.payload.kind = none ∨ job.payload.kind = some "tag") ∧
    ∃ buildId claimed s1 app, truthy job.payload.buildId = some buildId ∧
      s.claimQueuedRow buildId (claimable job.attempts) = some (claimed, s1) ∧
      s1.app? claimed.appId = some app ∧ app.id = appId ∧
      Startable env job.payload.imageUpdate claimed app

theorem handleDeploy_started_iff :
    (handleDeploy env job s).1 = .started appId vars ↔
      Deployable env job s appId ∧ vars = env.runtimeEnv appId := by
  unfold handleDeploy Deployable
  cases hp : parsePayload job.payload with
  | error issue =>
    have hkind : ¬(job.payload.kind = none ∨ job.payload.kind = some "tag") := by
      rw [← parsePayload_ok_iff,hp]
      simp
    simp [hkind]
  | ok payload =>
    obtain ⟨hbuild,hupdate⟩ := parsePayload_ok hp
    have hkind := parsePayload_ok_iff.mp ⟨payload,hp⟩
    simp only [hkind,true_and,hbuild]
    cases truthy job.payload.buildId with
    | none => cases truthy payload.appId <;> simp
    | some buildId =>
      simp only [Option.some.injEq]
      cases hclaim : s.claimQueuedRow buildId (claimable job.attempts) with
      | none =>
        refine iff_of_false (by simp) ?_
        rintro ⟨⟨_,_,_,_,rfl,hclaim',-⟩,-⟩
        rw [hclaim] at hclaim'
        cases hclaim'
      | some row =>
        simp only [deployClaimed_started_iff,hupdate]
        constructor
        · rintro ⟨app,happ,rfl,hst,rfl⟩
          exact ⟨⟨buildId,row.1,row.2,app,rfl,hclaim,happ,rfl,hst⟩,rfl⟩
        · rintro ⟨⟨_,_,_,app,rfl,hclaim',happ,rfl,hst⟩,rfl⟩
          rw [hclaim] at hclaim'
          obtain rfl := Option.some.inj hclaim'
          exact ⟨app,happ,rfl,hst,rfl⟩

end Ploydok.Deploy
