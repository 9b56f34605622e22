import Ploydok.Builds.LifeCycle

/-! Where each party stands with respect to one app: an attempt (whose worker may die) from the
claim of its build to the final status, and the reaper from the end of a stuck build to the repair
of the app. -/

namespace Ploydok.Builds

open Effect Effect.Prog Queue

inductive Party where
  /-- An attempt at a deploy, and after how many calls its worker dies, if it does. -/
  | attempt (job : DeployJob) (dies : Option Nat)
  | cancel (userId appId buildId : String)
  | reaper

def Party.program : Party → DeployProg Unit
  | attempt job none => handleDeploy job
  | attempt job (some n) => (handleDeploy job).cut n
  | cancel userId appId buildId => (cancelBuild userId appId buildId).bind fun _ => .ret ()
  | reaper => reapStuckBuilds

/-! ### Where each party stands -/

inductive Stage where
  /-- An attempt that has not claimed its build. -/
  | idle (job : DeployJob)
  | claimed (job : DeployJob) (buildId : String)
  /-- It has read the app and knows what to fall back to. -/
  | ready (buildId : String) (fallback : AppStatus)
  /-- It has written `building`. -/
  | busy (buildId : String) (fallback : AppStatus)
  /-- Only the final status of the build is missing. -/
  | closing (buildId : String)
  | ended
  /-- It has switched the traffic, or could not write the status back. -/
  | lost
  /-- Its build is one of another app. -/
  | elsewhere (buildId appId : String)
  /-- A cancel request. -/
  | outside
  /-- The reaper, with the builds it has found. -/
  | calm (stuck : List (String × String))
  /-- It has ended a build of the app and has not looked at the app yet. -/
  | owing (stuck : List (String × String)) (buildId : String)
  | checked (stuck : List (String × String))
  | about (stuck : List (String × String)) (status : AppStatus)

def repairedStatus (app : AppRow) : AppStatus :=
  if (truthy app.containerId).isSome then .running else .failed

def idleNext (a : String) (job : DeployJob) : Event DeploySig DeployError → Option Stage
  | ⟨.claim b _,.ok (some row)⟩ =>
    if job.buildId = some b then
      if row.appId = a then some (.claimed job b) else some (.elsewhere b row.appId)
    else none
  | ⟨.claim _ _,_⟩ => some .ended
  | _ => none

def claimedNext (a : String) (job : DeployJob) (b : String) :
    Event DeploySig DeployError → Option Stage
  | ⟨.getAppForDeploy x,.ok (some app)⟩ =>
    if x = a then
      match sourceCheck a app job.payload.imageUpdate with
      | .deploy => some (.ready b (fallbackStatus job app))
      | .stale _ => some (.closing b)
      | .refuse _ => some .ended
    else none
  | ⟨.getAppForDeploy _,_⟩ => some .ended
  | _ => none

/-- Before the `try` block an exception ends the attempt. -/
def readyNext (a b : String) (f : AppStatus) : Event DeploySig DeployError → Option Stage
  | ⟨.getAppForUser x _,.ok true⟩ => if x = a then some (.ready b f) else none
  | ⟨.getAppForUser x _,.ok false⟩ => if x = a then some (.closing b) else none
  | ⟨.getAppForUser _ _,.error _⟩ => some .ended
  | ⟨.hydrateBuild _,.ok _⟩ => some (.ready b f)
  | ⟨.hydrateBuild _,.error _⟩ => some .ended
  | ⟨.updateBuildStatus id status _,.ok _⟩ =>
    if id = b ∧ status = .running then some (.ready b f) else none
  | ⟨.updateBuildStatus id status _,.error _⟩ =>
    if id = b ∧ status = .running then some .ended else none
  | ⟨.updateApp x update,.ok _⟩ =>
    if x = a ∧ update = .status .building then some (.busy b f) else none
  | ⟨.updateApp x update,.error _⟩ =>
    if x = a ∧ update = .status .building then some .ended else none
  | _ => none

def busyNext (a b : String) (f : AppStatus) : Event DeploySig DeployError → Option Stage
  | ⟨.phase _,_⟩ => some (.busy b f)
  | ⟨.updateBuildStatus id status _,_⟩ =>
    if id = b ∧ status = .running then some (.busy b f) else none
  | ⟨.switch x _,_⟩ | ⟨.updateApp x (.live _),_⟩ | ⟨.updateApp x (.liveSwarm _),_⟩
  | ⟨.updateApp x .serving,_⟩ => if x = a then some .lost else none
  | ⟨.updateApp x (.status s),.ok _⟩ => if x = a ∧ s = f then some (.closing b) else none
  | ⟨.updateApp x (.status s),.error _⟩ => if x = a ∧ s = f then some .lost else none
  | _ => none

def closingNext (a b : String) : Event DeploySig DeployError → Option Stage
  | ⟨.updateApp x (.release _),_⟩ => if x = a then some (.closing b) else none
  | ⟨.selectBuildStatus _,_⟩ => some (.closing b)
  | ⟨.updateBuildStatus id _ _,_⟩ => if id = b then some .ended else none
  | _ => none

def endedNext (a : String) : Event DeploySig DeployError → Option Stage
  | ⟨.updateApp x (.release _),_⟩ => if x = a then some .ended else none
  | _ => none

open Classical in
noncomputable def calmNext (a : String) (l : List (String × String)) :
    Event DeploySig DeployError → Option Stage
  | ⟨.stuckRunning,.ok l'⟩ | ⟨.stuckPending,.ok l'⟩ => some (.calm l')
  | ⟨.stuckRunning,.error _⟩ | ⟨.stuckPending,.error _⟩ => some (.calm l)
  | ⟨.updateBuildStatus id status patch,r⟩ =>
    if status = .cancelled ∧ patch = .finished ∧ ∃ x, (id, x) ∈ l then
      match r with
      | .ok _ => if l.contains (id, a) then some (.owing l id) else some (.calm l)
      | .error _ => some (.calm l)
    else none
  | ⟨.hasActiveBuild x,_⟩ | ⟨.selectApp x,_⟩
  | ⟨.updateApp x _,_⟩ => if x = a then none else some (.calm l)
  | _ => none

def owingNext (a : String) (l : List (String × String)) (b : String) :
    Event DeploySig DeployError → Option Stage
  | ⟨.hasActiveBuild x,.ok false⟩ =>
    if l.contains (b, x) then if x = a then some (.checked l) else some (.calm l) else none
  | ⟨.hasActiveBuild x,_⟩ => if l.contains (b, x) then some (.calm l) else none
  | _ => none

def checkedNext (a : String) (l : List (String × String)) :
    Event DeploySig DeployError → Option Stage
  | ⟨.selectApp x,.ok (some app)⟩ =>
    if x = a then
      if app.status = .building then some (.about l (repairedStatus app)) else some (.calm l)
    else none
  | ⟨.selectApp x,_⟩ => if x = a then some (.calm l) else none
  | _ => none

def aboutNext (a : String) (l : List (String × String)) (s : AppStatus) :
    Event DeploySig DeployError → Option Stage
  | ⟨.updateApp x update,_⟩ => if x = a ∧ update = .status s then some (.calm l) else none
  | _ => none

open Classical in
noncomputable def stageNext (a : String) : Stage → Event DeploySig DeployError → Option Stage
  | .idle job, ev => idleNext a job ev
  | .claimed job b, ev => claimedNext a job b ev
  | .ready b f, ev => readyNext a b f ev
  | .busy b f, ev => busyNext a b f ev
  | .closing b, ev => closingNext a b ev
  | .ended, ev => endedNext a ev
  | .lost, _ => some .lost
  | .elsewhere b x, ⟨o,_⟩ => if ClaimedCall b x o then some (.elsewhere b x) else none
  | .outside, ⟨o,_⟩ => if ∃ b, CancelCall b o then some .outside else none
  | .calm l, ev => calmNext a l ev
  | .owing l b, ev => owingNext a l b ev
  | .checked l, ev => checkedNext a l ev
  | .about l s, ev => aboutNext a l s ev

noncomputable def stageProtocol (a : String) : Protocol DeploySig DeployError :=
  ⟨Stage,stageNext a⟩

namespace Stage

section Follows

variable {a b : String} {f : AppStatus} {job : DeployJob} {app : AppRow} {α : Type}

attribute [local simp] stageNext idleNext claimedNext readyNext busyNext closingNext endedNext
  calmNext owingNext checkedNext aboutNext

variable {o : Call} {g : o.Res → DeployProg α} {s : Stage} {β : Type} {x : String}

abbrev Leads (a : String) (p : DeployProg α) (s : Stage)
    (Q : Stage → Except DeployError α → Prop) : Prop :=
  p.Follows (stageProtocol a) s Q

theorem follows_next (hok : ∀ x, ∃ t, stageNext a s ⟨o,.ok x⟩ = some t ∧ Leads a (g x) t Q)
    (herr : ∀ e, ∃ t, stageNext a s ⟨o,.error e⟩ = some t ∧ Q t (.error e)) :
    Leads a ((call o).bind g) s Q :=
  follows_perform_bind hok herr

theorem follows_lost (p : DeployProg α) : Leads a p .lost fun s _ => s = .lost := by
  refine follows_of_calls (A := stageProtocol a) (· = Stage.lost) (calls_true p) ?_ rfl
  rintro _ o r rfl -
  exact ⟨_,rfl,rfl⟩

/-- The `try` block has thrown before the switch, or the traffic is switched. -/
def Stuck (b : String) (f : AppStatus) (s : Stage) (r : Except DeployError α) : Prop :=
  (s = .busy b f ∧ ∃ e, r = .error e) ∨ s = .lost

theorem follows_stuck_lost (p : DeployProg α) : Leads a p .lost (Stuck b f) :=
  follows_mono (follows_lost p) fun _ _ h => .inr h

/-- The attempt is still in its `try` block, or the traffic is switched. -/
def Within (b : String) (f : AppStatus) (s : Stage) (_ : Except DeployError α) : Prop :=
  s = .busy b f ∨ s = .lost

theorem follows_then {g : β → DeployProg α} (hp : Leads a p (.busy b f) (Within b f))
    (hg : ∀ x, Leads a (g x) (.busy b f) (Stuck b f)) :
    Leads a (p.bind g) (.busy b f) (Stuck b f) := by
  refine follows_bind _ hp ?_ ?_
  · rintro s x (rfl | rfl)
    · exact hg x
    · exact follows_stuck_lost _
  · rintro s e (rfl | rfl)
    · exact .inl ⟨rfl,e,rfl⟩
    · exact .inr rfl

theorem follows_stuck_bind {g : β → DeployProg α} (hp : Leads a p (.busy b f) (Stuck b f)) :
    Leads a (p.bind g) (.busy b f) (Stuck b f) := by
  refine follows_bind _ hp ?_ ?_
  · rintro s x (⟨-,e,he⟩ | rfl)
    · cases he
    · exact follows_stuck_lost _
  · rintro s e (⟨rfl,-⟩ | rfl)
    · exact .inl ⟨rfl,e,rfl⟩
    · exact .inr rfl

theorem follows_phase (p : Phase) : Leads a (call (.phase p)) (.busy b f) (Within b f) :=
  follows_perform fun _ => ⟨.busy b f,rfl,.inl rfl⟩

theorem follows_running (patch : Patch) : Leads a (call (.updateBuildStatus b .running patch))
    (.busy b f) (Within b f) :=
  follows_perform fun _ => ⟨.busy b f,if_pos ⟨rfl,rfl⟩,.inl rfl⟩

theorem follows_switching_bind (h : ∀ r, busyNext a b f ⟨o,r⟩ = some .lost) :
    Leads a ((call o).bind g) (.busy b f) fun s _ => s = .lost := by
  refine follows_bind (fun s _ => s = .lost)
    (follows_perform fun r => ⟨.lost,h r,rfl⟩) ?_ fun _ _ hs => hs
  rintro s x rfl
  exact follows_lost _

theorem follows_switchRoute (target : String) :
    Leads a (switchRoute a target) (.busy b f) fun s _ => s = .lost :=
  follows_switching_bind fun _ => by simp [busyNext]

theorem follows_switchPublic (target : String) : Leads a (switchPublic a app target) (.busy b f)
    (Within b f) := by
  unfold switchPublic
  split
  · exact follows_mono (follows_switchRoute target) fun _ _ hs => .inr hs
  · exact .inl rfl

theorem follows_runRuntime : Leads a (runRuntime a app) (.busy b f) (Stuck b f) := by
  refine follows_then (follows_phase .start) fun name => ?_
  split
  · exact follows_stuck_bind (follows_mono (follows_switchRoute name) fun _ _ hs => .inr hs)
  · refine follows_then (follows_switchPublic name) fun _ => ?_
    exact follows_mono (follows_switching_bind fun _ => by simp [busyNext]) fun _ _ hs => .inr hs

theorem follows_noteBuild (condition : Bool) (patch : Patch) : Leads a (noteBuild condition b patch)
    (.busy b f) (Within b f) := by
  unfold noteBuild
  split
  · refine follows_bind _ (follows_running patch) ?_ fun _ _ hs => hs
    intro s _ hs
    exact hs
  · exact .inl rfl

/-- A `try` block that ends without an exception has switched the traffic. -/
theorem follows_deployBody : Leads a (deployBody job b a app) (.busy b f) (Stuck b f) := by
  unfold deployBody
  split
  · refine follows_then (follows_running .imageTag) fun _ => ?_
    refine follows_then (follows_phase .loadEnv) fun _ => ?_
    refine follows_then (follows_phase .preHook) fun _ => ?_
    exact follows_stuck_bind follows_runRuntime
  · refine follows_then (follows_phase .clone) fun head => ?_
    refine follows_then (follows_noteBuild _ .commitSha) fun _ => ?_
    refine follows_then (follows_phase .detect) fun method => ?_
    refine follows_then (follows_noteBuild _ .buildMethod) fun _ => ?_
    refine follows_then (follows_phase .prepare) fun _ => ?_
    split
    · refine follows_then (follows_phase .install) fun _ => ?_
      refine follows_then (follows_switchPublic _) fun _ => ?_
      refine follows_then (follows_phase .collect) fun _ => ?_
      exact follows_mono (follows_switching_bind fun _ => by simp [busyNext]) fun _ _ hs => .inr hs
    · refine follows_then (follows_phase .build) fun _ => ?_
      refine follows_then (follows_running .imageTag) fun _ => ?_
      refine follows_then (follows_phase .preHook) fun _ => ?_
      exact follows_stuck_bind follows_runRuntime

/-- The `catch` block. -/
theorem follows_afterFailure (hf : fallbackStatus job app = f) : Leads a (afterFailure job a app)
    (.busy b f) fun s _ => s = .closing b ∨ s = .lost := by
  refine follows_next (fun _ => ?_) fun e => ?_
  · refine ⟨.closing b,by simp [hf],?_⟩
    split
    · split
      · refine follows_next (fun _ => ?_) fun e => ?_
        · exact ⟨.closing b,by simp,.inl rfl⟩
        · exact ⟨.closing b,by simp,.inl rfl⟩
      · exact .inl rfl
    · exact .inl rfl
  · exact ⟨.lost,by simp [hf],.inr rfl⟩

def Any (_ : Stage) (_ : Except DeployError α) : Prop := True

theorem follows_any_lost (p : DeployProg α) : Leads a p .lost Any :=
  follows_mono (follows_lost p) fun _ _ _ => trivial

theorem follows_finishBuild (status : FinalStatus) :
    Leads a (finishBuild b status) (.closing b) Any := by
  refine follows_next (fun current => ?_) fun e => ?_
  · refine ⟨.closing b,rfl,?_⟩
    split
    · trivial
    · refine follows_next (fun _ => ?_) fun e => ?_
      · exact ⟨.ended,by simp,trivial⟩
      · exact ⟨.ended,by simp,trivial⟩
  · exact ⟨.closing b,rfl,trivial⟩

theorem follows_deployGuarded (hf : fallbackStatus job app = f) :
    Leads a (deployGuarded job b a app) (.busy b f) Any := by
  refine follows_bind (fun s _ => s = .closing b ∨ s = .lost) ?_ ?_ fun _ _ _ => trivial
  · refine follows_attempt (follows_tryCatch _ follows_deployBody ?_ ?_)
    · rintro s x (⟨-,e,he⟩ | rfl)
      · cases he
      · exact .inr rfl
    · rintro s e (⟨rfl,-⟩ | rfl)
      · refine follows_bind _ (follows_afterFailure hf) ?_ ?_
        · intro s _ hs
          exact hs
        · intro s _ hs
          exact hs
      · exact follows_mono (follows_lost _) fun _ _ hs => .inr hs
  · rintro s outcome (rfl | rfl)
    · refine follows_bind Any (follows_finishBuild _) (fun s _ _ => ?_) fun _ _ _ => trivial
      cases outcome <;> trivial
    · exact follows_any_lost _

/-- A call before the `try` block. -/
theorem follows_ready (hok : ∀ x, readyNext a b f ⟨o,.ok x⟩ = some (.ready b f))
    (herr : ∀ e, readyNext a b f ⟨o,.error e⟩ = some .ended)
    (hg : ∀ x, Leads a (g x) (.ready b f) Any) : Leads a ((call o).bind g) (.ready b f) Any :=
  follows_next (fun x => ⟨.ready b f,hok x,hg x⟩) fun e => ⟨.ended,herr e,trivial⟩

theorem follows_deployChecked (hf : fallbackStatus job app = f) :
    Leads a (deployChecked job b a app) (.ready b f) Any := by
  unfold deployChecked
  split
  · trivial
  · refine follows_ready (fun _ => rfl) (fun _ => rfl) fun _ => ?_
    refine follows_ready (fun _ => if_pos ⟨rfl,rfl⟩) (fun _ => if_pos ⟨rfl,rfl⟩) fun _ => ?_
    refine follows_next (fun _ => ?_) fun e => ⟨.ended,if_pos ⟨rfl,rfl⟩,trivial⟩
    refine ⟨.busy b f,if_pos ⟨rfl,rfl⟩,?_⟩
    refine follows_bind (Within b f) (follows_phase .openLog) ?_ fun _ _ _ => trivial
    rintro s _ (rfl | rfl)
    · refine follows_bind (Within b f) (follows_running .logPath) ?_ fun _ _ _ => trivial
      rintro s _ (rfl | rfl)
      · exact follows_deployGuarded hf
      · exact follows_any_lost _
    · exact follows_any_lost _

theorem follows_exit {g : Unit → DeployProg Unit} (hg : Leads a (g ()) .ended Any) :
    Leads a ((call (.updateBuildStatus b status .finished)).bind g) (Stage.closing b) Any :=
  follows_next (fun _ => ⟨.ended,by simp,hg⟩) fun _ => ⟨.ended,by simp,trivial⟩

theorem follows_deployAllowed (hf : fallbackStatus job app = f) (requestedBy : Option String) :
    Leads a (deployAllowed job b a app requestedBy) (.ready b f) Any := by
  unfold deployAllowed
  split
  · exact follows_deployChecked hf
  · refine follows_next (fun hasAccess => ?_) fun e => ⟨.ended,rfl,trivial⟩
    cases hasAccess with
    | true => exact ⟨.ready b f,if_pos rfl,follows_deployChecked hf⟩
    | false => exact ⟨.closing b,if_pos rfl,follows_exit trivial⟩

theorem follows_deployFound (row : BuildRow) (app : AppRow) :
    ∃ t, claimedNext row.appId job b ⟨.getAppForDeploy row.appId,.ok (some app)⟩ = some t ∧
      Leads row.appId (deployFound job b row app) t Any := by
  unfold deployFound
  cases hcheck : sourceCheck row.appId app job.payload.imageUpdate with
  | refuse message => exact ⟨.ended,by simp [claimedNext,hcheck],trivial⟩
  | stale u =>
    have hrelease : Leads row.appId (act (.updateApp row.appId (.release u.toDigest))) Stage.ended
      Any :=
      follows_next (fun _ => ⟨.ended,if_pos rfl,trivial⟩) fun _ => ⟨.ended,if_pos rfl,trivial⟩
    exact ⟨.closing b,by simp [claimedNext,hcheck],follows_exit hrelease⟩
  | deploy =>
    exact ⟨.ready b (fallbackStatus job app),by simp [claimedNext,hcheck],
      follows_deployAllowed rfl _⟩

theorem follows_deployClaimed (ha : row.appId = a) :
    Leads a (deployClaimed job b row) (.claimed job b) Any := by
  subst ha
  refine follows_next (fun found => ?_) fun e => ⟨.ended,rfl,trivial⟩
  cases found with
  | none => exact ⟨.ended,rfl,trivial⟩
  | some app => exact follows_deployFound row app

theorem follows_elsewhere (hp : p.Calls (ClaimedCall b x)) : Leads a p (.elsewhere b x) Any := by
  refine follows_mono (follows_of_calls
    (fun s => s = Stage.elsewhere b x) hp ?_ rfl) fun _ _ _ => trivial
  rintro _ o r rfl ho
  exact ⟨.elsewhere b x,if_pos ho,rfl⟩

theorem follows_handleDeploy (a : String) (job : DeployJob) :
    Leads a (handleDeploy job) (.idle job) Any := by
  unfold handleDeploy
  split
  · trivial
  · split
    · next b hb =>
      refine follows_next (fun claimed => ?_) fun e => ⟨.ended,rfl,trivial⟩
      cases claimed with
      | none => exact ⟨.ended,rfl,trivial⟩
      | some row =>
        have hjob : job.buildId = some b := hb
        by_cases ha : row.appId = a
        · exact ⟨.claimed job b,by simp [hjob,ha],follows_deployClaimed ha⟩
        · exact ⟨.elsewhere b row.appId,by simp [hjob,ha],
            follows_elsewhere (calls_deployClaimed row)⟩
    · split
      · trivial
      · trivial

theorem follows_cancelBuild (a userId appId buildId : String) :
    Leads a ((cancelBuild userId appId buildId).bind fun _ => .ret ()) .outside Any := by
  refine follows_mono (follows_of_calls (fun s => s = Stage.outside)
    (calls_bind (calls_cancelBuild userId appId buildId) fun _ => calls_ret ()) ?_ rfl)
    fun _ _ _ => trivial
  rintro _ o r rfl ho
  exact ⟨.outside,if_pos ⟨buildId,ho⟩,rfl⟩

def Paid (l : List (String × String)) (s : Stage) (_ : Except DeployError α) : Prop := s = .calm l

variable {l : List (String × String)}

theorem follows_calm_bind (h : ∀ r, calmNext a l ⟨o,r⟩ = some (.calm l))
    (hg : ∀ x, Leads a (g x) (.calm l) (Paid l)) : Leads a ((call o).bind g) (.calm l) (Paid l) :=
  follows_next (fun x => ⟨.calm l,h _,hg x⟩) fun _ => ⟨.calm l,h _,rfl⟩

def repairFound (appId : String) (app : AppRow) : DeployProg Unit :=
  if app.status = .building then act (.updateApp appId (.status (repairedStatus app))) else .ret ()

theorem follows_repair_of_ne (hx : x ≠ a)
    (hs : ∀ r, stageNext a s ⟨.hasActiveBuild x,r⟩ = some (.calm l)) :
    Leads a (repairAppStatusAfterReap x) s (Paid l) := by
  refine follows_next (fun hasActive => ⟨.calm l,hs _,?_⟩) fun e => ⟨.calm l,hs _,rfl⟩
  split
  · exact rfl
  · refine follows_calm_bind (fun _ => if_neg hx) fun found => ?_
    cases found with
    | none => exact rfl
    | some app =>
      show Leads a (repairFound x app) (.calm l) (Paid l)
      unfold repairFound
      split
      · exact follows_calm_bind (fun _ => if_neg hx) fun _ => rfl
      · exact rfl

theorem follows_repair (h : (b, a) ∈ l) :
    Leads a (repairAppStatusAfterReap a) (.owing l b) (Paid l) := by
  have hlisted : l.contains (b, a) = true := List.contains_iff_mem.mpr h
  refine follows_next (fun hasActive => ?_) fun e => ⟨.calm l,if_pos hlisted,rfl⟩
  cases hasActive with
  | true => exact ⟨.calm l,if_pos hlisted,rfl⟩
  | false =>
    refine ⟨.checked l,by simp [h],?_⟩
    refine follows_next (fun found => ?_) fun e => ⟨.calm l,if_pos rfl,rfl⟩
    cases found with
    | none => exact ⟨.calm l,if_pos rfl,rfl⟩
    | some app =>
      by_cases hbuilding : app.status = .building
      · refine ⟨.about l (repairedStatus app),by simp [hbuilding],?_⟩
        show Leads a (repairFound a app) (.about l (repairedStatus app)) (Paid l)
        unfold repairFound
        rw [if_pos hbuilding]
        refine follows_next (fun _ => ?_) fun _ => ?_
        · exact ⟨.calm l,by simp,rfl⟩
        · exact ⟨.calm l,by simp,rfl⟩
      · refine ⟨.calm l,by simp [hbuilding],?_⟩
        show Leads a (repairFound a app) (.calm l) (Paid l)
        unfold repairFound
        rw [if_neg hbuilding]
        exact rfl

theorem follows_reap (h : stuck ∈ l) : Leads a (reap stuck) (.calm l) (Paid l) := by
  have hfound : ∃ x, (stuck.1, x) ∈ l := ⟨stuck.2,h⟩
  refine follows_next (fun _ => ?_) fun e => ⟨.calm l,by simp [hfound],rfl⟩
  by_cases hdebt : (stuck.1, a) ∈ l
  · refine ⟨.owing l stuck.1,by simp [hfound,hdebt],?_⟩
    by_cases ha : stuck.2 = a
    · rw [ha]
      exact follows_repair hdebt
    · have hlisted : l.contains stuck = true := List.contains_iff_mem.mpr h
      refine follows_repair_of_ne ha fun r => ?_
      cases r with
      | error e => exact if_pos hlisted
      | ok hasActive =>
        cases hasActive with
        | true => exact if_pos hlisted
        | false => simp [stageNext,owingNext,show (stuck.1, stuck.2) ∈ l from h,ha]
  · refine ⟨.calm l,by simp [hfound,hdebt],?_⟩
    have ha : stuck.2 ≠ a := by
      rintro rfl
      exact hdebt h
    exact follows_repair_of_ne ha fun _ => if_neg ha

def Calm (s : Stage) (_ : Except DeployError α) : Prop := ∃ l, s = .calm l

theorem follows_reaps (l : List (String × String)) :
    Leads a (forEach l reap) (.calm l) (Paid l) := by
  refine follows_forEach (A := stageProtocol a) (fun rest s => s = Stage.calm l ∧ rest ⊆ l) l
    ⟨rfl,fun _ h => h⟩ ?_ fun s hs => hs.1
  rintro x rest s ⟨rfl,hrest⟩
  refine follows_mono (follows_reap (hrest List.mem_cons_self)) ?_
  rintro s (e | u) rfl
  · exact rfl
  · exact ⟨rfl,fun y hy => hrest (List.mem_cons_of_mem x hy)⟩

theorem follows_reapStuckBuilds (a : String) : Leads a reapStuckBuilds (.calm []) Calm := by
  refine follows_next (fun running => ⟨.calm running,rfl,?_⟩) fun e => ⟨.calm [],rfl,[],rfl⟩
  refine follows_bind _ (follows_reaps running) ?_ fun s e hs => ⟨_,hs⟩
  rintro s _ rfl
  refine follows_next (fun pending => ⟨.calm pending,rfl,?_⟩)
    fun e => ⟨.calm running,rfl,running,rfl⟩
  exact follows_mono (follows_reaps pending) fun s _ hs => ⟨_,hs⟩

end Follows

def Of : Stage → Party → Prop
  | idle job, .attempt job' _ => job = job'
  | claimed job b, .attempt job' _ => job = job' ∧ job.buildId = some b
  | ready b _, .attempt job _ | busy b _, .attempt job _ | closing b, .attempt job _ =>
    job.buildId = some b
  | ended, .attempt _ _ | lost, .attempt _ _ | elsewhere _ _, .attempt _ _ => True
  | outside, .cancel _ _ _ => True
  | calm _, .reaper | owing _ _, .reaper | checked _, .reaper | about _ _, .reaper => True
  | _, _ => False

/-- The reaper has ended a build of the app and has not settled what to do about the app. -/
def owes : Stage → Bool
  | owing _ _ | checked _ | about _ _ => true
  | _ => false

def working : Stage → Bool
  | claimed _ _ | ready _ _ | busy _ _ | closing _ => true
  | _ => false

variable {s : Stage} {party : Party}

theorem of_next {s' : Stage} (hs : s.Of party) (h : stageNext a s ev = some s') : s'.Of party := by
  cases party with
  | attempt job dies =>
    cases s with (simp only [stageNext] at h; revert h)
    | idle job' =>
      fun_cases idleNext a job' ev <;> rintro ⟨⟩
      all_goals simp_all [Of]
    | claimed job' b =>
      obtain ⟨rfl,hb⟩ := hs
      fun_cases claimedNext a job' b ev <;> rintro ⟨⟩
      all_goals simp_all [Of]
    | ready b f =>
      fun_cases readyNext a b f ev <;> rintro ⟨⟩
      all_goals simp_all [Of]
    | busy b f =>
      fun_cases busyNext a b f ev <;> rintro ⟨⟩
      all_goals simp_all [Of]
    | closing b =>
      fun_cases closingNext a b ev <;> rintro ⟨⟩
      all_goals simp_all [Of]
    | ended =>
      fun_cases endedNext a ev <;> rintro ⟨⟩
      trivial
    | lost =>
      rintro ⟨⟩
      trivial
    | elsewhere b x =>
      simp only [Option.ite_none_right_eq_some,Option.some.injEq]
      rintro ⟨-,rfl⟩
      trivial
    | _ => exact hs.elim
  | cancel userId appId buildId =>
    cases s with
    | outside =>
      simp only [stageNext,Option.ite_none_right_eq_some,Option.some.injEq] at h
      rw [← h.2]
      trivial
    | _ => exact hs.elim
  | reaper =>
    cases s with (simp only [stageNext] at h; revert h)
    | calm l =>
      fun_cases calmNext a l ev <;> rintro ⟨⟩
      all_goals trivial
    | owing l b =>
      fun_cases owingNext a l b ev <;> rintro ⟨⟩
      all_goals trivial
    | checked l =>
      fun_cases checkedNext a l ev <;> rintro ⟨⟩
      all_goals trivial
    | about l s =>
      fun_cases aboutNext a l s ev <;> rintro ⟨⟩
      trivial
    | _ => exact hs.elim

theorem owes_of_attempt {dies : Option Nat} (h : s.Of (.attempt job dies)) : s.owes = false := by
  cases s with
  | owing | checked | about => exact h.elim
  | _ => rfl

def Even (s : Stage) (_ : Except DeployError Unit) : Prop := s.owes = false

def start : Party → Stage
  | .attempt job _ => idle job
  | .cancel _ _ _ => outside
  | .reaper => calm []

theorem of_start (party : Party) : (start party).Of party := by
  cases party <;> trivial

theorem working_start (party : Party) : (start party).working = false := by
  cases party <;> rfl

theorem owes_start (party : Party) : (start party).owes = false := by
  cases party <;> rfl

theorem reaper_of_owes (h : s.Of party) (howes : s.owes = true) : party = .reaper := by
  cases party with
  | attempt job dies => simp [owes_of_attempt h] at howes
  | cancel userId appId buildId =>
    cases s with
    | outside => cases howes
    | _ => exact h.elim
  | reaper => rfl

theorem follows_program (a : String) (party : Party) :
    Leads a party.program (start party) Even := by
  cases party with
  | attempt job dies =>
    have hof : (start (.attempt job dies)).Of (.attempt job dies) := of_start _
    cases dies with
    | none =>
      refine follows_mono (follows_invariant
        (fun s => Of s (.attempt job none)) (fun s ev s' => of_next) hof
        (follows_handleDeploy a job)) ?_
      intro s r hs
      exact owes_of_attempt hs
    | some n =>
      refine follows_mono (follows_cut (fun s ev s' => of_next) hof
        (follows_handleDeploy a job) n) ?_
      intro s r hs
      exact owes_of_attempt hs
  | cancel userId appId buildId =>
    refine follows_mono (follows_invariant (A := stageProtocol a)
      (fun s => Of s (.cancel userId appId buildId)) (fun s ev s' => of_next) trivial
      (follows_cancelBuild a userId appId buildId)) ?_
    intro s r hs
    cases s with
    | outside => rfl
    | _ => exact hs.elim
  | reaper =>
    refine follows_mono (follows_reapStuckBuilds a) ?_
    rintro s r ⟨l,rfl⟩
    exact rfl

end Stage

end Ploydok.Builds
