import Ploydok.Builds.Model

/-! Pushes that are enqueued with coalescing: the branch path of `webhook-handlers/push.ts` after
its filter, with `resolveCoalesceJobId`, next to workers that run the jobs. Every access to the
queue or the database is a step. -/

namespace Ploydok.Webhooks

open Effect Effect.Prog Queue

/-! ### The two stores -/

inductive Decision where
  | enqueued
  | coalesced
  | skipped
  deriving DecidableEq

structure Delivery where
  (id appId : String)
  decision : Decision

structure Build where
  id : String
  status : BuildStatus

/-- The data of a deploy job; `delivery` is not part of it, it tells which delivery the job was
added for. -/
structure Payload where
  (buildId commitSha delivery : String)

/-- `dropped` and `finished` are the deliveries whose jobs were removed before they were run, or
have finished. -/
structure World where
  deliveries : List Delivery
  builds : List Build
  queue : Bull Payload
  (dropped finished : List String)

namespace World

def countDeliveriesByApp (w : World) (appId : String) : Nat :=
  (w.deliveries.filter (·.appId = appId)).length

def setDecision (w : World) (id : String) (decision : Decision) : World :=
  { w with deliveries := w.deliveries.map fun d => if d.id = id then { d with decision } else d }

def take (w : World) (job : Job Payload) : World :=
  { w with
    queue := w.queue.modify job.id
      (fun j => { j with state := .active, attemptsMade := j.attemptsMade + 1 }) fun _ => rfl
    builds := w.builds.map fun b =>
      if b.id = job.data.buildId ∧ (b.status = .pending ∨ b.status = .failed) then
        { b with status := .running }
      else b }

def settle (w : World) (job : Job Payload) (state : JobState) (status : BuildStatus) : World :=
  { w with
    queue := w.queue.modify job.id (fun j => { j with state }) fun _ => rfl
    builds := w.builds.map fun b =>
      if b.id = job.data.buildId ∧ b.status = .running then { b with status } else b
    finished := if state.unfinished then w.finished else w.finished ++ [job.data.delivery] }

def settledState (job : Job Payload) (succeeded : Bool) : JobState :=
  if succeeded then .completed else if job.attemptsMade < job.attempts then .delayed else .failed

def settleJob (w : World) (id : String) (succeeded : Bool) : World :=
  match w.queue.getJob id with
  | some job =>
    if job.state = .active then
      w.settle job (settledState job succeeded) (if succeeded then .succeeded else .failed)
    else w
  | none => w

def droppedBy (w : World) (id : String) : List String :=
  ((w.queue.jobs.filter fun j => j.id = id ∧ j.state.queued).map fun j => j.data.delivery)

end World

inductive Call where
  | getJob (id : String)
  | getState (id : String)
  | countDeliveriesByApp (appId : String)
  | remove (id : String)
  | findRecentEnqueuedDeliveryByApp (appId : String)
  | markDeliveryCoalesced (id : String)
  | insertDelivery (appId : String)
  | createPendingBuild (appId commitSha : String)
  | add (job : Job Payload)
  | takeJob
  | runDeploy (job : Job Payload)
  | settleJob (id : String) (succeeded : Bool)

abbrev Call.Res : Call → Type
  | getJob _ => Bool
  | getState _ => Option JobState
  | countDeliveriesByApp _ => Nat
  | findRecentEnqueuedDeliveryByApp _ => Option String
  | insertDelivery _ | createPendingBuild _ _ => String
  | takeJob => Option (Job Payload)
  | runDeploy _ => Bool
  | _ => Unit

abbrev PushSig : Sig := ⟨Call,Call.Res⟩

abbrev PushProg (α : Type) := Prog PushSig String α

abbrev query (o : Call) : PushProg o.Res := Prog.perform (S := PushSig) o

/-- The state of a job that is gone is unknown, here `none`. New ids are not in use. -/
def Responds : (o : Call) → World → o.Res → World → Prop
  | .getJob id, w, r, w' => r = (w.queue.getJob id).isSome ∧ w' = w
  | .getState id, w, r, w' => r = (w.queue.getJob id).map (·.state) ∧ w' = w
  | .countDeliveriesByApp appId, w, r, w' => r = w.countDeliveriesByApp appId ∧ w' = w
  | .remove id, w, _, w' => ∃ queue, w.queue.remove id = some queue ∧
    w' = { w with queue, dropped := w.dropped ++ w.droppedBy id }
  | .findRecentEnqueuedDeliveryByApp appId, w, r, w' => w' = w ∧
    match r with
    | some id => ∃ d ∈ w.deliveries, d.id = id ∧ d.appId = appId ∧ d.decision = .enqueued
    | none => ∀ d ∈ w.deliveries, d.appId = appId → d.decision ≠ .enqueued
  | .markDeliveryCoalesced id, w, _, w' => w' = w.setDecision id .coalesced
  | .insertDelivery appId, w, r, w' => (∀ d ∈ w.deliveries, d.id ≠ r) ∧
    w' = { w with deliveries := w.deliveries ++ [⟨r,appId,.enqueued⟩] }
  | .createPendingBuild _ _, w, r, w' => (∀ b ∈ w.builds, b.id ≠ r) ∧
    w' = { w with builds := w.builds ++ [⟨r,.pending⟩] }
  | .add job, w, _, w' => w' = { w with queue := w.queue.add job }
  | .takeJob, w, r, w' =>
    match r with
    | some job => job ∈ w.queue.jobs ∧ (job.state = .waiting ∨ job.state = .delayed) ∧ w' = w.take job
    | none => w' = w
  | .runDeploy _, w, _, w' => w' = w
  | .settleJob id succeeded, w, _, w' => w' = w.settleJob id succeeded

/-- A call is carried out, or it throws, with or without its effect. -/
def pushSem : Sem PushSig String World := fun o w r w' =>
  match r with
  | .ok a => Responds o w a w'
  | .error _ => w' = w ∨ ∃ a, Responds o w a w'

/-! ### The handler -/

inductive DropReason where
  | supersededWaiting
  | staleCompleted
  | staleFailed
  deriving DecidableEq

/-- `shouldDropExisting` is that there is a reason. -/
structure Resolution where
  jobId : String
  dropReason : Option DropReason

def baseKey (appId branch : String) : String := "deploy:" ++ appId ++ ":" ++ branch

def suffixed (base : String) (n : Nat) : String := base ++ "_r" ++ toString n

/-- `existingJobState` is `none` without a job, and `some none` for an unknown state; `fresh` is
random. -/
def resolveCoalesceJobId (coalesce : Bool) (fresh appId branch : String)
    (existingJobState : Option (Option JobState)) (deliveryCount : Option Nat) : Resolution :=
  if coalesce = false then ⟨fresh,none⟩
  else
    match existingJobState with
    | none => ⟨baseKey appId branch,none⟩
    | some (some .waiting) | some (some .delayed) => ⟨baseKey appId branch,some .supersededWaiting⟩
    | some (some .active) => ⟨suffixed (baseKey appId branch) (deliveryCount.getD 0),none⟩
    | some (some .completed) => ⟨baseKey appId branch,some .staleCompleted⟩
    | some (some .failed) => ⟨baseKey appId branch,some .staleFailed⟩
    | some _ => ⟨baseKey appId branch,some .staleCompleted⟩

structure App where
  id : String
  coalescePushes : Bool

structure Push where
  (branch commitSha : String)

def inspect (app : App) (branch : String) : PushProg (Option (Option JobState) × Option Nat) :=
  if app.coalescePushes then
    (query (.getJob (baseKey app.id branch))).bind fun existingJob =>
    if existingJob then
      (query (.getState (baseKey app.id branch))).bind fun state =>
      if state = some .active then
        (query (.countDeliveriesByApp app.id)).bind fun count => .ret (some state, some count)
      else .ret (some state, none)
    else .ret (none, none)
  else .ret (none, none)

def dropExisting (appId base : String) (reason : DropReason) : PushProg Unit :=
  (query (.remove base)).bind fun _ =>
  if reason = .supersededWaiting then
    (query (.findRecentEnqueuedDeliveryByApp appId)).bind fun recentDelivery =>
    match recentDelivery with
    | some id => query (.markDeliveryCoalesced id)
    | none => .ret ()
  else .ret ()

def enqueue (app : App) (push : Push) (jobId : String) : PushProg Unit :=
  (query (.insertDelivery app.id)).bind fun newDeliveryId =>
  (query (.createPendingBuild app.id push.commitSha)).bind fun buildId =>
  query (.add ⟨jobId,⟨buildId,push.commitSha,newDeliveryId⟩,.waiting,0,3⟩)

def handlePush (app : App) (fresh : String) (push : Push) : PushProg Unit :=
  (inspect app push.branch).bind fun inspected =>
  let resolution := resolveCoalesceJobId app.coalescePushes fresh app.id push.branch
    inspected.1 inspected.2
  (match resolution.dropReason with
    | some reason => dropExisting app.id (baseKey app.id push.branch) reason
    | none => .ret ()).bind fun _ =>
  enqueue app push resolution.jobId

def work : PushProg Unit :=
  (query .takeJob).bind fun job =>
  match job with
  | none => .ret ()
  | some job => (query (.runDeploy job)).bind fun succeeded => query (.settleJob job.id succeeded)

inductive Party where
  | push (fresh commitSha : String)
  | worker

def Party.isPush : Party → Bool
  | push _ _ => true
  | worker => false

/-- The pushes are all to one branch of one app, with coalescing. -/
def Party.program (appId branch : String) : Party → PushProg Unit
  | push fresh commitSha => handlePush ⟨appId,true⟩ fresh ⟨branch,commitSha⟩
  | worker => work

section Stages

variable (appId branch : String)

def chosenId : Option Nat → String
  | none => baseKey appId branch
  | some n => suffixed (baseKey appId branch) n

inductive Stage where
  | begun
  | found
  /-- The job of the branch was active. -/
  | busy
  /-- The job of the branch was finished or gone. -/
  | stale
  /-- The job of the branch was waiting; nothing is said about such a push. -/
  | superseding
  | chosen (n : Option Nat)
  | inserted (n : Option Nat) (delivery : String)
  | built (n : Option Nat) (delivery build : String)
  | ended
  | failed
  | working

def Stage.ofState : Option JobState → Stage
  | some .active => busy
  | some .completed | some .failed | none => stale
  | _ => superseding

def stageNext : Stage → Event PushSig String → Option Stage
  | .working, ⟨.takeJob,_⟩ | .working, ⟨.runDeploy _,_⟩
  | .working, ⟨.settleJob _ _,_⟩ => some .working
  | .working, _ | .ended, _ | .failed, _ => none
  | .superseding, _ => some .superseding
  | _, ⟨_,.error _⟩ => some .failed
  | .begun, ⟨.getJob id,.ok existing⟩ => if id = baseKey appId branch then
      some (if existing then .found else .chosen none) else none
  | .found, ⟨.getState id,.ok state⟩ =>
    if id = baseKey appId branch then some (.ofState state) else none
  | .busy, ⟨.countDeliveriesByApp id,.ok n⟩ => if id = appId then some (.chosen (some n)) else none
  | .stale, ⟨.remove id,.ok _⟩ => if id = baseKey appId branch then some (.chosen none) else none
  | .chosen n, ⟨.insertDelivery id,.ok d⟩ => if id = appId then some (.inserted n d) else none
  | .inserted n d, ⟨.createPendingBuild _ _,.ok b⟩ => some (.built n d b)
  | .built n d b, ⟨.add job,.ok _⟩ =>
    if job.id = chosenId appId branch n ∧ job.data.buildId = b ∧ job.data.delivery = d ∧
      job.state = .waiting then some .ended else none
  | _, _ => none

def stageProtocol : Protocol PushSig String := ⟨Stage,stageNext appId branch⟩

def Party.stage : Party → Stage
  | push _ _ => .begun
  | worker => .working

def StageEnd : Stage → Except String Unit → Prop
  | .failed, r => r.isOk = false
  | .ended, _ | .superseding, _ | .working, _ => True
  | _, _ => False

end Stages

end Ploydok.Webhooks
