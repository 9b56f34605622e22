import Ploydok.Database.Engine
import Ploydok.Deploy.Handler
import Ploydok.Effect.Program

/-! Password rotation, `databases/rotation.ts`, as a program over the statements it sends, while the
deploy worker takes jobs off the queue and the rest of the platform changes apps and builds. A
statement that throws has no effect, except that a command whose answer is lost may have been
carried out. -/

namespace Ploydok.Database

open Effect Deploy Function

inductive DbStatus where
  | creating | starting | running | stopped | degraded | failed
  deriving DecidableEq, Repr

def DbStatus.text : DbStatus → String
  | creating => "creating"
  | starting => "starting"
  | running => "running"
  | stopped => "stopped"
  | degraded => "degraded"
  | failed => "failed"

/-- A row of `databases`; the encrypted columns are kept in plain. -/
structure Row where
  (projectId name : String)
  kind : DbKind
  status : DbStatus
  containerId : Option String
  connectionString : Option ConnUrl
  masterPassword : Option String
  rotationInProgress : Bool
  passwordRotatedAt : Option Nat
  deriving DecidableEq

structure Link where
  (appId databaseId envPrefix : String)
  deriving DecidableEq, Repr

structure Secret where
  appId : String
  projectId : Option String
  (key value : String)
  linkedDatabaseId : Option String
  deriving DecidableEq, Repr

/-- What happens outside the tables: jobs enqueued, jobs handled by the deploy worker on the apps
and builds it found, users dropped. -/
inductive Happening where
  | enqueued (payload : RawPayload)
  | handled (job : Job) (before : Deploy.State) (result : Handled)
  | dropped (containerId user : String)
  deriving DecidableEq

structure World where
  databases : String → Option Row
  passwordHistory : List (String × String)
  links : List Link
  secrets : List Secret
  users : String → Users
  deploys : Deploy.State
  queue : List RawPayload
  chronicle : List Happening

structure ExecResult where
  stdout : String
  exitCode : Int
  deriving DecidableEq, Repr

inductive RotationError where
  | error (message : String)
  | rotationInProgress (databaseId : String)
  | rotationFailed (message databaseId : String)
  deriving DecidableEq, Repr

structure RotationResult where
  databaseId : String
  rotatedAt : Nat
  appsRedeployed : List String
  deriving DecidableEq, Repr

inductive Query where
  | readDatabase (id : String)
  | generatePassword
  | setRotationInProgress (id : String) (value : Bool)
  | exec (containerId : String) (argv : List String) (kind : DbKind) (cmd : Command)
  | insertPasswordHistory (id password : String)
  | updateCredentials (id password : String) (connectionString : Option ConnUrl)
  | readLinks (id : String)
  | readProjects (appIds : List String)
  | deleteSecrets (appId databaseId : String)
  | insertSecret (secret : Secret)
  | enqueue (payload : RawPayload)
  | now
  | sleep (ms : Nat)
  | readStatuses (appIds : List String)
  | finishRotation (id : String) (rotatedAt : Nat)
  | notify (id name projectId : String)
  deriving DecidableEq

@[reducible] def Query.Res : Query → Type
  | .readDatabase _ => Option Row
  | .generatePassword => String
  | .exec .. => ExecResult
  | .readLinks _ => List Link
  | .readProjects _ => List (String × String)
  | .now => Nat
  | .readStatuses _ => List (String × AppStatus)
  | _ => Unit

abbrev Db : Sig := ⟨Query,Query.Res⟩

abbrev DbProg := Prog Db RotationError

abbrev DbEvent := Event Db RotationError

def query (o : Query) : DbProg o.Res := Prog.perform (S := Db) o

/-! ### The program -/

def execInDbContainer (containerId : String) (kind : DbKind) (cmd : Command) :
    DbProg ExecResult :=
  match cmd.argv kind with
  | none => throw (.error "cmd is not iterable")
  | some argv => query (.exec containerId argv kind cmd)

def addNewPassword (containerId : String) (kind : DbKind)
    (oldUser newUser newPwd database : String) : DbProg Unit := do
  let result ← execInDbContainer containerId kind (.createUser oldUser newUser newPwd database)
  if result.exitCode ≠ 0 then
    throw (.error ("Failed to add new DB user " ++ newUser ++ ": exit " ++
      toString result.exitCode ++ "\n" ++ result.stdout))

def dropOldUser (containerId : String) (kind : DbKind) (oldUser newUser database : String) :
    DbProg Unit := do
  let _ ← execInDbContainer containerId kind (.dropUser oldUser newUser database)

def secretVars (kind : DbKind) (connString : Option ConnUrl) (envPrefix user pwd : String) :
    DbProg (List (String × String)) :=
  match connString with
  | none => throw (.error "Invalid URL")
  | some url => return buildSecretVars kind url envPrefix user pwd

def insertSecrets (databaseId appId : String) (projectId : Option String)
    (vars : List (String × String)) : DbProg Unit :=
  Prog.forEach vars fun kv => query (.insertSecret
    { appId := appId, projectId := projectId, key := kv.1, value := kv.2
      linkedDatabaseId := some databaseId })

/-- `Map.get` of the map filled from the rows in order. -/
def projectOf (rows : List (String × String)) (appId : String) : Option String :=
  (rows.reverse.find? (·.1 = appId)).map (·.2)

def readProjectMap (appIds : List String) : DbProg (List (String × String)) :=
  if appIds.isEmpty then return [] else query (.readProjects appIds)

def redeployPayload (appId : String) : RawPayload :=
  { appId := some appId, kind := some "rotation_redeploy" }

def rollbackPayload (appId : String) : RawPayload :=
  { appId := some appId, kind := some "rotation_rollback" }

def pollTimeoutMs : Nat := 5 * 60 * 1000

def pollIntervalMs : Nat := 15000

/-- The wait for the linked apps. Every round sleeps, so the clock allows no more rounds than the
count given here. -/
def pollUntilRunning (appIds : List String) (pollStart : Nat) : Nat → DbProg Bool
  | 0 => return false
  | rounds + 1 => do
    let now ← query .now
    if now - pollStart < pollTimeoutMs then
      query (.sleep pollIntervalMs)
      let rows ← query (.readStatuses appIds)
      if rows.any (·.2 = .failed) then return false
      else if rows.all (·.2 = .running) then return true
      else pollUntilRunning appIds pollStart rounds
    else return false

structure Plan where
  databaseId : String
  dbRow : Row
  containerId : String
  kind : DbKind
  (oldPwd oldUser newPwd newUser database : String)
  oldConnStr : Option ConnUrl

def Plan.newConnStr (p : Plan) : Option ConnUrl :=
  p.oldConnStr.map fun url => rebuildConnectionString url p.newPwd p.newUser

def rewriteLinkSecrets (p : Plan) (projects : List (String × String)) (link : Link) :
    DbProg Unit := do
  let vars ← secretVars p.kind p.newConnStr link.envPrefix p.newUser p.newPwd
  query (.deleteSecrets link.appId p.databaseId)
  insertSecrets p.databaseId link.appId (projectOf projects link.appId) vars

def restoreLinkSecrets (p : Plan) (projects : List (String × String)) (link : Link) :
    DbProg Unit := do
  query (.deleteSecrets link.appId p.databaseId)
  let vars ← secretVars p.kind p.oldConnStr link.envPrefix p.oldUser p.oldPwd
  insertSecrets p.databaseId link.appId (projectOf projects link.appId) vars

/-- The loop over the links of a database: the links and the projects of their apps are read first,
and the ids of the apps returned. -/
def eachLink (databaseId : String) (f : List (String × String) → Link → DbProg Unit) :
    DbProg (List String) := do
  let links ← query (.readLinks databaseId)
  let projects ← readProjectMap (links.map (·.appId))
  Prog.forEach links (f projects)
  return links.map (·.appId)

def restoreCredentials (p : Plan) (linkedAppIds : List String) : DbProg Unit := do
  query (.updateCredentials p.databaseId p.oldPwd p.oldConnStr)
  let _ ← eachLink p.databaseId (restoreLinkSecrets p)
  Prog.forEach linkedAppIds fun appId =>
    (query (.enqueue (rollbackPayload appId))).tryCatch fun _ => return ()
  dropOldUser p.containerId p.kind p.newUser p.oldUser p.database

def rollbackRotation (p : Plan) (linkedAppIds : List String) : DbProg Unit :=
  ((restoreCredentials p linkedAppIds).tryCatch fun _ => return ()).andFinally
    (query (.setRotationInProgress p.databaseId false))

def writeCredentials (p : Plan) : DbProg (List String) := do
  addNewPassword p.containerId p.kind p.oldUser p.newUser p.newPwd p.database
  query (.insertPasswordHistory p.databaseId p.oldPwd)
  query (.updateCredentials p.databaseId p.newPwd p.newConnStr)
  eachLink p.databaseId (rewriteLinkSecrets p)

def redeployLinkedApps (p : Plan) (linkedAppIds : List String) : DbProg Unit := do
  Prog.forEach linkedAppIds fun appId => query (.enqueue (redeployPayload appId))
  if linkedAppIds ≠ [] then
    let pollStart ← query .now
    let allHealthy ←
      pollUntilRunning linkedAppIds pollStart (pollTimeoutMs / pollIntervalMs)
    if ¬allHealthy then
      rollbackRotation p linkedAppIds
      throw (.rotationFailed
        "Rolling redeploy after rotation failed — rolled back to old password" p.databaseId)

def completeRotation (p : Plan) (linkedAppIds : List String) : DbProg RotationResult := do
  dropOldUser p.containerId p.kind p.oldUser p.newUser p.database
  let rotatedAt ← query .now
  query (.finishRotation p.databaseId rotatedAt)
  (query (.notify p.databaseId p.dbRow.name p.dbRow.projectId)).tryCatch fun _ => return ()
  return { databaseId := p.databaseId, rotatedAt := rotatedAt, appsRedeployed := linkedAppIds }

def rotateLocked (p : Plan) : DbProg RotationResult := do
  let linkedAppIds ← writeCredentials p
  redeployLinkedApps p linkedAppIds
  completeRotation p linkedAppIds

/-- A Redis database is given the same user by every rotation. -/
def newUserOf (kind : DbKind) (oldUser : String) : String :=
  if kind = .redis then "default_new" else oldUser ++ "_new"

def planOf (databaseId : String) (row : Row) (containerId oldPwd oldUser newPwd : String) : Plan :=
  { databaseId := databaseId, dbRow := row, containerId := containerId, kind := row.kind
    oldPwd := oldPwd, oldUser := oldUser, newPwd := newPwd
    newUser := newUserOf row.kind oldUser
    database := (row.connectionString.map ConnUrl.database).getD "app"
    oldConnStr := row.connectionString }

/-- The user of the connection string, which may not decode; `ploydok` without one. -/
def currentUser (row : Row) : Option String :=
  match row.connectionString with
  | none => some "ploydok"
  | some url => url.user

/-- Steps 1 and 2: what the row must be like; the new password is still to come. -/
def checkRow (databaseId : String) : Option Row → Except RotationError (String → Plan)
  | none => .error (.error ("Database not found: " ++ databaseId))
  | some row =>
    if row.status ≠ .running then
      .error (.error ("Cannot rotate password for database with status " ++ row.status.text))
    else if row.rotationInProgress then
      .error (.rotationInProgress databaseId)
    else
      match truthy row.containerId with
      | none => .error (.error "Database container_id is null — cannot rotate")
      | some containerId =>
        match row.masterPassword with
        | none => .error (.error "master_password_enc is null — cannot rotate")
        | some oldPwd =>
          match currentUser row with
          | none => .error (.error "URI malformed")
          | some oldUser => .ok (planOf databaseId row containerId oldPwd oldUser)

theorem checkRow_ok {id : String} (h : checkRow id found = .ok plan) :
    ∃ row containerId oldPwd oldUser, found = some row ∧ row.rotationInProgress = false ∧
      row.containerId = some containerId ∧ row.masterPassword = some oldPwd ∧
      currentUser row = some oldUser ∧ plan = planOf id row containerId oldPwd oldUser := by
  revert h
  fun_cases checkRow id found <;> rintro ⟨⟩
  next hl containerId hc oldPwd hm oldUser hu =>
  exact ⟨_,containerId,oldPwd,oldUser,rfl,by simpa using hl,truthy_eq_some hc,hm,hu,rfl⟩

def releaseLock (databaseId : String) (err : RotationError) : DbProg RotationResult := do
  (query (.setRotationInProgress databaseId false)).tryCatch fun _ => return ()
  throw err

def rotatePassword (databaseId : String) : DbProg RotationResult := do
  let found ← query (.readDatabase databaseId)
  let plan ← Prog.ofExcept (checkRow databaseId found)
  let newPwd ← query .generatePassword
  query (.setRotationInProgress databaseId true)
  Prog.tryCatch (rotateLocked (plan newPwd)) (releaseLock databaseId)

/-! ### What the statements do -/

structure Outside where
  hasAccess : String → String → Bool
  isStaticWorkspace : App → Bool

namespace World

def appEnv (w : World) (appId : String) : List (String × String) :=
  (w.secrets.filter (·.appId = appId)).map fun s => (s.key, s.value)

def linksOf (w : World) (databaseId : String) : List Link :=
  w.links.filter (·.databaseId = databaseId)

def lockOf (w : World) (id : String) : Option Bool :=
  (w.databases id).map (·.rotationInProgress)

def setRow (w : World) (id : String) (f : Row → Row) : World :=
  { w with databases := update w.databases id ((w.databases id).map f) }

def deployEnv (out : Outside) (w : World) : Deploy.Env :=
  { hasAccess := out.hasAccess, isStaticWorkspace := out.isStaticWorkspace
    runtimeEnv := w.appEnv }

def handle (out : Outside) (w : World) (job : Job) : World :=
  let done := handleDeploy (w.deployEnv out) job w.deploys
  { w with deploys := done.2, queue := w.queue.erase job.payload
           chronicle := w.chronicle ++ [.handled job w.deploys done.1] }

def ran (w : World) (containerId : String) (kind : DbKind) (cmd : Command) : World :=
  { w with
    users := update w.users containerId (runCommand kind cmd (w.users containerId))
    chronicle := w.chronicle ++
      match cmd with
      | .createUser .. => []
      | .dropUser oldUser _ _ => [.dropped containerId oldUser] }

end World

/-- Meanwhile the deploy worker handles jobs, and apps and builds change. -/
inductive Activity (out : Outside) : World → World → Prop
  | refl (w : World) : Activity out w w
  | handle {w w₁ : World} (h : Activity out w w₁) (job : Job) :
      Activity out w (w₁.handle out job)
  | change {w w₁ : World} (h : Activity out w w₁) (deploys : Deploy.State) :
      Activity out w { w₁ with deploys := deploys }

/-- A statement that succeeds. The queue has delivered every job when a sleep ends. -/
def Responds : (o : Query) → World → o.Res → World → Prop
  | .readDatabase id, w, r, w' => r = w.databases id ∧ w' = w
  | .generatePassword, w, _, w' => w' = w
  | .setRotationInProgress id b, w, _, w' =>
    w' = w.setRow id fun row => { row with rotationInProgress := b }
  | .exec containerId _ kind cmd, w, r, w' =>
    if r.exitCode = 0 then
      admits kind cmd (w.users containerId) = true ∧ w' = w.ran containerId kind cmd
    else w' = w
  | .insertPasswordHistory id pwd, w, _, w' =>
    w' = { w with passwordHistory := w.passwordHistory ++ [(id, pwd)] }
  | .updateCredentials id pwd connStr, w, _, w' =>
    w' = w.setRow id fun row =>
      { row with masterPassword := some pwd
                 connectionString := connStr.or row.connectionString }
  | .readLinks id, w, r, w' => r = w.linksOf id ∧ w' = w
  | .readProjects appIds, w, r, w' =>
    r = (w.deploys.apps.filter (·.id ∈ appIds)).map (fun a => (a.id, a.projectId)) ∧ w' = w
  | .deleteSecrets appId databaseId, w, _, w' =>
    w' = { w with secrets := w.secrets.filter fun s =>
      ¬(s.appId = appId ∧ s.linkedDatabaseId = some databaseId) }
  | .insertSecret s, w, _, w' => w' = { w with secrets := w.secrets ++ [s] }
  | .enqueue payload, w, _, w' =>
    w' = { w with queue := w.queue ++ [payload], chronicle := w.chronicle ++ [.enqueued payload] }
  | .now, w, _, w' => w' = w
  | .sleep _, w, _, w' => w.queue = [] ∧ w' = w
  | .readStatuses appIds, w, r, w' =>
    r = (w.deploys.apps.filter (·.id ∈ appIds)).map (fun a => (a.id, a.status)) ∧ w' = w
  | .finishRotation id rotatedAt, w, _, w' =>
    w' = w.setRow id fun row =>
      { row with passwordRotatedAt := some rotatedAt, rotationInProgress := false }
  | .notify .., w, _, w' => w' = w

/-- A statement that throws. Random bytes, the clock and timers do not. -/
def Fails : Query → World → World → Prop
  | .generatePassword, _, _ | .now, _, _ | .sleep _, _, _ => False
  | .exec containerId _ kind cmd, w, w' =>
    w' = w ∨ (admits kind cmd (w.users containerId) = true ∧ w' = w.ran containerId kind cmd)
  | _, w, w' => w' = w

def dbSem (out : Outside) : Sem Db RotationError World :=
  fun o w r w' => ∃ w₁, Activity out w w₁ ∧
    match r with
    | .ok a => Responds o w₁ a w'
    | .error _ => Fails o w₁ w'

variable {out : Outside} {w w' : World}

theorem Activity.frame (h : Activity out w w') :
    w' = { w with deploys := w'.deploys, queue := w'.queue, chronicle := w'.chronicle } := by
  induction h with
  | refl => rfl
  | handle _ job ih =>
    rw [ih]
    rfl
  | change _ deploys ih =>
    rw [ih]

def Report (env : Deploy.Env) (x : Happening) : Prop :=
  ∃ job before, x = .handled job before (handleDeploy env job before).1

theorem Activity.chronicle (h : Activity out w w') :
    ∃ hs, w'.chronicle = w.chronicle ++ hs ∧ ∀ x ∈ hs, Report (w.deployEnv out) x := by
  induction h with
  | refl => exact ⟨[],by simp,by simp⟩
  | @handle w1 hact job ih =>
    obtain ⟨hs,hc,hall⟩ := ih
    have henv : w1.deployEnv out = w.deployEnv out := by
      rw [hact.frame]
      rfl
    refine ⟨hs ++ [.handled job w1.deploys (handleDeploy (w1.deployEnv out) job w1.deploys).1],
      by simp [World.handle,hc],?_⟩
    intro x hx
    rcases List.mem_append.mp hx with hx | hx
    · exact hall x hx
    · exact ⟨job,w1.deploys,henv ▸ List.mem_singleton.mp hx⟩
  | change _ deploys ih => exact ih

/-- What an event does to the lock column of `id`. -/
def lockEffect (id : String) : DbEvent → Option Bool → Option Bool
  | ⟨.setRotationInProgress id' b,.ok _⟩, lock => if id' = id then lock.map fun _ => b else lock
  | ⟨.finishRotation id' _,.ok _⟩, lock => if id' = id then lock.map fun _ => false else lock
  | _, lock => lock

theorem lockOf_setRow {id id' : String} : (w.setRow id' f).lockOf id =
      if id' = id then (w.databases id).map fun row => (f row).rotationInProgress
      else w.lockOf id := by
  by_cases h : id' = id
  · subst h
    simp [World.lockOf,World.setRow,Function.comp_def]
  · simp [World.lockOf,World.setRow,h,Ne.symm h]

theorem lockOf_dbSem (id : String) (h : dbSem out o w r w') :
    w'.lockOf id = lockEffect id ⟨o,r⟩ (w.lockOf id) := by
  obtain ⟨w1,hact,h⟩ := h
  have hsame : w1.lockOf id = w.lockOf id := by
    rw [hact.frame]
    rfl
  rw [← hsame]
  cases r with
  | error e =>
    have hdb : w'.databases = w1.databases := by
      cases o with
      | exec containerId argv kind cmd =>
        rcases h with rfl | ⟨-,rfl⟩ <;> rfl
      | _ => first | exact h.elim | (subst h; rfl)
    have heff : lockEffect id ⟨o,.error e⟩ (w1.lockOf id) = w1.lockOf id := by
      cases o <;> rfl
    rw [heff,World.lockOf,hdb]
    rfl
  | ok a =>
    cases o with
    | setRotationInProgress | finishRotation =>
      subst h
      rw [lockOf_setRow]
      simp [lockEffect,World.lockOf,Function.comp_def]
    | updateCredentials id' pwd connStr =>
      subst h
      rw [lockOf_setRow]
      simp [lockEffect,World.lockOf]
    | exec containerId argv kind cmd =>
      simp only [Responds] at h
      split at h
      · obtain ⟨-,rfl⟩ := h
        rfl
      · subst h
        rfl
    | readDatabase | readLinks | readProjects | sleep | readStatuses => obtain ⟨-,rfl⟩ := h; rfl
    | _ => subst h; rfl

def drain (out : Outside) (w : World) : World :=
  w.queue.foldl (fun w payload => w.handle out ⟨"",payload,1⟩) w

def answer (out : Outside) : (o : Query) → World → o.Res × World
  | .readDatabase id, w => (w.databases id, w)
  | .generatePassword, w => ("pw" ++ toString w.passwordHistory.length, w)
  | .setRotationInProgress id b, w =>
    ((), w.setRow id fun row => { row with rotationInProgress := b })
  | .exec containerId _ kind cmd, w =>
    if admits kind cmd (w.users containerId) then (⟨"",0⟩, w.ran containerId kind cmd)
    else (⟨"",1⟩, w)
  | .insertPasswordHistory id pwd, w =>
    ((), { w with passwordHistory := w.passwordHistory ++ [(id, pwd)] })
  | .updateCredentials id pwd connStr, w =>
    ((), w.setRow id fun row =>
      { row with masterPassword := some pwd
                 connectionString := connStr.or row.connectionString })
  | .readLinks id, w => (w.linksOf id, w)
  | .readProjects appIds, w =>
    ((w.deploys.apps.filter (·.id ∈ appIds)).map fun a => (a.id, a.projectId), w)
  | .deleteSecrets appId databaseId, w =>
    ((), { w with secrets := w.secrets.filter fun s =>
      ¬(s.appId = appId ∧ s.linkedDatabaseId = some databaseId) })
  | .insertSecret s, w => ((), { w with secrets := w.secrets ++ [s] })
  | .enqueue payload, w =>
    ((), { w with queue := w.queue ++ [payload]
                  chronicle := w.chronicle ++ [.enqueued payload] })
  | .now, w => (0, w)
  | .sleep _, w => ((), drain out w)
  | .readStatuses appIds, w =>
    ((w.deploys.apps.filter (·.id ∈ appIds)).map fun a => (a.id, a.status), w)
  | .finishRotation id rotatedAt, w =>
    ((), w.setRow id fun row =>
      { row with passwordRotatedAt := some rotatedAt, rotationInProgress := false })
  | .notify .., w => ((), w)

def Query.fallible : Query → Bool
  | .generatePassword | .now | .sleep _ => false
  | _ => true

def serve (out : Outside) (broken : Query → Bool) (o : Query) (w : World) :
    Except RotationError o.Res × World :=
  if o.fallible && broken o then (.error (.error "unavailable"), w)
  else (.ok (answer out o w).1, (answer out o w).2)

theorem activity_foldl_handle (out : Outside) (w0 w : World) (payloads : List RawPayload)
    (h : Activity out w0 w) :
    Activity out w0 (payloads.foldl (fun w payload => w.handle out ⟨"",payload,1⟩) w) := by
  induction payloads generalizing w with
  | nil => exact h
  | cons payload payloads ih => exact ih _ (h.handle ⟨"",payload,1⟩)

theorem queue_foldl_handle (out : Outside) (w : World) (payloads : List RawPayload)
    (h : w.queue = payloads) :
    (payloads.foldl (fun w payload => w.handle out ⟨"",payload,1⟩) w).queue = [] := by
  induction payloads generalizing w with
  | nil => exact h
  | cons payload payloads ih => exact ih _ (by simp [World.handle,h])

theorem dbSem_serve (out : Outside) (broken : Query → Bool) (o : Query) (w : World) :
    dbSem out o w (serve out broken o w).1 (serve out broken o w).2 := by
  unfold serve
  split
  · next h =>
    refine ⟨w,.refl w,?_⟩
    cases o <;> simp_all [Query.fallible,Fails]
  · cases o with
    | sleep ms =>
      exact ⟨_,activity_foldl_handle out w w w.queue (.refl w),
        queue_foldl_handle out w w.queue rfl,rfl⟩
    | exec containerId argv kind cmd =>
      refine ⟨w,.refl w,?_⟩
      by_cases h : admits kind cmd (w.users containerId) = true <;> simp [answer,Responds,h]
    | _ => exact ⟨w,.refl w,by simp [answer,Responds]⟩

namespace Shop

def outside : Outside := ⟨fun _ _ => true,fun _ => false⟩

def calm : Query → Bool := fun _ => false

def url (user pwd : String) : ConnUrl :=
  { scheme := "postgres", username := user, password := pwd, hostname := "ploydok-db-shop"
    port := "5432", pathname := "/app", searchParams := [], hostname_ne := by decide }

def row (kind : DbKind) (user pwd : String) : Row :=
  { projectId := "project", name := "shop", kind := kind, status := .running
    containerId := some "c1", connectionString := some (url user pwd), masterPassword := some pwd
    rotationInProgress := false, passwordRotatedAt := none }

def app : App :=
  { id := "web", projectId := "project", status := .running, gitProvider := some .github
    imageRef := none, repoFullName := some "shop/web", branch := some "main"
    buildMethod := none, runtimeMode := .docker, trackLatest := false, lastImageDigest := none
    pendingImageDigest := none }

def link : Link := ⟨"web","shop","DATABASE"⟩

def world (kind : DbKind) (user pwd : String) (links : List Link) : World :=
  { databases := fun id => if id = "shop" then some (row kind user pwd) else none
    passwordHistory := [], links := links
    secrets := links.flatMap fun l =>
      (buildSecretVars kind (url user pwd) l.envPrefix user pwd).map fun kv =>
        ⟨l.appId,some "project",kv.1,kv.2,some "shop"⟩
    users := fun _ key => if key = userKey kind user then [pwd] else []
    deploys := ⟨[app],[]⟩, queue := [], chronicle := [] }

def linked : World := world .postgres "ploydok" "old" [link]

def attempt (broken : Query → Bool) (w : World) : Except RotationError RotationResult × World :=
  (rotatePassword "shop").exec (serve outside broken) w

def calls (broken : Query → Bool) (w : World) : List DbEvent :=
  (rotatePassword "shop").trace (serve outside broken) w

theorem runs_attempt (broken : Query → Bool) (w : World) :
    (rotatePassword "shop").Runs (dbSem outside) w (calls broken w) (attempt broken w).1
      (attempt broken w).2 :=
  Prog.runs_exec (dbSem_serve outside broken) _ _

end Shop

end Ploydok.Database
