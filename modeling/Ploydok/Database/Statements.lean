import Ploydok.Database.Rotation

/-! What the statements of a rotation do to the places where credentials are kept: the row of the
database, the user tables of the engines, the stored variables of linked apps, and the record of
dropped users. -/

namespace Ploydok.Database

open Effect Effect.Prog Function List

/-- The columns of the database row that hold credentials or say where they are used. -/
structure Stored where
  kind : DbKind
  containerId : Option String
  connectionString : Option ConnUrl
  masterPassword : Option String

def Row.stored (row : Row) : Stored :=
  ⟨row.kind,row.containerId,row.connectionString,row.masterPassword⟩

/-- The places where credentials are kept, seen from one database. -/
structure Core where
  row : Option Stored
  users : String → Users
  secrets : List Secret
  links : List Link
  drops : List (String × String)

def Happening.drop? : Happening → Option (String × String)
  | .dropped containerId user => some (containerId, user)
  | _ => none

def World.drops (w : World) : List (String × String) := w.chronicle.filterMap Happening.drop?

/-- The part of a world that a rotation of the database `id` is about. -/
def World.core (id : String) (w : World) : Core :=
  { row := (w.databases id).map Row.stored, users := w.users, secrets := w.secrets
    links := w.links, drops := w.drops }

namespace Core

def ran (k : Core) (containerId : String) (kind : DbKind) (cmd : Command) : Core :=
  { k with
    users := update k.users containerId (runCommand kind cmd (k.users containerId))
    drops := k.drops ++
      match cmd with
      | .createUser .. => []
      | .dropUser oldUser _ _ => [(containerId, oldUser)] }

def setCredentials (k : Core) (pwd : String) (connStr : Option ConnUrl) : Core :=
  { k with row := k.row.map fun row =>
      { row with masterPassword := some pwd
                 connectionString := connStr.or row.connectionString } }

def deleteSecrets (k : Core) (appId databaseId : String) : Core :=
  { k with secrets := k.secrets.filter fun s =>
      ¬(s.appId = appId ∧ s.linkedDatabaseId = some databaseId) }

def insertSecret (k : Core) (s : Secret) : Core := { k with secrets := k.secrets ++ [s] }

end Core

/-- Statements that touch none of these places. -/
def Query.quiet : Query → Bool
  | .exec .. | .updateCredentials .. | .deleteSecrets .. | .insertSecret _ => false
  | _ => true

variable {out : Outside} {id : String} {w w' : World}

theorem core_activity (h : Activity out w w') : w'.core id = w.core id := by
  obtain ⟨hs,hc,hall⟩ := h.chronicle
  have hdrops : hs.filterMap Happening.drop? = [] := by
    rw [filterMap_eq_nil_iff]
    intro x hx
    obtain ⟨job,before,rfl⟩ := hall x hx
    rfl
  have hw := h.frame
  simp only [World.core,World.drops,hc,filterMap_append,hdrops,append_nil]
  rw [hw]

theorem core_setRow (hf : ∀ row, (f row).stored = row.stored) :
    (w.setRow id' f).core id = w.core id := by
  simp only [World.core,World.drops,World.setRow]
  by_cases h : id = id'
  · subst h
    simp [Function.comp_def,hf]
  · simp [h]

theorem core_ran (containerId : String) (kind : DbKind) (cmd : Command) :
    (w.ran containerId kind cmd).core id = (w.core id).ran containerId kind cmd := by
  cases cmd <;> simp [World.core,World.drops,World.ran,Core.ran,Happening.drop?]

variable {o : Query} {r : Except RotationError o.Res}

theorem core_quiet (h : dbSem out o w r w') (hq : o.quiet = true) : w'.core id = w.core id := by
  obtain ⟨w1,hact,h⟩ := h
  rw [← core_activity hact]
  cases r with
  | error e =>
    cases o with
    | exec => cases hq
    | _ => first | exact h.elim | (subst h; rfl)
  | ok a =>
    cases o with
    | exec | updateCredentials | deleteSecrets | insertSecret => cases hq
    | setRotationInProgress | finishRotation =>
      subst h
      exact core_setRow fun _ => rfl
    | enqueue payload =>
      subst h
      simp [World.core,World.drops,Happening.drop?]
    | readDatabase | readLinks | readProjects | sleep | readStatuses => obtain ⟨-,rfl⟩ := h; rfl
    | _ => subst h; rfl

variable {containerId : String} {kind : DbKind}

/-- A command is carried out only where the engine admits it, and its exit code says whether. -/
theorem core_exec (id : String) {r : Except RotationError ExecResult}
    (h : dbSem out (.exec containerId argv kind cmd) w r w') :
    (w'.core id = w.core id ∧ ∀ res, r = .ok res → res.exitCode ≠ 0) ∨
      (admits kind cmd ((w.core id).users containerId) = true ∧
        w'.core id = (w.core id).ran containerId kind cmd ∧
        ∀ res, r = .ok res → res.exitCode = 0) := by
  obtain ⟨w1,hact,h⟩ := h
  rw [← core_activity hact]
  cases r with
  | error e =>
    rcases h with rfl | ⟨ha,rfl⟩
    · exact .inl ⟨rfl,by simp⟩
    · exact .inr ⟨ha,core_ran ..,by simp⟩
  | ok res =>
    simp only [Responds] at h
    split at h
    · next hcode =>
      obtain ⟨ha,rfl⟩ := h
      refine .inr ⟨ha,core_ran ..,?_⟩
      rintro _ ⟨⟩
      exact hcode
    · next hcode =>
      subst h
      refine .inl ⟨rfl,?_⟩
      rintro _ ⟨⟩
      exact hcode

/-- A write to the database is carried out, or it throws and nothing has changed. -/
theorem core_write {f : Core → Core}
    (h : dbSem out o w r w') (hfail : ∀ w w', Fails o w w' → w' = w)
    (hok : ∀ w a w', Responds o w a w' → w'.core id = f (w.core id)) :
    (w'.core id = w.core id ∧ ∃ e, r = .error e) ∨
      (w'.core id = f (w.core id) ∧ ∃ a, r = .ok a) := by
  obtain ⟨w1,hact,h⟩ := h
  rw [← core_activity hact]
  cases r with
  | error e =>
    obtain rfl := hfail _ _ h
    exact .inl ⟨rfl,e,rfl⟩
  | ok a => exact .inr ⟨hok _ _ _ h,a,rfl⟩

theorem core_updateCredentials {pwd : String} {r : Except RotationError Unit}
    (h : dbSem out (.updateCredentials id pwd connStr) w r w') :
    (w'.core id = w.core id ∧ ∃ e, r = .error e) ∨
      (w'.core id = (w.core id).setCredentials pwd connStr ∧ ∃ a, r = .ok a) := by
  refine core_write (f := fun k => k.setCredentials pwd connStr) h (fun _ _ h => h) ?_
  rintro w _ _ rfl
  simp [World.core,World.drops,World.setRow,Core.setCredentials,Function.comp_def,Row.stored]

theorem core_deleteSecrets (id : String) {appId databaseId : String} {r : Except RotationError Unit}
    (h : dbSem out (.deleteSecrets appId databaseId) w r w') :
    (w'.core id = w.core id ∧ ∃ e, r = .error e) ∨
      (w'.core id = (w.core id).deleteSecrets appId databaseId ∧ ∃ a, r = .ok a) := by
  refine core_write (f := fun k => k.deleteSecrets appId databaseId) h (fun _ _ h => h) ?_
  rintro w _ _ rfl
  rfl

theorem core_insertSecret (id : String) {s : Secret} {r : Except RotationError Unit}
    (h : dbSem out (.insertSecret s) w r w') :
    (w'.core id = w.core id ∧ ∃ e, r = .error e) ∨
      (w'.core id = (w.core id).insertSecret s ∧ ∃ a, r = .ok a) := by
  refine core_write (f := fun k => k.insertSecret s) h (fun _ _ h => h) ?_
  rintro w _ _ rfl
  rfl

theorem core_readLinks {r : Except RotationError (List Link)}
    (h : dbSem out (.readLinks id) w r w') :
    w'.core id = w.core id ∧
      ∀ links, r = .ok links → links = (w.core id).links.filter (·.databaseId = id) := by
  refine ⟨core_quiet h rfl,?_⟩
  rintro links rfl
  obtain ⟨w1,hact,rfl,-⟩ := h
  rw [← core_activity hact]
  rfl

/-! ### The statements that parts of the program issue -/

def Query.polls : Query → Bool
  | .now | .sleep _ | .readStatuses _ => true
  | _ => false

def Query.writesSecrets : Query → Bool
  | .deleteSecrets .. | .insertSecret _ => true
  | _ => false

/-- Statements of steps 4 to 7, which prepare the new credentials. -/
def Query.prepares : Query → Bool
  | .exec _ _ _ (.createUser ..) | .insertPasswordHistory .. | .updateCredentials .. | .readLinks _
  | .readProjects _ => true
  | o => o.writesSecrets

variable {P : Query → Prop}

theorem calls_query (h : P o) : (query o).Calls P :=
  calls_perform h

theorem calls_pollUntilRunning (appIds : List String) (pollStart rounds : Nat) :
    (pollUntilRunning appIds pollStart rounds).Calls (Query.polls · = true) := by
  induction rounds with
  | zero => exact calls_ret _
  | succ rounds ih =>
    refine calls_bind (calls_query rfl) fun now => ?_
    split
    · refine calls_bind (calls_query rfl) fun _ => ?_
      refine calls_bind (calls_query rfl) fun rows => ?_
      split
      · exact calls_ret _
      · split
        · exact calls_ret _
        · exact ih
    · exact calls_ret _

theorem calls_secretVars (kind : DbKind) (connString : Option ConnUrl)
    (envPrefix user pwd : String) : (secretVars kind connString envPrefix user pwd).Calls P := by
  cases connString
  · exact calls_throw _
  · exact calls_ret _

theorem calls_rewriteLinkSecrets (p : Plan) (projects : List (String × String)) (link : Link) :
    (rewriteLinkSecrets p projects link).Calls (Query.writesSecrets · = true) := by
  refine calls_bind (calls_secretVars ..) fun vars => ?_
  refine calls_bind (calls_query rfl) fun _ => ?_
  exact calls_forEach fun _ _ => calls_query rfl

theorem calls_restoreLinkSecrets (p : Plan) (projects : List (String × String)) (link : Link) :
    (restoreLinkSecrets p projects link).Calls (Query.writesSecrets · = true) := by
  refine calls_bind (calls_query rfl) fun _ => ?_
  refine calls_bind (calls_secretVars ..) fun vars => ?_
  exact calls_forEach fun _ _ => calls_query rfl

theorem calls_readProjectMap (appIds : List String)
    (h : P (.readProjects appIds)) : (readProjectMap appIds).Calls P := by
  unfold readProjectMap
  split
  · exact calls_ret _
  · exact calls_query h

theorem calls_eachLink (databaseId : String) (hf : ∀ projects link, (f projects link).Calls P)
    (hlinks : P (.readLinks databaseId)) (hproj : ∀ appIds, P (.readProjects appIds)) :
    (eachLink databaseId f).Calls P := by
  refine calls_bind (calls_query hlinks) fun links => ?_
  refine calls_bind (calls_readProjectMap _ (hproj _)) fun projects => ?_
  exact calls_bind (calls_forEach fun link _ => hf projects link) fun _ => calls_ret _

theorem prepares_of_writesSecrets (h : o.writesSecrets = true) : o.prepares = true := by
  cases o <;> first | rfl | cases h

theorem calls_execInDbContainer (h : ∀ argv, P (.exec containerId argv kind cmd)) :
    (execInDbContainer containerId kind cmd).Calls P := by
  unfold execInDbContainer
  split
  · exact calls_throw _
  · exact calls_query (h _)

theorem calls_dropOldUser
    (h : ∀ argv, P (.exec containerId argv kind (.dropUser oldUser newUser database))) :
    (dropOldUser containerId kind oldUser newUser database).Calls P :=
  calls_bind (calls_execInDbContainer h) fun _ => calls_ret _

theorem calls_writeCredentials (p : Plan) :
    (writeCredentials p).Calls (Query.prepares · = true) := by
  refine calls_bind ?_ fun _ => ?_
  · refine calls_bind (calls_execInDbContainer fun _ => rfl) fun result => ?_
    split
    · exact calls_throw _
    · exact calls_ret _
  refine calls_bind (calls_query rfl) fun _ => ?_
  refine calls_bind (calls_query rfl) fun _ => ?_
  refine calls_eachLink _ (fun projects link => ?_) rfl fun _ => rfl
  exact calls_mono (calls_rewriteLinkSecrets p projects link) fun _ => prepares_of_writesSecrets

theorem calls_releaseLock (err : RotationError)
    (h : P (.setRotationInProgress id false)) : (releaseLock id err).Calls P :=
  calls_bind (calls_tryCatch (calls_query h) fun _ => calls_ret _) fun _ => calls_throw _

/-! ### The chronicle -/

/-- What a statement leaves in the chronicle. -/
def Query.note : Query → List Happening
  | .enqueue payload => [.enqueued payload]
  | .exec containerId _ _ (.dropUser oldUser _ _) => [.dropped containerId oldUser]
  | _ => []

theorem ran_chronicle (containerId : String) (argv : List String) (kind : DbKind) (cmd : Command) :
    (w.ran containerId kind cmd).chronicle =
      w.chronicle ++ (Query.exec containerId argv kind cmd).note := by
  cases cmd <;> rfl

/-- The chronicle grows by what the workers do meanwhile, then by the note of the statement. -/
theorem chronicle_dbSem (h : dbSem out o w r w') :
    ∃ hs own, w'.chronicle = w.chronicle ++ hs ++ own ∧
      (∀ x ∈ hs, Report (w.deployEnv out) x) ∧ (own = [] ∨ own = o.note) := by
  obtain ⟨w1,hact,h⟩ := h
  obtain ⟨hs,hc,hall⟩ := hact.chronicle
  have hown : w'.chronicle = w1.chronicle ∨ w'.chronicle = w1.chronicle ++ o.note := by
    cases r with
    | error e =>
      cases o with
      | exec containerId argv kind cmd =>
        rcases h with rfl | ⟨-,rfl⟩
        · exact .inl rfl
        · exact .inr (ran_chronicle ..)
      | _ => first | exact h.elim | (subst h; exact .inl rfl)
    | ok a =>
      cases o with
      | exec containerId argv kind cmd =>
        simp only [Responds] at h
        split at h
        · obtain ⟨-,rfl⟩ := h
          exact .inr (ran_chronicle ..)
        · subst h
          exact .inl rfl
      | enqueue payload =>
        subst h
        exact .inr rfl
      | readDatabase | readLinks | readProjects | sleep | readStatuses =>
        exact .inl (congrArg World.chronicle h.2)
      | _ =>
        subst h
        exact .inl rfl
  rcases hown with hown | hown
  · exact ⟨hs,[],by rw [hown,hc,append_nil],hall,.inl rfl⟩
  · exact ⟨hs,o.note,by rw [hown,hc],hall,.inr rfl⟩

theorem secrets_dbSem (h : dbSem out o w r w')
    (ho : o.writesSecrets = false) : w'.secrets = w.secrets := by
  cases o with
  | deleteSecrets | insertSecret => cases ho
  | exec containerId argv kind cmd =>
    rcases core_exec "" h with ⟨hc,-⟩ | ⟨-,hc,-⟩
    · exact congrArg Core.secrets hc
    · exact congrArg Core.secrets hc
  | updateCredentials id' pwd connStr =>
    rcases core_updateCredentials h with ⟨hc,-⟩ | ⟨hc,-⟩
    · exact congrArg Core.secrets hc
    · exact congrArg Core.secrets hc
  | _ => exact congrArg Core.secrets ((core_quiet h rfl : w'.core "" = w.core ""))

/-- The chronicle has grown by entries that are all `P`. -/
def World.Adds (P : Happening → Prop) (w w' : World) : Prop :=
  ∃ hs, w'.chronicle = w.chronicle ++ hs ∧ ∀ x ∈ hs, P x

def Happening.isHandled : Happening → Bool
  | .handled .. => true
  | _ => false

section Adds

variable {P : Happening → Prop}

theorem World.Adds.refl (w : World) : w.Adds P w := ⟨[],by simp,by simp⟩

theorem World.Adds.trans {w1 w2 w3 : World} (h : w1.Adds P w2) (h' : w2.Adds P w3) :
    w1.Adds P w3 := by
  obtain ⟨hs,hc,hall⟩ := h
  obtain ⟨hs',hc',hall'⟩ := h'
  refine ⟨hs ++ hs',by rw [hc',hc,append_assoc],fun x hx => ?_⟩
  exact (mem_append.mp hx).elim (hall x) (hall' x)

theorem adds_dbSem (h : dbSem out o w r w')
    (hnote : ∀ x ∈ o.note, P x) (hreport : ∀ x, Report (w.deployEnv out) x → P x) :
    w.Adds P w' := by
  obtain ⟨hs,own,hc,hall,hown⟩ := chronicle_dbSem h
  refine ⟨hs ++ own,by rw [hc,append_assoc],fun x hx => ?_⟩
  rcases mem_append.mp hx with hx | hx
  · exact hreport x (hall x hx)
  · rcases hown with rfl | rfl
    · cases hx
    · exact hnote x hx

theorem isHandled_of_report (h : Report env x) : x.isHandled = true := by
  obtain ⟨job,before,rfl⟩ := h
  rfl

theorem adds_silent (h : dbSem out o w r w')
    (hnote : o.note = []) : w.Adds (Happening.isHandled · = true) w' :=
  adds_dbSem h (by simp [hnote]) fun _ => isHandled_of_report

theorem drops_of_adds (h : w.Adds (Happening.isHandled · = true) w') : w'.drops = w.drops := by
  obtain ⟨hs,hc,hall⟩ := h
  have hnone : hs.filterMap Happening.drop? = [] := by
    rw [filterMap_eq_nil_iff]
    intro x hx
    cases x with
    | dropped containerId user => exact absurd (hall _ hx) (by simp [Happening.isHandled])
    | _ => rfl
  rw [World.drops,hc,filterMap_append,hnone,append_nil]
  rfl

end Adds

/-- The lock was taken in this run. -/
def Acquired (id : String) (log : List DbEvent) : Prop :=
  ⟨.setRotationInProgress id true,.ok ()⟩ ∈ log

def preamble (id : String) : List Query :=
  [.readDatabase id, .generatePassword, .setRotationInProgress id true]

def entry (id : String) (row : Row) (newPwd : String) : List DbEvent :=
  [⟨.readDatabase id,.ok (some row)⟩, ⟨.generatePassword,.ok newPwd⟩,
    ⟨.setRotationInProgress id true,.ok ()⟩]

/-- A run that ends before it has the lock; credentials and lock are as they were. -/
structure Refused (id : String) (w : World) (tr : List DbEvent)
    (r : Except RotationError RotationResult) (w' : World) : Prop where
  acquired : ¬Acquired id tr
  failed : ∃ e, r = .error e
  core : w'.core id = w.core id
  lock : w'.lockOf id = w.lockOf id
  ops : ∀ ev ∈ tr, ev.op ∈ preamble id

theorem refused_nil (e : RotationError) : Refused id w [] (.error e) w :=
  ⟨by simp [Acquired],⟨e,rfl⟩,rfl,rfl,by simp⟩

theorem Refused.cons {r : Except RotationError RotationResult} (h : Refused id w1 tr r w')
    (hs : dbSem out o w a w1) (ho : o ∈ preamble id)
    (hkeep : ∀ lock, lockEffect id ⟨o,a⟩ lock = lock) : Refused id w (⟨o,a⟩ :: tr) r w' where
  acquired hacq := by
    rcases mem_cons.mp hacq with heq | hmem
    · have hset := hkeep (some false)
      rw [← heq] at hset
      simp [lockEffect] at hset
    · exact h.acquired hmem
  failed := h.failed
  core := by
    have hquiet : o.quiet = true := by
      simp only [preamble,mem_cons,not_mem_nil,or_false] at ho
      rcases ho with rfl | rfl | rfl <;> rfl
    rw [h.core,core_quiet hs hquiet]
  lock := by rw [h.lock,lockOf_dbSem id hs,hkeep]
  ops ev hev := by
    rcases mem_cons.mp hev with rfl | hmem
    · exact ho
    · exact h.ops ev hmem

attribute [local simp] preamble

/-- A run is refused, or it has the lock and goes on with the row it has read. -/
theorem runs_rotatePassword {tr : List DbEvent} {r : Except RotationError RotationResult}
    (h : (rotatePassword id).Runs (dbSem out) w tr r w') :
    Refused id w tr r w' ∨
      ∃ row containerId oldPwd oldUser newPwd w1 tr1, w.databases id = some row ∧
        row.rotationInProgress = false ∧ row.containerId = some containerId ∧
        row.masterPassword = some oldPwd ∧ currentUser row = some oldUser ∧
        w1.core id = w.core id ∧ w1.lockOf id = some true ∧
        w.Adds (Happening.isHandled · = true) w1 ∧
        (Prog.tryCatch (rotateLocked (planOf id row containerId oldPwd oldUser newPwd))
          (releaseLock id)).Runs (dbSem out) w1 tr1 r w' ∧
        tr = entry id row newPwd ++ tr1 := by
  rcases runs_bind.mp h with ⟨found,v1,t1,u1,hr1,h1,rfl⟩ | ⟨e,hr1,rfl⟩
  swap
  · obtain ⟨hread,rfl⟩ := runs_perform.mp hr1
    exact .inl ((refused_nil e).cons hread (by simp) fun _ => rfl)
  obtain ⟨hread,rfl⟩ := runs_perform.mp hr1
  cases hc : checkRow id found with
  | error e =>
    rw [hc] at h1
    obtain ⟨rfl,rfl,rfl⟩ := h1
    exact .inl ((refused_nil e).cons hread (by simp) fun _ => rfl)
  | ok plan =>
    rw [hc] at h1
    obtain ⟨row,containerId,oldPwd,oldUser,rfl,hfree,hcid,hpwd,huser,rfl⟩ := checkRow_ok hc
    have hrow : w.databases id = some row := by
      obtain ⟨v,hact,hv,-⟩ := hread
      rw [hact.frame] at hv
      exact hv.symm
    change Prog.Runs (dbSem out) (Prog.bind (query .generatePassword) _) v1 u1 r w' at h1
    rcases runs_bind.mp h1 with ⟨newPwd,v2,t2,u2,hr2,h2,rfl⟩ | ⟨e,hr2,rfl⟩
    swap
    · obtain ⟨hgen,rfl⟩ := runs_perform.mp hr2
      refine .inl (Refused.cons ?_ hread (by simp) fun _ => rfl)
      exact (refused_nil e).cons hgen (by simp) fun _ => rfl
    obtain ⟨hgen,rfl⟩ := runs_perform.mp hr2
    rcases runs_bind.mp h2 with ⟨_,v3,t3,u3,hr3,h3,rfl⟩ | ⟨e,hr3,rfl⟩
    swap
    · obtain ⟨hset,rfl⟩ := runs_perform.mp hr3
      refine .inl (Refused.cons ?_ hread (by simp) fun _ => rfl)
      refine Refused.cons ?_ hgen (by simp) fun _ => rfl
      exact (refused_nil e).cons hset (by simp) fun _ => rfl
    obtain ⟨hset,rfl⟩ := runs_perform.mp hr3
    refine .inr ⟨row,containerId,oldPwd,oldUser,newPwd,v3,u3,hrow,hfree,hcid,hpwd,huser,
      ?_,?_,?_,h3,rfl⟩
    · rw [core_quiet hset rfl,core_quiet hgen rfl,core_quiet hread rfl]
    · rw [lockOf_dbSem id hset,lockOf_dbSem id hgen,lockOf_dbSem id hread]
      simp [lockEffect,World.lockOf,hrow]
    · exact ((adds_silent hread rfl).trans (adds_silent hgen rfl)).trans (adds_silent hset rfl)

end Ploydok.Database
