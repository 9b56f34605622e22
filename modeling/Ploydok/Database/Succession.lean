import Ploydok.Database.Statements

/-! Successive rotations. Each names its user after the one recorded before and then drops that one.
A Redis database always gets `default_new`, so from the second rotation on the user that is dropped
is the one just recorded. -/

namespace Ploydok.Database

open Effect Effect.Prog Option

def Plan.create (p : Plan) : Command := .createUser p.oldUser p.newUser p.newPwd p.database

def Plan.drop (p : Plan) : Command := .dropUser p.oldUser p.newUser p.database

structure Renewal (p : Plan) (k : Core) (dropped : Bool) (k' : Core) : Prop where
  row : ∃ stored, k.row = some stored ∧ stored.kind = p.kind ∧
    stored.containerId = some p.containerId ∧ stored.connectionString = p.oldConnStr ∧
    k'.row = some { stored with masterPassword := some p.newPwd
                                connectionString := p.newConnStr.or p.oldConnStr }
  admitted : admits p.kind p.create (k.users p.containerId) = true
  users : k'.users p.containerId =
    if dropped then runCommand p.kind p.drop (runCommand p.kind p.create (k.users p.containerId))
    else runCommand p.kind p.create (k.users p.containerId)
  drops : k'.drops = k.drops ++ if dropped then [(p.containerId, p.oldUser)] else []

theorem Renewal.dropOld (h : Renewal p k false k') :
    Renewal p k true (k'.ran p.containerId p.kind p.drop) where
  row := h.row
  admitted := h.admitted
  users := by simp [Core.ran,h.users]
  drops := by simp [Core.ran,Plan.drop,h.drops]

section Run

variable {out : Outside} {id containerId : String} {w w' : World} {tr : List DbEvent}
  {α : Type} {p : DbProg α} {r : Except RotationError α} {kind : DbKind}

theorem core_of_quiet_runs
    (hp : p.Calls (Query.quiet · = true)) (h : p.Runs (dbSem out) w tr r w') :
    w'.core id = w.core id :=
  post_of_calls hp (fun v => v.core id = w.core id)
    (fun _ _ _ _ hq hv hs => (core_quiet hs hq).trans hv) rfl _ _ _ h

theorem core_of_quiet_query {r : Except RotationError o.Res} (hq : o.quiet = true)
    (h : (query o).Runs (dbSem out) w tr r w') : w'.core id = w.core id :=
  core_quiet (runs_perform.mp h).1 hq

theorem core_of_secret_runs (id : String)
    (hp : p.Calls (Query.writesSecrets · = true)) (h : p.Runs (dbSem out) w tr r w') :
    w'.core id = { w.core id with secrets := (w'.core id).secrets } := by
  refine post_of_calls hp
    (fun v => v.core id = { w.core id with secrets := (v.core id).secrets }) ?_ rfl _ _ _ h
  intro o v r v' hq hv hs
  cases o with
  | deleteSecrets appId databaseId =>
    rcases core_deleteSecrets id hs with ⟨he,-⟩ | ⟨he,-⟩
    · rw [he]
      exact hv
    · rw [he,hv]
      rfl
  | insertSecret s =>
    rcases core_insertSecret id hs with ⟨he,-⟩ | ⟨he,-⟩
    · rw [he]
      exact hv
    · rw [he,hv]
      rfl
  | _ => cases hq

theorem runs_execInDbContainer (id : String) {r : Except RotationError ExecResult}
    (h : (execInDbContainer containerId kind cmd).Runs (dbSem out) w tr r w') :
    (w'.core id = w.core id ∧ ∀ res, r = .ok res → res.exitCode ≠ 0) ∨
      (admits kind cmd ((w.core id).users containerId) = true ∧
        w'.core id = (w.core id).ran containerId kind cmd ∧
        ∀ res, r = .ok res → res.exitCode = 0) := by
  unfold execInDbContainer at h
  split at h
  · obtain ⟨-,rfl,rfl⟩ := h
    exact .inl ⟨rfl,by simp⟩
  · exact core_exec id (runs_perform.mp h).1

theorem addNewPassword_ok (id : String)
    (h : (addNewPassword containerId kind oldUser newUser newPwd database).Runs (dbSem out) w tr
      (.ok ()) w') :
    admits kind (.createUser oldUser newUser newPwd database)
        ((w.core id).users containerId) = true ∧
      w'.core id = (w.core id).ran containerId kind
        (.createUser oldUser newUser newPwd database) := by
  obtain ⟨res,w1,tr1,tr2,hexec,hrest⟩ := runs_bind_ok h
  split at hrest
  · cases hrest.2.1
  · next hcode =>
    obtain ⟨-,-,rfl⟩ := hrest
    rcases runs_execInDbContainer id hexec with ⟨-,hne⟩ | ⟨ha,hcore,-⟩
    · exact absurd (hne res rfl) hcode
    · exact ⟨ha,hcore⟩

variable {ids : List String} {p : Plan} {res : RotationResult}

theorem runs_writeCredentials (h : (writeCredentials p).Runs (dbSem out) w tr (.ok ids) w') :
    admits p.kind p.create ((w.core p.databaseId).users p.containerId) = true ∧
      ∃ projects w1 tr1, w1.core p.databaseId =
          ((w.core p.databaseId).ran p.containerId p.kind p.create).setCredentials p.newPwd
            p.newConnStr ∧
        (Prog.forEach (w.linksOf p.databaseId) (rewriteLinkSecrets p projects)).Runs (dbSem out)
          w1 tr1 (.ok ()) w' := by
  obtain ⟨_,w1,_,_,hadd,h⟩ := runs_bind_ok h
  obtain ⟨_,w2,_,_,hhist,h⟩ := runs_bind_ok h
  obtain ⟨_,w3,_,_,hupd,h⟩ := runs_bind_ok h
  -- the loop over the links
  obtain ⟨links,w4,_,_,hlinks,h⟩ := runs_bind_ok h
  obtain ⟨projects,w5,_,_,hproj,h⟩ := runs_bind_ok h
  obtain ⟨_,w6,_,_,hloop,-,-,rfl⟩ := runs_bind_ok h
  obtain ⟨hadm,h1⟩ := addNewPassword_ok p.databaseId hadd
  have h2 : w2.core p.databaseId = w1.core p.databaseId := core_of_quiet_query rfl hhist
  have h3 : w3.core p.databaseId = (w2.core p.databaseId).setCredentials p.newPwd p.newConnStr := by
    rcases core_updateCredentials (runs_perform.mp hupd).1 with ⟨-,e,he⟩ | ⟨hc,-⟩
    · cases he
    · exact hc
  obtain ⟨h4,hread⟩ := core_readLinks (runs_perform.mp hlinks).1
  have h5 : w5.core p.databaseId = w4.core p.databaseId :=
    core_of_quiet_runs (calls_readProjectMap _ rfl) hproj
  obtain rfl : links = w.linksOf p.databaseId := by
    rw [hread links rfl,h3,h2,h1]
    rfl
  refine ⟨hadm,projects,w5,_,?_,hloop⟩
  rw [h5,h4,h3,h2,h1]
  rfl

theorem writeCredentials_ok (h : (writeCredentials p).Runs (dbSem out) w tr (.ok ids) w') :
    admits p.kind p.create ((w.core p.databaseId).users p.containerId) = true ∧
      w'.core p.databaseId =
        { ((w.core p.databaseId).ran p.containerId p.kind p.create).setCredentials p.newPwd
            p.newConnStr with secrets := (w'.core p.databaseId).secrets } := by
  obtain ⟨hadm,projects,w1,_,h1,hloop⟩ := runs_writeCredentials h
  have hsecrets := core_of_secret_runs p.databaseId
    (calls_forEach fun link _ => calls_rewriteLinkSecrets p projects link) hloop
  rw [h1] at hsecrets
  exact ⟨hadm,hsecrets⟩

theorem redeployLinkedApps_ok (h : (redeployLinkedApps p ids).Runs (dbSem out) w tr (.ok ()) w') :
    w'.core id = w.core id := by
  obtain ⟨_,w1,_,_,henq,h⟩ := runs_bind_ok h
  have h1 : w1.core id = w.core id :=
    core_of_quiet_runs (calls_forEach fun _ _ => calls_query (P := (Query.quiet · = true)) rfl) henq
  split at h
  · obtain ⟨pollStart,w2,_,_,hnow,h⟩ := runs_bind_ok h
    obtain ⟨allHealthy,w3,_,_,hpoll,h⟩ := runs_bind_ok h
    have h2 : w2.core id = w1.core id := core_of_quiet_query rfl hnow
    have h3 : w3.core id = w2.core id := core_of_quiet_runs
      (calls_mono (calls_pollUntilRunning ..) fun o h => by cases o <;> first | rfl | cases h)
      hpoll
    split at h
    · -- the rollback is followed by an exception
      obtain ⟨_,_,_,_,-,-,hthrow,-⟩ := runs_bind_ok h
      cases hthrow
    · obtain ⟨-,-,rfl⟩ := h
      rw [h3,h2,h1]
  · obtain ⟨-,-,rfl⟩ := h
    exact h1

theorem completeRotation_ok (id : String)
    (h : (completeRotation p ids).Runs (dbSem out) w tr (.ok res) w') :
    w'.core id = w.core id ∨ w'.core id = (w.core id).ran p.containerId p.kind p.drop := by
  obtain ⟨_,w1,_,_,hdrop,h⟩ := runs_bind_ok h
  obtain ⟨rotatedAt,w2,_,_,hnow,h⟩ := runs_bind_ok h
  obtain ⟨_,w3,_,_,hfin,h⟩ := runs_bind_ok h
  obtain ⟨_,w4,_,_,hnot,-,-,rfl⟩ := runs_bind_ok h
  have h2 : w2.core id = w1.core id := core_of_quiet_query rfl hnow
  have h3 : w3.core id = w2.core id := core_of_quiet_query rfl hfin
  have h4 : w'.core id = w3.core id := core_of_quiet_runs
    (calls_tryCatch (calls_query rfl) fun _ => calls_ret _) hnot
  obtain ⟨r,w0,_,_,hexec,-,-,rfl⟩ := runs_bind_ok hdrop
  rw [h4,h3,h2]
  rcases runs_execInDbContainer id hexec with ⟨hc,-⟩ | ⟨-,hc,-⟩
  · exact .inl hc
  · exact .inr hc

theorem rotateLocked_ok (hrow : (w.core p.databaseId).row = some stored)
    (hkind : stored.kind = p.kind) (hcid : stored.containerId = some p.containerId)
    (hurl : stored.connectionString = p.oldConnStr)
    (h : (rotateLocked p).Runs (dbSem out) w tr (.ok res) w') :
    ∃ dropped, Renewal p (w.core p.databaseId) dropped (w'.core p.databaseId) := by
  obtain ⟨ids,w1,_,_,hwrite,h⟩ := runs_bind_ok h
  obtain ⟨_,w2,_,_,hwait,hdone⟩ := runs_bind_ok h
  obtain ⟨hadm,h1⟩ := writeCredentials_ok hwrite
  have h2 : w2.core p.databaseId = w1.core p.databaseId := redeployLinkedApps_ok hwait
  have hwritten : Renewal p (w.core p.databaseId) false (w1.core p.databaseId) := by
    refine ⟨⟨stored,hrow,hkind,hcid,hurl,?_⟩,hadm,?_,?_⟩
    · rw [h1]
      simp [Core.setCredentials,Core.ran,hrow,hurl]
    · rw [h1]
      simp [Core.setCredentials,Core.ran]
    · rw [h1]
      simp [Core.setCredentials,Core.ran,Plan.create]
  rcases completeRotation_ok p.databaseId hdone with hd | hd
  · rw [hd,h2]
    exact ⟨false,hwritten⟩
  · rw [hd,h2]
    exact ⟨true,hwritten.dropOld⟩

theorem rotatePassword_ok (h : (rotatePassword id).Runs (dbSem out) w tr (.ok res) w') :
    ∃ row containerId oldPwd oldUser newPwd dropped,
      w.databases id = some row ∧ currentUser row = some oldUser ∧
        Renewal (planOf id row containerId oldPwd oldUser newPwd) (w.core id) dropped
          (w'.core id) := by
  rcases runs_rotatePassword h with ⟨-,⟨e,he⟩,-⟩ | ⟨row,containerId,oldPwd,oldUser,newPwd,
    w1,_,hfound,-,hcid,-,huser,hcore,-,-,hguarded,-⟩
  · cases he
  · -- the handler always throws, so the guarded part has returned
    rcases runs_tryCatch.mp hguarded with ⟨_,hbody,-⟩ | ⟨e,_,_,_,-,hcatch,-⟩
    swap
    · obtain ⟨_,_,_,_,-,-,hthrow,-⟩ := runs_bind_ok hcatch
      cases hthrow
    have hrow : (w1.core id).row = some row.stored := by
      rw [hcore]
      simp [World.core,hfound]
    obtain ⟨dropped,hren⟩ := rotateLocked_ok hrow rfl hcid rfl hbody
    change Renewal _ (w1.core id) dropped (w'.core id) at hren
    rw [hcore] at hren
    exact ⟨row,containerId,oldPwd,oldUser,newPwd,dropped,hfound,huser,hren⟩

end Run

structure Records (w : World) (id : String) (kind : DbKind) (containerId user pwd : String) :
    Prop where
  row : ∃ row url, w.databases id = some row ∧ row.kind = kind ∧
    row.containerId = some containerId ∧ row.connectionString = some url ∧
    url.user = some user ∧ url.secret = some pwd

def Accepts (w : World) (kind : DbKind) (containerId user pwd : String) : Prop :=
  pwd ∈ w.users containerId (userKey kind user)

instance (w : World) (kind : DbKind) (containerId user pwd : String) :
    Decidable (Accepts w kind containerId user pwd) :=
  inferInstanceAs (Decidable (pwd ∈ w.users containerId (userKey kind user)))

variable {out : Outside} {id containerId user pwd newPwd database : String} {kind : DbKind}
  {w w' : World} {tr : List DbEvent} {res : RotationResult} {users : Users} {dropped : Prop}

theorem Records.unique (h : Records w id kind containerId user pwd)
    (h' : Records w id kind containerId user' pwd') : user = user' ∧ pwd = pwd' := by
  obtain ⟨row,url,hrow,-,-,hurl,hu,hp⟩ := h
  obtain ⟨row',url',hrow',-,-,hurl',hu',hp'⟩ := h'
  obtain rfl := some.inj (hrow.symm.trans hrow')
  obtain rfl := some.inj (hurl.symm.trans hurl')
  exact ⟨some.inj (hu.symm.trans hu'),some.inj (hp.symm.trans hp')⟩

def World.dropCount (w : World) : Nat := w.drops.length

theorem rotation_records (hrec : Records w id kind containerId user pwd)
    (h : (rotatePassword id).Runs (dbSem out) w tr (.ok res) w') :
    ∃ newPwd database, Records w' id kind containerId (newUserOf kind user) newPwd ∧
      admits kind (.createUser user (newUserOf kind user) newPwd database)
        (w.users containerId) = true ∧
      w'.users containerId = (if w.dropCount < w'.dropCount then
          runCommand kind (.dropUser user (newUserOf kind user) database) else fun users => users)
        (runCommand kind (.createUser user (newUserOf kind user) newPwd database)
          (w.users containerId)) := by
  obtain ⟨row,url,hrow,rfl,hcid,hurl,huser,-⟩ := hrec
  obtain ⟨row',cid,oldPwd,oldUser,newPwd,dropped,hrow',hcur,hren⟩ := rotatePassword_ok h
  obtain rfl := some.inj (hrow.symm.trans hrow')
  obtain rfl : user = oldUser := by
    simp only [currentUser,hurl] at hcur
    exact some.inj (huser.symm.trans hcur)
  obtain ⟨stored,hstored,-,hscid,hsurl,hnew⟩ := hren.row
  obtain rfl : row.stored = stored := by
    simpa [World.core,hrow] using hstored
  obtain rfl : containerId = cid := some.inj (hcid.symm.trans hscid)
  refine ⟨newPwd,(planOf id row containerId oldPwd user newPwd).database,?_,hren.admitted,?_⟩
  · obtain ⟨row1,hrow1,hs⟩ := map_eq_some_iff.mp hnew
    refine ⟨row1,rebuildConnectionString url newPwd (newUserOf row.kind user),hrow1,?_,?_,?_,
      user_rebuildConnectionString ..,secret_rebuildConnectionString ..⟩
    · exact congrArg Stored.kind hs
    · exact (congrArg Stored.containerId hs).trans hcid
    · refine (congrArg Stored.connectionString hs).trans ?_
      simp [Plan.newConnStr,planOf,hurl,newUserOf]
  · have hcount : w.dropCount < w'.dropCount ↔ dropped = true := by
      have hlen := congrArg List.length hren.drops
      simp only [List.length_append] at hlen
      change w'.dropCount = w.dropCount + _ at hlen
      cases dropped <;> simp at hlen ⊢ <;> omega
    have husers := hren.users
    cases dropped with
    | false =>
      rw [if_neg (by simp [hcount])]
      exact husers
    | true =>
      rw [if_pos (by simp [hcount])]
      exact husers

theorem accepts_rotation [Decidable dropped] :
    newPwd ∈ (if dropped then runCommand kind (.dropUser user newUser database)
      else fun users => users) (runCommand kind (.createUser user newUser newPwd database) users)
        (userKey kind newUser) ↔
      ¬dropped ∨ userKey kind newUser ≠ userKey kind user ∨
        (kind = .redis ∧ (user = "" ∨ user = "default")) := by
  by_cases hd : dropped
  · rw [if_pos hd]
    by_cases hkey : userKey kind newUser = userKey kind user
    · by_cases hkeep : kind = .redis ∧ (user = "" ∨ user = "default")
      · simp only [runCommand,if_pos hkeep]
        simp [hkeep]
      · simp only [runCommand,if_neg hkeep,hkey]
        simp [hd,hkeep]
    · rw [runCommand_dropUser_of_ne hkey]
      simp [mem_runCommand_createUser,hkey]
  · rw [if_neg hd]
    simp [mem_runCommand_createUser,hd]

/-- Successive rotations that return, with whether the engine carried out a drop, the latest first.
-/
inductive Rotated (out : Outside) (id : String) : List Bool → World → World → Prop
  | refl (w : World) : Rotated out id [] w w
  | next {drops : List Bool} {w w₁ w₂ : World} {tr : List DbEvent}
      {res : RotationResult} (h : Rotated out id drops w w₁)
      (hr : (rotatePassword id).Runs (dbSem out) w₁ tr (.ok res) w₂) :
      Rotated out id (decide (w₁.dropCount < w₂.dropCount) :: drops) w w₂

def KeepsCredentials (kind : DbKind) (user : String) (drops : List Bool) : Prop :=
  kind ≠ .redis ∨ drops.head? ≠ some true ∨ (drops = [true] ∧ user ≠ "default_new")

theorem accepts_rotation_redis [Decidable dropped] :
    newPwd ∈ (if dropped then runCommand .redis (.dropUser user1 "default_new" database)
      else fun users => users)
        (runCommand .redis (.createUser user1 "default_new" newPwd database) users)
        (userKey .redis "default_new") ↔ ¬dropped ∨ user1 ≠ "default_new" := by
  have hkey : userKey .redis "default_new" = "default_new" := rfl
  rw [accepts_rotation,hkey,ne_comm,ne_eq,userKey_redis_eq_iff]
  constructor
  · rintro (h | h | ⟨-,rfl | rfl⟩)
    · exact .inl h
    · exact .inr h
    · exact .inr (by decide)
    · exact .inr (by decide)
  · rintro (h | h)
    · exact .inl h
    · exact .inr (.inl h)

theorem Rotated.recorded (h : Rotated out id drops w w')
    (hrec : Records w id kind containerId user pwd) (hacc : Accepts w kind containerId user pwd) :
    ∃ user' pwd', Records w' id kind containerId user' pwd' ∧
      (drops = [] → user' = user) ∧ (drops ≠ [] → kind = .redis → user' = "default_new") ∧
      (Accepts w' kind containerId user' pwd' ↔ KeepsCredentials kind user drops) := by
  induction h with
  | refl w => exact ⟨user,pwd,hrec,fun _ => rfl,by simp,by simp [hacc,KeepsCredentials]⟩
  | @next drops w w1 w2 tr res _ hr ih =>
    obtain ⟨user1,pwd1,hrec1,hfirst,hlater,hvalid⟩ := ih hrec hacc
    obtain ⟨newPwd,database,hrec2,hadm,husers⟩ := rotation_records hrec1 hr
    refine ⟨_,newPwd,hrec2,by simp,fun _ hk => by simp [newUserOf,hk],?_⟩
    · rw [Accepts,husers]
      by_cases hk : kind = .redis
      · subst hk
        rw [show newUserOf .redis user1 = "default_new" from rfl,accepts_rotation_redis]
        -- the user dropped is the one recorded before: the first one, or `default_new`
        cases drops with
        | nil =>
          obtain rfl := hfirst rfl
          by_cases hd : w1.dropCount < w2.dropCount <;> simp [KeepsCredentials,hd]
        | cons d drops =>
          have hsame : user1 = "default_new" := hlater (by simp) rfl
          simp [KeepsCredentials,hsame]
      · -- the user recorded before exists, so the new one has another name
        have hold : Accepts w1 kind containerId user1 pwd1 := hvalid.mpr (.inl hk)
        have hne := userKey_ne_of_admits hk hadm hold
        rw [accepts_rotation]
        simp [KeepsCredentials,hk,hne]

/-- After any number of successful rotations the recorded credentials are accepted exactly where the
database is not a Redis one, or the latest rotation dropped nobody, or there was one rotation and it
replaced a user other than `default_new`. -/
theorem recorded_credentials_valid_iff (out : Outside) (id : String) (kind : DbKind)
    (containerId user pwd : String) (drops : List Bool) (w w' : World)
    (hrec : Records w id kind containerId user pwd) (hacc : Accepts w kind containerId user pwd)
    (hrot : Rotated out id drops w w') :
    (∃ user' pwd', Records w' id kind containerId user' pwd' ∧
        Accepts w' kind containerId user' pwd') ↔
      kind ≠ .redis ∨ drops.head? ≠ some true ∨ (drops = [true] ∧ user ≠ "default_new") := by
  obtain ⟨user1,pwd1,hrec1,-,-,hvalid⟩ := hrot.recorded hrec hacc
  refine Iff.trans ⟨?_,?_⟩ hvalid
  · rintro ⟨user',pwd',hrec',hacc'⟩
    obtain ⟨rfl,rfl⟩ := hrec1.unique hrec'
    exact hacc'
  · intro h
    exact ⟨user1,pwd1,hrec1,h⟩

/-- A rotation without failures, by the clockwork of `serve`. -/
def rotatedOnce (w : World) : World :=
  ((rotatePassword "shop").exec (serve Shop.outside Shop.calm) w).2

theorem rotated_rotatedOnce (h : Rotated Shop.outside "shop" drops w w')
    (hok : ((rotatePassword "shop").exec (serve Shop.outside Shop.calm) w').1 = .ok res) :
    Rotated Shop.outside "shop" (decide (w'.dropCount < (rotatedOnce w').dropCount) :: drops) w
      (rotatedOnce w') := by
  have hr := runs_exec (dbSem_serve Shop.outside Shop.calm) (rotatePassword "shop") w'
  rw [hok] at hr
  exact h.next hr

theorem Shop.records (kind : DbKind) (user pwd : String) (links : List Link)
    (hu : (Shop.url user pwd).user = some user) (hp : (Shop.url user pwd).secret = some pwd) :
    Records (Shop.world kind user pwd links) "shop" kind "c1" user pwd :=
  ⟨Shop.row kind user pwd,Shop.url user pwd,rfl,rfl,rfl,rfl,hu,hp⟩

theorem recorded_credentials_valid_two_rotations : ∃ user' pwd',
      Records (rotatedOnce (rotatedOnce (Shop.world .postgres "ploydok" "old" []))) "shop"
        .postgres "c1" user' pwd' ∧
      Accepts (rotatedOnce (rotatedOnce (Shop.world .postgres "ploydok" "old" []))) .postgres "c1"
        user' pwd' :=
  (recorded_credentials_valid_iff Shop.outside "shop" .postgres "c1" "ploydok" "old" _
    (Shop.world .postgres "ploydok" "old" []) _ (Shop.records _ _ _ _ rfl rfl) (by decide)
    (rotated_rotatedOnce (rotated_rotatedOnce (.refl _) rfl) rfl)).mpr (.inl (by decide))

theorem second_redis_rotation_locks_out :
    ¬∀ (out : Outside) (id : String) (kind : DbKind) (containerId user pwd : String)
      (drops : List Bool) (w w' : World), Records w id kind containerId user pwd →
      Accepts w kind containerId user pwd → Rotated out id drops w w' →
      ∃ user' pwd', Records w' id kind containerId user' pwd' ∧
        Accepts w' kind containerId user' pwd' := by
  intro hall
  obtain ⟨user',pwd',hrec,hacc⟩ := hall Shop.outside "shop" .redis "c1" "" "old" _
    (Shop.world .redis "" "old" []) _ (Shop.records _ _ _ _ rfl rfl) (by decide)
    (rotated_rotatedOnce (rotated_rotatedOnce (.refl _) rfl) rfl)
  have hlast : Records (rotatedOnce (rotatedOnce (Shop.world .redis "" "old" []))) "shop" .redis
      "c1" "default_new" "pw1" := ⟨_,_,rfl,rfl,rfl,rfl,rfl,rfl⟩
  obtain ⟨rfl,rfl⟩ := hlast.unique hrec
  exact absurd hacc (by decide)

end Ploydok.Database
