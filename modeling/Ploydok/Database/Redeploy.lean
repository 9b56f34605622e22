import Ploydok.Database.LinkSecrets
import Ploydok.Database.Succession

/-! Whether linked apps run with the new credentials when the old user is dropped. A rotation
enqueues one job per linked app and waits until all apps are running; but the handler's schema
rejects the kind of these jobs, so none of them starts anything. -/

namespace Ploydok.Database

open Effect Effect.Prog Deploy List

/-- `y` happened after `x` and before `z`. -/
def Within (hs : List Happening) (x y z : Happening) : Prop :=
  ∃ a b c d, hs = a ++ x :: (b ++ y :: c) ++ z :: d

variable {pre mid post : List Happening}

theorem Within.mem (h : Within (pre ++ mid ++ z :: post) x y z) (hx : x ∉ pre) (hz : z ∉ pre ++ mid)
    (hpost : z ∉ post) : y ∈ mid := by
  obtain ⟨a,b,c,d,h⟩ := h
  obtain ⟨hfront,-,-⟩ := (append_cons_inj_of_notMem hz hpost).mp h
  rcases append_eq_append_iff.mp hfront with ⟨t,rfl,ht⟩ | ⟨t,rfl,ht⟩
  · rw [ht]
    simp
  · cases t with
    | nil =>
      rw [← nil_append mid,← ht]
      simp
    | cons x' t =>
      obtain ⟨rfl,-⟩ := cons.inj ht
      simp at hx

def Plan.newVars (p : Plan) (link : Link) : List (String × String) :=
  match p.newConnStr with
  | none => []
  | some url => buildSecretVars p.kind url link.envPrefix p.newUser p.newPwd

def Notice (env : Deploy.Env) (x : Happening) : Prop :=
  (∃ appId, x = .enqueued (redeployPayload appId)) ∨ Report env x

structure Handover (p : Plan) (env : Deploy.Env) (pre mid post hs : List Happening) : Prop where
  split : hs = pre ++ mid ++ .dropped p.containerId p.oldUser :: post
  pre : ∀ x ∈ pre, x.isHandled = true
  mid : ∀ x ∈ mid, Notice env x
  post : ∀ x ∈ post, x.isHandled = true

variable {hs : List Happening}

theorem not_mem_of_isHandled (h : ∀ x ∈ hs, x.isHandled = true) (hx : x.isHandled = false) :
    x ∉ hs := by
  intro hmem
  rw [h x hmem] at hx
  cases hx

variable {env : Deploy.Env}

theorem Handover.report (h : Handover p env pre mid post hs)
    (hw : Within hs (.enqueued (redeployPayload appId)) (.handled job before result)
      (.dropped p.containerId p.oldUser)) : result = (handleDeploy env job before).1 := by
  have hdrop : .dropped p.containerId p.oldUser ∉ pre ++ mid := by
    rw [mem_append]
    rintro (hmem | hmem)
    · exact not_mem_of_isHandled h.pre rfl hmem
    · rcases h.mid _ hmem with ⟨appId,he⟩ | ⟨job,before,he⟩
      · cases he
      · cases he
  rw [h.split] at hw
  have hmem := hw.mem (not_mem_of_isHandled h.pre rfl) hdrop (not_mem_of_isHandled h.post rfl)
  rcases h.mid _ hmem with ⟨appId,he⟩ | ⟨job',before',he⟩
  · cases he
  · cases he
    rfl

theorem Handover.extend (h : Handover p env pre mid post hs)
    (hfront : ∀ x ∈ front, x.isHandled = true) (hback : ∀ x ∈ back, x.isHandled = true) :
    Handover p env (front ++ pre) mid (post ++ back) (front ++ hs ++ back) where
  split := by simp [h.split]
  pre x hx := (mem_append.mp hx).elim (hfront x) (h.pre x)
  mid := h.mid
  post x hx := (mem_append.mp hx).elim (h.post x) (hback x)

/-! ### The parts of a rotation -/

section Runs

variable {out : Outside} {w w' : World} {tr : List DbEvent} {p : Plan} {α : Type} {prog : DbProg α}
  {r : Except RotationError α} {o : Query}

theorem adds_of_runs (hp : prog.Calls (Query.note · = [])) (h : prog.Runs (dbSem out) w tr r w') :
    w.Adds (Happening.isHandled · = true) w' :=
  post_of_calls hp (fun v => w.Adds _ v)
    (fun _ _ _ _ ho hv hs => hv.trans (adds_silent hs ho)) (.refl w) _ _ _ h

theorem drops_of_runs (hp : prog.Calls (Query.note · = [])) (h : prog.Runs (dbSem out) w tr r w') :
    w'.drops = w.drops :=
  drops_of_adds (adds_of_runs hp h)

theorem note_of_prepares (h : o.prepares = true) : o.note = [] := by
  cases o with
  | exec containerId argv kind cmd =>
    cases cmd with
    | createUser => rfl
    | dropUser => cases h
  | enqueue => cases h
  | _ => rfl

theorem deployEnv_congr (h : w'.secrets = w.secrets) : w'.deployEnv out = w.deployEnv out := by
  have henv : w'.appEnv = w.appEnv := by
    funext appId
    simp only [World.appEnv,h]
  simp only [World.deployEnv,henv]

def Query.announces (o : Query) : Prop :=
  o.writesSecrets = false ∧ ∀ x ∈ o.note, ∃ appId, x = .enqueued (redeployPayload appId)

theorem announces_of_polls (h : o.polls = true) : o.announces := by
  cases o with
  | now | sleep | readStatuses => exact ⟨rfl,by simp [Query.note]⟩
  | _ => cases h

def Announces (out : Outside) (w w' : World) : Prop :=
  w'.secrets = w.secrets ∧ w.Adds (Notice (w.deployEnv out)) w'

theorem Announces.refl (w : World) : Announces out w w := ⟨rfl,.refl w⟩

theorem Announces.trans (h : Announces out w1 w2) (h' : Announces out w2 w3) :
    Announces out w1 w3 := by
  refine ⟨h'.1.trans h.1,h.2.trans ?_⟩
  rw [← deployEnv_congr h.1]
  exact h'.2

theorem announces_of_runs (hp : prog.Calls Query.announces) (h : prog.Runs (dbSem out) w tr r w') :
    Announces out w w' := by
  refine post_of_calls hp (Announces out w) (fun o v r v' ho hv hs => ?_) (.refl w) _ _ _ h
  refine hv.trans ⟨secrets_dbSem hs ho.1,adds_dbSem hs (fun x hx => .inl (ho.2 x hx)) ?_⟩
  exact fun x hx => .inr hx

theorem Announces.drops (h : Announces out w w') : w'.drops = w.drops := by
  obtain ⟨-,hs,hc,hall⟩ := h
  have hnone : hs.filterMap Happening.drop? = [] := by
    rw [filterMap_eq_nil_iff]
    intro x hx
    rcases hall x hx with ⟨appId,rfl⟩ | ⟨job,before,rfl⟩ <;> rfl
  rw [World.drops,hc,filterMap_append,hnone,append_nil]
  rfl

theorem vars_subset_appEnv (w : World) (id id' appId : String) :
    (w.core id).vars id' appId ⊆ w.appEnv appId := by
  intro kv hkv
  simp only [Core.vars,World.core,mem_map,mem_filter,decide_eq_true_eq] at hkv
  obtain ⟨s,⟨hs,happ,-⟩,rfl⟩ := hkv
  simp only [World.appEnv,mem_map,mem_filter,decide_eq_true_eq]
  exact ⟨s,⟨hs,happ⟩,rfl⟩

variable {ids : List String}

theorem newVars_stored (h : (writeCredentials p).Runs (dbSem out) w tr (.ok ids) w')
    (hone : ((w.linksOf p.databaseId).map (·.appId)).Nodup) :
    ∀ link ∈ w.linksOf p.databaseId, p.newVars link ⊆ w'.appEnv link.appId := by
  intro link hlink kv hkv
  unfold Plan.newVars at hkv
  split at hkv
  · cases hkv
  · next url hurl =>
    obtain ⟨-,projects,w1,_,-,hloop⟩ := runs_writeCredentials h
    rw [funext fun link => rewriteLinkSecrets_eq hurl projects link] at hloop
    have hall := post_logged (post_putAllSecrets projects
      (fun link => buildSecretVars p.kind url link.envPrefix p.newUser p.newPwd)
      (fun link => nodup_keys_buildSecretVars ..) _ hone) hloop
    exact vars_subset_appEnv _ _ _ _ ((hall.2.1 link hlink kv hkv kv.2).mpr rfl)

def Marked (tr : List DbEvent) : Prop :=
  ∃ appId r, ⟨.enqueue (rollbackPayload appId),r⟩ ∈ tr

variable {r : Except RotationError Unit} {t u : List DbEvent} {containerId oldUser id : String}
  {plan : String → Plan}

theorem restoreCredentials_drops
    (hids : ids ≠ []) (h : (restoreCredentials p ids).Runs (dbSem out) w tr r w') :
    w'.drops = w.drops ∨ Marked tr := by
  have hupd : (query (.updateCredentials p.databaseId p.oldPwd p.oldConnStr)).Calls
      (Query.note · = []) := calls_query rfl
  have hlinks : (eachLink p.databaseId (restoreLinkSecrets p)).Calls (Query.note · = []) :=
    calls_eachLink _ (fun projects link =>
      calls_mono (calls_restoreLinkSecrets p projects link) fun _ ho =>
        note_of_prepares (prepares_of_writesSecrets ho)) rfl fun _ => rfl
  rcases runs_bind.mp h with ⟨_,w1,t1,u1,h1,k1,rfl⟩ | ⟨e,h1,rfl⟩
  swap
  · exact .inl (drops_of_runs hupd h1)
  rcases runs_bind.mp k1 with ⟨_,w2,t2,u2,h2,k2,rfl⟩ | ⟨e,h2,rfl⟩
  swap
  · exact .inl ((drops_of_runs hlinks h2).trans (drops_of_runs hupd h1))
  -- the first job of the loop is attempted in any case
  obtain ⟨appId,ids,rfl⟩ := exists_cons_of_ne_nil hids
  have hfirst : ∀ {t : List DbEvent} {r : Except RotationError Unit} {v v' : World},
      (Prog.forEach (appId :: ids) fun appId =>
        (query (.enqueue (rollbackPayload appId))).tryCatch fun _ => return ()).Runs (dbSem out)
        v t r v' → Marked t := by
    rintro t r v v' ⟨a,v1,t',-,rfl,-⟩
    exact ⟨appId,a,by simp⟩
  right
  rcases runs_bind.mp k2 with ⟨_,w3,t3,u3,h3,-,rfl⟩ | ⟨e,h3,rfl⟩
  · obtain ⟨appId',r',hmem⟩ := hfirst h3
    exact ⟨appId',r',by simp [hmem]⟩
  · obtain ⟨appId',r',hmem⟩ := hfirst h3
    exact ⟨appId',r',by simp [hmem]⟩

theorem Marked.append_left (h : Marked t) : Marked (t ++ u) := by
  obtain ⟨appId,r,hmem⟩ := h
  exact ⟨appId,r,mem_append_left _ hmem⟩

theorem Marked.append_right (h : Marked u) : Marked (t ++ u) := by
  obtain ⟨appId,r,hmem⟩ := h
  exact ⟨appId,r,mem_append_right _ hmem⟩

theorem rollbackRotation_drops
    (hids : ids ≠ []) (h : (rollbackRotation p ids).Runs (dbSem out) w tr r w') :
    w'.drops = w.drops ∨ Marked tr := by
  have hattempt : ∀ {t : List DbEvent} {r : Except RotationError Unit} {v : World},
      ((restoreCredentials p ids).tryCatch fun _ => return ()).Runs (dbSem out) w t r v →
        v.drops = w.drops ∨ Marked t := by
    intro t r v hr
    rcases runs_tryCatch.mp hr with ⟨a,h1,-⟩ | ⟨e,v1,t1,t2,h1,⟨rfl,-,rfl⟩,rfl⟩
    · exact restoreCredentials_drops hids h1
    · rw [append_nil]
      exact restoreCredentials_drops hids h1
  rcases runs_bind.mp h with ⟨_,w1,t1,u1,h1,k1,rfl⟩ | ⟨e,h1,-⟩
  · obtain ⟨_,h1,-⟩ := runs_attempt.mp h1
    have hlast := drops_of_runs (calls_bind (calls_query rfl) fun _ => calls_ofExcept _) k1
    rcases hattempt h1 with hd | hm
    · exact .inl (hlast.trans hd)
    · exact .inr hm.append_left
  · obtain ⟨_,-,he⟩ := runs_attempt.mp h1
    cases he

theorem runs_redeployLinkedApps (h : (redeployLinkedApps p ids).Runs (dbSem out) w tr r w') :
    Announces out w w' ∨ ((∃ e, r = .error e) ∧ (w'.drops = w.drops ∨ Marked tr)) := by
  have hloop : (Prog.forEach ids fun appId => query (.enqueue (redeployPayload appId))).Calls
      Query.announces :=
    calls_forEach fun appId _ => calls_query ⟨rfl,by simp [Query.note]⟩
  rcases runs_bind.mp h with ⟨_,w1,t1,u1,h1,k1,rfl⟩ | ⟨e,h1,rfl⟩
  swap
  · exact .inl (announces_of_runs hloop h1)
  have ha1 := announces_of_runs hloop h1
  split at k1
  swap
  · obtain ⟨-,-,rfl⟩ := k1
    exact .inl ha1
  next hids =>
  rcases runs_bind.mp k1 with ⟨pollStart,w2,t2,u2,h2,k2,rfl⟩ | ⟨e,h2,rfl⟩
  swap
  · exact .inl (ha1.trans (announces_of_runs (calls_query (announces_of_polls rfl)) h2))
  have ha2 := ha1.trans (announces_of_runs (calls_query (announces_of_polls rfl)) h2)
  have hpoll : (pollUntilRunning ids pollStart (pollTimeoutMs / pollIntervalMs)).Calls
      Query.announces := calls_mono (calls_pollUntilRunning ..) fun _ => announces_of_polls
  rcases runs_bind.mp k2 with ⟨allHealthy,w3,t3,u3,h3,k3,rfl⟩ | ⟨e,h3,rfl⟩
  swap
  · exact .inl (ha2.trans (announces_of_runs hpoll h3))
  have ha3 := ha2.trans (announces_of_runs hpoll h3)
  split at k3
  swap
  · obtain ⟨-,-,rfl⟩ := k3
    exact .inl ha3
  right
  rcases runs_bind.mp k3 with ⟨_,w4,t4,u4,h4,⟨rfl,rfl,rfl⟩,rfl⟩ | ⟨e,h4,rfl⟩
  · refine ⟨⟨_,rfl⟩,(rollbackRotation_drops hids h4).imp (·.trans ha3.drops) fun hm => ?_⟩
    exact hm.append_left.append_right.append_right.append_right
  · refine ⟨⟨_,rfl⟩,(rollbackRotation_drops hids h4).imp (·.trans ha3.drops) fun hm => ?_⟩
    exact hm.append_right.append_right.append_right

theorem runs_dropOldUser
    (h : (dropOldUser containerId kind oldUser newUser database).Runs (dbSem out) w tr r w') :
    w'.drops = w.drops ∨ ∃ mid, (∀ x ∈ mid, Report (w.deployEnv out) x) ∧
      w'.chronicle = w.chronicle ++ mid ++ [.dropped containerId oldUser] := by
  have hexec : ∃ t r, (execInDbContainer containerId kind
      (.dropUser oldUser newUser database)).Runs (dbSem out) w t r w' := by
    rcases runs_bind.mp h with ⟨_,w1,t1,u1,h1,⟨-,-,rfl⟩,-⟩ | ⟨e,h1,-⟩
    · exact ⟨_,_,h1⟩
    · exact ⟨_,_,h1⟩
  obtain ⟨t,r,hexec⟩ := hexec
  unfold execInDbContainer at hexec
  split at hexec
  · obtain ⟨-,-,rfl⟩ := hexec
    exact .inl rfl
  · obtain ⟨hs,own,hc,hall,rfl | rfl⟩ := chronicle_dbSem (runs_perform.mp hexec).1
    · exact .inl (drops_of_adds ⟨hs,by rw [hc,append_nil],
        fun x hx => isHandled_of_report (hall x hx)⟩)
    · exact .inr ⟨hs,hall,hc⟩

theorem runs_completeRotation {r : Except RotationError RotationResult}
    (h : (completeRotation p ids).Runs (dbSem out) w tr r w') :
    w'.drops = w.drops ∨ ∃ mid post, (∀ x ∈ mid, Report (w.deployEnv out) x) ∧
      (∀ x ∈ post, x.isHandled = true) ∧
      w'.chronicle = w.chronicle ++ mid ++ .dropped p.containerId p.oldUser :: post := by
  rcases runs_bind.mp h with ⟨_,w1,t1,u1,h1,k1,-⟩ | ⟨e,h1,-⟩
  · have hadds : w1.Adds (Happening.isHandled · = true) w' := by
      refine adds_of_runs ?_ k1
      refine calls_bind (calls_query rfl) fun rotatedAt => ?_
      refine calls_bind (calls_query rfl) fun _ => ?_
      refine calls_bind ?_ fun _ => calls_ret _
      exact calls_tryCatch (calls_query rfl) fun _ => calls_ret _
    rcases runs_dropOldUser h1 with hd | ⟨mid,hmid,hc⟩
    · exact .inl ((drops_of_adds hadds).trans hd)
    · obtain ⟨post,hc',hpost⟩ := hadds
      exact .inr ⟨mid,post,hmid,hpost,by rw [hc',hc,append_assoc _ [_]]; rfl⟩
  · rcases runs_dropOldUser h1 with hd | ⟨mid,hmid,hc⟩
    · exact .inl hd
    · exact .inr ⟨mid,[],hmid,by simp,hc⟩

theorem handover_rotateLocked {r : Except RotationError RotationResult}
    (h : (rotateLocked p).Runs (dbSem out) w tr r w') (hdrop : w'.drops ≠ w.drops)
    (hkept : ¬Marked tr) (hone : ((w.linksOf p.databaseId).map (·.appId)).Nodup) :
    ∃ (v : World) (pre mid post hs : List Happening), w'.chronicle = w.chronicle ++ hs ∧
      Handover p (v.deployEnv out) pre mid post hs ∧
      ∀ link ∈ w.linksOf p.databaseId, p.newVars link ⊆ v.appEnv link.appId := by
  have hwrite : (writeCredentials p).Calls (Query.note · = []) :=
    calls_mono (calls_writeCredentials p) fun _ => note_of_prepares
  rcases runs_bind.mp h with ⟨ids,w1,t1,u1,h1,k1,rfl⟩ | ⟨e,h1,-⟩
  swap
  · exact absurd (drops_of_runs hwrite h1) hdrop
  have hadds := adds_of_runs hwrite h1
  rcases runs_bind.mp k1 with ⟨_,w2,t2,u2,h2,k2,rfl⟩ | ⟨e,h2,-⟩
  swap
  · rcases runs_redeployLinkedApps h2 with ha | ⟨-,hd | hm⟩
    · exact absurd (ha.drops.trans (drops_of_adds hadds)) hdrop
    · exact absurd (hd.trans (drops_of_adds hadds)) hdrop
    · exact absurd hm.append_right hkept
  rcases runs_redeployLinkedApps h2 with ha | ⟨⟨e,he⟩,-⟩
  swap
  · cases he
  rcases runs_completeRotation k2 with hd | ⟨mid2,post,hmid2,hpost,hc2⟩
  · exact absurd (hd.trans (ha.drops.trans (drops_of_adds hadds))) hdrop
  obtain ⟨pre,hc,hpre⟩ := hadds
  obtain ⟨hsec,mid,hc1,hmid⟩ := ha
  rw [deployEnv_congr hsec] at hmid2
  refine ⟨w1,pre,mid ++ mid2,post,_,?_,⟨rfl,hpre,fun x hx => ?_,hpost⟩,newVars_stored h1 hone⟩
  · rw [hc2,hc1,hc]
    simp
  · exact (mem_append.mp hx).elim (hmid x) fun hx => .inr (hmid2 x hx)

theorem checkRow_eq_planOf (h : checkRow id (some row) = .ok plan)
    (hcid : row.containerId = some containerId) (hpwd : row.masterPassword = some oldPwd)
    (huser : currentUser row = some oldUser) : plan = planOf id row containerId oldPwd oldUser := by
  obtain ⟨row',containerId',oldPwd',oldUser',hrow,-,hcid',hpwd',huser',rfl⟩ := checkRow_ok h
  obtain rfl := Option.some.inj hrow
  obtain rfl := Option.some.inj (hcid.symm.trans hcid')
  obtain rfl := Option.some.inj (hpwd.symm.trans hpwd')
  obtain rfl := Option.some.inj (huser.symm.trans huser')
  rfl

theorem handover_rotatePassword {newPwd : String} {r : Except RotationError RotationResult}
    (hcheck : checkRow id (w.databases id) = .ok plan) (hone : ((w.linksOf id).map (·.appId)).Nodup)
    (hrun : (rotatePassword id).Runs (dbSem out) w tr r w')
    (hpwd : ∀ pwd, ⟨.generatePassword,.ok pwd⟩ ∈ tr → pwd = newPwd) (hkept : ¬Marked tr)
    (hhs : w'.chronicle = w.chronicle ++ hs) (hdrop : w'.drops ≠ w.drops) :
    ∃ (v : World) (pre mid post : List Happening),
      Handover (plan newPwd) (v.deployEnv out) pre mid post hs ∧
      ∀ link ∈ w.linksOf id, (plan newPwd).newVars link ⊆ v.appEnv link.appId := by
  rcases runs_rotatePassword hrun with href | ⟨row,containerId,oldPwd,oldUser,newPwd',w1,tr1,
    hrow,-,hcid,hmaster,huser,hcore,-,hbefore,hguarded,rfl⟩
  · exact absurd (congrArg Core.drops href.core) hdrop
  obtain rfl : newPwd' = newPwd := hpwd newPwd' (by simp [entry])
  rw [hrow] at hcheck
  obtain rfl := checkRow_eq_planOf hcheck hcid hmaster huser
  have hlinks : w1.linksOf id = w.linksOf id := by
    have hsame : w1.links = w.links := congrArg Core.links hcore
    rw [World.linksOf,hsame]
    rfl
  have hdrops : w1.drops = w.drops := congrArg Core.drops hcore
  -- the handler of the guarded part adds nothing of its own
  obtain ⟨v1,t,r',hbody,hsub,hafter⟩ : ∃ v1 t r',
      (rotateLocked (planOf id row containerId oldPwd oldUser newPwd')).Runs (dbSem out) w1 t r'
        v1 ∧
        (Marked t → Marked tr1) ∧ v1.Adds (Happening.isHandled · = true) w' := by
    rcases runs_tryCatch.mp hguarded with ⟨a,h1,-⟩ | ⟨e,v1,t1,t2,h1,h2,rfl⟩
    · exact ⟨_,_,_,h1,fun hm => hm,.refl w'⟩
    · exact ⟨_,_,_,h1,Marked.append_left,adds_of_runs (calls_releaseLock e rfl) h2⟩
  have hdrop1 : v1.drops ≠ w1.drops := by
    rw [hdrops,← drops_of_adds hafter]
    exact hdrop
  obtain ⟨v,pre,mid,post,hs',hc,hover,hvars⟩ := handover_rotateLocked hbody hdrop1
    (fun hm => hkept (hsub hm).append_right) (hlinks ▸ hone)
  obtain ⟨front,hcf,hfront⟩ := hbefore
  obtain ⟨back,hcb,hback⟩ := hafter
  obtain rfl : hs = front ++ hs' ++ back := by
    have hall : w.chronicle ++ hs = w.chronicle ++ (front ++ hs' ++ back) := by
      rw [← hhs,hcb,hc,hcf]
      simp
    exact append_cancel_left hall
  exact ⟨v,_,_,_,hover.extend hfront hback,hlinks ▸ hvars⟩

end Runs

def World.running (w : World) (appId : String) : Bool :=
  (w.deploys.app? appId).any (·.status = .running)

theorem deployable_congr (ha : env.hasAccess = env'.hasAccess)
    (hs : env.isStaticWorkspace = env'.isStaticWorkspace) :
    Deployable env job s appId ↔ Deployable env' job s appId := by
  have hstart : ∀ update build app, Startable env update build app ↔
      Startable env' update build app := by
    intro update build app
    constructor
    · rintro ⟨himage,hgit,haccess,hmethod⟩
      exact ⟨himage,hs ▸ hgit,ha ▸ haccess,hmethod⟩
    · rintro ⟨himage,hgit,haccess,hmethod⟩
      exact ⟨himage,hs ▸ hgit,ha ▸ haccess,hmethod⟩
  simp only [Deployable,hstart]

/-- In a run that drops the old user, every linked app that was running has been started with the
new credentials before the drop exactly if for each of them the worker has handled a deployable job
in that time. -/
theorem redeployed_before_drop_iff (out : Outside) (id newPwd : String) (plan : String → Plan)
    (w w' : World) (tr : List DbEvent) (r : Except RotationError RotationResult)
    (hs : List Happening) (hcheck : checkRow id (w.databases id) = .ok plan)
    (hone : ((w.linksOf id).map (·.appId)).Nodup)
    (hrun : (rotatePassword id).Runs (dbSem out) w tr r w')
    (hpwd : ∀ pwd, ⟨.generatePassword,.ok pwd⟩ ∈ tr → pwd = newPwd) (hkept : ¬Marked tr)
    (hhs : w'.chronicle = w.chronicle ++ hs)
    (hdrop : .dropped (plan newPwd).containerId (plan newPwd).oldUser ∈ hs) :
    (∀ link ∈ w.linksOf id, w.running link.appId = true → ∃ job before vars,
        Within hs (.enqueued (redeployPayload link.appId))
          (.handled job before (.started link.appId vars))
          (.dropped (plan newPwd).containerId (plan newPwd).oldUser) ∧
        (plan newPwd).newVars link ⊆ vars) ↔
      ∀ link ∈ w.linksOf id, w.running link.appId = true → ∃ job before result,
        Within hs (.enqueued (redeployPayload link.appId)) (.handled job before result)
          (.dropped (plan newPwd).containerId (plan newPwd).oldUser) ∧
        Deployable (w.deployEnv out) job before link.appId := by
  have hdrops : w'.drops ≠ w.drops := by
    rw [World.drops,hhs,filterMap_append]
    intro he
    have hnone := filterMap_eq_nil_iff.mp (append_right_eq_self.mp he) _ hdrop
    cases hnone
  obtain ⟨v,pre,mid,post,hover,hvars⟩ :=
    handover_rotatePassword hcheck hone hrun hpwd hkept hhs hdrops
  have henv : ∀ job before appId, Deployable (w.deployEnv out) job before appId ↔
      Deployable (v.deployEnv out) job before appId := fun _ _ _ => deployable_congr rfl rfl
  refine forall_congr' fun link => forall_congr' fun hlink => forall_congr' fun _ => ?_
  constructor
  · rintro ⟨job,before,vars,hw,-⟩
    have hstart := handleDeploy_started_iff.mp (hover.report hw).symm
    exact ⟨job,before,_,hw,(henv ..).mpr hstart.1⟩
  · rintro ⟨job,before,result,hw,hd⟩
    have hstart : result = .started link.appId (v.appEnv link.appId) :=
      (hover.report hw).trans (handleDeploy_started_iff.mpr ⟨(henv ..).mp hd,rfl⟩)
    subst hstart
    exact ⟨job,before,_,hw,hvars link hlink⟩

namespace Shop

def plan : String → Plan := planOf "shop" (row .postgres "ploydok" "old") "c1" "old" "ploydok"

def straight : DbEvent → Bool
  | ⟨.generatePassword,.ok pwd⟩ => pwd == "pw0"
  | ⟨.enqueue payload,_⟩ => payload.kind != some "rotation_rollback"
  | _ => true

theorem password_of_straight {tr : List DbEvent} (h : tr.all straight = true) (pwd : String)
    (hpwd : ⟨.generatePassword,.ok pwd⟩ ∈ tr) : pwd = "pw0" :=
  beq_iff_eq.mp (all_eq_true.mp h _ hpwd)

theorem not_marked_of_straight (h : tr.all straight = true) : ¬Marked tr := by
  rintro ⟨appId,r,hmem⟩
  exact absurd (all_eq_true.mp h _ hmem) (by simp [straight,rollbackPayload])

def busy : World :=
  { linked with deploys := ⟨[app],[⟨"b1","web",.pending,none⟩]⟩
                queue := [{ buildId := some "b1" }] }

def rejected (before : Deploy.State) : Happening :=
  .handled ⟨"",redeployPayload "web",1⟩ before
    (.invalid ⟨["kind"],"Invalid input: expected \"tag\""⟩)

def startsNothing : Happening → Bool
  | .handled _ _ (.started ..) => false
  | _ => true

end Shop

theorem redeployed_before_drop_by_other_job : ∃ job before vars,
      Within (Shop.attempt Shop.calm Shop.busy).2.chronicle (.enqueued (redeployPayload "web"))
        (.handled job before (.started "web" vars)) (.dropped "c1" "ploydok") ∧
      (Shop.plan "pw0").newVars Shop.link ⊆ vars := by
  refine (redeployed_before_drop_iff Shop.outside "shop" "pw0" Shop.plan Shop.busy _ _ _
    (Shop.attempt Shop.calm Shop.busy).2.chronicle rfl (by decide)
    (Shop.runs_attempt Shop.calm Shop.busy) (Shop.password_of_straight rfl)
    (Shop.not_marked_of_straight rfl) rfl (by decide)).mpr (fun link hlink _ => ?_) Shop.link
    (mem_singleton.mpr rfl) rfl
  obtain rfl : link = Shop.link := mem_singleton.mp hlink
  refine ⟨⟨"",{ buildId := some "b1" },1⟩,Shop.busy.deploys,
    .started "web" ((Shop.plan "pw0").newVars Shop.link),
    ⟨[],[],[Shop.rejected ⟨[Shop.app],[⟨"b1","web",.succeeded,none⟩]⟩],[],rfl⟩,?_⟩
  have hstart : (handleDeploy (Shop.busy.deployEnv Shop.outside)
      ⟨"",{ buildId := some "b1" },1⟩ Shop.busy.deploys).1 = .started "web" _ := rfl
  exact (handleDeploy_started_iff.mp hstart).1

/-- Nobody else deploys the linked app: it keeps running with the old password, whose user is
dropped. -/
theorem running_app_stranded :
    ¬∀ (out : Outside) (id newPwd : String) (plan : String → Plan) (w w' : World)
      (tr : List DbEvent) (r : Except RotationError RotationResult) (hs : List Happening),
      checkRow id (w.databases id) = .ok plan → ((w.linksOf id).map (·.appId)).Nodup →
      (rotatePassword id).Runs (dbSem out) w tr r w' →
      (∀ pwd, ⟨.generatePassword,.ok pwd⟩ ∈ tr → pwd = newPwd) → ¬Marked tr →
      w'.chronicle = w.chronicle ++ hs →
      .dropped (plan newPwd).containerId (plan newPwd).oldUser ∈ hs →
      ∀ link ∈ w.linksOf id, w.running link.appId = true → ∃ job before vars,
        Within hs (.enqueued (redeployPayload link.appId))
          (.handled job before (.started link.appId vars))
          (.dropped (plan newPwd).containerId (plan newPwd).oldUser) ∧
        (plan newPwd).newVars link ⊆ vars := by
  intro hall
  obtain ⟨job,before,vars,⟨a,b,c,d,hw⟩,-⟩ := hall Shop.outside "shop" "pw0" Shop.plan
    Shop.linked _ _ _ (Shop.attempt Shop.calm Shop.linked).2.chronicle rfl (by decide)
    (Shop.runs_attempt Shop.calm Shop.linked) (Shop.password_of_straight rfl)
    (Shop.not_marked_of_straight rfl) rfl (by decide) Shop.link (mem_singleton.mpr rfl) rfl
  have hnone : (Shop.attempt Shop.calm Shop.linked).2.chronicle.all Shop.startsNothing = true := rfl
  rw [hw] at hnone
  simp [Shop.startsNothing] at hnone

end Ploydok.Database
