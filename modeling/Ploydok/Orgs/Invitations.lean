import Ploydok.Orgs.Memberships

/-! Invitations to an organization: `POST /invitations/accept` of `routes/invitations.ts` and
`DELETE invitations/:invitationId` of `routes/memberships.ts`, next to the requests that remove
members. Each read and write is a statement of its own. -/

namespace Ploydok.Orgs

open Effect Effect.Prog

/-! ### Tables and statements -/

structure Invitation where
  (id orgId email : String)
  role : Role
  tokenHash : String
  expiresAt : Int
  acceptedAt : Option Int

def Invitation.accept (t : Int) (id : String) (v : Invitation) : Invitation :=
  if v.id = id then { v with acceptedAt := some t } else v

theorem id_accept (t : Int) (id : String) (v : Invitation) : (v.accept t id).id = v.id := by
  unfold Invitation.accept
  split_ifs <;> rfl

structure Invitations where
  rows : List Invitation
  unique : (rows.map (·.id)).Nodup

namespace Invitations

def getByTokenHash (w : Invitations) (tokenHash : String) : Option Invitation :=
  w.rows.find? fun v => v.tokenHash = tokenHash ∧ v.acceptedAt.isNone

def markAccepted (w : Invitations) (t : Int) (id : String) : Invitations where
  rows := w.rows.map (Invitation.accept t id)
  unique := by
    have hids : (fun v : Invitation => v.id) ∘ Invitation.accept t id = fun v => v.id :=
      funext fun v => id_accept t id v
    rw [List.map_map,hids]
    exact w.unique

def has (w : Invitations) (id orgId : String) : Bool :=
  w.rows.any fun v => v.id = id ∧ v.orgId = orgId

def delete (w : Invitations) (id orgId : String) : Invitations where
  rows := w.rows.filter fun v => ¬ (v.id = id ∧ v.orgId = orgId)
  unique := w.unique.sublist (List.filter_sublist.map _)

def Pending (w : Invitations) (id : String) : Prop := ∃ v ∈ w.rows, v.id = id ∧ v.acceptedAt = none

variable {w : Invitations} {id v orgId : String} {t : Int}

theorem Pending.of_markAccepted (h : (w.markAccepted t id).Pending v) : w.Pending v ∧ v ≠ id := by
  obtain ⟨r',hr',hid,hnone⟩ := h
  obtain ⟨r,hr,rfl⟩ := List.mem_map.mp hr'
  rw [id_accept] at hid
  subst hid
  unfold Invitation.accept at hnone
  split_ifs at hnone with hne
  exact ⟨⟨r,hr,rfl,hnone⟩,hne⟩

theorem Pending.of_delete (h : (w.delete id orgId).Pending v) : w.Pending v := by
  obtain ⟨r,hr,hrest⟩ := h
  exact ⟨r,List.mem_of_mem_filter hr,hrest⟩

theorem not_pending_delete (h : w.has id orgId = true) : ¬ (w.delete id orgId).Pending id := by
  rintro ⟨r,hr,hid,-⟩
  obtain ⟨hrow,hkeep⟩ := List.mem_filter.mp hr
  obtain ⟨r0,hr0,hmatch⟩ := List.any_eq_true.mp h
  simp only [decide_eq_true_eq] at hmatch hkeep
  -- the ids are distinct, so the row that was deleted is this one
  have heq : r = r0 := List.inj_on_of_nodup_map w.unique hrow hr0 (hid.trans hmatch.1.symm)
  exact hkeep (heq ▸ hmatch)

end Invitations

/-- The tables; `created` is the history of the memberships that were created from invitations. -/
structure InviteWorld where
  projects : List Project
  members : Memberships
  invitations : Invitations
  created : List String

inductive InviteCall where
  | member (o : Statement)
  | getInvitationByTokenHash (tokenHash : String)
  /-- The membership of a user, with the organization and the role of the invitation. -/
  | insertMembership (invitation : Invitation) (userId : String)
  | markInvitationAccepted (id : String)
  | deleteInvitation (id orgId : String)
  | getProject (id : String)
  | date

abbrev InviteCall.Res : InviteCall → Type
  | member o => o.Res
  | getInvitationByTokenHash _ => Option Invitation
  | deleteInvitation _ _ => Bool
  | getProject _ => Option Project
  | date => Int
  | _ => Unit

abbrev InviteSig : Sig := ⟨InviteCall,InviteCall.Res⟩

abbrev InviteProg (α : Type) := Prog InviteSig String α

abbrev query (o : InviteCall) : InviteProg o.Res := Prog.perform (S := InviteSig) o

/-- A user has at most one membership in an organization. -/
def Memberships.insert (w : Memberships) (m : Membership) : Option Memberships :=
  if h : m.key ∈ w.rows.map Membership.key then none
  else some ⟨w.rows ++ [m],by
    rw [List.map_append,List.nodup_append]
    refine ⟨w.unique,List.nodup_singleton _,?_⟩
    rintro a ha b hb rfl
    rw [List.mem_map] at hb
    obtain ⟨m',hm',rfl⟩ := hb
    rw [List.mem_singleton.mp hm'] at ha
    exact h ha⟩

def InviteResponds : (o : InviteCall) → InviteWorld → o.Res → InviteWorld → Prop
  | .member o, w, r, w' => (.ok r, w'.members) = serve o w.members ∧
    w' = { w with members := w'.members }
  | .getInvitationByTokenHash hash, w, r, w' =>
    r = w.invitations.getByTokenHash hash ∧ w' = w
  | .insertMembership v userId, w, _, w' => ∃ t members,
    w.members.insert ⟨v.orgId,userId,v.role,some t⟩ = some members ∧
      w' = { w with members, created := w.created ++ [v.id] }
  | .markInvitationAccepted id, w, _, w' => ∃ t,
    w' = { w with invitations := w.invitations.markAccepted t id }
  | .deleteInvitation id orgId, w, r, w' =>
    r = w.invitations.has id orgId ∧ w' = { w with invitations := w.invitations.delete id orgId }
  | .getProject id, w, r, w' => r = w.projects.find? (·.id = id) ∧ w' = w
  | .date, w, _, w' => w' = w

def InviteRefused : InviteCall → InviteWorld → Prop
  | .insertMembership v userId, w => (v.orgId, userId) ∈ w.members.rows.map Membership.key
  | _, _ => False

/-- A statement is carried out, or it throws and has had no effect. -/
def inviteSem (fails : InviteCall → String → Prop) : Sem InviteSig String InviteWorld :=
  fun o w r w' =>
    match r with
    | .ok a => InviteResponds o w a w'
    | .error e => (fails o e ∨ InviteRefused o w) ∧ w' = w

structure User where
  (id email : String)

/-- The part of `accept` after the read. -/
def acceptFound (user : User) (v : Invitation) : InviteProg Answer :=
  (query .date).bind fun now =>
  if v.expiresAt < now then .ret (.error 410 "GONE" "Invitation has expired")
  else if v.email ≠ user.email then
    .ret (.error 403 "FORBIDDEN" "Invitation email does not match your email")
  else
    (query (.insertMembership v user.id)).bind fun _ =>
    (query (.markInvitationAccepted v.id)).bind fun _ =>
    (query (.getProject v.orgId)).bind fun org =>
    match org with
    | none => .ret (.error 404 "NOT_FOUND" "Organization not found")
    | some _ => .ret .ok

/-- `tokenHash` is the hash of the token in the body, if the body is valid. -/
def acceptInvitation (user : User) (tokenHash : Option String) : InviteProg Answer :=
  match tokenHash with
  | none => .ret (.error 400 "VALIDATION_ERROR" "Invalid accept payload")
  | some hash => (query (.getInvitationByTokenHash hash)).bind fun invitation =>
    match invitation with
    | none => .ret (.error 404 "NOT_FOUND" "Invitation not found")
    | some v => acceptFound user v

def deleteInvitation (invitationId orgId : String) : InviteProg Answer :=
  (query (.deleteInvitation invitationId orgId)).bind fun deleted =>
  if deleted then .ret .ok else .ret (.error 404 "NOT_FOUND" "Invitation not found")

def cancelInvitation (projects : List Project) (user : Option String) (orgParam invitationId : String) :
    InviteProg Answer :=
  requireRole (fun orgId user => query (.member (.getMembership orgId user))) projects [.owner] user
    orgParam fun _ orgId => deleteInvitation invitationId orgId

inductive InviteParty where
  | accept (user : User) (tokenHash : Option String)
  | cancel (user : Option String) (orgParam invitationId : String)
  /-- A request to remove a member or to change a role. -/
  | manage (req : Request)

def InviteParty.program (projects : List Project) : InviteParty → InviteProg Answer
  | accept user tokenHash => acceptInvitation user tokenHash
  | cancel user orgParam invitationId => cancelInvitation projects user orgParam invitationId
  | manage req => (handle projects req).lift .member fun _ r => r

/-! ### Where a request stands -/

inductive Standing where
  /-- Nothing has been created and nothing cancelled. -/
  | fresh
  /-- A membership was created, and the invitation is not marked yet. -/
  | inserted (id : String)
  | marked
  | cancelling (id : String)
  | cancelled (id : String)
  deriving DecidableEq

def standingNext : Standing → Event InviteSig String → Option Standing
  | .fresh, ⟨.insertMembership v _,.ok _⟩ => some (.inserted v.id)
  | .fresh, ⟨.insertMembership _ _,.error _⟩ => some .fresh
  | .fresh, ⟨.markInvitationAccepted _,_⟩ | .fresh, ⟨.deleteInvitation _ _,_⟩ => none
  | .fresh, _ => some .fresh
  | .inserted id, ⟨.markInvitationAccepted id',.ok _⟩ => if id' = id then some .marked else none
  | .inserted id, ⟨.markInvitationAccepted _,.error _⟩ => some (.inserted id)
  | .inserted _, _ => none
  | .marked, ⟨.getProject _,_⟩ => some .marked
  | .marked, _ => none
  | .cancelling id, ⟨.deleteInvitation id' _,.ok true⟩ =>
    if id' = id then some (.cancelled id) else none
  | .cancelling id, ⟨.deleteInvitation _ _,_⟩
  | .cancelling id, ⟨.member (.getMembership _ _),_⟩ => some (.cancelling id)
  | .cancelling _, _ | .cancelled _, _ => none

def standingProtocol : Protocol InviteSig String := ⟨Standing,standingNext⟩

def InviteParty.standing : InviteParty → Standing
  | cancel _ _ invitationId => .cancelling invitationId
  | _ => .fresh

def NotYet (s : Standing) (r : Except String Answer) : Prop :=
  ∀ id, s = .cancelling id → r ≠ .ok .ok

theorem follows_acceptFound (user : User) (v : Invitation) :
    (acceptFound user v).Follows standingProtocol Standing.fresh NotYet := by
  refine follows_perform_bind (A := standingProtocol) (fun now => ⟨.fresh,rfl,?_⟩)
    fun e => ⟨.fresh,rfl,nofun⟩
  split
  · exact nofun
  split
  · exact nofun
  refine follows_perform_bind (fun _ => ⟨.inserted v.id,rfl,?_⟩) fun e => ⟨.fresh,rfl,nofun⟩
  refine follows_perform_bind (fun _ => ⟨.marked,if_pos rfl,?_⟩) fun e => ⟨.inserted v.id,rfl,nofun⟩
  refine follows_perform_bind (fun org => ⟨.marked,rfl,?_⟩) fun e => ⟨.marked,rfl,nofun⟩
  cases org with
  | none | some => exact nofun

theorem follows_acceptInvitation (user : User) (tokenHash : Option String) :
    (acceptInvitation user tokenHash).Follows standingProtocol Standing.fresh NotYet := by
  cases tokenHash with
  | none => exact nofun
  | some hash =>
    refine follows_perform_bind (A := standingProtocol) (fun invitation => ⟨.fresh,rfl,?_⟩)
      fun e => ⟨.fresh,rfl,nofun⟩
    cases invitation with
    | none => exact nofun
    | some v => exact follows_acceptFound user v

variable {s : Standing}

theorem notYet_error (status : Nat) (code message : String) :
    NotYet s (.ok (.error status code message)) := by
  rintro id - h
  cases h

theorem notYet_throw (e : String) : NotYet s (.error e) := by
  rintro id - h
  cases h

theorem follows_deleteInvitation (id orgId : String) :
    (deleteInvitation id orgId).Follows standingProtocol (Standing.cancelling id) NotYet := by
  refine follows_perform_bind (A := standingProtocol) (fun deleted => ?_)
    fun e => ⟨.cancelling id,rfl,notYet_throw e⟩
  cases deleted with
  | true => exact ⟨.cancelled id,if_pos rfl,nofun⟩
  | false => exact ⟨.cancelling id,rfl,notYet_error _ _ _⟩

theorem follows_cancelInvitation (projects : List Project) (user : Option String)
    (orgParam id : String) : (cancelInvitation projects user orgParam id).Follows standingProtocol
      (Standing.cancelling id) NotYet := by
  unfold cancelInvitation requireRole
  split
  · exact notYet_error _ _ _
  split
  · exact notYet_error _ _ _
  split
  · exact notYet_error _ _ _
  refine follows_perform_bind (A := standingProtocol) (fun membership => ⟨.cancelling id,rfl,?_⟩)
    fun e => ⟨.cancelling id,rfl,notYet_throw e⟩
  split
  · exact follows_deleteInvitation id _
  · exact notYet_error _ _ _

theorem follows_program (projects : List Project) (party : InviteParty) :
    (party.program projects).Follows standingProtocol party.standing NotYet := by
  cases party with
  | accept user tokenHash => exact follows_acceptInvitation user tokenHash
  | cancel user orgParam id => exact follows_cancelInvitation projects user orgParam id
  | manage req =>
    refine follows_mono (follows_of_calls (fun s => s = Standing.fresh)
      (P := fun o => ∃ o', o = InviteCall.member o') (calls_lift (calls_mono (calls_true _)
      fun o _ => ⟨o,rfl⟩)) ?_ rfl) ?_
    · rintro _ _ r rfl ⟨o,rfl⟩
      exact ⟨.fresh,rfl,rfl⟩
    · rintro _ r rfl
      exact nofun

section Runs

variable {fails : InviteCall → String → Prop} {w w' : InviteWorld} {o : InviteCall}
  {r : Except String o.Res} {v : String}

theorem pending_of_sem (h : inviteSem fails o w r w') (hv : w'.invitations.Pending v) :
    w.invitations.Pending v := by
  cases r with
  | error e =>
    obtain ⟨-,rfl⟩ := h
    exact hv
  | ok a =>
    cases o with
    | member o =>
      obtain ⟨-,hw⟩ := h
      rw [hw] at hv
      exact hv
    | insertMembership u userId =>
      obtain ⟨t,members,-,rfl⟩ := h
      exact hv
    | markInvitationAccepted id =>
      obtain ⟨t,rfl⟩ := h
      exact hv.of_markAccepted.1
    | deleteInvitation id orgId =>
      obtain ⟨-,rfl⟩ := h
      exact hv.of_delete
    | getInvitationByTokenHash | getProject =>
      obtain ⟨-,rfl⟩ := h
      exact hv
    | date =>
      obtain rfl : w' = w := h
      exact hv

theorem created_of_sem (h : inviteSem fails o w r w') : w'.created = w.created ∨
      ∃ u userId, o = .insertMembership u userId ∧ w'.created = w.created ++ [u.id] ∧
        r.isOk = true := by
  cases r with
  | error e =>
    obtain ⟨-,rfl⟩ := h
    exact .inl rfl
  | ok a =>
    cases o with
    | member o =>
      obtain ⟨-,hw⟩ := h
      rw [hw]
      exact .inl rfl
    | insertMembership u userId =>
      obtain ⟨t,members,-,rfl⟩ := h
      exact .inr ⟨u,userId,rfl,rfl,rfl⟩
    | markInvitationAccepted id =>
      obtain ⟨t,rfl⟩ := h
      exact .inl rfl
    | deleteInvitation | getInvitationByTokenHash | getProject =>
      obtain ⟨-,rfl⟩ := h
      exact .inl rfl
    | date =>
      obtain rfl : w' = w := h
      exact .inl rfl

/-! ### All interleavings -/

variable {ι : Type} [DecidableEq ι]

abbrev InvitePool (ι : Type) := Pool InviteSig String Answer ι InviteWorld

def startInvites (w : InviteWorld) (parties : ι → InviteParty) : InvitePool ι :=
  .start w fun i => (parties i).program w.projects

def Cancelled (parties : ι → InviteParty) (c : InvitePool ι) (v : String) : Prop :=
  ∃ i user orgParam, parties i = .cancel user orgParam v ∧ c.prog i = .ret .ok

/-- At most one membership comes from each invitation, and none from an invitation that was
cancelled. -/
def SingleUse (fails : InviteCall → String → Prop) (ok : InvitePool ι → ι → Prop)
    (parties : ι → InviteParty) (c : InvitePool ι) : Prop :=
  ∀ v, c.world.created.count v ≤ 1 ∧ (Cancelled parties c v → ∀ i c', ok c i →
    Pool.Step (inviteSem fails) c i c' → c'.world.created.count v = c.world.created.count v)

def Unmarked (v : String) (log : List (Event InviteSig String)) : Prop :=
  standingProtocol.after Standing.fresh log = some (.inserted v)

/-- A membership is inserted only while its invitation can be accepted and no other request has
inserted one without marking it. -/
def AcceptOk (c : InvitePool ι) (i : ι) : Prop :=
  ∀ v userId k, c.prog i = .call (.insertMembership v userId) k →
    c.world.invitations.Pending v.id ∧ ∀ j, j ≠ i → ¬ Unmarked v.id (c.log j)

structure UsedOnce (parties : ι → InviteParty) (c : InvitePool ι) (φ : ι → Standing) : Prop where
  once : ∀ v, c.world.created.count v ≤ 1
  used : ∀ v, v ∈ c.world.created → c.world.invitations.Pending v → ∃ j, φ j = .inserted v
  cancelled : ∀ j v, φ j = .cancelled v → ¬ c.world.invitations.Pending v
  cancels : ∀ j user orgParam v, parties j = .cancel user orgParam v →
    φ j = .cancelling v ∨ φ j = .cancelled v

variable {parties : ι → InviteParty} {c : InvitePool ι} {φ : ι → Standing} {i : ι}

variable {s' : Standing} {ev : Event InviteSig String}

theorem standingNext_cancel
    (hs : s = .cancelling v ∨ s = .cancelled v) (h : standingNext s ev = some s') :
    s' = .cancelling v ∨ s' = .cancelled v := by
  revert h
  fun_cases standingNext s ev <;> simp_all

theorem standingNext_cancelled (h : standingNext s ev = some (.cancelled v)) :
    ∃ orgId, ev = ⟨.deleteInvitation v orgId,.ok true⟩ := by
  revert h
  fun_cases standingNext s ev <;> simp_all

theorem standingNext_inserted (h : standingNext (.inserted v) ⟨o,r⟩ = some s') :
    s' = .inserted v ∨ (o = .markInvitationAccepted v ∧ r.isOk = true) := by
  cases o with
  | markInvitationAccepted id =>
    cases r with
    | error e => exact .inl (Option.some.inj h).symm
    | ok a =>
      simp only [standingNext,Option.ite_none_right_eq_some] at h
      exact .inr ⟨by rw [h.1],rfl⟩
  | _ => cases h

theorem standingNext_insert {r : Except String Unit}
    (h : standingNext s ⟨.insertMembership u userId,r⟩ = some s') :
    s = .fresh ∧ (r.isOk = true → s' = .inserted u.id) := by
  cases s with
  | fresh =>
    cases r with
    | error e => exact ⟨rfl,nofun⟩
    | ok a => exact ⟨rfl,fun _ => (Option.some.inj h).symm⟩
  | _ => cases h

theorem UsedOnce.step (hJ : UsedOnce parties c φ) {k : Except String o.Res → InviteProg Answer}
    (hinsert : ∀ v userId, o = .insertMembership v userId →
      c.world.invitations.Pending v.id ∧ ∀ j, j ≠ i → φ j ≠ .inserted v.id)
    (hs : inviteSem fails o c.world r w') (hnext : standingNext (φ i) ⟨o,r⟩ = some s') :
    UsedOnce parties (c.advance i ⟨o,r⟩ (k r) w') (Function.update φ i s') := by
  -- whoever was about to mark the invitation still is, if the invitation can still be accepted
  have hused : ∀ v, v ∈ c.world.created → w'.invitations.Pending v →
      ∃ j, Function.update φ i s' j = .inserted v := by
    intro v hv hpending
    obtain ⟨j,hj⟩ := hJ.used v hv (pending_of_sem hs hpending)
    by_cases hji : j = i
    · subst hji
      rw [hj] at hnext
      rcases standingNext_inserted hnext with rfl | ⟨rfl,hok⟩
      · exact ⟨j,by simp⟩
      · cases r with
        | error e => cases hok
        | ok a =>
          obtain ⟨t,rfl⟩ := hs
          exact absurd rfl hpending.of_markAccepted.2
    · exact ⟨j,by simpa [hji] using hj⟩
  refine ⟨fun v => ?_,fun v hv hpending => ?_,fun j v hj => ?_,fun j user orgParam v hj => ?_⟩
  · rcases created_of_sem hs with hsame | ⟨u,userId,rfl,hcreated,-⟩
    · show w'.created.count v ≤ 1
      rw [hsame]
      exact hJ.once v
    · show w'.created.count v ≤ 1
      rw [hcreated,List.count_append]
      by_cases hv : v = u.id
      · obtain ⟨hpending,hothers⟩ := hinsert u userId rfl
        have hnew : v ∉ c.world.created := by
          intro hmem
          obtain ⟨j,hj⟩ := hJ.used v hmem (hv ▸ hpending)
          by_cases hji : j = i
          · rw [← hji,hj] at hnext
            cases (standingNext_insert hnext).1
          · exact hothers j hji (hv ▸ hj)
        rw [List.count_eq_zero.mpr hnew,hv]
        simp
      · have := hJ.once v
        simpa [Ne.symm hv] using this
  · rcases created_of_sem hs with hsame | ⟨u,userId,rfl,hcreated,hok⟩
    · exact hused v (hsame ▸ hv) hpending
    · have hv : v ∈ c.world.created ++ [u.id] := hcreated ▸ hv
      rcases List.mem_append.mp hv with hv | hv
      · exact hused v hv hpending
      · rw [List.mem_singleton.mp hv]
        exact ⟨i,by simpa using (standingNext_insert hnext).2 hok⟩
  · by_cases hji : j = i
    · subst hji
      have hs' : s' = .cancelled v := by simpa using hj
      rw [hs'] at hnext
      obtain ⟨orgId,hev⟩ := standingNext_cancelled hnext
      cases hev
      obtain ⟨hhas,rfl⟩ := hs
      exact Invitations.not_pending_delete hhas.symm
    · intro hpending
      exact hJ.cancelled j v (by simpa [hji] using hj) (pending_of_sem hs hpending)
  · by_cases hji : j = i
    · subst hji
      simpa using standingNext_cancel (hJ.cancels j user orgParam v hj) hnext
    · simpa [hji] using hJ.cancels j user orgParam v hj

theorem usedOnce_of_reach (hw : w.created = [])
    (h : Pool.Reach (inviteSem fails) AcceptOk (startInvites w parties) c) :
    ∃ φ, Pool.Phased standingProtocol NotYet (fun i => (parties i).standing) c φ ∧
      UsedOnce parties c φ := by
  refine Pool.reach_phased standingProtocol NotYet
    (fun i => follows_program w.projects (parties i)) (UsedOnce parties) ?_ ?_ h
  · refine ⟨fun v => ?_,fun v hv => ?_,fun j v hj => ?_,fun j user orgParam v hj => ?_⟩
    · simp [Pool.start,hw]
    · simp [Pool.start,hw] at hv
    · cases hparty : parties j <;> simp [hparty,InviteParty.standing] at hj
    · simp [hj,InviteParty.standing]
  · intro c φ i o k r w' s' hφ hJ hok hc hs hnext _
    refine hJ.step (fun v userId ho => ?_) hs hnext
    subst ho
    obtain ⟨hpending,hothers⟩ := hok v userId k hc
    refine ⟨hpending,fun j hj hinserted => hothers j hj ?_⟩
    have hafter := hφ.after j
    rw [hinserted] at hafter
    -- whoever has inserted is no cancel request
    cases hparty : parties j with
    | cancel user orgParam id =>
      rcases hJ.cancels j user orgParam id hparty with hj' | hj'
      · rw [hinserted] at hj'
        cases hj'
      · rw [hinserted] at hj'
        cases hj'
    | accept | manage =>
      rw [hparty] at hafter
      exact hafter

omit [DecidableEq ι] in
theorem not_pending_of_cancelled
    (hφ : Pool.Phased standingProtocol NotYet (fun i => (parties i).standing) c φ)
    (hJ : UsedOnce parties c φ) (h : Cancelled parties c v) : ¬ c.world.invitations.Pending v := by
  obtain ⟨j,user,orgParam,hparty,hret⟩ := h
  rcases hJ.cancels j user orgParam v hparty with hj | hj
  · have hend := hφ.follows j
    rw [hret] at hend
    exact absurd rfl (hend v hj)
  · exact hJ.cancelled j v hj

/-- Invitations are used once, and not after they were cancelled, in every run whose inserts meet
the condition. -/
theorem invitation_single_use (fails : InviteCall → String → Prop) (w : InviteWorld)
    (parties : ι → InviteParty) (hw : w.created = []) (c : InvitePool ι)
    (h : Pool.Reach (inviteSem fails) AcceptOk (startInvites w parties) c) :
    SingleUse fails AcceptOk parties c := by
  obtain ⟨φ,hφ,hJ⟩ := usedOnce_of_reach hw h
  intro v
  refine ⟨hJ.once v,fun hcancelled i c' hok hstep => ?_⟩
  have hgone := not_pending_of_cancelled hφ hJ hcancelled
  obtain ⟨hc,hs⟩ := hstep
  rcases created_of_sem hs with hsame | ⟨u,userId,rfl,hcreated,-⟩
  · exact congrArg (List.count v) hsame
  · -- the row that is inserted comes from another invitation
    have hne : u.id ≠ v := fun heq => hgone (heq ▸ (hok u userId _ hc).1)
    refine (congrArg (List.count v) hcreated).trans ?_
    simp [hne]

end Runs

/-! ### The shop -/

namespace Shop

def owner : Membership := ⟨"shop","ada",.owner,some 0⟩

def invitation : Invitation := ⟨"inv","shop","bob@shop.test",.member,"hash",10,none⟩

def world : InviteWorld where
  projects := [⟨"shop","shop"⟩]
  members := ⟨[owner],by decide⟩
  invitations := ⟨[invitation],by decide⟩
  created := []

def parties : Bool → InviteParty
  | true => .accept ⟨"bob","bob@shop.test"⟩ (some "hash")
  | false => .cancel (some "ada") "shop" "inv"

def answer : Handler InviteSig String InviteWorld
  | .member o, w => ((serve o w.members).1, { w with members := (serve o w.members).2 })
  | .getInvitationByTokenHash hash, w => (.ok (w.invitations.getByTokenHash hash), w)
  | .insertMembership v userId, w =>
    match w.members.insert ⟨v.orgId,userId,v.role,some 5⟩ with
    | some members => (.ok (), { w with members, created := w.created ++ [v.id] })
    | none => (.error "UNIQUE constraint failed", w)
  | .markInvitationAccepted id, w =>
    (.ok (), { w with invitations := w.invitations.markAccepted 5 id })
  | .deleteInvitation id orgId, w =>
    (.ok (w.invitations.has id orgId), { w with invitations := w.invitations.delete id orgId })
  | .getProject id, w => (.ok (w.projects.find? (·.id = id)), w)
  | .date, w => (.ok 5, w)

theorem inviteSem_answer (fails : InviteCall → String → Prop) (o : InviteCall) (w : InviteWorld) :
    inviteSem fails o w (answer o w).1 (answer o w).2 := by
  cases o with
  | member o => cases o <;> exact ⟨rfl,rfl⟩
  | insertMembership v userId =>
    cases hinsert : w.members.insert ⟨v.orgId,userId,v.role,some 5⟩ with
    | some members =>
      simp only [answer,hinsert]
      exact ⟨5,members,hinsert,rfl⟩
    | none =>
      simp only [answer,hinsert]
      refine ⟨.inr ?_,rfl⟩
      by_contra hfree
      have hfree : Membership.key ⟨v.orgId,userId,v.role,some 5⟩ ∉
        w.members.rows.map Membership.key := hfree
      simp [Memberships.insert,hfree] at hinsert
  | markInvitationAccepted id => exact ⟨5,rfl⟩
  | date => exact rfl
  | getInvitationByTokenHash | deleteInvitation | getProject => exact ⟨rfl,rfl⟩

def late : InvitePool Bool := [true, true, false, false].foldl (Pool.tick answer)
  (startInvites world parties)

end Shop

open Shop

theorem cancelled_invitation_admits : ¬ ∀ (fails : InviteCall → String → Prop) (w : InviteWorld)
    (parties : Bool → InviteParty), w.created = [] → ∀ c,
      Pool.Reach (inviteSem fails) (fun _ _ => True) (startInvites w parties) c →
        SingleUse fails (fun _ _ => True) parties c := by
  intro h
  have hreach : Pool.Reach (inviteSem fun _ _ => False) (fun _ _ => True)
      (startInvites world parties) late :=
    Pool.reach_schedule (inviteSem_answer _) _ _ (Pool.admits_of_forall (fun _ _ => trivial) _ _)
  have huse := h _ world parties rfl _ hreach
  have hcancelled : Cancelled parties late "inv" := ⟨false,_,_,rfl,rfl⟩
  have hstep := (huse "inv").2 hcancelled true _ trivial
    (.mk (r := .ok ()) rfl (inviteSem_answer _ _ _))
  exact absurd hstep (by decide)

namespace Shop

def turns : List Bool := [true, true, true, true, true, false, false]

def orderly : InvitePool Bool := turns.foldl (Pool.tick answer) (startInvites world parties)

def mayAccept (c : InvitePool Bool) (i : Bool) : Bool :=
  match c.prog i with
  | .call (.insertMembership v _) _ =>
    (c.world.invitations.rows.any fun r => r.id = v.id ∧ r.acceptedAt = none) &&
      (c.log !i).isEmpty
  | _ => true

theorem acceptOk_of_mayAccept (h : mayAccept c i = true) : AcceptOk c i := by
  intro v userId k hc
  simp only [mayAccept,hc,Bool.and_eq_true,List.any_eq_true,decide_eq_true_eq,
    List.isEmpty_iff] at h
  refine ⟨h.1,fun j hj hun => ?_⟩
  obtain rfl : j = !i := by cases i <;> cases j <;> simp_all
  rw [Unmarked,h.2] at hun
  cases hun

theorem admits_turns : Pool.Admits AcceptOk answer (startInvites world parties) turns := by
  have h : Pool.Admits (fun c i => mayAccept c i = true) answer (startInvites world parties) turns := by
    decide +kernel
  exact h.mono fun _ _ => acceptOk_of_mayAccept

end Shop

theorem invitation_single_use_shop : world.created = [] ∧
    SingleUse (fun _ _ => False) AcceptOk parties orderly ∧
    orderly.world.created = ["inv"] ∧ Cancelled parties orderly "inv" :=
  ⟨rfl,invitation_single_use _ world parties rfl _
    (Pool.reach_schedule (inviteSem_answer _) _ _ admits_turns),by decide +kernel,⟨false,_,_,rfl,rfl⟩⟩

end Ploydok.Orgs
