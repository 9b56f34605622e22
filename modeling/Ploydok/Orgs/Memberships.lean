import Ploydok.Effect.Staged
import Mathlib.Data.Finset.Card

/-! Removing members of an organization and changing their roles: `DELETE members/:userId` and
`PATCH members/:userId/role` of `routes/memberships.ts`. The count of the owners and the write it
guards are not one transaction. -/

namespace Ploydok.Orgs

open Effect List

inductive Role where
  | owner
  | member
  deriving DecidableEq

structure Membership where
  (orgId userId : String)
  role : Role
  acceptedAt : Option Int

def Membership.key (m : Membership) : String × String := (m.orgId, m.userId)

/-- The table of memberships; a user has at most one in an organization. -/
structure Memberships where
  rows : List Membership
  unique : (rows.map Membership.key).Nodup

namespace Memberships

def getMembership (w : Memberships) (orgId userId : String) : Option Membership :=
  w.rows.find? fun m => m.key = (orgId, userId)

def removeMembership (w : Memberships) (orgId userId : String) : Memberships where
  rows := w.rows.filter fun m => m.key ≠ (orgId, userId)
  unique := w.unique.sublist (filter_sublist.map _)

def withRole (key : String × String) (role : Role) (m : Membership) : Membership :=
  if m.key = key then { m with role } else m

theorem key_withRole (key : String × String) (role : Role) (m : Membership) :
    (withRole key role m).key = m.key := by
  unfold withRole
  split_ifs
  · rfl
  · rfl

def updateMembershipRole (w : Memberships) (orgId userId : String) (role : Role) :
    Memberships where
  rows := w.rows.map (withRole (orgId, userId) role)
  unique := by
    have hkeys : Membership.key ∘ withRole (orgId, userId) role = Membership.key :=
      funext fun m => key_withRole _ _ m
    rw [map_map,hkeys]
    exact w.unique

def ownerRows (w : Memberships) (orgId : String) : List Membership :=
  w.rows.filter fun m => m.orgId = orgId ∧ m.role = .owner ∧ m.acceptedAt.isSome

def countOwners (w : Memberships) (orgId : String) : Nat := (w.ownerRows orgId).length

/-! ### Owners -/

def Has (w : Memberships) (key : String × String) (P : Membership → Prop) : Prop :=
  ∃ m ∈ w.rows, m.key = key ∧ P m

def IsMember (w : Memberships) (orgId userId : String) : Prop :=
  w.Has (orgId, userId) fun m => m.acceptedAt.isSome = true

def IsOwner (w : Memberships) (orgId userId : String) : Prop :=
  w.Has (orgId, userId) fun m => m.acceptedAt.isSome = true ∧ m.role = .owner

variable {w : Memberships} {orgId userId target org : String} {role : Role}
  {key : String × String} {P : Membership → Prop}

theorem IsOwner.isMember (h : w.IsOwner orgId userId) : w.IsMember orgId userId := by
  obtain ⟨m,hm,hkey,haccepted,-⟩ := h
  exact ⟨m,hm,hkey,haccepted⟩

theorem getMembership_eq_some_iff :
    w.getMembership orgId userId = some m ↔ m ∈ w.rows ∧ m.key = (orgId, userId) := by
  constructor
  · intro hfind
    exact ⟨mem_of_find?_eq_some hfind,by simpa using find?_some hfind⟩
  · rintro ⟨hm,hkey⟩
    cases hfind : w.getMembership orgId userId with
    | none =>
      have hnone := find?_eq_none.mp hfind m hm
      simp [hkey] at hnone
    | some m' =>
      -- two rows with one key are one row
      have hkey' : m'.key = (orgId, userId) := by simpa using find?_some hfind
      rw [inj_on_of_nodup_map w.unique (mem_of_find?_eq_some hfind) hm (hkey'.trans hkey.symm)]

theorem has_iff : w.Has (orgId, userId) P ↔ ∃ m, w.getMembership orgId userId = some m ∧ P m := by
  simp only [getMembership_eq_some_iff,Has,and_assoc]

theorem has_removeMembership :
    (w.removeMembership orgId target).Has key P ↔ w.Has key P ∧ key ≠ (orgId, target) := by
  constructor
  · rintro ⟨m,hm,rfl,hP⟩
    obtain ⟨hrow,hne⟩ := mem_filter.mp hm
    exact ⟨⟨m,hrow,rfl,hP⟩,by simpa using hne⟩
  · rintro ⟨⟨m,hrow,rfl,hP⟩,hne⟩
    exact ⟨m,mem_filter.mpr ⟨hrow,by simpa using hne⟩,rfl,hP⟩

theorem has_updateMembershipRole : (w.updateMembershipRole orgId target role).Has key P ↔
      w.Has key fun m => P (withRole (orgId, target) role m) := by
  constructor
  · rintro ⟨m',hm',rfl,hP⟩
    obtain ⟨m,hm,rfl⟩ := mem_map.mp hm'
    exact ⟨m,hm,(key_withRole ..).symm,hP⟩
  · rintro ⟨m,hm,rfl,hP⟩
    exact ⟨_,mem_map_of_mem hm,key_withRole ..,hP⟩

theorem has_congr (h : ∀ m, m.key = key → (P m ↔ Q m)) : w.Has key P ↔ w.Has key Q := by
  refine exists_congr fun m => and_congr_right fun _ => and_congr_right fun hkey => h m hkey

theorem isMember_updateMembershipRole :
    (w.updateMembershipRole org target role).IsMember orgId userId ↔ w.IsMember orgId userId := by
  refine has_updateMembershipRole.trans (has_congr fun m _ => ?_)
  unfold withRole
  split_ifs
  · rfl
  · rfl

theorem isOwner_updateMembershipRole_self :
    (w.updateMembershipRole orgId userId role).IsOwner orgId userId ↔
      w.IsMember orgId userId ∧ role = .owner := by
  refine has_updateMembershipRole.trans ?_
  have hrow : ∀ m : Membership, m.key = (orgId, userId) →
      (withRole (orgId, userId) role m).acceptedAt = m.acceptedAt ∧
        (withRole (orgId, userId) role m).role = role := by
    intro m hkey
    simp [withRole,hkey]
  constructor
  · rintro ⟨m,hm,hkey,haccepted,hrole⟩
    rw [(hrow m hkey).1] at haccepted
    exact ⟨⟨m,hm,hkey,haccepted⟩,(hrow m hkey).2.symm.trans hrole⟩
  · rintro ⟨⟨m,hm,hkey,haccepted⟩,rfl⟩
    exact ⟨m,hm,hkey,by rwa [(hrow m hkey).1],(hrow m hkey).2⟩

theorem isOwner_updateMembershipRole_of_ne (h : (orgId, userId) ≠ (org, target)) :
    (w.updateMembershipRole org target role).IsOwner orgId userId ↔ w.IsOwner orgId userId := by
  refine has_updateMembershipRole.trans (has_congr fun m hkey => ?_)
  rw [withRole,if_neg (hkey ▸ h)]

theorem mem_map_ownerRows : userId ∈ (w.ownerRows orgId).map (·.userId) ↔
    w.IsOwner orgId userId := by
  unfold ownerRows IsOwner Has Membership.key
  simp only [mem_map,mem_filter,decide_eq_true_eq,Prod.mk.injEq]
  constructor
  · rintro ⟨m,⟨hm,horg,hrole,haccepted⟩,huser⟩
    exact ⟨m,hm,⟨horg,huser⟩,haccepted,hrole⟩
  · rintro ⟨m,hm,⟨horg,huser⟩,haccepted,hrole⟩
    exact ⟨m,⟨hm,horg,hrole,haccepted⟩,huser⟩

theorem nodup_map_ownerRows : ((w.ownerRows orgId).map (·.userId)).Nodup := by
  have hkeys : ((w.ownerRows orgId).map Membership.key).Nodup :=
    w.unique.sublist (filter_sublist.map _)
  have hpair : (w.ownerRows orgId).map Membership.key =
      ((w.ownerRows orgId).map (·.userId)).map fun userId => (orgId, userId) := by
    rw [map_map]
    refine map_congr_left fun m hm => ?_
    obtain ⟨-,horg⟩ := mem_filter.mp hm
    obtain ⟨rfl,-⟩ : m.orgId = orgId ∧ _ := by simpa using horg
    rfl
  rw [hpair] at hkeys
  exact hkeys.of_map _

theorem one_lt_countOwners_iff : 1 < w.countOwners orgId ↔
      ∃ u v, w.IsOwner orgId u ∧ w.IsOwner orgId v ∧ u ≠ v := by
  have hcard : w.countOwners orgId = ((w.ownerRows orgId).map (·.userId)).toFinset.card := by
    rw [toFinset_card_of_nodup nodup_map_ownerRows,length_map]
    rfl
  rw [hcard,Finset.one_lt_card_iff]
  simp [mem_map_ownerRows]

end Memberships

structure Project where
  (id slug : String)

/-- The organization of a path parameter: by slug, then by id. -/
def resolveOrg (projects : List Project) (ident : String) : Option String :=
  let bySlug := ((projects.find? (·.slug = ident)).map (·.id)).filter (· ≠ "")
  let byId := ((projects.find? (·.id = ident)).map (·.id)).filter (· ≠ "")
  bySlug.or byId

inductive Statement where
  | getMembership (orgId userId : String)
  | countOwners (orgId : String)
  | removeMembership (orgId userId : String)
  | updateMembershipRole (orgId userId : String) (role : Role)

abbrev Statement.Res : Statement → Type
  | .getMembership .. => Option Membership
  | .countOwners _ => Nat
  | _ => Unit

abbrev OrgSig : Sig := ⟨Statement,Statement.Res⟩

abbrev OrgProg (α : Type) := Prog OrgSig String α

abbrev ask (o : Statement) : OrgProg o.Res := Prog.perform (S := OrgSig) o

def serve : Handler OrgSig String Memberships
  | .getMembership orgId userId, w => (.ok (w.getMembership orgId userId), w)
  | .countOwners orgId, w => (.ok (w.countOwners orgId), w)
  | .removeMembership orgId userId, w => (.ok (), w.removeMembership orgId userId)
  | .updateMembershipRole orgId userId role, w =>
    (.ok (), w.updateMembershipRole orgId userId role)

/-! ### The handlers -/

inductive Answer where
  | ok
  | error (status : Nat) (code message : String)

/-- `DELETE`, or `PATCH` with the role that was read from its body. -/
inductive Action where
  | remove
  | changeRole (body : Option Role)

structure Request where
  user : Option String
  (orgParam target : String)
  action : Action

def authorized (roles : List Role) : Option Membership → Bool
  | none => false
  | some m => m.acceptedAt.isSome && roles.contains m.role

/-- `requireRole`, over the calls of a route: what follows is given the user and the organization. -/
def requireRole {S : Sig} (getMembership : String → String → Prog S String (Option Membership))
    (projects : List Project) (roles : List Role) (user : Option String) (orgParam : String)
    (next : String → String → Prog S String Answer) : Prog S String Answer :=
  match user with
  | none => .ret (.error 401 "UNAUTHENTICATED" "Authentication required")
  | some user =>
    if orgParam = "" then .ret (.error 400 "BAD_REQUEST" "Organization ID required")
    else
      match resolveOrg projects orgParam with
      | none => .ret (.error 404 "NOT_FOUND" "Organization not found")
      | some orgId => (getMembership orgId user).bind fun membership =>
        if authorized roles membership then next user orgId
        else .ret (.error 403 "FORBIDDEN" "Insufficient permissions")

def unlessSoleOwner (orgId message : String) (write : OrgProg Answer) : OrgProg Answer :=
  (ask (.countOwners orgId)).bind fun ownerCount =>
    if ownerCount ≤ 1 then .ret (.error 400 "BAD_REQUEST" message) else write

def removal (orgId userId : String) : OrgProg Answer :=
  (ask (.removeMembership orgId userId)).bind fun _ => .ret .ok

def assignment (orgId userId : String) (role : Role) : OrgProg Answer :=
  (ask (.updateMembershipRole orgId userId role)).bind fun _ => .ret .ok

def removeMember (target user orgId : String) : OrgProg Answer :=
  if user = target then
    unlessSoleOwner orgId "Cannot remove yourself while being the sole owner"
      (removal orgId target)
  else removal orgId target

def downgrade (target orgId : String) : OrgProg Answer :=
  (ask (.getMembership orgId target)).bind fun memberToChange =>
    if memberToChange.map (·.role) = some .owner then
      unlessSoleOwner orgId "Cannot downgrade the sole owner" (assignment orgId target .member)
    else assignment orgId target .member

def changeRole (target : String) (body : Option Role) (orgId : String) : OrgProg Answer :=
  match body with
  | none => .ret (.error 400 "VALIDATION_ERROR" "Invalid role payload")
  | some .member => downgrade target orgId
  | some .owner => assignment orgId target .owner

def handle (projects : List Project) (req : Request) : OrgProg Answer :=
  requireRole (fun orgId user => ask (.getMembership orgId user)) projects [.owner] req.user
    req.orgParam fun user orgId =>
      match req.action with
      | .remove => removeMember req.target user orgId
      | .changeRole body => changeRole req.target body orgId

/-! ### Stages -/

inductive Stage where
  | fresh
  | reading (orgId : String)
  | counting (orgId : String)
  | writing (orgId : String)
  | ended (answer : Answer)

namespace Request

def sender (projects : List Project) (req : Request) : Option (String × String) :=
  match req.user with
  | none => none
  | some user =>
    if req.orgParam = "" then none
    else (resolveOrg projects req.orgParam).map fun orgId => (user, orgId)

def write (req : Request) (orgId : String) : OrgProg Answer :=
  match req.action with
  | .remove => removal orgId req.target
  | .changeRole none => .ret (.error 400 "VALIDATION_ERROR" "Invalid role payload")
  | .changeRole (some role) => assignment orgId req.target role

def guardMessage (req : Request) : String :=
  match req.action with
  | .remove => "Cannot remove yourself while being the sole owner"
  | .changeRole _ => "Cannot downgrade the sole owner"

def enter (req : Request) (user orgId : String) : Stage :=
  match req.action with
  | .remove => if user = req.target then .counting orgId else .writing orgId
  | .changeRole none => .ended (.error 400 "VALIDATION_ERROR" "Invalid role payload")
  | .changeRole (some .member) => .reading orgId
  | .changeRole (some .owner) => .writing orgId

def progAt (projects : List Project) (req : Request) : Stage → OrgProg Answer
  | .fresh => handle projects req
  | .reading orgId => (ask (.getMembership orgId req.target)).bind fun memberToChange =>
    if memberToChange.map (·.role) = some .owner then
      unlessSoleOwner orgId req.guardMessage (req.write orgId)
    else req.write orgId
  | .counting orgId => unlessSoleOwner orgId req.guardMessage (req.write orgId)
  | .writing orgId => req.write orgId
  | .ended answer => .ret answer

def next (projects : List Project) (req : Request) : Stage → Memberships →
    Option (Stage × Memberships)
  | .fresh, w =>
    match req.sender projects with
    | none => none
    | some (user, orgId) =>
      if authorized [.owner] (w.getMembership orgId user) then some (req.enter user orgId, w)
      else some (.ended (.error 403 "FORBIDDEN" "Insufficient permissions"), w)
  | .reading orgId, w =>
    if (w.getMembership orgId req.target).map (·.role) = some .owner then
      some (.counting orgId, w)
    else some (.writing orgId, w)
  | .counting orgId, w =>
    if w.countOwners orgId ≤ 1 then some (.ended (.error 400 "BAD_REQUEST" req.guardMessage), w)
    else some (.writing orgId, w)
  | .writing orgId, w =>
    match req.action with
    | .remove => some (.ended .ok, w.removeMembership orgId req.target)
    | .changeRole none => none
    | .changeRole (some role) => some (.ended .ok, w.updateMembershipRole orgId req.target role)
  | .ended _, _ => none

theorem progAt_enter (projects : List Project) (req : Request) (user orgId : String) :
    req.progAt projects (req.enter user orgId) = match req.action with
      | .remove => removeMember req.target user orgId
      | .changeRole body => changeRole req.target body orgId := by
  obtain ⟨_,_,target,action⟩ := req
  cases action with
  | remove =>
    simp only [enter,removeMember]
    split_ifs
    · rfl
    · rfl
  | changeRole body =>
    rcases body with _ | _ | _
    · rfl
    · rfl
    · rfl

variable {projects : List Project} {req : Request} {s : Stage}

theorem handle_of_sender {user orgId : String} (h : req.sender projects = some (user, orgId)) :
    handle projects req = (ask (.getMembership orgId user)).bind fun membership =>
      if authorized [.owner] membership then req.progAt projects (req.enter user orgId)
      else .ret (.error 403 "FORBIDDEN" "Insufficient permissions") := by
  rw [progAt_enter]
  unfold sender at h
  unfold handle requireRole
  cases huser : req.user with
  | none => simp [huser] at h
  | some user' =>
    by_cases hparam : req.orgParam = ""
    · simp [huser,hparam] at h
    · obtain ⟨orgId',horg,heq⟩ : ∃ orgId', resolveOrg projects req.orgParam = some orgId' ∧
          (user', orgId') = (user, orgId) := by simpa [huser,hparam] using h
      cases heq
      simp only [if_neg hparam,horg]

theorem done_handle (h : req.sender projects = none) : (handle projects req).done = true := by
  unfold sender at h
  unfold handle requireRole
  cases huser : req.user with
  | none => rfl
  | some user =>
    by_cases hparam : req.orgParam = ""
    · simp only [if_pos hparam]
      rfl
    · have horg : resolveOrg projects req.orgParam = none := by simpa [huser,hparam] using h
      simp only [if_neg hparam,horg]
      rfl

theorem next_of_call (hp : req.progAt projects s = .call o k) (w : Memberships) :
    ∃ s', req.next projects s w = some (s', (serve o w).2) ∧
      req.progAt projects s' = k (serve o w).1 := by
  cases s with
  | fresh =>
    cases hsender : req.sender projects with
    | none =>
      have hdone := done_handle hsender
      rw [progAt] at hp
      rw [hp] at hdone
      cases hdone
    | some pair =>
      obtain ⟨user,orgId⟩ := pair
      rw [progAt,handle_of_sender hsender] at hp
      cases hp
      simp only [next,hsender]
      by_cases hauth : authorized [.owner] (w.getMembership orgId user) = true
      · exact ⟨_,if_pos hauth,(if_pos hauth).symm⟩
      · exact ⟨_,if_neg hauth,(if_neg hauth).symm⟩
  | reading orgId =>
    cases hp
    by_cases howner : (w.getMembership orgId req.target).map (·.role) = some .owner
    · exact ⟨.counting orgId,if_pos howner,(if_pos howner).symm⟩
    · exact ⟨.writing orgId,if_neg howner,(if_neg howner).symm⟩
  | counting orgId =>
    cases hp
    by_cases hcount : w.countOwners orgId ≤ 1
    · exact ⟨_,if_pos hcount,(if_pos hcount).symm⟩
    · exact ⟨.writing orgId,if_neg hcount,(if_neg hcount).symm⟩
  | writing orgId =>
    obtain ⟨user,orgParam,target,action⟩ := req
    rcases action with _ | _ | role
    · cases hp
      exact ⟨_,rfl,rfl⟩
    · cases hp
    · cases hp
      exact ⟨_,rfl,rfl⟩
  | ended answer => cases hp

theorem next_of_done (hp : (req.progAt projects s).done = true) (w : Memberships) :
    req.next projects s w = none := by
  cases s with
  | fresh =>
    cases hsender : req.sender projects with
    | none => simp only [next,hsender]
    | some pair =>
      rw [progAt,handle_of_sender hsender] at hp
      cases hp
  | reading | counting => cases hp
  | writing orgId =>
    obtain ⟨user,orgParam,target,action⟩ := req
    rcases action with _ | _ | role
    · cases hp
    · rfl
    · cases hp
  | ended answer => rfl

end Request

def staging {ι : Type} (projects : List Project) (requests : ι → Request) :
    Staging serve Answer ι Stage where
  prog i s := (requests i).progAt projects s
  next i s w := (requests i).next projects s w
  next_call _ _ w _ _ hp := Request.next_of_call hp w
  next_done _ _ w hp := Request.next_of_done hp w

end Ploydok.Orgs
