import Ploydok.Orgs.Memberships

/-! Does an organization keep an owner? Every handler checks that there is another owner before
it takes one away, but between the check and the write anything can happen. -/

namespace Ploydok.Orgs

open Effect Function Memberships List

def Request.Ousts (req : Request) : Prop :=
  req.action = .remove ∨ req.action = .changeRole (some .member)

def Stage.org : Stage → Option String
  | .reading orgId | .counting orgId | .writing orgId => some orgId
  | _ => none

variable {req : Request} {user org orgId : String}

theorem Request.org_enter (h : (req.enter user org).org = some orgId) : org = orgId := by
  revert h
  fun_cases Request.enter req user org <;> rintro ⟨⟩ <;> rfl

theorem Request.ne_target_of_enter
    (h : req.enter user org = .writing orgId) (hOusts : req.Ousts) : user ≠ req.target := by
  revert h
  fun_cases Request.enter req user org <;> rintro ⟨⟩
  · next hself => exact hself
  · next haction => simp [Request.Ousts,haction] at hOusts

inductive Moved (projects : List Project) (req : Request) (w : Memberships) :
    Stage → Stage → Memberships → Prop
  | admitted {user orgId : String} (hsender : req.sender projects = some (user, orgId))
      (howner : w.IsOwner orgId user) : Moved projects req w .fresh (req.enter user orgId) w
  | refused {answer : Answer} : Moved projects req w .fresh (.ended answer) w
  | guarded {orgId : String} : Moved projects req w (.reading orgId) (.counting orgId) w
  | unguarded {orgId : String} (howner : ¬ w.IsOwner orgId req.target) :
      Moved projects req w (.reading orgId) (.writing orgId) w
  | stopped {orgId : String} {answer : Answer} :
      Moved projects req w (.counting orgId) (.ended answer) w
  | passed {orgId : String} (hcount : 1 < w.countOwners orgId) :
      Moved projects req w (.counting orgId) (.writing orgId) w
  | removed {orgId : String} (haction : req.action = .remove) :
      Moved projects req w (.writing orgId) (.ended .ok) (w.removeMembership orgId req.target)
  | assigned {orgId : String} {role : Role} (haction : req.action = .changeRole (some role)) :
      Moved projects req w (.writing orgId) (.ended .ok)
        (w.updateMembershipRole orgId req.target role)

variable {w : Memberships}

theorem authorized_owner_iff :
    authorized [.owner] (w.getMembership orgId userId) = true ↔ w.IsOwner orgId userId := by
  unfold IsOwner
  rw [has_iff]
  cases w.getMembership orgId userId with
  | none | some => simp [authorized]

variable {s : Stage}

theorem moved_of_next (h : req.next projects s w = some (s', w')) :
    Moved projects req w s s' w' := by
  revert h
  fun_cases Request.next projects req s w <;> rintro ⟨⟩
  · next hsender hauth => exact .admitted hsender (authorized_owner_iff.mp hauth)
  · exact .refused
  · exact .guarded
  · next howner =>
    refine .unguarded fun hisOwner => ?_
    obtain ⟨m,hget,-,hrole⟩ := has_iff.mp hisOwner
    rw [hget,Option.map_some,hrole] at howner
    exact howner rfl
  · exact .stopped
  · next hcount => exact .passed (Nat.lt_of_not_le hcount)
  · next haction => exact .removed haction
  · next haction => exact .assigned haction

section Group

variable {ι : Type} (projects : List Project) (requests : ι → Request) (w₀ : Memberships)
  (orgId : String)

inductive Raised (X : Set String) : String → Prop
  | owner {u : String} (howner : w₀.IsOwner orgId u) : Raised X u
  | promoted {i : ι} {user : String} (hsender : (requests i).sender projects = some (user, orgId))
      (haction : (requests i).action = .changeRole (some .owner))
      (hmember : w₀.IsMember orgId (requests i).target) (hin : user ∈ X)
      (huser : Raised X user) : Raised X (requests i).target

def OustedBy (X : Set String) (u : String) : Prop :=
  ∃ i, ∃ user ∈ X, (requests i).sender projects = some (user, orgId) ∧
    (requests i).target = u ∧ (requests i).Ousts

/-- At least two members, all owners among them, who can all become owners and are all removed or
downgraded by requests of the group. -/
structure Takeover (X : Set String) : Prop where
  owners : ∀ u, w₀.IsOwner orgId u → u ∈ X
  two : X.Nontrivial
  raised : ∀ u ∈ X, Raised projects requests w₀ orgId X u
  ousted : ∀ u ∈ X, OustedBy projects requests orgId X u

end Group

variable {ι : Type} {projects : List Project} {requests : ι → Request} {w₀ : Memberships}
  {orgId : String} {X Y : Set String}

variable {u : String}

theorem Raised.mono (hXY : X ⊆ Y) (h : Raised projects requests w₀ orgId X u) :
    Raised projects requests w₀ orgId Y u := by
  induction h with
  | owner howner => exact .owner howner
  | promoted hsender haction hmember hin _ ih =>
    exact .promoted hsender haction hmember (hXY hin) ih

theorem Raised.isMember (h : Raised projects requests w₀ orgId X u) : w₀.IsMember orgId u := by
  cases h with
  | owner howner => exact howner.isMember
  | promoted _ _ hmember => exact hmember

structure History (projects : List Project) (requests : ι → Request) (w₀ : Memberships)
    (orgId : String) (E : Set String) (st : Stages ι Stage Memberships) : Prop where
  members : ∀ u, st.world.IsMember orgId u → w₀.IsMember orgId u
  initial : ∀ u, w₀.IsOwner orgId u → u ∈ E
  owners : ∀ u, st.world.IsOwner orgId u → u ∈ E
  raised : ∀ u ∈ E, Raised projects requests w₀ orgId E u
  ousted : ∀ u ∈ E, ¬ st.world.IsOwner orgId u → OustedBy projects requests orgId E u
  senders : ∀ i, (st.stage i).org = some orgId →
    ∃ user ∈ E, (requests i).sender projects = some (user, orgId)
  sole : E.Subsingleton → ∀ u ∈ E, st.world.IsOwner orgId u
  spared : E.Subsingleton → ∀ i, st.stage i = .writing orgId → (requests i).Ousts →
    (requests i).target ∉ E

namespace History

variable [DecidableEq ι] {E : Set String} {st : Stages ι Stage Memberships} {i : ι}

theorem step_stage (h : History projects requests w₀ orgId E st)
    (hmembers : ∀ u, w.IsMember orgId u → st.world.IsMember orgId u)
    (howners : ∀ u, w.IsOwner orgId u ↔ st.world.IsOwner orgId u)
    (hsender : s.org = some orgId → ∃ user ∈ E, (requests i).sender projects = some (user, orgId))
    (hspared : s = .writing orgId → (requests i).Ousts → E.Subsingleton → (requests i).target ∉ E) :
    History projects requests w₀ orgId E ⟨w,update st.stage i s⟩ where
  members u hu := h.members u (hmembers u hu)
  initial := h.initial
  owners u hu := h.owners u ((howners u).mp hu)
  raised := h.raised
  ousted u hu hnot := h.ousted u hu fun howner => hnot ((howners u).mpr howner)
  senders j := by
    by_cases hij : j = i
    · subst hij
      simpa using hsender
    · simpa [hij] using h.senders j
  sole hE u hu := (howners u).mpr (h.sole hE u hu)
  spared hE j := by
    by_cases hij : j = i
    · subst hij
      simpa using fun hs hO => hspared hs hO hE
    · simpa [hij] using h.spared hE j

theorem step_oust (h : History projects requests w₀ orgId E st)
    (hstage : st.stage i = .writing orgId) (hOusts : (requests i).Ousts)
    (hmembers : ∀ u, w.IsMember orgId u → st.world.IsMember orgId u)
    (howners : ∀ u, w.IsOwner orgId u ↔ st.world.IsOwner orgId u ∧ u ≠ (requests i).target)
    (answer : Answer) :
    History projects requests w₀ orgId E ⟨w,update st.stage i (.ended answer)⟩ := by
  obtain ⟨user,huser,hsender⟩ := h.senders i (by rw [hstage]; rfl)
  constructor
  · exact fun u hu => h.members u (hmembers u hu)
  · exact h.initial
  · exact fun u hu => h.owners u ((howners u).mp hu).1
  · exact h.raised
  · intro u hu hnot
    by_cases howner : st.world.IsOwner orgId u
    · refine ⟨i,user,huser,hsender,?_,hOusts⟩
      by_contra hne
      exact hnot ((howners u).mpr ⟨howner,Ne.symm hne⟩)
    · exact h.ousted u hu howner
  · intro j hj
    by_cases hij : j = i
    · subst hij
      simp [Stage.org] at hj
    · exact h.senders j (by simpa [hij] using hj)
  · intro hE u hu
    refine (howners u).mpr ⟨h.sole hE u hu,?_⟩
    rintro rfl
    exact h.spared hE i hstage hOusts hu
  · intro hE j hj
    by_cases hij : j = i
    · subst hij
      simp at hj
    · exact h.spared hE j (by simpa [hij] using hj)

theorem step_promote (h : History projects requests w₀ orgId E st)
    (hstage : st.stage i = .writing orgId)
    (haction : (requests i).action = .changeRole (some .owner))
    (hmember : st.world.IsMember orgId (requests i).target)
    (hmembers : ∀ u, w.IsMember orgId u → st.world.IsMember orgId u)
    (howners : ∀ u, w.IsOwner orgId u ↔ st.world.IsOwner orgId u ∨ u = (requests i).target)
    (answer : Answer) :
    History projects requests w₀ orgId (insert (requests i).target E)
      ⟨w,update st.stage i (.ended answer)⟩ := by
  have hsub : E ⊆ insert (requests i).target E := Set.subset_insert _ _
  obtain ⟨user,huser,hsender⟩ := h.senders i (by rw [hstage]; rfl)
  -- nobody is added to a single owner but the owner
  have hin : (insert (requests i).target E).Subsingleton → (requests i).target ∈ E := by
    intro hE
    rw [hE (Set.mem_insert _ _) (hsub huser)]
    exact huser
  constructor
  · exact fun u hu => h.members u (hmembers u hu)
  · exact fun u hu => hsub (h.initial u hu)
  · intro u hu
    rcases (howners u).mp hu with howner | rfl
    · exact hsub (h.owners u howner)
    · exact Set.mem_insert _ _
  · rintro u (rfl | hu)
    · exact .promoted hsender haction (h.members _ hmember) (hsub huser)
        ((h.raised user huser).mono hsub)
    · exact (h.raised u hu).mono hsub
  · rintro u (rfl | hu) hnot
    · exact absurd ((howners _).mpr (.inr rfl)) hnot
    · obtain ⟨j,other,hother,hrest⟩ :=
        h.ousted u hu fun howner => hnot ((howners u).mpr (.inl howner))
      exact ⟨j,other,hsub hother,hrest⟩
  · intro j hj
    by_cases hij : j = i
    · subst hij
      simp [Stage.org] at hj
    · obtain ⟨other,hother,hsender'⟩ := h.senders j (by simpa [hij] using hj)
      exact ⟨other,hsub hother,hsender'⟩
  · rintro hE u (rfl | hu)
    · exact (howners _).mpr (.inr rfl)
    · exact (howners u).mpr (.inl (h.sole (hE.anti hsub) u hu))
  · intro hE j hj hOusts
    rw [Set.insert_eq_of_mem (hin hE)]
    by_cases hij : j = i
    · subst hij
      simp at hj
    · exact h.spared (hE.anti hsub) j (by simpa [hij] using hj) hOusts

theorem step (h : History projects requests w₀ orgId E st)
    (hmoved : Moved projects (requests i) st.world (st.stage i) s w) :
    ∃ E', History projects requests w₀ orgId E' ⟨w,update st.stage i s⟩ := by
  generalize hstage : st.stage i = s0 at hmoved
  cases hmoved with
  | @admitted user org hsender howner =>
    have huser : org = orgId → user ∈ E := by
      rintro rfl
      exact h.owners user howner
    refine ⟨E,h.step_stage (fun _ hu => hu) (fun _ => Iff.rfl) (fun horg => ?_) ?_⟩
    · obtain rfl := Request.org_enter horg
      exact ⟨user,huser rfl,hsender⟩
    · intro hwriting hOusts hE htarget
      have horg : org = orgId := Request.org_enter (by rw [hwriting]; rfl)
      exact Request.ne_target_of_enter hwriting hOusts (hE (huser horg) htarget)
  | refused | stopped =>
    exact ⟨E,h.step_stage (fun _ hu => hu) (fun _ => Iff.rfl) (by simp [Stage.org]) (by simp)⟩
  | guarded =>
    refine ⟨E,h.step_stage (fun _ hu => hu) (fun _ => Iff.rfl) (fun horg => ?_) (by simp)⟩
    exact h.senders i (by rw [hstage]; exact horg)
  | unguarded hnot =>
    refine ⟨E,h.step_stage (fun _ hu => hu) (fun _ => Iff.rfl) (fun horg => ?_) ?_⟩
    · exact h.senders i (by rw [hstage]; exact horg)
    · rintro ⟨⟩ - hE htarget
      exact hnot (h.sole hE _ htarget)
  | passed hcount =>
    refine ⟨E,h.step_stage (fun _ hu => hu) (fun _ => Iff.rfl) (fun horg => ?_) ?_⟩
    · exact h.senders i (by rw [hstage]; exact horg)
    · rintro ⟨⟩ - hE
      obtain ⟨u,v,hu,hv,hne⟩ := one_lt_countOwners_iff.mp hcount
      exact absurd (hE (h.owners u hu) (h.owners v hv)) hne
  | @removed org haction =>
    have hmembers : ∀ u, (st.world.removeMembership org (requests i).target).IsMember orgId u →
        st.world.IsMember orgId u := fun u hu => (has_removeMembership.mp hu).1
    by_cases horg : org = orgId
    · subst horg
      refine ⟨E,h.step_oust hstage (.inl haction) hmembers (fun u => ?_) .ok⟩
      exact has_removeMembership.trans (by simp [IsOwner])
    · refine ⟨E,h.step_stage hmembers (fun u => ?_) (by simp [Stage.org]) (by simp)⟩
      exact has_removeMembership.trans (by simp [IsOwner,Ne.symm horg])
  | @assigned org role haction =>
    have hmembers : ∀ u, (st.world.updateMembershipRole org (requests i).target role).IsMember
        orgId u → st.world.IsMember orgId u := fun u hu => isMember_updateMembershipRole.mp hu
    by_cases horg : org = orgId
    swap
    · refine ⟨E,h.step_stage hmembers (fun u => ?_) (by simp [Stage.org]) (by simp)⟩
      exact isOwner_updateMembershipRole_of_ne (by simp [Ne.symm horg])
    subst horg
    have hother : ∀ u, u ≠ (requests i).target →
        ((st.world.updateMembershipRole org (requests i).target role).IsOwner org u ↔
          st.world.IsOwner org u) :=
      fun u hu => isOwner_updateMembershipRole_of_ne (by simp [hu])
    cases role with
    | member =>
      refine ⟨E,h.step_oust hstage (.inr haction) hmembers (fun u => ?_) .ok⟩
      by_cases hu : u = (requests i).target
      · subst hu
        simp [isOwner_updateMembershipRole_self]
      · simp [hother u hu,hu]
    | owner =>
      by_cases hmember : st.world.IsMember org (requests i).target
      · refine ⟨_,h.step_promote hstage haction hmember hmembers (fun u => ?_) .ok⟩
        by_cases hu : u = (requests i).target
        · subst hu
          simp [isOwner_updateMembershipRole_self,hmember]
        · simp [hother u hu,hu]
      · refine ⟨E,h.step_stage hmembers (fun u => ?_) (by simp [Stage.org]) (by simp)⟩
        by_cases hu : u = (requests i).target
        · subst hu
          have hnot : ¬ st.world.IsOwner org (requests i).target := fun h => hmember h.isMember
          simp [isOwner_updateMembershipRole_self,hmember,hnot]
        · exact hother u hu

omit [DecidableEq ι] in
theorem start : ∃ E, History projects requests w₀ orgId E ⟨w₀,fun _ => .fresh⟩ := by
  refine ⟨{u | w₀.IsOwner orgId u},?_⟩
  constructor
  · exact fun _ hu => hu
  · exact fun _ hu => hu
  · exact fun _ hu => hu
  · exact fun _ hu => .owner hu
  · exact fun _ hu hnot => absurd hu hnot
  · exact fun _ hi => by cases hi
  · exact fun _ _ hu => hu
  · exact fun _ _ hi => by cases hi

omit [DecidableEq ι] in
theorem takeover (h : History projects requests w₀ orgId E st) (h0 : ∃ u, w₀.IsOwner orgId u)
    (hnone : ∀ u, ¬ st.world.IsOwner orgId u) : Takeover projects requests w₀ orgId E := by
  refine ⟨h.initial,?_,h.raised,fun u hu => h.ousted u hu (hnone u)⟩
  rw [← Set.not_subsingleton_iff]
  intro hE
  obtain ⟨u,hu⟩ := h0
  exact hnone u (h.sole hE u (h.initial u hu))

end History

theorem takeover_of_run [DecidableEq ι] (h0 : ∃ u, w₀.IsOwner orgId u)
    (hrun : (staging projects requests).Run ⟨w₀,fun _ => .fresh⟩ st)
    (hnone : ∀ u, ¬ st.world.IsOwner orgId u) :
    ∃ X, Takeover projects requests w₀ orgId X := by
  obtain ⟨E,hE⟩ : ∃ E, History projects requests w₀ orgId E st := by
    refine hrun.invariant History.start ?_
    rintro st i _ ⟨E,hE⟩ ⟨hn⟩
    exact hE.step (moved_of_next hn)
  exact ⟨E,hE.takeover h0 hnone⟩

/-! ### How a group does it -/

section Schedule

variable [DecidableEq ι] {st : Stages ι Stage Memberships} {i : ι}

theorem next_fresh
    (hsender : req.sender projects = some (user, orgId)) (howner : w.IsOwner orgId user) :
    req.next projects .fresh w = some (req.enter user orgId, w) := by
  simp [Request.next,hsender,authorized_owner_iff.mpr howner]

theorem next_counting (projects : List Project) (req : Request) (hcount : 1 < w.countOwners orgId) :
    req.next projects (.counting orgId) w = some (.writing orgId, w) := by
  simp [Request.next,Nat.not_le.mpr hcount]

structure Raising (projects : List Project) (requests : ι → Request) (w₀ : Memberships)
    (orgId : String) (X : Set String) (st : Stages ι Stage Memberships) : Prop where
  run : (staging projects requests).Run ⟨w₀,fun _ => .fresh⟩ st
  members : ∀ u, w₀.IsMember orgId u → st.world.IsMember orgId u
  initial : ∀ u, w₀.IsOwner orgId u → st.world.IsOwner orgId u
  owners : ∀ u, st.world.IsOwner orgId u → u ∈ X
  stages : ∀ i, st.stage i = .fresh ∨
    (requests i).action = .changeRole (some .owner) ∧ st.world.IsOwner orgId (requests i).target

theorem Raising.promote (h : Raising projects requests w₀ orgId X st)
    (hsender : (requests i).sender projects = some (user, orgId))
    (haction : (requests i).action = .changeRole (some .owner))
    (hmember : w₀.IsMember orgId (requests i).target) (hin : (requests i).target ∈ X)
    (howner : st.world.IsOwner orgId user) :
    ∃ st', Raising projects requests w₀ orgId X st' ∧
      (∀ u, st.world.IsOwner orgId u → st'.world.IsOwner orgId u) ∧
      st'.world.IsOwner orgId (requests i).target := by
  rcases h.stages i with hfresh | ⟨-,hdone⟩
  swap
  · exact ⟨st,h,fun _ hu => hu,hdone⟩
  let w := st.world.updateMembershipRole orgId (requests i).target .owner
  have hself : w.IsOwner orgId (requests i).target :=
    isOwner_updateMembershipRole_self.mpr ⟨h.members _ hmember,rfl⟩
  have hother : ∀ u, u ≠ (requests i).target → (w.IsOwner orgId u ↔ st.world.IsOwner orgId u) :=
    fun u hu => isOwner_updateMembershipRole_of_ne (by simp [hu])
  have hkept : ∀ u, st.world.IsOwner orgId u → w.IsOwner orgId u := by
    intro u hu
    by_cases htarget : u = (requests i).target
    · exact htarget ▸ hself
    · exact (hother u htarget).mpr hu
  have hrun : (staging projects requests).Run st ⟨w,update st.stage i (.ended .ok)⟩ := by
    have hadmitted : (staging projects requests).next i (st.stage i) st.world =
        some (.writing orgId, st.world) := by
      rw [hfresh]
      exact (next_fresh hsender howner).trans (by simp [Request.enter,haction])
    refine Staging.Run.alone (p := (.ended .ok, w)) (.tail (.tail .refl hadmitted) ?_)
    simp only [staging,Request.next,haction]
    rfl
  refine ⟨_,⟨h.run.trans hrun,?_,?_,?_,?_⟩,hkept,hself⟩
  · exact fun u hu => isMember_updateMembershipRole.mpr (h.members u hu)
  · exact fun u hu => hkept u (h.initial u hu)
  · intro u hu
    by_cases htarget : u = (requests i).target
    · exact htarget ▸ hin
    · exact h.owners u ((hother u htarget).mp hu)
  · intro j
    by_cases hij : j = i
    · subst hij
      exact .inr ⟨haction,hself⟩
    · rcases h.stages j with hj | ⟨hj,howner'⟩
      · exact .inl (by simp [hij,hj])
      · exact .inr ⟨hj,hkept _ howner'⟩

theorem Raising.raise (hu : Raised projects requests w₀ orgId X u) (hin : u ∈ X)
    (h : Raising projects requests w₀ orgId X st) :
    ∃ st', Raising projects requests w₀ orgId X st' ∧
      (∀ v, st.world.IsOwner orgId v → st'.world.IsOwner orgId v) ∧
      st'.world.IsOwner orgId u := by
  induction hu with
  | owner howner => exact ⟨st,h,fun _ hv => hv,h.initial _ howner⟩
  | promoted hsender haction hmember huser _ ih =>
    obtain ⟨st1,h1,hkept1,howner⟩ := ih huser
    obtain ⟨st2,h2,hkept2,htarget⟩ := h1.promote hsender haction hmember hin howner
    exact ⟨st2,h2,fun v hv => hkept2 v (hkept1 v hv),htarget⟩

theorem Raising.raiseAll {users : List String} (hX : ∀ u ∈ X, Raised projects requests w₀ orgId X u)
    (husers : ∀ u ∈ users, u ∈ X) (h : Raising projects requests w₀ orgId X st) :
    ∃ st', Raising projects requests w₀ orgId X st' ∧
      (∀ v, st.world.IsOwner orgId v → st'.world.IsOwner orgId v) ∧
      ∀ u ∈ users, st'.world.IsOwner orgId u := by
  induction users with
  | nil => exact ⟨st,h,fun _ hv => hv,by simp⟩
  | cons u users ih =>
    obtain ⟨st1,h1,hkept1,hall⟩ := ih fun v hv => husers v (mem_cons_of_mem _ hv)
    have hin : u ∈ X := husers u mem_cons_self
    obtain ⟨st2,h2,hkept2,howner⟩ := Raising.raise (hX u hin) hin h1
    refine ⟨st2,h2,fun v hv => hkept2 v (hkept1 v hv),?_⟩
    intro v hv
    rcases mem_cons.mp hv with rfl | hv
    · exact howner
    · exact hkept2 v (hall v hv)

theorem run_check (hfresh : st.stage i = .fresh)
    (hsender : (requests i).sender projects = some (user, orgId)) (hOusts : (requests i).Ousts)
    (howner : st.world.IsOwner orgId user) (htarget : st.world.IsOwner orgId (requests i).target)
    (hcount : 1 < st.world.countOwners orgId) :
    (staging projects requests).Run st ⟨st.world,update st.stage i (.writing orgId)⟩ := by
  have hadmitted : (staging projects requests).next i (st.stage i) st.world =
      some ((requests i).enter user orgId, st.world) := by
    rw [hfresh]
    exact next_fresh hsender howner
  have hpassed : (staging projects requests).next i (.counting orgId) st.world =
      some (.writing orgId, st.world) :=
    next_counting projects (requests i) hcount
  refine Staging.Run.alone (p := (Stage.writing orgId, st.world)) ?_
  rcases hOusts with haction | haction
  · by_cases hself : user = (requests i).target
    · have henter : (requests i).enter user orgId = .counting orgId := by
        simp [Request.enter,haction,hself]
      rw [henter] at hadmitted
      exact .tail (.tail .refl hadmitted) hpassed
    · have henter : (requests i).enter user orgId = .writing orgId := by
        simp [Request.enter,haction,hself]
      rw [henter] at hadmitted
      exact .tail .refl hadmitted
  · have henter : (requests i).enter user orgId = .reading orgId := by
      simp [Request.enter,haction]
    rw [henter] at hadmitted
    have hguarded : (staging projects requests).next i (.reading orgId) st.world =
        some (.counting orgId, st.world) := by
      obtain ⟨m,hget,-,hrole⟩ := has_iff.mp htarget
      simp [staging,Request.next,hget,hrole]
    exact .tail (.tail (.tail .refl hadmitted) hguarded) hpassed

structure Ousting (projects : List Project) (requests : ι → Request) (orgId : String)
    (X : Set String) (oust : String → ι) : Prop where
  sender : ∀ u ∈ X, ∃ user ∈ X, (requests (oust u)).sender projects = some (user, orgId)
  target : ∀ u ∈ X, (requests (oust u)).target = u
  ousts : ∀ u ∈ X, (requests (oust u)).Ousts

variable {oust : String → ι} {users : List String}

theorem run_checks (hO : Ousting projects requests orgId X oust) (husers : ∀ u ∈ users, u ∈ X)
    (hfresh : ∀ u ∈ X, st.stage (oust u) = .fresh)
    (howners : ∀ u ∈ X, st.world.IsOwner orgId u) (hcount : 1 < st.world.countOwners orgId) :
    ∃ stage, (staging projects requests).Run st ⟨st.world,stage⟩ ∧
      (∀ u ∈ users, stage (oust u) = .writing orgId) ∧
      ∀ i, (∀ u ∈ users, i ≠ oust u) → stage i = st.stage i := by
  induction users with
  | nil => exact ⟨st.stage,.refl,by simp,fun _ _ => rfl⟩
  | cons u users ih =>
    obtain ⟨stage,hrun,hwriting,hothers⟩ := ih fun v hv => husers v (mem_cons_of_mem _ hv)
    have hu : u ∈ X := husers u mem_cons_self
    by_cases hdone : ∃ v ∈ users, oust u = oust v
    · obtain ⟨v,hv,heq⟩ := hdone
      refine ⟨stage,hrun,?_,fun i hi => hothers i fun v hv => hi v (mem_cons_of_mem _ hv)⟩
      intro v' hv'
      rcases mem_cons.mp hv' with rfl | hv'
      · exact heq ▸ hwriting v hv
      · exact hwriting v' hv'
    · have hne : ∀ v ∈ users, oust u ≠ oust v := fun v hv heq => hdone ⟨v,hv,heq⟩
      obtain ⟨user,huser,hsender⟩ := hO.sender u hu
      have hstart : (⟨st.world,stage⟩ : Stages ι Stage Memberships).stage (oust u) = .fresh :=
        (hothers _ hne).trans (hfresh u hu)
      have hcheck := run_check hstart hsender (hO.ousts u hu) (howners user huser)
        (by rw [hO.target u hu]; exact howners u hu) hcount
      refine ⟨_,hrun.trans hcheck,?_,?_⟩
      · intro v hv
        rcases mem_cons.mp hv with rfl | hv
        · simp
        · rw [update_of_ne (hne v hv).symm]
          exact hwriting v hv
      · intro i hi
        rw [update_of_ne (hi u mem_cons_self)]
        exact hothers i fun v hv => hi v (mem_cons_of_mem _ hv)

theorem run_write (hwriting : st.stage i = .writing orgId) (hOusts : (requests i).Ousts) :
    ∃ w, (staging projects requests).Run st ⟨w,update st.stage i (.ended .ok)⟩ ∧
      ∀ u, w.IsOwner orgId u → st.world.IsOwner orgId u ∧ u ≠ (requests i).target := by
  rcases hOusts with haction | haction
  · refine ⟨st.world.removeMembership orgId (requests i).target,
      Staging.Run.move .refl i ?_,fun u hu => ?_⟩
    · rw [hwriting]
      simp [staging,Request.next,haction]
    · obtain ⟨howner,hne⟩ := has_removeMembership.mp hu
      exact ⟨howner,by simpa using hne⟩
  · refine ⟨st.world.updateMembershipRole orgId (requests i).target .member,
      Staging.Run.move .refl i ?_,fun u hu => ?_⟩
    · rw [hwriting]
      simp [staging,Request.next,haction]
    · by_cases htarget : u = (requests i).target
      · subst htarget
        simp [isOwner_updateMembershipRole_self] at hu
      · exact ⟨(isOwner_updateMembershipRole_of_ne (by simp [htarget])).mp hu,htarget⟩

theorem run_writes (hO : Ousting projects requests orgId X oust) (husers : ∀ u ∈ users, u ∈ X)
    (hnodup : users.Nodup) (hwriting : ∀ u ∈ users, st.stage (oust u) = .writing orgId) :
    ∃ st', (staging projects requests).Run st st' ∧
      ∀ u, st'.world.IsOwner orgId u → st.world.IsOwner orgId u ∧ u ∉ users := by
  induction users generalizing st with
  | nil => exact ⟨st,.refl,by simp⟩
  | cons u users ih =>
    obtain ⟨hu,hnodup⟩ := nodup_cons.mp hnodup
    have htail : ∀ v ∈ users, v ∈ X := fun v hv => husers v (mem_cons_of_mem _ hv)
    have huX : u ∈ X := husers u mem_cons_self
    obtain ⟨w,hrun,howners⟩ := run_write (hwriting u mem_cons_self) (hO.ousts u huX)
    -- the requests of the others have other targets
    have hne : ∀ v ∈ users, oust v ≠ oust u := by
      intro v hv heq
      have htarget := hO.target v (htail v hv)
      rw [heq,hO.target u huX] at htarget
      exact hu (htarget ▸ hv)
    have hrest : ∀ v ∈ users, (⟨w,update st.stage (oust u) (.ended .ok)⟩ :
        Stages ι Stage Memberships).stage (oust v) = .writing orgId := by
      intro v hv
      dsimp only
      rw [update_of_ne (hne v hv)]
      exact hwriting v (mem_cons_of_mem _ hv)
    obtain ⟨st',hrun',howners'⟩ := ih htail hnodup hrest
    refine ⟨st',hrun.trans hrun',fun v hv => ?_⟩
    obtain ⟨hv1,hnot⟩ := howners' v hv
    obtain ⟨hv2,hne'⟩ := howners v hv1
    rw [hO.target u huX] at hne'
    exact ⟨hv2,by simp [hne',hnot]⟩

theorem exists_users (hX : ∀ u ∈ X, w₀.IsMember orgId u) :
    ∃ users : List String, users.Nodup ∧ ∀ u, u ∈ users ↔ u ∈ X := by
  classical
  refine ⟨(w₀.rows.map (·.userId)).dedup.filter (· ∈ X),
    (nodup_dedup _).sublist filter_sublist,fun u => ?_⟩
  simp only [mem_filter,mem_dedup,decide_eq_true_eq,and_iff_right_iff_imp]
  intro hu
  obtain ⟨m,hm,hkey,-⟩ := hX u hu
  exact mem_map.mpr ⟨m,hm,congrArg Prod.snd hkey⟩

theorem run_of_takeover (hX : Takeover projects requests w₀ orgId X) :
    ∃ st, (staging projects requests).Run ⟨w₀,fun _ => .fresh⟩ st ∧
      ∀ u, ¬ st.world.IsOwner orgId u := by
  obtain ⟨users,hnodup,husers⟩ := exists_users fun u hu => (hX.raised u hu).isMember
  obtain ⟨u1,hu1,u2,hu2,hne⟩ := hX.two
  obtain ⟨i0,-⟩ := hX.ousted u1 hu1
  have : Nonempty ι := ⟨i0⟩
  choose! oust user huser hsender htarget hOusts using hX.ousted
  have hO : Ousting projects requests orgId X oust :=
    ⟨fun u hu => ⟨user u,huser u hu,hsender u hu⟩,htarget,hOusts⟩
  have hstart : Raising projects requests w₀ orgId X ⟨w₀,fun _ => .fresh⟩ :=
    ⟨.refl,fun _ hu => hu,fun _ hu => hu,hX.owners,fun _ => .inl rfl⟩
  obtain ⟨st1,h1,-,hall⟩ := hstart.raiseAll hX.raised fun u hu => (husers u).mp hu
  have howners : ∀ u ∈ X, st1.world.IsOwner orgId u := fun u hu => hall u ((husers u).mpr hu)
  have hfresh : ∀ u ∈ X, st1.stage (oust u) = .fresh := by
    intro u hu
    rcases h1.stages (oust u) with hstage | ⟨haction,-⟩
    · exact hstage
    · have := hOusts u hu
      simp [Request.Ousts,haction] at this
  have hcount : 1 < st1.world.countOwners orgId :=
    one_lt_countOwners_iff.mpr ⟨u1,u2,howners u1 hu1,howners u2 hu2,hne⟩
  obtain ⟨stage,hrun2,hwriting,-⟩ :=
    run_checks hO (fun u hu => (husers u).mp hu) hfresh howners hcount
  have hwriting' : ∀ u ∈ users,
      (⟨st1.world,stage⟩ : Stages ι Stage Memberships).stage (oust u) = .writing orgId := hwriting
  obtain ⟨st3,hrun3,hnone⟩ := run_writes hO (fun u hu => (husers u).mp hu) hnodup hwriting'
  refine ⟨st3,(h1.run.trans hrun2).trans hrun3,fun u hu => ?_⟩
  obtain ⟨howner,hnot⟩ := hnone u hu
  exact hnot ((husers u).mpr (h1.owners u howner))

end Schedule

abbrev requestPool (projects : List Project) (requests : ι → Request) (w₀ : Memberships) :
    Pool OrgSig String Answer ι Memberships :=
  .start w₀ fun i => handle projects (requests i)

theorem at_requestPool (projects : List Project) (requests : ι → Request) (w₀ : Memberships) :
    (staging projects requests).At (requestPool projects requests w₀) ⟨w₀,fun _ => .fresh⟩ :=
  ⟨rfl,fun _ => rfl⟩

/-- An organization with an owner has one in every state that requests can bring about, exactly if
no group of its members can take it over. -/
theorem owner_kept_iff [DecidableEq ι] (projects : List Project) (requests : ι → Request)
    (w₀ : Memberships) (orgId : String) (h0 : ∃ u, w₀.IsOwner orgId u) :
    (∀ c, Pool.Reach (Prog.ofHandler serve) (fun _ _ => True)
        (requestPool projects requests w₀) c → ∃ u, c.world.IsOwner orgId u) ↔
      ¬ ∃ X, Takeover projects requests w₀ orgId X := by
  constructor
  · rintro hkept ⟨X,hX⟩
    obtain ⟨st,hrun,hnone⟩ := run_of_takeover hX
    obtain ⟨c,hreach,hat⟩ := Staging.reach_of_run (at_requestPool projects requests w₀) hrun
    obtain ⟨u,hu⟩ := hkept c hreach
    rw [hat.1] at hu
    exact hnone u hu
  · intro hX c hreach
    by_contra hnone
    obtain ⟨st,hrun,hat⟩ := Staging.run_of_reach (at_requestPool projects requests w₀) hreach
    rw [hat.1] at hnone
    exact hX (takeover_of_run h0 hrun fun u hu => hnone ⟨u,hu⟩)

def solo : Memberships := ⟨[⟨"o1","ada",.owner,some 0⟩],by decide⟩

def leave (user : String) : Request := ⟨some user,"acme",user,.remove⟩

theorem solo_owner_stays : (∃ u, solo.IsOwner "o1" u) ∧
      ∀ c, Pool.Reach (Prog.ofHandler serve) (fun _ _ => True)
        (requestPool [⟨"o1","acme"⟩] (fun _ : Unit => leave "ada") solo) c →
          ∃ u, c.world.IsOwner "o1" u := by
  have h0 : solo.IsOwner "o1" "ada" := ⟨_,mem_singleton.mpr rfl,rfl,rfl,rfl⟩
  refine ⟨⟨_,h0⟩,(owner_kept_iff _ _ _ _ ⟨_,h0⟩).mpr ?_⟩
  rintro ⟨X,hX⟩
  have honly : ∀ u ∈ X, u = "ada" := by
    intro u hu
    cases hX.raised u hu with
    | owner howner =>
      obtain ⟨m,hm,hkey,-⟩ := howner
      rw [mem_singleton.mp hm] at hkey
      exact (congrArg Prod.snd hkey).symm
    | promoted _ haction => cases haction
  obtain ⟨u,hu,v,hv,hne⟩ := hX.two
  exact hne ((honly u hu).trans (honly v hv).symm)

def pair : Memberships :=
  ⟨[⟨"o1","ada",.owner,some 0⟩, ⟨"o1","ben",.owner,some 0⟩],by decide⟩

abbrev leaving : Pool OrgSig String Answer Bool Memberships :=
  requestPool [⟨"o1","acme"⟩] (fun first => leave (if first then "ada" else "ben")) pair

/-- Each of two owners who leave is counted before the other is gone. -/
theorem both_owners_leave : (∃ u, pair.IsOwner "o1" u) ∧
      ¬ ∀ c, Pool.Reach (Prog.ofHandler serve) (fun _ _ => True) leaving c →
        ∃ u, c.world.IsOwner "o1" u := by
  refine ⟨⟨"ada",_,mem_cons_self,rfl,rfl,rfl⟩,fun hkept => ?_⟩
  let sched := [true, true, false, false, true, false]
  have hreach : Pool.Reach (Prog.ofHandler serve) (fun _ _ => True) leaving
      (sched.foldl (Pool.tick serve) leaving) :=
    Pool.reach_schedule (fun _ _ => rfl) _ _ (Pool.admits_of_forall (fun _ _ => trivial) _ _)
  have hempty : (sched.foldl (Pool.tick serve) leaving).world.rows.isEmpty = true := by
    decide +kernel
  obtain ⟨u,m,hm,-⟩ := hkept _ hreach
  rw [isEmpty_iff.mp hempty] at hm
  exact not_mem_nil hm

end Ploydok.Orgs
