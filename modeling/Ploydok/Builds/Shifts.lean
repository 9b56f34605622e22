import Ploydok.Builds.Stages

/-! What one call does to an app, to its builds and to the party that makes it, and under which
conditions it leaves the app with a status that the party itself, an active build or a reaper that
is half way answers for. -/

namespace Ploydok.Builds

open Effect Effect.Prog Queue Option

/-! ### The app and its builds -/

def OfApp (a : String) (w : World) (b : String) : Prop :=
  ∃ row, w.builds b = some row ∧ row.appId = a

def Active (a : String) (w : World) : Prop :=
  ∃ b row, w.builds b = some row ∧ row.appId = a ∧ row.status.active = true

def StatusIs (a : String) (s : AppStatus) (w : World) : Prop :=
  ∃ app, w.apps a = some app ∧ app.status = s

/-- What the repair of the reaper needs in order to find the live status. -/
def Repairable (live : AppStatus) (app : AppRow) : Prop :=
  live = .running ∧ (truthy app.containerId).isSome = true ∧ app.status ≠ .pending

section Shift

variable {F : Faults} {w w' : World} {o : Call} {r : Except DeployError o.Res} {a : String}

theorem status_apply (patch : Patch) (now : Nat) (row : BuildRow) :
    (patch.apply now row).status = row.status := by
  cases patch <;> rfl

theorem OfApp.of_sem (hb : OfApp a w b) (h : sem F o w r w') : OfApp a w' b := by
  obtain ⟨row,hrow,ha⟩ := hb
  obtain ⟨row',hrow',hstep⟩ := buildStep_of_sem h hrow
  exact ⟨row',hrow',hstep.appId_eq.trans ha⟩

theorem OfApp.unique (ha : OfApp a w b) (hx : OfApp x w b) : x = a := by
  obtain ⟨row,hrow,rfl⟩ := ha
  obtain ⟨row',hrow',rfl⟩ := hx
  rw [hrow] at hrow'
  cases hrow'
  rfl

def Spares (a : String) (w : World) (o : Call) : Prop :=
  ∀ b status patch, o = .updateBuildStatus b status patch → OfApp a w b → status.active = true

theorem spares_updateApp : Spares a w (.updateApp x update) := by
  rintro _ _ _ ⟨⟩

theorem Active.of_sem (hactive : Active a w) (h : sem F o w r w')
    (hspares : Spares a w o) : Active a w' := by
  obtain ⟨b,row,hrow,ha,hs⟩ := hactive
  obtain ⟨row',hrow',hstep⟩ := buildStep_of_sem h hrow
  refine ⟨b,row',hrow',hstep.appId_eq.trans ha,?_⟩
  cases hstep with
  | same => exact hs
  | claimed => rfl
  | updated hcall =>
    rw [status_apply]
    exact hspares b _ _ hcall ⟨row,hrow,ha⟩

theorem apps_eq_of_sem (h : sem F o w r w') (happ : w.apps a = some app)
    (ho : ∀ update, o ≠ .updateApp a update) : w'.apps a = some app := by
  obtain ⟨app',happ',hstep⟩ := appStep_of_sem h happ
  cases hstep with
  | same => exact happ'
  | updated hcall => exact absurd hcall (ho _)

theorem app_of_updateApp (hupdate : update.apply app = some app')
    {r : Except DeployError (Call.updateApp a update).Res} (h : sem F (.updateApp a update) w r w')
    (happ : w.apps a = some app) :
    w'.apps a = some app' ∨ (w'.apps a = some app ∧ ∃ e, r = .error e ∧
      F.fails (.updateApp a update) e) := by
  have hdone : ∀ (w : World), w.apps a = some app →
      (w.updateApp a (update.apply ·)).2.apps a = some app' := by
    intro w happ
    simp [World.updateApp,happ,hupdate]
  obtain ⟨now,-,h⟩ := h
  cases r with
  | ok x =>
    rw [h.2]
    exact .inl (hdone _ happ)
  | error e =>
    rcases h with ⟨hfails,rfl⟩ | ⟨-,x,hx⟩
    · exact .inr ⟨happ,e,rfl,hfails.resolve_right id⟩
    · rw [hx.2]
      exact .inl (hdone _ happ)

def Pairs (w : World) (l : List (String × String)) : Prop := ∀ p ∈ l, OfApp p.2 w p.1

def Stage.Sound (a : String) (live : AppStatus) (w : World) (app : AppRow) : Stage → Prop
  | .idle _ | .ended | .outside => True
  | .claimed _ b | .closing b => OfApp a w b
  | .ready b f | .busy b f => OfApp a w b ∧ f = live
  | .lost => False
  | .elsewhere b x => x ≠ a ∧ OfApp x w b
  | .calm l => Pairs w l
  | .owing l b => Pairs w l ∧ OfApp a w b ∧ Repairable live app
  | .checked l => Pairs w l ∧ Repairable live app
  | .about l s => Pairs w l ∧ Repairable live app ∧ s = live

variable {live : AppStatus} {app app' : AppRow} {s s' : Stage}

theorem Stage.Sound.mono (h : s.Sound a live w app)
    (hof : ∀ x b, OfApp x w b → OfApp x w' b) (hrep : Repairable live app → Repairable live app') :
    s.Sound a live w' app' := by
  have hpairs : ∀ l, Pairs w l → Pairs w' l := fun l hl p hp => hof _ _ (hl p hp)
  cases s with
  | idle | ended | outside => trivial
  | claimed | closing => exact hof _ _ h
  | ready | busy => exact ⟨hof _ _ h.1,h.2⟩
  | lost => exact h
  | elsewhere => exact ⟨h.1,hof _ _ h.2⟩
  | calm => exact hpairs _ h
  | owing => exact ⟨hpairs _ h.1,hof _ _ h.2.1,hrep h.2.2⟩
  | checked => exact ⟨hpairs _ h.1,hrep h.2⟩
  | about => exact ⟨hpairs _ h.1,hrep h.2.1,h.2.2⟩

structure Shift (a : String) (live : AppStatus) (w w' : World) (app app' : AppRow)
    (s s' : Stage) : Prop where
  app_eq : w'.apps a = some app'
  ofApp : ∀ x b, OfApp x w b → OfApp x w' b
  repairable : Repairable live app → Repairable live app'
  sound : s'.Sound a live w' app'
  /-- Only an attempt that holds an active build writes `building`. -/
  status : app'.status = live ∨ app'.status = app.status ∨
    (app'.status = .building ∧ Active a w' ∧ s.working = true)
  /-- The last active build ends when the app is live again, or with a debt. -/
  covered : app'.status = live ∨ Active a w' ∨ s'.owes = true ∨
    (s.owes = false ∧ (Active a w → Active a w'))
  closing : ∀ b, s' = .closing b → app'.status = live

section Query

variable (h : sem F o w r w') (happ : w.apps a = some app)
  (hother : ∀ update, o ≠ .updateApp a update)

include h happ hother

theorem Shift.query (hsound : s'.Sound a live w' app)
    (hcovered : app.status = live ∨ Active a w' ∨ s'.owes = true ∨
      (s.owes = false ∧ (Active a w → Active a w')))
    (hclosing : ∀ b, s' = .closing b → app.status = live) : Shift a live w w' app app s s' where
  app_eq := apps_eq_of_sem h happ hother
  ofApp := fun _ _ hb => hb.of_sem h
  repairable := id
  sound := hsound
  status := .inr (.inl rfl)
  covered := hcovered
  closing := hclosing

theorem Shift.quiet (hspares : Spares a w o) (hsound : s'.Sound a live w' app)
    (howes : s.owes = false) (hclosing : ∀ b, s' = .closing b → app.status = live) :
    Shift a live w w' app app s s' :=
  .query h happ hother hsound
    (.inr (.inr (.inr ⟨howes,fun hactive => hactive.of_sem h hspares⟩))) hclosing

theorem Shift.ending (hlive : app.status = live) (hsound : s'.Sound a live w' app) :
    Shift a live w w' app app s s' :=
  .query h happ hother hsound (.inl hlive) fun _ _ => hlive

end Query

/-- The calls that write neither an app nor a build. -/
def Call.reads : Call → Bool
  | updateApp .. | updateBuildStatus .. => false
  | _ => true

theorem Shift.still (h : sem F o w r w') (hreads : o.reads = true) (happ : w.apps a = some app)
    (hsound : s'.Sound a live w' app) (howes : s.owes = false)
    (hclosing : ∀ b, s' = .closing b → app.status = live) : Shift a live w w' app app s s' := by
  refine .quiet h happ ?_ ?_ hsound howes hclosing
  · rintro update rfl
    cases hreads
  · rintro _ _ _ rfl
    cases hreads

theorem Shift.release {r : Except DeployError (Call.updateApp a (.release toDigest)).Res}
    (h : sem F (.updateApp a (.release toDigest)) w r w') (happ : w.apps a = some app)
    (hsound : ∀ app', app'.status = app.status → (Repairable live app → Repairable live app') →
      s'.Sound a live w' app') (howes : s.owes = false)
    (hclosing : ∀ b, s' = .closing b → app.status = live) :
    ∃ app', Shift a live w w' app app' s s' := by
  obtain ⟨app',happ',hstep⟩ := appStep_of_sem h happ
  have heq : app'.status = app.status ∧ app'.containerId = app.containerId := by
    cases hstep with
    | same => exact ⟨rfl,rfl⟩
    | updated ho happly =>
      cases ho
      simp only [AppUpdate.apply,ite_none_right_eq_some,some.injEq] at happly
      rw [← happly.2]
      exact ⟨rfl,rfl⟩
  have hrep : Repairable live app → Repairable live app' := by
    unfold Repairable
    rw [heq.1,heq.2]
    exact id
  refine ⟨app',happ',fun _ _ hb => hb.of_sem h,hrep,hsound app' heq.1 hrep,
    .inr (.inl heq.1),?_,?_⟩
  · exact .inr (.inr (.inr ⟨howes,fun hactive => hactive.of_sem h spares_updateApp⟩))
  · intro b hb
    exact heq.1.trans (hclosing b hb)

theorem Shift.restore {r : Except DeployError (Call.updateApp a (.status live)).Res}
    (h : sem F (.updateApp a (.status live)) w r w') (happ : w.apps a = some app)
    (hfails : ∀ e, ¬ F.fails (.updateApp a (.status live)) e) (hlive : live ≠ .pending)
    (hsound : ∀ app', (Repairable live app → Repairable live app') → s'.Sound a live w' app') :
    ∃ app', Shift a live w w' app app' s s' := by
  have happly : AppUpdate.apply app (.status live) = some { app with status := live } := rfl
  have hrep : Repairable live app → Repairable live { app with status := live } :=
    fun hr => ⟨hr.1,hr.2.1,hlive⟩
  rcases app_of_updateApp happly h happ with happ' | ⟨-,e,-,he⟩
  · exact ⟨_,happ',fun _ _ hb => hb.of_sem h,hrep,hsound _ hrep,.inl rfl,.inl rfl,
      fun _ _ => rfl⟩
  · exact absurd he (hfails e)

/-- An attempt whose build is active writes `building`. -/
theorem Shift.building {r : Except DeployError (Call.updateApp a (.status .building)).Res}
    (h : sem F (.updateApp a (.status .building)) w r w') (happ : w.apps a = some app)
    (hactive : Active a w) (hworking : s.working = true)
    (hsound : ∀ app', s'.Sound a live w' app') (hclosing : ∀ b, s' ≠ .closing b) :
    ∃ app', Shift a live w w' app app' s s' := by
  have happly : AppUpdate.apply app (.status .building) = some { app with status := .building } := rfl
  have hof : ∀ x b, OfApp x w b → OfApp x w' b := fun _ _ hb => hb.of_sem h
  have hactive' : Active a w' := hactive.of_sem h spares_updateApp
  rcases app_of_updateApp happly h happ with happ' | ⟨happ',-⟩
  · refine ⟨_,happ',hof,fun hr => ⟨hr.1,hr.2.1,by simp⟩,hsound _,?_,.inr (.inl hactive'),
      fun b hb => absurd hb (hclosing b)⟩
    exact .inr (.inr ⟨rfl,hactive',hworking⟩)
  · exact ⟨app,happ',hof,id,hsound _,.inr (.inl rfl),.inr (.inl hactive'),
      fun b hb => absurd hb (hclosing b)⟩

end Shift

/-! ### The conditions -/

/-- The statements that write the status back, and those that lead to them, do not throw; nor does
one that ends a build. -/
def Restorable (a : String) (F : Faults) : Prop :=
  ∀ e, (∀ s, s ≠ .building →
      ¬ F.fails (.updateApp a (.status s)) e ∧ ¬ F.loses (.updateApp a (.status s)) e) ∧
    (¬ F.fails (.hasActiveBuild a) e ∧ ¬ F.loses (.hasActiveBuild a) e) ∧
    (¬ F.fails (.selectApp a) e ∧ ¬ F.loses (.selectApp a) e) ∧
    ∀ b, ¬ F.loses (.updateBuildStatus b .cancelled .finished) e

def Call.switches (a : String) : Call → Prop
  | switch x _ | updateApp x (.live _) | updateApp x (.liveSwarm _) | updateApp x .serving => x = a
  | _ => False

/-- When a party may make a call. An attempt must find the status it will fall back to and must not
write `building` for an ended build; a user may cancel while the app has its live status; the reaper
may end a build of an app it can repair. -/
def CallOk (a : String) (live : AppStatus) (w : World) : Party → Call → Prop
  | .attempt job _, .getAppForDeploy x => x = a → ∀ app, w.apps a = some app →
    match sourceCheck a app job.payload.imageUpdate with
    | .deploy => fallbackStatus job app = live
    | .stale _ => app.status = live
    | .refuse _ => True
  | .attempt _ _, .getAppForUser x userId => x = a → w.access a userId = false → StatusIs a live w
  | .attempt job _, .updateApp x (.status .building) => x = a → ∀ b, job.buildId = some b →
    ∃ row, w.builds b = some row ∧ row.status.active = true
  | .cancel _ _ _, .updateBuildStatus b _ _ => OfApp a w b → StatusIs a live w
  | .reaper, .updateBuildStatus b _ _ => OfApp a w b →
    ∃ app, w.apps a = some app ∧ Repairable live app
  | _, _ => True

section Steps

variable {F : Faults} {w w' : World} {ev : Event DeploySig DeployError} {a b : String}
  {live f : AppStatus} {app : AppRow} {s s' : Stage} {job : DeployJob} {dies : Option Nat}
  {l : List (String × String)}

variable {o : Call}

theorem not_error (hF : ¬ F.fails o e ∧ ¬ F.loses o e) (hrefused : ¬ Refused o w) :
    ¬ sem F o w (.error e) w' := by
  rintro ⟨now,-,⟨hfails | h,-⟩ | ⟨hloses,-⟩⟩
  · exact hF.1 hfails
  · exact hrefused h
  · exact hF.2 hloses

theorem builds_of_claim (h : sem F (.claim b expected) w (.ok (some row)) w') :
    w'.builds b = some row ∧ OfApp row.appId w b := by
  obtain ⟨now,-,h⟩ := h
  have heq : (some row, w') = World.updateBuild { w with now := now } b (claimRow expected) := h
  unfold World.updateBuild at heq
  split at heq
  · next row' hrow' =>
    obtain ⟨row0,hrow0,hclaim⟩ := bind_eq_some_iff.mp hrow'
    simp only [claimRow,ite_none_right_eq_some,some.injEq] at hclaim
    obtain ⟨rfl,rfl⟩ := heq
    refine ⟨by simp,row0,hrow0,?_⟩
    rw [← hclaim.2]
  · cases (congrArg Prod.fst heq)

theorem eq_of_getAppForDeploy (happ : w.apps a = some app)
    (h : sem F (.getAppForDeploy a) w (.ok (some found)) w') : found = app := by
  obtain ⟨now,-,hfound,-⟩ := h
  have heq : some found = w.apps a := hfound
  rw [happ] at heq
  exact some.inj heq

theorem status_of_statusIs (happ : w.apps a = some app) (h : StatusIs a live w) :
    app.status = live := by
  obtain ⟨app',happ',hlive⟩ := h
  rw [happ] at happ'
  cases happ'
  exact hlive

theorem spares_running : Spares a w (.updateBuildStatus b .running patch) := by
  rintro b' status patch' ⟨⟩ -
  rfl

variable {r : Except DeployError o.Res}

theorem shift_elsewhere (h : sem F o w r w') (happ : w.apps a = some app) (hx : x ≠ a)
    (hb : OfApp x w b) (hcall : ClaimedCall b x o) :
    Shift a live w w' app app (.elsewhere b x) (.elsewhere b x) := by
  refine .quiet h happ ?_ ?_ ⟨hx,hb.of_sem h⟩ rfl (by simp)
  · rintro update rfl
    exact hx hcall.symm
  · rintro b' status patch rfl ha
    obtain rfl : b' = b := hcall
    exact absurd (ha.unique hb) hx

theorem shift_outside (h : sem F o w r w') (happ : w.apps a = some app) (hcall : CancelCall b o)
    (hok : CallOk a live w (.cancel userId appId buildId) o) :
    Shift a live w w' app app .outside .outside := by
  have hother : ∀ update, o ≠ .updateApp a update := by
    rintro update rfl
    exact hcall
  by_cases hends : ∃ b status patch, o = .updateBuildStatus b status patch ∧ OfApp a w b
  · obtain ⟨b,status,patch,rfl,hb⟩ := hends
    exact .ending h happ hother (status_of_statusIs happ (hok hb)) trivial
  · refine .quiet h happ hother ?_ trivial rfl (by simp)
    intro b status patch ho hb
    exact absurd ⟨b,status,patch,ho,hb⟩ hends

theorem pairs_of_lists {P : BuildRow → Prop} (h : Lists l fun id appId =>
    ∃ row, w.builds id = some row ∧ row.appId = appId ∧ P row) : Pairs w l := by
  rintro ⟨id,x⟩ hmem
  obtain ⟨row,hrow,hx,-⟩ := (h id x).mp hmem
  exact ⟨row,hrow,hx⟩

theorem Pairs.of_sem (hl : Pairs w l) (h : sem F o w r w') : Pairs w' l :=
  fun p hp => (hl p hp).of_sem h

theorem shift_reap (hF : Restorable a F) {r : Except DeployError Unit}
    (h : sem F (.updateBuildStatus b .cancelled .finished) w r w') (happ : w.apps a = some app)
    (hl : Pairs w l) (hx : (b, x) ∈ l)
    (hok : CallOk a live w .reaper (.updateBuildStatus b .cancelled .finished))
    (hs' : s' = .owing l b ∧ (b, a) ∈ l ∨ s' = .calm l ∧ ((b, a) ∉ l ∨ ∃ e, r = .error e)) :
    Shift a live w w' app app (.calm l) s' := by
  have hl' := hl.of_sem h
  rcases hs' with ⟨rfl,hdebt⟩ | ⟨rfl,hcalm⟩
  · have hb : OfApp a w b := hl _ hdebt
    have hrep : Repairable live app := by
      obtain ⟨app',happ',hrep⟩ := hok hb
      rw [happ] at happ'
      cases happ'
      exact hrep
    exact ⟨apps_eq_of_sem h happ (by simp),fun _ _ hb => hb.of_sem h,id,
      ⟨hl',hb.of_sem h,hrep⟩,.inr (.inl rfl),.inr (.inr (.inl rfl)),by simp⟩
  · rcases hcalm with hother | ⟨e,rfl⟩
    · refine .quiet h happ (by simp) ?_ hl' rfl (by simp)
      rintro _ _ _ ⟨⟩ hb
      obtain rfl := hb.unique (hl _ hx)
      exact absurd hx hother
    · -- the statement has thrown without having had its effect
      have hw : ∃ now, w' = { w with now := now } := by
        obtain ⟨now,-,⟨-,hw⟩ | ⟨hloses,-⟩⟩ := h
        · exact ⟨now,hw⟩
        · exact absurd hloses ((hF e).2.2.2 b)
      obtain ⟨now,rfl⟩ := hw
      exact ⟨happ,fun _ _ hb => hb,id,hl,.inr (.inl rfl),.inr (.inr (.inr ⟨rfl,id⟩)),by simp⟩

theorem eq_of_selectApp (happ : w.apps a = some app) (h : sem F (.selectApp a) w (.ok found) w') :
    found = some app := by
  obtain ⟨now,-,hfound,-⟩ := h
  exact Eq.trans hfound happ

section Next

variable (h : sem F ev.op w ev.out w') (happ : w.apps a = some app)

include h happ

theorem shift_idle (hnext : idleNext a job ev = some s') :
    Shift a live w w' app app (.idle job) s' := by
  revert hnext
  fun_cases idleNext a job ev <;> rintro ⟨⟩
  · next row hjob ha =>
    obtain ⟨hrow,-⟩ := builds_of_claim h
    exact .still h rfl happ ⟨row,hrow,ha⟩ rfl (by simp)
  · next row hjob ha =>
    obtain ⟨hrow,-⟩ := builds_of_claim h
    exact .still h rfl happ ⟨ha,row,hrow,rfl⟩ rfl (by simp)
  · exact .still h rfl happ trivial rfl (by simp)

theorem shift_claimed (hb : OfApp a w b) (hok : CallOk a live w (.attempt job dies) ev.op)
    (hnext : claimedNext a job b ev = some s') : Shift a live w w' app app (.claimed job b) s' := by
  revert hnext
  fun_cases claimedNext a job b ev <;> rintro ⟨⟩
  · next found hcheck =>
    obtain rfl := eq_of_getAppForDeploy happ h
    have hlook := hok rfl found happ
    rw [hcheck] at hlook
    exact .still h rfl happ ⟨hb.of_sem h,hlook⟩ rfl (by simp)
  · next found u hcheck =>
    obtain rfl := eq_of_getAppForDeploy happ h
    have hlook := hok rfl found happ
    rw [hcheck] at hlook
    exact .still h rfl happ (hb.of_sem h) rfl fun _ _ => hlook
  · exact .still h rfl happ trivial rfl (by simp)
  · exact .still h rfl happ trivial rfl (by simp)

theorem shift_ready (hb : OfApp a w b) (hf : f = live) (hjob : job.buildId = some b)
    (hok : CallOk a live w (.attempt job dies) ev.op) (hnext : readyNext a b f ev = some s') :
    ∃ app', Shift a live w w' app app' (.ready b f) s' := by
  have hactive : CallOk a live w (.attempt job dies) (.updateApp a (.status .building)) →
      Active a w := by
    intro hok
    obtain ⟨row,hrow,hs⟩ := hok rfl b hjob
    obtain ⟨row',hrow',ha⟩ := hb
    rw [hrow] at hrow'
    cases hrow'
    exact ⟨b,row,hrow,ha,hs⟩
  revert hnext
  fun_cases readyNext a b f ev <;> rintro ⟨⟩
  · exact ⟨app,.still h rfl happ ⟨hb.of_sem h,hf⟩ rfl (by simp)⟩
  · next userId =>
    have hread : w.access a userId = false := by
      obtain ⟨now,-,hread,-⟩ := h
      exact hread.symm
    have hlive := status_of_statusIs happ (hok rfl hread)
    exact ⟨app,.still h rfl happ (hb.of_sem h) rfl fun _ _ => hlive⟩
  · exact ⟨app,.still h rfl happ trivial rfl (by simp)⟩
  · exact ⟨app,.still h rfl happ ⟨hb.of_sem h,hf⟩ rfl (by simp)⟩
  · exact ⟨app,.still h rfl happ trivial rfl (by simp)⟩
  · next hcond =>
    obtain ⟨rfl,rfl⟩ := hcond
    exact ⟨app,.quiet h happ (by simp) spares_running ⟨hb.of_sem h,hf⟩ rfl
      (by simp)⟩
  · next hcond =>
    obtain ⟨rfl,rfl⟩ := hcond
    exact ⟨app,.quiet h happ (by simp) spares_running trivial rfl (by simp)⟩
  · next hcond =>
    obtain ⟨rfl,rfl⟩ := hcond
    have hb' := hb.of_sem h
    exact Shift.building h happ (hactive hok) rfl (fun _ => ⟨hb',hf⟩) (by simp)
  · next hcond =>
    obtain ⟨rfl,rfl⟩ := hcond
    exact Shift.building h happ (hactive hok) rfl (fun _ => trivial) (by simp)

theorem shift_busy (hF : Restorable a F) (hlive : live ≠ .building ∧ live ≠ .pending)
    (hb : OfApp a w b) (hf : f = live) (hswitch : ¬ Call.switches a ev.op)
    (hnext : busyNext a b f ev = some s') : ∃ app', Shift a live w w' app app' (.busy b f) s' := by
  revert hnext
  fun_cases busyNext a b f ev <;> rintro ⟨⟩
  · exact ⟨app,.still h rfl happ ⟨hb.of_sem h,hf⟩ rfl (by simp)⟩
  · next hcond =>
    obtain ⟨rfl,rfl⟩ := hcond
    exact ⟨app,.quiet h happ (by simp) spares_running ⟨hb.of_sem h,hf⟩ rfl
      (by simp)⟩
  -- the four calls that switch
  · exact absurd rfl hswitch
  · exact absurd rfl hswitch
  · exact absurd rfl hswitch
  · exact absurd rfl hswitch
  · next hcond =>
    obtain ⟨rfl,rfl⟩ := hcond
    subst hf
    have hb' := hb.of_sem h
    exact Shift.restore h happ (fun e => ((hF e).1 _ hlive.1).1) hlive.2 fun _ _ => hb'
  · next e hcond =>
    obtain ⟨rfl,rfl⟩ := hcond
    subst hf
    exact absurd h (not_error ((hF e).1 _ hlive.1) id)

theorem shift_closing (hb : OfApp a w b) (hstatus : app.status = live)
    (hnext : closingNext a b ev = some s') :
    ∃ app', Shift a live w w' app app' (.closing b) s' := by
  revert hnext
  fun_cases closingNext a b ev <;> rintro ⟨⟩
  · have hb' := hb.of_sem h
    exact Shift.release h happ (fun _ _ _ => hb') rfl fun _ _ => hstatus
  · exact ⟨app,.ending h happ (by simp) hstatus (hb.of_sem h)⟩
  · exact ⟨app,.ending h happ (by simp) hstatus trivial⟩

theorem shift_ended (hnext : endedNext a ev = some s') :
    ∃ app', Shift a live w w' app app' .ended s' := by
  revert hnext
  fun_cases endedNext a ev <;> rintro ⟨⟩
  exact Shift.release h happ (fun _ _ _ => trivial) rfl (by simp)

theorem shift_calm (hF : Restorable a F) (hl : Pairs w l) (hok : CallOk a live w .reaper ev.op)
    (hnext : calmNext a l ev = some s') : Shift a live w w' app app (.calm l) s' := by
  revert hnext
  fun_cases calmNext a l ev <;> rintro ⟨⟩
  · next l' =>
    have hl' : Pairs w' l' := by
      obtain ⟨now,-,hlists,rfl⟩ := h
      exact pairs_of_lists hlists
    exact .still h rfl happ hl' rfl (by simp)
  · next l' =>
    have hl' : Pairs w' l' := by
      obtain ⟨now,-,hlists,rfl⟩ := h
      exact pairs_of_lists hlists
    exact .still h rfl happ hl' rfl (by simp)
  · exact .still h rfl happ (hl.of_sem h) rfl (by simp)
  · exact .still h rfl happ (hl.of_sem h) rfl (by simp)
  · next hcond _ hdebt =>
    obtain ⟨rfl,rfl,x,hx⟩ := hcond
    exact shift_reap hF h happ hl hx hok (.inl ⟨rfl,List.contains_iff_mem.mp hdebt⟩)
  · next hcond _ hdebt =>
    obtain ⟨rfl,rfl,x,hx⟩ := hcond
    exact shift_reap hF h happ hl hx hok (.inr ⟨rfl,.inl (mt List.contains_iff_mem.mpr hdebt)⟩)
  · next hcond e =>
    obtain ⟨rfl,rfl,x,hx⟩ := hcond
    exact shift_reap hF h happ hl hx hok (.inr ⟨rfl,.inr ⟨e,rfl⟩⟩)
  · exact .still h rfl happ (hl.of_sem h) rfl (by simp)
  · exact .still h rfl happ (hl.of_sem h) rfl (by simp)
  · next x update r hx =>
    refine .quiet h happ ?_ spares_updateApp (hl.of_sem h) rfl (by simp)
    rintro _ ⟨⟩
    exact hx rfl

theorem shift_owing (hF : Restorable a F) (hl : Pairs w l) (hb : OfApp a w b)
    (hrep : Repairable live app) (hnext : owingNext a l b ev = some s') :
    Shift a live w w' app app (.owing l b) s' := by
  revert hnext
  fun_cases owingNext a l b ev <;> rintro ⟨⟩
  · exact .query h happ (by simp) ⟨hl.of_sem h,hrep⟩
      (.inr (.inr (.inl rfl))) (by simp)
  · next hx hne => exact absurd (hb.unique (hl _ (List.contains_iff_mem.mp hx))) hne
  · next x r hfalse hx =>
    obtain rfl : x = a := hb.unique (hl _ (List.contains_iff_mem.mp hx))
    have hactive : Active x w' := by
      cases r with
      | error e => exact absurd h (not_error (hF e).2.1 id)
      | ok hasActive =>
        cases hasActive with
        | false => exact absurd rfl hfalse
        | true =>
          obtain ⟨now,-,hiff,rfl⟩ := h
          exact hiff.mp rfl
    exact .query h happ (by simp) (hl.of_sem h) (.inr (.inl hactive)) (by simp)

theorem shift_checked (hF : Restorable a F)
    (hstatus : app.status = live ∨ app.status = .building ∨ app.status = .pending)
    (hl : Pairs w l) (hrep : Repairable live app) (hnext : checkedNext a l ev = some s') :
    Shift a live w w' app app (.checked l) s' := by
  revert hnext
  fun_cases checkedNext a l ev <;> rintro ⟨⟩
  · next found hbuilding =>
    cases eq_of_selectApp happ h
    have hlive : repairedStatus app = live := by
      rw [repairedStatus,if_pos hrep.2.1,hrep.1]
    exact .query h happ (by simp) ⟨hl.of_sem h,hrep,hlive⟩
      (.inr (.inr (.inl rfl))) (by simp)
  · next found hbuilding =>
    cases eq_of_selectApp happ h
    have hlive : app.status = live := by
      rcases hstatus with hs | hs | hs
      · exact hs
      · exact absurd hs hbuilding
      · exact absurd hs hrep.2.2
    exact .query h happ (by simp) (hl.of_sem h) (.inl hlive) (by simp)
  · next r hnone =>
    cases r with
    | error e => exact absurd h (not_error (hF e).2.2.1 id)
    | ok found =>
      cases eq_of_selectApp happ h
      exact absurd rfl (hnone app)

theorem shift_about (hF : Restorable a F) (hlive : live ≠ .building ∧ live ≠ .pending)
    (hl : Pairs w l) (hs : status = live) (hnext : aboutNext a l status ev = some s') :
    ∃ app', Shift a live w w' app app' (.about l status) s' := by
  revert hnext
  fun_cases aboutNext a l status ev <;> rintro ⟨⟩
  next hcond =>
  obtain ⟨rfl,rfl⟩ := hcond
  subst hs
  have hl' := hl.of_sem h
  exact Shift.restore h happ (fun e => ((hF e).1 _ hlive.1).1) hlive.2 fun _ _ => hl'

end Next

theorem shift_of_next (ev : Event DeploySig DeployError) (hF : Restorable a F)
    (hlive : live = .running ∨ live = .serving) (h : sem F ev.op w ev.out w')
    (happ : w.apps a = some app)
    (hstatus : app.status = live ∨ app.status = .building ∨ app.status = .pending)
    (hof : s.Of party) (hs : s.Sound a live w app)
    (hclosing : ∀ b, s = .closing b → app.status = live) (hswitch : ¬ Call.switches a ev.op)
    (hok : CallOk a live w party ev.op) (hnext : stageNext a s ev = some s') :
    ∃ app', Shift a live w w' app app' s s' := by
  have hother : live ≠ .building ∧ live ≠ .pending := by
    rcases hlive with rfl | rfl <;> simp
  cases s with
  | idle job => exact ⟨app,shift_idle h happ hnext⟩
  | claimed job b =>
    cases party with
    | attempt job' dies =>
      obtain ⟨rfl,-⟩ := hof
      exact ⟨app,shift_claimed h happ hs hok hnext⟩
    | _ => exact hof.elim
  | ready b f =>
    cases party with
    | attempt job dies => exact shift_ready h happ hs.1 hs.2 hof hok hnext
    | _ => exact hof.elim
  | busy b f => exact shift_busy h happ hF hother hs.1 hs.2 hswitch hnext
  | closing b => exact shift_closing h happ hs (hclosing b rfl) hnext
  | ended => exact shift_ended h happ hnext
  | lost => exact hs.elim
  | elsewhere b x =>
    simp only [stageNext,ite_none_right_eq_some,some.injEq] at hnext
    obtain ⟨hcall,rfl⟩ := hnext
    exact ⟨app,shift_elsewhere h happ hs.1 hs.2 hcall⟩
  | outside =>
    simp only [stageNext,ite_none_right_eq_some,some.injEq] at hnext
    obtain ⟨⟨b,hcall⟩,rfl⟩ := hnext
    cases party with
    | cancel userId appId buildId => exact ⟨app,shift_outside h happ hcall hok⟩
    | _ => exact hof.elim
  | calm l =>
    cases party with
    | reaper => exact ⟨app,shift_calm h happ hF hs hok hnext⟩
    | _ => exact hof.elim
  | owing l b => exact ⟨app,shift_owing h happ hF hs.1 hs.2.1 hs.2.2 hnext⟩
  | checked l => exact ⟨app,shift_checked h happ hF hstatus hs.1 hs.2 hnext⟩
  | about l status => exact shift_about h happ hF hother hs.1 hs.2.2 hnext

end Steps

end Ploydok.Builds
