import Ploydok.Builds.Shifts

/-! The status of an app after a redeploy that did not get through: the `catch` block of the deploy
handler, the cancel route and the reaper each have their own idea of what the app was before. -/

namespace Ploydok.Builds

open Effect Effect.Prog Queue

/-- The rows that `fetchRunningAppsForCaddy` selects. -/
def AppRow.reconciled (app : AppRow) : Bool :=
  (app.status = .running || app.status = .restarting || app.status = .serving) && app.domain.isSome

section Interleavings

variable {ι : Type} [DecidableEq ι] {F : Faults} {w : World} {a : String} {live : AppStatus}
  {parties : ι → Party} {c : BuildPool ι} {φ : ι → Stage} {app app' : AppRow} {i : ι} {s : Stage}
  {party : Party}

def AttemptAt (a : String) (w : World) (party : Party) : Prop :=
  ∃ job dies b, party = .attempt job dies ∧ job.buildId = some b ∧ OfApp a w b

def Unswitched (a : String) (c : BuildPool ι) (i : ι) : Prop :=
  ∀ o k, c.prog i = .call o k → ¬ Call.switches a o

/-- The call meets its condition, and a build of the app is claimed only while no other attempt at
the app is half way. -/
def RedeployOk (a : String) (live : AppStatus) (parties : ι → Party) (c : BuildPool ι) (i : ι) :
    Prop :=
  Unswitched a c i ∧ ∀ o k, c.prog i = .call o k → CallOk a live c.world (parties i) o ∧
    ∀ b expected, o = .claim b expected → OfApp a c.world b →
      ∀ j, j ≠ i → AttemptAt a c.world (parties j) → ¬ c.InProgress j

/-- While a build is active, or the reaper has not finished what it began, the status may be
another one. -/
structure Steady (a : String) (live : AppStatus) (parties : ι → Party) (c : BuildPool ι)
    (φ : ι → Stage) (app : AppRow) : Prop where
  app_eq : c.world.apps a = some app
  status : app.status = live ∨ app.status = .building ∨ app.status = .pending
  party : ∀ i, (φ i).Of (parties i)
  sound : ∀ i, (φ i).Sound a live c.world app
  covered : app.status = live ∨ Active a c.world ∨ ∃ i, (φ i).owes = true
  closing : ∀ i b, φ i = .closing b → (c.prog i).done = false → app.status = live
  alone : ∀ i j, (φ i).working = true → (φ j).working = true → (c.prog i).done = false →
    (c.prog j).done = false → i = j

theorem attempt_of_working (hof : s.Of party)
    (hworking : s.working = true) : ∃ job dies, party = .attempt job dies := by
  cases party with
  | attempt job dies => exact ⟨job,dies,rfl⟩
  | cancel userId appId buildId =>
    cases s with
    | outside => cases hworking
    | _ => exact hof.elim
  | reaper =>
    cases s with
    | calm | owing | checked | about => cases hworking
    | _ => exact hof.elim

theorem attemptAt_of_working (hof : s.Of party)
    (hs : s.Sound a live w app) (hworking : s.working = true) : AttemptAt a w party := by
  obtain ⟨job,dies,rfl⟩ := attempt_of_working hof hworking
  cases s with
  | claimed job' b =>
    obtain ⟨rfl,hb⟩ := hof
    exact ⟨job',dies,b,rfl,hb,hs⟩
  | ready b f | busy b f => exact ⟨job,dies,b,rfl,hof,hs.1⟩
  | closing b => exact ⟨job,dies,b,rfl,hof,hs⟩
  | _ => cases hworking

theorem claim_of_working (ev : Event DeploySig DeployError) (h : sem F ev.op w ev.out w')
    (hof : s.Of party) (hnext : stageNext a s ev = some s') (hs : s.working = false)
    (hs' : s'.working = true) :
    ∃ b expected, ev.op = .claim b expected ∧ OfApp a w b := by
  obtain ⟨job,dies,rfl⟩ := attempt_of_working (Stage.of_next hof hnext) hs'
  cases s with
  | claimed | ready | busy | closing => cases hs
  | idle job =>
    revert hnext
    show idleNext a job ev = some s' → _
    fun_cases idleNext a job ev <;> rintro ⟨⟩
    · next ha => exact ⟨_,_,rfl,ha ▸ (builds_of_claim h).2⟩
    · cases hs'
    · cases hs'
  | ended =>
    revert hnext
    show endedNext a ev = some s' → _
    fun_cases endedNext a ev <;> rintro ⟨⟩
    cases hs'
  | lost =>
    cases hnext
    cases hs'
  | elsewhere =>
    simp only [stageNext,Option.ite_none_right_eq_some,Option.some.injEq] at hnext
    rw [← hnext.2] at hs'
    cases hs'
  | _ => exact hof.elim

theorem Steady.step (hJ : Steady a live parties c φ app) (hc : c.prog i = .call o k)
    (hshift : Shift a live c.world w' app app' (φ i) s') (hof : s'.Of (parties i))
    (halone : s'.working = true → (φ i).working = true ∨
      ∀ j, j ≠ i → (φ j).working = true → (c.prog j).done = true) :
    Steady a live parties (c.advance i ⟨o,r⟩ (k r) w') (Function.update φ i s') app' := by
  have hrunning : (c.prog i).done = false := by
    rw [hc]
    rfl
  -- nobody else is at work while this party is or gets to be
  have hothers : s'.working = true ∨ (φ i).working = true → ∀ j, j ≠ i → (φ j).working = true →
      (c.prog j).done = true := by
    intro hi j hj hworking
    by_contra hdone
    have hsame : (φ i).working = true → j = i :=
      fun hold => hJ.alone j i hworking hold (by simpa using hdone) hrunning
    rcases hi with hs' | hold
    · rcases halone hs' with hold | hnone
      · exact hj (hsame hold)
      · exact hdone (hnone j hj hworking)
    · exact hj (hsame hold)
  constructor
  · exact hshift.app_eq
  · rcases hshift.status with hs | hs | ⟨hs,-⟩
    · exact .inl hs
    · rw [hs]
      exact hJ.status
    · exact .inr (.inl hs)
  · exact (Function.forall_update_iff φ fun j s => s.Of (parties j)).mpr
      ⟨hof,fun j _ => hJ.party j⟩
  · exact (Function.forall_update_iff φ fun _ s => s.Sound a live w' app').mpr
      ⟨hshift.sound,fun j _ => (hJ.sound j).mono hshift.ofApp hshift.repairable⟩
  · rcases hshift.covered with hs | hs | hs | ⟨howes,hactive⟩
    · exact .inl hs
    · exact .inr (.inl hs)
    · exact .inr (.inr ⟨i,by simpa using hs⟩)
    · rcases hshift.status with hs | hs | ⟨-,hs,-⟩
      · exact .inl hs
      · rcases hJ.covered with hold | hold | ⟨j,hold⟩
        · exact .inl (hs.trans hold)
        · exact .inr (.inl (hactive hold))
        · have hj : j ≠ i := by
            rintro rfl
            simp [howes] at hold
          exact .inr (.inr ⟨j,by simpa [hj] using hold⟩)
      · exact .inr (.inl hs)
  · intro j b hclosing hdone
    by_cases hj : j = i
    · subst hj
      exact hshift.closing b (by simpa using hclosing)
    · have hclosing : φ j = .closing b := by simpa [hj] using hclosing
      have hdone : (c.prog j).done = false := by simpa [hj] using hdone
      rcases hshift.status with hs | hs | ⟨-,-,hold⟩
      · exact hs
      · exact hs.trans (hJ.closing j b hclosing hdone)
      · have := hothers (.inr hold) j hj (by rw [hclosing]; rfl)
        simp [hdone] at this
  · intro j j' hj hj' hdone hdone'
    by_cases hji : j = i
    · by_cases hji' : j' = i
      · rw [hji,hji']
      · subst hji
        have := hothers (.inl (by simpa using hj)) j' hji' (by simpa [hji'] using hj')
        simp [hji',this] at hdone'
    · by_cases hji' : j' = i
      · subst hji'
        have := hothers (.inl (by simpa using hj')) j hji (by simpa [hji] using hj)
        simp [hji,this] at hdone
      · exact hJ.alone j j' (by simpa [hji] using hj) (by simpa [hji'] using hj')
          (by simpa [hji] using hdone) (by simpa [hji'] using hdone')

/-- A build is pending or running, or a reaper pass is half way, or the app has its live status. -/
def StillLive (a : String) (live : AppStatus) (parties : ι → Party) (c : BuildPool ι) : Prop :=
  ¬ Active a c.world → (∀ i, parties i = .reaper → ¬ c.InProgress i) →
    ∃ app, c.world.apps a = some app ∧ app.status = live ∧
      (app.domain.isSome = true → app.reconciled = true)

def startParties (w : World) (parties : ι → Party) : BuildPool ι :=
  .start w fun i => (parties i).program

theorem steady_of_reach (hlive : live = .running ∨ live = .serving) (hF : Restorable a F)
    (hw : StatusIs a live w ∨ Active a w ∧ (StatusIs a .building w ∨ StatusIs a .pending w))
    (h : Pool.Reach (sem F) (RedeployOk a live parties) (startParties w parties) c) :
    ∃ φ, Pool.Phased (stageProtocol a) Stage.Even (fun i => Stage.start (parties i)) c φ ∧
      ∃ app, Steady a live parties c φ app := by
  refine Pool.reach_phased (stageProtocol a) Stage.Even
    (fun i => Stage.follows_program a (parties i)) (fun c φ => ∃ app, Steady a live parties c φ app)
    ?_ ?_ h
  · obtain ⟨app,happ,hstatus,hcovered⟩ : ∃ app, w.apps a = some app ∧
        (app.status = live ∨ app.status = .building ∨ app.status = .pending) ∧
        (app.status = live ∨ Active a w) := by
      rcases hw with ⟨app,happ,hs⟩ | ⟨hactive,⟨app,happ,hs⟩ | ⟨app,happ,hs⟩⟩
      · exact ⟨app,happ,.inl hs,.inl hs⟩
      · exact ⟨app,happ,.inr (.inl hs),.inr hactive⟩
      · exact ⟨app,happ,.inr (.inr hs),.inr hactive⟩
    refine ⟨app,happ,hstatus,fun i => Stage.of_start _,fun i => ?_,?_,fun i b hi => ?_,
      fun i j hi => ?_⟩
    · cases hparty : parties i with
      | attempt | cancel => trivial
      | reaper => exact nofun
    · exact hcovered.imp_right .inl
    · cases hp : parties i <;> simp [hp,Stage.start] at hi
    · simp [Stage.working_start] at hi
  · intro c φ i o k r w' s' hφ hJ hok hc hs hnext _
    obtain ⟨app,hJ⟩ := hJ
    obtain ⟨hswitch,hok⟩ := hok
    obtain ⟨hcall,hclaim⟩ := hok o k hc
    have hrunning : (c.prog i).done = false := by
      rw [hc]
      rfl
    obtain ⟨app',hshift⟩ := shift_of_next ⟨o,r⟩ hF hlive hs hJ.app_eq hJ.status
      (hJ.party i) (hJ.sound i) (fun b hb => hJ.closing i b hb hrunning) (hswitch o k hc) hcall hnext
    refine ⟨app',hJ.step hc hshift (Stage.of_next (hJ.party i) hnext) fun hs' => ?_⟩
    by_cases hold : (φ i).working = true
    · exact .inl hold
    · obtain ⟨b,expected,ho,hb⟩ :=
        claim_of_working ⟨o,r⟩ hs (hJ.party i) hnext (by simpa using hold) hs'
      refine .inr fun j hj hworking => ?_
      have hidle := hclaim b expected ho hb j hj
        (attemptAt_of_working (hJ.party j) (hJ.sound j) hworking)
      -- whoever is at work has made a call
      have hlog : c.log j ≠ [] := hφ.log_ne_nil fun hstart => by
        rw [hstart,Stage.working_start] at hworking
        cases hworking
      by_contra hdone
      exact hidle ⟨hlog,by simpa using hdone⟩

theorem reconciled_of_live (hlive : live = .running ∨ live = .serving) (hs : app.status = live)
    (hdomain : app.domain.isSome = true) : app.reconciled = true := by
  rcases hlive with rfl | rfl <;> simp [AppRow.reconciled,hs,hdomain]

end Interleavings

/-- In every run that meets the conditions, the app has its live status whenever none of its builds
is active. -/
theorem failed_redeploy_keeps_live {ι : Type} [DecidableEq ι] (F : Faults) (w : World)
    (parties : ι → Party) (a : String) (live : AppStatus)
    (hlive : live = .running ∨ live = .serving) (hF : Restorable a F)
    (hw : StatusIs a live w ∨ Active a w ∧ (StatusIs a .building w ∨ StatusIs a .pending w)) :
    ∀ c, Pool.Reach (sem F) (RedeployOk a live parties) (startParties w parties) c →
      StillLive a live parties c := by
  intro c h hinactive hreapers
  obtain ⟨φ,hφ,app,hJ⟩ := steady_of_reach hlive hF hw h
  have hstatus : app.status = live := by
    rcases hJ.covered with hs | hactive | ⟨i,howes⟩
    · exact hs
    · exact absurd hactive hinactive
    · -- a debt is one of a reaper that is half way
      have hreaper : parties i = .reaper := Stage.reaper_of_owes (hJ.party i) howes
      have hlog : c.log i ≠ [] := hφ.log_ne_nil fun hstart => by
        rw [hstart,Stage.owes_start] at howes
        cases howes
      have hdone : (c.prog i).done = false := by
        by_contra hdone
        obtain ⟨r,hr⟩ := hφ.exists_outcome (by simpa using hdone)
        rw [show (φ i).owes = false from hr] at howes
        cases howes
      exact absurd ⟨hlog,hdone⟩ (hreapers i hreaper)
  exact ⟨app,hJ.app_eq,hstatus,reconciled_of_live hlive hstatus⟩

namespace Shop

def unreachable : Script :=
  { script with
    throws := fun
      | .phase .clone => some (.other "clone failed")
      | _ => none }

def site : AppRow := { app with status := .serving, buildMethod := some .static, containerId := none }

def redeploy : Party := .attempt ⟨payload,1,1⟩ none

def redeployed (app : AppRow) (n : Nat) : BuildPool Unit :=
  (List.replicate n ()).foldl (Pool.tick unreachable.respond)
    (startParties (world app) fun _ => redeploy)

def mayCall (live : AppStatus) (w : World) : Call → Bool
  | .getAppForDeploy _ => (w.apps "shop").all fun app =>
    sourceCheck "shop" app none = .deploy && fallbackStatus ⟨payload,1,1⟩ app = live
  | .updateApp _ (.status .building) => (w.builds "b1").any (·.status.active)
  | .getAppForUser _ _ | .switch _ _ | .updateApp _ (.live _) | .updateApp _ (.liveSwarm _)
  | .updateApp _ .serving => false
  | _ => true

def mayStep (live : AppStatus) (c : BuildPool Unit) (_ : Unit) : Prop :=
  match c.prog () with
  | .call o _ => mayCall live c.world o = true
  | _ => True

instance (live : AppStatus) (c : BuildPool Unit) (i : Unit) : Decidable (mayStep live c i) := by
  unfold mayStep
  split <;> infer_instance

theorem callOk_of_mayCall (h : mayCall live w o = true) :
    ¬ Call.switches "shop" o ∧ CallOk "shop" live w redeploy o := by
  cases o with
  | getAppForDeploy x =>
    refine ⟨id,fun _ app happ => ?_⟩
    simp only [mayCall,happ,Option.all_some,Bool.and_eq_true,decide_eq_true_eq] at h
    have hcheck : sourceCheck "shop" app payload.imageUpdate = .deploy := h.1
    rw [hcheck]
    exact h.2
  | getAppForUser | switch => cases h
  | updateApp x update =>
    cases update with
    | live | liveSwarm | serving => cases h
    | status s =>
      cases s with
      | building =>
        refine ⟨id,fun _ b hb => ?_⟩
        obtain rfl : "b1" = b := Option.some.inj hb
        simpa [mayCall,Option.any_eq_true] using h
      | _ => exact ⟨id,trivial⟩
    | _ => exact ⟨id,trivial⟩
  | _ => exact ⟨id,trivial⟩

theorem redeployOk_of_mayStep (live : AppStatus) (h : mayStep live c i) :
    RedeployOk "shop" live (fun _ => redeploy) c i := by
  have hcall : ∀ o k, c.prog i = .call o k → mayCall live c.world o = true := by
    intro o k hc
    unfold mayStep at h
    rw [show c.prog () = .call o k from hc] at h
    exact h
  refine ⟨fun o k hc => (callOk_of_mayCall (hcall o k hc)).1,fun o k hc =>
    ⟨(callOk_of_mayCall (hcall o k hc)).2,fun _ _ _ _ j hj => absurd rfl hj⟩⟩

end Shop

open Shop

/-- The redeploy of the shop fails at the clone; its 11 calls leave the shop running. -/
theorem failed_redeploy_keeps_live_shop :
    Restorable "shop" unreachable.faults ∧ StatusIs "shop" .running (world app) ∧
      Pool.Reach (sem unreachable.faults) (RedeployOk "shop" .running fun _ => redeploy)
        (startParties (world app) fun _ => redeploy) (redeployed app 11) ∧
      StillLive "shop" .running (fun _ => redeploy) (redeployed app 11) ∧
      ((redeployed app 11).world.builds "b1").map (·.status) = some .failed := by
  have hF : Restorable "shop" unreachable.faults := by
    intro e
    refine ⟨fun s _ => ⟨nofun,id⟩,⟨nofun,id⟩,⟨nofun,id⟩,fun _ => id⟩
  have hw : StatusIs "shop" .running (world app) := ⟨app,rfl,rfl⟩
  have hreach : Pool.Reach (sem unreachable.faults) (RedeployOk "shop" .running fun _ => redeploy)
      (startParties (world app) fun _ => redeploy) (redeployed app 11) := by
    refine Script.reach_script (within_world app) _ (Pool.Admits.mono
      (fun c i h => redeployOk_of_mayStep .running h) ?_)
    decide +kernel
  exact ⟨hF,hw,hreach,failed_redeploy_keeps_live _ _ _ _ _ (.inl rfl) hF (.inl hw) _ hreach,
    by decide +kernel⟩

/-- A static site is served; its redeploy fails at the clone and leaves it failed. -/
theorem failed_redeploy_fails_static_site :
    ¬ ∀ (ι : Type) [DecidableEq ι] (F : Faults) (w : World) (parties : ι → Party) (a : String)
      (live : AppStatus), (live = .running ∨ live = .serving) → StatusIs a live w →
      ∀ c, Pool.Reach (sem F) (Unswitched a) (startParties w parties) c →
        StillLive a live parties c := by
  intro h
  have hreach : Pool.Reach (sem unreachable.faults) (Unswitched "shop")
      (startParties (world site) fun _ => redeploy) (redeployed site 11) := by
    refine Script.reach_script (within_world site) _ (Pool.Admits.mono
      (fun c i h => (redeployOk_of_mayStep .failed h).1) ?_)
    decide +kernel
  have hlive := h Unit _ _ _ _ _ (.inr rfl) ⟨site,rfl,rfl⟩ _ hreach
  have hstatus : ((redeployed site 11).world.apps "shop").map (·.status) =
      some .failed := by decide +kernel
  have hinactive : ¬ Active "shop" (redeployed site 11).world := by
    have hwithin : unreachable.Within (redeployed site 11).world :=
      Script.within_run (within_world site) _
    intro hactive
    have hsome := (Script.isEmpty_buildsWhere hwithin "shop").mpr hactive
    revert hsome
    decide +kernel
  obtain ⟨app,happ,hserving,-⟩ := hlive hinactive nofun
  rw [happ,Option.map_some,hserving] at hstatus
  cases hstatus

end Ploydok.Builds
