import Ploydok.Builds.Execution

/-! The life cycle of a build. Deploy attempts, cancel requests and the reaper share the rows, with
their statements in any order. A finished build stays as it is, except that a retry may claim a
failed one. -/

namespace Ploydok.Builds

open Effect Effect.Prog Queue List Option

inductive Actor where
  | attempt (job : DeployJob)
  | cancel (userId appId buildId : String)
  | reaper

def Actor.program : Actor → DeployProg Unit
  | attempt job => handleDeploy job
  | cancel userId appId buildId => (cancelBuild userId appId buildId).bind fun _ => .ret ()
  | reaper => reapStuckBuilds

variable {ι : Type} [DecidableEq ι]

abbrev BuildPool (ι : Type) := Pool DeploySig DeployError Unit ι World

def startBuilds (w : World) (actors : ι → Actor) : BuildPool ι :=
  .start w fun i => (actors i).program

/-! ### Attempts -/

inductive Hold where
  /-- It has not claimed the build. -/
  | idle
  /-- It has claimed the build of an app, and has not yet written or seen a final status. -/
  | holding (appId : String)
  | closed
  /-- Something has gone wrong outside the `try` block. -/
  | excused
  deriving DecidableEq, Repr

def Hold.released : Hold → Bool
  | holding _ => false
  | _ => true

/-- The app passes the checks that come before the `try` block. -/
def AppRow.deployable (app : AppRow) : Bool :=
  (if app.gitProvider = some .image then (truthy app.imageRef).isSome
    else (truthy app.repoFullName).isSome && (truthy app.branch).isSome) &&
  app.buildMethod ≠ some .compose

/-- The calls of the deploy handler before its `try` block and in its `finally` block. -/
def Call.unguarded : Call → Bool
  | claim _ _ | getAppForDeploy _ | getAppForUser _ _ | hydrateBuild _ | selectBuildStatus _ => true
  | updateBuildStatus _ status patch => !status.active || patch = .started || patch = .logPath
  | updateApp _ (.status s) => s = .building
  | phase p => p = .openLog
  | _ => false

def holdNext (b : String) : Hold → Event DeploySig DeployError → Hold
  | .idle, ⟨.claim id _,.ok (some row)⟩ => if id = b then .holding row.appId else .idle
  | .idle, ⟨.claim id _,.error _⟩ => if id = b then .excused else .idle
  | .idle, _ => .idle
  | .holding a, ⟨.updateBuildStatus id status _,.ok _⟩ =>
    if id = b ∧ status.active = false then .closed else .holding a
  | .holding a, ⟨.selectBuildStatus id,.ok (some .cancelled)⟩ =>
    if id = b then .closed else .holding a
  | .holding a, ⟨.getAppForDeploy id,.ok none⟩ => if id = a then .excused else .holding a
  | .holding a, ⟨.getAppForDeploy id,.ok (some app)⟩ =>
    if id = a ∧ app.deployable = false then .excused else .holding a
  | .holding a, ⟨o,.error _⟩ => if o.unguarded then .excused else .holding a
  | .holding a, _ => .holding a
  | .closed, ⟨.claim id _,.ok (some row)⟩ => if id = b then .holding row.appId else .closed
  | .closed, ⟨.claim id _,.error _⟩ => if id = b then .excused else .closed
  | .closed, _ => .closed
  | .excused, _ => .excused

def holdProtocol (b : String) : Protocol DeploySig DeployError :=
  ⟨Hold,fun s ev => some (holdNext b s ev)⟩

section Follows

variable {a b buildId appId : String} {job : DeployJob} {app : AppRow} {α : Type}

attribute [local simp] holdNext

variable {o : Call} {s : Hold}

abbrev Tracks (b : String) (p : DeployProg α) (s : Hold)
    (Q : Hold → Except DeployError α → Prop) : Prop :=
  p.Follows (holdProtocol b) s Q

theorem holdNext_of_not_claim (h : ∀ expected, o ≠ .claim b expected)
    (r : Except DeployError o.Res) :
    holdNext b .idle ⟨o,r⟩ = .idle ∧ holdNext b .closed ⟨o,r⟩ = .closed := by
  cases o with
  | claim id expected =>
    have hid : id ≠ b := by
      rintro rfl
      exact h expected rfl
    cases r with
    | error e => simp [hid]
    | ok claimed =>
      cases claimed with
      | none => exact ⟨rfl,rfl⟩
      | some row => simp [hid]
  | _ => exact ⟨rfl,rfl⟩

theorem holdNext_of_guarded (h : o.unguarded = false) (r : Except DeployError o.Res) :
    holdNext b (.holding a) ⟨o,r⟩ = .holding a := by
  cases r with
  | ok x =>
    cases o with
    | updateBuildStatus id status patch =>
      have hactive : status.active = true := by
        simp [Call.unguarded] at h
        exact h.1.1
      simp [hactive]
    | selectBuildStatus | getAppForDeploy => cases h
    | _ => rfl
  | error e => simp [h]

theorem BodyCall.guarded (h : BodyCall buildId appId o) : o.unguarded = false := by
  cases o with
  | updateBuildStatus id status patch =>
    obtain ⟨-,rfl,rfl | rfl | rfl⟩ := h <;> rfl
  | updateApp id update =>
    cases update with
    | status s => exact h.elim
    | _ => rfl
  | phase p => simpa [Call.unguarded,BodyCall] using h
  | switch id target => rfl
  | _ => exact h.elim

/-- A call before the `try` block or in the `finally` block: what throws is excused. -/
theorem follows_unguarded {β : Type} {f : o.Res → DeployProg β}
    {Q : Hold → Except DeployError β → Prop} (h : o.unguarded = true)
    (hok : ∀ x, ∃ t, holdNext b (.holding a) ⟨o,.ok x⟩ = t ∧ Tracks b (f x) t Q)
    (herr : ∀ e, Q .excused (.error e)) : Tracks b ((call o).bind f) (.holding a) Q := by
  refine follows_perform_bind (fun x => ?_) fun e => ?_
  · obtain ⟨t,ht,hf⟩ := hok x
    exact ⟨t,congrArg some ht,hf⟩
  · exact ⟨.excused,by simp [holdProtocol,h],herr e⟩

theorem follows_excused (p : DeployProg α) : Tracks b p .excused fun s _ => s = .excused := by
  refine follows_of_calls (A := holdProtocol b) (· = Hold.excused) (calls_true p) ?_ rfl
  rintro _ o r rfl -
  exact ⟨_,rfl,rfl⟩

/-- Within the `try` block the build stays held. -/
theorem follows_deployBody :
    Tracks b (deployBody job b appId app) (.holding a) fun s _ => s = .holding a := by
  refine follows_of_calls (A := holdProtocol b) (· = Hold.holding a) calls_deployBody ?_ rfl
  rintro _ o r rfl ho
  exact ⟨_,rfl,holdNext_of_guarded ho.guarded r⟩

def Hold.Open (a : String) (s : Hold) : Prop := s = .holding a ∨ s = .excused

theorem follows_afterFailure :
    Tracks b (afterFailure job appId app) (.holding a) fun s _ => s.Open a := by
  refine follows_of_calls (A := holdProtocol b) (Hold.Open a) calls_afterFailure ?_ (.inl rfl)
  rintro _ _ r (rfl | rfl) ⟨update,rfl⟩
  · refine ⟨_,rfl,?_⟩
    cases r with
    | ok x => exact .inl rfl
    | error e =>
      dsimp only [holdNext]
      split
      · exact .inr rfl
      · exact .inl rfl
  · exact ⟨_,rfl,.inr rfl⟩

theorem holdNext_select (id : String) (current : Option BuildStatus) :
    holdNext b (.holding a) ⟨.selectBuildStatus id,.ok current⟩ =
      if id = b ∧ current = some .cancelled then .closed else .holding a := by
  cases current with
  | none => simp
  | some status => cases status <;> simp

theorem holdNext_getApp (id : String) (found : Option AppRow) :
    holdNext b (.holding a) ⟨.getAppForDeploy id,.ok found⟩ =
      if id = a ∧ found.any AppRow.deployable = false then .excused else .holding a := by
  cases found with
  | none | some => simp

theorem active_toBuildStatus (status : FinalStatus) : status.toBuildStatus.active = false := by
  cases status <;> rfl

def Released : Hold → Except DeployError Unit → Prop := fun s _ => s.released = true

theorem follows_finishBuild (h : s.Open a) (status : FinalStatus) :
    Tracks b (finishBuild b status) s Released := by
  have hstatus := active_toBuildStatus status
  rcases h with rfl | rfl
  · refine follows_unguarded rfl (fun current => ?_) fun e => rfl
    split
    · next hc =>
      subst hc
      exact ⟨.closed,by simp,rfl⟩
    · next hc =>
      refine ⟨.holding a,(holdNext_select b current).trans (if_neg fun h => hc h.2),?_⟩
      refine follows_unguarded (by simp [Call.unguarded,hstatus]) (fun _ => ?_) fun e => rfl
      exact ⟨.closed,by simp [hstatus],rfl⟩
  · refine follows_mono (follows_excused _) ?_
    rintro _ _ rfl
    exact rfl

theorem follows_deployGuarded : Tracks b (deployGuarded job b appId app) (.holding a) Released := by
  refine follows_bind (fun s r => Hold.Open a s ∧ ∃ outcome, r = .ok outcome) ?_ ?_ ?_
  · refine follows_attempt (follows_tryCatch _ follows_deployBody ?_ ?_)
    · intro s status hs
      exact ⟨.inl hs,_,rfl⟩
    · intro s err hs
      rw [hs]
      refine follows_bind _ follows_afterFailure ?_ ?_
      · intro s _ hopen
        exact ⟨hopen,_,rfl⟩
      · intro s e hopen
        exact ⟨hopen,_,rfl⟩
  · rintro s outcome ⟨hopen,-⟩
    refine follows_bind _ (follows_finishBuild hopen _) ?_ ?_
    · intro s' _ hs'
      cases outcome with
      | ok | error => exact hs'
    · intro s' e hs'
      exact hs'
  · rintro s e ⟨-,outcome,ho⟩
    cases ho

/-- A call before the `try` block that settles nothing. -/
theorem follows_before {f : o.Res → DeployProg Unit} (h : o.unguarded = true)
    (hnext : ∀ x, holdNext b (.holding a) ⟨o,.ok x⟩ = .holding a)
    (hf : ∀ x, Tracks b (f x) (.holding a) Released) :
    Tracks b ((call o).bind f) (.holding a) Released :=
  follows_unguarded h (fun x => ⟨.holding a,hnext x,hf x⟩) fun _ => rfl

theorem follows_close {status : BuildStatus} (h : status.active = false)
    {f : Unit → DeployProg Unit} (hf : Tracks b (f ()) .closed Released) :
    Tracks b ((call (.updateBuildStatus b status .finished)).bind f) (.holding a) Released :=
  follows_unguarded (by simp [Call.unguarded,h])
    (fun _ => ⟨.closed,by simp [h],hf⟩) fun _ => rfl

theorem follows_of_not_claims (hs : s = .idle ∨ s = .closed) (hp : p.Calls P)
    (hP : ∀ o, P o → ∀ expected, o ≠ .claim b expected) : Tracks b p s Released := by
  refine follows_mono (follows_of_calls (fun t => t = s) hp ?_ rfl) ?_
  · rintro _ o r rfl ho
    obtain ⟨hidle,hclosed⟩ := holdNext_of_not_claim (hP o ho) r
    rcases hs with rfl | rfl
    · exact ⟨_,rfl,hidle⟩
    · exact ⟨_,rfl,hclosed⟩
  · rintro _ r rfl
    rcases hs with rfl | rfl <;> exact rfl

theorem holdNext_running (id : String) (patch : Patch) (x : Unit) :
    holdNext b (.holding a) ⟨.updateBuildStatus id .running patch,.ok x⟩ = .holding a := by
  simp [BuildStatus.active]

theorem follows_deployChecked (h : app.deployable = true) :
    Tracks b (deployChecked job b appId app) (.holding a) Released := by
  have hmethod : app.buildMethod ≠ some .compose := by
    simp [AppRow.deployable] at h
    exact h.2
  unfold deployChecked
  rw [if_neg hmethod]
  refine follows_before rfl (fun _ => rfl) fun _ => ?_
  refine follows_before rfl (holdNext_running b _) fun _ => ?_
  refine follows_before rfl (fun _ => rfl) fun _ => ?_
  refine follows_before rfl (fun _ => rfl) fun _ => ?_
  refine follows_before rfl (holdNext_running b _) fun _ => ?_
  exact follows_deployGuarded

theorem sourceCheck_ne_refuse (h : app.deployable = true) (update : Option ImageUpdate)
    (message : String) : sourceCheck appId app update ≠ .refuse message := by
  simp only [AppRow.deployable,Bool.and_eq_true] at h
  unfold sourceCheck
  split
  · next himage =>
    have href : truthy app.imageRef ≠ none := by
      have h := h.1
      simp only [himage,if_true] at h
      exact isSome_iff_ne_none.mp h
    rw [if_neg href]
    split
    · split <;> simp
    · simp
  · next himage =>
    have hsource : ¬ (truthy app.repoFullName = none ∨ truthy app.branch = none) := by
      have h := h.1
      simp only [himage,if_false,Bool.and_eq_true,isSome_iff_ne_none] at h
      rintro (hrepo | hbranch)
      · exact h.1 hrepo
      · exact h.2 hbranch
    rw [if_neg hsource]
    simp

theorem follows_deployFound (h : app.deployable = true) (row : BuildRow) :
    Tracks b (deployFound job b row app) (.holding a) Released := by
  unfold deployFound
  split
  · next message hrefuse => exact absurd hrefuse (sourceCheck_ne_refuse h _ _)
  · refine follows_close rfl (follows_of_not_claims (.inr rfl) (calls_act ?_) fun _ h => h)
    simp
  · unfold deployAllowed
    split
    · exact follows_deployChecked h
    · refine follows_before rfl (fun _ => rfl) fun hasAccess => ?_
      split
      · exact follows_deployChecked h
      · exact follows_close rfl rfl

theorem follows_deployClaimed (row : BuildRow) :
    Tracks b (deployClaimed job b row) (.holding row.appId) Released := by
  refine follows_unguarded rfl (fun found => ?_) fun e => rfl
  cases found with
  | none => exact ⟨.excused,by simp,rfl⟩
  | some app =>
    by_cases h : app.deployable = true
    · exact ⟨.holding row.appId,by simp [h],follows_deployFound h row⟩
    · refine ⟨.excused,by simp [h],?_⟩
      refine follows_mono (follows_excused _) ?_
      rintro _ _ rfl
      exact rfl

theorem follows_handleDeploy (b : String) (job : DeployJob) :
    Tracks b (handleDeploy job) .idle Released := by
  by_cases hid : job.buildId = some b
  · unfold handleDeploy
    split
    · exact rfl
    · rw [show truthy job.payload.buildId = some b from hid]
      refine follows_perform_bind (fun claimed => ?_) fun e => ?_
      · cases claimed with
        | none => exact ⟨.idle,rfl,rfl⟩
        | some row =>
          exact ⟨.holding row.appId,by simp [holdProtocol],follows_deployClaimed row⟩
      · exact ⟨.excused,by simp [holdProtocol],rfl⟩
  · refine follows_of_not_claims (.inl rfl) (calls_handleDeploy job) ?_
    rintro o ⟨buildId,hjob,ho⟩ expected rfl
    exact hid (by rw [hjob,← ho.1])

theorem follows_program (b : String) (actor : Actor) : Tracks b actor.program .idle Released := by
  cases actor with
  | attempt job => exact follows_handleDeploy b job
  | cancel userId appId buildId =>
    refine follows_of_not_claims (.inl rfl)
      (calls_bind (calls_cancelBuild userId appId buildId) fun _ => calls_ret ()) ?_
    rintro o ho expected rfl
    exact ho
  | reaper =>
    refine follows_of_not_claims (.inl rfl) calls_reapStuckBuilds ?_
    rintro o ho expected rfl
    exact ho

end Follows

/-! ### All interleavings -/

/-- No call before the `try` block or in the `finally` block throws. -/
def Unfaulted (F : Faults) : Prop :=
  ∀ o e, o.unguarded = true → ¬ F.fails o e ∧ ¬ F.loses o e

/-- The app of the build passes the checks before the `try` block. -/
def Deployable (w : World) (b : String) : Prop :=
  ∃ row app, w.builds b = some row ∧ w.apps row.appId = some app ∧ app.deployable = true

def Finished (w : World) (b : String) : Prop :=
  ∃ row, w.builds b = some row ∧ row.status.active = false

section Interleavings

variable {F : Faults} {w w' : World} {o : Call} {b a : String} {r : Except DeployError o.Res}
  {row₀ : BuildRow} {app : AppRow} {s : Hold}

theorem BuildStep.appId_eq (h : BuildStep o b row row') : row'.appId = row.appId := by
  cases h with
  | same | claimed => rfl
  | updated =>
    rename_i patch _ _ _
    cases patch <;> rfl

theorem AppStep.deployable_eq (h : AppStep o a app app') : app'.deployable = app.deployable := by
  cases h with
  | same => rfl
  | updated ho happly =>
    rename_i update
    cases update <;> simp only [AppUpdate.apply,ite_none_right_eq_some, some.injEq] at happly
    case release | finalize =>
      obtain ⟨-,rfl⟩ := happly
      rfl
    all_goals
      subst happly
      rfl

theorem ok_of_unfaulted (hF : Unfaulted F) (ho : o.unguarded = true) (h : sem F o w r w') :
    ∃ x now, r = .ok x ∧ Responds o { w with now := now } x w' := by
  obtain ⟨now,-,h⟩ := h
  cases r with
  | ok x => exact ⟨x,now,rfl,h⟩
  | error e =>
    rcases h with ⟨hfails | hrefused,-⟩ | ⟨hloses,-⟩
    · exact absurd hfails (hF o e ho).1
    · cases o with
      | removeJob => cases ho
      | _ => exact hrefused.elim
    · exact absurd hloses (hF o e ho).2

theorem finished_of_sem (hclaim : ∀ expected, o ≠ .claim b expected)
    (h : sem F o w r w') (hfinished : Finished w b) : Finished w' b := by
  obtain ⟨row,hrow,hs⟩ := hfinished
  obtain ⟨row',hrow',hstep⟩ := buildStep_of_sem h hrow
  cases hstep with
  | same => exact ⟨row,hrow',hs⟩
  | claimed ho => exact absurd ho (hclaim _)
  | updated ho hactive => simp [hs] at hactive

theorem finished_of_close (hstatus : status.active = false)
    (h : Responds (.updateBuildStatus b status patch) w x w')
    (hbuild : ∃ row, w.builds b = some row) : Finished w' b := by
  obtain ⟨row,hrow⟩ := hbuild
  rw [show w' = _ from h]
  refine ⟨_,builds_updateBuild_self hrow _,?_⟩
  unfold statusRow
  split
  · cases patch <;> exact hstatus
  · next hactive => simpa using hactive

theorem claim_eq (h : Responds (.claim b expected) w x w') (hbuild : w.builds b = some row₀) :
    (x = none ∧ w' = w) ∨ ∃ row, x = some row ∧ row.appId = row₀.appId := by
  have heq : (x, w') = w.updateBuild b (claimRow expected) := h
  unfold World.updateBuild at heq
  rw [hbuild,bind_some] at heq
  unfold claimRow at heq
  split at heq
  · next row hrow =>
    simp only [ite_none_right_eq_some,some.injEq] at hrow
    obtain ⟨-,rfl⟩ := hrow
    exact .inr ⟨_,congrArg Prod.fst heq,rfl⟩
  · exact .inl ⟨congrArg Prod.fst heq,congrArg Prod.snd heq⟩

theorem hold_step (hF : Unfaulted F) (h : sem F o w r w') (hbuild : w.builds b = some row₀)
    (happ : w.apps row₀.appId = some app) (hdeployable : app.deployable = true)
    (hexcused : s ≠ .excused) (hheld : ∀ a, s = .holding a → a = row₀.appId) :
    (holdNext b s ⟨o,r⟩ = s ∧ (Finished w b → Finished w' b)) ∨
      holdNext b s ⟨o,r⟩ = .holding row₀.appId ∨
      (holdNext b s ⟨o,r⟩ = .closed ∧ Finished w' b) := by
  have hfree : s = .idle ∨ s = .closed → (holdNext b s ⟨o,r⟩ = s ∧ (Finished w b → Finished w' b)) ∨
        holdNext b s ⟨o,r⟩ = .holding row₀.appId := by
    intro hs
    by_cases hclaim : ∃ expected, o = .claim b expected
    · obtain ⟨expected,rfl⟩ := hclaim
      obtain ⟨x,now,rfl,hx⟩ := ok_of_unfaulted hF rfl h
      rcases claim_eq hx hbuild with ⟨rfl,rfl⟩ | ⟨row,rfl,hrow⟩
      · rcases hs with rfl | rfl
        · exact .inl ⟨rfl,fun hf => hf⟩
        · exact .inl ⟨rfl,fun hf => hf⟩
      · rcases hs with rfl | rfl
        · exact .inr (by simp [holdNext,hrow])
        · exact .inr (by simp [holdNext,hrow])
    · have hne : ∀ expected, o ≠ .claim b expected := fun expected ho => hclaim ⟨expected,ho⟩
      obtain ⟨hidle,hclosed⟩ := holdNext_of_not_claim hne r
      rcases hs with rfl | rfl
      · exact .inl ⟨hidle,finished_of_sem hne h⟩
      · exact .inl ⟨hclosed,finished_of_sem hne h⟩
  cases s with
  | idle => exact (hfree (.inl rfl)).imp_right .inl
  | closed => exact (hfree (.inr rfl)).imp_right .inl
  | excused => exact absurd rfl hexcused
  | holding a =>
    rw [hheld a rfl]
    refine .inr ?_
    by_cases hguarded : o.unguarded = false
    · exact .inl (holdNext_of_guarded hguarded r)
    obtain ⟨x,now,rfl,hx⟩ := ok_of_unfaulted hF (by simpa using hguarded) h
    cases o with
    | updateBuildStatus id status patch =>
      by_cases hclose : id = b ∧ status.active = false
      · obtain ⟨rfl,hstatus⟩ := hclose
        exact .inr ⟨by simp [holdNext,hstatus],finished_of_close hstatus hx ⟨row₀,hbuild⟩⟩
      · exact .inl (by simp [holdNext,hclose])
    | selectBuildStatus id =>
      obtain ⟨rfl,rfl⟩ := hx
      rw [holdNext_select]
      split
      · next hcancelled =>
        obtain ⟨rfl,hstatus⟩ := hcancelled
        simp only [hbuild,map_some,some.injEq] at hstatus
        exact .inr ⟨rfl,row₀,hbuild,by rw [hstatus]; rfl⟩
      · exact .inl rfl
    | getAppForDeploy id =>
      obtain ⟨rfl,rfl⟩ := hx
      rw [holdNext_getApp]
      split
      · next hrefused =>
        obtain ⟨rfl,hany⟩ := hrefused
        simp [happ,hdeployable] at hany
      · exact .inl rfl
    | _ => exact .inl rfl

variable {ι : Type} [DecidableEq ι] {actors : ι → Actor} {c : BuildPool ι}

def ActorCall : Actor → Call → Prop
  | .attempt job, o => ∃ buildId, job.buildId = some buildId ∧ DeployCall job buildId o
  | .cancel _ _ buildId, o => CancelCall buildId o
  | .reaper, o => ReapCall o

theorem calls_program (actor : Actor) : actor.program.Calls (ActorCall actor) := by
  cases actor with
  | attempt job => exact calls_handleDeploy job
  | cancel userId appId buildId =>
    exact calls_bind (calls_cancelBuild userId appId buildId) fun _ => calls_ret ()
  | reaper => exact calls_reapStuckBuilds

structure HoldInv (b : String) (c : BuildPool ι) (φ : ι → Hold) : Prop where
  deployable : ∃ row app, c.world.builds b = some row ∧ c.world.apps row.appId = some app ∧
    app.deployable = true ∧ ∀ i a, φ i = .holding a → a = row.appId
  unexcused : ∀ i, φ i ≠ .excused
  finished : (∀ i, φ i = .idle) ∨ (∃ i a, φ i = .holding a) ∨ Finished c.world b

theorem HoldInv.step (hF : Unfaulted F) (hinv : HoldInv b c φ) (h : sem F o c.world r w') (i : ι)
    (p : DeployProg Unit) : HoldInv b (c.advance i ⟨o,r⟩ p w')
      (Function.update φ i (holdNext b (φ i) ⟨o,r⟩)) := by
  obtain ⟨row,app,hbuild,happ,hdeployable,hheld⟩ := hinv.deployable
  have hstep := hold_step hF h hbuild happ hdeployable (hinv.unexcused i) (hheld i)
  obtain ⟨row',hbuild',hrow⟩ := buildStep_of_sem h hbuild
  obtain ⟨app',happ',happstep⟩ := appStep_of_sem h happ
  have hheld' : ∀ a, holdNext b (φ i) ⟨o,r⟩ = .holding a → a = row.appId := by
    intro a ha
    rcases hstep with ⟨hs,-⟩ | hs | ⟨hs,-⟩
    · exact hheld i a (hs ▸ ha)
    · exact (Hold.holding.inj (hs.symm.trans ha)).symm
    · cases hs.symm.trans ha
  constructor
  · refine ⟨row',app',hbuild',by rw [hrow.appId_eq]; exact happ',
      by rw [happstep.deployable_eq]; exact hdeployable,fun j a hj => ?_⟩
    rw [hrow.appId_eq]
    by_cases hij : j = i
    · subst hij
      exact hheld' a (by simpa using hj)
    · exact hheld j a (by simpa [hij] using hj)
  · refine (Function.forall_update_iff φ fun _ s => s ≠ .excused).mpr
      ⟨?_,fun j _ => hinv.unexcused j⟩
    rcases hstep with ⟨hs,-⟩ | hs | ⟨hs,-⟩
    · rw [hs]
      exact hinv.unexcused i
    · simp [hs]
    · simp [hs]
  · rcases hstep with ⟨hs,hf⟩ | hs | ⟨-,hf⟩
    · rw [hs,Function.update_eq_self]
      exact hinv.finished.imp_right (Or.imp_right hf)
    · exact .inr (.inl ⟨i,row.appId,by simp [hs]⟩)
    · exact .inr (.inr hf)

def claims (b : String) : Event DeploySig DeployError → Bool
  | ⟨.claim id _,.ok (some _)⟩ => id = b
  | _ => false

def HasClaimed (b : String) (evs : List (Event DeploySig DeployError)) : Prop :=
  evs.any (claims b) = true

variable {ev : Event DeploySig DeployError}

theorem holdNext_ne_idle (h : s ≠ .idle ∨ claims b ev = true) : holdNext b s ev ≠ .idle := by
  fun_cases holdNext b s ev <;> simp_all [claims]

theorem holding_of_holdNext
    (h : holdNext b s ev = .holding a) : (∃ a', s = .holding a') ∨ claims b ev = true := by
  revert h
  fun_cases holdNext b s ev <;> simp_all [claims]

variable {evs : List (Event DeploySig DeployError)}

theorem hasClaimed_cons : HasClaimed b (ev :: evs) ↔ claims b ev = true ∨ HasClaimed b evs := by
  simp [HasClaimed]

theorem ne_idle_of_after (h : (holdProtocol b).after s evs = some t)
    (hs : s ≠ .idle ∨ HasClaimed b evs) : t ≠ .idle := by
  induction evs generalizing s with
  | nil =>
    cases h
    rcases hs with hs | hs
    · exact hs
    · cases hs
  | cons ev evs ih =>
    apply ih h
    rcases hs with hs | hs
    · exact .inl (holdNext_ne_idle (.inl hs))
    · rcases hasClaimed_cons.mp hs with hev | hevs
      · exact .inl (holdNext_ne_idle (.inr hev))
      · exact .inr hevs

theorem hasClaimed_of_after (h : (holdProtocol b).after s evs = some (.holding a)) :
    (∃ a', s = .holding a') ∨ HasClaimed b evs := by
  induction evs generalizing s with
  | nil =>
    cases h
    exact .inl ⟨a,rfl⟩
  | cons ev evs ih =>
    rw [hasClaimed_cons]
    rcases ih h with ⟨a',ha'⟩ | hevs
    · exact (holding_of_holdNext ha').imp_right .inl
    · exact .inr (.inr hevs)

/-- An attempt that has claimed the build and has ended leaves it finished, unless another such
attempt is under way. -/
def Settled (b : String) (c : BuildPool ι) : Prop :=
  ∀ i, HasClaimed b (c.log i) → (c.prog i).done = true →
    Finished c.world b ∨ ∃ j, j ≠ i ∧ HasClaimed b (c.log j) ∧ (c.prog j).done = false

theorem hold_of_reach (hF : Unfaulted F) (hb : Deployable w b)
    (h : Pool.Reach (sem F) (fun _ _ => True) (startBuilds w actors) c) :
    ∃ φ, Pool.Phased (holdProtocol b) Released (fun _ => Hold.idle) c φ ∧ HoldInv b c φ := by
  suffices hcalls : ∃ φ, Pool.Phased (holdProtocol b) Released (fun _ => Hold.idle) c φ ∧
      HoldInv b c φ ∧ ∀ i, (c.prog i).Calls (ActorCall (actors i)) by
    obtain ⟨φ,hφ,hinv,-⟩ := hcalls
    exact ⟨φ,hφ,hinv⟩
  refine Pool.reach_phased (holdProtocol b) Released (fun i => follows_program b (actors i))
    (fun c φ => HoldInv b c φ ∧ ∀ i, (c.prog i).Calls (ActorCall (actors i))) ?_ ?_ h
  · obtain ⟨row,app,hrow,happ,hdeployable⟩ := hb
    refine ⟨⟨⟨row,app,hrow,happ,hdeployable,?_⟩,?_,.inl fun _ => rfl⟩,
      fun i => calls_program (actors i)⟩
    · intro i a hi
      exact Hold.noConfusion hi
    · intro i hi
      exact Hold.noConfusion hi
  · intro c φ i o k r w' s' _ hJ _ hc hs hnext _
    obtain ⟨hinv,hcalls⟩ := hJ
    have hcall := hcalls i
    rw [hc] at hcall
    obtain rfl : holdNext b (φ i) ⟨o,r⟩ = s' := some.inj hnext
    exact ⟨hinv.step hF hs i _,
      (Function.forall_update_iff c.prog fun j p => p.Calls (ActorCall (actors j))).mpr
        ⟨hcall.2 r,fun j _ => hcalls j⟩⟩

theorem settled_of_reach (hF : Unfaulted F) (hb : Deployable w b)
    (h : Pool.Reach (sem F) (fun _ _ => True) (startBuilds w actors) c) : Settled b c := by
  obtain ⟨φ,hφ,hinv⟩ := hold_of_reach hF hb h
  intro i hclaimed hdone
  -- an attempt that has ended holds nothing
  have hreleased : ∀ j, (c.prog j).done = true → (φ j).released = true := by
    intro j hj
    obtain ⟨r,hr⟩ := hφ.exists_outcome hj
    exact hr
  rcases hinv.finished with hidle | ⟨j,a,hj⟩ | hfinished
  · exact absurd (hidle i) (ne_idle_of_after (hφ.after i) (.inr hclaimed))
  · right
    have hrunning : (c.prog j).done = false := by
      by_contra hdone
      have := hreleased j (by simpa using hdone)
      simp [hj,Hold.released] at this
    refine ⟨j,?_,?_,hrunning⟩
    · rintro rfl
      simp [hdone] at hrunning
    · have hafter := hφ.after j
      rw [hj] at hafter
      exact (hasClaimed_of_after hafter).resolve_left fun ⟨_,ha'⟩ => Hold.noConfusion ha'
  · exact .inl hfinished

def Sticky (actors : ι → Actor) (b : String) (c : BuildPool ι) (i : ι) (c' : BuildPool ι) : Prop :=
  ∀ row, c.world.builds b = some row → row.status.active = false →
    ∃ row', c'.world.builds b = some row' ∧ (row'.status = row.status ∨
      row.status = .failed ∧ ∃ job k, actors i = .attempt job ∧ 1 < job.attempts ∧
        c.prog i = .call (.claim b (expectedStatuses job)) k)

theorem sticky_of_step (h : Pool.Reach (sem F) (fun _ _ => True) (startBuilds w actors) c)
    (hstep : Pool.Step (sem F) c i c') : Sticky actors b c i c' := by
  intro row hrow hfinished
  obtain ⟨hc,hs⟩ := hstep
  rename_i o k r w'
  have hcall := h.calls (fun i => calls_program (actors i)) i
  rw [hc] at hcall
  obtain ⟨row',hrow',hchange⟩ := buildStep_of_sem hs hrow
  refine ⟨row',hrow',?_⟩
  cases hchange with
  | same => exact .inl rfl
  | updated ho hactive => simp [hfinished] at hactive
  | @claimed expected ho hmem =>
    subst ho
    right
    cases hactor : actors i with
    | cancel | reaper =>
      rw [hactor] at hcall
      exact hcall.1.elim
    | attempt job =>
      rw [hactor] at hcall
      obtain ⟨⟨buildId,-,-,rfl⟩,-⟩ := hcall
      unfold expectedStatuses at hmem
      split at hmem
      · next hretry =>
        rcases mem_cons.mp hmem with hpending | hfailed
        · simp [hpending,BuildStatus.active] at hfinished
        · exact ⟨mem_singleton.mp hfailed,job,k,rfl,hretry,hc⟩
      · simp [mem_singleton.mp hmem,BuildStatus.active] at hfinished

end Interleavings

/-- A finished build stays finished; and if the app passes the checks before the `try` block and
nothing outside it throws, attempts leave the builds they have claimed finished. -/
theorem build_life_cycle {ι : Type} [DecidableEq ι] (F : Faults) (w : World) (actors : ι → Actor)
    (b : String) : (∀ c i c', Pool.Reach (sem F) (fun _ _ => True) (startBuilds w actors) c →
      Pool.Step (sem F) c i c' → Sticky actors b c i c') ∧ (Unfaulted F → Deployable w b →
      ∀ c, Pool.Reach (sem F) (fun _ _ => True) (startBuilds w actors) c → Settled b c) :=
  ⟨fun _ _ _ h hstep => sticky_of_step h hstep,fun hF hb _ h => settled_of_reach hF hb h⟩

namespace Shop

def app : AppRow where
  status := .running
  gitProvider := some .github
  repoFullName := some "acme/shop"
  branch := some "main"
  imageRef := none
  buildMethod := none
  runtimeMode := .docker
  domain := some "shop.example.com"
  containerId := some "shop-blue"
  swarmServiceName := none
  trackLatest := false
  lastImageDigest := none
  pendingImageDigest := none

def queued : BuildRow := ⟨"shop",.pending,none,0,none⟩

def world (app : AppRow) : World where
  now := 0
  builds := fun id => if id = "b1" then some queued else none
  apps := fun id => if id = "shop" then some app else none
  access := fun _ _ => true
  routes := fun _ => none
  queue := ⟨[],nodup_nil⟩

def payload : Payload := ⟨some "b1",none,none,none,true⟩

def attempt : Actor := .attempt ⟨payload,1,1⟩

def script : Script where
  ids := ["b1", "shop"]
  lapse := fun _ => 0
  throws := fun _ => none
  head := some "c0ffee"
  method := .docker
  container := "shop-green"
  hookOk := true

def disconnected : AppRow := { app with repoFullName := none }

theorem within_world (app : AppRow) : script.Within (world app) := by
  intro id hid
  simp only [script,mem_cons,not_mem_nil,or_false,not_or] at hid
  exact ⟨if_neg hid.1,if_neg hid.2⟩

def after (app : AppRow) (n : Nat) : BuildPool Unit :=
  (replicate n ()).foldl (Pool.tick script.respond) (startBuilds (world app) fun _ => attempt)

theorem reach_after (app : AppRow) (n : Nat) :
    Pool.Reach (sem script.faults) (fun _ _ => True) (startBuilds (world app) fun _ => attempt)
      (after app n) :=
  Script.reach_script (within_world app) _ (Pool.admits_of_forall (fun _ _ => trivial) _ _)

end Shop

open Shop

/-- The deploy of the shop ends after its 22 calls, with its build succeeded. -/
theorem build_life_cycle_shop : Unfaulted script.faults ∧ Deployable (world app) "b1" ∧
      Settled "b1" (after app 22) ∧ ((after app 22).prog ()).done = true ∧
      ((after app 22).world.builds "b1").map (·.status) = some .succeeded := by
  have hF : Unfaulted script.faults := by
    intro o e ho
    simp [script,Script.faults]
  have hb : Deployable (world app) "b1" := ⟨queued,app,rfl,rfl,by decide⟩
  have hsettled := (build_life_cycle script.faults (world app)
    (fun _ => attempt) "b1").2 hF hb _ (reach_after app 22)
  exact ⟨hF,hb,hsettled,by decide +kernel,by decide +kernel⟩

/-- The shop has lost its repository: the attempt claims the build, throws, and leaves it running. -/
theorem refused_deploy_leaves_build_running :
    ¬ ∀ (ι : Type) [DecidableEq ι] (F : Faults) (w : World) (actors : ι → Actor) (b : String),
      (∀ c i c', Pool.Reach (sem F) (fun _ _ => True) (startBuilds w actors) c →
        Pool.Step (sem F) c i c' → Sticky actors b c i c') ∧
      ∀ c, Pool.Reach (sem F) (fun _ _ => True) (startBuilds w actors) c → Settled b c := by
  intro h
  have hsettled := (h Unit script.faults (world disconnected)
    (fun _ => attempt) "b1").2 _ (reach_after disconnected 2)
  have hstatus : ((after disconnected 2).world.builds "b1").map (·.status) =
      some .running := by decide +kernel
  have hdone : ((after disconnected 2).prog ()).done = true := by decide +kernel
  have hclaimed : HasClaimed "b1" ((after disconnected 2).log ()) := by
    unfold HasClaimed
    decide +kernel
  rcases hsettled () hclaimed hdone with ⟨row,hrow,hfinished⟩ | ⟨j,hj,-⟩
  · rw [hrow,map_some,some.injEq] at hstatus
    simp [hstatus,BuildStatus.active] at hfinished
  · exact hj rfl

end Ploydok.Builds
