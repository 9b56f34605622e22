import Ploydok.Builds.Handler

/-! Which calls each program makes, and what one call does to the row of a build and to the row of an
app. -/

namespace Ploydok.Builds

open Effect Effect.Prog Queue

/-! ### The calls of each program -/

/-- What a deploy may call: of the builds it names only its own. -/
def DeployCall (job : DeployJob) (buildId : String) : Call → Prop
  | .claim id expected => id = buildId ∧ expected = expectedStatuses job
  | .updateBuildStatus id _ _ | .hydrateBuild id | .selectBuildStatus id => id = buildId
  | .getAppForDeploy _ | .getAppForUser _ _ | .updateApp _ _ | .phase _ | .switch _ _ => True
  | _ => False

/-- The calls after the build is claimed: they name its build and its app. -/
def ClaimedCall (buildId appId : String) : Call → Prop
  | .updateBuildStatus id _ _ | .hydrateBuild id | .selectBuildStatus id => id = buildId
  | .getAppForDeploy id | .getAppForUser id _ | .updateApp id _ | .switch id _ => id = appId
  | .phase _ => True
  | _ => False

/-- The calls between `try` and `catch`. -/
def BodyCall (buildId appId : String) : Call → Prop
  | .updateBuildStatus id status patch =>
    id = buildId ∧ status = .running ∧ (patch = .imageTag ∨ patch = .commitSha ∨ patch = .buildMethod)
  | .updateApp id (.live _) | .updateApp id (.liveSwarm _) | .updateApp id .serving
  | .updateApp id (.finalize _) => id = appId
  | .phase p => p ≠ .openLog
  | .switch id _ => id = appId
  | _ => False

def DeployJob.buildId (job : DeployJob) : Option String := truthy job.payload.buildId

section Calls

variable {job : DeployJob} {buildId appId : String} {app : AppRow} {o : Call}

theorem calls_act (h : P o) : (act o).Calls P :=
  calls_bind (calls_perform h) fun _ => calls_ret ()

theorem calls_phase (h : p ≠ .openLog) : (call (.phase p)).Calls (BodyCall buildId appId) :=
  calls_perform h

theorem calls_switchRoute (target : String) :
    (switchRoute appId target).Calls (BodyCall buildId appId) :=
  calls_bind (calls_perform rfl) fun _ => calls_act (by simp [BodyCall])

theorem calls_switchPublic (target : String) :
    (switchPublic appId app target).Calls (BodyCall buildId appId) := by
  unfold switchPublic
  split
  · exact calls_switchRoute target
  · exact calls_ret ()

theorem calls_runRuntime : (runRuntime appId app).Calls (BodyCall buildId appId) := by
  refine calls_bind (calls_phase (by decide)) fun name => ?_
  split
  · exact calls_bind (calls_switchRoute name) fun _ =>
      calls_bind (calls_perform rfl) fun _ => calls_act (by simp [BodyCall])
  · exact calls_bind (calls_switchPublic name) fun _ => calls_act rfl

theorem calls_runPostDeployHook : runPostDeployHook.Calls (BodyCall buildId appId) :=
  calls_bind (calls_phase (by decide)) fun _ => calls_ret _

theorem calls_finalizeUpdate (update : Option ImageUpdate) :
    (finalizeUpdate appId update).Calls (BodyCall buildId appId) := by
  cases update with
  | none => exact calls_ret ()
  | some u => exact calls_act rfl

theorem calls_noteBuild (condition : Bool)
    (h : patch = .imageTag ∨ patch = .commitSha ∨ patch = .buildMethod) :
    (noteBuild condition buildId patch).Calls (BodyCall buildId appId) := by
  unfold noteBuild
  split
  · exact calls_act ⟨rfl,rfl,h⟩
  · exact calls_ret ()

/-- Between `try` and `catch` the build is never ended. -/
theorem calls_deployBody : (deployBody job buildId appId app).Calls (BodyCall buildId appId) := by
  unfold deployBody
  split
  · refine calls_bind (calls_perform ⟨rfl,rfl,.inl rfl⟩) fun _ =>
      calls_bind (calls_phase (by decide)) fun _ =>
      calls_bind (calls_phase (by decide)) fun _ => ?_
    exact calls_bind calls_runRuntime fun _ => calls_bind calls_runPostDeployHook fun _ =>
      calls_bind (calls_finalizeUpdate _) fun _ => calls_ret _
  · refine calls_bind (calls_phase (by decide)) fun _ =>
      calls_bind (calls_noteBuild _ (.inr (.inl rfl))) fun _ =>
      calls_bind (calls_phase (by decide)) fun _ =>
      calls_bind (calls_noteBuild _ (.inr (.inr rfl))) fun _ =>
      calls_bind (calls_phase (by decide)) fun _ => ?_
    split
    · exact calls_bind (calls_phase (by decide)) fun _ => calls_bind (calls_switchPublic _) fun _ =>
        calls_bind (calls_phase (by decide)) fun _ =>
        calls_bind (calls_perform rfl) fun _ => calls_ret _
    · exact calls_bind (calls_phase (by decide)) fun _ =>
        calls_bind (calls_perform ⟨rfl,rfl,.inl rfl⟩) fun _ =>
        calls_bind (calls_phase (by decide)) fun _ =>
        calls_bind calls_runRuntime fun _ => calls_runPostDeployHook

theorem ClaimedCall.of_body (h : BodyCall buildId appId o) : ClaimedCall buildId appId o := by
  cases o with
  | updateBuildStatus id status patch => exact h.1
  | updateApp id update =>
    cases update with
    | live | liveSwarm | serving | finalize => exact h
    | _ => exact h.elim
  | phase p => trivial
  | switch id target => exact h
  | _ => exact h.elim

theorem DeployCall.of_claimed (h : ClaimedCall buildId appId o) : DeployCall job buildId o := by
  cases o with
  | updateBuildStatus | hydrateBuild | selectBuildStatus => exact h
  | getAppForDeploy | getAppForUser | updateApp | switch | phase => trivial
  | _ => exact h.elim

theorem calls_afterFailure : (afterFailure job appId app).Calls
    fun o : Call => ∃ update, o = .updateApp appId update := by
  refine calls_bind (calls_perform ⟨_,rfl⟩) fun _ => ?_
  split
  · split
    · exact calls_act ⟨_,rfl⟩
    · exact calls_ret ()
  · exact calls_ret ()

theorem calls_finishBuild (status : FinalStatus) :
    (finishBuild buildId status).Calls (ClaimedCall buildId appId) := by
  refine calls_bind (calls_perform rfl) fun current => ?_
  split
  · exact calls_ret ()
  · exact calls_act rfl

theorem calls_deployChecked : (deployChecked job buildId appId app).Calls
    (ClaimedCall buildId appId) := by
  unfold deployChecked
  split
  · exact calls_throw _
  · refine calls_bind (calls_perform rfl) fun _ => calls_bind (calls_perform rfl) fun _ =>
      calls_bind (calls_perform rfl) fun _ => calls_bind (calls_perform trivial) fun _ =>
      calls_bind (calls_perform rfl) fun _ => ?_
    refine calls_bind (calls_attempt (calls_tryCatch
      (calls_mono calls_deployBody fun o => ClaimedCall.of_body) fun err => ?_)) fun outcome => ?_
    · refine calls_bind (calls_mono calls_afterFailure ?_) fun _ => calls_throw err
      rintro _ ⟨update,rfl⟩
      trivial
    · exact calls_bind (calls_finishBuild _) fun _ => calls_bind (calls_ofExcept _) fun _ =>
        calls_ret ()

theorem calls_deployClaimed (row : BuildRow) :
    (deployClaimed job buildId row).Calls (ClaimedCall buildId row.appId) := by
  refine calls_bind (calls_perform rfl) fun found => ?_
  cases found with
  | none => exact calls_throw _
  | some app =>
    dsimp only
    unfold deployFound
    split
    · exact calls_throw _
    · exact calls_bind (calls_perform rfl) fun _ => calls_act rfl
    · unfold deployAllowed
      split
      · exact calls_deployChecked
      · refine calls_bind (calls_perform rfl) fun hasAccess => ?_
        split
        · exact calls_deployChecked
        · exact calls_act rfl

/-- A deploy never names another build. -/
theorem calls_handleDeploy (job : DeployJob) :
    (handleDeploy job).Calls fun o => ∃ buildId, job.buildId = some buildId ∧
      DeployCall job buildId o := by
  unfold handleDeploy
  split
  · exact calls_throw _
  · split
    · next buildId hid =>
      refine calls_mono ?_ fun o ho => ⟨buildId,hid,ho⟩
      refine calls_bind (calls_perform ⟨rfl,rfl⟩) fun claimed => ?_
      cases claimed with
      | none => exact calls_ret ()
      | some row => exact calls_mono (calls_deployClaimed row) fun o => DeployCall.of_claimed
    · split
      · exact calls_ret ()
      · exact calls_throw _

/-- What a cancellation may call; it ends its build as `cancelled`. -/
def CancelCall (buildId : String) : Call → Prop
  | .updateBuildStatus id status patch => id = buildId ∧ status = .cancelled ∧ patch = .finished
  | .getAppForUser _ _ | .getBuildForApp _ _ | .getJobs | .appOfBuild _ | .removeJob _ => True
  | _ => False

theorem calls_removeJobs (appId : String) : (removeJobs appId).Calls (CancelCall buildId) := by
  refine calls_tryCatch (calls_bind (calls_perform trivial) fun jobs =>
    calls_forEach fun j _ => calls_bind ?_ fun owner => ?_) fun _ => calls_ret ()
  · unfold jobAppId
    split
    · exact calls_perform trivial
    · exact calls_ret _
  · split
    · exact calls_tryCatch (calls_act trivial) fun _ => calls_ret ()
    · exact calls_ret ()

theorem calls_cancelBuild (userId appId buildId : String) :
    (cancelBuild userId appId buildId).Calls (CancelCall buildId) := by
  refine calls_bind (calls_perform trivial) fun hasAccess => ?_
  cases hasAccess with
  | false => exact calls_ret _
  | true =>
    refine calls_bind (calls_perform trivial) fun status => ?_
    cases status with
    | none => exact calls_ret _
    | some status =>
      dsimp only
      split
      · exact calls_bind (calls_removeJobs appId) fun _ =>
          calls_bind (calls_perform ⟨rfl,rfl,rfl⟩) fun _ => calls_ret _
      · exact calls_ret _

/-- What the reaper may call. -/
def ReapCall : Call → Prop
  | .updateBuildStatus _ status patch => status = .cancelled ∧ patch = .finished
  | .stuckRunning | .stuckPending | .hasActiveBuild _ | .selectApp _ => True
  | .updateApp _ (.status s) => s = .running ∨ s = .failed
  | _ => False

theorem calls_repairAppStatusAfterReap (appId : String) :
    (repairAppStatusAfterReap appId).Calls ReapCall := by
  refine calls_bind (calls_perform trivial) fun hasActive => ?_
  cases hasActive with
  | true => exact calls_ret ()
  | false =>
    refine calls_bind (calls_perform trivial) fun found => ?_
    cases found with
    | none => exact calls_ret ()
    | some app =>
      dsimp only
      split
      · refine calls_act ?_
        by_cases h : (truthy app.containerId).isSome = true
        · simp [ReapCall,h]
        · simp [ReapCall,h]
      · exact calls_ret ()

theorem calls_reapStuckBuilds : reapStuckBuilds.Calls ReapCall := by
  have hreap : ∀ stuck, (reap stuck).Calls ReapCall := fun stuck =>
    calls_bind (calls_perform ⟨rfl,rfl⟩) fun _ => calls_repairAppStatusAfterReap _
  exact calls_bind (calls_perform trivial) fun _ => calls_bind (calls_forEach fun x _ => hreap x)
    fun _ => calls_bind (calls_perform trivial) fun _ => calls_forEach fun x _ => hreap x

end Calls

/-- What one call can do to the row of a build: claim it, or update it while it is active. -/
inductive BuildStep (o : Call) (b : String) (row : BuildRow) : BuildRow → Prop
  | same : BuildStep o b row row
  | claimed {expected : List BuildStatus} (ho : o = .claim b expected) (hs : row.status ∈ expected) :
      BuildStep o b row { row with status := .running }
  | updated {status : BuildStatus} {patch : Patch} {now : Nat}
      (ho : o = .updateBuildStatus b status patch) (hs : row.status.active = true) :
      BuildStep o b row (patch.apply now { row with status := status })

section Statements

variable {F : Faults} {w w' : World} {o : Call} {b : String} {row : BuildRow}
  {r : Except DeployError o.Res}

/-- A call that throws may have been carried out. -/
theorem responds_of_sem (h : sem F o w r w') : ∃ now,
    w' = { w with now := now } ∨ ∃ a, Responds o { w with now := now } a w' := by
  obtain ⟨now,-,h⟩ := h
  refine ⟨now,?_⟩
  cases r with
  | ok a => exact .inr ⟨a,h⟩
  | error e => exact h.imp And.right And.right

theorem builds_updateBuild_of_ne {id : String} (h : b ≠ id) (f : BuildRow → Option BuildRow) :
    (w.updateBuild id f).2.builds b = w.builds b := by
  unfold World.updateBuild
  split
  · simp [h]
  · rfl

theorem builds_updateBuild_self (hrow : w.builds b = some row) (f : BuildRow → Option BuildRow) :
    (w.updateBuild b f).2.builds b = some ((f row).getD row) := by
  unfold World.updateBuild
  rw [hrow,Option.bind_some]
  cases hf : f row with
  | none => simpa using hrow
  | some row' => simp

theorem buildStep_of_responds (h : Responds o w a w') (hrow : w.builds b = some row) :
    ∃ row', w'.builds b = some row' ∧ BuildStep o b row row' := by
  -- the two calls that write a row, and all others
  have hupdate : ∀ (id : String) (f : BuildRow → Option BuildRow),
      w' = (w.updateBuild id f).2 → (id = b → BuildStep o b row ((f row).getD row)) →
      ∃ row', w'.builds b = some row' ∧ BuildStep o b row row' := by
    rintro id f rfl hself
    by_cases hb : b = id
    · subst hb
      exact ⟨_,builds_updateBuild_self hrow f,hself rfl⟩
    · exact ⟨row,(builds_updateBuild_of_ne hb f).trans hrow,.same⟩
  have hkept : w'.builds = w.builds → ∃ row', w'.builds b = some row' ∧ BuildStep o b row row' :=
    fun heq => ⟨row,by rw [heq,hrow],.same⟩
  cases o with
  | claim id expected =>
    refine hupdate id (claimRow expected) (congrArg Prod.snd h) fun hid => ?_
    unfold claimRow
    split
    · next hs => exact .claimed (by rw [hid]) hs
    · exact .same
  | updateBuildStatus id status patch =>
    refine hupdate id (statusRow status patch w.now) h fun hid => ?_
    unfold statusRow
    split
    · next hs => exact .updated (by rw [hid]) hs
    · exact .same
  | updateApp id update =>
    apply hkept
    obtain ⟨-,rfl⟩ := h
    unfold World.updateApp
    split <;> rfl
  | removeJob id =>
    obtain ⟨q,-,rfl⟩ := h
    exact hkept rfl
  | switch =>
    obtain rfl : w' = _ := h
    exact hkept rfl
  | hydrateBuild | phase => exact hkept (congrArg World.builds h)
  | _ => exact hkept (congrArg World.builds h.2)

/-- Every call, failed or not, is such a step on every build. -/
theorem buildStep_of_sem (h : sem F o w r w')
    (hrow : w.builds b = some row) : ∃ row', w'.builds b = some row' ∧ BuildStep o b row row' := by
  obtain ⟨now,rfl | ⟨a,ha⟩⟩ := responds_of_sem h
  · exact ⟨row,hrow,.same⟩
  · exact buildStep_of_responds ha hrow

/-- What one call can do to the row of an app. -/
inductive AppStep (o : Call) (a : String) (app : AppRow) : AppRow → Prop
  | same : AppStep o a app app
  | updated {update : AppUpdate} {app' : AppRow} (ho : o = .updateApp a update)
      (happly : update.apply app = some app') : AppStep o a app app'

variable {a : String} {app : AppRow}

theorem apps_updateBuild (w : World) (id : String) (f : BuildRow → Option BuildRow) :
    (w.updateBuild id f).2.apps = w.apps := by
  unfold World.updateBuild
  split <;> rfl

theorem appStep_of_responds (h : Responds o w x w') (happ : w.apps a = some app) :
    ∃ app', w'.apps a = some app' ∧ AppStep o a app app' := by
  have hkept : w'.apps = w.apps → ∃ app', w'.apps a = some app' ∧ AppStep o a app app' :=
    fun heq => ⟨app,by rw [heq,happ],.same⟩
  cases o with
  | updateApp id update =>
    obtain ⟨-,rfl⟩ := h
    unfold World.updateApp
    by_cases hid : id = a
    · subst hid
      rw [happ,Option.bind_some]
      cases happly : update.apply app with
      | none => exact ⟨app,happ,.same⟩
      | some app' => exact ⟨app',by simp,.updated rfl happly⟩
    · refine ⟨app,?_,.same⟩
      split
      · simpa [Ne.symm hid] using happ
      · exact happ
  | claim id expected =>
    apply hkept
    have hw : w' = (w.updateBuild id (claimRow expected)).2 := congrArg Prod.snd h
    rw [hw,apps_updateBuild]
  | updateBuildStatus =>
    apply hkept
    rw [show w' = _ from h,apps_updateBuild]
  | removeJob id =>
    obtain ⟨q,-,rfl⟩ := h
    exact hkept rfl
  | switch =>
    obtain rfl : w' = _ := h
    exact hkept rfl
  | hydrateBuild | phase => exact hkept (congrArg World.apps h)
  | _ => exact hkept (congrArg World.apps h.2)

theorem appStep_of_sem (h : sem F o w r w')
    (happ : w.apps a = some app) : ∃ app', w'.apps a = some app' ∧ AppStep o a app app' := by
  obtain ⟨now,rfl | ⟨x,hx⟩⟩ := responds_of_sem h
  · exact ⟨app,happ,.same⟩
  · exact appStep_of_responds hx happ

end Statements

end Ploydok.Builds
