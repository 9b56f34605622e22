import Ploydok.Runtime.Safety

/-! A deploy that nothing else comes between, moment by moment: whichever of its calls fail and
whatever the health poll finds, the app's route dials a running container before and after every
call. -/

namespace Ploydok.Runtime

open Effect Effect.Prog

variable {f : Faults} {w w' : World} {o : Call}

def World.Serving (w : World) : Prop :=
  ∃ route, w.route = some route ∧ w.docker.Live route.upstream.host

theorem World.Serving.safe (h : w.Serving) : w.Safe := by
  obtain ⟨route,hroute,hlive⟩ := h
  intro route' hroute'
  rw [hroute] at hroute'
  cases hroute'
  exact hlive

theorem serving_of_safe (hs : w.Safe) (hr : w.route.isSome) : w.Serving := by
  obtain ⟨route,hroute⟩ := Option.isSome_iff_exists.mp hr
  exact ⟨route,hroute,hs route hroute⟩

/-! ### The route is never removed -/

def Call.leavesRoute : Call → Bool
  | .removeUpstream => false
  | _ => true

def Call.avoidsRoute : Call → Bool
  | .setUpstream .. | .removeUpstream => false
  | _ => true

def Call.idle : Call → Bool
  | .setLive _ | .setRestarting | .setStopped => false
  | o => o.avoidsRoute

theorem Call.avoidsRoute_of_idle (h : o.idle = true) : o.avoidsRoute = true := by
  cases o <;> first | exact h | rfl

theorem route_of_avoidsRoute (ho : o.avoidsRoute = true) (h : platformSem f o w r w') :
    w'.route = w.route := by
  rcases platformSem_cases h with ⟨a,ha,-⟩ | ⟨rfl,-⟩
  · by_cases hp : o.passive = true
    · exact (sameHost_passive hp h).2
    · cases o with
      | containerCreate =>
        obtain ⟨d,-,rfl⟩ := ha
        rfl
      | containerStart | containerStop | containerRemove =>
        obtain ⟨-,rfl⟩ := ha
        rfl
      | setUpstream | removeUpstream => cases ho
      | _ => exact absurd rfl hp
  · rfl

theorem isSome_route (ho : o.leavesRoute = true) (h : platformSem f o w r w') (hw : w.route.isSome) :
    w'.route.isSome := by
  by_cases havoids : o.avoidsRoute = true
  · rw [route_of_avoidsRoute havoids h]
    exact hw
  · cases o with
    | setUpstream domain upstream =>
      rcases platformSem_cases h with ⟨_,rfl,-⟩ | ⟨rfl,-⟩
      · rfl
      · exact hw
    | removeUpstream => cases ho
    | _ => exact absurd rfl havoids

section AvoidsRoute

variable {α : Type} {p : RunProg α}

theorem calls_idle (h : p.Calls (Call.inert · = true)) : p.Calls (Call.idle · = true) :=
  calls_mono h fun o ho => by cases o <;> first | rfl | cases ho

theorem calls_avoidsRoute (h : p.Calls (Call.idle · = true)) :
    p.Calls (Call.avoidsRoute · = true) :=
  calls_mono h fun _ => Call.avoidsRoute_of_idle

theorem calls_leavesRoute (h : p.Calls (Call.avoidsRoute · = true)) :
    p.Calls (Call.leavesRoute · = true) := by
  refine calls_mono h fun o ho => ?_
  cases o <;> first | rfl | cases ho

theorem calls_stopCandidates (names : List String) :
    (stopContainerCandidates names).Calls (Call.idle · = true) :=
  calls_forEach fun _ _ => calls_stopContainer rfl rfl

theorem calls_launch (name image : String) : (launch name image).Calls (Call.idle · = true) := by
  have hcreate : (createContainerWithStaleSlotRecovery name image).Calls (Call.idle · = true) := by
    refine calls_tryCatch (calls_call rfl) fun err => ?_
    split
    · exact calls_throw _
    refine calls_bind (calls_tryCatch (calls_call rfl) fun _ => calls_throw _) fun upstream => ?_
    split
    · exact calls_throw _
    · exact calls_bind (calls_stopContainer rfl rfl) fun _ => calls_call rfl
  refine calls_bind (calls_call rfl) fun _ => ?_
  refine calls_bind (calls_call rfl) fun _ => ?_
  refine calls_bind (calls_call rfl) fun _ => ?_
  refine calls_bind (calls_call rfl) fun _ => ?_
  refine calls_bind hcreate fun _ => ?_
  exact calls_bind (calls_call rfl) fun _ => calls_ret _

theorem calls_abandon (appId : String) (id : Nat) (path : String) (port retries : Nat) :
    (abandon appId id path port retries).Calls (Call.idle · = true) := by
  refine calls_bind (calls_quietly (calls_call rfl)) fun _ => ?_
  refine calls_bind (calls_idle (calls_publishKnownAppLogFiles _)) fun _ => ?_
  exact calls_bind (calls_stopContainer rfl rfl) fun _ => calls_throw _

end AvoidsRoute

theorem calls_runBlueGreen (appId : String) (opts : RunBlueGreenOptions) :
    (runBlueGreen appId opts).Calls (Call.leavesRoute · = true) := by
  refine calls_bind (calls_call rfl) fun found => ?_
  split
  · exact calls_throw _
  next appRow =>
  refine calls_bind (calls_leavesRoute (calls_avoidsRoute (calls_idle calls_readCurrentColor)))
    fun currentColor => ?_
  -- which names are stopped in the end does not matter
  generalize runtimeContainerNameCandidates appRow.toApp currentColor = oldNames
  refine calls_bind (calls_leavesRoute (calls_avoidsRoute (calls_launch _ _)))
    fun newContainerId => ?_
  refine calls_bind (calls_leavesRoute (calls_avoidsRoute (calls_idle (calls_pollHealthcheck ..))))
    fun healthy => ?_
  split
  · exact calls_leavesRoute (calls_avoidsRoute (calls_abandon ..))
  · refine calls_bind
      (calls_bind (calls_call rfl) fun _ => calls_quietly (calls_call rfl)) fun _ => ?_
    refine calls_bind (calls_call rfl) fun _ => ?_
    refine calls_bind (calls_quietly (calls_call rfl)) fun _ => ?_
    refine calls_bind (calls_call rfl) fun _ => ?_
    exact calls_bind (calls_leavesRoute (calls_avoidsRoute (calls_stopCandidates _)))
      fun _ => calls_ret _

theorem keeps_route (appId : String) (opts : RunBlueGreenOptions) (hw : w.route.isSome) :
    (runBlueGreen appId opts).Keeps (platformSem f) (fun v => v.route.isSome = true) w
      fun _ _ => True :=
  keeps_mono (keeps_of_calls (calls_runBlueGreen appId opts)
    (fun v : World => v.route.isSome = true) (fun _ h => h)
    (fun _ _ _ _ ho hv hs => isSome_route ho hs hv) hw) fun _ _ _ _ => trivial

/-- Whatever fails, without effect or after it was carried out, and whatever the health poll finds,
the route dials a running container at every moment. -/
theorem deploy_alone_serving (appId : String) (opts : RunBlueGreenOptions) (f : Faults)
    (w : World) (hw : w.Serving) (c : Pool Platform RunnerError RunBlueGreenResult Unit World)
    (hc : Pool.Reach (platformSem f) (fun _ _ => True)
      (Pool.start w fun _ => runBlueGreen appId opts) c) : c.world.Serving := by
  obtain ⟨route,hroute,-⟩ := id hw
  have hsafe := (Pool.reach_keeps (keeps_runBlueGreen appId opts hw.safe) hc).now
  have hroute := (Pool.reach_keeps (keeps_route appId opts (by rw [hroute]; rfl)) hc).now
  exact serving_of_safe hsafe hroute

namespace Shop

def underway (calls : Nat) : Pool Platform RunnerError RunBlueGreenResult Unit World :=
  (List.replicate calls ()).foldl (Pool.tick serve)
    (Pool.start world fun _ => runBlueGreen "a1" { imageRef := "shop:3" })

end Shop

/-- In the middle of the deploy, the new container being started, the old one serves. -/
theorem shop_serving_underway :
    (Shop.underway 9).world.docker.containers.length = 2 ∧ (Shop.underway 9).world.Serving :=
  ⟨by decide +kernel,deploy_alone_serving "a1" { imageRef := "shop:3" } .none Shop.world
    ⟨_,rfl,_,List.mem_singleton.mpr rfl,rfl,rfl⟩ (Shop.underway 9)
    (Pool.reach_schedule (platformSem_serve .none) _ _
      (Pool.admits_of_forall (fun _ _ => trivial) _ _))⟩

end Ploydok.Runtime
