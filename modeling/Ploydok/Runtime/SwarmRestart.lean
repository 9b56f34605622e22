import Ploydok.Runtime.Restart

/-! Restarts of apps that run as a Swarm service. The restart route, the auto-heal job and the
recovery at boot all call `restartApp`, which never asks for the runtime mode: it takes the route
down and starts a container of its own. -/

namespace Ploydok.Runtime

open Effect

inductive Recovery where
  | route | autoHeal | boot
  deriving DecidableEq, Repr

/-- Only the auto-heal job waits for the end of the restart. -/
def Recovery.background : Recovery → Bool
  | route => true
  | autoHeal => false
  | boot => true

/-- The recovery reports success exactly if this returns. -/
def Recovery.run (recovery : Recovery) (appId : String) : RunProg Unit :=
  restartAppIn recovery.background appId

structure Service where
  name : String
  replicas : Nat
  deriving DecidableEq, Repr

/-- The app is live as its service, and has no container of its own. No call of a restart changes
the services. -/
structure SwarmLive (app : App) (service : Service) (services : List Service) (w : World) :
    Prop where
  route : ∃ route, w.route = some route ∧ route.upstream.host = service.name
  service : service ∈ services
  standalone : ∀ k ∈ w.docker.containers, k.name ∉ slotNames app

section SwarmLive

variable {app : App} {service : Service} {services : List Service} {w w' : World}

theorem not_swarmLive_of_container (h : w.RunsImage (runtimeContainerName app color) image) :
    ¬ SwarmLive app service services w := by
  intro hlive
  obtain ⟨id,hk⟩ := h
  refine hlive.standalone _ hk ((mem_slotNames color.oppositeColor).mpr (.inl (.inl ?_)))
  cases color <;> rfl

theorem SwarmLive.emptied (hlive : SwarmLive app service services s.1) (h : Emptied s s') :
    SwarmLive app service services s'.1 := by
  obtain ⟨route,hroute,hhost⟩ := hlive.route
  refine ⟨⟨route,h.route.trans hroute,hhost⟩,hlive.service,fun k hk => ?_⟩
  obtain ⟨k',hk',hname⟩ := List.mem_map.mp (h.names (List.mem_map_of_mem hk))
  rw [← hname]
  exact hlive.standalone k' hk'

theorem toApp_of_marked (hrow : w.row = some row) (h : w.marked.row = some row') :
    row'.toApp = row.toApp := by
  rw [World.marked,World.setRow,hrow] at h
  cases h
  rfl

end SwarmLive

/-- A recovery that reports success leaves an app live as its service exactly if it has not even
removed the route; the auto-heal job never does. -/
theorem recovery_keeps_mode_iff (recovery : Recovery) (appId : String) (f : Faults) (w w' : World)
    (row : AppRow) (hrow : w.row = some row) (service : Service) (services : List Service)
    (hlive : SwarmLive row.toApp service services w) (tr : List (Event Platform RunnerError))
    (journal : List Call)
    (hrun : (recovery.run appId).Runs (journaledSem f) (w, []) tr (.ok ()) (w', journal)) :
    (SwarmLive row.toApp service services w' ↔ .removeUpstream ∉ journal) ∧
      (recovery = .autoHeal → ¬ SwarmLive row.toApp service services w') := by
  cases post_restartAppIn recovery.background appId w tr (.ok ()) (w', journal) hrun with
  | worked h hout =>
    cases h with
    | emptied h =>
      have hlive' : SwarmLive row.toApp service services w' :=
        SwarmLive.emptied ⟨hlive.route,hlive.service,hlive.standalone⟩ h
      refine ⟨iff_of_true hlive' fun hmem => ?_,?_⟩
      · simpa [marking] using (h.mem_iff rfl).mp hmem
      · rintro rfl
        cases hout
    | takenDown h =>
      have hnot : ¬ SwarmLive row.toApp service services w' := by
        rintro ⟨⟨route,hroute,-⟩,-,-⟩
        rw [h.route] at hroute
        cases hroute
      exact ⟨iff_of_false hnot fun hmem => hmem h.removed,fun _ => hnot⟩
    | dialled hrow' h hremoved =>
      have hnot : ¬ SwarmLive row.toApp service services w' := by
        rw [← toApp_of_marked hrow hrow']
        exact not_swarmLive_of_container h.container
      exact ⟨iff_of_false hnot fun hmem => hmem hremoved,fun _ => hnot⟩
    | recorded hrow' h hremoved =>
      have hnot : ¬ SwarmLive row.toApp service services w' := by
        rw [← toApp_of_marked hrow hrow']
        exact not_swarmLive_of_container h.live.container
      exact ⟨iff_of_false hnot fun hmem => hmem hremoved,fun _ => hnot⟩

namespace Shop

def service : Service := ⟨"ploydok-app-shop-a1",3⟩

def swarmWorld : World :=
  { world with
    docker := { containers := [], nextId := 0, id_lt := by simp, ids := by simp, names := by simp }
    route := some ⟨"a1.ploydok.local",service.name,3000⟩ }

theorem swarmLive_world : SwarmLive app service [service] swarmWorld :=
  ⟨⟨_,rfl,rfl⟩,List.mem_singleton.mpr rfl,by simp [swarmWorld]⟩

def healed : Journaled := ((Recovery.autoHeal.run "a1").exec serveJournaled (swarmWorld, [])).2

end Shop

open Shop

theorem recovery_keeps_mode_shop : .removeUpstream ∈ healed.2 ∧
      ¬ SwarmLive app service [service] healed.1 := by
  obtain ⟨_,tr,hrun⟩ := Prog.runs_exec_of_isOk journaledSem_serve
    (p := Recovery.autoHeal.run "a1") (w := (swarmWorld, [])) (by decide +kernel)
  exact ⟨by decide +kernel,(recovery_keeps_mode_iff .autoHeal "a1" .none swarmWorld
    healed.1 _ rfl service [service] swarmLive_world tr healed.2
    hrun).2 rfl⟩

/-- The route ends on a container of the app's own. -/
theorem recovery_leaves_swarm :
    ¬ ∀ (recovery : Recovery) (appId : String) (f : Faults) (w w' : World) (row : AppRow)
      (service : Service) (services : List Service) (tr : List (Event Platform RunnerError)),
      w.row = some row → SwarmLive row.toApp service services w →
      (recovery.run appId).Runs (platformSem f) w tr (.ok ()) w' →
      SwarmLive row.toApp service services w' := by
  intro hall
  obtain ⟨_,tr,hrun⟩ := Prog.runs_exec_of_isOk (platformSem_serve .none)
    (p := Recovery.route.run "a1") (w := swarmWorld) (by decide +kernel)
  obtain ⟨route,hroute,hhost⟩ :=
    (hall .route "a1" .none swarmWorld _ _ service [service] tr rfl swarmLive_world hrun).route
  have hdials : ((Recovery.route.run "a1").exec serve swarmWorld).2.route.map
      (·.upstream.host) = some (runtimeContainerName app .green) := by
    decide +kernel
  rw [hroute,Option.map_some,hhost] at hdials
  exact absurd hdials (by decide +kernel)

end Ploydok.Runtime
