import Ploydok.Caddy.Route
import Ploydok.Data.Keyed
import Ploydok.Effect.Pool

/-! Concurrent route writes over Caddy's admin interface, `caddy/client.ts`. An upsert reads the
whole route list and writes a whole list back; a removal is one request. Runs in which no list is
written while another process is between its read and its write are linearizable. -/

namespace Ploydok.Caddy

open Effect Effect.Prog Data List Function

/-- The requests that touch `srv0` or its routes. -/
inductive Request where
  | getConfig
  | putServer
  | getRoutes
  | patchRoutes (routes : List CaddyRoute)
  | deleteId (id : String)

@[reducible] def Request.Res : Request → Type
  | .getConfig => Bool
  | .putServer => Unit
  | .getRoutes => List CaddyRoute
  | .patchRoutes _ | .deleteId _ => Unit

abbrev Admin : Sig := ⟨Request,Request.Res⟩

/-- The routes of `srv0`, when there is such a server. -/
abbrev Srv0 := Option (List CaddyRoute)

/-- What a request does when Caddy accepts it. `PUT` only creates, and a `DELETE` of an absent id
counts as a success. -/
def accepted : (o : Request) → Srv0 → Option (o.Res × Srv0)
  | .getConfig, w => some (w.isSome, w)
  | .putServer, none => some ((), some [])
  | .putServer, some _ => none
  | .getRoutes, none => none
  | .getRoutes, some routes => some (routes, some routes)
  | .patchRoutes _, none => none
  | .patchRoutes routes, some _ => some ((), some routes)
  | .deleteId id, w => some ((), w.map fun routes => routes.filter fun r => r.id ≠ some id)

/-- A request that fails may still have been carried out. -/
def adminSem : Sem Admin String Srv0
  | o, w, .ok a, w' => accepted o w = some (a, w')
  | o, w, .error _, w' => w' = w ∨ ∃ a, accepted o w = some (a, w')

def adminHandler (o : Request) (w : Srv0) : Except String o.Res × Srv0 :=
  match accepted o w with
  | some (a, w') => (.ok a, w')
  | none => (.error "refused", w)

theorem adminSem_handler (o : Request) (w : Srv0) :
    adminSem o w (adminHandler o w).1 (adminHandler o w).2 := by
  unfold adminHandler
  split
  · next a w' h => exact h
  · exact .inl rfl

abbrev AdminProg := Prog Admin String

def request (o : Request) : AdminProg o.Res := Prog.perform (S := Admin) o

def ensureBootstrap : AdminProg Unit := do
  let present ← request .getConfig
  if present then return ()
  request .putServer

def putRouteFirst (route : CaddyRoute) : AdminProg Unit := do
  let routes ← request .getRoutes
  request (.patchRoutes (route :: routes.filter fun r => r.id ≠ route.id))

/-- A route write: `upsertRoute` and `upsertStaticRoute` put, `removeRoute` removes. -/
abbrev RouteWrite := Write CaddyRoute String

def runWrite : RouteWrite → AdminProg Unit
  | .put route => do
    ensureBootstrap
    putRouteFirst route
  | .remove id => request (.deleteId id)

def runWrites (ws : List RouteWrite) : AdminProg Unit := Prog.forEach ws runWrite

def reading (log : List (Event Admin String)) : Bool :=
  match log.getLast? with
  | some ⟨.getRoutes,.ok _⟩ => true
  | _ => false

def writesNext : AdminProg Unit → Bool
  | .call (.patchRoutes _) _ | .call (.deleteId _) _ => true
  | _ => false

variable {ι : Type}

def Exclusive (c : Pool Admin String Unit ι Srv0) (i : ι) : Prop :=
  writesNext (c.prog i) = true → ∀ j, j ≠ i → reading (c.log j) = false

/-! ### The protocol of one process -/

/-- The writes completed, those left, and the list read for the first of these. -/
inductive Phase where
  | running (finished left : List RouteWrite) (read : Option (List CaddyRoute))
  | failed

open Classical in
/-- An upsert reads the list and writes it back with its route in front. -/
noncomputable def writeProtocol : Protocol Admin String where
  State := Phase
  next
    | .failed, _ | .running _ _ _, ⟨_,.error _⟩ => some .failed
    | .running done left none, ⟨.getConfig,.ok _⟩
    | .running done left none, ⟨.putServer,.ok _⟩ => some (.running done left none)
    | .running done (.put r :: left) none, ⟨.getRoutes,.ok routes⟩ =>
      some (.running done (.put r :: left) (some routes))
    | .running done (.put r :: left) (some routes), ⟨.patchRoutes written,.ok _⟩ =>
      if written = (Write.put r : RouteWrite).apply CaddyRoute.id routes then
        some (.running (done ++ [.put r]) left none)
      else none
    | .running done (.remove k :: left) none, ⟨.deleteId id,.ok _⟩ =>
      if id = k then some (.running (done ++ [.remove k]) left none) else none
    | _, _ => none

def Completed (s : writeProtocol.State) (out : Except String Unit) : Prop :=
  match s, out with
  | Phase.running _ left read, .ok _ => left = [] ∧ read = none
  | Phase.failed, .ok _ => False
  | _, .error _ => True

inductive WriteStep : Phase → Event Admin String → Phase → Prop
  | config {done left : List RouteWrite} {present : Bool} :
      WriteStep (.running done left none) ⟨.getConfig,.ok present⟩ (.running done left none)
  | bootstrap {done left : List RouteWrite} :
      WriteStep (.running done left none) ⟨.putServer,.ok ()⟩ (.running done left none)
  | fetch {done left : List RouteWrite} {r : CaddyRoute} {routes : List CaddyRoute} :
      WriteStep (.running done (.put r :: left) none) ⟨.getRoutes,.ok routes⟩
        (.running done (.put r :: left) (some routes))
  | patch {done left : List RouteWrite} {r : CaddyRoute} {routes : List CaddyRoute} :
      WriteStep (.running done (.put r :: left) (some routes))
        ⟨.patchRoutes ((Write.put r : RouteWrite).apply CaddyRoute.id routes),.ok ()⟩
        (.running (done ++ [.put r]) left none)
  | delete {done left : List RouteWrite} {k : String} :
      WriteStep (.running done (.remove k :: left) none) ⟨.deleteId k,.ok ()⟩
        (.running (done ++ [.remove k]) left none)

theorem writeStep_of_next (hs : s ≠ .failed) (h : writeProtocol.next s ⟨o,.ok a⟩ = some s') :
    WriteStep s ⟨o,.ok a⟩ s' := by
  simp only [writeProtocol] at h
  split at h
  · exact absurd rfl hs
  · next heq => cases heq
  · next heq =>
    cases heq
    cases h
    exact .config
  · next heq =>
    cases heq
    cases h
    exact .bootstrap
  · next heq =>
    cases heq
    cases h
    exact .fetch
  · next heq =>
    cases heq
    obtain ⟨rfl,hnext⟩ := Option.ite_none_right_eq_some.mp h
    cases hnext
    exact .patch
  · next heq =>
    cases heq
    obtain ⟨rfl,hnext⟩ := Option.ite_none_right_eq_some.mp h
    cases hnext
    exact .delete
  · cases h

theorem follows_ensureBootstrap (done left : List RouteWrite) :
    ensureBootstrap.Follows writeProtocol (.running done left none) fun s out =>
      match out with
      | .ok _ => s = .running done left none
      | .error _ => True := by
  intro r
  cases r with
  | error e => exact ⟨.failed,rfl,trivial⟩
  | ok present =>
    refine ⟨.running done left none,rfl,?_⟩
    cases present with
    | true => rfl
    | false =>
      refine follows_perform fun r => ?_
      cases r with
      | error e => exact ⟨.failed,rfl,trivial⟩
      | ok _ => exact ⟨.running done left none,rfl,rfl⟩

theorem follows_putRouteFirst (done left : List RouteWrite) (r : CaddyRoute) :
    (putRouteFirst r).Follows writeProtocol (.running done (.put r :: left) none) fun s out =>
      match out with
      | .ok _ => s = .running (done ++ [.put r]) left none
      | .error _ => True := by
  intro answer
  cases answer with
  | error e => exact ⟨.failed,rfl,trivial⟩
  | ok routes =>
    refine ⟨.running done (.put r :: left) (some routes),rfl,?_⟩
    refine follows_perform fun answer => ?_
    cases answer with
    | error e => exact ⟨.failed,rfl,trivial⟩
    | ok _ => exact ⟨_,by simp [writeProtocol,Write.apply],rfl⟩

theorem follows_runWrite (done left : List RouteWrite) (w : RouteWrite) :
    (runWrite w).Follows writeProtocol (.running done (w :: left) none) fun s out =>
      match out with
      | .ok _ => s = .running (done ++ [w]) left none
      | .error _ => True := by
  cases w with
  | put r =>
    refine follows_bind _ (follows_ensureBootstrap done (.put r :: left)) ?_ fun _ _ h => h
    rintro s _ rfl
    exact follows_putRouteFirst done left r
  | remove k =>
    refine follows_perform fun answer => ?_
    cases answer with
    | error e => exact ⟨.failed,rfl,trivial⟩
    | ok _ => exact ⟨_,by simp [writeProtocol],rfl⟩

theorem follows_runWrites (ws : List RouteWrite) :
    (runWrites ws).Follows writeProtocol (.running [] ws none) Completed := by
  refine follows_forEach (fun left s => ∃ done, s = Phase.running done left none) ws ⟨[],rfl⟩ ?_ ?_
  · rintro w left s ⟨done,rfl⟩
    refine follows_mono (follows_runWrite done left w) fun s out h => ?_
    cases out with
    | ok _ => exact ⟨_,h⟩
    | error e => cases s <;> trivial
  · rintro s ⟨done,rfl⟩
    exact ⟨rfl,rfl⟩

section Linear

variable [DecidableEq ι]

structure Linear (ops : ι → List RouteWrite) (init : List CaddyRoute)
    (c : Pool Admin String Unit ι Srv0) (φ : ι → Phase) : Prop where
  history : ∃ hist : List (ι × RouteWrite),
    (∀ i done left read, φ i = .running done left read →
      done ++ left = ops i ∧ (hist.filter fun e => e.1 = i).map (·.2) = done) ∧
    c.world.getD [] = applyAll CaddyRoute.id (hist.map (·.2)) init
  read : ∀ i done left routes, φ i = .running done left (some routes) →
    c.world = some routes ∧ reading (c.log i) = true

variable {ops : ι → List RouteWrite} {init : List CaddyRoute} {φ : ι → Phase}
  {c : Pool Admin String Unit ι Srv0} {i : ι} {done left : List RouteWrite}
  {hist : List (ι × RouteWrite)}

theorem Linear.keep (h : Linear ops init c φ) {read read' : Option (List CaddyRoute)}
    (hi : φ i = .running done left read) (ev : Event Admin String) (p : AdminProg Unit) (w : Srv0)
    (hw : w.getD [] = c.world.getD []) (hsome : ∀ routes, c.world = some routes → w = some routes)
    (hread : ∀ routes, read' = some routes → w = some routes ∧ reading (c.log i ++ [ev]) = true) :
    Linear ops init (c.advance i ev p w) (update φ i (.running done left read')) := by
  obtain ⟨hist,hproj,hworld⟩ := h.history
  refine ⟨⟨hist,?_,by simpa [hw] using hworld⟩,?_⟩
  · intro j done' left' read'' hj
    by_cases hij : j = i
    · subst hij
      simp only [update_self,Phase.running.injEq] at hj
      obtain ⟨rfl,rfl,-⟩ := hj
      exact hproj j _ _ _ hi
    · rw [update_of_ne hij] at hj
      exact hproj j _ _ _ hj
  · intro j done' left' routes hj
    by_cases hij : j = i
    · subst hij
      simp only [update_self,Phase.running.injEq] at hj
      simpa using hread routes hj.2.2
    · rw [update_of_ne hij] at hj
      obtain ⟨hc,hl⟩ := h.read j _ _ _ hj
      exact ⟨hsome routes hc,by simpa [hij] using hl⟩

theorem Linear.commit (h : Linear ops init c φ) {read : Option (List CaddyRoute)}
    (hi : φ i = .running done (w :: left) read) (ev : Event Admin String) (p : AdminProg Unit)
    (world : Srv0) (hw : world.getD [] = w.apply CaddyRoute.id (c.world.getD []))
    (hothers : ∀ j, j ≠ i → reading (c.log j) = false) :
    Linear ops init (c.advance i ev p world) (update φ i (.running (done ++ [w]) left none)) := by
  obtain ⟨hist,hproj,hworld⟩ := h.history
  refine ⟨⟨hist ++ [(i, w)],?_,?_⟩,?_⟩
  · intro j done' left' read' hj
    by_cases hij : j = i
    · subst hij
      obtain ⟨hops,hdone⟩ := hproj j _ _ _ hi
      simp only [update_self,Phase.running.injEq] at hj
      obtain ⟨rfl,rfl,-⟩ := hj
      refine ⟨by simpa using hops,?_⟩
      simp [filter_append,hdone]
    · rw [update_of_ne hij] at hj
      obtain ⟨hops,hdone⟩ := hproj j _ _ _ hj
      refine ⟨hops,?_⟩
      simp [filter_append,Ne.symm hij,hdone]
  · rw [Pool.advance_world,hw,map_append,applyAll_append,← hworld]
    rfl
  · intro j done' left' routes hj
    by_cases hij : j = i
    · subst hij
      simp at hj
    · rw [update_of_ne hij] at hj
      have := (h.read j _ _ _ hj).2
      rw [hothers j hij] at this
      cases this

theorem Linear.step (h : Linear ops init c φ) (hex : Exclusive c i) (hp : c.prog i = .call o k)
    (hs : accepted o c.world = some (a, w)) (hn : WriteStep (φ i) ⟨o,.ok a⟩ s) :
    Linear ops init (c.advance i ⟨o,.ok a⟩ (k (.ok a)) w) (update φ i s) := by
  generalize hi : φ i = s0 at hn
  cases hn with
  | config =>
    simp only [accepted,Option.some.injEq,Prod.mk.injEq] at hs
    rw [← hs.2]
    exact h.keep hi _ _ _ rfl (fun _ hr => hr) (by simp)
  | bootstrap =>
    cases hw : c.world with
    | some routes => simp [hw,accepted] at hs
    | none =>
      simp only [hw,accepted,Option.some.injEq,Prod.mk.injEq] at hs
      rw [← hs.2]
      exact h.keep hi _ _ _ (by simp [hw]) (by simp [hw]) (by simp)
  | fetch =>
    cases hw : c.world with
    | none => simp [hw,accepted] at hs
    | some routes =>
      simp only [hw,accepted,Option.some.injEq,Prod.mk.injEq] at hs
      obtain ⟨rfl,rfl⟩ := hs
      refine h.keep hi _ _ _ (by simp [hw]) (by simp [hw]) fun routes' hr => ?_
      exact ⟨hr,by simp [reading]⟩
  | patch =>
    -- the list that was read is still the list, so the patch is the write itself
    have hothers := hex (by rw [hp]; rfl)
    have hw := (h.read i _ _ _ hi).1
    simp only [hw,accepted,Option.some.injEq,Prod.mk.injEq] at hs
    rw [← hs.2]
    refine h.commit hi _ _ _ ?_ hothers
    rw [hw]
    rfl
  | delete =>
    have hothers := hex (by rw [hp]; rfl)
    simp only [accepted,Option.some.injEq,Prod.mk.injEq] at hs
    rw [← hs.2]
    refine h.commit hi _ _ _ ?_ hothers
    cases c.world with
    | none | some => rfl

theorem linear_of_reach
    (hr : Pool.Reach adminSem Exclusive (Pool.start w fun i => runWrites (ops i)) c) :
    ∃ φ, Pool.Phased writeProtocol Completed (fun i => .running [] (ops i) none) c φ ∧
      ((∃ i, φ i = .failed) ∨ Linear ops (w.getD []) c φ) := by
  refine Pool.reach_phased writeProtocol Completed (fun i => follows_runWrites (ops i))
    (fun c φ => (∃ i, φ i = .failed) ∨ Linear ops (w.getD []) c φ) ?_ ?_ hr
  · refine .inr ⟨⟨[],?_,rfl⟩,?_⟩
    · rintro i done left read hi
      cases hi
      exact ⟨rfl,rfl⟩
    · rintro i done left routes hi
      cases hi
  · intro c φ i o k r w' s' hφ hJ hex hp hs hn hf
    by_cases hfail : ∃ j, φ j = .failed
    · obtain ⟨j,hj⟩ := hfail
      refine .inl ⟨j,?_⟩
      by_cases hij : j = i
      · subst hij
        rw [hj] at hn
        rw [update_self]
        exact (Option.some.inj hn).symm
      · rw [update_of_ne hij]
        exact hj
    · cases r with
      | error e =>
        refine .inl ⟨i,?_⟩
        rw [update_self]
        revert hn
        cases φ i <;> exact fun hn => (Option.some.inj hn).symm
      | ok a =>
        have hstep := writeStep_of_next (fun hc => hfail ⟨i,hc⟩) hn
        exact .inr ((hJ.resolve_left hfail).step hex hp hs hstep)

/-- The last write to an id decides what is under it; routes under other ids are the initial ones in
their order. -/
structure Settled (ops : ι → List RouteWrite) (init final : List CaddyRoute) : Prop where
  upserted : ∀ i k r, lastWrite CaddyRoute.id k (ops i) = some (.put r) →
    recordsAt CaddyRoute.id k final = [r]
  removed : ∀ i k k', lastWrite CaddyRoute.id k (ops i) = some (.remove k') →
    recordsAt CaddyRoute.id k final = []
  others : ∀ P : CaddyRoute → Bool,
    (∀ i, ∀ w ∈ ops i, ∀ r, P r = true → r.id ≠ w.target CaddyRoute.id) →
    final.filter P = init.filter P

def DisjointIds (ops : ι → List RouteWrite) : Prop :=
  ∀ i j, i ≠ j → ∀ w ∈ ops i, ∀ w' ∈ ops j, w.target CaddyRoute.id ≠ w'.target CaddyRoute.id

theorem lastWrite_history (hd : DisjointIds ops)
    (hproj : ∀ i, (hist.filter fun e => e.1 = i).map (·.2) = ops i)
    (h : lastWrite CaddyRoute.id k (ops i) = some w) :
    lastWrite CaddyRoute.id k (hist.map (·.2)) = some w := by
  have hmem : ∀ e ∈ hist, e.2 ∈ ops e.1 := by
    intro e he
    rw [← hproj e.1]
    exact mem_map_of_mem (mem_filter.mpr ⟨he,by simp⟩)
  have hw := mem_of_getLast? h
  obtain ⟨hwi,hwk⟩ := mem_filter.mp hw
  rw [decide_eq_true_eq] at hwk
  have hsame : hist.filter (fun e => e.2.target CaddyRoute.id = some k) =
      (hist.filter fun e => e.1 = i).filter fun e => e.2.target CaddyRoute.id = some k := by
    rw [filter_filter]
    apply filter_congr
    intro e he
    by_cases hk : e.2.target CaddyRoute.id = some k
    · have : e.1 = i := by
        by_contra hne
        exact hd e.1 i hne e.2 (hmem e he) w hwi (hk.trans hwk.symm)
      simp [hk,this]
    · simp [hk]
  unfold lastWrite at h ⊢
  rw [← h,← hproj i,filter_map,filter_map,getLast?_map,getLast?_map]
  exact congrArg (fun l => Option.map (·.2) (getLast? l)) hsame

theorem settled_of_history (hd : DisjointIds ops)
    (hproj : ∀ i, (hist.filter fun e => e.1 = i).map (·.2) = ops i) :
    Settled ops init (applyAll CaddyRoute.id (hist.map (·.2)) init) := by
  constructor
  · intro i k r h
    rw [recordsAt_applyAll,lastWrite_history hd hproj h]
  · intro i k k' h
    rw [recordsAt_applyAll,lastWrite_history hd hproj h]
  · intro P hP
    apply filter_applyAll
    intro w hw r hr
    obtain ⟨e,he,rfl⟩ := mem_map.mp hw
    refine hP e.1 e.2 ?_ r hr
    rw [← hproj e.1]
    exact mem_map_of_mem (mem_filter.mpr ⟨he,by simp⟩)

end Linear

/-- When every process has returned, the list holds the last writes of all of them and is otherwise
unchanged, in every run whose lists are written exclusively. -/
theorem no_lost_route [DecidableEq ι] (ops : ι → List RouteWrite) (hd : DisjointIds ops) (w : Srv0)
    (c : Pool Admin String Unit ι Srv0)
    (hr : Pool.Reach adminSem Exclusive (Pool.start w fun i => runWrites (ops i)) c)
    (hret : ∀ i, c.prog i = .ret ()) : Settled ops (w.getD []) (c.world.getD []) := by
  obtain ⟨φ,hφ,hJ⟩ := linear_of_reach hr
  have hdone : ∀ i, Completed (φ i) (.ok ()) := by
    intro i
    have := hφ.follows i
    rwa [hret i] at this
  rcases hJ with ⟨i,hi⟩ | hlin
  · have := hdone i
    rw [hi] at this
    exact this.elim
  · obtain ⟨hist,hproj,hworld⟩ := hlin.history
    rw [hworld]
    apply settled_of_history hd
    intro i
    have hi := hdone i
    cases hc : φ i with
    | failed =>
      rw [hc] at hi
      exact hi.elim
    | running done left read =>
      rw [hc] at hi
      obtain ⟨hops,hfilter⟩ := hproj i _ _ _ hc
      rw [hfilter,← hops,hi.1,append_nil]

namespace TwoUpserts

def appUpsert : CaddyRoute :=
  appRoute (fun _ => none) "shop.ploydok.local" "shop-blue:3000" "shop" {}

def serviceUpsert : CaddyRoute := appRoute (fun _ => none) "db.ploydok.local" "db:8080" "db" {}

def writes : Bool → List RouteWrite
  | false => [.put appUpsert]
  | true => [.put serviceUpsert]

def start : Pool Admin String Unit Bool Srv0 := Pool.start (some []) fun i => runWrites (writes i)

theorem disjointIds : DisjointIds writes := by
  intro i j hij w hw w' hw'
  cases i <;> cases j <;> simp_all [writes,Write.target,appUpsert,serviceUpsert,appRoute,routeId]

def oneByOne : Pool Admin String Unit Bool Srv0 :=
  [false, false, false, true, true, true].foldl (Pool.tick adminHandler) start

def overlapping : Pool Admin String Unit Bool Srv0 :=
  [false, false, true, true, false, true].foldl (Pool.tick adminHandler) start

end TwoUpserts

open TwoUpserts

theorem no_lost_route_one_by_one : Settled writes [] (oneByOne.world.getD []) := by
  refine no_lost_route writes disjointIds (some []) oneByOne ?_ ?_
  · apply Pool.reach_schedule adminSem_handler
    simp only [Pool.Admits,Exclusive]
    decide
  · intro i
    cases i <;> rfl

/-- Two upserts whose reads overlap: the first one is lost, and both return. -/
theorem overlapping_upserts_lose_route :
    ¬ ∀ (ops : Bool → List RouteWrite) (w : Srv0) (c : Pool Admin String Unit Bool Srv0),
      DisjointIds ops →
      Pool.Reach adminSem (fun _ _ => True) (Pool.start w fun i => runWrites (ops i)) c →
      (∀ i, c.prog i = .ret ()) → Settled ops (w.getD []) (c.world.getD []) := by
  intro h
  have hreach : Pool.Reach adminSem (fun _ _ => True) start overlapping :=
    Pool.reach_schedule adminSem_handler _ _ (by simp [Pool.Admits])
  have hs := h writes (some []) overlapping disjointIds hreach (by intro i; cases i <;> rfl)
  have hshop := hs.upserted false "ploydok-shop" appUpsert rfl
  have hfinal : overlapping.world = some [serviceUpsert] := rfl
  rw [hfinal] at hshop
  simp [recordsAt,serviceUpsert,appRoute,routeId] at hshop

end Ploydok.Caddy
