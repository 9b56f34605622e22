import Ploydok.Runtime.Outcome

/-! A deploy and a pass of the ingress reconcile side by side, `caddy/reconciler.ts`. The pass
writes the route from the row it has read, so it can take the traffic back to the old container; the
two do not agree on the port of an app without a runtime port; and an app built as static files gets
a route to its files, although restarts, rollbacks and deploys of an image start a container. -/

namespace Ploydok.Runtime

open Effect Effect.Prog Deploy List Option Function

/-- The rows that `fetchRunningAppsForCaddy` selects. -/
def AppRow.selected (row : AppRow) : Bool :=
  (row.status = .running || row.status = .restarting || row.status = .serving) &&
    row.domain.isSome

/-- The columns of `apps` that only the pass reads. -/
structure IngressColumns where
  runtimeMode : RuntimeMode
  swarmServiceName : Option String
  buildMethod : Option BuildMethod
  deriving DecidableEq, Repr

def IngressColumns.isStatic (cols : IngressColumns) : Bool := cols.buildMethod = some .static

def IngressColumns.upstreamHost (cols : IngressColumns) (containerId : Option String) :
    Option String :=
  if cols.runtimeMode = .swarm then cols.swarmServiceName else containerId

def AppRow.reconcilePort (row : AppRow) : Nat :=
  (row.runtimePort.or row.healthcheckPort).getD 3000

/-- What the pass writes for the domain: an upstream, or `none` for a route to files. -/
def AppRow.reconciled (cols : IngressColumns) (row : AppRow) :
    Option (String × Option Upstream) :=
  (truthy row.domain).bind fun domain =>
    if cols.isStatic then some (domain, none)
    else (truthy (cols.upstreamHost row.containerId)).map fun host =>
      (domain, some ⟨host,row.reconcilePort⟩)

/-- A route to files takes the place of the app's route; it dials nothing, as if there were none. -/
def upsertStaticRoute : RunProg Unit := call .removeUpstream

/-- The failure of a write is only logged. -/
def writeRoute (bootstrapped : Bool) : Option (String × Option Upstream) → RunProg Unit
  | none => return ()
  | some (_, none) => if bootstrapped then quietly upsertStaticRoute else return ()
  | some (domain, some upstream) =>
    if bootstrapped then quietly (call (.setUpstream domain upstream)) else return ()

/-- The steps of a pass that concern an app. -/
def reconcilePass (cols : IngressColumns) (bootstrapped : Bool) : RunProg Unit := do
  let found ← call .readApp
  writeRoute bootstrapped ((found.filter AppRow.selected).bind (AppRow.reconciled cols))

def deployAndPass (appId : String) (opts : RunBlueGreenOptions) (cols : IngressColumns)
    (bootstrapped : Bool) : Bool → RunProg Unit
  | true => (Operation.deploy opts).run appId
  | false => reconcilePass cols bootstrapped

def switches (log : List (Event Platform RunnerError)) : List Upstream :=
  log.filterMap fun
    | ⟨.setUpstream _ u,.ok _⟩ => some u
    | _ => none

def SwitchedTo (log : List (Event Platform RunnerError)) (u : Upstream) : Prop :=
  u ∈ switches log

/-- Once the deploy has switched, the pass goes on only with the row of a container, and one that
names the container and the port of the deploy. -/
def Informed (cols : IngressColumns) (c : Operations Bool) (i : Bool) : Prop :=
  i = false → ∀ u row, SwitchedTo (c.log true) u →
    (⟨.readApp,.ok (some row)⟩ : Event Platform RunnerError) ∈ c.log false →
      cols.isStatic = false ∧ cols.upstreamHost row.containerId = some u.host ∧
        row.reconcilePort = u.port

/-- The deploy is `pending` until it has `switched`; the pass is `fresh` until it has `read`. -/
inductive Stage where
  | pending
  | switched (u : Upstream)
  | failed
  | fresh
  | read (row : AppRow)
  | over
  deriving DecidableEq

def routeProtocol (cols : IngressColumns) : Protocol Platform RunnerError where
  State := Stage
  next
    | .pending, ⟨.setUpstream _ u,.ok _⟩ => some (.switched u)
    | .pending, ⟨.setUpstream _ _,.error _⟩ => some .failed
    | .pending, ⟨o,_⟩ => if o.avoidsRoute then some .pending else none
    | .switched u, ⟨o,_⟩ => if o.avoidsRoute then some (.switched u) else none
    | .fresh, ⟨.readApp,.ok (some row)⟩ => some (.read row)
    | .fresh, ⟨.readApp,_⟩ => some .over
    | .read row, ⟨.setUpstream domain u,_⟩ =>
      if row.reconciled cols = some (domain, some u) then some .over else none
    | .read _, ⟨.removeUpstream,_⟩ => if cols.isStatic then some .over else none
    | _, _ => none

def HasSwitched (s : Stage) (out : Except RunnerError Unit) : Prop :=
  (s = .pending ∨ s = .failed) → ∃ e, out = .error e

section Follows

variable {cols : IngressColumns} {α : Type} {s : Stage} {p : RunProg α}

theorem next_avoidsRoute (hs : s = .pending ∨ ∃ u, s = .switched u) (ho : o.avoidsRoute = true)
    (r : Except RunnerError o.Res) : (routeProtocol cols).next s ⟨o,r⟩ = some s := by
  rcases hs with rfl | ⟨u,rfl⟩
  · cases o <;> first | rfl | cases ho
  · cases o <;> first | rfl | cases ho

theorem follows_avoidsRoute (hs : s = .pending ∨ ∃ u, s = .switched u)
    (hp : p.Calls (Call.avoidsRoute · = true)) :
    p.Follows (routeProtocol cols) s fun s' _ => s' = s :=
  follows_of_calls (A := routeProtocol cols) (fun s' => s' = s) hp
    (fun s' o r hs' ho => ⟨s,by rw [hs']; exact next_avoidsRoute hs ho r,rfl⟩) rfl

theorem follows_bind_avoidsRoute {β : Type}
    (hs : s = .pending ∨ ∃ u, s = .switched u) {g : α → RunProg β}
    {Q : Stage → Except RunnerError β → Prop} (hp : p.Calls (Call.avoidsRoute · = true))
    (hg : ∀ a, (g a).Follows (routeProtocol cols) s Q) (he : ∀ e, Q s (.error e)) :
    (p.bind g).Follows (routeProtocol cols) s Q := by
  refine follows_bind _ (follows_avoidsRoute hs hp) ?_ ?_
  · rintro s' a rfl
    exact hg a
  · rintro s' e rfl
    exact he e

theorem follows_switchTo (appId : String) (row : AppRow) (name : String) (port : Nat) :
    (switchTo appId row name port).Follows (routeProtocol cols) .pending fun s out =>
      match out with
      | .ok _ => s = .switched ⟨name,port⟩
      | .error _ => True := by
  refine follows_perform_bind (fun _ => ⟨.switched ⟨name,port⟩,rfl,?_⟩)
    fun e => ⟨.failed,rfl,trivial⟩
  have hpurge : (quietly (call .purgeCloudflare)).Calls (Call.avoidsRoute · = true) :=
    calls_quietly (calls_call rfl)
  refine follows_mono (follows_avoidsRoute (.inr ⟨_,rfl⟩) hpurge) fun s out hs => ?_
  cases out with
  | ok _ => exact hs
  | error e => trivial

theorem follows_runBlueGreen (appId : String) (opts : RunBlueGreenOptions) :
    (runBlueGreen appId opts).Follows (routeProtocol cols) .pending fun s out =>
      match out with
      | .ok _ => ∃ u, s = .switched u
      | .error _ => True := by
  have hpending : Stage.pending = .pending ∨ ∃ u, Stage.pending = .switched u := .inl rfl
  refine follows_bind_avoidsRoute hpending (calls_call rfl) (fun found => ?_) fun _ => trivial
  split
  · trivial
  next appRow =>
  refine follows_bind_avoidsRoute hpending (calls_avoidsRoute (calls_idle calls_readCurrentColor))
    (fun currentColor => ?_) fun _ => trivial
  generalize runtimeContainerNameCandidates appRow.toApp currentColor = oldNames
  refine follows_bind_avoidsRoute hpending (calls_avoidsRoute (calls_launch _ _)) (fun id => ?_)
    fun _ => trivial
  refine follows_bind_avoidsRoute hpending
    (calls_avoidsRoute (calls_idle (calls_pollHealthcheck ..))) (fun healthy => ?_) fun _ => trivial
  split
  · refine follows_bind_avoidsRoute hpending (calls_quietly (calls_call rfl)) (fun _ => ?_)
      fun _ => trivial
    refine follows_bind_avoidsRoute hpending
      (calls_avoidsRoute (calls_idle (calls_publishKnownAppLogFiles _))) (fun _ => ?_)
      fun _ => trivial
    exact follows_bind_avoidsRoute hpending (calls_stopContainer rfl rfl) (fun _ => trivial)
      fun _ => trivial
  refine follows_bind _ (follows_switchTo appId appRow _ _) ?_ fun _ _ _ => trivial
  rintro s _ rfl
  have hswitched : ∀ u : Upstream, Stage.switched u = .pending ∨
      ∃ u', Stage.switched u = .switched u' := fun u => .inr ⟨u,rfl⟩
  refine follows_bind_avoidsRoute (hswitched _) (calls_call rfl) (fun _ => ?_) fun _ => trivial
  refine follows_bind_avoidsRoute (hswitched _) (calls_quietly (calls_call rfl)) (fun _ => ?_)
    fun _ => trivial
  refine follows_bind_avoidsRoute (hswitched _) (calls_call rfl) (fun _ => ?_) fun _ => trivial
  refine follows_bind_avoidsRoute (hswitched _) (calls_avoidsRoute (calls_stopCandidates _))
    (fun _ => ?_)
    fun _ => trivial
  exact ⟨_,rfl⟩

theorem follows_deploy (appId : String) (opts : RunBlueGreenOptions) :
    ((Operation.deploy opts).run appId).Follows (routeProtocol cols) .pending HasSwitched := by
  refine follows_bind _ (follows_runBlueGreen appId opts) ?_ fun s e _ _ => ⟨e,rfl⟩
  rintro s _ ⟨u,rfl⟩ (h | h)
  · cases h
  · cases h

theorem isStatic_of_reconciled {row : AppRow} (h : row.reconciled cols = some (domain, none)) :
    cols.isStatic = true := by
  by_contra hstatic
  obtain ⟨_,-,h⟩ := bind_eq_some_iff.mp h
  rw [if_neg hstatic,map_eq_some_iff] at h
  obtain ⟨host,-,h⟩ := h
  cases h

theorem follows_reconcilePass (bootstrapped : Bool) :
    (reconcilePass cols bootstrapped).Follows (routeProtocol cols) .fresh HasSwitched := by
  have hover : ∀ out, HasSwitched .over out := by
    rintro out (h | h) <;> cases h
  have hread : ∀ row out, HasSwitched (.read row) out := by
    rintro row out (h | h) <;> cases h
  refine follows_perform_bind (fun found => ?_) fun e => ⟨.over,rfl,hover _⟩
  cases found with
  | none => exact ⟨.over,rfl,hover _⟩
  | some row =>
    refine ⟨.read row,rfl,?_⟩
    generalize hx : ((some row).filter AppRow.selected).bind (AppRow.reconciled cols) = x
    have hwrite : ∀ y, x = some y → row.reconciled cols = some y := by
      rintro y rfl
      obtain ⟨row',hfilter,hreconciled⟩ := bind_eq_some_iff.mp hx
      rwa [some.inj (filter_eq_some_iff.mp hfilter).1]
    cases bootstrapped with
    | false => rcases x with _ | ⟨domain,_ | upstream⟩ <;> exact hread _ _
    | true =>
      rcases x with _ | ⟨domain,_ | upstream⟩
      · exact hread _ _
      · intro r
        refine ⟨.over,if_pos (isStatic_of_reconciled (hwrite _ rfl)),?_⟩
        cases r with
        | ok | error => exact hover _
      · intro r
        refine ⟨.over,if_pos (hwrite _ rfl),?_⟩
        cases r with
        | ok | error => exact hover _

end Follows

structure Following (c : Operations Bool) (φ : Bool → Stage) : Prop where
  switched : ∀ u, φ true = .switched u → c.world.route.map (·.upstream) = some u ∧
    SwitchedTo (c.log true) u
  read : ∀ row, φ false = .read row →
    (⟨.readApp,.ok (some row)⟩ : Event Platform RunnerError) ∈ c.log false
  deploy : φ true = .pending ∨ φ true = .failed ∨ ∃ u, φ true = .switched u
  pass : φ false ≠ .pending

inductive StageStep (cols : IngressColumns) : Stage → Event Platform RunnerError → Stage → Prop
  | avoid {s : Stage} {o : Call} {r : Except RunnerError o.Res} (ho : o.avoidsRoute = true)
      (hs : s = .pending ∨ ∃ u, s = .switched u) : StageStep cols s ⟨o,r⟩ s
  | switch {domain : String} {u : Upstream} :
      StageStep cols .pending ⟨.setUpstream domain u,.ok ()⟩ (.switched u)
  | fail {domain : String} {u : Upstream} {e : RunnerError} :
      StageStep cols .pending ⟨.setUpstream domain u,.error e⟩ .failed
  | read {row : AppRow} : StageStep cols .fresh ⟨.readApp,.ok (some row)⟩ (.read row)
  | miss {r : Except RunnerError (Option AppRow)} : StageStep cols .fresh ⟨.readApp,r⟩ .over
  | write {row : AppRow} {domain : String} {u : Upstream} {r : Except RunnerError Unit}
      (h : row.reconciled cols = some (domain, some u)) :
      StageStep cols (.read row) ⟨.setUpstream domain u,r⟩ .over
  | files {row : AppRow} {r : Except RunnerError Unit} (h : cols.isStatic = true) :
      StageStep cols (.read row) ⟨.removeUpstream,r⟩ .over

variable {cols : IngressColumns}

theorem stageStep_of_next {s s' : Stage} (h : (routeProtocol cols).next s ev = some s') :
    StageStep cols s ev s' := by
  simp only [routeProtocol] at h
  split at h
  · cases h
    exact .switch
  · cases h
    exact .fail
  · obtain ⟨ho,hs⟩ := ite_none_right_eq_some.mp h
    cases hs
    exact .avoid ho (.inl rfl)
  · obtain ⟨ho,hs⟩ := ite_none_right_eq_some.mp h
    cases hs
    exact .avoid ho (.inr ⟨_,rfl⟩)
  · cases h
    exact .read
  · cases h
    exact .miss
  · obtain ⟨hrow,hs⟩ := ite_none_right_eq_some.mp h
    cases hs
    exact .write hrow
  · obtain ⟨hstatic,hs⟩ := ite_none_right_eq_some.mp h
    cases hs
    exact .files hstatic
  · cases h

theorem eq_of_reconciled {row : AppRow} (h : row.reconciled cols = some (domain, some u)) :
    cols.upstreamHost row.containerId = some u.host ∧ row.reconcilePort = u.port := by
  obtain ⟨_,-,h⟩ := bind_eq_some_iff.mp h
  split at h
  · cases h
  · obtain ⟨host,hhost,h⟩ := map_eq_some_iff.mp h
    cases h
    exact ⟨truthy_eq_some hhost,rfl⟩

theorem SwitchedTo.append (h : SwitchedTo log u) (ev : Event Platform RunnerError) :
    SwitchedTo (log ++ [ev]) u := by
  rw [SwitchedTo,switches,filterMap_append]
  exact mem_append_left _ h

section Run

variable {cols : IngressColumns} {f : Faults} {c : Operations Bool} {φ : Bool → Stage} {o : Call}
  {k : Except RunnerError o.Res → RunProg Unit} {r : Except RunnerError o.Res} {w' : World}
  {s' : Stage}

theorem Following.deploy_step (h : Following c φ) (hs : platformSem f o c.world r w')
    (hn : (routeProtocol cols).next (φ true) ⟨o,r⟩ = some s') :
    Following (c.advance true ⟨o,r⟩ (k r) w') (update φ true s') := by
  have hstep := stageStep_of_next hn
  have hdeploy := h.deploy
  refine ⟨fun u hu => ?_,fun row hrow => ?_,?_,by simpa using h.pass⟩
  · rw [update_self] at hu
    subst hu
    simp only [Pool.advance_world,Pool.advance_log,update_self]
    generalize hstage : φ true = stage at hstep
    cases hstep with
    | avoid ho _ =>
      obtain ⟨hroute,hlog⟩ := h.switched u hstage
      exact ⟨by rw [route_of_avoidsRoute ho hs,hroute],hlog.append _⟩
    | switch =>
      obtain rfl : w' = _ := hs
      refine ⟨rfl,?_⟩
      rw [SwitchedTo,switches,filterMap_append]
      exact mem_append_right _ (mem_singleton.mpr rfl)
  · have hother := h.read row (by simpa using hrow)
    simpa using hother
  · rw [update_self]
    generalize φ true = stage at hstep hdeploy
    cases hstep with
    | avoid => exact hdeploy
    | switch => exact .inr (.inr ⟨_,rfl⟩)
    | fail => exact .inr (.inl rfl)
    | read | miss | write | files => simp at hdeploy

theorem Following.pass_step (h : Following c φ) (hok : Informed cols c false)
    (hs : platformSem f o c.world r w') (hn : (routeProtocol cols).next (φ false) ⟨o,r⟩ = some s') :
    Following (c.advance false ⟨o,r⟩ (k r) w') (update φ false s') := by
  have hstep := stageStep_of_next hn
  have hpass := h.pass
  refine ⟨fun u hu => ?_,fun row hrow => ?_,by simpa using h.deploy,?_⟩
  · obtain ⟨hroute,hlog⟩ := h.switched u (by simpa using hu)
    refine ⟨?_,by simpa using hlog⟩
    simp only [Pool.advance_world]
    generalize hstage : φ false = stage at hstep
    cases hstep with
    | avoid ho _ => rw [route_of_avoidsRoute ho hs,hroute]
    | switch | fail => exact absurd hstage hpass
    | read | miss => rw [route_of_avoidsRoute rfl hs,hroute]
    | @write row domain v _ hwrite =>
      -- the row that is written from names the container and the port of the deploy
      obtain ⟨hhost,hport⟩ := eq_of_reconciled hwrite
      obtain ⟨-,hhost',hport'⟩ := hok rfl u row hlog (h.read row hstage)
      have huv : v = u := by
        cases u
        cases v
        simp_all
      rcases platformSem_cases hs with ⟨_,rfl,-⟩ | ⟨rfl,-⟩
      · rw [huv]
        rfl
      · exact hroute
    | @files row _ hstatic =>
      exact absurd hstatic (by simp [(hok rfl u row hlog (h.read row hstage)).1])
  · rw [update_self] at hrow
    subst hrow
    simp only [Pool.advance_log,update_self]
    generalize φ false = stage at hstep
    cases hstep with
    | avoid _ hs => rcases hs with hs | ⟨u,hs⟩ <;> cases hs
    | read => exact mem_append_right _ (mem_singleton.mpr rfl)
  · rw [update_self]
    generalize φ false = stage at hstep hpass
    cases hstep with
    | avoid => exact hpass
    | switch | fail => exact absurd rfl hpass
    | read | miss | write | files => simp

end Run

theorem route_of_informed (hreach : Pool.Reach (platformSem f) (Informed cols)
      (Pool.start w (deployAndPass appId opts cols bootstrapped)) c)
    (hdeploy : c.prog true = .ret ()) :
    ∃ route, c.world.route = some route ∧ SwitchedTo (c.log true) route.upstream := by
  let s0 : Bool → Stage := fun i => if i then .pending else .fresh
  have hfollows : ∀ i, (deployAndPass appId opts cols bootstrapped i).Follows
      (routeProtocol cols) (s0 i) HasSwitched := by
    intro i
    cases i with
    | true => exact follows_deploy appId opts
    | false => exact follows_reconcilePass bootstrapped
  have hstart : Following (Pool.start w (deployAndPass appId opts cols bootstrapped)) s0 := by
    refine ⟨fun u hu => ?_,fun row hrow => ?_,.inl rfl,Stage.noConfusion⟩
    · cases hu
    · cases hrow
  obtain ⟨φ,hphased,hfollowing⟩ := Pool.reach_phased (routeProtocol cols) HasSwitched hfollows
    Following hstart (fun c φ i o k r w' s' _ hJ hok _ hs hn _ => by
      cases i with
      | true => exact hJ.deploy_step hs hn
      | false => exact hJ.pass_step hok hs hn) hreach
  have hend := hphased.follows true
  rw [hdeploy] at hend
  rcases hfollowing.deploy with hφ | hφ | ⟨u,hφ⟩
  · obtain ⟨e,he⟩ := hend (.inl hφ)
    cases he
  · obtain ⟨e,he⟩ := hend (.inr hφ)
    cases he
  · obtain ⟨hroute,hlog⟩ := hfollowing.switched u hφ
    obtain ⟨route,hsome,rfl⟩ := map_eq_some_iff.mp hroute
    exact ⟨route,hsome,hlog⟩

/-! ### A pass on its own -/

/-- For an app with a domain the pass writes no route to files, and no upstream but `u`. -/
def IngressColumns.WritesOnly (cols : IngressColumns) (row : AppRow) (u : Upstream) : Prop :=
  ∀ domain, truthy row.domain = some domain → cols.isStatic = false ∧
    ∀ host, truthy (cols.upstreamHost (some u.host)) = some host →
      host = u.host ∧ row.reconcilePort = u.port

section Alone

variable {cols : IngressColumns} {row row' : AppRow} {u : Upstream} {image : String} {w : World}

theorem reconciled_of_live (cols : IngressColumns) (hsame : row.SameSettings row')
    (hstatus : row'.status = .running) (hhost : row'.containerId = some u.host) :
    (((some row').filter AppRow.selected).bind (AppRow.reconciled cols)) =
      (truthy row.domain).bind fun domain => if cols.isStatic then some (domain, none)
        else (truthy (cols.upstreamHost (some u.host))).map fun host =>
          (domain, some ⟨host,row.reconcilePort⟩) := by
  have hdomain : row'.domain = row.domain := by rw [hsame]
  have hport : row'.reconcilePort = row.reconcilePort := by rw [hsame]; rfl
  cases hd : truthy row.domain with
  | none =>
    have hnone : row'.reconciled cols = none := by
      rw [AppRow.reconciled,hdomain,hd,bind_none]
    cases hsel : row'.selected <;> simp [hsel,hnone]
  | some domain =>
    have hsel : row'.selected = true := by
      simp [AppRow.selected,hstatus,hdomain,truthy_eq_some hd]
    rw [filter_some,if_pos hsel,bind_some,AppRow.reconciled,hdomain,hd,hhost,hport]

theorem post_reconcilePass (bootstrapped : Bool) (h : LiveOn row u image w)
    (hcond : bootstrapped = false ∨ cols.WritesOnly row u) :
    Post (platformSem f) (reconcilePass cols bootstrapped) w fun _ w' =>
      w'.route.map (·.upstream) = w.route.map (·.upstream) := by
  obtain ⟨row',hrow',hsame,hstatus,hhost⟩ := h.row
  obtain ⟨domain,hroute⟩ := h.route
  refine post_readApp hrow' ?_ fun _ => rfl
  rw [reconciled_of_live cols hsame hstatus hhost]
  rcases hcond with rfl | hcond
  · generalize (truthy row.domain).bind _ = x
    rcases x with _ | ⟨domain,_ | upstream⟩ <;> exact post_ret rfl
  cases hd : truthy row.domain with
  | none => exact post_ret rfl
  | some domain =>
    obtain ⟨hstatic,hhosts⟩ := hcond domain hd
    rw [bind_some,if_neg (by simp [hstatic])]
    cases hh : truthy (cols.upstreamHost (some u.host)) with
    | none => exact post_ret rfl
    | some host =>
      obtain ⟨rfl,hport⟩ := hhosts host hh
      cases bootstrapped with
      | false => exact post_ret rfl
      | true =>
        refine post_tryCatch (fun _ w' => w'.route.map (·.upstream) =
          w.route.map (·.upstream)) (post_call fun r w' hs => ?_) (fun _ _ h => h)
          (fun _ _ h => post_ret h)
        rcases platformSem_cases hs with ⟨_,rfl,-⟩ | ⟨rfl,-⟩
        · rw [hroute,hport]
          rfl
        · rfl

theorem exec_reconcilePass (cols : IngressColumns) (h : LiveOn row u image w) :
    (reconcilePass cols true).exec serve w = (writeRoute true ((truthy row.domain).bind fun domain =>
      if cols.isStatic then some (domain, none)
      else (truthy (cols.upstreamHost (some u.host))).map fun host =>
        (domain, some ⟨host,row.reconcilePort⟩))).exec serve w := by
  obtain ⟨row',hrow',hsame,hstatus,hhost⟩ := h.row
  rw [← reconciled_of_live cols hsame hstatus hhost,← hrow']
  change ((call .readApp).bind _).exec serve w = _
  rw [exec_bind]
  rfl

end Alone

namespace Shop

def hosted (runtimePort healthcheckPort : Option Nat) : World :=
  { world with
    row := world.row.map fun row => { row with
      domain := some "shop.example", runtimePort := runtimePort
      healthcheckPort := healthcheckPort }
    route := some ⟨"shop.example",blue,3000⟩ }

def columns : IngressColumns := ⟨.docker,none,none⟩

def deployBesidePass : Operations Bool :=
  Pool.start (hosted none none) (deployAndPass "a1" { imageRef := "shop:3" } columns true)

def latePass : Operations Bool :=
  ([false] ++ replicate 20 true ++ [false]).foldl (Pool.tick serve) deployBesidePass

def earlyPass : Operations Bool :=
  ([false, false] ++ replicate 20 true).foldl (Pool.tick serve) deployBesidePass

end Shop

open Shop

end Ploydok.Runtime
