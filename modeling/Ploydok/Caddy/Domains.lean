import Ploydok.Caddy.Preservation

/-! The routes of custom domains: `worker/handlers/domain-verify.ts` copies the upstream of the
app's route into a route of the domain, and every later writer rewrites that route from its own old
value, so the copy never changes. -/

namespace Ploydok.Caddy

open Data Text List Option

variable (env : Env)

/-- The end of `handleDomainVerify`. The CDN settings are known only where a user has requested the
check. -/
def handleDomainVerify (a : Nanoid) (requested : Domain → Bool) (s : State) (d : Domain) : State :=
  match getUpstream s.routes a.text with
  | none => s
  | some u =>
    let cdn := if requested d then (s.apps a).map AppRow.cdn else none
    ⟨s.apps,upsertRoute env d.hostname u.dial (domainRouteId d) { cdn := cdn } s.routes⟩

def verifyAll (a : Nanoid) (requested : Domain → Bool) (s : State) (ds : List Domain) : State :=
  ds.foldl (handleDomainVerify env a requested) s

def Follows (a : Nanoid) (ds : List Domain) (s : State) : Prop :=
  ∀ d ∈ ds, getUpstream s.routes (domainRouteId d) = getUpstream s.routes a.text

/-- `Follows` before and after each operation of a sequence. -/
def FollowsAlong (a : Nanoid) (ds : List Domain) (s : State) : List Operation → Prop
  | [] => Follows a ds s
  | op :: ops => Follows a ds s ∧ FollowsAlong a ds (step env s op) ops

/-- The upstream that is read back from a route to `u`. -/
def Upstream.named (u : Upstream) : Option Upstream := if u.host = "" then none else some u

def reconciledUpstream (row : AppRow) : Option Upstream :=
  if row.isStatic then none
  else
    (truthy (if row.isSwarm then row.swarmServiceName else row.containerId)).map fun host =>
      ⟨host,(row.runtimePort.or row.healthcheckPort).getD 3000⟩

/-- What an operation makes the route of an app dial, if it changes it. -/
def redirects (s : State) (a : Nanoid) (op : Operation) : Option (Option Upstream) :=
  match s.apps a with
  | none => none
  | some row =>
    let hasDomain := (truthy row.domain).isSome
    match op with
    | .patchProtection .. => none
    | .switchContainer b name port => if b = a then some (Upstream.named ⟨name,port⟩) else none
    | .switchService b name port =>
      if b = a ∧ hasDomain then some (Upstream.named ⟨name,port⟩) else none
    | .switchStatic b => if b = a ∧ hasDomain then some none else none
    | .syncCdn b _ =>
      if b = a ∧ hasDomain then
        some (if row.isStatic then none else cdnUpstream a row s.routes)
      else none
    | .reconcile appIds =>
      if a ∈ appIds ∧ (reconciledRoute env a row).isSome then some (reconciledUpstream row)
      else none

def Stays (s : State) (a : Nanoid) (op : Operation) : Prop :=
  ∀ up, redirects env s a op = some up → up = getUpstream s.routes a.text

/-- `Stays` for each operation of a sequence, in the state before it. -/
def StaysAlong (a : Nanoid) (s : State) : List Operation → Prop
  | [] => True
  | op :: ops => Stays env s a op ∧ StaysAlong a (step env s op) ops

theorem parseDial_dial_named (u : Upstream) : parseDial u.dial = u.named := by
  unfold Upstream.named
  split_ifs with h
  · have htext : u.dial.toList = [] ++ ':' :: (toString u.port).toList := by
      simp [Upstream.dial,h]
    unfold parseDial
    rw [htext,splitLast_append _ (colon_not_mem_toString u.port)]
    simp
  · exact parseDial_dial u h

theorem upstreamOf_appRoute_named (host appId : String) (u : Upstream) (m : CaddyMiddlewares) :
    upstreamOf (appRoute env.parse host u.dial appId m) = u.named := by
  rw [upstreamOf_appRoute_dial,parseDial_dial_named]

theorem upstreamOf_staticRoute (host root appId : String) (spaFallback : Bool)
    (cdn : CdnAppConfig) :
    upstreamOf (staticRoute env.parse host root appId spaFallback (some cdn)) = none := by
  have hnone : (staticRoute env.parse host root appId spaFallback (some cdn)).handle.find?
      isReverseProxy = none := by
    rw [find?_eq_none]
    intro h hh
    simp [(handle_staticRoute env host root appId spaFallback cdn h hh).2]
  unfold upstreamOf
  rw [hnone]

variable {route : CaddyRoute} {k other : String}

theorem getUpstream_putRoute_self (h : route.id = some (routeId k)) (routes : List CaddyRoute) :
    getUpstream (putRoute route routes) k = upstreamOf route := by
  rw [getUpstream,findRoute_putRoute_self h,bind_some]

theorem getUpstream_putRoute_of_ne
    (h : route.id = some (routeId other)) (hne : other ≠ k) (routes : List CaddyRoute) :
    getUpstream (putRoute route routes) k = getUpstream routes k := by
  rw [getUpstream,findRoute_putRoute_of_ne h hne,getUpstream]

variable {u : Upstream} {b : Nanoid}

theorem getUpstream_upsertRoute_same (hu : getUpstream routes other = some u) (host : String)
    (m : CaddyMiddlewares) (k : String) :
    getUpstream (upsertRoute env host u.dial other m routes) k = getUpstream routes k := by
  by_cases hk : other = k
  · subst hk
    rw [upsertRoute,getUpstream_putRoute_self (id_appRoute ..),
      upstreamOf_appRoute env host other u m (host_ne_empty_of_getUpstream hu),hu]
  · exact getUpstream_putRoute_of_ne (id_appRoute ..) hk routes

theorem getUpstream_syncDomains (m : CaddyMiddlewares) (domains : List Domain)
    (routes : List CaddyRoute) (k : String) :
    getUpstream (syncDomains env m domains routes) k = getUpstream routes k := by
  unfold syncDomains
  induction domains generalizing routes with
  | nil => rfl
  | cons d domains ih =>
    rw [foldl_cons,ih]
    split
    · rfl
    · next u hu => exact getUpstream_upsertRoute_same env hu _ _ _

theorem getUpstream_syncProtection (salt : String) (b : Nanoid) (row : AppRow)
    (routes : List CaddyRoute) (k : String) :
    getUpstream (syncProtectionToCaddy env salt b row routes) k = getUpstream routes k := by
  unfold syncProtectionToCaddy
  split
  · next u host hu _ =>
    rw [getUpstream_syncDomains,getUpstream_upsertRoute_same env hu]
  · rfl

theorem getUpstream_syncCdn_of_ne (hk : b.text ≠ k) (row : AppRow) (routes : List CaddyRoute) :
    getUpstream (syncCdnToCaddy env b row routes) k = getUpstream routes k := by
  unfold syncCdnToCaddy
  split
  · rfl
  · split_ifs
    · exact getUpstream_putRoute_of_ne (id_staticRoute ..) hk routes
    · split
      · rfl
      · rw [getUpstream_syncDomains]
        exact getUpstream_putRoute_of_ne (id_appRoute ..) hk routes

theorem getUpstream_reconcile_of_ne (s : State) (appIds : List Nanoid)
    (hk : ∀ b : Nanoid, b.text ≠ k) :
    getUpstream (reconcileCaddyRoutes env s appIds) k = getUpstream s.routes k := by
  unfold reconcileCaddyRoutes
  generalize s.routes = routes
  induction appIds generalizing routes with
  | nil => rfl
  | cons b appIds ih =>
    rw [foldl_cons,ih]
    unfold reconcileApp
    split
    · rfl
    · next route hr =>
      obtain ⟨row,-,hroute⟩ := bind_eq_some_iff.mp hr
      exact getUpstream_putRoute_of_ne (reconciledRoute_spec env hroute).1 (hk b) routes

theorem getUpstream_step_of_ne (s : State) (ht : op.target = some b) (hk : b.text ≠ k) :
    getUpstream (step env s op).routes k = getUpstream s.routes k := by
  cases hbrow : s.apps b with
  | none => cases op <;> cases ht <;> simp only [step,hbrow]
  | some row =>
    cases op with cases ht <;> simp only [step,hbrow]
    | patchProtection =>
      split
      · exact getUpstream_syncProtection env _ _ _ _ _
      · rfl
    | switchContainer => exact getUpstream_putRoute_of_ne (id_appRoute ..) hk _
    | switchService =>
      split
      · rfl
      · exact getUpstream_putRoute_of_ne (id_appRoute ..) hk _
    | switchStatic =>
      split
      · rfl
      · exact getUpstream_putRoute_of_ne (id_staticRoute ..) hk _
    | syncCdn => exact getUpstream_syncCdn_of_ne env hk _ _

theorem getUpstream_step_domain (s : State) (op : Operation) (d : Domain) :
    getUpstream (step env s op).routes (domainRouteId d) =
      getUpstream s.routes (domainRouteId d) := by
  have hk : ∀ b : Nanoid, b.text ≠ domainRouteId d := fun b => (domainRouteId_ne d b).symm
  cases op with
  | reconcile appIds => exact getUpstream_reconcile_of_ne env s appIds hk
  | _ => exact getUpstream_step_of_ne env s rfl (hk _)

section Main

variable {s : State} {a : Nanoid} {row : AppRow}

theorem apps_step (hrow : s.apps a = some row) (op : Operation) :
    ∃ row', (step env s op).apps a = some row' := by
  have heffect := stepEffect env hrow op
  generalize writer env s a op = written at heffect
  cases heffect with
  | unwritten row' h _ _ _ | updated row' h _ _ _ _ _ _ _
  | overwritten row' h _ _ _ _ => exact ⟨row',h⟩

theorem truthy_ne (h : truthy text = some value) : value ≠ "" := by
  rintro rfl
  simp [truthy_eq_some h,truthy] at h

theorem upstream_reconciledRoute (h : reconciledRoute env a row = some route) :
    upstreamOf route = reconciledUpstream row := by
  unfold reconciledRoute at h
  unfold reconciledUpstream
  split at h
  · cases h
  · by_cases hstatic : row.isStatic = true
    · rw [if_pos hstatic] at h ⊢
      cases h
      exact upstreamOf_staticRoute env _ _ _ _ _
    · rw [if_neg hstatic] at h ⊢
      obtain ⟨host,hhost,rfl⟩ := map_eq_some_iff.mp h
      have hne : host ≠ "" := truthy_ne hhost
      rw [hhost,upstreamOf_appRoute env _ _ _ _ hne]
      rfl

theorem cdnUpstream_host (h : cdnUpstream a row routes = some u) : u.host ≠ "" := by
  rcases or_eq_some_iff.mp h with h | ⟨-,h⟩
  · exact host_ne_empty_of_getUpstream h
  · obtain ⟨host,hhost,rfl⟩ := map_eq_some_iff.mp h
    exact truthy_ne hhost

theorem getUpstream_syncCdn_self (row : AppRow) (routes : List CaddyRoute) :
    getUpstream (syncCdnToCaddy env a row routes) a.text = if (truthy row.domain).isSome then
        if row.isStatic then none else cdnUpstream a row routes
      else getUpstream routes a.text := by
  unfold syncCdnToCaddy
  cases hdomain : truthy row.domain with
  | none => rfl
  | some domain =>
    simp only [isSome_some,if_true]
    split_ifs
    · rw [upsertStaticRoute,getUpstream_putRoute_self (id_staticRoute ..), upstreamOf_staticRoute]
    · cases hu : cdnUpstream a row routes with
      | none => exact (or_eq_none_iff.mp hu).1
      | some u =>
        rw [getUpstream_syncDomains,setUpstream,upsertRoute,
          getUpstream_putRoute_self (id_appRoute ..),
          upstreamOf_appRoute env _ _ _ _ (cdnUpstream_host hu)]

theorem getUpstream_step (hrow : s.apps a = some row) (op : Operation) :
    getUpstream (step env s op).routes a.text =
      (redirects env s a op).getD (getUpstream s.routes a.text) := by
  simp only [redirects,hrow]
  cases op with
  | patchProtection b body salt =>
    simp only [step]
    split
    · rfl
    · split_ifs
      · exact getUpstream_syncProtection env _ _ _ _ _
      · rfl
  | switchContainer b name port =>
    by_cases hb : b = a
    · subst hb
      simp only [step,hrow,if_true,getD_some,setUpstream,upsertRoute]
      rw [getUpstream_putRoute_self (id_appRoute ..),upstreamOf_appRoute_named]
    · simp only [hb,if_false,getD_none]
      exact getUpstream_step_of_ne env s rfl (Nanoid.text_ne hb)
  | switchService b name port =>
    by_cases hb : b = a
    · subst hb
      simp only [step,hrow,true_and]
      cases truthy row.domain with
      | none => rfl
      | some domain =>
        simp only [isSome_some,if_true,getD_some,setUpstream,upsertRoute]
        rw [getUpstream_putRoute_self (id_appRoute ..),upstreamOf_appRoute_named]
    · simp only [hb,false_and,if_false,getD_none]
      exact getUpstream_step_of_ne env s rfl (Nanoid.text_ne hb)
  | switchStatic b =>
    by_cases hb : b = a
    · subst hb
      simp only [step,hrow,true_and]
      cases truthy row.domain with
      | none => rfl
      | some domain =>
        simp only [isSome_some,if_true,getD_some,upsertStaticRoute]
        rw [getUpstream_putRoute_self (id_staticRoute ..),upstreamOf_staticRoute]
    · simp only [hb,false_and,if_false,getD_none]
      exact getUpstream_step_of_ne env s rfl (Nanoid.text_ne hb)
  | syncCdn b cdn =>
    by_cases hb : b = a
    · subst hb
      simp only [step,hrow,getUpstream_syncCdn_self,true_and]
      split_ifs <;> rfl
    · simp only [hb,false_and,if_false,getD_none]
      exact getUpstream_step_of_ne env s rfl (Nanoid.text_ne hb)
  | reconcile appIds =>
    simp only [step]
    rw [getUpstream,findRoute_reconcile,hrow,bind_some]
    by_cases hmem : a ∈ appIds
    · cases hroute : reconciledRoute env a row with
      | none =>
        simp only [hmem,if_true,none_or,isSome_none,Bool.false_eq_true,and_false,
          if_false,getD_none]
        rfl
      | some route =>
        simp only [hmem,if_true,some_or,bind_some,isSome_some,and_self, getD_some]
        exact upstream_reconciledRoute env hroute
    · simp only [hmem,if_false,none_or,false_and,getD_none]
      rfl

theorem getUpstream_step_eq_iff (hrow : s.apps a = some row) (op : Operation) :
    getUpstream (step env s op).routes a.text = getUpstream s.routes a.text ↔ Stays env s a op := by
  rw [getUpstream_step env hrow]
  unfold Stays
  cases redirects env s a op with
  | none | some => simp

/-! ### Sequences of operations -/

theorem FollowsAlong.head (h : FollowsAlong env a ds s ops) : Follows a ds s := by
  cases ops with
  | nil => exact h
  | cons op ops => exact h.1

theorem followsAlong_nil (a : Nanoid) (s : State) (ops : List Operation) :
    FollowsAlong env a [] s ops := by
  have hnil : ∀ t, Follows a [] t := fun t d hd => by cases hd
  induction ops generalizing s with
  | nil => exact hnil s
  | cons op ops ih => exact ⟨hnil s,ih _⟩

theorem followsAlong_iff (hds : ds ≠ []) (hrow : s.apps a = some row) (hfollows : Follows a ds s)
    (ops : List Operation) : FollowsAlong env a ds s ops ↔ StaysAlong env a s ops := by
  induction ops generalizing s row with
  | nil => exact ⟨fun _ => trivial,fun _ => hfollows⟩
  | cons op ops ih =>
    obtain ⟨row',hrow'⟩ := apps_step env hrow op
    have hstep : Follows a ds (step env s op) ↔ Stays env s a op := by
      rw [← getUpstream_step_eq_iff env hrow]
      constructor
      · intro h
        obtain ⟨d,hd⟩ := exists_mem_of_ne_nil ds hds
        rw [← h d hd,getUpstream_step_domain,hfollows d hd]
      · intro h d hd
        rw [getUpstream_step_domain,hfollows d hd,h]
    constructor
    · rintro ⟨-,htail⟩
      have hnext : Follows a ds (step env s op) := htail.head
      exact ⟨hstep.mp hnext,(ih hrow' hnext).mp htail⟩
    · rintro ⟨hstay,htail⟩
      have hnext : Follows a ds (step env s op) := hstep.mpr hstay
      exact ⟨hfollows,(ih hrow' hnext).mpr htail⟩

theorem getUpstream_handleDomainVerify (hu : getUpstream s.routes a.text = some u)
    (requested : Domain → Bool) (d : Domain) (k : String) :
    getUpstream (handleDomainVerify env a requested s d).routes k =
      if k = domainRouteId d then some u else getUpstream s.routes k := by
  simp only [handleDomainVerify,hu,upsertRoute]
  by_cases hk : k = domainRouteId d
  · rw [if_pos hk,hk,getUpstream_putRoute_self (id_appRoute ..),
      upstreamOf_appRoute env _ _ _ _ (host_ne_empty_of_getUpstream hu)]
  · rw [if_neg hk]
    exact getUpstream_putRoute_of_ne (id_appRoute ..) (Ne.symm hk) _

theorem apps_handleDomainVerify (requested : Domain → Bool) (d : Domain) :
    (handleDomainVerify env a requested s d).apps = s.apps := by
  unfold handleDomainVerify
  split
  · rfl
  · rfl

theorem getUpstream_verifyAll (hu : getUpstream s.routes a.text = some u)
    (requested : Domain → Bool) (ds : List Domain) :
    (verifyAll env a requested s ds).apps = s.apps ∧
      getUpstream (verifyAll env a requested s ds).routes a.text = some u ∧
      ∀ d ∈ ds, getUpstream (verifyAll env a requested s ds).routes (domainRouteId d) = some u := by
  -- the domains are registered one after the other, so the list is taken apart at its end
  induction ds using reverseRecOn with
  | nil => exact ⟨rfl,hu,by simp⟩
  | append_singleton ds e ih =>
    obtain ⟨happs,hmain,hdomains⟩ := ih
    have hlast : verifyAll env a requested s (ds ++ [e]) =
        handleDomainVerify env a requested (verifyAll env a requested s ds) e := by
      simp [verifyAll]
    rw [hlast]
    refine ⟨?_,?_,?_⟩
    · rw [apps_handleDomainVerify,happs]
    · rw [getUpstream_handleDomainVerify env hmain,if_neg (domainRouteId_ne e a).symm,hmain]
    · intro d hd
      rw [getUpstream_handleDomainVerify env hmain]
      split_ifs with hk
      · rfl
      · rcases mem_append.mp hd with hd | hd
        · exact hdomains d hd
        · exact absurd (by rw [mem_singleton.mp hd]) hk

theorem follows_verifyAll (hu : getUpstream s.routes a.text = some u)
    (requested : Domain → Bool) (ds : List Domain) :
    Follows a ds (verifyAll env a requested s ds) := by
  obtain ⟨-,hmain,hdomains⟩ := getUpstream_verifyAll env hu requested ds
  intro d hd
  rw [hdomains d hd,hmain]

end Main

/-- The custom domains of an app dial what the app's route dials before and after every operation of
a sequence exactly when there are none, or no operation gives the app's route another upstream. -/
theorem domains_follow_iff (s : State) (a : Nanoid) (requested : Domain → Bool)
    (ds : List Domain) (ops : List Operation) (happ : (s.apps a).isSome)
    (hlive : (getUpstream s.routes a.text).isSome) :
    FollowsAlong env a ds (verifyAll env a requested s ds) ops ↔
      ds = [] ∨ StaysAlong env a (verifyAll env a requested s ds) ops := by
  obtain ⟨row,hrow⟩ := isSome_iff_exists.mp happ
  obtain ⟨u,hu⟩ := isSome_iff_exists.mp hlive
  by_cases hds : ds = []
  · subst hds
    simp only [true_or,iff_true]
    exact followsAlong_nil env a _ ops
  · simp only [hds,false_or]
    have happs := (getUpstream_verifyAll env hu requested ds).1
    exact followsAlong_iff env hds (by rw [happs]; exact hrow)
      (follows_verifyAll env hu requested ds) ops

namespace Shop

def shopDomain : Domain := ⟨⟨"8n0cQ2yPqk1sVJw7r3ZtL",by decide⟩,"shop.example.com"⟩

def verified : State :=
  verifyAll platform appId (fun _ => true) (runAll platform start [deploy]) [shopDomain]

end Shop

open Shop

/-- A protection update keeps the domain where the app is. -/
theorem domains_follow_shop : StaysAlong platform appId verified [protect] ∧
      FollowsAlong platform appId [shopDomain] verified [protect] := by
  have hstays : StaysAlong platform appId verified [protect] := by
    refine ⟨?_,trivial⟩
    intro up hup
    cases hup
  exact ⟨hstays,(domains_follow_iff platform (runAll platform start [deploy])
    appId (fun _ => true) [shopDomain] [protect] rfl rfl).mpr (.inr hstays)⟩

/-- After the next deploy the domain still dials the container that is stopped. -/
theorem redeploy_leaves_domain_behind :
    ¬ ∀ (env : Env) (s : State) (a : Nanoid) (requested : Domain → Bool) (ds : List Domain)
      (ops : List Operation), (s.apps a).isSome → (getUpstream s.routes a.text).isSome →
      FollowsAlong env a ds (verifyAll env a requested s ds) ops := by
  intro h
  have hfollows := (h platform (runAll platform start [deploy]) appId
    (fun _ => true) [shopDomain] [redeploy] rfl rfl).2
  have hsame := hfollows shopDomain (mem_singleton.mpr rfl)
  exact absurd hsame (by decide +kernel)

end Ploydok.Caddy
