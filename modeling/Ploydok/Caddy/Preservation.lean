import Ploydok.Caddy.Protection

/-! What a sequence of route writes leaves of the protection of an app: every writer but the
protection update drops the handlers. -/

namespace Ploydok.Caddy

open Data Text List

variable (env : Env)

/-! ### Carrying the protection -/

/-- The handlers that limit who is served: the rate limit, the password and the allowlist. -/
def isProtection : CaddyHandler → Bool
  | .rateLimit .. | .authentication .. => true
  | .subroute routes => routes.any fun r => r.matchers.any fun m => !m.remoteIp.isEmpty
  | _ => false

def isFileServer : CaddyHandler → Bool
  | .fileServer _ => true
  | _ => false

/-- The handlers that answer with content of the app. -/
def serves : CaddyHandler → Bool
  | .reverseProxy _ | .fileServer _ => true
  | .subroute routes => routes.any fun r => r.handle.any isFileServer
  | _ => false

/-- The protection handlers that the stored settings ask for. -/
def wanted (salt : String) (p : Protection) : List CaddyHandler :=
  protectionHandlers
    { basicAuth := p.credentials.map fun c => ⟨c.1,env.hashPassword salt c.2⟩
      ipAllowlist := p.ipAllowlist
      rateLimitRps := p.rateLimitRps }

/-- The wanted handlers, and no other protection, stand before the first handler that serves. -/
def Carries (p : Protection) (route : CaddyRoute) : Prop :=
  ∃ salt front back, route.handle = front ++ back ∧ front.filter isProtection = wanted env salt p ∧
    (∀ h ∈ front, serves h = false) ∧ ∀ h ∈ back, isProtection h = false

def Unprotected (route : CaddyRoute) : Prop := ∀ h ∈ route.handle, isProtection h = false

def Protection.AsksForNothing (p : Protection) : Prop :=
  p.rateLimitRps.getD 0 = 0 ∧ p.ipAllowlist.getD [] = [] ∧ p.credentials = none

instance (p : Protection) : Decidable p.AsksForNothing :=
  inferInstanceAs (Decidable (_ ∧ _ ∧ _))

theorem rateLimitHandlers_eq_nil_iff (rps : Option Nat) :
    rateLimitHandlers rps = [] ↔ rps.getD 0 = 0 := by
  cases rps with
  | none => simp [rateLimitHandlers]
  | some n =>
    rcases Nat.eq_zero_or_pos n with h | h
    · simp [rateLimitHandlers,h]
    · simp [rateLimitHandlers,h]
      omega

theorem ipAllowlistHandlers_eq_nil_iff (ranges : Option (List String)) :
    ipAllowlistHandlers ranges = [] ↔ ranges.getD [] = [] := by
  cases ranges with
  | none => simp [ipAllowlistHandlers]
  | some rs => cases rs <;> simp [ipAllowlistHandlers]

theorem wanted_eq_nil_iff (salt : String) (p : Protection) :
    wanted env salt p = [] ↔ p.AsksForNothing := by
  unfold wanted protectionHandlers Protection.AsksForNothing
  simp only [append_eq_nil_iff,rateLimitHandlers_eq_nil_iff,ipAllowlistHandlers_eq_nil_iff,
    and_assoc]
  cases p.credentials <;> simp [basicAuthHandlers]

variable {route : CaddyRoute}

/-- A route without protection is right for settings that ask for none. -/
theorem Unprotected.carries_iff (h : Unprotected route) (p : Protection) :
    Carries env p route ↔ p.AsksForNothing := by
  constructor
  · rintro ⟨salt,front,back,hhandle,hwanted,-,-⟩
    rw [← wanted_eq_nil_iff env salt p,← hwanted,filter_eq_nil_iff]
    intro x hx
    rw [h x (hhandle ▸ mem_append_left back hx)]
    exact Bool.false_ne_true
  · intro hp
    refine ⟨"",[],route.handle,rfl,?_,by simp,h⟩
    rw [(wanted_eq_nil_iff env "" p).mpr hp]
    rfl

/-! ### Handlers of written routes -/

theorem protectionHandlers_spec (m : CaddyMiddlewares) :
    ∀ h ∈ protectionHandlers m, isProtection h = true ∧ serves h = false ∧
      isReverseProxy h = false := by
  simp only [protectionHandlers,forall_mem_append]
  refine ⟨⟨?_,?_⟩,?_⟩
  · fun_cases rateLimitHandlers m.rateLimitRps
    · exact forall_mem_singleton.mpr ⟨rfl,rfl,rfl⟩
    · exact nofun
    · exact nofun
  · fun_cases ipAllowlistHandlers m.ipAllowlist
    · exact nofun
    · next hrs => exact forall_mem_singleton.mpr ⟨by simp [isProtection,hrs],rfl,rfl⟩
    · exact nofun
  · fun_cases basicAuthHandlers m.basicAuth
    · exact forall_mem_singleton.mpr ⟨rfl,rfl,rfl⟩
    · exact nofun

/-- A handler that neither protects nor serves. -/
def Inert (h : CaddyHandler) : Prop :=
  isProtection h = false ∧ serves h = false ∧ isReverseProxy h = false

theorem inert_pathScopedCache (config : CdnAppConfig) :
    Inert (buildPathScopedCacheHandler config) := by
  unfold buildPathScopedCacheHandler
  dsimp only
  split_ifs
  · exact ⟨rfl,rfl,rfl⟩
  · exact ⟨rfl,rfl,rfl⟩

theorem inert_cdnHandlers (config : CdnAppConfig) (staticRoot : Option String) :
    ∀ h ∈ cdnHandlers env.parse config staticRoot, Inert h := by
  have hguarded {p : Prop} [Decidable p] {x : CaddyHandler} (hx : Inert x) :
      ∀ h ∈ (if p then [x] else []), Inert h := by
    split_ifs
    · exact forall_mem_singleton.mpr hx
    · exact forall_mem_nil _
  have hheaders (set : List (String × String)) : Inert (.headers set) := ⟨rfl,rfl,rfl⟩
  unfold cdnHandlers
  cases parseHeaders env.parse config.cdnHeaders with
  | none | some set =>
    dsimp only
    split
    · exact forall_mem_nil _
    · simp [hheaders]
    · simp only [forall_mem_append]
      refine ⟨⟨⟨?_,hguarded ⟨rfl,rfl,rfl⟩⟩,hguarded (inert_pathScopedCache config)⟩,by simp [hheaders]⟩
      split
      · exact hguarded ⟨rfl,rfl,rfl⟩
      · exact forall_mem_nil _

/-- What stands between the protection and the proxy. -/
def CaddyMiddlewares.between (m : CaddyMiddlewares) (parse : String → Option Json) :
    List CaddyHandler :=
  (m.extraHandlers.getD []).map Subtype.val ++
    (m.cdn.map fun cdn => cdnHandlers parse cdn none).getD []

theorem inert_between {m : CaddyMiddlewares}
    (hextra : ∀ h ∈ m.extraHandlers.getD [], Inert h.val) : ∀ h ∈ m.between env.parse, Inert h := by
  intro h hh
  rcases mem_append.mp hh with hh | hh
  · obtain ⟨e,he,rfl⟩ := mem_map.mp hh
    exact hextra e he
  · cases hcdn : m.cdn with
    | none => simp [hcdn] at hh
    | some cdn => exact inert_cdnHandlers env cdn none h (by simpa [hcdn] using hh)

theorem inert_middlewaresOf (salt : String) (row : AppRow) :
    ∀ h ∈ (middlewaresOf env salt row).extraHandlers.getD [], Inert h.val := by
  intro h hh
  cases hrow : row.extraHandlers with
  | none => simp [middlewaresOf,hrow] at hh
  | some handlers =>
    simp only [middlewaresOf,hrow,Option.map_some,Option.getD_some,mem_map] at hh
    obtain ⟨e,-,rfl⟩ := hh
    exact ⟨rfl,rfl,rfl⟩

theorem isReverseProxy_front (m : CaddyMiddlewares) :
    ∀ h ∈ protectionHandlers m ++ m.between env.parse, isReverseProxy h = false := by
  intro h hh
  simp only [CaddyMiddlewares.between,mem_append] at hh
  rcases hh with hh | hh | hh
  · exact (protectionHandlers_spec m h hh).2.2
  · obtain ⟨e,-,rfl⟩ := mem_map.mp hh
    exact e.property
  · cases hcdn : m.cdn with
    | none => simp [hcdn] at hh
    | some cdn => exact (inert_cdnHandlers env cdn none h (by simpa [hcdn] using hh)).2.2

variable (host : String)

theorem appRoute_handle (upstream appId : String) (m : CaddyMiddlewares) :
    (appRoute env.parse host upstream appId m).handle =
      protectionHandlers m ++ m.between env.parse ++ [.reverseProxy [upstream]] := by
  have hfront := isReverseProxy_front env { m with cdn := none }
  cases hcdn : m.cdn with
  | none => simp [appRoute,hcdn,buildHandlers,CaddyMiddlewares.between]
  | some cdn =>
    simp only [appRoute,hcdn,buildHandlers]
    rw [applyCdnHandlers_append_proxy env.parse cdn _ _ _ fun h hh =>
      hfront h (by simpa [CaddyMiddlewares.between,protectionHandlers] using hh)]
    simp [CaddyMiddlewares.between,hcdn]

theorem id_appRoute (upstream appId : String) (m : CaddyMiddlewares) :
    (appRoute env.parse host upstream appId m).id = some (routeId appId) := by
  unfold appRoute
  cases m.cdn <;> simp [applyCdnHandlers]

theorem id_staticRoute (root appId : String) (spaFallback : Bool) (cdn : Option CdnAppConfig) :
    (staticRoute env.parse host root appId spaFallback cdn).id = some (routeId appId) := by
  unfold staticRoute
  cases cdn <;> simp [applyCdnHandlers]

/-- The protection update writes a route that carries the settings. -/
theorem carries_appRoute (upstream appId salt : String) (row : AppRow) : Carries env row.protection
      (appRoute env.parse host upstream appId (middlewaresOf env salt row)) := by
  have hhandle := appRoute_handle env host upstream appId (middlewaresOf env salt row)
  have hinert := inert_between env (inert_middlewaresOf env salt row)
  have hspec := protectionHandlers_spec (middlewaresOf env salt row)
  refine ⟨salt,_,[.reverseProxy [upstream]],hhandle,?_,?_,?_⟩
  · have hprot : (protectionHandlers (middlewaresOf env salt row)).filter isProtection =
        protectionHandlers (middlewaresOf env salt row) :=
      filter_eq_self.mpr fun h hh => (hspec h hh).1
    have hnone : ((middlewaresOf env salt row).between env.parse).filter isProtection = [] := by
      rw [filter_eq_nil_iff]
      intro h hh
      rw [(hinert h hh).1]
      exact Bool.false_ne_true
    rw [filter_append,hprot,hnone,append_nil]
    rfl
  · exact forall_mem_append.mpr
      ⟨fun h hh => (hspec h hh).2.1,fun h hh => (hinert h hh).2.1⟩
  · exact forall_mem_singleton.mpr rfl

/-- The writers that pass a CDN config only build a route without protection. -/
theorem unprotected_appRoute (upstream appId : String) (cdn : CdnAppConfig) :
    Unprotected (appRoute env.parse host upstream appId { cdn := some cdn }) := by
  have hhandle := appRoute_handle env host upstream appId { cdn := some cdn }
  have hinert := inert_between env (m := { cdn := some cdn }) (by simp)
  have hnone : protectionHandlers { cdn := some cdn } = [] := rfl
  rw [Unprotected,hhandle,hnone,nil_append,forall_mem_append]
  exact ⟨fun h hh => (hinert h hh).1,forall_mem_singleton.mpr rfl⟩

theorem handle_staticRoute (root appId : String) (spaFallback : Bool) (cdn : CdnAppConfig) :
    ∀ h ∈ (staticRoute env.parse host root appId spaFallback (some cdn)).handle,
      isProtection h = false ∧ isReverseProxy h = false := by
  have hstatic : ∀ h ∈ buildStaticHandlers root spaFallback,
      isProtection h = false ∧ isReverseProxy h = false := by
    unfold buildStaticHandlers
    split_ifs
    · exact forall_mem_singleton.mpr ⟨rfl,rfl⟩
    · exact forall_mem_singleton.mpr ⟨rfl,rfl⟩
  intro h hh
  simp only [staticRoute,applyCdnHandlers,CaddyRoute.handle_mk,CaddyRoute.handle_withHandle,
    mem_append] at hh
  rcases hh with (hh | hh) | hh
  · exact hstatic h (mem_of_mem_take hh)
  · have hinert := inert_cdnHandlers env cdn (some root) h hh
    exact ⟨hinert.1,hinert.2.2⟩
  · exact hstatic h (mem_of_mem_drop hh)

theorem unprotected_staticRoute (root appId : String) (spaFallback : Bool) (cdn : CdnAppConfig) :
    Unprotected (staticRoute env.parse host root appId spaFallback (some cdn)) :=
  fun h hh => (handle_staticRoute env host root appId spaFallback cdn h hh).1

theorem upstreamOf_appRoute_dial (dial appId : String) (m : CaddyMiddlewares) :
    upstreamOf (appRoute env.parse host dial appId m) = parseDial dial := by
  have hnone : (protectionHandlers m ++ m.between env.parse).find? isReverseProxy = none := by
    rw [find?_eq_none]
    intro h hh
    simp [isReverseProxy_front env m h hh]
  unfold upstreamOf
  rw [appRoute_handle,find?_append,hnone]
  rfl

theorem upstreamOf_appRoute (appId : String) (u : Upstream) (m : CaddyMiddlewares)
    (hu : u.host ≠ "") : upstreamOf (appRoute env.parse host u.dial appId m) = some u := by
  rw [upstreamOf_appRoute_dial,parseDial_dial u hu]

theorem findRoute_putRoute_self (h : route.id = some (routeId appId)) (routes : List CaddyRoute) :
    findRoute (putRoute route routes) appId = some route := by
  simp [findRoute,putRoute,Write.apply,h]

theorem findRoute_putRoute_of_ne (h : route.id = some (routeId other)) (hne : other ≠ appId)
    (routes : List CaddyRoute) :
    findRoute (putRoute route routes) appId = findRoute routes appId := by
  have hid : routeId other ≠ routeId appId := fun he => hne (routeId_injective he)
  have hput : putRoute route routes = route :: routes.filter fun y => y.id ≠ route.id := rfl
  unfold findRoute
  rw [hput,find?_cons_of_neg (by simp [h,hid]),find?_filter]
  congr 1
  funext r
  by_cases hr : r.id = some (routeId appId)
  · simp [hr,h,Ne.symm hid]
  · simp [hr]

theorem domainRouteId_ne (d : Domain) (appId : Nanoid) : domainRouteId d ≠ appId.text := by
  intro h
  have hl := congrArg String.length h
  rw [domainRouteId,String.length_append,d.id.length_eq,appId.length_eq] at hl
  revert hl
  decide

theorem findRoute_syncDomains (m : CaddyMiddlewares) (domains : List Domain)
    (routes : List CaddyRoute) (appId : Nanoid) :
    findRoute (syncDomains env m domains routes) appId.text = findRoute routes appId.text := by
  unfold syncDomains
  induction domains generalizing routes with
  | nil => rfl
  | cons d domains ih =>
    rw [foldl_cons,ih]
    split
    · rfl
    · exact findRoute_putRoute_of_ne (id_appRoute ..) (domainRouteId_ne d appId) routes

theorem Nanoid.text_ne {a b : Nanoid} (h : a ≠ b) : a.text ≠ b.text := by
  obtain ⟨t,ht⟩ := b
  rintro rfl
  exact h rfl

theorem reconciledRoute_spec {row : AppRow} (h : reconciledRoute env appId row = some route) :
    route.id = some (routeId appId.text) ∧ Unprotected route := by
  revert h
  fun_cases reconciledRoute env appId row
  · nofun
  · rintro ⟨⟩
    exact ⟨id_staticRoute ..,unprotected_staticRoute env _ _ _ _ _⟩
  · intro h
    obtain ⟨host,-,rfl⟩ := Option.map_eq_some_iff.mp h
    exact ⟨id_appRoute ..,unprotected_appRoute env _ _ _ _⟩

theorem findRoute_reconcileApp_self (s : State) (routes : List CaddyRoute) (a : Nanoid) :
    findRoute (reconcileApp env s routes a) a.text =
      ((s.apps a).bind (reconciledRoute env a)).or (findRoute routes a.text) := by
  unfold reconcileApp
  split
  · next hr => simp [hr]
  · next route hr =>
    obtain ⟨row,-,hroute⟩ := Option.bind_eq_some_iff.mp hr
    simp [hr,findRoute_putRoute_self (reconciledRoute_spec env hroute).1]

theorem findRoute_reconcileApp_of_ne (s : State) (routes : List CaddyRoute) {a b : Nanoid}
    (hab : b ≠ a) : findRoute (reconcileApp env s routes b) a.text = findRoute routes a.text := by
  unfold reconcileApp
  split
  · rfl
  · next route hr =>
    obtain ⟨row,-,hroute⟩ := Option.bind_eq_some_iff.mp hr
    exact findRoute_putRoute_of_ne (reconciledRoute_spec env hroute).1 (Nanoid.text_ne hab) routes

/-- The reconciler rewrites the routes of its apps and leaves the others. -/
theorem findRoute_reconcile (s : State) (appIds : List Nanoid) (a : Nanoid) :
    findRoute (reconcileCaddyRoutes env s appIds) a.text =
      (if a ∈ appIds then (s.apps a).bind (reconciledRoute env a) else none).or
        (findRoute s.routes a.text) := by
  unfold reconcileCaddyRoutes
  generalize s.routes = routes
  induction appIds generalizing routes with
  | nil => simp
  | cons b appIds ih =>
    rw [foldl_cons,ih]
    by_cases hab : b = a
    · subst hab
      rw [findRoute_reconcileApp_self]
      by_cases hmem : b ∈ appIds
      · cases (s.apps b).bind (reconciledRoute env b) <;> simp [hmem]
      · simp [hmem]
    · rw [findRoute_reconcileApp_of_ne env s routes hab]
      simp [Ne.symm hab]

/-! ### Who wrote last -/

/-- Who wrote the route of an app. -/
inductive Writer where
  | protectionUpdate
  | other
deriving DecidableEq

/-- The writer that an operation is for the app, if it writes its route at all. -/
def writer (s : State) (a : Nanoid) (op : Operation) : Option Writer :=
  match s.apps a with
  | none => none
  | some row =>
    let hasDomain := (truthy row.domain).isSome
    match op with
    | .patchProtection b body _ =>
      if b = a ∧ body.valid ∧ hasDomain ∧ (getUpstream s.routes a.text).isSome then
        some .protectionUpdate
      else none
    | .switchContainer b _ _ => if b = a then some .other else none
    | .switchService b _ _ | .switchStatic b => if b = a ∧ hasDomain then some .other else none
    | .syncCdn b _ =>
      if b = a ∧ hasDomain ∧ (row.isStatic ∨ (getUpstream s.routes a.text).isSome ∨
        (truthy row.containerId).isSome) then some .other
      else none
    | .reconcile appIds =>
      if a ∈ appIds ∧ (reconciledRoute env a row).isSome then some .other else none

def lastWriter (s : State) (a : Nanoid) : List Operation → Option Writer
  | [] => none
  | op :: ops => (lastWriter (step env s op) a ops).or (writer env s a op)

/-- What one operation can do to the row and to the route of an app, by its writer. -/
inductive StepEffect (s s' : State) (a : Nanoid) (row : AppRow) : Option Writer → Prop
  | unwritten (row' : AppRow) (hrow : s'.apps a = some row') (hdomain : row'.domain = row.domain)
      (hroute : findRoute s'.routes a.text = findRoute s.routes a.text)
      (hkept : row'.protection = row.protection ∨ truthy row.domain = none ∨
        getUpstream s.routes a.text = none) : StepEffect s s' a row none
  | updated (row' : AppRow) (hrow : s'.apps a = some row') (hdomain : row'.domain = row.domain)
      (salt host : String) (u : Upstream) (hu : u.host ≠ "") (hhost : truthy row.domain = some host)
      (hroute : findRoute s'.routes a.text =
        some (appRoute env.parse host u.dial a.text (middlewaresOf env salt row'))) :
      StepEffect s s' a row (some .protectionUpdate)
  | overwritten (row' : AppRow) (hrow : s'.apps a = some row') (hdomain : row'.domain = row.domain)
      (route : CaddyRoute) (hroute : findRoute s'.routes a.text = some route)
      (hun : Unprotected route) : StepEffect s s' a row (some .other)

section Effects

variable {s : State} {a : Nanoid} {row : AppRow} {routes : List CaddyRoute}

theorem setRow_apps_self (s : State) (a : Nanoid) (row : AppRow) (routes : List CaddyRoute) :
    State.apps { s.setRow a row with routes := routes } a = some row :=
  Function.update_self ..

attribute [local simp] writer

theorem stepEffect_same (hrow : s.apps a = some row) : StepEffect env s s a row none :=
  .unwritten row hrow rfl rfl (.inl rfl)

theorem stepEffect_of_writer {op : Operation} (hw : writer env s a op = w)
    (h : StepEffect env s s' a row w) :
    StepEffect env s s' a row (writer env s a op) := hw ▸ h

theorem findRoute_syncProtection_of_ne {b : Nanoid} (hb : b ≠ a) (salt : String) (row : AppRow)
    (routes : List CaddyRoute) :
    findRoute (syncProtectionToCaddy env salt b row routes) a.text = findRoute routes a.text := by
  unfold syncProtectionToCaddy
  split
  · rw [findRoute_syncDomains]
    exact findRoute_putRoute_of_ne (id_appRoute ..) (Nanoid.text_ne hb) routes
  · rfl

theorem stepEffect_patchProtection (hrow : s.apps a = some row) (body : ProtectionPatchBody)
    (salt : String) : StepEffect env s (step env s (.patchProtection a body salt)) a row
      (writer env s a (.patchProtection a body salt)) := by
  by_cases hv : body.valid = true
  · simp only [step,hrow,hv,↓reduceIte]
    cases hd : truthy row.domain with
    | none =>
      refine stepEffect_of_writer env (by simp [hrow,hd]) <|
          .unwritten _ (setRow_apps_self ..) rfl ?_ (.inr (.inl hd))
      simp [syncProtectionToCaddy,hd]
    | some host =>
      cases hu : getUpstream s.routes a.text with
      | none =>
        refine stepEffect_of_writer env (by simp [hrow,hu]) <|
            .unwritten _ (setRow_apps_self ..) rfl ?_ (.inr (.inr hu))
        simp [syncProtectionToCaddy,hu]
      | some u =>
        refine stepEffect_of_writer env (by simp [hrow,hv,hd,hu]) <|
            .updated _ (setRow_apps_self ..) rfl salt host u
          (host_ne_empty_of_getUpstream hu) hd ?_
        simp only [syncProtectionToCaddy,hu,hd,findRoute_syncDomains]
        exact findRoute_putRoute_self (id_appRoute ..) _
  · simp only [step,hrow,hv,Bool.false_eq_true,↓reduceIte]
    exact stepEffect_of_writer env (by simp [hrow,hv]) (stepEffect_same env hrow)

theorem stepEffect_switchContainer (hrow : s.apps a = some row) (name : String) (port : Nat) :
    StepEffect env s (step env s (.switchContainer a name port)) a row
      (writer env s a (.switchContainer a name port)) := by
  simp only [step,hrow]
  exact stepEffect_of_writer env (by simp [hrow]) <|
      .overwritten _ (setRow_apps_self ..) rfl _ (findRoute_putRoute_self (id_appRoute ..) _)
    (unprotected_appRoute env _ _ _ _)

theorem stepEffect_switch (hrow : s.apps a = some row)
    (hop : op = .switchStatic a ∨ ∃ serviceName port, op = .switchService a serviceName port) :
    StepEffect env s (step env s op) a row (writer env s a op) := by
  cases hd : truthy row.domain with
  | none =>
    have hw : writer env s a op = none := by
      rcases hop with rfl | ⟨serviceName,port,rfl⟩ <;> simp [hrow,hd]
    rw [hw]
    rcases hop with rfl | ⟨serviceName,port,rfl⟩ <;> simp only [step,hrow,hd] <;>
      exact .unwritten _ (setRow_apps_self ..) rfl rfl (.inl rfl)
  | some host =>
    have hw : writer env s a op = some .other := by
      rcases hop with rfl | ⟨serviceName,port,rfl⟩ <;> simp [hrow,hd]
    rw [hw]
    rcases hop with rfl | ⟨serviceName,port,rfl⟩ <;> simp only [step,hrow,hd]
    · exact .overwritten _ (setRow_apps_self ..) rfl _
        (findRoute_putRoute_self (id_staticRoute ..) _) (unprotected_staticRoute env _ _ _ _ _)
    · exact .overwritten _ (setRow_apps_self ..) rfl _
        (findRoute_putRoute_self (id_appRoute ..) _) (unprotected_appRoute env _ _ _ _)

theorem findRoute_syncCdn_of_ne {b : Nanoid} (hb : b ≠ a) (row : AppRow)
    (routes : List CaddyRoute) :
    findRoute (syncCdnToCaddy env b row routes) a.text = findRoute routes a.text := by
  unfold syncCdnToCaddy
  split
  · rfl
  · split
    · exact findRoute_putRoute_of_ne (id_staticRoute ..) (Nanoid.text_ne hb) routes
    · split
      · rfl
      · rw [findRoute_syncDomains]
        exact findRoute_putRoute_of_ne (id_appRoute ..) (Nanoid.text_ne hb) routes

theorem findRoute_syncCdn_static {host : String} (hd : truthy row.domain = some host)
    (hs : row.isStatic = true) (routes : List CaddyRoute) :
    findRoute (syncCdnToCaddy env a row routes) a.text =
      some (staticRoute env.parse host (caddyStaticRootForApp env a) a.text row.staticSpaFallback
        (some row.cdn)) := by
  simp only [syncCdnToCaddy,hd,hs,↓reduceIte]
  exact findRoute_putRoute_self (id_staticRoute ..) _

theorem findRoute_syncCdn_proxied {host : String} (hd : truthy row.domain = some host)
    (hs : row.isStatic = false) (hu : cdnUpstream a row routes = some u) :
    findRoute (syncCdnToCaddy env a row routes) a.text =
      some (appRoute env.parse host u.dial a.text { cdn := some row.cdn }) := by
  simp only [syncCdnToCaddy,hd,hs,Bool.false_eq_true,↓reduceIte,hu,findRoute_syncDomains]
  exact findRoute_putRoute_self (id_appRoute ..) _

theorem syncCdn_unwritten
    (h : truthy row.domain = none ∨ row.isStatic = false ∧ cdnUpstream a row routes = none) :
    syncCdnToCaddy env a row routes = routes := by
  rcases h with hd | ⟨hs,hu⟩
  · simp only [syncCdnToCaddy,hd]
  · cases hd : truthy row.domain with
    | none => simp only [syncCdnToCaddy,hd]
    | some host =>
      simp [syncCdnToCaddy,hd,hs,hu]

theorem stepEffect_syncCdn (hrow : s.apps a = some row) (cdn : CdnAppConfig) :
    StepEffect env s (step env s (.syncCdn a cdn)) a row (writer env s a (.syncCdn a cdn)) := by
  obtain ⟨row',hrow'⟩ : ∃ r : AppRow, { row with cdn := cdn } = r := ⟨_,rfl⟩
  have hup : cdnUpstream a row' s.routes = cdnUpstream a row s.routes := by
    rw [← hrow']
    rfl
  simp only [step,hrow,hrow']
  have hdomain : row'.domain = row.domain := by rw [← hrow']
  have hstatic : row'.isStatic = row.isStatic := by rw [← hrow']
  have hprot : row'.protection = row.protection := by rw [← hrow']
  cases hd : truthy row.domain with
  | none =>
    refine stepEffect_of_writer env (by simp [hrow,hd]) <|
        .unwritten _ (setRow_apps_self ..) hdomain ?_ (.inl hprot)
    exact congrArg (findRoute · a.text) (syncCdn_unwritten env (.inl (hdomain ▸ hd)))
  | some host =>
    rcases Bool.eq_false_or_eq_true row.isStatic with hs | hs
    · exact stepEffect_of_writer env (by simp [hrow,hd,hs]) <|
        .overwritten _ (setRow_apps_self ..) hdomain _
        (findRoute_syncCdn_static env (hdomain ▸ hd) (hstatic.trans hs) _)
        (unprotected_staticRoute env _ _ _ _ _)
    · cases hu : cdnUpstream a row s.routes with
      | none =>
        have hnone : getUpstream s.routes a.text = none ∧ truthy row.containerId = none := by
          simpa [cdnUpstream] using hu
        refine stepEffect_of_writer env (by simp [hrow,hs,hnone]) <|
            .unwritten _ (setRow_apps_self ..) hdomain ?_ (.inl hprot)
        exact congrArg (findRoute · a.text)
          (syncCdn_unwritten env (.inr ⟨hstatic.trans hs,hup.trans hu⟩))
      | some u =>
        have hor : (getUpstream s.routes a.text).isSome ∨ (truthy row.containerId).isSome := by
          have := congrArg Option.isSome hu
          simpa [cdnUpstream] using this
        exact stepEffect_of_writer env (by simp [hrow,hd,hor]) <|
            .overwritten _ (setRow_apps_self ..) hdomain _
          (findRoute_syncCdn_proxied env (hdomain ▸ hd) (hstatic.trans hs) (hup.trans hu))
          (unprotected_appRoute env _ _ _ _)

def Operation.target : Operation → Option Nanoid
  | .patchProtection b _ _ | .switchContainer b _ _ | .switchService b _ _ | .switchStatic b
  | .syncCdn b _ => some b
  | .reconcile _ => none

theorem stepEffect_of_target_ne (hrow : s.apps a = some row) {op : Operation} {b : Nanoid}
    (ht : op.target = some b) (hb : b ≠ a) :
    StepEffect env s (step env s op) a row (writer env s a op) := by
  have hw : writer env s a op = none := by
    cases op <;> cases ht <;> simp [hrow,hb]
  rw [hw]
  have hput {route : CaddyRoute} (hid : route.id = some (routeId b.text)) :
      findRoute (putRoute route s.routes) a.text = findRoute s.routes a.text :=
    findRoute_putRoute_of_ne hid (Nanoid.text_ne hb) _
  have hset (row' : AppRow) {routes : List CaddyRoute}
      (hroutes : findRoute routes a.text = findRoute s.routes a.text) :
      StepEffect env s { s.setRow b row' with routes := routes } a row none :=
    .unwritten row (by simp [State.setRow,Ne.symm hb,hrow]) rfl hroutes (.inl rfl)
  cases hbrow : s.apps b with
  | none =>
    have hstep : step env s op = s := by cases op <;> cases ht <;> simp [step,hbrow]
    rw [hstep]
    exact stepEffect_same env hrow
  | some rowb =>
    clear hw
    cases op with cases ht <;> simp only [step,hbrow]
    | patchProtection =>
      split
      · exact hset _ (findRoute_syncProtection_of_ne env hb _ _ _)
      · exact stepEffect_same env hrow
    | switchContainer => exact hset _ (hput (id_appRoute ..))
    | syncCdn => exact hset _ (findRoute_syncCdn_of_ne env hb _ _)
    | switchService =>
      refine hset _ ?_
      split
      · rfl
      · exact hput (id_appRoute ..)
    | switchStatic =>
      refine hset _ ?_
      split
      · rfl
      · exact hput (id_staticRoute ..)

theorem stepEffect_reconcile (hrow : s.apps a = some row) (appIds : List Nanoid) :
    StepEffect env s (step env s (.reconcile appIds)) a row
      (writer env s a (.reconcile appIds)) := by
  by_cases hmem : a ∈ appIds
  · cases hr : reconciledRoute env a row with
    | none =>
      refine stepEffect_of_writer env (by simp [hrow,hr]) <| .unwritten row hrow rfl ?_ (.inl rfl)
      simp [step,findRoute_reconcile,hrow,hr]
    | some route =>
      refine stepEffect_of_writer env (by simp [hrow,hr,hmem]) <|
          .overwritten row hrow rfl route ?_ (reconciledRoute_spec env hr).2
      simp [step,findRoute_reconcile,hrow,hr,hmem]
  · refine stepEffect_of_writer env (by simp [hrow,hmem]) <| .unwritten row hrow rfl ?_ (.inl rfl)
    simp [step,findRoute_reconcile,hmem]

/-- Every operation has the effect of its writer. -/
theorem stepEffect (hrow : s.apps a = some row) (op : Operation) :
    StepEffect env s (step env s op) a row (writer env s a op) := by
  by_cases ht : ∃ b, op.target = some b ∧ b ≠ a
  · obtain ⟨b,ht,hb⟩ := ht
    exact stepEffect_of_target_ne env hrow ht hb
  · have hself : ∀ b, op.target = some b → b = a := by simpa using ht
    cases op with
    | patchProtection b => exact hself b rfl ▸ stepEffect_patchProtection env hrow _ _
    | switchContainer b => exact hself b rfl ▸ stepEffect_switchContainer env hrow _ _
    | switchService b => exact stepEffect_switch env hrow (.inr ⟨_,_,by rw [hself b rfl]⟩)
    | switchStatic b => exact stepEffect_switch env hrow (.inl (by rw [hself b rfl]))
    | syncCdn b => exact hself b rfl ▸ stepEffect_syncCdn env hrow _
    | reconcile appIds => exact stepEffect_reconcile env hrow appIds

end Effects

/-- What is known of the route from its last writer. -/
def RouteInv (a : Nanoid) (s : State) (row : AppRow) : Option Writer → Prop
  | none => findRoute s.routes a.text = none
  | some .protectionUpdate => (truthy row.domain).isSome ∧ ∃ route,
      findRoute s.routes a.text = some route ∧ Carries env row.protection route ∧
        (upstreamOf route).isSome
  | some .other => ∃ route, findRoute s.routes a.text = some route ∧ Unprotected route

/-- One operation keeps the invariant, with the writer it is. -/
theorem routeInv_step {a : Nanoid} (hrow : s.apps a = some row) (h : RouteInv env a s row w)
    (op : Operation) :
    ∃ row', (step env s op).apps a = some row' ∧
      RouteInv env a (step env s op) row' ((writer env s a op).or w) := by
  have heffect := stepEffect env hrow op
  generalize writer env s a op = written at heffect ⊢
  cases heffect with
  | unwritten row' hrow' hdomain hroute hkept =>
    refine ⟨row',hrow',?_⟩
    match w with
    | none => exact hroute.trans h
    | some .other =>
      obtain ⟨route,hfind,hun⟩ := h
      exact ⟨route,hroute.trans hfind,hun⟩
    | some .protectionUpdate =>
      obtain ⟨hd,route,hfind,hcarries,hup⟩ := h
      -- a further update would have found the domain and the upstream
      have hprot : row'.protection = row.protection := by
        rcases hkept with hk | hk | hk
        · exact hk
        · rw [hk] at hd
          cases hd
        · unfold getUpstream at hk
          rw [hfind,Option.bind_some] at hk
          rw [hk] at hup
          cases hup
      exact ⟨hdomain ▸ hd,route,hroute.trans hfind,hprot ▸ hcarries,hup⟩
  | updated row' hrow' hdomain salt host u hu hhost hroute =>
    refine ⟨row',hrow',?_,_,hroute,carries_appRoute env host u.dial a.text salt row',?_⟩
    · rw [hdomain,hhost]
      rfl
    · rw [upstreamOf_appRoute env host a.text u _ hu]
      rfl
  | overwritten row' hrow' hdomain route hroute hun =>
    exact ⟨row',hrow',route,hroute,hun⟩

/-- So does a run, with its last writer. -/
theorem routeInv_runAll {a : Nanoid} (hrow : s.apps a = some row) (h : RouteInv env a s row w)
    (ops : List Operation) :
    ∃ row', (runAll env s ops).apps a = some row' ∧
      RouteInv env a (runAll env s ops) row' ((lastWriter env s a ops).or w) := by
  induction ops generalizing s row w with
  | nil => exact ⟨row,hrow,h⟩
  | cons op ops ih =>
    obtain ⟨row1,hrow1,h1⟩ := routeInv_step env hrow h op
    obtain ⟨row2,hrow2,h2⟩ := ih hrow1 h1
    refine ⟨row2,hrow2,?_⟩
    rwa [lastWriter,Option.or_assoc]

/-- After any sequence of operations, the route carries the protection of the stored settings
exactly when no operation has written it, the last one that has was a protection update, or the
settings ask for nothing. -/
theorem carries_protection_iff (s : State) (a : Nanoid) (ops : List Operation) (row : AppRow)
    (hnew : findRoute s.routes a.text = none) (happ : (s.apps a).isSome)
    (hrow : (runAll env s ops).apps a = some row) :
    (∀ route, findRoute (runAll env s ops).routes a.text = some route →
      Carries env row.protection route) ↔
    lastWriter env s a ops = none ∨ lastWriter env s a ops = some .protectionUpdate ∨
      row.protection.AsksForNothing := by
  obtain ⟨row0,hrow0⟩ := Option.isSome_iff_exists.mp happ
  obtain ⟨row',hrow',hinv⟩ := routeInv_runAll env hrow0 (w := none) hnew ops
  obtain rfl : row = row' := Option.some.inj (hrow.symm.trans hrow')
  match hw : lastWriter env s a ops with
  | none =>
    rw [hw] at hinv
    simp only [true_or,iff_true]
    intro route hroute
    rw [hinv] at hroute
    cases hroute
  | some .protectionUpdate =>
    rw [hw] at hinv
    obtain ⟨-,route,hfind,hcarries,-⟩ := hinv
    simp only [reduceCtorEq,true_or,or_true,iff_true]
    intro route' hroute'
    obtain rfl : route = route' := Option.some.inj (hfind.symm.trans hroute')
    exact hcarries
  | some .other =>
    rw [hw] at hinv
    obtain ⟨route,hfind,hun⟩ := hinv
    simp only [reduceCtorEq,Option.some.injEq,false_or]
    rw [← hun.carries_iff env row.protection]
    constructor
    · intro h
      exact h route hfind
    · intro h route' hroute'
      obtain rfl : route = route' := Option.some.inj (hfind.symm.trans hroute')
      exact h

namespace Shop

def appId : Nanoid := ⟨"V1StGXR8_Z5jdHi6B-myT",by decide⟩

def row : AppRow where
  domain := some "shop.ploydok.local"
  isStatic := false
  staticSpaFallback := true
  isSwarm := false
  swarmServiceName := none
  containerId := none
  runtimePort := some 3000
  healthcheckPort := none
  cdn := ⟨.off,none,none,none,none,none⟩
  protection := ⟨false,none,none,none,none⟩
  extraHandlers := none
  domains := []

def start : State := ⟨fun id => if id = appId then some row else none,[]⟩

def platform : Env := ⟨fun _ => none,fun _ pass => pass,"/srv/static"⟩

def limits : ProtectionPatchBody := ⟨none,some ["10.0.0.0/8"],some (some 5)⟩

def deploy : Operation := .switchContainer appId "ploydok-app-shop-v1stgxr8-blue" 3000

def redeploy : Operation := .switchContainer appId "ploydok-app-shop-v1stgxr8-green" 3000

def protect : Operation := .patchProtection appId limits "salt"

def protectedRow : AppRow :=
  { row with
    containerId := some "ploydok-app-shop-v1stgxr8-green"
    protection := ⟨false,none,none,some ["10.0.0.0/8"],some 5⟩ }

end Shop

open Shop

/-- A protection update after the last deploy stands. -/
theorem carries_protection_shop : lastWriter platform start appId [deploy, redeploy, protect] =
        some .protectionUpdate ∧
      ∀ route, findRoute (runAll platform start
        [deploy, redeploy, protect]).routes appId.text = some route →
        Carries platform protectedRow.protection route := by
  have hlast : lastWriter platform start appId
      [deploy, redeploy, protect] = some .protectionUpdate := by
    decide +kernel
  exact ⟨hlast,(carries_protection_iff platform start appId
    [deploy, redeploy, protect] protectedRow rfl rfl rfl).mpr
    (.inr (.inl hlast))⟩

/-- A deploy after a protection update drops the limits that are still stored. -/
theorem redeploy_drops_protection :
    ¬ ∀ (env : Env) (s : State) (a : Nanoid) (ops : List Operation) (row : AppRow),
      findRoute s.routes a.text = none → (s.apps a).isSome →
      (runAll env s ops).apps a = some row →
      ∀ route, findRoute (runAll env s ops).routes a.text = some route →
        Carries env row.protection route := by
  intro h
  have hroute : findRoute (runAll platform start [deploy, protect, redeploy]).routes appId.text =
      some (appRoute platform.parse "shop.ploydok.local" "ploydok-app-shop-v1stgxr8-green:3000"
        appId.text { cdn := some row.cdn }) := by
    rfl
  have hcarries := h platform start appId [deploy, protect, redeploy]
    protectedRow rfl rfl rfl _ hroute
  rw [(unprotected_appRoute platform _ _ _ _).carries_iff] at hcarries
  exact absurd hcarries (by decide)

end Ploydok.Caddy
