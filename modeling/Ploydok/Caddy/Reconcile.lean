import Ploydok.Caddy.Preservation

/-! What a write of one route, and a pass over all apps, leave of the route list. A write puts one
route under its id in front; a pass puts those of the apps with something to serve in front, in
reverse order. -/

namespace Ploydok.Caddy

open Data Text

variable (env : Env)

/-- `after` holds one route of the app, to `u` behind the handlers of `m`, and the other `routes`.
-/
structure RoundTrips (routes after : List CaddyRoute) (appId : String) (u : Upstream)
    (m : CaddyMiddlewares) : Prop where
  upstream : getUpstream after appId = some u
  route : ∃ route, recordsAt CaddyRoute.id (routeId appId) after = [route] ∧
    ∃ between, (∀ h ∈ between, isReverseProxy h = false) ∧
      route.handle = rateLimitHandlers m.rateLimitRps ++ ipAllowlistHandlers m.ipAllowlist ++
        basicAuthHandlers m.basicAuth ++ between ++ [.reverseProxy [u.dial]]
  others : (after.filter fun r => r.id ≠ some (routeId appId)) =
    routes.filter fun r => r.id ≠ some (routeId appId)

theorem roundTrips_upsertRoute (routes : List CaddyRoute) (host appId : String) (hu : u.host ≠ "")
    (m : CaddyMiddlewares) :
    RoundTrips routes (upsertRoute env host u.dial appId m routes) appId u m where
  upstream := by
    rw [getUpstream,upsertRoute,findRoute_putRoute_self (id_appRoute ..)]
    exact upstreamOf_appRoute env host appId u m hu
  route := ⟨_,recordsAt_apply_put _ (id_appRoute ..) routes,m.between env.parse,
    fun h hh => isReverseProxy_front env m h (List.mem_append_right _ hh),appRoute_handle ..⟩
  others := by
    simp [upsertRoute,putRoute,Write.apply,id_appRoute]

/-- Both ways of writing a route read back as the upstream, behind the protection that was asked
for, and leave all other routes as they are. -/
theorem upstream_round_trip (routes : List CaddyRoute) (host appId : String) (u : Upstream)
    (hu : u.host ≠ "") (m : CaddyMiddlewares) (cdn : CdnAppConfig) :
    RoundTrips routes (upsertRoute env host u.dial appId m routes) appId u m ∧
      RoundTrips routes (setUpstream env appId host u cdn routes) appId u { cdn := some cdn } :=
  ⟨roundTrips_upsertRoute env routes host appId hu m,
    roundTrips_upsertRoute env routes host appId hu _⟩

namespace Shop

def blogId : Nanoid := ⟨"V1StGXR8_Z5jdHi6B-myB",by decide⟩

/-- Two old routes of the shop around one that belongs to no app. -/
def crowded : List CaddyRoute :=
  let old := .mk (some (routeId "shop")) [] [.reverseProxy ["gone:80"]] none
  [old, .mk (some "ploydok-registry") [] [] none, old]

def limited : CaddyMiddlewares := { rateLimitRps := some 5, ipAllowlist := some ["10.0.0.0/8"] }

end Shop

theorem upstream_round_trip_shop :
    RoundTrips Shop.crowded (upsertRoute Shop.platform "shop.test" "web:80" "shop" Shop.limited
        Shop.crowded) "shop" ⟨"web",80⟩ Shop.limited ∧
      RoundTrips Shop.crowded (setUpstream Shop.platform "shop" "shop.test" ⟨"web",80⟩ Shop.row.cdn
        Shop.crowded) "shop" ⟨"web",80⟩ { cdn := some Shop.row.cdn } :=
  upstream_round_trip Shop.platform Shop.crowded "shop.test" "shop" ⟨"web",80⟩ (by decide)
    Shop.limited Shop.row.cdn

/-! ### A pass over all apps -/

def AppRow.hasTarget (row : AppRow) : Bool :=
  (truthy row.domain).isSome && (row.isStatic ||
    (truthy (if row.isSwarm then row.swarmServiceName else row.containerId)).isSome)

theorem isSome_reconciledRoute (appId : Nanoid) (row : AppRow) :
    (reconciledRoute env appId row).isSome = row.hasTarget := by
  unfold reconciledRoute AppRow.hasTarget
  cases truthy row.domain <;> cases row.isStatic <;> simp

def targets (s : State) (appIds : List Nanoid) : List Nanoid :=
  appIds.filter fun appId => (s.apps appId).any AppRow.hasTarget

def State.reconciled (s : State) (appId : Nanoid) : Option CaddyRoute :=
  (s.apps appId).bind (reconciledRoute env appId)

variable {s : State} {appIds : List Nanoid}

theorem State.id_of_reconciled (h : s.reconciled env appId = some route) :
    route.id = some (routeId appId.text) := by
  obtain ⟨row,-,hroute⟩ := Option.bind_eq_some_iff.mp h
  exact (reconciledRoute_spec env hroute).1

theorem mem_targets_iff :
    appId ∈ targets s appIds ↔ appId ∈ appIds ∧ ∃ route, s.reconciled env appId = some route := by
  rw [targets,List.mem_filter,← Option.isSome_iff_exists,State.reconciled]
  cases s.apps appId <;> simp [isSome_reconciledRoute env]

theorem reconcileCaddyRoutes_eq_applyAll (s : State) (appIds : List Nanoid) :
    reconcileCaddyRoutes env s appIds =
      applyAll CaddyRoute.id ((appIds.filterMap (s.reconciled env)).map Write.put) s.routes := by
  unfold reconcileCaddyRoutes
  generalize s.routes = routes
  induction appIds generalizing routes with
  | nil => rfl
  | cons appId appIds ih =>
    rw [List.foldl_cons,ih]
    unfold reconcileApp
    cases h : s.reconciled env appId with
    | none =>
      have h' : (s.apps appId).bind (reconciledRoute env appId) = none := h
      simp [h,h']
    | some route =>
      have h' : (s.apps appId).bind (reconciledRoute env appId) = some route := h
      simp [h,h',applyAll,putRoute]

theorem pairwise_reconciled (hnodup : appIds.Nodup) :
    (appIds.filterMap (s.reconciled env)).Pairwise fun r r' => r.id ≠ r'.id := by
  refine List.Pairwise.filterMap _ ?_ hnodup
  intro a b hab r hr r' hr' heq
  rw [State.id_of_reconciled env hr,State.id_of_reconciled env hr',Option.some_inj] at heq
  exact Nanoid.text_ne hab (routeId_injective heq)

/-- After a pass each app with something to serve has one route and the routes of all others are as
before; a second pass changes nothing. -/
theorem reconcileCaddyRoutes_converges (hnodup : appIds.Nodup) : (∀ appId ∈ targets s appIds,
      (recordsAt CaddyRoute.id (routeId appId.text) (reconcileCaddyRoutes env s appIds)).length = 1) ∧
    ((reconcileCaddyRoutes env s appIds).filter fun r =>
        ∀ appId ∈ targets s appIds, r.id ≠ some (routeId appId.text)) =
      (s.routes.filter fun r => ∀ appId ∈ targets s appIds, r.id ≠ some (routeId appId.text)) ∧
    reconcileCaddyRoutes env { s with routes := reconcileCaddyRoutes env s appIds } appIds =
      reconcileCaddyRoutes env s appIds := by
  have hkeys := pairwise_reconciled env (s := s) hnodup
  simp only [reconcileCaddyRoutes_eq_applyAll]
  refine ⟨?_,?_,applyAll_puts_idem _ hkeys _⟩
  · intro appId hmem
    obtain ⟨hid,route,hroute⟩ := (mem_targets_iff env).mp hmem
    rw [recordsAt_puts _ hkeys (List.mem_filterMap.mpr ⟨appId,hid,hroute⟩)
      (State.id_of_reconciled env hroute)]
    rfl
  · apply filter_applyAll
    intro w hw r hr
    obtain ⟨route,hroute,rfl⟩ := List.mem_map.mp hw
    obtain ⟨appId,hid,happ⟩ := List.mem_filterMap.mp hroute
    rw [Write.target,State.id_of_reconciled env happ]
    exact of_decide_eq_true hr appId ((mem_targets_iff env).mpr ⟨hid,route,happ⟩)

namespace Shop

/-- Both apps run; the shop has two routes already. -/
def busy : State :=
  ⟨fun _ => some { row with containerId := some "web" },
    .mk (some (routeId appId.text)) [] [] none :: .mk (some (routeId appId.text)) [] [] none ::
      crowded⟩

def reconciled : List CaddyRoute := reconcileCaddyRoutes platform busy [appId, blogId]

end Shop

theorem reconcileCaddyRoutes_converges_shop : Shop.reconciled.map CaddyRoute.id =
      [some (routeId Shop.blogId.text), some (routeId Shop.appId.text), some (routeId "shop"),
        some "ploydok-registry", some (routeId "shop")] ∧
    (recordsAt CaddyRoute.id (routeId Shop.appId.text) Shop.reconciled).length = 1 ∧
    reconcileCaddyRoutes Shop.platform { Shop.busy with routes := Shop.reconciled }
      [Shop.appId, Shop.blogId] = Shop.reconciled := by
  obtain ⟨hone,-,hagain⟩ := reconcileCaddyRoutes_converges Shop.platform (s := Shop.busy)
    (show [Shop.appId, Shop.blogId].Nodup by decide)
  exact ⟨by decide +kernel,hone Shop.appId (by decide),hagain⟩

end Ploydok.Caddy
