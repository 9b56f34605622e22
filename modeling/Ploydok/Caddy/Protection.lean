import Ploydok.Caddy.Route
import Ploydok.Columns
import Ploydok.Data.Keyed

/-! Who writes the route of an app: `routes/apps-protection.ts`, `routes/apps-cdn.ts`,
`caddy/reconciler.ts` and the upstream switches of `worker/runner.ts`, `worker/swarm-runner.ts` and
`worker/handlers/deploy.ts`. Each rebuilds the whole route, but only the first with the stored
protection. -/

namespace Ploydok.Caddy

open Data Text

/-- An id as `nanoid()` makes it. -/
structure Nanoid where
  text : String
  length_eq : text.length = 21
deriving DecidableEq

structure Domain where
  id : Nanoid
  hostname : String

/-- The protection columns; stored credentials are given decrypted. -/
structure Protection where
  basicAuthEnabled : Bool
  (basicAuthUser basicAuthPass : Option String)
  ipAllowlist : Option (List String)
  rateLimitRps : Option Nat

structure AppRow where
  domain : Option String
  (isStatic staticSpaFallback isSwarm : Bool)
  (swarmServiceName containerId : Option String)
  (runtimePort healthcheckPort : Option Nat)
  cdn : CdnAppConfig
  protection : Protection
  extraHandlers : Option (List ExtraHandler)
  domains : List Domain

structure State where
  apps : Nanoid → Option AppRow
  routes : List CaddyRoute

structure Env where
  /-- `JSON.parse` on the stored header settings. -/
  parse : String → Option Json
  /-- bcrypt under a salt. -/
  hashPassword : String → String → String
  caddyStaticRoot : String

variable (env : Env)

def caddyStaticRootForApp (appId : Nanoid) : String :=
  env.caddyStaticRoot ++ "/" ++ appId.text ++ "/current"

def domainRouteId (d : Domain) : String := "domain-" ++ d.id.text

def putRoute (route : CaddyRoute) (routes : List CaddyRoute) : List CaddyRoute :=
  (Write.put route : Write CaddyRoute String).apply CaddyRoute.id routes

def upsertRoute (host upstream appId : String) (m : CaddyMiddlewares) :
    List CaddyRoute → List CaddyRoute :=
  putRoute (appRoute env.parse host upstream appId m)

def setUpstream (appId host : String) (u : Upstream) (cdn : CdnAppConfig) :
    List CaddyRoute → List CaddyRoute :=
  upsertRoute env host u.dial appId { cdn := some cdn }

def upsertStaticRoute (host root appId : String) (spaFallback : Bool) (cdn : CdnAppConfig) :
    List CaddyRoute → List CaddyRoute :=
  putRoute (staticRoute env.parse host root appId spaFallback (some cdn))

/-- The routes of the custom domains that have an upstream, rewritten with `m`. -/
def syncDomains (m : CaddyMiddlewares) (domains : List Domain) (routes : List CaddyRoute) :
    List CaddyRoute :=
  domains.foldl (fun routes d =>
    match getUpstream routes (domainRouteId d) with
    | none => routes
    | some u => upsertRoute env d.hostname u.dial (domainRouteId d) m routes) routes

/-! ### Protection updates -/

structure BasicAuthBody where
  enabled : Bool
  (user pass : Option String)

/-- `ProtectionPatchBody`; an inner `none` of the rate limit is an explicit null. -/
structure ProtectionPatchBody where
  basicAuth : Option BasicAuthBody
  ipAllowlist : Option (List String)
  rateLimitRps : Option (Option Int)

def validCredential (s : Option String) : Bool :=
  match s with
  | none => true
  | some text => 1 ≤ jsLength text && jsLength text ≤ 255

def digitsUpTo (n : Nat) (cs : List Char) : Bool :=
  1 ≤ cs.length && cs.length ≤ n && cs.all Char.isDigit

def isHexOrColon (c : Char) : Bool :=
  c.isDigit || ('a' ≤ c && c ≤ 'f') || ('A' ≤ c && c ≤ 'F') || c = ':'

def plainV4 (cs : List Char) : Bool :=
  let parts := cs.splitOn '.'
  parts.length = 4 && parts.all (digitsUpTo 3)

def plainV6 (cs : List Char) : Bool := 1 ≤ cs.length && cs.all isHexOrColon

/-- A plain address, or an address and a length behind a slash. -/
def isValidCidr (cs : List Char) : Bool :=
  match cs.splitOn '/' with
  | [address] => plainV4 address || plainV6 address
  | [address, length] =>
    plainV4 address && digitsUpTo 2 length || plainV6 address && digitsUpTo 3 length
  | _ => false

def trim (s : String) : String := String.ofList (trimEnds isJsSpace s.toList)

def ProtectionPatchBody.valid (body : ProtectionPatchBody) : Bool :=
  (match body.basicAuth with
    | none => true
    | some auth => validCredential auth.user && validCredential auth.pass) &&
  (match body.rateLimitRps with
    | some (some n) => 0 ≤ n
    | _ => true) &&
  (body.ipAllowlist.getD []).all fun cidr => isValidCidr (trim cidr).toList

/-- Credentials are set when both are given with the switch on, and cleared when the switch goes
off. -/
def ProtectionPatchBody.update (body : ProtectionPatchBody) (p : Protection) : Protection :=
  let p :=
    match body.basicAuth with
    | none => p
    | some auth =>
      let p := { p with basicAuthEnabled := auth.enabled }
      if auth.enabled then
        match truthy auth.user, truthy auth.pass with
        | some user, some pass => { p with basicAuthUser := some user, basicAuthPass := some pass }
        | _, _ => p
      else { p with basicAuthUser := none, basicAuthPass := none }
  let p :=
    match body.ipAllowlist with
    | none => p
    | some list => { p with ipAllowlist := some ((list.map trim).filter (· ≠ "")) }
  match body.rateLimitRps with
  | none => p
  | some rps => { p with rateLimitRps := rps.map Int.toNat }

def Protection.credentials (p : Protection) : Option (String × String) :=
  if p.basicAuthEnabled then
    match p.basicAuthUser, p.basicAuthPass with
    | some user, some pass => some (user, pass)
    | _, _ => none
  else none

/-- The middlewares that `syncProtectionToCaddy` builds from a row. -/
def middlewaresOf (salt : String) (row : AppRow) : CaddyMiddlewares where
  basicAuth := row.protection.credentials.map fun c => ⟨c.1,env.hashPassword salt c.2⟩
  ipAllowlist := row.protection.ipAllowlist
  rateLimitRps := row.protection.rateLimitRps
  extraHandlers := row.extraHandlers.map (List.map fun h => ⟨.extra h,rfl⟩)
  cdn := some row.cdn

def syncProtectionToCaddy (salt : String) (appId : Nanoid) (row : AppRow)
    (routes : List CaddyRoute) : List CaddyRoute :=
  match getUpstream routes appId.text, truthy row.domain with
  | some u, some domain =>
    let m := middlewaresOf env salt row
    syncDomains env m row.domains (upsertRoute env domain u.dial appId.text m routes)
  | _, _ => routes

def cdnUpstream (appId : Nanoid) (row : AppRow) (routes : List CaddyRoute) : Option Upstream :=
  (getUpstream routes appId.text).or ((truthy row.containerId).map fun host =>
    ⟨host,(row.healthcheckPort.or row.runtimePort).getD 3000⟩)

def syncCdnToCaddy (appId : Nanoid) (row : AppRow) (routes : List CaddyRoute) :
    List CaddyRoute :=
  match truthy row.domain with
  | none => routes
  | some domain =>
    if row.isStatic then
      upsertStaticRoute env domain (caddyStaticRootForApp env appId) appId.text
        row.staticSpaFallback row.cdn routes
    else
      match cdnUpstream appId row routes with
      | none => routes
      | some u =>
        syncDomains env { cdn := some row.cdn } row.domains
          (setUpstream env appId.text domain u row.cdn routes)

/-- The route `reconcileCaddyRoutes` writes for a row, if any. -/
def reconciledRoute (appId : Nanoid) (row : AppRow) : Option CaddyRoute :=
  match truthy row.domain with
  | none => none
  | some domain =>
    if row.isStatic then
      some (staticRoute env.parse domain (caddyStaticRootForApp env appId) appId.text
        row.staticSpaFallback (some row.cdn))
    else
      (truthy (if row.isSwarm then row.swarmServiceName else row.containerId)).map fun host =>
        appRoute env.parse domain
          (Upstream.dial ⟨host,(row.runtimePort.or row.healthcheckPort).getD 3000⟩) appId.text
          { cdn := some row.cdn }

def reconcileApp (s : State) (routes : List CaddyRoute) (appId : Nanoid) : List CaddyRoute :=
  match (s.apps appId).bind (reconciledRoute env appId) with
  | none => routes
  | some route => putRoute route routes

def reconcileCaddyRoutes (s : State) (appIds : List Nanoid) : List CaddyRoute :=
  appIds.foldl (reconcileApp env s) s.routes

inductive Operation where
  /-- `PATCH /:id/protection`; the salt is bcrypt's. -/
  | patchProtection (appId : Nanoid) (body : ProtectionPatchBody) (salt : String)
  /-- `runBlueGreen` and `rollbackApp`: the container that goes live, and its port. -/
  | switchContainer (appId : Nanoid) (name : String) (port : Nat)
  /-- `runSwarmDeploy`. -/
  | switchService (appId : Nanoid) (serviceName : String) (port : Nat)
  /-- The deploy of a static site. -/
  | switchStatic (appId : Nanoid)
  /-- `PATCH /:id/cdn`. -/
  | syncCdn (appId : Nanoid) (cdn : CdnAppConfig)
  | reconcile (appIds : List Nanoid)

def State.setRow (s : State) (appId : Nanoid) (row : AppRow) : State :=
  { s with apps := Function.update s.apps appId (some row) }

/-- An operation on an app that does not exist fails without effect. -/
def step (s : State) : Operation → State
  | .patchProtection appId body salt =>
    match s.apps appId with
    | none => s
    | some row =>
      if body.valid then
        let row := { row with protection := body.update row.protection }
        { s.setRow appId row with routes := syncProtectionToCaddy env salt appId row s.routes }
      else s
  | .switchContainer appId name port =>
    match s.apps appId with
    | none => s
    | some row =>
      { s.setRow appId { row with containerId := some name } with
        routes := setUpstream env appId.text (row.domain.getD (appId.text ++ ".ploydok.local"))
          ⟨name,port⟩ row.cdn s.routes }
  | .switchService appId serviceName port =>
    match s.apps appId with
    | none => s
    | some row =>
      { s.setRow appId { row with
          isSwarm := true, swarmServiceName := some serviceName, containerId := none } with
        routes :=
          match truthy row.domain with
          | none => s.routes
          | some domain =>
            setUpstream env appId.text domain ⟨serviceName,port⟩ row.cdn s.routes }
  | .switchStatic appId =>
    match s.apps appId with
    | none => s
    | some row =>
      { s.setRow appId { row with containerId := none } with
        routes :=
          match truthy row.domain with
          | none => s.routes
          | some domain =>
            upsertStaticRoute env domain (caddyStaticRootForApp env appId) appId.text
              row.staticSpaFallback row.cdn s.routes }
  | .syncCdn appId cdn =>
    match s.apps appId with
    | none => s
    | some row =>
      let row := { row with cdn := cdn }
      { s.setRow appId row with routes := syncCdnToCaddy env appId row s.routes }
  | .reconcile appIds => { s with routes := reconcileCaddyRoutes env s appIds }

def runAll (s : State) (ops : List Operation) : State := ops.foldl (step env) s

end Ploydok.Caddy
