import Ploydok.Text.Number

/-! Caddy routes and the handler chains the API writes, `caddy/client.ts` and `caddy/cdn.ts`. Every
write rebuilds the route: protection handlers, extra handlers of the app, what the CDN settings
inject, and the reverse proxy. -/

namespace Ploydok.Caddy

open Text

structure CaddyMatch where
  host : List String := []
  path : List String := []
  query : List (String × List String) := []
  remoteIp : List String := []
  /-- `root` and `try_files`. -/
  file : Option (String × List String) := none

inductive AllowedHandler where
  | headers
  | rewrite
  | redir
  | staticResponse
  | requestBody
  | vars
deriving DecidableEq

/-- A handler added by a user: its kind and the rest of its JSON object. -/
structure ExtraHandler where
  handler : AllowedHandler
  config : String
deriving DecidableEq

mutual

inductive CaddyHandler where
  | rateLimit (key window : String) (maxEvents : Nat)
  | subroute (routes : List CaddyRoute)
  | staticResponse (statusCode : Nat)
  | authentication (username password : String)
  | extra (h : ExtraHandler)
  | encode
  | cache (ttl defaultCacheControl : String)
  | headers (set : List (String × String))
  | imageFilter (root : String)
  | rewrite (uri : String)
  | reverseProxy (upstreams : List String)
  | fileServer (root : String)
  /-- Any other JSON object. -/
  | other (handler config : String)

inductive CaddyRoute where
  | mk (id : Option String) (matchers : List CaddyMatch) (handle : List CaddyHandler)
    (terminal : Option Bool)

end

namespace CaddyRoute

/-- The `@id` of a route. -/
def id : CaddyRoute → Option String
  | mk id _ _ _ => id

def matchers : CaddyRoute → List CaddyMatch
  | mk _ matchers _ _ => matchers

def handle : CaddyRoute → List CaddyHandler
  | mk _ _ handle _ => handle

def withHandle : CaddyRoute → List CaddyHandler → CaddyRoute
  | mk id matchers _ terminal, handle => mk id matchers handle terminal

variable (i : Option String) (ms : List CaddyMatch) (hs : List CaddyHandler) (t : Option Bool)

@[simp] theorem id_mk : (mk i ms hs t).id = i := rfl

@[simp] theorem matchers_mk : (mk i ms hs t).matchers = ms := rfl

@[simp] theorem handle_mk : (mk i ms hs t).handle = hs := rfl

@[simp] theorem id_withHandle (r : CaddyRoute) : (r.withHandle hs).id = r.id := by
  cases r
  rfl

@[simp] theorem handle_withHandle (r : CaddyRoute) : (r.withHandle hs).handle = hs := by
  cases r
  rfl

end CaddyRoute

inductive CdnMode where
  | off
  | internal
  | external
deriving DecidableEq

structure CdnAppConfig where
  cdnMode : CdnMode
  cdnCacheTtlS : Option Int
  cdnCachePaths : Option (List String)
  (cdnCompression cdnImageOptim : Option Bool)
  cdnHeaders : Option String

/-- What `JSON.parse` gives, as far as header settings look into it. -/
inductive Json where
  | object (entries : List (String × Json))
  | string (s : String)
  | other

/-- The string entries of a JSON object; `parse` is `JSON.parse`, `none` where it throws. -/
def parseHeaders (parse : String → Option Json) (value : Option String) :
    Option (List (String × String)) :=
  match value with
  | none => none
  | some text =>
    if text = "" then none
    else
      match parse text with
      | some (.object entries) =>
        let headers := entries.filterMap fun e =>
          match e.2 with
          | .string s => some (e.1, s)
          | _ => none
        if headers.isEmpty then none else some headers
      | _ => none

def buildCacheHandler (config : CdnAppConfig) : CaddyHandler :=
  let ttl := config.cdnCacheTtlS.getD 300
  .cache (toString ttl ++ "s") ("public, max-age=" ++ toString ttl)

def buildPathScopedCacheHandler (config : CdnAppConfig) : CaddyHandler :=
  let paths := config.cdnCachePaths.getD []
  if paths.isEmpty then buildCacheHandler config
  else .subroute [.mk none [{ path := paths }] [buildCacheHandler config] none]

def buildImageFilterHandler (root : String) : CaddyHandler :=
  .subroute [.mk none
    [{ path := ["*.jpg", "*.jpeg", "*.png", "*.gif", "*.webp"], query := [("w", ["*"])] }]
    [.imageFilter root] none]

def isReverseProxy : CaddyHandler → Bool
  | .reverseProxy _ => true
  | .other handler _ => handler = "reverse_proxy"
  | _ => false

/-- The handlers the CDN settings add; `staticRoot` is set for static sites. -/
def cdnHandlers (parse : String → Option Json) (config : CdnAppConfig)
    (staticRoot : Option String) : List CaddyHandler :=
  let headers :=
    match parseHeaders parse config.cdnHeaders with
    | some set => [.headers set]
    | none => []
  match config.cdnMode with
  | .off => []
  | .external => headers
  | .internal =>
    (match staticRoot with
      | some root =>
        if config.cdnImageOptim = some true ∧ root ≠ "" then [buildImageFilterHandler root] else []
      | none => []) ++
    (if config.cdnCompression = some true then [.encode] else []) ++
    (if config.cdnCacheTtlS.getD 0 > 0 then [buildPathScopedCacheHandler config] else []) ++
    headers

/-- `applyCdnHandlers`: in front of the first reverse proxy, or of everything. -/
def applyCdnHandlers (parse : String → Option Json) (config : CdnAppConfig)
    (staticRoot : Option String) (route : CaddyRoute) : CaddyRoute :=
  let existing := route.handle
  let reverseProxyIndex := existing.findIdx isReverseProxy
  let insertAt := if reverseProxyIndex < existing.length then reverseProxyIndex else 0
  route.withHandle (existing.take insertAt ++ cdnHandlers parse config staticRoot ++
    existing.drop insertAt)

/-! ### Routes of apps -/

structure BasicAuth where
  (user passHash : String)

structure CaddyMiddlewares where
  basicAuth : Option BasicAuth := none
  ipAllowlist : Option (List String) := none
  rateLimitRps : Option Nat := none
  extraHandlers : Option (List { h : CaddyHandler // isReverseProxy h = false }) := none
  cdn : Option CdnAppConfig := none

def rateLimitHandlers (rps : Option Nat) : List CaddyHandler :=
  match rps with
  | some n => if n > 0 then [.rateLimit "\x7bhttp.request.remote_ip\x7d" "1s" n] else []
  | none => []

def ipAllowlistHandlers (ranges : Option (List String)) : List CaddyHandler :=
  match ranges with
  | some rs =>
    if rs.isEmpty then []
    else [.subroute [.mk none [{ remoteIp := rs }] [] (some false),
      .mk none [] [.staticResponse 403] (some true)]]
  | none => []

def basicAuthHandlers (auth : Option BasicAuth) : List CaddyHandler :=
  match auth with
  | some a => [.authentication a.user a.passHash]
  | none => []

def protectionHandlers (m : CaddyMiddlewares) : List CaddyHandler :=
  rateLimitHandlers m.rateLimitRps ++ ipAllowlistHandlers m.ipAllowlist ++
    basicAuthHandlers m.basicAuth

def buildHandlers (upstream : String) (m : CaddyMiddlewares) : List CaddyHandler :=
  protectionHandlers m ++ (m.extraHandlers.getD []).map Subtype.val ++ [.reverseProxy [upstream]]

def buildStaticHandlers (root : String) (spaFallback : Bool) : List CaddyHandler :=
  if spaFallback then
    [.subroute [
      .mk none [{ file := some (root, ["\x7bhttp.request.uri.path\x7d", "/index.html"]) }]
        [.rewrite "\x7bhttp.matchers.file.relative\x7d"] none,
      .mk none [] [.fileServer root] none]]
  else [.fileServer root]

def routeId (appId : String) : String := "ploydok-" ++ appId

/-- The route `upsertRoute` writes. -/
def appRoute (parse : String → Option Json) (host upstream appId : String)
    (m : CaddyMiddlewares) : CaddyRoute :=
  let route := .mk (some (routeId appId)) [{ host := [host] }] (buildHandlers upstream m)
    (some true)
  match m.cdn with
  | some cdn => applyCdnHandlers parse cdn none route
  | none => route

/-- The route `upsertStaticRoute` writes. -/
def staticRoute (parse : String → Option Json) (host root appId : String) (spaFallback : Bool)
    (cdn : Option CdnAppConfig) : CaddyRoute :=
  let route := .mk (some (routeId appId)) [{ host := [host] }]
    (buildStaticHandlers root spaFallback) (some true)
  match cdn with
  | some cdn => applyCdnHandlers parse cdn (some root) route
  | none => route

theorem routeId_injective (h : routeId a = routeId b) : a = b := by
  exact String.append_right_inj "ploydok-" |>.mp h

structure Upstream where
  host : String
  port : Int
deriving DecidableEq

def Upstream.dial (u : Upstream) : String := u.host ++ ":" ++ toString u.port

/-- `host:port`, split at the last colon. -/
def parseDial (dial : String) : Option Upstream :=
  match splitLast ':' dial.toList with
  | none => none
  | some (host, port) =>
    if host = [] then none else (parseInt port).map fun p => ⟨String.ofList host,p⟩

def upstreamOf (route : CaddyRoute) : Option Upstream :=
  match route.handle.find? isReverseProxy with
  | some (.reverseProxy upstreams) => upstreams.head?.bind parseDial
  | _ => none

/-- `GET /id/ploydok-{appId}`. -/
def findRoute (routes : List CaddyRoute) (appId : String) : Option CaddyRoute :=
  routes.find? fun r => r.id = some (routeId appId)

def getUpstream (routes : List CaddyRoute) (appId : String) : Option Upstream :=
  (findRoute routes appId).bind upstreamOf

theorem parseDial_dial (u : Upstream) (h : u.host ≠ "") : parseDial u.dial = some u := by
  have htext : u.dial.toList = u.host.toList ++ ':' :: (toString u.port).toList := by
    simp [Upstream.dial]
  have hhost : u.host.toList ≠ [] := by
    intro hnil
    exact h (String.toList_inj.mp (hnil.trans (by simp)))
  unfold parseDial
  rw [htext,splitLast_append _ (colon_not_mem_toString u.port)]
  simp only [hhost,↓reduceIte,parseInt_toString,Option.map_some,String.ofList_toList]

theorem host_ne_empty_of_parseDial (h : parseDial dial = some u) : u.host ≠ "" := by
  unfold parseDial at h
  split at h
  · cases h
  · next host port _ =>
    split_ifs at h with hne
    obtain ⟨p,-,rfl⟩ := Option.map_eq_some_iff.mp h
    intro hempty
    have htext : String.ofList host = "" := hempty
    apply hne
    rw [← String.toList_ofList (l := host),htext]
    rfl

theorem host_ne_empty_of_getUpstream (h : getUpstream routes appId = some u) : u.host ≠ "" := by
  obtain ⟨route,-,hroute⟩ := Option.bind_eq_some_iff.mp h
  unfold upstreamOf at hroute
  split at hroute
  · obtain ⟨dial,-,hdial⟩ := Option.bind_eq_some_iff.mp hroute
    exact host_ne_empty_of_parseDial hdial
  · cases hroute

theorem applyCdnHandlers_append_proxy (parse : String → Option Json) (config : CdnAppConfig)
    (id : Option String) (matchers : List CaddyMatch) (terminal : Option Bool)
    (hfront : ∀ h ∈ front, isReverseProxy h = false) (upstreams : List String) :
    (applyCdnHandlers parse config none
      (.mk id matchers (front ++ [.reverseProxy upstreams]) terminal)).handle =
        front ++ cdnHandlers parse config none ++ [.reverseProxy upstreams] := by
  have hidx : (front ++ [CaddyHandler.reverseProxy upstreams]).findIdx isReverseProxy =
      front.length := by
    rw [List.findIdx_append,List.findIdx_eq_length.mpr hfront]
    simp [isReverseProxy,List.findIdx_cons]
  simp [applyCdnHandlers,hidx]

end Ploydok.Caddy
