import Ploydok.Caddy.Preservation

/-! What Caddy does with a request that meets a handler chain. Handlers run in order until one
answers; a subroute runs the handlers of every matching route until one answers or a route is
terminal. -/

namespace Ploydok.Caddy

structure ClientRequest where
  /-- The client address lies in the range. -/
  within : String → Bool
  (hosted pathed : List String → Bool)
  queried : List (String × List String) → Bool
  filed : String × List String → Bool
  /-- The status with which a handler that is no subroute, fixed response or proxy answers. -/
  refused : CaddyHandler → Option Nat

inductive Outcome where
  | passed
  | answered (status : Nat)
  | proxied
deriving DecidableEq

variable (q : ClientRequest)

def CaddyMatch.holds (m : CaddyMatch) : Bool :=
  (m.host.isEmpty || q.hosted m.host) && (m.path.isEmpty || q.pathed m.path) &&
    (m.query.isEmpty || q.queried m.query) && (m.remoteIp.isEmpty || m.remoteIp.any q.within) &&
    m.file.all q.filed

def matched (matchers : List CaddyMatch) : Bool :=
  matchers.isEmpty || matchers.any (·.holds q)

mutual

def serve : CaddyHandler → Outcome
  | .subroute routes => serveRoutes routes
  | .staticResponse status => .answered status
  | .reverseProxy _ => .proxied
  | h => (q.refused h).elim .passed .answered

def serveHandlers : List CaddyHandler → Outcome
  | [] => .passed
  | h :: rest =>
    match serve h with
    | .passed => serveHandlers rest
    | outcome => outcome

def serveRoute : CaddyRoute → Outcome × Bool
  | .mk _ matchers handle terminal =>
    if matched q matchers then (serveHandlers handle, terminal = some true) else (.passed, false)

def serveRoutes : List CaddyRoute → Outcome
  | [] => .passed
  | r :: rest =>
    match serveRoute r with
    | (.passed, false) => serveRoutes rest
    | (outcome, _) => outcome

end

variable {q}

theorem serveHandlers_append_of_passed (hfront : ∀ h ∈ front, serve q h = .passed)
    (back : List CaddyHandler) : serveHandlers q (front ++ back) = serveHandlers q back := by
  induction front with
  | nil => rfl
  | cons h front ih =>
    simp [serveHandlers,hfront h (by simp),ih fun x hx => hfront x (by simp [hx])]

theorem serve_allowlist (hne : ranges ≠ []) (back : List CaddyHandler) :
    serveHandlers q (ipAllowlistHandlers (some ranges) ++ back) = .answered 403 := by
  cases hm : matched q [{ remoteIp := ranges }] <;>
    simp [ipAllowlistHandlers,hne,serveHandlers,serve,serveRoutes,serveRoute,hm,
      show matched q [] = true from rfl]

theorem serve_rateLimit
    (hpass : ∀ h ∈ rateLimitHandlers rps ++ basicAuthHandlers auth, q.refused h = none) :
    ∀ h ∈ rateLimitHandlers rps, serve q h = .passed := by
  intro h hh
  have hnone := hpass h (List.mem_append_left _ hh)
  unfold rateLimitHandlers at hh
  split at hh
  · split_ifs at hh
    · rw [List.mem_singleton.mp hh] at hnone ⊢
      simp [serve,hnone]
    · simp at hh
  · simp at hh

/-- A request that the rate limit and basic auth let pass reaches the app if its address is allowed,
and else gets 403, just for the addresses that are not allowed. -/
theorem allowlist_iff_not_within {ranges : List String} (hne : ranges ≠ []) (upstream : String)
    (rps : Option Nat) (auth : Option BasicAuth)
    (hpass : ∀ h ∈ rateLimitHandlers rps ++ basicAuthHandlers auth, q.refused h = none) :
    let outcome := serveHandlers q (buildHandlers upstream
      { rateLimitRps := rps, ipAllowlist := some ranges, basicAuth := auth })
    ((outcome = .proxied ↔ ∃ r ∈ ranges, q.within r) ∧
      ((¬ ∃ r ∈ ranges, q.within r) → outcome = .answered 403)) ↔ ¬ ∃ r ∈ ranges, q.within r := by
  have houtcome : serveHandlers q (buildHandlers upstream
      { rateLimitRps := rps, ipAllowlist := some ranges, basicAuth := auth }) = .answered 403 := by
    simp only [buildHandlers,protectionHandlers,List.append_assoc]
    rw [serveHandlers_append_of_passed (serve_rateLimit hpass),serve_allowlist hne]
  simp [houtcome]

/-- A request that nothing refuses, from an address in `10.0.0.0/8`. -/
def localRequest : ClientRequest where
  within r := r = "10.0.0.0/8"
  hosted _ := true
  pathed _ := true
  queried _ := true
  filed _ := true
  refused _ := none

theorem allowlist_iff_not_within_elsewhere :
    serveHandlers localRequest (buildHandlers "web:80" { ipAllowlist := some ["192.0.2.0/24"] }) =
      .answered 403 :=
  ((allowlist_iff_not_within (List.cons_ne_nil "192.0.2.0/24" []) "web:80"
    none none (by simp [localRequest])).mpr (by simp [localRequest])).2 (by simp [localRequest])

theorem allowed_address_refused :
    ¬ ∀ (q : ClientRequest) (ranges : List String) (upstream : String) (rps : Option Nat)
      (auth : Option BasicAuth), ranges ≠ [] →
      (∀ h ∈ rateLimitHandlers rps ++ basicAuthHandlers auth, q.refused h = none) →
      let outcome := serveHandlers q (buildHandlers upstream
        { rateLimitRps := rps, ipAllowlist := some ranges, basicAuth := auth })
      (outcome = .proxied ↔ ∃ r ∈ ranges, q.within r) ∧
        ((¬ ∃ r ∈ ranges, q.within r) → outcome = .answered 403) := by
  intro h
  have hreach := (h localRequest ["10.0.0.0/8"] "web:80" none none (by simp)
    (by simp [localRequest])).1.mpr (by simp [localRequest])
  exact absurd hreach (by decide)

end Ploydok.Caddy
