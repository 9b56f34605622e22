import Mathlib.Tactic.Common

/-! TCP proxies and DNS-01 policies in the configuration of Caddy, `caddy/client.ts`. Both
are written with `PUT`, which creates a key and answers 409 where it exists, so a server or
the list of policies can be created but never replaced. -/

namespace Ploydok.Caddy.Layer4

structure Server where
  listen : List String
  routeId : String
  dial : List String
deriving DecidableEq

inductive Issuers where
  | dns01 (provider : String) (providerConfig : List (String × String))
  | other (json : String)
deriving DecidableEq

structure TlsPolicy where
  subjects : Option (List String)
  issuers : Issuers
deriving DecidableEq

/-- `apps`: an inner `none` of `layer4` is an object without servers. -/
structure Apps where
  layer4 : Option (Option (String → Option Server))
  policies : Option (List TlsPolicy)

/-- The configuration; `none` has no apps. -/
abbrev Config := Option Apps

namespace Config

def server (c : Config) (serverId : String) : Option Server :=
  c.bind fun apps => apps.layer4.bind fun layer4 => layer4.bind fun servers => servers serverId

def policies (c : Config) : Option (List TlsPolicy) := c.bind Apps.policies

end Config

def ensureLayer4Bootstrap (c : Config) : Apps × (String → Option Server) :=
  match c with
  | none => (⟨none,none⟩, fun _ => none)
  | some apps =>
    match apps.layer4 with
    | some (some servers) => (apps, servers)
    | _ => (apps, fun _ => none)

def withServers (apps : Apps) (servers : String → Option Server) : Config :=
  some { apps with layer4 := some (some servers) }

/-- `putOrFail`, `none` where it throws. -/
def putOrFail (existing : Option α) (value : α) : Option α :=
  if existing.isSome then none else some value

inductive Call where
  | upsertTcpProxy (serverId : String) (listenPort : Nat) (upstream : String)
  | removeTcpProxy (serverId : String)
  | upsertDns01TlsPolicy (hostname provider : String) (providerConfig : List (String × String))
deriving DecidableEq

def proxyServer (serverId : String) (listenPort : Nat) (upstream : String) : Server :=
  ⟨[":" ++ toString listenPort],serverId,[upstream]⟩

def isPolicyOf (hostname : String) (p : TlsPolicy) : Bool := p.subjects = some [hostname]

def dns01Policy (hostname provider : String) (providerConfig : List (String × String)) : TlsPolicy :=
  ⟨some [hostname],.dns01 provider providerConfig⟩

/-- Whether the call succeeds, and the configuration after it. -/
def step (c : Config) : Call → Bool × Config
  | .upsertTcpProxy serverId listenPort upstream =>
    let (apps, servers) := ensureLayer4Bootstrap c
    match putOrFail (servers serverId) (proxyServer serverId listenPort upstream) with
    | none => (false, withServers apps servers)
    | some server => (true, withServers apps (Function.update servers serverId (some server)))
  | .removeTcpProxy serverId =>
    let (apps, servers) := ensureLayer4Bootstrap c
    (true, withServers apps (Function.update servers serverId none))
  | .upsertDns01TlsPolicy hostname provider providerConfig =>
    let filtered := (c.policies.getD []).filter fun p => !isPolicyOf hostname p
    match putOrFail c.policies (filtered ++ [dns01Policy hostname provider providerConfig]) with
    | none => (false, c)
    | some policies => (true, some { c.getD ⟨none,none⟩ with policies := some policies })

def run (c : Config) (calls : List Call) : Config := calls.foldl (fun c call => (step c call).2) c

def Upserts (c : Config) (call : Call) : Prop :=
  let after := (step c call).2
  match call with
  | .upsertTcpProxy serverId listenPort upstream =>
    (step c call).1 = true ∧ after.server serverId = some (proxyServer serverId listenPort upstream) ∧
      (∀ k ≠ serverId, after.server k = c.server k) ∧ after.policies = c.policies
  | .removeTcpProxy _ => True
  | .upsertDns01TlsPolicy hostname provider providerConfig =>
    (step c call).1 = true ∧ (after.policies.getD []).filter (isPolicyOf hostname) =
        [dns01Policy hostname provider providerConfig] ∧
      ((after.policies.getD []).filter fun p => !isPolicyOf hostname p) =
        ((c.policies.getD []).filter fun p => !isPolicyOf hostname p) ∧ after.server = c.server

def Fresh (c : Config) : Call → Prop
  | .upsertTcpProxy serverId _ _ => c.server serverId = none
  | .removeTcpProxy _ => True
  | .upsertDns01TlsPolicy .. => c.policies = none

theorem ensureLayer4Bootstrap_servers (c : Config) : (ensureLayer4Bootstrap c).2 = c.server := by
  funext serverId
  rcases c with _ | ⟨_ | _ | servers,policies⟩ <;> rfl

theorem upserts_iff_fresh (c : Config) (call : Call) : Upserts c call ↔ Fresh c call := by
  have hpolicies : (ensureLayer4Bootstrap c).1.policies = c.policies := by
    rcases c with _ | ⟨_ | _ | servers,policies⟩ <;> rfl
  cases call with
  | upsertTcpProxy serverId listenPort upstream =>
    simp only [Upserts,Fresh,step,ensureLayer4Bootstrap_servers,putOrFail]
    cases h : c.server serverId with
    | some server => simp
    | none =>
      simp only [Option.isSome_none,Bool.false_eq_true,if_false,iff_true]
      refine ⟨trivial,Function.update_self ..,?_,hpolicies⟩
      intro k hk
      exact Function.update_of_ne hk _ _
  | removeTcpProxy serverId => exact Iff.rfl
  | upsertDns01TlsPolicy hostname provider providerConfig =>
    simp only [Upserts,Fresh,step,putOrFail]
    cases h : c.policies with
    | some policies => simp
    | none =>
      rcases c with _ | apps <;>
        simp [Config.policies,isPolicyOf,dns01Policy,Config.server,funext_iff]

/-! ### Database proxies -/

structure DatabaseProxy where
  id : String
  host : Option String
  (port publicPort : Option Nat)

/-- A row without host, port or public port is skipped. -/
def DatabaseProxy.call (serverIdOf : String → String) (d : DatabaseProxy) : Option Call :=
  match d.host.filter (· ≠ ""), d.port.filter (· ≠ 0), d.publicPort.filter (· ≠ 0) with
  | some host, some port, some publicPort =>
    some (.upsertTcpProxy (serverIdOf d.id) publicPort (host ++ ":" ++ toString port))
  | _, _, _ => none

/-- The calls of `reconcileDatabaseTcpProxies`, which goes on where one fails. -/
def databaseCalls (serverIdOf : String → String) (databases : List DatabaseProxy) : List Call :=
  databases.filterMap (·.call serverIdOf)

def failures (c : Config) : List Call → Nat
  | [] => 0
  | call :: rest => (if (step c call).1 then 0 else 1) + failures (step c call).2 rest

theorem databaseCalls_upsert (serverIdOf : String → String) (databases : List DatabaseProxy) :
    ∀ call ∈ databaseCalls serverIdOf databases,
      ∃ serverId port upstream, call = .upsertTcpProxy serverId port upstream := by
  intro call hcall
  obtain ⟨d,-,hd⟩ := List.mem_filterMap.mp hcall
  unfold DatabaseProxy.call at hd
  split at hd
  · exact ⟨_,_,_,(Option.some.inj hd).symm⟩
  · cases hd

theorem isSome_server_upsert (c : Config) (serverId : String) (port : Nat) (upstream k : String)
    (hk : k = serverId ∨ (c.server k).isSome) :
    ((step c (.upsertTcpProxy serverId port upstream)).2.server k).isSome := by
  have hserver : ∀ apps servers, (withServers apps servers).server = servers := fun _ _ => rfl
  simp only [step,ensureLayer4Bootstrap_servers,putOrFail]
  by_cases heq : k = serverId
  · subst heq
    cases h : c.server k <;> simp [hserver,h]
  · have hkept := hk.resolve_left heq
    cases h : c.server serverId <;> simp [hserver,heq,hkept]

theorem isSome_server_run (hcalls : ∀ call ∈ calls,
    ∃ serverId port upstream, call = .upsertTcpProxy serverId port upstream) {k : String}
    (hk : (c.server k).isSome) : ((run c calls).server k).isSome := by
  induction calls generalizing c with
  | nil => exact hk
  | cons call calls ih =>
    obtain ⟨serverId,port,upstream,rfl⟩ := hcalls call (by simp)
    exact ih (fun x hx => hcalls x (by simp [hx])) (isSome_server_upsert c _ _ _ k (.inr hk))

theorem failures_second_pass (serverIdOf : String → String) (c : Config)
    (databases : List DatabaseProxy) :
    failures (run c (databaseCalls serverIdOf databases)) (databaseCalls serverIdOf databases) = 0 ↔
      databaseCalls serverIdOf databases = [] := by
  have hcalls := databaseCalls_upsert serverIdOf databases
  generalize databaseCalls serverIdOf databases = calls at hcalls ⊢
  cases calls with
  | nil => simp [failures]
  | cons call calls =>
    obtain ⟨serverId,port,upstream,rfl⟩ := hcalls call (by simp)
    -- the first pass has left the server that the second one starts with
    have hthere : ((run c (.upsertTcpProxy serverId port upstream :: calls)).server serverId).isSome :=
      isSome_server_run (fun x hx => hcalls x (List.mem_cons_of_mem _ hx))
        (isSome_server_upsert c serverId port upstream serverId (.inl rfl))
    simp [failures,step,ensureLayer4Bootstrap_servers,putOrFail,hthere]

/-- Every upsert of a sequence does its work and a second pass over the databases fails nowhere,
exactly if each upsert finds its key free and no database has a proxy. -/
theorem upserts_run_iff (serverIdOf : String → String) (c : Config) (calls : List Call)
    (databases : List DatabaseProxy) :
    ((∀ pre call post, calls = pre ++ call :: post → Upserts (run c pre) call) ∧
      failures (run c (databaseCalls serverIdOf databases)) (databaseCalls serverIdOf databases) = 0) ↔
    (∀ pre call post, calls = pre ++ call :: post → Fresh (run c pre) call) ∧
      databaseCalls serverIdOf databases = [] := by
  simp only [failures_second_pass,upserts_iff_fresh]

theorem second_upsert_fails :
    ¬ ∀ (c : Config) (pre : List Call) (call : Call), Upserts (run c pre) call := by
  intro h
  have hsecond := h none [.upsertTcpProxy "db" 16432 "pg:5432"] (.upsertTcpProxy "db" 16433 "pg:5432")
  exact absurd ((upserts_iff_fresh _ _).mp hsecond) (by simp [Fresh]; decide)

end Ploydok.Caddy.Layer4
