import Ploydok.Net.Address

/-! The guard that keeps event webhooks off internal addresses (`routes/event-webhooks.ts`,
`worker/event-webhook-dispatcher.ts`): the check of a URL when it is stored, and the check, pinning
and connection when an event is sent. An adversary answers each lookup afresh. -/

namespace Ploydok.Webhooks

open Ploydok.Net List
open Ploydok.Text (parseDigits parseDigits_toString)

def normalizeHostname (hostname : List Char) : List Char :=
  let lower := hostname.map Char.toLower
  if lower.getLast? = some '.' then lower.dropLast else lower

/-- A host name of a URL. A name that ends in a number is read as an IPv4 address; no name has a
colon. -/
structure Domain where
  name : List Char
  not_address : isIP (normalizeHostname name) = none

/-- The host of an `http` or `https` URL. -/
inductive Host where
  | domain (name : Domain)
  | ipv4 (address : Ipv4)
  | ipv6 (address : Ipv6)

/-- The `hostname` of a URL: an IPv6 address stands in brackets. -/
def Host.hostname : Host → List Char
  | .domain name => name.name
  | .ipv4 address => address.text
  | .ipv6 address => '[' :: (address.text ++ [']'])

structure AddressText where
  text : List Char
  denotes : (readHostIpv4 text).isSome ∨ isIP text = some .v6

/-- The setter of `hostname`. An IPv6 address without brackets is rejected, which leaves the
host as it was. -/
def Host.setHostname (host : Host) (address : AddressText) : Host :=
  match readHostIpv4 address.text with
  | some p => .ipv4 p
  | none => host

inductive Protocol where
  | http
  | https
  | other
  deriving DecidableEq, Repr

structure Url where
  protocol : Protocol
  (username password : List Char)
  host : Host

/-- `Number(part)`. A part of more than digits holds the colon or the zone of an IPv6 text and is no
number. -/
def number (part : List Char) : Option Nat :=
  if part.all Char.isDigit then parseDigits part else none

def isBlockedIpv4 (hostname : List Char) : Bool :=
  match (hostname.splitOn '.').mapM number with
  | some [a, b, _, _] =>
    a = 127 || a = 10 || (a = 169 && b = 254) || (a = 192 && b = 168) ||
      (a = 172 && 16 ≤ b && b ≤ 31)
  | _ => false

def isBlockedIpv6 (hostname : List Char) : Bool :=
  let lower := hostname.map Char.toLower
  if lower = "::1".toList || lower = "::".toList then true
  else if "::ffff:".toList.isPrefixOf lower then isBlockedIpv4 (lower.drop "::ffff:".toList.length)
  else
    "fc".toList.isPrefixOf lower || "fd".toList.isPrefixOf lower || "fe80:".toList.isPrefixOf lower

def isBlockedIpAddress (hostname : List Char) : Bool :=
  match isIP hostname with
  | some .v4 => isBlockedIpv4 hostname
  | some .v6 => isBlockedIpv6 hostname
  | none => false

/-! ### Checking and fetching -/

abbrev Lookup := Except String (List AddressText)

def isLocalName (hostname : List Char) : Bool :=
  hostname = "localhost".toList || ".localhost".toList.isSuffixOf hostname

/-- The reason to refuse a URL, which is `none` where the text could not be parsed. -/
def validateEventWebhookUrl (parsed : Option Url) (lookup : Lookup) : Option String :=
  match parsed with
  | none => some "Webhook URL is invalid"
  | some url =>
    let hostname := normalizeHostname url.host.hostname
    if url.protocol = .other then some "Webhook URL must use http or https"
    else if url.username ≠ [] ∨ url.password ≠ [] then
      some "Webhook URL must not include credentials"
    else if isLocalName hostname then some "Webhook URL points to a blocked local address"
    else if isBlockedIpAddress hostname then some "Webhook URL points to a blocked private address"
    else if isIP hostname = none then
      match lookup with
      | .error _ => some "Webhook URL host could not be resolved safely"
      | .ok addresses =>
        if addresses.isEmpty ∨ addresses.any fun address => isBlockedIpAddress address.text then
          some "Webhook URL resolves to a blocked private address"
        else none
    else none

/-- The answer to the guard's lookup, the address when the connection is opened, and the response.
-/
structure Network where
  lookup : Lookup
  resolve : Address
  respond : Except String Nat

def Host.connect (host : Host) (net : Network) : Address :=
  match host with
  | .domain _ => net.resolve
  | .ipv4 p => .ipv4 p
  | .ipv6 p => .ipv6 p

structure Fetch where
  connection : Option Address
  result : Except String Nat

def webhookRedirectError : String := "Webhook redirects are not allowed"

/-- `fetch` without following redirects. Other protocols open no connection. -/
def fetch (url : Url) (host : Host) (net : Network) : Fetch where
  connection := if url.protocol = .other then none else some (host.connect net)
  result := do
    let status ← net.respond
    if 300 ≤ status ∧ status < 400 then throw webhookRedirectError
    return status

def fetchEventWebhook (url : Url) (net : Network) : Fetch :=
  let hostname := normalizeHostname url.host.hostname
  if isIP hostname = none then
    match net.lookup with
    | .error message => ⟨none,.error message⟩
    | .ok addresses =>
      if addresses.any fun address => isBlockedIpAddress address.text then
        ⟨none,.error "Webhook URL resolves to a blocked private address"⟩
      else
        match addresses with
        | [] => ⟨none,.error "Webhook URL resolves to a blocked private address"⟩
        | first :: _ => fetch url (url.host.setHostname first) net
  else if isBlockedIpAddress hostname then
    ⟨none,.error "Webhook URL points to a blocked private address"⟩
  else fetch url url.host net

def InternalIpv4 (p : Ipv4) : Prop :=
  p.a = 127 ∨ p.a = 0 ∨ p.a = 10 ∨ (p.a = 172 ∧ 16 ≤ p.b ∧ p.b ≤ 31) ∨
    (p.a = 192 ∧ p.b = 168) ∨ (p.a = 169 ∧ p.b = 254)

/-- The same for IPv6: `::`, `::1`, `fe80::/10`, `fc00::/7`, and IPv4 addresses in IPv6 form. -/
def InternalIpv6 (p : Ipv6) : Prop :=
  (∀ i : Fin 8, i ≠ 7 → p.pieces i = 0) ∧ p.pieces 7 ≤ 1 ∨ (p.pieces 0).val / 64 = 0x3fa ∨
    (p.pieces 0).val / 512 = 0x7e ∨ ∃ q, p.mapped = some q ∧ InternalIpv4 q

def Internal : Address → Prop
  | .ipv4 p => InternalIpv4 p
  | .ipv6 p => InternalIpv6 p

def Fetch.Guarded (fetched : Fetch) : Prop :=
  ∀ address, fetched.connection = some address → ¬ Internal address

theorem toLower_of_isDigit {c : Char} (h : c.isDigit = true) : c.toLower = c := by
  have hc : 48 ≤ c.toNat ∧ c.toNat ≤ 57 := by
    simpa [Char.isDigit,Char.le_def,UInt32.le_iff_toNat_le] using h
  unfold Char.toLower
  rw [dif_neg]
  simp only [UInt32.le_iff_toNat_le]
  rintro ⟨hupper,-⟩
  exact absurd (hupper.trans hc.2) (by decide)

theorem normalizeHostname_text (p : Ipv4) : normalizeHostname p.text = p.text := by
  have hlower : p.text.map Char.toLower = p.text := by
    refine map_congr_left (fun c hc => ?_) |>.trans (map_id _)
    rcases mem_text hc with h | rfl
    · exact toLower_of_isDigit h
    · decide
  rw [normalizeHostname,hlower,if_neg (getLast?_text p)]

theorem number_toString (n : Nat) : number (toString n).toList = some n := by
  have hall : (toString n).toList.all Char.isDigit = true :=
    all_eq_true.mpr fun _ hc => Text.isDigit_of_mem_toString hc
  rw [number,if_pos hall,parseDigits_toString]

theorem isBlockedIpv4_text (p : Ipv4) : isBlockedIpv4 p.text = true ↔ InternalIpv4 p ∧ p.a ≠ 0 := by
  have hread : ([p.a, p.b, p.c, p.d].map fun n => (toString n.val).toList).mapM number =
      some [p.a.val, p.b.val, p.c.val, p.d.val] := by
    simp only [map_cons,map_nil,mapM_cons,mapM_nil,number_toString]
    rfl
  rw [isBlockedIpv4,splitOn_text,hread]
  simp only [InternalIpv4,Bool.or_eq_true,Bool.and_eq_true,decide_eq_true_eq,Fin.ext_iff,
    Fin.le_def]
  simp
  omega

theorem isBlockedIpAddress_text (p : Ipv4) :
    isBlockedIpAddress p.text = true ↔ InternalIpv4 p ∧ p.a ≠ 0 := by
  rw [isBlockedIpAddress,isIP_text]
  exact isBlockedIpv4_text p

variable {url : Url}

theorem fetch_connection (h : (fetch url host net).connection = some address) :
    address = host.connect net := by
  simp only [fetch] at h
  split_ifs at h
  exact (Option.some.inj h).symm

theorem fetchEventWebhook_ipv4 (hhost : url.host = .ipv4 p) (net : Network) :
    fetchEventWebhook url net = if isBlockedIpAddress p.text then
        ⟨none,.error "Webhook URL points to a blocked private address"⟩
      else fetch url url.host net := by
  have hname : normalizeHostname url.host.hostname = p.text := by
    rw [hhost]
    exact normalizeHostname_text p
  simp only [fetchEventWebhook,hname,isIP_text]
  rfl

theorem fetchEventWebhook_ipv4_guarded (hhost : url.host = .ipv4 p) (hzero : p.a ≠ 0)
    (net : Network) : (fetchEventWebhook url net).Guarded := by
  rw [fetchEventWebhook_ipv4 hhost]
  by_cases hblocked : isBlockedIpAddress p.text = true
  · rw [if_pos hblocked]
    rintro address ⟨⟩
  · rw [if_neg hblocked]
    intro address hconnection hinternal
    have haddress := fetch_connection hconnection
    rw [hhost] at haddress
    subst haddress
    exact hblocked ((isBlockedIpAddress_text p).mpr ⟨hinternal,hzero⟩)

theorem isIP_ipv6 (p : Ipv6) : isIP (normalizeHostname (Host.ipv6 p).hostname) = none := by
  have hlower : (Host.ipv6 p).hostname.map Char.toLower =
      '[' :: (p.text.map Char.toLower ++ [']']) := by
    simp [Host.hostname,show Char.toLower '[' = '[' by decide,
      show Char.toLower ']' = ']' by decide]
  have hlast : ('[' :: (p.text.map Char.toLower ++ [']'])).getLast? ≠ some '.' := by
    rw [← cons_append,getLast?_concat]
    decide
  rw [normalizeHostname,hlower,if_neg hlast]
  exact isIP_bracket _

theorem isIP_hostname {host : Host} (h : ∀ p, host ≠ .ipv4 p) :
    isIP (normalizeHostname host.hostname) = none := by
  cases host with
  | domain name => exact name.not_address
  | ipv4 p => exact absurd rfl (h p)
  | ipv6 p => exact isIP_ipv6 p

/-- The address `0.0.0.0`, which no check refuses. -/
def zeroText : AddressText := ⟨"0.0.0.0".toList,.inl (by decide)⟩

def zeroAddress : Ipv4 := ⟨0,0,0,0⟩

theorem fetchEventWebhook_zeroText (hhost : ∀ p, url.host ≠ .ipv4 p)
    (resolve : Address) (respond : Except String Nat) :
    fetchEventWebhook url ⟨.ok [zeroText],resolve,respond⟩ =
      fetch url (.ipv4 zeroAddress) ⟨.ok [zeroText],resolve,respond⟩ := by
  have hblocked : isBlockedIpAddress zeroText.text = false := by decide
  have hset : url.host.setHostname zeroText = .ipv4 zeroAddress := by
    simp only [Host.setHostname,show readHostIpv4 zeroText.text = some zeroAddress by decide]
  simp [fetchEventWebhook,isIP_hostname hhost,hblocked,hset]

theorem fetchEventWebhook_other (h : url.protocol = .other) (net : Network) :
    (fetchEventWebhook url net).connection = none := by
  have hfetch : ∀ host, (fetch url host net).connection = none := fun host => by simp [fetch,h]
  unfold fetchEventWebhook
  dsimp only
  split
  · split
    · rfl
    · split
      · rfl
      · split
        · rfl
        · exact hfetch _
  · split
    · rfl
    · exact hfetch _

/-- Whatever the resolver answers, no fetch connects to an internal address, exactly for URLs whose
host is an IPv4 address outside of `0.0.0.0/8`. Every other host is looked up. -/
theorem fetchEventWebhook_guarded_iff (url : Url) : (∀ net, (fetchEventWebhook url net).Guarded) ↔
      url.protocol = .other ∨ ∃ p, url.host = .ipv4 p ∧ p.a ≠ 0 := by
  constructor
  · intro hguarded
    by_contra hnot
    obtain ⟨hweb,hhost⟩ := not_or.mp hnot
    by_cases hipv4 : ∃ p, url.host = .ipv4 p
    · -- the host itself is in the range that the check does not know
      obtain ⟨p,hp⟩ := hipv4
      have hzero : p.a = 0 := by
        by_contra hne
        exact hhost ⟨p,hp,hne⟩
      have hblocked : ¬ isBlockedIpAddress p.text = true := fun h =>
        ((isBlockedIpAddress_text p).mp h).2 hzero
      refine hguarded ⟨.error "",.ipv4 p,.ok 200⟩ (.ipv4 p) ?_ (.inr (.inl hzero))
      rw [fetchEventWebhook_ipv4 hp,if_neg hblocked]
      simp [fetch,hweb,hp,Host.connect]
    · have hnone : ∀ p, url.host ≠ .ipv4 p := fun p hp => hipv4 ⟨p,hp⟩
      refine hguarded ⟨.ok [zeroText],.ipv4 zeroAddress,.ok 200⟩ (.ipv4 zeroAddress) ?_
        (.inr (.inl rfl))
      rw [fetchEventWebhook_zeroText hnone]
      simp [fetch,hweb,Host.connect]
  · rintro (hother | ⟨p,hp,hzero⟩) net
    · intro address hconnection
      rw [fetchEventWebhook_other hother] at hconnection
      cases hconnection
    · exact fetchEventWebhook_ipv4_guarded hp hzero net

def Stored (url : Url) : Prop := ∃ lookup, validateEventWebhookUrl (some url) lookup = none

/-- The URL `https://hooks.example`. -/
def namedUrl : Url where
  protocol := .https
  username := []
  password := []
  host := .domain ⟨"hooks.example".toList,by decide +kernel⟩

def publicText : AddressText := ⟨"2001:db8::1".toList,.inr (by decide +kernel)⟩

/-- The name resolves to a public IPv6 address for both checks, and once more for the connection,
now to the loopback address. -/
theorem stored_url_reaches_loopback :
    ¬ ∀ url, Stored url → ∀ net, (fetchEventWebhook url net).Guarded := by
  intro h
  have hblocked : isBlockedIpAddress publicText.text = false := by decide +kernel
  have hset : namedUrl.host.setHostname publicText = namedUrl.host := by
    simp only [Host.setHostname,show readHostIpv4 publicText.text = none by decide +kernel]
  have hname : isIP (normalizeHostname namedUrl.host.hostname) = none :=
    isIP_hostname (by rintro p ⟨⟩)
  have hlocal : isLocalName (normalizeHostname namedUrl.host.hostname) = false := by
    decide +kernel
  have hstored : validateEventWebhookUrl (some namedUrl) (.ok [publicText]) = none := by
    have hhost : isBlockedIpAddress (normalizeHostname namedUrl.host.hostname) = false := by
      rw [isBlockedIpAddress,hname]
    simp only [validateEventWebhookUrl,hname,hlocal,hhost,any_cons,hblocked]
    simp [namedUrl]
  refine h namedUrl ⟨_,hstored⟩ ⟨.ok [publicText],.ipv4 ⟨127,0,0,1⟩,.ok 200⟩
    (.ipv4 ⟨127,0,0,1⟩) ?_ (.inl rfl)
  simp [fetchEventWebhook,hname,hblocked,hset]
  simp [fetch,namedUrl,Host.connect]

end Ploydok.Webhooks
