import Ploydok.Caddy.Domains
import Ploydok.Queue.Claim

/-! The check of a custom domain, `worker/handlers/domain-verify.ts` and `domains/verifier.ts`. The
job claims the row by a column `status` that the table `domains` does not have, so no check ever
completes. -/

namespace Ploydok.Queue

open Caddy

structure DnsError where
  code : Option String
  message : String

structure VerifyState where
  domains : Table
  /-- The CDN settings of an app that a user has access to. -/
  parentApp : String → String → Option CdnAppConfig
  resolveTxt : String → Except DnsError (List (List String))
  routes : List CaddyRoute

def Row.text? (row : Row) (column : String) : Option String :=
  match row column with
  | .text s => some s
  | _ => none

def Table.row? (t : Table) (id : String) : Option Row := t.rows.find? fun row => row "id" = .text id

def verificationHost (hostname : String) : String :=
  match hostname.toList with
  | '*' :: '.' :: rest => String.ofList rest
  | _ => hostname

def lookupName (hostname : String) : String := "_ploydok-verify." ++ verificationHost hostname

/-- The result of `verifyDomain`, with the reason of a failure. -/
def verifyDomain (s : VerifyState) (domainId : String) : Except String Unit :=
  match s.domains.row? domainId with
  | none => .error "domain not found"
  | some domain =>
    match truthy (domain.text? "verify_token") with
    | none => .error "no verify_token set"
    | some token =>
      match s.resolveTxt (lookupName ((domain.text? "hostname").getD "")) with
      | .error err =>
        if err.code = some "ENOTFOUND" ∨ err.code = some "ENODATA" then
          .error "TXT record not found"
        else .error ("DNS lookup error: " ++ err.message)
      | .ok records =>
        if token ∈ records.flatten then .ok ()
        else .error ("TXT record found but token did not match (found: " ++
          String.intercalate ", " (records.flatten.take 3) ++ ")")

def setDomain (domainId : String) (set : List (String × Value))
    (h : "id" ∉ set.map Prod.fst) : Update :=
  ⟨set,[.eq "id" (.text domainId)],h⟩

abbrev Outcome := Except String Unit × VerifyState

def VerifyState.write (s : VerifyState) (u : Update) (k : VerifyState → Outcome) : Outcome :=
  match s.domains.update u with
  | .error e => (.error e, s)
  | .ok (_, domains) => k { s with domains := domains }

def verifyClaim (domainId : String) : ClaimOptions :=
  ⟨domainId,some ["pending", "running"],some false⟩

def registerDomain (env : Env) (domainId : String) (claimed : Row) (cdn : CdnAppConfig)
    (routes : List CaddyRoute) : List CaddyRoute :=
  match getUpstream routes ((claimed.text? "app_id").getD "") with
  | none => routes
  | some u => upsertRoute env ((claimed.text? "hostname").getD "") u.dial ("domain-" ++ domainId)
      { cdn := some cdn } routes

def checkChallenge (env : Env) (now : Nat) (domainId : String) (claimed : Row) (cdn : CdnAppConfig)
    (s : VerifyState) : Outcome :=
  match verifyDomain s domainId with
  | .error reason =>
    s.write (setDomain domainId [("verify_error", .text reason), ("updated_at", .time now)]
      (by simp)) fun s => (.error ("domain verification failed: " ++ reason), s)
  | .ok _ =>
    s.write (setDomain domainId [("tls_status", .text "issued"), ("verify_error", .null),
      ("updated_at", .time now)] (by simp)) fun s =>
        (.ok (), { s with routes := registerDomain env domainId claimed cdn s.routes })

def checkAccess (env : Env) (now : Nat) (domainId : String) (claimed : Row) (userId : String)
    (s : VerifyState) : Outcome :=
  let appId := (claimed.text? "app_id").getD ""
  match s.parentApp appId userId with
  | none => (.error ("User " ++ userId ++ " no longer has access to app " ++ appId), s)
  | some cdn => checkChallenge env now domainId claimed cdn s

def verifyClaimed (env : Env) (now : Nat) (domainId : String) (claimed : Row) (s : VerifyState) :
    Outcome :=
  match truthy (claimed.text? "requested_by_user_id"), truthy (claimed.text? "verify_source") with
  | some userId, some _ =>
    s.write (setDomain domainId [("verify_claimed_at", .time now)] (by simp))
      (checkAccess env now domainId claimed userId)
  | _, _ =>
    let reason := "Domain row is not claimable: missing requested_by_user_id or verify_source"
    s.write (setDomain domainId [("tls_status", .text "failed"), ("verify_error", .text reason),
      ("updated_at", .time now)] (by simp)) fun s => (.error reason, s)

def handleDomainVerify (env : Env) (now : Nat) (domainId : String) (s : VerifyState) : Outcome :=
  match claimQueuedRow s.domains (verifyClaim domainId) now with
  | .error e => (.error e, s)
  | .ok (none, domains) =>
    (.error ("Domain " ++ domainId ++ " not found or not in pending/running state"),
      { s with domains := domains })
  | .ok (some claimed, domains) =>
    verifyClaimed env now domainId claimed { s with domains := domains }

structure Verifiable (s : VerifyState) (domainId : String) (row : Row) : Prop where
  mem : row ∈ s.domains.rows
  id : row "id" = .text domainId
  pending : row "tls_status" = .text "pending"
  requester : ∃ userId, truthy (row.text? "requested_by_user_id") = some userId ∧
    (s.parentApp ((row.text? "app_id").getD "") userId).isSome = true
  source : (truthy (row.text? "verify_source")).isSome = true
  challenge : ∃ token records, truthy (row.text? "verify_token") = some token ∧
    s.resolveTxt (lookupName ((row.text? "hostname").getD "")) = .ok records ∧
      token ∈ records.flatten

structure Completes (env : Env) (now : Nat) (domainId : String) (s : VerifyState) (row : Row) :
    Prop where
  returns : (handleDomainVerify env now domainId s).1 = .ok ()
  issued : ∃ row' ∈ (handleDomainVerify env now domainId s).2.domains.rows,
    row' "id" = .text domainId ∧ row' "tls_status" = .text "issued"
  route : ∀ u, getUpstream s.routes ((row.text? "app_id").getD "") = some u →
    getUpstream (handleDomainVerify env now domainId s).2.routes ("domain-" ++ domainId) = some u

variable {env : Env} {now : Nat} {domainId : String} {s : VerifyState} {row : Row}

theorem handleDomainVerify_eq (env : Env) (now : Nat) (domainId : String)
    (h : s.domains.columns = QueueTable.domains.columns) :
    ∃ e, handleDomainVerify env now domainId s = (.error e, s) := by
  have hclaim : ∃ e, claimQueuedRow s.domains (verifyClaim domainId) now = .error e := by
    cases hupdate : s.domains.update ((verifyClaim domainId).update now) with
    | error e => exact ⟨e,by simp [claimQueuedRow,hupdate,bind,Except.bind]⟩
    | ok result => exact absurd (columns_of_update hupdate) (not_columns_domains h)
  obtain ⟨e,hclaim⟩ := hclaim
  exact ⟨e,by rw [handleDomainVerify,hclaim]⟩

theorem not_completes (h : s.domains.columns = QueueTable.domains.columns) :
    ¬ Completes env now domainId s row := by
  intro hcompletes
  obtain ⟨e,heq⟩ := handleDomainVerify_eq env now domainId h
  have hreturns := hcompletes.returns
  rw [heq] at hreturns
  cases hreturns

/-- A claim is exact on every table but `domains`, and no check of a domain completes. -/
theorem queue_claims_exact_iff (kind : QueueTable) (t : Table) (opts : ClaimOptions) (now : Nat)
    (h : t.columns = kind.columns) :
    (ClaimsExactly t kind.state opts now ↔ kind ≠ .domains) ∧
    ∀ (env : Env) (domainId : String) (s : VerifyState) (row : Row),
      s.domains.columns = QueueTable.domains.columns → Verifiable s domainId row →
      ¬ Completes env now domainId s row :=
  ⟨claimsExactly_iff kind h,fun _ _ _ _ hcolumns _ => not_completes hcolumns⟩

namespace Shop

def queuedBuild : Row
  | "id" => .text "b1"
  | "app_id" => .text "shop"
  | "status" => .text "pending"
  | _ => .null

def builds : Table := ⟨QueueTable.builds.columns,[queuedBuild],List.nodup_singleton _⟩

def domainRow : Row
  | "id" => .text "d1"
  | "app_id" => .text "shop"
  | "hostname" => .text "shop.example.com"
  | "tls_status" => .text "pending"
  | "verify_token" => .text "t0k3n"
  | "requested_by_user_id" => .text "ana"
  | "verify_source" => .text "user"
  | _ => .null

def domainTable (columns : List String) : Table := ⟨columns,[domainRow],List.nodup_singleton _⟩

def verifyState (t : Table) : VerifyState where
  domains := t
  parentApp := fun _ _ => some Caddy.Shop.row.cdn
  resolveTxt := fun _ => .ok [["t0k3n"]]
  routes := []

theorem verifiable : Verifiable (verifyState (domainTable QueueTable.domains.columns)) "d1"
    domainRow where
  mem := List.mem_singleton.mpr rfl
  id := rfl
  pending := rfl
  requester := ⟨"ana",by decide,rfl⟩
  source := by decide
  challenge := ⟨"t0k3n",[["t0k3n"]],by decide,rfl,by decide⟩

end Shop

open Shop

/-- The queued build is claimed. -/
theorem queue_claims_exact_builds : ClaimsExactly builds "status" ⟨"b1",none,none⟩ 5 ∧
      Claimable builds "status" ⟨"b1",none,none⟩ :=
  ⟨(queue_claims_exact_iff .builds builds ⟨"b1",none,none⟩ 5 rfl).1.mpr (by decide),
    queuedBuild,List.mem_singleton.mpr rfl,rfl,"pending",by decide,rfl⟩

/-- The domain's row is pending and its record is there, and the check throws. -/
theorem pending_domain_not_verified :
    ¬ ((∀ (kind : QueueTable) (t : Table) (opts : ClaimOptions) (now : Nat),
          t.columns = kind.columns → ClaimsExactly t kind.state opts now) ∧
        ∀ (env : Env) (now : Nat) (domainId : String) (s : VerifyState) (row : Row),
          s.domains.columns = QueueTable.domains.columns → Verifiable s domainId row →
          Completes env now domainId s row) := by
  rintro ⟨-,hcompletes⟩
  have hdone := hcompletes Caddy.Shop.platform 5 "d1"
    (verifyState (domainTable QueueTable.domains.columns)) domainRow rfl
    verifiable
  exact not_completes rfl hdone

end Ploydok.Queue
