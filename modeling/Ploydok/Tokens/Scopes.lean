import Ploydok.Text.Number
import Mathlib.Data.Set.Finite.List

/-! Personal access tokens: `tokenHasScope`, `auth/scope-rbac.ts`, `auth/pat.ts` and
`routes/api-tokens.ts`. A token is created with any scope that the highest role of its user allows,
whatever the scopes of the token that authenticated the request. -/

namespace Ploydok.Tokens

open Text List

/-! ### Scopes and roles -/

def ALL_SCOPES : List String :=
  ["apps:read", "apps:write", "apps:deploy", "secrets:read", "secrets:write", "databases:read",
    "databases:write", "databases:*", "admin:*"]

/-- `required.split(":")[0]`. -/
def resourceOf (required : String) : String :=
  String.ofList (required.toList.takeWhile (· ≠ ':'))

def tokenHasScope (tokenScopes : List String) (required : String) : Bool :=
  "admin:*" ∈ tokenScopes || required ∈ tokenScopes ||
    (resourceOf required ≠ "" && resourceOf required ++ ":*" ∈ tokenScopes)

inductive RoleLevel where
  | owner
  | admin
  | member
  | guest
  deriving DecidableEq

def rolePriority : RoleLevel → Nat
  | .owner => 4
  | .admin => 3
  | .member => 2
  | .guest => 1

def roleScopeMap : RoleLevel → List String
  | .owner => ["admin:*"]
  | .admin =>
    ["apps:read", "apps:write", "apps:deploy", "secrets:read", "secrets:write", "databases:read",
      "databases:write", "databases:*"]
  | .member => ["apps:read", "databases:read"]
  | .guest => ["apps:read"]

def readRole (role : String) : Option RoleLevel :=
  if role = "owner" then some .owner
  else if role = "admin" then some .admin
  else if role = "member" then some .member
  else if role = "guest" then some .guest
  else none

structure Membership where
  (userId role : String)

/-- One turn of the loop over the memberships; a role without a priority is passed over. -/
def higherRole (maxRole : RoleLevel) (row : Membership) : RoleLevel :=
  match readRole row.role with
  | some role => if rolePriority maxRole < rolePriority role then role else maxRole
  | none => maxRole

def highestRole (memberships : List Membership) (userId : String) : RoleLevel :=
  (memberships.filter (·.userId = userId)).foldl higherRole .guest

def userMaxScopes (memberships : List Membership) (userId : String) : List String :=
  roleScopeMap (highestRole memberships userId)

def assertScopesAllowed (requested allowed : List String) : List String :=
  requested.filter fun scope => !tokenHasScope allowed scope

structure TokenRow where
  (id userId name tokenHash : String)
  bcryptHash : Option String
  scopes : List String
  (expiresAt revokedAt : Option Int)

structure TokenTable where
  rows : List TokenRow
  unique_id : (rows.map (·.id)).Nodup
  unique_hash : (rows.map (·.tokenHash)).Nodup

/-- The insert of `createToken`. Fails on a duplicate id or hash. -/
def TokenTable.insert (table : TokenTable) (row : TokenRow) : Option TokenTable :=
  if h : row.id ∉ table.rows.map (·.id) ∧ row.tokenHash ∉ table.rows.map (·.tokenHash) then
    some
      { rows := table.rows ++ [row]
        unique_id := by
          rw [map_append]
          exact nodup_append.mpr ⟨table.unique_id,by simp,by grind⟩
        unique_hash := by
          rw [map_append]
          exact nodup_append.mpr ⟨table.unique_hash,by simp,by grind⟩ }
  else none

/-- The update of `revokeToken`. -/
def revokeRow (userId tokenId : String) (now : Int) (row : TokenRow) : TokenRow :=
  if row.id = tokenId ∧ row.userId = userId then { row with revokedAt := some now } else row

@[simp] theorem revokeRow_id (userId tokenId : String) (now : Int) (row : TokenRow) :
    (revokeRow userId tokenId now row).id = row.id := by
  unfold revokeRow
  split_ifs <;> rfl

@[simp] theorem revokeRow_tokenHash (userId tokenId : String) (now : Int) (row : TokenRow) :
    (revokeRow userId tokenId now row).tokenHash = row.tokenHash := by
  unfold revokeRow
  split_ifs <;> rfl

def TokenTable.revokeToken (table : TokenTable) (userId tokenId : String) (now : Int) :
    TokenTable where
  rows := table.rows.map (revokeRow userId tokenId now)
  unique_id := by
    simpa [Function.comp_def] using table.unique_id
  unique_hash := by
    simpa [Function.comp_def] using table.unique_hash

/-- The hashes. Tokens are long random texts, on which SHA-256 has no collisions; bcrypt accepts
what it hashed. -/
structure Hashes where
  sha256 : String → String
  sha256_injective : Function.Injective sha256
  bcryptHash : String → String
  compare : String → String → Bool
  compare_bcryptHash : ∀ token, compare token (bcryptHash token) = true

structure AuthUser where
  id : String
  tokenScopes : List String
  patId : String

inductive PatAuthResult where
  | notApplicable
  | invalid
  | ok (user : AuthUser)

def TokenRow.authUser (row : TokenRow) : AuthUser :=
  { id := row.userId, tokenScopes := row.scopes, patId := row.id }

def readPatBearerToken : Option String → Option String
  | none => none
  | some header =>
    if startsWith header.toList "Bearer ".toList then
      let token := header.toList.drop 7
      if startsWith token "ploy_".toList || startsWith token "plk_live_".toList then
        some (String.ofList token)
      else none
    else none

/-- The condition of `getActiveToken`. The `||` between the two tests of the expiry is that of the
language, so a token with an expiry is never found. -/
def TokenRow.active (row : TokenRow) (hash : String) : Bool :=
  row.tokenHash = hash && row.revokedAt.isNone && row.expiresAt.isNone

variable (hashes : Hashes) (users : List String)

/-- The token is that of the row; rows of old tokens have no bcrypt hash. -/
def TokenRow.verifies (row : TokenRow) (token : String) : Bool :=
  match row.bcryptHash with
  | none => true
  | some hash => hashes.compare token hash

def authenticatePat (table : TokenTable) (authorization : Option String) : PatAuthResult :=
  match readPatBearerToken authorization with
  | none => .notApplicable
  | some token =>
    match table.rows.find? (·.active (hashes.sha256 token)) with
    | none => .invalid
    | some row =>
      if row.verifies hashes token && row.userId ∈ users then .ok row.authUser else .invalid

structure CreateBody where
  name : String
  expiresInDays : Option Int
  scopes : Option (List String)

/-- `ApiTokenCreateSchema`. -/
def CreateBody.valid (body : CreateBody) : Bool :=
  1 ≤ jsLength body.name && jsLength body.name ≤ 255 &&
    body.expiresInDays.all (0 < ·) &&
    body.scopes.all fun scopes => 1 ≤ scopes.length && scopes.all (· ∈ ALL_SCOPES)

structure Surroundings where
  (secret id : String)
  now : Int

def scopesToUse (body : CreateBody) (maxScopes : List String) : List String :=
  match body.scopes with
  | some scopes => scopes
  | none => if "admin:*" ∈ maxScopes then ["admin:*"] else ["apps:read"]

def msPerDay : Int := 86400000

def newRow (user : AuthUser) (body : CreateBody) (scopes : List String) (token : String)
    (s : Surroundings) : TokenRow where
  id := s.id
  userId := user.id
  name := body.name
  tokenHash := hashes.sha256 token
  bcryptHash := some (hashes.bcryptHash token)
  scopes := if scopes.length > 0 then scopes else ["admin:*"]
  expiresAt := body.expiresInDays.map (s.now + · * msPerDay)
  revokedAt := none

inductive Refusal where
  | unauthorized
  | invalidBody
  | scopeNotAllowed (denied : List String)
  | insertFailed

structure Grant where
  user : AuthUser
  token : String
  created : TokenRow

def generateToken (secret : String) : String := "plk_live_" ++ secret

/-- `POST /api-tokens` behind `requireAuth`, without a session cookie. -/
def createApiToken (memberships : List Membership) (table : TokenTable)
    (authorization : Option String) (body : Option CreateBody) (s : Surroundings) :
    Except Refusal (Grant × TokenTable) :=
  match authenticatePat hashes users table authorization with
  | .notApplicable | .invalid => .error .unauthorized
  | .ok user =>
    match body.filter CreateBody.valid with
    | none => .error .invalidBody
    | some body =>
      let maxScopes := userMaxScopes memberships user.id
      let scopes := scopesToUse body maxScopes
      let denied := assertScopesAllowed scopes maxScopes
      if denied.length > 0 then .error (.scopeNotAllowed denied)
      else
        let token := generateToken s.secret
        let row := newRow hashes user body scopes token s
        match table.insert row with
        | none => .error .insertFailed
        | some table => .ok (⟨user,token,row⟩, table)

inductive Request where
  | create (authorization : Option String) (body : Option CreateBody) (s : Surroundings)
  | revoke (authorization : Option String) (tokenId : String) (now : Int)
  | other

def handle (memberships : List Membership) (table : TokenTable) :
    Request → Option Grant × TokenTable
  | .create authorization body s =>
    match createApiToken hashes users memberships table authorization body s with
    | .ok (grant, table) => (some grant, table)
    | .error _ => (none, table)
  | .revoke authorization tokenId now =>
    match authenticatePat hashes users table authorization with
    | .ok user => (none, table.revokeToken user.id tokenId now)
    | _ => (none, table)
  | .other => (none, table)

def grants (memberships : Nat → List Membership) (table : TokenTable) :
    List Request → List Grant
  | [] => []
  | req :: reqs =>
    let (grant, table') := handle hashes users (memberships 0) table req
    grant.toList ++ grants (fun i => memberships (i + 1)) table' reqs

def Implied (scopes required : List String) : Prop :=
  ∀ scope ∈ required, tokenHasScope scopes scope = true

inductive Descends (log : List Grant) (user : AuthUser) : AuthUser → Prop where
  | self : Descends log user user
  | step {grant : Grant} : grant ∈ log → Descends log user grant.user →
      Descends log user grant.created.authUser

/-- No sequence of requests makes a token that exceeds the one it was made with or the one it
started from. -/
def NoEscalation (memberships : Nat → List Membership) (table : TokenTable) : Prop :=
  ∀ reqs : List Request, let log := grants hashes users memberships table reqs
    (∀ grant ∈ log, Implied grant.user.tokenScopes grant.created.scopes) ∧
      ∀ user user', Descends log user user' → Implied user.tokenScopes user'.tokenScopes

theorem tokenHasScope_iff :
    tokenHasScope scopes required = true ↔ "admin:*" ∈ scopes ∨ required ∈ scopes ∨
      resourceOf required ≠ "" ∧ resourceOf required ++ ":*" ∈ scopes := by
  simp [tokenHasScope,or_assoc]

variable {scopes : List String} {scope : String}

theorem tokenHasScope_self (h : scope ∈ scopes) :
    tokenHasScope scopes scope = true := tokenHasScope_iff.mpr (.inr (.inl h))

theorem resourceOf_append (required : String) :
    resourceOf (resourceOf required ++ ":*") = resourceOf required := by
  have hnot : ∀ c ∈ required.toList.takeWhile (· ≠ ':'), (fun c => decide (c ≠ ':')) c = true := by
    intro c hc
    exact mem_takeWhile_imp (p := fun c => decide (c ≠ ':')) hc
  have hcolon : ":*".toList = [':', '*'] := String.toList_ofList
  unfold resourceOf
  rw [String.toList_append,String.toList_ofList,hcolon,takeWhile_append_of_pos hnot]
  simp

theorem Implied.tokenHasScope (h : Implied scopes implied)
    (hreq : tokenHasScope implied required = true) : tokenHasScope scopes required = true := by
  rcases tokenHasScope_iff.mp hreq with hadmin | hmem | ⟨hne,hmem⟩
  · have hall := tokenHasScope_iff.mp (h _ hadmin)
    have hresource : resourceOf "admin:*" ++ ":*" = "admin:*" := by decide
    rw [hresource] at hall
    exact tokenHasScope_iff.mpr (.inl (by tauto))
  · exact h _ hmem
  · have hall := tokenHasScope_iff.mp (h _ hmem)
    rw [resourceOf_append] at hall
    exact tokenHasScope_iff.mpr (by tauto)

theorem Descends.implied (hlog : ∀ grant ∈ log, Implied grant.user.tokenScopes grant.created.scopes)
    (h : Descends log user user') : Implied user.tokenScopes user'.tokenScopes := by
  induction h with
  | self => exact fun _ hscope => tokenHasScope_self hscope
  | step hgrant _ ih => exact fun scope hscope => ih.tokenHasScope (hlog _ hgrant scope hscope)

theorem apps_read_allowed (role : RoleLevel) :
    tokenHasScope (roleScopeMap role) "apps:read" = true := by
  cases role <;> decide

theorem databases_read_allowed (h : role ≠ .guest) :
    tokenHasScope (roleScopeMap role) "databases:read" = true := by
  cases role with
  | guest => exact absurd rfl h
  | owner | admin | member => decide

theorem eq_apps_read_of_tokenHasScope
    (h : tokenHasScope ["apps:read"] scope = true) : scope = "apps:read" := by
  rcases tokenHasScope_iff.mp h with hadmin | hmem | ⟨-,hmem⟩
  · exact absurd (mem_singleton.mp hadmin) (by decide)
  · exact mem_singleton.mp hmem
  · have hread : "apps:read".toList.getLast? = some 'd' := getLast?_ofList rfl
    have hstar := getLast?_append_string (a := resourceOf scope) (b := ":*") (getLast?_ofList rfl)
    rw [mem_singleton.mp hmem,hread] at hstar
    cases hstar

variable {hashes users}

theorem TokenTable.find?_eq_some_iff (table : TokenTable) (hash : String) (row : TokenRow) :
    table.rows.find? (·.active hash) = some row ↔ row ∈ table.rows ∧ row.active hash = true := by
  constructor
  · intro h
    have hactive := find?_some h
    exact ⟨mem_of_find?_eq_some h,hactive⟩
  · rintro ⟨hmem,hactive⟩
    cases hfind : table.rows.find? (·.active hash) with
    | none => exact absurd hactive (find?_eq_none.mp hfind row hmem)
    | some other =>
      -- the hashes are unique
      have hother := find?_some hfind
      simp only [TokenRow.active,Bool.and_eq_true,decide_eq_true_eq] at hactive hother
      have hhash : other.tokenHash = row.tokenHash := hother.1.1.trans hactive.1.1.symm
      rw [inj_on_of_nodup_map table.unique_hash (mem_of_find?_eq_some hfind) hmem hhash]

theorem authenticatePat_eq_ok_iff :
    authenticatePat hashes users table authorization = .ok user ↔
      ∃ token row, readPatBearerToken authorization = some token ∧ row ∈ table.rows ∧
        row.active (hashes.sha256 token) = true ∧ row.verifies hashes token = true ∧
        row.userId ∈ users ∧ row.authUser = user := by
  constructor
  · fun_cases authenticatePat hashes users table authorization <;> rintro ⟨⟩
    next token hread row hfind hok =>
    obtain ⟨hmem,hactive⟩ := (table.find?_eq_some_iff _ _).mp hfind
    rw [Bool.and_eq_true,decide_eq_true_eq] at hok
    exact ⟨token,row,hread,hmem,hactive,hok.1,hok.2,rfl⟩
  · rintro ⟨token,row,hread,hmem,hactive,hverifies,huser,rfl⟩
    rw [authenticatePat,hread]
    simp [(table.find?_eq_some_iff _ _).mpr ⟨hmem,hactive⟩,hverifies,huser]

theorem scopesToUse_ne_nil (h : body.valid = true) (maxScopes : List String) :
    scopesToUse body maxScopes ≠ [] := by
  unfold scopesToUse
  split
  · next scopes hscopes =>
    rintro rfl
    simp [CreateBody.valid,hscopes] at h
  · split_ifs <;> simp

theorem newRow_scopes (hashes : Hashes) (user : AuthUser) (body : CreateBody) (h : scopes ≠ [])
    (token : String) (s : Surroundings) :
    (newRow hashes user body scopes token s).scopes = scopes := by
  simp [newRow,length_pos_of_ne_nil h]

theorem implied_of_assertScopesAllowed (h : (assertScopesAllowed requested allowed).length = 0) :
    Implied allowed requested := by
  intro scope hscope
  have hnot := filter_eq_nil_iff.mp (eq_nil_of_length_eq_zero h) scope hscope
  simpa using hnot

variable {authorization : Option String} {table' table : TokenTable} {grant : Grant}
  {row : TokenRow}

theorem createApiToken_eq_ok
    (h : createApiToken hashes users memberships table authorization body s = .ok (grant, table')) :
    authenticatePat hashes users table authorization = .ok grant.user ∧
      grant.created.userId = grant.user.id ∧ grant.created.scopes ≠ [] ∧
      Implied (userMaxScopes memberships grant.user.id) grant.created.scopes ∧
      table.insert grant.created = some table' := by
  revert h
  fun_cases createApiToken hashes users memberships table authorization body s <;> rintro ⟨⟩
  next user hauth body' hbody _ _ _ hdenied _ _ hinsert =>
  have hvalid : body'.valid = true := (Option.filter_eq_some_iff.mp hbody).2
  have hne := scopesToUse_ne_nil hvalid (userMaxScopes memberships user.id)
  have hscopes := newRow_scopes hashes user body' hne (generateToken s.secret) s
  refine ⟨hauth,rfl,?_,?_,hinsert⟩
  · rw [hscopes]
    exact hne
  · rw [hscopes]
    exact implied_of_assertScopesAllowed (Nat.eq_zero_of_not_pos hdenied)

theorem TokenTable.rows_of_insert
    (h : table.insert row = some table') : table'.rows = table.rows ++ [row] := by
  unfold TokenTable.insert at h
  split_ifs at h
  cases h
  rfl

def Usable (hashes : Hashes) (users : List String) (table : TokenTable) (user : AuthUser) : Prop :=
  ∃ authorization, authenticatePat hashes users table authorization = .ok user

variable {user : AuthUser}

theorem Usable.of_insert (hinsert : table.insert row = some table')
    (h : Usable hashes users table' user) :
    Usable hashes users table user ∨ user = row.authUser := by
  obtain ⟨authorization,h⟩ := h
  obtain ⟨token,found,hread,hmem,hrest⟩ := authenticatePat_eq_ok_iff.mp h
  rw [TokenTable.rows_of_insert hinsert,mem_append,mem_singleton] at hmem
  rcases hmem with hmem | rfl
  · exact .inl ⟨authorization,authenticatePat_eq_ok_iff.mpr ⟨token,found,hread,hmem,hrest⟩⟩
  · exact .inr hrest.2.2.2.symm

theorem Usable.of_revokeToken (h : Usable hashes users (table.revokeToken userId tokenId now) user) :
    Usable hashes users table user := by
  obtain ⟨authorization,h⟩ := h
  obtain ⟨token,found,hread,hmem,hactive,hrest⟩ := authenticatePat_eq_ok_iff.mp h
  obtain ⟨row,hrow,rfl⟩ := mem_map.mp hmem
  -- a row that is still active is not the revoked one
  have hsame : revokeRow userId tokenId now row = row := by
    unfold revokeRow at hactive ⊢
    split_ifs with hrevoked
    · simp [TokenRow.active,hrevoked] at hactive
    · rfl
  rw [hsame] at hactive hrest
  exact ⟨authorization,authenticatePat_eq_ok_iff.mpr ⟨token,row,hread,hrow,hactive,hrest⟩⟩

def OnlyGuests (hashes : Hashes) (users : List String) (memberships : Nat → List Membership)
    (table : TokenTable) : Prop :=
  ∀ user, Usable hashes users table user →
    (∀ i, highestRole (memberships i) user.id = .guest) ∧
      tokenHasScope user.tokenScopes "apps:read" = true

variable {memberships : Nat → List Membership} {table : TokenTable}

theorem OnlyGuests.handle (h : OnlyGuests hashes users memberships table) (req : Request) :
    (∀ grant ∈ (handle hashes users (memberships 0) table req).1,
      Implied grant.user.tokenScopes grant.created.scopes) ∧
    OnlyGuests hashes users (fun i => memberships (i + 1))
      (Tokens.handle hashes users (memberships 0) table req).2 := by
  have hlater : OnlyGuests hashes users (fun i => memberships (i + 1)) table :=
    fun user huser => ⟨fun i => (h user huser).1 (i + 1),(h user huser).2⟩
  cases req with
  | other => exact ⟨by simp [Tokens.handle],hlater⟩
  | revoke authorization tokenId now =>
    simp only [Tokens.handle]
    split
    · exact ⟨by simp,fun user huser => hlater user huser.of_revokeToken⟩
    · exact ⟨by simp,hlater⟩
  | create authorization body s =>
    simp only [Tokens.handle]
    split
    · next grant table' hcreate =>
      obtain ⟨hauth,huser,hne,himplied,hinsert⟩ := createApiToken_eq_ok hcreate
      obtain ⟨hguest,hread⟩ := h grant.user ⟨authorization,hauth⟩
      -- a guest may ask for one scope only
      have hscopes : ∀ scope ∈ grant.created.scopes, scope = "apps:read" := by
        intro scope hscope
        have hallowed := himplied scope hscope
        rw [userMaxScopes,hguest 0] at hallowed
        exact eq_apps_read_of_tokenHasScope hallowed
      refine ⟨?_,?_⟩
      · rintro _ ⟨⟩ scope hscope
        rw [hscopes scope hscope]
        exact hread
      · intro user husable
        rcases husable.of_insert hinsert with hold | rfl
        · exact hlater user hold
        · obtain ⟨scope,hscope⟩ := exists_mem_of_ne_nil _ hne
          refine ⟨fun i => ?_,tokenHasScope_self (hscopes scope hscope ▸ hscope)⟩
          show highestRole (memberships (i + 1)) grant.created.userId = .guest
          rw [huser]
          exact hguest (i + 1)
    · exact ⟨by simp,hlater⟩

theorem OnlyGuests.grants (h : OnlyGuests hashes users memberships table) (reqs : List Request) :
    ∀ grant ∈ grants hashes users memberships table reqs,
      Implied grant.user.tokenScopes grant.created.scopes := by
  induction reqs generalizing memberships table with
  | nil => exact fun grant hgrant => absurd hgrant not_mem_nil
  | cons req reqs ih =>
    obtain ⟨hfirst,hrest⟩ := h.handle req
    intro grant hgrant
    rcases mem_append.mp hgrant with hgrant | hgrant
    · exact hfirst grant (Option.mem_toList.mp hgrant)
    · exact ih hrest grant hgrant

instance infinite_string : Infinite String :=
  Infinite.of_injective (fun n : Nat => String.ofList (replicate n 'a')) fun m n h => by
    simpa using congrArg String.length h

theorem generateToken_injective : Function.Injective generateToken := by
  intro a b h
  have hchars := congrArg String.toList h
  simp only [generateToken,String.toList_append] at hchars
  exact String.toList_inj.mp (append_cancel_left hchars)

theorem exists_fresh (hashes : Hashes) (table : TokenTable) :
    ∃ s : Surroundings, s.id ∉ table.rows.map (·.id) ∧
      hashes.sha256 (generateToken s.secret) ∉ table.rows.map (·.tokenHash) := by
  obtain ⟨id,hid⟩ := (finite_toSet (table.rows.map (·.id))).exists_notMem
  have hinj := hashes.sha256_injective.comp generateToken_injective
  obtain ⟨secret,hsecret⟩ :=
    ((finite_toSet (table.rows.map (·.tokenHash))).preimage hinj.injOn).exists_notMem
  exact ⟨⟨secret,id,0⟩,hid,hsecret⟩

theorem readPatBearerToken_generateToken (secret : String) :
    readPatBearerToken (some ("Bearer " ++ generateToken secret)) =
      some (generateToken secret) := by
  have hbearer : "Bearer ".toList.length = 7 := by decide
  have hstart : startsWith ("Bearer " ++ generateToken secret).toList "Bearer ".toList = true := by
    rw [startsWith_iff,String.toList_append]
    exact prefix_append _ _
  have hlive : startsWith (generateToken secret).toList "plk_live_".toList = true := by
    rw [startsWith_iff,generateToken,String.toList_append]
    exact prefix_append _ _
  have hdrop : ("Bearer " ++ generateToken secret).toList.drop 7 =
      (generateToken secret).toList := by
    rw [String.toList_append,← hbearer,drop_left]
  unfold readPatBearerToken
  dsimp only
  rw [if_pos hstart,hdrop,hlive,Bool.or_true,if_pos rfl,String.ofList_toList]

def oneScope (scope : String) : CreateBody :=
  { name := "t", expiresInDays := none, scopes := some [scope] }

theorem createApiToken_oneScope {memberships : List Membership}
    (hauth : authenticatePat hashes users table authorization = .ok user)
    (hall : scope ∈ ALL_SCOPES)
    (hallowed : tokenHasScope (userMaxScopes memberships user.id) scope = true) :
    ∃ s grant table', createApiToken hashes users memberships table authorization
        (some (oneScope scope)) s = .ok (grant, table') ∧
      grant.user = user ∧ grant.created.scopes = [scope] ∧ grant.created.userId = user.id ∧
      ∃ bearer, authenticatePat hashes users table' bearer = .ok grant.created.authUser := by
  obtain ⟨s,hid,hhash⟩ := exists_fresh hashes table
  set row := newRow hashes user (oneScope scope) [scope] (generateToken s.secret) s with hrow
  obtain ⟨table',hinsert⟩ : ∃ table', table.insert row = some table' := by
    unfold TokenTable.insert
    rw [dif_pos ⟨hid,hhash⟩]
    exact ⟨_,rfl⟩
  have hvalid : (some (oneScope scope)).filter CreateBody.valid = some (oneScope scope) := by
    have hname : jsLength "t" = 1 := by decide
    simp [Option.filter,CreateBody.valid,oneScope,hall,hname]
  have hdenied : assertScopesAllowed [scope] (userMaxScopes memberships user.id) = [] := by
    simp [assertScopesAllowed,hallowed]
  have huser : row.userId ∈ users := by
    obtain ⟨-,found,-,-,-,-,huser,hfound⟩ := authenticatePat_eq_ok_iff.mp hauth
    rw [← hfound] at hrow
    exact hrow ▸ huser
  refine ⟨s,⟨user,generateToken s.secret,row⟩,table',?_,rfl,
    newRow_scopes hashes user (oneScope scope) (by simp) _ s,rfl,
    some ("Bearer " ++ generateToken s.secret),?_⟩
  · unfold createApiToken
    have hscopes : scopesToUse (oneScope scope) (userMaxScopes memberships user.id) = [scope] :=
      rfl
    simp [hauth,hvalid,hscopes,hdenied,← hrow,hinsert]
  · refine authenticatePat_eq_ok_iff.mpr ⟨generateToken s.secret,row,
      readPatBearerToken_generateToken s.secret,?_,?_,?_,huser,rfl⟩
    · rw [TokenTable.rows_of_insert hinsert]
      exact mem_append_right _ mem_cons_self
    · simp [TokenRow.active,hrow,newRow,oneScope]
    · exact hashes.compare_bcryptHash _

theorem grants_cons_ok (h : handle hashes users (memberships 0) table req = (some grant, table'))
    (reqs : List Request) : grants hashes users memberships table (req :: reqs) =
      grant :: grants hashes users (fun i => memberships (i + 1)) table' reqs := by
  simp [grants,h]

theorem handle_create {memberships : List Membership}
    (h : createApiToken hashes users memberships table authorization body s = .ok (grant, table')) :
    handle hashes users memberships table (.create authorization body s) =
      (some grant, table') := by
  simp only [handle,h]

theorem grants_replicate_other (k : Nat) (reqs : List Request) :
    grants hashes users memberships table (replicate k .other ++ reqs) =
      grants hashes users (fun i => memberships (i + k)) table reqs := by
  induction k generalizing memberships with
  | zero => rfl
  | succ k ih =>
    rw [replicate_succ,cons_append,grants]
    simp only [handle,Option.toList_none,nil_append,ih]
    congr 1

theorem implied_of_noEscalation (h : NoEscalation hashes users memberships table)
    (husable : Usable hashes users table user) (k : Nat) (hfirst : first ∈ ALL_SCOPES)
    (hlater : later ∈ ALL_SCOPES)
    (hallowed : tokenHasScope (userMaxScopes (memberships 0) user.id) first = true)
    (hallowed' : tokenHasScope (userMaxScopes (memberships (k + 1)) user.id) later = true) :
    tokenHasScope user.tokenScopes first = true ∧ tokenHasScope [first] later = true := by
  obtain ⟨authorization,hauth⟩ := husable
  obtain ⟨s,grant,table1,hcreate,huser,hscopes,huserId,bearer,hbearer⟩ :=
    createApiToken_oneScope hauth hfirst hallowed
  rw [← huserId] at hallowed'
  obtain ⟨s',grant',table2,hcreate',huser',hscopes',-,-⟩ :=
    createApiToken_oneScope hbearer hlater hallowed'
  have hlog : grants hashes users memberships table
      (.create authorization (some (oneScope first)) s ::
        (replicate k .other ++ [.create bearer (some (oneScope later)) s'])) =
      [grant, grant'] := by
    rw [grants_cons_ok (handle_create hcreate),grants_replicate_other,
      grants_cons_ok (handle_create (by simpa using hcreate'))]
    rfl
  have himplied : ∀ g ∈ [grant, grant'], Implied g.user.tokenScopes g.created.scopes := by
    rw [← hlog]
    exact (h _).1
  constructor
  · have hgrant := himplied grant (by simp) first (by rw [hscopes]; simp)
    rwa [huser] at hgrant
  · have hgrant := himplied grant' (by simp) later (by rw [hscopes']; simp)
    rw [huser'] at hgrant
    have hfirstScopes : grant.created.authUser.tokenScopes = [first] := hscopes
    rwa [hfirstScopes] at hgrant

/-- Tokens cannot be escalated exactly if all who have a usable token are guests, with tokens
that read apps. -/
theorem noEscalation_iff (hashes : Hashes) (users : List String)
    (memberships : Nat → List Membership) (table : TokenTable) :
    NoEscalation hashes users memberships table ↔ OnlyGuests hashes users memberships table := by
  constructor
  · intro h user husable
    have happs : ∀ i, tokenHasScope (userMaxScopes (memberships i) user.id) "apps:read" = true :=
      fun i => apps_read_allowed _
    have hdatabases : ∀ i, highestRole (memberships i) user.id ≠ .guest →
        tokenHasScope (userMaxScopes (memberships i) user.id) "databases:read" = true :=
      fun i hi => databases_read_allowed hi
    refine ⟨fun i => ?_,?_⟩
    · by_contra hrole
      cases i with
      | zero =>
        -- a token that reads databases makes one that reads apps
        have hno := (implied_of_noEscalation h husable 0 (by decide) (by decide)
          (hdatabases 0 hrole) (happs 1)).2
        revert hno
        decide
      | succ k =>
        have hno := (implied_of_noEscalation h husable k (by decide) (by decide) (happs 0)
          (hdatabases (k + 1) hrole)).2
        revert hno
        decide
    · exact (implied_of_noEscalation h husable 0 (by decide) (by decide) (happs 0) (happs 1)).1
  · intro h reqs
    exact ⟨h.grants reqs,fun user user' hdescends => hdescends.implied (h.grants reqs)⟩

def plainHashes : Hashes where
  sha256 := id
  sha256_injective := Function.injective_id
  bcryptHash := id
  compare token hash := token = hash
  compare_bcryptHash := by simp

def readerRow : TokenRow :=
  { id := "t_1", userId := "u_1", name := "ci", tokenHash := "ploy_a", bcryptHash := none
    scopes := ["apps:read"], expiresAt := none, revokedAt := none }

def readerTable : TokenTable := ⟨[readerRow],by simp,by simp⟩

def ownerOf (_ : Nat) : List Membership := [⟨"u_1","owner"⟩]

def adminRequest : Request :=
  .create (some "Bearer ploy_a")
    (some { name := "x", expiresInDays := none, scopes := some ["admin:*"] }) ⟨"b","t_2",0⟩

theorem reader_creates_admin : (grants plainHashes ["u_1"] ownerOf readerTable [adminRequest]).map
        (fun grant => (grant.user.tokenScopes, grant.created.scopes)) =
      [(["apps:read"], ["admin:*"])] ∧
    ¬ NoEscalation plainHashes ["u_1"] ownerOf readerTable := by
  have hgrants : (grants plainHashes ["u_1"] ownerOf readerTable [adminRequest]).map
      (fun grant => (grant.user.tokenScopes, grant.created.scopes)) =
      [(["apps:read"], ["admin:*"])] := by decide +kernel
  refine ⟨hgrants,fun h => ?_⟩
  obtain ⟨grant,hgrant,hscopes⟩ := mem_map.mp
    (hgrants ▸ mem_cons_self : (["apps:read"], ["admin:*"]) ∈ _)
  have himplied := (h [adminRequest]).1 grant hgrant
  rw [(Prod.mk.inj hscopes).1,(Prod.mk.inj hscopes).2] at himplied
  have hadmin := himplied "admin:*" mem_cons_self
  revert hadmin
  decide

end Ploydok.Tokens
