import Ploydok.Text.Percent

/-! Connection strings of managed databases, and the environment variables a linked app
gets from one. A connection string is kept as the parsed URL it is the text of, with user and
password percent-encoded. What `rebuildConnectionString` records is read back. -/

namespace Ploydok.Database

open Ploydok.Text

inductive DbKind where
  | postgres | mysql | mariadb | redis | mongo | libsql
  deriving DecidableEq, Repr

/-- A parsed connection string. `URL` lets the credentials of a URL without a host be neither read
nor set. -/
structure ConnUrl where
  (scheme username password hostname port pathname : String)
  searchParams : List (String × String)
  hostname_ne : hostname ≠ ""
  deriving DecidableEq

namespace ConnUrl

/-- `url.toString()`. -/
def href (url : ConnUrl) : String :=
  let password := if url.password = "" then "" else ":" ++ url.password
  let userinfo :=
    if url.username = "" ∧ url.password = "" then "" else url.username ++ password ++ "@"
  let port := if url.port = "" then "" else ":" ++ url.port
  let search := String.intercalate "&" (url.searchParams.map fun p => p.1 ++ "=" ++ p.2)
  url.scheme ++ "://" ++ userinfo ++ url.hostname ++ port ++ url.pathname ++
    (if url.searchParams = [] then "" else "?" ++ search)

/-- `searchParams.has(key)`. -/
def hasParam (url : ConnUrl) (key : String) : Bool := url.searchParams.any (·.1 = key)

/-- `searchParams.set(key, value)` of a parameter that is not there yet. -/
def addParam (url : ConnUrl) (key value : String) : ConnUrl :=
  { url with searchParams := url.searchParams ++ [(key, value)] }

/-- `pathname.replace(/^\//, "").split("?")[0]`. -/
def database (url : ConnUrl) : String :=
  let path := url.pathname.toList
  let path := if path.head? = some '/' then path.tail else path
  String.ofList (path.takeWhile (· ≠ '?'))

def user (url : ConnUrl) : Option String := decodeURIComponent url.username

def secret (url : ConnUrl) : Option String := decodeURIComponent url.password

end ConnUrl

def doctrinePostgresDefaults : List (String × String) :=
  [("serverVersion", "16"), ("charset", "utf8")]

def normalizePostgresConnectionString (url : ConnUrl) : ConnUrl :=
  doctrinePostgresDefaults.foldl
    (fun url p => if url.hasParam p.1 then url else url.addParam p.1 p.2) url

/-- The setters of `URL` percent-encode what is not allowed; an encoded component has nothing left
to encode. -/
def rebuildConnectionString (oldConnStr : ConnUrl) (newPwd newUser : String) : ConnUrl :=
  { oldConnStr with
    password := encodeURIComponent newPwd
    username := encodeURIComponent newUser }

@[simp] theorem user_rebuildConnectionString (url : ConnUrl) (pwd user : String) :
    (rebuildConnectionString url pwd user).user = some user :=
  decodeURIComponent_encodeURIComponent user

@[simp] theorem secret_rebuildConnectionString (url : ConnUrl) (pwd user : String) :
    (rebuildConnectionString url pwd user).secret = some pwd :=
  decodeURIComponent_encodeURIComponent pwd

def buildSecretVars (kind : DbKind) (connString : ConnUrl) (envPrefix newUser newPwd : String) :
    List (String × String) :=
  let url := if kind = .postgres then normalizePostgresConnectionString connString else connString
  [(envPrefix ++ "_URL", url.href), (envPrefix ++ "_PASSWORD", newPwd)] ++
    (if kind = .redis then [] else [(envPrefix ++ "_USER", newUser)]) ++
    [(envPrefix ++ "_HOST", url.hostname), (envPrefix ++ "_PORT", url.port)]

theorem password_mem_buildSecretVars (kind : DbKind) (connString : ConnUrl)
    (envPrefix newUser newPwd : String) :
    (envPrefix ++ "_PASSWORD", newPwd) ∈
      buildSecretVars kind connString envPrefix newUser newPwd := by
  simp [buildSecretVars]

theorem nodup_keys_buildSecretVars (kind : DbKind) (connString : ConnUrl)
    (envPrefix newUser newPwd : String) :
    ((buildSecretVars kind connString envPrefix newUser newPwd).map Prod.fst).Nodup := by
  by_cases h : kind = .redis <;> simp [buildSecretVars,h,String.append_right_inj]

end Ploydok.Database
