import Ploydok.Database.Connection

/-! The user table of a database engine under the commands of a password rotation. PostgreSQL clips
identifiers to 63 bytes; PostgreSQL and MongoDB refuse to create a user that exists; the ACL of
Redis adds a password to an existing user and does not drop its `default` user. -/

namespace Ploydok.Database

open Function

inductive Command where
  | createUser (oldUser newUser newPwd database : String)
  | dropUser (oldUser newUser database : String)
  deriving DecidableEq

def Command.argv (kind : DbKind) : Command → Option (List String)
  | .createUser oldUser newUser newPwd database =>
    match kind with
    | .postgres =>
      let sql := String.intercalate " "
        ["CREATE USER \"" ++ newUser ++ "\" WITH PASSWORD '" ++ newPwd ++ "';",
         "GRANT ALL PRIVILEGES ON DATABASE \"" ++ database ++ "\" TO \"" ++ newUser ++ "\";",
         "GRANT ALL PRIVILEGES ON ALL TABLES IN SCHEMA public TO \"" ++ newUser ++ "\";",
         "GRANT ALL PRIVILEGES ON ALL SEQUENCES IN SCHEMA public TO \"" ++ newUser ++ "\";",
         "GRANT ALL PRIVILEGES ON ALL FUNCTIONS IN SCHEMA public TO \"" ++ newUser ++ "\";",
         "ALTER DEFAULT PRIVILEGES IN SCHEMA public GRANT ALL ON TABLES TO \"" ++ newUser ++
           "\";"]
      some ["psql", "-U", oldUser, "-d", database, "-c", sql]
    | .redis => some ["redis-cli", "ACL SETUSER " ++ newUser ++ " on >" ++ newPwd ++ " ~* &* +@all"]
    | .mongo =>
      let js := "db.getSiblingDB(\"" ++ database ++ "\").createUser(\x7b user: \"" ++ newUser ++
        "\", pwd: \"" ++ newPwd ++ "\", roles: [\x7b role: \"readWrite\", db: \"" ++ database ++
        "\" \x7d, \x7b role: \"dbOwner\", db: \"" ++ database ++ "\" \x7d] \x7d)"
      some ["mongosh", "--eval", js]
    | _ => none
  | .dropUser oldUser newUser database =>
    match kind with
    | .postgres =>
      let sql := "REASSIGN OWNED BY \"" ++ oldUser ++ "\" TO \"" ++ newUser ++
        "\"; DROP OWNED BY \"" ++ oldUser ++ "\"; DROP USER IF EXISTS \"" ++ oldUser ++ "\";"
      some ["psql", "-U", newUser, "-d", database, "-c", sql]
    | .redis => some ["redis-cli", "ACL DELUSER " ++ oldUser]
    | .mongo =>
      some ["mongosh", "--eval",
        "db.getSiblingDB(\"" ++ database ++ "\").dropUser(\"" ++ oldUser ++ "\")"]
    | _ => none

/-- The passwords each user can log in with; a user without one does not exist. -/
abbrev Users := String → List String

/-- The longest front part of a text that fits into a number of bytes. -/
def clip : Nat → List Char → List Char
  | _, [] => []
  | room, c :: cs => if c.utf8Size ≤ room then c :: clip (room - c.utf8Size) cs else []

def userKey (kind : DbKind) (name : String) : String :=
  match kind with
  | .postgres => String.ofList (clip 63 name.toList)
  | .redis => if name = "" then "default" else name
  | _ => name

def admits (kind : DbKind) (cmd : Command) (users : Users) : Bool :=
  match cmd with
  | .createUser _ newUser _ _ => kind = .redis || (users (userKey kind newUser)).isEmpty
  | .dropUser _ _ _ => true

def runCommand (kind : DbKind) (cmd : Command) (users : Users) : Users :=
  match cmd with
  | .createUser _ newUser newPwd _ =>
    update users (userKey kind newUser) (users (userKey kind newUser) ++ [newPwd])
  | .dropUser oldUser _ _ =>
    if kind = .redis ∧ (oldUser = "" ∨ oldUser = "default") then users
    else update users (userKey kind oldUser) []

variable {kind : DbKind} {users : Users} {oldUser newUser newPwd database key pwd : String}

theorem mem_runCommand_createUser :
    newPwd ∈ runCommand kind (.createUser oldUser newUser newPwd database) users
      (userKey kind newUser) := by
  simp [runCommand]

theorem mem_runCommand_createUser_of_mem (h : pwd ∈ users key) :
    pwd ∈ runCommand kind (.createUser oldUser newUser newPwd database) users key := by
  by_cases hk : key = userKey kind newUser
  · subst hk
    simp [runCommand,h]
  · simpa [runCommand,hk] using h

theorem runCommand_dropUser_of_ne (h : key ≠ userKey kind oldUser) :
    runCommand kind (.dropUser oldUser newUser database) users key = users key := by
  simp only [runCommand]
  split
  · rfl
  · exact update_of_ne h _ _

theorem userKey_ne_of_admits (hkind : kind ≠ .redis)
    (h : admits kind (.createUser oldUser newUser newPwd database) users = true)
    (hold : pwd ∈ users (userKey kind oldUser)) : userKey kind newUser ≠ userKey kind oldUser := by
  intro he
  have hempty : users (userKey kind newUser) = [] := by
    simpa [admits,hkind] using h
  rw [he] at hempty
  simp [hempty] at hold

theorem userKey_redis_eq_iff : userKey .redis name = "default_new" ↔ name = "default_new" := by
  unfold userKey
  dsimp only
  split
  · next h =>
    subst h
    decide
  · rfl

end Ploydok.Database
