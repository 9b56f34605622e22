import Ploydok.Effect.Pool

/-! Refresh tokens: `POST /auth/refresh`, `POST /auth/logout`, `DELETE /auth/sessions/:id` and `POST
/auth/sessions/revoke-others` of `routes/auth.ts`, over `auth/sessions.ts`. A rotation is a
compare-and-set on the hash; statements, the clock and the passing of time are calls. -/

namespace Ploydok.Auth.Sessions

open Effect Function

/-! ### The tables -/

structure SessionRow where
  (userId refreshTokenHash : String)
  lastSeenAt : Int
  (rotatedAt revokedAt : Option Int)
  expiresAt : Int

structure Rotation where
  (sessionId old new : String)
  time : Int
  deriving DecidableEq

structure World where
  now : Int
  sessions : String → Option SessionRow
  users : List String
  rotations : List Rotation

def SESSION_TTL_DAYS : Int := 7

inductive Reading where
  | expiry
  | rotation
  | grace
  | revocation

inductive Call where
  | dateNow (why : Reading)
  | selectUnrevoked (sessionId : String)
  | selectRotation (sessionId : String)
  | selectSession (sessionId : String)
  | selectUser (userId : String)
  | rotate (sessionId currentHash newHash : String) (now : Int)
  | revokeSession (sessionId : String) (now : Int)
  | revokeSessionFamily (sessionId : String) (now : Int)
  | revokeOtherSessions (userId currentSessionId : String) (now : Int)
  | elapse (ms : Nat)

structure RotationColumns where
  (rotatedAt revokedAt : Option Int)

abbrev Call.Res : Call → Type
  | .dateNow _ => Int
  | .selectUnrevoked _ => Option SessionRow
  | .selectRotation _ => Option RotationColumns
  | .selectSession _ => Option SessionRow
  | .selectUser _ | .rotate .. => Bool
  | _ => Unit

abbrev SessionSig : Sig := ⟨Call,Call.Res⟩

abbrev SessionProg (α : Type) := Prog SessionSig String α

abbrev ask (o : Call) : SessionProg o.Res := Prog.perform (S := SessionSig) o

namespace World

def put (w : World) (sessionId : String) (row : SessionRow) : World :=
  { w with sessions := update w.sessions sessionId (some row) }

def revoke (row : SessionRow) (now : Int) : SessionRow := { row with revokedAt := some now }

def revokeOther (userId currentSessionId : String) (now : Int) (sessionId : String)
    (row : SessionRow) : SessionRow :=
  if row.userId = userId ∧ row.revokedAt.isNone ∧ sessionId ≠ currentSessionId then
    revoke row now
  else row

def rotated (row : SessionRow) (newHash : String) (now : Int) : SessionRow :=
  { row with
    refreshTokenHash := newHash
    lastSeenAt := now
    rotatedAt := some now
    expiresAt := now + SESSION_TTL_DAYS * 24 * 60 * 60 * 1000 }

end World

open World in
def serve : Handler SessionSig String World
  | .dateNow _, w => (.ok w.now, w)
  | .selectUnrevoked sessionId, w => (.ok ((w.sessions sessionId).filter (·.revokedAt.isNone)), w)
  | .selectRotation sessionId, w =>
    (.ok ((w.sessions sessionId).map fun row => ⟨row.rotatedAt,row.revokedAt⟩), w)
  | .selectSession sessionId, w => (.ok (w.sessions sessionId), w)
  | .selectUser userId, w => (.ok (w.users.contains userId), w)
  | .rotate sessionId currentHash newHash now, w =>
    match (w.sessions sessionId).filter fun row =>
        row.refreshTokenHash = currentHash ∧ row.revokedAt.isNone with
    | none => (.ok false, w)
    | some row =>
      (.ok true, { w.put sessionId (rotated row newHash now) with
        rotations := w.rotations ++ [⟨sessionId,currentHash,newHash,w.now⟩] })
  | .revokeSession sessionId now, w =>
    match w.sessions sessionId with
    | none => (.ok (), w)
    | some row => (.ok (), w.put sessionId (revoke row now))
  | .revokeSessionFamily sessionId now, w =>
    match (w.sessions sessionId).filter (·.revokedAt.isNone) with
    | none => (.ok (), w)
    | some row => (.ok (), w.put sessionId (revoke row now))
  | .revokeOtherSessions userId currentSessionId now, w =>
    (.ok (), { w with sessions := fun sessionId =>
      (w.sessions sessionId).map (revokeOther userId currentSessionId now sessionId) })
  | .elapse ms, w => (.ok (), { w with now := w.now + ms })

def verifyRefreshToken (sessionId rawToken : String) : SessionProg (Option SessionRow) :=
  (ask (.selectUnrevoked sessionId)).bind fun found =>
    match found with
    | none => .ret none
    | some session => (ask (.dateNow .expiry)).bind fun now =>
      if session.expiresAt < now then .ret none
      else .ret (if session.refreshTokenHash = rawToken then some session else none)

def rotateRefreshToken (sessionId currentRefreshTokenHash newToken : String) :
    SessionProg (Option String) :=
  (ask (.dateNow .rotation)).bind fun now =>
    (ask (.rotate sessionId currentRefreshTokenHash newToken now)).bind fun updated =>
      .ret (if updated then some newToken else none)

def revokeSession (sessionId : String) : SessionProg Unit :=
  (ask (.dateNow .revocation)).bind fun now => ask (.revokeSession sessionId now)

def revokeSessionFamily (sessionId : String) : SessionProg Unit :=
  (ask (.dateNow .revocation)).bind fun now => ask (.revokeSessionFamily sessionId now)

def revokeOtherSessions (userId currentSessionId : String) : SessionProg Unit :=
  (ask (.dateNow .revocation)).bind fun now =>
    ask (.revokeOtherSessions userId currentSessionId now)

inductive Answer where
  | error (status : Nat) (code message : String)
  /-- New cookies are set. -/
  | refreshed (sessionId refreshToken : String)
  | noContent

def splitRefreshCookie (cookie : String) : Option (String × String) :=
  match cookie.toList.dropWhile (· ≠ ':') with
  | [] => none
  | _ :: token => some (String.ofList (cookie.toList.takeWhile (· ≠ ':')), String.ofList token)

def GRACE_MS : Int := 10000

def rejectReplay (sessionId : String) : SessionProg Answer :=
  (revokeSessionFamily sessionId).bind fun _ =>
    .ret (.error 401 "UNAUTHENTICATED" "Invalid or expired refresh token")

def rejectConcurrentRotation : SessionProg Answer :=
  .ret (.error 409 "REFRESH_CONFLICT" "Refresh token was rotated by another request")

def rejectToken (sessionId : String) : SessionProg Answer :=
  (ask (.selectRotation sessionId)).bind fun current =>
    match current with
    | some ⟨some rotatedAt,none⟩ => (ask (.dateNow .grace)).bind fun now =>
      if now - rotatedAt < GRACE_MS then rejectConcurrentRotation else rejectReplay sessionId
    | _ => rejectReplay sessionId

def acceptToken (sessionId newToken : String) (session : SessionRow) : SessionProg Answer :=
  (rotateRefreshToken sessionId session.refreshTokenHash newToken).bind fun newRefreshToken =>
    match newRefreshToken with
    | none => rejectConcurrentRotation
    | some newRefreshToken => (ask (.selectUser session.userId)).bind fun found =>
      if found then .ret (.refreshed sessionId newRefreshToken)
      else .ret (.error 404 "NOT_FOUND" "User not found")

/-- `POST /auth/refresh` with the value of its cookie and the token that it generates. -/
def refresh (refreshCookie : Option String) (newToken : String) : SessionProg Answer :=
  match refreshCookie.filter (· ≠ "") with
  | none => .ret (.error 401 "UNAUTHENTICATED" "No refresh token")
  | some cookie =>
    match splitRefreshCookie cookie with
    | none => .ret (.error 401 "UNAUTHENTICATED" "Invalid refresh token format")
    | some (sessionId, rawToken) =>
      (verifyRefreshToken sessionId rawToken).bind fun session =>
        match session with
        | none => rejectToken sessionId
        | some session => acceptToken sessionId newToken session

/-- `DELETE /auth/sessions/:id`. -/
def deleteSession (userId currentSessionId targetId : String) : SessionProg Answer :=
  if targetId = "" then .ret (.error 400 "BAD_REQUEST" "id required")
  else if targetId = currentSessionId then
    .ret (.error 409 "CANNOT_REVOKE_CURRENT" "Use /auth/logout to end current session")
  else (ask (.selectSession targetId)).bind fun found =>
    if found.map (·.userId) = some userId then
      (revokeSession targetId).bind fun _ => .ret .noContent
    else .ret (.error 404 "NOT_FOUND" "Session not found")

inductive Party where
  | refresh (refreshCookie : Option String)
  | logout (sessionId : String)
  | deleteSession (userId currentSessionId targetId : String)
  | revokeOthers (userId currentSessionId : String)
  | clock (ms : Nat)

def Party.program (newToken : String) : Party → SessionProg Answer
  | .refresh refreshCookie => Sessions.refresh refreshCookie newToken
  | .logout sessionId => (revokeSession sessionId).bind fun _ => .ret .noContent
  | .deleteSession userId currentSessionId targetId =>
    Sessions.deleteSession userId currentSessionId targetId
  | .revokeOthers userId currentSessionId =>
    (revokeOtherSessions userId currentSessionId).bind fun _ => .ret .noContent
  | .clock ms => (ask (.elapse ms)).bind fun _ => .ret .noContent

end Ploydok.Auth.Sessions
