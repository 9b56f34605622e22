import Ploydok.Auth.Totp
import Ploydok.Effect.Pool
import Ploydok.Text.Percent
import Mathlib.Data.List.Sort

/-! The second factor, `auth/second-factor.ts` with the throttle of `auth/totp-throttle.ts`, and the
enrolment route `POST /auth/totp/verify` of `routes/auth.ts`, as programs over the calls they make.
-/

namespace Ploydok.Auth

open Text Effect Function

def WINDOW_MS : Int := 15 * 60 * 1000

def MAX_FAILURES : Nat := 5

structure FailureBucket where
  count : Nat
  resetAt : Int
deriving DecidableEq

structure TotpThrottleResult where
  locked : Bool
  retryAfterSec : Int
deriving DecidableEq

/-- `Math.ceil(ms / 1000)`. -/
def ceilSeconds (ms : Int) : Int := -(-ms / 1000)

/-- The bucket a failure is counted in: the present one, or a new one after its reset. -/
def currentBucket (current : Option FailureBucket) (nowMs : Int) : FailureBucket :=
  match current with
  | some bucket => if bucket.resetAt > nowMs then bucket else ⟨0,nowMs + WINDOW_MS⟩
  | none => ⟨0,nowMs + WINDOW_MS⟩

def recordTotpFailure (current : Option FailureBucket) (nowMs : Int) :
    TotpThrottleResult × Option FailureBucket :=
  let bucket := currentBucket current nowMs
  let retryAfterSec := ceilSeconds (bucket.resetAt - nowMs)
  if bucket.count ≥ MAX_FAILURES then (⟨true,retryAfterSec⟩, current)
  else (⟨false,retryAfterSec⟩, some { bucket with count := bucket.count + 1 })

def SECOND_FACTOR_COOKIE : String := "ploydok_2fa_verified"

def TTL_MS : Int := 15 * 60 * 1000

structure CookiePayload where
  userId : String
  verifiedAt : Int

structure CookieCrypto where
  /-- Hex HMAC-SHA256. -/
  sign : String → String
  /-- `Buffer.from(text, "hex")`. -/
  fromHex : String → List UInt8
  /-- Base64url, `JSON.parse` and the checks of the two fields. -/
  parsePayload : String → Option CookiePayload

/-- The outer `none` is the exception of `decodeURIComponent`. -/
def parseCookieValue (crypto : CookieCrypto) (raw : String) : Option (Option CookiePayload) :=
  (decodeURIComponent raw).map fun decoded =>
    match splitLast '.' decoded.toList with
    | none => none
    | some (front, back) =>
      let payload := String.ofList front
      if crypto.fromHex (String.ofList back) = crypto.fromHex (crypto.sign payload) then
        crypto.parsePayload payload
      else none

/-- The pairs of a cookie header in their order; a later one overrides an earlier one. -/
def parseCookies (cookieHeader : String) : List (String × String) :=
  (cookieHeader.toList.splitOn ';').filterMap fun part =>
    match part.dropWhile (· ≠ '=') with
    | [] => none
    | _ :: value =>
      some (String.ofList (trimEnds isJsSpace (part.takeWhile (· ≠ '='))),
        String.ofList (trimEnds isJsSpace value))

/-- `cookies[name]`, where the empty text counts as missing. -/
def cookieOf (cookieHeader name : String) : Option String :=
  ((parseCookies cookieHeader).reverse.lookup name).filter (· ≠ "")

structure TotpRow where
  secret : String
  verifiedAt : Option Int

/-- A row `2fa.verified` of the audit log, with the `totp_step` of its metadata. -/
structure VerifiedRow where
  userId : String
  totpStep : Option Int
  createdAt : Int
deriving DecidableEq

inductive ClockRead where
  | cookie
  | verification
  | consumption
  | issue
deriving DecidableEq

inductive Source where
  | middleware
  | enrollment

inductive Call where
  | dateNow (why : ClockRead)
  | getTotpSecret (userId : String)
  | begin
  | advisoryLock (tx : Nat) (userId : String) (step : Int)
  | selectVerified (tx : Nat) (userId : String)
  | insertVerified (tx : Nat) (row : VerifiedRow)
  | commit (tx : Nat)
  | rollback (tx : Nat)
  | recordTotpFailure (userId : String)
  | resetTotpFailures (userId : String)
  | logTotpLocked (userId : String) (source : Source)
  | markTotpVerified (userId : String)
  /-- Not of the handlers: time passes. -/
  | elapse (ms : Nat)

abbrev Call.Res : Call → Type
  | .dateNow _ => Int
  | .getTotpSecret _ => Option TotpRow
  | .begin => Nat
  | .selectVerified .. => List VerifiedRow
  | .recordTotpFailure _ => TotpThrottleResult
  | _ => Unit

abbrev AuthSig : Sig := ⟨Call,Call.Res⟩

abbrev AuthProg (α : Type) := Prog AuthSig String α

abbrev ask (o : Call) : AuthProg o.Res := Prog.perform (S := AuthSig) o

/-! ### The handlers -/

inductive Consumed where
  | ok
  | replayed
deriving DecidableEq

def LOOK_BACK : Nat := 8

def useStep (userId : String) (step : Int) (tx : Nat) : AuthProg Consumed :=
  (ask (.advisoryLock tx userId step)).bind fun _ =>
    (ask (.selectVerified tx userId)).bind fun rows =>
      if rows.any (·.totpStep = some step) then .ret .replayed
      else
        (ask (.dateNow .consumption)).bind fun createdAt =>
          (ask (.insertVerified tx ⟨userId,some step,createdAt⟩)).bind fun _ => .ret .ok

def consumeTotpStep (userId : String) (step : Int) : AuthProg Consumed :=
  (ask .begin).bind fun tx =>
    (useStep userId step tx).bracket (ask (.commit tx)) (ask (.rollback tx))

inductive Response where
  /-- The handler behind the middleware runs; with the step that was consumed for it, or
  none when the cookie was good. -/
  | next (consumed : Option Int)
  | unauthenticated
  | replayed
  | unavailable
  | locked (retryAfterSec : Int)
  | totpRequired
  | notEnrolled
  | alreadyEnrolled
  | invalidCode
  | enrolled
deriving DecidableEq

/-- Status, code and message of the answers that are errors. -/
def Response.error : Response → Option (Nat × String × String)
  | .next _ | .enrolled => none
  | .unauthenticated => some (401, "UNAUTHENTICATED", "Authentication required")
  | .replayed => some (403, "totp_replayed", "TOTP code already used for this time window")
  | .unavailable => some (503, "SECOND_FACTOR_UNAVAILABLE", "Unable to persist TOTP verification")
  | .locked _ => some (429, "TOTP_LOCKED", "Too many invalid TOTP attempts. Try again later.")
  | .totpRequired => some (403, "totp_required", "Second factor required")
  | .notEnrolled => some (404, "TOTP_NOT_ENROLLED", "TOTP not enrolled")
  | .alreadyEnrolled => some (409, "TOTP_ALREADY_ENROLLED", "TOTP is already verified")
  | .invalidCode => some (400, "INVALID_CODE", "Invalid TOTP code")

structure Platform where
  hmacSha1 : Hmac
  crypto : CookieCrypto

structure Request where
  (userId cookieHeader totpCode : Option String)

variable (env : Platform)

def recordTotpVerificationFailure (userId : String) (source : Source) (otherwise : Response) :
    AuthProg Response :=
  (ask (.recordTotpFailure userId)).bind fun result =>
    if result.locked then
      (ask (.logTotpLocked userId source)).bind fun _ => .ret (.locked result.retryAfterSec)
    else .ret otherwise

/-- An exception of `verifyCodeDetailed` leaves the handler. -/
def verified (result : Option (Option Int)) : AuthProg (Option Int) :=
  match result with
  | none => .throw "verifyCodeDetailed"
  | some matched => .ret matched

def acceptStep (userId : String) (step : Int) : AuthProg Response :=
  ((consumeTotpStep userId step).attempt).bind fun
    | .error _ => .ret .unavailable
    | .ok .replayed => .ret .replayed
    | .ok .ok =>
      (ask (.dateNow .issue)).bind fun _ =>
        (ask (.resetTotpFailures userId)).bind fun _ => .ret (.next (some step))

/-- The check of the header `X-TOTP-Code`. -/
def checkHeader (userId code : String) : AuthProg Response :=
  (ask (.getTotpSecret userId)).bind fun
    | some ⟨secret,some _⟩ =>
      (ask (.dateNow .verification)).bind fun now =>
        (verified (verifyCodeDetailed env.hmacSha1 secret code (now / 1000) 1)).bind fun
          | some step => acceptStep userId step
          | none => recordTotpVerificationFailure userId .middleware .totpRequired
    | _ => recordTotpVerificationFailure userId .middleware .totpRequired

def checkCookie (userId : String) (cookieHeader : Option String) : AuthProg Bool :=
  match cookieOf (cookieHeader.getD "") SECOND_FACTOR_COOKIE with
  | none => .ret false
  | some raw =>
    match parseCookieValue env.crypto raw with
    | none => .throw "decodeURIComponent"
    | some none => .ret false
    | some (some payload) =>
      if payload.userId = userId then
        (ask (.dateNow .cookie)).bind fun now => .ret (now - payload.verifiedAt ≤ TTL_MS)
      else .ret false

def requireTotpVerified (req : Request) : AuthProg Response :=
  match req.userId with
  | none => .ret .unauthenticated
  | some userId =>
    (checkCookie env userId req.cookieHeader).bind fun fresh =>
      if fresh then .ret (.next none)
      else
        match req.totpCode.filter (· ≠ "") with
        | none => .ret .totpRequired
        | some code => checkHeader env userId code

/-- `POST /auth/totp/verify`. -/
def verifyEnrolment (userId : String) (code : Option String) : AuthProg Response :=
  (ask (.getTotpSecret userId)).bind fun
    | none => .ret .notEnrolled
    | some ⟨_,some _⟩ => .ret .alreadyEnrolled
    | some ⟨secret,none⟩ =>
      (ask (.dateNow .verification)).bind fun now =>
        (verified (verifyCodeDetailed env.hmacSha1 secret (code.getD "") (now / 1000) 1)).bind fun
          | none => recordTotpVerificationFailure userId .enrollment .invalidCode
          | some _ =>
            (ask (.markTotpVerified userId)).bind fun _ =>
              (ask (.resetTotpFailures userId)).bind fun _ => .ret .enrolled

/-! ### The platform -/

structure Tx where
  rows : List VerifiedRow
  aborted : Bool

structure World where
  clock : Int
  secrets : String → Option TotpRow
  failures : String → Option FailureBucket
  /-- The committed rows. -/
  verified : List VerifiedRow
  transactions : Nat → Option Tx
  nextTx : Nat
  /-- Advisory locks with the transactions that hold them. -/
  held : List (Nat × (Int × Int))

namespace World

def setTx (w : World) (tx : Nat) (t : Tx) : World :=
  { w with transactions := update w.transactions tx (some t) }

def beginTx (w : World) : World := { w.setTx w.nextTx ⟨[],false⟩ with nextTx := w.nextTx + 1 }

def endTx (w : World) (tx : Nat) : World :=
  { w with
    transactions := update w.transactions tx none
    held := w.held.filter fun entry => entry.1 ≠ tx }

def live (w : World) (tx : Nat) : Option Tx := (w.transactions tx).filter fun t => !t.aborted

def abort (w : World) (tx : Nat) : World :=
  { w with
    transactions := update w.transactions tx
      ((w.transactions tx).map fun t => { t with aborted := true }) }

def Free (w : World) (tx : Nat) (key : Int × Int) : Prop :=
  ∀ entry ∈ w.held, entry.2 = key → entry.1 = tx

instance (w : World) (tx : Nat) (key : Int × Int) : Decidable (w.Free tx key) := by
  unfold Free
  infer_instance

def lock (w : World) (tx : Nat) (key : Int × Int) : World := { w with held := (tx, key) :: w.held }

def publish (w : World) (tx : Nat) (t : Tx) : World :=
  { w with verified := w.verified ++ t.rows }.endTx tx

def visible (w : World) (t : Tx) (userId : String) : List VerifiedRow :=
  (w.verified ++ t.rows).filter (·.userId = userId)

def setFailures (w : World) (userId : String) (bucket : Option FailureBucket) : World :=
  { w with failures := update w.failures userId bucket }

def markVerified (w : World) (userId : String) : World :=
  { w with
    secrets := update w.secrets userId
      ((w.secrets userId).map fun row => { row with verifiedAt := some w.clock }) }

end World

/-- `ORDER BY created_at DESC LIMIT n`; rows of one instant come in any order. -/
def MostRecent (n : Nat) (rows found : List VerifiedRow) : Prop :=
  ∃ rest, (found ++ rest).Perm rows ∧ found.length = min n rows.length ∧
    ∀ x ∈ found, ∀ y ∈ rest, y.createdAt ≤ x.createdAt

def lockKey (hashtext : String → Int) (userId : String) (step : Int) : Int × Int :=
  (hashtext ("totp:" ++ userId), step)

/-- Statements may fail. One that fails inside a transaction aborts it; when the answer to a commit
is lost, it may have been carried out. -/
def authSem (hashtext : String → Int) : Sem AuthSig String World
  | .dateNow _, w, r, w' => w' = w ∧ r = .ok w.clock
  | .elapse ms, w, r, w' => w' = { w with clock := w.clock + ms } ∧ r = .ok ()
  | .getTotpSecret userId, w, r, w' => w' = w ∧ ∀ row, r = .ok row → row = w.secrets userId
  | .begin, w, r, w' =>
    match r with
    | .ok tx => tx = w.nextTx ∧ w' = w.beginTx
    | .error _ => w' = w
  | .advisoryLock tx userId step, w, r, w' =>
    match r with
    | .ok _ => (w.live tx).isSome ∧ w.Free tx (lockKey hashtext userId step) ∧
        w' = w.lock tx (lockKey hashtext userId step)
    | .error _ => w' = w.abort tx
  | .selectVerified tx userId, w, r, w' =>
    match r with
    | .ok rows => ∃ t, w.live tx = some t ∧ w' = w ∧ MostRecent LOOK_BACK (w.visible t userId) rows
    | .error _ => w' = w.abort tx
  | .insertVerified tx row, w, r, w' =>
    match r with
    | .ok _ => ∃ t, w.live tx = some t ∧ w' = w.setTx tx { t with rows := t.rows ++ [row] }
    | .error _ => w' = w.abort tx
  | .commit tx, w, r, w' =>
    match r with
    | .ok _ => ∃ t, w.live tx = some t ∧ w' = w.publish tx t
    | .error _ => w' = w.endTx tx ∨ ∃ t, w.live tx = some t ∧ w' = w.publish tx t
  | .rollback tx, w, _, w' => w' = w.endTx tx
  | .recordTotpFailure userId, w, r, w' =>
    r = .ok (recordTotpFailure (w.failures userId) w.clock).1 ∧
      w' = w.setFailures userId (recordTotpFailure (w.failures userId) w.clock).2
  | .resetTotpFailures userId, w, r, w' => w' = w.setFailures userId none ∧ r = .ok ()
  | .logTotpLocked .., w, _, w' => w' = w
  | .markTotpVerified userId, w, r, w' =>
    match r with
    | .ok _ => w' = w.markVerified userId
    | .error _ => w' = w ∨ w' = w.markVerified userId

structure Faults where
  readSecret : Bool := false
  consume : Bool := false
  logLocked : Bool := false
  markVerified : Bool := false

def newestFirst (rows : List VerifiedRow) : List VerifiedRow :=
  rows.insertionSort (·.createdAt ≥ ·.createdAt)

/-- Apart from the faults, what can be carried out is. A lock that is held fails the statement. -/
def answer (hashtext : String → Int) (faults : Faults) :
    (o : Call) → World → Except String o.Res × World
  | .dateNow _, w => (.ok w.clock, w)
  | .elapse ms, w => (.ok (), { w with clock := w.clock + ms })
  | .getTotpSecret userId, w =>
    if faults.readSecret then (.error "getTotpSecret", w) else (.ok (w.secrets userId), w)
  | .begin, w => if faults.consume then (.error "begin", w) else (.ok w.nextTx, w.beginTx)
  | .advisoryLock tx userId step, w =>
    if (w.live tx).isSome ∧ w.Free tx (lockKey hashtext userId step) then
      (.ok (), w.lock tx (lockKey hashtext userId step))
    else (.error "lock", w.abort tx)
  | .selectVerified tx userId, w =>
    match w.live tx with
    | some t => (.ok ((newestFirst (w.visible t userId)).take LOOK_BACK), w)
    | none => (.error "aborted", w.abort tx)
  | .insertVerified tx row, w =>
    match w.live tx with
    | some t => (.ok (), w.setTx tx { t with rows := t.rows ++ [row] })
    | none => (.error "aborted", w.abort tx)
  | .commit tx, w =>
    match w.live tx with
    | some t => (.ok (), w.publish tx t)
    | none => (.error "aborted", w.endTx tx)
  | .rollback tx, w => (.ok (), w.endTx tx)
  | .recordTotpFailure userId, w =>
    (.ok (recordTotpFailure (w.failures userId) w.clock).1,
      w.setFailures userId (recordTotpFailure (w.failures userId) w.clock).2)
  | .resetTotpFailures userId, w => (.ok (), w.setFailures userId none)
  | .logTotpLocked .., w => if faults.logLocked then (.error "logTotpLocked", w) else (.ok (), w)
  | .markTotpVerified userId, w =>
    if faults.markVerified then (.error "markTotpVerified", w) else (.ok (), w.markVerified userId)

theorem mostRecent_newestFirst (n : Nat) (rows : List VerifiedRow) :
    MostRecent n rows ((newestFirst rows).take n) := by
  have hperm : (newestFirst rows).Perm rows := List.perm_insertionSort _ rows
  have hsorted : (newestFirst rows).Pairwise (·.createdAt ≥ ·.createdAt) :=
    List.pairwise_insertionSort _ rows
  refine ⟨(newestFirst rows).drop n,?_,?_,?_⟩
  · rw [List.take_append_drop]
    exact hperm
  · rw [List.length_take,hperm.length_eq]
  · rw [← List.take_append_drop n (newestFirst rows),List.pairwise_append] at hsorted
    exact hsorted.2.2

attribute [local simp] authSem

theorem authSem_answer (hashtext : String → Int) (faults : Faults) (o : Call) (w : World) :
    authSem hashtext o w (answer hashtext faults o w).1 (answer hashtext faults o w).2 := by
  cases o with
  | dateNow | elapse | recordTotpFailure | resetTotpFailures => exact ⟨rfl,rfl⟩
  | rollback => exact rfl
  | getTotpSecret userId => cases hf : faults.readSecret <;> simp [answer,hf]
  | begin => cases hf : faults.consume <;> simp [answer,hf]
  | logTotpLocked => cases hf : faults.logLocked <;> simp [answer,hf]
  | markTotpVerified => cases hf : faults.markVerified <;> simp [answer,hf]
  | advisoryLock tx userId step =>
    by_cases h : (w.live tx).isSome ∧ w.Free tx (lockKey hashtext userId step)
    · simp [answer,h]
    · simp only [answer,h,↓reduceIte]
      exact rfl
  | selectVerified tx userId =>
    cases h : w.live tx with
    | none => simp [answer,h]
    | some t =>
      simp only [answer,h]
      exact ⟨t,h,rfl,mostRecent_newestFirst _ _⟩
  | insertVerified tx row | commit tx => cases h : w.live tx <;> simp [answer,h]

namespace Example

def platform : Platform := ⟨hmacSha1,⟨fun _ => "",fun _ => [],fun _ => none⟩⟩

def hash (_ : String) : Int := 0

def world (failures : Option FailureBucket) : World where
  clock := 1767225600000
  secrets := fun userId => if userId = "usr_1" then some ⟨secret,some 1767139200000⟩ else none
  failures := fun userId => if userId = "usr_1" then failures else none
  verified := []
  transactions := fun _ => none
  nextTx := 0
  held := []

end Example

end Ploydok.Auth
