import Ploydok.Auth.SecondFactor

/-! The lockout. The fifth failure within fifteen minutes fills the bucket; but both handlers look
at it only after a code has failed, and a code that verifies empties it. So nothing is accepted
during a lockout exactly when no code that verifies is presented during one. -/

namespace Ploydok.Auth

open Effect Effect.Prog Function

variable (env : Platform) (hashtext : String → Int)

inductive Attempt where
  | request (req : Request)
  | enrolment (userId : String) (code : Option String)

def Attempt.userId : Attempt → Option String
  | .request req => req.userId
  | .enrolment userId _ => some userId

def Attempt.handler : Attempt → AuthProg Response
  | .request req => requireTotpVerified env req
  | .enrolment userId code => verifyEnrolment env userId code

structure TimedAttempt where
  attempt : Attempt
  now : Int
  faults : Faults := {}

def handle (w : World) (a : TimedAttempt) : Except String Response × World :=
  (a.attempt.handler env).exec (answer hashtext a.faults) { w with clock := a.now }

def Accepted (r : Except String Response) : Prop :=
  r = .ok .enrolled ∨ ∃ step, r = .ok (.next (some step))

def Locked (w : World) (now : Int) (userId : String) : Prop :=
  ∃ bucket, w.failures userId = some bucket ∧ now < bucket.resetAt ∧ MAX_FAILURES ≤ bucket.count

def World.Idle (w : World) : Prop := w.held = []

/-! ### One attempt -/

section Consume

variable {hashtext} {w : World} {faults : Faults}

def recentlyUsed (w : World) (userId : String) (step : Int) : Bool :=
  ((newestFirst (w.verified.filter (·.userId = userId))).take LOOK_BACK).any
    (·.totpStep = some step)

theorem live_setTx (w : World) (tx : Nat) (rows : List VerifiedRow) :
    (w.setTx tx ⟨rows,false⟩).live tx = some ⟨rows,false⟩ := by
  simp [World.live,World.setTx]

theorem exec_useStep (hlive : w.live tx = some ⟨[],false⟩) (hw : w.Idle) (userId : String)
    (step : Int) :
    ∃ rows, (useStep userId step tx).exec (answer hashtext faults) w =
      (.ok (if recentlyUsed w userId step then .replayed else .ok),
        (w.lock tx (lockKey hashtext userId step)).setTx tx ⟨rows,false⟩) := by
  set w1 := w.lock tx (lockKey hashtext userId step) with hw1
  have hlive1 : w1.live tx = some ⟨[],false⟩ := hlive
  have hlock : answer hashtext faults (.advisoryLock tx userId step) w = (.ok (), w1) := by
    have hfree : w.Free tx (lockKey hashtext userId step) := by
      intro entry hentry
      rw [World.Idle] at hw
      rw [hw] at hentry
      cases hentry
    simp [answer,hlive,hfree,hw1]
  have hselect : answer hashtext faults (.selectVerified tx userId) w1 =
      (.ok ((newestFirst (w.verified.filter (·.userId = userId))).take LOOK_BACK), w1) := by
    simp only [answer,hlive1,World.visible,List.append_nil]
    rfl
  rw [useStep,exec_perform_bind hlock,exec_perform_bind hselect,← recentlyUsed]
  by_cases hused : recentlyUsed w userId step = true
  · have hsame : w1.setTx tx ⟨[],false⟩ = w1 := by
      have htx : w1.transactions tx = some ⟨[],false⟩ := (Option.filter_eq_some_iff.mp hlive1).1
      simp [World.setTx,← htx]
    refine ⟨[],?_⟩
    rw [if_pos hused,if_pos hused,hsame]
    rfl
  · have hnow : answer hashtext faults (.dateNow .consumption) w1 = (.ok w.clock, w1) := rfl
    have hinsert : answer hashtext faults (.insertVerified tx ⟨userId,some step,w.clock⟩) w1 =
        (.ok (), w1.setTx tx ⟨[⟨userId,some step,w.clock⟩],false⟩) := by
      simp only [answer,hlive1]
      rfl
    refine ⟨[⟨userId,some step,w.clock⟩],?_⟩
    rw [if_neg hused,if_neg hused,exec_perform_bind hnow,exec_perform_bind hinsert]
    rfl

theorem exec_consumeTotpStep (hw : w.Idle) (hf : faults.consume = false) (userId : String)
    (step : Int) :
    ∃ w', (consumeTotpStep userId step).exec (answer hashtext faults) w =
      (.ok (if recentlyUsed w userId step then .replayed else .ok), w') ∧ w'.Idle := by
  have hbegin : answer hashtext faults .begin w = (.ok w.nextTx, w.beginTx) := by
    simp [answer,hf]
  have hlive : w.beginTx.live w.nextTx = some ⟨[],false⟩ := live_setTx w w.nextTx []
  obtain ⟨rows,hbody⟩ : ∃ rows, (useStep userId step w.nextTx).exec (answer hashtext faults)
      w.beginTx = (.ok (if recentlyUsed w.beginTx userId step then .replayed else .ok),
        (w.beginTx.lock w.nextTx (lockKey hashtext userId step)).setTx w.nextTx ⟨rows,false⟩) :=
    exec_useStep hlive hw userId step
  set w1 := (w.beginTx.lock w.nextTx (lockKey hashtext userId step)).setTx w.nextTx ⟨rows,false⟩
    with hw1
  have hlive1 : w1.live w.nextTx = some ⟨rows,false⟩ := live_setTx _ _ rows
  have hcommit : (ask (.commit w.nextTx)).exec (answer hashtext faults) w1 =
      (.ok (), w1.publish w.nextTx ⟨rows,false⟩) := by
    rw [exec_perform]
    simp only [answer,hlive1]
  refine ⟨w1.publish w.nextTx ⟨rows,false⟩,?_,?_⟩
  · rw [consumeTotpStep,exec_perform_bind hbegin]
    exact exec_bracket hbody hcommit
  · -- the only lock is the one of this transaction
    have hheld : w1.held = [(w.nextTx, lockKey hashtext userId step)] :=
      congrArg ((w.nextTx, lockKey hashtext userId step) :: ·) hw
    show w1.held.filter (fun entry => entry.1 ≠ w.nextTx) = []
    rw [hheld]
    simp

end Consume

section Handlers

variable {env hashtext} {w : World} {faults : Faults} {userId : String}

/-- Handled from `w`, the program leaves no transaction open, and it accepts a code exactly
when `good` holds. -/
def Decides (hashtext : String → Int) (faults : Faults) (p : AuthProg Response) (w : World)
    (good : Prop) : Prop :=
  ∃ r w', p.exec (answer hashtext faults) w = (r, w') ∧ w'.Idle ∧ (Accepted r ↔ good)

variable {p : AuthProg Response} {good : Prop}

theorem Decides.of_exec (h : Decides hashtext faults q w1 good)
    (hexec : p.exec (answer hashtext faults) w = q.exec (answer hashtext faults) w1) :
    Decides hashtext faults p w good := by
  obtain ⟨r,w',hq,hidle,hiff⟩ := h
  exact ⟨r,w',hexec.trans hq,hidle,hiff⟩

theorem Decides.of_call (hcall : answer hashtext faults o w = (.ok a, w1))
    (h : Decides hashtext faults (f a) w1 good) : Decides hashtext faults ((ask o).bind f) w good :=
  h.of_exec (exec_perform_bind hcall)

theorem Decides.congr (h : Decides hashtext faults p w good) (hiff : good ↔ good') :
    Decides hashtext faults p w good' := by
  obtain ⟨r,w',hq,hidle,hacc⟩ := h
  exact ⟨r,w',hq,hidle,hacc.trans hiff⟩

theorem decides_rejected (r : Except String Response)
    (w' : World) (hexec : p.exec (answer hashtext faults) w = (r, w')) (hidle : w'.Idle)
    (hr : ¬ Accepted r) (hgood : ¬ good) : Decides hashtext faults p w good :=
  ⟨r,w',hexec,hidle,fun h => absurd h hr,fun h => absurd h hgood⟩

theorem not_accepted_error (e : String) : ¬ Accepted (.error e) := by
  rintro (h | ⟨step,h⟩)
  · cases h
  · cases h

theorem not_accepted_of (henrolled : r ≠ .enrolled) (hnext : ∀ step, r ≠ .next (some step)) :
    ¬ Accepted (.ok r) := by
  rintro (h | ⟨step,h⟩)
  · exact henrolled (Except.ok.inj h)
  · exact hnext step (Except.ok.inj h)

theorem decides_recordFailure (hw : w.Idle) (source : Source) (hother : ¬ Accepted (.ok otherwise))
    (hgood : ¬ good) :
    Decides hashtext faults (recordTotpVerificationFailure userId source otherwise) w good := by
  set bucket := recordTotpFailure (w.failures userId) w.clock with hbucket
  have hrecord : answer hashtext faults (.recordTotpFailure userId) w =
      (.ok bucket.1, w.setFailures userId bucket.2) := rfl
  have hidle : (w.setFailures userId bucket.2).Idle := hw
  by_cases hlocked : bucket.1.locked = true
  · have hexec : (recordTotpVerificationFailure userId source otherwise).exec
        (answer hashtext faults) w = ((ask (.logTotpLocked userId source)).bind fun _ =>
          .ret (.locked bucket.1.retryAfterSec)).exec (answer hashtext faults)
          (w.setFailures userId bucket.2) := by
      rw [recordTotpVerificationFailure,exec_perform_bind hrecord,if_pos hlocked]
    rw [exec_bind,exec_perform] at hexec
    by_cases hlog : faults.logLocked = true
    · refine decides_rejected (.error "logTotpLocked") _ (hexec.trans ?_) hidle
        (not_accepted_error _) hgood
      simp [answer,hlog]
    · refine decides_rejected (.ok (.locked bucket.1.retryAfterSec)) _ (hexec.trans ?_) hidle
        (not_accepted_of (by simp) (by simp)) hgood
      simp [answer,hlog]
  · refine decides_rejected (.ok otherwise) _ ?_ hidle hother hgood
    rw [recordTotpVerificationFailure,exec_perform_bind hrecord,if_neg hlocked]
    rfl

theorem decides_acceptStep (hw : w.Idle) (step : Int) :
    Decides hashtext faults (acceptStep userId step) w
      (faults.consume = false ∧ recentlyUsed w userId step = false) := by
  unfold acceptStep
  by_cases hf : faults.consume = true
  · have hbegin : (consumeTotpStep userId step).exec (answer hashtext faults) w =
        (.error "begin", w) := by
      rw [consumeTotpStep,exec_bind,exec_perform]
      simp [answer,hf]
    refine decides_rejected (.ok .unavailable) w ?_ hw
      (not_accepted_of (by simp) (by simp)) (by simp [hf])
    rw [exec_bind,exec_attempt,hbegin]
    rfl
  · have hf' : faults.consume = false := by simpa using hf
    obtain ⟨w',hexec,hidle⟩ : ∃ w', (consumeTotpStep userId step).exec (answer hashtext faults) w =
          (.ok (if recentlyUsed w userId step then .replayed else .ok), w') ∧ w'.Idle :=
      exec_consumeTotpStep hw hf' userId step
    by_cases hused : recentlyUsed w userId step = true
    · refine decides_rejected (.ok .replayed) w' ?_ hidle
        (not_accepted_of (by simp) (by simp)) (by simp [hused])
      rw [exec_bind,exec_attempt,hexec,if_pos hused]
      rfl
    · refine ⟨.ok (.next (some step)),w'.setFailures userId none,?_,hidle,?_⟩
      · rw [exec_bind,exec_attempt,hexec,if_neg hused]
        rfl
      · exact ⟨fun _ => ⟨hf',by simpa using hused⟩,fun _ => .inr ⟨step,rfl⟩⟩

def HeaderGood (env : Platform) (faults : Faults) (w : World) (userId code : String) : Prop :=
  faults.readSecret = false ∧ ∃ secret verifiedAt step,
    w.secrets userId = some ⟨secret,some verifiedAt⟩ ∧
    verifyCodeDetailed env.hmacSha1 secret code (w.clock / 1000) 1 = some (some step) ∧
    faults.consume = false ∧ recentlyUsed w userId step = false

theorem decides_readSecret (hw : w.Idle) (hgood : good → faults.readSecret = false)
    (h : faults.readSecret = false → Decides hashtext faults (f (w.secrets userId)) w good) :
    Decides hashtext faults ((ask (.getTotpSecret userId)).bind f) w good := by
  cases hread : faults.readSecret with
  | true =>
    refine decides_rejected (.error "getTotpSecret") w ?_ hw (not_accepted_error _) fun hg => ?_
    · rw [exec_bind,exec_perform]
      simp [answer,hread]
    · cases hread.symm.trans (hgood hg)
  | false => exact Decides.of_call (by simp [answer,hread]) (h hread)

theorem decides_checkHeader (hw : w.Idle) (code : String) :
    Decides hashtext faults (checkHeader env userId code) w
      (HeaderGood env faults w userId code) := by
  have hrequired : ¬ Accepted (.ok .totpRequired) := not_accepted_of (by simp) (by simp)
  refine decides_readSecret hw (fun h => h.1) fun hread => ?_
  match hrow : w.secrets userId with
  | none => exact decides_recordFailure hw .middleware hrequired (by simp [HeaderGood,hrow])
  | some ⟨secret,none⟩ =>
    exact decides_recordFailure hw .middleware hrequired (by simp [HeaderGood,hrow])
  | some ⟨secret,some verifiedAt⟩ =>
    refine Decides.of_call (rfl : answer hashtext faults _ w = (.ok w.clock, w)) ?_
    match hverify : verifyCodeDetailed env.hmacSha1 secret code (w.clock / 1000) 1 with
    | none =>
      exact decides_rejected (.error "verifyCodeDetailed") _ rfl hw (not_accepted_error _)
        (by simp [HeaderGood,hrow,hverify])
    | some none =>
      exact decides_recordFailure hw .middleware hrequired (by simp [HeaderGood,hrow,hverify])
    | some (some step) =>
      exact (decides_acceptStep hw step).congr (by simp [HeaderGood,hread,hrow,hverify])

/-- Whether the cookie is good at an instant; `none` is an exception. -/
def cookieFresh (env : Platform) (userId : String) (cookieHeader : Option String) (now : Int) :
    Option Bool :=
  match cookieOf (cookieHeader.getD "") SECOND_FACTOR_COOKIE with
  | none => some false
  | some raw => (parseCookieValue env.crypto raw).map fun payload =>
      payload.any fun payload => payload.userId = userId ∧ now - payload.verifiedAt ≤ TTL_MS

theorem exec_checkCookie (cookieHeader : Option String) :
    (checkCookie env userId cookieHeader).exec (answer hashtext faults) w =
      (match cookieFresh env userId cookieHeader w.clock with
        | none => .error "decodeURIComponent"
        | some fresh => .ok fresh, w) := by
  unfold checkCookie cookieFresh
  cases cookieOf (cookieHeader.getD "") SECOND_FACTOR_COOKIE with
  | none => rfl
  | some raw =>
    dsimp only
    cases parseCookieValue env.crypto raw with
    | none => rfl
    | some payload =>
      cases payload with
      | none => rfl
      | some payload =>
        by_cases hu : payload.userId = userId
        · have hnow : answer hashtext faults (.dateNow .cookie) w = (.ok w.clock, w) := rfl
          simp only [hu,↓reduceIte]
          rw [exec_perform_bind hnow]
          simp [hu]
        · simp [hu]

def RequestGood (env : Platform) (faults : Faults) (w : World) (req : Request) : Prop :=
  ∃ userId code, req.userId = some userId ∧
    cookieFresh env userId req.cookieHeader w.clock = some false ∧
    req.totpCode = some code ∧ code ≠ "" ∧ HeaderGood env faults w userId code

theorem decides_requireTotpVerified (hw : w.Idle) (req : Request) :
    Decides hashtext faults (requireTotpVerified env req) w (RequestGood env faults w req) := by
  unfold requireTotpVerified
  cases huser : req.userId with
  | none =>
    exact decides_rejected (.ok .unauthenticated) w rfl hw (not_accepted_of (by simp) (by simp))
      (by simp [RequestGood,huser])
  | some userId =>
    have hexec := exec_bind (answer hashtext faults) (checkCookie env userId req.cookieHeader)
      (fun fresh => if fresh then .ret (.next none) else match req.totpCode.filter (· ≠ "") with
        | none => .ret .totpRequired
        | some code => checkHeader env userId code) w
    rw [exec_checkCookie] at hexec
    match hfresh : cookieFresh env userId req.cookieHeader w.clock with
    | none =>
      rw [hfresh] at hexec
      exact decides_rejected (.error "decodeURIComponent") w hexec hw (not_accepted_error _)
        (by simp [RequestGood,huser,hfresh])
    | some true =>
      rw [hfresh] at hexec
      exact decides_rejected (.ok (.next none)) w hexec hw (not_accepted_of (by simp) (by simp))
        (by simp [RequestGood,huser,hfresh])
    | some false =>
      rw [hfresh] at hexec
      cases hcode : req.totpCode.filter (· ≠ "") with
      | none =>
        rw [hcode] at hexec
        refine decides_rejected (.ok .totpRequired) w hexec hw
          (not_accepted_of (by simp) (by simp)) ?_
        rintro ⟨userId,code,-,-,htotp,hne,-⟩
        simp [htotp,hne] at hcode
      | some code =>
        rw [hcode] at hexec
        obtain ⟨htotp,hne⟩ : req.totpCode = some code ∧ code ≠ "" := by
          simpa [Option.filter_eq_some_iff] using hcode
        refine ((decides_checkHeader hw code).congr ?_).of_exec hexec
        simp [RequestGood,huser,hfresh,htotp,hne]

def EnrolmentGood (env : Platform) (faults : Faults) (w : World) (userId : String)
    (code : Option String) : Prop :=
  faults.readSecret = false ∧ faults.markVerified = false ∧ ∃ secret step,
    w.secrets userId = some ⟨secret,none⟩ ∧
    verifyCodeDetailed env.hmacSha1 secret (code.getD "") (w.clock / 1000) 1 = some (some step)

attribute [local simp] EnrolmentGood

theorem decides_verifyEnrolment (hw : w.Idle) (code : Option String) :
    Decides hashtext faults (verifyEnrolment env userId code) w
      (EnrolmentGood env faults w userId code) := by
  refine decides_readSecret hw (fun h => h.1) fun hread => ?_
  match hrow : w.secrets userId with
  | none =>
    exact decides_rejected (.ok .notEnrolled) w rfl hw (not_accepted_of (by simp) (by simp))
      (by simp [hrow])
  | some ⟨secret,some verifiedAt⟩ =>
    exact decides_rejected (.ok .alreadyEnrolled) w rfl hw (not_accepted_of (by simp) (by simp))
      (by simp [hrow])
  | some ⟨secret,none⟩ =>
    refine Decides.of_call (rfl : answer hashtext faults _ w = (.ok w.clock, w)) ?_
    match hverify : verifyCodeDetailed env.hmacSha1 secret (code.getD "") (w.clock / 1000) 1 with
    | none =>
      exact decides_rejected (.error "verifyCodeDetailed") _ rfl hw (not_accepted_error _)
        (by simp [hrow,hverify])
    | some none =>
      exact decides_recordFailure hw .enrollment (not_accepted_of (by simp) (by simp))
        (by simp [hrow,hverify])
    | some (some step) =>
      cases hmark : faults.markVerified with
      | true =>
        refine decides_rejected (.error "markTotpVerified") w ?_ hw (not_accepted_error _)
          (by simp [hmark])
        show ((ask (.markTotpVerified userId)).bind _).exec _ _ = _
        rw [exec_bind,exec_perform]
        simp [answer,hmark]
      | false =>
        have hmarked : answer hashtext faults (.markTotpVerified userId) w =
            (.ok (), w.markVerified userId) := by
          simp [answer,hmark]
        refine Decides.of_call hmarked ⟨.ok .enrolled,_,rfl,hw,fun _ => ?_,fun _ => .inl rfl⟩
        exact ⟨hread,hmark,secret,step,hrow,hverify⟩

end Handlers

/-- The attempt presents a code that verifies where it can be accepted: the secret can be read and
is verified (unverified, for the enrolment), the cookie is not good, the step not used recently, and
nothing of the database fails. -/
def TimedAttempt.Good (w : World) (a : TimedAttempt) : Prop :=
  match a.attempt with
  | .request req => RequestGood env a.faults { w with clock := a.now } req
  | .enrolment userId code => EnrolmentGood env a.faults { w with clock := a.now } userId code

theorem handle_spec (hw : w.Idle) (a : TimedAttempt) :
    (handle env hashtext w a).2.Idle ∧ (Accepted (handle env hashtext w a).1 ↔ a.Good env w) := by
  have hidle : ({ w with clock := a.now } : World).Idle := hw
  have hdecides : Decides hashtext a.faults (a.attempt.handler env) { w with clock := a.now }
      (a.Good env w) := by
    unfold TimedAttempt.Good
    cases a.attempt with
    | request req => exact decides_requireTotpVerified hidle req
    | enrolment userId code => exact decides_verifyEnrolment hidle code
  obtain ⟨r,w',hexec,hidle',hiff⟩ := hdecides
  unfold handle
  rw [hexec]
  exact ⟨hidle',hiff⟩

def Throughout (P : World → TimedAttempt → Prop) : World → List TimedAttempt → Prop
  | _, [] => True
  | w, a :: as => P w a ∧ Throughout P (handle env hashtext w a).2 as

theorem throughout_congr (h : ∀ w a, World.Idle w → (P w a ↔ Q w a)) (hw : w.Idle)
    (attempts : List TimedAttempt) :
    Throughout env hashtext P w attempts ↔ Throughout env hashtext Q w attempts := by
  induction attempts generalizing w with
  | nil => exact Iff.rfl
  | cons a as ih =>
    have hnext := (handle_spec env hashtext hw a).1
    exact and_congr (h w a hw) (ih hnext)

/-- In a sequence of attempts nothing is accepted during a lockout iff no code that verifies
is presented during one. -/
theorem lockout_holds_iff {w : World} (hw : w.Idle) (attempts : List TimedAttempt) :
    Throughout env hashtext (fun w a => ∀ userId, a.attempt.userId = some userId →
        Locked w a.now userId → ¬ Accepted (handle env hashtext w a).1) w attempts ↔
      Throughout env hashtext (fun w a => ∀ userId, a.attempt.userId = some userId →
        Locked w a.now userId → ¬ a.Good env w) w attempts := by
  refine throughout_congr env hashtext (fun w a hw => ?_) hw attempts
  simp only [(handle_spec env hashtext hw a).2]

namespace Example

def request (code : String) : Attempt := .request ⟨some "usr_1",none,some code⟩

def guesses : List TimedAttempt :=
  List.replicate 5 ⟨request "000000",1767225600000,{}⟩ ++
    [⟨request "119644",1767225660000,{}⟩]

def wrong : TimedAttempt := ⟨request "000000",1767225660000,{}⟩

def locked : World := world (some ⟨5,1767226500000⟩)

end Example

theorem lockout_holds_example : Locked Example.locked Example.wrong.now "usr_1" ∧
      ¬ Accepted (handle Example.platform Example.hash Example.locked Example.wrong).1 := by
  have hlocked : Locked Example.locked Example.wrong.now "usr_1" :=
    ⟨⟨5,1767226500000⟩,rfl,by decide,by decide⟩
  have hbad : ¬ Example.wrong.Good Example.platform Example.locked := by
    rintro ⟨userId,code,huser,-,hcode,-,-,secret,verifiedAt,step,hrow,hverify,-⟩
    obtain rfl : "usr_1" = userId := Option.some.inj huser
    obtain rfl : "000000" = code := Option.some.inj hcode
    obtain ⟨rfl,-⟩ : Example.secret = secret ∧ (1767139200000 : Int) = verifiedAt := by
      simpa [Example.locked,Example.world] using hrow
    have hnone : verifyCodeDetailed Example.hmacSha1 Example.secret "000000" 1767225660 1 =
        some none := by decide +kernel
    have hsome : verifyCodeDetailed Example.hmacSha1 Example.secret "000000" 1767225660 1 =
        some (some step) := hverify
    rw [hnone] at hsome
    cases hsome
  have hall := (lockout_holds_iff Example.platform Example.hash (w := Example.locked) rfl
    [Example.wrong]).mpr ⟨fun _ _ _ => hbad,trivial⟩
  exact ⟨hlocked,hall.1 "usr_1" rfl hlocked⟩

/-- The right code is accepted while the bucket is full. -/
theorem correct_code_accepted_during_lockout :
    ¬ ∀ (env : Platform) (hashtext : String → Int) (w : World), w.Idle →
      ∀ attempts, Throughout env hashtext (fun w a => ∀ userId, a.attempt.userId = some userId →
        Locked w a.now userId → ¬ Accepted (handle env hashtext w a).1) w attempts := by
  intro h
  have hall := h Example.platform Example.hash (Example.world none) rfl Example.guesses
  obtain ⟨-,-,-,-,-,hsixth,-⟩ := hall
  refine hsixth "usr_1" rfl ⟨⟨5,1767226500000⟩,?_,by decide,by decide⟩ (.inr ⟨58907521,?_⟩)
  · decide +kernel
  · decide +kernel

end Ploydok.Auth
