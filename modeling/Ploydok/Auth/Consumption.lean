import Ploydok.Auth.SecondFactor

/-! The calls of a request for the second factor as a protocol. Whoever is let through with a step
has committed a row for it, inserted under the lock of the step after a look at the used steps. -/

namespace Ploydok.Auth

open Effect Effect.Prog Function

abbrev AuthEvent := Event AuthSig String

def stepOf (ms : Int) : Int := ms / 1000 / PERIOD_S

theorem stepOf_mono (h : a ≤ b) : stepOf a ≤ stepOf b := by
  unfold stepOf PERIOD_S
  omega

inductive Party where
  | request (req : Request)
  | clock (ms : Nat)

def Party.userId : Party → String
  | .request req => req.userId.getD ""
  | .clock _ => ""

def Party.program (env : Platform) : Party → AuthProg (Option Response)
  | .request req => (requireTotpVerified env req).bind fun response => .ret (some response)
  | .clock ms => (ask (.elapse ms)).bind fun _ => .ret none

def verification : AuthEvent → Option Int
  | ⟨.dateNow .verification,.ok t⟩ => some t
  | _ => none

def Near (t step : Int) : Prop := stepOf t - 1 ≤ step ∧ step ≤ stepOf t + 1

instance (t step : Int) : Decidable (Near t step) := by
  unfold Near
  infer_instance

inductive Phase where
  | ticking
  | waiting
  | checked (t : Int)
  | begun (t : Int) (tx : Nat)
  | locked (t : Int) (tx : Nat) (step : Int)
  | unused (t : Int) (tx : Nat) (step : Int)
  | stamped (t : Int) (tx : Nat) (step createdAt : Int)
  | inserted (t : Int) (tx : Nat) (step createdAt : Int)
  | committed (step : Int)
  /-- The transaction has nothing to commit. -/
  | closing (tx : Nat)
  | finished

namespace Phase

def tx : Phase → Option Nat
  | begun _ tx | locked _ tx _ | unused _ tx _ | stamped _ tx _ _ | inserted _ tx _ _
  | closing tx => some tx
  | _ => none

def time : Phase → Option Int
  | checked t | begun t _ | locked t _ _ | unused t _ _ | stamped t _ _ _
  | inserted t _ _ _ => some t
  | _ => none

end Phase

/-- Calls that leave the clock, the rows and the transactions alone. -/
def Plain : Call → Prop
  | .dateNow why => why = .cookie ∨ why = .issue
  | .getTotpSecret _ | .recordTotpFailure _ | .resetTotpFailures _ | .logTotpLocked .. => True
  | _ => False

instance : DecidablePred Plain := fun o => by
  cases o <;> unfold Plain <;> infer_instance

def phaseNext (user : String) (s : Phase) (ev : AuthEvent) : Option Phase :=
  if Plain ev.op then some s
  else
    match s with
    | .ticking =>
      match ev with
      | ⟨.elapse _,_⟩ => some .ticking
      | _ => none
    | .waiting =>
      match ev with
      | ⟨.dateNow .verification,.ok t⟩ => some (.checked t)
      | ⟨.dateNow .verification,.error _⟩ => some .finished
      | _ => none
    | .checked t =>
      match ev with
      | ⟨.begin,.ok tx⟩ => some (.begun t tx)
      | ⟨.begin,.error _⟩ => some .finished
      | _ => none
    | .begun t tx =>
      match ev with
      | ⟨.advisoryLock tx' user' step,.ok _⟩ =>
        if tx' = tx ∧ user' = user ∧ Near t step then some (.locked t tx step) else none
      | ⟨.advisoryLock tx' _ _,.error _⟩ => if tx' = tx then some (.closing tx) else none
      | _ => none
    | .locked t tx step =>
      match ev with
      | ⟨.selectVerified tx' user',.ok rows⟩ =>
        if tx' = tx ∧ user' = user then
          some (if rows.any (·.totpStep = some step) then .closing tx else .unused t tx step)
        else none
      | ⟨.selectVerified tx' _,.error _⟩ => if tx' = tx then some (.closing tx) else none
      | _ => none
    | .unused t tx step =>
      match ev with
      | ⟨.dateNow .consumption,.ok createdAt⟩ => some (.stamped t tx step createdAt)
      | ⟨.dateNow .consumption,.error _⟩ => some (.closing tx)
      | _ => none
    | .stamped t tx step createdAt =>
      match ev with
      | ⟨.insertVerified tx' row,.ok _⟩ =>
        if tx' = tx ∧ row = ⟨user,some step,createdAt⟩ then
          some (.inserted t tx step createdAt)
        else none
      | ⟨.insertVerified tx' _,.error _⟩ => if tx' = tx then some (.closing tx) else none
      | _ => none
    | .inserted _ tx step _ =>
      match ev with
      | ⟨.commit tx',.ok _⟩ => if tx' = tx then some (.committed step) else none
      | ⟨.commit tx',.error _⟩ => if tx' = tx then some .finished else none
      | _ => none
    | .closing tx =>
      match ev with
      | ⟨.commit tx',_⟩ | ⟨.rollback tx',_⟩ => if tx' = tx then some .finished else none
      | _ => none
    | _ => none

inductive PhaseStep (user : String) : Phase → AuthEvent → Phase → Prop
  | plain {s : Phase} {ev : AuthEvent} (h : Plain ev.op) : PhaseStep user s ev s
  | tick {ms : Nat} {r : Except String Unit} : PhaseStep user .ticking ⟨.elapse ms,r⟩ .ticking
  | check {t : Int} : PhaseStep user .waiting ⟨.dateNow .verification,.ok t⟩ (.checked t)
  | uncheck {e : String} : PhaseStep user .waiting ⟨.dateNow .verification,.error e⟩ .finished
  | start {t : Int} {tx : Nat} : PhaseStep user (.checked t) ⟨.begin,.ok tx⟩ (.begun t tx)
  | unstart {t : Int} {e : String} : PhaseStep user (.checked t) ⟨.begin,.error e⟩ .finished
  | lock {t step : Int} {tx : Nat} {u : Unit} (h : Near t step) :
      PhaseStep user (.begun t tx) ⟨.advisoryLock tx user step,.ok u⟩ (.locked t tx step)
  | unlock {t step : Int} {tx : Nat} {user' e : String} :
      PhaseStep user (.begun t tx) ⟨.advisoryLock tx user' step,.error e⟩ (.closing tx)
  | used {t step : Int} {tx : Nat} {rows : List VerifiedRow} :
      PhaseStep user (.locked t tx step) ⟨.selectVerified tx user,.ok rows⟩ (.closing tx)
  | unused {t step : Int} {tx : Nat} {rows : List VerifiedRow}
      (h : ∀ row ∈ rows, row.totpStep ≠ some step) :
      PhaseStep user (.locked t tx step) ⟨.selectVerified tx user,.ok rows⟩ (.unused t tx step)
  | unselect {t step : Int} {tx : Nat} {user' e : String} :
      PhaseStep user (.locked t tx step) ⟨.selectVerified tx user',.error e⟩ (.closing tx)
  | stamp {t step createdAt : Int} {tx : Nat} :
      PhaseStep user (.unused t tx step) ⟨.dateNow .consumption,.ok createdAt⟩
        (.stamped t tx step createdAt)
  | unstamp {t step : Int} {tx : Nat} {e : String} :
      PhaseStep user (.unused t tx step) ⟨.dateNow .consumption,.error e⟩ (.closing tx)
  | insert {t step createdAt : Int} {tx : Nat} {u : Unit} :
      PhaseStep user (.stamped t tx step createdAt)
        ⟨.insertVerified tx ⟨user,some step,createdAt⟩,.ok u⟩ (.inserted t tx step createdAt)
  | uninsert {t step createdAt : Int} {tx : Nat} {row : VerifiedRow} {e : String} :
      PhaseStep user (.stamped t tx step createdAt) ⟨.insertVerified tx row,.error e⟩
        (.closing tx)
  | commit {t step createdAt : Int} {tx : Nat} {u : Unit} :
      PhaseStep user (.inserted t tx step createdAt) ⟨.commit tx,.ok u⟩ (.committed step)
  | uncommit {t step createdAt : Int} {tx : Nat} {e : String} :
      PhaseStep user (.inserted t tx step createdAt) ⟨.commit tx,.error e⟩ .finished
  | close {tx : Nat} {r : Except String Unit} :
      PhaseStep user (.closing tx) ⟨.commit tx,r⟩ .finished
  | undo {tx : Nat} {r : Except String Unit} :
      PhaseStep user (.closing tx) ⟨.rollback tx,r⟩ .finished

variable {s s' : Phase} {ev : AuthEvent} {user : String}

theorem phaseStep_of_next (h : phaseNext user s ev = some s') : PhaseStep user s ev s' := by
  revert h
  fun_cases phaseNext user s ev <;> rintro ⟨⟩
  · next hp => exact .plain hp
  · exact .tick
  · exact .check
  · exact .uncheck
  · exact .start
  · exact .unstart
  · next hcond _ =>
    obtain ⟨rfl,rfl,hnear⟩ := hcond
    exact .lock hnear
  · exact .unlock
  · next hcond _ =>
    obtain ⟨rfl,rfl⟩ := hcond
    split
    · exact .used
    · next hany => exact .unused (by simpa using hany)
  · exact .unselect
  · exact .stamp
  · exact .unstamp
  · next hcond _ =>
    obtain ⟨rfl,rfl⟩ := hcond
    exact .insert
  · exact .uninsert
  · exact .commit
  · exact .uncommit
  · exact .close
  · exact .undo

theorem time_of_phaseStep (h : PhaseStep user s ev s') (ht : s'.time = some t) :
    verification ev = some t ∨ verification ev = none ∧ s.time = some t := by
  cases h with
  | plain hp =>
    refine .inr ⟨?_,ht⟩
    unfold verification
    split
    · simp [Plain] at hp
    · rfl
  | check => exact .inl ht
  | start | lock | unused | stamp | insert => exact .inr ⟨rfl,ht⟩
  | _ => cases ht

/-! ### A request follows the protocol -/

abbrev consumption : Protocol AuthSig String :=
  ⟨String × Phase,fun s ev => (phaseNext s.1 s.2 ev).map fun s' => (s.1, s')⟩

def LetThrough (s : String × Phase) (out : Except String Response) : Prop :=
  ∀ step, out = .ok (.next (some step)) → s.2 = .committed step

variable {env : Platform} {user : String} {t step : Int} {tx : Nat}

theorem next_to (s' : Phase) (h : phaseNext user s ev = some s') :
    consumption.next (user, s) ev = some (user, s') := by
  simp [h]

theorem next_plain (ho : Plain o) : consumption.next (user, s) ⟨o,r⟩ = some (user, s) :=
  next_to s (by simp [phaseNext,ho])

theorem follows_plain {p : AuthProg α} (hp : p.Calls Plain) :
    p.Follows consumption (user, s) fun s' _ => s' = (user, s) := by
  refine follows_of_calls (A := consumption) (· = (user, s)) hp ?_ rfl
  rintro _ o r rfl ho
  exact ⟨_,next_plain ho,rfl⟩

attribute [local simp] phaseNext Plain LetThrough Prog.Follows

theorem calls_checkCookie (cookieHeader : Option String) :
    (checkCookie env user cookieHeader).Calls Plain := by
  unfold checkCookie
  split
  · exact calls_ret _
  · split
    · exact calls_throw _
    · exact calls_ret _
    · split
      · exact calls_bind (calls_perform (.inl rfl)) fun _ => calls_ret _
      · exact calls_ret _

theorem follows_recordTotpVerificationFailure :
    (recordTotpVerificationFailure user .middleware .totpRequired).Follows consumption (user, s)
      LetThrough := by
  refine follows_perform_bind (fun result => ⟨_,next_plain trivial,?_⟩)
    fun e => ⟨_,next_plain trivial,by simp⟩
  split
  · refine follows_perform_bind (fun _ => ⟨_,next_plain trivial,?_⟩)
      fun e => ⟨_,next_plain trivial,by simp⟩
    simp
  · simp

theorem follows_useStep (hnear : Near t step) :
    (useStep user step tx).Follows consumption (user, .begun t tx) fun s r =>
      (s = (user, .closing tx) ∧ r ≠ .ok .ok) ∨
        ∃ createdAt, s = (user, .inserted t tx step createdAt) ∧ r = .ok .ok := by
  refine follows_perform_bind (fun _ => ?_) fun e => ?_
  · refine ⟨_,next_to (.locked t tx step) (by simp [hnear]),?_⟩
    refine follows_perform_bind (fun rows => ?_) fun e => ?_
    · by_cases hany : rows.any (·.totpStep = some step)
      · refine ⟨_,next_to (.closing tx) (by simp [hany]),?_⟩
        rw [if_pos hany]
        exact .inl ⟨rfl,by simp⟩
      · refine ⟨_,next_to (.unused t tx step) (by simp [hany]),?_⟩
        rw [if_neg hany]
        refine follows_perform_bind (fun createdAt => ?_) fun e => ?_
        · refine ⟨_,next_to (.stamped t tx step createdAt) (by simp),?_⟩
          refine follows_perform_bind (fun _ => ?_) fun e => ?_
          · refine ⟨_,next_to (.inserted t tx step createdAt) (by simp),?_⟩
            exact .inr ⟨createdAt,rfl,rfl⟩
          · exact ⟨_,next_to (.closing tx) (by simp),.inl ⟨rfl,by simp⟩⟩
        · exact ⟨_,next_to (.closing tx) (by simp),.inl ⟨rfl,by simp⟩⟩
    · exact ⟨_,next_to (.closing tx) (by simp),.inl ⟨rfl,by simp⟩⟩
  · exact ⟨_,next_to (.closing tx) (by simp),.inl ⟨rfl,by simp⟩⟩

theorem follows_consumeTotpStep (hnear : Near t step) :
    (consumeTotpStep user step).Follows consumption (user, .checked t) fun s r =>
      r = .ok .ok → s = (user, .committed step) := by
  refine follows_perform_bind (fun tx => ?_) fun e => ?_
  · refine ⟨_,next_to (.begun t tx) (by simp),?_⟩
    refine follows_bracket _ (follows_useStep hnear) ?_ ?_
    · rintro _ a (⟨rfl,ha⟩ | ⟨createdAt,rfl,ha⟩)
      · refine follows_perform fun r => ?_
        refine ⟨_,next_to .finished (by simp),fun hr => ?_⟩
        cases r with
        | ok u => exact absurd hr ha
        | error e => cases hr
      · refine follows_perform fun r => ?_
        cases r with
        | ok u => exact ⟨_,next_to (.committed step) (by simp),fun _ => rfl⟩
        | error e =>
          exact ⟨_,next_to .finished (by simp),by simp [Except.map]⟩
    · rintro _ e (⟨rfl,-⟩ | ⟨createdAt,-,he⟩)
      · refine follows_perform fun r => ?_
        refine ⟨_,next_to .finished (by simp),fun hr => ?_⟩
        cases r <;> cases hr
      · cases he
  · exact ⟨_,next_to .finished (by simp),by simp⟩

theorem follows_acceptStep (hnear : Near t step) :
    (acceptStep user step).Follows consumption (user, .checked t) LetThrough := by
  refine follows_bind (fun s r => ∃ out, r = .ok out ∧
    (out = .ok .ok → s = (user, Phase.committed step))) ?_ ?_ ?_
  · exact follows_attempt (follows_mono (follows_consumeTotpStep hnear) fun s out h => ⟨out,rfl,h⟩)
  · intro s out ⟨_,hout,hs⟩
    cases hout
    match out with
    | .error e | .ok .replayed => simp
    | .ok .ok =>
      obtain rfl := hs rfl
      refine follows_perform_bind (fun _ => ⟨_,next_plain (.inr rfl),?_⟩)
        fun e => ⟨_,next_plain (.inr rfl),by simp⟩
      refine follows_perform_bind (fun _ => ⟨_,next_plain trivial,?_⟩)
        fun e => ⟨_,next_plain trivial,by simp⟩
      intro step' hstep
      cases hstep
      rfl
  · intro s e ⟨_,hout,_⟩
    cases hout

theorem follows_checkHeader (code : String) :
    (checkHeader env user code).Follows consumption (user, .waiting) LetThrough := by
  refine follows_perform_bind (fun found => ⟨_,next_plain trivial,?_⟩)
    fun e => ⟨_,next_plain trivial,by simp⟩
  split
  · next secret _ =>
    refine follows_perform_bind (fun now => ?_) fun e => ?_
    · refine ⟨_,next_to (.checked now) (by simp),?_⟩
      cases hverify : verifyCodeDetailed env.hmacSha1 secret code (now / 1000) 1 with
      | none => simp [verified]
      | some matched =>
        cases matched with
        | none => exact follows_recordTotpVerificationFailure
        | some step => exact follows_acceptStep (bounds_of_verifyCodeDetailed hverify)
    · exact ⟨_,next_to .finished (by simp),by simp⟩
  · exact follows_recordTotpVerificationFailure

def Party.start (party : Party) : String × Phase :=
  (party.userId, match party with
    | .request _ => .waiting
    | .clock _ => .ticking)

theorem follows_requireTotpVerified (env : Platform) (req : Request) :
    (requireTotpVerified env req).Follows consumption (Party.request req).start LetThrough := by
  unfold requireTotpVerified
  split
  · simp
  · next user huser =>
    have hstart : (Party.request req).start = (user, .waiting) := by
      simp [Party.start,Party.userId,huser]
    rw [hstart]
    refine follows_bind _ (follows_plain (calls_checkCookie req.cookieHeader)) ?_ ?_
    · rintro _ fresh rfl
      split
      · simp
      · split
        · simp
        · exact follows_checkHeader _
    · simp

theorem follows_program (env : Platform) (party : Party) :
    (party.program env).Follows consumption party.start fun s out =>
      ∀ step, out = .ok (some (.next (some step))) → s.2 = .committed step := by
  cases party with
  | request req =>
    refine follows_bind _ (follows_requireTotpVerified env req) ?_ (by simp)
    intro s response h step hstep
    refine h step ?_
    cases hstep
    rfl
  | clock ms =>
    refine follows_perform_bind (fun _ => ?_) fun e => ?_
    · exact ⟨_,next_to .ticking (by simp),by simp⟩
    · exact ⟨_,next_to .ticking (by simp),by simp⟩

end Ploydok.Auth
