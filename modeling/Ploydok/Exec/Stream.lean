import Mathlib.Algebra.Order.Ring.Nat

/-! Exit codes over an exec stream: `agent/ploydok-agent/src/service.rs` turns the output of a
process into frames and ends with an exit frame. Deploy hooks (`worker/hooks.ts`), database commands
and scheduled jobs differ in what they make of a stream without one. -/

namespace Ploydok.Exec

/-- A received frame; chunks are given as decoded text. -/
structure ExecFrame where
  stdout : Option String := none
  stderr : Option String := none
  exit : Option Int := none
deriving DecidableEq

/-- What a client sees. The timer only half-closes the stream, so frames can still follow it. -/
inductive StreamEvent where
  | frame (f : ExecFrame)
  | error (message : String)
  | timeout
deriving DecidableEq

def exitDelivered : List StreamEvent → Option Int
  | [] => none
  | .frame f :: events => f.exit.or (exitDelivered events)
  | .error _ :: _ => none
  | .timeout :: events => exitDelivered events

/-- The error that a stream fails with before any exit frame. -/
def streamError : List StreamEvent → Option String
  | [] => none
  | .frame f :: events => if f.exit.isSome then none else streamError events
  | .error message :: _ => some message
  | .timeout :: events => streamError events

/-- How `for await (const frame of exec.events)` ends. -/
structure LoopEnd (σ : Type) where
  state : σ
  /-- The code of the frame that broke the loop. -/
  exit : Option Int
  thrown : Option String
  timedOut : Bool

/-- The loop of the clients: every frame is collected, an exit frame breaks. -/
def readFrames {σ : Type} (collect : σ → ExecFrame → σ) :
    σ → Bool → List StreamEvent → LoopEnd σ
  | s, timedOut, [] => ⟨s,none,none,timedOut⟩
  | s, timedOut, .frame f :: events =>
    match f.exit with
    | some code => ⟨collect s f,some code,none,timedOut⟩
    | none => readFrames collect (collect s f) timedOut events
  | s, timedOut, .error message :: _ => ⟨s,none,some message,timedOut⟩
  | s, _, .timeout :: events => readFrames collect s true events

theorem readFrames_ends {σ : Type} (collect : σ → ExecFrame → σ) (s : σ) (t : Bool)
    (events : List StreamEvent) : (readFrames collect s t events).exit = exitDelivered events ∧
      (readFrames collect s t events).thrown = streamError events := by
  induction events generalizing s t with
  | nil => exact ⟨rfl,rfl⟩
  | cons event events ih =>
    cases event with
    | frame f =>
      cases hf : f.exit with
      | none => simp [readFrames,exitDelivered,streamError,hf,ih]
      | some code => simp [readFrames,exitDelivered,streamError,hf]
    | error message => exact ⟨rfl,rfl⟩
    | timeout => exact ih s true

inductive Phase where
  | pre
  | post
deriving DecidableEq

def Phase.text : Phase → String
  | .pre => "pre"
  | .post => "post"

inductive HookError where
  /-- `ensureProjectNetwork` or `containerStart` threw. -/
  | agent (message : String)
  | create (phase : Phase) (message : String)
  /-- `HookFailedError`. -/
  | failed (phase : Phase) (exitCode : Int)
deriving DecidableEq

def HookError.message : HookError → String
  | .agent message => message
  | .create phase message =>
    "Failed to create " ++ phase.text ++ "_deploy hook container: " ++ message
  | .failed phase exitCode =>
    phase.text ++ "_deploy hook failed with exit code " ++ toString exitCode

/-- What the calls of `runHook` answer, in their order, the removal of the container apart. -/
structure HookCalls where
  ensureNetwork : Except String Unit
  /-- The id of the created container. -/
  containerCreate : Except String String
  containerStart : Except String Unit
  events : List StreamEvent

/-- `for (const line of text.split("\n")) if (line) publish(line)`. -/
def publishLines (tag : String) (chunk : Option String) : List String :=
  match chunk with
  | none => []
  | some text =>
    ((text.toList.splitOn '\n').filter (· ≠ [])).map fun line => tag ++ String.ofList line

def hookFrame (lines : List String) (f : ExecFrame) : List String :=
  lines ++ publishLines "" f.stdout ++ publishLines "[stderr] " f.stderr

def runHook (phase : Phase) (hookCmd : String) (calls : HookCalls) :
    List String × Except HookError Unit :=
  let publish (lines : List String) := lines.map fun line => "[hook:" ++ phase.text ++ "] " ++ line
  let first := ["→ " ++ phase.text ++ "_deploy: " ++ hookCmd]
  match calls.ensureNetwork with
  | .error e => (publish first, .error (.agent e))
  | .ok () =>
    match calls.containerCreate with
    | .error e => (publish first, .error (.create phase e))
    | .ok containerId =>
      match calls.containerStart with
      | .error e => (publish first, .error (.agent e))
      | .ok () =>
        -- a stream error is caught and logged, whatever it cut off
        let loop := readFrames hookFrame (first ++ ["container started: " ++ containerId]) false
          calls.events
        let exitCode := loop.exit.getD 0
        let lines := publish (loop.state ++ ["exited with code " ++ toString exitCode])
        if exitCode ≠ 0 then (lines, .error (.failed phase exitCode)) else (lines, .ok ())

def HookCalls.SetupFails (calls : HookCalls) : Prop :=
  ¬ (calls.ensureNetwork.isOk ∧ calls.containerCreate.isOk ∧ calls.containerStart.isOk)

theorem runHook_ok_iff (phase : Phase) (hookCmd : String) (calls : HookCalls) :
    (runHook phase hookCmd calls).2 = .ok () ↔
      ¬ calls.SetupFails ∧ (exitDelivered calls.events).getD 0 = 0 := by
  obtain ⟨network,create,start,events⟩ := calls
  cases network with
  | error e => simp [runHook,HookCalls.SetupFails,Except.isOk,Except.toBool]
  | ok _ =>
    cases create with
    | error e => simp [runHook,HookCalls.SetupFails,Except.isOk,Except.toBool]
    | ok containerId =>
      cases start with
      | error e => simp [runHook,HookCalls.SetupFails,Except.isOk,Except.toBool]
      | ok _ =>
        simp only [runHook,HookCalls.SetupFails,Except.isOk,Except.toBool,readFrames_ends,
          and_self,not_true,not_false_eq_true,true_and]
        by_cases h : (exitDelivered events).getD 0 = 0
        · simp [h]
        · simp [h]

def execFrame (chunks : List String) (f : ExecFrame) : List String :=
  match f.stdout with
  | some text => if text = "" then chunks else chunks ++ [text]
  | none => chunks

def execInDbContainer (events : List StreamEvent) : Except String (String × Int) :=
  let loop := readFrames execFrame [] false events
  match loop.thrown with
  | some message => .error message
  | none => .ok (String.join loop.state, loop.exit.getD 0)

theorem execInDbContainer_zero_iff (events : List StreamEvent) :
    (∃ stdout, execInDbContainer events = .ok (stdout, 0)) ↔
      streamError events = none ∧ (exitDelivered events).getD 0 = 0 := by
  unfold execInDbContainer
  cases h : streamError events with
  | none | some message => simp [readFrames_ends,h]

inductive JobError where
  /-- `ScheduledJobTimeoutError`. -/
  | timeout (jobId : String) (timeoutMs : Nat)
  | stream (message : String)
  | noExitCode
deriving DecidableEq

def JobError.message : JobError → String
  | .timeout jobId timeoutMs =>
    "scheduled job " ++ jobId ++ " timed out after " ++ toString timeoutMs ++ "ms"
  | .stream message => message
  | .noExitCode => "container exec ended without exit code"

def maxCapturedLogBytes : Nat := 32 * 1024

def appendLogTail (current chunk : List Char) : List Char :=
  let combined := current ++ chunk
  combined.drop (combined.length - maxCapturedLogBytes)

structure JobOutput where
  stdout : List Char := []
  stderr : List Char := []

def jobFrame (out : JobOutput) (f : ExecFrame) : JobOutput :=
  let append (current : List Char) (chunk : Option String) : List Char :=
    match chunk with
    | some text => if text = "" then current else appendLogTail current text.toList
    | none => current
  ⟨append out.stdout f.stdout,append out.stderr f.stderr⟩

/-- A stream error is passed on unless the timer has fired; a timeout or a missing exit code is an
error of its own. -/
def execCommandInContainer (jobId : String) (timeoutMs : Nat) (events : List StreamEvent) :
    Except JobError (Int × JobOutput) :=
  let loop := readFrames jobFrame {} false events
  if loop.timedOut then .error (.timeout jobId timeoutMs)
  else
    match loop.thrown with
    | some message => .error (.stream message)
    | none =>
      match loop.exit with
      | none => .error .noExitCode
      | some code => .ok (code, loop.state)

/-- The loop returns with a code before the timer exactly if nothing but frames comes before the
frame with the code. -/
theorem readFrames_eq_iff {σ : Type} {collect : σ → ExecFrame → σ} {s out : σ} :
    readFrames collect s timedOut events = ⟨out,some code,none,false⟩ ↔
      timedOut = false ∧ ∃ before last after,
        events = before.map .frame ++ .frame last :: after ∧ (∀ f ∈ before, f.exit = none) ∧
          last.exit = some code ∧ out = (before ++ [last]).foldl collect s := by
  induction events generalizing s timedOut with
  | nil => simp [readFrames]
  | cons event events ih =>
    cases event with
    | error message => simp [readFrames,List.map_eq_cons_iff,List.cons_eq_append_iff]
    | timeout => simp [readFrames,ih,List.cons_eq_append_iff,List.map_eq_cons_iff]
    | frame f =>
      cases hf : f.exit with
      | none =>
        simp only [readFrames,hf,ih]
        refine and_congr_right fun _ => ⟨?_,?_⟩
        · rintro ⟨before,last,after,rfl,hbefore,hlast,rfl⟩
          exact ⟨f :: before,last,after,rfl,by simpa [hf] using hbefore,hlast,rfl⟩
        · rintro ⟨before,last,after,heq,hbefore,hlast,rfl⟩
          cases before with
          | nil =>
            cases heq
            simp [hf] at hlast
          | cons g before =>
            cases heq
            exact ⟨before,last,after,rfl,fun g hg => hbefore g (by simp [hg]),hlast,rfl⟩
      | some n =>
        simp only [readFrames,hf,LoopEnd.mk.injEq,Option.some.injEq,true_and]
        constructor
        · rintro ⟨rfl,rfl,rfl⟩
          exact ⟨rfl,[],f,events,rfl,by simp,hf,rfl⟩
        · rintro ⟨ht,before,last,after,heq,hbefore,hlast,rfl⟩
          cases before with
          | nil =>
            cases heq
            exact ⟨rfl,Option.some.inj (hf.symm.trans hlast),ht⟩
          | cons g before =>
            cases heq
            simp [hf] at hbefore

/-- What the output task of `container_exec` meets; where the sequence stops, the output
of the process has ended. -/
inductive OutputEvent where
  | stdOut (message : String)
  | stdErr (message : String)
  | console (message : String)
  | stdIn (message : String)
  | error (message : String)
  | idle
  /-- The client has gone, or has half-closed its side and the task is aborted. -/
  | disconnected

inductive AgentFrame where
  | stdout (bytes : String)
  | stderr (bytes : String)
  | exit (code : Int32)
deriving DecidableEq

inductive Status where
  | internal (message : String)
  | deadlineExceeded (message : String)
deriving DecidableEq

/-- `inspect_exec(..).ok().and_then(|info| info.exit_code).unwrap_or(0) as i32`. -/
def inspectedCode (inspect : Except String (Option Int64)) : Int32 :=
  (inspect.toOption.join.getD 0).toInt32

/-- The items the output task sends, for what `inspect_exec` would answer at the end. -/
def containerExecOutput (inspect : Except String (Option Int64)) :
    List OutputEvent → List (Except Status AgentFrame)
  | [] => [.ok (.exit (inspectedCode inspect))]
  | .stdOut message :: events => .ok (.stdout message) :: containerExecOutput inspect events
  | .stdErr message :: events => .ok (.stderr message) :: containerExecOutput inspect events
  | .console message :: events => .ok (.stdout message) :: containerExecOutput inspect events
  | .stdIn _ :: events => containerExecOutput inspect events
  | .error message :: _ => [.error (.internal message)]
  | .idle :: _ => [.error (.deadlineExceeded "exec idle timeout (600s)")]
  | .disconnected :: _ => []

/-- The output is cut off by an error, by silence or by the client. -/
def CutOff (events : List OutputEvent) : Prop :=
  ∃ event ∈ events, match event with
    | .error _ | .idle | .disconnected => True
    | _ => False

theorem exit_mem_containerExecOutput_iff (inspect : Except String (Option Int64))
    (events : List OutputEvent) (code : Int32) :
    .ok (.exit code) ∈ containerExecOutput inspect events ↔
      ¬ CutOff events ∧ code = inspectedCode inspect := by
  induction events with
  | nil => simp [containerExecOutput,CutOff]
  | cons event events ih =>
    cases event <;> simp_all [containerExecOutput,CutOff]

theorem toInt32_eq_zero_iff (n : Int64) : n.toInt32 = 0 ↔ (2 : Int) ^ 32 ∣ n.toInt := by
  rw [← Int32.toInt_inj,Int64.toInt_toInt32,Int32.toInt_zero]
  exact ⟨Int.dvd_of_bmod_eq_zero,Int.bmod_eq_zero_of_dvd⟩

theorem inspectedCode_eq_zero_iff (inspect : Except String (Option Int64)) :
    (inspectedCode inspect = 0 → inspect = .ok (some 0)) ↔
      ∃ n, inspect = .ok (some n) ∧ (n = 0 ∨ ¬ (2 : Int) ^ 32 ∣ n.toInt) := by
  cases inspect with
  | error e => simp [inspectedCode,Except.toOption]
  | ok code =>
    cases code with
    | none => simp [inspectedCode,Except.toOption]
    | some n =>
      simp only [inspectedCode,Except.toOption,Option.join_some,Option.getD_some,
        toInt32_eq_zero_iff,Except.ok.injEq,Option.some.injEq,exists_eq_left']
      tauto

/-- A hook that resolves, a database command that returns 0 and an agent that reports 0 stand for a
process that exited with 0 exactly as long as an exit code has been delivered. -/
theorem exit_zero_delivered_iff (phase : Phase) (hookCmd : String) (calls : HookCalls)
    (dbEvents : List StreamEvent) (inspect : Except String (Option Int64))
    (output : List OutputEvent) :
    (((runHook phase hookCmd calls).2 = .ok () → exitDelivered calls.events = some 0) ↔
      calls.SetupFails ∨ (exitDelivered calls.events).isSome) ∧
    ((∀ stdout, execInDbContainer dbEvents = .ok (stdout, 0) → exitDelivered dbEvents = some 0) ↔
      (streamError dbEvents).isSome ∨ (exitDelivered dbEvents).isSome) ∧
    ((.ok (.exit 0) ∈ containerExecOutput inspect output → inspect = .ok (some 0)) ↔
      CutOff output ∨ ∃ n, inspect = .ok (some n) ∧ (n = 0 ∨ ¬ (2 : Int) ^ 32 ∣ n.toInt)) := by
  refine ⟨?_,?_,?_⟩
  · rw [runHook_ok_iff]
    by_cases hs : calls.SetupFails
    · simp [hs]
    · cases h : exitDelivered calls.events with
      | none | some => simp [hs]
  · rw [← forall_exists_index (p := fun stdout => execInDbContainer dbEvents = .ok (stdout, 0))
      (q := fun _ => exitDelivered dbEvents = some 0),execInDbContainer_zero_iff]
    cases hs : streamError dbEvents with
    | some message => simp
    | none =>
      cases h : exitDelivered dbEvents with
      | none | some => simp
  · rw [exit_mem_containerExecOutput_iff,← inspectedCode_eq_zero_iff]
    by_cases hc : CutOff output
    · simp [hc]
    · simp only [hc,not_false_eq_true,true_and,false_or]
      rw [eq_comm]

/-- A migration hook that prints a line and then runs into its timeout is taken for a success. -/
theorem timed_out_hook_resolves :
    ¬ ∀ (phase : Phase) (hookCmd : String) (calls : HookCalls) (dbEvents : List StreamEvent)
      (inspect : Except String (Option Int64)) (output : List OutputEvent),
      ((runHook phase hookCmd calls).2 = .ok () → exitDelivered calls.events = some 0) ∧
      (∀ stdout, execInDbContainer dbEvents = .ok (stdout, 0) → exitDelivered dbEvents = some 0) ∧
      (.ok (.exit 0) ∈ containerExecOutput inspect output → inspect = .ok (some 0)) := by
  intro h
  have hook := (h .pre "npm run migrate" ⟨.ok (),.ok "c0ffee",.ok (),
    [.frame { stdout := some "migrating" }, .timeout]⟩ [] (.ok (some 0)) []).1
  rw [runHook_ok_iff] at hook
  simp [HookCalls.SetupFails,exitDelivered,Except.isOk,Except.toBool] at hook

end Ploydok.Exec
