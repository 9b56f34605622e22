import Ploydok.Deploy.Handler
import Ploydok.Effect.Pool

/-! What a deploy from Git builds, `cloneRepo` and `handleDeploy` from the clone to the image. The
clone takes whatever the branch points to at that moment; the image is tagged with the commit that
the job was queued for. -/

namespace Ploydok.Deploy.Checkout

open Effect Effect.Prog List Function

structure GitJob where
  (buildId branch : String)
  commitSha : Option String
  kind : Option PayloadKind
  tag : Option String
  deriving DecidableEq, Repr

inductive Call where
  | push (branch sha : String)
  | gitClone (branch buildId : String)
  | resolveHeadSha (buildId : String)
  | recordCommit (buildId sha : String)
  | detectBuildMethod (buildId : String)
  | dispatchStaticDeploy (buildId sha : String)
  | buildImage (buildId sha : String)
  | recordImage (buildId sha : String)
  | tagManifest (sha tag : String)
  | cleanupWorkspace (buildId : String)
  deriving DecidableEq

@[reducible] def Call.Res (T : Type) : Call → Type
  | .resolveHeadSha _ => Option String
  | .detectBuildMethod _ => BuildMethod
  | .dispatchStaticDeploy .. | .buildImage .. => T
  | _ => Unit

section Programs

variable (T : Type)

abbrev Platform : Sig := ⟨Call,Call.Res T⟩

abbrev GitProg := Prog (Platform T) String

variable {T}

def call (o : Call) : GitProg T (o.Res T) := Prog.perform (S := Platform T) o

def pushImage (job : GitJob) (method : BuildMethod) (sha : String) : GitProg T Unit := do
  let _ ← call (.buildImage job.buildId sha)
  call (.recordImage job.buildId sha)
  match job.kind, truthy job.tag with
  | some .tag, some tag =>
    if method = .railpack then return ()
    else (call (.tagManifest sha tag)).tryCatch fun _ => return ()
  | _, _ => return ()

/-- A job without a commit is given the one that was found. -/
def recordResolved (job : GitJob) (resolvedCommitSha : Option String) : GitProg T Unit :=
  match job.commitSha, truthy resolvedCommitSha with
  | none, some sha => call (.recordCommit job.buildId sha)
  | _, _ => return ()

def buildWorkspace (job : GitJob) : GitProg T Unit := do
  let headSha ← call (.resolveHeadSha job.buildId)
  let resolvedCommitSha := job.commitSha.or headSha
  recordResolved job resolvedCommitSha
  let method ← call (.detectBuildMethod job.buildId)
  let commitSha := resolvedCommitSha.getD job.buildId
  if method = .static then do
    let _ ← call (.dispatchStaticDeploy job.buildId commitSha)
  else pushImage job method commitSha

def handleDeploy (job : GitJob) : GitProg T Unit := do
  call (.gitClone job.branch job.buildId)
  buildWorkspace job

inductive Party where
  | developer (branch sha : String)
  | attempt (job : GitJob)
  | cleanup (buildId : String)
  deriving DecidableEq, Repr

def Party.run : Party → GitProg T Unit
  | developer branch sha => call (.push branch sha)
  | attempt job => handleDeploy job
  | cleanup buildId => call (.cleanupWorkspace buildId)

end Programs

structure World where
  (heads workspaces : String → Option String)

section Semantics

variable {T : Type} (tree : String → T)

/-- A clone needs an empty workspace; what it finds there is the head of the branch. -/
def Responds : (o : Call) → World → o.Res T → World → Prop
  | .push branch sha, w, _, w' =>
    w' = { w with heads := update w.heads branch (some sha) }
  | .gitClone branch buildId, w, _, w' =>
    w.workspaces buildId = none ∧ ∃ head, w.heads branch = some head ∧
      w' = { w with workspaces := update w.workspaces buildId (some head) }
  | .resolveHeadSha buildId, w, r, w' => (r = none ∨ r = w.workspaces buildId) ∧ w' = w
  | .dispatchStaticDeploy buildId _, w, r, w' =>
    (∃ commit, w.workspaces buildId = some commit ∧ r = tree commit) ∧ w' = w
  | .buildImage buildId _, w, r, w' =>
    (∃ commit, w.workspaces buildId = some commit ∧ r = tree commit) ∧ w' = w
  | .cleanupWorkspace buildId, w, _, w' =>
    w' = { w with workspaces := update w.workspaces buildId none }
  | _, w, _, w' => w' = w

/-- Every call may fail, without effect or after it was carried out. -/
def gitSem : Sem (Platform T) String World := fun o w r w' =>
  match r with
  | .ok a => Responds tree o w a w'
  | .error _ => w' = w ∨ ∃ a, Responds tree o w a w'

def outputs (log : List (Event (Platform T) String)) : List (String × T) :=
  log.filterMap fun
    | ⟨.buildImage _ sha,.ok content⟩
    | ⟨.dispatchStaticDeploy _ sha,.ok content⟩ => some (sha, content)
    | _ => none

variable {tree : String → T} {w w' : World} {o : Call} {r : Except String (o.Res T)}

inductive Change (w : World) (o : Call) : (String → Option String) → Prop
  | none : Change w o w.workspaces
  | clone {branch buildId head : String} (ho : o = .gitClone branch buildId)
      (hhead : w.heads branch = some head) :
      Change w o (update w.workspaces buildId (some head))
  | cleanup {buildId : String} (ho : o = .cleanupWorkspace buildId) :
      Change w o (update w.workspaces buildId none)

theorem change_of_responds (h : Responds tree o w a w') : Change w o w'.workspaces := by
  cases o with
  | push => exact h ▸ .none
  | gitClone =>
    obtain ⟨-,head,hhead,rfl⟩ := h
    exact .clone rfl hhead
  | resolveHeadSha | dispatchStaticDeploy | buildImage => exact h.2 ▸ .none
  | cleanupWorkspace => exact h ▸ .cleanup rfl
  | _ => exact h ▸ .none

theorem change_of_step (h : gitSem tree o w r w') : Change w o w'.workspaces := by
  cases r with
  | ok a => exact change_of_responds h
  | error e =>
    rcases h with rfl | ⟨a,ha⟩
    · exact .none
    · exact change_of_responds ha

theorem mem_outputs_step (h : gitSem tree o w r w')
    (hout : out ∈ outputs [(⟨o,r⟩ : Event (Platform T) String)]) :
    ∃ buildId commit, w.workspaces buildId = some commit ∧ out.2 = tree commit ∧
      (o = .buildImage buildId out.1 ∨ o = .dispatchStaticDeploy buildId out.1) := by
  cases r with
  | error e => cases o <;> simp [outputs] at hout
  | ok a =>
    cases o with
    | buildImage buildId sha =>
      obtain ⟨⟨commit,hcommit,rfl⟩,-⟩ := h
      obtain rfl : out = (sha, tree commit) := by simpa [outputs] using hout
      exact ⟨buildId,commit,hcommit,rfl,.inl rfl⟩
    | dispatchStaticDeploy buildId sha =>
      obtain ⟨⟨commit,hcommit,rfl⟩,-⟩ := h
      obtain rfl : out = (sha, tree commit) := by simpa [outputs] using hout
      exact ⟨buildId,commit,hcommit,rfl,.inr rfl⟩
    | _ => simp [outputs] at hout

end Semantics

/-- An attempt clones its own branch into its own workspace, builds there, and names the result
after its commit if it has one. -/
def Own (job : GitJob) : Call → Prop
  | .push .. | .cleanupWorkspace _ => False
  | .gitClone branch buildId => branch = job.branch ∧ buildId = job.buildId
  | .buildImage buildId sha => buildId = job.buildId ∧ ∀ s, job.commitSha = some s → sha = s
  | .dispatchStaticDeploy buildId sha =>
    buildId = job.buildId ∧ ∀ s, job.commitSha = some s → sha = s
  | _ => True

def Party.Makes : Party → Call → Prop
  | developer branch sha, o => o = .push branch sha
  | attempt job, o => Own job o
  | cleanup buildId, o => o = .cleanupWorkspace buildId

section Calls

variable {T : Type}

theorem calls_call (h : P o) : (call (T := T) o).Calls P :=
  calls_perform h

theorem calls_buildWorkspace (job : GitJob) : (buildWorkspace (T := T) job).Calls (Own job) := by
  have hsha : ∀ headSha s, job.commitSha = some s →
      (job.commitSha.or headSha).getD job.buildId = s := by
    rintro headSha s hs
    simp [hs]
  refine calls_bind (calls_call trivial) fun headSha => ?_
  have hrecord : (recordResolved (T := T) job (job.commitSha.or headSha)).Calls (Own job) := by
    unfold recordResolved
    split
    · exact calls_call trivial
    · exact calls_ret _
  refine calls_bind hrecord fun _ => ?_
  refine calls_bind (calls_call trivial) fun method => ?_
  split
  · exact calls_bind (calls_call ⟨rfl,hsha headSha⟩) fun _ => calls_ret _
  · refine calls_bind (calls_call ⟨rfl,hsha headSha⟩) fun _ => ?_
    refine calls_bind (calls_call trivial) fun _ => ?_
    split
    · split
      · exact calls_ret _
      · exact calls_tryCatch (calls_call trivial) fun _ => calls_ret _
    · exact calls_ret _

theorem calls_run (party : Party) : (party.run (T := T)).Calls party.Makes := by
  cases party with
  | developer | cleanup => exact calls_call rfl
  | attempt job => exact calls_bind (calls_call ⟨rfl,rfl⟩) fun _ => calls_buildWorkspace job

end Calls

section Runs

variable {T ι : Type} [DecidableEq ι] (tree : String → T) (parties : ι → Party)

abbrev Work (T ι : Type) := Pool (Platform T) String Unit ι World

def Retries : Prop := ∀ i j job job', parties i = .attempt job → parties j = .attempt job' →
  job.buildId = job'.buildId → job.commitSha = job'.commitSha

def Fresh (w : World) : Prop := ∀ i job, parties i = .attempt job → w.workspaces job.buildId = none

def Current (c : Work T ι) (i : ι) : Prop :=
  ∀ job sha, parties i = .attempt job → job.commitSha = some sha →
    ∀ k, c.prog i = .call (.gitClone job.branch job.buildId) k →
      ∀ head, c.world.heads job.branch = some head → tree head = tree sha

structure Faithful (c : Work T ι) : Prop where
  workspaces : ∀ i job sha, parties i = .attempt job → job.commitSha = some sha →
    ∀ commit, c.world.workspaces job.buildId = some commit → tree commit = tree sha
  outputs : ∀ i job sha, parties i = .attempt job → job.commitSha = some sha →
    ∀ out ∈ outputs (c.log i), out = (sha, tree sha)

variable {tree parties} {c : Work T ι} {i : ι} {o : Call}
  {k : Except String (o.Res T) → GitProg T Unit} {r : Except String (o.Res T)} {w' : World}

theorem Faithful.step (hretries : Retries parties) (h : Faithful tree parties c)
    (hok : Current tree parties c i) (hmakes : (parties i).Makes o) (hc : c.prog i = .call o k)
    (hs : gitSem tree o c.world r w') : Faithful tree parties (c.advance i ⟨o,r⟩ (k r) w') := by
  constructor
  · intro j job sha hjob hsha commit hcommit
    simp only [Pool.advance_world] at hcommit
    generalize hws : w'.workspaces = ws at hcommit
    have hchange := hws ▸ change_of_step hs
    cases hchange with
    | none => exact h.workspaces j job sha hjob hsha commit hcommit
    | @clone branch buildId head ho hhead =>
      subst ho
      by_cases hid : job.buildId = buildId
      · -- the clone is that of an attempt at the same job
        obtain rfl : head = commit := by simpa [hid] using hcommit
        generalize hi : parties i = party at hmakes
        cases party with
        | developer | cleanup => cases hmakes
        | attempt job' =>
          obtain ⟨rfl,rfl⟩ := hmakes
          have hsame := hretries i j job' job hi hjob hid.symm
          exact hok job' sha hi (hsame.trans hsha) k hc head hhead
      · rw [update_of_ne hid] at hcommit
        exact h.workspaces j job sha hjob hsha commit hcommit
    | @cleanup buildId ho =>
      by_cases hid : job.buildId = buildId
      · simp [hid] at hcommit
      · rw [update_of_ne hid] at hcommit
        exact h.workspaces j job sha hjob hsha commit hcommit
  · intro j job sha hjob hsha out hout
    by_cases hj : j = i
    · subst hj
      simp only [Pool.advance_log,update_self] at hout
      rw [Checkout.outputs,filterMap_append,mem_append] at hout
      rcases hout with hout | hout
      · exact h.outputs j job sha hjob hsha out hout
      · obtain ⟨buildId,commit,hcommit,hcontent,ho⟩ := mem_outputs_step hs hout
        rw [hjob] at hmakes
        have hown : buildId = job.buildId ∧ ∀ s, job.commitSha = some s → out.1 = s := by
          rcases ho with rfl | rfl
          · exact hmakes
          · exact hmakes
        have htree := h.workspaces j job sha hjob hsha commit (hown.1 ▸ hcommit)
        exact Prod.ext (hown.2 sha hsha) (hcontent.trans htree)
    · refine h.outputs j job sha hjob hsha out ?_
      simpa [hj] using hout

theorem faithful_of_current (hretries : Retries parties) (hfresh : Fresh parties w)
    (hreach : Pool.Reach (gitSem tree) (Current tree parties)
      (Pool.start w fun i => (parties i).run) c) : Faithful tree parties c := by
  refine hreach.invariant_of_calls (fun i => calls_run (parties i)) (Faithful tree parties) ?_ ?_
  · refine ⟨fun i job sha hjob _ commit (hcommit : w.workspaces _ = _) => ?_,
      fun i _ _ _ _ out hout => ?_⟩
    · rw [hfresh i job hjob] at hcommit
      cases hcommit
    · cases hout
  · intro c i o k r w' h hok hmakes hc hs
    exact h.step hretries hok hmakes hc hs

variable {job : GitJob} {w : World} {head sha : String}

structure Holds (tree : String → T) (job : GitJob) (head sha : String)
    (s : World × List (Event (Platform T) String)) : Prop where
  branch : s.1.heads job.branch = some head
  workspace : s.1.workspaces job.buildId = some head
  outputs : ∀ out ∈ outputs s.2, out = (sha, tree head)

theorem heads_of_own (ho : Own job o) (h : gitSem tree o w r w') : w'.heads = w.heads := by
  have hresponds : ∀ a : o.Res T, Responds tree o w a w' → w'.heads = w.heads := by
    intro a ha
    cases o with
    | push | cleanupWorkspace => exact ho.elim
    | gitClone =>
      obtain ⟨-,head,-,rfl⟩ := ha
      rfl
    | resolveHeadSha | dispatchStaticDeploy | buildImage => exact ha.2 ▸ rfl
    | _ => exact ha ▸ rfl
  cases r with
  | ok a => exact hresponds a h
  | error e =>
    rcases h with rfl | ⟨a,ha⟩
    · rfl
    · exact hresponds a ha

theorem Holds.step (hsha : job.commitSha = some sha) (h : Holds tree job head sha s)
    (ho : Own job o) (hs : Prog.logged (gitSem tree) o s r s') : Holds tree job head sha s' := by
  obtain ⟨hstep,hlog⟩ := hs
  refine ⟨?_,?_,fun out hout => ?_⟩
  · rw [heads_of_own ho hstep]
    exact h.branch
  · generalize hws : s'.1.workspaces = ws
    have hchange := hws ▸ change_of_step hstep
    cases hchange with
    | none => exact h.workspace
    | clone ho' hhead =>
      subst ho'
      obtain ⟨rfl,rfl⟩ := ho
      simpa using hhead.symm.trans h.branch
    | cleanup ho' =>
      subst ho'
      exact ho.elim
  · rw [hlog,Checkout.outputs,filterMap_append,mem_append] at hout
    rcases hout with hout | hout
    · exact h.outputs out hout
    · obtain ⟨buildId,commit,hcommit,hcontent,ho'⟩ := mem_outputs_step hstep hout
      have hown : buildId = job.buildId ∧ ∀ s, job.commitSha = some s → out.1 = s := by
        rcases ho' with rfl | rfl
        · exact ho
        · exact ho
      rw [hown.1,h.workspace] at hcommit
      cases hcommit
      exact Prod.ext (hown.2 sha hsha) hcontent

theorem outputs_handleDeploy (hsha : job.commitSha = some sha)
    (hhead : w.heads job.branch = some head)
    (hrun : (handleDeploy job).Runs (gitSem tree) w tr out w') :
    ∀ o ∈ outputs tr, o = (sha, tree head) := by
  have hpost : Post (Prog.logged (gitSem tree)) (handleDeploy job) (w, []) fun _ s =>
      ∀ o ∈ outputs s.2, o = (sha, tree head) := by
    refine post_bind (fun r s => match r with
      | .ok _ => Holds tree job head sha s
      | .error _ => outputs s.2 = []) (post_perform fun r s hs => ?_) ?_ ?_
    · obtain ⟨hstep,hlog⟩ := hs
      cases r with
      | error e =>
        rw [hlog]
        rfl
      | ok a =>
        obtain ⟨-,head',hhead',hw⟩ := hstep
        obtain rfl := Option.some.inj (hhead'.symm.trans hhead)
        refine ⟨by rw [hw]; exact hhead,by rw [hw]; simp,?_⟩
        rw [hlog]
        intro o ho
        cases ho
    · intro _ s hs
      refine post_mono (post_of_calls (calls_buildWorkspace job) (Holds tree job head sha)
        (fun _ _ _ _ ho hv hs => hv.step hsha ho hs) hs) fun _ s' hs' => hs'.outputs
    · intro e s hs o ho
      rw [hs] at ho
      cases ho
  exact post_logged hpost hrun

end Runs

/-- Where attempts clone only while the branch points to the tree of their commit, all that they tag
with a commit is built from its tree. An attempt that nothing comes between tags something built
from that tree exactly if the branch points to it. -/
theorem commit_tag_faithful {T ι : Type} [DecidableEq ι] (tree : String → T)
    (parties : ι → Party) (hretries : Retries parties) :
    (∀ (w : World) (c : Work T ι), Fresh parties w → Pool.Reach (gitSem tree) (Current tree parties)
        (Pool.start w fun i => (parties i).run) c →
      ∀ i job sha, parties i = .attempt job → job.commitSha = some sha →
        ∀ out ∈ outputs (c.log i), out = (sha, tree sha)) ∧
    ∀ (w w' : World) (job : GitJob) (sha head : String) (tr : List (Event (Platform T) String))
      (out : Except String Unit), job.commitSha = some sha → w.heads job.branch = some head →
      (handleDeploy job).Runs (gitSem tree) w tr out w' →
      ∀ o ∈ outputs tr, o = (sha, tree sha) ↔ tree head = tree sha := by
  refine ⟨fun w c hfresh hreach => (faithful_of_current hretries hfresh hreach).outputs,?_⟩
  intro w w' job sha head tr out hsha hhead hrun o ho
  rw [outputs_handleDeploy hsha hhead hrun o ho]
  simp

/-! ### A push while a job is queued -/

/-- A server on which nothing fails; trees are named like their commits. -/
def serve : (o : Call) → World → Except String (o.Res String) × World
  | .push branch sha, w => (.ok (), { w with heads := update w.heads branch (some sha) })
  | .gitClone branch buildId, w =>
    match w.workspaces buildId, w.heads branch with
    | none, some head =>
      (.ok (), { w with workspaces := update w.workspaces buildId (some head) })
    | _, _ => (.error "git clone failed", w)
  | .resolveHeadSha buildId, w => (.ok (w.workspaces buildId), w)
  | .recordCommit .., w => (.ok (), w)
  | .detectBuildMethod _, w => (.ok .docker, w)
  | .dispatchStaticDeploy buildId _, w =>
    match w.workspaces buildId with
    | some commit => (.ok commit, w)
    | none => (.error "workspace is gone", w)
  | .buildImage buildId _, w =>
    match w.workspaces buildId with
    | some commit => (.ok commit, w)
    | none => (.error "workspace is gone", w)
  | .recordImage .., w | .tagManifest .., w => (.ok (), w)
  | .cleanupWorkspace buildId, w =>
    (.ok (), { w with workspaces := update w.workspaces buildId none })

theorem gitSem_serve (o : Call) (w : World) : gitSem id o w (serve o w).1 (serve o w).2 := by
  cases o with
  | gitClone branch buildId =>
    simp only [serve]
    split
    · next hnone hhead => exact ⟨hnone,_,hhead,rfl⟩
    · exact .inl rfl
  | dispatchStaticDeploy | buildImage =>
    simp only [serve]
    split
    · next commit hcommit => exact ⟨⟨commit,hcommit,rfl⟩,rfl⟩
    · exact .inl rfl
  | _ => simp [serve,gitSem,Responds]

namespace Shop

def job : GitJob := ⟨"b1","main",some "c1",none,none⟩

def world : World := ⟨fun branch => if branch = "main" then some "c1" else none,fun _ => none⟩

def parties : Bool → Party
  | true => .attempt job
  | false => .developer "main" "c2"

def start : Work String Bool := Pool.start world fun i => (parties i).run

theorem retries : Retries parties := by
  intro i j job job' hi hj _
  cases i <;> cases j <;> simp_all [parties]

def pushedFirst : Work String Bool :=
  ([false] ++ replicate 5 true).foldl (Pool.tick serve) start

def clonedFirst : Work String Bool :=
  ([true, false] ++ replicate 4 true).foldl (Pool.tick serve) start

def clones : GitProg String Unit → Bool
  | .call (.gitClone ..) _ => true
  | _ => false

theorem current_of_head (h : clones (c.prog i) = true → c.world.heads "main" = some "c1") :
    Current id parties c i := by
  intro job' sha hjob hsha k hk head hhead
  cases i with
  | false => cases hjob
  | true =>
    cases hjob
    cases hsha
    have hc1 : c.world.heads "main" = some "c1" := h (by rw [hk]; rfl)
    exact Option.some.inj (hhead.symm.trans hc1)

end Shop

open Shop

/-- A push that comes after the clone does no harm. -/
theorem commit_tag_faithful_shop : clonedFirst.world.heads "main" = some "c2" ∧
      ∀ out ∈ outputs (clonedFirst.log true), out = ("c1", "c1") := by
  have hcurrent : Pool.Admits (Current id parties) serve start
      ([true, false] ++ replicate 4 true) := by
    have hheads : Pool.Admits (fun c i => clones (c.prog i) = true →
        c.world.heads "main" = some "c1") serve start
        ([true, false] ++ replicate 4 true) := by
      decide +kernel
    exact hheads.mono fun c i h => current_of_head h
  exact ⟨by decide +kernel,(commit_tag_faithful id parties retries).1 world
    clonedFirst (fun _ _ _ => rfl) (Pool.reach_schedule gitSem_serve _ _ hcurrent) true
    job
    "c1" rfl rfl⟩

/-- The next commit is pushed before the job is picked up: its tree is tagged with the commit of
the job. -/
theorem queued_job_builds_next_commit :
    ¬ ∀ (T ι : Type) [DecidableEq ι] (tree : String → T) (parties : ι → Party) (w : World)
      (c : Work T ι), Retries parties → Fresh parties w →
      Pool.Reach (gitSem tree) (fun _ _ => True) (Pool.start w fun i => (parties i).run) c →
      ∀ i job sha, parties i = .attempt job → job.commitSha = some sha →
        ∀ out ∈ outputs (c.log i), out = (sha, tree sha) := by
  intro hall
  have hfaithful := hall String Bool id parties world pushedFirst retries
    (fun _ _ _ => rfl) (Pool.reach_schedule gitSem_serve _ _
      (Pool.admits_of_forall (fun _ _ => trivial) _ _)) true job "c1" rfl rfl ("c1", "c2")
    (by decide +kernel)
  exact absurd hfaithful (by decide)

end Ploydok.Deploy.Checkout
