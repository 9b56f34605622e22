import Ploydok.Preview.Redeploy

/-! Deploys, teardowns and the cleanup of one preview in any order. A teardown stops the container
that the row named when it was read, and the cleanup marks the row as torn down when it queues the
job. -/

namespace Ploydok.Preview

open Effect Effect.Prog Ploydok.Runtime List Pool
open Agent (nameMatches)
open Containers (nameMatches_preview)

inductive Party where
  | deploy (job : DeployJob)
  | teardown
  | cleanup
  | close

def Party.prog : Party → PreviewProg Unit
  | .deploy job => handlePreviewDeploy job
  | .teardown => runTeardownJob
  | .cleanup => cleanupExpiredPreviews
  | .close => call (.addTeardownJob previewAttempts)

def World.Final (w : World) : Prop :=
  ∀ row, w.row = some row → row.status = .tornDown → w.docker.containers = [] ∧ w.route = none

def World.Recorded (w : World) : Prop :=
  ∀ k ∈ w.docker.containers, ∃ row, w.row = some row ∧ truthy row.containerId = some k.name

structure World.Settled (w : World) : Prop where
  recorded : w.Recorded
  final : w.jobs = [] → w.Final

/-- The database does not throw, containers are removed, and a job taken from the queue is run. -/
structure Faults.Clean (f : Faults) : Prop where
  read : ¬ f.throws .getPreviewDeployment
  update : ∀ patch, ¬ f.throws (.updatePreviewDeployment patch)
  remove : ∀ name, ¬ f.fails (.containerRemove name)
  take : ¬ f.loses .takeTeardownJob

/-! ### While one of them runs -/

def World.Busy (w : World) (containerId : Option String) (S : String → Prop) : Prop :=
  (∃ row, w.row = some row ∧ row.containerId = containerId ∧ row.status ≠ .tornDown) ∧
    ∀ k ∈ w.docker.containers, S k.name

/-- The call leaves the row alone and makes no container outside of `S`. -/
def Call.within (S : String → Prop) : Call → Prop
  | .updatePreviewDeployment _ => False
  | .containerCreate name _ => S name
  | _ => True

section Steps

variable {f : Faults} {w w' : World} {o : Call} {containerId : Option String} {S : String → Prop}
  {α : Type} {p : PreviewProg α}

theorem World.Busy.mono (h : w.Busy containerId S) (hST : ∀ x, S x → T x) : w.Busy containerId T :=
  ⟨h.1,fun k hk => hST _ (h.2 k hk)⟩

theorem World.Busy.settled (h : w.Busy containerId S)
    (hS : ∀ x, S x → truthy containerId = some x) : w.Settled := by
  obtain ⟨⟨row,hrow,rfl,hstatus⟩,hnames⟩ := h
  refine ⟨fun k hk => ⟨row,hrow,hS _ (hnames k hk)⟩,fun _ row' hrow' htorn => ?_⟩
  obtain rfl := Option.some.inj (hrow.symm.trans hrow')
  exact (hstatus htorn).elim

theorem names_setRunning {d : Docker} (h : ∀ k ∈ d.containers, S k.name) :
    ∀ k ∈ (d.setRunning ref b).containers, S k.name := by
  intro k hk
  obtain ⟨k',hk',rfl⟩ := mem_map.mp hk
  simpa using h k' hk'

theorem busy_of_sem {r : Except String o.Res} (ho : o.within S) (hw : w.Busy containerId S)
    (h : previewSem f o w r w') : w'.Busy containerId S := by
  rcases responds_of_sem h with rfl | ⟨a,h⟩
  · exact hw
  cases o with
  | updatePreviewDeployment patch => exact ho.elim
  | containerCreate name image =>
    obtain ⟨docker,hcreate,rfl⟩ := h
    refine ⟨hw.1,fun k hk => ?_⟩
    rw [(Docker.create?_eq_some hcreate).2] at hk
    rcases mem_append.mp hk with hk | hk
    · exact hw.2 k hk
    · obtain rfl := mem_singleton.mp hk
      exact ho
  | containerStart | containerStop =>
    obtain ⟨-,rfl⟩ := h
    exact ⟨hw.1,names_setRunning hw.2⟩
  | containerRemove name =>
    obtain ⟨-,rfl⟩ := h
    exact ⟨hw.1,fun k hk => hw.2 k (mem_of_mem_filter hk)⟩
  | getPreviewDeployment | listExpiredPreviews => exact h.2 ▸ hw
  | takeTeardownJob =>
    obtain ⟨-,rfl⟩ := h
    exact hw
  | _ =>
    obtain rfl := h
    exact hw

theorem post_within (hp : p.Calls (Call.within S)) (hw : w.Busy containerId S) :
    Post (previewSem f) p w fun _ w' => w'.Busy containerId S :=
  post_of_calls hp (World.Busy · containerId S) (fun _ _ _ _ => busy_of_sem) hw

theorem removed_of_sem (hf : f.Clean) (h : previewSem f (.containerRemove name) w r w') :
    ∀ k ∈ w'.docker.containers, k ∈ w.docker.containers ∧ k.name ≠ name := by
  have hdone : ∀ {w' : World}, w' = { w with docker := w.docker.remove (.name name) } →
      ∀ k ∈ w'.docker.containers, k ∈ w.docker.containers ∧ k.name ≠ name := by
    rintro _ rfl k hk
    simpa [Docker.remove,Ref.refersTo] using hk
  cases r with
  | ok a => exact hdone h.2
  | error e =>
    rcases h with ⟨hfails | hstuck,rfl⟩ | ⟨-,_,h⟩
    · exact (hf.remove name hfails).elim
    · intro k hk
      refine ⟨hk,fun hname => hstuck ⟨(),_,?_,rfl⟩⟩
      exact Docker.has_name_iff.mpr (mem_map.mpr ⟨k,hk,hname⟩)
    · exact hdone h.2

structure Stopped (ref : Option String) (w w' : World) : Prop where
  names : ∀ k ∈ w'.docker.containers,
    (∃ k₀ ∈ w.docker.containers, k₀.name = k.name) ∧ ref ≠ some k.name
  row : w'.row = w.row
  route : w'.route = w.route

theorem post_stopPreviewContainer (hf : f.Clean) (ref : Option String) (w : World) :
    Post (previewSem f) (stopPreviewContainer ref) w fun _ w' => Stopped ref w w' := by
  cases ref with
  | none => exact post_ret ⟨fun k hk => ⟨⟨k,hk,rfl⟩,by simp⟩,rfl,rfl⟩
  | some name =>
    refine post_attempt_bind (fun _ w' => w'.row = w.row ∧ w'.route = w.route ∧
        ∀ k ∈ w'.docker.containers, ∃ k0 ∈ w.docker.containers, k0.name = k.name)
      (post_perform fun r w1 hr => ?_) ?_
    · rcases responds_of_sem hr with rfl | ⟨_,-,rfl⟩
      · exact ⟨rfl,rfl,fun k hk => ⟨k,hk,rfl⟩⟩
      · exact ⟨rfl,rfl,names_setRunning (S := fun x => ∃ k0 ∈ w.docker.containers, k0.name = x)
          fun k hk => ⟨k,hk,rfl⟩⟩
    rintro _ w1 ⟨hrow,hroute,hnames⟩
    refine post_attempt_bind (fun _ w' => Stopped (some name) w w')
      (post_perform fun r w2 hr => ?_) fun _ w2 hw2 => post_ret hw2
    have hgone := removed_of_sem hf hr
    have hrow2 : w2.row = w1.row ∧ w2.route = w1.route := by
      rcases responds_of_sem hr with rfl | ⟨_,-,rfl⟩
      · exact ⟨rfl,rfl⟩
      · exact ⟨rfl,rfl⟩
    refine ⟨fun k hk => ⟨hnames k (hgone k hk).1,fun h => (hgone k hk).2 ?_⟩,
      hrow2.1.trans hrow,hrow2.2.trans hroute⟩
    exact (Option.some.inj h).symm

theorem post_stop (hf : f.Clean) (ref : Option String) (hw : w.Busy containerId S) :
    Post (previewSem f) (stopPreviewContainer ref) w fun _ w' =>
      w'.Busy containerId fun x => S x ∧ ref ≠ some x := by
  refine post_mono (post_stopPreviewContainer hf ref w) fun _ w' hstopped => ?_
  refine ⟨hstopped.row.symm ▸ hw.1,fun k hk => ?_⟩
  obtain ⟨⟨k0,hk0,hname⟩,hne⟩ := hstopped.names k hk
  exact ⟨hname ▸ hw.2 k0 hk0,hne⟩

theorem post_update {Q : Except String Unit → World → Prop} (hf : f.Clean)
    (h : Q (.ok ()) { w with row := w.row.map patch.apply }) :
    Post (previewSem f) (call (.updatePreviewDeployment patch)) w Q := by
  refine post_perform fun r w' hr => ?_
  cases r with
  | ok a =>
    obtain rfl := hr
    exact h
  | error e =>
    exact (hf.update patch (throws_of_sem hr ⟨(),_,rfl⟩)).elim

/-! ### Deploys -/

variable {job : DeployJob} {preview : PreviewRow} {ref : Option String}

def Either (containerId ref : Option String) (x : String) : Prop :=
  truthy containerId = some x ∨ ref = some x

/-- After a throw the world is settled, after a return `A` holds. -/
def OrSettled (A : World → Prop) : Except String α → World → Prop
  | .ok _, w => A w
  | .error _, w => w.Settled

theorem busy_update (patch : Patch) (hstatus : patch.status = some status)
    (hne : status ≠ .tornDown) (hw : w.Busy containerId S) :
    ({ w with row := w.row.map patch.apply } : World).Busy (patch.containerId.getD containerId) S := by
  obtain ⟨⟨row,hrow,rfl,-⟩,hnames⟩ := hw
  refine ⟨⟨patch.apply row,by simp [hrow],rfl,?_⟩,hnames⟩
  simpa [Patch.apply,hstatus] using hne

theorem settled_failed (hf : f.Clean) (e : String) (hw : w.Busy containerId S)
    (hS : ∀ x, S x → ref ≠ some x → truthy containerId = some x) :
    Post (previewSem f) (failed ref e : PreviewProg α) w (OrSettled A) := by
  have hmarked := busy_update (.ofStatus .failed) rfl (by decide) hw
  refine post_bind (fun out w' => out = .ok () ∧ w'.Busy containerId S)
    (post_update hf ⟨rfl,hmarked⟩) ?_ fun _ _ h => by cases h.1
  rintro _ w1 ⟨-,hw1⟩
  have hsettled : ∀ w2 : World, (w2.Busy containerId fun x => S x ∧ ref ≠ some x) → w2.Settled :=
    fun w2 hw2 => hw2.settled fun x hx => hS x hx.1 hx.2
  exact post_bind _ (post_stop hf ref hw1) (fun _ w2 hw2 => post_throw (hsettled w2 hw2))
    fun _ w2 hw2 => hsettled w2 hw2

theorem settled_guarded (hf : f.Clean) (hS : ∀ x, S x → ref ≠ some x → truthy containerId = some x)
    (hp : Post (previewSem f) p w fun _ w' => w'.Busy containerId S) :
    Post (previewSem f) (p.tryCatch (failed ref)) w (OrSettled (World.Busy · containerId S)) := by
  exact post_tryCatch _ hp (fun _ _ h => h) fun e w1 hw1 => settled_failed hf e hw1 hS

theorem settled_switchOver (hf : f.Clean) (hw : w.Busy containerId (truthy containerId = some ·))
    (hswitch : switch.Calls (Call.within (Either containerId ref)))
    (hrest : ∀ w' : World, w'.Busy ref (Either containerId ref) →
      Post (previewSem f) rest w' fun _ w'' => w''.Settled) :
    Post (previewSem f) (switchOver job preview ref switch rest) w fun _ w' => w'.Settled := by
  have hsafe : ∀ x, Either containerId ref x → ref ≠ some x → truthy containerId = some x :=
    fun x hx href => hx.resolve_right href
  refine post_bind _ (settled_guarded hf hsafe
    (post_within hswitch (hw.mono fun _ => Or.inl))) ?_ fun _ _ h => h
  intro _ w1 hw1
  have hrecorded := busy_update (recordPatch job ref) rfl (by decide) hw1
  refine post_attempt_bind (fun r w' => r = .ok () ∧ w'.Busy ref (Either containerId ref))
    (post_update hf ⟨rfl,hrecorded⟩) ?_
  rintro _ w2 ⟨rfl,hw2⟩
  exact hrest w2 hw2

theorem truthy_containerName (job : DeployJob) :
    truthy (some job.containerName) = some job.containerName := by
  have hgood : nameMatches job.containerName = true := nameMatches_preview _ _ _
  have hne : job.containerName ≠ "" := by
    intro hempty
    rw [hempty] at hgood
    exact absurd hgood (by decide)
  simp [truthy,hne]

theorem within_of_isStage (ho : o.isStage = true) : o.within S := by
  cases o with
  | stage s => trivial
  | _ => cases ho

theorem calls_within_launch (job : DeployJob) (preview : PreviewRow)
    (h : S job.containerName) : (launch job preview).Calls (Call.within S) := by
  have hwait : ∀ id retries, (waitForPreviewHealth id retries).Calls (Call.within S) := by
    intro id retries
    induction retries with
    | zero => exact calls_ret _
    | succ retries ih =>
      refine calls_bind (calls_perform trivial) fun health => ?_
      cases health with
      | starting | unhealthy => exact ih
      | _ => exact calls_ret _
  refine calls_bind (calls_perform h) fun id => ?_
  refine calls_bind (calls_perform trivial) fun _ => ?_
  refine calls_bind (hwait id _) fun healthy => ?_
  split
  · exact calls_perform trivial
  · exact calls_throw _

theorem settled_deployContainer (hf : f.Clean)
    (hw : w.Busy preview.containerId (truthy preview.containerId = some ·)) :
    Post (previewSem f) (deployContainer job preview) w fun _ w' => w'.Settled := by
  refine post_bind _ (settled_guarded hf (fun x hx _ => hx) (post_within
    (calls_mono (calls_prepareImage job) fun _ => within_of_isStage) hw)) ?_ fun _ _ h => h
  intro _ w1 hw1
  refine settled_switchOver hf hw1 (calls_within_launch job preview (.inr rfl)) fun w2 hw2 => ?_
  unfold stopPrevious
  split
  · next hsame =>
    refine post_ret (hw2.settled fun x hx => ?_)
    rw [truthy_containerName]
    exact hx.elim (fun hx => hsame.symm.trans hx) id
  · refine post_mono (post_stop hf (truthy preview.containerId) hw2) fun _ w3 hw3 => ?_
    refine hw3.settled fun x hx => ?_
    rw [truthy_containerName]
    exact hx.1.resolve_left hx.2

theorem settled_deployStatic (hf : f.Clean)
    (hw : w.Busy preview.containerId (truthy preview.containerId = some ·)) :
    Post (previewSem f) (deployStatic job preview) w fun _ w' => w'.Settled := by
  refine settled_switchOver hf hw ?_ fun w2 hw2 => ?_
  · exact calls_bind (calls_perform trivial) fun _ => calls_perform trivial
  · have hsettled : ∀ w3 : World, (w3.Busy none fun x => Either preview.containerId none x ∧
        truthy preview.containerId ≠ some x) → w3.Settled := by
      refine fun w3 hw3 => hw3.settled fun x hx => ?_
      rcases hx.1 with hx' | hx'
      · exact (hx.2 hx').elim
      · cases hx'
    refine post_bind _ (post_stop hf (truthy preview.containerId) hw2) ?_
      fun _ w3 hw3 => hsettled w3 hw3
    intro _ w3 hw3
    exact post_attempt_bind _ (post_stages (calls_stage _)) fun _ w4 hw4 =>
      post_ret (hw4 ▸ hsettled w3 hw3)

theorem busy_building (hw : w.Settled) (hrow : w.row = some preview) :
    (w.building job).Busy preview.containerId (truthy preview.containerId = some ·) := by
  refine ⟨⟨(Patch.mk (some job.headSha) (some .building) none).apply preview,
    by simp [World.building,hrow],rfl,by simp [Patch.apply]⟩,fun k hk => ?_⟩
  obtain ⟨row,hrow',hname⟩ := hw.recorded k hk
  obtain rfl := Option.some.inj (hrow.symm.trans hrow')
  exact hname

theorem settled_deployChecked (hf : f.Clean) (hw : w.Settled) (hrow : w.row = some preview) :
    Post (previewSem f) (deployChecked job preview) w fun _ w' => w'.Settled := by
  have hbuild : Post (previewSem f) (buildPreview job) w fun _ w' =>
      w'.Busy preview.containerId (truthy preview.containerId = some ·) := by
    refine post_bind (fun out w' => out = .ok () ∧
        w'.Busy preview.containerId (truthy preview.containerId = some ·))
      (post_update hf ⟨rfl,busy_building hw hrow⟩) ?_ fun _ _ h => h.2
    rintro _ w1 ⟨-,hw1⟩
    exact post_within (calls_mono (calls_checkoutAndDetect job) fun _ => within_of_isStage) hw1
  refine post_bind _ (settled_guarded hf (fun x hx _ => hx) hbuild) ?_ fun _ _ h => h
  intro _ w1 hw1
  split
  · exact settled_deployStatic hf hw1
  · exact settled_deployContainer hf hw1

theorem settled_deploy (hf : f.Clean) (job : DeployJob) (hw : w.Settled) :
    Post (previewSem f) (handlePreviewDeploy job) w fun _ w' => w'.Settled := by
  refine post_bind (fun _ w' => w' = w) (post_stages (calls_stage _)) ?_ (fun _ _ h => h ▸ hw)
  rintro _ w1 rfl
  refine post_bind _ post_getPreviewDeployment ?_ (fun _ _ h => h.1 ▸ hw)
  rintro row w2 ⟨rfl,hread⟩
  obtain rfl := hread row rfl
  cases hrow : w2.row with
  | none => exact post_throw hw
  | some preview =>
    cases hcheck : job.check (some preview) with
    | error e => exact post_throw hw
    | ok p =>
      obtain rfl := eq_of_check hcheck
      exact settled_deployChecked hf hw hrow

def World.Pending (w : World) : Prop := ∀ row, w.row = some row → row.status ≠ .tornDown

theorem World.Pending.final (h : w.Pending) : w.Final := fun row hrow htorn => (h row hrow htorn).elim

theorem recorded_pending (hw : w.Recorded) :
    ({ w with row := w.row.map (Patch.ofStatus .pending).apply } : World).Recorded := by
  intro k hk
  obtain ⟨row,hrow,hname⟩ := hw k hk
  exact ⟨(Patch.ofStatus .pending).apply row,by simp [hrow],hname⟩

theorem pending_pending (w : World) :
    ({ w with row := w.row.map (Patch.ofStatus .pending).apply } : World).Pending := by
  intro row hrow
  obtain ⟨row',-,rfl⟩ := Option.map_eq_some_iff.mp hrow
  simp [Patch.apply,Patch.ofStatus]

theorem containers_of_stopped (hw : w.Recorded)
    (h : Stopped (truthy (w.row.bind PreviewRow.containerId)) w w') :
    w'.docker.containers = [] := by
  refine eq_nil_iff_forall_not_mem.mpr fun k hk => ?_
  obtain ⟨⟨k0,hk0,hname⟩,hne⟩ := h.names k hk
  obtain ⟨row,hrow,hpresent⟩ := hw k0 hk0
  refine hne ?_
  rw [hrow,← hname]
  exact hpresent

theorem settled_teardown (hf : f.Clean) (hw : w.Recorded) :
    Post (previewSem f) handlePreviewTeardown w fun _ w' => w'.Recorded ∧ w'.Final := by
  refine post_bind (fun out w' => out = .ok w.row ∧ w' = w)
    (post_perform fun r w' hr => ?_) ?_ fun _ _ h => by cases h.1
  · cases r with
    | ok row => exact ⟨congrArg Except.ok hr.1,hr.2⟩
    | error e => exact (hf.read (throws_of_sem hr ⟨w.row,w,rfl,rfl⟩)).elim
  rintro preview w1 ⟨hrow,rfl⟩
  cases hrow
  refine post_attempt_bind
    (fun _ w' => w' = { w1 with row := w1.row.map (Patch.ofStatus .pending).apply })
    (post_update hf rfl) ?_
  rintro _ w2 rfl
  -- an error here leaves the row pending
  refine post_bind (fun out w' => w'.Recorded ∧ w'.Final ∧
      w'.row = w1.row.map (Patch.ofStatus .pending).apply ∧ ∀ a, out = .ok a → w'.route = none)
    (post_perform fun r w' hr => ?_) ?_ fun _ _ h => ⟨h.1,h.2.1⟩
  · have hpending := pending_pending w1
    have hrecorded := recorded_pending hw
    rcases responds_of_sem hr with rfl | ⟨_,hdone⟩
    · refine ⟨hrecorded,hpending.final,rfl,?_⟩
      rintro a rfl
      exact congrArg World.route hr
    · obtain rfl := hdone
      exact ⟨hrecorded,World.Pending.final hpending,rfl,fun _ _ => rfl⟩
  rintro _ w3 ⟨hrecorded,-,hrow,hroute⟩
  have hsame : w1.row.bind PreviewRow.containerId = w3.row.bind PreviewRow.containerId := by
    rw [hrow]
    cases w1.row <;> rfl
  rw [hsame]
  refine post_bind _ (post_stopPreviewContainer hf _ w3) ?_ ?_
  · intro _ w4 hstopped
    have hempty := containers_of_stopped hrecorded hstopped
    have hnone : w4.route = none := hstopped.route.trans (hroute _ rfl)
    refine post_attempt_bind _ (post_stages (calls_stage _)) ?_
    rintro _ _ rfl
    refine post_bind (fun _ w' => w'.docker.containers = [] ∧ w'.route = none)
      (post_update hf ⟨hempty,hnone⟩) ?_ ?_
    · rintro _ w5 ⟨hempty,hnone⟩
      exact post_update hf ⟨fun k hk => by simp [hempty] at hk,fun _ _ _ => ⟨hempty,hnone⟩⟩
    · rintro _ w5 ⟨hempty,hnone⟩
      exact ⟨fun k hk => by simp [hempty] at hk,fun _ _ _ => ⟨hempty,hnone⟩⟩
  · intro e w4 hstopped
    have hempty := containers_of_stopped hrecorded hstopped
    exact ⟨fun k hk => by simp [hempty] at hk,
      fun _ _ _ => ⟨hempty,hstopped.route.trans (hroute _ rfl)⟩⟩

theorem post_addTeardownJob (hw : w.Settled) (attempts : Nat) :
    Post (previewSem f) (call (.addTeardownJob attempts)) w fun out w' =>
      w'.Settled ∧ ∀ a, out = .ok a → w'.jobs ≠ [] := by
  refine post_perform fun r w' hr => ⟨?_,?_⟩
  · rcases responds_of_sem hr with rfl | ⟨_,hdone⟩
    · exact hw
    · obtain rfl := hdone
      exact ⟨hw.recorded,fun h => by cases h⟩
  · rintro a rfl
    obtain rfl := hr
    simp

theorem settled_runTeardownJob (hf : f.Clean) (hw : w.Settled) :
    Post (previewSem f) runTeardownJob w fun _ w' => w'.Settled := by
  refine post_bind (fun out w' => (∀ e, out = .error e → w' = w) ∧ w'.Recorded)
    (post_perform fun r w' hr => ⟨?_,?_⟩) ?_ fun e w1 h => (h.1 e rfl).symm ▸ hw
  · rintro e rfl
    rcases hr with ⟨-,rfl⟩ | ⟨hloses,-⟩
    · rfl
    · exact (hf.take hloses).elim
  · rcases responds_of_sem hr with rfl | ⟨_,-,rfl⟩
    · exact hw.recorded
    · exact hw.recorded
  rintro attempts w1 ⟨-,hw1⟩
  refine post_attempt_bind _ (settled_teardown hf hw1) fun out w2 hw2 => ?_
  have hsettled : w2.Settled := ⟨hw2.1,fun _ => hw2.2⟩
  cases out with
  | ok _ => exact post_ret hsettled
  | error e =>
    dsimp only
    split
    · exact post_throw hsettled
    · exact post_mono (post_addTeardownJob hsettled _) fun _ _ h => h.1

theorem settled_cleanup (hf : f.Clean) (hw : w.Settled) :
    Post (previewSem f) cleanupExpiredPreviews w fun _ w' => w'.Settled := by
  refine post_tryCatch (fun _ w' => w'.Settled) ?_ (fun _ _ h => h) fun _ _ h => post_ret h
  refine post_bind (fun _ w' => w' = w) (post_perform fun r w' hr => ?_) ?_ fun _ _ h => h ▸ hw
  · rcases responds_of_sem hr with rfl | ⟨_,-,rfl⟩
    · rfl
    · rfl
  rintro expired w1 rfl
  split
  · refine post_bind _ (post_addTeardownJob hw _) ?_ fun _ _ h => h.1
    · rintro _ w2 ⟨hw2,hjobs⟩
      refine post_update hf ⟨fun k hk => ?_,fun h => (hjobs _ rfl h).elim⟩
      obtain ⟨row,hrow,hname⟩ := hw2.recorded k hk
      exact ⟨(Patch.ofStatus .tornDown).apply row,by simp [hrow],hname⟩
  · exact post_ret hw

end Steps

/-! ### Whole runs -/

theorem settled_party (hf : f.Clean) (party : Party) (hw : w.Settled) :
    Post (previewSem f) party.prog w fun _ w' => w'.Settled := by
  cases party with
  | deploy job => exact settled_deploy hf job hw
  | teardown => exact settled_runTeardownJob hf hw
  | cleanup => exact settled_cleanup hf hw
  | close => exact post_mono (post_addTeardownJob hw _) fun _ _ h => h.1

/-- Where each deploy, teardown and cleanup starts while none is half way, a preview that is torn
down has no container and no route once no teardown is queued. -/
theorem teardown_final {ι : Type} [DecidableEq ι] (f : Faults) (parties : ι → Party) (w : World)
    (c : Pool PreviewSig String Unit ι World) (hf : f.Clean) (hw : w.Settled)
    (hr : Pool.Reach (previewSem f) Pool.StartsAlone (.start w fun i => (parties i).prog) c)
    (hq : c.Quiet) (hjobs : c.world.jobs = []) : c.world.Final := by
  have hsettled : c.world.Settled := reach_serial
    (fun i w' hw' => settled_party hf (parties i) hw') hw (reach_serial_of_startsAlone hr) hq
  exact hsettled.final hjobs

def serve : (o : Call) → World → Except String o.Res × World
  | .stage _, w => (.ok (), w)
  | .getPreviewDeployment, w => (.ok w.row, w)
  | .updatePreviewDeployment patch, w => (.ok (), { w with row := w.row.map patch.apply })
  | .containerCreate name image, w =>
    match w.docker.create? name image with
    | some (id, docker) => (.ok id, { w with docker := docker })
    | none => (.error "name is taken", w)
  | .containerStart id, w =>
    if w.docker.has (.id id) then
      (.ok (), { w with docker := w.docker.setRunning (.id id) true })
    else (.error "not found", w)
  | .inspectContainerHealth _, w => (.ok .healthy, w)
  | .containerStop name, w =>
    if w.docker.has (.name name) then
      (.ok (), { w with docker := w.docker.setRunning (.name name) false })
    else (.error "not found", w)
  | .containerRemove name, w =>
    if w.docker.has (.name name) then (.ok (), { w with docker := w.docker.remove (.name name) })
    else (.error "not found", w)
  | .upsertRoute route, w => (.ok (), { w with route := some route })
  | .removeRoute, w => (.ok (), { w with route := none })
  | .listExpiredPreviews, w => (.ok false, w)
  | .addTeardownJob attempts, w => (.ok (), { w with jobs := attempts :: w.jobs })
  | .takeTeardownJob, w =>
    match w.jobs with
    | attempts :: jobs => (.ok attempts, { w with jobs := jobs })
    | [] => (.error "no job", w)

theorem previewSem_serve (f : Faults) (o : Call) (w : World) :
    previewSem f o w (serve o w).1 (serve o w).2 := by
  cases o with
  | containerCreate name image =>
    simp only [serve]
    split
    · next id docker hcreate => exact ⟨docker,hcreate,rfl⟩
    · next hnone =>
      refine .inl ⟨.inr ?_,rfl⟩
      rintro ⟨id,w',docker,hcreate,-⟩
      cases hnone.symm.trans hcreate
  | containerStart | containerStop | containerRemove =>
    simp only [serve]
    split
    · next hhas => exact ⟨hhas,rfl⟩
    · next hhas => exact .inl ⟨.inr fun ⟨_,_,h,_⟩ => hhas h,rfl⟩
  | takeTeardownJob =>
    simp only [serve]
    split
    · next attempts jobs hjobs => exact ⟨by simp [hjobs],by simp [hjobs]⟩
    · next hjobs =>
      refine .inl ⟨.inr ?_,rfl⟩
      rintro ⟨attempts,w',hmem,-⟩
      simp [hjobs] at hmem
  | _ => simp [serve,previewSem,Responds]

namespace Shop

theorem id_lt_nil : ∀ k ∈ ([] : List Container), k.id < 0 := by simp

def closed : World where
  docker := ⟨[],0,id_lt_nil,List.nodup_nil,List.nodup_nil⟩
  row := some ⟨"a1b2c3d","pr-7.preview.shop",none,.pending⟩
  route := none
  jobs := [previewAttempts]

def parties : Bool → Party
  | true => .deploy (job "a1b2c3d")
  | false => .teardown

def opened : Pool PreviewSig String Unit Bool World := .start closed fun i => (parties i).prog

def deployed : Pool PreviewSig String Unit Bool World :=
  (replicate 23 true).foldl (tick serve) opened

def inTurn : Pool PreviewSig String Unit Bool World :=
  (replicate 9 false).foldl (tick serve) deployed

def overtaken : Pool PreviewSig String Unit Bool World :=
  ([false, false] ++ replicate 23 true ++ replicate 7 false).foldl (tick serve) opened

theorem clean_noFaults : noFaults.Clean where
  read := fun h => h.elim id id
  update := fun _ h => h.elim id id
  remove := fun _ => id
  take := id

theorem settled_closed : closed.Settled :=
  ⟨fun _ hk => (not_mem_nil hk).elim,fun h => (cons_ne_nil _ _ h).elim⟩

end Shop

open Ploydok.Preview.Shop

theorem teardown_final_shop : deployed.world.docker.containers.length = 1 ∧ inTurn.world.Final := by
  have hfirst : Pool.Reach (previewSem noFaults) Pool.StartsAlone opened deployed :=
    reach_startsAlone (previewSem_serve _) (fun _ _ hj => hj.1 rfl) 23
  have hsecond : Pool.Reach (previewSem noFaults) Pool.StartsAlone deployed inTurn := by
    refine reach_startsAlone (previewSem_serve _) ?_ 9
    intro _ j hj
    cases j with
    | true => exact absurd hj.2 (by decide +kernel)
    | false => exact hj.1 rfl
  have hquiet : inTurn.Quiet := quiet_of_done (by decide +kernel)
  exact ⟨by decide +kernel,teardown_final noFaults parties closed inTurn
    clean_noFaults settled_closed (hfirst.trans hsecond) hquiet (by decide +kernel)⟩

/-- A teardown that has read the row before a deploy leaves the container of that deploy. -/
theorem overtaken_teardown_leaves_container :
    ¬ ∀ (ι : Type) [DecidableEq ι] (f : Faults) (parties : ι → Party) (w : World)
      (c : Pool PreviewSig String Unit ι World), w.Settled →
      Pool.Reach (previewSem f) (fun _ _ => True) (.start w fun i => (parties i).prog) c →
      c.Quiet → c.world.jobs = [] → c.world.Final := by
  intro hclaim
  have hreach : Pool.Reach (previewSem noFaults) (fun _ _ => True) opened overtaken :=
    reach_schedule (previewSem_serve _) _ _ (admits_of_forall (fun _ _ => trivial) _ _)
  have hfinal := hclaim Bool noFaults parties closed overtaken settled_closed
    hreach (quiet_of_done (by decide +kernel)) (by decide +kernel)
  have htorn : ∃ row, overtaken.world.row = some row ∧ row.status = .tornDown ∧
      overtaken.world.docker.containers.length = 1 :=
    ⟨⟨"a1b2c3d","pr-7.preview.shop",none,.tornDown⟩,by decide +kernel,rfl,by decide +kernel⟩
  obtain ⟨row,hrow,hstatus,hlength⟩ := htorn
  rw [(hfinal row hrow hstatus).1] at hlength
  cases hlength

end Ploydok.Preview
