import Ploydok.Runtime.Downtime
import Ploydok.Runtime.Recovery

/-! What a deploy, a rollback or a restart that returns has made of the app, whatever was retried
or swallowed on the way: the row names the new container, the route dials it on the app's port,
and it runs the image that was asked for. -/

namespace Ploydok.Runtime

open Effect
open Effect.Prog hiding throw

variable {f : Faults} {w w' : World} {α : Type} {p : RunProg α}

/-- Calls that only read leave the world as it is. -/
theorem post_inert (hp : p.Calls (Call.inert · = true)) :
    Post (platformSem f) p w fun _ w' => w' = w :=
  post_of_calls hp (fun v => v = w) (fun _ _ _ _ ho hv hs => (eq_of_inert ho hs).trans hv) rfl

theorem post_bind_inert {β : Type} {g : α → RunProg β}
    {Q : Except RunnerError β → World → Prop} (hp : p.Calls (Call.inert · = true))
    (hok : ∀ a, Post (platformSem f) (g a) w Q) (herr : ∀ e, Q (.error e) w) :
    Post (platformSem f) (p.bind g) w Q := by
  refine post_bind _ (post_inert hp) ?_ ?_
  · rintro a w1 rfl
    exact hok a
  · rintro e w1 rfl
    exact herr e

variable {row : AppRow}

/-- A call that only reads leaves the world, and what follows goes on with its answer. -/
theorem post_read {o : Call} {g : o.Res → RunProg β} (ho : o.inert = true)
    (hok : ∀ a, Responds o w a w → Post (platformSem f) (g a) w Q) (herr : ∀ e, Q (.error e) w) :
    Post (platformSem f) ((call o).bind g) w Q := by
  refine post_bind (fun r w1 => w1 = w ∧ ∀ a, r = .ok a → Responds o w a w)
    (post_call fun r w1 hs => ?_) ?_ ?_
  · obtain rfl := eq_of_inert ho hs
    refine ⟨rfl,?_⟩
    rintro a rfl
    exact hs
  · rintro a w1 ⟨rfl,ha⟩
    exact hok a (ha a rfl)
  · rintro e w1 ⟨rfl,-⟩
    exact herr e

theorem post_readApp (hrow : w.row = some row) (hok : Post (platformSem f) (g (some row)) w Q)
    (herr : ∀ e, Q (.error e) w) : Post (platformSem f) ((call .readApp).bind g) w Q := by
  refine post_read rfl (fun found hs => ?_) herr
  obtain rfl : found = some row := hs.1.trans hrow
  exact hok

/-- A container of this name was made from this image. -/
def World.RunsImage (w : World) (name image : String) : Prop :=
  ∃ id, (⟨id,name,image,true⟩ : Container) ∈ w.docker.containers

theorem post_containerCreate (name image : String) :
    Post (platformSem f) (call (.containerCreate name image)) w fun r w' => ∀ id, r = .ok id →
      (⟨id,name,image,false⟩ : Container) ∈ w'.docker.containers := by
  refine post_call fun r w' hs => ?_
  rintro id rfl
  obtain ⟨d,hd,rfl⟩ := hs
  simp [(Docker.create?_eq_some hd).2]

/-- Also when the first attempt found the name taken, the container runs the image asked for. -/
theorem post_createContainerWithStaleSlotRecovery (name image : String) :
    Post (platformSem f) (createContainerWithStaleSlotRecovery name image) w fun r w' =>
      ∀ id, r = .ok id → (⟨id,name,image,false⟩ : Container) ∈ w'.docker.containers := by
  refine post_tryCatch _ (post_containerCreate name image) (fun _ _ h => h) ?_
  intro err w1 _
  split
  · exact post_throw (by simp)
  have hread : ((call .getUpstream).tryCatch fun _ => throw err).Calls (Call.inert · = true) :=
    calls_tryCatch (calls_call rfl) fun _ => calls_throw _
  refine post_bind_inert hread (fun upstream => ?_) (by simp)
  split
  · exact post_throw (by simp)
  refine post_bind (fun _ _ => True) (fun _ _ _ _ => trivial) ?_ (by simp)
  intro _ w2 _
  exact post_containerCreate name image

theorem post_launch (name image : String) : Post (platformSem f) (launch name image) w fun r w' =>
      ∀ id, r = .ok id → w'.RunsImage name image := by
  refine post_bind_inert (calls_call rfl) (fun _ => ?_) (by simp)
  refine post_bind_inert (calls_call rfl) (fun _ => ?_) (by simp)
  refine post_bind_inert (calls_call rfl) (fun _ => ?_) (by simp)
  refine post_bind_inert (calls_call rfl) (fun _ => ?_) (by simp)
  refine post_bind _ (post_createContainerWithStaleSlotRecovery name image) ?_ (by simp)
  intro id w1 hcreated
  refine post_bind (fun r w2 => r = .ok () → w2.RunsImage name image)
    (post_call fun r w2 hs => ?_) (fun _ _ h => post_ret fun _ _ => h rfl) (by simp)
  rintro rfl
  obtain ⟨-,rfl⟩ := hs
  refine ⟨id,List.mem_map.mpr ⟨_,hcreated id rfl,?_⟩⟩
  simp [Ref.switch,Ref.refersTo]

/-! ### The app on its new container -/

/-- The row is `row` but for its status and container, the route dials `u`, and the container behind
it runs `image`. -/
structure LiveOn (row : AppRow) (u : Upstream) (image : String) (w : World) : Prop where
  row : ∃ row', w.row = some row' ∧ row.SameSettings row' ∧ row'.status = .running ∧
    row'.containerId = some u.host
  route : ∃ domain, w.route = some ⟨domain,u⟩
  container : w.RunsImage u.host image

/-- Other containers may be gone; the row, the route and the container `name` are as they were. -/
structure Tidied (name image : String) (w w' : World) : Prop where
  row : w'.row = w.row
  route : w'.route = w.route
  container : w.RunsImage name image → w'.RunsImage name image

theorem Tidied.refl (name image : String) (w : World) : Tidied name image w w :=
  ⟨rfl,rfl,id⟩

variable {name image : String} {u : Upstream} {names : List String}

theorem Tidied.trans (h : Tidied name image w1 w2) (h' : Tidied name image w2 w3) :
    Tidied name image w1 w3 :=
  ⟨h'.row.trans h.row,h'.route.trans h.route,fun hk => h'.container (h.container hk)⟩

theorem LiveOn.tidied (h : LiveOn row u image w)
    (ht : Tidied u.host image w w') : LiveOn row u image w' :=
  ⟨by rw [ht.row]; exact h.row,by rw [ht.route]; exact h.route,ht.container h.container⟩

def Call.Stops (names : List String) (o : Call) : Prop :=
  ∃ n ∈ names, o = .containerStop (.name n) ∨ o = .containerRemove (.name n)

theorem calls_stops (names : List String) :
    (stopContainerCandidates names).Calls (Call.Stops names) :=
  calls_forEach fun n hn => calls_stopContainer ⟨n,hn,.inl rfl⟩ ⟨n,hn,.inr rfl⟩

theorem tidied_of_stops (hn : name ∉ names) (ho : o.Stops names) (hs : platformSem f o w r w') :
    Tidied name image w w' := by
  obtain ⟨n,hmem,ho⟩ := ho
  have hne : name ≠ n := fun he => hn (he ▸ hmem)
  rcases platformSem_cases hs with ⟨a,ha,-⟩ | ⟨rfl,-⟩
  · rcases ho with rfl | rfl
    · obtain ⟨-,rfl⟩ := ha
      refine ⟨rfl,rfl,fun ⟨id,hk⟩ => ⟨id,List.mem_map.mpr ⟨_,hk,?_⟩⟩⟩
      simp [Ref.switch,Ref.refersTo,hne]
    · obtain ⟨-,rfl⟩ := ha
      refine ⟨rfl,rfl,fun ⟨id,hk⟩ => ⟨id,List.mem_filter.mpr ⟨hk,?_⟩⟩⟩
      simp [Ref.refersTo,hne]
  · exact .refl name image _

/-- Stopping the old containers does not touch the new one: its name is not among theirs. -/
theorem post_stopContainerCandidates (hn : name ∉ names) (image : String) :
    Post (platformSem f) (stopContainerCandidates names) w fun _ w' => Tidied name image w w' :=
  post_of_calls (calls_stops names) (Tidied name image w)
    (fun _ _ _ _ ho hv hs => hv.trans (tidied_of_stops hn ho hs)) (.refl name image w)

/-- A switch that returns has written the route, whatever became of the purge after it. -/
theorem post_switchTo (appId : String) (row : AppRow) (name : String) (port : Nat) :
    Post (platformSem f) (switchTo appId row name port) w fun r w' =>
      r = .ok () → w' = { w with route := some ⟨row.domainOrDefault appId,⟨name,port⟩⟩ } := by
  refine post_bind (fun r w1 => r = .ok () →
    w1 = { w with route := some ⟨row.domainOrDefault appId,⟨name,port⟩⟩ })
    (post_call fun r w1 hs => ?_) ?_ (by simp)
  · rintro rfl
    exact hs
  · intro _ w1 h1
    refine post_mono (post_inert (calls_quietly (calls_call rfl))) ?_
    rintro r w2 rfl -
    exact h1 rfl

theorem liveOn_setLive (hw : w.Keeps row)
    (hroute : ∃ domain, w.route = some ⟨domain,u⟩) (hk : w.RunsImage u.host image)
    (h : w' = w.setRow fun row => { row with containerId := some u.host, status := .running }) :
    LiveOn row u image w' := by
  obtain ⟨row',hrow',hsame⟩ := hw
  subst h
  refine ⟨⟨_,by rw [World.setRow,hrow']; rfl,?_,rfl,rfl⟩,hroute,hk⟩
  unfold AppRow.SameSettings at *
  rw [hsame]

theorem post_launch_keeps (hw : w.Keeps row) (name image : String) :
    Post (platformSem f) (launch name image) w fun r w' => w'.Keeps row ∧
      ∀ id, r = .ok id → w'.RunsImage name image :=
  fun tr out w' h => ⟨post_keeps hw _ tr out w' h,post_launch name image tr out w' h⟩

/-- `opts.runtimePort ?? app.runtime_port ?? 3000`. -/
def RunBlueGreenOptions.port (opts : RunBlueGreenOptions) (row : AppRow) : Nat :=
  (opts.runtimePort.or row.runtimePort).getD 3000

/-- A deploy that returns has put the app on the container of the other colour with its image. -/
theorem post_runBlueGreen_ok (hrow : w.row = some row) (appId : String)
    (opts : RunBlueGreenOptions) :
    Post (platformSem f) (runBlueGreen appId opts) w fun r w' => ∀ res, r = .ok res →
      LiveOn row ⟨runtimeContainerName row.toApp res.color,opts.port row⟩ opts.imageRef w' := by
  refine post_readApp hrow ?_ (by simp)
  refine post_bind_inert calls_readCurrentColor (fun color => ?_) (by simp)
  have hold := runtimeContainerName_not_mem_candidates row.toApp color
  dsimp only
  generalize runtimeContainerNameCandidates row.toApp color = oldNames at hold ⊢
  generalize hname : runtimeContainerName row.toApp color.oppositeColor = name at hold ⊢
  have hw : w.Keeps row := ⟨row,hrow,rfl⟩
  refine post_bind _ (post_launch_keeps hw name opts.imageRef) ?_ (by simp)
  rintro id w1 ⟨hw1,hrun⟩
  refine post_bind_inert (calls_pollHealthcheck ..) (fun healthy => ?_) (by simp)
  split
  · refine post_bind (fun _ _ => True) (fun _ _ _ _ => trivial) (fun _ _ _ => ?_) (by simp)
    refine post_bind (fun _ _ => True) (fun _ _ _ _ => trivial) (fun _ _ _ => ?_) (by simp)
    refine post_bind (fun _ _ => True) (fun _ _ _ _ => trivial) (fun _ _ _ => ?_) (by simp)
    exact post_throw (by simp)
  refine post_bind _ (post_switchTo appId row name _) ?_ (by simp)
  intro _ w2 h2
  obtain rfl := h2 rfl
  refine post_bind (fun r w3 => r = .ok () →
    LiveOn row ⟨name,opts.port row⟩ opts.imageRef w3) (post_call fun r w3 hs => ?_) ?_ (by simp)
  · rintro rfl
    refine liveOn_setLive ?_ ⟨_,rfl⟩ ?_ hs
    · exact hw1
    · exact hrun id rfl
  intro _ w3 hon
  refine post_bind_inert (calls_quietly (calls_call rfl)) (fun _ => ?_) (by simp)
  refine post_bind_inert (calls_call rfl) (fun _ => ?_) (by simp)
  refine post_bind _ (post_stopContainerCandidates hold opts.imageRef) ?_ (by simp)
  intro _ w4 h4
  refine post_ret ?_
  rintro _ ⟨⟩
  rw [hname]
  exact (hon rfl).tidied h4

theorem post_runBlueGreen_live (appId : String) (opts : RunBlueGreenOptions) :
    Post (platformSem f) (runBlueGreen appId opts) w fun r w' => ∀ res, r = .ok res →
      ∃ row u, LiveOn row u opts.imageRef w' := by
  cases hrow : w.row with
  | some row =>
    refine post_mono (post_runBlueGreen_ok hrow appId opts) fun r w' h res hres => ?_
    exact ⟨row,_,h res hres⟩
  | none =>
    refine post_read rfl (fun found hs => ?_) (by simp)
    obtain rfl : found = none := hs.1.trans hrow
    exact post_throw (by simp)

/-- The build that a rollback goes back to: the one asked for, or the second newest that succeeded.
-/
def World.rollbackBuild (w : World) (targetBuildId : Option String) : Option BuildRow :=
  match truthy targetBuildId with
  | some buildId => w.builds.find? (·.id = buildId)
  | none => (w.builds.filter (·.status = .succeeded))[1]?

theorem post_rollbackTarget (appId : String) (targetBuildId : Option String) :
    Post (platformSem f) (rollbackTarget appId targetBuildId) w fun r w' =>
      w' = w ∧ ∀ build, r = .ok build → w.rollbackBuild targetBuildId = some build := by
  unfold rollbackTarget World.rollbackBuild
  cases truthy targetBuildId with
  | some buildId =>
    refine post_read rfl (fun found hs => ?_) fun _ => ⟨rfl,by simp⟩
    have hfound : found = w.builds.find? (·.id = buildId) := hs.1
    simp only [← hfound]
    cases found with
    | none => exact post_throw ⟨rfl,by simp⟩
    | some build => exact post_ret ⟨rfl,by simp⟩
  | none =>
    refine post_read rfl (fun builds hs => ?_) fun _ => ⟨rfl,by simp⟩
    have hbuilds : builds = (w.builds.filter (·.status = .succeeded)).take 2 := hs.1
    have hsecond : (w.builds.filter (·.status = .succeeded))[1]? = builds[1]? := by
      rw [hbuilds,List.getElem?_take]
      rfl
    simp only [hsecond]
    clear hs hbuilds hsecond
    split
    · exact post_ret ⟨rfl,by simp⟩
    · exact post_throw ⟨rfl,by simp⟩

/-- A rollback that returns runs the image of the build it goes back to. -/
theorem post_rollbackApp_ok (appId : String) (targetBuildId : Option String) :
    Post (platformSem f) (rollbackApp appId targetBuildId) w fun r w' => r = .ok () →
      ∃ build row u image, w.rollbackBuild targetBuildId = some build ∧
        truthy build.imageTag = some image ∧ LiveOn row u image w' := by
  refine post_bind _ (post_rollbackTarget appId targetBuildId) ?_ (by simp)
  rintro build w1 ⟨rfl,hbuild⟩
  split
  · exact post_throw (by simp)
  next image himage =>
  refine post_bind_inert calls_readCurrentColor (fun color => ?_) (by simp)
  refine post_read rfl (fun found hs => ?_) (by simp)
  split
  · exact post_throw (by simp)
  next row =>
  have hw : w1.Keeps row := ⟨row,hs.1.symm,rfl⟩
  have hold := runtimeContainerName_not_mem_candidates row.toApp color
  generalize runtimeContainerNameCandidates row.toApp color = oldNames at hold ⊢
  dsimp only
  generalize runtimeContainerName row.toApp color.oppositeColor = name at hold ⊢
  refine post_bind_inert (calls_call rfl) (fun _ => ?_) (by simp)
  refine post_bind _ (post_launch_keeps hw name image) ?_ (by simp)
  rintro id w2 ⟨hw2,hrun⟩
  refine post_bind _ (post_switchTo appId row name _) ?_ (by simp)
  intro _ w3 h3
  obtain rfl := h3 rfl
  refine post_bind _ (post_stopContainerCandidates hold image) ?_ (by simp)
  intro _ w4 h4
  refine post_call fun r w' hs => ?_
  rintro rfl
  refine ⟨build,row,⟨name,row.runtimePort.getD 3000⟩,image,hbuild build rfl,himage,
    liveOn_setLive ?_ ⟨_,h4.route⟩ ?_ hs⟩
  · obtain ⟨row',hrow',hsame⟩ := hw2
    exact ⟨row',h4.row.trans hrow',hsame⟩
  · exact h4.container (hrun id rfl)

/-- The image that a restart runs. -/
def World.lastSucceededTag (w : World) : Option String :=
  truthy ((w.builds.filter (·.status = .succeeded)).head?.bind (·.imageTag))

theorem post_runRestartHeavyWork (appId imageRef : String) :
    Post (platformSem f) (runRestartHeavyWork appId imageRef) w fun r w' => r = .ok () →
      ∃ row u, LiveOn row u imageRef w' := by
  refine post_bind_inert (calls_call rfl) (fun found => ?_) (by simp)
  split
  · exact post_throw (by simp)
  refine post_bind (fun _ _ => True) (fun _ _ _ _ => trivial) (fun _ w1 _ => ?_) (by simp)
  refine post_bind (fun _ _ => True) (fun _ _ _ _ => trivial) (fun _ w2 _ => ?_) (by simp)
  refine post_bind_inert (calls_call rfl) (fun row => ?_) (by simp)
  refine post_bind_inert (calls_call rfl) (fun _ => ?_) (by simp)
  refine post_bind _ (post_runBlueGreen_live appId _) ?_ (by simp)
  intro res w3 h3
  exact post_ret fun _ => h3 res rfl

/-- A restart that returns runs the image of the newest build that succeeded. -/
theorem post_restartApp_ok (appId : String) :
    Post (platformSem f) (restartApp appId) w fun r w' => r = .ok () →
      ∃ row u image, w.lastSucceededTag = some image ∧ LiveOn row u image w' := by
  refine post_read rfl (fun rows hs => ?_) (by simp)
  have hrows : rows.head? = (w.builds.filter (·.status = .succeeded)).head? := by
    rw [hs.1,List.head?_take]
    rfl
  rw [hrows]
  split
  · exact post_throw (by simp)
  next imageTag htag =>
  refine post_bind (fun _ _ => True) (fun _ _ _ _ => trivial) (fun _ w2 _ => ?_) (by simp)
  refine post_mono (post_runRestartHeavyWork appId imageTag) fun r w' h hr => ?_
  obtain ⟨row,u,hlive⟩ := h hr
  exact ⟨row,u,imageTag,htag,hlive⟩

end Ploydok.Runtime
