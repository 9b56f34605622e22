import Ploydok.Effect.Pool
import Ploydok.Runtime.BlueGreen

/-! Which container the route dials when several operations act on one app. One run alone leaves the
route on a running container; overlapping ones do not, since each acts on the colours it read at its
start. -/

namespace Ploydok.Runtime

open Effect
open Effect.Prog hiding throw

/-- The route, where there is one, dials a running container. -/
def World.Safe (w : World) : Prop :=
  ∀ route, w.route = some route → w.docker.Live route.upstream.host

/-- The route does not dial the container `name`. -/
def World.Aside (w : World) (name : String) : Prop :=
  ∀ route, w.route = some route → route.upstream.host ≠ name

variable {f : Faults} {w w' : World} {α : Type}

/-! ### What a call can do -/

variable {o : Call} {r : Except RunnerError o.Res}

/-- A call is carried out, also where it throws, or it throws and nothing has changed. -/
theorem platformSem_cases (h : platformSem f o w r w') :
    (∃ a, Responds o w a w' ∧ ∀ b, r = .ok b → b = a) ∨
      (w' = w ∧ ∃ e, r = .error e ∧ (Refuses o w e ∨ f.fails o)) := by
  cases r with
  | ok a =>
    refine .inl ⟨a,h,?_⟩
    rintro b ⟨⟩
    rfl
  | error e =>
    rcases h with ⟨href,rfl⟩ | ⟨-,hfail,rfl⟩ | ⟨-,-,a,ha⟩
    · exact .inr ⟨rfl,e,rfl,.inl href⟩
    · exact .inr ⟨rfl,e,rfl,.inr hfail⟩
    · exact .inl ⟨a,ha,by simp⟩

/-- Calls that touch neither docker nor the route. -/
def Call.passive : Call → Bool
  | .containerCreate .. | .containerStart _ | .containerStop _ | .containerRemove _
  | .setUpstream .. | .removeUpstream => false
  | _ => true

/-- Calls that change nothing. -/
def Call.inert : Call → Bool
  | .setLive _ | .setRestarting | .setStopped => false
  | o => o.passive

variable {p : RunProg α} {β : Type}

theorem calls_passive (h : p.Calls (Call.inert · = true)) : p.Calls (Call.passive · = true) :=
  calls_mono h fun o ho => by cases o <;> first | exact ho | rfl

theorem eq_of_inert (ho : o.inert = true) (h : platformSem f o w r w') : w' = w := by
  rcases platformSem_cases h with ⟨a,ha,-⟩ | ⟨rfl,-⟩
  · cases o with
    | containerCreate | containerStart | containerStop | containerRemove | setUpstream
    | removeUpstream | setLive | setRestarting | setStopped => cases ho
    | readApp | readContainerId | readBuild | readSucceededBuilds | inspectContainerHealth
    | getUpstream => exact ha.2
    | _ => exact ha
  · rfl

def SameHost (w w' : World) : Prop := w'.docker = w.docker ∧ w'.route = w.route

theorem SameHost.refl (w : World) : SameHost w w := ⟨rfl,rfl⟩

theorem SameHost.trans (h : SameHost w1 w2) (h' : SameHost w2 w3) : SameHost w1 w3 :=
  ⟨h'.1.trans h.1,h'.2.trans h.2⟩

theorem sameHost_passive (ho : o.passive = true) (h : platformSem f o w r w') : SameHost w w' := by
  by_cases hi : o.inert = true
  · rw [eq_of_inert hi h]
    exact .refl w
  -- what is left writes the row
  rcases platformSem_cases h with ⟨a,ha,-⟩ | ⟨rfl,-⟩
  · cases o with
    | setLive | setRestarting | setStopped => exact ha ▸ ⟨rfl,rfl⟩
    | _ => exact absurd ho hi
  · exact .refl w'

theorem post_passive (hp : p.Calls (Call.passive · = true)) (w : World) :
    Post (platformSem f) p w fun _ w' => SameHost w w' :=
  post_of_calls hp (SameHost w) (fun _ _ _ _ ho hv hs => hv.trans (sameHost_passive ho hs))
    (.refl w)

theorem post_bind_passive (hp : p.Calls (Call.passive · = true))
    (hok : ∀ a w1, SameHost w w1 → Post (platformSem f) (g a) w1 Q)
    (herr : ∀ e w1, SameHost w w1 → Q (.error e) w1) : Post (platformSem f) (p.bind g) w Q :=
  post_bind _ (post_passive hp w) hok herr

theorem post_call (h : ∀ r w', platformSem f o w r w' → Q r w') :
    Post (platformSem f) (call o) w Q :=
  post_perform h

variable {P : Call → Prop}

theorem calls_call (h : P o) : (call o).Calls P :=
  calls_perform h

theorem calls_quietly {p : RunProg Unit} (h : p.Calls P) : (quietly p).Calls P :=
  calls_tryCatch h fun _ => calls_ret _

theorem SameHost.safe (h : SameHost w w') (hw : w.Safe) : w'.Safe := by
  intro route hr
  rw [h.1]
  exact hw route (h.2 ▸ hr)

variable {name : String} {ref : Ref} {id : Nat}

theorem SameHost.aside (h : SameHost w w') (hw : w.Aside name) : w'.Aside name := by
  intro route hr
  exact hw route (h.2 ▸ hr)

/-- The route and all other running containers are as before. -/
structure Spares (name : String) (w w' : World) : Prop where
  route : w'.route = w.route
  live : ∀ n, n ≠ name → w.docker.Live n → w'.docker.Live n

theorem Spares.refl (name : String) (w : World) : Spares name w w := ⟨rfl,fun _ _ h => h⟩

theorem Spares.safe (h : Spares name w w') (hw : w.Safe) (ha : w.Aside name) : w'.Safe := by
  intro route hr
  rw [h.route] at hr
  exact h.live _ (ha route hr) (hw route hr)

theorem Spares.trans (h : Spares name w1 w2) (h' : Spares name w2 w3) : Spares name w1 w3 :=
  ⟨h'.route.trans h.route,fun n hn hl => h'.live n hn (h.live n hn hl)⟩

theorem calls_stopContainer (hs : P (.containerStop ref))
    (hr : P (.containerRemove ref)) : (stopContainer ref).Calls P :=
  calls_bind (calls_quietly (calls_call hs)) fun _ => calls_quietly (calls_call hr)

theorem keeps_stopContainer (hm : w.docker.Means ref name) (hw : w.Safe) (ha : w.Aside name) :
    (stopContainer ref).Keeps (platformSem f) World.Safe w fun _ w' => Spares name w w' := by
  have hcalls : (stopContainer ref).Calls
      fun o : Call => o = .containerStop ref ∨ o = .containerRemove ref :=
    calls_stopContainer (.inl rfl) (.inr rfl)
  refine keeps_mono (keeps_of_calls hcalls
    (fun v : World => Spares name w v ∧ v.docker.Means ref name)
    (fun v hv => hv.1.safe hw ha) ?_ ⟨.refl name w,hm⟩) fun _ _ _ h => h.1
  rintro o v r v' ho ⟨hsp,hmv⟩ hs
  rcases platformSem_cases hs with ⟨a,ha,-⟩ | ⟨rfl,-⟩
  · rcases ho with rfl | rfl
    · obtain ⟨-,rfl⟩ := ha
      exact ⟨hsp.trans ⟨rfl,fun n hn hl => hl.stop hmv hn⟩,hmv.setRunning ref false⟩
    · obtain ⟨-,rfl⟩ := ha
      exact ⟨hsp.trans ⟨rfl,fun n hn hl => hl.remove hmv hn⟩,hmv.remove ref⟩
  · exact ⟨hsp,hmv⟩

/-- The container `id` has the name, and the route does not dial it yet. -/
structure Created (name : String) (id : Nat) (w : World) : Prop where
  safe : w.Safe
  aside : w.Aside name
  owns : w.docker.Owns name id

theorem SameHost.created (h : SameHost w w') (hc : Created name id w) : Created name id w' :=
  ⟨h.safe hc.safe,h.aside hc.aside,h.1 ▸ hc.owns⟩

theorem keeps_containerCreate (name image : String) (hw : w.Safe) :
    (call (.containerCreate name image)).Keeps (platformSem f) World.Safe w fun r w' =>
      ∀ id, r = .ok id → Created name id w' := by
  refine keeps_perform hw fun r w' hs => ?_
  rcases platformSem_cases hs with ⟨a,⟨d,hd,rfl⟩,hr⟩ | ⟨rfl,e,rfl,-⟩
  · have hsafe : World.Safe { w with docker := d } := fun route hroute =>
      ((hw route hroute).create hd).1
    refine ⟨hsafe,fun id hid => ?_⟩
    obtain rfl := hr id hid
    exact ⟨hsafe,fun route hroute => ((hw route hroute).create hd).2,Docker.owns_create hd⟩
  · exact ⟨hw,by simp⟩

theorem keeps_getUpstream (err : RunnerError) (hw : w.Safe) :
    ((call .getUpstream).tryCatch fun _ => throw err).Keeps (platformSem f) World.Safe w
      fun r w' => SameHost w w' ∧
        ∀ upstream, r = .ok upstream → upstream = w.route.map (·.upstream) := by
  refine keeps_tryCatch (fun r w' => SameHost w w' ∧
    ∀ upstream, r = .ok upstream → upstream = w.route.map (·.upstream)) ?_ ?_ ?_
  · refine keeps_perform hw fun r w' hs => ?_
    have hsame := sameHost_passive rfl hs
    refine ⟨hsame.safe hw,hsame,?_⟩
    rintro upstream rfl
    exact hs.1
  · exact fun _ _ _ h => h
  · rintro e w' hw' ⟨hsame,-⟩
    exact keeps_throw hw' ⟨hsame,by simp⟩

theorem keeps_createContainerWithStaleSlotRecovery (name image : String) (hw : w.Safe) :
    (createContainerWithStaleSlotRecovery name image).Keeps (platformSem f) World.Safe w
      fun r w' => ∀ id, r = .ok id → Created name id w' := by
  refine keeps_tryCatch _ (keeps_containerCreate name image hw) (fun _ _ _ h => h) ?_
  intro err w1 hw1 _
  split
  · exact keeps_throw hw1 (by simp)
  -- the name is taken: whoever has it may go unless the route dials it
  refine keeps_bind _ (keeps_getUpstream err hw1) ?_ (fun _ _ _ _ => by simp)
  rintro upstream w2 hw2 ⟨hsame,hup⟩
  split
  · exact keeps_throw hw2 (by simp)
  next hne =>
  have haside : w2.Aside name := by
    intro route hroute he
    rw [hsame.2] at hroute
    simp [hup upstream rfl,hroute,he] at hne
  refine keeps_bind _ (keeps_stopContainer (w2.docker.means_name name) hw2 haside) ?_
    (fun _ _ _ _ => by simp)
  intro _ w3 hw3 _
  exact keeps_containerCreate name image hw3

structure Launched (name : String) (id : Nat) (w : World) : Prop extends Created name id w where
  live : w.docker.Live name

theorem keeps_containerStart (hc : Created name id w) :
    (call (.containerStart id)).Keeps (platformSem f) World.Safe w fun r w' =>
      r = .ok () → Launched name id w' := by
  refine keeps_perform hc.safe fun r w' hs => ?_
  rcases platformSem_cases hs with ⟨a,⟨-,rfl⟩,-⟩ | ⟨rfl,e,rfl,-⟩
  · have hsafe : World.Safe { w with docker := w.docker.setRunning (.id id) true } :=
      fun route hroute => (hc.safe route hroute).start _
    exact ⟨hsafe,fun _ => ⟨⟨hsafe,hc.aside,hc.owns.setRunning _ _⟩,hc.owns.live_start⟩⟩
  · exact ⟨hc.safe,by simp⟩

theorem keeps_passive (hp : p.Calls (Call.passive · = true)) (hw : w.Safe) :
    p.Keeps (platformSem f) World.Safe w fun _ w' => SameHost w w' :=
  keeps_of_calls hp (SameHost w) (fun _ h => h.safe hw)
    (fun _ _ _ _ ho hv hs => hv.trans (sameHost_passive ho hs)) (.refl w)

theorem keeps_bind_passive {Q : Except RunnerError β → World → Prop}
    (hp : p.Calls (Call.passive · = true)) (hw : w.Safe)
    (hok : ∀ a w1, w1.Safe → SameHost w w1 → (g a).Keeps (platformSem f) World.Safe w1 Q)
    (herr : ∀ e w1, SameHost w w1 → Q (.error e) w1) :
    (p.bind g).Keeps (platformSem f) World.Safe w Q :=
  keeps_bind _ (keeps_passive hp hw) hok fun e w1 _ h => herr e w1 h

theorem keeps_launch (name image : String) (hw : w.Safe) :
    (launch name image).Keeps (platformSem f) World.Safe w fun r w' =>
      ∀ id, r = .ok id → Launched name id w' := by
  refine keeps_bind_passive (calls_call rfl) hw (fun _ w1 hw1 _ => ?_) (fun _ _ _ => by simp)
  refine keeps_bind_passive (calls_call rfl) hw1 (fun _ w2 hw2 _ => ?_) (fun _ _ _ => by simp)
  refine keeps_bind_passive (calls_call rfl) hw2 (fun _ w3 hw3 _ => ?_) (fun _ _ _ => by simp)
  refine keeps_bind_passive (calls_call rfl) hw3 (fun _ w4 hw4 _ => ?_) (fun _ _ _ => by simp)
  refine keeps_bind _ (keeps_createContainerWithStaleSlotRecovery name image hw4) ?_
    (fun _ _ _ _ => by simp)
  intro id w5 _ hcreated
  refine keeps_bind _ (keeps_containerStart (hcreated id rfl)) ?_ (fun _ _ _ _ => by simp)
  intro _ w6 hw6 hlaunched
  refine keeps_ret hw6 ?_
  rintro _ ⟨⟩
  exact hlaunched rfl

/-! ### The operations, each run alone -/

theorem calls_readCurrentColor : readCurrentColor.Calls (Call.inert · = true) := by
  refine calls_bind (calls_call rfl) fun containerId => ?_
  split
  · exact calls_ret _
  · exact calls_bind (calls_call rfl) fun _ => calls_ret _

theorem calls_probe (containerId intervalMs retries : Nat) :
    (probe containerId intervalMs retries).Calls (Call.inert · = true) := by
  induction retries with
  | zero => exact calls_ret _
  | succ retries ih =>
    refine calls_bind (calls_call rfl) fun _ => ?_
    refine calls_bind (calls_attempt (calls_call rfl)) fun resp => ?_
    split
    · exact ih
    · split
      · exact calls_ret _
      · split
        · exact calls_ret _
        · exact ih
        · exact ih
        · exact calls_ret _

theorem calls_pollHealthcheck (containerId intervalMs retries startPeriodMs : Nat) :
    (pollHealthcheck containerId intervalMs retries startPeriodMs).Calls (Call.inert · = true) := by
  unfold pollHealthcheck
  split
  · exact calls_bind (calls_call rfl) fun _ => calls_probe ..
  · exact calls_probe ..

theorem calls_publishKnownAppLogFiles (id : Nat) :
    (publishKnownAppLogFiles id).Calls (Call.inert · = true) :=
  calls_forEach fun _ _ => calls_quietly (calls_call rfl)

variable (appId : String)

theorem keeps_abandon (path : String) (port retries : Nat) (hc : Created name id w) :
    (abandon appId id path port retries).Keeps (platformSem f) World.Safe w
      fun _ w' => w'.Safe := by
  refine keeps_bind_passive (calls_quietly (calls_call rfl)) hc.safe (fun _ w1 hw1 h1 => ?_)
    fun _ _ h1 => h1.safe hc.safe
  refine keeps_bind_passive (calls_passive (calls_publishKnownAppLogFiles id)) hw1
    (fun _ w2 _ h2 => ?_) fun _ _ h2 => h2.safe hw1
  have hc2 := (h1.trans h2).created hc
  refine keeps_bind _ (keeps_stopContainer hc2.owns.means hc2.safe hc2.aside) ?_
    fun _ _ hw3 _ => hw3
  intro _ w3 hw3 _
  exact keeps_throw hw3 hw3

/-- `name` runs, and a route dials no other. -/
structure Switched (name : String) (w : World) : Prop where
  live : w.docker.Live name
  route : ∀ route, w.route = some route → route.upstream.host = name

theorem Switched.safe (h : Switched name w) : w.Safe := by
  intro route hr
  rw [h.route route hr]
  exact h.live

theorem Switched.aside (h : Switched name w) (hne : name ≠ other) : w.Aside other := by
  intro route hr he
  exact hne ((h.route route hr).symm.trans he)

theorem SameHost.switched (h : SameHost w w') (hs : Switched name w) : Switched name w' :=
  ⟨h.1 ▸ hs.live,fun route hr => hs.route route (h.2 ▸ hr)⟩

theorem keeps_switchTo (row : AppRow) (port : Nat) (hl : Launched name id w) :
    (switchTo appId row name port).Keeps (platformSem f) World.Safe w fun r w' =>
      r = .ok () → Switched name w' := by
  refine keeps_bind (fun r w1 => r = .ok () → Switched name w1)
    (keeps_perform hl.safe fun r w1 hs => ?_) ?_ (fun _ _ _ _ => by simp)
  · rcases platformSem_cases hs with ⟨a,rfl,-⟩ | ⟨rfl,e,rfl,-⟩
    · have hsw : Switched name { w with route := some ⟨row.domainOrDefault appId,name,port⟩ } := by
        refine ⟨hl.live,?_⟩
        rintro _ ⟨⟩
        rfl
      exact ⟨hsw.safe,fun _ => hsw⟩
    · exact ⟨hl.safe,by simp⟩
  · intro _ w1 hw1 hsw
    have hpurge : (quietly (call .purgeCloudflare)).Calls (Call.passive · = true) :=
      calls_quietly (calls_call rfl)
    exact keeps_mono (keeps_passive hpurge hw1) fun r w2 _ h2 _ => h2.switched (hsw rfl)

theorem keeps_stopOld (hn : name ∉ names) (hs : Switched name w) :
    (stopContainerCandidates names).Keeps (platformSem f) World.Safe w
      fun _ w' => Switched name w' := by
  refine keeps_forEach (Switched name) names hs.safe ?_ hs
  intro other hmem v hv hsv
  have hne : name ≠ other := fun he => hn (he ▸ hmem)
  refine keeps_mono (keeps_stopContainer (v.docker.means_name other) hv (hsv.aside hne)) ?_
  intro _ v' _ hsp
  exact ⟨hsp.live name hne hsv.live,fun route hr => hsv.route route (hsp.route ▸ hr)⟩

theorem keeps_runBlueGreen (opts : RunBlueGreenOptions) (hw : w.Safe) :
    (runBlueGreen appId opts).Keeps (platformSem f) World.Safe w fun _ w' => w'.Safe := by
  refine keeps_bind_passive (calls_call rfl) hw (fun found w1 hw1 _ => ?_) fun _ _ h1 => h1.safe hw
  split
  · exact keeps_throw hw1 hw1
  next appRow =>
  refine keeps_bind_passive (calls_passive calls_readCurrentColor) hw1
    (fun currentColor w2 hw2 _ => ?_) fun _ _ h2 => h2.safe hw1
  refine keeps_bind _ (keeps_launch _ _ hw2) ?_ fun _ _ hw3 _ => hw3
  intro newContainerId w3 hw3 hlaunch
  refine keeps_bind_passive (calls_passive (calls_pollHealthcheck ..)) hw3
    (fun healthy w4 _ h4 => ?_) fun _ _ h4 => h4.safe hw3
  have hl := hlaunch newContainerId rfl
  have hl4 : Launched _ _ _ := ⟨h4.created hl.toCreated,h4.1 ▸ hl.live⟩
  split
  · exact keeps_abandon _ _ _ _ hl4.toCreated
  refine keeps_bind _ (keeps_switchTo appId appRow _ hl4) ?_ fun _ _ hw5 _ => hw5
  intro _ w5 hw5 hswitch
  refine keeps_bind_passive (calls_call rfl) hw5 (fun _ w6 hw6 h6 => ?_) fun _ _ h6 => h6.safe hw5
  have hs6 := h6.switched (hswitch rfl)
  refine keeps_bind_passive (calls_quietly (calls_call rfl)) hw6 (fun _ w7 hw7 h7 => ?_)
    fun _ _ h7 => h7.safe hw6
  have hs7 := h7.switched hs6
  refine keeps_bind_passive (calls_call rfl) hw7 (fun _ w8 _ h8 => ?_) fun _ _ h8 => h8.safe hw7
  have hold := runtimeContainerName_not_mem_candidates appRow.toApp currentColor
  refine keeps_bind _ (keeps_stopOld hold (h8.switched hs7)) ?_ fun _ _ hw9 _ => hw9
  intro _ w9 hw9 _
  exact keeps_ret hw9 hw9

theorem post_runBlueGreen (opts : RunBlueGreenOptions) (hw : w.Safe) :
    Post (platformSem f) (runBlueGreen appId opts) w fun _ w' => w'.Safe :=
  (keeps_runBlueGreen appId opts hw).post

theorem calls_rollbackTarget (targetBuildId : Option String) :
    (rollbackTarget appId targetBuildId).Calls (Call.inert · = true) := by
  unfold rollbackTarget
  split
  · refine calls_bind (calls_call rfl) fun found => ?_
    split
    · exact calls_throw _
    · exact calls_ret _
  · refine calls_bind (calls_call rfl) fun builds => ?_
    split
    · exact calls_ret _
    · exact calls_throw _

theorem post_rollbackApp (targetBuildId : Option String) (hw : w.Safe) :
    Post (platformSem f) (rollbackApp appId targetBuildId) w fun _ w' => w'.Safe := by
  refine post_bind_passive (calls_passive (calls_rollbackTarget ..)) (fun previousBuild w1 h1 => ?_)
    fun _ _ h1 => h1.safe hw
  have hw1 := h1.safe hw
  split
  · exact post_throw hw1
  refine post_bind_passive (calls_passive calls_readCurrentColor) (fun currentColor w2 h2 => ?_)
    fun _ _ h2 => h2.safe hw1
  have hw2 := h2.safe hw1
  refine post_bind_passive (calls_call rfl) (fun found w3 h3 => ?_) fun _ _ h3 => h3.safe hw2
  have hw3 := h3.safe hw2
  split
  · exact post_throw hw3
  next appRow =>
  refine post_bind_passive (calls_call rfl) (fun _ w4 h4 => ?_) fun _ _ h4 => h4.safe hw3
  refine Prog.Keeps.post (I := World.Safe) ?_
  refine keeps_bind _ (keeps_launch _ _ (h4.safe hw3)) ?_ fun _ _ hw5 _ => hw5
  intro containerId w5 _ hlaunch
  refine keeps_bind _ (keeps_switchTo appId appRow _ (hlaunch containerId rfl)) ?_
    fun _ _ hw6 _ => hw6
  intro _ w6 _ hswitch
  have hold := runtimeContainerName_not_mem_candidates appRow.toApp currentColor
  refine keeps_bind _ (keeps_stopOld hold (hswitch rfl)) ?_ fun _ _ hw7 _ => hw7
  intro _ w7 hw7 _
  exact keeps_mono (keeps_passive (calls_call rfl) hw7) fun _ _ hw8 _ => hw8

theorem post_removeUpstream (hrem : ¬f.fails .removeUpstream) :
    Post (platformSem f) (call .removeUpstream) w fun _ w' => w'.Safe := by
  refine post_call fun r w' hs => ?_
  rcases platformSem_cases hs with ⟨a,rfl,-⟩ | ⟨-,e,-,hrefuses | hfails⟩
  · exact nofun
  · exact hrefuses.elim
  · exact absurd hfails hrem

theorem post_takeDown (hrem : ¬f.fails .removeUpstream) (app : App)
    (hp : ∀ v : World, v.Safe → Post (platformSem f) p v fun _ w' => w'.Safe) :
    Post (platformSem f)
      ((stopBothColors app).bind fun _ => (call .removeUpstream).bind fun _ => p) w
      fun _ w' => w'.Safe := by
  refine post_bind _ (Prog.Total.post (Prog.total_allSettled ..) w) ?_ ?_
  · intro _ w1 _
    exact post_bind _ (post_removeUpstream hrem) (fun _ w2 h2 => hp w2 h2) fun _ _ h => h
  · rintro e w1 ⟨a,he⟩
    cases he

theorem post_stopApp (hrem : ¬f.fails .removeUpstream) (hw : w.Safe) :
    Post (platformSem f) (stopApp appId) w fun _ w' => w'.Safe := by
  refine post_bind_passive (calls_call rfl) (fun found w1 h1 => ?_) fun _ _ h1 => h1.safe hw
  split
  · exact post_throw (h1.safe hw)
  · exact post_takeDown hrem _ fun v hv =>
      post_mono (post_passive (calls_call rfl) v) fun _ _ h => h.safe hv

theorem post_restartApp (hrem : ¬f.fails .removeUpstream) (hw : w.Safe) :
    Post (platformSem f) (restartApp appId) w fun _ w' => w'.Safe := by
  refine post_bind_passive (calls_call rfl) (fun rows w1 h1 => ?_) fun _ _ h1 => h1.safe hw
  have hw1 := h1.safe hw
  split
  · exact post_throw hw1
  refine post_bind_passive (calls_call rfl) (fun _ w2 h2 => ?_) fun _ _ h2 => h2.safe hw1
  have hw2 := h2.safe hw1
  refine post_bind_passive (calls_call rfl) (fun found w3 h3 => ?_) fun _ _ h3 => h3.safe hw2
  split
  · exact post_throw (h3.safe hw2)
  refine post_takeDown hrem _ fun v hv => ?_
  refine post_bind_passive (calls_call rfl) (fun row w4 h4 => ?_) fun _ _ h4 => h4.safe hv
  have hw4 := h4.safe hv
  refine post_bind_passive (calls_call rfl) (fun _ w5 h5 => ?_) fun _ _ h5 => h5.safe hw4
  refine post_bind _ (post_runBlueGreen appId _ (h5.safe hw4)) ?_ fun _ _ h => h
  intro _ w6 h6
  exact post_ret h6

theorem post_operation (op : Operation) (hrem : ¬f.fails .removeUpstream)
    (hw : w.Safe) : Post (platformSem f) (op.run appId) w fun _ w' => w'.Safe := by
  cases op with
  | deploy opts =>
    refine post_bind _ (post_runBlueGreen appId opts hw) ?_ fun _ _ h => h
    intro _ w1 h1
    exact post_ret h1
  | rollback targetBuildId => exact post_rollbackApp appId targetBuildId hw
  | restart => exact post_restartApp appId hrem hw
  | stop => exact post_stopApp appId hrem hw

abbrev Operations (ι : Type) := Pool Platform RunnerError Unit ι World

/-- In a run in which an operation makes a call only while no other one is half way, and no removal
of the route fails without effect, the route dials a running container whenever no operation is in
progress. -/
theorem serial_operations_safe {ι : Type} [DecidableEq ι] (f : Faults)
    (hrem : ¬f.fails .removeUpstream) (appId : String) (ops : ι → Operation) (w : World)
    (hw : w.Safe) (c : Operations ι)
    (hr : Pool.Reach (platformSem f) Pool.Serial (Pool.start w fun i => (ops i).run appId) c)
    (hq : c.Quiet) : c.world.Safe :=
  Pool.reach_serial (fun i _ hv => post_operation appId (ops i) hrem hv) hw hr hq

/-! ### A rollback during the grace period of a deploy -/

def Operation.isDeploy : Operation → Bool
  | deploy _ => true
  | _ => false

def DeployLocked {ι : Type} (ops : ι → Operation) (c : Operations ι) (i : ι) : Prop :=
  (ops i).isDeploy = true → ∀ j, j ≠ i → (ops j).isDeploy = true → ¬c.InProgress j

namespace Shop

def app : App := ⟨"a1","shop"⟩

def blue : String := runtimeContainerName app .blue

def world : World where
  row := some { app with
    domain := none, runtimePort := none, healthcheckPath := none, healthcheckPort := none
    healthcheckIntervalS := none, healthcheckRetries := none, healthcheckStartPeriodS := none
    status := .running, containerId := some blue }
  builds := [⟨"b2",.succeeded,some "shop:2",none⟩, ⟨"b1",.succeeded,some "shop:1",none⟩]
  docker :=
    { containers := [⟨0,blue,"shop:2",true⟩], nextId := 1
      id_lt := by simp, ids := by simp, names := by simp }
  route := some ⟨"a1.ploydok.local",blue,3000⟩

theorem safe_world : world.Safe := by
  rintro _ ⟨⟩
  exact ⟨_,List.mem_singleton.mpr rfl,rfl,rfl⟩

def ops : Bool → Operation
  | true => .deploy { imageRef := "shop:3" }
  | false => .rollback none

def start : Operations Bool := Pool.start world fun i => (ops i).run "a1"

def deployed : Operations Bool := (List.replicate 20 true).foldl (Pool.tick serve) start

def inTurn : Operations Bool := (List.replicate 21 false).foldl (Pool.tick serve) deployed

def overlapping : Operations Bool :=
  (List.replicate 15 true ++ List.replicate 21 false ++ List.replicate 5 true).foldl
    (Pool.tick serve) start

theorem deployLocked (c : Operations Bool) (i : Bool) : DeployLocked ops c i := by
  intro hi j hne hj
  cases i <;> cases j <;> simp [ops,Operation.isDeploy] at hi hj hne

end Shop

open Shop

theorem serial_operations_safe_in_turn : inTurn.world.route = some ⟨"a1.ploydok.local",blue,3000⟩ ∧
      inTurn.world.Safe := by
  have hdeploy : Pool.Reach (platformSem .none) Pool.Serial start deployed :=
    Pool.reach_alone (platformSem_serve .none) (Pool.serial_start _ _ true) 20
  have hidle : deployed.Serial false := by
    intro j hj hp
    obtain rfl : j = true := by simpa using hj
    have hdone : (deployed.prog true).done = true := by decide +kernel
    rw [Pool.InProgress,hdone] at hp
    cases hp.2
  have hrollback : Pool.Reach (platformSem .none) Pool.Serial deployed inTurn :=
    Pool.reach_alone (platformSem_serve .none) hidle 21
  have hquiet : inTurn.Quiet := Pool.quiet_of_done fun i => by cases i <;> decide +kernel
  exact ⟨by decide +kernel,serial_operations_safe .none id "a1" ops world
    safe_world inTurn (hdeploy.trans hrollback) hquiet⟩

/-- The rollback makes the blue container live again, and the deploy, which remembers blue as
the old colour, removes it. -/
theorem rollback_in_grace_period_stops_live_container :
    ¬∀ (ι : Type) [DecidableEq ι] (appId : String) (ops : ι → Operation) (w : World)
      (c : Operations ι), w.Safe →
      Pool.Reach (platformSem .none) (DeployLocked ops)
        (Pool.start w fun i => (ops i).run appId) c →
      c.Quiet → c.world.Safe := by
  intro hall
  have hsafe := hall Bool "a1" ops world overlapping safe_world
    (Pool.reach_schedule (platformSem_serve .none) _ _ (Pool.admits_of_forall deployLocked _ _))
    (Pool.quiet_of_done fun i => by cases i <;> decide +kernel)
  have hroute : overlapping.world.route = some ⟨"a1.ploydok.local",blue,3000⟩ := by
    decide +kernel
  have hgone : overlapping.world.docker.containers = [] := by decide +kernel
  obtain ⟨k,hk,-⟩ := hsafe _ hroute
  rw [hgone] at hk
  cases hk

end Ploydok.Runtime
