import Ploydok.Runtime.Teardown

/-! The deploy after failed deploys. A deploy in which nothing fails is turned away only where the
container that the route dials has the name of the new one; it removes the new colour only under the
name it runs under. -/

namespace Ploydok.Runtime

open Effect Effect.Prog List

inductive Deploys (appId : String) (w₀ : World) : World → Prop
  | refl : Deploys appId w₀ w₀
  | next {w w' : World} {opts : RunBlueGreenOptions} {f : Faults}
      {tr : List (Event Platform RunnerError)} {out : Except RunnerError RunBlueGreenResult}
      (h : Deploys appId w₀ w)
      (hrun : (runBlueGreen appId opts).Runs (platformSem f) w tr out w') : Deploys appId w₀ w'

abbrev Reported := World × List HealthStatus

def serveReports : Handler Platform RunnerError Reported
  | .inspectContainerHealth id, s =>
    (.ok ⟨!s.1.docker.has (.id id),s.2.headD .starting⟩, s.1, s.2.tail)
  | o, s => ((serve o s.1).1, (serve o s.1).2, s.2)

def HealthyWithin : List HealthStatus → Nat → Bool
  | _, 0 | [], _ => false
  | .healthy :: _, _ + 1 => true
  | .none :: _, _ + 1 => false
  | _ :: reports, n + 1 => HealthyWithin reports n

def RunBlueGreenOptions.retries (opts : RunBlueGreenOptions) (row : AppRow) : Nat :=
  (opts.healthcheckRetries.or row.healthcheckRetries).getD 6

def World.currentColor (w : World) : Color :=
  getCurrentColor (w.row.bind (·.containerId))
    (((w.builds.filter (·.status = .succeeded)).take 1).map (·.containerId))

def World.OneContainer (app : App) (w : World) : Prop :=
  ∃ k route, w.docker.containers.filter (fun k => k.name ∈ slotNames app) = [k] ∧
    k.running = true ∧ w.route = some route ∧ route.upstream.host = k.name

/-- The name of the next container is not that of one that the route dials, and none has the legacy
name. -/
def World.Ready (app : App) (w : World) : Prop :=
  let color := w.currentColor.oppositeColor
  let name := runtimeContainerName app color
  let legacy := legacyRuntimeContainerName app.id color
  ¬ (w.docker.has (.name name) = true ∧ w.route.map (·.upstream.host) = some name) ∧
    (legacy = name ∨ w.docker.has (.name legacy) = false)

section Steps

variable {α : Type} {s : Reported}

theorem post_served (hserve : serveReports o s = (.ok a, t))
    (h : Post (Prog.ofHandler serveReports) (k a) t Q) :
    Post (Prog.ofHandler serveReports) ((call o).bind k) s Q := by
  rintro tr out s' ⟨r,s2,tr1,hs,-,hr⟩
  obtain ⟨rfl,rfl⟩ := Prod.mk.inj (hserve.symm.trans hs)
  exact h tr1 out s' hr

structure Without (names : List String) (w w' : World) : Prop where
  row : w'.row = w.row
  route : w'.route = w.route
  containers : w'.docker.containers = w.docker.containers.filter fun k => k.name ∉ names

theorem Docker.containers_remove_stopped (d : Docker) (name : String) :
    ((d.setRunning (.name name) false).remove (.name name)).containers =
      d.containers.filter fun k => k.name ∉ [name] := by
  have hswitch : ∀ k : Container, k.name ≠ name → (Ref.name name).switch false k = k := by
    intro k hk
    simp [Ref.switch,Ref.refersTo,hk]
  simp only [Docker.remove,Docker.setRunning,Ref.refersTo,filter_map]
  rw [map_congr_left (g := id)]
  · simp [Function.comp_def]
  · intro k hk
    exact hswitch k (by simpa using (mem_filter.mp hk).2)

variable {name : String}

theorem Docker.containers_of_absent {d : Docker} (h : ¬ d.has (.name name) = true) :
    d.containers = d.containers.filter fun k => k.name ∉ [name] := by
  refine (filter_eq_self.mpr fun k hk => ?_).symm
  have hne : k.name ≠ name := fun he => h (Docker.has_name_iff.mpr (he ▸ mem_map_of_mem hk))
  simpa using hne

theorem exec_call (o : Call) : (call o).exec serveReports s = serveReports o s :=
  exec_perform (S := Platform) serveReports o s

theorem exec_quietly (p : RunProg Unit) :
    (quietly p).exec serveReports s = (.ok (), (p.exec serveReports s).2) := by
  rw [quietly,exec_tryCatch]
  generalize p.exec serveReports s = q
  obtain ⟨r,s'⟩ := q
  cases r <;> rfl

theorem post_stopContainer_clean (name : String) :
    Post (Prog.ofHandler serveReports) (stopContainer (.name name)) s fun r s' =>
      r = .ok () ∧ Without [name] s.1 s'.1 ∧ s'.2 = s.2 := by
  refine post_of_exec ?_
  have hexec : (stopContainer (.name name)).exec serveReports s =
      (.ok (), (serve (.containerRemove (.name name))
        (serve (.containerStop (.name name)) s.1).2).2, s.2) := by
    change ((quietly (call (.containerStop (.name name)))).bind fun _ =>
      quietly (call (.containerRemove (.name name)))).exec serveReports s = _
    rw [exec_bind,exec_quietly,exec_call]
    change (quietly _).exec serveReports _ = _
    rw [exec_quietly,exec_call]
    rfl
  rw [hexec,snd_serve_remove,snd_serve_stop]
  refine ⟨rfl,⟨rfl,rfl,?_⟩,rfl⟩
  by_cases hhas : s.1.docker.has (.name name) = true
  · have hstill : (s.1.docker.setRunning (.name name) false).has (.name name) = true := by
      rw [Docker.has_name_iff] at hhas ⊢
      simpa [Docker.setRunning,Function.comp_def] using hhas
    simp only [hhas,hstill,if_true]
    exact Docker.containers_remove_stopped _ _
  · simp only [hhas,if_false,Bool.false_eq_true]
    exact Docker.containers_of_absent hhas

theorem Without.trans (h : Without names w1 w2) (h' : Without names' w2 w3) :
    Without (names ++ names') w1 w3 := by
  refine ⟨h'.row.trans h.row,h'.route.trans h.route,?_⟩
  rw [h'.containers,h.containers,filter_filter]
  congr 1
  funext k
  simp [not_or,Bool.and_comm]

theorem post_stopContainerCandidates_clean (names : List String) :
    Post (Prog.ofHandler serveReports) (stopContainerCandidates names) s fun r s' =>
      r = .ok () ∧ Without names s.1 s'.1 ∧ s'.2 = s.2 := by
  induction names generalizing s with
  | nil => exact post_ret ⟨rfl,⟨rfl,rfl,by simp⟩,rfl⟩
  | cons name names ih =>
    refine post_bind _ (post_stopContainer_clean name) ?_ ?_
    · rintro _ s1 ⟨-,h1,hreports1⟩
      refine post_mono ih ?_
      rintro r s2 ⟨hr,h2,hreports2⟩
      exact ⟨hr,h1.trans h2,hreports2.trans hreports1⟩
    · rintro e s1 ⟨he,-⟩
      cases he

variable {id : Nat}

theorem post_probe (hid : s.1.docker.has (.id id) = true) (intervalMs retries : Nat) :
    Post (Prog.ofHandler serveReports) (probe id intervalMs retries) s fun r s' =>
      r = .ok (HealthyWithin s.2 retries) ∧ s'.1 = s.1 := by
  obtain ⟨w,reports⟩ := s
  induction retries generalizing reports with
  | zero => exact post_ret ⟨by cases reports <;> rfl,rfl⟩
  | succ retries ih =>
    refine post_served (t := (w, reports)) rfl ?_
    refine post_bind (fun r s' => r = .ok (.ok ⟨false,reports.headD .starting⟩) ∧
      s' = (w, reports.tail)) (post_of_exec ?_) ?_ ?_
    · rw [exec_attempt,exec_call]
      simp [serveReports,hid]
    · rintro _ _ ⟨hr,rfl⟩
      cases hr
      cases reports with
      | nil =>
        refine post_mono (ih [] hid) ?_
        rintro r s' ⟨hr,hs'⟩
        refine ⟨?_,hs'⟩
        cases retries <;> simpa [HealthyWithin] using hr
      | cons status reports =>
        cases status with
        | healthy | none => exact post_ret ⟨rfl,rfl⟩
        | starting | unhealthy => exact ih reports hid
    · rintro e s' ⟨he,-⟩
      cases he

theorem post_pollHealthcheck (hid : s.1.docker.has (.id id) = true)
    (intervalMs retries startPeriodMs : Nat) :
    Post (Prog.ofHandler serveReports) (pollHealthcheck id intervalMs retries startPeriodMs) s
      fun r s' => r = .ok (HealthyWithin s.2 retries) ∧ s'.1 = s.1 := by
  unfold pollHealthcheck
  split
  · exact post_served rfl (post_probe hid intervalMs retries)
  · exact post_probe hid intervalMs retries

structure Replaced (name : String) (id : Nat) (running : Bool) (w w' : World) : Prop where
  row : w'.row = w.row
  route : w'.route = w.route
  containers : ∃ image, w'.docker.containers =
    w.docker.containers.filter (fun k => k.name ∉ [name]) ++ [⟨id,name,image,running⟩]

theorem Replaced.has (h : Replaced name id running w w') : w'.docker.has (.id id) = true := by
  obtain ⟨image,hc⟩ := h.containers
  simp [Docker.has,hc,Ref.refersTo]

def World.Blocked (w : World) (name : String) : Prop :=
  w.docker.has (.name name) = true ∧ w.route.map (·.upstream.host) = some name

theorem post_call_serve (o : Call) : Post (Prog.ofHandler serveReports) (call o) s fun r s' =>
      r = (serveReports o s).1 ∧ s' = (serveReports o s).2 := by
  refine post_of_exec ?_
  rw [exec_call]
  exact ⟨rfl,rfl⟩

theorem post_containerCreate_clean (hfree : s.1.docker.has (.name name) = false) (image : String) :
    Post (Prog.ofHandler serveReports) (call (.containerCreate name image)) s fun r s' =>
      ∃ id, r = .ok id ∧ Replaced name id false s.1 s'.1 ∧ s'.2 = s.2 := by
  obtain ⟨id,d,hcreate⟩ := Docker.exists_create hfree image
  refine post_mono (post_call_serve _) ?_
  rintro r s' ⟨rfl,rfl⟩
  simp only [serveReports,serve,hcreate]
  refine ⟨id,rfl,⟨rfl,rfl,image,?_⟩,trivial⟩
  have habsent : ¬ s.1.docker.has (.name name) = true := by simp [hfree]
  rw [(Docker.create?_eq_some hcreate).2,← Docker.containers_of_absent habsent]

theorem Without.free (h : Without [name] w w') : w'.docker.has (.name name) = false := by
  rw [← Bool.not_eq_true,Docker.has_name_iff,h.containers]
  rintro hmem
  obtain ⟨k,hk,hname⟩ := mem_map.mp hmem
  exact absurd hname (by simpa using (mem_filter.mp hk).2)

theorem Without.replaced (h : Without [name] w1 w2) (h' : Replaced name id running w2 w3) :
    Replaced name id running w1 w3 := by
  obtain ⟨image,hc⟩ := h'.containers
  refine ⟨h'.row.trans h.row,h'.route.trans h.route,image,?_⟩
  rw [hc,h.containers,filter_filter]
  simp

theorem post_create_clean (name image : String) :
    Post (Prog.ofHandler serveReports) (createContainerWithStaleSlotRecovery name image) s
      fun r s' => (s.1.Blocked name ∧ ∃ e, r = .error e) ∨ (¬ s.1.Blocked name ∧ ∃ id, r = .ok id ∧
        Replaced name id false s.1 s'.1 ∧ s'.2 = s.2) := by
  by_cases hhas : s.1.docker.has (.name name) = true
  · have hrefused : s.1.docker.create? name image = none := dif_pos hhas
    refine post_tryCatch _ (post_call_serve _) ?_ ?_
    · rintro a s1 ⟨ha,-⟩
      simp [serveReports,serve,hrefused] at ha
    · rintro err s1 ⟨herr,hs1⟩
      simp only [serveReports,serve,hrefused] at herr hs1
      obtain rfl := Except.error.inj herr
      obtain rfl : s1 = s := hs1
      rw [if_neg (by decide)]
      refine post_bind (fun r s' => r = .ok (s1.1.route.map (·.upstream)) ∧ s' = s1) ?_ ?_ ?_
      · exact post_of_exec ⟨rfl,rfl⟩
      · rintro upstream s2 ⟨hup,rfl⟩
        obtain rfl := Except.ok.inj hup
        rw [Option.map_map]
        split
        · next hdials => exact post_throw (.inl ⟨⟨hhas,hdials⟩,_,rfl⟩)
        · next hdials =>
          refine post_bind _ (post_stopContainer_clean name) ?_ ?_
          · rintro _ s3 ⟨-,hwithout,hreports⟩
            refine post_mono (post_containerCreate_clean hwithout.free image) ?_
            rintro r s4 ⟨id,hr,hreplaced,hreports'⟩
            exact .inr ⟨fun hb => hdials hb.2,id,hr,hwithout.replaced hreplaced,
              hreports'.trans hreports⟩
          · rintro e s3 ⟨he,-⟩
            cases he
      · rintro e s2 ⟨he,-⟩
        cases he
  · have hfree : s.1.docker.has (.name name) = false := by simpa using hhas
    refine post_tryCatch _ (post_containerCreate_clean hfree image) ?_ ?_
    · rintro a s1 ⟨id,hr,hreplaced,hreports⟩
      exact .inr ⟨fun hb => hhas hb.1,id,hr,hreplaced,hreports⟩
    · rintro e s1 ⟨id,hr,-⟩
      cases hr

theorem Replaced.start (h : Replaced name id false w w') :
    Replaced name id true w { w' with docker := w'.docker.setRunning (.id id) true } := by
  obtain ⟨image,hc⟩ := h.containers
  refine ⟨h.row,h.route,image,?_⟩
  have hids := w'.docker.ids
  rw [hc,map_append,nodup_append] at hids
  have hother : ∀ k ∈ w.docker.containers.filter (fun k => k.name ∉ [name]),
      (Ref.id id).switch true k = k := by
    intro k hk
    have hne : k.id ≠ id := hids.2.2 _ (mem_map_of_mem hk) _ (by simp)
    simp [Ref.switch,Ref.refersTo,hne]
  simp only [Docker.setRunning,hc,map_append,map_cons,map_nil]
  rw [map_congr_left hother,map_id']
  simp [Ref.switch,Ref.refersTo]

theorem post_launch_clean (name image : String) :
    Post (Prog.ofHandler serveReports) (launch name image) s fun r s' =>
      (s.1.Blocked name ∧ ∃ e, r = .error e) ∨ (¬ s.1.Blocked name ∧ ∃ id, r = .ok id ∧
        Replaced name id true s.1 s'.1 ∧ s'.2 = s.2) := by
  refine post_served rfl ?_
  refine post_served rfl ?_
  refine post_served rfl ?_
  refine post_served rfl ?_
  refine post_bind _ (post_create_clean name image) ?_ ?_
  · rintro id s1 (⟨-,e,he⟩ | ⟨hfree,id',hid,hreplaced,hreports⟩)
    · cases he
    · obtain rfl := Except.ok.inj hid
      have hstart : serveReports (.containerStart id) s1 =
          (.ok (), { s1.1 with docker := s1.1.docker.setRunning (.id id) true }, s1.2) := by
        simp [serveReports,serve,hreplaced.has]
      refine post_served hstart (post_ret ?_)
      exact .inr ⟨hfree,id,rfl,hreplaced.start,hreports⟩
  · rintro e s1 (h | ⟨-,id,hid,-⟩)
    · exact .inl ⟨h.1,e,rfl⟩
    · cases hid

theorem post_readCurrentColor : Post (Prog.ofHandler serveReports) readCurrentColor s fun r s' =>
      r = .ok s.1.currentColor ∧ s' = s := by
  refine post_served rfl ?_
  cases hcolor : inferContainerColor (s.1.row.bind (·.containerId)) with
  | some color =>
    refine post_ret ⟨?_,rfl⟩
    simp [World.currentColor,getCurrentColor,hcolor]
  | none => exact post_served rfl (post_ret ⟨rfl,rfl⟩)

structure Deployed (name : String) (old : List String) (w w' : World) : Prop where
  route : ∃ route, w'.route = some route ∧ route.upstream.host = name
  containers : ∃ id image, w'.docker.containers =
    w.docker.containers.filter (fun k => k.name ∉ name :: old) ++ [⟨id,name,image,true⟩]

theorem Replaced.deployed (hold : name ∉ old) (h : Replaced name id true w w1)
    (hdocker : w2.docker = w1.docker) {route : Route} (hroute : w2.route = some route)
    (hhost : route.upstream.host = name) (h' : Without old w2 w') : Deployed name old w w' := by
  refine ⟨⟨route,h'.route.trans hroute,hhost⟩,?_⟩
  obtain ⟨image,hc⟩ := h.containers
  refine ⟨id,image,?_⟩
  rw [h'.containers,hdocker,hc,filter_append,filter_filter]
  congr 1
  · congr 1
    funext k
    simp [not_or,Bool.and_comm]
  · simp [hold]

theorem post_switchTo_clean (appId : String) (row : AppRow) (name : String) (port : Nat) :
    Post (Prog.ofHandler serveReports) (switchTo appId row name port) s fun r s' =>
      r = .ok () ∧ s'.1.docker = s.1.docker ∧ ∃ route, s'.1.route = some route ∧
        route.upstream.host = name :=
  post_of_exec ⟨rfl,rfl,_,rfl,rfl⟩

theorem post_runBlueGreen_clean (appId : String) (opts : RunBlueGreenOptions)
    (hrow : s.1.row = some row) (hhealthy : HealthyWithin s.2 (opts.retries row) = true)
    (hname : runtimeContainerName row.toApp s.1.currentColor.oppositeColor = name)
    (hold : runtimeContainerNameCandidates row.toApp s.1.currentColor = old) :
    Post (Prog.ofHandler serveReports) (runBlueGreen appId opts) s fun r s' =>
      (s.1.Blocked name ∧ ∃ e, r = .error e) ∨
        (¬ s.1.Blocked name ∧ (∃ res, r = .ok res) ∧ Deployed name old s.1 s'.1) := by
  have hread : serveReports .readApp s = (.ok (some row), s) := by
    simp [serveReports,serve,hrow]
  refine post_served hread ?_
  refine post_bind _ post_readCurrentColor ?_ (fun e s1 h => by cases h.1)
  rintro color s1 ⟨hcolor,rfl⟩
  obtain rfl := Except.ok.inj hcolor
  have hnew : name ∉ old := by
    rw [← hname,← hold]
    exact runtimeContainerName_not_mem_candidates row.toApp s1.1.currentColor
  -- from here on the names are any two that do not clash
  dsimp only
  rw [hname,hold]
  clear hname hold
  refine post_bind _ (post_launch_clean name opts.imageRef) ?_ ?_
  · rintro id s2 (⟨-,e,he⟩ | ⟨hfree,id',hid,hreplaced,hreports⟩)
    · cases he
    obtain rfl := Except.ok.inj hid
    refine post_bind _ (post_pollHealthcheck hreplaced.has _ _ _) ?_ (fun e s3 h => by cases h.1)
    rintro healthy s3 ⟨hpoll,hs3⟩
    rw [hreports] at hpoll
    have htrue : healthy = true := (Except.ok.inj hpoll).trans hhealthy
    rw [if_neg (by simp [htrue])]
    refine post_bind _ (post_switchTo_clean appId row name _) ?_ (fun e s4 h => by cases h.1)
    rintro _ s4 ⟨-,hdocker,route,hroute,hhost⟩
    refine post_served rfl ?_
    refine post_bind (fun r s5 => r = .ok () ∧ s5.1.docker = s4.1.docker ∧
      s5.1.route = s4.1.route) (post_of_exec ⟨rfl,rfl,rfl⟩) ?_ (fun e s5 h => by cases h.1)
    rintro _ s5 ⟨-,hdocker5,hroute5⟩
    refine post_served rfl ?_
    refine post_bind _ (post_stopContainerCandidates_clean old) ?_ (fun e s6 h => by cases h.1)
    rintro _ s6 ⟨-,hwithout,-⟩
    refine post_ret (.inr ⟨hfree,⟨_,rfl⟩,?_⟩)
    have hsame : s5.1.docker = s2.1.docker := by rw [hdocker5,hdocker,hs3]
    exact hreplaced.deployed hnew hsame (hroute5.trans hroute) hhost hwithout
  · rintro e s2 (h | ⟨-,id,hid,-⟩)
    · exact .inl ⟨h.1,e,rfl⟩
    · cases hid

end Steps

theorem mem_slotNames (color : Color) :
    n ∈ slotNames app ↔ (n = runtimeContainerName app color.oppositeColor ∨
      n = legacyRuntimeContainerName app.id color.oppositeColor) ∨
        n ∈ runtimeContainerNameCandidates app color := by
  have hcandidates : ∀ c, n ∈ runtimeContainerNameCandidates app c ↔
      n = runtimeContainerName app c ∨ n = legacyRuntimeContainerName app.id c := by
    intro c
    simp [runtimeContainerNameCandidates,mem_dedup]
  rw [slotNames,mem_append,← hcandidates]
  cases color with
  | blue => exact or_comm
  | green => exact Iff.rfl

theorem legacy_not_mem_candidates (app : App) (color : Color) :
    legacyRuntimeContainerName app.id color.oppositeColor ∉
      runtimeContainerNameCandidates app color := by
  have hne := color.oppositeColor_ne
  simp only [runtimeContainerNameCandidates,mem_dedup,mem_cons,not_mem_nil, or_false,not_or]
  exact ⟨append_text_ne hne _ _,append_text_ne hne _ _⟩

theorem Deployed.oneContainer_iff (h : Deployed (runtimeContainerName app color.oppositeColor)
      (runtimeContainerNameCandidates app color) w w') :
    w'.OneContainer app ↔ legacyRuntimeContainerName app.id color.oppositeColor =
          runtimeContainerName app color.oppositeColor ∨
        w.docker.has (.name (legacyRuntimeContainerName app.id color.oppositeColor)) = false := by
  have hslot : ∀ n, n ∈ slotNames app ↔ _ := fun n => mem_slotNames color
  have hlegacy := legacy_not_mem_candidates app color
  obtain ⟨⟨route,hroute,hhost⟩,id,image,hc⟩ := h
  generalize runtimeContainerName app color.oppositeColor = name at *
  generalize legacyRuntimeContainerName app.id color.oppositeColor = legacy at *
  generalize runtimeContainerNameCandidates app color = old at *
  have hnew : name ∈ slotNames app := (hslot name).mpr (.inl (.inl rfl))
  constructor
  · rintro ⟨k,route',hone,-,-,-⟩
    by_contra hnot
    obtain ⟨hne,hhas⟩ := not_or.mp hnot
    -- both the new container and the one under the legacy name are left
    obtain ⟨l,hl,hlname⟩ := mem_map.mp (Docker.has_name_iff.mp ((Bool.not_eq_false _).mp hhas))
    have hl' : l ∈ w'.docker.containers.filter fun k => k.name ∈ slotNames app := by
      rw [mem_filter,hc,mem_append,mem_filter]
      refine ⟨.inl ⟨hl,?_⟩,?_⟩
      · simp [hlname,hne,hlegacy]
      · simpa [hlname] using (hslot legacy).mpr (.inl (.inr rfl))
    have hk' : (⟨id,name,image,true⟩ : Container) ∈
        w'.docker.containers.filter fun k => k.name ∈ slotNames app := by
      rw [mem_filter,hc]
      simpa using hnew
    rw [hone,mem_singleton] at hl' hk'
    rw [hl',← hk'] at hlname
    exact hne hlname.symm
  · intro hfree
    refine ⟨⟨id,name,image,true⟩,route,?_,rfl,hroute,hhost⟩
    have hnone : (w.docker.containers.filter fun k => k.name ∉ name :: old).filter
        (fun k => k.name ∈ slotNames app) = [] := by
      rw [filter_eq_nil_iff]
      intro k hk hkslot
      obtain ⟨hk,hkout⟩ := mem_filter.mp hk
      simp only [mem_cons,not_or,decide_eq_true_eq] at hkout hkslot
      rcases (hslot k.name).mp hkslot with (hkname | hklegacy) | hkold
      · exact hkout.1 hkname
      · rcases hfree with hsame | habsent
        · exact hkout.1 (hklegacy.trans hsame)
        · have hhas : w.docker.has (.name legacy) = true :=
            Docker.has_name_iff.mpr (hklegacy ▸ mem_map_of_mem hk)
          rw [habsent] at hhas
          cases hhas
      · exact hkout.2 hkold
    rw [hc,filter_append,hnone]
    simp [hnew]

def AppRow.SameSettings (row row' : AppRow) : Prop :=
  row' = { row with status := row'.status, containerId := row'.containerId }

section Settings

variable {f : Faults} {w w' : World} {row : AppRow}

def World.Keeps (row : AppRow) (w : World) : Prop :=
  ∃ row', w.row = some row' ∧ row.SameSettings row'

theorem World.Keeps.setRow (h : w.Keeps row) (hg : ∀ row : AppRow, row.SameSettings (g row)) :
    (w.setRow g).Keeps row := by
  obtain ⟨row',hrow',hsame⟩ := h
  refine ⟨g row',by simp [World.setRow,hrow'],?_⟩
  have hg' := hg row'
  unfold AppRow.SameSettings at *
  rw [hg',hsame]

section Kept

variable {I : World → Prop} (hdocker : ∀ v d, I v → I { v with docker := d })
  (hroute : ∀ v route, I v → I { v with route := route })
  (hrow : ∀ v g, (∀ row : AppRow, row.SameSettings (g row)) → I v → I (v.setRow g))
include hdocker hroute hrow

/-- A call writes the state of docker, the route, or the status and the container of the row. -/
theorem kept_of_platformSem (hs : platformSem f o w r w') (h : I w) : I w' := by
  by_cases hi : o.inert = true
  · rw [eq_of_inert hi hs]
    exact h
  rcases platformSem_cases hs with ⟨a,ha,-⟩ | ⟨rfl,-⟩
  · cases o with
    | containerCreate =>
      obtain ⟨d,-,rfl⟩ := ha
      exact hdocker w d h
    | containerStart | containerStop | containerRemove =>
      obtain ⟨-,rfl⟩ := ha
      exact hdocker w _ h
    | setUpstream | removeUpstream =>
      obtain rfl := ha
      exact hroute w _ h
    | setLive | setRestarting | setStopped => exact ha ▸ hrow w _ (fun _ => rfl) h
    | _ => exact absurd rfl hi
  · exact h

theorem post_kept (h : I w) (p : RunProg α) :
    Post (platformSem f) p w fun _ w' => I w' :=
  post_of_calls (calls_true p) I
    (fun _ _ _ _ _ hv hs => kept_of_platformSem hdocker hroute hrow hs hv) h

end Kept

/-- No program of the runner writes a setting of the row. -/
theorem post_keeps (hw : w.Keeps row) (p : RunProg α) :
    Post (platformSem f) p w fun _ w' => w'.Keeps row :=
  post_kept (fun _ _ h => h) (fun _ _ h => h) (fun _ _ hg h => h.setRow hg) hw p

theorem keeps_of_deploys (h : Deploys appId w0 w) (h0 : w0.row = some row) : w.Keeps row := by
  induction h with
  | refl => exact ⟨row,h0,rfl⟩
  | next _ hrun ih => exact post_keeps ih _ _ _ _ hrun

end Settings

/-- After any deploys with any failures, a deploy in which nothing fails on its own and whose
container becomes healthy leaves the app with one container, the one that its route dials, exactly
if the app is ready for it. -/
theorem next_deploy_iff (appId : String) (row : AppRow) (w0 w : World) (h0 : w0.row = some row)
    (hdeploys : Deploys appId w0 w) (opts : RunBlueGreenOptions) (reports : List HealthStatus)
    (hhealthy : HealthyWithin reports (opts.retries row) = true) :
    (((runBlueGreen appId opts).exec serveReports (w, reports)).1.isOk = true ∧
      ((runBlueGreen appId opts).exec serveReports (w, reports)).2.1.OneContainer row.toApp) ↔
    w.Ready row.toApp := by
  obtain ⟨row',hrow',hsame⟩ := keeps_of_deploys hdeploys h0
  have happ : row'.toApp = row.toApp := by rw [hsame]
  have hretries : opts.retries row' = opts.retries row := by rw [hsame]; rfl
  have hpost := post_exec (post_runBlueGreen_clean (s := (w, reports)) appId opts hrow'
    (by rw [hretries]; exact hhealthy) rfl rfl)
  rw [happ] at hpost
  rcases hpost with ⟨hblocked,e,he⟩ | ⟨hfree,⟨res,hres⟩,hdeployed⟩
  · rw [he]
    refine ⟨fun h => absurd h.1 ?_,fun h => absurd hblocked h.1⟩
    simp [Except.isOk,Except.toBool]
  · rw [hres,hdeployed.oneContainer_iff]
    exact ⟨fun h => ⟨hfree,h.2⟩,fun h => ⟨rfl,h.2⟩⟩

def unrecorded : Handler Platform RunnerError World
  | .setLive _, w => (.error (.error "connection terminated"), w)
  | o, w => serve o w

theorem platformSem_unrecorded (o : Call) (w : World) :
    platformSem ⟨fun o => ∃ name,o = .setLive name,fun _ => False⟩ o w (unrecorded o w).1
      (unrecorded o w).2 := by
  cases o with
  | setLive name => exact .inr (.inl ⟨rfl,⟨name,rfl⟩,rfl⟩)
  | _ => exact platformSem_serve _ _ w

namespace Shop

def unrecordedWorld : World :=
  ((runBlueGreen "a1" { imageRef := "shop:3" }).exec unrecorded world).2

end Shop

open Shop

/-- After a deploy the next one succeeds, also if its container takes a while. -/
theorem next_deploy_shop : let w := ((runBlueGreen "a1" { imageRef := "shop:3" }).exec serve world).2
    w.Ready ⟨"a1","shop"⟩ ∧ ((runBlueGreen "a1" { imageRef := "shop:4" }).exec serveReports
      (w, [.starting, .healthy])).1.isOk = true := by
  intro w
  have hready : w.Ready ⟨"a1","shop"⟩ := ⟨by decide +kernel,by decide +kernel⟩
  exact ⟨hready,((next_deploy_iff "a1" _ world w rfl
    (Deploys.refl.next (runs_exec (platformSem_serve .none) _ _)) { imageRef := "shop:4" }
    [.starting, .healthy] (by decide +kernel)).mpr hready).1⟩

/-- Caddy dials green and the row still shows blue: every further deploy finds its name taken, and
fails. -/
theorem unrecorded_deploy_wedges :
    ¬ ∀ (appId : String) (row : AppRow) (w0 w : World), w0.row = some row →
      w0.OneContainer row.toApp → Deploys appId w0 w →
      ∀ (opts : RunBlueGreenOptions) (reports : List HealthStatus),
      HealthyWithin reports (opts.retries row) = true →
      ((runBlueGreen appId opts).exec serveReports (w, reports)).1.isOk = true ∧
        ((runBlueGreen appId opts).exec serveReports (w, reports)).2.1.OneContainer row.toApp := by
  intro h
  have hone : world.OneContainer ⟨"a1","shop"⟩ :=
    ⟨⟨0,blue,"shop:2",true⟩,_,by decide +kernel,rfl,rfl,rfl⟩
  have hok := (h "a1" _ world unrecordedWorld rfl hone
    (Deploys.refl.next (runs_exec platformSem_unrecorded _ _))
    { imageRef := "shop:3" } [.healthy] (by decide +kernel)).1
  exact absurd hok (by decide +kernel)

end Ploydok.Runtime
