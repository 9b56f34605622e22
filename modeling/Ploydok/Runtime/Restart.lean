import Ploydok.Runtime.Outcome

/-! Restarts that do not get to their end. A restart marks the row as `restarting`, takes the app
down and deploys a container; only the update at the end of that deploy takes the mark away. -/

namespace Ploydok.Runtime

open Effect Deploy List
open Effect.Prog hiding throw

/-! ### Calls that were carried out -/

abbrev Journaled := World × List Call

def journaledSem (f : Faults) : Sem Platform RunnerError Journaled := fun o s r s' =>
  match r with
  | .ok a => Responds o s.1 a s'.1 ∧ s'.2 = s.2 ++ [o]
  | .error e => ((Refuses o s.1 e ∨ o.fallible = true ∧ f.fails o) ∧ s' = s) ∨
      (o.fallible = true ∧ f.loses o ∧ (∃ a, Responds o s.1 a s'.1) ∧ s'.2 = s.2 ++ [o])

section Restart

variable {f : Faults} {s s' : Journaled} {α : Type}

theorem platformSem_of_journaled (o : Call) (s : Journaled) (r : Except RunnerError o.Res)
    (s' : Journaled) (h : journaledSem f o s r s') : platformSem f o s.1 r s'.1 := by
  cases r with
  | ok a => exact h.1
  | error e =>
    rcases h with ⟨hrefuses | hfails,rfl⟩ | ⟨hfallible,hloses,ha,-⟩
    · exact .inl ⟨hrefuses,rfl⟩
    · exact .inr (.inl ⟨hfails.1,hfails.2,rfl⟩)
    · exact .inr (.inr ⟨hfallible,hloses,ha⟩)

variable {o : Call} {r : Except RunnerError o.Res}

theorem journaledSem_cases (h : journaledSem f o s r s') :
    (∃ a, Responds o s.1 a s'.1 ∧ s'.2 = s.2 ++ [o]) ∨ s' = s ∧ ∃ e, r = .error e := by
  cases r with
  | ok a => exact .inl ⟨a,h⟩
  | error e =>
    rcases h with ⟨-,rfl⟩ | ⟨-,-,⟨a,ha⟩,hj⟩
    · exact .inr ⟨rfl,e,rfl⟩
    · exact .inl ⟨a,ha,hj⟩

variable {p : RunProg α} {w w' : World}

/-- Every run has its journal. -/
theorem exists_journal (h : p.Runs (platformSem f) w tr out w') :
    ∃ journal, p.Runs (journaledSem f) (w, []) tr out (w', journal) := by
  have hstep : ∀ (o : Call) (s : Journaled) (r : Except RunnerError o.Res) (w' : World),
      platformSem f o s.1 r w' → ∃ s' : Journaled, s'.1 = w' ∧ journaledSem f o s r s' := by
    intro o s r w' hs
    cases r with
    | ok a => exact ⟨(w', s.2 ++ [o]),rfl,hs,rfl⟩
    | error e =>
      rcases hs with ⟨hrefuses,rfl⟩ | ⟨hfallible,hfails,rfl⟩ | ⟨hfallible,hloses,ha⟩
      · exact ⟨s,rfl,.inl ⟨.inl hrefuses,rfl⟩⟩
      · exact ⟨s,rfl,.inl ⟨.inr ⟨hfallible,hfails⟩,rfl⟩⟩
      · exact ⟨(w', s.2 ++ [o]),rfl,.inr ⟨hfallible,hloses,ha,rfl⟩⟩
  obtain ⟨⟨_,journal⟩,rfl,hrun⟩ := runs_lift Prod.fst hstep (v := (w, [])) h
  exact ⟨journal,hrun⟩

theorem post_journaled (h : Post (platformSem f) p s.1 Q) :
    Post (journaledSem f) p s fun r s' => Q r s'.1 :=
  fun tr out s' hrun => h tr out s'.1 (runs_project Prod.fst platformSem_of_journaled hrun)

/-- From `s` to `s'` neither the row nor the route was written. -/
structure Idled (s s' : Journaled) : Prop where
  row : s'.1.row = s.1.row
  route : s'.1.route = s.1.route
  journal : ∃ calls, s'.2 = s.2 ++ calls ∧ ∀ o ∈ calls, Call.idle o = true

theorem Idled.refl (s : Journaled) : Idled s s := ⟨rfl,rfl,[],by simp,by simp⟩

theorem Idled.trans (h : Idled s1 s2) (h' : Idled s2 s3) : Idled s1 s3 := by
  obtain ⟨calls,hcalls,hidle⟩ := h.journal
  obtain ⟨calls',hcalls',hidle'⟩ := h'.journal
  refine ⟨h'.row.trans h.row,h'.route.trans h.route,calls ++ calls',?_,?_⟩
  · rw [hcalls',hcalls,append_assoc]
  · intro o ho
    exact (mem_append.mp ho).elim (hidle o) (hidle' o)

theorem Idled.mem (h : Idled s s') (ho : o ∈ s.2) : o ∈ s'.2 := by
  obtain ⟨calls,hcalls,-⟩ := h.journal
  rw [hcalls]
  exact mem_append_left _ ho

theorem Idled.mem_iff (h : Idled s s') (ho : o.idle = false) : o ∈ s'.2 ↔ o ∈ s.2 := by
  obtain ⟨calls,hcalls,hidle⟩ := h.journal
  rw [hcalls,mem_append]
  refine ⟨fun hmem => hmem.resolve_right fun hnew => ?_,.inl⟩
  rw [hidle o hnew] at ho
  cases ho

theorem row_of_idle (ho : o.idle = true) (h : platformSem f o w r w') : w'.row = w.row := by
  by_cases hi : o.inert = true
  · rw [eq_of_inert hi h]
  rcases platformSem_cases h with ⟨a,ha,-⟩ | ⟨rfl,-⟩
  · cases o with
    | containerCreate =>
      obtain ⟨d,-,rfl⟩ := ha
      rfl
    | containerStart | containerStop | containerRemove => exact ha.2 ▸ rfl
    | setUpstream | removeUpstream | setLive | setRestarting | setStopped => cases ho
    | _ => exact absurd rfl hi
  · rfl

theorem idled_of_idle (ho : o.idle = true) (h : journaledSem f o s r s') : Idled s s' := by
  have hs := platformSem_of_journaled o s r s' h
  refine ⟨row_of_idle ho hs,route_of_avoidsRoute (Call.avoidsRoute_of_idle ho) hs,?_⟩
  rcases journaledSem_cases h with ⟨-,-,hj⟩ | ⟨rfl,-⟩
  · exact ⟨[o],hj,by simpa using ho⟩
  · exact ⟨[],by simp,by simp⟩

theorem post_idle (hp : p.Calls (Call.idle · = true)) :
    Post (journaledSem f) p s fun _ s' => Idled s s' :=
  post_of_calls hp (Idled s) (fun _ _ _ _ ho hv hs => hv.trans (idled_of_idle ho hs)) (.refl s)

theorem post_bind_idle {β : Type} {g : α → RunProg β} {Q : Except RunnerError β → Journaled → Prop}
    (hp : p.Calls (Call.idle · = true)) (hs : Idled s0 s)
    (hok : ∀ a s', Idled s0 s' → Post (journaledSem f) (g a) s' Q)
    (herr : ∀ e s', Idled s0 s' → Q (.error e) s') : Post (journaledSem f) (p.bind g) s Q :=
  post_bind _ (post_idle hp) (fun a s' h => hok a s' (hs.trans h))
    fun e s' h => herr e s' (hs.trans h)

structure Dialled (s : Journaled) (u : Upstream) (image : String) (s' : Journaled) : Prop where
  row : s'.1.row = s.1.row
  route : ∃ domain, s'.1.route = some ⟨domain,u⟩
  container : s'.1.RunsImage u.host image
  journal : s.2 ⊆ s'.2
  unrecorded : ∀ name, .setLive name ∈ s'.2 → .setLive name ∈ s.2

structure Recorded (s : Journaled) (row : AppRow) (u : Upstream) (image : String)
    (s' : Journaled) : Prop where
  live : LiveOn row u image s'.1
  journal : s.2 ⊆ s'.2
  recorded : .setLive u.host ∈ s'.2

/-- A deploy is before the switch, between the switch and the update of the row, or past it. -/
def Reached (s s' : Journaled) : Prop :=
  Idled s s' ∨ ∃ row color port image, s.1.row = some row ∧
    (Dialled s ⟨runtimeContainerName row.toApp color,port⟩ image s' ∨
      Recorded s row ⟨runtimeContainerName row.toApp color,port⟩ image s')

variable {s1 s2 : Journaled} {row : AppRow} {u : Upstream} {image : String}

theorem post_journal (hp : p.Calls P) (hP : ∀ name, ¬ P (.setLive name)) :
    Post (journaledSem f) p s fun _ s' => s.2 ⊆ s'.2 ∧
      ∀ name, .setLive name ∈ s'.2 → .setLive name ∈ s.2 := by
  refine post_of_calls hp (fun s' : Journaled => s.2 ⊆ s'.2 ∧
    ∀ name, .setLive name ∈ s'.2 → .setLive name ∈ s.2) ?_ ⟨List.Subset.refl _,fun _ h => h⟩
  rintro o v r v' ho ⟨hsub,hlive⟩ hs
  rcases journaledSem_cases hs with ⟨-,-,hj⟩ | ⟨rfl,-⟩
  · rw [hj]
    refine ⟨List.Subset.trans hsub (subset_append_left _ _),fun name hname => ?_⟩
    refine hlive name ((mem_append.mp hname).resolve_right fun hnew => ?_)
    rw [mem_singleton] at hnew
    exact hP name (hnew ▸ ho)
  · exact ⟨hsub,hlive⟩

theorem Dialled.inert (h : Dialled s u image s1) (hp : p.Calls (Call.inert · = true)) :
    Post (journaledSem f) p s1 fun _ s' => Dialled s u image s' := by
  intro tr out s' hrun
  have hsame : s'.1 = s1.1 := post_journaled (post_inert hp) tr out s' hrun
  obtain ⟨hsub,hlive⟩ := post_journal hp (fun _ h => by cases h) tr out s' hrun
  refine ⟨?_,?_,?_,List.Subset.trans h.journal hsub,
    fun name hname => h.unrecorded name (hlive name hname)⟩
  · rw [hsame,h.row]
  · rw [hsame]
    exact h.route
  · rw [hsame]
    exact h.container

theorem Recorded.inert (h : Recorded s row u image s1) (hp : p.Calls (Call.inert · = true)) :
    Post (journaledSem f) p s1 fun _ s' => Recorded s row u image s' := by
  intro tr out s' hrun
  have hsame : s'.1 = s1.1 := post_journaled (post_inert hp) tr out s' hrun
  obtain ⟨hsub,-⟩ := post_journal hp (fun _ h => by cases h) tr out s' hrun
  refine ⟨?_,List.Subset.trans h.journal hsub,hsub h.recorded⟩
  rw [hsame]
  exact h.live

theorem Recorded.stop (h : Recorded s row u image s1) (hn : u.host ∉ names) :
    Post (journaledSem f) (stopContainerCandidates names) s1 fun _ s' =>
      Recorded s row u image s' := by
  intro tr out s' hrun
  have htidied := post_journaled (post_stopContainerCandidates hn image) tr out s' hrun
  obtain ⟨hsub,-⟩ := post_journal (calls_stops names) (fun _ ⟨_,_,h⟩ => by simp at h) tr out s' hrun
  exact ⟨h.live.tidied htidied,List.Subset.trans h.journal hsub,hsub h.recorded⟩

theorem post_switchTo_journaled (appId : String) (row : AppRow) (name : String) (port : Nat)
    (hi : Idled s s1) (hk : s1.1.RunsImage name image) :
    Post (journaledSem f) (switchTo appId row name port) s1 fun r s' =>
      (Idled s s' ∧ ∃ e, r = .error e) ∨ Dialled s ⟨name,port⟩ image s' := by
  refine post_bind (fun r s' => (Idled s s' ∧ ∃ e, r = .error e) ∨
    Dialled s ⟨name,port⟩ image s') (post_perform fun r s' hs => ?_) ?_ ?_
  · rcases journaledSem_cases hs with ⟨_,hw,hj⟩ | ⟨rfl,he⟩
    · have hw : s'.1 = _ := hw
      refine .inr ⟨?_,⟨row.domainOrDefault appId,?_⟩,?_,?_,fun name' hname' => ?_⟩
      · rw [hw]
        exact hi.row
      · rw [hw]
      · rw [hw]
        exact hk
      · rw [hj]
        exact List.Subset.trans (fun o ho => hi.mem ho) (subset_append_left _ _)
      · rw [hj] at hname'
        exact (hi.mem_iff rfl).mp (by simpa using hname')
    · exact .inl ⟨hi,he⟩
  · rintro _ s' (⟨-,e,he⟩ | h)
    · cases he
    · exact post_mono (h.inert (calls_quietly (calls_call rfl))) fun _ _ h => .inr h
  · rintro e s' (⟨hidle,-⟩ | h)
    · exact .inl ⟨hidle,e,rfl⟩
    · exact .inr h

theorem post_setLive_journaled (hw : s.1.Keeps row) (h : Dialled s u image s1) :
    Post (journaledSem f) (call (.setLive u.host)) s1 fun r s' =>
      (Dialled s u image s' ∧ ∃ e, r = .error e) ∨ Recorded s row u image s' := by
  refine post_perform fun r s' hs => ?_
  rcases journaledSem_cases hs with ⟨_,hs',hj⟩ | ⟨rfl,he⟩
  · have hs' : s'.1 = _ := hs'
    refine .inr ⟨liveOn_setLive ?_ h.route h.container hs',?_,?_⟩
    · obtain ⟨row',hrow',hsame⟩ := hw
      exact ⟨row',h.row.trans hrow',hsame⟩
    · rw [hj]
      exact List.Subset.trans h.journal (subset_append_left _ _)
    · rw [hj]
      simp
  · exact .inl ⟨h,he⟩

theorem post_runBlueGreen_reached (appId : String) (opts : RunBlueGreenOptions) :
    Post (journaledSem f) (runBlueGreen appId opts) s fun _ s' => Reached s s' := by
  refine post_bind (fun r s1 => Idled s s1 ∧ ∀ found, r = .ok found → found = s.1.row)
    (fun tr r s1 hrun => ⟨post_idle (calls_call rfl) tr r s1 hrun,?_⟩) ?_
    fun _ _ h => .inl h.1
  · rintro found rfl
    obtain ⟨hs,-⟩ := runs_perform.mp hrun
    exact hs.1.1
  rintro found s1 ⟨hs1,hfound⟩
  split
  · exact post_throw (.inl hs1)
  next row =>
  have hrow : s.1.row = some row := (hfound _ rfl).symm
  refine post_bind_idle (calls_idle calls_readCurrentColor) hs1 (fun color s2 hs2 => ?_)
    fun _ _ h => .inl h
  have hold := runtimeContainerName_not_mem_candidates row.toApp color
  generalize runtimeContainerNameCandidates row.toApp color = oldNames at hold ⊢
  dsimp only
  refine post_bind (fun r s3 => Idled s s3 ∧ ∀ id, r = .ok id →
    s3.1.RunsImage (runtimeContainerName row.toApp color.oppositeColor) opts.imageRef)
    (fun tr r s3 hrun => ⟨hs2.trans (post_idle (calls_launch _ _) tr r s3 hrun),
      post_journaled (post_launch _ _) tr r s3 hrun⟩) ?_ fun _ _ h => .inl h.1
  rintro id s3 ⟨hs3,hk⟩
  have hk := hk id rfl
  refine post_bind (fun _ s4 => Idled s s4 ∧ s4.1 = s3.1) (fun tr r s4 hrun =>
      ⟨hs3.trans (post_idle (calls_idle (calls_pollHealthcheck ..)) tr r s4 hrun),
      post_journaled (post_inert (calls_pollHealthcheck ..)) tr r s4 hrun⟩) ?_ fun _ _ h => .inl h.1
  rintro healthy s4 ⟨hs4,hsame⟩
  split
  · exact post_mono (post_idle (calls_abandon ..)) fun _ _ h => .inl (hs4.trans h)
  rw [← hsame] at hk
  have hdialled : ∀ {u' : Upstream} {s' : Journaled},
      u'.host = runtimeContainerName row.toApp color.oppositeColor →
      Dialled s u' opts.imageRef s' → Reached s s' := by
    intro u' s' hhost h
    refine .inr ⟨row,color.oppositeColor,u'.port,opts.imageRef,hrow,.inl ?_⟩
    rw [← hhost]
    exact h
  have hrecorded : ∀ {u' : Upstream} {s' : Journaled},
      u'.host = runtimeContainerName row.toApp color.oppositeColor →
      Recorded s row u' opts.imageRef s' → Reached s s' := by
    intro u' s' hhost h
    refine .inr ⟨row,color.oppositeColor,u'.port,opts.imageRef,hrow,.inr ?_⟩
    rw [← hhost]
    exact h
  generalize runtimeContainerName row.toApp color.oppositeColor = name at *
  refine post_bind _ (post_switchTo_journaled appId row name _ hs4 hk) ?_ ?_
  · rintro _ s5 (⟨-,e,he⟩ | hs5)
    · cases he
    refine post_bind _ (post_setLive_journaled ⟨row,hrow,rfl⟩ hs5) ?_ ?_
    · rintro _ s6 (⟨-,e,he⟩ | hs6)
      · cases he
      refine post_bind _ (hs6.inert (calls_quietly (calls_call rfl))) (fun _ s7 hs7 => ?_)
        fun _ _ h => hrecorded rfl h
      refine post_bind _ (hs7.inert (calls_call rfl)) (fun _ s8 hs8 => ?_)
        fun _ _ h => hrecorded rfl h
      refine post_bind _ (hs8.stop hold) (fun _ s9 hs9 => ?_) fun _ _ h => hrecorded rfl h
      exact post_ret (hrecorded rfl hs9)
    · rintro e s6 (⟨h,-⟩ | h)
      · exact hdialled rfl h
      · exact hrecorded rfl h
  · rintro e s5 (⟨h,-⟩ | h)
    · exact .inl h
    · exact hdialled rfl h

/-! ### The stages of a restart -/

def Call.clears : Call → Bool
  | .containerStop _ | .containerRemove _ => true
  | o => o.inert

theorem names_of_clears (ho : o.clears = true) (h : platformSem f o w r w') :
    w'.docker.containers.map Container.name ⊆ w.docker.containers.map Container.name := by
  by_cases hi : o.inert = true
  · rw [eq_of_inert hi h]
    exact List.Subset.refl _
  rcases platformSem_cases h with ⟨a,ha,-⟩ | ⟨rfl,-⟩
  · cases o with
    | containerStop =>
      obtain ⟨-,rfl⟩ := ha
      simp [Docker.setRunning,Function.comp_def]
    | containerRemove =>
      obtain ⟨-,rfl⟩ := ha
      exact (filter_sublist.map _).subset
    | _ => exact absurd ho hi
  · exact List.Subset.refl _

structure Emptied (s s' : Journaled) : Prop extends Idled s s' where
  names : s'.1.docker.containers.map Container.name ⊆ s.1.docker.containers.map Container.name

structure TakenDown (s s' : Journaled) : Prop where
  row : s'.1.row = s.1.row
  route : s'.1.route = none
  journal : s.2 ⊆ s'.2
  removed : .removeUpstream ∈ s'.2
  unrecorded : ∀ name, .setLive name ∈ s'.2 → .setLive name ∈ s.2

inductive Worked (s s' : Journaled) : Except RunnerError Unit → Prop
  | emptied {e : RunnerError} (h : Emptied s s') : Worked s s' (.error e)
  | takenDown {out : Except RunnerError Unit} (h : TakenDown s s') : Worked s s' out
  | dialled {out : Except RunnerError Unit} {row : AppRow} {color : Color} {port : Nat}
      {image : String} (hrow : s.1.row = some row)
      (h : Dialled s ⟨runtimeContainerName row.toApp color,port⟩ image s')
      (hremoved : .removeUpstream ∈ s'.2) : Worked s s' out
  | recorded {out : Except RunnerError Unit} {row : AppRow} {color : Color} {port : Nat}
      {image : String} (hrow : s.1.row = some row)
      (h : Recorded s row ⟨runtimeContainerName row.toApp color,port⟩ image s')
      (hremoved : .removeUpstream ∈ s'.2) : Worked s s' out

theorem Emptied.trans (h : Emptied s1 s2) (h' : Emptied s2 s3) : Emptied s1 s3 :=
  ⟨h.toIdled.trans h'.toIdled,List.Subset.trans h'.names h.names⟩

theorem post_clears (hp : p.Calls (Call.clears · = true)) :
    Post (journaledSem f) p s fun _ s' => Emptied s s' :=
  post_of_calls hp (Emptied s)
    (fun o v r v' ho hv hs => hv.trans ⟨idled_of_idle (by cases o <;> first | rfl | cases ho) hs,
      names_of_clears ho (platformSem_of_journaled o v r v' hs)⟩)
    ⟨.refl s,List.Subset.refl _⟩

theorem post_stopBoth (blue green : List String) :
    Post (journaledSem f) (stopBoth blue green) s fun _ s' => Emptied s s' :=
  post_clears (calls_mono (calls_stopBoth blue green) fun _ h => by cases h <;> rfl)

theorem TakenDown.idled (h : TakenDown s s1) (hi : Idled s1 s2) : TakenDown s s2 := by
  refine ⟨hi.row.trans h.row,hi.route.trans h.route,fun o ho => hi.mem (h.journal ho),
    hi.mem h.removed,fun name hname => ?_⟩
  exact h.unrecorded name ((hi.mem_iff rfl).mp hname)

theorem TakenDown.dialled (h : TakenDown s s1) (hd : Dialled s1 u image s2) :
    Dialled s u image s2 :=
  ⟨hd.row.trans h.row,hd.route,hd.container,List.Subset.trans h.journal hd.journal,
    fun name hname => h.unrecorded name (hd.unrecorded name hname)⟩

theorem TakenDown.recorded (h : TakenDown s s1) (hr : Recorded s1 row u image s2) :
    Recorded s row u image s2 :=
  ⟨hr.live,List.Subset.trans h.journal hr.journal,hr.recorded⟩

theorem post_removeUpstream_journaled (h : Emptied s s1) :
    Post (journaledSem f) (call .removeUpstream) s1 fun r s' =>
      (Emptied s s' ∧ ∃ e, r = .error e) ∨ TakenDown s s' := by
  refine post_perform fun r s' hs => ?_
  rcases journaledSem_cases hs with ⟨_,hs',hj⟩ | ⟨rfl,he⟩
  · have hs' : s'.1 = _ := hs'
    refine .inr ⟨?_,?_,?_,?_,fun name hname => ?_⟩
    · rw [hs']
      exact h.row
    · rw [hs']
    · rw [hj]
      exact List.Subset.trans (fun o ho => h.mem ho) (subset_append_left _ _)
    · rw [hj]
      simp
    · rw [hj] at hname
      exact (h.mem_iff rfl).mp (by simpa using hname)
  · exact .inl ⟨h,he⟩

theorem post_runBlueGreen_worked (h : TakenDown s s1) (appId : String)
    (opts : RunBlueGreenOptions) :
    Post (journaledSem f) (do let _ ← runBlueGreen appId opts) s1 fun out s' =>
      Worked s s' out := by
  have hworked : ∀ {s' : Journaled} (out : Except RunnerError Unit), Reached s1 s' →
      Worked s s' out := by
    rintro s' out (hi | ⟨row,color,port,image,hrow,hd | hr⟩)
    · exact .takenDown (h.idled hi)
    · exact .dialled (h.row ▸ hrow) (h.dialled hd) (hd.journal h.removed)
    · exact .recorded (h.row ▸ hrow) (h.recorded hr) (hr.journal h.removed)
  refine post_bind _ (post_runBlueGreen_reached appId opts) ?_ fun e _ hr => hworked _ hr
  intro res s' hr
  exact post_ret (hworked _ hr)

theorem post_runRestartHeavyWork_worked (appId imageRef : String) :
    Post (journaledSem f) (runRestartHeavyWork appId imageRef) s fun out s' => Worked s s' out := by
  refine post_bind _ (post_clears (calls_call rfl)) (fun found s1 hs1 => ?_) fun _ _ h => .emptied h
  split
  · exact post_throw (.emptied hs1)
  next app =>
  unfold stopBothColors
  generalize runtimeContainerNameCandidates app.toApp .blue = blue
  generalize runtimeContainerNameCandidates app.toApp .green = green
  refine post_bind _ (post_stopBoth blue green) (fun _ s2 hs2 => ?_)
    fun _ _ h => .emptied (hs1.trans h)
  refine post_bind _ (post_removeUpstream_journaled (hs1.trans hs2)) ?_ ?_
  · rintro _ s3 (⟨-,e,he⟩ | hs3)
    · cases he
    refine post_bind _ (post_idle (calls_call rfl)) (fun row s4 hs4 => ?_)
      fun _ _ h => .takenDown (hs3.idled h)
    refine post_bind _ (post_idle (calls_call rfl)) (fun _ s5 hs5 => ?_)
      fun _ _ h => .takenDown ((hs3.idled hs4).idled h)
    exact post_runBlueGreen_worked ((hs3.idled hs4).idled hs5) appId _
  · rintro e s3 (⟨h,-⟩ | h)
    · exact .emptied h
    · exact .takenDown h

def World.marked (w : World) : World := w.setRow fun row => { row with status := .restarting }

def marking : List Call := [.readSucceededBuilds 1, .setRestarting]

/-- A restart ends before it has marked the row, with the update that marks it, or with its work. -/
inductive Restarted (w : World) (background : Bool) (s' : Journaled) :
    Except RunnerError Unit → Prop
  | unmarked {e : RunnerError} (hw : s'.1 = w) (hjournal : ∀ o ∈ s'.2, o.inert = true) :
      Restarted w background s' (.error e)
  | unanswered {e : RunnerError} (hw : s' = (w.marked, marking)) :
      Restarted w background s' (.error e)
  | worked {out out' : Except RunnerError Unit}
      (h : Worked (w.marked, marking) s' out)
      (hout : out' = if background then .ok () else out) : Restarted w background s' out'

theorem post_restartAppIn (background : Bool) (appId : String) (w : World) :
    Post (journaledSem f) (restartAppIn background appId) (w, []) fun out s' =>
      Restarted w background s' out := by
  refine post_bind (fun r s1 => s1.1 = w ∧ (∀ o ∈ s1.2, o.inert = true) ∧
    ∀ rows, r = .ok rows → s1 = (w, [.readSucceededBuilds 1])) (post_perform fun r s1 hs => ?_)
    ?_ fun _ _ h => .unmarked h.1 h.2.1
  · have hsame : s1.1 = w := eq_of_inert rfl (platformSem_of_journaled _ _ _ _ hs)
    rcases journaledSem_cases hs with ⟨_,-,hj⟩ | ⟨rfl,e,rfl⟩
    · have hj : s1.2 = [.readSucceededBuilds 1] := hj
      refine ⟨hsame,?_,fun rows _ => Prod.ext hsame hj⟩
      rw [hj]
      simp [Call.inert,Call.passive]
    · exact ⟨rfl,by simp,by simp⟩
  rintro rows s1 ⟨-,-,hs1⟩
  obtain rfl := hs1 rows rfl
  split
  · exact post_throw (.unmarked rfl (by simp [Call.inert,Call.passive]))
  next imageTag _ =>
  refine post_bind (fun r s2 => s2 = (w.marked, marking) ∨
    (s2 = (w, [.readSucceededBuilds 1]) ∧ ∃ e, r = .error e)) (post_perform fun r s2 hs => ?_)
    ?_ ?_
  · rcases journaledSem_cases hs with ⟨_,hw,hj⟩ | ⟨rfl,he⟩
    · exact .inl (Prod.ext hw hj)
    · exact .inr ⟨rfl,he⟩
  · rintro _ s2 (rfl | ⟨-,e,he⟩)
    · cases background with
      | false =>
        refine post_mono (post_runRestartHeavyWork_worked appId imageTag) fun out s' h => ?_
        exact .worked h rfl
      | true =>
        refine post_tryCatch _ (post_runRestartHeavyWork_worked appId imageTag)
          (fun _ s' h => .worked h rfl) fun e s' h => ?_
        exact post_ret (.worked h rfl)
    · cases he
  · rintro e s2 (rfl | ⟨rfl,-⟩)
    · exact .unanswered rfl
    · exact .unmarked rfl (by simp [Call.inert,Call.passive])

end Restart

def World.Settled (w : World) : Prop :=
  ∃ row, w.row = some row ∧ (w.Serving → row.status = .running) ∧
    (¬ w.Serving → row.status = .failed)

section Settled

variable {w w' : World} {row : AppRow} {u : Upstream} {image : String}

theorem LiveOn.serving (h : LiveOn row u image w) : w.Serving := by
  obtain ⟨domain,hroute⟩ := h.route
  obtain ⟨id,hk⟩ := h.container
  exact ⟨_,hroute,_,hk,rfl,rfl⟩

theorem LiveOn.settled (h : LiveOn row u image w) : w.Settled := by
  obtain ⟨row',hrow',-,hstatus,-⟩ := h.row
  exact ⟨row',hrow',fun _ => hstatus,fun hnot => absurd h.serving hnot⟩

theorem not_settled_of_restarting (h : w.row.map (·.status) = some .restarting) : ¬ w.Settled := by
  rintro ⟨row,hrow,hserving,hnot⟩
  have hstatus : row.status = .restarting := by simpa [hrow] using h
  by_cases hs : w.Serving
  · rw [hserving hs] at hstatus
    cases hstatus
  · rw [hnot hs] at hstatus
    cases hstatus

end Settled

/-- Whichever calls fail, the status is right at the end exactly if the database has carried out the
update to `running`, or has not carried out the one to `restarting` and the status was right before.
-/
theorem restart_settles_iff (background : Bool) (appId : String) (f : Faults) (w w' : World)
    (row : AppRow) (hrow : w.row = some row) (tr : List (Event Platform RunnerError))
    (out : Except RunnerError Unit) (journal : List Call)
    (hrun : (restartAppIn background appId).Runs (journaledSem f) (w, []) tr out (w', journal)) :
    w'.Settled ↔ (∃ name, .setLive name ∈ journal) ∨ (.setRestarting ∉ journal ∧ w.Settled) := by
  -- an end at which the row is still marked
  have hmarked : w'.row = w.marked.row →
      (∀ name, .setLive name ∈ journal → .setLive name ∈ marking) → marking ⊆ journal →
      (w'.Settled ↔ (∃ name, .setLive name ∈ journal) ∨
        (.setRestarting ∉ journal ∧ w.Settled)) := by
    intro hrow' hlive hsub
    refine iff_of_false (not_settled_of_restarting (by
      simp [hrow',World.marked,World.setRow,hrow])) ?_
    rintro (⟨name,hname⟩ | ⟨hnot,-⟩)
    · simpa [marking] using hlive name hname
    · exact hnot (hsub (by simp [marking]))
  cases post_restartAppIn background appId w tr out (w', journal) hrun with
  | unmarked hw hjournal =>
    obtain rfl : w' = w := hw
    have hnone : ∀ o ∈ journal, o.inert = true := hjournal
    refine ⟨fun h => .inr ⟨fun hmem => ?_,h⟩,?_⟩
    · cases hnone _ hmem
    · rintro (⟨name,hname⟩ | ⟨-,h⟩)
      · cases hnone _ hname
      · exact h
  | unanswered hw =>
    obtain ⟨rfl,rfl⟩ := Prod.mk.inj hw
    exact hmarked rfl (fun _ h => h) (List.Subset.refl _)
  | worked h _ =>
    cases h with
    | emptied h => exact hmarked h.row (fun _ => (h.mem_iff rfl).mp) fun _ => h.mem
    | takenDown h | dialled _ h _ => exact hmarked h.row h.unrecorded h.journal
    | recorded _ h _ => exact iff_of_true h.live.settled (.inl ⟨_,h.recorded⟩)

def serveJournaled (o : Call) (s : Journaled) : Except RunnerError o.Res × Journaled :=
  match serve o s.1 with
  | (.ok a, w') => (.ok a, w', s.2 ++ [o])
  | (.error e, _) => (.error e, s)

theorem journaledSem_serve (o : Call) (s : Journaled) :
    journaledSem .none o s (serveJournaled o s).1 (serveJournaled o s).2 := by
  have hs := platformSem_serve .none o s.1
  unfold serveJournaled
  generalize serve o s.1 = r at hs
  obtain ⟨r,w'⟩ := r
  cases r with
  | ok a => exact ⟨hs,rfl⟩
  | error e =>
    rcases hs with ⟨hrefuses,-⟩ | ⟨-,hfails,-⟩ | ⟨-,hloses,-⟩
    · exact .inl ⟨.inl hrefuses,rfl⟩
    · exact hfails.elim
    · exact hloses.elim

namespace Shop

def restarted : Journaled := ((restartAppIn true "a1").exec serveJournaled (world, [])).2

def unpulled : Handler Platform RunnerError World
  | .pullImage _, w => (.error (.agent .unavailable "registry"), w)
  | o, w => serve o w

theorem platformSem_unpulled (o : Call) (w : World) :
    platformSem ⟨fun o => ∃ image,o = .pullImage image,fun _ => False⟩ o w (unpulled o w).1
      (unpulled o w).2 := by
  cases o with
  | pullImage image => exact .inr (.inl ⟨rfl,⟨image,rfl⟩,rfl⟩)
  | _ => exact platformSem_serve _ _ w

theorem settled_world : world.Settled :=
  ⟨_,rfl,fun _ => rfl,fun h => absurd (serving_of_safe safe_world rfl) h⟩

end Shop

open Shop

theorem restart_settles_shop : .setLive (runtimeContainerName app .green) ∈ restarted.2 ∧
      restarted.1.Settled := by
  have hlive : .setLive (runtimeContainerName app .green) ∈ restarted.2 := by
    decide +kernel
  exact ⟨hlive,(restart_settles_iff true "a1" .none world _ _ rfl _ _ restarted.2
    (runs_exec journaledSem_serve (restartAppIn true "a1") (world, []))).mpr (.inl ⟨_,hlive⟩)⟩

/-- The image cannot be pulled: the old container is gone, the route as well, and the app is
`restarting` for good. -/
theorem failed_restart_stays_restarting :
    ¬ ∀ (background : Bool) (appId : String) (f : Faults) (w w' : World)
      (tr : List (Event Platform RunnerError)) (out : Except RunnerError Unit), w.Settled →
      (restartAppIn background appId).Runs (platformSem f) w tr out w' → w'.Settled := by
  intro hall
  have hsettled := hall true "a1" _ world _ _ _ settled_world
    (runs_exec platformSem_unpulled (restartAppIn true "a1") world)
  exact not_settled_of_restarting (by decide +kernel) hsettled

end Ploydok.Runtime
