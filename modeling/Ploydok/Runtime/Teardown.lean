import Ploydok.Runtime.Safety

/-! What a stop of an app leaves of its containers, `stopApp` of `worker/runner.ts`, on a host
where any call may fail. The stop goes through the names that the containers of both colours
can have. Failures of a stop or a removal are only logged. -/

namespace Ploydok.Runtime

open Effect Effect.Prog List

/-- The calls that fail, without effect or after it, and who goes first of two programs side by
side. -/
structure HostFaults where
  fails : Call → Option RunnerError := fun _ => none
  loses : Call → Option RunnerError := fun _ => none
  turns : List Bool := []

abbrev Scheduled := World × List Bool

/-- A call with its failures; the schedule is not used up by it. -/
def HostFaults.attempt (hf : HostFaults) (o : Call) (w : World) :
    Except RunnerError o.Res × World :=
  match hf.fails o, hf.loses o, serve o w with
  | some e, _, _ => (.error e, w)
  | none, some e, (.ok _, w') => (.error e, w')
  | none, _, served => served

def HostFaults.serve (hf : HostFaults) : (o : Call) → Scheduled →
    Except RunnerError o.Res × Scheduled
  | .turn, s => (.ok (s.2.headD true), s.1, s.2.tail)
  | o, s => ((hf.attempt o s.1).1, (hf.attempt o s.1).2, s.2)

def slotNames (app : App) : List String :=
  runtimeContainerNameCandidates app .blue ++ runtimeContainerNameCandidates app .green

def Docker.idNames (d : Docker) : List (Nat × String) := d.containers.map fun k => (k.id, k.name)

variable {name : String} {p : Nat × String}

theorem Docker.mem_idNames_remove {d : Docker} :
    p ∈ (d.remove (.name name)).idNames ↔ p ∈ d.idNames ∧ p.2 ≠ name := by
  simp only [Docker.idNames,Docker.remove,mem_map,mem_filter]
  constructor
  · rintro ⟨k,⟨hk,hname⟩,rfl⟩
    exact ⟨⟨k,hk,rfl⟩,by simpa [Ref.refersTo] using hname⟩
  · rintro ⟨⟨k,hk,rfl⟩,hname⟩
    exact ⟨k,⟨hk,by simpa [Ref.refersTo] using hname⟩,rfl⟩

inductive Clears (names : List String) : Call → Prop where
  | turn : Clears names .turn
  | stop {name : String} : name ∈ names → Clears names (.containerStop (.name name))
  | remove {name : String} : name ∈ names → Clears names (.containerRemove (.name name))

section Calls

variable {hf : HostFaults} {names : List String}

theorem snd_attempt (hf : HostFaults) (o : Call) (w : World) :
    (hf.attempt o w).2 = if (hf.fails o).isSome then w else (serve o w).2 := by
  unfold HostFaults.attempt
  cases hf.fails o with
  | some e => rfl
  | none =>
    cases hf.loses o with
    | none => rfl
    | some e => cases serve o w with
      | mk r w' => cases r <;> rfl

variable {o : Call}

theorem attempt_of_ok (h : (hf.attempt o w).1 = .ok a) : hf.attempt o w = serve o w := by
  unfold HostFaults.attempt at *
  cases hfails : hf.fails o with
  | some e =>
    rw [hfails] at h
    cases h
  | none =>
    rw [hfails] at h
    cases hloses : hf.loses o with
    | none => rfl
    | some e =>
      rw [hloses] at h
      rcases hserve : serve o w with ⟨r,w'⟩
      rw [hserve] at h
      cases r with
      | ok a => cases h
      | error e => rfl

theorem exec_call_ok (hturn : o ≠ .turn) (h : ((call o).exec hf.serve s).1 = .ok a) :
    (serve o s.1).1 = .ok a ∧ ((call o).exec hf.serve s).2 = ((serve o s.1).2, s.2) := by
  have hserve : hf.serve o s = ((hf.attempt o s.1).1, (hf.attempt o s.1).2, s.2) := by
    cases o <;> first | rfl | exact absurd rfl hturn
  have hexec : (call o).exec hf.serve s = hf.serve o s := exec_perform (S := Platform) hf.serve o s
  rw [hexec,hserve] at h ⊢
  have hserved : hf.attempt o s.1 = serve o s.1 := attempt_of_ok h
  rw [hserved] at h ⊢
  exact ⟨h,rfl⟩

theorem snd_serve_stop (w : World) (ref : Ref) : (serve (.containerStop ref) w).2 =
    { w with docker := if w.docker.has ref then w.docker.setRunning ref false else w.docker } := by
  simp only [serve]
  split <;> rfl

theorem snd_serve_remove (w : World) (ref : Ref) : (serve (.containerRemove ref) w).2 =
    { w with docker := if w.docker.has ref then w.docker.remove ref else w.docker } := by
  simp only [serve]
  split <;> rfl

theorem idNames_stop (d : Docker) (ref : Ref) :
    (if d.has ref then d.setRunning ref false else d).idNames = d.idNames := by
  split
  · simp [Docker.idNames,Docker.setRunning,Function.comp_def]
  · rfl

theorem mem_idNames_remove {d : Docker} :
    p ∈ (if d.has (.name name) then d.remove (.name name) else d).idNames ↔
      p ∈ d.idNames ∧ p.2 ≠ name := by
  split
  · exact Docker.mem_idNames_remove
  · next habsent =>
    refine ⟨fun hp => ⟨hp,fun hname => habsent ?_⟩,And.left⟩
    obtain ⟨k,hk,rfl⟩ := mem_map.mp hp
    exact Docker.has_name_iff.mpr (mem_map.mpr ⟨k,hk,hname⟩)

theorem clears_step (ho : Clears names o) (s : Scheduled) :
    (hf.serve o s).2.1.row = s.1.row ∧ (hf.serve o s).2.1.route = s.1.route ∧
      ∀ p, p ∈ (hf.serve o s).2.1.docker.idNames ↔ p ∈ s.1.docker.idNames ∧
        ¬ (o = .containerRemove (.name p.2) ∧ hf.fails o = none) := by
  cases ho with
  | turn => simp [HostFaults.serve]
  | @stop name hname =>
    simp only [HostFaults.serve,snd_attempt]
    split
    · simp
    · rw [snd_serve_stop]
      simp [idNames_stop]
  | @remove name hname =>
    simp only [HostFaults.serve,snd_attempt]
    split
    · next hfails =>
      have hsome : hf.fails (.containerRemove (.name name)) ≠ none := by
        intro hnone
        simp [hnone] at hfails
      simp [hsome]
    · next hfails =>
      have hnone : hf.fails (.containerRemove (.name name)) = none := by simpa using hfails
      rw [snd_serve_remove]
      simp only [mem_idNames_remove,true_and]
      intro p
      rw [hnone]
      grind

/-! ### A whole stop -/

variable (hf : HostFaults) (blue green : List String)

/-- `stopBothColors` for lists of names. -/
def stopBoth : RunProg Unit :=
  Prog.allSettled .turn id (stopContainerCandidates blue) (stopContainerCandidates green)

theorem calls_stopContainerCandidates {names all : List String} (h : ∀ n ∈ names, n ∈ all) :
    (stopContainerCandidates names).Calls (Clears all) :=
  calls_forEach fun name hname =>
    calls_stopContainer (.stop (h name hname)) (.remove (h name hname))

theorem calls_stopBoth : (stopBoth blue green).Calls (Clears (blue ++ green)) :=
  calls_allSettled Clears.turn (calls_stopContainerCandidates fun _ h => mem_append_left _ h)
    (calls_stopContainerCandidates fun _ h => mem_append_right _ h)

theorem total_quietly (p : RunProg Unit) : (quietly p).Total :=
  Prog.total_tryCatch fun _ => trivial

def Removes (name : String) (o : Call) : Prop := o = .containerRemove (.name name)

theorem surely_stopContainer (name : String) :
    (stopContainer (.name name)).Surely (Removes name) := by
  refine surely_bind_right (total_quietly _) fun _ => ?_
  exact surely_tryCatch (.inl rfl)

theorem surely_stopContainerCandidates (h : name ∈ names) :
    (stopContainerCandidates names).Surely (Removes name) :=
  surely_forEach (fun _ => total_bind (total_quietly _) fun _ => total_quietly _) h
    (surely_stopContainer name)

variable {blue green}

theorem surely_stopBoth (h : name ∈ blue ++ green) :
    (stopBoth blue green).Surely (Removes name) := by
  rcases mem_append.mp h with h | h
  · exact surely_allSettled_left (surely_stopContainerCandidates h) _
  · exact surely_allSettled_right _ (surely_stopContainerCandidates h)

structure Cleared (names : List String) (w w' : World) : Prop where
  row : w'.row = w.row
  route : w'.route = w.route
  containers : ∀ p, p ∈ w'.docker.idNames ↔ p ∈ w.docker.idNames ∧
    ¬ (p.2 ∈ names ∧ hf.fails (.containerRemove (.name p.2)) = none)

structure Spared (names : List String) (w w' : World) : Prop where
  row : w'.row = w.row
  route : w'.route = w.route
  old : ∀ p ∈ w'.docker.idNames, p ∈ w.docker.idNames
  stays : ∀ p ∈ w.docker.idNames,
    ¬ (p.2 ∈ names ∧ hf.fails (.containerRemove (.name p.2)) = none) → p ∈ w'.docker.idNames

variable {hf}

theorem Spared.step (h : Spared hf names w s.1) (ho : Clears names o) :
    Spared hf names w (hf.serve o s).2.1 := by
  obtain ⟨hrow,hroute,hmem⟩ := clears_step ho s
  refine ⟨hrow.trans h.row,hroute.trans h.route,fun p hp => h.old p ((hmem p).mp hp).1,?_⟩
  intro p hp hnot
  refine (hmem p).mpr ⟨h.stays p hp hnot,?_⟩
  rintro ⟨rfl,hfails⟩
  cases ho with
  | remove hname => exact hnot ⟨hname,hfails⟩

variable (hf blue green)

theorem spared_stopBoth (s : Scheduled) :
    Spared hf (blue ++ green) s.1 ((stopBoth blue green).exec hf.serve s).2.1 := by
  refine post_exec (post_of_calls (calls_stopBoth blue green)
    (fun s' : Scheduled => Spared hf (blue ++ green) s.1 s'.1) ?_ ?_)
  · intro o s1 r s2 ho hs1 hserve
    have hs2 : (hf.serve o s1).2 = s2 := congrArg Prod.snd hserve
    rw [← hs2]
    exact hs1.step ho
  · exact ⟨rfl,rfl,fun _ hp => hp,fun _ hp _ => hp⟩

variable {hf blue green}

theorem gone_stopBoth (hname : p.2 ∈ blue ++ green)
    (hfails : hf.fails (.containerRemove (.name p.2)) = none) (s : Scheduled) :
    p ∉ ((stopBoth blue green).exec hf.serve s).2.1.docker.idNames := by
  refine post_exec (post_of_surely (calls_stopBoth blue green) (surely_stopBoth hname)
    (fun s' : Scheduled => p ∉ s'.1.docker.idNames) ?_ ?_)
  · intro o s1 r s2 ho hs1 hserve hp
    have hs2 : (hf.serve o s1).2 = s2 := congrArg Prod.snd hserve
    rw [← hs2] at hp
    exact hs1 (((clears_step ho s1).2.2 p).mp hp).1
  · intro o s1 r s2 ho hserve hp
    have hs2 : (hf.serve o s1).2 = s2 := congrArg Prod.snd hserve
    rw [← hs2] at hp
    subst ho
    exact (((clears_step (Clears.remove hname) s1).2.2 p).mp hp).2 ⟨rfl,hfails⟩

variable (hf blue green)

theorem cleared_stopBoth (s : Scheduled) :
    Cleared hf (blue ++ green) s.1 ((stopBoth blue green).exec hf.serve s).2.1 := by
  have hspared := spared_stopBoth hf blue green s
  refine ⟨hspared.row,hspared.route,fun p => ⟨fun hp => ⟨hspared.old p hp,?_⟩,?_⟩⟩
  · rintro ⟨hname,hfails⟩
    exact gone_stopBoth hname hfails s hp
  · rintro ⟨hp,hnot⟩
    exact hspared.stays p hp hnot

variable {hf}

theorem stopApp_ok (h : ((stopApp appId).exec hf.serve s).1 = .ok ()) :
    ∃ row w, s.1.row = some row ∧ Cleared hf (slotNames row.toApp) s.1 w ∧
      ((stopApp appId).exec hf.serve s).2.1 = { w with route := none }.setRow fun row =>
          { row with containerId := none, status := .stopped } := by
  obtain ⟨found,hread,hfirst⟩ := exec_bind_ok h
  obtain ⟨hfound,hs1⟩ := exec_call_ok (by decide) hread
  rw [hs1] at hfirst
  obtain rfl : s.1.row = found := Except.ok.inj hfound
  cases hrow : s.1.row with
  | none =>
    rw [hrow] at hfirst
    rw [show (stopApp appId).exec hf.serve s = _ from hfirst] at h
    cases h
  | some row =>
    rw [hrow] at hfirst
    change (stopApp appId).exec hf.serve s = ((stopBoth
      (runtimeContainerNameCandidates row.toApp .blue)
      (runtimeContainerNameCandidates row.toApp .green)).bind fun _ =>
        (call .removeUpstream).bind fun _ => call .setStopped).exec hf.serve s at hfirst
    rw [hfirst] at h ⊢
    have hcleared := cleared_stopBoth hf (runtimeContainerNameCandidates row.toApp .blue)
      (runtimeContainerNameCandidates row.toApp .green) s
    obtain ⟨_,-,hsecond⟩ := exec_bind_ok h
    rw [hsecond] at h ⊢
    obtain ⟨_,hremove,hthird⟩ := exec_bind_ok h
    rw [hthird] at h ⊢
    rw [(exec_call_ok (by decide) hremove).2] at h ⊢
    rw [(exec_call_ok (by decide) h).2]
    exact ⟨row,_,rfl,hcleared,rfl⟩

end Calls

end Ploydok.Runtime
