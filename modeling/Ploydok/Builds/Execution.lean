import Ploydok.Builds.Calls

/-! Execution. A script fixes what the semantics leaves open: how long calls take, which of them
throw, what the parts outside the model answer. Where the ids in use are known, the script is one of
the runs. -/

namespace Ploydok.Builds

open Effect Effect.Prog Queue Option

structure Script where
  /-- The ids of builds and of apps. -/
  ids : List String
  lapse : Call → Nat
  throws : Call → Option DeployError
  head : Option String
  method : BuildMethod
  container : String
  hookOk : Bool

namespace Script

def phase (s : Script) : (p : Phase) → p.Res
  | .clone => s.head
  | .detect => s.method
  | .start => s.container
  | .postHook => s.hookOk
  | .openLog | .loadEnv | .preHook | .prepare | .build | .purge | .cleanup | .install
  | .collect => ()

def buildsWhere (s : Script) (w : World) (p : BuildRow → Bool) : List (String × String) :=
  s.ids.filterMap fun id => ((w.builds id).filter p).map fun row => (id, row.appId)

def answer (s : Script) (w : World) : (o : Call) → Option (o.Res × World)
  | .claim id expected => some (w.updateBuild id (claimRow expected))
  | .updateBuildStatus id status patch =>
    some ((), (w.updateBuild id (statusRow status patch w.now)).2)
  | .hydrateBuild _ => some ((), w)
  | .selectBuildStatus id => some ((w.builds id).map (·.status), w)
  | .getBuildForApp id appId => some (((w.builds id).filter (·.appId = appId)).map (·.status), w)
  | .getAppForDeploy id => some (w.apps id, w)
  | .getAppForUser id userId => some (w.access id userId, w)
  | .selectApp id => some (w.apps id, w)
  | .updateApp id update =>
    some ((w.updateApp id (update.apply ·)).1.isSome, (w.updateApp id (update.apply ·)).2)
  | .phase p => some (s.phase p, w)
  | .switch appId target =>
    some ((), { w with routes := Function.update w.routes appId (some target) })
  | .stuckRunning => some (s.buildsWhere w (·.stuckRunning w.now), w)
  | .stuckPending => some (s.buildsWhere w (·.stuckPending w.now), w)
  | .hasActiveBuild appId =>
    some (!(s.buildsWhere w fun row => row.appId = appId && row.status.active).isEmpty, w)
  | .getJobs => some (w.queue.jobs.filter (·.state.unfinished), w)
  | .appOfBuild id => some ((w.builds id).map (·.appId), w)
  | .removeJob id => (w.queue.remove id).map fun q => ((), { w with queue := q })

def respond (s : Script) (o : Call) (w : World) : Except DeployError o.Res × World :=
  match s.throws o with
  | some e => (.error e, { w with now := w.now + s.lapse o })
  | none =>
    match s.answer { w with now := w.now + s.lapse o } o with
    | some (x, w') => (.ok x, w')
    | none => (.error (.other "refused"), { w with now := w.now + s.lapse o })

def faults (s : Script) : Faults := ⟨fun o e => s.throws o = some e,fun _ _ => False⟩

def Within (s : Script) (w : World) : Prop :=
  ∀ id, id ∉ s.ids → w.builds id = none ∧ w.apps id = none

variable {s : Script} {w w' : World} {o : Call} {x : o.Res} {ι α : Type}

theorem lists_buildsWhere (hw : s.Within w) (p : BuildRow → Bool) :
    Lists (s.buildsWhere w p) fun id appId =>
      ∃ row, w.builds id = some row ∧ row.appId = appId ∧ p row = true := by
  intro id appId
  simp only [buildsWhere,List.mem_filterMap,map_eq_some_iff,filter_eq_some_iff, Prod.mk.injEq]
  constructor
  · rintro ⟨id',-,row,⟨hrow,hp⟩,rfl,happ⟩
    exact ⟨row,hrow,happ,hp⟩
  · rintro ⟨row,hrow,happ,hp⟩
    refine ⟨id,?_,row,⟨hrow,hp⟩,rfl,happ⟩
    by_contra hid
    rw [(hw id hid).1] at hrow
    cases hrow

theorem isEmpty_buildsWhere (hw : s.Within w) (appId : String) :
    (!(s.buildsWhere w fun row => row.appId = appId && row.status.active).isEmpty) = true ↔
      ∃ id row, w.builds id = some row ∧ row.appId = appId ∧ row.status.active = true := by
  have hlists := lists_buildsWhere hw fun row => row.appId = appId && row.status.active
  simp only [Bool.not_eq_eq_eq_not,Bool.not_true,List.isEmpty_eq_false_iff_exists_mem]
  constructor
  · rintro ⟨⟨id,a⟩,hmem⟩
    obtain ⟨row,hrow,-,hp⟩ := (hlists id a).mp hmem
    simp only [Bool.and_eq_true,decide_eq_true_eq] at hp
    exact ⟨id,row,hrow,hp⟩
  · rintro ⟨id,row,hrow,happ,hactive⟩
    exact ⟨(id, row.appId),(hlists id row.appId).mpr ⟨row,hrow,rfl,by simp [happ,hactive]⟩⟩

theorem responds_answer (hw : s.Within w) (h : s.answer w o = some (x, w')) :
    Responds o w x w' := by
  cases o with
  | claim id expected => exact (some.inj h).symm
  | updateBuildStatus | hydrateBuild | phase | switch =>
    exact (congrArg Prod.snd (some.inj h)).symm
  | removeJob id =>
    simp only [answer,map_eq_some_iff] at h
    obtain ⟨q,hq,heq⟩ := h
    exact ⟨q,hq,(congrArg Prod.snd heq).symm⟩
  | stuckRunning | stuckPending =>
    cases h
    exact ⟨lists_buildsWhere hw _,rfl⟩
  | hasActiveBuild appId =>
    cases h
    exact ⟨isEmpty_buildsWhere hw appId,rfl⟩
  | _ =>
    cases h
    exact ⟨rfl,rfl⟩

theorem within_updateBuild (hw : s.Within w) (id : String) (f : BuildRow → Option BuildRow) :
    s.Within (w.updateBuild id f).2 := by
  intro other hother
  rw [apps_updateBuild]
  refine ⟨?_,(hw other hother).2⟩
  by_cases h : other = id
  · subst h
    simp [World.updateBuild,(hw other hother).1]
  · rw [builds_updateBuild_of_ne h,(hw other hother).1]

theorem within_updateApp (hw : s.Within w) (id : String) (f : AppRow → Option AppRow) :
    s.Within (w.updateApp id f).2 := by
  intro other hother
  unfold World.updateApp
  split
  · next app happ =>
    refine ⟨(hw other hother).1,?_⟩
    have hne : other ≠ id := by
      rintro rfl
      simp [(hw other hother).2] at happ
    simpa [hne] using (hw other hother).2
  · exact hw other hother

theorem within_of_responds (hw : s.Within w) (h : Responds o w x w') : s.Within w' := by
  cases o with
  | claim id expected =>
    rw [show w' = (w.updateBuild id (claimRow expected)).2 from congrArg Prod.snd h]
    exact within_updateBuild hw id _
  | updateBuildStatus id status patch =>
    rw [show w' = _ from h]
    exact within_updateBuild hw id _
  | updateApp id update =>
    rw [h.2]
    exact within_updateApp hw id _
  | removeJob id =>
    obtain ⟨q,-,rfl⟩ := h
    exact hw
  | switch | hydrateBuild | phase =>
    obtain rfl : w' = _ := h
    exact hw
  | _ =>
    obtain ⟨-,rfl⟩ := h
    exact hw

theorem refused_of_answer (h : s.answer w o = none) : Refused o w := by
  cases o with
  | removeJob id => simpa [answer,Refused] using h
  | _ => cases h

theorem sem_respond (o : Call) (w : World) (hw : s.Within w) :
    sem s.faults o w (s.respond o w).1 (s.respond o w).2 ∧ s.Within (s.respond o w).2 := by
  have hlater : s.Within { w with now := w.now + s.lapse o } := hw
  unfold respond
  cases hthrows : s.throws o with
  | some e => exact ⟨⟨_,Nat.le_add_right ..,.inl ⟨.inl hthrows,rfl⟩⟩,hlater⟩
  | none =>
    cases hanswer : s.answer { w with now := w.now + s.lapse o } o with
    | some r =>
      have hresponds := responds_answer hlater hanswer
      exact ⟨⟨_,Nat.le_add_right ..,hresponds⟩,within_of_responds hlater hresponds⟩
    | none =>
      have hrefused : Refused o w := by
        have h := refused_of_answer hanswer
        cases o <;> exact h
      exact ⟨⟨_,Nat.le_add_right ..,.inl ⟨.inr hrefused,rfl⟩⟩,hlater⟩

theorem within_run [DecidableEq ι] {c : Pool DeploySig DeployError α ι World}
    (hc : s.Within c.world) (sched : List ι) :
    s.Within (sched.foldl (Pool.tick s.respond) c).world := by
  induction sched generalizing c with
  | nil => exact hc
  | cons i sched ih =>
    apply ih
    unfold Pool.tick
    split
    · exact (sem_respond _ _ hc).2
    · exact hc

theorem reach_script [DecidableEq ι] (hc : s.Within c.world) (sched : List ι)
    (hok : Pool.Admits ok s.respond c sched) :
    Pool.Reach (sem s.faults) ok c (sched.foldl (Pool.tick s.respond) c) :=
  Pool.reach_schedule_of s.Within (fun o w hw => sem_respond o w hw) hc sched hok

end Script

end Ploydok.Builds
