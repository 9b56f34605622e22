import Ploydok.Swarm.Deploy

/-! What the success of a swarm deploy says about the new version. The deploy waits for the first
list with enough tasks that are up and not unhealthy, whatever image they run. -/

namespace Ploydok.Swarm

open Effect Effect.Prog List

abbrev Trace := List (Event Platform SwarmError)

def observed (tr : Trace) : List (List SwarmTaskSnapshot) :=
  tr.filterMap fun
    | ⟨.listServiceTasks _,.ok tasks⟩ => some tasks
    | _ => none

def SetsRunning (tr : Trace) : Prop := ∃ ev ∈ tr, ev.op.stage = .record

def newAndHealthy (imageRef : String) (task : SwarmTaskSnapshot) : Bool :=
  task.runs imageRef && reportedHealthy task.status

theorem observed_append (tr1 tr2 : Trace) :
    observed (tr1 ++ tr2) = observed tr1 ++ observed tr2 := filterMap_append ..

variable {tr : Trace}

theorem observed_of_stage (h : ∀ ev ∈ tr, ev.op.stage ≠ .wait) : observed tr = [] := by
  refine filterMap_eq_nil_iff.mpr fun ev hev => ?_
  have hstage := h ev hev
  rcases ev with ⟨o,r⟩
  cases o <;> try rfl
  exact absurd rfl hstage

theorem setsRunning_iff : SetsRunning tr ↔ tr.any (fun ev => ev.op.stage = .record) = true := by
  simp [SetsRunning]

section Runs

variable {α β : Type} {w w' : World} {tr : Trace} {p : SwarmProg α} {stage : Stage}
  {out : Except SwarmError α}

theorem continues {out : Except SwarmError β} (hrun : (p.bind f).Runs faultySem w tr out w')
    (hset : SetsRunning tr) (hp : p.Calls (Call.stage · = stage)) (hstage : stage ≠ .record) :
    ∃ a w1 tr1 tr2, p.Runs faultySem w tr1 (.ok a) w1 ∧ (f a).Runs faultySem w1 tr2 out w' ∧
      SetsRunning tr2 ∧ observed tr = observed tr1 ++ observed tr2 := by
  obtain ⟨ev,hev,hrecord⟩ := hset
  rcases runs_bind.mp hrun with ⟨a,w1,tr1,tr2,h1,h2,rfl⟩ | ⟨e,h,-⟩
  · refine ⟨a,w1,tr1,tr2,h1,h2,?_,observed_append tr1 tr2⟩
    rcases mem_append.mp hev with hev | hev
    · exact absurd ((calls_of_runs hp h1 ev hev).symm.trans hrecord) hstage
    · exact ⟨ev,hev,hrecord⟩
  · exact absurd ((calls_of_runs hp h ev hev).symm.trans hrecord) hstage

theorem observed_of_calls (hp : p.Calls (Call.stage · = stage))
    (hstage : stage ≠ .wait) (h : p.Runs faultySem w tr out w') : observed tr = [] :=
  observed_of_stage fun ev hev => calls_of_runs hp h ev hev ▸ hstage

theorem polls_serve (ho : o.stage ≠ .wait) (w : World) :
    (serve o w).2.polls = w.polls ∧ (serve o w).2.polled = w.polled := by
  cases o <;> try exact ⟨rfl,rfl⟩
  case networkCreate name =>
    simp only [serve]
    split_ifs <;> exact ⟨rfl,rfl⟩
  case networkConnect network container aliases =>
    simp only [serve]
    split_ifs <;> exact ⟨rfl,rfl⟩
  case serviceCreate spec =>
    simp only [serve]
    split_ifs <;> exact ⟨rfl,rfl⟩
  case serviceUpdateImage spec =>
    simp only [serve]
    split_ifs <;> exact ⟨rfl,rfl⟩
  case listServiceTasks name => exact absurd rfl ho

theorem polls_of_calls (hp : p.Calls (Call.stage · = stage))
    (hstage : stage ≠ .wait) (h : p.Runs faultySem w tr out w') :
    w'.polls = w.polls ∧ w'.polled = w.polled := by
  refine post_of_calls hp (fun w' => w'.polls = w.polls ∧ w'.polled = w.polled) ?_ ⟨rfl,rfl⟩ _ _ _ h
  rintro o w1 r w2 ho ⟨hpolls,hpolled⟩ hstep
  obtain ⟨hkeep,hkeep'⟩ := polls_serve (ho ▸ hstage) w1
  rcases hstep with hserve | ⟨e,-,rfl | rfl⟩
  · have hw2 : w2 = (serve o w1).2 := (congrArg Prod.snd hserve).symm
    rw [hw2]
    exact ⟨hkeep.trans hpolls,hkeep'.trans hpolled⟩
  · exact ⟨hpolls,hpolled⟩
  · exact ⟨hkeep.trans hpolls,hkeep'.trans hpolled⟩

def FirstEnough (serviceName : String) (replicas : Nat) (polls : Nat → List Container)
    (start i : Nat) : Prop :=
  Enough serviceName replicas (polls (start + i)) ∧
    ∀ j < i, ¬ Enough serviceName replicas (polls (start + j))

theorem runs_waitForServiceHealthy {replicas rounds : Nat}
    (h : (waitForServiceHealthy serviceName replicas rounds).Runs faultySem w tr (.ok ()) w') :
    ∃ i, FirstEnough serviceName replicas w.polls w.polled i ∧
      observed tr = (range (i + 1)).map fun j =>
        listServiceTasks serviceName (w.polls (w.polled + j)) := by
  induction rounds generalizing w tr with
  | zero =>
    obtain ⟨-,hout,-⟩ := h
    cases hout
  | succ rounds ih =>
    rcases runs_bind.mp h with ⟨tasks,w1,tr1,tr2,hlist,hrest,rfl⟩ | ⟨e,-,he⟩
    · obtain ⟨hserve | ⟨e,he,-⟩,rfl⟩ := runs_perform.mp hlist
      · cases hserve
        split_ifs at hrest with hnow
        · obtain ⟨rfl,-,-⟩ := hrest
          exact ⟨0,⟨hnow,fun j hj => absurd hj (Nat.not_lt_zero j)⟩,rfl⟩
        · rcases runs_bind.mp hrest with ⟨_,w2,tr3,tr4,hsleep,hrest,rfl⟩ | ⟨e,-,he⟩
          · obtain ⟨hserve | ⟨e,he,-⟩,rfl⟩ := runs_perform.mp hsleep
            · cases hserve
              obtain ⟨i,⟨henough,hbefore⟩,hseen⟩ := ih hrest
              refine ⟨i + 1,⟨?_,?_⟩,?_⟩
              · rwa [← Nat.add_assoc,Nat.add_right_comm]
              · intro j hj
                cases j with
                | zero => exact hnow
                | succ j =>
                  rw [← Nat.add_assoc,Nat.add_right_comm]
                  exact hbefore j (by omega)
              · rw [observed_append,observed_append,hseen,range_succ_eq_map (n := i + 1),
                  map_cons,map_map]
                simp [observed,Function.comp_def,Nat.add_assoc,Nat.add_comm 1]
            · cases he
          · cases he
      · cases he
    · cases he

end Runs

def upCount (serviceName : String) (containers : List Container) : Nat :=
  (containers.filter fun c => c.service = some serviceName && c.upAndNotUnhealthy).length

def newHealthyCount (serviceName imageRef : String) (containers : List Container) : Nat :=
  (containers.filter fun c =>
    c.service = some serviceName && (c.runs imageRef && c.isHealthy)).length

theorem length_filter_listServiceTasks {Q : Container → Bool}
    (h : ∀ c, P (snapshot serviceName c) = Q c) (containers : List Container) :
    ((listServiceTasks serviceName containers).filter P).length =
      (containers.filter fun c => c.service = some serviceName && Q c).length := by
  unfold listServiceTasks
  rw [filter_map,length_map,filter_filter]
  congr 1
  refine filter_congr fun c _ => ?_
  rw [Function.comp_apply,h c,Bool.and_comm]

theorem enough_iff (serviceName : String) (replicas : Nat) (containers : List Container) :
    Enough serviceName replicas containers ↔ replicas ≤ upCount serviceName containers := by
  unfold Enough upCount
  rw [length_filter_listServiceTasks (taskIsHealthy_snapshot serviceName)]

theorem length_newAndHealthy (serviceName imageRef : String) (containers : List Container) :
    ((listServiceTasks serviceName containers).filter (newAndHealthy imageRef)).length =
      newHealthyCount serviceName imageRef containers := by
  refine length_filter_listServiceTasks (fun c => ?_) containers
  unfold newAndHealthy
  rw [reportedHealthy_snapshot]
  rfl

theorem newHealthyCount_le (serviceName imageRef : String) (containers : List Container) :
    newHealthyCount serviceName imageRef containers ≤ upCount serviceName containers := by
  refine List.Sublist.length_le (monotone_filter_right _ fun c hc => ?_)
  simp only [Bool.and_eq_true] at hc ⊢
  exact ⟨hc.1,Container.upAndNotUnhealthy_of_isHealthy hc.2.2⟩

theorem calls_finish (opts : RunSwarmDeployOptions) (app : AppRow) :
    (finish opts app).Calls (Call.stage · ≠ .wait) := by
  refine calls_bind (calls_mono (calls_switchRoute opts app) fun o ho => ?_) fun _ => ?_
  · rw [ho]
    decide
  refine calls_bind (calls_perform ?_) fun _ => ?_
  · show Stage.record ≠ Stage.wait
    decide
  refine calls_bind (calls_mono (calls_announce opts) fun o ho => ?_) fun _ => trivial
  rw [ho]
  decide

theorem observed_of_setsRunning {w w' : World}
    (hrun : (runSwarmDeploy opts).Runs faultySem w tr out w') (hset : SetsRunning tr)
    (hrow : w.row = some app) :
    ∃ i, FirstEnough app.serviceName app.replicaCount w.polls w.polled i ∧
      observed tr = (range (i + 1)).map fun j =>
        listServiceTasks app.serviceName (w.polls (w.polled + j)) := by
  -- the run goes through all stages before the row is written
  have hcalls : (ask .selectApp).Calls (Call.stage · = .select) := calls_perform rfl
  obtain ⟨found,w1,tr1,tr1',hselect,hrest,hset,hseen1⟩ := continues hrun hset hcalls (by decide)
  have hfound : found = some app ∧ w1 = w := by
    obtain ⟨hserve | ⟨e,he,-⟩,-⟩ := runs_perform.mp hselect
    · cases hserve
      exact ⟨hrow,rfl⟩
    · cases he
  obtain ⟨rfl,rfl⟩ := hfound
  obtain ⟨prepared,w2,tr2,tr2',hprepare,hrest,hset,hseen2⟩ :=
    continues hrest hset (calls_prepare opts app) (by decide)
  obtain ⟨_,w3,tr3,tr3',hservice,hrest,hset,hseen3⟩ :=
    continues hrest hset (calls_createOrUpdateService app _) (by decide)
  obtain ⟨_,w4,tr4,tr4',hwait,hrest,hset,hseen4⟩ :=
    continues hrest hset (calls_waitForServiceHealthy _ _ _) (by decide)
  obtain ⟨hpolls2,hpolled2⟩ := polls_of_calls (calls_prepare opts app) (by decide) hprepare
  obtain ⟨hpolls3,hpolled3⟩ :=
    polls_of_calls (calls_createOrUpdateService app _) (by decide) hservice
  obtain ⟨i,hfirst,hlists⟩ := runs_waitForServiceHealthy hwait
  rw [hpolls3,hpolls2,hpolled3,hpolled2] at hfirst hlists
  refine ⟨i,hfirst,?_⟩
  rw [hseen1,hseen2,hseen3,hseen4,observed_of_calls hcalls (by decide) hselect,
    observed_of_calls (calls_prepare opts app) (by decide) hprepare,
    observed_of_calls (calls_createOrUpdateService app _) (by decide) hservice,
    observed_of_stage (calls_of_runs (calls_finish opts app) hrest),hlists]
  simp

/-- A run that sets the status to running has seen enough healthy tasks of the requested image
exactly if the first list with enough tasks that are up and not unhealthy has them. -/
theorem seen_healthy_iff (opts : RunSwarmDeployOptions) {w w' : World} {tr : Trace}
    {out : Except SwarmError String} (hrun : (runSwarmDeploy opts).Runs faultySem w tr out w')
    (hset : SetsRunning tr) {app : AppRow} (hrow : w.row = some app) :
    (∃ tasks ∈ observed tr,
      app.replicaCount ≤ (tasks.filter (newAndHealthy opts.imageRef)).length) ↔
    ∀ i, app.replicaCount ≤ upCount app.serviceName (w.polls (w.polled + i)) →
      (∀ j < i, upCount app.serviceName (w.polls (w.polled + j)) < app.replicaCount) →
      app.replicaCount ≤ newHealthyCount app.serviceName opts.imageRef
        (w.polls (w.polled + i)) := by
  obtain ⟨first,⟨henough,hbefore⟩,hseen⟩ := observed_of_setsRunning hrun hset hrow
  simp only [enough_iff,not_le] at henough hbefore
  rw [hseen]
  constructor
  · rintro ⟨tasks,htasks,hhealthy⟩ i hi hbefore'
    obtain ⟨k,hk,rfl⟩ := mem_map.mp htasks
    rw [mem_range] at hk
    rw [length_newAndHealthy] at hhealthy
    -- a list with enough healthy tasks has enough that are up, so it is the first such list
    have hup := hhealthy.trans (newHealthyCount_le _ _ _)
    have hfirst : k = first := by
      rcases Nat.lt_or_ge k first with hlt | hge
      · exact absurd hup (not_le.mpr (hbefore k hlt))
      · omega
    have hsame : i = first := by
      rcases Nat.lt_trichotomy i first with hlt | rfl | hgt
      · exact absurd hi (not_le.mpr (hbefore i hlt))
      · rfl
      · exact absurd henough (not_le.mpr (hbefore' first hgt))
    rw [hsame,← hfirst]
    exact hhealthy
  · intro h
    refine ⟨_,mem_map.mpr ⟨first,mem_range.mpr (Nat.lt_succ_self _),rfl⟩,?_⟩
    rw [length_newAndHealthy]
    exact h first henough hbefore

/-- The list has the new task, which is healthy. -/
theorem healthy_task_seen :
    SetsRunning ((runSwarmDeploy shopOptions).trace serve (shopWorld shop healthyPolls)) ∧
    ∃ tasks ∈ observed ((runSwarmDeploy shopOptions).trace serve (shopWorld shop healthyPolls)),
      shop.replicaCount ≤ (tasks.filter (newAndHealthy shopOptions.imageRef)).length := by
  have hset : SetsRunning
      ((runSwarmDeploy shopOptions).trace serve (shopWorld shop healthyPolls)) :=
    setsRunning_iff.mpr rfl
  refine ⟨hset,(seen_healthy_iff shopOptions (runs_exec_serve _ _) hset rfl).mpr ?_⟩
  intro i _ _
  have hcount : shop.replicaCount ≤ newHealthyCount shop.serviceName shopOptions.imageRef
      (healthyPolls 0) := by decide
  exact hcount

def startingPolls (_ : Nat) : List Container :=
  [⟨some "ploydok-app-shop-a1",some "shop:2",some (.up (.count 3 .seconds) (some .starting))⟩]

/-- The only task is `Up 3 seconds (health: starting)`; the app is set to running. -/
theorem starting_task_passes :
    (∃ name, ((runSwarmDeploy shopOptions).exec serve (shopWorld shop startingPolls)).1 =
      .ok name) ∧
    SetsRunning ((runSwarmDeploy shopOptions).trace serve (shopWorld shop startingPolls)) ∧
    ¬ ∃ tasks ∈ observed ((runSwarmDeploy shopOptions).trace serve (shopWorld shop startingPolls)),
      shop.replicaCount ≤ (tasks.filter (newAndHealthy shopOptions.imageRef)).length := by
  have hset : SetsRunning
      ((runSwarmDeploy shopOptions).trace serve (shopWorld shop startingPolls)) :=
    setsRunning_iff.mpr rfl
  refine ⟨⟨_,rfl⟩,hset,?_⟩
  rintro ⟨tasks,htasks,hcount⟩
  obtain ⟨first,-,hseen⟩ := observed_of_setsRunning (runs_exec_serve _ _) hset rfl
  rw [hseen] at htasks
  obtain ⟨k,-,rfl⟩ := mem_map.mp htasks
  rw [length_newAndHealthy] at hcount
  have hzero : ¬ shop.replicaCount ≤ newHealthyCount shop.serviceName shopOptions.imageRef
      (startingPolls 0) := by decide
  exact hzero hcount

end Ploydok.Swarm
