import Ploydok.Text.Number
import Ploydok.Webhooks.Coalescing
import Mathlib.Algebra.Order.BigOperators.Group.List

/-! What becomes of pushes with coalescing, over all interleavings of the handlers and the workers. -/

namespace Ploydok.Webhooks

open Effect Effect.Prog Queue List Function

variable {appId branch : String}

section Follows

variable {fresh : String}

theorem follows_enqueue (push : Push) (n : Option Nat) :
    (enqueue ⟨appId,true⟩ push (chosenId appId branch n)).Follows (stageProtocol appId branch)
      (Stage.chosen n) StageEnd := by
  refine follows_perform_bind (fun d => ⟨.inserted n d,if_pos rfl,?_⟩) fun _ => ⟨.failed,rfl,rfl⟩
  refine follows_perform_bind (fun b => ⟨.built n d b,rfl,?_⟩) fun _ => ⟨.failed,rfl,rfl⟩
  refine follows_perform fun r => ?_
  cases r with
  | ok _ => exact ⟨.ended,if_pos ⟨rfl,rfl,rfl,rfl⟩,trivial⟩
  | error e => exact ⟨.failed,rfl,rfl⟩

def Inspected (s : Stage) : Except String (Option (Option JobState) × Option Nat) → Prop
  | .error _ => s = .failed
  | .ok (none, _) => s = .chosen none
  | .ok (some (some .active), n) => s = .chosen n ∧ n.isSome = true
  | .ok (some state, _) => s = .ofState state

theorem follows_inspect : (inspect ⟨appId,true⟩ branch).Follows (stageProtocol appId branch)
    Stage.begun Inspected := by
  refine follows_perform_bind (fun existing => ?_) fun _ => ⟨.failed,rfl,rfl⟩
  cases existing with
  | false => exact ⟨.chosen none,if_pos rfl,rfl⟩
  | true =>
    refine ⟨.found,if_pos rfl,?_⟩
    refine follows_perform_bind
      (fun state => ⟨.ofState state,if_pos rfl,?_⟩) fun _ => ⟨.failed,rfl,rfl⟩
    split
    · next hactive =>
      subst hactive
      exact follows_perform_bind
        (fun n => ⟨.chosen (some n),if_pos rfl,rfl,rfl⟩) fun _ => ⟨.failed,rfl,rfl⟩
    · next hactive =>
      cases state with
      | none => exact rfl
      | some state => cases state <;> first | exact rfl | exact absurd rfl hactive

theorem follows_superseding (p : PushProg Unit) :
    p.Follows (stageProtocol appId branch) Stage.superseding StageEnd := by
  refine follows_mono (follows_of_calls (fun s => s = Stage.superseding) (calls_true p) ?_ rfl) ?_
  · rintro _ o r rfl -
    exact ⟨.superseding,rfl,rfl⟩
  · rintro _ r rfl
    exact trivial

theorem follows_dropStale (push : Push) (h : reason ≠ .supersededWaiting) :
    ((dropExisting appId (baseKey appId branch) reason).bind fun _ =>
      enqueue ⟨appId,true⟩ push (baseKey appId branch)).Follows (stageProtocol appId branch)
        Stage.stale StageEnd := by
  refine follows_bind (fun s r => s = if r.isOk then Stage.chosen none else .failed) ?_ ?_ ?_
  · refine follows_perform_bind (fun _ => ⟨.chosen none,if_pos rfl,?_⟩) fun _ => ⟨.failed,rfl,rfl⟩
    rw [if_neg h]
    exact rfl
  · rintro _ _ rfl
    exact follows_enqueue push none
  · rintro _ e rfl
    exact rfl

theorem follows_handlePush (push : Push) (hbranch : push.branch = branch) :
    (handlePush ⟨appId,true⟩ fresh push).Follows (stageProtocol appId branch) Stage.begun
      StageEnd := by
  subst hbranch
  refine follows_bind Inspected follows_inspect ?_ ?_
  · rintro s ⟨state,count⟩ hs
    cases state with
    | none =>
      obtain rfl : s = Stage.chosen none := hs
      exact follows_enqueue push none
    | some state =>
      cases state with
      | none =>
        obtain rfl : s = Stage.stale := hs
        exact follows_dropStale push (by decide)
      | some state =>
        cases state with
        | active =>
          obtain ⟨rfl,hcount⟩ : s = Stage.chosen count ∧ count.isSome = true := hs
          obtain ⟨n,rfl⟩ := Option.isSome_iff_exists.mp hcount
          exact follows_enqueue push (some n)
        | completed | failed =>
          obtain rfl : s = Stage.stale := hs
          exact follows_dropStale push (by decide)
        | _ =>
          obtain rfl : s = Stage.superseding := hs
          exact follows_superseding _
  · rintro s e rfl
    exact rfl

theorem follows_program (party : Party) :
    (party.program appId branch).Follows (stageProtocol appId branch) party.stage StageEnd := by
  cases party with
  | push fresh commitSha => exact follows_handlePush _ rfl
  | worker =>
    refine follows_perform_bind (fun job => ⟨.working,rfl,?_⟩) fun _ => ⟨.working,rfl,trivial⟩
    cases job with
    | none => exact trivial
    | some job =>
      refine follows_perform_bind
        (fun succeeded => ⟨.working,rfl,?_⟩) fun _ => ⟨.working,rfl,trivial⟩
      exact follows_perform fun _ => ⟨.working,rfl,trivial⟩

end Follows

/-! ### What the stores say -/

def HasJob (w : World) (delivery : String) : Prop :=
  (∃ j ∈ w.queue.jobs, j.data.delivery = delivery ∧ j.state.unfinished = true) ∨
    delivery ∈ w.finished

def QueuedFor (w : World) (build : String) : Prop :=
  ∃ j ∈ w.queue.jobs, j.data.buildId = build ∧ j.state.queued = true

def accepted (w : World) (appId : String) : List Delivery :=
  w.deliveries.filter fun d => d.appId = appId ∧ d.decision ≠ .skipped

/-- The newest accepted push has its job, pending builds are queued, and coalesced deliveries are
those dropped. -/
structure Settled (w : World) (appId : String) : Prop where
  newest : ∀ d ∈ (accepted w appId).getLast?, HasJob w d.id
  pending : ∀ b ∈ w.builds, b.status = .pending → QueuedFor w b.id
  coalesced : ∀ d ∈ w.deliveries, d.decision = .coalesced ↔ d.id ∈ w.dropped

structure Books (appId branch : String) (w : World) (delivery build : String → Prop) : Prop where
  newest : ∀ d ∈ (accepted w appId).getLast?, HasJob w d.id ∨ delivery d.id
  pending : ∀ b ∈ w.builds, b.status = .pending → QueuedFor w b.id ∨ build b.id
  coalesced : ∀ d ∈ w.deliveries, d.decision = .coalesced ↔ d.id ∈ w.dropped
  dropped : ∀ x ∈ w.dropped, ∃ d ∈ w.deliveries, d.id = x
  /-- The numbers to come are not in use. -/
  suffix : ∀ n, w.countDeliveriesByApp appId ≤ n →
    suffixed (baseKey appId branch) n ∉ w.queue.jobs.map Job.id

variable {w w' : World} {H B H' B' : String → Prop}

theorem Books.mono (h : Books appId branch w H B) (hH : ∀ x, H x → H' x) (hB : ∀ x, B x → B' x) :
    Books appId branch w H' B' :=
  ⟨fun d hd => (h.newest d hd).imp_right (hH d.id),
    fun b hb hpending => (h.pending b hb hpending).imp_right (hB b.id),h.coalesced,h.dropped,
    h.suffix⟩

structure Worked (w w' : World) : Prop where
  deliveries : w'.deliveries = w.deliveries
  dropped : w'.dropped = w.dropped
  ids : w'.queue.jobs.map Job.id = w.queue.jobs.map Job.id
  hasJob : ∀ d, HasJob w d → HasJob w' d
  pending : ∀ b ∈ w'.builds, b.status = .pending →
    b ∈ w.builds ∧ (QueuedFor w b.id → QueuedFor w' b.id)
  finished : ∀ j' ∈ w'.queue.jobs, j'.state.unfinished = true →
    ∃ j ∈ w.queue.jobs, j.id = j'.id ∧ j.state.unfinished = true

theorem Worked.refl (w : World) : Worked w w :=
  ⟨rfl,rfl,rfl,fun _ h => h,fun _ hb _ => ⟨hb,id⟩,fun j hj h => ⟨j,hj,rfl,h⟩⟩

theorem unfinished_of_queued {s : JobState} (h : s.queued = true) : s.unfinished = true := by
  cases s <;> first | rfl | cases h

variable {f : Job Payload → Job Payload} {id : String} {job : Job Payload}

/-- A worker changes one job that is not finished, and with it builds and the finished ones. -/
theorem worked_modify (hjob : job ∈ w.queue.jobs) (hunfinished : job.state.unfinished = true)
    (hbuild : ∀ b, (g b).status = .pending →
      g b = b ∧ (job.data.buildId = b.id → job.state.queued = false))
    (hfinished : w.finished ⊆ finished) (hhas : job.data.delivery ∈ finished ∨
      (f job).data.delivery = job.data.delivery ∧ (f job).state.unfinished = true) :
    Worked w { w with
      queue := w.queue.modify job.id f hf, builds := w.builds.map g, finished } := by
  have hother : ∀ j ∈ w.queue.jobs, j = job ∨ j ∈ (w.queue.modify job.id f hf).jobs := by
    intro j hj
    by_cases hid : j.id = job.id
    · exact .inl (Bull.eq_of_id hj hjob hid)
    · exact .inr (mem_map.mpr ⟨j,hj,if_neg hid⟩)
  refine ⟨rfl,rfl,Bull.map_id_ite _ _ hf,fun d hd => ?_,fun b' hb' hpending => ?_,
    fun j' hj' hun => ?_⟩
  · rcases hd with ⟨j,hj,rfl,hun⟩ | hfin
    · rcases hother j hj with rfl | hmem
      · exact hhas.symm.imp_left fun h => ⟨f j,mem_map.mpr ⟨j,hj,if_pos rfl⟩,h⟩
      · exact .inl ⟨j,hmem,rfl,hun⟩
    · exact .inr (hfinished hfin)
  · obtain ⟨b,hb,rfl⟩ := mem_map.mp hb'
    obtain ⟨hsame,hfree⟩ := hbuild b hpending
    rw [hsame]
    refine ⟨hb,?_⟩
    rintro ⟨j,hj,hid,hqueued⟩
    rcases hother j hj with rfl | hmem
    · rw [hfree hid] at hqueued
      cases hqueued
    · exact ⟨j,hmem,hid,hqueued⟩
  · obtain ⟨j,hj,rfl⟩ := mem_map.mp hj'
    split_ifs at hun ⊢ with hid
    · exact ⟨job,hjob,hid.symm.trans (hf j).symm,hunfinished⟩
    · exact ⟨j,hj,rfl,hun⟩

theorem worked_take (hjob : job ∈ w.queue.jobs)
    (hstate : job.state = .waiting ∨ job.state = .delayed) : Worked w (w.take job) := by
  refine worked_modify hjob ?_ (fun b hpending => ?_) (fun _ h => h) (.inr ⟨rfl,rfl⟩)
  · rcases hstate with h | h <;> rw [h] <;> rfl
  · split_ifs at hpending ⊢ with hclaim
    -- the job that was taken is of another build
    exact ⟨rfl,fun hid => absurd ⟨hid.symm,.inl hpending⟩ hclaim⟩

theorem worked_settle (hjob : job ∈ w.queue.jobs) (hactive : job.state = .active)
    (hstatus : status ≠ .pending) : Worked w (w.settle job state status) := by
  refine worked_modify hjob (by rw [hactive]; rfl) (fun b hpending => ?_) ?_ ?_
  · split_ifs at hpending ⊢
    · exact absurd hpending hstatus
    · exact ⟨rfl,fun _ => by rw [hactive]; rfl⟩
  · split_ifs
    · exact fun _ h => h
    · exact subset_append_left ..
  · cases hstate : state.unfinished with
    | true => exact .inr ⟨rfl,rfl⟩
    | false => simp

theorem worked_settleJob (id : String) (succeeded : Bool) : Worked w (w.settleJob id succeeded) := by
  unfold World.settleJob
  cases hjob : w.queue.getJob id with
  | none => exact .refl w
  | some job =>
    by_cases hactive : job.state = .active
    · simp only [hactive,↓reduceIte]
      refine worked_settle (Bull.getJob_eq_some_iff.mp hjob).1 hactive ?_
      cases succeeded <;> decide
    · simp only [hactive,↓reduceIte]
      exact .refl w

theorem Books.worked (h : Books appId branch w H B) (hw : Worked w w') :
    Books appId branch w' H B := by
  refine ⟨?_,fun b hb hpending => ?_,?_,?_,?_⟩
  · unfold accepted
    rw [hw.deliveries]
    intro d hd
    exact (h.newest d hd).imp_left (hw.hasJob d.id)
  · obtain ⟨hmem,hqueued⟩ := hw.pending b hb hpending
    exact (h.pending b hmem hpending).imp_left hqueued
  · rw [hw.deliveries,hw.dropped]
    exact h.coalesced
  · rw [hw.deliveries,hw.dropped]
    exact h.dropped
  · unfold World.countDeliveriesByApp
    rw [hw.deliveries,hw.ids]
    exact h.suffix

/-! ### One call of a push -/

theorem suffixed_injective (h : suffixed base m = suffixed base n) : m = n := by
  have hlist := congrArg String.toList h
  exact Text.toString_nat_inj (String.toList_inj.mp (by simpa [suffixed] using hlist))

theorem suffixed_ne (base : String) (n : Nat) : suffixed base n ≠ base := by
  intro h
  have := congrArg (fun s => s.toList.length) h
  simp [suffixed] at this

def Stage.holdsDelivery : Stage → String → Prop
  | inserted _ d, x | built _ d _, x => d = x
  | _, _ => False

def Stage.holdsBuild : Stage → String → Prop
  | built _ _ b, x => b = x
  | _, _ => False

def Chosen (appId branch : String) (w : World) (n : Option Nat) (count : Nat) : Prop :=
  chosenId appId branch n ∉ w.queue.jobs.map Job.id ∧ ∀ m ∈ n, m < count

def StageInv (appId branch : String) (w : World) : Stage → Prop
  | .stale => ∀ j ∈ w.queue.jobs, j.id = baseKey appId branch → j.state.unfinished = false
  | .superseding => False
  | .chosen n => Chosen appId branch w n (w.countDeliveriesByApp appId + 1)
  | .inserted n _ | .built n _ _ => Chosen appId branch w n (w.countDeliveriesByApp appId)
  | _ => True

variable {s : Stage}

theorem StageInv.worked (h : StageInv appId branch w s) (hw : Worked w w') :
    StageInv appId branch w' s := by
  have hcount : w'.countDeliveriesByApp appId = w.countDeliveriesByApp appId := by
    unfold World.countDeliveriesByApp
    rw [hw.deliveries]
  cases s with
  | stale =>
    intro j' hj' hid
    by_contra hun
    obtain ⟨j,hj,hsame,hun'⟩ := hw.finished j' hj' (by simpa using hun)
    rw [h j hj (hsame.trans hid)] at hun'
    cases hun'
  | chosen | inserted | built =>
    unfold StageInv Chosen
    rw [hw.ids,hcount]
    exact h
  | _ => exact h

theorem countDeliveriesByApp_insert (w : World) (d : String) :
    World.countDeliveriesByApp { w with deliveries := w.deliveries ++ [⟨d,appId,.enqueued⟩] } appId =
      w.countDeliveriesByApp appId + 1 := by
  simp [World.countDeliveriesByApp]

theorem Books.insertDelivery (h : Books appId branch w H B)
    (hfresh : ∀ d' ∈ w.deliveries, d'.id ≠ d) :
    Books appId branch { w with deliveries := w.deliveries ++ [⟨d,appId,.enqueued⟩] }
      (fun x => d = x ∨ H x) B := by
  refine ⟨fun d' hd' => ?_,h.pending,fun d' hd' => ?_,fun x hx => ?_,fun n hn => ?_⟩
  · -- the new delivery is the newest one
    have hlast : (accepted { w with deliveries := w.deliveries ++ [⟨d,appId,.enqueued⟩] }
        appId).getLast? = some ⟨d,appId,.enqueued⟩ := by
      simp [accepted]
    rw [hlast] at hd'
    cases hd'
    exact .inr (.inl rfl)
  · rcases mem_append.mp hd' with hd' | hd'
    · exact h.coalesced d' hd'
    · rw [mem_singleton.mp hd']
      refine ⟨nofun,fun hdrop => ?_⟩
      obtain ⟨d'',hd'',hid⟩ := h.dropped d hdrop
      exact absurd hid (hfresh d'' hd'')
  · obtain ⟨d',hd',hid⟩ := h.dropped x hx
    exact ⟨d',mem_append_left _ hd',hid⟩
  · rw [countDeliveriesByApp_insert] at hn
    exact h.suffix n (by omega)

theorem Books.createPendingBuild (h : Books appId branch w H B) :
    Books appId branch { w with builds := w.builds ++ [⟨b,.pending⟩] } H
      (fun x => b = x ∨ B x) := by
  refine ⟨h.newest,fun b' hb' hpending => ?_,h.coalesced,h.dropped,h.suffix⟩
  rcases mem_append.mp hb' with hb' | hb'
  · exact (h.pending b' hb' hpending).imp_right .inr
  · rw [mem_singleton.mp hb']
    exact .inr (.inl rfl)

theorem Books.add (h : Books appId branch w (fun x => job.data.delivery = x ∨ H x)
      fun x => job.data.buildId = x ∨ B x) (hid : job.id = chosenId appId branch n)
    (hstate : job.state = .waiting) (hn : Chosen appId branch w n (w.countDeliveriesByApp appId)) :
    Books appId branch { w with queue := w.queue.add job } H B := by
  have hfree : job.id ∉ w.queue.jobs.map Job.id := hid ▸ hn.1
  have hmem : ∀ j, j ∈ (w.queue.add job).jobs ↔ j ∈ w.queue.jobs ∨ j = job :=
    Bull.mem_jobs_add hfree
  refine ⟨fun d hd => ?_,fun b hb hpending => ?_,h.coalesced,h.dropped,fun m hm hused => ?_⟩
  · rcases h.newest d hd with (⟨j,hj,hdel,hun⟩ | hfin) | hjob | hH
    · exact .inl (.inl ⟨j,(hmem j).mpr (.inl hj),hdel,hun⟩)
    · exact .inl (.inr hfin)
    · exact .inl (.inl ⟨job,(hmem job).mpr (.inr rfl),hjob,by rw [hstate]; rfl⟩)
    · exact .inr hH
  · rcases h.pending b hb hpending with ⟨j,hj,hbuild,hqueued⟩ | hjob | hB
    · exact .inl ⟨j,(hmem j).mpr (.inl hj),hbuild,hqueued⟩
    · exact .inl ⟨job,(hmem job).mpr (.inr rfl),hjob,by rw [hstate]; rfl⟩
    · exact .inr hB
  · obtain ⟨j,hj,hjid⟩ := mem_map.mp hused
    rcases (hmem j).mp hj with hj | rfl
    · exact h.suffix m hm (hjid ▸ mem_map_of_mem hj)
    · -- the new job has no number, or one that has been counted
      rw [hid] at hjid
      cases n with
      | none => exact suffixed_ne _ m hjid.symm
      | some k =>
        have hk := hn.2 k rfl
        have := suffixed_injective hjid
        change w.countDeliveriesByApp appId ≤ m at hm
        omega

theorem Books.remove (h : Books appId branch w H B)
    (hid : ∀ j ∈ w.queue.jobs, j.id = id → j.state.unfinished = false)
    (hremove : w.queue.remove id = some queue) :
    Books appId branch { w with queue, dropped := w.dropped ++ w.droppedBy id } H B := by
  have hmem := Bull.mem_jobs_remove hremove
  have hdropped : w.droppedBy id = [] := by
    unfold World.droppedBy
    rw [map_eq_nil_iff,filter_eq_nil_iff]
    intro j hj hdrop
    obtain ⟨hjid,hqueued⟩ : j.id = id ∧ j.state.queued = true := by simpa using hdrop
    have hun := unfinished_of_queued hqueued
    rw [hid j hj hjid] at hun
    cases hun
  have hkept : ∀ j ∈ w.queue.jobs, j.state.unfinished = true → j ∈ queue.jobs := by
    intro j hj hun
    refine (hmem j).mpr ⟨hj,fun hjid => ?_⟩
    rw [hid j hj hjid] at hun
    cases hun
  rw [hdropped,append_nil]
  refine ⟨fun d hd => ?_,fun b hb hpending => ?_,h.coalesced,h.dropped,fun m hm hused => ?_⟩
  · rcases h.newest d hd with (⟨j,hj,hdel,hun⟩ | hfin) | hH
    · exact .inl (.inl ⟨j,hkept j hj hun,hdel,hun⟩)
    · exact .inl (.inr hfin)
    · exact .inr hH
  · rcases h.pending b hb hpending with ⟨j,hj,hbuild,hqueued⟩ | hB
    · exact .inl ⟨j,hkept j hj (unfinished_of_queued hqueued),hbuild,hqueued⟩
    · exact .inr hB
  · obtain ⟨j,hj,hjid⟩ := mem_map.mp hused
    exact h.suffix m hm (hjid ▸ mem_map_of_mem ((hmem j).mp hj).1)

abbrev Stage.Books (appId branch : String) (w : World) (s : Stage) (H B : String → Prop) : Prop :=
  Webhooks.Books appId branch w (fun x => s.holdsDelivery x ∨ H x) fun x => s.holdsBuild x ∨ B x

theorem stageInv_ofState (hid : id = baseKey appId branch)
    (hqueued : ∀ j ∈ w.queue.jobs, j.id = id → j.state.queued = false) :
    StageInv appId branch w (.ofState ((w.queue.getJob id).map (·.state))) := by
  cases hjob : w.queue.getJob id with
  | none =>
    intro j hj hjid
    exact absurd (mem_map_of_mem hj) (hjid ▸ hid ▸ Bull.getJob_eq_none_iff.mp hjob)
  | some job =>
    obtain ⟨hmem,hjid⟩ := Bull.getJob_eq_some_iff.mp hjob
    have hnot := hqueued job hmem hjid
    -- a finished job stays the only one of its id
    have hstale : job.state.unfinished = false →
        ∀ j ∈ w.queue.jobs, j.id = baseKey appId branch → j.state.unfinished = false := by
      intro hfin j hj hj'
      rw [Bull.eq_of_id hj hmem (hj'.trans (hid.symm.trans hjid.symm))]
      exact hfin
    simp only [Option.map_some]
    cases hstate : job.state with
    | active => exact trivial
    | completed | failed => exact hstale (by rw [hstate]; rfl)
    | _ =>
      rw [hstate] at hnot
      cases hnot

variable {s' : Stage} {o : Call}

theorem stage_step (hs : Responds o w a w') (hnext : stageNext appId branch s ⟨o,.ok a⟩ = some s')
    (hpush : s ≠ .working) (hinv : StageInv appId branch w s) (hbooks : s.Books appId branch w H B)
    (hstate : ∀ id, o = .getState id → ∀ j ∈ w.queue.jobs, j.id = id → j.state.queued = false) :
    StageInv appId branch w' s' ∧ s'.Books appId branch w' H B := by
  generalize hev : (⟨o,.ok a⟩ : Event PushSig String) = ev at hnext
  revert hnext
  fun_cases stageNext appId branch s ev <;> rintro ⟨⟩ <;> cases hev
  -- a worker
  · exact absurd rfl hpush
  · exact absurd rfl hpush
  · exact absurd rfl hpush
  -- a push that replaces a job
  · exact hinv.elim
  · obtain ⟨rfl,rfl⟩ := hs
    cases hjob : w'.queue.getJob (baseKey appId branch) with
    | none => exact ⟨⟨Bull.getJob_eq_none_iff.mp hjob,nofun⟩,hbooks⟩
    | some job => exact ⟨trivial,hbooks⟩
  · obtain ⟨rfl,rfl⟩ := hs
    exact ⟨stageInv_ofState rfl (hstate _ rfl),
      hbooks.mono (fun x hx => hx.imp_left False.elim) fun x hx => hx.imp_left False.elim⟩
  · obtain ⟨rfl,rfl⟩ := hs
    refine ⟨⟨hbooks.suffix _ (Nat.le_refl _),?_⟩,hbooks⟩
    rintro m ⟨⟩
    omega
  · obtain ⟨queue,hremove,rfl⟩ := hs
    refine ⟨⟨fun hused => ?_,nofun⟩,Books.remove hbooks hinv hremove⟩
    obtain ⟨j,hj,hjid⟩ := mem_map.mp hused
    exact ((Bull.mem_jobs_remove hremove j).mp hj).2 hjid
  · obtain ⟨hfresh,rfl⟩ := hs
    refine ⟨⟨hinv.1,?_⟩,?_⟩
    · rw [countDeliveriesByApp_insert]
      exact hinv.2
    · exact (Books.insertDelivery hbooks hfresh).mono
        (fun x hx => hx.imp_right fun hx => hx.resolve_left fun h => h) fun x hx => hx
  · obtain ⟨-,rfl⟩ := hs
    exact ⟨hinv,(Books.createPendingBuild hbooks).mono (fun x hx => hx)
      fun x hx => hx.imp_right fun hx => hx.resolve_left fun h => h⟩
  · next hcond =>
    obtain ⟨hid,rfl,rfl,hwaiting⟩ := hcond
    obtain rfl : w' = _ := hs
    exact ⟨trivial,(Books.add hbooks hid hwaiting hinv).mono (fun x hx => .inr hx)
      fun x hx => .inr hx⟩

section Interleavings

variable {ι : Type} [DecidableEq ι]

abbrev PushPool (ι : Type) := Pool PushSig String Unit ι World

def startPushes (appId branch : String) (w : World) (parties : ι → Party) : PushPool ι :=
  .start w fun i => (parties i).program appId branch

def Returned (parties : ι → Party) (c : PushPool ι) : Prop :=
  ∀ i, (parties i).isPush = true → c.prog i = .ret ()

structure PushOk (parties : ι → Party) (c : PushPool ι) (i : ι) : Prop where
  alone : (parties i).isPush = true → ∀ j, j ≠ i → (parties j).isPush = true → ¬ c.InProgress j
  idle : ∀ id k, c.prog i = .call (.getState id) k →
    ∀ j ∈ c.world.queue.jobs, j.id = id → j.state.queued = false

structure Inv (appId branch : String) (parties : ι → Party) (c : PushPool ι) (φ : ι → Stage) :
    Prop where
  stage : ∀ i, (c.prog i).done = false → StageInv appId branch c.world (φ i)
  books : Books appId branch c.world (fun x => ∃ i, (φ i).holdsDelivery x)
    fun x => ∃ i, (φ i).holdsBuild x
  working : ∀ i, (parties i).isPush = false ↔ φ i = .working

variable {parties : ι → Party} {c : PushPool ι} {φ : ι → Stage} {i : ι}

theorem books_update : Books appId branch w (fun x => ∃ j, (update φ i s j).holdsDelivery x)
      (fun x => ∃ j, (update φ i s j).holdsBuild x) ↔
    s.Books appId branch w (fun x => ∃ j, j ≠ i ∧ (φ j).holdsDelivery x)
      fun x => ∃ j, j ≠ i ∧ (φ j).holdsBuild x := by
  have hiff : ∀ P : Stage → Prop, (∃ j, P (update φ i s j)) ↔ P s ∨ ∃ j, j ≠ i ∧ P (φ j) := by
    intro P
    constructor
    · rintro ⟨j,hj⟩
      by_cases hji : j = i
      · subst hji
        exact .inl (by simpa using hj)
      · exact .inr ⟨j,hji,by simpa [hji] using hj⟩
    · rintro (hs | ⟨j,hji,hj⟩)
      · exact ⟨i,by simpa using hs⟩
      · exact ⟨j,by simpa [hji] using hj⟩
  constructor
  · intro h
    exact h.mono (fun x => (hiff (·.holdsDelivery x)).mp) fun x => (hiff (·.holdsBuild x)).mp
  · intro h
    exact h.mono (fun x => (hiff (·.holdsDelivery x)).mpr) fun x => (hiff (·.holdsBuild x)).mpr

theorem worked_of_sem (hs : pushSem o w r w')
    (hnext : stageNext appId branch .working ⟨o,r⟩ = some s) : Worked w w' ∧ s = .working := by
  have hresponds : ∀ a, Responds o w a w' → Worked w w' := by
    intro a ha
    cases o with
    | takeJob =>
      cases a with
      | none =>
        obtain rfl : w' = w := ha
        exact .refl w'
      | some job =>
        obtain ⟨hjob,hstate,rfl⟩ := ha
        exact worked_take hjob hstate
    | runDeploy job =>
      obtain rfl : w' = w := ha
      exact .refl w'
    | settleJob id succeeded =>
      obtain rfl : w' = w.settleJob id succeeded := ha
      exact worked_settleJob id succeeded
    | _ => cases hnext
  constructor
  · cases r with
    | ok a => exact hresponds a hs
    | error e =>
      rcases hs with rfl | ⟨a,ha⟩
      · exact .refl w'
      · exact hresponds a ha
  · cases o with
    | takeJob | runDeploy | settleJob => exact (Option.some.inj hnext).symm
    | _ => cases hnext

theorem stageNext_error (h : stageNext appId branch s ⟨o,.error e⟩ = some s') (hs : s ≠ .working)
    (hs' : s ≠ .superseding) : s' = .failed := by
  cases s with
  | working => exact absurd rfl hs
  | superseding => exact absurd rfl hs'
  | ended | failed => cases h
  | _ => exact (Option.some.inj h).symm

theorem ofState_ne_working (state : Option JobState) : Stage.ofState state ≠ .working := by
  fun_cases Stage.ofState state <;> nofun

theorem stageNext_ne_working (h : stageNext appId branch s ev = some s') (hs : s ≠ .working) :
    s' ≠ .working := by
  rintro rfl
  revert h
  fun_cases stageNext appId branch s ev <;> simp_all [ite_eq_iff,ofState_ne_working]

omit [DecidableEq ι] in
theorem stage_of_log_nil
    (hφ : Pool.Phased (stageProtocol appId branch) StageEnd (fun i => (parties i).stage) c φ)
    (h : c.log i = []) : φ i = (parties i).stage := by
  have hafter := hφ.after i
  rw [h] at hafter
  exact (Option.some.inj hafter).symm

theorem Inv.step
    (hφ : Pool.Phased (stageProtocol appId branch) StageEnd (fun i => (parties i).stage) c φ)
    (hJ : Inv appId branch parties c φ) (hok : PushOk parties c i) (hc : c.prog i = .call o k)
    (hs : pushSem o c.world r w') (hnext : stageNext appId branch (φ i) ⟨o,r⟩ = some s') :
    ((parties i).isPush = true ∧ s' = .failed) ∨
      Inv appId branch parties (c.advance i ⟨o,r⟩ (k r) w') (update φ i s') := by
  have hbusy : (c.prog i).done = false := by rw [hc]; rfl
  cases hparty : (parties i).isPush with
  | false =>
    right
    have hworking := (hJ.working i).mp hparty
    rw [hworking] at hnext
    obtain ⟨hworked,rfl⟩ := worked_of_sem hs hnext
    rw [← hworking,update_eq_self]
    refine ⟨fun j hj => ?_,hJ.books.worked hworked,hJ.working⟩
    by_cases hji : j = i
    · rw [hji,hworking]
      exact trivial
    · exact (hJ.stage j (by simpa [hji] using hj)).worked hworked
  | true =>
    have hpush : φ i ≠ .working := by
      intro h
      rw [(hJ.working i).mpr h] at hparty
      cases hparty
    have hstage := hJ.stage i hbusy
    have hsup : φ i ≠ .superseding := by
      intro h
      rw [h] at hstage
      exact hstage
    cases r with
    | error e => exact .inl ⟨rfl,stageNext_error hnext hpush hsup⟩
    | ok a =>
      right
      have hbooks : (φ i).Books appId branch c.world _ _ :=
        books_update.mp (by rw [update_eq_self]; exact hJ.books)
      obtain ⟨hstage',hbooks'⟩ := stage_step hs hnext hpush hstage hbooks
        fun id ho => by subst ho; exact hok.idle id k hc
      refine ⟨fun j hj => ?_,books_update.mpr hbooks',
        (forall_update_iff φ fun j s => (parties j).isPush = false ↔ s = .working).mpr
          ⟨by simpa [hparty] using stageNext_ne_working hnext hpush,fun j _ => hJ.working j⟩⟩
      · by_cases hji : j = i
        · subst hji
          simpa using hstage'
        · -- the others have not begun, or are workers
          have hj : (c.prog j).done = false := by simpa [hji] using hj
          simp only [ne_eq,hji,not_false_eq_true,update_of_ne]
          cases hpartyj : (parties j).isPush with
          | false =>
            rw [(hJ.working j).mp hpartyj]
            exact trivial
          | true =>
            have hlog : c.log j = [] := by
              by_contra hne
              exact hok.alone hparty j hji hpartyj ⟨hne,hj⟩
            rw [stage_of_log_nil hφ hlog]
            cases parties j <;> exact trivial

def Orderly (w : World) (appId branch : String) : Prop :=
  Books appId branch w (fun _ => False) fun _ => False

theorem inv_of_reach (hw : Orderly w appId branch)
    (h : Pool.Reach pushSem (PushOk parties) (startPushes appId branch w parties) c) :
    ∃ φ, Pool.Phased (stageProtocol appId branch) StageEnd (fun i => (parties i).stage) c φ ∧
      ((∃ i, (parties i).isPush = true ∧ φ i = .failed) ∨ Inv appId branch parties c φ) := by
  refine Pool.reach_phased (stageProtocol appId branch) StageEnd
    (fun i => follows_program (parties i))
    (fun c φ => (∃ i, (parties i).isPush = true ∧ φ i = .failed) ∨ Inv appId branch parties c φ)
    (.inr ⟨fun i _ => ?_,?_,fun i => ?_⟩) ?_ h
  · cases parties i <;> exact trivial
  · exact hw.mono (fun _ h => h.elim) fun _ h => h.elim
  · cases parties i <;> simp [Party.isPush,Party.stage]
  · intro c φ i o k r w' s' hφ hJ hok hc hs hnext _
    rcases hJ with ⟨j,hpush,hj⟩ | hJ
    · -- a push that has failed makes no more calls
      have hji : j ≠ i := by
        rintro rfl
        rw [hj] at hnext
        cases hnext
      exact .inl ⟨j,hpush,by simpa [hji] using hj⟩
    · rcases hJ.step hφ hok hc hs hnext with ⟨hpush,rfl⟩ | hinv
      · exact .inl ⟨i,hpush,update_self ..⟩
      · exact .inr hinv

/-- Nothing is lost by coalescing where pushes come one after the other, and not while the job of
the branch is to be run. -/
theorem pushes_settle (appId branch : String) (w : World) (parties : ι → Party)
    (hw : Orderly w appId branch) (c : PushPool ι)
    (h : Pool.Reach pushSem (PushOk parties) (startPushes appId branch w parties) c)
    (hret : Returned parties c) : Settled c.world appId := by
  obtain ⟨φ,hφ,hJ⟩ := inv_of_reach hw h
  have hend : ∀ i, (parties i).isPush = true → StageEnd (φ i) (.ok ()) := by
    intro i hpush
    have hfollows := hφ.follows i
    rw [hret i hpush] at hfollows
    exact hfollows
  rcases hJ with ⟨i,hpush,hi⟩ | hJ
  · have hfailed := hend i hpush
    rw [hi] at hfailed
    cases hfailed
  · -- whoever has returned has nothing in hand
    have hempty : ∀ i x, ¬ (φ i).holdsDelivery x ∧ ¬ (φ i).holdsBuild x := by
      intro i x
      cases hparty : (parties i).isPush with
      | false =>
        rw [(hJ.working i).mp hparty]
        exact ⟨nofun,nofun⟩
      | true =>
        have hi := hend i hparty
        cases hφi : φ i with
        | inserted | built =>
          rw [hφi] at hi
          exact hi.elim
        | _ => exact ⟨nofun,nofun⟩
    refine ⟨fun d hd => ?_,fun b hb hpending => ?_,hJ.books.coalesced⟩
    · rcases hJ.books.newest d hd with hjob | ⟨i,hi⟩
      · exact hjob
      · exact absurd hi (hempty i d.id).1
    · rcases hJ.books.pending b hb hpending with hjob | ⟨i,hi⟩
      · exact hjob
      · exact absurd hi (hempty i b.id).2

end Interleavings

/-! ### The shop -/

namespace Shop

def empty : World := ⟨[],[],⟨[],by decide⟩,[],[]⟩

def freshId (ids : List String) : String :=
  String.ofList (replicate ((ids.map String.length).sum + 1) 'x')

theorem freshId_ne (h : id ∈ ids) : id ≠ freshId ids := by
  intro heq
  have hle : id.length ≤ (ids.map String.length).sum := le_sum_of_mem (mem_map_of_mem h)
  rw [heq] at hle
  simp only [freshId,String.length_ofList,length_replicate] at hle
  omega

def answer : (o : Call) → World → Except String o.Res × World
  | .getJob id, w => (.ok (w.queue.getJob id).isSome, w)
  | .getState id, w => (.ok ((w.queue.getJob id).map (·.state)), w)
  | .countDeliveriesByApp appId, w => (.ok (w.countDeliveriesByApp appId), w)
  | .remove id, w =>
    match w.queue.remove id with
    | some queue => (.ok (), { w with queue, dropped := w.dropped ++ w.droppedBy id })
    | none => (.error "could not be removed because it is locked by another worker", w)
  | .findRecentEnqueuedDeliveryByApp appId, w =>
    (.ok ((w.deliveries.find? fun d => d.appId = appId ∧ d.decision = .enqueued).map (·.id)), w)
  | .markDeliveryCoalesced id, w => (.ok (), w.setDecision id .coalesced)
  | .insertDelivery appId, w =>
    (.ok (freshId (w.deliveries.map (·.id))), { w with
      deliveries := w.deliveries ++ [⟨freshId (w.deliveries.map (·.id)),appId,.enqueued⟩] })
  | .createPendingBuild _ _, w =>
    (.ok (freshId (w.builds.map (·.id))), { w with
      builds := w.builds ++ [⟨freshId (w.builds.map (·.id)),.pending⟩] })
  | .add job, w => (.ok (), { w with queue := w.queue.add job })
  | .takeJob, w =>
    match w.queue.jobs.find? (·.state = .waiting) with
    | some job => (.ok (some job), w.take job)
    | none => (.ok none, w)
  | .runDeploy _, w => (.ok true, w)
  | .settleJob id succeeded, w => (.ok (), w.settleJob id succeeded)

theorem pushSem_answer (o : Call) (w : World) : pushSem o w (answer o w).1 (answer o w).2 := by
  cases o with
  | remove id =>
    cases hremove : w.queue.remove id with
    | some queue =>
      simp only [answer,hremove]
      exact ⟨queue,hremove,rfl⟩
    | none =>
      simp only [answer,hremove]
      exact .inl rfl
  | findRecentEnqueuedDeliveryByApp appId =>
    refine ⟨rfl,?_⟩
    cases hfind : w.deliveries.find? fun d => d.appId = appId ∧ d.decision = .enqueued with
    | some d =>
      have hd : d.appId = appId ∧ d.decision = .enqueued := by simpa using find?_some hfind
      exact ⟨d,mem_of_find?_eq_some hfind,rfl,hd⟩
    | none =>
      intro d hd happ
      have hnone := find?_eq_none.mp hfind d hd
      simpa [happ] using hnone
  | insertDelivery appId =>
    exact ⟨fun d hd => freshId_ne (mem_map_of_mem hd),rfl⟩
  | createPendingBuild appId sha =>
    exact ⟨fun b hb => freshId_ne (mem_map_of_mem hb),rfl⟩
  | takeJob =>
    cases hfind : w.queue.jobs.find? (·.state = .waiting) with
    | some job =>
      simp only [answer,hfind]
      exact ⟨mem_of_find?_eq_some hfind,.inl (by simpa using find?_some hfind),rfl⟩
    | none =>
      simp only [answer,hfind]
      exact rfl
  | getJob | getState | countDeliveriesByApp => exact ⟨rfl,rfl⟩
  | _ => exact rfl

theorem orderly_empty : Orderly empty "shop" "main" :=
  ⟨nofun,nofun,nofun,nofun,fun _ _ => nofun⟩

def twoPushes : Bool → Party
  | true => .push "" "c1"
  | false => .push "" "c2"

def superseded : PushPool Bool :=
  (replicate 4 true ++ replicate 8 false).foldl (Pool.tick answer)
    (startPushes "shop" "main" empty twoPushes)

end Shop

open Shop

theorem superseded_build_left_pending : ¬ ∀ (appId branch : String) (w : World)
    (parties : Bool → Party), Orderly w appId branch → ∀ c : PushPool Bool,
      Pool.Reach pushSem (fun _ _ => True) (startPushes appId branch w parties) c →
        Returned parties c → Settled c.world appId := by
  intro h
  have hret : Returned twoPushes superseded := by
    intro i _
    cases i <;> rfl
  have hsettled := h "shop" "main" empty twoPushes orderly_empty superseded
    (Pool.reach_schedule pushSem_answer _ _ (Pool.admits_of_forall (fun _ _ => trivial) _ _))
    hret
  have hleft : ∃ b ∈ superseded.world.builds, b.status = .pending ∧
      ∀ j ∈ superseded.world.queue.jobs, j.data.buildId ≠ b.id := by decide +kernel
  obtain ⟨b,hb,hpending,hnone⟩ := hleft
  obtain ⟨j,hj,hbuild,-⟩ := hsettled.pending b hb hpending
  exact hnone j hj hbuild

namespace Shop

def parties : Fin 3 → Party
  | 0 => .push "" "c1"
  | 1 => .worker
  | 2 => .push "" "c2"

def turns : List (Fin 3) := replicate 4 0 ++ replicate 3 1 ++ replicate 6 2

def settled : PushPool (Fin 3) :=
  turns.foldl (Pool.tick answer) (startPushes "shop" "main" empty parties)

def mayCall (c : PushPool (Fin 3)) (i : Fin 3) : Bool :=
  (decide (∀ j, j ≠ i → (c.log j).isEmpty ∨ (c.prog j).done)) &&
    match c.prog i with
    | .call (.getState id) _ => c.world.queue.jobs.all fun j => j.id ≠ id ∨ j.state.queued = false
    | _ => true

theorem pushOk_of_mayCall (h : mayCall c i = true) : PushOk parties c i := by
  obtain ⟨halone,hidle⟩ := Bool.and_eq_true_iff.mp h
  refine ⟨fun _ j hj _ hprogress => ?_,fun id k hc j hj hid => ?_⟩
  · rcases of_decide_eq_true halone j hj with hlog | hdone
    · exact hprogress.1 (isEmpty_iff.mp hlog)
    · rw [hprogress.2] at hdone
      cases hdone
  · simp only [hc,all_eq_true,decide_eq_true_eq] at hidle
    rcases hidle j hj with hne | hqueued
    · exact absurd hid hne
    · exact hqueued

theorem admits_turns : Pool.Admits (PushOk parties) answer
    (startPushes "shop" "main" empty parties) turns := by
  have h : Pool.Admits (fun c i => mayCall c i = true) answer
      (startPushes "shop" "main" empty parties) turns := by
    decide +kernel
  exact h.mono fun _ _ => pushOk_of_mayCall

theorem returned_settled : Returned parties settled := by
  intro i hi
  match i with
  | 0 => rfl
  | 1 => cases hi
  | 2 => rfl

end Shop

theorem pushes_settle_shop : Orderly empty "shop" "main" ∧
    Returned parties settled ∧ Settled settled.world "shop" ∧
    settled.world.queue.jobs.map (fun j => (j.id, j.data.commitSha, j.state)) =
      [("deploy:shop:main", "c2", .waiting)] :=
  ⟨orderly_empty,returned_settled,pushes_settle "shop" "main" empty parties orderly_empty settled
      (Pool.reach_schedule pushSem_answer _ _ admits_turns) returned_settled,
    by decide +kernel⟩

end Ploydok.Webhooks
