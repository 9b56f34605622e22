import Ploydok.Database.Statements
import Ploydok.Effect.Pool
import Mathlib.Data.List.Induction

/-! Mutual exclusion of rotations of one database. The lock is a column that a call reads in one
statement, writes in another, and clears before it ends. -/

namespace Ploydok.Database

open Effect Effect.Prog Function List Pool

abbrev Rotations (ι : Type) := Pool Db RotationError RotationResult ι World

def Released (id : String) (log : List DbEvent) : Prop :=
  ⟨.setRotationInProgress id false,.ok ()⟩ ∈ log ∨
    ∃ rotatedAt, ⟨.finishRotation id rotatedAt,.ok ()⟩ ∈ log

variable {ι : Type}

def PastLock (id : String) (c : Rotations ι) (i : ι) : Prop :=
  Acquired id (c.log i) ∧ (c.prog i).done = false

/-- A call makes its first read only while every other unfinished call holds the lock. -/
def ReadsBehindLock (id : String) (c : Rotations ι) (i : ι) : Prop :=
  c.log i = [] → ∀ j, j ≠ i → c.InProgress j →
    Acquired id (c.log j) ∧ ¬Released id (c.log j)

inductive LockPhase where
  | fresh | checked | holding | released | closed
  deriving DecidableEq

def Inner (id : String) : Query → Prop
  | .readDatabase _ => False
  | .setRotationInProgress id' b => id' = id ∧ b = false
  | .finishRotation id' _ => id' = id
  | _ => True

instance (id : String) : DecidablePred (Inner id) := fun o => by
  cases o <;> unfold Inner <;> infer_instance

def unlocks : DbEvent → Bool
  | ⟨.setRotationInProgress _ false,.ok _⟩ | ⟨.finishRotation _ _,.ok _⟩ => true
  | _ => false

def lockNext (id : String) : LockPhase → DbEvent → Option LockPhase
  | .fresh, ⟨.readDatabase id',.ok found⟩ =>
    if id' ≠ id then none
    else if found.all (·.rotationInProgress) then some .closed
    else some .checked
  | .fresh, ⟨.readDatabase _,.error _⟩ => some .closed
  | .checked, ⟨.generatePassword,_⟩ => some .checked
  | .checked, ⟨.setRotationInProgress id' true,.ok _⟩ => if id' = id then some .holding else none
  | .checked, ⟨.setRotationInProgress _ true,.error _⟩ => some .closed
  | .holding, ev =>
    if Inner id ev.op then some (if unlocks ev then .released else .holding) else none
  | .released, ev => if Inner id ev.op then some .released else none
  | _, _ => none

abbrev lockProtocol (id : String) : Protocol Db RotationError := ⟨LockPhase,lockNext id⟩

inductive LockStep (id : String) : LockPhase → DbEvent → LockPhase → Prop
  | rejected {found : Option Row} (h : found.all (·.rotationInProgress) = true) :
      LockStep id .fresh ⟨.readDatabase id,.ok found⟩ .closed
  | passed {row : Row} (h : row.rotationInProgress = false) :
      LockStep id .fresh ⟨.readDatabase id,.ok (some row)⟩ .checked
  | unread {id' : String} {e : RotationError} :
      LockStep id .fresh ⟨.readDatabase id',.error e⟩ .closed
  | password {r : Except RotationError String} :
      LockStep id .checked ⟨.generatePassword,r⟩ .checked
  | acquire : LockStep id .checked ⟨.setRotationInProgress id true,.ok ()⟩ .holding
  | refused {id' : String} {e : RotationError} :
      LockStep id .checked ⟨.setRotationInProgress id' true,.error e⟩ .closed
  | hold {ev : DbEvent} (hi : Inner id ev.op) (hu : unlocks ev = false) :
      LockStep id .holding ev .holding
  | release {ev : DbEvent} (hi : Inner id ev.op) (hu : unlocks ev = true) :
      LockStep id .holding ev .released
  | rest {ev : DbEvent} (hi : Inner id ev.op) : LockStep id .released ev .released

variable {id : String} {s s' : LockPhase} {ev : DbEvent} {o : Query} {c : Rotations ι}
  {φ : ι → LockPhase} {i : ι} {out : Outside}

theorem lockStep_of_next (h : lockNext id s ev = some s') : LockStep id s ev s' := by
  revert h
  fun_cases lockNext id s ev <;> rintro ⟨⟩
  · next hid hall =>
    obtain rfl := not_ne_iff.mp hid
    exact .rejected hall
  · next found hid hall =>
    obtain rfl := not_ne_iff.mp hid
    cases found with
    | none => simp at hall
    | some row => exact .passed (by simpa using hall)
  · exact .unread
  · exact .password
  · exact .acquire
  · exact .refused
  · next hi =>
    split
    · next hu => exact .release hi hu
    · next hu => exact .hold hi (by simpa using hu)
  · next hi => exact .rest hi

def LockPhase.inside (s : LockPhase) : Prop := s = .holding ∨ s = .released

theorem lockNext_inner (hs : s.inside) (ho : Inner id o) :
    ∃ s', lockNext id s ⟨o,r⟩ = some s' ∧ s'.inside := by
  rcases hs with rfl | rfl
  · refine ⟨if unlocks ⟨o,r⟩ then .released else .holding,?_,?_⟩
    · simp [lockNext,ho]
    · split
      · exact .inr rfl
      · exact .inl rfl
  · exact ⟨.released,by simp [lockNext,ho],.inr rfl⟩

section Calls

variable {id : String}

theorem inner_of_prepares (h : o.prepares = true) : Inner id o := by
  cases o <;> simp_all [Query.prepares,Query.writesSecrets,Inner]

theorem calls_rollbackRotation (p : Plan) (hp : p.databaseId = id) (linkedAppIds : List String) :
    (rollbackRotation p linkedAppIds).Calls (Inner id) := by
  refine calls_andFinally (calls_tryCatch ?_ fun _ => calls_ret _) (calls_query ⟨hp,rfl⟩)
  refine calls_bind (calls_query trivial) fun _ => ?_
  refine calls_bind (calls_eachLink _ (fun projects link => ?_) trivial fun _ => trivial)
    fun _ => ?_
  · exact calls_mono (calls_restoreLinkSecrets p projects link)
      fun _ ho => inner_of_prepares (prepares_of_writesSecrets ho)
  refine calls_bind (calls_forEach fun _ _ => ?_) fun _ => calls_dropOldUser fun _ => trivial
  exact calls_tryCatch (calls_query trivial) fun _ => calls_ret _

theorem calls_redeployLinkedApps (p : Plan) (hp : p.databaseId = id)
    (linkedAppIds : List String) : (redeployLinkedApps p linkedAppIds).Calls (Inner id) := by
  refine calls_bind (calls_forEach fun _ _ => calls_query trivial) fun _ => ?_
  split
  · refine calls_bind (calls_query trivial) fun pollStart => ?_
    refine calls_bind (calls_mono (calls_pollUntilRunning ..) fun o h => by
      cases o <;> simp_all [Query.polls,Inner])
      fun allHealthy => ?_
    split
    · exact calls_bind (calls_rollbackRotation p hp _) fun _ => calls_throw _
    · exact calls_ret _
  · exact calls_ret _

theorem calls_rotateLocked (p : Plan) (hp : p.databaseId = id) :
    (rotateLocked p).Calls (Inner id) := by
  refine calls_bind (calls_mono (calls_writeCredentials p) fun _ => inner_of_prepares)
    fun linkedAppIds => ?_
  refine calls_bind (calls_redeployLinkedApps p hp _) fun _ => ?_
  refine calls_bind (calls_dropOldUser fun _ => trivial) fun _ => ?_
  refine calls_bind (calls_query trivial) fun rotatedAt => ?_
  refine calls_bind (calls_query hp) fun _ => ?_
  refine calls_bind ?_ fun _ => calls_ret _
  exact calls_tryCatch (calls_query trivial) fun _ => calls_ret _

end Calls

theorem follows_rotatePassword (id : String) :
    (rotatePassword id).Follows (lockProtocol id) LockPhase.fresh fun _ _ => True := by
  refine follows_bind (fun (s : LockPhase) r => ∀ found, r = .ok found →
    (∃ e, checkRow id found = .error e) ∨ s = .checked) ?_ ?_ fun _ _ _ => trivial
  · refine follows_perform fun r => ?_
    cases r with
    | error e => exact ⟨.closed,rfl,by simp⟩
    | ok found =>
      cases hc : checkRow id found with
      | error e =>
        refine ⟨if found.all (·.rotationInProgress) then .closed else .checked,?_,?_⟩
        · simp only [lockProtocol,lockNext,ne_eq,not_true_eq_false,if_false]
          split <;> rfl
        · rintro _ ⟨⟩
          exact .inl ⟨e,hc⟩
      | ok plan =>
        -- a row that passes the checks is not locked
        obtain ⟨row,_,_,_,rfl,hlock,-⟩ := checkRow_ok hc
        exact ⟨.checked,by simp [lockProtocol,lockNext,hlock],fun _ _ => .inr rfl⟩
  · intro s found hs
    rcases hs found rfl with ⟨e,he⟩ | rfl
    · rw [he]
      exact trivial
    · cases hc : checkRow id found with
      | error e => exact trivial
      | ok plan =>
        obtain ⟨row,containerId,oldPwd,oldUser,-,-,-,-,-,rfl⟩ := checkRow_ok hc
        show Prog.Follows (lockProtocol id) LockPhase.checked
          (Prog.bind (query .generatePassword) _) _
        refine follows_bind (fun (s : LockPhase) _ => s = .checked)
          (follows_perform fun r => ⟨LockPhase.checked,rfl,rfl⟩) ?_ fun _ _ _ => trivial
        rintro _ newPwd rfl
        refine follows_bind (fun (s : LockPhase) r => r = .ok () → s = .holding)
          (follows_perform fun r => ?_) ?_ fun _ _ _ => trivial
        · cases r with
          | error e => exact ⟨.closed,rfl,by simp⟩
          | ok u => exact ⟨.holding,by simp [lockProtocol,lockNext],fun _ => rfl⟩
        · intro s u hs
          obtain rfl := hs rfl
          have hcalls : (Prog.tryCatch (rotateLocked (planOf id row containerId oldPwd oldUser
              newPwd)) (releaseLock id)).Calls (Inner id) :=
            calls_tryCatch (calls_rotateLocked _ rfl) fun err => calls_releaseLock err ⟨rfl,rfl⟩
          refine follows_mono (follows_of_calls LockPhase.inside hcalls ?_ (.inl rfl))
            fun _ _ _ => trivial
          intro s o r hs ho
          exact lockNext_inner hs ho

structure PhaseLog (id : String) (s : LockPhase) (log : List DbEvent) : Prop where
  fresh : s = .fresh ↔ log = []
  acquired : Acquired id log → s.inside
  released : s = .released → Released id log

theorem Released.append {log : List DbEvent} (h : Released id log)
    (log' : List DbEvent) : Released id (log ++ log') := by
  rcases h with h | ⟨rotatedAt,h⟩
  · exact .inl (mem_append_left _ h)
  · exact .inr ⟨rotatedAt,mem_append_left _ h⟩

theorem released_of_unlocks (hi : Inner id ev.op) (hu : unlocks ev = true) : Released id [ev] := by
  unfold unlocks at hu
  split at hu
  · obtain ⟨rfl,-⟩ := hi
    exact .inl (by simp)
  · obtain rfl := hi
    exact .inr ⟨_,mem_singleton.mpr rfl⟩
  · cases hu

theorem PhaseLog.step {log : List DbEvent} (h : PhaseLog id s log) (hn : LockStep id s ev s') :
    PhaseLog id s' (log ++ [ev]) := by
  have hacq : Acquired id (log ++ [ev]) →
      s.inside ∨ ev = ⟨.setRotationInProgress id true,.ok ()⟩ := by
    intro ha
    rcases mem_append.mp ha with ha | ha
    · exact .inl (h.acquired ha)
    · exact .inr (mem_singleton.mp ha).symm
  cases hn with
  | acquire | hold => exact ⟨by simp,fun _ => .inl rfl,by simp⟩
  | release hi hu =>
    refine ⟨by simp,fun _ => .inr rfl,fun _ => ?_⟩
    rcases released_of_unlocks hi hu with hm | ⟨rotatedAt,hm⟩
    · exact .inl (mem_append_right _ hm)
    · exact .inr ⟨rotatedAt,mem_append_right _ hm⟩
  | rest hi => exact ⟨by simp,fun _ => .inr rfl,fun _ => (h.released rfl).append _⟩
  | _ =>
    -- the remaining steps are outside the lock and do not set it
    refine ⟨by simp,fun ha => ?_,by simp⟩
    rcases hacq ha with (hs | hs) | hev
    · cases hs
    · cases hs
    · cases hev

theorem phaseLog_after (log : List DbEvent)
    (h : (lockProtocol id).after LockPhase.fresh log = some s) : PhaseLog id s log := by
  induction log using reverseRecOn generalizing s with
  | nil =>
    cases h
    exact ⟨by simp,by simp [Acquired],by simp⟩
  | append_singleton log ev ih =>
    rw [Protocol.after_append] at h
    obtain ⟨s1,h1,h⟩ := Option.bind_eq_some_iff.mp h
    simp only [Protocol.after,Option.bind_fun_some] at h
    exact (ih h1).step (lockStep_of_next h)

/-! ### Runs -/

def Engaged (c : Rotations ι) (φ : ι → LockPhase) (i : ι) : Prop :=
  (φ i = .checked ∨ (φ i).inside) ∧ (c.prog i).done = false

structure LockInv (id : String) (c : Rotations ι) (φ : ι → LockPhase) : Prop where
  alone : ∀ i j, Engaged c φ i → Engaged c φ j → i = j
  locked : ∀ i, Engaged c φ i → φ i = .holding → c.world.lockOf id = some true
  present : ∀ i, Engaged c φ i → c.world.lockOf id ≠ none

section Step

variable [DecidableEq ι] {id : String} {c : Rotations ι} {φ : ι → LockPhase} {i : ι}
  {ev : DbEvent} {p : DbProg RotationResult} {w : World} {s : LockPhase}

theorem engaged_advance_of_ne (h : j ≠ i) :
    Engaged (c.advance i ev p w) (update φ i s) j ↔ Engaged c φ j := by
  simp [Engaged,h]

theorem engaged_advance_self : Engaged (c.advance i ev p w) (update φ i s) i ↔
      (s = .checked ∨ s.inside) ∧ p.done = false := by
  simp [Engaged]

theorem LockInv.advance_alone (hothers : ∀ j, j ≠ i → ¬Engaged c φ j)
    (hlock : s = .holding → w.lockOf id = some true) (hpresent : w.lockOf id ≠ none) :
    LockInv id (c.advance i ev p w) (update φ i s) := by
  have honly : ∀ j, Engaged (c.advance i ev p w) (update φ i s) j → j = i := by
    intro j hj
    by_contra hji
    exact hothers j hji ((engaged_advance_of_ne hji).mp hj)
  refine ⟨fun j k hj hk => (honly j hj).trans (honly k hk).symm,fun j hj hs => ?_,
    fun j _ => hpresent⟩
  obtain rfl := honly j hj
  exact hlock (by simpa using hs)

theorem LockInv.advance_closed (h : LockInv id c φ) (hw : w.lockOf id = c.world.lockOf id) :
    LockInv id (c.advance i ev p w) (update φ i .closed) := by
  have hne : ∀ j, Engaged (c.advance i ev p w) (update φ i .closed) j → j ≠ i := by
    rintro j hj rfl
    rw [engaged_advance_self] at hj
    rcases hj.1 with h | h | h <;> cases h
  have hback : ∀ j, Engaged (c.advance i ev p w) (update φ i .closed) j → Engaged c φ j :=
    fun j hj => (engaged_advance_of_ne (hne j hj)).mp hj
  refine ⟨fun j k hj hk => h.alone j k (hback j hj) (hback k hk),fun j hj hs => ?_,fun j hj => ?_⟩
  · rw [update_of_ne (hne j hj)] at hs
    exact hw.trans (h.locked j (hback j hj) hs)
  · rw [advance_world,hw]
    exact h.present j (hback j hj)

omit [DecidableEq ι] in
theorem LockInv.others (h : LockInv id c φ) (hi : Engaged c φ i) : ∀ j, j ≠ i → ¬Engaged c φ j :=
  fun j hji hj => hji (h.alone j i hj hi)

end Step

theorem lockEffect_inner (ev : DbEvent) (h : Inner id ev.op) (lock : Option Bool) :
    lockEffect id ev lock = if unlocks ev then lock.map fun _ => false else lock := by
  obtain ⟨o,r⟩ := ev
  cases r with
  | error e => cases o <;> first | rfl | simp [lockEffect,unlocks]
  | ok a =>
    cases o with
    | setRotationInProgress id' b =>
      obtain ⟨rfl,rfl⟩ := h
      simp [lockEffect,unlocks]
    | finishRotation id' rotatedAt =>
      obtain rfl := h
      simp [lockEffect,unlocks]
    | _ => rfl

theorem not_engaged_of_free (hlog : ∀ j, PhaseLog id (φ j) (c.log j)) (h : LockInv id c φ)
    (hok : ReadsBehindLock id c i) (hφ : φ i = .fresh) (hfree : c.world.lockOf id = some false) :
    ∀ j, j ≠ i → ¬Engaged c φ j := by
  intro j hji hj
  have hprog : c.InProgress j := by
    refine ⟨fun hempty => ?_,hj.2⟩
    have hfresh : φ j = .fresh := (hlog j).fresh.mpr hempty
    rcases hj.1 with he | he | he <;> rw [hfresh] at he <;> cases he
  obtain ⟨hacq,hrel⟩ := hok ((hlog i).fresh.mp hφ) j hji hprog
  have hhold : φ j = .holding :=
    ((hlog j).acquired hacq).resolve_right fun hr => hrel ((hlog j).released hr)
  rw [h.locked j hj hhold] at hfree
  cases hfree

theorem lockInv_step [DecidableEq ι] (hlog : ∀ j, PhaseLog id (φ j) (c.log j)) (h : LockInv id c φ)
    (hok : ReadsBehindLock id c i) (hp : c.prog i = .call o k) (hs : dbSem out o c.world r w')
    (hn : LockStep id (φ i) ⟨o,r⟩ s') :
    LockInv id (c.advance i ⟨o,r⟩ (k r) w') (update φ i s') := by
  have hlock := lockOf_dbSem id hs
  have hdone : (c.prog i).done = false := by
    rw [hp]
    rfl
  generalize hφ : φ i = s at hn
  cases hn with
  | rejected | unread | refused => exact h.advance_closed hlock
  | @passed row hrow =>
    -- the row read is the one stored, so nobody holds the lock, and then nobody is engaged
    have hstored : c.world.databases id = some row := by
      obtain ⟨w1,hact,hres,-⟩ := hs
      rw [hact.frame] at hres
      exact hres.symm
    have hfree : c.world.lockOf id = some false := by
      simp [World.lockOf,hstored,hrow]
    refine LockInv.advance_alone (not_engaged_of_free hlog h hok hφ hfree) (by simp) ?_
    rw [hlock]
    simp [lockEffect,hfree]
  | password =>
    have hi : Engaged c φ i := ⟨.inl hφ,hdone⟩
    refine LockInv.advance_alone (h.others hi) (by simp) ?_
    rw [hlock]
    exact h.present i hi
  | acquire =>
    have hi : Engaged c φ i := ⟨.inl hφ,hdone⟩
    have hset : w'.lockOf id = some true := by
      obtain ⟨b,hb⟩ := Option.ne_none_iff_exists'.mp (h.present i hi)
      rw [hlock]
      simp [lockEffect,hb]
    exact LockInv.advance_alone (h.others hi) (fun _ => hset) (by simp [hset])
  | hold hinner hu =>
    have hi : Engaged c φ i := ⟨.inr (.inl hφ),hdone⟩
    have hkeep : w'.lockOf id = some true := by
      rw [hlock,lockEffect_inner _ hinner,hu]
      exact h.locked i hi hφ
    exact LockInv.advance_alone (h.others hi) (fun _ => hkeep) (by simp [hkeep])
  | release hinner hu =>
    have hi : Engaged c φ i := ⟨.inr (.inl hφ),hdone⟩
    refine LockInv.advance_alone (h.others hi) (by simp) ?_
    rw [hlock,lockEffect_inner _ hinner,hu]
    simpa using h.present i hi
  | rest hinner =>
    have hi : Engaged c φ i := ⟨.inr (.inr hφ),hdone⟩
    refine LockInv.advance_alone (h.others hi) (by simp) ?_
    rw [hlock,lockEffect_inner _ hinner]
    split
    · simpa using h.present i hi
    · exact h.present i hi

theorem lockInv_reach [DecidableEq ι]
    (hr : Pool.Reach (dbSem out) (ReadsBehindLock id) (start w fun _ => rotatePassword id) c) :
    ∃ φ, (∀ i, PhaseLog id (φ i) (c.log i)) ∧ LockInv id c φ := by
  have h0 : LockInv id (start w fun _ : ι => rotatePassword id) fun _ => .fresh := by
    refine ⟨fun i _ hi => ?_,fun i hi => ?_,fun i hi => ?_⟩ <;>
      rcases hi.1 with h | h | h <;> cases h
  obtain ⟨φ,hφ,h⟩ := reach_phased (lockProtocol id) (fun _ _ => True)
    (fun _ => follows_rotatePassword id) (LockInv id) h0
    (fun c φ i o k r w' s' hφ h hok hp hs hn _ =>
      lockInv_step (fun j => phaseLog_after _ (hφ.after j)) h hok hp hs (lockStep_of_next hn)) hr
  exact ⟨φ,fun i => phaseLog_after _ (hφ.after i),h⟩

/-- Where every first read is made while every other unfinished call holds the lock, at most one
call at a time is past its acquisition and not finished. -/
theorem rotation_exclusive [DecidableEq ι] (out : Outside) (id : String) (w : World)
    (c : Rotations ι)
    (hr : Pool.Reach (dbSem out) (ReadsBehindLock id) (start w fun _ => rotatePassword id) c) :
    ∀ i j, PastLock id c i → PastLock id c j → i = j := by
  obtain ⟨φ,hlog,h⟩ := lockInv_reach hr
  intro i j hi hj
  exact h.alone i j ⟨.inr ((hlog i).acquired hi.1),hi.2⟩ ⟨.inr ((hlog j).acquired hj.1),hj.2⟩

namespace Shop

def twoRotations : Rotations (Fin 2) :=
  start (world .postgres "ploydok" "old" []) fun _ => rotatePassword "shop"

def scheduled (sched : List (Fin 2)) : Rotations (Fin 2) :=
  sched.foldl (tick (serve outside calm)) twoRotations

end Shop

open Shop

/-- The second call reads while the first holds the lock, and is turned away. -/
theorem rotation_exclusive_second_rejected : PastLock "shop" (scheduled [0, 0, 0, 1]) 0 ∧
      ∀ i j, PastLock "shop" (scheduled [0, 0, 0, 1]) i →
        PastLock "shop" (scheduled [0, 0, 0, 1]) j → i = j := by
  refine ⟨⟨.tail _ (.tail _ (.head _)),rfl⟩,?_⟩
  refine rotation_exclusive outside "shop" (world .postgres "ploydok" "old" []) _
    (reach_schedule (dbSem_serve outside calm) twoRotations [0, 0, 0, 1] ?_)
  refine ⟨?_,?_,?_,?_,trivial⟩
  · intro _ j _ hj
    exact absurd rfl hj.1
  · rintro ⟨⟩
  · rintro ⟨⟩
  · intro _ j hj _
    obtain rfl : j = 0 := by omega
    refine ⟨.tail _ (.tail _ (.head _)),?_⟩
    rintro (h | ⟨rotatedAt,h⟩)
    · change _ ∈ [_, _, _] at h
      simp at h
    · change _ ∈ [_, _, _] at h
      simp at h

/-- Two calls that both read before either writes are both past the lock. -/
theorem interleaved_rotations_overlap :
    ¬∀ (n : Nat) (out : Outside) (id : String) (w : World) (c : Rotations (Fin n)),
      Pool.Reach (dbSem out) (fun _ _ => True) (start w fun _ => rotatePassword id) c →
        ∀ i j, PastLock id c i → PastLock id c j → i = j := by
  intro hall
  have hreach : Pool.Reach (dbSem outside) (fun _ _ => True) twoRotations
      (scheduled [0, 1, 0, 0, 1, 1]) :=
    reach_schedule (dbSem_serve outside calm) _ _
      ⟨trivial,trivial,trivial,trivial,trivial,trivial,trivial⟩
  have hsame := hall 2 outside "shop" _ _ hreach 0 1
    ⟨.tail _ (.tail _ (.head _)),rfl⟩ ⟨.tail _ (.tail _ (.head _)),rfl⟩
  exact absurd hsame (by decide)

end Ploydok.Database
