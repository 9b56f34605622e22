import Mathlib.Data.List.Basic
import Mathlib.Data.List.Induction

/-! Deliveries of one body to the GitHub webhook. The route looks for a row with the hash of the
body (`routes/github.ts`); the push handler inserts the row later (`webhook-handlers/push.ts`). -/

namespace Ploydok.Webhooks.Dedup

open List Function

inductive Act where
  | insertDelivery
  | enqueue
  | other
  deriving DecidableEq

/-- How `handlePushGeneric` treats an app. -/
inductive Decision where
  | skipped
  | tag
  /-- With the calls about a job to coalesce with. -/
  | branch (calls : Nat)

def Decision.acts : Decision → List Act
  | skipped => [.insertDelivery]
  | tag => [.insertDelivery, .other, .enqueue]
  | branch calls => replicate calls .other ++ [.insertDelivery, .other, .enqueue]

def handlePushGeneric (apps : List Decision) : List Act :=
  .other :: if apps.isEmpty then [.insertDelivery] else apps.flatMap Decision.acts

inductive Event where
  | push (apps : List Decision)
  /-- Of a pull request or an installation. -/
  | unrecorded (acts : List Act)

def handleWebhook : Event → List Act
  | .push apps => handlePushGeneric apps
  | .unrecorded acts => acts.filter (· ≠ .insertDelivery)

inductive Phase where
  | arrived (event : Event)
  | deduplicated
  | handling (done todo : List Act)

structure Server (ι : Type) where
  phase : ι → Phase
  /-- The rows with the hash, inside the window. -/
  rows : Nat

namespace Server

variable {ι : Type} [DecidableEq ι] {s : Server ι} {i : ι}

/-- The next step of a delivery. -/
def step (s : Server ι) (i : ι) : Server ι :=
  match s.phase i with
  | .arrived event =>
    -- `findRecentByPayloadHash`
    if 0 < s.rows then ⟨update s.phase i .deduplicated,s.rows⟩
    else ⟨update s.phase i (.handling [] (handleWebhook event)),s.rows⟩
  | .handling done (act :: todo) =>
    ⟨update s.phase i (.handling (act :: done) todo),
      s.rows + if act = .insertDelivery then 1 else 0⟩
  | _ => s

def run (events : ι → Event) (schedule : List ι) : Server ι :=
  schedule.foldl step ⟨fun i => .arrived (events i),0⟩

def Handled (s : Server ι) (i : ι) : Prop := ∃ done todo, s.phase i = .handling done todo

def Enqueued (s : Server ι) (i : ι) : Prop :=
  ∃ done todo, s.phase i = .handling done todo ∧ .enqueue ∈ done

def HandledOnce (s : Server ι) : Prop := ∀ i j, s.Handled i → s.Handled j → i = j

/-- A delivery is looked up once the handlers of those before have inserted a row. -/
def InTurn (s : Server ι) (i : ι) : Prop := (∃ event, s.phase i = .arrived event) →
  ∀ j done todo, s.phase j = .handling done todo → .insertDelivery ∈ done

structure Inv (s : Server ι) : Prop where
  once : s.HandledOnce
  recorded : ∀ j done todo, s.phase j = .handling done todo → .insertDelivery ∈ done → 0 < s.rows

theorem Inv.set {phase : Phase} {rows : Nat} (h : s.Inv) (hrows : s.rows ≤ rows)
    (hphase : ∀ done todo, phase = .handling done todo →
      s.Handled i ∧ (.insertDelivery ∈ done → 0 < rows)) :
    (⟨update s.phase i phase,rows⟩ : Server ι).Inv where
  once := by
    have hold : ∀ j, (⟨update s.phase i phase,rows⟩ : Server ι).Handled j → s.Handled j := by
      rintro j ⟨done,todo,hj⟩
      rcases eq_or_ne j i with rfl | hne
      · exact (hphase done todo (by simpa using hj)).1
      · exact ⟨done,todo,by simpa [hne] using hj⟩
    exact fun j k hj hk => h.once j k (hold j hj) (hold k hk)
  recorded j done todo hj hinsert := by
    rcases eq_or_ne j i with rfl | hne
    · exact (hphase done todo (by simpa using hj)).2 hinsert
    · exact Nat.lt_of_lt_of_le (h.recorded j done todo (by simpa [hne] using hj) hinsert) hrows

theorem Inv.step (h : s.Inv) (hturn : s.InTurn i) : (s.step i).Inv := by
  unfold Server.step
  split
  · next event harrived =>
    split
    · exact h.set (Nat.le_refl _) nofun
    · next hrows =>
      -- each delivery handled so far would have left a row
      have honly : ∀ j, (⟨update s.phase i (.handling [] (handleWebhook event)),s.rows⟩ :
          Server ι).Handled j → j = i := by
        rintro j ⟨done,todo,hj⟩
        by_contra hne
        have hj : s.phase j = .handling done todo := by simpa [hne] using hj
        exact hrows (h.recorded j done todo hj (hturn ⟨event,harrived⟩ j done todo hj))
      refine ⟨fun j k hj hk => (honly j hj).trans (honly k hk).symm,fun j done _ hj hinsert => ?_⟩
      obtain rfl := honly j ⟨done,_,hj⟩
      obtain ⟨rfl,-⟩ : [] = done ∧ _ := by simpa using hj
      cases hinsert
  · next done act todo hhandling =>
    refine h.set (Nat.le_add_right _ _) ?_
    rintro _ _ ⟨⟩
    refine ⟨⟨done,act :: todo,hhandling⟩,fun hinsert => ?_⟩
    rcases mem_cons.mp hinsert with rfl | hinsert
    · simp
    · exact Nat.lt_add_right _ (h.recorded i done _ hhandling hinsert)
  · exact h

/-- However deliveries of one body interleave, at most one is handled if each is looked up in turn.
-/
theorem delivered_once {events : ι → Event} {schedule : List ι}
    (hturn : ∀ past i rest, schedule = past ++ i :: rest → (run events past).InTurn i) :
    (run events schedule).HandledOnce := by
  have hinv : (run events schedule).Inv := by
    induction schedule using reverseRecOn with
    | nil => exact ⟨by rintro i j ⟨_,_,⟨⟩⟩,nofun⟩
    | append_singleton past i ih =>
      have hpast := ih fun past' j rest h => hturn past' j (rest ++ [i]) (by simp [h])
      rw [run,foldl_append]
      exact hpast.step (hturn past i [] rfl)
  exact hinv.once

def pushes : Bool → Event := fun _ => .push [.branch 0]

/-- The second delivery comes once the first has inserted its row, and is answered as a duplicate;
the first goes on to enqueue its deploy. -/
theorem delivered_once_first : let s := run pushes [true, true, true, false, true, true]
    s.phase false = .deduplicated ∧ s.Enqueued true ∧ s.HandledOnce := by
  refine ⟨rfl,⟨_,_,rfl,mem_cons_self⟩,delivered_once fun past i rest h => ?_⟩
  rcases past with _ | ⟨_,_ | ⟨_,_ | ⟨_,_ | ⟨_,_ | ⟨_,_ | ⟨_,_ | _⟩⟩⟩⟩⟩⟩ <;> cases h
  · rintro - j done todo ⟨⟩
  · rintro ⟨event,⟨⟩⟩
  · rintro ⟨event,⟨⟩⟩
  · intro _ j done todo hj
    cases j <;> cases hj
    exact mem_cons_self
  · rintro ⟨event,⟨⟩⟩
  · rintro ⟨event,⟨⟩⟩

/-- Both are looked up before either has inserted its row. -/
theorem overlapping_delivered_twice : ¬ ∀ schedule i j,
    (run pushes schedule).Enqueued i → (run pushes schedule).Enqueued j → i = j := by
  intro h
  have htwice := h [true, false, true, true, true, true, false, false, false, false] true false
  cases htwice ⟨_,_,rfl,mem_cons_self⟩ ⟨_,_,rfl,mem_cons_self⟩

end Server

end Ploydok.Webhooks.Dedup
