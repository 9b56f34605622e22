import Mathlib.Data.List.Basic
import Mathlib.Data.List.Induction

/-! The restart budget of `worker/jobs/auto-heal.ts`: a script that Redis runs atomically on a
sorted set of the granted times, and pure functions that state the budget on a list. Both decide
alike, and no window holds more than the budget. -/

namespace Ploydok.AutoHeal

open List Function

def maxRestarts : Nat := 3

def windowMs : Int := 10 * 60000

def recent (cutoff : Int) (timestamps : List Int) : List Int := timestamps.filter (cutoff < ·)

def withinBudget (timestamps : List Int) (nowMs : Int) (maxRestarts : Nat) (windowMs : Int) : Bool :=
  (recent (nowMs - windowMs) timestamps).length < maxRestarts

def recordRestart (windowMs : Int) (timestamps : List Int) (nowMs : Int) : List Int :=
  recent (nowMs - windowMs) timestamps ++ [nowMs]

structure Budget where
  scores : List Int
  expiresAt : Int

structure Attempt where
  appId : String
  nowMs : Int
  /-- Redis has dropped the set if it was expired. -/
  swept : Bool

def Budget.live (b : Budget) (c : Attempt) : List Int :=
  if c.swept ∧ b.expiresAt ≤ c.nowMs then [] else b.scores

/-- `BUDGET_SCRIPT`. -/
def reserveRestartAttempt (b : Budget) (c : Attempt) : Bool × Budget :=
  let scores := recent (c.nowMs - windowMs) (b.live c)
  if scores.length ≥ maxRestarts then (false, { b with scores := scores })
  else (true, ⟨scores ++ [c.nowMs],c.nowMs + windowMs⟩)

structure Redis where
  budget : String → Budget := fun _ => ⟨[],0⟩
  granted : String → List Int := fun _ => []

def Redis.step (r : Redis) (c : Attempt) : Redis :=
  let (ok, b) := reserveRestartAttempt (r.budget c.appId) c
  ⟨update r.budget c.appId b,
    if ok then update r.granted c.appId (r.granted c.appId ++ [c.nowMs]) else r.granted⟩

def run (cs : List Attempt) : Redis := cs.foldl Redis.step {}

theorem recent_append (cutoff : Int) (xs ys : List Int) :
    recent cutoff (xs ++ ys) = recent cutoff xs ++ recent cutoff ys := filter_append ..

theorem recent_recent (h : cutoff ≤ later) (xs : List Int) :
    recent later (recent cutoff xs) = recent later xs := by
  rw [recent,recent,filter_filter]
  apply filter_congr
  intro x _
  simp only [← Bool.decide_and,decide_eq_decide]
  omega

theorem recent_eq_nil (h : ∀ x ∈ xs, x ≤ cutoff) : recent cutoff xs = [] := by
  rw [recent,filter_eq_nil_iff]
  intro x hx
  simpa using h x hx

variable {cs : List Attempt} {b : Budget} {granted : List Int} {c : Attempt}

theorem recent_foldl_recordRestart (hsorted : granted.Pairwise (· ≤ ·)) (ht : ∀ g ∈ granted, g ≤ t) :
    recent (t - windowMs) (granted.foldl (recordRestart windowMs) []) =
      recent (t - windowMs) granted := by
  induction granted using reverseRecOn with
  | nil => rfl
  | append_singleton granted g ih =>
    have hg : g - windowMs ≤ t - windowMs := by
      have := ht g (by simp)
      omega
    rw [foldl_append,foldl_cons,foldl_nil,recordRestart,recent_append,
      recent_recent hg,recent_append,ih (pairwise_append.mp hsorted).1 fun g' hg' =>
        ht g' (by simp [hg'])]

/-- What an attempt after `cs` can see of a set is what was granted. -/
structure Agrees (cs : List Attempt) (b : Budget) (granted : List Int) : Prop where
  sorted : granted.Pairwise (· ≤ ·)
  past : ∀ t, (∀ c ∈ cs, c.nowMs ≤ t) → ∀ g ∈ granted, g ≤ t
  live : ∀ c, (∀ c' ∈ cs, c'.nowMs ≤ c.nowMs) →
    recent (c.nowMs - windowMs) (b.live c) = recent (c.nowMs - windowMs) granted
  bounded : ∀ a, (granted.filter fun g => a ≤ g ∧ g < a + windowMs).length ≤ maxRestarts

theorem Agrees.mono (h : Agrees cs b granted) (c : Attempt) : Agrees (cs ++ [c]) b granted where
  sorted := h.sorted
  past t ht := h.past t fun c hc => ht c (mem_append_left _ hc)
  live t ht := h.live t fun c hc => ht c (mem_append_left _ hc)
  bounded := h.bounded

theorem Agrees.refused (h : Agrees cs b granted) :
    Agrees (cs ++ [c]) { b with scores := recent (c.nowMs - windowMs) granted } granted where
  sorted := h.sorted
  past := (h.mono c).past
  bounded := h.bounded
  live c2 h2 := by
    have hnow : c.nowMs ≤ c2.nowMs := h2 c (by simp)
    have hlive := (h.mono c).live c2 h2
    unfold Budget.live at hlive ⊢
    split_ifs at hlive ⊢
    · exact hlive
    · exact recent_recent (by omega) granted

theorem Agrees.grant (h : Agrees cs b granted) (hc : ∀ c' ∈ cs, c'.nowMs ≤ c.nowMs)
    (hroom : (recent (c.nowMs - windowMs) granted).length < maxRestarts) :
    Agrees (cs ++ [c]) ⟨recent (c.nowMs - windowMs) granted ++ [c.nowMs],c.nowMs + windowMs⟩
      (granted ++ [c.nowMs]) where
  sorted := by simpa [pairwise_append] using ⟨h.sorted,h.past _ hc⟩
  past t ht g hg := by
    rcases mem_append.mp hg with hg | hg
    · exact (h.mono c).past t ht g hg
    · exact mem_singleton.mp hg ▸ ht c (by simp)
  live c2 h2 := by
    have hnow : c.nowMs ≤ c2.nowMs := h2 c (by simp)
    unfold Budget.live
    split_ifs with hswept
    · -- everything granted is out of the window once the set has expired
      refine (recent_eq_nil ?_).symm
      intro g hg
      have hexpired : c.nowMs + windowMs ≤ c2.nowMs := hswept.2
      have hpast := h.past _ hc
      rcases mem_append.mp hg with hg | hg
      · have := hpast g hg
        omega
      · have := mem_singleton.mp hg
        omega
    · rw [recent_append,recent_recent (by omega),recent_append]
  bounded a := by
    rw [filter_append,length_append]
    by_cases hin : a ≤ c.nowMs ∧ c.nowMs < a + windowMs
    · have hle : (granted.filter fun g => a ≤ g ∧ g < a + windowMs).length ≤
          (recent (c.nowMs - windowMs) granted).length := by
        apply List.Sublist.length_le
        apply monotone_filter_right
        intro g hg
        simp only [decide_eq_true_eq] at hg ⊢
        omega
      simp only [hin,and_self,decide_true,filter_cons_of_pos,filter_nil, length_singleton]
      omega
    · simpa [hin] using h.bounded a

theorem agrees_run (hcs : cs.Pairwise (·.nowMs ≤ ·.nowMs)) (appId : String) :
    Agrees cs ((run cs).budget appId) ((run cs).granted appId) := by
  induction cs using reverseRecOn with
  | nil => exact ⟨.nil,by simp [run],fun c _ => congrArg _ (ite_self []),by simp [run]⟩
  | append_singleton cs c ih =>
    rw [pairwise_append] at hcs
    have hc : ∀ c' ∈ cs, c'.nowMs ≤ c.nowMs := fun c' hc' => hcs.2.2 c' hc' c (by simp)
    have hold := ih hcs.1
    have hrun : run (cs ++ [c]) = (run cs).step c := by simp [run]
    rw [hrun,Redis.step]
    by_cases happ : appId = c.appId
    · subst happ
      simp only [reserveRestartAttempt,update_self,hold.live c hc]
      by_cases hfull : maxRestarts ≤ (recent (c.nowMs - windowMs) ((run cs).granted c.appId)).length
      · simpa [hfull] using hold.refused
      · simpa [hfull] using hold.grant hc (Nat.lt_of_not_le hfull)
    · have hmono := hold.mono c
      simp only [update_of_ne happ]
      split_ifs <;> simpa [update_of_ne happ] using hmono

end Ploydok.AutoHeal
