import Mathlib.Tactic.Common

/-! The lock per app of `worker/app-deploy-lock.ts`. Every call of `withLock` puts a promise at the
tail of its key and waits for the one it found there. Between two `await`s nothing else runs, so a
call is four steps: it enters, its wait is over, its task settles, the `finally` block runs. -/

namespace Ploydok.Deploy

open Function

variable {κ T E : Type}

/-- Where a call of `withLock` stands. -/
inductive LockPhase (T E : Type) where
  | waiting
  | running
  /-- The promise of the task is settled and the `finally` block has not run. -/
  | settled (r : Except E T)
  /-- The caller has got `r`. -/
  | returned (r : Except E T)

def LockPhase.hasStarted : LockPhase T E → Bool
  | waiting => false
  | _ => true

def LockPhase.hasReturned : LockPhase T E → Bool
  | returned _ => true
  | _ => false

/-- The task of the call is under way, the `finally` block included. -/
def LockPhase.busy (p : LockPhase T E) : Bool := p.hasStarted && !p.hasReturned

structure LockCall (κ T E : Type) where
  key : κ
  /-- The promise found at the tail, `none` for `Promise.resolve()`. -/
  previous : Option Nat
  phase : LockPhase T E

/-- The map `tails`, the resolved promises, and the calls so far. The promise of a call has its
number. -/
structure KeyedLock (κ T E : Type) where
  tails : κ → Option Nat
  resolved : Nat → Bool
  calls : Nat → Option (LockCall κ T E)
  count : Nat

namespace KeyedLock

def create : KeyedLock κ T E := ⟨fun _ => none,fun _ => false,fun _ => none,0⟩

def isResolved (s : KeyedLock κ T E) : Option Nat → Bool
  | none => true
  | some p => s.resolved p

def setPhase (s : KeyedLock κ T E) (i : Nat) (c : LockCall κ T E) (phase : LockPhase T E) :
    KeyedLock κ T E :=
  { s with calls := update s.calls i (some { c with phase := phase }) }

def resume (s : KeyedLock κ T E) (i : Nat) : Option (KeyedLock κ T E) :=
  match s.calls i with
  | some c =>
    match c.phase with
    | .waiting => if s.isResolved c.previous then some (s.setPhase i c .running) else none
    | _ => none
  | none => none

def settle (s : KeyedLock κ T E) (i : Nat) (r : Except E T) : Option (KeyedLock κ T E) :=
  match s.calls i with
  | some c =>
    match c.phase with
    | .running => some (s.setPhase i c (.settled r))
    | _ => none
  | none => none

variable [DecidableEq κ]

/-- The synchronous part of `withLock`. -/
def enter (s : KeyedLock κ T E) (key : κ) : KeyedLock κ T E where
  tails := update s.tails key (some s.count)
  resolved := s.resolved
  calls := update s.calls s.count (some ⟨key,s.tails key,.waiting⟩)
  count := s.count + 1

/-- The `finally` block. -/
def finish (s : KeyedLock κ T E) (i : Nat) : Option (KeyedLock κ T E) :=
  match s.calls i with
  | some c =>
    match c.phase with
    | .settled r => some { s.setPhase i c (.returned r) with
        resolved := update s.resolved i true
        tails := if s.tails c.key = some i then update s.tails c.key none else s.tails }
    | _ => none
  | none => none

inductive Action (κ T E : Type) where
  | enter (key : κ)
  | resume (i : Nat)
  | settle (i : Nat) (r : Except E T)
  | finish (i : Nat)

def step (s : KeyedLock κ T E) : Action κ T E → Option (KeyedLock κ T E)
  | .enter key => some (s.enter key)
  | .resume i => s.resume i
  | .settle i r => s.settle i r
  | .finish i => s.finish i

def run (s : KeyedLock κ T E) : List (Action κ T E) → Option (KeyedLock κ T E)
  | [] => some s
  | a :: actions => (s.step a).bind fun s' => s'.run actions

/-- What a step does to the calls: one more call, or one call in its next phase. -/
inductive Moved (s : KeyedLock κ T E) : Action κ T E → KeyedLock κ T E → Prop
  | enter (key : κ) : Moved s (.enter key) (s.enter key)
  | resume {i : Nat} {c : LockCall κ T E} (hc : s.calls i = some c) (hp : c.phase = .waiting)
      (hr : s.isResolved c.previous = true) : Moved s (.resume i) (s.setPhase i c .running)
  | settle {i : Nat} {c : LockCall κ T E} {r : Except E T} (hc : s.calls i = some c)
      (hp : c.phase = .running) : Moved s (.settle i r) (s.setPhase i c (.settled r))
  | finish {i : Nat} {c : LockCall κ T E} {r : Except E T} (hc : s.calls i = some c)
      (hp : c.phase = .settled r) : Moved s (.finish i) { s.setPhase i c (.returned r) with
        resolved := update s.resolved i true
        tails := if s.tails c.key = some i then update s.tails c.key none else s.tails }

theorem moved_of_step {a : Action κ T E} (h : s.step a = some s') : Moved s a s' := by
  cases a with
  | enter key =>
    cases h
    exact .enter key
  | resume i =>
    revert h
    show s.resume i = some s' → _
    fun_cases resume s i <;> rintro ⟨⟩
    next hc hp hr => exact .resume hc hp hr
  | settle i r =>
    revert h
    show s.settle i r = some s' → _
    fun_cases settle s i r <;> rintro ⟨⟩
    next hc hp => exact .settle hc hp
  | finish i =>
    revert h
    show s.finish i = some s' → _
    fun_cases finish s i <;> rintro ⟨⟩
    next hc _ hp => exact .finish hc hp

structure Inv (s : KeyedLock κ T E) : Prop where
  bound : ∀ i c, s.calls i = some c → i < s.count
  tail : ∀ k i, s.tails k = some i → ∃ c, s.calls i = some c ∧ c.key = k ∧
    c.phase.hasReturned = false ∧ ∀ j d, s.calls j = some d → d.key = k → j ≤ i
  vacant : ∀ k, s.tails k = none → ∀ i c, s.calls i = some c → c.key = k →
    c.phase.hasReturned = true
  linked : ∀ i c p, s.calls i = some c → c.previous = some p → p < i ∧
    ∃ d, s.calls p = some d ∧ d.key = c.key ∧
      ∀ j e, s.calls j = some e → e.key = c.key → j < i → j ≤ p
  first : ∀ i c, s.calls i = some c → c.previous = none → ∀ j d, s.calls j = some d →
    d.key = c.key → j < i → d.phase.hasReturned = true
  resolved : ∀ i, s.resolved i = true ↔ ∃ c, s.calls i = some c ∧ c.phase.hasReturned = true
  ordered : ∀ i j c d, s.calls i = some c → s.calls j = some d → d.key = c.key → j < i →
    c.phase.hasStarted = true → d.phase.hasReturned = true

omit [DecidableEq κ] in
theorem inv_create : Inv (create : KeyedLock κ T E) := by
  constructor <;> simp [create]

section Step

variable {s : KeyedLock κ T E} {i j : Nat} {c d : LockCall κ T E} {p : LockPhase T E} {key : κ}

theorem calls_enter : (s.enter key).calls j = some d ↔
    (j = s.count ∧ d = ⟨key,s.tails key,.waiting⟩) ∨ (j ≠ s.count ∧ s.calls j = some d) := by
  by_cases hj : j = s.count
  · subst hj
    simp [enter,eq_comm]
  · simp [enter,hj]

attribute [local simp] KeyedLock.enter

theorem Inv.enter (h : Inv s) (key : κ) : Inv (s.enter key) := by
  have hold : ∀ j d, s.calls j = some d → (s.enter key).calls j = some d := by
    intro j d hd
    exact calls_enter.mpr (.inr ⟨Nat.ne_of_lt (h.bound j d hd),hd⟩)
  constructor
  · intro j d hd
    rcases calls_enter.mp hd with ⟨rfl,-⟩ | ⟨-,hd⟩
    · exact Nat.lt_succ_self _
    · exact Nat.lt_succ_of_lt (h.bound j d hd)
  · intro k j hj
    by_cases hk : k = key
    · subst hk
      obtain rfl : s.count = j := by simpa using hj
      refine ⟨_,calls_enter.mpr (.inl ⟨rfl,rfl⟩),rfl,rfl,fun m e he _ => ?_⟩
      rcases calls_enter.mp he with ⟨rfl,-⟩ | ⟨-,he⟩
      · exact Nat.le_refl _
      · exact Nat.le_of_lt (h.bound m e he)
    · have hj : s.tails k = some j := by simpa [hk] using hj
      obtain ⟨d,hd,hkey,hphase,hlast⟩ := h.tail k j hj
      refine ⟨d,hold j d hd,hkey,hphase,fun m e he hek => ?_⟩
      rcases calls_enter.mp he with ⟨-,rfl⟩ | ⟨-,he⟩
      · exact absurd hek.symm hk
      · exact hlast m e he hek
  · intro k hk j d hd hdk
    rcases calls_enter.mp hd with ⟨-,rfl⟩ | ⟨-,hd⟩
    · subst hdk
      simp at hk
    · have hne : k ≠ key := by
        rintro rfl
        simp at hk
      exact h.vacant k (by simpa [hne] using hk) j d hd hdk
  · intro j d q hd hq
    rcases calls_enter.mp hd with ⟨rfl,rfl⟩ | ⟨-,hd⟩
    · obtain ⟨e,he,hek,-,hlast⟩ := h.tail key q hq
      refine ⟨h.bound q e he,e,hold q e he,hek,fun m f hf hfk hm => ?_⟩
      rcases calls_enter.mp hf with ⟨rfl,-⟩ | ⟨-,hf⟩
      · exact absurd hm (Nat.lt_irrefl _)
      · exact hlast m f hf hfk
    · obtain ⟨hlt,e,he,hek,hlast⟩ := h.linked j d q hd hq
      refine ⟨hlt,e,hold q e he,hek,fun m f hf hfk hm => ?_⟩
      rcases calls_enter.mp hf with ⟨rfl,-⟩ | ⟨-,hf⟩
      · exact absurd (Nat.lt_trans hm (h.bound j d hd)) (Nat.lt_irrefl _)
      · exact hlast m f hf hfk hm
  · intro j d hd hnone m e he hek hm
    rcases calls_enter.mp he with ⟨rfl,-⟩ | ⟨-,he⟩
    · rcases calls_enter.mp hd with ⟨rfl,-⟩ | ⟨-,hd⟩
      · exact absurd hm (Nat.lt_irrefl _)
      · exact absurd (Nat.lt_trans hm (h.bound j d hd)) (Nat.lt_irrefl _)
    · rcases calls_enter.mp hd with ⟨rfl,rfl⟩ | ⟨-,hd⟩
      · exact h.vacant key hnone m e he hek
      · exact h.first j d hd hnone m e he hek hm
  · intro j
    refine (h.resolved j).trans ⟨?_,?_⟩
    · rintro ⟨d,hd,hret⟩
      exact ⟨d,hold j d hd,hret⟩
    · rintro ⟨d,hd,hret⟩
      rcases calls_enter.mp hd with ⟨-,rfl⟩ | ⟨-,hd⟩
      · cases hret
      · exact ⟨d,hd,hret⟩
  · intro j m d e hd he hek hm hstarted
    rcases calls_enter.mp hd with ⟨-,rfl⟩ | ⟨-,hd⟩
    · cases hstarted
    · rcases calls_enter.mp he with ⟨rfl,-⟩ | ⟨-,he⟩
      · exact absurd (Nat.lt_trans hm (h.bound j d hd)) (Nat.lt_irrefl _)
      · exact h.ordered j m d e hd he hek hm hstarted

omit [DecidableEq κ] in
theorem calls_setPhase : (s.setPhase i c p).calls j = some d ↔
    (j = i ∧ d = { c with phase := p }) ∨ (j ≠ i ∧ s.calls j = some d) := by
  by_cases hj : j = i
  · subst hj
    simp [setPhase,eq_comm]
  · simp [setPhase,hj]

omit [DecidableEq κ] in
theorem row_before (hc : s.calls i = some c) (hd : (s.setPhase i c p).calls j = some d) :
    ∃ d0, s.calls j = some d0 ∧ d.key = d0.key ∧ d.previous = d0.previous ∧
      (d.phase = d0.phase ∨ (j = i ∧ d.phase = p)) := by
  rcases calls_setPhase.mp hd with ⟨rfl,rfl⟩ | ⟨-,hd⟩
  · exact ⟨c,hc,rfl,rfl,.inr ⟨rfl,rfl⟩⟩
  · exact ⟨d,hd,rfl,rfl,.inl rfl⟩

omit [DecidableEq κ] in
theorem row_after (hc : s.calls i = some c) (hret : c.phase.hasReturned = false)
    (hd : s.calls j = some d) : ∃ d', (s.setPhase i c p).calls j = some d' ∧ d'.key = d.key ∧
      (d.phase.hasReturned = true → d' = d) := by
  by_cases hj : j = i
  · subst hj
    rw [hc] at hd
    cases hd
    exact ⟨_,calls_setPhase.mpr (.inl ⟨rfl,rfl⟩),rfl,fun h => by simp [hret] at h⟩
  · exact ⟨d,calls_setPhase.mpr (.inr ⟨hj,hd⟩),rfl,fun _ => rfl⟩

omit [DecidableEq κ] in
theorem returned_after (hc : s.calls i = some c) (hret : c.phase.hasReturned = false)
    (hd : s.calls j = some d) (hreturned : d.phase.hasReturned = true)
    (hd' : (s.setPhase i c p).calls j = some d') : d'.phase.hasReturned = true := by
  obtain ⟨e,he,-,heq⟩ := row_after hc hret hd
  rw [he] at hd'
  cases hd'
  rw [heq hreturned]
  exact hreturned

omit [DecidableEq κ] in
theorem Inv.move (h : Inv s) (hc : s.calls i = some c) (hret : c.phase.hasReturned = false)
    (hstart : p.hasStarted = true → ∀ m e, s.calls m = some e → e.key = c.key → m < i →
      e.phase.hasReturned = true) (hcalls : s'.calls = (s.setPhase i c p).calls)
    (hcount : s'.count = s.count)
    (htail : ∀ k j, s'.tails k = some j → ∃ d, s'.calls j = some d ∧ d.key = k ∧
      d.phase.hasReturned = false ∧ ∀ m e, s'.calls m = some e → e.key = k → m ≤ j)
    (hvacant : ∀ k, s'.tails k = none → ∀ j d, s'.calls j = some d → d.key = k →
      d.phase.hasReturned = true)
    (hresolved : ∀ j, s'.resolved j = true ↔ ∃ d, s'.calls j = some d ∧ d.phase.hasReturned = true) :
    Inv s' := by
  refine ⟨?_,htail,hvacant,?_,?_,hresolved,?_⟩
  · intro j d hd
    rw [hcalls] at hd
    obtain ⟨d0,hd0,-⟩ := row_before hc hd
    rw [hcount]
    exact h.bound j d0 hd0
  · intro j d q hd hq
    rw [hcalls] at hd
    obtain ⟨d0,hd0,hkey,hprev,-⟩ := row_before hc hd
    obtain ⟨hlt,e,he,hek,hlast⟩ := h.linked j d0 q hd0 (hprev ▸ hq)
    obtain ⟨e',he',hek',-⟩ := row_after hc hret he
    refine ⟨hlt,e',by rw [hcalls]; exact he',by rw [hek',hek,hkey],fun m f hf hfk hm => ?_⟩
    rw [hcalls] at hf
    obtain ⟨f0,hf0,hfkey,-⟩ := row_before hc hf
    exact hlast m f0 hf0 (by rw [← hfkey,hfk,hkey]) hm
  · intro j d hd hnone m e he hek hm
    rw [hcalls] at hd he
    obtain ⟨d0,hd0,hkey,hprev,-⟩ := row_before hc hd
    obtain ⟨e0,he0,hekey,-⟩ := row_before hc he
    have hreturned := h.first j d0 hd0 (hprev ▸ hnone) m e0 he0 (by rw [← hekey,hek,hkey]) hm
    exact returned_after hc hret he0 hreturned he
  · intro j m d e hd he hek hm hstarted
    rw [hcalls] at hd he
    obtain ⟨d0,hd0,hkey,-,hphase⟩ := row_before hc hd
    obtain ⟨e0,he0,hekey,-⟩ := row_before hc he
    have hsame : e0.key = d0.key := by rw [← hekey,hek,hkey]
    refine returned_after hc hret he0 ?_ he
    rcases hphase with hphase | ⟨rfl,hphase⟩
    · exact h.ordered j m d0 e0 hd0 he0 hsame hm (hphase ▸ hstarted)
    · rw [hc] at hd0
      cases hd0
      exact hstart (hphase ▸ hstarted) m e0 he0 hsame hm

omit [DecidableEq κ] in
theorem Inv.advance (h : Inv s) (hc : s.calls i = some c) (hret : c.phase.hasReturned = false)
    (hp : p.hasReturned = false)
    (hstart : p.hasStarted = true → ∀ m e, s.calls m = some e → e.key = c.key → m < i →
      e.phase.hasReturned = true) : Inv (s.setPhase i c p) := by
  have hback : ∀ j d, (s.setPhase i c p).calls j = some d → ∃ d0, s.calls j = some d0 ∧
      d.key = d0.key ∧ d.phase.hasReturned = d0.phase.hasReturned := by
    intro j d hd
    obtain ⟨d0,hd0,hkey,-,hphase | ⟨rfl,hphase⟩⟩ := row_before hc hd
    · exact ⟨d0,hd0,hkey,by rw [hphase]⟩
    · rw [hc] at hd0
      cases hd0
      exact ⟨c,hc,hkey,by rw [hphase,hp,hret]⟩
  refine h.move hc hret hstart rfl rfl ?_ ?_ ?_
  · intro k j hj
    obtain ⟨d,hd,hkey,hphase,hlast⟩ := h.tail k j hj
    obtain ⟨d',hd',hkey',-⟩ := row_after hc hret hd
    obtain ⟨d0,hd0,-,hphase'⟩ := hback j d' hd'
    rw [hd] at hd0
    cases hd0
    refine ⟨d',hd',hkey'.trans hkey,hphase'.trans hphase,fun m e he hek => ?_⟩
    obtain ⟨e0,he0,hekey,-⟩ := hback m e he
    exact hlast m e0 he0 (hekey ▸ hek)
  · intro k hk j d hd hdk
    obtain ⟨d0,hd0,hkey,hphase⟩ := hback j d hd
    rw [hphase]
    exact h.vacant k hk j d0 hd0 (hkey ▸ hdk)
  · intro j
    refine (h.resolved j).trans ⟨?_,?_⟩
    · rintro ⟨d,hd,hreturned⟩
      obtain ⟨d',hd',-,heq⟩ := row_after hc hret hd
      exact ⟨d',hd',by rw [heq hreturned]; exact hreturned⟩
    · rintro ⟨d,hd,hreturned⟩
      obtain ⟨d0,hd0,-,hphase⟩ := hback j d hd
      exact ⟨d0,hd0,hphase ▸ hreturned⟩

/-- The `finally` block: the tail is taken away only if it is the call's own promise. -/
theorem Inv.finish (h : Inv s) (hc : s.calls i = some c) (hp : c.phase = .settled r) :
    Inv { s.setPhase i c (.returned r) with
      resolved := update s.resolved i true
      tails := if s.tails c.key = some i then update s.tails c.key none else s.tails } := by
  have hret : c.phase.hasReturned = false := by rw [hp]; rfl
  have hbefore : ∀ m e, s.calls m = some e → e.key = c.key → m < i →
      e.phase.hasReturned = true := fun m e he hek hm =>
    h.ordered i m c e hc he hek hm (by rw [hp]; rfl)
  refine h.move hc hret (fun _ => hbefore) rfl rfl ?_ ?_ ?_
  · intro k j hj
    have hold : s.tails k = some j ∧ j ≠ i := by
      dsimp only at hj
      split at hj
      · next hlast =>
        have hk : k ≠ c.key := by
          rintro rfl
          simp at hj
        have hj : s.tails k = some j := by simpa [hk] using hj
        refine ⟨hj,?_⟩
        rintro rfl
        obtain ⟨d,hd,hdk,-⟩ := h.tail k j hj
        rw [hc] at hd
        cases hd
        exact hk hdk.symm
      · next hlast =>
        refine ⟨hj,?_⟩
        rintro rfl
        obtain ⟨d,hd,hdk,-⟩ := h.tail k j hj
        rw [hc] at hd
        cases hd
        exact hlast (hdk ▸ hj)
    obtain ⟨d,hd,hkey,hphase,hlast⟩ := h.tail k j hold.1
    refine ⟨d,calls_setPhase.mpr (.inr ⟨hold.2,hd⟩),hkey,hphase,fun m e he hek => ?_⟩
    obtain ⟨e0,he0,hekey,-⟩ := row_before hc he
    exact hlast m e0 he0 (hekey ▸ hek)
  · intro k hk j d hd hdk
    rcases calls_setPhase.mp hd with ⟨-,rfl⟩ | ⟨hji,hd⟩
    · rfl
    · split at hk
      · next hlast =>
        by_cases hkey : k = c.key
        · obtain ⟨-,-,-,-,hmax⟩ := h.tail _ i hlast
          have hle : j ≤ i := hmax j d hd (hdk.trans hkey)
          exact hbefore j d hd (hdk.trans hkey) (Nat.lt_of_le_of_ne hle hji)
        · exact h.vacant k (by simpa [hkey] using hk) j d hd hdk
      · exact h.vacant k hk j d hd hdk
  · intro j
    by_cases hj : j = i
    · subst hj
      refine ⟨fun _ => ⟨_,calls_setPhase.mpr (.inl ⟨rfl,rfl⟩),rfl⟩,fun _ => by simp⟩
    · simp only [update_of_ne hj]
      refine (h.resolved j).trans ⟨?_,?_⟩
      · rintro ⟨d,hd,hreturned⟩
        exact ⟨d,calls_setPhase.mpr (.inr ⟨hj,hd⟩),hreturned⟩
      · rintro ⟨d,hd,hreturned⟩
        rcases calls_setPhase.mp hd with ⟨hji,-⟩ | ⟨-,hd⟩
        · exact absurd hji hj
        · exact ⟨d,hd,hreturned⟩

omit [DecidableEq κ] in
theorem Inv.isResolved_iff (h : Inv s) (hc : s.calls i = some c) : s.isResolved c.previous = true ↔
    ∀ m e, s.calls m = some e → e.key = c.key → m < i → e.phase.hasReturned = true := by
  cases hprev : c.previous with
  | none => exact ⟨fun _ => h.first i c hc hprev,fun _ => rfl⟩
  | some q =>
    obtain ⟨hlt,d,hd,hdk,hlast⟩ := h.linked i c q hc hprev
    refine (h.resolved q).trans ⟨?_,fun hall => ⟨d,hd,hall q d hd hdk hlt⟩⟩
    rintro ⟨d',hd',hreturned⟩ m e he hek hm
    rw [hd] at hd'
    cases hd'
    have hstarted : d.phase.hasStarted = true := by
      cases hphase : d.phase with
      | returned r => rfl
      | _ => simp [hphase,LockPhase.hasReturned] at hreturned
    rcases Nat.lt_or_eq_of_le (hlast m e he hek hm) with hmq | rfl
    · exact h.ordered q m d e hd he (hek.trans hdk.symm) hmq hstarted
    · rw [hd] at he
      cases he
      exact hreturned

theorem Inv.step (h : Inv s) {a : Action κ T E} (hstep : s.step a = some s') : Inv s' := by
  cases moved_of_step hstep with
  | enter key => exact h.enter key
  | resume hc hp hr =>
    exact h.advance hc (by rw [hp]; rfl) rfl fun _ => (h.isResolved_iff hc).mp hr
  | @settle i c r hc hp =>
    refine h.advance hc (by rw [hp]; rfl) rfl fun _ m e he hek hm => ?_
    exact h.ordered i m c e hc he hek hm (by rw [hp]; rfl)
  | finish hc hp => exact h.finish hc hp

theorem Inv.run (h : Inv s) (hrun : s.run actions = some s') : Inv s' := by
  induction actions generalizing s with
  | nil =>
    cases hrun
    exact h
  | cons a actions ih =>
    obtain ⟨s1,hstep,hrest⟩ := Option.bind_eq_some_iff.mp hrun
    exact ih (h.step hstep) hrest

def Told (actions : List (Action κ T E)) (i : Nat) : Option (LockPhase T E) → Prop
  | none | some .waiting | some .running =>
    (∀ r, .settle i r ∉ actions) ∧ .finish i ∉ actions
  | some (.settled r) => (∀ r', .settle i r' ∈ actions ↔ r' = r) ∧ .finish i ∉ actions
  | some (.returned r) => (∀ r', .settle i r' ∈ actions ↔ r' = r) ∧ .finish i ∈ actions

def phaseOf (s : KeyedLock κ T E) (i : Nat) : Option (LockPhase T E) := (s.calls i).map (·.phase)

variable {s' : KeyedLock κ T E} {actions : List (Action κ T E)} {a : Action κ T E}

omit [DecidableEq κ] in
theorem phaseOf_setPhase (j : Nat) :
    (s.setPhase i c p).phaseOf j = if j = i then some p else s.phaseOf j := by
  by_cases hj : j = i
  · subst hj
    simp [phaseOf,setPhase]
  · simp [phaseOf,setPhase,hj]

omit [DecidableEq κ] in
theorem Told.append (h : Told actions i phase) (hsettle : ∀ r, a ≠ .settle i r)
    (hfinish : a ≠ .finish i) : Told (actions ++ [a]) i phase := by
  have hs : ∀ r, .settle i r ∈ actions ++ [a] ↔ .settle i r ∈ actions := by
    intro r
    simp [(hsettle r).symm]
  have hf : .finish i ∈ actions ++ [a] ↔ .finish i ∈ actions := by
    simp [hfinish.symm]
  unfold Told at h ⊢
  split at h <;> simpa only [hs,hf] using h

theorem told_step (hinv : Inv s) (h : ∀ i, Told actions i (s.phaseOf i))
    (hstep : s.step a = some s') (j : Nat) : Told (actions ++ [a]) j (s'.phaseOf j) := by
  cases moved_of_step hstep with
  | enter key =>
    refine Told.append ?_ nofun nofun
    by_cases hj : j = s.count
    · -- the number of the new call has not been used
      have hnew : s.phaseOf j = none := by
        unfold phaseOf
        cases hd : s.calls j with
        | none => rfl
        | some d => exact absurd (hinv.bound j d hd) (by omega)
      have htold := h j
      rw [hnew] at htold
      subst hj
      simp only [phaseOf,KeyedLock.enter,update_self,Option.map_some]
      exact htold
    · simpa [phaseOf,hj] using h j
  | @resume i c hc hp hr =>
    refine Told.append ?_ nofun nofun
    rw [phaseOf_setPhase]
    split
    · next hj =>
      have htold := h i
      simp only [phaseOf,hc,Option.map_some,hp] at htold
      rw [hj]
      exact htold
    · exact h j
  | @settle i c r hc hp =>
    rw [phaseOf_setPhase]
    split
    · next hj =>
      have htold := h i
      simp only [phaseOf,hc,Option.map_some,hp] at htold
      rw [hj]
      refine ⟨fun r' => ?_,?_⟩
      · simp [htold.1 r']
      · simp [htold.2]
    · next hj =>
      refine (h j).append (fun r' heq => ?_) nofun
      cases heq
      exact hj rfl
  | @finish i c r hc hp =>
    show Told _ j ((s.setPhase i c (.returned r)).phaseOf j)
    rw [phaseOf_setPhase]
    split
    · next hj =>
      have htold := h i
      simp only [phaseOf,hc,Option.map_some,hp] at htold
      rw [hj]
      refine ⟨fun r' => ?_,by simp⟩
      simp [htold.1 r']
    · next hj =>
      refine (h j).append nofun fun heq => ?_
      cases heq
      exact hj rfl

theorem told_run (hinv : Inv s) (done : List (Action κ T E)) (h : ∀ i, Told done i (s.phaseOf i))
    (hrun : s.run actions = some s') (j : Nat) : Told (done ++ actions) j (s'.phaseOf j) := by
  induction actions generalizing s done with
  | nil =>
    cases hrun
    simpa using h j
  | cons a actions ih =>
    obtain ⟨s1,hstep,hrest⟩ := Option.bind_eq_some_iff.mp hrun
    have := ih (hinv.step hstep) (done ++ [a]) (told_step hinv h hstep) hrest
    simpa using this

omit [DecidableEq κ] in
theorem returned_iff_of_told (h : Told actions i phase) (r : Except E T) :
    phase = some (.returned r) ↔ .settle i r ∈ actions ∧ .finish i ∈ actions := by
  unfold Told at h
  split at h
  · simp [h.2]
  · simp [h.2]
  · simp [h.2]
  · simp [h.2]
  · next r' =>
    simp only [h.1 r,h.2,and_true,Option.some.injEq,LockPhase.returned.injEq]
    exact eq_comm

end Step

structure Serves (actions : List (Action κ T E)) (s : KeyedLock κ T E) : Prop where
  /-- Two tasks of one key are never under way together. -/
  exclusive : ∀ i j c d, s.calls i = some c → s.calls j = some d → c.key = d.key →
    c.phase.busy = true → d.phase.busy = true → i = j
  /-- A task starts after all earlier ones of its key have returned. -/
  ordered : ∀ i j c d, s.calls i = some c → s.calls j = some d → d.key = c.key → j < i →
    c.phase.hasStarted = true → d.phase.hasReturned = true
  /-- A caller gets what its own task gave, value or error. -/
  own : ∀ i r, s.phaseOf i = some (.returned r) ↔ .settle i r ∈ actions ∧ .finish i ∈ actions
  /-- A waiting call can go on as soon as the earlier calls of its key have returned. -/
  waits : ∀ i c, s.calls i = some c → c.phase = .waiting →
    ((s.resume i).isSome = true ↔ ∀ j d, s.calls j = some d → d.key = c.key → j < i →
      d.phase.hasReturned = true)
  /-- A task that has settled lets its caller go on at once. -/
  returns : ∀ i c r, s.calls i = some c → c.phase = .settled r → (s.finish i).isSome = true
  /-- The map has an entry for a key exactly while a call of the key has not returned. -/
  entries : ∀ k, s.tails k = none ↔ ∀ i c, s.calls i = some c → c.key = k →
    c.phase.hasReturned = true

/-- Every schedule of calls. -/
theorem with_lock_serves (actions : List (Action κ T E)) (s : KeyedLock κ T E)
    (h : create.run actions = some s) : Serves actions s := by
  have hinv : Inv s := inv_create.run h
  have htold := told_run inv_create [] (fun _ => ⟨nofun,nofun⟩) h
  refine ⟨?_,hinv.ordered,fun i r => returned_iff_of_told (htold i) r,?_,?_,?_⟩
  · intro i j c d hc hd hkey hbusy hbusy'
    simp only [LockPhase.busy,Bool.and_eq_true,Bool.not_eq_true'] at hbusy hbusy'
    rcases Nat.lt_trichotomy i j with hlt | heq | hlt
    · have := hinv.ordered j i d c hd hc hkey hlt hbusy'.1
      simp [this] at hbusy
    · exact heq
    · have := hinv.ordered i j c d hc hd hkey.symm hlt hbusy.1
      simp [this] at hbusy'
  · intro i c hc hp
    rw [← hinv.isResolved_iff hc]
    simp only [resume,hc,hp]
    split
    · next hr => simp [hr]
    · next hr => simp [hr]
  · intro i c r hc hp
    simp [KeyedLock.finish,hc,hp]
  · intro k
    refine ⟨hinv.vacant k,fun hall => ?_⟩
    cases htail : s.tails k with
    | none => rfl
    | some i =>
      obtain ⟨c,hc,hkey,hret,-⟩ := hinv.tail k i htail
      simp [hall i c hc hkey] at hret

def shopDeploys : List (Action String String String) :=
  [.enter "shop", .enter "shop", .enter "blog", .resume 0, .resume 2, .settle 0 (.error "clone failed"),
    .finish 0, .resume 1, .settle 1 (.ok "live"), .finish 1, .settle 2 (.ok "live"), .finish 2]

theorem with_lock_serves_shop : ∃ s, create.run shopDeploys = some s ∧ Serves shopDeploys s ∧
    s.phaseOf 0 = some (.returned (.error "clone failed")) ∧
    s.phaseOf 1 = some (.returned (.ok "live")) ∧ s.tails "shop" = none ∧ s.tails "blog" = none :=
  ⟨_,rfl,with_lock_serves _ _ rfl,rfl,rfl,rfl,rfl⟩

end KeyedLock

end Ploydok.Deploy
