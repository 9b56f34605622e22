import Ploydok.Effect.Program
import Mathlib.Logic.Pairwise

/-! Interleavings. A pool is a world shared by any family of programs; one step lets one program
issue its next call. Runs are restricted by a condition on the state before each step. A program
that follows a protocol (an automaton over its calls) can be replaced by its protocol state. -/

namespace Ploydok.Effect

open Function

variable {S : Sig} {ε α ι W : Type}

/-- Programs over one world, each with the calls it has made so far. -/
structure Pool (S : Sig) (ε α ι W : Type) where
  world : W
  prog : ι → Prog S ε α
  log : ι → List (Event S ε)

namespace Pool

def start (w : W) (p : ι → Prog S ε α) : Pool S ε α ι W := ⟨w,p,fun _ => []⟩

def InProgress (c : Pool S ε α ι W) (i : ι) : Prop := c.log i ≠ [] ∧ (c.prog i).done = false

def Quiet (c : Pool S ε α ι W) : Prop := ∀ i, ¬ c.InProgress i

theorem quiet_of_done {c : Pool S ε α ι W} (h : ∀ i, (c.prog i).done = true) : c.Quiet := by
  intro i hi
  rw [InProgress,h i] at hi
  cases hi.2

/-- No program other than `i` is half way. -/
def Serial (c : Pool S ε α ι W) (i : ι) : Prop := ∀ j, j ≠ i → ¬ c.InProgress j

variable [DecidableEq ι]

/-- Program `i` has made the call `ev`, goes on as `p`, and leaves the world `w`. -/
def advance (c : Pool S ε α ι W) (i : ι) (ev : Event S ε) (p : Prog S ε α) (w : W) :
    Pool S ε α ι W :=
  ⟨w,update c.prog i p,update c.log i (c.log i ++ [ev])⟩

inductive Step (sem : Sem S ε W) (c : Pool S ε α ι W) (i : ι) : Pool S ε α ι W → Prop
  | mk {o : S.Op} {k : Except ε (S.Res o) → Prog S ε α} {r : Except ε (S.Res o)} {w : W}
      (hp : c.prog i = .call o k) (hs : sem o c.world r w) :
      Step sem c i (c.advance i ⟨o,r⟩ (k r) w)

/-- Runs all of whose steps meet `ok` in the state before the step. -/
inductive Reach (sem : Sem S ε W) (ok : Pool S ε α ι W → ι → Prop) (c₀ : Pool S ε α ι W) :
    Pool S ε α ι W → Prop
  | refl : Reach sem ok c₀ c₀
  | step {c c' : Pool S ε α ι W} {i : ι} (hr : Reach sem ok c₀ c) (hok : ok c i)
      (hs : Step sem c i c') : Reach sem ok c₀ c'

variable {sem : Sem S ε W} {ok : Pool S ε α ι W → ι → Prop} {c c' c₀ : Pool S ε α ι W}

@[simp] theorem advance_world (c : Pool S ε α ι W) (i : ι) (ev : Event S ε) (p : Prog S ε α)
    (w : W) : (c.advance i ev p w).world = w := rfl

@[simp] theorem advance_prog (c : Pool S ε α ι W) (i : ι) (ev : Event S ε) (p : Prog S ε α)
    (w : W) : (c.advance i ev p w).prog = update c.prog i p := rfl

@[simp] theorem advance_log (c : Pool S ε α ι W) (i : ι) (ev : Event S ε) (p : Prog S ε α)
    (w : W) : (c.advance i ev p w).log = update c.log i (c.log i ++ [ev]) := rfl

theorem inProgress_advance_self (i : ι) (ev : Event S ε) (p : Prog S ε α) (w : W) :
    (c.advance i ev p w).InProgress i ↔ p.done = false := by
  simp [InProgress]

theorem inProgress_advance_of_ne (h : j ≠ i) (ev : Event S ε) (p : Prog S ε α) (w : W) :
    (c.advance i ev p w).InProgress j ↔ c.InProgress j := by
  simp [InProgress,h]

theorem Reach.trans {c1 c2 : Pool S ε α ι W} (h1 : Reach sem ok c₀ c1)
    (h2 : Reach sem ok c1 c2) : Reach sem ok c₀ c2 := by
  induction h2 with
  | refl => exact h1
  | step _ hok hs ih => exact ih.step hok hs

@[elab_as_elim]
theorem Reach.invariant {I : Pool S ε α ι W → Prop} (h0 : I c₀)
    (hstep : ∀ c i c', I c → ok c i → Step sem c i c' → I c') (h : Reach sem ok c₀ c) : I c := by
  induction h with
  | refl => exact h0
  | step _ hok hs ih => exact hstep _ _ _ ih hok hs

variable {p : ι → Prog S ε α} {w : W} {I : W → Prop}

theorem Reach.calls {P : ι → S.Op → Prop} (hp : ∀ i, (p i).Calls (P i))
    (h : Reach sem ok (start w p) c) (i : ι) : (c.prog i).Calls (P i) := by
  refine h.invariant (hp i) ?_
  rintro c j _ hcalls - ⟨hc,-⟩
  by_cases hij : i = j
  · subst hij
    rw [hc] at hcalls
    simpa using hcalls.2 _
  · simpa [hij] using hcalls

theorem Reach.invariant_of_calls {P : ι → S.Op → Prop}
    (hp : ∀ i, (p i).Calls (P i)) (I : Pool S ε α ι W → Prop) (h0 : I (start w p))
    (hstep : ∀ c i o k r w', I c → ok c i → P i o → c.prog i = .call o k →
      sem o c.world r w' → I (c.advance i ⟨o,r⟩ (k r) w'))
    (h : Reach sem ok (start w p) c) : I c := by
  induction h with
  | refl => exact h0
  | @step c c' i hr hok hs ih =>
    obtain ⟨hc,hs⟩ := hs
    have hcall := hr.calls hp i
    rw [hc] at hcall
    exact hstep c i _ _ _ _ ih hok hcall.1 hc hs

theorem Reach.traced (h : Reach sem ok (start w p) c) (i : ι) :
    (p i).Traced (c.log i) (c.prog i) := by
  have h0 : (p i).Traced ((start w p).log i) ((start w p).prog i) := rfl
  refine h.invariant h0 ?_
  rintro c j _ htraced - ⟨hc,-⟩
  by_cases hij : i = j
  · subst hij
    rw [hc] at htraced
    simpa using Prog.traced_concat htraced _
  · simpa [hij] using htraced

theorem reach_keeps {p : Prog S ε α} {ok : Pool S ε α Unit W → Unit → Prop} {c : Pool S ε α Unit W}
    (hp : p.Keeps sem I w Q) (h : Reach sem ok (start w fun _ => p) c) :
    (c.prog ()).Keeps sem I c.world Q := by
  refine h.invariant hp ?_
  rintro c i _ hkeeps - ⟨hc,hs⟩
  rename_i o k r w'
  rw [show c.prog () = .call o k from hc] at hkeeps
  simpa using hkeeps.step hs

theorem keeps_of_reach {p : Prog S ε α} {c : Pool S ε α Unit W} (hp : c.prog () = p)
    (h : ∀ c', Reach sem (fun _ _ => True) c c' → I c'.world) :
    p.Keeps sem I c.world fun _ _ => True := by
  induction p generalizing c with
  | ret a => exact Prog.keeps_ret (h c .refl) trivial
  | throw e => exact Prog.keeps_throw (h c .refl) trivial
  | call o k ih =>
    refine Prog.keeps_call (h c .refl) fun r w' hs => ?_
    have hnext : Reach sem (fun _ _ => True) c (c.advance () ⟨o,r⟩ (k r) w') :=
      Reach.refl.step trivial (.mk hp hs)
    have hrest : (c.advance () ⟨o,r⟩ (k r) w').prog () = k r := by simp
    exact ih r hrest fun c' hc' => h c' (hnext.trans hc')

section Serial

variable {p : ι → Prog S ε α} {I : W → Prop} {w : W}

/-- A program that has made no call is the one the pool started with, and at most one is half way;
alone it restores `I`. -/
structure SerialInv (sem : Sem S ε W) (p : ι → Prog S ε α) (I : W → Prop)
    (c : Pool S ε α ι W) : Prop where
  fresh : ∀ i, c.log i = [] → c.prog i = p i
  world : (c.Quiet ∧ I c.world) ∨
    ∃ i, c.InProgress i ∧ c.Serial i ∧ Prog.Post sem (c.prog i) c.world fun _ w' => I w'

/-- The stepping program, alone from here on, restores `I`. -/
theorem SerialInv.post (hp : ∀ i w, I w → Prog.Post sem (p i) w fun _ w' => I w')
    (h : SerialInv sem p I c) (hok : c.Serial i) (hc : c.prog i = .call o k) :
    Prog.Post sem (c.prog i) c.world fun _ w' => I w' := by
  rcases h.world with ⟨hq,hw⟩ | ⟨j,hj,-,hpost⟩
  · have hl : c.log i = [] := by
      by_contra hl
      exact hq i ⟨hl,by rw [hc]; rfl⟩
    rw [h.fresh i hl]
    exact hp i _ hw
  · by_cases hij : j = i
    · exact hij ▸ hpost
    · exact absurd hj (hok j hij)

theorem SerialInv.step (hp : ∀ i w, I w → Prog.Post sem (p i) w fun _ w' => I w')
    (h : SerialInv sem p I c) (hok : c.Serial i) (hs : Step sem c i c') : SerialInv sem p I c' := by
  obtain ⟨hc,hs⟩ := hs
  rename_i o k r w
  have hpost := h.post hp hok hc
  have hnext : Prog.Post sem (k r) w fun _ w' => I w' := by
    rw [hc] at hpost
    exact fun tr out w' hr => hpost _ _ _ ⟨r,w,tr,hs,rfl,hr⟩
  constructor
  · intro j hj
    by_cases hij : j = i
    · subst hij
      simp at hj
    · simp only [advance_log,update_of_ne hij,advance_prog] at hj ⊢
      exact h.fresh j hj
  · have hothers : (c.advance i ⟨o,r⟩ (k r) w).Serial i := by
      intro j hj
      rw [inProgress_advance_of_ne hj]
      exact hok j hj
    by_cases hd : (k r).done = false
    · refine .inr ⟨i,(inProgress_advance_self ..).mpr hd,hothers,?_⟩
      simpa using hnext
    · refine .inl ⟨fun j => ?_,?_⟩
      · by_cases hij : j = i
        · subst hij
          rwa [inProgress_advance_self]
        · exact hothers j hij
      · -- an ended program has exactly one run, the empty one
        cases hk : k r with
        | ret a => exact hnext [] (.ok a) w (by simp [hk])
        | throw e => exact hnext [] (.error e) w (by simp [hk])
        | call o' k' => simp [hk,Prog.done] at hd

theorem reach_serial (hp : ∀ i w, I w → Prog.Post sem (p i) w fun _ w' => I w') (hw : I w)
    (hr : Reach sem Serial (start w p) c) (hq : c.Quiet) : I c.world := by
  have h : SerialInv sem p I c := by
    refine hr.invariant ⟨fun _ _ => rfl,.inl ⟨?_,hw⟩⟩ ?_
    · intro i hi
      exact hi.1 rfl
    · intro c i c' h hok hs
      exact h.step hp hok hs
  rcases h.world with ⟨-,hi⟩ | ⟨i,hi,-⟩
  · exact hi
  · exact absurd hi (hq i)

/-- A program makes its first call only while no other is half way. -/
def StartsAlone (c : Pool S ε α ι W) (i : ι) : Prop := c.log i = [] → c.Quiet

theorem serial_of_startsAlone (hone : ∀ i j, c.InProgress i → c.InProgress j → i = j)
    (hok : c.StartsAlone i) (hs : Step sem c i c') : c.Serial i := by
  obtain ⟨hc,-⟩ := hs
  intro j hj hprog
  by_cases hl : c.log i = []
  · exact hok hl j hprog
  · have hi : c.InProgress i := ⟨hl,by rw [hc]; rfl⟩
    exact hj (hone j i hprog hi)

theorem reach_serial_of_startsAlone (hr : Reach sem StartsAlone (start w p) c) :
    Reach sem Serial (start w p) c := by
  suffices h : Reach sem Serial (start w p) c ∧
      ∀ i j, c.InProgress i → c.InProgress j → i = j from h.1
  induction hr with
  | refl => exact ⟨.refl,fun i _ hi _ => absurd rfl hi.1⟩
  | @step c c' i _ hok hs ih =>
    obtain ⟨hreach,hone⟩ := ih
    have hserial := serial_of_startsAlone hone hok hs
    -- everyone but the stepping program is idle before and after
    have honly : ∀ j, c'.InProgress j → j = i := by
      obtain ⟨hc,hs⟩ := hs
      intro j hj
      by_contra hne
      exact hserial j hne ((inProgress_advance_of_ne hne ..).mp hj)
    refine ⟨hreach.step hserial hs,fun j k hj hk => ?_⟩
    rw [honly j hj,honly k hk]

end Serial

end Pool

/-! ### Protocols -/

structure Protocol (S : Sig) (ε : Type) where
  State : Type
  next : State → Event S ε → Option State

namespace Protocol

variable (A : Protocol S ε)

def after : A.State → List (Event S ε) → Option A.State
  | s, [] => some s
  | s, ev :: evs => (A.next s ev).bind fun s' => after s' evs

theorem after_append (s : A.State) (evs evs' : List (Event S ε)) :
    A.after s (evs ++ evs') = (A.after s evs).bind fun s' => A.after s' evs' := by
  induction evs generalizing s with
  | nil => rfl
  | cons ev evs ih =>
    simp only [List.cons_append,after,Option.bind_assoc]
    congr 1
    funext s'
    exact ih s'

end Protocol

namespace Prog

variable {β : Type} (A : Protocol S ε)

/-- The program makes only calls the protocol allows, and its outcome meets `Q` in the state
reached. -/
def Follows : A.State → Prog S ε α → (A.State → Except ε α → Prop) → Prop
  | s, ret a, Q => Q s (.ok a)
  | s, throw e, Q => Q s (.error e)
  | s, call o k, Q => ∀ r, ∃ s', A.next s ⟨o,r⟩ = some s' ∧ (k r).Follows s' Q

variable {A} {s : A.State} {o : S.Op}

theorem follows_perform (h : ∀ r, ∃ s', A.next s ⟨o,r⟩ = some s' ∧ Q s' r) :
    (perform o).Follows A s Q := by
  intro r
  obtain ⟨s',hn,hq⟩ := h r
  refine ⟨s',hn,?_⟩
  cases r with
  | ok | error => exact hq

variable {p : Prog S ε α} {Q : A.State → Except ε β → Prop}

theorem follows_mono {P Q : A.State → Except ε α → Prop}
    (hp : p.Follows A s P) (h : ∀ s' r, P s' r → Q s' r) : p.Follows A s Q := by
  induction p generalizing s with
  | ret | throw => exact h _ _ hp
  | call o k ih =>
    intro r
    obtain ⟨s',hn,hk⟩ := hp r
    exact ⟨s',hn,ih r hk⟩

theorem follows_bind (P : A.State → Except ε α → Prop) (hp : p.Follows A s P)
    (hok : ∀ s' a, P s' (.ok a) → (f a).Follows A s' Q)
    (herr : ∀ s' e, P s' (.error e) → Q s' (.error e)) : (p.bind f).Follows A s Q := by
  induction p generalizing s with
  | ret a => exact hok _ _ hp
  | throw e => exact herr _ _ hp
  | call o k ih =>
    intro r
    obtain ⟨s',hn,hk⟩ := hp r
    exact ⟨s',hn,ih r hk⟩

theorem follows_perform_bind (hok : ∀ a, ∃ s', A.next s ⟨o,.ok a⟩ = some s' ∧ (f a).Follows A s' Q)
    (herr : ∀ e, ∃ s', A.next s ⟨o,.error e⟩ = some s' ∧ Q s' (.error e)) :
    ((perform o).bind f).Follows A s Q := by
  intro r
  cases r with
  | ok a => exact hok a
  | error e => exact herr e

variable {Q : A.State → Except ε α → Prop}

theorem follows_tryCatch (P : A.State → Except ε α → Prop) (hp : p.Follows A s P)
    (hok : ∀ s' a, P s' (.ok a) → Q s' (.ok a))
    (herr : ∀ s' e, P s' (.error e) → (h e).Follows A s' Q) : (p.tryCatch h).Follows A s Q := by
  induction p generalizing s with
  | ret a => exact hok _ _ hp
  | throw e => exact herr _ _ hp
  | call o k ih =>
    intro r
    obtain ⟨s',hn,hk⟩ := hp r
    exact ⟨s',hn,ih r hk⟩

theorem follows_attempt {Q : A.State → Except ε (Except ε α) → Prop}
    (hp : p.Follows A s fun s' r => Q s' (.ok r)) : p.attempt.Follows A s Q := by
  induction p generalizing s with
  | ret | throw => exact hp
  | call o k ih =>
    intro r
    obtain ⟨s',hn,hk⟩ := hp r
    exact ⟨s',hn,ih r hk⟩

theorem follows_bracket {body : Prog S ε α} (P : A.State → Except ε α → Prop)
    (hbody : body.Follows A s P)
    (hcommit : ∀ s a, P s (.ok a) → commit.Follows A s fun s' r => Q s' (r.map fun _ => a))
    (hrollback : ∀ s e, P s (.error e) →
      rollback.Follows A s fun s' r => Q s' (r.bind fun _ => .error e)) :
    (body.bracket commit rollback).Follows A s Q := by
  refine follows_bind (fun s' r => ∃ out, r = .ok out ∧ P s' out)
    (follows_attempt (follows_mono hbody fun s' out h => ⟨out,rfl,h⟩)) ?_ ?_
  · intro s' out ⟨_,hout,h⟩
    cases hout
    cases out with
    | ok a => exact follows_bind _ (hcommit s' a h) (fun _ _ hq => hq) (fun _ _ hq => hq)
    | error e => exact follows_bind _ (hrollback s' e h) (fun _ _ hq => hq) (fun _ _ hq => hq)
  · intro s' e ⟨_,hout,_⟩
    cases hout

theorem follows_forEach {Q : A.State → Except ε Unit → Prop} (I : List β → A.State → Prop)
    (xs : List β) (h0 : I xs s)
    (hstep : ∀ x xs s, I (x :: xs) s → (f x).Follows A s fun s' r => match r with
      | .ok _ => I xs s'
      | .error e => Q s' (.error e)) (hend : ∀ s, I [] s → Q s (.ok ())) :
    (forEach xs f).Follows A s Q := by
  induction xs generalizing s with
  | nil => exact hend s h0
  | cons x xs ih => exact follows_bind _ (hstep x xs s h0) (fun s' _ h => ih h) (fun _ _ h => h)

/-- Calls that keep the protocol within `I`. -/
theorem follows_of_calls (I : A.State → Prop) (hp : p.Calls P)
    (hstep : ∀ s o r, I s → P o → ∃ s', A.next s ⟨o,r⟩ = some s' ∧ I s') (hs : I s) :
    p.Follows A s fun s' _ => I s' := by
  induction p generalizing s with
  | ret | throw => exact hs
  | call o k ih =>
    intro r
    obtain ⟨s',hn,hs'⟩ := hstep s o r hs hp.1
    exact ⟨s',hn,ih r (hp.2 r) hs'⟩

/-- What the protocol allows from `I` stays in `I`. -/
theorem follows_invariant (I : A.State → Prop)
    (hnext : ∀ s ev s', I s → A.next s ev = some s' → I s') (hs : I s) (hp : p.Follows A s Q) :
    p.Follows A s fun s' _ => I s' := by
  induction p generalizing s with
  | ret | throw => exact hs
  | call o k ih =>
    intro r
    obtain ⟨s',hn,hk⟩ := hp r
    exact ⟨s',hn,ih r (hnext s _ s' hs hn) hk⟩

/-- The first `n` calls of a program whose process dies after them. -/
def cut : Nat → Prog S ε Unit → Prog S ε Unit
  | _, ret a => ret a
  | _, throw e => throw e
  | 0, call _ _ => ret ()
  | n + 1, call o k => call o fun r => cut n (k r)

theorem follows_cut {p : Prog S ε Unit} {I : A.State → Prop} {Q : A.State → Except ε Unit → Prop}
    (hnext : ∀ s ev s', I s → A.next s ev = some s' → I s') (hs : I s) (hp : p.Follows A s Q)
    (n : Nat) : (cut n p).Follows A s fun s' _ => I s' := by
  induction p generalizing s n with
  | ret | throw => cases n <;> exact hs
  | call o k ih =>
    cases n with
    | zero => exact hs
    | succ n =>
      intro r
      obtain ⟨s',hn,hk⟩ := hp r
      exact ⟨s',hn,ih r (hnext s _ s' hs hn) hk n⟩

end Prog

namespace Pool

variable [DecidableEq ι] {sem : Sem S ε W} {ok : Pool S ε α ι W → ι → Prop}
  {c : Pool S ε α ι W}

/-- The pool with its protocol states: the rest of each program follows the protocol from its state.
-/
structure Phased (A : Protocol S ε) (Q : A.State → Except ε α → Prop) (s₀ : ι → A.State)
    (c : Pool S ε α ι W) (φ : ι → A.State) : Prop where
  after : ∀ i, A.after (s₀ i) (c.log i) = some (φ i)
  follows : ∀ i, (c.prog i).Follows A (φ i) Q

omit [DecidableEq ι] in
theorem Phased.log_ne_nil (h : Phased A Q s0 c φ) (hne : φ i ≠ s0 i) : c.log i ≠ [] := by
  intro hlog
  have hafter := h.after i
  rw [hlog] at hafter
  exact hne (Option.some.inj hafter).symm

omit [DecidableEq ι] in
theorem Phased.exists_outcome (h : Phased A Q s0 c φ) (hdone : (c.prog i).done = true) :
    ∃ r, Q (φ i) r := by
  have hfollows := h.follows i
  cases hp : c.prog i with
  | ret | throw =>
    rw [hp] at hfollows
    exact ⟨_,hfollows⟩
  | call o k => simp [hp,Prog.done] at hdone

theorem reach_phased (A : Protocol S ε) (Q : A.State → Except ε α → Prop) {s0 : ι → A.State}
    (hp : ∀ i, (p i).Follows A (s0 i) Q) (J : Pool S ε α ι W → (ι → A.State) → Prop)
    (h0 : J (start w p) s0)
    (hstep : ∀ c φ i o k r w' s', Phased A Q s0 c φ → J c φ → ok c i → c.prog i = .call o k →
      sem o c.world r w' → A.next (φ i) ⟨o,r⟩ = some s' →
      (k r).Follows A s' Q → J (c.advance i ⟨o,r⟩ (k r) w') (update φ i s'))
    (hr : Reach sem ok (start w p) c) : ∃ φ, Phased A Q s0 c φ ∧ J c φ := by
  induction hr with
  | refl => exact ⟨s0,⟨fun _ => rfl,hp⟩,h0⟩
  | @step c c' i _ hok hs ih =>
    obtain ⟨φ,hφ,hJ⟩ := ih
    obtain ⟨hc,hs⟩ := hs
    rename_i o k r w'
    obtain ⟨s',hn,hf⟩ : ∃ s', A.next (φ i) ⟨o,r⟩ = some s' ∧ (k r).Follows A s' Q := by
      have := hφ.follows i
      rw [hc] at this
      exact this r
    refine ⟨update φ i s',⟨fun j => ?_,fun j => ?_⟩,hstep c φ i o k r w' s' hφ hJ hok hc hs hn hf⟩
    · by_cases hij : j = i
      · subst hij
        simp [Protocol.after_append,hφ.after j,Protocol.after,hn]
      · simpa [hij] using hφ.after j
    · by_cases hij : j = i
      · subst hij
        simpa using hf
      · simpa [hij] using hφ.follows j

end Pool

theorem pairwise_update {β : Type} [DecidableEq ι] {R : β → β → Prop} (hsymm : ∀ a b, R a b → R b a)
    {φ : ι → β} (h : Pairwise fun j k => R (φ j) (φ k)) {s : β} (hs : ∀ j, j ≠ i → R (φ j) s) :
    Pairwise fun j k => R (update φ i s j) (update φ i s k) := by
  intro j k hjk
  by_cases hj : j = i
  · subst hj
    simpa [hjk.symm] using hsymm _ _ (hs k hjk.symm)
  · by_cases hk : k = i
    · subst hk
      simpa [hj] using hs j hj
    · simpa [hj,hk] using h hjk

/-! ### Execution by a handler and a schedule -/

namespace Pool

variable [DecidableEq ι]

/-- Let program `i` make its next call, decided by the handler. -/
def tick (h : Handler S ε W) (c : Pool S ε α ι W) (i : ι) :
    Pool S ε α ι W :=
  match c.prog i with
  | .call o k => c.advance i ⟨o,(h o c.world).1⟩ (k (h o c.world).1) (h o c.world).2
  | _ => c

variable {h : Handler S ε W} {ok : Pool S ε α ι W → ι → Prop}
  {sem : Sem S ε W}

theorem reach_tick (hs : ∀ o w, sem o w (h o w).1 (h o w).2)
    (c : Pool S ε α ι W) (i : ι) (hok : ok c i) : Reach sem ok c (c.tick h i) := by
  unfold tick
  split
  · next o k hc => exact Reach.refl.step hok (.mk hc (hs o c.world))
  · exact .refl

/-- Every step of the schedule meets `ok`. -/
def Admits (ok : Pool S ε α ι W → ι → Prop) (h : Handler S ε W) :
    Pool S ε α ι W → List ι → Prop
  | _, [] => True
  | c, i :: sched => ok c i ∧ Admits ok h (c.tick h i) sched

instance instDecidableAdmits (ok : Pool S ε α ι W → ι → Prop)
    (h : Handler S ε W) [∀ c i, Decidable (ok c i)] :
    ∀ c sched, Decidable (Admits ok h c sched)
  | _, [] => isTrue trivial
  | c, i :: sched =>
    have := instDecidableAdmits ok h (c.tick h i) sched
    inferInstanceAs (Decidable (ok c i ∧ Admits ok h (c.tick h i) sched))

theorem reach_schedule (hs : ∀ o w, sem o w (h o w).1 (h o w).2)
    (c : Pool S ε α ι W) (sched : List ι) (hok : Admits ok h c sched) :
    Reach sem ok c (sched.foldl (tick h) c) := by
  induction sched generalizing c with
  | nil => exact .refl
  | cons i sched ih => exact (reach_tick hs c i hok.1).trans (ih _ hok.2)

variable {c : Pool S ε α ι W} {sched : List ι} {i : ι}

/-- The same for a handler that is one only on the worlds that keep `I`. -/
theorem reach_schedule_of (I : W → Prop)
    (hs : ∀ o w, I w → sem o w (h o w).1 (h o w).2 ∧ I (h o w).2) (hc : I c.world)
    (sched : List ι) (hok : Admits ok h c sched) : Reach sem ok c (sched.foldl (tick h) c) := by
  induction sched generalizing c with
  | nil => exact .refl
  | cons i sched ih =>
    have hstep : Reach sem ok c (c.tick h i) ∧ I (c.tick h i).world := by
      unfold tick
      split
      · next o k hp => exact ⟨Reach.refl.step hok.1 (.mk hp (hs o c.world hc).1),(hs o c.world hc).2⟩
      · exact ⟨.refl,hc⟩
    exact hstep.1.trans (ih hstep.2 hok.2)

theorem Admits.mono (himp : ∀ c i, ok c i → ok' c i) (hc : Admits ok h c sched) :
    Admits ok' h c sched := by
  induction sched generalizing c with
  | nil => trivial
  | cons i sched ih => exact ⟨himp c i hc.1,ih hc.2⟩

theorem admits_of_mem
    (hok : ∀ c, ∀ i ∈ sched, ok c i) (c : Pool S ε α ι W) : Admits ok h c sched := by
  induction sched generalizing c with
  | nil => trivial
  | cons i sched ih =>
    exact ⟨hok c i List.mem_cons_self,ih (fun c j hj => hok c j (List.mem_cons_of_mem i hj)) _⟩

theorem admits_of_forall (hok : ∀ c i, ok c i) (c : Pool S ε α ι W)
    (sched : List ι) : Admits ok h c sched :=
  admits_of_mem (fun c i _ => hok c i) c

theorem Serial.tick (hs : c.Serial i) (h : Handler S ε W) :
    (c.tick h i).Serial i := by
  intro j hj
  unfold Pool.tick
  split
  · rw [inProgress_advance_of_ne hj]
    exact hs j hj
  · exact hs j hj

omit [DecidableEq ι] in
theorem serial_start (w : W) (p : ι → Prog S ε α) (i : ι) : (start w p).Serial i :=
  fun _ _ hj => hj.1 rfl

theorem reach_alone (hs : ∀ o w, sem o w (h o w).1 (h o w).2) (hi : c.Serial i)
    (n : Nat) : Reach sem Serial c ((List.replicate n i).foldl (tick h) c) := by
  induction n generalizing c with
  | zero => exact .refl
  | succ n ih => exact (reach_tick hs c i hi).trans (ih (hi.tick h))

theorem StartsAlone.tick (hi : c.StartsAlone i) (h : Handler S ε W) :
    (c.tick h i).StartsAlone i := by
  unfold Pool.tick
  split
  · intro hl
    simp at hl
  · exact hi

theorem reach_startsAlone (hs : ∀ o w, sem o w (h o w).1 (h o w).2)
    (hi : c.StartsAlone i) (n : Nat) :
    Reach sem StartsAlone c ((List.replicate n i).foldl (Pool.tick h) c) := by
  induction n generalizing c with
  | zero => exact .refl
  | succ n ih => exact (reach_tick hs c i hi).trans (ih (hi.tick h))

end Pool

end Ploydok.Effect
