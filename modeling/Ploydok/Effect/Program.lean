import Mathlib.Data.List.Basic

/-! Effectful programs as trees of calls. A program returns, throws, or issues one call and
continues with its outcome. A semantics says which outcomes and next states a call may have; `Runs`
follows one program alone through a world and records its calls. -/

namespace Ploydok.Effect

/-- The calls of a program and the type of the answer each call gives. -/
structure Sig where
  Op : Type
  Res : Op → Type

inductive Prog (S : Sig) (ε α : Type) where
  | ret (a : α)
  | throw (e : ε)
  | call (o : S.Op) (k : Except ε (S.Res o) → Prog S ε α)

structure Event (S : Sig) (ε : Type) where
  op : S.Op
  out : Except ε (S.Res op)

/-- Which outcomes a call may have in a world, and the world after it. -/
abbrev Sem (S : Sig) (ε W : Type) := (o : S.Op) → W → Except ε (S.Res o) → W → Prop

/-- A handler decides what every call answers. -/
abbrev Handler (S : Sig) (ε W : Type) := (o : S.Op) → W → Except ε (S.Res o) × W

variable {S : Sig} {ε α β W : Type}

namespace Prog

def bind : Prog S ε α → (α → Prog S ε β) → Prog S ε β
  | ret a, f => f a
  | throw e, _ => throw e
  | call o k, f => call o fun r => (k r).bind f

def tryCatch : Prog S ε α → (ε → Prog S ε α) → Prog S ε α
  | ret a, _ => ret a
  | throw e, h => h e
  | call o k, h => call o fun r => (k r).tryCatch h

instance : Monad (Prog S ε) where
  pure := ret
  bind := bind

instance : MonadExceptOf ε (Prog S ε) where
  throw := throw
  tryCatch := tryCatch

@[simp] theorem ret_bind (a : α) (f : α → Prog S ε β) : (ret a).bind f = f a := rfl

@[simp] theorem throw_bind (e : ε) (f : α → Prog S ε β) :
    (throw e : Prog S ε α).bind f = throw e := rfl

@[simp] theorem call_bind (o : S.Op) (k : Except ε (S.Res o) → Prog S ε α)
    (f : α → Prog S ε β) : (call o k).bind f = call o fun r => (k r).bind f := rfl

@[simp] theorem ret_tryCatch (a : α) (h : ε → Prog S ε α) :
    (ret a : Prog S ε α).tryCatch h = ret a := rfl

@[simp] theorem throw_tryCatch (e : ε) (h : ε → Prog S ε α) :
    (throw e : Prog S ε α).tryCatch h = h e := rfl

@[simp] theorem call_tryCatch (o : S.Op) (k : Except ε (S.Res o) → Prog S ε α)
    (h : ε → Prog S ε α) :
    (call o k).tryCatch h = call o fun r => (k r).tryCatch h := rfl

def ofExcept : Except ε α → Prog S ε α
  | .ok a => ret a
  | .error e => throw e

/-- Issue one call and pass its outcome on, an error as an exception. -/
def perform (o : S.Op) : Prog S ε (S.Res o) := call o ofExcept

/-- Run to the end and hand the outcome over as a value. -/
def attempt : Prog S ε α → Prog S ε (Except ε α)
  | ret a => ret (.ok a)
  | throw e => ret (.error e)
  | call o k => call o fun r => (k r).attempt

/-- `try p finally fin`: an exception of `fin` replaces the outcome of `p`. -/
def andFinally (p : Prog S ε α) (fin : Prog S ε Unit) : Prog S ε α :=
  p.attempt.bind fun r => fin.bind fun _ => ofExcept r

/-- A body between `BEGIN` and its end: `commit` after a value, `rollback` after an exception. -/
def bracket (body : Prog S ε α) (commit rollback : Prog S ε Unit) : Prog S ε α :=
  body.attempt.bind fun
    | .ok a => commit.bind fun _ => ret a
    | .error e => rollback.bind fun _ => throw e

/-- `for (const x of xs) await f(x)`. -/
def forEach : List β → (β → Prog S ε Unit) → Prog S ε Unit
  | [], _ => ret ()
  | x :: xs, f => (f x).bind fun _ => forEach xs f

def lift {S' : Sig} (f : S.Op → S'.Op) (g : ∀ o, S'.Res (f o) → S.Res o) :
    Prog S ε α → Prog S' ε α
  | ret a => ret a
  | throw e => throw e
  | call o k => call (f o) fun r => (k (r.map (g o))).lift f g

def outcome : Prog S ε α → Option (Except ε α)
  | ret a => some (.ok a)
  | throw e => some (.error e)
  | call _ _ => none

variable {p : Prog S ε α} {a : α}

theorem outcome_eq_ok_iff : p.outcome = some (.ok a) ↔ p = ret a := by
  cases p <;> simp [outcome]

def done : Prog S ε α → Bool
  | ret _ | throw _ => true
  | call _ _ => false

/-- Alone in the world `w`, `p` can issue the calls `tr` and end with `out` in the world `w'`. -/
def Runs (sem : Sem S ε W) : Prog S ε α → W → List (Event S ε) → Except ε α → W → Prop
  | ret a, w, tr, out, w' => tr = [] ∧ out = .ok a ∧ w' = w
  | throw e, w, tr, out, w' => tr = [] ∧ out = .error e ∧ w' = w
  | call o k, w, tr, out, w' =>
    ∃ r w1 tr₁, sem o w r w1 ∧ tr = ⟨o,r⟩ :: tr₁ ∧ (k r).Runs sem w1 tr₁ out w'

variable {sem : Sem S ε W} {w w' : W} {tr : List (Event S ε)} {out : Except ε α}

@[simp] theorem runs_ret :
    (ret a : Prog S ε α).Runs sem w tr out w' ↔ tr = [] ∧ out = .ok a ∧ w' = w := Iff.rfl

variable {e : ε}

@[simp] theorem runs_throw :
    (throw e : Prog S ε α).Runs sem w tr out w' ↔ tr = [] ∧ out = .error e ∧ w' = w := Iff.rfl

variable {o : S.Op} {k : Except ε (S.Res o) → Prog S ε α}

theorem runs_call : (call o k).Runs sem w tr out w' ↔
      ∃ r w1 tr1, sem o w r w1 ∧ tr = ⟨o,r⟩ :: tr1 ∧ (k r).Runs sem w1 tr1 out w' := Iff.rfl

theorem runs_perform {out : Except ε (S.Res o)} :
    (perform o).Runs sem w tr out w' ↔ sem o w out w' ∧ tr = [⟨o,out⟩] := by
  constructor
  · rintro ⟨r,w1,tr1,hs,rfl,hr⟩
    cases r with
    | ok | error =>
      obtain ⟨rfl,rfl,rfl⟩ := hr
      exact ⟨hs,rfl⟩
  · rintro ⟨hs,rfl⟩
    refine ⟨out,w',[],hs,rfl,?_⟩
    cases out <;> simp [ofExcept]

variable {f : α → Prog S ε β}

theorem runs_bind {out : Except ε β} : (p.bind f).Runs sem w tr out w' ↔
      (∃ a w1 tr1 tr2, p.Runs sem w tr1 (.ok a) w1 ∧ (f a).Runs sem w1 tr2 out w' ∧
        tr = tr1 ++ tr2) ∨
      (∃ e, p.Runs sem w tr (.error e) w' ∧ out = .error e) := by
  induction p generalizing w tr with
  | ret a => simp
  | throw e =>
    simp only [throw_bind,runs_throw,reduceCtorEq,and_false,false_and,exists_false, false_or]
    constructor
    · rintro ⟨rfl,rfl,rfl⟩
      exact ⟨e,⟨rfl,rfl,rfl⟩,rfl⟩
    · rintro ⟨e',⟨rfl,h,rfl⟩,rfl⟩
      cases h
      exact ⟨rfl,rfl,rfl⟩
  | call o k ih =>
    simp only [call_bind,runs_call,ih]
    constructor
    · rintro ⟨r,w1,tr1,hs,rfl,⟨a,w2,t1,t2,h1,h2,rfl⟩ | ⟨e,h,rfl⟩⟩
      · exact .inl ⟨a,w2,⟨o,r⟩ :: t1,t2,⟨r,w1,t1,hs,rfl,h1⟩,h2,rfl⟩
      · exact .inr ⟨e,⟨r,w1,tr1,hs,rfl,h⟩,rfl⟩
    · rintro (⟨a,w2,_,t2,⟨r,w1,t1,hs,rfl,h1⟩,h2,rfl⟩ | ⟨e,⟨r,w1,t1,hs,rfl,h⟩,rfl⟩)
      · exact ⟨r,w1,t1 ++ t2,hs,rfl,.inl ⟨a,w2,t1,t2,h1,h2,rfl⟩⟩
      · exact ⟨r,w1,t1,hs,rfl,.inr ⟨e,h,rfl⟩⟩

variable {b : β}

theorem runs_bind_ok (h : (p.bind f).Runs sem w tr (.ok b) w') :
    ∃ a w1 tr1 tr2, p.Runs sem w tr1 (.ok a) w1 ∧ (f a).Runs sem w1 tr2 (.ok b) w' := by
  rcases runs_bind.mp h with ⟨a,w1,tr1,tr2,h1,h2,-⟩ | ⟨e,-,he⟩
  · exact ⟨a,w1,tr1,tr2,h1,h2⟩
  · cases he

variable {h : ε → Prog S ε α}

theorem runs_tryCatch : (p.tryCatch h).Runs sem w tr out w' ↔
      (∃ a, p.Runs sem w tr (.ok a) w' ∧ out = .ok a) ∨
      (∃ e w1 tr1 tr2, p.Runs sem w tr1 (.error e) w1 ∧ (h e).Runs sem w1 tr2 out w' ∧
        tr = tr1 ++ tr2) := by
  induction p generalizing w tr with
  | ret a =>
    simp only [ret_tryCatch,runs_ret,reduceCtorEq,and_false,false_and,exists_false, or_false]
    constructor
    · rintro ⟨rfl,rfl,rfl⟩
      exact ⟨a,⟨rfl,rfl,rfl⟩,rfl⟩
    · rintro ⟨a',⟨rfl,h,rfl⟩,rfl⟩
      cases h
      exact ⟨rfl,rfl,rfl⟩
  | throw e => simp
  | call o k ih =>
    simp only [call_tryCatch,runs_call,ih]
    constructor
    · rintro ⟨r,w1,tr1,hs,rfl,⟨a,hr,rfl⟩ | ⟨e,w2,t1,t2,h1,h2,rfl⟩⟩
      · exact .inl ⟨a,⟨r,w1,tr1,hs,rfl,hr⟩,rfl⟩
      · exact .inr ⟨e,w2,⟨o,r⟩ :: t1,t2,⟨r,w1,t1,hs,rfl,h1⟩,h2,rfl⟩
    · rintro (⟨a,⟨r,w1,t1,hs,rfl,hr⟩,rfl⟩ | ⟨e,w2,_,t2,⟨r,w1,t1,hs,rfl,h1⟩,h2,rfl⟩)
      · exact ⟨r,w1,t1,hs,rfl,.inl ⟨a,hr,rfl⟩⟩
      · exact ⟨r,w1,t1 ++ t2,hs,rfl,.inr ⟨e,w2,t1,t2,h1,h2,rfl⟩⟩

theorem runs_attempt {out : Except ε (Except ε α)} :
    p.attempt.Runs sem w tr out w' ↔ ∃ r, p.Runs sem w tr r w' ∧ out = .ok r := by
  induction p generalizing w tr with
  | ret | throw => simp [attempt]; tauto
  | call o k ih =>
    simp only [attempt,runs_call,ih]
    constructor
    · rintro ⟨r,w1,tr1,hs,rfl,out',hr,rfl⟩
      exact ⟨out',⟨r,w1,tr1,hs,rfl,hr⟩,rfl⟩
    · rintro ⟨out',⟨r,w1,tr1,hs,rfl,hr⟩,rfl⟩
      exact ⟨r,w1,tr1,hs,rfl,out',hr,rfl⟩

/-- Every run of `p` from `w` ends in an outcome and a world with `Q`. -/
def Post (sem : Sem S ε W) (p : Prog S ε α) (w : W) (Q : Except ε α → W → Prop) : Prop :=
  ∀ tr out w', p.Runs sem w tr out w' → Q out w'

variable {Q : Except ε α → W → Prop}

theorem post_ret (h : Q (.ok a) w) : Post sem (ret a) w Q := by
  rintro tr out w' ⟨-,rfl,rfl⟩
  exact h

theorem post_throw (h : Q (.error e) w) : Post sem (throw e) w Q := by
  rintro tr out w' ⟨-,rfl,rfl⟩
  exact h

theorem post_perform {Q : Except ε (S.Res o) → W → Prop}
    (h : ∀ r w', sem o w r w' → Q r w') : Post sem (perform o) w Q := by
  intro tr out w' hr
  exact h out w' (runs_perform.mp hr).1

theorem post_mono (hp : Post sem p w P) (h : ∀ out w', P out w' → Q out w') : Post sem p w Q :=
  fun tr out w' hr => h out w' (hp tr out w' hr)

theorem post_bind {Q : Except ε β → W → Prop} (P : Except ε α → W → Prop) (hp : Post sem p w P)
    (hok : ∀ a w1, P (.ok a) w1 → Post sem (f a) w1 Q)
    (herr : ∀ e w1, P (.error e) w1 → Q (.error e) w1) : Post sem (p.bind f) w Q := by
  intro tr out w' hr
  rcases runs_bind.mp hr with ⟨a,w1,tr1,tr2,h1,h2,-⟩ | ⟨e,h,rfl⟩
  · exact hok a w1 (hp _ _ _ h1) _ _ _ h2
  · exact herr e w' (hp _ _ _ h)

theorem post_tryCatch (P : Except ε α → W → Prop) (hp : Post sem p w P)
    (hok : ∀ a w1, P (.ok a) w1 → Q (.ok a) w1)
    (herr : ∀ e w1, P (.error e) w1 → Post sem (h e) w1 Q) : Post sem (p.tryCatch h) w Q := by
  intro tr out w' hr
  rcases runs_tryCatch.mp hr with ⟨a,h1,rfl⟩ | ⟨e,w1,tr1,tr2,h1,h2,-⟩
  · exact hok a w' (hp _ _ _ h1)
  · exact herr e w1 (hp _ _ _ h1) _ _ _ h2

theorem post_attempt {Q : Except ε (Except ε α) → W → Prop}
    (hp : Post sem p w fun out w' => Q (.ok out) w') : Post sem p.attempt w Q := by
  intro tr out w' hr
  obtain ⟨r,h,rfl⟩ := runs_attempt.mp hr
  exact hp _ _ _ h

theorem post_attempt_bind {f : Except ε α → Prog S ε β}
    {Q : Except ε β → W → Prop} (P : Except ε α → W → Prop) (hp : Post sem p w P)
    (h : ∀ r w1, P r w1 → Post sem (f r) w1 Q) : Post sem (p.attempt.bind f) w Q := by
  intro tr out w' hr
  rcases runs_bind.mp hr with ⟨r,w1,tr1,tr2,h1,h2,-⟩ | ⟨e,h1,-⟩
  · obtain ⟨r',hr',hrr⟩ := runs_attempt.mp h1
    cases hrr
    exact h r w1 (hp _ _ _ hr') _ _ _ h2
  · obtain ⟨r,-,hre⟩ := runs_attempt.mp h1
    cases hre

theorem post_bracket {body : Prog S ε α} {I J : W → Prop} (hbody : Post sem body w fun _ w' => I w')
    (hcommit : ∀ w, I w → Post sem commit w fun _ w' => J w')
    (hrollback : ∀ w, I w → Post sem rollback w fun _ w' => J w') :
    Post sem (body.bracket commit rollback) w fun _ w' => J w' := by
  refine post_bind (fun r w' => I w' ∧ ∃ a, r = .ok a)
    (post_attempt (post_mono hbody fun out w' h => ⟨h,out,rfl⟩)) ?_ ?_
  · rintro out w1 ⟨h,-⟩
    cases out with
    | ok a =>
      refine post_bind (fun _ w' => J w') (hcommit w1 h) ?_ (fun _ _ h => h)
      exact fun _ _ hj => post_ret hj
    | error e =>
      refine post_bind (fun _ w' => J w') (hrollback w1 h) ?_ (fun _ _ h => h)
      exact fun _ _ hj => post_throw hj
  · rintro e w1 ⟨-,a,ha⟩
    cases ha

theorem post_forEach {f : β → Prog S ε Unit} (I : W → Prop) (xs : List β)
    (h : ∀ x ∈ xs, ∀ w, I w → Post sem (f x) w fun _ w' => I w') (hw : I w) :
    Post sem (forEach xs f) w fun _ w' => I w' := by
  induction xs generalizing w with
  | nil => exact post_ret hw
  | cons x xs ih =>
    refine post_bind (fun _ w' => I w') (h x (by simp) w hw) ?_ (fun _ _ h => h)
    intro _ w1 h1
    exact ih (fun y hy => h y (by simp [hy])) h1

/-- Some run of `p` from `w` has this outcome and ends in `w'`. -/
def Ends (sem : Sem S ε W) (p : Prog S ε α) (w : W) (out : Except ε α) (w' : W) : Prop :=
  ∃ tr, p.Runs sem w tr out w'

section Ends

variable {w1 : W}

theorem ends_ret (a : α) : (ret a : Prog S ε α).Ends sem w (.ok a) w := ⟨[],rfl,rfl,rfl⟩

theorem ends_throw (e : ε) : (throw e : Prog S ε α).Ends sem w (.error e) w := ⟨[],rfl,rfl,rfl⟩

theorem ends_perform (h : sem o w r w') : (perform o).Ends sem w r w' :=
  ⟨_,runs_perform.mpr ⟨h,rfl⟩⟩

theorem ends_bind {out : Except ε β}
    (hp : p.Ends sem w (.ok a) w1) (hf : (f a).Ends sem w1 out w') :
    (p.bind f).Ends sem w out w' := by
  obtain ⟨tr1,hp⟩ := hp
  obtain ⟨tr2,hf⟩ := hf
  exact ⟨_,runs_bind.mpr (.inl ⟨a,w1,tr1,tr2,hp,hf,rfl⟩)⟩

theorem ends_bind_error
    (hp : p.Ends sem w (.error e) w') : (p.bind f).Ends sem w (.error e) w' := by
  obtain ⟨tr,hp⟩ := hp
  exact ⟨tr,runs_bind.mpr (.inr ⟨e,hp,rfl⟩)⟩

theorem ends_tryCatch_ok (hp : p.Ends sem w (.ok a) w') : (p.tryCatch h).Ends sem w (.ok a) w' := by
  obtain ⟨tr,hp⟩ := hp
  exact ⟨tr,runs_tryCatch.mpr (.inl ⟨a,hp,rfl⟩)⟩

theorem ends_tryCatch (hp : p.Ends sem w (.error e) w1) (hh : (h e).Ends sem w1 out w') :
    (p.tryCatch h).Ends sem w out w' := by
  obtain ⟨tr1,hp⟩ := hp
  obtain ⟨tr2,hh⟩ := hh
  exact ⟨_,runs_tryCatch.mpr (.inr ⟨e,w1,tr1,tr2,hp,hh,rfl⟩)⟩

theorem ends_attempt (hp : p.Ends sem w r w') : p.attempt.Ends sem w (.ok r) w' := by
  obtain ⟨tr,hp⟩ := hp
  exact ⟨tr,runs_attempt.mpr ⟨r,hp,rfl⟩⟩

theorem Post.ends (h : Post sem p w Q) (hp : p.Ends sem w out w') : Q out w' := by
  obtain ⟨tr,hp⟩ := hp
  exact h tr out w' hp

end Ends

/-! ### The calls of a program -/

/-- Every call the program can make is one of `P`. -/
def Calls (P : S.Op → Prop) : Prog S ε α → Prop
  | ret _ | throw _ => True
  | call o k => P o ∧ ∀ r, (k r).Calls P

section Calls

variable {P : S.Op → Prop}

theorem calls_ret (a : α) : (ret a : Prog S ε α).Calls P := trivial

theorem calls_throw (e : ε) : (throw e : Prog S ε α).Calls P := trivial

theorem calls_ofExcept (r : Except ε α) : (ofExcept r : Prog S ε α).Calls P := by
  cases r <;> trivial

theorem calls_perform (h : P o) : (perform o : Prog S ε _).Calls P :=
  ⟨h,fun r => calls_ofExcept r⟩

theorem calls_bind (hp : p.Calls P) (hf : ∀ a, (f a).Calls P) : (p.bind f).Calls P := by
  induction p with
  | ret a => exact hf a
  | throw e => trivial
  | call o k ih => exact ⟨hp.1,fun r => ih r (hp.2 r)⟩

theorem calls_tryCatch (hp : p.Calls P) (hh : ∀ e, (h e).Calls P) : (p.tryCatch h).Calls P := by
  induction p with
  | ret a => trivial
  | throw e => exact hh e
  | call o k ih => exact ⟨hp.1,fun r => ih r (hp.2 r)⟩

theorem calls_attempt (hp : p.Calls P) : p.attempt.Calls P := by
  induction p with
  | ret | throw => trivial
  | call o k ih => exact ⟨hp.1,fun r => ih r (hp.2 r)⟩

theorem calls_andFinally (hp : p.Calls P) (hf : fin.Calls P) : (p.andFinally fin).Calls P :=
  calls_bind (calls_attempt hp) fun r => calls_bind hf fun _ => calls_ofExcept r

theorem calls_forEach {f : β → Prog S ε Unit} (h : ∀ x ∈ xs, (f x).Calls P) :
    (forEach xs f).Calls P := by
  induction xs with
  | nil => trivial
  | cons x xs ih =>
    exact calls_bind (h x (by simp)) fun _ => ih fun y hy => h y (by simp [hy])

theorem calls_mono {Q : S.Op → Prop} (hp : p.Calls P) (h : ∀ o, P o → Q o) : p.Calls Q := by
  induction p with
  | ret | throw => trivial
  | call o k ih => exact ⟨h o hp.1,fun r => ih r (hp.2 r)⟩

theorem calls_lift {S' : Sig} {f : S.Op → S'.Op} {g : ∀ o, S'.Res (f o) → S.Res o}
    {Q : S'.Op → Prop} (hp : p.Calls fun o => Q (f o)) : (p.lift f g).Calls Q := by
  induction p with
  | ret | throw => trivial
  | call o k ih => exact ⟨hp.1,fun r => ih _ (hp.2 _)⟩

theorem calls_true (p : Prog S ε α) : p.Calls fun _ => True := by
  induction p with
  | ret | throw => trivial
  | call o k ih => exact ⟨trivial,ih⟩

theorem calls_of_runs (hp : p.Calls P) (h : p.Runs sem w tr out w') : ∀ e ∈ tr, P e.op := by
  induction p generalizing w tr with
  | ret a =>
    obtain ⟨rfl,-,-⟩ := h
    exact fun e he => absurd he List.not_mem_nil
  | throw e =>
    obtain ⟨rfl,-,-⟩ := h
    exact fun e he => absurd he List.not_mem_nil
  | call o k ih =>
    obtain ⟨r,w1,tr1,-,rfl,hr⟩ := h
    exact List.forall_mem_cons.mpr ⟨hp.1,ih r (hp.2 r) hr⟩

theorem post_of_calls (hp : p.Calls P) (I : W → Prop)
    (hstep : ∀ o w r w', P o → I w → sem o w r w' → I w') (hw : I w) :
    Post sem p w fun _ w' => I w' := by
  induction p generalizing w with
  | ret a => exact post_ret hw
  | throw e => exact post_throw hw
  | call o k ih =>
    rintro tr out w' ⟨r,w1,tr1,hs,-,hr⟩
    exact ih r (hp.2 r) (hstep o w r w1 hp.1 hw hs) _ _ _ hr

end Calls

/-! ### What holds at every moment of a run -/

/-- `I` holds in every world that `p` passes through from `w`, however far it gets, and `Q` where
it ends. -/
def Keeps (sem : Sem S ε W) (I : W → Prop) :
    Prog S ε α → W → (Except ε α → W → Prop) → Prop
  | ret a, w, Q => I w ∧ Q (.ok a) w
  | throw e, w, Q => I w ∧ Q (.error e) w
  | call o k, w, Q => I w ∧ ∀ r w', sem o w r w' → (k r).Keeps sem I w' Q

section Keeps

variable {I : W → Prop}

theorem Keeps.now (h : p.Keeps sem I w Q) : I w := by
  cases p with
  | ret | throw | call => exact h.1

theorem Keeps.post (h : p.Keeps sem I w Q) : Post sem p w Q := by
  induction p generalizing w with
  | ret a => exact post_ret h.2
  | throw e => exact post_throw h.2
  | call o k ih =>
    rintro tr out w' ⟨r,w1,tr1,hs,-,hr⟩
    exact ih r (h.2 r w1 hs) _ _ _ hr

variable {f : α → Prog S ε β}

theorem Keeps.left {Q : Except ε β → W → Prop}
    (h : (p.bind f).Keeps sem I w Q) : p.Keeps sem I w fun _ _ => True := by
  induction p generalizing w with
  | ret a => exact ⟨h.now,trivial⟩
  | throw e => exact ⟨h.1,trivial⟩
  | call o k ih => exact ⟨h.1,fun r w' hs => ih r (h.2 r w' hs)⟩

theorem Keeps.rest {Q : Except ε β → W → Prop} (h : (p.bind f).Keeps sem I w Q)
    (hr : p.Runs sem w tr (.ok a) w1) : (f a).Keeps sem I w1 Q := by
  induction p generalizing w tr with
  | ret b =>
    obtain ⟨-,hab,rfl⟩ := hr
    cases hab
    exact h
  | throw e =>
    obtain ⟨-,hout,-⟩ := hr
    cases hout
  | call o k ih =>
    obtain ⟨r,w2,tr1,hs,-,hr⟩ := hr
    exact ih r (h.2 r w2 hs) hr

theorem keeps_ret (hi : I w) (h : Q (.ok a) w) : (ret a : Prog S ε α).Keeps sem I w Q :=
  ⟨hi,h⟩

theorem keeps_throw (hi : I w) (h : Q (.error e) w) : (throw e : Prog S ε α).Keeps sem I w Q :=
  ⟨hi,h⟩

theorem keeps_call (hi : I w)
    (h : ∀ r w', sem o w r w' → (k r).Keeps sem I w' Q) : (call o k).Keeps sem I w Q :=
  ⟨hi,h⟩

theorem keeps_perform {Q : Except ε (S.Res o) → W → Prop} (hi : I w)
    (h : ∀ r w', sem o w r w' → I w' ∧ Q r w') : (perform o).Keeps sem I w Q := by
  refine ⟨hi,fun r w' hs => ?_⟩
  cases r with
  | ok | error => exact h _ _ hs

theorem keeps_mono (hp : p.Keeps sem I w P) (h : ∀ out w', I w' → P out w' → Q out w') :
    p.Keeps sem I w Q := by
  induction p generalizing w with
  | ret | throw => exact ⟨hp.1,h _ _ hp.1 hp.2⟩
  | call o k ih => exact ⟨hp.1,fun r w' hs => ih r (hp.2 r w' hs)⟩

theorem keeps_bind {Q : Except ε β → W → Prop} (P : Except ε α → W → Prop) (hp : p.Keeps sem I w P)
    (hok : ∀ a w1, I w1 → P (.ok a) w1 → (f a).Keeps sem I w1 Q)
    (herr : ∀ e w1, I w1 → P (.error e) w1 → Q (.error e) w1) : (p.bind f).Keeps sem I w Q := by
  induction p generalizing w with
  | ret a => exact hok a w hp.1 hp.2
  | throw e => exact ⟨hp.1,herr e w hp.1 hp.2⟩
  | call o k ih => exact ⟨hp.1,fun r w' hs => ih r (hp.2 r w' hs)⟩

theorem keeps_tryCatch (P : Except ε α → W → Prop) (hp : p.Keeps sem I w P)
    (hok : ∀ a w1, I w1 → P (.ok a) w1 → Q (.ok a) w1)
    (herr : ∀ e w1, I w1 → P (.error e) w1 → (h e).Keeps sem I w1 Q) :
    (p.tryCatch h).Keeps sem I w Q := by
  induction p generalizing w with
  | ret a => exact ⟨hp.1,hok a w hp.1 hp.2⟩
  | throw e => exact herr e w hp.1 hp.2
  | call o k ih => exact ⟨hp.1,fun r w' hs => ih r (hp.2 r w' hs)⟩

theorem keeps_forEach {f : β → Prog S ε Unit} (J : W → Prop) (xs : List β) (hi : I w)
    (h : ∀ x ∈ xs, ∀ w, I w → J w → (f x).Keeps sem I w fun _ w' => J w') (hw : J w) :
    (forEach xs f).Keeps sem I w fun _ w' => J w' := by
  induction xs generalizing w with
  | nil => exact ⟨hi,hw⟩
  | cons x xs ih =>
    refine keeps_bind (fun _ w' => J w') (h x (by simp) w hi hw) ?_ (fun _ _ _ h => h)
    intro _ w1 hi1 h1
    exact ih hi1 (fun y hy => h y (by simp [hy])) h1

theorem keeps_of_calls (hp : p.Calls P) (J : W → Prop) (hi : ∀ w, J w → I w)
    (hstep : ∀ o w r w', P o → J w → sem o w r w' → J w') (hw : J w) :
    p.Keeps sem I w fun _ w' => J w' := by
  induction p generalizing w with
  | ret | throw => exact ⟨hi w hw,hw⟩
  | call o k ih =>
    exact ⟨hi w hw,fun r w' hs => ih r (hp.2 r) (hstep o w r w' hp.1 hw hs)⟩

theorem Keeps.step (h : (call o k).Keeps sem I w Q) (hs : sem o w r w') : (k r).Keeps sem I w' Q :=
  h.2 r w' hs

end Keeps

-- from here on `Keeps` is used through its rules; unfolding it would run the program
attribute [irreducible] Keeps

def Total : Prog S ε α → Prop
  | ret _ => True
  | throw _ => False
  | call _ k => ∀ r, (k r).Total

theorem total_attempt (p : Prog S ε α) : p.attempt.Total := by
  induction p with
  | ret | throw => trivial
  | call o k ih => exact ih

theorem total_bind (hp : p.Total) (hf : ∀ a, (f a).Total) : (p.bind f).Total := by
  induction p with
  | ret a => exact hf a
  | throw e => exact hp.elim
  | call o k ih => exact fun r => ih r (hp r)

theorem total_tryCatch (hh : ∀ e, (h e).Total) : (p.tryCatch h).Total := by
  induction p with
  | ret a => trivial
  | throw e => exact hh e
  | call o k ih => exact ih

theorem Total.post (hp : p.Total) (w : W) : Post sem p w fun out _ => ∃ a, out = .ok a := by
  induction p generalizing w with
  | ret a => exact post_ret ⟨a,rfl⟩
  | throw e => exact hp.elim
  | call o k ih =>
    rintro tr out w' ⟨r,w1,tr1,-,-,hr⟩
    exact ih r (hp r) w1 _ _ _ hr

/-- However its calls are answered, the program makes one of `Q` before it ends. -/
def Surely (Q : S.Op → Prop) : Prog S ε α → Prop
  | ret _ | throw _ => False
  | call o k => Q o ∨ ∀ r, (k r).Surely Q

section Surely

variable {Q : S.Op → Prop}

theorem surely_bind_left (hp : p.Surely Q) : (p.bind f).Surely Q := by
  induction p with
  | ret | throw => exact hp.elim
  | call o k ih => exact hp.imp id fun hk r => ih r (hk r)

theorem surely_bind_right (hp : p.Total) (hf : ∀ a, (f a).Surely Q) : (p.bind f).Surely Q := by
  induction p with
  | ret a => exact hf a
  | throw e => exact hp.elim
  | call o k ih => exact .inr fun r => ih r (hp r)

theorem surely_tryCatch (hp : p.Surely Q) : (p.tryCatch h).Surely Q := by
  induction p with
  | ret | throw => exact hp.elim
  | call o k ih => exact hp.imp id fun hk r => ih r (hk r)

theorem surely_attempt (hp : p.Surely Q) : p.attempt.Surely Q := by
  induction p with
  | ret | throw => exact hp.elim
  | call o k ih => exact hp.imp id fun hk r => ih r (hk r)

theorem surely_forEach {f : β → Prog S ε Unit} (htotal : ∀ x, (f x).Total) (hx : x ∈ xs)
    (h : (f x).Surely Q) : (forEach xs f).Surely Q := by
  induction xs with
  | nil => cases hx
  | cons y xs ih =>
    rcases List.mem_cons.mp hx with rfl | hx
    · exact surely_bind_left h
    · exact surely_bind_right (htotal y) fun _ => ih hx

/-- What a call of `Q` brings about and no call undoes holds at the end. -/
theorem post_of_surely (hp : p.Calls P) (hq : p.Surely Q) (I : W → Prop)
    (hkeep : ∀ o w r w', P o → I w → sem o w r w' → I w')
    (hmake : ∀ o w r w', Q o → sem o w r w' → I w') : Post sem p w fun _ w' => I w' := by
  induction p generalizing w with
  | ret | throw => exact hq.elim
  | call o k ih =>
    rintro tr out w' ⟨r,w1,tr1,hs,-,hr⟩
    rcases hq with ho | hk
    · exact post_of_calls (hp.2 r) I hkeep (hmake o w r w1 ho hs) _ _ _ hr
    · exact ih r (hp.2 r) (hk r) _ _ _ hr

end Surely

section Settled

variable (turn : S.Op) (first : S.Res turn → Bool)

/-- The call `o`, which goes on as `f`, side by side with another program. -/
def settle (o : S.Op) (f : Except ε (S.Res o) → Prog S ε Unit → Prog S ε Unit) :
    Prog S ε Unit → Prog S ε Unit
  | call o' k' => call turn fun r =>
      if r.toOption.any first then call o fun a => f a (call o' k')
      else call o' fun a => settle o f (k' a)
  | _ => call o fun a => f a (ret ())

/-- `Promise.allSettled([p, q])`. The answers to `turn` say whose call comes next. -/
def allSettled : Prog S ε Unit → Prog S ε Unit → Prog S ε Unit
  | call o k, q => settle turn first o (fun a q => allSettled (k a) q) q
  | _, q => q.attempt.bind fun _ => ret ()

variable {turn first} {f : Except ε (S.Res o) → Prog S ε Unit → Prog S ε Unit}

theorem total_settle
    (hf : ∀ a q, (f a q).Total) (q : Prog S ε Unit) : (settle turn first o f q).Total := by
  induction q with
  | ret | throw => exact fun r => hf r _
  | call o' k' ih =>
    intro r
    dsimp only
    split
    · exact fun a => hf a _
    · exact ih

theorem total_allSettled (p q : Prog S ε Unit) : (allSettled turn first p q).Total := by
  induction p generalizing q with
  | ret | throw => exact total_bind (total_attempt q) fun _ => trivial
  | call o k ih => exact total_settle (fun a q' => ih a q') q

variable {P : S.Op → Prop} {q : Prog S ε Unit}

theorem calls_settle (hturn : P turn) (ho : P o) (hf : ∀ a q, q.Calls P → (f a q).Calls P)
    (hq : q.Calls P) : (settle turn first o f q).Calls P := by
  induction q with
  | ret | throw => exact ⟨ho,fun r => hf r _ trivial⟩
  | call o' k' ih =>
    refine ⟨hturn,fun r => ?_⟩
    dsimp only
    split
    · exact ⟨ho,fun a => hf a _ hq⟩
    · exact ⟨hq.1,fun a => ih a (hq.2 a)⟩

theorem calls_allSettled (hturn : P turn) {p : Prog S ε Unit} (hp : p.Calls P)
    (hq : q.Calls P) : (allSettled turn first p q).Calls P := by
  induction p generalizing q with
  | ret | throw => exact calls_bind (calls_attempt hq) fun _ => trivial
  | call o k ih => exact calls_settle hturn hp.1 (fun a q' hq' => ih a (hp.2 a) hq') hq

theorem surely_settle_left (hf : P o ∨ ∀ a q, (f a q).Surely P) (q : Prog S ε Unit) :
    (settle turn first o f q).Surely P := by
  induction q with
  | ret | throw => exact hf.imp id fun h r => h r _
  | call o' k' ih =>
    refine .inr fun r => ?_
    dsimp only
    split
    · exact hf.imp id fun h a => h a _
    · exact .inr ih

theorem surely_allSettled_left {p : Prog S ε Unit} (hp : p.Surely P) (q : Prog S ε Unit) :
    (allSettled turn first p q).Surely P := by
  induction p generalizing q with
  | ret | throw => exact hp.elim
  | call o k ih => exact surely_settle_left (hp.imp id fun hk a q' => ih a (hk a) q') q

theorem surely_settle_right (hf : ∀ a q, q.Surely P → (f a q).Surely P) (hq : q.Surely P) :
    (settle turn first o f q).Surely P := by
  induction q with
  | ret | throw => exact hq.elim
  | call o' k' ih =>
    refine .inr fun r => ?_
    dsimp only
    split
    · exact .inr fun a => hf a _ hq
    · exact hq.imp id fun hk a => ih a (hk a)

theorem surely_allSettled_right (p : Prog S ε Unit) (hq : q.Surely P) :
    (allSettled turn first p q).Surely P := by
  induction p generalizing q with
  | ret | throw => exact surely_bind_left (surely_attempt hq)
  | call o k ih => exact surely_settle_right (fun a q' hq' => ih a hq') hq

end Settled

/-- The semantics on worlds that come with the calls made so far. -/
def logged (sem : Sem S ε W) : Sem S ε (W × List (Event S ε)) :=
  fun o w r w' => sem o w.1 r w'.1 ∧ w'.2 = w.2 ++ [⟨o,r⟩]

theorem runs_logged (h : p.Runs sem w tr out w') :
    p.Runs (logged sem) (w, l) tr out (w', l ++ tr) := by
  induction p generalizing w tr l with
  | ret | throw =>
    obtain ⟨rfl,rfl,rfl⟩ := h
    simp
  | call o k ih =>
    obtain ⟨r,w1,tr1,hs,rfl,hr⟩ := h
    have hrest := ih r hr (l := l ++ [⟨o,r⟩])
    rw [List.append_assoc] at hrest
    exact ⟨r,(w1, l ++ [⟨o,r⟩]),tr1,⟨hs,rfl⟩,rfl,hrest⟩

theorem post_logged {Q : Except ε α → W × List (Event S ε) → Prop}
    (hp : Post (logged sem) p (w, []) Q) (h : p.Runs sem w tr out w') : Q out (w', tr) := by
  simpa using hp _ _ _ (runs_logged h)

section Detail

variable {V : Type} {sem' : Sem S ε V} {v v' : V}

theorem runs_project (g : V → W) (hg : ∀ o v r v', sem' o v r v' → sem o (g v) r (g v'))
    (h : p.Runs sem' v tr out v') : p.Runs sem (g v) tr out (g v') := by
  induction p generalizing v tr with
  | ret | throw =>
    obtain ⟨rfl,rfl,rfl⟩ := h
    exact ⟨rfl,rfl,rfl⟩
  | call o k ih =>
    obtain ⟨r,v1,tr1,hs,rfl,hr⟩ := h
    exact ⟨r,g v1,tr1,hg o v r v1 hs,rfl,ih r hr⟩

/-- If every step of the coarse state has one of the finer state above it, every run has. -/
theorem runs_lift (g : V → W)
    (hg : ∀ o v r w', sem o (g v) r w' → ∃ v', g v' = w' ∧ sem' o v r v')
    (h : p.Runs sem (g v) tr out w') : ∃ v', g v' = w' ∧ p.Runs sem' v tr out v' := by
  induction p generalizing v tr with
  | ret | throw =>
    obtain ⟨rfl,rfl,rfl⟩ := h
    exact ⟨v,rfl,rfl,rfl,rfl⟩
  | call o k ih =>
    obtain ⟨r,w1,tr1,hs,rfl,hr⟩ := h
    obtain ⟨v1,rfl,hs'⟩ := hg o v r w1 hs
    obtain ⟨v',hv',hr'⟩ := ih r hr
    exact ⟨v',hv',r,v1,tr1,hs',rfl,hr'⟩

end Detail

/-! ### Execution by a handler -/

def exec (h : Handler S ε W) : Prog S ε α → W → Except ε α × W
  | ret a, w => (.ok a, w)
  | throw e, w => (.error e, w)
  | call o k, w => (k (h o w).1).exec h (h o w).2

section Exec

variable (h : Handler S ε W)

@[simp] theorem exec_ret (a : α) (w : W) : (ret a : Prog S ε α).exec h w = (.ok a, w) := rfl

@[simp] theorem exec_throw (e : ε) (w : W) : (throw e : Prog S ε α).exec h w = (.error e, w) := rfl

@[simp] theorem exec_perform (o : S.Op) (w : W) : (perform o).exec h w = h o w := by
  simp only [perform,exec]
  cases hr : (h o w).1 with
  | ok | error => exact Prod.ext hr.symm rfl

theorem exec_bind (p : Prog S ε α) (f : α → Prog S ε β) (w : W) :
    (p.bind f).exec h w = match p.exec h w with
      | (.ok a, w1) => (f a).exec h w1
      | (.error e, w1) => (.error e, w1) := by
  induction p generalizing w with
  | ret | throw => rfl
  | call o k ih => exact ih (h o w).1 (h o w).2

variable {h} in
theorem exec_bind_ok (hok : ((p.bind f).exec h w).1 = .ok b) :
    ∃ a, (p.exec h w).1 = .ok a ∧ (p.bind f).exec h w = (f a).exec h (p.exec h w).2 := by
  rw [exec_bind] at hok ⊢
  rcases hp : p.exec h w with ⟨r,w1⟩
  rw [hp] at hok
  cases r with
  | ok a => exact ⟨a,rfl,rfl⟩
  | error e => cases hok

variable {h} in
theorem exec_perform_bind {f : S.Res o → Prog S ε β} {a : S.Res o} (hh : h o w = (.ok a, w1)) :
    ((perform o).bind f).exec h w = (f a).exec h w1 := by
  rw [exec_bind,exec_perform,hh]

theorem exec_tryCatch (p : Prog S ε α) (f : ε → Prog S ε α) (w : W) :
    (p.tryCatch f).exec h w = match p.exec h w with
      | (.ok a, w1) => (.ok a, w1)
      | (.error e, w1) => (f e).exec h w1 := by
  induction p generalizing w with
  | ret | throw => rfl
  | call o k ih => exact ih (h o w).1 (h o w).2

@[simp] theorem exec_attempt (p : Prog S ε α) (w : W) :
    p.attempt.exec h w = (.ok (p.exec h w).1, (p.exec h w).2) := by
  induction p generalizing w with
  | ret | throw => rfl
  | call o k ih => exact ih (h o w).1 (h o w).2

variable {h} in
theorem exec_bracket {body : Prog S ε α} (hbody : body.exec h w = (.ok a, w1))
    (hcommit : commit.exec h w1 = (.ok (), w2)) :
    (body.bracket commit rollback).exec h w = (.ok a, w2) := by
  rw [bracket,exec_bind,exec_attempt,hbody]
  dsimp only
  rw [exec_bind,hcommit]
  rfl

end Exec

def trace (h : Handler S ε W) : Prog S ε α → W → List (Event S ε)
  | ret _, _ | throw _, _ => []
  | call o k, w => ⟨o,(h o w).1⟩ :: (k (h o w).1).trace h (h o w).2

variable {h : Handler S ε W}

theorem runs_exec (hs : ∀ o w, sem o w (h o w).1 (h o w).2) (p : Prog S ε α) (w : W) :
    p.Runs sem w (p.trace h w) (p.exec h w).1 (p.exec h w).2 := by
  induction p generalizing w with
  | ret | throw => exact ⟨rfl,rfl,rfl⟩
  | call o k ih => exact ⟨_,_,_,hs o w,rfl,ih (h o w).1 (h o w).2⟩

def ofHandler (h : Handler S ε W) : Sem S ε W :=
  fun o w r w' => h o w = (r, w')

theorem runs_exec_of_isOk (hs : ∀ o w, sem o w (h o w).1 (h o w).2)
    (hok : (p.exec h w).1.isOk = true) : ∃ a tr, p.Runs sem w tr (.ok a) (p.exec h w).2 := by
  have hrun := runs_exec hs p w
  cases hout : (p.exec h w).1 with
  | ok a =>
    rw [hout] at hrun
    exact ⟨a,_,hrun⟩
  | error e =>
    rw [hout] at hok
    cases hok

theorem post_exec (hp : Post (ofHandler h) p w Q) : Q (p.exec h w).1 (p.exec h w).2 :=
  hp _ _ _ (runs_exec (fun _ _ => rfl) p w)

theorem exec_of_runs (hr : p.Runs (ofHandler h) w tr out w') : p.exec h w = (out, w') := by
  induction p generalizing w tr with
  | ret | throw =>
    obtain ⟨-,rfl,rfl⟩ := hr
    rfl
  | call o k ih =>
    obtain ⟨r,w1,tr1,hs,-,hrest⟩ := hr
    have hs : h o w = (r, w1) := hs
    simp only [exec,hs]
    exact ih r hrest

theorem post_of_exec (hq : Q (p.exec h w).1 (p.exec h w).2) : Post (ofHandler h) p w Q := by
  intro tr out w' hr
  rw [exec_of_runs hr] at hq
  exact hq

/-- `p.Traced evs q`: after the calls `evs` of `p`, `q` is left. -/
def Traced : List (Event S ε) → Prog S ε α → Prog S ε α → Prop
  | [], p, q => p = q
  | ev :: evs, call o k, q => ∃ r, ev = ⟨o,r⟩ ∧ (k r).Traced evs q
  | _ :: _, _, _ => False

variable {evs : List (Event S ε)}

theorem traced_concat (h : p.Traced evs (call o k)) (r : Except ε (S.Res o)) :
    p.Traced (evs ++ [⟨o,r⟩]) (k r) := by
  induction evs generalizing p with
  | nil =>
    obtain rfl : p = call o k := h
    exact ⟨r,rfl,rfl⟩
  | cons ev evs ih =>
    cases p with
    | ret | throw => cases h
    | call o' k' =>
      obtain ⟨r',hev,hrest⟩ := h
      exact ⟨r',hev,ih hrest⟩

theorem traced_ret {b : α} : (ret a : Prog S ε α).Traced evs (ret b) ↔ evs = [] ∧ a = b := by
  cases evs <;> simp [Traced]

theorem traced_perform_bind {f : S.Res o → Prog S ε β}
    (h : ((perform o).bind f).Traced evs (ret b)) :
    ∃ a evs', evs = ⟨o,.ok a⟩ :: evs' ∧ (f a).Traced evs' (ret b) := by
  cases evs with
  | nil => cases h
  | cons ev evs =>
    obtain ⟨r,rfl,hrest⟩ := h
    cases r with
    | ok a => exact ⟨a,evs,rfl,hrest⟩
    | error e => cases evs <;> cases hrest

theorem traced_bind (h : (p.bind f).Traced evs (ret b)) :
    ∃ a evs1 evs2, evs = evs1 ++ evs2 ∧ p.Traced evs1 (ret a) ∧ (f a).Traced evs2 (ret b) := by
  induction p generalizing evs with
  | ret a => exact ⟨a,[],evs,rfl,rfl,h⟩
  | throw e => cases evs <;> cases h
  | call o k ih =>
    cases evs with
    | nil => cases h
    | cons ev evs =>
      obtain ⟨r,rfl,hrest⟩ := h
      obtain ⟨a,evs1,evs2,rfl,hp,hf⟩ := ih r hrest
      exact ⟨a,⟨o,r⟩ :: evs1,evs2,rfl,⟨r,rfl,hp⟩,hf⟩

end Prog

end Ploydok.Effect
