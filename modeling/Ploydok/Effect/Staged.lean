import Ploydok.Effect.Pool
import Mathlib.Logic.Relation

/-! Programs that make few calls, by the stages they pass through. A staging names every program
that can be left of a given one, and says what the next call does to the world and which one is then
left. -/

namespace Ploydok.Effect

open Function

variable {S : Sig} {ε α ι σ W : Type}

/-- Stages of the programs of a pool whose calls are decided by the handler. -/
structure Staging (h : Handler S ε W) (α ι σ : Type) where
  prog : ι → σ → Prog S ε α
  next : ι → σ → W → Option (σ × W)
  next_call : ∀ i s w o k, prog i s = .call o k →
    ∃ s', next i s w = some (s', (h o w).2) ∧ prog i s' = k (h o w).1
  next_done : ∀ i s w, (prog i s).done = true → next i s w = none

structure Stages (ι σ W : Type) where
  world : W
  stage : ι → σ

namespace Staging

variable {h : Handler S ε W} (M : Staging h α ι σ) {i : ι} {s : σ} {w : W}

theorem next_isSome (hn : M.next i s w = some q) : ∃ o k, M.prog i s = .call o k := by
  cases hp : M.prog i s with
  | call o k => exact ⟨o,k,rfl⟩
  | ret | throw =>
    rw [M.next_done i s w (by rw [hp]; rfl)] at hn
    cases hn

variable [DecidableEq ι]

/-- Program `i` makes its next call. -/
inductive Move (st : Stages ι σ W) (i : ι) : Stages ι σ W → Prop
  | mk {s : σ} {w : W} (hn : M.next i (st.stage i) st.world = some (s, w)) :
      Move st i ⟨w,update st.stage i s⟩

def Run : Stages ι σ W → Stages ι σ W → Prop :=
  Relation.ReflTransGen fun st st' => ∃ i, M.Move st i st'

variable {M} {st st' : Stages ι σ W}

@[elab_as_elim]
theorem Run.invariant {I : Stages ι σ W → Prop} (h0 : I st)
    (hstep : ∀ st i st', I st → M.Move st i st' → I st') (hr : M.Run st st') : I st' := by
  induction hr with
  | refl => exact h0
  | tail _ hmove ih =>
    obtain ⟨i,hmove⟩ := hmove
    exact hstep _ i _ ih hmove

theorem Run.move (hr : M.Run st st') (i : ι) (hn : M.next i (st'.stage i) st'.world = some (s, w)) :
    M.Run st ⟨w,update st'.stage i s⟩ :=
  hr.tail ⟨i,.mk hn⟩

theorem Run.alone (hr : Relation.ReflTransGen (fun p q : σ × W => M.next i p.1 p.2 = some q)
      (st.stage i, st.world) p) : M.Run st ⟨p.2,update st.stage i p.1⟩ := by
  induction hr with
  | refl =>
    rw [update_eq_self]
    exact .refl
  | tail _ hn ih =>
    have hstep := ih.move i (by simpa using hn)
    rwa [update_idem] at hstep

def At (M : Staging h α ι σ) (c : Pool S ε α ι W) (st : Stages ι σ W) : Prop :=
  c.world = st.world ∧ ∀ i, c.prog i = M.prog i (st.stage i)

theorem at_advance (hat : M.At c st) (hp : p = M.prog i s) :
    M.At (c.advance i ⟨o,r⟩ p w) ⟨w,update st.stage i s⟩ := by
  refine ⟨rfl,fun j => ?_⟩
  by_cases hij : j = i
  · subst hij
    simp [hp]
  · simp [hij,hat.2 j]

theorem move_of_step (hat : M.At c st) (hs : Pool.Step (Prog.ofHandler h) c i c') :
    ∃ st', M.Move st i st' ∧ M.At c' st' := by
  obtain ⟨hc,hs⟩ := hs
  rename_i o k r w
  obtain ⟨s,hn,hk⟩ := M.next_call i (st.stage i) st.world o k (by rw [← hat.2 i,hc])
  rw [hat.1] at hs
  change h o st.world = (r, w) at hs
  rw [hs] at hn hk
  exact ⟨_,.mk hn,at_advance hat hk.symm⟩

theorem step_of_move (hat : M.At c st) (hm : M.Move st i st') :
    ∃ c', Pool.Step (Prog.ofHandler h) c i c' ∧ M.At c' st' := by
  obtain ⟨hn⟩ := hm
  rename_i s w
  obtain ⟨o,k,hp⟩ := M.next_isSome hn
  obtain ⟨s',hn',hk⟩ := M.next_call i (st.stage i) st.world o k hp
  rw [hn] at hn'
  cases hn'
  have hcall : c.prog i = .call o k := by rw [hat.2 i,hp]
  have hsem : Prog.ofHandler h o c.world (h o st.world).1 (h o st.world).2 := by
    rw [hat.1]
    rfl
  exact ⟨_,.mk hcall hsem,at_advance hat hk.symm⟩

variable {c₀ c : Pool S ε α ι W}

theorem run_of_reach (hat : M.At c₀ st)
    (hr : Pool.Reach (Prog.ofHandler h) (fun _ _ => True) c₀ c) :
    ∃ st', M.Run st st' ∧ M.At c st' := by
  induction hr with
  | refl => exact ⟨st,.refl,hat⟩
  | step _ _ hs ih =>
    obtain ⟨st1,hrun,hat1⟩ := ih
    obtain ⟨st2,hmove,hat2⟩ := move_of_step hat1 hs
    exact ⟨st2,hrun.tail ⟨_,hmove⟩,hat2⟩

theorem reach_of_run (hat : M.At c₀ st) (hr : M.Run st st') :
    ∃ c, Pool.Reach (Prog.ofHandler h) (fun _ _ => True) c₀ c ∧ M.At c st' := by
  induction hr with
  | refl => exact ⟨c₀,.refl,hat⟩
  | tail _ hmove ih =>
    obtain ⟨c1,hreach,hat1⟩ := ih
    obtain ⟨i,hmove⟩ := hmove
    obtain ⟨c2,hs,hat2⟩ := step_of_move hat1 hmove
    exact ⟨c2,hreach.step trivial hs,hat2⟩

end Staging

end Ploydok.Effect
