import Mathlib.Data.List.Forall2

/-! Checks that may fail, in sequence and over lists: when all of them pass, and what a loop
keeps in which each round may fail. -/

namespace Ploydok.Data

open List

variable {ε α β : Type} {x : Except ε α} {f : α → Except ε β} {xs : List α} {P : α → Prop}
  {E : Prop}

/-- A check that fails with `e` unless the condition holds. -/
def ensure (cond : Bool) (e : ε) : Except ε Unit := if cond then .ok () else .error e

@[simp] theorem ensure_eq_ok_iff {cond : Bool} : ensure cond e = .ok () ↔ cond = true := by
  cases cond <;> simp [ensure]

theorem bind_eq_ok_iff : (x >>= f) = .ok b ↔ ∃ a, x = .ok a ∧ f a = .ok b := by
  cases x with
  | ok | error => simp [bind,Except.bind]

theorem seq_eq_ok_iff {x : Except ε Unit} {f : Unit → Except ε Unit} :
    (x >>= f) = .ok () ↔ x = .ok () ∧ f () = .ok () := by
  rw [bind_eq_ok_iff]
  constructor
  · rintro ⟨⟨⟩,hx,hf⟩
    exact ⟨hx,hf⟩
  · rintro ⟨hx,hf⟩
    exact ⟨(),hx,hf⟩

theorem forM_eq_ok_iff {f : α → Except ε Unit} (xs : List α) :
    xs.forM f = .ok () ↔ ∀ x ∈ xs, f x = .ok () := by
  induction xs with
  | nil => simp [pure,Except.pure]
  | cons x xs ih =>
    show (f x >>= fun _ => xs.forM f) = .ok () ↔ _
    rw [seq_eq_ok_iff,ih,forall_mem_cons]

theorem mapM_eq_ok_iff_forall₂ (xs : List α) (ys : List β) :
    xs.mapM f = .ok ys ↔ List.Forall₂ (fun x y => f x = .ok y) xs ys := by
  induction xs generalizing ys with
  | nil =>
    cases ys with
    | nil | cons => simp [pure,Except.pure]
  | cons x xs ih =>
    rw [mapM_cons,bind_eq_ok_iff]
    simp only [bind_eq_ok_iff,ih]
    constructor
    · rintro ⟨y,hy,rest,hrest,hys⟩
      cases hys
      exact .cons hy hrest
    · intro h
      cases h with
      | cons hy hrest => exact ⟨_,hy,_,hrest,rfl⟩

theorem exists_of_forall₂ (h : List.Forall₂ R xs ys) {x : α} (hx : x ∈ xs) : ∃ y ∈ ys, R x y := by
  induction h with
  | nil => cases hx
  | @cons x1 y1 xs ys hR _ ih =>
    rcases mem_cons.mp hx with rfl | hx
    · exact ⟨y1,mem_cons_self,hR⟩
    · obtain ⟨y,hy,hR⟩ := ih hx
      exact ⟨y,mem_cons_of_mem _ hy,hR⟩

/-- How a computation ends: with a value of a kind, or with an error and then `E`. -/
def Ends (x : Except ε α) (P : α → Prop) (E : Prop) : Prop :=
  match x with
  | .ok a => P a
  | .error _ => E

theorem Ends.bind (h : Ends x P E) (hf : ∀ a, P a → Ends (f a) Q E) : Ends (x >>= f) Q E := by
  cases x with
  | ok a => exact hf a h
  | error e => exact h

theorem Ends.mono (h : Ends x P E) (hPQ : ∀ a, P a → Q a) : Ends x Q E := by
  cases x with
  | ok a => exact hPQ a h
  | error e => exact h

/-- A loop that collects: each round keeps an invariant and what was there, and adds its item. -/
theorem foldlM_ends {f : List α → α → Except ε (List α)} {I : List α → Prop}
    (hstep : ∀ x ∈ xs, ∀ b, I b → Ends (f b x) (fun b' => I b' ∧ b ⊆ b' ∧ x ∈ b') E)
    (hdone : I done) : Ends (xs.foldlM f done) (fun b => I b ∧ done ⊆ b ∧ ∀ x ∈ xs, x ∈ b) E := by
  induction xs generalizing done with
  | nil => exact ⟨hdone,List.Subset.refl _,nofun⟩
  | cons x xs ih =>
    rw [foldlM_cons]
    refine (hstep x mem_cons_self done hdone).bind fun b ⟨hb,hkept,hin⟩ => ?_
    refine (ih (fun y hy => hstep y (mem_cons_of_mem _ hy)) hb).mono fun b' ⟨hI,hkept',hall⟩ => ?_
    exact ⟨hI,List.Subset.trans hkept hkept',forall_mem_cons.mpr ⟨hkept' hin,hall⟩⟩

end Ploydok.Data
