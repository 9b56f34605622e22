import Mathlib.Data.List.Induction

/-! Lists of records of which some carry a key. A write puts a record in front and drops
the records under its key, or removes a key. The last write to a key decides the records under
it; the records no write is aimed at are the old ones in their old order. -/

namespace Ploydok.Data

open List

variable {α κ : Type} [DecidableEq κ] (key : α → Option κ) {k : κ} {x : α} {xs : List α}

/-- A write to such a list. -/
inductive Write (α κ : Type) where
  | put (x : α)
  | remove (k : κ)

namespace Write

/-- The key that a write is aimed at; a record without a key is aimed at none. -/
def target : Write α κ → Option κ
  | put x => key x
  | remove k => some k

/-- The list after a write. -/
def apply : Write α κ → List α → List α
  | put x, xs => x :: xs.filter fun y => key y ≠ key x
  | remove k, xs => xs.filter fun y => key y ≠ some k

end Write

def applyAll (ws : List (Write α κ)) (xs : List α) : List α :=
  ws.foldl (fun xs w => w.apply key xs) xs

/-- The records under a key. -/
def recordsAt (k : κ) (xs : List α) : List α := xs.filter fun y => key y = some k

def lastWrite (k : κ) (ws : List (Write α κ)) : Option (Write α κ) :=
  (ws.filter fun w => w.target key = some k).getLast?

theorem applyAll_append (ws ws' : List (Write α κ)) (xs : List α) :
    applyAll key (ws ++ ws') xs = applyAll key ws' (applyAll key ws xs) := by
  simp [applyAll]

/-- A write leaves the records under other keys. -/
theorem recordsAt_apply_of_ne {w : Write α κ} (h : w.target key ≠ some k) (xs : List α) :
    recordsAt key k (w.apply key xs) = recordsAt key k xs := by
  have hfilter : ∀ t : Option κ, t ≠ some k →
      (xs.filter fun y => key y ≠ t).filter (fun y => key y = some k) =
        xs.filter fun y => key y = some k := by
    intro t ht
    rw [filter_filter]
    apply filter_congr
    intro y _
    by_cases hy : key y = some k
    · simp [hy,Ne.symm ht]
    · simp [hy]
  cases w with
  | put x =>
    simp only [Write.target] at h
    simp only [recordsAt,Write.apply,filter_cons,h,decide_false,Bool.false_eq_true, ↓reduceIte]
    exact hfilter (key x) h
  | remove k' =>
    exact hfilter (some k') h

theorem recordsAt_filter_ne (k : κ) (xs : List α) :
    recordsAt key k (xs.filter fun y => key y ≠ some k) = [] := by
  unfold recordsAt
  rw [filter_filter,filter_eq_nil_iff]
  intro y _
  by_cases hy : key y = some k <;> simp [hy]

theorem recordsAt_apply_put (h : key x = some k) (xs : List α) :
    recordsAt key k ((Write.put x : Write α κ).apply key xs) = [x] := by
  have htail := recordsAt_filter_ne key k xs
  unfold recordsAt at htail ⊢
  rw [Write.apply,h,filter_cons,htail]
  simp [h]

/-- The last write to a key decides what is under it; without one, all is as before. -/
theorem recordsAt_applyAll (k : κ) (ws : List (Write α κ)) (xs : List α) :
    recordsAt key k (applyAll key ws xs) = match lastWrite key k ws with
      | some (.put x) => [x]
      | some (.remove _) => []
      | none => recordsAt key k xs := by
  induction ws using reverseRecOn with
  | nil => rfl
  | append_singleton ws w ih =>
    rw [applyAll_append]
    simp only [applyAll,foldl_cons,foldl_nil] at ih ⊢
    by_cases h : w.target key = some k
    · have hlast : lastWrite key k (ws ++ [w]) = some w := by
        simp [lastWrite,filter_append,h]
      rw [hlast]
      cases w with
      | put x => exact recordsAt_apply_put key h _
      | remove k' =>
        simp only [Write.target,Option.some.injEq] at h
        subst h
        exact recordsAt_filter_ne key k' _
    · have hlast : lastWrite key k (ws ++ [w]) = lastWrite key k ws := by
        simp [lastWrite,filter_append,h]
      rw [recordsAt_apply_of_ne key h,ih,hlast]

/-- Records whose keys no write is aimed at stay, in their order. -/
theorem filter_applyAll (P : α → Bool) (ws : List (Write α κ)) (xs : List α)
    (h : ∀ w ∈ ws, ∀ x, P x = true → key x ≠ w.target key) :
    (applyAll key ws xs).filter P = xs.filter P := by
  have hfilter : ∀ (t : Option κ), (∀ x, P x = true → key x ≠ t) → ∀ ys : List α,
      (ys.filter fun y => key y ≠ t).filter P = ys.filter P := by
    intro t ht ys
    rw [filter_filter]
    apply filter_congr
    intro y _
    by_cases hy : P y = true
    · simp [hy,ht y hy]
    · simp [hy]
  induction ws generalizing xs with
  | nil => rfl
  | cons w ws ih =>
    have hw := h w (by simp)
    refine (ih (w.apply key xs) fun w' hw' => h w' (by simp [hw'])).trans ?_
    cases w with
    | put x =>
      have hx : P x = false := by
        by_contra hx
        exact hw x (by simpa using hx) rfl
      rw [Write.apply,filter_cons,hx]
      exact hfilter (key x) hw xs
    | remove k => exact hfilter (some k) hw xs

/-! ### Puts under distinct keys -/

/-- Puts under distinct keys come out in reverse, before the old records under other keys. -/
theorem applyAll_puts (hkeys : xs.Pairwise fun x y => key x ≠ key y) (ys : List α) :
    applyAll key (xs.map Write.put) ys =
      xs.reverse ++ ys.filter fun y => ∀ x ∈ xs, key y ≠ key x := by
  induction xs generalizing ys with
  | nil => exact (filter_eq_self.mpr (by simp)).symm
  | cons x xs ih =>
    have hx : ∀ y ∈ xs, key x ≠ key y := fun y hy => rel_of_pairwise_cons hkeys hy
    have hcons : applyAll key ((x :: xs).map Write.put) ys =
        applyAll key (xs.map Write.put) (x :: ys.filter fun y => key y ≠ key x) := rfl
    rw [hcons,ih hkeys.of_cons,filter_cons_of_pos (by simpa using hx),filter_filter]
    simp [Bool.and_comm]

/-- Repeating such puts changes nothing. -/
theorem applyAll_puts_idem (hkeys : xs.Pairwise fun x y => key x ≠ key y)
    (ys : List α) : applyAll key (xs.map Write.put) (applyAll key (xs.map Write.put) ys) =
      applyAll key (xs.map Write.put) ys := by
  have hdropped : (xs.reverse.filter fun y => ∀ x ∈ xs, key y ≠ key x) = [] := by
    rw [filter_eq_nil_iff]
    intro y hy hkept
    exact of_decide_eq_true hkept y (mem_reverse.mp hy) rfl
  simp [applyAll_puts key hkeys,hdropped]

/-- Each of them is then the only record under its key. -/
theorem recordsAt_puts (hkeys : xs.Pairwise fun x y => key x ≠ key y)
    (hx : x ∈ xs) (hk : key x = some k) (ys : List α) :
    recordsAt key k (applyAll key (xs.map Write.put) ys) = [x] := by
  induction xs generalizing ys with
  | nil => simp at hx
  | cons a xs ih =>
    rcases mem_cons.mp hx with rfl | hx
    · refine (filter_applyAll key _ (xs.map Write.put) _ ?_).trans (recordsAt_apply_put key hk ys)
      intro w hw y hy
      obtain ⟨z,hz,rfl⟩ := mem_map.mp hw
      rw [of_decide_eq_true hy,← hk]
      exact rel_of_pairwise_cons hkeys hz
    · exact ih hkeys.of_cons hx _

end Ploydok.Data
