import Mathlib.Data.List.Sort

/-! Stable sorting of lists by a total preorder, and the first elements of a list: both
commute with filters. -/

namespace Ploydok.Order

open List

variable {α : Type} {r : α → α → Prop} [DecidableRel r] {p : α → Bool} {a : α} {l : List α}

theorem filter_orderedInsert [IsTrans α r] (hl : l.Pairwise r)
    (ha : p a = true) : (l.orderedInsert r a).filter p = (l.filter p).orderedInsert r a := by
  induction l with
  | nil => simp [ha]
  | cons b l ih =>
    rw [pairwise_cons] at hl
    by_cases hab : r a b
    · -- everything that follows is also above `a`, so `a` comes first in either list
      have hfirst : ∀ c ∈ (b :: l).filter p, r a c := by
        intro c hc
        rcases mem_cons.mp (mem_filter.mp hc).1 with rfl | hc
        · exact hab
        · exact IsTrans.trans a b c hab (hl.1 c hc)
      rw [orderedInsert_cons_of_le r l hab,filter_cons_of_pos ha]
      cases hf : (b :: l).filter p with
      | nil => rfl
      | cons c cs =>
        have hc : r a c := hfirst c (by simp [hf])
        rw [orderedInsert_cons_of_le r cs hc]
    · rw [orderedInsert_of_not_le r l hab]
      by_cases hb : p b = true
      · rw [filter_cons_of_pos hb,filter_cons_of_pos hb, orderedInsert_of_not_le r _ hab,ih hl.2]
      · rw [filter_cons_of_neg hb,filter_cons_of_neg hb,ih hl.2]

theorem filter_orderedInsert_of_not (ha : ¬ p a = true) :
    (l.orderedInsert r a).filter p = l.filter p := by
  induction l with
  | nil => simp [ha]
  | cons b l ih =>
    by_cases hab : r a b
    · rw [orderedInsert_cons_of_le r l hab,filter_cons_of_neg ha]
    · rw [orderedInsert_of_not_le r l hab,filter_cons,filter_cons,ih]

theorem filter_insertionSort [IsTrans α r] [Std.Total r] (l : List α) :
    (l.insertionSort r).filter p = (l.filter p).insertionSort r := by
  induction l with
  | nil => rfl
  | cons a l ih =>
    rw [insertionSort_cons]
    by_cases ha : p a = true
    · rw [filter_orderedInsert (pairwise_insertionSort r l) ha,ih,
        filter_cons_of_pos ha,insertionSort_cons]
    · rw [filter_orderedInsert_of_not ha,ih,filter_cons_of_neg ha]

theorem mem_take_filter (hx : x ∈ l.take n) (hp : p x = true) : x ∈ (l.filter p).take n := by
  induction l generalizing n with
  | nil => simp at hx
  | cons b l ih =>
    cases n with
    | zero => simp at hx
    | succ n =>
      rw [take_succ_cons] at hx
      by_cases hb : p b = true
      · rw [filter_cons_of_pos hb,take_succ_cons]
        rcases mem_cons.mp hx with rfl | hx
        · exact mem_cons_self
        · exact mem_cons_of_mem _ (ih hx)
      · rw [filter_cons_of_neg hb]
        rcases mem_cons.mp hx with rfl | hx
        · exact absurd hp hb
        · exact take_subset_take_left _ (Nat.le_succ n) (ih hx)

end Ploydok.Order
