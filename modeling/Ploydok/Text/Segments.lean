import Mathlib.Data.List.Infix
import Mathlib.Data.List.DropRight

/-! Text as lists of characters: the two regular-expression replacements that sanitisers are built
from, and where a word can occur in a text of segments joined by a separator. -/

namespace Ploydok.Text

open List String

variable {α : Type}

/-- `text.replace(/[bad]+/g, sep)`: each maximal run of bad characters becomes one `sep`. The flag
says that the run has been replaced. -/
def collapseFrom (bad : α → Bool) (sep : α) : Bool → List α → List α
  | _, [] => []
  | inRun, c :: cs =>
    if bad c then (if inRun then [] else [sep]) ++ collapseFrom bad sep true cs
    else c :: collapseFrom bad sep false cs

def collapse (bad : α → Bool) (sep : α) (cs : List α) : List α := collapseFrom bad sep false cs

variable {sep : α} {cs text word : List α} {c : α} {bad : α → Bool}

theorem mem_collapseFrom (h : c ∈ collapseFrom bad sep inRun cs) :
    c = sep ∨ c ∈ cs ∧ bad c = false := by
  induction cs generalizing inRun with
  | nil => cases h
  | cons d cs ih =>
    have hrest : ∀ inRun, c ∈ collapseFrom bad sep inRun cs →
        c = sep ∨ c ∈ d :: cs ∧ bad c = false :=
      fun _ h => (ih h).imp id fun hc => ⟨mem_cons_of_mem _ hc.1,hc.2⟩
    rw [collapseFrom] at h
    split at h
    · rcases mem_append.mp h with h | h
      · split at h
        · cases h
        · exact .inl (mem_singleton.mp h)
      · exact hrest _ h
    · next hd =>
      rcases mem_cons.mp h with rfl | h
      · exact .inr ⟨mem_cons_self,by simpa using hd⟩
      · exact hrest _ h

theorem mem_collapse
    (h : c ∈ collapse bad sep cs) : c = sep ∨ c ∈ cs ∧ bad c = false := mem_collapseFrom h

/-- `text.replace(/^c+|c+$/g, "")`. -/
def trimEnds (p : α → Bool) (cs : List α) : List α := (cs.dropWhile p).rdropWhile p

theorem mem_of_mem_trimEnds (h : c ∈ trimEnds p cs) : c ∈ cs :=
  (dropWhile_sublist p).mem (( rdropWhile_prefix p _).mem h)

theorem getLast?_append_string {a b : String} {c : Char} (h : b.toList.getLast? = some c) :
    (a ++ b).toList.getLast? = some c := by
  have hne : b.toList ≠ [] := by
    intro hnil
    rw [hnil] at h
    cases h
  rw [toList_append,getLast?_append_of_ne_nil _ hne,h]

theorem getLast?_ofList {c : Char} (h : l.getLast? = some c) :
    (ofList l).toList.getLast? = some c := by
  rwa [toList_ofList]

/-- `text.includes(word)`. -/
def includes [DecidableEq α] (text word : List α) : Bool := decide (word <:+: text)

theorem includes_iff [DecidableEq α] :
    includes text word = true ↔ word <:+: text := by simp [includes]

/-- `text.startsWith(word)`. -/
def startsWith [DecidableEq α] (text word : List α) : Bool := decide (word <+: text)

theorem startsWith_iff [DecidableEq α] :
    startsWith text word = true ↔ word <+: text := by simp [startsWith]

variable {w x y : List α}

/-- A word `sep w` with no further `sep` in it cannot straddle a separator. -/
theorem infix_append_sep_iff (hw : sep ∉ w) :
    sep :: w <:+: x ++ sep :: y ↔ sep :: w <:+: x ∨ sep :: w <:+: sep :: y := by
  rw [infix_append_iff]
  constructor
  · rintro (h | h | ⟨l1,l2,hl,h1,h2⟩)
    · exact .inl h
    · exact .inr h
    · cases l2 with
      | nil =>
        rw [append_nil] at hl
        exact .inl (hl ▸ h1.isInfix)
      | cons b l2 =>
        obtain rfl : b = sep := (cons_prefix_cons.mp h2).1
        cases l1 with
        | nil => exact .inr (hl ▸ h2.isInfix)
        | cons a l1 =>
          -- the second separator of the text would lie inside `w`
          simp only [cons_append,cons.injEq] at hl
          exact absurd (hl.2 ▸ by simp : b ∈ w) hw
  · rintro (h | h)
    · exact .inl h
    · exact .inr (.inl h)

def joinSegments (sep : α) : List (List α) → List α
  | [] => []
  | s :: ss => sep :: s ++ joinSegments sep ss

theorem joinSegments_head (sep : α) (ss : List (List α)) (hs : ss ≠ []) :
    ∃ y, joinSegments sep ss = sep :: y := by
  cases ss with
  | nil => exact absurd rfl hs
  | cons s ss => exact ⟨s ++ joinSegments sep ss,rfl⟩

attribute [local simp] joinSegments

theorem infix_joinSegments_iff (hw : sep ∉ w) (ss : List (List α)) :
    sep :: w <:+: joinSegments sep ss ↔ ∃ s ∈ ss, sep :: w <:+: sep :: s := by
  induction ss with
  | nil => simp
  | cons s ss ih =>
    by_cases hs : ss = []
    · simp [hs]
    · obtain ⟨y,hy⟩ := joinSegments_head sep ss hs
      rw [joinSegments,hy,infix_append_sep_iff hw,← hy,ih]
      simp

theorem infix_append_cons_iff (hw : sep ∉ w) : w <:+: x ++ sep :: y ↔ w <:+: x ∨ w <:+: y := by
  rw [infix_append_iff]
  constructor
  · rintro (h | h | ⟨l1,l2,rfl,h1,h2⟩)
    · exact .inl h
    · rcases infix_cons_iff.mp h with hpre | hin
      · cases w with
        | nil => exact .inl nil_infix
        | cons b w =>
          obtain rfl : b = sep := (cons_prefix_cons.mp hpre).1
          exact absurd mem_cons_self hw
      · exact .inr hin
    · cases l2 with
      | nil =>
        rw [append_nil]
        exact .inl h1.isInfix
      | cons b l2 =>
        obtain rfl : b = sep := (cons_prefix_cons.mp h2).1
        exact absurd (by simp) hw
  · rintro (h | h)
    · exact .inl h
    · exact .inr (.inl (h.trans (suffix_cons sep y).isInfix))

variable {ss ts : List (List α)}

theorem infix_intercalate_iff (hw : sep ∉ w)
    (hs : ss ≠ []) : w <:+: [sep].intercalate ss ↔ ∃ s ∈ ss, w <:+: s := by
  induction ss with
  | nil => exact absurd rfl hs
  | cons s ss ih =>
    cases ss with
    | nil => simp
    | cons t ss =>
      have hcons : [sep].intercalate (s :: t :: ss) = s ++ sep :: [sep].intercalate (t :: ss) := by
        simp
      rw [hcons,infix_append_cons_iff hw,ih (cons_ne_nil _ _)]
      simp

theorem joinSegments_eq_intercalate (sep : α) (hs : ss ≠ []) :
    joinSegments sep ss = sep :: [sep].intercalate ss := by
  induction ss with
  | nil => exact absurd rfl hs
  | cons s ss ih =>
    cases ss with
    | nil => simp
    | cons t ss =>
      rw [joinSegments,ih (cons_ne_nil _ _)]
      simp

theorem count_joinSegments [DecidableEq α] (sep : α) (ss : List (List α)) :
    (joinSegments sep ss).count sep = ss.length + ss.flatten.count sep := by
  induction ss with
  | nil => rfl
  | cons s ss ih =>
    simp only [joinSegments,cons_append,count_cons_self,count_append,ih, length_cons,flatten_cons]
    omega

theorem joinSegments_snoc_head (sep : α) (ss : List (List α)) :
    ∃ y, joinSegments sep ss ++ [sep] = sep :: y := by
  cases ss with
  | nil => exact ⟨[],rfl⟩
  | cons s ss => exact ⟨s ++ joinSegments sep ss ++ [sep],rfl⟩

theorem append_sep_inj (hs : sep ∉ s) (ht : sep ∉ t) (h : s ++ sep :: x = t ++ sep :: y) :
    s = t ∧ x = y := by
  induction s generalizing t with
  | nil =>
    cases t with
    | nil => exact ⟨rfl,(cons.inj h).2⟩
    | cons c t => exact absurd (by simp [(cons.inj h).1]) ht
  | cons c s ih =>
    cases t with
    | nil => exact absurd (by simp [(cons.inj h).1]) hs
    | cons d t =>
      obtain ⟨rfl,hrest⟩ := cons.inj h
      obtain ⟨rfl,hxy⟩ := ih (not_mem_of_not_mem_cons hs) (not_mem_of_not_mem_cons ht) hrest
      exact ⟨rfl,hxy⟩

theorem joinSegments_inj (hs : ∀ s ∈ ss, sep ∉ s)
    (ht : ∀ t ∈ ts, sep ∉ t) (h : joinSegments sep ss = joinSegments sep ts) : ss = ts := by
  induction ss generalizing ts with
  | nil =>
    cases ts with
    | nil => rfl
    | cons t ts => simp at h
  | cons s ss ih =>
    cases ts with
    | nil => simp at h
    | cons t ts =>
      -- one more separator at the end, so that every segment is followed by one
      have hend : s ++ (joinSegments sep ss ++ [sep]) = t ++ (joinSegments sep ts ++ [sep]) := by
        simpa using congrArg (· ++ [sep]) (cons.inj h).2
      obtain ⟨x,hx⟩ := joinSegments_snoc_head sep ss
      obtain ⟨y,hy⟩ := joinSegments_snoc_head sep ts
      rw [hx,hy] at hend
      obtain ⟨rfl,hxy⟩ := append_sep_inj (hs s (by simp)) (ht t (by simp)) hend
      rw [hxy,← hy] at hx
      rw [ih (fun u hu => hs u (by simp [hu])) (fun u hu => ht u (by simp [hu]))
        (append_cancel_right hx)]

theorem joinSegments_inj_of_length [DecidableEq α] (hs : ∀ s ∈ ss, sep ∉ s)
    (hlen : ss.length = ts.length) (h : joinSegments sep ss = joinSegments sep ts) : ss = ts := by
  have hcount := congrArg (count sep) h
  rw [count_joinSegments,count_joinSegments,hlen] at hcount
  have hzero : ss.flatten.count sep = 0 := by
    rw [count_eq_zero,mem_flatten]
    rintro ⟨s,hmem,hsep⟩
    exact hs s hmem hsep
  have hfree : sep ∉ ts.flatten := by
    rw [← count_eq_zero]
    omega
  refine joinSegments_inj hs (fun t ht hsep => ?_) h
  exact hfree (mem_flatten.mpr ⟨t,ht,hsep⟩)

theorem intercalate_lines_inj (ha : ∀ a ∈ as, '\n' ∉ a.toList) (hlen : as.length = bs.length)
    (h : "\n".intercalate as = "\n".intercalate bs) : as = bs := by
  cases as with
  | nil => exact (length_eq_zero_iff.mp hlen.symm).symm
  | cons a as =>
    have hbs : bs ≠ [] := by
      rintro rfl
      simp at hlen
    have hchars := congrArg toList h
    rw [toList_intercalate,toList_intercalate] at hchars
    have hjoin : joinSegments '\n' ((a :: as).map toList) = joinSegments '\n' (bs.map toList) := by
      rw [joinSegments_eq_intercalate _ (by simp),
        joinSegments_eq_intercalate _ (by simpa using hbs)]
      exact congrArg _ hchars
    have hmap := joinSegments_inj_of_length (by simpa using ha) (by simpa using hlen) hjoin
    exact map_injective_iff.mpr (fun _ _ => toList_inj.mp) hmap

end Ploydok.Text
