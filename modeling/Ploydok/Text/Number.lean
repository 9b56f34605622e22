import Mathlib.Algebra.Order.Ring.Nat
import Ploydok.Text.Segments

/-! Numbers in text: reading an integer off the front of a text the way `parseInt` does,
and splitting a text at the last occurrence of a separator. Both undo the writing of a
number behind a separator. -/

namespace Ploydok.Text

section SplitLast

variable {α : Type} [DecidableEq α]

/-- The text before and behind the last `sep`. -/
def splitLast (sep : α) (cs : List α) : Option (List α × List α) :=
  let back := cs.reverse.takeWhile (· ≠ sep)
  match cs.reverse.dropWhile (· ≠ sep) with
  | [] => none
  | _ :: front => some (front.reverse, back.reverse)

theorem splitLast_append (front : List α) (h : sep ∉ back) :
    splitLast sep (front ++ sep :: back) = some (front, back) := by
  have hall : ∀ x ∈ back.reverse, decide (x ≠ sep) = true := by
    intro x hx
    rw [List.mem_reverse] at hx
    exact decide_eq_true fun he => h (he ▸ hx)
  have hrev : (front ++ sep :: back).reverse = back.reverse ++ sep :: front.reverse := by simp
  unfold splitLast
  rw [hrev,List.takeWhile_append_of_pos hall,List.dropWhile_append_of_pos hall]
  simp

end SplitLast

/-- The white space that `parseInt` skips and `trim` removes. -/
def isJsSpace (c : Char) : Bool :=
  c.toNat ∈ [0x9, 0xA, 0xB, 0xC, 0xD, 0x20, 0xA0, 0x1680, 0x2028, 0x2029, 0x202F, 0x205F, 0x3000,
    0xFEFF] || (0x2000 ≤ c.toNat && c.toNat ≤ 0x200A)

def parseDigits (cs : List Char) : Option Nat :=
  let digits := cs.takeWhile Char.isDigit
  if digits.isEmpty then none else some (Nat.ofDigitChars 10 digits 0)

/-- `parseInt(text, 10)`, with `none` for `NaN`. -/
def parseInt (cs : List Char) : Option Int :=
  match cs.dropWhile isJsSpace with
  | '-' :: rest => (parseDigits rest).map fun (n : Nat) => -(n : Int)
  | '+' :: rest | rest => (parseDigits rest).map fun (n : Nat) => (n : Int)

theorem isDigit_of_mem_toString {n : Nat} (h : c ∈ (toString n).toList) : c.isDigit = true := by
  have hrepr : (toString n).toList = Nat.toDigits 10 n := by simp [toString,Nat.repr]
  rw [hrepr] at h
  exact Nat.isDigit_of_mem_toDigits (by decide) (by decide) h

theorem parseDigits_toString (n : Nat) : parseDigits (toString n).toList = some n := by
  have hall : (toString n).toList.takeWhile Char.isDigit = (toString n).toList :=
    List.takeWhile_eq_self_iff.mpr fun c hc => isDigit_of_mem_toString hc
  have hne : (toString n).toList.isEmpty = false := by
    simp [toString,Nat.repr]
  have hvalue : Nat.ofDigitChars 10 (toString n).toList 0 = n := by simp [toString,Nat.repr]
  simp only [parseDigits,hall,hne,Bool.false_eq_true,↓reduceIte,hvalue]

theorem toString_nat_inj {m n : Nat} (h : toString m = toString n) : m = n := by
  have hm := parseDigits_toString m
  rw [h,parseDigits_toString n] at hm
  exact (Option.some.inj hm).symm

theorem not_space_of_isDigit (h : c.isDigit = true) : isJsSpace c = false := by
  have hc : 48 ≤ c.toNat ∧ c.toNat ≤ 57 := by
    simpa [Char.isDigit,Char.le_def,UInt32.le_iff_toNat_le] using h
  unfold isJsSpace
  simp
  omega

theorem parseInt_toString_nat (n : Nat) : parseInt (toString n).toList = some (n : Int) := by
  cases hcs : (toString n).toList with
  | nil =>
    simp [toString,Nat.repr] at hcs
  | cons c cs =>
    have hc : c.isDigit = true := isDigit_of_mem_toString (by rw [hcs]; simp)
    have hminus : c ≠ '-' := by
      rintro rfl
      revert hc
      decide
    have hplus : c ≠ '+' := by
      rintro rfl
      revert hc
      decide
    have hdrop : (c :: cs).dropWhile isJsSpace = c :: cs := by
      simp [not_space_of_isDigit hc]
    have hread := parseDigits_toString n
    rw [hcs] at hread
    unfold parseInt
    rw [hdrop]
    simp [hread,hminus,hplus]

theorem toString_negSucc_toList (n : Nat) :
    (toString (Int.negSucc n)).toList = '-' :: (toString (n + 1)).toList := by
  simp [toString,Int.repr]

theorem parseInt_toString (n : Int) : parseInt (toString n).toList = some n := by
  cases n with
  | ofNat n => exact parseInt_toString_nat n
  | negSucc n =>
    have hdrop : ('-' :: (toString (n + 1)).toList).dropWhile isJsSpace =
        '-' :: (toString (n + 1)).toList := by
      simp [show isJsSpace '-' = false by decide]
    simp only [parseInt,toString_negSucc_toList,hdrop,parseDigits_toString,Option.map_some,
      Option.some.injEq]
    omega

theorem colon_not_mem_toString (n : Int) : ':' ∉ (toString n).toList := by
  intro h
  cases n with
  | ofNat n => exact absurd (isDigit_of_mem_toString h) (by decide)
  | negSucc n =>
    rw [toString_negSucc_toList] at h
    rcases List.mem_cons.mp h with h | h
    · exact absurd h (by decide)
    · exact absurd (isDigit_of_mem_toString h) (by decide)

def jsLength (s : String) : Nat :=
  (s.toList.map fun c => if c.toNat < 0x10000 then 1 else 2).sum

end Ploydok.Text
