import Ploydok.Text.Number

/-! Instants as text: the calendar fields of an instant in the proleptic Gregorian calendar, and the
ISO 8601 form with milliseconds in UTC, for any rendering of the year. -/

namespace Ploydok.Text

open List

def padLeft (width n : Nat) : String :=
  let digits := toString n
  String.ofList (replicate (width - digits.length) '0') ++ digits

@[ext]
structure Civil where
  year : Int
  (month day : Nat)
deriving DecidableEq, Repr

/-- The date a number of days after 1970-01-01. Years are counted from the first of March, in eras
of 400 years. -/
def civilFromDays (days : Int) : Civil :=
  let z := days + 719468
  let era := z / 146097
  let dayOfEra := (z % 146097).toNat
  let yearOfEra :=
    (dayOfEra - dayOfEra / 1460 + dayOfEra / 36524 - dayOfEra / 146096) / 365
  let dayOfYear := dayOfEra - (365 * yearOfEra + yearOfEra / 4 - yearOfEra / 100)
  let mp := (5 * dayOfYear + 2) / 153
  let month := if mp < 10 then mp + 3 else mp - 9
  { year := yearOfEra + era * 400 + if month ≤ 2 then 1 else 0
    month := month
    day := dayOfYear - (153 * mp + 2) / 5 + 1 }

def msPerDay : Int := 86400000

/-- The year of an instant in milliseconds since 1970-01-01T00:00:00Z. -/
def utcYear (ms : Int) : Int := (civilFromDays (ms / msPerDay)).year

/-- `YYYY-MM-DDTHH:MM:SS.mmmZ`, with the year as `renderYear` writes it. -/
def isoMillis (renderYear : Int → String) (ms : Int) : String :=
  let date := civilFromDays (ms / msPerDay)
  let inDay := (ms % msPerDay).toNat
  renderYear date.year ++ "-" ++ padLeft 2 date.month ++ "-" ++ padLeft 2 date.day ++ "T" ++
    padLeft 2 (inDay / 3600000) ++ ":" ++ padLeft 2 (inDay / 60000 % 60) ++ ":" ++
    padLeft 2 (inDay / 1000 % 60) ++ "." ++ padLeft 3 (inDay % 1000) ++ "Z"

example : isoMillis (fun y => padLeft 4 y.toNat) 951782400123 = "2000-02-29T00:00:00.123Z" := by
  decide

/-- The year within its era of a day of the era, counted from the first of March. -/
def yearOfEra (d : Nat) : Nat := (d - d / 1460 + d / 36524 - d / 146096) / 365

def yearStart (y : Nat) : Nat := 365 * y + y / 4 - y / 100

theorem yearOfEra_bounds (hd : d < 146097) :
    yearOfEra d < 400 ∧ yearStart (yearOfEra d) ≤ d ∧ d - yearStart (yearOfEra d) ≤ 365 := by
  unfold yearStart yearOfEra
  generalize hn : d - d / 1460 + d / 36524 - d / 146096 = n
  have hquarter : n / 365 / 4 = n / 1460 := by rw [Nat.div_div_eq_div_mul]
  have hhundred : n / 365 / 100 = n / 36500 := by rw [Nat.div_div_eq_div_mul]
  have hcentury : d / 36524 ≤ 4 := by omega
  have hfewer : d / 36524 ≤ d / 1460 := Nat.div_le_div_left (by decide) (by decide)
  have hle : n ≤ d := by omega
  -- leap days are counted at most one too early, the skipped ones exactly
  have hleap : n / 1460 ≤ d / 1460 ∧ d / 1460 ≤ n / 1460 + 1 := by
    constructor
    · exact Nat.div_le_div_right hle
    · omega
  have hskipped : n / 36500 = d / 36524 - d / 146096 := by
    obtain h | h | h | h | h : d / 36524 = 0 ∨ d / 36524 = 1 ∨ d / 36524 = 2 ∨ d / 36524 = 3 ∨
        d / 36524 = 4 := by omega
    all_goals rw [h] at hn ⊢; omega
  rw [hquarter,hhundred]
  refine ⟨?_,?_,?_⟩
  · omega
  · omega
  · omega

def daysFromCivil (date : Civil) : Int :=
  let mp := if date.month ≤ 2 then date.month + 9 else date.month - 3
  let year := date.year - if date.month ≤ 2 then 1 else 0
  let dayOfYear := (153 * mp + 2) / 5 + date.day - 1
  year / 400 * 146097 + ((dayOfYear + yearStart (year % 400).toNat : Nat) : Int) - 719468

/-- What `civilFromDays` computes, by the era and the day of the year. -/
theorem civilFromDays_spec (days : Int) : ∃ era : Int, ∃ y n : Nat, y < 400 ∧ n ≤ 365 ∧
    days = era * 146097 + (n + yearStart y : Nat) - 719468 ∧
    civilFromDays days = if (5 * n + 2) / 153 < 10 then
        ⟨y + era * 400,(5 * n + 2) / 153 + 3,n - (153 * ((5 * n + 2) / 153) + 2) / 5 + 1⟩
      else
        ⟨y + era * 400 + 1,(5 * n + 2) / 153 - 9,n - (153 * ((5 * n + 2) / 153) + 2) / 5 + 1⟩ := by
  obtain ⟨d,hd⟩ : ∃ d : Nat, (days + 719468) % 146097 = d :=
    ⟨((days + 719468) % 146097).toNat,by omega⟩
  obtain ⟨hyear,hstart,hend⟩ := yearOfEra_bounds (d := d) (by omega)
  refine ⟨(days + 719468) / 146097,yearOfEra d,d - yearStart (yearOfEra d),hyear,hend,?_,?_⟩
  · omega
  · unfold civilFromDays
    simp only [hd,Int.toNat_natCast]
    rw [← yearOfEra,← yearStart]
    have hmp : (5 * (d - yearStart (yearOfEra d)) + 2) / 153 ≤ 11 := by omega
    generalize (5 * (d - yearStart (yearOfEra d)) + 2) / 153 = mp at hmp ⊢
    by_cases h : mp < 10
    · have hmonth : ¬ mp + 3 ≤ 2 := by omega
      simp [h,hmonth]
    · have hmonth : mp - 9 ≤ 2 := by omega
      simp [h,hmonth]

theorem daysFromCivil_civilFromDays (days : Int) : daysFromCivil (civilFromDays days) = days := by
  obtain ⟨era,y,n,hy,hn,hdays,hcivil⟩ := civilFromDays_spec days
  have hera : (y + era * 400) % 400 = y := by omega
  have hera' : (y + era * 400) / 400 = era := by omega
  rw [hcivil,hdays]
  unfold daysFromCivil
  split
  · have hmonth : ¬ (5 * n + 2) / 153 + 3 ≤ 2 := by omega
    simp only [hmonth,↓reduceIte,Int.sub_zero,hera,hera',Int.toNat_natCast]
    omega
  · have hmonth : (5 * n + 2) / 153 - 9 ≤ 2 := by omega
    simp only [hmonth,↓reduceIte,Int.add_sub_cancel,hera,hera',Int.toNat_natCast]
    omega

theorem civilFromDays_bounds (days : Int) :
    (civilFromDays days).month < 100 ∧ (civilFromDays days).day < 100 := by
  obtain ⟨era,y,n,hy,hn,hdays,hcivil⟩ := civilFromDays_spec days
  rw [hcivil]
  split
  · constructor
    · show (5 * n + 2) / 153 + 3 < 100
      omega
    · show n - (153 * ((5 * n + 2) / 153) + 2) / 5 + 1 < 100
      omega
  · constructor
    · show (5 * n + 2) / 153 - 9 < 100
      omega
    · show n - (153 * ((5 * n + 2) / 153) + 2) / 5 + 1 < 100
      omega

/-! ### Reading a text back -/

theorem padLeft_toList (width n : Nat) : (padLeft width n).toList =
    replicate (width - (toString n).length) '0' ++ (toString n).toList := by
  simp [padLeft]

theorem padLeft_injective (width : Nat) : Function.Injective (padLeft width) := by
  have hvalue : ∀ n, Nat.ofDigitChars 10 (padLeft width n).toList 0 = n := by
    intro n
    rw [padLeft_toList,Nat.ofDigitChars_append,Nat.ofDigitChars_replicate_zero]
    simp [toString,Nat.repr]
  intro m n h
  rw [← hvalue m,← hvalue n,h]

theorem length_padLeft (hw : 0 < width) (h : n < 10 ^ width) :
    (padLeft width n).toList.length = width := by
  have hdigits : (toString n).length ≤ width := (Nat.length_repr_le_iff hw).mpr h
  rw [padLeft_toList,length_append,length_replicate,String.length_toList]
  omega

theorem isDigit_of_mem_padLeft (h : c ∈ (padLeft width n).toList) : c.isDigit = true := by
  rw [padLeft_toList,mem_append] at h
  rcases h with h | h
  · rw [(mem_replicate.mp h).2]
    decide
  · exact isDigit_of_mem_toString h

theorem padLeft_append_inj (hw : 0 < width) (hm : m < 10 ^ width) (hn : n < 10 ^ width)
    (h : (padLeft width m).toList ++ a = (padLeft width n).toList ++ b) : m = n ∧ a = b := by
  have hlen : (padLeft width m).toList.length = (padLeft width n).toList.length := by
    rw [length_padLeft hw hm,length_padLeft hw hn]
  obtain ⟨htext,hrest⟩ := append_inj h hlen
  exact ⟨padLeft_injective width (String.toList_inj.mp htext),hrest⟩

theorem sign_append_ne_padLeft (hsign : sign = "-" ∨ sign = "+") (width n : Nat) (rest : String) :
    sign ++ rest ≠ padLeft width n := by
  intro h
  have hmem : ∀ c ∈ sign.toList, c.isDigit = true := by
    intro c hc
    have hpadded : c ∈ (padLeft width n).toList := by
      rw [← h,String.toList_append]
      exact mem_append_left _ hc
    exact isDigit_of_mem_padLeft hpadded
  rcases hsign with rfl | rfl
  · exact absurd (hmem '-' (by decide)) (by decide)
  · exact absurd (hmem '+' (by decide)) (by decide)

theorem sign_append_inj (hs : s = "-" ∨ s = "+") (ht : t = "-" ∨ t = "+") (h : s ++ a = t ++ b) :
    s = t ∧ a = b := by
  have hone : ∀ x, x = "-" ∨ x = "+" → x.toList.length = 1 := by
    have hminus : "-".toList = ['-'] := String.toList_ofList
    have hplus : "+".toList = ['+'] := String.toList_ofList
    rintro x (rfl | rfl)
    · rw [hminus,length_singleton]
    · rw [hplus,length_singleton]
  have hlen : s.toList.length = t.toList.length := by rw [hone s hs,hone t ht]
  have hchars : s.toList ++ a.toList = t.toList ++ b.toList := by
    rw [← String.toList_append,h,String.toList_append]
  obtain ⟨hst,hab⟩ := append_inj hchars hlen
  exact ⟨String.toList_inj.mp hst,String.toList_inj.mp hab⟩

theorem signedYear_injective (width : Nat) : Function.Injective fun y : Int =>
    if 0 ≤ y ∧ y ≤ 9999 then padLeft 4 y.toNat
    else (if y < 0 then "-" else "+") ++ padLeft width y.natAbs := by
  have hsign (y : Int) : (if y < 0 then "-" else "+") = "-" ∨
      (if y < 0 then "-" else "+") = "+" := by
    by_cases hy : y < 0
    · exact .inl (if_pos hy)
    · exact .inr (if_neg hy)
  intro x y h
  by_cases hx : 0 ≤ x ∧ x ≤ 9999
  · by_cases hy : 0 ≤ y ∧ y ≤ 9999
    · simp only [hx,hy,and_self,↓reduceIte] at h
      have hn := padLeft_injective 4 h
      omega
    · simp only [hx,hy,and_self,↓reduceIte] at h
      exact absurd h.symm (sign_append_ne_padLeft (hsign y) 4 _ _)
  · by_cases hy : 0 ≤ y ∧ y ≤ 9999
    · simp only [hx,hy,and_self,↓reduceIte] at h
      exact absurd h (sign_append_ne_padLeft (hsign x) 4 _ _)
    · simp only [hx,hy,↓reduceIte] at h
      obtain ⟨hsigns,hdigits⟩ := sign_append_inj (hsign x) (hsign y) h
      have hn := padLeft_injective width hdigits
      have hiff : x < 0 ↔ y < 0 := by
        by_cases hnx : x < 0 <;> by_cases hny : y < 0 <;> simp [hnx,hny] at hsigns ⊢
      omega

def isoTail (date : Civil) (inDay : Nat) : List Char :=
  '-' :: ((padLeft 2 date.month).toList ++ '-' :: ((padLeft 2 date.day).toList ++
    'T' :: ((padLeft 2 (inDay / 3600000)).toList ++ ':' ::
      ((padLeft 2 (inDay / 60000 % 60)).toList ++ ':' ::
        ((padLeft 2 (inDay / 1000 % 60)).toList ++ '.' ::
          ((padLeft 3 (inDay % 1000)).toList ++ ['Z']))))))

theorem isoMillis_toList (f : Int → String) (ms : Int) : (isoMillis f ms).toList =
    (f (utcYear ms)).toList ++ isoTail (civilFromDays (ms / msPerDay)) (ms % msPerDay).toNat := by
  simp [isoMillis,isoTail,utcYear]

theorem length_isoTail (hmonth : date.month < 100) (hday : date.day < 100) (hin : inDay < 86400000) :
    (isoTail date inDay).length = 20 := by
  have hhour : inDay / 3600000 < 10 ^ 2 := by omega
  have hminute : inDay / 60000 % 60 < 10 ^ 2 := by omega
  have hsecond : inDay / 1000 % 60 < 10 ^ 2 := by omega
  have hmilli : inDay % 1000 < 10 ^ 3 := by omega
  simp only [isoTail,length_cons,length_append,length_nil,
    length_padLeft (by decide : 0 < 2) hmonth,length_padLeft (by decide : 0 < 2) hday,
    length_padLeft (by decide : 0 < 2) hhour,length_padLeft (by decide : 0 < 2) hminute,
    length_padLeft (by decide : 0 < 2) hsecond,length_padLeft (by decide : 0 < 3) hmilli]

theorem isoTail_inj (ha : a.month < 100 ∧ a.day < 100) (hb : b.month < 100 ∧ b.day < 100)
    (hi : i < 86400000) (hj : j < 86400000) (h : isoTail a i = isoTail b j) :
    a.month = b.month ∧ a.day = b.day ∧ i = j := by
  obtain ⟨hmonth,h⟩ := padLeft_append_inj (by decide) ha.1 hb.1 (cons.inj h).2
  obtain ⟨hday,h⟩ := padLeft_append_inj (by decide) ha.2 hb.2 (cons.inj h).2
  obtain ⟨hhour,h⟩ := padLeft_append_inj (by decide) (by omega) (by omega) (cons.inj h).2
  obtain ⟨hminute,h⟩ := padLeft_append_inj (by decide) (by omega) (by omega) (cons.inj h).2
  obtain ⟨hsecond,h⟩ := padLeft_append_inj (by decide) (by omega) (by omega) (cons.inj h).2
  obtain ⟨hmilli,-⟩ := padLeft_append_inj (by decide) (by omega) (by omega) (cons.inj h).2
  exact ⟨hmonth,hday,by omega⟩

theorem isoMillis_injective (hf : Function.Injective f) : Function.Injective (isoMillis f) := by
  intro x y h
  have hx := civilFromDays_bounds (x / msPerDay)
  have hy := civilFromDays_bounds (y / msPerDay)
  have hi : (x % msPerDay).toNat < 86400000 := by unfold msPerDay; omega
  have hj : (y % msPerDay).toNat < 86400000 := by unfold msPerDay; omega
  have hchars := congrArg String.toList h
  rw [isoMillis_toList,isoMillis_toList] at hchars
  obtain ⟨hyear,htail⟩ := append_inj' hchars (by
    rw [length_isoTail hx.1 hx.2 hi,length_isoTail hy.1 hy.2 hj])
  obtain ⟨hmonth,hday,hinDay⟩ := isoTail_inj hx hy hi hj htail
  have hdate : civilFromDays (x / msPerDay) = civilFromDays (y / msPerDay) :=
    Civil.ext (hf (String.toList_inj.mp hyear)) hmonth hday
  have hdays := Function.LeftInverse.injective daysFromCivil_civilFromDays hdate
  unfold msPerDay at hdays hinDay
  omega

theorem not_mem_isoMillis (hf : ∀ y, c ∉ (f y).toList) (hdigit : c.isDigit = false)
    (hsep : c ∉ ['-', 'T', ':', '.', 'Z']) (ms : Int) : c ∉ (isoMillis f ms).toList := by
  have hpad : ∀ w n, c ∉ (padLeft w n).toList := by
    intro w n hc
    rw [isDigit_of_mem_padLeft hc] at hdigit
    exact absurd hdigit (by decide)
  simp only [mem_cons,not_mem_nil,or_false,not_or] at hsep
  rw [isoMillis_toList]
  simp [isoTail,hf,hpad,hsep]

theorem not_mem_signedYear (hdigit : c.isDigit = false) (hsign : c ∉ ['-', '+']) (width : Nat)
    (y : Int) :
    c ∉ (if 0 ≤ y ∧ y ≤ 9999 then padLeft 4 y.toNat
      else (if y < 0 then "-" else "+") ++ padLeft width y.natAbs).toList := by
  have hpad : ∀ w n, c ∉ (padLeft w n).toList := by
    intro w n hc
    rw [isDigit_of_mem_padLeft hc] at hdigit
    exact absurd hdigit (by decide)
  simp only [mem_cons,not_mem_nil,or_false,not_or] at hsign
  split
  · exact hpad _ _
  · split
    · simp [hpad,hsign]
    · simp [hpad,hsign]

end Ploydok.Text
