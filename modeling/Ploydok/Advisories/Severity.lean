import Mathlib.Data.Rat.Floor

/-! The severity of an advisory: `severityFromDetail` of `apps/api/src/advisories/service.ts`, against
the base score that CVSS v3 gives to a vector. -/

namespace Ploydok.Advisories

open List

inductive Level where
  | low
  | medium
  | high
  | critical
  | unknown
deriving DecidableEq

structure Severity where
  (type score : String)

structure SeverityInfo where
  level : Level
  (type score : Option String)

/-- `(\d+(?:\.\d+)?)(?:\/|$)` at the start of a text: the digits before and after the point. A run of
digits cannot be cut short, since a digit would follow. -/
def numberAt (cs : List Char) : Option (List Char × List Char) :=
  let digits := cs.takeWhile Char.isDigit
  if digits = [] then none
  else
    match cs.dropWhile Char.isDigit with
    | [] | '/' :: _ => some (digits, [])
    | '.' :: cs =>
      let decimals := cs.takeWhile Char.isDigit
      match cs.dropWhile Char.isDigit with
      | [] | '/' :: _ => if decimals = [] then none else some (digits, decimals)
      | _ => none
    | _ => none

def numberAfterColon : List Char → Option (List Char × List Char)
  | [] => none
  | ':' :: cs => numberAt cs <|> numberAfterColon cs
  | _ :: cs => numberAfterColon cs

def firstMatch (cs : List Char) : Option (List Char × List Char) :=
  numberAt cs <|> numberAfterColon cs

def numeric (score : String) : Option Rat :=
  (firstMatch score.toList).map fun (digits, decimals) =>
    Nat.ofDigitChars 10 (digits ++ decimals) 0 / 10 ^ decimals.length

def severityFromDetail (severity : Option (List Severity)) : SeverityInfo :=
  match severity.bind head? with
  | none => ⟨.unknown,none,none⟩
  | some first =>
    let level : Level :=
      match numeric first.score with
      | none => .unknown
      | some numeric =>
        if 9 ≤ numeric then .critical
        else if 7 ≤ numeric then .high
        else if 4 ≤ numeric then .medium
        else if 0 < numeric then .low
        else .unknown
    ⟨level,some first.type,some first.score⟩

/-- When `refreshAdvisories` notifies about a match. -/
def notifies (inserted redis : Bool) (level : Level) : Bool :=
  inserted && redis && (level = .high || level = .critical)

/-! ### CVSS v3 -/

/-- The values of a base metric and their weights; those of `PR` depend on the scope. -/
def weights (changed : Bool) : String → List (String × Rat)
  | "AV" => [("N", 0.85), ("A", 0.62), ("L", 0.55), ("P", 0.2)]
  | "AC" => [("L", 0.77), ("H", 0.44)]
  | "PR" => [("N", 0.85), ("L", if changed then 0.68 else 0.62),
      ("H", if changed then 0.5 else 0.27)]
  | "UI" => [("N", 0.85), ("R", 0.62)]
  | "C" | "I" | "A" => [("H", 0.56), ("L", 0.22), ("N", 0)]
  | _ => []

def roundup (x : Rat) : Rat := ⌈10 * x⌉ / 10

/-- The base score of a vector by its metrics, which may stand in any order and among others. -/
def baseScore (metrics : List (String × String)) : Option Rat := do
  let changed ← (metrics.lookup "S").bind (lookup · [("U", false), ("C", true)])
  let weight name := (metrics.lookup name).bind (lookup · (weights changed name))
  let exploitability :=
    8.22 * (← weight "AV") * (← weight "AC") * (← weight "PR") * (← weight "UI")
  let iss := 1 - (1 - (← weight "C")) * (1 - (← weight "I")) * (1 - (← weight "A"))
  let impact := if changed then 7.52 * (iss - 0.029) - 3.25 * (iss - 0.02) ^ 15 else 6.42 * iss
  return if impact ≤ 0 then 0
    else roundup (min ((if changed then 1.08 else 1) * (impact + exploitability)) 10)

structure CvssVector where
  /-- `3.0` or `3.1`. -/
  minor : Bool
  metrics : List (String × String)
  score : Rat
  scored : baseScore metrics = some score

def CvssVector.text (v : CvssVector) : String :=
  (if v.minor then "CVSS:3.1" else "CVSS:3.0") ++
    String.join (v.metrics.map fun (name, value) => "/" ++ name ++ ":" ++ value)

def rating (score : Rat) : Level :=
  if score = 0 then .unknown
  else if score < 4 then .low
  else if score < 7 then .medium
  else if score < 9 then .high
  else .critical

/-- The level is the rating of the base score, and what is rated high or critical is notified. -/
def Rated (v : CvssVector) (type : String) (others : List Severity) : Prop :=
  let level := (severityFromDetail (some (⟨type,v.text⟩ :: others))).level
  level = rating v.score ∧
    (rating v.score = .high ∨ rating v.score = .critical → notifies true true level = true)

theorem firstMatch_text (v : CvssVector) :
    firstMatch v.text.toList = some (['3'], [if v.minor then '1' else '0']) := by
  unfold CvssVector.text
  rw [String.toList_append]
  -- what follows the version is nothing, or starts with a slash
  cases v.metrics with
  | nil => cases v.minor <;> rfl
  | cons metric metrics =>
    have hslash : "/".toList = ['/'] := String.toList_ofList
    simp only [map_cons,String.join_cons,String.toList_append,hslash,append_assoc,cons_append]
    cases v.minor <;> rfl

/-- The version of the vector is taken for its score. -/
theorem rated_iff (v : CvssVector) (type : String) (others : List Severity) :
    Rated v type others ↔ v.score ≠ 0 ∧ v.score < 4 := by
  have hlevel : (severityFromDetail (some (⟨type,v.text⟩ :: others))).level = .low := by
    simp only [severityFromDetail,Option.bind_some,head?_cons,numeric,firstMatch_text]
    cases v.minor <;> decide +kernel
  unfold Rated
  rw [hlevel]
  unfold rating
  split_ifs <;> simp_all

def remote : CvssVector where
  minor := true
  metrics := [("AV", "N"), ("AC", "L"), ("PR", "N"), ("UI", "N"), ("S", "U"), ("C", "H"), ("I", "H"),
    ("A", "H")]
  score := 9.8
  scored := by decide +kernel

/-- CVSS:3.1/AV:N/AC:L/PR:N/UI:N/S:U/C:H/I:H/A:H has the base score 9.8. -/
theorem critical_not_rated :
    ¬ ∀ (v : CvssVector) (type : String) (others : List Severity), Rated v type others := by
  intro h
  have hlevel := (h remote "CVSS_V3" []).1
  revert hlevel
  decide +kernel

end Ploydok.Advisories
