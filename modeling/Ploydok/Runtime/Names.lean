import Ploydok.Text.Segments
import Mathlib.Data.List.Dedup

/-! Names of the blue and the green container of an app, and the colour read back from a name
(`services/runtime-containers.ts`, `getCurrentColor` of `worker/runner.ts`) by looking for `-blue`
and then for `-green` anywhere in it. -/

namespace Ploydok.Runtime

open Text String

inductive Color where
  | blue | green
  deriving DecidableEq, Repr

namespace Color

def text : Color → String
  | blue => "blue"
  | green => "green"

def oppositeColor : Color → Color
  | blue => green
  | green => blue

theorem oppositeColor_ne (c : Color) : c.oppositeColor ≠ c := by cases c <;> decide

theorem oppositeColor_ne_iff (c d : Color) : d.oppositeColor ≠ c ↔ d = c := by
  cases c <;> cases d <;> decide

end Color

/-- The columns of `apps` that a container name depends on. -/
structure App where
  (id slug : String)
  deriving DecidableEq, Repr

/-- `toLowerCase` of one character. Besides `A`–`Z` only two characters have an ASCII character in
their lower-case form; the others stay outside ASCII. -/
def lowerChar (c : Char) : List Char :=
  if 'A' ≤ c ∧ c ≤ 'Z' then [Char.ofNat (c.toNat + 32)]
  else if c = 'İ' then ['i', '̇']
  else if c = 'K' then ['k']
  else [c]

def toLowerCase (cs : List Char) : List Char := cs.flatMap lowerChar

/-- `[a-z0-9]`. -/
def isAlnum (c : Char) : Bool := ('a' ≤ c && c ≤ 'z') || ('0' ≤ c && c ≤ '9')

/-- `[a-z0-9-]`. -/
def isNameChar (c : Char) : Bool := isAlnum c || c == '-'

/-- The part of a name made from a text that a user or an id gives: runs of other characters become
one dash, dashes at the ends go, the rest is cut. -/
def nameToken (maxLen : Nat) (fallback value : String) : String :=
  let normalized := (trimEnds (· == '-') (collapse (· == '-') '-'
    (collapse (fun c => !isNameChar c) '-' (toLowerCase value.toList)))).take maxLen
  if normalized = [] then fallback else ofList normalized

def normalizeRuntimeContainerSlug (slug : String) : String := nameToken 32 "app" slug

def runtimeContainerShortId (appId : String) : String :=
  ofList (((collapse (fun c => !isNameChar c) '-' (toLowerCase appId.toList)).dropWhile
    (· == '-')).take 8)

def runtimeContainerName (app : App) (color : Color) : String :=
  "ploydok-app-" ++ normalizeRuntimeContainerSlug app.slug ++ "-" ++
    runtimeContainerShortId app.id ++ "-" ++ color.text

def legacyRuntimeContainerName (appId : String) (color : Color) : String :=
  "ploydok-app-" ++ ofList (toLowerCase appId.toList) ++ "-" ++ color.text

def runtimeContainerNameCandidates (app : App) (color : Color) : List String :=
  [runtimeContainerName app color, legacyRuntimeContainerName app.id color].dedup

def runtimeServiceSlug (slug : String) : List Char :=
  (trimEnds (· == '-') (collapse (fun c => !isNameChar c) '-' (toLowerCase slug.toList))).take 36

/-- The name of the service of an app in swarm mode (`worker/swarm-runner.ts`). -/
def runtimeServiceName (app : App) : String :=
  let slug := runtimeServiceSlug app.slug
  let token := ((toLowerCase app.id.toList).filter isNameChar).take 10
  "ploydok-app-" ++ (if slug = [] then "app" else ofList slug) ++ "-" ++ ofList token

/-- The probe of a container, in the same words for every kind of deploy. -/
def healthcheckShell (port : Nat) (path : String) : String :=
  "for host in 127.0.0.1 \"$(hostname 2>/dev/null)\"; do [ -z \"$host\" ] && continue; " ++
    "if command -v curl >/dev/null 2>&1; then " ++
    "code=\"$(curl -sS -m 5 -o /dev/null -w '%\x7bhttp_code\x7d' \"http://$host:" ++
    toString port ++ path ++ "\" || true)\"; " ++
    "case \"$code\" in [234][0-9][0-9]) exit 0;; esac; fi; " ++
    "if command -v wget >/dev/null 2>&1; then " ++
    "wget -q -O /dev/null --timeout=5 \"http://$host:" ++ toString port ++ path ++
    "\" && exit 0; fi; done; exit 1"

/-- `null`, `undefined` and the empty string have no colour. -/
def inferContainerColor : Option String → Option Color
  | none => none
  | some containerRef =>
    if containerRef = "" then none
    else if includes containerRef.toList "-blue".toList then some .blue
    else if includes containerRef.toList "-green".toList then some .green
    else none

/-- The colour of `apps.container_id`, else that of the most recent succeeded build, else green.
`succeededBuilds` are `container_id` columns, newest first. -/
def getCurrentColor (containerId : Option String) (succeededBuilds : List (Option String)) :
    Color :=
  match inferContainerColor containerId with
  | some c => c
  | none =>
    match inferContainerColor (succeededBuilds.head?.join) with
    | some c => c
    | none => .green

theorem append_text_ne {c d : Color} (h : c ≠ d) (x y : String) : x ++ c.text ≠ y ++ d.text := by
  intro he
  have hne : ∀ e : Color, e.text.toList ≠ [] := by intro e; cases e <;> decide
  have hl := congrArg (fun s => s.toList.getLast?) he
  simp only [toList_append,List.getLast?_append_of_ne_nil _ (hne _)] at hl
  revert h hl
  cases c <;> cases d <;> decide

variable (app : App)

theorem runtimeContainerName_not_mem_candidates (c : Color) :
    runtimeContainerName app c.oppositeColor ∉ runtimeContainerNameCandidates app c := by
  have hne := append_text_ne c.oppositeColor_ne
  simp [runtimeContainerNameCandidates,runtimeContainerName,legacyRuntimeContainerName,hne]

/-! ### Reading the colour back -/

/-- A segment of the name that starts with `blue` comes from `part`. -/
def BlueSegment (part : String) : Prop := "-blue".toList <:+: ("-" ++ part).toList

instance (part : String) : Decidable (BlueSegment part) :=
  inferInstanceAs (Decidable (_ <:+: _))

theorem runtimeContainerName_toList (c : Color) :
    (runtimeContainerName app c).toList = "ploydok".toList ++ joinSegments '-'
      ["app".toList, (normalizeRuntimeContainerSlug app.slug).toList,
        (runtimeContainerShortId app.id).toList, c.text.toList] := by
  have hp : "ploydok-app-".toList = "ploydok".toList ++ '-' :: "app".toList ++ ['-'] := by decide
  have hd : "-".toList = ['-'] := toList_ofList
  unfold runtimeContainerName
  rw [toList_append,toList_append,toList_append,toList_append, toList_append,hp,hd]
  simp [joinSegments]

theorem infix_runtimeContainerName_iff (c : Color) (hw : '-' ∉ w) :
    '-' :: w <:+: (runtimeContainerName app c).toList ↔
      ∃ s ∈ ["app".toList, (normalizeRuntimeContainerSlug app.slug).toList,
        (runtimeContainerShortId app.id).toList, c.text.toList], '-' :: w <:+: '-' :: s := by
  rw [runtimeContainerName_toList]
  obtain ⟨y,hy⟩ := joinSegments_head '-' ["app".toList,
    (normalizeRuntimeContainerSlug app.slug).toList, (runtimeContainerShortId app.id).toList,
    c.text.toList] (by simp)
  have hstart : ¬ '-' :: w <:+: "ploydok".toList := by
    intro h
    have := h.subset (List.mem_cons_self ..)
    revert this
    decide
  rw [hy,infix_append_sep_iff hw,← hy,infix_joinSegments_iff hw]
  simp only [hstart,false_or]

theorem blue_infix_iff (c : Color) : "-blue".toList <:+: (runtimeContainerName app c).toList ↔
      c = .blue ∨ BlueSegment (normalizeRuntimeContainerSlug app.slug) ∨
        BlueSegment (runtimeContainerShortId app.id) := by
  have happ : ¬ "-blue".toList <:+: '-' :: "app".toList := by decide
  have hgreen : ¬ "-blue".toList <:+: '-' :: "green".toList := by decide
  have hblue : "-blue".toList <:+: '-' :: "blue".toList := by decide
  have h := infix_runtimeContainerName_iff app c (w := "blue".toList) (by decide)
  have hw : '-' :: "blue".toList = "-blue".toList := by decide
  rw [hw] at h
  rw [h]
  cases c <;>
    simp only [List.mem_cons,List.not_mem_nil,or_false,exists_eq_or_imp,exists_eq_left,happ,
      false_or,Color.text,hgreen,hblue,or_true,true_or,reduceCtorEq,BlueSegment,
      toList_append]
  all_goals rfl

theorem infix_green_name : "-green".toList <:+: (runtimeContainerName app .green).toList := by
  have h := infix_runtimeContainerName_iff app .green (w := "green".toList) (by decide)
  have hw : '-' :: "green".toList = "-green".toList := by decide
  rw [hw] at h
  exact h.mpr ⟨"green".toList,by simp [Color.text],by decide⟩

theorem runtimeContainerName_ne_empty (c : Color) : runtimeContainerName app c ≠ "" := by
  intro h
  have hl := runtimeContainerName_toList app c
  rw [h] at hl
  exact absurd hl.symm (List.append_ne_nil_of_left_ne_nil (by decide) _)

theorem inferContainerColor_name (c : Color) :
    inferContainerColor (some (runtimeContainerName app c)) =
      if c = .blue ∨ BlueSegment (normalizeRuntimeContainerSlug app.slug) ∨
        BlueSegment (runtimeContainerShortId app.id) then some .blue else some .green := by
  simp only [inferContainerColor,runtimeContainerName_ne_empty,↓reduceIte,includes_iff,
    blue_infix_iff]
  split_ifs with h1 h2
  · rfl
  · rfl
  · cases c with
    | blue => simp at h1
    | green => exact absurd (infix_green_name app) h2

theorem inferContainerColor_name_eq_iff (c : Color) :
    inferContainerColor (some (runtimeContainerName app c)) = some c ↔
      c = .blue ∨ (¬ BlueSegment (normalizeRuntimeContainerSlug app.slug) ∧
        ¬ BlueSegment (runtimeContainerShortId app.id)) := by
  rw [inferContainerColor_name]
  cases c <;> simp

theorem getCurrentColor_name_eq_iff (c : Color) (builds : List (Option String)) :
    getCurrentColor (some (runtimeContainerName app c)) builds = c ↔
      inferContainerColor (some (runtimeContainerName app c)) = some c := by
  unfold getCurrentColor
  rw [inferContainerColor_name]
  split_ifs <;> simp

/-- The colour reads back, and the next deploy picks the other one, exactly for blue names and for
green names without a foreign `blue` segment. -/
theorem color_round_trip_iff (app : App) (c : Color) :
    (inferContainerColor (some (runtimeContainerName app c)) = some c ∧
      ∀ builds, (getCurrentColor (some (runtimeContainerName app c)) builds).oppositeColor ≠ c) ↔
    (c = .blue ∨ (¬ BlueSegment (normalizeRuntimeContainerSlug app.slug) ∧
      ¬ BlueSegment (runtimeContainerShortId app.id))) := by
  simp [Color.oppositeColor_ne_iff,getCurrentColor_name_eq_iff,inferContainerColor_name_eq_iff]

/-- An app called `Blue Shop`: its live green container reads back as blue, and the next
deploy takes the green name again. -/
theorem blue_shop_color_lost : ¬ ∀ (app : App) (c : Color),
      inferContainerColor (some (runtimeContainerName app c)) = some c ∧
      ∀ builds, (getCurrentColor (some (runtimeContainerName app c)) builds).oppositeColor ≠ c := by
  intro h
  have := (h ⟨"V1StGXR8_Z5jdHi6B-myT","blue-shop"⟩ .green).1
  revert this
  decide

end Ploydok.Runtime
