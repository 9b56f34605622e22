import Ploydok.Containers.Requests
import Ploydok.Text.Path

/-! What the agent's checks of names, host paths and users come to. The names that the API builds
(`databases/spawner.ts`, `worker/swarm-runner.ts`) all pass; a host path stays below a prefix; of
the spellings of root only some are refused. -/

namespace Ploydok.Agent

open List Data Text Containers
open Ploydok.Runtime

/-! ### Names -/

def normalizeDatabaseRuntimeToken (dbId : String) (maxLength : Nat) : String :=
  nameToken maxLength "db" dbId

def containerName (dbId : String) : String := "ploydok-db-" ++ normalizeDatabaseRuntimeToken dbId 60

/-- `^ploydok-app-[a-z0-9][a-z0-9-]{0,90}$`. -/
def serviceNameMatches (name : String) : Bool :=
  startsWith name.toList "ploydok-app-".toList &&
    match name.toList.drop 12 with
    | [] => false
    | c :: rest => isAlnum c && rest.all isNameChar && rest.length ≤ 90

def validateServiceName (name : String) : Except Denial Unit :=
  ensure (serviceNameMatches name) ⟨.invalidArgument,"service_name_prefix",
    [("name", .text name), ("expected", .text "^ploydok-app-...")]⟩

theorem nameMatches_append (first : Char) (hfirst : isAlnum first = true)
    (hfront : front.toList = "ploydok-".toList ++ [first]) (hback : NameText back)
    (hlength : back.length ≤ 62) : nameMatches (front ++ back) = true := by
  have hname : front ++ back = String.ofList ("ploydok-".toList ++ first :: back.toList) := by
    rw [← String.toList_inj,String.toList_append,hfront]
    simp
  rw [hname,nameMatches_append_iff hfirst]
  exact ⟨hback,hlength⟩

theorem length_nameToken (h : fallback.length ≤ maxLen) (value : String) :
    (nameToken maxLen fallback value).length ≤ maxLen := by
  unfold nameToken
  dsimp only
  split
  · exact h
  · rw [String.length_ofList]
    exact length_take_le _ _

theorem nameMatches_runtimeContainerName (app : App) (color : Color) :
    nameMatches (runtimeContainerName app color) = true := by
  have hname : runtimeContainerName app color = "ploydok-a" ++ ("pp-" ++
      (nameToken 32 "app" app.slug ++ ("-" ++ (runtimeContainerShortId app.id ++
        ("-" ++ color.text))))) := by
    rw [← String.toList_inj]
    simp [runtimeContainerName,normalizeRuntimeContainerSlug]
  have hshort : (runtimeContainerShortId app.id).length ≤ 8 := by
    rw [runtimeContainerShortId,String.length_ofList]
    exact length_take_le _ _
  have hcolor : NameText ("-" ++ color.text) ∧ ("-" ++ color.text).length ≤ 6 := by
    cases color <;> decide
  have hslug : (nameToken 32 "app" app.slug).length ≤ 32 := length_nameToken (by decide) _
  rw [hname]
  refine nameMatches_append 'a' (by decide) (by decide) ?_ ?_
  · refine .append (by decide) (.append (nameText_nameToken nameText_app _ _) (.append (by decide) ?_))
    exact .append (nameText_shortId _) hcolor.1
  · have hp : "pp-".length = 3 := by decide
    have hd : "-".length = 1 := by decide
    simp only [String.length_append,hp,hd] at *
    omega

theorem nameMatches_containerName (dbId : String) : nameMatches (containerName dbId) = true := by
  have htoken : NameText (normalizeDatabaseRuntimeToken dbId 60) ∧
      (normalizeDatabaseRuntimeToken dbId 60).length ≤ 60 :=
    ⟨nameText_nameToken (by decide) _ _,length_nameToken (by decide) _⟩
  have hname : containerName dbId =
      "ploydok-d" ++ ("b-" ++ normalizeDatabaseRuntimeToken dbId 60) := by
    rw [← String.toList_inj]
    simp [containerName]
  rw [hname]
  refine nameMatches_append 'd' (by decide) (by decide) (.append (by decide) htoken.1) ?_
  have hb : "b-".length = 2 := by decide
  simp only [String.length_append,hb]
  omega

/-- The ends are trimmed before the cut, so the first character is no dash. -/
theorem runtimeServiceSlug_cons (h : runtimeServiceSlug slug = c :: rest) :
    isAlnum c = true ∧ (∀ d ∈ rest, isNameChar d = true) ∧ rest.length ≤ 35 := by
  have hmem : ∀ d ∈ runtimeServiceSlug slug, isNameChar d = true := fun d hd =>
    isNameChar_of_mem_collapse (mem_of_mem_trimEnds (mem_of_mem_take hd))
  have hlength : (runtimeServiceSlug slug).length ≤ 36 := length_take_le _ _
  have hstart : c :: rest <+: dropWhile (· == '-') (collapse (fun c => !isNameChar c) '-'
      (toLowerCase slug.toList)) := by
    rw [← h]
    exact ( take_prefix _ _).trans ( rdropWhile_prefix _ _)
  rw [h] at hmem hlength
  refine ⟨?_,fun d hd => hmem d (mem_cons_of_mem _ hd),Nat.le_of_succ_le_succ hlength⟩
  obtain ⟨tail,htail⟩ := hstart
  have hdash : (c == '-') = false := by
    have := head?_dropWhile_not (· == '-') (collapse (fun c => !isNameChar c) '-'
      (toLowerCase slug.toList))
    rw [← htail] at this
    simpa using this
  simpa [isNameChar,hdash] using hmem c mem_cons_self

theorem serviceNameMatches_runtimeServiceName (app : App) :
    serviceNameMatches (runtimeServiceName app) = true := by
  obtain ⟨c,rest,hslug,hc,hrest,hlength⟩ : ∃ c rest, (if runtimeServiceSlug app.slug = [] then "app"
        else String.ofList (runtimeServiceSlug app.slug)).toList = c :: rest ∧ isAlnum c = true ∧
      (∀ d ∈ rest, isNameChar d = true) ∧ rest.length ≤ 35 := by
    cases h : runtimeServiceSlug app.slug with
    | nil => exact ⟨'a',['p', 'p'],by decide,by decide,all_eq_true.mp (by decide),by decide⟩
    | cons c rest => exact ⟨c,rest,by simp,runtimeServiceSlug_cons h⟩
  have hname : (runtimeServiceName app).toList = "ploydok-app-".toList ++ c :: (rest ++ '-' ::
      ((toLowerCase app.id.toList).filter isNameChar).take 10) := by
    simp [runtimeServiceName,hslug]
  have htoken : (((toLowerCase app.id.toList).filter isNameChar).take 10).length ≤ 10 :=
    length_take_le _ _
  have hstart : startsWith (runtimeServiceName app).toList "ploydok-app-".toList = true := by
    rw [startsWith_iff,hname]
    exact prefix_append _ _
  have hdrop : (runtimeServiceName app).toList.drop 12 = c :: (rest ++ '-' ::
      ((toLowerCase app.id.toList).filter isNameChar).take 10) := by
    rw [hname]
    rfl
  simp only [serviceNameMatches,hstart,hdrop,hc,Bool.true_and,Bool.and_eq_true,all_eq_true,
    decide_eq_true_eq,length_append,length_cons]
  refine ⟨fun d hd => ?_,by omega⟩
  rcases mem_append.mp hd with hd | hd
  · exact hrest d hd
  · rcases mem_cons.mp hd with rfl | hd
    · exact isNameChar_dash
    · exact (mem_filter.mp (mem_of_mem_take hd)).2

/-- Every name that the API builds passes the check of the agent. -/
theorem runtime_names_accepted (app : App) (color : Color) (dbId : String)
    (req : ContainerCreateRequest) :
    checkName { req with name := runtimeContainerName app color } = .ok () ∧
      checkName { req with name := containerName dbId } = .ok () ∧
      validateServiceName (runtimeServiceName app) = .ok () := by
  unfold checkName validateServiceName
  rw [ensure_eq_ok_iff,ensure_eq_ok_iff,ensure_eq_ok_iff]
  exact ⟨nameMatches_runtimeContainerName app color,nameMatches_containerName dbId,
    serviceNameMatches_runtimeServiceName app⟩

/-! ### Host paths -/

abbrev Absolute (path : String) : Prop := ['/'] <+: path.toList

/-- `path` resolves to `root` or to a path below it, segment by segment. -/
def Confined (path root : String) : Prop :=
  (Absolute path ↔ Absolute root) ∧ normalizePath root.toList <+: normalizePath path.toList

theorem prefix_walk (h : ['.', '.'] ∉ segments) : dir <+: walk dir segments := by
  induction segments generalizing dir with
  | nil => exact prefix_rfl
  | cons segment segments ih =>
    rw [mem_cons,not_or] at h
    refine IsPrefix.trans ?_ (ih h.2)
    unfold enter
    split
    · exact prefix_rfl
    · rw [if_neg (Ne.symm h.1)]
      exact prefix_append _ _

theorem normalizePath_rdropWhile (path : List Char) :
    normalizePath (path.rdropWhile (· == '/')) = normalizePath path := by
  induction path using reverseRecOn with
  | nil => rfl
  | append_singleton path c ih =>
    by_cases hc : c = '/'
    · subst hc
      rw [rdropWhile_concat_pos _ _ _ (by decide),ih,normalizePath_append]
      rfl
    · rw [rdropWhile_concat_neg _ _ _ (by simpa using hc)]

theorem dots_not_mem_pathSegments (h : ¬ ['.', '.'] <:+: path) :
    ['.', '.'] ∉ pathSegments path := by
  intro hmem
  have hjoin : ['/'].intercalate (pathSegments path) = path := intercalate_splitOn '/'
  rw [← hjoin,infix_intercalate_iff (by decide) (ne_nil_of_mem hmem)] at h
  exact h ⟨_,hmem,infix_rfl⟩

theorem confined_of_under (hroot : Absolute root) (htraversal : traversal path = false)
    (hne : path ≠ "") (h : under path root = true) : Confined path root := by
  have hdots : ¬ ['.', '.'] <:+: path.toList := by
    have := (Bool.or_eq_false_iff.mp htraversal).2
    rwa [← Bool.not_eq_true,includes_iff] at this
  have htrimmed : root.toList.rdropWhile (· == '/') ≠ [] →
      ['/'] <+: root.toList.rdropWhile (· == '/') := fun hne =>
    prefix_of_prefix_length_le hroot ( rdropWhile_prefix _ _) (length_pos_iff.mpr hne)
  unfold Confined
  rw [iff_true_right hroot,← normalizePath_rdropWhile root.toList,Absolute]
  simp only [under,Bool.or_eq_true,startsWith_iff,beq_iff_eq] at h
  rcases h with ⟨rest,hpath⟩ | h
  · rw [append_assoc,singleton_append] at hpath
    rw [← hpath] at hdots ⊢
    constructor
    · by_cases hnil : root.toList.rdropWhile (· == '/') = []
      · simp [hnil]
      · exact (htrimmed hnil).trans (prefix_append _ _)
    · rw [normalizePath_append]
      refine prefix_walk (dots_not_mem_pathSegments fun hinfix => hdots ?_)
      exact hinfix.trans ((suffix_cons _ _).trans (suffix_append _ _)).isInfix
  · rw [← h] at htrimmed ⊢
    exact ⟨htrimmed (by simpa using hne),prefix_rfl⟩

theorem validateHostPath_eq_ok_iff :
    validateHostPath path roots = .ok () ↔
      traversal path = false ∧ ∃ root ∈ roots, under path root = true := by
  rw [← any_eq_true,validateHostPath]
  cases traversal path <;> cases roots.any (under path) <;> simp

/-- A root that consists of slashes admits the empty path, which is relative. -/
theorem accepted_path_confined_iff {path : String} {roots : List String}
    (hroots : ∀ root ∈ roots, Absolute root) (h : validateHostPath path roots = .ok ()) :
    (∃ root ∈ roots, Confined path root) ↔ path ≠ "" := by
  obtain ⟨htraversal,root,hroot,hunder⟩ := validateHostPath_eq_ok_iff.mp h
  constructor
  · rintro ⟨root,hroot,hsame,-⟩ rfl
    have habsolute := hsame.mpr (hroots root hroot)
    revert habsolute
    decide
  · exact fun hne => ⟨root,hroot,confined_of_under (hroots root hroot) htraversal hne hunder⟩

theorem accepted_path_confined_volumes :
    ∃ root ∈ ["/var/lib/ploydok/volumes/"], Confined "/var/lib/ploydok/volumes//a/./b" root :=
  (accepted_path_confined_iff (by decide) (by decide)).mpr (by decide)

theorem empty_path_accepted : ¬ ∀ (path : String) (roots : List String),
    (∀ root ∈ roots, Absolute root ∧ ['.'] ∉ pathSegments root.toList ∧
      ['.', '.'] ∉ pathSegments root.toList) →
    validateHostPath path roots = .ok () → ∃ root ∈ roots, Confined path root := by
  intro h
  obtain ⟨root,hroot,hsame,-⟩ := h "" ["/"] (by decide) (by decide)
  obtain rfl : root = "/" := mem_singleton.mp hroot
  revert hsame
  decide

/-! ### Users -/

/-- The accounts of an image. -/
structure Passwd where
  uid : String → Option Nat
  uid_eq_zero_iff : ∀ name, uid name = some 0 ↔ name = "root"

def userPart (user : String) : List Char := user.toList.takeWhile (· ≠ ':')

def dockerUid (passwd : Passwd) (user : String) : Option Nat :=
  if userPart user ≠ [] ∧ (userPart user).all Char.isDigit then
    some (Nat.ofDigitChars 10 (userPart user) 0)
  else passwd.uid (String.ofList (userPart user))

theorem ofDigitChars_eq_zero_iff (h : ∀ c ∈ digits, c.isDigit = true) (n : Nat) :
    Nat.ofDigitChars 10 digits n = 0 ↔ n = 0 ∧ ∀ c ∈ digits, c = '0' := by
  induction digits generalizing n with
  | nil => simp
  | cons d digits ih =>
    have hd : d.toNat - '0'.toNat = 0 ↔ d = '0' := by
      have hdigit := h d mem_cons_self
      rw [Char.isDigit,Bool.and_eq_true,decide_eq_true_iff,decide_eq_true_iff] at hdigit
      have hle : '0'.toNat ≤ d.toNat := hdigit.1
      rw [← Char.toNat_inj]
      omega
    rw [Nat.ofDigitChars_cons,ih fun c hc => h c (mem_cons_of_mem _ hc),forall_mem_cons,← hd,
      ← and_assoc]
    refine and_congr_left fun _ => ?_
    omega

theorem userPart_ne_zero (hzero : user ≠ "0") (hcolon : startsWith user.toList "0:".toList = false) :
    userPart user ≠ ['0'] := by
  intro h
  have hsplit := takeWhile_append_dropWhile (p := (· ≠ ':')) (l := user.toList)
  have hhead := head?_dropWhile_not (· ≠ ':') user.toList
  unfold userPart at h
  rw [h] at hsplit
  cases hrest : user.toList.dropWhile (· ≠ ':') with
  | nil =>
    rw [hrest] at hsplit
    exact hzero (String.toList_inj.mp hsplit.symm)
  | cons c rest =>
    rw [hrest] at hsplit hhead
    obtain rfl : c = ':' := by simpa using hhead
    rw [startsWith_iff.mpr ⟨rest,hsplit⟩] at hcolon
    cases hcolon

/-- Of the users that pass the check, docker runs as root `root` and a run of two or more zeros. -/
theorem accepted_user_not_root_iff (passwd : Passwd) {cfg : ValidatorConfig}
    {req : ContainerCreateRequest} (h : validateContainerCreate cfg req = .ok ()) :
    dockerUid passwd req.user ≠ some 0 ↔ userPart req.user ≠ "root".toList ∧
      ¬ (2 ≤ (userPart req.user).length ∧ ∀ c ∈ userPart req.user, c = '0') := by
  obtain ⟨-,hzero,hcolon⟩ := (validateContainerCreate_eq_ok_iff.mp h).user
  have hone := userPart_ne_zero hzero hcolon
  unfold dockerUid
  split
  · next hdigits =>
    rw [all_eq_true] at hdigits
    have hroot : userPart req.user ≠ "root".toList := by
      intro hroot
      rw [hroot] at hdigits
      exact absurd (hdigits.2 'r') (by decide)
    rw [ne_eq,Option.some_inj,ofDigitChars_eq_zero_iff hdigits.2]
    refine ⟨fun hvalue => ⟨hroot,fun hzeros => hvalue ⟨rfl,hzeros.2⟩⟩,fun hspelled hvalue => ?_⟩
    -- a nonempty run of zeros that is not `0` has two of them
    cases hpart : userPart req.user with
    | nil => exact hdigits.1 hpart
    | cons c rest =>
      rw [hpart] at hone hvalue hspelled
      cases rest with
      | nil => exact hone (by rw [hvalue.2 c mem_cons_self])
      | cons => exact hspelled.2 ⟨by simp,hvalue.2⟩
  · next hname =>
    rw [ne_eq,passwd.uid_eq_zero_iff,← String.toList_inj,String.toList_ofList]
    refine ⟨fun hroot => ⟨hroot,fun hzeros => hname ⟨?_,?_⟩⟩,And.left⟩
    · exact ne_nil_of_length_pos (by omega)
    · rw [all_eq_true]
      intro c hc
      rw [hzeros.2 c hc]
      rfl

def shopRequest (user : String) : ContainerCreateRequest where
  name := "ploydok-shop"
  image := "ghcr.io/shop/web:1"
  labels := [("ploydok.app_id", "shop"), ("ploydok.owner_id", "u1")]
  network := ""
  networks := []
  volumes := []
  resourceLimits := none
  user := user
  healthcheck := none

def onlyRoot : Passwd where
  uid name := if name = "root" then some 0 else none
  uid_eq_zero_iff name := by simp

theorem accepted_user_not_root_shop : dockerUid onlyRoot "1000:0" ≠ some 0 :=
  have haccepted : validateContainerCreate {} (shopRequest "1000:0") = .ok () := by decide
  (accepted_user_not_root_iff onlyRoot haccepted).mpr
    ⟨by decide,fun hzeros => absurd (hzeros.2 '1' (by decide)) (by decide)⟩

theorem double_zero_user_accepted : ¬ ∀ (passwd : Passwd) (cfg : ValidatorConfig)
    (req : ContainerCreateRequest), validateContainerCreate cfg req = .ok () → req.user ≠ "" →
      dockerUid passwd req.user ≠ some 0 := by
  intro h
  exact h onlyRoot {} (shopRequest "00") (by decide) (by decide) (by decide)

end Ploydok.Agent
