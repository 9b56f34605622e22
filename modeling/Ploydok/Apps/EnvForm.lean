import Ploydok.Data.Checks
import Mathlib.Data.List.Nodup
import Mathlib.Data.List.Perm.Basic

/-! The form for the variables of an app, `routes/apps-env.ts` over `queries/env.ts`. Secret values
are masked when the variables are listed, and a save replaces all of them by those it is given. -/

namespace Ploydok.Apps

open Data List

structure EnvVar where
  (key value : String)
  secret : Bool
deriving DecidableEq

structure EnvVarRow extends EnvVar where
  appId : String
deriving DecidableEq

/-- The table `env_vars`, in which an app has one row for a key. -/
structure EnvVars where
  rows : List EnvVarRow
  unique : (rows.map fun row => (row.appId, row.key)).Nodup

inductive EnvError
  | notFound
  | invalidKey (key : String)
  | duplicateKey (key : String)

def secretMask : String := "********"

/-- `/^[A-Z][A-Z0-9_]*$/` -/
def envKeyRegex (key : String) : Bool :=
  match key.toList with
  | [] => false
  | c :: rest => c.isUpper && rest.all fun c => c.isUpper || c.isDigit || c == '_'

def listEnvForApp (rows : List EnvVarRow) (appId : String) : List EnvVarRow :=
  (rows.filter (·.appId = appId)).mergeSort fun row row' => row.key ≤ row'.key

def serializeEnvVar (row : EnvVarRow) : EnvVar :=
  { row.toEnvVar with value := if row.secret then secretMask else row.value }

/-- `GET /:id/env`; the app is found if the user has access to it. -/
def getEnv (found : Bool) (rows : List EnvVarRow) (appId : String) :
    Except EnvError (List EnvVar) :=
  if found then .ok ((listEnvForApp rows appId).map serializeEnvVar) else .error .notFound

def upsertEnvVars (rows : List EnvVarRow) (appId : String) (vars : List EnvVar) : List EnvVarRow :=
  rows.filter (·.appId ≠ appId) ++ vars.map (⟨·,appId⟩)

/-- The loop over the keys that are sent, after those in `seenKeys`. -/
def checkKeys (seenKeys : List String) : List EnvVar → Except EnvError Unit
  | [] => .ok ()
  | v :: vars =>
    if v.key ∈ seenKeys then .error (.duplicateKey v.key) else checkKeys (v.key :: seenKeys) vars

/-- `PATCH /:id/env`, with the rows of the table after it. -/
def patchEnv (found : Bool) (rows : List EnvVarRow) (appId : String) (vars : List EnvVar) :
    Except EnvError (List EnvVarRow) := do
  ensure found .notFound
  vars.forM fun v => ensure (envKeyRegex v.key) (.invalidKey v.key)
  checkKeys [] vars
  return upsertEnvVars rows appId vars

/-- The rows after the variables have been saved as they were listed; a refused request writes
nothing. -/
def resaved (found : Bool) (rows : List EnvVarRow) (appId : String) : List EnvVarRow :=
  match getEnv found rows appId >>= patchEnv found rows appId with
  | .ok rows' => rows'
  | .error _ => rows

theorem checkKeys_of_nodup (h : (vars.map (·.key)).Nodup) (hseen : ∀ v ∈ vars, v.key ∉ seenKeys) :
    checkKeys seenKeys vars = .ok () := by
  induction vars generalizing seenKeys with
  | nil => rfl
  | cons v vars ih =>
    rw [map_cons,nodup_cons] at h
    rw [checkKeys,if_neg (hseen v mem_cons_self)]
    refine ih h.2 fun w hw => ?_
    rw [mem_cons,not_or]
    exact ⟨fun he => h.1 (he ▸ mem_map_of_mem hw),hseen w (mem_cons_of_mem _ hw)⟩

variable {t : EnvVars} {appId : String}

theorem EnvVars.eq_of_key (t : EnvVars) (hrow : row ∈ t.rows) (hrow' : row' ∈ t.rows)
    (happ : row.appId = row'.appId) (hkey : row.key = row'.key) : row = row' :=
  inj_on_of_nodup_map t.unique hrow hrow' (Prod.ext happ hkey)

theorem mem_listEnvForApp : row ∈ listEnvForApp rows appId ↔ row ∈ rows ∧ row.appId = appId := by
  simp [listEnvForApp]

theorem getEnv_keys_nodup (t : EnvVars) (appId : String) :
    (((listEnvForApp t.rows appId).map serializeEnvVar).map (·.key)).Nodup := by
  have hnodup : (listEnvForApp t.rows appId).Nodup :=
    (mergeSort_perm _ _).nodup_iff.mpr (t.unique.of_map.filter _)
  rw [map_map]
  refine hnodup.map_on fun row hrow row' hrow' hkey => ?_
  rw [mem_listEnvForApp] at hrow hrow'
  exact t.eq_of_key hrow.1 hrow'.1 (hrow.2.trans hrow'.2.symm) hkey

theorem patchEnv_eq_ok_iff :
    patchEnv true t.rows appId ((listEnvForApp t.rows appId).map serializeEnvVar) = .ok rows ↔
      (∀ row ∈ t.rows, row.appId = appId → envKeyRegex row.key = true) ∧
      upsertEnvVars t.rows appId ((listEnvForApp t.rows appId).map serializeEnvVar) = rows := by
  have hvalid : ((listEnvForApp t.rows appId).map serializeEnvVar).forM (fun v =>
      ensure (envKeyRegex v.key) (EnvError.invalidKey v.key)) = .ok () ↔
      ∀ row ∈ t.rows, row.appId = appId → envKeyRegex row.key = true := by
    rw [forM_eq_ok_iff,forall_mem_map]
    simp only [ensure_eq_ok_iff,mem_listEnvForApp,and_imp]
    rfl
  have hseen := checkKeys_of_nodup (getEnv_keys_nodup t appId) fun _ _ => not_mem_nil
  unfold patchEnv
  simp only [bind_eq_ok_iff,hvalid,hseen]
  simp [ensure,pure,Except.pure]

theorem upsertEnvVars_perm_iff (t : EnvVars) (appId : String) :
    upsertEnvVars t.rows appId ((listEnvForApp t.rows appId).map serializeEnvVar) ~ t.rows ↔
      ∀ row ∈ t.rows, row.appId = appId → row.secret = true → row.value = secretMask := by
  have hrows : t.rows ~ t.rows.filter (·.appId ≠ appId) ++ t.rows.filter (·.appId = appId) := by
    refine (filter_append_perm (·.appId = appId) t.rows).symm.trans ?_
    simpa using perm_append_comm
  have hsaved : upsertEnvVars t.rows appId ((listEnvForApp t.rows appId).map serializeEnvVar) ~
      t.rows.filter (·.appId ≠ appId) ++
        (t.rows.filter (·.appId = appId)).map (⟨serializeEnvVar ·,appId⟩) := by
    rw [upsertEnvVars,map_map]
    exact ((mergeSort_perm _ _).map _).append_left _
  rw [hsaved.congr_left,hrows.congr_right,perm_append_left_iff]
  constructor
  · -- the stored row has the key of the listed one, and there is one row for a key
    intro h row hrow happ hsecret
    have hmem := h.subset (mem_map_of_mem (mem_filter.mpr ⟨hrow,decide_eq_true happ⟩))
    have heq := t.eq_of_key hrow (mem_of_mem_filter hmem) happ rfl
    rw [heq,serializeEnvVar,if_pos hsecret]
  · intro h
    refine .of_eq ((map_congr_left fun row hrow => ?_).trans (map_id _))
    obtain ⟨⟨key,value,secret⟩,app⟩ := row
    simp only [mem_filter,decide_eq_true_eq] at hrow
    obtain ⟨hrow,rfl⟩ := hrow
    cases secret with
    | false => rfl
    | true =>
      obtain rfl : value = secretMask := h _ hrow rfl rfl
      rfl

/-- Saving the form as it was listed changes nothing exactly if the request is refused (app not
found, key not allowed) or every secret value is the mask. -/
theorem resaved_perm_iff (found : Bool) (t : EnvVars) (appId : String) :
    resaved found t.rows appId ~ t.rows ↔ found = false ∨
      (∃ row ∈ t.rows, row.appId = appId ∧ envKeyRegex row.key = false) ∨
      ∀ row ∈ t.rows, row.appId = appId → row.secret = true → row.value = secretMask := by
  cases found with
  | false => exact iff_of_true .rfl (.inl rfl)
  | true =>
    have hget : getEnv true t.rows appId =
        .ok ((listEnvForApp t.rows appId).map serializeEnvVar) := rfl
    unfold resaved
    split
    · -- the save went through, so all keys are allowed
      rename_i rows' h
      obtain ⟨vars,hvars,hpatch⟩ := bind_eq_ok_iff.mp h
      cases hget.symm.trans hvars
      obtain ⟨hkeys,rfl⟩ := patchEnv_eq_ok_iff.mp hpatch
      rw [upsertEnvVars_perm_iff]
      refine ⟨fun h => .inr (.inr h),?_⟩
      rintro (h | ⟨row,hrow,happ,hkey⟩ | h)
      · cases h
      · rw [hkeys row hrow happ] at hkey
        cases hkey
      · exact h
    · rename_i e h
      refine iff_of_true .rfl ?_
      by_contra hnot
      push Not at hnot
      have hkeys : ∀ row ∈ t.rows, row.appId = appId → envKeyRegex row.key = true :=
        fun row hrow happ => by simpa using hnot.2.1 row hrow happ
      have hpatch := patchEnv_eq_ok_iff.mpr ⟨hkeys,rfl⟩
      rw [bind_eq_ok_iff.mpr ⟨_,hget,hpatch⟩] at h
      cases h

/-- A secret is replaced by its mask. -/
theorem secret_masked : ¬ ∀ (found : Bool) (t : EnvVars) (appId : String),
    resaved found t.rows appId ~ t.rows := fun h => by
  have hperm := h true ⟨[⟨⟨"TOKEN","s3cret",true⟩,"app"⟩],by decide⟩ "app"
  exact absurd hperm (by decide +kernel)

end Ploydok.Apps
