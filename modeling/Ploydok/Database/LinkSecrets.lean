import Ploydok.Database.Statements
import Mathlib.Data.List.Nodup

/-! The stored variables of linked apps while they are rewritten. For every link the old
variables are deleted in one statement and the new ones inserted one by one. A rewrite is
complete exactly where no statement on links, projects or secrets has thrown. -/

namespace Ploydok.Database

open Effect Effect.Prog List

abbrev Logged := World × List DbEvent

abbrev dbLog (out : Outside) : Sem Db RotationError Logged := Prog.logged (dbSem out)

def failedAccess : DbEvent → Bool
  | ⟨.readLinks _,.error _⟩ | ⟨.readProjects _,.error _⟩ | ⟨.deleteSecrets ..,.error _⟩
  | ⟨.insertSecret _,.error _⟩ => true
  | _ => false

def hurt (log : List DbEvent) : Bool := log.any failedAccess

@[simp] theorem hurt_concat (log : List DbEvent) (ev : DbEvent) :
    hurt (log ++ [ev]) = (hurt log || failedAccess ev) := by
  simp [hurt]

theorem post_query (h : ∀ r w, dbSem out o s.1 r w → Q r (w, s.2 ++ [⟨o,r⟩])) :
    Post (dbLog out) (query o) s Q := by
  refine post_perform ?_
  rintro r ⟨w,log⟩ ⟨hs,hlog⟩
  obtain rfl : log = s.2 ++ [⟨o,r⟩] := hlog
  exact h r w hs

/-! ### Variables of one app -/

def Holds (stored wanted : List (String × String)) : Prop :=
  ∀ kv ∈ wanted, ∀ v, (kv.1, v) ∈ stored ↔ v = kv.2

theorem holds_self (h : (vars.map Prod.fst).Nodup) : Holds vars vars := by
  intro kv hkv v
  constructor
  · intro hv
    exact congrArg Prod.snd (inj_on_of_nodup_map h hv hkv rfl)
  · rintro rfl
    exact hkv

theorem not_holds_front (h : ((front ++ kv :: back).map Prod.fst).Nodup) :
    ¬Holds front (front ++ kv :: back) := by
  intro hold
  have hmem : (kv.1, kv.2) ∈ front := (hold kv (by simp) kv.2).mpr rfl
  have hkey : kv.1 ∈ front.map Prod.fst := mem_map_of_mem hmem
  rw [map_append,nodup_append] at h
  exact h.2.2 kv.1 hkey kv.1 (by simp) rfl

theorem Holds.unique (h : Holds stored wanted) (h' : Holds stored wanted') (hv : (key, v) ∈ wanted)
    (hv' : (key, v') ∈ wanted') : v = v' :=
  (h' (key, v') hv' v).mp ((h (key, v) hv v).mpr rfl)

namespace Core

/-- The variables of an app that the link to the database `id` put there. -/
def vars (k : Core) (id appId : String) : List (String × String) :=
  (k.secrets.filter fun s => s.appId = appId ∧ s.linkedDatabaseId = some id).map
    fun s => (s.key, s.value)

variable {k : Core} {id appId appId' : String}

theorem vars_deleteSecrets_of_ne (h : appId' ≠ appId) :
    (k.deleteSecrets appId id).vars id appId' = k.vars id appId' := by
  simp only [vars,deleteSecrets,filter_filter]
  congr 1
  refine filter_congr fun s _ => ?_
  by_cases hs : s.appId = appId'
  · simp [hs,h]
  · simp [hs]

structure SameBut (id : String) (appIds : List String) (k k' : Core) : Prop where
  rest : k' = { k with secrets := k'.secrets }
  vars : ∀ appId, appId ∉ appIds → k'.vars id appId = k.vars id appId

theorem SameBut.refl (id : String) (appIds : List String) (k : Core) : SameBut id appIds k k :=
  ⟨rfl,fun _ _ => rfl⟩

theorem SameBut.mono (h : SameBut id appIds k k') (hsub : appIds ⊆ appIds') :
    SameBut id appIds' k k' :=
  ⟨h.rest,fun appId hnot => h.vars appId fun hmem => hnot (hsub hmem)⟩

theorem SameBut.trans (h : SameBut id appIds k1 k2) (h' : SameBut id appIds k2 k3) :
    SameBut id appIds k1 k3 := by
  refine ⟨?_,fun appId hnot => ?_⟩
  · rw [h'.rest,h.rest]
  · rw [h'.vars appId hnot,h.vars appId hnot]

end Core

section Post

variable {out : Outside} {id : String} {s : Logged}

theorem post_insertSecrets (appId : String) (projectId : Option String)
    (before vars : List (String × String)) (hv : (s.1.core id).vars id appId = before) :
    Post (dbLog out) (insertSecrets id appId projectId vars) s fun r s' =>
      Core.SameBut id [appId] (s.1.core id) (s'.1.core id) ∧
      match r with
      | .ok _ => (s'.1.core id).vars id appId = before ++ vars ∧ hurt s'.2 = hurt s.2
      | .error _ => hurt s'.2 = true ∧ ∃ front kv back, vars = front ++ kv :: back ∧
          (s'.1.core id).vars id appId = before ++ front := by
  induction vars generalizing before s with
  | nil => exact post_ret ⟨.refl ..,by simpa using hv,rfl⟩
  | cons kv vars ih =>
    refine post_bind (fun r s' => Core.SameBut id [appId] (s.1.core id) (s'.1.core id) ∧
      match r with
      | .ok _ => (s'.1.core id).vars id appId = before ++ [kv] ∧ hurt s'.2 = hurt s.2
      | .error _ => hurt s'.2 = true ∧ (s'.1.core id).vars id appId = before)
      (post_query fun r w hs => ?_) (fun _ s1 h1 => ?_) (fun e s1 h1 => ?_)
    · rcases core_insertSecret id hs with ⟨hc,e,rfl⟩ | ⟨hc,a,rfl⟩
      · refine ⟨hc ▸ .refl ..,by simp [failedAccess],hc ▸ hv⟩
      · refine ⟨⟨by rw [hc]; rfl,fun appId' hne => ?_⟩,?_,by simp [failedAccess]⟩
        · rw [mem_singleton] at hne
          simp [hc,Core.vars,Core.insertSecret,Ne.symm hne]
        · simp [hc,Core.vars,Core.insertSecret,← hv]
    · obtain ⟨hsame,hvars,hhurt⟩ := h1
      refine post_mono (ih (before ++ [kv]) hvars) fun r s' h => ?_
      obtain ⟨hsame',h⟩ := h
      refine ⟨hsame.trans hsame',?_⟩
      cases r with
      | ok a => exact ⟨by simpa using h.1,h.2.trans hhurt⟩
      | error e =>
        obtain ⟨hh,front,kv',back,rfl,hfront⟩ := h
        exact ⟨hh,kv :: front,kv',back,rfl,by simpa using hfront⟩
    · exact ⟨h1.1,h1.2.1,[],kv,vars,rfl,by simpa using h1.2.2⟩

def putSecrets (databaseId : String) (projects vars : List (String × String)) (link : Link) :
    DbProg Unit := do
  query (.deleteSecrets link.appId databaseId)
  insertSecrets databaseId link.appId (projectOf projects link.appId) vars

theorem rewriteLinkSecrets_eq (h : p.newConnStr = some url) (projects : List (String × String))
    (link : Link) :
    rewriteLinkSecrets p projects link = putSecrets p.databaseId projects
      (buildSecretVars p.kind url link.envPrefix p.newUser p.newPwd) link := by
  simp only [rewriteLinkSecrets,secretVars,h]
  rfl

theorem restoreLinkSecrets_eq (h : p.oldConnStr = some url) (projects : List (String × String))
    (link : Link) :
    restoreLinkSecrets p projects link = putSecrets p.databaseId projects
      (buildSecretVars p.kind url link.envPrefix p.oldUser p.oldPwd) link := by
  simp only [restoreLinkSecrets,secretVars,h]
  rfl

theorem post_putSecrets (projects vars : List (String × String)) (link : Link)
    (hkeys : (vars.map Prod.fst).Nodup) :
    Post (dbLog out) (putSecrets id projects vars link) s fun r s' =>
      Core.SameBut id [link.appId] (s.1.core id) (s'.1.core id) ∧
      match r with
      | .ok _ => Holds ((s'.1.core id).vars id link.appId) vars ∧ hurt s'.2 = hurt s.2
      | .error _ => hurt s'.2 = true ∧ (¬Holds ((s.1.core id).vars id link.appId) vars →
          ¬Holds ((s'.1.core id).vars id link.appId) vars) := by
  refine post_bind (fun r s' => Core.SameBut id [link.appId] (s.1.core id) (s'.1.core id) ∧
    match r with
    | .ok _ => (s'.1.core id).vars id link.appId = [] ∧ hurt s'.2 = hurt s.2
    | .error _ => hurt s'.2 = true ∧ s'.1.core id = s.1.core id)
    (post_query fun r w hs => ?_) (fun _ s1 h1 => ?_)
    (fun e s1 h1 => ⟨h1.1,h1.2.1,h1.2.2 ▸ fun hnot => hnot⟩)
  · rcases core_deleteSecrets id hs with ⟨hc,e,rfl⟩ | ⟨hc,a,rfl⟩
    · exact ⟨hc ▸ .refl ..,by simp [failedAccess],hc⟩
    · refine ⟨⟨by rw [hc]; rfl,fun appId' hne => ?_⟩,?_,by simp [failedAccess]⟩
      · rw [hc,Core.vars_deleteSecrets_of_ne (by simpa using hne)]
      · simp [hc,Core.vars,Core.deleteSecrets]
  · obtain ⟨hsame,hvars,hhurt⟩ := h1
    refine post_mono (post_insertSecrets link.appId _ [] vars hvars) fun r s' h => ?_
    obtain ⟨hsame',h⟩ := h
    refine ⟨hsame.trans hsame',?_⟩
    cases r with
    | ok a =>
      refine ⟨?_,h.2.trans hhurt⟩
      rw [h.1]
      exact holds_self hkeys
    | error e =>
      obtain ⟨hh,front,kv,back,rfl,hfront⟩ := h
      refine ⟨hh,fun _ => ?_⟩
      rw [hfront]
      exact not_holds_front hkeys

theorem post_putAllSecrets (projects : List (String × String))
    (varsOf : Link → List (String × String)) (hkeys : ∀ link, ((varsOf link).map Prod.fst).Nodup)
    (links : List Link) (happs : (links.map (·.appId)).Nodup) :
    Post (dbLog out)
      (Prog.forEach links fun link => putSecrets id projects (varsOf link) link) s fun r s' =>
      Core.SameBut id (links.map (·.appId)) (s.1.core id) (s'.1.core id) ∧
      match r with
      | .ok _ => (∀ link ∈ links, Holds ((s'.1.core id).vars id link.appId) (varsOf link)) ∧
          hurt s'.2 = hurt s.2
      | .error _ => hurt s'.2 = true ∧
          ((∀ link ∈ links, ¬Holds ((s.1.core id).vars id link.appId) (varsOf link)) →
            ∃ link ∈ links, ¬Holds ((s'.1.core id).vars id link.appId) (varsOf link)) := by
  induction links generalizing s with
  | nil => exact post_ret ⟨.refl ..,by simp,rfl⟩
  | cons link links ih =>
    rw [map_cons,nodup_cons] at happs
    refine post_bind _ (post_putSecrets projects (varsOf link) link (hkeys link)) ?_ ?_
    · rintro _ s1 ⟨hsame,hhold,hhurt⟩
      -- the apps that are still to come are not the one just written
      have hne : ∀ link' ∈ links, link'.appId ≠ link.appId := by
        intro link' hmem he
        exact happs.1 (he ▸ mem_map_of_mem hmem)
      refine post_mono (ih happs.2) fun r s' h => ?_
      obtain ⟨hsame',h⟩ := h
      refine ⟨(hsame.mono (by simp)).trans (hsame'.mono (by simp)),?_⟩
      cases r with
      | ok a =>
        refine ⟨?_,h.2.trans hhurt⟩
        intro link' hmem
        rcases mem_cons.mp hmem with rfl | hmem
        · rw [hsame'.vars _ happs.1]
          exact hhold
        · exact h.1 link' hmem
      | error e =>
        refine ⟨h.1,fun hnot => ?_⟩
        obtain ⟨link',hmem,hbad⟩ := h.2 fun link' hmem => by
          rw [hsame.vars _ (by simpa using hne link' hmem)]
          exact hnot link' (by simp [hmem])
        exact ⟨link',by simp [hmem],hbad⟩
    · rintro e s1 ⟨hsame,hh,hbad⟩
      exact ⟨hsame.mono (by simp),hh,fun hnot => ⟨link,by simp,hbad (hnot link (by simp))⟩⟩

end Post

end Ploydok.Database
