import Mathlib.Logic.Function.Basic

/-! The open matches after a pass of `refreshAdvisories`, `apps/api/src/advisories/service.ts`. -/

namespace Ploydok.Advisories

open List

structure Dependency where
  (ecosystem name version manifestPath : String)

structure Manifest where
  (scope targetId : String)
  /-- A JSON value: no array, or one of dependencies and other things. -/
  dependencies : Option (List (Option Dependency))

def normalizeDependencies (value : Option (List (Option Dependency))) : List Dependency :=
  (value.getD []).filterMap id

/-- The table `cve_matches`: for each id whether the match is fixed. -/
abbrev Matches := String → Option Bool

def upsertMatch (rows : Matches) (id : String) : Matches := Function.update rows id (some false)

def closeObsoleteMatches (rows : Matches) (active : List String) : Matches :=
  fun id => (rows id).map (· || id ∉ active)

section

-- what OSV reports for a dependency, and the digest of the parts
variable (osv : Dependency → List String) (stableId : List String → String)

def activeMatchIds (manifests : List Manifest) : List String :=
  manifests.flatMap fun m => (normalizeDependencies m.dependencies).flatMap fun d =>
    (osv d).map fun vulnerability => stableId
      [m.scope, m.targetId, d.manifestPath, d.ecosystem, d.name, d.version, vulnerability]

def refreshAdvisories (manifests : List Manifest) (rows : Matches) : Matches :=
  if (manifests.flatMap fun m => normalizeDependencies m.dependencies) = [] then rows
  else
    let active := activeMatchIds osv stableId manifests
    closeObsoleteMatches (active.foldl upsertMatch rows) active

def Reflects (manifests : List Manifest) (rows : Matches) : Prop :=
  ∀ id, refreshAdvisories osv stableId manifests rows id = some false ↔
    ∃ m ∈ manifests, ∃ d ∈ normalizeDependencies m.dependencies, ∃ vulnerability ∈ osv d,
      stableId [m.scope, m.targetId, d.manifestPath, d.ecosystem, d.name, d.version,
        vulnerability] = id

theorem foldl_upsertMatch (ids : List String) (rows : Matches) (id : String) :
    ids.foldl upsertMatch rows id = if id ∈ ids then some false else rows id := by
  induction ids generalizing rows with
  | nil => rfl
  | cons id' ids ih =>
    rw [foldl_cons,ih,upsertMatch,Function.update_apply]
    by_cases hid : id ∈ ids <;> simp [hid]

/-- Exactly if there is a dependency, or nothing was open. -/
theorem reflects_iff (manifests : List Manifest) (rows : Matches) :
    Reflects osv stableId manifests rows ↔
      (∃ m ∈ manifests, normalizeDependencies m.dependencies ≠ []) ∨ ∀ id, rows id ≠ some false := by
  have hactive : ∀ id, (∃ m ∈ manifests, ∃ d ∈ normalizeDependencies m.dependencies,
      ∃ vulnerability ∈ osv d, stableId [m.scope, m.targetId, d.manifestPath, d.ecosystem, d.name,
        d.version, vulnerability] = id) ↔ id ∈ activeMatchIds osv stableId manifests := by
    simp [activeMatchIds]
  simp only [Reflects,hactive,refreshAdvisories]
  split
  · next hnone =>
    have hempty : activeMatchIds osv stableId manifests = [] := by
      simp_all [activeMatchIds,flatMap_eq_nil_iff]
    simp_all [flatMap_eq_nil_iff]
  · next hsome =>
    refine iff_of_true (fun id => ?_) (.inl ?_)
    · by_cases hid : id ∈ activeMatchIds osv stableId manifests <;>
        simp [closeObsoleteMatches,foldl_upsertMatch,hid]
    · simpa [flatMap_eq_nil_iff] using hsome

end

/-- The last manifest is gone, and its match stays open. -/
theorem vanished_dependency_open : ¬ ∀ osv stableId manifests rows,
    Reflects osv stableId manifests rows := by
  intro h
  have hopen := (h (fun _ => []) (fun _ => "") [] (fun _ => some false) "").mp rfl
  simp at hopen

end Ploydok.Advisories
