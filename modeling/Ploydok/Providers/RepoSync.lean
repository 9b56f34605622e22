import Mathlib.Data.List.Nodup

/-! The sync of cached repositories, `worker/handlers/sync-provider-repos.ts` over
`queries/provider-repos.ts`. The repositories of an installation are listed page by page; a page
that fails ends the listing, and what was listed until then replaces the cached rows. A sync of all
GitHub installations first deletes those that the provider does not list, with their cached rows. -/

namespace Ploydok.Providers

open List

inductive Provider where
  | github | gitlab

structure RepoRow where
  (id installationId : String)
deriving DecidableEq

/-- An installation in a sync: its repositories page by page, the pages that fail, and whether its
credential is claimed and the transaction commits. -/
structure Installation where
  id : String
  pages : List (List String)
  fails : Nat → Bool
  (claimed commits : Bool)
  /-- The ids of older rows of the same GitHub installation. -/
  legacyIds : List String
  /-- The job finds the installation among those that `listAppInstallations` returns to it. -/
  found : Bool

def maxPages : Nat := 50

def listPages (fails : Nat → Bool) : Nat → List (List String) → List (List String)
  | _, [] => []
  | page, repos :: rest =>
    if maxPages < page ∨ fails page then [] else repos :: listPages fails (page + 1) rest

def Installation.listed (i : Installation) : List (List String) := listPages i.fails 1 i.pages

def Installation.allRepos (i : Installation) : List RepoRow := i.listed.flatten.map (⟨·,i.id⟩)

def upsertRepos (cache rows : List RepoRow) : List RepoRow :=
  cache.filter (·.id ∉ rows.map (·.id)) ++ rows

def replaceInstallationRepos (cache : List RepoRow) (installationId : String)
    (rows : List RepoRow) : List RepoRow :=
  (upsertRepos cache rows).filter fun r =>
    ¬ (r.installationId = installationId ∧ r.id ∉ rows.map (·.id))

inductive SyncStatus
  | pending
  | completed
  | failed
deriving DecidableEq

/-- `last_sync_status` after the job of an installation. -/
def Installation.status (i : Installation) : SyncStatus :=
  if i.claimed then if i.commits then .completed else .failed else .pending

/-- The deletion of rows of `provider_installations` deletes the cached rows below them. -/
def deleteInstallations (cache : List RepoRow) (ids : List String) : List RepoRow :=
  cache.filter (·.installationId ∉ ids)

/-- `deleteLegacyGitHubInstallationDuplicates`, in the job of an installation that it finds. -/
def Installation.replaced (i : Installation) : List String :=
  if i.claimed ∧ i.found then i.legacyIds else []

/-- The job of one installation. A transaction that fails leaves the cache as it was. -/
def syncInstallation (cache : List RepoRow) (i : Installation) : List RepoRow :=
  let kept := deleteInstallations cache i.replaced
  if i.status = .completed then replaceInstallationRepos kept i.id i.allRepos else kept

/-- A sync of one installation or of all. `remote` has the installations as the provider lists them,
for GitLab the users with a token; `answers` says whether the list can be had. -/
structure Sync where
  provider : Provider
  remote : List Installation
  target : Option Installation
  answers : Bool

namespace Sync

variable (sync : Sync)

/-- The first page is the only one that is asked for. -/
def listAppInstallations : Option (List Installation) :=
  if sync.answers then some (sync.remote.take 100) else none

/-- The installations that are synced; where the list of GitHub cannot be had, none. -/
def jobs : List Installation :=
  match sync.target, sync.provider with
  | some i, _ => [i]
  | none, .github => sync.listAppInstallations.getD []
  | none, .gitlab => sync.remote

def pruneStaleGitHubInstallations (cache : List RepoRow) : List RepoRow :=
  match sync.target, sync.provider, sync.listAppInstallations with
  | none, .github, some live => cache.filter (·.installationId ∈ live.map (·.id))
  | _, _, _ => cache

/-- The cache after the jobs in some order. -/
def after (order : List Installation) (cache : List RepoRow) : List RepoRow :=
  order.foldl syncInstallation (sync.pruneStaleGitHubInstallations cache)

/-- No cached repository that exists remotely is gone after all jobs, and completed jobs have
fetched all their pages. -/
def LosesNothing (order : List Installation) (cache : List RepoRow) : Prop :=
  (∀ r ∈ cache, (∃ i ∈ sync.remote, r.id ∈ i.pages.flatten) →
    ∃ r' ∈ sync.after order cache, r'.id = r.id) ∧
  ∀ i ∈ sync.jobs, i.status = .completed → i.listed = i.pages

/-- The sync is of all GitHub installations, and that of the row is not among the first hundred. -/
def Prunes (r : RepoRow) : Prop :=
  sync.target = none ∧ sync.provider = .github ∧ sync.answers = true ∧
    r.installationId ∉ (sync.remote.take 100).map (·.id)

/-- The sync deletes the row, or a completed job writes it anew: its installation is pruned, or it is
an older one of an installation that is found, or it has a completed job. -/
def Touches (r : RepoRow) : Prop :=
  sync.Prunes r ∨
    ∃ i ∈ sync.jobs, r.installationId ∈ i.replaced ∨ i.status = .completed ∧ i.id = r.installationId

/-- What the primary keys of the tables say: the jobs are for different installations, and an older
row of one of them is not the row of another. -/
structure Keyed (cache : List RepoRow) : Prop where
  jobs : (sync.jobs.map (·.id)).Nodup
  legacy : ∀ i ∈ sync.jobs, ∀ j ∈ sync.jobs, j.id ∉ i.legacyIds
  cache : (cache.map (·.id)).Nodup

end Sync

theorem listPages_eq_iff :
    listPages fails page pages = pages ↔
      ∀ n, page ≤ n → n < page + pages.length → n ≤ maxPages ∧ fails n = false := by
  induction pages generalizing page with
  | nil => exact iff_of_true rfl fun n hn hlt => absurd hlt (Nat.not_lt.mpr hn)
  | cons repos rest ih =>
    rw [listPages,length_cons]
    split
    · rename_i h
      refine iff_of_false nofun fun hall => ?_
      have hpage := hall page (Nat.le_refl _) (by omega)
      rcases h with h | h
      · omega
      · simp [hpage.2] at h
    · rename_i h
      push Not at h
      rw [cons_inj_right,ih]
      constructor
      · intro hall n hn hlt
        obtain rfl | hne := eq_or_ne n page
        · exact ⟨by omega,by simpa using h.2⟩
        · exact hall n (by omega) (by omega)
      · exact fun hall n hn hlt => hall n (by omega) (by omega)

variable {i : Installation} {order : List Installation} {cache : List RepoRow}

theorem mem_syncInstallation (h : i.status = .completed) :
    r ∈ syncInstallation cache i ↔ r.id ∈ i.listed.flatten ∧ r.installationId = i.id ∨
      r ∈ cache ∧ r.installationId ∉ i.replaced ∧ r.id ∉ i.listed.flatten ∧
        i.id ≠ r.installationId := by
  have hids : i.allRepos.map (·.id) = i.listed.flatten := by
    rw [Installation.allRepos,map_map]
    exact map_id _
  have hmem : r ∈ i.allRepos ↔ r.id ∈ i.listed.flatten ∧ r.installationId = i.id := by
    obtain ⟨id,installationId⟩ := r
    rw [Installation.allRepos,mem_map]
    constructor
    · rintro ⟨_,hid,⟨⟩⟩
      exact ⟨hid,rfl⟩
    · rintro ⟨hid,rfl⟩
      exact ⟨id,hid,rfl⟩
  simp only [syncInstallation,if_pos h,replaceInstallationRepos,upsertRepos,hids,
    deleteInstallations,mem_filter,mem_append,hmem,decide_eq_true_eq]
  tauto

theorem not_mem_replaced {id : String} (h : id ∉ i.legacyIds) : id ∉ i.replaced := by
  unfold Installation.replaced
  split_ifs
  · exact h
  · simp

/-- A repository is cached in the end if a completed job listed it, or it was cached before for an
installation that has none and is not deleted. -/
theorem mem_foldl_sync (hnodup : (order.map Installation.id).Nodup)
    (hlegacy : ∀ i ∈ order, ∀ j ∈ order, j.id ∉ i.legacyIds) (cache : List RepoRow) (id : String) :
    (∃ r ∈ order.foldl syncInstallation cache, r.id = id) ↔
      (∃ i ∈ order, i.status = .completed ∧ id ∈ i.listed.flatten) ∨
      ∃ r ∈ cache, r.id = id ∧ ∀ i ∈ order, r.installationId ∉ i.replaced ∧
        (i.status = .completed → i.id ≠ r.installationId) := by
  induction order generalizing cache with
  | nil => simp
  | cons i rest ih =>
    rw [map_cons,nodup_cons] at hnodup
    rw [foldl_cons,ih hnodup.2 fun j hj k hk => hlegacy j (.tail _ hj) k (.tail _ hk)]
    by_cases h : i.status = .completed
    · -- no later job is for this installation again
      have hnew : ∀ j ∈ rest, i.id ∉ j.replaced ∧ (j.status = .completed → j.id ≠ i.id) := by
        intro j hj
        refine ⟨not_mem_replaced (hlegacy j (.tail _ hj) i mem_cons_self),fun _ he => ?_⟩
        exact hnodup.1 (mem_map.mpr ⟨j,hj,he⟩)
      simp only [mem_syncInstallation h,exists_mem_cons_iff,forall_mem_cons]
      constructor
      · rintro (hlater | ⟨r,⟨hlisted,-⟩ | ⟨hr,hkept,-,hne⟩,rfl,hrest⟩)
        · exact .inl (.inr hlater)
        · exact .inl (.inl ⟨h,hlisted⟩)
        · exact .inr ⟨r,hr,rfl,⟨hkept,fun _ => hne⟩,hrest⟩
      · rintro ((⟨-,hlisted⟩ | hlater) | ⟨r,hr,rfl,⟨hkept,hne⟩,hrest⟩)
        · exact .inr ⟨⟨id,i.id⟩,.inl ⟨hlisted,rfl⟩,rfl,hnew⟩
        · exact .inl hlater
        · by_cases hlisted : r.id ∈ i.listed.flatten
          · exact .inr ⟨⟨r.id,i.id⟩,.inl ⟨hlisted,rfl⟩,rfl,hnew⟩
          · exact .inr ⟨r,.inr ⟨hr,hkept,hlisted,hne h⟩,rfl,hrest⟩
    · simp [syncInstallation,deleteInstallations,h,and_assoc,and_left_comm]

theorem mem_prune_iff (sync : Sync) :
    r ∈ sync.pruneStaleGitHubInstallations cache ↔ r ∈ cache ∧ ¬ sync.Prunes r := by
  obtain ⟨provider,remote,target,answers⟩ := sync
  unfold Sync.pruneStaleGitHubInstallations Sync.listAppInstallations Sync.Prunes
  cases target <;> cases provider <;> cases answers <;> simp

namespace Shop

def installation (fails : Nat → Bool) : Installation where
  id := "github:1"
  pages := [["github:10"], ["github:11"]]
  fails := fails
  claimed := true
  commits := true
  legacyIds := ["1"]
  found := true

def blog : Installation := ⟨"github:2",[["github:20"]],fun _ => false,true,true,[],true⟩

/-- All installations; some pages of the first fail. -/
def sync (fails : Nat → Bool) : Sync := ⟨.github,[installation fails, blog],none,true⟩

/-- Two repositories of the first installation, one under its older id, and one of an installation
that is gone. -/
def cached : List RepoRow :=
  [⟨"github:11","github:1"⟩, ⟨"github:10","1"⟩, ⟨"github:90","github:9"⟩]

theorem keyed_sync (fails : Nat → Bool) : (sync fails).Keyed cached where
  jobs := show ["github:1", "github:2"].Nodup by decide
  legacy := show ∀ i ∈ [installation fails, blog], ∀ j ∈ [installation fails, blog], _ by
    simp [installation,blog]
  cache := by decide

end Shop

open Shop

end Ploydok.Providers
