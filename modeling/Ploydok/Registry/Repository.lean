import Ploydok.Order.Stable

/-! One repository of the registry, `worker/registry.ts`: the calls of its HTTP API, `gcKeepLast`,
and one repository pass of `runRegistryGc`. Both select tags, newest first, and delete by digest. -/

namespace Ploydok.Registry

open List

/-! ### The registry's answers -/

structure Manifest where
  digest : String
  /-- The date in the config blob, in milliseconds. -/
  createdAt : Option Int
deriving DecidableEq

@[ext]
structure Repo where
  tags : List String
  nodup : tags.Nodup
  /-- What a tag resolves to. -/
  manifest : String → Option Manifest
  /-- The digests of the manifests without a tag. -/
  untagged : List String

namespace Repo

/-- The repository after the manifests with these digests are gone: so are their tags. -/
def without (repo : Repo) (digests : List String) : Repo where
  tags := repo.tags.filter fun tag => (repo.manifest tag).all (·.digest ∉ digests)
  nodup := repo.nodup.filter _
  manifest := fun tag => (repo.manifest tag).filter (·.digest ∉ digests)
  untagged := repo.untagged.filter (· ∉ digests)

def deleteDigest (repo : Repo) (digest : String) : Repo := repo.without [digest]

/-- `registry garbage-collect -m`, as far as it came. -/
def sweep (repo : Repo) (swept : String → Bool) : Repo :=
  { repo with untagged := repo.untagged.filter fun digest => !swept digest }

def Tagged (repo : Repo) (digest : String) : Prop :=
  ∃ tag ∈ repo.tags, (repo.manifest tag).map (·.digest) = some digest

def Stores (repo : Repo) (digest : String) : Prop := digest ∈ repo.untagged ∨ repo.Tagged digest

instance (repo : Repo) : DecidablePred repo.Tagged := fun digest =>
  inferInstanceAs (Decidable (∃ tag ∈ repo.tags, (repo.manifest tag).map (·.digest) = some digest))

instance (repo : Repo) : DecidablePred repo.Stores := fun _ => inferInstanceAs (Decidable (_ ∨ _))

attribute [local simp] without

theorem without_nil (repo : Repo) : repo.without [] = repo := by
  ext1
  · simp
  · funext tag
    cases h : repo.manifest tag <;> simp [h]
  · simp

theorem without_without (repo : Repo) (ds ds' : List String) :
    (repo.without ds).without ds' = repo.without (ds ++ ds') := by
  ext1
  · simp only [without,filter_filter]
    refine filter_congr fun tag _ => ?_
    cases repo.manifest tag with
    | none => rfl
    | some m => by_cases h : m.digest ∈ ds <;> simp [h]
  · funext tag
    cases h : repo.manifest tag with
    | none => simp [h]
    | some m =>
      by_cases hd : m.digest ∈ ds <;> simp [h,hd,Option.filter]
  · simp [filter_filter,Bool.and_comm]

variable {d : String} {repo : Repo} {ds : List String}

theorem tagged_without_iff : (repo.without ds).Tagged d ↔ repo.Tagged d ∧ d ∉ ds := by
  constructor
  · rintro ⟨tag,htag,hd⟩
    obtain ⟨m,hm,rfl⟩ := Option.map_eq_some_iff.mp hd
    obtain ⟨hm,hnot⟩ := Option.filter_eq_some_iff.mp hm
    exact ⟨⟨tag,(mem_filter.mp htag).1,by rw [hm]; rfl⟩,by simpa using hnot⟩
  · rintro ⟨⟨tag,htag,hd⟩,hnot⟩
    obtain ⟨m,hm,rfl⟩ := Option.map_eq_some_iff.mp hd
    exact ⟨tag,by simp [htag,hm,hnot],by simp [hm,hnot]⟩

theorem stores_without_iff : (repo.without ds).Stores d ↔ repo.Stores d ∧ d ∉ ds := by
  have huntagged : d ∈ (repo.without ds).untagged ↔ d ∈ repo.untagged ∧ d ∉ ds := by
    simp
  rw [Stores,huntagged,tagged_without_iff,Stores,or_and_right]

theorem stores_sweep_iff :
    (repo.sweep swept).Stores d ↔ (d ∈ repo.untagged ∧ swept d = false) ∨ repo.Tagged d := by
  simp [Stores,sweep,Tagged]

end Repo

inductive Failure where
  | response (status : Nat) (text : String)
  | network (message : String)

def Failure.message (operation : String) : Failure → String
  | .response status text =>
    "registry " ++ operation ++ " failed (" ++ toString status ++ "): " ++ text
  | .network message => message

structure Faults where
  listTags : Option Failure := none
  getManifest : String → Option Failure := fun _ => none
  deleteDigest : String → Option Failure := fun _ => none

structure Item where
  (tag digest : String)
  createdAt : Option Int
deriving DecidableEq

/-- The tags with their manifests; `dates` takes precedence over the config blob. -/
def resolve (dates : String → Option Int) (repo : Repo) : List Item :=
  repo.tags.filterMap fun tag =>
    (repo.manifest tag).map fun m => ⟨tag,m.digest,(dates tag).or m.createdAt⟩

def Ahead (a b : Item) : Prop :=
  match a.createdAt, b.createdAt with
  | some x, some y => y ≤ x
  | none, some _ => False
  | _, none => True

instance : DecidableRel Ahead := fun a b => by
  unfold Ahead
  cases a.createdAt <;> cases b.createdAt <;> infer_instance

instance : IsTrans Item Ahead where
  trans a b c hab hbc := by
    unfold Ahead at *
    cases ha : a.createdAt <;> cases hb : b.createdAt <;> cases hc : c.createdAt <;>
      simp_all
    omega

instance : Std.Total Ahead where
  total a b := by
    unfold Ahead
    cases ha : a.createdAt <;> cases hb : b.createdAt <;> simp
    omega

def newestFirst (items : List Item) : List Item := items.insertionSort Ahead

/-- Digests as `gcKeepLast` accepts them. -/
def known (digest : String) : Bool := digest ≠ "sha256:unknown"

/-- Digests as `runRegistryGc` accepts them. -/
def usable (digest : String) : Bool := digest ≠ "sha256:unknown" && digest ≠ ""

def candidates (accept : String → Bool) (dates : String → Option Int) (repo : Repo) : List Item :=
  newestFirst ((resolve dates repo).filter fun item => accept item.digest)

/-- The loop of `gcKeepLast`, which ends with the first call that throws. -/
def deleteEach (faults : Faults) :
    List Item → List String → List String → Repo → Except String (List String) × Repo
  | [], _, deleted, repo => (.ok deleted, repo)
  | item :: items, seenDigests, deleted, repo =>
    if item.digest ∈ seenDigests then deleteEach faults items seenDigests deleted repo
    else
      match faults.deleteDigest item.digest with
      | some failure => (.error (failure.message "deleteDigest"), repo)
      | none =>
        deleteEach faults items (item.digest :: seenDigests) (deleted ++ [item.digest])
          (repo.deleteDigest item.digest)

def gcKeepLast (faults : Faults) (n : Nat) (repo : Repo) : Except String (List String) × Repo :=
  match faults.listTags with
  | some failure => (.error (failure.message "listTags"), repo)
  | none =>
    if repo.tags.length ≤ n then (.ok [], repo)
    else
      match repo.tags.findSome? faults.getManifest with
      | some failure => (.error (failure.message "getManifest"), repo)
      | none => deleteEach faults ((candidates known (fun _ => none) repo).drop n) [] [] repo

/-- The loop over the extras of a repository: a call that throws is logged. With the number of
digests deleted. -/
def collectEach (faults : Faults) (protectedDigests : List String) :
    List Item → List String → Nat → Repo → Nat × Repo
  | [], _, deleted, repo => (deleted, repo)
  | item :: items, seen, deleted, repo =>
    if item.digest ∈ seen then collectEach faults protectedDigests items seen deleted repo
    else if item.digest ∈ protectedDigests then
      collectEach faults protectedDigests items (item.digest :: seen) deleted repo
    else
      match faults.deleteDigest item.digest with
      | some _ => collectEach faults protectedDigests items (item.digest :: seen) deleted repo
      | none =>
        collectEach faults protectedDigests items (item.digest :: seen) (deleted + 1)
          (repo.deleteDigest item.digest)

def protectedDigests (protectedTags : List String) (items : List Item) : List String :=
  (items.filter fun item => item.tag ∈ protectedTags).map (·.digest)

/-- The body of the loop of `runRegistryGc` over the apps. A repository without tags is not
counted as scanned. -/
def collectRepo (faults : Faults) (protectedTags : List String) (dates : String → Option Int)
    (keep : Nat) (repo : Repo) : Except String (Option Nat) × Repo :=
  match faults.listTags with
  | some failure => (.error (failure.message "listTags"), repo)
  | none =>
    if repo.tags = [] then (.ok none, repo)
    else if 0 < keep ∧ repo.tags.length ≤ keep then (.ok (some 0), repo)
    else
      match repo.tags.findSome? faults.getManifest with
      | some failure => (.error (failure.message "getManifest"), repo)
      | none =>
        let valid := candidates usable dates repo
        let (deleted, repo') := collectEach faults (protectedDigests protectedTags valid)
          (valid.drop keep) [] 0 repo
        (.ok (some deleted), repo')

section Loops

variable (faults : Faults) (guarded : List String)

theorem deleteEach_snd (items : List Item) (seen deleted : List String) (repo : Repo) :
    ∃ ds, (deleteEach faults items seen deleted repo).2 = repo.without ds ∧
      (∀ d ∈ ds, d ∈ items.map (·.digest)) ∧
      ((∀ d, faults.deleteDigest d = none) → ∀ d ∈ items.map (·.digest), d ∈ seen ∨ d ∈ ds) := by
  induction items generalizing seen deleted repo with
  | nil => exact ⟨[],by rw [Repo.without_nil]; rfl,by simp,by simp⟩
  | cons item items ih =>
    rw [deleteEach]
    by_cases hseen : item.digest ∈ seen
    · rw [if_pos hseen]
      obtain ⟨ds,hrepo,hsub,hall⟩ := ih seen deleted repo
      refine ⟨ds,hrepo,fun d hd => mem_cons_of_mem _ (hsub d hd),fun hok d hd => ?_⟩
      rcases mem_cons.mp hd with rfl | hd
      · exact .inl hseen
      · exact hall hok d hd
    · rw [if_neg hseen]
      cases hfault : faults.deleteDigest item.digest with
      | some failure =>
        refine ⟨[],by rw [Repo.without_nil],by simp,fun hok => ?_⟩
        rw [hok] at hfault
        cases hfault
      | none =>
        obtain ⟨ds,hrepo,hsub,hall⟩ := ih (item.digest :: seen) (deleted ++ [item.digest])
          (repo.deleteDigest item.digest)
        refine ⟨item.digest :: ds,?_,?_,fun hok d hd => ?_⟩
        · exact hrepo.trans (Repo.without_without _ _ _)
        · intro d hd
          rcases mem_cons.mp hd with rfl | hd
          · exact mem_cons_self
          · exact mem_cons_of_mem _ (hsub d hd)
        · rcases mem_cons.mp hd with rfl | hd
          · exact .inr mem_cons_self
          · rcases hall hok d hd with hd | hd
            · rcases mem_cons.mp hd with rfl | hd
              · exact .inr mem_cons_self
              · exact .inl hd
            · exact .inr (mem_cons_of_mem _ hd)

theorem collectEach_eq (items : List Item) (seen : List String) (deleted : Nat) (repo : Repo) :
    ∃ ds, collectEach faults guarded items seen deleted repo =
        (deleted + ds.length, repo.without ds) ∧
      ∀ d, d ∈ ds ↔ d ∈ items.map (·.digest) ∧ d ∉ seen ∧ d ∉ guarded ∧
        faults.deleteDigest d = none := by
  induction items generalizing seen deleted repo with
  | nil => exact ⟨[],by rw [Repo.without_nil]; rfl,by simp⟩
  | cons item items ih =>
    rw [collectEach]
    by_cases hseen : item.digest ∈ seen
    · rw [if_pos hseen]
      obtain ⟨ds,heq,hmem⟩ := ih seen deleted repo
      refine ⟨ds,heq,fun d => ?_⟩
      rw [hmem,map_cons,mem_cons]
      grind
    · rw [if_neg hseen]
      by_cases hguard : item.digest ∈ guarded
      · rw [if_pos hguard]
        obtain ⟨ds,heq,hmem⟩ := ih (item.digest :: seen) deleted repo
        refine ⟨ds,heq,fun d => ?_⟩
        rw [hmem,map_cons,mem_cons,mem_cons]
        grind
      · rw [if_neg hguard]
        cases hfault : faults.deleteDigest item.digest with
        | some failure =>
          obtain ⟨ds,heq,hmem⟩ := ih (item.digest :: seen) deleted repo
          refine ⟨ds,heq,fun d => ?_⟩
          rw [hmem,map_cons,mem_cons,mem_cons]
          grind
        | none =>
          obtain ⟨ds,heq,hmem⟩ := ih (item.digest :: seen) (deleted + 1)
            (repo.deleteDigest item.digest)
          refine ⟨item.digest :: ds,?_,fun d => ?_⟩
          · refine heq.trans (Prod.ext ?_ (Repo.without_without _ _ _))
            show deleted + 1 + ds.length = deleted + (ds.length + 1)
            omega
          · rw [mem_cons,hmem,map_cons,mem_cons,mem_cons]
            grind

end Loops

/-! ### The tags that should stay -/

/-- The tag has no date, or is one of the `n` newest that have one. -/
def Wanted (dates : String → Option Int) (n : Nat) (repo : Repo) (item : Item) : Prop :=
  item ∈ resolve dates repo ∧ (item.createdAt = none ∨
    item ∈ (newestFirst ((resolve dates repo).filter (·.createdAt.isSome))).take n)

instance (dates : String → Option Int) (n : Nat) (repo : Repo) :
    DecidablePred (Wanted dates n repo) := fun _ => inferInstanceAs (Decidable (_ ∧ _))

def Keeps (dates : String → Option Int) (n : Nat) (repo repo' : Repo) : Prop :=
  ∀ item, Wanted dates n repo item → repo'.manifest item.tag = repo.manifest item.tag

/-- Every candidate beyond the first `n` is protected, or dated and shares its digest with no tag
that stays. -/
def Disposable (accept : String → Bool) (dates : String → Option Int) (n : Nat)
    (protectedTags : List String) (repo : Repo) : Prop :=
  ∀ item ∈ (candidates accept dates repo).drop n,
    item.digest ∈ protectedDigests protectedTags (candidates accept dates repo) ∨
      item.createdAt.isSome ∧ ∀ other, Wanted dates n repo other → other.digest ≠ item.digest

section Pass

variable {accept : String → Bool} {dates : String → Option Int} {n : Nat} {repo repo' : Repo}
  {protectedTags : List String} {item : Item}

theorem mem_resolve_iff : item ∈ resolve dates repo ↔ item.tag ∈ repo.tags ∧
    ∃ m, repo.manifest item.tag = some m ∧ item.digest = m.digest ∧
      item.createdAt = (dates item.tag).or m.createdAt := by
  obtain ⟨tag,digest,createdAt⟩ := item
  simp only [resolve,mem_filterMap,Option.map_eq_some_iff,Item.mk.injEq]
  constructor
  · rintro ⟨_,htag,m,hm,rfl,rfl,rfl⟩
    exact ⟨htag,m,hm,rfl,rfl⟩
  · rintro ⟨htag,m,hm,rfl,rfl⟩
    exact ⟨tag,htag,m,hm,rfl,rfl,rfl⟩

theorem mem_candidates_iff : item ∈ candidates accept dates repo ↔
    item ∈ resolve dates repo ∧ accept item.digest = true := by
  rw [candidates,newestFirst,mem_insertionSort,mem_filter]

theorem exists_candidate_iff (accept : String → Bool) (dates : String → Option Int) (repo : Repo)
    (p : String → Prop) (d : String) :
    (∃ item ∈ candidates accept dates repo, p item.tag ∧ item.digest = d) ↔
      accept d = true ∧ ∃ tag ∈ repo.tags, p tag ∧ (repo.manifest tag).map (·.digest) = some d := by
  constructor
  · rintro ⟨item,hitem,hp,rfl⟩
    obtain ⟨hresolve,haccept⟩ := mem_candidates_iff.mp hitem
    obtain ⟨htag,m,hm,hdigest,-⟩ := mem_resolve_iff.mp hresolve
    exact ⟨haccept,item.tag,htag,hp,by rw [hm,hdigest]; rfl⟩
  · rintro ⟨haccept,tag,htag,hp,hd⟩
    obtain ⟨m,hm,rfl⟩ := Option.map_eq_some_iff.mp hd
    refine ⟨⟨tag,m.digest,(dates tag).or m.createdAt⟩,?_,hp,rfl⟩
    exact mem_candidates_iff.mpr ⟨mem_resolve_iff.mpr ⟨htag,m,hm,rfl,rfl⟩,haccept⟩

theorem length_candidates_le : (candidates accept dates repo).length ≤ repo.tags.length := by
  rw [candidates,newestFirst,length_insertionSort]
  exact (length_filter_le _ _).trans (length_filterMap_le _ _)

variable {ds : List String}

theorem keeps_without_iff : Keeps dates n repo (repo.without ds) ↔
    ∀ item, Wanted dates n repo item → item.digest ∉ ds := by
  refine forall₂_congr fun item hitem => ?_
  obtain ⟨-,m,hm,hdigest,-⟩ := mem_resolve_iff.mp hitem.1
  by_cases hd : m.digest ∈ ds <;> simp [Repo.without,hm,hdigest,hd]

theorem disposable_of_keeps (hkeeps : Keeps dates n repo (repo.without ds))
    (hds : ∀ item ∈ (candidates accept dates repo).drop n,
      item.digest ∈ protectedDigests protectedTags (candidates accept dates repo) ∨
        item.digest ∈ ds) : Disposable accept dates n protectedTags repo := by
  rw [keeps_without_iff] at hkeeps
  intro item hitem
  rcases hds item hitem with hprotected | hgone
  · exact .inl hprotected
  · refine .inr ⟨?_,fun other hother heq => hkeeps other hother (heq ▸ hgone)⟩
    by_contra hdate
    refine hkeeps item ⟨?_,.inl (by simpa using hdate)⟩ hgone
    exact (mem_candidates_iff.mp (mem_of_mem_drop hitem)).1

theorem keeps_of_disposable (hdisposable : Disposable accept dates n protectedTags repo)
    (hds : ∀ d ∈ ds, (∃ item ∈ (candidates accept dates repo).drop n, item.digest = d) ∧
      d ∉ protectedDigests protectedTags (candidates accept dates repo)) :
    Keeps dates n repo (repo.without ds) := by
  rw [keeps_without_iff]
  intro other hother hgone
  obtain ⟨⟨item,hitem,hdigest⟩,hprotected⟩ := hds _ hgone
  rcases hdisposable item hitem with h | ⟨-,h⟩
  · exact hprotected (hdigest ▸ h)
  · exact h other hother hdigest.symm

theorem keeps_refl : Keeps dates n repo repo := fun _ _ => rfl

theorem disposable_of_length_le (h : repo.tags.length ≤ n) :
    Disposable accept dates n protectedTags repo := by
  have hnil : (candidates accept dates repo).drop n = [] :=
    drop_eq_nil_of_le (length_candidates_le.trans h)
  simp [Disposable,hnil]

theorem keeps_gcKeepLast_iff :
    (∀ faults, Keeps (fun _ => none) n repo (gcKeepLast faults n repo).2) ↔
      Disposable known (fun _ => none) n [] repo := by
  constructor
  · intro hkeeps
    by_cases hlength : repo.tags.length ≤ n
    · exact disposable_of_length_le hlength
    · have hrun := hkeeps {}
      have hno : repo.tags.findSome? (fun _ => (none : Option Failure)) = none := by simp
      simp only [gcKeepLast,hlength,if_false,hno] at hrun
      obtain ⟨ds,hrepo,-,hall⟩ := deleteEach_snd {}
        ((candidates known (fun _ => none) repo).drop n) [] [] repo
      rw [hrepo] at hrun
      refine disposable_of_keeps hrun fun item hitem => .inr ?_
      simpa using hall (fun _ => rfl) item.digest (mem_map_of_mem hitem)
  · intro hdisposable faults
    unfold gcKeepLast
    split
    · exact keeps_refl
    · split
      · exact keeps_refl
      · split
        · exact keeps_refl
        · obtain ⟨ds,hrepo,hsub,-⟩ := deleteEach_snd faults
            ((candidates known (fun _ => none) repo).drop n) [] [] repo
          rw [hrepo]
          refine keeps_of_disposable hdisposable fun d hd => ⟨?_,by simp [protectedDigests]⟩
          exact mem_map.mp (hsub d hd)

/-! ### A repository pass -/

def Extra (protectedTags : List String) (dates : String → Option Int) (keep : Nat) (repo : Repo)
    (digest : String) : Prop :=
  (∃ item ∈ (candidates usable dates repo).drop keep, item.digest = digest) ∧
    digest ∉ protectedDigests protectedTags (candidates usable dates repo)

def Faults.Reads (faults : Faults) : Prop :=
  faults.listTags = none ∧ ∀ tag, faults.getManifest tag = none

theorem faults_reads_none : Faults.Reads {} := ⟨rfl,fun _ => rfl⟩

variable {faults : Faults} {keep : Nat} {d : String}

theorem not_extra_of_length_le (h : repo.tags.length ≤ keep) :
    ¬ Extra protectedTags dates keep repo d := by
  rintro ⟨⟨item,hitem,-⟩,-⟩
  rw [drop_eq_nil_of_le (length_candidates_le.trans h)] at hitem
  cases hitem

theorem collectRepo_spec (faults : Faults) (protectedTags : List String)
    (dates : String → Option Int) (keep : Nat) (repo : Repo) :
    ∃ ds, (collectRepo faults protectedTags dates keep repo).2 = repo.without ds ∧
      (∀ d ∈ ds, Extra protectedTags dates keep repo d ∧ faults.deleteDigest d = none) ∧
      ∀ k, (collectRepo faults protectedTags dates keep repo).1 = .ok k → k.getD 0 = ds.length ∧
        ∀ d, Extra protectedTags dates keep repo d → faults.deleteDigest d = none → d ∈ ds := by
  have hunchanged : ∀ {out : Except String (Option Nat)},
      (∀ k, out = .ok k → k.getD 0 = 0 ∧ repo.tags.length ≤ keep) →
      ∃ ds, repo = repo.without ds ∧
        (∀ d ∈ ds, Extra protectedTags dates keep repo d ∧ faults.deleteDigest d = none) ∧
        ∀ k, out = .ok k → k.getD 0 = ds.length ∧
          ∀ d, Extra protectedTags dates keep repo d → faults.deleteDigest d = none → d ∈ ds := by
    intro out hout
    refine ⟨[],(Repo.without_nil repo).symm,by simp,fun k hk => ?_⟩
    obtain ⟨hzero,hlength⟩ := hout k hk
    exact ⟨hzero,fun d hd => absurd hd (not_extra_of_length_le hlength)⟩
  unfold collectRepo
  split
  · exact hunchanged (by simp)
  · split_ifs with hnil hlength
    · refine hunchanged fun k hk => ?_
      cases hk
      simp [hnil]
    · refine hunchanged fun k hk => ?_
      cases hk
      exact ⟨rfl,hlength.2⟩
    · split
      · exact hunchanged (by simp)
      · obtain ⟨ds,heq,hmem⟩ := collectEach_eq faults
          (protectedDigests protectedTags (candidates usable dates repo))
          ((candidates usable dates repo).drop keep) [] 0 repo
        simp only [heq]
        refine ⟨ds,rfl,fun d hd => ?_,fun k hk => ?_⟩
        · obtain ⟨hitem,-,hprotected,hfault⟩ := (hmem d).mp hd
          exact ⟨⟨mem_map.mp hitem,hprotected⟩,hfault⟩
        · cases hk
          refine ⟨by simp,fun d hd hfault => (hmem d).mpr ⟨?_,by simp,hd.2,hfault⟩⟩
          exact mem_map.mpr hd.1

theorem collectRepo_ok (h : faults.Reads) (protectedTags : List String)
    (dates : String → Option Int) (keep : Nat) (repo : Repo) :
    ∃ k, (collectRepo faults protectedTags dates keep repo).1 = .ok k := by
  have hget : repo.tags.findSome? faults.getManifest = none := by simp [h.2]
  unfold collectRepo
  rw [h.1]
  simp only [hget]
  split_ifs
  · exact ⟨_,rfl⟩
  · exact ⟨_,rfl⟩
  · exact ⟨_,rfl⟩

theorem resolve_without (ds : List String) :
    resolve dates (repo.without ds) = (resolve dates repo).filter (·.digest ∉ ds) := by
  simp only [resolve,Repo.without,filterMap_filter,filter_filterMap]
  refine filterMap_congr fun tag _ => ?_
  cases hm : repo.manifest tag with
  | none => simp
  | some m => by_cases hd : m.digest ∈ ds <;> simp [hd,Option.filter]

theorem candidates_without (ds : List String) : candidates accept dates (repo.without ds) =
      (candidates accept dates repo).filter (·.digest ∉ ds) := by
  unfold candidates newestFirst
  rw [Order.filter_insertionSort,resolve_without,filter_filter,filter_filter]
  simp only [Bool.and_comm]

theorem nodup_candidates : (candidates accept dates repo).Nodup := by
  have hresolve : (resolve dates repo).Nodup := by
    refine List.Nodup.filterMap ?_ repo.nodup
    intro tag tag' item hitem hitem'
    simp only [Option.mem_def,Option.map_eq_some_iff] at hitem hitem'
    obtain ⟨m,-,rfl⟩ := hitem
    obtain ⟨m',-,heq⟩ := hitem'
    exact (congrArg Item.tag heq).symm
  exact (perm_insertionSort _ _).nodup_iff.mpr (hresolve.filter _)

theorem extra_of_without (h : Extra protectedTags dates keep (repo.without ds) d) :
    Extra protectedTags dates keep repo d := by
  unfold Extra at *
  rw [candidates_without] at h
  obtain ⟨⟨item,hitem,hd⟩,hprotected⟩ := h
  have hleft : item ∈ (candidates usable dates repo).filter (·.digest ∉ ds) := mem_of_mem_drop hitem
  obtain ⟨hcand,hnot⟩ := mem_filter.mp hleft
  refine ⟨⟨item,?_,hd⟩,fun hin => hprotected ?_⟩
  · rw [← take_append_drop keep (candidates usable dates repo)] at hcand
    rcases mem_append.mp hcand with htake | hdrop
    · have hfirst := Order.mem_take_filter (p := (·.digest ∉ ds)) htake hnot
      exact absurd hitem (disjoint_take_drop (nodup_candidates.filter _) le_rfl hfirst)
    · exact hdrop
  · obtain ⟨other,hother,hdigest⟩ := mem_map.mp hin
    obtain ⟨hmem,htag⟩ := mem_filter.mp hother
    refine mem_map.mpr ⟨other,mem_filter.mpr ⟨mem_filter.mpr ⟨hmem,?_⟩,htag⟩,hdigest⟩
    rw [hdigest,← hd]
    exact hnot

theorem not_extra_iff : ¬ Extra protectedTags dates keep repo d ↔
    (∀ item ∈ candidates usable dates repo, item.digest = d →
      item ∈ (candidates usable dates repo).take keep) ∨
    ∃ item ∈ candidates usable dates repo, item.tag ∈ protectedTags ∧ item.digest = d := by
  have hprotected : d ∈ protectedDigests protectedTags (candidates usable dates repo) ↔
      ∃ item ∈ candidates usable dates repo, item.tag ∈ protectedTags ∧ item.digest = d := by
    simp [protectedDigests,and_assoc]
  have hdrop : (¬ ∃ item ∈ (candidates usable dates repo).drop keep, item.digest = d) ↔
      ∀ item ∈ candidates usable dates repo, item.digest = d →
        item ∈ (candidates usable dates repo).take keep := by
    constructor
    · intro hnone item hitem hd
      rw [← take_append_drop keep (candidates usable dates repo)] at hitem
      rcases mem_append.mp hitem with htake | hdrop
      · exact htake
      · exact absurd ⟨item,hdrop,hd⟩ hnone
    · rintro hall ⟨item,hitem,hd⟩
      exact disjoint_take_drop nodup_candidates le_rfl (hall item (mem_of_mem_drop hitem) hd) hitem
  rw [Extra,not_and_or,not_not,hprotected,hdrop]

theorem keeps_collectRepo_iff :
    (∀ faults, Keeps dates keep repo (collectRepo faults protectedTags dates keep repo).2) ↔
      Disposable usable dates keep protectedTags repo := by
  constructor
  · intro hkeeps
    obtain ⟨ds,hrepo,-,hall⟩ := collectRepo_spec {} protectedTags dates keep repo
    obtain ⟨k,hk⟩ := collectRepo_ok faults_reads_none protectedTags dates keep repo
    have hrun := hkeeps {}
    rw [hrepo] at hrun
    refine disposable_of_keeps hrun fun item hitem => ?_
    by_cases hprotected : item.digest ∈
        protectedDigests protectedTags (candidates usable dates repo)
    · exact .inl hprotected
    · exact .inr ((hall k hk).2 item.digest ⟨⟨item,hitem,rfl⟩,hprotected⟩ rfl)
  · intro hdisposable faults
    obtain ⟨ds,hrepo,hextra,-⟩ := collectRepo_spec faults protectedTags dates keep repo
    rw [hrepo]
    exact keeps_of_disposable hdisposable fun d hd => (hextra d hd).1

end Pass

/-- Either collector lets the `n` newest tags and the undated ones stay exactly when the other
tags are disposable. -/
theorem collectors_keep_newest_iff (n : Nat) (repo : Repo) :
    ((∀ faults, Keeps (fun _ => none) n repo (gcKeepLast faults n repo).2) ↔
      Disposable known (fun _ => none) n [] repo) ∧
    ∀ (protectedTags : List String) (dates : String → Option Int),
      (∀ faults, Keeps dates n repo (collectRepo faults protectedTags dates n repo).2) ↔
        Disposable usable dates n protectedTags repo :=
  ⟨keeps_gcKeepLast_iff,fun _ _ => keeps_collectRepo_iff⟩

namespace Example

def repo : Repo where
  tags := ["c1", "c2", "pinned"]
  nodup := by decide
  manifest := fun tag =>
    if tag = "c1" then some ⟨"sha256:aa",some 1⟩
    else if tag = "c2" then some ⟨"sha256:aa",some 2⟩
    else if tag = "pinned" then some ⟨"sha256:bb",none⟩
    else none
  untagged := []

end Example

/-- The newest tag goes with an older one of the same digest, and the undated tag goes. -/
theorem newest_and_undated_tags_deleted : (¬ ∀ (n : Nat) (repo : Repo) (faults : Faults),
      Keeps (fun _ => none) n repo (gcKeepLast faults n repo).2) ∧
    ¬ ∀ (n : Nat) (repo : Repo) (protectedTags : List String) (dates : String → Option Int)
      (faults : Faults),
      Keeps dates n repo (collectRepo faults protectedTags dates n repo).2 := by
  constructor
  · intro h
    have hgone := h 1 Example.repo {} ⟨"c2","sha256:aa",some 2⟩ (by decide +kernel)
    revert hgone
    decide +kernel
  · intro h
    have hgone := h 1 Example.repo [] (fun _ => none) {} ⟨"pinned","sha256:bb",none⟩
      (by decide +kernel)
    revert hgone
    decide +kernel

end Ploydok.Registry
