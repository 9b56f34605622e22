import Mathlib.Data.List.Nodup

/-! The containers of a Docker host. Ids are never given twice and names are unique; a
container is created stopped, and is stopped and removed by its id or by its name. -/

namespace Ploydok.Runtime

open List

structure Container where
  id : Nat
  (name image : String)
  running : Bool
  deriving DecidableEq, Repr

structure Docker where
  containers : List Container
  nextId : Nat
  id_lt : ∀ k ∈ containers, k.id < nextId
  ids : (containers.map Container.id).Nodup
  names : (containers.map Container.name).Nodup

inductive Ref where
  | id (id : Nat)
  | name (name : String)
  deriving DecidableEq, Repr

def Ref.refersTo : Ref → Container → Bool
  | id i, k => k.id = i
  | name n, k => k.name = n

/-- The container after a start or a stop of `ref`. -/
def Ref.switch (ref : Ref) (running : Bool) (k : Container) : Container :=
  if ref.refersTo k then { k with running := running } else k

@[simp] theorem Ref.switch_id (ref : Ref) (running : Bool) (k : Container) :
    (ref.switch running k).id = k.id := by
  unfold Ref.switch
  split <;> rfl

@[simp] theorem Ref.switch_name (ref : Ref) (running : Bool) (k : Container) :
    (ref.switch running k).name = k.name := by
  unfold Ref.switch
  split <;> rfl

namespace Docker

def has (d : Docker) (ref : Ref) : Bool := d.containers.any ref.refersTo

theorem has_name_iff {d : Docker} :
    d.has (.name name) = true ↔ name ∈ d.containers.map Container.name := by
  simp [has,Ref.refersTo]

def create? (d : Docker) (name image : String) : Option (Nat × Docker) :=
  if h : d.has (.name name) = true then none
  else some (d.nextId,
    { containers := d.containers ++ [⟨d.nextId,name,image,false⟩]
      nextId := d.nextId + 1
      id_lt := by
        intro k hk
        rcases mem_append.mp hk with hk | hk
        · exact Nat.lt_succ_of_lt (d.id_lt k hk)
        · obtain rfl := mem_singleton.mp hk
          exact Nat.lt_succ_self _
      ids := by
        have hnew : d.nextId ∉ d.containers.map Container.id := by
          intro hmem
          obtain ⟨k,hk,he⟩ := mem_map.mp hmem
          have := d.id_lt k hk
          omega
        simpa using d.ids.concat hnew
      names := by simpa using d.names.concat (mt has_name_iff.mpr h) })

def setRunning (d : Docker) (ref : Ref) (running : Bool) : Docker :=
  { containers := d.containers.map (ref.switch running)
    nextId := d.nextId
    id_lt := by
      intro k hk
      obtain ⟨k',hk',rfl⟩ := mem_map.mp hk
      simpa using d.id_lt k' hk'
    ids := by simpa [Function.comp_def] using d.ids
    names := by simpa [Function.comp_def] using d.names }

def remove (d : Docker) (ref : Ref) : Docker :=
  { containers := d.containers.filter fun k => !ref.refersTo k
    nextId := d.nextId
    id_lt := fun k hk => d.id_lt k (mem_of_mem_filter hk)
    ids := d.ids.sublist (filter_sublist.map _)
    names := d.names.sublist (filter_sublist.map _) }

/-! ### Which containers run -/

def Live (d : Docker) (name : String) : Prop := ∃ k ∈ d.containers, k.name = name ∧ k.running = true

/-- The container `id` exists under the name. -/
def Owns (d : Docker) (name : String) (id : Nat) : Prop :=
  ∃ k ∈ d.containers, k.id = id ∧ k.name = name

def Means (d : Docker) (ref : Ref) (name : String) : Prop :=
  ∀ k ∈ d.containers, ref.refersTo k = true → k.name = name

variable {d d' : Docker} {name image : String} {ref : Ref}

theorem Live.has (h : d.Live name) : d.has (.name name) = true := by
  obtain ⟨k,hk,rfl,-⟩ := h
  exact has_name_iff.mpr (mem_map_of_mem hk)

theorem means_name (d : Docker) (name : String) : d.Means (.name name) name := by
  intro k _ hk
  simpa [Ref.refersTo] using hk

variable {id : Nat}

theorem Owns.means (h : d.Owns name id) : d.Means (.id id) name := by
  obtain ⟨k,hk,rfl,rfl⟩ := h
  intro k' hk' href
  have hid : k'.id = k.id := by simpa [Ref.refersTo] using href
  rw [inj_on_of_nodup_map d.ids hk' hk hid]

theorem create?_eq_some (h : d.create? name image = some (id, d')) : d.has (.name name) = false ∧
      d'.containers = d.containers ++ [⟨id,name,image,false⟩] := by
  unfold create? at h
  split at h
  · cases h
  · next hfree =>
    cases h
    exact ⟨by simpa using hfree,rfl⟩

theorem exists_create (h : d.has (.name name) = false) (image : String) :
    ∃ id d', d.create? name image = some (id, d') := by
  simp [create?,h]

variable {n : String}

theorem Live.create (hl : d.Live n)
    (h : d.create? name image = some (id, d')) : d'.Live n ∧ n ≠ name := by
  obtain ⟨hfree,hc⟩ := create?_eq_some h
  constructor
  · obtain ⟨k,hk,hn⟩ := hl
    exact ⟨k,by simp [hc,hk],hn⟩
  · rintro rfl
    rw [hl.has] at hfree
    cases hfree

theorem owns_create (h : d.create? name image = some (id, d')) : d'.Owns name id := by
  obtain ⟨-,hc⟩ := create?_eq_some h
  exact ⟨⟨id,name,image,false⟩,by simp [hc],rfl,rfl⟩

theorem Owns.setRunning (h : d.Owns name id) (ref : Ref) (b : Bool) :
    (d.setRunning ref b).Owns name id := by
  obtain ⟨k,hk,hid,hname⟩ := h
  exact ⟨ref.switch b k,mem_map_of_mem hk,by simpa using hid,by simpa using hname⟩

theorem Live.start (h : d.Live n) (ref : Ref) : (d.setRunning ref true).Live n := by
  obtain ⟨k,hk,hname,hrun⟩ := h
  refine ⟨ref.switch true k,mem_map_of_mem hk,by simpa using hname,?_⟩
  unfold Ref.switch
  split
  · rfl
  · exact hrun

theorem Owns.live_start (h : d.Owns name id) : (d.setRunning (.id id) true).Live name := by
  obtain ⟨k,hk,hid,hname⟩ := h
  refine ⟨Ref.switch (.id id) true k,mem_map_of_mem hk,by simpa using hname,?_⟩
  simp [Ref.switch,Ref.refersTo,hid]

theorem Owns.has (h : d.Owns name id) : d.has (.id id) = true := by
  obtain ⟨k,hk,hid,-⟩ := h
  exact any_eq_true.mpr ⟨k,hk,by simp [Ref.refersTo,hid]⟩

theorem not_live_stop (d : Docker) (name : String) :
    ¬ (d.setRunning (.name name) false).Live name := by
  rintro ⟨_,hk,hname,hrun⟩
  obtain ⟨k,-,rfl⟩ := mem_map.mp hk
  have hname : k.name = name := by simpa using hname
  simp [Ref.switch,Ref.refersTo,hname] at hrun

theorem Live.of_remove (h : (d.remove ref).Live n) : d.Live n := by
  obtain ⟨k,hk,hname,hrun⟩ := h
  exact ⟨k,mem_of_mem_filter hk,hname,hrun⟩

theorem Means.setRunning (h : d.Means ref name) (ref' : Ref) (b : Bool) :
    (d.setRunning ref' b).Means ref name := by
  intro k hk href
  obtain ⟨k',hk',rfl⟩ := mem_map.mp hk
  have href' : ref.refersTo k' = true := by
    cases ref <;> simpa [Ref.refersTo] using href
  simpa using h k' hk' href'

theorem Means.remove (h : d.Means ref name) (ref' : Ref) : (d.remove ref').Means ref name :=
  fun k hk href => h k (mem_of_mem_filter hk) href

theorem Live.stop (h : d.Live n) (hm : d.Means ref name) (hne : n ≠ name) :
    (d.setRunning ref false).Live n := by
  obtain ⟨k,hk,rfl,hrun⟩ := h
  have hnot : ref.refersTo k = false := by
    rw [← Bool.not_eq_true]
    exact fun href => hne (hm k hk href)
  exact ⟨ref.switch false k,mem_map_of_mem hk,by simp,
    by simpa [Ref.switch,hnot] using hrun⟩

theorem Live.remove (h : d.Live n) (hm : d.Means ref name) (hne : n ≠ name) :
    (d.remove ref).Live n := by
  obtain ⟨k,hk,rfl,hrun⟩ := h
  have hnot : ref.refersTo k = false := by
    rw [← Bool.not_eq_true]
    exact fun href => hne (hm k hk href)
  exact ⟨k,mem_filter.mpr ⟨hk,by simp [hnot]⟩,rfl,hrun⟩

end Docker

end Ploydok.Runtime
