import Ploydok.Marketplace.Compose

/-! The order in which the containers of a template are created: that of `composeToContainers`,
sorted once more by `topoOrder` of `services/marketplace-orchestrator.ts`, which looks for the names
of services among the names of containers. -/

namespace Ploydok.Marketplace

open Data Relation List

/-- What a container depends on, as far as it is the name of a container. -/
def containerDeps (containers : List ComposeContainer) (name : String) : List String :=
  (((containers.find? (·.name = name)).map (·.dependsOn)).getD []).filter
    (· ∈ containers.map (·.name))

/-- The names visited and those in order. No path of new names is longer than there are names. -/
def visitContainer (containers : List ComposeContainer) :
    Nat → List String × List String → String → List String × List String
  | 0, state, _ => state
  | fuel + 1, state, name =>
    if name ∈ state.1 then state
    else
      let after := (containerDeps containers name).foldl (visitContainer containers fuel)
        (name :: state.1, state.2)
      (after.1, after.2 ++ [name])

def topoOrder (containers : List ComposeContainer) : List String :=
  ((containers.map (·.name)).foldl (visitContainer containers (containers.length + 1)) ([], [])).2

/-- The names are those of the containers, each after those it depends on. -/
def InOrder (input : ComposeToContainersInput) (containers : List ComposeContainer)
    (names : List String) : Prop :=
  names ~ containers.map (·.name) ∧ ∀ before name after, names = before ++ name :: after →
    ∀ c ∈ containers, c.name = name → ∀ dep ∈ c.dependsOn,
      input.servicePrefix ++ "-" ++ dep ∈ before

/-- The containers are those of the services, listed and created in an order of their dependencies;
there are none exactly if a service depends on what is not declared or on itself. -/
def StartOrder (parse : YamlParser) (input : ComposeToContainersInput)
    (parsed : Parsed) : Prop :=
  (∀ containers, composeToContainers parse input = .ok containers →
    containers ~ parsed.map (·.2) ∧ InOrder input containers (containers.map (·.name)) ∧
      InOrder input containers (topoOrder containers)) ∧
  ((∃ e, composeToContainers parse input = .error e) ↔
    Order.Broken (parsed.map (·.1)) (dependsOn parsed))

theorem topoOrder_eq (hnodup : (containers.map (·.name)).Nodup)
    (hdeps : ∀ name, containerDeps containers name = []) :
    topoOrder containers = containers.map (·.name) := by
  have hall : ∀ (names : List String) (state : List String × List String), names.Nodup →
      (∀ name ∈ names, name ∉ state.1) →
      (names.foldl (visitContainer containers (containers.length + 1)) state).2 =
        state.2 ++ names := by
    intro names
    induction names with
    | nil => simp
    | cons name names ih =>
      intro state hnodup hnew
      rw [nodup_cons] at hnodup
      have hvisit : visitContainer containers (containers.length + 1) state name =
          (name :: state.1, state.2 ++ [name]) := by
        rw [visitContainer,if_neg (hnew name mem_cons_self),hdeps]
        rfl
      rw [foldl_cons,hvisit,ih _ hnodup.2,append_assoc]
      · rfl
      · intro other hother
        rw [mem_cons,not_or]
        exact ⟨fun he => hnodup.1 (he ▸ hother),hnew other (mem_cons_of_mem _ hother)⟩
  exact hall _ _ hnodup fun _ _ => not_mem_nil

section Order

variable {parse : YamlParser} {input : ComposeToContainersInput}
  {parsed : Parsed} {order : List String} {service : String × ComposeContainer}

theorem Reads.name (h : Reads parse input parsed) (hmem : service ∈ parsed) :
    service.2.name = input.servicePrefix ++ "-" ++ service.1 := by
  obtain ⟨doc,services,specs,-,-,-,-,hspecs,rfl⟩ := h
  replace hspecs := (mapM_eq_ok_iff_forall₂ _ _).mp hspecs
  induction hspecs with
  | nil => cases hmem
  | cons hspec _ ih =>
    rcases mem_cons.mp hmem with rfl | hmem
    · exact (builtFrom_of_parseService hspec).name
    · exact ih hmem

theorem Reads.dependsOn_eq (h : Reads parse input parsed) (hmem : service ∈ parsed) :
    dependsOn parsed service.1 = service.2.dependsOn := by
  rw [dependsOn,find?_of_mem h.nodup hmem]
  rfl

theorem Reads.map_arrange (h : Reads parse input parsed) (horder : order ⊆ parsed.map (·.1)) :
    (arrange parsed order).map (·.name) = order.map (input.servicePrefix ++ "-" ++ ·) := by
  induction order with
  | nil => rfl
  | cons name order ih =>
    rw [cons_subset] at horder
    obtain ⟨service,hmem,rfl⟩ := mem_map.mp horder.1
    have hcons : arrange parsed (service.1 :: order) = service.2 :: arrange parsed order := by
      rw [arrange,filterMap_cons,find?_of_mem h.nodup hmem]
      rfl
    rw [hcons,map_cons,map_cons,ih horder.2,h.name hmem]

theorem Reads.arrange_names (h : Reads parse input parsed) :
    arrange parsed (parsed.map (·.1)) = parsed.map (·.2) := by
  rw [arrange,filterMap_map,← filterMap_eq_map]
  refine filterMap_congr fun service hmem => ?_
  simp [find?_of_mem h.nodup hmem]

theorem containerName_inj (h : input.servicePrefix ++ "-" ++ a = input.servicePrefix ++ "-" ++ b) :
    a = b := by
  simpa [← String.toList_inj] using h

theorem Reads.of_mem_arrange (h : Reads parse input parsed) (hc : c ∈ arrange parsed order) :
    ∃ name ∈ order,
      c.name = input.servicePrefix ++ "-" ++ name ∧ c.dependsOn = dependsOn parsed name := by
  obtain ⟨key,hkey,hfind⟩ := mem_filterMap.mp hc
  obtain ⟨service,hfound,rfl⟩ := Option.map_eq_some_iff.mp hfind
  have hmem := mem_of_find?_eq_some hfound
  obtain rfl : service.1 = key := by simpa using find?_some hfound
  exact ⟨_,hkey,h.name hmem,(h.dependsOn_eq hmem).symm⟩

/-- The order of the sort is one in which the containers can be created. -/
theorem Reads.inOrder (h : Reads parse input parsed)
    (hlisted : Order.Listed (dependsOn parsed) order) (horder : order ⊆ parsed.map (·.1)) :
    InOrder input (arrange parsed order) ((arrange parsed order).map (·.name)) := by
  refine ⟨.refl _,fun before name after heq c hc hname dep hdep => ?_⟩
  rw [h.map_arrange horder] at heq
  obtain ⟨front,rest,rfl,rfl,hrest⟩ := map_eq_append_iff.mp heq
  obtain ⟨node,back,rfl,rfl,rfl⟩ := map_eq_cons_iff.mp hrest
  obtain ⟨key,-,hkey,hdeps⟩ := h.of_mem_arrange hc
  rw [hdeps,containerName_inj (hkey.symm.trans hname)] at hdep
  exact mem_map_of_mem (hlisted.before rfl _ hdep)

/-- No service of the file is a key of every object, or has a name that a container may have. -/
def PlainNames (input : ComposeToContainersInput) (parsed : Parsed) : Prop :=
  ∀ name ∈ parsed.map (·.1),
    name ∉ objectPrototype ∧ ¬ input.servicePrefix.toList <+: name.toList

theorem Reads.topoOrder_arrange (h : Reads parse input parsed) (hplain : PlainNames input parsed)
    (hlisted : Order.Listed (dependsOn parsed) order) (horder : order ⊆ parsed.map (·.1)) :
    topoOrder (arrange parsed order) = (arrange parsed order).map (·.name) := by
  apply topoOrder_eq
  · rw [h.map_arrange horder]
    exact hlisted.nodup.map fun _ _ => containerName_inj
  · intro name
    refine filter_eq_nil_iff.mpr fun dep hdep hname => ?_
    rw [h.map_arrange horder,decide_eq_true_eq] at hname
    obtain ⟨other,-,rfl⟩ := mem_map.mp hname
    cases hfind : (arrange parsed order).find? (·.name = name) with
    | none => simp [hfind] at hdep
    | some c =>
      -- a dependency is a service, so its name does not start like that of a container
      obtain ⟨key,hkey,-,hdeps⟩ := h.of_mem_arrange (mem_of_find?_eq_some hfind)
      rw [hfind,Option.map_some,Option.getD_some,hdeps] at hdep
      refine (hplain _ (horder (hlisted.closed hkey (.single hdep)))).2 ?_
      rw [String.toList_append,String.toList_append,append_assoc]
      exact prefix_append _ _

theorem composeToContainers_error_iff (h : Reads parse input parsed) :
    (∃ e, composeToContainers parse input = .error e) ↔
      Order.Broken (parsed.map (·.1) ++ objectPrototype) (dependsOn parsed) := by
  have hdeps : ∀ n, dependsOn parsed n ≠ [] → n ∈ parsed.map (·.1) := by
    intro n hn
    cases hfind : parsed.find? (·.1 = n) with
    | none => simp [dependsOn,hfind] at hn
    | some service =>
      obtain rfl : service.1 = n := by simpa using find?_some hfind
      exact mem_map_of_mem (mem_of_find?_eq_some hfind)
  have hsort : (∃ e, topoSort parsed = .error e) ↔ _ :=
    Order.topoSort_error_iff (subset_append_left _ _) hdeps
  rw [h.composeToContainers,← hsort]
  cases topoSort parsed with
  | ok | error => simp [Except.map]

/-- The order is right exactly if no service depends on a key of every object, or another dependency
is refused. -/
theorem startOrder_iff (h : Reads parse input parsed) (hplain : PlainNames input parsed) :
    StartOrder parse input parsed ↔ (∀ name, ∀ dep ∈ dependsOn parsed name, dep ∉ objectPrototype) ∨
      Order.Broken (parsed.map (·.1) ++ objectPrototype) (dependsOn parsed) := by
  have hmono : Order.Broken (parsed.map (·.1) ++ objectPrototype) (dependsOn parsed) →
      Order.Broken (parsed.map (·.1)) (dependsOn parsed) := by
    refine Or.imp_left fun ⟨name,dep,hdep,hnot⟩ => ⟨name,dep,hdep,fun hin => hnot ?_⟩
    exact mem_append_left _ hin
  rw [StartOrder,composeToContainers_error_iff h]
  constructor
  · rintro ⟨-,hiff⟩
    by_contra! hnot
    obtain ⟨⟨name,dep,hdep,hproto⟩,hbroken⟩ := hnot
    exact hbroken (hiff.mpr (.inl ⟨name,dep,hdep,fun hin => (hplain dep hin).1 hproto⟩))
  · rintro (hown | hbroken)
    · refine ⟨fun containers hok => ?_,hmono,?_⟩
      · obtain ⟨order,hsort,rfl⟩ := h.exists_order hok
        obtain ⟨hlisted,hmet,hall⟩ := topoSort_ok hsort
        have horder : order ⊆ parsed.map (·.1) := by
          intro n hn
          obtain ⟨hknown,hin | ⟨m,hlead⟩⟩ := hmet n hn
          · exact hin
          · exact (mem_append.mp hknown).resolve_right (hown m n hlead)
        have hin := h.inOrder hlisted horder
        refine ⟨?_,hin,h.topoOrder_arrange hplain hlisted horder ▸ hin⟩
        have hperm : order ~ parsed.map (·.1) :=
          (perm_ext_iff_of_nodup hlisted.nodup h.nodup).mpr fun n => ⟨(horder ·),hall n⟩
        exact (hperm.filterMap _).trans (.of_eq h.arrange_names)
      · refine Or.imp_left fun ⟨name,dep,hdep,hnot⟩ => ⟨name,dep,hdep,fun hin => ?_⟩
        exact (mem_append.mp hin).elim hnot (hown name dep hdep)
    · refine ⟨fun containers hok => ?_,hmono,fun _ => hbroken⟩
      obtain ⟨e,he⟩ := (composeToContainers_error_iff h).mpr hbroken
      rw [he] at hok
      cases hok

end Order

namespace Shop

def linkedInput : ComposeToContainersInput := ⟨"file","shop","public",[]⟩

def linkedFile (dep : String) : Yaml :=
  .map [("services", .map [("web", .map [("image", .string "web"),
    ("depends_on", .seq [.string dep])]), ("db", .map [("image", .string "db")])])]

def linked (dep : String) : Parsed :=
  [("web", ⟨"shop-web","web",[],[],["public"],[],[dep],none⟩),
    ("db", ⟨"shop-db","db",[],[],["public"],[],[],none⟩)]

theorem reads_linked (dep : String) :
    Reads (fun _ => .ok (linkedFile dep)) linkedInput (linked dep) :=
  ⟨_,_,_,rfl,rfl,rfl,rfl,rfl,rfl⟩

theorem plainNames_linked (dep : String) : PlainNames linkedInput (linked dep) := by
  show ∀ name ∈ ["web", "db"], _
  decide

end Shop

open Shop

theorem startOrder_shop :
    StartOrder (fun _ => .ok (linkedFile "db")) linkedInput (linked "db") := by
  refine (startOrder_iff (reads_linked _) (plainNames_linked _)).mpr (.inl ?_)
  have hown : ∀ service ∈ linked "db", ∀ dep ∈ service.2.dependsOn, dep ∉ objectPrototype := by
    decide
  intro name dep hdep
  unfold dependsOn at hdep
  cases hfind : (linked "db").find? (·.1 = name) with
  | none => simp [hfind] at hdep
  | some service =>
    rw [hfind] at hdep
    exact hown service (mem_of_find?_eq_some hfind) dep hdep

/-- A dependency on `toString`, which is no service, is accepted. -/
theorem prototype_dependency_accepted : ¬ ∀ (parse : String → Except String Yaml)
    (input : ComposeToContainersInput) (parsed : Parsed), Reads parse input parsed →
    PlainNames input parsed → StartOrder parse input parsed := by
  intro h
  obtain ⟨e,he⟩ := (h _ _ _ (reads_linked "toString") (plainNames_linked _)).2.mpr
    (.inl ⟨"web","toString",mem_cons_self,by decide⟩)
  have hok : (composeToContainers (fun _ => .ok (linkedFile "toString"))
    linkedInput).isOk = true := by decide +kernel
  rw [he] at hok
  cases hok

end Ploydok.Marketplace
