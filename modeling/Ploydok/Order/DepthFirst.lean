import Ploydok.Data.Checks
import Mathlib.Data.List.Nodup
import Mathlib.Data.List.Perm.Subperm

/-! A depth-first sort of nodes by their dependencies. A sort that succeeds lists every node once,
after what it depends on; one that fails has met a cycle or a dependency that is not known. -/

namespace Ploydok.Order

open Data Relation List

variable {α ε : Type} (known : List α) (deps : α → List α)

abbrev Leads (a b : α) : Prop := b ∈ deps a

/-- Each node is listed once, after what it depends on. -/
inductive Listed : List α → Prop
  | nil : Listed []
  | concat {done : List α} {node : α} (h : Listed done) (hnew : node ∉ done)
      (hdeps : ∀ d ∈ deps node, d ∈ done) : Listed (done ++ [node])

variable {known deps} {nodes path done order : List α} {node : α}

theorem nodup_concat' (h : path.Nodup) (hnew : node ∉ path) : (path ++ [node]).Nodup := by
  rw [← concat_eq_append]
  exact h.concat hnew

theorem Listed.nodup (h : Listed deps order) : order.Nodup := by
  induction h with
  | nil => exact nodup_nil
  | concat _ hnew _ ih => exact nodup_concat' ih hnew

theorem Listed.before (h : Listed deps order) {before after : List α}
    (heq : order = before ++ node :: after) : ∀ d ∈ deps node, d ∈ before := by
  induction h generalizing after with
  | nil => simp at heq
  | concat _ _ hdeps ih =>
    rcases eq_nil_or_concat after with rfl | ⟨front,last,rfl⟩
    · obtain ⟨rfl,hlast⟩ := append_inj' heq rfl
      cases hlast
      exact hdeps
    · rw [concat_eq_append,← cons_append,← append_assoc] at heq
      exact ih (append_inj_left' heq rfl)

theorem Listed.closed (h : Listed deps order) {n m : α} (hn : n ∈ order)
    (hlead : ReflTransGen (Leads deps) n m) : m ∈ order := by
  induction hlead with
  | refl => exact hn
  | tail _ hdep ih =>
    obtain ⟨before,after,rfl⟩ := append_of_mem ih
    exact mem_append_left _ (h.before rfl _ hdep)

theorem Listed.acyclic (h : Listed deps order) (hn : n ∈ order) : ¬ TransGen (Leads deps) n n := by
  intro hcycle
  induction h with
  | nil => cases hn
  | concat h hnew hdeps ih =>
    rcases mem_append.mp hn with hn | hn
    · exact ih hn
    · obtain rfl := mem_singleton.mp hn
      obtain ⟨d,hdep,hback⟩ := TransGen.head'_iff.mp hcycle
      exact hnew (h.closed (hdeps d hdep) hback)

variable [DecidableEq α] (known deps) (cycle : List α → ε) (unknown : α → α → ε)

/-- Visit a node that the nodes of `path` lead to; `done` are the nodes listed so far. -/
def visit : Nat → List α → List α → α → Except ε (List α)
  | 0, path, _, _ => .error (cycle path)
  | fuel + 1, path, done, node =>
    if node ∈ path then .error (cycle (path ++ [node]))
    else if node ∈ done then .ok done
    else do
      let done ← (deps node).foldlM (fun done dep =>
        if dep ∈ known then visit fuel (path ++ [node]) done dep
        else .error (unknown node dep)) done
      return done ++ [node]

/-- A path without a cycle has at most as many nodes as are known. -/
def topoSort (nodes : List α) : Except ε (List α) :=
  nodes.foldlM (visit known deps cycle unknown (known.length + 1) []) []

/-- Something depends on what is not known, or on itself. -/
def Broken : Prop := (∃ n, ∃ d ∈ deps n, d ∉ known) ∨ ∃ n, TransGen (Leads deps) n n

/-- A node, or a known dependency. -/
def Met (nodes : List α) (n : α) : Prop := n ∈ known ∧ (n ∈ nodes ∨ ∃ m, Leads deps m n)

variable {known deps cycle unknown}

theorem visit_spec (hdone : Listed deps done) (hnode : Met known deps nodes node)
    (hnodup : path.Nodup) (hpath : path ⊆ known) (hlead : ∀ n ∈ path, TransGen (Leads deps) n node)
    (hfuel : known.length < path.length + fuel) :
    Ends (visit known deps cycle unknown fuel path done node) (fun done' =>
      (Listed deps done' ∧ ∀ n ∈ done', n ∈ done ∨ n ∉ path ∧ Met known deps nodes n) ∧
        done ⊆ done' ∧ node ∈ done') (Broken known deps) := by
  induction fuel generalizing path done node with
  | zero => exact absurd (subperm_of_subset hnodup hpath).length_le (by omega)
  | succ fuel ih =>
    rw [visit]
    split
    · next hin => exact .inr ⟨node,hlead node hin⟩
    · next hnew =>
      split
      · next hin => exact ⟨⟨hdone,fun _ hn => .inl hn⟩,Subset.refl _,hin⟩
      · next hout =>
        refine (foldlM_ends (I := fun b => Listed deps b ∧ ∀ n ∈ b, n ∈ done ∨
          n ∉ path ++ [node] ∧ Met known deps nodes n) (fun dep hdep b hb => ?_)
          ⟨hdone,fun _ hn => .inl hn⟩).bind fun visited ⟨⟨hlisted,hmet⟩,hkept,hdeps⟩ => ?_
        · split
          · next hknown =>
            refine (ih hb.1 ⟨hknown,.inr ⟨node,hdep⟩⟩ (nodup_concat' hnodup hnew)
              (append_subset.mpr ⟨hpath,by simpa using hnode.1⟩) (fun n hn => ?_)
              (by rw [length_append,length_singleton]; omega)).mono
              fun b' ⟨⟨hlisted,hmet⟩,hkept⟩ => ⟨⟨hlisted,fun n hn => ?_⟩,hkept⟩
            · rcases mem_append.mp hn with hn | hn
              · exact (hlead n hn).tail hdep
              · rw [mem_singleton.mp hn]
                exact .single hdep
            · exact (hmet n hn).elim (hb.2 n) .inr
          · next hunknown => exact .inl ⟨node,dep,hdep,hunknown⟩
        · have hfresh : node ∉ visited := by
            intro hn
            rcases hmet node hn with hn | ⟨hfar,-⟩
            · exact hout hn
            · simp at hfar
          refine ⟨⟨hlisted.concat hfresh hdeps,fun n hn => ?_⟩,
            List.Subset.trans hkept (subset_append_left _ _),by simp⟩
          rcases mem_append.mp hn with hn | hn
          · exact (hmet n hn).imp_right fun h => ⟨fun hin => h.1 (mem_append_left _ hin),h.2⟩
          · rw [mem_singleton.mp hn]
            exact .inr ⟨hnew,hnode⟩

/-- A sort that succeeds lists the nodes and known dependencies; one that fails has met what is
broken. -/
theorem topoSort_ends (hsub : nodes ⊆ known) :
    Ends (topoSort known deps cycle unknown nodes) (fun order => Listed deps order ∧
      (∀ n ∈ order, Met known deps nodes n) ∧ ∀ n ∈ nodes, n ∈ order) (Broken known deps) := by
  refine (foldlM_ends (I := fun b => Listed deps b ∧ ∀ n ∈ b, Met known deps nodes n)
    (fun node hnode b hb => ?_) ⟨.nil,nofun⟩).mono fun order h => ⟨h.1.1,h.1.2,h.2.2⟩
  refine (visit_spec hb.1 ⟨hsub hnode,.inl hnode⟩ nodup_nil nofun nofun (by simp)).mono
    fun b' ⟨⟨hlisted,hmet⟩,hkept⟩ => ⟨⟨hlisted,fun n hn => ?_⟩,hkept⟩
  exact (hmet n hn).elim (hb.2 n) (·.2)

/-- A sort fails exactly on what is broken, if only nodes have dependencies. -/
theorem topoSort_error_iff (hsub : nodes ⊆ known) (hdeps : ∀ n, deps n ≠ [] → n ∈ nodes) :
    (∃ e, topoSort known deps cycle unknown nodes = .error e) ↔ Broken known deps := by
  have hends : Ends (topoSort known deps cycle unknown nodes) _ _ := topoSort_ends hsub
  cases h : topoSort known deps cycle unknown nodes with
  | error e =>
    rw [h] at hends
    exact ⟨fun _ => hends,fun _ => ⟨e,rfl⟩⟩
  | ok order =>
    rw [h] at hends
    obtain ⟨hlisted,hmet,hall⟩ := hends
    refine ⟨nofun,?_⟩
    rintro (⟨n,d,hd,hunknown⟩ | ⟨n,hcycle⟩)
    · have hn := hall n (hdeps n (ne_nil_of_mem hd))
      exact absurd (hmet d (hlisted.closed hn (.single hd))).1 hunknown
    · obtain ⟨d,hd,-⟩ := TransGen.head'_iff.mp hcycle
      exact absurd hcycle (hlisted.acyclic (hall n (hdeps n (ne_nil_of_mem hd))))

end Ploydok.Order
