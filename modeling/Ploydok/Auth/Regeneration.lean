import Ploydok.Auth.BackupCodes
import Mathlib.Data.List.FinRange

/-! Backup codes under concurrency, for any number of requests of one user and any order of
their statements. -/

namespace Ploydok.Auth.BackupCodes

open Effect Function List

/-! ### What one statement does to the table -/

namespace CodeTable

def ActiveId (w : CodeTable) (id : String) : Prop :=
  ∃ row ∈ w.rows, row.id = id ∧ row.active = true

theorem mem_update_active {w : CodeTable} {consumed : List String} :
    row ∈ (w.update p now consumed).rows ∧ row.active = true ↔
      row ∈ w.rows ∧ row.active = true ∧ p row = false := by
  constructor
  · rintro ⟨hrow,hactive⟩
    obtain ⟨row0,hrow0,rfl⟩ := mem_map.mp hrow
    unfold CodeRow.consumeIf at hactive ⊢
    split_ifs at hactive ⊢ with hp
    · cases hactive
    · refine ⟨hrow0,hactive,?_⟩
      cases hpr : p row0 with
      | false => rfl
      | true => exact absurd ⟨hpr,hactive⟩ hp
  · rintro ⟨hrow,hactive,hp⟩
    refine ⟨mem_map.mpr ⟨row,hrow,?_⟩,hactive⟩
    simp [CodeRow.consumeIf,hp]

theorem returning_eq (w : CodeTable) (id : String) :
    w.returning id = [] ∧ ¬ w.ActiveId id ∨ w.returning id = [id] ∧ w.ActiveId id := by
  have hmem : ∀ x, x ∈ w.returning id ↔ x = id ∧ w.ActiveId id := by
    intro x
    simp only [returning,ActiveId,mem_map,mem_filter,decide_eq_true_eq]
    constructor
    · rintro ⟨row,⟨hrow,hid,hactive⟩,rfl⟩
      exact ⟨hid,row,hrow,hid,hactive⟩
    · rintro ⟨rfl,row,hrow,hid,hactive⟩
      exact ⟨row,⟨hrow,hid,hactive⟩,hid⟩
  have hall : ∀ x ∈ w.returning id, x = id := fun x hx => ((hmem x).mp hx).1
  have hnodup : (w.returning id).Nodup := w.unique.sublist (filter_sublist.map _)
  have hactive : id ∈ w.returning id ↔ w.ActiveId id := by simp [hmem]
  rw [eq_replicate_of_mem hall] at hnodup
  rw [← hactive,eq_replicate_of_mem hall]
  have hlen := nodup_replicate.mp hnodup
  rcases Nat.le_one_iff_eq_zero_or_eq_one.mp hlen with hzero | hone
  · simp [hzero]
  · simp [hone]

end CodeTable

inductive TableStep (w : CodeTable) : CodeTable → Prop
  | read : TableStep w w
  | consume (id : String) (now : Int) :
      TableStep w (w.update (fun row => row.id = id) now (w.returning id))
  | invalidate (userId : String) (now : Int) :
      TableStep w (w.update (fun row => row.userId = userId) now [])
  | insert {rows : List CodeRow} {w' : CodeTable} (h : w.insert rows = some w') : TableStep w w'

def Spent (w : CodeTable) (id : String) : Prop :=
  id ∈ w.rows.map CodeRow.id ∧ ¬ w.ActiveId id

theorem ids_update (w : CodeTable) (p : CodeRow → Bool) (now : Int) (consumed : List String) :
    (w.update p now consumed).rows.map CodeRow.id = w.rows.map CodeRow.id :=
  CodeTable.map_id_consumeIf w.rows p now

variable {w : CodeTable} {id : String}

theorem spent_update (h : Spent w id) (p : CodeRow → Bool)
    (now : Int) (consumed : List String) : Spent (w.update p now consumed) id := by
  refine ⟨by rw [ids_update]; exact h.1,?_⟩
  rintro ⟨row,hrow,hid,hactive⟩
  obtain ⟨hrow0,hactive0,-⟩ := CodeTable.mem_update_active.mp ⟨hrow,hactive⟩
  exact h.2 ⟨row,hrow0,hid,hactive0⟩

variable {w w' : CodeTable} {rows : List CodeRow}

theorem rows_insert (h : w.insert rows = some w') :
    w'.rows = w.rows ++ rows ∧ w'.consumed = w.consumed := by
  unfold CodeTable.insert at h
  split_ifs at h
  cases h
  exact ⟨rfl,rfl⟩

theorem spent_insert (hins : w.insert rows = some w') (h : Spent w id) : Spent w' id := by
  obtain ⟨hrows,-⟩ := rows_insert hins
  have hunique := w'.unique
  rw [hrows,map_append] at hunique
  refine ⟨by rw [hrows,map_append]; exact mem_append_left _ h.1,?_⟩
  rintro ⟨row,hrow,rfl,hactive⟩
  rw [hrows] at hrow
  rcases mem_append.mp hrow with hold | hnew
  · exact h.2 ⟨row,hold,rfl,hactive⟩
  · exact disjoint_of_nodup_append hunique h.1 (mem_map_of_mem hnew)

theorem TableStep.spent (h : TableStep w w') (hspent : Spent w id) : Spent w' id := by
  cases h with
  | read => exact hspent
  | consume | invalidate => exact spent_update hspent _ _ _
  | insert hins => exact spent_insert hins hspent

def Known (w : CodeTable) (userId : String) (g : Generated) : Prop :=
  ∃ row ∈ w.rows, row.id = g.id ∧ row.userId = userId ∧ row.codeHash = g.code

variable {userId : String} {g : Generated}

theorem known_update (h : Known w userId g)
    (p : CodeRow → Bool) (now : Int) (consumed : List String) :
    Known (w.update p now consumed) userId g := by
  obtain ⟨row,hrow,hfields⟩ := h
  refine ⟨row.consumeIf p now,mem_map_of_mem hrow,?_⟩
  unfold CodeRow.consumeIf
  split_ifs
  · exact hfields
  · exact hfields

theorem TableStep.known (h : TableStep w w') (hknown : Known w userId g) : Known w' userId g := by
  cases h with
  | read => exact hknown
  | consume | invalidate => exact known_update hknown _ _ _
  | insert hins =>
    obtain ⟨row,hrow,hfields⟩ := hknown
    exact ⟨row,by rw [(rows_insert hins).1]; exact mem_append_left _ hrow,hfields⟩

theorem spent_invalidate (h : Known w userId g) (now : Int) :
    Spent (w.update (fun row => row.userId = userId) now []) g.id := by
  obtain ⟨row,hrow,hid,huser,-⟩ := h
  refine ⟨by rw [ids_update]; exact mem_map.mpr ⟨row,hrow,hid⟩,?_⟩
  rintro ⟨row',hrow',hid',hactive⟩
  obtain ⟨hmem,-,hother⟩ := CodeTable.mem_update_active.mp ⟨hrow',hactive⟩
  rw [inj_on_of_nodup_map w.unique hmem hrow (hid'.trans hid.symm),huser] at hother
  simp at hother

theorem TableStep.consumed (h : TableStep w w') : w'.consumed = w.consumed ∨
      ∃ id, w'.consumed = w.consumed ++ [id] ∧ w.ActiveId id ∧ Spent w' id := by
  cases h with
  | read => exact .inl rfl
  | insert hins => exact .inl (rows_insert hins).2
  | invalidate => exact .inl (append_nil _)
  | consume id now =>
    rcases w.returning_eq id with ⟨hnone,-⟩ | ⟨hone,hactive⟩
    · refine .inl ?_
      simp [CodeTable.update,hnone]
    · refine .inr ⟨id,by simp [CodeTable.update,hone],hactive,?_,?_⟩
      · obtain ⟨row,hrow,hid,-⟩ := hactive
        rw [ids_update]
        exact mem_map.mpr ⟨row,hrow,hid⟩
      · rintro ⟨row,hrow,hid,hactive'⟩
        obtain ⟨-,-,hne⟩ := CodeTable.mem_update_active.mp ⟨hrow,hactive'⟩
        simp [hid] at hne

/-! ### Runs -/

structure Scenario (ι : Type) where
  userId : String
  rows : List CodeRow
  unique : (rows.map CodeRow.id).Nodup
  requests : ι → Request
  fresh : ∀ i batch now, requests i = .regenerate batch now →
    Injective (fun k => (batch k).id) ∧ ∀ k, (batch k).id ∉ rows.map CodeRow.id
  disjoint : ∀ i j batch batch' now now', i ≠ j → requests i = .regenerate batch now →
    requests j = .regenerate batch' now' → ∀ k l, (batch k).id ≠ (batch' l).id

variable {ι : Type}

namespace Scenario

def table (S : Scenario ι) : CodeTable := ⟨S.rows,S.unique,[]⟩

abbrev start (S : Scenario ι) : Pool CodeSig String Answer ι CodeTable :=
  .start S.table fun i => handle S.userId (S.requests i)

abbrev stages (S : Scenario ι) : Staging serve Answer ι Stage := staging S.userId S.requests

theorem at_start (S : Scenario ι) : S.stages.At S.start ⟨S.table,fun _ => .fresh⟩ :=
  ⟨rfl,fun _ => rfl⟩

end Scenario

inductive Moved (userId : String) (req : Request) (w : CodeTable) :
    Stage → Stage → CodeTable → Prop
  | missed {rawCode : String} {now : Int} (hreq : req = .consume rawCode now) :
      Moved userId req w .fresh (.returned (.consumed false)) w
  | found {rawCode : String} {now : Int} (hreq : req = .consume rawCode now) (id : String) :
      Moved userId req w .fresh (.matched id) w
  | consumed {rawCode : String} {now : Int} (hreq : req = .consume rawCode now) (id : String)
      (ok : Bool) : Moved userId req w (.matched id) (.returned (.consumed ok))
        (w.update (fun row => row.id = id) now (w.returning id))
  | invalidated {batch : Batch} {now : Int} (hreq : req = .regenerate batch now) :
      Moved userId req w .fresh .invalidated (w.update (fun row => row.userId = userId) now [])
  | inserted {batch : Batch} {now : Int} (hreq : req = .regenerate batch now) {w' : CodeTable}
      (h : w.insert (batch.rows userId now) = some w') :
      Moved userId req w .invalidated (.returned (.codes batch.codes)) w'
  | failed {batch : Batch} {now : Int} (hreq : req = .regenerate batch now) (message : String) :
      Moved userId req w .invalidated (.threw message) w

variable {req : Request} {s s' : Stage}

theorem moved_of_next (h : req.next userId s w = some (s', w')) : Moved userId req w s s' w' := by
  revert h
  fun_cases Request.next userId req s w <;> rintro ⟨⟩
  · exact .missed rfl
  · exact .found rfl _
  · exact .invalidated rfl
  · exact .consumed rfl _ _
  · next hinsert => exact .inserted rfl hinsert
  · exact .failed rfl _

theorem Moved.tableStep (h : Moved userId req w s s' w') : TableStep w w' := by
  cases h with
  | missed | found | failed => exact .read
  | consumed => exact .consume _ _
  | invalidated => exact .invalidate _ _
  | inserted _ hins => exact .insert hins

section Laws

variable [DecidableEq ι] {S : Scenario ι} {st st' : Stages ι Stage CodeTable}

theorem nodup_consumed (hrun : S.stages.Run ⟨S.table,fun _ => .fresh⟩ st) :
    st.world.consumed.Nodup ∧ ∀ id ∈ st.world.consumed, Spent st.world id := by
  refine hrun.invariant ⟨nodup_nil,by simp [Scenario.table]⟩ ?_
  rintro st i _ ⟨hnodup,hspent⟩ ⟨hn⟩
  have hstep := (moved_of_next hn).tableStep
  have hkept := fun id hid => hstep.spent (hspent id hid)
  rcases hstep.consumed with hsame | ⟨id,happend,hactive,hnew⟩
  · rw [hsame]
    exact ⟨hnodup,hkept⟩
  · rw [happend]
    have hid : id ∉ st.world.consumed := fun hid => (hspent id hid).2 hactive
    refine ⟨hnodup.append (nodup_singleton id) (by simpa using hid),fun x hx => ?_⟩
    rcases mem_append.mp hx with hx | hx
    · exact hkept x hx
    · rw [mem_singleton.mp hx]
      exact hnew

variable {batch : Batch} {i : ι} {now : Int}

theorem spent_of_known (hreq : S.requests i = .regenerate batch now)
    (hknown : Known st.world S.userId g) (hfresh : st.stage i = .fresh)
    (hrun : S.stages.Run st st') (hstage : st'.stage i ≠ .fresh) : Spent st'.world g.id := by
  have h : Known st'.world S.userId g ∧ (st'.stage i = .fresh ∨ Spent st'.world g.id) := by
    refine hrun.invariant ⟨hknown,.inl hfresh⟩ ?_
    rintro st j _ ⟨hknown,hor⟩ ⟨hn⟩
    have hmoved := moved_of_next hn
    refine ⟨hmoved.tableStep.known hknown,?_⟩
    rcases hor with hfresh | hspent
    · by_cases hij : i = j
      · subst hij
        rw [hfresh] at hmoved
        cases hmoved with
        | missed h | found h => rw [hreq] at h; cases h
        | invalidated => exact .inr (spent_invalidate hknown _)
      · exact .inl (by simp [hij,hfresh])
    · exact .inr (hmoved.tableStep.spent hspent)
  exact h.2.resolve_left hstage

theorem count_consumed_of_spent (hspent : Spent st.world id) (hrun : S.stages.Run st st') :
    st'.world.consumed.count id = st.world.consumed.count id := by
  suffices h : Spent st'.world id ∧
      st'.world.consumed.count id = st.world.consumed.count id from h.2
  refine hrun.invariant ⟨hspent,rfl⟩ ?_
  rintro st' j _ ⟨hspent,hcount⟩ ⟨hn⟩
  have hstep := (moved_of_next hn).tableStep
  refine ⟨hstep.spent hspent,?_⟩
  rcases hstep.consumed with hsame | ⟨id',happend,hactive,-⟩
  · rw [hsame,hcount]
  · have hne : id' ≠ id := by
      rintro rfl
      exact hspent.2 hactive
    rw [happend,count_append,hcount]
    simp [hne]

def Only (w : CodeTable) (userId : String) (batch : Batch) : Prop :=
  (∀ row ∈ w.rows, row.active = true → row.userId = userId →
    ∃ k, batch k = ⟨row.id,row.codeHash⟩) ∧ ∀ k, Known w userId (batch k)

def Progress (S : Scenario ι) (batch : Batch) (w : CodeTable) : Stage → Prop
  | .invalidated => ∀ row ∈ w.rows, row.active = true → row.userId ≠ S.userId
  | .returned _ => Only w S.userId batch
  | _ => True

omit [DecidableEq ι] in
theorem progress_of_active (h : Progress S batch w s) (hstep : TableStep w w')
    (hactive : ∀ row, row ∈ w'.rows ∧ row.active = true → row ∈ w.rows) :
    Progress S batch w' s := by
  cases s with
  | invalidated => exact fun row hrow hact => h row (hactive row ⟨hrow,hact⟩) hact
  | returned answer =>
    exact ⟨fun row hrow hact => h.1 row (hactive row ⟨hrow,hact⟩) hact,
      fun k => hstep.known (h.2 k)⟩
  | fresh | matched | threw => trivial

omit [DecidableEq ι] in
theorem only_of_insert (h : ∀ row ∈ w.rows, row.active = true → row.userId ≠ S.userId)
    (hins : w.insert (batch.rows S.userId now) = some w') : Only w' S.userId batch := by
  obtain ⟨hrows,-⟩ := rows_insert hins
  constructor
  · intro row hrow hactive huser
    rw [hrows] at hrow
    rcases mem_append.mp hrow with hold | hnew
    · exact absurd huser (h row hold hactive)
    · obtain ⟨k,rfl⟩ := (mem_ofFn' _ _).mp hnew
      exact ⟨k,rfl⟩
  · intro k
    refine ⟨⟨(batch k).id,S.userId,(batch k).code,none,now⟩,?_,rfl,rfl,rfl⟩
    rw [hrows]
    exact mem_append_right _ ((mem_ofFn' _ _).mpr ⟨k,rfl⟩)

theorem progress_of_run (hreq : S.requests i = .regenerate batch now)
    (hsole : ∀ j batch' now', S.requests j = .regenerate batch' now' → j = i)
    (hrun : S.stages.Run ⟨S.table,fun _ => .fresh⟩ st) :
    Progress S batch st.world (st.stage i) := by
  refine hrun.invariant (show Progress S batch S.table .fresh from trivial) ?_
  rintro st j _ h ⟨hn⟩
  have hmoved := moved_of_next hn
  by_cases hij : j = i
  · subst hij
    simp only [update_self]
    generalize st.stage j = s0 at hmoved h
    cases hmoved with
    | missed h' | found h' | consumed h' => rw [hreq] at h'; cases h'
    | invalidated =>
      intro row hrow hactive huser
      obtain ⟨-,-,hne⟩ := CodeTable.mem_update_active.mp ⟨hrow,hactive⟩
      simp [huser] at hne
    | inserted h' hins =>
      rw [hreq] at h'
      cases h'
      exact only_of_insert h hins
    | failed => trivial
  · simp only [update_of_ne (Ne.symm hij)]
    refine progress_of_active h hmoved.tableStep ?_
    generalize st.stage j = s0 at hmoved
    cases hmoved with
    | missed | found | failed => exact fun row hrow => hrow.1
    | consumed => exact fun row hrow => (CodeTable.mem_update_active.mp hrow).1
    | invalidated h' | inserted h' => exact absurd (hsole j _ _ h') hij

variable {j : ι} {batch' : Batch} {now' : Int}

omit [DecidableEq ι] in
theorem fields_of_mem_rows (h : row ∈ batch.rows userId now) :
    row.userId = userId ∧ row.active = true := by
  obtain ⟨k,rfl⟩ := (mem_ofFn' _ _).mp h
  exact ⟨rfl,rfl⟩

omit [DecidableEq ι] in
theorem map_id_rows (batch : Batch) (userId : String) (now : Int) :
    (batch.rows userId now).map CodeRow.id = ofFn fun k => (batch k).id := by
  unfold Batch.rows
  rfl

theorem insert_of_fresh (hinj : Injective fun k => (batch k).id)
    (hfresh : ∀ k, (batch k).id ∉ w.rows.map CodeRow.id) (userId : String) (now : Int) :
    ∃ w', w.insert (batch.rows userId now) = some w' ∧
      w'.rows = w.rows ++ batch.rows userId now := by
  have hnodup : ((w.rows ++ batch.rows userId now).map CodeRow.id).Nodup := by
    rw [map_append,map_id_rows]
    refine w.unique.append (nodup_ofFn.mpr hinj) ?_
    intro id hid hnew
    obtain ⟨k,rfl⟩ := (mem_ofFn' _ _).mp hnew
    exact hfresh k hid
  refine ⟨⟨_,hnodup,w.consumed⟩,?_,rfl⟩
  unfold CodeTable.insert
  rw [dif_pos hnodup]

theorem overlap (hij : i ≠ j) (hi : S.requests i = .regenerate batch now)
    (hj : S.requests j = .regenerate batch' now') :
    ∃ st, S.stages.Run ⟨S.table,fun _ => .fresh⟩ st ∧ st.stage i = .returned (.codes batch.codes) ∧
      st.stage j = .returned (.codes batch'.codes) ∧
      (∀ k, k ≠ i → k ≠ j → st.stage k = .fresh) ∧
      (∃ rows, st.world.rows = rows ++ batch.rows S.userId now ++ batch'.rows S.userId now') := by
  let w1 := S.table.update (fun row => row.userId = S.userId) now []
  let w2 := w1.update (fun row => row.userId = S.userId) now' []
  have hids : w2.rows.map CodeRow.id = S.rows.map CodeRow.id := by
    rw [ids_update,ids_update]
    rfl
  obtain ⟨hinj,hfresh⟩ := S.fresh i batch now hi
  obtain ⟨hinj',hfresh'⟩ := S.fresh j batch' now' hj
  obtain ⟨w3,hins,hrows⟩ := insert_of_fresh (w := w2) hinj
    (fun k => by rw [hids]; exact hfresh k) S.userId now
  have hnew : ∀ k, (batch' k).id ∉ w3.rows.map CodeRow.id := by
    intro k hk
    rw [hrows,map_append,hids,map_id_rows] at hk
    rcases mem_append.mp hk with hold | hbatch
    · exact hfresh' k hold
    · obtain ⟨l,hl⟩ := (mem_ofFn' _ _).mp hbatch
      exact S.disjoint i j batch batch' now now' hij hi hj l k hl
  obtain ⟨w4,hins',hrows'⟩ := insert_of_fresh (w := w3) hinj' hnew S.userId now'
  have hstart : S.stages.Run ⟨S.table,fun _ => .fresh⟩ ⟨S.table,fun _ => .fresh⟩ := .refl
  have h1 := hstart.move i (s := .invalidated) (w := w1) (by simp [staging,Request.next,hi,w1])
  have h2 := h1.move j (s := .invalidated) (w := w2) (by simp [staging,Request.next,hj,hij.symm,w2])
  have h3 := h2.move i (s := .returned (.codes batch.codes)) (w := w3)
    (by simp [staging,Request.next,hi,hij,hins])
  have h4 := h3.move j (s := .returned (.codes batch'.codes)) (w := w4)
    (by simp [staging,Request.next,hj,hij.symm,hins'])
  refine ⟨_,h4,by simp [hij],by simp,fun k hki hkj => by simp [hki,hkj],w2.rows,?_⟩
  rw [hrows',hrows]

end Laws

/-! ### The three laws -/

def Active (w : CodeTable) (userId : String) (g : Generated) : Prop :=
  ∃ row ∈ w.rows, row.id = g.id ∧ row.userId = userId ∧ row.codeHash = g.code ∧
    row.active = true

section Statement

variable [DecidableEq ι]

abbrev Reaches : Pool CodeSig String Answer ι CodeTable →
    Pool CodeSig String Answer ι CodeTable → Prop :=
  Pool.Reach (Prog.ofHandler serve) fun _ _ => True

def Returned (c : Pool CodeSig String Answer ι CodeTable) (i : ι) : Prop :=
  ∃ codes, c.prog i = .ret (.codes codes)

namespace Scenario

variable (S : Scenario ι)

def Settled (c : Pool CodeSig String Answer ι CodeTable) : Prop :=
  ∀ i, c.prog i = handle S.userId (S.requests i) ∨ (c.prog i).done = true

def Regenerates (i : ι) : Prop := ∃ batch now, S.requests i = .regenerate batch now

def ConsumedOnce : Prop := ∀ c, Reaches S.start c → c.world.consumed.Nodup

/-- A code that is active before a regeneration begins is not consumed after it has returned. -/
def OldCodesRefused : Prop :=
  ∀ i c₁ c₂ c₃ g, S.Regenerates i → Reaches S.start c₁ →
    c₁.prog i = handle S.userId (S.requests i) → Active c₁.world S.userId g →
    Reaches c₁ c₂ → Returned c₂ i → Reaches c₂ c₃ →
    c₃.world.consumed.count g.id = c₂.world.consumed.count g.id

def ActiveOfOne (c : Pool CodeSig String Answer ι CodeTable) : Prop :=
  ∃ i batch now, S.requests i = .regenerate batch now ∧ Returned c i ∧
    ∀ g, Active c.world S.userId g ↔ (∃ k, batch k = g) ∧ ¬ Spent c.world g.id

def OneActiveBatch : Prop :=
  ∀ c, Reaches S.start c → S.Settled c → (∃ i, S.Regenerates i ∧ Returned c i) → S.ActiveOfOne c

end Scenario

end Statement

section Proof

variable [DecidableEq ι] {S : Scenario ι} {i : ι}

omit [DecidableEq ι] in
theorem stage_of_handle (hreq : req = .regenerate batch now)
    (h : req.progAt userId s = handle userId req) : s = .fresh := by
  subst hreq
  cases s with
  | fresh => rfl
  | matched | invalidated | returned | threw => cases h

omit [DecidableEq ι] in
theorem stage_of_codes (h : req.progAt userId s = .ret (.codes codes)) :
    s = .returned (.codes codes) := by
  cases s with
  | fresh | matched | invalidated => cases req <;> cases h
  | returned answer =>
    cases h
    rfl
  | threw message => cases h

theorem oldCodesRefused (S : Scenario ι) : S.OldCodesRefused := by
  rintro i c1 c2 c3 g ⟨batch,now,hreq⟩ hreach1 hnew ⟨row,hrow,hid,huser,hcode,-⟩ hreach2
    ⟨codes,hcodes⟩ hreach3
  obtain ⟨st1,-,hat1⟩ := Staging.run_of_reach S.at_start hreach1
  obtain ⟨st2,hrun2,hat2⟩ := Staging.run_of_reach hat1 hreach2
  obtain ⟨st3,hrun3,hat3⟩ := Staging.run_of_reach hat2 hreach3
  have hfresh : st1.stage i = .fresh := stage_of_handle hreq ((hat1.2 i).symm.trans hnew)
  have hover : st2.stage i = .returned (.codes codes) :=
    stage_of_codes ((hat2.2 i).symm.trans hcodes)
  have hknown : Known st1.world S.userId g := ⟨row,hat1.1 ▸ hrow,hid,huser,hcode⟩
  have hspent := spent_of_known hreq hknown hfresh hrun2 (by simp [hover])
  rw [hat2.1,hat3.1]
  exact count_consumed_of_spent hspent hrun3

theorem activeOfOne_of_sole (hi : S.Regenerates i) (hsole : ∀ j, S.Regenerates j → j = i)
    (hreach : Reaches S.start c) (hreturned : Returned c i) : S.ActiveOfOne c := by
  obtain ⟨batch,now,hreq⟩ := hi
  obtain ⟨codes,hcodes⟩ := hreturned
  obtain ⟨st,hrun,hat⟩ := Staging.run_of_reach S.at_start hreach
  have hprogress := progress_of_run hreq (fun j _ _ hj => hsole j ⟨_,_,hj⟩) hrun
  rw [stage_of_codes ((hat.2 i).symm.trans hcodes),← hat.1] at hprogress
  refine ⟨i,batch,now,hreq,⟨codes,hcodes⟩,fun g => ⟨?_,?_⟩⟩
  · rintro ⟨row,hrow,hid,huser,hcode,hactive⟩
    obtain ⟨k,hk⟩ := hprogress.1 row hrow hactive huser
    refine ⟨⟨k,hk.trans ?_⟩,fun hspent => hspent.2 ⟨row,hrow,hid,hactive⟩⟩
    rw [hid,hcode]
  · rintro ⟨⟨k,rfl⟩,hspent⟩
    obtain ⟨row,hrow,hid,huser,hcode⟩ := hprogress.2 k
    refine ⟨row,hrow,hid,huser,hcode,?_⟩
    -- otherwise the code is spent, for its row is the only one
    by_contra hinactive
    refine hspent ⟨mem_map.mpr ⟨row,hrow,hid⟩,?_⟩
    rintro ⟨row',hrow',hid',hactive'⟩
    rw [inj_on_of_nodup_map c.world.unique hrow' hrow (hid'.trans hid.symm)] at hactive'
    exact hinactive hactive'

theorem not_activeOfOne (hi : S.Regenerates i) (hj : S.Regenerates j) (hij : i ≠ j) :
    ¬ S.OneActiveBatch := by
  obtain ⟨batch,now,hreq⟩ := id hi
  obtain ⟨batch',now',hreq'⟩ := hj
  obtain ⟨st,hrun,hstage,hstage',hothers,rows,hrows⟩ := overlap hij hreq hreq'
  obtain ⟨c,hreach,hat⟩ := Staging.reach_of_run S.at_start hrun
  intro hlaw
  have hprog : c.prog i = .ret (.codes batch.codes) := by
    rw [hat.2 i,hstage]
    rfl
  have hprog' : c.prog j = .ret (.codes batch'.codes) := by
    rw [hat.2 j,hstage']
    rfl
  have hsettled : S.Settled c := by
    intro k
    by_cases hki : k = i
    · exact .inr (by rw [hki,hprog]; rfl)
    · by_cases hkj : k = j
      · exact .inr (by rw [hkj,hprog']; rfl)
      · exact .inl (by rw [hat.2 k,hothers k hki hkj]; rfl)
  obtain ⟨m,batchₘ,nowₘ,hm,⟨codes,hcodes⟩,hiff⟩ := hlaw c hreach hsettled ⟨i,hi,_,hprog⟩
  have hboth : ∀ row ∈ batch.rows S.userId now ++ batch'.rows S.userId now',
      ∃ k, batchₘ k = ⟨row.id,row.codeHash⟩ := by
    intro row hrow
    have hfields : row.userId = S.userId ∧ row.active = true :=
      (mem_append.mp hrow).elim fields_of_mem_rows fields_of_mem_rows
    refine ((hiff ⟨row.id,row.codeHash⟩).mp ⟨row,?_,rfl,hfields.1,rfl,hfields.2⟩).1
    rw [hat.1,hrows,append_assoc]
    exact mem_append_right _ hrow
  -- whichever of the two it is, the codes of the other have other ids
  let zero : Fin CODE_COUNT := ⟨0,by decide⟩
  have hfirst : ∃ k, batchₘ k = batch zero :=
    hboth _ (mem_append_left _ ((mem_ofFn' _ _).mpr ⟨zero,rfl⟩))
  have hsecond : ∃ k, batchₘ k = batch' zero :=
    hboth _ (mem_append_right _ ((mem_ofFn' _ _).mpr ⟨zero,rfl⟩))
  by_cases hmi : m = i
  · subst hmi
    obtain ⟨k,hk⟩ := hsecond
    exact S.disjoint m j batchₘ batch' nowₘ now' hij hm hreq' k zero (by rw [hk])
  · obtain ⟨k,hk⟩ := hfirst
    exact S.disjoint m i batchₘ batch nowₘ now hmi hm hreq k zero (by rw [hk])

/-- No code is consumed twice and none outlives a regeneration; the active codes are those of one
regeneration exactly if no two of the requests are regenerations. -/
theorem backup_codes_iff (S : Scenario ι) : S.ConsumedOnce ∧ S.OldCodesRefused ∧
      (S.OneActiveBatch ↔ ∀ i j, S.Regenerates i → S.Regenerates j → i = j) := by
  refine ⟨fun c hreach => ?_,oldCodesRefused S,?_,?_⟩
  · obtain ⟨st,hrun,hat⟩ := Staging.run_of_reach S.at_start hreach
    rw [hat.1]
    exact (nodup_consumed hrun).1
  · intro hlaw i j hi hj
    by_contra hij
    exact not_activeOfOne hi hj hij hlaw
  · rintro hsole c hreach - ⟨i,hi,hreturned⟩
    exact activeOfOne_of_sole hi (fun j hj => hsole j i hj hi) hreach hreturned

end Proof

def batchOf (first : Bool) : Batch := fun k =>
  ⟨(if first then "a" else "b") ++ toString k.val,(if first then "A" else "B") ++ toString k.val⟩

def twice : Scenario Bool where
  userId := "u1"
  rows := []
  unique := nodup_nil
  requests first := .regenerate (batchOf first) 0
  fresh := by
    rintro first batch now ⟨⟩
    have hids : ∀ k l, (batchOf first k).id = (batchOf first l).id → k = l := by
      revert first
      decide +kernel
    exact ⟨fun k l => hids k l,by simp⟩
  disjoint := by
    rintro i j batch batch' now now' hij ⟨⟩ ⟨⟩
    revert i j
    decide +kernel

/-- Both calls can return, and the codes of both are active. -/
theorem both_batches_active :
    ¬ (twice.ConsumedOnce ∧ twice.OldCodesRefused ∧ twice.OneActiveBatch) := by
  rintro ⟨-,-,hlaw⟩
  exact not_activeOfOne (i := true) (j := false) ⟨_,_,rfl⟩ ⟨_,_,rfl⟩ (by decide) hlaw

end Ploydok.Auth.BackupCodes
