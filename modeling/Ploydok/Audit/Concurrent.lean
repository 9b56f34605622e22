import Ploydok.Audit.Agreement
import Ploydok.Effect.Pool
import Mathlib.Data.List.Sort

/-! Concurrent calls of the audit writer. A call reads the tail of the log before it opens the
transaction that inserts the row. An id is taken when a row is inserted, and the row is seen by
others when its transaction commits. -/

namespace Ploydok.Audit.Concurrent

open Effect Effect.Prog Function List Pool

/-- What a call of the writer sends to the database, and to the signer. -/
inductive Statement where
  | selectTail
  | begin
  /-- The id of the values is not used: the column is a serial. -/
  | insert (tx : Nat) (values : AuditRow)
  | sign (payload : String)
  | update (tx : Nat) (id : Nat) (signature keyId : String)
  | commit (tx : Nat)
  | rollback (tx : Nat)

abbrev Statement.Res : Statement → Type
  | .selectTail => Option String
  | .begin => Nat
  | .insert .. => Option AuditRow
  | .sign _ => Option (String × String)
  | .update .. => Option AuditRow
  | .commit _ | .rollback _ => Unit

abbrev Sql : Sig := ⟨Statement,Statement.Res⟩

abbrev SqlProg (α : Type) := Prog Sql String α

/-- `db.transaction`: an exception of the body rolls back and is thrown on. -/
def transaction (body : Nat → SqlProg α) : SqlProg α :=
  (Prog.perform (S := Sql) .begin).bind fun tx =>
    (body tx).bracket (Prog.perform (S := Sql) (.commit tx))
      (Prog.perform (S := Sql) (.rollback tx))

variable {R : Type} (p : Platform R)

/-- Phases 2 and 3: a failure of the signer or of the update is logged and goes no further. -/
def signInserted (tx : Nat) (inserted : AuditRow) : SqlProg (Option AuditRow) :=
  ((Prog.perform (S := Sql) (.sign (buildCanonicalPayload p inserted))).bind fun
    | none => .ret (some inserted)
    | some (signature, keyId) =>
      (Prog.perform (S := Sql) (.update tx inserted.id signature keyId)).bind fun updated =>
        .ret (some (updated.getD inserted))).tryCatch fun _ => .ret (some inserted)

/-- The body of the transaction; `hasSigner` says whether `signFn` is given. -/
def insertAndSign (hasSigner : Bool) (entry : Entry R) (prevHash : Option String) (tx : Nat) :
    SqlProg (Option AuditRow) :=
  (Prog.perform (S := Sql) (.insert tx (newRow p 0 prevHash entry))).bind fun
    | none => .ret none
    | some inserted => if hasSigner then signInserted p tx inserted else .ret (some inserted)

def insertAuditLogSigned (hasSigner : Bool) (entry : Entry R) : SqlProg (Option AuditRow) :=
  (Prog.perform (S := Sql) .selectTail).bind fun prevHash =>
    transaction (insertAndSign p hasSigner entry prevHash)

/-! ### The database -/

structure Transaction where
  rows : List AuditRow
  aborted : Bool

structure Store where
  /-- The committed rows in the order of their ids. -/
  committed : List AuditRow
  lastId : Nat
  transactions : Nat → Option Transaction
  nextTx : Nat

namespace Store

def fresh : Store := ⟨[],0,fun _ => none,0⟩

def setTx (w : Store) (tx : Nat) (t : Option Transaction) : Store :=
  { w with transactions := update w.transactions tx t }

def beginTx (w : Store) : Store :=
  { w.setTx w.nextTx (some ⟨[],false⟩) with nextTx := w.nextTx + 1 }

def live (w : Store) (tx : Nat) : Option Transaction :=
  (w.transactions tx).filter fun t => !t.aborted

/-- From the first failure on, nothing of the transaction will be stored. -/
def abort (w : Store) (tx : Nat) : Store :=
  w.setTx tx ((w.transactions tx).map fun t => { t with aborted := true })

def nextId (w : Store) : Store := { w with lastId := w.lastId + 1 }

def insertById (rows : List AuditRow) (row : AuditRow) : List AuditRow :=
  rows.orderedInsert (·.id ≤ ·.id) row

def publish (w : Store) (t : Transaction) : Store :=
  { w with committed := t.rows.foldl insertById w.committed }

end Store

def Transaction.sign (t : Transaction) (id : Nat) (signature keyId : String) : Transaction :=
  { t with rows := t.rows.map fun row =>
      if row.id = id then { row with signature := some signature, keyId := some keyId } else row }

/-- Any statement may fail. One that fails inside a transaction aborts it; when the answer to a
commit is lost, it may have been carried out. The signer answers as it likes. -/
def sqlSem : Sem Sql String Store
  | .selectTail, w, r, w' =>
    w' = w ∧ match r with
      | .ok tail => tail = tailHash ⟨w.committed,w.lastId⟩
      | .error _ => True
  | .begin, w, r, w' =>
    match r with
    | .ok tx => tx = w.nextTx ∧ w' = w.beginTx
    | .error _ => w' = w
  | .insert tx values, w, r, w' =>
    match r with
    | .ok row => ∃ t, w.live tx = some t ∧
        row = some { values with id := w.lastId + 1 } ∧
        w' = w.nextId.setTx tx
          (some { t with rows := t.rows ++ [{ values with id := w.lastId + 1 }] })
    -- the id may have been taken before the failure
    | .error _ => w' = w.abort tx ∨ w' = w.nextId.abort tx
  | .sign _, w, _, w' => w' = w
  | .update tx id signature keyId, w, r, w' =>
    match r with
    | .ok row => ∃ t, w.live tx = some t ∧
        row = (t.sign id signature keyId).rows.find? (·.id = id) ∧
        w' = w.setTx tx (some (t.sign id signature keyId))
    | .error _ => w' = w.abort tx
  | .commit tx, w, r, w' =>
    match r with
    | .ok _ => ∃ t, w.live tx = some t ∧
        w' = (w.publish t).setTx tx none
    | .error _ => w' = w.setTx tx none ∨
        ∃ t, w.live tx = some t ∧ w' = (w.publish t).setTx tx none
  | .rollback tx, w, _, w' => w' = w.setTx tx none

/-- Each row names the hash of the row before it, the first one `prev`. -/
def LinearFrom : Option String → List AuditRow → Prop
  | _, [] => True
  | prev, row :: rows => row.prevHash = prev ∧ LinearFrom row.hash rows

instance : (prev : Option String) → (rows : List AuditRow) → Decidable (LinearFrom prev rows)
  | _, [] => .isTrue trivial
  | _, row :: rows =>
    have := instDecidableLinearFrom row.hash rows
    inferInstanceAs (Decidable (_ ∧ _))

structure Linear (rows : List AuditRow) : Prop where
  ordered : rows.Pairwise (·.id < ·.id)
  chained : LinearFrom none rows

variable {rows : List AuditRow} {row : AuditRow}

theorem linearFrom_append_singleton {prev : Option String}
    (h : LinearFrom prev rows) (hrow : row.prevHash = rows.getLast?.elim prev (·.hash)) :
    LinearFrom prev (rows ++ [row]) := by
  induction rows generalizing prev with
  | nil => exact ⟨hrow,trivial⟩
  | cons r rows ih =>
    refine ⟨h.1,ih h.2 ?_⟩
    rw [hrow,getLast?_cons]
    cases rows.getLast? <;> rfl

theorem Linear.append_singleton {n : Nat} (h : Linear rows) (hid : ∀ r ∈ rows, r.id < row.id)
    (hprev : row.prevHash = tailHash ⟨rows,n⟩) : Linear (rows ++ [row]) := by
  constructor
  · rw [pairwise_append]
    refine ⟨h.ordered,pairwise_singleton _ _,?_⟩
    intro r hr row' hrow'
    rw [mem_singleton.mp hrow']
    exact hid r hr
  · apply linearFrom_append_singleton h.chained
    rw [hprev,tailHash]
    cases rows.getLast? <;> rfl

theorem insertById_of_forall_lt
    (h : ∀ r ∈ rows, r.id < row.id) : Store.insertById rows row = rows ++ [row] := by
  unfold Store.insertById
  induction rows with
  | nil => rfl
  | cons r rows ih =>
    have hr : ¬ row.id ≤ r.id := Nat.not_le.mpr (h r (by simp))
    rw [orderedInsert_cons,if_neg hr,ih fun r' hr' => h r' (by simp [hr'])]
    rfl

/-! ### One call alone -/

structure Store.Settled (w : Store) : Prop where
  linear : Linear w.committed
  bounded : ∀ r ∈ w.committed, r.id ≤ w.lastId

def Store.Begun (tx : Nat) (w : Store) : Prop :=
  w.Settled ∧ ∀ t, w.live tx = some t → t.rows = []

/-- If the transaction can still commit, it holds at most one row, which extends the log. -/
def Store.Prepared (tx : Nat) (w : Store) : Prop :=
  w.Settled ∧ ∀ t, w.live tx = some t →
    t.rows = [] ∨ ∃ row, t.rows = [row] ∧ row.prevHash = tailHash ⟨w.committed,w.lastId⟩ ∧
      (∀ r ∈ w.committed, r.id < row.id) ∧ row.id ≤ w.lastId

variable {w w' : Store} {tx : Nat}

theorem Store.Settled.setTx (h : w.Settled) (t : Option Transaction) : (w.setTx tx t).Settled :=
  ⟨h.linear,h.bounded⟩

theorem Store.Settled.nextId (h : w.Settled) : w.nextId.Settled :=
  ⟨h.linear,fun r hr => Nat.le_succ_of_le (h.bounded r hr)⟩

theorem eq_of_live_setTx {t t' : Transaction} (h : (w.setTx tx (some t)).live tx = some t') :
    t' = t := by
  simp only [Store.live,Store.setTx,update_self,Option.filter_eq_some_iff, Option.some.injEq] at h
  exact h.1.symm

theorem Store.Settled.prepared_abort (h : w.Settled) : (w.abort tx).Prepared tx := by
  have hdead : (w.abort tx).live tx = none := by
    cases h : w.transactions tx <;> simp [live,abort,Store.setTx,h]
  refine ⟨h.setTx _,fun t ht => ?_⟩
  rw [hdead] at ht
  cases ht

theorem Store.Prepared.settled_publish (h : w.Prepared tx) {t : Transaction}
    (ht : w.live tx = some t) : ((w.publish t).setTx tx none).Settled := by
  obtain ⟨hw,hrows⟩ := h
  rcases hrows t ht with hnil | ⟨row,hrow,hprev,hid,hlast⟩
  · have hpub : w.publish t = w := by simp [publish,hnil]
    rw [hpub]
    exact hw.setTx none
  · have hpub : (w.publish t).committed = w.committed ++ [row] := by
      simp [publish,hrow,insertById_of_forall_lt hid]
    constructor
    · show Linear (w.publish t).committed
      rw [hpub]
      exact hw.linear.append_singleton hid hprev
    · intro r hr
      have hr' : r ∈ w.committed ++ [row] := hpub ▸ hr
      rcases mem_append.mp hr' with hr' | hr'
      · exact hw.bounded r hr'
      · rw [mem_singleton.mp hr']
        exact hlast

theorem Store.Begun.prepared_insert {values : AuditRow} {r : Except String (Option AuditRow)}
    (h : w.Begun tx) (hprev : values.prevHash = tailHash ⟨w.committed,w.lastId⟩)
    (hs : sqlSem (.insert tx values) w r w') : w'.Prepared tx := by
  cases r with
  | ok row =>
    obtain ⟨t,ht,-,rfl⟩ := hs
    refine ⟨h.1.nextId.setTx _,fun t' ht' => .inr ⟨{ values with id := w.lastId + 1 },?_⟩⟩
    obtain rfl := eq_of_live_setTx ht'
    refine ⟨by rw [h.2 t ht]; rfl,hprev,fun r hr => ?_,Nat.le_refl _⟩
    exact Nat.lt_succ_of_le (h.1.bounded r hr)
  | error e =>
    rcases hs with rfl | rfl
    · exact h.1.prepared_abort
    · exact h.1.nextId.prepared_abort

theorem Store.Prepared.update {id : Nat} {r : Except String (Option AuditRow)} (h : w.Prepared tx)
    (hs : sqlSem (.update tx id signature keyId) w r w') : w'.Prepared tx := by
  cases r with
  | ok row =>
    obtain ⟨t,ht,-,rfl⟩ := hs
    refine ⟨h.1.setTx _,fun t' ht' => ?_⟩
    obtain rfl := eq_of_live_setTx ht'
    -- the signature is no part of the chain
    rcases h.2 t ht with hnil | ⟨row,hrow,hprev,hid,hlast⟩
    · exact .inl (by simp [Transaction.sign,hnil])
    · by_cases heq : row.id = id
      · exact .inr ⟨{ row with signature := some signature, keyId := some keyId },
          by simp [Transaction.sign,hrow,heq],hprev,hid,hlast⟩
      · exact .inr ⟨row,by simp [Transaction.sign,hrow,heq],hprev,hid,hlast⟩
  | error e =>
    obtain rfl := hs
    exact h.1.prepared_abort

theorem post_transaction {body : Nat → SqlProg α} (hw : w.Settled)
    (hbody : ∀ tx w1, w1.Begun tx → w1.committed = w.committed → w1.lastId = w.lastId →
      Post sqlSem (body tx) w1 fun _ w' => w'.Prepared tx) :
    Post sqlSem (transaction body) w fun _ w' => w'.Settled := by
  refine post_bind (fun r w1 => match r with
      | .ok tx => w1.Begun tx ∧ w1.committed = w.committed ∧ w1.lastId = w.lastId
      | .error _ => w1.Settled) (post_perform ?_) ?_ (fun _ _ h => h)
  · intro r w1 hs
    cases r with
    | ok tx =>
      obtain ⟨rfl,rfl⟩ := hs
      refine ⟨⟨⟨hw.linear,hw.bounded⟩,fun t ht => ?_⟩,rfl,rfl⟩
      have ht' : (w.setTx w.nextTx (some ⟨[],false⟩)).live w.nextTx = some t := ht
      rw [eq_of_live_setTx ht']
    | error e =>
      obtain rfl := hs
      exact hw
  · rintro tx w1 ⟨hbegun,hcommitted,hlast⟩
    refine post_bracket (hbody tx w1 hbegun hcommitted hlast) ?_ ?_
    · refine fun w2 hprep => post_perform fun r w3 hs => ?_
      cases r with
      | ok _ =>
        obtain ⟨t,ht,rfl⟩ := hs
        exact hprep.settled_publish ht
      | error e =>
        rcases hs with rfl | ⟨t,ht,rfl⟩
        · exact hprep.1.setTx none
        · exact hprep.settled_publish ht
    · refine fun w2 hprep => post_perform fun r w3 hs => ?_
      obtain rfl := hs
      exact hprep.1.setTx none

theorem post_signInserted (inserted : AuditRow) (h : w.Prepared tx) :
    Post sqlSem (signInserted p tx inserted) w fun _ w' => w'.Prepared tx := by
  refine post_tryCatch (fun _ w' => w'.Prepared tx) ?_ (fun _ _ h => h) (fun _ _ h => post_ret h)
  refine post_bind (fun _ w' => w'.Prepared tx) (post_perform ?_) ?_ (fun _ _ h => h)
  · rintro r w1 rfl
    exact h
  · intro result w1 h1
    cases result with
    | none => exact post_ret h1
    | some result =>
      refine post_bind (fun _ w' => w'.Prepared tx) (post_perform ?_)
        (fun _ _ h => post_ret h) (fun _ _ h => h)
      intro r w2 hs
      exact h1.update hs

theorem post_insertAuditLogSigned (hasSigner : Bool) (entry : Entry R) (hw : w.Settled) :
    Post sqlSem (insertAuditLogSigned p hasSigner entry) w fun _ w' => w'.Settled := by
  refine post_bind (fun r w1 => w1 = w ∧ ∀ tail, r = .ok tail →
      tail = tailHash ⟨w.committed,w.lastId⟩) (post_perform ?_) ?_ ?_
  · rintro r w1 ⟨rfl,hr⟩
    refine ⟨rfl,fun tail htail => ?_⟩
    subst htail
    exact hr
  · rintro tail w1 ⟨rfl,htail⟩
    apply post_transaction hw
    intro tx w2 hbegun hcommitted hlast
    refine post_bind (fun _ w' => w'.Prepared tx) (post_perform ?_) ?_ (fun _ _ h => h)
    · intro r w3 hs
      refine hbegun.prepared_insert ?_ hs
      rw [hcommitted,hlast]
      exact htail tail rfl
    · intro inserted w3 h3
      cases inserted with
      | none => exact post_ret h3
      | some row =>
        cases hasSigner with
        | false => exact post_ret h3
        | true => exact post_signInserted p row h3
  · rintro e w1 ⟨rfl,-⟩
    exact hw

/-- If every call starts while no other is half way, the log is linear whenever none is. -/
theorem linear_of_startsAlone {ι : Type} [DecidableEq ι] (calls : ι → Bool × Entry R)
    (hw : w.Settled) {c : Pool Sql String (Option AuditRow) ι Store}
    (hr : Pool.Reach sqlSem Pool.StartsAlone
      (start w fun i => insertAuditLogSigned p (calls i).1 (calls i).2) c)
    (hq : c.Quiet) : Linear c.world.committed := by
  have hpost : ∀ i w1, Store.Settled w1 → Post sqlSem
      (insertAuditLogSigned p (calls i).1 (calls i).2) w1 fun _ w' => w'.Settled :=
    fun i w1 h => post_insertAuditLogSigned p _ _ h
  exact (reach_serial hpost hw (reach_serial_of_startsAlone hr) hq).linear

/-- Every statement of a live transaction succeeds, and the signer answers as `signFn`. -/
def handler (signFn : String → Option (String × String)) :
    Handler Sql String Store
  | .selectTail, w => (.ok (tailHash ⟨w.committed,w.lastId⟩), w)
  | .begin, w => (.ok w.nextTx, w.beginTx)
  | .insert tx values, w =>
    match w.live tx with
    | none => (.error "current transaction is aborted", w.abort tx)
    | some t =>
      (.ok (some { values with id := w.lastId + 1 }), w.nextId.setTx tx
        (some { t with rows := t.rows ++ [{ values with id := w.lastId + 1 }] }))
  | .sign payload, w => (.ok (signFn payload), w)
  | .update tx id signature keyId, w =>
    match w.live tx with
    | none => (.error "current transaction is aborted", w.abort tx)
    | some t =>
      (.ok ((t.sign id signature keyId).rows.find? (·.id = id)),
        w.setTx tx (some (t.sign id signature keyId)))
  | .commit tx, w =>
    match w.live tx with
    | none => (.error "current transaction is aborted", w.setTx tx none)
    | some t => (.ok (), (w.publish t).setTx tx none)
  | .rollback tx, w => (.ok (), w.setTx tx none)

theorem sqlSem_handler (signFn : String → Option (String × String)) (o : Statement) (w : Store) :
    sqlSem o w (handler signFn o w).1 (handler signFn o w).2 := by
  cases o with
  | selectTail | begin => exact ⟨rfl,rfl⟩
  | sign | rollback => exact rfl
  | insert tx values =>
    cases ht : w.live tx with
    | none => simp [handler,sqlSem,ht]
    | some t =>
      simp only [handler,ht]
      exact ⟨t,ht,rfl,rfl⟩
  | update tx id signature keyId =>
    cases ht : w.live tx with
    | none => simp [handler,sqlSem,ht]
    | some t =>
      simp only [handler,ht]
      exact ⟨t,ht,rfl,rfl⟩
  | commit tx => cases ht : w.live tx <;> simp [handler,sqlSem,ht]

/-- `signFn` of the sequential model. -/
def signer (hasSigner : Bool) (signFn : String → Option (String × String)) :
    Option (String → SignResult) :=
  if hasSigner then
    some fun payload =>
      match signFn payload with
      | some (signature, keyId) => .signed signature keyId
      | none => .null
  else none

theorem live_setTx (w : Store) (tx : Nat) (rows : List AuditRow) :
    (w.setTx tx (some ⟨rows,false⟩)).live tx = some ⟨rows,false⟩ := by
  simp [Store.live,Store.setTx]

theorem setTx_setTx (w : Store) (tx : Nat) (t t' : Option Transaction) :
    (w.setTx tx t).setTx tx t' = w.setTx tx t' := by
  simp [Store.setTx]

theorem exec_signInserted (signFn : String → Option (String × String)) (row : AuditRow) :
    (signInserted p tx row).exec (handler signFn) (w.setTx tx (some ⟨[row],false⟩)) =
      (.ok (some (signRow p (signer true signFn) row)),
        w.setTx tx (some ⟨[signRow p (signer true signFn) row],false⟩)) := by
  have hsign : handler signFn (.sign (buildCanonicalPayload p row))
      (w.setTx tx (some ⟨[row],false⟩)) =
      (.ok (signFn (buildCanonicalPayload p row)), w.setTx tx (some ⟨[row],false⟩)) := rfl
  rw [signInserted,exec_tryCatch,exec_perform_bind hsign]
  cases hs : signFn (buildCanonicalPayload p row) with
  | none => simp [signRow,signer,hs]
  | some result =>
    obtain ⟨signature,keyId⟩ := result
    have hupdate : handler signFn (.update tx row.id signature keyId)
        (w.setTx tx (some ⟨[row],false⟩)) =
        (.ok (some { row with signature := some signature, keyId := some keyId }),
          w.setTx tx (some ⟨[{ row with signature := some signature, keyId := some keyId }],
            false⟩)) := by
      simp only [handler,live_setTx,setTx_setTx]
      simp [Transaction.sign]
    dsimp only
    rw [exec_perform_bind hupdate]
    simp [signRow,signer,hs]

/-- Alone and without failures, a call does what the sequential model does. -/
theorem exec_insertAuditLogSigned (signFn : String → Option (String × String)) (hasSigner : Bool)
    (entry : Entry R) (hw : w.Settled) :
    let w' := ((insertAuditLogSigned p hasSigner entry).exec (handler signFn) w).2
    (⟨w'.committed,w'.lastId⟩ : Table) = Audit.insertAuditLogSigned p (signer hasSigner signFn)
      ⟨w.committed,w.lastId⟩ entry := by
  set tail := tailHash ⟨w.committed,w.lastId⟩ with htail
  set row := newRow p (w.lastId + 1) tail entry with hrow
  set row' := signRow p (signer hasSigner signFn) row with hrow'
  have hinsert : handler signFn (.insert w.nextTx (newRow p 0 tail entry)) w.beginTx =
      (.ok (some row), w.beginTx.nextId.setTx w.nextTx (some ⟨[row],false⟩)) := by
    have hlive : w.beginTx.live w.nextTx = some ⟨[],false⟩ := live_setTx w w.nextTx []
    simp only [handler,hlive]
    rfl
  -- signed or not, the transaction holds the row of the sequential model
  have hbody : (insertAndSign p hasSigner entry tail w.nextTx).exec (handler signFn) w.beginTx =
      (.ok (some row'), w.beginTx.nextId.setTx w.nextTx (some ⟨[row'],false⟩)) := by
    rw [insertAndSign,exec_perform_bind hinsert]
    cases hasSigner with
    | false => rfl
    | true => exact exec_signInserted p signFn row
  have hcommit : handler signFn (.commit w.nextTx)
      (w.beginTx.nextId.setTx w.nextTx (some ⟨[row'],false⟩)) =
      (.ok (), ((w.beginTx.nextId.setTx w.nextTx (some ⟨[row'],false⟩)).publish
        ⟨[row'],false⟩).setTx w.nextTx none) := by
    simp only [handler,live_setTx]
  have hid : row'.id = w.lastId + 1 := by
    obtain ⟨s,k,h⟩ := signRow_fields p (signer hasSigner signFn) row
    rw [hrow',h,hrow]
    rfl
  have hlog : Store.insertById w.committed row' = w.committed ++ [row'] := by
    apply insertById_of_forall_lt
    intro r hr
    rw [hid]
    exact Nat.lt_succ_of_le (hw.bounded r hr)
  have hselect : handler signFn .selectTail w = (.ok tail, w) := rfl
  have hbegin : handler signFn .begin w = (.ok w.nextTx, w.beginTx) := rfl
  simp only [insertAuditLogSigned,transaction]
  rw [exec_perform_bind hselect,exec_perform_bind hbegin,
    exec_bracket hbody ((exec_perform _ _ _).trans hcommit)]
  show (⟨Store.insertById w.committed row',w.lastId + 1⟩ : Table) = _
  rw [hlog]
  rfl

namespace Example

def twoCalls : Pool Sql String (Option AuditRow) Bool Store :=
  start Store.fresh fun _ =>
    insertAuditLogSigned Audit.Example.readable.toPlatform false Audit.Example.entry

def answer : Handler Sql String Store := handler fun _ => none

def oneCall : Pool Sql String (Option AuditRow) Bool Store :=
  (replicate 4 false).foldl (tick answer) twoCalls

def inTurn : Pool Sql String (Option AuditRow) Bool Store :=
  (replicate 4 true).foldl (tick answer) oneCall

def interleaved : Pool Sql String (Option AuditRow) Bool Store :=
  [false, true, false, false, false, true, true, true].foldl (tick answer) twoCalls

end Example

/-- Two calls in turn give a log of two rows, and it is linear. -/
theorem linear_of_startsAlone_example :
    Example.inTurn.world.committed.length = 2 ∧ Linear Example.inTurn.world.committed := by
  have hsettled : Store.fresh.Settled := ⟨⟨List.Pairwise.nil,trivial⟩,fun r hr => by cases hr⟩
  have hfirst : Pool.Reach sqlSem Pool.StartsAlone Example.twoCalls Example.oneCall :=
    reach_startsAlone (sqlSem_handler fun _ => none) (i := false) (fun _ _ hj => hj.1 rfl) 4
  have hsecond : Pool.Reach sqlSem Pool.StartsAlone Example.oneCall Example.inTurn := by
    refine reach_startsAlone (sqlSem_handler fun _ => none) (i := true) ?_ 4
    intro _ j hj
    cases j with
    | false => exact absurd hj.2 (by decide +kernel)
    | true => exact hj.1 rfl
  have hquiet : Example.inTurn.Quiet := quiet_of_done (by decide +kernel)
  exact ⟨by decide +kernel,linear_of_startsAlone Audit.Example.readable.toPlatform
    (fun _ => (false, Audit.Example.entry)) hsettled (hfirst.trans hsecond) hquiet⟩

/-- Both rows of the interleaved calls are first rows of a chain. -/
theorem concurrent_calls_fork : ¬ ∀ (R : Type) (p : Platform R) (calls : Bool → Bool × Entry R)
      (c : Pool Sql String (Option AuditRow) Bool Store),
      Pool.Reach sqlSem (fun _ _ => True)
        (start Store.fresh fun i => insertAuditLogSigned p (calls i).1 (calls i).2) c →
      (∀ i, (c.prog i).done = true) → Linear c.world.committed := by
  intro h
  have hreach : Pool.Reach sqlSem (fun _ _ => True) Example.twoCalls Example.interleaved :=
    reach_schedule (sqlSem_handler fun _ => none) _ _ (admits_of_forall (fun _ _ => trivial) _ _)
  have hlinear := h Unit Audit.Example.readable.toPlatform
    (fun _ => (false, Audit.Example.entry)) Example.interleaved hreach (by decide +kernel)
  exact absurd hlinear.chained (by decide +kernel)

end Ploydok.Audit.Concurrent
