import Ploydok.Effect.Staged
import Mathlib.Data.List.Nodup
import Mathlib.Data.List.OfFn

/-! Backup codes: `consume` and `regenerate` of `auth/backup-codes.ts`, with their statements as
calls. A code is consumed by a conditional update of its row; a regeneration invalidates the active
codes by one statement and inserts new ones by another. -/

namespace Ploydok.Auth.BackupCodes

open Effect Function

structure CodeRow where
  (id userId codeHash : String)
  consumedAt : Option Int
  createdAt : Int

structure CodeTable where
  rows : List CodeRow
  unique : (rows.map CodeRow.id).Nodup
  consumed : List String

def CodeRow.active (row : CodeRow) : Bool := row.consumedAt.isNone

def CodeRow.consumeIf (p : CodeRow → Bool) (now : Int) (row : CodeRow) : CodeRow :=
  if p row ∧ row.active then { row with consumedAt := some now } else row

theorem CodeRow.consumeIf_id (p : CodeRow → Bool) (now : Int) (row : CodeRow) :
    (row.consumeIf p now).id = row.id := by
  unfold consumeIf
  split_ifs
  · rfl
  · rfl

namespace CodeTable

def activeRows (w : CodeTable) (userId : String) : List CodeRow :=
  w.rows.filter fun row => row.userId = userId ∧ row.active

theorem map_id_consumeIf (rows : List CodeRow) (p : CodeRow → Bool) (now : Int) :
    (rows.map (CodeRow.consumeIf p now)).map CodeRow.id = rows.map CodeRow.id := by
  rw [List.map_map]
  exact List.map_congr_left fun row _ => row.consumeIf_id p now

/-- `UPDATE … SET consumed_at` where the property holds and `consumed_at` is null. -/
def update (w : CodeTable) (p : CodeRow → Bool) (now : Int) (consumed : List String) :
    CodeTable where
  rows := w.rows.map (CodeRow.consumeIf p now)
  unique := by
    rw [map_id_consumeIf]
    exact w.unique
  consumed := w.consumed ++ consumed

def returning (w : CodeTable) (id : String) : List String :=
  (w.rows.filter fun row => row.id = id ∧ row.active).map (·.id)

/-- `INSERT`, unless the primary key forbids it. -/
def insert (w : CodeTable) (rows : List CodeRow) : Option CodeTable :=
  if h : ((w.rows ++ rows).map CodeRow.id).Nodup then some ⟨w.rows ++ rows,h,w.consumed⟩
  else none

end CodeTable

inductive Statement where
  | selectActive (userId : String)
  | consumeRow (id : String) (now : Int)
  | invalidate (userId : String) (now : Int)
  | insertRows (rows : List CodeRow)

abbrev Statement.Res : Statement → Type
  | .selectActive _ => List CodeRow
  | .consumeRow .. => List String
  | _ => Unit

abbrev CodeSig : Sig := ⟨Statement,Statement.Res⟩

abbrev CodeProg (α : Type) := Prog CodeSig String α

abbrev ask (o : Statement) : CodeProg o.Res := Prog.perform (S := CodeSig) o

def serve : Handler CodeSig String CodeTable
  | .selectActive userId, w => (.ok (w.activeRows userId), w)
  | .consumeRow id now, w =>
    (.ok (w.returning id), w.update (fun row => row.id = id) now (w.returning id))
  | .invalidate userId now, w => (.ok (), w.update (fun row => row.userId = userId) now [])
  | .insertRows rows, w =>
    match w.insert rows with
    | some w' => (.ok (), w')
    | none => (.error "duplicate key value violates unique constraint", w)

/-! ### The functions -/

def CODE_COUNT : Nat := 10

structure Generated where
  (id code : String)

abbrev Batch := Fin CODE_COUNT → Generated

def Batch.rows (batch : Batch) (userId : String) (now : Int) : List CodeRow :=
  List.ofFn fun i => ⟨(batch i).id,userId,(batch i).code,none,now⟩

def Batch.codes (batch : Batch) : List String := List.ofFn fun i => (batch i).code

def generate (userId : String) (batch : Batch) (now : Int) : CodeProg (List String) :=
  (ask (.insertRows (batch.rows userId now))).bind fun _ => .ret batch.codes

/-- The conditional update of `consume`. -/
def consumeRow (id : String) (now : Int) : CodeProg Bool :=
  (ask (.consumeRow id now)).bind fun updated => .ret (decide (updated.length > 0))

/-- `consume`; a hash is compared by equality. -/
def consume (userId rawCode : String) (now : Int) : CodeProg Bool :=
  (ask (.selectActive userId)).bind fun rows =>
    match rows.find? fun row => row.codeHash = rawCode with
    | none => .ret false
    | some row => consumeRow row.id now

def regenerate (userId : String) (batch : Batch) (now : Int) : CodeProg (List String) :=
  (ask (.invalidate userId now)).bind fun _ => generate userId batch now

inductive Request where
  | consume (rawCode : String) (now : Int)
  | regenerate (batch : Batch) (now : Int)

inductive Answer where
  | consumed (ok : Bool)
  | codes (codes : List String)

def handle (userId : String) : Request → CodeProg Answer
  | .consume rawCode now => (consume userId rawCode now).bind fun ok => .ret (.consumed ok)
  | .regenerate batch now => (regenerate userId batch now).bind fun codes => .ret (.codes codes)

inductive Stage where
  | fresh
  | matched (id : String)
  | invalidated
  | returned (answer : Answer)
  | threw (message : String)

def Request.progAt (userId : String) (req : Request) : Stage → CodeProg Answer
  | .fresh => handle userId req
  | .matched id =>
    match req with
    | .consume _ now => (consumeRow id now).bind fun ok => .ret (.consumed ok)
    | .regenerate .. => .throw ""
  | .invalidated =>
    match req with
    | .consume .. => .throw ""
    | .regenerate batch now => (generate userId batch now).bind fun codes => .ret (.codes codes)
  | .returned answer => .ret answer
  | .threw message => .throw message

def Request.next (userId : String) (req : Request) : Stage → CodeTable →
    Option (Stage × CodeTable)
  | .fresh, w =>
    match req with
    | .consume rawCode _ =>
      match (w.activeRows userId).find? fun row => row.codeHash = rawCode with
      | none => some (.returned (.consumed false), w)
      | some row => some (.matched row.id, w)
    | .regenerate _ now => some (.invalidated, w.update (fun row => row.userId = userId) now [])
  | .matched id, w =>
    match req with
    | .consume _ now => some (.returned (.consumed (decide ((w.returning id).length > 0))),
      w.update (fun row => row.id = id) now (w.returning id))
    | .regenerate .. => none
  | .invalidated, w =>
    match req with
    | .consume .. => none
    | .regenerate batch now =>
      match w.insert (batch.rows userId now) with
      | some w' => some (.returned (.codes batch.codes), w')
      | none => some (.threw "duplicate key value violates unique constraint", w)
  | .returned _, _ | .threw _, _ => none

theorem next_of_call {req : Request} (hp : req.progAt userId s = .call o k) (w : CodeTable) :
    ∃ s', req.next userId s w = some (s', (serve o w).2) ∧
      req.progAt userId s' = k (serve o w).1 := by
  fun_cases Request.next userId req s w <;> cases hp
  · next hfind => exact ⟨_,rfl,by simp [serve,Prog.ofExcept,hfind,Request.progAt]⟩
  · next hfind =>
    exact ⟨_,rfl,by simp only [serve,Request.progAt,Prog.ofExcept,Prog.ret_bind,hfind]⟩
  · exact ⟨_,rfl,rfl⟩
  · exact ⟨_,rfl,rfl⟩
  · next hinsert =>
    simp only [serve,hinsert]
    exact ⟨_,rfl,rfl⟩
  · next hinsert =>
    simp only [serve,hinsert]
    exact ⟨_,rfl,rfl⟩

theorem next_of_done {req : Request} (hp : (req.progAt userId s).done = true) (w : CodeTable) :
    req.next userId s w = none := by
  cases s with
  | fresh => cases req <;> cases hp
  | matched id =>
    cases req with
    | consume rawCode now => cases hp
    | regenerate batch now => rfl
  | invalidated =>
    cases req with
    | consume rawCode now => rfl
    | regenerate batch now => cases hp
  | returned | threw => rfl

def staging {ι : Type} (userId : String) (requests : ι → Request) :
    Staging serve Answer ι Stage where
  prog i s := (requests i).progAt userId s
  next i s w := (requests i).next userId s w
  next_call _ _ w _ _ hp := next_of_call hp w
  next_done _ _ w hp := next_of_done hp w

end Ploydok.Auth.BackupCodes
