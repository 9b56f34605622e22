import Mathlib.Data.List.Nodup

/-! `claimQueuedRow` of `worker/queue-claim.ts`: one update that takes a row out of its queue. The
table is passed untyped, so the update may name a column that the table does not have; the database
then refuses it. -/

namespace Ploydok.Queue

open List Function

/-! ### Tables -/

inductive Value where
  | null
  | text (s : String)
  | time (ms : Nat)
  deriving DecidableEq, Repr

abbrev Row := String → Value

structure Table where
  columns : List String
  rows : List Row
  ids : (rows.map (· "id")).Nodup

inductive Cond where
  | eq (column : String) (value : Value)
  | inArray (column : String) (values : List String)

def Cond.column : Cond → String
  | eq column _ | inArray column _ => column

def Cond.holds : Cond → Row → Bool
  | eq column value, row => row column = value
  | inArray column values, row => values.any fun v => row column = .text v

/-- `UPDATE … SET … WHERE … RETURNING *`; no update here sets the key. -/
structure Update where
  set : List (String × Value)
  conds : List Cond
  keepsId : "id" ∉ set.map Prod.fst

def Update.columns (u : Update) : List String := u.set.map Prod.fst ++ u.conds.map Cond.column

def Update.selects (u : Update) (row : Row) : Bool := u.conds.all (·.holds row)

def Update.write (u : Update) (row : Row) : Row :=
  u.set.foldl (fun row entry => update row entry.1 entry.2) row

theorem foldl_update_of_not_mem {set : List (String × Value)} (h : column ∉ set.map Prod.fst)
    (row : Row) :
    set.foldl (fun row entry => update row entry.1 entry.2) row column = row column := by
  induction set generalizing row with
  | nil => rfl
  | cons entry set ih =>
    rw [map_cons,mem_cons,not_or] at h
    rw [foldl_cons,ih h.2,update_of_ne h.1]

@[simp] theorem write_id (u : Update) (row : Row) : u.write row "id" = row "id" :=
  foldl_update_of_not_mem u.keepsId row

def Update.apply (u : Update) (row : Row) : Row := if u.selects row then u.write row else row

@[simp] theorem apply_id (u : Update) (row : Row) : u.apply row "id" = row "id" := by
  unfold Update.apply
  split
  · exact write_id u row
  · rfl

/-- An update that names a column the table does not have is refused. -/
def Table.update (t : Table) (u : Update) : Except String (List Row × Table) :=
  if u.columns.all (· ∈ t.columns) then
    .ok ((t.rows.filter u.selects).map u.write,
      { columns := t.columns
        rows := t.rows.map u.apply
        ids := by simpa [comp_def] using t.ids })
  else .error "column does not exist"

theorem update_eq_ok {t : Table} (h : u.columns ⊆ t.columns) :
    ∃ t', t.update u = .ok ((t.rows.filter u.selects).map u.write, t') ∧
      t'.columns = t.columns ∧ t'.rows = t.rows.map u.apply := by
  have hall : (u.columns.all fun c => decide (c ∈ t.columns)) = true :=
    all_eq_true.mpr fun c hc => decide_eq_true (h hc)
  exact ⟨_,if_pos hall,rfl,rfl⟩

theorem columns_of_update {t : Table} (h : t.update u = .ok result) : u.columns ⊆ t.columns := by
  unfold Table.update at h
  split at h
  · next hall => exact fun c hc => of_decide_eq_true (all_eq_true.mp hall c hc)
  · cases h

structure ClaimOptions where
  id : String
  expectedStatuses : Option (List String)
  setClaimedAt : Option Bool

namespace ClaimOptions

variable (opts : ClaimOptions)

def statuses : List String := opts.expectedStatuses.getD ["pending"]

def setsClaimedAt : Bool := opts.setClaimedAt ≠ some false

def update (now : Nat) : Update where
  set := ("status", .text "running") ::
    if opts.setsClaimedAt then [("claimed_at", .time now)] else []
  conds := [.eq "id" (.text opts.id), .inArray "status" opts.statuses]
  keepsId := by split <;> simp

end ClaimOptions

def claimQueuedRow (t : Table) (opts : ClaimOptions) (now : Nat) :
    Except String (Option Row × Table) := do
  let (result, t') ← t.update (opts.update now)
  return (result.head?, t')

/-- The row of the key has one of the expected states in the column `state`. -/
def Claimable (t : Table) (state : String) (opts : ClaimOptions) : Prop :=
  ∃ row ∈ t.rows, row "id" = .text opts.id ∧ ∃ s ∈ opts.statuses, row state = .text s

/-- The claim names only columns of the table, and returns the row exactly if its state is expected.
-/
def ClaimsExactly (t : Table) (state : String) (opts : ClaimOptions) (now : Nat) : Prop :=
  (opts.update now).columns ⊆ t.columns ∧
  ∃ r t', claimQueuedRow t opts now = .ok (r, t') ∧
    (r.isSome = true ↔ Claimable t state opts) ∧
    ∀ row, r = some row → row "id" = .text opts.id ∧ row "status" = .text "running"

variable {t : Table} {opts : ClaimOptions} {now : Nat}

theorem selects_claim_iff : (opts.update now).selects row = true ↔
    row "id" = .text opts.id ∧ ∃ s ∈ opts.statuses, row "status" = .text s := by
  simp [Update.selects,ClaimOptions.update,Cond.holds]

theorem write_claim_status (row : Row) :
    (opts.update now).write row "status" = .text "running" := by
  unfold Update.write ClaimOptions.update
  rw [foldl_cons]
  dsimp only
  split
  · simp [update_of_ne]
  · simp

theorem columns_claim_subset_iff (now : Nat) : (opts.update now).columns ⊆ t.columns ↔
    "id" ∈ t.columns ∧ "status" ∈ t.columns ∧
      (opts.setsClaimedAt = true → "claimed_at" ∈ t.columns) := by
  unfold Update.columns ClaimOptions.update
  dsimp only
  split
  · next h =>
    simp [h,Cond.column]
    tauto
  · next h => simp [h,Cond.column,and_comm]

theorem claimsExactly_status_iff : ClaimsExactly t "status" opts now ↔
    "id" ∈ t.columns ∧ "status" ∈ t.columns ∧
      (opts.setsClaimedAt = true → "claimed_at" ∈ t.columns) := by
  rw [← columns_claim_subset_iff now]
  refine ⟨And.left,fun hcolumns => ⟨hcolumns,?_⟩⟩
  obtain ⟨t',hupdate,-⟩ := update_eq_ok hcolumns
  refine ⟨((t.rows.filter (opts.update now).selects).map (opts.update now).write).head?,t',?_,
    ?_,?_⟩
  · simp [claimQueuedRow,hupdate,bind,Except.bind,pure,Except.pure]
  · rw [isSome_head?]
    constructor
    · intro hne
      obtain ⟨row',hrow'⟩ := exists_mem_of_ne_nil _ hne
      obtain ⟨row,hmem,-⟩ := mem_map.mp hrow'
      exact ⟨row,mem_of_mem_filter hmem,selects_claim_iff.mp (of_mem_filter hmem)⟩
    · rintro ⟨row,hmem,hclaimable⟩
      have hselected : row ∈ t.rows.filter (opts.update now).selects :=
        mem_filter.mpr ⟨hmem,selects_claim_iff.mpr hclaimable⟩
      exact ne_nil_of_mem (mem_map_of_mem hselected)
  · intro row hrow
    obtain ⟨row0,hmem,rfl⟩ := mem_map.mp (mem_of_mem_head? hrow)
    have hselects := selects_claim_iff.mp (of_mem_filter hmem)
    exact ⟨(write_id _ row0).trans hselects.1,write_claim_status row0⟩

/-- The tables that are passed to `claimQueuedRow`. -/
inductive QueueTable where
  | builds | systemJobs | appDeleteJobs | domains
  deriving DecidableEq, Repr

def QueueTable.columns : QueueTable → List String
  | builds => ["id", "app_id", "status", "build_method", "image_tag", "container_id",
      "runtime_ref", "commit_sha", "commit_message", "log_path", "log_archive",
      "log_archive_raw_size", "log_archive_compressed_size", "log_archived_at", "log_purged_at",
      "error_message", "post_deploy_error", "started_at", "finished_at", "created_at",
      "requested_by_user_id", "source", "queued_at", "claimed_at"]
  | systemJobs => ["id", "kind", "status", "requested_by_user_id", "source", "options",
      "queued_at", "claimed_at", "finished_at", "error_message", "result"]
  | appDeleteJobs => ["id", "app_id", "status", "requested_by_user_id", "source", "options",
      "queued_at", "claimed_at", "finished_at", "error_message"]
  | domains => ["id", "app_id", "hostname", "tls_status", "tls_mode", "dns01_provider",
      "verify_token", "verify_error", "created_at", "updated_at", "requested_by_user_id",
      "verify_source", "verify_claimed_at"]

def QueueTable.state : QueueTable → String
  | domains => "tls_status"
  | _ => "status"

theorem not_columns_domains (h : t.columns = QueueTable.domains.columns) :
    ¬ (opts.update now).columns ⊆ t.columns := by
  rw [columns_claim_subset_iff,h]
  rintro ⟨-,hstatus,-⟩
  exact absurd hstatus (by decide)

theorem claimsExactly_iff (kind : QueueTable) (h : t.columns = kind.columns) :
    ClaimsExactly t kind.state opts now ↔ kind ≠ .domains := by
  have hstatus : ∀ table : QueueTable, table ≠ .domains → table.state = "status" ∧
      "id" ∈ table.columns ∧ "status" ∈ table.columns ∧ "claimed_at" ∈ table.columns := by
    intro table hne
    cases table with
    | domains => exact absurd rfl hne
    | _ => decide
  constructor
  · rintro hexact rfl
    exact not_columns_domains h hexact.1
  · intro hne
    obtain ⟨hstate,hid,hcol,hclaimed⟩ := hstatus kind hne
    rw [hstate,claimsExactly_status_iff,h]
    exact ⟨hid,hcol,fun _ => hclaimed⟩

end Ploydok.Queue
