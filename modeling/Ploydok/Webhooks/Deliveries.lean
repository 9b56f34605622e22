import Mathlib.Data.List.Basic

/-! The pages of the webhook deliveries of an app, `packages/db/src/queries/webhook-deliveries.ts`.
The cursor is a time in milliseconds, the column has microseconds. -/

namespace Ploydok.Webhooks.Deliveries

open List

structure Delivery where
  id : String
  /-- In microseconds. -/
  receivedAt : Int

/-- The time as `toISOString` gives it. -/
def Delivery.millis (d : Delivery) : Int := d.receivedAt / 1000

/-- The rows of the app in the order of `desc(received_at)`. -/
structure Table where
  rows : List Delivery
  sorted : rows.Pairwise fun a b => b.receivedAt ≤ a.receivedAt

def Table.select (t : Table) (cursor : Option Int) : List Delivery :=
  t.rows.filter fun d => cursor.all (d.receivedAt < · * 1000)

def listDeliveriesByApp (t : Table) (limit : Nat) (cursor : Option Int) :
    List Delivery × Option Int :=
  let rows := (t.select cursor).take (limit + 1)
  let page := rows.take limit
  (page, if limit < rows.length then page.getLast?.map Delivery.millis else none)

/-- The pages up to the first one without a cursor, unless they are more than `calls`. -/
def visit (t : Table) (limit : Nat) : Nat → Option Int → Option (List Delivery)
  | 0, _ => none
  | calls + 1, cursor =>
    match listDeliveriesByApp t limit cursor with
    | (page, none) => some page
    | (page, some next) => (visit t limit calls (some next)).map (page ++ ·)

/-- Each page but the last shows a delivery, so these are enough calls. -/
def VisitsAll (t : Table) (limit : Nat) : Prop :=
  ∃ out, visit t limit (t.rows.length + 1) none = some out ∧ out.Perm t.rows ∧
    out.Pairwise fun a b => b.receivedAt ≤ a.receivedAt

/-- No page ends between two deliveries of one millisecond. -/
def Separated (limit : Nat) (rows : List Delivery) : Prop :=
  ∀ n a b, rows[n * limit + (limit - 1)]? = some a → rows[n * limit + limit]? = some b →
    b.millis < a.millis

theorem separated_iff (k : Nat) (rows : List Delivery) : Separated (k + 1) rows ↔
    (∀ a b, rows[k]? = some a → rows[k + 1]? = some b → b.millis < a.millis) ∧
      Separated (k + 1) (rows.drop (k + 1)) := by
  have hshift : ∀ n, (n + 1) * (k + 1) = k + 1 + n * (k + 1) := fun n => by
    rw [Nat.succ_mul,Nat.add_comm]
  simp only [Separated,getElem?_drop,Nat.add_sub_cancel,← Nat.add_assoc (k + 1),← hshift]
  constructor
  · intro h
    exact ⟨by simpa using h 0,fun n => h (n + 1)⟩
  · rintro ⟨h0,h⟩ (_ | n)
    · simpa using h0
    · exact h n

variable {t : Table} {cursor : Option Int} {front rest : List Delivery} {a b : Delivery}

theorem pairwise_select : (t.select cursor).Pairwise fun a b => b.millis ≤ a.millis :=
  (t.sorted.imp fun h => Int.ediv_le_ediv (by decide) h).filter _

/-- What is left after a page that ends with `a`. -/
theorem select_next (hselect : t.select cursor = front ++ a :: rest) :
    t.select (some a.millis) = rest.filter (·.millis < a.millis) := by
  have ha : a ∈ t.select cursor := hselect ▸ mem_append_right front mem_cons_self
  have hbefore : ∀ d ∈ front, a.millis ≤ d.millis := fun d hd =>
    (pairwise_append.mp (hselect ▸ pairwise_select)).2.2 d hd a mem_cons_self
  have hagain : t.select (some a.millis) = (t.select cursor).filter (·.millis < a.millis) := by
    rw [Table.select,Table.select,filter_filter]
    refine filter_congr fun d _ => Bool.eq_iff_iff.mpr ?_
    have hcursor := (mem_filter.mp ha).2
    simp only [Option.all_eq_true,Bool.and_eq_true,decide_eq_true_eq,Option.some.injEq,
      forall_eq'] at hcursor ⊢
    unfold Delivery.millis
    refine ⟨fun h => ⟨by omega,fun c hc => ?_⟩,fun h => by omega⟩
    have hbelow := hcursor c hc
    omega
  rw [hagain,hselect,filter_append,filter_eq_nil_iff.mpr (by simpa using hbefore),nil_append,
    filter_cons_of_neg (by simp)]

theorem visit_spec (k calls : Nat) (cursor : Option Int)
    (hcalls : (t.select cursor).length < calls) : ∃ out, visit t (k + 1) calls cursor = some out ∧
      (out = t.select cursor ∧ Separated (k + 1) (t.select cursor) ∨
        out.length < (t.select cursor).length ∧ ¬ Separated (k + 1) (t.select cursor)) := by
  induction calls generalizing cursor with
  | zero => cases hcalls
  | succ calls ih =>
    have hsorted : (t.select cursor).Pairwise fun a b => b.millis ≤ a.millis := pairwise_select
    rw [separated_iff]
    generalize hrows : t.select cursor = rows at hcalls hsorted
    rcases Nat.lt_or_ge (k + 1) rows.length with hmore | hlast
    · have hdrop := drop_eq_getElem_cons hmore
      have hsplit : rows = rows.take k ++ rows[k] :: rows.drop (k + 1) := by
        rw [← drop_eq_getElem_cons,take_append_drop]
      have hnext := select_next (hrows.trans hsplit)
      have hpage : listDeliveriesByApp t (k + 1) cursor =
          (rows.take (k + 1), some rows[k].millis) := by
        have hlast : rows[k]? = some rows[k] := getElem?_eq_getElem _
        have hfull : k + 1 < min (k + 2) rows.length := by omega
        simp [listDeliveriesByApp,hrows,take_take,getLast?_take,hlast,hfull]
      have hshort := length_filter_le (·.millis < rows[k].millis) (rows.drop (k + 1))
      rw [length_drop] at hshort
      obtain ⟨out,hvisit,hout⟩ := ih (some rows[k].millis) (by rw [hnext]; omega)
      refine ⟨rows.take (k + 1) ++ out,by simp [visit,hpage,hvisit],?_⟩
      have hfirst : (∀ a b, rows[k]? = some a → rows[k + 1]? = some b → b.millis < a.millis) ↔
          rows[k + 1].millis < rows[k].millis := by
        simp [hmore,Nat.lt_of_succ_lt hmore]
      rw [hfirst,length_append,length_take,Nat.min_eq_left (Nat.le_of_lt hmore)]
      by_cases hab : rows[k + 1].millis < rows[k].millis
      · have hall : ∀ d ∈ rows.drop (k + 1), d.millis < rows[k].millis := by
          have htail := hsorted.drop (i := k + 1)
          rw [hdrop] at htail ⊢
          exact forall_mem_cons.mpr ⟨hab,fun d hd =>
            Int.lt_of_le_of_lt (rel_of_pairwise_cons htail hd) hab⟩
        rw [hnext,filter_eq_self.mpr (by simpa using hall)] at hout
        rcases hout with ⟨rfl,hsep⟩ | ⟨hlt,hsep⟩
        · exact .inl ⟨take_append_drop ..,hab,hsep⟩
        · exact .inr ⟨by rw [length_drop] at hlt; omega,fun h => hsep h.2⟩
      · -- the first row after the page is not asked for
        have hskipped : (t.select (some rows[k].millis)).length < rows.length - (k + 1) := by
          rw [hnext,← length_drop,length_filter_lt_length_iff_exists,hdrop]
          exact ⟨_,mem_cons_self,by simpa using hab⟩
        refine .inr ⟨?_,fun h => hab h.1⟩
        rcases hout with ⟨rfl,-⟩ | ⟨hlt,-⟩ <;> omega
    · have hpage : listDeliveriesByApp t (k + 1) cursor = (rows, none) := by
        simp [listDeliveriesByApp,hrows,take_of_length_le,hlast,Nat.le_succ_of_le hlast,
          Nat.not_lt.mpr hlast]
      refine ⟨rows,by simp [visit,hpage],.inl ⟨rfl,?_⟩⟩
      simp [Separated,hlast,drop_of_length_le]

/-- Every delivery is shown once exactly if no page ends inside a millisecond. -/
theorem visits_all_iff (t : Table) (limit : Nat) (hlimit : 0 < limit) :
    VisitsAll t limit ↔ Separated limit t.rows := by
  obtain ⟨k,rfl⟩ := Nat.exists_eq_add_of_le' hlimit
  have hall : t.select none = t.rows := filter_true _
  obtain ⟨out,hvisit,hout⟩ := visit_spec (t := t) k (t.rows.length + 1) none (by rw [hall]; omega)
  rw [hall] at hout
  constructor
  · rintro ⟨out',hvisit',hperm,-⟩
    cases hvisit.symm.trans hvisit'
    exact hout.elim And.right fun h => absurd hperm.length_eq (Nat.ne_of_lt h.1)
  · intro hsep
    rcases hout with ⟨rfl,-⟩ | ⟨-,hnot⟩
    · exact ⟨_,hvisit,.refl _,t.sorted⟩
    · exact absurd hsep hnot

def twice : Table := ⟨[⟨"d1",1500⟩, ⟨"d2",1500⟩],by decide⟩

def thrice : Table := ⟨[⟨"d1",3500⟩, ⟨"d2",3500⟩, ⟨"d3",1500⟩],by decide⟩

/-- The first page has the two of one instant, and its cursor leads to the third. -/
theorem visits_all_two_pages : (listDeliveriesByApp thrice 2 none).2 = some 3 ∧
    Separated 2 thrice.rows ∧ VisitsAll thrice 2 := by
  have hsep : Separated 2 thrice.rows := by
    intro n a b ha hb
    have hlt : n * 2 + 2 < 3 := (List.getElem?_eq_some_iff.mp hb).1
    obtain rfl : n = 0 := by omega
    cases ha
    cases hb
    decide
  exact ⟨rfl,hsep,(visits_all_iff thrice 2 (by decide)).mpr hsep⟩

/-- Two deliveries of one instant, one to a page: the second is never shown. -/
theorem same_instant_skipped : ¬ ∀ (t : Table) (limit : Nat), 0 < limit → VisitsAll t limit := by
  intro h
  obtain ⟨out,hvisit,hperm,-⟩ := h twice 1 (by decide)
  cases hvisit
  exact absurd hperm.length_eq (by decide)

end Ploydok.Webhooks.Deliveries
