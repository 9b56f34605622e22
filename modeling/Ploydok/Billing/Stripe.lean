import Mathlib.Data.List.Basic

/-! Billing events: `syncSubscriptionFromWebhook` of `billing/stripe.ts` on the subscription row of
the organization of one customer. The order of creation of the events is not looked at. -/

namespace Ploydok.Billing

open List

inductive Status where
  | active
  | trialing
  | pastDue
  | canceled
deriving DecidableEq

structure Subscription where
  planSlug : String
  status : Status
  (customerId subscriptionId : Option String)
  currentPeriodEnd : Option Int
  cancelAtPeriodEnd : Bool
deriving DecidableEq

/-- The status of a subscription of the provider; `other` are those without a counterpart. -/
inductive StripeStatus where
  | active
  | trialing
  | pastDue
  | other

inductive EventData where
  /-- `planSlug` is missing if one of the metadata is. -/
  | checkoutSessionCompleted (planSlug : Option String) (subscriptionId : String)
  | customerSubscriptionUpdated (status : StripeStatus) (currentPeriodEnd : Int)
      (cancelAtPeriodEnd : Option Bool)
  | customerSubscriptionDeleted
  | invoicePaymentFailed

structure Event where
  created : Int
  data : EventData

def statusOf : StripeStatus → Status
  | .active => .active
  | .trialing => .trialing
  | .pastDue => .pastDue
  | .other => .canceled

def setOrgSubscription (planSlug : String) (status : Status) (row : Option Subscription) :
    Subscription :=
  match row with
  | some row => { row with planSlug, status }
  | none => ⟨planSlug,status,none,none,none,false⟩

variable (customerId : String) (retrieve : String → Int) (row : Option Subscription)

/-- A change of the row that is found by the customer. -/
def updateFound (change : Subscription → Subscription) : Option Subscription :=
  row.map fun row => if row.customerId = some customerId then change row else row

/-- `retrieve` is the end of the period of a subscription at the provider. -/
def syncSubscriptionFromWebhook (event : Event) : Option Subscription :=
  match event.data with
  | .checkoutSessionCompleted none _ => row
  | .checkoutSessionCompleted (some planSlug) subscriptionId =>
    some { setOrgSubscription planSlug .active row with
      customerId := some customerId
      subscriptionId := some subscriptionId
      currentPeriodEnd := some (retrieve subscriptionId * 1000) }
  | .customerSubscriptionUpdated status currentPeriodEnd cancelAtPeriodEnd =>
    updateFound customerId row fun row => { row with
      status := statusOf status
      currentPeriodEnd := some (currentPeriodEnd * 1000)
      cancelAtPeriodEnd := cancelAtPeriodEnd.getD false }
  | .customerSubscriptionDeleted =>
    updateFound customerId row fun row => setOrgSubscription "free" .canceled (some row)
  | .invoicePaymentFailed => updateFound customerId row ({ · with status := .pastDue })

def handleAll (events : List Event) : Option Subscription :=
  events.foldl (syncSubscriptionFromWebhook customerId retrieve) row

def Subscription.stored (row : Subscription) : String × Status × Option Int × Bool :=
  (row.planSlug,row.status,row.currentPeriodEnd,row.cancelAtPeriodEnd)

/-- The deliveries leave in the row what the events leave in the order of their creation. -/
def Settles (events deliveries : List Event) : Prop :=
  (handleAll customerId retrieve row deliveries).map Subscription.stored =
    (handleAll customerId retrieve row events).map Subscription.stored

/-! ### The last writer of each column -/

/-- What an event writes to the row that it finds. -/
structure Writes where
  planSlug : Option String := none
  status : Option Status := none
  currentPeriodEnd : Option (Option Int) := none
  cancelAtPeriodEnd : Option Bool := none

def Event.writes (event : Event) : Writes :=
  match event.data with
  | .checkoutSessionCompleted none _ => {}
  | .checkoutSessionCompleted (some planSlug) subscriptionId =>
    { planSlug := some planSlug, status := some .active
      currentPeriodEnd := some (some (retrieve subscriptionId * 1000)) }
  | .customerSubscriptionUpdated status currentPeriodEnd cancelAtPeriodEnd =>
    { status := some (statusOf status), currentPeriodEnd := some (some (currentPeriodEnd * 1000))
      cancelAtPeriodEnd := some (cancelAtPeriodEnd.getD false) }
  | .customerSubscriptionDeleted => { planSlug := some "free", status := some .canceled }
  | .invoicePaymentFailed => { status := some .pastDue }

def Event.isCheckout (event : Event) : Bool :=
  match event.data with
  | .checkoutSessionCompleted (some _) _ => true
  | _ => false

/-- The events that change the row: all if it has the customer; if not, the first checkout, which
stores the customer, and those after it. -/
def effective (events : List Event) : List Event :=
  if row.bind Subscription.customerId = some customerId then events
  else events.dropWhile fun event => !event.isCheckout

/-- The value that the last writer of a column leaves there. -/
def lastWritten (column : Writes → Option α) (old : α) (events : List Event) : α :=
  (events.filterMap fun event => column (event.writes retrieve)).getLast?.getD old

/-- The columns before any event; a missing row counts as one without a period. -/
def before : Subscription := row.getD (setOrgSubscription "free" .active none)

/-- The last delivered writer of a column leaves what the last created one does. -/
def SameLast (column : Writes → Option α) (old : Subscription → α)
    (events deliveries : List Event) : Prop :=
  lastWritten retrieve column (old (before row)) (effective customerId row deliveries) =
    lastWritten retrieve column (old (before row)) (effective customerId row events)

variable {customerId retrieve row} {event : Event} {events rest : List Event}

theorem lastWritten_cons (column : Writes → Option α) (old : α) (event : Event)
    (events : List Event) : lastWritten retrieve column old (event :: events) =
      lastWritten retrieve column ((column (event.writes retrieve)).getD old) events := by
  unfold lastWritten
  rw [filterMap_cons]
  cases column (event.writes retrieve) with
  | none => rfl
  | some value => simp [getLast?_cons]

/-- `row'` has what `event` writes, and the other columns of `old`. -/
structure Written (customerId : String) (retrieve : String → Int) (old row' : Subscription)
    (event : Event) : Prop where
  customerId : row'.customerId = some customerId
  planSlug : row'.planSlug = (event.writes retrieve).planSlug.getD old.planSlug
  status : row'.status = (event.writes retrieve).status.getD old.status
  currentPeriodEnd :
    row'.currentPeriodEnd = (event.writes retrieve).currentPeriodEnd.getD old.currentPeriodEnd
  cancelAtPeriodEnd :
    row'.cancelAtPeriodEnd = (event.writes retrieve).cancelAtPeriodEnd.getD old.cancelAtPeriodEnd

/-- One event, on a row that it finds or as a checkout. -/
theorem written_of_sync (retrieve : String → Int)
    (h : row.bind Subscription.customerId = some customerId ∨ event.isCheckout = true) :
    ∃ row', syncSubscriptionFromWebhook customerId retrieve row event = some row' ∧
      Written customerId retrieve (before row) row' event := by
  obtain ⟨created,data⟩ := event
  cases hevent : Event.isCheckout ⟨created,data⟩ with
  | true =>
    rcases data with ⟨_ | planSlug,subscriptionId⟩ | _ | _ | _ <;> cases hevent
    cases row <;> exact ⟨_,rfl,rfl,rfl,rfl,rfl,rfl⟩
  | false =>
    obtain ⟨row,rfl,hfound⟩ := Option.bind_eq_some_iff.mp (h.resolve_right (by simp [hevent]))
    rcases data with ⟨_ | planSlug,subscriptionId⟩ | _ | _ | _
    · exact ⟨row,rfl,hfound,rfl,rfl,rfl,rfl⟩
    · cases hevent
    all_goals exact ⟨_,congrArg some (if_pos hfound),hfound,rfl,rfl,rfl,rfl⟩

theorem sync_eq_self (hrow : row.bind Subscription.customerId ≠ some customerId)
    (hevent : event.isCheckout = false) :
    syncSubscriptionFromWebhook customerId retrieve row event = row := by
  obtain ⟨created,⟨_ | planSlug,subscriptionId⟩ | _ | _ | _⟩ := event
  · rfl
  · cases hevent
  all_goals
    cases row with
    | none => rfl
    | some row => exact congrArg some (if_neg hrow)

theorem handleAll_effective (events : List Event) :
    handleAll customerId retrieve row events =
      handleAll customerId retrieve row (effective customerId row events) := by
  unfold effective
  split_ifs with hrow
  · rfl
  · induction events with
    | nil => rfl
    | cons event events ih =>
      cases hevent : event.isCheckout with
      | true => simp [hevent]
      | false => simpa [handleAll,hevent,sync_eq_self hrow hevent] using ih

/-- The columns that the events leave. -/
def columns (retrieve : String → Int) (old : Subscription) (events : List Event) :
    String × Status × Option Int × Bool :=
  (lastWritten retrieve (·.planSlug) old.planSlug events,
    lastWritten retrieve (·.status) old.status events,
    lastWritten retrieve (·.currentPeriodEnd) old.currentPeriodEnd events,
    lastWritten retrieve (·.cancelAtPeriodEnd) old.cancelAtPeriodEnd events)

theorem Written.columns_cons (h : Written customerId retrieve old row' event) (events : List Event) :
    columns retrieve old (event :: events) = columns retrieve row' events := by
  simp only [columns,lastWritten_cons,h.planSlug,h.status,h.currentPeriodEnd,h.cancelAtPeriodEnd]

theorem stored_of_found {row : Subscription} (h : row.customerId = some customerId)
    (events : List Event) : (handleAll customerId retrieve (some row) events).map
      Subscription.stored = some (columns retrieve row events) := by
  induction events generalizing row with
  | nil => rfl
  | cons event events ih =>
    obtain ⟨row',hsync,hwritten⟩ : ∃ row', syncSubscriptionFromWebhook customerId retrieve
        (some row) event = some row' ∧ Written customerId retrieve row row' event :=
      written_of_sync retrieve (.inl h)
    rw [hwritten.columns_cons,← ih hwritten.customerId]
    simp [handleAll,hsync]

/-- Nothing is effective before the customer is known. -/
theorem found_or_checkout (h : effective customerId row events = event :: rest) :
    row.bind Subscription.customerId = some customerId ∨ event.isCheckout = true := by
  unfold effective at h
  split_ifs at h with hrow
  · exact .inl hrow
  · refine .inr ?_
    have hhead := head?_dropWhile_not (fun event => !event.isCheckout) events
    rw [h] at hhead
    simpa using hhead

theorem stored_handleAll (events : List Event) :
    (handleAll customerId retrieve row events).map Subscription.stored =
      if effective customerId row events = [] then row.map Subscription.stored
      else some (columns retrieve (before row) (effective customerId row events)) := by
  rw [handleAll_effective]
  cases heffective : effective customerId row events with
  | nil => rfl
  | cons event rest =>
    obtain ⟨row',hsync,hwritten⟩ := written_of_sync retrieve (found_or_checkout heffective)
    rw [if_neg (cons_ne_nil event rest),hwritten.columns_cons,← stored_of_found hwritten.customerId]
    simp [handleAll,hsync]

theorem lastWritten_period_ne_none (hold : old ≠ none) (events : List Event) :
    lastWritten retrieve (·.currentPeriodEnd) old events ≠ none := by
  induction events generalizing old with
  | nil => exact hold
  | cons event events ih =>
    rw [lastWritten_cons]
    refine ih ?_
    obtain ⟨created,⟨_ | planSlug,subscriptionId⟩ | _ | _ | _⟩ := event <;>
      simp [Event.writes,hold]

/-- The checkout that inserts a row gives it a period. -/
theorem effective_none_eq_nil_iff (retrieve : String → Int) (events : List Event) :
    effective customerId none events = [] ↔ lastWritten retrieve (·.currentPeriodEnd) none
      (effective customerId none events) = none := by
  cases heffective : effective customerId none events with
  | nil => simp [lastWritten]
  | cons event rest =>
    have hcheckout : event.isCheckout = true := by simpa using found_or_checkout heffective
    simp only [reduceCtorEq,false_iff,lastWritten_cons]
    refine lastWritten_period_ne_none ?_ rest
    obtain ⟨created,⟨_ | planSlug,subscriptionId⟩ | _ | _ | _⟩ := event <;> cases hcheckout
    simp [Event.writes]

/-- Deliveries in any order, with any repetitions, leave what the order of creation leaves exactly
if each of the four columns has the same last writer, or one that writes the same. -/
theorem settles_iff (customerId : String) (retrieve : String → Int) (row : Option Subscription)
    (events deliveries : List Event) :
    Settles customerId retrieve row events deliveries ↔
      SameLast customerId retrieve row (·.planSlug) (·.planSlug) events deliveries ∧
      SameLast customerId retrieve row (·.status) (·.status) events deliveries ∧
      SameLast customerId retrieve row (·.currentPeriodEnd) (·.currentPeriodEnd) events
        deliveries ∧
      SameLast customerId retrieve row (·.cancelAtPeriodEnd) (·.cancelAtPeriodEnd) events
        deliveries := by
  simp only [Settles,stored_handleAll,SameLast,← Prod.mk.injEq]
  change _ ↔ columns retrieve (before row) _ = columns retrieve (before row) _
  cases row with
  | some row =>
    -- without an effective event the row stays as it is
    have hsome : ∀ es, (if es = [] then (some row).map Subscription.stored
        else some (columns retrieve (before (some row)) es)) =
          some (columns retrieve (before (some row)) es) := by
      intro es
      split_ifs with hes
      · rw [hes]
        rfl
      · rfl
    rw [hsome,hsome,Option.some.injEq]
  | none =>
    constructor
    · intro h
      split_ifs at h with hd he he
      · rw [hd,he]
      · cases h
      · cases h
      · exact Option.some.inj h
    · intro h
      have hperiod : effective customerId none deliveries = [] ↔
          effective customerId none events = [] := by
        rw [effective_none_eq_nil_iff retrieve,effective_none_eq_nil_iff retrieve]
        exact Eq.congr_left (congrArg (·.2.2.1) h)
      simp only [hperiod,h]

/-- The update is delivered twice, the failed payment before it late and between the two. -/
example : Settles "c" (fun _ => 0) (some ⟨"pro",.active,some "c",none,none,false⟩)
    [⟨1,.invoicePaymentFailed⟩, ⟨2,.customerSubscriptionUpdated .active 0 none⟩]
    [⟨2,.customerSubscriptionUpdated .active 0 none⟩, ⟨1,.invoicePaymentFailed⟩,
      ⟨2,.customerSubscriptionUpdated .active 0 none⟩] := rfl

/-- A failed payment is delivered after the update that followed it. -/
theorem late_failure_not_settled : ¬ ∀ customerId retrieve row events deliveries,
    (events.map Event.created).Pairwise (· < ·) → (∀ event, event ∈ deliveries ↔ event ∈ events) →
      Settles customerId retrieve row events deliveries := by
  intro h
  have hsettles := h "c" (fun _ => 0) (some ⟨"pro",.active,some "c",none,none,false⟩)
    [⟨1,.invoicePaymentFailed⟩, ⟨2,.customerSubscriptionUpdated .active 0 none⟩]
    [⟨2,.customerSubscriptionUpdated .active 0 none⟩, ⟨1,.invoicePaymentFailed⟩]
    (by decide) (by simp [or_comm])
  revert hsettles
  unfold Settles
  decide

end Ploydok.Billing
