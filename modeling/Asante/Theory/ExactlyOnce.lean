import Asante.Core.FirstUses
import Asante.Model.Stores

/-!
# Exactly Once by Key

The three stores under the tools with side effects: what any sequence of calls
leaves in them, and what the calls are answered.

The retries of the credit tool, the approvals and the work orders and messages
all count on a store doing nothing for a key it has seen. `ExactlyOnce` says what
that means for a whole sequence of calls, from the empty store and with any
arguments. It holds of each store because its method makes one record of a keyed
log and answers with the dictionary of the entry, so the sequence is one of
`Core.KeyedLog.callAll`.

## Main definitions

* `LedgerCall`, `MaintenanceCall`, `OutboxCall`: One call of each method.
* `ExactlyOnce`: What a sequence of calls leaves and answers.

## Theorems

* `exactlyOnce_of_records`: A method that makes one record by key is exactly once.
* `stores_exactlyOnce`: The three stores are exactly once by key.
-/

namespace Asante

open Asante.Core Core.KeyedLog

/-- The arguments of one call of `GuestCreditLedger.issue`. -/
structure LedgerCall where
  credit : Credit
  idempotencyKey : Option String

/-- One call of `GuestCreditLedger.issue`. -/
def LedgerCall.issue (c : LedgerCall) (ledger : GuestCreditLedger) : PyDict × GuestCreditLedger :=
  ledgerIssue c.credit c.idempotencyKey ledger

/-- The arguments of one call of `MaintenanceWorkOrderStore.create`, with the time
    and the random identifier it reads. -/
structure MaintenanceCall where
  now : String
  uuid : String
  request : MaintenanceRequest
  idempotencyKey : String

/-- The work order the call creates if its key is new. -/
def MaintenanceCall.workOrder (c : MaintenanceCall) : WorkOrder :=
  { workOrderId := "WO-" ++ shortId c.uuid
    reservationId := c.request.reservationId
    category := c.request.category
    urgency := c.request.urgency
    description := c.request.description
    createdAt := c.now }

/-- One call of `MaintenanceWorkOrderStore.create`. -/
def MaintenanceCall.create (c : MaintenanceCall) (store : MaintenanceWorkOrderStore) :
    PyDict × MaintenanceWorkOrderStore :=
  maintenanceCreate c.now c.uuid c.request c.idempotencyKey store

/-- The arguments of one call of `GuestMessageOutbox.send`, with the time and the
    random identifier it reads. -/
structure OutboxCall where
  now : String
  uuid : String
  reservationId : String
  message : String
  idempotencyKey : String

/-- The message the call sends if its key is new. -/
def OutboxCall.outbound (c : OutboxCall) : OutboundMessage :=
  { messageId := "MSG-" ++ shortId c.uuid
    reservationId := c.reservationId
    message := c.message
    sentAt := c.now }

/-- One call of `GuestMessageOutbox.send`. -/
def OutboxCall.send (c : OutboxCall) (outbox : GuestMessageOutbox) : PyDict × GuestMessageOutbox :=
  outboxSend c.now c.uuid c.reservationId c.message c.idempotencyKey outbox

variable {C β : Type}

/-- What every sequence of calls of a method leaves in the store, and what the
    calls are answered. -/
structure ExactlyOnce (key : C → Option String) (entry : C → β) (toDict : β → PyDict)
    (method : C → KeyedLog String β → PyDict × KeyedLog String β) : Prop where
  /-- The visible list only grows. -/
  appendOnly : ∀ before after,
    (callAll method before).2.entries <+: (callAll method (before ++ after)).2.entries
  /-- It holds the entries of the first uses, in order. -/
  visible : ∀ calls, (callAll method calls).2.entries = (firstUses key calls).map entry
  /-- These are as many as the distinct keys and the calls without a key. -/
  count : ∀ calls, (callAll method calls).2.entries.length =
    (calls.filterMap key).toFinset.card + calls.countP (fun c => (key c).isNone)
  /-- The key map binds exactly the keys used. -/
  bound : ∀ calls k,
    ((callAll method calls).2.find k).isSome = true ↔ some k ∈ calls.map key
  /-- A key is bound to the entry its first call put into the visible list. -/
  binding : ∀ before c after k, key c = some k → some k ∉ before.map key →
    (callAll method (before ++ c :: after)).2.find k = some (entry c) ∧
      (callAll method (before ++ c :: after)).2.entries[(callAll method before).2.entries.length]? =
        some (entry c)
  /-- A call without a key, or the first with its key, is answered with its own
      entry. -/
  answered : ∀ before c after, FirstUse key before c →
    (callAll method (before ++ c :: after)).1[before.length]? =
      some (withDeduplicated (toDict (entry c)) false)
  /-- Any later call with the key is answered like the first, but for the mark. -/
  repeats : ∀ before c between c' after k, key c = some k → some k ∉ before.map key →
    key c' = some k → ∃ answer,
      (callAll method (before ++ c :: between ++ c' :: after)).1[before.length]? = some answer ∧
        answer.get? "deduplicated" = some (.bool false) ∧
        (callAll method (before ++ c :: between ++ c' :: after)).1[
          (before ++ c :: between).length]? = some (answer.set "deduplicated" (.bool true))

/-- A method that makes one record by key and answers with the dictionary of the
    entry is exactly once by key. -/
theorem exactlyOnce_of_records {key : C → Option String} {entry : C → β} {toDict : β → PyDict}
    {method : C → KeyedLog String β → PyDict × KeyedLog String β}
    (h : Records key method entry fun answer => withDeduplicated (toDict answer.1) answer.2) :
    ExactlyOnce key entry toDict method where
  appendOnly := callAll_entries_extend h
  visible := callAll_entries h
  count := fun calls => by
    rw [callAll_entries h, List.length_map, firstUses_length]
  bound := callAll_bound h
  binding := fun before c after k hk hnew => by
    have hfirst : FirstUse key before c := Or.inr (by rwa [hk])
    exact callAll_binding h hfirst hk after
  answered := fun before c after hfirst => callAll_first h hfirst after
  repeats := fun before c between c' after k hk hnew hk' => by
    have hfirst : FirstUse key before c := Or.inr (by rwa [hk])
    refine ⟨withDeduplicated (toDict (entry c)) false, ?_, PyDict.get?_set_self _ _ _, ?_⟩
    · rw [List.append_assoc, List.cons_append]
      exact callAll_first h hfirst _
    · rw [callAll_repeats h hfirst hk between hk' after]
      exact congrArg some (PyDict.set_set _ _ _ _).symm

/-- The ledger, the work orders and the outbox are exactly once by key, whatever
    the calls and their arguments. -/
theorem stores_exactlyOnce :
    ExactlyOnce LedgerCall.idempotencyKey LedgerCall.credit Credit.toDict LedgerCall.issue ∧
      ExactlyOnce (fun c => some c.idempotencyKey) MaintenanceCall.workOrder WorkOrder.toDict
        MaintenanceCall.create ∧
      ExactlyOnce (fun c => some c.idempotencyKey) OutboxCall.outbound OutboundMessage.toDict
        OutboxCall.send :=
  ⟨exactlyOnce_of_records fun _ _ => rfl, exactlyOnce_of_records fun _ _ => rfl,
    exactlyOnce_of_records fun _ _ => rfl⟩

end Asante
