import Asante.Core.KeyedLog
import Asante.Model.Python

/-!
# Providers and Caches

The in-memory systems behind the tools: the credit ledger, the maintenance and
message providers, the reservation provider, and the reservation cache.

The first three are one shape, a list with a map of idempotency keys, and are
instances of `Core.KeyedLog`; each method fixes what it appends and which
dictionary it answers with. A repeated key is answered with the dictionary of
the entry it was first used for, whatever the arguments.

The cache is written over the numbers its clock and its lifetimes are given in.
The application keeps it over exact ones.

## Main definitions

* `Credit`, `GuestCreditLedger`, `ledgerIssue`: The credit ledger.
* `WorkOrder`, `MaintenanceWorkOrderStore`, `maintenanceCreate`: Work orders.
* `OutboundMessage`, `GuestMessageOutbox`, `outboxSend`: Guest messages.
* `ReservationProvider`, `providerGetReservation`: The reservation system.
* `CacheEntry`, `CacheStore`, `cacheGet`, `cachePut`, `cacheDelete`, `cacheClear`: The TTL
  cache.
-/

namespace Asante

/-- `{**entry, "deduplicated": deduplicated}`. -/
def withDeduplicated (entry : PyDict) (deduplicated : Bool) : PyDict :=
  entry.set "deduplicated" (.bool deduplicated)

/-- The fields of a ledger entry; its status is always `issued`. -/
structure Credit where
  reservationId : String
  amount : ℚ
  reason : String
  deriving DecidableEq

/-- The dictionary of a ledger entry. -/
def Credit.toDict (credit : Credit) : PyDict :=
  [("reservation_id", .str credit.reservationId), ("amount", .num credit.amount),
    ("reason", .str credit.reason), ("status", .str "issued")]

/-- `GuestCreditLedger`. -/
abbrev GuestCreditLedger := Core.KeyedLog String Credit

/-- `GuestCreditLedger.issue`. -/
def ledgerIssue (credit : Credit) (idempotencyKey : Option String) (ledger : GuestCreditLedger) :
    PyDict × GuestCreditLedger :=
  let answer := ledger.record idempotencyKey credit
  (withDeduplicated answer.1.1.toDict answer.1.2, answer.2)

/-- `uuid4().hex[:10].upper()`. -/
def shortId (uuid : String) : String :=
  String.ofList ((uuid.toList.take 10).map Char.toUpper)

/-- The fields of a work order; its status is always `open`. -/
structure WorkOrder where
  workOrderId : String
  reservationId : String
  category : String
  urgency : String
  description : String
  createdAt : String
  deriving DecidableEq

/-- The dictionary of a work order. -/
def WorkOrder.toDict (order : WorkOrder) : PyDict :=
  [("work_order_id", .str order.workOrderId), ("reservation_id", .str order.reservationId),
    ("category", .str order.category), ("urgency", .str order.urgency),
    ("description", .str order.description), ("status", .str "open"),
    ("created_at", .str order.createdAt)]

/-- `MaintenanceWorkOrderStore`. -/
abbrev MaintenanceWorkOrderStore := Core.KeyedLog String WorkOrder

/-- The arguments of `MaintenanceWorkOrderStore.create` besides the key. -/
structure MaintenanceRequest where
  reservationId : String
  category : String
  urgency : String
  description : String
  deriving DecidableEq

/-- `MaintenanceWorkOrderStore.create`. -/
def maintenanceCreate (now uuid : String) (r : MaintenanceRequest) (idempotencyKey : String)
    (store : MaintenanceWorkOrderStore) : PyDict × MaintenanceWorkOrderStore :=
  let answer := store.record (some idempotencyKey)
    { workOrderId := "WO-" ++ shortId uuid
      reservationId := r.reservationId
      category := r.category
      urgency := r.urgency
      description := r.description
      createdAt := now }
  (withDeduplicated answer.1.1.toDict answer.1.2, answer.2)

/-- The fields of an outbound message; its status is always `sent`. -/
structure OutboundMessage where
  messageId : String
  reservationId : String
  message : String
  sentAt : String
  deriving DecidableEq

/-- The dictionary of an outbound message. -/
def OutboundMessage.toDict (outbound : OutboundMessage) : PyDict :=
  [("message_id", .str outbound.messageId), ("reservation_id", .str outbound.reservationId),
    ("message", .str outbound.message), ("status", .str "sent"),
    ("sent_at", .str outbound.sentAt)]

/-- `GuestMessageOutbox`. -/
abbrev GuestMessageOutbox := Core.KeyedLog String OutboundMessage

/-- `GuestMessageOutbox.send`. -/
def outboxSend (now uuid : String) (reservationId message idempotencyKey : String)
    (outbox : GuestMessageOutbox) : PyDict × GuestMessageOutbox :=
  let answer := outbox.record (some idempotencyKey)
    { messageId := "MSG-" ++ shortId uuid
      reservationId := reservationId
      message := message
      sentAt := now }
  (withDeduplicated answer.1.1.toDict answer.1.2, answer.2)

/-- `InMemoryReservationProvider`. -/
structure ReservationProvider where
  reservations : List (String × PyDict)
  calls : Nat

/-- The reservations the provider starts with. -/
def seededReservations : List (String × PyDict) :=
  [ ("R-3001", [("reservation_id", .str "R-3001"), ("guest_name", .str "Amina N."),
      ("property", .str "Bandini"), ("status", .str "confirmed"),
      ("check_in", .str "2026-10-02"), ("check_out", .str "2026-10-05")]),
    ("R-3002", [("reservation_id", .str "R-3002"), ("guest_name", .str "Jordan K."),
      ("property", .str "Bandini"), ("status", .str "confirmed"),
      ("check_in", .str "2026-10-06"), ("check_out", .str "2026-10-09")]),
    ("R-3003", [("reservation_id", .str "R-3003"), ("guest_name", .str "Maya T."),
      ("property", .str "Bandini"), ("status", .str "completed"),
      ("check_in", .str "2026-09-12"), ("check_out", .str "2026-09-15")]) ]

/-- `InMemoryReservationProvider.get_reservation`. -/
def providerGetReservation (reservationId : String) (provider : ReservationProvider) :
    Option PyDict × ReservationProvider :=
  (provider.reservations.lookup reservationId, { provider with calls := provider.calls + 1 })

section Cache

variable {τ : Type} [LE τ] [DecidableLE τ] [Add τ] [Sub τ] [Max τ] [Zero τ]

/-- `_CacheEntry`. -/
structure CacheEntry (τ : Type) where
  value : PyDict
  createdAt : τ
  expiresAt : τ

/-- `InMemoryCacheStore`. -/
structure CacheStore (τ : Type) where
  entries : List (String × CacheEntry τ)
  getCalls : Nat

/-- `CacheLookup`. -/
structure CacheLookup (τ : Type) [Zero τ] where
  hit : Bool
  value : Option PyDict := none
  ageSeconds : τ := 0
  expired : Bool := false

/-- `entries.pop(key, None)`. -/
def popEntry (entries : List (String × CacheEntry τ)) (key : String) :
    List (String × CacheEntry τ) :=
  entries.filter fun e => e.1 ≠ key

/-- `InMemoryCacheStore.get`. -/
def cacheGet (monotonic : τ) (key : String) (cache : CacheStore τ) :
    CacheLookup τ × CacheStore τ :=
  match cache.entries.lookup key with
  | none => ({ hit := false }, { cache with getCalls := cache.getCalls + 1 })
  | some entry =>
    let age := max 0 (monotonic - entry.createdAt)
    if entry.expiresAt ≤ monotonic then
      ({ hit := false, ageSeconds := age, expired := true },
        { entries := popEntry cache.entries key, getCalls := cache.getCalls + 1 })
    else ({ hit := true, value := some entry.value, ageSeconds := age },
      { cache with getCalls := cache.getCalls + 1 })

/-- `InMemoryCacheStore.put`. -/
def cachePut (monotonic : τ) (key : String) (value : PyDict) (ttlSeconds : τ)
    (cache : CacheStore τ) : Except Exc Unit × CacheStore τ :=
  if ttlSeconds ≤ 0 then (.error (.valueError "ttl_seconds must be greater than zero"), cache)
  else (.ok (), { cache with
    entries := (key, ⟨value, monotonic, monotonic + ttlSeconds⟩) :: popEntry cache.entries key })

/-- `InMemoryCacheStore.delete`. -/
def cacheDelete (key : String) (cache : CacheStore τ) : CacheStore τ :=
  { cache with entries := popEntry cache.entries key }

/-- `InMemoryCacheStore.clear`. -/
def cacheClear (cache : CacheStore τ) : CacheStore τ :=
  { cache with entries := [] }

end Cache

end Asante
