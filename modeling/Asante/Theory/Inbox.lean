import Mathlib.Data.Set.List
import Asante.Theory.ApprovalStore
import Asante.Theory.Chronology

/-!
# The Approval Inbox

What `list_requests` lists and which request `find_credit_request` finds, in
terms of when the rows were created.

The store keeps the time of creation as a text and has SQLite order the texts. A
`StampedRow` is a row with the instant its text was made from. Since the texts
are in the order of the instants, any listing by falling texts is one by falling
instants, whatever it does with rows of one instant (`newest_first_of_sorted`),
and the same for the least.

The rows of a table are such rows in every run of the store whose clock reads
instants: no operation but the one that creates a row writes its time
(`runStore_stamped`).

## Main definitions

* `StampedRow`: A row the store created, and when.
* `StoreOp.ReadsClock`: An operation takes the time of creation from the clock.

## Theorems

* `newest_first_of_sorted`: Falling texts are falling instants.
* `selectCredit_least`: No matching row has a text before that of the one found.
* `runStore_stamped`: Every row of a run was created at an instant.
* `inbox_newest_first`: The inbox is complete and newest first.
-/

namespace Asante

/-- A row as the store creates and updates it, and the instant it was created
    at. -/
structure StampedRow where
  row : ApprovalRow
  created : UtcInstant
  action : row.action = approvedCreditAction
  stamp : row.createdAt = created.isoformat

/-- Whatever is listed by falling texts is listed by falling instants. -/
theorem newest_first_of_sorted {listed : List StampedRow}
    (h : listed.Pairwise fun s t => t.row.createdAt ≤ s.row.createdAt) :
    listed.Pairwise fun s t => ¬ s.created.microseconds < t.created.microseconds := by
  refine h.imp fun {s t} hle => ?_
  rw [s.stamp, t.stamp, UtcInstant.isoformat_le_iff] at hle
  exact not_lt.mpr hle

/-- The rows `list_requests` selects, with their instants. -/
theorem selectRequests_stamped (stamped : List StampedRow) (status : Option ApprovalStatus) :
    ∃ listed : List StampedRow, listed.Perm (stamped.filter fun s => s.row.hasStatus status) ∧
      selectRequests (stamped.map (·.row)) status = listed.map (·.row) ∧
      listed.Pairwise fun s t => t.row.createdAt ≤ s.row.createdAt := by
  have htotal : Std.Total fun s t : StampedRow => t.row.createdAt ≤ s.row.createdAt :=
    ⟨fun s t => le_total t.row.createdAt s.row.createdAt⟩
  have htrans : IsTrans StampedRow fun s t => t.row.createdAt ≤ s.row.createdAt :=
    ⟨fun _ _ _ hst htu => htu.trans hst⟩
  refine ⟨(stamped.filter fun s => s.row.hasStatus status).insertionSort
      fun s t => t.row.createdAt ≤ s.row.createdAt,
    List.perm_insertionSort _ _, ?_, List.pairwise_insertionSort _ _⟩
  rw [selectRequests, List.filter_map]
  exact (List.map_insertionSort (fun s t : StampedRow => t.row.createdAt ≤ s.row.createdAt)
    (fun a b : ApprovalRow => b.createdAt ≤ a.createdAt) StampedRow.row _
    fun _ _ _ _ => Iff.rfl).symm

/-- No matching row has a text before that of the row that is found. -/
theorem selectCredit_least {table : ApprovalTable} {taskId reservationId : String} {amount : ℚ}
    {row : ApprovalRow} (h : selectCredit table taskId reservationId amount = some row) :
    ∀ other ∈ table, other.isCredit taskId reservationId amount = true →
      row.createdAt ≤ other.createdAt := by
  intro other hother hcredit
  have htotal : Std.Total fun a b : ApprovalRow => a.createdAt ≤ b.createdAt :=
    ⟨fun a b => le_total a.createdAt b.createdAt⟩
  have htrans : IsTrans ApprovalRow fun a b => a.createdAt ≤ b.createdAt :=
    ⟨fun _ _ _ hab hbc => hab.trans hbc⟩
  have hmem := (mem_credit_candidates taskId reservationId amount).mpr ⟨hother, hcredit⟩
  have hsorted := List.pairwise_insertionSort (fun a b : ApprovalRow => a.createdAt ≤ b.createdAt)
    (table.filter (·.isCredit taskId reservationId amount))
  rw [selectCredit] at h
  -- The row found is the first of the matching rows in their order.
  rcases List.head?_eq_some_iff.mp h with ⟨rest, hrest⟩
  rw [hrest] at hmem hsorted
  rcases List.mem_cons.mp hmem with hself | hlater
  · rw [hself]
  · exact (List.pairwise_cons.mp hsorted).1 other hlater

/-- The request `find_credit_request` finds is a matching one, and none of those
    was created at an earlier instant; it finds none only if there is none. -/
theorem findCreditRequest_earliest (stamped : List StampedRow) (taskId reservationId : String)
    (amount : ℚ) :
    (findCreditRequest (stamped.map (·.row)) taskId reservationId amount = none ∧
        ∀ s ∈ stamped, ¬ (s.row.taskId = taskId ∧ s.row.reservationId = reservationId ∧
          s.row.amount = amount)) ∨
      ∃ s ∈ stamped, findCreditRequest (stamped.map (·.row)) taskId reservationId amount =
          some (fromRow s.row) ∧
        (s.row.taskId = taskId ∧ s.row.reservationId = reservationId ∧ s.row.amount = amount) ∧
        ∀ t ∈ stamped, t.row.taskId = taskId ∧ t.row.reservationId = reservationId ∧
          t.row.amount = amount → s.created.microseconds ≤ t.created.microseconds := by
  rw [findCreditRequest]
  rcases hsel : selectCredit (stamped.map (·.row)) taskId reservationId amount with _ | row
  · refine Or.inl ⟨by rw [hsel]; rfl, fun s hs hmatch => ?_⟩
    have hnone := selectCredit_none hsel s.row (List.mem_map.mpr ⟨s, hs, rfl⟩)
    rw [(isCredit_iff s.action _ _ _).mpr hmatch] at hnone
    exact Bool.noConfusion hnone
  · rcases selectCredit_some hsel with ⟨hmem, hcredit⟩
    rcases List.mem_map.mp hmem with ⟨s, hs, rfl⟩
    refine Or.inr ⟨s, hs, by rw [hsel]; rfl, (isCredit_iff s.action _ _ _).mp hcredit,
      fun t ht hmatch => ?_⟩
    have hle := selectCredit_least hsel t.row (List.mem_map.mpr ⟨t, ht, rfl⟩)
      ((isCredit_iff t.action _ _ _).mpr hmatch)
    rwa [s.stamp, t.stamp, UtcInstant.isoformat_le_iff] at hle

/-- The approval inbox is complete and newest first: every row with the status is
    listed once, and none before one that was created at a later instant; and the
    request found for a credit is one of those created first. -/
theorem inbox_newest_first (stamped : List StampedRow) :
    (∀ status, ∃ listed : List StampedRow,
      listed.Perm (stamped.filter fun s => s.row.hasStatus status) ∧
      listRequests (stamped.map (·.row)) status = listed.map (fun s => fromRow s.row) ∧
      listed.Pairwise fun s t => ¬ s.created.microseconds < t.created.microseconds) ∧
    ∀ taskId reservationId amount,
      (findCreditRequest (stamped.map (·.row)) taskId reservationId amount = none ∧
        ∀ s ∈ stamped, ¬ (s.row.taskId = taskId ∧ s.row.reservationId = reservationId ∧
          s.row.amount = amount)) ∨
      ∃ s ∈ stamped, findCreditRequest (stamped.map (·.row)) taskId reservationId amount =
          some (fromRow s.row) ∧
        (s.row.taskId = taskId ∧ s.row.reservationId = reservationId ∧ s.row.amount = amount) ∧
        ∀ t ∈ stamped, t.row.taskId = taskId ∧ t.row.reservationId = reservationId ∧
          t.row.amount = amount → s.created.microseconds ≤ t.created.microseconds := by
  refine ⟨fun status => ?_, findCreditRequest_earliest stamped⟩
  rcases selectRequests_stamped stamped status with ⟨listed, hperm, hselect, hsorted⟩
  refine ⟨listed, hperm, ?_, newest_first_of_sorted hsorted⟩
  rw [listRequests, hselect, List.map_map]
  rfl

section Runs

/-- An operation that creates a row takes the time from a clock that reads
    instants. -/
def StoreOp.ReadsClock : StoreOp → Prop
  | .create now _ _ => ∃ t : UtcInstant, now = t.isoformat
  | _ => True

/-- A row after an operation has the action and the time of creation of one
    before, or the operation created it. -/
theorem apply_created (op : StoreOp) {table : ApprovalTable} {row : ApprovalRow}
    (hrow : row ∈ (op.apply table).2) :
    (∃ old ∈ table, row.action = old.action ∧ row.createdAt = old.createdAt) ∨
      ∃ now uuid r, op = .create now uuid r ∧ row = newRow now uuid r := by
  rcases apply_table op table with h | ⟨now, uuid, r, hop, h⟩ | ⟨approvalId, f, _, hf, h⟩
  · rw [h] at hrow
    exact Or.inl ⟨row, hrow, rfl, rfl⟩
  · rw [h] at hrow
    rcases List.mem_append.mp hrow with hold | hnew
    · exact Or.inl ⟨row, hold, rfl, rfl⟩
    · exact Or.inr ⟨now, uuid, r, hop, List.mem_singleton.mp hnew⟩
  · rw [h] at hrow
    rcases updateRow_origin hrow with ⟨hold, _⟩ | ⟨old, hold, _, heq⟩
    · exact Or.inl ⟨row, hold, rfl, rfl⟩
    · -- An update keeps both columns.
      rw [heq]
      exact Or.inl ⟨old, hold, hf old⟩

/-- An operation whose clock reads instants keeps every row stamped. -/
theorem apply_stamped {op : StoreOp} (hclock : op.ReadsClock) {table : ApprovalTable}
    (h : ∀ row ∈ table, row ∈ Set.range StampedRow.row) :
    ∀ row ∈ (op.apply table).2, row ∈ Set.range StampedRow.row := by
  intro row hrow
  rcases apply_created op hrow with ⟨old, hold, haction, hcreated⟩ | ⟨now, uuid, r, hop, hnew⟩
  · rcases h old hold with ⟨s, hs⟩
    rw [← hs] at haction hcreated
    exact ⟨⟨row, s.created, haction.trans s.action, hcreated.trans s.stamp⟩, rfl⟩
  · rw [hop] at hclock
    rcases hclock with ⟨t, hnow⟩
    exact ⟨⟨row, t, by rw [hnew]; rfl, by rw [hnew]; exact hnow⟩, rfl⟩

/-- Every table of a run of the store, from the empty table and with a clock that
    reads instants, is one of stamped rows. -/
theorem runStore_stamped {ops : List StoreOp} (hclock : ∀ op ∈ ops, op.ReadsClock) :
    ∃ stamped : List StampedRow, runStore ops [] = stamped.map (·.row) := by
  have hrows : ∀ table : ApprovalTable, (∀ row ∈ table, row ∈ Set.range StampedRow.row) →
      ∀ row ∈ runStore ops table, row ∈ Set.range StampedRow.row := by
    induction ops with
    | nil => exact fun _ h => h
    | cons op ops ih =>
        intro table h
        exact ih (fun op' hop' => hclock op' (List.mem_cons_of_mem _ hop')) _
          (apply_stamped (hclock op List.mem_cons_self) h)
  have hrange := hrows [] fun _ h => absurd h List.not_mem_nil
  rcases (Set.range_list_map StampedRow.row).ge hrange with ⟨stamped, hstamped⟩
  exact ⟨stamped, hstamped.symm⟩

end Runs

end Asante
