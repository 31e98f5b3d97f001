import Mathlib.Data.List.Induction
import Asante.Core.Run
import Asante.Theory.Ledger
import Asante.Theory.Approving

/-!
# Guest Operations

Which work orders and guest messages are taken for repetitions.

A call is deduplicated by its key, and the key is a hash of one text: the
operation, the task, the reservation and the normalised content, joined by
newlines. The operation and the task are one line each and can be cut off again.
What is left, the reservation and the content, are free texts, and two different
rows of them may join to the same text: then the second call is answered with
the entry of the first. `Confusable` is that relation, and `honest_iff` says it
is all that can go wrong: a session is answered honestly exactly when no two of
its accepted calls are confusable.

The results are about sessions of authorised calls, one after another, over
stores that start empty. `Answers` is the invariant of a session: a key is bound
exactly when a call that succeeded had it, and behind every success there is one
under the same key that was recorded.

## Main definitions

* `GuestCall`: The two operations with their arguments.
* `GuestCall.content`, `GuestCall.text`, `GuestCall.key`: What a call means, the
  text of that, and the key derived from it.
* `GuestCall.accepted`: The call passes the check of its argument, and has a key.
* `session`: A sequence of calls.
* `Honest`: What the answers of a session have to say.
* `Confusable`: Different contents joined to one text.
* `Effect`: What one call does.
* `Answers`: The invariant of a session.

## Theorems

* `key_eq_iff`: When two calls have one key.
* `call_effect`: What an authorised call answers and records.
* `answers_step`: A call keeps the invariant.
* `honest_iff`: A session is answered honestly exactly when nothing in it is
  confusable.
* `honest_of_oneLine`: Which it is not without newlines before the last field.
* `moved_newline_deduplicates`: A session that is not.
-/

namespace Asante

open Core.Prog

/-- A call of one of the two operations. -/
inductive GuestCall where
  | createMaintenanceRequest (reservationId category urgency description : String)
      (task : TaskContext) (chain : List DelegationGrant)
  | sendGuestMessage (reservationId message : String) (task : TaskContext)
      (chain : List DelegationGrant)

namespace GuestCall

/-- The program of a call. -/
def code (d : Deployment) : GuestCall → App PyDict
  | createMaintenanceRequest reservationId category urgency description task chain =>
    Asante.createMaintenanceRequest d reservationId category urgency description task chain
  | sendGuestMessage reservationId message task chain =>
    Asante.sendGuestMessage d reservationId message task chain

/-- The action of a call. -/
def action : GuestCall → String
  | createMaintenanceRequest _ _ _ _ _ _ => "maintenance.create"
  | sendGuestMessage _ _ _ _ => "guest.message.send"

def taskId : GuestCall → String
  | createMaintenanceRequest _ _ _ _ task _ => task.taskId
  | sendGuestMessage _ _ task _ => task.taskId

/-- The urgency is known, or the message is not empty. -/
def checked : GuestCall → Bool
  | createMaintenanceRequest _ _ urgency _ _ _ =>
    maintenanceUrgencies.contains (lower (strip urgency))
  | sendGuestMessage _ message _ _ => strip message ≠ ""

/-- The reservation and the normalised content. -/
def content : GuestCall → List String
  | createMaintenanceRequest reservationId category urgency description _ _ =>
    [reservationId, strip category, lower (strip urgency), strip description]
  | sendGuestMessage reservationId message _ _ => [reservationId, strip message]

/-- The text the idempotency key is derived from. -/
def text : GuestCall → String
  | createMaintenanceRequest reservationId category urgency description task _ =>
    operationCanonical "maintenance.create" task.taskId reservationId
      (maintenancePayload category urgency description)
  | sendGuestMessage reservationId message task _ =>
    operationCanonical "guest.message.send" task.taskId reservationId (strip message)

/-- The argument passes its check, and the text of the key has a digest. -/
def accepted (d : Deployment) (c : GuestCall) : Bool :=
  c.checked && (d.digestError c.text).isNone

/-- The idempotency key. -/
def key (d : Deployment) : GuestCall → String
  | createMaintenanceRequest reservationId category urgency description task _ =>
    operationDigest d.sha256 "maintenance.create" task.taskId reservationId
      (maintenancePayload category urgency description)
  | sendGuestMessage reservationId message task _ =>
    operationDigest d.sha256 "guest.message.send" task.taskId reservationId (strip message)

/-- The status a call that succeeded reports. -/
def reported : GuestCall → String
  | createMaintenanceRequest _ _ _ _ _ _ => "open"
  | sendGuestMessage _ _ _ _ => "sent"

/-- The key of the call is bound in its store. -/
def bound (d : Deployment) (w : World) : GuestCall → Bool
  | c@(createMaintenanceRequest _ _ _ _ _ _) => (w.workOrders.find (c.key d)).isSome
  | c@(sendGuestMessage _ _ _ _) => (w.outbox.find (c.key d)).isSome

end GuestCall

/-- The reservation and the normalised content of a work order. -/
def WorkOrder.content (order : WorkOrder) : List String :=
  [order.reservationId, strip order.category, order.urgency, strip order.description]

/-- The reservation and the normalised content of a message. -/
def OutboundMessage.content (outbound : OutboundMessage) : List String :=
  [outbound.reservationId, strip outbound.message]

/-- The store of the call holds an entry with its content. -/
def RecordedIn (w : World) (c : GuestCall) : Prop :=
  match c with
  | .createMaintenanceRequest _ _ _ _ _ _ =>
    ∃ order ∈ w.workOrders.entries, order.content = c.content
  | .sendGuestMessage _ _ _ _ => ∃ outbound ∈ w.outbox.entries, outbound.content = c.content

/-- A call with what it answered. -/
structure Answered where
  call : GuestCall
  outcome : Except Exc PyDict

/-- The call was answered as a repetition. -/
def Answered.Deduplicated (a : Answered) : Prop :=
  ∃ resp, a.outcome = .ok resp ∧ resp.get? "deduplicated" = some (.bool true)

/-- The call was answered as open or sent. -/
def Answered.Succeeded (a : Answered) : Prop :=
  ∃ resp, a.outcome = .ok resp ∧ resp.get? "status" = some (.str a.call.reported)

/-- The same operation, for the same task, reservation and normalised
    content. -/
def GuestCall.SameOperation (p c : GuestCall) : Prop :=
  p.action = c.action ∧ p.taskId = c.taskId ∧ p.content = c.content

/-- A sequence of calls, each with the environments its commands meet. -/
def session (d : Deployment) (calls : List (GuestCall × (Nat → Env))) (w : World) :
    List Answered × World :=
  calls.foldl (fun s c =>
    let finish := run perform (c.1.code d) c.2 s.2
    (s.1 ++ [⟨c.1, finish.outcome⟩], finish.world)) ([], w)

/-- A call is answered as a repetition exactly when the same operation succeeded
    before it, and what is answered as open or sent is recorded. -/
def Honest (answers : List Answered) (w : World) : Prop :=
  (∀ pre a post, answers = pre ++ a :: post →
    (a.Deduplicated ↔ ∃ p ∈ pre, p.Succeeded ∧ p.call.SameOperation a.call)) ∧
  ∀ a ∈ answers, a.Succeeded → RecordedIn w a.call

/-- Two accepted calls of one operation in one task, with different contents
    that join to the same text. -/
def Confusable (d : Deployment) (p c : GuestCall) : Prop :=
  p.accepted d = true ∧ c.accepted d = true ∧ p.action = c.action ∧ p.taskId = c.taskId ∧
    Core.Reframes '\n' (p.content.map String.toList) (c.content.map String.toList)

theorem newline_toList : ("\n" : String).toList = ['\n'] := rfl

theorem key_digest (d : Deployment) (c : GuestCall) :
    c.key d = "operation:" ++ d.sha256 c.text := by
  cases c with
  | createMaintenanceRequest _ _ _ _ _ _ => rfl
  | sendGuestMessage _ _ _ _ => rfl

/-- The text behind a key: the fields of the call, joined by newlines. -/
theorem text_fields (c : GuestCall) :
    c.text.toList = c.action.toList ++ '\n' :: (c.taskId.toList ++ '\n' ::
      Core.joinSep '\n' (c.content.map String.toList)) := by
  cases c with
  | createMaintenanceRequest reservationId category urgency description task chain =>
      unfold GuestCall.text operationCanonical maintenancePayload
      -- The payload is a row of its own, at the end of the outer one.
      simp only [String.toList_append, newline_toList, List.append_assoc, List.cons_append,
        List.nil_append, GuestCall.action, GuestCall.taskId, GuestCall.content, List.map_cons,
        List.map_nil, Core.joinSep_cons_cons, Core.joinSep_singleton]
  | sendGuestMessage reservationId message task chain =>
      unfold GuestCall.text operationCanonical
      simp only [String.toList_append, newline_toList, List.append_assoc, List.cons_append,
        List.nil_append, GuestCall.action, GuestCall.taskId, GuestCall.content, List.map_cons,
        List.map_nil, Core.joinSep_cons_cons, Core.joinSep_singleton]

theorem maintenance_ne_message {reservationId category urgency description reservationId' message :
    String} {task task' : TaskContext} {chain chain' : List DelegationGrant} :
    (GuestCall.createMaintenanceRequest reservationId category urgency description task
      chain).action ≠ (GuestCall.sendGuestMessage reservationId' message task' chain').action :=
  (by decide : "maintenance.create" ≠ "guest.message.send")

theorem action_oneLine (c : GuestCall) : OneLine c.action := by
  cases c with
  | createMaintenanceRequest _ _ _ _ _ _ => exact (by decide : OneLine "maintenance.create")
  | sendGuestMessage _ _ _ _ => exact (by decide : OneLine "guest.message.send")

/-- Two calls in one-line tasks have one key exactly when they are of one
    operation and task and their contents join to one text. -/
theorem key_eq_iff {d : Deployment} (hsha : Function.Injective d.sha256) {p c : GuestCall}
    (hp : OneLine p.taskId) (hc : OneLine c.taskId) :
    p.key d = c.key d ↔ p.action = c.action ∧ p.taskId = c.taskId ∧
      Core.joinSep '\n' (p.content.map String.toList) =
        Core.joinSep '\n' (c.content.map String.toList) := by
  -- Without collisions, equal keys are equal texts.
  rw [key_digest, key_digest, String.append_right_inj, hsha.eq_iff, ← String.toList_inj,
    text_fields, text_fields]
  constructor
  · intro h
    -- The operation and then the task are cut off from the left.
    rcases Core.append_sep_left (action_oneLine p) (action_oneLine c) h with ⟨haction, hrest⟩
    rcases Core.append_sep_left hp hc hrest with ⟨htask, hcontent⟩
    exact ⟨String.toList_inj.mp haction, String.toList_inj.mp htask, hcontent⟩
  · rintro ⟨haction, htask, hcontent⟩
    rw [haction, htask, hcontent]

section Run

variable (d : Deployment) {envs : Nat → Env} {w : World}

/-- An authorised operation answers with what its one command answered, and
    leaves the world that command left. -/
theorem run_executeOperation (henvs : ∀ n, (envs n).Succeeds) (action : String)
    (executingWorkload : Workload) (reservationId : String) (arguments : PyDict)
    (task : TaskContext) (chain : List DelegationGrant) {c : Cmd} {k : c.Answer → App PyDict}
    {r : c.Answer} {w' : World} {resp : PyDict} (hperform : perform c (envs 3) w = (r, w'))
    (hk : k r = done resp) :
    ∃ live, (run perform (executeOperation d action executingWorkload reservationId arguments task
        chain (.call c k)) envs w).outcome = .ok (allowed resp live) ∧
      (run perform (executeOperation d action executingWorkload reservationId arguments task
        chain (.call c k)) envs w).world = w' := by
  -- The operation is one command that answers.
  have hrun : run perform (.call c k : App PyDict) (fun n => envs (n + 3)) w =
      ⟨.ok resp, w', [⟨⟨c, r⟩, w, w'⟩]⟩ := by
    dsimp only [run]
    rw [hperform, hk]
    rfl
  have hadmitted := refusal_succeeds (operationRequest d action executingWorkload reservationId
    arguments task chain) henvs
  unfold executeOperation
  rcases run_opened _ _ w hadmitted with ⟨permit, -, hout, hworld⟩
  rcases run_handled w (fun result => done (allowed result ((envs 2).revalidate (operationRequest d
      action executingWorkload reservationId arguments task chain (envs 0).now) permit))) permit
    "operation executed but Ruhusa lifecycle did not complete" (congrArg (·.outcome) hrun)
    (congrArg (·.world) hrun) (congrArg (·.steps.length) hrun) with ⟨hcompleted, -⟩
  rcases hcompleted ((henvs 4).complete permit) with ⟨hlast, hlastWorld⟩
  exact ⟨_, hout.trans hlast, hworld.trans hlastWorld⟩

/-- What a call does: it succeeds exactly when it is accepted, and is then a
    repetition exactly when its key was bound; an accepted call binds its key
    and no other, and is recorded when the key was free; and nothing recorded is
    lost. -/
structure Effect (c : GuestCall) (w : World) (outcome : Except Exc PyDict) (w' : World) :
    Prop where
  succeeded : (⟨c, outcome⟩ : Answered).Succeeded ↔ c.accepted d = true
  deduplicated : (⟨c, outcome⟩ : Answered).Deduplicated ↔
    c.accepted d = true ∧ c.bound d w = true
  recorded : c.accepted d = true → c.bound d w = false → RecordedIn w' c
  kept : ∀ p : GuestCall, RecordedIn w p → RecordedIn w' p
  binds : ∀ p : GuestCall, p.bound d w' = true ↔ p.bound d w = true ∨
    (c.accepted d = true ∧ p.action = c.action ∧ p.key d = c.key d)

/-- A call that is blocked before any command, or raises. -/
theorem effect_none (c : GuestCall) (hc : c.accepted d = false) {outcome : Except Exc PyDict}
    (hblocked : ∀ resp, outcome = .ok resp → ∃ effect reason, resp = blocked effect reason) :
    Effect d c w outcome w where
  succeeded := by
    rw [hc]
    refine iff_of_false ?_ Bool.noConfusion
    rintro ⟨resp, hok, hstatus⟩
    rcases hblocked resp hok with ⟨effect, reason, rfl⟩
    have htext : "blocked" = c.reported := PyVal.str.inj (Option.some.inj hstatus)
    cases c with
    | createMaintenanceRequest _ _ _ _ _ _ => exact absurd htext (by decide : "blocked" ≠ "open")
    | sendGuestMessage _ _ _ _ => exact absurd htext (by decide : "blocked" ≠ "sent")
  deduplicated := by
    rw [hc]
    refine iff_of_false ?_ (fun h => Bool.noConfusion h.1)
    rintro ⟨resp, hok, htrue⟩
    rcases hblocked resp hok with ⟨effect, reason, rfl⟩
    exact Option.some_ne_none _ htrue.symm
  recorded := fun hacc => absurd (hc.symm.trans hacc) Bool.noConfusion
  kept := fun _ hp => hp
  binds := fun p => by
    rw [hc]
    exact ⟨Or.inl, fun h => h.elim id fun hk => Bool.noConfusion hk.1⟩

theorem effect_blocked (c : GuestCall) (hc : c.checked = false) (effect reason : String) :
    Effect d c w (.ok (blocked effect reason)) w := by
  refine effect_none d c (by rw [GuestCall.accepted, hc]; rfl) fun resp hok => ?_
  exact ⟨effect, reason, (Except.ok.inj hok).symm⟩

/-- Deriving the key of the call raised. -/
theorem effect_raised (c : GuestCall) {e : Exc} (herror : d.digestError c.text = some e) :
    Effect d c w (.error e) w := by
  refine effect_none d c ?_ fun resp hok => ?_
  · rw [GuestCall.accepted, herror]
    exact Bool.and_false _
  · exact absurd hok (by simp only [reduceCtorEq, not_false_eq_true])

theorem allowed_get? (entry : PyDict) (deduplicated : Bool) (live : Revalidation) (key : String)
    (hkey : key ≠ "effect" ∧ key ≠ "policy_id") :
    (allowed (withDeduplicated entry deduplicated) live).get? key =
      if key = "deduplicated" then some (.bool deduplicated) else entry.get? key := by
  unfold allowed
  rw [PyDict.get?_merge_left]
  · exact PyDict.get?_set _ _ _ _
  · intro kv hkv
    rcases List.mem_cons.mp hkv with rfl | hkv
    · exact hkey.1.symm
    · rw [List.mem_singleton.mp hkv]
      exact hkey.2.symm

/-- A call answered with an entry of its store. -/
theorem effect_entry (c : GuestCall) {w' : World} (hc : c.accepted d = true) (entry : PyDict)
    (live : Revalidation) (hstatus : entry.get? "status" = some (.str c.reported))
    (hrecorded : c.bound d w = false → RecordedIn w' c)
    (hkept : ∀ p : GuestCall, RecordedIn w p → RecordedIn w' p)
    (hbinds : ∀ p : GuestCall, p.bound d w' = true ↔
      p.bound d w = true ∨ (p.action = c.action ∧ p.key d = c.key d)) :
    Effect d c w (.ok (allowed (withDeduplicated entry (c.bound d w)) live)) w' where
  succeeded := by
    refine iff_of_true ⟨_, rfl, ?_⟩ hc
    rw [allowed_get? _ _ _ _ (by decide), if_neg (by decide)]
    exact hstatus
  deduplicated := by
    have hget := allowed_get? entry (c.bound d w) live "deduplicated" (by decide)
    rw [if_pos rfl] at hget
    constructor
    · rintro ⟨resp, hok, htrue⟩
      rw [← Except.ok.inj hok, hget] at htrue
      exact ⟨hc, PyVal.bool.inj (Option.some.inj htrue)⟩
    · rintro ⟨-, hbound⟩
      exact ⟨_, rfl, hget.trans (by rw [hbound])⟩
  recorded := fun _ => hrecorded
  kept := hkept
  binds := fun p => by
    rw [hc, hbinds p]
    simp only [true_and]

theorem effect_createMaintenanceRequest (henvs : ∀ n, (envs n).Succeeds)
    (reservationId category urgency description : String) (task : TaskContext)
    (chain : List DelegationGrant) :
    Effect d (.createMaintenanceRequest reservationId category urgency description task chain) w
      (run perform (createMaintenanceRequest d reservationId category urgency description task
        chain) envs w).outcome
      (run perform (createMaintenanceRequest d reservationId category urgency description task
        chain) envs w).world := by
  generalize hcall : GuestCall.createMaintenanceRequest reservationId category urgency description
    task chain = c
  have hchecked : c.checked = maintenanceUrgencies.contains (lower (strip urgency)) := by
    rw [← hcall]
    rfl
  have htext : c.text = operationCanonical "maintenance.create" task.taskId reservationId
      (maintenancePayload category urgency description) := by
    rw [← hcall]
    rfl
  unfold createMaintenanceRequest
  dsimp only
  by_cases hc : maintenanceUrgencies.contains (lower (strip urgency)) = true
  · rw [if_pos hc]
    rcases keyed_operation d "maintenance.create" task.taskId reservationId
      (maintenancePayload category urgency description) fun key =>
        executeOperation d "maintenance.create" .propertyOperations reservationId
          [("category", .str category), ("urgency", .str (lower (strip urgency))),
            ("description", .str description)] task chain
          (orRaise (ask (.maintenanceCreate
            ⟨reservationId, category, lower (strip urgency), description⟩ key))) with
      ⟨e, herror, hraise⟩ | ⟨hnone, hkeyed⟩
    · rw [hraise]
      exact effect_raised d c (htext ▸ herror)
    · rw [hkeyed]
      have hacc : c.accepted d = true := by
        rw [GuestCall.accepted, hchecked, hc, htext, hnone]
        rfl
      have hkey : operationDigest d.sha256 "maintenance.create" task.taskId reservationId
          (maintenancePayload category urgency description) = c.key d := by
        rw [← hcall]
        rfl
      rw [hkey]
      generalize hrequest : (⟨reservationId, category, lower (strip urgency), description⟩ :
        MaintenanceRequest) = request
      generalize hanswer : maintenanceCreate (envs 3).nowText (envs 3).uuid request (c.key d)
        w.workOrders = answer
      -- The store answers, since no provider fails.
      have hperform : perform (.maintenanceCreate request (c.key d)) (envs 3) w =
          (.ok answer.1, { w with workOrders := answer.2 }) := by
        change (envs 3).fault.apply w _ = _
        rw [(henvs 3).fault, ← hanswer]
        rfl
      rcases run_executeOperation d henvs "maintenance.create" .propertyOperations reservationId _
        task chain (k := Core.Prog.ofExcept) hperform rfl with ⟨live, houtcome, hworld⟩
      -- The store says it repeats exactly when the key was bound.
      have hrepeats : (w.workOrders.record (some (c.key d))
          { workOrderId := "WO-" ++ shortId (envs 3).uuid
            reservationId := request.reservationId
            category := request.category
            urgency := request.urgency
            description := request.description
            createdAt := (envs 3).nowText }).1.2 = c.bound d w := by
        rw [Core.KeyedLog.record_repeats, ← hcall]
        rfl
      have hcommand : orRaise (ask (.maintenanceCreate request (c.key d))) =
        .call (.maintenanceCreate request (c.key d)) Core.Prog.ofExcept := rfl
      rw [hcommand, houtcome, hworld, ← hanswer, maintenanceCreate, hrepeats]
      refine effect_entry d c hacc _ live ?_ (fun hfree => ?_) (fun p hp => ?_) fun p => ?_
      · rw [← hcall]
        rfl
      · rw [← hcall] at hfree ⊢
        rw [← hrequest]
        exact ⟨_, (Core.KeyedLog.record_entries _ _ _).2 hfree, rfl⟩
      · cases p with
        | createMaintenanceRequest _ _ _ _ _ _ =>
            rcases hp with ⟨order, horder, hcontent⟩
            exact ⟨order, (Core.KeyedLog.record_entries _ _ _).1 order horder, hcontent⟩
        | sendGuestMessage _ _ _ _ => exact hp
      · rw [← hcall]
        cases p with
        | createMaintenanceRequest _ _ _ _ _ _ =>
            refine (Core.KeyedLog.record_binds _ _ _ _).trans (or_congr Iff.rfl ?_)
            exact ⟨fun hk => ⟨rfl, hk⟩, And.right⟩
        | sendGuestMessage _ _ _ _ =>
            -- The outbox is another store.
            exact ⟨Or.inl, fun h => h.elim id fun hk =>
              absurd hk.1 maintenance_ne_message.symm⟩
  · rw [if_neg hc]
    exact effect_blocked d c (hchecked.trans (Bool.eq_false_iff.mpr hc)) _ _

theorem effect_sendGuestMessage (henvs : ∀ n, (envs n).Succeeds) (reservationId message : String)
    (task : TaskContext) (chain : List DelegationGrant) :
    Effect d (.sendGuestMessage reservationId message task chain) w
      (run perform (sendGuestMessage d reservationId message task chain) envs w).outcome
      (run perform (sendGuestMessage d reservationId message task chain) envs w).world := by
  generalize hcall : GuestCall.sendGuestMessage reservationId message task chain = c
  have hchecked : c.checked = decide (strip message ≠ "") := by
    rw [← hcall]
    rfl
  have htext : c.text = operationCanonical "guest.message.send" task.taskId reservationId
      (strip message) := by
    rw [← hcall]
    rfl
  unfold sendGuestMessage
  by_cases hc : strip message = ""
  · rw [if_pos hc]
    exact effect_blocked d c (hchecked.trans (decide_eq_false (not_not.mpr hc))) _ _
  · rw [if_neg hc]
    rcases keyed_operation d "guest.message.send" task.taskId reservationId (strip message)
      fun key => executeOperation d "guest.message.send" .guestSupport reservationId
        [("message", .str message)] task chain
        (orRaise (ask (.outboxSend reservationId message key))) with
      ⟨e, herror, hraise⟩ | ⟨hnone, hkeyed⟩
    · rw [hraise]
      exact effect_raised d c (htext ▸ herror)
    · rw [hkeyed]
      have hacc : c.accepted d = true := by
        rw [GuestCall.accepted, hchecked, decide_eq_true hc, htext, hnone]
        rfl
      have hkey : operationDigest d.sha256 "guest.message.send" task.taskId reservationId
          (strip message) = c.key d := by
        rw [← hcall]
        rfl
      rw [hkey]
      generalize hanswer : outboxSend (envs 3).nowText (envs 3).uuid reservationId message
        (c.key d) w.outbox = answer
      -- The outbox answers, since no provider fails.
      have hperform : perform (.outboxSend reservationId message (c.key d)) (envs 3) w =
          (.ok answer.1, { w with outbox := answer.2 }) := by
        change (envs 3).fault.apply w _ = _
        rw [(henvs 3).fault, ← hanswer]
        rfl
      rcases run_executeOperation d henvs "guest.message.send" .guestSupport reservationId _ task
        chain (k := Core.Prog.ofExcept) hperform rfl with ⟨live, houtcome, hworld⟩
      -- The outbox says it repeats exactly when the key was bound.
      have hrepeats : (w.outbox.record (some (c.key d))
          { messageId := "MSG-" ++ shortId (envs 3).uuid
            reservationId := reservationId
            message := message
            sentAt := (envs 3).nowText }).1.2 = c.bound d w := by
        rw [Core.KeyedLog.record_repeats, ← hcall]
        rfl
      have hcommand : orRaise (ask (.outboxSend reservationId message (c.key d))) =
        .call (.outboxSend reservationId message (c.key d)) Core.Prog.ofExcept := rfl
      rw [hcommand, houtcome, hworld, ← hanswer, outboxSend, hrepeats]
      refine effect_entry d c hacc _ live ?_ (fun hfree => ?_) (fun p hp => ?_) fun p => ?_
      · rw [← hcall]
        rfl
      · rw [← hcall] at hfree ⊢
        exact ⟨_, (Core.KeyedLog.record_entries _ _ _).2 hfree, rfl⟩
      · cases p with
        | createMaintenanceRequest _ _ _ _ _ _ => exact hp
        | sendGuestMessage _ _ _ _ =>
            rcases hp with ⟨outbound, hmem, hcontent⟩
            exact ⟨outbound, (Core.KeyedLog.record_entries _ _ _).1 outbound hmem, hcontent⟩
      · rw [← hcall]
        cases p with
        | createMaintenanceRequest _ _ _ _ _ _ =>
            -- The work orders are another store.
            exact ⟨Or.inl, fun h => h.elim id fun hk => absurd hk.1 maintenance_ne_message⟩
        | sendGuestMessage _ _ _ _ =>
            refine (Core.KeyedLog.record_binds _ _ _ _).trans (or_congr Iff.rfl ?_)
            exact ⟨fun hk => ⟨rfl, hk⟩, And.right⟩

theorem call_effect (henvs : ∀ n, (envs n).Succeeds) (c : GuestCall) :
    Effect d c w (run perform (c.code d) envs w).outcome
      (run perform (c.code d) envs w).world := by
  cases c with
  | createMaintenanceRequest reservationId category urgency description task chain =>
      exact effect_createMaintenanceRequest d henvs reservationId category urgency description task
        chain
  | sendGuestMessage reservationId message task chain =>
      exact effect_sendGuestMessage d henvs reservationId message task chain

end Run

/-- The invariant of a session. -/
structure Answers (d : Deployment) (w : World) (answers : List Answered) : Prop where
  succeeded : ∀ a ∈ answers, a.Succeeded ↔ a.call.accepted d = true
  bound : ∀ c : GuestCall, c.bound d w = true ↔
    ∃ a ∈ answers, a.call.accepted d = true ∧ c.action = a.call.action ∧ c.key d = a.call.key d
  recorded : ∀ a ∈ answers, a.call.accepted d = true → ∃ b ∈ answers, b.call.accepted d = true ∧
    a.call.action = b.call.action ∧ a.call.key d = b.call.key d ∧ RecordedIn w b.call

section Session

variable {d : Deployment} {w w' : World} {answers : List Answered}

theorem answers_empty (d : Deployment) (w : World) :
    Answers d { w with workOrders := .empty, outbox := .empty } [] where
  succeeded := fun _ ha => absurd ha List.not_mem_nil
  bound := fun c => by
    refine iff_of_false ?_ (fun ⟨a, ha, _⟩ => absurd ha List.not_mem_nil)
    cases c with
    | createMaintenanceRequest _ _ _ _ _ _ => exact Bool.noConfusion
    | sendGuestMessage _ _ _ _ => exact Bool.noConfusion
  recorded := fun _ ha => absurd ha List.not_mem_nil

/-- A call keeps the invariant, its own answer added. -/
theorem answers_step {c : GuestCall} {outcome : Except Exc PyDict} (h : Answers d w answers)
    (heffect : Effect d c w outcome w') : Answers d w' (answers ++ [⟨c, outcome⟩]) := by
  -- The new answer stands at the end; every other is an old one.
  have hlast : (⟨c, outcome⟩ : Answered) ∈ answers ++ [⟨c, outcome⟩] :=
    List.mem_append_right _ (List.mem_singleton.mpr rfl)
  refine ⟨fun a ha => ?_, fun p => ?_, ?_⟩
  · rcases List.mem_append.mp ha with ha | ha
    · exact h.succeeded a ha
    · rw [List.mem_singleton.mp ha]
      exact heffect.succeeded
  · rw [heffect.binds p, h.bound p]
    constructor
    · rintro (⟨a, ha, hrest⟩ | hkey)
      · exact ⟨a, List.mem_append_left _ ha, hrest⟩
      · exact ⟨_, hlast, hkey⟩
    · rintro ⟨a, ha, hrest⟩
      rcases List.mem_append.mp ha with ha | ha
      · exact Or.inl ⟨a, ha, hrest⟩
      · rw [List.mem_singleton.mp ha] at hrest
        exact Or.inr hrest
  · -- What stood behind an old answer still does.
    have hold : ∀ a ∈ answers, a.call.accepted d = true →
        ∃ b ∈ answers ++ [⟨c, outcome⟩], b.call.accepted d = true ∧
          a.call.action = b.call.action ∧ a.call.key d = b.call.key d ∧
          RecordedIn w' b.call := by
      intro a ha hacc
      rcases h.recorded a ha hacc with ⟨b, hb, hbacc, haction, hkey, hrec⟩
      exact ⟨b, List.mem_append_left _ hb, hbacc, haction, hkey, heffect.kept _ hrec⟩
    intro a ha hacc
    rcases List.mem_append.mp ha with ha | ha
    · exact hold a ha hacc
    · rw [List.mem_singleton.mp ha] at hacc ⊢
      cases hbound : c.bound d w with
      | true =>
          -- The key was bound by an earlier call, and that one is recorded.
          rcases (h.bound c).mp hbound with ⟨a', ha', hacc', haction', hkey'⟩
          rcases hold a' ha' hacc' with ⟨b, hb, hbacc, haction, hkey, hrec⟩
          exact ⟨b, hb, hbacc, haction'.trans haction, hkey'.trans hkey, hrec⟩
      | false => exact ⟨_, hlast, hacc, rfl, rfl, heffect.recorded hacc hbound⟩

/-- A session that goes on with one more call. -/
theorem session_snoc (d : Deployment) (calls : List (GuestCall × (Nat → Env)))
    (c : GuestCall × (Nat → Env)) (w : World) : session d (calls ++ [c]) w =
      ((session d calls w).1 ++
          [⟨c.1, (run perform (c.1.code d) c.2 (session d calls w).2).outcome⟩],
        (run perform (c.1.code d) c.2 (session d calls w).2).world) := by
  unfold session
  rw [List.foldl_append]
  rfl

theorem session_calls (d : Deployment) (calls : List (GuestCall × (Nat → Env))) (w : World) :
    (session d calls w).1.map (·.call) = calls.map (·.1) := by
  induction calls using List.reverseRecOn with
  | nil => rfl
  | append_singleton calls c ih =>
      rw [session_snoc, List.map_append, List.map_append, ih]
      rfl

/-- The answers of a session are to its calls. -/
theorem forall_answered (Q : GuestCall → Prop) {calls : List (GuestCall × (Nat → Env))} :
    (∀ a ∈ (session d calls w).1, Q a.call) ↔ ∀ c ∈ calls, Q c.1 := by
  have hcalls : (∀ c ∈ (session d calls w).1.map (·.call), Q c) ↔ ∀ c ∈ calls.map (·.1), Q c := by
    rw [session_calls]
  rwa [List.forall_mem_map, List.forall_mem_map] at hcalls

theorem answers_session (d : Deployment) (w : World) (calls : List (GuestCall × (Nat → Env)))
    (hcalls : ∀ c ∈ calls, ∀ n, (c.2 n).Succeeds) :
    Answers d (session d calls { w with workOrders := .empty, outbox := .empty }).2
      (session d calls { w with workOrders := .empty, outbox := .empty }).1 := by
  induction calls using List.reverseRecOn with
  | nil => exact answers_empty d w
  | append_singleton calls c ih =>
      rw [session_snoc]
      exact answers_step (ih fun c' hc' => hcalls c' (List.mem_append_left _ hc'))
        (call_effect d (hcalls c (List.mem_append_right _ (List.mem_singleton.mpr rfl))) c.1)

end Session

/-- Every split of a list with one more element is a split of the list, or the
    last one. -/
theorem forall_split_snoc {α : Type} {P : List α → α → Prop} (l : List α) (x : α) :
    (∀ pre a post, l ++ [x] = pre ++ a :: post → P pre a) ↔
      (∀ pre a post, l = pre ++ a :: post → P pre a) ∧ P l x := by
  constructor
  · intro h
    refine ⟨fun pre a post hl => h pre a (post ++ [x]) ?_, h l x [] rfl⟩
    rw [hl, List.append_assoc, List.cons_append]
  · rintro ⟨hl, hx⟩ pre a post hsplit
    -- The split is at the last element, or inside the list before it.
    rcases List.eq_nil_or_concat post with rfl | ⟨post, y, rfl⟩
    · rcases List.append_inj' hsplit rfl with ⟨rfl, hlast⟩
      rw [← List.head_eq_of_cons_eq hlast]
      exact hx
    · rw [List.concat_eq_append, ← List.cons_append, ← List.append_assoc] at hsplit
      exact hl pre a post (List.append_inj' hsplit rfl).1

section Contents

variable {d : Deployment} {p c : GuestCall}

/-- Calls of one operation have equally many fields. -/
theorem content_length (haction : p.action = c.action) : p.content.length = c.content.length := by
  cases p with
  | createMaintenanceRequest _ _ _ _ _ _ =>
      cases c with
      | createMaintenanceRequest _ _ _ _ _ _ => rfl
      | sendGuestMessage _ _ _ _ =>
          exact absurd haction maintenance_ne_message
  | sendGuestMessage _ _ _ _ =>
      cases c with
      | createMaintenanceRequest _ _ _ _ _ _ =>
          exact absurd haction maintenance_ne_message.symm
      | sendGuestMessage _ _ _ _ => rfl

theorem confusable_symm (h : Confusable d p c) : Confusable d c p := by
  rcases h with ⟨hp, hc, haction, htask, hne, hjoin⟩
  exact ⟨hc, hp, haction.symm, htask.symm, hne.symm, hjoin.symm⟩

/-- Confusable calls have a newline in a field before the last. -/
theorem confusable_newline (h : Confusable d p c) :
    ∃ field ∈ p.content.dropLast ++ c.content.dropLast, '\n' ∈ field.toList := by
  rcases h with ⟨-, -, haction, -, hreframes⟩
  have hlen : (p.content.map String.toList).length = (c.content.map String.toList).length := by
    rw [List.length_map, List.length_map]
    exact content_length haction
  rcases Core.reframes_sep hlen hreframes with ⟨letters, hmem, hnewline⟩
  rw [← List.map_dropLast, ← List.map_dropLast, ← List.map_append] at hmem
  rcases List.mem_map.mp hmem with ⟨field, hfield, rfl⟩
  exact ⟨field, hfield, hnewline⟩

theorem content_inj (h : p.content.map String.toList = c.content.map String.toList) :
    p.content = c.content :=
  List.map_injective_iff.mpr (fun _ _ => String.toList_inj.mp) h

/-- Calls of one operation with one content pass the check alike and are recorded
    alike. -/
theorem sameContent (haction : p.action = c.action) (hcontent : p.content = c.content) :
    p.checked = c.checked ∧ ∀ w, RecordedIn w p ↔ RecordedIn w c := by
  cases p with
  | createMaintenanceRequest reservationId category urgency description task chain =>
      cases c with
      | createMaintenanceRequest reservationId' category' urgency' description' task' chain' =>
          have hurgency : lower (strip urgency) = lower (strip urgency') := by
            simp only [GuestCall.content, List.cons.injEq] at hcontent
            exact hcontent.2.2.1
          refine ⟨?_, fun w => ?_⟩
          · rw [GuestCall.checked, hurgency]
            rfl
          · unfold RecordedIn
            rw [hcontent]
      | sendGuestMessage _ _ _ _ =>
          exact absurd haction maintenance_ne_message
  | sendGuestMessage reservationId message task chain =>
      cases c with
      | createMaintenanceRequest _ _ _ _ _ _ =>
          exact absurd haction maintenance_ne_message.symm
      | sendGuestMessage reservationId' message' task' chain' =>
          have hmessage : strip message = strip message' := by
            simp only [GuestCall.content, List.cons.injEq] at hcontent
            exact hcontent.2.1
          refine ⟨?_, fun w => ?_⟩
          · rw [GuestCall.checked, hmessage]
            rfl
          · unfold RecordedIn
            rw [hcontent]

/-- One operation in one task with one content is accepted however it is called. -/
theorem accepted_congr (h : p.SameOperation c) : p.accepted d = c.accepted d := by
  have htext : p.text = c.text := by
    rw [← String.toList_inj, text_fields, text_fields, h.1, h.2.1, h.2.2]
  rw [GuestCall.accepted, GuestCall.accepted, (sameContent h.1 h.2.2).1, htext]

/-- Accepted calls under one key are the same operation or confusable. -/
theorem same_or_confusable (hsha : Function.Injective d.sha256)
    (hp : OneLine p.taskId) (hc : OneLine c.taskId) (hpacc : p.accepted d = true)
    (hcacc : c.accepted d = true) (hkey : p.key d = c.key d) :
    p.SameOperation c ∨ Confusable d p c := by
  rcases (key_eq_iff hsha hp hc).mp hkey with ⟨haction, htask, hjoin⟩
  -- One text, so the contents are equal or two cuts of it.
  by_cases hcontent : p.content = c.content
  · exact Or.inl ⟨haction, htask, hcontent⟩
  · exact Or.inr ⟨hpacc, hcacc, haction, htask, fun h => hcontent (content_inj h), hjoin⟩

theorem key_of_sameOperation (hsha : Function.Injective d.sha256)
    (hp : OneLine p.taskId) (hc : OneLine c.taskId) (h : p.SameOperation c) :
    p.key d = c.key d :=
  (key_eq_iff hsha hp hc).mpr ⟨h.1, h.2.1, by rw [h.2.2]⟩

end Contents

/-- Which of the calls of a session are answered as they should, when none
    before them is confusable with another. -/
theorem deduplicated_iff {d : Deployment} (hsha : Function.Injective d.sha256) {w w' : World}
    {answers : List Answered} {c : GuestCall} {outcome : Except Exc PyDict}
    (h : Answers d w answers) (heffect : Effect d c w outcome w')
    (hline : ∀ a ∈ answers, OneLine a.call.taskId) (hc : OneLine c.taskId)
    (hclear : ∀ a ∈ answers, ∀ b ∈ answers, ¬ Confusable d a.call b.call) :
    ((⟨c, outcome⟩ : Answered).Deduplicated ↔
        ∃ p ∈ answers, p.Succeeded ∧ p.call.SameOperation c) ↔
      ∀ a ∈ answers, ¬ Confusable d a.call c := by
  rw [heffect.deduplicated, h.bound c]
  constructor
  · intro hiff a ha hconf
    -- The call is a repetition, so it repeats something `a` is confusable with.
    rcases hconf with ⟨haacc, hcacc, haction, htask, hne, hjoin⟩
    have hkey : c.key d = a.call.key d :=
      ((key_eq_iff hsha (hline a ha) hc).mpr ⟨haction, htask, hjoin⟩).symm
    rcases hiff.mp ⟨hcacc, a, ha, haacc, haction.symm, hkey⟩ with ⟨p, hp, hpsucc, hsame⟩
    refine hclear a ha p hp ⟨haacc, (h.succeeded p hp).mp hpsucc, haction.trans hsame.1.symm,
      htask.trans hsame.2.1.symm, ?_⟩
    rw [hsame.2.2]
    exact ⟨hne, hjoin⟩
  · intro hnone
    constructor
    · rintro ⟨hcacc, a, ha, haacc, -, hkey⟩
      have hsame := (same_or_confusable hsha (hline a ha) hc haacc hcacc hkey.symm).resolve_right
        (hnone a ha)
      exact ⟨a, ha, (h.succeeded a ha).mpr haacc, hsame⟩
    · rintro ⟨p, hp, hpsucc, hsame⟩
      have hpacc := (h.succeeded p hp).mp hpsucc
      exact ⟨(accepted_congr hsame).symm.trans hpacc, p, hp, hpacc, hsame.1.symm,
        (key_of_sameOperation hsha (hline p hp) hc hsame).symm⟩

/-- What succeeded in a session without confusable calls is recorded. -/
theorem succeeded_recorded {d : Deployment} (hsha : Function.Injective d.sha256) {w : World}
    {answers : List Answered} (h : Answers d w answers)
    (hline : ∀ a ∈ answers, OneLine a.call.taskId)
    (hclear : ∀ a ∈ answers, ∀ b ∈ answers, ¬ Confusable d a.call b.call) :
    ∀ a ∈ answers, a.Succeeded → RecordedIn w a.call := by
  intro a ha hsucc
  have haacc := (h.succeeded a ha).mp hsucc
  -- The recorded call has the key, and is not confusable with this one.
  rcases h.recorded a ha haacc with ⟨b, hb, hbacc, haction, hkey, hrec⟩
  have hsame := (same_or_confusable hsha (hline a ha) (hline b hb) haacc hbacc hkey).resolve_right
    (hclear a ha b hb)
  exact ((sameContent hsame.1 hsame.2.2).2 w).mpr hrec

theorem session_clear (d : Deployment) {calls : List (GuestCall × (Nat → Env))}
    (hpair : calls.Pairwise fun p c => ¬ Confusable d p.1 c.1) (w : World) :
    ∀ a ∈ (session d calls w).1, ∀ b ∈ (session d calls w).1, ¬ Confusable d a.call b.call := by
  -- A call is not confusable with itself, and the relation is symmetric.
  have hall := hpair.forall_of_forall_of_flip (fun c _ hconf => hconf.2.2.2.2.1 rfl)
    (hpair.imp fun hnot hconf => hnot (confusable_symm hconf))
  refine (forall_answered fun p => ∀ b ∈ (session d calls w).1, ¬ Confusable d p b.call).mpr
    fun c hc => ?_
  exact (forall_answered fun q => ¬ Confusable d c.1 q).mpr fun c' hc' => hall hc hc'

/-- The calls of a session are answered as they should exactly when no two are
    confusable. -/
theorem session_deduplicated_iff {d : Deployment} (hsha : Function.Injective d.sha256) (w : World)
    {calls : List (GuestCall × (Nat → Env))} (hcalls : ∀ c ∈ calls, ∀ n, (c.2 n).Succeeds)
    (hline : ∀ c ∈ calls, OneLine c.1.taskId) :
    (∀ pre a post, (session d calls { w with workOrders := .empty, outbox := .empty }).1 =
        pre ++ a :: post →
      (a.Deduplicated ↔ ∃ p ∈ pre, p.Succeeded ∧ p.call.SameOperation a.call)) ↔
      calls.Pairwise fun p c => ¬ Confusable d p.1 c.1 := by
  generalize hstart : { w with workOrders := .empty, outbox := .empty } = w₀
  induction calls using List.reverseRecOn with
  | nil =>
      -- A session of no calls has nothing to answer for.
      refine iff_of_true (fun pre a post h => ?_) List.Pairwise.nil
      exact absurd h.symm (List.append_ne_nil_of_right_ne_nil pre (List.cons_ne_nil a post))
  | append_singleton calls c ih =>
      have hcalls' : ∀ c ∈ calls, ∀ n, (c.2 n).Succeeds :=
        fun c' hc' => hcalls c' (List.mem_append_left _ hc')
      have hline' : ∀ c ∈ calls, OneLine c.1.taskId :=
        fun c' hc' => hline c' (List.mem_append_left _ hc')
      have hlast : c ∈ calls ++ [c] := List.mem_append_right _ (List.mem_singleton.mpr rfl)
      rw [session_snoc, forall_split_snoc, ih hcalls' hline', List.pairwise_append]
      have hanswers : Answers d (session d calls w₀).2 (session d calls w₀).1 := by
        rw [← hstart]
        exact answers_session d w calls hcalls'
      -- The last call is answered as it should exactly when it is not confusable.
      have hstep := fun hpair => deduplicated_iff hsha hanswers
        (call_effect d (hcalls c hlast) c.1)
        ((forall_answered fun p => OneLine p.taskId).mpr hline') (hline c hlast)
        (session_clear d hpair w₀)
      constructor
      · rintro ⟨hpair, hiff⟩
        refine ⟨hpair, List.pairwise_singleton _ _, fun p hp q hq => ?_⟩
        rw [List.mem_singleton.mp hq]
        exact (forall_answered fun p => ¬ Confusable d p c.1).mp ((hstep hpair).mp hiff) p hp
      · rintro ⟨hpair, -, hnone⟩
        refine ⟨hpair, (hstep hpair).mpr ?_⟩
        refine (forall_answered fun p => ¬ Confusable d p c.1).mpr fun p hp => ?_
        exact hnone p hp c (List.mem_singleton.mpr rfl)

/-- What succeeded in a session with no confusable calls is recorded. -/
theorem session_recorded {d : Deployment} (hsha : Function.Injective d.sha256) (w : World)
    {calls : List (GuestCall × (Nat → Env))} (hcalls : ∀ c ∈ calls, ∀ n, (c.2 n).Succeeds)
    (hline : ∀ c ∈ calls, OneLine c.1.taskId)
    (hpair : calls.Pairwise fun p c => ¬ Confusable d p.1 c.1) :
    ∀ a ∈ (session d calls { w with workOrders := .empty, outbox := .empty }).1, a.Succeeded →
      RecordedIn (session d calls { w with workOrders := .empty, outbox := .empty }).2 a.call :=
  succeeded_recorded hsha (answers_session d w calls hcalls)
    ((forall_answered fun c => OneLine c.taskId).mpr hline) (session_clear d hpair _)

/-- A session of authorised calls in one-line tasks is answered honestly exactly
    when no two of its calls are confusable. -/
theorem honest_iff (d : Deployment) (hsha : Function.Injective d.sha256) (w : World)
    (calls : List (GuestCall × (Nat → Env))) (hcalls : ∀ c ∈ calls, ∀ n, (c.2 n).Succeeds)
    (hline : ∀ c ∈ calls, OneLine c.1.taskId) :
    Honest (session d calls { w with workOrders := .empty, outbox := .empty }).1
        (session d calls { w with workOrders := .empty, outbox := .empty }).2 ↔
      calls.Pairwise fun p c => ¬ Confusable d p.1 c.1 := by
  have hfirst := session_deduplicated_iff hsha w hcalls hline
  -- What is recorded follows once nothing is confusable.
  refine ⟨fun h => hfirst.mp h.1, fun hpair => ⟨hfirst.mpr hpair, ?_⟩⟩
  exact session_recorded hsha w hcalls hline hpair

/-- A session whose calls have no newline before their last field is answered
    honestly. -/
theorem honest_of_oneLine (d : Deployment) (hsha : Function.Injective d.sha256) (w : World)
    (calls : List (GuestCall × (Nat → Env))) (hcalls : ∀ c ∈ calls, ∀ n, (c.2 n).Succeeds)
    (hline : ∀ c ∈ calls, OneLine c.1.taskId)
    (hfields : ∀ c ∈ calls, ∀ field ∈ c.1.content.dropLast, OneLine field) :
    Honest (session d calls { w with workOrders := .empty, outbox := .empty }).1
      (session d calls { w with workOrders := .empty, outbox := .empty }).2 := by
  have hpair : calls.Pairwise fun p c => ¬ Confusable d p.1 c.1 := by
    refine List.pairwise_of_forall_mem_list fun p hp c hc hconf => ?_
    rcases confusable_newline hconf with ⟨field, hmem, hnewline⟩
    rcases List.mem_append.mp hmem with hmem | hmem
    · exact hfields p hp field hmem hnewline
    · exact hfields c hc field hmem hnewline
  exact ⟨(session_deduplicated_iff hsha w hcalls hline).mpr hpair,
    session_recorded hsha w hcalls hline hpair⟩

/-- One message twice. -/
def repeatedMessage : List (GuestCall × (Nat → Env)) :=
  List.replicate 2 (.sendGuestMessage "R-3001" "Pool closed" sampleTask [], fun _ => .granting)

theorem honest_repeated : Honest
    (session .sample repeatedMessage { World.empty with workOrders := .empty, outbox := .empty }).1
    (session .sample repeatedMessage
      { World.empty with workOrders := .empty, outbox := .empty }).2 := by
  refine (honest_iff .sample sampleSha256_injective World.empty repeatedMessage
    (fun c hc => ?_) fun c hc => ?_).mpr ?_
  · rw [List.eq_of_mem_replicate hc]
    exact fun _ => granting_succeeds
  · rw [List.eq_of_mem_replicate hc]
    exact sampleTask_oneLine
  · exact List.pairwise_replicate.mpr (Or.inr fun hconf => hconf.2.2.2.2.1 rfl)

/-- Two messages about two reservations, the second with a newline moved from
    the message to the reservation. -/
def movedNewline : List (GuestCall × (Nat → Env)) :=
  [(.sendGuestMessage "R-3001" "Pool closed\nSorry" sampleTask [], fun _ => .granting),
    (.sendGuestMessage "R-3001\nPool closed" "Sorry" sampleTask [], fun _ => .granting)]

theorem movedNewline_confusable :
    Confusable .sample (.sendGuestMessage "R-3001" "Pool closed\nSorry" sampleTask [])
      (.sendGuestMessage "R-3001\nPool closed" "Sorry" sampleTask []) := by
  have hpool : strip "Pool closed\nSorry" = "Pool closed\nSorry" := by decide +kernel
  have hreply : strip "Sorry" = "Sorry" := by decide +kernel
  refine ⟨?_, ?_, rfl, rfl, ?_⟩
  · exact Bool.and_eq_true_iff.mpr ⟨decide_eq_true (by rw [hpool]; decide), rfl⟩
  · exact Bool.and_eq_true_iff.mpr ⟨decide_eq_true (by rw [hreply]; decide), rfl⟩
  · simp only [GuestCall.content, hpool, hreply]
    exact ⟨by decide, by decide⟩

/-- The second message is answered as a repetition of the first. -/
theorem moved_newline_deduplicates : ¬ ∀ (d : Deployment), Function.Injective d.sha256 →
    ∀ calls : List (GuestCall × (Nat → Env)), (∀ c ∈ calls, ∀ n, (c.2 n).Succeeds) →
      (∀ c ∈ calls, OneLine c.1.taskId) →
      Honest (session d calls { World.empty with workOrders := .empty, outbox := .empty }).1
        (session d calls { World.empty with workOrders := .empty, outbox := .empty }).2 := by
  intro h
  have hsucceeds : ∀ c ∈ movedNewline, ∀ n, (c.2 n).Succeeds := by
    intro c hc n
    rcases List.mem_pair.mp hc with rfl | rfl
    · exact granting_succeeds
    · exact granting_succeeds
  have hline : ∀ c ∈ movedNewline, OneLine c.1.taskId := by
    intro c hc
    rcases List.mem_pair.mp hc with rfl | rfl
    · exact sampleTask_oneLine
    · exact sampleTask_oneLine
  have hhonest := (h .sample sampleSha256_injective movedNewline hsucceeds hline).1 [_] _ [] rfl
  have hfirst := answers_session .sample World.empty (movedNewline.take 1)
    fun c hc => hsucceeds c (List.mem_of_mem_take hc)
  have hclear := (deduplicated_iff
    (c := .sendGuestMessage "R-3001\nPool closed" "Sorry" sampleTask []) sampleSha256_injective
    hfirst (call_effect .sample (fun _ => granting_succeeds) _)
    (fun a ha => by rw [List.mem_singleton.mp ha]; exact sampleTask_oneLine) sampleTask_oneLine
    (fun a ha b hb => by
      rw [List.mem_singleton.mp ha, List.mem_singleton.mp hb]
      exact fun hconf => hconf.2.2.2.2.1 rfl)).mp hhonest
  exact hclear _ (List.mem_singleton.mpr rfl) movedNewline_confusable

end Asante
