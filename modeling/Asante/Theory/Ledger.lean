import Asante.Theory.Discipline

/-!
# The Credit Ledger

Who wrote what to the ledger, and under which key.

Both credit tools derive the key of a ledger call from what they write, so the
writes of a world say everything about the ledger: `Ledgered` states that the
ledger is in step with them and that each is under the key its writer derives.
It is kept by every step whose ledger call is `Keyed`, which is every step of
every tool.

The two key spaces are apart by their first letters. Within the direct keys,
the joined text can be taken apart again: the task id is free of newlines, so
it ends at the first one after the action, and the rendered amount is one line,
so it starts after the last; whatever is left is the reservation id, which may
contain newlines itself. Amounts are therefore told apart by their renderings,
and that is how direct credits are counted. What the rendering keeps of an
amount is the cents and whether it is negative, so a negative amount that
rounds to zero is keyed apart from zero. `SameCents` is that reading of a
rendering. It is one of exact numbers, among which there is no negative zero.

## Main definitions

* `writerKey`, `Keyed`: The key a writer derives, and commands that use it.
* `Ledgered`: The ledger is in step with the writes.
* `SameCents`: Amounts that are rendered alike.
* `directWrites`: The direct credits for one task, reservation and rendered
  amount.

## Theorems

* `issue_cases`: A ledger call repeats a write or adds one.
* `ledgered_step`: Keyed steps keep the ledger in step.
* `fixed2_eq_iff`: What a rendering keeps of an amount.
* `directKey_inj`: A direct key determines what it was derived from.
* `keys_disjoint`: No approved key is a direct key.
* `direct_credit_once`: Direct credits happen exactly once.
-/

namespace Asante

open Core.Prog Core.KeyedLog

/-- The key a writer derives for a credit. -/
def writerKey (d : Deployment) : Writer → Credit → String
  | .issueCredit taskId, credit =>
    creditDigest d.sha256 taskId credit.reservationId credit.amount
  | .approvedExecutor approvalId, _ => approvedCreditKey approvalId

/-- A ledger call uses the key its writer derives. -/
def Keyed (d : Deployment) : Cmd → Prop
  | .ledgerIssue writer credit key => key = some (writerKey d writer credit)
  | _ => True

/-- The ledger is in step with the writes, each under its writer's key. -/
structure Ledgered (d : Deployment) (w : World) : Prop where
  tracks : Tracks w.ledger (w.writes.map fun wr => (wr.key, wr.credit))
  keyed : ∀ wr ∈ w.writes, wr.key = some (writerKey d wr.writer wr.credit)

section Steps

variable {d : Deployment} {w : World}

/-- The credits in the ledger are the written ones, in order. -/
theorem ledgered_entries (h : Ledgered d w) : w.ledger.entries = w.writes.map (·.credit) := by
  rw [h.tracks.entries, List.map_map]
  rfl

/-- Two writes under one key are one write. -/
theorem ledgered_once (h : Ledgered d w) :
    w.writes.Pairwise fun wr other => wr.key ≠ other.key := by
  have hpair := List.pairwise_map.mp h.tracks.once
  refine hpair.imp_of_mem fun {wr other} hwr _ hsame heq => ?_
  have hnone := hsame heq
  -- Keyed writes have a key, so two under one key would both have none.
  rw [h.keyed wr hwr] at hnone
  exact absurd hnone (by simp only [reduceCtorEq, not_false_eq_true])

/-- A ledger call is answered with the write its key is bound to, and changes
    nothing, or it is a write of its own. -/
theorem issue_cases (h : Ledgered d w) (writer : Writer) (credit : Credit) (k : String) :
    (∃ wr ∈ w.writes, wr.key = some k ∧ w.issue writer credit (some k) = w ∧
        (ledgerIssue credit (some k) w.ledger).1 = withDeduplicated wr.credit.toDict true) ∨
      ((∀ wr ∈ w.writes, wr.key ≠ some k) ∧
        (w.issue writer credit (some k)).writes = w.writes ++ [⟨writer, some k, credit⟩] ∧
        Tracks (w.issue writer credit (some k)).ledger
          (w.writes.map (fun wr => (wr.key, wr.credit)) ++ [(some k, credit)]) ∧
        (ledgerIssue credit (some k) w.ledger).1 = withDeduplicated credit.toDict false) := by
  -- Either the record repeats an entry bound to the key, or the key is new.
  rcases tracks_record h.tracks (some k) credit with
    ⟨k', b, hk, hmem, hrec⟩ | ⟨hnew, hanswer, htracks⟩
  · rcases List.mem_map.mp hmem with ⟨wr, hwr, hpair⟩
    have hkey : wr.key = some k := by
      rw [Option.some.inj hk]
      exact congrArg Prod.fst hpair
    have hcredit : wr.credit = b := congrArg Prod.snd hpair
    refine Or.inl ⟨wr, hwr, hkey, ?_, ?_⟩
    · unfold World.issue ledgerIssue
      rw [hrec]
      rfl
    · unfold ledgerIssue
      rw [hrec, hcredit]
  · refine Or.inr ⟨fun wr hwr hkey => ?_, ?_, htracks, ?_⟩
    · exact hnew k rfl wr.credit (List.mem_map.mpr ⟨wr, hwr, by rw [hkey]⟩)
    · unfold World.issue
      rw [hanswer]
      rfl
    · unfold ledgerIssue
      dsimp only
      rw [hanswer]

/-- A ledger call keeps the ledger in step. -/
theorem ledgered_issue (h : Ledgered d w) (writer : Writer) (credit : Credit) :
    Ledgered d (w.issue writer credit (some (writerKey d writer credit))) ∧
      w.writes <+: (w.issue writer credit (some (writerKey d writer credit))).writes := by
  rcases issue_cases h writer credit (writerKey d writer credit) with
    ⟨wr, _, _, hsame, _⟩ | ⟨_, hwrites, htracks, _⟩
  · rw [hsame]
    exact ⟨h, List.prefix_rfl⟩
  · refine ⟨⟨?_, fun wr hwr => ?_⟩, ?_⟩
    · rw [hwrites, List.map_append]
      exact htracks
    · rw [hwrites] at hwr
      rcases List.mem_append.mp hwr with hold | hnew
      · exact h.keyed wr hold
      · rw [List.mem_singleton.mp hnew]
    · rw [hwrites]
      exact List.prefix_append _ _

/-- Every command but a ledger call leaves the ledger and its history alone. -/
theorem perform_ledger {c : Cmd} (h : ∀ writer credit key, c ≠ .ledgerIssue writer credit key)
    (env : Env) : ((perform c env w).2.ledger, (perform c env w).2.writes) =
      (w.ledger, w.writes) := by
  -- A fault may drop the step; neither choice touches the ledger.
  have hview : ∀ {X : Type} (step : Except Exc X × World),
      (step.2.ledger, step.2.writes) = (w.ledger, w.writes) →
      ((env.fault.apply w step).2.ledger, (env.fault.apply w step).2.writes) =
        (w.ledger, w.writes) :=
    fun step h => apply_world (fun w => (w.ledger, w.writes)) env.fault w step h
  cases c with
  | ledgerIssue writer credit key => exact absurd rfl (h writer credit key)
  | maintenanceCreate r key => exact hview _ rfl
  | outboxSend reservationId message key => exact hview _ rfl
  | createCreditRequest r => exact hview _ rfl
  | decideLocked approvalId approved decidedBy note => exact hview _ rfl
  | markExecutedLocked approvalId result => exact hview _ rfl
  | findCreditRequest taskId reservationId amount => exact hview _ rfl
  | requireRecord approvalId => exact hview _ rfl
  | cacheGet key => exact hview _ rfl
  | cachePut key value ttlSeconds => exact hview _ rfl
  | providerGetReservation reservationId => exact hview _ rfl
  | registerGrant grant => exact hview _ rfl
  | extractTraceContext metadata => exact hview _ rfl
  | _ => rfl

theorem perform_issue (writer : Writer) (credit : Credit) (key : Option String) (env : Env) :
    perform (.ledgerIssue writer credit key) env w = env.fault.apply w
      (.ok (ledgerIssue credit key w.ledger).1, w.issue writer credit key) := rfl

/-- A ledger call is lost to a fault, or is made. -/
theorem perform_issue_cases (writer : Writer) (credit : Credit) (key : Option String) (env : Env) :
    (perform (.ledgerIssue writer credit key) env w).2 = w ∨
      (perform (.ledgerIssue writer credit key) env w).2 = w.issue writer credit key :=
  apply_cases env.fault w (.ok (ledgerIssue credit key w.ledger).1, w.issue writer credit key)

/-- A keyed step keeps the ledger in step, and only adds to the writes. -/
theorem ledgered_step {c : Cmd} (hc : Keyed d c) (h : Ledgered d w) (env : Env) :
    Ledgered d (perform c env w).2 ∧ w.writes <+: (perform c env w).2.writes := by
  by_cases hissue : ∃ writer credit key, c = .ledgerIssue writer credit key
  · rcases hissue with ⟨writer, credit, key, rfl⟩
    have hkey : key = some (writerKey d writer credit) := hc
    rcases perform_issue_cases writer credit key env with hsame | hcall
    · rw [hsame]
      exact ⟨h, List.prefix_rfl⟩
    · rw [hcall, hkey]
      exact ledgered_issue h writer credit
  · have hview := perform_ledger (w := w)
      (fun writer credit key hcall => hissue ⟨writer, credit, key, hcall⟩) env
    rcases Prod.mk.inj hview with ⟨hledger, hwrites⟩
    refine ⟨⟨?_, ?_⟩, ?_⟩
    · rw [hledger, hwrites]
      exact h.tracks
    · rw [hwrites]
      exact h.keyed
    · exact hwrites.symm ▸ List.prefix_rfl

/-- A ledger call that is answered was answered with a write under its key. -/
theorem perform_issue_answer (h : Ledgered d w) (writer : Writer) (credit : Credit) (k : String)
    (env : Env) {resp : PyDict}
    (hresp : (perform (.ledgerIssue writer credit (some k)) env w).1 = .ok resp) :
    ∃ wr ∈ (perform (.ledgerIssue writer credit (some k)) env w).2.writes, wr.key = some k ∧
      ∃ deduplicated, resp = withDeduplicated wr.credit.toDict deduplicated := by
  rw [perform_issue] at hresp ⊢
  rcases apply_ok hresp with ⟨hanswer, hworld⟩
  rw [hworld]
  have hanswer := Except.ok.inj hanswer
  rcases issue_cases h writer credit k with ⟨wr, hwr, hkey, hsame, hrep⟩ | ⟨_, hwrites, _, hnew⟩
  · refine ⟨wr, ?_, hkey, true, by rw [← hanswer, hrep]⟩
    -- A repeated call answers with the write the key is bound to.
    change wr ∈ (w.issue writer credit (some k)).writes
    rwa [hsame]
  · -- A new call answers with its own write.
    refine ⟨⟨writer, some k, credit⟩, ?_, rfl, false, by rw [← hanswer, hnew]⟩
    change _ ∈ (w.issue writer credit (some k)).writes
    rw [hwrites]
    exact List.mem_append_right _ (List.mem_singleton.mpr rfl)

end Steps

/-- Amounts that are rendered alike: the same cents, and negative alike, so that
    a negative amount rounding to zero is told from zero. -/
def SameCents (a b : ℚ) : Prop :=
  roundCents a = roundCents b ∧ (a < 0 ↔ b < 0)

theorem fixed2_eq_iff {a b : ℚ} : fixed2 a = fixed2 b ↔ SameCents a b := by
  constructor
  · intro h
    rcases fixed2_inj h with ⟨hsign, hcents⟩
    refine ⟨?_, hsign⟩
    -- The sign and the cents are the text, so they give the rounded amount.
    unfold roundCents
    rw [hcents, if_congr hsign rfl rfl]
  · rintro ⟨hround, hsign⟩
    refine fixed2_congr hsign ?_
    unfold roundCents at hround
    rw [if_congr hsign rfl rfl] at hround
    -- With the sign known, the rounded amounts are the cents up to that sign.
    by_cases hb : b < 0
    · rw [if_pos hb, if_pos hb] at hround
      omega
    · rw [if_neg hb, if_neg hb] at hround
      omega

instance (a b : ℚ) : Decidable (SameCents a b) :=
  decidable_of_iff (fixed2 a = fixed2 b) fixed2_eq_iff

/-- A task id as the callers draw it: without a newline. -/
def OneLine (s : String) : Prop :=
  '\n' ∉ s.toList

instance (s : String) : Decidable (OneLine s) :=
  inferInstanceAs (Decidable ('\n' ∉ s.toList))

/-- A direct key determines the task, the reservation and the rendered amount
    it was derived from. -/
theorem directKey_inj {sha256 : String → String} (hsha : Function.Injective sha256)
    {taskId taskId' reservationId reservationId' : String} {amount amount' : ℚ}
    (htask : OneLine taskId) (htask' : OneLine taskId')
    (h : creditDigest sha256 taskId reservationId amount =
      creditDigest sha256 taskId' reservationId' amount') :
    taskId = taskId' ∧ reservationId = reservationId' ∧ fixed2 amount = fixed2 amount' := by
  -- The hash is injective and the tag is common, so the hashed texts agree.
  have htext := hsha ((String.append_right_inj "credit:").mp h)
  unfold creditCanonical at htext
  have hletters := congrArg String.toList htext
  simp only [String.toList_append, List.append_assoc] at hletters
  have hcut := List.append_cancel_left hletters
  have hline : ("\n" : String).toList = ['\n'] := rfl
  rw [hline, List.singleton_append, List.singleton_append] at hcut
  simp only [List.singleton_append] at hcut
  -- Three parts around two separators. The task id and the amount have no newline, so the first
  -- newline ends the one and the last newline starts the other.
  rcases Core.append_sep_mid htask htask' (newline_not_mem_fixed2 amount)
    (newline_not_mem_fixed2 amount') hcut with ⟨h1, h2, h3⟩
  exact ⟨String.toList_inj.mp h1, String.toList_inj.mp h2, String.toList_inj.mp h3⟩

theorem directKey_congr (sha256 : String → String) (taskId reservationId : String)
    {amount amount' : ℚ} (h : fixed2 amount = fixed2 amount') :
    creditDigest sha256 taskId reservationId amount =
      creditDigest sha256 taskId reservationId amount' := by
  unfold creditDigest creditCanonical
  rw [h]

/-- No approved key is a direct key: their first letters differ. -/
theorem keys_disjoint (sha256 : String → String) (approvalId taskId reservationId : String)
    (amount : ℚ) : approvedCreditKey approvalId ≠
      creditDigest sha256 taskId reservationId amount := by
  intro h
  have hletters := congrArg String.toList h
  unfold approvedCreditKey creditDigest at hletters
  rw [String.toList_append, String.toList_append] at hletters
  have hhead := congrArg List.head? hletters
  -- `approved-credit:` and `credit:` start with different letters.
  exact absurd hhead (by simp)

theorem approvedKey_inj {approvalId approvalId' : String}
    (h : approvedCreditKey approvalId = approvedCreditKey approvalId') :
    approvalId = approvalId' :=
  (String.append_right_inj "approved-credit:").mp h

/-- A credit is written by the tool for one task, one reservation and an amount
    rendered as the given one. -/
def Write.IsDirect (wr : Write) (taskId reservationId : String) (amount : ℚ) : Prop :=
  wr.writer = .issueCredit taskId ∧ wr.credit.reservationId = reservationId ∧
    fixed2 wr.credit.amount = fixed2 amount

instance (wr : Write) (taskId reservationId : String) (amount : ℚ) :
    Decidable (wr.IsDirect taskId reservationId amount) :=
  inferInstanceAs (Decidable (_ ∧ _ ∧ _))

/-- The direct credits for one task, reservation and rendered amount. -/
def directWrites (w : World) (taskId reservationId : String) (amount : ℚ) : List Write :=
  w.writes.filter fun wr => wr.IsDirect taskId reservationId amount

/-- Two writers are the same tool: both the direct tool, or the executor of one
    approval. -/
def Writer.SameTool : Writer → Writer → Prop
  | .issueCredit _, .issueCredit _ => True
  | .approvedExecutor approvalId, .approvedExecutor approvalId' => approvalId = approvalId'
  | _, _ => False

section Once

variable {d : Deployment} {w : World}

/-- Writes of one key are by one tool. -/
theorem sameTool_of_key {writer writer' : Writer} {credit credit' : Credit}
    (h : writerKey d writer credit = writerKey d writer' credit') : writer.SameTool writer' := by
  cases writer with
  | issueCredit taskId =>
      cases writer' with
      | issueCredit taskId' => trivial
      | approvedExecutor approvalId => exact absurd h.symm (keys_disjoint _ _ _ _ _)
  | approvedExecutor approvalId =>
      cases writer' with
      | issueCredit taskId => exact absurd h (keys_disjoint _ _ _ _ _)
      | approvedExecutor approvalId' => exact approvedKey_inj h

/-- Writes chosen so that they share a key are at most one. -/
theorem filter_le_one (h : Ledgered d w) (chosen : Write → Bool) (k : String)
    (hkey : ∀ wr ∈ w.writes, chosen wr = true → wr.key = some k) :
    (w.writes.filter chosen).length ≤ 1 := by
  have hpair : (w.writes.filter chosen).Pairwise fun wr other => wr.key ≠ other.key :=
    (ledgered_once h).filter _
  have hall : ∀ wr ∈ w.writes.filter chosen, wr.key = some k := by
    intro wr hwr
    rcases List.mem_filter.mp hwr with ⟨hmem, hchosen⟩
    exact hkey wr hmem hchosen
  rcases hlist : w.writes.filter chosen with _ | ⟨first, _ | ⟨second, rest⟩⟩
  · exact Nat.zero_le 1
  · exact Nat.le_refl 1
  · -- A second one would be under the key of the first.
    rw [hlist] at hall hpair
    have h1 := hall first List.mem_cons_self
    have h2 := hall second (List.mem_cons_of_mem _ List.mem_cons_self)
    exact absurd (h1.trans h2.symm) (List.rel_of_pairwise_cons hpair List.mem_cons_self)

/-- Direct credits for one task, reservation and rendered amount share a key, so
    there is at most one. -/
theorem directWrites_le_one (h : Ledgered d w) (taskId reservationId : String) (amount : ℚ) :
    (directWrites w taskId reservationId amount).length ≤ 1 := by
  refine filter_le_one h _ (creditDigest d.sha256 taskId reservationId amount) ?_
  intro wr hwr hdirect
  rcases of_decide_eq_true hdirect with ⟨hwriter, hreservation, htext⟩
  rw [h.keyed wr hwr, hwriter, writerKey, hreservation, directKey_congr _ _ _ htext]

/-- A write under a direct key is a direct write for what the key was derived
    from. -/
theorem isDirect_of_key (hsha : Function.Injective d.sha256) (h : Ledgered d w)
    (hline : ∀ wr ∈ w.writes, ∀ taskId, wr.writer = .issueCredit taskId → OneLine taskId)
    {taskId reservationId : String} {amount : ℚ} (htask : OneLine taskId) {wr : Write}
    (hwr : wr ∈ w.writes)
    (hkey : wr.key = some (creditDigest d.sha256 taskId reservationId amount)) :
    wr ∈ directWrites w taskId reservationId amount := by
  have hsame := (h.keyed wr hwr).symm.trans hkey
  rcases hwriter : wr.writer with taskId' | approvalId
  · rw [hwriter] at hsame
    rcases directKey_inj hsha (hline wr hwr taskId' hwriter) htask (Option.some.inj hsame) with
      ⟨ht, hr, hc⟩
    exact List.mem_filter.mpr ⟨hwr, decide_eq_true ⟨by rw [hwriter, ht], hr, hc⟩⟩
  · -- An approved credit has a key of the other kind.
    rw [hwriter] at hsame
    exact absurd (Option.some.inj hsame) (keys_disjoint _ _ _ _ _)

end Once

/-- Commands that keep the ledger in step and write for tasks of one line. -/
def Proper (d : Deployment) (c : Cmd) : Prop :=
  Keyed d c ∧ ∀ taskId credit key, c = .ledgerIssue (.issueCredit taskId) credit key →
    OneLine taskId

/-- The task id of a direct credit call is one line. -/
def ToolCall.OneLineTask : ToolCall → Prop
  | issueCredit _ _ _ _ task _ => OneLine task.taskId
  | _ => True

theorem proper_other (d : Deployment) {c : Cmd}
    (h : ∀ writer credit key, c ≠ .ledgerIssue writer credit key) : Proper d c := by
  refine ⟨?_, fun taskId credit key hc => absurd hc (h _ _ _)⟩
  cases c with
  | ledgerIssue writer credit key => exact absurd rfl (h writer credit key)
  | _ => trivial

/-- Every command of every tool call is proper. -/
theorem tool_proper (d : Deployment) (call : ToolCall) (h : call.OneLineTask) :
    Issues (Proper d) (call.code d) := by
  refine issues_tool (fun c hc => proper_other d fun writer credit key hcall => ?_) d call
    (fun now => ⟨proper_other d ?_, fun permit => proper_other d ?_⟩) fun c hc => ?_
  · -- A background command is no ledger call.
    rw [hcall] at hc
    exact absurd hc Bool.noConfusion
  · exact fun _ _ _ hcall => Cmd.noConfusion hcall
  · exact fun _ _ _ hcall => Cmd.noConfusion hcall
  · cases call with
    | issueCredit retryPolicy reservationId amount reason task chain =>
        rw [show c = _ from hc]
        refine ⟨rfl, fun taskId credit key hcall => ?_⟩
        cases hcall
        exact h
    | requestGuestCredit reservationId amount reason task chain =>
        rcases hc with ⟨r, rfl⟩
        exact proper_other d fun _ _ _ hcall => Cmd.noConfusion hcall
    | executeApproved approval task chain =>
        rcases hc with rfl | ⟨result, rfl⟩
        · exact ⟨rfl, fun _ _ _ hcall => by cases hcall⟩
        · exact proper_other d fun _ _ _ hcall => Cmd.noConfusion hcall
    | _ => exact absurd hc id

/-- A ledger call adds at most its own write. -/
theorem issue_writes {w : World} {writer : Writer} {credit : Credit} {key : Option String} :
    ∀ wr ∈ (w.issue writer credit key).writes, wr ∈ w.writes ∨ wr = ⟨writer, key, credit⟩ := by
  intro wr hwr
  unfold World.issue at hwr
  dsimp only at hwr
  split at hwr
  · exact Or.inl hwr
  · rcases List.mem_append.mp hwr with hold | hnew
    · exact Or.inl hold
    · exact Or.inr (List.mem_singleton.mp hnew)

/-- A command leaves the writes as they were, but for the one it makes. -/
theorem perform_writes {c : Cmd} {env : Env} {w : World} :
    ∀ wr ∈ (perform c env w).2.writes, wr ∈ w.writes ∨
      c = .ledgerIssue wr.writer wr.credit wr.key := by
  intro wr hwr
  by_cases hissue : ∃ writer credit key, c = .ledgerIssue writer credit key
  · rcases hissue with ⟨writer, credit, key, rfl⟩
    rcases perform_issue_cases writer credit key env with hsame | hcall
    · rw [hsame] at hwr
      exact Or.inl hwr
    · rw [hcall] at hwr
      rcases issue_writes wr hwr with hold | rfl
      · exact Or.inl hold
      · exact Or.inr rfl
  · have hview := perform_ledger (w := w)
      (fun writer credit key hcall => hissue ⟨writer, credit, key, hcall⟩) env
    rw [(Prod.mk.inj hview).2] at hwr
    exact Or.inl hwr

/-- The discipline of the ledger: in step, with tasks of one line, and its
    history only grows. -/
def ledgerDiscipline (d : Deployment) : AppDiscipline where
  inv := fun w => Ledgered d w ∧
    ∀ wr ∈ w.writes, ∀ taskId, wr.writer = .issueCredit taskId → OneLine taskId
  le := fun v w => v.writes <+: w.writes
  adm := fun _ _ _ => True
  refl := fun _ => List.prefix_rfl
  trans := fun h1 h2 => h1.trans h2
  core := by
    rintro v v' hcore ⟨hledgered, hline⟩
    rcases Prod.mk.inj hcore with ⟨hledger, hrest⟩
    rcases Prod.mk.inj hrest with ⟨hwrites, _⟩
    refine ⟨⟨⟨?_, ?_⟩, ?_⟩, ?_⟩
    · rw [hledger, hwrites]
      exact hledgered.tracks
    · rw [hwrites]
      exact hledgered.keyed
    · rw [hwrites]
      exact hline
    · exact hwrites.symm ▸ List.prefix_rfl

/-- A proper command keeps the discipline of the ledger. -/
theorem proper_step (d : Deployment) {c : Cmd} (hc : Proper d c) (env : Env) (w : World)
    (hinv : (ledgerDiscipline d).inv w) :
    (ledgerDiscipline d).inv (perform c env w).2 ∧
      (ledgerDiscipline d).le w (perform c env w).2 := by
  rcases hinv with ⟨hledgered, hline⟩
  rcases ledgered_step hc.1 hledgered env with ⟨hledgered', hle⟩
  refine ⟨⟨hledgered', fun wr hwr taskId hwriter => ?_⟩, hle⟩
  rcases perform_writes wr hwr with hold | rfl
  · exact hline wr hold taskId hwriter
  · -- A new write has the call's writer, whose task is proper.
    rw [hwriter] at hc
    exact hc.2 taskId _ _ rfl

/-- What a direct credit call has established when it answers `issued`: a write
    under its key. -/
def IssuedWritten (d : Deployment) : ToolCall → Except Exc PyDict → World → Prop
  | .issueCredit _ reservationId amount _ task _, .ok resp, w =>
    resp.get? "status" = some (.str "issued") → ∃ wr ∈ w.writes,
      wr.key = some (creditDigest d.sha256 task.taskId reservationId amount)
  | _, _, _ => True

theorem issuedWritten_stable (d : Deployment) (call : ToolCall) :
    (ledgerDiscipline d).sys.Stable (IssuedWritten d call) := by
  intro r v v' hle h
  cases call with
  | issueCredit retryPolicy reservationId amount reason task chain =>
      cases r with
      | ok resp =>
          intro hstatus
          rcases h hstatus with ⟨wr, hwr, hkey⟩
          exact ⟨wr, hle.subset hwr, hkey⟩
      | error e => trivial
  | _ => trivial

/-- A direct credit call keeps the discipline, and has written what it answers
    as issued. -/
theorem safe_issueCredit (d : Deployment) (retryPolicy : RetryPolicy) (reservationId : String)
    (amount : ℚ) (reason : String) (task : TaskContext) (chain : List DelegationGrant)
    (htask : OneLine task.taskId) (w : World) :
    (ledgerDiscipline d).sys.Safe
      (IssuedWritten d (.issueCredit retryPolicy reservationId amount reason task chain))
      (issueCredit d retryPolicy reservationId amount reason task chain) w := by
  have hblocked : ∀ effect reason' v, IssuedWritten d
      (.issueCredit retryPolicy reservationId amount reason task chain)
      (.ok (blocked effect reason')) v :=
    fun _ _ _ hstatus => absurd (Option.some.inj hstatus) (by simp)
  refine safe_secured _ (fun _ _ _ _ _ _ _ _ => trivial)
    (fun _ _ v _ _ _ _ effect reason' => hblocked effect reason' v)
    (fun _ _ _ v _ _ _ _ effect reason' => hblocked effect reason' v) ?_
  intro now permit env v _ _ _ _
  rcases buildCreditIdempotencyKey_cases d.sha256 d.digestError task.taskId reservationId amount
    with ⟨e, -, hkey⟩ | ⟨-, hkey⟩
  · -- Without a key nothing is written, and nothing is answered.
    rw [hkey]
    trivial
  rw [hkey, ofExcept_ok, done_bind]
  refine Core.Discipline.safe_bind _ _ _ _ _ (safe_markUnknownOnError _ ?_)
  refine safe_retry _ retryPolicy (fun e v' v'' _ => trivial) (fun v' => ?_) _ _ _
  -- One attempt: what it answers with was written, and stays written.
  intro u _ hinv env' _
  rcases proper_step d (c := .ledgerIssue (.issueCredit task.taskId)
    ⟨reservationId, amount, reason⟩
    (some (creditDigest d.sha256 task.taskId reservationId amount)))
    ⟨rfl, fun taskId credit key hc => by cases hc; exact htask⟩ env' u hinv with ⟨hinv', hle⟩
  refine ⟨hinv', hle, ?_⟩
  refine safe_ofExcept _ (fun resp hresp => ?_) (fun e _ v'' _ => trivial)
  rcases perform_issue_answer hinv.1 (.issueCredit task.taskId) ⟨reservationId, amount, reason⟩
    (creditDigest d.sha256 task.taskId reservationId amount) env' hresp with
    ⟨wr, hwr, hkey, _⟩
  refine safe_completeOrRaise _ (fun v'' _ hgrown => ?_) (fun _ _ _ _ _ => trivial)
  exact fun _ => ⟨wr, hgrown.subset hwr, hkey⟩

/-- Every tool call keeps the discipline of the ledger. -/
theorem safe_tool (d : Deployment) (call : ToolCall) (hcall : call.OneLineTask) (w : World) :
    (ledgerDiscipline d).sys.Safe (IssuedWritten d call) (call.code d) w := by
  have hproper : ∀ (hpost : ∀ r v, IssuedWritten d call r v),
      (ledgerDiscipline d).sys.Safe (IssuedWritten d call) (call.code d) w :=
    -- The other tools promise nothing about a direct credit.
    fun hpost => Core.Discipline.safe_of_issues _
      (fun c hc env v hinv _ => proper_step d hc env v hinv) _ (tool_proper d call hcall) hpost w
  cases call with
  | issueCredit retryPolicy reservationId amount reason task chain =>
      exact safe_issueCredit d retryPolicy reservationId amount reason task chain hcall w
  | _ => exact hproper fun _ _ => trivial

/-- Nothing issued yet. -/
def World.unissued (w : World) : World :=
  { w with ledger := .empty, writes := [] }

theorem unissued_inv (d : Deployment) (w : World) : (ledgerDiscipline d).inv w.unissued := by
  refine ⟨⟨tracks_empty, fun wr hwr => ?_⟩, fun wr hwr => ?_⟩
  · exact absurd hwr List.not_mem_nil
  · exact absurd hwr List.not_mem_nil

/-- A run of tool calls over a ledger that starts empty. -/
def issueRun (d : Deployment) (w : World) (sched : List (Core.Action ToolCall Env)) :
    Core.Config ToolCall Cmd Cmd.Answer Exc PyDict World :=
  (Core.Config.start w.unissued).exec perform (ToolCall.code d) sched

/-- Direct credits are issued exactly once, in every run of tool calls for tasks
    of one line over a ledger that starts empty, whatever Ruhusa answers and
    whatever fails: the ledger is the writes; no task, reservation and rendered
    amount has two direct credits, and it has one once a call for it answered
    that it was issued; and the key of a ledger call is bound to writes of its
    own tool only, the direct tool or the executor of the one approval. -/
theorem direct_credit_once (d : Deployment) (hsha : Function.Injective d.sha256) (w : World)
    (sched : List (Core.Action ToolCall Env))
    (htasks : ∀ call, Core.Action.spawn call ∈ sched → call.OneLineTask) :
    (issueRun d w sched).world.ledger.entries =
        (issueRun d w sched).world.writes.map (·.credit) ∧
    (∀ taskId reservationId amount,
      (directWrites (issueRun d w sched).world taskId reservationId amount).length ≤ 1) ∧
    (∀ th ∈ (issueRun d w sched).threads,
      ∀ retryPolicy reservationId amount reason task chain resp,
      th.call = .issueCredit retryPolicy reservationId amount reason task chain →
      th.rest = done resp → resp.get? "status" = some (.str "issued") →
      (directWrites (issueRun d w sched).world task.taskId reservationId amount).length = 1) ∧
    (∀ th ∈ (issueRun d w sched).threads, ∀ ev ∈ th.trace, ∀ writer credit key,
      ev.cmd = .ledgerIssue writer credit key →
      ∀ wr ∈ (issueRun d w sched).world.writes, wr.key = key → writer.SameTool wr.writer) := by
  have hsound := ((ledgerDiscipline d).sys.exec_sound (A := ToolCall.OneLineTask)
    (Q := IssuedWritten d) (issuedWritten_stable d) (fun call hcall v _ => safe_tool d call hcall v)
    sched _ ((ledgerDiscipline d).sys.start_sound (unissued_inv d w))
    ((ledgerDiscipline d).sys.conforms_of_forall (fun _ => True) (fun _ _ _ _ => trivial)
      sched htasks (fun _ _ _ => trivial) _)).1
  have hledgered : Ledgered d (issueRun d w sched).world := hsound.world.1
  refine ⟨ledgered_entries hledgered, directWrites_le_one hledgered, ?_, ?_⟩
  · intro th hth retryPolicy reservationId amount reason task chain resp hcall hrest hstatus
    rcases hsound.threads th hth with ⟨hline, hsafe⟩
    -- The postcondition of the call gives a write under its key, and that key gives the credit.
    rw [hrest, hcall] at hsafe
    rw [hcall] at hline
    rcases hsafe hstatus with ⟨wr, hwr, hkey⟩
    have hmem := isDirect_of_key hsha hledgered hsound.world.2 hline hwr hkey
    exact Nat.le_antisymm (directWrites_le_one hledgered _ _ _) (List.length_pos_of_mem hmem)
  · intro th hth ev hev writer credit key hcmd wr hwr hkey
    -- The command is on a walk of its call, so it was keyed when it was issued.
    have hwalk := Core.exec_walks perform (ToolCall.code d) w.unissued sched th hth
    have hissued := (issues_walks hwalk
      (tool_proper d th.call (hsound.threads th hth).1)).1 ev hev
    rw [hcmd] at hissued
    have hcallKey : key = some (writerKey d writer credit) := hissued.1
    rw [hcallKey, hledgered.keyed wr hwr] at hkey
    exact sameTool_of_key (Option.some.inj hkey).symm

theorem sampleTask_oneLine : OneLine sampleTask.taskId := by
  decide

/-- Two direct credits, one just below zero and one just above it. -/
def signedZeroSchedule : List (Core.Action ToolCall Env) :=
  .spawn (.issueCredit Deployment.sample.retryPolicy "R-3001" (-1 / 1000) "late check-in"
      sampleTask []) ::
    .spawn (.issueCredit Deployment.sample.retryPolicy "R-3001" (1 / 1000) "late check-in"
      sampleTask []) ::
    (List.replicate 5 (.advance 0 .granting) ++ List.replicate 5 (.advance 1 .granting))

/-- Both round to zero, and both are recorded. -/
theorem signed_zero_issued_twice :
    ¬ ∀ (d : Deployment), Function.Injective d.sha256 → ∀ (w : World)
      (sched : List (Core.Action ToolCall Env)),
      (∀ call, Core.Action.spawn call ∈ sched → call.OneLineTask) →
      ∀ taskId reservationId (amount : ℚ),
        ((issueRun d w sched).world.writes.filter fun wr =>
          wr.writer = .issueCredit taskId ∧ wr.credit.reservationId = reservationId ∧
            roundCents wr.credit.amount = roundCents amount).length ≤ 1 := by
  intro h
  have hline : ∀ call, Core.Action.spawn call ∈ signedZeroSchedule → call.OneLineTask := by
    intro call hcall
    simp only [signedZeroSchedule, List.mem_cons, Core.Action.spawn.injEq, List.mem_append,
      List.mem_replicate, reduceCtorEq, and_false, or_false] at hcall
    rcases hcall with rfl | rfl
    · exact sampleTask_oneLine
    · exact sampleTask_oneLine
  have hone := h .sample sampleSha256_injective World.empty signedZeroSchedule hline
    "7f" "R-3001" 0
  revert hone
  decide +kernel

/-- One direct credit, run to its end. -/
def creditSchedule : List (Core.Action ToolCall Env) :=
  .spawn (.issueCredit Deployment.sample.retryPolicy "R-3001" (25 / 2) "late check-in"
    sampleTask []) :: List.replicate 5 (.advance 0 .granting)

theorem direct_credit_once_sample :
    (directWrites (issueRun .sample World.empty creditSchedule).world "7f" "R-3001"
      (25 / 2)).length = 1 := by
  have hline : ∀ call, Core.Action.spawn call ∈ creditSchedule → call.OneLineTask := by
    intro call hcall
    simp only [creditSchedule, List.mem_cons, Core.Action.spawn.injEq, List.mem_replicate,
      reduceCtorEq, and_false, or_false] at hcall
    rw [hcall]
    exact sampleTask_oneLine
  exact (direct_credit_once .sample sampleSha256_injective World.empty creditSchedule hline).2.2.1
    _ (List.mem_singleton.mpr rfl) _ "R-3001" (25 / 2) "late check-in" sampleTask [] _ rfl rfl rfl

end Asante
