import AccountOS.Queue.Correctness.Footprint
import AccountOS.Queue.Producers
import AccountOS.Store.Rules

/-!
# Forged inflows

The worker takes a job for an inflow unless its event type is the name of a custom event, and the
name of a custom event is whatever the business says it is. A custom event with the name
`NOMBA_INFLOW` is written to the ledger as an inflow (`dispatch_forges_inflow`). While no custom
event has this name, or none at all, every inflow in the ledger was reported by Nomba, under the
secret of the business that owns the account, or simulated (`inflows_are_genuine`).
-/

namespace AccountOS

open Conc Sql WebhookProcessor

/-! ### What the system promises -/

/-- An entry without its reconciliation status. -/
def LedgerEntry.recorded (e : LedgerEntry) : LedgerEntry :=
  { e with reconciliationStatus := .pending }

namespace Db

/-- The customer of an account is a customer of the account's business. -/
def OwnersAgree (db : Db) : Prop :=
  ∀ a ∈ db.accounts, ∀ c ∈ db.customers, a.customerId = some c.id → c.businessId = a.businessId

/-- Accounts stay, with their numbers and their businesses. -/
def KeepsAccounts (db db' : Db) : Prop :=
  ∀ a ∈ db.accounts, ∃ a' ∈ db'.accounts,
    a'.id = a.id ∧ a'.accountNumber = a.accountNumber ∧ a'.businessId = a.businessId

end Db

/-- What the other services do: they write no INFLOW entry and put no job on the webhook queue, and
they keep the accounts and their owners. -/
structure Elsewhere (w w' : World) : Prop where
  unique : w.db.UniqueColumns → w'.db.UniqueColumns
  owners : w.db.OwnersAgree → w'.db.OwnersAgree
  accounts : w.db.KeepsAccounts w'.db
  inflows : ∀ e' ∈ w'.db.ledgerEntries, e'.direction = .inflow →
    ∃ e ∈ w.db.ledgerEntries, e.recorded = e'.recorded
  jobs : w'.webhookQueue ⊆ w.webhookQueue

/-- The queue only delivers jobs that were enqueued; it may deliver them in any order, and more than
once. -/
def Delivers (l : Call) (_ : Env) (w w' : World) : Prop :=
  match l with
  | .takeJob p => p ∈ w.webhookQueue
  | .elsewhere => Elsewhere w w'
  | _ => True

section Genuine

variable {ι : Type} (runtime : WebhookRuntime) (requests : ι → Request)

/-- The signature verifies under the secret of the business that owns the account. -/
def SignedFor (db : Db) (rawBody : RawBody) (signature accountNumber accountId : String) : Prop :=
  ∃ a ∈ db.accounts, a.id = accountId ∧ a.accountNumber = accountNumber ∧
    ∃ b ∈ db.businesses, b.id = a.businessId ∧
      ∃ encryptedSecret secret, b.nombaWebhookSecret = some encryptedSecret ∧
        runtime.decryptWebhookSecret encryptedSecret = .ok secret ∧
        signature = runtime.hmac secret rawBody

variable (hist : List (Event ι World Env Call))

/-- The job was put on the queue by this thread. -/
def EnqueuedBy (i : ι) (p : InflowPayload) : Prop :=
  ∃ ev ∈ hist, ev.who = i ∧ ev.call = .enqueueInflow p

/-- The thread is a webhook for the job, and it has verified the signature for the account. -/
def Verified (i : ι) (p : InflowPayload) (accountId : String) : Prop :=
  ∃ rawBody signature, requests i = .webhook (some rawBody) (some signature) ∧
    IsInflowJob runtime rawBody p ∧
    ∃ ev ∈ hist, ev.who = i ∧ SignedFor runtime ev.before.db rawBody signature p.accountNumber
      accountId

/-- The job was enqueued by `processInflow`, for a signature that verifies, or by
`simulateInflow`. -/
inductive GenuineJob (p : InflowPayload) (accountId : String) : Prop
  | webhook (i : ι) (verified : Verified runtime requests hist i p accountId)
      (enqueued : EnqueuedBy hist i p)
  | simulated (i : ι) (params : DemoService.SimulateInflowParams)
      (eventUuid transactionUuid : String)
      (request : requests i = .simulate params eventUuid transactionUuid)
      (job : p = DemoService.simulatedJob params eventUuid transactionUuid)
      (enqueued : EnqueuedBy hist i p)

/-- The entry was written by the worker for a genuine job. -/
def GenuineEntry (e : LedgerEntry) : Prop :=
  ∃ p, GenuineJob runtime requests hist p e.accountId ∧
    (∃ ev ∈ hist, requests ev.who = .serve p ∧ ev.call = .writeInflow p.transactionRef) ∧
    e.nombaTransactionRef = p.transactionRef ∧ e.nombaEventId = p.eventId ∧
    (e.amountKobo : ℚ) = p.amountKobo

end Genuine

/-- A custom event that the worker takes for one. -/
def IsCustomName (eventName : String) : Prop := eventName ≠ "NOMBA_INFLOW" ∧ eventName ≠ ""

/-- Whatever happens between its calls, the processing of the job never changes the ledger. -/
def LeavesLedger (p : InflowPayload) : Prop :=
  (WebhookProcessor.process p).Keeps (fun _ _ _ _ => True) fun w w' =>
    w'.db.ledgerEntries = w.db.ledgerEntries

/-! ### What happens elsewhere -/

theorem Db.KeepsAccounts.refl (db : Db) : db.KeepsAccounts db := fun a ha => ⟨a, ha, rfl, rfl, rfl⟩

theorem Db.KeepsAccounts.trans {db db' db'' : Db} (h : db.KeepsAccounts db')
    (h' : db'.KeepsAccounts db'') : db.KeepsAccounts db'' := by
  intro a ha
  obtain ⟨a', ha', hid, hnumber, hbusiness⟩ := h a ha
  obtain ⟨a'', ha'', hid', hnumber', hbusiness'⟩ := h' a' ha'
  exact ⟨a'', ha'', hid'.trans hid, hnumber'.trans hnumber, hbusiness'.trans hbusiness⟩

/-- A step that leaves the accounts and the customers as they are. -/
theorem Elsewhere.of_ledger {w w' : World} (hunique : w.db.UniqueColumns → w'.db.UniqueColumns)
    (haccounts : w'.db.accounts = w.db.accounts) (hcustomers : w'.db.customers = w.db.customers)
    (hjobs : w'.webhookQueue = w.webhookQueue)
    (hledger : ∀ e' ∈ w'.db.ledgerEntries, ∃ e ∈ w.db.ledgerEntries, e.recorded = e'.recorded) :
    Elsewhere w w' where
  unique := hunique
  owners h := by
    unfold Db.OwnersAgree
    rw [haccounts, hcustomers]
    exact h
  accounts := by
    unfold Db.KeepsAccounts
    rw [haccounts]
    exact Db.KeepsAccounts.refl w.db
  inflows e' he' _ := hledger e' he'
  jobs := hjobs ▸ List.Subset.refl _

theorem Elsewhere.of_sameData {w w' : World} (h : World.SameData w w') : Elsewhere w w' :=
  .of_ledger (fun hu => h.db ▸ hu) (by rw [h.db]) (by rw [h.db]) h.webhookQueue
    fun e he => ⟨e, h.db ▸ he, rfl⟩

/-- The statements of the worker, apart from the one that writes an inflow. -/
def WriteOp.Serving (o : WriteOp) : Prop := o.Executing ∨ o.Reconciling ∨ o.Claiming

theorem recorded_updateRow {κ : Type} [DecidableEq κ] {key : LedgerEntry → κ} {k : κ}
    {status : ReconciliationStatus} {t : List LedgerEntry} {e' : LedgerEntry}
    (he' : e' ∈ updateRow key k (fun e => { e with reconciliationStatus := status }) t) :
    ∃ e ∈ t, e.recorded = e'.recorded := by
  obtain ⟨e, he, rfl⟩ := mem_updateRow.1 he'
  refine ⟨e, he, ?_⟩
  split <;> rfl

/-- An account whose status changes keeps its number and its owner. -/
theorem Elsewhere.of_updateAccountStatus {w w' : World} {id : String} {status : AccountStatus}
    {db : Db} (hop : (WriteOp.updateAccountStatus id status).apply w.db = .ok db)
    (hw' : w' = { w with db }) : Elsewhere w w' := by
  have hunique : w.db.UniqueColumns → db.UniqueColumns := fun hu => hu.apply hop
  obtain ⟨-, rfl⟩ := Db.updateAccountStatus_eq_ok.1 hop
  subst hw'
  constructor
  · exact hunique
  · intro h a ha c hc hcustomer
    obtain ⟨a₀, ha₀, rfl⟩ := mem_updateRow.1 ha
    have := h a₀ ha₀ c hc
    split at hcustomer <;> split <;> exact this hcustomer
  · intro a ha
    refine ⟨_, mem_updateRow.2 ⟨a, ha, rfl⟩, ?_⟩
    split <;> exact ⟨rfl, rfl, rfl⟩
  · exact fun e he _ => ⟨e, he, rfl⟩
  · exact List.Subset.refl _

theorem footprint_elsewhere : Footprint WriteOp.Serving Elsewhere where
  sameData := .of_sameData
  writes := by
    intro o w w' db ho hop hw'
    have hunique : w.db.UniqueColumns → w'.db.UniqueColumns := fun hu => by
      rw [hw']
      exact hu.apply hop
    have hsame : ∀ e ∈ w.db.ledgerEntries, ∃ e₀ ∈ w.db.ledgerEntries, e₀.recorded = e.recorded :=
      fun e he => ⟨e, he, rfl⟩
    cases o with
    | createBucketLedgerEntry e =>
      obtain ⟨-, -, -, -, rfl⟩ := Db.createBucketLedgerEntry_eq_ok.1 hop
      subst hw'
      exact .of_ledger hunique rfl rfl rfl hsame
    | createRuleExecution x =>
      obtain ⟨-, -, -, -, rfl⟩ := Db.createRuleExecution_eq_ok.1 hop
      subst hw'
      exact .of_ledger hunique rfl rfl rfl hsame
    | updateRuleExecution id data =>
      obtain ⟨-, rfl⟩ := Db.updateRuleExecution_eq_ok.1 hop
      subst hw'
      exact .of_ledger hunique rfl rfl rfl hsame
    | updateAccountStatus id status => exact .of_updateAccountStatus hop hw'
    | updateReconciliationByRef ref status =>
      obtain ⟨-, rfl⟩ := Db.updateReconciliationByRef_eq_ok.1 hop
      subst hw'
      exact .of_ledger hunique rfl rfl rfl fun e he => recorded_updateRow he
    | updateReconciliationById id status =>
      obtain ⟨-, rfl⟩ := Db.updateReconciliationById_eq_ok.1 hop
      subst hw'
      exact .of_ledger hunique rfl rfl rfl fun e he => recorded_updateRow he
    | createProcessedEvent e =>
      obtain ⟨-, -, rfl⟩ := Db.createProcessedEvent_eq_ok.1 hop
      subst hw'
      exact .of_ledger hunique rfl rfl rfl hsame
    | _ => rcases ho with ho | ho | ho <;> exact ho.elim

theorem enqueuesRetries_elsewhere : EnqueuesRetries Elsewhere := fun _ _ =>
  .of_ledger id rfl rfl rfl fun e he => ⟨e, he, rfl⟩

/-! ### The invariant -/

/-- A column that is not the reconciliation status. -/
theorem LedgerEntry.column_eq {α : Type} {e e' : LedgerEntry} (h : e.recorded = e'.recorded)
    (column : LedgerEntry → α) (hcolumn : ∀ e, column e.recorded = column e) :
    column e = column e' := by
  rw [← hcolumn e, h, hcolumn]

section Invariant

variable {ι : Type} {runtime : WebhookRuntime} {requests : ι → Request}
  {hist hist' : List (Event ι World Env Call)}

theorem EnqueuedBy.mono {i : ι} {p : InflowPayload} (h : EnqueuedBy hist i p)
    (hsub : hist ⊆ hist') :
    EnqueuedBy hist' i p :=
  let ⟨ev, hev, hrest⟩ := h
  ⟨ev, hsub hev, hrest⟩

theorem Verified.mono {i : ι} {p : InflowPayload} {accountId : String}
    (h : Verified runtime requests hist i p accountId) (hsub : hist ⊆ hist') :
    Verified runtime requests hist' i p accountId := by
  obtain ⟨rawBody, signature, hi, hjob, ev, hev, hsigned⟩ := h
  exact ⟨rawBody, signature, hi, hjob, ev, hsub hev, hsigned⟩

theorem GenuineJob.mono {p : InflowPayload} {accountId : String}
    (h : GenuineJob runtime requests hist p accountId) (hsub : hist ⊆ hist') :
    GenuineJob runtime requests hist' p accountId := by
  cases h with
  | webhook i verified enqueued => exact .webhook i (verified.mono hsub) (enqueued.mono hsub)
  | simulated i params eventUuid transactionUuid request job enqueued =>
    exact .simulated i params eventUuid transactionUuid request job (enqueued.mono hsub)

theorem GenuineEntry.mono {e e' : LedgerEntry} (h : GenuineEntry runtime requests hist e)
    (heq : e.recorded = e'.recorded) (hsub : hist ⊆ hist') :
    GenuineEntry runtime requests hist' e' := by
  obtain ⟨p, hjob, ⟨ev, hev, hwrite⟩, href, hevent, hamount⟩ := h
  rw [LedgerEntry.column_eq heq LedgerEntry.accountId fun _ => rfl] at hjob
  rw [LedgerEntry.column_eq heq LedgerEntry.nombaTransactionRef fun _ => rfl] at href
  rw [LedgerEntry.column_eq heq LedgerEntry.nombaEventId fun _ => rfl] at hevent
  rw [LedgerEntry.column_eq heq LedgerEntry.amountKobo fun _ => rfl] at hamount
  exact ⟨p, hjob.mono hsub, ⟨ev, hsub hev, hwrite⟩, href, hevent, hamount⟩

/-- What a thread has achieved: nothing that matters, the verification of a signature, taking a job
from the queue, or finding the job's account. -/
inductive Provenance
  | nothing
  | signed (p : InflowPayload) (accountId : String)
  | took (p : InflowPayload)
  | located (p : InflowPayload) (accountId : String)

variable (runtime requests)

/-- A job that the worker takes for a custom event, or a genuine one. -/
def Sourced (hist : List (Event ι World Env Call)) (p : InflowPayload) : Prop :=
  isCustomEvent p = true ∨ ∃ accountId, GenuineJob runtime requests hist p accountId

/-- What is known of a thread that has achieved this much. -/
def Known (hist : List (Event ι World Env Call)) (w : World) (i : ι) : Provenance → Prop
  | .nothing => True
  | .signed p accountId => Verified runtime requests hist i p accountId
  | .took p => Sourced runtime requests hist p
  | .located p accountId => Sourced runtime requests hist p ∧
      ∃ a ∈ w.db.accounts, a.id = accountId ∧ a.accountNumber = p.accountNumber

/-- The invariant. An entry that was there at the start is not accounted for. -/
structure Authentic (w₀ : World) (G : ι → Provenance) (hist : List (Event ι World Env Call))
    (w : World) : Prop where
  unique : w.db.UniqueColumns
  owners : w.db.OwnersAgree
  kept : ∀ ev ∈ hist, ev.before.db.KeepsAccounts w.db
  queue : ∀ p ∈ w.webhookQueue, Sourced runtime requests hist p
  entries : ∀ e ∈ w.db.ledgerEntries, e.direction = .inflow →
    (∃ e₀ ∈ w₀.db.ledgerEntries, e₀.id = e.id) ∨ GenuineEntry runtime requests hist e
  known : ∀ i, Known runtime requests hist w i (G i)

variable {runtime requests}

theorem Sourced.mono {p : InflowPayload} (h : Sourced runtime requests hist p)
    (hsub : hist ⊆ hist') : Sourced runtime requests hist' p :=
  h.imp id fun ⟨accountId, hjob⟩ => ⟨accountId, hjob.mono hsub⟩

theorem Known.mono {w w' : World} {i : ι} {g : Provenance}
    (h : Known runtime requests hist w i g) (hsub : hist ⊆ hist')
    (haccounts : w.db.KeepsAccounts w'.db) : Known runtime requests hist' w' i g := by
  cases g with
  | nothing => trivial
  | signed p accountId => exact Verified.mono h hsub
  | took p => exact Sourced.mono h hsub
  | located p accountId =>
    obtain ⟨hsourced, a, ha, hid, hnumber⟩ := h
    obtain ⟨a', ha', hid', hnumber', -⟩ := haccounts a ha
    exact ⟨hsourced.mono hsub, a', ha', hid'.trans hid, hnumber'.trans hnumber⟩

variable [DecidableEq ι]

/-- **One step.** What has to be shown of the new jobs and the new entries, and of what the thread
has achieved. -/
theorem Authentic.step {w₀ w w' : World} {G : ι → Provenance} {i : ι} {l : Call} {env : Env}
    {g : Provenance} (h : Authentic runtime requests w₀ G hist w)
    (hunique : w'.db.UniqueColumns) (howners : w'.db.OwnersAgree)
    (haccounts : w.db.KeepsAccounts w'.db)
    (hqueue : ∀ p ∈ w'.webhookQueue,
      p ∈ w.webhookQueue ∨ Sourced runtime requests (hist ++ [⟨i, l, env, w, w'⟩]) p)
    (hentries : ∀ e ∈ w'.db.ledgerEntries, e.direction = .inflow →
      (∃ e₀ ∈ w.db.ledgerEntries, e₀.recorded = e.recorded) ∨
        GenuineEntry runtime requests (hist ++ [⟨i, l, env, w, w'⟩]) e)
    (hknown : Known runtime requests (hist ++ [⟨i, l, env, w, w'⟩]) w' i g) :
    Authentic runtime requests w₀ (Function.update G i g) (hist ++ [⟨i, l, env, w, w'⟩]) w' := by
  have hsub : hist ⊆ hist ++ [⟨i, l, env, w, w'⟩] := List.subset_append_left _ _
  constructor
  · exact hunique
  · exact howners
  · intro ev hev
    rcases List.mem_append.1 hev with hev | hev
    · exact (h.kept ev hev).trans haccounts
    · rw [List.mem_singleton.1 hev]
      exact haccounts
  · intro p hp
    rcases hqueue p hp with hold | hnew
    · exact (h.queue p hold).mono hsub
    · exact hnew
  · intro e he hinflow
    rcases hentries e he hinflow with ⟨e₀, he₀, heq⟩ | hnew
    · -- an old entry, perhaps with another reconciliation status
      have hinflow₀ : e₀.direction = .inflow := by
        rw [LedgerEntry.column_eq heq LedgerEntry.direction fun _ => rfl]
        exact hinflow
      have hid₀ : e₀.id = e.id := LedgerEntry.column_eq heq LedgerEntry.id fun _ => rfl
      rcases h.entries e₀ he₀ hinflow₀ with ⟨e₁, he₁, hid⟩ | hold
      · exact .inl ⟨e₁, he₁, hid.trans hid₀⟩
      · exact .inr (hold.mono heq hsub)
    · exact .inr hnew
  · -- the other threads know what they knew
    intro j
    by_cases hj : j = i
    · subst hj
      rw [Function.update_self]
      exact hknown
    · rw [Function.update_of_ne hj]
      exact (h.known j).mono hsub haccounts

theorem Authentic.elsewhere {w₀ w w' : World} {G : ι → Provenance} {i : ι} {l : Call} {env : Env}
    (h : Authentic runtime requests w₀ G hist w) (hw : Elsewhere w w') :
    Authentic runtime requests w₀ G (hist ++ [⟨i, l, env, w, w'⟩]) w' := by
  have hsub : hist ⊆ hist ++ [⟨i, l, env, w, w'⟩] := List.subset_append_left _ _
  have hstep := h.step (i := i) (l := l) (hw.unique h.unique) (hw.owners h.owners) hw.accounts
    (fun p hp => .inl (hw.jobs hp)) (fun e he hinflow => .inl (hw.inflows e he hinflow))
    ((h.known i).mono hsub hw.accounts)
  rwa [Function.update_eq_self] at hstep

/-! ### The threads -/

/-- The protocol of the queue. -/
def genuine (runtime : WebhookRuntime) (requests : ι → Request) (w₀ : World) :
    Protocol ι World Env Call Provenance where
  allowed := Delivers
  inv := Authentic runtime requests w₀

variable {w₀ : World} {i : ι}

theorem genuine_quiet : Quiet (genuine runtime requests w₀) :=
  fun _ _ _ _ _ _ _ h _ hsame => Authentic.elsewhere h (.of_sameData hsame)

/-- A method that does nothing that matters here. -/
theorem wp_keepsElsewhere {α : Type} {p : Action α} {g : Provenance}
    (hp : p.Keeps Delivers Elsewhere) :
    p.Wp (genuine runtime requests w₀) i (fun _ g' => g' = g) (fun _ g' => g' = g) g :=
  Proc.Keeps.wp hp fun _ _ _ _ _ _ h _ hw => Authentic.elsewhere h hw

/-- A job is put on the queue. -/
theorem Authentic.enqueue {w : World} {G : ι → Provenance} {p : InflowPayload} {env : Env}
    (h : Authentic runtime requests w₀ G hist w)
    (hp : isCustomEvent p = true ∨ (∃ accountId, Verified runtime requests hist i p accountId) ∨
      ∃ params eventUuid transactionUuid,
        requests i = .simulate params eventUuid transactionUuid ∧
        p = DemoService.simulatedJob params eventUuid transactionUuid) :
    Authentic runtime requests w₀ G
      (hist ++ [⟨i, .enqueueInflow p, env, w, { w with webhookQueue := w.webhookQueue ++ [p] }⟩])
      { w with webhookQueue := w.webhookQueue ++ [p] } := by
  have hsub := List.subset_append_left hist
    [⟨i, .enqueueInflow p, env, w, { w with webhookQueue := w.webhookQueue ++ [p] }⟩]
  have henqueued : EnqueuedBy (hist ++ [⟨i, .enqueueInflow p, env, w,
      { w with webhookQueue := w.webhookQueue ++ [p] }⟩]) i p :=
    ⟨_, List.mem_append_right _ (List.mem_singleton_self _), rfl, rfl⟩
  have hsourced : Sourced runtime requests (hist ++ [⟨i, .enqueueInflow p, env, w,
      { w with webhookQueue := w.webhookQueue ++ [p] }⟩]) p := by
    rcases hp with hcustom | ⟨accountId, hverified⟩ | ⟨params, eventUuid, transactionUuid, hi, hjob⟩
    · exact .inl hcustom
    · exact .inr ⟨accountId, .webhook i (hverified.mono hsub) henqueued⟩
    · exact .inr ⟨"", .simulated i params eventUuid transactionUuid hi hjob henqueued⟩
  rw [← Function.update_eq_self i G]
  refine h.step h.unique h.owners (Db.KeepsAccounts.refl w.db) (fun q hq => ?_)
    (fun e he _ => .inl ⟨e, he, rfl⟩) ((h.known i).mono hsub (Db.KeepsAccounts.refl w.db))
  rcases List.mem_append.1 hq with hq | hq
  · exact .inl hq
  · rw [List.mem_singleton.1 hq]
    exact .inr hsourced

theorem wp_enqueueGenuine {p : InflowPayload} {g : Provenance}
    (hp : ∀ hist w, Known runtime requests hist w i g → isCustomEvent p = true ∨
      (∃ accountId, Verified runtime requests hist i p accountId) ∨
      ∃ params eventUuid transactionUuid,
        requests i = .simulate params eventUuid transactionUuid ∧
        p = DemoService.simulatedJob params eventUuid transactionUuid) :
    (enqueueInflow p).Wp (genuine runtime requests w₀) i (fun _ _ => True) (fun _ _ => True) g := by
  refine wp_enqueueInflow genuine_quiet ?_ fun _ => trivial
  intro G hist w env w' hG hinv _ hw'
  refine ⟨g, ?_, trivial⟩
  rw [← hG, Function.update_eq_self, hw']
  exact Authentic.enqueue hinv (hp hist w (hG ▸ hinv.known i))

/-- `EventsService.dispatch`, for the name of a custom event. -/
theorem wp_dispatch {accountRef eventId eventName businessId : String}
    (hname : IsCustomName eventName) {g : Provenance} :
    (EventsService.dispatch accountRef eventId eventName businessId).Wp
      (genuine runtime requests w₀) i (fun _ _ => True) (fun _ _ => True) g := by
  refine Proc.Wp.bind (wp_find genuine_quiet (fun G hist w env _ _ => ?_) fun _ => trivial)
  cases w.db.findEventOf businessId eventId with
  | some e => exact wp_audit genuine_quiet trivial
  | none =>
    refine Proc.Wp.bind (wp_find genuine_quiet (fun G hist w env _ _ => ?_) fun _ => trivial)
    cases w.db.findAccountByRef accountRef businessId with
    | none => trivial
    | some a =>
      refine Proc.Wp.bind ((wp_enqueueGenuine fun _ _ _ => .inl ?_).mono
        (fun _ _ _ => wp_audit genuine_quiet trivial) fun _ _ h => h)
      simp [isCustomEvent, EventsService.customEventJob, hname.1, hname.2]

/-- `verifyAndEnqueue` enqueues the job or throws. -/
theorem verifyAndEnqueue_cases (runtime : WebhookRuntime) (rawBody : RawBody)
    (signature : Option String) (job : InflowPayload)
    (business : Option Business) :
    (WebhooksService.verifyAndEnqueue runtime rawBody signature job business = enqueueInflow job ∧
      ∃ b encryptedSecret secret, business = some b ∧
        b.nombaWebhookSecret = some encryptedSecret ∧
        runtime.decryptWebhookSecret encryptedSecret = .ok secret ∧
        signature = some (runtime.hmac secret rawBody)) ∨
    ∃ e, WebhooksService.verifyAndEnqueue runtime rawBody signature job business = .raise e := by
  have some_of_getD : ∀ o : Option String, o.getD "" ≠ "" → o = some (o.getD "") := by
    intro o ho
    cases o with
    | none => exact absurd rfl ho
    | some s => rfl
  unfold WebhooksService.verifyAndEnqueue
  split
  next => exact .inr ⟨_, rfl⟩
  next => exact .inr ⟨_, rfl⟩
  next hsecret hsignature =>
    cases hdecrypt : runtime.decryptWebhookSecret
        ((business.bind Business.nombaWebhookSecret).getD "") with
    | error e => exact .inr ⟨e, rfl⟩
    | ok secret =>
      dsimp only
      split
      next heq =>
        refine .inl ⟨rfl, ?_⟩
        have hstored := some_of_getD _ hsecret
        obtain ⟨b, hb, hsome⟩ := Option.bind_eq_some_iff.1 hstored
        exact ⟨b, _, secret, hb, hsome, hdecrypt, heq ▸ some_of_getD _ hsignature⟩
      next => exact .inr ⟨_, rfl⟩

/-- The business whose secret is used is the one that owns the account. -/
theorem signedFor_of_found {db : Db} (howners : db.OwnersAgree) {accountNumber : String}
    {a : Account} {b : Business} (hfound : db.findAccountBusiness accountNumber = some (a, some b))
    {rawBody : RawBody} {encryptedSecret secret : String}
    (hstored : b.nombaWebhookSecret = some encryptedSecret)
    (hdecrypt : runtime.decryptWebhookSecret encryptedSecret = .ok secret) :
    SignedFor runtime db rawBody (runtime.hmac secret rawBody) accountNumber a.id := by
  unfold Db.findAccountBusiness at hfound
  obtain ⟨a', ha', heq⟩ := Option.map_eq_some_iff.1 hfound
  obtain ⟨rfl, hb⟩ := Prod.mk.inj heq
  obtain ⟨c, hc, hb⟩ := Option.bind_eq_some_iff.1 hb
  obtain ⟨customerId, hcustomer, hc⟩ := Option.bind_eq_some_iff.1 hc
  have ha : a' ∈ db.accounts := List.mem_of_find?_eq_some ha'
  have hnumber : a'.accountNumber = accountNumber := by simpa using List.find?_some ha'
  have hcid : c.id = customerId := by simpa using List.find?_some hc
  have howner := howners a' ha c (List.mem_of_find?_eq_some hc) (hcid ▸ hcustomer)
  have hbid : b.id = c.businessId := by simpa using List.find?_some hb
  exact ⟨a', ha, rfl, hnumber, b, List.mem_of_find?_eq_some hb, hbid.trans howner,
    encryptedSecret, secret, hstored, hdecrypt, rfl⟩

/-- `WebhooksService.processInflow`. -/
theorem wp_processInflow {rawBody : Option RawBody} {signature : Option String}
    (hi : requests i = .webhook rawBody signature) {g : Provenance} :
    (WebhooksService.processInflow runtime rawBody signature).Wp (genuine runtime requests w₀) i
      (fun _ _ => True) (fun _ _ => True) g := by
  unfold WebhooksService.processInflow
  cases rawBody with
  | none => trivial
  | some rawBody =>
    dsimp only
    cases hparse : runtime.parse rawBody with
    | none => trivial
    | some body =>
      dsimp only
      cases hdata : body.data with
      | none => trivial
      | some data =>
        dsimp only
        split
        next => trivial
        next hne =>
          refine Proc.Wp.bind (wp_findThen genuine_quiet ?_ fun _ => trivial)
          intro G hist w env hG hinv _
          have hquiet : Authentic runtime requests w₀ G
              (hist ++ [⟨i, .findAccount (data.accountNumber.getD ""), env, w, w⟩]) w :=
            Authentic.elsewhere hinv (.of_sameData (.refl w))
          cases hfound : w.db.findAccountBusiness (data.accountNumber.getD "") with
          | none =>
            refine ⟨G i, ?_, trivial⟩
            rwa [Function.update_eq_self]
          | some found =>
            obtain ⟨a, business⟩ := found
            dsimp only
            -- signed with the secret of the business that owns the account, or refused
            rcases verifyAndEnqueue_cases runtime rawBody signature
              (WebhooksService.inflowJob body data (data.accountNumber.getD "")) business with
              ⟨heq, b, encryptedSecret, secret, rfl, hstored, hdecrypt, rfl⟩ | ⟨e, heq⟩
            · have hnumber : data.accountNumber = some (data.accountNumber.getD "") := by
                cases hnumber : data.accountNumber with
                | none => simp [hnumber] at hne
                | some number => rfl
              refine ⟨.signed _ a.id, hinv.step hinv.unique hinv.owners (.refl _)
                (fun p hp => .inl hp) (fun e he _ => .inl ⟨e, he, rfl⟩)
                ⟨rawBody, _, hi, ⟨body, data, _, hparse, hdata, hnumber, rfl⟩, _,
                  List.mem_append_right _ (List.mem_singleton_self _), rfl,
                  signedFor_of_found hinv.owners hfound hstored hdecrypt⟩, ?_⟩
              rw [heq]
              exact wp_enqueueGenuine fun _ _ hknown => .inr (.inl ⟨a.id, hknown⟩)
            · refine ⟨G i, ?_, ?_⟩
              · rwa [Function.update_eq_self]
              · rw [heq]
                trivial

omit [DecidableEq ι] in
/-- The account of a genuine job is the one with the job's number. -/
theorem Authentic.genuineJob {w : World} {G : ι → Provenance} {p : InflowPayload}
    {accountId : String} {a : Account} (h : Authentic runtime requests w₀ G hist w)
    (hjob : GenuineJob runtime requests hist p accountId) (ha : a ∈ w.db.accounts)
    (hnumber : a.accountNumber = p.accountNumber) : GenuineJob runtime requests hist p a.id := by
  cases hjob with
  | simulated j params eventUuid transactionUuid request job enqueued =>
    exact .simulated j params eventUuid transactionUuid request job enqueued
  | webhook j verified enqueued =>
    obtain ⟨rawBody, signature, hj, hinflow, ev, hev, hwho, a₀, ha₀, hid₀, hnumber₀, hsigned⟩ :=
      verified
    -- the account that the signature was verified for is still there, with its number
    obtain ⟨a₁, ha₁, hid₁, hnumber₁, -⟩ := h.kept ev hev a₀ ha₀
    have heq : a₁ = a := eq_of_key_eq h.unique.accountNumbers ha₁ ha
      ((hnumber₁.trans hnumber₀).trans hnumber.symm)
    have hid : a₀.id = a.id := by rw [← hid₁, heq]
    exact .webhook j ⟨rawBody, signature, hj, hinflow, ev, hev, hwho, a₀, ha₀, hid, hnumber₀,
      hsigned⟩ enqueued

/-- The inflow of a job is written. -/
theorem wp_writeGenuine {p : InflowPayload} {found : FoundAccount} {status : ReconciliationStatus}
    (hi : requests i = .serve p) (hinflow : isCustomEvent p = false) :
    (writeInflow (inflowDto p found) status).Wp (genuine runtime requests w₀) i
      (fun _ _ => True) (fun _ _ => True) (.located p found.account.id) := by
  refine wp_transaction genuine_quiet logsOnly_nothing ?_ fun _ _ _ _ _ _ _ _ _ _ => trivial
  intro G hist w env t db w' hG hinv _ _ hrun hw'
  have hinv : Authentic runtime requests w₀ G hist w := hinv
  obtain ⟨n, hn, -, hdb⟩ := (writeInflowTx_run_eq_ok w.db).1 hrun
  have hunique : db.UniqueColumns := hinv.unique.apply (o := .createLedgerEntry _) hdb
  obtain ⟨-, -, -, rfl⟩ := Db.createLedgerEntry_eq_ok.1 hdb
  subst hw'
  have hknown := hinv.known i
  rw [hG] at hknown
  obtain ⟨hsourced, a, ha, hid, hnumber⟩ := hknown
  refine ⟨.nothing, hinv.step hunique hinv.owners (Db.KeepsAccounts.refl _)
    (fun p hp => .inl hp) (fun e he _ => ?_) trivial, trivial⟩
  rcases List.mem_append.1 he with he | he
  · exact .inl ⟨e, he, rfl⟩
  · obtain rfl := List.mem_singleton.1 he
    rcases hsourced with hcustom | ⟨accountId, hjob⟩
    · rw [hinflow] at hcustom
      cases hcustom
    · have hjob := hinv.genuineJob hjob ha hnumber
      rw [hid] at hjob
      exact .inr ⟨p, hjob.mono (List.subset_append_left hist _),
        ⟨_, List.mem_append_right _ (List.mem_singleton_self _), hi, rfl⟩,
        rfl, rfl, hn.symm⟩

/-- The worker, once it has found the account. -/
theorem wp_serveFound {p : InflowPayload} {found : FoundAccount} (hi : requests i = .serve p) :
    (if isCustomEvent p then
        processCustomEvent p found.account
      else
        match found.account.status with
        | .suspended => processSuspended p found
        | .closed | .expired => processTerminal p found.account
        | .active => WebhookProcessor.processInflow p found).Wp (genuine runtime requests w₀) i
      (fun _ _ => True) (fun _ _ => True) (.located p found.account.id) := by
  have F := footprint_elsewhere
  have hkeeps : ∀ {α : Type} {q : Action α} {g : Provenance}, q.Keeps Delivers Elsewhere →
      q.Wp (genuine runtime requests w₀) i (fun _ _ => True) (fun _ _ => True) g :=
    fun hq => (wp_keepsElsewhere hq).mono (fun _ _ _ => trivial) fun _ _ _ => trivial
  split
  next => exact hkeeps (F.keeps_processCustomEvent (fun _ => .inl) fun _ h => .inr (.inr h))
  next hcustom =>
    have hinflow : isCustomEvent p = false := by simpa using hcustom
    split
    next =>
      refine Proc.Wp.bind ((wp_writeGenuine hi hinflow).mono (fun _ _ _ => ?_) fun _ _ h => h)
      exact hkeeps F.keeps_audit
    next => exact hkeeps F.keeps_audit
    next => exact hkeeps F.keeps_audit
    next =>
      refine Proc.Wp.bind ((wp_writeGenuine hi hinflow).mono (fun total _ _ => hkeeps ?_)
        fun _ _ h => h)
      refine Proc.Keeps.bind keeps_bigIntOrThrow fun amountKobo => ?_
      refine Proc.Keeps.bind F.keeps_evaluate fun rules => ?_
      refine Proc.Keeps.bind (F.keeps_settleInflow (fun _ => .inl) (fun _ h => .inr (.inl h))
        enqueuesRetries_elsewhere) fun _ => ?_
      exact F.keeps_createProcessedEvent fun _ h => .inr (.inr h)

/-- **The worker** writes no entry but the one of its job. -/
theorem wp_serveJob {p : InflowPayload} (hi : requests i = .serve p) {g : Provenance} :
    (serveJob p).Wp (genuine runtime requests w₀) i (fun _ _ => True) (fun _ _ => True) g := by
  refine Proc.Wp.bind (Proc.Wp.call fun G hist w env hG hinv hallowed => ?_)
  have hinv : Authentic runtime requests w₀ G hist w := hinv
  have hsourced := hinv.queue p hallowed
  refine ⟨.took p, hinv.step hinv.unique hinv.owners (.refl _) (fun q hq => .inl hq)
    (fun e he _ => .inl ⟨e, he, rfl⟩) (hsourced.mono (List.subset_append_left hist _)),
    fun _ _ => ?_, fun _ he => by simp at he⟩
  refine Proc.Wp.catching (Proc.Wp.mono (Q := fun _ _ => True) (E := fun _ _ => True)
    (fun _ _ h => h) (fun err _ _ => ?_) ?_)
  · split
    · exact wp_audit genuine_quiet trivial
    · trivial
  refine Proc.Wp.bind (wp_find genuine_quiet (fun _ _ w _ _ _ => ?_) fun _ => trivial)
  cases w.db.findProcessedEvent p.eventId with
  | some e => exact wp_audit genuine_quiet trivial
  | none =>
    refine Proc.Wp.bind (wp_findThen genuine_quiet ?_ fun _ => trivial)
    intro G hist w env hG hinv _
    have hinv : Authentic runtime requests w₀ G hist w := hinv
    have hknown := hinv.known i
    rw [hG] at hknown
    cases hfound : w.db.findAccount p.accountNumber with
    | none =>
      refine ⟨G i, ?_, wp_audit genuine_quiet trivial⟩
      rw [Function.update_eq_self]
      exact Authentic.elsewhere hinv (.of_sameData (.refl w))
    | some a =>
      have ha : a ∈ w.db.accounts := List.mem_of_find?_eq_some hfound
      have hnumber : a.accountNumber = p.accountNumber := by simpa using List.find?_some hfound
      refine ⟨.located p a.id, hinv.step hinv.unique hinv.owners (.refl _)
        (fun q hq => .inl hq) (fun e he _ => .inl ⟨e, he, rfl⟩)
        ⟨Sourced.mono hknown (List.subset_append_left hist _), a, ha, rfl, hnumber⟩, ?_⟩
      exact wp_serveFound hi

end Invariant

/-! ### The job of a custom event -/

/-- No statement of a custom event writes the ledger. -/
theorem footprint_sameLedger : Footprint (fun o => o.Executing ∨ o.Claiming)
    fun w w' => w'.db.ledgerEntries = w.db.ledgerEntries where
  sameData h := by rw [h.db]
  writes := by
    intro o w w' db ho hop hw'
    subst hw'
    cases o with
    | createBucketLedgerEntry e =>
      obtain ⟨-, -, -, -, rfl⟩ := Db.createBucketLedgerEntry_eq_ok.1 hop
      rfl
    | createRuleExecution x =>
      obtain ⟨-, -, -, -, rfl⟩ := Db.createRuleExecution_eq_ok.1 hop
      rfl
    | updateRuleExecution id data =>
      obtain ⟨-, rfl⟩ := Db.updateRuleExecution_eq_ok.1 hop
      rfl
    | updateAccountStatus id status =>
      obtain ⟨-, rfl⟩ := Db.updateAccountStatus_eq_ok.1 hop
      rfl
    | createProcessedEvent e =>
      obtain ⟨-, -, rfl⟩ := Db.createProcessedEvent_eq_ok.1 hop
      rfl
    | _ => rcases ho with ho | ho <;> exact ho.elim

theorem leavesLedger_of_custom {p : InflowPayload} (hp : isCustomEvent p = true) :
    LeavesLedger p := by
  have F := footprint_sameLedger
  refine Proc.Keeps.catching ?_ fun err => ?_
  · refine Proc.Keeps.bind F.keeps_find fun existing => ?_
    cases existing with
    | some e => exact F.keeps_audit
    | none =>
      refine Proc.Keeps.bind F.keeps_find fun found => ?_
      cases found with
      | none => exact F.keeps_audit
      | some found =>
        show Proc.Keeps _ _ (ite _ _ _)
        rw [if_pos hp]
        exact F.keeps_processCustomEvent (fun _ => .inl) fun _ => .inr
  · split
    · exact F.keeps_audit
    · trivial

namespace Sample

/-- A SUSPENDED account with the given number. -/
def dormant (accountNumber : String) : Account :=
  { account with accountNumber, status := .suspended }

def dormantShop (accountNumber : String) : World where
  db := { accounts := [dormant accountNumber] }

theorem writes_dormant (p : InflowPayload) (customer : Option Customer)
    (hamount : p.amountKobo = (0 : Int)) :
    ∃ t db, (writeInflowTx (inflowDto p ⟨dormant p.accountNumber, customer⟩) .flagged {}).run schema
      (dormantShop p.accountNumber).db = .ok (t, db) ∧ db.ledgerEntries ≠ [] := by
  refine ⟨_, _, (writeInflowTx_run_eq_ok _).2
    ⟨0, hamount, rfl, Db.createLedgerEntry_eq_ok.2 ⟨?_, ?_, ?_, rfl⟩⟩, ?_⟩
  · intro x hx
    cases hx
  · intro x hx
    cases hx
  · exact ⟨_, List.mem_singleton_self _, rfl⟩
  · simp

/-- A job that the worker takes for an inflow is written to the ledger. -/
theorem process_dormant {p : InflowPayload} (hinflow : isCustomEvent p = false)
    (hamount : p.amountKobo = (0 : Int)) :
    ((WebhookProcessor.process p).runWith (fun _ => {})
      (dormantShop p.accountNumber)).2.db.ledgerEntries ≠ [] := by
  have hfind : (dormantShop p.accountNumber).db.findAccount p.accountNumber =
      some (dormant p.accountNumber) := by
    simp [dormantShop, Db.findAccount, dormant]
  have hnone : (dormantShop p.accountNumber).db.findProcessedEvent p.eventId = none := rfl
  have hstatus : (dormant p.accountNumber).status = .suspended := rfl
  obtain ⟨t, db, hrun, hdb⟩ := writes_dormant p
    ((dormant p.accountNumber).customerId.bind (dormantShop p.accountNumber).db.findCustomer)
      hamount
  simp only [WebhookProcessor.process, processEvent, processUnseen, lookUpAccount, processSuspended,
    find, findStep, writeInflow, transaction, transactionStep, audit, Proc.runWith_bind,
    Proc.runWith_catching, Proc.runWith_call, Proc.bind_eq, Proc.tryCatch_eq, Tx.run_query, hnone,
    hfind, Option.map_some, hinflow, Bool.false_eq_true, if_false, hstatus, hrun, World.log_db]
  exact hdb

end Sample

/-- The job of a custom event leaves the ledger alone exactly when the worker takes it for one. -/
theorem leavesLedger_customEventJob_iff (accountNumber eventId eventName : String) :
    LeavesLedger (EventsService.customEventJob accountNumber eventId eventName) ↔
      IsCustomName eventName := by
  constructor
  · intro h
    by_contra hname
    have hinflow : isCustomEvent (EventsService.customEventJob accountNumber eventId eventName) =
        false := by
      simp only [isCustomEvent, EventsService.customEventJob, Option.any_some]
      unfold IsCustomName at hname
      grind
    exact Sample.process_dormant hinflow rfl (h.runWith (fun _ => rfl)
      (fun _ _ _ h h' => h'.trans h) (fun _ => {}) (Sample.dormantShop accountNumber))
  · intro hname
    refine leavesLedger_of_custom ?_
    simp [isCustomEvent, EventsService.customEventJob, hname.1, hname.2]

/-! ### All requests together -/

section System

variable {ι : Type} [DecidableEq ι] {runtime : WebhookRuntime} {requests : ι → Request}

/-- No custom event has the name of an inflow, or none at all. -/
def NamesCustomEvents (requests : ι → Request) : Prop :=
  ∀ i accountRef eventId eventName businessId,
    requests i = .dispatch accountRef eventId eventName businessId → IsCustomName eventName

theorem wp_method {w₀ : World} (hnames : NamesCustomEvents requests) (i : ι) :
    ((requests i).method runtime).Wp (genuine runtime requests w₀) i (fun _ _ => True)
      (fun _ _ => True) .nothing := by
  cases hi : requests i with
  | webhook rawBody signature => exact wp_processInflow hi
  | dispatch accountRef eventId eventName businessId => exact wp_dispatch (hnames i _ _ _ _ hi)
  | simulate params eventUuid transactionUuid =>
    exact wp_enqueueGenuine fun _ _ _ => .inr (.inr ⟨params, eventUuid, transactionUuid, hi, rfl⟩)
  | serve payload => exact wp_serveJob hi
  | elsewhere change =>
    intro G hist w env hG hinv hallowed
    refine ⟨.nothing, ?_, trivial⟩
    rw [← hG, Function.update_eq_self]
    exact Authentic.elsewhere hinv hallowed

/-- **No forged inflows.** While custom events have names of their own, every INFLOW entry that
is written in any run of the system was written by the worker for a job that `processInflow` has
enqueued, after the signature verified under the secret of the business that owns the account, or
that `simulateInflow` has; and processing the job of a custom event leaves the ledger alone exactly
when it has such a name. -/
theorem inflows_are_genuine {w₀ w : World} {hist : List (Event ι World Env Call)}
    {ps : ι → Action Unit} (hunique : w₀.db.UniqueColumns) (howners : w₀.db.OwnersAgree)
    (hqueue : w₀.webhookQueue = []) (hnames : NamesCustomEvents requests)
    (hrun : Run Delivers (fun i => (requests i).method runtime) w₀ hist ps w) :
    (∀ e ∈ w.db.ledgerEntries, e.direction = .inflow →
      (∃ e₀ ∈ w₀.db.ledgerEntries, e₀.id = e.id) ∨ GenuineEntry runtime requests hist e) ∧
    ∀ accountNumber eventId eventName,
      LeavesLedger (EventsService.customEventJob accountNumber eventId eventName) ↔
        IsCustomName eventName := by
  have h₀ : Authentic runtime requests w₀ (fun _ => .nothing) [] w₀ := {
    unique := hunique
    owners := howners
    kept := by simp
    queue := by simp [hqueue]
    entries := fun e he _ => .inl ⟨e, he, rfl⟩
    known := fun _ => trivial }
  obtain ⟨G, hinv⟩ := (genuine runtime requests w₀).inv_of_run (fun _ => .nothing) h₀
    (fun i => wp_method hnames i) hrun
  exact ⟨hinv.entries, leavesLedger_customEventJob_iff⟩

end System

/-! ### Two requests, one after the other -/

/-- The check of a call that the queue allows it, when nothing happens elsewhere. -/
def deliverable (l : Call) (w : World) : Bool :=
  match l with
  | .takeJob p => p ∈ w.webhookQueue
  | .elsewhere => false
  | _ => true

theorem delivers_of_deliverable {l : Call} {env : Env} {w w' : World}
    (h : deliverable l w = true) : Delivers l env w w' := by
  unfold Delivers
  cases l <;> simp_all [deliverable]

namespace Sample

/-- A request and the delivery of the job it enqueues. -/
def producedThenServed (producer : Request) (job : InflowPayload) : Bool → Request
  | false => producer
  | true => .serve job

/-- The request is served first, then its job. -/
def produceThenServe (producer : Request) (job : InflowPayload) :
    List (Event Bool World Env Call) × (Bool → Action Unit) × World :=
  exec (fun i => (producedThenServed producer job i).method noWebhooks) (shop [] [])
    ((List.replicate 4 false ++ List.replicate 12 true).map fun i =>
      (i, { row := { id := "row1" } }))

theorem run_produceThenServe (producer : Request) (job : InflowPayload)
    (h : ∀ ev ∈ (produceThenServe producer job).1, deliverable ev.call ev.before = true) :
    Run Delivers (fun i => (producedThenServed producer job i).method noWebhooks) (shop [] [])
      (produceThenServe producer job).1 (produceThenServe producer job).2.1
      (produceThenServe producer job).2.2 :=
  Run.of_exec _ _ _ fun ev hev => delivers_of_deliverable (h ev hev)

theorem uniqueColumns_shop : (shop [] []).db.UniqueColumns := by
  constructor <;> decide

theorem ownersAgree_shop : (shop [] []).db.OwnersAgree := by
  intro a _ c hc
  cases hc

/-- ₦5.00 for the account, simulated. -/
def simulated : DemoService.SimulateInflowParams where
  accountNumber := "0001112223"
  amountKobo := 500

def simulateFive : Request := .simulate simulated "u1" "u2"

def simulatedFive : InflowPayload := DemoService.simulatedJob simulated "u1" "u2"

end Sample

/-- A simulated inflow is genuine. -/
theorem inflows_are_genuine_simulated :
    ∃ e ∈ (Sample.produceThenServe Sample.simulateFive Sample.simulatedFive).2.2.db.ledgerEntries,
      GenuineEntry Sample.noWebhooks
        (Sample.producedThenServed Sample.simulateFive Sample.simulatedFive)
        (Sample.produceThenServe Sample.simulateFive Sample.simulatedFive).1 e := by
  have hnames : NamesCustomEvents
      (Sample.producedThenServed Sample.simulateFive Sample.simulatedFive) := by
    intro i accountRef eventId eventName businessId hi
    cases i <;> cases hi
  have hrun := Sample.run_produceThenServe Sample.simulateFive Sample.simulatedFive
    (by decide +kernel)
  have hall := (inflows_are_genuine Sample.uniqueColumns_shop Sample.ownersAgree_shop rfl hnames
    hrun).1
  have hwritten : ∃ e ∈ (Sample.produceThenServe Sample.simulateFive
      Sample.simulatedFive).2.2.db.ledgerEntries, e.direction = .inflow := by
    decide +kernel
  obtain ⟨e, he, hinflow⟩ := hwritten
  refine ⟨e, he, (hall e he hinflow).resolve_left ?_⟩
  rintro ⟨e₀, he₀, -⟩
  cases he₀

/-- A tenant dispatches an event with the name `NOMBA_INFLOW`: its job is written to the ledger as
an inflow, and nobody has reported or simulated one. -/
theorem dispatch_forges_inflow :
    ¬ ∀ (runtime : WebhookRuntime) (requests : Bool → Request) (w₀ w : World)
      (hist : List (Event Bool World Env Call)) (ps : Bool → Action Unit),
      w₀.db.UniqueColumns → w₀.db.OwnersAgree → w₀.webhookQueue = [] →
      Run Delivers (fun i => (requests i).method runtime) w₀ hist ps w →
      ∀ e ∈ w.db.ledgerEntries, e.direction = .inflow →
        (∃ e₀ ∈ w₀.db.ledgerEntries, e₀.id = e.id) ∨ GenuineEntry runtime requests hist e := by
  intro hall
  have hrun := Sample.run_produceThenServe (.dispatch "shop" "evt1" "NOMBA_INFLOW" "biz")
    (EventsService.customEventJob "0001112223" "evt1" "NOMBA_INFLOW") (by decide +kernel)
  have hwritten : ∃ e ∈ (Sample.produceThenServe (.dispatch "shop" "evt1" "NOMBA_INFLOW" "biz")
      (EventsService.customEventJob "0001112223" "evt1" "NOMBA_INFLOW")).2.2.db.ledgerEntries,
      e.direction = .inflow := by
    decide +kernel
  obtain ⟨e, he, hinflow⟩ := hwritten
  rcases hall _ _ _ _ _ _ Sample.uniqueColumns_shop Sample.ownersAgree_shop rfl hrun e he hinflow
    with ⟨e₀, he₀, -⟩ | ⟨p, hjob, -⟩
  · cases he₀
  · -- neither of the two requests is a webhook or a simulation
    cases hjob with
    | webhook i verified enqueued =>
      obtain ⟨rawBody, signature, hi, -⟩ := verified
      cases i <;> cases hi
    | simulated i params eventUuid transactionUuid request job enqueued =>
      cases i <;> cases request

end AccountOS
