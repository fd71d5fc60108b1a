import AccountOS.Conc.Trace
import AccountOS.Identity.IdentityService
import AccountOS.Queue.Correctness.Footprint
import AccountOS.Store.Contract
import Mathlib.Data.List.Chain

/-!
# The history of a customer's names (EC-01)

Customers are created and renamed, their tiers change and their inflows are processed, one operation
after the other. The entries of a customer's history then lead from the empty name to the present
one, and every ledger entry names its customer as the customer was named when the inflow was
processed; `name_history_faithful` says so of every point of such a run.
-/

namespace AccountOS

open Conc Sql

/-! ### Histories -/

/-- The entries start at the empty name, each goes on where the one before it ended, and the last
one ends at `name`. -/
def IsNameChain (es : List NameHistoryEntry) (name : String) : Prop :=
  es.head?.map NameHistoryEntry.previousName = some "" ∧
    es.IsChain (fun e e' => e'.previousName = e.newName) ∧
    es.getLast?.map NameHistoryEntry.newName = some name

instance (es : List NameHistoryEntry) (name : String) : Decidable (IsNameChain es name) :=
  inferInstanceAs (Decidable (_ ∧ _ ∧ _))

/-- A name is the first one. -/
theorem isNameChain_singleton {e : NameHistoryEntry} (h : e.previousName = "") :
    IsNameChain [e] e.newName := by
  refine ⟨?_, List.isChain_singleton e, rfl⟩
  rw [List.head?_cons, Option.map_some, h]

/-- The next name goes on where the last one ended. -/
theorem IsNameChain.concat {es : List NameHistoryEntry} {name : String} (h : IsNameChain es name)
    {e : NameHistoryEntry} (he : e.previousName = name) : IsNameChain (es ++ [e]) e.newName := by
  obtain ⟨hhead, hchain, hlast⟩ := h
  have hne : es ≠ [] := by
    rintro rfl
    cases hhead
  refine ⟨?_, ?_, ?_⟩
  · rw [List.head?_append_of_ne_nil es hne]
    exact hhead
  · refine List.isChain_append.2 ⟨hchain, List.isChain_singleton e, fun x hx y hy => ?_⟩
    obtain rfl : e = y := by simpa using hy
    have hx' : es.getLast? = some x := hx
    rw [hx', Option.map_some, Option.some.injEq] at hlast
    rw [he, hlast]
  · rw [List.getLast?_concat, Option.map_some]

section EntriesOf

variable {es : List NameHistoryEntry} {h : NameHistoryEntry} {customerId : String}

/-- The next entry of a customer's history. -/
theorem filter_concat_of_eq (hcustomer : h.customerId = customerId) :
    ((es ++ [h]).filter fun h => h.customerId = customerId) =
      (es.filter fun h => h.customerId = customerId) ++ [h] := by
  rw [List.filter_append, List.filter_singleton, decide_eq_true hcustomer]
  rfl

/-- An entry of another history. -/
theorem filter_concat_of_ne (hcustomer : h.customerId ≠ customerId) :
    ((es ++ [h]).filter fun h => h.customerId = customerId) =
      es.filter fun h => h.customerId = customerId := by
  rw [List.filter_append, List.filter_singleton, decide_eq_false hcustomer]
  exact List.append_nil _

end EntriesOf

/-! ### What is recorded -/

/-- What a ledger entry says of its customer. -/
structure EntrySnapshot where
  id : String
  accountId : String
  customerNameSnapshot : String
  kycTierAtTime : KycTier
deriving DecidableEq, Repr

def LedgerEntry.snapshot (e : LedgerEntry) : EntrySnapshot :=
  ⟨e.id, e.accountId, e.customerNameSnapshot, e.kycTierAtTime⟩

namespace Db

/-- The customer that an account belongs to. -/
def ownerOf (db : Db) (accountId : String) : Option Customer :=
  (db.findAccountById accountId).bind fun a => a.customerId.bind db.findCustomer

/-- The entry names the customer that its account belongs to, and the tier the customer has. An
account that belongs to nobody has an `Unknown` customer without a tier. -/
def NamesOwner (db : Db) (e : LedgerEntry) : Prop :=
  e.customerNameSnapshot = ((db.ownerOf e.accountId).map Customer.displayName).getD "Unknown" ∧
    e.kycTierAtTime = ((db.ownerOf e.accountId).map Customer.kycTier).getD .tier0

instance (db : Db) (e : LedgerEntry) : Decidable (db.NamesOwner e) :=
  inferInstanceAs (Decidable (_ ∧ _))

/-- Every customer's entries lead from the empty name to the present one. -/
structure NamesRecorded (db : Db) : Prop where
  customers : (db.customers.map Customer.id).Nodup
  accounts : (db.accounts.map Account.id).Nodup
  owned : ∀ h ∈ db.nameHistory, ∃ c ∈ db.customers, c.id = h.customerId
  chains : ∀ c ∈ db.customers,
    IsNameChain (db.nameHistory.filter fun h => h.customerId = c.id) c.displayName

end Db

/-- What each call does: histories stay right, no entry changes what it says, and a new one names
its customer. -/
structure RecordsNames (db db' : Db) : Prop where
  names : db.NamesRecorded → db'.NamesRecorded
  kept : ∀ e ∈ db.ledgerEntries, ∃ e' ∈ db'.ledgerEntries, e'.snapshot = e.snapshot
  written : ∀ e ∈ db'.ledgerEntries,
    (∃ e₀ ∈ db.ledgerEntries, e₀.snapshot = e.snapshot) ∨ db.NamesOwner e

/-- How a customer is called. -/
def Customer.naming (c : Customer) : String × String := (c.id, c.displayName)

/-- Two databases in which customers are called the same, and entries say the same. -/
structure SameNames (db db' : Db) : Prop where
  customers : db'.customers.map Customer.naming = db.customers.map Customer.naming
  nameHistory : db'.nameHistory = db.nameHistory
  accounts : db'.accounts.map Account.id = db.accounts.map Account.id
  ledgerEntries : db'.ledgerEntries.map LedgerEntry.snapshot =
    db.ledgerEntries.map LedgerEntry.snapshot

section Relations

variable {db db' : Db}

theorem SameNames.refl (db : Db) : SameNames db db := ⟨rfl, rfl, rfl, rfl⟩

/-- Where customers are called the same, their histories are as right as they were. -/
theorem SameNames.namesRecorded (h : SameNames db db') (hdb : db.NamesRecorded) :
    db'.NamesRecorded := by
  have hids : db'.customers.map Customer.id = db.customers.map Customer.id := by
    have hfst := congrArg (List.map Prod.fst) h.customers
    rwa [List.map_map, List.map_map] at hfst
  have hcustomer : ∀ c ∈ db'.customers, ∃ c₀ ∈ db.customers, c₀.id = c.id ∧
      c₀.displayName = c.displayName := by
    intro c hc
    have hmem : c.naming ∈ db.customers.map Customer.naming := h.customers ▸ List.mem_map_of_mem hc
    obtain ⟨c₀, hc₀, hnaming⟩ := List.mem_map.1 hmem
    exact ⟨c₀, hc₀, congrArg Prod.fst hnaming, congrArg Prod.snd hnaming⟩
  refine ⟨?_, ?_, ?_, ?_⟩
  · rw [hids]
    exact hdb.customers
  · rw [h.accounts]
    exact hdb.accounts
  · intro x hx
    rw [h.nameHistory] at hx
    obtain ⟨c, hc, hid⟩ := hdb.owned x hx
    have hmem : c.id ∈ db'.customers.map Customer.id := hids ▸ List.mem_map_of_mem hc
    obtain ⟨c', hc', hid'⟩ := List.mem_map.1 hmem
    exact ⟨c', hc', hid'.trans hid⟩
  · intro c hc
    obtain ⟨c₀, hc₀, hid, hname⟩ := hcustomer c hc
    rw [h.nameHistory, ← hid, ← hname]
    exact hdb.chains c₀ hc₀

theorem SameNames.records (h : SameNames db db') : RecordsNames db db' := by
  have hmem : ∀ {e : LedgerEntry} {x y : Db}, e ∈ x.ledgerEntries →
      x.ledgerEntries.map LedgerEntry.snapshot = y.ledgerEntries.map LedgerEntry.snapshot →
      ∃ e' ∈ y.ledgerEntries, e'.snapshot = e.snapshot := by
    intro e x y he hxy
    have hsnapshot : e.snapshot ∈ y.ledgerEntries.map LedgerEntry.snapshot :=
      hxy ▸ List.mem_map_of_mem he
    exact List.mem_map.1 hsnapshot
  exact ⟨h.namesRecorded, fun e he => hmem he h.ledgerEntries.symm,
    fun e he => .inl (hmem he h.ledgerEntries)⟩

/-- A ledger entry that names its owner. -/
theorem RecordsNames.createLedgerEntry {e : LedgerEntry} (hop : db.createLedgerEntry e = .ok db')
    (he : db.NamesOwner e) : RecordsNames db db' := by
  obtain ⟨-, -, -, rfl⟩ := Db.createLedgerEntry_eq_ok.1 hop
  refine ⟨fun h => ⟨h.customers, h.accounts, h.owned, h.chains⟩, ?_, ?_⟩
  · exact fun x hx => ⟨x, List.mem_append_left _ hx, rfl⟩
  · intro x hx
    rcases List.mem_append.1 hx with hx | hx
    · exact .inl ⟨x, hx, rfl⟩
    · rw [List.mem_singleton.1 hx]
      exact .inr he

/-- A call that leaves the ledger alone. -/
theorem RecordsNames.of_names (hentries : db'.ledgerEntries = db.ledgerEntries)
    (h : db.NamesRecorded → db'.NamesRecorded) : RecordsNames db db' := by
  refine ⟨h, fun e he => ⟨e, hentries ▸ he, rfl⟩, fun e he => .inl ⟨e, ?_, rfl⟩⟩
  rwa [hentries] at he

/-- The first entry of a new customer is the whole history, and those of the others stay. -/
theorem RecordsNames.createCustomer {c : Customer} {h : NameHistoryEntry}
    (hop : db.createCustomer c h = .ok db') (hcustomer : h.customerId = c.id)
    (hprevious : h.previousName = "") (hnew : h.newName = c.displayName) : RecordsNames db db' := by
  obtain ⟨hfresh, -, -, -, rfl⟩ := Db.createCustomer_eq_ok.1 hop
  refine .of_names rfl fun hdb =>
    ⟨nodup_map_append_singleton hdb.customers hfresh, hdb.accounts, ?_, ?_⟩
  · intro x hx
    rcases List.mem_append.1 hx with hx | hx
    · obtain ⟨c₀, hc₀, hid⟩ := hdb.owned x hx
      exact ⟨c₀, List.mem_append_left _ hc₀, hid⟩
    · rw [List.mem_singleton.1 hx]
      exact ⟨c, List.mem_append_right _ (List.mem_singleton_self c), hcustomer.symm⟩
  · intro x hx
    rcases List.mem_append.1 hx with hx | hx
    · rw [filter_concat_of_ne fun heq => hfresh x hx (heq.symm.trans hcustomer)]
      exact hdb.chains x hx
    · rw [List.mem_singleton.1 hx]
      have hnone : db.nameHistory.filter (fun h => decide (h.customerId = c.id)) = [] := by
        refine List.filter_eq_nil_iff.2 fun y hy heq => ?_
        obtain ⟨c₀, hc₀, hid⟩ := hdb.owned y hy
        exact hfresh c₀ hc₀ (hid.trans (of_decide_eq_true heq))
      rw [filter_concat_of_eq hcustomer, hnone, List.nil_append, ← hnew]
      exact isNameChain_singleton hprevious

/-- A rename goes on where the customer's history ended. -/
theorem RecordsNames.renameCustomer {id newName : String} {h : NameHistoryEntry}
    (hop : db.renameCustomer id newName h = .ok db') (hcustomer : h.customerId = id)
    (hprevious : ∃ c ∈ db.customers, c.id = id ∧ h.previousName = c.displayName)
    (hnew : h.newName = newName) : RecordsNames db db' := by
  obtain ⟨-, -, rfl⟩ := Db.renameCustomer_eq_ok.1 hop
  obtain ⟨c, hc, hid, hname⟩ := hprevious
  refine .of_names rfl fun hdb =>
    ⟨nodup_map_updateRow (fun _ => by rfl) hdb.customers, hdb.accounts, ?_, ?_⟩
  · have hkept : ∀ c₀ ∈ db.customers, ∃ c' ∈ updateRow Customer.id id
        (fun c => { c with displayName := newName }) db.customers, c'.id = c₀.id := by
      intro c₀ hc₀
      have hmem : c₀.id ∈ (updateRow Customer.id id
          (fun c => { c with displayName := newName }) db.customers).map Customer.id := by
        rw [map_updateRow (fun _ => by rfl)]
        exact List.mem_map_of_mem hc₀
      obtain ⟨c', hc', hid'⟩ := List.mem_map.1 hmem
      exact ⟨c', hc', hid'⟩
    intro x hx
    rcases List.mem_append.1 hx with hx | hx
    · obtain ⟨c₀, hc₀, hid₀⟩ := hdb.owned x hx
      obtain ⟨c', hc', hid'⟩ := hkept c₀ hc₀
      exact ⟨c', hc', hid'.trans hid₀⟩
    · obtain ⟨c', hc', hid'⟩ := hkept c hc
      rw [List.mem_singleton.1 hx]
      exact ⟨c', hc', (hid'.trans hid).trans hcustomer.symm⟩
  · intro x hx
    rcases mem_updateRow_cases hx with ⟨y, hy, hkey, rfl⟩ | ⟨hx, hkey⟩
    · have hyc : y = c := eq_of_key_eq hdb.customers hy hc (hkey.trans hid.symm)
      show IsNameChain ((db.nameHistory ++ [h]).filter fun h => h.customerId = y.id) newName
      rw [filter_concat_of_eq (hcustomer.trans hkey.symm), ← hnew]
      exact (hdb.chains y hy).concat (by rw [hname, hyc])
    · rw [filter_concat_of_ne fun heq => hkey (heq.symm.trans hcustomer)]
      exact hdb.chains x hx

end Relations

/-! ### The statements -/

/-- The statements that neither open an account nor write to the ledger. -/
def WriteOp.KeepsNames : WriteOp → Prop
  | createLedgerEntry _ | createAccount _ => False
  | _ => True

/-- **A statement that keeps all names.** -/
theorem SameNames.apply {o : WriteOp} (ho : o.KeepsNames) {db db' : Db} (hop : o.apply db = .ok db') :
    SameNames db db' := by
  cases o with
  | createLedgerEntry e => exact ho.elim
  | createAccount a => exact ho.elim
  | updateReconciliationByRef ref status =>
    obtain ⟨-, rfl⟩ := Db.updateReconciliationByRef_eq_ok.1 hop
    exact { SameNames.refl db with ledgerEntries := map_updateRow (fun _ => by rfl) _ }
  | updateReconciliationById id status =>
    obtain ⟨-, rfl⟩ := Db.updateReconciliationById_eq_ok.1 hop
    exact { SameNames.refl db with ledgerEntries := map_updateRow (fun _ => by rfl) _ }
  | updateAccountStatus id status =>
    obtain ⟨-, rfl⟩ := Db.updateAccountStatus_eq_ok.1 hop
    exact { SameNames.refl db with accounts := map_updateRow (fun _ => by rfl) _ }
  | updateAccountModel id model =>
    obtain ⟨-, rfl⟩ := Db.updateAccountModel_eq_ok.1 hop
    exact { SameNames.refl db with accounts := map_updateRow (fun _ => by rfl) _ }
  | closeAccount id closedAt closedReason =>
    obtain ⟨-, rfl⟩ := Db.closeAccount_eq_ok.1 hop
    exact { SameNames.refl db with accounts := map_updateRow (fun _ => by rfl) _ }
  | updateCustomerTier id kycTier =>
    obtain ⟨-, rfl⟩ := Db.updateCustomerTier_eq_ok.1 hop
    exact { SameNames.refl db with customers := map_updateRow (fun _ => by rfl) _ }
  | _ =>
    have hsame := WriteOp.sameExcept hop
    refine ⟨?_, hsame.nameHistory, ?_, ?_⟩
    · rw [hsame.customers nofun]
    · rw [hsame.accounts nofun]
    · rw [hsame.ledgerEntries nofun]

theorem sameNames_footprint :
    Footprint WriteOp.KeepsNames fun w w' => SameNames w.db w'.db where
  sameData h := by
    rw [h.db]
    exact .refl _
  writes ho hop hw := by
    rw [hw]
    exact .apply ho hop

/-! ### The operations -/

/-- An operation on a customer, or an inflow. -/
inductive IdentityOp
  | createCustomer (dto : CreateCustomerDto) (businessId : String)
  | renameCustomer (id : String) (dto : RenameCustomerDto) (businessId actor : String)
  | updateKycTier (id : String) (dto : UpdateKycTierDto) (businessId actor : String)
  | process (payload : InflowPayload)

namespace IdentityOp

/-- Run one operation, without its answer. -/
def run : IdentityOp → Action Unit
  | createCustomer dto businessId =>
    (AccountOS.createCustomer dto businessId).bind fun _ => .ret ()
  | renameCustomer id dto businessId actor =>
    (AccountOS.renameCustomer id dto businessId actor).bind fun _ => .ret ()
  | updateKycTier id dto businessId actor =>
    (AccountOS.updateKycTier id dto businessId actor).bind fun _ => .ret ()
  | process payload => WebhookProcessor.process payload

/-- Run operations one after the other; an error ends an operation but not the ones after it. -/
def runAll : List IdentityOp → Action Unit
  | [] => .ret ()
  | op :: ops => (op.run.catching fun _ => .ret ()).bind fun _ => runAll ops

end IdentityOp

/-! ### What each of them keeps -/

/-- Only one operation runs at a time, so what it has read stays as it was. -/
def nameContract : Contract Unit World Env Call where
  allowed _ _ _ _ := True
  inv w := w.db.NamesRecorded
  rely _ w w' := w'.db = w.db
  guarantee _ _ _ w w' := RecordsNames w.db w'.db
  refl _ _ := rfl
  trans h h' := h'.trans h
  kept hw h := h.names hw
  others hne := absurd rfl hne

theorem undisturbed_nameContract : Contract.Undisturbed nameContract := by
  intro i l env w w' hsame
  refine ⟨?_, hsame.db⟩
  show RecordsNames w.db w'.db
  rw [hsame.db]
  exact (SameNames.refl w.db).records

section Operations

/-- Whatever comes out of it. -/
abbrev KeepsNames {α : Type} (p : Action α) (w : World) : Prop :=
  p.Wp nameContract.protocol () (fun _ _ => True) (fun _ _ => True) w

variable {α β : Type} {w : World}

theorem KeepsNames.bind {p : Action α} {f : α → Action β} (hp : KeepsNames p w)
    (hf : ∀ a w', KeepsNames (f a) w') : KeepsNames (p.bind f) w :=
  Proc.Wp.bind (hp.mono (fun a w' _ => hf a w') fun _ _ h => h)

theorem KeepsNames.catching {p : Action α} {f : Error → Action α} (hp : KeepsNames p w)
    (hf : ∀ e w', KeepsNames (f e) w') : KeepsNames (p.catching f) w :=
  Proc.Wp.catching (hp.mono (fun _ _ h => h) fun e w' _ => hf e w')

/-- A method that only executes statements which keep all names. -/
theorem KeepsNames.of_keeps {p : Action α}
    (hp : p.Keeps nameContract.allowed fun w w' => SameNames w.db w'.db) : KeepsNames p w :=
  Contract.wp_of_keeps hp fun _ _ _ _ _ h => h.records

theorem keepsNames_audit {entry : AuditLogEntry} : KeepsNames (audit entry) w :=
  .of_keeps sameNames_footprint.keeps_audit

theorem keepsNames_createCustomer {dto : CreateCustomerDto} {businessId : String} :
    KeepsNames (createCustomer dto businessId) w := by
  refine .bind ?_ fun created w' => .bind keepsNames_audit fun _ _ => trivial
  refine Contract.wp_register undisturbed_nameContract ?_ fun _ _ _ => trivial
  intro env w db w' _ _ _ hop hw'
  rw [hw']
  exact ⟨.createCustomer hop rfl rfl rfl, trivial⟩

theorem keepsNames_renameCustomer {id : String} {dto : RenameCustomerDto}
    {businessId actor : String} : KeepsNames (renameCustomer id dto businessId actor) w := by
  refine Proc.Wp.bind (Contract.wp_find undisturbed_nameContract ?_ fun _ _ _ => trivial)
  intro env w hw _
  cases hfound : w.db.findCustomerOf id businessId with
  | none => trivial
  | some customer =>
    obtain ⟨hcustomer, hid, -⟩ := Db.findCustomerOf_eq_some hfound
    refine KeepsNames.bind ?_ fun updated w' =>
      KeepsNames.bind keepsNames_audit fun _ _ => trivial
    refine Contract.wp_register undisturbed_nameContract ?_ fun _ _ _ => trivial
    intro env' w₁ db w' _ hrely _ hop hw'
    -- nothing has happened since the customer was read
    have hsame : w₁.db = w.db := hrely
    rw [hw']
    refine ⟨.renameCustomer hop rfl ⟨customer, ?_, hid, rfl⟩ rfl, trivial⟩
    rw [hsame]
    exact hcustomer

theorem keeps_auditFlagged {entry : Rule → AuditLogEntry} (rules : List Rule) :
    (auditFlagged entry rules).Keeps nameContract.allowed fun w w' => SameNames w.db w'.db := by
  induction rules with
  | nil => trivial
  | cons rule rules ih => exact Proc.Keeps.bind sameNames_footprint.keeps_audit fun _ => ih

theorem keepsNames_updateKycTier {id : String} {dto : UpdateKycTierDto}
    {businessId actor : String} : KeepsNames (updateKycTier id dto businessId actor) w := by
  refine .of_keeps (Proc.Keeps.bind sameNames_footprint.keeps_find fun customer => ?_)
  cases customer with
  | none => trivial
  | some customer =>
    refine Proc.Keeps.bind (sameNames_footprint.keeps_statement fun _ => trivial) fun _ => ?_
    refine Proc.Keeps.bind sameNames_footprint.keeps_find fun staleRules => ?_
    refine Proc.Keeps.bind ?_ fun _ => ?_
    · unfold flagStaleRules
      split
      · trivial
      · refine Proc.Keeps.bind (sameNames_footprint.keeps_statement fun _ => trivial) fun _ => ?_
        exact keeps_auditFlagged staleRules
    · exact Proc.Keeps.bind sameNames_footprint.keeps_audit fun _ => trivial

/-! ### Processing an inflow -/

/-- What has been found of the account is so in the database. -/
def FoundIn (db : Db) (found : FoundAccount) : Prop :=
  found.account ∈ db.accounts ∧ found.customer = found.account.customerId.bind db.findCustomer

theorem foundIn_of_lookUp {db : Db} {accountNumber : String} {found : FoundAccount}
    (h : ((db.findAccount accountNumber).map fun a =>
      FoundAccount.mk a (a.customerId.bind db.findCustomer)) = some found) : FoundIn db found := by
  obtain ⟨a, ha, rfl⟩ := Option.map_eq_some_iff.1 h
  exact ⟨List.mem_of_find?_eq_some ha, rfl⟩

/-- The entry of an inflow names the customer that has been found. -/
theorem namesOwner_entry {db : Db} (hdb : db.NamesRecorded) {payload : InflowPayload}
    {found : FoundAccount} (hfound : FoundIn db found) {status : ReconciliationStatus} {env : Env}
    {amountKobo priorTotal : Int} :
    db.NamesOwner ((WebhookProcessor.inflowDto payload found).entry status env amountKobo
      priorTotal) := by
  obtain ⟨hmem, hcustomer⟩ := hfound
  have haccount : db.findAccountById found.account.id = some found.account := by
    cases h : db.findAccountById found.account.id with
    | none =>
      have hne := List.find?_eq_none.1 h _ hmem
      simp at hne
    | some a =>
      obtain ⟨ha, hid⟩ := Db.findAccountById_eq_some h
      rw [eq_of_key_eq hdb.accounts ha hmem hid]
  have howner : db.ownerOf found.account.id = found.customer := by
    rw [Db.ownerOf, haccount, hcustomer]
    rfl
  unfold Db.NamesOwner
  show _ = ((db.ownerOf found.account.id).map _).getD _ ∧
    _ = ((db.ownerOf found.account.id).map _).getD _
  rw [howner]
  exact ⟨rfl, rfl⟩

/-- The customer that an inflow is written for is the one that has just been read. -/
theorem keepsNames_writeInflow {payload : InflowPayload} {found : FoundAccount}
    {status : ReconciliationStatus} (hfound : FoundIn w.db found) :
    KeepsNames (writeInflow (WebhookProcessor.inflowDto payload found) status) w := by
  refine Contract.wp_transaction undisturbed_nameContract logsOnly_nothing ?_ fun _ _ _ => trivial
  intro env w₁ total db w' hw₁ hrely _ hrun hw'
  have hsame : w₁.db = w.db := hrely
  obtain ⟨amountKobo, -, -, hop⟩ := (writeInflowTx_run_eq_ok w₁.db).1 hrun
  rw [hw']
  exact ⟨.createLedgerEntry hop (namesOwner_entry hw₁ (by rwa [hsame])), trivial⟩

open WebhookProcessor in
theorem keepsNames_processUnseen {payload : InflowPayload} :
    KeepsNames (processUnseen payload) w := by
  refine Proc.Wp.bind (Contract.wp_find undisturbed_nameContract ?_ fun _ _ _ => trivial)
  intro env w _ _
  -- of the writes of a delivery only the ledger entry has to do with names
  have hexecuting : ∀ o : WriteOp, o.Executing → o.KeepsNames := by
    intro o ho
    cases o with
    | createLedgerEntry | createAccount => exact ho.elim
    | _ => trivial
  have hclaiming : ∀ o : WriteOp, o.Claiming → o.KeepsNames := by
    intro o ho
    cases o with
    | createProcessedEvent => trivial
    | _ => exact ho.elim
  have hreconciling : ∀ o : WriteOp, o.Reconciling → o.KeepsNames := by
    intro o ho
    cases o with
    | updateReconciliationByRef | updateReconciliationById => trivial
    | _ => exact ho.elim
  cases h : (w.db.findAccount payload.accountNumber).map fun a =>
      FoundAccount.mk a (a.customerId.bind w.db.findCustomer) with
  | none => exact keepsNames_audit
  | some found =>
    have hfound := foundIn_of_lookUp h
    show KeepsNames (if _ then _ else _) w
    split
    next => exact .of_keeps (sameNames_footprint.keeps_processCustomEvent hexecuting hclaiming)
    next =>
      cases hstatus : found.account.status with
      | suspended => exact .bind (keepsNames_writeInflow hfound) fun _ _ => keepsNames_audit
      | closed => exact keepsNames_audit
      | expired => exact keepsNames_audit
      | active =>
        refine .bind (keepsNames_writeInflow hfound) fun total w' => .of_keeps ?_
        refine Proc.Keeps.bind keeps_bigIntOrThrow fun amountKobo => ?_
        refine Proc.Keeps.bind sameNames_footprint.keeps_evaluate fun rules => ?_
        refine Proc.Keeps.bind (sameNames_footprint.keeps_settleInflow hexecuting hreconciling ?_)
          fun _ => sameNames_footprint.keeps_createProcessedEvent hclaiming
        exact fun w _ => .refl w.db

open WebhookProcessor in
theorem keepsNames_process {payload : InflowPayload} : KeepsNames (process payload) w := by
  refine .catching ?_ fun e w' => ?_
  · refine Proc.Wp.bind (Contract.wp_find undisturbed_nameContract ?_ fun _ _ _ => trivial)
    intro env w _ _
    cases w.db.findProcessedEvent payload.eventId with
    | none => exact keepsNames_processUnseen
    | some _ => exact keepsNames_audit
  · split
    · exact keepsNames_audit
    · trivial

theorem keepsNames_runAll (ops : List IdentityOp) : KeepsNames (IdentityOp.runAll ops) w := by
  have hrun : ∀ op w', KeepsNames (IdentityOp.run op) w' := by
    intro op w'
    cases op with
    | createCustomer => exact .bind keepsNames_createCustomer fun _ _ => trivial
    | renameCustomer => exact .bind keepsNames_renameCustomer fun _ _ => trivial
    | updateKycTier => exact .bind keepsNames_updateKycTier fun _ _ => trivial
    | process => exact keepsNames_process
  induction ops generalizing w with
  | nil => trivial
  | cons op ops ih => exact .bind (.catching (hrun op w) fun _ _ => trivial) fun _ _ => ih

end Operations

/-! ### Runs -/

/-- The call writes an entry for the customer as it is. -/
structure WritesFor (ev : Event Unit World Env Call) (e : LedgerEntry) : Prop where
  written : e ∈ ev.after.db.ledgerEntries
  new : ∀ e₀ ∈ ev.before.db.ledgerEntries, e₀.snapshot ≠ e.snapshot
  named : ev.before.db.NamesOwner e

/-- **History is faithful.** Whatever operations run, one at a time: in every state of the run the
entries of each customer's history lead from the empty name to the present one, every new ledger
entry was written for the customer of its account as it was named, and with the tier it had, at that
call; and no later call changes what an entry says. -/
theorem name_history_faithful (ops : List IdentityOp) {w₀ w : World}
    {hist : List (Event Unit World Env Call)} {ps : Unit → Action Unit}
    (h₀ : w₀.db.NamesRecorded)
    (run : Run (fun _ _ _ _ => True) (fun _ => IdentityOp.runAll ops) w₀ hist ps w) :
    (∀ n, (stateAt hist w n).db.NamesRecorded) ∧
    (∀ n, ∀ e ∈ (stateAt hist w n).db.ledgerEntries,
      (∃ e₀ ∈ w₀.db.ledgerEntries, e₀.snapshot = e.snapshot) ∨
        ∃ m ev e₀, m < n ∧ hist[m]? = some ev ∧ WritesFor ev e₀ ∧ e₀.snapshot = e.snapshot) ∧
    ∀ m n, m ≤ n → ∀ e ∈ (stateAt hist w m).db.ledgerEntries,
      ∃ e' ∈ (stateAt hist w n).db.ledgerEntries, e'.snapshot = e.snapshot := by
  obtain ⟨-, hhist⟩ := Contract.sound (C := nameContract) h₀ (fun _ => keepsNames_runAll ops) run
  have hcall : ∀ (k : ℕ) ev, hist[k]? = some ev →
      ev.before.db.NamesRecorded ∧ RecordsNames ev.before.db ev.after.db :=
    fun k ev hev => hhist ev (List.mem_of_getElem? hev)
  refine ⟨fun n => ?_, fun n e he => ?_, fun m n hmn e he => ?_⟩
  · exact run.always (I := fun w => w.db.NamesRecorded) h₀
      (fun k ev hev hbefore => (hcall k ev hev).2.names hbefore) n
  · by_cases hold : ∃ e₀ ∈ w₀.db.ledgerEntries, e₀.snapshot = e.snapshot
    · exact .inl hold
    · -- the call after which the ledger first says so
      have hzero : ¬ ∃ e₀ ∈ (stateAt hist w 0).db.ledgerEntries, e₀.snapshot = e.snapshot := by
        rw [run.stateAt_zero]
        exact hold
      obtain ⟨k, ev, -, hkn, hev, hnone, hsome⟩ := run.exists_change
        (P := fun w => ¬ ∃ e₀ ∈ w.db.ledgerEntries, e₀.snapshot = e.snapshot) (Nat.zero_le n)
        hzero (fun hnone => hnone ⟨e, he, rfl⟩)
      obtain ⟨e₁, he₁, hsnapshot⟩ := not_not.1 hsome
      refine .inr ⟨k, ev, e₁, hkn, hev, ⟨he₁, fun e₀ he₀ heq => ?_, ?_⟩, hsnapshot⟩
      · exact hnone ⟨e₀, he₀, heq.trans hsnapshot⟩
      · rcases (hcall k ev hev).2.written e₁ he₁ with ⟨e₀, he₀, heq⟩ | hnamed
        · exact absurd ⟨e₀, he₀, heq.trans hsnapshot⟩ hnone
        · exact hnamed
  · refine run.persists (P := fun w => ∃ e' ∈ w.db.ledgerEntries, e'.snapshot = e.snapshot) hmn
      ⟨e, he, rfl⟩ fun k ev _ _ hev hbefore => ?_
    obtain ⟨e', he', hsnapshot⟩ := hbefore
    obtain ⟨e'', he'', hkept⟩ := (hcall k ev hev).2.kept e' he'
    exact ⟨e'', he'', hkept.trans hsnapshot⟩

namespace Sample

/-- Amina has an account. -/
def named : World := { db := {
  businesses := [⟨"biz1", "Biz", none⟩]
  customers := [⟨"c1", "Amina", .tier1, "biz1", none, none⟩]
  nameHistory := [⟨"h1", "c1", "", "Amina", none, "system", 0⟩]
  accounts := [⟨"a1", "ref1", "nomba1", "001", .active, .sequential, some "c1", "biz1", none, none,
    0⟩] } }

/-- She is renamed, and then an inflow arrives. -/
def renamedThenPaid : List IdentityOp :=
  [.renameCustomer "c1" ⟨"Amina Bello", none⟩ "biz1" "admin", .process ⟨"e1", "t1", "001", 500, none,
    none, none, none, none⟩]

/-- The environment gives each new row its own id. -/
def renamedThenPaidEnvs : List (Unit × Env) :=
  (List.range 9).map fun n => ((), { row := ⟨n, s!"row{n}"⟩ })

/-- The run. -/
def renamedThenPaidRun : List (Event Unit World Env Call) × (Unit → Action Unit) × World :=
  exec (fun _ => IdentityOp.runAll renamedThenPaid) named renamedThenPaidEnvs

end Sample

/-- The entry of the inflow bears her new name. -/
theorem name_history_faithful_renamed :
    Sample.renamedThenPaidRun.2.2.db.ledgerEntries.map LedgerEntry.customerNameSnapshot =
        ["Amina Bello"] ∧
      ∀ n, (stateAt Sample.renamedThenPaidRun.1 Sample.renamedThenPaidRun.2.2 n).db.NamesRecorded :=
  ⟨by decide +kernel, (name_history_faithful Sample.renamedThenPaid
    ⟨by decide, by decide, by decide, by decide⟩
    (Run.of_exec _ Sample.named Sample.renamedThenPaidEnvs fun _ _ => trivial)).1⟩

end AccountOS
