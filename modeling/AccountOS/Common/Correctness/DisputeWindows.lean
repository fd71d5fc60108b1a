import AccountOS.Common.Correctness.TimeRules
import AccountOS.Queue.Correctness.RetryAgreement
import AccountOS.Queue.Producers
import AccountOS.Rules.RuleSchema

/-!
# What a TIME_ELAPSED rule looks at

`no_event_for_days` is the dispute window of an escrow: the rule is to match when no custom event of
its name has been processed for so many days. `matchesTimeRule` is given one time only, the latest
ledger entry's, or the account's own when it has none. So a rule matches if the account is old
enough and has received nothing for so many days, whatever its condition is about
(`le_daysSince_lastActivityAt_iff`). A dispute does not keep the window open, and an inflow does.
-/

namespace AccountOS

open Sql

/-! ### The history of an account -/

/-- What happens to an account. -/
inductive Occurrence
  | inflow (createdAt : Nat)
  | event (eventName : String) (processedAt : Nat)
deriving DecidableEq, Repr

namespace Occurrence

def time : Occurrence → Nat
  | inflow t | event _ t => t

/-- The times of the inflows. -/
def inflowTime : Occurrence → Option Nat
  | inflow t => some t
  | event .. => none

/-- The times of the custom events of one name. -/
def eventTime (eventName : String) : Occurrence → Option Nat
  | inflow _ => none
  | event name t => if name = eventName then some t else none

end Occurrence

def inflowTimes (h : List Occurrence) : List Nat := h.filterMap Occurrence.inflowTime

def eventTimes (h : List Occurrence) (eventName : String) : List Nat :=
  h.filterMap (Occurrence.eventTime eventName)

/-- The database holds what has happened to the account since it was created: each inflow with its
time in the ledger, each event as processed. -/
structure Db.Remembers (db : Db) (account : Account) (h : List Occurrence) : Prop where
  inflows : ((db.ledgerEntries.filter fun e => e.accountId = account.id).map
    LedgerEntry.createdAt).Perm (inflowTimes h)
  direction : ∀ e ∈ db.ledgerEntries, e.accountId = account.id → e.direction = .inflow
  events : ∀ eventName t, .event eventName t ∈ h → ∃ e ∈ db.processedEvents,
    e.eventType = eventName ∧ e.accountRef = some account.accountRef
  since : ∀ o ∈ h, account.createdAt ≤ o.time

/-- What a statement adds to the history of an account; `none` where it would add an outflow, which
no service writes. -/
def WriteOp.occurrences (account : Account) (now : Nat) : WriteOp → Option (List Occurrence)
  | createLedgerEntry e =>
    if e.accountId ≠ account.id then some []
    else match e.direction with
      | .inflow => some [.inflow e.createdAt]
      | .outflow => none
  | createProcessedEvent e =>
    some (if e.accountRef = some account.accountRef then [.event e.eventType now] else [])
  | _ => some []

section Remembers

variable {db db' : Db} {account : Account} {h : List Occurrence}

theorem inflowTimes_append (h h' : List Occurrence) :
    inflowTimes (h ++ h') = inflowTimes h ++ inflowTimes h' := List.filterMap_append

theorem mem_inflowTimes {t : Nat} : t ∈ inflowTimes h ↔ .inflow t ∈ h := by
  constructor
  · intro ht
    obtain ⟨o, ho, htime⟩ := List.mem_filterMap.1 ht
    cases o with
    | inflow t' =>
      rw [← Option.some.inj htime]
      exact ho
    | event eventName t' => cases htime
  · exact fun ho => List.mem_filterMap.2 ⟨_, ho, rfl⟩

/-- What of an entry belongs to the history. -/
def LedgerEntry.stamp (e : LedgerEntry) : String × LedgerDirection × Nat :=
  (e.accountId, e.direction, e.createdAt)

theorem stamp_updateRow {κ : Type} [DecidableEq κ] {key : LedgerEntry → κ} {k : κ}
    {status : ReconciliationStatus} (t : List LedgerEntry) :
    (updateRow key k (fun e => { e with reconciliationStatus := status }) t).map LedgerEntry.stamp =
      t.map LedgerEntry.stamp := by
  apply map_updateRow
  intro e
  rfl

/-- The ledger counts with what it has of each entry. -/
theorem Db.Remembers.of_stamps (hdb : db.Remembers account h)
    (hledger : db'.ledgerEntries.map LedgerEntry.stamp = db.ledgerEntries.map LedgerEntry.stamp)
    (hevents : db'.processedEvents = db.processedEvents) : db'.Remembers account h := by
  have htimes : ∀ t : List LedgerEntry,
      (t.filter fun e => e.accountId = account.id).map LedgerEntry.createdAt =
        ((t.map LedgerEntry.stamp).filter fun p => p.1 = account.id).map fun p => p.2.2 := by
    intro t
    rw [List.filter_map, List.map_map]
    rfl
  constructor
  · rw [htimes, hledger, ← htimes]
    exact hdb.inflows
  · intro e he haccount
    have hmem : e.stamp ∈ db.ledgerEntries.map LedgerEntry.stamp := by
      rw [← hledger]
      exact List.mem_map_of_mem he
    obtain ⟨e₀, he₀, heq⟩ := List.mem_map.1 hmem
    simp only [LedgerEntry.stamp, Prod.mk.injEq] at heq
    rw [← heq.2.1]
    exact hdb.direction e₀ he₀ (by rw [heq.1, haccount])
  · rw [hevents]
    exact hdb.events
  · exact hdb.since

/-- One more entry in the ledger. -/
theorem Db.Remembers.createLedgerEntry {e : LedgerEntry} {now : Nat} {new : List Occurrence}
    (hdb : db.Remembers account h) (hop : db.createLedgerEntry e = .ok db')
    (hnew : (WriteOp.createLedgerEntry e).occurrences account now = some new)
    (hsince : ∀ o ∈ h ++ new, account.createdAt ≤ o.time) : db'.Remembers account (h ++ new) := by
  obtain ⟨-, -, -, rfl⟩ := Db.createLedgerEntry_eq_ok.1 hop
  have htimes : ((db.ledgerEntries ++ [e]).filter fun x => x.accountId = account.id).map
      LedgerEntry.createdAt = (db.ledgerEntries.filter fun x => x.accountId = account.id).map
        LedgerEntry.createdAt ++ if e.accountId = account.id then [e.createdAt] else [] := by
    rw [List.filter_append, List.map_append, List.filter_singleton]
    congr 1
    by_cases haccount : e.accountId = account.id <;> simp [haccount]
  -- an entry of another account is not part of the history
  by_cases haccount : e.accountId = account.id
  · cases hdirection : e.direction with
    | inflow =>
      obtain rfl : [.inflow e.createdAt] = new := by
        simpa [WriteOp.occurrences, haccount, hdirection] using hnew
      constructor
      · rw [htimes, if_pos haccount, inflowTimes_append]
        exact hdb.inflows.append_right _
      · intro x hx hid
        rcases List.mem_append.1 hx with hx | hx
        · exact hdb.direction x hx hid
        · rw [List.mem_singleton.1 hx, hdirection]
      · intro eventName t ho
        have hmem : Occurrence.event eventName t ∈ h := by simpa using ho
        exact hdb.events eventName t hmem
      · exact hsince
    | outflow => simp [WriteOp.occurrences, haccount, hdirection] at hnew
  · obtain rfl : [] = new := by simpa [WriteOp.occurrences, haccount] using hnew
    rw [List.append_nil] at hsince ⊢
    constructor
    · rw [htimes, if_neg haccount, List.append_nil]
      exact hdb.inflows
    · intro x hx hid
      rcases List.mem_append.1 hx with hx | hx
      · exact hdb.direction x hx hid
      · rw [List.mem_singleton.1 hx] at hid
        exact absurd hid haccount
    · exact hdb.events
    · exact hsince

/-- One more event that has been processed. -/
theorem Db.Remembers.createProcessedEvent {e : ProcessedEvent} {now : Nat} {new : List Occurrence}
    (hdb : db.Remembers account h) (hop : db.createProcessedEvent e = .ok db')
    (hnew : (WriteOp.createProcessedEvent e).occurrences account now = some new)
    (hsince : ∀ o ∈ h ++ new, account.createdAt ≤ o.time) : db'.Remembers account (h ++ new) := by
  obtain ⟨-, -, rfl⟩ := Db.createProcessedEvent_eq_ok.1 hop
  have hnew : ∀ o ∈ new, o = .event e.eventType now ∧ e.accountRef = some account.accountRef := by
    intro o ho
    rw [← Option.some.inj hnew] at ho
    split at ho
    next haccount => exact ⟨List.mem_singleton.1 ho, haccount⟩
    next => cases ho
  have hinflows : inflowTimes new = [] := by
    refine List.filterMap_eq_nil_iff.2 fun o ho => ?_
    rw [(hnew o ho).1]
    rfl
  constructor
  · rw [inflowTimes_append, hinflows, List.append_nil]
    exact hdb.inflows
  · exact hdb.direction
  · intro eventName t ho
    rcases List.mem_append.1 ho with ho | ho
    · obtain ⟨x, hx, hnames⟩ := hdb.events eventName t ho
      exact ⟨x, List.mem_append_left _ hx, hnames⟩
    · obtain ⟨heq, haccount⟩ := hnew _ ho
      cases heq
      exact ⟨e, by simp, rfl, haccount⟩
  · exact hsince

/-- **Every statement of the services** leaves a database with the history that it adds to. -/
theorem Db.Remembers.apply {o : WriteOp} {now : Nat} {new : List Occurrence}
    (hdb : db.Remembers account h) (hop : o.apply db = .ok db')
    (hnew : o.occurrences account now = some new)
    (hsince : ∀ x ∈ h ++ new, account.createdAt ≤ x.time) : db'.Remembers account (h ++ new) := by
  have hsame := WriteOp.sameExcept hop
  -- all other statements add nothing to the history
  have hkept : new = [] →
      db'.ledgerEntries.map LedgerEntry.stamp = db.ledgerEntries.map LedgerEntry.stamp →
      db'.processedEvents = db.processedEvents → db'.Remembers account (h ++ new) := by
    intro hnone hledger hevents
    rw [hnone, List.append_nil]
    exact hdb.of_stamps hledger hevents
  cases o with
  | createLedgerEntry e => exact hdb.createLedgerEntry hop hnew hsince
  | createProcessedEvent e => exact hdb.createProcessedEvent hop hnew hsince
  | updateReconciliationByRef ref status =>
    obtain ⟨-, rfl⟩ := Db.updateReconciliationByRef_eq_ok.1 hop
    exact hkept (Option.some.inj hnew).symm (stamp_updateRow db.ledgerEntries) rfl
  | updateReconciliationById id status =>
    obtain ⟨-, rfl⟩ := Db.updateReconciliationById_eq_ok.1 hop
    exact hkept (Option.some.inj hnew).symm (stamp_updateRow db.ledgerEntries) rfl
  | _ =>
    refine hkept (Option.some.inj hnew).symm ?_ (hsame.processedEvents nofun)
    rw [hsame.ledgerEntries nofun]

end Remembers

/-! ### Windows -/

/-- The time is less than so many days ago. -/
def WithinDays (days : ℚ) (t now : Nat) : Prop := (now : ℚ) - t < days * (1000 * 60 * 60 * 24)

/-- One of the times is less than so many days ago. -/
def AnyWithin (days : ℚ) (times : List Nat) (now : Nat) : Prop := ∃ t ∈ times, WithinDays days t now

section Specification

variable (account : Account) (h : List Occurrence) (c : RuleCondition) (now : Nat)

/-- What the rule is to look at: the events of its name, or the inflows. -/
structure LooksAtWindow (fires : Bool) : Prop where
  event : ∀ days eventName, c.noEventForDays = some days → c.eventName = some eventName →
    c.noInflowForDays = none →
    (fires = true ↔
      ¬ AnyWithin days (eventTimes h eventName) now ∧ ¬ WithinDays days account.createdAt now)
  inflow : ∀ days, c.noInflowForDays = some days → c.noEventForDays = none →
    (fires = true ↔ ¬ AnyWithin days (inflowTimes h) now)

/-- The inflows tell as much as what the rule is to look at. -/
structure InflowsTell : Prop where
  event : ∀ days eventName, c.noEventForDays = some days → c.eventName = some eventName →
    c.noInflowForDays = none → WithinDays days account.createdAt now ∨
      (AnyWithin days (inflowTimes h) now ↔ AnyWithin days (eventTimes h eventName) now)
  inflow : ∀ days, c.noInflowForDays = some days → c.noEventForDays = none →
    AnyWithin days (inflowTimes h) now ∨ ¬ WithinDays days account.createdAt now

end Specification

/-- A later time is in the window too. -/
theorem WithinDays.mono {days : ℚ} {t t' now : Nat} (h : WithinDays days t now) (ht : t ≤ t') :
    WithinDays days t' now := by
  have hcast : (t : ℚ) ≤ t' := by exact_mod_cast ht
  unfold WithinDays at h ⊢
  linarith

/-- The full days are at least so many when the window has passed. -/
theorem le_daysSince_iff {n : Int} {t now : Nat} :
    (n : ℚ) ≤ daysSince t now ↔ ¬ WithinDays n t now := by
  have hdays : (n : ℚ) ≤ daysSince t now ↔ n * (1000 * 60 * 60 * 24) ≤ (now : Int) - t := by
    rw [Int.cast_le, daysSince]
    exact Int.le_ediv_iff_mul_le (by norm_num)
  rw [hdays, WithinDays, not_lt, ← Int.cast_le (R := ℚ)]
  push_cast
  norm_num

/-! ### The latest entry -/

instance (rank : String → Nat) : Std.Total (createdAtGE rank) where
  total e f := by
    unfold createdAtGE
    omega

instance (rank : String → Nat) : IsTrans LedgerEntry (createdAtGE rank) where
  trans e f g h h' := by
    unfold createdAtGE at h h' ⊢
    omega

/-- The first entry that the scheduler reads is a latest one. -/
theorem Db.latestEntries_head {db : Db} {rank : String → Nat} {accountId : String} :
    match (db.latestEntries rank accountId).head? with
    | none => db.ledgerEntries.filter (fun e => e.accountId = accountId) = []
    | some e => e ∈ db.ledgerEntries.filter (fun e => e.accountId = accountId) ∧
      ∀ f ∈ db.ledgerEntries.filter (fun e => e.accountId = accountId),
        f.createdAt ≤ e.createdAt := by
  unfold Db.latestEntries
  set entries := db.ledgerEntries.filter fun e => e.accountId = accountId
  have hsorted := List.pairwise_insertionSort (createdAtGE rank) entries
  have hperm := List.perm_insertionSort (createdAtGE rank) entries
  cases hsort : entries.insertionSort (createdAtGE rank) with
  | nil =>
    rw [hsort] at hperm
    exact hperm.symm.eq_nil
  | cons e rest =>
    rw [hsort] at hperm hsorted
    refine ⟨hperm.subset List.mem_cons_self, fun f hf => ?_⟩
    rcases List.mem_cons.1 (hperm.symm.subset hf) with rfl | hf
    · exact le_refl _
    · have hge : createdAtGE rank e f := List.rel_of_pairwise_cons hsorted hf
      unfold createdAtGE at hge
      omega

section Windows

variable {db : Db} {rank : String → Nat} {a : TimedAccount} {h : List Occurrence}

/-- **The one time** that a rule is given is the last at which the account was created or received
something. -/
theorem lastActivityAt_isGreatest (ha : a ∈ db.findTimedAccounts rank)
    (hdb : db.Remembers a.account h) :
    a.lastActivityAt ∈ a.account.createdAt :: inflowTimes h ∧
      ∀ t ∈ a.account.createdAt :: inflowTimes h, t ≤ a.lastActivityAt := by
  have hentries : a.ledgerEntries = db.latestEntries rank a.account.id := by
    obtain ⟨account, -, rfl⟩ := List.mem_map.1 ha
    rfl
  have hlatest := @Db.latestEntries_head db rank a.account.id
  -- `ledgerEntries[0]?.createdAt ?? account.createdAt`
  unfold TimedAccount.lastActivityAt
  rw [hentries]
  cases hhead : (db.latestEntries rank a.account.id).head? with
  | none =>
    rw [hhead] at hlatest
    have hnone : inflowTimes h = [] := by
      have hperm := hdb.inflows
      rw [hlatest] at hperm
      exact hperm.symm.eq_nil
    simp [hnone]
  | some e =>
    rw [hhead] at hlatest
    obtain ⟨he, hmax⟩ := hlatest
    have hmem : e.createdAt ∈ inflowTimes h :=
      hdb.inflows.subset (List.mem_map_of_mem he)
    have hsince : a.account.createdAt ≤ e.createdAt := hdb.since _ (mem_inflowTimes.1 hmem)
    refine ⟨List.mem_cons_of_mem _ hmem, fun t ht => ?_⟩
    rcases List.mem_cons.1 ht with rfl | ht
    · exact hsince
    · obtain ⟨f, hf, rfl⟩ := List.mem_map.1 (hdb.inflows.symm.subset ht)
      exact hmax f hf

/-- **What the code looks at**: whether the account is old enough, and its inflows. -/
theorem le_daysSince_lastActivityAt_iff {n : Int} {now : Nat} (ha : a ∈ db.findTimedAccounts rank)
    (hdb : db.Remembers a.account h) :
    (n : ℚ) ≤ daysSince a.lastActivityAt now ↔
      ¬ AnyWithin n (inflowTimes h) now ∧ ¬ WithinDays n a.account.createdAt now := by
  obtain ⟨hmem, hmax⟩ := lastActivityAt_isGreatest ha hdb
  rw [le_daysSince_iff]
  constructor
  · intro hlast
    constructor
    · rintro ⟨t, ht, hwithin⟩
      exact hlast (hwithin.mono (hmax t (List.mem_cons_of_mem _ ht)))
    · intro hwithin
      exact hlast (hwithin.mono (hmax _ List.mem_cons_self))
  · rintro ⟨hinflows, haccount⟩ hwithin
    rcases List.mem_cons.1 hmem with heq | ht
    · rw [heq] at hwithin
      exact haccount hwithin
    · exact hinflows ⟨_, ht, hwithin⟩

theorem exists_int_of_positiveInt {q : ℚ} (h : positiveInt (some q) = true) : ∃ n : Int, q = n := by
  simp only [positiveInt, Option.all_some, Bool.and_eq_true] at h
  exact exists_int_of_isInt h.1

/-- **The code looks at the right events only while the inflows tell as much.** Whatever an account
has received and whatever events were processed for it, and at whatever time: an accepted
TIME_ELAPSED rule fires as its condition says if and only if the account is younger than the
dispute window, or an inflow and an event of the name have both or neither happened in it; a rule
about inflows does, if and only if there was one in its window or the account is as old. -/
theorem looks_at_window_iff {rule : Rule} {c : RuleCondition} {now : Nat}
    (ha : a ∈ db.findTimedAccounts rank) (hc : rule.condition = some c)
    (hvalid : timeElapsedConditionSchema c = true) (hdb : db.Remembers a.account h) :
    LooksAtWindow a.account h c now (matchesTimeRule rule a.lastActivityAt now) ↔
      InflowsTell a.account h c now := by
  have hints : positiveInt c.noInflowForDays = true ∧ positiveInt c.noEventForDays = true := by
    simp only [timeElapsedConditionSchema, Bool.and_eq_true] at hvalid
    exact hvalid.1.1.1
  have hfires : ∀ {days : ℚ}, positiveInt (some days) = true →
      (days ≤ daysSince a.lastActivityAt now ↔
        ¬ AnyWithin days (inflowTimes h) now ∧ ¬ WithinDays days a.account.createdAt now) := by
    intro days hdays
    obtain ⟨n, rfl⟩ := exists_int_of_positiveInt hdays
    exact le_daysSince_lastActivityAt_iff ha hdb
  -- both conditions are compared with the same number of days
  have hevent : ∀ {days : ℚ}, c.noEventForDays = some days → c.noInflowForDays = none →
      (matchesTimeRule rule a.lastActivityAt now = true ↔
        ¬ AnyWithin days (inflowTimes h) now ∧ ¬ WithinDays days a.account.createdAt now) := by
    intro days hdays hnone
    rw [← hfires (hdays ▸ hints.2)]
    simp [matchesTimeRule, hc, hdays, hnone]
  have hinflow : ∀ {days : ℚ}, c.noInflowForDays = some days → c.noEventForDays = none →
      (matchesTimeRule rule a.lastActivityAt now = true ↔
        ¬ AnyWithin days (inflowTimes h) now ∧ ¬ WithinDays days a.account.createdAt now) := by
    intro days hdays hnone
    rw [← hfires (hdays ▸ hints.1)]
    simp [matchesTimeRule, hc, hdays, hnone]
  constructor
  · intro hlooks
    constructor
    · intro days eventName hdays hname hnone
      have hright := hlooks.event days eventName hdays hname hnone
      rw [hevent hdays hnone] at hright
      tauto
    · intro days hdays hnone
      have hright := hlooks.inflow days hdays hnone
      rw [hinflow hdays hnone] at hright
      tauto
  · intro htell
    constructor
    · intro days eventName hdays hname hnone
      have htell := htell.event days eventName hdays hname hnone
      rw [hevent hdays hnone]
      tauto
    · intro days hdays hnone
      have htell := htell.inflow days hdays hnone
      rw [hinflow hdays hnone]
      tauto

end Windows

namespace Sample

/-- A week without a dispute. -/
def disputeWindow : RuleCondition where
  noEventForDays := some 7
  eventName := some "dispute_raised"

/-- Release the escrow when the dispute window has passed. -/
def escrowRule : Rule where
  id := "rule1"
  accountId := "acc1"
  trigger := .timeElapsed
  condition := some disputeWindow
  action := .releaseFunds
  payload := some { destinationAccountRef := some "seller" }
  kycTierAtCreation := .tier1

def dispute : ProcessedEvent where
  id := "prc1"
  eventId := "evt2"
  eventType := "dispute_raised"
  accountRef := some "shop"
  businessId := some "biz"
  payload := EventsService.customEventJob "acc1" "evt2" "dispute_raised"

/-- The buyer has paid, and has raised a dispute later. -/
def escrow : World :=
  let w := shop [] [escrowRule]
  { w with db := { w.db with ledgerEntries := [inflowEntry], processedEvents := [dispute] } }

/-- Paid when the account was created, disputed after a week. -/
def escrowHistory : List Occurrence := [.inflow 0, .event "dispute_raised" (hours 168)]

/-- What the scheduler reads. -/
def escrowAccount : TimedAccount := ⟨account, [escrowRule], [inflowEntry]⟩

theorem escrowAccount_mem : escrowAccount ∈ escrow.db.findTimedAccounts fun _ => 0 := by
  have hfound : (escrow.db.findTimedAccounts fun _ => 0) = [escrowAccount] := rfl
  rw [hfound]
  exact List.mem_singleton_self _

theorem escrow_remembers : escrow.db.Remembers account escrowHistory := by
  constructor
  · exact List.Perm.refl _
  · decide
  · intro eventName t ho
    have hname : eventName = "dispute_raised" := by
      simp only [escrowHistory, List.mem_cons, Occurrence.event.injEq, reduceCtorEq, false_or,
        List.not_mem_nil, or_false] at ho
      exact ho.1
    rw [hname]
    exact ⟨dispute, List.mem_singleton_self _, rfl, rfl⟩
  · decide

end Sample

/-- A week after the dispute both are long ago. -/
theorem looks_at_window_iff_settled :
    LooksAtWindow Sample.account Sample.escrowHistory Sample.disputeWindow (Sample.hours 360)
      (matchesTimeRule Sample.escrowRule Sample.escrowAccount.lastActivityAt (Sample.hours 360)) := by
  refine (looks_at_window_iff Sample.escrowAccount_mem rfl (by decide +kernel)
    Sample.escrow_remembers).2 ?_
  constructor
  · rintro days eventName hdays hname -
    cases hdays
    cases hname
    refine .inr (iff_of_false ?_ ?_)
    · rintro ⟨t, ht, hwithin⟩
      have hpaid : t = 0 := List.mem_singleton.1 ht
      rw [WithinDays, hpaid] at hwithin
      norm_num [Sample.hours] at hwithin
    · rintro ⟨t, ht, hwithin⟩
      have hraised : t = Sample.hours 168 := List.mem_singleton.1 ht
      rw [WithinDays, hraised] at hwithin
      norm_num [Sample.hours] at hwithin
  · rintro days hdays
    cases hdays

/-- **A dispute is overlooked.** On the day after it was raised the rule that releases the escrow
fires, for the buyer paid more than a week ago. -/
theorem dispute_overlooked :
    Sample.escrowAccount ∈ (Sample.escrow.db.findTimedAccounts fun _ => 0) ∧
      Sample.escrowRule ∈ Sample.escrowAccount.rules ∧
      timeElapsedConditionSchema Sample.disputeWindow = true ∧
      Sample.escrow.db.Remembers Sample.account Sample.escrowHistory ∧
      matchesTimeRule Sample.escrowRule Sample.escrowAccount.lastActivityAt (Sample.hours 192) =
        true ∧
      ¬ LooksAtWindow Sample.account Sample.escrowHistory Sample.disputeWindow (Sample.hours 192)
        (matchesTimeRule Sample.escrowRule Sample.escrowAccount.lastActivityAt
          (Sample.hours 192)) := by
  have hfires : matchesTimeRule Sample.escrowRule Sample.escrowAccount.lastActivityAt
      (Sample.hours 192) = true := by decide +kernel
  refine ⟨Sample.escrowAccount_mem, List.mem_singleton_self _, by decide +kernel,
    Sample.escrow_remembers, hfires, fun hlooks => ?_⟩
  have hnone := ((hlooks.event 7 "dispute_raised" rfl rfl rfl).1 hfires).1
  refine hnone ⟨Sample.hours 168, by decide, ?_⟩
  rw [WithinDays]
  norm_num [Sample.hours]

end AccountOS
