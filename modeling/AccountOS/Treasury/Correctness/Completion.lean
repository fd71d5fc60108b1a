import AccountOS.Treasury.Correctness.Postings

/-!
# Completed settlements and their entries

A settlement gets its transfer reference in the statement that completes it, and the entries that
carry references derived from it are written in the same transaction. So `COMPLETED` and "debited
once" are one and the same (`completed_iff_debited`), whatever fails on the way. The catch block of
`initiate` runs after a failure only, when the transaction has been rolled back: it never meets a
completed settlement.
-/

namespace AccountOS

open Conc Sql

/-! ### The entries of a settlement -/

namespace Settlement

variable (s : Settlement)

/-- The reference of the DEBIT that settles it, derived from its transfer reference. -/
def debitReference : Option String :=
  s.nombaTransferReference.map fun ref =>
    if s.destinationType = .internalBucket then s!"{ref}_out" else s!"stl_{ref}"

/-- The reference of the CREDIT of an internal settlement. -/
def creditReference : Option String :=
  if s.destinationType = .internalBucket then s.nombaTransferReference.map fun ref => s!"{ref}_in"
  else none

/-- The entry takes the amount of the settlement out of its bucket. -/
def IsDebit (e : BucketLedgerEntry) : Prop :=
  s.debitReference = some e.reference ∧ e.entryType = .debit ∧ e.bucketId = s.bucketId ∧
    e.amountKobo = s.amountKobo

/-- The entry gives the amount of the settlement to its destination bucket. -/
def IsCredit (db : Db) (e : BucketLedgerEntry) : Prop :=
  s.creditReference = some e.reference ∧ e.entryType = .credit ∧
    (∃ d ∈ s.destinationBucketRef.bind (db.findBucket s.businessId), e.bucketId = d.id) ∧
    e.amountKobo = s.amountKobo

instance : DecidablePred s.IsDebit := fun _ => inferInstanceAs (Decidable (_ ∧ _))

instance (db : Db) : DecidablePred (s.IsCredit db) :=
  fun _ => inferInstanceAs (Decidable (_ ∧ _ ∧ (∃ d ∈ _, _) ∧ _))

end Settlement

namespace Db

variable (db : Db)

/-- The DEBIT entries of a settlement. -/
def debitsOf (s : Settlement) : List BucketLedgerEntry := db.bucketLedgerEntries.filter s.IsDebit

/-- The CREDIT entries of an internal settlement. -/
def creditsOf (s : Settlement) : List BucketLedgerEntry :=
  db.bucketLedgerEntries.filter (s.IsCredit db)

/-- The settlement has exactly one DEBIT and, when it is internal, exactly one CREDIT. -/
def DebitedOnce (s : Settlement) : Prop :=
  (db.debitsOf s).length = 1 ∧
    (s.destinationType = .internalBucket → (db.creditsOf s).length = 1)

variable {db}

/-- References are unique, so that there is at most one entry of each kind. -/
theorem debitedOnce_iff {s : Settlement} (hunique : db.UniqueColumns) :
    db.DebitedOnce s ↔ (∃ e ∈ db.bucketLedgerEntries, s.IsDebit e) ∧
      (s.destinationType = .internalBucket → ∃ e ∈ db.bucketLedgerEntries, s.IsCredit db e) := by
  have hdebit : ∀ x y, s.IsDebit x → s.IsDebit y → x.reference = y.reference :=
    fun x y hx hy => Option.some.inj (hx.1.symm.trans hy.1)
  have hcredit : ∀ x y, s.IsCredit db x → s.IsCredit db y → x.reference = y.reference :=
    fun x y hx hy => Option.some.inj (hx.1.symm.trans hy.1)
  unfold DebitedOnce debitsOf creditsOf
  rw [length_filter_eq_one_iff hunique.references hdebit,
    length_filter_eq_one_iff hunique.references hcredit]

/-- Completed settlements have been debited once, and the others have no transfer reference yet. -/
structure SettledOnce (db : Db) : Prop where
  completed : ∀ s ∈ db.settlements, s.status = .completed → db.DebitedOnce s
  others : ∀ s ∈ db.settlements, s.status ≠ .completed → s.nombaTransferReference = none

/-- Without a transfer reference there are no entries. -/
theorem no_entries (db : Db) {s : Settlement} (h : s.nombaTransferReference = none) :
    db.debitsOf s = [] ∧ db.creditsOf s = [] := by
  have hdebit : s.debitReference = none := by rw [Settlement.debitReference, h, Option.map_none]
  have hcredit : s.creditReference = none := by
    rw [Settlement.creditReference, h, Option.map_none, ite_self]
  constructor
  · refine List.filter_eq_nil_iff.2 fun e _ => ?_
    simp [Settlement.IsDebit, hdebit]
  · refine List.filter_eq_nil_iff.2 fun e _ => ?_
    simp [Settlement.IsCredit, hcredit]

end Db

/-! ### Each step -/

variable {db db' : Db} {s : Settlement}

/-- The entries of a settlement stay. -/
theorem Posts.debitedOnce {es : List BucketLedgerEntry} (h : Posts db db' es)
    (hunique : db.UniqueColumns) (hunique' : db'.UniqueColumns) (hs : db.DebitedOnce s) :
    db'.DebitedOnce s := by
  have hmem : ∀ e ∈ db.bucketLedgerEntries, e ∈ db'.bucketLedgerEntries := by
    intro e he
    rw [h.entries]
    exact List.mem_append_left _ he
  have hfind : db'.findBucket = db.findBucket := by
    funext businessId bucketRef
    unfold Db.findBucket
    rw [h.buckets]
  obtain ⟨⟨e, he, hdebit⟩, hcredit⟩ := (Db.debitedOnce_iff hunique).1 hs
  refine (Db.debitedOnce_iff hunique').2 ⟨⟨e, hmem e he, hdebit⟩, fun hinternal => ?_⟩
  obtain ⟨e', he', hcredit'⟩ := hcredit hinternal
  refine ⟨e', hmem e' he', ?_⟩
  unfold Settlement.IsCredit at hcredit' ⊢
  rwa [hfind]

theorem UnderWay.ne_completed (h : UnderWay db s) : s.status ≠ .completed := by
  intro hc
  have hreserving := h.reserving
  rw [hc] at hreserving
  exact absurd hreserving (by decide)

/-- The rows after an update: the updated one, and the others. -/
theorem Updates.mem {data : SettlementData} (h : Updates db db' s data) (hs : s ∈ db.settlements)
    (hunique : db.UniqueColumns) {x : Settlement} (hx : x ∈ db'.settlements) :
    x = data.set s ∨ x ∈ db.settlements ∧ x.id ≠ s.id := by
  rw [show db'.settlements = _ from h] at hx
  obtain ⟨y, hy, rfl⟩ := mem_updateRow.1 hx
  by_cases hid : y.id = s.id
  · rw [if_pos hid, eq_of_key_eq hunique.settlements hy hs hid]
    exact .inl rfl
  · rw [if_neg hid]
    exact .inr ⟨hy, hid⟩

namespace Db.SettledOnce

/-- The settlements stay as they are. -/
theorem congr (h : db.SettledOnce) {es : List BucketLedgerEntry} (hposts : Posts db db' es)
    (hunique : db.UniqueColumns) (hunique' : db'.UniqueColumns)
    (hsettlements : db'.settlements = db.settlements) : db'.SettledOnce := by
  constructor
  · intro x hx hcompleted
    rw [hsettlements] at hx
    exact hposts.debitedOnce hunique hunique' (h.completed x hx hcompleted)
  · rw [hsettlements]
    exact h.others

/-- One settlement is updated, to a completed one that has been debited once or to one that is not
completed and has no transfer reference. -/
theorem update (h : db.SettledOnce) {es : List BucketLedgerEntry} {data : SettlementData}
    (hposts : Posts db db' es) (hupdates : Updates db db' s data) (hs : s ∈ db.settlements)
    (hunique : db.UniqueColumns) (hunique' : db'.UniqueColumns)
    (hcompleted : data.status = .completed → db'.DebitedOnce (data.set s))
    (hothers : data.status ≠ .completed → (data.set s).nombaTransferReference = none) :
    db'.SettledOnce := by
  constructor
  · intro x hx hstatus
    rcases hupdates.mem hs hunique hx with rfl | ⟨hx, -⟩
    · exact hcompleted hstatus
    · exact hposts.debitedOnce hunique hunique' (h.completed x hx hstatus)
  · intro x hx hstatus
    rcases hupdates.mem hs hunique hx with rfl | ⟨hx, -⟩
    · exact hothers hstatus
    · exact h.others x hx hstatus

end Db.SettledOnce

/-- **Each step keeps the tables in line.** -/
theorem Posting.settled {l : Call} (h : Posting db db' l) (hunique : db.UniqueColumns)
    (hunique' : db'.UniqueColumns) (hdb : db.SettledOnce) : db'.SettledOnce := by
  cases h with
  | quiet posts settlements => exact hdb.congr posts hunique hunique' settlements
  | credited credit posts settlements => exact hdb.congr posts hunique hunique' settlements
  | moved sourceFound destFound sourceId destId posts settlements =>
    exact hdb.congr posts hunique hunique' settlements
  | @reserved s bucketRef fresh status reference posts settlements =>
    -- the new settlement is PENDING and has no reference yet
    constructor
    · intro x hx hcompleted
      rw [settlements, List.mem_append, List.mem_singleton] at hx
      rcases hx with hx | rfl
      · exact posts.debitedOnce hunique hunique' (hdb.completed x hx hcompleted)
      · rw [status] at hcompleted
        cases hcompleted
    · intro x hx hstatus
      rw [settlements, List.mem_append, List.mem_singleton] at hx
      rcases hx with hx | rfl
      · exact hdb.others x hx hstatus
      · exact reference
  | @marked s data underWay status reference posts updates =>
    -- the settlement was under way and is not completed by this
    refine hdb.update posts updates underWay.mem hunique hunique' (fun hc => absurd hc status) ?_
    intro _
    show (data.nombaTransferReference <|> s.nombaTransferReference) = none
    rw [reference, hdb.others s underWay.mem underWay.ne_completed]
    rfl
  | @paidOut s bucket e bucketRef reference now underWay external found bucketId entryBucket debit
      amount entryReference posts updates =>
    -- the DEBIT comes with the completion, in one transaction
    refine hdb.update posts updates underWay.mem hunique hunique' (fun _ => ?_)
      fun hc => absurd rfl hc
    have hmem : e ∈ db'.bucketLedgerEntries := by
      rw [posts.entries]
      exact List.mem_append_right _ (List.mem_singleton_self e)
    refine (Db.debitedOnce_iff hunique').2 ⟨⟨e, hmem, ?_, debit, entryBucket, amount⟩,
      fun hinternal => absurd hinternal external⟩
    show Option.map _ (some reference) = _
    rw [Option.map_some, entryReference]
    exact congrArg some (if_neg external)
  | @movedOut s source dest m row row₂ x y sourceRef destRef now underWay internal sourceFound
      bucketId ref destFound sourceId destId amount posts updates =>
    refine hdb.update posts updates underWay.mem hunique hunique' (fun _ => ?_)
      fun hc => absurd rfl hc
    have hdebit : m.debit row x ∈ db'.bucketLedgerEntries := by
      rw [posts.entries]
      exact List.mem_append_right _ (by simp)
    have hcredit : m.credit row₂ y ∈ db'.bucketLedgerEntries := by
      rw [posts.entries]
      exact List.mem_append_right _ (by simp)
    have hfound : db'.findBucket s.businessId destRef = some dest := by
      rw [← destFound]
      unfold Db.findBucket
      rw [posts.buckets]
    refine (Db.debitedOnce_iff hunique').2
      ⟨⟨_, hdebit, ?_, rfl, sourceId.trans bucketId.symm, amount⟩,
        fun _ => ⟨_, hcredit, ?_, rfl, ⟨dest, ?_, destId⟩, amount⟩⟩
    · show Option.map _ (some m.ref) = _
      rw [Option.map_some]
      exact congrArg some (if_pos internal)
    · exact if_pos internal
    · show s.destinationBucketRef.bind (db'.findBucket s.businessId) = some dest
      rw [ref]
      exact hfound

/-- **A completed settlement is never touched again.** -/
theorem Posting.completed_stays {l : Call} (h : Posting db db' l) (hunique : db.UniqueColumns)
    (hs : s ∈ db.settlements) (hcompleted : s.status = .completed) : s ∈ db'.settlements := by
  have hother : ∀ {x : Settlement} {data : SettlementData}, UnderWay db x → Updates db db' x data →
      s ∈ db'.settlements := by
    intro x data hx hupdates
    have hne : s.id ≠ x.id := by
      intro hid
      rw [eq_of_key_eq hunique.settlements hs hx.mem hid] at hcompleted
      exact hx.ne_completed hcompleted
    rw [show db'.settlements = _ from hupdates]
    exact mem_updateRow_of_ne hs hne
  cases h with
  | quiet posts settlements => rwa [settlements]
  | credited credit posts settlements => rwa [settlements]
  | moved sourceFound destFound sourceId destId posts settlements => rwa [settlements]
  | reserved fresh status reference posts settlements =>
    rw [settlements]
    exact List.mem_append_left _ hs
  | marked underWay status reference posts updates => exact hother underWay updates
  | paidOut underWay external found bucketId entryBucket debit amount entryReference posts
    updates =>
    exact hother underWay updates
  | movedOut underWay internal sourceFound bucketId ref destFound sourceId destId amount posts
      updates =>
    exact hother underWay updates

/-! ### Calls that settle -/

/-- The call is the one that writes the entries of the settlement. -/
def Settles (id : String) : Call → Prop
  | .completeSettlement _ _ settlementId _ => settlementId = id
  | .settleInternal _ _ _ settlementId _ => settlementId = id
  | _ => False

/-- A call that settles leaves the settlement completed, or nothing behind. -/
theorem Posting.settles {l : Call} {id : String} (h : Posting db db' l) (hl : Settles id l) :
    db'.bucketLedgerEntries = db.bucketLedgerEntries ∨
      ∃ s ∈ db'.settlements, s.id = id ∧ s.status = .completed := by
  cases h with
  | quiet posts settlements => exact .inl (by rw [posts.entries, List.append_nil])
  | @paidOut s bucket e bucketRef reference now underWay external found bucketId entryBucket debit
      amount entryReference posts updates =>
    refine .inr ⟨(completedData reference now).set s, ?_, hl, rfl⟩
    rw [show db'.settlements = _ from updates]
    exact mem_updateRow_of_eq underWay.mem rfl
  | @movedOut s source dest m row row₂ x y sourceRef destRef now underWay internal sourceFound
      bucketId ref destFound sourceId destId amount posts updates =>
    refine .inr ⟨(completedData m.ref now).set s, ?_, hl, rfl⟩
    rw [show db'.settlements = _ from updates]
    exact mem_updateRow_of_eq underWay.mem rfl
  | _ => exact hl.elim

/-! ### Any run -/

/-- **A settlement is completed exactly when it has been debited once.** Any number of threads each
serve treasury requests one after the other, with any calls failing. In every state reached a
settlement is `COMPLETED` if and only if there is exactly one DEBIT of its amount on its bucket
under the reference derived from its transfer reference (and, when it is internal, exactly one
CREDIT on its destination). A settlement that is not has no such entries, and no call that settles
it has written any entry at all. A completed settlement stays as it is. -/
theorem completed_iff_debited {ι : Type} [DecidableEq ι] {ops : ι → List TreasuryOp} {w₀ w : World}
    {hist : List (Event ι World Env Call)} {ps : ι → Action Unit} (hunique : w₀.db.UniqueColumns)
    (hstart : w₀.db.SettledOnce)
    (run : Run (fun _ _ _ _ => True) (fun i => TreasuryOp.runAll (ops i)) w₀ hist ps w) :
    (∀ s ∈ w.db.settlements, (s.status = .completed ↔ w.db.DebitedOnce s) ∧
      (s.status ≠ .completed → w.db.debitsOf s = [] ∧ w.db.creditsOf s = [] ∧
        ∀ ev ∈ hist, Settles s.id ev.call →
          ev.after.db.bucketLedgerEntries = ev.before.db.bucketLedgerEntries)) ∧
    ∀ ev ∈ hist, ∀ s ∈ ev.before.db.settlements, s.status = .completed →
      s ∈ ev.after.db.settlements := by
  have hposted := postings_of_run hunique run
  have hunique' : w.db.UniqueColumns :=
    run.preserves (I := fun w => w.db.UniqueColumns) hunique
      fun ev hev _ => (hposted ev hev).unique.2
  have hsettled : w.db.SettledOnce :=
    run.preserves (I := fun w => w.db.SettledOnce) hstart fun ev hev hbefore =>
      (hposted ev hev).posting.settled (hposted ev hev).unique.1 (hposted ev hev).unique.2 hbefore
  have hstays : ∀ ev ∈ hist, ∀ s ∈ ev.before.db.settlements, s.status = .completed →
      s ∈ ev.after.db.settlements := fun ev hev s hs hcompleted =>
    (hposted ev hev).posting.completed_stays (hposted ev hev).unique.1 hs hcompleted
  -- what a settling call has completed is still completed at the end
  have hsettles : ∀ ev ∈ hist, ∀ id, Settles id ev.call →
      ev.after.db.bucketLedgerEntries = ev.before.db.bucketLedgerEntries ∨
        ∃ s ∈ w.db.settlements, s.id = id ∧ s.status = .completed := by
    refine run.history (I := fun past w => ∀ ev ∈ past, ∀ id, Settles id ev.call →
      ev.after.db.bucketLedgerEntries = ev.before.db.bucketLedgerEntries ∨
        ∃ s ∈ w.db.settlements, s.id = id ∧ s.status = .completed) (by simp) ?_
    intro past ev hev hbefore ev' hev' id hl
    rcases List.mem_append.1 hev' with hev' | hev'
    · rcases hbefore ev' hev' id hl with hsame | ⟨s, hs, hid, hcompleted⟩
      · exact .inl hsame
      · exact .inr ⟨s, hstays ev hev s hs hcompleted, hid, hcompleted⟩
    · obtain rfl := List.mem_singleton.1 hev'
      exact (hposted ev' hev).posting.settles hl
  refine ⟨fun s hs => ⟨⟨hsettled.completed s hs, fun honce => ?_⟩, fun hstatus => ?_⟩, hstays⟩
  · by_contra hstatus
    have hnone := Db.no_entries w.db (hsettled.others s hs hstatus)
    have hlength := honce.1
    rw [hnone.1] at hlength
    cases hlength
  · obtain ⟨hdebits, hcredits⟩ := Db.no_entries w.db (hsettled.others s hs hstatus)
    refine ⟨hdebits, hcredits, fun ev hev hl => ?_⟩
    rcases hsettles ev hev s.id hl with hsame | ⟨s', hs', hid, hcompleted⟩
    · exact hsame
    · rw [eq_of_key_eq hunique'.settlements hs' hs hid] at hcompleted
      exact absurd hcompleted hstatus

/-- An internal settlement, from its request to its two entries. -/
theorem completed_iff_debited_internalThread :
    let w := (exec (Sample.internalThread "tax") Sample.twoBuckets Sample.internalSchedule).2.2
    (∃ s ∈ w.db.settlements, s.status = .completed ∧ s.destinationType = .internalBucket) ∧
      ∀ s ∈ w.db.settlements, s.status = .completed ↔ w.db.DebitedOnce s := by
  refine ⟨by decide, fun s hs => ?_⟩
  have hrun := completed_iff_debited Sample.uniqueColumns_twoBuckets
    ⟨fun s hs => absurd hs List.not_mem_nil, fun s hs => absurd hs List.not_mem_nil⟩
    (Run.of_exec (Sample.internalThread "tax") _ Sample.internalSchedule fun _ _ => trivial)
  exact (hrun.1 s hs).1

end AccountOS
