import AccountOS.Treasury.Settlement

/-!
# How the ledger moves the balances

The four writers of a bucket's ledger append entries and update settlements, nothing else. This
file says what that does to the figures the services look at: the balance (the sum of the
entries), the latest balance (the cumulative amount of the latest entry) and the reserved amount
(the sum of the open settlements).

The entries of one bucket are a running total in the sense of `AccountOS.Sql.RunningTotal`;
`Agreed` says that it stores the right figures, and when the entries are in chronological order
that is the same as the fast balance being the slow one.
-/

namespace AccountOS

open Sql

/-- What an entry adds to its bucket's balance. -/
def BucketLedgerEntry.signed (e : BucketLedgerEntry) : Int :=
  match e.entryType with
  | .credit => e.amountKobo
  | .debit => -e.amountKobo

/-- The entries of a bucket as a running total. -/
def running : RunningTotal BucketLedgerEntry Int where
  delta := BucketLedgerEntry.signed
  stored := BucketLedgerEntry.cumulativeAmountKobo

namespace Db

variable {db db' : Db}

/-! ### Entries -/

/-- Every entry is later in `(createdAt, id)` order than those committed before it. -/
def Chronological (db : Db) : Prop :=
  db.bucketLedgerEntries.Pairwise fun x y => x.stamp < y.stamp

instance (db : Db) : Decidable db.Chronological :=
  inferInstanceAs (Decidable (db.bucketLedgerEntries.Pairwise fun x y => x.stamp < y.stamp))

/-- In every bucket the last entry stores the sum of the entries. -/
def Agreed (db : Db) : Prop := ∀ bucketId, running.Agrees (db.entriesOf bucketId)

theorem entriesOf_append {es : List BucketLedgerEntry}
    (h : db'.bucketLedgerEntries = db.bucketLedgerEntries ++ es) (bucketId : String) :
    db'.entriesOf bucketId = db.entriesOf bucketId ++ es.filter fun e => e.bucketId = bucketId := by
  simp [entriesOf, h]

/-- No statement changes a bucket, and one statement adds to the ledger; nothing is ever removed
from it. -/
theorem apply_ledger {op : WriteOp} (hop : op.apply db = .ok db') :
    db'.treasuryBuckets = db.treasuryBuckets ∧
      ((∃ e, op = .createBucketLedgerEntry e ∧
          db'.bucketLedgerEntries = db.bucketLedgerEntries ++ [e]) ∨
        db'.bucketLedgerEntries = db.bucketLedgerEntries) := by
  cases op with
  | createBucketLedgerEntry e =>
    obtain ⟨-, -, -, -, rfl⟩ := createBucketLedgerEntry_eq_ok.1 hop
    exact ⟨rfl, .inl ⟨e, rfl, rfl⟩⟩
  | _ =>
    have hsame := WriteOp.sameExcept hop
    exact ⟨hsame.treasuryBuckets, .inr (hsame.bucketLedgerEntries nofun)⟩

theorem Chronological.of_append {es : List BucketLedgerEntry} (hc : db'.Chronological)
    (h : db'.bucketLedgerEntries = db.bucketLedgerEntries ++ es) : db.Chronological := by
  unfold Chronological at hc
  rw [h] at hc
  exact (List.pairwise_append.1 hc).1

/-- If the entries are in order after a transaction, they were before it. -/
theorem Chronological.of_run {α : Type} {t : TxBody α} {r : α × Db} (hc : r.2.Chronological)
    (hrun : t.run schema db = .ok r) : db.Chronological := by
  have happends : ∃ es, r.2.bucketLedgerEntries = db.bucketLedgerEntries ++ es := by
    refine Tx.run_preserves (I := fun s : Db => ∃ es,
      s.bucketLedgerEntries = db.bucketLedgerEntries ++ es) ?_ hrun ⟨[], by simp⟩
    rintro op s s' hop ⟨es, hes⟩
    obtain ⟨-, ⟨e, -, hs'⟩ | hs'⟩ := apply_ledger hop
    · exact ⟨es ++ [e], by rw [hs', hes, List.append_assoc]⟩
    · exact ⟨es, by rw [hs', hes]⟩
  obtain ⟨es, hes⟩ := happends
  exact hc.of_append hes

theorem entrySum_congr (h : db'.bucketLedgerEntries = db.bucketLedgerEntries) (bucketId : String)
    (entryType : BucketEntryType) :
    db'.entrySum bucketId entryType = db.entrySum bucketId entryType := by
  unfold entrySum
  rw [h]

theorem balance_congr (h : db'.bucketLedgerEntries = db.bucketLedgerEntries) (bucketId : String) :
    db'.balance bucketId = db.balance bucketId := by
  unfold balance
  rw [entrySum_congr h, entrySum_congr h]

/-- The sum of the CREDITs minus the sum of the DEBITs is the total of the signed amounts. -/
theorem balance_eq_total (db : Db) (bucketId : String) :
    db.balance bucketId = running.total (db.entriesOf bucketId) := by
  unfold balance entrySum entriesOf RunningTotal.total
  induction db.bucketLedgerEntries with
  | nil => rfl
  | cons e es ih =>
    rw [sumWhere_cons, sumWhere_cons, List.filter_cons]
    by_cases hb : e.bucketId = bucketId
    · cases ht : e.entryType <;> simp [hb, ht, running, BucketLedgerEntry.signed] at ih ⊢ <;> omega
    · simpa [hb] using ih

theorem balance_append {e : BucketLedgerEntry}
    (h : db'.bucketLedgerEntries = db.bucketLedgerEntries ++ [e]) (bucketId : String) :
    db'.balance bucketId = db.balance bucketId + if e.bucketId = bucketId then e.signed else 0 := by
  rw [balance_eq_total, balance_eq_total, entriesOf_append h, RunningTotal.total_append]
  by_cases hb : e.bucketId = bucketId <;> simp [hb, running]

/-- The cumulative amount of the latest entry is the figure stored last. -/
theorem latestBalance_eq_last (h : db.Chronological) (bucketId : String) :
    db.latestBalance bucketId = running.last (db.entriesOf bucketId) :=
  running.stored_argmax_eq_last (h.sublist List.filter_sublist)

/-- **The fast balance is the slow one exactly when the stored figures are right.** -/
theorem agreed_iff (h : db.Chronological) :
    db.Agreed ↔ ∀ bucketId, db.latestBalance bucketId = db.balance bucketId := by
  unfold Agreed RunningTotal.Agrees
  simp only [latestBalance_eq_last h, balance_eq_total]

/-- An entry that stores its bucket's balance plus its own amount keeps the figures right. -/
theorem Agreed.append (hdb : db.Agreed) {e : BucketLedgerEntry}
    (h : db'.bucketLedgerEntries = db.bucketLedgerEntries ++ [e])
    (hc : e.cumulativeAmountKobo = db.balance e.bucketId + e.signed) : db'.Agreed := by
  intro bucketId
  rw [entriesOf_append h]
  by_cases hb : e.bucketId = bucketId
  · subst hb
    simp only [List.filter_cons, List.filter_nil, decide_true, if_true]
    rw [RunningTotal.agrees_append, ← balance_eq_total]
    exact hc
  · simpa [hb] using hdb bucketId

/-! ### Settlements -/

theorem reservedKobo_congr (h : db'.settlements = db.settlements) (bucketId : String) :
    db'.reservedKobo bucketId = db.reservedKobo bucketId := by
  unfold reservedKobo
  rw [h]

theorem reservedKobo_append {s : Settlement} (h : db'.settlements = db.settlements ++ [s])
    (bucketId : String) :
    db'.reservedKobo bucketId = db.reservedKobo bucketId +
      if s.bucketId = bucketId ∧ s.status.Reserving then s.amountKobo else 0 := by
  unfold reservedKobo
  rw [h, sumWhere_append]
  simp

/-- Updating one settlement moves its amount between the sums over statuses: out of those that
its old status belongs to, into those that its new one does. -/
theorem settlementSum_update {p : SettlementStatus → Prop} [DecidablePred p] {s : Settlement}
    {data : SettlementData} (hunique : (db.settlements.map Settlement.id).Nodup)
    (hs : s ∈ db.settlements)
    (h : db'.settlements = updateRow Settlement.id s.id data.set db.settlements)
    (bucketId : String) :
    sumWhere (fun s => s.bucketId = bucketId ∧ p s.status) Settlement.amountKobo db'.settlements =
      sumWhere (fun s => s.bucketId = bucketId ∧ p s.status) Settlement.amountKobo db.settlements -
        (if s.bucketId = bucketId ∧ p s.status then s.amountKobo else 0) +
      if s.bucketId = bucketId ∧ p data.status then s.amountKobo else 0 := by
  rw [h, sumWhere_updateRow hunique hs rfl]
  rfl

theorem reservedKobo_update {s : Settlement} {data : SettlementData}
    (hunique : (db.settlements.map Settlement.id).Nodup) (hs : s ∈ db.settlements)
    (h : db'.settlements = updateRow Settlement.id s.id data.set db.settlements)
    (bucketId : String) :
    db'.reservedKobo bucketId = db.reservedKobo bucketId -
        (if s.bucketId = bucketId ∧ s.status.Reserving then s.amountKobo else 0) +
      if s.bucketId = bucketId ∧ data.status.Reserving then s.amountKobo else 0 :=
  settlementSum_update hunique hs h bucketId

/-- A settlement that stops reserving. -/
theorem reservedKobo_release {s : Settlement} {data : SettlementData}
    (hunique : (db.settlements.map Settlement.id).Nodup) (hs : s ∈ db.settlements)
    (hres : s.status.Reserving) (hdata : ¬ data.status.Reserving)
    (h : db'.settlements = updateRow Settlement.id s.id data.set db.settlements)
    (bucketId : String) :
    db'.reservedKobo bucketId =
      db.reservedKobo bucketId - if s.bucketId = bucketId then s.amountKobo else 0 := by
  rw [reservedKobo_update hunique hs h]
  simp [hres, hdata]

end Db

/-! ### Two different buckets -/

/-- Buckets of different references are different rows. -/
theorem findBucket_id_ne {db : Db} (hunique : (db.treasuryBuckets.map TreasuryBucket.id).Nodup)
    {businessId ref ref' : String} {b b' : TreasuryBucket}
    (hb : db.findBucket businessId ref = some b) (hb' : db.findBucket businessId ref' = some b')
    (hne : ref ≠ ref') : b.id ≠ b'.id := by
  intro hid
  obtain ⟨hmem, -, href⟩ := findBucket_eq_some db hb
  obtain ⟨hmem', -, href'⟩ := findBucket_eq_some db hb'
  exact hne (by rw [← href, ← href', eq_of_key_eq hunique hmem hmem' hid])

/-! ### The two entries of a move -/

section Moved

variable {db db₁ db' : Db} {m : Move} {row row₂ : Generated}

@[simp] theorem Move.debit_bucketId (x : Int) : (m.debit row x).bucketId = m.sourceId := rfl

@[simp] theorem Move.debit_signed (x : Int) : (m.debit row x).signed = -m.amountKobo := rfl

@[simp] theorem Move.credit_bucketId (x : Int) : (m.credit row x).bucketId = m.destinationId := rfl

@[simp] theorem Move.credit_signed (x : Int) : (m.credit row x).signed = m.amountKobo := rfl

/-- A move takes its amount from the source's balance to the destination's. -/
theorem balance_move {x y : Int}
    (h₁ : db₁.bucketLedgerEntries = db.bucketLedgerEntries ++ [m.debit row x])
    (h₂ : db'.bucketLedgerEntries = db₁.bucketLedgerEntries ++ [m.credit row₂ y])
    (bucketId : String) :
    db'.balance bucketId = db.balance bucketId -
        (if m.sourceId = bucketId then m.amountKobo else 0) +
      if m.destinationId = bucketId then m.amountKobo else 0 := by
  rw [Db.balance_append h₂, Db.balance_append h₁, Move.debit_bucketId, Move.debit_signed,
    Move.credit_bucketId, Move.credit_signed]
  split <;> omega

/-- A move between different buckets keeps the stored figures right. For one and the same bucket it
would not: the CREDIT is computed from the balance before the DEBIT. -/
theorem Db.Agreed.move (hdb : db.Agreed) (hne : m.sourceId ≠ m.destinationId)
    (h₁ : db₁.bucketLedgerEntries =
      db.bucketLedgerEntries ++ [m.debit row (db.balance m.sourceId)])
    (h₂ : db'.bucketLedgerEntries =
      db₁.bucketLedgerEntries ++ [m.credit row₂ (db.balance m.destinationId)]) : db'.Agreed := by
  refine (hdb.append h₁ (sub_eq_add_neg _ _)).append h₂ ?_
  rw [Move.credit_bucketId, Move.credit_signed, Db.balance_append h₁, Move.debit_bucketId,
    if_neg hne, add_zero]
  rfl

end Moved

end AccountOS
