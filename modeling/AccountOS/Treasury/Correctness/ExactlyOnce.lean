import AccountOS.Treasury.Correctness.LostUpdate

/-!
# Crediting a bucket exactly once

A credit may be asked for many times: a job is delivered again, a worker crashes after its commit, a
transaction is repeated after a serialization failure. The reference makes all of that one credit.
`credit_exactly_once` says so for any number of calls whose transactions run statement by statement:
the lookup and the insert of two calls may interleave, and it is the check at the commit that keeps
the second one from committing what it has not read.

The proof needs nothing of the interleaving: `takes_effect` turns every step that changes the
committed data, and every value that is returned, into a run of `creditTx` alone.
-/

namespace AccountOS

open Conc Sql

variable {ι : Type} [DecidableEq ι]

/-! ### The calls -/

/-- A thread that runs one call of `credit`, statement by statement. -/
abbrev CreditThread (ι : Type) :=
  Proc (SharedDb ι) (StepChoice Env Error) (StepLabel ι Key CreditParams) Error Int

/-- A step of such a thread. -/
abbrev CreditEvent (ι : Type) := StepEvent ι Db Key Error Env CreditParams

/-- `credit` as thread `i`: the transaction, tried again after each serialization failure. The audit
entry that is written afterwards has no part in the value returned. -/
def creditThread (i : ι) (p : CreditParams) : CreditThread ι :=
  runSerializable (isolated schema i p .serializable fun env => creditTx p env.row) maxRetries

/-- The step is the transaction of the credit, all at once, and `a` is what it returns. -/
def Credits (p : CreditParams) (a : Int) (ev : CreditEvent ι) : Prop :=
  ∃ env : Env, TakesEffect schema (creditTx p env.row) a ev

theorem keeps_creditThread (i : ι) (p : CreditParams) :
    (creditThread i p).Keeps (fun l c m _ => Allows l c m) (LogsAt .serializable) := by
  unfold creditThread
  induction maxRetries with
  | zero => exact keeps_isolated
  | succ retries ih =>
    refine Proc.Keeps.catching keeps_isolated fun e => ?_
    split
    · exact ih
    · trivial

/-- Whatever happens to its attempts, a call that returns has credited at one of its steps. -/
theorem wp_creditThread (p : ι → CreditParams) (i : ι) :
    (creditThread i (p i)).Wp
      (isolation schema ledgerFootprint (fun _ _ => True) fun ev => ∃ j a, Credits (p j) a ev) i
      (fun a g => ∃ ev ∈ g.2, Credits (p i) a ev) (fun _ _ => True) (none, []) := by
  have hattempt : ∀ steps, (isolated schema i (p i) .serializable fun env : Env =>
      creditTx (p i) env.row).Wp
      (isolation schema ledgerFootprint (fun _ _ => True) fun ev => ∃ j a, Credits (p j) a ev) i
      (fun a g => g.1 = none ∧ ∃ ev ∈ g.2, Credits (p i) a ev) (fun _ g => g.1 = none)
      (none, steps) := fun steps =>
    wp_isolated (fun env => creditTx_isolable (p i) env.row)
      fun ev env a _ htakes => ⟨i, a, env, htakes⟩
  unfold creditThread
  generalize ([] : List (CreditEvent ι)) = steps
  induction maxRetries generalizing steps with
  | zero => exact (hattempt steps).mono (fun _ _ h => h.2) fun _ _ _ => trivial
  | succ retries ih =>
    refine Proc.Wp.catching ((hattempt steps).mono (fun _ _ h => h.2) ?_)
    rintro e ⟨_, steps'⟩ rfl
    split
    · exact ih steps'
    · trivial

/-! ### One entry for all of them -/

section Once

variable {reference bucketId : String} {amountKobo : Int} {db₀ db db' : Db}

/-- The CREDIT that the calls ask for. -/
structure CreditFor (reference bucketId : String) (amountKobo : Int) (e : BucketLedgerEntry) :
    Prop where
  reference_eq : e.reference = reference
  entryType_eq : e.entryType = .credit
  bucketId_eq : e.bucketId = bucketId
  amountKobo_eq : e.amountKobo = amountKobo

/-- Since `db₀` the calls have added nothing, or the one CREDIT they ask for. -/
def AddedOnce (reference bucketId : String) (amountKobo : Int) (db₀ db : Db) : Prop :=
  db.bucketLedgerEntries = db₀.bucketLedgerEntries ∨
    ∃ e, CreditFor reference bucketId amountKobo e ∧
      db.bucketLedgerEntries = db₀.bucketLedgerEntries ++ [e]

/-- **A credit adds the entry or finds it**, and returns what the entry stores. -/
theorem AddedOnce.credit {p : CreditParams} {row : Generated} {a : Int}
    (hp : p.reference = reference ∧ p.bucketId = bucketId ∧ p.amountKobo = amountKobo)
    (hfree : ∀ e ∈ db₀.bucketLedgerEntries, e.reference ≠ reference)
    (h : AddedOnce reference bucketId amountKobo db₀ db)
    (hrun : (creditTx p row).run schema db = .ok (a, db')) :
    db.bucketLedgerEntries <+: db'.bucketLedgerEntries ∧
      ∃ e, CreditFor reference bucketId amountKobo e ∧ e.cumulativeAmountKobo = a ∧
        db'.bucketLedgerEntries = db₀.bucketLedgerEntries ++ [e] := by
  obtain ⟨rfl, rfl, rfl⟩ := hp
  rcases (creditTx_run_eq_ok db).1 hrun with ⟨e, he, ha, rfl⟩ | ⟨hnone, ha, hcreate⟩
  · -- the entry is there: not from the start, so it is the one that was added
    obtain ⟨hmem, href⟩ := findEntry_eq_some db' he
    refine ⟨List.prefix_rfl, ?_⟩
    rcases h with hsame | ⟨x, hx, hadded⟩
    · rw [hsame] at hmem
      exact absurd href (hfree e hmem)
    · rw [hadded] at hmem
      rcases List.mem_append.1 hmem with hold | hlast
      · exact absurd href (hfree e hold)
      · obtain rfl : e = x := List.mem_singleton.1 hlast
        exact ⟨e, hx, ha.symm, hadded⟩
  · -- the reference is free, so nothing has been added yet
    obtain ⟨-, -, -, -, rfl⟩ := Db.createBucketLedgerEntry_eq_ok.1 hcreate
    refine ⟨List.prefix_append _ _, p.entry row (db.balance p.bucketId), ⟨rfl, rfl, rfl, rfl⟩,
      ha.symm, ?_⟩
    rcases h with hsame | ⟨x, hx, hadded⟩
    · show db.bucketLedgerEntries ++ _ = _
      rw [hsame]
    · have hmem : x ∈ db.bucketLedgerEntries := by
        rw [hadded]
        exact List.mem_append_right _ (List.mem_singleton_self x)
      exact absurd hx.reference_eq ((findEntry_eq_none_iff db).1 hnone x hmem)

/-- There is at most one entry of the reference. -/
theorem AddedOnce.length_le_one (hfree : ∀ e ∈ db₀.bucketLedgerEntries, e.reference ≠ reference)
    (h : AddedOnce reference bucketId amountKobo db₀ db) :
    (db.bucketLedgerEntries.filter fun e => e.reference = reference).length ≤ 1 := by
  have hnone : (db₀.bucketLedgerEntries.filter fun e => e.reference = reference) = [] := by
    rw [List.filter_eq_nil_iff]
    intro e he
    simpa using hfree e he
  rcases h with hsame | ⟨e, -, hadded⟩
  · rw [hsame, hnone]
    exact Nat.zero_le 1
  · rw [hadded, List.filter_append, hnone, List.nil_append]
    exact List.length_filter_le _ [e]

/-- The entry moves the balance of its bucket by the amount. -/
theorem CreditFor.balance {e : BucketLedgerEntry} (he : CreditFor reference bucketId amountKobo e)
    (hadded : db.bucketLedgerEntries = db₀.bucketLedgerEntries ++ [e]) :
    db.balance bucketId = db₀.balance bucketId + amountKobo := by
  have hsigned : e.signed = amountKobo := by
    unfold BucketLedgerEntry.signed
    rw [he.entryType_eq, he.amountKobo_eq]
  rw [Db.balance_append hadded, if_pos he.bucketId_eq, hsigned]

end Once

/-! ### Any interleaving -/

/-- **A credit happens exactly once.** Any number of calls of `credit` with one reference, bucket
and amount run side by side, statement by statement in any order; each of their attempts may be
aborted at any statement, and a call may stop for good. In every state reached there is at most one
entry of the reference; the balance of the bucket has not moved, or it has grown by the amount; and
once a call has returned, it has grown by the amount and the call has returned what the one entry
stores. -/
theorem credit_exactly_once {p : ι → CreditParams} {reference bucketId : String} {amountKobo : Int}
    (hp : ∀ i, (p i).reference = reference ∧ (p i).bucketId = bucketId ∧
      (p i).amountKobo = amountKobo)
    {db₀ : Db} (hfree : ∀ e ∈ db₀.bucketLedgerEntries, e.reference ≠ reference)
    {m : SharedDb ι} {hist : List (CreditEvent ι)} {ps : ι → CreditThread ι}
    (run : Run (fun l c m _ => Allows l c m) (fun i => creditThread i (p i)) ⟨db₀, [], []⟩ hist
      ps m) :
    (m.committed.bucketLedgerEntries.filter fun e => e.reference = reference).length ≤ 1 ∧
      (m.committed.balance bucketId = db₀.balance bucketId ∨
        m.committed.balance bucketId = db₀.balance bucketId + amountKobo) ∧
      ∀ i a, ps i = .ret a →
        m.committed.balance bucketId = db₀.balance bucketId + amountKobo ∧
          ∃ e ∈ m.committed.bucketLedgerEntries,
            CreditFor reference bucketId amountKobo e ∧ e.cumulativeAmountKobo = a := by
  have hrun := serializable_run (fun i => keeps_creditThread i (p i)) run
  obtain ⟨hsteps, hreturned⟩ :=
    takes_effect (Q := fun i a steps => ∃ ev ∈ steps, Credits (p i) a ev) ledgerFootprint
      (wp_creditThread p) hrun
  -- the entry that a step has added or found stays
  obtain ⟨honce, hcredited⟩ : AddedOnce reference bucketId amountKobo db₀ m.committed ∧
      ∀ ev ∈ hist, ∀ i a, Credits (p i) a ev → ∃ e ∈ m.committed.bucketLedgerEntries,
        CreditFor reference bucketId amountKobo e ∧ e.cumulativeAmountKobo = a := by
    refine run.history (I := fun past m => AddedOnce reference bucketId amountKobo db₀ m.committed ∧
      ∀ ev ∈ past, ∀ i a, Credits (p i) a ev → ∃ e ∈ m.committed.bucketLedgerEntries,
        CreditFor reference bucketId amountKobo e ∧ e.cumulativeAmountKobo = a)
      ⟨.inl rfl, fun ev hev => absurd hev List.not_mem_nil⟩ ?_
    rintro past ev hev ⟨honce, hpast⟩
    have hcredits : ∀ i a, Credits (p i) a ev →
        ev.before.committed.bucketLedgerEntries <+: ev.after.committed.bucketLedgerEntries ∧
          ∃ e, CreditFor reference bucketId amountKobo e ∧ e.cumulativeAmountKobo = a ∧
            ev.after.committed.bucketLedgerEntries = db₀.bucketLedgerEntries ++ [e] :=
      fun i a ⟨env, htakes⟩ => honce.credit (hp i) hfree htakes
    have hstep : ev.before.committed.bucketLedgerEntries <+:
        ev.after.committed.bucketLedgerEntries ∧
          AddedOnce reference bucketId amountKobo db₀ ev.after.committed := by
      rcases hsteps ev hev with hsame | ⟨j, a, hcredit⟩
      · rw [hsame]
        exact ⟨List.prefix_rfl, honce⟩
      · obtain ⟨hgrows, e, he, -, hadded⟩ := hcredits j a hcredit
        exact ⟨hgrows, .inr ⟨e, he, hadded⟩⟩
    refine ⟨hstep.2, fun x hx i a hcredit => ?_⟩
    rcases List.mem_append.1 hx with hx | hx
    · obtain ⟨e, he, hrest⟩ := hpast x hx i a hcredit
      exact ⟨e, hstep.1.subset he, hrest⟩
    · rw [List.mem_singleton.1 hx] at hcredit
      obtain ⟨-, e, he, ha, hadded⟩ := hcredits i a hcredit
      refine ⟨e, ?_, he, ha⟩
      rw [hadded]
      exact List.mem_append_right _ (List.mem_singleton_self e)
  refine ⟨honce.length_le_one hfree, ?_, fun i a ha => ?_⟩
  · rcases honce with hsame | ⟨e, he, hadded⟩
    · exact .inl (Db.balance_congr hsame bucketId)
    · exact .inr (he.balance hadded)
  · obtain ⟨steps, hmine, ev, hev, hcredit⟩ := hreturned i a ha
    obtain ⟨e, hmem, he, hcumulative⟩ := hcredited ev (hmine ev hev).1 i a hcredit
    refine ⟨?_, e, hmem, he, hcumulative⟩
    rcases honce with hsame | ⟨x, hx, hadded⟩
    · rw [hsame] at hmem
      exact absurd he.reference_eq (hfree e hmem)
    · exact hx.balance hadded

/-! ### Two calls side by side -/

namespace Sample

/-- The second call looks its reference up before the first one has committed, is refused, and finds
the entry when it tries again. -/
def creditsTwice : List (Bool × StepChoice Env Error) :=
  List.replicate 4 (turn false ⟨2, "ble2"⟩) ++ List.replicate 4 (turn true ⟨3, "ble3"⟩) ++
    List.replicate 2 (turn false ⟨2, "ble2"⟩) ++
    [(true, { abort := some (.prisma "P2034" "write conflict"), env := {} })] ++
    List.replicate 3 (turn true ⟨3, "ble3"⟩)

end Sample

/-- Both calls return ₦1,500.00, and there is one entry. -/
theorem credit_exactly_once_creditsTwice :
    let r := exec (fun i : Bool => creditThread i Sample.allocation) ⟨Sample.funded.db, [], []⟩
      Sample.creditsTwice
    r.2.2.committed.balance "bkt1" = Sample.funded.db.balance "bkt1" + 50000 ∧
      ∃ e ∈ r.2.2.committed.bucketLedgerEntries,
        CreditFor "alloc_t2_bkt1" "bkt1" 50000 e ∧ e.cumulativeAmountKobo = 150000 :=
  (credit_exactly_once (fun _ => ⟨rfl, rfl, rfl⟩) (by decide)
    (Run.of_exec _ _ Sample.creditsTwice (by decide +kernel))).2.2 true 150000
      (Proc.returned_eq_some.1 (by decide +kernel))

end AccountOS
