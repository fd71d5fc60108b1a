import AccountOS.Queue.Correctness.Configuration
import AccountOS.Queue.Correctness.Steps

/-!
# What the buckets get of one inflow

A RELEASE_FUNDS rule credits its bucket under a reference made of the inflow's transaction reference
and the first eight UTF-16 code units of the bucket's id, and a credit whose reference is taken does
nothing. So the buckets get the allocations of an inflow as a table gets rows that are inserted
`ON CONFLICT DO NOTHING`: of several allocations with one reference the first one counts
(`Allocated`).

Main results:

* `allocated_in_full_iff`: when all executions of an inflow end COMPLETED, every bucket has got what
  its rules computed exactly when no bucket is the destination of two of them;
* `credits_both_buckets_iff`: two releases to different buckets credit both exactly when the first
  eight code units of the buckets' ids differ.
-/

namespace AccountOS

open Conc Sql

/-! ### The allocation a rule computes -/

namespace Db

/-- The bucket and the amount of a release, if there is a positive amount to release. -/
def allocationOf (db : Db) (payload : Option RulePayload) (businessId : String) (inflow : Int) :
    Option (String × Int) :=
  match (payload.getD {}).destinationAccountRef with
  | none => none
  | some ref =>
    match db.findBucket businessId ref, releaseAmount (payload.getD {}) inflow with
    | some bucket, some (.ok amount) => if 0 < amount then some (bucket.id, amount) else none
    | _, _ => none

def allocation (db : Db) (entry : TriggerEntry) (rule : EvaluatedRule) : Option (String × Int) :=
  db.allocationOf rule.payload rule.account.businessId entry.amountKobo

/-- The allocations that a list of rules computes. -/
def allocations (db : Db) (entry : TriggerEntry) (rules : List EvaluatedRule) :
    List (String × Int) :=
  rules.filterMap (db.allocation entry)

/-- What a bucket has been credited from a ledger entry. -/
def creditedFrom (db : Db) (ledgerEntryId bucketId : String) : Int :=
  sumWhere (fun e => e.bucketId = bucketId ∧ e.entryType = .credit ∧
    e.sourceLedgerEntryId = some ledgerEntryId) BucketLedgerEntry.amountKobo db.bucketLedgerEntries

theorem allocationOf_eq_some {db : Db} {payload : Option RulePayload} {businessId ref : String}
    {inflow amount : Int} {bucket : TreasuryBucket}
    (href : (payload.getD {}).destinationAccountRef = some ref)
    (hbucket : db.findBucket businessId ref = some bucket)
    (hamount : releaseAmount (payload.getD {}) inflow = some (.ok amount)) (hpos : 0 < amount) :
    db.allocationOf payload businessId inflow = some (bucket.id, amount) := by
  simp [allocationOf, href, hbucket, hamount, hpos]

theorem allocationOf_eq_none {db : Db} {payload : Option RulePayload} {businessId : String}
    {inflow amount : Int} (hle : amount ≤ 0)
    (hamount : releaseAmount (payload.getD {}) inflow = some (.ok amount)) :
    db.allocationOf payload businessId inflow = none := by
  unfold allocationOf
  split
  · rfl
  · split
    next h =>
      rw [hamount] at h
      cases h
      rw [if_neg (not_lt.2 hle)]
    next => rfl

/-- An allocation is of a positive amount, to a bucket of the database. -/
theorem of_allocationOf {db : Db} {payload : Option RulePayload} {businessId : String}
    {inflow : Int} {c : String × Int} (h : db.allocationOf payload businessId inflow = some c) :
    0 < c.2 ∧ ∃ b ∈ db.treasuryBuckets, b.id = c.1 := by
  unfold allocationOf at h
  split at h
  · cases h
  · split at h
    next bucket amount hbucket _ =>
      split at h
      next hpos =>
        cases h
        exact ⟨hpos, bucket, List.mem_of_find?_eq_some hbucket, rfl⟩
      next => cases h
    next => cases h

end Db

/-! ### References -/

/-- A reference tells the slice of the bucket's id. -/
theorem allocationReference_eq_iff {nombaTransactionRef b b' : String} :
    allocationReference nombaTransactionRef b = allocationReference nombaTransactionRef b' ↔
      slice8 b = slice8 b' := by
  constructor
  · intro h
    have hlist := congrArg String.toList h
    simp only [allocationReference, String.toList_append, List.append_assoc] at hlist
    exact String.toList_inj.1 (by simpa using hlist)
  · intro h
    rw [allocationReference, allocationReference, h]

/-! ### The credits of one inflow -/

/-- The entries written since `w₀` are what is left of the allocations `credits` of one inflow, made
one after another, when those whose reference is taken are skipped. -/
structure Allocated (ledgerEntryId transactionRef : String) (w₀ w : World)
    (credits : List (String × Int)) : Prop where
  unique : w.db.UniqueColumns
  configuration : SameConfiguration w₀.db w.db
  entries : ∃ added, w.db.bucketLedgerEntries = w₀.db.bucketLedgerEntries ++ added ∧
    added.map (fun e => (e.bucketId, e.amountKobo)) =
      firsts (fun c => allocationReference transactionRef c.1)
        (w₀.db.bucketLedgerEntries.map BucketLedgerEntry.reference) credits ∧
    ∀ e ∈ added, e.entryType = .credit ∧ e.sourceLedgerEntryId = some ledgerEntryId ∧
      e.reference = allocationReference transactionRef e.bucketId

namespace Allocated

variable {ledgerEntryId transactionRef : String} {w₀ w w' : World} {credits : List (String × Int)}

theorem start (h : w₀.db.UniqueColumns) : Allocated ledgerEntryId transactionRef w₀ w₀ [] :=
  ⟨h, .refl _, [], by simp [firsts]⟩

/-- A statement that writes no bucket entry and leaves the configuration alone. -/
theorem statement (h : Allocated ledgerEntryId transactionRef w₀ w credits) {o : WriteOp} {db : Db}
    (hop : o.apply w.db = .ok db) (hkeep : ¬ o.Configures)
    (hentries : db.bucketLedgerEntries = w.db.bucketLedgerEntries) :
    Allocated ledgerEntryId transactionRef w₀ { w with db } credits :=
  ⟨h.unique.apply hop, h.configuration.apply hop hkeep, by simpa only [hentries] using h.entries⟩

/-- **One more credit.** -/
theorem credit (h : Allocated ledgerEntryId transactionRef w₀ w credits) {p : CreditParams}
    {row : Generated} {a : Int} {db : Db}
    (href : p.reference = allocationReference transactionRef p.bucketId)
    (hsource : p.sourceLedgerEntryId = some ledgerEntryId)
    (hrun : (creditTx p row).run schema w.db = .ok (a, db)) :
    Allocated ledgerEntryId transactionRef w₀ { w with db }
      (credits ++ [(p.bucketId, p.amountKobo)]) := by
  refine ⟨h.unique.run hrun, h.configuration.credit hrun, ?_⟩
  obtain ⟨added, hw, hadded, hall⟩ := h.entries
  -- the reference is taken when it was at the start or an earlier credit has it
  have htaken : (∃ e ∈ w.db.bucketLedgerEntries, e.reference = p.reference) ↔
      p.reference ∈ w₀.db.bucketLedgerEntries.map BucketLedgerEntry.reference ∨
        p.reference ∈ credits.map fun c => allocationReference transactionRef c.1 := by
    rw [← mem_map_firsts, ← hadded, List.map_map, hw]
    have hrefs : added.map ((fun c : String × Int => allocationReference transactionRef c.1) ∘
        fun e => (e.bucketId, e.amountKobo)) = added.map BucketLedgerEntry.reference :=
      List.map_congr_left fun e he => (hall e he).2.2.symm
    rw [hrefs, ← List.mem_append, ← List.map_append, List.mem_map]
  have hfirsts := firsts_append_singleton
    (fun c : String × Int => allocationReference transactionRef c.1)
    (w₀.db.bucketLedgerEntries.map BucketLedgerEntry.reference) credits (p.bucketId, p.amountKobo)
  simp only [← href] at hfirsts
  rcases (creditTx_run_eq_ok w.db).1 hrun with ⟨e, he, -, rfl⟩ | ⟨hnone, -, hcreate⟩
  · have he := findEntry_eq_some w.db he
    refine ⟨added, hw, ?_, hall⟩
    rw [hfirsts, if_pos (htaken.1 ⟨e, he⟩), List.append_nil]
    exact hadded
  · obtain ⟨-, -, -, -, rfl⟩ := Db.createBucketLedgerEntry_eq_ok.1 hcreate
    have hfree : ¬ ∃ e ∈ w.db.bucketLedgerEntries, e.reference = p.reference := by
      simpa using (findEntry_eq_none_iff w.db).1 hnone
    refine ⟨added ++ [p.entry row (w.db.balance p.bucketId)], by simp [hw], ?_, ?_⟩
    · rw [hfirsts, if_neg (htaken.not.1 hfree), List.map_append, hadded]
      rfl
    · intro e he
      rcases List.mem_append.1 he with he | he
      · exact hall e he
      · rw [List.mem_singleton] at he
        subst he
        exact ⟨rfl, hsource, href⟩

/-- What a bucket has been credited. -/
theorem creditedFrom (h : Allocated ledgerEntryId transactionRef w₀ w credits) (bucketId : String) :
    w.db.creditedFrom ledgerEntryId bucketId = w₀.db.creditedFrom ledgerEntryId bucketId +
      sumWhere (fun c => c.1 = bucketId) Prod.snd
        (firsts (fun c => allocationReference transactionRef c.1)
          (w₀.db.bucketLedgerEntries.map BucketLedgerEntry.reference) credits) := by
  obtain ⟨added, hw, hadded, hall⟩ := h.entries
  rw [Db.creditedFrom, hw, sumWhere_append, ← hadded, Db.creditedFrom, add_right_inj]
  unfold sumWhere
  rw [List.filter_map, List.map_map]
  refine congrArg List.sum (congrArg (List.map _) (List.filter_congr fun e he => ?_))
  simp [hall e he]

/-- The owner of a reference is the bucket that had it at the start, or the first credit that asked
for it. -/
theorem mem_entries (h : Allocated ledgerEntryId transactionRef w₀ w credits) {c : String × Int}
    (hc : c ∈ credits) : ∃ e ∈ w.db.bucketLedgerEntries,
      e.reference = allocationReference transactionRef c.1 ∧
        (e ∈ w₀.db.bucketLedgerEntries ∨ (∃ c' ∈ credits, c'.1 = e.bucketId) ∧
          allocationReference transactionRef e.bucketId =
            allocationReference transactionRef c.1) := by
  obtain ⟨added, hw, hadded, hall⟩ := h.entries
  have hk : allocationReference transactionRef c.1 ∈
        w₀.db.bucketLedgerEntries.map BucketLedgerEntry.reference ∨
      allocationReference transactionRef c.1 ∈
        credits.map fun c => allocationReference transactionRef c.1 :=
    .inr (List.mem_map_of_mem hc)
  rw [← mem_map_firsts, ← hadded] at hk
  rcases hk with hk | hk
  · obtain ⟨e, he, href⟩ := List.mem_map.1 hk
    exact ⟨e, by simp [hw, he], href, .inl he⟩
  · obtain ⟨_, hm, href⟩ := List.mem_map.1 hk
    have hmem := hm
    obtain ⟨e, he, rfl⟩ := List.mem_map.1 hm
    rw [hadded] at hmem
    exact ⟨e, by simp [hw, he], (hall e he).2.2.trans href, .inr
      ⟨⟨_, (firsts_sublist _ _ _).subset hmem, rfl⟩, href⟩⟩

end Allocated

/-! ### The protocol -/

/-- What a thread has achieved for an inflow: the credits it has made, the execution it is carrying
out, and whether an execution has ended other than COMPLETED. -/
structure Tally where
  credits : List (String × Int) := []
  running : Option String := none
  spoiled : Bool := false

/-- The credits are counted right, executions are never deleted, the current one is new, and an
execution that did not end COMPLETED can still be seen. -/
structure Tallied (ledgerEntryId transactionRef : String) (w₀ w : World) (g : Tally) : Prop where
  allocated : Allocated ledgerEntryId transactionRef w₀ w g.credits
  kept : ∀ y ∈ w₀.db.ruleExecutions, ∃ x ∈ w.db.ruleExecutions, x.id = y.id
  fresh : ∀ x ∈ g.running, ∀ y ∈ w₀.db.ruleExecutions, y.id ≠ x
  spoiled : g.spoiled = true → ∃ x ∈ w.db.ruleExecutions, x.status ≠ .completed ∧
    (∀ y ∈ w₀.db.ruleExecutions, y.id ≠ x.id) ∧ g.running ≠ some x.id

/-- One thread alone. -/
def tallies (ledgerEntryId transactionRef : String) (w₀ : World) :
    Protocol Unit World Env Call Tally where
  allowed _ _ _ _ := True
  inv G _ w := Tallied ledgerEntryId transactionRef w₀ w (G ())

section Protocol

variable {ledgerEntryId transactionRef : String} {w₀ w : World} {g : Tally}

theorem tallies_quiet : Quiet (tallies ledgerEntryId transactionRef w₀) := by
  intro G hist w w' i l env hinv _ hsame
  have hdb := hsame.db
  obtain ⟨hallocated, hkept, hfresh, hspoiled⟩ := hinv
  refine ⟨⟨hdb ▸ hallocated.unique, hdb ▸ hallocated.configuration, ?_⟩, ?_, hfresh, ?_⟩
  · rw [hdb]
    exact hallocated.entries
  · rw [hdb]
    exact hkept
  · rw [hdb]
    exact hspoiled

namespace Tallied

/-- A statement that touches neither the buckets' entries nor executions. -/
theorem statement (h : Tallied ledgerEntryId transactionRef w₀ w g) {o : WriteOp} {db : Db}
    (hop : o.apply w.db = .ok db) (hkeep : ¬ o.Configures)
    (hentries : db.bucketLedgerEntries = w.db.bucketLedgerEntries)
    (hexecutions : db.ruleExecutions = w.db.ruleExecutions) :
    Tallied ledgerEntryId transactionRef w₀ { w with db } g :=
  ⟨h.allocated.statement hop hkeep hentries, by simpa only [hexecutions] using h.kept, h.fresh,
    by simpa only [hexecutions] using h.spoiled⟩

/-- A credit. -/
theorem credit (h : Tallied ledgerEntryId transactionRef w₀ w g) {p : CreditParams}
    {row : Generated} {a : Int} {db : Db}
    (href : p.reference = allocationReference transactionRef p.bucketId)
    (hsource : p.sourceLedgerEntryId = some ledgerEntryId)
    (hrun : (creditTx p row).run schema w.db = .ok (a, db)) :
    Tallied ledgerEntryId transactionRef w₀ { w with db }
      { g with credits := g.credits ++ [(p.bucketId, p.amountKobo)] } := by
  have hexecutions : db.ruleExecutions = w.db.ruleExecutions := by
    rcases (creditTx_run_eq_ok w.db).1 hrun with ⟨e, -, -, rfl⟩ | ⟨-, -, hcreate⟩
    · rfl
    · obtain ⟨-, -, -, -, rfl⟩ := Db.createBucketLedgerEntry_eq_ok.1 hcreate
      rfl
  exact ⟨h.allocated.credit href hsource hrun, by simpa only [hexecutions] using h.kept, h.fresh,
    by simpa only [hexecutions] using h.spoiled⟩

/-- The next execution is recorded. -/
theorem create (h : Tallied ledgerEntryId transactionRef w₀ w g) {x : RuleExecution} {db : Db}
    (hcreate : w.db.createRuleExecution x = .ok db) :
    Tallied ledgerEntryId transactionRef w₀ { w with db } { g with running := some x.id } := by
  have hallocated := h.allocated.statement (o := .createRuleExecution x) hcreate id
  obtain ⟨hid, -, -, -, rfl⟩ := Db.createRuleExecution_eq_ok.1 hcreate
  refine ⟨hallocated rfl, fun y hy => ?_, ?_, fun hsp => ?_⟩
  · obtain ⟨z, hz, hzy⟩ := h.kept y hy
    exact ⟨z, by simp [hz], hzy⟩
  · rintro _ ⟨⟩ y hy hyx
    obtain ⟨z, hz, hzy⟩ := h.kept y hy
    exact hid z hz (hzy.trans hyx)
  · obtain ⟨z, hz, hstatus, hnew, -⟩ := h.spoiled hsp
    exact ⟨z, by simp [hz], hstatus, hnew, fun hrunning => hid z hz (by simpa using hrunning.symm)⟩

/-- The outcome of the current execution is recorded. -/
theorem record (h : Tallied ledgerEntryId transactionRef w₀ w g) {x : String}
    (hx : g.running = some x) {data : RuleExecutionData} {db : Db}
    (hupdate : w.db.updateRuleExecution x data = .ok db) :
    Tallied ledgerEntryId transactionRef w₀ { w with db }
      { g with running := none, spoiled := g.spoiled || data.status ≠ .completed } := by
  have hallocated := h.allocated.statement (o := .updateRuleExecution x data) hupdate id
  obtain ⟨⟨row, hrow, hid⟩, rfl⟩ := Db.updateRuleExecution_eq_ok.1 hupdate
  refine ⟨hallocated rfl, fun y hy => ?_, by simp, fun hsp => ?_⟩
  · obtain ⟨z, hz, hzy⟩ := h.kept y hy
    by_cases hzx : z.id = x
    · exact ⟨_, mem_updateRow_of_eq hz hzx, hzy⟩
    · exact ⟨z, mem_updateRow_of_ne hz hzx, hzy⟩
  · rcases Bool.or_eq_true _ _ ▸ hsp with hsp | hsp
    · obtain ⟨z, hz, hstatus, hnew, hne⟩ := h.spoiled hsp
      exact ⟨z, mem_updateRow_of_ne hz fun hzx => hne (by rw [hx, hzx]), hstatus, hnew, by simp⟩
    · have hstatus : data.status ≠ .completed := by simpa using hsp
      refine ⟨data.set row, mem_updateRow_of_eq hrow hid, hstatus, ?_, by simp⟩
      intro y hy hyx
      exact h.fresh x hx y hy (hyx.trans hid)

end Tallied

end Protocol

/-! ### Executing and retrying keep it -/

section Steps

variable {w₀ : World}

/-- The invariant for a thread that changes its ghost. -/
theorem Tallied.update {ledgerEntryId transactionRef : String} {G : Unit → Tally} {g : Tally}
    {hist : List (Event Unit World Env Call)} {w : World}
    (h : Tallied ledgerEntryId transactionRef w₀ w g) :
    (tallies ledgerEntryId transactionRef w₀).inv (Function.update G () g) hist w := by
  show Tallied _ _ _ _ (Function.update G () g ())
  rw [Function.update_self]
  exact h

/-- Executing one rule, for a thread that has made the credits `before`. -/
def talliedExecution (w₀ : World) {rule : EvaluatedRule} (hrule : rule.action = .releaseFunds)
    (entry : TriggerEntry) (before : List (String × Int)) (spoiled : Bool) :
    ExecutionSteps (tallies entry.id entry.nombaTransactionRef w₀) () rule entry where
  Start g := g = { credits := before, spoiled }
  Running x g := g = { credits := before, running := some x, spoiled }
  Credited x b n g := g = { credits := before ++ [(b, n)], running := some x, spoiled } ∧
    w₀.db.allocation entry rule = some (b, n)
  Done o g := if o = .completed then
      g = { credits := before ++ (w₀.db.allocation entry rule).toList, spoiled }
    else
      g.running = none ∧ g.spoiled = true
  Destination bucket := ∃ ref, (rule.payload.getD {}).destinationAccountRef = some ref ∧
    w₀.db.findBucket rule.account.businessId ref = some bucket
  quiet := tallies_quiet
  create := by
    rintro l G hist w env db w' - hG hinv - hdb rfl
    have hcreated := Tallied.create hinv hdb
    rw [hG] at hcreated
    exact ⟨_, hcreated.update, rfl⟩
  destination := by
    rintro x ref bucket G hist w - hinv href hbucket -
    refine ⟨ref, href, ?_⟩
    rw [← hinv.allocated.configuration.findBucket]
    exact hbucket
  credit := by
    rintro x bucket amount l G hist w env a db w' - - ⟨ref, href, hbucket⟩ hamount hpos hG hinv -
      hrun rfl
    have hcredited := Tallied.credit hinv rfl rfl hrun
    rw [hG] at hcredited
    exact ⟨_, hcredited.update, rfl, Db.allocationOf_eq_some href hbucket hamount hpos⟩
  record := by
    rintro x o data l G hist w env db w' - hG hstatus hinv - hdb rfl
    have hx : (G ()).running = some x := by
      rcases hG with ⟨h, -⟩ | ⟨b, n, h, -⟩ <;> rw [h]
    refine ⟨_, (Tallied.record hinv hx hdb).update, ?_⟩
    rw [hstatus]
    -- COMPLETED without a credit means that there was nothing to allocate
    cases o with
    | completed =>
      rcases hG with ⟨h, hnothing⟩ | ⟨b, n, h, hallocation⟩
      · obtain ⟨amount, hle, hamount⟩ := hnothing rfl hrule
        have hnone : w₀.db.allocation entry rule = none := Db.allocationOf_eq_none hle hamount
        simp [h, hnone, ExecutionOutcome.toStatus]
      · simp [h, hallocation, ExecutionOutcome.toStatus]
    | failed => simp [ExecutionOutcome.toStatus]
    | retrying => simp [ExecutionOutcome.toStatus]
  changeStatus := by
    rintro x status l G hist w env db w' - - hinv - hdb rfl
    refine Tallied.statement hinv (o := .updateAccountStatus _ _) hdb id ?_ ?_ <;>
      obtain ⟨-, rfl⟩ := Db.updateAccountStatus_eq_ok.1 hdb <;> rfl
  flag := by
    rintro x id' l G hist w env db w' - - - hinv - hdb rfl
    refine Tallied.statement hinv (o := .updateReconciliationById _ _) hdb id ?_ ?_ <;>
      obtain ⟨-, rfl⟩ := Db.updateReconciliationById_eq_ok.1 hdb <;> rfl

/-- Attempting one release again. -/
def talliedAttempt (w₀ : World) {f : FoundExecution} {entry : LedgerEntry}
    (hentry : f.triggeredByLedgerEntry = some entry) (before : List (String × Int))
    (spoiled : Bool) :
    AttemptSteps (tallies entry.id entry.nombaTransactionRef w₀) () f where
  Start g := g = { credits := before, spoiled }
  Credited b n g := g = { credits := before ++ [(b, n)], spoiled } ∧
    ∃ ref bucket, (f.rule.payload.getD {}).destinationAccountRef = some ref ∧
      w₀.db.findBucket f.account.businessId ref = some bucket ∧ bucket.id = b
  Destination bucket := ∃ ref, (f.rule.payload.getD {}).destinationAccountRef = some ref ∧
    w₀.db.findBucket f.account.businessId ref = some bucket
  quiet := tallies_quiet
  destination := by
    rintro ref bucket G hist w - hinv href hbucket
    refine ⟨ref, href, ?_⟩
    rw [← hinv.allocated.configuration.findBucket]
    exact hbucket
  credit := by
    rintro bucket e amount attempt l G hist w env a db w' - - ⟨ref, href, hbucket⟩ he - hG hinv -
      hrun rfl
    obtain rfl : entry = e := by simpa [hentry] using he
    have hcredited := Tallied.credit hinv rfl rfl hrun
    rw [hG] at hcredited
    exact ⟨_, hcredited.update, rfl, ref, bucket, href, hbucket, rfl⟩

end Steps

/-! ### Allocations of all rules -/

section Loop

open WebhookProcessor

variable {w₀ : World} {entry : TriggerEntry} {rules : List EvaluatedRule}

/-- The thread still has to execute the rules `rest`; unless an execution has ended other than
COMPLETED, it has made the allocations of the others. -/
def Remaining (w₀ : World) (entry : TriggerEntry) (rules rest : List EvaluatedRule) (g : Tally) :
    Prop :=
  g.running = none ∧ ∃ settled, rules = settled ++ rest ∧
    (g.spoiled = true ∨ g.credits = w₀.db.allocations entry settled)

/-- One turn of the loop. -/
theorem wp_executeOne {rule : EvaluatedRule} {rest : List EvaluatedRule} {g : Tally}
    (hrule : rule.action = .releaseFunds) (hg : Remaining w₀ entry rules (rule :: rest) g) :
    (execute rule entry).Wp (tallies entry.id entry.nombaTransactionRef w₀) ()
      (fun r g' => (enqueueIfRetrying r).Wp (tallies entry.id entry.nombaTransactionRef w₀) ()
        (fun _ g'' => Remaining w₀ entry rules rest g'') (fun _ _ => True) g')
      (fun _ _ => True) g := by
  obtain ⟨hrunning, settled, hrules, hsettled⟩ := hg
  let S := talliedExecution w₀ hrule entry g.credits g.spoiled
  have hstart : S.Start g := by
    obtain ⟨credits, running, spoiled⟩ := g
    cases hrunning
    rfl
  refine (S.wp_execute hstart).mono (fun r g' hdone => ?_) fun _ _ h => h
  have hremaining : Remaining w₀ entry rules rest g' := by
    have hdone : if r.status = .completed then
        g' = { credits := g.credits ++ (w₀.db.allocation entry rule).toList, spoiled := g.spoiled }
      else g'.running = none ∧ g'.spoiled = true := hdone
    split at hdone
    next =>
      refine ⟨by rw [hdone], settled ++ [rule], by simp [hrules], ?_⟩
      rw [hdone]
      refine hsettled.imp id fun hcredits => ?_
      show g.credits ++ (w₀.db.allocation entry rule).toList = _
      rw [hcredits, Db.allocations, Db.allocations, List.filterMap_append]
      cases h : w₀.db.allocation entry rule <;> simp [h]
    next => exact ⟨hdone.1, settled ++ [rule], by simp [hrules], .inl hdone.2⟩
  refine (wp_enqueueIfRetrying tallies_quiet ?_).mono ?_ fun _ _ h => h
  · rintro job G hist w env w' - hinv - rfl
    obtain ⟨hallocated, hkept, hfresh, hspoiled⟩ := hinv
    exact ⟨⟨hallocated.unique, hallocated.configuration, hallocated.entries⟩, hkept, hfresh,
      hspoiled⟩
  · rintro u g'' rfl
    exact hremaining

/-- When every execution has ended COMPLETED, the loop has made the allocations of all rules. -/
theorem allocated_of_completed {w : World} {hist : List (Event Unit World Env Call)}
    {ps : Unit → Action Unit} (unique : w₀.db.UniqueColumns)
    (release : ∀ r ∈ rules, r.action = .releaseFunds)
    (run : Run (fun _ _ _ _ => True) (fun _ : Unit => executeForInflow entry rules) w₀ hist ps w)
    (finished : (ps ()).returned = some ())
    (completed : ∀ x ∈ w.db.ruleExecutions, (∀ y ∈ w₀.db.ruleExecutions, y.id ≠ x.id) →
      x.status = .completed) :
    Allocated entry.id entry.nombaTransactionRef w₀ w (w₀.db.allocations entry rules) := by
  have hstart : Tallied entry.id entry.nombaTransactionRef w₀ w₀ {} :=
    ⟨.start unique, fun y hy => ⟨y, hy, rfl⟩, by simp, by simp⟩
  have hloop : (executeForInflow entry rules).Wp (tallies entry.id entry.nombaTransactionRef w₀) ()
      (fun _ g => Remaining w₀ entry rules [] g) (fun _ _ => True) {} := by
    have hall : Remaining w₀ entry rules rules {} := ⟨rfl, [], rfl, .inr rfl⟩
    refine wp_executeAll (fun rule rest g hg => ?_) hall
    have hrule : rule ∈ rules := by
      obtain ⟨-, settled, hrules, -⟩ := hg
      simp [hrules]
    exact wp_executeOne (release rule hrule) hg
  obtain ⟨G, hinv, hps⟩ := (tallies entry.id entry.nombaTransactionRef w₀).sound (fun _ => {})
    (fun _ _ g => Remaining w₀ entry rules [] g) (fun _ _ _ => True) hstart (fun _ => hloop) run
  have hremaining := hps ()
  rw [Proc.returned_eq_some.1 finished, Proc.wp_ret] at hremaining
  obtain ⟨-, settled, hrules, hcredits⟩ := hremaining
  rw [List.append_nil] at hrules
  rcases hcredits with hspoiled | hcredits
  · obtain ⟨x, hx, hstatus, hnew, -⟩ := Tallied.spoiled hinv hspoiled
    exact absurd (completed x hx hnew) hstatus
  · have hallocated := Tallied.allocated hinv
    rw [hcredits, ← hrules] at hallocated
    exact hallocated

end Loop

/-- **No allocation is dropped**, exactly when no bucket is the destination of two of the rules and
no reference of theirs was taken before. -/
theorem allocated_in_full_iff {w₀ w : World} {entry : TriggerEntry} {rules : List EvaluatedRule}
    {hist : List (Event Unit World Env Call)} {ps : Unit → Action Unit}
    (unique : w₀.db.UniqueColumns)
    (distinct : ∀ b ∈ w₀.db.treasuryBuckets, ∀ b' ∈ w₀.db.treasuryBuckets,
      slice8 b.id = slice8 b'.id → b.id = b'.id)
    (release : ∀ r ∈ rules, r.action = .releaseFunds)
    (run : Run (fun _ _ _ _ => True)
      (fun _ : Unit => WebhookProcessor.executeForInflow entry rules) w₀ hist ps w)
    (finished : (ps ()).returned = some ())
    (completed : ∀ x ∈ w.db.ruleExecutions, (∀ y ∈ w₀.db.ruleExecutions, y.id ≠ x.id) →
      x.status = .completed) :
    (∀ bucketId, w.db.creditedFrom entry.id bucketId = w₀.db.creditedFrom entry.id bucketId +
      sumWhere (fun c => c.1 = bucketId) Prod.snd (w₀.db.allocations entry rules)) ↔
    ((w₀.db.allocations entry rules).map Prod.fst).Nodup ∧
      ∀ c ∈ w₀.db.allocations entry rules,
        w₀.db.findEntry (allocationReference entry.nombaTransactionRef c.1) = none := by
  have hallocated := allocated_of_completed unique release run finished completed
  have hpos : ∀ c ∈ w₀.db.allocations entry rules,
      0 < c.2 ∧ ∃ b ∈ w₀.db.treasuryBuckets, b.id = c.1 := by
    intro c hc
    obtain ⟨r, -, hr⟩ := List.mem_filterMap.1 hc
    exact Db.of_allocationOf hr
  -- different buckets have different references
  have hkeys : ((w₀.db.allocations entry rules).map fun c =>
        allocationReference entry.nombaTransactionRef c.1).Nodup ↔
      ((w₀.db.allocations entry rules).map Prod.fst).Nodup := by
    have hinj : ∀ b ∈ (w₀.db.allocations entry rules).map Prod.fst,
        ∀ b' ∈ (w₀.db.allocations entry rules).map Prod.fst,
          allocationReference entry.nombaTransactionRef b =
            allocationReference entry.nombaTransactionRef b' → b = b' := by
      intro b hb b' hb' heq
      obtain ⟨c, hc, rfl⟩ := List.mem_map.1 hb
      obtain ⟨c', hc', rfl⟩ := List.mem_map.1 hb'
      obtain ⟨-, r, hr, hid⟩ := hpos c hc
      obtain ⟨-, r', hr', hid'⟩ := hpos c' hc'
      rw [← hid, ← hid'] at heq ⊢
      exact distinct r hr r' hr' (allocationReference_eq_iff.1 heq)
    rw [show (fun c : String × Int => allocationReference entry.nombaTransactionRef c.1) =
      allocationReference entry.nombaTransactionRef ∘ Prod.fst from rfl, ← List.map_map]
    exact ⟨List.Nodup.of_map _, List.Nodup.map_on hinj⟩
  calc (∀ bucketId, w.db.creditedFrom entry.id bucketId = w₀.db.creditedFrom entry.id bucketId +
        sumWhere (fun c => c.1 = bucketId) Prod.snd (w₀.db.allocations entry rules))
      ↔ firsts (fun c => allocationReference entry.nombaTransactionRef c.1)
          (w₀.db.bucketLedgerEntries.map BucketLedgerEntry.reference)
          (w₀.db.allocations entry rules) = w₀.db.allocations entry rules := by
        constructor
        · intro h
          refine eq_of_sublist_of_sums (k := Prod.fst) (firsts_sublist (fun c : String × Int =>
            allocationReference entry.nombaTransactionRef c.1) _ _) (fun c hc => (hpos c hc).1)
            fun b => ?_
          have hb := h b
          rwa [hallocated.creditedFrom, add_right_inj] at hb
        · intro h b
          rw [hallocated.creditedFrom, h]
    _ ↔ _ := by
        rw [firsts_eq_self_iff, hkeys]
        simp [findEntry_eq_none_iff]

namespace Sample

def ops : TreasuryBucket := { id := "bkt1aaaaaaaa", bucketRef := "ops", businessId := "biz" }

def tax : TreasuryBucket := { id := "bkt2aaaaaaaa", bucketRef := "tax", businessId := "biz" }

/-- ₦10.00 that the account has received. -/
def received : LedgerEntry where
  id := "ent1"
  accountId := "acc1"
  nombaTransactionRef := "trx1"
  nombaEventId := "evt1"
  direction := .inflow
  amountKobo := 1000
  customerNameSnapshot := "Ada"
  kycTierAtTime := .tier1
  cumulativeAmountKobo := 1000
  receivedAt := 0
  createdAt := 0

/-- The account's rules and what it has received. -/
def paidShop (buckets : List TreasuryBucket) (rules : List Rule) : World :=
  { shop buckets rules with db := { (shop buckets rules).db with ledgerEntries := [received] } }

/-- 30 % of an inflow to one bucket and 20 % to another. -/
def split (ref₁ ref₂ : String) : List Rule :=
  [release "rule1" { destinationAccountRef := some ref₁, percentage := some 30 },
    release "rule2" { destinationAccountRef := some ref₂, percentage := some 20 }]

def evaluated (rules : List Rule) : List EvaluatedRule := rules.map (·.evaluated account.forRule)

/-- Two executions of which nothing fails. -/
def twoExecutions : List (Unit × Env) :=
  unit [{ row := ⟨1, "exe1"⟩ }, {}, { row := ⟨2, "cre1"⟩ }, {}, {}, {},
    { row := ⟨3, "exe2"⟩ }, {}, { row := ⟨4, "cre2"⟩ }, {}, {}, {}]

def splitRun (buckets : List TreasuryBucket) (rules : List Rule) :
    List (Event Unit World Env Call) × (Unit → Action Unit) × World :=
  exec (fun _ => WebhookProcessor.executeForInflow received.trigger (evaluated rules))
    (paidShop buckets rules) twoExecutions

end Sample

/-- Two rules with different buckets. -/
theorem allocated_in_full_iff_twoBuckets :
    let rules := Sample.split "ops" "tax"
    let w₀ := Sample.paidShop [Sample.ops, Sample.tax] rules
    ∀ bucketId,
      (Sample.splitRun [Sample.ops, Sample.tax] rules).2.2.db.creditedFrom "ent1" bucketId =
      w₀.db.creditedFrom "ent1" bucketId + sumWhere (fun c => c.1 = bucketId) Prod.snd
        (w₀.db.allocations Sample.received.trigger (Sample.evaluated rules)) := by
  have hunique : (Sample.paidShop [Sample.ops, Sample.tax]
      (Sample.split "ops" "tax")).db.UniqueColumns := by constructor <;> decide
  have hrelease : ∀ r ∈ Sample.evaluated (Sample.split "ops" "tax"), r.action = .releaseFunds := by
    decide
  exact (allocated_in_full_iff hunique (by decide) hrelease
    (Run.of_exec _ _ _ fun _ _ => trivial) (by decide +kernel) (by decide +kernel)).2
      (by decide +kernel)

/-- Two rules with the same bucket: both executions end COMPLETED, and the bucket gets the 300 kobo
of the first one only. -/
theorem second_allocation_is_dropped :
    let rules := Sample.split "ops" "ops"
    let w₀ := Sample.paidShop [Sample.ops] rules
    let w := (Sample.splitRun [Sample.ops] rules).2.2
    ((Sample.splitRun [Sample.ops] rules).2.1 ()).returned = some () ∧
    (∀ x ∈ w.db.ruleExecutions, x.status = .completed) ∧
    w₀.db.creditedFrom "ent1" "bkt1aaaaaaaa" = 0 ∧
    w.db.creditedFrom "ent1" "bkt1aaaaaaaa" = 300 ∧
    sumWhere (fun c => c.1 = "bkt1aaaaaaaa") Prod.snd
      (w₀.db.allocations Sample.received.trigger (Sample.evaluated rules)) = 500 := by
  refine ⟨?_, ?_, ?_, ?_, ?_⟩ <;> decide +kernel

/-! ### Two releases to different buckets -/

/-- A release of an inflow: a rule executed for the first time, or an attempt to execute it
again. -/
inductive Release
  | first (rule : EvaluatedRule)
  | retry (found : FoundExecution) (attempt : Nat)

namespace Release

/-- Whether it succeeds. -/
def run (entry : LedgerEntry) : Release → Action Bool
  | first rule => do
    let result ← execute rule entry.trigger
    return result.status = .completed
  | retry found attempt => do
    let outcome ← RetryProcessor.attemptRelease found attempt
    return outcome.ok

/-- It releases funds of the inflow. -/
def IsFor (entry : LedgerEntry) : Release → Prop
  | first rule => rule.action = .releaseFunds
  | retry found _ => found.rule.action = .releaseFunds ∧ found.triggeredByLedgerEntry = some entry

def allocation (db : Db) (entry : LedgerEntry) : Release → Option (String × Int)
  | first rule => db.allocation entry.trigger rule
  | retry found _ =>
    db.allocationOf found.rule.payload found.account.businessId entry.amountKobo

/-- One release after the other. -/
def both (entry : LedgerEntry) (r₁ r₂ : Release) : Action (Bool × Bool) := do
  let ok₁ ← r₁.run entry
  let ok₂ ← r₂.run entry
  return (ok₁, ok₂)

variable {entry : LedgerEntry} {r : Release} {w₀ : World}

/-- A successful release has made its credit. -/
theorem wp_run {b : String} {n : Int} {g : Tally} (hfor : r.IsFor entry)
    (hallocation : r.allocation w₀.db entry = some (b, n)) (hg : g.running = none) :
    (r.run entry).Wp (tallies entry.id entry.nombaTransactionRef w₀) ()
      (fun ok g' => g'.running = none ∧ (ok = true → ∃ n', g'.credits = g.credits ++ [(b, n')]))
      (fun _ _ => True) g := by
  obtain ⟨before, running, spoiled⟩ := g
  cases hg
  cases r with
  | first rule =>
    let S := talliedExecution w₀ hfor entry.trigger before spoiled
    refine Proc.Wp.bind ((S.wp_execute rfl).mono (fun r g' hdone => ?_) fun _ _ h => h)
    have hdone : if r.status = .completed then
        g' = { credits := before ++ (w₀.db.allocation entry.trigger rule).toList, spoiled }
      else g'.running = none ∧ g'.spoiled = true := hdone
    have hsome : w₀.db.allocation entry.trigger rule = some (b, n) := hallocation
    split at hdone
    next hcompleted =>
      rw [hsome] at hdone
      exact ⟨by rw [hdone], fun _ => ⟨n, by rw [hdone]; rfl⟩⟩
    next hne => exact ⟨hdone.1, fun hok => absurd (of_decide_eq_true hok) hne⟩
  | retry found attempt =>
    let S := talliedAttempt w₀ hfor.2 before spoiled
    refine Proc.Wp.bind ((S.wp_attemptRelease hfor.1 rfl).mono (fun outcome g' hafter => ?_)
      fun _ _ h => h)
    unfold AttemptSteps.After at hafter
    split at hafter
    next =>
      obtain ⟨b', n', hg', ref, bucket, href, hbucket, rfl⟩ := hafter
      obtain rfl : bucket.id = b := by
        have hsome : w₀.db.allocationOf found.rule.payload found.account.businessId
          entry.amountKobo = some (b, n) := hallocation
        simp only [Db.allocationOf, href, hbucket] at hsome
        grind
      exact ⟨by rw [hg'], fun _ => ⟨n', by rw [hg']⟩⟩
    next hfailed =>
      have hg' : g' = { credits := before, spoiled } := hafter
      exact ⟨by rw [hg'], fun hok => absurd hok hfailed⟩

end Release

/-- The bucket owns the entry under its reference for an inflow. -/
def Db.HasCredit (db : Db) (nombaTransactionRef bucketId : String) : Prop :=
  ∃ e ∈ db.bucketLedgerEntries,
    e.reference = allocationReference nombaTransactionRef bucketId ∧ e.bucketId = bucketId

/-- **Two releases to different buckets credit both**, exactly when the first eight UTF-16 code units
of the buckets' ids differ, and with them the references, and neither reference had been taken by
another bucket. -/
theorem credits_both_buckets_iff {w₀ w : World} {entry : LedgerEntry} {r₁ r₂ : Release}
    {b₁ b₂ : String} {n₁ n₂ : Int} {hist : List (Event Unit World Env Call)}
    {ps : Unit → Action (Bool × Bool)} (unique : w₀.db.UniqueColumns)
    (for₁ : r₁.IsFor entry) (for₂ : r₂.IsFor entry)
    (allocation₁ : r₁.allocation w₀.db entry = some (b₁, n₁))
    (allocation₂ : r₂.allocation w₀.db entry = some (b₂, n₂)) (different : b₁ ≠ b₂)
    (run : Run (fun _ _ _ _ => True) (fun _ : Unit => Release.both entry r₁ r₂) w₀ hist ps w)
    (successful : (ps ()).returned = some (true, true)) :
    (w.db.HasCredit entry.nombaTransactionRef b₁ ∧ w.db.HasCredit entry.nombaTransactionRef b₂) ↔
      slice8 b₁ ≠ slice8 b₂ ∧ ∀ b ∈ [b₁, b₂], ∀ e ∈ w₀.db.bucketLedgerEntries,
        e.reference = allocationReference entry.nombaTransactionRef b → e.bucketId = b := by
  have hstart : Tallied entry.id entry.nombaTransactionRef w₀ w₀ {} :=
    ⟨.start unique, fun y hy => ⟨y, hy, rfl⟩, by simp, by simp⟩
  have hboth : (Release.both entry r₁ r₂).Wp (tallies entry.id entry.nombaTransactionRef w₀) ()
      (fun ok g => ok = (true, true) → ∃ n₁ n₂, g.credits = [(b₁, n₁), (b₂, n₂)])
      (fun _ _ => True) {} := by
    refine Proc.Wp.bind ((Release.wp_run for₁ allocation₁ rfl).mono (fun ok₁ g₁ h₁ => ?_)
      fun _ _ h => h)
    refine Proc.Wp.bind ((Release.wp_run for₂ allocation₂ h₁.1).mono (fun ok₂ g₂ h₂ => ?_)
      fun _ _ h => h)
    intro hok
    obtain ⟨rfl, rfl⟩ := Prod.mk.inj hok
    obtain ⟨m₁, hm₁⟩ := h₁.2 rfl
    obtain ⟨m₂, hm₂⟩ := h₂.2 rfl
    exact ⟨m₁, m₂, by rw [hm₂, hm₁]; rfl⟩
  obtain ⟨G, hinv, hps⟩ := (tallies entry.id entry.nombaTransactionRef w₀).sound (fun _ => {})
    (fun _ ok g => ok = (true, true) → ∃ n₁ n₂, g.credits = [(b₁, n₁), (b₂, n₂)])
    (fun _ _ _ => True) hstart (fun _ => hboth) run
  -- both attempts have returned, and so both credits were made
  have hcredits := hps ()
  rw [Proc.returned_eq_some.1 successful, Proc.wp_ret] at hcredits
  obtain ⟨m₁, m₂, hcredits⟩ := hcredits rfl
  have hallocated := Tallied.allocated hinv
  rw [hcredits] at hallocated
  have hnodup := hallocated.unique.references
  constructor
  · rintro ⟨⟨e₁, he₁, href₁, hb₁⟩, ⟨e₂, he₂, href₂, hb₂⟩⟩
    refine ⟨fun hsame => different ?_, fun b hb e he href => ?_⟩
    · rw [← hb₁, ← hb₂]
      refine congrArg _ (eq_of_key_eq hnodup he₁ he₂ ?_)
      rw [href₁, href₂, allocationReference_eq_iff.2 hsame]
    · obtain ⟨added, hw, -⟩ := hallocated.entries
      have hew : e ∈ w.db.bucketLedgerEntries := hw ▸ List.mem_append_left _ he
      simp only [List.mem_cons, List.not_mem_nil, or_false] at hb
      rcases hb with rfl | rfl
      · rw [eq_of_key_eq hnodup hew he₁ (href.trans href₁.symm), hb₁]
      · rw [eq_of_key_eq hnodup hew he₂ (href.trans href₂.symm), hb₂]
  · rintro ⟨hdiffer, howned⟩
    have hhas : ∀ b ∈ [b₁, b₂], w.db.HasCredit entry.nombaTransactionRef b := by
      intro b hb
      obtain ⟨m, hm⟩ : ∃ m, (b, m) ∈ [(b₁, m₁), (b₂, m₂)] := by grind
      obtain ⟨e, he, href, hown⟩ := hallocated.mem_entries hm
      refine ⟨e, he, href, ?_⟩
      rcases hown with hold | ⟨⟨c, hc, hce⟩, hsame⟩
      · exact howned b hb e hold href
      · -- an entry of this run: its bucket is one of the two, with the reference of `b`
        have htake := allocationReference_eq_iff.1 hsame
        grind
    exact ⟨hhas b₁ (by simp), hhas b₂ (by simp)⟩

namespace Sample

/-- A bucket created within the same milliseconds as `ops`: the ids share the timestamp that a cuid
starts with. -/
def twin : TreasuryBucket := { id := "bkt1aaaabbbb", bucketRef := "twin", businessId := "biz" }

def toOps : Rule := release "rule1" { destinationAccountRef := some "ops", percentage := some 30 }

def toTwin : Rule :=
  release "rule2" { destinationAccountRef := some "twin", amountKobo := some 200 }

def toTax : Rule := release "rule2" { destinationAccountRef := some "tax", percentage := some 20 }

/-- An execution of a rule that has failed. -/
def failed (rule : Rule) : FoundExecution where
  execution := {
    id := "exe2", ruleId := rule.id, accountId := "acc1", triggeredByLedgerEntryId := some "ent1"
    triggeredBy := "evt1", status := .retrying }
  rule := rule
  account := account
  triggeredByLedgerEntry := some received

/-- A release to `ops` and then another one, of which nothing fails. -/
def bothRun (buckets : List TreasuryBucket) (rule : Rule) (r₂ : Release) :
    List (Event Unit World Env Call) × (Unit → Action (Bool × Bool)) × World :=
  exec (fun _ => Release.both received (.first (toOps.evaluated account.forRule)) r₂)
    (paidShop buckets [toOps, rule]) twoExecutions

end Sample

/-- A first attempt and a retry, to two buckets. -/
theorem credits_both_buckets_iff_retry :
    let w := (Sample.bothRun [Sample.ops, Sample.tax] Sample.toTax
      (.retry (Sample.failed Sample.toTax) 1)).2.2
    w.db.HasCredit "trx1" "bkt1aaaaaaaa" ∧ w.db.HasCredit "trx1" "bkt2aaaaaaaa" := by
  have hunique : (Sample.paidShop [Sample.ops, Sample.tax]
      [Sample.toOps, Sample.toTax]).db.UniqueColumns := by constructor <;> decide
  have hfirst : Release.IsFor Sample.received
      (.first (Sample.toOps.evaluated Sample.account.forRule)) := rfl
  have hretry : Release.IsFor Sample.received (.retry (Sample.failed Sample.toTax) 1) := ⟨rfl, rfl⟩
  have hops : Release.allocation (Sample.paidShop [Sample.ops, Sample.tax]
      [Sample.toOps, Sample.toTax]).db Sample.received
      (.first (Sample.toOps.evaluated Sample.account.forRule)) = some ("bkt1aaaaaaaa", 300) := by
    decide +kernel
  have htax : Release.allocation (Sample.paidShop [Sample.ops, Sample.tax]
      [Sample.toOps, Sample.toTax]).db Sample.received
      (.retry (Sample.failed Sample.toTax) 1) = some ("bkt2aaaaaaaa", 200) := by
    decide +kernel
  exact (credits_both_buckets_iff hunique hfirst hretry hops htax (by decide)
    (Run.of_exec _ _ _ fun _ _ => trivial) (by decide +kernel)).2 (by decide)

/-- Two buckets whose ids share the first eight code units: both executions end COMPLETED, and the
second bucket gets nothing. -/
theorem twin_bucket_gets_nothing :
    let r := Sample.bothRun [Sample.ops, Sample.twin] Sample.toTwin
      (.first (Sample.toTwin.evaluated Sample.account.forRule))
    Sample.ops.id ≠ Sample.twin.id ∧ (r.2.1 ()).returned = some (true, true) ∧
    allocationReference "trx1" Sample.ops.id = allocationReference "trx1" Sample.twin.id ∧
    r.2.2.db.balance Sample.ops.id = 300 ∧
    ¬ ∃ e ∈ r.2.2.db.bucketLedgerEntries, e.bucketId = Sample.twin.id := by
  refine ⟨?_, ?_, ?_, ?_, ?_⟩ <;> decide +kernel

end AccountOS
