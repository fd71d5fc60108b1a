import AccountOS.Treasury.Statement

/-!
# Paging through a statement

`getStatement` clamps the limit before it uses it, so that the page that it asks for is the page that
it compares with. Following the cursors returns every matching entry, also when the entries are a
multiple of the page (`getStatement_complete`). A bound that is no date, and an entry type that is
none, make the client throw (`getStatement_rejected`).
-/

namespace AccountOS

open Sql

section Statement

variable {client : ClientArguments} {rank : String → Nat} {db : Db} {bucketRef businessId : String}
  {bucket : TreasuryBucket} {filters : StatementFilters}

/-- An entry type is missing, empty, or one of the two. -/
def AcceptsEntryType (text : Option String) : Prop :=
  ∀ t, text = some t → t ≠ "" → t = "CREDIT" ∨ t = "DEBIT"

theorem accepted_entryTypeIs {t : String} :
    (entryTypeIs t).accepted = true ↔ t = "CREDIT" ∨ t = "DEBIT" := by
  show (BucketEntryType.ofName? t).isSome = true ↔ _
  constructor
  · intro h
    unfold BucketEntryType.ofName? at h
    split at h
    · exact .inl rfl
    · exact .inr rfl
    · cases h
  · rintro (rfl | rfl) <;> rfl

theorem accepted_statementWhere {bucketId : String} :
    (statementWhere client bucketId filters).accepted = true ↔
      client.AcceptsDate filters.dateFrom ∧ client.AcceptsDate filters.dateTo ∧
        AcceptsEntryType filters.entryType := by
  simp only [statementWhere, Where.accepted_and, Where.accepted_ifGiven, accepted_entryTypeIs,
    true_and]
  rfl

/-- A cursor only says where the statement goes on. -/
theorem getStatement_cursor {dbs : ℕ → Db}
    (hbucket : (dbs 0).findBucket businessId bucketRef = some bucket) :
    (fun cursor => getStatement client rank dbs { filters with cursor } bucketRef businessId) =
      client.listing BucketLedgerEntry.id (statementWhere client bucket.id filters).accepted
        (statementEntries client rank (dbs 1) bucket.id filters) (min (filters.limit.getD 50) 100)
        (min (filters.limit.getD 50) 100) := by
  funext cursor
  unfold getStatement
  rw [hbucket]
  rfl

/-- **Following the cursors of a statement returns every matching entry**, once and in order, in at
most `⌊N / min limit 100⌋ + 1` calls. -/
theorem getStatement_complete (hnodup : (db.bucketLedgerEntries.map BucketLedgerEntry.id).Nodup)
    (hids : ∀ e ∈ db.bucketLedgerEntries, e.id ≠ "")
    (hbucket : db.findBucket businessId bucketRef = some bucket)
    (hfrom : client.AcceptsDate filters.dateFrom) (hto : client.AcceptsDate filters.dateTo)
    (htype : AcceptsEntryType filters.entryType) {limit : ℕ}
    (hlimit : filters.limit.getD 50 = limit) (hpos : 1 ≤ limit) :
    ∃ pages, Walk
        (fun cursor =>
          getStatement client rank (fun _ => db) { filters with cursor } bucketRef businessId)
        none pages ∧
      pages.flatten = statementEntries client rank db bucket.id filters ∧
      pages.length ≤
        (statementEntries client rank db bucket.id filters).length / min limit 100 + 1 := by
  have hrows : ((statementEntries client rank db bucket.id filters).map
      BucketLedgerEntry.id).Nodup := nodup_map_selectRows hnodup
  have hrowIds : ∀ e ∈ statementEntries client rank db bucket.id filters, e.id ≠ "" :=
    fun e he => hids e (mem_selectRows.1 he).1
  have haccepted : (statementWhere client bucket.id filters).accepted = true :=
    accepted_statementWhere.2 ⟨hfrom, hto, htype⟩
  -- the query and the comparison have the same clamped limit, so that the pages are full ones
  have htake : min (filters.limit.getD 50) 100 = ((min limit 100 : ℕ) : ℚ) := by
    rw [hlimit, Nat.cast_min]
    rfl
  obtain ⟨pages, hwalk, hflatten, hlength⟩ :=
    exists_walk_listing hrows hrowIds (lt_min hpos (by norm_num))
      (min_le_right limit 100)
  refine ⟨pages, ?_, hflatten, le_of_eq hlength⟩
  have hbucket' : ((fun _ => db : ℕ → Db) 0).findBucket businessId bucketRef = some bucket := hbucket
  rw [getStatement_cursor hbucket', haccepted, htake]
  exact hwalk

end Statement

namespace Sample

/-- A bucket with three entries. -/
def statementBucket : Db where
  treasuryBuckets := [{ id := "bkt1", bucketRef := "ops", businessId := "biz" }]
  bucketLedgerEntries :=
    [{ id := "ble1", bucketId := "bkt1", entryType := .credit, amountKobo := 500,
       cumulativeAmountKobo := 500, reference := "r1", createdAt := 1 },
     { id := "ble2", bucketId := "bkt1", entryType := .debit, amountKobo := 200,
       cumulativeAmountKobo := 300, reference := "r2", createdAt := 2 },
     { id := "ble3", bucketId := "bkt1", entryType := .credit, amountKobo := 100,
       cumulativeAmountKobo := 400, reference := "r3", createdAt := 3 }]

end Sample

/-- The two credits up to a date, in pages of one. -/
theorem getStatement_complete_credits : ∃ pages, Walk
      (fun cursor => getStatement Sample.client (fun _ => 0) (fun _ => Sample.statementBucket)
        { entryType := some "CREDIT", dateTo := some "2026-01-01", limit := some 1, cursor }
        "ops" "biz") none pages ∧
    pages.flatten = statementEntries Sample.client (fun _ => 0) Sample.statementBucket "bkt1"
      { entryType := some "CREDIT", dateTo := some "2026-01-01", limit := some 1 } ∧
    pages.length ≤ (statementEntries Sample.client (fun _ => 0) Sample.statementBucket "bkt1"
      { entryType := some "CREDIT", dateTo := some "2026-01-01", limit := some 1 }).length /
        min 1 100 + 1 := by
  have hdate : Sample.client.AcceptsDate (some "2026-01-01") := by
    rintro _ ⟨⟩ -
    decide
  exact @getStatement_complete Sample.client (fun _ => 0) Sample.statementBucket "ops" "biz" _
    { entryType := some "CREDIT", dateTo := some "2026-01-01", limit := some 1 } (by decide)
    (by decide) rfl (fun _ h => (by cases h)) hdate
    (fun _ h _ => .inl (Option.some.inj h).symm) 1 (by norm_num) (by norm_num)

/-- A bound that is no date, and an entry type in lower case: the first call throws. -/
theorem getStatement_rejected :
    (¬ ∃ pages, Walk (fun cursor => getStatement Sample.client (fun _ => 0)
      (fun _ => Sample.statementBucket) { dateFrom := some "yesterday", cursor } "ops" "biz")
      none pages) ∧
    ¬ ∃ pages, Walk (fun cursor => getStatement Sample.client (fun _ => 0)
      (fun _ => Sample.statementBucket) { entryType := some "credit", cursor } "ops" "biz")
      none pages := by
  constructor
  · rintro ⟨pages, h⟩
    obtain ⟨p, hp⟩ := h.ok
    cases hp
  · rintro ⟨pages, h⟩
    obtain ⟨p, hp⟩ := h.ok
    cases hp

end AccountOS
