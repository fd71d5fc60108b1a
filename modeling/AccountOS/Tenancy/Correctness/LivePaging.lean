import AccountOS.Ledger.Correctness.Paging
import AccountOS.Store.LiveListing
import AccountOS.Tenancy.Correctness.Growth
import AccountOS.Tenancy.Reads
import AccountOS.Treasury.Correctness.StatementPaging
import Mathlib.Logic.Equiv.List

/-!
# Paging while others write

A client asks for one page after the other, and between two of them requests and jobs add rows. What is
shown goes by columns that are written once, and so no row that was there at first is missed. Rows of one
time have an order of their own here, `rank`, that is the same at every call.

* `statement_pages_live`, `ledger_pages_live`: following the cursors of a statement or a ledger.
* `numbered_pages_live`: going through the numbered pages of customers, accounts, buckets or
  settlements. Rows may be seen twice here, and the number of pages has to be counted when the rows of
  the last page are there.
-/

namespace AccountOS

open Conc Sql

section LivePaging

variable {ι : Type} [DecidableEq ι] {allowed : Call → Env → World → World → Prop}
  {isUrl : String → Bool} {tasks : ι → Task} {w₀ w : World} {hist : List (Event ι World Env Call)}
  {ps : ι → Action Unit} {client : ClientArguments} {rank : String → Nat}

/-! ### Statements -/

/-- **Following the cursors of a statement while others write**, with filters that the client accepts
and a limit of at least 1, returns every entry that matched at the first call, latest first and none
twice, in at most `⌊N / min limit 100⌋ + 1` calls for the `N` entries that match at the end. `point i`
has the points at which call `i` looks up the bucket and its entries. -/
theorem statement_pages_live (hrank : Function.Injective rank)
    (run : Run allowed (fun i => (tasks i).run isUrl) w₀ hist ps w)
    (hnodup : (w₀.db.bucketLedgerEntries.map BucketLedgerEntry.id).Nodup)
    (hids : ∀ e ∈ w.db.bucketLedgerEntries, e.id ≠ "") {point : ℕ → ℕ → ℕ}
    (hawaits : ∀ i, point i 0 ≤ point i 1) (hinOrder : ∀ i, point i 1 ≤ point (i + 1) 0)
    {bucketRef businessId : String} {bucket : TreasuryBucket}
    (hbucket : (stateAt hist w (point 0 0)).db.findBucket businessId bucketRef = some bucket)
    {filters : StatementFilters} (hfrom : client.AcceptsDate filters.dateFrom)
    (hto : client.AcceptsDate filters.dateTo) (htype : AcceptsEntryType filters.entryType)
    {limit : ℕ} (hlimit : filters.limit.getD 50 = limit) (hpos : 1 ≤ limit) :
    ∃ pages, LiveWalk (fun i cursor => getStatement client rank
        (fun j => (stateAt hist w (point i j)).db) { filters with cursor } bucketRef businessId) 0
          none pages ∧
      pages.flatten.Pairwise (latestFirst BucketLedgerEntry.createdAt BucketLedgerEntry.id rank) ∧
      (pages.flatten.map BucketLedgerEntry.id).Nodup ∧
      statementEntries client rank (stateAt hist w (point 0 1)).db bucket.id filters ⊆
        pages.flatten ∧
      pages.length ≤
        (statementEntries client rank w.db bucket.id filters).length / min limit 100 + 1 := by
  have haccepted : (statementWhere client bucket.id filters).accepted = true :=
    accepted_statementWhere.2 ⟨hfrom, hto, htype⟩
  have htake : min (filters.limit.getD 50) 100 = ((min limit 100 : ℕ) : ℚ) := by
    rw [hlimit, Nat.cast_min]
    rfl
  have hlater : ∀ i, point 0 0 ≤ point i 0 := by
    intro i
    induction i with
    | zero => exact le_refl _
    | succ i ih => exact ih.trans ((hawaits i).trans (hinOrder i))
  -- each call finds the same bucket, with the entries of its time
  have hfetch : (fun i cursor => getStatement client rank (fun j => (stateAt hist w (point i j)).db)
      { filters with cursor } bucketRef businessId) =
        fun i => client.listing BucketLedgerEntry.id true
          (statementEntries client rank (stateAt hist w (point i 1)).db bucket.id filters)
          ((min limit 100 : ℕ) : ℚ) ((min limit 100 : ℕ) : ℚ) := by
    funext i
    obtain ⟨b, hb, hid, -⟩ := (rows_written_once run (hlater i)).findBucket hbucket
    have hcursor := @getStatement_cursor client rank bucketRef businessId b filters
      (fun j => (stateAt hist w (point i j)).db) hb
    rw [hcursor, hid, haccepted, htake]
  obtain ⟨pages, hwalk, hsorted, hunique, hall, hlength⟩ := @exists_liveWalk_listing
    BucketLedgerEntry BucketLedgerEntry BucketLedgerEntry.createdAt BucketLedgerEntry.id rank
    (fun e => e) (statementWhere client bucket.id filters) hrank
    (statementWhere client bucket.id filters).selects (fun _ => rfl)
    (fun i => (stateAt hist w (point i 1)).db.bucketLedgerEntries)
    (fun i => (rows_written_once run ((hinOrder i).trans (hawaits (i + 1)))).bucketLedgerEntries)
    ((grows_from_start run (point 0 1)).bucketLedgerEntries.unique hnodup) w.db.bucketLedgerEntries
    (fun i => (grows_to_end run (point i 1)).bucketLedgerEntries) hids client (min limit 100)
    (lt_min hpos (by norm_num)) (min_le_right limit 100)
  refine ⟨pages, ?_, hsorted, hunique, ?_, hlength⟩
  · rw [hfetch]
    exact hwalk
  · rw [List.map_id', List.map_id'] at hall
    exact hall

/-! ### Ledgers -/

/-- Without a status to look for, entries are selected by what is written once. -/
theorem selects_entriesWhere_writtenOnce {accountId : String} {filters : LedgerFiltersDto}
    (hstatus : filters.reconciliationStatus = none) (e : LedgerEntry) :
    (entriesWhere client accountId filters).selects e =
      (entriesWhere client accountId filters).selects e.writtenOnce := by
  have hfrom : ∀ (text : Option String) (f : String → Where LedgerEntry),
      (∀ t, (f t).selects e = (f t).selects e.writtenOnce) →
        (Where.ifGiven text f).selects e = (Where.ifGiven text f).selects e.writtenOnce := by
    intro text f hf
    cases text with
    | none => rfl
    | some t =>
      unfold Where.ifGiven
      dsimp only
      split
      · rfl
      · exact hf t
  simp only [entriesWhere, Where.and, hstatus]
  rw [hfrom filters.dateFrom _ fun _ => rfl, hfrom filters.dateTo _ fun _ => rfl]
  rfl

/-- **Following the cursors of a ledger while others write**, for a limit between 1 and 100, for bounds
that are dates and for entries of any status: it returns every entry that matched at the first call, but
for its status as it was then, latest first and none twice. -/
theorem ledger_pages_live (hrank : Function.Injective rank)
    (run : Run allowed (fun i => (tasks i).run isUrl) w₀ hist ps w)
    (hnodup : (w₀.db.ledgerEntries.map LedgerEntry.id).Nodup)
    (hids : ∀ e ∈ w.db.ledgerEntries, e.id ≠ "") {point : ℕ → ℕ} (hpoint : Monotone point)
    {accountId : String} {filters : LedgerFiltersDto} (hstatus : filters.reconciliationStatus = none)
    (hfrom : client.AcceptsDate filters.dateFrom) (hto : client.AcceptsDate filters.dateTo)
    {limit : ℕ} (hlimit : filters.limit.getD 50 = limit) (hpos : 1 ≤ limit) (hle : limit ≤ 100) :
    ∃ pages, LiveWalk (fun i cursor => getEntries client rank (stateAt hist w (point i)).db accountId
        { filters with cursor }) 0 none pages ∧
      pages.flatten.Pairwise (latestFirst LedgerEntry.receivedAt LedgerEntry.id rank) ∧
      (pages.flatten.map LedgerEntry.id).Nodup ∧
      (matchingEntries client rank (stateAt hist w (point 0)).db accountId filters).map
          LedgerEntry.writtenOnce ⊆ pages.flatten.map LedgerEntry.writtenOnce ∧
      pages.length ≤ (matchingEntries client rank w.db accountId filters).length / limit + 1 := by
  have haccepted : (entriesWhere client accountId filters).accepted = true :=
    accepted_entriesWhere.2 ⟨hfrom, hto⟩
  have htake : min (filters.limit.getD 50) 100 = limit := by
    rw [hlimit]
    exact min_eq_left (by exact_mod_cast hle)
  have hfetch : (fun i cursor => getEntries client rank (stateAt hist w (point i)).db accountId
      { filters with cursor }) =
        fun i => client.listing LedgerEntry.id true
          (matchingEntries client rank (stateAt hist w (point i)).db accountId filters) limit limit := by
    funext i
    rw [getEntries_cursor, haccepted, htake, hlimit]
  obtain ⟨pages, hwalk, hsorted, hunique, hall, hlength⟩ := @exists_liveWalk_listing
    LedgerEntry LedgerEntry LedgerEntry.receivedAt LedgerEntry.id rank LedgerEntry.writtenOnce
    (entriesWhere client accountId filters) hrank (entriesWhere client accountId filters).selects
    (selects_entriesWhere_writtenOnce hstatus)
    (fun i => (stateAt hist w (point i)).db.ledgerEntries)
    (fun i => (rows_written_once run (hpoint (Nat.le_succ i))).ledgerEntries)
    ((grows_from_start run (point 0)).ledgerEntries.unique hnodup) w.db.ledgerEntries
    (fun i => (grows_to_end run (point i)).ledgerEntries) hids client limit hpos hle
  refine ⟨pages, ?_, hsorted, hunique, hall, hlength⟩
  rw [hfetch]
  exact hwalk

/-! ### Numbered pages -/

/-- What is listed by page numbers, in any status. -/
inductive Listing
  | customers
  | accounts
  | buckets
  | settlements (bucketRef : String)

namespace Listing

/-- The route of page `page`. -/
def read (l : Listing) (page limit : Int) : ApiRead :=
  let q : PageQuery := { page := some page, limit := some limit }
  match l with
  | customers => .listCustomers q
  | accounts => .listAccounts none q
  | buckets => .getBuckets none q
  | settlements bucketRef => .getByBucket bucketRef none q

/-- The query for the rows; the one for their number is the next. -/
def rowsQuery : Listing → ℕ
  | settlements _ => 1
  | _ => 0

/-- How many rows a page has when `limit` are asked for. -/
def pageSize (limit : ℕ) : Listing → ℕ
  | customers => min limit 100
  | _ => limit

/-- The ids of all the rows of a business, in the order of the listing. -/
def ids (config : ReadConfig) (db : Db) (businessId : String) : Listing → List String
  | customers => (listedCustomers config db businessId).map Customer.id
  | accounts => (listedAccounts config db businessId none).map Account.id
  | buckets => (listedBuckets config db businessId none).map TreasuryBucket.id
  | settlements bucketRef =>
    match db.findBucket businessId bucketRef with
    | none => []
    | some bucket => (listedSettlements config db bucket.id none).map Settlement.id

end Listing

/-- The ids that a listing answers with. -/
def ApiAnswer.listing : ApiAnswer → Option (OffsetPage String)
  | customers page => some (page.map CustomerItem.id)
  | accounts page => some (page.map fun x => x.account.id)
  | buckets page => some (page.map TreasuryBucket.id)
  | settlements page => some (page.map Settlement.id)
  | _ => none

section Listing

variable {config : ReadConfig} {A : String}

/-- Rows that are added are added between the others. -/
theorem Listing.ids_sublist (hrank : Function.Injective config.rank) {db db' : Db}
    (h : Db.Grows db db') (l : Listing) :
    List.Sublist (l.ids config db A) (l.ids config db' A) := by
  cases l with
  | customers =>
    exact @map_listedRows_sublist _ _ (fun c : Customer => config.createdAt c.id) Customer.id _
      Customer.writtenOnce { selects := fun c => c.businessId = A } hrank _ _ h.customers
      (fun c => c.businessId = A) fun _ => rfl
  | accounts =>
    exact @map_listedRows_sublist _ _ Account.createdAt Account.id _ Account.writtenOnce
      (accountsWhere A none) hrank _ _ h.accounts (accountsWhere A none).selects fun _ => rfl
  | buckets =>
    exact @map_listedRows_sublist _ _ (fun b : TreasuryBucket => config.createdAt b.id)
      TreasuryBucket.id _ TreasuryBucket.writtenOnce (bucketsWhere A none) hrank _ _
      h.treasuryBuckets (bucketsWhere A none).selects fun _ => rfl
  | settlements bucketRef =>
    cases hfound : db.findBucket A bucketRef with
    | none =>
      simp only [Listing.ids, hfound]
      exact List.nil_sublist _
    | some b =>
      obtain ⟨b', hb', hid, -⟩ := h.findBucket hfound
      simp only [Listing.ids, hfound, hb', hid]
      exact @map_listedRows_sublist _ _ Settlement.createdAt Settlement.id _ Settlement.writtenOnce
        (settlementsWhere b.id none) hrank _ _ h.settlements (settlementsWhere b.id none).selects
        fun _ => rfl

theorem exists_of_map_eq_ok {α β : Type} {x : Except Error α} {f : α → β} {b : β}
    (h : x.map f = .ok b) : ∃ a, x = .ok a ∧ f a = b := by
  cases x with
  | error e => cases h
  | ok a => exact ⟨a, rfl, Except.ok.inj h⟩

/-- The ids of a page of rows. -/
theorem offsetListing_ids {α β : Type} {rows : List α} {total : ℕ} {page : Int} {n : ℕ} {item : α → β}
    {id : α → String} {itemId : β → String} (hid : ∀ x, itemId (item x) = id x) {q : OffsetPage β}
    (hq : config.client.offsetListing true (rows.map item) total (some page) (some (n : Int)) = .ok q)
    {p : OffsetPage String} (hp : some (q.map itemId) = some p) :
    config.client.offsetListing true (rows.map id) total (some page) (some (n : Int)) = .ok p := by
  have hrows : rows.map id = (rows.map item).map itemId := by
    rw [List.map_map]
    exact List.map_congr_left fun x _ => (hid x).symm
  rw [hrows, offsetListing_map, hq, ← Option.some.inj hp]
  rfl

/-- What a page shows, and what its number of pages is counted from. -/
theorem Listing.offsetListing_of_answer {l : Listing} {dbs : ℕ → Db} {page : Int} {limit : ℕ}
    (hgrow : ∀ i j, (l.read page limit).Awaits i j → Db.Grows (dbs i) (dbs j)) {a : ApiAnswer}
    {p : OffsetPage String} (ha : (l.read page limit).answer config dbs A = .ok a)
    (hp : a.listing = some p) :
    config.client.offsetListing true (l.ids config (dbs l.rowsQuery) A)
      (l.ids config (dbs (l.rowsQuery + 1)) A).length (some page)
      (some (l.pageSize limit : Int)) = .ok p := by
  cases l with
  | customers =>
    obtain ⟨q, hq, rfl⟩ := exists_of_map_eq_ok ha
    have hsize : (some (limit : Int)).map (fun n => min n 100) =
        some ((min limit 100 : ℕ) : Int) := by
      rw [Option.map_some, Nat.cast_min]
      rfl
    rw [listCustomers, hsize] at hq
    unfold Listing.ids
    rw [List.length_map]
    exact offsetListing_ids (fun _ => rfl) hq hp
  | accounts =>
    obtain ⟨q, hq, rfl⟩ := exists_of_map_eq_ok ha
    unfold Listing.ids
    rw [List.length_map]
    exact offsetListing_ids (fun _ => rfl) hq hp
  | buckets =>
    obtain ⟨q, hq, rfl⟩ := exists_of_map_eq_ok ha
    unfold Listing.ids
    rw [List.length_map]
    rw [getBuckets, ← List.map_id (listedBuckets config (dbs 0) A _)] at hq
    exact offsetListing_ids (fun _ => rfl) hq hp
  | settlements bucketRef =>
    obtain ⟨q, hq, rfl⟩ := exists_of_map_eq_ok ha
    cases hfound : (dbs 0).findBucket A bucketRef with
    | none =>
      rw [getByBucket, hfound] at hq
      cases hq
    | some b =>
      -- the later queries are about the same bucket
      obtain ⟨b₁, hb₁, hid₁, -⟩ := (hgrow 0 1 ⟨rfl, by norm_num⟩).findBucket hfound
      obtain ⟨b₂, hb₂, hid₂, -⟩ := (hgrow 0 2 ⟨rfl, by norm_num⟩).findBucket hfound
      rw [getByBucket, hfound] at hq
      dsimp only at hq
      rw [← List.map_id (listedSettlements config (dbs 1) _ _)] at hq
      simp only [Listing.ids, Listing.rowsQuery, hb₁, hb₂, hid₁, hid₂, List.length_map]
      exact offsetListing_ids (fun _ => rfl) hq hp

/-- **Going through the numbered pages while others write**, one page after the other, up to the one that
says to be the last: every row that was there when the rows of the first page were read is on one of
them. The rows of the last page have to be read before they are counted. -/
theorem numbered_pages_live (hrank : Function.Injective config.rank)
    (run : Run allowed (fun i => (tasks i).run isUrl) w₀ hist ps w) (l : Listing) {limit K : ℕ}
    (hlimit : 0 < limit) {point : ℕ → ℕ → ℕ} (hinOrder : ∀ k i j, point k i ≤ point (k + 1) j)
    (hawaits : ∀ (k i j : ℕ), (l.read ((k : Int) + 1) limit).Awaits i j → point k i ≤ point k j)
    (hcounted : point K l.rowsQuery ≤ point K (l.rowsQuery + 1)) {answers : ℕ → ApiAnswer}
    (hanswers : ∀ k ≤ K, (l.read ((k : Int) + 1) limit).answer config
      (fun j => (stateAt hist w (point k j)).db) A = .ok (answers k))
    {pages : ℕ → OffsetPage String} (hpages : ∀ k ≤ K, (answers k).listing = some (pages k))
    {count : Int} (hcount : (pages K).totalPages = some count) (hlast : count ≤ (K : Int) + 1) :
    ∀ id ∈ l.ids config (stateAt hist w (point 0 l.rowsQuery)).db A, ∃ k ≤ K, id ∈ (pages k).data := by
  intro id hid
  have hsize : 0 < l.pageSize limit := by
    cases l with
    | customers => exact lt_min hlimit (by norm_num)
    | accounts | buckets | settlements => exact hlimit
  have hlisting : ∀ k ≤ K, config.client.offsetListing true
      (l.ids config (stateAt hist w (point k l.rowsQuery)).db A)
      (l.ids config (stateAt hist w (point k (l.rowsQuery + 1))).db A).length
      (some ((k : Int) + 1)) (some (l.pageSize limit : Int)) = .ok (pages k) := by
    intro k hk
    exact Listing.offsetListing_of_answer
      (fun i j hij => rows_written_once run (hawaits k i j hij)) (hanswers k hk) (hpages k hk)
  have hgrow : ∀ k < K, List.Sublist
      ((l.ids config (stateAt hist w (point k l.rowsQuery)).db A).map fun x => x)
      ((l.ids config (stateAt hist w (point (k + 1) l.rowsQuery)).db A).map fun x => x) := by
    intro k _
    rw [List.map_id', List.map_id']
    exact l.ids_sublist hrank (rows_written_once run (hinOrder k _ _))
  have htotal := (l.ids_sublist (A := A) hrank (rows_written_once run hcounted)).length_le
  have hx : id ∈ (l.ids config (stateAt hist w (point 0 l.rowsQuery)).db A).map fun x => x := by
    rwa [List.map_id']
  obtain ⟨k, hk, hmem⟩ := mem_pages_of_growing hsize hlisting hgrow htotal hcount hlast hx
  rw [List.map_id'] at hmem
  exact ⟨k, hk, hmem⟩

end Listing

end LivePaging

/-! ### A busy day -/

namespace Sample

/-- Texts in the order of their letters, one behind the other. -/
def letters (text : String) : ℕ := Encodable.encode (text.toList.map Char.toNat)

theorem letters_injective : Function.Injective letters := by
  intro s t h
  have hchars : s.toList.map Char.toNat = t.toList.map Char.toNat := Encodable.encode_injective h
  have hinj : Function.Injective Char.toNat := fun c d hcd => Char.ext (UInt32.toNat_inj.1 hcd)
  exact String.toList_injective (List.map_injective_iff.2 hinj hchars)

/-- The shop has two customers. Two inflows arrive, and another customer is created. -/
def busyShop : World :=
  { opsShop with db := { opsShop.db with
    customers := [{ id := "cus1", displayName := "Amina", businessId := "biz" },
      { id := "cus2", displayName := "Chidi", businessId := "biz" }] } }

def busyDay : Fin 3 → Task
  | 0 => .inflow inflow
  | 1 => .inflow { inflow with eventId := "evt2", transactionRef := "trx2" }
  | 2 => .request "biz" (.createCustomer { displayName := "Bola" })

def busyTurns : List (Fin 3 × Env) :=
  List.replicate 14 (0, { row := ⟨1, "row1"⟩ }) ++
    List.replicate 2 (2, { row := ⟨2, "cus3"⟩, row₂ := ⟨2, "name3"⟩ }) ++
    List.replicate 14 (1, { row := ⟨3, "row2"⟩ })

def busyRun : List (Event (Fin 3) World Env Call) × (Fin 3 → Action Unit) × World :=
  exec (fun i => (busyDay i).run fun _ => true) busyShop busyTurns

theorem busy_isRun : Run (fun _ _ _ _ => True) (fun i => (busyDay i).run fun _ => true) busyShop
    busyRun.1 busyRun.2.1 busyRun.2.2 :=
  Run.of_exec _ busyShop busyTurns fun _ _ => trivial

def busyConfig : ReadConfig where
  client := client
  rank := letters
  createdAt id := if id = "cus1" then 1 else if id = "cus2" then 2 else 3

/-- One customer a page. The first page is read before the third customer is created. -/
def busyPage (k : ℕ) : Except Error ApiAnswer :=
  (Listing.customers.read ((k : Int) + 1) (1 : ℕ)).answer busyConfig
    (fun _ => (stateAt busyRun.1 busyRun.2.2 (16 * k)).db) "biz"

/-- The second customer is seen twice. -/
def busyCustomers : ℕ → CustomerItem
  | 0 | 1 => ⟨"cus2", "Chidi", .tier0, 0⟩
  | _ => ⟨"cus1", "Amina", .tier0, 0⟩

def busyAnswer (k : ℕ) : OffsetPage CustomerItem :=
  let total := if k = 0 then 2 else 3
  ⟨[busyCustomers k], total, (k : Int) + 1, 1, some total⟩

end Sample

/-- A statement that is read from before the second inflow to after it. -/
theorem statement_pages_live_busy :
    ∃ pages, LiveWalk (fun i cursor => getStatement Sample.client Sample.letters
        (fun j => (stateAt Sample.busyRun.1 Sample.busyRun.2.2 (16 * (i + 1) + j)).db)
        { limit := some 1, cursor } "ops" "biz") 0 none pages ∧
      statementEntries Sample.client Sample.letters
          (stateAt Sample.busyRun.1 Sample.busyRun.2.2 17).db "bkt1aaaaaaaa" { limit := some 1 } ⊆
        pages.flatten := by
  have hbucket : (stateAt Sample.busyRun.1 Sample.busyRun.2.2 16).db.findBucket "biz" "ops" =
      some { id := "bkt1aaaaaaaa", bucketRef := "ops", businessId := "biz" } := by decide +kernel
  obtain ⟨pages, hwalk, -, -, hall, -⟩ := @statement_pages_live (Fin 3) _ _ _ _ _ _ _ _
    Sample.client Sample.letters Sample.letters_injective Sample.busy_isRun (by decide +kernel)
    (by decide +kernel) (fun i j => 16 * (i + 1) + j) (fun i => by omega) (fun i => by omega) "ops"
    "biz" _ hbucket { limit := some 1 } (fun _ h => by cases h) (fun _ h => by cases h)
    (fun _ h => by cases h) 1 (by norm_num) (le_refl 1)
  exact ⟨pages, hwalk, hall⟩

/-- The ledger of the account, meanwhile. -/
theorem ledger_pages_live_busy :
    ∃ pages, LiveWalk (fun i cursor => getEntries Sample.client Sample.letters
        (stateAt Sample.busyRun.1 Sample.busyRun.2.2 (16 * (i + 1))).db "acc1"
        { limit := some 1, cursor }) 0 none pages ∧
      (pages.flatten.map LedgerEntry.id).Nodup := by
  have hmono : Monotone fun i => 16 * (i + 1) := fun i j hij => by
    dsimp only
    omega
  obtain ⟨pages, hwalk, -, hunique, -, -⟩ := @ledger_pages_live (Fin 3) _ _ _ _ _ _ _ _
    Sample.client Sample.letters Sample.letters_injective Sample.busy_isRun (by decide +kernel)
    (by decide +kernel) _ hmono "acc1" { limit := some 1 } rfl (fun _ h => by cases h)
    (fun _ h => by cases h) 1 (by norm_num) (le_refl 1) (by norm_num)
  exact ⟨pages, hwalk, hunique⟩

/-- Both of the first customers are on one of the three pages. -/
theorem numbered_pages_live_busy :
    (∀ k ≤ 2, Sample.busyPage k = .ok (.customers (Sample.busyAnswer k))) ∧
      ∀ id ∈ ["cus2", "cus1"], ∃ k ≤ 2, id ∈ ((Sample.busyAnswer k).map CustomerItem.id).data := by
  have hpages : ∀ k ≤ 2, (Sample.busyPage k).toOption = some (.customers (Sample.busyAnswer k)) := by
    decide +kernel
  have hanswers : ∀ k ≤ 2, Sample.busyPage k = .ok (.customers (Sample.busyAnswer k)) := by
    intro k hk
    have hpage := hpages k hk
    cases hcall : Sample.busyPage k with
    | error e =>
      rw [hcall] at hpage
      cases hpage
    | ok a =>
      rw [hcall] at hpage
      exact congrArg Except.ok (Option.some.inj hpage)
  have hids : Listing.customers.ids Sample.busyConfig (stateAt Sample.busyRun.1 Sample.busyRun.2.2 0).db
      "biz" = ["cus2", "cus1"] := by decide +kernel
  refine ⟨hanswers, ?_⟩
  rw [← hids]
  exact @numbered_pages_live (Fin 3) _ _ _ _ _ _ _ _ Sample.busyConfig "biz"
    Sample.letters_injective Sample.busy_isRun .customers 1 2 (by norm_num) (fun k _ => 16 * k)
    (fun k _ _ => by omega) (fun _ _ _ h => h.elim) (le_refl _) _ hanswers _ (fun _ _ => rfl) 3 rfl
    (by norm_num)

end AccountOS
