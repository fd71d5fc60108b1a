import AccountOS.Ledger.Queries

/-!
# Paging through a ledger

The query of `getEntries` is clamped to 100 rows, and the end of the list is found by comparing the
page with the limit that was asked for. `getEntries_complete_iff` says for which limits following
the cursors returns every matching entry: the integers between 1 and 100, and the others only for
ledgers that fit one page. With a limit of 0 the call throws, and above 100, or when the limit is no
integer, the first page never names a cursor.
-/

namespace AccountOS

open Sql

/-! ### A clamped query -/

section Clamped

variable {α : Type} {client : ClientArguments} {id : α → String} {rows : List α} {take : ℚ}

/-- The limits for which a list of `n` rows is returned completely: the page sizes up to 100, and any
limit that no page's length is equal to, when all rows are on the first page. -/
def ClientArguments.LimitFits (client : ClientArguments) (take : ℚ) (n : ℕ) : Prop :=
  (∃ k : ℕ, take = k ∧ 1 ≤ k ∧ k ≤ 100) ∨
    (∀ k : ℕ, take = k → 100 < k) ∧ client.takes (takeRows (min take 100)) = true ∧
      n ≤ (takeRows (min take 100)).natAbs

theorem takeRows_min_of_lt (h : 100 < take) : takeRows (min take 100) = (100 : ℕ) := by
  rw [min_eq_right (le_of_lt h)]
  exact takeRows_natCast 100

/-- A limit that is no integer between 0 and 100 is the length of no page. -/
theorem complete_clamped_of_ne (hne : ∀ k : ℕ, take = k → 100 < k)
    (htakes : client.takes (takeRows (min take 100)) = true) :
    Complete (client.listing id true rows (min take 100) take) rows ↔
      rows.length ≤ (takeRows (min take 100)).natAbs := by
  refine complete_listing_of_ne htakes fun cursor heq => ?_
  have hlong : 100 < (page id rows (takeRows (min take 100)) cursor).length := hne _ heq.symm
  -- above 100 a page has no more than 100 rows
  have htake : 100 < take := by
    rw [← heq]
    exact_mod_cast hlong
  rw [takeRows_min_of_lt htake] at hlong
  exact absurd hlong (not_lt.2 length_page_le)

/-- A call with a limit of 0 throws. -/
theorem listing_zero_ne_ok {accepted : Bool} {p : Page α String} :
    client.listing id accepted rows 0 0 none ≠ .ok p := by
  intro h
  obtain ⟨hentries, hnext⟩ := listing_eq_ok.1 h
  obtain ⟨-, -, hdata⟩ := of_findMany_eq_ok hentries
  have hnil : p.data = [] := hdata
  rw [hnil] at hnext
  cases hnext

/-- **When the pages of a clamped query are complete.** -/
theorem complete_clamped_iff (hnodup : (rows.map id).Nodup) (hids : ∀ x ∈ rows, id x ≠ "") :
    Complete (client.listing id true rows (min take 100) take) rows ↔
      client.LimitFits take rows.length := by
  by_cases hne : ∀ k : ℕ, take = k → 100 < k
  · constructor
    · intro h
      -- the client has accepted the limit of the first call
      obtain ⟨p, hp⟩ := h.1 none
      obtain ⟨-, htakes, -⟩ := of_findMany_eq_ok (listing_eq_ok.1 hp).1
      exact .inr ⟨hne, htakes, (complete_clamped_of_ne hne htakes).1 h⟩
    · rintro (⟨k, rfl, -, hle⟩ | ⟨-, htakes, hlength⟩)
      · exact absurd (hne k rfl) (not_lt.2 hle)
      · exact (complete_clamped_of_ne hne htakes).2 hlength
  · push Not at hne
    obtain ⟨k, rfl, hle⟩ := hne
    have hmin : min (k : ℚ) 100 = k := min_eq_left (by exact_mod_cast hle)
    rw [hmin]
    constructor
    · intro h
      rcases Nat.eq_zero_or_pos k with rfl | hpos
      · -- the first page is empty and looks full, so that its last row is read
        obtain ⟨p, hp⟩ := h.1 none
        rw [Nat.cast_zero] at hp
        exact absurd hp listing_zero_ne_ok
      · exact .inl ⟨k, rfl, hpos, hle⟩
    · rintro (⟨k', hk, hpos, -⟩ | ⟨hlt, -⟩)
      · obtain rfl : k = k' := by exact_mod_cast hk
        exact complete_listing hnodup hids hpos hle
      · exact absurd (hlt k rfl) (not_lt.2 hle)

end Clamped

/-! ### The entries of an account -/

section Entries

variable {client : ClientArguments} {rank : String → Nat} {db : Db} {accountId : String}
  {filters : LedgerFiltersDto}

variable (client rank db accountId filters) in
/-- A cursor only says where the listing goes on. -/
theorem getEntries_cursor :
    (fun cursor => getEntries client rank db accountId { filters with cursor }) =
      client.listing LedgerEntry.id (entriesWhere client accountId filters).accepted
        (matchingEntries client rank db accountId filters) (min (filters.limit.getD 50) 100)
        (filters.limit.getD 50) := rfl

theorem accepted_entriesWhere : (entriesWhere client accountId filters).accepted = true ↔
    client.AcceptsDate filters.dateFrom ∧ client.AcceptsDate filters.dateTo := by
  simp only [entriesWhere, Where.accepted_and, Where.accepted_ifGiven, true_and, and_true]
  rfl

/-- **Following the cursors of `getEntries` returns every matching entry**, once and in order, and no
call throws, exactly when the bounds of the range are dates and the limit fits the entries. -/
theorem getEntries_complete_iff (hnodup : (db.ledgerEntries.map LedgerEntry.id).Nodup)
    (hids : ∀ e ∈ db.ledgerEntries, e.id ≠ "") :
    Complete (fun cursor => getEntries client rank db accountId { filters with cursor })
        (matchingEntries client rank db accountId filters) ↔
      client.AcceptsDate filters.dateFrom ∧ client.AcceptsDate filters.dateTo ∧
        client.LimitFits (filters.limit.getD 50)
          (matchingEntries client rank db accountId filters).length := by
  have hrows : ((matchingEntries client rank db accountId filters).map LedgerEntry.id).Nodup :=
    nodup_map_selectRows hnodup
  have hrowIds : ∀ e ∈ matchingEntries client rank db accountId filters, e.id ≠ "" :=
    fun e he => hids e (mem_selectRows.1 he).1
  rw [getEntries_cursor, ← and_assoc, ← accepted_entriesWhere]
  -- a date that the client does not accept makes every call throw
  by_cases haccepted : (entriesWhere client accountId filters).accepted = true
  · rw [haccepted, complete_clamped_iff hrows hrowIds]
    simp
  · constructor
    · intro h
      obtain ⟨p, hp⟩ := h.1 none
      exact absurd (of_findMany_eq_ok (listing_eq_ok.1 hp).1).1 haccepted
    · exact fun h => absurd h.1 haccepted

end Entries

namespace Sample

/-- An account with `n` entries. -/
def entries (n : ℕ) : Db where
  ledgerEntries := (List.range n).map fun i : ℕ =>
    { id := s!"le{i}", accountId := "acc1", nombaTransactionRef := s!"trx{i}",
      nombaEventId := s!"evt{i}", direction := .inflow, amountKobo := 1000,
      customerNameSnapshot := "Ada", kycTierAtTime := .tier1, cumulativeAmountKobo := 1000 * (i + 1),
      receivedAt := i, createdAt := i }

end Sample

/-- Three entries in two pages of two. -/
theorem getEntries_complete_three : Complete (fun cursor => getEntries Sample.client (fun _ => 0)
      (Sample.entries 3) "acc1" { limit := some 2, cursor })
    (matchingEntries Sample.client (fun _ => 0) (Sample.entries 3) "acc1" { limit := some 2 }) :=
  (@getEntries_complete_iff Sample.client (fun _ => 0) (Sample.entries 3) "acc1"
    { limit := some 2 } (by decide) (by decide)).2
    ⟨fun _ h => (by cases h), fun _ h => (by cases h), .inl ⟨2, rfl, by decide, by decide⟩⟩

/-- A limit of 0 makes the call throw, and a limit of 150 returns 100 of 101 entries and no cursor. -/
theorem getEntries_incomplete :
    (¬ ∃ p, getEntries Sample.client (fun _ => 0) (Sample.entries 0) "acc1" { limit := some 0 } =
      .ok p) ∧
    ¬ Complete (fun cursor => getEntries Sample.client (fun _ => 0) (Sample.entries 101) "acc1"
        { limit := some 150, cursor })
      (matchingEntries Sample.client (fun _ => 0) (Sample.entries 101) "acc1"
        { limit := some 150 }) := by
  constructor
  · rintro ⟨p, hp⟩
    have hzero : getEntries Sample.client (fun _ => 0) (Sample.entries 0) "acc1"
        { limit := some 0 } = Sample.client.listing LedgerEntry.id true [] 0 0 none := rfl
    rw [hzero] at hp
    exact listing_zero_ne_ok hp
  · intro h
    have hne : ∀ k : ℕ, (150 : ℚ) = k → 100 < k := by
      intro k hk
      have hk' : 150 = k := by exact_mod_cast hk
      omega
    have hfetch := getEntries_cursor Sample.client (fun _ => 0) (Sample.entries 101) "acc1"
      { limit := some 150 }
    have hlength := (complete_clamped_of_ne hne (by decide +kernel)).1 (hfetch ▸ h)
    have hperm : (matchingEntries Sample.client (fun _ => 0) (Sample.entries 101) "acc1"
        { limit := some 150 }).Perm _ := perm_selectRows
    rw [hperm.length_eq] at hlength
    revert hlength
    decide +kernel

end AccountOS
