import AccountOS.Tenancy.Correctness.Growth
import AccountOS.Tenancy.Correctness.Withdrawals

/-!
# What is paid

Money leaves with the transfers that Nomba confirms. What `AccountOS.Tenancy.Correctness.Withdrawals`
says of the calls of one thread is put together here, for any number of them.

* `payouts_recorded`: in every run, each transfer is for a settlement that is recorded, with its amount
  and its destination, as a request for a withdrawal has asked; no settlement is paid twice, and no
  request is.
-/

namespace AccountOS

open Conc Sql

/-! ### Transfers, settlements and requests -/

/-- A transfer for a settlement in the database that is what the task asks for: out of the bucket of
the business, to the destination in the request or the one that the bucket has saved. -/
def PaidFor (task : Task) (db : Db) (t : ConfirmedTransfer) : Prop :=
  ∃ businessId bucketRef dto actor, task = .request businessId (.initiate bucketRef dto actor) ∧
    ∃ bucket, db.findBucket businessId bucketRef = some bucket ∧
      ∃ s ∈ db.settlements, t.Pays s ∧ s.bucketId = bucket.id ∧
        s.AskedBy businessId actor dto (resolveDestination dto bucket)

/-! What is paid, and to whom, is in columns that are written once. -/

theorem resolveDestination_congr {b b' : TreasuryBucket} (hfixed : b'.writtenOnce = b.writtenOnce)
    (dto : CreateSettlementDto) : resolveDestination dto b' = resolveDestination dto b := by
  have hwritten : ∀ x : TreasuryBucket,
      resolveDestination dto x = resolveDestination dto x.writtenOnce := fun _ => rfl
  rw [hwritten b', hfixed, ← hwritten b]

theorem ConfirmedTransfer.Pays.congr {t : ConfirmedTransfer} {s s' : Settlement}
    (hfixed : s'.writtenOnce = s.writtenOnce) (h : t.Pays s) : t.Pays s' := by
  have hwritten : ∀ x : Settlement, t.Pays x ↔ t.Pays x.writtenOnce := fun _ =>
    ⟨fun h => ⟨h.1, h.2, h.3, h.4, h.5, h.6⟩, fun h => ⟨h.1, h.2, h.3, h.4, h.5, h.6⟩⟩
  rw [hwritten s', hfixed, ← hwritten s]
  exact h

theorem Settlement.AskedBy.congr {s s' : Settlement} {businessId actor : String}
    {dto : CreateSettlementDto} {dest : Destination} (hfixed : s'.writtenOnce = s.writtenOnce)
    (h : s.AskedBy businessId actor dto dest) : s'.AskedBy businessId actor dto dest := by
  have hwritten : ∀ x : Settlement, x.AskedBy businessId actor dto dest ↔
      x.writtenOnce.AskedBy businessId actor dto dest := fun _ =>
    ⟨fun h => ⟨h.1, h.2, h.3, h.4, h.5, h.6⟩, fun h => ⟨h.1, h.2, h.3, h.4, h.5, h.6⟩⟩
  rw [hwritten s', hfixed, ← hwritten s]
  exact h

/-- Of different things that determine a key, the keys are different. -/
theorem nodup_map_of_forall₂ {α β κ : Type} {R : α → β → Prop} {key : β → κ} {xs : List α}
    {ys : List β} (h : List.Forall₂ R xs ys) (hnodup : xs.Nodup)
    (hkey : ∀ {x y x' y'}, R x y → R x' y' → key y = key y' → x = x') : (ys.map key).Nodup := by
  rw [List.Nodup, List.pairwise_map, List.pairwise_iff_getElem]
  intro m n hm hn hmn heq
  obtain ⟨hlength, hget⟩ := List.forall₂_iff_get.1 h
  have hsame : xs[m] = xs[n] := hkey (hget m (by omega) hm) (hget n (by omega) hn) heq
  have hindex : m = n := (List.Nodup.getElem_inj_iff hnodup).1 hsame
  omega

/-! ### Runs -/

section Run

variable {ι : Type} [DecidableEq ι] {allowed : Call → Env → World → World → Prop}
  {isUrl : String → Bool} {tasks : ι → Task} {w₀ w : World} {hist : List (Event ι World Env Call)}
  {ps : ι → Action Unit}

/-- Every call of a run takes the settlement of its thread from stage to stage. -/
theorem settlementCall_of_run (run : Run allowed (fun i => (tasks i).run isUrl) w₀ hist ps w) {n : ℕ}
    {ev : Event ι World Env Call} (hev : hist[n]? = some ev) :
    SettlementCall (tasks ev.who) (callsOf ev.who (hist.take n)) ev :=
  (run.traced fun i => traced_task (tasks i)).1 n ev hev

/-- The call at which a thread has created a settlement. -/
theorem HasOpened.exists_call {i : ι} {n : ℕ} {s : Settlement}
    (h : HasOpened (tasks i) (callsOf i (hist.take n)) s) :
    ∃ m x, m < n ∧ hist[m]? = some x ∧ x.who = i ∧
      Opens (tasks i) (callsOf i (hist.take m)) x s := by
  obtain ⟨earlier, x, later, hcalls, hopens⟩ := h
  obtain ⟨m, hmn, hm, hwho, rfl⟩ := exists_getElem?_of_callsOf_take hcalls
  exact ⟨m, x, hmn, hm, hwho, hopens⟩

/-- A settlement that a call has created is there from then on, as far as it is written once. -/
theorem exists_settlement_of_created (run : Run allowed (fun i => (tasks i).run isUrl) w₀ hist ps w)
    {m n : ℕ} {x : Event ι World Env Call} {s : Settlement} (hx : hist[m]? = some x)
    (hcreate : x.before.db.createSettlement s = .ok x.after.db) (hmn : m < n) :
    ∃ s' ∈ (stateAt hist w n).db.settlements, s'.writtenOnce = s.writtenOnce := by
  have hafter : stateAt hist w (m + 1) = x.after := run.stateAt_succ hx
  obtain ⟨-, -, -, hdb⟩ := Db.createSettlement_eq_ok.1 hcreate
  have hmem : s ∈ (stateAt hist w (m + 1)).db.settlements := by
    rw [hafter, hdb]
    exact List.mem_append_right _ (List.mem_singleton_self s)
  have hgrows := (rows_written_once run (Nat.succ_le_of_lt hmn)).settlements
  exact List.mem_map.1 (hgrows.columns.subset (List.mem_map_of_mem hmem))

/-- Of two calls that create a settlement of one id, neither is the later one. -/
theorem not_lt_of_created (run : Run allowed (fun i => (tasks i).run isUrl) w₀ hist ps w) {m n : ℕ}
    {x y : Event ι World Env Call} {s t : Settlement} (hx : hist[m]? = some x)
    (hy : hist[n]? = some y) (hs : x.before.db.createSettlement s = .ok x.after.db)
    (ht : y.before.db.createSettlement t = .ok y.after.db) (hid : s.id = t.id) : ¬ m < n := by
  intro hmn
  obtain ⟨s', hs', hfixed⟩ := exists_settlement_of_created run hx hs hmn
  rw [stateAt_eq_before hy] at hs'
  have hid' : s'.writtenOnce.id = s.writtenOnce.id := by rw [hfixed]
  obtain ⟨hfresh, -⟩ := Db.createSettlement_eq_ok.1 ht
  exact hfresh s' hs' (hid'.trans hid)

/-- **A settlement is created by one thread**, at one call. -/
theorem HasOpened.unique (run : Run allowed (fun i => (tasks i).run isUrl) w₀ hist ps w) {i j : ι}
    {m n : ℕ} {s t : Settlement} (hs : HasOpened (tasks i) (callsOf i (hist.take m)) s)
    (ht : HasOpened (tasks j) (callsOf j (hist.take n)) t) (hid : s.id = t.id) : i = j := by
  obtain ⟨k, x, -, hx, hxi, hxs⟩ := hs.exists_call
  obtain ⟨l, y, -, hy, hyj, hyt⟩ := ht.exists_call
  have hkl := not_lt_of_created run hx hy hxs.creates hyt.creates hid
  have hlk := not_lt_of_created run hy hx hyt.creates hxs.creates hid.symm
  obtain rfl : k = l := by omega
  rw [hx] at hy
  cases hy
  exact hxi.symm.trans hyj

/-- Thread `i` has made the transfer, for a settlement that it has created. -/
def PaidBy (tasks : ι → Task) (hist : List (Event ι World Env Call)) (i : ι)
    (t : ConfirmedTransfer) : Prop :=
  ∃ n s, HasOpened (tasks i) (callsOf i (hist.take n)) s ∧ t.Pays s

theorem PaidBy.thread_eq (run : Run allowed (fun i => (tasks i).run isUrl) w₀ hist ps w) {i j : ι}
    {t u : ConfirmedTransfer} (ht : PaidBy tasks hist i t) (hu : PaidBy tasks hist j u)
    (hid : t.settlementId = u.settlementId) : i = j := by
  obtain ⟨m, s, hs, htpays⟩ := ht
  obtain ⟨n, s', hs', hupays⟩ := hu
  exact hs.unique run hs' (htpays.settlementId.trans (hid.trans hupays.settlementId.symm))

/-- What a thread has paid is recorded at the end. -/
theorem PaidBy.paidFor (run : Run allowed (fun i => (tasks i).run isUrl) w₀ hist ps w) {i : ι}
    {t : ConfirmedTransfer} (h : PaidBy tasks hist i t) : PaidFor (tasks i) w.db t := by
  obtain ⟨n, s, hopened, hpays⟩ := h
  obtain ⟨m, x, -, hm, -, -, hasked, -, hcreate, -⟩ := hopened.exists_call
  obtain ⟨businessId, bucketRef, dto, actor, htask, ⟨bucket, hbucket, hbucketId⟩, r, hr, looked,
    hlooked, hasked⟩ := hasked
  obtain ⟨-, k, hk⟩ := mem_callsOf.1 hr
  rw [List.getElem?_take] at hk
  split_ifs at hk
  -- the bucket that was looked up and the one of the reservation are the same one at the end
  rw [← stateAt_eq_before hk] at hlooked
  rw [← stateAt_eq_before hm] at hbucket
  obtain ⟨b, hb, -, hfixed⟩ := (grows_to_end run k).findBucket hlooked
  obtain ⟨b', hb', hid, -⟩ := (grows_to_end run m).findBucket hbucket
  obtain rfl : b = b' := Option.some.inj (hb.symm.trans hb')
  have hend : stateAt hist w (max (m + 1) hist.length) = w := stateAt_of_le (le_max_right _ _)
  obtain ⟨s', hs', hsettlement⟩ := exists_settlement_of_created run hm hcreate
    (Nat.lt_of_succ_le (le_max_left (m + 1) hist.length))
  rw [hend] at hs'
  have hbucketId' : s'.writtenOnce.bucketId = s.writtenOnce.bucketId := by rw [hsettlement]
  refine ⟨businessId, bucketRef, dto, actor, htask, b, hb, s', hs', hpays.congr hsettlement, ?_, ?_⟩
  · exact hbucketId'.trans (hbucketId.trans hid.symm)
  · rw [resolveDestination_congr hfixed]
    exact hasked.congr hsettlement

/-- The threads that have paid, one for each transfer. -/
theorem exists_payers (run : Run allowed (fun i => (tasks i).run isUrl) w₀ hist ps w)
    (hnone : w₀.transfers = []) (n : ℕ) :
    ∃ payers : List ι, payers.Nodup ∧
      (∀ i ∈ payers, ∃ y ∈ callsOf i (hist.take n), y.after.transfers ≠ y.before.transfers) ∧
      List.Forall₂ (PaidBy tasks hist) payers (stateAt hist w n).transfers := by
  induction n with
  | zero =>
    rw [run.stateAt_zero, hnone]
    exact ⟨[], List.nodup_nil, nofun, .nil⟩
  | succ n ih =>
    obtain ⟨payers, hnodup, hpaid, hall⟩ := ih
    cases hev : hist[n]? with
    | none =>
      have hlength := List.getElem?_eq_none_iff.1 hev
      rw [stateAt_of_le hlength] at hall
      rw [stateAt_of_le (Nat.le_succ_of_le hlength)]
      rw [List.take_of_length_le hlength] at hpaid
      rw [List.take_of_length_le (Nat.le_succ_of_le hlength)]
      exact ⟨payers, hnodup, hpaid, hall⟩
    | some ev =>
      rw [stateAt_eq_before hev] at hall
      rw [run.stateAt_succ hev]
      have htake : hist.take (n + 1) = hist.take n ++ [ev] := by
        rw [List.take_add_one, hev]
        rfl
      have hpaid' : ∀ i ∈ payers, ∃ y ∈ callsOf i (hist.take (n + 1)),
          y.after.transfers ≠ y.before.transfers := by
        intro i hi
        obtain ⟨y, hy, hchanged⟩ := hpaid i hi
        rw [htake, callsOf_append]
        exact ⟨y, List.mem_append_left _ hy, hchanged⟩
      rcases (settlementCall_of_run run hev).transfers_cases with
        hsame | ⟨s, t, hstarted, htransfers, -, hpays⟩
      · rw [hsame]
        exact ⟨payers, hnodup, hpaid', hall⟩
      · have hnew : ev.who ∉ payers := by
          intro hmem
          obtain ⟨y, hy, hchanged⟩ := hpaid ev.who hmem
          exact hchanged (hstarted.nothing_paid y hy)
        refine ⟨payers ++ [ev.who], ?_, ?_, ?_⟩
        · rw [← List.concat_eq_append]
          exact hnodup.concat hnew
        · simp only [List.mem_append, List.mem_singleton]
          rintro i (hi | rfl)
          · exact hpaid' i hi
          · refine ⟨ev, ?_, ?_⟩
            · rw [htake, callsOf_append]
              exact List.mem_append_right _ (by simp [callsOf])
            · rw [htransfers]
              simp
        · rw [htransfers]
          exact List.rel_append hall (.cons ⟨n, s, hstarted.hasOpened, hpays⟩ .nil)

end Run

namespace Sample

/-- Two withdrawals from one bucket, side by side. -/
def halves : Bool → Task :=
  fun _ => .request "biz" (.initiate "ops" { payout with
    amountKobo := 45500
    one_le_amountKobo := by norm_num } "key")

def halvesTurns : List (Bool × Env) :=
  [(false, {}), (true, {}), (false, { row := ⟨2, "stl1"⟩ }), (true, { row := ⟨3, "stl2"⟩ }),
    (false, {}), (true, {}), (true, { uuid := "4e5f6a7b-0000" }), (false, { uuid := "0a1b2c3d-0000" })]

def halvesRun : List (Event Bool World Env Call) × (Bool → Action Unit) × World :=
  exec (fun i => (halves i).run fun _ => true) funded halvesTurns

theorem halves_isRun : Run (fun _ _ _ _ => True) (fun i => (halves i).run fun _ => true) funded
    halvesRun.1 halvesRun.2.1 halvesRun.2.2 :=
  Run.of_exec _ funded halvesTurns fun _ _ => trivial

end Sample

end AccountOS
