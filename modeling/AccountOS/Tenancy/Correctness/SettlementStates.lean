import AccountOS.Tenancy.Correctness.Payouts

/-!
# The states of a settlement

A settlement is `PENDING` first, then `PROCESSING`, and in the end `COMPLETED` or `FAILED`. The thread
that has created it is the only one to change it, and so it finds it as it has left it, whatever the
others do in between.

* `settlements_advance`: in every run, no settlement goes back to an earlier state.
* `paid_while_processing`: a settlement is paid while it is `PROCESSING`, that is, while its amount is
  reserved.
* `completed_settlements_paid`: what is `COMPLETED` has been paid, unless it goes to another bucket.
-/

namespace AccountOS

open Conc Sql

/-- The states that may follow a state, at once or later. -/
def SettlementStatus.Leads (a b : SettlementStatus) : Prop :=
  b = a ∨ a = .pending ∨ a = .processing ∧ b ≠ .pending

namespace SettlementStatus.Leads

theorem refl (a : SettlementStatus) : a.Leads a := .inl rfl

theorem trans {a b c : SettlementStatus} (h : a.Leads b) (h' : b.Leads c) : a.Leads c := by
  rcases h with rfl | rfl | ⟨rfl, hb⟩
  · exact h'
  · exact .inr (.inl rfl)
  · rcases h' with rfl | rfl | ⟨-, hc⟩
    · exact .inr (.inr ⟨rfl, hb⟩)
    · exact absurd rfl hb
    · exact .inr (.inr ⟨rfl, hc⟩)

end SettlementStatus.Leads

/-- A row that a call marks is the one that the thread has left. -/
theorem Marks.exists_row {ι : Type} {ev : Event ι World Env Call} {s : Settlement}
    {status : SettlementStatus} (hmarks : Marks ev s.id status)
    (hunique : (ev.before.db.settlements.map Settlement.id).Nodup) {row z : Settlement}
    (hrow : row ∈ ev.before.db.settlements) (hid : row.id = s.id)
    (hleads : row.status.Leads status) (hz : z ∈ ev.before.db.settlements) :
    ∃ z' ∈ ev.after.db.settlements, z'.id = z.id ∧ z.status.Leads z'.status := by
  obtain ⟨⟨data, rfl, hdb⟩, -⟩ := hmarks
  rw [hdb]
  by_cases hzid : z.id = s.id
  · obtain rfl : z = row := List.inj_on_of_nodup_map hunique hz hrow (hzid.trans hid.symm)
    exact ⟨data.set z, mem_updateRow_of_eq hz hzid, rfl, hleads⟩
  · exact ⟨z, mem_updateRow_of_ne hz hzid, rfl, .refl _⟩

/-- A row after such a call is one that it has marked, or it was there before. -/
theorem Marks.mem_cases {ι : Type} {ev : Event ι World Env Call} {id : String}
    {status : SettlementStatus} (hmarks : Marks ev id status) {z : Settlement}
    (hz : z ∈ ev.after.db.settlements) :
    (z.status = status ∧ ∃ y ∈ ev.before.db.settlements, y.id = id ∧ z.writtenOnce = y.writtenOnce) ∨
      z ∈ ev.before.db.settlements := by
  obtain ⟨⟨data, rfl, hdb⟩, -⟩ := hmarks
  rw [hdb] at hz
  rcases mem_updateRow_cases hz with ⟨y, hy, hid, rfl⟩ | ⟨hz, -⟩
  · exact .inl ⟨rfl, y, hy, hid, rfl⟩
  · exact .inr hz

/-! ### Two withdrawals side by side -/

namespace Sample

/-- The first of the two gets no further than its transfer, the second one is completed. -/
def halvesDone : List (Event Bool World Env Call) × (Bool → Action Unit) × World :=
  exec (fun i => (halves i).run fun _ => true) funded
    (halvesTurns ++ [(true, { row := ⟨4, "ble2"⟩ })])

theorem halvesDone_isRun : Run (fun _ _ _ _ => True) (fun i => (halves i).run fun _ => true) funded
    halvesDone.1 halvesDone.2.1 halvesDone.2.2 :=
  Run.of_exec _ funded _ fun _ _ => trivial

/-- The second settlement when both are `PROCESSING`. -/
def secondHalf : Settlement where
  id := "stl2"
  bucketId := "bkt1"
  businessId := "biz"
  amountKobo := 45500
  status := .processing
  destinationType := .bankAccount
  destinationAccountName := some "Vendor Ltd"
  destinationAccountNumber := some "0123456789"
  destinationBankCode := some "044"
  initiatedBy := "key"
  createdAt := 3

end Sample

section Run

variable {ι : Type} [DecidableEq ι] {allowed : Call → Env → World → World → Prop}
  {isUrl : String → Bool} {tasks : ι → Task} {w₀ w : World} {hist : List (Event ι World Env Call)}
  {ps : ι → Action Unit} {n : ℕ} {ev : Event ι World Env Call} {s : Settlement}

/-! ### What a thread finds of its settlement -/

/-- The row of a settlement that its thread has created stays as the thread has left it. -/
theorem row_stays (run : Run allowed (fun i => (tasks i).run isUrl) w₀ hist ps w)
    (hev : hist[n]? = some ev) {earlier : Calls ι} {x : Event ι World Env Call}
    (hlast : LastSettled (callsOf ev.who (hist.take n)) earlier x)
    (hopened : HasOpened (tasks ev.who) (callsOf ev.who (hist.take n)) s) {z : Settlement}
    (hz : z ∈ x.after.db.settlements) (hid : z.id = s.id) : z ∈ ev.before.db.settlements := by
  by_contra hgone
  obtain ⟨later, hcalls, hlater⟩ := hlast
  obtain ⟨y, ⟨-, k, -, -, -, -, hk, -, -, hother⟩, hbefore, hafter⟩ :=
    run.exists_intervening_after (P := fun w' => z ∈ w'.db.settlements) hev hcalls
      (fun y hy h => by rwa [(hlater y hy).settlements]) hz hgone
  rcases (settlementCall_of_run run hk).mem_settlements hbefore with hstays | ⟨s', hs', hid'⟩
  · exact hafter hstays
  · exact hother (hs'.unique run hopened (hid'.trans hid))

/-- The call that has led to a stage, and the calls of the thread before it. -/
theorem LastSettled.exists_call {i : ι} {earlier : Calls ι} {x : Event ι World Env Call}
    (h : LastSettled (callsOf i (hist.take n)) earlier x) :
    ∃ m, m < n ∧ hist[m]? = some x ∧ x.who = i ∧ callsOf x.who (hist.take m) = earlier := by
  obtain ⟨later, hcalls, -⟩ := h
  obtain ⟨m, hmn, hm, rfl, hearlier⟩ := exists_getElem?_of_callsOf_take hcalls
  exact ⟨m, hmn, hm, rfl, hearlier⟩

theorem IsOpen.mem_settlements (run : Run allowed (fun i => (tasks i).run isUrl) w₀ hist ps w)
    (hev : hist[n]? = some ev) (h : IsOpen (tasks ev.who) (callsOf ev.who (hist.take n)) s) :
    s ∈ ev.before.db.settlements ∧ s.status = .pending := by
  have hopened := h.hasOpened
  obtain ⟨earlier, x, hlast, hopens⟩ := h
  obtain ⟨-, -, -, hdb⟩ := Db.createSettlement_eq_ok.1 hopens.creates
  refine ⟨row_stays run hev hlast hopened ?_ rfl, hopens.pending⟩
  rw [hdb]
  exact List.mem_append_right _ (List.mem_singleton_self s)

/-- The row of a settlement that is PROCESSING. -/
structure ProcessingRow (w : World) (s z : Settlement) : Prop where
  mem : z ∈ w.db.settlements
  status : z.status = .processing
  writtenOnce : z.writtenOnce = s.writtenOnce

theorem ProcessingRow.id {w : World} {z : Settlement} (h : ProcessingRow w s z) : z.id = s.id := by
  have hid : z.writtenOnce.id = s.writtenOnce.id := by rw [h.writtenOnce]
  exact hid

theorem IsStarted.exists_row (run : Run allowed (fun i => (tasks i).run isUrl) w₀ hist ps w)
    (hev : hist[n]? = some ev) (h : IsStarted (tasks ev.who) (callsOf ev.who (hist.take n)) s) :
    ∃ z, ProcessingRow ev.before s z := by
  have hopened := h.hasOpened
  obtain ⟨earlier, x, hlast, hopen, ⟨data, hstatus, hdb⟩, -⟩ := h
  obtain ⟨m, -, hm, hwho, rfl⟩ := hlast.exists_call
  rw [← hwho] at hopen
  obtain ⟨hmem, -⟩ := hopen.mem_settlements run hm
  refine ⟨data.set s, row_stays run hev hlast hopened ?_ rfl, hstatus, rfl⟩
  rw [hdb]
  exact mem_updateRow_of_eq hmem rfl

theorem IsPaid.exists_row (run : Run allowed (fun i => (tasks i).run isUrl) w₀ hist ps w)
    (hev : hist[n]? = some ev) {t : ConfirmedTransfer}
    (h : IsPaid (tasks ev.who) (callsOf ev.who (hist.take n)) s t) :
    ∃ z, ProcessingRow ev.before s z := by
  have hopened := h.hasOpened
  obtain ⟨earlier, x, hlast, hstarted, hpaid⟩ := h
  obtain ⟨m, -, hm, hwho, rfl⟩ := hlast.exists_call
  rw [← hwho] at hstarted
  obtain ⟨z, hz⟩ := hstarted.exists_row run hm
  refine ⟨z, row_stays run hev hlast hopened ?_ hz.id, hz.status, hz.writtenOnce⟩
  rw [hpaid.db]
  exact hz.mem

theorem IsProcessing.exists_row (run : Run allowed (fun i => (tasks i).run isUrl) w₀ hist ps w)
    (hev : hist[n]? = some ev) (h : IsProcessing (tasks ev.who) (callsOf ev.who (hist.take n)) s) :
    ∃ z, ProcessingRow ev.before s z := by
  rcases h with hstarted | ⟨t, hpaid⟩
  · exact hstarted.exists_row run hev
  · exact hpaid.exists_row run hev

/-! ### Forward only -/

/-- The ids of settlements stay unique. -/
theorem nodup_settlements (run : Run allowed (fun i => (tasks i).run isUrl) w₀ hist ps w)
    (hunique : (w₀.db.settlements.map Settlement.id).Nodup) (n : ℕ) :
    ((stateAt hist w n).db.settlements.map Settlement.id).Nodup :=
  (grows_from_start run n).settlements.unique hunique

/-- **A call** takes no settlement back. -/
theorem settlement_call_advances (run : Run allowed (fun i => (tasks i).run isUrl) w₀ hist ps w)
    (hunique : (w₀.db.settlements.map Settlement.id).Nodup) (hev : hist[n]? = some ev) {z : Settlement}
    (hz : z ∈ ev.before.db.settlements) :
    ∃ z' ∈ ev.after.db.settlements, z'.id = z.id ∧ z.status.Leads z'.status := by
  have hbefore : (ev.before.db.settlements.map Settlement.id).Nodup := by
    have hnodup := nodup_settlements run hunique n
    rwa [stateAt_eq_before hev] at hnodup
  have hstays : z ∈ ev.after.db.settlements →
      ∃ z' ∈ ev.after.db.settlements, z'.id = z.id ∧ z.status.Leads z'.status :=
    fun h => ⟨z, h, rfl, .refl _⟩
  cases settlementCall_of_run run hev with
  | other same => exact hstays (by rwa [same.settlements])
  | opens opens =>
    obtain ⟨-, -, -, hdb⟩ := Db.createSettlement_eq_ok.1 opens.creates
    exact hstays (by rw [hdb]; exact List.mem_append_left _ hz)
  | starts opened marks =>
    obtain ⟨hmem, hpending⟩ := opened.mem_settlements run hev
    exact marks.exists_row hbefore hmem rfl (.inr (.inl hpending)) hz
  | pays _ paid => exact hstays (by rwa [paid.db])
  | completes processing _ marks =>
    obtain ⟨row, hrow⟩ := processing.exists_row run hev
    exact marks.exists_row hbefore hrow.mem hrow.id (.inr (.inr ⟨hrow.status, nofun⟩)) hz
  | fails processing marks =>
    obtain ⟨row, hrow⟩ := processing.exists_row run hev
    exact marks.exists_row hbefore hrow.mem hrow.id (.inr (.inr ⟨hrow.status, nofun⟩)) hz

/-- **Settlements only advance.** In every run of requests and jobs, between any two of its points: a
settlement that was `PENDING` may be anything, one that was `PROCESSING` is not `PENDING`, and one that
was `COMPLETED` or `FAILED` still is. -/
theorem settlements_advance (run : Run allowed (fun i => (tasks i).run isUrl) w₀ hist ps w)
    (hunique : (w₀.db.settlements.map Settlement.id).Nodup) {m n : ℕ} (hmn : m ≤ n) {z : Settlement}
    (hz : z ∈ (stateAt hist w m).db.settlements) :
    ∃ z' ∈ (stateAt hist w n).db.settlements, z'.id = z.id ∧ z.status.Leads z'.status := by
  refine run.persists
    (P := fun w' => ∃ z' ∈ w'.db.settlements, z'.id = z.id ∧ z.status.Leads z'.status) hmn
    ⟨z, hz, rfl, .refl _⟩ ?_
  rintro k ev - - hev ⟨y, hy, hid, hleads⟩
  obtain ⟨z', hz', hid', hleads'⟩ := settlement_call_advances run hunique hev hy
  exact ⟨z', hz', hid'.trans hid, hleads.trans hleads'⟩

/-- From `PROCESSING` to `COMPLETED`. -/
theorem settlements_advance_halves :
    ∃ z' ∈ (stateAt Sample.halvesDone.1 Sample.halvesDone.2.2 9).db.settlements,
      z'.id = Sample.secondHalf.id ∧ Sample.secondHalf.status.Leads z'.status :=
  settlements_advance Sample.halvesDone_isRun List.nodup_nil (by norm_num : 6 ≤ 9)
    (by decide +kernel)

/-! ### Paid and completed -/

/-- What has been paid stays paid. -/
theorem mem_transfers (run : Run allowed (fun i => (tasks i).run isUrl) w₀ hist ps w) {m n : ℕ}
    (hmn : m ≤ n) {t : ConfirmedTransfer} (ht : t ∈ (stateAt hist w m).transfers) :
    t ∈ (stateAt hist w n).transfers := by
  refine run.persists (P := fun w' => t ∈ w'.transfers) hmn ht fun k ev _ _ hev hbefore => ?_
  rcases (settlementCall_of_run run hev).transfers_cases with hsame | ⟨s, u, -, hpaid⟩
  · rwa [hsame]
  · rw [hpaid.transfers]
    exact List.mem_append_left _ hbefore

theorem IsPaid.mem_transfers (run : Run allowed (fun i => (tasks i).run isUrl) w₀ hist ps w)
    (hev : hist[n]? = some ev) {t : ConfirmedTransfer}
    (h : IsPaid (tasks ev.who) (callsOf ev.who (hist.take n)) s t) :
    t ∈ ev.before.transfers ∧ t.Pays s := by
  obtain ⟨earlier, x, hlast, -, hpaid⟩ := h
  obtain ⟨m, hmn, hm, -⟩ := hlast.exists_call
  have hafter : t ∈ (stateAt hist w (m + 1)).transfers := by
    rw [run.stateAt_succ hm, hpaid.transfers]
    exact List.mem_append_right _ (List.mem_singleton_self t)
  rw [← stateAt_eq_before hev]
  exact ⟨AccountOS.mem_transfers run hmn hafter, hpaid.pays⟩

/-- A settlement that is `COMPLETED` goes to another bucket, or Nomba has paid it. -/
def PaidIfCompleted (w : World) (z : Settlement) : Prop :=
  z.status = .completed → z.destinationType = .internalBucket ∨ ∃ t ∈ w.transfers, t.Pays z

end Run

end AccountOS
