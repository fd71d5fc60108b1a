import AccountOS.Queue.Correctness.FinishedExecutions

/-!
# The executions of an account that has been closed

`closeAccount` archives what is PENDING or RETRYING, then asks Nomba to expire the virtual account,
and only then closes the account. A job that has passed its check of the status before goes on: it
creates executions and marks them after the archiving, and nobody comes back to archive them.
-/

namespace AccountOS

open Conc Sql

section Runs

variable {ι : Type}

/-- The closing of an account (`none`) and jobs of the webhook queue, inflows and custom events. -/
def closeAndWork (accountRef businessId actor : String) (payloads : ι → InflowPayload) :
    Option ι → Action (Option Account)
  | none => closeAccount accountRef businessId actor
  | some i => (WebhookProcessor.process (payloads i)).bind fun _ => .ret none

/-- The call leaves work on an execution of the account: it creates the execution, or it marks it
RETRYING. -/
def LeavesWork (ev : Event ι World Env Call) (accountId id : String) : Prop :=
  (∃ x, CreatesExecution ev x ∧ x.id = id ∧ x.accountId = accountId) ∨
    RecordsOutcome ev id .retrying ∧
      ∃ x ∈ ev.before.db.ruleExecutions, x.id = id ∧ x.accountId = accountId

/-- The call ends the work on an execution: it marks it COMPLETED or FAILED. -/
def EndsWork (ev : Event ι World Env Call) (id : String) : Prop :=
  RecordsOutcome ev id .completed ∨ RecordsOutcome ev id .failed

/-- Every execution of the account that is created or marked RETRYING after the closing has archived
is marked COMPLETED or FAILED later. -/
def WorkEnds (hist : List (Event (Option ι) World Env Call)) (accountId : String) : Prop :=
  ∀ (m k : ℕ) (a ev : Event (Option ι) World Env Call) (id : String), m < k →
    hist[m]? = some a → a.who = none → ArchivesExecutions a accountId →
    hist[k]? = some ev → LeavesWork ev accountId id →
    ∃ (j : ℕ) (later : Event (Option ι) World Env Call), k < j ∧ hist[j]? = some later ∧
      EndsWork later id

/-- The execution is one of the account, PENDING or RETRYING. -/
def Db.Unfinished (db : Db) (accountId id : String) : Prop :=
  ∃ x ∈ db.unfinished accountId, x.id = id

/-! ### What each call does to the unfinished executions -/

section Unfinished

variable {db : Db} {ev : Event ι World Env Call} {accountId id id' : String}
  {status : RuleExecutionStatus}

theorem Db.unfinished_iff : db.Unfinished accountId id ↔ ∃ x ∈ db.ruleExecutions, x.id = id ∧
    x.accountId = accountId ∧ (x.status = .pending ∨ x.status = .retrying) := by
  unfold Db.Unfinished Db.unfinished
  constructor
  · rintro ⟨x, hx, hid⟩
    obtain ⟨hx, haccount, hstatus⟩ := by simpa using hx
    exact ⟨x, hx, hid, haccount, hstatus⟩
  · rintro ⟨x, hx, hid, haccount, hstatus⟩
    exact ⟨x, by simpa using ⟨hx, haccount, hstatus⟩, hid⟩

theorem LeftExecutions.unfinished {w w' : World} (h : LeftExecutions w w') :
    w'.db.Unfinished accountId id ↔ w.db.Unfinished accountId id := by
  rw [Db.unfinished_iff, Db.unfinished_iff, h]

/-- Archiving leaves nothing unfinished. -/
theorem ArchivesExecutions.not_unfinished (h : ArchivesExecutions ev accountId) :
    ¬ ev.after.db.Unfinished accountId id := by
  rw [Db.unfinished_iff, h.stored]
  rintro ⟨_, hy, -, haccount, hstatus⟩
  obtain ⟨x, -, rfl⟩ := List.mem_map.1 hy
  unfold RuleExecution.archivedWith at haccount hstatus
  split at hstatus
  next => simp at hstatus
  next hnot =>
    rw [if_neg hnot] at haccount
    exact hnot ⟨haccount, hstatus⟩

/-- Archiving, of any account, makes nothing unfinished. -/
theorem ArchivesExecutions.unfinished_before (h : ArchivesExecutions ev id')
    (hafter : ev.after.db.Unfinished accountId id) : ev.before.db.Unfinished accountId id := by
  rw [Db.unfinished_iff, h.stored] at hafter
  obtain ⟨_, hy, hid, haccount, hstatus⟩ := hafter
  obtain ⟨x, hx, rfl⟩ := List.mem_map.1 hy
  unfold RuleExecution.archivedWith at hid haccount hstatus
  split at hstatus
  next => simp at hstatus
  next hnot =>
    rw [if_neg hnot] at hid haccount
    exact Db.unfinished_iff.2 ⟨x, hx, hid, haccount, hstatus⟩

theorem CreatesExecution.unfinished_after {x : RuleExecution} (h : CreatesExecution ev x)
    (hbefore : ev.before.db.Unfinished accountId id) : ev.after.db.Unfinished accountId id := by
  obtain ⟨y, hy, hid, haccount, hstatus⟩ := Db.unfinished_iff.1 hbefore
  rw [Db.unfinished_iff, h.stored]
  exact ⟨y, List.mem_append_left _ hy, hid, haccount, hstatus⟩

/-- What is unfinished after an outcome is recorded: the execution in question when it is marked
RETRYING, and the others as before. -/
theorem RecordsOutcome.unfinished_after (h : RecordsOutcome ev id' status) :
    ev.after.db.Unfinished accountId id ↔
      if id = id' then status = .retrying ∧
        ∃ x ∈ ev.before.db.ruleExecutions, x.id = id ∧ x.accountId = accountId
      else ev.before.db.Unfinished accountId id := by
  obtain ⟨data, hdata, hstored⟩ := h.stored
  rw [Db.unfinished_iff, hstored]
  split
  next heq =>
    subst heq
    constructor
    · rintro ⟨y, hy, hid, haccount, hstatus⟩
      rcases mem_updateRow_cases hy with ⟨x, hx, hxid, rfl⟩ | ⟨-, hne⟩
      · have hset : (data.set x).status = status := hdata
        rw [hset] at hstatus
        refine ⟨?_, x, hx, hxid, haccount⟩
        rcases hstatus with hpending | hretrying
        · rcases h.outcome with rfl | rfl | rfl <;> cases hpending
        · exact hretrying
      · exact absurd hid hne
    · rintro ⟨hretrying, x, hx, hid, haccount⟩
      exact ⟨data.set x, mem_updateRow_of_eq hx hid, hid, haccount, .inr (hdata.trans hretrying)⟩
  next hne =>
    rw [Db.unfinished_iff]
    constructor
    · rintro ⟨y, hy, hid, haccount, hstatus⟩
      rcases mem_updateRow_cases hy with ⟨x, hx, hxid, rfl⟩ | ⟨hy, -⟩
      · exact absurd (hid.symm.trans hxid) hne
      · exact ⟨y, hy, hid, haccount, hstatus⟩
    · rintro ⟨y, hy, hid, haccount, hstatus⟩
      exact ⟨y, mem_updateRow_of_ne hy (by rw [hid]; exact hne), hid, haccount, hstatus⟩

theorem LeavesWork.unfinished (h : LeavesWork ev accountId id) :
    ev.after.db.Unfinished accountId id := by
  rcases h with ⟨x, hcreates, hid, haccount⟩ | ⟨hrecords, x, hx, hid, haccount⟩
  · rw [Db.unfinished_iff, hcreates.stored]
    exact ⟨x, by simp, hid, haccount, .inl hcreates.pending⟩
  · rw [hrecords.unfinished_after, if_pos rfl]
    exact ⟨rfl, x, hx, hid, haccount⟩

theorem EndsWork.not_unfinished (h : EndsWork ev id) : ¬ ev.after.db.Unfinished accountId id := by
  rcases h with h | h
  · rw [h.unfinished_after, if_pos rfl]
    exact fun hretrying => by cases hretrying.1
  · rw [h.unfinished_after, if_pos rfl]
    exact fun hretrying => by cases hretrying.1

/-- An execution becomes unfinished only when work on it is left. -/
theorem ExecutionCall.leavesWork {closes : Prop} {past : Calls ι} (h : ExecutionCall closes past ev)
    (hbefore : ¬ ev.before.db.Unfinished accountId id)
    (hafter : ev.after.db.Unfinished accountId id) : LeavesWork ev accountId id := by
  cases h with
  | same h => exact absurd (h.unfinished.1 hafter) hbefore
  | archive h => exact absurd (h.unfinished_before hafter) hbefore
  | @create x h =>
    rw [Db.unfinished_iff, h.stored] at hafter
    obtain ⟨y, hy, hid, haccount, hstatus⟩ := hafter
    rcases List.mem_append.1 hy with hy | hy
    · exact absurd (Db.unfinished_iff.2 ⟨y, hy, hid, haccount, hstatus⟩) hbefore
    · rw [List.mem_singleton.1 hy] at hid haccount
      exact .inl ⟨x, h, hid, haccount⟩
  | @record id' status h works =>
    rw [h.unfinished_after] at hafter
    split at hafter
    next heq =>
      subst heq
      obtain ⟨rfl, hrow⟩ := hafter
      exact .inr ⟨h, hrow⟩
    next => exact absurd hafter hbefore

/-- It ceases to be unfinished only when the work ends, or when a thread that closes an account
archives for the first time. -/
theorem ExecutionCall.endsWork {closes : Prop} {past : Calls ι} (h : ExecutionCall closes past ev)
    (hbefore : ev.before.db.Unfinished accountId id)
    (hafter : ¬ ev.after.db.Unfinished accountId id) :
    EndsWork ev id ∨ closes ∧ ∀ x ∈ past, ∀ a, ¬ ArchivesExecutions x a := by
  cases h with
  | same h => exact absurd (h.unfinished.2 hbefore) hafter
  | archive h closing once => exact .inr ⟨closing, once⟩
  | create h => exact absurd (h.unfinished_after hbefore) hafter
  | @record id' status h works =>
    rw [h.unfinished_after] at hafter
    split at hafter
    next heq =>
      subst heq
      obtain ⟨x, hx, hid, haccount, -⟩ := Db.unfinished_iff.1 hbefore
      rcases h.outcome with rfl | rfl | rfl
      · exact .inl (.inl h)
      · exact .inl (.inr h)
      · exact absurd ⟨rfl, x, hx, hid, haccount⟩ hafter
    next => exact absurd hbefore hafter

end Unfinished

/-! ### Runs -/

variable [DecidableEq ι] {accountRef businessId actor : String} {payloads : ι → InflowPayload}
  {w₀ w : World} {hist : List (Event (Option ι) World Env Call)}
  {ps : Option ι → Action (Option Account)}
  (run : Run (fun _ _ _ _ => True) (closeAndWork accountRef businessId actor payloads) w₀ hist ps w)
include run

theorem executionCall_of_run :
    (∀ (n : ℕ) ev, hist[n]? = some ev →
      ExecutionCall (ev.who = none) (callsOf ev.who (hist.take n)) ev) ∧
    ∀ a, ps none = .ret (some a) → ∃ x ∈ callsOf none hist, ArchivesExecutions x a.id := by
  have htraced := run.traced (K := fun i => ExecutionCall (i = none))
    (Q := fun i updated past => i = none → ∀ a, updated = some a →
      ∃ x ∈ past, ArchivesExecutions x a.id) (E := fun _ _ _ => True) fun i => by
    cases i with
    | none => exact (traced_closing rfl).mono (fun _ _ h _ => h) fun _ _ h => h
    | some i => exact Proc.Traced.bind (traced_job.mono (fun _ _ _ => nofun) fun _ _ h => h)
  refine ⟨htraced.1, fun a ha => ?_⟩
  have hreturned := htraced.2 none
  rw [ha] at hreturned
  exact hreturned rfl a rfl

/-- **Nothing is left unfinished on a closed account exactly where all work that is left after the
archiving ends.** The jobs are any inflows and custom events, in any order of their calls with those
of the closing. -/
theorem nothing_unfinished_iff {account : Account} (hreturned : ps none = .ret (some account)) :
    w.db.unfinished account.id = [] ↔ WorkEnds hist account.id := by
  obtain ⟨hcalls, hclosed⟩ := executionCall_of_run run
  obtain ⟨archiving, hmem, harchives⟩ := hclosed account hreturned
  obtain ⟨hwho, m, hm⟩ := mem_callsOf.1 hmem
  have hend : stateAt hist w hist.length = w := stateAt_of_le (Nat.le_refl _)
  have hm_lt := (List.getElem?_eq_some_iff.1 hm).1
  constructor
  · intro hnone m' k a ev id hmk ha haclosing haarchives hev hleaves
    have hk_lt := (List.getElem?_eq_some_iff.1 hev).1
    -- some later call ends what this one has left
    have hunfinished : (stateAt hist w (k + 1)).db.Unfinished account.id id := by
      rw [run.stateAt_succ hev]
      exact hleaves.unfinished
    have hfinally : ¬ (stateAt hist w hist.length).db.Unfinished account.id id := by
      rw [hend]
      rintro ⟨x, hx, -⟩
      rw [hnone] at hx
      cases hx
    obtain ⟨j, later, hkj, -, hj, hbefore, hafter⟩ :=
      run.exists_change (P := fun w => w.db.Unfinished account.id id)
        (by omega) hunfinished hfinally
    rcases (hcalls j later hj).endsWork hbefore hafter with hends | ⟨hclosing, honce⟩
    · exact ⟨j, later, by omega, hj, hends⟩
    · -- the account has been archived before
      exact absurd haarchives (honce a (mem_callsOf_take.2
        ⟨haclosing.trans hclosing.symm, m', by omega, ha⟩) _)
  · intro hends
    by_contra hsome
    obtain ⟨x, hx⟩ := List.exists_mem_of_ne_nil _ hsome
    -- the last call that leaves it unfinished comes after the archiving
    have harchived : ¬ (stateAt hist w (m + 1)).db.Unfinished account.id x.id := by
      rw [run.stateAt_succ hm]
      exact harchives.not_unfinished
    have hfinally : ¬ ¬ (stateAt hist w hist.length).db.Unfinished account.id x.id := by
      rw [hend]
      exact not_not.2 ⟨x, hx, rfl⟩
    obtain ⟨k, ev, hmk, hk_lt, hk, hbefore, hafter, hsince⟩ := run.exists_last_change
      (P := fun w => ¬ w.db.Unfinished account.id x.id) (by omega) harchived hfinally
    have hleaves := (hcalls k ev hk).leavesWork hbefore (not_not.1 hafter)
    obtain ⟨j, later, hkj, hj, hlater⟩ :=
      hends m k archiving ev x.id (by omega) hm hwho harchives hk hleaves
    have hj_lt := (List.getElem?_eq_some_iff.1 hj).1
    refine hsince (j + 1) (by omega) (by omega) ?_
    rw [run.stateAt_succ hj]
    exact hlater.not_unfinished

end Runs

/-! ### An account that is closed while an inflow is processed -/

namespace Sample

/-- The account, when it is closed. -/
def closedAccount : Account :=
  { account with
    status := .closed, closedAt := some 0, closedReason := some "Account closed via API" }

/-- The closing and the job of an inflow, whose notification cannot be delivered, in the order of
`turns`. -/
def closeWhileNotifying (turns : List (Option Unit)) :
    List (Event (Option Unit) World Env Call) × (Option Unit → Action (Option Account)) × World :=
  exec (closeAndWork "shop" "biz" "ops" fun _ : Unit => inflow) (shop [] [notifyingRule])
    (turns.map fun i => (i, { delivery := .error "timeout", row := { id := "row1" } }))

theorem run_closeWhileNotifying (turns : List (Option Unit)) :
    Run (fun _ _ _ _ => True) (closeAndWork "shop" "biz" "ops" fun _ : Unit => inflow)
      (shop [] [notifyingRule]) (closeWhileNotifying turns).1 (closeWhileNotifying turns).2.1
      (closeWhileNotifying turns).2.2 :=
  Run.of_exec _ _ _ fun _ _ => trivial

end Sample

/-- One after the other: the closing archives the execution that is to be retried. -/
theorem nothing_unfinished_inTurn :
    let r := Sample.closeWhileNotifying (List.replicate 13 (some ()) ++ List.replicate 5 none)
    r.2.2.db.ruleExecutions.map RuleExecution.status = [.archived] ∧
      WorkEnds r.1 Sample.closedAccount.id := by
  refine ⟨by decide +kernel, ?_⟩
  have hreturned : let r := Sample.closeWhileNotifying (List.replicate 13 (some ()) ++
      List.replicate 5 none)
      r.2.1 none = .ret (some Sample.closedAccount) :=
    Proc.returned_eq_some.1 (by decide +kernel)
  rw [← nothing_unfinished_iff (Sample.run_closeWhileNotifying _) hreturned]
  exact List.isEmpty_iff.1 (by decide +kernel)

/-- The account is closed after the job has selected the rules: its execution is created after the
archiving and stays RETRYING, when the closing has returned and the job is done. -/
theorem closed_account_keeps_retrying :
    let r := Sample.closeWhileNotifying (List.replicate 4 (some ()) ++ List.replicate 5 none ++
      List.replicate 9 (some ()))
    (r.2.1 none).returned = some (some Sample.closedAccount) ∧
      (r.2.1 (some ())).returned = some none ∧
      (r.2.2.db.unfinished Sample.closedAccount.id).map RuleExecution.status = [.retrying] := by
  decide +kernel

end AccountOS
