import AccountOS.Common.Correctness.Triggers
import AccountOS.Common.SchedulerService
import AccountOS.Store.Trace

/-!
# What becomes of a TIME_ELAPSED rule

The scheduler reports the action of a rule as completed when the rule matches. It neither records an
execution nor carries the action out, and the engine does neither, for a TIME_ELAPSED rule matches no
event. So nothing of what the scheduler reports has happened, and at the next tick the same rule
matches again. Only a scheduler that finds no rule due reports nothing.
-/

namespace AccountOS

open Conc Sql

variable {ι : Type}

/-! ### The application with its scheduler -/

/-- What a thread is there for: a tick of the scheduler, a request or a job. -/
inductive ApplicationTask
  | tick
  | other (task : Task)

namespace ApplicationTask

def run (isUrl : String → Bool) : ApplicationTask → Action Unit
  | tick => evaluateTimeElapsedRules
  | other task => task.run isUrl

def isTick : ApplicationTask → Bool
  | tick => true
  | other _ => false

end ApplicationTask

/-! ### What a tick finds and what it reports -/

section Events

variable (read ev : Event ι World Env Call)

/-- The account is among what the scheduler has read. -/
def Finds (a : TimedAccount) : Prop :=
  read.call = .findTimeRules ∧ read.choice.fault = none ∧
    a ∈ read.before.db.findTimedAccounts read.choice.rank

/-- The scheduler has read a rule that matches at that time. -/
def FindsDue : Prop :=
  ∃ a, Finds read a ∧ ∃ rule ∈ a.rules, matchesTimeRule rule a.lastActivityAt read.choice.now = true

/-- The call logs that the action of a rule is completed, after a tick has read that rule and found
some rule due. -/
structure LogsFired (a : TimedAccount) (rule : Rule) : Prop where
  finds : Finds read a
  mem_rules : rule ∈ a.rules
  due : FindsDue read
  logged : ev.after = ev.before.log ev.choice (firedEntry a rule)

/-- The call writes an entry by which the action of the rule is completed. -/
def Reports (accountId ruleId : String) : Prop :=
  ev.call = .audit .ruleActionCompleted ∧
    ∃ entry : AuditLogEntry, ev.after.auditLog = ev.before.auditLog ++ [entry] ∧
      entry.action = .ruleActionCompleted ∧ entry.accountId = some accountId ∧
      ("ruleId", .str ruleId) ∈ entry.metadata

end Events

/-- The inflows and the events of an account so far. -/
def Db.activityOf (db : Db) (accountId : String) : List String × List String :=
  ((db.ledgerEntries.filter fun e => e.accountId = accountId).map LedgerEntry.id,
    (db.processedEvents.filter fun e =>
      ∃ a ∈ db.accounts, a.id = accountId ∧ e.accountRef = some a.accountRef).map ProcessedEvent.id)

section Runs

variable (tasks : ι → ApplicationTask) (hist : List (Event ι World Env Call))

/-- For all that the scheduler reports there is an execution that is completed. -/
def TimeRulesAct (w : World) : Prop :=
  ∀ ev ∈ hist, (tasks ev.who).isTick = true → ∀ accountId ruleId, Reports ev accountId ruleId →
    ∃ x ∈ w.db.ruleExecutions, x.ruleId = ruleId ∧ x.accountId = accountId ∧ x.status = .completed

/-- Between two reports of one rule its account has received an inflow or an event. -/
def FireOnce : Prop :=
  ∀ (m n : ℕ) ev₁ ev₂, m < n → hist[m]? = some ev₁ → hist[n]? = some ev₂ →
    (tasks ev₁.who).isTick = true → (tasks ev₂.who).isTick = true →
    ∀ accountId ruleId, Reports ev₁ accountId ruleId → Reports ev₂ accountId ruleId →
      ev₁.before.db.activityOf accountId ≠ ev₂.before.db.activityOf accountId

/-- No tick has found a rule due. -/
def NothingDue : Prop :=
  ∀ read ∈ hist, (tasks read.who).isTick = true → ¬ FindsDue read

end Runs

/-! ### What is found -/

/-- The rules that the scheduler reads are TIME_ELAPSED rules of the database. -/
theorem Db.mem_findTimedAccounts {db : Db} {rank : String → Nat} {a : TimedAccount} {rule : Rule}
    (ha : a ∈ db.findTimedAccounts rank) (hrule : rule ∈ a.rules) :
    rule ∈ db.rules ∧ rule.accountId = a.account.id ∧ rule.trigger = .timeElapsed := by
  obtain ⟨account, -, rfl⟩ := List.mem_map.1 ha
  have hrule : rule ∈ db.timeRules rank account.id := hrule
  rw [Db.timeRules, List.mem_insertionSort, List.mem_filter] at hrule
  obtain ⟨hactive, htrigger⟩ := hrule
  obtain ⟨hmem, hid, -⟩ := mem_activeRules.1 hactive
  exact ⟨hmem, hid, of_decide_eq_true htrigger⟩

theorem Finds.mem_triggers {read : Event ι World Env Call} {a : TimedAccount} {rule : Rule}
    (h : Finds read a) (hrule : rule ∈ a.rules) :
    (rule.id, .timeElapsed) ∈ read.before.db.triggers := by
  obtain ⟨hmem, -, htrigger⟩ := Db.mem_findTimedAccounts h.2.2 hrule
  rw [← htrigger]
  exact Db.mem_triggers hmem

theorem FindsDue.call {read : Event ι World Env Call} (h : FindsDue read) :
    read.call = .findTimeRules := by
  obtain ⟨a, ⟨hcall, -⟩, -⟩ := h
  exact hcall

/-- A report says what was logged. -/
theorem LogsFired.of_reports {read ev : Event ι World Env Call} {a : TimedAccount} {rule : Rule}
    {accountId ruleId : String} (h : LogsFired read ev a rule) (hev : Reports ev accountId ruleId) :
    accountId = a.account.id ∧ ruleId = rule.id := by
  obtain ⟨-, entry, hafter, -, haccount, hrule⟩ := hev
  have hlog := congrArg World.auditLog h.logged
  rw [hafter] at hlog
  unfold World.log at hlog
  split at hlog
  next => simp at hlog
  next =>
    have hentry : entry = firedEntry a rule := by simpa using hlog
    rw [hentry] at haccount hrule
    constructor
    · simpa [firedEntry, eq_comm] using haccount
    · simpa [firedEntry] using hrule

/-! ### The loops of the scheduler -/

/-- A call of the scheduler, after `past`: it reads, or it logs what it has read. -/
def TickCall (past : Calls ι) (ev : Event ι World Env Call) : Prop :=
  ev.call = .findTimeRules ∨ ∃ read ∈ past, ∃ a rule, LogsFired read ev a rule

/-- The scheduler has logged something. -/
def Fired (past : Calls ι) : Prop := ∃ ev ∈ past, ev.call = .audit .ruleActionCompleted

/-- The invariant of the loops. The rules in `todo` are still to be looked at. Until one of them is
found due, no time has passed since the scheduler has read them. -/
structure Looking (read : Event ι World Env Call) (todo : List (TimedAccount × Rule)) (now : Nat)
    (past : Calls ι) : Prop where
  mem : read ∈ past
  only : ∀ x ∈ past, x.call = .findTimeRules → x = read
  finds : ∀ p ∈ todo, Finds read p.1 ∧ p.2 ∈ p.1.rules
  due : Fired past ∧ FindsDue read ∨
    now = read.choice.now ∧ (FindsDue read → ∃ p ∈ todo,
      matchesTimeRule p.2 p.1.lastActivityAt read.choice.now = true)

namespace Looking

variable {read : Event ι World Env Call} {todo : List (TimedAccount × Rule)} {now : Nat}
  {past : Calls ι} {a : TimedAccount} {rule : Rule}

/-- A rule that does not match is passed over. -/
theorem skip (h : Looking read ((a, rule) :: todo) now past)
    (hno : ¬ matchesTimeRule rule a.lastActivityAt now = true) : Looking read todo now past := by
  refine ⟨h.mem, h.only, fun p hp => h.finds p (List.mem_cons_of_mem _ hp), ?_⟩
  rcases h.due with hfired | ⟨hnow, hdue⟩
  · exact .inl hfired
  · refine .inr ⟨hnow, fun hfound => ?_⟩
    obtain ⟨p, hp, hmatches⟩ := hdue hfound
    rcases List.mem_cons.1 hp with rfl | hp
    · rw [← hnow] at hmatches
      exact absurd hmatches hno
    · exact ⟨p, hp, hmatches⟩

/-- A rule that matches is found due: if the time has passed since then, another one was. -/
theorem findsDue (h : Looking read ((a, rule) :: todo) now past)
    (hmatches : matchesTimeRule rule a.lastActivityAt now = true) : FindsDue read := by
  obtain ⟨hfinds, hrule⟩ := h.finds (a, rule) List.mem_cons_self
  rcases h.due with ⟨-, hfound⟩ | ⟨hnow, -⟩
  · exact hfound
  · rw [hnow] at hmatches
    exact ⟨a, hfinds, rule, hrule, hmatches⟩

/-- After a rule has been logged. -/
theorem fire {ev : Event ι World Env Call} {now' : Nat}
    (h : Looking read ((a, rule) :: todo) now past) (hdue : FindsDue read)
    (hev : ev.call = .audit .ruleActionCompleted) : Looking read todo now' (past ++ [ev]) := by
  refine ⟨List.mem_append_left _ h.mem, fun x hx hcall => ?_,
    fun p hp => h.finds p (List.mem_cons_of_mem _ hp), .inl ⟨⟨ev, by simp, hev⟩, hdue⟩⟩
  rcases List.mem_append.1 hx with hx | hx
  · exact h.only x hx hcall
  · rw [List.mem_singleton.1 hx, hev] at hcall
    cases hcall

end Looking

variable {i : ι} {read : Event ι World Env Call} {past : Calls ι}

/-- The loop over the rules of an account. -/
theorem traced_fireRules {a : TimedAccount} {rules : List Rule} {todo : List (TimedAccount × Rule)}
    {now : Nat} (h : Looking read (rules.map (Prod.mk a) ++ todo) now past) :
    (fireRules a rules now).Traced i TickCall (fun now' past' => Looking read todo now' past')
      (fun _ _ => False) past := by
  induction rules generalizing now past with
  | nil => exact h
  | cons rule rules ih =>
    unfold fireRules
    split
    next hmatches =>
      have hdue := h.findsDue hmatches
      obtain ⟨hfinds, hrule⟩ := h.finds (a, rule) List.mem_cons_self
      refine Proc.Traced.bind (Proc.Traced.call fun env w => ⟨?_, fun now' hnow' => ?_, nofun⟩)
      · exact .inr ⟨read, h.mem, a, rule, hfinds, hrule, hdue, rfl⟩
      · exact ih (h.fire hdue rfl)
    next hno => exact ih (h.skip hno)

/-- The rules of the accounts, one after the other. -/
def timedRules (accounts : List TimedAccount) : List (TimedAccount × Rule) :=
  accounts.flatMap fun a => a.rules.map (Prod.mk a)

/-- The loop over the accounts. -/
theorem traced_evaluateAccounts {accounts : List TimedAccount} {now : Nat}
    (h : Looking read (timedRules accounts) now past) :
    (evaluateAccounts accounts now).Traced i TickCall
      (fun _ past' => (∀ x ∈ past', FindsDue x → Fired past')) (fun _ _ => False) past := by
  induction accounts generalizing now past with
  | nil =>
    intro x hx hdue
    have hread : x = read := h.only x hx hdue.call
    rcases h.due with ⟨hfired, -⟩ | ⟨-, hnone⟩
    · exact hfired
    · obtain ⟨p, hp, -⟩ := hnone (hread ▸ hdue)
      cases hp
  | cons a accounts ih =>
    refine Proc.Traced.bind (Proc.Traced.catching ?_)
    exact (traced_fireRules h).mono (fun now' past' h' => ih h') fun _ _ h' => h'.elim

/-- **A tick** logs what it has found; when it has found a rule due and comes to its end, it has
logged something. -/
theorem traced_tick :
    evaluateTimeElapsedRules.Traced i TickCall (fun _ past => ∀ x ∈ past, FindsDue x → Fired past)
      (fun _ _ => True) ([] : Calls ι) := by
  refine Proc.Traced.bind (Proc.Traced.call fun env w => ⟨.inl rfl, ?_, fun _ _ => trivial⟩)
  rintro ⟨accounts, now⟩ hok
  rcases findStep_cases (fun env db => (db.findTimedAccounts env.rank, env.now)) env w with
    ⟨hfault, hstep⟩ | ⟨e, w', hstep, -, -⟩
  · rw [hstep] at hok
    cases hok
    let read : Event ι World Env Call := ⟨i, .findTimeRules, env, w, w⟩
    have hlooking : Looking read (timedRules (w.db.findTimedAccounts env.rank)) env.now [read] := by
      refine ⟨by simp, fun x hx _ => by simpa using hx, fun p hp => ?_, .inr ⟨rfl, ?_⟩⟩
      · obtain ⟨a, ha, hp⟩ := List.mem_flatMap.1 hp
        obtain ⟨rule, hrule, rfl⟩ := List.mem_map.1 hp
        exact ⟨⟨rfl, hfault, ha⟩, hrule⟩
      · rintro ⟨a, ⟨-, -, ha⟩, rule, hrule, hmatches⟩
        exact ⟨(a, rule), List.mem_flatMap.2 ⟨a, ha, List.mem_map_of_mem hrule⟩, hmatches⟩
    rw [hstep]
    exact (traced_evaluateAccounts hlooking).mono (fun _ _ h => h) fun _ _ h => h.elim
  · rw [hstep] at hok
    cases hok

/-! ### Every run -/

section Run

variable [DecidableEq ι] {isUrl : String → Bool} {tasks : ι → ApplicationTask} {w₀ w : World}
  {hist : List (Event ι World Env Call)} {ps : ι → Action Unit}

/-- Every call of a tick, and what a tick that has come to its end has done. -/
theorem tick_calls
    (run : Run (fun _ _ _ _ => True) (fun i => (tasks i).run isUrl) w₀ hist ps w) :
    (∀ (n : ℕ) ev, hist[n]? = some ev → (tasks ev.who).isTick = true →
      TickCall (callsOf ev.who (hist.take n)) ev) ∧
    ∀ i, (tasks i).isTick = true → ps i = .ret () →
      ∀ x ∈ callsOf i hist, FindsDue x → Fired (callsOf i hist) := by
  have hstart : ∀ i, ((tasks i).run isUrl).Traced i
      (fun past ev => (tasks i).isTick = true → TickCall past ev)
      (fun _ past => (tasks i).isTick = true → ∀ x ∈ past, FindsDue x → Fired past)
      (fun _ _ => True) ([] : Calls ι) := by
    intro i
    cases htask : tasks i with
    | tick =>
      refine (traced_tick.imp fun past ev _ h => ?_).mono (fun _ past h => ?_) fun _ _ h => h
      · exact fun _ => h
      · exact fun _ => h
    | other task =>
      refine ((Proc.traced_trivial _).imp fun past ev _ _ => ?_).mono (fun _ past _ => ?_)
        fun _ _ h => h
      · exact fun h => by cases h
      · exact fun h => by cases h
  obtain ⟨hcalls, hrest⟩ := run.traced (K := fun i past ev => (tasks i).isTick = true →
    TickCall past ev) hstart
  refine ⟨hcalls, fun i htick hps => ?_⟩
  have hi := hrest i
  rw [hps] at hi
  exact hi htick

/-- What a tick reports it has read before, when a rule was due. -/
theorem exists_logsFired_of_reports
    (run : Run (fun _ _ _ _ => True) (fun i => (tasks i).run isUrl) w₀ hist ps w)
    {ev : Event ι World Env Call} (hev : ev ∈ hist) (htick : (tasks ev.who).isTick = true)
    {accountId ruleId : String} (hreports : Reports ev accountId ruleId) :
    ∃ read ∈ hist, read.who = ev.who ∧ ∃ a rule, LogsFired read ev a rule ∧ ruleId = rule.id := by
  obtain ⟨n, hn⟩ := List.mem_iff_getElem?.1 hev
  rcases (tick_calls run).1 n ev hn htick with hcall | ⟨read, hread, a, rule, hlogs⟩
  · rw [hreports.1] at hcall
    cases hcall
  · obtain ⟨hwho, m, -, hm⟩ := mem_callsOf_take.1 hread
    exact ⟨read, List.mem_of_getElem? hm, hwho, a, rule, hlogs, (hlogs.of_reports hreports).2⟩

/-- A scheduler that finds no rule due reports nothing. -/
theorem NothingDue.not_reports
    (run : Run (fun _ _ _ _ => True) (fun i => (tasks i).run isUrl) w₀ hist ps w)
    (h : NothingDue tasks hist) {ev : Event ι World Env Call} (hev : ev ∈ hist)
    (htick : (tasks ev.who).isTick = true) {accountId ruleId : String} :
    ¬ Reports ev accountId ruleId := by
  intro hreports
  obtain ⟨read, hread, hwho, a, rule, hlogs, -⟩ := exists_logsFired_of_reports run hev htick hreports
  refine h read hread ?_ hlogs.due
  rw [hwho]
  exact htick

omit [DecidableEq ι] in
theorem keeps_fireRules {a : TimedAccount} {rules : List Rule} {now : Nat} :
    (fireRules a rules now).Keeps (fun _ _ _ _ => True) LeavesEngine := by
  induction rules generalizing now with
  | nil => trivial
  | cons rule rules ih =>
    unfold fireRules
    split
    next =>
      refine Proc.Keeps.bind (Proc.Keeps.call fun env w _ => ?_) fun _ => ih
      exact leavesEngine_of_db_eq (w.log_db env _)
    next => exact ih

/-- **A tick** carries nothing out. -/
theorem keeps_tick : evaluateTimeElapsedRules.Keeps (fun _ _ _ _ => True) LeavesEngine := by
  refine Proc.Keeps.bind footprint_leavesEngine.keeps_find fun found => ?_
  obtain ⟨accounts, now⟩ := found
  show (evaluateAccounts accounts now).Keeps _ _
  induction accounts generalizing now with
  | nil => trivial
  | cons a accounts ih =>
    exact Proc.Keeps.bind (Proc.Keeps.catching keeps_fireRules fun _ => trivial) fun _ => ih _

/-- The rules keep their triggers, and no TIME_ELAPSED rule is ever executed. -/
theorem run_timeFree (hw₀ : w₀.db.TimeFree)
    (run : Run (fun _ _ _ _ => True) (fun i => (tasks i).run isUrl) w₀ hist ps w) :
    w.db.TimeFree ∧ ∀ ev ∈ hist, ev.before.db.triggers ⊆ w.db.triggers := by
  have hstart : ∀ i, ((tasks i).run isUrl).Wp triggering.protocol i (fun _ _ => True)
      (fun _ _ => True) w₀ := by
    intro i
    have hfulfils : triggering.Fulfils i ((tasks i).run isUrl) w₀ := by
      cases tasks i with
      | tick => exact fulfils_of_leavesEngine keeps_tick
      | other task => exact fulfils_task task
    exact Proc.Wp.mono (fun _ _ _ => trivial) (fun _ _ _ => trivial) hfulfils
  obtain ⟨hw, hcalls⟩ := triggering.sound hw₀ hstart run
  exact ⟨hw, run.since (R := fun w w' : World => w.db.triggers ⊆ w'.db.triggers)
    (fun h h' => List.Subset.trans h h') fun ev hev => (hcalls ev hev).2.triggers⟩

/-- **Nothing of what is reported has happened**: there is no execution of the rule at all. -/
theorem not_executed_of_reports (hw₀ : w₀.db.TimeFree)
    (run : Run (fun _ _ _ _ => True) (fun i => (tasks i).run isUrl) w₀ hist ps w)
    {ev : Event ι World Env Call} (hev : ev ∈ hist) (htick : (tasks ev.who).isTick = true)
    {accountId ruleId : String} (hreports : Reports ev accountId ruleId) :
    ruleId ∉ w.db.executed := by
  obtain ⟨read, hread, -, a, rule, hlogs, rfl⟩ :=
    exists_logsFired_of_reports run hev htick hreports
  obtain ⟨hw, htriggers⟩ := run_timeFree hw₀ run
  exact hw.not_mem_executed (htriggers read hread (hlogs.finds.mem_triggers hlogs.mem_rules))

/-- **Time rules act, and fire once, when the scheduler has nothing to do.** The scheduler ticks any
number of times while requests and jobs of any kind are served; the calls interleave in any order,
any call may fail, and a thread may stop at any call. As long as no tick finds a rule due, whatever
the scheduler reports has been carried out, and was reported once. There is no other case: when all
ticks come to their end and all that they log is written, the reports are backed by executions only
if no rule was ever due. -/
theorem time_rules_act_iff
    (run : Run (fun _ _ _ _ => True) (fun i => (tasks i).run isUrl) w₀ hist ps w) :
    (NothingDue tasks hist → TimeRulesAct tasks hist w ∧ FireOnce tasks hist) ∧
    (w₀.db.TimeFree → (∀ i, (tasks i).isTick = true → ps i = .ret ()) →
      (∀ ev ∈ hist, ev.choice.auditFails = false) →
      TimeRulesAct tasks hist w → NothingDue tasks hist) := by
  constructor
  · intro hnothing
    constructor
    · intro ev hev htick accountId ruleId hreports
      exact absurd hreports (hnothing.not_reports run hev htick)
    · intro m n ev₁ ev₂ _ hev₁ _ htick₁ _ accountId ruleId hreports _
      exact absurd hreports (hnothing.not_reports run (List.mem_of_getElem? hev₁) htick₁)
  · intro hw₀ hended hwritten hact read hread htick hdue
    obtain ⟨k, hk⟩ := List.mem_iff_getElem?.1 hread
    have hmem : read ∈ callsOf read.who hist := mem_callsOf.2 ⟨rfl, k, hk⟩
    obtain ⟨ev, hev, hcall⟩ := (tick_calls run).2 read.who htick (hended _ htick) read hmem hdue
    obtain ⟨hwho, n, hn⟩ := mem_callsOf.1 hev
    have hev : ev ∈ hist := List.mem_of_getElem? hn
    rw [← hwho] at htick
    rcases (tick_calls run).1 n ev hn htick with hfind | ⟨read', hread', a, rule, hlogs⟩
    · rw [hcall] at hfind
      cases hfind
    · -- the entry was written, so there would have to be an execution of the rule
      have hreports : Reports ev a.account.id rule.id := by
        refine ⟨hcall, firedEntry a rule, ?_, rfl, rfl, by simp [firedEntry]⟩
        rw [hlogs.logged, World.log, hwritten ev hev]
        rfl
      obtain ⟨x, hx, hrule, -, -⟩ := hact ev hev htick _ _ hreports
      have hexecuted : rule.id ∈ w.db.executed := by
        rw [← hrule]
        exact List.mem_map_of_mem hx
      exact not_executed_of_reports hw₀ run hev htick hreports hexecuted

end Run

namespace Sample

/-- Suspend the account after a week without inflows. -/
def idleRule : Rule where
  id := "rule1"
  accountId := "acc1"
  trigger := .timeElapsed
  condition := some { noInflowForDays := some 7 }
  action := .suspendAccount
  payload := none
  kycTierAtCreation := .tier1

def idleShop : World := shop [] [idleRule]

def hours (n : Nat) : Nat := n * (1000 * 60 * 60)

/-- Two ticks, one after the other. -/
def ticks : Bool → ApplicationTask := fun _ => .tick

/-- What the scheduler reads of the account. -/
def idleAccount : TimedAccount := ⟨account, [idleRule], []⟩

/-- Each at its time, with its two calls. -/
def ticksAt (t t' : Nat) : List (Bool × Env) :=
  [(false, { now := t }), (false, { now := t }), (true, { now := t' }), (true, { now := t' })]

end Sample

/-- Two ticks before the week is over. -/
theorem time_rules_act_iff_quiet :
    let r := exec (fun i => (Sample.ticks i).run fun _ => true) Sample.idleShop
      (Sample.ticksAt (Sample.hours 20) (Sample.hours 21))
    TimeRulesAct Sample.ticks r.1 r.2.2 ∧ FireOnce Sample.ticks r.1 := by
  intro r
  refine (time_rules_act_iff (Run.of_exec _ _ _ fun _ _ => trivial)).1 ?_
  have hnone : ∀ read ∈ r.1, ∀ a ∈ read.before.db.findTimedAccounts read.choice.rank,
      ∀ rule ∈ a.rules, matchesTimeRule rule a.lastActivityAt read.choice.now = false := by
    decide +kernel
  rintro read hread - ⟨a, ⟨-, -, ha⟩, rule, hrule, hmatches⟩
  rw [hnone read hread a ha rule hrule] at hmatches
  cases hmatches

/-- **A due rule fires again and again**, and does nothing: two ticks in the ninth day without an
inflow report the suspension of an account that stays ACTIVE. -/
theorem time_rule_fires_twice :
    let r := exec (fun i => (Sample.ticks i).run fun _ => true) Sample.idleShop
      (Sample.ticksAt (Sample.hours 192) (Sample.hours 193))
    ¬ TimeRulesAct Sample.ticks r.1 r.2.2 ∧ ¬ FireOnce Sample.ticks r.1 := by
  intro r
  have hfirst : ∃ ev, r.1[1]? = some ev ∧ Reports ev "acc1" "rule1" ∧
      ev.before.db.activityOf "acc1" = ([], []) :=
    ⟨_, rfl, ⟨rfl, firedEntry Sample.idleAccount Sample.idleRule, rfl, rfl, rfl,
      by simp [firedEntry, Sample.idleRule]⟩, rfl⟩
  have hsecond : ∃ ev, r.1[3]? = some ev ∧ Reports ev "acc1" "rule1" ∧
      ev.before.db.activityOf "acc1" = ([], []) :=
    ⟨_, rfl, ⟨rfl, firedEntry Sample.idleAccount Sample.idleRule, rfl, rfl, rfl,
      by simp [firedEntry, Sample.idleRule]⟩, rfl⟩
  obtain ⟨ev₁, h₁, hreports₁, hidle₁⟩ := hfirst
  obtain ⟨ev₂, h₂, hreports₂, hidle₂⟩ := hsecond
  constructor
  · intro hact
    obtain ⟨x, hx, -⟩ := hact ev₁ (List.mem_of_getElem? h₁) rfl _ _ hreports₁
    have hnone : r.2.2.db.ruleExecutions = [] := rfl
    rw [hnone] at hx
    cases hx
  · intro honce
    refine honce 1 3 ev₁ ev₂ (by omega) h₁ h₂ rfl rfl _ _ hreports₁ hreports₂ ?_
    rw [hidle₁, hidle₂]

end AccountOS
