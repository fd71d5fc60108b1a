import AccountOS.Rules.Correctness.Calls

/-!
# Two rule sets at once

A replacement archives the rules that are in force and creates the new ones, in two calls. Of two
replacements of one account, the second one archives what the first one has created only if it
archives later; otherwise both rule sets are in force.
-/

namespace AccountOS

open Conc Sql

variable {ι : Type}

/-! ### The two writes of a replacement -/

section Writes

variable {db db' : Db} {accountId : String}

/-- Nothing is in force after the rules have been archived. -/
theorem Db.activeRules_archiveRules {now : Nat} (hop : db.archiveRules accountId now = .ok db') :
    db'.activeRules accountId = [] := by
  cases hop
  refine List.filter_eq_nil_iff.2 fun r hr => ?_
  obtain ⟨x, -, rfl⟩ := List.mem_map.1 hr
  split
  next => simp
  next hne => simpa using hne

/-- The new rules are in force, with those that were there. -/
theorem Db.activeRules_append {kycTier : KycTier} {rules : List RuleDefinition} {added : List Rule}
    (hadded : List.Forall₂ (RuleDefinition.StoredAs accountId kycTier) rules added)
    (hrules : db'.rules = db.rules ++ added) :
    db'.activeRules accountId = db.activeRules accountId ++ added := by
  unfold Db.activeRules
  rw [hrules, List.filter_append]
  congr 1
  refine List.filter_eq_self.2 fun r hr => ?_
  obtain ⟨d, -, hstored⟩ := exists_definition hadded r hr
  obtain ⟨haccount, hactive, -, -⟩ := hstored.percentage
  simp [haccount, hactive]

/-- An account is found by the same reference after its model has been set. -/
theorem Db.findAccountByRef_updateModel {accountRef businessId : String} {model : ExecutionModel}
    (haccounts : db'.accounts = updateRow Account.id accountId
      (fun a => { a with executionModel := model }) db.accounts) :
    db'.findAccountByRef accountRef businessId =
      (db.findAccountByRef accountRef businessId).map fun a =>
        if a.id = accountId then { a with executionModel := model } else a := by
  unfold Db.findAccountByRef
  rw [haccounts, updateRow, List.find?_map]
  congr 2
  funext a
  dsimp only [Function.comp_apply]
  split <;> rfl

end Writes

/-! ### The writes of a thread -/

/-- The two writes of a thread that has replaced a rule set, and their places among all calls. -/
structure Replacement (isUrl : String → Bool) (accountRef businessId : String)
    (dto : ReplaceRuleSetDto) (result : RuleSetResult) (i : ι)
    (hist : List (Event ι World Env Call)) where
  account : Account
  kycTier : KycTier
  added : List Rule
  archive : Event ι World Env Call
  create : Event ι World Env Call
  archiveAt : ℕ
  createAt : ℕ
  archive_lt_create : archiveAt < createAt
  getElem?_archive : hist[archiveAt]? = some archive
  getElem?_create : hist[createAt]? = some create
  who_archive : archive.who = i
  who_create : create.who = i
  call_archive : archive.call = .archiveRules account.id
  call_create : create.call = .createRules account.id
  archives : ∃ now, archive.before.db.archiveRules account.id now = .ok archive.after.db
  stored : List.Forall₂ (RuleDefinition.StoredAs account.id kycTier) dto.rules added
  creates : create.after.db = { create.before.db with
    accounts := updateRow Account.id account.id
      (fun a => { a with executionModel := result.executionModel }) create.before.db.accounts
    rules := create.before.db.rules ++ added }
  found : ∃ (j : ℕ) (q : Event ι World Env Call), hist[j]? = some q ∧
    q.before.db.findAccountByRef accountRef businessId = some account
  nonempty : dto.rules ≠ []
  model : result.executionModel = dto.executionModel.getD account.executionModel
  reads : ∀ (k : ℕ) ev, hist[k]? = some ev → ev.who = i → k ≠ archiveAt → k ≠ createAt → Reads ev

section Thread

variable [DecidableEq ι] {isUrl : String → Bool} {accountRef businessId : String}
  {dto : ReplaceRuleSetDto} {result : RuleSetResult} {i : ι} {hist : List (Event ι World Env Call)}

theorem nonempty_replacement
    (h : RuleSetReplaced isUrl accountRef businessId dto result [] (callsOf i hist)) :
    Nonempty (Replacement isUrl accountRef businessId dto result i hist) := by
  obtain ⟨a, q, hfound, hq, hvalid, hmodel, kycTier, now, added, r, x, y, z, hcalls, hr, hz, hx,
    harchives, hy, hstored, hcreates⟩ := h
  have hcallsX : callsOf i hist = [q, r] ++ x :: [y, z] := hcalls
  have hcallsY : callsOf i hist = [q, r, x] ++ y :: [z] := hcalls
  have hcallsQ : callsOf i hist = [] ++ q :: [r, x, y, z] := hcalls
  obtain ⟨n, hn, hbeforeX, -⟩ := exists_getElem?_of_callsOf hcallsX
  obtain ⟨m, hm, hbeforeY, -⟩ := exists_getElem?_of_callsOf hcallsY
  obtain ⟨j, hj, -, -⟩ := exists_getElem?_of_callsOf hcallsQ
  have hwho : ∀ ev ∈ callsOf i hist, ev.who = i := fun ev hev => (mem_callsOf.1 hev).1
  rw [hcalls] at hwho
  have hwhoX : x.who = i := hwho x (by simp)
  have hwhoY : y.who = i := hwho y (by simp)
  have hlt : n < m := by
    rcases Nat.lt_trichotomy n m with hlt | heq | hlt
    · exact hlt
    · subst heq
      rw [hbeforeX] at hbeforeY
      cases hbeforeY
    · have hlength := length_callsOf_take_lt hm hwhoY hlt
      rw [hbeforeX, hbeforeY] at hlength
      simp at hlength
  refine ⟨a, kycTier, added, x, y, n, m, hlt, hn, hm, hwhoX, hwhoY, hx, hy, ⟨now, harchives⟩,
    hstored,
    hcreates, ⟨j, q, hj, hfound⟩, ?_, hmodel, ?_⟩
  · rintro hnil
    rw [hnil] at hvalid
    simp [validateRuleSet] at hvalid
  · intro k ev hev hevwho hkn hkm
    have hsplit := callsOf_eq_append hev
    rw [hevwho, hcalls] at hsplit
    have hposition : ∀ {ev' : Event ι World Env Call} {k' : ℕ}, hist[k']? = some ev' → ev'.who = i →
        (callsOf i (hist.take k)).length = (callsOf i (hist.take k')).length → k = k' :=
      fun hev' hwho' hlength => eq_of_length_callsOf_take hev hev' hevwho hwho' hlength
    -- how many calls the thread has made before
    rcases hpast : callsOf i (hist.take k) with _ | ⟨_, _ | ⟨_, _ | ⟨_, _ | ⟨_, _ | ⟨_, rest⟩⟩⟩⟩⟩
    · rw [hpast] at hsplit
      obtain rfl : q = ev := (List.cons.inj hsplit).1
      exact hq
    · rw [hpast] at hsplit
      obtain rfl : r = ev := (List.cons.inj (List.cons.inj hsplit).2).1
      exact hr
    · exact absurd (hposition hn hwhoX (by rw [hpast, hbeforeX]; rfl)) hkn
    · exact absurd (hposition hm hwhoY (by rw [hpast, hbeforeY]; rfl)) hkm
    · rw [hpast] at hsplit
      have hlast : [z] = ev :: _ := (List.cons.inj (List.cons.inj (List.cons.inj (List.cons.inj
        hsplit).2).2).2).2
      obtain rfl : z = ev := (List.cons.inj hlast).1
      exact hz
    · have hlength := congrArg List.length hsplit
      rw [hpast] at hlength
      simp at hlength

end Thread

/-! ### Two replacements -/

/-- The account has the model and the rules in force of one of the two requests. -/
def ReplacedByOne (accountRef businessId : String) (dto : Bool → ReplaceRuleSetDto)
    (result : Bool → RuleSetResult) (w : World) : Prop :=
  ∃ a, w.db.findAccountByRef accountRef businessId = some a ∧ ∃ i,
    a.executionModel = (result i).executionModel ∧
    (∀ model, (dto i).executionModel = some model → a.executionModel = model) ∧
    ∃ kycTier, List.Forall₂ (RuleDefinition.StoredAs a.id kycTier) (dto i).rules
      (w.db.activeRules a.id)

/-- One thread has created its rules before the other one archives what is in force. -/
def CreatesBeforeArchiving (hist : List (Event Bool World Env Call)) : Prop :=
  ∃ (m n : ℕ) (x y : Event Bool World Env Call), m < n ∧ hist[m]? = some x ∧ hist[n]? = some y ∧
    x.who ≠ y.who ∧ (∃ id, x.call = .createRules id) ∧ ∃ id, y.call = .archiveRules id

section Runs

variable {isUrl : String → Bool} {accountRef businessId : String} {dto : Bool → ReplaceRuleSetDto}
  {result : Bool → RuleSetResult} {w₀ w : World} {hist : List (Event Bool World Env Call)}
  {ps : Bool → Action RuleSetResult}
  (run : Run (fun _ _ _ _ => True)
    (fun i => replaceRuleSet isUrl accountRef businessId (dto i)) w₀ hist ps w)
  (R : ∀ i, Replacement isUrl accountRef businessId (dto i) (result i) i hist)
include run R

/-- Between the writes nothing changes. -/
theorem db_eq_of_noWrite {m n : ℕ} (hmn : m ≤ n)
    (hnone : ∀ k, m ≤ k → k < n → ∀ i, k ≠ (R i).archiveAt ∧ k ≠ (R i).createAt) :
    (stateAt hist w n).db = (stateAt hist w m).db := by
  refine run.persists (P := fun x => x.db = (stateAt hist w m).db) hmn rfl ?_
  intro k ev hmk hkn hev hbefore
  obtain ⟨harchive, hcreate⟩ := hnone k hmk hkn ev.who
  have hsame : ev.after.db = ev.before.db :=
    ((R ev.who).reads k ev hev rfl harchive hcreate).1
  show ev.after.db = _
  rw [hsame]
  exact hbefore

/-- The reference names one account all the time. -/
theorem accountId_of_run (n : ℕ) :
    ((stateAt hist w n).db.findAccountByRef accountRef businessId).map Account.id =
      (w₀.db.findAccountByRef accountRef businessId).map Account.id := by
  refine run.always (I := fun x => (x.db.findAccountByRef accountRef businessId).map Account.id =
    (w₀.db.findAccountByRef accountRef businessId).map Account.id) rfl ?_ n
  intro k ev hev hbefore
  show (ev.after.db.findAccountByRef accountRef businessId).map Account.id = _
  rw [← hbefore]
  have hR := R ev.who
  by_cases harchive : k = (R ev.who).archiveAt
  · have hsame : ev = (R ev.who).archive := by
      have := (R ev.who).getElem?_archive
      rw [← harchive, hev] at this
      exact Option.some.inj this
    obtain ⟨now, hop⟩ := (R ev.who).archives
    rw [← hsame] at hop
    have haccounts := (WriteOp.sameExcept (o := .archiveRules _ now) hop).accounts
      (by simp [WriteOp.table])
    unfold Db.findAccountByRef
    rw [haccounts]
  · by_cases hcreate : k = (R ev.who).createAt
    · have hsame : ev = (R ev.who).create := by
        have := (R ev.who).getElem?_create
        rw [← hcreate, hev] at this
        exact Option.some.inj this
      have hdb := (R ev.who).creates
      rw [← hsame] at hdb
      rw [Db.findAccountByRef_updateModel (congrArg Db.accounts hdb), Option.map_map]
      congr 1
      funext a
      dsimp only [Function.comp_apply]
      split <;> rfl
    · rw [((R ev.who).reads k ev hev rfl harchive hcreate).1]

/-- Both replacements are of that account. -/
theorem account_id_eq (i j : Bool) : (R i).account.id = (R j).account.id := by
  have hid : ∀ i, some (R i).account.id =
      (w₀.db.findAccountByRef accountRef businessId).map Account.id := by
    intro i
    obtain ⟨n, q, hq, hfound⟩ := (R i).found
    rw [← accountId_of_run run R n, stateAt_eq_before hq, hfound]
    rfl
  exact Option.some.inj ((hid i).trans (hid j).symm)

/-- Nothing is in force after the archiving. -/
theorem activeRules_after_archive (i : Bool) :
    (stateAt hist w ((R i).archiveAt + 1)).db.activeRules (R i).account.id = [] := by
  obtain ⟨now, hop⟩ := (R i).archives
  rw [run.stateAt_succ (R i).getElem?_archive]
  exact Db.activeRules_archiveRules hop

/-- The new rules come on top of what is in force. -/
theorem activeRules_after_create (i : Bool) :
    (stateAt hist w ((R i).createAt + 1)).db.activeRules (R i).account.id =
      (stateAt hist w (R i).createAt).db.activeRules (R i).account.id ++ (R i).added := by
  rw [run.stateAt_succ (R i).getElem?_create, stateAt_eq_before (R i).getElem?_create]
  exact Db.activeRules_append (R i).stored (congrArg Db.rules (R i).creates)

/-- Nothing changes where neither of the two threads writes. -/
theorem db_eq_of_between (i : Bool) {m n : ℕ} (hmn : m ≤ n)
    (hnone : ∀ k, m ≤ k → k < n → k ≠ (R i).archiveAt ∧ k ≠ (R i).createAt ∧
      k ≠ (R !i).archiveAt ∧ k ≠ (R !i).createAt) :
    (stateAt hist w n).db = (stateAt hist w m).db := by
  refine db_eq_of_noWrite run R hmn fun k hmk hkn j => ?_
  obtain ⟨harchive, hcreate, harchive', hcreate'⟩ := hnone k hmk hkn
  rcases Bool.eq_or_eq_not j i with rfl | rfl
  · exact ⟨harchive, hcreate⟩
  · exact ⟨harchive', hcreate'⟩

/-- After both threads have written nothing is written any more. -/
theorem db_eq_after_create (i : Bool) (hlast : (R !i).createAt < (R i).createAt) :
    w.db = (stateAt hist w ((R i).createAt + 1)).db := by
  have hend : stateAt hist w hist.length = w := stateAt_of_le (Nat.le_refl _)
  have hlt := (List.getElem?_eq_some_iff.1 (R i).getElem?_create).1
  have horder := (R i).archive_lt_create
  have horder' := (R !i).archive_lt_create
  have hstays := db_eq_of_between run R i (m := (R i).createAt + 1) (n := hist.length) (by omega)
    (by omega)
  rwa [hend] at hstays

/-- The account ends with the model of the thread that creates its rules last. -/
theorem executionModel_of_run (i : Bool) (hlast : (R !i).createAt < (R i).createAt) :
    ∃ a, w.db.findAccountByRef accountRef businessId = some a ∧ a.id = (R i).account.id ∧
      a.executionModel = (result i).executionModel := by
  have hstays := db_eq_after_create run R i hlast
  rw [run.stateAt_succ (R i).getElem?_create] at hstays
  have hfind := @Db.findAccountByRef_updateModel _ _ _ accountRef businessId _
    (congrArg Db.accounts (R i).creates)
  rw [← hstays] at hfind
  -- the account that the thread has found
  obtain ⟨j, q, hq, hfound⟩ := (R i).found
  have hid : (((R i).create.before.db.findAccountByRef accountRef businessId).map Account.id) =
      some (R i).account.id := by
    rw [← stateAt_eq_before (s := w) (R i).getElem?_create, accountId_of_run run R,
      ← accountId_of_run run R j, stateAt_eq_before hq, hfound]
    rfl
  obtain ⟨a, ha, haid⟩ := Option.map_eq_some_iff.1 hid
  rw [ha, Option.map_some, if_pos haid] at hfind
  exact ⟨_, hfind, haid, rfl⟩

/-- One thread creates its rules before the other one archives: what is in force at the end. -/
theorem activeRules_of_inTurn (i : Bool) (hturn : (R !i).createAt < (R i).archiveAt) :
    w.db.activeRules (R i).account.id = (R i).added := by
  have horder := (R i).archive_lt_create
  have horder' := (R !i).archive_lt_create
  have hstays := db_eq_after_create run R i (by omega)
  have hcleared := db_eq_of_between run R i (m := (R i).archiveAt + 1) (n := (R i).createAt)
    (by omega) (by omega)
  rw [hstays, activeRules_after_create run R i, hcleared, activeRules_after_archive run R i,
    List.nil_append]

/-- Both threads archive before either one creates its rules: both rule sets are in force. -/
theorem activeRules_of_overlap (i : Bool) (hlast : (R !i).createAt < (R i).createAt)
    (hoverlap : (R i).archiveAt < (R !i).createAt) :
    w.db.activeRules (R i).account.id = (R !i).added ++ (R i).added := by
  have horder := (R i).archive_lt_create
  have horder' := (R !i).archive_lt_create
  have haccount : (R i).account.id = (R !i).account.id := account_id_eq run R i !i
  have hstays := db_eq_after_create run R i hlast
  have hbetween := db_eq_of_between run R i (m := (R !i).createAt + 1) (n := (R i).createAt)
    (by omega) (by omega)
  -- nothing is in force after the later one of the two archivings
  have hcleared : (stateAt hist w (R !i).createAt).db.activeRules (R i).account.id = [] := by
    rcases Nat.lt_or_ge (R i).archiveAt (R !i).archiveAt with hlater | hlater
    · have hsame := db_eq_of_between run R i (m := (R !i).archiveAt + 1) (n := (R !i).createAt)
        (by omega) (by omega)
      rw [hsame, haccount, activeRules_after_archive run R]
    · have hne : (R i).archiveAt ≠ (R !i).archiveAt := by
        intro heq
        have hsame := (R i).getElem?_archive
        rw [heq, (R !i).getElem?_archive] at hsame
        have hwho := congrArg Event.who (Option.some.inj hsame)
        rw [(R i).who_archive, (R !i).who_archive] at hwho
        simp at hwho
      have hsame := db_eq_of_between run R i (m := (R i).archiveAt + 1) (n := (R !i).createAt)
        (by omega) (by omega)
      rw [hsame, activeRules_after_archive run R]
  have hother := activeRules_after_create run R !i
  rw [← haccount, hcleared, List.nil_append] at hother
  rw [hstays, activeRules_after_create run R i, hbetween, hother]

omit run in
/-- The order of the calls, by the places of the writes. -/
theorem createsBeforeArchiving_iff :
    CreatesBeforeArchiving hist ↔ ∃ i, (R !i).createAt < (R i).archiveAt := by
  constructor
  · rintro ⟨m, n, x, y, hmn, hx, hy, hwho, ⟨id, hxcall⟩, id', hycall⟩
    -- a thread writes twice, and what it reads is none of the two calls
    have hm : m = (R x.who).createAt := by
      by_contra hne
      by_cases harchive : m = (R x.who).archiveAt
      · have hsame := (R x.who).getElem?_archive
        rw [← harchive, hx] at hsame
        have hcall := (R x.who).call_archive
        rw [← Option.some.inj hsame, hxcall] at hcall
        cases hcall
      · have hreads := ((R x.who).reads m x hx rfl harchive hne).2
        rw [hxcall] at hreads
        cases hreads
    have hn : n = (R y.who).archiveAt := by
      by_contra hne
      by_cases hcreate : n = (R y.who).createAt
      · have hsame := (R y.who).getElem?_create
        rw [← hcreate, hy] at hsame
        have hcall := (R y.who).call_create
        rw [← Option.some.inj hsame, hycall] at hcall
        cases hcall
      · have hreads := ((R y.who).reads n y hy rfl hne hcreate).2
        rw [hycall] at hreads
        cases hreads
    have hother : x.who = !y.who := (Bool.eq_or_eq_not x.who y.who).resolve_left hwho
    refine ⟨y.who, ?_⟩
    rw [← hother, ← hm, ← hn]
    exact hmn
  · rintro ⟨i, hlt⟩
    refine ⟨_, _, _, _, hlt, (R !i).getElem?_create, (R i).getElem?_archive, ?_,
      ⟨_, (R !i).call_create⟩, _, (R i).call_archive⟩
    rw [(R !i).who_create, (R i).who_archive]
    simp

omit run R in
/-- **Two replacements end as one of them exactly where one creates its rules before the other one
archives.** -/
theorem replacements_serialise_iff
    (run : Run (fun _ _ _ _ => True)
      (fun i => replaceRuleSet isUrl accountRef businessId (dto i)) w₀ hist ps w)
    (hreturned : ∀ i, ps i = .ret (result i)) :
    ReplacedByOne accountRef businessId dto result w ↔ CreatesBeforeArchiving hist := by
  have htraced := (run.traced (K := fun _ => RulesEvent fun _ _ => True)
    (E := fun _ _ _ => True) fun i => traced_replaceRuleSet (i := i)).2
  have hreplaced : ∀ i, RuleSetReplaced isUrl accountRef businessId (dto i) (result i) []
      (callsOf i hist) := by
    intro i
    have hi := htraced i
    rw [hreturned i] at hi
    exact hi
  have R : ∀ i, Replacement isUrl accountRef businessId (dto i) (result i) i hist :=
    fun i => (nonempty_replacement (hreplaced i)).some
  rw [createsBeforeArchiving_iff R]
  have hdistinct : ∀ {k : ℕ} {x y : Event Bool World Env Call}, hist[k]? = some x →
      hist[k]? = some y → x.who = y.who := by
    intro k x y hx hy
    rw [hx] at hy
    rw [Option.some.inj hy]
  constructor
  · rintro ⟨a, ha, j, -, -, kycTier, hactive⟩
    by_contra hnot
    have hnot : ∀ i, (R i).archiveAt ≤ (R !i).createAt := by simpa using hnot
    -- the one that creates its rules later
    obtain ⟨i, hlast⟩ : ∃ i, (R !i).createAt < (R i).createAt := by
      rcases Nat.lt_trichotomy (R false).createAt (R true).createAt with hlt | heq | hlt
      · exact ⟨true, hlt⟩
      · have hcreate := (R true).getElem?_create
        rw [← heq] at hcreate
        have hwho := hdistinct (R false).getElem?_create hcreate
        rw [(R false).who_create, (R true).who_create] at hwho
        cases hwho
      · exact ⟨false, hlt⟩
    have hne : (R i).archiveAt ≠ (R !i).createAt := by
      intro heq
      have harchive := (R i).getElem?_archive
      rw [heq] at harchive
      have hwho := hdistinct harchive (R !i).getElem?_create
      rw [(R i).who_archive, (R !i).who_create] at hwho
      simp at hwho
    obtain ⟨a', ha', haid, -⟩ := executionModel_of_run run R i hlast
    rw [ha'] at ha
    cases ha
    have hboth := activeRules_of_overlap run R i hlast (by have := hnot i; omega)
    rw [haid, hboth] at hactive
    have hlength := hactive.length_eq
    rw [List.length_append, ← (R i).stored.length_eq, ← (R !i).stored.length_eq] at hlength
    have hpos : ∀ i, 0 < (dto i).rules.length := fun i => List.length_pos_of_ne_nil (R i).nonempty
    have hi := hpos i
    have hi' := hpos !i
    rcases Bool.eq_or_eq_not j i with rfl | rfl <;> omega
  · rintro ⟨i, hturn⟩
    have horder := (R i).archive_lt_create
    obtain ⟨a, ha, haid, hmodel⟩ := executionModel_of_run run R i (by omega)
    refine ⟨a, ha, i, hmodel, fun model hgiven => ?_, (R i).kycTier, ?_⟩
    · rw [hmodel, (R i).model, hgiven]
      rfl
    · rw [haid, activeRules_of_inTurn run R i hturn]
      exact (R i).stored

end Runs

/-! ### Two releases of 60 % -/

namespace Sample

/-- Two requests for the rules of one account: half of an inflow, and 60 % of it. -/
def twoSets : Bool → ReplaceRuleSetDto
  | false => releaseSet 50
  | true => { releaseSet 60 with executionModel := some .sequential }

/-- The calls of the two, in the order of `turns`. -/
def replaceTwice (turns : List Bool) :
    List (Event Bool World Env Call) × (Bool → Action RuleSetResult) × World :=
  exec (fun i => replaceRuleSet (fun _ => true) "shop" "biz" (twoSets i)) tieredShop
    (turns.map fun i => (i, { rows := fun _ => ⟨1, if i then "rule3" else "rule2"⟩ }))

theorem run_replaceTwice (turns : List Bool) :
    Run (fun _ _ _ _ => True) (fun i => replaceRuleSet (fun _ => true) "shop" "biz" (twoSets i))
      tieredShop (replaceTwice turns).1 (replaceTwice turns).2.1 (replaceTwice turns).2.2 :=
  Run.of_exec _ _ _ fun _ _ => trivial

/-- One request archives after the other one has created its rules. -/
def inTurn : List Bool := [false, true, false, false, true, false, true, false, true, true]

/-- Both requests archive before either one creates its rules. -/
def atOnce : List Bool := [false, true, false, true, false, true, false, true, false, true]

end Sample

/-- The second request archives the rules of the first. -/
theorem replacements_serialise_inTurn :
    let r := Sample.replaceTwice Sample.inTurn
    ∃ result, (∀ i, r.2.1 i = .ret (result i)) ∧
      ReplacedByOne "shop" "biz" Sample.twoSets result r.2.2 := by
  have hreturned : ∀ i, ∃ result, (Sample.replaceTwice Sample.inTurn).2.1 i = .ret result := by
    intro i
    have hsome : ((Sample.replaceTwice Sample.inTurn).2.1 i).returned.isSome = true := by
      revert i
      decide +kernel
    obtain ⟨result, hresult⟩ := Option.isSome_iff_exists.1 hsome
    exact ⟨result, Proc.returned_eq_some.1 hresult⟩
  choose result hresult using hreturned
  refine ⟨result, hresult, ?_⟩
  rw [replacements_serialise_iff (Sample.run_replaceTwice _) hresult]
  have hcallAt : ∀ (n : ℕ) who call, ((Sample.replaceTwice Sample.inTurn).1.map fun ev =>
      (ev.who, ev.call))[n]? = some (who, call) →
      ∃ ev, (Sample.replaceTwice Sample.inTurn).1[n]? = some ev ∧
        ev.who = who ∧ ev.call = call := by
    intro n who call h
    rw [List.getElem?_map, Option.map_eq_some_iff] at h
    obtain ⟨ev, hev, heq⟩ := h
    exact ⟨ev, hev, congrArg Prod.fst heq, congrArg Prod.snd heq⟩
  obtain ⟨x, hx, hxwho, hxcall⟩ := hcallAt 5 false (.createRules "acc1") (by decide +kernel)
  obtain ⟨y, hy, hywho, hycall⟩ := hcallAt 6 true (.archiveRules "acc1") (by decide +kernel)
  refine ⟨5, 6, x, y, by decide, hx, hy, ?_, ⟨_, hxcall⟩, _, hycall⟩
  rw [hxwho, hywho]
  decide

/-- Both rule sets are in force: 110 % of every inflow are released. -/
theorem both_rule_sets_in_force :
    let r := Sample.replaceTwice Sample.atOnce
    (∀ i, (r.2.1 i).returned.isSome) ∧
      (r.2.2.db.activeRules "acc1").map Rule.id = ["rule2", "rule3"] ∧
        ∀ result, ¬ ReplacedByOne "shop" "biz" Sample.twoSets result r.2.2 := by
  have hrules : ((Sample.replaceTwice Sample.atOnce).2.2.db.activeRules "acc1").map Rule.id =
      ["rule2", "rule3"] := by decide +kernel
  have hid : ((Sample.replaceTwice Sample.atOnce).2.2.db.findAccountByRef "shop" "biz").map
      Account.id = some "acc1" := by decide +kernel
  refine ⟨by decide +kernel, hrules, ?_⟩
  rintro result ⟨a, ha, i, -, -, kycTier, hactive⟩
  rw [ha, Option.map_some, Option.some.injEq] at hid
  rw [hid] at hactive
  have hlength := hactive.length_eq
  have htwo := congrArg List.length hrules
  rw [List.length_map] at htwo
  rw [htwo] at hlength
  cases i <;> cases hlength

end AccountOS
