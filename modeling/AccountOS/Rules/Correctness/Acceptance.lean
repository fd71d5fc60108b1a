import AccountOS.Rules.Correctness.PercentageSum

/-!
# What an accepted rule set guarantees

After a `replaceRuleSet` that returned, the rules in force are those of the request. So each of
their releases has a payload that the schema accepts, and the percentages of a PARALLEL account are
at most 100.
-/

namespace AccountOS

open Conc Sql

/-- The rules in force satisfy what is checked when a rule set is written. -/
structure Db.Accepted (db : Db) (accountId : String) : Prop where
  payloads : ∀ r ∈ db.activeRules accountId, r.action = .releaseFunds →
    ∃ p, r.payload = some p ∧ releaseFundsPayloadSchema p = true
  percentages : db.IsParallel accountId → db.activePercentage accountId ≤ 100

namespace Db

variable {db : Db} {accountId : String}

theorem activePercentage_eq :
    db.activePercentage accountId = sumWhere (fun r => r.action = .releaseFunds) Rule.percentage
      (db.activeRules accountId) := by
  unfold activePercentage percentageSum activeRules sumWhere
  rw [List.filter_filter]
  refine congrArg List.sum (congrArg (List.map _) (List.filter_congr fun r _ => ?_))
  simp only [← Bool.decide_and, decide_eq_decide]
  tauto

end Db

/-! ### The protocol -/

/-- How far `replaceRuleSet` has come. -/
inductive Replacing
  | idle
  | cleared (accountId : String)
  | stored (accountId : String)

/-- What is known while an account's rules are replaced. -/
structure Replaced (w₀ w : World) (g : Replacing) : Prop where
  unique : w.db.UniqueColumns
  idle : g = .idle → w.db = w₀.db
  cleared : ∀ id, g = .cleared id → w.db.activeRules id = []
  stored : ∀ id, g = .stored id → w.db.Accepted id

/-- One thread alone. -/
def replacing (w₀ : World) : Protocol Unit World Env Call Replacing where
  allowed _ _ _ _ := True
  inv G _ w := Replaced w₀ w (G ())

theorem replacing_quiet (w₀ : World) : Quiet (replacing w₀) := by
  intro G hist w w' i l env hinv _ hsame
  have hdb := hsame.db
  obtain ⟨hunique, hidle, hcleared, hstored⟩ := hinv
  exact ⟨hdb ▸ hunique, hdb ▸ hidle, hdb ▸ hcleared, hdb ▸ hstored⟩

namespace Replaced

variable {w₀ w : World} {g : Replacing}

theorem update {G : Unit → Replacing} {hist : List (Event Unit World Env Call)}
    (h : Replaced w₀ w g) : (replacing w₀).inv (Function.update G () g) hist w := by
  show Replaced _ _ (Function.update G () g ())
  rw [Function.update_self]
  exact h

theorem archive (h : Replaced w₀ w g) {a : Account} {now : Nat} {db : Db}
    (hdb : w.db.archiveRules a.id now = .ok db) :
    Replaced w₀ { w with db } (.cleared a.id) := by
  have hunique : db.UniqueColumns := h.unique.apply (o := .archiveRules a.id now) hdb
  obtain rfl : _ = db := by simpa [Db.archiveRules] using hdb
  refine ⟨hunique, by simp, ?_, by simp⟩
  rintro id ⟨⟩
  refine List.eq_nil_iff_forall_not_mem.2 fun r hr => ?_
  obtain ⟨hr, haccount, hactive⟩ := Db.mem_activeRules.1 hr
  obtain ⟨y, -, rfl⟩ := List.mem_map.1 hr
  split at hactive
  next => simp at hactive
  next hne =>
    rw [if_neg hne] at haccount
    exact hne ⟨haccount, hactive⟩

theorem store {isUrl : String → Bool} {a : Account} {accountRef : String} {model : ExecutionModel}
    {kycTier : KycTier} {rules : List RuleDefinition} {env : Env} {rs : List Rule} {db : Db}
    (h : Replaced w₀ w (.cleared a.id)) (hvalid : validateRuleSet isUrl accountRef rules = true)
    (hsum : model = .parallel → (rules.map RuleDefinition.countedPercentage).sum ≤ 100)
    (hrun : (updateRulesTx a.id model kycTier rules env).run schema w.db = .ok (rs, db)) :
    Replaced w₀ { w with db } (.stored a.id) := by
  have hunique : db.UniqueColumns := h.unique.run hrun
  obtain ⟨added, hadded, hdb⟩ := updateRulesTx_run hrun
  have hdb : db = _ := hdb
  -- the rules in force are the new ones
  have hactive : db.activeRules a.id = added := by
    have hold : w.db.rules.filter (fun r => r.accountId = a.id ∧ r.status = .active) = [] :=
      h.cleared a.id rfl
    have hnew : added.filter (fun r => r.accountId = a.id ∧ r.status = .active) = added := by
      refine List.filter_eq_self.2 fun r hr => ?_
      obtain ⟨d, -, hd⟩ := exists_definition hadded r hr
      simp [hd.percentage.1, hd.percentage.2.1]
    rw [hdb, Db.activeRules, List.filter_append, hold, hnew, List.nil_append]
  refine ⟨hunique, by simp, by simp, ?_⟩
  rintro id ⟨⟩
  refine ⟨fun r hr haction => ?_, ?_⟩
  · obtain ⟨d, hd, hstored⟩ := exists_definition hadded r (hactive ▸ hr)
    obtain ⟨-, -, hpayload, hrelease⟩ := hstored.percentage
    rw [hpayload]
    exact exists_payload_of_releaseFunds (ruleSchema_of_mem hvalid hd) (hrelease.1 haction)
  · rintro ⟨x, hx, hid, hparallel⟩
    have hmodel : model = .parallel := by
      rw [hdb] at hx
      obtain ⟨y, -, rfl⟩ := mem_updateRow.1 hx
      split at hid
      next hya => rwa [if_pos hya] at hparallel
      next hya => exact absurd hid hya
    rw [Db.activePercentage_eq, hactive]
    have hcounted : sumWhere (fun r => r.action = .releaseFunds) Rule.percentage added =
        (rules.map RuleDefinition.countedPercentage).sum := by
      rw [← sumWhere_stored hadded]
      refine sumWhere_congr _ fun r hr => ?_
      obtain ⟨d, -, hd⟩ := exists_definition hadded r hr
      simp [hd.percentage.1, hd.percentage.2.1]
    rw [hcounted]
    exact hsum hmodel

end Replaced

def replacingSteps (w₀ : World) (isUrl : String → Bool) (accountRef businessId : String) :
    ReplaceSteps (replacing w₀) () isUrl accountRef businessId where
  Idle g := g = .idle
  Cleared a g := g = .cleared a.id
  Stored a _ _ g := g = .stored a.id
  Located a := w₀.db.findAccountByRef accountRef businessId = some a
  quiet := replacing_quiet w₀
  locate := by
    intro a G hist w hG hinv ha
    rwa [← Replaced.idle hinv hG]
  archive := by
    rintro a now l G hist w env db w' - - - hinv - hdb rfl
    exact ⟨_, (Replaced.archive hinv hdb).update, rfl⟩
  store := by
    rintro a model kycTier rules l G hist w env rs db w' - - hvalid hsum hG hinv - hrun rfl
    have hinv : Replaced w₀ w (.cleared a.id) := hG ▸ hinv
    exact ⟨_, (hinv.store hvalid hsum hrun).update, rfl⟩

/-- **A rule set that was replaced with success is accepted.** -/
theorem accepted_of_replaceRuleSet {isUrl : String → Bool} {accountRef businessId : String}
    {dto : ReplaceRuleSetDto} {a : Account} {w₀ w : World} {hist : List (Event Unit World Env Call)}
    {ps : Unit → Action RuleSetResult} {result : RuleSetResult} (unique : w₀.db.UniqueColumns)
    (run : Run (fun _ _ _ _ => True)
      (fun _ : Unit => replaceRuleSet isUrl accountRef businessId dto) w₀ hist ps w)
    (success : (ps ()).returned = some result)
    (ha : w₀.db.findAccountByRef accountRef businessId = some a) : w.db.Accepted a.id := by
  have hstart : Replaced w₀ w₀ .idle := ⟨unique, fun _ => rfl, by simp, by simp⟩
  obtain ⟨G, hinv, hps⟩ := (replacing w₀).sound (fun _ => .idle)
    (fun _ _ g => ∃ a, w₀.db.findAccountByRef accountRef businessId = some a ∧ g = .stored a.id)
    (fun _ _ _ => True) hstart
    (fun _ => ((replacingSteps w₀ isUrl accountRef businessId).wp_replaceRuleSet rfl).mono
      (fun _ _ h => h) fun _ _ _ => trivial) run
  have hstored := hps ()
  rw [Proc.returned_eq_some.1 success, Proc.wp_ret] at hstored
  obtain ⟨a', ha', hG⟩ := hstored
  obtain rfl : a = a' := by simpa [ha] using ha'
  exact Replaced.stored hinv a.id hG

end AccountOS
