import AccountOS.Num.Rounding
import AccountOS.Queue.Correctness.RetryAgreement
import AccountOS.Rules.Correctness.ReleaseTotals

/-!
# How percentages split an inflow

A percentage is scaled by 100, multiplied with the inflow and divided by 10000, in whole kobo. For
the percentages that the schema accepts this is the exact part rounded down, in both copies of the
computation. So rules of at most 100% never release more than the inflow, rules of exactly 100%
leave less than one kobo for each rule, and more is never released of a smaller part or of a smaller
inflow (`percentage_split`).
-/

namespace AccountOS

open Conc Sql RetryProcessor Rounding

/-! ### One percentage -/

/-- A release of a percentage, as the schema accepts it. -/
def Rule.ReleasesPercentage (r : Rule) : Prop :=
  ∃ p, r.payload = some p ∧ releaseFundsPayloadSchema p = true ∧ p.percentage.isSome

/-- The rule's part of an inflow, rounded down to whole kobo. -/
def Rule.part (inflow : Int) (r : Rule) : Int := ⌊r.percentage * inflow / 100⌋

/-- Scaling an integral percentage by 100 and dividing by 10000 rounds the part down. -/
theorem scaled_eq_floor {n inflow : Int} (hn : 0 ≤ n) (hinflow : 0 ≤ inflow) :
    bigIntDiv (mathRound (n * 100 : ℚ) * inflow) 10000 = ⌊(n * inflow / 100 : ℚ)⌋ := by
  -- an integral percentage has nothing to round
  have hround : mathRound (n * 100 : ℚ) = n * 100 := by
    exact_mod_cast mathRound_intCast (n * 100)
  have hscale : n * 100 * inflow / 10000 = n * inflow / 100 := by
    have hcomm : n * 100 * inflow = 100 * (n * inflow) := by ring
    rw [hcomm]
    exact Int.mul_ediv_mul_of_pos (n * inflow) 100 (by norm_num : (0 : Int) < 100)
  have hfloor : ⌊(n * inflow / 100 : ℚ)⌋ = n * inflow / 100 := by
    have hdiv := Rat.floor_intCast_div_natCast (n * inflow) 100
    push_cast at hdiv
    exact hdiv
  rw [hround, bigIntDiv, Int.tdiv_eq_ediv_of_nonneg (by positivity), hscale, hfloor]

namespace Rule.ReleasesPercentage

variable {r : Rule} (h : r.ReleasesPercentage)
include h

theorem exists_percentage :
    ∃ p : RulePayload, ∃ n : Int, r.payload = some p ∧ p.percentage = some (n : ℚ) ∧ 1 ≤ n ∧
      r.percentage = n := by
  obtain ⟨p, hp, hschema, hsome⟩ := h
  obtain ⟨q, hq⟩ := Option.isSome_iff_exists.1 hsome
  obtain ⟨n, rfl, hone, -⟩ := (of_releaseFundsPayloadSchema hschema).1 q hq
  refine ⟨p, n, hp, hq, hone, ?_⟩
  rw [Rule.percentage, hp, Option.bind_some, hq, Option.getD_some]

theorem percentage_nonneg : 0 ≤ r.percentage := by
  obtain ⟨-, n, -, -, hone, hr⟩ := h.exists_percentage
  rw [hr]
  exact_mod_cast zero_le_one.trans hone

/-- **What is computed** is the part rounded down. -/
theorem releaseAmount_eq_part {inflow : Int} (hinflow : 0 ≤ inflow) :
    releaseAmount (r.payload.getD {}) inflow = some (.ok (r.part inflow)) := by
  obtain ⟨p, n, hp, hn, hone, hr⟩ := h.exists_percentage
  have hfloor := scaled_eq_floor (zero_le_one.trans hone) hinflow
  rw [hp, Option.getD_some, releaseAmount, hn, Rule.part, hr, ← hfloor]

end Rule.ReleasesPercentage

/-- More is released of a larger part, and of a larger inflow. -/
theorem Rule.part_mono {r r' : Rule} {inflow inflow' : Int} (hr : 0 ≤ r.percentage)
    (hpercentage : r.percentage ≤ r'.percentage) (hinflow : 0 ≤ inflow)
    (hle : inflow ≤ inflow') : r.part inflow ≤ r'.part inflow' := by
  have hcast : (0 : ℚ) ≤ inflow := by exact_mod_cast hinflow
  have hcast' : (inflow : ℚ) ≤ inflow' := by exact_mod_cast hle
  have hmul : r.percentage * inflow ≤ r'.percentage * inflow' :=
    mul_le_mul hpercentage hcast' hcast (hr.trans hpercentage)
  exact Int.floor_le_floor (div_le_div_of_nonneg_right hmul (by norm_num))

/-! ### What is written -/

section Written

variable (env : Call → Env) (w : World)

/-- The bucket that a release is for: the payload names a bucket of the business, and the lookup
does not fail. -/
def releaseBucket (businessId : String) (payload : Option RulePayload) : Option TreasuryBucket :=
  let destinationAccountRef := (payload.getD {}).destinationAccountRef.getD ""
  if destinationAccountRef = "" ∨
      (env (.findBucket businessId destinationAccountRef)).fault ≠ none then
    none
  else
    w.db.findBucket businessId destinationAccountRef

/-- What the first attempt adds for an amount: an ACTIVE bucket is credited, with a positive
amount. -/
def firstAdds (account : RuleAccount) (entry : TriggerEntry) (amountKobo : Int) :
    Option TreasuryBucket → List BucketLedgerEntry
  | none => []
  | some bucket =>
    if bucket.status = .active ∧ 0 < amountKobo then
      creditAdds env w.db (releaseCredit bucket.id account entry amountKobo)
    else []

/-- What a retry adds for an amount: any bucket is credited. -/
def retryAdds (account : Account) (entry : LedgerEntry) (attempt : Nat) (amountKobo : Int) :
    Option TreasuryBucket → List BucketLedgerEntry
  | none => []
  | some bucket => creditAdds env w.db (retryCredit bucket.id account entry amountKobo attempt)

namespace Rule.ReleasesPercentage

variable {r : Rule} (h : r.ReleasesPercentage)
include h

/-- A percentage rule releases its part to its bucket. -/
theorem releaseTarget_eq (businessId : String) {inflow : Int} (hinflow : 0 ≤ inflow) :
    releaseTarget env w businessId r.payload inflow =
      (releaseBucket env w businessId r.payload).map fun bucket => (bucket, r.part inflow) := by
  unfold releaseTarget releaseBucket
  rw [h.releaseAmount_eq_part hinflow]
  dsimp only
  split
  next => rfl
  next =>
    cases w.db.findBucket businessId ((r.payload.getD {}).destinationAccountRef.getD "") <;> rfl

/-- The first attempt credits the rule's part. -/
theorem entriesAfter_handleReleaseFunds (executionId : String) (account : RuleAccount)
    {entry : TriggerEntry} (hinflow : 0 ≤ entry.amountKobo) :
    entriesAfter env w (handleReleaseFunds executionId r.payload account entry) =
      w.db.bucketLedgerEntries ++ firstAdds env w account entry (r.part entry.amountKobo)
        (releaseBucket env w account.businessId r.payload) := by
  rw [AccountOS.entriesAfter_handleReleaseFunds, h.releaseTarget_eq env w _ hinflow]
  cases releaseBucket env w account.businessId r.payload <;> rfl

/-- So does a retry. -/
theorem entriesAfter_attemptRelease (execution : RuleExecution) (account : Account)
    {entry : LedgerEntry} (hinflow : 0 ≤ entry.amountKobo) (attempt : Nat) :
    entriesAfter env w (attemptRelease ⟨execution, r, account, some entry⟩ attempt) =
      w.db.bucketLedgerEntries ++ retryAdds env w account entry attempt (r.part entry.amountKobo)
        (releaseBucket env w account.businessId r.payload) := by
  rw [AccountOS.entriesAfter_attemptRelease, h.releaseTarget_eq env w _ hinflow]
  cases releaseBucket env w account.businessId r.payload <;> rfl

end Rule.ReleasesPercentage

end Written

/-! ### Several percentages -/

section Split

variable {rules : List Rule} {inflow : Int}

theorem sum_shares_eq :
    (rules.map fun r => r.percentage * (inflow : ℚ) / 100).sum =
      (rules.map Rule.percentage).sum * inflow / 100 := by
  induction rules with
  | nil => simp
  | cons r rules ih =>
    rw [List.map_cons, List.sum_cons, ih, List.map_cons, List.sum_cons]
    ring

/-- The parts never come to more than the inflow. -/
theorem sum_part_le (hlimit : (rules.map Rule.percentage).sum ≤ 100) (hinflow : 0 ≤ inflow) :
    (rules.map (Rule.part inflow)).sum ≤ inflow := by
  have hcast : (0 : ℚ) ≤ inflow := by exact_mod_cast hinflow
  have hfloor := sum_floor_le (fun r : Rule => r.percentage * inflow / 100) rules
  have hshares : (rules.map fun r => r.percentage * (inflow : ℚ) / 100).sum ≤ inflow := by
    rw [sum_shares_eq]
    have hmul := mul_le_mul_of_nonneg_right hlimit hcast
    linarith
  exact_mod_cast hfloor.trans hshares

/-- Parts of exactly 100% leave less than one kobo for each rule. -/
theorem rest_lt_length (hwhole : (rules.map Rule.percentage).sum = 100) :
    inflow - (rules.map (Rule.part inflow)).sum < rules.length := by
  have hne : rules ≠ [] := by
    rintro rfl
    norm_num at hwhole
  have hlt := sum_lt_sum_floor_add_length (fun r : Rule => r.percentage * inflow / 100) hne
  have hshares : (rules.map fun r => r.percentage * (inflow : ℚ) / 100).sum = inflow := by
    rw [sum_shares_eq, hwhole]
    ring
  rw [hshares] at hlt
  -- both sides are whole kobo
  have hint : inflow < (rules.map (Rule.part inflow)).sum + rules.length := by exact_mod_cast hlt
  omega

/-- **How percentages split an inflow.** The amount that is computed for each rule is its exact part
rounded down, and the first attempt and a retry credit this amount to the rule's bucket and write
nothing else; the amounts are at most the inflow, of 100% less than one kobo a rule is left over,
and an amount grows with its percentage and with the inflow. -/
theorem percentage_split (accepted : ∀ r ∈ rules, r.ReleasesPercentage)
    (limit : (rules.map Rule.percentage).sum ≤ 100) (hinflow : 0 ≤ inflow) :
    (∀ r ∈ rules,
      releaseAmount (r.payload.getD {}) inflow = some (.ok (r.part inflow)) ∧
        (∀ env w executionId account entry, entry.amountKobo = inflow →
          entriesAfter env w (handleReleaseFunds executionId r.payload account entry) =
            w.db.bucketLedgerEntries ++ firstAdds env w account entry (r.part inflow)
              (releaseBucket env w account.businessId r.payload)) ∧
        ∀ env w execution account entry attempt, entry.amountKobo = inflow →
          entriesAfter env w (attemptRelease ⟨execution, r, account, some entry⟩ attempt) =
            w.db.bucketLedgerEntries ++ retryAdds env w account entry attempt (r.part inflow)
              (releaseBucket env w account.businessId r.payload)) ∧
      (rules.map (Rule.part inflow)).sum ≤ inflow ∧
      ((rules.map Rule.percentage).sum = 100 →
        inflow - (rules.map (Rule.part inflow)).sum < rules.length) ∧
      ∀ r ∈ rules, ∀ r' : Rule, r'.ReleasesPercentage → r.percentage ≤ r'.percentage →
        ∀ inflow', inflow ≤ inflow' → ∃ amount amount',
          releaseAmount (r.payload.getD {}) inflow = some (.ok amount) ∧
          releaseAmount (r'.payload.getD {}) inflow' = some (.ok amount') ∧
          amount ≤ amount' := by
  refine ⟨fun r hr => ⟨(accepted r hr).releaseAmount_eq_part hinflow, ?_, ?_⟩,
    sum_part_le limit hinflow, rest_lt_length, ?_⟩
  · rintro env w executionId account entry rfl
    exact (accepted r hr).entriesAfter_handleReleaseFunds env w executionId account hinflow
  · rintro env w execution account entry attempt rfl
    exact (accepted r hr).entriesAfter_attemptRelease env w execution account hinflow attempt
  · intro r hr r' hr' hpercentage inflow' hle
    exact ⟨_, _, (accepted r hr).releaseAmount_eq_part hinflow,
      hr'.releaseAmount_eq_part (hinflow.trans hle),
      Rule.part_mono (accepted r hr).percentage_nonneg hpercentage hinflow hle⟩

end Split

namespace Sample

/-- A third of every inflow, in whole percent, goes to `ops`. -/
def thirdToOps : Rule :=
  release "rule1" { destinationAccountRef := some "ops", percentage := some 33 }

/-- Three rules that share an inflow of 101 kobo. -/
def thirds : List Rule := [
  thirdToOps,
  release "rule2" { destinationAccountRef := some "tax", percentage := some 33 },
  release "rule3" { destinationAccountRef := some "savings", percentage := some 34 }]

theorem thirds_accepted : ∀ r ∈ thirds, r.ReleasesPercentage := by
  simp only [thirds, List.forall_mem_cons]
  exact ⟨⟨_, rfl, by decide +kernel, rfl⟩, ⟨_, rfl, by decide +kernel, rfl⟩,
    ⟨_, rfl, by decide +kernel, rfl⟩, fun _ h => absurd h List.not_mem_nil⟩

def smallEntry : LedgerEntry := { inflowEntry with amountKobo := 101, cumulativeAmountKobo := 101 }

/-- The shop with the inflow, before anything is released of it. -/
def smallShop : World :=
  let w := shopWithEntry .active
  { w with db := { w.db with ledgerEntries := [smallEntry] } }

end Sample

/-- Of 101 kobo, 33%, 33% and 34% leave one kobo; 33 kobo are credited for the first rule, whichever
attempt does it. -/
theorem percentage_split_thirds :
    101 - (Sample.thirds.map (Rule.part 101)).sum = 1 ∧
      101 - (Sample.thirds.map (Rule.part 101)).sum < Sample.thirds.length ∧
      (entriesAfter (fun _ => {}) Sample.smallShop (handleReleaseFunds "exec1"
        Sample.thirdToOps.payload Sample.account.forRule Sample.smallEntry.trigger)).map
          BucketLedgerEntry.amountKobo = [33] ∧
      (entriesAfter (fun _ => {}) Sample.smallShop (attemptRelease ⟨Sample.retryingExecution,
        Sample.thirdToOps, Sample.account, some Sample.smallEntry⟩ 1)).map
          BucketLedgerEntry.amountKobo = [33] := by
  obtain ⟨hcomputed, -, hrest, -⟩ :=
    percentage_split Sample.thirds_accepted (by decide +kernel) (by decide : (0 : Int) ≤ 101)
  obtain ⟨-, hfirst, hretry⟩ := hcomputed Sample.thirdToOps List.mem_cons_self
  refine ⟨by decide +kernel, hrest (by decide +kernel), ?_, ?_⟩
  · rw [hfirst _ _ _ _ Sample.smallEntry.trigger rfl]
    decide +kernel
  · rw [hretry _ _ _ _ Sample.smallEntry _ rfl]
    decide +kernel

end AccountOS
