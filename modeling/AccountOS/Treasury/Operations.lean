import AccountOS.Treasury.Settlement
import Mathlib.Tactic.NormNum

/-!
# Everything that writes to a bucket's ledger

Allocations, transfers and settlements are the operations of the treasury. Several requests can be
served side by side, each by a thread; a thread can also serve requests one after the other, and an
error ends a request but not the thread.
-/

namespace AccountOS

open Conc

/-- A request to the treasury. An allocation is of a positive amount, which `handleReleaseFunds` checks
before it calls `credit`. A retry calls it from `attemptRelease`, which does not check: `LedgerOp` has
allocations of any amount. -/
inductive TreasuryOp
  | credit (p : CreditParams) (pos : 0 < p.amountKobo)
  | transferBetweenBuckets (sourceBucketRef : String) (dto : TransferBucketDto)
      (businessId actor : String)
  | initiate (bucketRef : String) (dto : CreateSettlementDto) (businessId actor : String)

namespace TreasuryOp

/-- Serve one request, without its answer. -/
def run : TreasuryOp → Action Unit
  | credit p _ => (AccountOS.credit p).bind fun _ => .ret ()
  | transferBetweenBuckets sourceBucketRef dto businessId actor =>
    (AccountOS.transferBetweenBuckets sourceBucketRef dto businessId actor).bind fun _ => .ret ()
  | initiate bucketRef dto businessId actor =>
    (AccountOS.initiate bucketRef dto businessId actor).bind fun _ => .ret ()

/-- Serve requests one after the other. -/
def runAll : List TreasuryOp → Action Unit
  | [] => .ret ()
  | op :: ops => (op.run.catching fun _ => .ret ()).bind fun _ => runAll ops

end TreasuryOp

/-- What can be done to the ledgers of the buckets: an allocation of any amount, or a request. -/
inductive LedgerOp
  | credit (p : CreditParams)
  | request (op : TreasuryOp)

/-- One operation, without its answer. -/
def LedgerOp.run : LedgerOp → Action Unit
  | credit p => (AccountOS.credit p).bind fun _ => .ret ()
  | request op => op.run

/-! ### A bucket to try things on -/

namespace Sample

/-- A bucket with ₦1,000.00 in it. -/
def bucket : TreasuryBucket := { id := "bkt1", bucketRef := "ops", businessId := "biz" }

def funded : World where
  db := {
    treasuryBuckets := [bucket]
    bucketLedgerEntries := [{
      id := "ble1", createdAt := 1, bucketId := "bkt1", entryType := .credit
      amountKobo := 100000, cumulativeAmountKobo := 100000, reference := "alloc_t1_bkt1" }] }

/-- A withdrawal of all of it. -/
def payout : CreateSettlementDto where
  amountKobo := 100000
  destinationAccountName := some "Vendor Ltd"
  destinationAccountNumber := some "0123456789"
  destinationBankCode := some "044"
  one_le_amountKobo := by norm_num

end Sample

end AccountOS
