import AccountOS.Accounts.AccountLifecycle
import AccountOS.Queue.RetryProcessor
import AccountOS.Queue.WebhookProcessor
import AccountOS.Treasury.Provision

/-!
# Requests and jobs

What the controllers call for an authenticated business, and what the workers call for a job.
-/

namespace AccountOS

open Conc

/-- A request that writes. Ids and references are the caller's. -/
inductive ApiRequest
  | createCustomer (dto : CreateCustomerDto)
  | renameCustomer (id : String) (dto : RenameCustomerDto) (actor : String)
  | updateKycTier (id : String) (dto : UpdateKycTierDto) (actor : String)
  | provisionAccount (dto : ProvisionAccountDto)
  | updateStatus (accountRef : String) (dto : UpdateStatusDto) (actor : String)
  | closeAccount (accountRef actor : String)
  | replaceRuleSet (accountRef : String) (dto : ReplaceRuleSetDto)
  | toggleRule (accountRef ruleId : String) (enabled : Bool)
  | deleteRule (accountRef ruleId : String)
  | provisionBucket (dto : CreateBucketDto)
  | renameBucket (bucketRef : String) (dto : RenameBucketDto)
  | closeBucket (bucketRef actor : String)
  | transferBetweenBuckets (sourceBucketRef : String) (dto : TransferBucketDto) (actor : String)
  | initiate (bucketRef : String) (dto : CreateSettlementDto) (actor : String)

/-- Serve a request of a business, without its answer. -/
def ApiRequest.run (isUrl : String → Bool) (businessId : String) : ApiRequest → Action Unit
  | createCustomer dto => (AccountOS.createCustomer dto businessId).bind fun _ => .ret ()
  | renameCustomer id dto actor =>
    (AccountOS.renameCustomer id dto businessId actor).bind fun _ => .ret ()
  | updateKycTier id dto actor =>
    (AccountOS.updateKycTier id dto businessId actor).bind fun _ => .ret ()
  | provisionAccount dto => (AccountOS.provisionAccount isUrl dto businessId).bind fun _ => .ret ()
  | updateStatus accountRef dto actor =>
    (AccountOS.updateStatus accountRef dto businessId actor).bind fun _ => .ret ()
  | closeAccount accountRef actor =>
    (AccountOS.closeAccount accountRef businessId actor).bind fun _ => .ret ()
  | replaceRuleSet accountRef dto =>
    (AccountOS.replaceRuleSet isUrl accountRef businessId dto).bind fun _ => .ret ()
  | toggleRule accountRef ruleId enabled =>
    (AccountOS.toggleRule accountRef ruleId businessId enabled).bind fun _ => .ret ()
  | deleteRule accountRef ruleId =>
    (AccountOS.deleteRule accountRef ruleId businessId).bind fun _ => .ret ()
  | provisionBucket dto => (AccountOS.provisionBucket dto businessId).bind fun _ => .ret ()
  | renameBucket bucketRef dto =>
    (AccountOS.renameBucket bucketRef dto businessId).bind fun _ => .ret ()
  | closeBucket bucketRef actor =>
    (AccountOS.closeBucket bucketRef businessId actor).bind fun _ => .ret ()
  | transferBetweenBuckets sourceBucketRef dto actor =>
    (AccountOS.transferBetweenBuckets sourceBucketRef dto businessId actor).bind fun _ => .ret ()
  | initiate bucketRef dto actor =>
    (AccountOS.initiate bucketRef dto businessId actor).bind fun _ => .ret ()

/-- What a thread of the application is there for: a request of a business, or a job of one of the
two queues. -/
inductive Task
  | request (businessId : String) (r : ApiRequest)
  | inflow (payload : InflowPayload)
  | retry (job : RetryProcessor.RetryDelivery)

namespace Task

def run (isUrl : String → Bool) : Task → Action Unit
  | request businessId r => r.run isUrl businessId
  | inflow payload => WebhookProcessor.process payload
  | retry job => RetryProcessor.process job

/-- The business that the task is authenticated as. -/
def businessId : Task → Option String
  | request businessId _ => some businessId
  | inflow _ | retry _ => none

end Task

end AccountOS
