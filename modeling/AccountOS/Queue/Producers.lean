import AccountOS.Queue.WebhookProcessor
import AccountOS.Rules.RulesService

/-!
# What puts jobs on the webhook queue

Three services share the queue and the shape of its jobs: `WebhooksService` for the inflows that
Nomba reports, once the signature of the report is verified; `EventsService` for the custom events
of a business; `DemoService` for simulated inflows. The worker takes what they have put there.
-/

namespace AccountOS

open Conc Sql

/-! ### `EventsService` -/

/-- `processedEvent.findFirst { eventId, businessId }`. -/
def Db.findEventOf (db : Db) (businessId eventId : String) : Option ProcessedEvent :=
  db.processedEvents.find? fun e => e.eventId = eventId ∧ e.businessId = some businessId

namespace EventsService

/-- The job of a custom event. -/
def customEventJob (accountNumber eventId eventName : String) : InflowPayload where
  eventId := eventId
  transactionRef := eventId
  accountNumber := accountNumber
  amountKobo := 0
  eventType := some eventName

/-- `EventsService.dispatch`. -/
def dispatch (accountRef eventId eventName businessId : String) : Action Unit := do
  let metadata := [
    ("eventId", Json.str eventId), ("eventName", .str eventName), ("accountRef", .str accountRef)]
  let existing ← find (.findEventOf businessId eventId) fun _ db =>
    db.findEventOf businessId eventId
  match existing with
  | some _ => audit {
      actor := "system"
      action := .duplicateEventDiscarded
      metadata
      businessId := some businessId }
  | none => do
    let account ← find (.findAccountByRef businessId accountRef) fun _ db =>
      db.findAccountByRef accountRef businessId
    match account with
    | none => throw (.http 404 s!"Account '{accountRef}' not found" "ACCOUNT_NOT_FOUND" [])
    | some account => do
      enqueueInflow (customEventJob account.accountNumber eventId eventName)
      audit {
        actor := "system"
        action := .customEventProcessed
        accountId := some account.id
        businessId := some businessId
        metadata }

end EventsService

/-! ### `WebhooksService` -/

/-- `data` of a Nomba webhook; the amount is in kobo. -/
structure NombaInflowData where
  transactionRef : String
  accountNumber : Option String
  amount : ℚ
  senderName : Option String := none
  senderAccountNumber : Option String := none
  senderBankCode : Option String := none
  narration : Option String := none

/-- The body of a Nomba webhook. -/
structure NombaInflowPayload where
  eventId : String
  data : Option NombaInflowData

/-- The raw body of a request. -/
abbrev RawBody := List UInt8

/-- What the service takes from the runtime: the JSON parser, the decryption of a stored secret,
which throws for a text that was tampered with, and HMAC-SHA256 as a hex string. -/
structure WebhookRuntime where
  parse : RawBody → Option NombaInflowPayload
  decryptWebhookSecret : String → Except Error String
  hmac : String → RawBody → String

namespace Db

/-- `account.findUnique { accountNumber }` with its customer's business. -/
def findAccountBusiness (db : Db) (accountNumber : String) : Option (Account × Option Business) :=
  (db.findAccount accountNumber).map fun a =>
    (a, (a.customerId.bind db.findCustomer).bind fun c => db.findBusiness c.businessId)

end Db

namespace WebhooksService

/-- The job of a verified inflow. -/
def inflowJob (body : NombaInflowPayload) (data : NombaInflowData) (accountNumber : String) :
    InflowPayload where
  eventId := body.eventId
  transactionRef := data.transactionRef
  accountNumber := accountNumber
  amountKobo := data.amount
  senderName := data.senderName
  senderAccountNumber := data.senderAccountNumber
  senderBankCode := data.senderBankCode
  narration := data.narration
  eventType := some "NOMBA_INFLOW"

def badRequest (message code : String) : Error := .http 400 message code []

def unauthorized (message : String) : Error :=
  .http 401 message "INVALID_WEBHOOK_SIGNATURE" []

/-- Verify the signature under the business's secret, and enqueue the inflow. -/
def verifyAndEnqueue (runtime : WebhookRuntime) (rawBody : RawBody) (signature : Option String)
    (job : InflowPayload) (business : Option Business) : Action Unit :=
  match (business.bind Business.nombaWebhookSecret).getD "", signature.getD "" with
  | "", _ => throw (unauthorized "Business has no webhook secret configured")
  | _, "" => throw (unauthorized "Missing x-nomba-signature header")
  | encryptedSecret, signature =>
    match runtime.decryptWebhookSecret encryptedSecret with
    | .error e => throw e
    | .ok secret =>
      if signature = runtime.hmac secret rawBody then
        enqueueInflow job
      else
        throw (unauthorized "HMAC signature mismatch")

/-- `WebhooksService.processInflow`. A webhook for an unknown account cannot be verified; it is
acknowledged and dropped. -/
def processInflow (runtime : WebhookRuntime) (rawBody : Option RawBody)
    (signature : Option String) : Action Unit :=
  match rawBody with
  | none => throw (badRequest "Raw body is required for webhook signature verification"
      "INVALID_WEBHOOK_SIGNATURE")
  | some rawBody =>
    match runtime.parse rawBody with
    | none => throw (badRequest "Invalid JSON in webhook body" "INVALID_WEBHOOK_SIGNATURE")
    | some body =>
      match body.data with
      | none => throw (badRequest "Missing accountNumber in webhook payload" "VALIDATION_ERROR")
      | some data => do
        let accountNumber := data.accountNumber.getD ""
        if accountNumber = "" then
          throw (badRequest "Missing accountNumber in webhook payload" "VALIDATION_ERROR")
        else do
          let account ← find (.findAccount accountNumber) fun _ db =>
            db.findAccountBusiness accountNumber
          match account with
          | none => return ()
          | some (_, business) =>
            verifyAndEnqueue runtime rawBody signature (inflowJob body data accountNumber) business

end WebhooksService

/-! ### `DemoService` -/

namespace DemoService

structure SimulateInflowParams where
  accountNumber : String
  amountKobo : ℚ
  senderName : Option String := none
  senderAccountNumber : Option String := none
  senderBankCode : Option String := none
  narration : Option String := none

/-- The job of a simulated inflow. -/
def simulatedJob (params : SimulateInflowParams) (eventUuid transactionUuid : String) :
    InflowPayload where
  eventId := "demo_" ++ eventUuid
  transactionRef := "DEMO-TXN-" ++ transactionUuid
  accountNumber := params.accountNumber
  amountKobo := params.amountKobo
  senderName := some (params.senderName.getD "Demo Sender")
  senderAccountNumber := some (params.senderAccountNumber.getD "0000000000")
  senderBankCode := some (params.senderBankCode.getD "000")
  narration := some (params.narration.getD "Simulated inflow for demo")
  eventType := some "NOMBA_INFLOW"

/-- `DemoService.simulateInflow`, for the two uuids that it generates. -/
def simulateInflow (params : SimulateInflowParams) (eventUuid transactionUuid : String) :
    Action Unit :=
  enqueueInflow (simulatedJob params eventUuid transactionUuid)

end DemoService

/-! ### The worker -/

/-- The worker serves one delivery of a job. -/
def serveJob (payload : InflowPayload) : Action Unit := do
  takeJob payload
  WebhookProcessor.process payload

/-! ### The system around the queue -/

/-- A request to one of the producers, a delivery by the queue, or anything that another service
does. -/
inductive Request
  | webhook (rawBody : Option RawBody) (signature : Option String)
  | dispatch (accountRef eventId eventName businessId : String)
  | simulate (params : DemoService.SimulateInflowParams) (eventUuid transactionUuid : String)
  | serve (payload : InflowPayload)
  | elsewhere (change : World → World)

/-- The job of a webhook's body. -/
def IsInflowJob (runtime : WebhookRuntime) (rawBody : RawBody) (p : InflowPayload) : Prop :=
  ∃ body data accountNumber, runtime.parse rawBody = some body ∧ body.data = some data ∧
    data.accountNumber = some accountNumber ∧
    p = WebhooksService.inflowJob body data accountNumber

/-- The method that serves a request. -/
def Request.method (runtime : WebhookRuntime) : Request → Action Unit
  | webhook rawBody signature => WebhooksService.processInflow runtime rawBody signature
  | dispatch accountRef eventId eventName businessId =>
    EventsService.dispatch accountRef eventId eventName businessId
  | simulate params eventUuid transactionUuid =>
    DemoService.simulateInflow params eventUuid transactionUuid
  | serve payload => serveJob payload
  | elsewhere change => .step .elsewhere (fun _ w => change w) fun _ _ => .ret ()

namespace Sample

/-- No webhook is ever received here. -/
def noWebhooks : WebhookRuntime where
  parse _ := none
  decryptWebhookSecret := .ok
  hmac _ _ := ""

end Sample

end AccountOS
