import AccountOS.Auth.AuthService
import AccountOS.Conc.Trace
import Mathlib.Logic.Function.Basic

/-!
# `NombaClientService`

The client of Nomba's API. A request carries a bearer token, which is issued for the credentials of
a business and kept in a cache until a minute before it expires, and the account id of the business.
All methods of the process share the cache. In mock mode no request is made.
-/

namespace AccountOS

open Conc

/-! ### What Nomba answers -/

/-- The body of an error: its description, and all of it. -/
structure NombaErrorBody where
  description : Option String := none
  fields : List (String × Json) := []

/-- How a request ends: with an answer, whose `data` may be missing, with an error status, or without
a response. -/
inductive NombaReply (δ : Type)
  | ok (data : Option δ)
  | refused (status : Nat) (body : Option NombaErrorBody) (message : String)
  | unanswered

structure NombaToken where
  accessToken : String
  expiresAt : String
deriving DecidableEq, Repr

structure NombaDva where
  accountRef : String
  bankAccountNumber : String
  bankName : String
  accountName : String
  bankAccountName : String
deriving DecidableEq, Repr

/-- A wallet transfer; its amount is a number. -/
structure NombaWalletTransfer where
  id : String
  amount : ℚ
  fee : ℚ
  status : String
deriving DecidableEq

/-- A bank transfer; its amount is a text. -/
structure NombaBankTransfer where
  id : String
  amount : String
  fee : ℚ
  status : String
deriving DecidableEq

/-! ### Calls -/

/-- A request as it is sent. -/
structure NombaRequest where
  method : String
  path : String
  headers : List (String × String)
  body : List (String × Json) := []

/-- A token of the cache; `expiresAt` is `none` for an invalid date. -/
structure TokenEntry where
  token : String
  expiresAt : Option Int
deriving DecidableEq, Repr

/-- `tokenCache`. -/
structure NombaState where
  tokenCache : String → Option TokenEntry := fun _ => none

/-- The environment's choice at one call: the clock in milliseconds, the digits that the mock draws,
and what Nomba answers. -/
structure NombaEnv where
  now : Int := 0
  randomDigits : Nat := 1000000
  token : NombaReply NombaToken := .unanswered
  dva : NombaReply NombaDva := .unanswered
  wallet : NombaReply NombaWalletTransfer := .unanswered
  bank : NombaReply NombaBankTransfer := .unanswered
  expiry : NombaReply Unit := .unanswered

/-- `readCache` looks at the cache and at the clock, `mock` at the clock. -/
inductive NombaCall
  | readCache (businessId : String)
  | issueToken (businessId : String) (request : NombaRequest)
  | send (request : NombaRequest)
  | mock

/-- A method of the client. -/
abbrev NombaAction := Proc NombaState NombaEnv NombaCall Error

/-- What the client is configured with. `parseDate` is the time value of `new Date(text)`, `none` when
it is `NaN`; `parseNumber` is `Number(text)`. -/
structure NombaConfig where
  auth : AuthConfig
  isMock : Bool
  parseDate : String → Option Int
  parseNumber : String → Option ℚ

namespace NombaClient

/-! ### Replies -/

def nombaApiError (status : Nat) (message : String) (metadata : List (String × Json)) : Error :=
  .http status message "NOMBA_API_ERROR" metadata

/-- `mapError`, for a reply that is an error. -/
def mapError (fallbackMessage : String) (response : Option (Nat × Option NombaErrorBody × String)) :
    Error :=
  match response with
  | some (status, body, message) =>
    nombaApiError (if status ≥ 500 then 502 else status)
      ("Nomba API error: " ++ ((body.bind NombaErrorBody.description).getD message))
      ((body.map NombaErrorBody.fields).getD [])
  | none => nombaApiError 502 fallbackMessage []

/-- A reply, with what its `catch` makes of an error. -/
def NombaReply.received {δ : Type} (fallbackMessage : String) :
    NombaReply δ → Except Error (Option δ)
  | .ok data => .ok data
  | .refused status body message => .error (mapError fallbackMessage (some (status, body, message)))
  | .unanswered => .error (mapError fallbackMessage none)

/-- What is thrown when an answer has no `data`. -/
def noData (name : String) : Error :=
  .other s!"Cannot read properties of undefined (reading '{name}')"

/-- The data of a reply, of which the field `name` is read first. -/
def NombaReply.data {δ : Type} (name fallbackMessage : String) (reply : NombaReply δ) :
    Except Error δ :=
  match NombaReply.received fallbackMessage reply with
  | .ok (some data) => .ok data
  | .ok none => .error (noData name)
  | .error e => .error e

/-! ### Tokens -/

/-- A cached token that is good for more than a minute. -/
def freshToken (now : Int) (entry : Option TokenEntry) : Option String :=
  entry.bind fun e => if ∃ t ∈ e.expiresAt, t - 60000 > now then some e.token else none

def tokenRequest (creds : AuthService.DecryptedCredentials) : NombaRequest where
  method := "POST"
  path := "/v1/auth/token/issue"
  headers := [("accountId", creds.nombaAccountId)]
  body := [("client_id", .str creds.nombaClientId), ("client_secret", .str creds.nombaClientSecret),
    ("grant_type", .str "client_credentials")]

/-- Ask for a token, and keep it. -/
def issueToken (config : NombaConfig) (businessId : String) (request : NombaRequest) :
    NombaAction String :=
  Proc.call (.issueToken businessId request) fun env s =>
    match NombaReply.data "expiresAt" "Failed to obtain Nomba OAuth2 token" env.token with
    | .error e => (.error e, s)
    | .ok data =>
      let entry : TokenEntry := ⟨data.accessToken, config.parseDate data.expiresAt⟩
      (.ok data.accessToken, { s with
        tokenCache := Function.update s.tokenCache businessId (some entry) })

/-- `getToken`. -/
def getToken (config : NombaConfig) (business : BusinessRow) : NombaAction String :=
  if config.isMock then return "mock_token"
  else do
    let cached ← Proc.call (.readCache business.id) fun env s =>
      (.ok (freshToken env.now (s.tokenCache business.id)), s)
    match cached with
    | some token => return token
    | none => do
      let creds ← Proc.ofExcept (AuthService.getDecryptedCredentials config.auth business)
      issueToken config business.id (tokenRequest creds)

/-! ### Requests -/

def getNombaAccountId (business : BusinessRow) : Except Error String :=
  if isTruthy business.nombaAccountId then .ok (business.nombaAccountId.getD "")
  else .error (nombaApiError 502 "Business has no Nomba account ID configured" [])

def getNombaSubAccountId (business : BusinessRow) : Except Error String :=
  if isTruthy business.nombaSubAccountId then .ok (business.nombaSubAccountId.getD "")
  else .error (nombaApiError 502 "Business has no Nomba sub-account ID configured" [])

def authHeaders (token accountId : String) : List (String × String) :=
  [("Authorization", "Bearer " ++ token), ("accountId", accountId)]

/-- A request that is sent, and the data of its answer. -/
def send {δ : Type} (request : NombaRequest) (reply : NombaEnv → NombaReply δ)
    (name fallbackMessage : String) : NombaAction δ :=
  Proc.call (.send request) fun env s => (NombaReply.data name fallbackMessage (reply env), s)

/-- A field that is left out when it is missing or empty. -/
def optionalField (name : String) (value : Option String) : List (String × Json) :=
  if isTruthy value then [(name, .str (value.getD ""))] else []

structure ProvisionDvaRequest where
  accountRef : String
  accountName : String
  bvn : Option String := none
  expiryDate : Option String := none
  expectedAmount : Option ℚ := none

structure ProvisionedDva where
  accountRef : String
  accountNumber : String
  bankName : String
  accountName : String
  bankAccountName : String
deriving DecidableEq, Repr

def mockProvisionDva : NombaAction ProvisionedDva :=
  Proc.call .mock fun env s =>
    (.ok {
      accountRef := s!"mock_ref_{env.now}"
      accountNumber := s!"990{env.randomDigits}"
      bankName := "Nombank MFB (Mock)"
      accountName := "Mock Account"
      bankAccountName := "Nomba/Mock Account" }, s)

/-- `provisionDva`. -/
def provisionDva (config : NombaConfig) (business : BusinessRow) (dto : ProvisionDvaRequest) :
    NombaAction ProvisionedDva :=
  if config.isMock then mockProvisionDva
  else do
    let token ← getToken config business
    let accountId ← Proc.ofExcept (getNombaAccountId business)
    let subAccountId ← Proc.ofExcept (getNombaSubAccountId business)
    let data ← send {
        method := "POST"
        path := "/v1/accounts/virtual/" ++ subAccountId
        headers := authHeaders token accountId
        body := [("accountRef", .str dto.accountRef), ("accountName", .str dto.accountName)] ++
          optionalField "bvn" dto.bvn ++ optionalField "expiryDate" dto.expiryDate ++
          (dto.expectedAmount.map fun x => ("expectedAmount", Json.num x)).toList }
      NombaEnv.dva "accountRef" "Nomba DVA provisioning failed"
    return {
      accountRef := data.accountRef
      accountNumber := data.bankAccountNumber
      bankName := data.bankName
      accountName := data.accountName
      bankAccountName := data.bankAccountName }

structure TransferFundsRequest where
  amount : ℚ
  receiverAccountId : String
  merchantTxRef : String
  narration : Option String := none

/-- The result of a transfer; `amount` is `none` for `NaN`. -/
structure TransferResult where
  transactionRef : String
  status : String
  amount : Option ℚ
  fee : ℚ
deriving DecidableEq

/-- What both mocks of a transfer answer with. -/
def mockTransfer (label : String) (amount : ℚ) : NombaAction TransferResult :=
  Proc.call .mock fun env s => (.ok ⟨label ++ toString env.now, "SUCCESS", some amount, 0⟩, s)

/-- `transferFunds`. -/
def transferFunds (config : NombaConfig) (business : BusinessRow) (dto : TransferFundsRequest) :
    NombaAction TransferResult :=
  if config.isMock then mockTransfer "mock_txn_" dto.amount
  else do
    let token ← getToken config business
    let accountId ← Proc.ofExcept (getNombaAccountId business)
    let data ← send {
        method := "POST"
        path := "/v2/transfers/wallet"
        headers := authHeaders token accountId
        body := [("amount", .num dto.amount), ("receiverAccountId", .str dto.receiverAccountId),
          ("merchantTxRef", .str dto.merchantTxRef),
          ("narration", .str (dto.narration.getD "AccountOS transfer"))] }
      NombaEnv.wallet "id" "Nomba wallet transfer failed"
    return ⟨data.id, data.status, some data.amount, data.fee⟩

/-- `bankTransfer`. -/
def bankTransfer (config : NombaConfig) (business : BusinessRow) (dto : BankTransferRequest) :
    NombaAction TransferResult :=
  if config.isMock then mockTransfer "mock_bank_txn_" dto.amount
  else do
    let token ← getToken config business
    let accountId ← Proc.ofExcept (getNombaAccountId business)
    let data ← send {
        method := "POST"
        path := "/v2/transfers/bank"
        headers := authHeaders token accountId
        body := [("amount", .num dto.amount), ("accountNumber", .str dto.accountNumber),
          ("accountName", .str dto.accountName), ("bankCode", .str dto.bankCode),
          ("merchantTxRef", .str dto.merchantTxRef),
          ("narration", .str (dto.narration.getD "AccountOS payout"))] }
      NombaEnv.bank "id" "Nomba bank transfer failed"
    return ⟨data.id, data.status, config.parseNumber data.amount, data.fee⟩

/-- `expireAccount`; nothing is read of the answer. -/
def expireAccount (config : NombaConfig) (business : BusinessRow) (accountIdentifier : String) :
    NombaAction Unit :=
  if config.isMock then return
  else do
    let token ← getToken config business
    let accountId ← Proc.ofExcept (getNombaAccountId business)
    Proc.call (.send {
        method := "DELETE"
        path := "/v1/accounts/virtual/" ++ accountIdentifier
        headers := authHeaders token accountId }) fun env s =>
      ((NombaReply.received "Nomba account expiry failed" env.expiry).map fun _ => (), s)

end NombaClient

/-! ### The methods together -/

/-- A call of the client, for the row of a business that its caller has read. -/
inductive NombaMethod
  | getToken
  | provisionDva (dto : NombaClient.ProvisionDvaRequest)
  | transferFunds (dto : NombaClient.TransferFundsRequest)
  | bankTransfer (dto : BankTransferRequest)
  | expireAccount (accountIdentifier : String)

structure NombaThread where
  business : BusinessRow
  method : NombaMethod

/-- What a method returns. -/
inductive NombaResult
  | token (token : String)
  | dva (dva : NombaClient.ProvisionedDva)
  | transfer (transfer : NombaClient.TransferResult)
  | expired
deriving DecidableEq

def NombaThread.run (config : NombaConfig) (thread : NombaThread) : NombaAction NombaResult :=
  match thread.method with
  | .getToken => do return .token (← NombaClient.getToken config thread.business)
  | .provisionDva dto => do return .dva (← NombaClient.provisionDva config thread.business dto)
  | .transferFunds dto => do
    return .transfer (← NombaClient.transferFunds config thread.business dto)
  | .bankTransfer dto => do return .transfer (← NombaClient.bankTransfer config thread.business dto)
  | .expireAccount accountIdentifier => do
    NombaClient.expireAccount config thread.business accountIdentifier
    return .expired

end AccountOS
