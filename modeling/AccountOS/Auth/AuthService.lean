import AccountOS.Auth.CryptoUtils
import AccountOS.Store.Client
import AccountOS.Store.FindMany

/-!
# `AuthService` and the guard of the API

Businesses are registered, and their API keys created, by whoever has the admin secret. A key is
shown once; the table has its hash. `ApiKeyGuard` looks up the hash of the key that a request
presents, and the request goes on as one of the business the key belongs to.

The Nomba credentials of a business are stored with its two secrets encrypted.
-/

namespace AccountOS

open Conc Sql

/-! ### Rows -/

/-- A row of `Business`, with the columns that only this service writes. -/
structure BusinessRow where
  id : String
  name : String
  email : String
  webhookUrl : Option String := none
  nombaAccountId : Option String := none
  nombaSubAccountId : Option String := none
  nombaClientId : Option String := none
  nombaClientSecret : Option String := none
  nombaWebhookSecret : Option String := none
  createdAt : Nat := 0
  updatedAt : Nat := 0
deriving DecidableEq, Repr

structure ApiKey where
  id : String
  keyHash : String
  keyPrefix : String
  name : String
  businessId : String
  lastUsedAt : Option Nat := none
  expiresAt : Option Nat := none
  revokedAt : Option Nat := none
  createdAt : Nat := 0
deriving DecidableEq, Repr

inductive KeyAction
  | apiKeyCreated | apiKeyRevoked
deriving DecidableEq, Repr

/-- A row of the audit log. -/
structure KeyAuditEntry where
  businessId : String
  actor : String
  action : KeyAction
  metadata : List (String × Json)

/-- The tables of the service. -/
structure AuthState where
  businesses : List BusinessRow := []
  apiKeys : List ApiKey := []
  auditLog : List KeyAuditEntry := []

/-! ### Calls -/

/-- The environment's choice at one call: whether the database fails, the values of a new row, and
the random bytes that are drawn for it. -/
structure AuthEnv where
  fault : Option Error := none
  auditFails : Bool := false
  now : Nat := 0
  row : Generated := {}
  rank : String → Nat := fun _ => 0
  hmacKey : Vector UInt8 32 := Vector.replicate 32 0
  clientSecretIv : Vector UInt8 16 := Vector.replicate 16 0
  webhookSecretIv : Vector UInt8 16 := Vector.replicate 16 0
  secret : Vector UInt8 32 := Vector.replicate 32 0

inductive AuthCall
  | checkAdminSecret
  | createBusiness (email : String)
  | findBusiness (id : String)
  | updateBusiness (id : String)
  | createApiKey (businessId : String)
  | findApiKey (keyHash : String)
  | touchApiKey (id : String)
  | findApiKeyOf (id businessId : String)
  | revokeApiKey (id : String)
  | listApiKeys (businessId : String)
  | audit (action : KeyAction)
deriving DecidableEq, Repr

/-- A method of the service. -/
abbrev AuthAction := Proc AuthState AuthEnv AuthCall Error

/-- What a statement does: it fails, or it answers and leaves the tables that `f` says. -/
def statementResult {α : Type} (f : AuthEnv → AuthState → Except Error (α × AuthState))
    (env : AuthEnv) (s : AuthState) : Except Error α × AuthState :=
  match env.fault with
  | some e => (.error e, s)
  | none =>
    match f env s with
    | .ok (a, s') => (.ok a, s')
    | .error e => (.error e, s)

def authStatement {α : Type} (l : AuthCall)
    (f : AuthEnv → AuthState → Except Error (α × AuthState)) : AuthAction α :=
  Proc.call l (statementResult f)

/-- A statement that reads. -/
def authFind {α : Type} (l : AuthCall) (f : AuthEnv → AuthState → α) : AuthAction α :=
  authStatement l fun env s => .ok (f env s, s)

/-- `AuditService.log`, which never throws. -/
def auditKey (entry : KeyAuditEntry) : AuthAction Unit :=
  Proc.call (.audit entry.action) fun env s =>
    (.ok (), if env.auditFails then s else { s with auditLog := s.auditLog ++ [entry] })

namespace AuthState

variable (s : AuthState)

def findBusiness (id : String) : Option BusinessRow := s.businesses.find? fun b => b.id = id

/-- `business.create`. -/
def createBusiness (b : BusinessRow) : Except Error (BusinessRow × AuthState) :=
  if ∃ x ∈ s.businesses, x.id = b.id then
    .error (.uniqueViolation "id")
  else if ∃ x ∈ s.businesses, x.email = b.email then
    .error (.uniqueViolation "email")
  else
    .ok (b, { s with businesses := s.businesses ++ [b] })

/-- `business.update`; the row as it is afterwards. -/
def updateBusiness (id : String) (set : BusinessRow → BusinessRow) :
    Except Error (BusinessRow × AuthState) :=
  match s.findBusiness id with
  | none => .error .recordNotFound
  | some b => .ok (set b, { s with businesses := updateRow BusinessRow.id id set s.businesses })

/-- `apiKey.create`. -/
def createApiKey (k : ApiKey) : Except Error (ApiKey × AuthState) :=
  if ∃ x ∈ s.apiKeys, x.id = k.id then
    .error (.uniqueViolation "id")
  else if ∃ x ∈ s.apiKeys, x.keyHash = k.keyHash then
    .error (.uniqueViolation "keyHash")
  else if ∀ b ∈ s.businesses, b.id ≠ k.businessId then
    .error (.foreignKeyViolation "ApiKey_businessId_fkey")
  else
    .ok (k, { s with apiKeys := s.apiKeys ++ [k] })

/-- `apiKey.update`. -/
def updateApiKey (id : String) (set : ApiKey → ApiKey) : Except Error (Unit × AuthState) :=
  if ∀ k ∈ s.apiKeys, k.id ≠ id then
    .error .recordNotFound
  else
    .ok ((), { s with apiKeys := updateRow ApiKey.id id set s.apiKeys })

/-- `apiKey.findUnique { keyHash }` with its business. -/
def findApiKey (keyHash : String) : Option (ApiKey × BusinessRow) :=
  (s.apiKeys.find? fun k => k.keyHash = keyHash).bind fun k =>
    (s.findBusiness k.businessId).map fun b => (k, b)

/-- `apiKey.findFirst { id, businessId }`. -/
def findApiKeyOf (id businessId : String) : Option ApiKey :=
  s.apiKeys.find? fun k => k.id = id ∧ k.businessId = businessId

end AuthState

/-! ### Credentials -/

/-- The fields that both DTOs have. A field is missing, `null` (`some none`), or a text; the
validation pipe admits all three. -/
structure CredentialsDto where
  nombaAccountId : Option (Option String) := none
  nombaSubAccountId : Option (Option String) := none
  nombaClientId : Option (Option String) := none
  nombaClientSecret : Option (Option String) := none
  nombaWebhookSecret : Option (Option String) := none
  webhookUrl : Option (Option String) := none
deriving DecidableEq, Repr

structure RegisterBusinessDto extends CredentialsDto where
  name : String
  email : String

/-- What the service is configured with: the two secrets of the environment. -/
structure AuthConfig where
  crypto : CryptoRuntime
  encryptionKey : String
  adminSecret : String

/-- `!!text`. -/
def isTruthy (text : Option String) : Bool := text.any fun s => s ≠ ""

theorem isTruthy_iff {text : Option String} : isTruthy text ↔ ∃ s, text = some s ∧ s ≠ "" := by
  cases text <;> simp [isTruthy]

namespace AuthService

variable (config : AuthConfig)

/-- The shared encryption key. -/
def encryptionKey : Vector UInt8 32 := CryptoUtils.deriveKey config.crypto config.encryptionKey

/-- What `crypto` throws for a value that is no text. -/
def invalidArgument (received : String) : Error :=
  .other <| "The \"data\" argument must be of type string or an instance of Buffer, TypedArray, " ++
    "or DataView. Received " ++ received

/-- A secret as it is stored. -/
def encryptField (iv : Vector UInt8 16) : Option (Option String) →
    Except Error (Option (Option String))
  | none => .ok none
  | some none => .error (invalidArgument "null")
  | some (some secret) =>
    .ok (some (some (CryptoUtils.encrypt config.crypto iv secret (encryptionKey config))))

/-- `encryptCredentials`: only the fields that are there are written. -/
def encryptCredentials (env : AuthEnv) (dto : CredentialsDto) : Except Error CredentialsDto := do
  let clientSecret ← encryptField config env.clientSecretIv dto.nombaClientSecret
  let webhookSecret ← encryptField config env.webhookSecretIv dto.nombaWebhookSecret
  return { dto with nombaClientSecret := clientSecret, nombaWebhookSecret := webhookSecret }

/-- A statement that writes the fields of a DTO. They are encrypted before it is made. -/
def writeCredentials {α : Type} (l : AuthCall) (dto : CredentialsDto)
    (f : AuthEnv → CredentialsDto → AuthState → Except Error (α × AuthState)) : AuthAction α :=
  Proc.call l fun env s =>
    match encryptCredentials config env dto with
    | .error e => (.error e, s)
    | .ok data => statementResult (fun env s => f env data s) env s

/-- `data` of an update: an absent column keeps its value. -/
def patch (data : CredentialsDto) (now : Nat) (b : BusinessRow) : BusinessRow :=
  { b with
    webhookUrl := data.webhookUrl.getD b.webhookUrl
    nombaAccountId := data.nombaAccountId.getD b.nombaAccountId
    nombaSubAccountId := data.nombaSubAccountId.getD b.nombaSubAccountId
    nombaClientId := data.nombaClientId.getD b.nombaClientId
    nombaClientSecret := data.nombaClientSecret.getD b.nombaClientSecret
    nombaWebhookSecret := data.nombaWebhookSecret.getD b.nombaWebhookSecret
    updatedAt := now }

structure DecryptedCredentials where
  nombaAccountId : String
  nombaSubAccountId : String
  nombaClientId : String
  nombaClientSecret : String
  nombaWebhookSecret : String
deriving DecidableEq, Repr

def notConfigured : Error :=
  .other "Nomba credentials are not fully configured for this business"

/-- All five are there, and not empty. -/
def IsConfigured (b : BusinessRow) : Prop :=
  isTruthy b.nombaAccountId ∧ isTruthy b.nombaSubAccountId ∧ isTruthy b.nombaClientId ∧
    isTruthy b.nombaClientSecret ∧ isTruthy b.nombaWebhookSecret

instance (b : BusinessRow) : Decidable (IsConfigured b) := inferInstanceAs (Decidable (_ ∧ _))

/-- `decryptWebhookSecret`. -/
def decryptWebhookSecret (encrypted : String) : Except Error String :=
  CryptoUtils.decrypt config.crypto encrypted (encryptionKey config)

/-- `getDecryptedCredentials`. -/
def getDecryptedCredentials (b : BusinessRow) : Except Error DecryptedCredentials :=
  if IsConfigured b then do
    let clientSecret ← CryptoUtils.decrypt config.crypto (b.nombaClientSecret.getD "")
      (encryptionKey config)
    let webhookSecret ← CryptoUtils.decrypt config.crypto (b.nombaWebhookSecret.getD "")
      (encryptionKey config)
    return {
      nombaAccountId := b.nombaAccountId.getD ""
      nombaSubAccountId := b.nombaSubAccountId.getD ""
      nombaClientId := b.nombaClientId.getD ""
      nombaClientSecret := clientSecret
      nombaWebhookSecret := webhookSecret }
  else .error notConfigured

/-! ### Businesses -/

def invalidAdminSecret : Error := .http 401 "Invalid admin secret" "INVALID_ADMIN_SECRET" []

/-- `assertAdminSecret`; a request without the header has no text to compare. -/
def assertAdminSecret (provided : Option String) : AuthAction Unit :=
  Proc.call .checkAdminSecret fun env s =>
    match provided with
    | none => (.error (invalidArgument "undefined"), s)
    | some secret =>
      if CryptoUtils.timingSafeCompare config.crypto env.hmacKey secret config.adminSecret then
        (.ok (), s)
      else (.error invalidAdminSecret, s)

structure RegisterBusinessResult where
  businessId : String
  name : String
deriving DecidableEq, Repr

def duplicateEmail (email : String) : Error :=
  .http 409 s!"A business with email '{email}' already exists" "DUPLICATE_EMAIL" []

/-- The row of a new business. -/
def newBusiness (dto : RegisterBusinessDto) (data : CredentialsDto) (row : Generated) : BusinessRow :=
  patch data row.createdAt
    { id := row.id, name := dto.name, email := dto.email, createdAt := row.createdAt }

/-- `registerBusiness`. -/
def registerBusiness (dto : RegisterBusinessDto) (adminSecret : Option String) :
    AuthAction RegisterBusinessResult := do
  assertAdminSecret config adminSecret
  let business ←
    try
      writeCredentials config (.createBusiness dto.email) dto.toCredentialsDto fun env data s =>
        s.createBusiness (newBusiness dto data env.row)
    catch err =>
      if err.hasCode "P2002" then throw (duplicateEmail dto.email) else throw err
  return ⟨business.id, business.name⟩

structure UpdateBusinessCredentialsResult where
  businessId : String
  name : String
  hasNombaCredentials : Bool
deriving DecidableEq, Repr

def businessNotFound : Error := .http 404 "Business not found" "BUSINESS_NOT_FOUND" []

/-- Whether a field is there, by the request or else by the row that was read:
`(given ?? existing) !== null`. -/
def isComplete (given : Option (Option String)) (existing : Option String) : Bool :=
  (given.join <|> existing).isSome

/-- The `hasNombaCredentials` that an update answers with. -/
def mergedComplete (dto : CredentialsDto) (existing : BusinessRow) : Bool :=
  isComplete dto.nombaAccountId existing.nombaAccountId &&
    isComplete dto.nombaSubAccountId existing.nombaSubAccountId &&
    isComplete dto.nombaClientId existing.nombaClientId &&
    isComplete dto.nombaClientSecret existing.nombaClientSecret &&
    isComplete dto.nombaWebhookSecret existing.nombaWebhookSecret

/-- `updateBusinessCredentials`. -/
def updateBusinessCredentials (businessId : String) (dto : CredentialsDto)
    (adminSecret : Option String) : AuthAction UpdateBusinessCredentialsResult := do
  assertAdminSecret config adminSecret
  let existing ← authFind (.findBusiness businessId) fun _ s => s.findBusiness businessId
  match existing with
  | none => throw businessNotFound
  | some existing => do
    let updated ← writeCredentials config (.updateBusiness businessId) dto fun env data s =>
      s.updateBusiness businessId (patch data env.now)
    return ⟨updated.id, updated.name, mergedComplete dto existing⟩

structure BusinessProfileResult where
  id : String
  name : String
  email : String
  webhookUrl : Option String
  nombaAccountId : Option String
  nombaSubAccountId : Option String
  nombaClientId : Option String
  nombaClientSecretSet : Bool
  nombaWebhookSecretSet : Bool
  hasNombaCredentials : Bool
  createdAt : Nat
  updatedAt : Nat
deriving DecidableEq, Repr

/-- What is shown of a business. -/
def profile (b : BusinessRow) : BusinessProfileResult where
  id := b.id
  name := b.name
  email := b.email
  webhookUrl := b.webhookUrl
  nombaAccountId := b.nombaAccountId
  nombaSubAccountId := b.nombaSubAccountId
  nombaClientId := b.nombaClientId
  nombaClientSecretSet := isTruthy b.nombaClientSecret
  nombaWebhookSecretSet := isTruthy b.nombaWebhookSecret
  hasNombaCredentials := decide (IsConfigured b)
  createdAt := b.createdAt
  updatedAt := b.updatedAt

/-- `getMyBusiness`. -/
def getMyBusiness (businessId : String) : AuthAction BusinessProfileResult := do
  let business ← authFind (.findBusiness businessId) fun _ s => s.findBusiness businessId
  match business with
  | none => throw (.other "Business not found")
  | some business => return profile business

/-! ### API keys -/

/-- `createHash('sha256').update(rawKey).digest('hex')`. -/
def hashKey (crypto : CryptoRuntime) (rawKey : String) : String :=
  hexText (crypto.sha256 (utf8 rawKey)).toList

/-- The key that is made of 32 random bytes. -/
def rawKeyOf (secret : Vector UInt8 32) : String := "acctos_live_" ++ hexText secret.toList

/-- What is stored of a key in clear: its first 20 characters. -/
def keyPrefixOf (rawKey : String) : String := String.ofList (rawKey.toList.take 20)

/-- `expiresAt` is the time of the text, which the validation pipe has checked. -/
structure CreateApiKeyDto where
  businessId : String
  name : String
  expiresAt : Option Nat := none
deriving DecidableEq, Repr

/-- The row of a new key. -/
def newApiKey (crypto : CryptoRuntime) (dto : CreateApiKeyDto) (env : AuthEnv) : ApiKey where
  id := env.row.id
  keyHash := hashKey crypto (rawKeyOf env.secret)
  keyPrefix := keyPrefixOf (rawKeyOf env.secret)
  name := dto.name
  businessId := dto.businessId
  expiresAt := dto.expiresAt
  createdAt := env.row.createdAt

structure CreateApiKeyResult where
  keyId : String
  key : String
  keyPrefix : String
  name : String
deriving DecidableEq, Repr

/-- The audit entry of a key, which has no more of it than its prefix. -/
def keyMetadata (k : ApiKey) : List (String × Json) :=
  [("keyId", .str k.id), ("keyPrefix", .str k.keyPrefix), ("name", .str k.name)]

/-- `createApiKey`; the key itself is in the answer and nowhere else. -/
def createApiKey (dto : CreateApiKeyDto) (adminSecret : Option String) :
    AuthAction CreateApiKeyResult := do
  assertAdminSecret config adminSecret
  let (apiKey, rawKey) ← authStatement (.createApiKey dto.businessId) fun env s =>
    (s.createApiKey (newApiKey config.crypto dto env)).map fun (k, s') => ((k, rawKeyOf env.secret), s')
  auditKey {
    businessId := dto.businessId
    actor := "admin"
    action := .apiKeyCreated
    metadata := keyMetadata apiKey }
  return { keyId := apiKey.id, key := rawKey, keyPrefix := apiKey.keyPrefix, name := apiKey.name }

def invalidApiKey : Error := .http 401 "Invalid API key" "INVALID_API_KEY" []

def apiKeyRevoked : Error := .http 401 "API key has been revoked" "API_KEY_REVOKED" []

def apiKeyExpired : Error := .http 401 "API key has expired" "API_KEY_EXPIRED" []

/-- What is checked of a key that was found. -/
def checkApiKey (now : Nat) : Option (ApiKey × BusinessRow) → Except Error (ApiKey × BusinessRow)
  | none => .error invalidApiKey
  | some (k, b) =>
    if k.revokedAt.isSome then .error apiKeyRevoked
    else if ∃ t ∈ k.expiresAt, t < now then .error apiKeyExpired
    else .ok (k, b)

/-- The time a key was last used. -/
def touchApiKey (id : String) : AuthAction Unit :=
  authStatement (.touchApiKey id) fun env s =>
    s.updateApiKey id fun k => { k with lastUsedAt := some env.now }

/-- `validateApiKey`. The update at its end is not awaited: it may fail, and one that is late is the
call of another thread. -/
def validateApiKey (rawKey : String) : AuthAction (ApiKey × BusinessRow) := do
  let keyHash := hashKey config.crypto rawKey
  let (found, now) ← authFind (.findApiKey keyHash) fun env s => (s.findApiKey keyHash, env.now)
  let (k, b) ← Proc.ofExcept (checkApiKey now found)
  (touchApiKey k.id).catching fun _ => return
  return (k, b)

def apiKeyNotFound : Error := .http 404 "API key not found" "INVALID_API_KEY" []

/-- `revokeApiKey`. -/
def revokeApiKey (keyId businessId actor : String) : AuthAction Unit := do
  let apiKey ← authFind (.findApiKeyOf keyId businessId) fun _ s => s.findApiKeyOf keyId businessId
  match apiKey with
  | none => throw apiKeyNotFound
  | some apiKey => do
    authStatement (.revokeApiKey keyId) fun env s =>
      s.updateApiKey keyId fun k => { k with revokedAt := some env.now }
    auditKey { businessId, actor, action := .apiKeyRevoked, metadata := keyMetadata apiKey }

structure ApiKeyListItem where
  id : String
  keyPrefix : String
  name : String
  lastUsedAt : Option Nat
  createdAt : Nat
  revokedAt : Option Nat
deriving DecidableEq, Repr

def listItem (k : ApiKey) : ApiKeyListItem :=
  ⟨k.id, k.keyPrefix, k.name, k.lastUsedAt, k.createdAt, k.revokedAt⟩

/-- `listApiKeys`, the newest key first; `rank` orders keys of one time. -/
def listApiKeys (businessId : String) : AuthAction (List ApiKeyListItem) :=
  authFind (.listApiKeys businessId) fun env s =>
    (selectRows { selects := fun k => k.businessId = businessId }
      (latestFirst ApiKey.createdAt ApiKey.id env.rank) s.apiKeys).map listItem

end AuthService

/-! ### The guard -/

namespace ApiKeyGuard

def missingApiKey : Error := .http 401 "Missing API key" "MISSING_API_KEY" []

/-- `canActivate` on a route that is not public: the key and the business that the request goes on
with. An empty header is no header. -/
def canActivate (config : AuthConfig) (rawKey : Option String) :
    AuthAction (ApiKey × BusinessRow) :=
  if rawKey.getD "" = "" then throw missingApiKey
  else AuthService.validateApiKey config (rawKey.getD "")

end ApiKeyGuard

end AccountOS
