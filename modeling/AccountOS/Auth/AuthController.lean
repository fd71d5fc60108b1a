import AccountOS.Auth.AuthService
import AccountOS.Conc.Trace

/-!
# `AuthController`

Two kinds of requests manage the API keys: those of a business with a key of its own, and those of
whoever has the admin secret. Other requests come no further than the guard, as far as the tables of
`AuthService` go.
-/

namespace AccountOS

open Conc

/-- What a business can do with its keys. -/
inductive KeyRoute
  | getMyBusiness
  | listApiKeys
  | revokeApiKey (id : String)

/-- The handler, for the key and the business that the guard has attached to the request. -/
def KeyRoute.run (k : ApiKey) (b : BusinessRow) : KeyRoute → AuthAction Unit
  | getMyBusiness => (AuthService.getMyBusiness b.id).bind fun _ => .ret ()
  | listApiKeys => (AuthService.listApiKeys b.id).bind fun _ => .ret ()
  | revokeApiKey id => AuthService.revokeApiKey id b.id k.keyPrefix

/-- What takes the admin secret. -/
inductive AdminRoute
  | registerBusiness (dto : RegisterBusinessDto)
  | updateBusinessCredentials (businessId : String) (dto : CredentialsDto)
  | createApiKey (dto : AuthService.CreateApiKeyDto)

def AdminRoute.run (config : AuthConfig) (adminSecret : Option String) : AdminRoute → AuthAction Unit
  | registerBusiness dto => (AuthService.registerBusiness config dto adminSecret).bind fun _ => .ret ()
  | updateBusinessCredentials businessId dto =>
    (AuthService.updateBusinessCredentials config businessId dto adminSecret).bind fun _ => .ret ()
  | createApiKey dto => (AuthService.createApiKey config dto adminSecret).bind fun _ => .ret ()

/-- What a request does with the tables of `AuthService`. `guarded` is one that is served by another
service. `lateTouch` is an update of `lastUsedAt` that its request did not await, and `idle` a thread
that has nothing to do here. -/
inductive AuthThread
  | guarded (rawKey : Option String)
  | keys (rawKey : Option String) (route : KeyRoute)
  | admin (adminSecret : Option String) (route : AdminRoute)
  | lateTouch (id : String)
  | idle

namespace AuthThread

/-- The key that the request presents. -/
def rawKey : AuthThread → Option String
  | guarded rawKey | keys rawKey _ => rawKey
  | _ => none

/-- A guarded request for the keys; none of its routes is a POST. -/
def serveKeys (config : AuthConfig) (rawKey : Option String) (route : KeyRoute) : AuthAction Unit :=
  do
  let (k, b) ← ApiKeyGuard.canActivate config rawKey
  route.run k b

def run (config : AuthConfig) : AuthThread → AuthAction Unit
  | guarded rawKey => (ApiKeyGuard.canActivate config rawKey).bind fun _ => .ret ()
  | keys rawKey route => serveKeys config rawKey route
  | admin adminSecret route => route.run config adminSecret
  | lateTouch id => (AuthService.touchApiKey id).catching fun _ => .ret ()
  | idle => .ret ()

end AuthThread

/-- The call looks up a key, finds the row `k` of the business `b`, and the row is good: it is
neither revoked nor expired. -/
structure Accepted {ι : Type} (ev : Event ι AuthState AuthEnv AuthCall) (keyHash : String)
    (k : ApiKey) (b : BusinessRow) : Prop where
  call : ev.call = .findApiKey keyHash
  found : ev.before.findApiKey keyHash = some (k, b)
  notRevoked : k.revokedAt = none
  notExpired : ∀ t ∈ k.expiresAt, ev.choice.now ≤ t

/-- A lookup of the key was accepted. -/
def LookedUp {ι : Type} (config : AuthConfig) (rawKey : Option String)
    (past : List (Event ι AuthState AuthEnv AuthCall)) (k : ApiKey) (b : BusinessRow) : Prop :=
  ∃ raw, rawKey = some raw ∧ ∃ ev ∈ past, Accepted ev (AuthService.hashKey config.crypto raw) k b

/-- The call compares a secret with the admin secret, and lets it pass. -/
structure AdminAccepted {ι : Type} (config : AuthConfig) (adminSecret : Option String)
    (ev : Event ι AuthState AuthEnv AuthCall) : Prop where
  call : ev.call = .checkAdminSecret
  equal : ∃ secret, adminSecret = some secret ∧ CryptoUtils.timingSafeCompare config.crypto
    ev.choice.hmacKey secret config.adminSecret

end AccountOS
