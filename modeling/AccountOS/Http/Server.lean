import AccountOS.Auth.AuthController
import AccountOS.Common.IdempotencyInterceptor
import AccountOS.Conc.Within

/-!
# The server

A request to a route that is not public passes the guard of the API keys, then the idempotency
interceptor, and then its handler runs as the business of the key. The tables of the guard, the keys
of the interceptor and the tables of the services are three parts of one state.
-/

namespace AccountOS

open Conc

/-! ### The parts of the server -/

abbrev HttpState := AuthState × ServerState

/-- The environment's choice at one call, wherever it is made. -/
structure HttpEnv where
  auth : AuthEnv := {}
  service : Env := {}

inductive HttpCall
  | auth (l : AuthCall)
  | server (l : ServerCall)

/-- A thread of the server. -/
abbrev HttpAction := Proc HttpState HttpEnv HttpCall Error

/-- `AuthService` with its tables. -/
def authPart : Part HttpState AuthState HttpEnv AuthEnv HttpCall AuthCall where
  get s := s.1
  put a s := (a, s.2)
  choice := HttpEnv.auth
  label := .auth
  own
    | .auth l => some l
    | .server _ => none
  get_put _ _ := rfl
  own_label _ := rfl

/-- The interceptor and the services behind it. -/
def servingPart : Part HttpState ServerState HttpEnv Env HttpCall ServerCall where
  get s := s.2
  put t s := (s.1, t)
  choice := HttpEnv.service
  label := .server
  own
    | .auth _ => none
    | .server l => some l
  get_put _ _ := rfl
  own_label _ := rfl

/-- The services alone. -/
def worldPart : Part HttpState World HttpEnv Env HttpCall Call where
  get s := s.2.1
  put w s := (s.1, w, s.2.2)
  choice := HttpEnv.service
  label l := .server (.handler l)
  own
    | .server (.handler l) => some l
    | _ => none
  get_put _ _ := rfl
  own_label _ := rfl

/-! ### Requests -/

/-- What a thread of the server is there for. `api` is a request to a guarded route of one of the
services, `auth` one that only `AuthService` serves. `background` is what runs on the tables of the
services without a key: a public route, a worker or a scheduled job. -/
inductive HttpThread
  | api (rawKey : Option String) (context : HttpContext)
    (handler : ApiKey → BusinessRow → Action Json)
  | auth (thread : AuthThread)
  | background (p : Action Json)

namespace HttpThread

/-- A guarded request: the guard, the interceptor, the handler. -/
def serveApi (config : AuthConfig) (requestHash : Json → String) (rawKey : Option String)
    (context : HttpContext) (handler : ApiKey → BusinessRow → Action Json) : HttpAction Unit := do
  let (k, b) ← (ApiKeyGuard.canActivate config rawKey).within authPart
  (intercept requestHash { context with businessId := some b.id } (handler k b)).within servingPart

def run (config : AuthConfig) (requestHash : Json → String) : HttpThread → HttpAction Unit
  | api rawKey context handler => serveApi config requestHash rawKey context handler
  | auth thread => (thread.run config).within authPart
  | background p => (p.bind fun _ => .ret ()).within worldPart

/-- What the thread does with the tables of `AuthService`. -/
def authThread : HttpThread → AuthThread
  | api rawKey _ _ => .guarded rawKey
  | auth thread => thread
  | background _ => .idle

/-- What the thread does on the tables of the services, when it goes on as `who`. -/
def service (who : Option (ApiKey × BusinessRow)) : HttpThread → Action Json
  | api _ _ handler =>
    match who with
    | some (k, b) => handler k b
    | none => .ret .null
  | auth _ => .ret .null
  | background p => p

end HttpThread

end AccountOS
