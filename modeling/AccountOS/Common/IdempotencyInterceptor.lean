import AccountOS.Conc.Beside
import AccountOS.Store.Client

/-!
# The idempotency interceptor

`IdempotencyInterceptor.intercept` wraps the handler of every request. The table of the keys is its
own: no service reads or writes it, so the handlers run beside it. The key is stored after the
handler has succeeded, by a statement that nobody awaits: the response is on its way by then, and
other requests may be served before the row is there.
-/

namespace AccountOS

open Conc

/-! ### Requests -/

/-- What the interceptor reads of a request, with the status that its route answers with. -/
structure HttpContext where
  method : String
  path : String
  idempotencyKey : Option String := none
  body : Option Json := none
  businessId : Option String := none
  statusCode : Nat := 201

/-- What makes two requests one. -/
structure KeyedRequest where
  businessId : String
  key : String
  requestHash : String
deriving DecidableEq, Repr

/-- Without the query, and without a trailing slash. -/
def normalizePath (path : String) : String :=
  let withoutQuery := path.toList.takeWhile (· ≠ '?')
  let stripped := if withoutQuery.getLast? = some '/' then withoutQuery.dropLast else withoutQuery
  if stripped = [] then "/" else String.ofList stripped

/-- The requests that the interceptor applies to: a POST with a key and with a business. An empty
header is no header. `requestHash` is the SHA-256 of a body's JSON text. -/
def HttpContext.keyed (requestHash : Json → String) (context : HttpContext) :
    Option KeyedRequest :=
  if context.method.toUpper ≠ "POST" then none
  else
    match context.idempotencyKey, context.businessId with
    | some key, some businessId =>
      if key = "" ∨ businessId = "" then none
      else some ⟨businessId, key, requestHash (context.body.getD (.obj []))⟩
    | _, _ => none

/-! ### The table of keys -/

/-- A row of `IdempotencyKey`. -/
structure IdempotencyKey where
  key : String
  businessId : String
  method : String
  path : String
  requestHash : String
  responseStatus : Nat
  responseBody : Json

/-- The world of the services, and the keys beside it. -/
abbrev ServerState := World × List IdempotencyKey

/-- What happens while a request is served. `emit` is a result of the handler on its way to the
client, `replay` a stored response. -/
inductive ServerCall
  | findIdempotencyKey (businessId key : String)
  | handler (l : Call)
  | emit (result : Except Error Json)
  | replay (body : Json)
  | createIdempotencyKey (businessId key : String)

/-- Serving a request. -/
abbrev Serving := Proc ServerState Env ServerCall Error

/-- The row of a unique `(businessId, key)`. -/
def lookupKey (rows : List IdempotencyKey) (businessId key : String) : Option IdempotencyKey :=
  rows.find? fun r => r.businessId = businessId ∧ r.key = key

def findIdempotencyKey (businessId key : String) : Serving (Option IdempotencyKey) :=
  Proc.call (.findIdempotencyKey businessId key) fun env s =>
    match env.fault with
    | some f => (.error f.error, s)
    | none => (.ok (lookupKey s.2 businessId key), s)

/-- The insert, with the constraints of the table. -/
def insertKey (row : IdempotencyKey) (s : ServerState) : Except Error (List IdempotencyKey) :=
  if (lookupKey s.2 row.businessId row.key).isSome then
    .error (.uniqueViolation "businessId,key")
  else if ∃ b ∈ s.1.db.businesses, b.id = row.businessId then .ok (s.2 ++ [row])
  else .error (.foreignKeyViolation "IdempotencyKey_businessId_fkey")

def createIdempotencyKey (row : IdempotencyKey) : Serving Unit :=
  Proc.call (.createIdempotencyKey row.businessId row.key) fun env s =>
    match env.fault with
    | some f => (.error f.error, s)
    | none =>
      match insertKey row s with
      | .ok rows => (.ok (), s.1, rows)
      | .error e => (.error e, s)

/-! ### The interceptor -/

/-- `next.handle()`. -/
def handle (handler : Action Json) : Serving (Except Error Json) :=
  (handler.beside ServerCall.handler).attempt

def emit (result : Except Error Json) : Serving Unit :=
  Proc.call (.emit result) fun _ s => (.ok (), s)

def replay (body : Json) : Serving Unit :=
  Proc.call (.replay body) fun _ s => (.ok (), s)

def idempotencyKeyConflict : Error :=
  .http 409 "Idempotency-Key already used with a different request body" "IDEMPOTENCY_KEY_CONFLICT"
    []

/-- The row that is stored for a response. -/
def KeyedRequest.row (q : KeyedRequest) (context : HttpContext) (body : Json) : IdempotencyKey where
  key := q.key
  businessId := q.businessId
  method := context.method.toUpper
  path := normalizePath context.path
  requestHash := q.requestHash
  responseStatus := context.statusCode
  responseBody := body

/-- `IdempotencyInterceptor.intercept`, up to the end of what it has started. -/
def intercept (requestHash : Json → String) (context : HttpContext) (handler : Action Json) :
    Serving Unit :=
  match context.keyed requestHash with
  | none => do
    let result ← handle handler
    emit result
  | some q => do
    let existing ← findIdempotencyKey q.businessId q.key
    match existing with
    | some row =>
      if row.requestHash = q.requestHash then replay row.responseBody
      else throw idempotencyKeyConflict
    | none =>
      let result ← handle handler
      emit result
      match result with
      | .error _ => return
      | .ok body =>
        -- not awaited; a failure is only logged
        (createIdempotencyKey (q.row context body)).catching fun _ => return

end AccountOS
