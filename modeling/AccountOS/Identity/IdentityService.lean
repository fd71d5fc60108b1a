import AccountOS.Rules.RuleEngine
import AccountOS.Store.Registry

/-!
# `IdentityService`: the name and the KYC tier of a customer

A customer's names are kept in a history, which starts with the empty one (EC-01). A rule records
the tier its customer had when it was written. When the tier changes, the rules in force that were
written for another tier are flagged for review (EC-03).
-/

namespace AccountOS

open Conc Sql

/-! ### Queries -/

namespace Db

/-- `customer.findFirst { id, businessId }`. -/
def findCustomerOf (db : Db) (id businessId : String) : Option Customer :=
  db.customers.find? fun c => c.id = id ∧ c.businessId = businessId

theorem findCustomerOf_eq_some {db : Db} {id businessId : String} {c : Customer}
    (h : db.findCustomerOf id businessId = some c) :
    c ∈ db.customers ∧ c.id = id ∧ c.businessId = businessId :=
  ⟨List.mem_of_find?_eq_some h, by simpa using List.find?_some h⟩

/-- The history of a customer's names, `ORDER BY changedAt`. -/
def nameHistoryOf (db : Db) (customerId : String) : List NameHistoryEntry :=
  (db.nameHistory.filter fun h => h.customerId = customerId).insertionSort
    fun h h' => h.changedAt ≤ h'.changedAt

end Db

/-! ### `createCustomer` and `renameCustomer` -/

structure CreateCustomerDto where
  displayName : String
  bvnRef : Option String := none
  parentId : Option String := none
deriving DecidableEq, Repr

/-- The tier is derived from the presence of `bvnRef`. -/
def CreateCustomerDto.derivedTier (dto : CreateCustomerDto) : KycTier :=
  match dto.bvnRef with
  | some ref => if ref = "" then .tier0 else .tier1
  | none => .tier0

/-- A customer with the history of its names. -/
structure NamedCustomer where
  customer : Customer
  nameHistory : List NameHistoryEntry
deriving DecidableEq, Repr

/-- The new customer. -/
def CreateCustomerDto.customer (dto : CreateCustomerDto) (businessId : String) (row : Generated) :
    Customer where
  id := row.id
  displayName := dto.displayName
  kycTier := dto.derivedTier
  businessId := businessId
  bvnRef := dto.bvnRef
  parentId := dto.parentId

/-- The first entry of its history. -/
def CreateCustomerDto.firstName (dto : CreateCustomerDto) (customerId : String) (row : Generated) :
    NameHistoryEntry where
  id := row.id
  customerId := customerId
  previousName := ""
  newName := dto.displayName
  changedBy := "system"
  changedAt := row.createdAt

/-- `IdentityService.createCustomer`. -/
def createCustomer (dto : CreateCustomerDto) (businessId : String) : Action NamedCustomer := do
  let created ← register (.createCustomer businessId dto.parentId)
    (fun env => .createCustomer (dto.customer businessId env.row)
      (dto.firstName env.row.id env.row₂))
    fun env _ => ⟨dto.customer businessId env.row, [dto.firstName env.row.id env.row₂]⟩
  audit {
    actor := "system"
    action := .customerCreated
    customerId := some created.customer.id
    businessId := some businessId
    afterState := [
      ("displayName", .str created.customer.displayName),
      ("kycTier", .str (toString created.customer.kycTier))] }
  return created

structure RenameCustomerDto where
  newName : String
  reason : Option String := none
deriving DecidableEq, Repr

/-- The entry that a rename adds to the history. -/
def RenameCustomerDto.entry (dto : RenameCustomerDto) (id previousName actor : String)
    (row : Generated) : NameHistoryEntry where
  id := row.id
  customerId := id
  previousName := previousName
  newName := dto.newName
  reason := dto.reason
  changedBy := actor
  changedAt := row.createdAt

/-- `IdentityService.renameCustomer`. -/
def renameCustomer (id : String) (dto : RenameCustomerDto) (businessId actor : String) :
    Action (Option NamedCustomer) := do
  let customer ← find (.findCustomer id) fun _ db => db.findCustomerOf id businessId
  match customer with
  | none => throw (.http 404 s!"No customer found with id: {id}" "CUSTOMER_NOT_FOUND" [])
  | some customer => do
    let previousName := customer.displayName
    let updated ← register (.updateCustomer id)
      (fun env => .renameCustomer id dto.newName (dto.entry id previousName actor env.row))
      fun _ db => (db.findCustomer id).map fun c => ⟨c, db.nameHistoryOf id⟩
    audit {
      actor
      action := .customerRenamed
      customerId := some id
      businessId := some businessId
      beforeState := [("displayName", .str previousName)]
      afterState := [("displayName", .str dto.newName)]
      reasonCode := dto.reason }
    return updated

/-! ### `updateKycTier` -/

structure UpdateKycTierDto where
  kycTier : KycTier
  reason : Option String := none
  verificationProvider : Option String := none
  verificationRef : Option String := none
deriving DecidableEq, Repr

namespace Db

/-- The ACTIVE rules on a customer's accounts that were written for another tier. -/
def staleRules (db : Db) (customerId businessId : String) (newTier : KycTier) : List Rule :=
  db.rules.filter fun r => r.status = .active ∧ r.kycTierAtCreation ≠ newTier ∧
    ∃ a ∈ db.accounts, a.id = r.accountId ∧ a.customerId = some customerId ∧
      ∃ c ∈ db.customers, c.id = customerId ∧ c.businessId = businessId

end Db

/-- An audit entry for each flagged rule. -/
def auditFlagged (entry : Rule → AuditLogEntry) : List Rule → Action Unit
  | [] => return ()
  | rule :: rules => do
    audit (entry rule)
    auditFlagged entry rules

/-- Flag the rules that are stale. -/
def flagStaleRules (customerId : String) (entry : Rule → AuditLogEntry) (staleRules : List Rule) :
    Action Unit :=
  if staleRules = [] then
    return ()
  else do
    statement (.flagRules customerId) fun _ => .flagRules (staleRules.map Rule.id)
    auditFlagged entry staleRules

structure UpdateKycTierResult where
  customerId : String
  previousTier : KycTier
  newTier : KycTier
  flaggedRuleIds : List String
deriving DecidableEq, Repr

/-- `IdentityService.updateKycTier`. -/
def updateKycTier (id : String) (dto : UpdateKycTierDto) (businessId actor : String) :
    Action UpdateKycTierResult := do
  let customer ← find (.findCustomer id) fun _ db => db.findCustomerOf id businessId
  match customer with
  | none => throw (.http 404 s!"No customer found with id: {id}" "CUSTOMER_NOT_FOUND" [])
  | some customer => do
    let previousTier := customer.kycTier
    statement (.updateCustomer id) fun _ => .updateCustomerTier id dto.kycTier
    let staleRules ← find (.findStaleRules id) fun _ db => db.staleRules id businessId dto.kycTier
    flagStaleRules id (fun rule => {
      actor
      action := .ruleFlaggedKycChange
      accountId := some rule.accountId
      customerId := some id
      businessId := some businessId
      reasonCode := dto.reason
      metadata := [
        ("ruleId", .str rule.id),
        ("previousTier", .str (toString previousTier)),
        ("newTier", .str (toString dto.kycTier))] }) staleRules
    audit {
      actor
      action := .kycTierChanged
      customerId := some id
      businessId := some businessId
      beforeState := [("kycTier", .str (toString previousTier))]
      afterState := [("kycTier", .str (toString dto.kycTier))]
      reasonCode := dto.reason
      metadata := [
        ("verificationProvider", .ofOption dto.verificationProvider),
        ("verificationRef", .ofOption dto.verificationRef),
        ("flaggedRuleIds", .arr (staleRules.map fun r => .str r.id))] }
    return ⟨id, previousTier, dto.kycTier, staleRules.map Rule.id⟩

end AccountOS
