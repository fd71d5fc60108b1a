import AccountOS.Conc.Trace
import AccountOS.Store.Alone

/-!
# The calls of a service, after those it has made

For each kind of call, what has to be shown of it in terms of the calls that the thread has made
before (`AccountOS.Conc.Trace`).
-/

namespace AccountOS

open Conc Sql

/-- Calls of a service, in the order in which they were made. -/
abbrev Calls (ι : Type) := List (Event ι World Env Call)

variable {ι α : Type} {i : ι} {K : Calls ι → Event ι World Env Call → Prop}
  {E : Error → Calls ι → Prop} {past : Calls ι}

/-- A call that may change data: it commits or it is thrown back. -/
theorem traced_transaction {Q : α → Calls ι → Prop} {l : Call} {body : Env → TxBody α}
    {inside : Env → α → World → World} (hinside : LogsOnly inside)
    (hok : ∀ env w a db w', (body env).run schema w.db = .ok (a, db) →
      w' = { inside env a w with db } →
      K past ⟨i, l, env, w, w'⟩ ∧ Q a (past ++ [⟨i, l, env, w, w'⟩]))
    (herr : ∀ env w e w', World.SameData w w' →
      K past ⟨i, l, env, w, w'⟩ ∧ E e (past ++ [⟨i, l, env, w, w'⟩])) :
    (transaction l body inside).Traced i K Q E past := by
  refine Proc.Traced.call fun env w => ?_
  rcases transactionStep_cases body hinside env w with
    ⟨a, db, -, hrun, hstep⟩ | ⟨e, w', hstep, hthrown⟩
  · rw [hstep]
    obtain ⟨hK, hQ⟩ := hok env w a db _ hrun rfl
    refine ⟨hK, fun a' ha => ?_, fun e he => by simp at he⟩
    cases ha
    exact hQ
  · rw [hstep]
    obtain ⟨hK, hE⟩ := herr env w e w' hthrown.same
    refine ⟨hK, fun a ha => by simp at ha, fun e' he => ?_⟩
    cases he
    exact hE

/-- A single writing statement. -/
theorem traced_statement {Q : Unit → Calls ι → Prop} {l : Call} {op : Env → WriteOp}
    (hok : ∀ env w db w', (op env).apply w.db = .ok db → w' = { w with db } →
      K past ⟨i, l, env, w, w'⟩ ∧ Q () (past ++ [⟨i, l, env, w, w'⟩]))
    (herr : ∀ env w e w', World.SameData w w' →
      K past ⟨i, l, env, w, w'⟩ ∧ E e (past ++ [⟨i, l, env, w, w'⟩])) :
    (statement l op).Traced i K Q E past := by
  refine Proc.Traced.call fun env w => ?_
  rcases statementStep_cases op env w with ⟨-, db, hdb, hstep⟩ | ⟨e, w', hstep, hsame, -⟩
  · rw [hstep]
    obtain ⟨hK, hQ⟩ := hok env w db _ hdb rfl
    exact ⟨hK, fun _ _ => hQ, fun e he => by simp at he⟩
  · rw [hstep]
    obtain ⟨hK, hE⟩ := herr env w e w' hsame
    refine ⟨hK, fun a ha => by simp at ha, fun e' he => ?_⟩
    cases he
    exact hE

/-- A single reading statement. -/
theorem traced_find {Q : α → Calls ι → Prop} {l : Call} {f : Env → Db → α}
    (hok : ∀ env w, K past ⟨i, l, env, w, w⟩ ∧ Q (f env w.db) (past ++ [⟨i, l, env, w, w⟩]))
    (herr : ∀ env w e w', World.SameData w w' →
      K past ⟨i, l, env, w, w'⟩ ∧ E e (past ++ [⟨i, l, env, w, w'⟩])) :
    (find l f).Traced i K Q E past := by
  refine Proc.Traced.call fun env w => ?_
  rcases findStep_cases f env w with ⟨-, hstep⟩ | ⟨e, w', hstep, hsame, -⟩
  · rw [hstep]
    obtain ⟨hK, hQ⟩ := hok env w
    refine ⟨hK, fun a ha => ?_, fun e he => by simp at he⟩
    cases ha
    exact hQ
  · rw [hstep]
    obtain ⟨hK, hE⟩ := herr env w e w' hsame
    refine ⟨hK, fun a ha => by simp at ha, fun e' he => ?_⟩
    cases he
    exact hE

/-- An audit entry. -/
theorem traced_audit {Q : Unit → Calls ι → Prop} {entry : AuditLogEntry}
    (h : ∀ env w w', World.SameData w w' → K past ⟨i, .audit entry.action, env, w, w'⟩ ∧
      Q () (past ++ [⟨i, .audit entry.action, env, w, w'⟩])) :
    (audit entry).Traced i K Q E past := by
  refine Proc.Traced.call fun env w => ?_
  obtain ⟨hK, hQ⟩ := h env w _ (w.sameData_log env entry)
  exact ⟨hK, fun _ _ => hQ, fun e he => by simp at he⟩

/-- The request to expire a virtual account: it has no effect here, whatever Nomba answers. -/
theorem traced_expireDva {Q : Unit → Calls ι → Prop} {id : String}
    (h : ∀ env w, K past ⟨i, .expireDva id, env, w, w⟩ ∧
      Q () (past ++ [⟨i, .expireDva id, env, w, w⟩]) ∧
      ∀ e, E e (past ++ [⟨i, .expireDva id, env, w, w⟩])) :
    (expireDva id).Traced i K Q E past := by
  refine Proc.Traced.call fun env w => ?_
  obtain ⟨hK, hQ, hE⟩ := h env w
  cases env.fault with
  | none => exact ⟨hK, fun _ _ => hQ, fun e he => by simp at he⟩
  | some f => exact ⟨hK, fun a ha => by simp at ha, fun e _ => hE e⟩

/-- The request to pay: Nomba confirms the transfer, or it is thrown. -/
theorem traced_bankTransfer {Q : BankTransferRequest → Calls ι → Prop} {settlementId : String}
    {request : Env → BankTransferRequest}
    (hok : ∀ env w w', w' = { w with transfers := w.transfers ++ [⟨settlementId, request env⟩] } →
      K past ⟨i, .bankTransfer settlementId, env, w, w'⟩ ∧
        Q (request env) (past ++ [⟨i, .bankTransfer settlementId, env, w, w'⟩]))
    (herr : ∀ env w e, K past ⟨i, .bankTransfer settlementId, env, w, w⟩ ∧
      E e (past ++ [⟨i, .bankTransfer settlementId, env, w, w⟩])) :
    (bankTransfer settlementId request).Traced i K Q E past := by
  refine Proc.Traced.call fun env w => ?_
  cases env.fault with
  | none =>
    obtain ⟨hK, hQ⟩ := hok env w _ rfl
    refine ⟨hK, fun a ha => ?_, fun e he => by simp at he⟩
    cases ha
    exact hQ
  | some f =>
    obtain ⟨hK, hE⟩ := herr env w f.error
    refine ⟨hK, fun a ha => by simp at ha, fun e he => ?_⟩
    cases he
    exact hE

/-- The request for a virtual account, which changes no data. -/
theorem traced_provisionDva {Q : ProvisionDvaResult → Calls ι → Prop} {accountRef : String}
    (h : ∀ env w, K past ⟨i, .provisionDva accountRef, env, w, w⟩ ∧
      Q env.dva (past ++ [⟨i, .provisionDva accountRef, env, w, w⟩]) ∧
      ∀ e, E e (past ++ [⟨i, .provisionDva accountRef, env, w, w⟩])) :
    (provisionDva accountRef).Traced i K Q E past := by
  refine Proc.Traced.call fun env w => ?_
  obtain ⟨hK, hQ, hE⟩ := h env w
  cases env.fault with
  | none =>
    refine ⟨hK, fun a ha => ?_, fun e he => by simp at he⟩
    cases ha
    exact hQ
  | some f => exact ⟨hK, fun a ha => by simp at ha, fun e _ => hE e⟩

end AccountOS
