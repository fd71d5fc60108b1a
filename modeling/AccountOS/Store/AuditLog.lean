import AccountOS.Store.Alone

/-!
# What a method writes to the audit log

The audit log only grows. A method writes entries of one kind alone when each of its calls does.
-/

namespace AccountOS

open Conc Sql

/-- The audit log has grown by entries that have `P`. -/
def Audits (P : AuditLogEntry → Prop) (w w' : World) : Prop :=
  ∃ new, w'.auditLog = w.auditLog ++ new ∧ ∀ e ∈ new, P e

namespace Audits

variable {P : AuditLogEntry → Prop} {w w' : World}

theorem of_eq (h : w'.auditLog = w.auditLog) : Audits P w w' :=
  ⟨[], by rw [h, List.append_nil], fun e he => absurd he List.not_mem_nil⟩

@[refl] theorem refl (w : World) : Audits P w w := .of_eq rfl

theorem trans (w w' w'' : World) (h : Audits P w w') (h' : Audits P w' w'') : Audits P w w'' := by
  obtain ⟨new, hlog, hnew⟩ := h
  obtain ⟨new', hlog', hnew'⟩ := h'
  refine ⟨new ++ new', by rw [hlog', hlog, List.append_assoc], fun e he => ?_⟩
  rcases List.mem_append.1 he with he | he
  · exact hnew e he
  · exact hnew' e he

/-- Entries that are never written are no more than before. -/
theorem filter_eq {p : AuditLogEntry → Bool} (h : Audits (fun e => p e = false) w w') :
    w'.auditLog.filter p = w.auditLog.filter p := by
  obtain ⟨new, hlog, hnew⟩ := h
  have hnone : new.filter p = [] := List.filter_eq_nil_iff.2 fun e he => by simp [hnew e he]
  rw [hlog, List.filter_append, hnone, List.append_nil]

end Audits

/-! ### The calls -/

/-- A transaction that logs nothing inside leaves the audit log alone, whatever becomes of it. -/
theorem transactionStep_auditLog {α : Type} (body : Env → TxBody α) (env : Env) (w : World) :
    (transactionStep body (fun _ _ w => w) env w).2.auditLog = w.auditLog := by
  have hrecord : ∀ e : Error, (w.recordError e).auditLog = w.auditLog := by
    intro e
    unfold World.recordError
    split <;> rfl
  unfold transactionStep
  split
  next => rfl
  next =>
    split
    next => rfl
    next => exact hrecord _
  next =>
    split
    next => rfl
    next => exact hrecord _

section Keeps

variable {α : Type} {P : AuditLogEntry → Prop} {allowed : Call → Env → World → World → Prop}

theorem keeps_audits_transaction {l : Call} {body : Env → TxBody α} :
    (transaction l body).Keeps allowed (Audits P) :=
  Proc.Keeps.call fun env w _ => .of_eq (transactionStep_auditLog body env w)

theorem keeps_audits_statement {l : Call} {op : Env → WriteOp} :
    (statement l op).Keeps allowed (Audits P) :=
  keeps_audits_transaction

theorem keeps_audits_find {l : Call} {f : Env → Db → α} : (find l f).Keeps allowed (Audits P) :=
  keeps_audits_transaction

theorem keeps_audits_deliver {url : String} : (deliver url).Keeps allowed (Audits P) :=
  Proc.Keeps.call fun _ w _ => .refl w

theorem keeps_audits_audit {entry : AuditLogEntry} (h : P entry) :
    (audit entry).Keeps allowed (Audits P) := by
  refine Proc.Keeps.call fun env w _ => ?_
  show Audits P w (w.log env entry)
  unfold World.log
  split
  · exact .refl w
  · exact ⟨[entry], rfl, by simpa using h⟩

end Keeps

end AccountOS
