import AccountOS.Conc.RelyGuarantee
import AccountOS.Store.Registry

/-!
# Calls under a contract

For each kind of call, what has to be shown of a contract for a method that makes it. A call that
changes no data fulfils every contract that is `Undisturbed` by such calls; after it the thread
knows the state that it has found.
-/

namespace AccountOS

open Conc Sql

namespace Contract

variable {ι α : Type} [DecidableEq ι] {C : Contract ι World Env Call} {i : ι} {t : World} {l : Call}
  {E : Error → World → Prop}

/-- Calls that change no data are within what is guaranteed and relied on. -/
def Undisturbed (C : Contract ι World Env Call) : Prop :=
  ∀ i l env w w', World.SameData w w' → C.guarantee i l env w w' ∧ C.rely i w w'

variable (hC : Undisturbed C)
include hC

/-- A transaction commits, or it has no effect. -/
theorem wp_transaction {Q : α → World → Prop} {body : Env → TxBody α}
    {inside : Env → α → World → World} (hinside : LogsOnly inside)
    (hok : ∀ env w a db w', C.inv w → C.rely i t w → C.allowed l env w w' →
      (body env).run schema w.db = .ok (a, db) → w' = { inside env a w with db } →
      C.guarantee i l env w w' ∧ Q a w')
    (herr : ∀ e w', C.rely i t w' → E e w') :
    (transaction l body inside).Wp C.protocol i Q E t := by
  refine C.wp_call fun env w hinv hrely hallowed => ?_
  rcases transactionStep_cases body hinside env w with
    ⟨a, db, -, hrun, hstep⟩ | ⟨e, w', hstep, hthrown⟩
  · rw [hstep] at hallowed ⊢
    obtain ⟨hguarantee, hQ⟩ := hok env w a db _ hinv hrely hallowed hrun rfl
    refine ⟨hguarantee, fun a' ha => ?_, fun e he => by cases he⟩
    cases ha
    exact hQ
  · rw [hstep]
    obtain ⟨hguarantee, hrest⟩ := hC i l env w w' hthrown.same
    exact ⟨hguarantee, fun a ha => (by cases ha), fun e' _ => herr e' w' (C.trans hrely hrest)⟩

theorem wp_statement {Q : Unit → World → Prop} {op : Env → WriteOp}
    (hok : ∀ env w db w', C.inv w → C.rely i t w → C.allowed l env w w' →
      (op env).apply w.db = .ok db → w' = { w with db } → C.guarantee i l env w w' ∧ Q () w')
    (herr : ∀ e w', C.rely i t w' → E e w') : (statement l op).Wp C.protocol i Q E t := by
  refine wp_transaction hC logsOnly_nothing ?_ herr
  intro env w a db w' hinv hrely hallowed hrun hw'
  exact hok env w db w' hinv hrely hallowed (Tx.run_exec_eq_ok.1 hrun) hw'

/-- What a query answers is so in the state that the thread knows from then on. -/
theorem wp_find {Q : α → World → Prop} {f : Env → Db → α}
    (hok : ∀ env w, C.inv w → C.rely i t w → Q (f env w.db) w)
    (herr : ∀ e w', C.rely i t w' → E e w') : (find l f).Wp C.protocol i Q E t := by
  refine wp_transaction hC logsOnly_nothing ?_ herr
  intro env w a db w' hinv hrely _ hrun hw'
  rw [Tx.run_query, Except.ok.injEq, Prod.mk.injEq] at hrun
  obtain ⟨rfl, rfl⟩ := hrun
  rw [hw']
  exact ⟨(hC i l env w w (.refl w)).1, hok env w hinv hrely⟩

/-- A call that writes to the register. -/
theorem wp_register {Q : α → World → Prop} {op : Env → RegistryOp} {value : Env → Db → α}
    (hok : ∀ env w db w', C.inv w → C.rely i t w → C.allowed l env w w' →
      (op env).apply w.db = .ok db → w' = { w with db } →
      C.guarantee i l env w w' ∧ Q (value env db) w')
    (herr : ∀ e w', C.rely i t w' → E e w') : (register l op value).Wp C.protocol i Q E t := by
  refine C.wp_call fun env w hinv hrely hallowed => ?_
  rcases registerStep_cases op value env w with ⟨db, hop, hstep⟩ | ⟨e, w', hstep, hsame⟩
  · rw [hstep] at hallowed ⊢
    obtain ⟨hguarantee, hQ⟩ := hok env w db _ hinv hrely hallowed hop rfl
    refine ⟨hguarantee, fun a' ha => ?_, fun e he => by cases he⟩
    cases ha
    exact hQ
  · rw [hstep]
    obtain ⟨hguarantee, hrest⟩ := hC i l env w w' hsame
    exact ⟨hguarantee, fun a ha => (by cases ha), fun e' _ => herr e' w' (C.trans hrely hrest)⟩

theorem wp_audit {Q : Unit → World → Prop} {entry : AuditLogEntry}
    (hQ : ∀ w', C.rely i t w' → Q () w') : (audit entry).Wp C.protocol i Q E t := by
  refine C.wp_call fun env w _ hrely _ => ?_
  obtain ⟨hguarantee, hrest⟩ := hC i (.audit entry.action) env w _ (w.sameData_log env entry)
  exact ⟨hguarantee, fun _ _ => hQ _ (C.trans hrely hrest), fun e he => by cases he⟩

end Contract

end AccountOS
