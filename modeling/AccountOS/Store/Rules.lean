import AccountOS.Store.Client

/-!
# Rules of the protocol logic for the calls of a service

For each kind of call, what has to be shown of a protocol for a method that makes it. A call that
fails, and an audit entry, change no data; a protocol whose invariant does not mind such calls is
`Quiet`, and then only the calls that take effect need an argument.
-/

namespace AccountOS

open Conc Sql

variable {ι γ α : Type} [DecidableEq ι]

/-- The invariant is kept by every call that changes no data, with the ghosts as they are. -/
def Quiet (P : Protocol ι World Env Call γ) : Prop :=
  ∀ G hist w w' i l env, P.inv G hist w → P.allowed l env w w' → World.SameData w w' →
    P.inv G (hist ++ [⟨i, l, env, w, w'⟩]) w'

variable {P : Protocol ι World Env Call γ} {i : ι} {g : γ} {E : Error → γ → Prop}

/-- A quiet call of a thread that keeps its ghost. -/
theorem Quiet.step (hP : Quiet P) {G : ι → γ} {hist : List (Event ι World Env Call)} {w w' : World}
    {l : Call} {env : Env} (hG : G i = g) (hinv : P.inv G hist w)
    (hallowed : P.allowed l env w w') (hsame : World.SameData w w') :
    P.inv (Function.update G i g) (hist ++ [⟨i, l, env, w, w'⟩]) w' := by
  rw [← hG, Function.update_eq_self]
  exact hP G hist w w' i l env hinv hallowed hsame

/-- A call that may change data: it commits or it is thrown back. -/
theorem wp_transaction {Q : α → γ → Prop} (hP : Quiet P) {l : Call} {body : Env → TxBody α}
    {inside : Env → α → World → World} (hinside : LogsOnly inside)
    (hok : ∀ G hist w env a db w', G i = g → P.inv G hist w → P.allowed l env w w' →
      env.fault = none → (body env).run schema w.db = .ok (a, db) →
      w' = { inside env a w with db } →
      ∃ g', P.inv (Function.update G i g') (hist ++ [⟨i, l, env, w, w'⟩]) w' ∧ Q a g')
    (herr : ∀ G hist w env e w', G i = g → P.inv G hist w → P.allowed l env w w' →
      Thrown body env w e w' → E e g) :
    (transaction l body inside).Wp P i Q E g := by
  refine Proc.Wp.call fun G hist w env hG hinv hallowed => ?_
  rcases transactionStep_cases body hinside env w with
    ⟨a, db, hf, hrun, hstep⟩ | ⟨e, w', hstep, hthrown⟩
  · rw [hstep] at hallowed ⊢
    obtain ⟨g', hinv', hQ⟩ := hok G hist w env a db _ hG hinv hallowed hf hrun rfl
    refine ⟨g', hinv', fun a' ha => ?_, fun e he => by simp at he⟩
    cases ha
    exact hQ
  · rw [hstep] at hallowed ⊢
    refine ⟨g, hP.step hG hinv hallowed hthrown.same, fun a ha => by simp at ha, fun e' he => ?_⟩
    cases he
    exact herr G hist w env e w' hG hinv hallowed hthrown

/-- A single writing statement. -/
theorem wp_statement {Q : Unit → γ → Prop} (hP : Quiet P) {l : Call} {op : Env → WriteOp}
    (hok : ∀ G hist w env db w', G i = g → P.inv G hist w → P.allowed l env w w' →
      env.fault = none → (op env).apply w.db = .ok db → w' = { w with db } →
      ∃ g', P.inv (Function.update G i g') (hist ++ [⟨i, l, env, w, w'⟩]) w' ∧ Q () g')
    (herr : ∀ G hist w env e w', G i = g → P.inv G hist w → P.allowed l env w w' →
      World.SameData w w' → w'.dbErrors ≠ w.dbErrors → E e g) :
    (statement l op).Wp P i Q E g := by
  refine Proc.Wp.call fun G hist w env hG hinv hallowed => ?_
  rcases statementStep_cases op env w with ⟨hf, db, hdb, hstep⟩ | ⟨e, w', hstep, hsame, hgrown, -⟩
  · rw [hstep] at hallowed ⊢
    obtain ⟨g', hinv', hQ⟩ := hok G hist w env db _ hG hinv hallowed hf hdb rfl
    exact ⟨g', hinv', fun _ _ => hQ, fun e he => by simp at he⟩
  · rw [hstep] at hallowed ⊢
    refine ⟨g, hP.step hG hinv hallowed hsame, fun a ha => by simp at ha, fun e' he => ?_⟩
    cases he
    exact herr G hist w env e w' hG hinv hallowed hsame hgrown

/-- A single reading statement, after which the thread may know more. -/
theorem wp_findThen {Q : α → γ → Prop} (hP : Quiet P) {l : Call} {f : Env → Db → α}
    (hok : ∀ G hist w env, G i = g → P.inv G hist w → P.allowed l env w w →
      ∃ g', P.inv (Function.update G i g') (hist ++ [⟨i, l, env, w, w⟩]) w ∧ Q (f env w.db) g')
    (herr : ∀ e, E e g) : (find l f).Wp P i Q E g := by
  refine Proc.Wp.call fun G hist w env hG hinv hallowed => ?_
  rcases findStep_cases f env w with ⟨-, hstep⟩ | ⟨e, w', hstep, hsame, -⟩
  · rw [hstep] at hallowed ⊢
    obtain ⟨g', hinv', hQ⟩ := hok G hist w env hG hinv hallowed
    refine ⟨g', hinv', fun a ha => ?_, fun e he => by simp at he⟩
    cases ha
    exact hQ
  · rw [hstep] at hallowed ⊢
    exact ⟨g, hP.step hG hinv hallowed hsame, fun a ha => by simp at ha, fun e' _ => herr e'⟩

/-- A single reading statement. -/
theorem wp_find {Q : α → γ → Prop} (hP : Quiet P) {l : Call} {f : Env → Db → α}
    (hok : ∀ G hist w env, G i = g → P.inv G hist w → Q (f env w.db) g) (herr : ∀ e, E e g) :
    (find l f).Wp P i Q E g :=
  wp_findThen hP (fun G hist w env hG hinv hallowed =>
    ⟨g, hP.step hG hinv hallowed (.refl w), hok G hist w env hG hinv⟩) herr

/-- A transaction that only reads. -/
theorem wp_read {Q : α → γ → Prop} (hP : Quiet P) {l : Call} {body : TxBody α} {f : Db → α}
    (hbody : ∀ db, body.run schema db = .ok (f db, db))
    (hok : ∀ G hist w, G i = g → P.inv G hist w → Q (f w.db) g) (herr : ∀ e, E e g) :
    (transaction l fun _ => body).Wp P i Q E g := by
  refine wp_transaction hP logsOnly_nothing ?_ fun _ _ _ _ e _ _ _ _ _ => herr e
  intro G hist w env a db w' hG hinv hallowed hf hrun hw'
  rw [hbody, Except.ok.injEq, Prod.mk.injEq] at hrun
  obtain ⟨rfl, rfl⟩ := hrun
  subst hw'
  exact ⟨g, hP.step hG hinv hallowed (.refl w), hok G hist w hG hinv⟩

/-- The conversion of a number, which makes no call. -/
theorem wp_bigIntOrThrow {x : ℚ} {Q : Int → γ → Prop} (hok : ∀ n : Int, x = n → Q n g)
    (herr : ∀ e, E e g) : (bigIntOrThrow x).Wp P i Q E g := by
  unfold bigIntOrThrow
  cases hn : bigInt x with
  | ok n => exact hok n (bigInt_eq_ok.1 hn)
  | error e => exact herr _

/-- An audit entry. -/
theorem wp_audit {Q : Unit → γ → Prop} (hP : Quiet P) {entry : AuditLogEntry} (hQ : Q () g) :
    (audit entry).Wp P i Q E g := by
  refine Proc.Wp.call fun G hist w env hG hinv hallowed => ?_
  exact ⟨g, hP.step hG hinv hallowed (w.sameData_log env entry), fun _ _ => hQ,
    fun e he => by simp at he⟩

/-- An outbound notification. -/
theorem wp_deliver {Q : Except String Nat → γ → Prop} (hP : Quiet P) {url : String}
    (hQ : ∀ r, Q r g) : (deliver url).Wp P i Q E g := by
  refine Proc.Wp.call fun G hist w env hG hinv hallowed => ?_
  exact ⟨g, hP.step hG hinv hallowed (.refl w), fun r _ => hQ r, fun e he => by simp at he⟩

/-- A call to another system: it changes the world, or that system is out of reach. -/
theorem wp_reach {Q : α → γ → Prop} (hP : Quiet P) {l : Call} {result : Env → α}
    {after : Env → World → World}
    (hok : ∀ G hist w env w', G i = g → P.inv G hist w → P.allowed l env w w' → w' = after env w →
      ∃ g', P.inv (Function.update G i g') (hist ++ [⟨i, l, env, w, w'⟩]) w' ∧ Q (result env) g')
    (herr : ∀ e, E e g) :
    (Proc.call l fun env w =>
      match env.fault with
      | some f => (.error f.error, w)
      | none => (.ok (result env), after env w) : Action α).Wp P i Q E g := by
  refine Proc.Wp.call fun G hist w env hG hinv hallowed => ?_
  cases hf : env.fault with
  | none =>
    simp only [hf] at hallowed ⊢
    obtain ⟨g', hinv', hQ⟩ := hok G hist w env _ hG hinv hallowed rfl
    refine ⟨g', hinv', fun a ha => ?_, fun e he => by simp at he⟩
    cases ha
    exact hQ
  | some f =>
    simp only [hf] at hallowed ⊢
    exact ⟨g, hP.step hG hinv hallowed (.refl w), fun a ha => by simp at ha, fun e _ => herr e⟩

/-- A transfer by Nomba: it is confirmed, or it throws and nothing happens. -/
theorem wp_bankTransfer {Q : BankTransferRequest → γ → Prop} (hP : Quiet P)
    {settlementId : String} {request : Env → BankTransferRequest}
    (hok : ∀ G hist w env w', G i = g → P.inv G hist w →
      P.allowed (.bankTransfer settlementId) env w w' →
      w' = { w with transfers := w.transfers ++ [⟨settlementId, request env⟩] } →
      ∃ g', P.inv (Function.update G i g')
        (hist ++ [⟨i, .bankTransfer settlementId, env, w, w'⟩]) w' ∧ Q (request env) g')
    (herr : ∀ e, E e g) : (bankTransfer settlementId request).Wp P i Q E g :=
  wp_reach hP hok herr

/-- A job put on the retry queue, or a queue that is out of reach. -/
theorem wp_enqueueRetry {Q : Unit → γ → Prop} (hP : Quiet P) {job : RetryJob}
    (hok : ∀ G hist w env w', G i = g → P.inv G hist w →
      P.allowed (.enqueueRetry job.ruleExecutionId) env w w' →
      w' = { w with retryQueue := w.retryQueue ++ [job] } →
      ∃ g', P.inv (Function.update G i g')
        (hist ++ [⟨i, .enqueueRetry job.ruleExecutionId, env, w, w'⟩]) w' ∧ Q () g')
    (herr : ∀ e, E e g) : (enqueueRetry job).Wp P i Q E g :=
  wp_reach hP hok herr

/-- A job put on the webhook queue, or a queue that is out of reach. -/
theorem wp_enqueueInflow {Q : Unit → γ → Prop} (hP : Quiet P) {payload : InflowPayload}
    (hok : ∀ G hist w env w', G i = g → P.inv G hist w →
      P.allowed (.enqueueInflow payload) env w w' →
      w' = { w with webhookQueue := w.webhookQueue ++ [payload] } →
      ∃ g', P.inv (Function.update G i g')
        (hist ++ [⟨i, .enqueueInflow payload, env, w, w'⟩]) w' ∧ Q () g')
    (herr : ∀ e, E e g) : (enqueueInflow payload).Wp P i Q E g :=
  wp_reach hP hok herr

end AccountOS
