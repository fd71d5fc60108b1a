import AccountOS.Conc.Process
import Mathlib.Algebra.BigOperators.Group.List.Basic

/-!
# Methods running side by side

A *pool* gives every thread the method it still has to run. A run of the pool lets the
threads make their calls in any order; a thread that is never scheduled again is a thread
whose process died. `Run` also keeps the history of the calls made, with the state before and
after each, so that a property of a whole execution can be stated.

The proof method is the one for protocols: a global invariant ties the shared state to a
*ghost* value for each thread, which records what that thread has achieved so far, and `Wp`
says that a method, started by a thread with ghost `g`, keeps the invariant at each of its
calls. `Protocol.sound` is the induction over runs, done once; a particular protocol only has
to prove `Wp` of each of its methods, call by call.
-/

namespace Conc

variable {ι σ χ ℓ ε α β γ : Type} [DecidableEq ι]

/-- One call of a run. -/
structure Event (ι σ χ ℓ : Type) where
  who : ι
  call : ℓ
  choice : χ
  before : σ
  after : σ

/-! ### Runs of a pool -/

/-- The executions of the pool `start` from `s₀`: the history so far, what each thread still has
to do, and the shared state. `allowed` restricts the calls, by their label, the environment's
choice and the states before and after. -/
inductive Run (allowed : ℓ → χ → σ → σ → Prop) (start : ι → Proc σ χ ℓ ε α) (s₀ : σ) :
    List (Event ι σ χ ℓ) → (ι → Proc σ χ ℓ ε α) → σ → Prop
  | init : Run allowed start s₀ [] start s₀
  | step {hist ps s l next cont} (run : Run allowed start s₀ hist ps s) (i : ι) (c : χ)
      (scheduled : ps i = .step l next cont) (ok : allowed l c s (next c s)) :
      Run allowed start s₀ (hist ++ [⟨i, l, c, s, next c s⟩])
        (Function.update ps i (cont c s)) (next c s)

/-- Every call that the method can still make has a label of the kind `A`. -/
def Proc.Emits (A : ℓ → Prop) : Proc σ χ ℓ ε α → Prop
  | .ret _ => True
  | .raise _ => True
  | .step l _ cont => A l ∧ ∀ c s, (cont c s).Emits A

/-- A run is a run under other restrictions as well, when these follow for the calls that its
methods make. -/
theorem Run.mono {allowed allowed' : ℓ → χ → σ → σ → Prop} {A : ℓ → Prop}
    (h : ∀ l c s s', A l → allowed l c s s' → allowed' l c s s')
    {start : ι → Proc σ χ ℓ ε α} (hstart : ∀ i, (start i).Emits A) {s₀ s : σ} {hist ps}
    (run : Run allowed start s₀ hist ps s) : Run allowed' start s₀ hist ps s := by
  suffices hboth : Run allowed' start s₀ hist ps s ∧ ∀ i, (ps i).Emits A from hboth.1
  induction run with
  | init => exact ⟨.init, hstart⟩
  | @step hist ps s l next cont _ i c scheduled ok ih =>
    obtain ⟨hrun, hps⟩ := ih
    have hi := hps i
    rw [scheduled] at hi
    obtain ⟨hl, hcont⟩ := hi
    refine ⟨.step hrun i c scheduled (h l c s (next c s) hl ok), fun j => ?_⟩
    by_cases hj : j = i
    · subst hj
      simpa using hcont c s
    · simpa [Function.update_of_ne hj] using hps j

/-- The induction over the history of a run, forgetting the threads. -/
theorem Run.history {allowed : ℓ → χ → σ → σ → Prop} {start : ι → Proc σ χ ℓ ε α} {s₀ s : σ}
    {hist ps} (run : Run allowed start s₀ hist ps s) {I : List (Event ι σ χ ℓ) → σ → Prop}
    (h₀ : I [] s₀)
    (h : ∀ past, ∀ ev ∈ hist, I past ev.before → I (past ++ [ev]) ev.after) : I hist s := by
  induction run with
  | init => exact h₀
  | step _ i c _ _ ih =>
    have hbefore := ih fun past ev hev => h past ev (List.mem_append_left _ hev)
    exact h _ _ (List.mem_append_right _ (List.mem_singleton_self _)) hbefore

/-- What each call of a run keeps, its end has. -/
theorem Run.preserves {allowed : ℓ → χ → σ → σ → Prop} {start : ι → Proc σ χ ℓ ε α} {s₀ s : σ}
    {hist ps} (run : Run allowed start s₀ hist ps s) {I : σ → Prop} (h₀ : I s₀)
    (h : ∀ ev ∈ hist, I ev.before → I ev.after) : I s :=
  run.history (I := fun _ s => I s) h₀ fun _ ev hev hbefore => h ev hev hbefore

/-- What relates the states before and after each call relates every state before a call to the
end. -/
theorem Run.since {allowed : ℓ → χ → σ → σ → Prop} {start : ι → Proc σ χ ℓ ε α} {s₀ s : σ}
    {hist ps} (run : Run allowed start s₀ hist ps s) {R : σ → σ → Prop}
    (trans : ∀ {s t u}, R s t → R t u → R s u) (h : ∀ ev ∈ hist, R ev.before ev.after) :
    ∀ ev ∈ hist, R ev.before s := by
  refine run.history (I := fun past s => ∀ ev ∈ past, R ev.before s) nofun ?_
  intro past ev hev hpast x hx
  rcases List.mem_append.1 hx with hx | hx
  · exact trans (hpast x hx) (h ev hev)
  · rw [List.mem_singleton.1 hx]
    exact h ev hev

/-- A figure that each call of a run moves by some amount is moved by their sum. -/
theorem Run.eq_add_sum {allowed : ℓ → χ → σ → σ → Prop} {start : ι → Proc σ χ ℓ ε α} {s₀ s : σ}
    {hist ps} (run : Run allowed start s₀ hist ps s) {M : Type} [AddMonoid M] {f : σ → M}
    {moved : Event ι σ χ ℓ → M} (h : ∀ ev ∈ hist, f ev.after = f ev.before + moved ev) :
    f s = f s₀ + (hist.map moved).sum := by
  refine run.history (I := fun past s => f s = f s₀ + (past.map moved).sum) (by simp) ?_
  intro past ev hev hbefore
  rw [h ev hev, hbefore, List.map_append, List.sum_append, List.map_singleton, List.sum_singleton,
    add_assoc]

/-- Let the threads run by a schedule: at each entry the named thread makes its next call with
the given choice. A thread that has returned or thrown ignores its turn. -/
def exec (ps : ι → Proc σ χ ℓ ε α) (s : σ) :
    List (ι × χ) → List (Event ι σ χ ℓ) × (ι → Proc σ χ ℓ ε α) × σ
  | [] => ([], ps, s)
  | (i, c) :: rest =>
    match ps i with
    | .step l next cont =>
      let r := exec (Function.update ps i (cont c s)) (next c s) rest
      (⟨i, l, c, s, next c s⟩ :: r.1, r.2)
    | _ => exec ps s rest

/-- What a schedule does is a run, when each of its calls is allowed. -/
theorem run_exec {allowed : ℓ → χ → σ → σ → Prop} {start : ι → Proc σ χ ℓ ε α} {s₀ s : σ} {hist ps}
    (run : Run allowed start s₀ hist ps s) (sched : List (ι × χ))
    (ok : ∀ ev ∈ (exec ps s sched).1, allowed ev.call ev.choice ev.before ev.after) :
    Run allowed start s₀ (hist ++ (exec ps s sched).1) (exec ps s sched).2.1
      (exec ps s sched).2.2 := by
  induction sched generalizing hist ps s with
  | nil => simpa [exec] using run
  | cons turn rest ih =>
    obtain ⟨i, c⟩ := turn
    unfold exec at ok ⊢
    split
    next l next cont hp =>
      simp only [hp] at ok
      have hstep := Run.step run i c hp (ok _ List.mem_cons_self)
      have := ih hstep fun ev hev => ok ev (List.mem_cons_of_mem _ hev)
      simpa [List.append_assoc] using this
    next hp =>
      split at ok
      · simp_all
      · exact ih run ok

/-- What a schedule does from the start is a run. -/
theorem Run.of_exec {allowed : ℓ → χ → σ → σ → Prop} (start : ι → Proc σ χ ℓ ε α) (s₀ : σ)
    (sched : List (ι × χ))
    (ok : ∀ ev ∈ (exec start s₀ sched).1, allowed ev.call ev.choice ev.before ev.after) :
    Run allowed start s₀ (exec start s₀ sched).1 (exec start s₀ sched).2.1
      (exec start s₀ sched).2.2 :=
  run_exec .init sched ok

/-- The environment's choices in a run by a schedule are those of the schedule. -/
theorem mem_of_mem_exec (ps : ι → Proc σ χ ℓ ε α) (s : σ) (sched : List (ι × χ)) :
    ∀ ev ∈ (exec ps s sched).1, (ev.who, ev.choice) ∈ sched := by
  induction sched generalizing ps s with
  | nil => exact fun ev hev => absurd hev List.not_mem_nil
  | cons turn rest ih =>
    obtain ⟨i, c⟩ := turn
    intro ev hev
    unfold exec at hev
    split at hev
    · rcases List.mem_cons.1 hev with rfl | hev
      · exact List.mem_cons_self
      · exact List.mem_cons_of_mem _ (ih _ _ ev hev)
    · exact List.mem_cons_of_mem _ (ih _ _ ev hev)

/-! ### Protocols -/

/-- The ghosts of the threads, the calls made so far and the shared state, held together by an
invariant; and the calls that are considered at all. -/
structure Protocol (ι σ χ ℓ γ : Type) where
  allowed : ℓ → χ → σ → σ → Prop
  inv : (ι → γ) → List (Event ι σ χ ℓ) → σ → Prop

/-- Thread `i`, whose ghost is `g`, can run the method and keep the invariant at every call,
whatever the other threads do in between. `Q` is known of the ghost when the method returns and
`E` when it throws. -/
def Proc.Wp (P : Protocol ι σ χ ℓ γ) (i : ι) (Q : α → γ → Prop) (E : ε → γ → Prop) :
    Proc σ χ ℓ ε α → γ → Prop
  | .ret a, g => Q a g
  | .raise e, g => E e g
  | .step l next cont, g =>
    ∀ G hist s c, G i = g → P.inv G hist s → P.allowed l c s (next c s) →
      ∃ g', P.inv (Function.update G i g') (hist ++ [⟨i, l, c, s, next c s⟩]) (next c s) ∧
        (cont c s).Wp P i Q E g'

namespace Proc

section Wp

variable {P : Protocol ι σ χ ℓ γ} {i : ι} {Q Q' : α → γ → Prop} {E E' : ε → γ → Prop} {g : γ}

@[simp] theorem wp_ret {a : α} : (ret a : Proc σ χ ℓ ε α).Wp P i Q E g ↔ Q a g := Iff.rfl

@[simp] theorem wp_raise {e : ε} : (raise e : Proc σ χ ℓ ε α).Wp P i Q E g ↔ E e g := Iff.rfl

theorem Wp.mono (hQ : ∀ a g, Q a g → Q' a g) (hE : ∀ e g, E e g → E' e g) {p : Proc σ χ ℓ ε α}
    (h : p.Wp P i Q E g) : p.Wp P i Q' E' g := by
  induction p generalizing g with
  | ret a => exact hQ a g h
  | raise e => exact hE e g h
  | step l next cont ih =>
    intro G hist s c hG hinv hok
    obtain ⟨g', hinv', hrest⟩ := h G hist s c hG hinv hok
    exact ⟨g', hinv', ih c s hrest⟩

theorem Wp.bind {p : Proc σ χ ℓ ε α} {f : α → Proc σ χ ℓ ε β} {Q : β → γ → Prop}
    (h : p.Wp P i (fun a g => (f a).Wp P i Q E g) E g) : (p.bind f).Wp P i Q E g := by
  induction p generalizing g with
  | ret a => exact h
  | raise e => exact h
  | step l next cont ih =>
    intro G hist s c hG hinv hok
    obtain ⟨g', hinv', hrest⟩ := h G hist s c hG hinv hok
    exact ⟨g', hinv', ih c s hrest⟩

theorem Wp.catching {p : Proc σ χ ℓ ε α} {f : ε → Proc σ χ ℓ ε α}
    (h : p.Wp P i Q (fun e g => (f e).Wp P i Q E g) g) : (p.catching f).Wp P i Q E g := by
  induction p generalizing g with
  | ret a => exact h
  | raise e => exact h
  | step l next cont ih =>
    intro G hist s c hG hinv hok
    obtain ⟨g', hinv', hrest⟩ := h G hist s c hG hinv hok
    exact ⟨g', hinv', ih c s hrest⟩

theorem wp_ofExcept {r : Except ε α} :
    (ofExcept r : Proc σ χ ℓ ε α).Wp P i Q E g ↔
      (∀ a, r = .ok a → Q a g) ∧ ∀ e, r = .error e → E e g := by
  cases r <;> simp [ofExcept]

/-- The rule for a single call: re-establish the invariant for a new ghost, and show that this
ghost is good enough for either outcome of the call. -/
theorem Wp.call {l : ℓ} {f : χ → σ → Except ε α × σ}
    (h : ∀ G hist s c, G i = g → P.inv G hist s → P.allowed l c s (f c s).2 →
      ∃ g', P.inv (Function.update G i g') (hist ++ [⟨i, l, c, s, (f c s).2⟩]) (f c s).2 ∧
        (∀ a, (f c s).1 = .ok a → Q a g') ∧ ∀ e, (f c s).1 = .error e → E e g') :
    (Proc.call l f : Proc σ χ ℓ ε α).Wp P i Q E g := by
  intro G hist s c hG hinv hok
  obtain ⟨g', hinv', hret⟩ := h G hist s c hG hinv hok
  exact ⟨g', hinv', wp_ofExcept.2 hret⟩

end Wp

end Proc

/-- **Soundness of the protocol logic.** If every thread's method keeps the invariant at its
calls, then every run keeps it, and what a thread still has to do keeps it too. -/
theorem Protocol.sound (P : Protocol ι σ χ ℓ γ) {start : ι → Proc σ χ ℓ ε α} {s₀ : σ}
    (G₀ : ι → γ) (Q : ι → α → γ → Prop) (E : ι → ε → γ → Prop) (h₀ : P.inv G₀ [] s₀)
    (hstart : ∀ i, (start i).Wp P i (Q i) (E i) (G₀ i)) {hist ps s}
    (run : Run P.allowed start s₀ hist ps s) :
    ∃ G, P.inv G hist s ∧ ∀ i, (ps i).Wp P i (Q i) (E i) (G i) := by
  induction run with
  | init => exact ⟨G₀, h₀, hstart⟩
  | @step hist ps s l next cont _ i c scheduled ok ih =>
    obtain ⟨G, hinv, hps⟩ := ih
    have hi := hps i
    rw [scheduled] at hi
    obtain ⟨g', hinv', hrest⟩ := hi G hist s c rfl hinv ok
    refine ⟨Function.update G i g', hinv', fun j => ?_⟩
    by_cases hj : j = i
    · subst hj
      simpa using hrest
    · simpa [Function.update_of_ne hj] using hps j

/-- The invariant of a protocol, at every point of every run. -/
theorem Protocol.inv_of_run (P : Protocol ι σ χ ℓ γ) {start : ι → Proc σ χ ℓ ε α} {s₀ : σ}
    (G₀ : ι → γ) (h₀ : P.inv G₀ [] s₀)
    (hstart : ∀ i, (start i).Wp P i (fun _ _ => True) (fun _ _ => True) (G₀ i)) {hist ps s}
    (run : Run P.allowed start s₀ hist ps s) : ∃ G, P.inv G hist s :=
  let ⟨G, hinv, _⟩ := P.sound G₀ (fun _ _ _ => True) (fun _ _ _ => True) h₀ hstart run
  ⟨G, hinv⟩

end Conc
