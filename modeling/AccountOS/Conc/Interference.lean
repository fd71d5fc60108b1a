import AccountOS.Conc.Pool

/-!
# Threads that do not influence each other

Some threads of a pool are *secret*. The others are not influenced by them when no run shows them
a difference: whatever the secret threads do, and also when they do nothing at all, the public
threads make the same calls and end with the same results.

The argument is the one of unwinding. A `Scope` says what the calls of a thread may do: which
states it cannot tell apart, and which change of the state it may cause. `Proc.Confined` is that
every call of a method, from any state, stays within a scope. If the public threads cannot tell two
states apart that differ by a change of a secret thread (`Separates`), then the secret turns may be
dropped from a schedule.
-/

namespace Conc

variable {ι σ χ ℓ ε α β : Type}

/-! ### Scopes -/

/-- What the calls of a thread may do: for the choices that the environment can make at them, in
the states that have `inv`, it sees no difference between states that `sees` relates, and a call
takes a state to one that `keeps` relates it to. -/
structure Scope (σ χ : Type) where
  choices : χ → Prop
  inv : σ → Prop
  sees : σ → σ → Prop
  keeps : σ → σ → Prop

namespace Proc

/-- Every call of the method stays within the scope, and a value that it returns has `Q`. -/
def Confined (S : Scope σ χ) (Q : α → Prop) : Proc σ χ ℓ ε α → Prop
  | .ret a => Q a
  | .raise _ => True
  | .step _ next cont => ∀ c s t, S.choices c → S.inv s → S.inv t → S.sees s t →
      S.inv (next c s) ∧ S.keeps s (next c s) ∧ S.sees (next c s) (next c t) ∧
        cont c s = cont c t ∧ (cont c s).Confined S Q

section Confined

variable {S : Scope σ χ} {Q : α → Prop}

@[simp] theorem confined_ret {a : α} : (ret a : Proc σ χ ℓ ε α).Confined S Q ↔ Q a := Iff.rfl

@[simp] theorem confined_raise {e : ε} : (raise e : Proc σ χ ℓ ε α).Confined S Q := trivial

theorem Confined.bind {p : Proc σ χ ℓ ε α} {f : α → Proc σ χ ℓ ε β} {Q' : β → Prop}
    (h : p.Confined S Q) (hf : ∀ a, Q a → (f a).Confined S Q') : (p.bind f).Confined S Q' := by
  induction p with
  | ret a => exact hf a h
  | raise e => trivial
  | step l next cont ih =>
    intro c s t hc hs ht hst
    obtain ⟨hinv, hkeeps, hsees, hcont, hrest⟩ := h c s t hc hs ht hst
    exact ⟨hinv, hkeeps, hsees, congrArg (·.bind f) hcont, ih c s hrest⟩

theorem Confined.catching {p : Proc σ χ ℓ ε α} {f : ε → Proc σ χ ℓ ε α}
    (h : p.Confined S Q) (hf : ∀ e, (f e).Confined S Q) : (p.catching f).Confined S Q := by
  induction p with
  | ret a => exact h
  | raise e => exact hf e
  | step l next cont ih =>
    intro c s t hc hs ht hst
    obtain ⟨hinv, hkeeps, hsees, hcont, hrest⟩ := h c s t hc hs ht hst
    exact ⟨hinv, hkeeps, hsees, congrArg (·.catching f) hcont, ih c s hrest⟩

theorem confined_ofExcept {r : Except ε α} (h : ∀ a, r = .ok a → Q a) :
    (ofExcept r : Proc σ χ ℓ ε α).Confined S Q := by
  cases r with
  | ok a => exact h a rfl
  | error e => trivial

/-- The rule for a single call. -/
theorem Confined.call {l : ℓ} {f : χ → σ → Except ε α × σ}
    (h : ∀ c s t, S.choices c → S.inv s → S.inv t → S.sees s t →
      S.inv (f c s).2 ∧ S.keeps s (f c s).2 ∧ S.sees (f c s).2 (f c t).2 ∧
        (f c s).1 = (f c t).1 ∧ ∀ a, (f c s).1 = .ok a → Q a) :
    (Proc.call l f).Confined S Q := by
  intro c s t hc hs ht hst
  obtain ⟨hinv, hkeeps, hsees, hret, hQ⟩ := h c s t hc hs ht hst
  exact ⟨hinv, hkeeps, hsees, congrArg ofExcept hret, confined_ofExcept hQ⟩

end Confined

end Proc

/-! ### Unwinding -/

/-- The scopes of the secret and of the public threads: what a secret thread changes, a public one
does not see. -/
structure Separates (high low : Scope σ χ) : Prop where
  inv : ∀ s, high.inv s ↔ low.inv s
  high_refl : ∀ s, high.sees s s
  low_refl : ∀ s, low.sees s s
  hidden : ∀ s s' t, high.keeps s s' → low.sees s t → low.sees s' t

/-- The turns of the public threads. -/
def publicTurns (secret : ι → Prop) [DecidablePred secret] (sched : List (ι × χ)) :
    List (ι × χ) :=
  sched.filter fun turn => ¬ secret turn.1

/-- The calls of the public threads, in their order. -/
def publicCalls (secret : ι → Prop) [DecidablePred secret] (hist : List (Event ι σ χ ℓ)) :
    List (ι × ℓ) :=
  (hist.filter fun ev => ¬ secret ev.who).map fun ev => (ev.who, ev.call)

/-- What a schedule leads to: the history, the threads and the state. -/
abbrev Outcome (ι σ χ ℓ ε α : Type) :=
  List (Event ι σ χ ℓ) × (ι → Proc σ χ ℓ ε α) × σ

/-- Two outcomes that the public threads cannot tell apart. -/
structure SameOutcome (secret : ι → Prop) [DecidablePred secret] (sees : σ → σ → Prop)
    (r r' : Outcome ι σ χ ℓ ε α) : Prop where
  calls : publicCalls secret r.1 = publicCalls secret r'.1
  threads : ∀ i, ¬ secret i → r.2.1 i = r'.2.1 i
  state : sees r.2.2 r'.2.2

section Exec

variable [DecidableEq ι] {ps : ι → Proc σ χ ℓ ε α} {s : σ} {i : ι} {c : χ}
  {sched : List (ι × χ)}

theorem exec_cons_of_step {l : ℓ} {next : χ → σ → σ} {cont : χ → σ → Proc σ χ ℓ ε α}
    (h : ps i = .step l next cont) :
    exec ps s ((i, c) :: sched) =
      (⟨i, l, c, s, next c s⟩ ::
        (exec (Function.update ps i (cont c s)) (next c s) sched).1,
        (exec (Function.update ps i (cont c s)) (next c s) sched).2) := by
  simp only [exec, h]

theorem exec_cons_of_done (h : ∀ l next cont, ps i ≠ .step l next cont) :
    exec ps s ((i, c) :: sched) = exec ps s sched := by
  cases hp : ps i with
  | ret a => simp only [exec, hp]
  | raise e => simp only [exec, hp]
  | step l next cont => exact absurd hp (h l next cont)

variable {high low : Scope σ χ} {secret : ι → Prop} [DecidablePred secret]

/-- **The secret turns may be dropped from a schedule**, and the secret threads exchanged for
others: the public threads cannot tell the difference. -/
theorem Separates.exec (h : Separates high low) {qs : ι → Proc σ χ ℓ ε α} {t : σ}
    (hs : low.inv s) (ht : low.inv t) (hst : low.sees s t)
    (hhigh : ∀ i, secret i → (ps i).Confined high fun _ => True)
    (hlow : ∀ i, ¬ secret i → (ps i).Confined low fun _ => True)
    (hps : ∀ i, ¬ secret i → ps i = qs i)
    (hhighChoices : ∀ turn ∈ sched, secret turn.1 → high.choices turn.2)
    (hlowChoices : ∀ turn ∈ sched, ¬ secret turn.1 → low.choices turn.2) :
    low.inv (Conc.exec ps s sched).2.2 ∧
      low.inv (Conc.exec qs t (publicTurns secret sched)).2.2 ∧
      SameOutcome secret low.sees (Conc.exec ps s sched)
        (Conc.exec qs t (publicTurns secret sched)) := by
  induction sched generalizing ps qs s t with
  | nil => exact ⟨hs, ht, rfl, hps, hst⟩
  | cons turn rest ih =>
    obtain ⟨i, c⟩ := turn
    have hhighRest : ∀ turn ∈ rest, secret turn.1 → high.choices turn.2 :=
      fun turn hturn => hhighChoices turn (List.mem_cons_of_mem _ hturn)
    have hlowRest : ∀ turn ∈ rest, ¬ secret turn.1 → low.choices turn.2 :=
      fun turn hturn => hlowChoices turn (List.mem_cons_of_mem _ hturn)
    by_cases hi : secret i
    · -- a secret turn is dropped
      have hdrop : publicTurns secret ((i, c) :: rest) = publicTurns secret rest := by
        simp [publicTurns, hi]
      rw [hdrop]
      cases hp : ps i with
      | ret a =>
        rw [exec_cons_of_done (by simp [hp])]
        exact ih hs ht hst hhigh hlow hps hhighRest hlowRest
      | raise e =>
        rw [exec_cons_of_done (by simp [hp])]
        exact ih hs ht hst hhigh hlow hps hhighRest hlowRest
      | step l next cont =>
        have hconf := hhigh i hi
        rw [hp] at hconf
        obtain ⟨hinv, hkeeps, -, -, hrest⟩ := hconf c s s (hhighChoices _ List.mem_cons_self hi)
          ((h.inv s).2 hs) ((h.inv s).2 hs) (h.high_refl s)
        have hother : ∀ j, ¬ secret j → Function.update ps i (cont c s) j = ps j := by
          intro j hj
          have hne : j ≠ i := by
            rintro rfl
            exact hj hi
          exact Function.update_of_ne hne _ _
        obtain ⟨hs', ht', hsame⟩ := @ih (Function.update ps i (cont c s)) (next c s) qs t
          ((h.inv _).1 hinv) ht (h.hidden s _ t hkeeps hst)
          ((Function.forall_update_iff ps fun j p => secret j → p.Confined high _).2
            ⟨fun _ => hrest, fun j _ => hhigh j⟩)
          (fun j hj => (hother j hj).symm ▸ hlow j hj)
          (fun j hj => (hother j hj).trans (hps j hj)) hhighRest hlowRest
        rw [exec_cons_of_step hp]
        refine ⟨hs', ht', ?_, hsame.threads, hsame.state⟩
        have hcalls := hsame.calls
        unfold publicCalls at hcalls ⊢
        simpa [hi] using hcalls
    · -- both runs make the public turn
      have hkeep : publicTurns secret ((i, c) :: rest) = (i, c) :: publicTurns secret rest := by
        simp [publicTurns, hi]
      rw [hkeep]
      cases hp : ps i with
      | ret a =>
        rw [exec_cons_of_done (by simp [hp]), exec_cons_of_done (by simp [← hps i hi, hp])]
        exact ih hs ht hst hhigh hlow hps hhighRest hlowRest
      | raise e =>
        rw [exec_cons_of_done (by simp [hp]), exec_cons_of_done (by simp [← hps i hi, hp])]
        exact ih hs ht hst hhigh hlow hps hhighRest hlowRest
      | step l next cont =>
        have hc := hlowChoices _ List.mem_cons_self hi
        have hconf := hlow i hi
        rw [hp] at hconf
        obtain ⟨hs', -, hsees, hcont, hrest⟩ := hconf c s t hc hs ht hst
        obtain ⟨ht', -⟩ := hconf c t t hc ht ht (h.low_refl t)
        obtain ⟨hend, hend', hsame⟩ := @ih (Function.update ps i (cont c s)) (next c s)
          (Function.update qs i (cont c t)) (next c t) hs' ht' hsees
          ((Function.forall_update_iff ps fun j p => secret j → p.Confined high _).2
            ⟨fun hsecret => absurd hsecret hi, fun j _ => hhigh j⟩)
          ((Function.forall_update_iff ps fun j p => ¬ secret j → p.Confined low _).2
            ⟨fun _ => hrest, fun j _ => hlow j⟩)
          (fun j hj => by
            by_cases hji : j = i
            · subst hji
              simpa using hcont
            · rw [Function.update_of_ne hji, Function.update_of_ne hji]
              exact hps j hj) hhighRest hlowRest
        rw [exec_cons_of_step hp, exec_cons_of_step ((hps i hi).symm.trans hp)]
        refine ⟨hend, hend', ?_, hsame.threads, hsame.state⟩
        have hcalls := hsame.calls
        unfold publicCalls at hcalls ⊢
        simpa [hi] using hcalls

end Exec

end Conc
