import AccountOS.Conc.Alone

/-!
# A method that knows only a part of the state

What wraps a method (an interceptor, a guard) has tables of its own that the method does not know.
The method then runs beside them: on the first component of a pair, under labels of the wrapper's.
-/

namespace Conc

namespace Proc

variable {σ κ χ ℓ m ε α : Type}

/-- The method on the first component. -/
def beside (label : ℓ → m) : Proc σ χ ℓ ε α → Proc (σ × κ) χ m ε α
  | .ret a => .ret a
  | .raise e => .raise e
  | .step l next cont =>
    .step (label l) (fun c s => (next c s.1, s.2)) fun c s => (cont c s.1).beside label

/-- The method, with its error as a result. -/
def attempt (p : Proc σ χ ℓ ε α) : Proc σ χ ℓ ε (Except ε α) :=
  (p.bind fun a => .ret (.ok a)).catching fun e => .ret (.error e)

/-- Among other threads: an invariant that does not mind calls under these labels as long as they
leave the other component. -/
theorem wp_attempt_beside {ι γ : Type} [DecidableEq ι] {P : Protocol ι (σ × κ) χ m γ} {i : ι}
    {label : ℓ → m} {p : Proc σ χ ℓ ε α} {g : γ}
    (hinv : ∀ G hist s s' l c, G i = g → P.inv G hist s → s'.2 = s.2 →
      P.inv G (hist ++ [⟨i, label l, c, s, s'⟩]) s') :
    (p.beside label : Proc (σ × κ) χ m ε α).attempt.Wp P i (fun _ g' => g' = g)
      (fun _ _ => False) g := by
  refine Wp.catching (Wp.bind ?_)
  induction p with
  | ret a => rfl
  | raise e => rfl
  | step l next cont ih =>
    intro G hist s c hG h _
    refine ⟨g, ?_, ih c s.1⟩
    rw [← hG, Function.update_eq_self]
    exact hinv G hist s (next c s.1, s.2) l c hG h rfl

/-- Its calls stay within any relation that leaves the other component. -/
theorem keeps_attempt_beside {allowed : m → χ → σ × κ → σ × κ → Prop}
    {R : σ × κ → σ × κ → Prop} {label : ℓ → m} {p : Proc σ χ ℓ ε α}
    (hR : ∀ s s', s'.2 = s.2 → R s s') :
    (p.beside label : Proc (σ × κ) χ m ε α).attempt.Keeps allowed R := by
  refine Keeps.catching (Keeps.bind ?_ fun _ => trivial) fun _ => trivial
  induction p with
  | ret a => trivial
  | raise e => trivial
  | step l next cont ih => exact fun c s _ => ⟨hR _ _ rfl, ih c s.1⟩

end Proc

end Conc
