import AccountOS.Conc.Process

/-!
# What an observer notes of the calls

A method runs alone, and at each of its calls an observer notes what it sees: the label, the choice
of the environment, what the call does, and the state it is made in. The notes of a compound method
are those of its parts, in order.
-/

namespace Conc.Proc

variable {σ χ ℓ ε α β ν : Type} (note : ℓ → χ → (χ → σ → σ) → σ → List ν) (env : ℓ → χ)

/-- The notes of a run. -/
def noted : Proc σ χ ℓ ε α → σ → List ν
  | .ret _, _ => []
  | .raise _, _ => []
  | .step l next cont, s =>
    note l (env l) next s ++ (cont (env l) s).noted (next (env l) s)

@[simp] theorem noted_ret (a : α) (s : σ) :
    (ret a : Proc σ χ ℓ ε α).noted note env s = [] := rfl

@[simp] theorem noted_raise (e : ε) (s : σ) :
    (raise e : Proc σ χ ℓ ε α).noted note env s = [] := rfl

@[simp] theorem noted_ofExcept (r : Except ε α) (s : σ) :
    (ofExcept r : Proc σ χ ℓ ε α).noted note env s = [] := by
  cases r <;> rfl

@[simp] theorem noted_call (l : ℓ) (f : χ → σ → Except ε α × σ) (s : σ) :
    (call l f).noted note env s = note l (env l) (fun c s => (f c s).2) s := by
  simp only [call, noted, noted_ofExcept, List.append_nil]

theorem noted_bind (p : Proc σ χ ℓ ε α) (f : α → Proc σ χ ℓ ε β) (s : σ) :
    (p.bind f).noted note env s = p.noted note env s ++
      match p.runWith env s with
      | (.ok a, s') => (f a).noted note env s'
      | (.error _, _) => [] := by
  induction p generalizing s with
  | ret a => rfl
  | raise e => rfl
  | step l next cont ih =>
    have hrest := ih (env l) s (next (env l) s)
    show _ ++ ((cont (env l) s).bind f).noted note env (next (env l) s) = _ ++ _ ++ _
    rw [hrest, List.append_assoc]
    rfl

theorem noted_catching (p : Proc σ χ ℓ ε α) (f : ε → Proc σ χ ℓ ε α) (s : σ) :
    (p.catching f).noted note env s = p.noted note env s ++
      match p.runWith env s with
      | (.ok _, _) => []
      | (.error e, s') => (f e).noted note env s' := by
  induction p generalizing s with
  | ret a => rfl
  | raise e => rfl
  | step l next cont ih =>
    have hrest := ih (env l) s (next (env l) s)
    show _ ++ ((cont (env l) s).catching f).noted note env (next (env l) s) = _ ++ _ ++ _
    rw [hrest, List.append_assoc]
    rfl

/-- A note of a sequence was made in its first part, or after that has returned. -/
theorem mem_noted_bind {p : Proc σ χ ℓ ε α} {f : α → Proc σ χ ℓ ε β} {s : σ} {x : ν} :
    x ∈ (p.bind f).noted note env s ↔ x ∈ p.noted note env s ∨
      ∃ a s', p.runWith env s = (.ok a, s') ∧ x ∈ (f a).noted note env s' := by
  rw [noted_bind, List.mem_append]
  rcases p.runWith env s with ⟨r, s'⟩
  cases r with
  | ok a => simp [and_assoc]
  | error e => simp

/-- A note of a protected method was made in it, or in its handler after it has thrown. -/
theorem mem_noted_catching {p : Proc σ χ ℓ ε α} {f : ε → Proc σ χ ℓ ε α} {s : σ} {x : ν} :
    x ∈ (p.catching f).noted note env s ↔ x ∈ p.noted note env s ∨
      ∃ e s', p.runWith env s = (.error e, s') ∧ x ∈ (f e).noted note env s' := by
  rw [noted_catching, List.mem_append]
  rcases p.runWith env s with ⟨r, s'⟩
  cases r with
  | ok a => simp
  | error e => simp [and_assoc]

end Conc.Proc
