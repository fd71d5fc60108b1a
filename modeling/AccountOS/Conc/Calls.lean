import AccountOS.Conc.Beside

/-!
# The calls of a method that nobody interrupts

A run of one method from its start to its end, with all its calls. The rules take the calls of a
compound method apart into those of its parts.
-/

namespace Conc

variable {σ χ ℓ ε α β : Type}

namespace Proc

/-- The method runs alone from `s`, makes these calls, and ends in `s'` with the result `r`. -/
inductive Calls : Proc σ χ ℓ ε α → σ → List (Event Unit σ χ ℓ) → Except ε α → σ → Prop
  | ret {a s} : Calls (.ret a) s [] (.ok a) s
  | raise {e s} : Calls (.raise e) s [] (.error e) s
  | step {l next cont s evs r s'} (c : χ) (rest : Calls (cont c s) (next c s) evs r s') :
      Calls (.step l next cont) s (⟨(), l, c, s, next c s⟩ :: evs) r s'

namespace Calls

variable {s s' : σ} {evs : List (Event Unit σ χ ℓ)}

/-- What a method with nothing left to do does. -/
theorem ofExcept {r r' : Except ε α} (h : (Proc.ofExcept r').Calls s evs r s') :
    evs = [] ∧ r = r' ∧ s' = s := by
  cases r' with
  | ok a =>
    cases h
    exact ⟨rfl, rfl, rfl⟩
  | error e =>
    cases h
    exact ⟨rfl, rfl, rfl⟩

/-- A single call. -/
theorem call {l : ℓ} {f : χ → σ → Except ε α × σ} {r : Except ε α}
    (h : (Proc.call l f).Calls s evs r s') :
    ∃ c, evs = [⟨(), l, c, s, (f c s).2⟩] ∧ r = (f c s).1 ∧ s' = (f c s).2 := by
  cases h with
  | step c rest =>
    obtain ⟨rfl, rfl, rfl⟩ := rest.ofExcept
    exact ⟨c, rfl, rfl, rfl⟩

/-- A sequence of two methods: the second one begins where the first one has returned. -/
theorem bind {p : Proc σ χ ℓ ε α} {f : α → Proc σ χ ℓ ε β} {r : Except ε β}
    (h : (p.bind f).Calls s evs r s') :
    (∃ evs₁ a s₁ evs₂, p.Calls s evs₁ (.ok a) s₁ ∧ (f a).Calls s₁ evs₂ r s' ∧ evs = evs₁ ++ evs₂) ∨
      ∃ e, p.Calls s evs (.error e) s' ∧ r = .error e := by
  induction p generalizing s evs with
  | ret a => exact .inl ⟨[], a, s, evs, .ret, h, rfl⟩
  | raise e =>
    cases h
    exact .inr ⟨e, .raise, rfl⟩
  | step l next cont ih =>
    cases h with
    | step c rest =>
      rcases ih c s rest with ⟨evs₁, a, s₁, evs₂, hp, hf, rfl⟩ | ⟨e, hp, hr⟩
      · exact .inl ⟨_, a, s₁, evs₂, .step c hp, hf, rfl⟩
      · exact .inr ⟨e, .step c hp, hr⟩

/-- A handler begins where the protected method has thrown. -/
theorem catching {p : Proc σ χ ℓ ε α} {f : ε → Proc σ χ ℓ ε α} {r : Except ε α}
    (h : (p.catching f).Calls s evs r s') :
    (∃ a, p.Calls s evs (.ok a) s' ∧ r = .ok a) ∨
      ∃ evs₁ e s₁ evs₂, p.Calls s evs₁ (.error e) s₁ ∧ (f e).Calls s₁ evs₂ r s' ∧
        evs = evs₁ ++ evs₂ := by
  induction p generalizing s evs with
  | ret a =>
    cases h
    exact .inl ⟨a, .ret, rfl⟩
  | raise e => exact .inr ⟨[], e, s, evs, .raise, h, rfl⟩
  | step l next cont ih =>
    cases h with
    | step c rest =>
      rcases ih c s rest with ⟨a, hp, hr⟩ | ⟨evs₁, e, s₁, evs₂, hp, hf, rfl⟩
      · exact .inl ⟨a, .step c hp, hr⟩
      · exact .inr ⟨_, e, s₁, evs₂, .step c hp, hf, rfl⟩

end Calls

/-- A method that knows only a part of the state: the other part stays, and every call has a label
of the method's. It ends with its result or its error. -/
theorem Calls.attempt_beside {κ m : Type} {label : ℓ → m} {p : Proc σ χ ℓ ε α} {s s' : σ × κ}
    {evs : List (Event Unit (σ × κ) χ m)} {r : Except ε (Except ε α)}
    (h : (p.beside label : Proc (σ × κ) χ m ε α).attempt.Calls s evs r s') :
    s'.2 = s.2 ∧ (∀ ev ∈ evs, ∃ l, ev.call = label l) ∧ ∃ result, r = .ok result := by
  unfold attempt at h
  induction p generalizing s evs with
  | ret a =>
    cases h
    exact ⟨rfl, fun _ hev => absurd hev List.not_mem_nil, _, rfl⟩
  | raise e =>
    cases h
    exact ⟨rfl, fun _ hev => absurd hev List.not_mem_nil, _, rfl⟩
  | step l next cont ih =>
    cases h with
    | step c rest =>
      obtain ⟨hs, hlabels, hr⟩ := ih c s.1 rest
      refine ⟨hs, fun ev hev => ?_, hr⟩
      rcases List.mem_cons.1 hev with rfl | hev
      · exact ⟨l, rfl⟩
      · exact hlabels ev hev

end Proc

/-- **What a run of one thread has called**, when it has come to its end. -/
theorem Run.calls {p : Proc σ χ ℓ ε α} {s₀ s : σ} {hist : List (Event Unit σ χ ℓ)}
    {ps : Unit → Proc σ χ ℓ ε α} (run : Run (fun _ _ _ _ => True) (fun _ : Unit => p) s₀ hist ps s)
    {r : Except ε α} (hr : ps () = .ofExcept r) : p.Calls s₀ hist r s := by
  -- the calls that are still to come are the calls of what is left
  suffices hrest : ∀ evs s', (ps ()).Calls s evs r s' → p.Calls s₀ (hist ++ evs) r s' by
    have hend : (ps ()).Calls s [] r s := by
      rw [hr]
      cases r with
      | ok a => exact .ret
      | error e => exact .raise
    have hall := hrest [] s hend
    rwa [List.append_nil] at hall
  clear hr
  induction run with
  | init => exact fun evs s' h => h
  | @step hist ps s l next cont _ i c scheduled _ ih =>
    intro evs s' h
    cases i
    rw [Function.update_self] at h
    rw [List.append_assoc, List.singleton_append]
    refine ih _ _ ?_
    rw [scheduled]
    exact .step c h

end Conc
