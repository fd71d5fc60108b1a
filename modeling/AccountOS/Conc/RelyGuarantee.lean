import AccountOS.Conc.Alone

/-!
# What threads rely on and what they guarantee

A thread that has looked something up relies on it while the others run. A `Contract` says what
thread `i` may rely on from one of its calls to the next (`rely i`), and what each of its own calls
does (`guarantee i`); whatever is guaranteed by one thread, all others can rely on. The proof is one
by the rules of `Protocol`: the ghost of a thread is the state that its last call has left, and at
its next call the state is related to that one by `rely i`.
-/

namespace Conc

variable {ι σ χ ℓ ε α β : Type}

/-- What each thread relies on and guarantees, and an invariant that the guarantees keep. -/
structure Contract (ι σ χ ℓ : Type) where
  allowed : ℓ → χ → σ → σ → Prop
  inv : σ → Prop
  rely : ι → σ → σ → Prop
  guarantee : ι → ℓ → χ → σ → σ → Prop
  refl : ∀ i s, rely i s s
  trans : ∀ {i s t u}, rely i s t → rely i t u → rely i s u
  kept : ∀ {i l c s s'}, inv s → guarantee i l c s s' → inv s'
  others : ∀ {i j l c s s'}, i ≠ j → inv s → guarantee i l c s s' → rely j s s'

namespace Contract

variable (C : Contract ι σ χ ℓ)

/-- The ghost of a thread is the state after its last call. -/
def protocol : Protocol ι σ χ ℓ σ where
  allowed := C.allowed
  inv G hist s := (C.inv s ∧ ∀ i, C.rely i (G i) s) ∧
    ∀ ev ∈ hist, C.inv ev.before ∧ C.guarantee ev.who ev.call ev.choice ev.before ev.after

variable {C} [DecidableEq ι]

/-- A call that does what it guarantees. -/
theorem step {G : ι → σ} {hist : List (Event ι σ χ ℓ)} {s s' : σ} {i : ι} {l : ℓ} {c : χ}
    (hinv : C.protocol.inv G hist s) (h : C.guarantee i l c s s') :
    C.protocol.inv (Function.update G i s') (hist ++ [⟨i, l, c, s, s'⟩]) s' := by
  obtain ⟨⟨hs, hrely⟩, hhist⟩ := hinv
  refine ⟨⟨C.kept hs h, fun j => ?_⟩, fun ev hev => ?_⟩
  · by_cases hj : j = i
    · subst hj
      rw [Function.update_self]
      exact C.refl j s'
    · rw [Function.update_of_ne hj]
      exact C.trans (hrely j) (C.others (Ne.symm hj) hs h)
  · rcases List.mem_append.1 hev with hev | hev
    · exact hhist ev hev
    · rw [List.mem_singleton.1 hev]
      exact ⟨hs, h⟩

/-- A single call. The state it finds is related to the one that the thread knows. -/
theorem wp_call {i : ι} {t : σ} {l : ℓ} {f : χ → σ → Except ε α × σ} {Q : α → σ → Prop}
    {E : ε → σ → Prop}
    (h : ∀ c s, C.inv s → C.rely i t s → C.allowed l c s (f c s).2 →
      C.guarantee i l c s (f c s).2 ∧ (∀ a, (f c s).1 = .ok a → Q a (f c s).2) ∧
        ∀ e, (f c s).1 = .error e → E e (f c s).2) :
    (Proc.call l f).Wp C.protocol i Q E t := by
  refine Proc.Wp.call fun G hist s c hG hinv hallowed => ?_
  have hrely := hinv.1.2 i
  rw [hG] at hrely
  obtain ⟨hguarantee, hresult⟩ := h c s hinv.1.1 hrely hallowed
  exact ⟨_, C.step hinv hguarantee, hresult⟩

/-- A method whose calls guarantee what they have to, whatever they find. -/
theorem wp_of_keeps {R : σ → σ → Prop} {i : ι} {t : σ} {p : Proc σ χ ℓ ε α}
    (hp : p.Keeps C.allowed R) (hR : ∀ l c s s', C.inv s → R s s' → C.guarantee i l c s s') :
    p.Wp C.protocol i (fun _ _ => True) (fun _ _ => True) t := by
  induction p generalizing t with
  | ret a => trivial
  | raise e => trivial
  | step l next cont ih =>
    intro G hist s c hG hinv hallowed
    obtain ⟨hnext, hcont⟩ := hp c s hallowed
    exact ⟨_, C.step hinv (hR l c s _ hinv.1.1 hnext), ih c s hcont⟩

/-- The same where the calls are what they have to be because of what the thread relies on; it still
relies on that afterwards. -/
theorem wp_of_keeps_relying {R : σ → σ → Prop} {i : ι} {t : σ} {p : Proc σ χ ℓ ε α}
    (hp : p.Keeps C.allowed R)
    (hR : ∀ l c s s', C.inv s → C.rely i t s → C.allowed l c s s' → R s s' →
      C.guarantee i l c s s' ∧ C.rely i t s') :
    p.Wp C.protocol i (fun _ s => C.rely i t s) (fun _ s => C.rely i t s) t := by
  suffices hall : ∀ g, C.rely i t g →
      p.Wp C.protocol i (fun _ s => C.rely i t s) (fun _ s => C.rely i t s) g from
    hall t (C.refl i t)
  induction p with
  | ret a => exact fun g hg => hg
  | raise e => exact fun g hg => hg
  | step l next cont ih =>
    intro g hg G hist s c hG hinv hallowed
    have hrely := hinv.1.2 i
    rw [hG] at hrely
    obtain ⟨hnext, hcont⟩ := hp c s hallowed
    obtain ⟨hguarantee, hs'⟩ := hR l c s _ hinv.1.1 (C.trans hg hrely) hallowed hnext
    exact ⟨_, C.step hinv hguarantee, ih c s hcont _ hs'⟩

/-! ### Methods under a contract -/

variable (C) in
/-- The method does what its thread guarantees, and what the thread knows it can rely on
afterwards. -/
def Fulfils (i : ι) (p : Proc σ χ ℓ ε α) (t : σ) : Prop :=
  p.Wp C.protocol i (fun _ s => C.rely i t s) (fun _ s => C.rely i t s) t

section Fulfils

variable {i : ι} {t : σ}

theorem fulfils_ret {a : α} : C.Fulfils i (.ret a : Proc σ χ ℓ ε α) t := C.refl i t

theorem fulfils_raise {e : ε} : C.Fulfils i (.raise e : Proc σ χ ℓ ε α) t := C.refl i t

theorem Fulfils.bind {p : Proc σ χ ℓ ε α} {f : α → Proc σ χ ℓ ε β} (hp : C.Fulfils i p t)
    (hf : ∀ a s, C.rely i t s → C.Fulfils i (f a) s) : C.Fulfils i (p.bind f) t :=
  Proc.Wp.bind (Proc.Wp.mono
    (fun a s hs => Proc.Wp.mono (fun _ _ h => C.trans hs h) (fun _ _ h => C.trans hs h) (hf a s hs))
    (fun _ _ h => h) hp)

theorem Fulfils.catching {p : Proc σ χ ℓ ε α} {f : ε → Proc σ χ ℓ ε α} (hp : C.Fulfils i p t)
    (hf : ∀ e s, C.rely i t s → C.Fulfils i (f e) s) : C.Fulfils i (p.catching f) t :=
  Proc.Wp.catching (Proc.Wp.mono (fun _ _ h => h) (fun e s hs =>
    Proc.Wp.mono (fun _ _ h => C.trans hs h) (fun _ _ h => C.trans hs h) (hf e s hs)) hp)

/-- A method whose calls are within the contract by what the thread knows. -/
theorem Fulfils.of_keeps {R : σ → σ → Prop} {p : Proc σ χ ℓ ε α} (hp : p.Keeps C.allowed R)
    (hR : ∀ l c s s', C.inv s → C.rely i t s → R s s' →
      C.guarantee i l c s s' ∧ C.rely i s s') : C.Fulfils i p t :=
  wp_of_keeps_relying hp fun l c s s' hs ht _ h =>
    have hcall := hR l c s s' hs ht h
    ⟨hcall.1, C.trans ht hcall.2⟩

end Fulfils

/-- **Soundness.** When every thread fulfils the contract, every state of every run satisfies the
invariant, and every call does what its thread guarantees. -/
theorem sound {start : ι → Proc σ χ ℓ ε α} {s₀ s : σ} {hist : List (Event ι σ χ ℓ)}
    {ps : ι → Proc σ χ ℓ ε α} (h₀ : C.inv s₀)
    (hstart : ∀ i, (start i).Wp C.protocol i (fun _ _ => True) (fun _ _ => True) s₀)
    (run : Run C.allowed start s₀ hist ps s) :
    C.inv s ∧ ∀ ev ∈ hist, C.inv ev.before ∧
      C.guarantee ev.who ev.call ev.choice ev.before ev.after := by
  have hinit : C.protocol.inv (fun _ => s₀) [] s₀ := ⟨⟨h₀, fun i => C.refl i s₀⟩, nofun⟩
  obtain ⟨G, ⟨hs, -⟩, hhist⟩ := C.protocol.inv_of_run _ hinit hstart run
  exact ⟨hs, hhist⟩

end Contract

end Conc
