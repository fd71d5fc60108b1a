import AccountOS.Conc.Pool

/-!
# A method that nobody interrupts

Jobs that are served one after the other never see each other's halfway states, so a method may
be described by the states it starts and ends in. `Ensures` is its weakest precondition: whatever
the environment chooses at the calls, the final state has `Q` when the method returns and `E` when
it throws. `Keeps` is the special case of a relation that every single call stays within.
-/

namespace Conc

variable {σ χ ℓ ε α β : Type} {allowed : ℓ → χ → σ → σ → Prop}

namespace Proc

/-- A run of the method alone from `s`: it ends in `s'`, with the result `r`. -/
def Finishes (allowed : ℓ → χ → σ → σ → Prop) (p : Proc σ χ ℓ ε α) (s : σ) (r : Except ε α)
    (s' : σ) : Prop :=
  ∃ hist ps, Run allowed (fun _ : Unit => p) s hist ps s' ∧ ps () = .ofExcept r

/-! ### Weakest preconditions -/

def Ensures (allowed : ℓ → χ → σ → σ → Prop) (Q : α → σ → Prop) (E : ε → σ → Prop) :
    Proc σ χ ℓ ε α → σ → Prop
  | .ret a, s => Q a s
  | .raise e, s => E e s
  | .step l next cont, s =>
    ∀ c, allowed l c s (next c s) → (cont c s).Ensures allowed Q E (next c s)

section Ensures

variable {Q Q' : α → σ → Prop} {E E' : ε → σ → Prop} {s : σ}

@[simp] theorem ensures_ret {a : α} :
    (ret a : Proc σ χ ℓ ε α).Ensures allowed Q E s ↔ Q a s := Iff.rfl

@[simp] theorem ensures_raise {e : ε} :
    (raise e : Proc σ χ ℓ ε α).Ensures allowed Q E s ↔ E e s := Iff.rfl

theorem Ensures.mono {p : Proc σ χ ℓ ε α} (h : p.Ensures allowed Q E s)
    (hQ : ∀ a s, Q a s → Q' a s) (hE : ∀ e s, E e s → E' e s) : p.Ensures allowed Q' E' s := by
  induction p generalizing s with
  | ret a => exact hQ a s h
  | raise e => exact hE e s h
  | step l next cont ih => exact fun c hc => ih c s (h c hc)

theorem Ensures.bind {p : Proc σ χ ℓ ε α} {f : α → Proc σ χ ℓ ε β} {Q : β → σ → Prop}
    (h : p.Ensures allowed (fun a s' => (f a).Ensures allowed Q E s') E s) :
    (p.bind f).Ensures allowed Q E s := by
  induction p generalizing s with
  | ret a => exact h
  | raise e => exact h
  | step l next cont ih => exact fun c hc => ih c s (h c hc)

theorem Ensures.catching {p : Proc σ χ ℓ ε α} {f : ε → Proc σ χ ℓ ε α}
    (h : p.Ensures allowed Q (fun e s' => (f e).Ensures allowed Q E s') s) :
    (p.catching f).Ensures allowed Q E s := by
  induction p generalizing s with
  | ret a => exact h
  | raise e => exact h
  | step l next cont ih => exact fun c hc => ih c s (h c hc)

/-- A method that may make fewer calls. -/
theorem Ensures.restrict {allowed' : ℓ → χ → σ → σ → Prop} {p : Proc σ χ ℓ ε α}
    (h : p.Ensures allowed Q E s) (hallowed : ∀ l c s s', allowed' l c s s' → allowed l c s s') :
    p.Ensures allowed' Q E s := by
  induction p generalizing s with
  | ret a => exact h
  | raise e => exact h
  | step l next cont ih => exact fun c hc => ih c s (h c (hallowed l c s _ hc))

/-- Two weakest preconditions of one method. -/
theorem Ensures.and {p : Proc σ χ ℓ ε α} (h : p.Ensures allowed Q E s)
    (h' : p.Ensures allowed Q' E' s) :
    p.Ensures allowed (fun a s => Q a s ∧ Q' a s) (fun e s => E e s ∧ E' e s) s := by
  induction p generalizing s with
  | ret a => exact ⟨h, h'⟩
  | raise e => exact ⟨h, h'⟩
  | step l next cont ih => exact fun c hc => ih c s (h c hc) (h' c hc)

theorem ensures_ofExcept {r : Except ε α} :
    (ofExcept r : Proc σ χ ℓ ε α).Ensures allowed Q E s ↔
      (∀ a, r = .ok a → Q a s) ∧ ∀ e, r = .error e → E e s := by
  cases r <;> simp [ofExcept]

/-- The rule for a single call. -/
theorem Ensures.call {l : ℓ} {f : χ → σ → Except ε α × σ}
    (h : ∀ c, allowed l c s (f c s).2 →
      (∀ a, (f c s).1 = .ok a → Q a (f c s).2) ∧ ∀ e, (f c s).1 = .error e → E e (f c s).2) :
    (Proc.call l f).Ensures allowed Q E s :=
  fun c hc => ensures_ofExcept.2 (h c hc)

/-- **Soundness.** A run of the method alone ends as its weakest precondition promises. -/
theorem Ensures.sound {p : Proc σ χ ℓ ε α} {s' : σ} {r : Except ε α}
    (h : p.Ensures allowed Q E s) (hrun : p.Finishes allowed s r s') :
    (∀ a, r = .ok a → Q a s') ∧ ∀ e, r = .error e → E e s' := by
  obtain ⟨hist, ps, hrun, hps⟩ := hrun
  suffices hrest : (ps ()).Ensures allowed Q E s' by
    rw [hps] at hrest
    exact ensures_ofExcept.1 hrest
  clear hps
  induction hrun with
  | init => exact h
  | @step _ ps s l next cont _ i c scheduled ok ih =>
    cases i
    rw [scheduled] at ih
    simpa using ih c ok

end Ensures

/-! ### Relations that every call stays within -/

/-- Every call takes a state to one that `R` relates it to. -/
def Keeps (allowed : ℓ → χ → σ → σ → Prop) (R : σ → σ → Prop) : Proc σ χ ℓ ε α → Prop
  | .ret _ => True
  | .raise _ => True
  | .step l next cont =>
    ∀ c s, allowed l c s (next c s) → R s (next c s) ∧ (cont c s).Keeps allowed R

section Keeps

variable {R : σ → σ → Prop}

theorem keeps_ofExcept (r : Except ε α) :
    (ofExcept r : Proc σ χ ℓ ε α).Keeps allowed R := by
  cases r <;> exact trivial

theorem Keeps.call {l : ℓ} {f : χ → σ → Except ε α × σ}
    (h : ∀ c s, allowed l c s (f c s).2 → R s (f c s).2) :
    (Proc.call l f).Keeps allowed R :=
  fun c s hc => ⟨h c s hc, keeps_ofExcept _⟩

theorem Keeps.bind {p : Proc σ χ ℓ ε α} {f : α → Proc σ χ ℓ ε β} (hp : p.Keeps allowed R)
    (hf : ∀ a, (f a).Keeps allowed R) : (p.bind f).Keeps allowed R := by
  induction p with
  | ret a => exact hf a
  | raise e => trivial
  | step l next cont ih => exact fun c s hc => ⟨(hp c s hc).1, ih c s (hp c s hc).2⟩

theorem Keeps.catching {p : Proc σ χ ℓ ε α} {f : ε → Proc σ χ ℓ ε α} (hp : p.Keeps allowed R)
    (hf : ∀ e, (f e).Keeps allowed R) : (p.catching f).Keeps allowed R := by
  induction p with
  | ret a => trivial
  | raise e => exact hf e
  | step l next cont ih => exact fun c s hc => ⟨(hp c s hc).1, ih c s (hp c s hc).2⟩

/-- The whole method stays within a relation that its calls stay within. -/
theorem Keeps.ensures {p : Proc σ χ ℓ ε α} (hp : p.Keeps allowed R) (refl : ∀ s, R s s)
    (trans : ∀ s t u, R s t → R t u → R s u) (s : σ) :
    p.Ensures allowed (fun _ s' => R s s') (fun _ s' => R s s') s := by
  suffices h : ∀ t, R s t → p.Ensures allowed (fun _ s' => R s s') (fun _ s' => R s s') t from
    h s (refl s)
  induction p with
  | ret a => exact fun t ht => ht
  | raise e => exact fun t ht => ht
  | step l next cont ih =>
    intro t ht c hc
    obtain ⟨hnext, hcont⟩ := hp c t hc
    exact ih c t hcont (next c t) (trans s t _ ht hnext)

theorem Keeps.finishes {p : Proc σ χ ℓ ε α} (hp : p.Keeps allowed R) (refl : ∀ s, R s s)
    (trans : ∀ s t u, R s t → R t u → R s u) {s s' : σ} {r : Except ε α}
    (run : p.Finishes allowed s r s') : R s s' := by
  obtain ⟨hok, herror⟩ := (hp.ensures refl trans s).sound run
  cases r with
  | ok a => exact hok a rfl
  | error e => exact herror e rfl

/-- A run from start to end, with nobody else touching the state. -/
theorem Keeps.runWith {p : Proc σ χ ℓ ε α} (hp : p.Keeps (fun _ _ _ _ => True) R)
    (refl : ∀ s, R s s) (trans : ∀ s t u, R s t → R t u → R s u) (env : ℓ → χ) (s : σ) :
    R s (p.runWith env s).2 := by
  induction p generalizing s with
  | ret a => exact refl s
  | raise e => exact refl s
  | step l next cont ih =>
    obtain ⟨hnext, hcont⟩ := hp (env l) s trivial
    exact trans s _ _ hnext (ih (env l) s hcont (next (env l) s))

/-- Among other threads: an invariant that minds none of the method's calls. -/
theorem Keeps.wp {ι γ : Type} [DecidableEq ι] {P : Protocol ι σ χ ℓ γ} {i : ι}
    {p : Proc σ χ ℓ ε α} {g : γ} (hp : p.Keeps P.allowed R)
    (hinv : ∀ G hist s s' l c, P.inv G hist s → P.allowed l c s s' → R s s' →
      P.inv G (hist ++ [⟨i, l, c, s, s'⟩]) s') :
    p.Wp P i (fun _ g' => g' = g) (fun _ g' => g' = g) g := by
  induction p with
  | ret a => rfl
  | raise e => rfl
  | step l next cont ih =>
    intro G hist s c hG h hallowed
    obtain ⟨hnext, hcont⟩ := hp c s hallowed
    refine ⟨g, ?_, ih c s hcont⟩
    rw [← hG, Function.update_eq_self]
    exact hinv G hist s (next c s) l c h hallowed hnext

end Keeps

end Proc

/-! ### A method that runs for a while -/

/-- Making some calls with nobody else touching the state, the method `p` gets from `s` to `s'` and
has `p'` left to do. -/
inductive Proc.Reaches (allowed : ℓ → χ → σ → σ → Prop) :
    Proc σ χ ℓ ε α → σ → Proc σ χ ℓ ε α → σ → Prop
  | here {p s} : Reaches allowed p s p s
  | step {l next cont s p' s'} (c : χ) (ok : allowed l c s (next c s))
      (rest : Reaches allowed (cont c s) (next c s) p' s') :
      Reaches allowed (.step l next cont) s p' s'

theorem Proc.Reaches.trans {p p' p'' : Proc σ χ ℓ ε α} {s s' s'' : σ}
    (h : p.Reaches allowed s p' s') (h' : p'.Reaches allowed s' p'' s'') :
    p.Reaches allowed s p'' s'' := by
  induction h with
  | here => exact h'
  | step c ok _ ih => exact .step c ok (ih h')

/-- A run goes on with the calls of one thread. -/
theorem Run.reaches {ι : Type} [DecidableEq ι] {start ps : ι → Proc σ χ ℓ ε α} {s₀ s s' : σ}
    {hist : List (Event ι σ χ ℓ)} (run : Run allowed start s₀ hist ps s) {i : ι}
    {p' : Proc σ χ ℓ ε α} (h : (ps i).Reaches allowed s p' s') :
    ∃ hist', Run allowed start s₀ hist' (Function.update ps i p') s' := by
  generalize hp : ps i = p at h
  induction h generalizing ps hist with
  | here =>
    rw [← hp, Function.update_eq_self]
    exact ⟨hist, run⟩
  | step c ok rest ih =>
    obtain ⟨hist', run'⟩ := ih (run.step i c hp ok) (Function.update_self ..)
    rw [Function.update_idem] at run'
    exact ⟨hist', run'⟩

/-- A finished run, call by call. -/
theorem Proc.finishes_iff_reaches {p : Proc σ χ ℓ ε α} {s s' : σ} {r : Except ε α} :
    p.Finishes allowed s r s' ↔ p.Reaches allowed s (.ofExcept r) s' := by
  constructor
  · rintro ⟨hist, ps, run, hps⟩
    suffices h : p.Reaches allowed s (ps ()) s' by rwa [hps] at h
    clear hps
    induction run with
    | init => exact .here
    | @step _ ps s' l next cont _ i c scheduled ok ih =>
      cases i
      rw [scheduled] at ih
      rw [Function.update_self]
      exact ih.trans (.step c ok .here)
  · intro h
    have run : Run allowed (fun _ : Unit => p) s [] (fun _ => p) s := .init
    obtain ⟨hist, run⟩ := run.reaches h
    exact ⟨hist, _, run, Function.update_self ..⟩

section Finishes

variable {s s' : σ} {r : Except ε α}

@[simp] theorem Proc.finishes_ret_iff {a : α} :
    (Proc.ret a : Proc σ χ ℓ ε α).Finishes allowed s r s' ↔ r = .ok a ∧ s' = s := by
  rw [Proc.finishes_iff_reaches]
  constructor
  · intro h
    generalize hp : Proc.ofExcept r = p at h
    cases h
    cases r with
    | ok b =>
      cases hp
      exact ⟨rfl, rfl⟩
    | error e => cases hp
  · rintro ⟨rfl, rfl⟩
    exact .here

theorem Proc.finishes_raise_iff {e : ε} :
    (Proc.raise e : Proc σ χ ℓ ε α).Finishes allowed s r s' ↔ r = .error e ∧ s' = s := by
  rw [Proc.finishes_iff_reaches]
  constructor
  · intro h
    generalize hp : Proc.ofExcept r = p at h
    cases h
    cases r with
    | ok b => cases hp
    | error e =>
      cases hp
      exact ⟨rfl, rfl⟩
  · rintro ⟨rfl, rfl⟩
    exact .here

theorem Proc.finishes_step_iff {l : ℓ} {next : χ → σ → σ} {cont : χ → σ → Proc σ χ ℓ ε α} :
    (Proc.step l next cont).Finishes allowed s r s' ↔
      ∃ c, allowed l c s (next c s) ∧ (cont c s).Finishes allowed (next c s) r s' := by
  simp only [Proc.finishes_iff_reaches]
  constructor
  · intro h
    generalize hp : Proc.ofExcept r = p at h
    cases h with
    | here => cases r <;> cases hp
    | step c ok rest => exact ⟨c, ok, hp ▸ rest⟩
  · rintro ⟨c, ok, rest⟩
    exact .step c ok rest

/-- The run in which the environment's choice is a function of the call. -/
theorem Proc.finishes_runWith_of {env : ℓ → χ} (hallowed : ∀ l s s', allowed l (env l) s s')
    (p : Proc σ χ ℓ ε α) (s : σ) :
    p.Finishes allowed s (p.runWith env s).1 (p.runWith env s).2 := by
  induction p generalizing s with
  | ret a => exact Proc.finishes_ret_iff.2 ⟨rfl, rfl⟩
  | raise e => exact Proc.finishes_raise_iff.2 ⟨rfl, rfl⟩
  | step l next cont ih =>
    exact Proc.finishes_step_iff.2 ⟨env l, hallowed l s _, ih (env l) s (next (env l) s)⟩

theorem Proc.finishes_runWith (env : ℓ → χ) (p : Proc σ χ ℓ ε α) (s : σ) :
    p.Finishes (fun _ _ _ _ => True) s (p.runWith env s).1 (p.runWith env s).2 :=
  Proc.finishes_runWith_of (fun _ _ _ => trivial) p s

end Finishes

/-! ### The choices of the environment -/

/-- `p.Finishes`, with the environment's choices at the calls, one after the other. -/
def Proc.FinishesBy (allowed : ℓ → χ → σ → σ → Prop) :
    Proc σ χ ℓ ε α → List χ → σ → Except ε α → σ → Prop
  | .ret a, choices, s, r, s' => choices = [] ∧ r = .ok a ∧ s' = s
  | .raise e, choices, s, r, s' => choices = [] ∧ r = .error e ∧ s' = s
  | .step l next cont, choices, s, r, s' =>
    ∃ c later, choices = c :: later ∧ allowed l c s (next c s) ∧
      (cont c s).FinishesBy allowed later (next c s) r s'

section FinishesBy

variable {choices choices' : List χ} {s s' s'' : σ} {r r' : Except ε α}

theorem Proc.finishesBy_step_iff {l : ℓ} {next : χ → σ → σ} {cont : χ → σ → Proc σ χ ℓ ε α} :
    (Proc.step l next cont).FinishesBy allowed choices s r s' ↔
      ∃ c later, choices = c :: later ∧ allowed l c s (next c s) ∧
        (cont c s).FinishesBy allowed later (next c s) r s' := Iff.rfl

theorem Proc.finishes_iff_finishesBy {p : Proc σ χ ℓ ε α} :
    p.Finishes allowed s r s' ↔ ∃ choices, p.FinishesBy allowed choices s r s' := by
  induction p generalizing s with
  | ret a =>
    rw [Proc.finishes_ret_iff]
    exact ⟨fun h => ⟨[], rfl, h⟩, fun ⟨_, _, h⟩ => h⟩
  | raise e =>
    rw [Proc.finishes_raise_iff]
    exact ⟨fun h => ⟨[], rfl, h⟩, fun ⟨_, _, h⟩ => h⟩
  | step l next cont ih =>
    rw [Proc.finishes_step_iff]
    constructor
    · rintro ⟨c, ok, hrest⟩
      obtain ⟨later, hlater⟩ := (ih c s).1 hrest
      exact ⟨c :: later, c, later, rfl, ok, hlater⟩
    · rintro ⟨_, c, later, -, ok, hlater⟩
      exact ⟨c, ok, (ih c s).2 ⟨later, hlater⟩⟩

/-- **The choices decide the run**, and how many of them it needs. -/
theorem Proc.FinishesBy.unique {p : Proc σ χ ℓ ε α} {later later' : List χ}
    (h : p.FinishesBy allowed choices s r s') (h' : p.FinishesBy allowed choices' s r' s'')
    (heq : choices ++ later = choices' ++ later') :
    r = r' ∧ s' = s'' ∧ later = later' := by
  induction p generalizing s choices choices' with
  | ret a =>
    obtain ⟨rfl, rfl, rfl⟩ := h
    obtain ⟨rfl, rfl, rfl⟩ := h'
    exact ⟨rfl, rfl, heq⟩
  | raise e =>
    obtain ⟨rfl, rfl, rfl⟩ := h
    obtain ⟨rfl, rfl, rfl⟩ := h'
    exact ⟨rfl, rfl, heq⟩
  | step l next cont ih =>
    obtain ⟨c, rest, rfl, -, hrest⟩ := h
    obtain ⟨c', rest', rfl, -, hrest'⟩ := h'
    obtain ⟨rfl, hrests⟩ := List.cons.inj heq
    exact ih c s hrest hrest' hrests

/-- A run of one method after the other takes the choices one after the other. -/
theorem Proc.finishesBy_bind_iff {p : Proc σ χ ℓ ε β} {f : β → Proc σ χ ℓ ε α} :
    (p.bind f).FinishesBy allowed choices s r s' ↔
      (∃ e, r = .error e ∧ p.FinishesBy allowed choices s (.error e) s') ∨
        ∃ b s₁ used later, choices = used ++ later ∧ p.FinishesBy allowed used s (.ok b) s₁ ∧
          (f b).FinishesBy allowed later s₁ r s' := by
  induction p generalizing s choices with
  | ret b =>
    show (f b).FinishesBy allowed choices s r s' ↔ _
    constructor
    · exact fun h => .inr ⟨b, s, [], choices, rfl, ⟨rfl, rfl, rfl⟩, h⟩
    · rintro (⟨e, -, -, he, -⟩ | ⟨b', s₁, used, later, rfl, ⟨rfl, hb, rfl⟩, h⟩)
      · cases he
      · cases hb
        exact h
  | raise e =>
    show (Proc.raise e).FinishesBy allowed choices s r s' ↔ _
    constructor
    · rintro ⟨rfl, rfl, rfl⟩
      exact .inl ⟨e, rfl, rfl, rfl, rfl⟩
    · rintro (⟨e', rfl, rfl, he, rfl⟩ | ⟨b, s₁, used, later, -, ⟨-, hb, -⟩, -⟩)
      · cases he
        exact ⟨rfl, rfl, rfl⟩
      · cases hb
  | step l next cont ih =>
    show (Proc.step l next fun c s => (cont c s).bind f).FinishesBy allowed choices s r s' ↔ _
    constructor
    · rintro ⟨c, rest, rfl, ok, hrest⟩
      rcases (ih c s).1 hrest with ⟨e, rfl, h⟩ | ⟨b, s₁, used, later, rfl, h, hf⟩
      · exact .inl ⟨e, rfl, c, rest, rfl, ok, h⟩
      · exact .inr ⟨b, s₁, c :: used, later, rfl, ⟨c, used, rfl, ok, h⟩, hf⟩
    · rintro (⟨e, rfl, c, rest, rfl, ok, h⟩ | ⟨b, s₁, _, later, rfl, ⟨c, used, rfl, ok, h⟩, hf⟩)
      · exact ⟨c, rest, rfl, ok, (ih c s).2 (.inl ⟨e, rfl, h⟩)⟩
      · exact ⟨c, used ++ later, rfl, ok, (ih c s).2 (.inr ⟨b, s₁, used, later, rfl, h, hf⟩)⟩

end FinishesBy

/-! ### Restrictions on a run -/

/-- A run is a run under other restrictions as well, when these follow in the states of an invariant
that the calls keep. -/
theorem Run.restrict {ι : Type} [DecidableEq ι] {allowed' : ℓ → χ → σ → σ → Prop}
    {R : σ → σ → Prop} {I : σ → Prop} {start : ι → Proc σ χ ℓ ε α}
    (hstart : ∀ i, (start i).Keeps allowed R) (hI : ∀ s s', R s s' → I s → I s')
    (h : ∀ l c s s', I s → allowed l c s s' → allowed' l c s s') {s₀ s : σ} (h₀ : I s₀) {hist ps}
    (run : Run allowed start s₀ hist ps s) : Run allowed' start s₀ hist ps s := by
  suffices hall : Run allowed' start s₀ hist ps s ∧ I s ∧ ∀ i, (ps i).Keeps allowed R from hall.1
  induction run with
  | init => exact ⟨.init, h₀, hstart⟩
  | @step hist ps s l next cont _ i c scheduled ok ih =>
    obtain ⟨hrun, hs, hps⟩ := ih
    have hi := hps i
    rw [scheduled] at hi
    obtain ⟨hnext, hcont⟩ := hi c s ok
    refine ⟨.step hrun i c scheduled (h l c s _ hs ok), hI s _ hnext hs, fun j => ?_⟩
    by_cases hj : j = i
    · subst hj
      simpa using hcont
    · simpa [Function.update_of_ne hj] using hps j

end Conc
