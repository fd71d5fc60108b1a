import AccountOS.Conc.Trace

/-!
# A system within a bigger one

A `Part` of a system has its own state, its own calls, and its own choices of the environment. A
method of the part is a method of the whole (`Proc.within`), and what the whole does is seen by the
part through those of its calls that are the part's own (`projected`).

`Proc.Simulates` relates a method of the whole to one of the part: each call of the former is either
not one of the part's, and leaves its state, or the next call of the latter. Then the part sees a
run of its own methods (`Run.projected`). A thread of the whole may decide only late which method of
the part it will run; so the relation is asked for no more than the calls that `Fits` admits, such as
those that occur in a given run.
-/

namespace Conc

variable {ι σ' σ χ' χ ℓ' ℓ ε' ε α' β' α β : Type}

/-- Where the state of the part is, and which calls are its own. -/
structure Part (σ' σ χ' χ ℓ' ℓ : Type) where
  get : σ' → σ
  put : σ → σ' → σ'
  choice : χ' → χ
  label : ℓ → ℓ'
  own : ℓ' → Option ℓ
  get_put : ∀ a s, get (put a s) = a
  own_label : ∀ l, own (label l) = some l

/-- The method of a part, as a method of the whole. -/
def Proc.within (P : Part σ' σ χ' χ ℓ' ℓ) : Proc σ χ ℓ ε α → Proc σ' χ' ℓ' ε α
  | .ret a => .ret a
  | .raise e => .raise e
  | .step l next cont =>
    .step (P.label l) (fun c s => P.put (next (P.choice c) (P.get s)) s)
      fun c s => (cont (P.choice c) (P.get s)).within P

section Within

variable {P : Part σ' σ χ' χ ℓ' ℓ}

theorem Proc.within_bind (p : Proc σ χ ℓ ε α) (f : α → Proc σ χ ℓ ε β) :
    (p.bind f).within P = (p.within P).bind fun a => (f a).within P := by
  induction p with
  | ret a => rfl
  | raise e => rfl
  | step l next cont ih =>
    simp only [Proc.bind, Proc.within, ih]

theorem Proc.within_catching (p : Proc σ χ ℓ ε α) (f : ε → Proc σ χ ℓ ε α) :
    (p.catching f).within P = (p.within P).catching fun e => (f e).within P := by
  induction p with
  | ret a => rfl
  | raise e => rfl
  | step l next cont ih =>
    simp only [Proc.catching, Proc.within, ih]

theorem Proc.within_ofExcept (r : Except ε α) :
    (Proc.ofExcept r : Proc σ χ ℓ ε α).within P = .ofExcept r := by
  cases r <;> rfl

theorem Proc.within_call (l : ℓ) (f : χ → σ → Except ε α × σ) :
    (Proc.call l f).within P =
      Proc.call (P.label l) fun c s =>
        ((f (P.choice c) (P.get s)).1, P.put (f (P.choice c) (P.get s)).2 s) := by
  simp only [Proc.call, Proc.within, Proc.within_ofExcept]

end Within

/-- What the part sees of a call. -/
def Event.projected (P : Part σ' σ χ' χ ℓ' ℓ) (ev : Event ι σ' χ' ℓ') : Option (Event ι σ χ ℓ) :=
  (P.own ev.call).map fun l => ⟨ev.who, l, P.choice ev.choice, P.get ev.before, P.get ev.after⟩

/-- What the part sees of a history. -/
def projected (P : Part σ' σ χ' χ ℓ' ℓ) (hist : List (Event ι σ' χ' ℓ')) : List (Event ι σ χ ℓ) :=
  hist.filterMap (Event.projected P)

section Projected

variable {P : Part σ' σ χ' χ ℓ' ℓ} {hist : List (Event ι σ' χ' ℓ')} {ev : Event ι σ' χ' ℓ'}

/-- A call of the part's is seen as such. -/
theorem mem_projected (hev : ev ∈ hist) {l : ℓ} (hl : P.own ev.call = some l) :
    (⟨ev.who, l, P.choice ev.choice, P.get ev.before, P.get ev.after⟩ : Event ι σ χ ℓ) ∈
      projected P hist := by
  refine List.mem_filterMap.2 ⟨ev, hev, ?_⟩
  rw [Event.projected, hl]
  rfl

theorem projected_append (hist hist' : List (Event ι σ' χ' ℓ')) :
    projected P (hist ++ hist') = projected P hist ++ projected P hist' :=
  List.filterMap_append ..

theorem projected_singleton_of_none (hl : P.own ev.call = none) : projected P [ev] = [] := by
  rw [projected, List.filterMap_cons_none (by rw [Event.projected, hl]; rfl), List.filterMap_nil]

theorem projected_singleton_of_some {l : ℓ} (hl : P.own ev.call = some l) :
    projected P [ev] = [⟨ev.who, l, P.choice ev.choice, P.get ev.before, P.get ev.after⟩] := by
  have hev : Event.projected P ev =
      some ⟨ev.who, l, P.choice ev.choice, P.get ev.before, P.get ev.after⟩ := by
    rw [Event.projected, hl]
    rfl
  rw [projected, List.filterMap_cons_some hev, List.filterMap_nil]

end Projected

namespace Proc

/-! ### Methods that the part does not see -/

/-- No call of the method is one of the part's, and none changes its state; a value that it returns
has `A`. -/
def SilentTo (P : Part σ' σ χ' χ ℓ' ℓ) (Fits : Event ι σ' χ' ℓ' → Prop) (i : ι) (A : α' → Prop) :
    Proc σ' χ' ℓ' ε' α' → Prop
  | .ret a => A a
  | .raise _ => True
  | .step l next cont => ∀ c s, Fits ⟨i, l, c, s, next c s⟩ →
      P.own l = none ∧ P.get (next c s) = P.get s ∧ (cont c s).SilentTo P Fits i A

/-- The method of the whole does on the part what the part's method does. -/
def Simulates (P : Part σ' σ χ' χ ℓ' ℓ) (Fits : Event ι σ' χ' ℓ' → Prop) (i : ι) :
    Proc σ' χ' ℓ' ε' α' → Proc σ χ ℓ ε α → Prop
  | .ret _, _ => True
  | .raise _, _ => True
  | .step l next cont, q => ∀ c s, Fits ⟨i, l, c, s, next c s⟩ →
      (P.own l = none ∧ P.get (next c s) = P.get s ∧ (cont c s).Simulates P Fits i q) ∨
      ∃ l₁ next₁ cont₁, q = .step l₁ next₁ cont₁ ∧ P.own l = some l₁ ∧
        P.get (next c s) = next₁ (P.choice c) (P.get s) ∧
        (cont c s).Simulates P Fits i (cont₁ (P.choice c) (P.get s))

section Simulates

variable {P : Part σ' σ χ' χ ℓ' ℓ} {Fits : Event ι σ' χ' ℓ' → Prop} {i : ι} {A : α' → Prop}

theorem SilentTo.mono {A' : α' → Prop} (hA : ∀ a, A a → A' a) {p : Proc σ' χ' ℓ' ε' α'}
    (h : p.SilentTo P Fits i A) : p.SilentTo P Fits i A' := by
  induction p with
  | ret a => exact hA a h
  | raise e => trivial
  | step l next cont ih =>
    intro c s hfits
    obtain ⟨hown, hget, hrest⟩ := h c s hfits
    exact ⟨hown, hget, ih c s hrest⟩

theorem SilentTo.bind {p : Proc σ' χ' ℓ' ε' α'} {f : α' → Proc σ' χ' ℓ' ε' β'} {B : β' → Prop}
    (h : p.SilentTo P Fits i A) (hf : ∀ a, A a → (f a).SilentTo P Fits i B) :
    (p.bind f).SilentTo P Fits i B := by
  induction p with
  | ret a => exact hf a h
  | raise e => trivial
  | step l next cont ih =>
    intro c s hfits
    obtain ⟨hown, hget, hrest⟩ := h c s hfits
    exact ⟨hown, hget, ih c s hrest⟩

theorem SilentTo.catching {p : Proc σ' χ' ℓ' ε' α'} {f : ε' → Proc σ' χ' ℓ' ε' α'}
    (h : p.SilentTo P Fits i A) (hf : ∀ e, (f e).SilentTo P Fits i A) :
    (p.catching f).SilentTo P Fits i A := by
  induction p with
  | ret a => exact h
  | raise e => exact hf e
  | step l next cont ih =>
    intro c s hfits
    obtain ⟨hown, hget, hrest⟩ := h c s hfits
    exact ⟨hown, hget, ih c s hrest⟩

theorem silentTo_ofExcept {r : Except ε' α'} (h : ∀ a, r = .ok a → A a) :
    (ofExcept r : Proc σ' χ' ℓ' ε' α').SilentTo P Fits i A := by
  cases r with
  | ok a => exact h a rfl
  | error e => trivial

/-- The rule for a single call. -/
theorem SilentTo.call {l : ℓ'} {f : χ' → σ' → Except ε' α' × σ'} (hl : P.own l = none)
    (hget : ∀ c s, P.get (f c s).2 = P.get s)
    (hA : ∀ c s, Fits ⟨i, l, c, s, (f c s).2⟩ → ∀ a, (f c s).1 = .ok a → A a) :
    (Proc.call l f).SilentTo P Fits i A :=
  fun c s hfits => ⟨hl, hget c s, silentTo_ofExcept (hA c s hfits)⟩

/-- The methods of another part, which this one does not see. -/
theorem silentTo_within {σ₂ χ₂ ℓ₂ : Type} {P₂ : Part σ' σ₂ χ' χ₂ ℓ' ℓ₂}
    (hl : ∀ l, P.own (P₂.label l) = none) (hget : ∀ a s, P.get (P₂.put a s) = P.get s)
    (p : Proc σ₂ χ₂ ℓ₂ ε' α') : (p.within P₂).SilentTo P Fits i fun _ => True := by
  induction p with
  | ret a => trivial
  | raise e => trivial
  | step l next cont ih => exact fun c s _ => ⟨hl l, hget _ s, ih _ _⟩

/-- A method that the part does not see may stand for any of the part's. -/
theorem SilentTo.simulates {p : Proc σ' χ' ℓ' ε' α'} (h : p.SilentTo P Fits i A)
    (q : Proc σ χ ℓ ε α) : p.Simulates P Fits i q := by
  induction p with
  | ret a => trivial
  | raise e => trivial
  | step l next cont ih =>
    intro c s hfits
    obtain ⟨hown, hget, hrest⟩ := h c s hfits
    exact .inl ⟨hown, hget, ih c s hrest⟩

/-- The part does not see what comes before. -/
theorem SilentTo.simulates_bind {p : Proc σ' χ' ℓ' ε' α'} {f : α' → Proc σ' χ' ℓ' ε' β'}
    {q : Proc σ χ ℓ ε α} (h : p.SilentTo P Fits i A)
    (hf : ∀ a, A a → (f a).Simulates P Fits i q) : (p.bind f).Simulates P Fits i q := by
  induction p with
  | ret a => exact hf a h
  | raise e => trivial
  | step l next cont ih =>
    intro c s hfits
    obtain ⟨hown, hget, hrest⟩ := h c s hfits
    exact .inl ⟨hown, hget, ih c s hrest⟩

/-- Nor what comes afterwards. -/
theorem Simulates.bind {p : Proc σ' χ' ℓ' ε' α'} {f : α' → Proc σ' χ' ℓ' ε' β'} {B : β' → Prop}
    {q : Proc σ χ ℓ ε α} (h : p.Simulates P Fits i q) (hf : ∀ a, (f a).SilentTo P Fits i B) :
    (p.bind f).Simulates P Fits i q := by
  induction p generalizing q with
  | ret a => exact (hf a).simulates q
  | raise e => trivial
  | step l next cont ih =>
    intro c s hfits
    rcases h c s hfits with ⟨hown, hget, hrest⟩ | ⟨l₁, next₁, cont₁, hq, hown, hget, hrest⟩
    · exact .inl ⟨hown, hget, ih c s hrest⟩
    · exact .inr ⟨l₁, next₁, cont₁, hq, hown, hget, ih c s hrest⟩

theorem Simulates.catching {p : Proc σ' χ' ℓ' ε' α'} {f : ε' → Proc σ' χ' ℓ' ε' α'}
    {q : Proc σ χ ℓ ε α} (h : p.Simulates P Fits i q) (hf : ∀ e, (f e).SilentTo P Fits i A) :
    (p.catching f).Simulates P Fits i q := by
  induction p generalizing q with
  | ret a => trivial
  | raise e => exact (hf e).simulates q
  | step l next cont ih =>
    intro c s hfits
    rcases h c s hfits with ⟨hown, hget, hrest⟩ | ⟨l₁, next₁, cont₁, hq, hown, hget, hrest⟩
    · exact .inl ⟨hown, hget, ih c s hrest⟩
    · exact .inr ⟨l₁, next₁, cont₁, hq, hown, hget, ih c s hrest⟩

/-- A method of the part does what it does. -/
theorem simulates_within (q : Proc σ χ ℓ ε α) : (q.within P).Simulates P Fits i q := by
  induction q with
  | ret a => trivial
  | raise e => trivial
  | step l next cont ih =>
    exact fun c s _ => .inr ⟨l, next, cont, rfl, P.own_label l, P.get_put _ s, ih _ _⟩

/-- A method of the part does what it does, and so does what follows. -/
theorem simulates_within_bind {f : α → Proc σ' χ' ℓ' ε β'} {g : α → Proc σ χ ℓ ε β}
    (hf : ∀ a, (f a).Simulates P Fits i (g a)) (q : Proc σ χ ℓ ε α) :
    ((q.within P).bind f).Simulates P Fits i (q.bind g) := by
  induction q with
  | ret a => exact hf a
  | raise e => trivial
  | step l next cont ih =>
    exact fun c s _ => .inr ⟨l, next, _, rfl, P.own_label l, P.get_put _ s, ih _ _⟩

end Simulates

/-! ### The calls of a thread -/

section Traced

variable {i : ι}

/-- What is known of each call of the part's method is known of what the part sees of it. -/
theorem Traced.within {P : Part σ' σ χ' χ ℓ' ℓ}
    {K : List (Event ι σ χ ℓ) → Event ι σ χ ℓ → Prop} {Q : α → List (Event ι σ χ ℓ) → Prop}
    {E : ε → List (Event ι σ χ ℓ) → Prop} {p : Proc σ χ ℓ ε α} {past : List (Event ι σ' χ' ℓ')}
    (h : p.Traced i K Q E (projected P past)) :
    (p.within P).Traced i
      (fun past ev => ∃ ev₁, Event.projected P ev = some ev₁ ∧ K (projected P past) ev₁)
      (fun a past => Q a (projected P past)) (fun e past => E e (projected P past)) past := by
  induction p generalizing past with
  | ret a => exact h
  | raise e => exact h
  | step l next cont ih =>
    intro c s
    obtain ⟨hK, hrest⟩ := h (P.choice c) (P.get s)
    have hev : Event.projected P ⟨i, P.label l, c, s, P.put (next (P.choice c) (P.get s)) s⟩ =
        some ⟨i, l, P.choice c, P.get s, next (P.choice c) (P.get s)⟩ := by
      rw [Event.projected, P.own_label, P.get_put]
      rfl
    refine ⟨⟨_, hev, hK⟩, ih _ _ ?_⟩
    have hpast : projected P (past ++ [⟨i, P.label l, c, s, P.put (next (P.choice c) (P.get s)) s⟩]) =
        projected P past ++ [⟨i, l, P.choice c, P.get s, next (P.choice c) (P.get s)⟩] := by
      rw [projected_append, projected, projected, List.filterMap_cons_some hev, List.filterMap_nil]
    rw [hpast]
    exact hrest

/-- What is asked of a call with all that may have come before holds of any method. -/
theorem traced_of_forall {K : List (Event ι σ χ ℓ) → Event ι σ χ ℓ → Prop}
    {past : List (Event ι σ χ ℓ)} (hK : ∀ later ev, K (past ++ later) ev) (p : Proc σ χ ℓ ε α) :
    p.Traced i K (fun _ _ => True) (fun _ _ => True) past := by
  induction p generalizing past with
  | ret a => trivial
  | raise e => trivial
  | step l next cont ih =>
    intro c s
    refine ⟨?_, ih c s fun later ev => ?_⟩
    · have hnow := hK [] ⟨i, l, c, s, next c s⟩
      rwa [List.append_nil] at hnow
    · rw [List.append_assoc]
      exact hK _ ev

/-- What is known of a value that is returned, when the calls up to then are among those that
`Fits` admits. -/
theorem SilentTo.of_traced {P : Part σ' σ χ' χ ℓ' ℓ} {Fits : Event ι σ' χ' ℓ' → Prop}
    {A : α' → Prop} {K : List (Event ι σ' χ' ℓ') → Event ι σ' χ' ℓ' → Prop}
    {Q : α' → List (Event ι σ' χ' ℓ') → Prop} {E : ε' → List (Event ι σ' χ' ℓ') → Prop}
    {past : List (Event ι σ' χ' ℓ')} {p : Proc σ' χ' ℓ' ε' α'} (hp : p.SilentTo P Fits i A)
    (h : p.Traced i K Q E past) (hpast : ∀ ev ∈ past, ev.who = i ∧ Fits ev) :
    p.SilentTo P Fits i fun a => ∃ past, (∀ ev ∈ past, ev.who = i ∧ Fits ev) ∧ Q a past := by
  induction p generalizing past with
  | ret a => exact ⟨past, hpast, h⟩
  | raise e => trivial
  | step l next cont ih =>
    intro c s hfits
    obtain ⟨hown, hget, hrest⟩ := hp c s hfits
    refine ⟨hown, hget, ih c s hrest (h c s).2 fun ev hev => ?_⟩
    rcases List.mem_append.1 hev with hev | hev
    · exact hpast ev hev
    · rw [List.mem_singleton.1 hev]
      exact ⟨rfl, hfits⟩

end Traced

theorem bind_bind {γ : Type} (p : Proc σ χ ℓ ε α) (f : α → Proc σ χ ℓ ε β)
    (g : β → Proc σ χ ℓ ε γ) : (p.bind f).bind g = p.bind fun a => (f a).bind g := by
  induction p with
  | ret a => rfl
  | raise e => rfl
  | step l next cont ih =>
    simp only [Proc.bind, ih]

/-- A method whose answer is dropped keeps what the method keeps. -/
theorem Wp.of_bind_ret {γ : Type} [DecidableEq ι] {P : Protocol ι σ χ ℓ γ} {i : ι} {b : β}
    {Q : β → γ → Prop} {E : ε → γ → Prop} {p : Proc σ χ ℓ ε α} {g : γ}
    (h : (p.bind fun _ => .ret b).Wp P i Q E g) : p.Wp P i (fun _ g => Q b g) E g := by
  induction p generalizing g with
  | ret a => exact h
  | raise e => exact h
  | step l next cont ih =>
    intro G hist s c hG hinv hok
    obtain ⟨g', hinv', hrest⟩ := h G hist s c hG hinv hok
    exact ⟨g', hinv', ih c s hrest⟩

end Proc

/-! ### Runs -/

/-- **What the part sees of a run is a run.** -/
theorem Run.projected [DecidableEq ι] {P : Part σ' σ χ' χ ℓ' ℓ}
    {allowed' : ℓ' → χ' → σ' → σ' → Prop} {allowed : ℓ → χ → σ → σ → Prop}
    {start' : ι → Proc σ' χ' ℓ' ε' α'} {start : ι → Proc σ χ ℓ ε α} {s₀ s : σ'}
    {hist : List (Event ι σ' χ' ℓ')} {ps : ι → Proc σ' χ' ℓ' ε' α'}
    (run : Run allowed' start' s₀ hist ps s) {Fits : Event ι σ' χ' ℓ' → Prop}
    (hfits : ∀ ev ∈ hist, Fits ev)
    (hallowed : ∀ l l₁ c s s', P.own l = some l₁ → allowed' l c s s' →
      allowed l₁ (P.choice c) (P.get s) (P.get s'))
    (hstart : ∀ i, (start' i).Simulates P Fits i (start i)) :
    ∃ qs, Run allowed start (P.get s₀) (Conc.projected P hist) qs (P.get s) ∧
      ∀ i, (ps i).Simulates P Fits i (qs i) := by
  induction run with
  | init => exact ⟨start, .init, hstart⟩
  | @step hist ps s l next cont run i c scheduled ok ih =>
    obtain ⟨qs, hrun, hqs⟩ := ih fun ev hev => hfits ev (List.mem_append_left _ hev)
    have hi := hqs i
    rw [scheduled] at hi
    have hfit := hfits _ (List.mem_append_right _ (List.mem_singleton_self _))
    rw [projected_append]
    rcases hi c s hfit with ⟨hown, hget, hrest⟩ | ⟨l₁, next₁, cont₁, hq, hown, hget, hrest⟩
    · -- a call that the part does not see
      rw [projected_singleton_of_none hown, List.append_nil, hget]
      refine ⟨qs, hrun, fun j => ?_⟩
      by_cases hj : j = i
      · subst hj
        simpa using hrest
      · simpa [Function.update_of_ne hj] using hqs j
    · rw [projected_singleton_of_some hown]
      have hok : allowed l₁ (P.choice c) (P.get s) (next₁ (P.choice c) (P.get s)) := by
        rw [← hget]
        exact hallowed l l₁ c s _ hown ok
      have hstep := Run.step hrun i (P.choice c) hq hok
      rw [hget]
      refine ⟨_, hstep, fun j => ?_⟩
      by_cases hj : j = i
      · subst hj
        simpa using hrest
      · simpa [Function.update_of_ne hj] using hqs j

/-- A call that is none of the part's leaves its state. -/
theorem Run.get_eq_of_own_eq_none [DecidableEq ι] {P : Part σ' σ χ' χ ℓ' ℓ}
    {allowed' : ℓ' → χ' → σ' → σ' → Prop} {start' : ι → Proc σ' χ' ℓ' ε' α'}
    {start : ι → Proc σ χ ℓ ε α} {s₀ s : σ'} {hist : List (Event ι σ' χ' ℓ')}
    {ps : ι → Proc σ' χ' ℓ' ε' α'} (run : Run allowed' start' s₀ hist ps s)
    {Fits : Event ι σ' χ' ℓ' → Prop} (hfits : ∀ ev ∈ hist, Fits ev)
    (hstart : ∀ i, (start' i).Simulates P Fits i (start i)) {ev : Event ι σ' χ' ℓ'} (hev : ev ∈ hist)
    (hown : P.own ev.call = none) : P.get ev.after = P.get ev.before := by
  induction run with
  | init => cases hev
  | @step hist ps s l next cont run i c scheduled ok ih =>
    have hpast : ∀ ev ∈ hist, Fits ev := fun ev hev => hfits ev (List.mem_append_left _ hev)
    rcases List.mem_append.1 hev with hev | hev
    · exact ih hpast hev
    · rw [List.mem_singleton] at hev
      subst hev
      have hproj : ∃ qs, Run (fun _ _ _ _ => True) start (P.get s₀) (Conc.projected P hist) qs
          (P.get s) ∧ ∀ i, (ps i).Simulates P Fits i (qs i) :=
        run.projected hpast (fun _ _ _ _ _ _ _ => trivial) hstart
      obtain ⟨qs, -, hqs⟩ := hproj
      have hi := hqs i
      rw [scheduled] at hi
      have hfit := hfits _ (List.mem_append_right _ (List.mem_singleton_self _))
      rcases hi c s hfit with ⟨-, hget, -⟩ | ⟨l₁, _, _, -, hsome, -⟩
      · exact hget
      · rw [hown] at hsome
        cases hsome

/-! ### The calls of the part in a run of the whole -/

section Numbers

variable {P : Part σ' σ χ' χ ℓ' ℓ} {hist : List (Event ι σ' χ' ℓ')} {s : σ'} {n : ℕ}
  {ev : Event ι σ' χ' ℓ'} {ev₁ : Event ι σ χ ℓ}

/-- How many of the first calls are the part's own. -/
def ownBefore (P : Part σ' σ χ' χ ℓ' ℓ) (hist : List (Event ι σ' χ' ℓ')) (n : ℕ) : ℕ :=
  (projected P (hist.take n)).length

theorem projected_take (hist : List (Event ι σ' χ' ℓ')) (n : ℕ) :
    (projected P hist).take (ownBefore P hist n) = projected P (hist.take n) := by
  have hsplit : projected P hist = projected P (hist.take n) ++ projected P (hist.drop n) := by
    rw [← projected_append, List.take_append_drop]
  rw [hsplit]
  exact List.take_left

/-- The number of a call among those of the part. -/
theorem getElem?_projected (hev : hist[n]? = some ev) (hev₁ : ev.projected P = some ev₁) :
    (projected P hist)[ownBefore P hist n]? = some ev₁ := by
  obtain ⟨hn, hget⟩ := List.getElem?_eq_some_iff.1 hev
  have hsplit : hist = hist.take n ++ ev :: hist.drop (n + 1) := by
    rw [← hget, List.cons_getElem_drop_succ, List.take_append_drop]
  have hcons : projected P (ev :: hist.drop (n + 1)) = ev₁ :: projected P (hist.drop (n + 1)) :=
    List.filterMap_cons_some hev₁
  have happend : projected P hist =
      projected P (hist.take n) ++ ev₁ :: projected P (hist.drop (n + 1)) := by
    rw [← hcons, ← projected_append, ← hsplit]
  rw [happend, ownBefore, List.getElem?_append_right (Nat.le_refl _), Nat.sub_self]
  rfl

/-- A call of the part is a call of the whole. -/
theorem exists_getElem?_of_projected {m : ℕ} (hev₁ : (projected P hist)[m]? = some ev₁) :
    ∃ (n : ℕ) (ev : Event ι σ' χ' ℓ'), hist[n]? = some ev ∧ ev.projected P = some ev₁ ∧
      ownBefore P hist n = m := by
  induction hist generalizing m with
  | nil => cases hev₁
  | cons x hist ih =>
    cases hx : x.projected P with
    | none =>
      have hskip : projected P (x :: hist) = projected P hist := List.filterMap_cons_none hx
      rw [hskip] at hev₁
      obtain ⟨n, ev, hn, hev, hm⟩ := ih hev₁
      refine ⟨n + 1, ev, hn, hev, ?_⟩
      rw [← hm, ownBefore, ownBefore, List.take_succ_cons]
      exact congrArg List.length (List.filterMap_cons_none hx)
    | some x₁ =>
      have hcons : projected P (x :: hist) = x₁ :: projected P hist := List.filterMap_cons_some hx
      rw [hcons] at hev₁
      cases m with
      | zero =>
        cases hev₁
        exact ⟨0, x, rfl, hx, rfl⟩
      | succ m =>
        obtain ⟨n, ev, hn, hev, hm⟩ := ih hev₁
        refine ⟨n + 1, ev, hn, hev, ?_⟩
        have htake : projected P ((x :: hist).take (n + 1)) = x₁ :: projected P (hist.take n) := by
          rw [List.take_succ_cons]
          exact List.filterMap_cons_some hx
        rw [ownBefore, htake, List.length_cons, ← hm]
        rfl

/-- The part's calls are numbered in the order of the whole. -/
theorem ownBefore_mono (P : Part σ' σ χ' χ ℓ' ℓ) (hist : List (Event ι σ' χ' ℓ')) {m n : ℕ}
    (hmn : m ≤ n) : ownBefore P hist m ≤ ownBefore P hist n := by
  have htake : hist.take m = (hist.take n).take m := by rw [List.take_take, Nat.min_eq_left hmn]
  have hsplit : projected P (hist.take n) =
      projected P (hist.take m) ++ projected P ((hist.take n).drop m) := by
    rw [htake, ← projected_append, List.take_append_drop]
  rw [ownBefore, ownBefore, hsplit, List.length_append]
  exact Nat.le_add_right _ _

theorem callsOf_projected [DecidableEq ι] (i : ι) (hist : List (Event ι σ' χ' ℓ')) :
    callsOf i (projected P hist) = projected P (callsOf i hist) := by
  induction hist with
  | nil => rfl
  | cons x hist ih =>
    have hwho : ∀ x₁, x.projected P = some x₁ → x₁.who = x.who := by
      intro x₁ hx₁
      obtain ⟨l, -, rfl⟩ := Option.map_eq_some_iff.1 hx₁
      rfl
    cases hx : x.projected P with
    | none =>
      have hskip : projected P (x :: hist) = projected P hist := List.filterMap_cons_none hx
      rw [hskip, ih]
      by_cases hi : x.who = i
      · rw [callsOf, callsOf, List.filter_cons_of_pos (by simpa using hi)]
        exact (List.filterMap_cons_none hx).symm
      · rw [callsOf, callsOf, List.filter_cons_of_neg (by simpa using hi)]
    | some x₁ =>
      have hcons : projected P (x :: hist) = x₁ :: projected P hist := List.filterMap_cons_some hx
      rw [hcons]
      by_cases hi : x.who = i
      · have hi₁ : x₁.who = i := by rw [hwho x₁ hx, hi]
        rw [callsOf, callsOf, List.filter_cons_of_pos (by simpa using hi₁),
          List.filter_cons_of_pos (by simpa using hi)]
        refine (congrArg (x₁ :: ·) ih).trans ?_
        exact (List.filterMap_cons_some hx).symm
      · have hi₁ : ¬ x₁.who = i := by rwa [hwho x₁ hx]
        rw [callsOf, callsOf, List.filter_cons_of_neg (by simpa using hi₁),
          List.filter_cons_of_neg (by simpa using hi)]
        exact ih

end Numbers

/-- The part's states are those that it finds in the whole. -/
theorem Run.stateAt_projected [DecidableEq ι] {P : Part σ' σ χ' χ ℓ' ℓ}
    {allowed' : ℓ' → χ' → σ' → σ' → Prop} {start' : ι → Proc σ' χ' ℓ' ε' α'}
    {start : ι → Proc σ χ ℓ ε α} {s₀ s : σ'} {hist : List (Event ι σ' χ' ℓ')}
    {ps : ι → Proc σ' χ' ℓ' ε' α'} (run : Run allowed' start' s₀ hist ps s)
    {Fits : Event ι σ' χ' ℓ' → Prop} (hfits : ∀ ev ∈ hist, Fits ev)
    (hstart : ∀ i, (start' i).Simulates P Fits i (start i)) {n : ℕ} (hn : n ≤ hist.length) :
    stateAt (Conc.projected P hist) (P.get s) (ownBefore P hist n) = P.get (stateAt hist s n) := by
  have hproj : ∃ qs, Run (fun _ _ _ _ => True) start (P.get s₀) (Conc.projected P hist) qs
      (P.get s) ∧ ∀ i, (ps i).Simulates P Fits i (qs i) :=
    run.projected hfits (fun _ _ _ _ _ _ _ => trivial) hstart
  obtain ⟨qs, hrun, -⟩ := hproj
  induction n with
  | zero =>
    rw [run.stateAt_zero]
    exact hrun.stateAt_zero
  | succ n ih =>
    have hlt : n < hist.length := hn
    have hev : hist[n]? = some hist[n] := List.getElem?_eq_getElem hlt
    have ih := ih (Nat.le_of_lt hlt)
    have htake : Conc.projected P (hist.take (n + 1)) =
        Conc.projected P (hist.take n) ++ Conc.projected P [hist[n]] := by
      rw [← List.take_concat_get' hist n hlt, projected_append]
    rw [run.stateAt_succ hev]
    cases hown : P.own hist[n].call with
    | none =>
      have hsame : ownBefore P hist (n + 1) = ownBefore P hist n := by
        rw [ownBefore, htake, projected_singleton_of_none hown, List.append_nil]
        rfl
      rw [hsame, ih, stateAt_eq_before hev]
      exact (run.get_eq_of_own_eq_none hfits hstart (List.getElem_mem hlt) hown).symm
    | some l =>
      have hnext : ownBefore P hist (n + 1) = ownBefore P hist n + 1 := by
        rw [ownBefore, htake, projected_singleton_of_some hown, List.length_append]
        rfl
      have hev₁ : (hist[n]).projected P = some ⟨hist[n].who, l, P.choice hist[n].choice,
          P.get hist[n].before, P.get hist[n].after⟩ := by
        rw [Event.projected, hown]
        rfl
      rw [hnext, hrun.stateAt_succ (getElem?_projected hev hev₁)]

end Conc
