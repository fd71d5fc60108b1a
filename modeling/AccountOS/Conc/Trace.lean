import AccountOS.Conc.Alone

/-!
# What has happened before a call

The calls of a run are numbered from `0`, and `stateAt n` is the state before call `n`. A fact about
the state that holds at one point and not at a later one was changed by a call in between, and
`Run.exists_change` finds it.

What a thread does next depends on what it has called so far, and on nothing else that it could
know. `Proc.Traced` follows a method with the calls it has made: whatever the state is at each call,
`K` relates the call to the calls of the same thread before it. `Run.traced` carries this to every
call of every run of a pool, where the other threads decide what the states are.
-/

namespace Conc

variable {ι σ χ ℓ ε α β : Type}

/-! ### The states of a run -/

/-- The state before call `n`, and after all of them the last one. -/
def stateAt (hist : List (Event ι σ χ ℓ)) (s : σ) (n : ℕ) : σ := (hist[n]?.map Event.before).getD s

/-- A call takes place: it is number `n`. -/
theorem stateAt_eq_before {hist : List (Event ι σ χ ℓ)} {s : σ} {n : ℕ} {ev : Event ι σ χ ℓ}
    (hev : hist[n]? = some ev) : stateAt hist s n = ev.before := by
  rw [stateAt, hev]
  rfl

theorem stateAt_of_le {hist : List (Event ι σ χ ℓ)} {s : σ} {n : ℕ} (hn : hist.length ≤ n) :
    stateAt hist s n = s := by
  rw [stateAt, List.getElem?_eq_none hn]
  rfl

/-- The states before a call do not depend on what follows it. -/
theorem stateAt_append_singleton {hist : List (Event ι σ χ ℓ)} {ev : Event ι σ χ ℓ} {s : σ} {n : ℕ}
    (hn : n ≤ hist.length) : stateAt (hist ++ [ev]) s n = stateAt hist ev.before n := by
  rcases Nat.lt_or_eq_of_le hn with hlt | rfl
  · rw [stateAt, stateAt, List.getElem?_append_left hlt, List.getElem?_eq_getElem hlt]
    rfl
  · have hlast : stateAt hist ev.before hist.length = ev.before := stateAt_of_le (Nat.le_refl _)
    rw [hlast]
    exact stateAt_eq_before List.getElem?_concat_length

section Run

variable [DecidableEq ι] {allowed : ℓ → χ → σ → σ → Prop} {start : ι → Proc σ χ ℓ ε α} {s₀ s : σ}
  {hist : List (Event ι σ χ ℓ)} {ps : ι → Proc σ χ ℓ ε α}

theorem Run.stateAt_zero (run : Run allowed start s₀ hist ps s) : stateAt hist s 0 = s₀ := by
  induction run with
  | init => rfl
  | step run i c scheduled ok ih =>
    rw [stateAt_append_singleton (Nat.zero_le _)]
    exact ih

/-- A call leaves the state that the next one finds. -/
theorem Run.stateAt_succ (run : Run allowed start s₀ hist ps s) {n : ℕ} {ev : Event ι σ χ ℓ}
    (hev : hist[n]? = some ev) : stateAt hist s (n + 1) = ev.after := by
  induction run with
  | init => cases hev
  | @step hist ps s l next cont run i c scheduled ok ih =>
    have hlt := (List.getElem?_eq_some_iff.1 hev).1
    rw [List.length_append, List.length_singleton] at hlt
    rcases Nat.lt_succ_iff_lt_or_eq.1 hlt with hn | rfl
    · rw [List.getElem?_append_left hn] at hev
      rw [stateAt_append_singleton (by omega)]
      exact ih hev
    · rw [List.getElem?_concat_length] at hev
      cases hev
      rw [stateAt_of_le (by simp)]

/-- The last call by which a fact ceased to hold: it has not held since. -/
theorem Run.exists_last_change (run : Run allowed start s₀ hist ps s) {P : σ → Prop} {m n : ℕ}
    (hmn : m ≤ n) (hm : P (stateAt hist s m)) (hn : ¬ P (stateAt hist s n)) :
    ∃ k ev, m ≤ k ∧ k < n ∧ hist[k]? = some ev ∧ P ev.before ∧ ¬ P ev.after ∧
      ∀ j, k < j → j ≤ n → ¬ P (stateAt hist s j) := by
  induction hmn with
  | refl => exact absurd hm hn
  | @step n hmn ih =>
    by_cases hP : P (stateAt hist s n)
    · -- the last call before `n + 1` is the one
      cases hev : hist[n]? with
      | none =>
        have hlength : hist.length ≤ n := List.getElem?_eq_none_iff.1 hev
        rw [stateAt_of_le (by omega)] at hn
        rw [stateAt_of_le hlength] at hP
        exact absurd hP hn
      | some ev =>
        have hsince : ∀ j, n < j → j ≤ n + 1 → ¬ P (stateAt hist s j) := by
          intro j hnj hj
          have hlast : j = n + 1 := by omega
          rw [hlast]
          exact hn
        rw [run.stateAt_succ hev] at hn
        rw [stateAt_eq_before hev] at hP
        exact ⟨n, ev, hmn, by omega, hev, hP, hn, hsince⟩
    · obtain ⟨k, ev, hmk, hkn, hev, hbefore, hafter, hsince⟩ := ih hP
      refine ⟨k, ev, hmk, by omega, hev, hbefore, hafter, fun j hkj hj => ?_⟩
      rcases Nat.lt_or_eq_of_le hj with hlt | rfl
      · exact hsince j hkj (by omega)
      · exact hn

/-- **A fact that ceases to hold was changed by a call.** -/
theorem Run.exists_change (run : Run allowed start s₀ hist ps s) {P : σ → Prop} {m n : ℕ}
    (hmn : m ≤ n) (hm : P (stateAt hist s m)) (hn : ¬ P (stateAt hist s n)) :
    ∃ k ev, m ≤ k ∧ k < n ∧ hist[k]? = some ev ∧ P ev.before ∧ ¬ P ev.after := by
  obtain ⟨k, ev, hmk, hkn, hev, hbefore, hafter, -⟩ := run.exists_last_change hmn hm hn
  exact ⟨k, ev, hmk, hkn, hev, hbefore, hafter⟩

/-- A fact that no call changes persists. -/
theorem Run.persists (run : Run allowed start s₀ hist ps s) {P : σ → Prop} {m n : ℕ} (hmn : m ≤ n)
    (hm : P (stateAt hist s m))
    (hkeep : ∀ k ev, m ≤ k → k < n → hist[k]? = some ev → P ev.before → P ev.after) :
    P (stateAt hist s n) := by
  by_contra hn
  obtain ⟨k, ev, hmk, hkn, hev, hbefore, hafter⟩ := run.exists_change hmn hm hn
  exact hafter (hkeep k ev hmk hkn hev hbefore)

/-- What each call keeps holds in every state of the run. -/
theorem Run.always (run : Run allowed start s₀ hist ps s) {I : σ → Prop} (h₀ : I s₀)
    (h : ∀ (n : ℕ) ev, hist[n]? = some ev → I ev.before → I ev.after) (n : ℕ) :
    I (stateAt hist s n) := by
  refine run.persists (Nat.zero_le n) ?_ fun k ev _ _ hev => h k ev hev
  rw [run.stateAt_zero]
  exact h₀

/-- The induction along a run: what is said of the calls so far and the state after them. -/
theorem Run.along (run : Run allowed start s₀ hist ps s) {I : List (Event ι σ χ ℓ) → σ → Prop}
    (h₀ : I [] s₀)
    (h : ∀ past ev later, hist = past ++ ev :: later → I past ev.before → I (past ++ [ev]) ev.after) :
    I hist s := by
  induction run with
  | init => exact h₀
  | @step hist ps s l next cont run i c scheduled ok ih =>
    have hbefore : I hist s := ih fun past ev later hhist => by
      refine h past ev (later ++ [⟨i, l, c, s, next c s⟩]) ?_
      rw [hhist, List.append_assoc, List.cons_append]
    exact h hist ⟨i, l, c, s, next c s⟩ [] rfl hbefore

end Run

/-! ### The calls of a thread -/

section CallsOf

variable [DecidableEq ι]

/-- The calls that thread `i` has made. -/
def callsOf (i : ι) (hist : List (Event ι σ χ ℓ)) : List (Event ι σ χ ℓ) :=
  hist.filter fun ev => ev.who = i

theorem callsOf_append (i : ι) (hist hist' : List (Event ι σ χ ℓ)) :
    callsOf i (hist ++ hist') = callsOf i hist ++ callsOf i hist' :=
  List.filter_append ..

/-- The earlier calls of a thread, by their numbers. -/
theorem mem_callsOf_take {i : ι} {hist : List (Event ι σ χ ℓ)} {n : ℕ} {ev : Event ι σ χ ℓ} :
    ev ∈ callsOf i (hist.take n) ↔ ev.who = i ∧ ∃ m : ℕ, m < n ∧ hist[m]? = some ev := by
  unfold callsOf
  rw [List.mem_filter, List.mem_iff_getElem?]
  constructor
  · rintro ⟨⟨m, hm⟩, hwho⟩
    rw [List.getElem?_take] at hm
    split at hm
    next hlt => exact ⟨of_decide_eq_true hwho, m, hlt, hm⟩
    next => cases hm
  · rintro ⟨hwho, m, hlt, hm⟩
    refine ⟨⟨m, ?_⟩, decide_eq_true hwho⟩
    rw [List.getElem?_take, if_pos hlt]
    exact hm

theorem mem_callsOf {i : ι} {hist : List (Event ι σ χ ℓ)} {ev : Event ι σ χ ℓ} :
    ev ∈ callsOf i hist ↔ ev.who = i ∧ ∃ m : ℕ, hist[m]? = some ev := by
  unfold callsOf
  rw [List.mem_filter, List.mem_iff_getElem?, and_comm]
  simp

/-- The calls of a thread before one of its calls, that call, and the ones after it. -/
theorem callsOf_eq_append {hist : List (Event ι σ χ ℓ)} {n : ℕ} {ev : Event ι σ χ ℓ}
    (hev : hist[n]? = some ev) :
    callsOf ev.who hist =
      callsOf ev.who (hist.take n) ++ ev :: callsOf ev.who (hist.drop (n + 1)) := by
  obtain ⟨hn, hget⟩ := List.getElem?_eq_some_iff.1 hev
  have hsplit : hist = hist.take n ++ ev :: hist.drop (n + 1) := by
    rw [← hget, List.cons_getElem_drop_succ, List.take_append_drop]
  conv_lhs => rw [hsplit]
  rw [callsOf_append]
  simp [callsOf]

/-- A call of a thread has a number, and the calls before and after it are before and after it. -/
theorem exists_getElem?_of_callsOf {i : ι} {hist past later : List (Event ι σ χ ℓ)}
    {ev : Event ι σ χ ℓ} (h : callsOf i hist = past ++ ev :: later) :
    ∃ n : ℕ, hist[n]? = some ev ∧ callsOf i (hist.take n) = past ∧
      callsOf i (hist.drop (n + 1)) = later := by
  obtain ⟨h₁, h₂, hhist, hpast, hrest⟩ := List.filter_eq_append_iff.1 h
  obtain ⟨before, after, hh₂, hnone, -, hlater⟩ := List.filter_eq_cons_iff.1 hrest
  subst hhist hh₂
  refine ⟨(h₁ ++ before).length, ?_, ?_, ?_⟩
  · rw [← List.append_assoc, List.getElem?_append_right (Nat.le_refl _)]
    simp
  · rw [← List.append_assoc, List.take_left, callsOf_append]
    have hbefore : callsOf i before = [] := List.filter_eq_nil_iff.2 hnone
    rw [hbefore, List.append_nil]
    exact hpast
  · have hdrop : (h₁ ++ (before ++ ev :: after)).drop ((h₁ ++ before).length + 1) = after := by
      rw [← List.append_assoc, List.drop_append]
      simp
    rw [hdrop]
    exact hlater

/-- So has one of the calls that it has made before call `n` of the run. -/
theorem exists_getElem?_of_callsOf_take {i : ι} {n : ℕ} {hist past later : List (Event ι σ χ ℓ)}
    {ev : Event ι σ χ ℓ} (h : callsOf i (hist.take n) = past ++ ev :: later) :
    ∃ m : ℕ, m < n ∧ hist[m]? = some ev ∧ ev.who = i ∧ callsOf i (hist.take m) = past := by
  obtain ⟨m, hm, hpast, -⟩ := exists_getElem?_of_callsOf h
  have hmem : ev ∈ callsOf i (hist.take n) := by
    rw [h]
    exact List.mem_append_right _ List.mem_cons_self
  rw [List.getElem?_take] at hm
  split at hm
  next hmn =>
    rw [List.take_take, Nat.min_eq_left (Nat.le_of_lt hmn)] at hpast
    exact ⟨m, hmn, hm, (mem_callsOf.1 hmem).1, hpast⟩
  next => cases hm

/-- The calls of a thread are numbered in their order. -/
theorem length_callsOf_take_lt {i : ι} {hist : List (Event ι σ χ ℓ)} {m n : ℕ} {ev : Event ι σ χ ℓ}
    (hev : hist[m]? = some ev) (hwho : ev.who = i) (hmn : m < n) :
    (callsOf i (hist.take m)).length < (callsOf i (hist.take n)).length := by
  have hmem : (hist.take n)[m]? = some ev := by
    rw [List.getElem?_take, if_pos hmn]
    exact hev
  have hsplit := callsOf_eq_append hmem
  rw [hwho, List.take_take, Nat.min_eq_left (Nat.le_of_lt hmn)] at hsplit
  rw [hsplit, List.length_append, List.length_cons]
  omega

/-- A call of a thread is determined by how many the thread has made before. -/
theorem eq_of_length_callsOf_take {i : ι} {hist : List (Event ι σ χ ℓ)} {m n : ℕ}
    {ev ev' : Event ι σ χ ℓ} (hm : hist[m]? = some ev) (hn : hist[n]? = some ev') (hev : ev.who = i)
    (hev' : ev'.who = i)
    (hlength : (callsOf i (hist.take m)).length = (callsOf i (hist.take n)).length) : m = n := by
  rcases Nat.lt_trichotomy m n with hlt | heq | hlt
  · have := length_callsOf_take_lt hm hev hlt
    omega
  · exact heq
  · have := length_callsOf_take_lt hn hev' hlt
    omega

end CallsOf

/-- Of the calls of a kind, one is the last. -/
theorem exists_last {hist : List (Event ι σ χ ℓ)} {P : Event ι σ χ ℓ → Prop} {n : ℕ}
    {ev : Event ι σ χ ℓ} (hev : hist[n]? = some ev) (hP : P ev) :
    ∃ (m : ℕ) (last : Event ι σ χ ℓ), hist[m]? = some last ∧ P last ∧
      ∀ (k : ℕ) x, m < k → hist[k]? = some x → ¬ P x := by
  induction hlen : hist.length - n using Nat.strongRecOn generalizing n ev with
  | _ d ih =>
    by_cases hlater : ∃ (k : ℕ) (x : Event ι σ χ ℓ), n < k ∧ hist[k]? = some x ∧ P x
    · obtain ⟨k, x, hnk, hk, hx⟩ := hlater
      have hlt := (List.getElem?_eq_some_iff.1 hk).1
      exact ih (hist.length - k) (by omega) hk hx rfl
    · refine ⟨n, ev, hev, hP, fun k x hnk hk hx => hlater ⟨k, x, hnk, hk, hx⟩⟩

namespace Proc

/-- Whatever the states are in which thread `i` makes the calls of the method, `K` holds of each
call with the calls the thread has made before. `Q` is known of the calls made when the method
returns, and `E` when it throws. -/
def Traced (i : ι) (K : List (Event ι σ χ ℓ) → Event ι σ χ ℓ → Prop)
    (Q : α → List (Event ι σ χ ℓ) → Prop) (E : ε → List (Event ι σ χ ℓ) → Prop) :
    Proc σ χ ℓ ε α → List (Event ι σ χ ℓ) → Prop
  | .ret a, past => Q a past
  | .raise e, past => E e past
  | .step l next cont, past => ∀ c s, K past ⟨i, l, c, s, next c s⟩ ∧
      (cont c s).Traced i K Q E (past ++ [⟨i, l, c, s, next c s⟩])

section Traced

variable {i : ι} {K : List (Event ι σ χ ℓ) → Event ι σ χ ℓ → Prop}
  {Q Q' : α → List (Event ι σ χ ℓ) → Prop} {E E' : ε → List (Event ι σ χ ℓ) → Prop}
  {past : List (Event ι σ χ ℓ)}

theorem Traced.mono (hQ : ∀ a past, Q a past → Q' a past) (hE : ∀ e past, E e past → E' e past)
    {p : Proc σ χ ℓ ε α} (h : p.Traced i K Q E past) : p.Traced i K Q' E' past := by
  induction p generalizing past with
  | ret a => exact hQ a past h
  | raise e => exact hE e past h
  | step l next cont ih => exact fun c s => ⟨(h c s).1, ih c s (h c s).2⟩

theorem Traced.imp {K' : List (Event ι σ χ ℓ) → Event ι σ χ ℓ → Prop}
    (hK : ∀ past ev, ev.who = i → K past ev → K' past ev) {p : Proc σ χ ℓ ε α}
    (h : p.Traced i K Q E past) : p.Traced i K' Q E past := by
  induction p generalizing past with
  | ret a => exact h
  | raise e => exact h
  | step l next cont ih => exact fun c s => ⟨hK _ _ rfl (h c s).1, ih c s (h c s).2⟩

/-- The calls made before stay made. -/
theorem Traced.prefixed {p : Proc σ χ ℓ ε α} (h : p.Traced i K Q E past) :
    p.Traced i K (fun a past' => past <+: past' ∧ Q a past')
      (fun e past' => past <+: past' ∧ E e past') past := by
  induction p generalizing past with
  | ret a => exact ⟨List.prefix_rfl, h⟩
  | raise e => exact ⟨List.prefix_rfl, h⟩
  | step l next cont ih =>
    intro c s
    refine ⟨(h c s).1, (ih c s (h c s).2).mono ?_ ?_⟩
    · exact fun _ _ hend => ⟨(List.prefix_append _ _).trans hend.1, hend.2⟩
    · exact fun _ _ hend => ⟨(List.prefix_append _ _).trans hend.1, hend.2⟩

theorem Traced.bind {p : Proc σ χ ℓ ε α} {f : α → Proc σ χ ℓ ε β}
    {Q : β → List (Event ι σ χ ℓ) → Prop}
    (h : p.Traced i K (fun a past' => (f a).Traced i K Q E past') E past) :
    (p.bind f).Traced i K Q E past := by
  induction p generalizing past with
  | ret a => exact h
  | raise e => exact h
  | step l next cont ih => exact fun c s => ⟨(h c s).1, ih c s (h c s).2⟩

theorem Traced.catching {p : Proc σ χ ℓ ε α} {f : ε → Proc σ χ ℓ ε α}
    (h : p.Traced i K Q (fun e past' => (f e).Traced i K Q E past') past) :
    (p.catching f).Traced i K Q E past := by
  induction p generalizing past with
  | ret a => exact h
  | raise e => exact h
  | step l next cont ih => exact fun c s => ⟨(h c s).1, ih c s (h c s).2⟩

theorem traced_ofExcept {r : Except ε α} :
    (ofExcept r : Proc σ χ ℓ ε α).Traced i K Q E past ↔
      (∀ a, r = .ok a → Q a past) ∧ ∀ e, r = .error e → E e past := by
  cases r <;> simp [ofExcept, Traced]

/-- The rule for a single call. -/
theorem Traced.call {l : ℓ} {f : χ → σ → Except ε α × σ}
    (h : ∀ c s, K past ⟨i, l, c, s, (f c s).2⟩ ∧
      (∀ a, (f c s).1 = .ok a → Q a (past ++ [⟨i, l, c, s, (f c s).2⟩])) ∧
      ∀ e, (f c s).1 = .error e → E e (past ++ [⟨i, l, c, s, (f c s).2⟩])) :
    (Proc.call l f).Traced i K Q E past :=
  fun c s => ⟨(h c s).1, traced_ofExcept.2 (h c s).2⟩

/-- Nothing asked, nothing to show. -/
theorem traced_trivial (p : Proc σ χ ℓ ε α) :
    p.Traced i (fun _ _ => True) (fun _ _ => True) (fun _ _ => True) past := by
  induction p generalizing past with
  | ret a => trivial
  | raise e => trivial
  | step l next cont ih => exact fun c s => ⟨trivial, ih c s⟩

/-- A method whose calls stay within a relation that is all `K` asks for. -/
theorem Keeps.traced {R : σ → σ → Prop} {p : Proc σ χ ℓ ε α}
    (hp : p.Keeps (fun _ _ _ _ => True) R)
    (hK : ∀ later ev, (∀ x ∈ later, R x.before x.after) → ev.who = i → R ev.before ev.after →
      K (past ++ later) ev) :
    p.Traced i K (fun _ past' => ∃ later, past' = past ++ later ∧ ∀ x ∈ later, R x.before x.after)
      (fun _ past' => ∃ later, past' = past ++ later ∧ ∀ x ∈ later, R x.before x.after) past := by
  suffices h : ∀ later : List (Event ι σ χ ℓ), (∀ x ∈ later, R x.before x.after) →
      p.Traced i K
        (fun _ past' => ∃ later, past' = past ++ later ∧ ∀ x ∈ later, R x.before x.after)
        (fun _ past' => ∃ later, past' = past ++ later ∧ ∀ x ∈ later, R x.before x.after)
        (past ++ later) by
    have hnone := h [] nofun
    rwa [List.append_nil] at hnone
  induction p with
  | ret a => exact fun later hlater => ⟨later, rfl, hlater⟩
  | raise e => exact fun later hlater => ⟨later, rfl, hlater⟩
  | step l next cont ih =>
    intro later hlater c s
    obtain ⟨hnext, hcont⟩ := hp c s trivial
    refine ⟨hK later _ hlater rfl hnext, ?_⟩
    rw [List.append_assoc]
    refine ih c s hcont _ fun x hx => ?_
    rcases List.mem_append.1 hx with hx | hx
    · exact hlater x hx
    · rw [List.mem_singleton.1 hx]
      exact hnext

/-- Each call of a method that stays within a relation is in it. -/
theorem Keeps.traced_each {R : σ → σ → Prop} {p : Proc σ χ ℓ ε α}
    (hp : p.Keeps (fun _ _ _ _ => True) R) :
    p.Traced i (fun _ ev => R ev.before ev.after) (fun _ _ => True) (fun _ _ => True) past := by
  refine Traced.mono (fun _ _ _ => trivial) (fun _ _ _ => trivial) (hp.traced ?_)
  exact fun _ _ _ _ h => h

end Traced

end Proc

/-- **Every call of every run** is related to the calls of its thread before it, and so is what each
thread still has to do. -/
theorem Run.traced [DecidableEq ι] {allowed : ℓ → χ → σ → σ → Prop} {start : ι → Proc σ χ ℓ ε α}
    {s₀ s : σ}
    {hist : List (Event ι σ χ ℓ)} {ps : ι → Proc σ χ ℓ ε α} (run : Run allowed start s₀ hist ps s)
    {K : ι → List (Event ι σ χ ℓ) → Event ι σ χ ℓ → Prop}
    {Q : ι → α → List (Event ι σ χ ℓ) → Prop} {E : ι → ε → List (Event ι σ χ ℓ) → Prop}
    (hstart : ∀ i, (start i).Traced i (K i) (Q i) (E i) []) :
    (∀ (n : ℕ) ev, hist[n]? = some ev → K ev.who (callsOf ev.who (hist.take n)) ev) ∧
      ∀ i, (ps i).Traced i (K i) (Q i) (E i) (callsOf i hist) := by
  induction run with
  | init => exact ⟨nofun, hstart⟩
  | @step hist ps s l next cont run i c scheduled ok ih =>
    obtain ⟨hcalls, hps⟩ := ih
    have hi := hps i
    rw [scheduled] at hi
    obtain ⟨hcall, hcont⟩ := hi c s
    constructor
    · intro n ev hev
      have hlt := (List.getElem?_eq_some_iff.1 hev).1
      rw [List.length_append, List.length_singleton] at hlt
      -- a call of before, or the new one
      rcases Nat.lt_succ_iff_lt_or_eq.1 hlt with hn | rfl
      · rw [List.getElem?_append_left hn] at hev
        rw [List.take_append_of_le_length (Nat.le_of_lt hn)]
        exact hcalls n ev hev
      · rw [List.getElem?_concat_length] at hev
        cases hev
        rw [List.take_left]
        exact hcall
    · intro j
      rw [callsOf_append]
      by_cases hj : j = i
      · subst hj
        simpa [callsOf] using hcont
      · have hnone : callsOf j [(⟨i, l, c, s, next c s⟩ : Event ι σ χ ℓ)] = [] := by
          simp [callsOf, Ne.symm hj]
        rw [hnone, List.append_nil, Function.update_of_ne hj]
        exact hps j

/-! ### Between two calls of a thread -/

/-- `x` is a call that another thread makes between the calls `r` and `ev` of a thread. -/
def Intervenes (hist : List (Event ι σ χ ℓ)) (r x ev : Event ι σ χ ℓ) : Prop :=
  ∃ m k n : ℕ, m < k ∧ k < n ∧ hist[m]? = some r ∧ hist[k]? = some x ∧ hist[n]? = some ev ∧
    r.who = ev.who ∧ x.who ≠ ev.who

theorem Intervenes.exists_getElem? {hist : List (Event ι σ χ ℓ)} {r x ev : Event ι σ χ ℓ}
    (h : Intervenes hist r x ev) : ∃ k : ℕ, hist[k]? = some x := by
  obtain ⟨_, k, _, -, -, -, hk, -⟩ := h
  exact ⟨k, hk⟩

/-- Some thread gets a turn between two turns of another one. -/
def Overlapping (turns : List ι) : Prop :=
  ∃ m k n : Fin turns.length, m < k ∧ k < n ∧ turns.get m = turns.get n ∧ turns.get k ≠ turns.get n

instance [DecidableEq ι] (turns : List ι) : Decidable (Overlapping turns) :=
  inferInstanceAs (Decidable (∃ _ _ _, _))

/-- Where the threads do not overlap, nothing intervenes. -/
theorem Intervenes.overlapping {hist : List (Event ι σ χ ℓ)} {r x ev : Event ι σ χ ℓ}
    (h : Intervenes hist r x ev) : Overlapping (hist.map Event.who) := by
  obtain ⟨m, k, n, hmk, hkn, hm, hk, hn, hsame, hother⟩ := h
  have hwho : ∀ {j : ℕ} {e : Event ι σ χ ℓ}, hist[j]? = some e →
      ∃ hj : j < (hist.map Event.who).length, (hist.map Event.who)[j] = e.who := by
    intro j e he
    have hmap : (hist.map Event.who)[j]? = some e.who := by rw [List.getElem?_map, he]; rfl
    exact List.getElem?_eq_some_iff.1 hmap
  obtain ⟨hm, hmr⟩ := hwho hm
  obtain ⟨hk, hkx⟩ := hwho hk
  obtain ⟨hn, hnev⟩ := hwho hn
  refine ⟨⟨m, hm⟩, ⟨k, hk⟩, ⟨n, hn⟩, hmk, hkn, ?_, ?_⟩
  · rw [List.get_eq_getElem, List.get_eq_getElem, hmr, hnev, hsame]
  · rw [List.get_eq_getElem, List.get_eq_getElem, hkx, hnev]
    exact hother

/-- **An overwritten fact.** What holds after a call of a thread, and the thread has not changed since
then, and does not hold any more, another thread has changed in between. -/
theorem Run.exists_intervening_after [DecidableEq ι] {allowed : ℓ → χ → σ → σ → Prop}
    {start : ι → Proc σ χ ℓ ε α} {s₀ s : σ} {hist : List (Event ι σ χ ℓ)}
    {ps : ι → Proc σ χ ℓ ε α} (run : Run allowed start s₀ hist ps s) {P : σ → Prop} {n : ℕ}
    {r ev : Event ι σ χ ℓ} {past later : List (Event ι σ χ ℓ)} (hev : hist[n]? = some ev)
    (hcalls : callsOf ev.who (hist.take n) = past ++ r :: later)
    (hown : ∀ x ∈ later, P x.before → P x.after) (hfound : P r.after)
    (hstale : ¬ P ev.before) : ∃ x, Intervenes hist r x ev ∧ P x.before ∧ ¬ P x.after := by
  obtain ⟨m, hm, -, hlater⟩ := exists_getElem?_of_callsOf hcalls
  have hwho : r.who = ev.who := by
    have hmem : r ∈ callsOf ev.who (hist.take n) := by
      rw [hcalls]
      exact List.mem_append_right _ List.mem_cons_self
    exact (mem_callsOf.1 hmem).1
  rw [List.getElem?_take] at hm
  split at hm
  next hmn =>
    have hstart : P (stateAt hist s (m + 1)) := by rwa [run.stateAt_succ hm]
    have hend : ¬ P (stateAt hist s n) := by rwa [stateAt_eq_before hev]
    obtain ⟨k, x, hmk, hkn, hk, hbefore, hafter⟩ := run.exists_change hmn hstart hend
    -- a call of the thread itself would have kept the fact
    have hother : x.who ≠ ev.who := by
      intro hsame
      refine hafter (hown x ?_ hbefore)
      rw [← hlater]
      refine mem_callsOf.2 ⟨hsame, k - (m + 1), ?_⟩
      rw [List.getElem?_drop, List.getElem?_take, if_pos (by omega)]
      have hpos : m + 1 + (k - (m + 1)) = k := by omega
      rw [hpos]
      exact hk
    exact ⟨x, ⟨m, k, n, hmk, hkn, hm, hk, hev, hwho, hother⟩, hbefore, hafter⟩
  next => cases hm

/-- **A stale read.** What a thread has found at an earlier call, and has not changed itself since
then, and does not hold any more, another thread has changed in between. -/
theorem Run.exists_intervening_since [DecidableEq ι] {allowed : ℓ → χ → σ → σ → Prop}
    {start : ι → Proc σ χ ℓ ε α} {s₀ s : σ} {hist : List (Event ι σ χ ℓ)}
    {ps : ι → Proc σ χ ℓ ε α} (run : Run allowed start s₀ hist ps s) {P : σ → Prop} {n : ℕ}
    {r ev : Event ι σ χ ℓ} {past later : List (Event ι σ χ ℓ)} (hev : hist[n]? = some ev)
    (hcalls : callsOf ev.who (hist.take n) = past ++ r :: later)
    (hown : ∀ x ∈ r :: later, P x.before → P x.after) (hfound : P r.before)
    (hstale : ¬ P ev.before) : ∃ x, Intervenes hist r x ev ∧ P x.before ∧ ¬ P x.after :=
  run.exists_intervening_after hev hcalls (fun x hx => hown x (List.mem_cons_of_mem _ hx))
    (hown r List.mem_cons_self hfound) hstale

/-- The same for a thread none of whose calls changes the fact. -/
theorem Run.exists_intervening [DecidableEq ι] {allowed : ℓ → χ → σ → σ → Prop}
    {start : ι → Proc σ χ ℓ ε α} {s₀ s : σ} {hist : List (Event ι σ χ ℓ)}
    {ps : ι → Proc σ χ ℓ ε α} (run : Run allowed start s₀ hist ps s) {P : σ → Prop} {n : ℕ}
    {r ev : Event ι σ χ ℓ} (hev : hist[n]? = some ev) (hr : r ∈ callsOf ev.who (hist.take n))
    (hown : ∀ x ∈ callsOf ev.who (hist.take n), P x.before → P x.after) (hfound : P r.before)
    (hstale : ¬ P ev.before) : ∃ x, Intervenes hist r x ev ∧ P x.before ∧ ¬ P x.after := by
  obtain ⟨past, later, hcalls⟩ := List.append_of_mem hr
  refine run.exists_intervening_since hev hcalls (fun x hx => hown x ?_) hfound hstale
  rw [hcalls]
  exact List.mem_append_right _ hx

end Conc
