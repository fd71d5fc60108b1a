import AccountOS.Conc.Alone
import AccountOS.Sql.Isolation
import Mathlib.Data.Fintype.Card
import Mathlib.Data.Set.Finite.Basic
import Mathlib.Logic.Relation

/-!
# Transactions that wait for each other

A transaction that asks for a row waits for the transactions that hold it. When some of them wait in
a circle, none of them can go on until the database aborts one.

That does not happen when all bodies take their rows in the order of one acyclic relation `R`: a
body asks for a row only if it has it already, or if `R` puts it after all the rows the body has
(`Tx.InOrder`). Then a transaction that is waited for and waits itself asks for a row after the one
that it is waited for, so a circle of transactions gives a circle of rows. `acyclic_of_inOrder` says
so of every state of every run.
-/

namespace Sql

open Conc Relation

variable {ι σ κ ω ε χ τ α : Type}

/-! ### Who waits for whom -/

/-- The lock keeps the step from being carried out. -/
def Blocks : StepLabel ι κ τ → HeldLock ι κ → Prop
  | .lock i row, h => h.row = row ∧ h.owner ≠ i
  | .write i shares, h => h.row ∈ shares ∧ h.mode = .update ∧ h.owner ≠ i
  | _, _ => False

/-- What is left of a method asks for the row, and `j` holds it. -/
def WaitsOn (p : Proc (Shared ι σ κ) (StepChoice χ ε) (StepLabel ι κ τ) ε α) (m : Shared ι σ κ)
    (row : κ) (j : ι) : Prop :=
  ∃ l next cont, p = .step l next cont ∧ ∃ h ∈ m.locks, Blocks l h ∧ h.row = row ∧ h.owner = j

/-- The transaction of `i` waits for a row that the one of `j` holds. -/
def Waits (ps : ι → Proc (Shared ι σ κ) (StepChoice χ ε) (StepLabel ι κ τ) ε α)
    (m : Shared ι σ κ) (i j : ι) : Prop :=
  ∃ row, WaitsOn (ps i) m row j

/-- Where each of some transactions waits for another of them, there is a circle. -/
theorem exists_circle {r : ι → ι → Prop} {C : List ι} (hne : C ≠ [])
    (h : ∀ i ∈ C, ∃ j ∈ C, r i j) : ∃ i ∈ C, TransGen r i i := by
  by_contra hnone
  push Not at hnone
  let waitedFor : {i // i ∈ C} → {i // i ∈ C} → Prop := fun x y => TransGen r y x
  have htrans : IsTrans _ waitedFor := ⟨fun _ _ _ hxy hyz => hyz.trans hxy⟩
  have hirrefl : Std.Irrefl waitedFor := ⟨fun x => hnone x x.2⟩
  have hfinite : Finite {i // i ∈ C} := C.finite_toSet.to_subtype
  have hfounded : WellFounded waitedFor := Finite.wellFounded_of_trans_of_irrefl waitedFor
  obtain ⟨i, hi⟩ := List.exists_mem_of_ne_nil C hne
  -- without a circle, one of them would wait for nobody
  refine hfounded.induction (C := fun _ => False) ⟨i, hi⟩ fun x hlast => ?_
  obtain ⟨j, hj, hwaits⟩ := h x x.2
  exact hlast ⟨j, hj⟩ (.single hwaits)

/-! ### A transaction that runs for a while -/

section Reaches

variable [DecidableEq ι] {S : Schema σ κ ω ε} {i : ι} {tx : τ} {m m' : Shared ι σ κ}
  {se : Session σ κ ω} {p' : Proc (Shared ι σ κ) (StepChoice χ ε) (StepLabel ι κ τ) ε α}

/-- A query sees what is committed, as long as nothing has been written. -/
theorem reaches_select {rows : List κ} {cont : σ → Tx σ κ ω ε α} (env : χ)
    (hops : se.ops = []) (hlevel : se.level = .readCommitted)
    (h : (statements S i tx (cont m.committed) { se with reads := se.reads ++ rows }).Reaches
      (fun l c m _ => Allows l c m) m p' m') :
    (statements S i tx (.select rows cont) se).Reaches (fun l c m _ => Allows l c m) m p' m' := by
  have hview : se.view S m = .ok m.committed := by simp [Session.view, hlevel, hops, Schema.applyAll]
  refine .step ⟨none, env⟩ (fun _ => trivial) ?_
  simp only [hview, Except.map]
  exact h

/-- A row that nobody has can be locked. -/
theorem reaches_lock {row : κ} {cont : Tx σ κ ω ε α} (env : χ)
    (hfree : ∀ h ∈ m.locks, h.row ≠ row)
    (h : (statements S i tx cont se).Reaches (fun l c m _ => Allows l c m)
      (m.acquire i .update [row]) p' m') :
    (statements S i tx (.lock row cont) se).Reaches (fun l c m _ => Allows l c m) m p' m' :=
  .step ⟨none, env⟩ (fun _ x hx hrow => absurd hrow (hfree x hx)) h

end Reaches

/-! ### The order of the locks -/

/-- The body takes its rows in the order of `R`, on states that `I` holds of. `held` are the rows it
has, with the mode it has them in. -/
def Tx.InOrder (S : Schema σ κ ω ε) (I : σ → Prop) (R : κ → κ → Prop) :
    Tx σ κ ω ε α → List (κ × LockMode) → Prop
  | .ret _, _ => True
  | .throw _, _ => True
  | .select _ cont, held => ∀ s, I s → (cont s).InOrder S I R held
  | .lock row cont, held => ((row, .update) ∈ held ∨ ∀ k ∈ held, R k.1 row) ∧
      cont.InOrder S I R (held ++ [(row, .update)])
  | .write op cont, held =>
      (∀ row ∈ S.shares op, (∃ mode, (row, mode) ∈ held) ∨ ∀ k ∈ held, R k.1 row) ∧
        cont.InOrder S I R (held ++ (S.shares op).map fun row => (row, .keyShare))

/-- What the body returns does not matter. -/
theorem Tx.InOrder.bind_ret {β : Type} {S : Schema σ κ ω ε} {I : σ → Prop} {R : κ → κ → Prop}
    {t : Tx σ κ ω ε α} {f : α → β} {held : List (κ × LockMode)} (h : t.InOrder S I R held) :
    (t.bind fun a => .ret (f a)).InOrder S I R held := by
  induction t generalizing held with
  | ret a => trivial
  | throw e => trivial
  | select rows cont ih => exact fun s hs => ih s (h s hs)
  | lock row cont ih => exact ⟨h.1, ih h.2⟩
  | write op cont ih => exact ⟨h.1, ih h.2⟩

/-- The step of thread `i` asks for rows that it has, or that `R` puts after those it has. -/
def Asks (R : κ → κ → Prop) (m : Shared ι σ κ) (i : ι) : StepLabel ι κ τ → Prop
  | .lock j row => j = i ∧
      (⟨i, row, .update⟩ ∈ m.locks ∨ ∀ h ∈ m.locks, h.owner = i → R h.row row)
  | .write j shares => j = i ∧ ∀ row ∈ shares,
      (∃ mode, ⟨i, row, mode⟩ ∈ m.locks) ∨ ∀ h ∈ m.locks, h.owner = i → R h.row row
  | _ => True

/-- A row that is locked for an update is locked by nobody else. -/
def Shared.Exclusive (m : Shared ι σ κ) : Prop :=
  ∀ h ∈ m.locks, ∀ h' ∈ m.locks, h.row = h'.row → h.mode = .update → h.owner = h'.owner

/-- The locks are those that the threads think they have. -/
def Holds (G : ι → List (κ × LockMode)) (m : Shared ι σ κ) : Prop :=
  ∀ i row mode, ⟨i, row, mode⟩ ∈ m.locks ↔ (row, mode) ∈ G i

section Locks

variable {G : ι → List (κ × LockMode)} {m : Shared ι σ κ} {i : ι}

/-- A row that nobody else has locked for an update can be locked in any mode that the locks on it
allow. -/
theorem Shared.Exclusive.acquire (h : m.Exclusive) {mode : LockMode} {rows : List κ}
    (hfree : ∀ x ∈ m.locks, x.row ∈ rows → x.mode = .update ∨ mode = .update → x.owner = i) :
    (m.acquire i mode rows).Exclusive := by
  have hmem : ∀ x ∈ (m.acquire i mode rows).locks,
      x ∈ m.locks ∨ x.row ∈ rows ∧ x.owner = i ∧ x.mode = mode := by
    intro x hx
    rcases List.mem_append.1 hx with hx | hx
    · exact .inl hx
    · obtain ⟨row, hrow, rfl⟩ := List.mem_map.1 hx
      exact .inr ⟨hrow, rfl, rfl⟩
  intro a ha b hb hrow hmode
  rcases hmem a ha with ha | ⟨harow, hai, hamode⟩ <;> rcases hmem b hb with hb | ⟨hbrow, hbi, -⟩
  · exact h a ha b hb hrow hmode
  · rw [hfree a ha (hrow ▸ hbrow) (.inl hmode), hbi]
  · rw [hfree b hb (hrow ▸ harow) (.inr (hamode ▸ hmode)), hai]
  · rw [hai, hbi]

variable [DecidableEq ι]

theorem Shared.Exclusive.release (h : m.Exclusive) : (m.release i).Exclusive :=
  fun a ha b hb => h a (List.mem_filter.1 ha).1 b (List.mem_filter.1 hb).1

theorem Holds.release (h : Holds G m) : Holds (Function.update G i []) (m.release i) := by
  intro j row mode
  show ⟨j, row, mode⟩ ∈ m.locks.filter _ ↔ _
  rw [List.mem_filter, h j row mode]
  by_cases hj : j = i
  · subst hj
    simp
  · simp [hj]

theorem Holds.acquire (h : Holds G m) (mode : LockMode) (rows : List κ) :
    Holds (Function.update G i (G i ++ rows.map fun row => (row, mode)))
      (m.acquire i mode rows) := by
  intro j row mode'
  show ⟨j, row, mode'⟩ ∈ m.locks ++ _ ↔ _
  rw [List.mem_append, h j row mode']
  by_cases hj : j = i
  · subst hj
    simp
  · rw [Function.update_of_ne hj]
    simp [Ne.symm hj]

end Locks

/-! ### Following a body -/

/-- The protocol of threads that take their rows in the order of `R`. A thread's ghost are the rows
it has. -/
def ordering (I : σ → Prop) (R : κ → κ → Prop) :
    Protocol ι (Shared ι σ κ) (StepChoice χ ε) (StepLabel ι κ τ) (List (κ × LockMode)) where
  allowed l c m _ := Allows l c m
  inv G hist m := (I m.committed ∧ m.Exclusive ∧ Holds G m) ∧
    ∀ ev ∈ hist, Asks R ev.before ev.who ev.call

section Following

variable {S : Schema σ κ ω ε} {I : σ → Prop} {R : κ → κ → Prop} {i : ι}

theorem asks_append {hist : List (Event ι (Shared ι σ κ) (StepChoice χ ε) (StepLabel ι κ τ))}
    {ev : Event ι (Shared ι σ κ) (StepChoice χ ε) (StepLabel ι κ τ)}
    (h : ∀ x ∈ hist, Asks R x.before x.who x.call) (hev : Asks R ev.before ev.who ev.call) :
    ∀ x ∈ hist ++ [ev], Asks R x.before x.who x.call := by
  intro x hx
  rcases List.mem_append.1 hx with hx | hx
  · exact h x hx
  · rw [List.mem_singleton.1 hx]
    exact hev

theorem invariant_applyAll (hI : ∀ op s s', S.apply op s = .ok s' → I s → I s') {ops : List ω}
    {s s' : σ} (h : S.applyAll ops s = .ok s') (hs : I s) : I s' := by
  induction ops generalizing s with
  | nil =>
    cases h
    exact hs
  | cons op ops ih =>
    cases hop : S.apply op s with
    | error e => simp [Schema.applyAll, hop, Except.bind] at h
    | ok s₁ =>
      have hrest : S.applyAll ops s₁ = .ok s' := by simpa [Schema.applyAll, hop, Except.bind] using h
      exact ih hrest (hI op s s₁ hop hs)

variable [DecidableEq ι]

/-- One statement in order: it is carried out, or the transaction ends. -/
theorem ordered_attempt {β : Type} {l : StepLabel ι κ τ} {held : List (κ × LockMode)}
    {f : Shared ι σ κ → Except ε (β × Shared ι σ κ)}
    {k : β → Proc (Shared ι σ κ) (StepChoice χ ε) (StepLabel ι κ τ) ε α}
    (hasks : ∀ (G : ι → List (κ × LockMode)) (m : Shared ι σ κ), G i = held → Holds G m →
      Asks R m i l)
    (h : ∀ G m (c : StepChoice χ ε) b m', G i = held → I m.committed → m.Exclusive → Holds G m →
      Allows l c m → c.abort = none → f m = .ok (b, m') →
      ∃ held', I m'.committed ∧ m'.Exclusive ∧ Holds (Function.update G i held') m' ∧
        (k b).Wp (ordering I R) i (fun _ g => g = []) (fun _ g => g = []) held') :
    (attempt i l f k : Proc (Shared ι σ κ) (StepChoice χ ε) (StepLabel ι κ τ) ε α).Wp
      (ordering I R) i (fun _ g => g = []) (fun _ g => g = []) held := by
  rintro G hist m c hG ⟨⟨hm, hexclusive, hholds⟩, hhist⟩ hallowed
  have hhist' : ∀ m' : Shared ι σ κ, ∀ x ∈ hist ++ [⟨i, l, c, m, m'⟩],
      Asks R x.before x.who x.call := fun _ => asks_append hhist (hasks G m hG hholds)
  cases habort : c.abort with
  | some e =>
    simp only [habort]
    exact ⟨[], ⟨⟨hm, hexclusive.release, hholds.release⟩, hhist' _⟩, rfl⟩
  | none =>
    cases hf : f m with
    | error e =>
      simp only [habort, hf]
      exact ⟨[], ⟨⟨hm, hexclusive.release, hholds.release⟩, hhist' _⟩, rfl⟩
    | ok r =>
      simp only [habort, hf]
      obtain ⟨held', hm', hexclusive', hholds', hrest⟩ :=
        h G m c r.1 r.2 hG hm hexclusive hholds hallowed habort hf
      exact ⟨held', ⟨⟨hm', hexclusive', hholds'⟩, hhist' _⟩, hrest⟩

/-- **The statements of a body that takes its rows in order.** -/
theorem ordered_statements (hI : ∀ op s s', S.apply op s = .ok s' → I s → I s') {tx : τ}
    {t : Tx σ κ ω ε α} {held : List (κ × LockMode)} {se : Session σ κ ω} (hse : I se.snapshot)
    (ht : t.InOrder S I R held) :
    (statements S i tx t se : Proc (Shared ι σ κ) (StepChoice χ ε) (StepLabel ι κ τ) ε α).Wp
      (ordering I R) i (fun _ g => g = []) (fun _ g => g = []) held := by
  induction t generalizing held se with
  | ret a =>
    refine ordered_attempt (fun _ _ _ _ => trivial) fun G m c b m' _ hm hexclusive hholds _ _ hf => ?_
    cases happly : S.applyAll se.ops m.committed with
    | error e => simp [happly, Except.map] at hf
    | ok s =>
      obtain ⟨rfl, rfl⟩ : a = b ∧ _ = m' := by simpa [happly, Except.map] using hf
      exact ⟨[], invariant_applyAll hI happly hm, hexclusive.release, hholds.release, rfl⟩
  | throw e =>
    rintro G hist m c hG ⟨⟨hm, hexclusive, hholds⟩, hhist⟩ -
    exact ⟨[], ⟨⟨hm, hexclusive.release, hholds.release⟩, asks_append hhist trivial⟩, rfl⟩
  | select rows cont ih =>
    refine ordered_attempt (fun _ _ _ _ => trivial) fun G m c b m' hG hm hexclusive hholds _ _ hf => ?_
    cases hview : se.view S m with
    | error e => simp [hview, Except.map] at hf
    | ok s =>
      obtain ⟨rfl, rfl⟩ : s = b ∧ m = m' := by simpa [hview, Except.map] using hf
      -- what is committed and what was committed at the start both satisfy `I`, and so do they after
      -- the transaction's own writes
      have hs : I s := by
        unfold Session.view at hview
        split at hview
        · exact invariant_applyAll hI hview hm
        · exact invariant_applyAll hI hview hse
      refine ⟨held, hm, hexclusive, ?_, ih s hse (ht s hs)⟩
      rw [← hG, Function.update_eq_self]
      exact hholds
  | lock row cont ih =>
    obtain ⟨hrow, hcont⟩ := ht
    refine ordered_attempt (fun G m hG hholds => ?_)
      fun G m c b m' hG hm hexclusive hholds hallows habort hf => ?_
    · refine ⟨rfl, hrow.imp (fun hmem => ?_) fun hafter h hh howner => ?_⟩
      · rw [hholds, hG]
        exact hmem
      · have hmem := (hholds h.owner h.row h.mode).1 hh
        rw [howner, hG] at hmem
        exact hafter _ hmem
    · cases hf
      have hholds' := hholds.acquire (i := i) .update [row]
      rw [hG] at hholds'
      refine ⟨_, hm, hexclusive.acquire fun x hx hxrow _ => ?_, hholds', ih hse hcont⟩
      exact hallows habort x hx (List.mem_singleton.1 hxrow)
  | write op cont ih =>
    obtain ⟨hrows, hcont⟩ := ht
    refine ordered_attempt (fun G m hG hholds => ?_)
      fun G m c b m' hG hm hexclusive hholds hallows habort hf => ?_
    · refine ⟨rfl, fun row hrow => (hrows row hrow).imp ?_ fun hafter h hh howner => ?_⟩
      · rintro ⟨mode, hmem⟩
        refine ⟨mode, ?_⟩
        rw [hholds, hG]
        exact hmem
      · have hmem := (hholds h.owner h.row h.mode).1 hh
        rw [howner, hG] at hmem
        exact hafter _ hmem
    · cases happly : S.applyAll (se.ops ++ [op]) m.committed with
      | error e => simp [happly, Except.map] at hf
      | ok s =>
        obtain rfl : m.acquire i .keyShare (S.shares op) = m' := by
          simpa [happly, Except.map] using hf
        have hholds' := hholds.acquire (i := i) .keyShare (S.shares op)
        rw [hG] at hholds'
        refine ⟨_, hm, hexclusive.acquire fun x hx hxrow hmode => ?_, hholds', ih hse hcont⟩
        have hupdate : x.mode = .update := hmode.resolve_right (by simp)
        exact hallows habort x hx hxrow hupdate

/-- A transaction whose body takes its rows in order. -/
theorem ordered_isolated (hI : ∀ op s s', S.apply op s = .ok s' → I s → I s') {tx : τ}
    {level : Level} {body : χ → Tx σ κ ω ε α} (hbody : ∀ env, (body env).InOrder S I R []) :
    (isolated S i tx level body : Proc (Shared ι σ κ) (StepChoice χ ε) (StepLabel ι κ τ) ε α).Wp
      (ordering I R) i (fun _ g => g = []) (fun _ g => g = []) [] := by
  rintro G hist m c hG ⟨⟨hm, hexclusive, hholds⟩, hhist⟩ -
  refine ⟨[], ⟨⟨hm, hexclusive, ?_⟩, asks_append hhist trivial⟩,
    ordered_statements hI hm (hbody c.env)⟩
  rw [← hG, Function.update_eq_self]
  exact hholds

end Following

/-! ### No circle of waiting transactions -/

section Acyclic

variable {I : σ → Prop} {R : κ → κ → Prop}
  {start ps : ι → Proc (Shared ι σ κ) (StepChoice χ ε) (StepLabel ι κ τ) ε α} {s₀ : σ}
  {m : Shared ι σ κ} {hist : List (Event ι (Shared ι σ κ) (StepChoice χ ε) (StepLabel ι κ τ))}

/-- Of two transactions that wait, the second is asking for a row after the one that the first waits
for. -/
theorem related_of_waitsOn (hexclusive : m.Exclusive)
    (hasks : ∀ i l next cont, ps i = .step l next cont → Asks R m i l) {i j k : ι} {row row' : κ}
    (hij : WaitsOn (ps i) m row j) (hjk : WaitsOn (ps j) m row' k) : R row row' := by
  obtain ⟨_, _, _, -, h, hh, -, rfl, rfl⟩ := hij
  obtain ⟨l, next, cont, hps, h', hh', hblocks, rfl, rfl⟩ := hjk
  have hask := hasks _ l next cont hps
  cases l with
  | lock j row =>
    obtain ⟨rfl, hown | hafter⟩ := hask
    · -- it has the row itself, so nobody else has it
      exact absurd (hexclusive _ hown _ hh' hblocks.1.symm rfl).symm hblocks.2
    · rw [hblocks.1]
      exact hafter h hh rfl
  | write j shares =>
    obtain ⟨rfl, hrows⟩ := hask
    rcases hrows _ hblocks.1 with ⟨mode, hown⟩ | hafter
    · exact absurd (hexclusive _ hh' _ hown rfl hblocks.2.1) hblocks.2.2
    · exact hafter h hh rfl
  | _ => exact hblocks.elim

variable [DecidableEq ι] [Nonempty χ] [Nonempty ε]

/-- Wherever a run stands, the next step of each thread asks for rows in order. -/
theorem asks_of_run (hs₀ : I s₀)
    (hstart : ∀ i, (start i).Wp (ordering I R) i (fun _ g => g = []) (fun _ g => g = []) [])
    (run : Run (fun l c m _ => Allows l c m) start ⟨s₀, [], []⟩ hist ps m) :
    m.Exclusive ∧ ∀ i l next cont, ps i = .step l next cont → Asks R m i l := by
  have hinit : (ordering I R : Protocol ι _ (StepChoice χ ε) (StepLabel ι κ τ) _).inv
      (fun _ => []) [] ⟨s₀, [], []⟩ := by
    refine ⟨⟨hs₀, ?_, ?_⟩, ?_⟩ <;> simp [Shared.Exclusive, Holds]
  constructor
  · obtain ⟨_, ⟨⟨-, hexclusive, -⟩, -⟩, -⟩ := (ordering I R).sound _ _ _ hinit hstart run
    exact hexclusive
  · -- the step can be aborted, and then it is in the history
    intro i l next cont hps
    obtain ⟨e⟩ := ‹Nonempty ε›
    obtain ⟨env⟩ := ‹Nonempty χ›
    have hlonger := run.step i ⟨some e, env⟩ hps nofun
    obtain ⟨_, ⟨-, hhist⟩, -⟩ := (ordering I R).sound _ _ _ hinit hstart hlonger
    exact hhist _ (List.mem_append_right _ (List.mem_singleton_self _))

/-- **No deadlock.** When all threads take their rows in the order of a relation without a circle, no
state of any run has a circle of transactions each waiting for a row that the next one holds. -/
theorem acyclic_of_inOrder (hR : ∀ row, ¬ TransGen R row row) (hs₀ : I s₀)
    (hstart : ∀ i, (start i).Wp (ordering I R) i (fun _ g => g = []) (fun _ g => g = []) [])
    (run : Run (fun l c m _ => Allows l c m) start ⟨s₀, [], []⟩ hist ps m) (i : ι) :
    ¬ TransGen (Waits ps m) i i := by
  intro hcircle
  obtain ⟨hexclusive, hasks⟩ := asks_of_run hs₀ hstart run
  -- what the last one of a chain asks for comes after what the first one asks for
  have hchain : ∀ j, TransGen (Waits ps m) i j → ∃ row j', WaitsOn (ps i) m row j' ∧
      ∀ row' k, WaitsOn (ps j) m row' k → TransGen R row row' := by
    intro j hij
    induction hij with
    | single hij =>
      obtain ⟨row, hrow⟩ := hij
      exact ⟨row, _, hrow, fun row' k hk => .single (related_of_waitsOn hexclusive hasks hrow hk)⟩
    | tail _ hjk ih =>
      obtain ⟨row, j', hrow, hbefore⟩ := ih
      obtain ⟨row₁, hrow₁⟩ := hjk
      refine ⟨row, j', hrow, fun row' k hk => ?_⟩
      exact (hbefore row₁ _ hrow₁).tail (related_of_waitsOn hexclusive hasks hrow₁ hk)
  obtain ⟨row, j, hrow, hafter⟩ := hchain i hcircle
  exact hR row (hafter row j hrow)

end Acyclic

end Sql
