import AccountOS.Conc.Alone
import AccountOS.Sql.Isolation

/-!
# When isolated transactions are as good as atomic ones

The two levels of `AccountOS.Sql.Isolation` do not exclude each other, so running transactions side
by side is in general not the same as running them one after the other. `committed_inv` says when it
is, as far as invariants are concerned: a `READ COMMITTED` body locks before it reads, a
`SERIALIZABLE` one reads what it writes, and no `SERIALIZABLE` transaction commits after a
`READ COMMITTED` one has committed a change to what it read. Then whatever every body keeps when it
is run alone, every run keeps. And `takes_effect` says what a transaction returns: what its body
returns when it is run alone, at one of the steps that the transaction has made.

The idea is that at its commit each transaction could have run, all at once, on the data committed
just before: `Consistent` says so of the reads of every open transaction, and `wp_statements`
follows a body through its statements with the equation between the body and what is left of it. A
`SERIALIZABLE` transaction that has written nothing is the exception: it could have run when it
began.
-/

namespace Sql

open Conc

variable {ι σ κ ω ε χ τ α : Type}

/-! ### Bodies that can be isolated -/

/-- When two states agree on what a key names; a write changes nothing that it does not touch. -/
structure Footprint (S : Schema σ κ ω ε) where
  agree : κ → Setoid σ
  frame : ∀ {op s s' k}, S.apply op s = .ok s' → k ∉ S.touches op → (agree k).r s s'

/-- Every write that changes what `k` names takes a share lock on one of the rows. -/
def Protects (S : Schema σ κ ω ε) (rows : List κ) (k : κ) : Prop :=
  ∀ op, k ∈ S.touches op → ∃ row ∈ rows, row ∈ S.shares op

namespace Tx

variable {S : Schema σ κ ω ε}

def WritesOnly : Tx σ κ ω ε α → Prop
  | .ret _ => True
  | .throw _ => True
  | .select .. => False
  | .lock .. => False
  | .write _ cont => cont.WritesOnly

/-- The body depends on nothing but what the rows of its queries name, and it reads before it
writes. -/
def Scoped (F : Footprint S) : Tx σ κ ω ε α → Prop
  | .ret _ => True
  | .throw _ => True
  | .select rows cont =>
    (∀ s s', (∀ k ∈ rows, (F.agree k).r s s') → cont s = cont s') ∧ ∀ s, (cont s).Scoped F
  | .lock _ cont => cont.Scoped F
  | .write _ cont => cont.WritesOnly

/-- Everything the body reads is protected by the rows it has locked. -/
def LocksFirst (S : Schema σ κ ω ε) (locked : List κ) : Tx σ κ ω ε α → Prop
  | .ret _ => True
  | .throw _ => True
  | .select rows cont =>
    (∀ k ∈ rows, Protects S locked k) ∧ ∀ s, (cont s).LocksFirst S locked
  | .lock row cont => cont.LocksFirst S (locked ++ [row])
  | .write _ cont => cont.LocksFirst S locked

/-- A body that has made the given reads and writes: at its end it has written nothing, or it has
read just what it has changed. -/
def ReadsItsWrites (S : Schema σ κ ω ε) (reads : List κ) (ops : List ω) : Tx σ κ ω ε α → Prop
  | .ret _ => ops = [] ∨ ∀ k, k ∈ reads ↔ k ∈ S.touchesAll ops
  | .throw _ => True
  | .select rows cont => ∀ s, (cont s).ReadsItsWrites S (reads ++ rows) ops
  | .lock _ cont => cont.ReadsItsWrites S reads ops
  | .write op cont => cont.ReadsItsWrites S reads (ops ++ [op])

/-- What a body has to be like for its level. -/
structure Isolable (F : Footprint S) (level : Level) (t : Tx σ κ ω ε α) : Prop where
  scope : t.Scoped F
  locksFirst : level = .readCommitted → t.LocksFirst S []
  readsItsWrites : level = .serializable → t.ReadsItsWrites S [] []

end Tx

namespace Schema

variable {S : Schema σ κ ω ε}

@[simp] theorem applyAll_nil (s : σ) : S.applyAll [] s = .ok s := rfl

theorem applyAll_append (ops : List ω) (op : ω) (s : σ) :
    S.applyAll (ops ++ [op]) s = (S.applyAll ops s).bind (S.apply op) := by
  induction ops generalizing s with
  | nil =>
    simp only [List.nil_append, applyAll]
    cases h : S.apply op s <;> simp [Except.bind, h]
  | cons op' ops ih =>
    simp only [List.cons_append, applyAll]
    cases h : S.apply op' s with
    | error e => rfl
    | ok s' => exact ih s'

@[simp] theorem mem_touchesAll {k : κ} {ops : List ω} :
    k ∈ S.touchesAll ops ↔ ∃ op ∈ ops, k ∈ S.touches op := by
  simp [touchesAll]

/-- Writes keep what none of them touches. -/
theorem agree_applyAll (F : Footprint S) {ops : List ω} {s s' : σ} {k : κ}
    (h : S.applyAll ops s = .ok s') (hk : k ∉ S.touchesAll ops) : (F.agree k).r s s' := by
  induction ops generalizing s with
  | nil =>
    obtain rfl : s = s' := by simpa using h
    exact (F.agree k).iseqv.refl s
  | cons op ops ih =>
    simp only [applyAll] at h
    have hk' : k ∉ S.touches op ∧ k ∉ S.touchesAll ops := by simpa using hk
    cases hop : S.apply op s with
    | error e => simp [hop, Except.bind] at h
    | ok s₁ =>
      rw [hop] at h
      exact (F.agree k).iseqv.trans (F.frame hop hk'.1) (ih h hk'.2)

end Schema

/-! ### The invariant of a run -/

/-- What is known of the open transaction of a thread: its session, a state that shows everything
it has read as it has read it, and the rows it has locked. -/
structure Progress (σ κ ω : Type) where
  session : Session σ κ ω
  base : σ
  locked : List κ

/-- The locks of different threads are compatible and are those that the threads think they have.
What a `READ COMMITTED` transaction has read is still what is committed; what a `SERIALIZABLE` one
has read is, as far as no commit since it began has touched it. -/
structure Consistent (S : Schema σ κ ω ε) (F : Footprint S) (G : ι → Option (Progress σ κ ω))
    (m : Shared ι σ κ) : Prop where
  exclusive : ∀ h ∈ m.locks, ∀ h' ∈ m.locks, h.row = h'.row → h.mode = .update → h.owner = h'.owner
  locked : ∀ i g, G i = some g → ∀ row ∈ g.locked, ⟨i, row, .update⟩ ∈ m.locks
  shared : ∀ i g, G i = some g → ∀ op ∈ g.session.ops, ∀ row ∈ S.shares op,
    ∃ mode, ⟨i, row, mode⟩ ∈ m.locks
  current : ∀ i g, G i = some g → g.session.level = .readCommitted →
    ∀ k ∈ g.session.reads, (F.agree k).r g.base m.committed ∧ Protects S g.locked k
  snapshot : ∀ i g, G i = some g → g.session.level = .serializable →
    g.session.snapshot = g.base ∧ g.session.started ≤ m.log.length ∧
      ∀ k, (∀ d ∈ m.log.drop g.session.started, k ∉ d.touches) → (F.agree k).r g.base m.committed
  log : ∀ d ∈ m.log, d.level = .serializable → ∀ k ∈ d.touches, k ∈ d.reads

namespace Consistent

variable {S : Schema σ κ ω ε} {F : Footprint S} {G : ι → Option (Progress σ κ ω)}
  {m : Shared ι σ κ} {i : ι} {g : Progress σ κ ω}

/-- **What an open transaction has read is what is committed**, when it is about to commit: a
`READ COMMITTED` one is protected by its locks, a `SERIALIZABLE` one by the check at its commit. -/
theorem agree_reads (h : Consistent S F G m) (hg : G i = some g)
    (hser : g.session.level = .serializable →
      ∀ k, k ∈ g.session.reads ↔ k ∈ S.touchesAll g.session.ops)
    (hcheck : g.session.level = .serializable → ∀ d ∈ m.log.drop g.session.started,
      d.level = .serializable → ¬ RwConflict (g.session.record S) d)
    (hfresh : g.session.level = .serializable → ∀ d ∈ m.log.drop g.session.started,
      d.level = .readCommitted → ∀ k ∈ g.session.reads, k ∉ d.touches) :
    ∀ k ∈ g.session.reads, (F.agree k).r g.base m.committed := by
  intro k hk
  cases hlevel : g.session.level with
  | readCommitted => exact (h.current i g hg hlevel k hk).1
  | serializable =>
    obtain ⟨-, -, hagree⟩ := h.snapshot i g hg hlevel
    refine hagree k fun d hd hkd => ?_
    cases hdlevel : d.level with
    | readCommitted => exact hfresh hlevel d hd hdlevel k hk hkd
    | serializable =>
      -- the other one has read `k` too, which is to be changed here
      have hread : k ∈ d.reads := h.log d (List.mem_of_mem_drop hd) hdlevel k hkd
      exact hcheck hlevel d hd hdlevel ⟨⟨k, hk, hkd⟩, k, (hser hlevel k).1 hk, hread⟩

/-- Nobody else has locked what a transaction is about to change. -/
theorem not_touched (h : Consistent S F G m) (hg : G i = some g) {j : ι} {x : Progress σ κ ω}
    (hj : j ≠ i) (hx : G j = some x) {k : κ} (hk : Protects S x.locked k) :
    k ∉ S.touchesAll g.session.ops := by
  intro hmem
  obtain ⟨op, hop, hk'⟩ := Schema.mem_touchesAll.1 hmem
  obtain ⟨row, hrow, hshare⟩ := hk op hk'
  obtain ⟨mode, hheld⟩ := h.shared i g hg op hop row hshare
  exact hj (h.exclusive _ (h.locked j x hx row hrow) _ hheld rfl rfl)

variable [DecidableEq ι]

/-- A thread whose transaction has ended. -/
theorem eq_of_update_none {j : ι} (h : Function.update G i none j = some g) :
    j ≠ i ∧ G j = some g := by
  by_cases hj : j = i
  · subst hj
    simp at h
  · exact ⟨hj, by rwa [Function.update_of_ne hj] at h⟩

theorem release (h : Consistent S F G m) :
    Consistent S F (Function.update G i none) (m.release i) where
  exclusive a ha b hb := h.exclusive a (List.mem_filter.1 ha).1 b (List.mem_filter.1 hb).1
  locked j x hx row hrow := by
    obtain ⟨hj, hx⟩ := eq_of_update_none hx
    exact List.mem_filter.2 ⟨h.locked j x hx row hrow, by simpa using hj⟩
  shared j x hx op hop row hrow := by
    obtain ⟨hj, hx⟩ := eq_of_update_none hx
    obtain ⟨mode, hmem⟩ := h.shared j x hx op hop row hrow
    exact ⟨mode, List.mem_filter.2 ⟨hmem, by simpa using hj⟩⟩
  current j x hx := h.current j x (eq_of_update_none hx).2
  snapshot j x hx := h.snapshot j x (eq_of_update_none hx).2
  log := h.log

/-- The open transaction of a thread goes on: nothing is committed, and locks are only added. -/
theorem advance (h : Consistent S F G m) {g : Progress σ κ ω} {locks : List (HeldLock ι κ)}
    (hexclusive : ∀ a ∈ locks, ∀ b ∈ locks, a.row = b.row → a.mode = .update → a.owner = b.owner)
    (hlocks : ∀ a ∈ m.locks, a ∈ locks)
    (hlocked : ∀ row ∈ g.locked, ⟨i, row, .update⟩ ∈ locks)
    (hshared : ∀ op ∈ g.session.ops, ∀ row ∈ S.shares op, ∃ mode, ⟨i, row, mode⟩ ∈ locks)
    (hcurrent : g.session.level = .readCommitted → ∀ k ∈ g.session.reads,
      (F.agree k).r g.base m.committed ∧ Protects S g.locked k)
    (hsnapshot : g.session.level = .serializable → g.session.snapshot = g.base ∧
      g.session.started ≤ m.log.length ∧ ∀ k,
        (∀ d ∈ m.log.drop g.session.started, k ∉ d.touches) → (F.agree k).r g.base m.committed) :
    Consistent S F (Function.update G i (some g)) { m with locks } := by
  -- an open transaction is the thread's own, or as it was
  have hcases : ∀ j x, Function.update G i (some g) j = some x →
      (j = i ∧ x = g) ∨ G j = some x := by
    intro j x hx
    by_cases hj : j = i
    · subst hj
      exact .inl ⟨rfl, by simpa using hx.symm⟩
    · exact .inr (by simpa [hj] using hx)
  refine ⟨hexclusive, ?_, ?_, ?_, ?_, h.log⟩
  · intro j x hx
    obtain ⟨rfl, rfl⟩ | hx := hcases j x hx
    · exact hlocked
    · exact fun row hrow => hlocks _ (h.locked j x hx row hrow)
  · intro j x hx
    obtain ⟨rfl, rfl⟩ | hx := hcases j x hx
    · exact hshared
    · intro op hop row hrow
      obtain ⟨mode, hmem⟩ := h.shared j x hx op hop row hrow
      exact ⟨mode, hlocks _ hmem⟩
  · intro j x hx
    obtain ⟨rfl, rfl⟩ | hx := hcases j x hx
    · exact hcurrent
    · exact h.current j x hx
  · intro j x hx
    obtain ⟨rfl, rfl⟩ | hx := hcases j x hx
    · exact hsnapshot
    · exact h.snapshot j x hx

/-- **A commit.** -/
theorem commit (h : Consistent S F G m) (hg : G i = some g) {s : σ}
    (happly : S.applyAll g.session.ops m.committed = .ok s)
    (hser : g.session.level = .serializable →
      ∀ k ∈ S.touchesAll g.session.ops, k ∈ g.session.reads) :
    Consistent S F (Function.update G i none)
      { m.release i with committed := s, log := m.log ++ [g.session.record S] } := by
  have hreleased := h.release (i := i)
  refine ⟨hreleased.exclusive, hreleased.locked, hreleased.shared, ?_, ?_, ?_⟩
  · intro j x hx hlevel k hk
    obtain ⟨hj, hx⟩ := eq_of_update_none hx
    obtain ⟨hagree, hprotects⟩ := h.current j x hx hlevel k hk
    have huntouched := h.not_touched hg hj hx hprotects
    exact ⟨(F.agree k).iseqv.trans hagree (Schema.agree_applyAll F happly huntouched), hprotects⟩
  · intro j x hx hlevel
    obtain ⟨hj, hx⟩ := eq_of_update_none hx
    obtain ⟨hbase, hstarted, hagree⟩ := h.snapshot j x hx hlevel
    refine ⟨hbase, ?_, fun k hk => ?_⟩
    · rw [List.length_append]
      omega
    · rw [List.drop_append_of_le_length hstarted] at hk
      have hold := hagree k fun d hd => hk d (List.mem_append_left _ hd)
      have hnew : k ∉ S.touchesAll g.session.ops :=
        hk (g.session.record S) (List.mem_append_right _ (List.mem_singleton_self _))
      exact (F.agree k).iseqv.trans hold (Schema.agree_applyAll F happly hnew)
  · intro d hd hlevel
    rcases List.mem_append.1 hd with hd | hd
    · exact h.log d hd hlevel
    · rw [List.mem_singleton.1 hd] at hlevel ⊢
      exact hser hlevel

end Consistent

/-! ### Following a body -/

/-- A step of a thread. -/
abbrev StepEvent (ι σ κ ε χ τ : Type) := Event ι (Shared ι σ κ) (StepChoice χ ε) (StepLabel ι κ τ)

/-- The body, run all at once on the data that is committed before the step, returns `a` and leaves
the data that is committed after the step. -/
def TakesEffect (S : Schema σ κ ω ε) (body : Tx σ κ ω ε α) (a : α) (ev : StepEvent ι σ κ ε χ τ) :
    Prop :=
  body.run S ev.before.committed = .ok (a, ev.after.committed)

/-- The protocol of threads that run transactions. A thread's ghost is its open transaction and the
steps it has made. `pre` is what a transaction may count on when it commits, and `Effect` what is
true of the steps that change the committed data. -/
def isolation (S : Schema σ κ ω ε) (F : Footprint S) (pre : τ → σ → Prop)
    (Effect : StepEvent ι σ κ ε χ τ → Prop) :
    Protocol ι (Shared ι σ κ) (StepChoice χ ε) (StepLabel ι κ τ)
      (Option (Progress σ κ ω) × List (StepEvent ι σ κ ε χ τ)) where
  allowed l c m _ := Allows l c m ∧ ¬ CommitsStale l c m ∧ CommitsOn pre l c m
  inv G hist m := Consistent S F (Prod.fst ∘ G) m ∧
    (∀ i, ∀ ev ∈ (G i).2, ev ∈ hist ∧ ev.who = i) ∧
    ∀ ev ∈ hist, ev.after.committed = ev.before.committed ∨ Effect ev

section Following

variable [DecidableEq ι] {S : Schema σ κ ω ε} {F : Footprint S} {pre : τ → σ → Prop}
  {Effect : StepEvent ι σ κ ε χ τ → Prop} {i : ι} {g : Progress σ κ ω}
  {steps : List (StepEvent ι σ κ ε χ τ)}

/-- A step of thread `i`, which remembers it. -/
theorem isolation_step {G : ι → Option (Progress σ κ ω) × List (StepEvent ι σ κ ε χ τ)}
    {hist : List (StepEvent ι σ κ ε χ τ)} {m m' : Shared ι σ κ} {l : StepLabel ι κ τ}
    {c : StepChoice χ ε} {g' : Option (Progress σ κ ω)}
    (h : (isolation S F pre Effect).inv G hist m)
    (hconsistent : Consistent S F (Function.update (Prod.fst ∘ G) i g') m')
    (heffect : m'.committed = m.committed ∨ Effect ⟨i, l, c, m, m'⟩) :
    (isolation S F pre Effect).inv
      (Function.update G i (g', (G i).2 ++ [⟨i, l, c, m, m'⟩])) (hist ++ [⟨i, l, c, m, m'⟩]) m' := by
  obtain ⟨-, hsteps, heffects⟩ := h
  refine ⟨?_, fun j ev hev => ?_, fun ev hev => ?_⟩
  · rw [Function.comp_update]
    exact hconsistent
  · by_cases hj : j = i
    · subst hj
      rw [Function.update_self] at hev
      rcases List.mem_append.1 hev with hev | hev
      · exact ⟨List.mem_append_left _ (hsteps j ev hev).1, (hsteps j ev hev).2⟩
      · rw [List.mem_singleton.1 hev]
        exact ⟨List.mem_append_right _ (List.mem_singleton_self _), rfl⟩
    · rw [Function.update_of_ne hj] at hev
      exact ⟨List.mem_append_left _ (hsteps j ev hev).1, (hsteps j ev hev).2⟩
  · rcases List.mem_append.1 hev with hev | hev
    · exact heffects ev hev
    · rw [List.mem_singleton.1 hev]
      exact heffect

/-- One statement: it is carried out, or the transaction ends. -/
theorem wp_attempt {β : Type} {l : StepLabel ι κ τ}
    {f : Shared ι σ κ → Except ε (β × Shared ι σ κ)}
    {k : β → Proc (Shared ι σ κ) (StepChoice χ ε) (StepLabel ι κ τ) ε α}
    {Q : α → Option (Progress σ κ ω) × List (StepEvent ι σ κ ε χ τ) → Prop}
    (h : ∀ G m c b m', G i = some g → Consistent S F G m → c.abort = none →
      (isolation S F pre Effect).allowed l c m m' → f m = .ok (b, m') →
      ∃ g', Consistent S F (Function.update G i g') m' ∧
        (m'.committed = m.committed ∨ Effect ⟨i, l, c, m, m'⟩) ∧
        (k b).Wp (isolation S F pre Effect) i Q (fun _ g => g.1 = none)
          (g', steps ++ [⟨i, l, c, m, m'⟩])) :
    (attempt i l f k).Wp (isolation S F pre Effect) i Q (fun _ g => g.1 = none)
      (some g, steps) := by
  intro G hist m c hG hinv hallowed
  have hG₁ : (Prod.fst ∘ G) i = some g := congrArg Prod.fst hG
  have hG₂ : (G i).2 = steps := congrArg Prod.snd hG
  cases habort : c.abort with
  | some e =>
    simp only [habort] at hallowed ⊢
    exact ⟨_, isolation_step hinv hinv.1.release (.inl rfl), rfl⟩
  | none =>
    cases hf : f m with
    | error e =>
      simp only [habort, hf] at hallowed ⊢
      exact ⟨_, isolation_step hinv hinv.1.release (.inl rfl), rfl⟩
    | ok r =>
      simp only [habort, hf] at hallowed ⊢
      obtain ⟨g', hconsistent, heffect, hrest⟩ := h _ m c r.1 r.2 hG₁ hinv.1 habort hallowed hf
      refine ⟨_, isolation_step hinv hconsistent heffect, ?_⟩
      rw [hG₂]
      exact hrest

/-- **The statements of a body keep the invariant.** `body` is the whole body and `rest` what is
left of it: on every state that shows what has been read as it was read, running `body` is making
the writes so far and running `rest`. -/
theorem wp_statements {body rest : Tx σ κ ω ε α} {tx : τ}
    (heffect : ∀ ev a, pre tx ev.before.committed → TakesEffect S body a ev → Effect ev)
    (hbody : ∀ s, (∀ k ∈ g.session.reads, (F.agree k).r g.base s) →
      body.run S s = (S.applyAll g.session.ops s).bind (rest.run S))
    (hbegin : g.session.level = .serializable → ∃ ev ∈ steps,
      ev.before.committed = g.session.snapshot ∧ ev.after.committed = g.session.snapshot)
    (hscope : g.session.ops = [] ∧ rest.Scoped F ∨ rest.WritesOnly)
    (hlocks : g.session.level = .readCommitted → rest.LocksFirst S g.locked)
    (hreads : g.session.level = .serializable →
      rest.ReadsItsWrites S g.session.reads g.session.ops) :
    (statements S i tx rest g.session : Proc _ (StepChoice χ ε) _ ε α).Wp
      (isolation S F pre Effect) i (fun a g => g.1 = none ∧ ∃ ev ∈ g.2, TakesEffect S body a ev)
      (fun _ g => g.1 = none) (some g, steps) := by
  induction rest generalizing g steps with
  | ret a =>
    refine wp_attempt fun G m c b m' hG hinv habort hallowed hf => ?_
    obtain ⟨hallows, hfresh, hpre⟩ := hallowed
    cases happly : S.applyAll g.session.ops m.committed with
    | error e => simp [happly, Except.map] at hf
    | ok s =>
      obtain ⟨rfl, rfl⟩ : a = b ∧ _ = m' := by simpa [happly, Except.map] using hf
      refine ⟨none, hinv.commit hG happly fun hlevel k hk => ?_, ?_⟩
      · rcases hreads hlevel with hops | hsame
        · simp [hops] at hk
        · exact (hsame k).2 hk
      by_cases hempty : g.session.level = .serializable ∧ g.session.ops = []
      · -- it has written nothing: it could have run when it began
        obtain rfl : m.committed = s := by simpa [hempty.2] using happly
        obtain ⟨ev, hev, hbefore, hafter⟩ := hbegin hempty.1
        refine ⟨.inl rfl, rfl, ev, List.mem_append_left _ hev, ?_⟩
        have hbase : g.session.snapshot = g.base := (hinv.snapshot i g hG hempty.1).1
        unfold TakesEffect
        rw [hbefore, hafter, hbody _ (fun k _ => hbase ▸ (F.agree k).iseqv.refl _), hempty.2]
        rfl
      · -- everything it has read is still committed: it could run now
        have hser : g.session.level = .serializable →
            ∀ k, k ∈ g.session.reads ↔ k ∈ S.touchesAll g.session.ops := fun hlevel =>
          (hreads hlevel).resolve_left fun hops => hempty ⟨hlevel, hops⟩
        have hagree := hinv.agree_reads hG hser (fun hlevel => hallows habort hlevel)
          fun hlevel d hd hdlevel k hk hkd => hfresh ⟨habort, hlevel, d, hd, hdlevel, k, hk, hkd⟩
        have hrun : body.run S m.committed = .ok (a, s) := by
          rw [hbody m.committed hagree, happly]
          rfl
        exact ⟨.inr (heffect _ a (hpre habort) hrun), rfl, _,
          List.mem_append_right _ (List.mem_singleton_self _), hrun⟩
  | throw e =>
    intro G hist m c hG hinv hallowed
    exact ⟨_, isolation_step hinv hinv.1.release (.inl rfl), rfl⟩
  | select rows cont ih =>
    obtain ⟨hops, hrows, hcont⟩ : g.session.ops = [] ∧
        (∀ s s', (∀ k ∈ rows, (F.agree k).r s s') → cont s = cont s') ∧
          ∀ s, (cont s).Scoped F := by
      rcases hscope with h | h
      · exact h
      · exact h.elim
    refine wp_attempt fun G m c b m' hG hinv habort _ hf => ?_
    -- the query shows `b`, which agrees with what has been read before
    obtain ⟨rfl, hview⟩ : m = m' ∧ g.session.view S m = .ok b := by
      cases hv : g.session.view S m <;> simp_all [Except.map]
    let g' : Progress σ κ ω :=
      { g with session := { g.session with reads := g.session.reads ++ rows }, base := b }
    have hbase : ∀ k ∈ g.session.reads, (F.agree k).r g.base b := by
      intro k hk
      cases hlevel : g.session.level with
      | readCommitted =>
        obtain rfl : m.committed = b := by simpa [Session.view, hlevel, hops] using hview
        exact (hinv.current i g hG hlevel k hk).1
      | serializable =>
        obtain rfl : g.session.snapshot = b := by simpa [Session.view, hlevel, hops] using hview
        exact (hinv.snapshot i g hG hlevel).1 ▸ (F.agree k).iseqv.refl _
    refine ⟨some g', ?_, .inl rfl, ?_⟩
    · refine hinv.advance hinv.exclusive (fun a ha => ha) (hinv.locked i g hG)
        (hinv.shared i g hG) (fun hlevel k hk => ?_) fun hlevel => ?_
      · have hlevel : g.session.level = .readCommitted := hlevel
        obtain rfl : m.committed = b := by simpa [Session.view, hlevel, hops] using hview
        refine ⟨(F.agree k).iseqv.refl _, ?_⟩
        rcases List.mem_append.1 hk with hk | hk
        · exact (hinv.current i g hG hlevel k hk).2
        · exact (hlocks hlevel).1 k hk
      · have hlevel : g.session.level = .serializable := hlevel
        obtain rfl : g.session.snapshot = b := by simpa [Session.view, hlevel, hops] using hview
        obtain ⟨hsame, hstarted, hagree⟩ := hinv.snapshot i g hG hlevel
        refine ⟨rfl, hstarted, fun k hk => ?_⟩
        show (F.agree k).r g.session.snapshot m.committed
        rw [hsame]
        exact hagree k hk
    · refine ih b (g := g') ?_ (fun hlevel => ?_) (.inl ⟨hops, hcont b⟩)
        (fun hlevel => (hlocks hlevel).2 b) fun hlevel => hreads hlevel b
      · intro s hs
        have hold : ∀ k ∈ g.session.reads, (F.agree k).r g.base s := fun k hk =>
          (F.agree k).iseqv.trans (hbase k hk) (hs k (List.mem_append_left _ hk))
        have hnew : cont s = cont b :=
          (hrows b s fun k hk => hs k (List.mem_append_right _ hk)).symm
        show body.run S s = (S.applyAll g.session.ops s).bind ((cont b).run S)
        rw [hbody s hold, hops, ← hnew]
        rfl
      · obtain ⟨ev, hev, hshown⟩ := hbegin hlevel
        exact ⟨ev, List.mem_append_left _ hev, hshown⟩
  | lock row cont ih =>
    obtain ⟨hops, hcont⟩ : g.session.ops = [] ∧ cont.Scoped F := by
      rcases hscope with h | h
      · exact h
      · exact h.elim
    refine wp_attempt fun G m c b m' hG hinv habort hallowed hf => ?_
    obtain ⟨hallows, -⟩ := hallowed
    obtain rfl : m.acquire i .update [row] = m' := by simpa using hf
    have hfree : ∀ h ∈ m.locks, h.row = row → h.owner = i := hallows habort
    let g' : Progress σ κ ω := { g with locked := g.locked ++ [row] }
    have hmem : ∀ a ∈ m.locks, a ∈ m.locks ++ [⟨i, row, .update⟩] :=
      fun a ha => List.mem_append_left _ ha
    refine ⟨some g', ?_, .inl rfl,
      ih (g := g') hbody (fun hlevel => ?_) (.inl ⟨hops, hcont⟩) hlocks hreads⟩
    · refine hinv.advance (fun a ha b hb hrow hmode => ?_) hmem (fun r hr => ?_)
        (fun op hop r hr => ?_) (fun hlevel k hk => ?_) (hinv.snapshot i g hG)
      · rcases List.mem_append.1 ha with ha | ha <;> rcases List.mem_append.1 hb with hb | hb
        · exact hinv.exclusive a ha b hb hrow hmode
        · rw [List.mem_singleton.1 hb] at hrow ⊢
          exact hfree a ha hrow
        · rw [List.mem_singleton.1 ha] at hrow ⊢
          exact (hfree b hb hrow.symm).symm
        · rw [List.mem_singleton.1 ha, List.mem_singleton.1 hb]
      · rcases List.mem_append.1 hr with hr | hr
        · exact hmem _ (hinv.locked i g hG r hr)
        · rw [List.mem_singleton.1 hr]
          exact List.mem_append_right _ (List.mem_singleton_self _)
      · obtain ⟨mode, hheld⟩ := hinv.shared i g hG op hop r hr
        exact ⟨mode, hmem _ hheld⟩
      · obtain ⟨hagree, hprotects⟩ := hinv.current i g hG hlevel k hk
        refine ⟨hagree, fun op hop => ?_⟩
        obtain ⟨r, hr, hshare⟩ := hprotects op hop
        exact ⟨r, List.mem_append_left _ hr, hshare⟩
    · obtain ⟨ev, hev, hshown⟩ := hbegin hlevel
      exact ⟨ev, List.mem_append_left _ hev, hshown⟩
  | write op cont ih =>
    have hcont : cont.WritesOnly := by
      rcases hscope with ⟨-, h⟩ | h <;> exact h
    refine wp_attempt fun G m c b m' hG hinv habort hallowed hf => ?_
    obtain ⟨hallows, -⟩ := hallowed
    obtain rfl : m.acquire i .keyShare (S.shares op) = m' := by
      cases hv : S.applyAll (g.session.ops ++ [op]) m.committed <;> simp_all [Except.map]
    have hfree : ∀ h ∈ m.locks, h.row ∈ S.shares op → h.mode = .update → h.owner = i :=
      hallows habort
    let g' : Progress σ κ ω := { g with session := { g.session with ops := g.session.ops ++ [op] } }
    have hmem : ∀ a ∈ m.locks,
        a ∈ m.locks ++ (S.shares op).map fun row => ⟨i, row, .keyShare⟩ :=
      fun a ha => List.mem_append_left _ ha
    refine ⟨some g', ?_, .inl rfl,
      ih (g := g') ?_ (fun hlevel => ?_) (.inr hcont) hlocks hreads⟩
    · refine hinv.advance (fun a ha b hb hrow hmode => ?_) hmem
        (fun r hr => hmem _ (hinv.locked i g hG r hr)) (fun op' hop' r hr => ?_)
        (hinv.current i g hG) (hinv.snapshot i g hG)
      · rcases List.mem_append.1 ha with ha | ha
        · rcases List.mem_append.1 hb with hb | hb
          · exact hinv.exclusive a ha b hb hrow hmode
          · obtain ⟨r, hr, rfl⟩ := List.mem_map.1 hb
            exact hfree a ha (hrow ▸ hr) hmode
        · obtain ⟨r, -, rfl⟩ := List.mem_map.1 ha
          cases hmode
      · rcases List.mem_append.1 hop' with hop' | hop'
        · obtain ⟨mode, hheld⟩ := hinv.shared i g hG op' hop' r hr
          exact ⟨mode, hmem _ hheld⟩
        · rw [List.mem_singleton.1 hop'] at hr
          exact ⟨.keyShare, List.mem_append_right _ (List.mem_map.2 ⟨r, hr, rfl⟩)⟩
    · intro s hs
      show body.run S s = (S.applyAll (g.session.ops ++ [op]) s).bind (cont.run S)
      rw [hbody s hs, Schema.applyAll_append]
      cases S.applyAll g.session.ops s with
      | error e => rfl
      | ok s₁ =>
        show (Tx.write op cont).run S s₁ = (S.apply op s₁).bind (cont.run S)
        simp only [Tx.run]
        cases S.apply op s₁ <;> rfl
    · obtain ⟨ev, hev, hshown⟩ := hbegin hlevel
      exact ⟨ev, List.mem_append_left _ hev, hshown⟩

/-- **A whole transaction.** When it returns, its body has taken effect at one of its steps. -/
theorem wp_isolated {tx : τ} {level : Level} {body : χ → Tx σ κ ω ε α}
    (hbody : ∀ c, (body c).Isolable F level)
    (heffect : ∀ ev c a, pre tx ev.before.committed → TakesEffect S (body c) a ev → Effect ev) :
    (isolated S i tx level body).Wp (isolation S F pre Effect) i
      (fun a g => g.1 = none ∧ ∃ ev ∈ g.2, ∃ c, TakesEffect S (body c) a ev)
      (fun _ g => g.1 = none) (none, steps) := by
  intro G hist m c hG hinv _
  obtain ⟨hscope, hlocks, hreads⟩ := hbody c.env
  have hG₂ : (G i).2 = steps := congrArg Prod.snd hG
  let g : Progress σ κ ω := ⟨⟨level, m.committed, m.log.length, [], []⟩, m.committed, []⟩
  refine ⟨(some g, _), isolation_step hinv ?_ (.inl rfl), ?_⟩
  · refine hinv.1.advance hinv.1.exclusive (fun a ha => ha) (by simp [g]) (by simp [g])
      (by simp [g]) ?_
    intro _
    exact ⟨rfl, Nat.le_refl _, fun k _ => (F.agree k).iseqv.refl _⟩
  · rw [hG₂]
    refine (wp_statements (g := g) (fun ev a => heffect ev c.env a) (fun s _ => rfl) (fun _ => ?_)
      (.inl ⟨rfl, hscope⟩) hlocks hreads).mono ?_ fun _ _ h => h
    · exact ⟨_, List.mem_append_right _ (List.mem_singleton_self _), rfl, rfl⟩
    · rintro a g ⟨hnone, ev, hev, htakes⟩
      exact ⟨hnone, ev, hev, c.env, htakes⟩

end Following

/-! ### Any run -/

variable [DecidableEq ι]

/-- A thread that runs transactions one after the other, whether they commit or not. -/
def serve {α : τ → Type} (S : Schema σ κ ω ε) (level : τ → Level)
    (body : (tx : τ) → χ → Tx σ κ ω ε (α tx)) (i : ι) :
    List τ → Proc (Shared ι σ κ) (StepChoice χ ε) (StepLabel ι κ τ) ε Unit
  | [] => .ret ()
  | tx :: txs =>
    (((isolated S i tx (level tx) (body tx)).bind fun _ => .ret ()).catching fun _ => .ret ()).bind
      fun _ => serve S level body i txs

/-- **What threads that run transactions do.** Every step that changes the committed data is a
transaction taking effect, and a thread that has returned has made the steps its value needs: `Q`
is what `wp_isolated` and the rules of `Wp` say of the value and the steps of the thread. -/
theorem takes_effect {S : Schema σ κ ω ε} (F : Footprint S) {pre : τ → σ → Prop}
    {Effect : StepEvent ι σ κ ε χ τ → Prop} {Q : ι → α → List (StepEvent ι σ κ ε χ τ) → Prop}
    {start : ι → Proc (Shared ι σ κ) (StepChoice χ ε) (StepLabel ι κ τ) ε α}
    (hstart : ∀ i, (start i).Wp (isolation S F pre Effect) i (fun a g => Q i a g.2)
      (fun _ _ => True) (none, []))
    {s₀ : σ} {m : Shared ι σ κ} {hist : List (StepEvent ι σ κ ε χ τ)}
    {ps : ι → Proc (Shared ι σ κ) (StepChoice χ ε) (StepLabel ι κ τ) ε α}
    (run : Run (fun l c m _ => Allows l c m ∧ ¬ CommitsStale l c m ∧ CommitsOn pre l c m)
      start ⟨s₀, [], []⟩ hist ps m) :
    (∀ ev ∈ hist, ev.after.committed = ev.before.committed ∨ Effect ev) ∧
      ∀ i a, ps i = .ret a → ∃ steps, (∀ ev ∈ steps, ev ∈ hist ∧ ev.who = i) ∧ Q i a steps := by
  have hinit : (isolation S F pre Effect).inv (fun _ : ι => (none, [])) [] ⟨s₀, [], []⟩ := by
    refine ⟨⟨?_, ?_, ?_, ?_, ?_, ?_⟩, ?_, ?_⟩ <;> simp
  obtain ⟨G, ⟨-, hsteps, heffects⟩, hps⟩ := (isolation S F pre Effect).sound (fun _ => (none, []))
    (fun i a g => Q i a g.2) (fun _ _ _ => True) hinit hstart run
  refine ⟨heffects, fun i a ha => ⟨(G i).2, hsteps i, ?_⟩⟩
  have hi := hps i
  rw [ha] at hi
  exact hi

/-- What every transaction that takes effect keeps, the committed data has. -/
theorem committed_inv_of_wp {S : Schema σ κ ω ε} (F : Footprint S) {I : σ → Prop}
    {pre : τ → σ → Prop} {start : ι → Proc (Shared ι σ κ) (StepChoice χ ε) (StepLabel ι κ τ) ε α}
    (hstart : ∀ i, (start i).Wp
      (isolation S F pre fun ev => I ev.before.committed → I ev.after.committed) i
      (fun _ _ => True) (fun _ _ => True) (none, []))
    {s₀ : σ} (h₀ : I s₀) {m : Shared ι σ κ} {hist : List (StepEvent ι σ κ ε χ τ)}
    {ps : ι → Proc (Shared ι σ κ) (StepChoice χ ε) (StepLabel ι κ τ) ε α}
    (run : Run (fun l c m _ => Allows l c m ∧ ¬ CommitsStale l c m ∧ CommitsOn pre l c m)
      start ⟨s₀, [], []⟩ hist ps m) : I m.committed := by
  have hsteps := (takes_effect (Q := fun _ _ _ => True) F hstart run).1
  refine run.preserves (I := fun m => I m.committed) h₀ fun ev hev hbefore => ?_
  rcases hsteps ev hev with hsame | hkeeps
  · rw [hsame]
    exact hbefore
  · exact hkeeps hbefore

/-- **Isolated transactions are as good as atomic ones**, as far as an invariant of the committed
data is concerned: if every body keeps `I` when it is run alone, and every body is what its level
asks for, then `I` holds of the committed data in every state of every run in which no
`SERIALIZABLE` transaction commits stale. `pre` is what the transactions find when they commit. -/
theorem committed_inv {S : Schema σ κ ω ε} (F : Footprint S) {I : σ → Prop}
    {pre : τ → σ → Prop} {α : τ → Type} {level : τ → Level}
    {body : (tx : τ) → χ → Tx σ κ ω ε (α tx)}
    (hbody : ∀ tx c, (body tx c).Isolable F (level tx))
    (hatomic : ∀ tx c s a s', pre tx s → I s → (body tx c).run S s = .ok (a, s') → I s')
    {txs : ι → List τ} {s₀ : σ} (h₀ : I s₀) {m : Shared ι σ κ}
    {hist : List (Event ι (Shared ι σ κ) (StepChoice χ ε) (StepLabel ι κ τ))}
    {ps : ι → Proc (Shared ι σ κ) (StepChoice χ ε) (StepLabel ι κ τ) ε Unit}
    (run : Run (fun l c m _ => Allows l c m ∧ ¬ CommitsStale l c m ∧ CommitsOn pre l c m)
      (fun i => serve S level body i (txs i)) ⟨s₀, [], []⟩ hist ps m) : I m.committed := by
  have hserve : ∀ (i : ι) txs steps, (serve S level body i txs).Wp
      (isolation S F pre fun ev => I ev.before.committed → I ev.after.committed) i
      (fun _ _ => True) (fun _ _ => True) (none, steps) := by
    intro i txs
    induction txs with
    | nil => exact fun _ => trivial
    | cons tx txs ih =>
      intro steps
      have htx : (isolated S i tx (level tx) (body tx)).Wp
          (isolation S F pre fun ev => I ev.before.committed → I ev.after.committed) i
          (fun _ g => g.1 = none) (fun _ g => g.1 = none) (none, steps) :=
        (wp_isolated (hbody tx) fun ev c a hpre htakes hbefore =>
          hatomic tx c _ a _ hpre hbefore htakes).mono (fun _ _ h => h.1) fun _ _ h => h
      refine Proc.Wp.bind (Proc.Wp.catching (Proc.Wp.bind (htx.mono ?_ ?_)))
      · rintro a ⟨_, steps⟩ rfl
        exact ih steps
      · rintro e ⟨_, steps⟩ rfl
        exact ih steps
  exact committed_inv_of_wp F (fun i => hserve i (txs i) []) h₀ run

/-! ### Transactions of one level -/

/-- A transaction that commits at the given level. -/
def CommitsAt (level : Level) : StepLabel ι κ τ → Prop
  | .commit _ _ record _ => record.level = level
  | _ => True

/-- The step adds at most commits of the given level. -/
def LogsAt (level : Level) (m m' : Shared ι σ κ) : Prop :=
  ∀ d ∈ m'.log, d ∈ m.log ∨ d.level = level

section OneLevel

variable {S : Schema σ κ ω ε} {i : ι} {tx : τ} {level : Level}

theorem emits_statements {t : Tx σ κ ω ε α} {se : Session σ κ ω} (hlevel : se.level = level) :
    (statements S i tx t se : Proc _ (StepChoice χ ε) _ ε α).Emits (CommitsAt level) := by
  have hattempt : ∀ {β : Type} {l : StepLabel ι κ τ}
      {f : Shared ι σ κ → Except ε (β × Shared ι σ κ)}
      {k : β → Proc (Shared ι σ κ) (StepChoice χ ε) (StepLabel ι κ τ) ε α},
      CommitsAt level l → (∀ b, (k b).Emits (CommitsAt level)) →
        (attempt i l f k).Emits (CommitsAt level) := by
    intro β l f k hl hk
    refine ⟨hl, fun c m => ?_⟩
    dsimp only
    split
    · trivial
    · exact hk _
    · trivial
  induction t generalizing se with
  | ret a => exact hattempt hlevel fun _ => trivial
  | throw e => exact ⟨trivial, fun _ _ => trivial⟩
  | select rows cont ih => exact hattempt trivial fun s => ih s hlevel
  | lock row cont ih => exact hattempt trivial fun _ => ih hlevel
  | write op cont ih => exact hattempt trivial fun _ => ih hlevel

theorem keeps_statements {allowed : StepLabel ι κ τ → StepChoice χ ε → Shared ι σ κ →
    Shared ι σ κ → Prop} {t : Tx σ κ ω ε α} {se : Session σ κ ω} (hlevel : se.level = level) :
    (statements S i tx t se).Keeps allowed (LogsAt level) := by
  -- only the commit writes to the log; everything else leaves it, also when it aborts
  have hattempt : ∀ {β : Type} {l : StepLabel ι κ τ}
      {f : Shared ι σ κ → Except ε (β × Shared ι σ κ)}
      {k : β → Proc (Shared ι σ κ) (StepChoice χ ε) (StepLabel ι κ τ) ε α},
      (∀ m r, f m = .ok r → LogsAt level m r.2) → (∀ b, (k b).Keeps allowed (LogsAt level)) →
        (attempt i l f k).Keeps allowed (LogsAt level) := by
    intro β l f k hf hk c m _
    cases habort : c.abort with
    | some e =>
      simp only [habort]
      exact ⟨fun d hd => .inl hd, trivial⟩
    | none =>
      cases hr : f m with
      | error e =>
        simp only [habort, hr]
        exact ⟨fun d hd => .inl hd, trivial⟩
      | ok r =>
        simp only [habort, hr]
        exact ⟨hf m r hr, hk r.1⟩
  induction t generalizing se with
  | ret a =>
    refine hattempt (fun m r hr => ?_) fun _ => trivial
    cases happly : S.applyAll se.ops m.committed with
    | error e => simp [happly, Except.map] at hr
    | ok s =>
      obtain rfl : _ = r := by simpa [happly, Except.map] using hr
      intro d hd
      rcases List.mem_append.1 hd with hd | hd
      · exact .inl hd
      · rw [List.mem_singleton.1 hd]
        exact .inr hlevel
  | throw e => exact fun c m _ => ⟨fun d hd => .inl hd, trivial⟩
  | select rows cont ih =>
    refine hattempt (fun m r hr => ?_) fun s => ih s hlevel
    cases hv : se.view S m with
    | error e => simp [hv, Except.map] at hr
    | ok s =>
      obtain rfl : _ = r := by simpa [hv, Except.map] using hr
      exact fun d hd => .inl hd
  | lock row cont ih =>
    refine hattempt (fun m r hr => ?_) fun _ => ih hlevel
    obtain rfl : _ = r := by simpa using hr
    exact fun d hd => .inl hd
  | write op cont ih =>
    refine hattempt (fun m r hr => ?_) fun _ => ih hlevel
    cases hv : S.applyAll (se.ops ++ [op]) m.committed with
    | error e => simp [hv, Except.map] at hr
    | ok s =>
      obtain rfl : _ = r := by simpa [hv, Except.map] using hr
      exact fun d hd => .inl hd

theorem keeps_isolated {allowed : StepLabel ι κ τ → StepChoice χ ε → Shared ι σ κ →
    Shared ι σ κ → Prop} {body : χ → Tx σ κ ω ε α} :
    (isolated S i tx level body).Keeps allowed (LogsAt level) :=
  fun _ _ _ => ⟨fun _ hd => .inl hd, keeps_statements rfl⟩

variable {s₀ : σ} {m : Shared ι σ κ} {hist : List (StepEvent ι σ κ ε χ τ)}
  {ps : ι → Proc (Shared ι σ κ) (StepChoice χ ε) (StepLabel ι κ τ) ε α}

/-- `READ COMMITTED` transactions never commit stale. -/
theorem readCommitted_run {tx : ι → τ} {body : ι → χ → Tx σ κ ω ε α}
    (run : Run (fun l c m _ => Allows l c m)
      (fun i => isolated S i (tx i) .readCommitted (body i)) ⟨s₀, [], []⟩ hist ps m) :
    Run (fun l c m _ => Allows l c m ∧ ¬ CommitsStale l c m ∧ CommitsOn (fun _ _ => True) l c m)
      (fun i => isolated S i (tx i) .readCommitted (body i)) ⟨s₀, [], []⟩ hist ps m := by
  have hemits : ∀ i, (isolated S i (tx i) .readCommitted (body i) :
      Proc _ (StepChoice χ ε) _ ε α).Emits (CommitsAt .readCommitted) :=
    fun i => ⟨trivial, fun _ _ => emits_statements rfl⟩
  refine Run.mono (fun l c m m' hl hallows => ⟨hallows, ?_, ?_⟩) hemits run
  · cases l with
    | commit j tx record started =>
      rintro ⟨-, hser, -⟩
      cases hl.symm.trans hser
    | _ => exact not_false
  · cases l <;> simp [CommitsOn]

/-- `SERIALIZABLE` transactions commit stale only where there are others. -/
theorem serializable_run
    {start : ι → Proc (Shared ι σ κ) (StepChoice χ ε) (StepLabel ι κ τ) ε α}
    (hstart : ∀ i, (start i).Keeps (fun l c m _ => Allows l c m) (LogsAt .serializable))
    (run : Run (fun l c m _ => Allows l c m) start ⟨s₀, [], []⟩ hist ps m) :
    Run (fun l c m _ => Allows l c m ∧ ¬ CommitsStale l c m ∧ CommitsOn (fun _ _ => True) l c m)
      start ⟨s₀, [], []⟩ hist ps m := by
  refine Run.restrict (I := fun m => ∀ d ∈ m.log, d.level = .serializable) hstart ?_ ?_
    (fun d hd => absurd hd List.not_mem_nil) run
  · intro m m' hlogs hm d hd
    rcases hlogs d hd with hd | hlevel
    · exact hm d hd
    · exact hlevel
  · intro l c m m' hm hallows
    refine ⟨hallows, ?_, ?_⟩
    · cases l with
      | commit j tx record started =>
        rintro ⟨-, -, d, hd, hread, -⟩
        cases (hm d (List.mem_of_mem_drop hd)).symm.trans hread
      | _ => exact not_false
    · cases l <;> simp [CommitsOn]

section ReadCommitted

variable (F : Footprint S) {tx : ι → τ} {body : ι → χ → Tx σ κ ω ε α}
  (hbody : ∀ i c, (body i c).Isolable F .readCommitted)
include hbody

/-- **Invariants of `READ COMMITTED` transactions.** Threads that each run one transaction at that
level, whose body locks before it reads, keep what the bodies keep when they are run alone. -/
theorem readCommitted_inv {I : σ → Prop}
    (hatomic : ∀ i c s a s', I s → (body i c).run S s = .ok (a, s') → I s') (h₀ : I s₀)
    (run : Run (fun l c m _ => Allows l c m)
      (fun i => isolated S i (tx i) .readCommitted (body i)) ⟨s₀, [], []⟩ hist ps m) :
    I m.committed := by
  refine committed_inv_of_wp F (fun i => ?_) h₀ (readCommitted_run run)
  refine (wp_isolated (hbody i) fun ev c a _ htakes hbefore => ?_).mono (fun _ _ _ => trivial)
    fun _ _ _ => trivial
  exact hatomic i c _ a _ hbefore htakes

/-- A `READ COMMITTED` transaction that has returned has taken effect at one of its steps. -/
theorem readCommitted_returned
    (run : Run (fun l c m _ => Allows l c m)
      (fun i => isolated S i (tx i) .readCommitted (body i)) ⟨s₀, [], []⟩ hist ps m) {a : α}
    (ha : ps i = .ret a) : ∃ ev ∈ hist, ev.who = i ∧ ∃ c, TakesEffect S (body i c) a ev := by
  have hstart : ∀ i, (isolated S i (tx i) .readCommitted (body i)).Wp
      (isolation S F (fun _ _ => True) fun _ => True) i
      (fun a g => ∃ ev ∈ g.2, ∃ c, TakesEffect S (body i c) a ev) (fun _ _ => True) (none, []) :=
    fun i => (wp_isolated (hbody i) fun _ _ _ _ _ => trivial).mono (fun _ _ h => h.2)
      fun _ _ _ => trivial
  obtain ⟨steps, hsteps, ev, hev, htakes⟩ :=
    (takes_effect (Q := fun i a steps => ∃ ev ∈ steps, ∃ c, TakesEffect S (body i c) a ev) F hstart
      (readCommitted_run run)).2 i a ha
  exact ⟨ev, (hsteps ev hev).1, (hsteps ev hev).2, htakes⟩

end ReadCommitted

end OneLevel

end Sql
