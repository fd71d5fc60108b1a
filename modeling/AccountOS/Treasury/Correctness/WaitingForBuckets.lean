import AccountOS.Sql.Deadlock
import AccountOS.Treasury.Correctness.LostUpdate

/-!
# Transactions that wait for each other's buckets

A transfer and an internal settlement lock two buckets, the source first. Nothing orders the two by
anything but the request, so of two opposite transfers each can hold the bucket that the other one
asks for.

`no_waiting_circle_iff` says that this is the only way: no interleaving of the transactions ever has
a circle of them waiting for each other, if and only if the pairs of buckets, as the requests lock
them, make no circle.
-/

namespace AccountOS

open Conc Sql Relation

/-! ### The transactions -/

/-- The transactions that lock buckets, with their arguments. -/
inductive LockingTx
  | transferBetweenBuckets (sourceBucketRef destinationBucketRef businessId : String)
      (amountKobo : Int) (narration : Option String)
  | settleInternal (r : SettlementRequest) (settlementId destRef : String)
  | completeSettlement (r : SettlementRequest) (settlementId nombaReference : String)
  | reserve (r : SettlementRequest)

namespace LockingTx

/-- The isolation level the code asks for. -/
def level : LockingTx → Level
  | reserve _ => .serializable
  | _ => .readCommitted

/-- The body; what it returns is left out. -/
def body : LockingTx → Env → TxBody Unit
  | transferBetweenBuckets src dst biz amount narration, env =>
    (transferTx src dst biz amount narration env).bind fun _ => .ret ()
  | settleInternal r id destRef, env => (settleInternalTx r id destRef env).bind fun _ => .ret ()
  | completeSettlement r id ref, env => completeSettlementTx r id ref env
  | reserve r, env => (reserveTx r env).bind fun _ => .ret ()

/-- The business, and the references of the buckets in the order in which they are locked. -/
def bucketRefs : LockingTx → String × String × Option String
  | transferBetweenBuckets src dst biz _ _ => (biz, src, some dst)
  | settleInternal r _ destRef => (r.businessId, r.bucketRef, some destRef)
  | completeSettlement r _ _ => (r.businessId, r.bucketRef, none)
  | reserve r => (r.businessId, r.bucketRef, none)

end LockingTx

/-- The transaction locks the bucket `a`, and then the bucket `b`. -/
def LocksBefore (db : Db) (tx : LockingTx) (a b : String) : Prop :=
  ∃ destRef, tx.bucketRefs.2.2 = some destRef ∧
    (db.findBucket tx.bucketRefs.1 tx.bucketRefs.2.1).map TreasuryBucket.id = some a ∧
    (db.findBucket tx.bucketRefs.1 destRef).map TreasuryBucket.id = some b ∧ a ≠ b

/-- A thread that runs one transaction, statement by statement. -/
abbrev LockingThread (ι : Type) :=
  Proc (SharedDb ι) (StepChoice Env Error) (StepLabel ι Key LockingTx) Error Unit

def lockingThread {ι : Type} [DecidableEq ι] (i : ι) (tx : LockingTx) : LockingThread ι :=
  isolated schema i tx tx.level tx.body

/-! ### The statements that take locks -/

section Order

variable {α : Type} {db₀ : Db} {R : Key → Key → Prop} {held : List (Key × LockMode)}

/-- The buckets are those there were at the start. -/
def SameBuckets (db₀ db : Db) : Prop := db.treasuryBuckets = db₀.treasuryBuckets

theorem SameBuckets.apply {op : WriteOp} {db db' : Db} (hop : schema.apply op db = .ok db')
    (h : SameBuckets db₀ db) : SameBuckets db₀ db' := by
  unfold SameBuckets
  rw [(Db.apply_ledger hop).1, h]

theorem SameBuckets.findBucket {db : Db} (h : SameBuckets db₀ db) (biz ref : String) :
    db.findBucket biz ref = db₀.findBucket biz ref := by
  unfold Db.findBucket
  rw [h]

theorem inOrder_lockBucketOr {notFound : Error} {ref biz : String} {f : LockedBucket → TxBody α}
    (h : ∀ b, db₀.findBucket biz ref = some b →
      ((.treasuryBucket b.id, .update) ∈ held ∨ ∀ k ∈ held, R k.1 (.treasuryBucket b.id)) ∧
        (f ⟨b.id, b.status⟩).InOrder schema (SameBuckets db₀) R
          (held ++ [(.treasuryBucket b.id, .update)])) :
    ((lockBucketOr notFound ref biz).bind f).InOrder schema (SameBuckets db₀) R held := by
  dsimp only [lockBucketOr, Tx.query, Tx.forUpdate, Tx.bind_eq, Tx.bind]
  intro db hdb
  dsimp only
  rw [hdb.findBucket]
  cases hb : db₀.findBucket biz ref with
  | none => trivial
  | some b =>
    obtain ⟨hrow, hcont⟩ := h b hb
    refine ⟨hrow, fun db' hdb' => ?_⟩
    dsimp only
    rw [hdb'.findBucket, hb, Option.filter_some_pos (by simp)]
    exact hcont

theorem inOrder_computeBalance {bucketId : String} {k : Int → TxBody α}
    (hk : ∀ x, (k x).InOrder schema (SameBuckets db₀) R held) :
    ((computeBalance bucketId).bind k).InOrder schema (SameBuckets db₀) R held :=
  fun _ _ _ _ => hk _

/-- A row that refers only to rows that are locked can be written. -/
theorem inOrder_exec {op : WriteOp} {t : TxBody α}
    (hheld : ∀ row ∈ op.shares, (row, .update) ∈ held)
    (ht : t.InOrder schema (SameBuckets db₀) R (held ++ op.shares.map fun row => (row, .keyShare))) :
    ((Tx.exec op).bind fun _ => t).InOrder schema (SameBuckets db₀) R held :=
  ⟨fun row hrow => .inl ⟨.update, hheld row hrow⟩, ht⟩

/-- Two buckets, one after the other. -/
theorem inOrder_lockBoth {e₁ e₂ : Error} {src dst biz : String}
    {f : LockedBucket → LockedBucket → TxBody α}
    (hR : ∀ s d, db₀.findBucket biz src = some s → db₀.findBucket biz dst = some d →
      s.id ≠ d.id → R (.treasuryBucket s.id) (.treasuryBucket d.id))
    (hf : ∀ s d, (f s d).InOrder schema (SameBuckets db₀) R
      [(.treasuryBucket s.id, .update), (.treasuryBucket d.id, .update)]) :
    ((lockBucketOr e₁ src biz).bind fun s => (lockBucketOr e₂ dst biz).bind (f s)).InOrder schema
      (SameBuckets db₀) R [] := by
  refine inOrder_lockBucketOr fun s hs => ⟨.inr nofun, inOrder_lockBucketOr fun d hd => ⟨?_, ?_⟩⟩
  · by_cases hsame : s.id = d.id
    · exact .inl (by simp [hsame])
    · refine .inr fun k hk => ?_
      rw [List.mem_singleton.1 hk]
      exact hR s d hs hd hsame
  · exact hf _ _

end Order

/-! ### The order of the locks of one transaction -/

section Bodies

variable {env : Env}

/-- What locks two buckets locks both of them first. -/
theorem LockingTx.body_eq {tx : LockingTx} {destRef : String} (env : Env)
    (h : tx.bucketRefs.2.2 = some destRef) :
    ∃ (e₁ e₂ : Error) (f : LockedBucket → LockedBucket → TxBody Unit),
      tx.body env = (lockBucketOr e₁ tx.bucketRefs.2.1 tx.bucketRefs.1).bind fun s =>
        (lockBucketOr e₂ destRef tx.bucketRefs.1).bind (f s) := by
  cases tx with
  | transferBetweenBuckets src dst biz amount narration =>
    obtain rfl : dst = destRef := Option.some.inj h
    dsimp only [body, transferTx, lockBucket, Tx.bind_eq]
    simp only [Tx.bind_assoc]
    exact ⟨_, _, _, rfl⟩
  | settleInternal r id dst =>
    obtain rfl : dst = destRef := Option.some.inj h
    dsimp only [body, settleInternalTx, Tx.bind_eq]
    simp only [Tx.bind_assoc]
    exact ⟨_, _, _, rfl⟩
  | completeSettlement r id ref => cases h
  | reserve r => cases h

/-- **Each transaction locks its buckets in the order of its request.** -/
theorem LockingTx.inOrder {db₀ : Db} {R : Key → Key → Prop} (tx : LockingTx)
    (hR : ∀ a b, LocksBefore db₀ tx a b → R (.treasuryBucket a) (.treasuryBucket b)) :
    (tx.body env).InOrder schema (SameBuckets db₀) R [] := by
  have hpair : ∀ dst s d, tx.bucketRefs.2.2 = some dst →
      db₀.findBucket tx.bucketRefs.1 tx.bucketRefs.2.1 = some s →
      db₀.findBucket tx.bucketRefs.1 dst = some d → s.id ≠ d.id →
      R (.treasuryBucket s.id) (.treasuryBucket d.id) := by
    intro dst s d hdst hs hd hne
    exact hR _ _ ⟨dst, hdst, by rw [hs]; rfl, by rw [hd]; rfl, hne⟩
  cases tx with
  | transferBetweenBuckets src dst biz amount narration =>
    refine Tx.InOrder.bind_ret (inOrder_lockBoth (hpair dst · · rfl) fun s d => ?_)
    split
    next => trivial
    next =>
      split
      next => trivial
      next =>
        refine inOrder_computeBalance fun x => ?_
        split
        next => trivial
        next =>
          refine inOrder_computeBalance fun y => ?_
          exact inOrder_exec (by simp [WriteOp.shares, Move.debit])
            (inOrder_exec (by simp [WriteOp.shares, Move.credit]) trivial)
  | settleInternal r id dst =>
    refine Tx.InOrder.bind_ret (inOrder_lockBoth (hpair dst · · rfl) fun s d => ?_)
    refine inOrder_computeBalance fun x => inOrder_computeBalance fun y => ?_
    exact inOrder_exec (by simp [WriteOp.shares, Move.debit, SettlementRequest.move])
      (inOrder_exec (by simp [WriteOp.shares, Move.credit, SettlementRequest.move])
        (inOrder_exec (by simp [WriteOp.shares]) trivial))
  | completeSettlement r id ref =>
    refine inOrder_lockBucketOr fun b hb => ⟨.inr (by simp), fun db hdb => ?_⟩
    exact inOrder_exec (by simp [WriteOp.shares, SettlementRequest.debit])
      (inOrder_exec (by simp [WriteOp.shares]) trivial)
  | reserve r =>
    refine Tx.InOrder.bind_ret (inOrder_lockBucketOr fun b hb => ⟨.inr (by simp), ?_⟩)
    intro db hdb db' hdb'
    dsimp only [Tx.bind]
    split
    next => trivial
    next =>
      split
      next => trivial
      -- the new settlement shares the row of its bucket, which is locked
      next type _ =>
        refine inOrder_exec (fun row hrow => ?_) trivial
        rw [List.mem_singleton.1 hrow]
        exact List.mem_singleton_self _

end Bodies

/-! ### The second lock of a transaction -/

section Second

variable {ι : Type} [DecidableEq ι] {m : SharedDb ι}

/-- A bucket that is free can be locked. -/
theorem reaches_lockBucketOr {α : Type} {ref biz : String} (i : ι) (e : Error) (tx : LockingTx)
    (f : LockedBucket → TxBody α) {b : TreasuryBucket} {se : Session Db Key WriteOp} (hops : se.ops = [])
    (hlevel : se.level = .readCommitted) (hb : m.committed.findBucket biz ref = some b)
    (hfree : ∀ h ∈ m.locks, h.row ≠ .treasuryBucket b.id) :
    ∃ se', se'.ops = [] ∧ se'.level = .readCommitted ∧
      (statements schema i tx ((lockBucketOr e ref biz).bind f) se).Reaches
        (fun l (c : StepChoice Env Error) m _ => Allows l c m) m
        (statements schema i tx (f ⟨b.id, b.status⟩) se')
        (m.acquire i .update [.treasuryBucket b.id]) := by
  dsimp only [lockBucketOr, Tx.query, Tx.forUpdate, Tx.bind_eq, Tx.bind]
  refine ⟨{ se with reads := (se.reads ++ [.bucketRef biz ref]) ++ [.treasuryBucket b.id] }, hops,
    hlevel, ?_⟩
  refine reaches_select {} hops hlevel ?_
  rw [hb]
  refine reaches_lock {} hfree (reaches_select {} hops hlevel ?_)
  have hagain : (m.acquire i .update [.treasuryBucket b.id]).committed.findBucket biz ref = some b :=
    hb
  dsimp only
  rw [hagain, Option.filter_some_pos (by simp)]
  exact .here

/-- **A transaction on its own gets to its second lock.** -/
theorem reaches_second_lock {tx : LockingTx} {a b : String} (i : ι) (h : LocksBefore m.committed tx a b)
    (hfree : ∀ x ∈ m.locks, x.row ≠ .treasuryBucket a) :
    ∃ next cont, (lockingThread i tx).Reaches (fun l (c : StepChoice Env Error) m _ => Allows l c m)
      m (.step (.lock i (.treasuryBucket b)) next cont)
      (m.acquire i .update [.treasuryBucket a]) := by
  obtain ⟨dst, hdst, hsource, hdest, -⟩ := h
  obtain ⟨s, hs, rfl⟩ := Option.map_eq_some_iff.1 hsource
  obtain ⟨d, hd, rfl⟩ := Option.map_eq_some_iff.1 hdest
  obtain ⟨e₁, e₂, f, hbody⟩ := LockingTx.body_eq {} hdst
  have hlevel : tx.level = .readCommitted := by
    cases tx with
    | reserve r => cases hdst
    | _ => rfl
  let se₀ : Session Db Key WriteOp := ⟨tx.level, m.committed, m.log.length, [], []⟩
  have hops₀ : se₀.ops = [] := rfl
  obtain ⟨se, hops, hlevel', hfirst⟩ := reaches_lockBucketOr i e₁ tx
    (fun s => (lockBucketOr e₂ dst tx.bucketRefs.1).bind (f s)) hops₀ hlevel hs hfree
  have hbegin : (lockingThread i tx).Reaches (fun l (c : StepChoice Env Error) m _ => Allows l c m)
      m (statements schema i tx (tx.body {}) se₀) m :=
    .step ⟨none, {}⟩ (fun _ => trivial) .here
  rw [hbody] at hbegin
  have hagain : (m.acquire i .update [.treasuryBucket s.id]).committed.findBucket tx.bucketRefs.1 dst =
    some d := hd
  -- the last step looks for the second bucket, which is to be locked next
  apply Exists.intro
  apply Exists.intro
  refine (hbegin.trans hfirst).trans ?_
  dsimp only [lockBucketOr, Tx.query, Tx.forUpdate, Tx.bind_eq, Tx.bind]
  refine reaches_select {} hops hlevel' ?_
  rw [hagain]
  exact .here

/-! ### A circle of requests -/

/-- Some of the pairs of buckets of a circle make a list in which each has a successor. -/
theorem exists_successors {α : Type} {r : α → α → Prop} {a b : α} (h : TransGen r a b) :
    ∃ C : List α, a ∈ C ∧ ∀ x ∈ C, ∃ y ∈ b :: C, r x y := by
  induction h using TransGen.head_induction_on with
  | single h => exact ⟨[_], List.mem_singleton_self _, by simpa using .inl h⟩
  | head h _ ih =>
    obtain ⟨C, hc, hC⟩ := ih
    refine ⟨_ :: C, List.mem_cons_self, fun x hx => ?_⟩
    rcases List.mem_cons.1 hx with rfl | hx
    · exact ⟨_, List.mem_cons_of_mem _ (List.mem_cons_of_mem _ hc), h⟩
    · obtain ⟨y, hy, hxy⟩ := hC x hx
      refine ⟨y, ?_, hxy⟩
      rcases List.mem_cons.1 hy with rfl | hy
      · exact List.mem_cons_self
      · exact List.mem_cons_of_mem _ (List.mem_cons_of_mem _ hy)

theorem LocksBefore.eq_of_eq {db : Db} {tx : LockingTx} {a b a' b' : String}
    (h : LocksBefore db tx a b) (h' : LocksBefore db tx a' b') : a = a' := by
  obtain ⟨-, -, ha, -⟩ := h
  obtain ⟨-, -, ha', -⟩ := h'
  exact Option.some.inj (ha.symm.trans ha')

variable {tx : ι → LockingTx} {db₀ : Db}

/-- The transactions of different first buckets each get to their second lock, one after the
other. -/
theorem exists_run_second_locks {next : String → String} {who : String → ι} {L : List String}
    (hL : L.Nodup) (hwho : ∀ x ∈ L, LocksBefore db₀ (tx (who x)) x (next x)) :
    ∃ hist ps m, Run (fun l (c : StepChoice Env Error) m _ => Allows l c m)
        (fun i => lockingThread i (tx i)) ⟨db₀, [], []⟩ hist ps m ∧
      m.committed = db₀ ∧
      m.locks = L.map (fun x => ⟨who x, .treasuryBucket x, .update⟩) ∧
      (∀ x ∈ L, ∃ next' cont,
        ps (who x) = .step (.lock (who x) (.treasuryBucket (next x))) next' cont) ∧
      ∀ i, (∀ x ∈ L, who x ≠ i) → ps i = lockingThread i (tx i) := by
  induction L using List.reverseRecOn with
  | nil => exact ⟨[], _, _, .init, rfl, rfl, nofun, fun _ _ => rfl⟩
  | append_singleton L x ih =>
    obtain ⟨hnodup, -, hdisjoint⟩ := List.nodup_append.1 hL
    have hnew : ∀ y ∈ L, y ≠ x := fun y hy => hdisjoint y hy x (List.mem_singleton_self _)
    have hx := hwho x (List.mem_append_right _ (List.mem_singleton_self _))
    obtain ⟨hist, ps, m, run, hm, hlocks, hasking, hidle⟩ :=
      ih hnodup fun y hy => hwho y (List.mem_append_left _ hy)
    -- a thread locks one bucket first, so the thread for `x` is not one of the others
    have hother : ∀ y ∈ L, who y ≠ who x := by
      intro y hy hsame
      have hy' := hwho y (List.mem_append_left _ hy)
      rw [hsame] at hy'
      exact hnew y hy (hy'.eq_of_eq hx)
    have hfree : ∀ h ∈ m.locks, h.row ≠ .treasuryBucket x := by
      intro h hh
      rw [hlocks] at hh
      obtain ⟨y, hy, rfl⟩ := List.mem_map.1 hh
      simpa using hnew y hy
    obtain ⟨next', cont, hreaches⟩ := reaches_second_lock (who x) (hm ▸ hx) hfree
    rw [← hidle _ hother] at hreaches
    obtain ⟨hist', run'⟩ := run.reaches hreaches
    refine ⟨hist', _, _, run', hm, ?_, fun y hy => ?_, fun i hi => ?_⟩
    · rw [List.map_append, ← hlocks]
      rfl
    · rcases List.mem_append.1 hy with hy | hy
      · rw [Function.update_of_ne (hother y hy)]
        exact hasking y hy
      · rw [List.mem_singleton.1 hy, Function.update_self]
        exact ⟨_, _, rfl⟩
    · have hxi : who x ≠ i := hi x (List.mem_append_right _ (List.mem_singleton_self _))
      rw [Function.update_of_ne hxi.symm]
      exact hidle i fun y hy => hi y (List.mem_append_left _ hy)

/-- **A circle of requests can lock itself up.** -/
theorem exists_waiting_circle {a : String}
    (h : TransGen (fun a b => ∃ i, LocksBefore db₀ (tx i) a b) a a) :
    ∃ hist ps m, Run (fun l (c : StepChoice Env Error) m _ => Allows l c m)
        (fun i => lockingThread i (tx i)) ⟨db₀, [], []⟩ hist ps m ∧
      ∃ i, TransGen (Waits ps m) i i := by
  obtain ⟨C, ha, hC⟩ := exists_successors h
  have hsuccessor : ∀ x ∈ C, ∃ y ∈ C, ∃ i, LocksBefore db₀ (tx i) x y := by
    intro x hx
    obtain ⟨y, hy, hxy⟩ := hC x hx
    rcases List.mem_cons.1 hy with rfl | hy
    · exact ⟨y, ha, hxy⟩
    · exact ⟨y, hy, hxy⟩
  have hnonempty : Nonempty ι := (hsuccessor a ha).elim fun _ h => ⟨h.2.choose⟩
  choose! next hnext who hwho using hsuccessor
  have hmem : ∀ {x}, x ∈ C.dedup ↔ x ∈ C := List.mem_dedup
  -- each request of the circle has its first lock and asks for the next one's
  obtain ⟨hist, ps, m, run, -, hlocks, hasking, -⟩ :=
    exists_run_second_locks C.nodup_dedup fun x hx => hwho x (hmem.1 hx)
  refine ⟨hist, ps, m, run, ?_⟩
  have hne : C.dedup.map who ≠ [] := List.ne_nil_of_mem (List.mem_map_of_mem (hmem.2 ha))
  refine (exists_circle hne fun i hi => ?_).imp fun i h => h.2
  obtain ⟨x, hx, rfl⟩ := List.mem_map.1 hi
  have hx' := hmem.1 hx
  have hnext' := hmem.2 (hnext x hx')
  refine ⟨who (next x), List.mem_map_of_mem hnext', .treasuryBucket (next x), ?_⟩
  obtain ⟨next', cont, hps⟩ := hasking x hx
  refine ⟨_, next', cont, hps, ⟨who (next x), .treasuryBucket (next x), .update⟩, ?_, ⟨rfl, ?_⟩, rfl,
    rfl⟩
  · rw [hlocks]
    exact List.mem_map_of_mem hnext'
  · -- a transaction never asks for the row that it has locked first
    intro hsame
    have hlater := hwho (next x) (hnext x hx')
    have hsame : who (next x) = who x := hsame
    rw [hsame] at hlater
    obtain ⟨-, -, -, -, hneq⟩ := hwho x hx'
    exact hneq ((hwho x hx').eq_of_eq hlater)

end Second

/-- **Bucket locks and deadlocks.** Any number of transfers, internal settlements, completions and
reservations run statement by statement in any order, each of them possibly aborted at any
statement. No state that they reach has a circle of transactions each waiting for a bucket row that
the next one holds, if and only if no circle of buckets is such that for each of them some request
locks it and then locks the next one. -/
theorem no_waiting_circle_iff {ι : Type} [DecidableEq ι] {tx : ι → LockingTx} {db₀ : Db} :
    (∀ hist ps m, Run (fun l (c : StepChoice Env Error) m _ => Allows l c m)
        (fun i => lockingThread i (tx i)) ⟨db₀, [], []⟩ hist ps m →
      ∀ i, ¬ TransGen (Waits ps m) i i) ↔
    ∀ bucketId, ¬ TransGen (fun a b => ∃ i, LocksBefore db₀ (tx i) a b) bucketId bucketId := by
  constructor
  · intro hfree bucketId hcircle
    obtain ⟨hist, ps, m, run, i, hi⟩ := exists_waiting_circle hcircle
    exact hfree hist ps m run i hi
  · intro hacyclic hist ps m run i
    let R : Key → Key → Prop := fun k k' => ∃ a b, k = .treasuryBucket a ∧ k' = .treasuryBucket b ∧
      ∃ i, LocksBefore db₀ (tx i) a b
    have hrows : ∀ k k', TransGen R k k' → ∃ a b, k = .treasuryBucket a ∧ k' = .treasuryBucket b ∧
        TransGen (fun a b => ∃ i, LocksBefore db₀ (tx i) a b) a b := by
      intro k k' h
      induction h with
      | single h =>
        obtain ⟨a, b, rfl, rfl, hab⟩ := h
        exact ⟨a, b, rfl, rfl, .single hab⟩
      | tail _ h ih =>
        obtain ⟨a, b, rfl, rfl, hab⟩ := ih
        obtain ⟨b', c, hb, rfl, hbc⟩ := h
        obtain rfl := Key.treasuryBucket.inj hb
        exact ⟨a, c, rfl, rfl, hab.tail hbc⟩
    have hR : ∀ k, ¬ TransGen R k k := by
      intro k hk
      obtain ⟨a, b, rfl, hb, hab⟩ := hrows k k hk
      obtain rfl := Key.treasuryBucket.inj hb
      exact hacyclic a hab
    have : Nonempty Error := ⟨.other ""⟩
    have : Nonempty Env := ⟨{}⟩
    refine acyclic_of_inOrder hR (I := SameBuckets db₀) rfl (fun j => ?_) run i
    refine ordered_isolated (fun op s s' hop hs => hs.apply hop) fun env => ?_
    exact (tx j).inOrder fun a b hab => ⟨a, b, rfl, rfl, j, hab⟩

/-! ### Two opposite transfers -/

namespace Sample

/-- One transfers from `ops` to `tax`, the other one from `tax` to `ops`. -/
def opposite : Bool → LockingTx
  | false => .transferBetweenBuckets "ops" "tax" "biz" 100 none
  | true => .transferBetweenBuckets "tax" "ops" "biz" 100 none

/-- Each of them locks its source, and looks for its destination. -/
def bothLockTheirSource : List (Bool × StepChoice Env Error) :=
  List.replicate 5 (turn false {}) ++ List.replicate 5 (turn true {})

/-- The state they are in then. -/
def bothWait : List (Event Bool (SharedDb Bool) (StepChoice Env Error) (StepLabel Bool Key LockingTx)) ×
    (Bool → LockingThread Bool) × SharedDb Bool :=
  exec (fun i => lockingThread i (opposite i)) ⟨twoBuckets.db, [], []⟩ bothLockTheirSource

end Sample

/-- Each transfer waits for the bucket that the other one holds. -/
theorem opposite_transfers_wait_for_each_other :
    ∃ hist ps m, Run (fun l (c : StepChoice Env Error) m _ => Allows l c m)
        (fun i => lockingThread i (Sample.opposite i)) ⟨Sample.twoBuckets.db, [], []⟩ hist ps m ∧
      TransGen (Waits ps m) false false := by
  have hfalse : Waits Sample.bothWait.2.1 Sample.bothWait.2.2 false true :=
    ⟨.treasuryBucket "bkt2", .lock false (.treasuryBucket "bkt2"), _, _, rfl,
      ⟨true, .treasuryBucket "bkt2", .update⟩, by decide +kernel, ⟨rfl, by decide⟩, rfl, rfl⟩
  have htrue : Waits Sample.bothWait.2.1 Sample.bothWait.2.2 true false :=
    ⟨.treasuryBucket "bkt1", .lock true (.treasuryBucket "bkt1"), _, _, rfl,
      ⟨false, .treasuryBucket "bkt1", .update⟩, by decide +kernel, ⟨rfl, by decide⟩, rfl, rfl⟩
  exact ⟨_, _, _, Run.of_exec _ _ Sample.bothLockTheirSource (by decide +kernel),
    .tail (.single hfalse) htrue⟩

end AccountOS
