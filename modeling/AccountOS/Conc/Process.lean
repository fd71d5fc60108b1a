import Mathlib.Logic.Function.Basic

/-!
# Programs that talk to a shared state

A service method is a straight piece of code with an `await` here and there. Between two
awaits nothing else can be observed, so the method is a sequence of *calls*: each call reads
and changes the shared state in one atomic step, and what the method does next depends on
what the call returned.

`Proc σ χ ℓ ε α` is such a method. `σ` is the shared state, `χ` what the environment decides
at one call (whether it fails, which ids it generates), `ℓ` the label of a call, `ε` the
errors that can be thrown and `α` the value returned. Methods are written in `do` notation
with `throw` and `tryCatch`; how several of them run together is the subject of
`AccountOS.Conc.Pool`.
-/

namespace Conc

variable {σ χ ℓ ε α β : Type}

/-- A method as the sequence of its calls. `next` is what a call does to the shared state and
`cont` is the rest of the method; both see the environment's choice and the state the call
ran in. -/
inductive Proc (σ χ ℓ ε α : Type) where
  | ret (a : α)
  | raise (e : ε)
  | step (call : ℓ) (next : χ → σ → σ) (cont : χ → σ → Proc σ χ ℓ ε α)

namespace Proc

/-! ### The monad of methods -/

def bind : Proc σ χ ℓ ε α → (α → Proc σ χ ℓ ε β) → Proc σ χ ℓ ε β
  | .ret a, f => f a
  | .raise e, _ => .raise e
  | .step l next cont, f => .step l next fun c s => (cont c s).bind f

/-- `try p catch e => f e`. The calls `p` made before it threw stay made. -/
def catching : Proc σ χ ℓ ε α → (ε → Proc σ χ ℓ ε α) → Proc σ χ ℓ ε α
  | .ret a, _ => .ret a
  | .raise e, f => f e
  | .step l next cont, f => .step l next fun c s => (cont c s).catching f

instance : Monad (Proc σ χ ℓ ε) where
  pure := .ret
  bind := Proc.bind

instance : MonadExcept ε (Proc σ χ ℓ ε) where
  throw := .raise
  tryCatch := Proc.catching

@[simp] theorem pure_eq (a : α) : (pure a : Proc σ χ ℓ ε α) = .ret a := rfl

@[simp] theorem bind_eq (p : Proc σ χ ℓ ε α) (f : α → Proc σ χ ℓ ε β) :
    (p >>= f) = p.bind f := rfl

@[simp] theorem throw_eq (e : ε) : (throw e : Proc σ χ ℓ ε α) = .raise e := rfl

@[simp] theorem tryCatch_eq (p : Proc σ χ ℓ ε α) (f : ε → Proc σ χ ℓ ε α) :
    tryCatch p f = p.catching f := rfl

/-- The method that has nothing left to do but hand over a result. -/
def ofExcept : Except ε α → Proc σ χ ℓ ε α
  | .ok a => .ret a
  | .error e => .raise e

/-- A single call, given by the result and the state it leaves. -/
def call (l : ℓ) (f : χ → σ → Except ε α × σ) : Proc σ χ ℓ ε α :=
  .step l (fun c s => (f c s).2) (fun c s => ofExcept (f c s).1)

/-- The value of a method that has returned. -/
def returned : Proc σ χ ℓ ε α → Option α
  | .ret a => some a
  | _ => none

theorem returned_eq_some {p : Proc σ χ ℓ ε α} {a : α} : p.returned = some a ↔ p = .ret a := by
  cases p <;> simp [returned]

/-! ### Running a method alone -/

/-- Run a method from start to end with nobody else touching the state, the environment's
choice at each call being a function of the call. -/
def runWith (env : ℓ → χ) : Proc σ χ ℓ ε α → σ → Except ε α × σ
  | .ret a, s => (.ok a, s)
  | .raise e, s => (.error e, s)
  | .step l next cont, s => (cont (env l) s).runWith env (next (env l) s)

section RunWith

variable (env : ℓ → χ)

@[simp] theorem runWith_ret (a : α) (s : σ) :
    (ret a : Proc σ χ ℓ ε α).runWith env s = (.ok a, s) := rfl

@[simp] theorem runWith_raise (e : ε) (s : σ) :
    (raise e : Proc σ χ ℓ ε α).runWith env s = (.error e, s) := rfl

@[simp] theorem runWith_ofExcept (r : Except ε α) (s : σ) :
    (ofExcept r : Proc σ χ ℓ ε α).runWith env s = (r, s) := by
  cases r <;> rfl

@[simp] theorem runWith_call (l : ℓ) (f : χ → σ → Except ε α × σ) (s : σ) :
    (call l f).runWith env s = f (env l) s := by
  simp only [call, runWith, runWith_ofExcept]

/-- A sequence of two methods runs the second one where the first one stopped. -/
theorem runWith_bind (p : Proc σ χ ℓ ε α) (f : α → Proc σ χ ℓ ε β) (s : σ) :
    (p.bind f).runWith env s =
      match p.runWith env s with
      | (.ok a, s') => (f a).runWith env s'
      | (.error e, s') => (.error e, s') := by
  induction p generalizing s with
  | ret a => rfl
  | raise e => rfl
  | step l next cont ih => exact ih (env l) s (next (env l) s)

/-- What comes after a method that has returned. -/
theorem runWith_bind_of_ok {p : Proc σ χ ℓ ε α} {a : α} {s : σ} (h : (p.runWith env s).1 = .ok a)
    (f : α → Proc σ χ ℓ ε β) :
    (p.bind f).runWith env s = (f a).runWith env (p.runWith env s).2 := by
  rw [runWith_bind]
  split
  next a' s' hrun =>
    rw [hrun] at h ⊢
    rw [Except.ok.inj h]
  next e s' hrun =>
    rw [hrun] at h
    cases h

/-- A handler runs where the protected method stopped. -/
theorem runWith_catching (p : Proc σ χ ℓ ε α) (f : ε → Proc σ χ ℓ ε α) (s : σ) :
    (p.catching f).runWith env s =
      match p.runWith env s with
      | (.ok a, s') => (.ok a, s')
      | (.error e, s') => (f e).runWith env s' := by
  induction p generalizing s with
  | ret a => rfl
  | raise e => rfl
  | step l next cont ih => exact ih (env l) s (next (env l) s)

/-- A method that returns needs no handler. -/
theorem runWith_catching_of_ok {p : Proc σ χ ℓ ε α} {a : α} {s : σ}
    (h : (p.runWith env s).1 = .ok a) (f : ε → Proc σ χ ℓ ε α) :
    (p.catching f).runWith env s = p.runWith env s := by
  rw [runWith_catching]
  split
  next a' s' hrun => exact hrun.symm
  next e s' hrun =>
    rw [hrun] at h
    cases h

end RunWith

end Proc

end Conc
