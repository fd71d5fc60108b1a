import Mathlib.Data.Set.Insert

/-!
# Whose a row is

A row belongs to an owner, or to whoever owns another row that it refers to; and it may be linked to
further rows. Here only the keys of the rows are left, with this much of their columns.

* `Owned.unique`: when a key names one row, a row has one owner.
* `Adds.linked`: while an owner only adds rows that refer to rows of its own, no link ever joins rows
  of two owners.
* `Adds.owned_iff`: what one owner adds does not make another one own anything.
-/

namespace Sql

variable {κ β : Type}

/-- A row, without its data: its key, whose it is (an owner, or the owner of another row), and the
rows that it is linked to. -/
structure OwnedRow (κ β : Type) where
  key : κ
  owner : β ⊕ κ
  links : List κ
deriving DecidableEq

/-- The row with this key belongs to `b`. -/
inductive Owned (S : Set (OwnedRow κ β)) (b : β) : κ → Prop
  | itself {r : OwnedRow κ β} (hr : r ∈ S) (h : r.owner = .inl b) : Owned S b r.key
  | through {r : OwnedRow κ β} {k : κ} (hr : r ∈ S) (h : r.owner = .inr k) (hk : Owned S b k) :
      Owned S b r.key

/-- A key names one row. -/
def UniqueKeys (S : Set (OwnedRow κ β)) : Prop := ∀ r ∈ S, ∀ r' ∈ S, r.key = r'.key → r = r'

/-- A row is linked to rows of its own owner only. -/
def Linked (S : Set (OwnedRow κ β)) : Prop :=
  ∀ r ∈ S, ∀ k ∈ r.links, ∃ b, Owned S b r.key ∧ Owned S b k

variable {S S' S'' : Set (OwnedRow κ β)} {a b : β} {k : κ} {r : OwnedRow κ β}

/-! ### Owners -/

theorem Owned.mono (h : Owned S b k) (hsub : S ⊆ S') : Owned S' b k := by
  induction h with
  | itself hr h => exact .itself (hsub hr) h
  | through hr h _ ih => exact .through (hsub hr) h ih

/-- There is a row to be owned, and it says why. -/
theorem Owned.exists_row (h : Owned S b k) : ∃ r ∈ S, r.key = k ∧
    (r.owner = .inl b ∨ ∃ k', r.owner = .inr k' ∧ Owned S b k') := by
  cases h with
  | itself hr h => exact ⟨_, hr, rfl, .inl h⟩
  | through hr h hk => exact ⟨_, hr, rfl, .inr ⟨_, h, hk⟩⟩

/-- What a row says of its owner. -/
theorem owned_key_iff (hS : UniqueKeys S) (hr : r ∈ S) :
    Owned S b r.key ↔ r.owner = .inl b ∨ ∃ k, r.owner = .inr k ∧ Owned S b k := by
  constructor
  · intro h
    obtain ⟨r', hr', hkey, howner⟩ := h.exists_row
    rw [hS r hr r' hr' hkey.symm]
    exact howner
  · rintro (h | ⟨k, h, hk⟩)
    · exact .itself hr h
    · exact .through hr h hk

theorem owned_key_iff_of_inl (hS : UniqueKeys S) (hr : r ∈ S) (ha : r.owner = .inl a) :
    Owned S b r.key ↔ a = b := by
  rw [owned_key_iff hS hr, ha]
  simp

theorem owned_key_iff_of_inr (hS : UniqueKeys S) (hr : r ∈ S) (hk : r.owner = .inr k) :
    Owned S b r.key ↔ Owned S b k := by
  rw [owned_key_iff hS hr, hk]
  simp

/-- **A row has one owner.** -/
theorem Owned.unique (hS : UniqueKeys S) (ha : Owned S a k) (hb : Owned S b k) : a = b := by
  induction ha with
  | itself hr h => exact (owned_key_iff_of_inl hS hr h).1 hb
  | through hr h _ ih => exact ih ((owned_key_iff_of_inr hS hr h).1 hb)

/-! ### Adding rows -/

/-- A new row that belongs to `b`, as do the rows that it is linked to. -/
structure Fits (S : Set (OwnedRow κ β)) (b : β) (r : OwnedRow κ β) : Prop where
  fresh : ∀ r' ∈ S, r'.key ≠ r.key
  owner : r.owner = .inl b ∨ ∃ k, r.owner = .inr k ∧ Owned S b k
  links : ∀ k ∈ r.links, Owned S b k

/-- Rows are added for `b`. -/
inductive Adds (b : β) (S : Set (OwnedRow κ β)) : Set (OwnedRow κ β) → Prop
  | refl : Adds b S S
  | insert {S' : Set (OwnedRow κ β)} {r : OwnedRow κ β} (h : Adds b S S') (hr : Fits S' b r) :
      Adds b S (insert r S')

theorem Fits.owned (h : Fits S b r) : Owned (insert r S) b r.key := by
  rcases h.owner with hb | ⟨k, hk, hb⟩
  · exact .itself (Set.mem_insert r S) hb
  · exact .through (Set.mem_insert r S) hk (hb.mono (Set.subset_insert r S))

theorem Fits.uniqueKeys (h : Fits S b r) (hS : UniqueKeys S) : UniqueKeys (insert r S) := by
  intro x hx y hy hkey
  rcases hx with rfl | hx
  · rcases hy with rfl | hy
    · rfl
    · exact absurd hkey.symm (h.fresh y hy)
  · rcases hy with rfl | hy
    · exact absurd hkey (h.fresh x hx)
    · exact hS x hx y hy hkey

theorem Fits.linked (h : Fits S b r) (hS : Linked S) : Linked (insert r S) := by
  have hsub := Set.subset_insert r S
  intro x hx k hk
  rcases hx with rfl | hx
  · exact ⟨b, h.owned, (h.links k hk).mono hsub⟩
  · obtain ⟨c, hkey, hlink⟩ := hS x hx k hk
    exact ⟨c, hkey.mono hsub, hlink.mono hsub⟩

/-- A new row of `b` is nobody else's, and neither are the rows that name it as theirs. -/
theorem Fits.owned_iff (h : Fits S b r) (hS : UniqueKeys S) (hab : a ≠ b) :
    Owned (Insert.insert r S) a k ↔ Owned S a k := by
  constructor
  · intro hown
    induction hown with
    | @itself r' hr' hr'a =>
      rcases hr' with rfl | hr'
      · have hboth := Owned.unique (h.uniqueKeys hS) (.itself (Set.mem_insert _ S) hr'a) h.owned
        exact absurd hboth hab
      · exact .itself hr' hr'a
    | @through r' k hr' hr'k hk ih =>
      rcases hr' with rfl | hr'
      · have hboth := Owned.unique (h.uniqueKeys hS) (.through (Set.mem_insert _ S) hr'k hk) h.owned
        exact absurd hboth hab
      · exact .through hr' hr'k ih
  · exact fun hown => hown.mono (Set.subset_insert r S)

namespace Adds

theorem single (h : Fits S b r) : Adds b S (Insert.insert r S) := .insert .refl h

theorem trans (h : Adds b S S') (h' : Adds b S' S'') : Adds b S S'' := by
  induction h' with
  | refl => exact h
  | insert _ hr ih => exact .insert ih hr

theorem subset (h : Adds b S S') : S ⊆ S' := by
  induction h with
  | refl => exact fun _ hr => hr
  | insert _ _ ih => exact fun _ hr => Set.mem_insert_of_mem _ (ih hr)

theorem uniqueKeys (h : Adds b S S') (hS : UniqueKeys S) : UniqueKeys S' := by
  induction h with
  | refl => exact hS
  | insert _ hr ih => exact hr.uniqueKeys ih

/-- **No link is made between rows of two owners.** -/
theorem linked (h : Adds b S S') (hS : Linked S) : Linked S' := by
  induction h with
  | refl => exact hS
  | insert _ hr ih => exact hr.linked ih

/-- **What `b` adds is `b`'s**: nobody else owns more than before. -/
theorem owned_iff (h : Adds b S S') (hS : UniqueKeys S) (hab : a ≠ b) :
    Owned S' a k ↔ Owned S a k := by
  induction h with
  | refl => rfl
  | insert h hr ih => rw [hr.owned_iff (h.uniqueKeys hS) hab, ih]

end Adds

end Sql
