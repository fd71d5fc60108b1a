import AccountOS.Sql.Growth
import AccountOS.Store.OffsetListing

/-!
# Listings by cursors, while rows are added

`Prolongs` of `AccountOS.Sql.Growth` for the listings of the services: their filters and their orders
go by columns that are never written again.

* `exists_liveWalk_listing`: following the cursors returns every row that was there at the first call.
-/

namespace AccountOS

open Sql

variable {α π : Type}

/-! ### The order of the places -/

/-- `ORDER BY stamp DESC` of the columns that stay, without those of the same row. -/
def Precedes (stamp : π → Nat) (id : π → String) (rank : String → Nat) (p q : π) : Prop :=
  stamp q < stamp p ∨ stamp p = stamp q ∧ rank (id p) < rank (id q)

instance (stamp : π → Nat) (id : π → String) (rank : String → Nat) :
    IsTrans π (Precedes stamp id rank) := by
  refine ⟨fun p q r => ?_⟩
  unfold Precedes
  omega

instance (stamp : π → Nat) (id : π → String) (rank : String → Nat) :
    Std.Irrefl (Precedes stamp id rank) := by
  refine ⟨fun p => ?_⟩
  unfold Precedes
  omega

/-! ### The rows of a growing table -/

section Growing

variable {stamp : π → Nat} {id : π → String} {rank : String → Nat} {fixed : α → π} {w : Where α}

variable (stamp id rank fixed w) in
/-- What a listing finds in a table. -/
def listedRows (table : List α) : List α :=
  selectRows w (latestFirst (fun x => stamp (fixed x)) (fun x => id (fixed x)) rank) table

/-- Rows of different ids have different places. -/
theorem pairwise_listedRows (hrank : Function.Injective rank) {table : List α}
    (hnodup : (table.map fun x => id (fixed x)).Nodup) :
    (listedRows stamp id rank fixed w table).Pairwise fun x y =>
      Precedes stamp id rank (fixed x) (fixed y) := by
  have hids : (listedRows stamp id rank fixed w table).Pairwise fun x y => id (fixed x) ≠ id (fixed y) :=
    List.pairwise_map.1 (nodup_map_selectRows hnodup)
  have hsorted : (listedRows stamp id rank fixed w table).Pairwise
      (latestFirst (fun x => stamp (fixed x)) (fun x => id (fixed x)) rank) :=
    List.pairwise_insertionSort _ _
  refine (hsorted.and hids).imp fun hxy => ?_
  obtain ⟨hle, hne⟩ := hxy
  have hrankne : rank _ ≠ rank _ := fun heq => hne (hrank heq)
  simp only [latestFirst] at hle
  unfold Precedes
  omega

/-- What is selected by fixed columns stays selected. -/
theorem map_listedRows_subset {t t' : List α} (h : Prolongs (fun x => id (fixed x)) fixed t t')
    {r : π → Bool} (hselects : ∀ x, w.selects x = r (fixed x)) :
    (listedRows stamp id rank fixed w t).map fixed ⊆
      (listedRows stamp id rank fixed w t').map fixed := by
  have hperm : ∀ u : List α, ((listedRows stamp id rank fixed w u).map fixed).Perm
      ((u.filter w.selects).map fixed) := fun u => perm_selectRows.map fixed
  intro p hp
  rw [(hperm t).mem_iff] at hp
  rw [(hperm t').mem_iff]
  exact (h.filter_sublist hselects hselects).subset hp

/-- So do the ids, in the order of the listing. -/
theorem map_listedRows_sublist (hrank : Function.Injective rank) {t t' : List α}
    (h : Prolongs (fun x => id (fixed x)) fixed t t') {r : π → Bool}
    (hselects : ∀ x, w.selects x = r (fixed x)) :
    List.Sublist ((listedRows stamp id rank fixed w t).map fun x => id (fixed x))
      ((listedRows stamp id rank fixed w t').map fun x => id (fixed x)) := by
  have hplaces := (h.filter_sublist hselects hselects).map fun p => (stamp p, id p)
  rw [List.map_map, List.map_map] at hplaces
  have hids := (selectRows_sublist hrank hplaces).map Prod.snd
  rwa [List.map_map, List.map_map] at hids

theorem growingRows (hrank : Function.Injective rank) {r : π → Bool}
    (hselects : ∀ x, w.selects x = r (fixed x)) {tableAt : ℕ → List α}
    (hgrow : ∀ i, Prolongs (fun x => id (fixed x)) fixed (tableAt i) (tableAt (i + 1)))
    (hnodup : ((tableAt 0).map fun x => id (fixed x)).Nodup) :
    GrowingRows (fun x => id (fixed x)) fixed (Precedes stamp id rank)
      fun i => listedRows stamp id rank fixed w (tableAt i) := by
  have hunique : ∀ i, ((tableAt i).map fun x => id (fixed x)).Nodup := by
    intro i
    induction i with
    | zero => exact hnodup
    | succ i ih => exact (hgrow i).unique ih
  exact {
    sorted := fun i => pairwise_listedRows hrank (hunique i)
    unique := fun i => nodup_map_selectRows (hunique i)
    grows := fun i => map_listedRows_subset (hgrow i) hselects
    key_eq := fun h => congrArg id h }

/-- **Following the cursors of a listing, while rows are added**, ends and returns every row that was
there at the first call, in order and none twice. `final` is the table at any later time. -/
theorem exists_liveWalk_listing (hrank : Function.Injective rank) {r : π → Bool}
    (hselects : ∀ x, w.selects x = r (fixed x)) {tableAt : ℕ → List α}
    (hgrow : ∀ i, Prolongs (fun x => id (fixed x)) fixed (tableAt i) (tableAt (i + 1)))
    (hnodup : ((tableAt 0).map fun x => id (fixed x)).Nodup) {final : List α}
    (hfinal : ∀ i, Prolongs (fun x => id (fixed x)) fixed (tableAt i) final)
    (hids : ∀ x ∈ final, id (fixed x) ≠ "") {client : ClientArguments} {n : ℕ} (hn : 0 < n)
    (hle : n ≤ 100) :
    ∃ pages, LiveWalk (fun i => client.listing (fun x => id (fixed x)) true
        (listedRows stamp id rank fixed w (tableAt i)) n n) 0 none pages ∧
      pages.flatten.Pairwise (latestFirst (fun x => stamp (fixed x)) (fun x => id (fixed x)) rank) ∧
      (pages.flatten.map fun x => id (fixed x)).Nodup ∧
      (listedRows stamp id rank fixed w (tableAt 0)).map fixed ⊆ pages.flatten.map fixed ∧
      pages.length ≤ (listedRows stamp id rank fixed w final).length / n + 1 := by
  -- whatever a call finds is in the table at the end
  have hlater : ∀ {i x}, x ∈ listedRows stamp id rank fixed w (tableAt i) →
      ∃ y ∈ final, fixed y = fixed x := by
    intro i x hx
    have hmem : fixed x ∈ final.map fixed :=
      (hfinal i).columns.subset (List.mem_map_of_mem (mem_selectRows.1 hx).1)
    exact List.mem_map.1 hmem
  have hfetch : ∀ i, ∀ last : Option α,
      (∀ x ∈ last, x ∈ listedRows stamp id rank fixed w (tableAt i)) →
        client.listing (fun x => id (fixed x)) true (listedRows stamp id rank fixed w (tableAt i)) n n
            (last.map fun x => id (fixed x)) =
          .ok (fullPages (fun x => id (fixed x)) (listedRows stamp id rank fixed w (tableAt i)) n
            (last.map fun x => id (fixed x))) := by
    intro i last hlast
    rw [listing_eq_fullPages hn hle]
    cases last with
    | none => rfl
    | some x =>
      -- the ids that are cursors are not empty
      obtain ⟨y, hy, hfixed⟩ := hlater (hlast x rfl)
      have hid : id (fixed x) ≠ "" := by
        rw [← hfixed]
        exact hids y hy
      simp [Option.filter, hid]
  obtain ⟨pages, hwalk, hsorted, hall, hthere, hlength⟩ :=
    exists_liveWalk (growingRows hrank hselects hgrow hnodup) hn hfetch
      fun i => map_listedRows_subset (hfinal i) hselects
  refine ⟨pages, hwalk, ?_, ?_, hall, hlength⟩
  · refine hsorted.imp fun hxy => ?_
    rcases hxy with hlt | ⟨heq, hlt⟩
    · exact .inl hlt
    · exact .inr ⟨heq, le_of_lt hlt⟩
  · rw [List.Nodup, List.pairwise_map]
    refine hsorted.imp_of_mem fun {x y} hx hy hxy heq => ?_
    -- two rows of one id are the same row of the table at the end
    obtain ⟨i, hi⟩ := hthere x hx
    obtain ⟨j, hj⟩ := hthere y hy
    obtain ⟨x', hx', hfx⟩ := hlater hi
    obtain ⟨y', hy', hfy⟩ := hlater hj
    have hsame : x' = y' := by
      apply List.inj_on_of_nodup_map ((hfinal 0).unique hnodup) hx' hy'
      rw [hfx, hfy]
      exact heq
    rw [← hfx, ← hfy, hsame] at hxy
    exact Std.Irrefl.irrefl _ hxy

end Growing

end AccountOS
