import AccountOS.Sql.Offset
import AccountOS.Store.FindMany
import Mathlib.Data.Rat.Floor

/-!
# Listings by page numbers

`findMany { where, orderBy, skip, take }` beside a `count { where }`. The two queries of a listing run
at the same time, so that the rows and their number may be those of different states.

* `mem_pages_of_growing`: paging through such a listing shows every row that was there when the first
  page was read, whatever is added in the meantime, if the number by which the last page is recognised
  was counted when its rows were there.
-/

namespace AccountOS

open Sql

variable {α : Type}

/-! ### The answer -/

/-- A page with its `meta`; `totalPages` is `none` for what is no finite number. -/
structure OffsetPage (α : Type) where
  data : List α
  total : ℕ
  page : Int
  limit : Int
  totalPages : Option Int
deriving DecidableEq, Repr

/-- `Math.ceil(total / limit)`. -/
def pageCount (total : ℕ) (limit : Int) : Option Int :=
  if limit = 0 then none else some ⌈(total : ℚ) / limit⌉

/-- The query for the page, and its `meta`. `page` and `limit` are `none` for `NaN`; `skip` is an
integer like `take`, but not a negative one. -/
def ClientArguments.offsetListing (client : ClientArguments) (accepted : Bool) (rows : List α)
    (total : ℕ) (page limit : Option Int) : Except Error (OffsetPage α) :=
  match page, limit with
  | some page, some limit =>
    let skip := (page - 1) * limit
    if accepted = false then .error (invalidArgument "where")
    else if 0 ≤ skip ∧ client.takes skip then
      if client.takes limit then
        .ok ⟨offsetRows rows skip.toNat limit, total, page, limit, pageCount total limit⟩
      else .error (invalidArgument "take")
    else .error (invalidArgument "skip")
  | _, _ => .error (invalidArgument "skip")

namespace OffsetPage

def map {β : Type} (f : α → β) (p : OffsetPage α) : OffsetPage β :=
  ⟨p.data.map f, p.total, p.page, p.limit, p.totalPages⟩

end OffsetPage

/-! ### What a page has -/

section OffsetListing

variable {client : ClientArguments} {accepted : Bool} {rows : List α} {total : ℕ} {p : OffsetPage α}

theorem offsetListing_eq_ok {page limit : Option Int}
    (h : client.offsetListing accepted rows total page limit = .ok p) :
    ∃ page' limit' : Int, page = some page' ∧ limit = some limit' ∧ 0 ≤ (page' - 1) * limit' ∧
      p = ⟨offsetRows rows ((page' - 1) * limit').toNat limit', total, page', limit',
        pageCount total limit'⟩ := by
  unfold ClientArguments.offsetListing at h
  split at h
  next page' limit' =>
    dsimp only at h
    split at h
    · cases h
    · split at h
      next hskip =>
        split at h
        · exact ⟨page', limit', rfl, rfl, hskip.1, (Except.ok.inj h).symm⟩
        · cases h
      next => cases h
  next => cases h

/-- Page `k + 1` of `n` rows each. -/
theorem data_of_offsetListing {k n : ℕ}
    (h : client.offsetListing accepted rows total (some ((k : Int) + 1)) (some (n : Int)) = .ok p) :
    p.data = offsetRows rows (k * n) n ∧ p.totalPages = pageCount total n := by
  obtain ⟨page, limit, hpage, hlimit, -, rfl⟩ := offsetListing_eq_ok h
  cases hpage
  cases hlimit
  have hskip : (((k : Int) + 1 - 1) * n).toNat = k * n := by
    rw [add_sub_cancel_right]
    exact_mod_cast Int.toNat_natCast (k * n)
  rw [hskip]
  exact ⟨rfl, rfl⟩

theorem offsetListing_map {β : Type} (f : α → β) {page limit : Option Int} :
    client.offsetListing accepted (rows.map f) total page limit =
      (client.offsetListing accepted rows total page limit).map (OffsetPage.map f) := by
  unfold ClientArguments.offsetListing
  split
  next page' limit' =>
    dsimp only
    split
    · rfl
    · split
      · split
        · rw [← map_offsetRows]
          rfl
        · rfl
      · rfl
  next => rfl

/-- No page follows number `K + 1`. -/
theorem length_le_of_pageCount {n K : ℕ} (hn : 0 < n) {pages : Int}
    (h : pageCount total n = some pages) (hlast : pages ≤ (K : Int) + 1) : total ≤ (K + 1) * n := by
  have hn' : (n : Int) ≠ 0 := by omega
  rw [pageCount, if_neg hn', Option.some.injEq] at h
  have hceil : ⌈(total : ℚ) / (n : Int)⌉ ≤ ((K + 1 : ℕ) : Int) := by
    rw [h]
    exact_mod_cast hlast
  have hpos : (0 : ℚ) < n := by exact_mod_cast hn
  rw [Int.ceil_le, Int.cast_natCast, Int.cast_natCast, div_le_iff₀ hpos] at hceil
  exact_mod_cast hceil

end OffsetListing

/-! ### Rows that are added -/

instance (stamp : α → Nat) (id : α → String) (rank : String → Nat) :
    Std.Total (latestFirst stamp id rank) := by
  refine ⟨fun x y => ?_⟩
  unfold latestFirst
  omega

instance (stamp : α → Nat) (id : α → String) (rank : String → Nat) :
    IsTrans α (latestFirst stamp id rank) := by
  refine ⟨fun x y z => ?_⟩
  unfold latestFirst
  omega

section Growing

variable {stamp : α → Nat} {id : α → String} {rank : String → Nat}

/-- The order of a listing is one of the times and the ids. -/
theorem map_selectRows_latestFirst {w : Where α} {table : List α} :
    (selectRows w (latestFirst stamp id rank) table).map (fun x => (stamp x, id x)) =
      ((table.filter w.selects).map fun x => (stamp x, id x)).insertionSort
        (latestFirst Prod.fst Prod.snd rank) := by
  rw [selectRows]
  exact List.map_insertionSort (latestFirst stamp id rank) (latestFirst Prod.fst Prod.snd rank)
    (fun x => (stamp x, id x)) _ fun _ _ _ _ => Iff.rfl

/-- What is added to a table is added between the rows of its listing. -/
theorem selectRows_sublist (hrank : Function.Injective rank) {w w' : Where α} {t t' : List α}
    (h : List.Sublist ((t.filter w.selects).map fun x => (stamp x, id x))
      ((t'.filter w'.selects).map fun x => (stamp x, id x))) :
    List.Sublist
      ((selectRows w (latestFirst stamp id rank) t).map fun x => (stamp x, id x))
      ((selectRows w' (latestFirst stamp id rank) t').map fun x => (stamp x, id x)) := by
  have hantisymm : Std.Antisymm (latestFirst (Prod.fst : Nat × String → Nat) Prod.snd rank) := by
    refine ⟨fun x y hxy hyx => ?_⟩
    have hstamp : x.1 = y.1 := by
      unfold latestFirst at hxy hyx
      omega
    have hid : rank x.2 = rank y.2 := by
      unfold latestFirst at hxy hyx
      omega
    exact Prod.ext hstamp (hrank hid)
  rw [map_selectRows_latestFirst, map_selectRows_latestFirst]
  exact insertionSort_sublist_of_subperm h.subperm

/-- **Paging through a listing that grows misses nothing**: page `k + 1` is read of `rowsAt k`, and the
number by which the last one was recognised is at least that of its rows. -/
theorem mem_pages_of_growing {β : Type} {client : ClientArguments} {accepted : Bool}
    {rowsAt : ℕ → List α} {total : ℕ → ℕ} {key : α → β} {n K : ℕ} (hn : 0 < n)
    {pages : ℕ → OffsetPage α}
    (hpages : ∀ k ≤ K, client.offsetListing accepted (rowsAt k) (total k) (some ((k : Int) + 1))
      (some (n : Int)) = .ok (pages k))
    (hgrow : ∀ k < K, List.Sublist ((rowsAt k).map key) ((rowsAt (k + 1)).map key))
    (htotal : (rowsAt K).length ≤ total K) {count : Int}
    (hlast : (pages K).totalPages = some count) (hcount : count ≤ (K : Int) + 1) {x : β}
    (hx : x ∈ (rowsAt 0).map key) : ∃ k ≤ K, x ∈ (pages k).data.map key := by
  have hend : (rowsAt K).length ≤ (K + 1) * n := by
    apply le_trans htotal
    rw [(data_of_offsetListing (hpages K (le_refl K))).2] at hlast
    exact length_le_of_pageCount hn hlast hcount
  obtain ⟨k, hk, hmem⟩ := exists_mem_offsetRows_of_growing hgrow hend hx
  refine ⟨k, hk, ?_⟩
  rw [(data_of_offsetListing (hpages k hk)).1]
  exact hmem

end Growing

end AccountOS
