import Mathlib.Data.List.DropRight
import Mathlib.Data.List.Nodup

/-!
# Paging through a listing

A listing answers with a part of its rows and, when there may be more, with the key to go on from.
A *walk* follows these keys from a first call to the page that has none.

`page` is what a query returns that skips the row of its cursor, and `fullPages` the listing that
names the last row of every full page. Its walk returns every row exactly once and in order
(`exists_walk_fullPages`): each page is a full one that is taken off the rest of the rows, until
what is left does not fill one.
-/

namespace Sql

variable {α κ ε : Type}

/-- A page of a listing, with the key of the row that the next one comes after. -/
structure Page (α κ : Type) where
  data : List α
  nextCursor : Option κ
deriving DecidableEq, Repr

/-! ### Walks -/

/-- The pages that a listing returns, from a cursor on until it names none. A walk is finite, and
none of its calls has thrown. -/
inductive Walk (fetch : Option κ → Except ε (Page α κ)) : Option κ → List (List α) → Prop
  | last {cursor data} (call : fetch cursor = .ok ⟨data, none⟩) : Walk fetch cursor [data]
  | next {cursor data key pages} (call : fetch cursor = .ok ⟨data, some key⟩)
      (rest : Walk fetch (some key) pages) : Walk fetch cursor (data :: pages)

namespace Walk

variable {fetch fetch' : Option κ → Except ε (Page α κ)} {cursor : Option κ} {data : List α}
  {pages pages' : List (List α)}

/-- The calls decide the pages. -/
theorem unique (h : Walk fetch cursor pages) (h' : Walk fetch cursor pages') : pages = pages' := by
  induction h generalizing pages' with
  | last call =>
    cases h' with
    | last call' =>
      rw [call, Except.ok.injEq, Page.mk.injEq] at call'
      rw [call'.1]
    | next call' _ =>
      rw [call, Except.ok.injEq, Page.mk.injEq] at call'
      exact absurd call'.2 (by simp)
  | next call _ ih =>
    cases h' with
    | last call' =>
      rw [call, Except.ok.injEq, Page.mk.injEq] at call'
      exact absurd call'.2 (by simp)
    | next call' rest' =>
      rw [call, Except.ok.injEq, Page.mk.injEq, Option.some.injEq] at call'
      obtain ⟨hdata, hkey⟩ := call'
      rw [hdata, ih (by rw [hkey]; exact rest')]

/-- Only the cursors that the walk comes by matter. -/
theorem congr (h : Walk fetch cursor pages) {P : Option κ → Prop} (h₀ : P cursor)
    (hnext : ∀ c data k, P c → fetch c = .ok ⟨data, some k⟩ → P (some k))
    (hfetch : ∀ c, P c → fetch c = fetch' c) : Walk fetch' cursor pages := by
  induction h with
  | last call => exact .last (by rwa [← hfetch _ h₀])
  | next call _ ih =>
    refine .next (by rwa [← hfetch _ h₀]) (ih ?_)
    exact hnext _ _ _ h₀ call

/-- A walk that ends with its first page. -/
theorem of_last (call : fetch cursor = .ok ⟨data, none⟩) :
    Walk fetch cursor pages ↔ pages = [data] := by
  constructor
  · exact fun h => h.unique (.last call)
  · rintro rfl
    exact .last call

/-- A walk that begins has not thrown. -/
theorem ok (h : Walk fetch cursor pages) : ∃ p, fetch cursor = .ok p := by
  cases h with
  | last call => exact ⟨_, call⟩
  | next call _ => exact ⟨_, call⟩

end Walk

/-- A listing is complete: no call of it throws, and following the cursors returns the rows, each
of them once and in order. -/
def Complete (fetch : Option κ → Except ε (Page α κ)) (rows : List α) : Prop :=
  (∀ cursor, ∃ p, fetch cursor = .ok p) ∧ ∃ pages, Walk fetch none pages ∧ pages.flatten = rows

/-- A listing that never names a cursor has one page for all its rows. -/
theorem complete_of_single {fetch : Option κ → Except ε (Page α κ)} {data : Option κ → List α}
    (h : ∀ cursor, fetch cursor = .ok ⟨data cursor, none⟩) {rows : List α} :
    Complete fetch rows ↔ data none = rows := by
  constructor
  · rintro ⟨-, pages, hwalk, hrows⟩
    rw [(Walk.of_last (h none)).1 hwalk] at hrows
    simpa using hrows
  · intro hdata
    exact ⟨fun cursor => ⟨_, h cursor⟩, [data none], .last (h none), by simpa using hdata⟩

/-! ### A page after a cursor -/

section Cursor

variable [DecidableEq κ] (key : α → κ)

/-- The rows after the one of the cursor, all of them when there is no cursor. -/
def rowsAfter (rows : List α) : Option κ → List α
  | none => rows
  | some k => (rows.dropWhile fun x => key x ≠ k).drop 1

/-- The rows before the one of the cursor, all of them when there is no cursor. -/
def rowsBefore (rows : List α) : Option κ → List α
  | none => rows
  | some k => if ∃ x ∈ rows, key x = k then rows.takeWhile fun x => key x ≠ k else []

/-- `take` rows after the cursor; a negative `take` counts back from it. -/
def page (rows : List α) (take : Int) (cursor : Option κ) : List α :=
  if 0 ≤ take then (rowsAfter key rows cursor).take take.toNat
  else (rowsBefore key rows cursor).rtake (-take).toNat

variable {key} {rows : List α}

/-- When keys are unique, the rows after a row are those that follow it. -/
theorem rowsAfter_append_cons {before after : List α} {x : α}
    (h : ((before ++ x :: after).map key).Nodup) :
    rowsAfter key (before ++ x :: after) (some (key x)) = after := by
  have hbefore : ∀ y ∈ before, key y ≠ key x := by
    intro y hy hkey
    rw [List.map_append, List.nodup_append] at h
    exact h.2.2 _ (List.mem_map_of_mem hy) _ (by simp) hkey
  show ((before ++ x :: after).dropWhile fun y => key y ≠ key x).drop 1 = after
  rw [List.dropWhile_append_of_pos (fun y hy => by simpa using hbefore y hy),
    List.dropWhile_cons_of_neg (by simp)]
  rfl

theorem page_natCast (n : ℕ) (cursor : Option κ) :
    page key rows n cursor = (rowsAfter key rows cursor).take n := by
  rw [page, if_pos (Int.natCast_nonneg n), Int.toNat_natCast]

theorem length_page_le {n : ℕ} {cursor : Option κ} : (page key rows n cursor).length ≤ n := by
  rw [page_natCast]
  exact List.length_take_le _ _

/-- The first page has all rows when there are no more than it may have. -/
theorem page_none_eq_self_iff {take : Int} :
    page key rows take none = rows ↔ rows.length ≤ take.natAbs := by
  by_cases hpos : 0 ≤ take
  · have habs : take.toNat = take.natAbs := by omega
    rw [page, if_pos hpos, habs]
    constructor
    · intro h
      have hle : (rows.take take.natAbs).length ≤ take.natAbs := List.length_take_le _ _
      rwa [show rows.take take.natAbs = rows from h] at hle
    · exact fun h => List.take_of_length_le h
  · -- a negative number of rows is counted from the end
    have habs : (-take).toNat = take.natAbs := by omega
    rw [page, if_neg hpos, habs]
    show rows.drop (rows.length - take.natAbs) = rows ↔ _
    constructor
    · intro h
      have hlength := congrArg List.length h
      rw [List.length_drop] at hlength
      omega
    · intro h
      rw [Nat.sub_eq_zero_of_le h]
      rfl

/-! ### Full pages -/

variable (key rows)

/-- The listing that goes on as long as its pages are full. -/
def fullPages (n : ℕ) (cursor : Option κ) : Page α κ where
  data := page key rows n cursor
  nextCursor :=
    if (page key rows n cursor).length = n then (page key rows n cursor).getLast?.map key else none

variable {key rows}

/-- The listing goes on after a row. -/
theorem exists_of_nextCursor_fullPages {n : ℕ} {cursor : Option κ} {k : κ}
    (h : (fullPages key rows n cursor).nextCursor = some k) : ∃ x ∈ rows, key x = k := by
  -- the cursor is the key of the page's last row
  have hlast : (page key rows n cursor).getLast?.map key = some k := by
    rw [fullPages] at h
    split at h
    · exact h
    · cases h
  obtain ⟨x, hx, hk⟩ := Option.map_eq_some_iff.1 hlast
  have hmem := List.mem_of_getLast? hx
  rw [page_natCast] at hmem
  refine ⟨x, ?_, hk⟩
  have hafter : x ∈ rowsAfter key rows cursor := List.mem_of_mem_take hmem
  cases cursor with
  | none => exact hafter
  | some c => exact List.dropWhile_sublist _ |>.subset (List.mem_of_mem_drop hafter)

/-- What is left does not fill a page. -/
theorem fullPages_of_lt {n : ℕ} {cursor : Option κ}
    (h : (rowsAfter key rows cursor).length < n) :
    fullPages key rows n cursor = ⟨rowsAfter key rows cursor, none⟩ := by
  have hdata : page key rows n cursor = rowsAfter key rows cursor := by
    rw [page_natCast]
    exact List.take_of_length_le (le_of_lt h)
  rw [fullPages, hdata, if_neg (Nat.ne_of_lt h)]

/-- A full page ends with the row that the next one comes after. -/
theorem fullPages_of_le {n : ℕ} (hn : 0 < n) {cursor : Option κ} {before : List α}
    (hnodup : (rows.map key).Nodup) (hrows : rows = before ++ rowsAfter key rows cursor)
    (h : n ≤ (rowsAfter key rows cursor).length) :
    ∃ x, fullPages key rows n cursor = ⟨(rowsAfter key rows cursor).take n, some (key x)⟩ ∧
      rowsAfter key rows (some (key x)) = (rowsAfter key rows cursor).drop n ∧
      rows = (before ++ (rowsAfter key rows cursor).take n) ++
        (rowsAfter key rows cursor).drop n := by
  set rest := rowsAfter key rows cursor with hrest
  have hlength : (rest.take n).length = n := by
    rw [List.length_take, min_eq_left h]
  have hne : rest.take n ≠ [] := by
    rw [← List.length_pos_iff_ne_nil, hlength]
    exact hn
  have hsplit : rows = (before ++ rest.take n) ++ rest.drop n := by
    rw [List.append_assoc, List.take_append_drop]
    exact hrows
  refine ⟨(rest.take n).getLast hne, ?_, ?_, hsplit⟩
  · rw [fullPages, page_natCast, ← hrest, if_pos hlength, List.getLast?_eq_some_getLast hne]
    rfl
  · -- the last row of the page, with what is before and after it
    have hlast : rows = (before ++ (rest.take n).dropLast) ++
        (rest.take n).getLast hne :: rest.drop n := by
      conv_lhs => rw [hsplit, ← List.dropLast_append_getLast hne]
      simp only [List.append_assoc, List.singleton_append]
    rw [hlast] at hnodup
    conv_lhs => rw [hlast]
    exact rowsAfter_append_cons hnodup

/-- The walk from a cursor on: the rows after it, in `⌊length / n⌋ + 1` pages. -/
theorem exists_walk_from {n : ℕ} (hn : 0 < n) (hnodup : (rows.map key).Nodup) {cursor : Option κ}
    {before : List α} (hrows : rows = before ++ rowsAfter key rows cursor) :
    ∃ pages, Walk (fun c => (.ok (fullPages key rows n c) : Except ε (Page α κ))) cursor pages ∧
      pages.flatten = rowsAfter key rows cursor ∧
      pages.length = (rowsAfter key rows cursor).length / n + 1 := by
  -- the rest of the rows gets shorter with every page
  induction hlen : (rowsAfter key rows cursor).length using Nat.strong_induction_on
    generalizing cursor before with
  | _ m ih =>
    rcases lt_or_ge m n with hlt | hge
    · have hcall := fullPages_of_lt (by rw [hlen]; exact hlt : _ < n)
      refine ⟨[rowsAfter key rows cursor], .last (congrArg Except.ok hcall), by simp, ?_⟩
      rw [Nat.div_eq_of_lt hlt]
      rfl
    · obtain ⟨x, hcall, hafter, hsplit⟩ := fullPages_of_le hn hnodup hrows (by rw [hlen]; exact hge)
      have hdrop : (rowsAfter key rows (some (key x))).length = m - n := by
        rw [hafter, List.length_drop, hlen]
      have hshorter : m - n < m := by omega
      obtain ⟨pages, hwalk, hflatten, hpages⟩ :=
        ih (m - n) hshorter (by rw [hafter]; exact hsplit) hdrop
      refine ⟨(rowsAfter key rows cursor).take n :: pages,
        .next (congrArg Except.ok hcall) hwalk, ?_, ?_⟩
      · rw [List.flatten_cons, hflatten, hafter, List.take_append_drop]
      · have hdiv : m / n = (m - n) / n + 1 := by
          rw [Nat.div_eq_sub_div hn hge]
        rw [List.length_cons, hpages, hdiv]

/-- **Full pages are complete**: the walk returns every row exactly once and in order, and makes
`⌊N / n⌋ + 1` calls for `N` rows. -/
theorem exists_walk_fullPages {n : ℕ} (hn : 0 < n) (hnodup : (rows.map key).Nodup) :
    ∃ pages, Walk (fun c => (.ok (fullPages key rows n c) : Except ε (Page α κ))) none pages ∧
      pages.flatten = rows ∧ pages.length = rows.length / n + 1 := by
  have hrows : rows = [] ++ rowsAfter key rows none := rfl
  exact exists_walk_from hn hnodup hrows

end Cursor

end Sql
