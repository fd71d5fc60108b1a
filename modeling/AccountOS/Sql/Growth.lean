import AccountOS.Sql.Paging
import AccountOS.Sql.Table
import Mathlib.Data.Finset.Card

/-!
# Listings of a table that grows

`Prolongs` says that a table has got further rows, and that some of the columns of the others are as
they were. A `LiveWalk` follows the cursors of a listing while this happens: each of its calls finds
the rows of another state.

Rows that are added between two pages come before the cursor, where the walk does not see them, or
after it, where it does. Either way `exists_liveWalk` finds what a walk over one state finds: every row
that was there at first, in order, and none twice.
-/

namespace Sql

variable {α κ π ε : Type}

/-! ### Tables that only grow -/

/-- The table `t'` has the rows of `t`, with the same values in the columns `fixed`, and others behind
them. Ids that have been unique still are. -/
structure Prolongs (id : α → κ) (fixed : α → π) (t t' : List α) : Prop where
  columns : t.map fixed <+: t'.map fixed
  unique : (t.map id).Nodup → (t'.map id).Nodup

namespace Prolongs

variable {id : α → κ} {fixed : α → π} {t t' t'' : List α}

theorem refl (id : α → κ) (fixed : α → π) (t : List α) : Prolongs id fixed t t :=
  ⟨List.prefix_refl _, fun h => h⟩

theorem trans (h : Prolongs id fixed t t') (h' : Prolongs id fixed t' t'') : Prolongs id fixed t t'' :=
  ⟨h.columns.trans h'.columns, fun hnodup => h'.unique (h.unique hnodup)⟩

theorem append_singleton {x : α} (hid : ∀ y ∈ t, id y ≠ id x) : Prolongs id fixed t (t ++ [x]) where
  columns := by
    rw [List.map_append]
    exact List.prefix_append _ _
  unique hnodup := nodup_map_append_singleton hnodup hid

theorem of_map_eq (hid : t'.map id = t.map id) (hfixed : t'.map fixed = t.map fixed) :
    Prolongs id fixed t t' where
  columns := by rw [hfixed]
  unique hnodup := by rwa [hid]

theorem updateRow [DecidableEq κ] {key : α → κ} {k : κ} {f : α → α} (hid : ∀ x, id (f x) = id x)
    (hfixed : ∀ x, fixed (f x) = fixed x) : Prolongs id fixed t (updateRow key k f t) :=
  of_map_eq (map_updateRow hid t) (map_updateRow hfixed t)

/-- Rows that are selected by the fixed columns stay selected. -/
theorem filter_sublist (h : Prolongs id fixed t t') {p q : α → Bool} {r : π → Bool}
    (hp : ∀ x, p x = r (fixed x)) (hq : ∀ x, q x = r (fixed x)) :
    List.Sublist ((t.filter p).map fixed) ((t'.filter q).map fixed) := by
  have hfilter : ∀ u : List α, (u.map fixed).filter r = (u.filter fun x => r (fixed x)).map fixed :=
    fun u => List.filter_map
  obtain rfl : p = fun x => r (fixed x) := funext hp
  obtain rfl : q = fun x => r (fixed x) := funext hq
  rw [← hfilter, ← hfilter]
  exact h.columns.sublist.filter r

/-- What is found by the fixed columns is still the first one that is. -/
theorem exists_find? (h : Prolongs id fixed t t') {p : α → Bool} {r : π → Bool}
    (hp : ∀ x, p x = r (fixed x)) {x : α} (hx : t.find? p = some x) :
    ∃ y, t'.find? p = some y ∧ fixed y = fixed x := by
  obtain rfl : p = r ∘ fixed := funext hp
  obtain ⟨rest, hrest⟩ := h.columns
  have hfound : (t'.map fixed).find? r = some (fixed x) := by
    rw [← hrest, List.find?_append, List.find?_map, hx]
    rfl
  rw [List.find?_map, Option.map_eq_some_iff] at hfound
  exact hfound

end Prolongs

/-! ### Walks from state to state -/

/-- The pages that a listing returns, from a cursor on until it names none, when call `i` is answered
by `fetch i`. -/
inductive LiveWalk (fetch : ℕ → Option κ → Except ε (Page α κ)) :
    ℕ → Option κ → List (List α) → Prop
  | last {i cursor data} (call : fetch i cursor = .ok ⟨data, none⟩) :
    LiveWalk fetch i cursor [data]
  | next {i cursor data key pages} (call : fetch i cursor = .ok ⟨data, some key⟩)
      (rest : LiveWalk fetch (i + 1) (some key) pages) : LiveWalk fetch i cursor (data :: pages)

/-- The rows that a listing finds at its calls. They stand in the order `before` of their places, which
tell their keys. -/
structure GrowingRows (key : α → κ) (place : α → π) (before : π → π → Prop) (rowsAt : ℕ → List α) :
    Prop where
  sorted : ∀ i, (rowsAt i).Pairwise fun x y => before (place x) (place y)
  unique : ∀ i, ((rowsAt i).map key).Nodup
  grows : ∀ i, (rowsAt i).map place ⊆ (rowsAt (i + 1)).map place
  key_eq : ∀ {x y}, place x = place y → key x = key y

section LiveWalk

variable [DecidableEq κ] {key : α → κ} {place : α → π} {before : π → π → Prop} [IsTrans π before]
  [Std.Irrefl before]

/-- The rows after a row are those that stand behind it. -/
theorem mem_rowsAfter_iff {rows : List α} (hsorted : rows.Pairwise fun x y => before (place x) (place y))
    (hunique : (rows.map key).Nodup) {last : Option α} (hlast : ∀ x ∈ last, x ∈ rows) {y : α} :
    y ∈ rowsAfter key rows (last.map key) ↔ y ∈ rows ∧ ∀ x ∈ last, before (place x) (place y) := by
  cases last with
  | none => simp [rowsAfter]
  | some x =>
    obtain ⟨front, after, rfl⟩ := List.append_of_mem (hlast x rfl)
    have hafter : rowsAfter key (front ++ x :: after) (some (key x)) = after :=
      rowsAfter_append_cons hunique
    rw [List.pairwise_append, List.pairwise_cons] at hsorted
    obtain ⟨-, ⟨hbehind, -⟩, hfront⟩ := hsorted
    rw [Option.map_some, hafter]
    constructor
    · intro hy
      refine ⟨by simp [hy], ?_⟩
      rintro _ ⟨⟩
      exact hbehind y hy
    · rintro ⟨hy, hxy⟩
      have hxy : before (place x) (place y) := hxy x rfl
      rw [List.mem_append, List.mem_cons] at hy
      rcases hy with hy | rfl | hy
      · -- no row stands both before and behind another
        have hyx : before (place y) (place x) := hfront y hy x (by simp)
        exact absurd (Trans.trans hxy hyx) (Std.Irrefl.irrefl _)
      · exact absurd hxy (Std.Irrefl.irrefl _)
      · exact hy

theorem exists_append_rowsAfter (key : α → κ) (rows : List α) (last : Option α) :
    ∃ front, rows = front ++ rowsAfter key rows (last.map key) := by
  cases last with
  | none => exact ⟨[], rfl⟩
  | some x =>
    have hsuffix : rowsAfter key rows (some (key x)) <:+ rows :=
      (List.drop_suffix 1 _).trans (List.dropWhile_suffix _)
    obtain ⟨front, hfront⟩ := hsuffix
    exact ⟨front, hfront.symm⟩

/-- A page of the rows behind a row, none of them left out up to the one that it ends with. -/
structure PageTo (place : α → π) (before : π → π → Prop) (rows : List α) (last : Option α)
    (data : List α) (x : α) : Prop where
  mem : x ∈ data
  sorted : data.Pairwise fun x y => before (place x) (place y)
  upTo : ∀ y ∈ data, y = x ∨ before (place y) (place x)
  behind : ∀ y ∈ data, y ∈ rows ∧ ∀ z ∈ last, before (place z) (place y)
  all : ∀ y ∈ rows, (∀ z ∈ last, before (place z) (place y)) → y ∈ data ∨ before (place x) (place y)

/-- A full page names the row that it ends with. -/
theorem exists_pageTo_of_full {rows : List α}
    (hsorted : rows.Pairwise fun x y => before (place x) (place y)) (hunique : (rows.map key).Nodup)
    {n : ℕ} (hn : 0 < n) {last : Option α} (hlast : ∀ x ∈ last, x ∈ rows)
    (hfull : n ≤ (rowsAfter key rows (last.map key)).length) :
    ∃ data x, fullPages key rows n (last.map key) = ⟨data, some (key x)⟩ ∧ data.length = n ∧
      PageTo place before rows last data x := by
  have hmem : ∀ {y}, y ∈ rowsAfter key rows (last.map key) ↔
      y ∈ rows ∧ ∀ x ∈ last, before (place x) (place y) := mem_rowsAfter_iff hsorted hunique hlast
  obtain ⟨front, hfront⟩ := exists_append_rowsAfter key rows last
  have hpage : page key rows n (last.map key) = (rowsAfter key rows (last.map key)).take n :=
    page_natCast ..
  rw [hfront] at hsorted
  have hrest := (List.pairwise_append.1 hsorted).2.1
  clear hsorted hfront
  generalize rowsAfter key rows (last.map key) = rest at *
  have hlength : (rest.take n).length = n := by rw [List.length_take, min_eq_left hfull]
  have hne : rest.take n ≠ [] := by
    rw [← List.length_pos_iff_ne_nil, hlength]
    exact hn
  -- the page, its last row, and what follows it
  have hdata : (rest.take n).dropLast ++ [(rest.take n).getLast hne] = rest.take n :=
    List.dropLast_append_getLast hne
  have hsplit : (rest.take n).dropLast ++ [(rest.take n).getLast hne] ++ rest.drop n = rest := by
    rw [hdata, List.take_append_drop]
  have hordered := hrest
  rw [← hsplit, List.pairwise_append, List.pairwise_append] at hordered
  obtain ⟨⟨-, -, hbefore⟩, -, hafter⟩ := hordered
  refine ⟨rest.take n, (rest.take n).getLast hne, ?_, hlength, List.getLast_mem hne,
    hrest.sublist (List.take_sublist n rest), ?_, fun y hy => hmem.1 (List.mem_of_mem_take hy), ?_⟩
  · rw [fullPages, hpage, if_pos hlength, List.getLast?_eq_some_getLast hne]
    rfl
  · intro y hy
    rw [← hdata, List.mem_append, List.mem_singleton] at hy
    rcases hy with hy | hy
    · exact .inr (hbefore y hy _ (List.mem_singleton_self _))
    · exact .inl hy
  · intro y hy hbehind
    have hyrest : y ∈ rest := hmem.2 ⟨hy, hbehind⟩
    rw [← List.take_append_drop n rest, List.mem_append] at hyrest
    rcases hyrest with hy | hy
    · exact .inl hy
    · exact .inr (hafter _ (by simp) y hy)

/-! ### What a walk finds -/

/-- What a walk from a row on has found: rows behind that one, in order, among them all that are there
now. -/
structure FindsAll (place : α → π) (before : π → π → Prop) (rows : List α) (last : Option α)
    (found : List α) : Prop where
  sorted : found.Pairwise fun x y => before (place x) (place y)
  behind : ∀ y ∈ found, ∀ x ∈ last, before (place x) (place y)
  all : ∀ y ∈ rows, (∀ x ∈ last, before (place x) (place y)) → place y ∈ found.map place

/-- The rest of the rows does not fill a page. -/
theorem findsAll_rowsAfter {rows : List α}
    (hsorted : rows.Pairwise fun x y => before (place x) (place y)) (hunique : (rows.map key).Nodup)
    {last : Option α} (hlast : ∀ x ∈ last, x ∈ rows) :
    FindsAll place before rows last (rowsAfter key rows (last.map key)) := by
  have hmem : ∀ {y}, y ∈ rowsAfter key rows (last.map key) ↔
      y ∈ rows ∧ ∀ x ∈ last, before (place x) (place y) := mem_rowsAfter_iff hsorted hunique hlast
  refine ⟨?_, fun y hy => (hmem.1 hy).2, fun y hy hbehind => ?_⟩
  · obtain ⟨front, hfront⟩ := exists_append_rowsAfter key rows last
    rw [hfront] at hsorted
    exact (List.pairwise_append.1 hsorted).2.1
  · exact List.mem_map_of_mem (hmem.2 ⟨hy, hbehind⟩)

omit [Std.Irrefl before] in
/-- A page, and what is found from its last row on, wherever that row is by then. -/
theorem PageTo.append {rows rows' : List α} {last : Option α} {data found : List α} {x x' : α}
    (h : PageTo place before rows last data x) (hgrow : rows.map place ⊆ rows'.map place)
    (hx' : place x' = place x) (hfound : FindsAll place before rows' (some x') found) :
    FindsAll place before rows last (data ++ found) := by
  have hbehind : ∀ y ∈ found, before (place x) (place y) := by
    intro y hy
    rw [← hx']
    exact hfound.behind y hy x' rfl
  -- what is found later stands behind every row of the page
  have hlater : ∀ z ∈ data, ∀ y ∈ found, before (place z) (place y) := by
    intro z hz y hy
    rcases h.upTo z hz with rfl | hzx
    · exact hbehind y hy
    · exact Trans.trans hzx (hbehind y hy)
  refine ⟨List.pairwise_append.2 ⟨h.sorted, hfound.sorted, hlater⟩, ?_, ?_⟩
  · intro y hy z hz
    rcases List.mem_append.1 hy with hy | hy
    · exact (h.behind y hy).2 z hz
    · exact Trans.trans ((h.behind x h.mem).2 z hz) (hbehind y hy)
  · intro y hy hlast
    rw [List.map_append, List.mem_append]
    rcases h.all y hy hlast with hdata | hxy
    · exact .inl (List.mem_map_of_mem hdata)
    · right
      obtain ⟨y', hy', hplace⟩ := List.mem_map.1 (hgrow (List.mem_map_of_mem hy))
      rw [← hplace]
      apply hfound.all y' hy'
      rintro _ ⟨⟩
      rwa [hx', hplace]

open Classical in
/-- The places behind a row. -/
noncomputable def placesBehind (place : α → π) (before : π → π → Prop) (rows : List α)
    (last : Option α) : Finset π :=
  (rows.map place).toFinset.filter fun p => ∀ x ∈ last, before (place x) p

/-- Behind a page there are fewer places, by the length of the page. -/
theorem PageTo.card_add_le {rows final : List α} {last : Option α} {data : List α} {x x' : α}
    (h : PageTo place before rows last data x) (hfinal : rows.map place ⊆ final.map place)
    (hx' : place x' = place x) :
    (placesBehind place before final (some x')).card + data.length ≤
      (placesBehind place before final last).card := by
  classical
  have hnodup : (data.map place).Nodup := by
    rw [List.Nodup, List.pairwise_map]
    refine h.sorted.imp fun hxy heq => ?_
    rw [heq] at hxy
    exact Std.Irrefl.irrefl _ hxy
  have hlength : (data.map place).toFinset.card = data.length := by
    rw [List.toFinset_card_of_nodup hnodup, List.length_map]
  have hdisjoint : Disjoint (placesBehind place before final (some x'))
      (data.map place).toFinset := by
    rw [Finset.disjoint_left]
    intro p hp hdata
    obtain ⟨y, hy, rfl⟩ := List.mem_map.1 (List.mem_toFinset.1 hdata)
    have hxy : before (place x) (place y) := by
      rw [← hx']
      exact (Finset.mem_filter.1 hp).2 x' rfl
    rcases h.upTo y hy with rfl | hyx
    · exact Std.Irrefl.irrefl _ hxy
    · exact Std.Irrefl.irrefl _ (Trans.trans hxy hyx : before (place x) (place x))
  rw [← hlength, ← Finset.card_union_of_disjoint hdisjoint]
  apply Finset.card_le_card
  intro p hp
  rw [Finset.mem_union] at hp
  rcases hp with hp | hp
  · obtain ⟨hmem, hbehind⟩ := Finset.mem_filter.1 hp
    refine Finset.mem_filter.2 ⟨hmem, fun z hz => ?_⟩
    have hxp : before (place x) p := by
      rw [← hx']
      exact hbehind x' rfl
    exact Trans.trans ((h.behind x h.mem).2 z hz) hxp
  · obtain ⟨y, hy, rfl⟩ := List.mem_map.1 (List.mem_toFinset.1 hp)
    obtain ⟨hrows, hbehind⟩ := h.behind y hy
    exact Finset.mem_filter.2 ⟨List.mem_toFinset.2 (hfinal (List.mem_map_of_mem hrows)), hbehind⟩

/-- The walk from a row on: it ends, and it finds every row behind that one. `final` are the rows at any
later time. -/
theorem exists_liveWalk_from {rowsAt : ℕ → List α} (h : GrowingRows key place before rowsAt) {n : ℕ}
    (hn : 0 < n) {fetch : ℕ → Option κ → Except ε (Page α κ)}
    (hfetch : ∀ i, ∀ last : Option α, (∀ x ∈ last, x ∈ rowsAt i) →
      fetch i (last.map key) = .ok (fullPages key (rowsAt i) n (last.map key)))
    {final : List α} (hfinal : ∀ i, (rowsAt i).map place ⊆ final.map place) {i : ℕ}
    {last : Option α} (hlast : ∀ x ∈ last, x ∈ rowsAt i) :
    ∃ pages, LiveWalk fetch i (last.map key) pages ∧
      FindsAll place before (rowsAt i) last pages.flatten ∧
      (∀ y ∈ pages.flatten, ∃ j, y ∈ rowsAt j) ∧
      pages.length ≤ (placesBehind place before final last).card / n + 1 := by
  -- every page takes its rows off those that are still to come
  induction hcard : (placesBehind place before final last).card using Nat.strong_induction_on
    generalizing i last with
  | _ m ih =>
    rcases lt_or_ge (rowsAfter key (rowsAt i) (last.map key)).length n with hlt | hge
    · refine ⟨[rowsAfter key (rowsAt i) (last.map key)], .last ?_, ?_, ?_, by simp⟩
      · rw [hfetch i last hlast, fullPages_of_lt hlt]
      · rw [List.flatten_singleton]
        exact findsAll_rowsAfter (h.sorted i) (h.unique i) hlast
      · intro y hy
        rw [List.flatten_singleton] at hy
        exact ⟨i, ((mem_rowsAfter_iff (h.sorted i) (h.unique i) hlast).1 hy).1⟩
    · obtain ⟨data, x, hpage, hlength, hto⟩ :=
        exists_pageTo_of_full (h.sorted i) (h.unique i) hn hlast hge
      -- the row of the cursor, as the next call finds it
      obtain ⟨x', hx', hplace⟩ :=
        List.mem_map.1 (h.grows i (List.mem_map_of_mem (hto.behind x hto.mem).1))
      have hlast' : ∀ z ∈ some x', z ∈ rowsAt (i + 1) := by
        rintro _ ⟨⟩
        exact hx'
      have hfewer : (placesBehind place before final (some x')).card + n ≤ m := by
        rw [← hcard, ← hlength]
        exact hto.card_add_le (hfinal i) hplace
      obtain ⟨pages, hwalk, hfinds, hthere, hpages⟩ := ih _ (by omega) hlast' rfl
      have hcall : fetch i (last.map key) = .ok ⟨data, some (key x)⟩ := by
        rw [hfetch i last hlast, hpage]
      refine ⟨data :: pages, .next hcall ?_, ?_, ?_, ?_⟩
      · rw [← h.key_eq hplace]
        exact hwalk
      · rw [List.flatten_cons]
        exact hto.append (h.grows i) hplace hfinds
      · intro y hy
        rw [List.flatten_cons, List.mem_append] at hy
        rcases hy with hy | hy
        · exact ⟨i, (hto.behind y hy).1⟩
        · exact hthere y hy
      · have hdiv : m / n = (m - n) / n + 1 := Nat.div_eq_sub_div hn (by omega)
        have hle : (placesBehind place before final (some x')).card / n ≤ (m - n) / n :=
          Nat.div_le_div_right (by omega)
        rw [List.length_cons, hdiv]
        omega

/-- **A walk through rows that are added meanwhile** ends, and finds every row that was there when it
began, in order and none twice, and no row that never was. -/
theorem exists_liveWalk {rowsAt : ℕ → List α} (h : GrowingRows key place before rowsAt) {n : ℕ}
    (hn : 0 < n) {fetch : ℕ → Option κ → Except ε (Page α κ)}
    (hfetch : ∀ i, ∀ last : Option α, (∀ x ∈ last, x ∈ rowsAt i) →
      fetch i (last.map key) = .ok (fullPages key (rowsAt i) n (last.map key)))
    {final : List α} (hfinal : ∀ i, (rowsAt i).map place ⊆ final.map place) :
    ∃ pages, LiveWalk fetch 0 none pages ∧
      (pages.flatten.Pairwise fun x y => before (place x) (place y)) ∧
      (rowsAt 0).map place ⊆ pages.flatten.map place ∧
      (∀ y ∈ pages.flatten, ∃ j, y ∈ rowsAt j) ∧ pages.length ≤ final.length / n + 1 := by
  have hnone : ∀ x ∈ (none : Option α), x ∈ rowsAt 0 := fun _ hx => by cases hx
  obtain ⟨pages, hwalk, hfinds, hthere, hpages⟩ := exists_liveWalk_from h hn hfetch hfinal hnone
  refine ⟨pages, hwalk, hfinds.sorted, ?_, hthere, ?_⟩
  · intro p hp
    obtain ⟨y, hy, rfl⟩ := List.mem_map.1 hp
    exact hfinds.all y hy fun _ hx => by cases hx
  · classical
    have hcard : (placesBehind place before final none).card ≤ final.length := by
      apply (Finset.card_le_card (Finset.filter_subset _ _)).trans
      have hle := List.toFinset_card_le (final.map place)
      rwa [List.length_map] at hle
    have hdiv : (placesBehind place before final none).card / n ≤ final.length / n :=
      Nat.div_le_div_right hcard
    omega

end LiveWalk

end Sql
