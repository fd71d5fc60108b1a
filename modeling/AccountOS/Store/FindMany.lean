import AccountOS.Sql.Paging
import AccountOS.Store.Schema
import Mathlib.Data.List.Sort

/-!
# Listings

`findMany` with a filter, an order and a page, as the listings of the services call it. The client
checks the arguments before the query: a `new Date(text)` that is no date makes the call throw. Of a
`take` that is no integer it cuts off what is after the point.
-/

namespace AccountOS

open Sql

variable {α : Type}

/-! ### Filters -/

/-- What the database client makes of the arguments of a query. It takes every page size up to
100. -/
structure ClientArguments where
  /-- The time of `new Date(text)`, `none` when the client rejects it. -/
  date : String → Option Int
  /-- The integers that may stand for `take`. -/
  takes : Int → Bool
  takes_of_le : ∀ n, 0 ≤ n → n ≤ 100 → takes n = true

/-- A `where`: the rows that it selects, and whether the client accepts its values. -/
structure Where (α : Type) where
  selects : α → Bool
  accepted : Bool := true

namespace Where

def and (w v : Where α) : Where α where
  selects x := w.selects x && v.selects x
  accepted := w.accepted && v.accepted

/-- `if (text) …`: an empty text is no filter. -/
def ifGiven (text : Option String) (w : String → Where α) : Where α :=
  match text with
  | none => { selects := fun _ => true }
  | some t => if t = "" then { selects := fun _ => true } else w t

end Where

namespace ClientArguments

variable (client : ClientArguments)

/-- `gte: new Date(text)`. -/
def gte (stamp : α → Nat) (text : String) : Where α where
  selects x := (client.date text).all fun d : Int => d ≤ (stamp x : Int)
  accepted := (client.date text).isSome

/-- `lte: new Date(text)`. -/
def lte (stamp : α → Nat) (text : String) : Where α where
  selects x := (client.date text).all fun d : Int => (stamp x : Int) ≤ d
  accepted := (client.date text).isSome

/-- A bound of a range is missing, empty, or a date. -/
def AcceptsDate (text : Option String) : Prop :=
  ∀ t, text = some t → t ≠ "" → (client.date t).isSome

end ClientArguments

theorem Where.accepted_and {w v : Where α} :
    (w.and v).accepted = true ↔ w.accepted = true ∧ v.accepted = true :=
  Bool.and_eq_true_iff

/-- An optional filter is accepted unless it is given and its value is rejected. -/
theorem Where.accepted_ifGiven {text : Option String} {w : String → Where α} :
    (Where.ifGiven text w).accepted = true ↔
      ∀ t, text = some t → t ≠ "" → (w t).accepted = true := by
  cases text with
  | none => simp [Where.ifGiven]
  | some t =>
    unfold Where.ifGiven
    by_cases ht : t = "" <;> simp [ht]

/-! ### Orders -/

/-- `ORDER BY stamp DESC`; rows of one time come in any order. -/
def latestFirst (stamp : α → Nat) (id : α → String) (rank : String → Nat) (x y : α) : Prop :=
  stamp y < stamp x ∨ stamp x = stamp y ∧ rank (id x) ≤ rank (id y)

/-- `ORDER BY stamp ASC`; rows of one time come in any order. -/
def earliestFirst (stamp : α → Nat) (id : α → String) (rank : String → Nat) (x y : α) : Prop :=
  stamp x < stamp y ∨ stamp x = stamp y ∧ rank (id x) ≤ rank (id y)

instance (stamp : α → Nat) (id : α → String) (rank : String → Nat) :
    DecidableRel (latestFirst stamp id rank) :=
  fun _ _ => inferInstanceAs (Decidable (_ ∨ _))

instance (stamp : α → Nat) (id : α → String) (rank : String → Nat) :
    DecidableRel (earliestFirst stamp id rank) :=
  fun _ _ => inferInstanceAs (Decidable (_ ∨ _))

/-- The rows of a query, in its order. -/
def selectRows (w : Where α) (order : α → α → Prop) [DecidableRel order] (table : List α) : List α :=
  (table.filter w.selects).insertionSort order

section SelectRows

variable {w : Where α} {order : α → α → Prop} [DecidableRel order] {table : List α}

theorem mem_selectRows {x : α} : x ∈ selectRows w order table ↔ x ∈ table ∧ w.selects x := by
  rw [selectRows, List.mem_insertionSort, List.mem_filter]

/-- Every selected row is there exactly once. -/
theorem perm_selectRows : (selectRows w order table).Perm (table.filter w.selects) :=
  List.perm_insertionSort order _

theorem nodup_map_selectRows {key : α → String} (h : (table.map key).Nodup) :
    ((selectRows w order table).map key).Nodup := by
  rw [(perm_selectRows.map key).nodup_iff]
  exact h.sublist ((List.filter_sublist ..).map key)

end SelectRows

/-! ### Pages -/

def invalidArgument (name : String) : Error :=
  .other s!"Invalid value provided for argument \x60{name}\x60"

/-- The number of rows that a `take` stands for: what is after the point is cut off. -/
def takeRows (take : ℚ) : Int := take.num.tdiv take.den

@[simp] theorem takeRows_intCast (n : Int) : takeRows n = n := by
  rw [takeRows, Rat.num_intCast, Rat.den_intCast, Nat.cast_one, Int.tdiv_one]

@[simp] theorem takeRows_natCast (n : ℕ) : takeRows n = n := by
  have hcast := takeRows_intCast n
  rwa [Int.cast_natCast] at hcast

example : takeRows (3 / 2) = 1 ∧ takeRows (-3 / 2) = -1 := by decide +kernel

/-- `entries.length === take ? entries[entries.length - 1].id : null`. There is no last one of no
entries. -/
def nextCursor (id : α → String) (entries : List α) (take : ℚ) : Except Error (Option String) :=
  if (entries.length : ℚ) = take then
    match entries.getLast? with
    | some e => .ok (some (id e))
    | none => .error (.other "Cannot read properties of undefined (reading 'id')")
  else .ok none

namespace ClientArguments

variable (client : ClientArguments) (id : α → String)

/-- `findMany { where, orderBy, take }` with the rows that its filter selects, and
`{ skip: 1, cursor }` unless the cursor is missing or empty. -/
def findMany (accepted : Bool) (rows : List α) (take : ℚ) (cursor : Option String) :
    Except Error (List α) :=
  if accepted = false then .error (invalidArgument "where")
  else if client.takes (takeRows take) then
    .ok (page id rows (takeRows take) (cursor.filter fun c => c ≠ ""))
  else .error (invalidArgument "take")

/-- A page of a listing: `take` rows of the query, and a cursor when `full` of them have come. -/
def listing (accepted : Bool) (rows : List α) (take full : ℚ) (cursor : Option String) :
    Except Error (Page α String) := do
  let entries ← client.findMany id accepted rows take cursor
  let next ← nextCursor id entries full
  return ⟨entries, next⟩

end ClientArguments

/-! ### What a listing returns -/

section Listing

variable {client : ClientArguments} {id : α → String} {rows : List α} {cursor : Option String}

theorem nextCursor_natCast {entries : List α} {n : ℕ} (hn : 0 < n) :
    nextCursor id entries n =
      .ok (if entries.length = n then entries.getLast?.map id else none) := by
  unfold nextCursor
  by_cases hlength : entries.length = n
  · have hne : entries ≠ [] := by
      rw [← List.length_pos_iff_ne_nil, hlength]
      exact hn
    rw [if_pos (congrArg Nat.cast hlength), if_pos hlength, List.getLast?_eq_some_getLast hne]
    rfl
  · rw [if_neg (by exact_mod_cast hlength), if_neg hlength]

theorem nextCursor_of_ne {entries : List α} {full : ℚ} (h : (entries.length : ℚ) ≠ full) :
    nextCursor id entries full = .ok none := by
  rw [nextCursor, if_neg h]

theorem findMany_eq_page {take : ℚ} (h : client.takes (takeRows take) = true) :
    client.findMany id true rows take cursor =
      .ok (page id rows (takeRows take) (cursor.filter fun c => c ≠ "")) := by
  rw [ClientArguments.findMany, if_neg (by simp), if_pos h]

/-- What the client accepts. -/
theorem of_findMany_eq_ok {accepted : Bool} {take : ℚ} {entries : List α}
    (h : client.findMany id accepted rows take cursor = .ok entries) :
    accepted = true ∧ client.takes (takeRows take) = true ∧
      entries = page id rows (takeRows take) (cursor.filter fun c => c ≠ "") := by
  unfold ClientArguments.findMany at h
  split at h
  next => cases h
  next haccepted =>
    split at h
    next htake => exact ⟨by simpa using haccepted, htake, (Except.ok.inj h).symm⟩
    next => cases h

theorem listing_eq_ok {accepted : Bool} {take full : ℚ} {p : Page α String} :
    client.listing id accepted rows take full cursor = .ok p ↔
      client.findMany id accepted rows take cursor = .ok p.data ∧
        nextCursor id p.data full = .ok p.nextCursor := by
  simp only [ClientArguments.listing, bind, Except.bind, pure, Except.pure]
  cases client.findMany id accepted rows take cursor with
  | error e => simp
  | ok entries =>
    simp only [Except.ok.injEq]
    constructor
    · intro h
      cases hnext : nextCursor id entries full with
      | error e =>
        rw [hnext] at h
        cases h
      | ok next =>
        rw [hnext] at h
        obtain rfl := Except.ok.inj h
        exact ⟨rfl, hnext⟩
    · rintro ⟨rfl, hnext⟩
      rw [hnext]

/-- A listing whose page size is what a page is compared with has full pages. -/
theorem listing_eq_fullPages {n : ℕ} (hn : 0 < n) (hle : n ≤ 100) :
    client.listing id true rows n n cursor =
      .ok (fullPages id rows n (cursor.filter fun c => c ≠ "")) := by
  have htakes : client.takes (takeRows n) = true := by
    rw [takeRows_natCast]
    exact client.takes_of_le n (by omega) (by omega)
  have hentries : client.findMany id true rows n cursor =
      .ok (page id rows (takeRows n) (cursor.filter fun c => c ≠ "")) := findMany_eq_page htakes
  rw [takeRows_natCast] at hentries
  exact listing_eq_ok.2 ⟨hentries, nextCursor_natCast hn⟩

/-- A listing none of whose pages has the length that it goes on at. -/
theorem complete_listing_of_ne {take full : ℚ} (htakes : client.takes (takeRows take) = true)
    (h : ∀ cursor, ((page id rows (takeRows take) cursor).length : ℚ) ≠ full) :
    Complete (client.listing id true rows take full) rows ↔
      rows.length ≤ (takeRows take).natAbs := by
  -- no call names a cursor, so that the first page has to have everything
  have hcall : ∀ cursor : Option String, client.listing id true rows take full cursor =
      .ok ⟨page id rows (takeRows take) (cursor.filter fun c => c ≠ ""), none⟩ := by
    intro cursor
    exact listing_eq_ok.2 ⟨findMany_eq_page htakes, nextCursor_of_ne (h _)⟩
  rw [complete_of_single hcall]
  exact page_none_eq_self_iff

variable (hnodup : (rows.map id).Nodup) (hids : ∀ x ∈ rows, id x ≠ "")
include hnodup hids

/-- **A listing with one page size is complete**, and makes `⌊N / n⌋ + 1` calls for `N` rows. -/
theorem exists_walk_listing {n : ℕ} (hn : 0 < n) (hle : n ≤ 100) :
    ∃ pages, Walk (client.listing id true rows n n) none pages ∧ pages.flatten = rows ∧
      pages.length = rows.length / n + 1 := by
  obtain ⟨pages, hwalk, hflatten, hlength⟩ : ∃ pages, Walk (fun c =>
      (.ok (fullPages id rows n c) : Except Error (Page α String))) none pages ∧ _ :=
    exists_walk_fullPages hn hnodup
  refine ⟨pages, ?_, hflatten, hlength⟩
  -- the ids that are cursors are not empty
  refine hwalk.congr (P := fun c => c ≠ some "") (by simp) ?_ ?_
  · intro c data k _ hcall
    have hnext : (fullPages id rows n c).nextCursor = some k := by
      rw [Except.ok.injEq] at hcall
      rw [hcall]
    obtain ⟨x, hx, hk⟩ := exists_of_nextCursor_fullPages hnext
    rw [← hk, ne_eq, Option.some.injEq]
    exact hids x hx
  · intro c hc
    rw [listing_eq_fullPages hn hle]
    congr 2
    cases c with
    | none => rfl
    | some k =>
      have hk : k ≠ "" := fun h => hc (congrArg some h)
      simp [Option.filter, hk]

theorem complete_listing {n : ℕ} (hn : 0 < n) (hle : n ≤ 100) :
    Complete (client.listing id true rows n n) rows := by
  obtain ⟨pages, hwalk, hflatten, -⟩ := exists_walk_listing hnodup hids hn hle
  exact ⟨fun cursor => ⟨_, listing_eq_fullPages hn hle⟩, pages, hwalk, hflatten⟩

end Listing

namespace Sample

/-- A client that knows one date. -/
def client : ClientArguments where
  date text := if text = "2026-01-01" then some 1767225600000 else none
  takes n := decide (-2 ^ 63 ≤ n ∧ n < 2 ^ 63)
  takes_of_le n h₀ h := decide_eq_true ⟨by omega, by omega⟩

end Sample

end AccountOS
