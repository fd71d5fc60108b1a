import AccountOS.Common.Correctness.Idempotency
import AccountOS.Conc.Calls

/-!
# What a replay answers

Requests served one at a time, each response stored before the next request. A stored response is
found by the business, the key and the hash of the body; the path is stored with it and never looked
at. `answersSame_iff`: every replay answers a request of its own path exactly when no request finds
a row of another one. A withdrawal from a second bucket with the key and the body of a first one is
answered by the first one's success (`replayed_for_another_bucket`).
-/

namespace AccountOS

open Conc

/-! ### Sessions -/

/-- A request that has been served, with the calls made for it. -/
structure Answered where
  context : HttpContext
  handler : Action Json
  before : ServerState
  calls : List (Event Unit ServerState Env ServerCall)
  after : ServerState

namespace Answered

/-- The handler of the request has returned this response. -/
def Produces (x : Answered) (body : Json) : Prop := ∃ ev ∈ x.calls, ev.call = .emit (.ok body)

/-- The request is answered from the store. -/
def Replays (x : Answered) (body : Json) : Prop := ∃ ev ∈ x.calls, ev.call = .replay body

theorem Produces.mem_handled {x : Answered} {body : Json} (h : x.Produces body) :
    body ∈ x.calls.filterMap fun ev => ev.call.handledBody := by
  obtain ⟨ev, hev, hcall⟩ := h
  refine List.mem_filterMap.2 ⟨ev, hev, ?_⟩
  rw [hcall]
  rfl

/-- The request looks its key up, and finds a row that was stored for its body. -/
def Finds (requestHash : Json → String) (x : Answered) (row : IdempotencyKey) : Prop :=
  ∃ q, x.context.keyed requestHash = some q ∧
    (∃ ev ∈ x.calls, ev.call = .findIdempotencyKey q.businessId q.key ∧ ev.choice.fault = none) ∧
    lookupKey x.before.2 q.businessId q.key = some row ∧ row.requestHash = q.requestHash

end Answered

/-- Requests that are served one after the other from an empty store. Each of them has come to its
end, and the row of its response is there, before the next one is looked up. -/
inductive ServedInTurn (requestHash : Json → String) : List Answered → ServerState → Prop
  | start {s : ServerState} (h : s.2 = []) : ServedInTurn requestHash [] s
  | serve {past x ps r} (session : ServedInTurn requestHash past x.before)
      (run : Run (fun _ _ _ _ => True)
        (fun _ : Unit => intercept requestHash x.context x.handler) x.before x.calls ps x.after)
      (ended : ps () = .ofExcept r)
      (stored : ∀ q body, x.context.keyed requestHash = some q → x.Produces body →
        q.row x.context body ∈ x.after.2) :
      ServedInTurn requestHash (past ++ [x]) x.after

/-- The body that is hashed. -/
def HttpContext.hashed (context : HttpContext) : Json := context.body.getD (.obj [])

/-- Two requests that ask for the same. -/
structure SameRequest (c c' : HttpContext) : Prop where
  method : c.method.toUpper = c'.method.toUpper
  business : c.businessId = c'.businessId
  key : c.idempotencyKey = c'.idempotencyKey
  path : normalizePath c.path = normalizePath c'.path
  body : c.hashed = c'.hashed

/-- Every replayed response was produced by an earlier request for the same. -/
def AnswersSame (session : List Answered) : Prop :=
  ∀ past x later, session = past ++ x :: later → ∀ body, x.Replays body →
    ∃ y ∈ past, SameRequest y.context x.context ∧ y.Produces body

/-! ### Serving one request -/

section Serve

variable {requestHash : Json → String} {context : HttpContext} {handler : Action Json}
  {s s' : ServerState} {evs : List (Event Unit ServerState Env ServerCall)} {q : KeyedRequest}

theorem keyed_eq_some (h : context.keyed requestHash = some q) :
    context.method.toUpper = "POST" ∧ context.businessId = some q.businessId ∧
      context.idempotencyKey = some q.key ∧ q.requestHash = requestHash context.hashed := by
  unfold HttpContext.keyed at h
  split at h
  next => cases h
  next hmethod =>
    split at h
    next key businessId hkey hbusiness =>
      split at h
      next => cases h
      next =>
        obtain rfl := Option.some.inj h
        exact ⟨not_not.1 hmethod, hbusiness, hkey, rfl⟩
    next => cases h

/-- Requests for the same have the same key. -/
theorem SameRequest.keyed {c c' : HttpContext} (h : SameRequest c c') :
    c.keyed requestHash = c'.keyed requestHash := by
  have hbody : c.body.getD (.obj []) = c'.body.getD (.obj []) := h.body
  unfold HttpContext.keyed
  rw [h.method, h.business, h.key, hbody]

/-- No response comes from the store. -/
def Unreplayed (evs : List (Event Unit ServerState Env ServerCall)) : Prop :=
  ∀ ev ∈ evs, ∀ body, ev.call ≠ .replay body

/-- What serving a request comes to. -/
inductive ServedAs (requestHash : Json → String) (context : HttpContext) (s s' : ServerState)
    (evs : List (Event Unit ServerState Env ServerCall)) : Prop
  | unkeyed (keyed : context.keyed requestHash = none) (rows : s'.2 = s.2)
      (quiet : Unreplayed evs)
  | failed (rows : s'.2 = s.2) (quiet : Unreplayed evs)
      (fault : ∀ ev ∈ evs, ev.choice.fault ≠ none)
  | replayed (q : KeyedRequest) (row : IdempotencyKey) (keyed : context.keyed requestHash = some q)
      (found : lookupKey s.2 q.businessId q.key = some row)
      (same : row.requestHash = q.requestHash) (rows : s'.2 = s.2)
      (answer : ∀ body, (∃ ev ∈ evs, ev.call = .replay body) ↔ row.responseBody = body)
      (lookup : ∃ ev ∈ evs, ev.call = .findIdempotencyKey q.businessId q.key ∧
        ev.choice.fault = none)
  | conflict (q : KeyedRequest) (row : IdempotencyKey) (keyed : context.keyed requestHash = some q)
      (found : lookupKey s.2 q.businessId q.key = some row)
      (other : row.requestHash ≠ q.requestHash) (rows : s'.2 = s.2) (quiet : Unreplayed evs)
  | handled (q : KeyedRequest) (keyed : context.keyed requestHash = some q)
      (fresh : lookupKey s.2 q.businessId q.key = none) (quiet : Unreplayed evs)
      (rows : s'.2 = s.2 ∨ ∃ body, (∃ ev ∈ evs, ev.call = .emit (.ok body)) ∧
        s'.2 = s.2 ++ [q.row context body])

/-- The handler and its response. -/
theorem calls_handle {r : Except Error (Except Error Json)}
    (h : (handle handler).Calls s evs r s') :
    s'.2 = s.2 ∧ Unreplayed evs ∧ ∃ result, r = .ok result := by
  obtain ⟨hrows, hlabels, hr⟩ := Proc.Calls.attempt_beside h
  refine ⟨hrows, fun ev hev body hcall => ?_, hr⟩
  obtain ⟨l, hl⟩ := hlabels ev hev
  rw [hl] at hcall
  cases hcall

theorem Unreplayed.append {evs₁ evs₂ : List (Event Unit ServerState Env ServerCall)}
    (h₁ : Unreplayed evs₁) (h₂ : Unreplayed evs₂) : Unreplayed (evs₁ ++ evs₂) := by
  intro ev hev
  rcases List.mem_append.1 hev with hev | hev
  · exact h₁ ev hev
  · exact h₂ ev hev

theorem Unreplayed.single {ev : Event Unit ServerState Env ServerCall}
    (h : ∀ body, ev.call ≠ .replay body) : Unreplayed [ev] := by
  intro ev' hev'
  rw [List.mem_singleton.1 hev']
  exact h

/-- The row is stored, or nothing is. -/
theorem calls_createIdempotencyKey {row : IdempotencyKey} {r : Except Error Unit}
    (h : (createIdempotencyKey row).Calls s evs r s') :
    Unreplayed evs ∧ (s'.2 = s.2 ∨ s'.2 = s.2 ++ [row]) := by
  obtain ⟨c, rfl, -, rfl⟩ := h.call
  refine ⟨.single fun body hcall => (by cases hcall), ?_⟩
  split
  · exact .inl rfl
  · split
    next rows hrows => exact .inr (insertKey_eq_ok hrows).1
    next => exact .inl rfl

/-- A failure to store it is only logged. -/
theorem calls_catching_createIdempotencyKey {row : IdempotencyKey} {r : Except Error Unit}
    (h : ((createIdempotencyKey row).catching fun _ => .ret ()).Calls s evs r s') :
    Unreplayed evs ∧ (s'.2 = s.2 ∨ s'.2 = s.2 ++ [row]) := by
  rcases h.catching with ⟨_, hok, -⟩ | ⟨evs₁, e, s₁, evs₂, herror, hret, rfl⟩
  · exact calls_createIdempotencyKey hok
  · cases hret
    rw [List.append_nil]
    exact calls_createIdempotencyKey herror

/-- A request whose key is new. -/
theorem calls_first {r : Except Error Unit} {f : Except Error Json → Serving Unit}
    (herror : ∀ e, f (.error e) = .ret ())
    (hok : ∀ body, f (.ok body) =
      (createIdempotencyKey (q.row context body)).catching fun _ => .ret ())
    (h : ((handle handler).bind fun result => (emit result).bind fun _ => f result).Calls s evs r
      s') :
    Unreplayed evs ∧ (s'.2 = s.2 ∨ ∃ body, (∃ ev ∈ evs, ev.call = .emit (.ok body)) ∧
      s'.2 = s.2 ++ [q.row context body]) := by
  rcases h.bind with ⟨evs₁, result, s₁, evs₂, hhandle, hrest, rfl⟩ | ⟨e, hhandle, -⟩
  · obtain ⟨hrows₁, hquiet₁, -⟩ := calls_handle hhandle
    rcases hrest.bind with ⟨evs₃, _, s₂, evs₄, hemit, hlast, rfl⟩ | ⟨e, hemit, -⟩
    · obtain ⟨c, rfl, -, hs₂⟩ := hemit.call
      obtain rfl : s₁ = s₂ := hs₂.symm
      have hquiet₃ : Unreplayed [⟨(), .emit result, c, s₁, s₁⟩] :=
        .single fun body hcall => by cases hcall
      cases result with
      | error e =>
        -- an error is sent on, and nothing is stored
        rw [herror] at hlast
        cases hlast
        refine ⟨hquiet₁.append (hquiet₃.append ?_), .inl hrows₁⟩
        exact fun _ hev => absurd hev List.not_mem_nil
      | ok body =>
        rw [hok] at hlast
        obtain ⟨hquiet₄, hrows⟩ := calls_catching_createIdempotencyKey hlast
        refine ⟨hquiet₁.append (hquiet₃.append hquiet₄), ?_⟩
        rw [hrows₁] at hrows
        rcases hrows with hrows | hrows
        · exact .inl hrows
        · exact .inr ⟨body, ⟨_, List.mem_append_right _ List.mem_cons_self, rfl⟩, hrows⟩
    · obtain ⟨c, rfl, hr, rfl⟩ := hemit.call
      cases hr
  · obtain ⟨-, -, result, hr⟩ := calls_handle hhandle
    cases hr

/-- The key is looked up, or the lookup fails; either way nothing is stored. -/
theorem calls_findIdempotencyKey {businessId key : String}
    {r : Except Error (Option IdempotencyKey)}
    (h : (findIdempotencyKey businessId key).Calls s evs r s') :
    ∃ env, evs = [⟨(), .findIdempotencyKey businessId key, env, s, s'⟩] ∧ s'.2 = s.2 ∧
      (env.fault = none ∧ s' = s ∧ r = .ok (lookupKey s.2 businessId key) ∨
        env.fault ≠ none ∧ ∃ e, r = .error e) := by
  obtain ⟨env, rfl, hr, hs'⟩ := h.call
  refine ⟨env, by rw [hs'], ?_⟩
  cases hfault : env.fault with
  | none =>
    rw [hfault] at hr hs'
    exact ⟨by rw [hs'], .inl ⟨rfl, hs', hr⟩⟩
  | some f =>
    rw [hfault] at hr hs'
    exact ⟨by rw [hs'], .inr ⟨Option.some_ne_none f, _, hr⟩⟩

/-- **What the interceptor does with a request** that is served alone. -/
theorem calls_intercept {r : Except Error Unit}
    (h : (intercept requestHash context handler).Calls s evs r s') :
    ServedAs requestHash context s s' evs := by
  unfold intercept at h
  cases hkeyed : context.keyed requestHash with
  | none =>
    rw [hkeyed] at h
    rcases h.bind with ⟨evs₁, result, s₁, evs₂, hhandle, hemit, rfl⟩ | ⟨e, hhandle, -⟩
    · obtain ⟨hrows, hquiet, -⟩ := calls_handle hhandle
      obtain ⟨c, rfl, -, rfl⟩ := hemit.call
      exact .unkeyed hkeyed hrows (hquiet.append (.single fun body hcall => by cases hcall))
    · obtain ⟨hrows, hquiet, -⟩ := calls_handle hhandle
      exact .unkeyed hkeyed hrows hquiet
  | some q =>
    rw [hkeyed] at h
    have hlookupQuiet : ∀ env s₁, Unreplayed
        [⟨(), .findIdempotencyKey q.businessId q.key, env, s, s₁⟩] :=
      fun _ _ => .single fun body hcall => by cases hcall
    rcases h.bind with ⟨evs₁, existing, s₁, evs₂, hfind, hrest, rfl⟩ | ⟨e, hfind, -⟩
    · obtain ⟨env, rfl, -, ⟨hfault, rfl, hr⟩ | ⟨-, e, hr⟩⟩ := calls_findIdempotencyKey hfind
      · obtain rfl : existing = lookupKey s₁.2 q.businessId q.key := Except.ok.inj hr
        cases hlookup : lookupKey s₁.2 q.businessId q.key with
        | some row =>
          rw [hlookup] at hrest
          dsimp only at hrest
          split at hrest
          next hsame =>
            obtain ⟨c, rfl, -, rfl⟩ := hrest.call
            refine .replayed q row hkeyed hlookup hsame rfl (fun body => ?_) ?_
            · simp [eq_comm]
            · exact ⟨_, List.mem_cons_self, rfl, hfault⟩
          next hother =>
            cases hrest
            exact .conflict q row hkeyed hlookup hother rfl
              ((hlookupQuiet _ _).append fun _ hev => absurd hev List.not_mem_nil)
        | none =>
          -- the first request with this key
          rw [hlookup] at hrest
          obtain ⟨hquiet, hrows⟩ := calls_first (fun _ => rfl) (fun _ => rfl) hrest
          refine .handled q hkeyed hlookup ((hlookupQuiet _ _).append hquiet) ?_
          rcases hrows with hrows | ⟨body, ⟨ev, hev, hcall⟩, hrows⟩
          · exact .inl hrows
          · exact .inr ⟨body, ⟨ev, List.mem_append_right _ hev, hcall⟩, hrows⟩
      · cases hr
    · obtain ⟨env, rfl, hrows, ⟨-, -, hr⟩ | ⟨hfault, -⟩⟩ := calls_findIdempotencyKey hfind
      · cases hr
      · refine .failed hrows (hlookupQuiet _ _) fun ev hev => ?_
        rw [List.mem_singleton.1 hev]
        exact hfault

end Serve

namespace Answered

variable {requestHash : Json → String} {x : Answered} {r : Except Error Unit}
  (calls : (intercept requestHash x.context x.handler).Calls x.before x.calls r x.after)
include calls

/-- **A replayed response is that of the row found.** -/
theorem replays_iff {body : Json} :
    x.Replays body ↔ ∃ row, x.Finds requestHash row ∧ row.responseBody = body := by
  have hquiet : Unreplayed x.calls → ¬ x.Replays body :=
    fun hquiet ⟨ev, hev, hcall⟩ => hquiet ev hev body hcall
  rcases calls_intercept calls with ⟨hkeyed, -, hq⟩ | ⟨-, hq, hfault⟩ |
    ⟨q, row, hkeyed, hfound, hsame, -, hanswer, hlookup⟩ | ⟨q, row, hkeyed, hfound, hother, -, hq⟩ |
    ⟨q, hkeyed, hfresh, hq, -⟩
  · refine iff_of_false (hquiet hq) ?_
    rintro ⟨row, ⟨q, hq, -⟩, -⟩
    rw [hkeyed] at hq
    cases hq
  · refine iff_of_false (hquiet hq) ?_
    rintro ⟨row, ⟨q, -, ⟨ev, hev, -, hnone⟩, -⟩, -⟩
    exact hfault ev hev hnone
  · constructor
    · exact fun h => ⟨row, ⟨q, hkeyed, hlookup, hfound, hsame⟩, (hanswer body).1 h⟩
    · rintro ⟨row', ⟨q', hkeyed', -, hfound', -⟩, rfl⟩
      obtain rfl : q = q' := Option.some.inj (hkeyed.symm.trans hkeyed')
      obtain rfl : row = row' := Option.some.inj (hfound.symm.trans hfound')
      exact (hanswer _).2 rfl
  · refine iff_of_false (hquiet hq) ?_
    rintro ⟨row', ⟨q', hkeyed', -, hfound', hsame⟩, -⟩
    obtain rfl : q = q' := Option.some.inj (hkeyed.symm.trans hkeyed')
    obtain rfl : row = row' := Option.some.inj (hfound.symm.trans hfound')
    exact hother hsame
  · refine iff_of_false (hquiet hq) ?_
    rintro ⟨row', ⟨q', hkeyed', -, hfound', -⟩, -⟩
    obtain rfl : q = q' := Option.some.inj (hkeyed.symm.trans hkeyed')
    rw [hfresh] at hfound'
    cases hfound'

/-- **A request stores nothing but its own response**, under a key that is new. -/
theorem rows : x.after.2 = x.before.2 ∨ ∃ q body, x.context.keyed requestHash = some q ∧
    x.Produces body ∧ lookupKey x.before.2 q.businessId q.key = none ∧
    x.after.2 = x.before.2 ++ [q.row x.context body] := by
  rcases calls_intercept calls with ⟨-, hrows, -⟩ | ⟨hrows, -, -⟩ | ⟨-, -, -, -, -, hrows, -, -⟩ |
    ⟨-, -, -, -, -, hrows, -⟩ | ⟨q, hkeyed, hfresh, -, hrows⟩
  · exact .inl hrows
  · exact .inl hrows
  · exact .inl hrows
  · exact .inl hrows
  · rcases hrows with hrows | ⟨body, hproduces, hrows⟩
    · exact .inl hrows
    · exact .inr ⟨q, body, hkeyed, hproduces, hfresh, hrows⟩

end Answered

/-! ### Sessions -/

/-- The store of a session has the responses of its requests, one row for each key. -/
structure Stored (requestHash : Json → String) (session : List Answered) (s : ServerState) :
    Prop where
  distinct : DistinctKeys s.2
  origin : ∀ row ∈ s.2, ∃ y ∈ session, ∃ q body, y.context.keyed requestHash = some q ∧
    y.Produces body ∧ row = q.row y.context body
  stored : ∀ y ∈ session, ∀ q body, y.context.keyed requestHash = some q → y.Produces body →
    q.row y.context body ∈ s.2

namespace ServedInTurn

variable {requestHash : Json → String} {session : List Answered} {s : ServerState}

/-- **The invariant of a session**: each request adds its own row, or none. -/
theorem rows (h : ServedInTurn requestHash session s) : Stored requestHash session s := by
  induction h with
  | start hempty =>
    rename_i s
    have hnone : ∀ row, row ∉ s.2 := by
      intro row
      rw [hempty]
      exact List.not_mem_nil
    refine ⟨?_, fun row hrow => absurd hrow (hnone row), fun _ hy => absurd hy List.not_mem_nil⟩
    show (s.2.map _).Nodup
    rw [hempty]
    exact List.nodup_nil
  | @serve past x ps r _ run ended stored ih =>
    have hcalls := run.calls ended
    -- the rows of before are still there
    have hkept : ∀ row ∈ x.before.2, row ∈ x.after.2 := by
      intro row hrow
      rcases Answered.rows hcalls with hrows | ⟨q, body, -, -, -, hrows⟩
      · rw [hrows]
        exact hrow
      · rw [hrows]
        exact List.mem_append_left _ hrow
    refine ⟨?_, fun row hrow => ?_, fun y hy q body hkeyed hproduces => ?_⟩
    · rcases Answered.rows hcalls with hrows | ⟨q, body, -, -, hfresh, hrows⟩
      · rw [hrows]
        exact ih.distinct
      · rw [hrows]
        exact ih.distinct.concat hfresh
    · have hbefore : row ∈ x.before.2 → _ := fun hmem => ih.origin row hmem
      rcases Answered.rows hcalls with hrows | ⟨q, body, hkeyed, hproduces, -, hrows⟩
      · obtain ⟨y, hy, horigin⟩ := hbefore (hrows ▸ hrow)
        exact ⟨y, List.mem_append_left _ hy, horigin⟩
      · rw [hrows] at hrow
        rcases List.mem_append.1 hrow with hrow | hrow
        · obtain ⟨y, hy, horigin⟩ := hbefore hrow
          exact ⟨y, List.mem_append_left _ hy, horigin⟩
        · exact ⟨x, by simp, q, body, hkeyed, hproduces, List.mem_singleton.1 hrow⟩
    · rcases List.mem_append.1 hy with hy | hy
      · exact hkept _ (ih.stored y hy q body hkeyed hproduces)
      · rw [List.mem_singleton.1 hy] at hkeyed hproduces ⊢
        exact stored q body hkeyed hproduces

/-- What precedes a request of a session is a session, and ends where the request begins. -/
theorem split (h : ServedInTurn requestHash session s) {past later : List Answered} {x : Answered}
    (heq : session = past ++ x :: later) : ServedInTurn requestHash past x.before ∧
      ∃ r, (intercept requestHash x.context x.handler).Calls x.before x.calls r x.after := by
  induction h generalizing later with
  | start _ => simp at heq
  | @serve past' x' ps r session run ended _ ih =>
    rcases List.eq_nil_or_concat later with rfl | ⟨later', y, rfl⟩
    · obtain ⟨rfl, hx⟩ := List.append_inj' heq rfl
      obtain rfl : x' = x := by simpa using hx
      exact ⟨session, r, run.calls ended⟩
    · rw [List.concat_eq_append, ← List.cons_append, ← List.append_assoc] at heq
      exact ih (List.append_inj' heq rfl).1

/-- **Every replay answers a request for the same exactly when no request finds a row of another
path**, as long as no two of the bodies have one hash. -/
theorem answersSame_iff (h : ServedInTurn requestHash session s)
    (hash : ∀ x ∈ session, ∀ y ∈ session,
      requestHash x.context.hashed = requestHash y.context.hashed →
        x.context.hashed = y.context.hashed) :
    AnswersSame session ↔
      ∀ x ∈ session, ∀ row, x.Finds requestHash row → row.path = normalizePath x.context.path := by
  constructor
  · intro hanswers x hx row hfinds
    obtain ⟨past, later, heq⟩ := List.append_of_mem hx
    obtain ⟨hpast, r, hcalls⟩ := h.split heq
    obtain ⟨y, hy, hsame, hproduces⟩ := hanswers past x later heq row.responseBody
      ((Answered.replays_iff hcalls).2 ⟨row, hfinds, rfl⟩)
    -- the response of `y` is in the store, under the key that `x` looks up
    obtain ⟨q, hkeyed, -, hfound, -⟩ := hfinds
    have hstored := hpast.rows.stored y hy q row.responseBody (hsame.keyed.trans hkeyed) hproduces
    obtain ⟨hrow, hbusiness, hkey⟩ := lookupKey_eq_some hfound
    have hone : row = q.row y.context row.responseBody := by
      refine List.inj_on_of_nodup_map hpast.rows.distinct hrow hstored ?_
      rw [hbusiness, hkey]
      rfl
    rw [hone]
    exact hsame.path
  · rintro hpath past x later heq body hreplays
    have hx : x ∈ session := by simp [heq]
    obtain ⟨hpast, r, hcalls⟩ := h.split heq
    obtain ⟨row, hfinds, rfl⟩ := (Answered.replays_iff hcalls).1 hreplays
    have hrowPath := hpath x hx row hfinds
    obtain ⟨q, hkeyed, -, hfound, hsameHash⟩ := hfinds
    obtain ⟨hrow, hbusiness, hkey⟩ := lookupKey_eq_some hfound
    obtain ⟨y, hy, q', body, hkeyed', hproduces, rfl⟩ := hpast.rows.origin row hrow
    have hyMem : y ∈ session := by simp [heq, hy]
    obtain ⟨hmethod, hbusinessId, hheader, hhash⟩ := keyed_eq_some hkeyed
    obtain ⟨hmethod', hbusinessId', hheader', hhash'⟩ := keyed_eq_some hkeyed'
    have hbusiness : q'.businessId = q.businessId := hbusiness
    have hkey : q'.key = q.key := hkey
    have hsameHash : q'.requestHash = q.requestHash := hsameHash
    refine ⟨y, hy, ⟨hmethod'.trans hmethod.symm, ?_, ?_, hrowPath, ?_⟩, hproduces⟩
    · rw [hbusinessId', hbusinessId, hbusiness]
    · rw [hheader', hheader, hkey]
    · exact hash y hyMem x hx (by rw [← hhash', ← hhash, hsameHash])

end ServedInTurn

/-! ### Two withdrawals with one key -/

namespace Sample

/-- A second bucket, with as much in it as the first one. -/
def taxFunded : ServerState :=
  ({ fundedServer.1 with
      db := { fundedServer.1.db with
        treasuryBuckets := [bucket, { id := "bkt2", bucketRef := "tax", businessId := "biz" }]
        bucketLedgerEntries := fundedServer.1.db.bucketLedgerEntries ++ [{
          id := "ble9", createdAt := 1, bucketId := "bkt2", entryType := .credit
          amountKobo := 100000, cumulativeAmountKobo := 100000, reference := "alloc_t2_bkt2" }] } },
    [])

def taxContext : HttpContext where
  method := "POST"
  path := "/api/v1/treasury-buckets/tax/withdraw"
  idempotencyKey := some "key1"
  body := some (.obj [("amountKobo", .num 50000)])
  businessId := some "biz"

def withdrawTax : Action Json :=
  (initiate "tax" halfPayout "biz" "key").bind fun result =>
    .ret (.obj [("settlementId", .str result.settlementId)])

/-- A request that is served alone, with these outcomes of its calls. -/
def answer (context : HttpContext) (handler : Action Json) (s : ServerState) (envs : List Env) :
    Answered :=
  let r := exec (fun _ : Unit => intercept (fun _ => "hash") context handler) s
    (envs.map fun env => ((), env))
  ⟨context, handler, s, r.1, r.2.2⟩

/-- The lookup, the calls of the withdrawal, the response, and its row. -/
def paid : Answered :=
  answer withdrawContext withdraw taxFunded [{}, {}, { row := ⟨2, "stl1"⟩ }, {},
    { uuid := "0a1b2c3d-0000" }, { row := ⟨3, "ble2"⟩ }, {}, {}, {}]

/-- The same withdrawal again. -/
def paidAgain : Answered :=
  answer withdrawContext withdraw paid.after [{}, {}]

/-- The withdrawal from the second bucket, with the key and the body of the first one. -/
def taxUnpaid : Answered :=
  answer taxContext withdrawTax paid.after [{}, {}]

def paidBody : Json := .obj [("settlementId", .str "stl1")]

theorem keyed_withdrawContext :
    withdrawContext.keyed (fun _ => "hash") = some ⟨"biz", "key1", "hash"⟩ := by decide +kernel

theorem produces_paid {body : Json} (h : paid.Produces body) : body = paidBody := by
  have hbodies : paid.calls.filterMap (fun ev => ev.call.handledBody) = [paidBody] := by
    with_unfolding_all rfl
  have hmem := h.mem_handled
  rw [hbodies] at hmem
  exact List.mem_singleton.1 hmem

theorem rows_paid : paid.after.2 =
    [(⟨"biz", "key1", "hash"⟩ : KeyedRequest).row withdrawContext paidBody] := by
  with_unfolding_all rfl

/-- The first request pays, and its response is stored. -/
theorem served_paid : ServedInTurn (fun _ => "hash") [paid] paid.after := by
  have hstart : ServedInTurn (fun _ => "hash") [] paid.before := .start rfl
  refine hstart.serve (Run.of_exec _ _ _ fun _ _ => trivial) (r := .ok ())
    (by with_unfolding_all rfl) fun q body hkeyed hproduces => ?_
  obtain rfl := Option.some.inj (keyed_withdrawContext.symm.trans hkeyed)
  rw [produces_paid hproduces, rows_paid]
  exact List.mem_singleton.2 rfl

/-- A second request that is answered without its handler. -/
theorem served_replayed {context : HttpContext} {handler : Action Json}
    (hend : (exec (fun _ : Unit => intercept (fun _ => "hash") context handler) paid.after
      [((), {}), ((), {})]).2.1 () = .ofExcept (.ok ()))
    (hbodies : (answer context handler paid.after [{}, {}]).calls.filterMap
      (fun ev => ev.call.handledBody) = []) :
    ServedInTurn (fun _ => "hash") [paid, answer context handler paid.after [{}, {}]]
      (answer context handler paid.after [{}, {}]).after := by
  have hpaid : ServedInTurn (fun _ => "hash") [paid]
    (answer context handler paid.after [{}, {}]).before := served_paid
  refine hpaid.serve (Run.of_exec _ _ _ fun _ _ => trivial) hend fun q body _ hproduces => ?_
  have hmem := hproduces.mem_handled
  rw [hbodies] at hmem
  exact absurd hmem List.not_mem_nil

end Sample

/-- A retry of a withdrawal. -/
theorem answersSame_retry : AnswersSame [Sample.paid, Sample.paidAgain] := by
  have hsession : ServedInTurn (fun _ => "hash") [Sample.paid, Sample.paidAgain]
      Sample.paidAgain.after :=
    Sample.served_replayed (by with_unfolding_all rfl) (by with_unfolding_all rfl)
  refine (ServedInTurn.answersSame_iff hsession ?_).2 ?_
  · have hone : ∀ x ∈ [Sample.paid, Sample.paidAgain],
        x.context = Sample.withdrawContext := by simp [Sample.paid, Sample.paidAgain, Sample.answer]
    intro x hx y hy _
    rw [hone x hx, hone y hy]
  · intro x hx row hfinds
    obtain ⟨q, hkeyed, -, hfound, -⟩ := hfinds
    rcases List.mem_pair.1 hx with rfl | rfl
    · cases hfound
    · obtain rfl := Option.some.inj (Sample.keyed_withdrawContext.symm.trans hkeyed)
      rw [show Sample.paidAgain.before = Sample.paid.after from rfl, Sample.rows_paid] at hfound
      obtain rfl := List.mem_singleton.1 (List.mem_of_find?_eq_some hfound)
      rfl

/-- **A withdrawal that is never executed**: the second bucket's request has the key and the body of
the first one's, and gets the first one's response. Nomba has been called once. -/
theorem replayed_for_another_bucket : ∃ session s, ServedInTurn (fun _ => "hash") session s ∧
    (∀ x ∈ session, ∀ y ∈ session, x.context.hashed = y.context.hashed) ∧
    ¬ AnswersSame session ∧ s.1.transfers.length = 1 := by
  refine ⟨[Sample.paid, Sample.taxUnpaid], Sample.taxUnpaid.after,
    Sample.served_replayed (by with_unfolding_all rfl) (by with_unfolding_all rfl), ?_, ?_, ?_⟩
  · have hone : ∀ x ∈ [Sample.paid, Sample.taxUnpaid],
        x.context.hashed = Sample.withdrawContext.hashed := by
      simp [Sample.paid, Sample.taxUnpaid, Sample.answer, HttpContext.hashed,
        Sample.withdrawContext, Sample.taxContext]
    intro x hx y hy
    rw [hone x hx, hone y hy]
  · intro hanswers
    have hreplays : Sample.taxUnpaid.Replays Sample.paidBody := by
      with_unfolding_all exact ⟨_, List.mem_cons_of_mem _ List.mem_cons_self, rfl⟩
    obtain ⟨y, hy, hsame, -⟩ := hanswers [Sample.paid] Sample.taxUnpaid [] rfl _ hreplays
    rw [List.mem_singleton.1 hy] at hsame
    exact absurd hsame.path (by decide +kernel)
  · with_unfolding_all rfl

end AccountOS
