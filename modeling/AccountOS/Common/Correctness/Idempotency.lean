import AccountOS.Common.IdempotencyInterceptor
import AccountOS.Treasury.Correctness.BalanceAgreement

/-!
# A key and its handler

Requests that are one request, by their business, key and body, among any other requests.

* `handled_at_most_once`: when none of them is looked up while the handler of another one runs, or
  has succeeded without being stored, the handler succeeds at most once, and all get its response.
* `handled_twice`: a retry that comes after the response, but before the row, runs the handler again.
-/

namespace AccountOS

open Conc

/-! ### The table of keys -/

/-- The key of a business is unique. -/
def DistinctKeys (rows : List IdempotencyKey) : Prop :=
  (rows.map fun r => (r.businessId, r.key)).Nodup

/-- The request that a row was stored for. -/
def IdempotencyKey.request (r : IdempotencyKey) : KeyedRequest :=
  ⟨r.businessId, r.key, r.requestHash⟩

@[simp] theorem KeyedRequest.request_row (q : KeyedRequest) (context : HttpContext) (body : Json) :
    (q.row context body).request = q := rfl

section Rows

variable {rows rows' : List IdempotencyKey} {businessId key : String} {r : IdempotencyKey}

theorem lookupKey_eq_none :
    lookupKey rows businessId key = none ↔ ∀ r ∈ rows, r.businessId = businessId → r.key ≠ key := by
  simp [lookupKey]

theorem lookupKey_eq_some (h : lookupKey rows businessId key = some r) :
    r ∈ rows ∧ r.businessId = businessId ∧ r.key = key := by
  have hkey := List.find?_some h
  simp only [decide_eq_true_eq] at hkey
  exact ⟨List.mem_of_find?_eq_some h, hkey⟩

/-- The rows of one request are one row. -/
theorem DistinctKeys.eq_of_request (h : DistinctKeys rows) {r' : IdempotencyKey} (hr : r ∈ rows)
    (hr' : r' ∈ rows) (hq : r.request = r'.request) : r = r' := by
  refine List.inj_on_of_nodup_map h hr hr' ?_
  have hbusiness : r.businessId = r'.businessId := congrArg KeyedRequest.businessId hq
  have hkey : r.key = r'.key := congrArg KeyedRequest.key hq
  rw [hbusiness, hkey]

theorem DistinctKeys.concat (h : DistinctKeys rows)
    (hnone : lookupKey rows r.businessId r.key = none) : DistinctKeys (rows ++ [r]) := by
  have hnew : (r.businessId, r.key) ∉ rows.map fun r => (r.businessId, r.key) := by
    intro hmem
    obtain ⟨r', hr', heq⟩ := List.mem_map.1 hmem
    rw [Prod.mk.injEq] at heq
    exact lookupKey_eq_none.1 hnone r' hr' heq.1 heq.2
  unfold DistinctKeys
  rw [List.map_append, List.map_singleton]
  exact List.nodup_append.2 ⟨h, List.nodup_singleton _, fun a ha b hb => by
    rw [List.mem_singleton.1 hb]
    rintro rfl
    exact hnew ha⟩

theorem insertKey_eq_ok {s : ServerState} (h : insertKey r s = .ok rows') :
    rows' = s.2 ++ [r] ∧ lookupKey s.2 r.businessId r.key = none := by
  unfold insertKey at h
  split at h
  next => cases h
  next hnone =>
    split at h
    · cases h
      exact ⟨rfl, by simpa using hnone⟩
    · cases h

end Rows

/-! ### What happens to a request -/

/-- What the handler has returned. -/
def ServerCall.handledBody : ServerCall → Option Json
  | emit (.ok body) => some body
  | _ => none

/-- The response of a request that succeeds, handled or replayed. -/
def ServerCall.sentBody : ServerCall → Option Json
  | emit (.ok body) => some body
  | replay body => some body
  | _ => none

section Histories

variable {ι : Type} {q : KeyedRequest} {mine : ι → Prop} [DecidablePred mine]
  {hist : List (Event ι ServerState Env ServerCall)} {ev : Event ι ServerState Env ServerCall}

/-- The responses of the handler to requests of the kind `mine`. -/
def handledBodies (mine : ι → Prop) [DecidablePred mine]
    (hist : List (Event ι ServerState Env ServerCall)) : List Json :=
  hist.filterMap fun ev => if mine ev.who then ev.call.handledBody else none

/-- The responses that these requests get. -/
def sentBodies (mine : ι → Prop) [DecidablePred mine]
    (hist : List (Event ι ServerState Env ServerCall)) : List Json :=
  hist.filterMap fun ev => if mine ev.who then ev.call.sentBody else none

theorem handledBodies_concat : handledBodies mine (hist ++ [ev]) =
    handledBodies mine hist ++ (if mine ev.who then ev.call.handledBody else none).toList := by
  simp only [handledBodies, List.filterMap_append, List.filterMap_cons, List.filterMap_nil]
  split <;> simp_all

theorem sentBodies_concat : sentBodies mine (hist ++ [ev]) =
    sentBodies mine hist ++ (if mine ev.who then ev.call.sentBody else none).toList := by
  simp only [sentBodies, List.filterMap_append, List.filterMap_cons, List.filterMap_nil]
  split <;> simp_all

/-- What is handled is sent. -/
theorem ServerCall.handledBody_eq_none {l : ServerCall} (h : l.sentBody = none) :
    l.handledBody = none := by
  cases l with
  | emit result => cases result <;> simp_all [sentBody, handledBody]
  | _ => rfl

/-- The lookup of the key, with no row for it. -/
def FoundNone (q : KeyedRequest) (ev : Event ι ServerState Env ServerCall) : Prop :=
  ev.call = .findIdempotencyKey q.businessId q.key ∧ ev.choice.fault = none ∧
    lookupKey ev.before.2 q.businessId q.key = none

instance (l : ServerCall) (businessId key : String) :
    Decidable (l = .findIdempotencyKey businessId key) :=
  match l with
  | .findIdempotencyKey businessId' key' =>
    decidable_of_iff (businessId' = businessId ∧ key' = key) (by simp)
  | .handler _ | .emit _ | .replay _ | .createIdempotencyKey .. => isFalse nofun

instance (ev : Event ι ServerState Env ServerCall) : Decidable (FoundNone q ev) :=
  inferInstanceAs (Decidable (_ ∧ _ ∧ _))

/-- The handler has thrown. -/
def HandlerFailed (ev : Event ι ServerState Env ServerCall) : Prop :=
  ∃ e, ev.call = .emit (.error e)

/-- Whenever a request of the kind finds no row, the handlers of all of them that have found none
before have thrown. -/
def LooksUpAlone (q : KeyedRequest) (mine : ι → Prop)
    (hist : List (Event ι ServerState Env ServerCall)) : Prop :=
  ∀ past ev, past ++ [ev] <+: hist → mine ev.who → FoundNone q ev →
    ∀ ev₁ ∈ past, mine ev₁.who → FoundNone q ev₁ → ∃ ev₂ ∈ past, ev₂.who = ev₁.who ∧
      HandlerFailed ev₂

omit [DecidablePred mine] in
/-- A key for which only one lookup finds no row. -/
theorem LooksUpAlone.of_pairwise
    (h : hist.Pairwise fun ev₁ ev => FoundNone q ev₁ → ¬ FoundNone q ev) :
    LooksUpAlone q mine hist := by
  intro past ev hpast _ hfound ev₁ hev₁ _ hfound₁
  have hpair := (h.sublist hpast.sublist)
  rw [List.pairwise_append] at hpair
  exact absurd hfound (hpair.2.2 ev₁ hev₁ ev (List.mem_singleton_self _) hfound₁)

omit [DecidablePred mine] in
theorem LooksUpAlone.before (h : LooksUpAlone q mine (hist ++ [ev])) : LooksUpAlone q mine hist :=
  fun past ev' hpast => h past ev' (hpast.trans (List.prefix_append _ _))

end Histories

/-! ### The invariant -/

/-- How far a request has come. -/
inductive ServingStage
  | waiting
  | running
  | succeeded (body : Json)
  | found (body : Json)
  | over

/-- The handler is at work, or has been with success. -/
def ServingStage.Underway : ServingStage → Prop
  | running | succeeded _ => True
  | _ => False

/-- At most one of the requests has its handler at work; only that one can store a row, and only the
row's body is replayed. -/
structure HandledOnce {ι : Type} (q : KeyedRequest) (mine : ι → Prop) [DecidablePred mine]
    (G : ι → ServingStage) (hist : List (Event ι ServerState Env ServerCall)) (s : ServerState) :
    Prop where
  distinct : DistinctKeys s.2
  unique : ∀ i j, mine i → mine j → (G i).Underway → (G j).Underway → i = j
  lookedUp : ∀ i, mine i → (G i).Underway → ∃ ev ∈ hist, ev.who = i ∧ FoundNone q ev
  unfailed : ∀ i, mine i → G i ≠ .over → ∀ ev ∈ hist, ev.who = i → ¬ HandlerFailed ev
  found : ∀ i b, mine i → G i = .found b → ∃ r ∈ s.2, r.request = q ∧ r.responseBody = b
  stored : ∀ r ∈ s.2, r.request = q → ∀ i, mine i → (G i).Underway →
    G i = .succeeded r.responseBody
  handled : (handledBodies mine hist = [] ∧ ∀ i b, mine i → G i ≠ .succeeded b) ∨
    ∃ i b, mine i ∧ G i = .succeeded b ∧ handledBodies mine hist = [b]
  sent : ∀ b ∈ sentBodies mine hist, b ∈ handledBodies mine hist ∨
    ∃ r ∈ s.2, r.request = q ∧ r.responseBody = b

namespace HandledOnce

variable {ι : Type} {q : KeyedRequest} {mine : ι → Prop} [DecidablePred mine]
  {G : ι → ServingStage} {hist : List (Event ι ServerState Env ServerCall)} {s s' : ServerState}
  {ev : Event ι ServerState Env ServerCall} {i : ι} {body : Json}

theorem initial (h : DistinctKeys s.2) : HandledOnce q mine (fun _ => .waiting) [] s where
  distinct := h
  unique _ _ _ _ hi := hi.elim
  lookedUp _ _ hi := hi.elim
  unfailed _ _ _ _ hev := absurd hev List.not_mem_nil
  found _ _ _ hi := by cases hi
  stored _ _ _ _ _ hi := hi.elim
  handled := .inl ⟨rfl, fun _ _ _ h => by cases h⟩
  sent _ hb := absurd hb List.not_mem_nil

/-- All requests that succeed get one response, which the handler has returned at most once. -/
theorem outcome (h : HandledOnce q mine G hist s) : (handledBodies mine hist).length ≤ 1 ∧
    ∀ b ∈ sentBodies mine hist, ∀ b' ∈ sentBodies mine hist, b = b' := by
  -- what the handler has returned is what is in the row
  have hrow : ∀ b ∈ handledBodies mine hist, ∀ r ∈ s.2, r.request = q → b = r.responseBody := by
    intro b hb r hr hq
    rcases h.handled with ⟨hnone, -⟩ | ⟨i, b₀, hi, hsucceeded, hone⟩
    · rw [hnone] at hb
      exact absurd hb List.not_mem_nil
    · have hstored := h.stored r hr hq i hi (by rw [hsucceeded]; trivial)
      rw [hsucceeded] at hstored
      rw [hone, List.mem_singleton] at hb
      rw [hb]
      exact ServingStage.succeeded.inj hstored
  have hlength : (handledBodies mine hist).length ≤ 1 := by
    rcases h.handled with ⟨hnone, -⟩ | ⟨_, _, -, -, hone⟩
    · rw [hnone]
      exact Nat.zero_le 1
    · rw [hone]
      exact le_refl 1
  refine ⟨hlength, fun b hb b' hb' => ?_⟩
  rcases h.sent b hb with hhandled | ⟨r, hr, hq, rfl⟩
  · rcases h.sent b' hb' with hhandled' | ⟨r', hr', hq', rfl⟩
    · obtain ⟨b₀, hb₀⟩ := List.length_eq_one_iff.1
        (le_antisymm hlength (List.length_pos_of_mem hhandled))
      rw [hb₀, List.mem_singleton] at hhandled hhandled'
      rw [hhandled, hhandled']
    · exact hrow b hhandled r' hr' hq'
  · rcases h.sent b' hb' with hhandled' | ⟨r', hr', hq', rfl⟩
    · exact (hrow b' hhandled' r hr hq).symm
    · rw [h.distinct.eq_of_request hr hr' (hq.trans hq'.symm)]

/-- A call that is not about the requests of the kind, or does not answer one. -/
theorem frame (h : HandledOnce q mine G hist s) (hdistinct : DistinctKeys s'.2)
    (hrows : ∀ r, r.request = q → (r ∈ s'.2 ↔ r ∈ s.2))
    (hev : mine ev.who → ev.call.sentBody = none ∧ (HandlerFailed ev → G ev.who = .over)) :
    HandledOnce q mine G (hist ++ [ev]) s' := by
  have hsent : (if mine ev.who then ev.call.sentBody else none) = none := by
    split
    next hmine => exact (hev hmine).1
    next => rfl
  have hhandled : (if mine ev.who then ev.call.handledBody else none) = none := by
    split
    next hmine => exact ServerCall.handledBody_eq_none (hev hmine).1
    next => rfl
  have hbodies : handledBodies mine (hist ++ [ev]) = handledBodies mine hist := by
    rw [handledBodies_concat, hhandled, Option.toList_none, List.append_nil]
  refine ⟨hdistinct, h.unique, ?_, ?_, ?_, ?_, ?_, ?_⟩
  · intro i hi hunderway
    obtain ⟨ev', hev', hwho⟩ := h.lookedUp i hi hunderway
    exact ⟨ev', List.mem_append_left _ hev', hwho⟩
  · intro i hi hover ev' hev' hwho hfailed
    rcases List.mem_append.1 hev' with hev' | hev'
    · exact h.unfailed i hi hover ev' hev' hwho hfailed
    · rw [List.mem_singleton.1 hev'] at hwho hfailed
      rw [← hwho] at hi hover
      exact hover ((hev hi).2 hfailed)
  · intro i b hi hfound
    obtain ⟨r, hr, hq, hbody⟩ := h.found i b hi hfound
    exact ⟨r, (hrows r hq).2 hr, hq, hbody⟩
  · exact fun r hr hq => h.stored r ((hrows r hq).1 hr) hq
  · rw [hbodies]
    exact h.handled
  · rw [hbodies, sentBodies_concat, hsent, Option.toList_none, List.append_nil]
    intro b hb
    rcases h.sent b hb with hb | ⟨r, hr, hq, hbody⟩
    · exact .inl hb
    · exact .inr ⟨r, (hrows r hq).2 hr, hq, hbody⟩

/-- The stored response is on its way. -/
theorem replayed (h : HandledOnce q mine G hist s) (hi : mine ev.who)
    (hfound : G ev.who = .found body) (hcall : ev.call = .replay body) :
    HandledOnce q mine G (hist ++ [ev]) s := by
  have hbodies : handledBodies mine (hist ++ [ev]) = handledBodies mine hist := by
    rw [handledBodies_concat, if_pos hi, hcall]
    exact List.append_nil _
  refine ⟨h.distinct, h.unique, ?_, ?_, h.found, h.stored, ?_, ?_⟩
  · intro j hj hunderway
    obtain ⟨ev', hev', hwho⟩ := h.lookedUp j hj hunderway
    exact ⟨ev', List.mem_append_left _ hev', hwho⟩
  · intro j hj hover ev' hev' hwho hfailed
    rcases List.mem_append.1 hev' with hev' | hev'
    · exact h.unfailed j hj hover ev' hev' hwho hfailed
    · obtain ⟨e, he⟩ := hfailed
      rw [List.mem_singleton.1 hev', hcall] at he
      cases he
  · rw [hbodies]
    exact h.handled
  · rw [hbodies, sentBodies_concat, if_pos hi, hcall]
    intro b hb
    rcases List.mem_append.1 hb with hb | hb
    · exact h.sent b hb
    · have hbody : b = body := List.mem_singleton.1 hb
      rw [hbody]
      exact .inr (h.found ev.who body hi hfound)

section Update

variable [DecidableEq ι]

/-- The handler was not at work, or has failed. -/
theorem set (h : HandledOnce q mine G hist s) {g : ServingStage} (hg : ¬ g.Underway)
    (hfound : ∀ b, g = .found b → ∃ r ∈ s.2, r.request = q ∧ r.responseBody = b)
    (hover : g ≠ .over → G i ≠ .over) (hsucceeded : ∀ b, G i ≠ .succeeded b) :
    HandledOnce q mine (Function.update G i g) hist s := by
  -- who is under way now was so before
  have hunderway : ∀ j, (Function.update G i g j).Underway → j ≠ i ∧ (G j).Underway := by
    intro j hj
    by_cases hji : j = i
    · rw [hji, Function.update_self] at hj
      exact absurd hj hg
    · rw [Function.update_of_ne hji] at hj
      exact ⟨hji, hj⟩
  refine ⟨h.distinct, ?_, ?_, ?_, ?_, ?_, ?_, h.sent⟩
  · exact fun j k hj hk hj' hk' => h.unique j k hj hk (hunderway j hj').2 (hunderway k hk').2
  · exact fun j hj hj' => h.lookedUp j hj (hunderway j hj').2
  · intro j hj hj'
    by_cases hji : j = i
    · rw [hji, Function.update_self] at hj'
      rw [hji] at hj ⊢
      exact h.unfailed i hj (hover hj')
    · rw [Function.update_of_ne hji] at hj'
      exact h.unfailed j hj hj'
  · intro j b hj hj'
    by_cases hji : j = i
    · rw [hji, Function.update_self] at hj'
      exact hfound b hj'
    · rw [Function.update_of_ne hji] at hj'
      exact h.found j b hj hj'
  · intro r hr hq j hj hj'
    obtain ⟨hji, hj'⟩ := hunderway j hj'
    rw [Function.update_of_ne hji]
    exact h.stored r hr hq j hj hj'
  · rcases h.handled with ⟨hnone, hnobody⟩ | ⟨j, b, hj, hj', hone⟩
    · refine .inl ⟨hnone, fun j b hj hj' => ?_⟩
      have hne := (hunderway j (by rw [hj']; trivial)).1
      rw [Function.update_of_ne hne] at hj'
      exact hnobody j b hj hj'
    · have hne : j ≠ i := by
        rintro rfl
        exact hsucceeded b hj'
      exact .inr ⟨j, b, hj, by rw [Function.update_of_ne hne, hj'], hone⟩

/-- The handler begins: no other one is at work, and there is no row. -/
theorem begun (h : HandledOnce q mine G hist s) (hwaiting : G i = .waiting)
    (halone : ∀ j, mine j → ¬ (G j).Underway) (hnone : ∀ r ∈ s.2, r.request ≠ q)
    (hlookup : ∃ ev ∈ hist, ev.who = i ∧ FoundNone q ev) :
    HandledOnce q mine (Function.update G i .running) hist s := by
  have hunderway : ∀ j, mine j → (Function.update G i .running j).Underway → j = i := by
    intro j hj hj'
    by_contra hji
    rw [Function.update_of_ne hji] at hj'
    exact halone j hj hj'
  refine ⟨h.distinct, ?_, ?_, ?_, ?_, ?_, ?_, h.sent⟩
  · exact fun j k hj hk hj' hk' => (hunderway j hj hj').trans (hunderway k hk hk').symm
  · intro j hj hj'
    rw [hunderway j hj hj']
    exact hlookup
  · intro j hj hj'
    by_cases hji : j = i
    · rw [hji] at hj ⊢
      exact h.unfailed i hj (by rw [hwaiting]; nofun)
    · rw [Function.update_of_ne hji] at hj'
      exact h.unfailed j hj hj'
  · intro j b hj hj'
    by_cases hji : j = i
    · rw [hji, Function.update_self] at hj'
      cases hj'
    · rw [Function.update_of_ne hji] at hj'
      exact h.found j b hj hj'
  · exact fun r hr hq => absurd hq (hnone r hr)
  · rcases h.handled with ⟨hbodies, hnobody⟩ | ⟨j, b, hj, hj', -⟩
    · refine .inl ⟨hbodies, fun j b hj hj' => ?_⟩
      rw [hunderway j hj (by rw [hj']; trivial), Function.update_self] at hj'
      cases hj'
    · exact absurd (by rw [hj']; trivial) (halone j hj)

/-- The handler has succeeded, and its response is on its way. -/
theorem succeeded (h : HandledOnce q mine G hist s) (hi : mine ev.who)
    (hrunning : G ev.who = .running) (hcall : ev.call = .emit (.ok body)) :
    HandledOnce q mine (Function.update G ev.who (.succeeded body)) (hist ++ [ev]) s := by
  have hunderway : (G ev.who).Underway := by
    rw [hrunning]
    trivial
  -- a response that was handled before would belong to another handler at work
  have hnone : handledBodies mine hist = [] := by
    rcases h.handled with ⟨hnone, -⟩ | ⟨j, b, hj, hj', -⟩
    · exact hnone
    · have hji := h.unique j ev.who hj hi (by rw [hj']; trivial) hunderway
      rw [hji, hrunning] at hj'
      cases hj'
  have hbodies : handledBodies mine (hist ++ [ev]) = [body] := by
    rw [handledBodies_concat, if_pos hi, hcall, hnone]
    rfl
  have hback : ∀ j, (Function.update G ev.who (.succeeded body) j).Underway → (G j).Underway := by
    intro j hj
    by_cases hji : j = ev.who
    · rw [hji]
      exact hunderway
    · rwa [Function.update_of_ne hji] at hj
  refine ⟨h.distinct, ?_, ?_, ?_, ?_, ?_, ?_, ?_⟩
  · exact fun j k hj hk hj' hk' => h.unique j k hj hk (hback j hj') (hback k hk')
  · intro j hj hj'
    obtain ⟨ev', hev', hwho⟩ := h.lookedUp j hj (hback j hj')
    exact ⟨ev', List.mem_append_left _ hev', hwho⟩
  · intro j hj hj' ev' hev' hwho hfailed
    rcases List.mem_append.1 hev' with hev' | hev'
    · refine h.unfailed j hj ?_ ev' hev' hwho hfailed
      by_cases hji : j = ev.who
      · rw [hji, hrunning]
        nofun
      · rwa [Function.update_of_ne hji] at hj'
    · obtain ⟨e, he⟩ := hfailed
      rw [List.mem_singleton.1 hev', hcall] at he
      cases he
  · intro j b hj hj'
    by_cases hji : j = ev.who
    · rw [hji, Function.update_self] at hj'
      cases hj'
    · rw [Function.update_of_ne hji] at hj'
      exact h.found j b hj hj'
  · intro r hr hq
    have hstored := h.stored r hr hq ev.who hi hunderway
    rw [hrunning] at hstored
    cases hstored
  · exact .inr ⟨ev.who, body, hi, Function.update_self .., hbodies⟩
  · rw [hbodies, sentBodies_concat, if_pos hi, hcall]
    intro b hb
    rcases List.mem_append.1 hb with hb | hb
    · rcases h.sent b hb with hb | hrow
      · rw [hnone] at hb
        exact absurd hb List.not_mem_nil
      · exact .inr hrow
    · exact .inl hb

end Update

/-- The row of the response is there. -/
theorem concat (h : HandledOnce q mine G hist s) (hi : mine i) (hsucceeded : G i = .succeeded body)
    {r : IdempotencyKey} (hbody : r.responseBody = body)
    (hnone : lookupKey s.2 r.businessId r.key = none) :
    HandledOnce q mine G hist (s.1, s.2 ++ [r]) := by
  refine ⟨h.distinct.concat hnone, h.unique, h.lookedUp, h.unfailed, ?_, ?_, h.handled, ?_⟩
  · intro j b hj hfound
    obtain ⟨r', hr', hq', hbody'⟩ := h.found j b hj hfound
    exact ⟨r', List.mem_append_left _ hr', hq', hbody'⟩
  · intro r' hr' hq' j hj hj'
    rcases List.mem_append.1 hr' with hr' | hr'
    · exact h.stored r' hr' hq' j hj hj'
    · rw [List.mem_singleton.1 hr', hbody, h.unique j i hj hi hj' (by rw [hsucceeded]; trivial),
        hsucceeded]
  · intro b hb
    rcases h.sent b hb with hb | ⟨r', hr', hq', hbody'⟩
    · exact .inl hb
    · exact .inr ⟨r', List.mem_append_left _ hr', hq', hbody'⟩

end HandledOnce

/-! ### The interceptor keeps it -/

section Interceptor

variable {ι : Type} {q : KeyedRequest} {mine : ι → Prop} [DecidablePred mine]

/-- The ghost of a request is how far it has come. -/
def handledOnce (q : KeyedRequest) (mine : ι → Prop) [DecidablePred mine] :
    Protocol ι ServerState Env ServerCall ServingStage where
  allowed _ _ _ _ := True
  inv G hist s := LooksUpAlone q mine hist → HandledOnce q mine G hist s

variable [DecidableEq ι] {i : ι} {requestHash : Json → String} {context : HttpContext}
  {handler : Action Json}

/-- The rows of a request stay as they are. -/
def KeepsRowsOf (q : KeyedRequest) (s s' : ServerState) : Prop :=
  (DistinctKeys s.2 → DistinctKeys s'.2) ∧ ∀ r : IdempotencyKey, r.request = q →
    (r ∈ s'.2 ↔ r ∈ s.2)

omit [DecidablePred mine] [DecidableEq ι] in
theorem KeepsRowsOf.of_eq {s s' : ServerState} (h : s'.2 = s.2) : KeepsRowsOf q s s' := by
  unfold KeepsRowsOf
  rw [h]
  exact ⟨id, fun _ _ => Iff.rfl⟩

omit [DecidablePred mine] [DecidableEq ι] in
/-- Another request. -/
theorem keeps_intercept (h : context.keyed requestHash ≠ some q) :
    (intercept requestHash context handler).Keeps (fun _ _ _ _ => True) (KeepsRowsOf q) := by
  have hhandle : (handle handler).Keeps (fun _ _ _ _ => True) (KeepsRowsOf q) :=
    Proc.keeps_attempt_beside fun _ _ hs => .of_eq hs
  have hemit : ∀ result, (emit result).Keeps (fun _ _ _ _ => True) (KeepsRowsOf q) :=
    fun _ => Proc.Keeps.call fun _ _ _ => .of_eq rfl
  unfold intercept
  cases hkeyed : context.keyed requestHash with
  | none => exact hhandle.bind fun result => hemit result
  | some q' =>
    have hne : q' ≠ q := by
      rintro rfl
      exact h hkeyed
    refine Proc.Keeps.bind (Proc.Keeps.call fun env s _ => .of_eq ?_) fun existing => ?_
    · split <;> rfl
    cases existing with
    | some row =>
      dsimp only
      split
      · exact Proc.Keeps.call fun _ _ _ => .of_eq rfl
      · trivial
    | none =>
      refine hhandle.bind fun result => (hemit result).bind fun _ => ?_
      cases result with
      | error e => trivial
      | ok body =>
        refine Proc.Keeps.catching (Proc.Keeps.call fun env s _ => ?_) fun _ => trivial
        split
        · exact .of_eq rfl
        · split
          next rows hrows =>
            obtain ⟨rfl, hnone⟩ := insertKey_eq_ok hrows
            refine ⟨fun hdistinct => hdistinct.concat hnone, fun r hr => ?_⟩
            -- the row is one of the other request
            have hrow : r ≠ q'.row context body := by
              rintro rfl
              exact hne hr
            simp [hrow]
          next => exact .of_eq rfl

theorem wp_other (hi : ¬ mine i) (h : context.keyed requestHash ≠ some q) {g : ServingStage} :
    (intercept requestHash context handler).Wp (handledOnce q mine) i (fun _ _ => True)
      (fun _ _ => True) g := by
  refine Proc.Wp.mono (fun _ _ _ => trivial) (fun _ _ _ => trivial)
    (Proc.Keeps.wp (keeps_intercept h) fun G hist s s' l c hinv _ hs halone => ?_)
  have hinv := hinv halone.before
  exact hinv.frame (hs.1 hinv.distinct) hs.2 fun hmine => absurd hmine hi

/-- The handler of one of the requests. -/
theorem wp_handle (g : ServingStage) :
    (handle handler).Wp (handledOnce q mine) i (fun _ g' => g' = g) (fun _ _ => False) g := by
  refine Proc.wp_attempt_beside fun G hist s s' l c hG hinv hs halone => ?_
  have hinv := hinv halone.before
  refine hinv.frame (by rw [hs]; exact hinv.distinct) (fun r _ => by rw [hs]) fun _ => ?_
  exact ⟨rfl, fun ⟨_, he⟩ => by cases he⟩

/-- The lookup. A request that finds no row has its handler run, one that finds its own row gets the
response in it. -/
theorem wp_findIdempotencyKey (hi : mine i) :
    (findIdempotencyKey q.businessId q.key).Wp (handledOnce q mine) i
      (fun existing g => (existing = none → g = .running) ∧
        ∀ row, existing = some row → row.requestHash = q.requestHash → g = .found row.responseBody)
      (fun _ _ => True) .waiting := by
  refine Proc.Wp.call fun G hist s env hG hinv _ => ?_
  have hframe : LooksUpAlone q mine (hist ++
        [⟨i, .findIdempotencyKey q.businessId q.key, env, s, s⟩]) →
      HandledOnce q mine G (hist ++ [⟨i, .findIdempotencyKey q.businessId q.key, env, s, s⟩]) s :=
    fun halone => (hinv halone.before).frame (hinv halone.before).distinct (fun _ _ => Iff.rfl)
      fun _ => ⟨rfl, fun ⟨_, he⟩ => by cases he⟩
  cases hfault : env.fault with
  | some f =>
    refine ⟨.waiting, fun halone => ?_, fun _ h => absurd h (by simp), fun _ _ => trivial⟩
    rw [← hG, Function.update_eq_self]
    exact hframe halone
  | none =>
    cases hlookup : lookupKey s.2 q.businessId q.key with
    | none =>
      refine ⟨.running, fun halone => ?_, ?_, fun _ _ => trivial⟩
      · have hfound : FoundNone q (⟨i, .findIdempotencyKey q.businessId q.key, env, s, s⟩ :
            Event ι ServerState Env ServerCall) := ⟨rfl, hfault, hlookup⟩
        have hall := hframe halone
        refine hall.begun hG (fun j hj hunderway => ?_) (fun r hr hq => ?_)
          ⟨_, List.mem_append_right _ (List.mem_singleton_self _), rfl, hfound⟩
        · -- one whose handler is at work has looked the key up before, and has not failed
          have hbefore := hinv halone.before
          obtain ⟨ev₁, hev₁, hwho, hfound₁⟩ := hbefore.lookedUp j hj hunderway
          obtain ⟨ev₂, hev₂, hwho₂, hfailed⟩ := halone hist _ (List.prefix_refl _) hi hfound ev₁ hev₁
            (by rw [hwho]; exact hj) hfound₁
          have hover : G j ≠ .over := by
            intro hover
            rw [hover] at hunderway
            exact hunderway
          exact hbefore.unfailed j hj hover ev₂ hev₂ (hwho₂.trans hwho) hfailed
        · refine lookupKey_eq_none.1 hlookup r hr ?_ ?_
          · rw [← hq]
            rfl
          · rw [← hq]
            rfl
      · intro existing h
        obtain rfl : none = existing := Except.ok.inj h
        exact ⟨fun _ => rfl, nofun⟩
    | some row =>
      obtain ⟨hmem, hbusiness, hkey⟩ := lookupKey_eq_some hlookup
      refine ⟨if row.requestHash = q.requestHash then .found row.responseBody else .waiting,
        fun halone => ?_, ?_, fun _ _ => trivial⟩
      · have hall := hframe halone
        split
        next hhash =>
          refine hall.set id (fun b hb => ⟨row, hmem, ?_, ServingStage.found.inj hb⟩)
            (fun _ => by rw [hG]; nofun) (fun b => by rw [hG]; nofun)
          show KeyedRequest.mk row.businessId row.key row.requestHash = q
          rw [hbusiness, hkey, hhash]
        next =>
          rw [← hG, Function.update_eq_self]
          exact hall
      · intro existing h
        obtain rfl : some row = existing := Except.ok.inj h
        refine ⟨nofun, fun row' hrow' hhash => ?_⟩
        obtain rfl : row = row' := Option.some.inj hrow'
        exact if_pos hhash

/-- The row of the response is stored, or not. -/
theorem wp_createIdempotencyKey {body : Json} (hi : mine i) :
    (createIdempotencyKey (q.row context body)).Wp (handledOnce q mine) i (fun _ _ => True)
      (fun _ _ => True) (.succeeded body) := by
  refine Proc.Wp.call fun G hist s env hG hinv _ => ?_
  refine ⟨.succeeded body, fun halone => ?_, fun _ _ => trivial, fun _ _ => trivial⟩
  have hbefore := hinv halone.before
  rw [← hG, Function.update_eq_self]
  -- the call itself answers nobody
  have hframe : ∀ {s' : ServerState}, HandledOnce q mine G hist s' → HandledOnce q mine G
      (hist ++ [⟨i, .createIdempotencyKey q.businessId q.key, env, s, s'⟩]) s' :=
    fun h => h.frame h.distinct (fun _ _ => Iff.rfl) fun _ => ⟨rfl, fun ⟨_, he⟩ => by cases he⟩
  cases env.fault with
  | some f => exact hframe hbefore
  | none =>
    cases hinsert : insertKey (q.row context body) s with
    | error e => exact hframe hbefore
    | ok rows =>
      obtain ⟨rfl, hnone⟩ := insertKey_eq_ok hinsert
      exact hframe (hbefore.concat hi hG rfl hnone)

/-- One of the requests. -/
theorem wp_intercept (hi : mine i) (h : context.keyed requestHash = some q) :
    (intercept requestHash context handler).Wp (handledOnce q mine) i (fun _ _ => True)
      (fun _ _ => True) .waiting := by
  unfold intercept
  rw [h]
  refine Proc.Wp.bind (Proc.Wp.mono ?_ (fun _ _ _ => trivial) (wp_findIdempotencyKey hi))
  rintro existing g ⟨hnone, hsome⟩
  cases existing with
  | some row =>
    dsimp only
    split
    next hhash =>
      obtain rfl := hsome row rfl hhash
      refine Proc.Wp.call fun G hist s env hG hinv _ => ?_
      refine ⟨.found row.responseBody, fun halone => ?_, fun _ _ => trivial, fun _ _ => trivial⟩
      rw [← hG, Function.update_eq_self]
      exact (hinv halone.before).replayed hi hG rfl
    next => trivial
  | none =>
    obtain rfl := hnone rfl
    refine Proc.Wp.bind (Proc.Wp.mono ?_ (fun _ _ h => h.elim) (wp_handle .running))
    rintro result _ rfl
    refine Proc.Wp.bind (Proc.Wp.call fun G hist s env hG hinv _ => ?_)
    cases result with
    | error e =>
      refine ⟨.over, fun halone => ?_, fun _ _ => trivial, fun _ _ => trivial⟩
      have hbefore := hinv halone.before
      have hover := hbefore.set (i := i) (g := .over) id (fun _ h => by cases h)
        (fun h => absurd rfl h) (fun b => by rw [hG]; rintro ⟨⟩)
      exact hover.frame hover.distinct (fun _ _ => Iff.rfl)
        fun _ => ⟨rfl, fun _ => Function.update_self ..⟩
    | ok body =>
      refine ⟨.succeeded body, fun halone => ?_, fun _ _ => ?_, fun _ _ => trivial⟩
      · have hbefore := hinv halone.before
        let ev : Event ι ServerState Env ServerCall := ⟨i, .emit (.ok body), env, s, s⟩
        exact hbefore.succeeded hi hG (rfl : ev.call = .emit (.ok body))
      exact Proc.Wp.catching (wp_createIdempotencyKey hi)

/-! ### Runs -/

/-- **The handler of a keyed request succeeds at most once**, and every one of the requests that
succeeds gets its response, in every run in which none of them is looked up while the handler of
another one is at work or has succeeded without being stored. The handlers, and the other requests,
are arbitrary. -/
theorem handled_at_most_once {contexts : ι → HttpContext} {handlers : ι → Action Json}
    {s₀ s : ServerState} {hist : List (Event ι ServerState Env ServerCall)}
    {ps : ι → Serving Unit} (h₀ : DistinctKeys s₀.2)
    (run : Run (fun _ _ _ _ => True) (fun i => intercept requestHash (contexts i) (handlers i)) s₀
      hist ps s)
    (halone : LooksUpAlone q (fun i => (contexts i).keyed requestHash = some q) hist) :
    (handledBodies (fun i => (contexts i).keyed requestHash = some q) hist).length ≤ 1 ∧
      ∀ b ∈ sentBodies (fun i => (contexts i).keyed requestHash = some q) hist,
        ∀ b' ∈ sentBodies (fun i => (contexts i).keyed requestHash = some q) hist, b = b' := by
  have hwp : ∀ i, (intercept requestHash (contexts i) (handlers i)).Wp
      (handledOnce q fun i => (contexts i).keyed requestHash = some q) i (fun _ _ => True)
      (fun _ _ => True) .waiting := by
    intro i
    by_cases hi : (contexts i).keyed requestHash = some q
    · refine wp_intercept ?_ hi
      exact hi
    · refine wp_other ?_ hi
      exact hi
  obtain ⟨G, hinv, -⟩ := Protocol.sound
    (handledOnce q fun i => (contexts i).keyed requestHash = some q) (fun _ => .waiting)
    (fun _ _ _ => True) (fun _ _ _ => True) (fun _ => .initial h₀) hwp run
  exact (hinv halone).outcome

end Interceptor

/-! ### A second payout -/

namespace Sample

/-- A withdrawal of half of what is in the bucket, and its retry. -/
def halfPayout : CreateSettlementDto where
  amountKobo := 50000
  destinationAccountName := some "Vendor Ltd"
  destinationAccountNumber := some "0123456789"
  destinationBankCode := some "044"
  one_le_amountKobo := by norm_num

def withdrawContext : HttpContext where
  method := "POST"
  path := "/api/v1/treasury-buckets/ops/withdraw"
  idempotencyKey := some "key1"
  body := some (.obj [("amountKobo", .num 50000)])
  businessId := some "biz"

def withdraw : Action Json :=
  (initiate "ops" halfPayout "biz" "key").bind fun result =>
    .ret (.obj [("settlementId", .str result.settlementId)])

def fundedServer : ServerState :=
  ({ funded with db := { funded.db with businesses := [{ id := "biz" }] } }, [])

/-- One payment: its lookup, the six calls of the withdrawal, and its response. -/
def paidOnce (i : Bool) (settlementId uuid entryId : String) : List (Bool × Env) :=
  [(i, {}), (i, {}), (i, { row := ⟨2, settlementId⟩ }), (i, {}), (i, { uuid }),
    (i, { row := ⟨3, entryId⟩ }), (i, {}), (i, {})]

/-- The retry comes when the response has been sent, and the row has not been stored. -/
def retriedEnvs : List (Bool × Env) :=
  paidOnce false "stl1" "0a1b2c3d-0000" "ble2" ++ paidOnce true "stl2" "4e5f6a7b-0000" "ble3" ++
    ([(false, {}), (true, {})] : List (Bool × Env))

/-- The retry comes when the row is there. -/
def replayedEnvs : List (Bool × Env) :=
  paidOnce false "stl1" "0a1b2c3d-0000" "ble2" ++ ([(false, {}), (true, {}), (true, {})] :
    List (Bool × Env))

def replayedHistory : List (Event Bool ServerState Env ServerCall) :=
  (exec (fun _ => intercept (fun _ => "hash") withdrawContext withdraw) fundedServer replayedEnvs).1

end Sample

/-- A retry that finds the row. -/
theorem handled_at_most_once_replayed :
    (handledBodies (fun _ => Sample.withdrawContext.keyed (fun _ => "hash") =
        some ⟨"biz", "key1", "hash"⟩) Sample.replayedHistory).length ≤ 1 ∧
      ∀ b ∈ sentBodies (fun _ => Sample.withdrawContext.keyed (fun _ => "hash") =
          some ⟨"biz", "key1", "hash"⟩) Sample.replayedHistory,
        ∀ b' ∈ sentBodies (fun _ => Sample.withdrawContext.keyed (fun _ => "hash") =
          some ⟨"biz", "key1", "hash"⟩) Sample.replayedHistory, b = b' :=
  handled_at_most_once (by exact List.nodup_nil)
    (Run.of_exec (fun _ : Bool => intercept (fun _ => "hash") Sample.withdrawContext
      Sample.withdraw) Sample.fundedServer Sample.replayedEnvs fun _ _ => trivial)
    (.of_pairwise (by decide +kernel))

/-- Two requests with one key and one body: the handler has succeeded twice, and Nomba has paid
twice. -/
theorem handled_twice : ∃ hist ps s,
    Run (fun _ _ _ _ => True) (fun _ : Bool => intercept (fun _ => "hash") Sample.withdrawContext
      Sample.withdraw) Sample.fundedServer hist ps s ∧
    (handledBodies (fun _ => Sample.withdrawContext.keyed (fun _ => "hash") =
      some ⟨"biz", "key1", "hash"⟩) hist).length = 2 ∧ s.1.transfers.length = 2 :=
  ⟨_, _, _, Run.of_exec _ Sample.fundedServer Sample.retriedEnvs fun _ _ => trivial,
    by decide +kernel, by decide +kernel⟩

end AccountOS
