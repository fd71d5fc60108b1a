import AccountOS.Auth.Correctness.KeyLifeCycle
import AccountOS.Http.Server
import AccountOS.Identity.IdentityService

/-!
# The gate of the API

* `served_after_lookup`: whatever the threads of the server do and in whatever order, a guarded
  request reaches the interceptor and its handler only after its own lookup has found the row of the
  key it presents, neither revoked nor expired at that moment.
* `served_key_was_issued`: in a run that starts without keys, that key was created for the business
  by a request with the admin secret.
* `revoked_key_is_not_served`: once a key is revoked, no request that comes later is served with it.
-/

namespace AccountOS

open Conc

section Gate

variable {ι : Type} {config : AuthConfig} {requestHash : Json → String}

/-! ### What `AuthService` sees -/

theorem simulates_authThread {Fits : Event ι HttpState HttpEnv HttpCall → Prop} {i : ι}
    (thread : HttpThread) :
    (thread.run config requestHash).Simulates authPart Fits i (thread.authThread.run config) := by
  cases thread with
  | api rawKey context handler =>
    refine Proc.simulates_within_bind (fun kb => ?_) _
    have hsilent : ((intercept requestHash { context with businessId := some kb.2.id }
        (handler kb.1 kb.2)).within servingPart).SilentTo authPart Fits i fun _ => True :=
      Proc.silentTo_within (fun _ => rfl) (fun _ _ => rfl) _
    exact hsilent.simulates _
  | auth thread => exact Proc.simulates_within _
  | background p =>
    have hsilent : ((p.bind fun _ => (.ret () : Action Unit)).within worldPart).SilentTo authPart
        Fits i fun _ => True := Proc.silentTo_within (fun _ => rfl) (fun _ _ => rfl) _
    exact hsilent.simulates _

/-! ### The lookup of a request -/

/-- The call of `AuthService` has accepted a key. -/
def Accepts (ev : Event ι HttpState HttpEnv HttpCall) (keyHash : String) (k : ApiKey)
    (b : BusinessRow) : Prop :=
  ∃ ev₁, ev.projected authPart = some ev₁ ∧ Accepted ev₁ keyHash k b

theorem call_of_own_eq_some {l : HttpCall} {l₁ : Call} (h : worldPart.own l = some l₁) :
    l = .server (.handler l₁) := by
  cases l with
  | auth l => cases h
  | server l =>
    cases l with
    | handler l =>
      cases h
      rfl
    | findIdempotencyKey | emit | replay | createIdempotencyKey => cases h

/-- Behind the guard: every thread has a good key. -/
theorem traced_httpThread {i : ι} (thread : HttpThread) :
    (thread.run config requestHash).Traced i
      (fun past ev => ∀ rawKey context handler, thread = .api rawKey context handler →
        ∀ l, ev.call = .server l → ∃ k b, LookedUp config rawKey (projected authPart past) k b)
      (fun _ _ => True) (fun _ _ => True) [] := by
  cases thread with
  | api rawKey context handler =>
    have hguard : ((ApiKeyGuard.canActivate config rawKey).within authPart).Traced i _ _ _ [] :=
      Proc.Traced.within
        (traced_canActivate (show (AuthThread.guarded rawKey).rawKey = rawKey from rfl))
    refine Proc.Traced.bind (Proc.Traced.mono ?_ (fun _ _ _ => trivial)
      (Proc.Traced.imp ?_ hguard))
    · rintro ⟨k, b⟩ past ⟨raw, hraw, ev, hev, haccepted⟩
      refine Proc.traced_of_forall (fun later ev' rawKey' context' handler' hthread l _ => ?_) _
      cases hthread
      refine ⟨k, b, raw, hraw, ev, ?_, haccepted⟩
      rw [projected_append]
      exact List.mem_append_left _ hev
    · -- the calls of the guard are calls of `AuthService`
      rintro past ev - ⟨ev₁, hev₁, -⟩ _ _ _ _ l hcall
      rw [Event.projected, hcall] at hev₁
      cases hev₁
  | auth thread => exact Proc.traced_of_forall (fun _ _ _ _ _ hthread => by cases hthread) _
  | background p => exact Proc.traced_of_forall (fun _ _ _ _ _ hthread => by cases hthread) _

/-! ### Runs -/

variable [DecidableEq ι] {threads : ι → HttpThread}
  {allowed : HttpCall → HttpEnv → HttpState → HttpState → Prop} {s₀ s : HttpState}
  {hist : List (Event ι HttpState HttpEnv HttpCall)} {ps : ι → HttpAction Unit}

/-- What `AuthService` sees of a run is a run of its own threads. -/
theorem auth_sees_run
    (run : Run allowed (fun i => (threads i).run config requestHash) s₀ hist ps s) :
    ∃ qs, Run (fun _ _ _ _ => True) (fun i => (threads i).authThread.run config) s₀.1
      (projected authPart hist) qs s.1 := by
  have hproj : ∃ qs, Run (fun _ _ _ _ => True) (fun i => (threads i).authThread.run config) s₀.1
      (projected authPart hist) qs s.1 ∧
        ∀ i, (ps i).Simulates authPart (fun _ => True) i (qs i) :=
    run.projected (fun _ _ => trivial) (fun _ _ _ _ _ _ _ => trivial)
      fun i => simulates_authThread (threads i)
  obtain ⟨qs, hrun, -⟩ := hproj
  exact ⟨qs, hrun⟩

/-- The tables of `AuthService`, as it sees them. -/
theorem stateAt_auth
    (run : Run allowed (fun i => (threads i).run config requestHash) s₀ hist ps s) {n : ℕ}
    (hn : n ≤ hist.length) :
    stateAt (projected authPart hist) s.1 (ownBefore authPart hist n) = (stateAt hist s n).1 := by
  have hsimulates : ∀ i, ((threads i).run config requestHash).Simulates authPart (fun _ => True) i
      ((threads i).authThread.run config) := fun i => simulates_authThread (threads i)
  exact run.stateAt_projected (fun _ _ => trivial) hsimulates hn

/-- **A guarded request is served after its lookup**: each of its calls behind the guard comes after
one by which `AuthService` has accepted the key that the request presents. -/
theorem served_after_lookup
    (run : Run allowed (fun i => (threads i).run config requestHash) s₀ hist ps s) {n : ℕ}
    {ev : Event ι HttpState HttpEnv HttpCall} (hev : hist[n]? = some ev) {rawKey : Option String}
    {context : HttpContext} {handler : ApiKey → BusinessRow → Action Json}
    (hthread : threads ev.who = .api rawKey context handler) {l : ServerCall}
    (hcall : ev.call = .server l) :
    ∃ raw k b, rawKey = some raw ∧ ∃ (m : ℕ) (r : Event ι HttpState HttpEnv HttpCall), m < n ∧
      hist[m]? = some r ∧ r.who = ev.who ∧
        Accepts r (AuthService.hashKey config.crypto raw) k b := by
  obtain ⟨k, b, raw, hraw, r₁, hr₁, haccepted⟩ :=
    (run.traced fun i => traced_httpThread (threads i)).1 n ev hev rawKey context handler hthread l
      hcall
  obtain ⟨r, hr, hrr₁⟩ := List.mem_filterMap.1 hr₁
  obtain ⟨hwho, m, hmn, hm⟩ := mem_callsOf_take.1 hr
  exact ⟨raw, k, b, hraw, m, r, hmn, hm, hwho, r₁, hrr₁, haccepted⟩

/-- The key was issued in a run of the server, by one of the first `n` calls. -/
def IssuedAt (config : AuthConfig) (threads : ι → HttpThread)
    (hist : List (Event ι HttpState HttpEnv HttpCall)) (n : ℕ) (k : ApiKey) : Prop :=
  ∃ (m : ℕ) (c : Event ι HttpState HttpEnv HttpCall) (adminSecret : Option String)
    (dto : AuthService.CreateApiKeyDto), m < n ∧ hist[m]? = some c ∧
      threads c.who = .auth (.admin adminSecret (.createApiKey dto)) ∧
        ShownSecret config adminSecret (projected authPart (callsOf c.who (hist.take m))) ∧
          k.SameKey (AuthService.newApiKey config.crypto dto c.choice.auth)

theorem issuedAt_of_issued {n : ℕ} {k : ApiKey}
    (h : Issued config (fun i => (threads i).authThread) (projected authPart hist)
      (ownBefore authPart hist n) k) : IssuedAt config threads hist n k := by
  obtain ⟨m₁, c₁, adminSecret, dto, hm₁, hc₁, hthread, hshown, hsame⟩ := h
  obtain ⟨m, c, hm, hcc₁, rfl⟩ := exists_getElem?_of_projected hc₁
  have hmn : m < n := by
    by_contra hle
    have hmono := ownBefore_mono authPart hist (Nat.not_lt.1 hle)
    omega
  obtain ⟨l, hl, rfl⟩ := Option.map_eq_some_iff.1 hcc₁
  refine ⟨m, c, adminSecret, dto, hmn, hm, ?_, ?_, hsame⟩
  · -- no other thread of the server does this
    cases hthread' : threads c.who with
    | api rawKey context handler => simp [hthread', HttpThread.authThread] at hthread
    | auth thread =>
      simp only [hthread', HttpThread.authThread] at hthread
      rw [hthread]
    | background p => simp [hthread', HttpThread.authThread] at hthread
  · rwa [projected_take, callsOf_projected] at hshown

/-- **The key of a served request was issued** for the business that it is served as, by a request
that has shown the admin secret. -/
theorem served_key_was_issued (h₀ : s₀.1.apiKeys = [])
    (run : Run allowed (fun i => (threads i).run config requestHash) s₀ hist ps s) {n : ℕ}
    {ev : Event ι HttpState HttpEnv HttpCall} (hev : hist[n]? = some ev) {raw : String}
    {k : ApiKey} {b : BusinessRow}
    (haccepts : Accepts ev (AuthService.hashKey config.crypto raw) k b) :
    IssuedAt config threads hist n k ∧ b.id = k.businessId ∧
      k.keyHash = AuthService.hashKey config.crypto raw := by
  obtain ⟨ev₁, hev₁, haccepted⟩ := haccepts
  obtain ⟨hk, hhash, -, hbusiness⟩ := AuthState.mem_of_findApiKey haccepted.found
  obtain ⟨qs, hrun⟩ := auth_sees_run run
  rw [← stateAt_eq_before (s := s.1) (getElem?_projected hev hev₁)] at hk
  rcases issued_of_run hrun _ hk with ⟨k₀, hk₀, -⟩ | hissued
  · rw [h₀] at hk₀
    cases hk₀
  · exact ⟨issuedAt_of_issued hissued, hbusiness, hhash⟩

/-- **A revoked key opens nothing**: a guarded request that has made no call before the key it
presents is revoked makes none behind the guard. -/
theorem revoked_key_is_not_served (h₀ : s₀.1.KeysValid)
    (run : Run allowed (fun i => (threads i).run config requestHash) s₀ hist ps s) {m : ℕ}
    (hm : m ≤ hist.length) {raw : String}
    (hrevoked : (stateAt hist s m).1.IsRevoked (AuthService.hashKey config.crypto raw)) {i : ι}
    {context : HttpContext} {handler : ApiKey → BusinessRow → Action Json}
    (hthread : threads i = .api (some raw) context handler) (hidle : callsOf i (hist.take m) = [])
    {ev : Event ι HttpState HttpEnv HttpCall} (hev : ev ∈ hist) (hwho : ev.who = i)
    (l : ServerCall) : ev.call ≠ .server l := by
  subst hwho
  intro hcall
  obtain ⟨n, hn⟩ := List.mem_iff_getElem?.1 hev
  obtain ⟨raw', k, b, hraw, j, r, hjn, hr, hwho, r₁, hrr₁, haccepted⟩ :=
    served_after_lookup run hn hthread hcall
  cases hraw
  -- its lookup comes after the key was revoked
  have hmj : m ≤ j := by
    by_contra hlt
    have hmem : r ∈ callsOf ev.who (hist.take m) := mem_callsOf_take.2 ⟨hwho, j, by omega, hr⟩
    rw [hidle] at hmem
    cases hmem
  obtain ⟨qs, hrun⟩ := auth_sees_run run
  rw [← stateAt_auth run hm] at hrevoked
  exact not_accepted_of_revoked hrun h₀ (ownBefore_mono authPart hist hmj) hrevoked
    (getElem?_projected hr hrr₁) haccepted

end Gate

/-! ### A key in use -/

namespace Sample

/-- A request for a new customer, with the key of zeros. -/
def keyedCustomer : HttpThread :=
  .api (some liveKey) { method := "POST", path := "/customers" } fun _ b =>
    (createCustomer { displayName := "Amina" } b.id).bind fun _ => .ret .null

/-- The key is created, used, and revoked; the last request comes too late. -/
def keyUse : Fin 4 → HttpThread
  | 0 => .auth (keyLife false)
  | 2 => .auth (keyLife true)
  | _ => keyedCustomer

def keyUseEnvs : List (Fin 4 × HttpEnv) :=
  [(0, {}), (0, { auth := { row := ⟨1, "key1"⟩ } }), (0, {}), (1, { auth := { now := 2 } }),
    (1, { auth := { now := 2 } }), (1, { service := { row := ⟨3, "cus1"⟩, row₂ := ⟨3, "name1"⟩ } }),
    (1, {}), (2, {}), (2, {}), (2, {}), (2, { auth := { now := 4 } }), (2, {}), (3, {})]

def keylessServer : HttpState := (keyless, { db := { businesses := [{ id := "biz1" }] } }, [])

def keyUseRun :
    List (Event (Fin 4) HttpState HttpEnv HttpCall) × (Fin 4 → HttpAction Unit) × HttpState :=
  exec (fun i => (keyUse i).run authConfig fun _ => "") keylessServer keyUseEnvs

theorem keyUse_isRun :
    Run (fun _ _ _ _ => True) (fun i => (keyUse i).run authConfig fun _ => "") keylessServer
      keyUseRun.1 keyUseRun.2.1 keyUseRun.2.2 :=
  Run.of_exec _ keylessServer keyUseEnvs fun _ _ => trivial

/-- The first call of the first request behind the guard. -/
theorem keyUse_served :
    ∃ ev l, keyUseRun.1[5]? = some ev ∧ ev.who = 1 ∧ ev.call = .server (.handler l) := by
  have hsome : (keyUseRun.1[5]?.bind fun ev =>
      if ev.who = 1 then worldPart.own ev.call else none) = some (.createCustomer "biz1" none) := by
    decide +kernel
  obtain ⟨ev, hev, hcall⟩ := Option.bind_eq_some_iff.1 hsome
  split at hcall
  next hwho => exact ⟨ev, _, hev, hwho, call_of_own_eq_some hcall⟩
  next => cases hcall

/-- Its lookup. -/
theorem keyUse_accepts :
    ∃ ev k b, keyUseRun.1[3]? = some ev ∧ Accepts ev (AuthService.hashKey digests liveKey) k b := by
  have hsome : (keyUseRun.1[3]?.bind fun ev => authPart.own ev.call) =
      some (.findApiKey (AuthService.hashKey digests liveKey)) := by decide +kernel
  have hfound : (keyUseRun.1[3]?.bind fun ev =>
      ev.before.1.findApiKey (AuthService.hashKey digests liveKey)) =
        some (AuthService.newApiKey digests { businessId := "biz1", name := "server" }
          { row := ⟨1, "key1"⟩ }, { id := "biz1", name := "AjoApp", email := "ops@ajo.app" }) := by
    decide +kernel
  obtain ⟨ev, hev, hown⟩ := Option.bind_eq_some_iff.1 hsome
  rw [hev, Option.bind_some] at hfound
  refine ⟨ev, _, _, hev, ⟨ev.who, _, ev.choice.auth, ev.before.1, ev.after.1⟩, ?_, rfl, hfound, rfl,
    fun t ht => by cases ht⟩
  rw [Event.projected, hown]
  rfl

end Sample

/-- The new customer was asked for with a good key. -/
theorem served_after_lookup_once :
    ∃ hist ps s, Run (fun _ _ _ _ => True)
        (fun i => (Sample.keyUse i).run Sample.authConfig fun _ => "") Sample.keylessServer hist ps s ∧
      ∃ raw k b, some Sample.liveKey = some raw ∧
        ∃ (m : ℕ) (r : Event (Fin 4) HttpState HttpEnv HttpCall), m < 5 ∧ hist[m]? = some r ∧
          r.who = 1 ∧ Accepts r (AuthService.hashKey Sample.digests raw) k b := by
  obtain ⟨ev, l, hev, hwho, hcall⟩ := Sample.keyUse_served
  have hthread : Sample.keyUse ev.who = Sample.keyedCustomer := by rw [hwho]; rfl
  have hserved := served_after_lookup Sample.keyUse_isRun hev hthread hcall
  rw [hwho] at hserved
  exact ⟨_, _, _, Sample.keyUse_isRun, hserved⟩

/-- The key was created by the first thread. -/
theorem served_key_was_issued_once :
    ∃ hist ps s, Run (fun _ _ _ _ => True)
        (fun i => (Sample.keyUse i).run Sample.authConfig fun _ => "") Sample.keylessServer hist ps s ∧
      ∃ k b, IssuedAt Sample.authConfig Sample.keyUse hist 3 k ∧ b = k.businessId := by
  obtain ⟨ev, k, b, hev, haccepts⟩ := Sample.keyUse_accepts
  obtain ⟨hissued, hbusiness, -⟩ := served_key_was_issued rfl Sample.keyUse_isRun hev haccepts
  exact ⟨_, _, _, Sample.keyUse_isRun, k, b.id, hissued, hbusiness⟩

/-- The last request is not served. -/
theorem revoked_key_is_not_served_afterwards :
    ∃ hist ps s, Run (fun _ _ _ _ => True)
        (fun i => (Sample.keyUse i).run Sample.authConfig fun _ => "") Sample.keylessServer hist ps s ∧
      ∀ ev ∈ hist, ev.who = 3 → ∀ l, ev.call ≠ .server l := by
  refine ⟨_, _, _, Sample.keyUse_isRun, fun ev hev hwho l => ?_⟩
  have hrevoked : (stateAt Sample.keyUseRun.1 Sample.keyUseRun.2.2 11).1.IsRevoked
      (AuthService.hashKey Sample.authConfig.crypto Sample.liveKey) := by decide +kernel
  have hidle : callsOf 3 (Sample.keyUseRun.1.take 11) = [] := by
    rw [callsOf, List.filter_eq_nil_iff]
    have hothers : ((Sample.keyUseRun.1.take 11).map Event.who).all (· ≠ 3) := by decide +kernel
    intro ev hev
    simpa using List.all_eq_true.1 hothers _ (List.mem_map_of_mem hev)
  exact revoked_key_is_not_served Sample.keyless_valid Sample.keyUse_isRun (by decide +kernel)
    hrevoked (by rfl) hidle hev hwho l

end AccountOS
