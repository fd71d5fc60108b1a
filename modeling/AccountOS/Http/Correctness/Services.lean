import AccountOS.Http.Correctness.Gate
import AccountOS.Tenancy.Correctness.Isolation

/-!
# The services behind the gate

* `services_see_run`: what the services see of a run of the server is a run of their own, in which
  every guarded request is its handler, for the key and the business that its lookup has found.
* `tenant_writes_behind_key`: so a guarded request changes rows of a business only after it has
  presented a good key of that business.
-/

namespace AccountOS

open Conc

section Services

variable {ι : Type} {config : AuthConfig} {requestHash : Json → String}

/-! ### The interceptor, as the services see it -/

/-- The calls of a handler behind the interceptor are its calls on the tables of the services. -/
theorem within_beside {α : Type} (p : Action α) :
    (p.beside ServerCall.handler).within servingPart = p.within worldPart := by
  induction p with
  | ret a => rfl
  | raise e => rfl
  | step l next cont ih =>
    simp only [Proc.beside, Proc.within, ih]
    rfl

section Simulates

variable {Fits : Event ι HttpState HttpEnv HttpCall → Prop} {i : ι}

/-- A call of the interceptor's own. -/
theorem silentTo_serving {α : Type} {l : ServerCall}
    {f : Env → ServerState → Except Error α × ServerState}
    (hl : ∀ l', l ≠ .handler l') (hf : ∀ env t, (f env t).2.1 = t.1) :
    ((Proc.call l f).within servingPart).SilentTo worldPart Fits i fun _ => True := by
  rw [Proc.within_call]
  refine Proc.SilentTo.call ?_ (fun c s => hf _ _) fun _ _ _ _ _ => trivial
  cases l with
  | handler l' => exact absurd rfl (hl l')
  | findIdempotencyKey | emit | replay | createIdempotencyKey => rfl

theorem silentTo_emit {result : Except Error Json} :
    ((emit result).within servingPart).SilentTo worldPart Fits i fun _ => True :=
  silentTo_serving (fun l' hl => by cases hl) fun _ _ => rfl

theorem silentTo_createIdempotencyKey {row : IdempotencyKey} :
    ((createIdempotencyKey row).within servingPart).SilentTo worldPart Fits i fun _ => True := by
  refine silentTo_serving (fun l' hl => by cases hl) fun env t => ?_
  cases env.fault with
  | some f => rfl
  | none =>
    simp only
    cases insertKey row t <;> rfl

theorem simulates_handle (handler : Action Json) {f : Except Error Json → Serving Unit}
    (hf : ∀ r, ((f r).within servingPart).SilentTo worldPart Fits i fun _ => True) :
    (((handle handler).bind f).within servingPart).Simulates worldPart Fits i handler := by
  rw [Proc.within_bind, handle, Proc.attempt, Proc.within_catching, Proc.within_bind, within_beside]
  refine Proc.Simulates.bind ?_ hf
  have hret : ∀ r : Except Error Json,
      ((.ret r : Serving (Except Error Json)).within servingPart).SilentTo worldPart Fits i
        fun _ => True := fun _ => trivial
  exact ((Proc.simulates_within handler).bind fun a => hret (.ok a)).catching fun e =>
    hret (.error e)

/-- What is behind the guard does on the tables of the services what the handler does. -/
theorem simulates_intercept (context : HttpContext) (handler : Action Json) :
    ((intercept requestHash context handler).within servingPart).Simulates worldPart Fits i
      handler := by
  unfold intercept
  split
  next => exact simulates_handle handler fun _ => silentTo_emit
  next q _ =>
    rw [Proc.bind_eq, Proc.within_bind]
    have hfind : ((findIdempotencyKey q.businessId q.key).within servingPart).SilentTo worldPart Fits i
        fun _ => True := by
      refine silentTo_serving (fun l' hl => by cases hl) fun env t => ?_
      cases env.fault <;> rfl
    refine hfind.simulates_bind fun existing _ => ?_
    cases existing with
    | some row =>
      simp only
      split
      · have hreplay : ((replay row.responseBody).within servingPart).SilentTo worldPart Fits i
            fun _ => True := silentTo_serving (fun l' hl => by cases hl) fun _ _ => rfl
        exact hreplay.simulates handler
      · trivial
    | none =>
      refine simulates_handle handler fun r => ?_
      rw [Proc.bind_eq, Proc.within_bind]
      refine silentTo_emit.bind fun _ _ => ?_
      cases r with
      | error e => trivial
      | ok body =>
        rw [Proc.within_catching]
        exact Proc.SilentTo.catching silentTo_createIdempotencyKey fun _ => trivial

end Simulates

/-! ### What the services see -/

/-- What a lookup has accepted is what the thread goes on as. -/
def Goes (who : ι → Option (ApiKey × BusinessRow)) (ev : Event ι HttpState HttpEnv HttpCall) : Prop :=
  ∀ h k b, Accepts ev h k b → who ev.who = some (k, b)

/-- In the runs in which it does, the server does on the tables of the services what its handlers do. -/
theorem simulates_service {who : ι → Option (ApiKey × BusinessRow)} {i : ι} (thread : HttpThread) :
    (thread.run config requestHash).Simulates worldPart (Goes who) i (thread.service (who i)) := by
  cases thread with
  | api rawKey context handler =>
    have hsilent : ((ApiKeyGuard.canActivate config rawKey).within authPart).SilentTo worldPart
        (Goes who) i fun _ => True := Proc.silentTo_within (fun _ => rfl) (fun _ _ => rfl) _
    have hguard : ((ApiKeyGuard.canActivate config rawKey).within authPart).Traced i _ _ _ [] :=
      Proc.Traced.within
        (traced_canActivate (show (AuthThread.guarded rawKey).rawKey = rawKey from rfl))
    refine (hsilent.of_traced hguard fun ev hev => by cases hev).simulates_bind ?_
    rintro ⟨k, b⟩ ⟨past, hpast, raw, -, r₁, hr₁, haccepted⟩
    obtain ⟨r, hr, hrr₁⟩ := List.mem_filterMap.1 hr₁
    obtain ⟨hwho, hgoes⟩ := hpast r hr
    have hi := hgoes _ k b ⟨r₁, hrr₁, haccepted⟩
    rw [hwho] at hi
    simp only [HttpThread.service, hi]
    exact simulates_intercept _ _
  | auth thread =>
    have hsilent : ((thread.run config).within authPart).SilentTo worldPart (Goes who) i
        fun _ => True := Proc.silentTo_within (fun _ => rfl) (fun _ _ => rfl) _
    exact hsilent.simulates _
  | background p =>
    show ((p.bind fun _ => (.ret () : Action Unit)).within worldPart).Simulates _ _ _ p
    rw [Proc.within_bind]
    exact (Proc.simulates_within p).bind (B := fun _ => True) fun _ => trivial

variable [DecidableEq ι] {threads : ι → HttpThread}
  {allowed : HttpCall → HttpEnv → HttpState → HttpState → Prop} {s₀ s : HttpState}
  {hist : List (Event ι HttpState HttpEnv HttpCall)} {ps : ι → HttpAction Unit}

/-- Each thread has been accepted for one business at most. -/
theorem exists_goes
    (run : Run allowed (fun i => (threads i).run config requestHash) s₀ hist ps s) :
    ∃ who : ι → Option (ApiKey × BusinessRow), (∀ ev ∈ hist, Goes who ev) ∧
      ∀ i k b, who i = some (k, b) →
        LookedUp config (threads i).authThread.rawKey (callsOf i (projected authPart hist)) k b := by
  classical
  obtain ⟨qs, hrun⟩ := auth_sees_run run
  let IsWho : ι → ApiKey × BusinessRow → Prop := fun i kb =>
    ∃ r ∈ projected authPart hist, r.who = i ∧ ∃ h, Accepted r h kb.1 kb.2
  refine ⟨fun i => if h : ∃ kb, IsWho i kb then some h.choose else none, fun ev hev h k b => ?_,
    fun i k b hi => ?_⟩
  · rintro ⟨r, hr, haccepted⟩
    have hmem : r ∈ projected authPart hist := List.mem_filterMap.2 ⟨ev, hev, hr⟩
    have hwho : r.who = ev.who := by
      obtain ⟨l, -, rfl⟩ := Option.map_eq_some_iff.1 hr
      rfl
    have hexists : ∃ kb, IsWho ev.who kb := ⟨(k, b), r, hmem, hwho, h, haccepted⟩
    obtain ⟨r', hmem', hwho', h', haccepted'⟩ := hexists.choose_spec
    -- there was one lookup
    have hsame : r' = r := lookup_unique hrun hmem hmem' (hwho'.trans hwho.symm) haccepted.call
      haccepted'.call
    rw [hsame] at haccepted'
    have hcall : h' = h := by
      have heq := haccepted'.call.symm.trans haccepted.call
      exact AuthCall.findApiKey.inj heq
    have hfound := haccepted'.found
    rw [hcall, haccepted.found] at hfound
    simp only [dif_pos hexists]
    exact hfound.symm
  · beta_reduce at hi
    split at hi
    next hexists =>
      obtain ⟨r, hmem, hwho, h, haccepted⟩ := hexists.choose_spec
      rw [Option.some.inj hi] at haccepted
      obtain ⟨n, hn⟩ := List.mem_iff_getElem?.1 hmem
      obtain ⟨-, raw, hraw, rfl⟩ := (authStep_of_run hrun hn).lookup h haccepted.call
      rw [hwho] at hraw
      exact ⟨raw, hraw, r, mem_callsOf.2 ⟨hwho, n, hn⟩, haccepted⟩
    next => cases hi

theorem services_run {allowed' : Call → Env → World → World → Prop}
    (hallowed : ∀ l c s s', allowed (.server (.handler l)) c s s' →
      allowed' l c.service s.2.1 s'.2.1)
    (run : Run allowed (fun i => (threads i).run config requestHash) s₀ hist ps s)
    {who : ι → Option (ApiKey × BusinessRow)} (hgoes : ∀ ev ∈ hist, Goes who ev) :
    ∃ qs, Run allowed' (fun i => (threads i).service (who i)) s₀.2.1 (projected worldPart hist) qs
      s.2.1 := by
  have hservices : ∀ l l₁ c (s s' : HttpState), worldPart.own l = some l₁ → allowed l c s s' →
      allowed' l₁ (worldPart.choice c) (worldPart.get s) (worldPart.get s') := by
    intro l l₁ c s s' hown
    rw [call_of_own_eq_some hown]
    exact hallowed l₁ c s s'
  obtain ⟨qs, hrun, -⟩ := run.projected hgoes hservices fun i => simulates_service (threads i)
  exact ⟨qs, hrun⟩

/-- **What the services see of a run of the server is a run of theirs**, in which a guarded request is
its handler, for a good row of the key that it presents and the business of that row; one whose key
has not been accepted does nothing there. -/
theorem services_see_run {allowed' : Call → Env → World → World → Prop}
    (hallowed : ∀ l c s s', allowed (.server (.handler l)) c s s' →
      allowed' l c.service s.2.1 s'.2.1)
    (run : Run allowed (fun i => (threads i).run config requestHash) s₀ hist ps s) :
    ∃ who : ι → Option (ApiKey × BusinessRow),
      (∀ i k b, who i = some (k, b) →
        LookedUp config (threads i).authThread.rawKey (callsOf i (projected authPart hist)) k b) ∧
      ∃ qs, Run allowed' (fun i => (threads i).service (who i)) s₀.2.1 (projected worldPart hist) qs
        s.2.1 := by
  obtain ⟨who, hgoes, hlooked⟩ := exists_goes run
  exact ⟨who, hlooked, services_run hallowed run hgoes⟩

/-! ### Tenants -/

/-- What the server runs on the tables of the services: requests of the API for the business of the
key, reads, and the jobs of the workers. -/
def HttpThread.ServesTenants (isUrl : String → Bool) : HttpThread → Prop
  | api _ _ handler => ∀ k b,
    (∃ r : ApiRequest, ((handler k b).bind fun _ => (.ret () : Action Unit)) = r.run isUrl b.id) ∨
      (handler k b).Keeps (fun _ env _ _ => ¬ IsCustomId env.row.id) fun w w' => w'.db = w.db
  | auth _ => True
  | background p => ∃ task : Task, task.businessId = none ∧
      (p.bind fun _ => (.ret () : Action Unit)) = task.run isUrl

/-- The business that the thread writes for on these tables. -/
def HttpThread.actsFor (kb : Option (ApiKey × BusinessRow)) : HttpThread → Option String
  | api _ _ _ => kb.map fun kb => kb.2.id
  | _ => none

/-- A handler without its answer. -/
theorem serves_of_bind_ret {α : Type} {who : ι → Option String} {i : ι} {p : Action α} {w : World}
    (h : Serves who i (p.bind fun _ => (.ret () : Action Unit)) w) : Serves who i p w :=
  Proc.Wp.of_bind_ret h

theorem serves_service {isUrl : String → Bool} {thread : HttpThread} (h : thread.ServesTenants isUrl)
    {kb : Option (ApiKey × BusinessRow)} {who : ι → Option String} {i : ι}
    (hi : who i = thread.actsFor kb) {w : World} : Serves who i (thread.service kb) w := by
  cases thread with
  | api rawKey context handler =>
    cases kb with
    | none => exact .ret
    | some kb =>
      obtain ⟨k, b⟩ := kb
      rcases h k b with ⟨r, hr⟩ | hreads
      · exact serves_of_bind_ret (hr ▸ serves_request hi r)
      · exact .idle hreads
  | auth thread => exact .ret
  | background p =>
    obtain ⟨task, htask, hp⟩ := h
    exact serves_of_bind_ret (hp ▸ serves_task task (hi.trans htask.symm))

/-- **A tenant's rows are written behind its keys**: a call of a guarded request that changes what
belongs to a business comes after the request's own lookup of a good key of that business. -/
theorem tenant_writes_behind_key {isUrl : String → Bool} (h₀ : s₀.2.1.db.Tenanted)
    (hthreads : ∀ i, (threads i).ServesTenants isUrl)
    (run : Run (fun _ c _ _ => ¬ IsCustomId c.service.row.id)
      (fun i => (threads i).run config requestHash) s₀ hist ps s) {n : ℕ}
    {ev : Event ι HttpState HttpEnv HttpCall} (hev : hist[n]? = some ev) {rawKey : Option String}
    {context : HttpContext} {handler : ApiKey → BusinessRow → Action Json}
    (hthread : threads ev.who = .api rawKey context handler) {B : String}
    (hchanged : ev.after.2.1.db.tenant B ≠ ev.before.2.1.db.tenant B) :
    ∃ raw k b, rawKey = some raw ∧ b.id = B ∧
      ∃ (m : ℕ) (r : Event ι HttpState HttpEnv HttpCall), m < n ∧ hist[m]? = some r ∧
        r.who = ev.who ∧ Accepts r (AuthService.hashKey config.crypto raw) k b := by
  obtain ⟨who, hgoes, -⟩ := exists_goes run
  have hmem : ev ∈ hist := List.mem_of_getElem? hev
  cases hown : worldPart.own ev.call with
  | none =>
    have hsame := run.get_eq_of_own_eq_none hgoes (fun i => simulates_service (threads i)) hmem hown
    have hworld : ev.after.2.1 = ev.before.2.1 := hsame
    rw [hworld] at hchanged
    exact absurd rfl hchanged
  | some l =>
    obtain ⟨raw, k, b, hraw, m, r, hmn, hm, hwho, haccepts⟩ :=
      served_after_lookup run hev hthread (call_of_own_eq_some hown)
    have hgoes' := hgoes r (List.mem_of_getElem? hm) _ k b haccepts
    rw [hwho] at hgoes'
    refine ⟨raw, k, b, hraw, ?_, m, r, hmn, hm, hwho, haccepts⟩
    -- for the services, the thread is a request of the business `b`
    have hserves : ∀ i, Serves (fun i => (threads i).actsFor (who i)) i
        ((threads i).service (who i)) s₀.2.1 := fun i => serves_service (hthreads i) (by rfl)
    have hservices : ∃ qs, Run (fun _ env _ _ => ¬ IsCustomId env.row.id)
        (fun i => (threads i).service (who i)) s₀.2.1 (projected worldPart hist) qs s.2.1 :=
      services_run (fun _ _ _ _ h => h) run hgoes
    obtain ⟨qs, hrun⟩ := hservices
    have hwritten := (Contract.sound (C := tenancy fun i => (threads i).actsFor (who i)) h₀
      (fun i => (hserves i).mono (fun _ _ _ => trivial) fun _ _ _ => trivial) hrun).2 _
      (mem_projected hmem hown)
    by_contra hne
    have hA : b.id ∈ (threads ev.who).actsFor (who ev.who) := by
      rw [hthread, hgoes']
      rfl
    exact hchanged (hwritten.2.others b.id hA B (Ne.symm hne))

end Services

/-! ### A key in use, again -/

namespace Sample

theorem keyUse_isTenantRun :
    Run (fun _ c _ _ => ¬ IsCustomId c.service.row.id)
      (fun i => (keyUse i).run authConfig fun _ => "") keylessServer keyUseRun.1 keyUseRun.2.1
      keyUseRun.2.2 := by
  refine Run.of_exec _ keylessServer keyUseEnvs fun ev hev => ?_
  have hchoices : ∀ turn ∈ keyUseEnvs, ¬ IsCustomId turn.2.service.row.id := by decide +kernel
  exact hchoices _ (mem_of_mem_exec _ _ _ ev hev)

theorem keyUse_servesTenants (i : Fin 4) : (keyUse i).ServesTenants fun _ => true := by
  have hcustomer : keyedCustomer.ServesTenants fun _ => true := by
    refine fun _ b => .inl ⟨.createCustomer { displayName := "Amina" }, ?_⟩
    rw [Proc.bind_bind]
    rfl
  match i with
  | 0 => trivial
  | 1 => exact hcustomer
  | 2 => trivial
  | 3 => exact hcustomer

end Sample

/-- The services see a run in which the first request is one of the first business. -/
theorem services_see_run_once :
    ∃ who : Fin 4 → Option (ApiKey × BusinessRow),
      (∀ i k b, who i = some (k, b) → LookedUp Sample.authConfig (Sample.keyUse i).authThread.rawKey
        (callsOf i (projected authPart Sample.keyUseRun.1)) k b) ∧
      ∃ qs, Run (fun _ env _ _ => ¬ IsCustomId env.row.id) (fun i => (Sample.keyUse i).service (who i))
        Sample.keylessServer.2.1 (projected worldPart Sample.keyUseRun.1) qs
        Sample.keyUseRun.2.2.2.1 :=
  services_see_run (fun _ _ _ _ h => h) Sample.keyUse_isTenantRun

/-- The new customer is one of the business of the key. -/
theorem tenant_writes_behind_key_once :
    ∃ hist ps s, Run (fun _ c _ _ => ¬ IsCustomId c.service.row.id)
        (fun i => (Sample.keyUse i).run Sample.authConfig fun _ => "") Sample.keylessServer hist ps s ∧
      ∃ raw k b, some Sample.liveKey = some raw ∧ b.id = "biz1" ∧
        ∃ (m : ℕ) (r : Event (Fin 4) HttpState HttpEnv HttpCall), m < 5 ∧ hist[m]? = some r ∧
          r.who = 1 ∧ Accepts r (AuthService.hashKey Sample.digests raw) k b := by
  obtain ⟨ev, l, hev, hwho, -⟩ := Sample.keyUse_served
  have hthread : Sample.keyUse ev.who = Sample.keyedCustomer := by rw [hwho]; rfl
  have hcounts : (Sample.keyUseRun.1[5]?.map fun ev =>
      ((ev.before.2.1.db.tenant "biz1").customers.length,
        (ev.after.2.1.db.tenant "biz1").customers.length)) = some (0, 1) := by decide +kernel
  have hchanged : ev.after.2.1.db.tenant "biz1" ≠ ev.before.2.1.db.tenant "biz1" := by
    intro hsame
    rw [hev, Option.map_some, hsame] at hcounts
    have hpair := Prod.mk.inj (Option.some.inj hcounts)
    omega
  have hbehind := tenant_writes_behind_key (tenanted_fresh _) Sample.keyUse_servesTenants
    Sample.keyUse_isTenantRun hev hthread hchanged
  rw [hwho] at hbehind
  exact ⟨_, _, _, Sample.keyUse_isTenantRun, hbehind⟩

end AccountOS
