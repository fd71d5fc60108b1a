import AccountOS.Nomba.NombaClient
import AccountOS.Auth.Correctness.Credentials

/-!
# The tokens of the Nomba client

* `nomba_request_authorised`: however the methods of the client overlap, a request for a business
  carries its account id, and a token that Nomba has issued for its credentials; a token of another
  call had more than a minute left when it was taken from the cache.
-/

namespace AccountOS

open Conc NombaClient

section Tokens

variable {ι : Type} {config : NombaConfig} {thread : NombaThread}
  {past : List (Event ι NombaState NombaEnv NombaCall)} {ev : Event ι NombaState NombaEnv NombaCall}
  {i : ι}

/-! ### What a call can do -/

/-- The call has obtained a token for a business. -/
structure Issues (config : NombaConfig) (ev : Event ι NombaState NombaEnv NombaCall)
    (businessId : String) (entry : TokenEntry) : Prop where
  call : ∃ request, ev.call = .issueToken businessId request
  answer : ∃ data, ev.choice.token = .ok (some data) ∧ data.accessToken = entry.token ∧
    config.parseDate data.expiresAt = entry.expiresAt

/-- The thread has a token for its business: it has found it in the cache, or obtained it. -/
def HasToken (config : NombaConfig) (thread : NombaThread)
    (past : List (Event ι NombaState NombaEnv NombaCall)) (token : String) : Prop :=
  (∃ r ∈ past, r.call = .readCache thread.business.id ∧
    freshToken r.choice.now (r.before.tokenCache thread.business.id) = some token) ∨
  ∃ c ∈ past, ∃ entry, Issues config c thread.business.id entry ∧ entry.token = token

/-- Nothing but tokens has been asked for. -/
def NothingSent (past : List (Event ι NombaState NombaEnv NombaCall)) : Prop :=
  ∀ x ∈ past, ∀ request, x.call ≠ .send request

theorem NothingSent.concat (h : NothingSent past) (hev : ∀ request, ev.call ≠ .send request) :
    NothingSent (past ++ [ev]) := by
  intro x hx
  rcases List.mem_append.1 hx with hx | hx
  · exact h x hx
  · rw [List.mem_singleton.1 hx]
    exact hev

/-- What a method makes of the reply to its request. -/
def NombaThread.answered (config : NombaConfig) (thread : NombaThread) (env : NombaEnv) :
    Except Error NombaResult :=
  match thread.method with
  | .getToken => .error (noData "")
  | .provisionDva _ => (NombaReply.data "accountRef" "Nomba DVA provisioning failed" env.dva).map
      fun data => .dva ⟨data.accountRef, data.bankAccountNumber, data.bankName, data.accountName,
        data.bankAccountName⟩
  | .transferFunds _ => (NombaReply.data "id" "Nomba wallet transfer failed" env.wallet).map
      fun data => .transfer ⟨data.id, data.status, some data.amount, data.fee⟩
  | .bankTransfer _ => (NombaReply.data "id" "Nomba bank transfer failed" env.bank).map
      fun data => .transfer ⟨data.id, data.status, config.parseNumber data.amount, data.fee⟩
  | .expireAccount _ => (NombaReply.received "Nomba account expiry failed" env.expiry).map
      fun _ => .expired

/-- What a call of the client does, with the calls that its thread has made before. -/
structure NombaStep (config : NombaConfig) (thread : NombaThread)
    (past : List (Event ι NombaState NombaEnv NombaCall))
    (ev : Event ι NombaState NombaEnv NombaCall) : Prop where
  live : config.isMock = false ∨ ev.call = .mock
  issued : ∀ id request, ev.call = .issueToken id request → id = thread.business.id ∧
    ∃ creds, AuthService.getDecryptedCredentials config.auth thread.business = .ok creds ∧
      request = tokenRequest creds
  sent : ∀ request, ev.call = .send request → NothingSent past ∧ ∃ token account,
    request.headers = authHeaders token account ∧ thread.business.nombaAccountId = some account ∧
      account ≠ "" ∧ HasToken config thread past token
  cache : ev.after.tokenCache = ev.before.tokenCache ∨ ∃ entry,
    Issues config ev thread.business.id entry ∧ ev.after.tokenCache =
      Function.update ev.before.tokenCache thread.business.id (some entry)

/-- A thread has returned: in live mode, with what the reply to its request gives. -/
def ReturnsReply (config : NombaConfig) (thread : NombaThread) (result : NombaResult)
    (past : List (Event ι NombaState NombaEnv NombaCall)) : Prop :=
  config.isMock = false → thread.method ≠ .getToken → ∃ ev ∈ past,
    (∃ request, ev.call = .send request) ∧ thread.answered config ev.choice = .ok result

/-- A thread has thrown: if it has sent its request, the error is the reply's. -/
def ThrowsReply (config : NombaConfig) (thread : NombaThread) (e : Error)
    (past : List (Event ι NombaState NombaEnv NombaCall)) : Prop :=
  ∀ ev ∈ past, ∀ request, ev.call = .send request → thread.answered config ev.choice = .error e

theorem NothingSent.thrown (h : NothingSent past) (e : Error) : ThrowsReply config thread e past :=
  fun ev hev request hcall => absurd hcall (h ev hev request)

/-! ### The methods -/

theorem reply_data_eq_ok {δ : Type} {name fallbackMessage : String} {reply : NombaReply δ} {data : δ}
    (h : NombaReply.data name fallbackMessage reply = .ok data) : reply = .ok (some data) := by
  cases reply with
  | ok found =>
    cases found with
    | none => cases h
    | some found =>
      cases h
      rfl
  | refused | unanswered => cases h

theorem traced_getToken (hlive : config.isMock = false) {E : Error → List _ → Prop}
    (hE : ∀ e past, NothingSent past → E e past) :
    (getToken config thread.business).Traced i (NombaStep config thread)
      (fun token past => HasToken config thread past token ∧ NothingSent past) E [] := by
  unfold getToken
  rw [if_neg (by simp [hlive])]
  have hnothing : NothingSent ([] : List (Event ι NombaState NombaEnv NombaCall)) :=
    fun x hx => by cases hx
  refine Proc.Traced.bind (Proc.Traced.call fun c s => ⟨?_, fun cached hcached => ?_,
    fun e he => by cases he⟩)
  · exact ⟨.inl hlive, fun _ _ h => (by cases h), fun _ h => (by cases h), .inl rfl⟩
  · obtain rfl := Except.ok.inj hcached
    have hread : NothingSent ([] ++ [(⟨i, .readCache thread.business.id, c, s, s⟩ :
        Event ι NombaState NombaEnv NombaCall)]) := hnothing.concat fun _ h => by cases h
    cases hfresh : freshToken c.now (s.tokenCache thread.business.id) with
    | some token =>
      exact ⟨.inl ⟨_, List.mem_append_right _ List.mem_cons_self, rfl, hfresh⟩, hread⟩
    | none =>
      refine Proc.Traced.bind (Proc.traced_ofExcept.2 ⟨fun creds hcreds => ?_,
        fun e _ => hE e _ hread⟩)
      have hasked : ∀ (c' : NombaEnv) (s' s'' : NombaState), NothingSent (_ ++
          [(⟨i, .issueToken thread.business.id (tokenRequest creds), c', s', s''⟩ :
            Event ι NombaState NombaEnv NombaCall)]) :=
        fun c' s' s'' => hread.concat fun _ h => by cases h
      refine Proc.Traced.call fun c' s' => ?_
      cases hreply : NombaReply.data "expiresAt" "Failed to obtain Nomba OAuth2 token" c'.token with
      | error e =>
        refine ⟨⟨.inl hlive, fun id request h => ?_, fun _ h => (by cases h), .inl rfl⟩,
          fun a ha => (by cases ha), fun e _ => hE e _ (hasked _ _ _)⟩
        cases h
        exact ⟨rfl, creds, hcreds, rfl⟩
      | ok data =>
        have hissues : ∀ s'' : NombaState, Issues config
            (⟨i, .issueToken thread.business.id (tokenRequest creds), c', s', s''⟩ :
              Event ι NombaState NombaEnv NombaCall) thread.business.id
            ⟨data.accessToken, config.parseDate data.expiresAt⟩ := fun s'' =>
          ⟨⟨_, rfl⟩, data, reply_data_eq_ok hreply, rfl, rfl⟩
        refine ⟨⟨.inl hlive, fun id request h => ?_, fun _ h => (by cases h),
          .inr ⟨_, hissues _, rfl⟩⟩, fun token htoken => ?_, fun e he => by cases he⟩
        · cases h
          exact ⟨rfl, creds, hcreds, rfl⟩
        · cases htoken
          exact ⟨.inr ⟨_, List.mem_append_right _ List.mem_cons_self, _, hissues _, rfl⟩,
            hasked _ _ _⟩

theorem getNombaAccountId_eq_ok {b : BusinessRow} {account : String}
    (h : getNombaAccountId b = .ok account) : b.nombaAccountId = some account ∧ account ≠ "" := by
  unfold getNombaAccountId at h
  split at h
  next htruthy =>
    obtain ⟨t, ht, hne⟩ := isTruthy_iff.1 htruthy
    rw [ht] at h
    cases h
    exact ⟨ht, hne⟩
  next => cases h

/-- The request of a thread that has its token. -/
theorem traced_send {α : Type} (hlive : config.isMock = false) {token account : String}
    (haccount : getNombaAccountId thread.business = .ok account)
    (htoken : HasToken config thread past token) (hnothing : NothingSent past) {request : NombaRequest}
    (hrequest : request.headers = authHeaders token account) {f : NombaEnv → Except Error α}
    {g : α → NombaResult} (hanswered : ∀ env, thread.answered config env = (f env).map g) :
    (Proc.call (.send request) fun env s => (f env, s) : NombaAction α).Traced i
      (NombaStep config thread) (fun a => ReturnsReply config thread (g a))
      (ThrowsReply config thread) past := by
  refine Proc.Traced.call fun c s => ⟨⟨.inl hlive, fun id request h => (by cases h),
    fun request' h => ?_, .inl rfl⟩, fun a ha _ _ => ?_, fun e he ev hev request' hcall => ?_⟩
  · cases h
    obtain ⟨hsome, hne⟩ := getNombaAccountId_eq_ok haccount
    exact ⟨hnothing, token, account, hrequest, hsome, hne, htoken⟩
  · refine ⟨_, List.mem_append_right _ List.mem_cons_self, ⟨request, rfl⟩, ?_⟩
    have hreply : f c = .ok a := ha
    rw [hanswered, hreply]
    rfl
  · -- it is the only request
    rcases List.mem_append.1 hev with hev | hev
    · exact absurd hcall (hnothing ev hev request')
    · have hreply : f c = .error e := he
      rw [List.mem_singleton.1 hev, hanswered, hreply]
      rfl

/-- What all requests begin with: the token, and the account id. -/
theorem traced_withToken {α : Type} (hlive : config.isMock = false)
    {f : String → String → NombaAction α}
    {Q : α → List (Event ι NombaState NombaEnv NombaCall) → Prop}
    (hf : ∀ token account past, getNombaAccountId thread.business = .ok account →
      HasToken config thread past token → NothingSent past →
        (f token account).Traced i (NombaStep config thread) Q (ThrowsReply config thread) past) :
    ((getToken config thread.business).bind fun token =>
      (Proc.ofExcept (getNombaAccountId thread.business)).bind fun account =>
        f token account).Traced i (NombaStep config thread) Q (ThrowsReply config thread) [] := by
  refine Proc.Traced.bind (Proc.Traced.mono (fun token past htoken => ?_) (fun _ _ h => h)
    (traced_getToken hlive fun e _ hnothing => hnothing.thrown e))
  exact Proc.Traced.bind (Proc.traced_ofExcept.2
    ⟨fun account haccount => hf token account past haccount htoken.1 htoken.2,
      fun e _ => htoken.2.thrown e⟩)

/-- In mock mode there is one call at most, of the clock. -/
theorem traced_mock (hmock : config.isMock = true) :
    (thread.run config).Traced i (NombaStep config thread) (ReturnsReply config thread)
      (ThrowsReply config thread) [] := by
  have hreturned : ∀ result (past : List (Event ι NombaState NombaEnv NombaCall)),
      ReturnsReply config thread result past := by
    intro result past hlive
    rw [hmock] at hlive
    cases hlive
  have hcall : ∀ {α : Type} {f : NombaEnv → NombaState → α} {g : α → NombaResult},
      ((Proc.call .mock fun env s => (.ok (f env s), s)).bind fun a => .ret (g a) :
        NombaAction NombaResult).Traced i (NombaStep config thread) (ReturnsReply config thread)
          (ThrowsReply config thread) [] := fun {α f g} =>
    Proc.Traced.bind (Proc.Traced.call fun c s =>
      ⟨⟨.inr rfl, fun _ _ h => (by cases h), fun _ h => (by cases h), .inl rfl⟩,
        fun a _ => hreturned (g a) _, fun e he => by cases he⟩)
  obtain ⟨business, method⟩ := thread
  cases method with
  | getToken =>
    simp only [NombaThread.run, getToken, hmock, if_true]
    exact hreturned _ _
  | provisionDva dto =>
    simp only [NombaThread.run, NombaClient.provisionDva, hmock, if_true]
    exact hcall
  | transferFunds dto =>
    simp only [NombaThread.run, transferFunds, hmock, if_true]
    exact hcall
  | bankTransfer dto =>
    simp only [NombaThread.run, NombaClient.bankTransfer, hmock, if_true]
    exact hcall
  | expireAccount accountIdentifier =>
    simp only [NombaThread.run, expireAccount, hmock, if_true]
    exact hreturned _ _

/-- Every method keeps to `NombaStep`, and ends as the reply to its request says. -/
theorem traced_nombaThread (thread : NombaThread) :
    (thread.run config).Traced i (NombaStep config thread) (ReturnsReply config thread)
      (ThrowsReply config thread) [] := by
  cases hmock : config.isMock with
  | true => exact traced_mock hmock
  | false =>
    obtain ⟨business, method⟩ := thread
    cases method with
    | getToken =>
      simp only [NombaThread.run]
      exact Proc.Traced.bind (Proc.Traced.mono (fun _ _ _ _ hne => absurd rfl hne) (fun _ _ h => h)
        (traced_getToken hmock fun e _ hnothing => hnothing.thrown e))
    | provisionDva dto =>
      simp only [NombaThread.run, NombaClient.provisionDva, hmock, Bool.false_eq_true, if_false]
      refine Proc.Traced.bind (traced_withToken hmock ?_)
      intro token account past haccount htoken hnothing
      refine Proc.Traced.bind (Proc.traced_ofExcept.2 ⟨fun sub _ => ?_, fun e _ => hnothing.thrown e⟩)
      exact Proc.Traced.bind (traced_send hmock haccount htoken hnothing rfl fun _ => rfl)
    | transferFunds dto =>
      simp only [NombaThread.run, transferFunds, hmock, Bool.false_eq_true, if_false]
      refine Proc.Traced.bind (traced_withToken hmock ?_)
      intro token account past haccount htoken hnothing
      exact Proc.Traced.bind (traced_send hmock haccount htoken hnothing rfl fun _ => rfl)
    | bankTransfer dto =>
      simp only [NombaThread.run, NombaClient.bankTransfer, hmock, Bool.false_eq_true, if_false]
      refine Proc.Traced.bind (traced_withToken hmock ?_)
      intro token account past haccount htoken hnothing
      exact Proc.Traced.bind (traced_send hmock haccount htoken hnothing rfl fun _ => rfl)
    | expireAccount accountIdentifier =>
      simp only [NombaThread.run, expireAccount, hmock, Bool.false_eq_true, if_false]
      refine Proc.Traced.bind (traced_withToken hmock ?_)
      intro token account past haccount htoken hnothing
      refine traced_send hmock haccount htoken hnothing rfl fun env => ?_
      simp only [NombaThread.answered]
      cases NombaReply.received "Nomba account expiry failed" env.expiry <;> rfl

/-! ### Runs -/

variable [DecidableEq ι] {threads : ι → NombaThread}
  {allowed : NombaCall → NombaEnv → NombaState → NombaState → Prop} {s₀ s : NombaState}
  {hist : List (Event ι NombaState NombaEnv NombaCall)} {ps : ι → NombaAction NombaResult}

theorem nombaStep_of_run (run : Run allowed (fun i => (threads i).run config) s₀ hist ps s) {n : ℕ}
    {ev : Event ι NombaState NombaEnv NombaCall} (hev : hist[n]? = some ev) :
    NombaStep config (threads ev.who) (callsOf ev.who (hist.take n)) ev :=
  (run.traced fun i => traced_nombaThread (threads i)).1 n ev hev

/-- A cached token was obtained for the business that it is cached for. -/
theorem cached_token_was_issued (h₀ : s₀.tokenCache = fun _ => none)
    (run : Run allowed (fun i => (threads i).run config) s₀ hist ps s) (n : ℕ) {id : String}
    {entry : TokenEntry} (hentry : (stateAt hist s n).tokenCache id = some entry) :
    ∃ (m : ℕ) (c : Event ι NombaState NombaEnv NombaCall), m < n ∧ hist[m]? = some c ∧
      Issues config c id entry := by
  by_contra hnone
  -- it was not there at first, so a call has put it there
  have hfirst : ¬ (stateAt hist s 0).tokenCache id = some entry := by
    rw [run.stateAt_zero, h₀]
    exact fun h => by cases h
  obtain ⟨k, ev, -, hkn, hev, hbefore, hafter⟩ := run.exists_change
    (P := fun s => ¬ s.tokenCache id = some entry) (Nat.zero_le n) hfirst (fun h => h hentry)
  rcases (nombaStep_of_run run hev).cache with hsame | ⟨entry', hissues, hupdate⟩
  · rw [hsame] at hafter
    exact hafter hbefore
  · rw [hupdate] at hafter
    by_cases hid : id = (threads ev.who).business.id
    · rw [hid, Function.update_self] at hafter
      rw [← hid, Option.some.inj (not_not.1 hafter)] at hissues
      exact hnone ⟨k, ev, hkn, hev, hissues⟩
    · rw [Function.update_of_ne hid] at hafter
      exact hafter hbefore

theorem freshToken_eq_some {now : Int} {found : Option TokenEntry} {token : String}
    (h : freshToken now found = some token) :
    ∃ entry t, found = some entry ∧ entry.token = token ∧ entry.expiresAt = some t ∧
      now + 60000 < t := by
  obtain ⟨entry, hentry, h⟩ := Option.bind_eq_some_iff.1 h
  split at h
  next hfresh =>
    obtain ⟨t, ht, hlt⟩ := hfresh
    exact ⟨entry, t, hentry, Option.some.inj h, ht, by omega⟩
  next => cases h

/-- **A request to Nomba is authorised for its business**: in live mode only, with the account id of
the row, and with a token that was issued, at an earlier call of the run, for the credentials of a row
of the same business. If another thread has asked for it, it had more than a minute left when this
one took it from the cache. -/
theorem nomba_request_authorised (h₀ : s₀.tokenCache = fun _ => none)
    (run : Run allowed (fun i => (threads i).run config) s₀ hist ps s) {n : ℕ}
    {ev : Event ι NombaState NombaEnv NombaCall} (hev : hist[n]? = some ev) {request : NombaRequest}
    (hcall : ev.call = .send request) :
    config.isMock = false ∧ ∃ account entry, request.headers = authHeaders entry.token account ∧
      (threads ev.who).business.nombaAccountId = some account ∧ account ≠ "" ∧
      ∃ (m : ℕ) (c : Event ι NombaState NombaEnv NombaCall), m < n ∧ hist[m]? = some c ∧
        Issues config c (threads ev.who).business.id entry ∧
        (threads c.who).business.id = (threads ev.who).business.id ∧
        (∃ creds, AuthService.getDecryptedCredentials config.auth (threads c.who).business = .ok creds ∧
          c.call = .issueToken (threads c.who).business.id (tokenRequest creds)) ∧
        (c.who = ev.who ∨ ∃ r ∈ callsOf ev.who (hist.take n),
          r.call = .readCache (threads ev.who).business.id ∧
            r.before.tokenCache (threads ev.who).business.id = some entry ∧
              ∃ t, entry.expiresAt = some t ∧ r.choice.now + 60000 < t) := by
  have hstep := nombaStep_of_run run hev
  have hlive : config.isMock = false := by
    rcases hstep.live with hlive | hmock
    · exact hlive
    · rw [hcall] at hmock
      cases hmock
  -- whoever has asked for a token has done so for its own business
  have hissuer : ∀ {m : ℕ} {c : Event ι NombaState NombaEnv NombaCall} {id : String}
      {entry : TokenEntry}, hist[m]? = some c → Issues config c id entry →
        (threads c.who).business.id = id ∧ ∃ creds,
          AuthService.getDecryptedCredentials config.auth (threads c.who).business = .ok creds ∧
            c.call = .issueToken (threads c.who).business.id (tokenRequest creds) := by
    intro m c id entry hc hissues
    obtain ⟨request', hcall'⟩ := hissues.call
    obtain ⟨rfl, creds, hcreds, rfl⟩ := (nombaStep_of_run run hc).issued _ _ hcall'
    exact ⟨rfl, creds, hcreds, hcall'⟩
  obtain ⟨-, token, account, hheaders, haccount, hne, htoken⟩ := hstep.sent request hcall
  refine ⟨hlive, account, ?_⟩
  rcases htoken with ⟨r, hr, hread, hfresh⟩ | ⟨c, hc, entry, hissues, rfl⟩
  · obtain ⟨entry, t, hentry, rfl, ht, hlt⟩ := freshToken_eq_some hfresh
    obtain ⟨-, l, hln, hl⟩ := mem_callsOf_take.1 hr
    have hcached : (stateAt hist s l).tokenCache (threads ev.who).business.id = some entry := by
      rw [stateAt_eq_before hl]
      exact hentry
    obtain ⟨m, c, hml, hm, hissues⟩ := cached_token_was_issued h₀ run l hcached
    obtain ⟨hid, hcreds⟩ := hissuer hm hissues
    exact ⟨entry, hheaders, haccount, hne, m, c, by omega, hm, hissues, hid, hcreds,
      .inr ⟨r, hr, hread, hentry, t, ht, hlt⟩⟩
  · obtain ⟨hwho, m, hmn, hm⟩ := mem_callsOf_take.1 hc
    obtain ⟨hid, hcreds⟩ := hissuer hm hissues
    exact ⟨entry, hheaders, haccount, hne, m, c, hmn, hm, hissues, hid, hcreds, .inl hwho⟩

/-- **Each method sends its request once, and ends with the reply to it.** When it returns, the request
was answered with what it returns; when it throws, the request was not sent, or was answered with the
error. -/
theorem nomba_method_ends_as_answered
    (run : Run allowed (fun i => (threads i).run config) s₀ hist ps s) (i : ι) :
    (∀ (m n : ℕ) (ev ev' : Event ι NombaState NombaEnv NombaCall) request request',
      hist[m]? = some ev → hist[n]? = some ev' → ev.who = i → ev'.who = i →
        ev.call = .send request → ev'.call = .send request' → m = n) ∧
    (∀ result, config.isMock = false → (threads i).method ≠ .getToken → ps i = .ret result →
      ∃ (n : ℕ) (ev : Event ι NombaState NombaEnv NombaCall), hist[n]? = some ev ∧ ev.who = i ∧
        (∃ request, ev.call = .send request) ∧ (threads i).answered config ev.choice = .ok result) ∧
    ∀ e, ps i = .raise e → ∀ (n : ℕ) (ev : Event ι NombaState NombaEnv NombaCall), hist[n]? = some ev →
      ev.who = i → ∀ request, ev.call = .send request →
        (threads i).answered config ev.choice = .error e := by
  have hstate := (run.traced fun i => traced_nombaThread (threads i)).2 i
  -- the later of two requests would have been sent after another one
  have hlater : ∀ (m n : ℕ) (ev ev' : Event ι NombaState NombaEnv NombaCall) request request',
      m < n → hist[m]? = some ev → hist[n]? = some ev' → ev.who = i → ev'.who = i →
        ev.call = .send request → ev'.call = .send request' → False := by
    intro m n ev ev' request request' hlt hm hn hwho hwho' hcall hcall'
    obtain ⟨hnothing, -⟩ := (nombaStep_of_run run hn).sent request' hcall'
    refine hnothing ev ?_ request hcall
    rw [mem_callsOf_take, hwho, hwho']
    exact ⟨rfl, m, hlt, hm⟩
  refine ⟨fun m n ev ev' request request' hm hn hwho hwho' hcall hcall' => ?_,
    fun result hlive hmethod hret => ?_, fun e hraise n ev hev hwho request hcall => ?_⟩
  · rcases Nat.lt_trichotomy m n with hlt | heq | hlt
    · exact (hlater m n ev ev' request request' hlt hm hn hwho hwho' hcall hcall').elim
    · exact heq
    · exact (hlater n m ev' ev request' request hlt hn hm hwho' hwho hcall' hcall).elim
  · rw [hret] at hstate
    obtain ⟨ev, hev, hcall, hanswered⟩ := hstate hlive hmethod
    obtain ⟨hwho, n, hn⟩ := mem_callsOf.1 hev
    exact ⟨n, ev, hn, hwho, hcall, hanswered⟩
  · rw [hraise] at hstate
    exact hstate ev (mem_callsOf.2 ⟨hwho, n, hev⟩) request hcall

end Tokens

/-! ### A run -/

namespace Sample

def liveNomba : NombaConfig where
  auth := sealedConfig
  isMock := false
  parseDate text := if text = "2026-07-01T12:00:00Z" then some 1782907200000 else none
  parseNumber text := if text = "2500" then some 2500 else none

/-- A payout and a wallet transfer of the same business. -/
def twoTransfers (i : Bool) : NombaThread :=
  if i then ⟨sealedBusiness, .transferFunds ⟨100, "acc2", "txn_2", none⟩⟩
  else ⟨sealedBusiness, .bankTransfer
    { amount := 2500, accountNumber := "0123456789", accountName := "Ada", bankCode := "058",
      merchantTxRef := "txn_1", narration := none }⟩

/-- The payout obtains a token, the wallet transfer finds it in the cache, and both are sent. -/
def transferEnvs : List (Bool × NombaEnv) :=
  [(false, { now := 1782903600000 }),
    (false, { token := .ok (some ⟨"tok1", "2026-07-01T12:00:00Z"⟩) }),
    (true, { now := 1782903601000 }),
    (true, { wallet := .ok (some ⟨"trf2", 100, 0, "SUCCESS"⟩) }),
    (false, { bank := .refused 400 none "Request failed with status code 400" })]

def noTokens : NombaState := {}

def transferRun :
    List (Event Bool NombaState NombaEnv NombaCall) × (Bool → NombaAction NombaResult) × NombaState :=
  exec (fun i => (twoTransfers i).run liveNomba) noTokens transferEnvs

theorem transfer_isRun :
    Run (fun _ _ _ _ => True) (fun i => (twoTransfers i).run liveNomba) noTokens transferRun.1
      transferRun.2.1 transferRun.2.2 :=
  Run.of_exec _ noTokens transferEnvs fun _ _ => trivial

/-- The wallet transfer is sent by call `3`. -/
theorem walletTransfer_sent : ∃ ev request, transferRun.1[3]? = some ev ∧ ev.who = true ∧
    ev.call = .send request := by
  have h : (transferRun.1[3]?.bind fun ev => match ev.call with
      | .send _ => some ev.who
      | _ => none) = some true := by decide +kernel
  obtain ⟨ev, hev, hwho⟩ := Option.bind_eq_some_iff.1 h
  cases hcall : ev.call with
  | send request =>
    rw [hcall] at hwho
    exact ⟨ev, request, hev, Option.some.inj hwho, hcall⟩
  | readCache | issueToken | mock =>
    rw [hcall] at hwho
    cases hwho

end Sample

/-- The wallet transfer carries the token of the payout. -/
theorem nomba_request_authorised_cached :
    ∃ hist ps s, Run (fun _ _ _ _ => True) (fun i => (Sample.twoTransfers i).run Sample.liveNomba)
        Sample.noTokens hist ps s ∧
      ∃ (m : ℕ) (c : Event Bool NombaState NombaEnv NombaCall) (entry : TokenEntry), m < 3 ∧
        hist[m]? = some c ∧ Issues Sample.liveNomba c "biz1" entry := by
  obtain ⟨ev, request, hev, hwho, hcall⟩ := Sample.walletTransfer_sent
  obtain ⟨-, account, entry, -, -, -, m, c, hm, hc, hissues, -⟩ :=
    nomba_request_authorised rfl Sample.transfer_isRun hev hcall
  rw [hwho] at hissues
  exact ⟨_, _, _, Sample.transfer_isRun, m, c, entry, hm, hc, hissues⟩

/-- The payout ends with the refusal that Nomba answered with. -/
theorem nomba_method_ends_as_answered_refused :
    ∃ hist ps s, Run (fun _ _ _ _ => True) (fun i => (Sample.twoTransfers i).run Sample.liveNomba)
        Sample.noTokens hist ps s ∧
      ∀ e, ps false = .raise e → ∀ (n : ℕ) (ev : Event Bool NombaState NombaEnv NombaCall),
        hist[n]? = some ev → ev.who = false → ∀ request, ev.call = .send request →
          (Sample.twoTransfers false).answered Sample.liveNomba ev.choice = .error e :=
  ⟨_, _, _, Sample.transfer_isRun, (nomba_method_ends_as_answered Sample.transfer_isRun false).2.2⟩

end AccountOS
