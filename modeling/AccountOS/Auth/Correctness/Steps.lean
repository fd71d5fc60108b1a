import AccountOS.Auth.AuthController

/-!
# What a call of `AuthService` can do

`AuthStep` says it once: which calls change the table of keys or that of the businesses, how, and
what their thread has done before. A key is written by a thread that has shown the admin secret, and
revoked by one whose own key was accepted for the business of the revoked one.
-/

namespace AccountOS

open Conc Sql

section Steps

variable {ι : Type} {config : AuthConfig} {thread : AuthThread}
  {past : List (Event ι AuthState AuthEnv AuthCall)} {ev : Event ι AuthState AuthEnv AuthCall}
  {i : ι} {s s' : AuthState}

/-! ### Statements -/

section Statements

variable {α : Type} {f : AuthEnv → AuthState → Except Error (α × AuthState)} {env : AuthEnv}

/-- A statement that answers has done what it says. -/
theorem statementResult_fst_eq_ok {a : α} (h : (statementResult f env s).1 = .ok a) :
    f env s = .ok (a, (statementResult f env s).2) := by
  unfold statementResult at h ⊢
  cases hfault : env.fault with
  | some e =>
    rw [hfault] at h
    cases h
  | none =>
    rw [hfault] at h
    cases hf : f env s with
    | error e =>
      simp only [hf] at h
      cases h
    | ok r =>
      simp only [hf, Except.ok.injEq] at h ⊢
      rw [← h]

theorem statementResult_eq_ok {a : α} (h : statementResult f env s = (.ok a, s')) :
    f env s = .ok (a, s') := by
  have hok := statementResult_fst_eq_ok (congrArg Prod.fst h)
  rwa [h] at hok

/-- A statement that fails has done nothing. -/
theorem statementResult_snd_of_error {e : Error} (h : (statementResult f env s).1 = .error e) :
    (statementResult f env s).2 = s := by
  unfold statementResult at h ⊢
  cases hfault : env.fault with
  | some e => rfl
  | none =>
    rw [hfault] at h
    cases hf : f env s with
    | error e => rfl
    | ok r =>
      simp only [hf] at h
      cases h

end Statements

theorem AuthState.mem_of_findBusiness {id : String} {b : BusinessRow}
    (h : s.findBusiness id = some b) : b ∈ s.businesses ∧ b.id = id := by
  have hid := List.find?_some h
  exact ⟨List.mem_of_find?_eq_some h, of_decide_eq_true hid⟩

theorem AuthState.mem_of_findApiKey {keyHash : String} {k : ApiKey} {b : BusinessRow}
    (h : s.findApiKey keyHash = some (k, b)) :
    k ∈ s.apiKeys ∧ k.keyHash = keyHash ∧ b ∈ s.businesses ∧ b.id = k.businessId := by
  unfold AuthState.findApiKey at h
  obtain ⟨k', hk', h⟩ := Option.bind_eq_some_iff.1 h
  obtain ⟨b', hb', h⟩ := Option.map_eq_some_iff.1 h
  cases h
  obtain ⟨hmem, hid⟩ := AuthState.mem_of_findBusiness hb'
  have hhash := List.find?_some hk'
  exact ⟨List.mem_of_find?_eq_some hk', of_decide_eq_true hhash, hmem, hid⟩

theorem AuthState.mem_of_findApiKeyOf {id businessId : String} {k : ApiKey}
    (h : s.findApiKeyOf id businessId = some k) :
    k ∈ s.apiKeys ∧ k.id = id ∧ k.businessId = businessId := by
  have hrow := List.find?_some h
  exact ⟨List.mem_of_find?_eq_some h, of_decide_eq_true hrow⟩

/-- An insert of a key has passed the constraints of the table. -/
theorem AuthState.createApiKey_eq_ok {k k' : ApiKey} (h : s.createApiKey k = .ok (k', s')) :
    k' = k ∧ s' = { s with apiKeys := s.apiKeys ++ [k] } ∧ (∀ x ∈ s.apiKeys, x.id ≠ k.id) ∧
      (∀ x ∈ s.apiKeys, x.keyHash ≠ k.keyHash) ∧ ∃ b ∈ s.businesses, b.id = k.businessId := by
  unfold AuthState.createApiKey at h
  split at h
  next => cases h
  next hid =>
    split at h
    next => cases h
    next hhash =>
      split at h
      next => cases h
      next hbusiness =>
        cases h
        push Not at hid hhash hbusiness
        exact ⟨rfl, rfl, hid, hhash, hbusiness⟩

theorem AuthState.updateApiKey_eq_ok {id : String} {set : ApiKey → ApiKey} {a : Unit}
    (h : s.updateApiKey id set = .ok (a, s')) :
    s' = { s with apiKeys := updateRow ApiKey.id id set s.apiKeys } := by
  unfold AuthState.updateApiKey at h
  split at h
  next => cases h
  next => exact (congrArg Prod.snd (Except.ok.inj h)).symm

theorem AuthState.createBusiness_eq_ok {b b' : BusinessRow}
    (h : s.createBusiness b = .ok (b', s')) :
    b' = b ∧ s' = { s with businesses := s.businesses ++ [b] } ∧ (∀ x ∈ s.businesses, x.id ≠ b.id) ∧
      ∀ x ∈ s.businesses, x.email ≠ b.email := by
  unfold AuthState.createBusiness at h
  split at h
  next => cases h
  next hid =>
    split at h
    next => cases h
    next hemail =>
      cases h
      push Not at hid hemail
      exact ⟨rfl, rfl, hid, hemail⟩

/-- An insert of a business fails when its id or its e-mail address is taken. -/
theorem AuthState.createBusiness_eq_error {b : BusinessRow} {e : Error}
    (h : s.createBusiness b = .error e) : ∃ x ∈ s.businesses, x.id = b.id ∨ x.email = b.email := by
  unfold AuthState.createBusiness at h
  split at h
  next hid =>
    obtain ⟨x, hx, heq⟩ := hid
    exact ⟨x, hx, .inl heq⟩
  next =>
    split at h
    next hemail =>
      obtain ⟨x, hx, heq⟩ := hemail
      exact ⟨x, hx, .inr heq⟩
    next => cases h

theorem AuthState.updateBusiness_eq_ok {id : String} {set : BusinessRow → BusinessRow}
    {b' : BusinessRow} (h : s.updateBusiness id set = .ok (b', s')) :
    (∃ b, s.findBusiness id = some b ∧ b' = set b) ∧
      s' = { s with businesses := updateRow BusinessRow.id id set s.businesses } := by
  unfold AuthState.updateBusiness at h
  cases hb : s.findBusiness id with
  | none =>
    rw [hb] at h
    cases h
  | some b =>
    rw [hb] at h
    cases h
    exact ⟨⟨b, rfl, rfl⟩, rfl⟩

/-- A business that is there can be updated. -/
theorem AuthState.updateBusiness_ne_error {id : String} {set : BusinessRow → BusinessRow}
    {b : BusinessRow} {e : Error} (hb : b ∈ s.businesses) (hid : b.id = id) :
    s.updateBusiness id set ≠ .error e := by
  intro h
  unfold AuthState.updateBusiness at h
  cases hfound : s.findBusiness id with
  | none => exact absurd hid (by simpa using List.find?_eq_none.1 hfound b hb)
  | some b' =>
    rw [hfound] at h
    cases h

/-! ### The effects -/

/-- The thread has shown the admin secret. -/
def ShownSecret (config : AuthConfig) (adminSecret : Option String)
    (past : List (Event ι AuthState AuthEnv AuthCall)) : Prop :=
  ∃ ev ∈ past, AdminAccepted config adminSecret ev

/-- What a call does to the table of keys. -/
inductive KeyEffect (config : AuthConfig) (thread : AuthThread)
    (past : List (Event ι AuthState AuthEnv AuthCall)) (ev : Event ι AuthState AuthEnv AuthCall) : Prop
  | kept (h : ev.after.apiKeys = ev.before.apiKeys)
  | created (adminSecret : Option String) (dto : AuthService.CreateApiKeyDto)
    (hthread : thread = .admin adminSecret (.createApiKey dto))
    (hshown : ShownSecret config adminSecret past)
    (hcreate : ev.before.createApiKey (AuthService.newApiKey config.crypto dto ev.choice) =
      .ok (AuthService.newApiKey config.crypto dto ev.choice, ev.after))
  | touched (id : String)
    (hafter : ev.after.apiKeys = updateRow ApiKey.id id
      (fun k => { k with lastUsedAt := some ev.choice.now }) ev.before.apiKeys)
  | revoked (id : String) (rawKey : Option String) (k : ApiKey) (b : BusinessRow)
    (hthread : thread = .keys rawKey (.revokeApiKey id)) (hlooked : LookedUp config rawKey past k b)
    (hfound : ∃ r ∈ past, (r.before.findApiKeyOf id b.id).isSome)
    (hafter : ev.after.apiKeys = updateRow ApiKey.id id
      (fun k => { k with revokedAt := some ev.choice.now }) ev.before.apiKeys)

/-- What a call does to the table of businesses. -/
inductive BusinessEffect (config : AuthConfig) (thread : AuthThread)
    (past : List (Event ι AuthState AuthEnv AuthCall)) (ev : Event ι AuthState AuthEnv AuthCall) : Prop
  | kept (h : ev.after.businesses = ev.before.businesses)
  | registered (adminSecret : Option String) (dto : RegisterBusinessDto) (data : CredentialsDto)
    (hthread : thread = .admin adminSecret (.registerBusiness dto))
    (hshown : ShownSecret config adminSecret past)
    (hdata : AuthService.encryptCredentials config ev.choice dto.toCredentialsDto = .ok data)
    (hcall : ev.call = .createBusiness dto.email)
    (hcreate : ev.before.createBusiness (AuthService.newBusiness dto data ev.choice.row) =
      .ok (AuthService.newBusiness dto data ev.choice.row, ev.after))
  | updated (adminSecret : Option String) (id : String) (dto data : CredentialsDto)
    (hthread : thread = .admin adminSecret (.updateBusinessCredentials id dto))
    (hshown : ShownSecret config adminSecret past)
    (hdata : AuthService.encryptCredentials config ev.choice dto = .ok data)
    (hcall : ev.call = .updateBusiness id)
    (hafter : ev.after.businesses = updateRow BusinessRow.id id
      (AuthService.patch data ev.choice.now) ev.before.businesses)

/-- A lookup is the first call of its thread, and it is one of the key that the thread presents. -/
def OwnLookup (config : AuthConfig) (thread : AuthThread)
    (past : List (Event ι AuthState AuthEnv AuthCall)) (l : AuthCall) : Prop :=
  ∀ h, l = .findApiKey h → past = [] ∧
    ∃ raw, thread.rawKey = some raw ∧ h = AuthService.hashKey config.crypto raw

/-- What a call does, with the calls that its thread has made before. -/
structure AuthStep (config : AuthConfig) (thread : AuthThread)
    (past : List (Event ι AuthState AuthEnv AuthCall)) (ev : Event ι AuthState AuthEnv AuthCall) :
    Prop where
  lookup : OwnLookup config thread past ev.call
  keys : KeyEffect config thread past ev
  businesses : BusinessEffect config thread past ev

/-- A call that reads, or fails. -/
theorem AuthStep.of_unchanged {l : AuthCall} {c : AuthEnv} (hl : OwnLookup config thread past l) :
    AuthStep config thread past ⟨i, l, c, s, s⟩ where
  lookup := hl
  keys := .kept rfl
  businesses := .kept rfl

/-- A call that changes keys. -/
theorem AuthStep.of_keys {l : AuthCall} {c : AuthEnv} {keys : List ApiKey}
    (hl : ∀ h, l ≠ .findApiKey h)
    (hkeys : KeyEffect config thread past ⟨i, l, c, s, { s with apiKeys := keys }⟩) :
    AuthStep config thread past ⟨i, l, c, s, { s with apiKeys := keys }⟩ where
  lookup h hcall := absurd hcall (hl h)
  keys := hkeys
  businesses := .kept rfl

/-! ### The calls -/

section Calls

variable {α : Type} {l : AuthCall} {Q : α → List (Event ι AuthState AuthEnv AuthCall) → Prop}
  {E : Error → List (Event ι AuthState AuthEnv AuthCall) → Prop}

/-- The rule for a statement. -/
theorem traced_authStatement {f : AuthEnv → AuthState → Except Error (α × AuthState)}
    (hl : OwnLookup config thread past l)
    (h : ∀ c s a s', f c s = .ok (a, s') →
      AuthStep config thread past ⟨i, l, c, s, s'⟩ ∧ Q a (past ++ [⟨i, l, c, s, s'⟩]))
    (hE : ∀ e ev, E e (past ++ [ev])) :
    (authStatement l f).Traced i (AuthStep config thread) Q E past := by
  refine Proc.Traced.call fun c s => ?_
  cases hr : (statementResult f c s).1 with
  | error e =>
    rw [statementResult_snd_of_error hr]
    refine ⟨.of_unchanged hl, fun a ha => ?_, fun e _ => hE e _⟩
    cases ha
  | ok a =>
    obtain ⟨hstep, hQ⟩ := h c s a _ (statementResult_fst_eq_ok hr)
    refine ⟨hstep, fun a' ha => ?_, fun e _ => hE e _⟩
    cases ha
    exact hQ

/-- The rule for a read. -/
theorem traced_authFind {f : AuthEnv → AuthState → α} (hl : OwnLookup config thread past l)
    (h : ∀ c s, Q (f c s) (past ++ [⟨i, l, c, s, s⟩])) :
    (authFind l f).Traced i (AuthStep config thread) Q (fun _ _ => True) past := by
  refine traced_authStatement hl (fun c s a s' hf => ?_) fun _ _ => trivial
  cases hf
  exact ⟨.of_unchanged hl, h c s⟩

/-- The audit log is no table of keys or businesses. -/
theorem traced_auditKey {entry : KeyAuditEntry} {Q : Unit → List _ → Prop}
    (h : ∀ ev, Q () (past ++ [ev])) :
    (auditKey entry).Traced i (AuthStep config thread) Q (fun _ _ => True) past := by
  refine Proc.Traced.call fun c s => ⟨⟨fun h hcall => ?_, .kept ?_, .kept ?_⟩, fun _ _ => h _,
    fun _ _ => trivial⟩
  · cases hcall
  · simp only
    split <;> rfl
  · simp only
    split <;> rfl

/-- The update of `lastUsedAt`, and what follows whether it succeeds or not. -/
theorem traced_touchApiKey {id : String} {Q : Unit → List _ → Prop} (h : ∀ ev, Q () (past ++ [ev])) :
    ((AuthService.touchApiKey id).catching fun _ => .ret ()).Traced i (AuthStep config thread) Q
      (fun _ _ => True) past := by
  refine Proc.Traced.catching (traced_authStatement (fun h hl => ?_) (fun c s a s' hf => ⟨?_, h _⟩)
    fun _ ev => h ev)
  · cases hl
  · rw [AuthState.updateApiKey_eq_ok hf]
    exact .of_keys (fun h hl => by cases hl) (.touched id rfl)

/-- A statement that writes credentials, in a thread that has shown the admin secret. -/
theorem traced_writeCredentials {dto : CredentialsDto}
    {f : AuthEnv → CredentialsDto → AuthState → Except Error (α × AuthState)}
    (hl : ∀ h, l ≠ .findApiKey h)
    (h : ∀ c s data a s', AuthService.encryptCredentials config c dto = .ok data →
      f c data s = .ok (a, s') →
        AuthStep config thread past ⟨i, l, c, s, s'⟩ ∧ Q a (past ++ [⟨i, l, c, s, s'⟩]))
    (hE : ∀ e ev, E e (past ++ [ev])) :
    (AuthService.writeCredentials config l dto f).Traced i (AuthStep config thread) Q E past := by
  have hsame : ∀ c s, AuthStep config thread past ⟨i, l, c, s, s⟩ :=
    fun c s => .of_unchanged fun h hcall => absurd hcall (hl h)
  refine Proc.Traced.call fun c s => ?_
  cases hdata : AuthService.encryptCredentials config c dto with
  | error e =>
    refine ⟨hsame c s, fun a ha => ?_, fun e _ => hE e _⟩
    cases ha
  | ok data =>
    simp only
    cases hr : (statementResult (fun env s => f env data s) c s).1 with
    | error e =>
      rw [statementResult_snd_of_error hr]
      refine ⟨hsame c s, fun a ha => ?_, fun e _ => hE e _⟩
      cases ha
    | ok a =>
      obtain ⟨hstep, hQ⟩ := h c s data a _ hdata (statementResult_fst_eq_ok hr)
      refine ⟨hstep, fun a' ha => ?_, fun e _ => hE e _⟩
      cases ha
      exact hQ

end Calls

/-- What the guard lets pass is what it has found. -/
theorem checkApiKey_eq_ok {now : Nat} {found : Option (ApiKey × BusinessRow)} {k : ApiKey}
    {b : BusinessRow} (h : AuthService.checkApiKey now found = .ok (k, b)) :
    found = some (k, b) ∧ k.revokedAt = none ∧ ∀ t ∈ k.expiresAt, now ≤ t := by
  cases found with
  | none => cases h
  | some kb =>
    obtain ⟨k', b'⟩ := kb
    simp only [AuthService.checkApiKey] at h
    split at h
    next => cases h
    next hrevoked =>
      split at h
      next => cases h
      next hexpired =>
        cases h
        refine ⟨rfl, by simpa using hrevoked, fun t ht => ?_⟩
        by_contra hlt
        exact hexpired ⟨t, ht, Nat.not_le.1 hlt⟩

/-- The guard returns what its lookup has found. -/
theorem traced_canActivate {rawKey : Option String} (hthread : thread.rawKey = rawKey) :
    (ApiKeyGuard.canActivate config rawKey).Traced i (AuthStep config thread)
      (fun kb past => LookedUp config rawKey past kb.1 kb.2) (fun _ _ => True) [] := by
  unfold ApiKeyGuard.canActivate
  split
  next => trivial
  next hgiven =>
    obtain ⟨raw, rfl⟩ : ∃ raw, rawKey = some raw := by
      cases rawKey with
      | none => exact absurd rfl hgiven
      | some raw => exact ⟨raw, rfl⟩
    refine Proc.Traced.bind (traced_authFind ?_ fun c s => ?_)
    · intro h hcall
      cases hcall
      exact ⟨rfl, raw, hthread, rfl⟩
    · refine Proc.Traced.bind (Proc.traced_ofExcept.2 ⟨?_, fun _ _ => trivial⟩)
      rintro ⟨k, b⟩ hcheck
      obtain ⟨hfound, hnotRevoked, hnotExpired⟩ := checkApiKey_eq_ok hcheck
      refine Proc.Traced.bind (traced_touchApiKey fun ev => ?_)
      exact ⟨raw, rfl, _, List.mem_append_left _ List.mem_cons_self, rfl, hfound, hnotRevoked,
        hnotExpired⟩

/-! ### The routes -/

/-- The handlers behind the guard. -/
theorem traced_keyRoute {rawKey : Option String} {route : KeyRoute} {k : ApiKey} {b : BusinessRow}
    (hthread : thread = .keys rawKey route) (hlooked : LookedUp config rawKey past k b) :
    (route.run k b).Traced i (AuthStep config thread) (fun _ _ => True) (fun _ _ => True) past := by
  cases route with
  | getMyBusiness =>
    refine Proc.Traced.bind (Proc.Traced.bind (traced_authFind (fun h hl => ?_) fun c s => ?_))
    · cases hl
    · cases s.findBusiness b.id <;> trivial
  | listApiKeys =>
    refine Proc.Traced.bind (traced_authFind (fun h hl => ?_) fun c s => trivial)
    cases hl
  | revokeApiKey id =>
    refine Proc.Traced.bind (traced_authFind (fun h hl => ?_) fun c s => ?_)
    · cases hl
    · cases hfound : s.findApiKeyOf id b.id with
      | none => trivial
      | some k' =>
        refine Proc.Traced.bind (traced_authStatement (fun h hl => ?_) (fun c' s' a s'' hf => ⟨?_, ?_⟩)
          fun _ _ => trivial)
        · cases hl
        · rw [AuthState.updateApiKey_eq_ok hf]
          refine .of_keys (fun h hl => by cases hl) (.revoked id rawKey k b hthread ?_ ?_ rfl)
          · obtain ⟨raw, hraw, ev, hev, haccepted⟩ := hlooked
            exact ⟨raw, hraw, ev, List.mem_append_left _ hev, haccepted⟩
          · exact ⟨_, List.mem_append_right _ List.mem_cons_self, by rw [hfound]; rfl⟩
        · exact traced_auditKey fun _ => trivial

theorem traced_assertAdminSecret {adminSecret : Option String} :
    (AuthService.assertAdminSecret config adminSecret).Traced i (AuthStep config thread)
      (fun _ past => ShownSecret config adminSecret past) (fun _ _ => True) past := by
  refine Proc.Traced.call fun c s => ?_
  have hsame : AuthStep config thread past ⟨i, .checkAdminSecret, c, s, s⟩ := by
    refine .of_unchanged fun h hl => ?_
    cases hl
  cases adminSecret with
  | none =>
    refine ⟨hsame, fun a ha => ?_, fun _ _ => trivial⟩
    cases ha
  | some secret =>
    simp only
    split
    next hequal =>
      refine ⟨hsame, fun _ _ => ?_, fun _ _ => trivial⟩
      exact ⟨_, List.mem_append_right _ List.mem_cons_self, rfl, secret, rfl, hequal⟩
    next =>
      refine ⟨hsame, fun a ha => ?_, fun _ _ => trivial⟩
      cases ha

/-- The handlers behind the admin secret. -/
theorem traced_adminRoute {adminSecret : Option String} {route : AdminRoute}
    (hthread : thread = .admin adminSecret route) :
    (route.run config adminSecret).Traced i (AuthStep config thread) (fun _ _ => True)
      (fun _ _ => True) past := by
  have hmono : ∀ {past : List (Event ι AuthState AuthEnv AuthCall)} {ev},
      ShownSecret config adminSecret past → ShownSecret config adminSecret (past ++ [ev]) := by
    rintro past ev ⟨r, hr, haccepted⟩
    exact ⟨r, List.mem_append_left _ hr, haccepted⟩
  cases route with
  | registerBusiness dto =>
    refine Proc.Traced.bind (Proc.Traced.bind (Proc.Traced.mono ?_ (fun _ _ h => h)
      traced_assertAdminSecret))
    rintro - past' hshown
    refine Proc.Traced.bind (Proc.Traced.catching (traced_writeCredentials (fun h hl => ?_) ?_ ?_))
    · cases hl
    · intro c s data a s' hdata hcreate
      obtain ⟨-, hs', -⟩ := AuthState.createBusiness_eq_ok hcreate
      refine ⟨⟨fun h hl => ?_, .kept ?_, ?_⟩, trivial⟩
      · cases hl
      · rw [hs']
      · obtain ⟨rfl, -⟩ := AuthState.createBusiness_eq_ok hcreate
        exact .registered adminSecret dto data hthread hshown hdata rfl hcreate
    · intro e ev
      split <;> trivial
  | updateBusinessCredentials id dto =>
    refine Proc.Traced.bind (Proc.Traced.bind (Proc.Traced.mono ?_ (fun _ _ h => h)
      traced_assertAdminSecret))
    rintro - past' hshown
    refine Proc.Traced.bind (traced_authFind (fun h hl => ?_) fun c s => ?_)
    · cases hl
    · cases s.findBusiness id with
      | none => trivial
      | some existing =>
        refine Proc.Traced.bind (traced_writeCredentials (fun h hl => ?_) ?_ fun _ _ => trivial)
        · cases hl
        · intro c' s' data a s'' hdata hupdate
          obtain ⟨-, hs''⟩ := AuthState.updateBusiness_eq_ok hupdate
          refine ⟨⟨fun h hl => ?_, .kept ?_, ?_⟩, trivial⟩
          · cases hl
          · rw [hs'']
          · refine .updated adminSecret id dto data hthread (hmono hshown) hdata rfl ?_
            rw [hs'']
  | createApiKey dto =>
    refine Proc.Traced.bind (Proc.Traced.bind (Proc.Traced.mono ?_ (fun _ _ h => h)
      traced_assertAdminSecret))
    rintro - past' hshown
    refine Proc.Traced.bind (traced_authStatement (fun h hl => ?_) (fun c s a s' hf => ?_)
      fun _ _ => trivial)
    · cases hl
    · cases hcreate : s.createApiKey (AuthService.newApiKey config.crypto dto c) with
      | error e =>
        rw [hcreate] at hf
        cases hf
      | ok r =>
        rw [hcreate] at hf
        cases hf
        obtain ⟨k, s'⟩ := r
        obtain ⟨rfl, hs', -⟩ := AuthState.createApiKey_eq_ok hcreate
        refine ⟨⟨fun h hl => ?_, .created adminSecret dto hthread hshown hcreate, .kept ?_⟩, ?_⟩
        · cases hl
        · rw [hs']
        · exact Proc.Traced.bind (traced_auditKey fun _ => trivial)

/-- Every thread keeps to `AuthStep`. -/
theorem traced_authThread (thread : AuthThread) :
    (thread.run config).Traced i (AuthStep config thread) (fun _ _ => True) (fun _ _ => True) [] := by
  cases thread with
  | guarded rawKey =>
    exact Proc.Traced.bind (Proc.Traced.mono (fun _ _ _ => trivial) (fun _ _ h => h)
      (traced_canActivate rfl))
  | keys rawKey route =>
    refine Proc.Traced.bind (Proc.Traced.mono ?_ (fun _ _ h => h) (traced_canActivate rfl))
    exact fun kb past hlooked => traced_keyRoute rfl hlooked
  | admin adminSecret route => exact traced_adminRoute rfl
  | lateTouch id => exact traced_touchApiKey fun _ => trivial
  | idle => trivial

end Steps

end AccountOS
