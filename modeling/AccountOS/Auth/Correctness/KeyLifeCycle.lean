import AccountOS.Auth.Correctness.Steps
import Mathlib.Data.List.Nodup

/-!
# The life of an API key

* `not_accepted_of_revoked`: in any run of requests, once the key of a hash is revoked, no later
  lookup of the hash is accepted.
* `issued_of_run`: a key was there from the beginning, or a request with the admin secret has created
  it, and nothing of it but the times has changed since.
* `revoked_by_own_business`: a key that becomes revoked is revoked by a request of its own business,
  which has presented a good key of that business.
-/

namespace AccountOS

open Conc Sql

/-! ### The table of keys -/

/-- The constraints of the table. -/
structure AuthState.KeysValid (s : AuthState) : Prop where
  ids : (s.apiKeys.map ApiKey.id).Nodup
  hashes : (s.apiKeys.map ApiKey.keyHash).Nodup

/-- The key of this hash is revoked. -/
def AuthState.IsRevoked (s : AuthState) (keyHash : String) : Prop :=
  ∃ k ∈ s.apiKeys, k.keyHash = keyHash ∧ k.revokedAt.isSome

instance (s : AuthState) (keyHash : String) : Decidable (s.IsRevoked keyHash) :=
  inferInstanceAs (Decidable (∃ k ∈ s.apiKeys, _))

/-- What of a key is never written again. -/
structure ApiKey.SameKey (k k' : ApiKey) : Prop where
  id : k.id = k'.id
  keyHash : k.keyHash = k'.keyHash
  keyPrefix : k.keyPrefix = k'.keyPrefix
  name : k.name = k'.name
  businessId : k.businessId = k'.businessId
  expiresAt : k.expiresAt = k'.expiresAt
  createdAt : k.createdAt = k'.createdAt

theorem ApiKey.SameKey.refl (k : ApiKey) : k.SameKey k := ⟨rfl, rfl, rfl, rfl, rfl, rfl, rfl⟩

theorem ApiKey.SameKey.trans {k k' k'' : ApiKey} (h : k.SameKey k') (h' : k'.SameKey k'') :
    k.SameKey k'' where
  id := h.id.trans h'.id
  keyHash := h.keyHash.trans h'.keyHash
  keyPrefix := h.keyPrefix.trans h'.keyPrefix
  name := h.name.trans h'.name
  businessId := h.businessId.trans h'.businessId
  expiresAt := h.expiresAt.trans h'.expiresAt
  createdAt := h.createdAt.trans h'.createdAt

section Effects

variable {ι : Type} {config : AuthConfig} {thread : AuthThread}
  {past : List (Event ι AuthState AuthEnv AuthCall)} {ev : Event ι AuthState AuthEnv AuthCall}

/-- The calls that change the table either write the times of a row, or add a row. -/
theorem KeyEffect.updated_or_created (h : KeyEffect config thread past ev) :
    (∃ (id : String) (f : ApiKey → ApiKey), (∀ k, (f k).SameKey k) ∧
      (∀ k, k.revokedAt.isSome → (f k).revokedAt.isSome) ∧
        ev.after.apiKeys = updateRow ApiKey.id id f ev.before.apiKeys) ∨
      ∃ adminSecret dto, thread = .admin adminSecret (.createApiKey dto) ∧
        ShownSecret config adminSecret past ∧
          ev.before.createApiKey (AuthService.newApiKey config.crypto dto ev.choice) =
            .ok (AuthService.newApiKey config.crypto dto ev.choice, ev.after) := by
  cases h with
  | kept hsame =>
    refine .inl ⟨"", fun k => k, ApiKey.SameKey.refl, fun _ h => h, ?_⟩
    rw [hsame]
    simp [updateRow]
  | created adminSecret dto hthread hshown hcreate =>
    exact .inr ⟨adminSecret, dto, hthread, hshown, hcreate⟩
  | touched id hafter =>
    refine .inl ⟨id, _, fun k => ?_, fun k hk => ?_, hafter⟩
    · exact ⟨rfl, rfl, rfl, rfl, rfl, rfl, rfl⟩
    · exact hk
  | revoked id rawKey k b hthread hlooked hfound hafter =>
    refine .inl ⟨id, _, fun k => ?_, fun k _ => ?_, hafter⟩
    · exact ⟨rfl, rfl, rfl, rfl, rfl, rfl, rfl⟩
    · rfl

/-- Where the rows come from: each is a row of before, up to its times, or the one that was created. -/
theorem KeyEffect.cases_of_mem (h : KeyEffect config thread past ev) {k : ApiKey}
    (hk : k ∈ ev.after.apiKeys) :
    (∃ k₀ ∈ ev.before.apiKeys, k.SameKey k₀) ∨
      ∃ adminSecret dto, thread = .admin adminSecret (.createApiKey dto) ∧
        ShownSecret config adminSecret past ∧
          k = AuthService.newApiKey config.crypto dto ev.choice := by
  rcases h.updated_or_created with
    ⟨id, f, hf, -, hafter⟩ | ⟨adminSecret, dto, hthread, hshown, hcreate⟩
  · rw [hafter] at hk
    obtain ⟨k₀, hk₀, rfl⟩ := mem_updateRow.1 hk
    refine .inl ⟨k₀, hk₀, ?_⟩
    split
    · exact hf k₀
    · exact .refl k₀
  · obtain ⟨-, hafter, -⟩ := AuthState.createApiKey_eq_ok hcreate
    rw [hafter] at hk
    rcases List.mem_append.1 hk with hk | hk
    · exact .inl ⟨k, hk, .refl k⟩
    · exact .inr ⟨adminSecret, dto, hthread, hshown, List.mem_singleton.1 hk⟩

/-- No row goes away, and a revoked one stays revoked. -/
theorem KeyEffect.exists_mem (h : KeyEffect config thread past ev) {k : ApiKey}
    (hk : k ∈ ev.before.apiKeys) :
    ∃ k' ∈ ev.after.apiKeys, k'.SameKey k ∧ (k.revokedAt.isSome → k'.revokedAt.isSome) := by
  rcases h.updated_or_created with ⟨id, f, hf, hrevoked, hafter⟩ | ⟨adminSecret, dto, -, -, hcreate⟩
  · rw [hafter]
    refine ⟨_, mem_updateRow.2 ⟨k, hk, rfl⟩, ?_⟩
    split
    · exact ⟨hf k, hrevoked k⟩
    · exact ⟨.refl k, fun h => h⟩
  · obtain ⟨-, hafter, -⟩ := AuthState.createApiKey_eq_ok hcreate
    rw [hafter]
    exact ⟨k, List.mem_append_left _ hk, .refl k, fun h => h⟩

theorem KeyEffect.keysValid (h : KeyEffect config thread past ev) (hvalid : ev.before.KeysValid) :
    ev.after.KeysValid := by
  rcases h.updated_or_created with ⟨id, f, hf, -, hafter⟩ | ⟨adminSecret, dto, -, -, hcreate⟩
  · constructor
    · rw [hafter]
      exact nodup_map_updateRow (fun k => (hf k).id) hvalid.ids
    · rw [hafter]
      exact nodup_map_updateRow (fun k => (hf k).keyHash) hvalid.hashes
  · obtain ⟨-, hafter, hid, hhash, -⟩ := AuthState.createApiKey_eq_ok hcreate
    have hadd : ∀ {g : ApiKey → String}, (ev.before.apiKeys.map g).Nodup →
        (∀ x ∈ ev.before.apiKeys, g x ≠ g (AuthService.newApiKey config.crypto dto ev.choice)) →
          (ev.after.apiKeys.map g).Nodup := by
      intro g hnodup hfresh
      rw [hafter, List.map_append, List.map_singleton, List.nodup_append]
      refine ⟨hnodup, List.nodup_singleton _, fun x hx y hy => ?_⟩
      obtain ⟨k, hk, rfl⟩ := List.mem_map.1 hx
      rw [List.mem_singleton.1 hy]
      exact hfresh k hk
    exact ⟨hadd hvalid.ids hid, hadd hvalid.hashes hhash⟩

/-- A revoked key is not accepted. -/
theorem AuthState.IsRevoked.not_accepted {keyHash : String} {k : ApiKey} {b : BusinessRow}
    (h : ev.before.IsRevoked keyHash) (hvalid : ev.before.KeysValid) : ¬ Accepted ev keyHash k b := by
  intro haccepted
  obtain ⟨hk, hhash, -⟩ := AuthState.mem_of_findApiKey haccepted.found
  obtain ⟨k', hk', hhash', hrevoked⟩ := h
  -- there is one row with this hash
  have hsame : k' = k := List.inj_on_of_nodup_map hvalid.hashes hk' hk (hhash'.trans hhash.symm)
  rw [hsame, haccepted.notRevoked] at hrevoked
  cases hrevoked

/-- A key that a call revokes. -/
theorem KeyEffect.revokes (h : KeyEffect config thread past ev) {k : ApiKey}
    (hk : k ∈ ev.before.apiKeys) (hgood : k.revokedAt = none) (hvalid : ev.before.KeysValid)
    (hrevoked : ev.after.IsRevoked k.keyHash) :
    ∃ rawKey k' b, thread = .keys rawKey (.revokeApiKey k.id) ∧ LookedUp config rawKey past k' b ∧
      ∃ r ∈ past, (r.before.findApiKeyOf k.id b.id).isSome := by
  obtain ⟨x, hx, hhash, hx'⟩ := hrevoked
  have hrow : ∀ y ∈ ev.before.apiKeys, y.keyHash = k.keyHash → y = k := fun y hy hyk =>
    List.inj_on_of_nodup_map hvalid.hashes hy hk hyk
  cases h with
  | kept hsame =>
    rw [hsame] at hx
    rw [hrow x hx hhash, hgood] at hx'
    cases hx'
  | created adminSecret dto hthread hshown hcreate =>
    obtain ⟨-, hafter, -⟩ := AuthState.createApiKey_eq_ok hcreate
    rw [hafter] at hx
    rcases List.mem_append.1 hx with hx | hx
    · rw [hrow x hx hhash, hgood] at hx'
      cases hx'
    · rw [List.mem_singleton.1 hx] at hx'
      cases hx'
  | touched id hafter =>
    rw [hafter] at hx
    obtain ⟨y, hy, rfl⟩ := mem_updateRow.1 hx
    have hsame : y = k := by
      refine hrow y hy ?_
      rw [← hhash]
      split <;> rfl
    have hnone : (if y.id = id then { y with lastUsedAt := some ev.choice.now } else y).revokedAt =
        none := by
      rw [← hgood, ← hsame]
      split <;> rfl
    rw [hnone] at hx'
    cases hx'
  | revoked id rawKey k' b hthread hlooked hfound hafter =>
    rw [hafter] at hx
    obtain ⟨y, hy, rfl⟩ := mem_updateRow.1 hx
    have hsame : y = k := by
      refine hrow y hy ?_
      rw [← hhash]
      split <;> rfl
    subst hsame
    by_cases hid : y.id = id
    · rw [hid]
      exact ⟨rawKey, k', b, hthread, hlooked, hfound⟩
    · rw [if_neg hid, hgood] at hx'
      cases hx'

end Effects

/-! ### Runs -/

section Run

variable {ι : Type} [DecidableEq ι] {config : AuthConfig} {threads : ι → AuthThread}
  {allowed : AuthCall → AuthEnv → AuthState → AuthState → Prop} {s₀ s : AuthState}
  {hist : List (Event ι AuthState AuthEnv AuthCall)} {ps : ι → AuthAction Unit}

/-- What each call of a run does. -/
theorem authStep_of_run (run : Run allowed (fun i => (threads i).run config) s₀ hist ps s) {n : ℕ}
    {ev : Event ι AuthState AuthEnv AuthCall} (hev : hist[n]? = some ev) :
    AuthStep config (threads ev.who) (callsOf ev.who (hist.take n)) ev :=
  (run.traced (K := fun i => AuthStep config (threads i)) fun i => traced_authThread (threads i)).1
    n ev hev

theorem keysValid_of_run (run : Run allowed (fun i => (threads i).run config) s₀ hist ps s)
    (h₀ : s₀.KeysValid) (n : ℕ) : (stateAt hist s n).KeysValid :=
  run.always h₀ (fun _ _ hev hvalid => (authStep_of_run run hev).keys.keysValid hvalid) n

/-- A thread looks up one key. -/
theorem lookup_unique (run : Run allowed (fun i => (threads i).run config) s₀ hist ps s)
    {ev ev' : Event ι AuthState AuthEnv AuthCall} (hev : ev ∈ hist) (hev' : ev' ∈ hist)
    (hwho : ev'.who = ev.who) {h h' : String} (hcall : ev.call = .findApiKey h)
    (hcall' : ev'.call = .findApiKey h') : ev' = ev := by
  obtain ⟨m, hm⟩ := List.mem_iff_getElem?.1 hev
  obtain ⟨n, hn⟩ := List.mem_iff_getElem?.1 hev'
  have hfirst := ((authStep_of_run run hm).lookup h hcall).1
  have hfirst' := ((authStep_of_run run hn).lookup h' hcall').1
  rw [hwho] at hfirst'
  have hmn : m = n := by
    refine eq_of_length_callsOf_take hm hn rfl hwho ?_
    rw [hfirst, hfirst']
  rw [hmn] at hm
  exact Option.some.inj (hn.symm.trans hm)

/-- A row stays, up to its times. -/
theorem row_persists (run : Run allowed (fun i => (threads i).run config) s₀ hist ps s) {m n : ℕ}
    (hmn : m ≤ n) {k : ApiKey} (hk : k ∈ (stateAt hist s m).apiKeys) :
    ∃ k' ∈ (stateAt hist s n).apiKeys, k'.SameKey k ∧ (k.revokedAt.isSome → k'.revokedAt.isSome) := by
  refine run.persists (P := fun s => ∃ k' ∈ s.apiKeys, k'.SameKey k ∧
    (k.revokedAt.isSome → k'.revokedAt.isSome)) hmn ⟨k, hk, .refl k, fun h => h⟩
    fun j ev _ _ hev hbefore => ?_
  obtain ⟨k', hk', hsame, hrevoked⟩ := hbefore
  obtain ⟨k'', hk'', hsame', hrevoked'⟩ := (authStep_of_run run hev).keys.exists_mem hk'
  exact ⟨k'', hk'', hsame'.trans hsame, fun h => hrevoked' (hrevoked h)⟩

/-- **A revoked key stays out.** -/
theorem not_accepted_of_revoked (run : Run allowed (fun i => (threads i).run config) s₀ hist ps s)
    (h₀ : s₀.KeysValid) {m n : ℕ} (hmn : m ≤ n) {keyHash : String}
    (hrevoked : (stateAt hist s m).IsRevoked keyHash)
    {ev : Event ι AuthState AuthEnv AuthCall} (hev : hist[n]? = some ev) {k : ApiKey}
    {b : BusinessRow} : ¬ Accepted ev keyHash k b := by
  have hstill : (stateAt hist s n).IsRevoked keyHash := by
    obtain ⟨k, hk, hhash, hk'⟩ := hrevoked
    obtain ⟨k', hk', hsame, hkeeps⟩ := row_persists run hmn hk
    exact ⟨k', hk', hsame.keyHash.trans hhash, hkeeps ‹_›⟩
  have hvalid := keysValid_of_run run h₀ n
  rw [stateAt_eq_before hev] at hstill hvalid
  exact hstill.not_accepted hvalid

/-- **Only its own business revokes a key**: between a state in which the key is good and one in
which it is revoked, a request asks for that, whose own key was accepted as one of the same business. -/
theorem revoked_by_own_business (run : Run allowed (fun i => (threads i).run config) s₀ hist ps s)
    (h₀ : s₀.KeysValid) {m n : ℕ} (hmn : m ≤ n) {k : ApiKey} (hk : k ∈ (stateAt hist s m).apiKeys)
    (hgood : k.revokedAt = none) (hrevoked : (stateAt hist s n).IsRevoked k.keyHash) :
    ∃ (j : ℕ) (ev : Event ι AuthState AuthEnv AuthCall) (rawKey : Option String) (k' : ApiKey)
      (b : BusinessRow), m ≤ j ∧ j < n ∧ hist[j]? = some ev ∧
        threads ev.who = .keys rawKey (.revokeApiKey k.id) ∧
          LookedUp config rawKey (callsOf ev.who (hist.take j)) k' b ∧ b.id = k.businessId := by
  have hbefore : ¬ (stateAt hist s m).IsRevoked k.keyHash := by
    rintro ⟨x, hx, hhash, hx'⟩
    have hsame := List.inj_on_of_nodup_map (keysValid_of_run run h₀ m).hashes hx hk hhash
    rw [hsame, hgood] at hx'
    cases hx'
  obtain ⟨j, ev, hmj, hjn, hev, hnot, hafter⟩ :=
    run.exists_change (P := fun s => ¬ s.IsRevoked k.keyHash) hmn hbefore (fun h => h hrevoked)
  have hvalid := keysValid_of_run run h₀ j
  obtain ⟨x, hx, hsame, -⟩ := row_persists run hmj hk
  rw [stateAt_eq_before hev] at hvalid hx
  have hxgood : x.revokedAt = none := by
    by_contra hsome
    exact hnot ⟨x, hx, hsame.keyHash, Option.isSome_iff_ne_none.2 hsome⟩
  have hafter' : ev.after.IsRevoked x.keyHash := by
    rw [hsame.keyHash]
    exact not_not.1 hafter
  obtain ⟨rawKey, k', b, hthread, hlooked, r, hr, hfound⟩ :=
    (authStep_of_run run hev).keys.revokes hx hxgood hvalid hafter'
  -- the row that the request has found is the one that it revokes
  obtain ⟨y, hy⟩ := Option.isSome_iff_exists.1 hfound
  obtain ⟨hymem, hyid, hybusiness⟩ := AuthState.mem_of_findApiKeyOf hy
  obtain ⟨-, l, hl, hlr⟩ := mem_callsOf_take.1 hr
  rw [← stateAt_eq_before (s := s) hlr] at hymem
  obtain ⟨z, hz, hzsame, -⟩ := row_persists run (Nat.le_of_lt hl) hymem
  rw [stateAt_eq_before hev] at hz
  have hzx : z = x := List.inj_on_of_nodup_map hvalid.ids hz hx (hzsame.id.trans hyid)
  refine ⟨j, ev, rawKey, k', b, hmj, hjn, hev, ?_, hlooked, ?_⟩
  · rw [hthread, hsame.id]
  · rw [← hybusiness, ← hzsame.businessId, hzx, hsame.businessId]

/-- The row `k` was created, by a call among the first `n`, for whoever has the admin secret. -/
def Issued (config : AuthConfig) (threads : ι → AuthThread)
    (hist : List (Event ι AuthState AuthEnv AuthCall)) (n : ℕ) (k : ApiKey) : Prop :=
  ∃ (m : ℕ) (c : Event ι AuthState AuthEnv AuthCall) (adminSecret : Option String)
    (dto : AuthService.CreateApiKeyDto), m < n ∧ hist[m]? = some c ∧
      threads c.who = .admin adminSecret (.createApiKey dto) ∧
        ShownSecret config adminSecret (callsOf c.who (hist.take m)) ∧
          k.SameKey (AuthService.newApiKey config.crypto dto c.choice)

/-- Every key was there from the beginning, or was issued. -/
theorem issued_of_run (run : Run allowed (fun i => (threads i).run config) s₀ hist ps s) (n : ℕ)
    {k : ApiKey} (hk : k ∈ (stateAt hist s n).apiKeys) :
    (∃ k₀ ∈ s₀.apiKeys, k.SameKey k₀) ∨ Issued config threads hist n k := by
  induction n generalizing k with
  | zero =>
    rw [run.stateAt_zero] at hk
    exact .inl ⟨k, hk, .refl k⟩
  | succ n ih =>
    have hlater : ∀ {k' : ApiKey}, Issued config threads hist n k' → k.SameKey k' →
        Issued config threads hist (n + 1) k := by
      rintro k' ⟨m, c, adminSecret, dto, hm, hc, hthread, hshown, hnew⟩ hsame
      exact ⟨m, c, adminSecret, dto, by omega, hc, hthread, hshown, hsame.trans hnew⟩
    have hbefore : ∀ {k' : ApiKey}, k' ∈ (stateAt hist s n).apiKeys → k.SameKey k' →
        (∃ k₀ ∈ s₀.apiKeys, k.SameKey k₀) ∨ Issued config threads hist (n + 1) k := by
      intro k' hk' hsame
      rcases ih hk' with ⟨k₀, hk₀, hsame₀⟩ | hissued
      · exact .inl ⟨k₀, hk₀, hsame.trans hsame₀⟩
      · exact .inr (hlater hissued hsame)
    cases hev : hist[n]? with
    | none =>
      have hlength : hist.length ≤ n := List.getElem?_eq_none_iff.1 hev
      have hend : stateAt hist s (n + 1) = stateAt hist s n := by
        rw [stateAt_of_le hlength, stateAt_of_le (by omega)]
      rw [hend] at hk
      exact hbefore hk (.refl k)
    | some ev =>
      rw [run.stateAt_succ hev] at hk
      rw [stateAt_eq_before hev] at hbefore
      rcases (authStep_of_run run hev).keys.cases_of_mem hk with
        ⟨k', hk', hsame⟩ | ⟨adminSecret, dto, hthread, hshown, hnew⟩
      · exact hbefore hk' hsame
      · refine .inr ⟨n, ev, adminSecret, dto, by omega, hev, hthread, hshown, ?_⟩
        rw [hnew]
        exact .refl _

end Run

/-! ### A key of zeros -/

namespace Sample

/-- The key that is made of 32 zero bytes. -/
def liveKey : String := AuthService.rawKeyOf (Vector.replicate 32 0)

/-- The digests of this key, and of the admin secret under a key of zeros. -/
def digests : CryptoRuntime where
  sha256 message :=
    if message = utf8 liveKey then
      #v[75, 40, 252, 94, 242, 36, 24, 103, 220, 44, 161, 235, 203, 149, 196, 57, 151, 232, 35, 98,
        89, 122, 32, 241, 5, 92, 28, 100, 242, 179, 243, 248]
    else Vector.replicate 32 0
  hmacSha256 key message :=
    if key = List.replicate 32 0 ∧ message = utf8 "admin-secret" then
      #v[37, 93, 224, 205, 2, 234, 11, 21, 85, 60, 76, 100, 33, 147, 17, 157, 189, 94, 74, 0, 105,
        154, 148, 244, 250, 111, 122, 17, 2, 152, 19, 251]
    else Vector.replicate 32 0
  gcmSeal _ _ plaintext := (plaintext, Vector.replicate 16 0)
  gcmOpen _ _ ciphertext _ := some ciphertext
  decodeUtf8 bytes := (String.fromUTF8? ⟨bytes.toArray⟩).getD ""

def authConfig : AuthConfig where
  crypto := digests
  encryptionKey := ""
  adminSecret := "admin-secret"

/-- A business without keys. -/
def keyless : AuthState where
  businesses := [{ id := "biz1", name := "AjoApp", email := "ops@ajo.app" }]

theorem keyless_valid : keyless.KeysValid := ⟨List.nodup_nil, List.nodup_nil⟩

/-- A key is created, and revoked with itself. -/
def keyLife : Bool → AuthThread
  | false => .admin (some "admin-secret") (.createApiKey { businessId := "biz1", name := "server" })
  | true => .keys (some liveKey) (.revokeApiKey "key1")

def keyLifeEnvs : List (Bool × AuthEnv) :=
  [(false, {}), (false, { row := ⟨1, "key1"⟩ }), (false, {}), (true, { now := 2 }),
    (true, { now := 2 }), (true, {}), (true, { now := 3 }), (true, {})]

def keyLifeRun : List (Event Bool AuthState AuthEnv AuthCall) × (Bool → AuthAction Unit) × AuthState :=
  exec (fun i => (keyLife i).run authConfig) keyless keyLifeEnvs

theorem keyLife_isRun :
    Run (fun _ _ _ _ => True) (fun i => (keyLife i).run authConfig) keyless keyLifeRun.1
      keyLifeRun.2.1 keyLifeRun.2.2 :=
  Run.of_exec _ keyless keyLifeEnvs fun _ _ => trivial

end Sample

/-- It was revoked between the second call and the last one. -/
theorem revoked_by_own_business_once :
    ∃ hist ps s, Run (fun _ _ _ _ => True) (fun i => (Sample.keyLife i).run Sample.authConfig)
        Sample.keyless hist ps s ∧
      ∃ (j : ℕ) (ev : Event Bool AuthState AuthEnv AuthCall) (rawKey : Option String) (k : ApiKey)
        (b : BusinessRow), 2 ≤ j ∧ j < 8 ∧ hist[j]? = some ev ∧
          Sample.keyLife ev.who = .keys rawKey (.revokeApiKey "key1") ∧
            LookedUp Sample.authConfig rawKey (callsOf ev.who (hist.take j)) k b ∧ b.id = "biz1" := by
  refine ⟨_, _, _, Sample.keyLife_isRun, ?_⟩
  have hcreated : AuthService.newApiKey Sample.digests { businessId := "biz1", name := "server" }
      { row := ⟨1, "key1"⟩ } ∈ (stateAt Sample.keyLifeRun.1 Sample.keyLifeRun.2.2 2).apiKeys := by
    decide +kernel
  have hrevoked : (stateAt Sample.keyLifeRun.1 Sample.keyLifeRun.2.2 8).IsRevoked
      (AuthService.hashKey Sample.digests Sample.liveKey) := by
    decide +kernel
  exact revoked_by_own_business Sample.keyLife_isRun Sample.keyless_valid (by decide) hcreated rfl
    hrevoked

end AccountOS
