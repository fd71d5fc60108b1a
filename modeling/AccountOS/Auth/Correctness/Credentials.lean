import AccountOS.Auth.Correctness.KeyLifeCycle
import Mathlib.Data.Option.Basic

/-!
# Credentials at rest

What a maintainer has in mind is a table of businesses with their secrets in clear: `plainStep` is
what a request does to that one, or why it is refused. `credentials_refine`: in every run of requests
the table of the code is this table encrypted, so what is decrypted, and what is shown of a business,
is what was supplied last; and a request that returns has supplied it. Only whether the credentials
are complete is not quite what one may think: an empty secret is not an empty text once it is
encrypted.
-/

namespace AccountOS

open Conc Sql AuthService

/-! ### The table in clear -/

/-- The credentials of a business whose secrets are in clear. -/
def plainCredentials (p : BusinessRow) : Except Error DecryptedCredentials :=
  if isTruthy p.nombaAccountId ∧ isTruthy p.nombaSubAccountId ∧ isTruthy p.nombaClientId ∧
      p.nombaClientSecret.isSome ∧ p.nombaWebhookSecret.isSome then
    .ok {
      nombaAccountId := p.nombaAccountId.getD ""
      nombaSubAccountId := p.nombaSubAccountId.getD ""
      nombaClientId := p.nombaClientId.getD ""
      nombaClientSecret := p.nombaClientSecret.getD ""
      nombaWebhookSecret := p.nombaWebhookSecret.getD "" }
  else .error notConfigured

/-- What is shown of it. -/
def plainProfile (p : BusinessRow) : BusinessProfileResult :=
  { profile p with
    nombaClientSecretSet := p.nombaClientSecret.isSome
    nombaWebhookSecretSet := p.nombaWebhookSecret.isSome
    hasNombaCredentials := decide (isTruthy p.nombaAccountId ∧ isTruthy p.nombaSubAccountId ∧
      isTruthy p.nombaClientId ∧ p.nombaClientSecret.isSome ∧ p.nombaWebhookSecret.isSome) }

/-- A secret cannot be taken away: `null` is none. -/
def CredentialsDto.NullSecret (dto : CredentialsDto) : Prop :=
  dto.nombaClientSecret = some none ∨ dto.nombaWebhookSecret = some none

instance (dto : CredentialsDto) : Decidable dto.NullSecret := inferInstanceAs (Decidable (_ ∨ _))

/-- A business is registered, unless the database fails, a secret is `null`, or the new id or the
e-mail address is taken. -/
def plainRegister (dto : RegisterBusinessDto) (env : AuthEnv) (rows : List BusinessRow) :
    List BusinessRow :=
  if env.fault.isSome ∨ dto.NullSecret ∨ ∃ p ∈ rows, p.id = env.row.id ∨ p.email = dto.email then
    rows
  else
    rows ++ [newBusiness dto dto.toCredentialsDto env.row]

/-- The credentials of a business are replaced, unless the database fails, a secret is `null`, or
there is no such business. -/
def plainUpdate (id : String) (dto : CredentialsDto) (env : AuthEnv) (rows : List BusinessRow) :
    List BusinessRow :=
  if env.fault.isSome ∨ dto.NullSecret ∨ ¬ ∃ p ∈ rows, p.id = id then rows
  else updateRow BusinessRow.id id (patch dto env.now) rows

/-- What a call does to the table in clear. The other calls of the two requests write nothing, and
other requests do not write there. -/
def plainStep (thread : AuthThread) (call : AuthCall) (env : AuthEnv) (rows : List BusinessRow) :
    List BusinessRow :=
  match thread, call with
  | .admin _ (.registerBusiness dto), .createBusiness _ => plainRegister dto env rows
  | .admin _ (.updateBusinessCredentials id dto), .updateBusiness _ => plainUpdate id dto env rows
  | _, _ => rows

/-- What has been supplied by the calls of a history. -/
def supplied {ι : Type} (threads : ι → AuthThread)
    (hist : List (Event ι AuthState AuthEnv AuthCall)) (rows : List BusinessRow) : List BusinessRow :=
  hist.foldl (fun rows ev => plainStep (threads ev.who) ev.call ev.choice rows) rows

/-! ### Encrypted rows -/

section Sealed

variable {config : AuthConfig}

/-- The stored text is the secret, encrypted under some IV. -/
def SealedAs (config : AuthConfig) (stored secret : String) : Prop :=
  ∃ iv, stored = CryptoUtils.encrypt config.crypto iv secret (encryptionKey config)

/-- The row `b` is the row `p`, with its secrets encrypted. -/
structure Reveals (config : AuthConfig) (b p : BusinessRow) : Prop where
  clear : b = { p with
    nombaClientSecret := b.nombaClientSecret, nombaWebhookSecret := b.nombaWebhookSecret }
  clientSecret : Option.Rel (SealedAs config) b.nombaClientSecret p.nombaClientSecret
  webhookSecret : Option.Rel (SealedAs config) b.nombaWebhookSecret p.nombaWebhookSecret

variable {b p : BusinessRow}

theorem Reveals.id (h : Reveals config b p) : b.id = p.id := by rw [h.clear]

theorem isSome_eq_of_rel {α β : Type} {R : α → β → Prop} {x : Option α} {y : Option β}
    (h : Option.Rel R x y) : x.isSome = y.isSome := by
  cases h <;> rfl

/-- A stored secret is a text that is not empty. -/
theorem isTruthy_of_rel {stored secret : Option String}
    (h : Option.Rel (SealedAs config) stored secret) : isTruthy stored = secret.isSome := by
  cases h with
  | none => rfl
  | some hsealed =>
    obtain ⟨iv, rfl⟩ := hsealed
    simp [isTruthy, CryptoUtils.encrypt_ne_empty]

theorem decrypt_of_rel (hcrypto : config.crypto.Lawful) {stored secret : Option String}
    (h : Option.Rel (SealedAs config) stored secret) (hsome : secret.isSome) :
    CryptoUtils.decrypt config.crypto (stored.getD "") (encryptionKey config) =
      .ok (secret.getD "") := by
  cases h with
  | none => cases hsome
  | some hsealed =>
    obtain ⟨iv, rfl⟩ := hsealed
    exact CryptoUtils.decrypt_encrypt hcrypto iv _

theorem Reveals.isConfigured_iff (h : Reveals config b p) :
    IsConfigured b ↔ isTruthy p.nombaAccountId ∧ isTruthy p.nombaSubAccountId ∧
      isTruthy p.nombaClientId ∧ p.nombaClientSecret.isSome ∧ p.nombaWebhookSecret.isSome := by
  have haccount : b.nombaAccountId = p.nombaAccountId := by rw [h.clear]
  have hsub : b.nombaSubAccountId = p.nombaSubAccountId := by rw [h.clear]
  have hclient : b.nombaClientId = p.nombaClientId := by rw [h.clear]
  rw [IsConfigured, haccount, hsub, hclient, isTruthy_of_rel h.clientSecret,
    isTruthy_of_rel h.webhookSecret]

/-- What is decrypted is what is in clear. -/
theorem Reveals.getDecryptedCredentials (hcrypto : config.crypto.Lawful) (h : Reveals config b p) :
    AuthService.getDecryptedCredentials config b = plainCredentials p := by
  unfold AuthService.getDecryptedCredentials plainCredentials
  by_cases hconfigured : IsConfigured b
  · have hplain := h.isConfigured_iff.1 hconfigured
    rw [if_pos hconfigured, if_pos hplain, decrypt_of_rel hcrypto h.clientSecret hplain.2.2.2.1,
      decrypt_of_rel hcrypto h.webhookSecret hplain.2.2.2.2]
    have haccount : b.nombaAccountId = p.nombaAccountId := by rw [h.clear]
    have hsub : b.nombaSubAccountId = p.nombaSubAccountId := by rw [h.clear]
    have hclient : b.nombaClientId = p.nombaClientId := by rw [h.clear]
    rw [haccount, hsub, hclient]
    rfl
  · rw [if_neg hconfigured, if_neg fun hplain => hconfigured (h.isConfigured_iff.2 hplain)]

theorem Reveals.profile (h : Reveals config b p) : AuthService.profile b = plainProfile p := by
  have hset := isTruthy_of_rel h.clientSecret
  have hset' := isTruthy_of_rel h.webhookSecret
  have hconfigured := h.isConfigured_iff
  unfold AuthService.profile plainProfile
  simp only [hset, hset', hconfigured]
  rw [h.clear]
  rfl

/-! ### Writing them -/

/-- What is written of a DTO: the same, with its secrets encrypted. -/
theorem encryptField_eq_ok {iv : Vector UInt8 16} {given data : Option (Option String)}
    (h : encryptField config iv given = .ok data) :
    Option.Rel (Option.Rel (SealedAs config)) data given := by
  cases given with
  | none =>
    cases h
    exact .none
  | some secret =>
    cases secret with
    | none => cases h
    | some secret =>
      cases h
      exact .some (.some ⟨iv, rfl⟩)

theorem encryptCredentials_eq_ok {env : AuthEnv} {dto data : CredentialsDto}
    (h : encryptCredentials config env dto = .ok data) :
    data = { dto with
      nombaClientSecret := data.nombaClientSecret, nombaWebhookSecret := data.nombaWebhookSecret } ∧
      encryptField config env.clientSecretIv dto.nombaClientSecret = .ok data.nombaClientSecret ∧
        encryptField config env.webhookSecretIv dto.nombaWebhookSecret =
          .ok data.nombaWebhookSecret := by
  unfold encryptCredentials at h
  cases hclient : encryptField config env.clientSecretIv dto.nombaClientSecret with
  | error e =>
    rw [hclient] at h
    cases h
  | ok clientSecret =>
    cases hwebhook : encryptField config env.webhookSecretIv dto.nombaWebhookSecret with
    | error e =>
      rw [hclient, hwebhook] at h
      cases h
    | ok webhookSecret =>
      rw [hclient, hwebhook] at h
      cases h
      exact ⟨rfl, rfl, rfl⟩

theorem rel_getD {α β : Type} {R : α → β → Prop} {x : Option (Option α)} {y : Option (Option β)}
    {a : Option α} {c : Option β} (h : Option.Rel (Option.Rel R) x y) (hac : Option.Rel R a c) :
    Option.Rel R (x.getD a) (y.getD c) := by
  cases h with
  | none => exact hac
  | some h => exact h

/-- An update of a row is the update of the row in clear. -/
theorem Reveals.patch {env : AuthEnv} {dto data : CredentialsDto} {now : Nat}
    (hdata : encryptCredentials config env dto = .ok data) (h : Reveals config b p) :
    Reveals config (AuthService.patch data now b) (AuthService.patch dto now p) := by
  obtain ⟨hsame, hclient, hwebhook⟩ := encryptCredentials_eq_ok hdata
  refine ⟨?_, rel_getD (encryptField_eq_ok hclient) h.clientSecret,
    rel_getD (encryptField_eq_ok hwebhook) h.webhookSecret⟩
  rw [hsame, h.clear]
  rfl

theorem reveals_newBusiness {env : AuthEnv} {dto : RegisterBusinessDto} {data : CredentialsDto}
    {row : Generated} (hdata : encryptCredentials config env dto.toCredentialsDto = .ok data) :
    Reveals config (newBusiness dto data row) (newBusiness dto dto.toCredentialsDto row) :=
  Reveals.patch hdata ⟨rfl, .none, .none⟩

end Sealed

/-! ### The calls -/

section Calls

variable {ι : Type} {config : AuthConfig} {thread : AuthThread} {i : ι}
  {past : List (Event ι AuthState AuthEnv AuthCall)} {ev : Event ι AuthState AuthEnv AuthCall}

/-- A call keeps the two tables together. -/
def Follows (config : AuthConfig) (thread : AuthThread) (ev : Event ι AuthState AuthEnv AuthCall) :
    Prop :=
  ∀ rows, List.Forall₂ (Reveals config) ev.before.businesses rows →
    List.Forall₂ (Reveals config) ev.after.businesses (plainStep thread ev.call ev.choice rows)

/-- A call by which neither of the two writes. -/
theorem follows_of_kept (h : ev.after.businesses = ev.before.businesses)
    (hkept : ∀ rows, plainStep thread ev.call ev.choice rows = rows) : Follows config thread ev := by
  intro rows hrows
  rw [h, hkept]
  exact hrows

theorem eq_null_of_encryptField {iv : Vector UInt8 16} {given : Option (Option String)} {e : Error}
    (h : encryptField config iv given = .error e) : given = some none := by
  rcases given with _ | _ | secret
  · cases h
  · rfl
  · cases h

/-- Encrypting fails of a `null` alone. -/
theorem nullSecret_of_encryptCredentials {env : AuthEnv} {dto : CredentialsDto} {e : Error}
    (h : encryptCredentials config env dto = .error e) : dto.NullSecret := by
  unfold encryptCredentials at h
  cases hclient : encryptField config env.clientSecretIv dto.nombaClientSecret with
  | error e' => exact .inl (eq_null_of_encryptField hclient)
  | ok clientSecret =>
    cases hwebhook : encryptField config env.webhookSecretIv dto.nombaWebhookSecret with
    | error e' => exact .inr (eq_null_of_encryptField hwebhook)
    | ok webhookSecret =>
      rw [hclient, hwebhook] at h
      cases h

theorem not_nullSecret_of_encryptCredentials {env : AuthEnv} {dto data : CredentialsDto}
    (h : encryptCredentials config env dto = .ok data) : ¬ dto.NullSecret := by
  obtain ⟨-, hclient, hwebhook⟩ := encryptCredentials_eq_ok h
  rintro (hnull | hnull)
  · rw [hnull] at hclient
    cases hclient
  · rw [hnull] at hwebhook
    cases hwebhook

/-- The rule for a statement that writes credentials: it writes them encrypted, or it is refused. -/
theorem traced_writeCredentials_or {α : Type} {l : AuthCall} {dto : CredentialsDto}
    {f : AuthEnv → CredentialsDto → AuthState → Except Error (α × AuthState)}
    {K : List (Event ι AuthState AuthEnv AuthCall) → Event ι AuthState AuthEnv AuthCall → Prop}
    {Q : α → List (Event ι AuthState AuthEnv AuthCall) → Prop}
    {E : Error → List (Event ι AuthState AuthEnv AuthCall) → Prop}
    (hwritten : ∀ c s data a s', c.fault = none → encryptCredentials config c dto = .ok data →
      f c data s = .ok (a, s') → K past ⟨i, l, c, s, s'⟩ ∧ Q a (past ++ [⟨i, l, c, s, s'⟩]))
    (hrefused : ∀ c s, (c.fault.isSome ∨ dto.NullSecret ∨ ∃ data e, f c data s = .error e) →
      K past ⟨i, l, c, s, s⟩)
    (hE : ∀ e ev, E e (past ++ [ev])) :
    (writeCredentials config l dto f).Traced i K Q E past := by
  refine Proc.Traced.call fun c s => ?_
  cases hdata : encryptCredentials config c dto with
  | error e =>
    refine ⟨hrefused c s (.inr (.inl (nullSecret_of_encryptCredentials hdata))), ?_,
      fun _ _ => hE _ _⟩
    exact fun a ha => by cases ha
  | ok data =>
    simp only [statementResult]
    cases hfault : c.fault with
    | some e =>
      refine ⟨hrefused c s (.inl (by rw [hfault]; rfl)), ?_, fun _ _ => hE _ _⟩
      exact fun a ha => by cases ha
    | none =>
      simp only
      cases hf : f c data s with
      | error e =>
        refine ⟨hrefused c s (.inr (.inr ⟨data, e, hf⟩)), ?_, fun _ _ => hE _ _⟩
        exact fun a ha => by cases ha
      | ok r =>
        obtain ⟨a, s'⟩ := r
        obtain ⟨hK, hQ⟩ := hwritten c s data a s' hfault hdata hf
        refine ⟨hK, fun a' ha => ?_, fun e he => by cases he⟩
        cases ha
        exact hQ

/-- Ids and e-mail addresses are in clear. -/
theorem taken_iff {s : AuthState} {rows : List BusinessRow} {id email : String}
    (hrows : List.Forall₂ (Reveals config) s.businesses rows) :
    (∃ b ∈ s.businesses, b.id = id ∨ b.email = email) ↔ ∃ p ∈ rows, p.id = id ∨ p.email = email := by
  refine exists_mem_iff_of_forall₂ (fun b p h => ?_) hrows
  have hemail : b.email = p.email := by rw [h.clear]
  rw [h.id, hemail]

theorem exists_id_iff {s : AuthState} {rows : List BusinessRow} {id : String}
    (hrows : List.Forall₂ (Reveals config) s.businesses rows) :
    (∃ b ∈ s.businesses, b.id = id) ↔ ∃ p ∈ rows, p.id = id :=
  exists_mem_iff_of_forall₂ (fun b p h => by rw [h.id]) hrows

/-- The request has made the call that writes, and it has not been refused. -/
def HasSupplied (config : AuthConfig) (thread : AuthThread)
    (calls : List (Event ι AuthState AuthEnv AuthCall)) : Prop :=
  match thread with
  | .admin _ (.registerBusiness dto) => ∃ ev ∈ calls, ∀ rows,
      List.Forall₂ (Reveals config) ev.before.businesses rows →
        plainStep thread ev.call ev.choice rows =
          rows ++ [newBusiness dto dto.toCredentialsDto ev.choice.row]
  | .admin _ (.updateBusinessCredentials id dto) => ∃ ev ∈ calls, ∀ rows,
      List.Forall₂ (Reveals config) ev.before.businesses rows →
        (∃ p ∈ rows, p.id = id) ∧ plainStep thread ev.call ev.choice rows =
          updateRow BusinessRow.id id (patch dto ev.choice.now) rows
  | _ => True

theorem traced_assertAdminSecret_follows {adminSecret : Option String} {route : AdminRoute}
    {Q : Unit → List (Event ι AuthState AuthEnv AuthCall) → Prop} (hQ : ∀ ev, Q () (past ++ [ev])) :
    (assertAdminSecret config adminSecret).Traced i
      (fun _ ev => Follows config (.admin adminSecret route) ev) Q (fun _ _ => True) past := by
  refine Proc.Traced.call fun c s => ⟨follows_of_kept ?_ fun rows => ?_, fun _ _ => hQ _,
    fun _ _ => trivial⟩
  · cases adminSecret with
    | none => rfl
    | some secret =>
      dsimp only
      split <;> rfl
  · cases route <;> rfl

/-- Registering a business follows what is done in clear. -/
theorem traced_registerBusiness {adminSecret : Option String} {dto : RegisterBusinessDto} :
    (registerBusiness config dto adminSecret).Traced i
      (fun _ ev => Follows config (.admin adminSecret (.registerBusiness dto)) ev)
      (fun _ calls => HasSupplied config (.admin adminSecret (.registerBusiness dto)) calls)
      (fun _ _ => True) past := by
  refine Proc.Traced.bind (traced_assertAdminSecret_follows fun ev => ?_)
  refine Proc.Traced.bind (Proc.Traced.catching (traced_writeCredentials_or ?_ ?_ ?_))
  · intro c s data a s' hfault hdata hcreate
    obtain ⟨-, rfl, hid, hemail⟩ := AuthState.createBusiness_eq_ok hcreate
    -- what has not stopped the statement does not stop the plain one
    have hplain : ∀ rows, List.Forall₂ (Reveals config) s.businesses rows →
        plainRegister dto c rows = rows ++ [newBusiness dto dto.toCredentialsDto c.row] := by
      intro rows hrows
      refine if_neg ?_
      rintro (hsome | hnull | htaken)
      · rw [hfault] at hsome
        cases hsome
      · exact not_nullSecret_of_encryptCredentials hdata hnull
      · obtain ⟨b, hb, heq | heq⟩ := (taken_iff hrows).2 htaken
        · exact hid b hb heq
        · exact hemail b hb heq
    refine ⟨fun rows hrows => ?_, _, List.mem_append_right _ List.mem_cons_self, hplain⟩
    show List.Forall₂ (Reveals config) (s.businesses ++ [newBusiness dto data c.row])
      (plainRegister dto c rows)
    rw [hplain rows hrows]
    exact List.rel_append hrows (.cons (reveals_newBusiness hdata) .nil)
  · intro c s hrefused rows hrows
    -- a statement that is refused is refused in clear, for the same reason
    have hkept : plainRegister dto c rows = rows := by
      refine if_pos (hrefused.imp_right (Or.imp_right ?_))
      rintro ⟨data, e, hcreate⟩
      exact (taken_iff hrows).1 (AuthState.createBusiness_eq_error hcreate)
    show List.Forall₂ (Reveals config) s.businesses (plainRegister dto c rows)
    rw [hkept]
    exact hrows
  · intro e ev
    split <;> trivial

/-- So does an update. -/
theorem traced_updateBusinessCredentials {adminSecret : Option String} {id : String}
    {dto : CredentialsDto} :
    (updateBusinessCredentials config id dto adminSecret).Traced i
      (fun _ ev => Follows config (.admin adminSecret (.updateBusinessCredentials id dto)) ev)
      (fun _ calls => HasSupplied config (.admin adminSecret (.updateBusinessCredentials id dto)) calls)
      (fun _ _ => True) past := by
  refine Proc.Traced.bind (traced_assertAdminSecret_follows fun ev => ?_)
  refine Proc.Traced.bind (Proc.Traced.call fun c s => ⟨?_, fun existing _ => ?_, fun _ _ => trivial⟩)
  · refine follows_of_kept ?_ fun rows => rfl
    dsimp only [statementResult]
    split <;> rfl
  · cases existing with
    | none => trivial
    | some existing =>
      refine Proc.Traced.bind (traced_writeCredentials_or ?_ ?_ fun _ _ => trivial)
      · intro c s data a s' hfault hdata hupdate
        obtain ⟨⟨b, hb, -⟩, rfl⟩ := AuthState.updateBusiness_eq_ok hupdate
        obtain ⟨hmem, hid⟩ := AuthState.mem_of_findBusiness hb
        have hplain : ∀ rows, List.Forall₂ (Reveals config) s.businesses rows →
            (∃ p ∈ rows, p.id = id) ∧ plainUpdate id dto c rows =
              updateRow BusinessRow.id id (patch dto c.now) rows := by
          intro rows hrows
          have hthere : ∃ p ∈ rows, p.id = id := (exists_id_iff hrows).1 ⟨b, hmem, hid⟩
          refine ⟨hthere, if_neg ?_⟩
          rintro (hsome | hnull | hmissing)
          · rw [hfault] at hsome
            cases hsome
          · exact not_nullSecret_of_encryptCredentials hdata hnull
          · exact hmissing hthere
        refine ⟨fun rows hrows => ?_, _, List.mem_append_right _ List.mem_cons_self, hplain⟩
        show List.Forall₂ (Reveals config)
          (updateRow BusinessRow.id id (patch data c.now) s.businesses) (plainUpdate id dto c rows)
        rw [(hplain rows hrows).2]
        exact forall₂_updateRow (fun b p hbp => hbp.id) (fun b p hbp => hbp.patch hdata) hrows
      · intro c s hrefused rows hrows
        have hkept : plainUpdate id dto c rows = rows := by
          refine if_pos (hrefused.imp_right (Or.imp_right ?_))
          rintro ⟨data, e, hupdate⟩ hthere
          obtain ⟨b, hb, hid⟩ := (exists_id_iff hrows).2 hthere
          exact AuthState.updateBusiness_ne_error hb hid hupdate
        show List.Forall₂ (Reveals config) s.businesses (plainUpdate id dto c rows)
        rw [hkept]
        exact hrows

/-- The threads that write in clear. -/
def AuthThread.supplies : AuthThread → Bool
  | .admin _ (.registerBusiness _) | .admin _ (.updateBusinessCredentials _ _) => true
  | _ => false

/-- A thread that does neither changes no business. -/
theorem traced_follows_of_other (hother : thread.supplies = false)
    (hplain : ∀ call env rows, plainStep thread call env rows = rows)
    (hsupplied : ∀ calls : List (Event ι AuthState AuthEnv AuthCall),
      HasSupplied config thread calls) :
    (thread.run config).Traced i (fun _ ev => Follows config thread ev)
      (fun _ calls => HasSupplied config thread calls) (fun _ _ => True) [] := by
  refine Proc.Traced.imp (fun past ev _ hstep => follows_of_kept ?_ (hplain _ _))
    ((traced_authThread thread).mono (fun _ calls _ => hsupplied calls) fun _ _ h => h)
  cases hstep.businesses with
  | kept h => exact h
  | registered adminSecret dto data hthread =>
    rw [hthread] at hother
    cases hother
  | updated adminSecret id dto data hthread =>
    rw [hthread] at hother
    cases hother

/-- **Every call of every thread follows what is done in clear.** -/
theorem traced_follows (thread : AuthThread) :
    (thread.run config).Traced i (fun _ ev => Follows config thread ev)
      (fun _ calls => HasSupplied config thread calls) (fun _ _ => True) [] := by
  cases thread with
  | admin adminSecret route =>
    cases route with
    | registerBusiness dto =>
      exact Proc.Traced.bind (traced_registerBusiness.mono (fun _ _ h => h) fun _ _ h => h)
    | updateBusinessCredentials id dto =>
      exact Proc.Traced.bind (traced_updateBusinessCredentials.mono (fun _ _ h => h) fun _ _ h => h)
    | createApiKey dto => exact traced_follows_of_other rfl (fun _ _ _ => rfl) fun _ => trivial
  | guarded rawKey => exact traced_follows_of_other rfl (fun _ _ _ => rfl) fun _ => trivial
  | keys rawKey route => exact traced_follows_of_other rfl (fun _ _ _ => rfl) fun _ => trivial
  | lateTouch id => exact traced_follows_of_other rfl (fun _ _ _ => rfl) fun _ => trivial
  | idle => exact traced_follows_of_other rfl (fun _ _ _ => rfl) fun _ => trivial

end Calls

/-! ### Runs -/

section Run

variable {ι : Type} [DecidableEq ι] {config : AuthConfig} {threads : ι → AuthThread}
  {allowed : AuthCall → AuthEnv → AuthState → AuthState → Prop} {s₀ s : AuthState}
  {hist : List (Event ι AuthState AuthEnv AuthCall)} {ps : ι → AuthAction Unit}

omit [DecidableEq ι] in
/-- What has been supplied once a call has been made. -/
theorem supplied_take_succ {rows : List BusinessRow} {n : ℕ}
    {ev : Event ι AuthState AuthEnv AuthCall} (hev : hist[n]? = some ev) :
    supplied threads (hist.take (n + 1)) rows =
      plainStep (threads ev.who) ev.call ev.choice (supplied threads (hist.take n) rows) := by
  have htake : hist.take (n + 1) = hist.take n ++ [ev] := by
    rw [List.take_add_one, hev]
    rfl
  rw [htake, supplied, List.foldl_append]
  rfl

theorem reveals_of_run (run : Run allowed (fun i => (threads i).run config) s₀ hist ps s)
    {rows : List BusinessRow} (h₀ : List.Forall₂ (Reveals config) s₀.businesses rows) (n : ℕ) :
    List.Forall₂ (Reveals config) (stateAt hist s n).businesses
      (supplied threads (hist.take n) rows) := by
  have hfollows := (run.traced (K := fun i _ ev => Follows config (threads i) ev)
    fun i => traced_follows (threads i)).1
  induction n with
  | zero =>
    rw [run.stateAt_zero]
    exact h₀
  | succ n ih =>
    cases hev : hist[n]? with
    | none =>
      have hlength : hist.length ≤ n := List.getElem?_eq_none_iff.1 hev
      rw [stateAt_of_le hlength, List.take_of_length_le hlength] at ih
      rw [stateAt_of_le (by omega), List.take_of_length_le (by omega)]
      exact ih
    | some ev =>
      rw [stateAt_eq_before hev] at ih
      rw [run.stateAt_succ hev, supplied_take_succ hev]
      exact hfollows n ev hev _ ih

/-- What a call has done to the table in clear, at its place in the run. -/
theorem exists_supplied_of_mem_callsOf
    (run : Run allowed (fun i => (threads i).run config) s₀ hist ps s) {rows : List BusinessRow}
    (h₀ : List.Forall₂ (Reveals config) s₀.businesses rows) {i : ι}
    {ev : Event ι AuthState AuthEnv AuthCall} (hmem : ev ∈ callsOf i hist) :
    ∃ n, hist[n]? = some ev ∧ ev.who = i ∧
      List.Forall₂ (Reveals config) ev.before.businesses (supplied threads (hist.take n) rows) ∧
        supplied threads (hist.take (n + 1)) rows =
          plainStep (threads i) ev.call ev.choice (supplied threads (hist.take n) rows) := by
  obtain ⟨hwho, n, hev⟩ := mem_callsOf.1 hmem
  refine ⟨n, hev, hwho, ?_, ?_⟩
  · rw [← stateAt_eq_before hev]
    exact reveals_of_run run h₀ n
  · rw [supplied_take_succ hev, hwho]

/-- **The table of the code is the table in clear, encrypted**: in every state of a run, what is
decrypted for a business, and what is shown of it, is what the requests have supplied. A registration
that has returned has supplied its business, and an update its credentials. -/
theorem credentials_refine (hcrypto : config.crypto.Lawful)
    (run : Run allowed (fun i => (threads i).run config) s₀ hist ps s) {rows : List BusinessRow}
    (h₀ : List.Forall₂ (Reveals config) s₀.businesses rows) :
    (∀ n, List.Forall₂ (fun b p => b.id = p.id ∧
        AuthService.getDecryptedCredentials config b = plainCredentials p ∧
          AuthService.profile b = plainProfile p)
      (stateAt hist s n).businesses (supplied threads (hist.take n) rows)) ∧
    (∀ i adminSecret dto, threads i = .admin adminSecret (.registerBusiness dto) →
      (ps i).returned = some () → ∃ (n : ℕ) (ev : _), hist[n]? = some ev ∧ ev.who = i ∧
        supplied threads (hist.take (n + 1)) rows = supplied threads (hist.take n) rows ++
          [newBusiness dto dto.toCredentialsDto ev.choice.row]) ∧
    ∀ i adminSecret id dto, threads i = .admin adminSecret (.updateBusinessCredentials id dto) →
      (ps i).returned = some () → ∃ (n : ℕ) (ev : _), hist[n]? = some ev ∧ ev.who = i ∧
        (∃ p ∈ supplied threads (hist.take n) rows, p.id = id) ∧
          supplied threads (hist.take (n + 1)) rows = updateRow BusinessRow.id id
            (patch dto ev.choice.now) (supplied threads (hist.take n) rows) := by
  have hreveals := reveals_of_run run h₀
  have hends := (run.traced (Q := fun i _ calls => HasSupplied config (threads i) calls)
    fun i => traced_follows (threads i)).2
  have hsupplied : ∀ i, (ps i).returned = some () →
      HasSupplied config (threads i) (callsOf i hist) := by
    intro i hi
    have hend := hends i
    rw [Proc.returned_eq_some.1 hi] at hend
    exact hend
  refine ⟨fun n => (hreveals n).imp fun _ _ h => ⟨h.id, h.getDecryptedCredentials hcrypto, h.profile⟩,
    ?_, ?_⟩
  · intro i adminSecret dto hthread hi
    have hwritten := hsupplied i hi
    rw [hthread] at hwritten
    obtain ⟨ev, hmem, hplain⟩ := hwritten
    obtain ⟨n, hev, hwho, hbefore, hstep⟩ := exists_supplied_of_mem_callsOf run h₀ hmem
    rw [hthread] at hstep
    exact ⟨n, ev, hev, hwho, hstep.trans (hplain _ hbefore)⟩
  · intro i adminSecret id dto hthread hi
    have hwritten := hsupplied i hi
    rw [hthread] at hwritten
    obtain ⟨ev, hmem, hplain⟩ := hwritten
    obtain ⟨n, hev, hwho, hbefore, hstep⟩ := exists_supplied_of_mem_callsOf run h₀ hmem
    rw [hthread] at hstep
    exact ⟨n, ev, hev, hwho, (hplain _ hbefore).1, hstep.trans (hplain _ hbefore).2⟩

end Run

/-! ### Whether they are complete -/

section Flag

variable {config : AuthConfig} {env : AuthCall → AuthEnv} {s s' : AuthState} {id : String}
  {dto : CredentialsDto} {adminSecret : Option String} {r : UpdateBusinessCredentialsResult}

/-- An update that answers, alone. -/
theorem updateBusinessCredentials_runWith
    (h : (updateBusinessCredentials config id dto adminSecret).runWith env s = (.ok r, s')) :
    ∃ b data, s.findBusiness id = some b ∧
      encryptCredentials config (env (.updateBusiness id)) dto = .ok data ∧
        s'.businesses = updateRow BusinessRow.id id
          (patch data (env (.updateBusiness id)).now) s.businesses ∧
          r.hasNombaCredentials = mergedComplete dto b := by
  unfold updateBusinessCredentials at h
  rw [Proc.bind_eq, Proc.runWith_bind] at h
  split at h
  next u s₁ hadmin =>
    have hs₁ : s₁ = s := by
      unfold assertAdminSecret at hadmin
      rw [Proc.runWith_call] at hadmin
      split at hadmin
      · cases hadmin
      · split at hadmin <;> cases hadmin
        rfl
    subst hs₁
    rw [Proc.bind_eq, Proc.runWith_bind] at h
    split at h
    next existing s₂ hread =>
      rw [authFind, authStatement, Proc.runWith_call] at hread
      cases statementResult_eq_ok hread
      cases hb : s₁.findBusiness id with
      | none =>
        rw [hb] at h
        cases h
      | some b =>
        rw [hb] at h
        simp only [Proc.bind_eq, Proc.runWith_bind, writeCredentials, Proc.runWith_call] at h
        cases hdata : encryptCredentials config (env (.updateBusiness id)) dto with
        | error e =>
          rw [hdata] at h
          cases h
        | ok data =>
          rw [hdata] at h
          simp only at h
          split at h
          next updated s₃ hupdate =>
            obtain ⟨-, hs₃⟩ := AuthState.updateBusiness_eq_ok (statementResult_eq_ok hupdate)
            cases h
            exact ⟨b, data, rfl, rfl, congrArg AuthState.businesses hs₃, rfl⟩
          next => cases h
    next => cases h
  next => cases h

theorem findBusiness_updateRow {set : BusinessRow → BusinessRow} {b : BusinessRow}
    (hset : ∀ x, (set x).id = x.id) (hs' : s'.businesses = updateRow BusinessRow.id id set s.businesses)
    (hb : s.findBusiness id = some b) : s'.findBusiness id = some (set b) := by
  unfold AuthState.findBusiness at hb ⊢
  rw [hs', updateRow, List.find?_map]
  have hsame : ((fun b : BusinessRow => decide (b.id = id)) ∘ fun x => if x.id = id then set x else x) =
      fun b => decide (b.id = id) := by
    funext x
    simp only [Function.comp_apply]
    split
    next hx => rw [hset]
    next => rfl
  have hid : b.id = id := by simpa using List.find?_some hb
  rw [hsame, hb, Option.map_some, if_pos hid]

/-- A field is neither taken away nor left empty. -/
def Filled (given : Option (Option String)) (existing : Option String) : Prop :=
  given ≠ some none ∧ given.getD existing ≠ some ""

/-- A field in clear that is said to be there is there, unless it is not filled. -/
theorem isTruthy_getD_iff {given : Option (Option String)} {existing : Option String}
    (h : isComplete given existing) : isTruthy (given.getD existing) ↔ Filled given existing := by
  unfold isComplete at h
  unfold Filled isTruthy
  cases given with
  | none =>
    obtain ⟨t, rfl⟩ := Option.isSome_iff_exists.1 h
    simp
  | some given => cases given <;> simp

theorem isComplete_of_isTruthy {given : Option (Option String)} {existing : Option String}
    (h : isTruthy (given.getD existing)) : isComplete given existing := by
  unfold isComplete
  cases given with
  | none =>
    obtain ⟨t, ht, -⟩ := isTruthy_iff.1 h
    rw [Option.getD_none] at ht
    simp [ht]
  | some given =>
    obtain ⟨t, ht, -⟩ := isTruthy_iff.1 h
    rw [Option.getD_some] at ht
    simp [ht]

/-- A stored secret is there if and only if it is said to be; it cannot be taken away. -/
theorem isTruthy_sealed_iff {iv : Vector UInt8 16} {data given : Option (Option String)}
    {stored secret : Option String} (hdata : encryptField config iv given = .ok data)
    (hstored : Option.Rel (SealedAs config) stored secret) :
    isTruthy (data.getD stored) = isComplete given stored := by
  rw [isTruthy_of_rel (rel_getD (encryptField_eq_ok hdata) hstored)]
  unfold isComplete
  cases given with
  | none => exact (isSome_eq_of_rel hstored).symm
  | some given =>
    cases given with
    | none => cases hdata
    | some secret => rfl

/-- **When the flag of an update is right.** An update that runs alone answers with the
`hasNombaCredentials` that the profile shows afterwards if and only if, when it answers with `true`,
it has taken away none of the three ids, and left none of them empty. -/
theorem update_flag_agrees_iff
    (hstored : ∀ b ∈ s.businesses, ∃ p, Reveals config b p)
    (h : (updateBusinessCredentials config id dto adminSecret).runWith env s = (.ok r, s')) :
    ∃ b b', s.findBusiness id = some b ∧ s'.findBusiness id = some b' ∧
      (r.hasNombaCredentials = (profile b').hasNombaCredentials ↔
        (r.hasNombaCredentials → Filled dto.nombaAccountId b.nombaAccountId ∧
          Filled dto.nombaSubAccountId b.nombaSubAccountId ∧
            Filled dto.nombaClientId b.nombaClientId)) := by
  obtain ⟨b, data, hb, hdata, hs', hflag⟩ := updateBusinessCredentials_runWith h
  have hfound := findBusiness_updateRow (fun x => by rfl) hs' hb
  refine ⟨b, _, hb, hfound, ?_⟩
  obtain ⟨p, hp⟩ := hstored b (AuthState.mem_of_findBusiness hb).1
  obtain ⟨hdto, hclient, hwebhook⟩ := encryptCredentials_eq_ok hdata
  have hclientSet := isTruthy_sealed_iff hclient hp.clientSecret
  have hwebhookSet := isTruthy_sealed_iff hwebhook hp.webhookSecret
  -- the profile, in terms of what was given
  have hprofile : (profile (patch data (env (.updateBusiness id)).now b)).hasNombaCredentials = true ↔
      isTruthy (dto.nombaAccountId.getD b.nombaAccountId) ∧
        isTruthy (dto.nombaSubAccountId.getD b.nombaSubAccountId) ∧
          isTruthy (dto.nombaClientId.getD b.nombaClientId) ∧
            isComplete dto.nombaClientSecret b.nombaClientSecret ∧
              isComplete dto.nombaWebhookSecret b.nombaWebhookSecret := by
    rw [← hclientSet, ← hwebhookSet, hdto]
    exact decide_eq_true_iff
  have hsaid : r.hasNombaCredentials = true ↔ isComplete dto.nombaAccountId b.nombaAccountId ∧
      isComplete dto.nombaSubAccountId b.nombaSubAccountId ∧
        isComplete dto.nombaClientId b.nombaClientId ∧
          isComplete dto.nombaClientSecret b.nombaClientSecret ∧
            isComplete dto.nombaWebhookSecret b.nombaWebhookSecret := by
    rw [hflag, mergedComplete]
    simp only [Bool.and_eq_true, and_assoc]
  rw [Bool.eq_iff_iff, hprofile]
  constructor
  · intro hagree hr
    obtain ⟨haccount, hsub, hclientId, -⟩ := hsaid.1 hr
    obtain ⟨haccount', hsub', hclientId', -⟩ := hagree.1 hr
    exact ⟨(isTruthy_getD_iff haccount).1 haccount', (isTruthy_getD_iff hsub).1 hsub',
      (isTruthy_getD_iff hclientId).1 hclientId'⟩
  · intro hfilled
    constructor
    · intro hr
      obtain ⟨haccount, hsub, hclientId, hsecrets⟩ := hsaid.1 hr
      obtain ⟨haccount', hsub', hclientId'⟩ := hfilled hr
      exact ⟨(isTruthy_getD_iff haccount).2 haccount', (isTruthy_getD_iff hsub).2 hsub',
        (isTruthy_getD_iff hclientId).2 hclientId', hsecrets⟩
    · rintro ⟨haccount, hsub, hclientId, hsecrets⟩
      exact hsaid.2 ⟨isComplete_of_isTruthy haccount, isComplete_of_isTruthy hsub,
        isComplete_of_isTruthy hclientId, hsecrets⟩

end Flag

/-! ### An encrypted table -/

namespace Sample

/-- The ciphertexts of two secrets, under a key of zeros; anything else is left in clear. -/
def twoSecrets : CryptoRuntime where
  sha256 := digests.sha256
  hmacSha256 := digests.hmacSha256
  gcmSeal key iv plaintext :=
    if key = Vector.replicate 32 0 ∧ iv = Vector.replicate 16 0 ∧ plaintext = utf8 "s3cr3t" then
      ([172, 96, 163, 127, 3, 99],
        #v[33, 49, 233, 39, 153, 229, 154, 97, 120, 215, 17, 33, 213, 123, 148, 100])
    else if key = Vector.replicate 32 0 ∧ iv = Vector.replicate 16 1 ∧ plaintext = utf8 "whsec" then
      ([210, 210, 141, 59, 27],
        #v[252, 34, 177, 169, 209, 21, 122, 104, 32, 60, 47, 234, 146, 140, 54, 27])
    else (plaintext, Vector.replicate 16 0)
  gcmOpen key iv ciphertext tag :=
    if tag = List.replicate 16 0 then some ciphertext
    else if key = Vector.replicate 32 0 ∧ iv = List.replicate 16 0 ∧
        ciphertext = [172, 96, 163, 127, 3, 99] ∧
        tag = [33, 49, 233, 39, 153, 229, 154, 97, 120, 215, 17, 33, 213, 123, 148, 100] then
      some (utf8 "s3cr3t")
    else if key = Vector.replicate 32 0 ∧ iv = List.replicate 16 1 ∧
        ciphertext = [210, 210, 141, 59, 27] ∧
        tag = [252, 34, 177, 169, 209, 21, 122, 104, 32, 60, 47, 234, 146, 140, 54, 27] then
      some (utf8 "whsec")
    else none
  decodeUtf8 := digests.decodeUtf8

theorem twoSecrets_lawful : twoSecrets.Lawful where
  gcmOpen_gcmSeal key iv plaintext := by
    simp only [twoSecrets]
    split
    next h =>
      obtain ⟨rfl, rfl, rfl⟩ := h
      rfl
    next =>
      split
      next h =>
        obtain ⟨rfl, rfl, rfl⟩ := h
        rfl
      next => rfl
  decodeUtf8_utf8 text := by
    have hbytes : (⟨(utf8 text).toArray⟩ : ByteArray) = text.toUTF8 := by simp [utf8]
    have hvalid : text.toUTF8.IsValidUTF8 := text.isValidUTF8
    simp only [twoSecrets, digests, hbytes, String.fromUTF8?, dif_pos hvalid]
    rfl

/-- A business is registered with its credentials, and an id of it is taken away. -/
def credentialRequests : Bool → AuthThread
  | false => .admin (some "admin-secret") (.registerBusiness {
      name := "AjoApp"
      email := "ops@ajo.app"
      nombaAccountId := some (some "acc1")
      nombaSubAccountId := some (some "sub1")
      nombaClientId := some (some "cli1")
      nombaClientSecret := some (some "s3cr3t")
      nombaWebhookSecret := some (some "whsec") })
  | true => .admin (some "admin-secret") (.updateBusinessCredentials "biz1"
      { nombaClientId := some (some "cli2") })

def sealedConfig : AuthConfig where
  crypto := twoSecrets
  encryptionKey := "0000000000000000000000000000000000000000000000000000000000000000"
  adminSecret := "admin-secret"

def credentialEnvs : List (Bool × AuthEnv) :=
  [(false, {}), (false, { row := ⟨1, "biz1"⟩, webhookSecretIv := Vector.replicate 16 1 }),
    (true, {}), (true, {}), (true, { now := 2 })]

def noBusinesses : AuthState := {}

def credentialRun :
    List (Event Bool AuthState AuthEnv AuthCall) × (Bool → AuthAction Unit) × AuthState :=
  exec (fun i => (credentialRequests i).run sealedConfig) noBusinesses credentialEnvs

theorem credential_isRun :
    Run (fun _ _ _ _ => True) (fun i => (credentialRequests i).run sealedConfig) noBusinesses
      credentialRun.1 credentialRun.2.1 credentialRun.2.2 :=
  Run.of_exec _ noBusinesses credentialEnvs fun _ _ => trivial

/-- The business as it is registered. -/
def sealedBusiness : BusinessRow where
  id := "biz1"
  name := "AjoApp"
  email := "ops@ajo.app"
  nombaAccountId := some "acc1"
  nombaSubAccountId := some "sub1"
  nombaClientId := some "cli1"
  nombaClientSecret := some (CryptoUtils.encrypt twoSecrets (Vector.replicate 16 0) "s3cr3t"
    (encryptionKey sealedConfig))
  nombaWebhookSecret := some (CryptoUtils.encrypt twoSecrets (Vector.replicate 16 1) "whsec"
    (encryptionKey sealedConfig))

/-- An update that leaves its client id empty. -/
def emptied : Except Error UpdateBusinessCredentialsResult × AuthState :=
  (updateBusinessCredentials sealedConfig "biz1" { nombaClientId := some (some "") }
    (some "admin-secret")).runWith (fun _ => {}) { businesses := [sealedBusiness] }

end Sample

/-- The business is as it was registered, up to the new client id. -/
theorem credentials_refine_registered :
    ∃ hist ps s, Run (fun _ _ _ _ => True)
        (fun i => (Sample.credentialRequests i).run Sample.sealedConfig) Sample.noBusinesses hist ps
        s ∧
      List.Forall₂ (fun b p => b.id = p.id ∧
          AuthService.getDecryptedCredentials Sample.sealedConfig b = plainCredentials p ∧
            AuthService.profile b = plainProfile p)
        (stateAt hist s 5).businesses (supplied Sample.credentialRequests (hist.take 5) []) ∧
      (supplied Sample.credentialRequests (hist.take 5) []).map BusinessRow.nombaClientId =
        [some "cli2"] := by
  have hrefines := (credentials_refine Sample.twoSecrets_lawful Sample.credential_isRun .nil).1 5
  exact ⟨_, _, _, Sample.credential_isRun, hrefines, by decide +kernel⟩

/-- The update that leaves the client id empty answers with `true`, and the profile says otherwise. -/
theorem update_flag_agrees_iff_emptied :
    ∃ b b', AuthState.findBusiness { businesses := [Sample.sealedBusiness] } "biz1" = some b ∧
      Sample.emptied.2.findBusiness "biz1" = some b' ∧
        (true = (profile b').hasNombaCredentials ↔ (true → Filled none b.nombaAccountId ∧
          Filled none b.nombaSubAccountId ∧ Filled (some (some "")) b.nombaClientId)) := by
  have hanswer : Sample.emptied.1.toOption = some ⟨"biz1", "AjoApp", true⟩ := by decide +kernel
  have hrun : Sample.emptied = (.ok ⟨"biz1", "AjoApp", true⟩, Sample.emptied.2) := by
    refine Prod.ext ?_ rfl
    cases h : Sample.emptied.1 with
    | error e =>
      rw [h] at hanswer
      cases hanswer
    | ok r =>
      rw [h] at hanswer
      rw [Option.some.inj hanswer]
  have hstored : ∀ b ∈ [Sample.sealedBusiness], ∃ p, Reveals Sample.sealedConfig b p := by
    intro b hb
    rw [List.mem_singleton.1 hb]
    exact ⟨{ Sample.sealedBusiness with
      nombaClientSecret := some "s3cr3t", nombaWebhookSecret := some "whsec" }, rfl,
      .some ⟨_, rfl⟩, .some ⟨_, rfl⟩⟩
  exact update_flag_agrees_iff hstored hrun

end AccountOS
