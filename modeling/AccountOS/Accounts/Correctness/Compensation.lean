import AccountOS.Accounts.Correctness.WritePaths
import AccountOS.Store.Trace

/-!
# Virtual accounts and their compensation

`provisionAccount` has Nomba create a virtual account, then writes the `Account` row, and when it
cannot write the row it has the virtual account expired. Nomba identifies a virtual account by its
reference within a business, so calls with one reference share it.

* `compensation_harmless`: while no call is given a virtual account that another call or a row still
  counts on, every account that was not closed has a live one; and none is left live without a row
  or a call that has yet to finish, when every compensation succeeds.
* `compensation_disables_recorded`: of two calls with one reference, the one that comes too late
  disables the virtual account of the other one.
-/

namespace AccountOS

open Conc

/-! ### Nomba's side -/

/-- What Nomba identifies a virtual account by. -/
structure VirtualAccount where
  businessId : String
  accountRef : String
deriving DecidableEq, Repr

inductive DvaState
  | absent
  | live
  | disabled
deriving DecidableEq, Repr

def Account.virtualAccount (a : Account) : VirtualAccount := ⟨a.businessId, a.nombaAccountId⟩

/-- A call of `provisionAccount`. -/
structure ProvisionCall where
  dto : ProvisionAccountDto
  businessId : String

namespace ProvisionCall

def run (isUrl : String → Bool) (c : ProvisionCall) : Action ProvisionedAccount :=
  provisionAccount isUrl c.dto c.businessId

/-- The one that it asks for. -/
def virtualAccount (c : ProvisionCall) : VirtualAccount := ⟨c.businessId, c.dto.accountRef⟩

end ProvisionCall

section Nomba

variable {ι : Type} (calls : ι → ProvisionCall) (v : VirtualAccount) (ev : Event ι World Env Call)

/-- Nomba answers a `provisionDva` with the virtual account. -/
def Gives : Prop :=
  ev.call = .provisionDva v.accountRef ∧ ev.choice.fault = none ∧
    (calls ev.who).businessId = v.businessId

/-- Nomba answers an `expireAccount` for it. -/
def Disables : Prop :=
  ev.call = .expireDva v.accountRef ∧ ev.choice.fault = none ∧
    (calls ev.who).businessId = v.businessId

instance : Decidable (Gives calls v ev) := inferInstanceAs (Decidable (_ ∧ _ ∧ _))

instance : Decidable (Disables calls v ev) := inferInstanceAs (Decidable (_ ∧ _ ∧ _))

/-- What is known of Nomba, `dva n` being its virtual accounts before call `n`. What it does when it
is asked again for one that is disabled is left open. -/
structure NombaBehaves (dva : ℕ → VirtualAccount → DvaState) (hist : Calls ι) : Prop where
  gives : ∀ n ev v, hist[n]? = some ev → Gives calls v ev → dva n v ≠ .disabled →
    dva (n + 1) v = .live
  disables : ∀ n ev v, hist[n]? = some ev → Disables calls v ev → dva (n + 1) v = .disabled
  keeps : ∀ n ev v, hist[n]? = some ev → ¬ Gives calls v ev → ¬ Disables calls v ev →
    dva (n + 1) v = dva n v

/-- Whenever a call is given a virtual account, no row has it, all calls that were given it before
have made their compensation, and Nomba has it live again if it was disabled. -/
def GivenAlone (dva : ℕ → VirtualAccount → DvaState) (hist : Calls ι) : Prop :=
  ∀ past ev, past ++ [ev] <+: hist → ∀ v, Gives calls v ev →
    (∀ a ∈ ev.before.db.accounts, a.virtualAccount ≠ v) ∧
    (∀ ev₁ ∈ past, Gives calls v ev₁ → ∃ ev₂ ∈ past, ev₂.who = ev₁.who ∧
      ∃ ref, ev₂.call = .expireDva ref) ∧
    (dva past.length v = .disabled → dva (past.length + 1) v = .live)

/-- No compensation has failed. -/
def AllExpired (hist : Calls ι) : Prop :=
  ∀ ev ∈ hist, ∀ ref, ev.call = .expireDva ref → ev.choice.fault = none

end Nomba

section Histories

variable {ι : Type} {calls : ι → ProvisionCall} {dva : ℕ → VirtualAccount → DvaState}
  {hist : Calls ι} {ev : Event ι World Env Call}

theorem NombaBehaves.before (h : NombaBehaves calls dva (hist ++ [ev])) :
    NombaBehaves calls dva hist := by
  have hget : ∀ (n : ℕ) (ev' : Event ι World Env Call), hist[n]? = some ev' →
      (hist ++ [ev])[n]? = some ev' := by
    intro n ev' hev'
    rw [List.getElem?_append_left (List.getElem?_eq_some_iff.1 hev').1, hev']
  exact ⟨fun n ev' v hev' => h.gives n ev' v (hget n ev' hev'),
    fun n ev' v hev' => h.disables n ev' v (hget n ev' hev'),
    fun n ev' v hev' => h.keeps n ev' v (hget n ev' hev')⟩

theorem GivenAlone.before (h : GivenAlone calls dva (hist ++ [ev])) : GivenAlone calls dva hist :=
  fun past ev' hpast => h past ev' (hpast.trans (List.prefix_append _ _))

theorem AllExpired.before (h : AllExpired (hist ++ [ev])) : AllExpired hist :=
  fun ev' hev' => h ev' (List.mem_append_left _ hev')

/-- A call that Nomba does not answer, or that is not to Nomba. -/
theorem NombaBehaves.same (h : NombaBehaves calls dva (hist ++ [ev]))
    (hev : (∀ ref, ev.call ≠ .provisionDva ref ∧ ev.call ≠ .expireDva ref) ∨ ev.choice.fault ≠ none)
    (v : VirtualAccount) : dva (hist ++ [ev]).length v = dva hist.length v := by
  rw [List.length_append, List.length_singleton]
  refine h.keeps _ ev v List.getElem?_concat_length ?_ ?_
  · rintro ⟨hcall, hfault, -⟩
    rcases hev with hev | hev
    · exact (hev _).1 hcall
    · exact hev hfault
  · rintro ⟨hcall, hfault, -⟩
    rcases hev with hev | hev
    · exact (hev _).2 hcall
    · exact hev hfault

/-- One that it does answer is about one virtual account. -/
theorem NombaBehaves.same_of_ne (h : NombaBehaves calls dva (hist ++ [ev]))
    {u v : VirtualAccount} (hev : Gives calls u ev ∨ Disables calls u ev) (hne : v ≠ u) :
    dva (hist ++ [ev]).length v = dva hist.length v := by
  have hsame : ∀ ref, ev.call = .provisionDva ref ∨ ev.call = .expireDva ref → ref = v.accountRef →
      (calls ev.who).businessId = v.businessId → v = u := by
    intro ref hcall href hbusiness
    rcases hev with ⟨hcall', -, hbusiness'⟩ | ⟨hcall', -, hbusiness'⟩ <;>
      rw [hcall'] at hcall <;> rw [hbusiness'] at hbusiness <;>
      rcases hcall with hcall | hcall <;> cases hcall <;>
      exact (congrArg₂ VirtualAccount.mk hbusiness href).symm
  rw [List.length_append, List.length_singleton]
  refine h.keeps _ ev v List.getElem?_concat_length ?_ ?_
  · rintro ⟨hcall, -, hbusiness⟩
    exact hne (hsame _ (.inl hcall) rfl hbusiness)
  · rintro ⟨hcall, -, hbusiness⟩
    exact hne (hsame _ (.inr hcall) rfl hbusiness)

end Histories

/-! ### The invariants -/

/-- Whether a call has a virtual account that it has neither recorded nor tried to expire. -/
inductive ProvisionStage
  | outside
  | holding
  | done
deriving DecidableEq

/-- What a call holds is live and nobody else's. -/
structure Unharmed {ι : Type} (calls : ι → ProvisionCall) (dva : ℕ → VirtualAccount → DvaState)
    (G : ι → ProvisionStage) (hist : Calls ι) (w : World) : Prop where
  recorded : ∀ a ∈ w.db.accounts, a.status ≠ .closed → dva hist.length a.virtualAccount = .live
  held : ∀ i, G i = .holding → dva hist.length (calls i).virtualAccount = .live
  alone : ∀ i j, G i = .holding → G j = .holding →
    (calls i).virtualAccount = (calls j).virtualAccount → i = j
  free : ∀ i, G i = .holding → ∀ a ∈ w.db.accounts, a.virtualAccount ≠ (calls i).virtualAccount
  given : ∀ i, G i = .holding → ∃ ev ∈ hist, ev.who = i ∧ Gives calls (calls i).virtualAccount ev
  untried : ∀ i, G i ≠ .done → ∀ ev ∈ hist, ev.who = i → ∀ ref, ev.call ≠ .expireDva ref

/-- What is live is recorded, or somebody holds it. -/
def LiveAttended {ι : Type} (calls : ι → ProvisionCall) (dva : ℕ → VirtualAccount → DvaState)
    (G : ι → ProvisionStage) (hist : Calls ι) (w : World) : Prop :=
  ∀ v, dva hist.length v = .live → (∃ a ∈ w.db.accounts, a.virtualAccount = v) ∨
    ∃ i, G i = .holding ∧ (calls i).virtualAccount = v

section Steps

variable {ι : Type} {calls : ι → ProvisionCall} {dva : ℕ → VirtualAccount → DvaState}
  {G : ι → ProvisionStage} {hist : Calls ι} {ev : Event ι World Env Call} {w w' : World}

namespace Unharmed

/-- A call that has nothing to do with virtual accounts. -/
theorem frame (h : Unharmed calls dva G hist w)
    (hdva : ∀ v, dva (hist ++ [ev]).length v = dva hist.length v)
    (haccounts : w'.db.accounts = w.db.accounts) (hcall : ∀ ref, ev.call ≠ .expireDva ref) :
    Unharmed calls dva G (hist ++ [ev]) w' where
  recorded a ha := by
    rw [haccounts] at ha
    rw [hdva]
    exact h.recorded a ha
  held i hi := by
    rw [hdva]
    exact h.held i hi
  alone := h.alone
  free i hi a ha := by
    rw [haccounts] at ha
    exact h.free i hi a ha
  given i hi := by
    obtain ⟨ev', hev', hgiven⟩ := h.given i hi
    exact ⟨ev', List.mem_append_left _ hev', hgiven⟩
  untried i hi ev' hev' hwho := by
    rcases List.mem_append.1 hev' with hev' | hev'
    · exact h.untried i hi ev' hev' hwho
    · rw [List.mem_singleton.1 hev']
      exact hcall

variable [DecidableEq ι]

/-- A call is given a virtual account that nobody counts on. -/
theorem gives (h : Unharmed calls dva G hist ev.before)
    (hnomba : NombaBehaves calls dva (hist ++ [ev])) (hcond : GivenAlone calls dva (hist ++ [ev]))
    (houtside : G ev.who = .outside) (hgives : Gives calls (calls ev.who).virtualAccount ev) :
    Unharmed calls dva (Function.update G ev.who .holding) (hist ++ [ev]) ev.before := by
  obtain ⟨hrows, hothers, hrevived⟩ := hcond hist ev (List.prefix_refl _) _ hgives
  have hlive : dva (hist ++ [ev]).length (calls ev.who).virtualAccount = .live := by
    rw [List.length_append, List.length_singleton]
    by_cases hdisabled : dva hist.length (calls ev.who).virtualAccount = .disabled
    · exact hrevived hdisabled
    · exact hnomba.gives _ ev _ List.getElem?_concat_length hgives hdisabled
  -- whoever holds one was given it before, and has not tried to expire it
  have hapart : ∀ j, G j = .holding →
      (calls j).virtualAccount ≠ (calls ev.who).virtualAccount := by
    intro j hj hsame
    obtain ⟨ev₁, hev₁, hwho, hgives₁⟩ := h.given j hj
    rw [hsame] at hgives₁
    obtain ⟨ev₂, hev₂, hwho₂, ref, hcall⟩ := hothers ev₁ hev₁ hgives₁
    exact h.untried j (by rw [hj]; nofun) ev₂ hev₂ (hwho₂.trans hwho) ref hcall
  have hdva : ∀ v, v ≠ (calls ev.who).virtualAccount →
      dva (hist ++ [ev]).length v = dva hist.length v :=
    fun v hv => hnomba.same_of_ne (.inl hgives) hv
  refine ⟨?_, ?_, ?_, ?_, ?_, ?_⟩
  · intro a ha hopen
    rw [hdva _ (hrows a ha)]
    exact h.recorded a ha hopen
  · intro j hj
    by_cases hji : j = ev.who
    · rw [hji]
      exact hlive
    · rw [Function.update_of_ne hji] at hj
      rw [hdva _ (hapart j hj)]
      exact h.held j hj
  · intro j k hj hk hsame
    by_cases hji : j = ev.who
    · by_cases hki : k = ev.who
      · rw [hji, hki]
      · rw [Function.update_of_ne hki] at hk
        rw [hji] at hsame
        exact absurd hsame.symm (hapart k hk)
    · rw [Function.update_of_ne hji] at hj
      by_cases hki : k = ev.who
      · rw [hki] at hsame
        exact absurd hsame (hapart j hj)
      · rw [Function.update_of_ne hki] at hk
        exact h.alone j k hj hk hsame
  · intro j hj
    by_cases hji : j = ev.who
    · rw [hji]
      exact hrows
    · rw [Function.update_of_ne hji] at hj
      exact h.free j hj
  · intro j hj
    by_cases hji : j = ev.who
    · rw [hji]
      exact ⟨ev, List.mem_append_right _ (List.mem_singleton_self _), rfl, hgives⟩
    · rw [Function.update_of_ne hji] at hj
      obtain ⟨ev', hev', hgiven⟩ := h.given j hj
      exact ⟨ev', List.mem_append_left _ hev', hgiven⟩
  · intro j hj ev' hev' hwho ref
    rcases List.mem_append.1 hev' with hev' | hev'
    · refine h.untried j ?_ ev' hev' hwho ref
      by_cases hji : j = ev.who
      · rw [hji, houtside]
        nofun
      · rwa [Function.update_of_ne hji] at hj
    · rw [List.mem_singleton.1 hev', hgives.1]
      nofun

/-- The holder has recorded it, or has tried to expire it: it holds it no longer. -/
theorem release (h : Unharmed calls dva G hist w) (i : ι) (hi : G i = .holding)
    (hrecorded : ∀ a ∈ w'.db.accounts, a.status ≠ .closed →
      dva (hist ++ [ev]).length a.virtualAccount = .live)
    (hrows : ∀ a ∈ w'.db.accounts, a ∈ w.db.accounts ∨
      a.virtualAccount = (calls i).virtualAccount)
    (hdva : ∀ v, v ≠ (calls i).virtualAccount → dva (hist ++ [ev]).length v = dva hist.length v)
    (hwho : ev.who = i) :
    Unharmed calls dva (Function.update G i .done) (hist ++ [ev]) w' := by
  have hback : ∀ j, Function.update G i .done j = .holding → j ≠ i ∧ G j = .holding := by
    intro j hj
    by_cases hji : j = i
    · rw [hji, Function.update_self] at hj
      cases hj
    · rw [Function.update_of_ne hji] at hj
      exact ⟨hji, hj⟩
  -- no two threads hold one virtual account
  have hapart : ∀ j, j ≠ i → G j = .holding →
      (calls j).virtualAccount ≠ (calls i).virtualAccount :=
    fun j hji hj hsame => hji (h.alone j i hj hi hsame)
  refine ⟨hrecorded, ?_, ?_, ?_, ?_, ?_⟩
  · intro j hj
    obtain ⟨hji, hj⟩ := hback j hj
    rw [hdva _ (hapart j hji hj)]
    exact h.held j hj
  · exact fun j k hj hk => h.alone j k (hback j hj).2 (hback k hk).2
  · intro j hj a ha
    obtain ⟨hji, hj⟩ := hback j hj
    rcases hrows a ha with ha | ha
    · exact h.free j hj a ha
    · rw [ha]
      exact (hapart j hji hj).symm
  · intro j hj
    obtain ⟨ev', hev', hgiven⟩ := h.given j (hback j hj).2
    exact ⟨ev', List.mem_append_left _ hev', hgiven⟩
  · intro j hj ev' hev' hwho'
    have hji : j ≠ i := by
      rintro rfl
      exact hj (Function.update_self ..)
    rw [Function.update_of_ne hji] at hj
    rcases List.mem_append.1 hev' with hev' | hev'
    · exact h.untried j hj ev' hev' hwho'
    · rw [List.mem_singleton.1 hev'] at hwho'
      exact absurd (hwho'.symm.trans hwho) hji

end Unharmed

namespace LiveAttended

theorem frame (h : LiveAttended calls dva G hist w)
    (hdva : ∀ v, dva (hist ++ [ev]).length v = dva hist.length v)
    (haccounts : w'.db.accounts = w.db.accounts) : LiveAttended calls dva G (hist ++ [ev]) w' := by
  intro v hv
  rw [hdva] at hv
  rw [haccounts]
  exact h v hv

variable [DecidableEq ι]

theorem gives (h : LiveAttended calls dva G hist w)
    (hnomba : NombaBehaves calls dva (hist ++ [ev])) (houtside : G ev.who = .outside)
    (hgives : Gives calls (calls ev.who).virtualAccount ev) :
    LiveAttended calls dva (Function.update G ev.who .holding) (hist ++ [ev]) w := by
  intro v hv
  by_cases hsame : v = (calls ev.who).virtualAccount
  · exact .inr ⟨ev.who, Function.update_self .., hsame.symm⟩
  · rw [hnomba.same_of_ne (.inl hgives) hsame] at hv
    rcases h v hv with hrow | ⟨j, hj, hjv⟩
    · exact .inl hrow
    · have hji : j ≠ ev.who := by
        rintro rfl
        rw [houtside] at hj
        cases hj
      exact .inr ⟨j, by rw [Function.update_of_ne hji, hj], hjv⟩

theorem release (h : LiveAttended calls dva G hist w) (i : ι)
    (hrows : w.db.accounts ⊆ w'.db.accounts)
    (hdva : ∀ v, v ≠ (calls i).virtualAccount → dva (hist ++ [ev]).length v = dva hist.length v)
    (hown : dva (hist ++ [ev]).length (calls i).virtualAccount = .live →
      ∃ a ∈ w'.db.accounts, a.virtualAccount = (calls i).virtualAccount) :
    LiveAttended calls dva (Function.update G i .done) (hist ++ [ev]) w' := by
  intro v hv
  by_cases hsame : v = (calls i).virtualAccount
  · rw [hsame] at hv ⊢
    exact .inl (hown hv)
  · rw [hdva v hsame] at hv
    rcases h v hv with ⟨a, ha, hav⟩ | ⟨j, hj, hjv⟩
    · exact .inl ⟨a, hrows ha, hav⟩
    · have hji : j ≠ i := by
        rintro rfl
        exact hsame hjv.symm
      exact .inr ⟨j, by rw [Function.update_of_ne hji, hj], hjv⟩

end LiveAttended

end Steps

/-! ### `provisionAccount` keeps them -/

section Provision

variable {ι : Type} [DecidableEq ι] {calls : ι → ProvisionCall}
  {dva : ℕ → VirtualAccount → DvaState} {i : ι}

/-- Nomba answers with the reference that it was asked for. -/
def NamesAsAsked : Call → Env → Prop
  | .provisionDva ref, env => env.dva.accountRef = ref
  | _, _ => True

instance (l : Call) (env : Env) : Decidable (NamesAsAsked l env) :=
  decidable_of_iff ((match l with
    | .provisionDva ref => decide (env.dva.accountRef = ref)
    | _ => true) = true)
    (by unfold NamesAsAsked; split <;> simp)

def provisioning (calls : ι → ProvisionCall) (dva : ℕ → VirtualAccount → DvaState) :
    Protocol ι World Env Call ProvisionStage where
  allowed l env _ _ := NamesAsAsked l env
  inv G hist w := NombaBehaves calls dva hist →
    (GivenAlone calls dva hist → Unharmed calls dva G hist w) ∧
    (AllExpired hist → LiveAttended calls dva G hist w)

omit [DecidableEq ι] in
/-- A call that is not to Nomba and does not write accounts. -/
theorem provisioning_frame {G : ι → ProvisionStage} {hist : Calls ι} {w w' : World} {l : Call}
    {env : Env} (hinv : (provisioning calls dva).inv G hist w)
    (hl : ∀ ref, l ≠ .provisionDva ref ∧ l ≠ .expireDva ref)
    (haccounts : w'.db.accounts = w.db.accounts) :
    (provisioning calls dva).inv G (hist ++ [⟨i, l, env, w, w'⟩]) w' := by
  intro hnomba
  obtain ⟨hunharmed, hattended⟩ := hinv hnomba.before
  have hdva := hnomba.same (.inl hl)
  exact ⟨fun hcond => (hunharmed hcond.before).frame hdva haccounts fun ref => (hl ref).2,
    fun hexpired => (hattended hexpired.before).frame hdva haccounts⟩

/-- A call that is not to Nomba and does not write at all. -/
theorem wp_elsewhere {α : Type} {l : Call} {f : Env → World → Except Error α × World}
    {g : ProvisionStage} (hl : ∀ ref, l ≠ .provisionDva ref ∧ l ≠ .expireDva ref)
    (hf : ∀ env w, (f env w).2.db = w.db) :
    (Proc.call l f : Action α).Wp (provisioning calls dva) i (fun _ g' => g' = g)
      (fun _ g' => g' = g) g := by
  refine Proc.Wp.call fun G hist w env hG hinv _ => ⟨g, ?_, fun _ _ => rfl, fun _ _ => rfl⟩
  rw [← hG, Function.update_eq_self]
  exact provisioning_frame hinv hl (by rw [hf])

theorem wp_lookup {α : Type} {l : Call} {f : Env → Db → α} {g : ProvisionStage}
    (hl : ∀ ref, l ≠ .provisionDva ref ∧ l ≠ .expireDva ref) :
    (find l f).Wp (provisioning calls dva) i (fun _ g' => g' = g) (fun _ g' => g' = g) g := by
  refine wp_elsewhere hl fun env w => ?_
  rcases findStep_cases f env w with ⟨-, hstep⟩ | ⟨e, w', hstep, hsame, -⟩
  · rw [hstep]
  · rw [hstep]
    exact hsame.db

/-- The virtual account is given. -/
theorem wp_provisionDva : (provisionDva (calls i).dto.accountRef).Wp (provisioning calls dva) i
    (fun result g => g = .holding ∧ result.accountRef = (calls i).dto.accountRef)
    (fun _ g => g = .outside) .outside := by
  refine Proc.Wp.call fun G hist w env hG hinv hallowed => ?_
  cases hfault : env.fault with
  | some f =>
    refine ⟨.outside, fun hnomba => ?_, fun _ h => (by cases h), fun _ _ => rfl⟩
    have hdva := hnomba.same (.inr (by simp [hfault]))
    rw [← hG, Function.update_eq_self]
    obtain ⟨hunharmed, hattended⟩ := hinv hnomba.before
    exact ⟨fun hcond => (hunharmed hcond.before).frame hdva rfl nofun,
      fun hexpired => (hattended hexpired.before).frame hdva rfl⟩
  | none =>
    simp only [hfault] at hallowed ⊢
    refine ⟨.holding, fun hnomba => ?_, fun result hresult => ?_, fun _ h => (by cases h)⟩
    · let ev : Event ι World Env Call :=
        ⟨i, .provisionDva (calls i).dto.accountRef, env, w, w⟩
      have hgives : Gives calls (calls ev.who).virtualAccount ev := ⟨rfl, hfault, rfl⟩
      obtain ⟨hunharmed, hattended⟩ := hinv hnomba.before
      exact ⟨fun hcond => (hunharmed hcond.before).gives hnomba hcond hG hgives,
        fun hexpired => (hattended hexpired.before).gives hnomba hG hgives⟩
    · cases hresult
      exact ⟨rfl, hallowed⟩

/-- The compensation: the virtual account is expired, or not. -/
theorem wp_expireDva {ref : String} (href : ref = (calls i).dto.accountRef) :
    (expireDva ref).Wp (provisioning calls dva) i (fun _ g => g = .done) (fun _ g => g = .done)
      .holding := by
  refine Proc.Wp.call fun G hist w env hG hinv _ => ?_
  suffices hdone : (provisioning calls dva).inv (Function.update G i .done)
      (hist ++ [⟨i, .expireDva ref, env, w, w⟩]) w by
    refine ⟨.done, ?_, fun _ _ => rfl, fun _ _ => rfl⟩
    cases env.fault with
    | none => exact hdone
    | some f => exact hdone
  intro hnomba
  let ev : Event ι World Env Call := ⟨i, .expireDva ref, env, w, w⟩
  obtain ⟨hunharmed, hattended⟩ := hinv hnomba.before
  -- no other one is touched, and this one only if Nomba answers
  have hdisables : env.fault = none → Disables calls (calls i).virtualAccount ev :=
    fun hfault => ⟨congrArg Call.expireDva href, hfault, rfl⟩
  have hdva : ∀ v, v ≠ (calls i).virtualAccount →
      dva (hist ++ [ev]).length v = dva hist.length v := by
    intro v hv
    by_cases hfault : env.fault = none
    · exact hnomba.same_of_ne (.inr (hdisables hfault)) hv
    · exact hnomba.same (.inr hfault) v
  refine ⟨fun hcond => ?_, fun hexpired => ?_⟩
  · have hbefore := hunharmed hcond.before
    refine hbefore.release i hG (fun a ha hopen => ?_) (fun a ha => .inl ha) hdva rfl
    rw [hdva _ (hbefore.free i hG a ha)]
    exact hbefore.recorded a ha hopen
  · refine (hattended hexpired.before).release i (fun a ha => ha) hdva fun hlive => ?_
    have hfault : env.fault = none :=
      hexpired ev (List.mem_append_right _ (List.mem_singleton_self _)) ref rfl
    have hgone := hnomba.disables _ ev _ List.getElem?_concat_length (hdisables hfault)
    rw [List.length_append, List.length_singleton, hgone] at hlive
    cases hlive

/-- Step 5: the account is recorded, or the compensation is made. -/
theorem wp_createProvisioned {nombaResult : ProvisionDvaResult} {customer : Customer}
    (href : nombaResult.accountRef = (calls i).dto.accountRef) :
    (createProvisioned (calls i).dto nombaResult customer (calls i).businessId).Wp
      (provisioning calls dva) i (fun _ g => g = .done) (fun _ g => g = .done) .holding := by
  refine Proc.Wp.catching (Proc.Wp.call fun G hist w env hG hinv _ => ?_)
  have hcall : ∀ ref, Call.createAccount (calls i).dto.accountRef ≠ .provisionDva ref ∧
      Call.createAccount (calls i).dto.accountRef ≠ .expireDva ref := fun ref => ⟨nofun, nofun⟩
  rcases transactionStep_cases (createAccountTx (calls i).dto nombaResult customer
      (calls i).businessId) logsOnly_nothing env w with
    ⟨provisioned, db, -, hrun, hstep⟩ | ⟨e, w', hstep, hthrown⟩
  · rw [hstep]
    refine ⟨.done, fun hnomba => ?_, fun _ _ => rfl, fun _ h => (by cases h)⟩
    obtain ⟨account, added, haccount, -, -, hdb⟩ := createAccountTx_run hrun
    -- the new account holds the virtual account that Nomba has made
    have hown : account.virtualAccount = (calls i).virtualAccount := by
      rw [haccount]
      exact congrArg (VirtualAccount.mk _) href
    have haccounts : db.accounts = w.db.accounts ++ [account] := congrArg Db.accounts hdb
    have hdva := hnomba.same (.inl hcall)
    obtain ⟨hunharmed, hattended⟩ := hinv hnomba.before
    refine ⟨fun hcond => ?_, fun hexpired => ?_⟩
    · have hbefore := hunharmed hcond.before
      refine hbefore.release i hG (fun a ha hopen => ?_) (fun a ha => ?_) (fun v _ => hdva v) rfl
      · rw [hdva]
        rw [haccounts] at ha
        rcases List.mem_append.1 ha with ha | ha
        · exact hbefore.recorded a ha hopen
        · rw [List.mem_singleton.1 ha, hown]
          exact hbefore.held i hG
      · rw [haccounts] at ha
        rcases List.mem_append.1 ha with ha | ha
        · exact .inl ha
        · rw [List.mem_singleton.1 ha]
          exact .inr hown
    · refine (hattended hexpired.before).release i (fun a ha => ?_) (fun v _ => hdva v) fun _ => ?_
      · rw [haccounts]
        exact List.mem_append_left _ ha
      · refine ⟨account, ?_, hown⟩
        rw [haccounts]
        exact List.mem_append_right _ (List.mem_singleton_self _)
  · rw [hstep]
    refine ⟨.holding, ?_, fun _ h => (by cases h), fun _ _ => ?_⟩
    · rw [← hG, Function.update_eq_self]
      exact provisioning_frame hinv hcall (congrArg Db.accounts hthrown.same.db)
    · refine Proc.Wp.bind (Proc.Wp.catching ?_)
      exact Proc.Wp.mono (fun _ _ h => h) (fun _ _ h => h) (wp_expireDva href)

theorem wp_provisionAccount {isUrl : String → Bool} :
    ((calls i).run isUrl).Wp (provisioning calls dva) i (fun _ g => g ≠ .holding)
      (fun _ g => g ≠ .holding) .outside := by
  have hfree : ∀ {α : Type} {f : α → Action ProvisionedAccount} {p : Action α} {g : ProvisionStage},
      g ≠ .holding → p.Wp (provisioning calls dva) i (fun _ g' => g' = g) (fun _ g' => g' = g) g →
      (∀ a, (f a).Wp (provisioning calls dva) i (fun _ g => g ≠ .holding)
        (fun _ g => g ≠ .holding) g) →
      (p.bind f).Wp (provisioning calls dva) i (fun _ g => g ≠ .holding)
        (fun _ g => g ≠ .holding) g := by
    intro α f p g hg hp hf
    refine Proc.Wp.bind (Proc.Wp.mono (fun a g' hg' => ?_) (fun _ g' hg' => ?_) hp)
    · rw [hg']
      exact hf a
    · rw [hg']
      exact hg
  have houtside : ProvisionStage.outside ≠ .holding := by decide
  have hdone : ProvisionStage.done ≠ .holding := by decide
  -- whatever comes before the request to Nomba leaves nothing to compensate
  unfold ProvisionCall.run provisionAccount
  split
  next =>
    refine hfree houtside (wp_lookup (by simp)) fun existing => ?_
    cases existing with
    | some _ => exact houtside
    | none =>
      refine hfree houtside (wp_lookup (by simp)) fun customer => ?_
      cases customer with
      | none => exact houtside
      | some customer =>
        refine hfree houtside (wp_lookup (by simp)) fun business => ?_
        cases business with
        | none => exact houtside
        | some _ =>
          refine Proc.Wp.bind (Proc.Wp.mono ?_ ?_ wp_provisionDva)
          · rintro result _ ⟨rfl, href⟩
            refine Proc.Wp.bind (Proc.Wp.mono ?_ ?_ (wp_createProvisioned href))
            · rintro provisioned _ rfl
              exact hfree hdone (wp_elsewhere (by simp) fun env w => w.log_db env _) fun _ => hdone
            · rintro e _ rfl
              exact hdone
          · rintro e _ rfl
            exact houtside
  next => exact houtside

/-! ### Runs -/

/-- **Compensation harms nobody**, in every run in which a call is only given a virtual account that
nobody counts on: every account that was not closed has a live one. And every live one has an account
or a call that has not ended, if all compensations have succeeded. -/
theorem compensation_harmless {isUrl : String → Bool} {w₀ w : World} {hist : Calls ι}
    {ps : ι → Action ProvisionedAccount}
    (hrecorded : ∀ a ∈ w₀.db.accounts, a.status ≠ .closed → dva 0 a.virtualAccount = .live)
    (hlive : ∀ v, dva 0 v = .live → ∃ a ∈ w₀.db.accounts, a.virtualAccount = v)
    (run : Run (fun l env _ _ => NamesAsAsked l env) (fun i => (calls i).run isUrl) w₀ hist ps w)
    (hnomba : NombaBehaves calls dva hist) (hcond : GivenAlone calls dva hist) :
    (∀ a ∈ w.db.accounts, a.status ≠ .closed → dva hist.length a.virtualAccount = .live) ∧
      (AllExpired hist → ∀ v, dva hist.length v = .live →
        (∃ a ∈ w.db.accounts, a.virtualAccount = v) ∨
          ∃ i, (calls i).virtualAccount = v ∧ ∀ result, ps i ≠ .ofExcept result) := by
  have hinit : (provisioning calls dva).inv (fun _ => .outside) [] w₀ := by
    intro _
    refine ⟨fun _ => ⟨hrecorded, nofun, nofun, nofun, nofun, ?_⟩, fun _ v hv => .inl (hlive v hv)⟩
    exact fun _ _ ev hev => absurd hev List.not_mem_nil
  obtain ⟨G, hinv, hps⟩ := (provisioning calls dva).sound (fun _ => .outside)
    (fun _ _ g => g ≠ .holding) (fun _ _ g => g ≠ .holding) hinit (fun _ => wp_provisionAccount) run
  obtain ⟨hunharmed, hattended⟩ := hinv hnomba
  refine ⟨(hunharmed hcond).recorded, fun hexpired v hv => ?_⟩
  rcases hattended hexpired v hv with hrow | ⟨i, hi, hiv⟩
  · exact .inl hrow
  · -- one that still holds it has not ended
    refine .inr ⟨i, hiv, fun result hresult => ?_⟩
    have hi' := hps i
    rw [hresult, Proc.wp_ofExcept] at hi'
    cases result with
    | ok provisioned => exact hi'.1 provisioned rfl hi
    | error e => exact hi'.2 e rfl hi

end Provision

/-! ### A Nomba for which disabled is disabled -/

section Permanent

variable {ι : Type} (calls : ι → ProvisionCall)

def dvaStep (v : VirtualAccount) (state : DvaState) (ev : Event ι World Env Call) : DvaState :=
  if Disables calls v ev then .disabled
  else if Gives calls v ev ∧ state ≠ .disabled then .live
  else state

/-- The virtual accounts before call `n`, when there was none at first. -/
def dvaAfter (hist : Calls ι) (n : ℕ) (v : VirtualAccount) : DvaState :=
  (hist.take n).foldl (dvaStep calls v) .absent

variable {calls} {hist : Calls ι}

theorem dvaAfter_succ {n : ℕ} {ev : Event ι World Env Call} (hev : hist[n]? = some ev)
    (v : VirtualAccount) :
    dvaAfter calls hist (n + 1) v = dvaStep calls v (dvaAfter calls hist n v) ev := by
  obtain ⟨hn, rfl⟩ := List.getElem?_eq_some_iff.1 hev
  unfold dvaAfter
  rw [List.take_succ_eq_append_getElem hn, List.foldl_append]
  rfl

theorem nombaBehaves_dvaAfter : NombaBehaves calls (dvaAfter calls hist) hist where
  gives n ev v hev hgives hstate := by
    have hdisables : ¬ Disables calls v ev := by
      rintro ⟨hcall, -, -⟩
      rw [hgives.1] at hcall
      cases hcall
    rw [dvaAfter_succ hev, dvaStep, if_neg hdisables, if_pos ⟨hgives, hstate⟩]
  disables n ev v hev hdisables := by
    rw [dvaAfter_succ hev, dvaStep, if_pos hdisables]
  keeps n ev v hev hgives hdisables := by
    rw [dvaAfter_succ hev, dvaStep, if_neg hdisables, if_neg fun h => hgives h.1]

/-- Nothing is disabled if no compensation is made. -/
theorem dvaAfter_ne_disabled (h : ∀ ev ∈ hist, ∀ ref, ev.call ≠ .expireDva ref) (n : ℕ)
    (v : VirtualAccount) : dvaAfter calls hist n v ≠ .disabled := by
  induction n with
  | zero => nofun
  | succ n ih =>
    cases hev : hist[n]? with
    | none =>
      have hlength : hist.length ≤ n := List.getElem?_eq_none_iff.1 hev
      unfold dvaAfter at ih ⊢
      rw [List.take_of_length_le hlength] at ih
      rwa [List.take_of_length_le (by omega)]
    | some ev =>
      have hdisables : ¬ Disables calls v ev := fun hd => h ev (List.mem_of_getElem? hev) _ hd.1
      rw [dvaAfter_succ hev, dvaStep, if_neg hdisables]
      split
      · nofun
      · exact ih

end Permanent

/-! ### One reference, two calls -/

namespace Sample

/-- Two calls ask for one virtual account. -/
def sameRef (_ : Bool) : ProvisionCall := ⟨provisioning .sequential 50, "biz"⟩

def shopDva (i : Bool) : Bool × Env := (i, { dva := ⟨"shop", "0001112223"⟩ })

/-- Neither finds an account, both are given the virtual account, and the first one records it. -/
def lateCompensation : List (Bool × Env) :=
  [(false, {}), (false, {}), (false, {}), (true, {}), (true, {}), (true, {}), shopDva false,
    shopDva true, (false, { row := ⟨1, "acc1"⟩, rows := fun n => ⟨1, s!"rule{n}"⟩ }),
    (true, { row := ⟨2, "acc2"⟩, rows := fun n => ⟨2, s!"rule{n}"⟩ }), (true, {})]

def lateRun : Calls Bool × (Bool → Action ProvisionedAccount) × World :=
  exec (fun i => (sameRef i).run fun _ => true) newCustomer lateCompensation

/-- Only the first one. -/
def aloneEnvs : List (Bool × Env) :=
  [(false, {}), (false, {}), (false, {}), shopDva false,
    (false, { row := ⟨1, "acc1"⟩, rows := fun n => ⟨1, s!"rule{n}"⟩ })]

def aloneRun : Calls Bool × (Bool → Action ProvisionedAccount) × World :=
  exec (fun i => (sameRef i).run fun _ => true) newCustomer aloneEnvs

end Sample

/-- A call that nobody else gets in the way of. -/
theorem compensation_harmless_alone : ∃ hist ps w,
    Run (fun l env _ _ => NamesAsAsked l env) (fun i => (Sample.sameRef i).run fun _ => true)
      Sample.newCustomer hist ps w ∧
    ∀ a ∈ w.db.accounts, a.status ≠ .closed →
      dvaAfter Sample.sameRef hist hist.length a.virtualAccount = .live := by
  have hcalls : Sample.aloneRun.1.map Event.call = [.findAccountRef "shop", .findCustomer "cus1",
      .findBusiness "biz", .provisionDva "shop", .createAccount "shop"] := by
    decide +kernel
  have hcall : ∀ ev ∈ Sample.aloneRun.1, ∀ ref, ev.call ≠ .expireDva ref := by
    intro ev hev ref hexpire
    have hmem : Call.expireDva ref ∈ Sample.aloneRun.1.map Event.call :=
      hexpire ▸ List.mem_map_of_mem hev
    rw [hcalls] at hmem
    simp at hmem
  have hcond : GivenAlone Sample.sameRef (dvaAfter Sample.sameRef Sample.aloneRun.1)
      Sample.aloneRun.1 := by
    intro past ev hpast v hgives
    have hrows : ∀ ev ∈ Sample.aloneRun.1, ev.before.db.accounts = [] := by decide +kernel
    have hev : ev ∈ Sample.aloneRun.1 :=
      hpast.subset (List.mem_append_right _ (List.mem_singleton_self _))
    -- no call is made twice
    have hnodup : (past.map Event.call ++ [ev.call]).Nodup := by
      have hprefix := hpast.map Event.call
      rw [hcalls, List.map_append] at hprefix
      exact hprefix.sublist.nodup (by decide)
    refine ⟨fun a ha => ?_, fun ev₁ hev₁ hgives₁ => ?_, fun h => absurd h ?_⟩
    · rw [hrows ev hev] at ha
      exact absurd ha List.not_mem_nil
    · have hmem : ev.call ∈ past.map Event.call := by
        rw [hgives.1, ← hgives₁.1]
        exact List.mem_map_of_mem hev₁
      exact absurd rfl ((List.nodup_append.1 hnodup).2.2 _ hmem _ (List.mem_singleton_self _))
    · exact dvaAfter_ne_disabled hcall _ v
  have run : Run (fun l env _ _ => NamesAsAsked l env)
      (fun i => (Sample.sameRef i).run fun _ => true) Sample.newCustomer Sample.aloneRun.1
      Sample.aloneRun.2.1 Sample.aloneRun.2.2 :=
    Run.of_exec _ Sample.newCustomer Sample.aloneEnvs (by decide +kernel)
  refine ⟨Sample.aloneRun.1, Sample.aloneRun.2.1, Sample.aloneRun.2.2, run, ?_⟩
  refine (compensation_harmless (fun a ha => absurd ha List.not_mem_nil) (fun v hv => ?_) run
    nombaBehaves_dvaAfter hcond).1
  cases hv

/-- The one that comes too late disables the virtual account of the other one. -/
theorem compensation_disables_recorded : ∃ hist ps w,
    Run (fun l env _ _ => NamesAsAsked l env) (fun i => (Sample.sameRef i).run fun _ => true)
      Sample.newCustomer hist ps w ∧
    NombaBehaves Sample.sameRef (dvaAfter Sample.sameRef hist) hist ∧
    ∃ a ∈ w.db.accounts, a.status ≠ .closed ∧
      dvaAfter Sample.sameRef hist hist.length a.virtualAccount = .disabled :=
  ⟨Sample.lateRun.1, Sample.lateRun.2.1, Sample.lateRun.2.2,
    Run.of_exec _ Sample.newCustomer Sample.lateCompensation (by decide +kernel),
    nombaBehaves_dvaAfter, by decide +kernel⟩

end AccountOS
