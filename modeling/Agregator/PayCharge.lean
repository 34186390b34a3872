import Agregator.PayCreateFacts
/-!
# PayCharge — one charge for one idempotency key

Any number of creations with one key run as a pool.  The lock lets one retry at a time past it; it does not hold back the
call that has claimed the row, which takes no lock, and a retry that comes when the provider's answer is not stored yet
cannot tell that from a provider that was never asked.
-/
namespace Agregator

open Rel Conc

abbrev CreateEvent := Event CreateOp CreateOp.Res

abbrev CreateThread := Thread CreatePaymentInput CreateOp CreateOp.Res (Option Payment × Option Err)

abbrev CreateConfig := Config CreateWorld CreatePaymentInput CreateOp CreateOp.Res (Option Payment × Option Err)

/-! ## What a creation does before it asks the provider -/

/-- The event claims the row of the key. -/
def ClaimOf (key : String) (e : CreateEvent) : Prop :=
  ∃ p row, e = ⟨.createIdempotent p, .ok (true, row)⟩ ∧ p.idempotencyKey = key

/-- The event reads the row of the key under the lock of a session, and finds no id of the provider in it. -/
def EmptyReadOf (key : String) (tx : ℕ) (e : CreateEvent) : Prop :=
  ∃ row : Payment, e = ⟨.readLocked tx key, .ok row⟩ ∧ row.providerID = ""

/-- The event asks the provider. -/
def Asks (e : CreateEvent) : Prop := ∃ req r, e = ⟨.createPayment req, r⟩

/-- What a creation has done before each of its operations. -/
def CreatePreceded (uc : ChargeTerms) (inp : CreatePaymentInput) (h : List CreateEvent) : CreateOp → Prop
  | .createIdempotent p => p = uc.newPayment inp
  | .lock tx key => key = inp.idempotencyKey ∧ ⟨.begin, .ok tx⟩ ∈ h
  | .readLocked tx key => key = inp.idempotencyKey ∧ ⟨.begin, .ok tx⟩ ∈ h ∧ ⟨.lock tx key, .ok ()⟩ ∈ h
  | .createPayment req => req = uc.request inp ∧ (∀ e ∈ h, ¬ Asks e) ∧
      ((∃ e ∈ h, ClaimOf inp.idempotencyKey e) ∨ ∃ tx, ∃ e ∈ h, EmptyReadOf inp.idempotencyKey tx e)
  | _ => True

variable {uc : ChargeTerms} {inp : CreatePaymentInput}

theorem rollingBack_after (tx : ℕ) (p : Option Payment) (err : Err) (h : List CreateEvent) :
    (rollingBack tx p err).After (CreatePreceded uc inp) h := by
  simp only [rollingBack, Prog.bind_eq, Prog.perform_bind]
  exact ⟨trivial, fun _ => trivial⟩

theorem not_asks {o : CreateOp} {r : o.Res} (ho : ∀ req, o ≠ .createPayment req) : ¬ Asks ⟨o, r⟩ := by
  rintro ⟨req, r', h⟩
  cases h
  exact ho req rfl

section Creation

-- what a text is trimmed to decides no branch here
attribute [local irreducible] trimSpace

theorem recovery_after {h : List CreateEvent} (hh : ∀ e ∈ h, ¬ Asks e) :
    (driveProviderWithLock inp.idempotencyKey (uc.recover inp)).After (CreatePreceded uc inp) h := by
  have hmem : ∀ (e : CreateEvent) (l : List CreateEvent), e ∈ l ++ [e] := fun e l => by simp
  unfold driveProviderWithLock
  split
  · trivial
  simp only [Prog.bind_eq, Prog.perform_bind]
  refine ⟨trivial, fun r => ?_⟩
  cases r with
  | error err => trivial
  | ok tx =>
  refine ⟨⟨rfl, hmem _ _⟩, fun r => ?_⟩
  cases r with
  | error err => exact rollingBack_after _ _ _ _
  | ok u =>
  refine ⟨⟨rfl, List.mem_append_left _ (hmem _ _), hmem _ _⟩, fun r => ?_⟩
  cases r with
  | error err => exact rollingBack_after _ _ _ _
  | ok p =>
  dsimp only
  split
  · refine ⟨trivial, fun r => ?_⟩
    cases r with
    | error err => exact rollingBack_after _ _ _ _
    | ok u => trivial
  rename_i hp
  simp only [ChargeTerms.recover, Prog.bind_eq, Prog.perform_bind, Prog.bind_call]
  refine ⟨⟨rfl, ?_, .inr ⟨tx, _, hmem _ _, p, rfl, not_not.1 hp⟩⟩, fun r => ?_⟩
  · intro e he
    simp only [List.mem_append, List.mem_singleton] at he
    rcases he with ((he | rfl) | rfl) | rfl
    · exact hh e he
    · exact not_asks nofun
    · exact not_asks nofun
    · exact not_asks nofun
  cases r with
  | error err => exact rollingBack_after _ _ _ _
  | ok result =>
  refine ⟨trivial, fun r => ?_⟩
  cases r with
  | error err => exact rollingBack_after _ _ _ _
  | ok u => trivial

/-- **A creation asks the provider once, and only after it has claimed the row or read it without the provider's id.** -/
theorem createPayment_after (uc : ChargeTerms) (inp : CreatePaymentInput) :
    (uc.createPayment inp).After (CreatePreceded uc inp) [] := by
  unfold ChargeTerms.createPayment
  split
  · trivial
  simp only [Prog.bind_eq, Prog.perform_bind]
  refine ⟨rfl, fun r => ?_⟩
  rcases r with err | ⟨isNew, p⟩
  · trivial
  cases isNew with
  | false =>
    refine ⟨trivial, fun r => ?_⟩
    cases r with
    | error err => trivial
    | ok existing =>
    dsimp only
    split
    · trivial
    refine recovery_after fun e he => ?_
    simp only [List.mem_append, List.mem_singleton, List.not_mem_nil, false_or] at he
    rcases he with rfl | rfl <;> exact not_asks nofun
  | true =>
    refine ⟨⟨rfl, fun e he => ?_, .inl ⟨_, List.mem_append_right _ (List.mem_singleton.2 rfl), _, p, rfl, rfl⟩⟩, fun r => ?_⟩
    · simp only [List.nil_append, List.mem_singleton] at he
      subst he
      exact not_asks nofun
    cases r with
    | error err => trivial
    | ok result =>
    refine ⟨trivial, fun r => ?_⟩
    cases r <;> trivial

end Creation

/-! ## The condition -/

/-- The provider has carried out a request of the key. -/
def CreateWorld.Charged (w : CreateWorld) (key : String) : Prop := ∃ r ∈ w.charges, r.idempotencyKey = key

/-- A retry that finds the row without the provider's id comes before any charge, and brings the amount of the row.  The
call that claimed the row asks the provider before any retry finds the row so, and a retry asks it while it still has its
session. -/
def Undisturbed (key : String) : Sys.Cond CreateWorld CreatePaymentInput CreateOp CreateOp.Res (Option Payment × Option Err) :=
  fun c t o r =>
    match o, r with
    | .readLocked _ k, .ok row => k = key → row.providerID = "" → ¬ c.world.Charged key ∧ row.amount = t.call.amount
    | .createPayment req, _ => req.idempotencyKey = key →
      ((∃ e ∈ t.did, ClaimOf key e) → ∀ t' ∈ c.threads, ∀ tx, ∀ e ∈ t'.did, ¬ EmptyReadOf key tx e) ∧
      ∀ tx, (∃ e ∈ t.did, EmptyReadOf key tx e) → c.world.lives tx = true
    | _, _ => True

/-- At most one request of the key has been carried out, and for the amount of its row. -/
def CreateWorld.ChargedOnce (w : CreateWorld) (key : String) : Prop :=
  (w.charges.filter fun r => r.idempotencyKey == key).length ≤ 1 ∧
    ∀ r ∈ w.charges, r.idempotencyKey = key → w.HasRow key r.amountKopecks

/-- No call with the key has come yet. -/
structure CreateWorld.Fresh (w : CreateWorld) (key : String) : Prop where
  charges : ¬ w.Charged key
  sessions : w.sessions = []

/-- The first charge of the key is made by the operation. -/
theorem CreateOp.Exec.first_charge {hashtext : String → ℤ} {key : String} {o : CreateOp} {w w' : CreateWorld} {r : o.Res}
    (he : CreateOp.Exec hashtext o w r w') (hold : ¬ w.Charged key) (hnew : w'.Charged key) :
    ∃ req, o = .createPayment req ∧ req.idempotencyKey = key := by
  rcases he.charges with hch | ⟨req, rfl, hch⟩
  · refine absurd ?_ hold
    unfold CreateWorld.Charged at hnew ⊢
    rw [← hch]
    exact hnew
  · obtain ⟨x, hx, hk⟩ := hnew
    rw [hch, List.mem_append] at hx
    rcases hx with hx | hx
    · exact absurd ⟨x, hx, hk⟩ hold
    · rw [List.mem_singleton.1 hx] at hk
      exact ⟨req, rfl, hk⟩

/-! ## What holds in every run -/

section Runs

variable {hashtext : String → ℤ} {key : String} {ok : Sys.Cond CreateWorld CreatePaymentInput CreateOp CreateOp.Res (Option Payment × Option Err)}
  {w₀ w w' : CreateWorld} {c : CreateConfig} {ts₁ ts₂ : List CreateThread} {t : CreateThread}

theorem reach_sound (h0 : w₀.Sound) (h : (createSys uc hashtext).Reach ok w₀ c) : c.world.Sound :=
  h.inv CreateWorld.Sound h0 (fun _ _ _ _ _ _ _ hI he => CreateOp.Exec.sound he hI)
    fun _ _ hI he => by
      obtain ⟨tx, rfl⟩ := he
      exact hI.close tx

theorem reach_goes (uc : ChargeTerms) (hashtext : String → ℤ) {P : CreateWorld → Prop} (hP : ∀ w w', w.Goes w' → P w → P w') :
    (∀ o w r w', (createSys uc hashtext).exec o w r w' → P w → P w') ∧
      ∀ w w', (createSys uc hashtext).env w w' → P w → P w' :=
  ⟨fun _ w _ w' he => hP w w' (CreateOp.Exec.goes he), fun w w' ⟨tx, he⟩ => hP w w' (by rw [he]; exact w.goes_close tx)⟩

/-- The row of a claim stays, with its amount. -/
theorem claim_row (h : (createSys uc hashtext).Reach ok w₀ c) (ht : t ∈ c.threads) {e : CreateEvent} (he : e ∈ t.did)
    (hc : ClaimOf key e) : c.world.HasRow key t.call.amount := by
  obtain ⟨p, row, rfl, rfl⟩ := hc
  obtain ⟨h₁, h₂, hd⟩ := List.append_of_mem he
  have hp : p = uc.newPayment t.call := (h.after (createPayment_after uc) t ht).2 h₁ _ h₂ hd
  obtain ⟨hF, henv⟩ := reach_goes uc hashtext (P := fun w => w.HasRow p.idempotencyKey p.amount)
    fun _ _ hg hr => hg.hasRow hr
  have hrow := h.lasting (E := fun e => e = ⟨.createIdempotent p, .ok (true, row)⟩)
    (F := fun w => w.HasRow p.idempotencyKey p.amount) (fun o w r w' he heq => by
      cases heq
      exact (CreateOp.Exec.claimed he).2) hF henv t ht _ he rfl
  rw [hp] at hrow ⊢
  exact hrow

theorem read_row (h : (createSys uc hashtext).Reach ok w₀ c) (ht : t ∈ c.threads) {tx : ℕ} {row : Payment}
    (he : (⟨.readLocked tx key, .ok row⟩ : CreateEvent) ∈ t.did) : c.world.HasRow key row.amount := by
  obtain ⟨hF, henv⟩ := reach_goes uc hashtext (P := fun w => w.HasRow key row.amount)
    fun _ _ hg hr => hg.hasRow hr
  refine h.lasting (E := fun e => e = ⟨.readLocked tx key, .ok row⟩) (fun o w r w' he heq => ?_) hF henv t ht _ he rfl
  cases heq
  obtain ⟨rfl, hrow, hk⟩ := CreateOp.Exec.read he
  exact ⟨row, hrow, hk, rfl⟩

/-- Only one call claims the row. -/
theorem claim_once (h : (createSys uc hashtext).Reach ok w₀ ⟨w, ts₁ ++ t :: ts₂⟩) (ht : ∃ e ∈ t.did, ClaimOf key e) :
    ∀ t' ∈ ts₁ ++ ts₂, ∀ e ∈ t'.did, ¬ ClaimOf key e := by
  obtain ⟨hF, henv⟩ := reach_goes uc hashtext (P := fun w => ∃ a, w.HasRow key a)
    fun _ _ hg ⟨a, hr⟩ => ⟨a, hg.hasRow hr⟩
  refine h.once_others (fun o w r w' he hc => ?_) hF henv ht
  obtain ⟨p, row, heq, rfl⟩ := hc
  cases heq
  obtain ⟨h1, h2⟩ := CreateOp.Exec.claimed he
  exact ⟨h1, _, h2⟩

/-- A session belongs to one call, and its number is not given again. -/
theorem begin_once (tx : ℕ) (h : (createSys uc hashtext).Reach ok w₀ ⟨w, ts₁ ++ t :: ts₂⟩)
    (ht : (⟨.begin, .ok tx⟩ : CreateEvent) ∈ t.did) :
    tx < w.opened ∧ ∀ t' ∈ ts₁ ++ ts₂, (⟨.begin, .ok tx⟩ : CreateEvent) ∉ t'.did := by
  obtain ⟨hF, henv⟩ := reach_goes uc hashtext (P := fun w => tx < w.opened)
    fun _ _ hg hr => Nat.lt_of_lt_of_le hr hg.opened
  have hE : ∀ o w (r : o.Res) w', (createSys uc hashtext).exec o w r w' → (⟨o, r⟩ : CreateEvent) = ⟨.begin, .ok tx⟩ →
      ¬ tx < w.opened ∧ tx < w'.opened := by
    intro o w r w' he heq
    cases heq
    exact CreateOp.Exec.began he
  refine ⟨h.lasting (E := fun e => e = ⟨.begin, .ok tx⟩) (fun o w r w' he heq => (hE o w r w' he heq).2) hF henv t
    (by simp) _ ht rfl, fun t' ht' hd => ?_⟩
  exact h.once_others (E := fun e => e = ⟨.begin, .ok tx⟩) hE hF henv ⟨_, ht, rfl⟩ t' ht' _ hd rfl

/-- A read under the lock comes after its session was opened, and its lock granted. -/
theorem read_preceded (h : (createSys uc hashtext).Reach ok w₀ c) (ht : t ∈ c.threads) {tx : ℕ} {e : CreateEvent}
    (he : e ∈ t.did) (hr : EmptyReadOf key tx e) :
    (⟨.begin, .ok tx⟩ : CreateEvent) ∈ t.did ∧ (⟨.lock tx key, .ok ()⟩ : CreateEvent) ∈ t.did := by
  obtain ⟨row, rfl, -⟩ := hr
  obtain ⟨h₁, h₂, hd⟩ := List.append_of_mem he
  obtain ⟨-, hb, hl⟩ := (h.after (createPayment_after uc) t ht).2 h₁ _ h₂ hd
  rw [hd]
  exact ⟨List.mem_append_left _ hb, List.mem_append_left _ hl⟩

/-! ## The invariant -/

/-- While the key has not been charged, anyone may come to charge it; once it has been, nobody can that meets the condition:
the call that claimed the row has been overtaken by a retry, and a retry that found the row empty has lost its session. -/
structure OnceCharged (hashtext : String → ℤ) (key : String) (w : CreateWorld) (ts : List CreateThread) : Prop where
  once : w.ChargedOnce key
  locks : ∀ t ∈ ts, ∀ tx, (⟨.lock tx key, .ok ()⟩ : CreateEvent) ∈ t.did → ∀ s ∈ w.sessions, s.id = tx →
    hashtext key ∈ s.locks
  reads : ∀ t ∈ ts, ∀ tx (row : Payment), (⟨.readLocked tx key, .ok row⟩ : CreateEvent) ∈ t.did → row.providerID = "" →
    row.amount = t.call.amount
  claimers : w.Charged key → ∀ t ∈ ts, (∀ e ∈ t.did, ¬ Asks e) → (∃ e ∈ t.did, ClaimOf key e) →
    ∃ t' ∈ ts, ∃ tx, ∃ e ∈ t'.did, EmptyReadOf key tx e
  readers : w.Charged key → ∀ t ∈ ts, (∀ e ∈ t.did, ¬ Asks e) → ∀ tx, (∃ e ∈ t.did, EmptyReadOf key tx e) →
    w.lives tx = false

theorem mem_moved {t t₁ : CreateThread} (t₀ : CreateThread) (h : t ∈ ts₁ ++ t₁ :: ts₂) : (t ∈ ts₁ ++ ts₂ ∧ t ∈ ts₁ ++ t₀ :: ts₂) ∨ t = t₁ := by
  simp only [List.mem_append, List.mem_cons] at h ⊢
  tauto

/-- A retry that has found the row empty is still seen to have done so when a call has moved on. -/
theorem reader_moved {call : CreatePaymentInput} {did : List CreateEvent} {p q : CreateProg (Option Payment × Option Err)}
    {e' : CreateEvent} (h : ∃ t ∈ ts₁ ++ ⟨call, did, p⟩ :: ts₂, ∃ tx, ∃ e ∈ t.did, EmptyReadOf key tx e) :
    ∃ t ∈ ts₁ ++ ⟨call, did ++ [e'], q⟩ :: ts₂, ∃ tx, ∃ e ∈ t.did, EmptyReadOf key tx e := by
  obtain ⟨t, ht, tx, e, he, hr⟩ := h
  rcases mem_moved ⟨call, did ++ [e'], q⟩ ht with ⟨-, ht⟩ | rfl
  · exact ⟨t, ht, tx, e, he, hr⟩
  · exact ⟨_, List.mem_append_right _ List.mem_cons_self, tx, e, List.mem_append_left _ he, hr⟩

section Step

variable {call : CreatePaymentInput} {did : List CreateEvent} {o : CreateOp} {k : o.Res → CreateProg (Option Payment × Option Err)}
  {r : o.Res}

/-- The lock of a retry is not another's. -/
theorem OnceCharged.one_reader (h : (createSys uc hashtext).Reach ok w₀ ⟨w, ts₁ ++ t :: ts₂⟩) (h0 : w₀.Sound)
    (hI : OnceCharged hashtext key w (ts₁ ++ t :: ts₂)) {tx tx' : ℕ} (ht : ∃ e ∈ t.did, EmptyReadOf key tx e)
    (hl : w.lives tx = true) {t' : CreateThread} (ht' : t' ∈ ts₁ ++ ts₂) (hr : ∃ e ∈ t'.did, EmptyReadOf key tx' e) :
    w.lives tx' = false := by
  have hmem : t' ∈ ts₁ ++ t :: ts₂ := by
    simp only [List.mem_append, List.mem_cons] at ht' ⊢
    tauto
  obtain ⟨e, he, hre⟩ := ht
  obtain ⟨e', he', hre'⟩ := hr
  obtain ⟨hb, hk⟩ := read_preceded h (by simp) he hre
  obtain ⟨hb', hk'⟩ := read_preceded h hmem he' hre'
  by_contra hlive
  obtain ⟨s, hs, hsid⟩ := CreateWorld.lives_iff.1 hl
  obtain ⟨s', hs', hsid'⟩ := CreateWorld.lives_iff.1 (by simpa using hlive : w.lives tx' = true)
  have hlock := hI.locks t (by simp) tx hk s hs hsid
  have hlock' := hI.locks t' hmem tx' hk' s' hs' hsid'
  -- both hold the lock, so it is one session; but a session belongs to one call
  have hsym : ∀ {a b : Session}, (a.id ≠ b.id ∧ ∀ l ∈ a.locks, l ∉ b.locks) → b.id ≠ a.id ∧ ∀ l ∈ b.locks, l ∉ a.locks :=
    fun h => ⟨h.1.symm, fun l hl hl' => h.2 l hl' hl⟩
  have heq : s = s' := by
    by_contra hne
    have : Std.Symm fun a b : Session => a.id ≠ b.id ∧ ∀ l ∈ a.locks, l ∉ b.locks := ⟨fun _ _ => hsym⟩
    exact ((reach_sound h0 h).apart.forall hs hs' hne).2 _ hlock hlock'
  have htx : tx = tx' := by rw [← hsid, ← hsid', heq]
  rw [← htx] at hb'
  exact (begin_once tx h hb).2 t' ht' hb'

/-- **One operation keeps the invariant.** -/
theorem OnceCharged.step (h : (createSys uc hashtext).Reach ok w₀ ⟨w, ts₁ ++ ⟨call, did, .call o k⟩ :: ts₂⟩) (h0 : w₀.Sound)
    (hI : OnceCharged hashtext key w (ts₁ ++ ⟨call, did, .call o k⟩ :: ts₂)) (he : CreateOp.Exec hashtext o w r w')
    (hok : Undisturbed key ⟨w, ts₁ ++ ⟨call, did, .call o k⟩ :: ts₂⟩ ⟨call, did, .call o k⟩ o r) :
    OnceCharged hashtext key w' (ts₁ ++ ⟨call, did ++ [⟨o, r⟩], k r⟩ :: ts₂) := by
  have hg := he.goes
  have hafter := (h.after (createPayment_after uc) ⟨call, did, .call o k⟩ (by simp)).1.1
  have hin : (⟨call, did, .call o k⟩ : CreateThread) ∈ ts₁ ++ ⟨call, did, .call o k⟩ :: ts₂ := by simp
  -- a request of the key that is carried out now is the first one
  have hcharge : ∀ req, o = .createPayment req → req.idempotencyKey = key → ¬ w.Charged key ∧
      w.HasRow key req.amountKopecks ∧ ∀ t ∈ ts₁ ++ ts₂,
        ((∃ e ∈ t.did, ClaimOf key e) → ∃ tx, ∃ e ∈ did, EmptyReadOf key tx e) ∧
        ∀ tx, (∃ e ∈ t.did, EmptyReadOf key tx e) → w.lives tx = false := by
    rintro req rfl hkey
    obtain ⟨hreq, hasks, hway⟩ := hafter
    have hcall : call.idempotencyKey = key := by rw [← hkey, hreq]; rfl
    have hamount : req.amountKopecks = call.amount := by rw [hreq]; rfl
    dsimp only at hasks hway
    rw [hcall] at hway
    rw [hamount]
    obtain ⟨hok1, hok2⟩ := hok hkey
    rcases hway with hclaim | ⟨tx, hread⟩
    · refine ⟨fun hch => ?_, ?_, fun t ht => ⟨fun hc => ?_, fun tx hr => ?_⟩⟩
      · obtain ⟨t', ht', tx, e, he', hr⟩ := hI.claimers hch _ hin hasks hclaim
        exact hok1 hclaim t' ht' tx e he' hr
      · obtain ⟨e, hd, hc⟩ := hclaim
        exact claim_row h hin hd hc
      · obtain ⟨e, hd, hc⟩ := hc
        exact absurd hc (claim_once h hclaim t ht e hd)
      · obtain ⟨e, hd, hr⟩ := hr
        refine absurd hr (hok1 hclaim t ?_ tx e hd)
        simp only [List.mem_append, List.mem_cons] at ht ⊢
        tauto
    · have hlive := hok2 tx hread
      refine ⟨fun hch => ?_, ?_, fun t ht => ⟨fun _ => ⟨tx, hread⟩, fun tx' hr => hI.one_reader h h0 hread hlive ht hr⟩⟩
      · rw [hI.readers hch _ hin hasks tx hread] at hlive
        cases hlive
      · obtain ⟨e, hd, row, rfl, hempty⟩ := hread
        have hrow := read_row h hin hd
        rw [hI.reads _ hin tx row hd hempty] at hrow
        exact hrow
  refine ⟨⟨?_, ?_⟩, ?_, ?_, ?_, ?_⟩
  · -- at most one charge
    rcases he.charges with hch | ⟨req, rfl, hch⟩
    · rw [hch]
      exact hI.once.1
    · rw [hch, List.filter_append]
      by_cases hkey : req.idempotencyKey = key
      · have hnil : w.charges.filter (fun r => r.idempotencyKey == key) = [] := List.filter_eq_nil_iff.2 fun x hx hxk =>
          (hcharge req rfl hkey).1 ⟨x, hx, by simpa using hxk⟩
        rw [hnil]
        exact List.length_filter_le _ _
      · have hnone : [req].filter (fun r => r.idempotencyKey == key) = [] := by simp [hkey]
        rw [hnone, List.append_nil]
        exact hI.once.1
  · -- for the amount of the row
    rcases he.charges with hch | ⟨req, rfl, hch⟩
    · rw [hch]
      exact fun x hx hk => hg.hasRow (hI.once.2 x hx hk)
    · intro x hx hk
      rw [hch, List.mem_append] at hx
      rcases hx with hx | hx
      · exact hg.hasRow (hI.once.2 x hx hk)
      · rw [List.mem_singleton.1 hx] at hk ⊢
        exact hg.hasRow (hcharge req rfl hk).2.1
  · -- the locks
    intro t ht tx hd s' hs' hid
    have hold : (⟨.lock tx key, .ok ()⟩ : CreateEvent) ∈ t.did →
        (∃ t₀ ∈ ts₁ ++ ⟨call, did, .call o k⟩ :: ts₂, (⟨.lock tx key, .ok ()⟩ : CreateEvent) ∈ t₀.did) →
        hashtext key ∈ s'.locks := by
      rintro - ⟨t₀, ht₀, hd₀⟩
      obtain ⟨h₁, h₂, hsplit⟩ := List.append_of_mem hd₀
      obtain ⟨-, hb⟩ := (h.after (createPayment_after uc) t₀ ht₀).2 h₁ _ h₂ hsplit
      obtain ⟨l₁, l₂, hts⟩ := List.append_of_mem ht₀
      rw [hts] at h
      have hlt := (begin_once tx h (by rw [hsplit]; exact List.mem_append_left _ hb)).1
      rcases hg.sessions s' hs' with ⟨s, hs, hsid, hsub⟩ | hle
      · exact hsub _ (hI.locks t₀ ht₀ tx hd₀ s hs (hsid.trans hid))
      · omega
    rcases mem_moved ⟨call, did, .call o k⟩ ht with ⟨-, ht⟩ | rfl
    · exact hold hd ⟨t, ht, hd⟩
    · rcases List.mem_append.1 hd with hd' | hd'
      · exact hold hd ⟨_, hin, hd'⟩
      · cases List.mem_singleton.1 hd'
        exact he.granted s' hs' hid
  · -- the amounts of the retries
    intro t ht tx row hd hempty
    rcases mem_moved ⟨call, did, .call o k⟩ ht with ⟨-, ht⟩ | rfl
    · exact hI.reads t ht tx row hd hempty
    · rcases List.mem_append.1 hd with hd | hd
      · exact hI.reads _ hin tx row hd hempty
      · cases List.mem_singleton.1 hd
        exact (hok rfl hempty).2
  · -- the call that claimed the row
    intro hch t ht hasks hclaim
    rcases mem_moved ⟨call, did, .call o k⟩ ht with ⟨hother, ht⟩ | rfl
    · by_cases hold : w.Charged key
      · exact reader_moved (hI.claimers hold t ht hasks hclaim)
      · obtain ⟨req, rfl, hreq⟩ := he.first_charge hold hch
        obtain ⟨tx, e, hd, hr⟩ := ((hcharge req rfl hreq).2.2 t hother).1 hclaim
        exact ⟨_, List.mem_append_right _ List.mem_cons_self, tx, e, List.mem_append_left _ hd, hr⟩
    · have hold : w.Charged key := by
        by_contra hold
        obtain ⟨req, rfl, -⟩ := he.first_charge hold hch
        exact hasks _ (List.mem_append_right _ (List.mem_singleton.2 rfl)) ⟨req, r, rfl⟩
      obtain ⟨e, hd, hc⟩ := hclaim
      rcases List.mem_append.1 hd with hd | hd
      · exact reader_moved (hI.claimers hold _ hin (fun e he => hasks e (List.mem_append_left _ he)) ⟨e, hd, hc⟩)
      · -- a row of the key is there already
        obtain ⟨p, row, heq, rfl⟩ := hc
        rw [List.mem_singleton.1 hd] at heq
        cases heq
        obtain ⟨x, hx, hxk⟩ := hold
        exact absurd ⟨_, hI.once.2 x hx hxk⟩ he.claimed.1
  · -- the retries
    intro hch t ht hasks tx hread
    have hstep : ∀ t₀ ∈ ts₁ ++ ⟨call, did, .call o k⟩ :: ts₂, (∃ e ∈ t₀.did, EmptyReadOf key tx e) →
        w.lives tx = false → w'.lives tx = false := by
      rintro t₀ ht₀ ⟨e, hd, hr⟩ hdead
      have hb := (read_preceded h ht₀ hd hr).1
      obtain ⟨l₁, l₂, hts⟩ := List.append_of_mem ht₀
      rw [hts] at h
      by_contra hlive
      rw [hg.lives (begin_once tx h hb).1 (by simpa using hlive)] at hdead
      cases hdead
    rcases mem_moved ⟨call, did, .call o k⟩ ht with ⟨hother, ht⟩ | rfl
    · by_cases hold : w.Charged key
      · exact hstep t ht hread (hI.readers hold t ht hasks tx hread)
      · obtain ⟨req, rfl, hreq⟩ := he.first_charge hold hch
        exact hstep t ht hread (((hcharge req rfl hreq).2.2 t hother).2 tx hread)
    · have hold : w.Charged key := by
        by_contra hold
        obtain ⟨req, rfl, -⟩ := he.first_charge hold hch
        exact hasks _ (List.mem_append_right _ (List.mem_singleton.2 rfl)) ⟨req, r, rfl⟩
      obtain ⟨e, hd, hr⟩ := hread
      rcases List.mem_append.1 hd with hd | hd
      · exact hstep _ hin ⟨e, hd, hr⟩ (hI.readers hold _ hin (fun e he => hasks e (List.mem_append_left _ he)) tx ⟨e, hd, hr⟩)
      · obtain ⟨row, heq, hempty⟩ := hr
        rw [List.mem_singleton.1 hd] at heq
        cases heq
        exact absurd hold (hok rfl hempty).1

end Step

/-- **One charge for one key**, for the amount of its row, in every run whose steps meet the condition. -/
theorem charged_once (uc : ChargeTerms) (hashtext : String → ℤ) (key : String) {w₀ : CreateWorld} (h0 : w₀.Fresh key)
    {c : CreateConfig} (h : (createSys uc hashtext).Reach (Undisturbed key) w₀ c) : c.world.ChargedOnce key := by
  have hs0 : w₀.Sound := ⟨by simp [h0.sessions], by simp [h0.sessions]⟩
  suffices hI : OnceCharged hashtext key c.world c.threads from hI.once
  induction h with
  | init =>
    have hnil : w₀.charges.filter (fun r => r.idempotencyKey == key) = [] := List.filter_eq_nil_iff.2 fun x hx hxk =>
      h0.charges ⟨x, hx, by simpa using hxk⟩
    refine ⟨⟨by rw [hnil]; exact Nat.zero_le _, fun x hx hk => absurd ⟨x, hx, hk⟩ h0.charges⟩, ?_, ?_, ?_, ?_⟩ <;> simp
  | step hr hs ih =>
    cases hs with
    | start w ts call _ =>
      have hmem : ∀ t ∈ ts ++ [⟨call, [], uc.createPayment call⟩], ∀ e ∈ t.did, t ∈ ts := by
        intro t ht e he
        rcases List.mem_append.1 ht with ht | ht
        · exact ht
        · rw [List.mem_singleton.1 ht] at he
          cases he
      refine ⟨ih.once, fun t ht tx hd => ih.locks t (hmem t ht _ hd) tx hd,
        fun t ht tx row hd => ih.reads t (hmem t ht _ hd) tx row hd, fun hch t ht hasks hc => ?_,
        fun hch t ht hasks tx hr => ih.readers hch t (hmem t ht _ hr.choose_spec.1) hasks tx hr⟩
      obtain ⟨t', ht', hr⟩ := ih.claimers hch t (hmem t ht _ hc.choose_spec.1) hasks hc
      exact ⟨t', List.mem_append_left _ ht', hr⟩
    | perform w w' ts₁ ts₂ call did o k r he hok => exact ih.step hr hs0 he hok
    | env w w' ts he =>
      obtain ⟨tx, rfl⟩ := he
      refine ⟨⟨ih.once.1, ih.once.2⟩, fun t ht tx' hd s hs => ih.locks t ht tx' hd s (List.mem_filter.1 hs).1, ih.reads,
        ih.claimers, fun hch t ht hasks tx' hr => ?_⟩
      have hdead := ih.readers hch t ht hasks tx' hr
      by_contra hlive
      obtain ⟨s, hs, hid⟩ := CreateWorld.lives_iff.1 (by simpa using hlive : (w.close tx).lives tx' = true)
      rw [CreateWorld.lives_iff.2 ⟨s, (List.mem_filter.1 hs).1, hid⟩] at hdead
      cases hdead

end Runs

/-- An environment in which nothing fails. -/
def calmCreate : CreateEnv where
  now := 0
  newID := "00000000-0000-0000-0000-000000000011"
  result := fun _ => ⟨"order-2", "https://example.test/pay"⟩
  fault := fun _ => .none

def noCreations : CreateWorld := ⟨noPayments, [], [], 0⟩

theorem noCreations_fresh (key : String) : noCreations.Fresh key :=
  ⟨fun ⟨_, h, _⟩ => absurd h (by simp [noCreations]), rfl⟩

theorem calmCreate_exec (hashtext : String → ℤ) (o : CreateOp) (w : CreateWorld) :
    CreateOp.Exec hashtext o w (o.run hashtext calmCreate w).1 (o.run hashtext calmCreate w).2 := ⟨calmCreate, rfl⟩

/-- The row is claimed, and the provider not asked yet. -/
def claimedWorld : CreateWorld := ⟨inFlight, [], [], 0⟩

def claimedRow : Payment :=
  { sampleTerms.newPayment sampleInput with id := "00000000-0000-0000-0000-000000000011" }

/-- The call that has claimed the row, about to ask the provider. -/
def claimer (k : Except Err ProviderResult → CreateProg (Option Payment × Option Err)) : CreateThread :=
  ⟨sampleInput, [⟨.createIdempotent (sampleTerms.newPayment sampleInput), .ok (true, claimedRow)⟩],
    .call (.createPayment (sampleTerms.request sampleInput)) k⟩

theorem claimer_reach (ok : Sys.Cond CreateWorld CreatePaymentInput CreateOp CreateOp.Res (Option Payment × Option Err))
    (hok : ∀ c t p r, ok c t (.createIdempotent p) r) :
    ∃ k, (createSys sampleTerms fun _ => 0).Reach ok noCreations ⟨claimedWorld, [claimer k]⟩ := by
  have hstart : (createSys sampleTerms fun _ => 0).Reach ok noCreations
      ⟨noCreations, [⟨sampleInput, [], sampleTerms.createPayment sampleInput⟩]⟩ :=
    Sys.Reach.init.step (.start noCreations [] sampleInput trivial)
  have hclaim : (createSys sampleTerms fun _ => 0).exec (.createIdempotent (sampleTerms.newPayment sampleInput)) noCreations
      (.ok (true, claimedRow)) claimedWorld := ⟨calmCreate, rfl⟩
  exact ⟨_, hstart.step (.perform _ _ [] [] _ _ _ _ _ hclaim (hok _ _ _ _))⟩

theorem claimer_undisturbed (k : Except Err ProviderResult → CreateProg (Option Payment × Option Err)) (r : Except Err ProviderResult) :
    Undisturbed "key-2" ⟨claimedWorld, [claimer k]⟩ (claimer k) (.createPayment (sampleTerms.request sampleInput)) r := by
  have hnone : ∀ tx, ∀ e ∈ (claimer k).did, ¬ EmptyReadOf "key-2" tx e := by
    rintro tx e he ⟨row, rfl, -⟩
    cases List.mem_singleton.1 he
  intro _
  refine ⟨fun _ t ht => ?_, fun tx ⟨e, he, hr⟩ => absurd hr (hnone tx e he)⟩
  rw [List.mem_singleton.1 ht]
  exact hnone

theorem charged_once_sample : ∃ c, (createSys sampleTerms fun _ => 0).Reach (Undisturbed "key-2") noCreations c ∧
    c.world.charges = [sampleTerms.request sampleInput] ∧ c.world.ChargedOnce "key-2" := by
  obtain ⟨k, hclaim⟩ := claimer_reach (Undisturbed "key-2") fun _ _ _ _ => trivial
  have hasked : (createSys sampleTerms fun _ => 0).exec (.createPayment (sampleTerms.request sampleInput)) claimedWorld
      (.ok (calmCreate.result (sampleTerms.request sampleInput)))
      { claimedWorld with charges := [sampleTerms.request sampleInput] } := ⟨calmCreate, rfl⟩
  have hrun := hclaim.step (.perform _ _ [] [] _ _ _ _ _ hasked (claimer_undisturbed k _))
  exact ⟨_, hrun, rfl, charged_once sampleTerms _ "key-2" (noCreations_fresh _) hrun⟩

/-! ## A retry while the first call goes on -/

/-- The state once a retry has run to its end. -/
def retriedWorld (inp : CreatePaymentInput) : CreateWorld :=
  ((sampleTerms.createPayment inp).eval (fun o => o.run (fun _ => 0) calmCreate) claimedWorld).2

theorem retried_reach (inp : CreatePaymentInput) : ∃ k t,
    (createSys sampleTerms fun _ => 0).Reach anyStep noCreations ⟨retriedWorld inp, [claimer k, t]⟩ := by
  have hrun : (sampleTerms.createPayment inp).Runs (CreateOp.Exec fun _ => 0) claimedWorld
      ((sampleTerms.createPayment inp).eval (fun o => o.run (fun _ => 0) calmCreate) claimedWorld).1 (retriedWorld inp) :=
    Prog.runs_eval (calmCreate_exec fun _ => 0) _ claimedWorld
  obtain ⟨k, hclaim⟩ := claimer_reach anyStep fun _ _ _ _ => trivial
  obtain ⟨did, h⟩ := hclaim.runs (c := inp) (fun o w r w' he => ⟨he, fun _ _ _ => trivial⟩) hrun trivial
  exact ⟨k, _, h⟩

theorem retriedWorld_charges : (retriedWorld sampleInput).charges = [sampleTerms.request sampleInput] := by decide +kernel

/-- The retry was for more. -/
def dearerInput : CreatePaymentInput := { sampleInput with amount := 200000 }

theorem dearer_made : (retriedWorld dearerInput).charges = [sampleTerms.request dearerInput] ∧
    (retriedWorld dearerInput).db.payments.rows.map (·.amount) = [100000] := by decide +kernel

/-- **A retry charges the amount it was called with**, whatever the row says. -/
theorem recovery_mischarges : ∃ c, (createSys sampleTerms fun _ => 0).Reach anyStep noCreations c ∧
    ∃ r ∈ c.world.charges, r.idempotencyKey = "key-2" ∧ ¬ c.world.HasRow "key-2" r.amountKopecks := by
  obtain ⟨k, t, h⟩ := retried_reach dearerInput
  refine ⟨_, h, sampleTerms.request dearerInput, by rw [dearer_made.1]; exact List.mem_singleton.2 rfl, rfl, ?_⟩
  rintro ⟨p, hp, -, ha⟩
  have hmem : p.amount ∈ (retriedWorld dearerInput).db.payments.rows.map (·.amount) := List.mem_map.2 ⟨p, hp, rfl⟩
  rw [dearer_made.2, List.mem_singleton, ha] at hmem
  exact absurd hmem (by decide)

/-- The call that claimed the row goes on when a retry has asked the provider for it. -/
theorem claimer_recharges : ∃ c, (createSys sampleTerms fun _ => 0).Reach anyStep noCreations c ∧
    c.world.charges = [sampleTerms.request sampleInput, sampleTerms.request sampleInput] := by
  obtain ⟨k, t, h⟩ := retried_reach sampleInput
  have hasked : (createSys sampleTerms fun _ => 0).exec (.createPayment (sampleTerms.request sampleInput))
      (retriedWorld sampleInput) (.ok (calmCreate.result (sampleTerms.request sampleInput)))
      { retriedWorld sampleInput with charges := (retriedWorld sampleInput).charges ++ [sampleTerms.request sampleInput] } :=
    ⟨calmCreate, rfl⟩
  refine ⟨_, h.step (.perform _ _ [] [t] _ _ _ _ _ hasked trivial), ?_⟩
  dsimp only
  rw [retriedWorld_charges]
  rfl

theorem not_always_charged_once : ¬ ∀ (uc : ChargeTerms) (hashtext : String → ℤ) (key : String) (w₀ : CreateWorld)
    (c : CreateConfig), w₀.Fresh key → (createSys uc hashtext).Reach anyStep w₀ c → c.world.ChargedOnce key := by
  intro h
  obtain ⟨c, hr, hch⟩ := claimer_recharges
  have honce := (h sampleTerms (fun _ => 0) "key-2" noCreations c (noCreations_fresh _) hr).1
  rw [hch] at honce
  exact absurd honce (by decide)

end Agregator
