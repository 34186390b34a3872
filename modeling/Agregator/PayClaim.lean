import Agregator.PayCreate
/-!
# PayClaim — claiming the row of a payment

What the three statements of a creation do to `payments`, and when an insert goes through.  A row stands without the
provider's id from its insert until the answer of the provider is stored, and for good if that never happens; the id is the
empty string then, which the unique index takes for a value like any other.
-/
namespace Agregator

open Rel Conc

namespace PaymentRepo

variable {now : Time} {newID : String} {p : Payment} {db : PaymentDB}

/-- **Everything `createIdempotent` can do.** -/
theorem createIdempotent_cases (now : Time) (newID : String) (p : Payment) (db : PaymentDB) :
    (∃ e, createIdempotent now newID p db = (.error e, db)) ∨
    (createIdempotent now newID p db = (.ok (false, p), db) ∧
      ∃ x ∈ db.payments.rows, x.idempotencyKey = p.idempotencyKey) ∨
    (∃ t, createIdempotent now newID p db =
        (.ok (true, { p with id := newID, createdAt := now, updatedAt := now }), { db with payments := t }) ∧
      t.rows = db.payments.rows ++ [newRow now newID p] ∧
      ∀ x ∈ db.payments.rows, x.idempotencyKey ≠ p.idempotencyKey) := by
  unfold createIdempotent
  rcases uuidParam_cases p.bookingID with ⟨hu, -⟩ | ⟨e, hu, -⟩
  swap
  · exact .inl ⟨e, by rw [hu]⟩
  simp only [hu]
  split
  · exact .inl ⟨_, rfl⟩
  split
  · rename_i hkey
    obtain ⟨x, hx, hxk⟩ := List.any_eq_true.1 hkey
    exact .inr (.inl ⟨rfl, x, hx, by simpa using hxk⟩)
  rename_i hkey
  split
  · exact .inl ⟨_, rfl⟩
  · rename_i t ht
    refine .inr (.inr ⟨t, rfl, Table.insert_rows ht, fun x hx hxk => ?_⟩)
    exact hkey (List.any_eq_true.2 ⟨x, hx, by simpa using hxk⟩)

/-- **Everything `setProviderInfo` can do.** -/
theorem setProviderInfo_cases (now : Time) (id pid url : String) (db : PaymentDB) :
    (∃ e, setProviderInfo now id pid url db = .error e) ∨
    (setProviderInfo now id pid url db = .ok none ∧ ∀ x ∈ db.payments.rows, x.id ≠ id) ∨
    (∃ t, setProviderInfo now id pid url db = .ok (some { db with payments := t }) ∧
      t.rows = db.payments.rows.map fun x =>
        if x.id == id then { x with providerID := pid, paymentURL := url, updatedAt := now } else x) := by
  unfold setProviderInfo
  rcases uuidParam_cases id with ⟨hu, -⟩ | ⟨e, hu, -⟩
  swap
  · exact .inl ⟨e, by rw [hu]⟩
  simp only [hu]
  split
  · exact .inl ⟨_, rfl⟩
  rename_i t ht
  by_cases hany : db.payments.rows.any (·.id == id) = true
  · rw [if_pos hany]
    exact .inr (.inr ⟨t, rfl, Table.update_rows ht⟩)
  · rw [if_neg hany]
    refine .inr (.inl ⟨rfl, fun x hx hxid => hany ?_⟩)
    exact List.any_eq_true.2 ⟨x, hx, by simpa using hxid⟩

/-- The row is claimed. -/
def Claims (now : Time) (newID : String) (p : Payment) (db : PaymentDB) : Prop :=
  ∃ row db', createIdempotent now newID p db = (.ok (true, row), db')

/-- **A payment whose id, booking and key are not in the table is refused for one reason only**: another row has the same
provider id. -/
theorem claims_iff (hid : ∀ x ∈ db.payments.rows, x.id ≠ newID) (hb : ∀ x ∈ db.payments.rows, x.bookingID ≠ p.bookingID)
    (hk : ∀ x ∈ db.payments.rows, x.idempotencyKey ≠ p.idempotencyKey) :
    Claims now newID p db ↔
      paymentSchema.check (newRow now newID p) = true ∧ ∀ x ∈ db.payments.rows, x.providerID ≠ p.providerID := by
  have hclash : ∀ x ∈ db.payments.rows, paymentSchema.clash x (newRow now newID p) = (x.providerID == p.providerID) := by
    intro x hx
    simp only [paymentSchema, newRow, beq_eq_false_iff_ne.2 (hid x hx), beq_eq_false_iff_ne.2 (hb x hx),
      beq_eq_false_iff_ne.2 (hk x hx), Bool.false_or, Bool.or_false]
  have hfree : ¬ db.payments.rows.any (·.idempotencyKey == p.idempotencyKey) = true := by
    intro hany
    obtain ⟨x, hx, hxk⟩ := List.any_eq_true.1 hany
    exact hk x hx (by simpa using hxk)
  unfold Claims createIdempotent
  constructor
  · rintro ⟨row, db', h⟩
    rcases uuidParam_cases p.bookingID with ⟨hu, -⟩ | ⟨e, hu, -⟩
    swap
    · simp [hu] at h
    simp only [hu] at h
    split at h
    · cases h
    rename_i hc
    split at h
    · cases h
    rename_i t ht
    refine ⟨by simpa using hc, fun x hx hxp => ?_⟩
    have hno := (Table.of_insert_ok ht).2 x hx
    rw [hclash x hx, hxp] at hno
    simp at hno
  · rintro ⟨hc, hp⟩
    have hu : isUUID p.bookingID = true := by
      simp only [paymentSchema, newRow, Bool.and_eq_true] at hc
      exact hc.1.1.1.1.1.2
    obtain ⟨t, ht⟩ := db.payments.insert_ok hc fun x hx => by
      rw [hclash x hx]
      exact beq_eq_false_iff_ne.2 (hp x hx)
    simp only [uuidParam_ok hu, hc, Bool.true_eq_false, if_false, hfree, ht]
    exact ⟨_, _, rfl⟩

end PaymentRepo

/-! ## The claim of a creation -/

/-- What the columns of `payments` take of an input. -/
structure CreatePaymentInput.Fits (inp : CreatePaymentInput) : Prop where
  bookingID : isUUID inp.bookingID = true
  idempotencyKey : inp.idempotencyKey.length ≤ 255
  counterpartyType : (trimSpace inp.counterpartyType).length ≤ 16
  counterpartyID : (trimSpace inp.counterpartyID).length ≤ 64

theorem ChargeTerms.check_newPayment (uc : ChargeTerms) (inp : CreatePaymentInput) (now : Time) {newID : String}
    (hid : isUUID newID = true) :
    paymentSchema.check (PaymentRepo.newRow now newID (uc.newPayment inp)) = true ↔ inp.Fits := by
  have hmock : ("mock" : String).length ≤ 32 := by decide
  simp only [paymentSchema, PaymentRepo.newRow, ChargeTerms.newPayment, hid, if_true, Bool.and_eq_true, decide_eq_true_eq,
    String.length_empty]
  constructor
  · rintro ⟨⟨⟨⟨⟨⟨-, hb⟩, -⟩, hk⟩, ht⟩, hc⟩, -⟩
    exact ⟨hb, hk, ht, hc⟩
  · rintro ⟨hb, hk, ht, hc⟩
    exact ⟨⟨⟨⟨⟨⟨trivial, hb⟩, by omega⟩, hk⟩, ht⟩, hc⟩, hmock⟩

/-- The database draws an id that no payment has. -/
def PaymentDB.Draws (db : PaymentDB) (newID : String) : Prop :=
  isUUID newID = true ∧ ∀ x ∈ db.payments.rows, x.id ≠ newID

/-- The booking and the key are not in the table. -/
def PaymentDB.NewTo (db : PaymentDB) (inp : CreatePaymentInput) : Prop :=
  ∀ x ∈ db.payments.rows, x.bookingID ≠ inp.bookingID ∧ x.idempotencyKey ≠ inp.idempotencyKey

/-- **A new payment is claimed if and only if every other payment has its provider id.** -/
theorem newPayment_claims_iff (uc : ChargeTerms) (db : PaymentDB) (inp : CreatePaymentInput) (now : Time) (newID : String)
    (hid : db.Draws newID) (hnew : db.NewTo inp) (hfit : inp.Fits) :
    PaymentRepo.Claims now newID (uc.newPayment inp) db ↔ ∀ x ∈ db.payments.rows, x.providerID ≠ "" := by
  rw [PaymentRepo.claims_iff hid.2 (fun x hx => (hnew x hx).1) (fun x hx => (hnew x hx).2),
    uc.check_newPayment inp now hid.1]
  exact ⟨fun h => h.2, fun h => ⟨hfit, h⟩⟩

/-- A payment the provider knows. -/
def sampleKnown : Payment where
  id := "00000000-0000-0000-0000-000000000001"
  bookingID := "00000000-0000-0000-0000-000000000002"
  amount := 100000
  status := .pending
  providerID := "order-1"
  paymentURL := ""
  idempotencyKey := "key-1"
  platformFeeKopecks := 15000
  counterpartyNetKopecks := 85000
  counterpartyType := "venue"
  counterpartyID := "00000000-0000-0000-0000-000000000003"
  providerName := "mock"
  serviceAt := none
  createdAt := 0
  updatedAt := 0

theorem sampleKnown_check : paymentSchema.check sampleKnown = true := by decide

def sampleTerms : ChargeTerms := newChargeTerms "https://example.test/return" 1500

def sampleInput : CreatePaymentInput where
  bookingID := "00000000-0000-0000-0000-000000000012"
  amount := 100000
  description := ""
  idempotencyKey := "key-2"
  counterpartyType := "venue"
  counterpartyID := "00000000-0000-0000-0000-000000000003"
  serviceAt := none

theorem sampleInput_fits : sampleInput.Fits := by
  constructor <;> decide

theorem newPayment_claims_iff_sample :
    PaymentRepo.Claims 0 "00000000-0000-0000-0000-000000000011" (sampleTerms.newPayment sampleInput)
      (PaymentDB.ofPayment sampleKnown sampleKnown_check) ↔
    ∀ x ∈ (PaymentDB.ofPayment sampleKnown sampleKnown_check).payments.rows, x.providerID ≠ "" :=
  newPayment_claims_iff _ _ _ _ _ ⟨by decide, fun x hx => by rw [List.mem_singleton.1 hx]; decide⟩
    (fun x hx => by rw [List.mem_singleton.1 hx]; decide) sampleInput_fits

/-! ### While the provider answers -/

def noPayments : PaymentDB := ⟨.empty _, [], .empty _, .empty _, .empty _⟩

/-- The database once the first call has claimed its row, and waits for the provider. -/
def inFlight : PaymentDB :=
  (PaymentRepo.createIdempotent 0 "00000000-0000-0000-0000-000000000011" (sampleTerms.newPayment sampleInput) noPayments).2

theorem inFlight_rows : inFlight.payments.rows =
    [PaymentRepo.newRow 0 "00000000-0000-0000-0000-000000000011" (sampleTerms.newPayment sampleInput)] := by rfl

theorem inFlight_reach (hashtext : String → ℤ) : ∃ ts, (createSys sampleTerms hashtext).Reach anyStep
    ⟨noPayments, [], [], 0⟩ ⟨⟨inFlight, [], [], 0⟩, ts⟩ := by
  have hstart : (createSys sampleTerms hashtext).Reach anyStep ⟨noPayments, [], [], 0⟩
      ⟨⟨noPayments, [], [], 0⟩, [⟨sampleInput, [], sampleTerms.createPayment sampleInput⟩]⟩ :=
    Sys.Reach.init.step (.start _ [] sampleInput trivial)
  exact ⟨_, hstart.step (.perform _ _ [] [] _ _ _ _ (.ok (true, _))
    ⟨⟨0, "00000000-0000-0000-0000-000000000011", fun _ => ⟨"", ""⟩, fun _ => .none⟩, rfl⟩ trivial)⟩

/-- Another booking, another key. -/
def otherInput : CreatePaymentInput :=
  { sampleInput with bookingID := "00000000-0000-0000-0000-000000000022", idempotencyKey := "key-3" }

theorem creation_not_independent : ¬ ∀ (uc : ChargeTerms) (hashtext : String → ℤ)
    (c : Config CreateWorld CreatePaymentInput CreateOp CreateOp.Res (Option Payment × Option Err)),
    (createSys uc hashtext).Reach anyStep ⟨noPayments, [], [], 0⟩ c → ∀ (inp : CreatePaymentInput) (now : Time) (newID : String),
      c.world.db.Draws newID → c.world.db.NewTo inp → inp.Fits →
        PaymentRepo.Claims now newID (uc.newPayment inp) c.world.db := by
  intro h
  obtain ⟨ts, hr⟩ := inFlight_reach fun _ => 0
  have hrow : ∀ x ∈ inFlight.payments.rows, x = PaymentRepo.newRow 0 "00000000-0000-0000-0000-000000000011"
      (sampleTerms.newPayment sampleInput) := by
    rw [inFlight_rows]
    exact fun x hx => List.mem_singleton.1 hx
  have hids : ∀ x ∈ inFlight.payments.rows, x.id ≠ "00000000-0000-0000-0000-000000000021" :=
    fun x hx => by rw [hrow x hx]; decide
  have hkeys : inFlight.NewTo otherInput := fun x hx => by rw [hrow x hx]; decide
  have hclaim := h sampleTerms (fun _ => 0) _ hr otherInput 0 "00000000-0000-0000-0000-000000000021"
    ⟨by decide, hids⟩ hkeys (by constructor <;> decide)
  -- the row that waits has the id the new one comes with
  have hnone := ((PaymentRepo.claims_iff hids (fun x hx => (hkeys x hx).1) fun x hx => (hkeys x hx).2).1 hclaim).2
  exact hnone (PaymentRepo.newRow 0 "00000000-0000-0000-0000-000000000011" (sampleTerms.newPayment sampleInput))
    (by rw [inFlight_rows]; exact List.mem_singleton.2 rfl) rfl

end Agregator
