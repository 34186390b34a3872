import Agregator.PayCharge
/-!
# PayFee — the commission of the platform

`PlatformFeeKopecks` multiplies before it divides, in 64 bits, and no bound is put on the amount or on the configured basis
points.  Fee and net make up the amount exactly when the product does not leave the range and the quotient does not exceed the
amount (`createPayment_splits`); the net is never negative, whatever the fee came to (`counterpartyNetKopecks_nonneg`).
-/
namespace Agregator

open Conc

/-- `Load` and `NewPaymentUseCase`, from what PLATFORM_FEE_BPS is set to. -/
def configuredTerms (returnURL platformFeeBPS : String) : ChargeTerms :=
  newChargeTerms returnURL (getEnvInt platformFeeBPS 1500)

/-- Fee and net make up the amount, and were computed as in the integers. -/
structure Payment.Splits (p : Payment) (feeBPS : ℤ) : Prop where
  fee_nonneg : 0 ≤ p.platformFeeKopecks
  fee_le : p.platformFeeKopecks ≤ p.amount
  whole : p.platformFeeKopecks + p.counterpartyNetKopecks = p.amount
  net_nonneg : 0 ≤ p.counterpartyNetKopecks
  product : int64 (p.amount * feeBPS) = p.amount * feeBPS
  difference : int64 (p.amount - p.platformFeeKopecks) = p.amount - p.platformFeeKopecks

/-- The product fits into 64 bits, and basis points above the whole do not come to a kopeck more than the amount. -/
def FeeFits (amount feeBPS : ℤ) : Prop :=
  amount * feeBPS < 2 ^ 63 ∧ amount * (feeBPS - 10000) < 10000

instance (amount feeBPS : ℤ) : Decidable (FeeFits amount feeBPS) := inferInstanceAs (Decidable (_ ∧ _))

/-- A commission of at most the whole fits if its product does. -/
theorem FeeFits.of_le {amount feeBPS : ℤ} (hamount : 0 < amount) (hwhole : feeBPS ≤ 10000) (hfits : amount * feeBPS < 2 ^ 63) :
    FeeFits amount feeBPS := by
  refine ⟨hfits, ?_⟩
  have hneg : amount * (feeBPS - 10000) ≤ 0 := Int.mul_nonpos_of_nonneg_of_nonpos (by omega) (by omega)
  omega

/-! ## The two functions -/

theorem counterpartyNetKopecks_nonneg (gross fee : ℤ) : 0 ≤ counterpartyNetKopecks gross fee := by
  unfold counterpartyNetKopecks
  dsimp only
  split <;> omega

theorem counterpartyNetKopecks_of_le {gross fee : ℤ} (hfee : 0 ≤ fee) (hle : fee ≤ gross) (hgross : gross < 2 ^ 63) :
    counterpartyNetKopecks gross fee = gross - fee := by
  have hexact : int64 (gross - fee) = gross - fee := int64_of_range (by omega) (by omega)
  unfold counterpartyNetKopecks
  dsimp only
  rw [hexact, if_neg (by omega)]

/-- The fee, as the product came out. -/
theorem platformFeeKopecks_of_pos {gross feeBPS : ℤ} (hgross : 0 < gross) (hfee : 0 < feeBPS) :
    platformFeeKopecks gross feeBPS = (int64 (gross * feeBPS)).tdiv 10000 := by
  unfold platformFeeKopecks
  rw [if_neg (by omega)]

/-- The fee without a wrap is the quotient rounded down. -/
theorem platformFeeKopecks_exact {gross feeBPS : ℤ} (hgross : 0 < gross) (hfee : 0 < feeBPS)
    (hexact : int64 (gross * feeBPS) = gross * feeBPS) : platformFeeKopecks gross feeBPS = gross * feeBPS / 10000 := by
  have hpos : 0 < gross * feeBPS := Int.mul_pos hgross hfee
  rw [platformFeeKopecks_of_pos hgross hfee, hexact, Int.tdiv_eq_ediv_of_nonneg (by omega)]

/-- **Fee and net make up the amount exactly when they fit.** -/
theorem splits_iff {p : Payment} {feeBPS : ℤ} (hamount : 0 < p.amount) (hmax : p.amount < 2 ^ 63) (hbps : 0 < feeBPS)
    (hfee : p.platformFeeKopecks = platformFeeKopecks p.amount feeBPS)
    (hnet : p.counterpartyNetKopecks = counterpartyNetKopecks p.amount p.platformFeeKopecks) :
    p.Splits feeBPS ↔ FeeFits p.amount feeBPS := by
  have hpos : 0 < p.amount * feeBPS := Int.mul_pos hamount hbps
  have hshift : p.amount * (feeBPS - 10000) = p.amount * feeBPS - p.amount * 10000 := Int.mul_sub ..
  constructor
  · intro hs
    have hrange := (int64_range (p.amount * feeBPS)).2
    rw [hs.product] at hrange
    have hle := hs.fee_le
    rw [hfee, platformFeeKopecks_exact hamount hbps hs.product] at hle
    exact ⟨hrange, by omega⟩
  · rintro ⟨hfits, hover⟩
    have hexact : int64 (p.amount * feeBPS) = p.amount * feeBPS := int64_of_range (by omega) hfits
    rw [platformFeeKopecks_exact hamount hbps hexact] at hfee
    have hnonneg : 0 ≤ p.platformFeeKopecks := by omega
    have hle : p.platformFeeKopecks ≤ p.amount := by omega
    rw [counterpartyNetKopecks_of_le hnonneg hle hmax] at hnet
    exact ⟨hnonneg, hle, by omega, by omega, hexact, int64_of_range (by omega) (by omega)⟩

/-! ## What is handed to the repository -/

theorem configuredTerms_feeBPS (returnURL platformFeeBPS : String) :
    0 < (configuredTerms returnURL platformFeeBPS).feeBPS ∧ (configuredTerms returnURL platformFeeBPS).feeBPS < 2 ^ 63 := by
  have hrange : -2 ^ 63 ≤ getEnvInt platformFeeBPS 1500 ∧ getEnvInt platformFeeBPS 1500 < 2 ^ 63 :=
    getEnvInt_range (by decide)
  unfold configuredTerms newChargeTerms
  dsimp only
  split <;> omega

/-- The claim of a payment is made with its fee and net as computed, for an amount that is positive. -/
theorem createPayment_claims (uc : ChargeTerms) (inp : CreatePaymentInput) :
    (uc.createPayment inp).All fun o => ∀ p, o = .createIdempotent p → p = uc.newPayment inp ∧ 0 < inp.amount := by
  by_cases hamount : inp.amount ≤ 0
  · unfold ChargeTerms.createPayment
    rw [if_pos hamount]
    trivial
  · refine (createPayment_after uc inp).all fun h o ho p hp => ?_
    subst hp
    exact ⟨ho, by omega⟩

/-- **The commission of every payment that is created**: of a positive amount, at the fee that is configured, fee and net make up
the amount, without overflow, exactly when they fit. -/
theorem createPayment_splits (returnURL platformFeeBPS : String) (inp : CreatePaymentInput) (hmax : inp.amount < 2 ^ 63) :
    ((configuredTerms returnURL platformFeeBPS).createPayment inp).All fun o => ∀ p, o = .createIdempotent p →
      (p.Splits (configuredTerms returnURL platformFeeBPS).feeBPS ↔
        FeeFits p.amount (configuredTerms returnURL platformFeeBPS).feeBPS) := by
  refine (createPayment_claims _ inp).mono fun o ho p hp => ?_
  obtain ⟨rfl, hamount⟩ := ho p hp
  exact splits_iff hamount hmax (configuredTerms_feeBPS returnURL platformFeeBPS).1 rfl rfl

/-! ### A fee that wraps -/

/-- The commission of a payment at the default fee. -/
def ofAmount (amount : ℤ) : CreatePaymentInput := ⟨"b1", amount, "", "k1", "venue", "v1", none⟩

theorem createPayment_splits_sample : ((configuredTerms "" "").newPayment (ofAmount 33)).Splits 1500 ∧
    ¬ ((configuredTerms "" "").newPayment (ofAmount (2 ^ 63 - 1))).Splits 1500 := by
  have hfirst : ∀ amount : ℤ, 0 < amount → ∃ k, (configuredTerms "" "").createPayment (ofAmount amount) =
      .call (.createIdempotent ((configuredTerms "" "").newPayment (ofAmount amount))) k := by
    intro amount h
    unfold ChargeTerms.createPayment
    rw [if_neg (by simp [ofAmount]; omega)]
    exact ⟨_, rfl⟩
  constructor
  · have hall := createPayment_splits "" "" (ofAmount 33) (by decide)
    obtain ⟨k, hk⟩ := hfirst 33 (by decide)
    rw [hk] at hall
    exact (hall.1 _ rfl).2 (by decide)
  · have hall := createPayment_splits "" "" (ofAmount (2 ^ 63 - 1)) (by decide)
    obtain ⟨k, hk⟩ := hfirst (2 ^ 63 - 1) (by decide)
    rw [hk] at hall
    exact fun hs => absurd ((hall.1 _ rfl).1 hs) (by decide)

/-- At the default fee the largest amount has its product wrap. -/
theorem createPayment_overflows : ¬ ∀ (returnURL platformFeeBPS : String) (inp : CreatePaymentInput), inp.amount < 2 ^ 63 →
    ((configuredTerms returnURL platformFeeBPS).createPayment inp).All fun o => ∀ p, o = .createIdempotent p →
      p.Splits (configuredTerms returnURL platformFeeBPS).feeBPS := by
  intro hall
  have h := hall "" "" (ofAmount (2 ^ 63 - 1)) (by decide)
  unfold ChargeTerms.createPayment at h
  rw [if_neg (by decide)] at h
  exact absurd (h.1 _ rfl).product (by decide)

end Agregator
