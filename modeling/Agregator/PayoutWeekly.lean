import Agregator.PayoutTick
/-!
# PayoutWeekly — payouts once a week

One scheduler in weekly mode, its ticks one after the other, each to its end or until the service stops.  Before every
operation anything else may happen that makes no payout: accruals, refunds, webhooks, reconciliations, time that goes by.
-/
namespace Agregator

open Rel Conc

/-! ## What happens to the payouts -/

/-- The same payout later, created when it was. -/
structure Payout.Stands (p q : Payout) : Prop where
  id      : q.id = p.id
  partner : q.partner = p.partner
  created : q.createdAt = p.createdAt
  failed  : p.status = .failed → q.status = .failed

theorem Payout.Stands.refl (p : Payout) : p.Stands p := ⟨rfl, rfl, rfl, fun h => h⟩

theorem Payout.Stands.trans {a b c : Payout} (h1 : a.Stands b) (h2 : b.Stands c) : a.Stands c where
  id := h2.id.trans h1.id
  partner := h2.partner.trans h1.partner
  created := h2.created.trans h1.created
  failed h := h2.failed (h1.failed h)

/-- No payout is made: whatever is there later was there. -/
def PaymentDB.NoneMade (db db' : PaymentDB) : Prop := ∀ q ∈ db'.payouts.rows, ∃ p ∈ db.payouts.rows, p.Stands q

theorem PaymentDB.NoneMade.refl (db : PaymentDB) : db.NoneMade db := fun p hp => ⟨p, hp, .refl p⟩

theorem PaymentDB.NoneMade.of_eq {db db' : PaymentDB} (h : db'.payouts = db.payouts) : db.NoneMade db' := by
  intro p hp
  rw [h] at hp
  exact ⟨p, hp, .refl p⟩

theorem PaymentDB.NoneMade.trans {a b c : PaymentDB} (h1 : a.NoneMade b) (h2 : b.NoneMade c) : a.NoneMade c := by
  intro r hr
  obtain ⟨q, hq, hqr⟩ := h2 r hr
  obtain ⟨p, hp, hpq⟩ := h1 q hq
  exact ⟨p, hp, hpq.trans hqr⟩

theorem PaymentDB.NoneMade.of_replaced {db db' : PaymentDB} {p p' : Payout} {l₁ l₂ : List Payout}
    (hrows : db.payouts.rows = l₁ ++ p :: l₂) (hrows' : db'.payouts.rows = l₁ ++ p' :: l₂) (hp : p.Stands p') :
    db.NoneMade db' := by
  intro q hq
  rw [hrows'] at hq
  simp only [List.mem_append, List.mem_cons] at hq
  rcases hq with hq | rfl | hq
  · exact ⟨q, by simp [hrows, hq], .refl q⟩
  · exact ⟨p, by simp [hrows], hp⟩
  · exact ⟨q, by simp [hrows, hq], .refl q⟩

def LedgerOp.makes : LedgerOp → Bool
  | createPendingWithLedger _ _ _ => true
  | _ => false

/-- **Every other transaction makes no payout.** -/
theorem LedgerOp.noneMade {o : LedgerOp} (ho : o.makes = false) (db : PaymentDB) : db.NoneMade (o.apply db) := by
  cases o with
  | createPendingWithLedger now gen x => cases ho
  | appendAccrual now e =>
    rcases LedgerRepo.appendAccrual_cases now e db with ⟨_, he, -⟩ | ⟨_, he, -⟩ | ⟨l, he, -⟩ <;>
      rw [LedgerOp.apply, he] <;> exact .of_eq rfl
  | appendReversal now e =>
    rcases LedgerRepo.appendReversal_cases now e db with ⟨_, he, -⟩ | ⟨_, he, -⟩ | ⟨l, he, -⟩ <;>
      rw [LedgerOp.apply, he] <;> exact .of_eq rfl
  | markProcessing now id pid =>
    rcases PayoutRepo.markProcessing_cases now id pid db with ⟨_, he⟩ | ⟨he, -⟩ | ⟨q, l₁, l₂, t, hr, -, hst, he, hr'⟩
    · rw [LedgerOp.apply, he]
      exact .refl db
    · rw [LedgerOp.apply, he]
      exact .refl db
    · rw [LedgerOp.apply, he]
      exact .of_replaced hr hr' ⟨rfl, rfl, rfl, fun h => by rw [h] at hst; cases hst⟩
  | markSucceeded now id at' =>
    rcases PayoutRepo.markSucceeded_cases now id at' db with ⟨_, he⟩ | ⟨q, l₁, l₂, t, hr, -, hst, he, hr'⟩
    · rw [LedgerOp.apply, he]
      exact .refl db
    · rw [LedgerOp.apply, he]
      exact .of_replaced hr hr' ⟨rfl, rfl, rfl, fun h => by rw [h] at hst; cases hst⟩
  | markFailedWithReversal now id reason at' =>
    rcases PayoutRepo.markFailedWithReversal_cases now id reason at' db with
      ⟨_, he⟩ | ⟨q, l₁, l₂, t, l, hr, -, hst, he, hr', -⟩
    · rw [LedgerOp.apply, he]
      exact .refl db
    · rw [LedgerOp.apply, he]
      exact .of_replaced hr hr' ⟨rfl, rfl, rfl, fun _ => rfl⟩

def PayoutOp.makes : PayoutOp → Bool
  | createPendingWithLedger _ => true
  | _ => false

def TickOp.makes : TickOp → Bool
  | pay o => o.makes
  | _ => false

theorem PayoutOp.run_noneMade {o : PayoutOp} (ho : o.makes = false) (env : PayoutEnv) (w : PayoutWorld) :
    w.db.NoneMade (o.run env w).2.db := by
  have htx : ∀ {α : Type} {o : LedgerOp} {f : PaymentDB → Except Err α × PaymentDB}, o.makes = false →
      (f w.db).2 = o.apply w.db → w.db.NoneMade (env.fault.apply Err.plain (onPayouts f) w).2.db := by
    intro α o f hmakes hf
    rcases Fault.apply_state env.fault Err.plain (onPayouts f) w with h | h
    · rw [h]
      exact .refl _
    · rw [h]
      show w.db.NoneMade (f w.db).2
      rw [hf]
      exact LedgerOp.noneMade hmakes w.db
  have hread : ∀ {α : Type} (g : PaymentDB → Except Err α),
      w.db.NoneMade (env.fault.apply Err.plain (onPayouts fun db => (g db, db)) w).2.db := by
    intro α g
    rcases Fault.apply_state env.fault Err.plain (onPayouts fun db => (g db, db)) w with h | h <;> rw [h] <;> exact .refl _
  cases o with
  | createPendingWithLedger p => cases ho
  | balance ref => exact hread _
  | lastPayoutAt ref => exact hread _
  | getActiveMethod ref => exact hread _
  | getMethodByID id => exact hread _
  | getByProviderPayoutID pid => exact hread _
  | markProcessing id pid => exact htx (o := .markProcessing env.now id pid) rfl rfl
  | markSucceeded id at' => exact htx (o := .markSucceeded env.now id at') rfl rfl
  | markFailedWithReversal id reason at' => exact htx (o := .markFailedWithReversal env.now id reason at') rfl rfl
  | createPayout req =>
    rw [run]
    rcases Fault.apply_state env.fault transientErr (onBank (Bank.createPayout env.choice req)) w with h | h <;>
      rw [h] <;> exact .refl _
  | parsePayoutWebhook raw => exact .refl _
  | newUUID => exact .refl _
  | now => exact .refl _

/-- What the rest of the service, and time, may do between two operations of the scheduler. -/
def TickWorld.Interferes (w w' : TickWorld) : Prop := w.clock ≤ w'.clock ∧ w.db.NoneMade w'.db

theorem TickOp.Exec.interferes {ok : TickEnv → TickWorld → Prop} {o : TickOp} {w w' : TickWorld} {r : o.Res}
    (h : o.Exec ok w r w') (ho : o.makes = false) : w.Interferes w' := by
  refine ⟨h.clock_le, ?_⟩
  obtain ⟨env, -, -, hrun, -⟩ := h
  have hdb : w'.db = (o.run env w.toPayoutWorld).2.db := by rw [hrun]
  rw [hdb]
  cases o with
  | now => exact .refl _
  | ctxErr => exact .refl _
  | partnersWithAvailableBalance m l =>
    rw [TickOp.run]
    rcases Fault.apply_state env.fault Err.plain
      (onPayouts fun db => (LedgerRepo.partnersWithAvailableBalance env.now m l db, db)) w.toPayoutWorld with h | h <;>
      rw [h] <;> exact .refl _
  | pay o => exact PayoutOp.run_noneMade ho env.toPayoutEnv w.toPayoutWorld

/-- **What else the service does makes no payout**: a reconciliation, a webhook. -/
theorem interferes_of_runs {ok : TickEnv → TickWorld → Prop} {α : Type} {p : PayoutProg α} (hp : p.All (·.makes = false))
    {w w' : TickWorld} {a : α} (h : p.Runs (PayoutOp.TickExec ok) w a w') : w.Interferes w' :=
  Prog.All.runs (R := TickWorld.Interferes) (fun _ => ⟨Int.le_refl _, .refl _⟩)
    (fun _ _ _ h1 h2 => ⟨Int.le_trans h1.1 h2.1, h1.2.trans h2.2⟩) (fun _ _ _ _ ho he => he.interferes ho) hp h

theorem giveUp_makesNone (id reason : String) (both : Err → Err) (done : Option Err) :
    (giveUp id reason both done).All (·.makes = false) := by
  simp only [giveUp, Prog.bind_eq, Prog.perform_bind]
  refine ⟨rfl, fun now => ⟨rfl, fun r => ?_⟩⟩
  cases r <;> trivial

theorem takeResult_makesNone (ctx id : String) (result : PayoutResult) :
    (takeResult ctx id result).All (·.makes = false) := by
  simp only [takeResult, Prog.bind_eq, Prog.perform_bind]
  refine ⟨rfl, fun r => ?_⟩
  cases r with
  | error err => trivial
  | ok u =>
    dsimp only
    cases result.status with
    | pending => trivial
    | succeeded => exact ⟨rfl, fun now => ⟨rfl, fun r => by cases r <;> trivial⟩⟩
    | failed => exact ⟨rfl, fun now => ⟨rfl, fun r => by cases r <;> trivial⟩⟩

theorem reconcileOne_makesNone (p : Payout) : (reconcileOne p).All (·.makes = false) := by
  simp only [reconcileOne, Prog.bind_eq, Prog.perform_bind]
  refine ⟨rfl, fun r => ?_⟩
  cases r with
  | error err => exact giveUp_makesNone ..
  | ok method =>
    refine ⟨rfl, fun r => ?_⟩
    cases r with
    | ok result => exact takeResult_makesNone ..
    | error err =>
      dsimp only
      split
      · trivial
      · exact giveUp_makesNone ..

theorem handlePayoutWebhook_makesNone (uc : PayoutUseCase) (raw : RawBody) :
    (uc.handlePayoutWebhook raw).All (·.makes = false) := by
  simp only [PayoutUseCase.handlePayoutWebhook, Prog.bind_eq, Prog.perform_bind]
  refine ⟨rfl, fun r => ?_⟩
  cases r with
  | error err => trivial
  | ok parsed =>
  cases parsed with
  | none => trivial
  | some event =>
    refine ⟨rfl, fun r => ?_⟩
    cases r with
    | error err => dsimp only; split <;> trivial
    | ok p =>
      dsimp only
      split
      · trivial
      cases event.status with
      | pending => trivial
      | succeeded => exact ⟨rfl, fun now => ⟨rfl, fun r => by cases r <;> trivial⟩⟩
      | failed => exact ⟨rfl, fun now => ⟨rfl, fun r => by cases r <;> trivial⟩⟩

/-! ## The runs of the scheduler -/

/-- An operation, after whatever else may have happened before it. -/
def TickOp.Interleaved (o : TickOp) (w : TickWorld) (r : o.Res) (w' : TickWorld) : Prop :=
  ∃ v, w.Interferes v ∧ o.Exec (fun _ _ => True) v r w'

/-- The ticks so far, each to its end or until it was cut off, with when it began and when it ended. -/
inductive PayoutScheduler.WeeklyRun (s : PayoutScheduler) (w₀ : TickWorld) : List (Time × Time) → TickWorld → Prop
  | init : WeeklyRun s w₀ [] w₀
  | others {spans : List (Time × Time)} {w w' : TickWorld} : WeeklyRun s w₀ spans w → w.Interferes w' → WeeklyRun s w₀ spans w'
  | tick {spans : List (Time × Time)} {w w' : TickWorld} : WeeklyRun s w₀ spans w →
      s.tick.Reaches TickOp.Interleaved (fun _ v => v = w') w → WeeklyRun s w₀ (spans ++ [(w.clock, w'.clock)]) w'

/-- Two payouts of a partner that have not failed are made so far apart. -/
def PaymentDB.Spaced (db : PaymentDB) : Prop := ∀ p ∈ db.payouts.rows, ∀ q ∈ db.payouts.rows, p.id ≠ q.id →
  p.partner = q.partner → p.status ≠ .failed → q.status ≠ .failed →
  payoutCooldown ≤ p.createdAt - q.createdAt ∨ payoutCooldown ≤ q.createdAt - p.createdAt

/-- No payout of the partner that has not failed is younger than the cooldown. -/
def TickWorld.Rested (w : TickWorld) (ref : PartnerRef) : Prop :=
  ∀ p ∈ w.db.payouts.rows, p.partner = ref → p.status ≠ .failed → payoutCooldown ≤ w.clock - p.createdAt

/-- What holds of the payouts while a tick is on: `A` is what is said of the times they were made at. -/
structure TickWorld.Weekly (A : Time → Prop) (t : Time) (w : TickWorld) : Prop where
  begun  : t ≤ w.clock
  dated  : ∀ p ∈ w.db.payouts.rows, p.createdAt ≤ w.clock
  spaced : w.db.Spaced
  told   : ∀ p ∈ w.db.payouts.rows, A p.createdAt

section Steps

variable {A : Time → Prop} {t : Time} {w w' : TickWorld} {ref : PartnerRef}

theorem TickWorld.Interferes.refl (w : TickWorld) : w.Interferes w := ⟨Int.le_refl _, .refl _⟩

theorem TickWorld.Rested.interferes (h : w.Rested ref) (hi : w.Interferes w') : w'.Rested ref := by
  intro q hq hpart hst
  obtain ⟨p, hp, hs⟩ := hi.2 q hq
  have := h p hp (hs.partner ▸ hpart) fun hf => hst (hs.failed hf)
  rw [hs.created]
  exact Int.le_trans this (Int.sub_le_sub_right hi.1 _)

theorem TickWorld.Weekly.interferes (h : w.Weekly A t) (hi : w.Interferes w') : w'.Weekly A t where
  begun := Int.le_trans h.begun hi.1
  dated q hq := by
    obtain ⟨p, hp, hs⟩ := hi.2 q hq
    rw [hs.created]
    exact Int.le_trans (h.dated p hp) hi.1
  spaced q₁ hq₁ q₂ hq₂ hid hpart hst₁ hst₂ := by
    obtain ⟨p₁, hp₁, hs₁⟩ := hi.2 q₁ hq₁
    obtain ⟨p₂, hp₂, hs₂⟩ := hi.2 q₂ hq₂
    rw [hs₁.created, hs₂.created]
    exact h.spaced p₁ hp₁ p₂ hp₂ (by rw [← hs₁.id, ← hs₂.id]; exact hid) (by rw [← hs₁.partner, ← hs₂.partner]; exact hpart)
      (fun hf => hst₁ (hs₁.failed hf)) fun hf => hst₂ (hs₂.failed hf)
  told q hq := by
    obtain ⟨p, hp, hs⟩ := hi.2 q hq
    rw [hs.created]
    exact h.told p hp

/-- **A payout of a partner that has rested may be made.** -/
theorem TickWorld.Weekly.create (h : w.Weekly A t) (hrest : w.Rested ref) (hA : ∀ c, t ≤ c → A c)
    {ok : TickEnv → TickWorld → Prop} {p : Payout} (hp : p.partner = ref) {r : Except Err Payout}
    (he : TickOp.Exec ok (.pay (.createPendingWithLedger p)) w r w') : w'.Weekly A t := by
  have hle := he.clock_le
  obtain ⟨env, -, -, hrun, hclock⟩ := he
  have hdb : w'.db = w.db ∨ w'.db = (PayoutRepo.createPendingWithLedger env.now env.uuid p w.db).2 := (onPayouts_db hrun).2.1
  rcases PayoutRepo.createPendingWithLedger_cases env.now env.uuid p w.db with ⟨e, he⟩ | ⟨id, tp, l, he, -, -, hins, -⟩
  · have hsame : w'.db = w.db := by
      rcases hdb with hdb | hdb
      · exact hdb
      · rw [hdb, he]
    exact h.interferes ⟨hle, .of_eq (by rw [hsame])⟩
  rcases hdb with hdb | hdb
  · exact h.interferes ⟨hle, .of_eq (by rw [hdb])⟩
  have hrows : w'.db.payouts.rows = w.db.payouts.rows ++ [PayoutRepo.row env.now id p] := by
    rw [hdb, he]
    exact Table.insert_rows hins
  have hnow : (PayoutRepo.row env.now id p).createdAt = w'.clock := hclock.symm
  have hpart : (PayoutRepo.row env.now id p).partner = ref := hp
  -- the new payout is far enough from every other of its partner
  have hfar : ∀ q ∈ w.db.payouts.rows, q.partner = ref → q.status ≠ .failed →
      payoutCooldown ≤ (PayoutRepo.row env.now id p).createdAt - q.createdAt := by
    intro q hq hqp hst
    rw [hnow]
    exact Int.le_trans (hrest q hq hqp hst) (Int.sub_le_sub_right hle _)
  refine ⟨Int.le_trans h.begun hle, fun q hq => ?_, fun q₁ hq₁ q₂ hq₂ hid hqp hst₁ hst₂ => ?_, fun q hq => ?_⟩
  · rw [hrows] at hq
    rcases List.mem_append.1 hq with hq | hq
    · exact Int.le_trans (h.dated q hq) hle
    · rw [List.mem_singleton.1 hq, hnow]
  · rw [hrows] at hq₁ hq₂
    rcases List.mem_append.1 hq₁ with hq₁ | hq₁ <;> rcases List.mem_append.1 hq₂ with hq₂ | hq₂
    · exact h.spaced q₁ hq₁ q₂ hq₂ hid hqp hst₁ hst₂
    · rw [List.mem_singleton.1 hq₂, hpart] at hqp
      rw [List.mem_singleton.1 hq₂]
      exact .inr (hfar q₁ hq₁ hqp hst₁)
    · rw [List.mem_singleton.1 hq₁, hpart] at hqp
      rw [List.mem_singleton.1 hq₁]
      exact .inl (hfar q₂ hq₂ hqp.symm hst₂)
    · rw [List.mem_singleton.1 hq₁, List.mem_singleton.1 hq₂] at hid
      exact absurd rfl hid
  · rw [hrows] at hq
    rcases List.mem_append.1 hq with hq | hq
    · exact h.told q hq
    · rw [List.mem_singleton.1 hq, hnow]
      exact hA _ (Int.le_trans h.begun hle)

theorem interleaved_interferes {o : TickOp} {r : o.Res} (h : o.Interleaved w r w') (ho : o.makes = false) : w.Interferes w' := by
  obtain ⟨v, hi, he⟩ := h
  have hv := he.interferes ho
  exact ⟨Int.le_trans hi.1 hv.1, hi.2.trans hv.2⟩

/-! ### The programs -/

/-- The operations of a turn, with what comes before each. -/
def PayoutOp.Interleaved (o : PayoutOp) (w : TickWorld) (r : o.Res) (w' : TickWorld) : Prop :=
  TickOp.Interleaved (.pay o) w r w'

theorem keeps_of_makesNone {α : Type} {p : PayoutProg α} (hp : p.All (·.makes = false)) (hw : w.Weekly A t) :
    p.Keeps PayoutOp.Interleaved (TickWorld.Weekly A t) (fun _ w => w.Weekly A t) w :=
  Prog.All.keeps (fun _ _ _ _ ho hw he => hw.interferes (interleaved_interferes he ho)) hp hw

/-- **The check of the cooldown**: when it lets a partner through, the partner has rested. -/
theorem coolingDown_keeps {uc : PayoutUseCase} (hweekly : uc.weeklyPayout = true) (hw : w.Weekly A t) :
    (uc.coolingDown ref).Keeps PayoutOp.Interleaved (TickWorld.Weekly A t)
      (fun r w => w.Weekly A t ∧ (r = .ok false → w.Rested ref)) w := by
  unfold PayoutUseCase.coolingDown
  rw [if_pos hweekly]
  simp only [Prog.bind_eq, Prog.perform_bind]
  intro last w1 he1
  have hw1 := hw.interferes (interleaved_interferes he1 rfl)
  obtain ⟨v1, -, he1⟩ := he1
  obtain ⟨hdb1, hlast⟩ := exec_lastPayoutAt he1
  refine ⟨hw1, ?_⟩
  match last with
  | .error err => exact ⟨hw1, nofun⟩
  | .ok none =>
    refine ⟨hw1, fun _ => ?_⟩
    have := (rested_iff (t := w1.clock) (hlast _ rfl)).2 nofun
    rw [← hdb1] at this
    exact this
  | .ok (some last) =>
    intro now w2 he2
    have hi2 := interleaved_interferes he2 rfl
    have hw2 := hw1.interferes hi2
    obtain ⟨v2, -, he2⟩ := he2
    obtain ⟨-, rfl⟩ := exec_turnNow he2
    refine ⟨hw2, hw2, fun hr q hq hpart hst => ?_⟩
    have hiff := rested_iff (t := w2.clock) (hlast _ rfl)
    simp only [Option.some.injEq, forall_eq', Except.ok.injEq, decide_eq_false_iff_not] at hiff hr
    have hall := hiff.2 (Int.not_lt.1 hr)
    rw [← hdb1] at hall
    -- what is there when the clock is read was there when the latest payout was
    obtain ⟨p, hp, hs⟩ := hi2.2 q hq
    rw [hs.created]
    exact hall p hp (hs.partner ▸ hpart) fun hf => hst (hs.failed hf)

/-- **A turn makes a payout only for a partner that has rested.** -/
theorem payoutPartner_keeps {uc : PayoutUseCase} (hweekly : uc.weeklyPayout = true) (hA : ∀ c, t ≤ c → A c)
    (hw : w.Weekly A t) :
    (uc.payoutPartner ref).Keeps PayoutOp.Interleaved (TickWorld.Weekly A t) (fun _ w => w.Weekly A t) w := by
  simp only [PayoutUseCase.payoutPartner, Prog.bind_eq, Prog.perform_bind]
  intro r w1 he1
  have hw1 := hw.interferes (interleaved_interferes he1 rfl)
  refine ⟨hw1, ?_⟩
  cases r with
  | error err => exact hw1
  | ok balance =>
  dsimp only
  split
  · exact hw1
  refine Prog.Keeps.bind (Prog.Keeps.mono (fun _ h => h) (fun cool w2 h2 => ?_) (coolingDown_keeps hweekly hw1))
  obtain ⟨hw2, hrest⟩ := h2
  cases cool with
  | error err => exact hw2
  | ok cooling =>
  cases cooling with
  | true => exact hw2
  | false =>
  intro m w3 he3
  have hi3 := interleaved_interferes he3 rfl
  have hw3 := hw2.interferes hi3
  refine ⟨hw3, ?_⟩
  cases m with
  | error err => dsimp only; split <;> exact hw3
  | ok method =>
  intro id w4 he4
  have hi4 := interleaved_interferes he4 rfl
  have hw4 := hw3.interferes hi4
  refine ⟨hw4, ?_⟩
  intro res w5 he5
  have hw5 : w5.Weekly A t := by
    obtain ⟨v, hi, he⟩ := he5
    exact (hw4.interferes hi).create ((((hrest rfl).interferes hi3).interferes hi4).interferes hi) hA rfl he
  refine ⟨hw5, ?_⟩
  cases res with
  | error err => dsimp only; split <;> exact hw5
  | ok p =>
    refine keeps_of_makesNone ⟨rfl, fun r => ?_⟩ hw5
    cases r with
    | ok result => exact takeResult_makesNone ..
    | error err =>
      dsimp only
      split
      · trivial
      · exact giveUp_makesNone ..

theorem payEach_keeps {s : PayoutScheduler} (hweekly : s.weeklyPayout = true) (hA : ∀ c, t ≤ c → A c) :
    ∀ {refs : List PartnerRef} {w : TickWorld}, w.Weekly A t →
      (s.payEach refs).Keeps TickOp.Interleaved (TickWorld.Weekly A t) (fun _ w => w.Weekly A t) w
  | [], _, hw => hw
  | ref :: rest, w, hw => by
    simp only [PayoutScheduler.payEach, Prog.bind_eq, Prog.perform_bind]
    intro c w1 he1
    have hw1 := hw.interferes (interleaved_interferes he1 rfl)
    refine ⟨hw1, ?_⟩
    cases c with
    | some err => exact hw1
    | none =>
      refine Prog.Keeps.bind (Prog.keeps_lift ?_)
      simp only [exists_eq_left]
      refine Prog.Keeps.mono (fun _ h => h) (fun err w2 hw2 => ?_) (payoutPartner_keeps hweekly hA hw1)
      exact Prog.Keeps.bind (Prog.Keeps.mono (fun _ h => h) (fun _ _ h => h) (payEach_keeps hweekly hA hw2))

end Steps

/-! ## The payouts of a run -/

namespace PayoutScheduler

variable {s : PayoutScheduler} {A : Time → Prop} {a t : Time} {w w' w₀ : TickWorld} {spans : List (Time × Time)}

theorem offDay_keeps (hweekly : s.weeklyPayout = true) (hw : w.Weekly A a) :
    s.offDay.Keeps TickOp.Interleaved (TickWorld.Weekly A a)
      (fun off w => w.Weekly A a ∧ (off = false → s.weekdayAt w.clock = s.payoutWeekday)) w := by
  unfold offDay
  rw [if_pos hweekly]
  intro now w1 he
  have hw1 := hw.interferes (interleaved_interferes he rfl)
  obtain ⟨v, -, env, -, -, hrun, hclock⟩ := he
  refine ⟨hw1, hw1, fun hoff => ?_⟩
  have hnow : now = w1.clock := (congrArg Prod.fst hrun).symm.trans hclock.symm
  rw [← hnow]
  simpa using hoff

/-- **A tick makes its payouts after it has found that it is the day.** -/
theorem tick_keeps (hweekly : s.weeklyPayout = true)
    (hA : ∀ t c, a ≤ t → t ≤ c → s.weekdayAt t = s.payoutWeekday → A c) (hw : w.Weekly A a) :
    s.tick.Keeps TickOp.Interleaved (TickWorld.Weekly A a) (fun _ w => w.Weekly A a) w := by
  unfold tick
  rw [Prog.bind_eq]
  refine Prog.Keeps.bind (Prog.Keeps.mono (fun _ h => h) (fun off w1 h1 => ?_) (offDay_keeps hweekly hw))
  obtain ⟨hw1, hday⟩ := h1
  cases off with
  | true => exact hw1
  | false =>
  simp only [Prog.bind_eq, Prog.perform_bind]
  intro r w2 he2
  have hi2 := interleaved_interferes he2 rfl
  have hw2 := hw1.interferes hi2
  refine ⟨hw2, ?_⟩
  cases r with
  | error err => exact hw2
  | ok partners =>
    -- from the check on, a payout is made at or after the time it was made at
    have hw2' : w2.Weekly A w1.clock := ⟨hi2.1, hw2.dated, hw2.spaced, hw2.told⟩
    have hback : ∀ v : TickWorld, v.Weekly A w1.clock → v.Weekly A a := fun v hv =>
      ⟨Int.le_trans hw1.begun hv.begun, hv.dated, hv.spaced, hv.told⟩
    refine Prog.Keeps.bind (Prog.Keeps.mono hback (fun _ v hv => hback v hv) (payEach_keeps hweekly (fun c hc => ?_) hw2'))
    exact hA w1.clock c hw1.begun hc (hday rfl)

/-- A payout time is on the payout day, or it is that of a tick that began its payouts on the payout day and was not done
when the day ended. -/
def Accounted (s : PayoutScheduler) (spans : List (Time × Time)) (c : Time) : Prop :=
  s.weekdayAt c = s.payoutWeekday ∨ ∃ span ∈ spans, ∃ t, span.1 ≤ t ∧ t ≤ c ∧ c ≤ span.2 ∧
    s.weekdayAt t = s.payoutWeekday ∧ s.localDay t < s.localDay c

/-- What is there before the first tick was made in the past, on the payout day and in weekly turns. -/
structure WeeklyStart (s : PayoutScheduler) (w : TickWorld) : Prop where
  dated  : ∀ p ∈ w.db.payouts.rows, p.createdAt ≤ w.clock
  spaced : w.db.Spaced
  onDay  : ∀ p ∈ w.db.payouts.rows, s.weekdayAt p.createdAt = s.payoutWeekday

theorem localDay_mono {offset : ℤ} (hloc : ∀ t, s.payoutLocation t = offset) (h : t ≤ a) : s.localDay t ≤ s.localDay a := by
  unfold localDay
  rw [hloc, hloc]
  exact Int.ediv_le_ediv (by decide) (Int.add_le_add_right h _)

/-- **What a run keeps**: every payout is accounted for, and they are spaced. -/
theorem WeeklyRun.keeps {offset : ℤ} (hloc : ∀ t, s.payoutLocation t = offset) (hweekly : s.weeklyPayout = true)
    (h0 : s.WeeklyStart w₀) (h : s.WeeklyRun w₀ spans w) : w.Weekly (s.Accounted spans) w.clock := by
  induction h with
  | init => exact ⟨Int.le_refl _, h0.dated, h0.spaced, fun p hp => .inl (h0.onDay p hp)⟩
  | others _ hi ih =>
    have hw := ih.interferes hi
    exact ⟨Int.le_refl _, hw.dated, hw.spaced, hw.told⟩
  | @tick spans w w' _ hreach ih =>
    -- of the tick itself: a time after the check of the day
    have hw : w.Weekly (fun c => s.Accounted spans c ∨
        ∃ t, w.clock ≤ t ∧ t ≤ c ∧ s.weekdayAt t = s.payoutWeekday) w.clock :=
      ⟨ih.begun, ih.dated, ih.spaced, fun p hp => .inl (ih.told p hp)⟩
    obtain ⟨-, v, rfl, hv⟩ := Prog.Keeps.reaches hreach
      (tick_keeps hweekly (fun t c hat htc hday => .inr ⟨t, hat, htc, hday⟩) hw) hw
    refine ⟨Int.le_refl _, hv.dated, hv.spaced, fun p hp => ?_⟩
    rcases hv.told p hp with (hday | ⟨span, hspan, hin⟩) | ⟨t, hat, htc, hday⟩
    · exact .inl hday
    · exact .inr ⟨span, List.mem_append_left _ hspan, hin⟩
    · rcases Int.lt_or_eq_of_le (localDay_mono hloc htc) with hlt | heq
      · exact .inr ⟨(w.clock, v.clock), by simp, t, hat, htc, hv.dated p hp, hday, hlt⟩
      · refine .inl ?_
        rw [weekdayAt, ← heq]
        exact hday

/-- On the payout day of one week the payouts of the payout day before are past the cooldown. -/
theorem rested_of_lastWeek {offset : ℤ} (hloc : ∀ t, s.payoutLocation t = offset)
    (h : s.localDay a ≤ s.localDay t - 7) : payoutCooldown ≤ t - a := by
  unfold localDay at h
  rw [hloc, hloc] at h
  have hcool : payoutCooldown = 518400 := rfl
  rw [hcool]
  have harith : ∀ x y o : ℤ, (y + o) / 86400 ≤ (x + o) / 86400 - 7 → 518400 ≤ x - y := by omega
  exact harith t a offset h

end PayoutScheduler

/-! ### Last week's payout is still open -/

def weeklyScheduler : PayoutScheduler := ⟨⟨"mock", 10000, true⟩, 4, fun _ => 0⟩

/-- Made on a Thursday; the bank has not settled it. -/
def openPayout : Payout := { sampleRow with status := .processing, providerPayoutID := some "bank-1" }

def earnedEntry : LedgerEntry where
  id := 1
  partnerType := sampleRef.partnerType
  partnerID := sampleRef.partnerID
  entryType := .adjustment
  amountKopecks := 95000
  reason := "correction"

def openDB : PaymentDB :=
  { samplePayouts with
    ledger := ⟨[earnedEntry, { PayoutRepo.debit openPayout with id := 2 }], by decide, by decide⟩
    payouts := ⟨[openPayout], by decide, by simp⟩ }

/-- A week later. -/
def openWorld : TickWorld := ⟨⟨openDB, ⟨.empty _, []⟩⟩, 604800⟩

theorem openWorld_start : weeklyScheduler.WeeklyStart openWorld where
  dated p hp := by
    obtain rfl := List.mem_singleton.1 hp
    decide
  spaced p hp q hq hid := by
    rw [List.mem_singleton.1 hp, List.mem_singleton.1 hq] at hid
    exact absurd rfl hid
  onDay p hp := by
    obtain rfl := List.mem_singleton.1 hp
    decide

theorem openDB_fresh : openDB.FreshPayout "00000000-0000-0000-0000-000000000006" := by
  refine ⟨by decide, fun q hq => ?_, fun e he hty => ?_⟩
  · obtain rfl := List.mem_singleton.1 hq
    exact ⟨by decide, by decide⟩
  · rcases List.mem_cons.1 he with rfl | he
    · cases hty
    · obtain rfl := List.mem_singleton.1 he
      decide

/-- **The turn of a partner whose payout is open** ends without an error, and without a payout. -/
theorem open_turn : (weeklyScheduler.payoutPartner sampleRef).Runs (PayoutOp.TickExec TickEnv.Steady) openWorld none
    openWorld := by
  have hexec : ∀ {o : PayoutOp} {r : o.Res},
      o.run ⟨604800, "00000000-0000-0000-0000-000000000006", .refuse "", fun _ => .ok none, .none⟩
        openWorld.toPayoutWorld = (r, openWorld.toPayoutWorld) →
      PayoutOp.TickExec TickEnv.Steady o openWorld r openWorld := fun h =>
    ⟨⟨⟨604800, "00000000-0000-0000-0000-000000000006", .refuse "", fun _ => .ok none, .none⟩, none⟩, ⟨rfl, openDB_fresh⟩,
      Int.le_refl _, h, rfl⟩
  simp only [PayoutUseCase.payoutPartner, PayoutUseCase.coolingDown, Prog.bind_eq, Prog.perform_bind]
  refine ⟨.ok ⟨.venue, sampleRef.partnerID, 10000, 10000, 0, some 0⟩, openWorld, hexec rfl, ?_⟩
  refine ⟨.ok (some 0), openWorld, hexec rfl, ?_⟩
  refine ⟨604800, openWorld, hexec rfl, ?_⟩
  refine ⟨.ok sampleMethod, openWorld, hexec rfl, ?_⟩
  refine ⟨"00000000-0000-0000-0000-000000000006", openWorld, hexec rfl, ?_⟩
  refine ⟨.error (.status .alreadyExists "payout for partner already exists or is in flight"), openWorld, hexec rfl, ?_⟩
  exact ⟨rfl, rfl⟩

end Agregator
