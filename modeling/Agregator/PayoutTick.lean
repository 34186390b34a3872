import Agregator.ConcLift
import Agregator.Keyset
import Agregator.PayoutCovered
import Agregator.PayoutSafe
import Mathlib.Data.List.Dedup
import Mathlib.Data.Prod.Lex
import Mathlib.Data.String.Basic
/-!
# PayoutTick — a tick of the payout scheduler

`tick` takes the first hundred partners with enough available, in the order of their type and id, and tries to pay each.
Whom it cannot pay it meets again at the next tick, so partners who cannot be paid keep others out when there are a
hundred of them.
-/
namespace Agregator

open Rel Conc

/-! ## The partners a tick looks at -/

/-- `ORDER BY partner_type, partner_id`. -/
def PartnerRef.orderKey (ref : PartnerRef) : Lex (String × String) := toLex (ref.partnerType.string, ref.partnerID)

namespace LedgerRepo

/-- The partners with at least so much available. -/
def ripePartners (now : Time) (minKopecks : ℤ) (db : PaymentDB) : List PartnerRef :=
  (db.ledger.rows.map LedgerEntry.partner).dedup.filter fun ref => decide (minKopecks ≤ readAvailableBalance now ref db)

def partnersWithAvailableBalance (now : Time) (minKopecks limit : ℤ) (db : PaymentDB) : Except Err (List PartnerRef) :=
  if minKopecks ≤ 0 then .error (.status .invalidArgument "minKopecks must be positive")
  else
    let limit := if limit ≤ 0 ∨ 1000 < limit then 100 else limit
    .ok ((Keyset.sorted PartnerRef.orderKey (ripePartners now minKopecks db)).take limit.toNat)

end LedgerRepo

/-! ## The tick -/

inductive TickOp where
  | now
  | ctxErr
  | partnersWithAvailableBalance (minKopecks limit : ℤ)
  | pay (o : PayoutOp)

@[reducible] def TickOp.Res : TickOp → Type
  | now => Time
  | ctxErr => Option Err
  | partnersWithAvailableBalance _ _ => Except Err (List PartnerRef)
  | pay o => o.Res

abbrev TickProg := Prog TickOp TickOp.Res

abbrev TickOp.call (o : TickOp) : TickProg o.Res := Prog.perform o

/-- The use case with what only its scheduler reads; `payoutLocation` gives the seconds east of UTC at a time. -/
structure PayoutScheduler extends PayoutUseCase where
  payoutWeekday : ℤ
  payoutLocation : Time → ℤ

namespace PayoutScheduler

variable (s : PayoutScheduler)

def batchLimit : ℤ := 100

/-- Days since the epoch, in the payout location. -/
def localDay (t : Time) : ℤ := (t + s.payoutLocation t) / 86400

/-- Sunday is zero; the epoch was a Thursday. -/
def weekdayAt (t : Time) : ℤ := (s.localDay t + 4) % 7

/-- Whether payouts wait for another day. -/
def offDay : TickProg Bool := do
  if s.weeklyPayout then
    let now ← TickOp.call .now
    return decide (s.weekdayAt now ≠ s.payoutWeekday)
  else return false

/-- The partners in turn, until the context is cancelled; the errors that are logged. -/
def payEach : List PartnerRef → TickProg (List Err)
  | [] => return []
  | ref :: rest => do
    match ← TickOp.call .ctxErr with
    | some _ => return []
    | none =>
      let err ← (s.payoutPartner ref).lift TickOp.pay (fun _ r => r)
      let errs ← payEach rest
      return err.toList ++ errs

/-- The errors that are logged; `none` when the day is not the one for payouts. -/
def tick : TickProg (Option (List Err)) := do
  match ← s.offDay with
  | true => return none
  | false =>
    match ← TickOp.call (.partnersWithAvailableBalance s.minPayoutKopecks batchLimit) with
    | .error err => return some [err.wrap "payout scheduler: enumerate partners failed"]
    | .ok partners =>
      let errs ← s.payEach partners
      return some errs

end PayoutScheduler

/-! ## What its operations do -/

structure TickWorld extends PayoutWorld where
  clock : Time

structure TickEnv extends PayoutEnv where
  cancelled : Option Err

def TickOp.run (env : TickEnv) : (o : TickOp) → PayoutWorld → o.Res × PayoutWorld
  | now, w => (env.now, w)
  | ctxErr, w => (env.cancelled, w)
  | partnersWithAvailableBalance minKopecks limit, w => env.fault.apply Err.plain
      (onPayouts fun db => (LedgerRepo.partnersWithAvailableBalance env.now minKopecks limit db, db)) w
  | pay o, w => o.run env.toPayoutEnv w

/-- The clock does not go back; `ok` is what is known of the circumstances. -/
def TickOp.Exec (ok : TickEnv → TickWorld → Prop) (o : TickOp) (w : TickWorld) (r : o.Res) (w' : TickWorld) : Prop :=
  ∃ env, ok env w ∧ w.clock ≤ env.now ∧ o.run env w.toPayoutWorld = (r, w'.toPayoutWorld) ∧ w'.clock = env.now

/-- An id that no payout and no debit has. -/
def PaymentDB.FreshPayout (db : PaymentDB) (id : String) : Prop :=
  isUUID id = true ∧ (∀ q ∈ db.payouts.rows, q.id ≠ id ∧ q.idempotencyKey ≠ "payout:" ++ id) ∧
    ∀ e ∈ db.ledger.rows, e.entryType = .payout → e.payoutID ≠ id

/-- The scheduler is not being stopped, and an id that is made up is new. -/
def TickEnv.Steady (env : TickEnv) (w : TickWorld) : Prop := env.cancelled = none ∧ w.db.FreshPayout env.uuid

section Ops

variable {ok : TickEnv → TickWorld → Prop} {w w' : TickWorld} {α : Type}

theorem TickOp.Exec.clock_le {o : TickOp} {r : o.Res} (h : o.Exec ok w r w') : w.clock ≤ w'.clock := by
  obtain ⟨env, -, hle, -, hclock⟩ := h
  rw [hclock]
  exact hle

theorem clock_le_of_runs {p : TickProg α} {a : α} (h : p.Runs (TickOp.Exec ok) w a w') : w.clock ≤ w'.clock :=
  Prog.All.runs (P := fun _ => True) (R := fun w w' : TickWorld => w.clock ≤ w'.clock) (fun _ => Int.le_refl _)
    (fun _ _ _ => Int.le_trans) (fun _ _ _ _ _ he => he.clock_le) (Prog.All.of_forall (fun _ => trivial) p) h

/-- **Every operation keeps the payouts**, what they are and what is final of them. -/
theorem PayoutOp.run_go (env : PayoutEnv) (o : PayoutOp) (w : PayoutWorld) : w.db.PayoutsGo (o.run env w).2.db := by
  have htx : ∀ {α : Type} (o : LedgerOp) (f : PaymentDB → Except Err α × PaymentDB), (f w.db).2 = o.apply w.db →
      w.db.PayoutsGo (env.fault.apply Err.plain (onPayouts f) w).2.db := by
    intro α o f hf
    rcases Fault.apply_state env.fault Err.plain (onPayouts f) w with h | h
    · rw [h]
      exact .refl _
    · rw [h]
      show w.db.PayoutsGo (f w.db).2
      rw [hf]
      exact o.go w.db
  have hread : ∀ {α : Type} (g : PaymentDB → Except Err α),
      (env.fault.apply Err.plain (onPayouts fun db => (g db, db)) w).2.db = w.db := by
    intro α g
    rcases Fault.apply_state env.fault Err.plain (onPayouts fun db => (g db, db)) w with h | h
    · rw [h]
    · rw [h]
      rfl
  cases o with
  | balance ref => rw [run, hread]; exact .refl _
  | lastPayoutAt ref => rw [run, hread]; exact .refl _
  | getActiveMethod ref => rw [run, hread]; exact .refl _
  | getMethodByID id => rw [run, hread]; exact .refl _
  | getByProviderPayoutID pid => rw [run, hread]; exact .refl _
  | createPendingWithLedger p => exact htx (.createPendingWithLedger env.now env.uuid p) _ rfl
  | markProcessing id pid => exact htx (.markProcessing env.now id pid) _ rfl
  | markSucceeded id at' => exact htx (.markSucceeded env.now id at') _ rfl
  | markFailedWithReversal id reason at' => exact htx (.markFailedWithReversal env.now id reason at') _ rfl
  | createPayout req =>
    have : ((createPayout req).run env w).2.db = w.db := by
      rw [run]
      rcases Fault.apply_state env.fault transientErr (onBank (Bank.createPayout env.choice req)) w with h | h
      · rw [h]
      · rw [h]
        rfl
    rw [this]
    exact .refl _
  | parsePayoutWebhook raw => exact .refl _
  | newUUID => exact .refl _
  | now => exact .refl _

theorem TickOp.Exec.go {o : TickOp} {r : o.Res} (h : o.Exec ok w r w') : w.db.PayoutsGo w'.db := by
  obtain ⟨env, -, -, hrun, -⟩ := h
  have hdb : w'.db = (o.run env w.toPayoutWorld).2.db := by rw [hrun]
  rw [hdb]
  cases o with
  | now => exact .refl _
  | ctxErr => exact .refl _
  | partnersWithAvailableBalance m l =>
    rw [TickOp.run]
    rcases Fault.apply_state env.fault Err.plain
      (onPayouts fun db => (LedgerRepo.partnersWithAvailableBalance env.now m l db, db)) w.toPayoutWorld with h | h <;>
      rw [h] <;> exact .refl _
  | pay o => exact PayoutOp.run_go env.toPayoutEnv o w.toPayoutWorld

theorem go_of_runs {p : TickProg α} {a : α} (h : p.Runs (TickOp.Exec ok) w a w') : w.db.PayoutsGo w'.db :=
  Prog.All.runs (P := fun _ => True) (R := fun w w' : TickWorld => w.db.PayoutsGo w'.db) (fun w => .refl w.db)
    (fun _ _ _ h1 h2 => h1.trans h2) (fun _ _ _ _ _ he => he.go) (Prog.All.of_forall (fun _ => trivial) p) h

end Ops

/-! ## One partner's turn -/

/-- The operations of a turn, in the world of the scheduler. -/
def PayoutOp.TickExec (ok : TickEnv → TickWorld → Prop) (o : PayoutOp) (w : TickWorld) (r : o.Res) (w' : TickWorld) : Prop :=
  TickOp.Exec ok (.pay o) w r w'

/-- The partner has enough available, has not been paid within the cooldown, has a method, and no payout of it is open. -/
structure PayoutUseCase.Payable (uc : PayoutUseCase) (t : Time) (ref : PartnerRef) (db : PaymentDB) : Prop where
  ripe   : uc.minPayoutKopecks ≤ readAvailableBalance t ref db
  rested : uc.weeklyPayout = true → ∀ p ∈ db.payouts.rows, p.partner = ref → p.status ≠ .failed →
    payoutCooldown ≤ t - p.createdAt
  method : ∃ m ∈ db.methods.rows, m.partnerType = ref.partnerType ∧ m.partnerID = ref.partnerID ∧ m.deactivatedAt = none
  closed : ∀ p ∈ db.payouts.rows, p.partner = ref → p.status.isOpen = false

/-- A payout is made from one database to the other. -/
def PaymentDB.Makes (db db' : PaymentDB) : Prop := ∃ p ∈ db'.payouts.rows, ∀ q ∈ db.payouts.rows, q.id ≠ p.id

theorem PaymentDB.Makes.go {a b c : PaymentDB} (h : a.Makes b) (hg : b.PayoutsGo c) : a.Makes c := by
  obtain ⟨p, hp, hnew⟩ := h
  obtain ⟨q, hq, hf⟩ := hg p hp
  exact ⟨q, hq, fun x hx => by rw [hf.id]; exact hnew x hx⟩

theorem PaymentDB.not_makes_self (db : PaymentDB) : ¬ db.Makes db := fun ⟨p, hp, hnew⟩ => hnew p hp rfl

section Turn

variable {uc : PayoutUseCase} {ok : TickEnv → TickWorld → Prop} {ref : PartnerRef} {db : PaymentDB} {t t' : Time}
  {w w' : TickWorld}

/-- **Waiting keeps nobody from being paid.** -/
theorem PayoutUseCase.Payable.mono (h : uc.Payable t ref db) (hle : t ≤ t') : uc.Payable t' ref db where
  ripe := Int.le_trans h.ripe (readAvailableBalance_mono hle ref db)
  rested hw p hp hpart hst := Int.le_trans (h.rested hw p hp hpart hst) (Int.sub_le_sub_right hle _)
  method := h.method
  closed := h.closed

theorem runs_pay {α : Type} {p : PayoutProg α} {a : α} :
    (p.lift TickOp.pay fun _ r => r).Runs (TickOp.Exec ok) w a w' ↔ p.Runs (PayoutOp.TickExec ok) w a w' := by
  rw [Prog.runs_lift]
  simp only [exists_eq_left]
  rfl

theorem turn_clock_le {α : Type} {p : PayoutProg α} {a : α} (h : p.Runs (PayoutOp.TickExec ok) w a w') : w.clock ≤ w'.clock :=
  clock_le_of_runs (runs_pay.2 h)

theorem turn_go {α : Type} {p : PayoutProg α} {a : α} (h : p.Runs (PayoutOp.TickExec ok) w a w') : w.db.PayoutsGo w'.db :=
  go_of_runs (runs_pay.2 h)

/-! ### What its operations answer -/

theorem exec_balance {r : Except Err PartnerBalance} (h : PayoutOp.TickExec ok (.balance ref) w r w') :
    w'.db = w.db ∧ ∀ b, r = .ok b → b.availableKopecks = readAvailableBalance w'.clock ref w.db := by
  obtain ⟨env, -, -, hrun, hclock⟩ := h
  obtain ⟨hw, hr⟩ := onPayouts_read hrun
  refine ⟨congrArg PayoutWorld.db hw, fun b hb => ?_⟩
  have hb := hr b hb
  rw [LedgerRepo.balance] at hb
  split at hb
  · cases hb
  · cases hb
    rw [hclock]

theorem exec_lastPayoutAt {r : Except Err (Option Time)} (h : PayoutOp.TickExec ok (.lastPayoutAt ref) w r w') :
    w'.db = w.db ∧ ∀ last, r = .ok last →
      ((w.db.payouts.select fun p => p.partner == ref && p.status != .failed).map (·.createdAt)).max? = last := by
  obtain ⟨env, -, -, hrun, -⟩ := h
  obtain ⟨hw, hr⟩ := onPayouts_read hrun
  refine ⟨congrArg PayoutWorld.db hw, fun last hlast => ?_⟩
  have hlast := hr last hlast
  rw [PayoutRepo.lastPayoutAt] at hlast
  split at hlast
  · cases hlast
  · cases hlast
    rfl

theorem exec_turnNow {r : Time} (h : PayoutOp.TickExec ok .now w r w') : w'.db = w.db ∧ r = w'.clock := by
  obtain ⟨env, -, -, hrun, hclock⟩ := h
  obtain ⟨hr, hw⟩ := Prod.mk.injEq .. ▸ hrun
  exact ⟨(congrArg PayoutWorld.db hw).symm, hr.symm.trans hclock.symm⟩

/-- The creation times that have gone by for long enough. -/
theorem rested_iff {last : Option Time}
    (h : ((db.payouts.select fun p => p.partner == ref && p.status != .failed).map (·.createdAt)).max? = last) :
    (∀ p ∈ db.payouts.rows, p.partner = ref → p.status ≠ .failed → payoutCooldown ≤ t - p.createdAt) ↔
      ∀ l, last = some l → payoutCooldown ≤ t - l := by
  have hmem : ∀ p : Payout, p ∈ db.payouts.select (fun p => p.partner == ref && p.status != .failed) ↔
      p ∈ db.payouts.rows ∧ p.partner = ref ∧ p.status ≠ .failed := by
    intro p
    simp [Table.select]
  cases last with
  | none =>
    have hnil := List.map_eq_nil_iff.1 (List.max?_eq_none_iff.1 h)
    rw [hnil] at hmem
    simp only [List.not_mem_nil, false_iff, not_and] at hmem
    exact ⟨(fun _ l hl => by cases hl), fun _ p hp hpart hst => absurd hst (hmem p hp hpart)⟩
  | some l =>
    obtain ⟨hin, hmax⟩ := List.max?_eq_some_iff.1 h
    constructor
    · intro hall l' hl'
      cases hl'
      obtain ⟨p, hp, rfl⟩ := List.mem_map.1 hin
      obtain ⟨hp, hpart, hst⟩ := (hmem p).1 hp
      exact hall p hp hpart hst
    · intro hl p hp hpart hst
      have hle := hmax p.createdAt (List.mem_map_of_mem ((hmem p).2 ⟨hp, hpart, hst⟩))
      exact Int.le_trans (hl l rfl) (Int.sub_le_sub_left hle t)

/-- **Whether a partner is cooling down**: it has rested when the answer is no, and the answer is no when it has. -/
theorem coolingDown_runs {r : Except Err Bool} (h : (uc.coolingDown ref).Runs (PayoutOp.TickExec ok) w r w') :
    w'.db = w.db ∧
      (r = .ok false → uc.weeklyPayout = true → ∀ p ∈ w.db.payouts.rows, p.partner = ref → p.status ≠ .failed →
        payoutCooldown ≤ w'.clock - p.createdAt) ∧
      (r = .ok true → uc.weeklyPayout = true ∧ ¬ ∀ p ∈ w.db.payouts.rows, p.partner = ref → p.status ≠ .failed →
        payoutCooldown ≤ w'.clock - p.createdAt) := by
  unfold PayoutUseCase.coolingDown at h
  by_cases hw : uc.weeklyPayout = true
  swap
  · rw [if_neg hw] at h
    obtain ⟨rfl, rfl⟩ := h
    exact ⟨rfl, fun _ h => absurd h hw, nofun⟩
  rw [if_pos hw] at h
  simp only [Prog.bind_eq, Prog.perform_bind] at h
  obtain ⟨last, w1, he, h⟩ := h
  obtain ⟨hdb1, hlast⟩ := exec_lastPayoutAt he
  match last, h with
  | .error err, h =>
    obtain ⟨rfl, rfl⟩ := h
    exact ⟨hdb1, nofun, nofun⟩
  | .ok none, h =>
    obtain ⟨rfl, rfl⟩ := h
    exact ⟨hdb1, fun _ _ => (rested_iff (hlast _ rfl)).2 nofun, nofun⟩
  | .ok (some last), h =>
    obtain ⟨now, w2, he, h⟩ := h
    obtain ⟨hdb2, rfl⟩ := exec_turnNow he
    obtain ⟨rfl, rfl⟩ := h
    have hiff := rested_iff (t := w'.clock) (hlast _ rfl)
    simp only [Option.some.injEq, forall_eq'] at hiff
    refine ⟨hdb2.trans hdb1, fun hr _ => hiff.2 ?_, fun hr => ⟨hw, fun hall => ?_⟩⟩
    · simp only [Except.ok.injEq, decide_eq_false_iff_not] at hr
      exact Int.not_lt.1 hr
    · simp only [Except.ok.injEq, decide_eq_true_eq] at hr
      exact Int.not_lt.2 (hiff.1 hall) hr

end Turn

/-! ### A payout is made -/

/-- The call has failed in a way that lets the scheduler pass the partner over. -/
def Err.PassesOver (e : Err) : Prop := e.code = .alreadyExists ∨ e.code = .failedPrecondition

/-- **Why a payout is passed over**: too little is available, or what is to be written is there. -/
theorem PayoutRepo.createPendingWithLedger_passed {now : Time} {gen : String} {p : Payout} {db db' : PaymentDB} {e : Err}
    (h : createPendingWithLedger now gen p db = (.error e, db')) (hcode : e.PassesOver) (hid : p.id ≠ "") :
    readAvailableBalance now p.partner db < p.amountKopecks ∨
      (∃ q ∈ db.payouts.rows, payoutSchema.clash q (row now p.id p) = true) ∨
      ∃ x ∈ db.ledger.rows, x.entryType = .payout ∧ x.payoutID = p.id := by
  have hno : ∀ {e' : Err} {x : PaymentDB}, (.error e', x) = ((.error e, db') : Except Err Payout × PaymentDB) →
      ¬ e'.PassesOver → False := by
    intro e' x heq hnot
    cases heq
    exact hnot hcode
  unfold createPendingWithLedger at h
  split at h
  · exact (hno h (by simp [Err.PassesOver])).elim
  split at h
  · exact (hno h (by simp [Err.PassesOver])).elim
  split at h
  · exact (hno h (by simp [Err.PassesOver])).elim
  split at h
  · exact (hno h (by simp [Err.PassesOver])).elim
  split at h
  · exact (hno h (by simp [Err.PassesOver])).elim
  obtain ⟨hu, -⟩ | ⟨eu, hu, hcu⟩ := uuidParam_cases p.partnerID
  swap
  · rw [hu] at h
    exact (hno h (by simp [Err.PassesOver, hcu])).elim
  rw [hu] at h
  dsimp only at h
  by_cases hav : readAvailableBalance now p.partner db < p.amountKopecks
  · exact .inl hav
  rw [if_neg hav] at h
  obtain ⟨hi, -⟩ | ⟨ei, hi, hci⟩ := uuidParam_cases p.id
  swap
  · rw [hi] at h
    cases hm : uuidParam p.methodID <;> rw [hm] at h <;> exact (hno h (by simp [Err.PassesOver, hci])).elim
  obtain ⟨hm, -⟩ | ⟨em, hm, hcm⟩ := uuidParam_cases p.methodID
  swap
  · rw [hi, hm] at h
    exact (hno h (by simp [Err.PassesOver, hcm])).elim
  rw [hi, hm] at h
  dsimp only at h
  unfold insertWithDebit at h
  split at h
  · rename_i hins
    exact .inr (.inl (Table.of_insert_unique hins).2)
  · exact (hno h (by simp [Err.PassesOver])).elim
  rename_i t ht
  split at h
  swap
  · exact (hno h (by simp [Err.PassesOver])).elim
  obtain ⟨x, hx, hcx⟩ | ⟨x, hx, -, -, y, hy, hcl⟩ | ⟨l, hl, -⟩ :=
    appendLedgerEntry_cases now (debit (row now p.id p)) { db with payouts := t }
  · rw [hx] at h
    exact (hno h (by simp [Err.PassesOver, hcx])).elim
  · obtain ⟨hty, hcl⟩ := LedgerEntry.of_clash_row (show y ∈ ({ db with payouts := t } : PaymentDB).ledger.rows from hy) hcl
    have hpay : y.entryType = .payout := hty
    simp only [hpay, reduceCtorEq, false_and, true_and, false_or] at hcl
    exact .inr (.inr ⟨y, hy, hpay, hcl⟩)
  · rw [hl] at h
    cases h

section Turn

variable {uc : PayoutUseCase} {ok : TickEnv → TickWorld → Prop} {ref : PartnerRef} {db : PaymentDB} {t t' : Time}
  {w w' : TickWorld}

theorem exec_getActive {r : Except Err PayoutMethod} (h : PayoutOp.TickExec ok (.getActiveMethod ref) w r w') :
    w'.db = w.db ∧ (∀ m, r = .ok m → m ∈ w.db.methods.rows ∧ m.partnerType = ref.partnerType ∧ m.partnerID = ref.partnerID ∧
        m.deactivatedAt = none) ∧
      ∀ err, r = .error err → err.code = .notFound → ∀ m ∈ w.db.methods.rows, m.partnerType = ref.partnerType →
        m.partnerID = ref.partnerID → m.deactivatedAt ≠ none := by
  obtain ⟨env, -, -, hrun, -⟩ := h
  have hget : ∀ x, PayoutMethodRepo.getActive ref w.db = x →
      (∀ m, x = .ok m → m ∈ w.db.methods.rows ∧ m.partnerType = ref.partnerType ∧ m.partnerID = ref.partnerID ∧
        m.deactivatedAt = none) ∧
      ∀ err, x = .error err → err.code = .notFound → ∀ m ∈ w.db.methods.rows, m.partnerType = ref.partnerType →
        m.partnerID = ref.partnerID → m.deactivatedAt ≠ none := by
    rintro x rfl
    rw [PayoutMethodRepo.getActive]
    obtain ⟨hu, -⟩ | ⟨e, hu, hcode⟩ := uuidParam_cases ref.partnerID
    swap
    · rw [hu]
      refine ⟨(fun _ hm => by cases hm), fun err herr hnot => ?_⟩
      cases herr
      rw [hcode] at hnot
      cases hnot
    rw [hu, PayoutMethodRepo.scanOne]
    dsimp only
    split
    · rename_i m hm
      obtain ⟨hm, hp⟩ := Table.get_mem hm
      simp only [Bool.and_eq_true, beq_iff_eq, Option.isNone_iff_eq_none] at hp
      refine ⟨fun m' hm' => ?_, fun _ herr => by cases herr⟩
      cases hm'
      exact ⟨hm, hp.1.1, hp.1.2, hp.2⟩
    · rename_i hnone
      refine ⟨(fun _ hm => by cases hm), fun _ _ _ m hm hty hid hact => ?_⟩
      have := Table.get_eq_none.1 hnone m hm
      simp [hty, hid, hact] at this
  rcases onPayouts_cases hrun with ⟨hr, hw⟩ | ⟨text, hr, hw⟩
  · exact ⟨congrArg PayoutWorld.db hw, hget r hr.symm⟩
  · refine ⟨congrArg PayoutWorld.db (hw.elim id id), fun m hm => ?_, fun err herr hcode => ?_⟩
    · rw [hm] at hr
      cases hr
    · rw [herr] at hr
      cases hr
      cases hcode

/-- **What a transaction that is to make a payout does**: nothing, or it makes it, of a partner without an open one. -/
theorem exec_turnCreate {p : Payout} {r : Except Err Payout} (hst : p.status = .unset)
    (h : PayoutOp.TickExec ok (.createPendingWithLedger p) w r w') :
    (w'.db = w.db ∧ ∃ e, r = .error e) ∨
      (w.db.Makes w'.db ∧ ∀ q ∈ w.db.payouts.rows, q.partner = p.partner → q.status.isOpen = false) := by
  obtain ⟨env, -, -, hrun, -⟩ := h
  have hmake := PayoutRepo.createPendingWithLedger_cases env.now env.uuid p w.db
  have hdo : ∀ {id : String} {tp : Table payoutSchema}, w.db.payouts.insert (PayoutRepo.row env.now id p) = .ok tp →
      w'.db.payouts = tp →
      w.db.Makes w'.db ∧ ∀ q ∈ w.db.payouts.rows, q.partner = p.partner → q.status.isOpen = false := by
    intro id tp hins hw
    obtain ⟨-, hnew⟩ := Table.of_insert_ok hins
    refine ⟨⟨PayoutRepo.row env.now id p, by simp [hw, Table.insert_rows hins], fun q hq hid => ?_⟩, fun q hq hpart => ?_⟩
    · have := hnew q hq
      rw [Payout.clash_of_id hid] at this
      cases this
    · by_contra hopen
      have hrow : (PayoutRepo.row env.now id p).status.isOpen = true := by simp [PayoutRepo.row, hst, PayoutStatus.isOpen]
      have := hnew q hq
      rw [Payout.clash_of_open (by simpa using hopen) hrow hpart] at this
      cases this
  rcases onPayouts_cases hrun with ⟨hr, hw⟩ | ⟨text, hr, hw | hw⟩
  · rcases hmake with ⟨e, he⟩ | ⟨id, tp, l, he, -, -, hins, -⟩
    · exact .inl ⟨by rw [congrArg PayoutWorld.db hw, he], e, by rw [hr, he]⟩
    · exact .inr (hdo hins (by rw [congrArg PayoutWorld.db hw, he]))
  · exact .inl ⟨congrArg PayoutWorld.db hw, _, hr⟩
  · rcases hmake with ⟨e, he⟩ | ⟨id, tp, l, he, -, -, hins, -⟩
    · exact .inl ⟨by rw [congrArg PayoutWorld.db hw, he], _, hr⟩
    · exact .inr (hdo hins (by rw [congrArg PayoutWorld.db hw, he]))

end Turn

/-! ### The turn -/

section Turn

variable {uc : PayoutUseCase} {ok : TickEnv → TickWorld → Prop} {ref : PartnerRef} {w w' : TickWorld} {err : Option Err}

/-- **A turn makes a payout or leaves the database as it is**; whom it makes one for could be paid. -/
theorem payoutPartner_made (h : (uc.payoutPartner ref).Runs (PayoutOp.TickExec ok) w err w') :
    w'.db = w.db ∨ (uc.Payable w'.clock ref w.db ∧ w.db.Makes w'.db) := by
  simp only [PayoutUseCase.payoutPartner, Prog.bind_eq, Prog.perform_bind] at h
  obtain ⟨r, w1, he, h⟩ := h
  obtain ⟨hdb1, hbal⟩ := exec_balance he
  cases r with
  | error e => exact .inl (by rw [h.2]; exact hdb1)
  | ok balance =>
  have hav := hbal balance rfl
  dsimp only at h
  by_cases hmin : balance.availableKopecks < uc.minPayoutKopecks
  · rw [if_pos hmin] at h
    exact .inl (by rw [h.2]; exact hdb1)
  rw [if_neg hmin, Prog.runs_bind] at h
  obtain ⟨cool, w2, hc, h⟩ := h
  obtain ⟨hdb2, hrest, -⟩ := coolingDown_runs hc
  have hle12 := turn_clock_le hc
  rw [hdb1] at hdb2 hrest
  cases cool with
  | error e => exact .inl (by rw [h.2]; exact hdb2)
  | ok cooling =>
  cases cooling with
  | true => exact .inl (by rw [h.2]; exact hdb2)
  | false =>
  obtain ⟨m, w3, he3, h⟩ := h
  obtain ⟨hdb3, hmeth, -⟩ := exec_getActive he3
  have hle3 := he3.clock_le
  rw [hdb2] at hdb3 hmeth
  cases m with
  | error e =>
    refine .inl ?_
    dsimp only at h
    split at h <;> rw [h.2] <;> exact hdb3
  | ok method =>
  obtain ⟨id, w4, ⟨env, -, hle4, hrun, hclock⟩, h⟩ := h
  have hdb4 : w4.db = w3.db := (congrArg (fun x => x.2.db) hrun).symm
  rw [← hclock] at hle4
  obtain ⟨res, w5, he5, h⟩ := h
  have hle5 := he5.clock_le
  have hcases := exec_turnCreate rfl he5
  rw [hdb4, hdb3] at hcases
  rcases hcases with ⟨hdb5, e, rfl⟩ | ⟨hmade, hclosed⟩
  · refine .inl ?_
    dsimp only at h
    split at h <;> rw [h.2] <;> exact hdb5
  · -- what comes after the payout is made leaves it there
    refine .inr ?_
    suffices hend : w5.db.PayoutsGo w'.db ∧ w5.clock ≤ w'.clock by
      have hle : w1.clock ≤ w'.clock := Int.le_trans hle12 (Int.le_trans hle3 (Int.le_trans hle4 (Int.le_trans hle5 hend.2)))
      have hle2 : w2.clock ≤ w'.clock := Int.le_trans hle3 (Int.le_trans hle4 (Int.le_trans hle5 hend.2))
      have hripe : uc.minPayoutKopecks ≤ readAvailableBalance w1.clock ref w.db := by
        rw [← hav]
        exact Int.not_lt.1 hmin
      refine ⟨⟨Int.le_trans hripe (readAvailableBalance_mono hle ref w.db), fun hw p hp hpart hst => ?_, ?_, hclosed⟩,
        hmade.go hend.1⟩
      · exact Int.le_trans (hrest rfl hw p hp hpart hst) (Int.sub_le_sub_right hle2 _)
      · exact ⟨method, hmeth method rfl⟩
    exact ⟨turn_go h, turn_clock_le h⟩

/-- **Who can be paid is paid in a turn that meets no error.** -/
theorem payoutPartner_pays (hpay : uc.Payable w.clock ref w.db)
    (h : (uc.payoutPartner ref).Runs (PayoutOp.TickExec TickEnv.Steady) w none w') : w.db.Makes w'.db := by
  simp only [PayoutUseCase.payoutPartner, Prog.bind_eq, Prog.perform_bind] at h
  obtain ⟨r, w1, he, h⟩ := h
  obtain ⟨hdb1, hbal⟩ := exec_balance he
  have hle1 := he.clock_le
  cases r with
  | error e => cases h.1
  | ok balance =>
  have hav := hbal balance rfl
  have hpay1 := hpay.mono hle1
  dsimp only at h
  have hmin : ¬ balance.availableKopecks < uc.minPayoutKopecks := by
    rw [hav]
    exact Int.not_lt.2 hpay1.ripe
  rw [if_neg hmin, Prog.runs_bind] at h
  obtain ⟨cool, w2, hc, h⟩ := h
  obtain ⟨hdb2, -, hcool⟩ := coolingDown_runs hc
  have hle2 := turn_clock_le hc
  rw [hdb1] at hdb2 hcool
  cases cool with
  | error e => cases h.1
  | ok cooling =>
  cases cooling with
  | true =>
    obtain ⟨hw, hnot⟩ := hcool rfl
    exact absurd ((hpay1.mono hle2).rested hw) hnot
  | false =>
  obtain ⟨m, w3, he3, h⟩ := h
  obtain ⟨hdb3, -, hnone⟩ := exec_getActive he3
  have hle3 := he3.clock_le
  rw [hdb2] at hdb3 hnone
  cases m with
  | error e =>
    obtain ⟨m, hm, hty, hid, hact⟩ := hpay.method
    dsimp only at h
    split at h
    · rename_i hcode
      exact absurd hact (hnone e rfl hcode m hm hty hid)
    · cases h.1
  | ok method =>
  obtain ⟨id, w4, ⟨env, ⟨-, hfresh⟩, hle4, hrun, hclock⟩, h⟩ := h
  obtain ⟨rfl, hw4⟩ : env.uuid = id ∧ w3.toPayoutWorld = w4.toPayoutWorld := by simpa [TickOp.run, PayoutOp.run] using hrun
  have hdb4 : w4.db = w3.db := (congrArg PayoutWorld.db hw4).symm
  rw [← hclock] at hle4
  rw [hdb3] at hfresh
  obtain ⟨res, w5, he5, h⟩ := h
  have hle5 := he5.clock_le
  have hcases := exec_turnCreate rfl he5
  rw [hdb4, hdb3] at hcases
  rcases hcases with ⟨-, e, rfl⟩ | ⟨hmade, -⟩
  swap
  · exact hmade.go (turn_go h)
  · -- it cannot have been passed over
    exfalso
    obtain ⟨huuid, hnew, hdebit⟩ := hfresh
    dsimp only at h
    split at h
    swap
    · cases h.1
    rename_i hcode
    obtain ⟨env5, -, -, hrun5, hclock5⟩ := he5
    rcases onPayouts_cases hrun5 with ⟨hr, hw⟩ | ⟨text, hr, -⟩
    swap
    · cases hr
      rcases hcode with hcode | hcode <;> cases hcode
    have hrefused : PayoutRepo.createPendingWithLedger env5.now env5.uuid
        (uc.newPayout ref balance.availableKopecks method env.uuid) w4.db = (.error e, w5.db) :=
      Prod.ext hr.symm (congrArg PayoutWorld.db hw).symm
    have hpassed := PayoutRepo.createPendingWithLedger_passed hrefused hcode (ne_empty_of_isUUID huuid)
    rw [hdb4, hdb3] at hpassed
    rcases hpassed with hlow | ⟨q, hq, hcl⟩ | ⟨x, hx, hty, hid⟩
    · have hle : w1.clock ≤ env5.now := by
        rw [← hclock5]
        exact Int.le_trans hle2 (Int.le_trans hle3 (Int.le_trans hle4 hle5))
      have hmono := readAvailableBalance_mono hle ref w.db
      rw [← hav] at hmono
      exact Int.not_lt.2 hmono hlow
    · obtain ⟨hqid, hqkey⟩ := hnew q hq
      have hopen := hpay.closed q hq
      simp only [payoutSchema, PayoutRepo.row, PayoutUseCase.newPayout, Bool.or_eq_true, Bool.and_eq_true, beq_iff_eq] at hcl
      rcases hcl with ((hcl | hcl) | ⟨⟨-, hsome⟩, hpid⟩) | ⟨⟨hqopen, -⟩, hpart⟩
      · exact hqid hcl
      · exact hqkey hcl
      · rw [hpid] at hsome
        cases hsome
      · rw [hopen hpart] at hqopen
        cases hqopen
    · exact hdebit x hx hty hid

end Turn

/-! ## The tick as a whole -/

theorem PartnerRef.orderKey_inj {a b : PartnerRef} (ha : a.partnerType.valid = true) (hb : b.partnerType.valid = true)
    (h : a.orderKey = b.orderKey) : a = b := by
  obtain ⟨ta, ia⟩ := a
  obtain ⟨tb, ib⟩ := b
  obtain ⟨hty, hid⟩ : ta.string = tb.string ∧ ia = ib := by simpa [PartnerRef.orderKey] using h
  have hta : PartnerType.ofString ta.string = ta := PartnerType.ofString_string ha
  have htb : PartnerType.ofString tb.string = tb := PartnerType.ofString_string hb
  rw [← hta, ← htb, hty, hid]

section Ripe

variable {now now' : Time} {minKopecks : ℤ} {db : PaymentDB} {ref : PartnerRef}

/-- Who has so much available has an entry in the ledger. -/
theorem mem_ripePartners (hmin : 0 < minKopecks) :
    ref ∈ LedgerRepo.ripePartners now minKopecks db ↔ minKopecks ≤ readAvailableBalance now ref db := by
  simp only [LedgerRepo.ripePartners, List.mem_filter, List.mem_dedup, decide_eq_true_eq, and_iff_right_iff_imp]
  intro hle
  by_contra hnot
  have hnone : db.ledger.select (fun e => e.isOf ref && e.available now) = [] := by
    refine List.filter_eq_nil_iff.2 fun e he => ?_
    simp only [Bool.and_eq_true, LedgerEntry.isOf, beq_iff_eq, not_and]
    exact fun hof => absurd (List.mem_map.2 ⟨e, he, hof⟩) hnot
  rw [readAvailableBalance, Table.sum, hnone] at hle
  simp only [List.map_nil, List.sum_nil] at hle
  omega

theorem ripePartners_keys : (LedgerRepo.ripePartners now minKopecks db).Pairwise fun a b => a.orderKey ≠ b.orderKey := by
  have hvalid : ∀ a ∈ LedgerRepo.ripePartners now minKopecks db, a.partnerType.valid = true := by
    intro a ha
    obtain ⟨e, he, rfl⟩ := List.mem_map.1 (List.mem_dedup.1 (List.mem_filter.1 ha).1)
    have := db.ledger.checked e he
    simp only [ledgerSchema, Bool.and_eq_true] at this
    exact this.1.1.1.1.1.1
  have hnodup : (LedgerRepo.ripePartners now minKopecks db).Nodup := (List.nodup_dedup _).filter _
  exact hnodup.imp_of_mem fun ha hb hne h => hne (PartnerRef.orderKey_inj (hvalid _ ha) (hvalid _ hb) h)

/-- The partners who come before another among those with so much available. -/
def LedgerRepo.ripeBefore (now : Time) (minKopecks : ℤ) (ref : PartnerRef) (db : PaymentDB) : List PartnerRef :=
  (ripePartners now minKopecks db).filter fun other => decide (other.orderKey < ref.orderKey)

theorem LedgerRepo.ripeBefore_mono (hle : now ≤ now') :
    (ripeBefore now minKopecks ref db).length ≤ (ripeBefore now' minKopecks ref db).length := by
  refine List.Sublist.length_le (List.Sublist.filter _ ?_)
  refine List.monotone_filter_right _ fun other h => ?_
  rw [decide_eq_true_eq] at h ⊢
  exact Int.le_trans h (readAvailableBalance_mono hle other db)

end Ripe

namespace PayoutScheduler

variable {s : PayoutScheduler} {ok : TickEnv → TickWorld → Prop} {w w' : TickWorld} {refs : List PartnerRef}
  {errs : List Err}

/-- The candidates of a tick. -/
def candidates (s : PayoutScheduler) (now : Time) (db : PaymentDB) : List PartnerRef :=
  (Keyset.sorted PartnerRef.orderKey (LedgerRepo.ripePartners now s.minPayoutKopecks db)).take batchLimit.toNat

/-- **The turns of partners who cannot be paid leave the database as it is.** -/
theorem payEach_idle : ∀ {refs : List PartnerRef} {w : TickWorld} {errs : List Err},
    (s.payEach refs).Runs (TickOp.Exec ok) w errs w' → (∀ ref ∈ refs, ¬ s.Payable w'.clock ref w.db) → w'.db = w.db
  | [], _, _, h, _ => by rw [h.2]
  | ref :: rest, w, errs, h, hnot => by
    simp only [payEach, Prog.bind_eq, Prog.perform_bind] at h
    obtain ⟨c, w1, ⟨env, -, -, hrun, -⟩, h⟩ := h
    have hdb1 : w1.db = w.db := (congrArg (fun x => x.2.db) hrun).symm
    cases c with
    | some e => rw [h.2, hdb1]
    | none =>
    dsimp only at h
    rw [Prog.runs_bind] at h
    obtain ⟨err, w2, hturn, h⟩ := h
    rw [Prog.runs_bind] at h
    obtain ⟨errs', w3, hrest, -, rfl⟩ := h
    have hle := clock_le_of_runs hrest
    rcases payoutPartner_made (runs_pay.1 hturn) with hdb2 | ⟨hpay, -⟩
    · rw [hdb1] at hdb2
      rw [payEach_idle hrest fun r hr => by rw [hdb2]; exact hnot r (List.mem_cons_of_mem _ hr), hdb2]
    · rw [hdb1] at hpay
      exact absurd (hpay.mono hle) (hnot ref List.mem_cons_self)

/-- **One of the partners who can be paid is paid** when no turn meets an error. -/
theorem payEach_pays : ∀ {refs : List PartnerRef} {w : TickWorld},
    (s.payEach refs).Runs (TickOp.Exec TickEnv.Steady) w [] w' → ∀ {ref : PartnerRef}, ref ∈ refs →
      s.Payable w.clock ref w.db → w.db.Makes w'.db
  | head :: rest, w, h, ref, hmem, hpay => by
    simp only [payEach, Prog.bind_eq, Prog.perform_bind] at h
    obtain ⟨c, w1, ⟨env, ⟨hcancel, -⟩, hle1, hrun, hclock⟩, h⟩ := h
    have hdb1 : w1.db = w.db := (congrArg (fun x => x.2.db) hrun).symm
    rw [← hclock] at hle1
    obtain rfl : env.cancelled = c := congrArg Prod.fst hrun
    rw [hcancel] at h
    dsimp only at h
    rw [Prog.runs_bind] at h
    obtain ⟨err, w2, hturn, h⟩ := h
    rw [Prog.runs_bind] at h
    obtain ⟨errs', w3, hrest, hnil, rfl⟩ := h
    obtain ⟨herr, rfl⟩ : err.toList = [] ∧ errs' = [] := List.append_eq_nil_iff.1 hnil.symm
    obtain rfl : err = none := by simpa using herr
    have hturn := runs_pay.1 hturn
    have hpay1 := hpay.mono hle1
    rw [← hdb1] at hpay1 ⊢
    rcases payoutPartner_made hturn with hdb2 | ⟨-, hmade⟩
    · rcases List.mem_cons.1 hmem with rfl | hmem
      · exact (payoutPartner_pays hpay1 hturn).go (go_of_runs hrest)
      · rw [← hdb2] at hpay1 ⊢
        exact payEach_pays hrest hmem (hpay1.mono (turn_clock_le hturn))
    · exact hmade.go (go_of_runs hrest)

/-- **What a tick does**: it finds out that it is the day, and takes the candidates of a moment in turn. -/
theorem tick_runs (h : s.tick.Runs (TickOp.Exec ok) w (some errs) w') :
    (∃ err, errs = [err]) ∨ ∃ w1, w.clock ≤ w1.clock ∧ w1.db = w.db ∧ 0 < s.minPayoutKopecks ∧
      (s.payEach (s.candidates w1.clock w.db)).Runs (TickOp.Exec ok) w1 errs w' := by
  unfold tick at h
  rw [Prog.bind_eq, Prog.runs_bind] at h
  obtain ⟨off, w1, hoff, h⟩ := h
  have hle1 := clock_le_of_runs hoff
  have hdb1 : w1.db = w.db := by
    unfold offDay at hoff
    by_cases hw : s.weeklyPayout = true
    · rw [if_pos hw] at hoff
      obtain ⟨now, w2, ⟨env, -, -, hrun, -⟩, -, rfl⟩ := hoff
      exact (congrArg (fun x => x.2.db) hrun).symm
    · rw [if_neg hw] at hoff
      rw [hoff.2]
  cases off with
  | true => cases h.1
  | false =>
  simp only [Prog.bind_eq, Prog.perform_bind] at h
  obtain ⟨r, w2, ⟨env, -, hle2, hrun, hclock⟩, h⟩ := h
  obtain ⟨hw2, hr⟩ := onPayouts_read hrun
  have hdb2 : w2.db = w.db := (congrArg PayoutWorld.db hw2).trans hdb1
  rw [← hclock] at hle2
  cases r with
  | error err =>
    obtain ⟨heq, -⟩ := h
    cases heq
    exact .inl ⟨_, rfl⟩
  | ok partners =>
    have hp := hr partners rfl
    rw [LedgerRepo.partnersWithAvailableBalance] at hp
    split at hp
    · cases hp
    rename_i hmin
    dsimp only at h
    rw [Prog.runs_bind] at h
    obtain ⟨errs', w3, hrest, heq, rfl⟩ := h
    cases heq
    refine .inr ⟨w2, Int.le_trans hle1 hle2, hdb2, Int.not_le.1 hmin, ?_⟩
    have hcand : s.candidates w2.clock w.db = partners := by
      rw [hclock, ← hdb1]
      exact Except.ok.inj hp
    rw [hcand]
    exact hrest

/-- Someone can be paid only if someone who can be paid comes within the limit; what others have by then is counted as of
`till`. -/
def WithinLimit (s : PayoutScheduler) (t till : Time) (db : PaymentDB) : Prop :=
  (∃ ref, s.Payable t ref db) → ∃ ref, s.Payable t ref db ∧
    ((LedgerRepo.ripeBefore till s.minPayoutKopecks ref db).length : ℤ) < batchLimit

/-- A tick that makes no payout leaves nobody who could have been paid when it began. -/
def Covers (s : PayoutScheduler) (w w' : TickWorld) : Prop := ¬ w.db.Makes w'.db → ∀ ref, ¬ s.Payable w.clock ref w.db

theorem mem_candidates {now : Time} {db : PaymentDB} {ref : PartnerRef} (hmin : 0 < s.minPayoutKopecks) :
    ref ∈ s.candidates now db ↔ s.minPayoutKopecks ≤ readAvailableBalance now ref db ∧
      ((LedgerRepo.ripeBefore now s.minPayoutKopecks ref db).length : ℤ) < batchLimit := by
  rw [candidates, Keyset.mem_take_sorted ripePartners_keys, mem_ripePartners hmin, LedgerRepo.ripeBefore]
  have hlim : ∀ n : ℕ, n < batchLimit.toNat ↔ (n : ℤ) < batchLimit := by
    intro n
    unfold batchLimit
    omega
  rw [hlim]

/-- **A tick covers everybody exactly when someone who can be paid comes within the limit**: always when that is so by the
end of the tick, and only then when the tick takes no time. -/
theorem tick_covers (h : s.tick.Runs (TickOp.Exec TickEnv.Steady) w (some []) w') :
    (s.WithinLimit w.clock w'.clock w.db → s.Covers w w') ∧
      (w'.clock = w.clock → (s.Covers w w' ↔ s.WithinLimit w.clock w.clock w.db)) := by
  obtain ⟨err, herr⟩ | ⟨w1, hle1, hdb1, hmin, hrest⟩ := tick_runs h
  · cases herr
  have hle := clock_le_of_runs hrest
  have hpaid : s.WithinLimit w.clock w'.clock w.db → s.Covers w w' := by
    intro hwithin hnone ref hpay
    obtain ⟨ref, hpay, hlim⟩ := hwithin ⟨ref, hpay⟩
    have hpay1 := hpay.mono hle1
    have hbefore : (LedgerRepo.ripeBefore w1.clock s.minPayoutKopecks ref w.db).length ≤
        (LedgerRepo.ripeBefore w'.clock s.minPayoutKopecks ref w.db).length := LedgerRepo.ripeBefore_mono hle
    have hcand : ref ∈ s.candidates w1.clock w.db := (mem_candidates hmin).2 ⟨hpay1.ripe, by omega⟩
    rw [← hdb1] at hpay1 hnone
    exact hnone (payEach_pays hrest hcand hpay1)
  refine ⟨hpaid, fun hstill => ⟨fun hcov hex => ?_, fun hwithin => hpaid (by rw [hstill]; exact hwithin)⟩⟩
  by_contra hnot
  push Not at hnot
  have hnow : w1.clock = w.clock := Int.le_antisymm (hstill ▸ hle) hle1
  -- none of the candidates can be paid, so nothing is made
  have hsame : w'.db = w1.db := by
    refine payEach_idle hrest fun ref hcand hpay => ?_
    rw [hnow] at hcand
    rw [hstill, hdb1] at hpay
    have := hnot ref hpay
    have := ((mem_candidates hmin).1 hcand).2
    omega
  obtain ⟨ref, hpay⟩ := hex
  exact hcov (by rw [hsame, hdb1]; exact w.db.not_makes_self) ref hpay

end PayoutScheduler

/-! ### A hundred partners without a method -/

/-- A turn of a partner with enough available and no method, out of weekly mode. -/
theorem payoutPartner_idle {uc : PayoutUseCase} {ref : PartnerRef} {w : TickWorld} {id : String} (hfresh : w.db.FreshPayout id)
    (hw : uc.weeklyPayout = false) (hid : isUUID ref.partnerID = true)
    (hripe : uc.minPayoutKopecks ≤ readAvailableBalance w.clock ref w.db)
    (hno : ∀ m ∈ w.db.methods.rows, ¬ (m.partnerType = ref.partnerType ∧ m.partnerID = ref.partnerID ∧ m.deactivatedAt = none)) :
    (uc.payoutPartner ref).Runs (PayoutOp.TickExec TickEnv.Steady) w none w := by
  have hexec : ∀ {o : PayoutOp} {r : o.Res},
      o.run ⟨w.clock, id, .refuse "", fun _ => .ok none, .none⟩ w.toPayoutWorld = (r, w.toPayoutWorld) →
      PayoutOp.TickExec TickEnv.Steady o w r w := fun h =>
    ⟨⟨⟨w.clock, id, .refuse "", fun _ => .ok none, .none⟩, none⟩, ⟨rfl, hfresh⟩, Int.le_refl _, h, rfl⟩
  obtain ⟨balance, hbal, hav⟩ : ∃ b, LedgerRepo.balance w.clock ref w.db = .ok b ∧
      b.availableKopecks = readAvailableBalance w.clock ref w.db := by
    rw [LedgerRepo.balance, uuidParam_ok hid]
    exact ⟨_, rfl, rfl⟩
  have hmethod : PayoutMethodRepo.getActive ref w.db = .error (.status .notFound "payout method not found") := by
    rw [PayoutMethodRepo.getActive, uuidParam_ok hid]
    have hnone : w.db.methods.get (fun m => m.partnerType == ref.partnerType && m.partnerID == ref.partnerID &&
        m.deactivatedAt.isNone) = none := Table.get_eq_none.2 fun m hm => by
      have := hno m hm
      simp only [Bool.and_eq_false_iff, beq_eq_false_iff_ne]
      by_contra hact
      simp only [not_or, not_not, Bool.not_eq_false, Option.isNone_iff_eq_none] at hact
      exact this ⟨hact.1.1, hact.1.2, hact.2⟩
    simp only [PayoutMethodRepo.scanOne, hnone]
  simp only [PayoutUseCase.payoutPartner, PayoutUseCase.coolingDown, Prog.bind_eq, Prog.perform_bind]
  refine ⟨.ok balance, w, hexec (by simp [PayoutOp.run, onPayouts, hbal]), ?_⟩
  dsimp only
  rw [if_neg (by rw [hav]; exact Int.not_lt.2 hripe), if_neg (by simp [hw])]
  refine ⟨.error (.status .notFound "payout method not found"), w, hexec (by simp [PayoutOp.run, onPayouts, hmethod]), ?_⟩
  dsimp only
  rw [if_pos (show (Err.status .notFound "payout method not found").code = .notFound from rfl)]
  exact ⟨rfl, rfl⟩

def threeDigits (n : ℕ) : List Char := [Char.ofNat (48 + n / 100), Char.ofNat (48 + n / 10 % 10), Char.ofNat (48 + n % 10)]

/-- The `n`-th of the partners, in their order. -/
def waitingRef (n : ℕ) : PartnerRef where
  partnerType := .venue
  partnerID := String.ofList ("00000000-0000-0000-0000-000000000".toList ++ threeDigits n)

def waitingEntry (n : ℕ) : LedgerEntry where
  id := n + 1
  partnerType := .venue
  partnerID := (waitingRef n).partnerID
  entryType := .adjustment
  amountKopecks := 10000
  reason := "correction"

theorem waitingRef_uuid : ∀ n < 101, isUUID (waitingRef n).partnerID = true := by
  simp only [waitingRef, isUUID, String.toList_ofList]
  decide +kernel

theorem threeDigits_succ : ∀ n < 100, threeDigits n < threeDigits (n + 1) := by
  decide +kernel

theorem ofList_append_lt {l a b : List Char} (h : a < b) : String.ofList (l ++ a) < String.ofList (l ++ b) := by
  rw [String.lt_iff_toList_lt, String.toList_ofList, String.toList_ofList]
  exact List.append_left_lt h

theorem waitingRef_lt {m n : ℕ} (hmn : m < n) (hn : n ≤ 100) : (waitingRef m).orderKey < (waitingRef n).orderKey := by
  have hid : (waitingRef m).partnerID < (waitingRef n).partnerID := by
    induction n with
    | zero => cases hmn
    | succ n ih =>
      have hstep : (waitingRef n).partnerID < (waitingRef (n + 1)).partnerID := ofList_append_lt (threeDigits_succ n (by omega))
      by_cases heq : m = n
      · rw [heq]
        exact hstep
      · exact lt_trans (ih (by omega) (by omega)) hstep
  exact Prod.Lex.toLex_lt_toLex.2 (.inr ⟨rfl, hid⟩)

/-- The last of the partners alone has a method. -/
def lastMethod : PayoutMethod := { sampleMethod with partnerID := (waitingRef 100).partnerID }

def starvedDB : PaymentDB where
  payments := .empty _
  outbox := []
  ledger := ⟨(List.range 101).map waitingEntry, by
    intro e he
    obtain ⟨n, hn, rfl⟩ := List.mem_map.1 he
    have hu := waitingRef_uuid n (List.mem_range.1 hn)
    simp [ledgerSchema, waitingEntry, LedgerEntry.signOk, LedgerEntry.refOk, PartnerType.valid, hu], by
    refine List.pairwise_map.2 (List.pairwise_lt_range.imp fun hlt => ?_)
    simp [ledgerSchema, waitingEntry]
    omega⟩
  payouts := .empty _
  methods := ⟨[lastMethod], by
    have hu := waitingRef_uuid 100 (by decide)
    have hf : lastMethod.fieldsOk = true := by decide
    have hm : isUUID lastMethod.id = true := by decide
    simp [methodSchema, hf, hm]
    exact ⟨rfl, hu⟩, by simp⟩

def starvedWorld : TickWorld := ⟨⟨starvedDB, ⟨.empty _, []⟩⟩, 0⟩

def starvedScheduler : PayoutScheduler := ⟨samplePayoutUseCase, 6, fun _ => 0⟩

theorem starved_ripe {n : ℕ} (hn : n < 101) : 10000 ≤ readAvailableBalance 0 (waitingRef n) starvedDB := by
  have hin : (10000 : ℤ) ∈ ((starvedDB.ledger.select fun e => e.isOf (waitingRef n) && e.available 0).map (·.amountKopecks)) := by
    refine List.mem_map.2 ⟨waitingEntry n, List.mem_filter.2 ⟨List.mem_map_of_mem (List.mem_range.2 hn), ?_⟩, rfl⟩
    simp [LedgerEntry.isOf, LedgerEntry.partner, LedgerEntry.available, waitingEntry, waitingRef]
  refine List.single_le_sum (fun x hx => ?_) _ hin
  obtain ⟨e, he, rfl⟩ := List.mem_map.1 hx
  obtain ⟨m, -, rfl⟩ := List.mem_map.1 (List.mem_filter.1 he).1
  exact (by decide : (0 : ℤ) ≤ 10000)

/-- The candidates are the hundred partners before the last. -/
theorem starved_candidates : starvedScheduler.candidates 0 starvedDB = (List.range 100).map waitingRef := by
  have hpair : ((List.range 101).map waitingRef).Pairwise fun a b => a.orderKey < b.orderKey := by
    refine List.pairwise_map.2 ?_
    exact List.pairwise_lt_range.imp_of_mem fun _ hb hlt => waitingRef_lt hlt (by have := List.mem_range.1 hb; omega)
  have hpartners : starvedDB.ledger.rows.map LedgerEntry.partner = (List.range 101).map waitingRef := by
    show ((List.range 101).map waitingEntry).map LedgerEntry.partner = _
    rw [List.map_map]
    rfl
  have hnodup : ((List.range 101).map waitingRef).Nodup := hpair.imp fun h heq => by rw [heq] at h; exact lt_irrefl _ h
  have hripe : LedgerRepo.ripePartners 0 10000 starvedDB = (List.range 101).map waitingRef := by
    rw [LedgerRepo.ripePartners, hpartners, hnodup.dedup]
    refine List.filter_eq_self.2 fun ref href => ?_
    obtain ⟨n, hn, rfl⟩ := List.mem_map.1 href
    exact decide_eq_true (starved_ripe (List.mem_range.1 hn))
  show ((Keyset.sorted PartnerRef.orderKey (LedgerRepo.ripePartners 0 10000 starvedDB)).take 100) = _
  rw [hripe, Keyset.sorted_of_pairwise hpair, ← List.map_take, List.take_range]
  rfl

theorem starved_fresh : starvedDB.FreshPayout "00000000-0000-0000-0000-000000000005" := by
  refine ⟨by decide, by simp [starvedDB, Table.empty], fun e he hty => ?_⟩
  obtain ⟨n, -, rfl⟩ := List.mem_map.1 he
  cases hty

theorem starved_turn {n : ℕ} (hn : n < 100) : (starvedScheduler.payoutPartner (waitingRef n)).Runs
    (PayoutOp.TickExec TickEnv.Steady) starvedWorld none starvedWorld := by
  refine payoutPartner_idle starved_fresh rfl (waitingRef_uuid n (by omega)) (starved_ripe (by omega)) fun m hm hact => ?_
  obtain rfl := List.mem_singleton.1 hm
  have hlt := waitingRef_lt hn (Nat.le_refl _)
  have heq : waitingRef 100 = waitingRef n := congrArg (PartnerRef.mk .venue) hact.2.1
  rw [heq] at hlt
  exact lt_irrefl _ hlt

/-- **The tick of a hundred partners without a method** ends without an error, and without a payout. -/
theorem starved_run : starvedScheduler.tick.Runs (TickOp.Exec TickEnv.Steady) starvedWorld (some []) starvedWorld := by
  have henv : TickEnv.Steady ⟨⟨0, "00000000-0000-0000-0000-000000000005", .refuse "", fun _ => .ok none, .none⟩, none⟩
      starvedWorld := ⟨rfl, starved_fresh⟩
  have hexec : ∀ {o : TickOp} {r : o.Res},
      o.run ⟨⟨0, "00000000-0000-0000-0000-000000000005", .refuse "", fun _ => .ok none, .none⟩, none⟩
        starvedWorld.toPayoutWorld = (r, starvedWorld.toPayoutWorld) →
      o.Exec TickEnv.Steady starvedWorld r starvedWorld := fun h => ⟨_, henv, Int.le_refl _, h, rfl⟩
  have heach : ∀ l : List ℕ, (∀ n ∈ l, n < 100) →
      (starvedScheduler.payEach (l.map waitingRef)).Runs (TickOp.Exec TickEnv.Steady) starvedWorld [] starvedWorld := by
    intro l
    induction l with
    | nil => exact fun _ => ⟨rfl, rfl⟩
    | cons n l ih =>
      intro hl
      simp only [List.map_cons, PayoutScheduler.payEach, Prog.bind_eq, Prog.perform_bind]
      refine ⟨none, starvedWorld, hexec rfl, ?_⟩
      dsimp only
      rw [Prog.runs_bind]
      refine ⟨none, starvedWorld, runs_pay.2 (starved_turn (hl n List.mem_cons_self)), ?_⟩
      rw [Prog.runs_bind]
      exact ⟨[], starvedWorld, ih fun m hm => hl m (List.mem_cons_of_mem _ hm), rfl, rfl⟩
  simp only [PayoutScheduler.tick, Prog.bind_eq, Prog.perform_bind]
  rw [Prog.runs_bind]
  refine ⟨false, starvedWorld, ⟨rfl, rfl⟩, ?_⟩
  refine ⟨.ok (starvedScheduler.candidates 0 starvedDB), starvedWorld, hexec rfl, ?_⟩
  dsimp only
  rw [Prog.runs_bind, starved_candidates]
  exact ⟨[], starvedWorld, heach _ fun n hn => List.mem_range.1 hn, rfl, rfl⟩

/-- The last partner could have been paid. -/
theorem starved_payable : starvedScheduler.Payable 0 (waitingRef 100) starvedDB where
  ripe := starved_ripe (by decide)
  rested h := by cases h
  method := ⟨lastMethod, by simp [starvedDB], by simp [lastMethod, waitingRef, sampleMethod], by simp [lastMethod], by
    simp [lastMethod, sampleMethod]⟩
  closed p hp := by simp [starvedDB, Table.empty] at hp

theorem tick_covers_starved : ¬ starvedScheduler.WithinLimit 0 0 starvedDB := by
  intro hwithin
  have hcov := ((PayoutScheduler.tick_covers starved_run).2 rfl).2 hwithin
  exact hcov starvedDB.not_makes_self (waitingRef 100) starved_payable

/-- **A hundred partners without a method keep everybody after them from being paid.** -/
theorem tick_leaves_payable : ¬ ∀ (s : PayoutScheduler) (w w' : TickWorld),
    s.tick.Runs (TickOp.Exec TickEnv.Steady) w (some []) w' → ¬ w.db.Makes w'.db → ∀ ref, ¬ s.Payable w.clock ref w.db :=
  fun h => h starvedScheduler starvedWorld starvedWorld starved_run starvedDB.not_makes_self (waitingRef 100) starved_payable

end Agregator
