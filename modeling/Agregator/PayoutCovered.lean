import Agregator.PayoutTx
/-!
# PayoutCovered — no payout overdraws the ledger

What is taken from a partner's balance is taken under the lock of the partner, and what is added may come at any time.  From
the balance a payout has read to its commit the balance does not fall, neither by what others commit nor by the clock, so the
debit is covered by what is committed just before it.
-/
namespace Agregator

open Rel Conc

/-! ## The balance -/

theorem LedgerEntry.accrual_pos {e : LedgerEntry} (hc : ledgerSchema.check e = true) (hty : e.entryType = .accrual) :
    0 < e.amountKopecks := by
  simp only [ledgerSchema, LedgerEntry.signOk, hty, Bool.and_eq_true, decide_eq_true_eq] at hc
  exact hc.1.2

/-- An accrual that is available stays so. -/
theorem LedgerEntry.available_mono {T T' : Time} (h : T ≤ T') {e : LedgerEntry} (ha : e.available T = true) :
    e.available T' = true := by
  unfold LedgerEntry.available at ha ⊢
  rw [Bool.or_eq_true] at ha ⊢
  refine ha.imp (fun h => h) fun ha => ?_
  cases hat : e.availableAt with
  | none => simp [hat] at ha
  | some t =>
    rw [hat] at ha
    simp only [decide_eq_true_eq] at ha ⊢
    exact Int.le_trans ha h

/-- **Time only adds to the balance.** -/
theorem readAvailableBalance_mono {T T' : Time} (h : T ≤ T') (ref : PartnerRef) (db : PaymentDB) :
    readAvailableBalance T ref db ≤ readAvailableBalance T' ref db := by
  unfold readAvailableBalance Table.sum Table.select
  have hheld : ∀ e ∈ db.ledger.rows, e.available T = false → 0 < e.amountKopecks := by
    intro e he hav
    refine LedgerEntry.accrual_pos (db.ledger.checked e he) ?_
    by_contra hne
    simp [LedgerEntry.available, hne] at hav
  generalize db.ledger.rows = rows at hheld
  induction rows with
  | nil => simp
  | cons e rows ih =>
    have ih := ih fun x hx => hheld x (by simp [hx])
    have he := hheld e (by simp)
    cases hof : e.isOf ref with
    | false => simpa [hof] using ih
    | true =>
      cases hav : e.available T with
      | true => simp [hof, hav, LedgerEntry.available_mono h hav, ih]
      | false =>
        have := he hav
        cases hav' : e.available T' with
        | true => simp [hof, hav, hav']; omega
        | false => simpa [hof, hav, hav'] using ih

/-- What an entry changes of a balance. -/
theorem readAvailableBalance_insert {now : Time} {e : LedgerEntry} {db db' : PaymentDB}
    (h : db.ledger.insert (e.row now db) = .ok db'.ledger) (T : Time) (ref : PartnerRef) :
    readAvailableBalance T ref db' =
      readAvailableBalance T ref db + if e.partner = ref ∧ e.available T = true then e.amountKopecks else 0 := by
  unfold readAvailableBalance
  rw [Table.sum_insert h]
  simp [LedgerEntry.isOf, LedgerEntry.row, LedgerEntry.partner, LedgerEntry.available]

/-! ## The invariant -/

section Locks

variable (hashtext : String → ℤ)

/-- The session holds the lock of the partner. -/
def TxSession.Holds (s : TxSession) (ref : PartnerRef) : Prop := hashtext (partnerLockKey ref) ∈ s.locks

namespace TxWorld

structure Sound (w : TxWorld) : Prop where
  ids       : ∀ s ∈ w.sessions, s.id < w.opened
  past      : ∀ s ∈ w.sessions, s.began ≤ w.clock
  one       : ∀ s ∈ w.sessions, ∀ s' ∈ w.sessions, s.id = s'.id → s = s'
  exclusive : ∀ s ∈ w.sessions, ∀ s' ∈ w.sessions, ∀ l ∈ s.locks, l ∈ s'.locks → s.id = s'.id

/-- A session that goes on keeps its locks, and no balance under them falls. -/
structure Goes (w w' : TxWorld) : Prop where
  opened : w.opened ≤ w'.opened
  kept   : ∀ s' ∈ w'.sessions, s'.id < w.opened → ∃ s ∈ w.sessions, s.id = s'.id ∧ s.began = s'.began ∧
    (∀ l ∈ s.locks, l ∈ s'.locks) ∧
    ∀ ref, s.Holds hashtext ref → ∀ T, readAvailableBalance T ref w.db ≤ readAvailableBalance T ref w'.db

/-- What an answer says of the sessions and the balance, and goes on saying while its session lives. -/
def Told (w : TxWorld) : Event TxOp TxOp.Res → Prop
  | ⟨.lock tx ref, .ok ()⟩ => tx < w.opened ∧ ∀ s ∈ w.sessions, s.id = tx → s.Holds hashtext ref
  | ⟨.readAvailableBalance tx ref, .ok available⟩ => tx < w.opened ∧ ∀ s ∈ w.sessions, s.id = tx →
      s.Holds hashtext ref ∧ available ≤ readAvailableBalance s.began ref w.db
  | ⟨.readForUpdate _ _, .ok p⟩ => 0 < p.amountKopecks
  | _ => True

variable {hashtext} {w w' : TxWorld}

theorem Told.goes {e : Event TxOp TxOp.Res} (h : w.Told hashtext e) (hg : w.Goes hashtext w') : w'.Told hashtext e := by
  unfold Told at h ⊢
  split at h
  · refine ⟨Nat.lt_of_lt_of_le h.1 hg.opened, fun s' hs' hid => ?_⟩
    obtain ⟨s, hs, hsid, -, hlocks, -⟩ := hg.kept s' hs' (by rw [hid]; exact h.1)
    exact hlocks _ (h.2 s hs (hsid.trans hid))
  · refine ⟨Nat.lt_of_lt_of_le h.1 hg.opened, fun s' hs' hid => ?_⟩
    obtain ⟨s, hs, hsid, hbegan, hlocks, hbal⟩ := hg.kept s' hs' (by rw [hid]; exact h.1)
    obtain ⟨hhold, hle⟩ := h.2 s hs (hsid.trans hid)
    exact ⟨hlocks _ hhold, hle.trans (hbegan ▸ hbal _ hhold _)⟩
  · exact h
  · trivial

theorem told_error (o : TxOp) (err : Err) (w : TxWorld) : w.Told hashtext ⟨o, .error err⟩ := by
  cases o <;> trivial

theorem Goes.refl (w : TxWorld) : w.Goes hashtext w :=
  ⟨Nat.le_refl _, fun s hs _ => ⟨s, hs, rfl, rfl, fun _ h => h, fun _ _ _ => Int.le_refl _⟩⟩

/-- A commit leaves the other sessions as they are. -/
theorem Sound.commit (h : w.Sound) (db : PaymentDB) (tx : ℕ) : ({ w with db := db }.close tx).Sound where
  ids s hs := h.ids s (List.mem_filter.1 hs).1
  past s hs := h.past s (List.mem_filter.1 hs).1
  one s hs s' hs' := h.one s (List.mem_filter.1 hs).1 s' (List.mem_filter.1 hs').1
  exclusive s hs s' hs' := h.exclusive s (List.mem_filter.1 hs).1 s' (List.mem_filter.1 hs').1

theorem Sound.close (h : w.Sound) (tx : ℕ) : (w.close tx).Sound := h.commit w.db tx

theorem goes_close (w : TxWorld) (tx : ℕ) : w.Goes hashtext (w.close tx) :=
  ⟨Nat.le_refl _, fun s hs _ => ⟨s, (List.mem_filter.1 hs).1, rfl, rfl, fun _ h => h, fun _ _ _ => Int.le_refl _⟩⟩

/-- **A commit lowers no balance but one whose lock its session holds**, and gives that lock back. -/
theorem Sound.goes_commit (h : w.Sound) {s : TxSession} (hs : s ∈ w.sessions) {db : PaymentDB}
    (hbal : ∀ ref, s.Holds hashtext ref ∨ ∀ T, readAvailableBalance T ref w.db ≤ readAvailableBalance T ref db) :
    w.Goes hashtext ({ w with db := db }.close s.id) := by
  refine ⟨Nat.le_refl _, fun x hx _ => ?_⟩
  obtain ⟨hx, hne⟩ := List.mem_filter.1 hx
  refine ⟨x, hx, rfl, rfl, fun _ h => h, fun ref hhold => ?_⟩
  rcases hbal ref with hs' | hle
  · have := h.exclusive x hx s hs _ hhold hs'
    simp [this] at hne
  · exact hle

theorem Sound.opens (h : w.Sound) :
    ({ w with sessions := w.sessions ++ [⟨w.opened, w.clock, [], []⟩], opened := w.opened + 1 } : TxWorld).Sound where
  ids s hs := by
    rcases List.mem_append.1 hs with hs | hs
    · exact Nat.lt_succ_of_lt (h.ids s hs)
    · rw [List.mem_singleton.1 hs]
      exact Nat.lt_succ_self _
  past s hs := by
    rcases List.mem_append.1 hs with hs | hs
    · exact h.past s hs
    · rw [List.mem_singleton.1 hs]
  one s hs s' hs' hid := by
    rcases List.mem_append.1 hs with hs | hs <;> rcases List.mem_append.1 hs' with hs' | hs'
    · exact h.one s hs s' hs' hid
    · rw [List.mem_singleton.1 hs'] at hid
      exact absurd hid (Nat.ne_of_lt (h.ids s hs))
    · rw [List.mem_singleton.1 hs] at hid
      exact absurd hid.symm (Nat.ne_of_lt (h.ids s' hs'))
    · rw [List.mem_singleton.1 hs, List.mem_singleton.1 hs']
  exclusive s hs s' hs' l hl hl' := by
    rcases List.mem_append.1 hs with hs | hs
    · rcases List.mem_append.1 hs' with hs' | hs'
      · exact h.exclusive s hs s' hs' l hl hl'
      · rw [List.mem_singleton.1 hs'] at hl'
        cases hl'
    · rw [List.mem_singleton.1 hs] at hl
      cases hl

theorem goes_opens (w : TxWorld) : w.Goes hashtext
    { w with sessions := w.sessions ++ [⟨w.opened, w.clock, [], []⟩], opened := w.opened + 1 } := by
  refine ⟨Nat.le_succ _, fun s hs hlt => ?_⟩
  rcases List.mem_append.1 hs with hs | hs
  · exact ⟨s, hs, rfl, rfl, fun _ h => h, fun _ _ _ => Int.le_refl _⟩
  · rw [List.mem_singleton.1 hs] at hlt
    exact absurd hlt (Nat.lt_irrefl _)

/-- The sessions after a change that leaves all but their rows and locks as they are. -/
theorem goes_map {f : TxSession → TxSession} (hf : ∀ s, (f s).id = s.id ∧ (f s).began = s.began ∧ ∀ l ∈ s.locks, l ∈ (f s).locks) :
    w.Goes hashtext { w with sessions := w.sessions.map f } := by
  refine ⟨Nat.le_refl _, fun s' hs' _ => ?_⟩
  obtain ⟨s, hs, rfl⟩ := List.mem_map.1 hs'
  exact ⟨s, hs, (hf s).1.symm, (hf s).2.1.symm, (hf s).2.2, fun _ _ _ => Int.le_refl _⟩

theorem goes_grant (w : TxWorld) (tx : ℕ) (lock : ℤ) : w.Goes hashtext (w.grant tx lock) := by
  refine goes_map fun s => ?_
  split <;> simp +contextual

theorem goes_lockRow (w : TxWorld) (tx : ℕ) (id : String) : w.Goes hashtext (w.lockRow tx id) := by
  refine goes_map fun s => ?_
  split <;> simp

/-- The same, for what is sound of the sessions. -/
theorem Sound.map (h : w.Sound) {f : TxSession → TxSession} (hf : ∀ s, (f s).id = s.id ∧ (f s).began = s.began)
    (hlocks : ∀ s ∈ w.sessions, ∀ s' ∈ w.sessions, ∀ l ∈ (f s).locks, l ∈ (f s').locks → s.id = s'.id) :
    ({ w with sessions := w.sessions.map f } : TxWorld).Sound := by
  constructor
  · intro s' hs'
    obtain ⟨s, hs, rfl⟩ := List.mem_map.1 hs'
    rw [(hf s).1]
    exact h.ids s hs
  · intro s' hs'
    obtain ⟨s, hs, rfl⟩ := List.mem_map.1 hs'
    rw [(hf s).2]
    exact h.past s hs
  · intro s' hs' x' hx' hid
    obtain ⟨s, hs, rfl⟩ := List.mem_map.1 hs'
    obtain ⟨x, hx, rfl⟩ := List.mem_map.1 hx'
    rw [(hf s).1, (hf x).1] at hid
    rw [h.one s hs x hx hid]
  · intro s' hs' x' hx' l hl hl'
    obtain ⟨s, hs, rfl⟩ := List.mem_map.1 hs'
    obtain ⟨x, hx, rfl⟩ := List.mem_map.1 hx'
    rw [(hf s).1, (hf x).1]
    exact hlocks s hs x hx l hl hl'

theorem Sound.lockRow (h : w.Sound) (tx : ℕ) (id : String) : (w.lockRow tx id).Sound := by
  have hlocks : ∀ s : TxSession, (if s.id = tx then { s with rows := id :: s.rows } else s).locks = s.locks := fun s => by
    split <;> rfl
  refine h.map (fun s => ?_) fun s hs x hx l hl hl' => ?_
  · split <;> exact ⟨rfl, rfl⟩
  · rw [hlocks] at hl hl'
    exact h.exclusive s hs x hx l hl hl'

/-- **A lock is granted to one session at a time.** -/
theorem Sound.grant (h : w.Sound) {tx : ℕ} {lock : ℤ} (hfree : w.lockedOut tx lock = false) : (w.grant tx lock).Sound := by
  have hothers : ∀ s ∈ w.sessions, lock ∈ s.locks → s.id = tx := by
    intro s hs hl
    by_contra hne
    have hany : w.lockedOut tx lock = true := List.any_eq_true.2 ⟨s, hs, by simp [hne, hl]⟩
    rw [hfree] at hany
    cases hany
  have hof : ∀ s : TxSession, ∀ l ∈ (if s.id = tx then { s with locks := lock :: s.locks } else s).locks,
      l ∈ s.locks ∨ (l = lock ∧ s.id = tx) := by
    intro s l hl
    by_cases hid : s.id = tx
    · rw [if_pos hid] at hl
      rcases List.mem_cons.1 hl with rfl | hl
      · exact .inr ⟨rfl, hid⟩
      · exact .inl hl
    · rw [if_neg hid] at hl
      exact .inl hl
  refine h.map (fun s => ?_) fun s hs x hx l hl hl' => ?_
  · split <;> exact ⟨rfl, rfl⟩
  · rcases hof s l hl with hl | ⟨rfl, hstx⟩ <;> rcases hof x l hl' with hl' | ⟨hll, hxtx⟩
    · exact h.exclusive s hs x hx l hl hl'
    · rw [hxtx]
      exact hothers s hs (hll ▸ hl)
    · rw [hstx]
      exact (hothers x hx hl').symm
    · rw [hstx, hxtx]

end TxWorld

/-! ## One step -/

/-- What a call has behind it before a statement. -/
def Locked.priorTo (h : List (Event TxOp TxOp.Res)) : TxOp → Prop
  | .readAvailableBalance tx ref => ⟨.lock tx ref, .ok ()⟩ ∈ h
  | .insertWithDebit tx p => ⟨.lock tx p.partner, .ok ()⟩ ∈ h ∧
      ∃ available, ⟨.readAvailableBalance tx p.partner, .ok available⟩ ∈ h ∧ p.amountKopecks ≤ available
  | .failWithCredit _ p _ _ => ∃ tx id, ⟨.readForUpdate tx id, .ok p⟩ ∈ h
  | .appendReversal tx e => ⟨.lock tx e.partner, .ok ()⟩ ∈ h
  | _ => True

namespace Locked

variable {h : List (Event TxOp TxOp.Res)}

theorem rollingBack_prior {α : Type} (tx : ℕ) (err : Err) : (rollingBack tx err : TxProg (Except Err α)).After priorTo h :=
  ⟨trivial, fun _ => trivial⟩

theorem createPendingWithLedger_prior (p : Payout) : (createPendingWithLedger p).After priorTo h := by
  unfold createPendingWithLedger
  split
  · trivial
  split
  · trivial
  split
  · trivial
  split
  · trivial
  split
  · trivial
  simp only [Prog.bind_eq, Prog.perform_bind]
  refine ⟨trivial, fun r => ?_⟩
  cases r with
  | error err => trivial
  | ok tx =>
  refine ⟨trivial, fun r => ?_⟩
  cases r with
  | error err => exact rollingBack_prior _ _
  | ok u =>
  refine ⟨by simp [priorTo], fun r => ?_⟩
  cases r with
  | error err => exact rollingBack_prior _ _
  | ok available =>
  dsimp only
  split
  · exact rollingBack_prior _ _
  · rename_i hle
    refine ⟨⟨by simp, available, by simp, Int.not_lt.1 hle⟩, fun r => ?_⟩
    cases r with
    | error err => exact rollingBack_prior _ _
    | ok payout => trivial

theorem appendReversal_prior (e : LedgerEntry) : (appendReversal e).After priorTo h := by
  unfold appendReversal
  split
  · trivial
  split
  · trivial
  split
  · trivial
  simp only [Prog.bind_eq, Prog.perform_bind]
  refine ⟨trivial, fun r => ?_⟩
  cases r with
  | error err => trivial
  | ok tx =>
  refine ⟨trivial, fun r => ?_⟩
  cases r with
  | error err => exact rollingBack_prior _ _
  | ok u =>
  refine ⟨by simp [priorTo], fun r => ?_⟩
  cases r with
  | error err => exact rollingBack_prior _ _
  | ok u => trivial

theorem markFailedWithReversal_prior (id reason : String) (at' : Time) :
    (markFailedWithReversal id reason at').After priorTo h := by
  simp only [markFailedWithReversal, Prog.bind_eq, Prog.perform_bind]
  refine ⟨trivial, fun r => ?_⟩
  cases r with
  | error err => trivial
  | ok tx =>
  refine ⟨trivial, fun r => ?_⟩
  cases r with
  | error err => exact rollingBack_prior _ _
  | ok p =>
  dsimp only
  split
  · exact ⟨trivial, fun _ => trivial⟩
  refine ⟨trivial, fun r => ?_⟩
  cases r with
  | error err => exact rollingBack_prior _ _
  | ok u =>
  refine ⟨⟨tx, id, by simp⟩, fun r => ?_⟩
  cases r with
  | error err => exact rollingBack_prior _ _
  | ok u => trivial

end Locked

theorem LedgerCall.prog_prior (c : LedgerCall) : c.prog.After Locked.priorTo [] := by
  have hret : ∀ {α : Type} {p : TxProg (Except Err α)}, p.After Locked.priorTo [] →
      (p.bind fun r => .ret (errorOf r)).After Locked.priorTo [] := fun hp =>
    Prog.After.bind (f := fun r => .ret (errorOf r)) (fun _ _ => trivial) hp
  cases c with
  | createPendingWithLedger p => exact hret (Locked.createPendingWithLedger_prior p)
  | appendAccrual e => exact ⟨trivial, fun _ => trivial⟩
  | appendReversal e => exact hret (Locked.appendReversal_prior e)
  | markFailedWithReversal id reason at' => exact hret (Locked.markFailedWithReversal_prior id reason at')

namespace TxWorld

variable {hashtext} {w w' : TxWorld}

/-- What one operation does to the sessions and the balances, and what it says. -/
def Steps (hashtext : String → ℤ) (w w' : TxWorld) (e : Event TxOp TxOp.Res) : Prop :=
  w'.Sound ∧ w.Goes hashtext w' ∧ w'.Told hashtext e

theorem Sound.nothing (h : w.Sound) (o : TxOp) (err : Err) : Steps hashtext w w ⟨o, .error err⟩ :=
  ⟨h, .refl w, told_error o err w⟩

/-- A statement of a session, if that still lives. -/
theorem Sound.within (h : w.Sound) {o : TxOp} {tx : ℕ} {f : TxSession → TxWorld → o.Res × TxWorld}
    (hf : ∀ s ∈ w.sessions, s.id = tx → Steps hashtext w (f s w).2 ⟨o, (f s w).1⟩) :
    Steps hashtext w (w.within tx f).2 ⟨o, (w.within tx f).1⟩ := by
  unfold TxWorld.within session
  split
  · rename_i s hs
    exact hf s (List.mem_of_find?_eq_some hs) (by simpa using List.find?_some hs)
  · exact h.nothing o _

end TxWorld

open TxWorld

variable {hashtext}

/-- **Every operation keeps the locks and the balances under them**, after what its call has behind it. -/
theorem TxOp.attempt_steps {uuid : String} {w : TxWorld} {h : List (Event TxOp TxOp.Res)} (o : TxOp)
    (hw : w.Sound) (hp : Locked.priorTo h o) (ht : ∀ e ∈ h, w.Told hashtext e) :
    Steps hashtext w (o.attempt hashtext uuid w).2 ⟨o, (o.attempt hashtext uuid w).1⟩ := by
  cases o with
  | begin => exact ⟨hw.opens, goes_opens w, trivial⟩
  | rollback tx => exact ⟨hw.close tx, goes_close w tx, trivial⟩
  | lock tx ref =>
    refine hw.within (o := .lock tx ref) fun s hs hid => ?_
    split
    · exact hw.nothing _ _
    · rename_i hfree
      refine ⟨hw.grant (by simpa using hfree), goes_grant w _ _, hid ▸ hw.ids s hs, fun s' hs' hid' => ?_⟩
      obtain ⟨x, -, rfl⟩ := List.mem_map.1 hs'
      by_cases hx : x.id = tx
      · rw [if_pos hx]
        exact List.mem_cons_self
      · rw [if_neg hx] at hid'
        exact absurd hid' hx
  | readAvailableBalance tx ref =>
    refine hw.within (o := .readAvailableBalance tx ref) fun s hs hid => ?_
    split
    · exact hw.nothing _ _
    · obtain ⟨-, hhold⟩ := ht _ hp
      refine ⟨hw, .refl w, hid ▸ hw.ids s hs, fun s' hs' hid' => ⟨hhold s' hs' hid', ?_⟩⟩
      rw [hw.one s' hs' s hs (hid'.trans hid.symm)]
  | readForUpdate tx id =>
    refine hw.within (o := .readForUpdate tx id) fun s hs hid => ?_
    split
    · exact hw.nothing _ _
    split
    · exact hw.nothing _ _
    rename_i p hget
    split
    · exact hw.nothing _ _
    · exact ⟨hw.lockRow tx _, goes_lockRow w tx _, Payout.amount_pos (Table.get_mem hget).1⟩
  | insertWithDebit tx p =>
    obtain ⟨hlock, -⟩ := hp
    obtain ⟨-, hhold⟩ := ht _ hlock
    refine hw.within (o := .insertWithDebit tx p) fun s hs hid => ?_
    rcases PayoutRepo.insertPending_cases s.began uuid p w.db with ⟨e, he⟩ | ⟨id, t, l, he, hl⟩
    · rw [he]
      exact hw.nothing _ e
    rw [he, ← hid]
    refine ⟨hw.commit _ _, hw.goes_commit hs fun ref => ?_, trivial⟩
    by_cases href : p.partner = ref
    · exact .inl (href ▸ hhold s hs hid)
    · refine .inr fun T => ?_
      rw [readAvailableBalance_insert (show _ = Except.ok (PaymentDB.ledger { w.db with payouts := t, ledger := l }) from hl), if_neg (fun h => href h.1)]
      omega
  | failWithCredit tx p reason at' =>
    obtain ⟨_, _, hread⟩ := hp
    have hpos : 0 < p.amountKopecks := ht _ hread
    refine hw.within (o := .failWithCredit tx p reason at') fun s hs hid => ?_
    rcases PayoutRepo.failWithCredit_cases s.began p reason at' w.db with ⟨e, he⟩ | ⟨t, l, he, hl⟩
    · rw [he]
      exact hw.nothing _ e
    rw [he, ← hid]
    refine ⟨hw.commit _ _, hw.goes_commit hs fun ref => .inr fun T => ?_, trivial⟩
    rw [readAvailableBalance_insert (show _ = Except.ok (PaymentDB.ledger { w.db with payouts := t, ledger := l }) from hl)]
    have hamt : (PayoutRepo.credit p reason).amountKopecks = p.amountKopecks := rfl
    split <;> omega
  | appendReversal tx e =>
    obtain ⟨-, hhold⟩ := ht _ hp
    refine hw.within (o := .appendReversal tx e) fun s hs hid => ?_
    rcases appendLedgerEntry_cases s.began e w.db with ⟨x, he, -⟩ | ⟨x, he, -⟩ | ⟨l, he, hl, -⟩
    · rw [he]
      exact hw.nothing _ x
    · rw [he]
      exact hw.nothing _ x
    rw [he, ← hid]
    refine ⟨hw.commit _ _, hw.goes_commit hs fun ref => ?_, trivial⟩
    by_cases href : e.partner = ref
    · exact .inl (href ▸ hhold s hs hid)
    · refine .inr fun T => ?_
      rw [readAvailableBalance_insert (show _ = Except.ok (PaymentDB.ledger { w.db with ledger := l }) from hl), if_neg (fun h => href h.1)]
      omega
  | appendAccrual e =>
    rw [attempt]
    rcases LedgerRepo.appendAccrual_cases w.clock e w.db with ⟨x, he, -⟩ | ⟨x, he, -⟩ | ⟨l, he, hty, hl, -⟩
    · rw [he]
      exact hw.nothing _ x
    · rw [he]
      exact hw.nothing _ x
    rw [he]
    have hpos : 0 < e.amountKopecks := LedgerEntry.accrual_pos (e := e.row w.clock w.db) (Table.of_insert_ok hl).1 hty
    refine ⟨⟨hw.ids, hw.past, hw.one, hw.exclusive⟩, ⟨Nat.le_refl _, fun s hs _ =>
      ⟨s, hs, rfl, rfl, fun _ h => h, fun ref _ T => ?_⟩⟩, trivial⟩
    rw [readAvailableBalance_insert (show _ = Except.ok (PaymentDB.ledger { w.db with ledger := l }) from hl)]
    split <;> omega

theorem TxOp.exec_steps {w w' : TxWorld} {h : List (Event TxOp TxOp.Res)} {o : TxOp} {r : o.Res} (hw : w.Sound)
    (hp : Locked.priorTo h o) (ht : ∀ e ∈ h, w.Told hashtext e) (he : o.Exec hashtext w r w') :
    Steps hashtext w w' ⟨o, r⟩ := by
  obtain ⟨env, he⟩ := he
  have hat : Steps hashtext w (o.attempt hashtext env.uuid w).2 ⟨o, (o.attempt hashtext env.uuid w).1⟩ :=
    attempt_steps o hw hp ht
  unfold run at he
  cases hf : env.fault o with
  | none =>
    rw [hf, Fault.apply_none] at he
    rwa [he] at hat
  | before err =>
    rw [hf] at he
    cases he
    exact hw.nothing o err
  | after err =>
    rw [hf] at he
    cases he
    exact ⟨hat.1, hat.2.1, told_error o err _⟩

/-- The environment lowers no balance under a lock. -/
theorem TxWorld.Moves.goes {w w' : TxWorld} (hw : w.Sound) (hm : Moves w w') : w'.Sound ∧ w.Goes hashtext w' := by
  cases hm with
  | tick t hle =>
    exact ⟨⟨hw.ids, fun s hs => Int.le_trans (hw.past s hs) hle, hw.one, hw.exclusive⟩, Nat.le_refl _, fun s hs _ =>
      ⟨s, hs, rfl, rfl, fun _ h => h, fun _ _ _ => Int.le_refl _⟩⟩
  | lose tx => exact ⟨hw.close tx, goes_close w tx⟩
  | other db hl =>
    refine ⟨⟨hw.ids, hw.past, hw.one, hw.exclusive⟩, Nat.le_refl _, fun s hs _ =>
      ⟨s, hs, rfl, rfl, fun _ h => h, fun ref _ T => ?_⟩⟩
    unfold readAvailableBalance
    rw [hl]

/-! ## Runs -/

/-- A payout that commits, which is when the database changes, takes no more than what is available just before, and leaves
nothing below zero. -/
def CommitCovered (m : Moment TxWorld LedgerCall TxOp TxOp.Res (Option Err)) : Prop :=
  ∀ tx p, m.op = .insertWithDebit tx p → m.after.db ≠ m.before.world.db →
    p.amountKopecks ≤ readAvailableBalance m.before.world.clock p.partner m.before.world.db ∧
    0 ≤ readAvailableBalance m.after.clock p.partner m.after.db

/-- What a commit does, when it does anything. -/
theorem TxOp.Exec.commits {w w' : TxWorld} {tx : ℕ} {p : Payout} {r : Except Err Payout}
    (he : TxOp.Exec hashtext (.insertWithDebit tx p) w r w') (hdb : w'.db ≠ w.db) :
    ∃ s ∈ w.sessions, s.id = tx ∧ w'.clock = w.clock ∧ ∃ now id,
      w.db.ledger.insert ((PayoutRepo.debit (PayoutRepo.row now id p)).row now w.db) = .ok w'.db.ledger := by
  obtain ⟨env, he⟩ := he
  have hw' : w' = (attempt hashtext env.uuid (.insertWithDebit tx p) w).2 := by
    have hsnd : ((env.fault (.insertWithDebit tx p)).apply (fun e => e) (attempt hashtext env.uuid (.insertWithDebit tx p)) w).2 =
        w' := congrArg Prod.snd he
    rcases Fault.apply_state (env.fault (.insertWithDebit tx p)) (fun e => e)
      (attempt hashtext env.uuid (.insertWithDebit tx p)) w with h | h
    · exact absurd (by rw [← hsnd, h]) hdb
    · rw [← hsnd, h]
  rw [attempt, within, session] at hw'
  split at hw'
  swap
  · exact absurd (by rw [hw']) hdb
  rename_i s hs
  refine ⟨s, List.mem_of_find?_eq_some hs, by simpa using List.find?_some hs, ?_⟩
  rcases PayoutRepo.insertPending_cases s.began env.uuid p w.db with ⟨e, hi⟩ | ⟨id, t, l, hi, hl⟩
  · rw [hi] at hw'
    exact absurd (by rw [hw']; rfl) hdb
  · rw [hi] at hw'
    rw [hw']
    exact ⟨rfl, s.began, id, hl⟩

/-- **Every payout is covered by what is available when it commits.** -/
theorem payouts_covered (hashtext : String → ℤ) {w₀ : TxWorld} (hw : w₀.sessions = [])
    {tr : List (Moment TxWorld LedgerCall TxOp TxOp.Res (Option Err))} {c : Config TxWorld LedgerCall TxOp TxOp.Res (Option Err)}
    (h : (ledgerSys hashtext).Trace w₀ tr c) : ∀ m ∈ tr, CommitCovered m := by
  refine h.all_of_step (P := fun _ => True) (fun _ _ => trivial) ?_
  rintro tr w w' ts₁ ts₂ c did o k r htr - he - tx p rfl hdb
  have hreach := htr.reach
  -- what the call has read is still a lower bound, for its session still holds the lock
  obtain ⟨hsound, htold⟩ := hreach.told (I := Sound) (R := Goes hashtext) (T := Told hashtext) (K := fun _ _ => True)
    (fun _ _ _ hg ht => ht.goes hg) (fun _ _ _ _ _ => trivial) LedgerCall.prog_prior
    ⟨by simp [hw], by simp [hw], by simp [hw], by simp [hw]⟩ (fun _ _ _ => trivial)
    (fun _ _ _ _ _ _ _ _ _ _ _ hI _ hp ht he => TxOp.exec_steps hI hp ht he) (fun _ _ _ _ hI hm => TxWorld.Moves.goes hI hm)
  obtain ⟨-, htold⟩ := htold ⟨c, did, .call (.insertWithDebit tx p) k⟩ (by simp)
  obtain ⟨-, available, hread, hamt⟩ := ((hreach.after LedgerCall.prog_prior) ⟨c, did, .call (.insertWithDebit tx p) k⟩
    (by simp)).1.1
  obtain ⟨s, hs, hid, hclock, now, id, hl⟩ := TxOp.Exec.commits he hdb
  obtain ⟨-, hle⟩ := (htold _ hread).2 s hs hid
  have hcover : p.amountKopecks ≤ readAvailableBalance w.clock p.partner w.db :=
    hamt.trans (hle.trans (readAvailableBalance_mono (hsound.past s hs) p.partner w.db))
  refine ⟨hcover, ?_⟩
  dsimp only
  rw [hclock, readAvailableBalance_insert hl, if_pos ⟨rfl, rfl⟩]
  have hdebit : (PayoutRepo.debit (PayoutRepo.row now id p)).amountKopecks = -p.amountKopecks := rfl
  omega

end Locks

/-- An operation without a failure. -/
theorem TxOp.exec_attempt {hashtext : String → ℤ} {o : TxOp} {w w' : TxWorld} {r : o.Res}
    (h : o.attempt hashtext "" w = (r, w')) : o.Exec hashtext w r w' :=
  ⟨⟨"", fun _ => .none⟩, by rw [TxOp.run, Fault.apply_none, h]⟩

theorem payouts_covered_sample : ∃ tr c, (ledgerSys fun _ => 0).Trace ⟨samplePayouts, 0, [], 0⟩ tr c ∧
    (∃ m ∈ tr, ∃ tx, m.op = .insertWithDebit tx (samplePayout .unset) ∧ m.after.db ≠ m.before.world.db) ∧
    ∀ m ∈ tr, CommitCovered m := by
  obtain ⟨t, l, l', hacc, hav, hcreate, hrows⟩ := samplePayouts_paid .unset (.inl rfl)
  let w : TxWorld := ⟨{ samplePayouts with ledger := l }, 0, [], 0⟩
  have huuid : isUUID (samplePayout .unset).partner.partnerID = true := by decide
  have h1 : TxOp.Exec (fun _ => 0) (.appendAccrual sampleAccrual) ⟨samplePayouts, 0, [], 0⟩ (.ok ()) w :=
    TxOp.exec_attempt (by rw [TxOp.attempt, hacc])
  have h2 : TxOp.Exec (fun _ => 0) .begin w (.ok w.opened) (w.beganAlone [] []) := TxOp.exec_attempt (begin_alone rfl)
  have h3 : TxOp.Exec (fun _ => 0) (.lock w.opened (samplePayout .unset).partner) (w.beganAlone [] []) (.ok ())
      (w.beganAlone [0] []) := TxOp.exec_attempt (lock_alone _ _)
  have h4 : TxOp.Exec (fun _ => 0) (.readAvailableBalance w.opened (samplePayout .unset).partner) (w.beganAlone [0] [])
      (.ok 85000) (w.beganAlone [0] []) := by
    refine TxOp.exec_attempt ?_
    simp only [TxOp.attempt, TxWorld.within, session_alone, uuidParam_ok huuid, db_alone]
    exact congrArg (fun b : ℤ => (Except.ok b, _)) hav
  have h5 : TxOp.Exec (fun _ => 0) (.insertWithDebit w.opened (samplePayout .unset)) (w.beganAlone [0] [])
      (.ok (PayoutRepo.row 0 (samplePayout .unset).id (samplePayout .unset)))
      ⟨{ samplePayouts with payouts := t, ledger := l' }, 0, [], 1⟩ := by
    refine TxOp.exec_attempt ?_
    have hins := PayoutRepo.insertPending_of_created (hcreate "")
    simp only [TxOp.attempt, TxWorld.within, session_alone, db_alone]
    change TxWorld.committing _ (PayoutRepo.insertPending 0 "" (samplePayout .unset) { samplePayouts with ledger := l }) _ = _
    rw [hins]
    rfl
  have htr := ((((((Sys.Trace.init (S := ledgerSys fun _ => 0)).start (.appendAccrual sampleAccrual) trivial).perform w [] [] _
    h1).start (.createPendingWithLedger (samplePayout .unset)) trivial).perform _ [_] [] _ h2).perform _ [_] [] _ h3).perform
    _ [_] [] _ h4
  have hlast := htr.perform _ [_] [] _ h5
  refine ⟨_, _, hlast, ⟨_, List.mem_append_right _ (List.mem_singleton.2 rfl), w.opened, rfl, fun h => ?_⟩,
    payouts_covered _ rfl hlast⟩
  have hpay : t.rows = [] := by
    rw [show t = samplePayouts.payouts from congrArg PaymentDB.payouts h]
    exact samplePayouts_opening.payouts
  rw [hrows] at hpay
  cases hpay

end Agregator
