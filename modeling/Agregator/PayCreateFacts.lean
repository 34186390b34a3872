import Agregator.PayClaim
/-!
# PayCreateFacts — what the calls of a creation do

What every call keeps (`Exec.goes`, `Exec.sound`), who charges (`Exec.charges`), and what an answer says: that a claim found no
row of its key, that a lock is held, that a row was read as it is.
-/
namespace Agregator

open Rel Conc

/-! ## The operations -/

/-- What every operation keeps: the rows with their keys and amounts, and the sessions with their locks. -/
structure CreateWorld.Goes (w w' : CreateWorld) : Prop where
  opened : w.opened ≤ w'.opened
  rows : ∀ p ∈ w.db.payments.rows, ∃ p' ∈ w'.db.payments.rows, p'.idempotencyKey = p.idempotencyKey ∧ p'.amount = p.amount
  sessions : ∀ s' ∈ w'.sessions, (∃ s ∈ w.sessions, s.id = s'.id ∧ ∀ l ∈ s.locks, l ∈ s'.locks) ∨ w.opened ≤ s'.id

/-- Two sessions differ in their ids, and hold no lock together. -/
structure CreateWorld.Sound (w : CreateWorld) : Prop where
  opened : ∀ s ∈ w.sessions, s.id < w.opened
  apart : w.sessions.Pairwise fun s s' => s.id ≠ s'.id ∧ ∀ l ∈ s.locks, l ∉ s'.locks

namespace CreateWorld

variable {w w' : CreateWorld}

theorem Goes.refl (w : CreateWorld) : w.Goes w :=
  ⟨Nat.le_refl _, fun p hp => ⟨p, hp, rfl, rfl⟩, fun s hs => .inl ⟨s, hs, rfl, fun _ h => h⟩⟩

theorem Goes.of_db {db : PaymentDB} (h : ∀ p ∈ w.db.payments.rows, ∃ p' ∈ db.payments.rows,
    p'.idempotencyKey = p.idempotencyKey ∧ p'.amount = p.amount) : w.Goes { w with db := db } :=
  ⟨Nat.le_refl _, h, fun s hs => .inl ⟨s, hs, rfl, fun _ h => h⟩⟩

theorem goes_close (w : CreateWorld) (tx : ℕ) : w.Goes (w.close tx) :=
  ⟨Nat.le_refl _, fun p hp => ⟨p, hp, rfl, rfl⟩, fun s hs => .inl ⟨s, (List.mem_filter.1 hs).1, rfl, fun _ h => h⟩⟩

theorem Goes.close (h : w.Goes w') (tx : ℕ) : w.Goes (w'.close tx) :=
  ⟨h.opened, h.rows, fun s hs => h.sessions s (List.mem_filter.1 hs).1⟩

theorem Sound.close (h : w.Sound) (tx : ℕ) : (w.close tx).Sound :=
  ⟨fun s hs => h.opened s (List.mem_filter.1 hs).1, h.apart.filter _⟩

theorem goes_grant (w : CreateWorld) (tx : ℕ) (lock : ℤ) : w.Goes (w.grant tx lock) := by
  refine ⟨Nat.le_refl _, fun p hp => ⟨p, hp, rfl, rfl⟩, fun s' hs' => ?_⟩
  obtain ⟨s, hs, rfl⟩ := List.mem_map.1 hs'
  refine .inl ⟨s, hs, ?_, fun l hl => ?_⟩
  · split <;> rfl
  · split
    · exact List.mem_cons_of_mem _ hl
    · exact hl

/-- **A lock is granted to one session only.** -/
theorem Sound.grant (h : w.Sound) {tx : ℕ} {lock : ℤ} (hfree : w.lockedOut tx lock = false) : (w.grant tx lock).Sound := by
  have hout : ∀ s ∈ w.sessions, s.id ≠ tx → lock ∉ s.locks := by
    intro s hs hne hl
    have : w.lockedOut tx lock = true := List.any_eq_true.2 ⟨s, hs, by simp [hne, hl]⟩
    rw [hfree] at this
    cases this
  constructor
  · intro s' hs'
    obtain ⟨s, hs, rfl⟩ := List.mem_map.1 hs'
    have := h.opened s hs
    split <;> exact this
  · refine List.pairwise_map.2 (List.Pairwise.imp_of_mem ?_ h.apart)
    intro s s' hs hs' ⟨hne, hl⟩
    by_cases h1 : s.id = tx
    · have h2 : ¬ s'.id = tx := fun h2 => hne (h1.trans h2.symm)
      rw [if_pos h1, if_neg h2]
      refine ⟨hne, fun l hm => ?_⟩
      rcases List.mem_cons.1 hm with rfl | hm
      · exact hout s' hs' h2
      · exact hl l hm
    · rw [if_neg h1]
      by_cases h2 : s'.id = tx
      · rw [if_pos h2]
        refine ⟨hne, fun l hm hm' => ?_⟩
        rcases List.mem_cons.1 hm' with rfl | hm'
        · exact hout s hs h1 hm
        · exact hl l hm hm'
      · rw [if_neg h2]
        exact ⟨hne, hl⟩

theorem lives_iff {tx : ℕ} : w.lives tx = true ↔ ∃ s ∈ w.sessions, s.id = tx := by
  simp [lives]

/-- A session that is gone stays gone. -/
theorem Goes.lives (h : w.Goes w') {tx : ℕ} (htx : tx < w.opened) (hl : w'.lives tx = true) : w.lives tx = true := by
  obtain ⟨s', hs', rfl⟩ := lives_iff.1 hl
  rcases h.sessions s' hs' with ⟨s, hs, hid, -⟩ | hle
  · exact lives_iff.2 ⟨s, hs, hid⟩
  · omega

end CreateWorld

/-- The row the key has been claimed by. -/
def CreateWorld.HasRow (w : CreateWorld) (key : String) (amount : ℤ) : Prop :=
  ∃ p ∈ w.db.payments.rows, p.idempotencyKey = key ∧ p.amount = amount

theorem CreateWorld.Goes.hasRow {w w' : CreateWorld} (h : w.Goes w') {key : String} {amount : ℤ} (hr : w.HasRow key amount) :
    w'.HasRow key amount := by
  obtain ⟨p, hp, hk, ha⟩ := hr
  obtain ⟨p', hp', hk', ha'⟩ := h.rows p hp
  exact ⟨p', hp', hk'.trans hk, ha'.trans ha⟩

namespace PaymentRepo

theorem createIdempotent_rows (now : Time) (newID : String) (p : Payment) (db : PaymentDB) :
    ∀ x ∈ db.payments.rows, x ∈ (createIdempotent now newID p db).2.payments.rows := by
  intro x hx
  rcases createIdempotent_cases now newID p db with ⟨e, h⟩ | ⟨h, -⟩ | ⟨t, h, hrows, -⟩
  · rw [h]
    exact hx
  · rw [h]
    exact hx
  · rw [h]
    simp [hrows, hx]

/-- The provider's id goes to a row, whose key and amount stay. -/
theorem setProviderInfo_rows {now : Time} {id pid url : String} {db db' : PaymentDB}
    (h : setProviderInfo now id pid url db = .ok (some db')) :
    ∀ x ∈ db.payments.rows, ∃ x' ∈ db'.payments.rows, x'.idempotencyKey = x.idempotencyKey ∧ x'.amount = x.amount := by
  rcases setProviderInfo_cases now id pid url db with ⟨e, he⟩ | ⟨he, -⟩ | ⟨t, he, hrows⟩
  · rw [he] at h
    cases h
  · rw [he] at h
    cases h
  · rw [he] at h
    cases h
    intro x hx
    refine ⟨_, by rw [hrows]; exact List.mem_map.2 ⟨x, hx, rfl⟩, ?_⟩
    split <;> exact ⟨rfl, rfl⟩

end PaymentRepo

namespace CreateOp

variable {hashtext : String → ℤ} {env : CreateEnv} {w w' : CreateWorld}

theorem within_cases {α : Type} (tx : ℕ) (f : CreateWorld → Except Err α × CreateWorld) (w : CreateWorld) :
    (w.lives tx = true ∧ w.within tx f = f w) ∨ (w.lives tx = false ∧ w.within tx f = (.error sessionLost, w)) := by
  unfold CreateWorld.within
  cases w.lives tx with
  | true => exact .inl ⟨rfl, rfl⟩
  | false => exact .inr ⟨rfl, rfl⟩

/-- A statement that answers has found its session alive. -/
theorem of_within {α : Type} {tx : ℕ} {f : CreateWorld → Except Err α × CreateWorld} {a : α}
    (h : w.within tx f = (.ok a, w')) : f w = (.ok a, w') := by
  rcases within_cases tx f w with ⟨-, hw⟩ | ⟨-, hw⟩ <;> rw [hw] at h
  · exact h
  · cases h

theorem attempt_goes (o : CreateOp) (w : CreateWorld) : w.Goes (o.attempt hashtext env w).2 := by
  cases o with
  | createIdempotent p => exact .of_db fun x hx => ⟨x, PaymentRepo.createIdempotent_rows _ _ p _ x hx, rfl, rfl⟩
  | getByIdempotencyKey key => exact .refl w
  | updateProviderInfo id pid url =>
    refine .of_db fun x hx => ?_
    unfold PaymentRepo.updateProviderInfo
    split
    · exact ⟨x, hx, rfl, rfl⟩
    · exact ⟨x, hx, rfl, rfl⟩
    · rename_i h
      exact PaymentRepo.setProviderInfo_rows h x hx
  | begin =>
    refine ⟨Nat.le_succ _, fun p hp => ⟨p, hp, rfl, rfl⟩, fun s hs => ?_⟩
    rcases List.mem_append.1 hs with hs | hs
    · exact .inl ⟨s, hs, rfl, fun _ h => h⟩
    · rw [List.mem_singleton.1 hs]
      exact .inr (Nat.le_refl _)
  | lock tx key =>
    simp only [attempt]
    rcases within_cases tx _ w with ⟨-, h⟩ | ⟨-, h⟩ <;> rw [h]
    · split
      · exact .refl w
      · exact w.goes_grant tx _
    · exact .refl w
  | readLocked tx key =>
    simp only [attempt]
    rcases within_cases tx _ w with ⟨-, h⟩ | ⟨-, h⟩ <;> rw [h]
    · split <;> exact .refl w
    · exact .refl w
  | storeLocked tx id pid url =>
    simp only [attempt]
    rcases within_cases tx _ w with ⟨-, h⟩ | ⟨-, h⟩ <;> rw [h]
    · split
      · exact .refl w
      · exact .refl w
      · rename_i h'
        exact (CreateWorld.Goes.of_db (PaymentRepo.setProviderInfo_rows h')).close tx
    · exact .refl w
  | commit tx =>
    simp only [attempt]
    rcases within_cases tx _ w with ⟨-, h⟩ | ⟨-, h⟩ <;> rw [h]
    · exact w.goes_close tx
    · exact .refl w
  | rollback tx => exact w.goes_close tx
  | createPayment req => exact ⟨Nat.le_refl _, fun p hp => ⟨p, hp, rfl, rfl⟩, fun s hs => .inl ⟨s, hs, rfl, fun _ h => h⟩⟩

theorem attempt_sound (o : CreateOp) (h : w.Sound) : (o.attempt hashtext env w).2.Sound := by
  cases o with
  | createIdempotent p => exact ⟨h.opened, h.apart⟩
  | getByIdempotencyKey key => exact h
  | updateProviderInfo id pid url => exact ⟨h.opened, h.apart⟩
  | begin =>
    constructor
    · intro s hs
      rcases List.mem_append.1 hs with hs | hs
      · exact Nat.lt_succ_of_lt (h.opened s hs)
      · rw [List.mem_singleton.1 hs]
        exact Nat.lt_succ_self _
    · refine List.pairwise_append.2 ⟨h.apart, by simp, fun s hs s' hs' => ?_⟩
      rw [List.mem_singleton.1 hs']
      exact ⟨Nat.ne_of_lt (h.opened s hs), fun _ _ => by simp⟩
  | lock tx key =>
    simp only [attempt]
    rcases within_cases tx _ w with ⟨-, hw⟩ | ⟨-, hw⟩ <;> rw [hw]
    · split
      · exact h
      · rename_i hfree
        exact h.grant (by simpa using hfree)
    · exact h
  | readLocked tx key =>
    simp only [attempt]
    rcases within_cases tx _ w with ⟨-, hw⟩ | ⟨-, hw⟩ <;> rw [hw]
    · split <;> exact h
    · exact h
  | storeLocked tx id pid url =>
    simp only [attempt]
    rcases within_cases tx _ w with ⟨-, hw⟩ | ⟨-, hw⟩ <;> rw [hw]
    · split
      · exact h
      · exact h
      · rename_i db _
        exact CreateWorld.Sound.close (w := { w with db := db }) ⟨h.opened, h.apart⟩ tx
    · exact h
  | commit tx =>
    simp only [attempt]
    rcases within_cases tx _ w with ⟨-, hw⟩ | ⟨-, hw⟩ <;> rw [hw]
    · exact h.close tx
    · exact h
  | rollback tx => exact h.close tx
  | createPayment req => exact ⟨h.opened, h.apart⟩

/-- **What an operation does to the database**: nothing, a claim, or the provider's id stored. -/
theorem attempt_db (hashtext : String → ℤ) (env : CreateEnv) (o : CreateOp) (w : CreateWorld) : (o.attempt hashtext env w).2.db = w.db ∨
    (∃ p, o = .createIdempotent p ∧ (o.attempt hashtext env w).2.db = (PaymentRepo.createIdempotent env.now env.newID p w.db).2) ∨
    ∃ id pid url db, PaymentRepo.setProviderInfo env.now id pid url w.db = .ok (some db) ∧
      (o.attempt hashtext env w).2.db = db := by
  cases o with
  | createIdempotent p => exact .inr (.inl ⟨p, rfl, rfl⟩)
  | updateProviderInfo id pid url =>
    simp only [attempt, onCreate, PaymentRepo.updateProviderInfo]
    split
    · exact .inl rfl
    · exact .inl rfl
    · rename_i db h
      exact .inr (.inr ⟨id, pid, url, db, h, rfl⟩)
  | storeLocked tx id pid url =>
    simp only [attempt]
    rcases within_cases tx _ w with ⟨-, h⟩ | ⟨-, h⟩ <;> rw [h]
    · split
      · exact .inl rfl
      · exact .inl rfl
      · rename_i db h'
        exact .inr (.inr ⟨id, pid, url, db, h', rfl⟩)
    · exact .inl rfl
  | lock tx key =>
    simp only [attempt]
    rcases within_cases tx _ w with ⟨-, h⟩ | ⟨-, h⟩ <;> rw [h]
    · split <;> exact .inl rfl
    · exact .inl rfl
  | readLocked tx key =>
    simp only [attempt]
    rcases within_cases tx _ w with ⟨-, h⟩ | ⟨-, h⟩ <;> rw [h]
    · split <;> exact .inl rfl
    · exact .inl rfl
  | commit tx =>
    simp only [attempt]
    rcases within_cases tx _ w with ⟨-, h⟩ | ⟨-, h⟩ <;> rw [h] <;> exact .inl rfl
  | getByIdempotencyKey key => exact .inl rfl
  | begin => exact .inl rfl
  | rollback tx => exact .inl rfl
  | createPayment req => exact .inl rfl

namespace Exec

variable {o : CreateOp} {r : o.Res}

/-- The state after a call is the one before it, or what the call makes of it. -/
theorem state (h : Exec hashtext o w r w') : w' = w ∨ ∃ env, w' = (o.attempt hashtext env w).2 := by
  obtain ⟨env, h⟩ := h
  have hw : w' = ((env.fault o).apply id (o.attempt hashtext env) w).2 := (congrArg Prod.snd h).symm
  rcases (env.fault o).apply_state id (o.attempt hashtext env) w with hs | hs
  · exact .inl (hw.trans hs)
  · exact .inr ⟨env, hw.trans hs⟩

theorem goes (h : Exec hashtext o w r w') : w.Goes w' := by
  rcases h.state with rfl | ⟨env, rfl⟩
  · exact .refl w'
  · exact attempt_goes o w

theorem sound (h : Exec hashtext o w r w') (hw : w.Sound) : w'.Sound := by
  rcases h.state with rfl | ⟨env, rfl⟩
  · exact hw
  · exact attempt_sound o hw

/-- Only the call to the provider charges. -/
theorem charges (h : Exec hashtext o w r w') : w'.charges = w.charges ∨
    ∃ req, o = .createPayment req ∧ w' = { w with charges := w.charges ++ [req] } := by
  rcases h.state with rfl | ⟨env, rfl⟩
  · exact .inl rfl
  cases o with
  | createPayment req => exact .inr ⟨req, rfl, rfl⟩
  | lock tx key =>
    simp only [attempt]
    rcases within_cases tx _ w with ⟨-, h⟩ | ⟨-, h⟩ <;> rw [h]
    · split <;> exact .inl rfl
    · exact .inl rfl
  | readLocked tx key =>
    simp only [attempt]
    rcases within_cases tx _ w with ⟨-, h⟩ | ⟨-, h⟩ <;> rw [h]
    · split <;> exact .inl rfl
    · exact .inl rfl
  | storeLocked tx id pid url =>
    simp only [attempt]
    rcases within_cases tx _ w with ⟨-, h⟩ | ⟨-, h⟩ <;> rw [h]
    · split <;> exact .inl rfl
    · exact .inl rfl
  | commit tx =>
    simp only [attempt]
    rcases within_cases tx _ w with ⟨-, h⟩ | ⟨-, h⟩ <;> rw [h] <;> exact .inl rfl
  | createIdempotent p => exact .inl rfl
  | getByIdempotencyKey key => exact .inl rfl
  | updateProviderInfo id pid url => exact .inl rfl
  | begin => exact .inl rfl
  | rollback tx => exact .inl rfl

/-- A claim finds no row of its key, and leaves one. -/
theorem claimed {p row : Payment} (h : Exec hashtext (.createIdempotent p) w (.ok (true, row)) w') :
    (¬ ∃ a, w.HasRow p.idempotencyKey a) ∧ w'.HasRow p.idempotencyKey p.amount := by
  obtain ⟨env, h⟩ := h
  have hrun := Fault.of_ok h
  simp only [attempt, onCreate] at hrun
  rcases PaymentRepo.createIdempotent_cases env.now env.newID p w.db with ⟨e, he⟩ | ⟨he, -⟩ | ⟨t, he, hrows, hno⟩
  · rw [he] at hrun
    cases hrun
  · rw [he] at hrun
    cases hrun
  · rw [he] at hrun
    cases hrun
    refine ⟨fun ⟨a, x, hx, hk, _⟩ => hno x hx hk, PaymentRepo.newRow env.now env.newID p, ?_, rfl, rfl⟩
    rw [hrows]
    simp

theorem began {tx : ℕ} (h : Exec hashtext .begin w (.ok tx) w') : ¬ tx < w.opened ∧ tx < w'.opened := by
  obtain ⟨env, h⟩ := h
  have hrun := Fault.of_ok h
  cases hrun
  exact ⟨Nat.lt_irrefl _, Nat.lt_succ_self _⟩

/-- A lock that is granted is held. -/
theorem granted {tx : ℕ} {key : String} (h : Exec hashtext (.lock tx key) w (.ok ()) w') :
    ∀ s ∈ w'.sessions, s.id = tx → hashtext key ∈ s.locks := by
  obtain ⟨env, h⟩ := h
  have hrun := Fault.of_ok h
  simp only [attempt] at hrun
  have hw := of_within hrun
  split at hw
  · cases hw
  · cases hw
    intro s' hs' hid
    obtain ⟨s, -, rfl⟩ := List.mem_map.1 hs'
    by_cases hs : s.id = tx
    · rw [if_pos hs]
      exact List.mem_cons_self
    · rw [if_neg hs] at hid
      exact absurd hid hs

theorem read {tx : ℕ} {key : String} {row : Payment} (h : Exec hashtext (.readLocked tx key) w (.ok row) w') :
    w' = w ∧ row ∈ w.db.payments.rows ∧ row.idempotencyKey = key := by
  obtain ⟨env, h⟩ := h
  have hrun := Fault.of_ok h
  simp only [attempt] at hrun
  have hw := of_within hrun
  split at hw
  · rename_i p hp
    cases hw
    exact ⟨rfl, (Table.get_mem hp).1, by simpa using (Table.get_mem hp).2⟩
  · cases hw

end Exec

end CreateOp

end Agregator
