import Mathlib.Logic.Function.Basic
import Mathlib.Data.Nat.Notation
/-!
# ConcLocks — the transactions of a database and the locks they hold

A lock has one holder at most, by construction.  It is held from the statement that takes it until its transaction ends.
-/
namespace Conc

variable {L : Type}

/-- `live` are the open transactions; those below `opened` have been opened. -/
@[ext] structure Locks (L : Type) where
  holder  : L → Option ℕ
  live    : ℕ → Bool
  opened  : ℕ
  live_lt : ∀ tx, live tx = true → tx < opened

namespace Locks

/-- No transaction is open. -/
def idle : Locks L := ⟨fun _ => none, fun _ => false, 0, by simp⟩

/-- `BEGIN`: the transaction `t.opened`. -/
def begin (t : Locks L) : Locks L where
  holder := t.holder
  live := Function.update t.live t.opened true
  opened := t.opened + 1
  live_lt tx h := by
    by_cases htx : tx = t.opened
    · omega
    · rw [Function.update_of_ne htx] at h
      exact Nat.lt_succ_of_lt (t.live_lt tx h)

/-- A transaction need not wait for a lock that nobody else holds. -/
def free (t : Locks L) (tx : ℕ) (l : L) : Bool := t.holder l == none || t.holder l == some tx

/-- No transaction at all holds the lock. -/
def unheld (t : Locks L) (l : L) : Bool := t.holder l == none

def take [DecidableEq L] (t : Locks L) (tx : ℕ) (ls : List L) : Locks L :=
  { t with holder := fun l => if l ∈ ls then some tx else t.holder l }

/-- The end of a transaction. -/
def close (t : Locks L) (tx : ℕ) : Locks L where
  holder l := if t.holder l = some tx then none else t.holder l
  live := Function.update t.live tx false
  opened := t.opened
  live_lt x h := by
    by_cases hx : x = tx
    · rw [hx, Function.update_self] at h
      cases h
    · rw [Function.update_of_ne hx] at h
      exact t.live_lt x h

/-- Transactions that stay open go on holding what they hold, and none is opened a second time. -/
structure Lasts (t t' : Locks L) : Prop where
  opened : t.opened ≤ t'.opened
  live : ∀ tx < t.opened, t'.live tx = true → t.live tx = true
  holds : ∀ tx < t.opened, t'.live tx = true → ∀ l, t.holder l = some tx → t'.holder l = some tx

variable {t : Locks L} {tx : ℕ}

theorem Lasts.refl (t : Locks L) : t.Lasts t := ⟨Nat.le_refl _, fun _ _ h => h, fun _ _ _ _ h => h⟩

theorem begin_lasts (t : Locks L) : t.Lasts t.begin := by
  refine ⟨Nat.le_succ _, fun tx htx h => ?_, fun _ _ _ _ h => h⟩
  have hne : tx ≠ t.opened := by omega
  simpa only [begin, Function.update_of_ne hne] using h

theorem take_lasts [DecidableEq L] {ls : List L} (hfree : ls.all (t.free tx) = true) : t.Lasts (t.take tx ls) := by
  refine ⟨Nat.le_refl _, fun _ _ h => h, fun x _ _ l hl => ?_⟩
  by_cases hmem : l ∈ ls
  · have hx := List.all_eq_true.1 hfree l hmem
    simp only [free, hl, Bool.or_eq_true, beq_iff_eq, reduceCtorEq, Option.some.injEq, false_or] at hx
    simp only [take, if_pos hmem, hx]
  · simpa only [take, if_neg hmem] using hl

theorem close_lasts (t : Locks L) (tx : ℕ) : t.Lasts (t.close tx) := by
  have hne : ∀ x, (t.close tx).live x = true → x ≠ tx := by
    rintro x h rfl
    simp [close] at h
  refine ⟨Nat.le_refl _, fun x _ h => ?_, fun x _ h l hl => ?_⟩
  · simpa only [close, Function.update_of_ne (hne x h)] using h
  · have hx : t.holder l ≠ some tx := by
      rw [hl]
      exact fun he => hne x h (Option.some.inj he)
    simpa only [close, if_neg hx] using hl

@[simp] theorem take_holder [DecidableEq L] (t : Locks L) (tx : ℕ) (ls : List L) (l : L) :
    (t.take tx ls).holder l = if l ∈ ls then some tx else t.holder l := rfl

@[simp] theorem take_live [DecidableEq L] (t : Locks L) (tx : ℕ) (ls : List L) : (t.take tx ls).live = t.live := rfl

@[simp] theorem take_opened [DecidableEq L] (t : Locks L) (tx : ℕ) (ls : List L) : (t.take tx ls).opened = t.opened := rfl

theorem close_live_self (t : Locks L) (tx : ℕ) : (t.close tx).live tx = false := Function.update_self _ _ _

end Locks
end Conc
