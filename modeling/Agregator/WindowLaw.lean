import Mathlib.Data.Int.Order.Basic
import Mathlib.Data.List.Induction
/-!
# WindowLaw — at most so many calls in any window

A limiter answers calls that come in time order.  The law of a sliding window is about every interval of the window's length;
it is checked at the calls alone (`law_iff`): a call that passes finds fewer than the limit in the window that ends with it.
-/
namespace WindowLaw

/-- A call, how many calls the limiter held against it, and the answer if the caller got one. -/
structure Decision (κ : Type) where
  time : ℤ
  key : κ
  found : ℤ
  answer : Option Bool
deriving DecidableEq, Repr

variable {κ σ ε : Type} [DecidableEq κ]

def letThrough (log : List (Decision κ)) (key : κ) (a b : ℤ) : ℕ :=
  log.countP fun d => d.key == key && d.answer == some true && decide (a ≤ d.time) && decide (d.time < b)

def made (log : List (Decision κ)) (key : κ) (a b : ℤ) : ℕ :=
  log.countP fun d => d.key == key && decide (a ≤ d.time) && decide (d.time < b)

/-- **The window law**: an interval as long as the window has no more calls let through than the limit, and a call is refused
only if as many were made in the window before it. -/
structure Law (limit length : κ → ℤ) (log : List (Decision κ)) : Prop where
  bounded : ∀ key a, letThrough log key a (a + length key) ≤ limit key
  refused : ∀ before d after, log = before ++ d :: after → d.answer = some false →
    limit d.key ≤ made before d.key (d.time - length d.key) (d.time + 1)

/-- What the law asks of a call after the calls before it. -/
structure Fits (limit length : κ → ℤ) (before : List (Decision κ)) (d : Decision κ) : Prop where
  room : d.answer = some true → letThrough before d.key (d.time - length d.key + 1) (d.time + 1) < limit d.key
  full : d.answer = some false → limit d.key ≤ made before d.key (d.time - length d.key) (d.time + 1)

/-- In time order. -/
def Ordered (log : List (Decision κ)) : Prop := log.Pairwise fun d e => d.time ≤ e.time

variable {limit length : κ → ℤ} {log before after : List (Decision κ)} {d : Decision κ} {key : κ} {a b c : ℤ}

@[simp] theorem letThrough_nil : letThrough ([] : List (Decision κ)) key a b = 0 := rfl

theorem letThrough_append : letThrough (before ++ after) key a b = letThrough before key a b + letThrough after key a b :=
  List.countP_append

theorem made_append : made (before ++ after) key a b = made before key a b + made after key a b := List.countP_append

theorem letThrough_one (hkey : d.key = key) (ha : a ≤ d.time) (hb : d.time < b) :
    letThrough [d] key a b = if d.answer = some true then 1 else 0 := by
  by_cases hok : d.answer = some true
  · simp [letThrough, hkey, ha, hb, hok]
  · simp [letThrough, hok]

theorem made_one (hkey : d.key = key) (ha : a ≤ d.time) (hb : d.time < b) : made [d] key a b = 1 := by
  simp [made, hkey, ha, hb]

theorem letThrough_other (hkey : d.key ≠ key) : letThrough [d] key a b = 0 := by simp [letThrough, hkey]

theorem made_other (hkey : d.key ≠ key) : made [d] key a b = 0 := by simp [made, hkey]

/-- An interval that takes in the calls of another one. -/
theorem letThrough_le (log : List (Decision κ)) (key : κ) {a' b' : ℤ} (h : ∀ d ∈ log, a ≤ d.time → d.time < b → a' ≤ d.time ∧ d.time < b') :
    letThrough log key a b ≤ letThrough log key a' b' := by
  refine List.countP_mono_left fun d hd hp => ?_
  simp only [Bool.and_eq_true, decide_eq_true_eq] at hp ⊢
  have hin := h d hd hp.1.2 hp.2
  exact ⟨⟨hp.1.1, hin.1⟩, hin.2⟩

theorem made_le (log : List (Decision κ)) (key : κ) {a' b' : ℤ} (h : ∀ d ∈ log, a ≤ d.time → d.time < b → a' ≤ d.time ∧ d.time < b') :
    made log key a b ≤ made log key a' b' := by
  refine List.countP_mono_left fun d hd hp => ?_
  simp only [Bool.and_eq_true, decide_eq_true_eq] at hp ⊢
  have hin := h d hd hp.1.2 hp.2
  exact ⟨⟨hp.1.1, hin.1⟩, hin.2⟩

theorem letThrough_le_made (log : List (Decision κ)) (key : κ) (a b : ℤ) : letThrough log key a b ≤ made log key a b := by
  refine List.countP_mono_left fun d _ hp => ?_
  simp only [Bool.and_eq_true] at hp ⊢
  exact ⟨⟨hp.1.1.1, hp.1.2⟩, hp.2⟩

theorem letThrough_empty (log : List (Decision κ)) (key : κ) (hab : b ≤ a) : letThrough log key a b = 0 := by
  rw [letThrough, List.countP_eq_zero]
  intro d _ hd
  simp only [Bool.and_eq_true, decide_eq_true_eq] at hd
  omega

/-- An interval cut in two. -/
theorem letThrough_split (log : List (Decision κ)) (key : κ) (hab : a ≤ b) (hbc : b ≤ c) :
    letThrough log key a c = letThrough log key a b + letThrough log key b c := by
  induction log with
  | nil => rfl
  | cons d log ih =>
    simp only [letThrough, List.countP_cons] at ih ⊢
    rw [ih]
    by_cases hk : d.key = key ∧ d.answer = some true
    · simp only [hk.1, hk.2, beq_self_eq_true, Bool.true_and]
      by_cases hlt : d.time < b
      · have hc : d.time < c := by omega
        have hge : ¬ b ≤ d.time := by omega
        simp only [hlt, hc, hge, decide_true, decide_false, Bool.and_true, Bool.false_eq_true, if_false]
        omega
      · have ha : a ≤ d.time := by omega
        have hge : b ≤ d.time := by omega
        simp only [hlt, ha, hge, decide_true, decide_false, Bool.true_and, Bool.and_false, Bool.false_eq_true, if_false]
        omega
    · have hno : (d.key == key && d.answer == some true) = false := by
        rw [Bool.eq_false_iff]
        simpa using hk
      simp [hno]

/-- **The law is checked at the calls.** -/
theorem law_iff (hlimit : ∀ key, 1 ≤ limit key) (hord : Ordered log) :
    Law limit length log ↔ ∀ before d after, log = before ++ d :: after → Fits limit length before d := by
  constructor
  · intro h before d after hlog
    refine ⟨fun hok => ?_, h.refused before d after hlog⟩
    have hb := h.bounded d.key (d.time - length d.key + 1)
    rw [show d.time - length d.key + 1 + length d.key = d.time + 1 by omega, hlog, List.append_cons, letThrough_append,
      letThrough_append] at hb
    by_cases hpos : 1 ≤ length d.key
    · -- the call itself lies in the interval that ends with it
      rw [letThrough_one rfl (by omega) (by omega), if_pos hok] at hb
      omega
    · have hempty : letThrough before d.key (d.time - length d.key + 1) (d.time + 1) = 0 :=
        letThrough_empty before d.key (by omega)
      have := hlimit d.key
      omega
  · intro h
    refine ⟨fun key a => ?_, fun before d after hlog => (h before d after hlog).full⟩
    -- by induction on the log from its end: the last call of the interval has the others in the window that ends with it
    induction log using List.reverseRecOn with
    | nil =>
      have := hlimit key
      simp only [letThrough_nil]
      omega
    | append_singleton log d ih =>
      have hord' := List.pairwise_append.1 hord
      have hle := ih hord'.1 fun before e after hlog => h before e (after ++ [d]) (by simp [hlog])
      rw [letThrough_append]
      by_cases hin : d.key = key ∧ a ≤ d.time ∧ d.time < a + length key
      · obtain ⟨rfl, ha, hb⟩ := hin
        rw [letThrough_one rfl ha hb]
        by_cases hok : d.answer = some true
        · have hroom := (h log d [] rfl).room hok
          have hsub : letThrough log d.key a (a + length d.key) ≤
              letThrough log d.key (d.time - length d.key + 1) (d.time + 1) :=
            letThrough_le log d.key fun e he _ _ => by
              have := hord'.2.2 e he d (List.mem_singleton.2 rfl)
              omega
          rw [if_pos hok]
          omega
        · rw [if_neg hok]
          omega
      · have hout : letThrough [d] key a (a + length key) = 0 := by
          rw [letThrough, List.countP_eq_zero]
          intro e he hp
          rw [List.mem_singleton.1 he] at hp
          simp only [Bool.and_eq_true, decide_eq_true_eq, beq_iff_eq] at hp
          exact hin ⟨hp.1.1.1, hp.1.2, hp.2⟩
        rw [hout]
        omega

/-! ## Runs -/

section Runs

omit [DecidableEq κ]

variable (serve : ε → σ → σ × List (Decision κ))

/-- The state after the events and the calls decided in them. -/
def run (s : σ) (events : List ε) : σ × List (Decision κ) :=
  events.foldl (fun p e => ((serve e p.1).1, p.2 ++ (serve e p.1).2)) (s, [])

theorem run_snoc (s : σ) (events : List ε) (e : ε) :
    run serve s (events ++ [e]) =
      ((serve e (run serve s events).1).1, (run serve s events).2 ++ (serve e (run serve s events).1).2) := by
  simp only [run, List.foldl_append, List.foldl_cons, List.foldl_nil]

theorem run_append (s : σ) (events events' : List ε) :
    (run serve s (events ++ events')).2 = (run serve s events).2 ++ (run serve (run serve s events).1 events').2 := by
  induction events' using List.reverseRecOn with
  | nil => simp [run]
  | append_singleton events' e ih =>
    have hstate : (run serve s (events ++ events')).1 = (run serve (run serve s events).1 events').1 := by
      clear ih
      induction events' using List.reverseRecOn with
      | nil => simp [run]
      | append_singleton events' f ih => rw [← List.append_assoc, run_snoc, run_snoc, ih]
    rw [← List.append_assoc, run_snoc, run_snoc, ih, hstate, List.append_assoc]

/-- **What an invariant gives at every call holds of every call of a run**: an event decides at most one call, at its time. -/
theorem run_inv (serve : ε → σ → σ × List (Decision κ)) (s : σ) (time : ε → ℤ) (Inv : ℤ → List (Decision κ) → σ → Prop)
    (Good : List ε → ε → Prop) (Q : List (Decision κ) → Decision κ → Prop) (hinit : ∀ t, Inv t [] s)
    (hlater : ∀ t u log s, Inv t log s → t ≤ u → Inv u log s)
    (hstep : ∀ before e, Inv (time e) (run serve s before).2 (run serve s before).1 → Good before e →
      (serve e (run serve s before).1).2.length ≤ 1 ∧
      (∀ d ∈ (serve e (run serve s before).1).2, d.time = time e ∧ Q (run serve s before).2 d) ∧
      Inv (time e) ((run serve s before).2 ++ (serve e (run serve s before).1).2) (serve e (run serve s before).1).1)
    {events : List ε} (hord : events.Pairwise fun e f => time e ≤ time f)
    (hgood : ∀ before e after, events = before ++ e :: after → Good before e) :
    (∀ u, (∀ e ∈ events, time e ≤ u) → Inv u (run serve s events).2 (run serve s events).1) ∧
      (∀ d ∈ (run serve s events).2, ∃ e ∈ events, d.time = time e) ∧ Ordered (run serve s events).2 ∧
      ∀ before d after, (run serve s events).2 = before ++ d :: after → Q before d := by
  induction events using List.reverseRecOn with
  | nil => exact ⟨fun u _ => hinit u, by simp [run], List.Pairwise.nil, by simp [run]⟩
  | append_singleton events e ih =>
    have hord' := List.pairwise_append.1 hord
    obtain ⟨hinv, htimes, hsorted, hall⟩ :=
      ih hord'.1 fun before f after hev => hgood before f (after ++ [e]) (by simp [hev])
    have hbefore : ∀ f ∈ events, time f ≤ time e := fun f hf => hord'.2.2 f hf e (List.mem_singleton.2 rfl)
    obtain ⟨hone, hdec, hnext⟩ := hstep events e (hinv _ hbefore) (hgood events e [] (by simp))
    rw [run_snoc]
    refine ⟨fun u hu => hlater _ u _ _ hnext (hu e (by simp)), ?_, ?_, ?_⟩
    · intro d hd
      rcases List.mem_append.1 hd with hd | hd
      · obtain ⟨f, hf, hdf⟩ := htimes d hd
        exact ⟨f, List.mem_append_left _ hf, hdf⟩
      · exact ⟨e, by simp, (hdec d hd).1⟩
    · refine List.pairwise_append.2 ⟨hsorted, ?_, fun d hd d' hd' => ?_⟩
      · match hl : (serve e (run serve s events).1).2, hone with
        | [], _ => exact List.Pairwise.nil
        | [_], _ => exact List.pairwise_singleton _ _
      · obtain ⟨f, hf, hdf⟩ := htimes d hd
        rw [hdf, (hdec d' hd').1]
        exact hbefore f hf
    · intro before d after hlog
      rcases List.append_eq_append_iff.1 hlog with ⟨mid, hb, hd⟩ | ⟨mid, hb, hd⟩
      · -- the call is the one the last event decides
        have hmid : mid = [] := by
          rw [hd] at hone
          simp only [List.length_append, List.length_cons] at hone
          exact List.length_eq_zero_iff.1 (by omega)
        rw [hb, hmid, List.append_nil]
        exact (hdec d (by simp [hd])).2
      · cases mid with
        | nil =>
          rw [List.append_nil] at hb
          rw [← hb]
          exact (hdec d (by simp only [List.nil_append] at hd; simp [← hd])).2
        | cons m mid =>
          simp only [List.cons_append, List.cons.injEq] at hd
          exact hall before d mid (by rw [hb, hd.1])

end Runs

end WindowLaw
