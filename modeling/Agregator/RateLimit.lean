import Agregator.ConcProg
import Agregator.WindowLaw
import Mathlib.Logic.Function.Basic
/-!
# RateLimit — the two limiters of the gateway

The log of timestamps in memory, with the pruner, and the counter in Redis.  Durations and instants of the process are in
nanoseconds, the clock of Redis is in milliseconds.
-/
namespace Agregator

open WindowLaw (Decision Law Fits Ordered letThrough made run)
open Conc (Fault)

/-- What a route sets for its keys. -/
structure RateLimitConfig where
  max : ℤ
  window : ℤ
deriving DecidableEq, Repr

def millisecond : ℤ := 1000000

def hour : ℤ := 3600000 * millisecond

/-! ## The limiter in memory -/

/-- The timestamps by key; a key that is not in the map has none. -/
abbrev SlidingWindow := String → List ℤ

namespace SlidingWindow

def new : SlidingWindow := fun _ => []

def kept (now : ℤ) (key : String) (window : ℤ) (l : SlidingWindow) : List ℤ :=
  (l key).filter fun ts => now - window < ts

def allow (now : ℤ) (key : String) (limit window : ℤ) (l : SlidingWindow) : Bool × SlidingWindow :=
  if limit ≤ 0 then (true, l)
  else
    let kept := l.kept now key window
    if limit ≤ kept.length then (false, Function.update l key kept) else (true, Function.update l key (kept ++ [now]))

def prune (now window : ℤ) (l : SlidingWindow) : SlidingWindow := fun k =>
  if (l k).all fun t => !decide (now - window < t) then [] else l k

inductive Event where
  | allow (now : ℤ) (key : String)
  | prune (now : ℤ)
deriving DecidableEq, Repr

def Event.time : Event → ℤ
  | allow now _ => now
  | prune now => now

def serve (cfg : String → RateLimitConfig) : Event → SlidingWindow → SlidingWindow × List (Decision String)
  | .allow now key, l =>
    let (ok, l') := l.allow now key (cfg key).max (cfg key).window
    (l', [⟨now, key, (l.kept now key (cfg key).window).length, some ok⟩])
  | .prune now, l => (l.prune now hour, [])

/-- The calls decided in a run of the process. -/
def log (cfg : String → RateLimitConfig) (events : List Event) : List (Decision String) := (run (serve cfg) new events).2

/-- At a later time, the timestamps still in the window are the calls let through in it. -/
structure Inv (cfg : String → RateLimitConfig) (t : ℤ) (log : List (Decision String)) (l : SlidingWindow) : Prop where
  times : ∀ d ∈ log, d.time ≤ t
  kept : ∀ key now, t ≤ now → ((l.kept now key (cfg key).window).length : ℤ) =
    letThrough log key (now - (cfg key).window + 1) (now + 1)

variable {cfg : String → RateLimitConfig} {t now : ℤ} {log : List (Decision String)} {l : SlidingWindow} {key : String}

theorem kept_update {k : String} {ts : List ℤ} {w : ℤ} :
    SlidingWindow.kept now key w (Function.update l k ts) =
      if key = k then ts.filter (fun ts => now - w < ts) else l.kept now key w := by
  by_cases hk : key = k
  · simp [kept, hk]
  · simp [kept, hk]

/-- What is kept later is kept now. -/
theorem kept_kept {w now' : ℤ} (hle : now ≤ now') :
    (l.kept now key w).filter (fun ts => now' - w < ts) = l.kept now' key w := by
  unfold kept
  rw [List.filter_filter]
  refine List.filter_congr fun ts _ => ?_
  rw [← Bool.decide_and, decide_eq_decide]
  omega

theorem Inv.allow (h : Inv cfg t log l) (ht : t ≤ now) (hmax : 1 ≤ (cfg key).max) :
    Fits (fun k => (cfg k).max) (fun k => (cfg k).window) log
        ⟨now, key, (l.kept now key (cfg key).window).length, some (l.allow now key (cfg key).max (cfg key).window).1⟩ ∧
      Inv cfg now (log ++ [⟨now, key, (l.kept now key (cfg key).window).length,
          some (l.allow now key (cfg key).max (cfg key).window).1⟩])
        (l.allow now key (cfg key).max (cfg key).window).2 := by
  have hlen := h.kept key now ht
  have htimes : ∀ d ∈ log, d.time ≤ now := fun d hd => Int.le_trans (h.times d hd) ht
  have hpos : ¬ (cfg key).max ≤ 0 := by omega
  have hother : ∀ k now', k ≠ key → now ≤ now' → ∀ ts : List ℤ, ∀ d : Decision String, d.key = key →
      ((SlidingWindow.kept now' k (cfg k).window (Function.update l key ts)).length : ℤ) =
        letThrough (log ++ [d]) k (now' - (cfg k).window + 1) (now' + 1) := by
    intro k now' hk hle ts d hd
    rw [kept_update, if_neg hk, WindowLaw.letThrough_append, WindowLaw.letThrough_other (by rw [hd]; exact Ne.symm hk),
      h.kept k now' (Int.le_trans ht hle), Nat.add_zero]
  by_cases hfull : (cfg key).max ≤ (l.kept now key (cfg key).window).length
  · simp only [SlidingWindow.allow, if_neg hpos, if_pos hfull]
    refine ⟨⟨(fun hans => by cases hans), fun _ => ?_⟩, ⟨?_, fun k now' hle => ?_⟩⟩
    · have hmade := WindowLaw.letThrough_le_made log key (now - (cfg key).window + 1) (now + 1)
      have hmore : made log key (now - (cfg key).window + 1) (now + 1) ≤ made log key (now - (cfg key).window) (now + 1) :=
        WindowLaw.made_le log key fun d _ _ _ => by omega
      dsimp only
      omega
    · simpa [or_imp, forall_and] using htimes
    · by_cases hk : k = key
      · subst hk
        rw [kept_update, if_pos rfl, kept_kept hle, h.kept k now' (Int.le_trans ht hle), WindowLaw.letThrough_append]
        simp [letThrough]
      · exact hother k now' hk hle _ _ rfl
  · simp only [SlidingWindow.allow, if_neg hpos, if_neg hfull]
    refine ⟨⟨fun _ => ?_, fun hans => by cases hans⟩, ⟨?_, fun k now' hle => ?_⟩⟩
    · dsimp only
      omega
    · simpa [or_imp, forall_and] using htimes
    · by_cases hk : k = key
      · subst hk
        rw [kept_update, if_pos rfl, List.filter_append, kept_kept hle, List.length_append, WindowLaw.letThrough_append]
        have hprev := h.kept k now' (Int.le_trans ht hle)
        by_cases hin : now' - (cfg k).window < now
        · rw [WindowLaw.letThrough_one rfl (by dsimp only; omega) (by dsimp only; omega)]
          simp only [hin, List.filter_cons, decide_true, if_true, List.filter_nil, List.length_cons, List.length_nil]
          omega
        · have hout : letThrough [(⟨now, k, (l.kept now k (cfg k).window).length, some true⟩ : Decision String)] k
              (now' - (cfg k).window + 1) (now' + 1) = 0 := by
            simp only [letThrough, List.countP_cons, List.countP_nil]
            have : ¬ now' - (cfg k).window + 1 ≤ now := by omega
            simp [this]
          rw [hout]
          simp only [hin, List.filter_cons, decide_false, List.filter_nil, List.length_nil, Bool.false_eq_true, if_false]
          omega
      · exact hother k now' hk hle _ _ rfl

/-- The pruner takes nothing that is in a window of up to an hour. -/
theorem Inv.prune (h : Inv cfg t log l) (ht : t ≤ now) (hwindow : ∀ k, (cfg k).window ≤ hour) :
    Inv cfg now log (l.prune now hour) := by
  refine ⟨fun d hd => Int.le_trans (h.times d hd) ht, fun k now' hle => ?_⟩
  rw [← h.kept k now' (Int.le_trans ht hle)]
  unfold SlidingWindow.kept SlidingWindow.prune
  by_cases hall : ((l k).all fun t => !decide (now - hour < t)) = true
  · have hnone : (l k).filter (fun ts => now' - (cfg k).window < ts) = [] := by
      rw [List.filter_eq_nil_iff]
      intro ts hts
      have hold := List.all_eq_true.1 hall ts hts
      have hle := hwindow k
      simp only [Bool.not_eq_true', decide_eq_false_iff_not] at hold
      simp only [decide_eq_true_eq]
      omega
    rw [if_pos hall, hnone]
    rfl
  · rw [if_neg hall]

/-- **The limiter in memory keeps the window law.** -/
theorem log_law (hmax : ∀ k, 1 ≤ (cfg k).max) (hwindow : ∀ k, (cfg k).window ≤ hour) {events : List Event}
    (hord : events.Pairwise fun e f => e.time ≤ f.time) :
    Law (fun k => (cfg k).max) (fun k => (cfg k).window) (SlidingWindow.log cfg events) := by
  obtain ⟨-, -, hsorted, hfits⟩ := WindowLaw.run_inv (serve cfg) new Event.time (Inv cfg) (fun _ _ => True)
    (Fits (fun k => (cfg k).max) (fun k => (cfg k).window))
    (fun _ => ⟨nofun, fun _ _ _ => rfl⟩)
    (fun t u log l h htu => ⟨fun d hd => Int.le_trans (h.times d hd) htu, fun k now hle => h.kept k now (Int.le_trans htu hle)⟩)
    (fun before e h _ => by
      cases e with
      | allow now key =>
        obtain ⟨hf, hi⟩ := h.allow (le_refl now) (hmax key)
        exact ⟨Nat.le_refl _, fun d hd => by rw [List.mem_singleton.1 hd]; exact ⟨rfl, hf⟩, hi⟩
      | prune now =>
        simp only [serve, List.append_nil]
        exact ⟨Nat.zero_le _, nofun, h.prune (le_refl now) hwindow⟩)
    hord fun _ _ _ _ => trivial
  exact (WindowLaw.law_iff hmax hsorted).2 hfits

end SlidingWindow

/-! ## The limiter in Redis -/

structure Counter where
  value : ℤ
  expireAt : Option ℤ
deriving DecidableEq, Repr

abbrev Redis := String → Option Counter

namespace Redis

/-- A key is gone once its time to live is over. -/
def live (now : ℤ) (k : String) (db : Redis) : Option Counter :=
  (db k).filter fun c => c.expireAt.all fun t => decide (now ≤ t)

def incr (now : ℤ) (k : String) (db : Redis) : ℤ × Redis :=
  let c := (db.live now k).getD ⟨0, none⟩
  (c.value + 1, Function.update db k (some { c with value := c.value + 1 }))

/-- A time to live that is over at once deletes the key. -/
def pexpire (now : ℤ) (k : String) (ttl : ℤ) (db : Redis) : Redis :=
  match db.live now k with
  | none => db
  | some c => Function.update db k (if ttl ≤ 0 then none else some { c with expireAt := some (now + ttl) })

/-- The removal of an expired key by Redis itself. -/
def expire (now : ℤ) (k : String) (db : Redis) : Redis := Function.update db k (db.live now k)

/-- What a key counts at a time. -/
def count (now : ℤ) (k : String) (db : Redis) : ℤ := ((db.live now k).map (·.value)).getD 0

end Redis

namespace RedisLimiter

def script (now : ℤ) (k : String) (max ttl : ℤ) (db : Redis) : ℤ × Redis :=
  let (cur, db) := db.incr now k
  let db := if cur = 1 then db.pexpire now k ttl else db
  (if max < cur then 0 else 1, db)

def allow (now : ℤ) (key : String) (limit window : ℤ) (db : Redis) : Bool × Redis :=
  if limit ≤ 0 ∨ window ≤ 0 then (true, db)
  else
    let (v, db) := script now key limit (window / millisecond) db
    (v == 1, db)

/-- A call, which may fail before the script is run or lose its answer, and the removal of a key by Redis. -/
inductive Event where
  | allow (now : ℤ) (key : String) (fault : Fault Unit)
  | expire (now : ℤ) (key : String)
deriving DecidableEq

def Event.time : Event → ℤ
  | allow now _ _ => now * millisecond
  | expire now _ => now * millisecond

def serve (cfg : String → RateLimitConfig) : Event → Redis → Redis × List (Decision String)
  | .allow now key fault, db =>
    let (ok, db') := allow now key (cfg key).max (cfg key).window db
    if fault.lands then (db', [⟨now * millisecond, key, db.count now key, if fault.answers then some ok else none⟩])
    else (db, [])
  | .expire now key, db => (db.expire now key, [])

def log (cfg : String → RateLimitConfig) (events : List Event) : List (Decision String) :=
  (run (serve cfg) (fun _ => none) events).2

/-- From when on the live counter counts; later than now where there is none. -/
def since (now : ℤ) (key : String) (window : ℤ) (db : Redis) : ℤ :=
  match db.live now key with
  | some ⟨_, some t⟩ => (t - window / millisecond) * millisecond
  | _ => now * millisecond + 1

/-- The calls that found room between two instants. -/
def roomy (log : List (Decision String)) (key : String) (max a b : ℤ) : ℕ :=
  log.countP fun d => d.key == key && decide (d.found < max) && decide (a ≤ d.time) && decide (d.time < b)

/-- **A call finds room only if there is room with the calls of the window that are no longer counted.** -/
def Remembered (cfg : String → RateLimitConfig) (log : List (Decision String)) (db : Redis) : Event → Prop
  | .allow now key _ =>
    db.count now key < (cfg key).max →
      db.count now key + roomy log key (cfg key).max (now * millisecond - (cfg key).window + 1)
        (since now key (cfg key).window db) < (cfg key).max
  | .expire _ _ => True

def Remembers (cfg : String → RateLimitConfig) (events : List Event) : Prop :=
  ∀ before e after, events = before ++ e :: after →
    Remembered cfg (log cfg before) (run (serve cfg) (fun _ => none) before).1 e

def Event.Answered : Event → Prop
  | .allow _ _ fault => fault = .none
  | .expire _ _ => True

/-- A counter is the number of the calls since it was set. -/
structure Counts (cfg : String → RateLimitConfig) (t : ℤ) (log : List (Decision String)) (k : String) (c : Counter) (e : ℤ) :
    Prop where
  timed : c.expireAt = some e
  window : 0 < (cfg k).window
  one : 1 ≤ c.value
  started : (e - (cfg k).window / millisecond) * millisecond ≤ t
  value : c.value = made log k ((e - (cfg k).window / millisecond) * millisecond) (t + 1)
  found : ∀ d ∈ log, d.key = k → (e - (cfg k).window / millisecond) * millisecond ≤ d.time → d.found < c.value

/-- **What the counters say of the calls made.** -/
structure Inv (cfg : String → RateLimitConfig) (t : ℤ) (log : List (Decision String)) (db : Redis) : Prop where
  times : ∀ d ∈ log, d.time ≤ t
  answers : ∀ d ∈ log, d.answer = none ∨ d.answer = some (decide (d.found < (cfg d.key).max))
  counters : ∀ k c, db k = some c → ∃ e, Counts cfg t log k c e
  counted : ∀ d ∈ log, 0 < (cfg d.key).window / millisecond →
    d.time < t ∨ ∃ c e, db d.key = some c ∧ c.expireAt = some e ∧ d.time ≤ e * millisecond

variable {cfg : String → RateLimitConfig} {t now : ℤ} {log : List (Decision String)} {db : Redis} {key : String}

theorem made_later {a b b' : ℤ} (h : ∀ d ∈ log, d.time < b) (hb : b ≤ b') : made log key a b' = made log key a b :=
  Nat.le_antisymm (WindowLaw.made_le _ _ fun d hd ha _ => ⟨ha, h d hd⟩) (WindowLaw.made_le _ _ fun d _ ha h => ⟨ha, by omega⟩)

theorem Inv.later {u : ℤ} (h : Inv cfg t log db) (htu : t ≤ u) : Inv cfg u log db := by
  refine ⟨fun d hd => by have := h.times d hd; omega, h.answers, fun k c hc => ?_, fun d hd hw => ?_⟩
  · obtain ⟨e, hcs⟩ := h.counters k c hc
    refine ⟨e, { hcs with started := Int.le_trans hcs.started htu, value := ?_ }⟩
    rw [made_later (fun d hd => by have := h.times d hd; omega) (show t + 1 ≤ u + 1 by omega)]
    exact hcs.value
  · rcases h.counted d hd hw with hlt | hc
    · exact .inl (by omega)
    · exact .inr hc

theorem live_some {c : Counter} (hlive : db.live now key = some c) :
    db key = some c ∧ ∀ e, c.expireAt = some e → now ≤ e := by
  obtain ⟨hc, hle⟩ := Option.filter_eq_some_iff.1 hlive
  exact ⟨hc, fun e he => by simpa [he] using hle⟩

/-- Where no counter is live, the calls that were counted are over. -/
theorem Inv.over (h : Inv cfg (now * millisecond) log db) (hlive : db.live now key = none)
    (hw : 0 < (cfg key).window / millisecond) : ∀ d ∈ log, d.key = key → d.time < now * millisecond := by
  rintro d hd rfl
  rcases h.counted d hd hw with hlt | ⟨c, e, hc, he, hle⟩
  · exact hlt
  · have hdead : ¬ now ≤ e := by
      intro hne
      simp [Redis.live, hc, he, hne] at hlive
    have : e * millisecond < now * millisecond := by
      unfold millisecond
      omega
    omega

variable {max window : ℤ}

theorem allow_live {c : Counter} (hlive : db.live now key = some c) (hone : 1 ≤ c.value) (hmax : 1 ≤ max)
    (hw : 0 < window) :
    allow now key max window db =
      (decide (c.value < max), Function.update db key (some { c with value := c.value + 1 })) := by
  have hpos : ¬ (max ≤ 0 ∨ window ≤ 0) := by omega
  have hcur : ¬ c.value + 1 = 1 := by omega
  simp only [allow, if_neg hpos, script, Redis.incr, hlive, Option.getD_some, if_neg hcur]
  by_cases hlt : c.value < max
  · have : ¬ max < c.value + 1 := by omega
    simp [hlt, this]
  · have : max < c.value + 1 := by omega
    simp [hlt, this]

theorem allow_new (hlive : db.live now key = none) (hmax : 1 ≤ max) (hw : 0 < window) :
    allow now key max window db =
      (true, Function.update db key
        (if window / millisecond ≤ 0 then none else some ⟨1, some (now + window / millisecond)⟩)) := by
  have hpos : ¬ (max ≤ 0 ∨ window ≤ 0) := by omega
  have hover : ¬ max < 0 + 1 := by omega
  have hset : Redis.live now key (Function.update db key (some ⟨0 + 1, none⟩)) = some ⟨0 + 1, none⟩ := by
    simp [Redis.live]
  rw [Int.zero_add] at hset hover
  simp only [allow, if_neg hpos, script, Redis.incr, hlive, Option.getD_none, Int.zero_add, if_neg hover, if_true,
    Redis.pexpire, hset, Function.update_idem]
  rfl

/-- One key's counter written, with a call to that key. -/
theorem Inv.set (h : Inv cfg t log db) (c' : Option Counter) (d : Decision String) (htime : d.time = t)
    (hans : d.answer = none ∨ d.answer = some (decide (d.found < (cfg d.key).max)))
    (hcounts : ∀ c, c' = some c → ∃ e, Counts cfg t (log ++ [d]) d.key c e)
    (hcounted : 0 < (cfg d.key).window / millisecond → ∀ x ∈ log ++ [d], x.key = d.key →
      x.time < t ∨ ∃ c e, c' = some c ∧ c.expireAt = some e ∧ x.time ≤ e * millisecond) :
    Inv cfg t (log ++ [d]) (Function.update db d.key c') := by
  refine ⟨?_, ?_, fun k c hc => ?_, fun x hx hw => ?_⟩
  · intro x hx
    rcases List.mem_append.1 hx with hx | hx
    · exact h.times x hx
    · rw [List.mem_singleton.1 hx, htime]
  · intro x hx
    rcases List.mem_append.1 hx with hx | hx
    · exact h.answers x hx
    · rw [List.mem_singleton.1 hx]
      exact hans
  · by_cases hk : k = d.key
    · rw [hk, Function.update_self] at hc
      rw [hk]
      exact hcounts c hc
    · rw [Function.update_of_ne hk] at hc
      obtain ⟨e, hcs⟩ := h.counters k c hc
      refine ⟨e, { hcs with value := ?_, found := fun x hx hxk hle => ?_ }⟩
      · rw [WindowLaw.made_append, WindowLaw.made_other (Ne.symm hk), Nat.add_zero]
        exact hcs.value
      · rcases List.mem_append.1 hx with hx | hx
        · exact hcs.found x hx hxk hle
        · rw [List.mem_singleton.1 hx] at hxk
          exact absurd hxk.symm hk
  · by_cases hk : x.key = d.key
    · rw [hk, Function.update_self]
      exact hcounted (hk ▸ hw) x hx hk
    · rw [Function.update_of_ne hk]
      rcases List.mem_append.1 hx with hx | hx
      · exact h.counted x hx hw
      · rw [List.mem_singleton.1 hx] at hk
        exact absurd rfl hk

/-- The call as the log has it. -/
def decision (now : ℤ) (key : String) (db : Redis) (answer : Option Bool) : Decision String :=
  ⟨now * millisecond, key, db.count now key, answer⟩

variable {answer : Option Bool}

/-- **A call keeps the counters in step with the log.** -/
theorem Inv.allow (h : Inv cfg (now * millisecond) log db) (hmax : 1 ≤ (cfg key).max)
    (hans : answer = none ∨ answer = some (RedisLimiter.allow now key (cfg key).max (cfg key).window db).1) :
    Inv cfg (now * millisecond) (log ++ [decision now key db answer])
      (RedisLimiter.allow now key (cfg key).max (cfg key).window db).2 := by
  have hms : (0 : ℤ) < millisecond := by decide
  by_cases hw : 0 < (cfg key).window
  · cases hlive : db.live now key with
    | some c =>
      obtain ⟨hc, hle⟩ := live_some hlive
      obtain ⟨e, hcs⟩ := h.counters key c hc
      have hne := hle e hcs.timed
      have hnow : now * millisecond ≤ e * millisecond := Int.mul_le_mul_of_nonneg_right hne (Int.le_of_lt hms)
      have hcount : db.count now key = c.value := by simp [Redis.count, hlive]
      rw [allow_live hlive hcs.one hmax hw] at hans ⊢
      refine h.set _ (decision now key db answer) rfl (by rw [decision, hcount]; exact hans) ?_ fun hw' x hx hk => .inr ?_
      · rintro c' ⟨⟩
        refine ⟨e, hcs.timed, hw, by have := hcs.one; dsimp only; omega, hcs.started, ?_, fun x hx hk hfrom => ?_⟩
        · rw [WindowLaw.made_append, WindowLaw.made_one rfl hcs.started (by dsimp only [decision]; omega)]
          dsimp only
          rw [hcs.value]
          simp [decision]
        · rcases List.mem_append.1 hx with hx | hx
          · have := hcs.found x hx hk hfrom
            dsimp only
            omega
          · rw [List.mem_singleton.1 hx, decision, hcount]
            dsimp only
            omega
      · refine ⟨_, e, rfl, hcs.timed, ?_⟩
        rcases List.mem_append.1 hx with hx | hx
        · have := h.times x hx
          omega
        · rw [List.mem_singleton.1 hx]
          exact hnow
    | none =>
      have hcount : db.count now key = 0 := by simp [Redis.count, hlive]
      rw [allow_new hlive hmax hw] at hans ⊢
      have hroom : (0 : ℤ) < (cfg key).max := by omega
      refine h.set _ (decision now key db answer) rfl (by rw [decision, hcount]; simpa [hroom] using hans) ?_ fun hw' x hx hk => ?_
      · intro c' hc'
        by_cases hzero : (cfg key).window / millisecond ≤ 0
        · simp [hzero] at hc'
        · simp only [if_neg hzero, Option.some.injEq] at hc'
          subst hc'
          have hfrom : now + (cfg key).window / millisecond - (cfg key).window / millisecond = now := by omega
          have hover := h.over hlive (Int.not_le.1 hzero)
          refine ⟨now + (cfg key).window / millisecond, rfl, hw, Int.le_refl _, ?_, ?_, fun x hx hk hx' => ?_⟩
          · dsimp only [decision]
            rw [hfrom]
          · have hnone : made log key (now * millisecond) (now * millisecond + 1) = 0 := by
              rw [made, List.countP_eq_zero]
              intro x hx hp
              simp only [Bool.and_eq_true, decide_eq_true_eq, beq_iff_eq] at hp
              have := hover x hx hp.1.1
              omega
            dsimp only [decision]
            rw [hfrom, WindowLaw.made_append, hnone,
              WindowLaw.made_one rfl (Int.le_refl _) (by dsimp only; omega)]
            rfl
          · dsimp only [decision] at hx' hk
            rw [hfrom] at hx'
            rcases List.mem_append.1 hx with hx | hx
            · have := hover x hx hk
              omega
            · rw [List.mem_singleton.1 hx, decision, hcount]
              exact Int.zero_lt_one
      · rcases List.mem_append.1 hx with hx | hx
        · exact .inl (h.over hlive hw' x hx hk)
        · refine .inr ⟨⟨1, some (now + (cfg key).window / millisecond)⟩, _, ?_, rfl, ?_⟩
          · exact if_neg (Int.not_le.2 hw')
          · rw [List.mem_singleton.1 hx]
            exact Int.mul_le_mul_of_nonneg_right (by dsimp only [decision] at hw'; omega) (Int.le_of_lt hms)
  · -- no time passes in an empty window: the call goes by Redis
    have hno : db key = none := by
      cases hc : db key with
      | none => rfl
      | some c =>
        obtain ⟨e, hcs⟩ := h.counters key c hc
        exact absurd hcs.window hw
    have hcount : db.count now key = 0 := by simp [Redis.count, Redis.live, hno]
    have hpass : (cfg key).max ≤ 0 ∨ (cfg key).window ≤ 0 := .inr (Int.not_lt.1 hw)
    have hroom : (0 : ℤ) < (cfg key).max := by omega
    simp only [RedisLimiter.allow, if_pos hpass] at hans ⊢
    have hset := h.set none (decision now key db answer) rfl
      (by rw [decision, hcount]; simpa [hroom] using hans) nofun fun hw' => by
        exfalso
        dsimp only [decision, millisecond] at hw'
        omega
    rwa [decision, Function.update_eq_self_iff.2 hno.symm] at hset

theorem Inv.expire (h : Inv cfg (now * millisecond) log db) :
    Inv cfg (now * millisecond) log (db.expire now key) := by
  refine ⟨h.times, h.answers, fun k c hc => ?_, fun x hx hw => ?_⟩
  · by_cases hk : k = key
    · rw [hk, Redis.expire, Function.update_self] at hc
      rw [hk]
      exact h.counters key c (live_some hc).1
    · rw [Redis.expire, Function.update_of_ne hk] at hc
      exact h.counters k c hc
  · by_cases hk : x.key = key
    · cases hlive : db.live now key with
      | none => exact .inl (h.over hlive (hk ▸ hw) x hx hk)
      | some c =>
        rw [Redis.expire, hlive, hk, Function.update_self, ← (live_some hlive).1, ← hk]
        exact h.counted x hx hw
    · rw [Redis.expire, Function.update_of_ne hk]
      exact h.counted x hx hw

/-- The answer is what the count says. -/
theorem Inv.room_iff (h : Inv cfg (now * millisecond) log db) (hmax : 1 ≤ (cfg key).max) :
    (RedisLimiter.allow now key (cfg key).max (cfg key).window db).1 = decide (db.count now key < (cfg key).max) := by
  have hroom : (0 : ℤ) < (cfg key).max := by omega
  by_cases hw : 0 < (cfg key).window
  · cases hlive : db.live now key with
    | some c =>
      obtain ⟨e, hcs⟩ := h.counters key c (live_some hlive).1
      rw [allow_live hlive hcs.one hmax hw]
      simp [Redis.count, hlive]
    | none =>
      rw [allow_new hlive hmax hw]
      simp [Redis.count, hlive, hroom]
  · have hno : db key = none := by
      cases hc : db key with
      | none => rfl
      | some c =>
        obtain ⟨e, hcs⟩ := h.counters key c hc
        exact absurd hcs.window hw
    simp only [RedisLimiter.allow, if_pos (Or.inr (Int.not_lt.1 hw) : (cfg key).max ≤ 0 ∨ (cfg key).window ≤ 0)]
    simp [Redis.count, Redis.live, hno, hroom]

theorem letThrough_le_roomy (h : Inv cfg t log db) (key : String) (a b : ℤ) :
    letThrough log key a b ≤ roomy log key (cfg key).max a b := by
  refine List.countP_mono_left fun d hd hp => ?_
  simp only [Bool.and_eq_true, beq_iff_eq, decide_eq_true_eq] at hp ⊢
  refine ⟨⟨⟨hp.1.1.1, ?_⟩, hp.1.2⟩, hp.2⟩
  rcases h.answers d hd with hnone | hsome
  · rw [hnone] at hp
    exact absurd hp.1.1.2 (by simp)
  · rw [hsome, Option.some.injEq, decide_eq_true_eq, hp.1.1.1] at hp
    exact hp.1.1.2

/-- What the count of a key is: the calls since an instant of the window before, or nothing. -/
theorem Inv.count_cases (h : Inv cfg (now * millisecond) log db) (key : String) :
    (db.count now key = 0 ∧ since now key (cfg key).window db = now * millisecond + 1) ∨
      (now * millisecond - (cfg key).window ≤ since now key (cfg key).window db ∧
        since now key (cfg key).window db ≤ now * millisecond ∧
        db.count now key = made log key (since now key (cfg key).window db) (now * millisecond + 1) ∧
        ∀ d ∈ log, d.key = key → since now key (cfg key).window db ≤ d.time → d.found < db.count now key) := by
  cases hlive : db.live now key with
  | none => exact .inl ⟨by simp [Redis.count, hlive], by simp [since, hlive]⟩
  | some c =>
    obtain ⟨hc, hle⟩ := live_some hlive
    obtain ⟨e, hcs⟩ := h.counters key c hc
    have hsince : since now key (cfg key).window db = (e - (cfg key).window / millisecond) * millisecond := by
      obtain ⟨v, x⟩ := c
      obtain rfl : x = some e := hcs.timed
      simp [since, hlive]
    have hcount : db.count now key = c.value := by simp [Redis.count, hlive]
    have hne := hle e hcs.timed
    rw [hsince, hcount]
    refine .inr ⟨?_, hcs.started, hcs.value, hcs.found⟩
    unfold millisecond
    omega

/-- **A call that finds room keeps the law when the rest of the window is remembered, and a refused one always does.** -/
theorem Inv.fits (h : Inv cfg (now * millisecond) log db) (hmax : 1 ≤ (cfg key).max) {fault : Fault Unit}
    (hrem : Remembered cfg log db (.allow now key fault))
    (hans : answer = none ∨ answer = some (RedisLimiter.allow now key (cfg key).max (cfg key).window db).1) :
    Fits (fun k => (cfg k).max) (fun k => (cfg k).window) log (decision now key db answer) := by
  rw [h.room_iff hmax] at hans
  refine ⟨fun hok => ?_, fun hno => ?_⟩
  · dsimp only [decision] at hok ⊢
    have hroom : db.count now key < (cfg key).max := by
      rcases hans with rfl | rfl
      · exact absurd hok nofun
      · simpa using hok
    have hrest := hrem hroom
    rcases h.count_cases key with ⟨hzero, hsince⟩ | ⟨hfrom, hto, hcount, -⟩
    · rw [hsince, hzero] at hrest
      have := letThrough_le_roomy h key (now * millisecond - (cfg key).window + 1) (now * millisecond + 1)
      omega
    · generalize since now key (cfg key).window db = from' at hrest hfrom hto hcount
      have hpart := WindowLaw.letThrough_le_made log key from' (now * millisecond + 1)
      by_cases hlate : now * millisecond - (cfg key).window + 1 ≤ from'
      · have hsplit := WindowLaw.letThrough_split log key hlate
          (show from' ≤ now * millisecond + 1 by omega)
        have := letThrough_le_roomy h key (now * millisecond - (cfg key).window + 1) from'
        omega
      · have : letThrough log key (now * millisecond - (cfg key).window + 1) (now * millisecond + 1) ≤
            letThrough log key from' (now * millisecond + 1) := WindowLaw.letThrough_le log key fun d _ _ _ => by omega
        omega
  · dsimp only [decision] at hno ⊢
    have hfull : (cfg key).max ≤ db.count now key := by
      rcases hans with rfl | rfl
      · exact absurd hno nofun
      · simpa using hno
    rcases h.count_cases key with ⟨hzero, -⟩ | ⟨hfrom, hto, hcount, -⟩
    · omega
    · have : made log key (since now key (cfg key).window db) (now * millisecond + 1) ≤
          made log key (now * millisecond - (cfg key).window) (now * millisecond + 1) :=
        WindowLaw.made_le log key fun d _ _ _ => by omega
      omega

/-- A call that keeps the law where every call had its answer finds the rest of the window remembered. -/
theorem Inv.remembered (h : Inv cfg (now * millisecond) log db) (hmax : 1 ≤ (cfg key).max) {fault : Fault Unit}
    (hlog : ∀ d ∈ log, d.answer ≠ none)
    (hfits : Fits (fun k => (cfg k).max) (fun k => (cfg k).window) log (decision now key db
      (some (RedisLimiter.allow now key (cfg key).max (cfg key).window db).1))) :
    Remembered cfg log db (.allow now key fault) := by
  intro hroom
  have hlt := hfits.room (by dsimp only [decision]; rw [h.room_iff hmax, decide_eq_true hroom])
  dsimp only [decision] at hlt
  have hroomy : ∀ a b, roomy log key (cfg key).max a b ≤ letThrough log key a b := by
    intro a b
    refine List.countP_mono_left fun d hd hp => ?_
    simp only [Bool.and_eq_true, beq_iff_eq, decide_eq_true_eq] at hp ⊢
    refine ⟨⟨⟨hp.1.1.1, ?_⟩, hp.1.2⟩, hp.2⟩
    rcases h.answers d hd with hnone | hsome
    · exact absurd hnone (hlog d hd)
    · rw [hsome, hp.1.1.1, decide_eq_true hp.1.1.2]
  rcases h.count_cases key with ⟨hzero, hsince⟩ | ⟨hfrom, hto, hcount, hfound⟩
  · have := hroomy (now * millisecond - (cfg key).window + 1) (now * millisecond + 1)
    rw [hsince, hzero]
    omega
  · -- every call the live counter counts found less than it holds now, so it was let through
    have hall : made log key (since now key (cfg key).window db) (now * millisecond + 1) ≤
        letThrough log key (since now key (cfg key).window db) (now * millisecond + 1) := by
      refine List.countP_mono_left fun d hd hp => ?_
      simp only [Bool.and_eq_true, beq_iff_eq, decide_eq_true_eq] at hp ⊢
      refine ⟨⟨⟨hp.1.1, ?_⟩, hp.1.2⟩, hp.2⟩
      have hd' := hfound d hd hp.1.1 hp.1.2
      rcases h.answers d hd with hnone | hsome
      · exact absurd hnone (hlog d hd)
      · rw [hsome, hp.1.1, decide_eq_true (Int.lt_trans hd' hroom)]
    generalize since now key (cfg key).window db = from' at hfrom hto hcount hall ⊢
    have hforgot := hroomy (now * millisecond - (cfg key).window + 1) from'
    by_cases hlate : now * millisecond - (cfg key).window + 1 ≤ from'
    · have hsplit := WindowLaw.letThrough_split log key hlate
        (show from' ≤ now * millisecond + 1 by omega)
      omega
    · have : letThrough log key (now * millisecond - (cfg key).window + 1) from' = 0 :=
        WindowLaw.letThrough_empty log key (by omega)
      omega

/-! ### Runs -/

theorem serve_allow {fault : Fault Unit} :
    serve cfg (.allow now key fault) db =
      if fault.lands then
        ((RedisLimiter.allow now key (cfg key).max (cfg key).window db).2,
          [decision now key db (if fault.answers then
            some (RedisLimiter.allow now key (cfg key).max (cfg key).window db).1 else none)])
      else (db, []) := rfl

/-- **The counters stay in step with the log**, and where what matters is remembered every call keeps the law. -/
theorem run_fits (hmax : ∀ k, 1 ≤ (cfg k).max) {events : List Event} (hord : events.Pairwise fun e f => e.time ≤ f.time)
    (Good : List Event → Event → Prop) (Q : List (Decision String) → Decision String → Prop)
    (hQ : ∀ before now key fault answer,
      Inv cfg (now * millisecond) (RedisLimiter.log cfg before) (run (serve cfg) (fun _ => none) before).1 →
      Good before (.allow now key fault) →
      answer = none ∨ answer = some (RedisLimiter.allow now key (cfg key).max (cfg key).window
        (run (serve cfg) (fun _ => none) before).1).1 →
      Q (RedisLimiter.log cfg before) (decision now key (run (serve cfg) (fun _ => none) before).1 answer))
    (hgood : ∀ before e after, events = before ++ e :: after → Good before e) :
    (∀ u, (∀ e ∈ events, e.time ≤ u) → Inv cfg u (RedisLimiter.log cfg events) (run (serve cfg) (fun _ => none) events).1) ∧
      Ordered (RedisLimiter.log cfg events) ∧
      ∀ before d after, RedisLimiter.log cfg events = before ++ d :: after → Q before d := by
  obtain ⟨hinv, -, hsorted, hq⟩ := WindowLaw.run_inv (serve cfg) (fun _ => none) Event.time (Inv cfg) Good Q
    (fun _ => ⟨nofun, nofun, nofun, nofun⟩) (fun _ _ _ _ h htu => h.later htu)
    (fun before e h hg => by
      cases e with
      | allow now key fault =>
        have hans : (if fault.answers then some (RedisLimiter.allow now key (cfg key).max (cfg key).window
            (run (serve cfg) (fun _ => none) before).1).1 else none) = none ∨
            (if fault.answers then some (RedisLimiter.allow now key (cfg key).max (cfg key).window
              (run (serve cfg) (fun _ => none) before).1).1 else none) =
              some (RedisLimiter.allow now key (cfg key).max (cfg key).window
                (run (serve cfg) (fun _ => none) before).1).1 := by
          cases fault.answers
          · exact .inl rfl
          · exact .inr rfl
        rw [serve_allow]
        by_cases hlands : fault.lands = true
        · rw [if_pos hlands]
          exact ⟨Nat.le_refl _, fun d hd => by
            rw [List.mem_singleton.1 hd]
            exact ⟨rfl, hQ before now key fault _ h hg hans⟩, h.allow (hmax key) hans⟩
        · rw [if_neg hlands]
          simp only [List.append_nil]
          exact ⟨Nat.zero_le _, nofun, h⟩
      | expire now key =>
        simp only [serve, List.append_nil]
        exact ⟨Nat.zero_le _, nofun, h.expire⟩)
    hord hgood
  exact ⟨hinv, hsorted, hq⟩

/-- **Where what matters is remembered, the counters keep the window law.** -/
theorem log_law (hmax : ∀ k, 1 ≤ (cfg k).max) {events : List Event} (hord : events.Pairwise fun e f => e.time ≤ f.time)
    (hrem : Remembers cfg events) :
    Law (fun k => (cfg k).max) (fun k => (cfg k).window) (RedisLimiter.log cfg events) := by
  obtain ⟨-, hsorted, hfits⟩ := run_fits hmax hord
    (fun before e => Remembered cfg (RedisLimiter.log cfg before) (run (serve cfg) (fun _ => none) before).1 e) _
    (fun before now key fault answer h hg hans => h.fits (hmax key) hg hans) hrem
  exact (WindowLaw.law_iff hmax hsorted).2 hfits

theorem answered_log {events : List Event} (hall : ∀ e ∈ events, e.Answered) :
    ∀ d ∈ RedisLimiter.log cfg events, d.answer ≠ none := by
  induction events using List.reverseRecOn with
  | nil => exact nofun
  | append_singleton events e ih =>
    intro d hd
    rw [RedisLimiter.log, WindowLaw.run_snoc] at hd
    rcases List.mem_append.1 hd with hd | hd
    · exact ih (fun f hf => hall f (List.mem_append_left _ hf)) d hd
    · cases e with
      | allow now key fault =>
        obtain rfl : fault = .none := hall (.allow now key fault) (by simp)
        rw [List.mem_singleton.1 hd]
        exact nofun
      | expire now key => exact absurd hd List.not_mem_nil

/-- **Where every call had its answer, the law holds only if what matters is remembered.** -/
theorem remembers_of_law (hmax : ∀ k, 1 ≤ (cfg k).max) {events : List Event}
    (hord : events.Pairwise fun e f => e.time ≤ f.time) (hall : ∀ e ∈ events, e.Answered)
    (hlaw : Law (fun k => (cfg k).max) (fun k => (cfg k).window) (RedisLimiter.log cfg events)) : Remembers cfg events := by
  intro before e after hev
  cases e with
  | expire now key => trivial
  | allow now key fault =>
    subst hev
    have hord' := List.pairwise_append.1 hord
    obtain ⟨-, hsorted, -⟩ := run_fits hmax hord (fun _ _ => True) (fun _ _ => True)
      (fun _ _ _ _ _ _ _ _ => trivial) fun _ _ _ _ => trivial
    obtain ⟨hinv, -, -⟩ := run_fits hmax hord'.1 (fun _ _ => True) (fun _ _ => True)
      (fun _ _ _ _ _ _ _ _ => trivial) fun _ _ _ _ => trivial
    have h := hinv (now * millisecond) fun f hf => hord'.2.2 f hf _ List.mem_cons_self
    obtain rfl : fault = .none := hall (.allow now key fault) (by simp)
    have hlog : RedisLimiter.log cfg (before ++ Event.allow now key .none :: after) =
        RedisLimiter.log cfg before ++ decision now key (run (serve cfg) (fun _ => none) before).1
          (some (RedisLimiter.allow now key (cfg key).max (cfg key).window
            (run (serve cfg) (fun _ => none) before).1).1) ::
          (run (serve cfg) (serve cfg (.allow now key .none) (run (serve cfg) (fun _ => none) before).1).1 after).2 := by
      have hcut := WindowLaw.run_append (serve cfg) (fun _ => none) (before ++ [Event.allow now key .none]) after
      rw [WindowLaw.run_snoc, List.append_assoc, List.append_assoc] at hcut
      exact hcut
    exact h.remembered (hmax key) (answered_log fun f hf => hall f (List.mem_append_left _ hf))
      ((WindowLaw.law_iff hmax hsorted).1 hlaw _ _ _ hlog)

end RedisLimiter

/-! ## The window law of the two limiters -/

/-- **The window law.**  The limiter in memory keeps it.  The counters of Redis keep it where every call that finds room has
room with the calls of the window that an older counter held; where every call had its answer, only there. -/
theorem rate_window_law (cfg : String → RateLimitConfig) (hmax : ∀ k, 1 ≤ (cfg k).max) (hwindow : ∀ k, (cfg k).window ≤ hour) :
    (∀ events, events.Pairwise (fun e f => e.time ≤ f.time) →
      Law (fun k => (cfg k).max) (fun k => (cfg k).window) (SlidingWindow.log cfg events)) ∧
    ∀ events, events.Pairwise (fun e f => e.time ≤ f.time) →
      (RedisLimiter.Remembers cfg events →
        Law (fun k => (cfg k).max) (fun k => (cfg k).window) (RedisLimiter.log cfg events)) ∧
      ((∀ e ∈ events, e.Answered) →
        Law (fun k => (cfg k).max) (fun k => (cfg k).window) (RedisLimiter.log cfg events) →
          RedisLimiter.Remembers cfg events) :=
  ⟨fun _ hord => SlidingWindow.log_law hmax hwindow hord,
    fun _ hord => ⟨RedisLimiter.log_law hmax hord, RedisLimiter.remembers_of_law hmax hord⟩⟩

/-- Two calls a second. -/
def twoASecond : String → RateLimitConfig := fun _ => ⟨2, 1000 * millisecond⟩

/-- The counter of the first two calls is over when the next two come. -/
def fourCalls : List RedisLimiter.Event :=
  [.allow 0 "rl:login:10.0.0.1" .none, .allow 900 "rl:login:10.0.0.1" .none, .allow 1001 "rl:login:10.0.0.1" .none,
    .allow 1002 "rl:login:10.0.0.1" .none]

theorem fourCalls_pass :
    fourCalls.Pairwise (fun e f => e.time ≤ f.time) ∧
      ¬ Law (fun k => (twoASecond k).max) (fun k => (twoASecond k).window) (RedisLimiter.log twoASecond fourCalls) := by
  refine ⟨by decide, fun h => ?_⟩
  have h3 : letThrough (RedisLimiter.log twoASecond fourCalls) "rl:login:10.0.0.1" 900000000 1900000000 = 3 := by
    decide +kernel
  have := h.bounded "rl:login:10.0.0.1" 900000000
  simp only [twoASecond, millisecond] at this h3
  rw [show (900000000 : ℤ) + 1000 * 1000000 = 1900000000 by decide, h3] at this
  exact absurd this (by decide)

theorem twoASecond_law :
    Law (fun k => (twoASecond k).max) (fun k => (twoASecond k).window)
      (SlidingWindow.log twoASecond [.allow 0 "rl:login:10.0.0.1", .prune 5, .allow 900 "rl:login:10.0.0.1"]) ∧
    Law (fun k => (twoASecond k).max) (fun k => (twoASecond k).window)
      (RedisLimiter.log twoASecond [.allow 0 "rl:login:10.0.0.1" .none, .allow 900 "rl:login:10.0.0.1" .none]) := by
  have hlaw := rate_window_law twoASecond (fun _ => by simp only [twoASecond]; decide)
    (fun _ => by simp only [twoASecond]; decide)
  refine ⟨hlaw.1 _ (by decide), (hlaw.2 _ (by decide)).1 fun before e after hev => ?_⟩
  rcases before with _ | ⟨e₁, _ | ⟨e₂, before⟩⟩
  · cases hev
    intro _
    decide +kernel
  · cases hev
    intro _
    decide +kernel
  · exact absurd (congrArg List.length hev) (by simp)

end Agregator
