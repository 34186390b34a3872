import Agregator.ReviewSys
/-!
# ReviewRatings — the ratings follow the reviews

The cache of the review service is the rating of its committed reviews in every state (`Sound.exact`); the venue service has
copied the rating of some earlier state, and of one no earlier than any event it has handled (`Followed`).
-/
namespace Agregator

open Rel Conc

/-- The event of one of the reviews. -/
def FromReview (rows : List Review) (e : ReviewCreatedEvent) : Prop := ∃ r ∈ rows, e = ReviewUseCase.reviewCreated r

theorem FromReview.grows {rows rows' : List Review} {e : ReviewCreatedEvent} (h : FromReview rows e) (hp : rows <+: rows') :
    FromReview rows' e := by
  obtain ⟨r, hr, he⟩ := h
  exact ⟨r, hp.subset hr, he⟩

namespace ReviewWorld

variable (fl : Doubles)

structure Sound (w : ReviewWorld) : Prop where
  exact : ∀ t key, key ≠ "" → w.ratings t key = ratingOf fl t key w.reviews.rows
  outbox : ∀ e ∈ w.outbox, FromReview w.reviews.rows e.payload
  stream : ∀ e ∈ w.stream, FromReview w.reviews.rows e
  ids : ∀ s ∈ w.sessions, s.id < w.opened
  exclusive : ∀ s ∈ w.sessions, ∀ s' ∈ w.sessions, ∀ l ∈ s.locks, l ∈ s'.locks → s.id = s'.id
  callback : ∀ n i, w.callback = some (n, i) → n < w.callbacks
  venues : ∀ v x, w.venues v = some x → ∃ rows, rows <+: w.reviews.rows ∧ x = VenueRating.of (ratingOf fl .venue v rows)

/-- A venue that may be added. -/
def Unknown (w : ReviewWorld) (v : String) : Prop := w.venues v = none ∧ ∀ r ∈ w.reviews.rows, r.venueID ≠ v

/-- What a step may do: reviews stay, a locked rating is the same while its transaction lives, no venue falls back, and
between two steps of a callback the venues stay as they are. -/
structure Goes (w w' : ReviewWorld) : Prop where
  opened : w.opened ≤ w'.opened
  kept : ∀ s' ∈ w'.sessions, s'.id < w.opened → ∃ s ∈ w.sessions, s.id = s'.id ∧ (∀ l ∈ s.locks, l ∈ s'.locks) ∧
    ∀ t key, .rating t key ∈ s.locks → w'.ratings t key = w.ratings t key
  rows : w.reviews.rows <+: w'.reviews.rows
  callbacks : w.callbacks ≤ w'.callbacks
  paced : ∀ n i', w'.callback = some (n, i') → n < w.callbacks → ∃ i, w.callback = some (n, i) ∧ i ≤ i' ∧
    (i = i' → ∀ v x', w'.venues v = some x' → w.venues v = some x' ∨ w.Unknown v)
  counts : ∀ v x', w'.venues v = some x' → w.Unknown v ∨ ∃ x, w.venues v = some x ∧ x.reviewCount ≤ x'.reviewCount
  stay : ∀ v, w'.venues v = none → w.venues v = none

variable {fl} {w w' w'' : ReviewWorld}

theorem Unknown.of_goes {v : String} (h : w'.Unknown v) (hg : w.Goes w') : w.Unknown v :=
  ⟨hg.stay v h.1, fun r hr => h.2 r (hg.rows.subset hr)⟩

theorem Goes.refl (w : ReviewWorld) : w.Goes w where
  opened := Nat.le_refl _
  kept s hs _ := ⟨s, hs, rfl, fun _ h => h, fun _ _ _ => rfl⟩
  rows := List.prefix_rfl
  callbacks := Nat.le_refl _
  paced _ i h _ := ⟨i, h, Nat.le_refl _, fun _ _ _ h => .inl h⟩
  counts _ x h := .inr ⟨x, h, Int.le_refl _⟩
  stay _ h := h

theorem Goes.trans (h : w.Goes w') (h' : w'.Goes w'') : w.Goes w'' where
  opened := Nat.le_trans h.opened h'.opened
  kept s'' hs'' hlt := by
    obtain ⟨s', hs', hid', hlocks', hrat'⟩ := h'.kept s'' hs'' (Nat.lt_of_lt_of_le hlt h.opened)
    obtain ⟨s, hs, hid, hlocks, hrat⟩ := h.kept s' hs' (by rw [hid']; exact hlt)
    refine ⟨s, hs, hid.trans hid', fun l hl => hlocks' l (hlocks l hl), fun t key hl => ?_⟩
    rw [hrat' t key (hlocks _ hl), hrat t key hl]
  rows := h.rows.trans h'.rows
  callbacks := Nat.le_trans h.callbacks h'.callbacks
  paced n i'' hc hlt := by
    obtain ⟨i', hc', hle', hsame'⟩ := h'.paced n i'' hc (Nat.lt_of_lt_of_le hlt h.callbacks)
    obtain ⟨i, hc, hle, hsame⟩ := h.paced n i' hc' hlt
    refine ⟨i, hc, Nat.le_trans hle hle', fun hi v x hx => ?_⟩
    rcases hsame' (by omega) v x hx with hx | hnew
    · exact hsame (by omega) v x hx
    · exact .inr (hnew.of_goes h)
  counts v x'' hx := by
    rcases h'.counts v x'' hx with hnew | ⟨x', hx', hle'⟩
    · exact .inl (hnew.of_goes h)
    rcases h.counts v x' hx' with hnew | ⟨x, hx, hle⟩
    · exact .inl hnew
    · exact .inr ⟨x, hx, Int.le_trans hle hle'⟩
  stay v hn := h.stay v (h'.stay v hn)

/-! ## The changes of the state -/

/-- A change of the sessions alone. -/
theorem goes_sessions {sessions : List ReviewSession} {opened : ℕ} (ho : w.opened ≤ opened)
    (h : ∀ s' ∈ sessions, s'.id < w.opened → ∃ s ∈ w.sessions, s.id = s'.id ∧ ∀ l ∈ s.locks, l ∈ s'.locks) :
    w.Goes { w with sessions := sessions, opened := opened } := by
  refine { Goes.refl w with opened := ho, kept := fun s' hs' hlt => ?_ }
  obtain ⟨s, hs, hid, hlocks⟩ := h s' hs' hlt
  exact ⟨s, hs, hid, hlocks, fun _ _ _ => rfl⟩

theorem Sound.opens (h : w.Sound fl) :
    ({ w with sessions := w.sessions ++ [⟨w.opened, []⟩], opened := w.opened + 1 } : ReviewWorld).Sound fl := by
  refine { h with ids := fun s hs => ?_, exclusive := fun s hs s' hs' l hl hl' => ?_ }
  · rcases List.mem_append.1 hs with hs | hs
    · exact Nat.lt_succ_of_lt (h.ids s hs)
    · rw [List.mem_singleton.1 hs]
      exact Nat.lt_succ_self _
  · rcases List.mem_append.1 hs with hs | hs
    · rcases List.mem_append.1 hs' with hs' | hs'
      · exact h.exclusive s hs s' hs' l hl hl'
      · rw [List.mem_singleton.1 hs'] at hl'
        cases hl'
    · rw [List.mem_singleton.1 hs] at hl
      cases hl

theorem goes_opens (w : ReviewWorld) :
    w.Goes { w with sessions := w.sessions ++ [⟨w.opened, []⟩], opened := w.opened + 1 } := by
  refine goes_sessions (Nat.le_succ _) fun s hs hlt => ?_
  rcases List.mem_append.1 hs with hs | hs
  · exact ⟨s, hs, rfl, fun _ h => h⟩
  · rw [List.mem_singleton.1 hs] at hlt
    exact absurd hlt (Nat.lt_irrefl _)

theorem Sound.close (h : w.Sound fl) (tx : ℕ) : (w.close tx).Sound fl :=
  { h with
    ids := fun s hs => h.ids s (List.mem_filter.1 hs).1
    exclusive := fun s hs s' hs' => h.exclusive s (List.mem_filter.1 hs).1 s' (List.mem_filter.1 hs').1 }

theorem goes_close (w : ReviewWorld) (tx : ℕ) : w.Goes (w.close tx) :=
  goes_sessions (Nat.le_refl _) fun s hs _ => ⟨s, (List.mem_filter.1 hs).1, rfl, fun _ h => h⟩

theorem goes_grant (w : ReviewWorld) (tx : ℕ) (locks : List ReviewLock) : w.Goes (w.grant tx locks) := by
  refine goes_sessions (Nat.le_refl _) fun s' hs' _ => ?_
  obtain ⟨s, hs, rfl⟩ := List.mem_map.1 hs'
  refine ⟨s, hs, ?_⟩
  split
  · exact ⟨rfl, fun l hl => List.mem_append_right _ hl⟩
  · exact ⟨rfl, fun _ hl => hl⟩

/-- **A lock that is free for a transaction is granted to it alone.** -/
theorem Sound.grant (h : w.Sound fl) {tx : ℕ} {locks : List ReviewLock} (hfree : locks.any (w.lockedOut tx) = false) :
    (w.grant tx locks).Sound fl := by
  have hothers : ∀ s ∈ w.sessions, ∀ l ∈ locks, l ∈ s.locks → s.id = tx := by
    intro s hs l hl hls
    by_contra hne
    have hout : w.lockedOut tx l = true := List.any_eq_true.2 ⟨s, hs, by simp [hne, hls]⟩
    rw [List.any_eq_false] at hfree
    exact hfree l hl hout
  have hof : ∀ s : ReviewSession, ∀ l ∈ (if s.id = tx then { s with locks := locks ++ s.locks } else s).locks,
      l ∈ s.locks ∨ (l ∈ locks ∧ s.id = tx) := by
    intro s l hl
    by_cases hid : s.id = tx
    · rw [if_pos hid] at hl
      exact (List.mem_append.1 hl).symm.imp_right fun hl => ⟨hl, hid⟩
    · rw [if_neg hid] at hl
      exact .inl hl
  have hid : ∀ s : ReviewSession, (if s.id = tx then { s with locks := locks ++ s.locks } else s).id = s.id := by
    intro s
    split <;> rfl
  refine { h with ids := fun s' hs' => ?_, exclusive := fun s' hs' x' hx' l hl hl' => ?_ }
  · obtain ⟨s, hs, rfl⟩ := List.mem_map.1 hs'
    rw [hid]
    exact h.ids s hs
  · obtain ⟨s, hs, rfl⟩ := List.mem_map.1 hs'
    obtain ⟨x, hx, rfl⟩ := List.mem_map.1 hx'
    rw [hid, hid]
    rcases hof s l hl with hl | ⟨hl, hstx⟩
    · rcases hof x l hl' with hl' | ⟨hl', hxtx⟩
      · exact h.exclusive s hs x hx l hl hl'
      · rw [hxtx]
        exact hothers s hs l hl' hl
    · rcases hof x l hl' with hl' | ⟨-, hxtx⟩
      · rw [hstx]
        exact (hothers x hx l hl hl').symm
      · rw [hstx, hxtx]

/-- What a statement of a transaction does. -/
theorem within_cases {α : Type} (tx : ℕ) (locks : List ReviewLock) (r : Except Err α) :
    (∃ err, w.within tx locks r = (.error err, w)) ∨
      (w.within tx locks r = (r, w.grant tx locks) ∧ locks.any (w.lockedOut tx) = false) := by
  unfold within
  split
  · exact .inl ⟨_, rfl⟩
  split
  · exact .inl ⟨_, rfl⟩
  · rename_i h
    exact .inr ⟨rfl, by simpa using h⟩

/-! ## A commit -/

/-- A transaction that may commit: it has written nothing but stamps, or a review with its event and with the next rating of
its target, which it has locked. -/
def Commits (fl : Doubles) (w : ReviewWorld) (tx : ReviewTx) : Prop :=
  (tx.reviews = [] ∧ tx.outbox = [] ∧ tx.ratings = []) ∨
    ∃ t r, tx.reviews = [r] ∧ (∀ e ∈ tx.outbox, e.payload = ReviewUseCase.reviewCreated r) ∧ (∀ t', t' ≠ t → t'.key r = "") ∧
      ∀ s ∈ w.sessions, s.id = tx.id → .rating t (t.key r) ∈ s.locks ∧
        tx.ratings = [(t, t.key r, RatingRow.next fl r.rating (w.ratings t (t.key r)))]

theorem stamp_payload (tx : ReviewTx) (e : ReviewOutboxRow) : (ReviewOutbox.stamp tx e).payload = e.payload := by
  unfold ReviewOutbox.stamp
  split
  · rfl
  split <;> rfl

theorem reset_payload (now : Time) (e : ReviewOutboxRow) : (ReviewOutbox.reset now e).payload = e.payload := by
  unfold ReviewOutbox.reset
  split <;> rfl

/-- The ratings with one more row. -/
theorem putRatings_one (ratings : TargetType → String → Option RatingRow) (t : TargetType) (key : String) (row : RatingRow)
    (t' : TargetType) (key' : String) :
    putRatings ratings [(t, key, row)] t' key' = if t' = t ∧ key' = key then some row else ratings t' key' := by
  unfold putRatings putRatings
  by_cases ht : t' = t
  · subst ht
    by_cases hk : key' = key
    · subst hk
      simp
    · simp [hk]
  · simp [ht]

/-- The rating of every target after one more review. -/
theorem ratings_next {rows : List Review} {ratings : TargetType → String → Option RatingRow}
    (hexact : ∀ t key, key ≠ "" → ratings t key = ratingOf fl t key rows) {t : TargetType} {r : Review}
    (hr : 1 ≤ r.rating ∧ r.rating ≤ 5) (hother : ∀ t', t' ≠ t → t'.key r = "") (t' : TargetType) (key : String) (hkey : key ≠ "") :
    putRatings ratings [(t, t.key r, RatingRow.next fl r.rating (ratings t (t.key r)))] t' key =
      ratingOf fl t' key (rows ++ [r]) := by
  rw [putRatings_one]
  by_cases h : t' = t ∧ key = t.key r
  · obtain ⟨rfl, rfl⟩ := h
    rw [if_pos ⟨rfl, rfl⟩, ratingOf_next fl hr.1 hr.2, hexact _ _ hkey]
  · rw [if_neg h, hexact _ _ hkey]
    refine (ratingOf_other fl (fun he => ?_) rows).symm
    by_cases ht : t' = t
    · exact h ⟨ht, by rw [← he, ht]⟩
    · exact hkey (by rw [← he, hother t' ht])

theorem rating_range {t : Table reviewSchema} {r : Review} (hr : r ∈ t.rows) : 1 ≤ r.rating ∧ r.rating ≤ 5 := by
  have := t.checked r hr
  simp only [reviewSchema, Bool.and_eq_true, decide_eq_true_eq] at this
  exact ⟨this.1.1.1.1.2, this.1.1.1.2⟩

/-- **A commit keeps the ratings exact.** -/
theorem Sound.commit (h : w.Sound fl) {tx : ReviewTx} (hc : w.Commits fl tx) :
    (w.commit tx).2.Sound fl ∧ w.Goes (w.commit tx).2 := by
  unfold ReviewWorld.commit
  split
  · exact ⟨h, .refl w⟩
  rename_i hopen
  split
  · exact ⟨h.close _, goes_close w _⟩
  rename_i reviews hins
  have hrows := Table.insertAll_rows hins
  have hpre : w.reviews.rows <+: reviews.rows := by
    rw [hrows]
    exact List.prefix_append _ _
  have hvenues : ∀ v x, w.venues v = some x → ∃ rows, rows <+: reviews.rows ∧ x = VenueRating.of (ratingOf fl .venue v rows) := by
    intro v x hx
    obtain ⟨rows, hr, he⟩ := h.venues v x hx
    exact ⟨rows, hr.trans hpre, he⟩
  have hold : ∀ e ∈ w.outbox.map (ReviewOutbox.stamp tx), FromReview reviews.rows e.payload := by
    intro e he
    obtain ⟨e', he', rfl⟩ := List.mem_map.1 he
    rw [stamp_payload]
    exact (h.outbox e' he').grows hpre
  have hstream : ∀ e ∈ w.stream, FromReview reviews.rows e := fun e he => (h.stream e he).grows hpre
  have hgoes : ∀ ratings : TargetType → String → Option RatingRow,
      (∀ x ∈ w.sessions, x.id ≠ tx.id → ∀ t key, .rating t key ∈ x.locks → ratings t key = w.ratings t key) →
      ∀ outbox, w.Goes ({ w with reviews := reviews, ratings := ratings, outbox := outbox }.close tx.id) := by
    intro ratings hrat outbox
    refine { Goes.refl w with rows := hpre, kept := fun s hs _ => ?_ }
    obtain ⟨hs, hne⟩ := List.mem_filter.1 hs
    exact ⟨s, hs, rfl, fun _ hl => hl, hrat s hs (by simpa using hne)⟩
  rcases hc with ⟨hnone, hbox, hrat⟩ | ⟨t, r, hone, hbox, hother, hlocked⟩
  · -- only stamps
    have hsame : reviews.rows = w.reviews.rows := by
      rw [hrows, hnone, List.append_nil]
    rw [hbox, hrat, List.append_nil]
    refine ⟨{ h.close tx.id with exact := ?_, outbox := hold, stream := hstream, venues := hvenues }, ?_⟩
    · intro t key hkey
      exact (h.exact t key hkey).trans (congrArg (ratingOf fl t key) hsame.symm)
    · exact hgoes _ (fun _ _ _ _ _ _ => rfl) _
  · -- the review, with the rating its transaction holds the lock of
    obtain ⟨s, hs, hid⟩ : ∃ s ∈ w.sessions, s.id = tx.id := by
      simpa [isOpen] using hopen
    obtain ⟨hlock, hrat⟩ := hlocked s hs hid
    rw [hone] at hrows
    have hr : r ∈ reviews.rows := by
      rw [hrows]
      exact List.mem_append_right _ (List.mem_singleton.2 rfl)
    rw [hrat]
    refine ⟨{ h.close tx.id with exact := ?_, outbox := ?_, stream := hstream, venues := hvenues }, ?_⟩
    · intro t' key hkey
      exact (ratings_next h.exact (rating_range hr) hother t' key hkey).trans (congrArg (ratingOf fl t' key) hrows.symm)
    · intro e he
      rcases List.mem_append.1 he with he | he
      · exact hold e he
      · exact ⟨r, hr, hbox e he⟩
    · refine hgoes _ (fun x hx hne t' key' hl => ?_) _
      rw [putRatings_one, if_neg]
      rintro ⟨rfl, rfl⟩
      exact hne ((h.exclusive x hx s hs _ hl hlock).trans hid)

/-! ## One step -/

/-- What a call has made sure of before an operation. -/
def Ready (fl : Doubles) (w : ReviewWorld) : ReviewOp → Prop
  | .commit tx => w.Commits fl tx
  | .publishReviewCreated event => FromReview w.reviews.rows event
  | .within n i (.updateRating v avgRating reviewCount) => w.callback = some (n, i) →
    (∃ rows, rows <+: w.reviews.rows ∧ ⟨avgRating, reviewCount⟩ = VenueRating.of (ratingOf fl .venue v rows)) ∧
      ∀ x, w.venues v = some x → x.reviewCount ≤ reviewCount
  | _ => True

/-- An operation that fails does what it does, or nothing. -/
theorem fault_state {α : Type} {P : ReviewWorld → Prop} (f : Fault Err) (err : Err → Err) {run : ReviewWorld → Except Err α × ReviewWorld}
    (h0 : P w) (h1 : P (run w).2) : P (f.apply err run w).2 := by
  rcases f.apply_state err run w with h | h <;> rw [h]
  · exact h0
  · exact h1

theorem Sound.within {α : Type} (h : w.Sound fl) (tx : ℕ) (locks : List ReviewLock) (r : Except Err α) :
    (w.within tx locks r).2.Sound fl ∧ w.Goes (w.within tx locks r).2 := by
  rcases w.within_cases tx locks r with ⟨err, he⟩ | ⟨he, hfree⟩ <;> rw [he]
  · exact ⟨h, .refl w⟩
  · exact ⟨h.grant hfree, w.goes_grant tx locks⟩

/-- **A step of the callback**: it reads the rating, or writes one that is no older than the one that is there. -/
theorem Sound.handler (h : w.Sound fl) {n i : ℕ} (hc : w.callback = some (n, i)) {o : HandlerOp} (hready : w.Ready fl (.within n i o))
    (env : ReviewEnv) : ({ (o.run env w).2 with callback := some (n, i + 1) } : ReviewWorld).Sound fl ∧
      w.Goes { (o.run env w).2 with callback := some (n, i + 1) } := by
  have hkeep : ({ w with callback := some (n, i + 1) } : ReviewWorld).Sound fl ∧ w.Goes { w with callback := some (n, i + 1) } := by
    refine ⟨{ h with callback := ?_ }, { Goes.refl w with paced := ?_ }⟩
    · intro m j hm
      cases hm
      exact h.callback n i hc
    · intro m j hm _
      cases hm
      exact ⟨i, hc, Nat.le_succ i, fun he => absurd he (Nat.ne_of_lt (Nat.lt_succ_self i))⟩
  cases o with
  | getVenueRating v =>
    exact fault_state (P := fun w₁ => ({ w₁ with callback := some (n, i + 1) } : ReviewWorld).Sound fl ∧
      w.Goes { w₁ with callback := some (n, i + 1) }) env.fault id hkeep hkeep
  | updateRating v avgRating reviewCount =>
    refine fault_state (P := fun w₁ => ({ w₁ with callback := some (n, i + 1) } : ReviewWorld).Sound fl ∧
      w.Goes { w₁ with callback := some (n, i + 1) }) env.fault Err.ofDB hkeep ?_
    obtain ⟨⟨rows, hrows, heq⟩, hle⟩ := hready hc
    have hvenue : ∀ v' x', (w.updateRating v avgRating reviewCount).venues v' = some x' →
        w.venues v' = some x' ∨ (v' = v ∧ x' = ⟨avgRating, reviewCount⟩ ∧ ∃ x, w.venues v = some x) := by
      intro v' x' hx
      rw [updateRating_venues] at hx
      by_cases hv : v' = v
      · rw [if_pos hv] at hx
        obtain ⟨x, hx, he⟩ := Option.map_eq_some_iff.1 hx
        exact .inr ⟨hv, he.symm, x, hx⟩
      · rw [if_neg hv] at hx
        exact .inl hx
    refine ⟨{ hkeep.1 with venues := ?_ }, { hkeep.2 with paced := ?_, counts := ?_, stay := ?_ }⟩
    · intro v' x' hx
      rcases hvenue v' x' hx with hx | ⟨rfl, rfl, -⟩
      · exact h.venues v' x' hx
      · exact ⟨rows, hrows, heq⟩
    · intro m j hm _
      cases hm
      exact ⟨i, hc, Nat.le_succ i, fun he => absurd he (Nat.ne_of_lt (Nat.lt_succ_self i))⟩
    · intro v' x' hx
      rcases hvenue v' x' hx with hx | ⟨rfl, rfl, x, hx⟩
      · exact .inr ⟨x', hx, Int.le_refl _⟩
      · exact .inr ⟨x, hx, hle x hx⟩
    · intro v' hn
      have hn : (w.updateRating v avgRating reviewCount).venues v' = none := hn
      rw [updateRating_venues] at hn
      by_cases hv : v' = v
      · rw [if_pos hv] at hn
        rw [hv]
        exact Option.map_eq_none_iff.1 hn
      · rwa [if_neg hv] at hn

end ReviewWorld

open ReviewWorld in
/-- **Every operation keeps what is sound**, once its call has made sure of what it needs. -/
theorem ReviewOp.Exec.sound {fl : Doubles} {o : ReviewOp} {w w' : ReviewWorld} {r : o.Res} (h : w.Sound fl) (hready : w.Ready fl o)
    (he : o.Exec fl w r w') : w'.Sound fl ∧ w.Goes w' := by
  obtain ⟨env, hruns, he⟩ := he
  have hkeep : w.Sound fl ∧ w.Goes w := ⟨h, .refl w⟩
  obtain rfl : (o.run fl env w).2 = w' := congrArg Prod.snd he
  cases o with
  | hasCompletedBooking | hasCompletedMasterBooking =>
    exact fault_state (P := fun w₁ => w₁.Sound fl ∧ w.Goes w₁) env.fault id hkeep hkeep
  | beginTx =>
    exact fault_state (P := fun w₁ => w₁.Sound fl ∧ w.Goes w₁) env.fault Err.ofDB hkeep ⟨h.opens, w.goes_opens⟩
  | createTx tx | outboxCreateTx tx | updateRatingTx t tx | markTx tx =>
    exact fault_state (P := fun w₁ => w₁.Sound fl ∧ w.Goes w₁) env.fault Err.ofDB hkeep (h.within _ _ _)
  | claimBatch tx limit =>
    exact fault_state (P := fun w₁ => w₁.Sound fl ∧ w.Goes w₁) env.fault Err.ofDB hkeep (h.within _ _ _)
  | commit tx =>
    exact fault_state (P := fun w₁ => w₁.Sound fl ∧ w.Goes w₁) env.fault Err.ofDB hkeep (h.commit hready)
  | rollback tx =>
    exact fault_state (P := fun w₁ => w₁.Sound fl ∧ w.Goes w₁) env.fault Err.ofDB hkeep ⟨h.close _, w.goes_close _⟩
  | resetStaleLocks =>
    refine fault_state (P := fun w₁ => w₁.Sound fl ∧ w.Goes w₁) env.fault Err.ofDB hkeep ?_
    split
    · exact hkeep
    · refine ⟨{ h with outbox := fun e he => ?_ }, { Goes.refl w with }⟩
      obtain ⟨e', he', rfl⟩ := List.mem_map.1 he
      rw [reset_payload]
      exact h.outbox e' he'
  | publishReviewCreated event =>
    refine fault_state (P := fun w₁ => w₁.Sound fl ∧ w.Goes w₁) env.fault id hkeep ?_
    dsimp only
    split
    · exact hkeep
    · refine ⟨{ h with stream := fun e he => ?_ }, { Goes.refl w with }⟩
      rcases List.mem_append.1 he with he | he
      · exact h.stream e he
      · rw [List.mem_singleton.1 he]
        exact hready
  | deliver =>
    refine ⟨{ h with callback := ?_ }, { Goes.refl w with callbacks := Nat.le_succ _, paced := ?_ }⟩
    · intro n i hc
      cases hc
      exact Nat.lt_succ_self _
    · intro n i hc hlt
      cases hc
      exact absurd hlt (Nat.lt_irrefl _)
  | within n i o => exact h.handler hruns hready env
  | done n ack => exact ⟨{ h with callback := nofun }, { Goes.refl w with paced := nofun }⟩

theorem ReviewWorld.Changes.sound {fl : Doubles} {w w' : ReviewWorld} (h : w.Sound fl) (hc : w.Changes w') :
    w'.Sound fl ∧ w.Goes w' := by
  cases hc with
  | passes later => exact ⟨{ h with }, { ReviewWorld.Goes.refl w with }⟩
  | lost tx => exact ⟨h.close tx, w.goes_close tx⟩
  | dies => exact ⟨{ h with callback := nofun }, { ReviewWorld.Goes.refl w with paced := nofun }⟩
  | added v hnone hnew =>
    have hvenue : ∀ v' x', Function.update w.venues v (some ⟨0, 0⟩) v' = some x' →
        w.venues v' = some x' ∨ (v' = v ∧ x' = ⟨0, 0⟩) := by
      intro v' x' hx
      by_cases hv : v' = v
      · subst hv
        rw [Function.update_self] at hx
        exact .inr ⟨rfl, (Option.some.inj hx).symm⟩
      · rw [Function.update_of_ne hv] at hx
        exact .inl hx
    refine ⟨{ h with venues := ?_ }, { ReviewWorld.Goes.refl w with paced := ?_, counts := ?_, stay := ?_ }⟩
    · intro v' x' hx
      rcases hvenue v' x' hx with hx | ⟨rfl, rfl⟩
      · exact h.venues v' x' hx
      · exact ⟨[], List.nil_prefix, rfl⟩
    · intro n i hc _
      refine ⟨i, hc, Nat.le_refl _, fun _ v' x' hx => ?_⟩
      rcases hvenue v' x' hx with hx | ⟨rfl, -⟩
      · exact .inl hx
      · exact .inr ⟨hnone, hnew⟩
    · intro v' x' hx
      rcases hvenue v' x' hx with hx | ⟨rfl, -⟩
      · exact .inr ⟨x', hx, Int.le_refl _⟩
      · exact .inl ⟨hnone, hnew⟩
    · intro v' hn
      by_cases hv : v' = v
      · rw [hv]
        exact hnone
      · exact (Function.update_of_ne hv _ _).symm.trans hn

end Agregator
