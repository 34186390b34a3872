import Agregator.ReviewRatings
/-!
# ReviewFollow — the calls keep the ratings
-/
namespace Agregator

open Rel Conc

/-- A call that keeps what is sound, with what it leaves. -/
abbrev ReviewSafe (fl : Doubles) {α : Type} (Q : List (Event ReviewOp ReviewOp.Res) → α → ReviewWorld → Prop) :
    List (Event ReviewOp ReviewOp.Res) → ReviewProg α → ReviewWorld → Prop :=
  Prog.Safe (ReviewOp.Exec fl) (fun _ _ _ => True) (fun w => w.Sound fl) ReviewWorld.Goes Q

abbrev ReviewKeeps (fl : Doubles) {α : Type} (h : List (Event ReviewOp ReviewOp.Res)) (p : ReviewProg α) (w : ReviewWorld) : Prop :=
  ReviewSafe fl (fun _ _ _ => True) h p w

section Rules

variable {fl : Doubles} {α : Type} {Q : List (Event ReviewOp ReviewOp.Res) → α → ReviewWorld → Prop}
  {h : List (Event ReviewOp ReviewOp.Res)} {o : ReviewOp} {k : o.Res → ReviewProg α} {w : ReviewWorld}

/-- An operation, with what the call knows before it. -/
theorem ReviewSafe.call (A : ReviewWorld → Prop) (hA : A w) (hstable : ∀ w w' : ReviewWorld, A w → w.Goes w' → A w')
    (hready : ∀ w : ReviewWorld, A w → w.Ready fl o)
    (hk : ∀ (w : ReviewWorld) r (w' : ReviewWorld), w.Sound fl → A w → o.Exec fl w r w' → w'.Sound fl → w.Goes w' →
      ReviewSafe fl Q (h ++ [⟨o, r⟩]) (k r) w') : ReviewSafe fl Q h (.call o k) w := by
  intro w₁ hg hs r w₂ he _
  have hA₁ := hstable w w₁ hA hg
  obtain ⟨hs₂, hg₂⟩ := he.sound hs (hready w₁ hA₁)
  exact ⟨hs₂, hg₂, hk w₁ r w₂ hs hA₁ he hs₂ hg₂⟩

/-- An operation that needs nothing. -/
theorem ReviewKeeps.step {k : o.Res → ReviewProg α} (hready : ∀ w : ReviewWorld, w.Ready fl o)
    (hk : ∀ (w : ReviewWorld) r (w' : ReviewWorld), o.Exec fl w r w' → ReviewKeeps fl (h ++ [⟨o, r⟩]) (k r) w') :
    ReviewKeeps fl h (.call o k) w :=
  ReviewSafe.call (fun _ => True) trivial (fun _ _ _ _ => trivial) (fun w _ => hready w) fun w r w' _ _ he _ _ => hk w r w' he

theorem ReviewKeeps.ret (a : α) : ReviewKeeps fl h (.ret a) w := fun _ _ _ => trivial

theorem ReviewSafe.ite {p : Prop} [Decidable p] {p₁ p₂ : ReviewProg α} (h₁ : ReviewSafe fl Q h p₁ w) (h₂ : ReviewSafe fl Q h p₂ w) :
    ReviewSafe fl Q h (if p then p₁ else p₂) w := by
  by_cases hp : p
  · rwa [if_pos hp]
  · rwa [if_neg hp]

end Rules

/-! ## What an answer tells -/

namespace ReviewOp.Exec

variable {fl : Doubles} {w w' : ReviewWorld}

theorem beginTx_ok {tx : ReviewTx} (h : ReviewOp.Exec fl .beginTx w (.ok tx) w') :
    tx = { id := w.opened, began := w.clock } ∧ tx.id < w'.opened := by
  obtain ⟨env, -, he⟩ := h
  have hrun := Fault.of_ok (show env.fault.apply Err.ofDB (fun w : ReviewWorld => (.ok { id := w.opened, began := w.clock },
    { w with sessions := w.sessions ++ [⟨w.opened, []⟩], opened := w.opened + 1 })) w = (.ok tx, w') from he)
  cases hrun
  exact ⟨rfl, Nat.lt_succ_self _⟩

/-- A statement of a transaction that succeeds has its locks. -/
theorem within_ok {α : Type} {f : Fault Err} {tx : ℕ} (locks : ReviewWorld → List ReviewLock) (r : ReviewWorld → Except Err α)
    {a : α} (h : f.apply Err.ofDB (fun w => w.within tx (locks w) (r w)) w = (.ok a, w')) :
    r w = .ok a ∧ w' = w.grant tx (locks w) := by
  have hrun : w.within tx (locks w) (r w) = (.ok a, w') := Fault.of_ok h
  rcases w.within_cases _ _ _ with ⟨err, he⟩ | ⟨he, -⟩
  · rw [he] at hrun
    cases hrun
  · rw [he] at hrun
    obtain ⟨hr, rfl⟩ := Prod.mk.inj hrun
    exact ⟨hr, rfl⟩

theorem createTx_ok {tx tx' : ReviewTx} {review row : Review}
    (h : ReviewOp.Exec fl (.createTx tx review) w (.ok (row, tx')) w') :
    ∃ newID, row = { review with id := newID, createdAt := tx.began } ∧ tx' = { tx with reviews := tx.reviews ++ [row] } := by
  obtain ⟨env, -, he⟩ := h
  obtain ⟨hr, -⟩ := within_ok (fun _ => [.review review.userID review.venueID review.masterID])
    (ReviewRepo.createTx env.newID tx review) he
  unfold ReviewRepo.createTx at hr
  dsimp only at hr
  split at hr
  · cases hr
  · cases hr
  · cases hr
    exact ⟨env.newID, rfl, rfl⟩

theorem outboxCreateTx_ok {tx tx' : ReviewTx} {aggregateID eventType : String} {payload : ReviewCreatedEvent}
    (h : ReviewOp.Exec fl (.outboxCreateTx tx aggregateID eventType payload) w (.ok tx') w') :
    ∃ e, e.payload = payload ∧ tx' = { tx with outbox := tx.outbox ++ [e] } := by
  obtain ⟨env, -, he⟩ := h
  obtain ⟨hr, -⟩ := within_ok (fun _ => [])
    (fun _ => .ok (ReviewOutbox.createTx env.newID tx aggregateID eventType payload)) he
  cases hr
  exact ⟨_, rfl, rfl⟩

/-- The transaction has the lock of a rating, which is what it was. -/
def Owned (w : ReviewWorld) (tx : ℕ) (t : TargetType) (key : String) (old : Option RatingRow) : Prop :=
  tx < w.opened ∧ ∀ s ∈ w.sessions, s.id = tx → .rating t key ∈ s.locks ∧ w.ratings t key = old

theorem Owned.goes {tx : ℕ} {t : TargetType} {key : String} {old : Option RatingRow} (h : Owned w tx t key old)
    (hg : w.Goes w') : Owned w' tx t key old := by
  refine ⟨Nat.lt_of_lt_of_le h.1 hg.opened, fun s' hs' hid => ?_⟩
  obtain ⟨s, hs, hsid, hlocks, hrat⟩ := hg.kept s' hs' (by rw [hid]; exact h.1)
  obtain ⟨hlock, hold⟩ := h.2 s hs (hsid.trans hid)
  exact ⟨hlocks _ hlock, (hrat t key hlock).trans hold⟩

theorem updateRatingTx_ok {t : TargetType} {tx tx' : ReviewTx} {key : String} {rating : ℤ} (hnone : tx.ratings = [])
    (hlt : tx.id < w.opened) (h : ReviewOp.Exec fl (.updateRatingTx t tx key rating) w (.ok tx') w') :
    ∃ old, tx' = { tx with ratings := [(t, key, RatingRow.next fl rating old)] } ∧ Owned w' tx.id t key old := by
  obtain ⟨env, -, he⟩ := h
  obtain ⟨hr, rfl⟩ := within_ok (fun _ => [.rating t key]) (ReviewRepo.updateRatingTx fl t tx key rating) he
  have hseen : ReviewRepo.seen t tx key w = w.ratings t key := by
    unfold ReviewRepo.seen
    rw [hnone]
    rfl
  unfold ReviewRepo.updateRatingTx at hr
  dsimp only at hr
  rw [hseen] at hr
  split at hr
  · cases hr
  · cases hr
    refine ⟨w.ratings t key, by rw [hnone], hlt, fun s' hs' hid => ?_⟩
    obtain ⟨s, hs, rfl⟩ := List.mem_map.1 hs'
    refine ⟨?_, rfl⟩
    by_cases hs : s.id = tx.id
    · simp [hs]
    · rw [if_neg hs] at hid
      exact absurd hid hs

theorem markTx_ok {tx tx' : ReviewTx} {ids : List String} (h : ReviewOp.Exec fl (.markTx tx ids) w (.ok tx') w') :
    tx' = { tx with published := ids } := by
  obtain ⟨env, -, he⟩ := h
  obtain ⟨hr, -⟩ := within_ok (fun _ => ids.map .outbox) (fun _ => .ok ({ tx with published := ids } : ReviewTx)) he
  exact (Except.ok.inj hr).symm

theorem claimBatch_ok {tx tx' : ReviewTx} {limit : ℕ} {rows : List ReviewOutboxRow}
    (h : ReviewOp.Exec fl (.claimBatch tx limit) w (.ok (rows, tx')) w') :
    (∀ e ∈ rows, e ∈ w.outbox) ∧ ∃ ids, tx' = { tx with stamped := ids } := by
  obtain ⟨env, -, he⟩ := h
  obtain ⟨hr, -⟩ := within_ok (fun w => (ReviewOutbox.claimable tx limit w).map fun e : ReviewOutboxRow => .outbox e.id)
    (fun w => .ok (ReviewOutbox.claimable tx limit w,
      ({ tx with stamped := (ReviewOutbox.claimable tx limit w).map fun e : ReviewOutboxRow => e.id } : ReviewTx))) he
  cases hr
  refine ⟨fun e he => ?_, _, rfl⟩
  have hmem := List.mem_mergeSort.1 (List.mem_of_mem_take he)
  exact (List.mem_filter.1 hmem).1

end ReviewOp.Exec

/-! ## A review -/

section Reviews

variable {fl : Doubles} {h : List (Event ReviewOp ReviewOp.Res)} {w : ReviewWorld}

theorem abandon_safe {α : Type} {Q : List (Event ReviewOp ReviewOp.Res) → Except Err α → ReviewWorld → Prop} (tx : ReviewTx)
    {err : Err} (hQ : ∀ h w, Q h (.error err) w) : ReviewSafe fl Q h (ReviewUseCase.abandon tx err) w :=
  ReviewSafe.call (fun _ => True) trivial (fun _ _ _ _ => trivial) (fun _ _ => trivial) fun _ _ _ _ _ _ _ _ _ _ _ => hQ _ _

/-- A transaction that has written a review, and no rating yet. -/
structure Draft (r : Review) (tx : ReviewTx) : Prop where
  reviews : tx.reviews = [r]
  outbox : ∀ e ∈ tx.outbox, e.payload = ReviewUseCase.reviewCreated r
  ratings : tx.ratings = []

/-- What a review is of: one of the two types. -/
def Targets (inp : CreateReviewInput) (t : TargetType) : Prop :=
  ∀ t', t' ≠ t → t'.key (ReviewUseCase.CreateReviewInput.review inp) = ""

/-- The transaction with the next rating of the target. -/
def Rated (fl : Doubles) (inp : CreateReviewInput) (tx : ReviewTx) (w : ReviewWorld) (tx' : ReviewTx) : Prop :=
  ∃ t old, Targets inp t ∧
    tx' = { tx with ratings := [(t, t.key (ReviewUseCase.CreateReviewInput.review inp), RatingRow.next fl inp.rating old)] } ∧
    ReviewOp.Exec.Owned w tx.id t (t.key (ReviewUseCase.CreateReviewInput.review inp)) old

/-- **With the next rating of its target a review may be committed.** -/
theorem commits_of_rated {inp : CreateReviewInput} {id : String} {createdAt : Time} {tx tx' : ReviewTx}
    (hd : Draft { ReviewUseCase.CreateReviewInput.review inp with id := id, createdAt := createdAt } tx) (hr : Rated fl inp tx w tx') :
    w.Commits fl tx' := by
  obtain ⟨t, old, ht, rfl, ho⟩ := hr
  have hkey : ∀ t' : TargetType, t'.key { ReviewUseCase.CreateReviewInput.review inp with id := id, createdAt := createdAt } =
      t'.key (ReviewUseCase.CreateReviewInput.review inp) := fun t' => by cases t' <;> rfl
  refine .inr ⟨t, _, hd.reviews, hd.outbox, fun t' hne => (hkey t').trans (ht t' hne), fun s hs hid => ?_⟩
  obtain ⟨hlock, rfl⟩ := ho.2 s hs hid
  rw [hkey]
  exact ⟨hlock, rfl⟩

theorem updateRatingCache_safe {inp : CreateReviewInput} {tx : ReviewTx} (hone : (inp.venueID != "") ≠ (inp.masterID != ""))
    (hnone : tx.ratings = []) (hlt : tx.id < w.opened) :
    ReviewSafe fl (fun _ a w' => ∀ tx', a = .ok tx' → Rated fl inp tx w' tx') h (ReviewUseCase.updateRatingCache tx inp) w := by
  have hcall : ∀ (t : TargetType) (k : Except Err ReviewTx → ReviewProg (Except Err ReviewTx)), Targets inp t →
      (∀ err, ∃ err', k (.error err) = ReviewUseCase.abandon tx err') → (∀ tx', k (.ok tx') = .ret (.ok tx')) →
      ReviewSafe fl (fun _ a w' => ∀ tx', a = .ok tx' → Rated fl inp tx w' tx') h
        (.call (.updateRatingTx t tx (t.key (ReviewUseCase.CreateReviewInput.review inp)) inp.rating) k) w := by
    intro t k ht herr hok
    refine ReviewSafe.call (fun w => tx.id < w.opened) hlt (fun _ _ hw hg => Nat.lt_of_lt_of_le hw hg.opened)
      (fun _ _ => trivial) fun w₁ r w₂ _ hw he _ _ => ?_
    cases r with
    | error err =>
      obtain ⟨err', hk⟩ := herr err
      rw [hk]
      exact abandon_safe tx fun _ _ => nofun
    | ok tx' =>
      obtain ⟨old, rfl, ho⟩ := he.updateRatingTx_ok hnone hw
      rw [hok]
      rintro w₃ hg - tx' ⟨⟩
      exact ⟨t, old, ht, rfl, ho.goes hg⟩
  unfold ReviewUseCase.updateRatingCache
  split
  · rename_i hv
    refine hcall .venue _ (fun t' hne => ?_) (fun _ => ⟨_, rfl⟩) fun _ => rfl
    cases t' with
    | venue => exact absurd rfl hne
    | master =>
      by_contra hm
      exact hone ((bne_iff_ne.2 hv).trans (bne_iff_ne.2 hm).symm)
  · rename_i hv
    refine hcall .master _ (fun t' hne => ?_) (fun _ => ⟨_, rfl⟩) fun _ => rfl
    cases t' with
    | master => exact absurd rfl hne
    | venue =>
      show inp.venueID = ""
      simpa using hv

theorem finishReview_keeps {inp : CreateReviewInput} {id : String} {createdAt : Time} {tx : ReviewTx} {row : Review}
    (hs : w.Sound fl) (hone : (inp.venueID != "") ≠ (inp.masterID != ""))
    (hd : Draft { ReviewUseCase.CreateReviewInput.review inp with id := id, createdAt := createdAt } tx) (hlt : tx.id < w.opened) :
    ReviewKeeps fl h (ReviewUseCase.finishReview inp row tx) w := by
  unfold ReviewUseCase.finishReview
  refine Prog.Safe.bind ReviewWorld.Goes.refl hs ((updateRatingCache_safe hone hd.ratings hlt).mono fun h' a w' _ hrated => ?_)
  cases a with
  | error err => exact ReviewKeeps.ret _
  | ok tx' =>
    refine ReviewSafe.call (fun w => Rated fl inp tx w tx') (hrated tx' rfl) ?_ (fun w hr => commits_of_rated hd hr) ?_
    · rintro w₁ w₂ ⟨t, old, ht, htx, ho⟩ hg
      exact ⟨t, old, ht, htx, ho.goes hg⟩
    · intro w₁ r w₂ _ _ _ _ _
      cases r with
      | error err => exact abandon_safe tx' fun _ _ => trivial
      | ok u => exact ReviewKeeps.ret _

theorem storeReview_keeps (uc : ReviewUseCase) {inp : CreateReviewInput} (hone : (inp.venueID != "") ≠ (inp.masterID != "")) :
    ReviewKeeps fl h (uc.storeReview inp) w := by
  unfold ReviewUseCase.storeReview
  refine ReviewKeeps.step (fun _ => trivial) fun w₁ r w₂ he => ?_
  cases r with
  | error err => exact ReviewKeeps.ret _
  | ok tx =>
    obtain ⟨rfl, hlt⟩ := he.beginTx_ok
    refine ReviewSafe.call (fun w => w₁.opened < w.opened) hlt (fun _ _ hw hg => Nat.lt_of_lt_of_le hw hg.opened)
      (fun _ _ => trivial) fun w₃ r w₄ _ hlt he hs hg => ?_
    have hlt := Nat.lt_of_lt_of_le hlt hg.opened
    cases r with
    | error err => exact ReviewSafe.ite (abandon_safe _ fun _ _ => trivial) (abandon_safe _ fun _ _ => trivial)
    | ok res =>
      obtain ⟨row, tx⟩ := res
      obtain ⟨id, rfl, rfl⟩ := he.createTx_ok
      refine ReviewSafe.ite ?_ (finishReview_keeps hs hone ⟨rfl, nofun, rfl⟩ hlt)
      refine ReviewSafe.call (fun w => w₁.opened < w.opened) hlt (fun _ _ hw hg => Nat.lt_of_lt_of_le hw hg.opened)
        (fun _ _ => trivial) fun w₅ r w₆ _ hlt he hs hg => ?_
      cases r with
      | error err => exact abandon_safe _ fun _ _ => trivial
      | ok tx =>
        obtain ⟨e, hpay, rfl⟩ := he.outboxCreateTx_ok
        refine finishReview_keeps hs hone ⟨rfl, fun e' he' => ?_, rfl⟩ (Nat.lt_of_lt_of_le hlt hg.opened)
        obtain rfl := List.mem_singleton.1 he'
        exact hpay

theorem createReview_keeps (uc : ReviewUseCase) (inp : CreateReviewInput) (hs : w.Sound fl) :
    ReviewKeeps fl h (uc.createReview inp) w := by
  unfold ReviewUseCase.createReview
  refine ReviewSafe.ite (ReviewKeeps.ret _) ?_
  by_cases hone : ((inp.venueID != "") == (inp.masterID != "")) = true
  · rw [if_pos hone]
    exact ReviewKeeps.ret _
  rw [if_neg hone]
  have hvisited : ReviewKeeps fl h (uc.hasVisited inp) w := by
    unfold ReviewUseCase.hasVisited
    refine ReviewSafe.ite (ReviewKeeps.step (fun _ => trivial) fun _ _ _ _ => ReviewKeeps.ret _) (ReviewSafe.ite ?_ (ReviewKeeps.ret _))
    exact ReviewKeeps.step (fun _ => trivial) fun _ _ _ _ => ReviewKeeps.ret _
  refine Prog.Safe.bind ReviewWorld.Goes.refl hs (hvisited.mono fun h' a w' _ _ => ?_)
  cases a with
  | error err => exact ReviewKeeps.ret _
  | ok visited =>
    cases visited with
    | false => exact ReviewKeeps.ret _
    | true => exact storeReview_keeps uc (by simpa using hone)

end Reviews

/-! ## The worker -/

section Worker

variable {fl : Doubles} {h : List (Event ReviewOp ReviewOp.Res)} {w : ReviewWorld}

theorem publishAll_keeps : ∀ {entries : List ReviewOutboxRow} {h : List (Event ReviewOp ReviewOp.Res)} {w : ReviewWorld},
    w.Sound fl → (∀ e ∈ entries, FromReview w.reviews.rows e.payload) → ReviewKeeps fl h (ReviewWorker.publishAll entries) w
  | [], _, _, _, _ => ReviewKeeps.ret _
  | e :: rest, h, w, hs, hfrom => by
    unfold ReviewWorker.publishAll ReviewWorker.publish
    by_cases hevent : e.eventType = subjectReviewCreated
    · rw [if_pos hevent]
      refine ReviewSafe.call (fun w => ∀ e' ∈ e :: rest, FromReview w.reviews.rows e'.payload) hfrom
        (fun w w' hw hg e' he' => (hw e' he').grows hg.rows) (fun w hw => hw e List.mem_cons_self) fun w₁ r w₂ _ hw _ hs hg => ?_
      cases r with
      | error err => exact ReviewKeeps.ret _
      | ok u =>
        show ReviewKeeps fl _ ((ReviewWorker.publishAll rest).bind fun published => .ret (e.id :: published)) w₂
        refine Prog.Safe.bind ReviewWorld.Goes.refl hs ((publishAll_keeps hs fun e' he' => ?_).mono fun _ _ _ _ _ => ReviewKeeps.ret _)
        exact (hw e' (List.mem_cons_of_mem _ he')).grows hg.rows
    · rw [if_neg hevent]
      exact ReviewKeeps.ret _

theorem commit_keeps {α : Type} {tx : ReviewTx} (hc : ∀ w : ReviewWorld, w.Commits fl tx)
    {k : Except Err Unit → ReviewProg α} (hk : ∀ h r (w : ReviewWorld), w.Sound fl → ReviewKeeps fl h (k r) w) :
    ReviewKeeps fl h (.call (.commit tx) k) w :=
  ReviewSafe.call (fun _ => True) trivial (fun _ _ _ _ => trivial) (fun w _ => hc w) fun _ r w' _ _ _ hs _ => hk _ r w' hs

theorem markPublished_keeps (ids : List String) : ReviewKeeps fl h (ReviewWorker.markPublished ids) w := by
  unfold ReviewWorker.markPublished
  refine ReviewKeeps.step (fun _ => trivial) fun w₁ r w₂ he => ?_
  cases r with
  | error err => exact ReviewKeeps.ret _
  | ok tx =>
    obtain ⟨rfl, -⟩ := he.beginTx_ok
    refine ReviewKeeps.step (fun _ => trivial) fun w₃ r w₄ he => ?_
    cases r with
    | error err => exact ReviewKeeps.step (fun _ => trivial) fun _ _ _ _ => ReviewKeeps.ret _
    | ok tx =>
      obtain rfl := he.markTx_ok
      refine commit_keeps (fun w => .inl ⟨rfl, rfl, rfl⟩) fun h r w _ => ?_
      cases r with
      | error err => exact ReviewKeeps.step (fun _ => trivial) fun _ _ _ _ => ReviewKeeps.ret _
      | ok u => exact ReviewKeeps.ret _

theorem tick_keeps (batchSize : ℕ) : ReviewKeeps fl h (ReviewWorker.tick batchSize) w := by
  unfold ReviewWorker.tick
  refine ReviewKeeps.step (fun _ => trivial) fun w₁ r w₂ he => ?_
  cases r with
  | error err => exact ReviewKeeps.ret _
  | ok tx =>
    obtain ⟨rfl, -⟩ := he.beginTx_ok
    refine ReviewSafe.call (fun _ => True) trivial (fun _ _ _ _ => trivial) (fun _ _ => trivial) fun w₃ r w₄ hs _ he _ hg => ?_
    cases r with
    | error err => exact ReviewKeeps.step (fun _ => trivial) fun _ _ _ _ => ReviewKeeps.ret _
    | ok res =>
      obtain ⟨entries, tx⟩ := res
      obtain ⟨hentries, ids, rfl⟩ := he.claimBatch_ok
      refine ReviewSafe.ite (ReviewKeeps.step (fun _ => trivial) fun _ _ _ _ => ReviewKeeps.ret _) ?_
      -- the entries are rows of the outbox, whose reviews are committed
      refine ReviewSafe.call (fun w => ∀ e ∈ entries, FromReview w.reviews.rows e.payload)
        (fun e he => (hs.outbox e (hentries e he)).grows hg.rows) (fun w w' hw hg e he => (hw e he).grows hg.rows)
        (fun w _ => .inl ⟨rfl, rfl, rfl⟩) fun w₅ r w₆ _ hw _ hs hg => ?_
      cases r with
      | error err => exact ReviewKeeps.step (fun _ => trivial) fun _ _ _ _ => ReviewKeeps.ret _
      | ok u =>
        show ReviewKeeps fl _ ((ReviewWorker.publishAll entries).bind _) w₆
        refine Prog.Safe.bind ReviewWorld.Goes.refl hs ((publishAll_keeps hs fun e he => (hw e he).grows hg.rows).mono
          fun h' published w' hs' _ => ?_)
        refine ReviewSafe.ite (ReviewKeeps.ret _) ?_
        exact Prog.Safe.bind ReviewWorld.Goes.refl hs' ((markPublished_keeps published).mono fun _ _ _ _ _ => ReviewKeeps.ret _)

end Worker

/-! ## The subscriber -/

namespace ReviewOp.Exec

variable {fl : Doubles} {w w' : ReviewWorld} {n i : ℕ} {v : String}

theorem getVenueRating_ok {rating : VenueRating} (h : ReviewOp.Exec fl (.within n i (.getVenueRating v)) w (.ok rating) w') :
    rating = ReviewRepo.getVenueRating v w ∧ w' = { w with callback := some (n, i + 1) } := by
  obtain ⟨env, -, he⟩ := h
  obtain ⟨hr, rfl⟩ := Prod.mk.inj he
  have hrun : (HandlerOp.getVenueRating v).run env w = (.ok rating, ((HandlerOp.getVenueRating v).run env w).2) := Prod.ext hr rfl
  have hok := Fault.of_ok (show env.fault.apply id (fun w => (.ok (ReviewRepo.getVenueRating v w), w)) w = _ from hrun)
  obtain ⟨hr, hw⟩ := Prod.mk.inj hok
  exact ⟨(Except.ok.inj hr).symm, by rw [← hw]⟩

theorem updateRating_ok {avgRating : ℚ} {reviewCount : ℤ}
    (h : ReviewOp.Exec fl (.within n i (.updateRating v avgRating reviewCount)) w (.ok ()) w') :
    w' = { w.updateRating v avgRating reviewCount with callback := some (n, i + 1) } := by
  obtain ⟨env, -, he⟩ := h
  obtain ⟨hr, rfl⟩ := Prod.mk.inj he
  have hrun : (HandlerOp.updateRating v avgRating reviewCount).run env w =
      (.ok (), ((HandlerOp.updateRating v avgRating reviewCount).run env w).2) := Prod.ext hr rfl
  have hok := Fault.of_ok (show env.fault.apply Err.ofDB (fun w => (.ok (), w.updateRating v avgRating reviewCount)) w = _ from hrun)
  rw [← (Prod.mk.inj hok).2]

/-- An error of the venue's row carries no status. -/
theorem updateRating_error {avgRating : ℚ} {reviewCount : ℤ} {err : Err}
    (h : ReviewOp.Exec fl (.within n i (.updateRating v avgRating reviewCount)) w (.error err) w') : err.code = .unknown := by
  obtain ⟨env, -, he⟩ := h
  obtain ⟨hr, -⟩ := Prod.mk.inj he
  cases hf : env.fault with
  | none =>
    rw [HandlerOp.run, hf] at hr
    cases hr
  | before e =>
    rw [HandlerOp.run, hf] at hr
    cases hr
    rfl
  | after e =>
    rw [HandlerOp.run, hf] at hr
    cases hr
    rfl

end ReviewOp.Exec

section Subscriber

variable {fl : Doubles} {h : List (Event ReviewOp ReviewOp.Res)} {w w' : ReviewWorld} {evt : ReviewCreatedEvent}

/-- The venue has copied a rating that counts the review of the event. -/
def Followed (fl : Doubles) (evt : ReviewCreatedEvent) (w : ReviewWorld) : Prop :=
  ∃ rows, rows <+: w.reviews.rows ∧ FromReview rows evt ∧ ∀ x, w.venues evt.venueID = some x →
    (VenueRating.of (ratingOf fl .venue evt.venueID rows)).reviewCount ≤ x.reviewCount

/-- A venue of which there is a review is none that is added. -/
theorem FromReview.not_unknown {rows : List Review} (hf : FromReview rows evt) (hp : rows <+: w.reviews.rows) :
    ¬ w.Unknown evt.venueID := by
  obtain ⟨r, hr, rfl⟩ := hf
  exact fun hu => hu.2 r (hp.subset hr) rfl

theorem Followed.goes (hf : Followed fl evt w) (hg : w.Goes w') : Followed fl evt w' := by
  obtain ⟨rows, hp, hfrom, hle⟩ := hf
  refine ⟨rows, hp.trans hg.rows, hfrom, fun x' hx' => ?_⟩
  rcases hg.counts _ x' hx' with hnew | ⟨x, hx, hxx⟩
  · exact absurd hnew (hfrom.not_unknown hp)
  · exact Int.le_trans (hle x hx) hxx

/-- The callback has read a rating that counts the review of the event, and that is no older than the one the venue has. -/
def ReadBy (fl : Doubles) (n : ℕ) (evt : ReviewCreatedEvent) (rating : VenueRating) (w : ReviewWorld) : Prop :=
  (n < w.callbacks ∧ ∀ i, w.callback = some (n, i) → 1 ≤ i) ∧ ∃ rows, rows <+: w.reviews.rows ∧ FromReview rows evt ∧
    rating = VenueRating.of (ratingOf fl .venue evt.venueID rows) ∧
    (w.callback = some (n, 1) → ∀ x, w.venues evt.venueID = some x → x.reviewCount ≤ rating.reviewCount)

/-- **Nobody else writes a rating between two steps of a callback.** -/
theorem ReadBy.goes {n : ℕ} {rating : VenueRating} (hr : ReadBy fl n evt rating w) (hg : w.Goes w') : ReadBy fl n evt rating w' := by
  obtain ⟨⟨hlt, hstep⟩, rows, hp, hfrom, heq, hle⟩ := hr
  refine ⟨⟨Nat.lt_of_lt_of_le hlt hg.callbacks, fun i' hc => ?_⟩, rows, hp.trans hg.rows, hfrom, heq, fun hc x' hx' => ?_⟩
  · obtain ⟨i, hi, hii, -⟩ := hg.paced n i' hc hlt
    exact Nat.le_trans (hstep i hi) hii
  · obtain ⟨i, hi, hii, hsame⟩ := hg.paced n 1 hc hlt
    obtain rfl : i = 1 := Nat.le_antisymm hii (hstep i hi)
    rcases hsame rfl _ x' hx' with hx | hnew
    · exact hle hi x' hx
    · exact absurd hnew (hfrom.not_unknown hp)

/-- A rating that is read is no older than the one of any venue. -/
theorem readBy_of_read (hs : w.Sound fl) (hv : evt.venueID ≠ "") (hf : FromReview w.reviews.rows evt) {n : ℕ} (hn : n < w.callbacks) :
    ReadBy fl n evt (ReviewRepo.getVenueRating evt.venueID w) { w with callback := some (n, 1) } := by
  have hread : ReviewRepo.getVenueRating evt.venueID w = VenueRating.of (ratingOf fl .venue evt.venueID w.reviews.rows) := by
    unfold ReviewRepo.getVenueRating
    rw [hs.exact .venue _ hv]
  refine ⟨⟨hn, fun i hc => ?_⟩, w.reviews.rows, List.prefix_rfl, hf, hread, fun _ x hx => ?_⟩
  · cases hc
    exact Nat.le_refl _
  · obtain ⟨rows, hp, rfl⟩ := hs.venues _ x hx
    rw [hread, reviewCount_of, reviewCount_of]
    exact Int.ofNat_le.2 (reviewsOf_grows hp).length_le

theorem handleReviewCreated_safe {n : ℕ} (hn : n < w.callbacks) (hf : FromReview w.reviews.rows evt) :
    ReviewSafe fl (fun _ res w' => evt.targetType = .venue → res.ok = true → Followed fl evt w') h
      (HandlerOp.steps n 0 (VenueSubscriber.handleReviewCreated (some evt))) w := by
  unfold VenueSubscriber.handleReviewCreated
  dsimp only
  by_cases ht : evt.targetType ≠ .venue
  · rw [if_pos ht]
    exact fun _ _ _ hvenue => absurd hvenue ht
  rw [if_neg ht]
  by_cases hu : isUUID evt.venueID = false
  · rw [if_pos hu]
    exact fun _ _ _ _ => nofun
  rw [if_neg hu]
  have hv : evt.venueID ≠ "" := ne_empty_of_isUUID (by simpa using hu)
  refine ReviewSafe.call (fun w => n < w.callbacks ∧ FromReview w.reviews.rows evt) ⟨hn, hf⟩
    (fun w w' hw hg => ⟨Nat.lt_of_lt_of_le hw.1 hg.callbacks, hw.2.grows hg.rows⟩) (fun _ _ => trivial) fun w₁ r w₂ hs hw he _ _ => ?_
  cases r with
  | error err => exact fun _ _ _ _ => nofun
  | ok rating =>
    obtain ⟨rfl, rfl⟩ := he.getVenueRating_ok
    have hread := readBy_of_read hs hv hw.2 hw.1
    generalize ReviewRepo.getVenueRating evt.venueID w₁ = rating at hread ⊢
    have hprog : VenueSubscriber.updateRating evt.venueID rating.avgRating rating.reviewCount =
        .call (.updateRating evt.venueID rating.avgRating rating.reviewCount) fun r =>
          match r with
          | .error err => .ret (.error (err.wrap "update rating"))
          | .ok () => .ret (.ok ()) := by
      obtain ⟨-, rows, hp, -, rfl, -⟩ := hread
      have hrange := venueRating_range fl .venue evt.venueID fun r hr =>
        ReviewWorld.rating_range (t := w₁.reviews) (hp.subset hr)
      unfold VenueSubscriber.updateRating
      rw [if_neg (by rintro (hlo | hhi); exacts [absurd hrange.1 (not_le.2 hlo), absurd hrange.2.1 (not_le.2 hhi)]),
        if_neg (by omega)]
      refine Prog.call_congr fun r => ?_
      cases r <;> rfl
    show ReviewSafe fl _ _ (HandlerOp.steps n 1 ((VenueSubscriber.updateRating evt.venueID rating.avgRating rating.reviewCount).bind _)) _
    rw [hprog]
    refine ReviewSafe.call (ReadBy fl n evt rating) hread (fun _ _ hr hg => hr.goes hg) (fun w hr hc => ?_)
      fun w₂ r w₃ _ hr he _ _ => ?_
    · obtain ⟨-, rows, hp, -, heq, hle⟩ := hr
      exact ⟨⟨rows, hp, heq⟩, hle hc⟩
    · cases r with
      | error err =>
        have hcode : (err.wrap "update rating").code = .unknown := he.updateRating_error
        have hnak : ¬ ((err.wrap "update rating").code = .invalidArgument ∨ (err.wrap "update rating").code = .notFound) := by
          rw [hcode]
          decide
        show ReviewSafe fl _ _ (HandlerOp.steps n 2 (if (err.wrap "update rating").code = .invalidArgument ∨
          (err.wrap "update rating").code = .notFound then (.ret ⟨true, true⟩ : HandlerProg Handled) else .ret ⟨false, false⟩)) _
        rw [if_neg hnak]
        exact fun _ _ _ _ => nofun
      | ok u =>
        obtain rfl := he.updateRating_ok
        obtain ⟨-, rows, hp, hfrom, rfl, -⟩ := hr
        generalize hrating : VenueRating.of (ratingOf fl .venue evt.venueID rows) = rating
        have hfollowed : Followed fl evt { w₂.updateRating evt.venueID rating.avgRating rating.reviewCount with
            callback := some (n, 2) } := by
          refine ⟨rows, hp, hfrom, fun x hx => ?_⟩
          have hx : (w₂.updateRating evt.venueID rating.avgRating rating.reviewCount).venues evt.venueID = some x := hx
          rw [ReviewWorld.updateRating_venues, if_pos rfl] at hx
          obtain ⟨x, -, rfl⟩ := Option.map_eq_some_iff.1 hx
          rw [hrating]
        exact fun w₄ hg _ _ _ => hfollowed.goes hg

/-- **A delivery whose event is handled leaves a rating that counts its review.** -/
theorem consume_safe :
    ReviewSafe fl (fun _ a w' => ∀ evt, a.1 = some evt → FromReview w'.reviews.rows evt ∧
      (evt.targetType = .venue → a.2.ok = true → Followed fl evt w')) h VenueSubscriber.consume w := by
  unfold VenueSubscriber.consume
  refine ReviewSafe.call (fun _ => True) trivial (fun _ _ _ _ => trivial) (fun _ _ => trivial) fun w₁ r w₂ hs₁ _ he hs₂ _ => ?_
  obtain ⟨n, msg⟩ := r
  obtain ⟨env, ⟨-, hmsg⟩, he⟩ := he
  obtain ⟨hr, rfl⟩ := Prod.mk.inj he
  obtain ⟨rfl, rfl⟩ := Prod.mk.inj hr
  have hhandled : ReviewSafe fl (fun _ res w' => ∀ evt, env.message = some evt → FromReview w'.reviews.rows evt ∧
      (evt.targetType = .venue → res.ok = true → Followed fl evt w')) (h ++ [⟨.deliver, (w₁.callbacks, env.message)⟩])
      (HandlerOp.steps w₁.callbacks 0 (VenueSubscriber.handleReviewCreated env.message))
      { w₁ with callback := some (w₁.callbacks, 0), callbacks := w₁.callbacks + 1 } := by
    cases hm : env.message with
    | none => exact fun _ _ _ _ => nofun
    | some evt =>
      have hfrom := hs₁.stream evt (hmsg evt hm)
      have hkeep : ∀ w w' : ReviewWorld, FromReview w.reviews.rows evt → w.Goes w' → FromReview w'.reviews.rows evt :=
        fun _ _ hf hg => hf.grows hg.rows
      refine Prog.Safe.mono ?_ (Prog.Safe.frame hkeep hfrom (handleReviewCreated_safe (Nat.lt_succ_self _) hfrom))
      rintro _ res w' _ hf evt' ⟨⟩
      exact hf
  show ReviewSafe fl _ _ ((HandlerOp.steps w₁.callbacks 0 (VenueSubscriber.handleReviewCreated env.message)).bind _) _
  refine Prog.Safe.bind ReviewWorld.Goes.refl hs₂ (hhandled.mono fun h' res w' _ hf => ?_)
  have hstable : ∀ w w' : ReviewWorld, (∀ evt, env.message = some evt → FromReview w.reviews.rows evt ∧
      (evt.targetType = .venue → res.ok = true → Followed fl evt w)) → w.Goes w' → ∀ evt, env.message = some evt →
      FromReview w'.reviews.rows evt ∧ (evt.targetType = .venue → res.ok = true → Followed fl evt w') :=
    fun w w' hw hg evt hm => ⟨(hw evt hm).1.grows hg.rows, fun ht hok => ((hw evt hm).2 ht hok).goes hg⟩
  refine ReviewSafe.call _ hf hstable (fun _ _ => trivial) fun w₃ r w₄ _ hf _ _ hg => ?_
  exact fun w₅ hg' _ => hstable w₄ w₅ (hstable w₃ w₄ hf hg) hg'

end Subscriber

/-! ## Every run -/

/-- No review yet, and the venues as they are added. -/
structure ReviewWorld.Fresh (w : ReviewWorld) : Prop where
  reviews : w.reviews.rows = []
  ratings : ∀ t key, w.ratings t key = none
  outbox : w.outbox = []
  sessions : w.sessions = []
  stream : w.stream = []
  callback : w.callback = none
  venues : ∀ v x, w.venues v = some x → x = ⟨0, 0⟩

theorem ReviewWorld.Fresh.sound {fl : Doubles} {w : ReviewWorld} (h : w.Fresh) : w.Sound fl where
  exact t key _ := by
    rw [h.ratings, h.reviews]
    rfl
  outbox := by simp [h.outbox]
  stream := by simp [h.stream]
  ids := by simp [h.sessions]
  exclusive := by simp [h.sessions]
  callback := by simp [h.callback]
  venues v x hx := ⟨[], List.nil_prefix, h.venues v x hx⟩

section Runs

variable {fl : Doubles} {uc : ReviewUseCase} {w₀ : ReviewWorld} {c : ReviewConfig}

/-- What a call leaves when it returns. -/
def ReviewAnswer.Leaves (fl : Doubles) (a : ReviewAnswer) (w : ReviewWorld) : Prop :=
  ∀ evt res, a = .consumed (some evt) res → FromReview w.reviews.rows evt ∧
    (evt.targetType = .venue → res.ok = true → Followed fl evt w)

theorem prog_safe (call : ReviewCall) {w : ReviewWorld} (hs : w.Sound fl) :
    ReviewSafe fl (fun _ a w => a.Leaves fl w) [] (call.prog uc) w := by
  have hother : ∀ {h : List (Event ReviewOp ReviewOp.Res)} {a : ReviewAnswer} {w : ReviewWorld},
      (∀ msg res, a ≠ .consumed msg res) → ReviewSafe fl (fun _ a w => a.Leaves fl w) h (.ret a) w :=
    fun ha _ _ _ evt res he => absurd he (ha (some evt) res)
  cases call with
  | createReview inp =>
    exact Prog.Safe.bind ReviewWorld.Goes.refl hs ((createReview_keeps uc inp hs).mono fun _ _ _ _ _ => hother fun _ _ => ReviewAnswer.noConfusion)
  | tick batchSize =>
    exact Prog.Safe.bind ReviewWorld.Goes.refl hs ((tick_keeps batchSize).mono fun _ _ _ _ _ => hother fun _ _ => ReviewAnswer.noConfusion)
  | resetStaleLocks =>
    exact ReviewSafe.call (fun _ => True) trivial (fun _ _ _ _ => trivial) (fun _ _ => trivial) fun _ _ _ _ _ _ _ _ => hother fun _ _ => ReviewAnswer.noConfusion
  | consume =>
    refine Prog.Safe.bind ReviewWorld.Goes.refl hs ((consume_safe).mono fun _ a w' _ ha => ?_)
    obtain ⟨msg, res⟩ := a
    rintro w₁ hg - evt res' ⟨⟩
    obtain ⟨hfrom, hfollowed⟩ := ha evt rfl
    exact ⟨hfrom.grows hg.rows, fun ht hok => (hfollowed ht hok).goes hg⟩

/-- **In every state the ratings are exact, and every call that has returned has left what it leaves.** -/
theorem reach_rated (h0 : w₀.Sound fl) (h : (reviewSys fl uc).Reach anyStep w₀ c) :
    c.world.Sound fl ∧ ∀ t ∈ c.threads, ∀ a, t.rest = .ret a → a.Leaves fl c.world := by
  obtain ⟨hs, -, hts⟩ := h.safe (fun _ _ _ _ => True) (fun _ _ _ _ _ => trivial) ReviewWorld.Goes.refl
    (fun _ _ _ h h' => h.trans h') (Q := fun _ _ a w => a.Leaves fl w) h0 (fun call w _ hs _ => prog_safe call hs)
    (fun _ _ hs hc => ReviewWorld.Changes.sound hs hc)
  refine ⟨hs, fun t ht a ha => ?_⟩
  have hsafe := hts t ht
  rw [ha] at hsafe
  exact hsafe _ (.refl _) hs

/-- Two reviews with one identifier are one. -/
theorem review_eq {t : Table reviewSchema} {r r' : Review} (hr : r ∈ t.rows) (hr' : r' ∈ t.rows) (hid : r.id = r'.id) : r = r' :=
  t.eq_of_clash hr hr' (by simp [reviewSchema, hid])

/-- A review of a venue is not one of a master. -/
theorem reviewCreated_venue {t : Table reviewSchema} {r : Review} (hr : r ∈ t.rows) (hv : r.venueID ≠ "") :
    (ReviewUseCase.reviewCreated r).targetType = .venue := by
  have hcheck := t.checked r hr
  simp only [reviewSchema, Bool.and_eq_true, bne_iff_ne] at hcheck
  have hm : ¬ r.masterID ≠ "" := fun hm => hcheck.2 ((bne_iff_ne.2 hv).trans (bne_iff_ne.2 hm).symm)
  exact if_neg hm

/-- The reviews up to the last one are all of them. -/
theorem reviewsOf_last {t : Table reviewSchema} {v : String} {rows rs : List Review} {r : Review} (hp : rows <+: t.rows)
    (hrs : reviewsOf .venue v t.rows = rs ++ [r]) (hr : r ∈ rows) : reviewsOf .venue v rows = reviewsOf .venue v t.rows := by
  have hmem : r ∈ reviewsOf .venue v t.rows := by
    rw [hrs]
    exact List.mem_append_right _ (List.mem_singleton.2 rfl)
  have hpre : reviewsOf .venue v rows <+: rs ++ [r] := hrs ▸ reviewsOf_grows hp
  rcases List.prefix_concat_iff.1 hpre with heq | hshort
  · exact heq.trans hrs.symm
  · have hin : r ∈ rs := hshort.subset (List.mem_filter.2 ⟨hr, (List.mem_filter.1 hmem).2⟩)
    have hpair := (t.noClash.filter (TargetType.venue.key · == v))
    have hpair : (rs ++ [r]).Pairwise fun a b => reviewSchema.clash a b = false := hrs ▸ hpair
    have hclash := (List.pairwise_append.1 hpair).2.2 r hin r (List.mem_singleton.2 rfl)
    simp [reviewSchema] at hclash

/-- **The cache of a venue is the rating of its committed reviews, and the venue has it once all their events are handled.** -/
theorem ratings_converge (h0 : w₀.Fresh) (h : (reviewSys fl uc).Reach anyStep w₀ c) {v : String} (hv : v ≠ "") :
    c.world.ratings .venue v = ratingOf fl .venue v c.world.reviews.rows ∧
    ((∀ r ∈ reviewsOf .venue v c.world.reviews.rows, ∃ t ∈ c.threads, ∃ evt res, t.rest = .ret (.consumed (some evt) res) ∧
        evt.reviewID = r.id ∧ res.ok = true) →
      ∀ x, c.world.venues v = some x → x = VenueRating.of (ratingOf fl .venue v c.world.reviews.rows)) := by
  obtain ⟨hs, hleft⟩ := reach_rated h0.sound h
  refine ⟨hs.exact .venue v hv, fun hall x hx => ?_⟩
  obtain ⟨rows, hp, rfl⟩ := hs.venues v x hx
  refine congrArg VenueRating.of (ratingOf_of_count fl hp ?_)
  rcases List.eq_nil_or_concat (reviewsOf .venue v c.world.reviews.rows) with hnil | ⟨rs, r, hrs⟩
  · rw [hnil]
    exact Nat.zero_le _
  rw [List.concat_eq_append] at hrs
  have hmem : r ∈ reviewsOf .venue v c.world.reviews.rows := by
    rw [hrs]
    exact List.mem_append_right _ (List.mem_singleton.2 rfl)
  obtain ⟨hr, hrv⟩ := List.mem_filter.1 hmem
  have hrv : r.venueID = v := beq_iff_eq.1 hrv
  obtain ⟨t, ht, evt, res, hret, hid, hok⟩ := hall r hmem
  obtain ⟨⟨r', hr', rfl⟩, hfollowed⟩ := hleft t ht _ hret evt res rfl
  obtain rfl : r' = r := review_eq hr' hr hid
  -- the rating it was handled with counts the last review, and so all of them
  obtain ⟨rows', hp', ⟨r'', hr'', heq⟩, hle⟩ := hfollowed (reviewCreated_venue hr (by rw [hrv]; exact hv)) hok
  obtain rfl : r'' = r' := review_eq (hp'.subset hr'') hr (congrArg ReviewCreatedEvent.reviewID heq).symm
  have hlast := reviewsOf_last hp' hrs hr''
  have hcount := hle _ (show c.world.venues r''.venueID = _ by rw [hrv]; exact hx)
  rw [show (ReviewUseCase.reviewCreated r'').venueID = v from hrv, reviewCount_of, reviewCount_of, hlast] at hcount
  exact Int.ofNat_le.1 hcount

end Runs

/-! ## A venue that is reviewed once -/

def theVenue : String := "11111111-1111-1111-1111-111111111111"

/-- A venue that nobody has reviewed. -/
def unreviewed : ReviewWorld where
  reviews := ⟨[], by simp, by simp⟩
  ratings _ _ := none
  outbox := []
  sessions := []
  opened := 0
  clock := 100
  stream := []
  venues v := if v = theVenue then some ⟨0, 0⟩ else none
  callback := none
  callbacks := 0

def theGuest : String := "22222222-2222-2222-2222-222222222222"

def theReview : CreateReviewInput where
  userID := theGuest
  userName := "Ann"
  venueID := theVenue
  masterID := ""
  rating := 4
  text := ""
  isAnonymous := false

def reviewing : ReviewUseCase := ⟨true, true⟩

def exactly : Doubles := ⟨id, monotone_id, fun _ _ => rfl⟩

def theRow : Review := { ReviewUseCase.CreateReviewInput.review theReview with id := "33333333-3333-3333-3333-333333333333", createdAt := 100 }

/-- Nothing fails. -/
def calmReview (newID : String) (message : Option ReviewCreatedEvent) : ReviewEnv := ⟨newID, true, false, message, .none⟩

theorem theRow_check : reviewSchema.check theRow = true := by decide +kernel

def reviewed : Table reviewSchema := ⟨[theRow], by simp [theRow_check], by simp⟩

theorem theRow_insert : unreviewed.reviews.insertAll [theRow] = .ok reviewed := by
  simp [Table.insertAll, Table.insert, theRow_check, unreviewed, reviewed]

theorem calm_exec (newID : String) (message : Option ReviewCreatedEvent) {o : ReviewOp} {w w' : ReviewWorld} {r : o.Res}
    (hr : ReviewOp.Runs (calmReview newID message) w o) (h : o.run exactly (calmReview newID message) w = (r, w')) :
    ReviewOp.Exec exactly o w r w' := ⟨_, hr, h⟩

def theEvent : ReviewCreatedEvent := ReviewUseCase.reviewCreated theRow

def theTx : ReviewTx := ⟨0, 100, [theRow], [⟨"e1", theRow.id, subjectReviewCreated, theEvent, 100, none, none⟩],
  [(.venue, theVenue, ⟨4, 4, 1⟩)], [], []⟩

def reviewedWorld : ReviewWorld := { unreviewed with
  opened := 1
  reviews := reviewed
  ratings := ReviewWorld.putRatings unreviewed.ratings theTx.ratings
  outbox := theTx.outbox }

/-- A review that is stored. -/
theorem createTx_exec (newID : String) {tx : ReviewTx} {review : Review} {w : ReviewWorld} {t : Table reviewSchema}
    (ho : w.isOpen tx.id = true) (hfree : w.lockedOut tx.id (.review review.userID review.venueID review.masterID) = false)
    (h : w.reviews.insertAll (tx.reviews ++ [{ review with id := newID, createdAt := tx.began }]) = .ok t) :
    ReviewOp.Exec exactly (.createTx tx review) w (.ok ({ review with id := newID, createdAt := tx.began },
        { tx with reviews := tx.reviews ++ [{ review with id := newID, createdAt := tx.began }] }))
      (w.grant tx.id [.review review.userID review.venueID review.masterID]) := by
  refine calm_exec newID none trivial ?_
  simp [ReviewOp.run, calmReview, ReviewWorld.within, ReviewRepo.createTx, ho, hfree, h]

theorem commit_exec {tx : ReviewTx} {w : ReviewWorld} {t : Table reviewSchema} (ho : w.isOpen tx.id = true)
    (h : w.reviews.insertAll tx.reviews = .ok t) :
    ReviewOp.Exec exactly (.commit tx) w (.ok ()) ({ w with
      reviews := t
      ratings := ReviewWorld.putRatings w.ratings tx.ratings
      outbox := w.outbox.map (ReviewOutbox.stamp tx) ++ tx.outbox }.close tx.id) := by
  refine calm_exec "" none trivial ?_
  simp [ReviewOp.run, calmReview, ReviewWorld.commit, ho, h]

theorem created_runs : (ReviewCall.prog reviewing (.createReview theReview)).Runs (ReviewOp.Exec exactly) unreviewed
    (.review (.ok theRow)) reviewedWorld := by
  refine ⟨_, _, calm_exec theRow.id none trivial rfl, ?_⟩
  refine ⟨_, _, calm_exec theRow.id none trivial rfl, ?_⟩
  refine ⟨_, _, createTx_exec theRow.id rfl rfl theRow_insert, ?_⟩
  refine ⟨_, _, calm_exec "e1" none trivial rfl, ?_⟩
  refine ⟨_, _, calm_exec "e1" none trivial rfl, ?_⟩
  refine ⟨_, _, commit_exec rfl theRow_insert, ?_⟩
  exact ⟨rfl, rfl⟩

def publishedWorld : ReviewWorld := { reviewedWorld with
  opened := 3
  outbox := [⟨"e1", theRow.id, subjectReviewCreated, theEvent, 100, some 100, none⟩]
  stream := [theEvent] }

/-- One entry is claimed. -/
theorem claimBatch_exec {tx : ReviewTx} {limit : ℕ} {w : ReviewWorld} {row : ReviewOutboxRow} (ho : w.isOpen tx.id = true)
    (hfree : w.lockedOut tx.id (.outbox row.id) = false) (h : ReviewOutbox.claimable tx limit w = [row]) :
    ReviewOp.Exec exactly (.claimBatch tx limit) w (.ok ([row], { tx with stamped := [row.id] })) (w.grant tx.id [.outbox row.id]) := by
  refine calm_exec "" none trivial ?_
  simp [ReviewOp.run, calmReview, ReviewWorld.within, ho, hfree, h]

theorem published_runs : (ReviewCall.prog reviewing (.tick 10)).Runs (ReviewOp.Exec exactly) reviewedWorld .worked publishedWorld := by
  have hclaim : ∀ w : ReviewWorld, w.outbox = theTx.outbox → w.sessions = [⟨1, []⟩] →
      ReviewOutbox.claimable ⟨1, 100, [], [], [], [], []⟩ 10 w = [⟨"e1", theRow.id, subjectReviewCreated, theEvent, 100, none, none⟩] := by
    intro w ho hs
    simp [ReviewOutbox.claimable, ho, ReviewWorld.lockedOut, hs, theTx]
  refine ⟨_, _, calm_exec "" none trivial rfl, ?_⟩
  refine ⟨_, _, claimBatch_exec rfl rfl (hclaim _ rfl rfl), ?_⟩
  refine ⟨_, _, commit_exec rfl rfl, ?_⟩
  refine ⟨_, _, calm_exec "" none trivial rfl, ?_⟩
  refine ⟨_, _, calm_exec "" none trivial rfl, ?_⟩
  refine ⟨_, _, calm_exec "" none trivial rfl, ?_⟩
  refine ⟨_, _, commit_exec rfl rfl, ?_⟩
  exact ⟨rfl, rfl⟩

def followedWorld : ReviewWorld := { publishedWorld with
  venues := Function.update publishedWorld.venues theVenue (some ⟨4, 1⟩)
  callbacks := 1 }

theorem followed_runs : (ReviewCall.prog reviewing .consume).Runs (ReviewOp.Exec exactly) publishedWorld
    (.consumed (some theEvent) ⟨true, true⟩) followedWorld := by
  refine ⟨_, _, calm_exec "" (some theEvent) ⟨rfl, by simp [calmReview, publishedWorld]⟩ rfl, ?_⟩
  change Prog.Runs _ (((HandlerOp.steps 0 0 (VenueSubscriber.handleReviewCreated (some theEvent))).bind _).bind _) _ _ _
  simp only [VenueSubscriber.handleReviewCreated]
  rw [if_neg (by decide), if_neg (show ¬ isUUID theEvent.venueID = false by decide +kernel)]
  refine ⟨_, _, calm_exec "" none rfl rfl, ?_⟩
  refine ⟨_, _, calm_exec "" none rfl rfl, ?_⟩
  refine ⟨_, _, calm_exec "" none ⟨_, rfl⟩ rfl, ?_⟩
  exact ⟨rfl, rfl⟩

theorem unreviewed_fresh : unreviewed.Fresh := by
  refine ⟨rfl, fun _ _ => rfl, rfl, rfl, rfl, rfl, fun v x hx => ?_⟩
  simp only [unreviewed] at hx
  split at hx
  · exact (Option.some.inj hx).symm
  · cases hx

theorem ratings_converge_theVenue : ∃ c : ReviewConfig, (reviewSys exactly reviewing).Reach anyStep unreviewed c ∧
    c.world.venues theVenue = some (VenueRating.of (ratingOf exactly .venue theVenue c.world.reviews.rows)) ∧
    c.world.reviews.rows = [theRow] := by
  have hany : ∀ call o w r w', ReviewOp.Exec exactly o w r w' → (reviewSys exactly reviewing).exec o w r w' ∧
      ∀ ts (t : Thread ReviewCall ReviewOp ReviewOp.Res ReviewAnswer), t.call = call →
        anyStep (⟨w, ts⟩ : ReviewConfig) t o r := fun _ _ _ _ _ he => ⟨he, fun _ _ _ => trivial⟩
  have h : (reviewSys exactly reviewing).Reach anyStep unreviewed ⟨unreviewed, []⟩ := .init
  obtain ⟨d₁, h⟩ := h.runs (hany (.createReview theReview)) created_runs trivial
  obtain ⟨d₂, h⟩ := h.runs (hany (.tick 10)) published_runs trivial
  obtain ⟨d₃, h⟩ := h.runs (hany .consume) followed_runs trivial
  refine ⟨_, h, ?_, rfl⟩
  obtain ⟨-, hconv⟩ := ratings_converge (v := theVenue) unreviewed_fresh h (by decide)
  refine congrArg some (hconv ?_ ⟨4, 1⟩ rfl)
  intro r hr
  obtain rfl : r = theRow := List.mem_singleton.1 (List.mem_filter.1 hr).1
  exact ⟨_, List.mem_append_right _ (List.mem_singleton.2 rfl), theEvent, ⟨true, true⟩, rfl, rfl, rfl⟩

end Agregator
