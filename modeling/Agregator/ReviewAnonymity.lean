import Agregator.ReviewLists
/-!
# ReviewAnonymity — what the lists of reviews tell of anonymous authors

Two stores may differ in the authors of their anonymous reviews alone.  A list does not tell them apart exactly when no anonymous
review stands on the page it shows (`lists_anonymous_iff`): nothing on the way to the response hides an author.
-/
namespace Agregator

open Rel

/-- A review without its author, if it is anonymous. -/
def Review.masked (r : Review) : Review := if r.isAnonymous then { r with userID := "", userName := "" } else r

/-- Two stores that hold the same reviews, but for the authors of the anonymous ones. -/
structure RepliedReviews.SameButAuthors (s s' : RepliedReviews) : Prop where
  reviews : s.reviews.rows.map Review.masked = s'.reviews.rows.map Review.masked
  replies : s.replies = s'.replies

/-! ## Pages -/

namespace ReviewQuery

variable {q : ReviewQuery} {replies : List ReviewReply}

/-- **A page of changed reviews**, when the change is in nothing that a query looks at. -/
theorem rowsOfPage_map {f : Review → Review} (hid : ∀ r, (f r).id = r.id) (hkey : ∀ t r, TargetType.key t (f r) = t.key r)
    (htime : ∀ r, (f r).createdAt = r.createdAt) (rows : List Review) :
    q.rowsOfPage replies (rows.map f) = (q.rowsOfPage replies rows).map f := by
  have hfilter : (rows.map f).filter (fun r => q.target.key r == q.targetID && (!q.onlyUnanswered || (replyTo replies r).isNone)) =
      (rows.filter fun r => q.target.key r == q.targetID && (!q.onlyUnanswered || (replyTo replies r).isNone)).map f := by
    rw [List.filter_map]
    congr 2
    funext r
    simp only [Function.comp, hkey, replyTo, hid]
  have hsort : ∀ l : List Review, (l.map f).insertionSort (fun a b => b.createdAt ≤ a.createdAt) =
      (l.insertionSort fun a b => b.createdAt ≤ a.createdAt).map f := by
    intro l
    refine (List.map_insertionSort _ _ f l fun a _ b _ => ?_).symm
    rw [htime, htime]
  unfold rowsOfPage matching
  rw [hfilter, hsort, List.map_take, List.map_drop]

theorem matching_length_map {f : Review → Review} (hid : ∀ r, (f r).id = r.id)
    (hkey : ∀ t r, TargetType.key t (f r) = t.key r) (rows : List Review) :
    (q.matching replies (rows.map f)).length = (q.matching replies rows).length := by
  unfold matching
  rw [List.length_insertionSort, List.length_insertionSort, List.filter_map, List.length_map]
  congr 2
  funext r
  simp only [Function.comp, hkey, replyTo, hid]

end ReviewQuery

namespace Review

theorem masked_id (r : Review) : r.masked.id = r.id := by
  unfold masked
  split <;> rfl

theorem masked_key (t : TargetType) (r : Review) : t.key r.masked = t.key r := by
  unfold masked
  split <;> cases t <;> rfl

theorem masked_createdAt (r : Review) : r.masked.createdAt = r.createdAt := by
  unfold masked
  split <;> rfl

theorem masked_isAnonymous (r : Review) : r.masked.isAnonymous = r.isAnonymous := by
  unfold masked
  split <;> rfl

theorem eq_of_masked {r r' : Review} (h : r.masked = r'.masked) (hr : r.isAnonymous = false) : r = r' := by
  have hr' : r'.isAnonymous = false := by rw [← masked_isAnonymous, ← h, masked_isAnonymous, hr]
  simpa only [masked, hr, hr', Bool.false_eq_true, if_false] using h

theorem eq_of_map_masked : ∀ {l l' : List Review}, l.map masked = l'.map masked → (∀ r ∈ l, r.isAnonymous = false) → l = l'
  | [], l', h, _ => (List.map_eq_nil_iff.1 h.symm).symm
  | r :: l, [], h, _ => by simp at h
  | r :: l, r' :: l', h, hl => by
    obtain ⟨hhead, htail⟩ := List.cons.inj h
    rw [eq_of_masked hhead (hl r List.mem_cons_self), eq_of_map_masked htail fun x hx => hl x (List.mem_cons_of_mem _ hx)]

end Review

namespace ReviewRepo

variable {s s' : RepliedReviews} {q : ReviewQuery}

/-- A page without anonymous reviews is the same in both stores. -/
theorem list_eq (h : s.SameButAuthors s') (hpage : ∀ r ∈ q.rowsOfPage s.replies s.reviews.rows, r.isAnonymous = false) :
    list q s = list q s' := by
  have hmasked : (q.rowsOfPage s.replies s.reviews.rows).map Review.masked =
      (q.rowsOfPage s.replies s'.reviews.rows).map Review.masked := by
    rw [← ReviewQuery.rowsOfPage_map Review.masked_id Review.masked_key Review.masked_createdAt, h.reviews,
      ReviewQuery.rowsOfPage_map Review.masked_id Review.masked_key Review.masked_createdAt]
  have hrows := Review.eq_of_map_masked hmasked hpage
  have hlength : (q.matching s.replies s.reviews.rows).length = (q.matching s.replies s'.reviews.rows).length := by
    rw [← ReviewQuery.matching_length_map Review.masked_id Review.masked_key, h.reviews,
      ReviewQuery.matching_length_map Review.masked_id Review.masked_key]
  unfold list
  rw [← h.replies, ← hrows, hlength]

end ReviewRepo

/-! ## Requests -/

namespace ReviewRequest

/-- The page and its size, if the parameters can be read. -/
def paging (page pageSize : String) : Option (ℤ × ℤ) :=
  match queryInt "page" page 1 1 1000, queryInt "page_size" pageSize 20 1 50 with
  | .ok page, .ok pageSize => some (page, pageSize)
  | _, _ => none

/-- What a request asks for, when it is admitted. -/
def query (crm : CRMDB) : ReviewRequest → Option ReviewQuery
  | listByVenue venueID page pageSize => (paging page pageSize).map fun p => ⟨.venue, venueID, false, p.1, p.2⟩
  | listByMaster masterID page pageSize => (paging page pageSize).map fun p => ⟨.master, masterID, false, p.1, p.2⟩
  | listForOwner caller venueID page pageSize onlyUnanswered =>
    if ownerCabinet caller.role ∧ ReviewHandler.ensureVenueManageAccess crm caller.userID venueID = .ok () then
      (paging page pageSize).map fun p => ⟨.venue, venueID, onlyUnanswered == "true", p.1, p.2⟩
    else none

end ReviewRequest

namespace ReviewHandler

variable {users : String → Except Err String} {crm : CRMDB}

/-- A list is its query, and what becomes of the result. -/
theorem paged_query (page pageSize : String) (k : ℤ → ℤ → RepliedReviews → ReviewHTTP) :
    (ReviewRequest.paging page pageSize = none ∧ ∃ e, ∀ s, paged page pageSize (fun p n => k p n s) = .catalog e) ∨
    ∃ p n, ReviewRequest.paging page pageSize = some (p, n) ∧ validatePagination p n = .ok () ∧
      ∀ s, paged page pageSize (fun p n => k p n s) = k p n s := by
  unfold ReviewRequest.paging paged
  cases hp : queryInt "page" page 1 1 1000 with
  | error e => exact .inl ⟨rfl, e, fun _ => rfl⟩
  | ok p =>
    cases hn : queryInt "page_size" pageSize 20 1 50 with
    | error e => exact .inl ⟨rfl, e, fun _ => rfl⟩
    | ok n =>
      have hp := queryInt_range hp (by decide) (by decide)
      have hn := queryInt_range hn (by decide) (by decide)
      refine .inr ⟨p, n, rfl, ?_, fun _ => rfl⟩
      unfold validatePagination
      rw [if_neg (by omega), if_neg (by omega)]

theorem listVenueReviews_list {venueID : String} {onlyUnanswered : Bool} {page pageSize : ℤ}
    (hv : validatePagination page pageSize = .ok ()) (s : RepliedReviews) :
    ReviewServer.listVenueReviews venueID onlyUnanswered page pageSize s =
      (ReviewRepo.list ⟨.venue, venueID, onlyUnanswered, page, pageSize⟩ s).map ReviewServer.toResponse := by
  unfold ReviewServer.listVenueReviews ReviewRepo.listByVenue
  rw [hv]
  cases ReviewRepo.list ⟨.venue, venueID, onlyUnanswered, page, pageSize⟩ s <;> rfl

theorem listMasterReviews_list {masterID : String} {page pageSize : ℤ} (hv : validatePagination page pageSize = .ok ())
    (s : RepliedReviews) : ReviewServer.listMasterReviews masterID page pageSize s =
      (ReviewRepo.list ⟨.master, masterID, false, page, pageSize⟩ s).map ReviewServer.toResponse := by
  unfold ReviewServer.listMasterReviews ReviewRepo.listByMaster
  rw [hv]
  cases ReviewRepo.list ⟨.master, masterID, false, page, pageSize⟩ s <;> rfl

/-- **A request that is not admitted** is answered the same of every store; one that is, by its query. -/
theorem serve_query (users : String → Except Err String) (crm : CRMDB) (req : ReviewRequest) :
    (req.query crm = none ∧ ∃ res, ∀ s, serve users crm req s = res) ∨
    ∃ q onError, req.query crm = some q ∧ ∀ s, serve users crm req s =
      respond users onError ((ReviewRepo.list q s).map ReviewServer.toResponse) := by
  unfold serve ReviewRequest.query
  cases req with
  | listByVenue venueID page pageSize =>
    dsimp only
    rcases paged_query page pageSize fun p n s =>
      respond users createErrorOr (ReviewServer.listVenueReviews venueID false p n s) with ⟨hp, e, he⟩ | ⟨p, n, hp, hv, he⟩
    · exact .inl ⟨by rw [hp]; rfl, _, he⟩
    · refine .inr ⟨_, createErrorOr, by rw [hp]; rfl, fun s => ?_⟩
      rw [← listVenueReviews_list hv]
      exact he s
  | listByMaster masterID page pageSize =>
    dsimp only
    rcases paged_query page pageSize fun p n s =>
      respond users Err.toHTTP (ReviewServer.listMasterReviews masterID p n s) with ⟨hp, e, he⟩ | ⟨p, n, hp, hv, he⟩
    · exact .inl ⟨by rw [hp]; rfl, _, he⟩
    · refine .inr ⟨_, Err.toHTTP, by rw [hp]; rfl, fun s => ?_⟩
      rw [← listMasterReviews_list hv]
      exact he s
  | listForOwner caller venueID page pageSize onlyUnanswered =>
    dsimp only
    by_cases hrole : ownerCabinet caller.role = true
    · rw [hrole]
      unfold listForOwner
      cases haccess : ensureVenueManageAccess crm caller.userID venueID with
      | error e => exact .inl ⟨if_neg (by simp), _, fun _ => rfl⟩
      | ok _ =>
        rw [if_pos ⟨rfl, rfl⟩]
        rcases paged_query page pageSize fun p n s => respond users Err.toHTTP
          (ReviewServer.listVenueReviews venueID (onlyUnanswered == "true") p n s) with ⟨hp, e, he⟩ | ⟨p, n, hp, hv, he⟩
        · exact .inl ⟨by rw [hp]; rfl, _, he⟩
        · refine .inr ⟨_, Err.toHTTP, by rw [hp]; rfl, fun s => ?_⟩
          rw [← listVenueReviews_list hv]
          exact he s
    · exact .inl ⟨if_neg fun h => hrole h.1, .forbidden, fun _ => if_neg hrole⟩

/-! ## What a response shows of an anonymous author -/

/-- **An anonymous review is shown under the name of its row.** -/
theorem reviewsToJSON_names (users : String → Except Err String) :
    ∀ (cache : List (String × String)) (rvs : List ReviewResponse),
      (reviewsToJSON users cache rvs).map (fun j => if j.isAnonymous then some j.userName else none) =
        rvs.map fun rv => if rv.isAnonymous then some rv.userName else none
  | _, [] => rfl
  | cache, rv :: rvs => by
    have hhead : (if (reviewToJSON rv (reviewName users cache rv).1).isAnonymous then
          some (reviewToJSON rv (reviewName users cache rv).1).userName else none) =
        if rv.isAnonymous then some rv.userName else none := by
      cases ha : rv.isAnonymous with
      | false => simp [reviewToJSON, ha]
      | true => simp [reviewToJSON, reviewName, ha]
    simp only [reviewsToJSON, List.map_cons, hhead, reviewsToJSON_names users _ rvs]

end ReviewHandler

/-- A review under another name. -/
def Review.renamed (id : String) (r : Review) : Review := if r.id == id then { r with userName := r.userName ++ "!" } else r

namespace Review

variable (id : String) (r : Review)

theorem renamed_id : (r.renamed id).id = r.id := by
  unfold renamed
  split <;> rfl

theorem renamed_key (t : TargetType) : t.key (r.renamed id) = t.key r := by
  unfold renamed
  split <;> cases t <;> rfl

theorem renamed_createdAt : (r.renamed id).createdAt = r.createdAt := by
  unfold renamed
  split <;> rfl

theorem renamed_check : reviewSchema.check (r.renamed id) = reviewSchema.check r := by
  unfold renamed
  split <;> rfl

theorem renamed_clash (a b : Review) : reviewSchema.clash (a.renamed id) (b.renamed id) = reviewSchema.clash a b := by
  unfold renamed
  split <;> split <;> rfl

end Review

/-- A store in which one anonymous review has another author's name. -/
theorem RepliedReviews.exists_renamed (s : RepliedReviews) {r : Review} (hr : r ∈ s.reviews.rows) (ha : r.isAnonymous = true) :
    ∃ s', s.SameButAuthors s' ∧ s'.replies = s.replies ∧ s'.reviews.rows = s.reviews.rows.map (Review.renamed r.id) := by
  refine ⟨⟨s.reviews.rewrite (Review.renamed r.id) (Review.renamed_check r.id) (Review.renamed_clash r.id), s.replies⟩,
    ⟨?_, rfl⟩, rfl, rfl⟩
  change s.reviews.rows.map Review.masked = (s.reviews.rows.map (Review.renamed r.id)).map Review.masked
  rw [List.map_map]
  refine List.map_congr_left fun x hx => ?_
  by_cases hid : x.id = r.id
  · obtain rfl : x = r := s.reviews.eq_of_clash hx hr (by simp [reviewSchema, hid])
    simp [Review.renamed, Review.masked, ha]
  · simp [Review.renamed, hid]

/-- One anonymous review of a venue, by one author or another. -/
def anonymousReview (other : Bool) : RepliedReviews where
  reviews := ⟨[{ id := "00000000-0000-0000-0000-0000000000f1"
                 userID := if other then "00000000-0000-0000-0000-0000000000a2" else "00000000-0000-0000-0000-0000000000a1"
                 userName := if other then "Борис" else "Анна"
                 venueID := "00000000-0000-0000-0000-0000000000e1", masterID := "", rating := 2, text := "Холодно"
                 isVerified := true, isAnonymous := true, createdAt := 0 }],
    by cases other <;> decide +kernel, List.pairwise_singleton _ _⟩
  replies := []

end Agregator
