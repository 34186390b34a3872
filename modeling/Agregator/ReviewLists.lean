import Agregator.Gateway
import Agregator.ReviewStore
import Mathlib.Data.List.Sort
import Mathlib.Data.List.Infix
/-!
# ReviewLists — the lists of reviews, from the database to the responses

The public lists of a venue's and of a master's reviews, and the list of the venue's cabinet: the queries, the RPCs and the
handlers with the names they resolve.
-/
namespace Agregator

open Rel

/-- A row of `review_replies`. -/
structure ReviewReply where
  reviewID : String
  authorUserID : String
  body : String
  createdAt : Time
  updatedAt : Time
deriving DecidableEq, Repr

/-- The reviews and the replies of the venues. -/
structure RepliedReviews where
  reviews : Table reviewSchema
  replies : List ReviewReply

/-- What a list is asked of: a target, all its reviews or those without a reply, and a page. -/
structure ReviewQuery where
  target : TargetType
  targetID : String
  onlyUnanswered : Bool
  page : ℤ
  pageSize : ℤ
deriving DecidableEq, Repr

namespace ReviewQuery

variable (q : ReviewQuery) (replies : List ReviewReply)

def replyTo (r : Review) : Option ReviewReply := replies.find? (·.reviewID == r.id)

/-- Newest first, rows of one time as they are stored. -/
def matching (rows : List Review) : List Review :=
  (rows.filter fun r => q.target.key r == q.targetID && (!q.onlyUnanswered || (replyTo replies r).isNone)).insertionSort
    fun a b => b.createdAt ≤ a.createdAt

def rowsOfPage (rows : List Review) : List Review :=
  ((q.matching replies rows).drop ((q.page - 1) * q.pageSize).toNat).take q.pageSize.toNat

end ReviewQuery

namespace ReviewRepo

/-- The query of a list; the total is read from the rows of the page. -/
def list (q : ReviewQuery) (s : RepliedReviews) : Except Err (List (Review × Option ReviewReply) × ℕ) := do
  let _ ← uuidParam q.targetID
  let rows := q.rowsOfPage s.replies s.reviews.rows
  return (rows.map fun r => (r, ReviewQuery.replyTo s.replies r),
    if rows.isEmpty then 0 else (q.matching s.replies s.reviews.rows).length)

def listByVenue (venueID : String) (onlyUnanswered : Bool) (page pageSize : ℤ) :
    RepliedReviews → Except Err (List (Review × Option ReviewReply) × ℕ) := list ⟨.venue, venueID, onlyUnanswered, page, pageSize⟩

def listByMaster (masterID : String) (page pageSize : ℤ) :
    RepliedReviews → Except Err (List (Review × Option ReviewReply) × ℕ) := list ⟨.master, masterID, false, page, pageSize⟩

end ReviewRepo

/-! ## The RPCs -/

def validatePagination (page pageSize : ℤ) : Except Err Unit :=
  if page < 1 ∨ 1000 < page then .error (invalidArgument "page must be in [1, 1000]")
  else if pageSize < 1 ∨ 50 < pageSize then .error (invalidArgument "page_size must be in [1, 50]")
  else .ok ()

structure ReviewReplyProto where
  body : String
  createdAt : Time
  updatedAt : Time
deriving DecidableEq, Repr

structure ReviewResponse where
  id : String
  userID : String
  userName : String
  venueID : String
  masterID : String
  rating : ℤ
  text : String
  isVerified : Bool
  isAnonymous : Bool
  createdAt : Time
  ownerReply : Option ReviewReplyProto
deriving DecidableEq, Repr

def replyToProto (r : ReviewReply) : ReviewReplyProto := ⟨r.body, r.createdAt, r.updatedAt⟩

def reviewToProto (r : Review) (reply : Option ReviewReply) : ReviewResponse where
  id := r.id
  userID := r.userID
  userName := r.userName
  venueID := r.venueID
  masterID := r.masterID
  rating := r.rating
  text := r.text
  isVerified := r.isVerified
  isAnonymous := r.isAnonymous
  createdAt := r.createdAt
  ownerReply := reply.map replyToProto

structure ListReviewsResponse where
  reviews : List ReviewResponse
  total : ℕ
deriving DecidableEq, Repr

namespace ReviewServer

def toResponse (res : List (Review × Option ReviewReply) × ℕ) : ListReviewsResponse :=
  ⟨res.1.map fun r => reviewToProto r.1 r.2, res.2⟩

def listVenueReviews (venueID : String) (onlyUnanswered : Bool) (page pageSize : ℤ) (s : RepliedReviews) :
    Except Err ListReviewsResponse := do
  validatePagination page pageSize
  let res ← ReviewRepo.listByVenue venueID onlyUnanswered page pageSize s
  return toResponse res

def listMasterReviews (masterID : String) (page pageSize : ℤ) (s : RepliedReviews) : Except Err ListReviewsResponse := do
  validatePagination page pageSize
  let res ← ReviewRepo.listByMaster masterID page pageSize s
  return toResponse res

end ReviewServer

/-! ## The handlers -/

namespace Entry

def reviewVenueIdRequired : Entry := ⟨400, "GATEWAY.REVIEW.VENUE_ID_REQUIRED", "Параметр venue_id обязателен"⟩

def reviewBookingNotVerified : Entry := ⟨409, "GATEWAY.REVIEW.BOOKING_NOT_VERIFIED", "Ваша бронь не подтверждена платформой"⟩

def reviewForbidden : Entry :=
  ⟨403, "GATEWAY.REVIEW.FORBIDDEN", "Управление отзывами доступно владельцу и персоналу заведения"⟩

end Entry

structure ReviewJSON where
  id : String
  userID : String
  userName : String
  venueID : String
  masterID : String
  rating : ℤ
  text : String
  verified : Bool
  isAnonymous : Bool
  createdAt : Time
  ownerReply : Option ReviewReplyProto
deriving DecidableEq, Repr

inductive ReviewHTTP where
  | json (reviews : List ReviewJSON) (total : ℕ)
  | catalog (e : Entry)
  | forbidden
deriving DecidableEq, Repr

inductive ReviewRequest where
  | listByVenue (venueID page pageSize : String)
  | listByMaster (masterID page pageSize : String)
  | listForOwner (caller : Caller) (venueID page pageSize onlyUnanswered : String)
deriving DecidableEq, Repr

namespace ReviewHandler

def reviewToJSON (rv : ReviewResponse) (userName : String) : ReviewJSON where
  id := rv.id
  userID := rv.userID
  userName := if userName = "" then rv.userName else userName
  venueID := rv.venueID
  masterID := rv.masterID
  rating := rv.rating
  text := rv.text
  verified := rv.isVerified
  isAnonymous := rv.isAnonymous
  createdAt := rv.createdAt
  ownerReply := rv.ownerReply

variable (users : String → Except Err String)

def resolveUserName (userID : String) : String :=
  if trimSpace userID = "" then ""
  else
    match users userID with
    | .ok name => trimSpace name
    | .error _ => ""

/-- The name, and the cache with it. -/
def resolveUserNameCached (userID : String) (cache : List (String × String)) : String × List (String × String) :=
  let id := trimSpace userID
  if id = "" then ("", cache)
  else
    match cache.find? fun c => c.1 == id with
    | some (_, name) => (name, cache)
    | none =>
      let name := resolveUserName users id
      (name, (id, name) :: cache)

/-- The name a review is shown under: that of its row, and for want of one the name of the user unless it is anonymous. -/
def reviewName (cache : List (String × String)) (rv : ReviewResponse) : String × List (String × String) :=
  if rv.isAnonymous = false ∧ trimSpace rv.userName = "" then resolveUserNameCached users rv.userID cache
  else (rv.userName, cache)

def reviewsToJSON : List (String × String) → List ReviewResponse → List ReviewJSON
  | _, [] => []
  | cache, rv :: rvs =>
    let (name, cache) := reviewName users cache rv
    reviewToJSON rv name :: reviewsToJSON cache rvs

def respond (onError : Err → Entry) : Except Err ListReviewsResponse → ReviewHTTP
  | .error err => .catalog (onError err.pgErrToStatus)
  | .ok res => .json (reviewsToJSON users [] res.reviews) res.total

/-- The two parameters of a page. -/
def paged (page pageSize : String) (k : ℤ → ℤ → ReviewHTTP) : ReviewHTTP :=
  match queryInt "page" page 1 1 1000 with
  | .error e => .catalog e
  | .ok page =>
    match queryInt "page_size" pageSize 20 1 50 with
    | .error e => .catalog e
    | .ok pageSize => k page pageSize

/-- `handleReviewCreateError`, which the list of a venue asks first. -/
def createErrorOr (err : Err) : Entry :=
  if err.code = .failedPrecondition ∧
      "booking is not confirmed by platform".toList <:+: (err.message.toList.map Char.toLower) then .reviewBookingNotVerified
  else err.toHTTP

def listByVenue (venueID page pageSize : String) (s : RepliedReviews) : ReviewHTTP :=
  paged page pageSize fun page pageSize =>
    respond users createErrorOr (ReviewServer.listVenueReviews venueID false page pageSize s)

def listByMaster (masterID page pageSize : String) (s : RepliedReviews) : ReviewHTTP :=
  paged page pageSize fun page pageSize => respond users Err.toHTTP (ReviewServer.listMasterReviews masterID page pageSize s)

def ensureVenueManageAccess (crm : CRMDB) (userID venueID : String) : Except Entry Unit :=
  if userID = "" then .error .authUnauthorized
  else if venueID = "" then .error .reviewVenueIdRequired
  else
    match crm.getManagementAccess venueID userID with
    | .error err => .error err.toHTTP
    | .ok access => if trimSpace access = "" then .error .reviewForbidden else .ok ()

def listForOwner (crm : CRMDB) (userID venueID page pageSize onlyUnanswered : String) (s : RepliedReviews) : ReviewHTTP :=
  match ensureVenueManageAccess crm userID venueID with
  | .error e => .catalog e
  | .ok () => paged page pageSize fun page pageSize =>
      respond users Err.toHTTP (ReviewServer.listVenueReviews venueID (onlyUnanswered == "true") page pageSize s)

def serve (crm : CRMDB) (req : ReviewRequest) (s : RepliedReviews) : ReviewHTTP :=
  match req with
  | .listByVenue venueID page pageSize => listByVenue users venueID page pageSize s
  | .listByMaster masterID page pageSize => listByMaster users masterID page pageSize s
  | .listForOwner caller venueID page pageSize onlyUnanswered =>
    if ownerCabinet caller.role then listForOwner users crm caller.userID venueID page pageSize onlyUnanswered s else .forbidden

end ReviewHandler

end Agregator
