import Agregator.BookPages
/-!
# BookCursor — what a cursor says, and what is counted after it

A cursor that is accepted carries the signature of its payload and stands for the bytes that are encoded for what it is decoded
to (`cursor_codec`).  The total of a page is counted by the `WHERE` that the cursor is a part of: only the first page counts all
bookings that match (`total_iff_first`).
-/
namespace Agregator

open Rel

/-! ## Cutting at a byte, backwards -/

theorem cutLast_eq_none {c : UInt8} : ∀ {l : List UInt8}, cutLast c l = none → c ∉ l
  | [], _ => List.not_mem_nil
  | x :: xs, h => by
    unfold cutLast at h
    cases hxs : cutLast c xs with
    | some ab =>
      rw [hxs] at h
      cases h
    | none =>
      rw [hxs] at h
      by_cases hx : x = c
      · rw [if_pos hx] at h
        cases h
      · intro hmem
        rcases List.mem_cons.1 hmem with rfl | hmem
        · exact hx rfl
        · exact cutLast_eq_none hxs hmem

theorem of_cutLast {c : UInt8} {a b : List UInt8} : ∀ {l : List UInt8}, cutLast c l = some (a, b) → l = a ++ c :: b ∧ c ∉ b
  | [], h => by cases h
  | x :: xs, h => by
    unfold cutLast at h
    cases hxs : cutLast c xs with
    | some ab =>
      rw [hxs] at h
      cases h
      obtain ⟨rfl, hb⟩ := of_cutLast hxs
      exact ⟨rfl, hb⟩
    | none =>
      rw [hxs] at h
      by_cases hx : x = c
      · rw [if_pos hx] at h
        cases h
        exact ⟨by rw [hx]; rfl, cutLast_eq_none hxs⟩
      · rw [if_neg hx] at h
        cases h

theorem of_cutFirst {c : UInt8} {b : List UInt8} : ∀ {a l : List UInt8}, cutFirst c l = some (a, b) → l = a ++ c :: b ∧ c ∉ a
  | _, [], h => by cases h
  | a, x :: xs, h => by
    unfold cutFirst at h
    by_cases hx : x = c
    · rw [if_pos hx] at h
      cases h
      exact ⟨by rw [hx]; rfl, List.not_mem_nil⟩
    · rw [if_neg hx] at h
      obtain ⟨⟨a', b'⟩, hxs, heq⟩ := Option.map_eq_some_iff.1 h
      cases heq
      obtain ⟨rfl, ha⟩ := of_cutFirst hxs
      refine ⟨rfl, fun hmem => ?_⟩
      rcases List.mem_cons.1 hmem with rfl | hmem
      · exact hx rfl
      · exact ha hmem

/-! ## What a cursor says -/

/-- What is signed. -/
def cursorPayload (date timeFrom id : List UInt8) : List UInt8 := date ++ bar :: timeFrom ++ bar :: id

namespace CursorCodec

variable (codec : CursorCodec)

/-- The token stands for a payload with its signature. -/
def Signed (token : String) (payload : List UInt8) : Prop := Base64.decode token = some (payload ++ dot :: codec.sig payload)

/-- **What is accepted is signed**, and is decoded as it stands. -/
theorem signed_of_decode {token : String} {date timeFrom id : List UInt8}
    (h : codec.decodeCursor token = .ok (date, timeFrom, id)) :
    codec.Signed token (cursorPayload date timeFrom id) ∧ bar ∉ date ∧ bar ∉ timeFrom := by
  unfold decodeCursor at h
  cases hraw : Base64.decode token with
  | none =>
    rw [hraw] at h
    cases h
  | some raw =>
  rw [hraw] at h
  dsimp only at h
  cases hcut : cutLast dot raw with
  | none =>
    rw [hcut] at h
    cases h
  | some cut =>
  obtain ⟨payload, gotSig⟩ := cut
  rw [hcut] at h
  dsimp only at h
  by_cases hsig : gotSig = codec.sig payload
  · rw [if_neg (not_not_intro hsig)] at h
    cases hfirst : cutFirst bar payload with
    | none =>
      rw [hfirst] at h
      cases h
    | some cut =>
    obtain ⟨d, rest⟩ := cut
    rw [hfirst] at h
    dsimp only at h
    cases hsecond : cutFirst bar rest with
    | none =>
      rw [hsecond] at h
      cases h
    | some cut =>
    obtain ⟨t, i⟩ := cut
    rw [hsecond] at h
    cases h
    obtain ⟨hrest, htime⟩ := of_cutFirst hsecond
    obtain ⟨hpayload, hdate⟩ := of_cutFirst hfirst
    have hsplit : payload = cursorPayload date timeFrom id := by
      rw [hpayload, hrest, cursorPayload, List.append_assoc]
      rfl
    refine ⟨?_, hdate, htime⟩
    unfold Signed
    rw [← hsplit, ← hsig, hraw, (of_cutLast hcut).1]
  · rw [if_pos hsig] at h
    cases h

theorem signed_encode (date timeFrom id : List UInt8) :
    codec.Signed (codec.encodeCursor date timeFrom id) (cursorPayload date timeFrom id) := Base64.decode_encode _

end CursorCodec

/-- **Cursors are read as they were made, and only signed ones are read**: what a token is decoded to is encoded as a token that
stands for the same bytes, and as the token itself exactly when that is the text base64 gives to some bytes. -/
theorem cursor_codec (codec : CursorCodec) :
    (∀ date timeFrom id, bar ∉ date → bar ∉ timeFrom →
      codec.decodeCursor (codec.encodeCursor date timeFrom id) = .ok (date, timeFrom, id)) ∧
    ∀ token date timeFrom id, codec.decodeCursor token = .ok (date, timeFrom, id) →
      codec.Signed token (cursorPayload date timeFrom id) ∧ bar ∉ date ∧ bar ∉ timeFrom ∧
      Base64.decode token = Base64.decode (codec.encodeCursor date timeFrom id) ∧
      (token = codec.encodeCursor date timeFrom id ↔ ∃ bytes, token = Base64.encode bytes) := by
  refine ⟨fun date timeFrom id hd ht => codec.decode_encode hd ht id, fun token date timeFrom id h => ?_⟩
  obtain ⟨hsigned, hdate, htime⟩ := codec.signed_of_decode h
  refine ⟨hsigned, hdate, htime, hsigned.trans (codec.signed_encode date timeFrom id).symm, fun htoken => ⟨_, htoken⟩, ?_⟩
  rintro ⟨bytes, rfl⟩
  have hbytes := (Base64.decode_encode bytes).symm.trans hsigned
  rw [Option.some.inj hbytes]
  rfl

theorem cursor_codec_sample :
    plainCodec.decodeCursor (plainCodec.encodeCursor (bytesOf "2024-05-01") (bytesOf "10:00") (bytesOf "a|b.c")) =
      .ok (bytesOf "2024-05-01", bytesOf "10:00", bytesOf "a|b.c") ∧
    plainCodec.Signed (plainCodec.encodeCursor (bytesOf "2024-05-01") (bytesOf "10:00") (bytesOf "a|b.c"))
      (cursorPayload (bytesOf "2024-05-01") (bytesOf "10:00") (bytesOf "a|b.c")) := by
  have hread := (cursor_codec plainCodec).1 (bytesOf "2024-05-01") (bytesOf "10:00") (bytesOf "a|b.c") (by decide) (by decide)
  exact ⟨hread, ((cursor_codec plainCodec).2 _ _ _ _ hread).1⟩

/-- A line end at the end of a cursor is passed over, whatever the signature is. -/
theorem cursor_not_canonical : ¬ ∀ (codec : CursorCodec) (token : String) (date timeFrom id : List UInt8),
    codec.decodeCursor token = .ok (date, timeFrom, id) → token = codec.encodeCursor date timeFrom id := by
  intro hall
  have hread : plainCodec.decodeCursor (plainCodec.encodeCursor [] [] [] ++ "\n") = .ok ([], [], []) := by
    unfold CursorCodec.decodeCursor
    rw [Base64.decode_lineEnd]
    exact plainCodec.decode_encode List.not_mem_nil List.not_mem_nil []
  have h := congrArg String.length (hall plainCodec _ [] [] [] hread)
  rw [String.length_append] at h
  exact absurd h (by simp)

/-! ## What is counted after it -/

namespace BookingRepo

variable {codec : CursorCodec} {pg : PgText} {f : VenueFilter} {limit : ℕ} {db : NotedDB}

/-- The cursors that calls with this filter and this limit lead to, from the first page on. -/
inductive Followed (codec : CursorCodec) (pg : PgText) (f : VenueFilter) (limit : ℕ) (db : NotedDB) : String → Prop where
  | first : Followed codec pg f limit db ""
  | next {cursor : String} {res : VenuePage} : Followed codec pg f limit db cursor →
      listByVenue codec pg f cursor limit db = .ok res → res.nextCursor ≠ "" → Followed codec pg f limit db res.nextCursor

/-- A cursor that was followed begins the list, or stands after a row that matches. -/
theorem Followed.cases (hpg : pg.Lawful) (hdb : db.Dated) {p : Booking → Bool} (hp : venueWhere pg f = .ok p)
    (hlimit : 1 ≤ limit) {cursor : String} (h : Followed codec pg f limit db cursor) :
    cursor = "" ∨ ∃ last ∈ db.bookings.select p, cursor = cursorOf codec last := by
  induction h with
  | first => exact .inl rfl
  | @next cursor res _ hres hne ih =>
    have hread : ∃ parts after, cursorParts codec cursor = .ok parts ∧ cursorKey pg parts = .ok after := by
      rcases ih with hstart | ⟨last, hlast, hcursor⟩
      · exact ⟨none, none, by rw [hstart]; rfl, rfl⟩
      · obtain ⟨parts, hparts, hkey⟩ := cursorKey_stored codec hpg hdb (List.mem_filter.1 hlast).1
        exact ⟨parts, some last.key, by rw [hcursor]; exact hparts, hkey⟩
    obtain ⟨parts, after, hparts, hafter⟩ := hread
    obtain ⟨res', hres', -, hnext⟩ := listByVenue_page hp hparts hafter hlimit db
    rw [hres] at hres'
    cases hres'
    rcases hnext with ⟨-, hend⟩ | ⟨last, hlast, -, hmore⟩
    · exact absurd hend hne
    · exact .inr ⟨last, hlast, hmore⟩

/-- The total of a page is what matches after its cursor. -/
theorem listByVenue_total {p : Booking → Bool} {cursor : String} {parts : Option (List UInt8 × List UInt8 × List UInt8)}
    {after : Option BookingKey} (hp : venueWhere pg f = .ok p) (hparts : cursorParts codec cursor = .ok parts)
    (hafter : cursorKey pg parts = .ok after) (limit : ℕ) (db : NotedDB) :
    ∃ res, listByVenue codec pg f cursor limit db = .ok res ∧
      res.total = (Keyset.after Booking.key (db.bookings.select p) after).length := by
  simp only [listByVenue, hp, hparts, hafter, bind, Except.bind, pure, Except.pure]
  exact ⟨_, rfl, rfl⟩

/-- After a row that matches, fewer are counted than match. -/
theorem listByVenue_total_after (codec : CursorCodec) (hpg : pg.Lawful) (hdb : db.Dated) {p : Booking → Bool}
    (hp : venueWhere pg f = .ok p) (limit : ℕ) {last : Booking} (hlast : last ∈ db.bookings.select p) :
    ∃ res, listByVenue codec pg f (cursorOf codec last) limit db = .ok res ∧ res.total < (db.bookings.select p).length := by
  obtain ⟨parts, hparts, hkey⟩ := cursorKey_stored codec hpg hdb (List.mem_filter.1 hlast).1
  obtain ⟨res, hres, htotal⟩ := listByVenue_total hp hparts hkey limit db
  refine ⟨res, hres, ?_⟩
  -- the row the cursor was made of is not counted again
  rw [htotal, Keyset.after, Keyset.length_sorted]
  exact List.length_filter_lt_length_iff_exists.2 ⟨last, hlast, by simp⟩

end BookingRepo

/-- **The total is that of all bookings that match on the first page only.**  On every page that is reached by following cursors,
it counts what the pages before have left. -/
theorem total_iff_first (codec : CursorCodec) {pg : PgText} (hpg : pg.Lawful) {db : NotedDB} (hdb : db.Dated) (f : VenueFilter)
    {limit : ℕ} (hlimit : 1 ≤ limit) {p : Booking → Bool} (hp : BookingRepo.venueWhere pg f = .ok p) {cursor : String}
    (h : BookingRepo.Followed codec pg f limit db cursor) :
    ∃ res, BookingRepo.listByVenue codec pg f cursor limit db = .ok res ∧
      (res.total = (db.bookings.select p).length ↔ cursor = "") := by
  rcases BookingRepo.Followed.cases hpg hdb hp hlimit h with rfl | ⟨last, hlast, rfl⟩
  · have hstart : BookingRepo.cursorParts codec "" = .ok none := rfl
    obtain ⟨res, hres, htotal⟩ := BookingRepo.listByVenue_total hp hstart rfl limit db
    exact ⟨res, hres, fun _ => rfl, fun _ => htotal.trans (Keyset.length_sorted _)⟩
  · obtain ⟨res, hres, hless⟩ := BookingRepo.listByVenue_total_after codec hpg hdb hp limit hlast
    exact ⟨res, hres, fun hall => absurd hall (by omega), fun hstart => absurd hstart (codec.encode_ne _ _ _)⟩

/-! ### The second page -/

def tiedFilter : VenueFilter := ⟨sampleBooking.venueID, "", "", "", ""⟩

theorem tiedFilter_where : ∃ p, BookingRepo.venueWhere canonicalText tiedFilter = .ok p ∧
    tiedBookings.bookings.select p = tiedBookings.bookings.rows := by
  have hparam : uuidParam sampleBooking.venueID = .ok sampleBooking.venueID := uuidParam_ok (by decide +kernel)
  unfold BookingRepo.venueWhere BookingRepo.dateParam tiedFilter
  simp only [hparam, if_true]
  exact ⟨_, rfl, by decide +kernel⟩

/-- The first page, of one booking, leads to another. -/
theorem tiedBookings_next {p : Booking → Bool} (hp : BookingRepo.venueWhere canonicalText tiedFilter = .ok p)
    (hall : tiedBookings.bookings.select p = tiedBookings.bookings.rows) :
    ∃ last ∈ tiedBookings.bookings.select p,
      BookingRepo.Followed plainCodec canonicalText tiedFilter 1 tiedBookings (BookingRepo.cursorOf plainCodec last) := by
  have hstart : BookingRepo.cursorParts plainCodec "" = .ok none := rfl
  obtain ⟨res, hres, -, ⟨hnone, -⟩ | ⟨last, hlast, -, hmore⟩⟩ :=
    BookingRepo.listByVenue_page hp hstart rfl (Nat.le_refl 1) tiedBookings
  · have hsome : (Keyset.page Booking.key tiedBookings.bookings.rows 1 none).2.isSome = true := by decide +kernel
    rw [hall] at hnone
    rw [hnone] at hsome
    cases hsome
  · refine ⟨last, hlast, ?_⟩
    rw [← hmore]
    refine .next .first hres ?_
    rw [hmore]
    exact plainCodec.encode_ne _ _ _

theorem total_iff_first_sample : ∃ cursor res,
    BookingRepo.listByVenue plainCodec canonicalText tiedFilter cursor 1 tiedBookings = .ok res ∧ cursor ≠ "" ∧ res.total ≠ 2 := by
  obtain ⟨p, hp, hall⟩ := tiedFilter_where
  obtain ⟨last, -, hfollowed⟩ := tiedBookings_next hp hall
  obtain ⟨res, hres, htotal⟩ :=
    total_iff_first plainCodec canonicalText_lawful tiedBookings_dated tiedFilter (by decide) hp hfollowed
  have hne : BookingRepo.cursorOf plainCodec last ≠ "" := plainCodec.encode_ne _ _ _
  rw [hall] at htotal
  exact ⟨_, res, hres, hne, fun htwo => hne (htotal.1 htwo)⟩

theorem total_not_whole : ¬ ∀ (codec : CursorCodec) (pg : PgText) (db : NotedDB) (f : VenueFilter) (limit : ℕ)
    (p : Booking → Bool) (cursor : String), pg.Lawful → db.Dated → 1 ≤ limit → BookingRepo.venueWhere pg f = .ok p →
    BookingRepo.Followed codec pg f limit db cursor →
    ∃ res, BookingRepo.listByVenue codec pg f cursor limit db = .ok res ∧ res.total = (db.bookings.select p).length := by
  intro hclaim
  obtain ⟨p, hp, hall⟩ := tiedFilter_where
  obtain ⟨last, hlast, hfollowed⟩ := tiedBookings_next hp hall
  obtain ⟨res, hres, hwhole⟩ := hclaim _ _ _ _ _ p _ canonicalText_lawful tiedBookings_dated (Nat.le_refl 1) hp hfollowed
  obtain ⟨res', hres', hless⟩ :=
    BookingRepo.listByVenue_total_after plainCodec canonicalText_lawful tiedBookings_dated hp 1 hlast
  rw [hres] at hres'
  cases hres'
  omega

end Agregator
