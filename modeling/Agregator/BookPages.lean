import Agregator.BookList
import Agregator.BookStates
/-!
# BookPages — a venue's bookings, page by page

The cursor of a page carries the row value of its last row and is read back; following the cursors of `ListByVenue` visits every
booking that matches, once and in the order of day, time and identifier.
-/
namespace Agregator

open Rel

/-! ## Cutting at a byte -/

theorem cutLast_none {c : UInt8} : ∀ {l : List UInt8}, c ∉ l → cutLast c l = none
  | [], _ => rfl
  | x :: xs, h => by
    have hx : x ≠ c := fun e => h (e ▸ List.mem_cons_self)
    have hxs : c ∉ xs := fun e => h (List.mem_cons_of_mem _ e)
    simp only [cutLast, cutLast_none hxs, if_neg hx]

theorem cutLast_append {c : UInt8} {b : List UInt8} (h : c ∉ b) : ∀ a : List UInt8, cutLast c (a ++ c :: b) = some (a, b)
  | [] => by simp only [List.nil_append, cutLast, cutLast_none h, if_true]
  | x :: a => by simp only [List.cons_append, cutLast, cutLast_append h a]

theorem cutFirst_append {c : UInt8} {b : List UInt8} : ∀ {a : List UInt8}, c ∉ a → cutFirst c (a ++ c :: b) = some (a, b)
  | [], _ => by simp only [List.nil_append, cutFirst, if_true]
  | x :: a, h => by
    have hx : x ≠ c := fun e => h (e ▸ List.mem_cons_self)
    have ha : c ∉ a := fun e => h (List.mem_cons_of_mem _ e)
    simp only [List.cons_append, cutFirst, if_neg hx, cutFirst_append ha, Option.map_some]

theorem dot_hexDigit : ∀ n < 16, hexDigit n ≠ dot := by decide

theorem dot_hexEncode (bytes : List UInt8) : dot ∉ hexEncode bytes := by
  intro h
  obtain ⟨b, -, hb⟩ := List.mem_flatMap.1 h
  have hlt := b.toNat_lt
  simp only [List.mem_cons, List.not_mem_nil, or_false] at hb
  rcases hb with hb | hb
  · exact dot_hexDigit _ (by omega) hb.symm
  · exact dot_hexDigit _ (by omega) hb.symm

/-! ## The text of a date and of a time -/

/-- A character of a date or a time. -/
def isClock (c : Char) : Bool := c.isDigit || c == '-' || c == ':'

theorem isClock_le {c : Char} (h : isClock c = true) : c.toNat ≤ 58 := by
  simp only [isClock, Bool.or_eq_true, beq_iff_eq] at h
  rcases h with (hd | rfl) | rfl
  · simp only [Char.isDigit, Bool.and_eq_true, decide_eq_true_eq] at hd
    have hle := UInt32.le_iff_toNat_le.1 hd.2
    exact le_trans hle (by decide)
  · decide
  · decide

theorem bar_bytesOf {s : String} (h : ∀ c ∈ s.toList, isClock c = true) : bar ∉ bytesOf s := by
  intro hb
  obtain ⟨c, hc, hb⟩ := List.mem_flatMap.1 hb
  have hrange : c.val.toNat ≤ 58 := isClock_le (h c hc)
  have hsize : c.utf8Size = 1 := by
    rw [Char.utf8Size_eq_one_iff, UInt32.le_iff_toNat_le]
    exact le_trans hrange (by decide)
  rw [String.utf8EncodeChar_eq_singleton hsize, List.mem_singleton] at hb
  have hval : bar.toNat = c.val.toNat % 256 := by
    rw [hb]
    rfl
  rw [show bar.toNat = 124 from rfl] at hval
  omega

theorem isClock_padded {width n : ℕ} : ∀ c ∈ (padded width n).toList, isClock c = true := by
  intro c hc
  unfold padded at hc
  simp only [String.toList_append, String.toList_ofList, List.mem_append] at hc
  rcases hc with hc | hc
  · rw [(List.mem_replicate.1 hc).2]
    rfl
  · have hd : c.isDigit = true := Nat.isDigit_of_mem_toDigits (b := 10) (n := n) (by decide) (by decide) (by simpa using hc)
    simp [isClock, hd]

theorem isClock_date (d : Date) : ∀ c ∈ d.string.toList, isClock c = true := by
  intro c hc
  simp only [Date.string, String.toList_append, List.mem_append] at hc
  rcases hc with (((hc | hc) | hc) | hc) | hc
  · exact isClock_padded c hc
  · rw [List.mem_singleton.1 hc]
    rfl
  · exact isClock_padded c hc
  · rw [List.mem_singleton.1 hc]
    rfl
  · exact isClock_padded c hc

theorem isClock_time (t : TimeOfDay) : ∀ c ∈ t.string.toList, isClock c = true := by
  intro c hc
  simp only [TimeOfDay.string, String.toList_append, List.mem_append] at hc
  rcases hc with (hc | hc) | hc
  · exact isClock_padded c hc
  · rw [List.mem_singleton.1 hc]
    rfl
  · exact isClock_padded c hc

/-! ## Cursors -/

namespace CursorCodec

variable (codec : CursorCodec)

/-- **What is encoded is decoded**, when there is no bar in the day and the time. -/
theorem decode_encode {date timeFrom : List UInt8} (hd : bar ∉ date) (ht : bar ∉ timeFrom) (id : List UInt8) :
    codec.decodeCursor (codec.encodeCursor date timeFrom id) = .ok (date, timeFrom, id) := by
  have hpayload : date ++ bar :: timeFrom ++ bar :: id = date ++ bar :: (timeFrom ++ bar :: id) := by simp
  simp only [decodeCursor, encodeCursor, Base64.decode_encode, cutLast_append (c := dot) (dot_hexEncode _), sig, ne_eq,
    not_true, if_false]
  rw [hpayload, cutFirst_append hd]
  simp only [cutFirst_append ht]

theorem encode_ne (date timeFrom id : List UInt8) : codec.encodeCursor date timeFrom id ≠ "" := by
  intro h
  have hraw := congrArg Base64.decode h
  rw [encodeCursor, Base64.decode_encode, show Base64.decode "" = some [] from by decide, Option.some_inj] at hraw
  simp at hraw

end CursorCodec

/-! ## Pages -/

/-- The days and times in the columns are real ones. -/
def NotedDB.Dated (db : NotedDB) : Prop := ∀ b ∈ db.bookings.rows, b.date.Valid ∧ b.timeFrom.Valid

theorem Booking.key_inj {a b : Booking} (h : a.key = b.key) : a.id = b.id := by
  simp only [Booking.key, bookingKey, EmbeddingLike.apply_eq_iff_eq, Prod.mk.injEq] at h
  exact h.2.2.2.2.2

theorem select_keys (t : Table bookingSchema) (p : Booking → Bool) :
    (t.select p).Pairwise fun a b => a.key ≠ b.key := by
  refine (t.noClash.imp fun {a b} hab hkey => ?_).filter _
  simp [bookingSchema, Booking.key_inj hkey] at hab

namespace BookingRepo

variable {pg : PgText}

/-- The cursor of a page whose last row this is. -/
def cursorOf (codec : CursorCodec) (b : Booking) : String :=
  codec.encodeCursor (bytesOf b.date.string) (bytesOf b.timeFrom.string) (bytesOf b.id)

/-- **The cursor of a row is read as its row value.** -/
theorem cursorKey_cursorOf (codec : CursorCodec) (hpg : pg.Lawful) {b : Booking} (hdate : b.date.Valid) (htime : b.timeFrom.Valid)
    (hid : isUUID b.id = true) :
    ∃ parts, cursorParts codec (cursorOf codec b) = .ok parts ∧ cursorKey pg parts = .ok (some b.key) := by
  unfold cursorParts cursorOf
  rw [if_neg (codec.encode_ne _ _ _), codec.decode_encode (bar_bytesOf (isClock_date _)) (bar_bytesOf (isClock_time _))]
  refine ⟨_, rfl, ?_⟩
  simp only [cursorKey, hpg.date_string _ hdate, hpg.time_string _ htime, hpg.uuid_id _ hid]
  rfl

variable {codec : CursorCodec} {f : VenueFilter} {limit : ℕ}

/-- The cursor of a stored row. -/
theorem cursorKey_stored (codec : CursorCodec) (hpg : pg.Lawful) {db : NotedDB} (hdb : db.Dated) {b : Booking}
    (hb : b ∈ db.bookings.rows) :
    ∃ parts, cursorParts codec (cursorOf codec b) = .ok parts ∧ cursorKey pg parts = .ok (some b.key) := by
  have hcheck := db.bookings.checked b hb
  simp only [bookingSchema, Bool.and_eq_true] at hcheck
  exact cursorKey_cursorOf codec hpg (hdb b hb).1 (hdb b hb).2 hcheck.1.1.1.1.1.1.1

/-- **A call answers a page of the rows that match.** -/
theorem listByVenue_page {p : Booking → Bool} {cursor : String} {parts : Option (List UInt8 × List UInt8 × List UInt8)}
    {after : Option BookingKey} (hp : venueWhere pg f = .ok p) (hparts : cursorParts codec cursor = .ok parts)
    (hafter : cursorKey pg parts = .ok after) (hlimit : 1 ≤ limit) (db : NotedDB) :
    ∃ res, listByVenue codec pg f cursor limit db = .ok res ∧
      let page := Keyset.page Booking.key (db.bookings.select p) limit after
      res.bookings = page.1.map (fun b => (b, staffNotesCount db b)) ∧
        (page.2 = none ∧ res.nextCursor = "" ∨
          ∃ last ∈ db.bookings.select p, page.2 = some last.key ∧ res.nextCursor = cursorOf codec last) := by
  simp only [listByVenue, hp, hparts, hafter, bind, Except.bind, pure, Except.pure]
  refine ⟨_, rfl, ?_⟩
  have hmem : ∀ b ∈ Keyset.after Booking.key (db.bookings.select p) after, b ∈ db.bookings.select p :=
    fun _ => Keyset.mem_of_mem_after
  unfold Keyset.page
  generalize Keyset.after Booking.key (db.bookings.select p) after = all at hmem
  by_cases hlt : limit < (all.take (limit + 1)).length
  · simp only [hlt, if_true, true_and]
    right
    have hall : limit < all.length := by
      rw [List.length_take] at hlt
      omega
    cases hlast : ((all.take (limit + 1)).take limit).getLast? with
    | none =>
      have hnil := congrArg List.length (List.getLast?_eq_none_iff.1 hlast)
      rw [List.length_take, List.length_nil] at hnil
      omega
    | some last =>
      exact ⟨last, hmem _ (List.mem_of_mem_take (List.mem_of_mem_take (List.mem_of_getLast? hlast))), rfl, rfl⟩
  · simp only [hlt, if_false, true_and]
    exact .inl trivial

/-- Following the cursors of the calls is following those of the pages. -/
theorem traverse_follow (hpg : pg.Lawful) {db : NotedDB} (hdb : db.Dated) {p : Booking → Bool} (hp : venueWhere pg f = .ok p)
    (hlimit : 1 ≤ limit) : ∀ (n : ℕ) (cursor : String) (parts : Option (List UInt8 × List UInt8 × List UInt8))
      (after : Option BookingKey), cursorParts codec cursor = .ok parts → cursorKey pg parts = .ok after →
      traverse (fun cursor => listByVenue codec pg f cursor limit db) n cursor =
        (Keyset.follow (Keyset.page Booking.key (db.bookings.select p) limit) n after).map fun l =>
          .ok (l.map fun b => (b, staffNotesCount db b))
  | 0, _, _, _, _, _ => rfl
  | n + 1, cursor, parts, after, hparts, hafter => by
    obtain ⟨res, hres, hrows, hnext⟩ := listByVenue_page hp hparts hafter hlimit db
    generalize hpage : Keyset.page Booking.key (db.bookings.select p) limit after = page at hrows hnext
    obtain ⟨rows, next⟩ := page
    simp only [traverse, Keyset.follow, hres, hpage]
    rcases hnext with ⟨rfl, hend⟩ | ⟨last, hlast, rfl, hmore⟩
    · rw [if_pos hend, hrows]
      rfl
    · obtain ⟨parts', hparts', hkey⟩ := cursorKey_stored codec hpg hdb (List.mem_filter.1 hlast).1
      have hne : res.nextCursor ≠ "" := by
        rw [hmore]
        exact codec.encode_ne _ _ _
      dsimp only at hrows ⊢
      rw [if_neg hne, hmore, traverse_follow hpg hdb hp hlimit n _ _ _ hparts' hkey, hrows]
      cases Keyset.follow (Keyset.page Booking.key (db.bookings.select p) limit) n (some last.key) with
      | none => rfl
      | some rest =>
        simp only [Option.map_some, List.map_append]
        rfl

end BookingRepo

/-- **Following the cursors visits every booking that matches, once and in the order of day, time and identifier**, in a number of
calls that the number of these bookings bounds; with a filter the database cannot read the first call fails. -/
theorem listByVenue_visits (codec : CursorCodec) {pg : PgText} (hpg : pg.Lawful) {db : NotedDB} (hdb : db.Dated)
    (f : VenueFilter) {limit : ℕ} (hlimit : 1 ≤ limit) :
    (∀ p, BookingRepo.venueWhere pg f = .ok p →
      ∃ l : List (Booking × ℕ),
        (∀ n, (db.bookings.select p).length < n →
          traverse (fun cursor => BookingRepo.listByVenue codec pg f cursor limit db) n "" = some (.ok l)) ∧
        (l.map Prod.fst).Perm (db.bookings.select p) ∧ (l.map Prod.fst).Pairwise fun a b => a.key < b.key) ∧
    ∀ err, BookingRepo.venueWhere pg f = .error err →
      BookingRepo.listByVenue codec pg f "" limit db = .error err := by
  constructor
  · intro p hp
    have hkeys := select_keys db.bookings p
    have hrows : ((Keyset.sorted Booking.key (db.bookings.select p)).map fun b => (b, BookingRepo.staffNotesCount db b)).map
        Prod.fst = Keyset.sorted Booking.key (db.bookings.select p) := by
      simp [Function.comp_def]
    refine ⟨(Keyset.sorted Booking.key (db.bookings.select p)).map fun b => (b, BookingRepo.staffNotesCount db b), ?_, ?_, ?_⟩
    · intro n hn
      have hfollow := Keyset.follow_eq hkeys hlimit n none (by rwa [Keyset.after, Keyset.length_sorted])
      rw [BookingRepo.traverse_follow hpg hdb hp hlimit n "" none none rfl rfl, hfollow]
      rfl
    · rw [hrows]
      exact Keyset.perm_sorted _
    · rw [hrows]
      exact Keyset.pairwise_sorted hkeys
  · intro err herr
    simp only [BookingRepo.listByVenue, BookingRepo.cursorParts, if_true, herr]
    rfl

/-! ### What the database prints is read -/

theorem digitsVal_padded (width n : ℕ) (hwidth : 0 < width) (hn : n < 10 ^ width) :
    digitsVal (padded width n).toList = some n ∧ (padded width n).toList.length = width := by
  have hlen : (Nat.toDigits 10 n).length ≤ width := (Nat.length_toDigits_le_iff (by decide) hwidth).2 hn
  have hlist : (padded width n).toList = List.replicate (width - (Nat.toDigits 10 n).length) '0' ++ Nat.toDigits 10 n := by
    unfold padded
    simp [← String.length_toList]
  constructor
  · have hdigits : ((padded width n).toList).all Char.isDigit = true := by
      rw [hlist, List.all_append, Bool.and_eq_true, List.all_replicate, List.all_eq_true]
      refine ⟨by simp, fun c hc => Nat.isDigit_of_mem_toDigits (by decide) (by decide) hc⟩
    have hval : Nat.ofDigitChars 10 (padded width n).toList 0 = n := by
      rw [hlist, Nat.ofDigitChars_append, Nat.ofDigitChars_replicate_zero, Nat.mul_zero, Nat.ofDigitChars_ten_toDigits]
    unfold digitsVal
    rw [if_pos hdigits]
    exact congrArg some hval
  · rw [hlist, List.length_append, List.length_replicate]
    omega

theorem Date.parse_string {d : Date} (h : d.Valid) : Date.parse d.string = some d := by
  obtain ⟨-, hyear, hm, hmonth, hd, hday⟩ := h
  have hdays : daysIn d.year d.month ≤ 31 := by
    unfold daysIn
    grind
  have hy := digitsVal_padded 4 d.year (by decide) (by omega)
  have hmo := digitsVal_padded 2 d.month (by decide) (by omega)
  have hda := digitsVal_padded 2 d.day (by decide) (by omega)
  unfold Date.parse Date.string
  simp only [String.toList_append]
  generalize (padded 4 d.year).toList = ys at hy
  generalize (padded 2 d.month).toList = ms at hmo
  generalize (padded 2 d.day).toList = ds at hda
  obtain ⟨a, b, c, e, rfl⟩ := List.length_eq_four.1 hy.2
  obtain ⟨f, g, rfl⟩ := List.length_eq_two.1 hmo.2
  obtain ⟨i, j, rfl⟩ := List.length_eq_two.1 hda.2
  simp [hy.1, hmo.1, hda.1, hm, hmonth, hd, hday]

theorem TimeOfDay.parse_string {t : TimeOfDay} (h : t.Valid) : TimeOfDay.parse t.string = some t := by
  obtain ⟨hh, hm⟩ := h
  have hho := digitsVal_padded 2 t.h (by decide) (by omega)
  have hmi := digitsVal_padded 2 t.m (by decide) (by omega)
  unfold TimeOfDay.parse TimeOfDay.string
  simp only [String.toList_append]
  generalize (padded 2 t.h).toList = hs at hho
  generalize (padded 2 t.m).toList = ms at hmi
  obtain ⟨a, b, rfl⟩ := List.length_eq_two.1 hho.2
  obtain ⟨c, e, rfl⟩ := List.length_eq_two.1 hmi.2
  simp [hho.1, hmi.1, hh, hm]

/-- The text of ASCII bytes. -/
def asciiText (bytes : List UInt8) : String := String.ofList (bytes.map fun b => Char.ofNat b.toNat)

theorem asciiText_bytesOf {s : String} (h : ∀ c ∈ s.toList, c.toNat < 128) : asciiText (bytesOf s) = s := by
  have hchars : ∀ l : List Char, (∀ c ∈ l, c.toNat < 128) →
      (l.flatMap String.utf8EncodeChar).map (fun b => Char.ofNat b.toNat) = l := by
    intro l
    induction l with
    | nil => exact fun _ => rfl
    | cons c l ih =>
      intro hl
      have hc : c.val.toNat < 128 := hl c List.mem_cons_self
      have hsize : c.utf8Size = 1 := by
        rw [Char.utf8Size_eq_one_iff, UInt32.le_iff_toNat_le]
        exact Nat.le_of_lt_succ hc
      have hbyte : c.val.toUInt8.toNat = c.toNat := Nat.mod_eq_of_lt (by omega)
      rw [List.flatMap_cons, String.utf8EncodeChar_eq_singleton hsize, List.map_append,
        ih fun e he => hl e (List.mem_cons_of_mem _ he), List.map_singleton, hbyte, Char.ofNat_toNat]
      rfl
  rw [asciiText, bytesOf, hchars _ h, String.ofList_toList]

/-- A database that reads dates, times and identifiers as it prints them. -/
def canonicalText : PgText where
  date bytes := (Date.parse (asciiText bytes)).elim (.error (.plain "ERROR: invalid input syntax for type date (SQLSTATE 22007)")) .ok
  time bytes := (TimeOfDay.parse (asciiText bytes)).elim (.error (.plain "ERROR: invalid input syntax for type time (SQLSTATE 22007)")) .ok
  uuid bytes := uuidParam (asciiText bytes)

theorem canonicalText_lawful : canonicalText.Lawful where
  date_string d hd := by
    have hascii : ∀ c ∈ d.string.toList, c.toNat < 128 := fun c hc => lt_of_le_of_lt (isClock_le (isClock_date d c hc)) (by decide)
    simp only [canonicalText, asciiText_bytesOf hascii, Date.parse_string hd, Option.elim]
  time_string t ht := by
    have hascii : ∀ c ∈ t.string.toList, c.toNat < 128 := fun c hc => lt_of_le_of_lt (isClock_le (isClock_time t c hc)) (by decide)
    simp only [canonicalText, asciiText_bytesOf hascii, TimeOfDay.parse_string ht, Option.elim]
  uuid_id id hid := by
    have hascii : ∀ c ∈ id.toList, c.toNat < 128 := fun c hc => by
      have hrange := toNat_of_isUUID hid c hc
      omega
    simp only [canonicalText, asciiText_bytesOf hascii, uuidParam_ok hid]

/-- Two bookings of one venue, day and time. -/
def tiedBookings : NotedDB where
  bookings := ⟨[sampleBooking, { sampleBooking with id := "00000000-0000-0000-0000-00000000000a" }],
    by decide +kernel, by decide +kernel⟩
  outbox := []
  issued := []
  notes := []

theorem tiedBookings_dated : tiedBookings.Dated := by
  simp only [NotedDB.Dated, tiedBookings, List.forall_mem_cons, List.not_mem_nil, false_imp_iff, implies_true, and_true]
  decide

/-- Any function will do for the signature. -/
def plainCodec : CursorCodec := ⟨fun payload => payload⟩

theorem tiedBookings_visits :
    ∃ l : List (Booking × ℕ),
      traverse (fun cursor =>
        BookingRepo.listByVenue plainCodec canonicalText ⟨sampleBooking.venueID, "", "", "", ""⟩ cursor 1 tiedBookings) 3 "" =
          some (.ok l) ∧ (l.map Prod.fst).Perm tiedBookings.bookings.rows := by
  have hparam : uuidParam sampleBooking.venueID = .ok sampleBooking.venueID := uuidParam_ok (by decide +kernel)
  obtain ⟨p, hp, hall⟩ : ∃ p, BookingRepo.venueWhere canonicalText ⟨sampleBooking.venueID, "", "", "", ""⟩ = .ok p ∧
      tiedBookings.bookings.select p = tiedBookings.bookings.rows := by
    unfold BookingRepo.venueWhere BookingRepo.dateParam
    simp only [hparam, if_true]
    exact ⟨_, rfl, by decide +kernel⟩
  obtain ⟨l, hl, hperm, -⟩ := (listByVenue_visits plainCodec canonicalText_lawful tiedBookings_dated
    ⟨sampleBooking.venueID, "", "", "", ""⟩ (by decide : 1 ≤ 1)).1 p hp
  rw [hall] at hl hperm
  exact ⟨l, hl 3 (by decide), hperm⟩

end Agregator
