import Mathlib.Data.List.Sort
import Agregator.Cities
import Agregator.GoFormat
/-!
# SearchKey — the key of a cached search

`searchParamsCacheString` writes the version of the catalogue and a search into one text.  The parts of it that are texts stand
between delimiters and are not escaped, so they are read back where no delimiter is in them.
-/
namespace Agregator
namespace SearchKey

open GoBytes (lit)
open GoFormat (GoFloat Rounded decimal fixed)

structure SearchParams where
  query : List UInt8
  cities : List (List UInt8)
  lat : GoFloat
  lng : GoFloat
  radiusKM : GoFloat
  venueType : List UInt8
  priceMin : ℤ
  priceMax : ℤ
  ratingMin : GoFloat
  amenities : List (List UInt8)
  page : ℤ
  pageSize : ℤ

def geoCacheBucketDigits : ℕ := 3

def comma : UInt8 := 0x2C

variable (toLower : List UInt8 → List UInt8)

def SearchParams.effectiveCities (p : SearchParams) : List (List UInt8) := Cities.normalizeCityList toLower p.cities

/-- `sort.Strings`. -/
def sortStrings (l : List (List UInt8)) : List (List UInt8) := l.insertionSort (· ≤ ·)

/-- `strings.Join` at a comma. -/
def commaJoin (l : List (List UInt8)) : List UInt8 := [comma].intercalate l

def searchParamsCacheString (ver : ℤ) (p : SearchParams) : List UInt8 :=
  let am := sortStrings p.amenities
  let cc := sortStrings (p.effectiveCities toLower)
  decimal ver ++ (lit "|q=" ++ (p.query ++ (lit "|c=" ++ (commaJoin cc ++
    (lit "|lat=" ++ (fixed geoCacheBucketDigits p.lat ++ (lit "|lng=" ++ (fixed geoCacheBucketDigits p.lng ++
    (lit "|r=" ++ (fixed 6 p.radiusKM ++ (lit "|vt=" ++ (p.venueType ++ (lit "|pmin=" ++ (decimal p.priceMin ++
    (lit "|pmax=" ++ (decimal p.priceMax ++ (lit "|rmin=" ++ (fixed 6 p.ratingMin ++ (lit "|a=" ++ (commaJoin am ++
    (lit "|page=" ++ (decimal p.page ++ (lit "|ps=" ++ decimal p.pageSize)))))))))))))))))))))))

/-- Two searches of one key: all but the order of the lists, the spelling of the cities the search ignores, and the digits the
key leaves out. -/
structure Same (p q : SearchParams) : Prop where
  query : p.query = q.query
  cities : (p.effectiveCities toLower).Perm (q.effectiveCities toLower)
  lat : p.lat.rounded geoCacheBucketDigits = q.lat.rounded geoCacheBucketDigits
  lng : p.lng.rounded geoCacheBucketDigits = q.lng.rounded geoCacheBucketDigits
  radiusKM : p.radiusKM.rounded 6 = q.radiusKM.rounded 6
  venueType : p.venueType = q.venueType
  priceMin : p.priceMin = q.priceMin
  priceMax : p.priceMax = q.priceMax
  ratingMin : p.ratingMin.rounded 6 = q.ratingMin.rounded 6
  amenities : p.amenities.Perm q.amenities
  page : p.page = q.page
  pageSize : p.pageSize = q.pageSize

/-- The texts of a search leave the key its delimiters. -/
structure Undelimited (p : SearchParams) : Prop where
  query : ¬ lit "|c=" <:+: p.query
  cities : ∀ c ∈ p.cities, comma ∉ c ∧ ¬ lit "|lat=" <:+: c
  venueType : ¬ lit "|pmin=" <:+: p.venueType
  amenities : (∀ a ∈ p.amenities, comma ∉ a) ∧ p.amenities ≠ [[]]

/-! ## The parts of the key -/

/-- The byte every delimiter begins with. -/
def bar : UInt8 := 0x7C

theorem bar_notMem_number : ∀ c ∈ GoFormat.alphabet, bar ∉ String.utf8EncodeChar c := by
  have hall : bar ∉ GoFormat.alphabet.flatMap String.utf8EncodeChar := by decide
  exact fun c hc hmem => hall (List.mem_flatMap.2 ⟨c, hc, hmem⟩)

theorem bar_notMem_decimal (n : ℤ) : bar ∉ decimal n := GoFormat.notMem_decimal bar_notMem_number n

theorem bar_notMem_fixed (k : ℕ) (x : GoFloat) : bar ∉ fixed k x := GoFormat.notMem_fixed bar_notMem_number k x

variable {toLower}

theorem mem_sortStrings {l : List (List UInt8)} {x : List UInt8} : x ∈ sortStrings l ↔ x ∈ l := List.mem_insertionSort _

theorem perm_of_sortStrings {l l' : List (List UInt8)} (h : sortStrings l = sortStrings l') : l.Perm l' := by
  have hl : (sortStrings l).Perm l := List.perm_insertionSort _ l
  have hl' : (sortStrings l').Perm l' := List.perm_insertionSort _ l'
  rw [h] at hl
  exact hl.symm.trans hl'

theorem sortStrings_perm {l l' : List (List UInt8)} (h : l.Perm l') : sortStrings l = sortStrings l' := by
  have hl : (sortStrings l).Perm l := List.perm_insertionSort _ l
  have hl' : (sortStrings l').Perm l' := List.perm_insertionSort _ l'
  exact List.Perm.eq_of_pairwise' (List.pairwise_insertionSort _ l) (List.pairwise_insertionSort _ l')
    (hl.trans (h.trans hl'.symm))

theorem sortStrings_ne {l : List (List UInt8)} (h : l ≠ [[]]) : sortStrings l ≠ [[]] := by
  intro he
  have hperm : (sortStrings l).Perm l := List.perm_insertionSort _ l
  rw [he] at hperm
  exact h (List.perm_singleton.1 hperm.symm)

theorem perm_of_commaJoin {l l' : List (List UInt8)} (hl : (∀ x ∈ l, comma ∉ x) ∧ l ≠ [[]]) (hl' : (∀ x ∈ l', comma ∉ x) ∧ l' ≠ [[]])
    (h : commaJoin (sortStrings l) = commaJoin (sortStrings l')) : l.Perm l' :=
  perm_of_sortStrings (GoBytes.intercalate_injective (fun x hx => hl.1 x (mem_sortStrings.1 hx))
    (fun x hx => hl'.1 x (mem_sortStrings.1 hx)) (sortStrings_ne hl.2) (sortStrings_ne hl'.2) h)

/-- A city of the filter is one of the search, without white space at its ends. -/
theorem mem_effectiveCities {p : SearchParams} {t : List UInt8} (h : t ∈ p.effectiveCities toLower) :
    t ≠ [] ∧ ∃ c ∈ p.cities, t <:+: c := by
  rw [SearchParams.effectiveCities, Cities.normalizeCityList, Cities.unique_eq] at h
  obtain ⟨hne, c, hc, rfl⟩ := Cities.mem_named toLower h
  exact ⟨hne, c, hc, GoBytes.trim_within c⟩

theorem comma_notMem_effectiveCities {p : SearchParams} (h : Undelimited p) :
    (∀ t ∈ p.effectiveCities toLower, comma ∉ t) ∧ p.effectiveCities toLower ≠ [[]] := by
  constructor
  · intro t ht hmem
    obtain ⟨-, c, hc, hwithin⟩ := mem_effectiveCities ht
    exact (h.cities c hc).1 (hwithin.subset hmem)
  · intro he
    have hmem : [] ∈ p.effectiveCities toLower := by
      rw [he]
      exact List.mem_cons_self
    exact (mem_effectiveCities hmem).1 rfl

theorem lat_not_infix_cities {p : SearchParams} (h : Undelimited p) :
    ¬ lit "|lat=" <:+: commaJoin (sortStrings (p.effectiveCities toLower)) := by
  intro hwithin
  obtain ⟨t, ht, hlat⟩ := GoBytes.infix_of_infix_intercalate (by decide) (by decide) hwithin
  obtain ⟨-, c, hc, htc⟩ := mem_effectiveCities (mem_sortStrings.1 ht)
  exact (h.cities c hc).2 (hlat.trans htc)

/-! ## Searches -/

/-- Baths of two cities. -/
def baths : SearchParams where
  query := lit "banya"
  cities := [lit "Penza", lit "Moskva"]
  lat := .fin false (223 / 4)
  lng := .fin false (301 / 8)
  radiusKM := .fin false 5
  venueType := lit "bath"
  priceMin := 0
  priceMax := 5000
  ratingMin := .fin false (9 / 2)
  amenities := [lit "pool", lit "sauna"]
  page := 1
  pageSize := 20

/-- The same from some thirty metres away, asked for in another order. -/
def bathsNearby : SearchParams :=
  { baths with
    cities := [lit "Moskva", lit "Penza", lit "PENZA "]
    lat := .fin false (223 / 4 + 1 / 4096)
    amenities := [lit "sauna", lit "pool"] }

/-- **Searches of one key**: where the texts of two searches leave the key its delimiters, one key means one version and one
search, but for the order of the lists, the spelling the filter ignores and the digits the key leaves out. -/
theorem same_of_cacheString {p q : SearchParams} {ver ver' : ℤ} (hp : Undelimited p) (hq : Undelimited q)
    (h : searchParamsCacheString toLower ver p = searchParamsCacheString toLower ver' q) : ver = ver' ∧ Same toLower p q := by
  have hdec := bar_notMem_decimal
  have hfix := bar_notMem_fixed
  have hlast : ∀ a b c d e : List UInt8, a ++ (b ++ (c ++ (d ++ e))) = a ++ (b ++ c) ++ (d ++ e) := by simp
  unfold searchParamsCacheString at h
  obtain ⟨hver, h⟩ := GoBytes.append_inj_of_notMem (by decide) (hdec ver) (hdec ver') h
  obtain ⟨hquery, h⟩ := GoBytes.append_inj_of_delimiter (c := bar) (by decide) hp.query hq.query h
  obtain ⟨hcities, h⟩ := GoBytes.append_inj_of_delimiter (c := bar) (by decide) (lat_not_infix_cities hp) (lat_not_infix_cities hq) h
  obtain ⟨hlat, h⟩ := GoBytes.append_inj_of_notMem (by decide) (hfix _ p.lat) (hfix _ q.lat) h
  obtain ⟨hlng, h⟩ := GoBytes.append_inj_of_notMem (by decide) (hfix _ p.lng) (hfix _ q.lng) h
  obtain ⟨hradius, h⟩ := GoBytes.append_inj_of_notMem (by decide) (hfix 6 p.radiusKM) (hfix 6 q.radiusKM) h
  obtain ⟨htype, h⟩ := GoBytes.append_inj_of_delimiter (c := bar) (by decide) hp.venueType hq.venueType h
  obtain ⟨hmin, h⟩ := GoBytes.append_inj_of_notMem (by decide) (hdec p.priceMin) (hdec q.priceMin) h
  obtain ⟨hmax, h⟩ := GoBytes.append_inj_of_notMem (by decide) (hdec p.priceMax) (hdec q.priceMax) h
  obtain ⟨hrating, h⟩ := GoBytes.append_inj_of_notMem (by decide) (hfix 6 p.ratingMin) (hfix 6 q.ratingMin) h
  -- a delimiter may be in an amenity: the page and its size are read from the end
  rw [hlast, hlast] at h
  obtain ⟨h, hsize⟩ := GoBytes.append_inj_of_last (c := bar) (by decide) (hdec p.pageSize) (hdec q.pageSize) h
  obtain ⟨ham, hpage⟩ := GoBytes.append_inj_of_last (c := bar) (by decide) (hdec p.page) (hdec q.page) h
  exact ⟨GoFormat.decimal_injective hver,
    { query := hquery
      cities := perm_of_commaJoin (comma_notMem_effectiveCities hp) (comma_notMem_effectiveCities hq) hcities
      lat := GoFormat.fixed_injective hlat
      lng := GoFormat.fixed_injective hlng
      radiusKM := GoFormat.fixed_injective hradius
      venueType := htype
      priceMin := GoFormat.decimal_injective hmin
      priceMax := GoFormat.decimal_injective hmax
      ratingMin := GoFormat.fixed_injective hrating
      amenities := perm_of_commaJoin hp.amenities hq.amenities ham
      page := GoFormat.decimal_injective hpage
      pageSize := GoFormat.decimal_injective hsize }⟩

theorem baths_nearby : Same Cities.asciiLower baths bathsNearby := by
  have hkey : searchParamsCacheString Cities.asciiLower 7 baths = searchParamsCacheString Cities.asciiLower 7 bathsNearby := by
    decide +kernel
  exact (same_of_cacheString ⟨by decide, by decide, by decide, by decide⟩ ⟨by decide, by decide, by decide, by decide⟩ hkey).2

/-- Searches of one key that differ: in cities the filter does not tell apart, in a radius of more digits than the key has, and
in texts with a delimiter of the key in them. -/
theorem keys_shared :
    (searchParamsCacheString Cities.asciiLower 7 { baths with cities := [lit "Penza"] } =
        searchParamsCacheString Cities.asciiLower 7 { baths with cities := [lit "Penza", lit "PENZA"] } ∧
      ¬ [lit "Penza"].Perm [lit "Penza", lit "PENZA"]) ∧
    (searchParamsCacheString Cities.asciiLower 7 baths =
        searchParamsCacheString Cities.asciiLower 7 { baths with radiusKM := .fin false (5 + 1 / 2 ^ 30) } ∧
      baths.radiusKM ≠ .fin false (5 + 1 / 2 ^ 30)) ∧
    searchParamsCacheString Cities.asciiLower 7 { baths with query := lit "x", cities := [lit "a|c="] } =
        searchParamsCacheString Cities.asciiLower 7 { baths with query := lit "x|c=a", cities := [] } ∧
      lit "x" ≠ lit "x|c=a" := by
  decide +kernel

/-- Searches that are the same have one key. -/
theorem cacheString_of_same {p q : SearchParams} (h : Same toLower p q) (ver : ℤ) :
    searchParamsCacheString toLower ver p = searchParamsCacheString toLower ver q := by
  have hfixed : ∀ {k : ℕ} {x y : GoFloat}, x.rounded k = y.rounded k → fixed k x = fixed k y := fun {k x y} he => by
    unfold fixed
    rw [he]
  unfold searchParamsCacheString
  rw [h.query, sortStrings_perm h.cities, sortStrings_perm h.amenities, hfixed h.lat, hfixed h.lng, hfixed h.radiusKM, h.venueType,
    h.priceMin, h.priceMax, hfixed h.ratingMin, h.page, h.pageSize]

/-- Places of one key are within a thousandth of a degree. -/
theorem lat_close {p q : SearchParams} (h : Same toLower p q) {s t : Bool} {x y : ℚ≥0} (hp : p.lat = .fin s x)
    (hq : q.lat = .fin t y) : s = t ∧ |(x : ℚ) - y| ≤ 1 / 10 ^ geoCacheBucketDigits := by
  have hlat := h.lat
  rw [hp, hq] at hlat
  exact GoFormat.abs_sub_le_of_rounded hlat

end SearchKey
end Agregator
