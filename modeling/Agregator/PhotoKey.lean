import Agregator.GoUrl
import Agregator.SvcErr
/-!
# PhotoKey — where the photos of a master are kept

`normalizeMasterPhotoURL` finds the key of an object in a URL, checks it, and writes the URL again with what was before the key.
A clean path with a key after it is read as it was written (`accepted_of_clean`).
-/
namespace Agregator
namespace PhotoKey

open GoBytes (lit trimBytes beforeFirst spaces)
open GoPath (slash onedot dotdot parts unparts clean trimSlashes elementsOf isRooted PlainElement)
open GoUrl (URL parse unescapePath percent question hash colon isCTL firstSegment isLetter isDigit)

/-! ## Identifiers -/

/-- `uuid.UUID`. -/
structure UUID where
  bytes : List UInt8
  length_bytes : bytes.length = 16

def hexByte (n : UInt8) : UInt8 := if n < 10 then 0x30 + n else 0x57 + n

def hexText (bytes : List UInt8) : List UInt8 := bytes.flatMap fun b => [hexByte (b / 16), hexByte (b % 16)]

def dash : UInt8 := 0x2D

/-- The text of a UUID. -/
def UUID.string (id : UUID) : List UInt8 :=
  let hex := fun from_ n => hexText ((id.bytes.drop from_).take n)
  hex 0 4 ++ dash :: (hex 4 2 ++ dash :: (hex 6 2 ++ dash :: (hex 8 2 ++ dash :: hex 10 6)))

def isIdByte (b : UInt8) : Bool := isDigit b || (0x61 ≤ b && b ≤ 0x66) || b == dash

def isNameByte (b : UInt8) : Bool := isLetter b || isDigit b || (lit "._-").contains b

/-! ## Keys -/

/-- `masterPhotoKeyRe`. -/
def masterPhotoKeyRe (key : List UInt8) : Bool :=
  match parts key with
  | [dir, id, name] => dir == lit "masters" && id.length == 36 && id.all isIdByte && !name.isEmpty && name.all isNameByte
  | _ => false

/-- The first segment `masters` with two after it, which are the last. -/
def keyAt : List (List UInt8) → Option (List UInt8)
  | [] => none
  | seg :: segments =>
    match segments with
    | [id, name] => if seg = lit "masters" then some (lit "masters/" ++ (id ++ slash :: name)) else keyAt segments
    | _ => keyAt segments

variable (ipLiteral : List UInt8 → Bool)

def extractMasterPhotoKey (rawURL : List UInt8) : Option (List UInt8) :=
  (parse ipLiteral rawURL).bind fun parsed => keyAt (parts (trimSlashes (clean parsed.path)))

def normalizeMasterPhotoURL (masterID : UUID) (rawURL : List UInt8) : Except Err (List UInt8) :=
  let rawURL := trimBytes rawURL
  if rawURL = [] then .error (.plain "photo url is empty")
  else
    match parse ipLiteral rawURL with
    | none => .error (.plain "photo url is not a valid URL")
    | some parsed =>
      match extractMasterPhotoKey ipLiteral rawURL with
      | none => .error (.plain "photo url does not contain a master upload path")
      | some key =>
        match unescapePath key with
        | none => .error (.plain "photo url contains invalid percent-encoding")
        | some decoded =>
          let cleaned := clean decoded
          if masterPhotoKeyRe cleaned = false then .error (.plain "photo url has invalid format")
          else if ¬ lit "masters/" ++ (masterID.string ++ [slash]) <+: cleaned then
            .error (.plain "photo url does not belong to this master")
          else
            let canonicalURL :=
              match beforeFirst (lit "/masters/") (clean parsed.path) with
              | some before => before ++ slash :: cleaned
              | none => slash :: cleaned
            .ok (if parsed.host ≠ [] then parsed.scheme ++ (lit "://" ++ (parsed.host ++ canonicalURL)) else canonicalURL)

/-- The key that is checked. -/
def validatedKey (rawURL : List UInt8) : Option (List UInt8) :=
  ((extractMasterPhotoKey ipLiteral (trimBytes rawURL)).bind unescapePath).map clean

/-- The key of an object below the directory of a master. -/
def IsKey (m : UUID) (key : List UInt8) : Prop :=
  ∃ name, name ≠ [] ∧ name ≠ onedot ∧ name ≠ dotdot ∧ (∀ b ∈ name, isNameByte b = true) ∧
    key = lit "masters/" ++ (m.string ++ slash :: name)

/-- What is put before the key of a path. -/
def photoPrefix (p : List UInt8) : List UInt8 := (beforeFirst (lit "/masters/") (clean p)).getD []

/-! ## The texts of identifiers -/

theorem hexByte_isIdByte : ∀ b : UInt8, isIdByte (hexByte (b / 16)) = true ∧ isIdByte (hexByte (b % 16)) = true :=
  GoBytes.forall_byte (by decide +kernel)

theorem hexText_bytes {bytes : List UInt8} : ∀ b ∈ hexText bytes, isIdByte b = true := by
  intro b hb
  obtain ⟨a, -, hb⟩ := List.mem_flatMap.1 hb
  rcases List.mem_cons.1 hb with rfl | hb
  · exact (hexByte_isIdByte a).1
  · rw [List.mem_singleton.1 hb]
    exact (hexByte_isIdByte a).2

theorem hexText_length (bytes : List UInt8) : (hexText bytes).length = 2 * bytes.length := by
  induction bytes with
  | nil => rfl
  | cons b bytes ih =>
    simp only [hexText, List.flatMap_cons, List.length_append, List.length_cons, List.length_nil] at ih ⊢
    omega

theorem UUID.string_bytes (m : UUID) : ∀ b ∈ m.string, isIdByte b = true := by
  intro b hb
  unfold UUID.string at hb
  simp only [List.mem_append, List.mem_cons] at hb
  rcases hb with hb | rfl | hb | rfl | hb | rfl | hb | rfl | hb
  · exact hexText_bytes b hb
  · decide
  · exact hexText_bytes b hb
  · decide
  · exact hexText_bytes b hb
  · decide
  · exact hexText_bytes b hb
  · decide
  · exact hexText_bytes b hb

theorem UUID.string_length (m : UUID) : m.string.length = 36 := by
  unfold UUID.string
  simp only [List.length_append, List.length_cons, hexText_length, List.length_take, List.length_drop, m.length_bytes]
  decide

theorem isIdByte_facts : ∀ b, isIdByte b = true → b ≠ slash ∧ isNameByte b = true := GoBytes.forall_byte (by decide +kernel)

theorem isNameByte_facts : ∀ b, isNameByte b = true → b ≠ slash ∧ b ≠ percent ∧ b ≠ question ∧ b ≠ hash ∧ isCTL b = false :=
  GoBytes.forall_byte (by decide +kernel)

theorem UUID.slash_notMem_string (m : UUID) : slash ∉ m.string := fun h => (isIdByte_facts slash (m.string_bytes slash h)).1 rfl

/-! ## Keys that were checked -/

section Keys

variable {m : UUID} {key : List UInt8}

theorem isKey_parts (h : IsKey m key) : ∃ name, parts key = [lit "masters", m.string, name] ∧
    (∀ e ∈ [lit "masters", m.string, name], PlainElement e) ∧ name ≠ [] ∧ ∀ b ∈ name, isNameByte b = true := by
  obtain ⟨name, hne, hdot, hup, hbytes, rfl⟩ := h
  have hname : slash ∉ name := fun hmem => (isNameByte_facts slash (hbytes slash hmem)).1 rfl
  have hdir : lit "masters/" ++ (m.string ++ slash :: name) = lit "masters" ++ slash :: (m.string ++ slash :: name) := rfl
  have hid : ∀ l : List UInt8, l.length < 3 → m.string ≠ l := fun l hl he => by
    rw [← he, m.string_length] at hl
    omega
  refine ⟨name, ?_, ?_, hne, hbytes⟩
  · rw [hdir, GoPath.parts_append, GoPath.parts_append, GoPath.parts_of_notMem (by decide),
      GoPath.parts_of_notMem m.slash_notMem_string, GoPath.parts_of_notMem hname]
    rfl
  · intro e he
    simp only [List.mem_cons, List.not_mem_nil, or_false] at he
    obtain rfl | rfl | rfl := he
    · exact ⟨by decide, by decide, by decide⟩
    · exact ⟨hid [] (by decide), hid onedot (by decide), hid dotdot (by decide)⟩
    · exact ⟨hne, hdot, hup⟩

theorem isKey_plain (h : IsKey m key) : ∀ e ∈ parts key, PlainElement e := by
  obtain ⟨name, hparts, hplain, -⟩ := isKey_parts h
  rw [hparts]
  exact hplain

theorem isKey_nameBytes (h : IsKey m key) : ∀ b ∈ key, isNameByte b = true ∨ b = slash := by
  obtain ⟨name, -, -, -, hbytes, rfl⟩ := h
  intro b hb
  rcases List.mem_append.1 hb with hb | hb
  · exact (by decide +kernel : ∀ b ∈ lit "masters/", isNameByte b = true ∨ b = slash) b hb
  · rcases List.mem_append.1 hb with hb | hb
    · exact .inl (isIdByte_facts b (m.string_bytes b hb)).2
    · rcases List.mem_cons.1 hb with hb | hb
      · exact .inr hb
      · exact .inl (hbytes b hb)

theorem isKey_bytes (h : IsKey m key) : ∀ b ∈ key, b ≠ percent ∧ b ≠ question ∧ b ≠ hash ∧ isCTL b = false := by
  intro b hb
  rcases isKey_nameBytes h b hb with hb | rfl
  · exact (isNameByte_facts b hb).2
  · decide

theorem unescape_key (h : IsKey m key) : unescapePath key = some key :=
  GoUrl.unescape_of_raw fun b hb => ⟨(isKey_bytes h b hb).1, rfl⟩

theorem clean_key (h : IsKey m key) : clean key = key :=
  (GoPath.clean_of_neat (GoPath.parts_ne_nil key) (isKey_plain h) (.inl rfl)).2

/-- A key begins with the directory it is looked for by. -/
theorem cons_key (h : IsKey m key) : ∃ rest, slash :: key = lit "/masters/" ++ rest := by
  obtain ⟨name, -, -, -, -, rfl⟩ := h
  exact ⟨m.string ++ slash :: name, rfl⟩

/-- A key that was checked is that of an object below the directory of the master. -/
theorem isKey_of_checks {decoded : List UInt8} (hre : masterPhotoKeyRe (clean decoded) = true)
    (hpre : lit "masters/" ++ (m.string ++ [slash]) <+: clean decoded) : IsKey m (clean decoded) := by
  obtain ⟨rest, hrest⟩ := hpre
  have hkey : clean decoded = lit "masters" ++ slash :: (m.string ++ slash :: rest) := by
    rw [← hrest]
    simp [show lit "masters/" = lit "masters" ++ [slash] from rfl]
  have hparts : parts (clean decoded) = lit "masters" :: m.string :: parts rest := by
    rw [hkey, GoPath.parts_append, GoPath.parts_append, GoPath.parts_of_notMem (by decide),
      GoPath.parts_of_notMem m.slash_notMem_string]
    rfl
  unfold masterPhotoKeyRe at hre
  rw [hparts] at hre
  match hr : parts rest, hre with
  | [name], hre =>
    simp only [Bool.and_eq_true, List.all_eq_true, Bool.not_eq_true', List.isEmpty_eq_false_iff] at hre
    obtain ⟨⟨⟨⟨-, -⟩, -⟩, hne⟩, hbytes⟩ := hre
    have hname : rest = name := by
      have h := GoPath.unparts_parts rest
      rw [hr] at h
      rw [← h, GoPath.unparts_singleton]
    subst hname
    rw [hr] at hparts
    have helems : elementsOf decoded = [lit "masters", m.string, rest] :=
      GoPath.elementsOf_of_parts_clean hparts (by decide) (by decide)
    have hpair : (elementsOf decoded).Pairwise fun x y => y = dotdot → x = dotdot := GoPath.pairwise_elements _ _
    have hmem := GoPath.mem_elementsOf (helems ▸ by simp : rest ∈ elementsOf decoded)
    rw [helems] at hpair
    have hup : rest ≠ dotdot := fun he =>
      absurd (List.rel_of_pairwise_cons hpair (by simp : rest ∈ [m.string, rest]) he) (by decide)
    exact ⟨rest, hne, hmem.2.1, hup, hbytes, hkey⟩

theorem checks_of_isKey (h : IsKey m key) :
    masterPhotoKeyRe key = true ∧ lit "masters/" ++ (m.string ++ [slash]) <+: key := by
  obtain ⟨name, hparts, -, hne, hbytes⟩ := isKey_parts h
  constructor
  · unfold masterPhotoKeyRe
    rw [hparts]
    simp only [Bool.and_eq_true, List.all_eq_true, Bool.not_eq_true', List.isEmpty_eq_false_iff, beq_self_eq_true, beq_iff_eq]
    exact ⟨⟨⟨⟨trivial, m.string_length⟩, m.string_bytes⟩, hne⟩, hbytes⟩
  · obtain ⟨name, -, -, -, -, rfl⟩ := h
    exact ⟨name, by simp⟩

/-- A key is after no other directory `masters`. -/
theorem beforeFirst_of_isKey (h : IsKey m key) : beforeFirst (lit "/masters/") key = none := by
  cases hb : beforeFirst (lit "/masters/") key with
  | none => rfl
  | some x =>
    obtain ⟨rest, hrest⟩ := GoBytes.of_beforeFirst hb
    obtain ⟨name, hparts, -, -, -⟩ := isKey_parts h
    have hkey : key = x ++ slash :: (lit "masters" ++ slash :: rest) := hrest
    have hdir : parts (lit "masters") = [lit "masters"] := GoPath.parts_of_notMem (by decide)
    rw [hkey, GoPath.parts_append, GoPath.parts_append, hdir] at hparts
    match hx : parts x, hr : parts rest, hparts with
    | [], _, _ => exact absurd hx (GoPath.parts_ne_nil x)
    | [_], [], _ => exact absurd hr (GoPath.parts_ne_nil rest)
    | [_], [_], hparts =>
      have hid : lit "masters" = m.string := (List.cons.inj (List.cons.inj hparts).2).1
      have hlen := m.string_length
      rw [← hid] at hlen
      exact absurd hlen (by decide)
    | [_], _ :: _ :: _, hparts =>
      have hlen := congrArg List.length hparts
      simp at hlen
    | _ :: _ :: _, l, hparts =>
      have hlen := congrArg List.length hparts
      have hpos := List.length_pos_of_ne_nil (hr ▸ GoPath.parts_ne_nil rest : l ≠ [])
      simp at hlen
      omega

end Keys

/-! ## Segments -/

theorem keyAt_cons {seg : List UInt8} : ∀ {segments : List (List UInt8)}, segments.length ≠ 2 →
    keyAt (seg :: segments) = keyAt segments
  | [], _ => rfl
  | [_], _ => rfl
  | [_, _], h => absurd rfl h
  | _ :: _ :: _ :: _, _ => rfl

theorem keyAt_append (id name : List UInt8) : ∀ front : List (List UInt8),
    keyAt (front ++ [lit "masters", id, name]) = some (lit "masters/" ++ (id ++ slash :: name))
  | [] => by
    rw [List.nil_append, keyAt]
    exact if_pos rfl
  | seg :: front => by
    rw [List.cons_append, keyAt_cons (by simp), keyAt_append id name front]

variable {ipLiteral}

/-- The path of a URL with a key has elements. -/
theorem elementsOf_ne_nil {url : URL} {key : List UInt8} (h : keyAt (parts (trimSlashes (clean url.path))) = some key) :
    elementsOf url.path ≠ [] := by
  intro hnil
  have hempty : keyAt (parts []) = none := by decide
  have hdot : keyAt (parts onedot) = none := by decide
  rcases GoPath.trimSlashes_clean_of_nil hnil with he | he
  · rw [he, hempty] at h
    cases h
  · rw [he, hdot] at h
    cases h

/-! ## What is put before the key -/

section Prefix

variable {p : List UInt8} (h : elementsOf p ≠ [])
include h

/-- The elements before the key, below the root after an empty one. -/
theorem photoPrefix_parts : ∃ front, (∀ e ∈ front, e ≠ [] ∧ e ≠ onedot ∧ (isRooted p = true → e ≠ dotdot)) ∧
    (parts (photoPrefix p) = [] :: front ∨ (isRooted p = false ∧ parts (photoPrefix p) = front)) := by
  have hplain : ∀ e ∈ elementsOf p, e ≠ [] ∧ e ≠ onedot ∧ (isRooted p = true → e ≠ dotdot) := fun e he =>
    ⟨(GoPath.mem_elementsOf he).1, (GoPath.mem_elementsOf he).2.1, (GoPath.mem_elementsOf he).2.2.2⟩
  unfold photoPrefix
  cases hb : beforeFirst (lit "/masters/") (clean p) with
  | none => exact ⟨[], ⟨fun e he => (List.not_mem_nil he).elim, .inl (by decide)⟩⟩
  | some x =>
    obtain ⟨rest, hrest⟩ := GoBytes.of_beforeFirst hb
    have hclean : clean p = x ++ slash :: (lit "masters/" ++ rest) := hrest
    have hparts := GoPath.parts_clean h
    rw [hclean, GoPath.parts_append] at hparts
    rw [Option.getD_some]
    by_cases hr : isRooted p = true
    · rw [if_pos hr] at hparts
      match hx : parts x, hparts with
      | [], _ => exact absurd hx (GoPath.parts_ne_nil x)
      | y :: front, hparts =>
        obtain ⟨rfl, htail⟩ := List.cons.inj hparts
        exact ⟨front, fun e he => hplain e (htail ▸ List.mem_append_left _ he), .inl rfl⟩
    · rw [if_neg hr] at hparts
      exact ⟨parts x, fun e he => hplain e (hparts ▸ List.mem_append_left _ he), .inr ⟨by simpa using hr, rfl⟩⟩

theorem photoPrefix_tail : ∀ e ∈ (parts (photoPrefix p)).tail, e ≠ [] := by
  obtain ⟨front, hfront, hparts | ⟨-, hparts⟩⟩ := photoPrefix_parts h
  · rw [hparts]
    exact fun e he => (hfront e he).1
  · rw [hparts]
    exact fun e he => (hfront e (List.mem_of_mem_tail he)).1

/-- Below the root there are no two dots before the key, and there is nothing or a slash first. -/
theorem photoPrefix_rooted (hr : isRooted p = true) :
    dotdot ∉ parts (photoPrefix p) ∧ (photoPrefix p = [] ∨ isRooted (photoPrefix p) = true) := by
  obtain ⟨front, hfront, hparts | ⟨hno, -⟩⟩ := photoPrefix_parts h
  · constructor
    · rw [hparts]
      intro hmem
      rcases List.mem_cons.1 hmem with hmem | hmem
      · exact absurd hmem (by decide)
      · exact (hfront _ hmem).2.2 hr rfl
    · have hp := GoPath.unparts_parts (photoPrefix p)
      rw [hparts] at hp
      by_cases hnil : front = []
      · subst hnil
        exact .inl hp.symm
      · rw [GoPath.unparts_cons hnil, List.nil_append] at hp
        exact .inr (GoPath.isRooted_iff.2 ⟨_, hp.symm⟩)
  · rw [hr] at hno
    cases hno

/-- A key after it makes a clean path, with the key at its end and the same before the key. -/
theorem photoPrefix_append {m : UUID} {key : List UInt8} (hkey : IsKey m key) (hup : dotdot ∉ parts (photoPrefix p)) :
    clean (photoPrefix p ++ slash :: key) = photoPrefix p ++ slash :: key ∧
      (∃ front, elementsOf (photoPrefix p ++ slash :: key) = front ++ parts key) ∧
      photoPrefix (photoPrefix p ++ slash :: key) = photoPrefix p := by
  obtain ⟨front, hfront, hparts⟩ := photoPrefix_parts h
  have hne : front ++ parts key ≠ [] := fun he => GoPath.parts_ne_nil key (List.append_eq_nil_iff.1 he).2
  have hmem : ∀ e ∈ front, e ∈ parts (photoPrefix p) := fun e he => by
    rcases hparts with hparts | ⟨-, hparts⟩
    · rw [hparts]
      exact List.mem_cons_of_mem _ he
    · rwa [hparts]
  have hplain : ∀ e ∈ front ++ parts key, PlainElement e := by
    intro e he
    rcases List.mem_append.1 he with he | he
    · exact ⟨(hfront e he).1, (hfront e he).2.1, fun hd => hup (hd ▸ hmem e he)⟩
    · exact isKey_plain hkey e he
  have hall : parts (photoPrefix p ++ slash :: key) = front ++ parts key ∨
      parts (photoPrefix p ++ slash :: key) = [] :: (front ++ parts key) := by
    rw [GoPath.parts_append]
    rcases hparts with hparts | ⟨-, hparts⟩
    · exact .inr (by rw [hparts, List.cons_append])
    · exact .inl (by rw [hparts])
  obtain ⟨helems, hclean⟩ := GoPath.clean_of_neat hne hplain hall
  refine ⟨hclean, ⟨front, helems⟩, ?_⟩
  obtain ⟨rest', hdir⟩ := cons_key hkey
  have hfirst : beforeFirst (lit "/masters/") (photoPrefix p ++ slash :: key) = some (photoPrefix p) := by
    rw [hdir]
    cases hb : beforeFirst (lit "/masters/") (clean p) with
    | none =>
      have hnil : photoPrefix p = [] := by rw [photoPrefix, hb, Option.getD_none]
      rw [hnil]
      exact GoBytes.beforeFirst_of_prefix (List.prefix_append _ _)
    | some x =>
      have hx : photoPrefix p = x := by rw [photoPrefix, hb, Option.getD_some]
      obtain ⟨rest, hrest⟩ := GoBytes.of_beforeFirst hb
      rw [hx]
      exact GoBytes.beforeFirst_congr _ (hrest ▸ hb)
  rw [photoPrefix, hclean, hfirst, Option.getD_some]

omit h

/-- What is before the key of a path has not become longer. -/
theorem photoPrefix_length {m : UUID} {key : List UInt8} (hkey : IsKey m key) (x : List UInt8) :
    (photoPrefix (x ++ slash :: key)).length ≤ x.length := by
  rcases GoPath.clean_append x (isKey_plain hkey) with hclean | ⟨y, hlen, hclean⟩
  · rw [photoPrefix, hclean, beforeFirst_of_isKey hkey, Option.getD_none]
    exact Nat.zero_le _
  · obtain ⟨rest, hdir⟩ := cons_key hkey
    obtain ⟨z, hz, hzy⟩ := GoBytes.beforeFirst_le (lit "/masters/") rest y
    rw [photoPrefix, hclean, hdir, hz, Option.getD_some]
    omega

end Prefix

/-! ## Runs of `normalizeMasterPhotoURL` -/

/-- A key with what was before it in a URL. -/
def canonical (url : URL) (key : List UInt8) : List UInt8 :=
  let path := photoPrefix url.path ++ slash :: key
  if url.host ≠ [] then url.scheme ++ (lit "://" ++ (url.host ++ path)) else path

theorem canonical_eq (url : URL) (key : List UInt8) : canonical url key =
    (let canonicalURL :=
      match beforeFirst (lit "/masters/") (clean url.path) with
      | some before => before ++ slash :: key
      | none => slash :: key
    if url.host ≠ [] then url.scheme ++ (lit "://" ++ (url.host ++ canonicalURL)) else canonicalURL) := by
  unfold canonical photoPrefix
  cases beforeFirst (lit "/masters/") (clean url.path) <;> rfl

section Runs

variable {m : UUID} {raw u : List UInt8}

/-- What an accepted URL was read as. -/
structure Accepted (ipLiteral : List UInt8 → Bool) (m : UUID) (raw : List UInt8) (url : URL) (key : List UInt8) : Prop where
  parsed : parse ipLiteral (trimBytes raw) = some url
  validated : validatedKey ipLiteral raw = some key
  isKey : IsKey m key
  elements : elementsOf url.path ≠ []

theorem accepted_of_normalize (h : normalizeMasterPhotoURL ipLiteral m raw = .ok u) :
    ∃ url key, Accepted ipLiteral m raw url key ∧ u = canonical url key := by
  unfold normalizeMasterPhotoURL at h
  dsimp only at h
  by_cases hempty : trimBytes raw = []
  · rw [if_pos hempty] at h
    cases h
  · rw [if_neg hempty] at h
    cases hurl : parse ipLiteral (trimBytes raw) with
    | none =>
      rw [hurl] at h
      cases h
    | some url =>
      rw [hurl] at h
      dsimp only at h
      cases hkey : extractMasterPhotoKey ipLiteral (trimBytes raw) with
      | none =>
        rw [hkey] at h
        cases h
      | some key =>
        rw [hkey] at h
        dsimp only at h
        cases hdec : unescapePath key with
        | none =>
          rw [hdec] at h
          cases h
        | some decoded =>
          rw [hdec] at h
          dsimp only at h
          by_cases hre : masterPhotoKeyRe (clean decoded) = false
          · rw [if_pos hre] at h
            cases h
          · rw [if_neg hre] at h
            by_cases hpre : lit "masters/" ++ (m.string ++ [slash]) <+: clean decoded
            · rw [if_neg (not_not_intro hpre)] at h
              cases h
              refine ⟨url, clean decoded, ⟨hurl, ?_, isKey_of_checks (by simpa using hre) hpre, ?_⟩, (canonical_eq _ _).symm⟩
              · rw [validatedKey, hkey, Option.bind_some, hdec, Option.map_some]
              · rw [extractMasterPhotoKey, hurl, Option.bind_some] at hkey
                exact elementsOf_ne_nil hkey
            · rw [if_pos hpre] at h
              cases h

theorem normalize_of_accepted {url : URL} {key : List UInt8} (h : Accepted ipLiteral m raw url key) :
    normalizeMasterPhotoURL ipLiteral m raw = .ok (canonical url key) := by
  obtain ⟨decoded, hdec, rfl⟩ := Option.map_eq_some_iff.1 h.validated
  obtain ⟨key, hkey, hdec⟩ := Option.bind_eq_some_iff.1 hdec
  obtain ⟨hre, hpre⟩ := checks_of_isKey h.isKey
  have hne : trimBytes raw ≠ [] := by
    intro he
    have hnone : extractMasterPhotoKey ipLiteral [] = none := rfl
    rw [he, hnone] at hkey
    cases hkey
  unfold normalizeMasterPhotoURL
  dsimp only
  rw [if_neg hne, h.parsed]
  dsimp only
  rw [hkey]
  dsimp only
  rw [hdec]
  dsimp only
  rw [if_neg (by simp [hre]), if_neg (not_not_intro hpre), canonical_eq]

/-- A text that is read as a clean path with a key at its end is normal. -/
theorem accepted_of_clean {url : URL} {key : List UInt8} {p : List UInt8} (hp : elementsOf p ≠ []) (hup : dotdot ∉ parts (photoPrefix p))
    (hkey : IsKey m key) (htrim : trimBytes u = u) (hparse : parse ipLiteral u = some url)
    (hpath : url.path = photoPrefix p ++ slash :: key) :
    Accepted ipLiteral m u url key ∧ extractMasterPhotoKey ipLiteral u = some key ∧ canonical url key =
      (if url.host ≠ [] then url.scheme ++ (lit "://" ++ (url.host ++ url.path)) else url.path) ∧ dotdot ∉ parts url.path := by
  obtain ⟨hclean, ⟨front, helems⟩, hbefore⟩ := photoPrefix_append hp hkey hup
  obtain ⟨name, hparts, hplain, -, -⟩ := isKey_parts hkey
  have hne : elementsOf url.path ≠ [] := by
    rw [hpath, helems]
    exact fun he => GoPath.parts_ne_nil key (List.append_eq_nil_iff.1 he).2
  have hextract : extractMasterPhotoKey ipLiteral u = some key := by
    rw [extractMasterPhotoKey, hparse, Option.bind_some, GoPath.parts_trimSlashes_clean hne, hpath, helems, hparts, keyAt_append]
    have hread := GoPath.unparts_parts key
    rw [hparts, GoPath.unparts_cons (List.cons_ne_nil _ _), GoPath.unparts_cons (List.cons_ne_nil _ _)] at hread
    rw [GoPath.unparts_singleton] at hread
    rw [← hread]
    rfl
  refine ⟨⟨by rw [htrim, hparse], ?_, hkey, hne⟩, hextract, ?_, ?_⟩
  · rw [validatedKey, htrim, hextract, Option.bind_some, unescape_key hkey, Option.map_some, clean_key hkey]
  · unfold canonical
    rw [hpath, hbefore]
  · rw [hpath, GoPath.parts_append]
    intro hmem
    rcases List.mem_append.1 hmem with hmem | hmem
    · exact hup hmem
    · exact (isKey_plain hkey _ hmem).2.2 rfl

end Runs

end PhotoKey
end Agregator
