import Agregator.GoPath
/-!
# GoUrl — URLs as `net/url` reads them

`url.Parse` of a text of bytes, as far as the scheme, the host and the path.  What `netip` accepts between brackets is given.  A
path without a host is read where it stands (`parse_plain`), a path with one after it (`parse_absolute`), and what was unescaped
is shorter (`unescape_length`).
-/
namespace GoUrl

open GoBytes (lit beforeFirst cutLast)
open GoPath (slash isRooted)

def percent : UInt8 := 0x25

def hash : UInt8 := 0x23

def question : UInt8 := 0x3F

def colon : UInt8 := 0x3A

def atSign : UInt8 := 0x40

def openBracket : UInt8 := 0x5B

def closeBracket : UInt8 := 0x5D

/-! ## Bytes -/

def isLetter (b : UInt8) : Bool := (0x41 ≤ b && b ≤ 0x5A) || (0x61 ≤ b && b ≤ 0x7A)

def isDigit (b : UInt8) : Bool := 0x30 ≤ b && b ≤ 0x39

def isHex (b : UInt8) : Bool := isDigit b || (0x41 ≤ b && b ≤ 0x46) || (0x61 ≤ b && b ≤ 0x66)

def unhex (b : UInt8) : UInt8 := if isDigit b then b - 0x30 else if b ≤ 0x46 then b - 0x37 else b - 0x57

def escaped (h l : UInt8) : UInt8 := unhex h * 16 + unhex l

/-- A byte of `stringContainsCTLByte`. -/
def isCTL (b : UInt8) : Bool := b < 0x20 || b == 0x7F

/-- `unescape`, by the bytes that may stand as they are and those that may be escaped. -/
def unescape (raw esc : UInt8 → Bool) : List UInt8 → Option (List UInt8)
  | [] => some []
  | b :: s =>
    if b = percent then
      match s with
      | h :: l :: s =>
        if isHex h && isHex l && esc (escaped h l) then (unescape raw esc s).map (escaped h l :: ·) else none
      | _ => none
    else if raw b then (unescape raw esc s).map (b :: ·)
    else none

def anyByte (_ : UInt8) : Bool := true

def unescapePath (s : List UInt8) : Option (List UInt8) := unescape anyByte anyByte s

/-- An ASCII byte `shouldEscape` leaves in a host. -/
def isHostByte (b : UInt8) : Bool := isLetter b || isDigit b || (lit "!$&'()*+,;=:[]<>\"-_.~").contains b

def hostByte (b : UInt8) : Bool := 0x80 ≤ b || isHostByte b

/-- Only what is not ASCII is escaped in a host, and the sign of the escapes. -/
def hostEscape (b : UInt8) : Bool := 0x80 ≤ b || b == percent

def zoneEscape (b : UInt8) : Bool := b == percent || b == 0x20 || isHostByte b

def unescapeHost (s : List UInt8) : Option (List UInt8) := unescape hostByte hostEscape s

def unescapeZone (s : List UInt8) : Option (List UInt8) := unescape hostByte zoneEscape s

/-! ## The authority -/

def validOptionalPort : List UInt8 → Bool
  | [] => true
  | b :: port => b == colon && port.all isDigit

/-- What is between brackets: the zone begins at the first `%25`. -/
def unescapeHostname (s : List UInt8) : Option (List UInt8) :=
  match beforeFirst (lit "%25") s with
  | none => unescapeHost s
  | some host => (unescapeHost host).bind fun h => (unescapeZone (s.drop host.length)).map fun zone => h ++ zone

variable (ipLiteral : List UInt8 → Bool)

def parseHost (host : List UInt8) : Option (List UInt8) :=
  match cutLast openBracket host with
  | some (_, literal) =>
    -- a bracket that closes before the last that opens leaves no valid port
    match cutLast closeBracket literal with
    | none => none
    | some (hostname, colonPort) =>
      if validOptionalPort colonPort then
        (unescapeHost colonPort).bind fun port => (unescapeHostname hostname).bind fun hostname =>
          if ipLiteral hostname then some (openBracket :: (hostname ++ closeBracket :: port)) else none
      else none
  | none =>
    match cutLast colon host with
    | some (_, port) => if validOptionalPort (colon :: port) then unescapeHost host else none
    | none => unescapeHost host

def validUserinfo (s : List UInt8) : Bool :=
  s.all fun b => isLetter b || isDigit b || (lit "-._:~!$&'()*+,;=%@").contains b

/-- The host of `parseAuthority`; an escape of the user does not go beyond the colon before the password. -/
def parseAuthority (authority : List UInt8) : Option (List UInt8) :=
  match cutLast atSign authority with
  | none => parseHost ipLiteral authority
  | some (userinfo, host) =>
    (parseHost ipLiteral host).bind fun host =>
      if validUserinfo userinfo && (unescapePath userinfo).isSome then some host else none

/-! ## URLs -/

structure URL where
  scheme : List UInt8
  host : List UInt8
  path : List UInt8
deriving DecidableEq

def isSchemeByte (b : UInt8) : Bool := isLetter b || isDigit b || (lit "+-.").contains b

def lowerByte (b : UInt8) : UInt8 := if 0x41 ≤ b && b ≤ 0x5A then b + 0x20 else b

/-- The scheme and what is after it; no URL begins with a colon. -/
def getScheme (rawURL : List UInt8) : Option (List UInt8 × List UInt8) :=
  match rawURL.dropWhile isSchemeByte with
  | [] => some ([], rawURL)
  | b :: path =>
    if b = colon then
      match rawURL.takeWhile isSchemeByte with
      | [] => none
      | c :: scheme => if isLetter c then some (c :: scheme, path) else some ([], rawURL)
    else some ([], rawURL)

def firstSegment (s : List UInt8) : List UInt8 := s.takeWhile (· != slash)

/-- A URL after its scheme, without a query. -/
def parseRest (scheme rest : List UInt8) : Option URL :=
  if isRooted rest = false then
    if scheme ≠ [] then some ⟨scheme, [], []⟩
    else if colon ∈ firstSegment rest then none
    else (unescapePath rest).map fun path => ⟨scheme, [], path⟩
  else if (scheme ≠ [] ∨ ¬ lit "///" <+: rest) ∧ lit "//" <+: rest then
    (parseAuthority ipLiteral ((rest.drop 2).takeWhile (· != slash))).bind fun host =>
      (unescapePath ((rest.drop 2).dropWhile (· != slash))).map fun path => ⟨scheme, host, path⟩
  else (unescapePath rest).map fun path => ⟨scheme, [], path⟩

def parseReference (rawURL : List UInt8) : Option URL :=
  if rawURL.any isCTL then none
  else if rawURL = lit "*" then some ⟨[], [], lit "*"⟩
  else (getScheme rawURL).bind fun x => parseRest ipLiteral (x.1.map lowerByte) (x.2.takeWhile (· != question))

/-- `url.Parse`. -/
def parse (rawURL : List UInt8) : Option URL :=
  (parseReference ipLiteral (rawURL.takeWhile (· != hash))).bind fun url =>
    (unescapePath ((rawURL.dropWhile (· != hash)).drop 1)).map fun _ => url

/-! ## Escapes -/

section Escapes

variable {raw esc : UInt8 → Bool}

/-- What `unescape` does of a text that is not empty. -/
theorem of_unescape_cons {b : UInt8} {s t : List UInt8} (h : unescape raw esc (b :: s) = some t) :
    (b ≠ percent ∧ raw b = true ∧ ∃ t', unescape raw esc s = some t' ∧ t = b :: t') ∨
      (b = percent ∧ ∃ x y s' t', s = x :: y :: s' ∧ isHex x = true ∧ isHex y = true ∧ esc (escaped x y) = true ∧
        unescape raw esc s' = some t' ∧ t = escaped x y :: t') := by
  unfold unescape at h
  by_cases hb : b = percent
  · rw [if_pos hb] at h
    match s, h with
    | x :: y :: s', h =>
      dsimp only at h
      by_cases hxy : (isHex x && isHex y && esc (escaped x y)) = true
      · rw [if_pos hxy] at h
        simp only [Bool.and_eq_true] at hxy
        obtain ⟨t', ht', rfl⟩ := Option.map_eq_some_iff.1 h
        exact .inr ⟨hb, x, y, s', t', rfl, hxy.1.1, hxy.1.2, hxy.2, ht', rfl⟩
      · rw [if_neg hxy] at h
        cases h
  · rw [if_neg hb] at h
    by_cases hr : raw b = true
    · rw [if_pos hr] at h
      obtain ⟨t', ht', rfl⟩ := Option.map_eq_some_iff.1 h
      exact .inl ⟨hb, hr, t', ht', rfl⟩
    · rw [if_neg hr] at h
      cases h

theorem unescape_cons_raw {b : UInt8} (hb : b ≠ percent) (hr : raw b = true) (s : List UInt8) :
    unescape raw esc (b :: s) = (unescape raw esc s).map (b :: ·) := by
  conv_lhs => unfold unescape
  rw [if_neg hb, if_pos hr]

theorem unescape_cons_escape {x y : UInt8} (h : (isHex x && isHex y && esc (escaped x y)) = true) (s : List UInt8) :
    unescape raw esc (percent :: x :: y :: s) = (unescape raw esc s).map (escaped x y :: ·) := by
  rw [unescape, if_pos rfl, if_pos h]

/-- A text without escapes is left as it is. -/
theorem unescape_of_raw : ∀ {s : List UInt8}, (∀ b ∈ s, b ≠ percent ∧ raw b = true) → unescape raw esc s = some s
  | [], _ => rfl
  | b :: s, h => by
    obtain ⟨hb, hr⟩ := h b List.mem_cons_self
    rw [unescape_cons_raw hb hr, unescape_of_raw fun x hx => h x (List.mem_cons_of_mem _ hx), Option.map_some]

/-- An escape makes a text shorter. -/
theorem unescape_length : ∀ {s t : List UInt8}, unescape raw esc s = some t →
    t.length ≤ s.length ∧ (percent ∈ s → t.length < s.length)
  | [], t, h => by
    cases h
    exact ⟨Nat.le_refl _, fun hmem => by cases hmem⟩
  | b :: s, t, h => by
    rcases of_unescape_cons h with ⟨hb, -, t', ht', rfl⟩ | ⟨-, x, y, s', t', hs, -, -, -, ht', rfl⟩
    · obtain ⟨hle, hlt⟩ := unescape_length ht'
      refine ⟨Nat.succ_le_succ hle, fun hmem => Nat.succ_lt_succ (hlt ?_)⟩
      exact (List.mem_cons.1 hmem).resolve_left fun he => hb he.symm
    · have hlen : s.length = s'.length + 2 := by rw [hs, List.length_cons, List.length_cons]
      obtain ⟨hle, -⟩ := unescape_length ht'
      simp only [List.length_cons]
      exact ⟨by omega, fun _ => by omega⟩
termination_by s => s.length
decreasing_by all_goals (simp only [List.length_cons]; omega)

theorem mem_unescape : ∀ {s t : List UInt8}, unescape raw esc s = some t → ∀ b ∈ t,
    (b ∈ s ∧ b ≠ percent ∧ raw b = true) ∨ esc b = true
  | [], t, h, b, hmem => by
    cases h
    cases hmem
  | a :: s, t, h, b, hmem => by
    rcases of_unescape_cons h with ⟨ha, hr, t', ht', rfl⟩ | ⟨-, x, y, s', t', hs, -, -, hesc, ht', rfl⟩
    · rcases List.mem_cons.1 hmem with rfl | hmem
      · exact .inl ⟨List.mem_cons_self, ha, hr⟩
      · exact (mem_unescape ht' b hmem).imp_left fun hb => ⟨List.mem_cons_of_mem _ hb.1, hb.2⟩
    · rcases List.mem_cons.1 hmem with rfl | hmem
      · exact .inr hesc
      · have hlen : s.length = s'.length + 2 := by rw [hs, List.length_cons, List.length_cons]
        refine (mem_unescape ht' b hmem).imp_left fun hb => ⟨?_, hb.2⟩
        rw [hs]
        exact List.mem_cons_of_mem _ (List.mem_cons_of_mem _ (List.mem_cons_of_mem _ hb.1))
termination_by s => s.length
decreasing_by all_goals (simp only [List.length_cons]; omega)

/-- A byte that is no digit of an escape parts a text. -/
theorem of_unescape_append_cons {c : UInt8} (hc : c ≠ percent) (hhex : isHex c = false) : ∀ {a b t : List UInt8},
    unescape raw esc (a ++ c :: b) = some t →
      ∃ ta tb, unescape raw esc a = some ta ∧ unescape raw esc b = some tb ∧ t = ta ++ c :: tb
  | [], b, t, h => by
    rcases of_unescape_cons h with ⟨-, -, t', ht', rfl⟩ | ⟨he, -⟩
    · exact ⟨[], t', rfl, ht', rfl⟩
    · exact absurd he hc
  | x :: a, b, t, h => by
    rcases of_unescape_cons h with ⟨hx, hr, t', ht', rfl⟩ | ⟨rfl, y, z, s', t', hs, hy, hz, hesc, ht', rfl⟩
    · obtain ⟨ta, tb, hta, htb, rfl⟩ := of_unescape_append_cons hc hhex ht'
      exact ⟨x :: ta, tb, by rw [unescape_cons_raw hx hr, hta, Option.map_some], htb, rfl⟩
    · match ha : a, hs with
      | [], hs =>
        obtain ⟨rfl, -⟩ := List.cons.inj hs
        rw [hhex] at hy
        cases hy
      | [_], hs =>
        obtain ⟨-, hs'⟩ := List.cons.inj hs
        obtain ⟨rfl, -⟩ := List.cons.inj hs'
        rw [hhex] at hz
        cases hz
      | y' :: z' :: a', hs =>
        have hlen : a.length = a'.length + 2 := by rw [ha, List.length_cons, List.length_cons]
        obtain ⟨hy', hs'⟩ := List.cons.inj hs
        obtain ⟨hz', hrest⟩ := List.cons.inj hs'
        subst hy' hz'
        rw [← hrest] at ht'
        obtain ⟨ta, tb, hta, htb, rfl⟩ := of_unescape_append_cons hc hhex ht'
        refine ⟨escaped y' z' :: ta, tb, ?_, htb, rfl⟩
        rw [unescape_cons_escape (by simp [hy, hz, hesc]), hta, Option.map_some]
termination_by a => a.length
decreasing_by all_goals (simp only [List.length_cons]; omega)

end Escapes

/-! ## Hosts -/

/-- The bytes of a host that was parsed. -/
def isParsed (b : UInt8) : Bool := hostByte b || b == percent || b == 0x20

theorem isParsed_bytes : ∀ b, isParsed b = true → b ≠ slash ∧ b ≠ atSign ∧ b ≠ question ∧ b ≠ hash ∧ isCTL b = false :=
  GoBytes.forall_byte (by decide +kernel)

theorem isParsed_of_escape : ∀ b, (hostEscape b = true → isParsed b = true) ∧ (zoneEscape b = true → isParsed b = true) :=
  GoBytes.forall_byte (by decide +kernel)

theorem isParsed_of_hostByte {b : UInt8} (h : hostByte b = true) : isParsed b = true := by
  unfold isParsed
  rw [h]
  rfl

theorem port_bytes {port : List UInt8} (h : validOptionalPort port = true) :
    (∀ b ∈ port, b ≠ percent ∧ hostByte b = true ∧ b ≠ openBracket ∧ b ≠ closeBracket) ∧ unescapeHost port = some port := by
  have hdigit : ∀ b, isDigit b = true → b ≠ percent ∧ hostByte b = true ∧ b ≠ openBracket ∧ b ≠ closeBracket :=
    GoBytes.forall_byte (by decide +kernel)
  have hall : ∀ b ∈ port, b ≠ percent ∧ hostByte b = true ∧ b ≠ openBracket ∧ b ≠ closeBracket := by
    cases port with
    | nil => exact fun b hb => by cases hb
    | cons c port =>
      simp only [validOptionalPort, Bool.and_eq_true, beq_iff_eq, List.all_eq_true] at h
      intro b hb
      rcases List.mem_cons.1 hb with rfl | hb
      · rw [h.1]
        decide
      · exact hdigit b (h.2 b hb)
  exact ⟨hall, unescape_of_raw fun b hb => ⟨(hall b hb).1, (hall b hb).2.1⟩⟩

theorem unescapeHost_bytes {s t : List UInt8} (h : unescapeHost s = some t) : ∀ b ∈ t, isParsed b = true := by
  intro b hb
  rcases mem_unescape h b hb with ⟨-, -, hr⟩ | hesc
  · exact isParsed_of_hostByte hr
  · exact (isParsed_of_escape b).1 hesc

/-- What is unescaped of an ASCII byte but the sign of the escapes is that byte. -/
theorem mem_of_unescapeHost {s t : List UInt8} {c : UInt8} (hc : hostEscape c = false) (h : unescapeHost s = some t) (hmem : c ∈ t) :
    c ∈ s := by
  rcases mem_unescape h c hmem with ⟨hs, -⟩ | hesc
  · exact hs
  · rw [hc] at hesc
    cases hesc

theorem unescapeHost_self {s t : List UInt8} (h : unescapeHost s = some t) (hp : percent ∉ t) : unescapeHost t = some t := by
  have hbyte : ∀ b, hostEscape b = true → hostByte b = true ∨ b = percent := GoBytes.forall_byte (by decide +kernel)
  refine unescape_of_raw fun b hb => ⟨fun he => hp (he ▸ hb), ?_⟩
  rcases mem_unescape h b hb with ⟨-, -, hr⟩ | hesc
  · exact hr
  · exact (hbyte b hesc).resolve_right fun he => hp (he ▸ hb)

/-- What stands between brackets: a host alone, or with a zone, and then the sign of the escapes is in it. -/
theorem unescapeHostname_cases {s t : List UInt8} (h : unescapeHostname s = some t) :
    unescapeHost s = some t ∨ ∃ x y tx ty, s = x ++ y ∧ percent ∈ y ∧ unescapeHost x = some tx ∧ unescapeZone y = some ty ∧
      t = tx ++ ty ∧ percent ∈ t := by
  unfold unescapeHostname at h
  cases hzone : beforeFirst (lit "%25") s with
  | none =>
    rw [hzone] at h
    exact .inl h
  | some x =>
    rw [hzone] at h
    obtain ⟨tx, htx, h⟩ := Option.bind_eq_some_iff.1 h
    obtain ⟨ty, hty, rfl⟩ := Option.map_eq_some_iff.1 h
    obtain ⟨rest, rfl⟩ := GoBytes.of_beforeFirst hzone
    rw [List.drop_left] at hty
    have hpercent : percent ∈ ty := by
      rcases of_unescape_cons hty with ⟨hb, -⟩ | ⟨-, a, b, s', t', hs, -, -, -, -, rfl⟩
      · exact absurd rfl hb
      · obtain ⟨ha, hs'⟩ := List.cons.inj hs
        obtain ⟨hb, -⟩ := List.cons.inj hs'
        rw [← ha, ← hb]
        exact List.mem_cons_self
    exact .inr ⟨x, _, tx, ty, rfl, List.mem_cons_self, htx, hty, rfl, List.mem_append_right tx hpercent⟩

theorem unescapeHostname_bytes {s t : List UInt8} (h : unescapeHostname s = some t) : ∀ b ∈ t, isParsed b = true := by
  rcases unescapeHostname_cases h with h | ⟨x, y, tx, ty, -, -, htx, hty, rfl, -⟩
  · exact unescapeHost_bytes h
  · intro b hb
    rcases List.mem_append.1 hb with hb | hb
    · exact unescapeHost_bytes htx b hb
    · rcases mem_unescape hty b hb with ⟨-, -, hr⟩ | hesc
      · exact isParsed_of_hostByte hr
      · exact (isParsed_of_escape b).2 hesc

theorem unescapeHostname_length {s t : List UInt8} (h : unescapeHostname s = some t) :
    t.length ≤ s.length ∧ (percent ∈ s → t.length < s.length) := by
  rcases unescapeHostname_cases h with h | ⟨x, y, tx, ty, rfl, hy, htx, hty, rfl, -⟩
  · exact unescape_length h
  · obtain ⟨hx, -⟩ := unescape_length htx
    obtain ⟨-, hlt⟩ := unescape_length hty
    have hlen := hlt hy
    rw [List.length_append, List.length_append]
    exact ⟨by omega, fun _ => by omega⟩

variable {ipLiteral}

/-- What `parseHost` reads: a literal in brackets, or a name. -/
theorem of_parseHost {host h : List UInt8} (hh : parseHost ipLiteral host = some h) :
    (∃ pre hostname port t, host = pre ++ openBracket :: (hostname ++ closeBracket :: port) ∧ openBracket ∉ hostname ∧
        validOptionalPort port = true ∧ unescapeHostname hostname = some t ∧ ipLiteral t = true ∧
        h = openBracket :: (t ++ closeBracket :: port)) ∨
      (openBracket ∉ host ∧ unescapeHost host = some h ∧
        (colon ∉ host ∨ ∃ x port, host = x ++ colon :: port ∧ colon ∉ port ∧ validOptionalPort (colon :: port) = true)) := by
  unfold parseHost at hh
  rcases GoBytes.cutLast_cases openBracket host with ⟨hno, hcut⟩ | ⟨pre, literal, rfl, hopen, hcut⟩
  · right
    rw [hcut] at hh
    dsimp only at hh
    rcases GoBytes.cutLast_cases colon host with ⟨hcolon, hcut⟩ | ⟨x, port, rfl, hcolon, hcut⟩
    · rw [hcut] at hh
      exact ⟨hno, hh, .inl hcolon⟩
    · rw [hcut] at hh
      dsimp only at hh
      by_cases hport : validOptionalPort (colon :: port) = true
      · rw [if_pos hport] at hh
        exact ⟨hno, hh, .inr ⟨x, port, rfl, hcolon, hport⟩⟩
      · rw [if_neg hport] at hh
        cases hh
  · left
    rw [hcut] at hh
    dsimp only at hh
    rcases GoBytes.cutLast_cases closeBracket literal with ⟨-, hcut⟩ | ⟨hostname, port, rfl, -, hcut⟩
    · rw [hcut] at hh
      cases hh
    · rw [hcut] at hh
      dsimp only at hh
      by_cases hport : validOptionalPort port = true
      · rw [if_pos hport, (port_bytes hport).2, Option.bind_some] at hh
        obtain ⟨t, ht, hh⟩ := Option.bind_eq_some_iff.1 hh
        by_cases hip : ipLiteral t = true
        · rw [if_pos hip] at hh
          cases hh
          exact ⟨pre, hostname, port, t, rfl, fun hmem => hopen (List.mem_append_left _ hmem), hport, ht, hip, rfl⟩
        · rw [if_neg hip] at hh
          cases hh
      · rw [if_neg hport] at hh
        cases hh

theorem parseHost_bytes {host h : List UInt8} (hh : parseHost ipLiteral host = some h) : ∀ b ∈ h, isParsed b = true := by
  rcases of_parseHost hh with ⟨pre, hostname, port, t, -, -, hport, ht, -, rfl⟩ | ⟨-, ht, -⟩
  · intro b hb
    rcases List.mem_cons.1 hb with rfl | hb
    · decide
    · rcases List.mem_append.1 hb with hb | hb
      · exact unescapeHostname_bytes ht b hb
      · rcases List.mem_cons.1 hb with rfl | hb
        · decide
        · exact isParsed_of_hostByte ((port_bytes hport).1 b hb).2.1
  · exact unescapeHost_bytes ht

theorem parseHost_length {host h : List UInt8} (hh : parseHost ipLiteral host = some h) (hp : percent ∈ host) :
    h.length < host.length := by
  rcases of_parseHost hh with ⟨pre, hostname, port, t, rfl, -, hport, ht, -, rfl⟩ | ⟨-, ht, -⟩
  · obtain ⟨hle, hlt⟩ := unescapeHostname_length ht
    simp only [List.length_append, List.length_cons]
    rcases List.mem_append.1 hp with hp | hp
    · have hpre := List.length_pos_of_mem hp
      omega
    · rcases List.mem_cons.1 hp with hp | hp
      · exact absurd hp (by decide)
      · rcases List.mem_append.1 hp with hp | hp
        · have := hlt hp
          omega
        · rcases List.mem_cons.1 hp with hp | hp
          · exact absurd hp (by decide)
          · exact absurd rfl ((port_bytes hport).1 percent hp).1
  · exact (unescape_length ht).2 hp

/-- A host that was parsed is parsed to itself, unless the sign of the escapes is in it. -/
theorem parseHost_self {host h : List UInt8} (hh : parseHost ipLiteral host = some h) (hp : percent ∉ h) :
    parseHost ipLiteral h = some h := by
  rcases of_parseHost hh with ⟨pre, hostname, port, t, rfl, hopen, hport, ht, hip, rfl⟩ | ⟨hopen, ht, hcolon⟩
  · have hpt : percent ∉ t := fun hmem => hp (List.mem_cons_of_mem _ (List.mem_append_left _ hmem))
    have ht' : unescapeHost hostname = some t := by
      rcases unescapeHostname_cases ht with ht | ⟨-, -, -, -, -, -, -, -, -, hmem⟩
      · exact ht
      · exact absurd hmem hpt
    obtain ⟨hbytes, hportself⟩ := port_bytes hport
    have hopen' : openBracket ∉ t ++ closeBracket :: port := by
      intro hmem
      rcases List.mem_append.1 hmem with hmem | hmem
      · exact hopen (mem_of_unescapeHost (by decide) ht' hmem)
      · rcases List.mem_cons.1 hmem with hmem | hmem
        · exact absurd hmem (by decide)
        · exact (hbytes _ hmem).2.2.1 rfl
    have hzone : beforeFirst (lit "%25") t = none := by
      cases hz : beforeFirst (lit "%25") t with
      | none => rfl
      | some x =>
        obtain ⟨rest, rfl⟩ := GoBytes.of_beforeFirst hz
        exact absurd (List.mem_append_right _ List.mem_cons_self) hpt
    have hself : unescapeHostname t = some t := by
      rw [unescapeHostname, hzone]
      exact unescapeHost_self ht' hpt
    have hcutOpen : cutLast openBracket (openBracket :: (t ++ closeBracket :: port)) = some ([], t ++ closeBracket :: port) :=
      GoBytes.cutLast_append hopen' []
    have hcutClose : cutLast closeBracket (t ++ closeBracket :: port) = some (t, port) :=
      GoBytes.cutLast_append (fun hmem => (hbytes _ hmem).2.2.2 rfl) t
    rw [parseHost, hcutOpen]
    dsimp only
    rw [hcutClose]
    dsimp only
    rw [if_pos hport, hportself, Option.bind_some, hself, Option.bind_some, if_pos hip]
  · have hself := unescapeHost_self ht hp
    have hopen' : openBracket ∉ h := fun hmem => hopen (mem_of_unescapeHost (by decide) ht hmem)
    rw [parseHost, GoBytes.cutLast_of_notMem hopen']
    dsimp only
    rcases hcolon with hcolon | ⟨x, port, rfl, hcolon, hport⟩
    · have hcolon' : colon ∉ h := fun hmem => hcolon (mem_of_unescapeHost (by decide) ht hmem)
      rw [GoBytes.cutLast_of_notMem hcolon']
      exact hself
    · obtain ⟨tx, tport, -, htport, rfl⟩ := of_unescape_append_cons (by decide) (by decide) ht
      have hportself : unescapeHost port = some port := by
        refine unescape_of_raw fun b hb => ?_
        have hb' := (port_bytes hport).1 b (List.mem_cons_of_mem _ hb)
        exact ⟨hb'.1, hb'.2.1⟩
      have heq : tport = port := Option.some.inj (htport.symm.trans hportself)
      subst heq
      rw [GoBytes.cutLast_append hcolon tx]
      dsimp only
      rw [if_pos hport]
      exact hself

/-! ## Parsing -/

/-- A scheme as it is kept. -/
structure IsScheme (s : List UInt8) : Prop where
  letter : ∃ c rest, s = c :: rest ∧ isLetter c = true
  bytes : ∀ b ∈ s, isSchemeByte b = true
  lower : s.map lowerByte = s

theorem schemeByte_facts : ∀ b, isSchemeByte b = true → b ≠ colon ∧ b ≠ slash ∧ b ≠ question ∧ b ≠ hash ∧ isCTL b = false ∧
    isSchemeByte (lowerByte b) = true ∧ lowerByte (lowerByte b) = lowerByte b :=
  GoBytes.forall_byte (by decide +kernel)

theorem isLetter_lowerByte : ∀ b, isLetter b = true → isLetter (lowerByte b) = true := GoBytes.forall_byte (by decide +kernel)

theorem getScheme_of_scheme {s : List UInt8} (hs : IsScheme s) (rest : List UInt8) :
    getScheme (s ++ colon :: rest) = some (s, rest) := by
  obtain ⟨c, s', rfl, hc⟩ := hs.letter
  have hdrop : (c :: s' ++ colon :: rest).dropWhile isSchemeByte = colon :: rest := by
    rw [List.dropWhile_append_of_pos hs.bytes, List.dropWhile_cons_of_neg (by decide)]
  have htake : (c :: s' ++ colon :: rest).takeWhile isSchemeByte = c :: s' := by
    rw [List.takeWhile_append_of_pos hs.bytes, List.takeWhile_cons_of_neg (by decide), List.append_nil]
  rw [getScheme, hdrop]
  dsimp only
  rw [if_pos rfl, htake]
  exact if_pos hc

/-- What `getScheme` finds: a scheme before the first colon, or none. -/
theorem of_getScheme {t : List UInt8} {x : List UInt8 × List UInt8} (h : getScheme t = some x) :
    x = ([], t) ∨ ((∃ c rest, x.1 = c :: rest ∧ isLetter c = true) ∧ ∀ b ∈ x.1, isSchemeByte b = true) := by
  unfold getScheme at h
  cases hd : t.dropWhile isSchemeByte with
  | nil =>
    rw [hd] at h
    cases h
    exact .inl rfl
  | cons b path =>
    rw [hd] at h
    dsimp only at h
    by_cases hb : b = colon
    · rw [if_pos hb] at h
      cases ht : t.takeWhile isSchemeByte with
      | nil =>
        rw [ht] at h
        cases h
      | cons c scheme =>
        rw [ht] at h
        dsimp only at h
        by_cases hc : isLetter c = true
        · rw [if_pos hc] at h
          cases h
          refine .inr ⟨⟨c, scheme, rfl, hc⟩, fun b hmem => ?_⟩
          exact (List.mem_takeWhile_imp (ht ▸ hmem : b ∈ t.takeWhile isSchemeByte))
        · rw [if_neg hc] at h
          cases h
          exact .inl rfl
    · rw [if_neg hb] at h
      cases h
      exact .inl rfl

theorem getScheme_of_firstSegment {t : List UInt8} (h : colon ∉ firstSegment t) : getScheme t = some ([], t) := by
  unfold getScheme
  cases hd : t.dropWhile isSchemeByte with
  | nil => rfl
  | cons b path =>
    dsimp only
    by_cases hb : b = colon
    · refine absurd ?_ h
      have ht : t.takeWhile isSchemeByte ++ colon :: path = t := by rw [← hb, ← hd, List.takeWhile_append_dropWhile]
      have hall : ∀ x ∈ t.takeWhile isSchemeByte ++ [colon], (x != slash) = true := by
        intro x hx
        rcases List.mem_append.1 hx with hx | hx
        · exact bne_iff_ne.2 (schemeByte_facts x (List.mem_takeWhile_imp hx)).2.1
        · rw [List.mem_singleton.1 hx]
          decide
      have hassoc : t = t.takeWhile isSchemeByte ++ [colon] ++ path := by rw [List.append_assoc, List.singleton_append, ht]
      rw [firstSegment, hassoc, List.takeWhile_append_of_pos hall]
      exact List.mem_append_left _ (List.mem_append_right _ List.mem_cons_self)
    · rw [if_neg hb]

theorem getScheme_colon (l : List UInt8) : getScheme (colon :: l) = none := by
  rw [getScheme, List.dropWhile_cons_of_neg (by decide), List.takeWhile_cons_of_neg (by decide)]
  exact if_pos rfl

theorem parse_of_hash_notMem {t : List UInt8} (h : hash ∉ t) : parse ipLiteral t = parseReference ipLiteral t := by
  obtain ⟨htake, hdrop⟩ := GoBytes.takeWhile_ne_of_notMem h
  rw [parse, htake, hdrop]
  cases parseReference ipLiteral t <;> rfl

theorem parse_colon (l : List UInt8) : parse ipLiteral (colon :: l) = none := by
  have hfront : (colon :: l).takeWhile (· != hash) = colon :: l.takeWhile (· != hash) :=
    List.takeWhile_cons_of_pos (by decide)
  rw [parse, hfront, parseReference, getScheme_colon]
  split
  · rfl
  · rw [if_neg]
    · rfl
    · intro he
      exact absurd (List.cons.inj he).1 (by decide)

/-- **A path without a host** is read where it stands. -/
theorem parse_plain {t : List UInt8} (hctl : ∀ b ∈ t, isCTL b = false) (hf : hash ∉ t) (hq : question ∉ t)
    (hseg : colon ∉ firstSegment t) (hslash : ¬ lit "//" <+: t) :
    parse ipLiteral t = (unescapePath t).map fun path => ⟨[], [], path⟩ := by
  have hany : t.any isCTL = false := List.any_eq_false.2 fun b hb => by simp [hctl b hb]
  rw [parse_of_hash_notMem hf, parseReference, hany, if_neg Bool.false_ne_true]
  by_cases hstar : t = lit "*"
  · rw [if_pos hstar, hstar]
    decide
  · rw [if_neg hstar, getScheme_of_firstSegment hseg, Option.bind_some, (GoBytes.takeWhile_ne_of_notMem hq).1]
    unfold parseRest
    by_cases hr : isRooted t = false
    · rw [if_pos hr, List.map_nil, if_neg (not_not_intro rfl), if_neg hseg]
    · rw [if_neg hr, if_neg fun h => hslash h.2]
      rfl

/-- **A path after a host**. -/
theorem parse_absolute {s host w : List UInt8} (hs : IsScheme s) (hctl : ∀ b ∈ host ++ w, isCTL b = false)
    (hf : hash ∉ host ++ w) (hq : question ∉ host ++ w) (hat : atSign ∉ host) (hslash : slash ∉ host) (hw : isRooted w = true) :
    parse ipLiteral (s ++ (lit "://" ++ (host ++ w))) =
      (parseHost ipLiteral host).bind fun h => (unescapePath w).map fun path => ⟨s, h, path⟩ := by
  have hlit : lit "://" = colon :: slash :: slash :: [] := by decide
  have hbytes : ∀ b ∈ s ++ (lit "://" ++ (host ++ w)), b ≠ hash ∧ isCTL b = false := by
    intro b hb
    rcases List.mem_append.1 hb with hb | hb
    · obtain ⟨-, -, -, hh, hc, -⟩ := schemeByte_facts b (hs.bytes b hb)
      exact ⟨hh, hc⟩
    · rcases List.mem_append.1 hb with hb | hb
      · exact (by decide +kernel : ∀ b ∈ lit "://", b ≠ hash ∧ isCTL b = false) b hb
      · exact ⟨fun he => hf (he ▸ hb), hctl b hb⟩
  have hany : (s ++ (lit "://" ++ (host ++ w))).any isCTL = false := List.any_eq_false.2 fun b hb => by simp [(hbytes b hb).2]
  have hstar : s ++ (lit "://" ++ (host ++ w)) ≠ lit "*" := by
    obtain ⟨c, rest, rfl, hc⟩ := hs.letter
    intro he
    have hhead := (List.cons.inj he).1
    rw [hhead] at hc
    exact absurd hc (by decide)
  have hrest : question ∉ slash :: slash :: (host ++ w) := by
    simp only [List.mem_cons, not_or]
    exact ⟨by decide, by decide, hq⟩
  obtain ⟨w', rfl⟩ := GoPath.isRooted_iff.1 hw
  obtain ⟨htake, hdrop⟩ := GoBytes.takeWhile_ne_append hslash w'
  rw [parse_of_hash_notMem fun h => (hbytes hash h).1 rfl, parseReference, hany, if_neg Bool.false_ne_true, if_neg hstar, hlit]
  simp only [List.cons_append, List.nil_append]
  rw [getScheme_of_scheme hs, Option.bind_some]
  dsimp only
  rw [hs.lower, (GoBytes.takeWhile_ne_of_notMem hrest).1]
  have hne : s ≠ [] := by
    obtain ⟨c, rest, rfl, -⟩ := hs.letter
    exact List.cons_ne_nil c rest
  have hpre : lit "//" <+: slash :: slash :: (host ++ slash :: w') := ⟨host ++ slash :: w', rfl⟩
  have hroot : ¬ isRooted (slash :: slash :: (host ++ slash :: w')) = false := by simp [isRooted]
  rw [parseRest, if_neg hroot, if_pos ⟨.inl hne, hpre⟩]
  simp only [List.drop_succ_cons, List.drop_zero]
  rw [htake, hdrop, parseAuthority, GoBytes.cutLast_of_notMem hat]

theorem isRooted_unescape {l p : List UInt8} (hl : isRooted l = true) (hp : unescapePath l = some p) : isRooted p = true := by
  obtain ⟨l, rfl⟩ := GoPath.isRooted_iff.1 hl
  rcases of_unescape_cons hp with ⟨-, -, t', -, rfl⟩ | ⟨he, -⟩
  · exact GoPath.isRooted_iff.2 ⟨t', rfl⟩
  · exact absurd he (by decide)

/-- What `parseRest` reads: a path as it stands, or one that is empty or begins with a slash. -/
theorem of_parseRest {s r : List UInt8} {url : URL} (h : parseRest ipLiteral s r = some url) :
    url.scheme = s ∧ (url.host = [] ∨ ∃ host, parseHost ipLiteral host = some url.host) ∧
      ((url.path = [] ∨ isRooted url.path = true) ∨
        (s = [] ∧ url.host = [] ∧ colon ∉ firstSegment r ∧ unescapePath r = some url.path)) := by
  unfold parseRest at h
  by_cases hr : isRooted r = false
  · rw [if_pos hr] at h
    by_cases hs : s = []
    · rw [if_neg (not_not_intro hs)] at h
      by_cases hseg : colon ∈ firstSegment r
      · rw [if_pos hseg] at h
        cases h
      · rw [if_neg hseg] at h
        obtain ⟨path, hpath, rfl⟩ := Option.map_eq_some_iff.1 h
        exact ⟨rfl, .inl rfl, .inr ⟨hs, rfl, hseg, hpath⟩⟩
    · rw [if_pos hs] at h
      cases h
      exact ⟨rfl, .inl rfl, .inl (.inl rfl)⟩
  · rw [if_neg hr] at h
    split at h
    · obtain ⟨host, hhost, h⟩ := Option.bind_eq_some_iff.1 h
      obtain ⟨path, hpath, rfl⟩ := Option.map_eq_some_iff.1 h
      refine ⟨rfl, .inr ?_, .inl ?_⟩
      · unfold parseAuthority at hhost
        rcases GoBytes.cutLast_cases atSign ((r.drop 2).takeWhile (· != slash)) with ⟨-, hcut⟩ | ⟨x, y, -, -, hcut⟩
        · rw [hcut] at hhost
          exact ⟨_, hhost⟩
        · rw [hcut] at hhost
          obtain ⟨host', hhost', hhost⟩ := Option.bind_eq_some_iff.1 hhost
          split at hhost
          · cases hhost
            exact ⟨_, hhost'⟩
          · cases hhost
      · cases hd : (r.drop 2).dropWhile (· != slash) with
        | nil =>
          rw [hd] at hpath
          cases hpath
          exact .inl rfl
        | cons b rest =>
          have hb := List.head?_dropWhile_not (· != slash) (r.drop 2)
          rw [hd] at hb hpath
          have hslash : b = slash := by simpa using hb
          exact .inr (isRooted_unescape (GoPath.isRooted_iff.2 ⟨rest, by rw [hslash]⟩) hpath)
    · obtain ⟨path, hpath, rfl⟩ := Option.map_eq_some_iff.1 h
      exact ⟨rfl, .inl rfl, .inl (.inr (isRooted_unescape (by simpa using hr) hpath))⟩

theorem of_parseReference {t : List UInt8} {url : URL} (h : parseReference ipLiteral t = some url) :
    (∀ b ∈ t, isCTL b = false) ∧ (t = lit "*" ∧ url = ⟨[], [], lit "*"⟩ ∨
      ∃ x, getScheme t = some x ∧ parseRest ipLiteral (x.1.map lowerByte) (x.2.takeWhile (· != question)) = some url) := by
  unfold parseReference at h
  by_cases hctl : t.any isCTL = true
  · rw [if_pos hctl] at h
    cases h
  · rw [if_neg hctl] at h
    refine ⟨fun b hb => ?_, ?_⟩
    · have hall := List.any_eq_false.1 (Bool.not_eq_true _ ▸ hctl) b hb
      simpa using hall
    · by_cases hstar : t = lit "*"
      · rw [if_pos hstar] at h
        cases h
        exact .inl ⟨hstar, rfl⟩
      · rw [if_neg hstar] at h
        obtain ⟨x, hx, h⟩ := Option.bind_eq_some_iff.1 h
        exact .inr ⟨x, hx, h⟩

/-- What `parse` gives of any text. -/
theorem of_parse {t : List UInt8} {url : URL} (h : parse ipLiteral t = some url) :
    (url.scheme = [] ∨ IsScheme url.scheme) ∧ (url.host = [] ∨ ∃ host, parseHost ipLiteral host = some url.host) ∧
      (url.host ≠ [] → url.path = [] ∨ isRooted url.path = true) := by
  obtain ⟨url', hurl', h⟩ := Option.bind_eq_some_iff.1 h
  obtain ⟨_, -, rfl⟩ := Option.map_eq_some_iff.1 h
  obtain ⟨-, ⟨-, rfl⟩ | ⟨x, hx, hrest⟩⟩ := of_parseReference hurl'
  · exact ⟨.inl rfl, .inl rfl, fun hne => absurd rfl hne⟩
  · obtain ⟨hscheme, hhost, hpath⟩ := of_parseRest hrest
    refine ⟨?_, hhost, fun hne => ?_⟩
    · rw [hscheme]
      rcases of_getScheme hx with rfl | ⟨⟨c, rest, hc, hletter⟩, hbytes⟩
      · exact .inl rfl
      · refine .inr ⟨⟨lowerByte c, rest.map lowerByte, by rw [hc, List.map_cons], isLetter_lowerByte c hletter⟩, ?_, ?_⟩
        · intro b hb
          obtain ⟨a, ha, rfl⟩ := List.mem_map.1 hb
          exact (schemeByte_facts a (hbytes a ha)).2.2.2.2.2.1
        · rw [List.map_map]
          exact List.map_congr_left fun a ha => (schemeByte_facts a (hbytes a ha)).2.2.2.2.2.2
    · rcases hpath with hpath | ⟨-, hnil, -⟩
      · exact hpath
      · exact absurd hnil hne

/-- A text without a query and a fragment: no control byte is in it, and its path is that text, or is empty or begins with a
slash. -/
theorem of_parse_text {t : List UInt8} {url : URL} (hf : hash ∉ t) (hq : question ∉ t) (h : parse ipLiteral t = some url) :
    (∀ b ∈ t, isCTL b = false) ∧ ((url.path = [] ∨ isRooted url.path = true) ∨
      (url.host = [] ∧ colon ∉ firstSegment t ∧ unescapePath t = some url.path)) := by
  rw [parse_of_hash_notMem hf] at h
  obtain ⟨hctl, ⟨rfl, rfl⟩ | ⟨x, hx, hrest⟩⟩ := of_parseReference h
  · exact ⟨hctl, .inr ⟨rfl, by decide, by decide⟩⟩
  · refine ⟨hctl, ?_⟩
    obtain ⟨-, -, hpath | ⟨hs, hhost, hseg, hpath⟩⟩ := of_parseRest hrest
    · exact .inl hpath
    · rcases of_getScheme hx with rfl | ⟨⟨c, rest, hc, -⟩, -⟩
      · rw [(GoBytes.takeWhile_ne_of_notMem hq).1] at hseg hpath
        exact .inr ⟨hhost, hseg, hpath⟩
      · rw [hc] at hs
        cases hs

end GoUrl
