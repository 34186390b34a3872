import Mathlib.Data.List.TakeWhile
import Agregator.GoBase
/-!
# RealIP — whom a request is counted to

The texts of addresses and networks as `net` reads them, and the address the gateway takes for that of the client.  A proxy
appends the address it sees to `X-Forwarded-For`; from a trusted peer the header is read from the right, past what is no
address and past the trusted ones.
-/
namespace Agregator

/-! ## Addresses -/

namespace Net

/-- `netip.Addr`: four bytes, or sixteen with a zone that may be empty. -/
structure Addr where
  bytes : List UInt8
  zone : List Char := []
deriving DecidableEq, Repr

/-- A number of an IPv4 address, without leading zeros. -/
def parseOctet (s : List Char) : Option UInt8 :=
  if s = [] ∨ (1 < s.length ∧ s.head? = some '0') then none
  else
    match digitsVal s with
    | some n => if n ≤ 255 then some (UInt8.ofNat n) else none
    | none => none

def parseIPv4Fields (s : List Char) : Option (List UInt8) :=
  match s.splitOn '.' with
  | [a, b, c, d] => [a, b, c, d].mapM parseOctet
  | _ => none

/-- The value of a hexadecimal digit. -/
def hexVal (c : Char) : Option ℕ :=
  if '0' ≤ c ∧ c ≤ '9' then some (c.toNat - '0'.toNat)
  else if 'a' ≤ c ∧ c ≤ 'f' then some (c.toNat - 'a'.toNat + 10)
  else if 'A' ≤ c ∧ c ≤ 'F' then some (c.toNat - 'A'.toNat + 10)
  else none

/-- The two bytes of hexadecimal digits. -/
def groupBytes (ds : List Char) : List UInt8 :=
  let acc := ds.foldl (fun acc c => acc * 16 + (hexVal c).getD 0) 0
  [UInt8.ofNat (acc / 256), UInt8.ofNat (acc % 256)]

/-- The groups of an IPv6 address from one on, with place for so many: the bytes, the place of the ellipsis, what is left. -/
def parseGroups : ℕ → List UInt8 → Option ℕ → List Char → Option (List UInt8 × Option ℕ × List Char)
  | 0, ip, ellipsis, s => some (ip, ellipsis, s)
  | n + 1, ip, ellipsis, s =>
    let ds := s.takeWhile fun c => (hexVal c).isSome
    if ds.length = 0 ∨ 4 < ds.length then none
    else
      match s.dropWhile fun c => (hexVal c).isSome with
      | '.' :: _ =>
        if ellipsis.isNone ∧ ip.length ≠ 12 then none
        else if 16 < ip.length + 4 then none
        else (parseIPv4Fields s).map fun fields => (ip ++ fields, ellipsis, [])
      | [] => some (ip ++ groupBytes ds, ellipsis, [])
      | [':'] => none
      | ':' :: ':' :: rest =>
        if ellipsis.isSome then none
        else if rest = [] then some (ip ++ groupBytes ds, some (ip.length + 2), [])
        else parseGroups n (ip ++ groupBytes ds) (some (ip.length + 2)) rest
      | ':' :: rest => parseGroups n (ip ++ groupBytes ds) ellipsis rest
      | _ => none

/-- The ellipsis stands for the groups that are missing, one at least. -/
def expandEllipsis : List UInt8 × Option ℕ × List Char → Option (List UInt8)
  | (ip, ellipsis, rest) =>
    if rest ≠ [] then none
    else if ip.length < 16 then
      match ellipsis with
      | none => none
      | some e => some (ip.take e ++ List.replicate (16 - ip.length) 0 ++ ip.drop e)
    else if ellipsis.isSome then none
    else some ip

def parseIPv6 (input : List Char) : Option Addr :=
  let s := input.takeWhile (· ≠ '%')
  let zone := (input.dropWhile (· ≠ '%')).drop 1
  if '%' ∈ input ∧ zone = [] then none
  else
    match s with
    | [':', ':'] => some ⟨List.replicate 16 0, zone⟩
    | ':' :: ':' :: rest => ((parseGroups 8 [] (some 0) rest).bind expandEllipsis).map (⟨·, zone⟩)
    | s => ((parseGroups 8 [] none s).bind expandEllipsis).map (⟨·, zone⟩)

/-- `netip.ParseAddr`. -/
def parseAddr (s : List Char) : Option Addr :=
  match s.find? fun c => c == '.' || c == ':' || c == '%' with
  | some '.' => (parseIPv4Fields s).map (⟨·, []⟩)
  | some ':' => parseIPv6 s
  | _ => none

/-- What stands before the bytes of an IPv4 address in sixteen. -/
def v4InV6Prefix : List UInt8 := List.replicate 10 0 ++ [255, 255]

def Addr.as16 (a : Addr) : List UInt8 := if a.bytes.length = 4 then v4InV6Prefix ++ a.bytes else a.bytes

/-- `net.ParseIP`. -/
def parseIP (s : String) : Option (List UInt8) :=
  match parseAddr s.toList with
  | none => none
  | some a => if a.zone ≠ [] then none else some a.as16

example : parseIP "203.0.113.05" = none := by decide

example : parseIP "2001:db8::1:203.0.113.5" = some [32, 1, 13, 184, 0, 0, 0, 0, 0, 0, 0, 1, 203, 0, 113, 5] := by decide

def to4 (ip : List UInt8) : Option (List UInt8) :=
  if ip.length = 4 then some ip
  else if ip.length = 16 ∧ ip.take 12 = v4InV6Prefix then some (ip.drop 12)
  else none

/-! ## Networks -/

/-- `net.IPNet`. -/
structure IPNet where
  ip : List UInt8
  mask : List UInt8
deriving DecidableEq, Repr

def networkNumberAndMask (n : IPNet) : Option (List UInt8 × List UInt8) :=
  match to4 n.ip with
  | some ip => if n.mask.length = 4 then some (ip, n.mask) else if n.mask.length = 16 then some (ip, n.mask.drop 12) else none
  | none => if n.ip.length = 16 ∧ n.mask.length = 16 then some (n.ip, n.mask) else none

def maskBytes (ip mask : List UInt8) : List UInt8 := List.zipWith (· &&& ·) ip mask

def IPNet.contains (n : IPNet) (ip : List UInt8) : Bool :=
  let ip := (to4 ip).getD ip
  match networkNumberAndMask n with
  | none => ip.length == 0
  | some (nn, m) => ip.length == nn.length && maskBytes nn m == maskBytes ip m

/-- `CIDRMask` of so many ones, in so many bytes. -/
def cidrMask (ones bytes : ℕ) : List UInt8 :=
  (List.range bytes).map fun i => UInt8.ofNat (256 - 2 ^ (8 - min 8 (ones - 8 * i)))

/-- The network of `net.ParseCIDR`. -/
def parseCIDR (s : List Char) : Option IPNet :=
  if '/' ∉ s then none
  else
    let mask := (s.dropWhile (· ≠ '/')).drop 1
    match parseAddr (s.takeWhile (· ≠ '/')) with
    | none => none
    | some a =>
      if a.zone ≠ [] ∨ mask = [] then none
      else
        match digitsVal mask with
        | none => none
        | some n =>
          if a.bytes.length * 8 < n then none
          else some ⟨maskBytes a.bytes (cidrMask n a.bytes.length), cidrMask n a.bytes.length⟩

/-- The place of the last of a character. -/
def lastIndexOf (c : Char) (s : List Char) : Option ℕ := (s.reverse.findIdx? (· == c)).map (s.length - 1 - ·)

/-- `net.SplitHostPort`, where it succeeds. -/
def splitHostPort (hostport : List Char) : Option (List Char × List Char) :=
  match lastIndexOf ':' hostport with
  | none => none
  | some i =>
    let port := hostport.drop (i + 1)
    if hostport.head? = some '[' then
      match hostport.findIdx? (· == ']') with
      | none => none
      | some e =>
        if e + 1 ≠ i then none
        else if '[' ∈ hostport.drop 1 ∨ ']' ∈ hostport.drop (e + 1) then none
        else some ((hostport.take e).drop 1, port)
    else if ':' ∈ hostport.take i ∨ '[' ∈ hostport ∨ ']' ∈ hostport then none
    else some (hostport.take i, port)

example : splitHostPort "[2001:db8::1]:443".toList = some ("2001:db8::1".toList, "443".toList) := by decide

end Net

/-! ## The middleware -/

/-- `strings.Split`. -/
def splitText (s : String) (sep : Char) : List String := (s.toList.splitOn sep).map String.ofList

/-- What the middleware reads of a request: the values of a header stand under its canonical name. -/
structure HttpRequest where
  remoteAddr : String
  header : String → List String

/-- `r.Header.Get`. -/
def HttpRequest.get (r : HttpRequest) (key : String) : String := (r.header key).headD ""

namespace RealIP

open Net

/-- `trustedCIDRs`, of the value of `TRUSTED_PROXY_CIDRS`. -/
def trustedCIDRs (env : String) : List IPNet :=
  let raw := trimSpace env
  if raw = "" then []
  else (splitText raw ',').filterMap fun part =>
    let part := (trimSpace part).toList
    if part = [] then none
    else if '/' ∉ part then parseCIDR (part ++ if ':' ∈ part then "/128".toList else "/32".toList)
    else parseCIDR part

def isTrusted (remoteIP : List UInt8) (trusted : List IPNet) : Bool := trusted.any (·.contains remoteIP)

/-- The loop over the entries, from the last one on. -/
def scan (trusted : List IPNet) : List String → Option String
  | [] => none
  | part :: parts =>
    let candidate := trimSpace part
    match parseIP candidate with
    | none => scan trusted parts
    | some ip => if isTrusted ip trusted = false then some candidate else scan trusted parts

def remoteHost (r : HttpRequest) : String :=
  match splitHostPort r.remoteAddr.toList with
  | none => r.remoteAddr
  | some (host, _) => String.ofList host

def realClientIP (r : HttpRequest) (trusted : List IPNet) : String :=
  if trusted.length = 0 then remoteHost r
  else
    match parseIP (remoteHost r) with
    | none => remoteHost r
    | some remoteIP =>
      if isTrusted remoteIP trusted = false then remoteHost r
      else
        let xff := trimSpace (r.get "X-Forwarded-For")
        if xff = "" then remoteHost r
        else (scan trusted (splitText xff ',').reverse).getD (remoteHost r)

example : realClientIP ⟨"10.0.0.2:443", fun _ => ["203.0.113.99, 10.0.0.1"]⟩ (trustedCIDRs "10.0.0.0/8") = "203.0.113.99" := by decide

/-! ## What the header is to tell -/

/-- The direct peer is a trusted proxy. -/
def PeerTrusted (trusted : List IPNet) (remoteAddr : String) : Prop :=
  ∃ ip, parseIP (remoteHost ⟨remoteAddr, fun _ => []⟩) = some ip ∧ isTrusted ip trusted = true

/-- An address, and not one of a trusted proxy. -/
def validUntrusted (trusted : List IPNet) (entry : String) : Bool :=
  match parseIP entry with
  | none => false
  | some ip => !isTrusted ip trusted

/-- The entries of a line of the header. -/
def entries (line : String) : List String := (splitText line ',').map trimSpace

/-- The rightmost valid untrusted address. -/
def rightmost (trusted : List IPNet) (es : List String) : Option String := es.reverse.find? (validUntrusted trusted)

/-- The lines of the header: those of the client alone, the one the proxies appended to, with what the client had put there,
and those the proxies put after it. -/
def forwarded (before : List String) (start : Option String) (suffix : String) (later : List String) : List String :=
  before ++ (match start with
    | none => suffix
    | some c => c ++ "," ++ suffix) :: later

/-- The entries the proxies have appended. -/
def appended (suffix : String) (later : List String) : List String := entries suffix ++ later.flatMap entries

/-! ## Entries and their spaces -/

/-- `trimSpace` on characters. -/
def trimChars (l : List Char) : List Char := ((l.dropWhile isSpace).reverse.dropWhile isSpace).reverse

theorem dropWhile_spaces {ws l : List Char} (h : ∀ c ∈ ws, isSpace c = true) : (ws ++ l).dropWhile isSpace = l.dropWhile isSpace := by
  induction ws with
  | nil => rfl
  | cons c ws ih =>
    rw [List.cons_append, List.dropWhile_cons_of_pos (h c List.mem_cons_self)]
    exact ih fun d hd => h d (List.mem_cons_of_mem _ hd)

theorem trimChars_front {ws l : List Char} (h : ∀ c ∈ ws, isSpace c = true) : trimChars (ws ++ l) = trimChars l := by
  unfold trimChars
  rw [dropWhile_spaces h]

theorem trimChars_back {ws l : List Char} (h : ∀ c ∈ ws, isSpace c = true) : trimChars (l ++ ws) = trimChars l := by
  induction l with
  | nil => simpa using trimChars_front (l := []) h
  | cons c l ih =>
    by_cases hc : isSpace c = true
    · have hfront : ∀ m, trimChars (c :: m) = trimChars m := fun m => @trimChars_front [c] m (by simpa using hc)
      rw [List.cons_append, hfront, hfront, ih]
    · unfold trimChars
      rw [List.cons_append, List.dropWhile_cons_of_neg hc, List.dropWhile_cons_of_neg hc, ← List.cons_append, List.reverse_append]
      rw [dropWhile_spaces fun d hd => h d (List.mem_reverse.1 hd)]

/-- Spaces around a text change its parts by spaces only. -/
theorem trim_parts (l ws ws' : List Char) (h : ∀ c ∈ ws, isSpace c = true) (h' : ∀ c ∈ ws', isSpace c = true) :
    ((ws ++ l ++ ws').splitOn ',').map trimChars = (l.splitOn ',').map trimChars := by
  have hno : ∀ ws : List Char, (∀ c ∈ ws, isSpace c = true) → ',' ∉ ws := fun ws h hc => absurd (h _ hc) (by decide)
  by_cases hc : ',' ∈ l
  · obtain ⟨l₁, l₂, rfl⟩ := List.append_of_mem hc
    have hsplit : ws ++ (l₁ ++ ',' :: l₂) ++ ws' = (ws ++ l₁ ++ []) ++ ',' :: ([] ++ l₂ ++ ws') := by simp
    rw [hsplit, List.splitOn_append_cons_self, List.splitOn_append_cons_self, List.map_append, List.map_append,
      trim_parts l₁ ws [] h (by simp), trim_parts l₂ [] ws' (by simp) h']
  · rw [List.splitOn_eq_singleton hc, List.splitOn_eq_singleton, List.map_singleton, List.map_singleton, trimChars_back h',
      trimChars_front h]
    simp only [List.mem_append, not_or]
    exact ⟨⟨hno ws h, hc⟩, hno ws' h'⟩
termination_by l.length
decreasing_by
  · subst_vars
    simp
  · subst_vars
    simp
    omega

/-- A text is what is left of it between spaces. -/
theorem trimChars_between (l : List Char) : ∃ ws ws', (∀ c ∈ ws, isSpace c = true) ∧ (∀ c ∈ ws', isSpace c = true) ∧
    l = ws ++ trimChars l ++ ws' := by
  refine ⟨l.takeWhile isSpace, ((l.dropWhile isSpace).reverse.takeWhile isSpace).reverse, fun c hc => List.mem_takeWhile_imp hc,
    fun c hc => List.mem_takeWhile_imp (List.mem_reverse.1 hc), ?_⟩
  rw [trimChars, List.append_assoc, ← List.reverse_append, List.takeWhile_append_dropWhile, List.reverse_reverse,
    List.takeWhile_append_dropWhile]

theorem trimSpace_eq (s : String) : trimSpace s = String.ofList (trimChars s.toList) := rfl

theorem entries_eq (s : String) : entries s = ((s.toList.splitOn ',').map trimChars).map String.ofList := by
  simp only [entries, splitText, List.map_map]
  apply List.map_congr_left
  intro part _
  simp [trimSpace_eq]

/-- **A line has the same entries with the spaces around it and without.** -/
theorem entries_trimSpace (s : String) : entries (trimSpace s) = entries s := by
  obtain ⟨ws, ws', h, h', hl⟩ := trimChars_between s.toList
  rw [entries_eq, entries_eq, trimSpace_eq, String.toList_ofList]
  conv_rhs => rw [hl, trim_parts _ _ _ h h']

/-- What is appended after a comma leaves the entries before it as they are. -/
theorem entries_append (c s : String) : entries (c ++ "," ++ s) = entries c ++ entries s := by
  have hlist : (c ++ "," ++ s).toList = c.toList ++ ',' :: s.toList := by simp
  rw [entries_eq, entries_eq, entries_eq, hlist, List.splitOn_append_cons_self, List.map_append, List.map_append]

/-! ## What the scan finds -/

variable {trusted : List IPNet}

theorem scan_eq (parts : List String) : scan trusted parts = (parts.map trimSpace).find? (validUntrusted trusted) := by
  induction parts with
  | nil => rfl
  | cons part parts ih =>
    rw [scan, List.map_cons, List.find?_cons, validUntrusted]
    cases hip : parseIP (trimSpace part) with
    | none => exact ih
    | some ip =>
      by_cases ht : isTrusted ip trusted = true
      · simpa [ht] using ih
      · simp [ht]

theorem rightmost_append (es fs : List String) : rightmost trusted (es ++ fs) = (rightmost trusted fs).or (rightmost trusted es) := by
  rw [rightmost, List.reverse_append, List.find?_append]
  rfl

theorem rightmost_untrusted {es : List String} {ip : String} (h : rightmost trusted es = some ip) : validUntrusted trusted ip = true :=
  List.find?_some h

theorem rightmost_empty : rightmost trusted (entries "") = none := rfl

/-- From an untrusted peer the header is not read. -/
theorem realClientIP_untrusted {r : HttpRequest} (h : ¬ PeerTrusted trusted r.remoteAddr) : realClientIP r trusted = remoteHost r := by
  unfold realClientIP
  split_ifs with hno
  · rfl
  · cases hip : parseIP (remoteHost r) with
    | none => rfl
    | some ip =>
      have ht : isTrusted ip trusted = false := by
        by_contra ht
        exact h ⟨ip, hip, by simpa using ht⟩
      simp [ht]

/-- **From a trusted peer it is the rightmost valid untrusted address of the first line of the header.** -/
theorem realClientIP_trusted {r : HttpRequest} (h : PeerTrusted trusted r.remoteAddr) :
    realClientIP r trusted = (rightmost trusted (entries (r.get "X-Forwarded-For"))).getD (remoteHost r) := by
  obtain ⟨ip, hip, ht⟩ := h
  have hip : parseIP (remoteHost r) = some ip := hip
  have hsome : trusted.length ≠ 0 := by
    intro hno
    rw [List.eq_nil_of_length_eq_zero hno] at ht
    cases ht
  unfold realClientIP
  rw [if_neg hsome, hip]
  simp only [ht, Bool.true_eq_false, if_false]
  rw [← entries_trimSpace]
  by_cases hx : trimSpace (r.get "X-Forwarded-For") = ""
  · rw [if_pos hx, hx, rightmost_empty]
    rfl
  · rw [if_neg hx, scan_eq, List.map_reverse]
    rfl

/-- The direct peer is no valid untrusted address. -/
theorem remoteHost_ne {r : HttpRequest} {ip : String} (h : PeerTrusted trusted r.remoteAddr) (hip : validUntrusted trusted ip = true) :
    remoteHost r ≠ ip := by
  obtain ⟨b, hb, ht⟩ := h
  rintro rfl
  have hb : parseIP (remoteHost r) = some b := hb
  rw [validUntrusted, hb] at hip
  simp [ht] at hip

/-- A request whose first line has no valid untrusted address is counted to the peer. -/
theorem realClientIP_eq_iff {remoteAddr ip : String} (hpeer : PeerTrusted trusted remoteAddr)
    (hip : validUntrusted trusted ip = true) (header : String → List String) :
    realClientIP ⟨remoteAddr, header⟩ trusted = ip ↔ rightmost trusted (entries ((header "X-Forwarded-For").headD "")) = some ip := by
  rw [realClientIP_trusted (r := ⟨remoteAddr, header⟩) hpeer]
  show (rightmost trusted (entries ((header "X-Forwarded-For").headD ""))).getD _ = ip ↔ _
  cases rightmost trusted (entries ((header "X-Forwarded-For").headD "")) with
  | none => simpa using remoteHost_ne (r := ⟨remoteAddr, header⟩) hpeer hip
  | some c => simp

/-! ## Who can tell the gateway an address -/

/-- **The address is that of the suffix, whatever the client puts before it, just when the client has no line of its own** before
the one the proxies appended to, and this line already has the rightmost valid untrusted address of the suffix.  From an
untrusted peer no header is read. -/
theorem realClientIP_settled (trusted : List IPNet) (remoteAddr : String) :
    (PeerTrusted trusted remoteAddr → ∀ (suffix : String) (later : List String) (ip : String) (n : ℕ) (begun : Bool),
      rightmost trusted (appended suffix later) = some ip →
      ((∀ before start header, before.length = n → start.isSome = begun →
          header "X-Forwarded-For" = forwarded before start suffix later → realClientIP ⟨remoteAddr, header⟩ trusted = ip) ↔
        n = 0 ∧ rightmost trusted (entries suffix) = some ip)) ∧
    (¬ PeerTrusted trusted remoteAddr →
      ∀ header header', realClientIP ⟨remoteAddr, header⟩ trusted = realClientIP ⟨remoteAddr, header'⟩ trusted) := by
  constructor
  · intro hpeer suffix later ip n begun hip
    have huntrusted := rightmost_untrusted hip
    simp only [realClientIP_eq_iff hpeer huntrusted]
    constructor
    · intro hall
      by_cases hn : n = 0
      · subst hn
        refine ⟨rfl, ?_⟩
        cases begun with
        | false => exact hall [] none (fun _ => forwarded [] none suffix later) rfl rfl rfl
        | true =>
          have h := hall [] (some "") (fun _ => forwarded [] (some "") suffix later) rfl rfl rfl
          rw [forwarded, List.nil_append, List.headD_cons, entries_append, rightmost_append, rightmost_empty, Option.or_none] at h
          exact h
      · exfalso
        obtain ⟨k, rfl⟩ := Nat.exists_eq_succ_of_ne_zero hn
        cases begun with
        | false =>
          have h := hall (List.replicate (k + 1) "") none (fun _ => forwarded _ none suffix later) (List.length_replicate ..) rfl rfl
          cases h
        | true =>
          have h := hall (List.replicate (k + 1) "") (some "") (fun _ => forwarded _ (some "") suffix later)
            (List.length_replicate ..) rfl rfl
          cases h
    · rintro ⟨rfl, hs⟩ before start header hn - hlines
      rw [hlines, List.eq_nil_of_length_eq_zero hn]
      cases start with
      | none => exact hs
      | some c =>
        show rightmost trusted (entries (c ++ "," ++ suffix)) = _
        rw [entries_append, rightmost_append, hs]
        rfl
  · intro hpeer header header'
    rw [realClientIP_untrusted (r := ⟨remoteAddr, header⟩) hpeer, realClientIP_untrusted (r := ⟨remoteAddr, header'⟩) hpeer]
    rfl

/-- Behind one proxy that appends to the only line. -/
theorem one_line_read :
    realClientIP ⟨"10.0.0.1:1234", fun _ => ["6.6.6.6,203.0.113.5"]⟩ (trustedCIDRs "10.0.0.0/8") = "203.0.113.5" :=
  (((realClientIP_settled (trustedCIDRs "10.0.0.0/8") "10.0.0.1:1234").1 ⟨_, rfl, by decide⟩ "203.0.113.5" [] "203.0.113.5" 0 true
    (by decide)).2 ⟨rfl, by decide⟩) [] (some "6.6.6.6") _ rfl rfl rfl

/-- A line of the client's own before the proxy's is taken for it. -/
theorem own_line_read : ¬ ∀ (trusted : List IPNet) (remoteAddr : String),
    (PeerTrusted trusted remoteAddr → ∀ (suffix : String) (later : List String) (ip : String),
      rightmost trusted (appended suffix later) = some ip →
      ∀ before start header, header "X-Forwarded-For" = forwarded before start suffix later →
        realClientIP ⟨remoteAddr, header⟩ trusted = ip) ∧
    (¬ PeerTrusted trusted remoteAddr →
      ∀ header header', realClientIP ⟨remoteAddr, header⟩ trusted = realClientIP ⟨remoteAddr, header'⟩ trusted) := by
  intro hc
  have hspoofed := (hc (trustedCIDRs "10.0.0.0/8") "10.0.0.1:1234").1 ⟨_, rfl, by decide⟩ "203.0.113.5" [] "203.0.113.5" (by decide)
    ["6.6.6.6"] none (fun _ => ["6.6.6.6", "203.0.113.5"]) rfl
  exact absurd hspoofed (by decide)

end RealIP

end Agregator
