import Agregator.PhotoKey
/-!
# PhotoConfined — where a normalised photo URL leads

What `normalizeMasterPhotoURL` puts back is no longer escaped.  The URL has the key that was checked, and is normal, where nothing
of it had to be (`confined_iff`): what is before the key is read again as it was written, and it is not longer after it.
-/
namespace Agregator
namespace PhotoKey

open GoBytes (lit trimBytes beforeFirst spaces Bare)
open GoPath (slash onedot dotdot parts clean elementsOf isRooted)
open GoUrl (URL parse parseHost unescapePath percent question hash colon isCTL firstSegment)

/-- A URL of no query, no fragment and no two dots in its path, with the key that was checked, and normal. -/
structure Confined (ipLiteral : List UInt8 → Bool) (m : UUID) (raw u : List UInt8) : Prop where
  query : question ∉ u
  fragment : hash ∉ u
  inside : ∃ url, parse ipLiteral u = some url ∧ dotdot ∉ parts url.path
  key : ∃ key, validatedKey ipLiteral raw = some key ∧ extractMasterPhotoKey ipLiteral u = some key ∧ IsKey m key
  normal : normalizeMasterPhotoURL ipLiteral m u = .ok u

/-- Nothing has to be escaped of what is put before the key: a host with a scheme and without the sign of escapes, a path without
that sign, the delimiters and control bytes; and without a host, no white space first, no two dots, no colon in its first
segment. -/
structure Verbatim (url : URL) : Prop where
  origin : url.host ≠ [] → url.scheme ≠ [] ∧ percent ∉ url.host
  bytes : ∀ b ∈ photoPrefix url.path, b ≠ percent ∧ b ≠ question ∧ b ≠ hash ∧ isCTL b = false
  path : url.host = [] → (∀ w ∈ spaces, ¬ w <+: photoPrefix url.path) ∧ dotdot ∉ parts (photoPrefix url.path) ∧
    colon ∉ firstSegment (photoPrefix url.path)

/-! ## White space -/

theorem spaces_bytes : ∀ w ∈ spaces, ∀ b ∈ w, isNameByte b = false ∧ b ≠ slash ∧ b ≠ colon ∧ GoUrl.isSchemeByte b = false := by
  decide +kernel

variable {m : UUID} {key : List UInt8}

theorem not_suffix_key (h : IsKey m key) : ∀ w ∈ spaces, ¬ w <:+ key := by
  intro w hw hsuf
  obtain ⟨b, rest, rfl⟩ := List.exists_cons_of_ne_nil (GoBytes.spaces_ne_nil w hw)
  obtain ⟨hname, hslash, -, -⟩ := spaces_bytes _ hw b List.mem_cons_self
  rcases isKey_nameBytes h b (hsuf.subset List.mem_cons_self) with hb | hb
  · rw [hname] at hb
    cases hb
  · exact hslash hb

theorem slash_notMem_spaces : ∀ w ∈ spaces, slash ∉ w := fun w hw hmem => (spaces_bytes w hw slash hmem).2.1 rfl

theorem colon_notMem_spaces : ∀ w ∈ spaces, colon ∉ w := fun w hw hmem => (spaces_bytes w hw colon hmem).2.2.1 rfl

/-- A path with a key at its end is trimmed at its front only. -/
theorem trimBytes_path (h : IsKey m key) (x : List UInt8) :
    ∃ y, trimBytes (x ++ slash :: key) = y ++ slash :: key ∧ y <:+ x :=
  GoBytes.trim_append_cons slash_notMem_spaces x (not_suffix_key h)

theorem trimBytes_path_self (h : IsKey m key) {x : List UInt8} (hx : ∀ w ∈ spaces, ¬ w <+: x) :
    trimBytes (x ++ slash :: key) = x ++ slash :: key :=
  GoBytes.trim_of_bare
    { left := fun w hw hpre => hx w hw (GoBytes.prefix_of_prefix_append_cons (slash_notMem_spaces w hw) hpre)
      right := fun w hw hsuf => not_suffix_key h w hw (GoBytes.suffix_of_suffix_append_cons (slash_notMem_spaces w hw) hsuf) }

/-- A scheme, or nothing, before a colon leaves a text with a key at its end as it is. -/
theorem trimBytes_scheme (h : IsKey m key) {s : List UInt8} (hs : ∀ b ∈ s, GoUrl.isSchemeByte b = true) (x : List UInt8) :
    trimBytes (s ++ (lit "://" ++ (x ++ slash :: key))) = s ++ (lit "://" ++ (x ++ slash :: key)) := by
  have hcolon : s ++ (lit "://" ++ (x ++ slash :: key)) = s ++ colon :: (slash :: slash :: (x ++ slash :: key)) := rfl
  have hslash : s ++ (lit "://" ++ (x ++ slash :: key)) = s ++ lit "://" ++ x ++ slash :: key := by simp
  refine GoBytes.trim_of_bare ⟨fun w hw hpre => ?_, fun w hw hsuf => ?_⟩
  · rw [hcolon] at hpre
    have hws := GoBytes.prefix_of_prefix_append_cons (colon_notMem_spaces w hw) hpre
    obtain ⟨b, rest, rfl⟩ := List.exists_cons_of_ne_nil (GoBytes.spaces_ne_nil w hw)
    have hb := (spaces_bytes _ hw b List.mem_cons_self).2.2.2
    rw [hs b (hws.subset List.mem_cons_self)] at hb
    cases hb
  · rw [hslash] at hsuf
    exact not_suffix_key h w hw (GoBytes.suffix_of_suffix_append_cons (slash_notMem_spaces w hw) hsuf)

/-! ## Slashes -/

theorem firstSegment_append (k : List UInt8) : ∀ x : List UInt8, firstSegment (x ++ slash :: k) = firstSegment x
  | [] => List.takeWhile_cons_of_neg (by decide)
  | b :: x => by
    have ih := firstSegment_append k x
    unfold firstSegment at ih ⊢
    rw [List.cons_append, List.takeWhile_cons, List.takeWhile_cons, ih]

theorem nil_mem_tail (a b : List UInt8) : [] ∈ (parts (a ++ slash :: slash :: b)).tail := by
  have hb : parts (slash :: b) = [] :: parts b := GoPath.parts_append [] b
  rw [GoPath.parts_append, hb, List.tail_append_of_ne_nil (GoPath.parts_ne_nil a)]
  exact List.mem_append_right _ List.mem_cons_self

/-- A text with a key at its end has that key only. -/
theorem append_key_inj {key' a a' : List UInt8} (h : IsKey m key) (h' : IsKey m key')
    (heq : a ++ slash :: key = a' ++ slash :: key') : a = a' ∧ key = key' := by
  obtain ⟨name, hparts, -⟩ := isKey_parts h
  obtain ⟨name', hparts', -⟩ := isKey_parts h'
  have hsplit := congrArg parts heq
  rw [GoPath.parts_append, GoPath.parts_append] at hsplit
  obtain ⟨hfront, hback⟩ := List.append_inj' hsplit (by rw [hparts, hparts']; rfl)
  constructor
  · rw [← GoPath.unparts_parts a, hfront, GoPath.unparts_parts]
  · rw [← GoPath.unparts_parts key, hback, GoPath.unparts_parts]

section Output

variable {ipLiteral : List UInt8 → Bool} {raw : List UInt8} {url : URL}

theorem not_double_slash (h : Accepted ipLiteral m raw url key) : ¬ lit "//" <+: photoPrefix url.path ++ slash :: key := by
  rintro ⟨rest, hrest⟩
  have hmem := nil_mem_tail [] rest
  have hw : [] ++ slash :: slash :: rest = photoPrefix url.path ++ slash :: key := hrest
  rw [hw, GoPath.parts_append, List.tail_append_of_ne_nil (GoPath.parts_ne_nil _)] at hmem
  rcases List.mem_append.1 hmem with hmem | hmem
  · exact photoPrefix_tail h.elements [] hmem rfl
  · exact (isKey_plain h.isKey [] hmem).1 rfl

/-- A path that is not escaped, with a key at its end. -/
theorem path_bytes (h : Accepted ipLiteral m raw url key) (hv : Verbatim url) : ∀ b ∈ photoPrefix url.path ++ slash :: key,
    b ≠ percent ∧ b ≠ question ∧ b ≠ hash ∧ isCTL b = false := by
  intro b hb
  rcases List.mem_append.1 hb with hb | hb
  · exact hv.bytes b hb
  · rcases List.mem_cons.1 hb with rfl | hb
    · decide
    · exact isKey_bytes h.isKey b hb

theorem unescape_path (h : Accepted ipLiteral m raw url key) (hv : Verbatim url) :
    unescapePath (photoPrefix url.path ++ slash :: key) = some (photoPrefix url.path ++ slash :: key) :=
  GoUrl.unescape_of_raw fun b hb => ⟨(path_bytes h hv b hb).1, rfl⟩

/-- Without a host the path is read again. -/
theorem parse_path (h : Accepted ipLiteral m raw url key) (hv : Verbatim url) (hhost : url.host = []) :
    trimBytes (photoPrefix url.path ++ slash :: key) = photoPrefix url.path ++ slash :: key ∧
      parse ipLiteral (photoPrefix url.path ++ slash :: key) = some ⟨[], [], photoPrefix url.path ++ slash :: key⟩ := by
  obtain ⟨hspace, -, hcolon⟩ := hv.path hhost
  have hbytes := path_bytes h hv
  refine ⟨trimBytes_path_self h.isKey hspace, ?_⟩
  rw [GoUrl.parse_plain (fun b hb => (hbytes b hb).2.2.2) (fun hmem => (hbytes _ hmem).2.2.1 rfl)
    (fun hmem => (hbytes _ hmem).2.1 rfl) (by rwa [firstSegment_append]) (not_double_slash h), unescape_path h hv,
    Option.map_some]

/-- What is before the key of a URL with a host is empty or begins with a slash. -/
theorem rooted_of_host (h : Accepted ipLiteral m raw url key) (hhost : url.host ≠ []) : isRooted url.path = true := by
  rcases (GoUrl.of_parse h.parsed).2.2 hhost with hnil | hr
  · have hne := h.elements
    rw [hnil] at hne
    exact absurd rfl hne
  · exact hr

theorem scheme_of_accepted (h : Accepted ipLiteral m raw url key) (hscheme : url.scheme ≠ []) : GoUrl.IsScheme url.scheme :=
  (GoUrl.of_parse h.parsed).1.resolve_left hscheme

theorem host_bytes (h : Accepted ipLiteral m raw url key) :
    ∀ b ∈ url.host, b ≠ slash ∧ b ≠ GoUrl.atSign ∧ b ≠ question ∧ b ≠ hash ∧ isCTL b = false := by
  intro b hb
  rcases (GoUrl.of_parse h.parsed).2.1 with hnil | ⟨host, hparse⟩
  · rw [hnil] at hb
    cases hb
  · exact GoUrl.isParsed_bytes b (GoUrl.parseHost_bytes hparse b hb)

theorem isRooted_append_slash {x : List UInt8} (hx : x = [] ∨ isRooted x = true) (k : List UInt8) :
    isRooted (x ++ slash :: k) = true := by
  rcases hx with rfl | hr
  · rfl
  · obtain ⟨rest, rfl⟩ := GoPath.isRooted_iff.1 hr
    rfl

theorem isRooted_path (h : Accepted ipLiteral m raw url key) (hhost : url.host ≠ []) :
    isRooted (photoPrefix url.path ++ slash :: key) = true :=
  isRooted_append_slash (photoPrefix_rooted h.elements (rooted_of_host h hhost)).2 key

/-- With a host the host and the path are read again. -/
theorem parse_host (h : Accepted ipLiteral m raw url key) (hscheme : url.scheme ≠ []) (hhost : url.host ≠ [])
    (hbytes : ∀ b ∈ photoPrefix url.path ++ slash :: key, b ≠ question ∧ b ≠ hash ∧ isCTL b = false) :
    parse ipLiteral (url.scheme ++ (lit "://" ++ (url.host ++ (photoPrefix url.path ++ slash :: key)))) =
      (parseHost ipLiteral url.host).bind fun host =>
        (unescapePath (photoPrefix url.path ++ slash :: key)).map fun path => ⟨url.scheme, host, path⟩ := by
  have hs := scheme_of_accepted h hscheme
  have hall : ∀ b ∈ url.host ++ (photoPrefix url.path ++ slash :: key), b ≠ question ∧ b ≠ hash ∧ isCTL b = false := by
    intro b hb
    rcases List.mem_append.1 hb with hb | hb
    · exact (host_bytes h b hb).2.2
    · exact hbytes b hb
  exact GoUrl.parse_absolute hs (fun b hb => (hall b hb).2.2) (fun hmem => (hall _ hmem).2.1 rfl)
    (fun hmem => (hall _ hmem).1 rfl) (fun hmem => (host_bytes h _ hmem).2.1 rfl) (fun hmem => (host_bytes h _ hmem).1 rfl)
    (isRooted_path h hhost)

theorem canonical_path (hhost : url.host = []) : canonical url key = photoPrefix url.path ++ slash :: key :=
  if_neg (not_not_intro hhost)

theorem canonical_host (hhost : url.host ≠ []) :
    canonical url key = url.scheme ++ (lit "://" ++ (url.host ++ (photoPrefix url.path ++ slash :: key))) :=
  if_pos hhost

theorem trimBytes_canonical (h : Accepted ipLiteral m raw url key) (hscheme : url.scheme ≠ []) (hhost : url.host ≠ []) :
    trimBytes (canonical url key) = canonical url key := by
  have hs := scheme_of_accepted h hscheme
  rw [canonical_host hhost, ← List.append_assoc url.host]
  exact trimBytes_scheme h.isKey hs.bytes _

theorem canonical_bytes (h : Accepted ipLiteral m raw url key) (hv : Verbatim url) :
    ∀ b ∈ canonical url key, b ≠ question ∧ b ≠ hash := by
  have hpath : ∀ b ∈ photoPrefix url.path ++ slash :: key, b ≠ question ∧ b ≠ hash := fun b hb =>
    ⟨(path_bytes h hv b hb).2.1, (path_bytes h hv b hb).2.2.1⟩
  by_cases hhost : url.host = []
  · rwa [canonical_path hhost]
  · have hs := scheme_of_accepted h (hv.origin hhost).1
    rw [canonical_host hhost]
    intro b hb
    rcases List.mem_append.1 hb with hb | hb
    · obtain ⟨-, -, hq, hf, -⟩ := GoUrl.schemeByte_facts b (hs.bytes b hb)
      exact ⟨hq, hf⟩
    · rcases List.mem_append.1 hb with hb | hb
      · exact (by decide +kernel : ∀ b ∈ lit "://", b ≠ question ∧ b ≠ hash) b hb
      · rcases List.mem_append.1 hb with hb | hb
        · exact ⟨(host_bytes h b hb).2.2.1, (host_bytes h b hb).2.2.2.1⟩
        · exact hpath b hb

/-- What was put back is read again. -/
theorem parse_canonical (h : Accepted ipLiteral m raw url key) (hv : Verbatim url) :
    trimBytes (canonical url key) = canonical url key ∧ dotdot ∉ parts (photoPrefix url.path) ∧
      ∃ scheme, (url.host ≠ [] → scheme = url.scheme) ∧
        parse ipLiteral (canonical url key) = some ⟨scheme, url.host, photoPrefix url.path ++ slash :: key⟩ := by
  by_cases hhost : url.host = []
  · obtain ⟨htrim, hparse⟩ := parse_path h hv hhost
    rw [canonical_path hhost, hhost]
    exact ⟨htrim, (hv.path hhost).2.1, [], fun hne => absurd rfl hne, hparse⟩
  · obtain ⟨hscheme, hpercent⟩ := hv.origin hhost
    obtain ⟨host, hparsed⟩ := (GoUrl.of_parse h.parsed).2.1.resolve_left hhost
    refine ⟨trimBytes_canonical h hscheme hhost, (photoPrefix_rooted h.elements (rooted_of_host h hhost)).1, url.scheme,
      fun _ => rfl, ?_⟩
    rw [canonical_host hhost, parse_host h hscheme hhost fun b hb => (path_bytes h hv b hb).2,
      GoUrl.parseHost_self hparsed hpercent, Option.bind_some, unescape_path h hv, Option.map_some]

/-- **Where nothing has to be escaped** the URL has the key that was checked, and is normal. -/
theorem confined_of_verbatim (h : Accepted ipLiteral m raw url key) (hv : Verbatim url) :
    Confined ipLiteral m raw (canonical url key) := by
  obtain ⟨htrim, hup, scheme, hscheme, hparse⟩ := parse_canonical h hv
  obtain ⟨hagain, hextract, hcanonical, hinside⟩ := accepted_of_clean h.elements hup h.isKey htrim hparse rfl
  have hsame : canonical ⟨scheme, url.host, photoPrefix url.path ++ slash :: key⟩ key = canonical url key := by
    rw [hcanonical]
    by_cases hhost : url.host = []
    · rw [canonical_path hhost]
      exact if_neg (not_not_intro hhost)
    · rw [canonical_host hhost, hscheme hhost]
      exact if_pos hhost
  have hnormal := normalize_of_accepted hagain
  rw [hsame] at hnormal
  exact
    { query := fun hmem => (canonical_bytes h hv _ hmem).1 rfl
      fragment := fun hmem => (canonical_bytes h hv _ hmem).2 rfl
      inside := ⟨_, hparse, hinside⟩
      key := ⟨key, h.validated, hextract, h.isKey⟩
      normal := hnormal }

/-! ### What a confined URL was written of -/

/-- A path that is read with itself before the key was not escaped. -/
theorem percent_notMem_of_unescape (hkey : IsKey m key) {x z path : List UInt8} (h : unescapePath (x ++ slash :: key) = some path)
    (hz : photoPrefix path = z) (hlen : x.length ≤ z.length) : percent ∉ x ∧ x.length = z.length ∧ path = x ++ slash :: key := by
  obtain ⟨y, k, hy, hk, rfl⟩ := GoUrl.of_unescape_append_cons (by decide) (by decide) h
  obtain rfl : k = key := Option.some.inj (hk.symm.trans (unescape_key hkey))
  obtain ⟨hle, hlt⟩ := GoUrl.unescape_length hy
  have hbefore := photoPrefix_length hkey y
  rw [hz] at hbefore
  have hpercent : percent ∉ x := fun hmem => by
    have := hlt hmem
    omega
  have hx : unescapePath x = some x := GoUrl.unescape_of_raw fun b hb => ⟨fun he => hpercent (he ▸ hb), rfl⟩
  obtain rfl : y = x := Option.some.inj (hy.symm.trans hx)
  exact ⟨hpercent, by omega, rfl⟩

/-- A path with a key at its end is put back as a path only. -/
theorem path_of_canonical (h : Accepted ipLiteral m raw url key) {raw' key' : List UInt8} {url' : URL}
    (h' : Accepted ipLiteral m raw' url' key') (heq : photoPrefix url.path ++ slash :: key = canonical url' key') :
    url'.host = [] ∧ photoPrefix url'.path = photoPrefix url.path ∧ key' = key := by
  by_cases hhost : url'.host = []
  · rw [canonical_path hhost] at heq
    obtain ⟨hbefore, hkey⟩ := append_key_inj h.isKey h'.isKey heq
    exact ⟨hhost, hbefore.symm, hkey.symm⟩
  · have hassoc : canonical url' key' =
        url'.scheme ++ [colon] ++ slash :: slash :: (url'.host ++ photoPrefix url'.path) ++ slash :: key' := by
      rw [canonical_host hhost, show lit "://" = [colon] ++ (slash :: [slash]) from rfl]
      simp
    rw [hassoc] at heq
    obtain ⟨hbefore, -⟩ := append_key_inj h.isKey h'.isKey heq
    have hmem := nil_mem_tail (url'.scheme ++ [colon]) (url'.host ++ photoPrefix url'.path)
    rw [← hbefore] at hmem
    exact absurd rfl (photoPrefix_tail h.elements [] hmem)

/-- A path without a host that is read where it stands. -/
theorem verbatim_of_read (h : Accepted ipLiteral m raw url key)
    (hc : Confined ipLiteral m raw (photoPrefix url.path ++ slash :: key)) {url' : URL}
    (htrim : trimBytes (photoPrefix url.path ++ slash :: key) = photoPrefix url.path ++ slash :: key)
    (hparse : parse ipLiteral (photoPrefix url.path ++ slash :: key) = some url')
    (hread : unescapePath (photoPrefix url.path ++ slash :: key) = some url'.path)
    (hbefore : photoPrefix url'.path = photoPrefix url.path) (hcolon : colon ∉ firstSegment (photoPrefix url.path))
    (hhost : url.host = []) : Verbatim url := by
  obtain ⟨hpercent, -, hpath⟩ := percent_notMem_of_unescape h.isKey hread hbefore (Nat.le_refl _)
  have hctl := (GoUrl.of_parse_text hc.fragment hc.query hparse).1
  refine ⟨fun hne => absurd hhost hne, fun b hb => ?_, fun _ => ⟨fun w hw hpre => ?_, fun hmem => ?_, hcolon⟩⟩
  · have hmem : b ∈ photoPrefix url.path ++ slash :: key := List.mem_append_left _ hb
    exact ⟨fun he => hpercent (he ▸ hb), fun he => hc.query (he ▸ hmem), fun he => hc.fragment (he ▸ hmem), hctl b hmem⟩
  · have hbare := GoBytes.bare_trimBytes (photoPrefix url.path ++ slash :: key)
    rw [htrim] at hbare
    exact hbare.left w hw (hpre.trans (List.prefix_append _ _))
  · obtain ⟨url'', hparse'', hinside⟩ := hc.inside
    obtain rfl : url' = url'' := Option.some.inj (hparse.symm.trans hparse'')
    rw [hpath, GoPath.parts_append] at hinside
    exact hinside (List.mem_append_left _ hmem)

theorem verbatim_of_nil (hnil : photoPrefix url.path = []) (hhost : url.host = []) : Verbatim url := by
  refine ⟨fun hne => absurd hhost hne, ?_, fun _ => ?_⟩
  · rw [hnil]
    exact fun b hb => by cases hb
  · rw [hnil]
    exact ⟨fun w hw hpre => GoBytes.spaces_ne_nil w hw (List.prefix_nil.1 hpre), by decide, List.not_mem_nil⟩

theorem verbatim_of_path (h : Accepted ipLiteral m raw url key) (hc : Confined ipLiteral m raw (canonical url key))
    (hhost : url.host = []) : Verbatim url := by
  rw [canonical_path hhost] at hc
  obtain ⟨url', key', h', heq⟩ := accepted_of_normalize hc.normal
  obtain ⟨hhost', hbefore, -⟩ := path_of_canonical h h' heq
  obtain ⟨y, hy, hsuf⟩ := trimBytes_path h.isKey (photoPrefix url.path)
  have hsub : ∀ b ∈ y ++ slash :: key, b ∈ photoPrefix url.path ++ slash :: key := by
    rw [← hy]
    exact fun b hb => (GoBytes.trim_within _).subset hb
  have hparse := h'.parsed
  rw [hy] at hparse
  obtain ⟨hctl, hread⟩ := GoUrl.of_parse_text (fun hmem => hc.fragment (hsub _ hmem)) (fun hmem => hc.query (hsub _ hmem)) hparse
  rcases hread with (hnil | hroot) | ⟨-, hcolon, hread⟩
  · have hne := h'.elements
    rw [hnil] at hne
    exact absurd rfl hne
  · -- below the root: nothing of the path is taken off, and no scheme or host is found in it
    rcases (photoPrefix_rooted h'.elements hroot).2 with hnil | hr
    · exact verbatim_of_nil (hbefore.symm.trans hnil) hhost
    · rw [hbefore] at hr
      obtain ⟨rest, hrest⟩ := GoPath.isRooted_iff.1 hr
      have hspace : ∀ w ∈ spaces, ¬ w <+: photoPrefix url.path := by
        intro w hw hpre
        rw [hrest] at hpre
        have hnil := GoBytes.prefix_of_prefix_append_cons (slash_notMem_spaces w hw) (a := []) hpre
        exact GoBytes.spaces_ne_nil w hw (List.prefix_nil.1 hnil)
      have htrim := trimBytes_path_self h.isKey hspace
      have hyx : y ++ slash :: key = photoPrefix url.path ++ slash :: key := hy.symm.trans htrim
      have hcolon : colon ∉ firstSegment (photoPrefix url.path) := by
        rw [hrest, firstSegment, List.takeWhile_cons_of_neg (by decide)]
        exact List.not_mem_nil
      rw [hyx] at hparse hctl
      have hplain : parse ipLiteral (photoPrefix url.path ++ slash :: key) =
          (unescapePath (photoPrefix url.path ++ slash :: key)).map fun path => ⟨[], [], path⟩ :=
        GoUrl.parse_plain hctl hc.fragment hc.query (by rwa [firstSegment_append]) (not_double_slash h)
      obtain ⟨path, hpath, hurl⟩ := Option.map_eq_some_iff.1 (hplain.symm.trans hparse)
      exact verbatim_of_read h hc htrim hparse (by rw [hpath, ← hurl]) hbefore hcolon hhost
  · -- as it stands: what was taken off would make what is before the key shorter
    obtain ⟨-, hlen, -⟩ := percent_notMem_of_unescape h.isKey hread hbefore hsuf.length_le
    obtain rfl : y = photoPrefix url.path := hsuf.eq_of_length hlen
    rw [firstSegment_append] at hcolon
    exact verbatim_of_read h hc hy hparse hread hbefore hcolon hhost

/-- A host ends at the first slash. -/
theorem host_of_append {a a' x x' : List UInt8} (ha : slash ∉ a) (ha' : slash ∉ a') (hx : x = [] ∨ isRooted x = true)
    (hx' : x' = [] ∨ isRooted x' = true) (heq : a ++ x = a' ++ x') : a = a' ∧ x = x' := by
  have htake : ∀ {a x : List UInt8}, slash ∉ a → (x = [] ∨ isRooted x = true) → (a ++ x).takeWhile (· != slash) = a := by
    intro a x ha hx
    rcases hx with rfl | hx
    · rw [List.append_nil, (GoBytes.takeWhile_ne_of_notMem ha).1]
    · obtain ⟨rest, rfl⟩ := GoPath.isRooted_iff.1 hx
      exact (GoBytes.takeWhile_ne_append ha rest).1
  have hsame : a = a' := by rw [← htake ha hx, heq, htake ha' hx']
  subst hsame
  exact ⟨rfl, List.append_cancel_left heq⟩

theorem scheme_ne_nil (h : Accepted ipLiteral m raw url key) (hc : Confined ipLiteral m raw (canonical url key))
    (hhost : url.host ≠ []) : url.scheme ≠ [] := by
  intro hnil
  have hu : canonical url key = [] ++ (lit "://" ++ (url.host ++ photoPrefix url.path ++ slash :: key)) := by
    rw [canonical_host hhost, hnil, List.append_assoc]
  obtain ⟨url', key', h', -⟩ := accepted_of_normalize hc.normal
  have hparse := h'.parsed
  rw [hu, trimBytes_scheme h.isKey (fun b hb => by cases hb)] at hparse
  have hnone : parse ipLiteral ([] ++ (lit "://" ++ (url.host ++ photoPrefix url.path ++ slash :: key))) = none :=
    GoUrl.parse_colon _
  rw [hnone] at hparse
  cases hparse

theorem verbatim_of_host (h : Accepted ipLiteral m raw url key) (hc : Confined ipLiteral m raw (canonical url key))
    (hhost : url.host ≠ []) : Verbatim url := by
  have hscheme := scheme_ne_nil h hc hhost
  obtain ⟨c, rest, hs, hletter⟩ := (scheme_of_accepted h hscheme).letter
  obtain ⟨url', key', h', heq⟩ := accepted_of_normalize hc.normal
  have hparse := h'.parsed
  rw [trimBytes_canonical h hscheme hhost] at hparse
  have hctl := (GoUrl.of_parse_text hc.fragment hc.query hparse).1
  have hu : canonical url key = url.scheme ++ (lit "://" ++ (url.host ++ (photoPrefix url.path ++ slash :: key))) :=
    canonical_host hhost
  have hbytes : ∀ b ∈ photoPrefix url.path ++ slash :: key, b ≠ question ∧ b ≠ hash ∧ isCTL b = false := by
    intro b hb
    have hmem : b ∈ canonical url key := by
      rw [hu]
      exact List.mem_append_right _ (List.mem_append_right _ (List.mem_append_right _ hb))
    exact ⟨fun he => hc.query (he ▸ hmem), fun he => hc.fragment (he ▸ hmem), hctl b hmem⟩
  rw [hu, parse_host h hscheme hhost hbytes] at hparse
  obtain ⟨host, hhostparse, hparse⟩ := Option.bind_eq_some_iff.1 hparse
  obtain ⟨path, hpath, rfl⟩ := Option.map_eq_some_iff.1 hparse
  have hroot := isRooted_path h hhost
  have hbefore : photoPrefix path = [] ∨ isRooted (photoPrefix path) = true :=
    (photoPrefix_rooted h'.elements (GoUrl.isRooted_unescape hroot hpath)).2
  have hpath' : isRooted (photoPrefix path ++ slash :: key') = true := isRooted_append_slash hbefore key'
  by_cases hnil : host = []
  · -- a path alone begins with a slash, and not with the letter of a scheme
    have hagain : canonical ⟨url.scheme, host, path⟩ key' = photoPrefix path ++ slash :: key' := canonical_path hnil
    rw [hagain, hu, hs] at heq
    obtain ⟨rest', hrest'⟩ := GoPath.isRooted_iff.1 hpath'
    have hhead := (List.cons.inj (heq.trans hrest')).1
    rw [hhead] at hletter
    exact absurd hletter (by decide)
  · have hagain : canonical ⟨url.scheme, host, path⟩ key' =
        url.scheme ++ (lit "://" ++ (host ++ (photoPrefix path ++ slash :: key'))) := canonical_host hnil
    rw [hagain, hu] at heq
    have hrest := List.append_cancel_left (List.append_cancel_left heq)
    obtain ⟨rfl, hpaths⟩ := host_of_append (fun hmem => (host_bytes h _ hmem).1 rfl) (fun hmem => (host_bytes h' _ hmem).1 rfl)
      (.inr hroot) (.inr hpath') hrest
    obtain ⟨hsame, -⟩ := append_key_inj h.isKey h'.isKey hpaths
    obtain ⟨hpercent, -, -⟩ := percent_notMem_of_unescape h.isKey hpath hsame.symm (Nat.le_refl _)
    refine ⟨fun _ => ⟨hscheme, fun hmem => ?_⟩, fun b hb => ?_, fun hn => absurd hn hhost⟩
    · exact absurd (GoUrl.parseHost_length hhostparse hmem) (Nat.lt_irrefl _)
    · obtain ⟨hq, hf, hc⟩ := hbytes b (List.mem_append_left _ hb)
      exact ⟨fun he => hpercent (he ▸ hb), hq, hf, hc⟩

/-- **A normalised photo URL is confined** exactly where nothing of what is put back before the key had to be escaped. -/
theorem confined_iff {u : List UInt8} (hparse : parse ipLiteral (trimBytes raw) = some url)
    (h : normalizeMasterPhotoURL ipLiteral m raw = .ok u) : Confined ipLiteral m raw u ↔ Verbatim url := by
  obtain ⟨url', key, haccepted, rfl⟩ := accepted_of_normalize h
  obtain rfl : url = url' := Option.some.inj (hparse.symm.trans haccepted.parsed)
  constructor
  · intro hc
    by_cases hhost : url.host = []
    · exact verbatim_of_path haccepted hc hhost
    · exact verbatim_of_host haccepted hc hhost
  · exact confined_of_verbatim haccepted

end Output

/-! ## URLs of a photo -/

def sampleMaster : UUID := ⟨List.replicate 16 0x11, rfl⟩

def photoAt (before : List UInt8) : List UInt8 :=
  before ++ lit "/masters/11111111-1111-1111-1111-111111111111/photo.jpg"

def noLiteral (_ : List UInt8) : Bool := false

theorem uploads_confined :
    Confined noLiteral sampleMaster (photoAt (lit "/api/v1/uploads")) (photoAt (lit "/api/v1/uploads")) := by
  have hparse : parse noLiteral (trimBytes (photoAt (lit "/api/v1/uploads"))) =
      some ⟨[], [], photoAt (lit "/api/v1/uploads")⟩ := by decide +kernel
  exact (confined_iff hparse (by decide +kernel)).2
    { origin := fun hne => absurd rfl hne
      bytes := by decide +kernel
      path := fun _ => by decide +kernel }

/-- An escaped question mark before the key is put back as it was read: what is returned has a query, and no key. -/
theorem escaped_question : normalizeMasterPhotoURL noLiteral sampleMaster (photoAt (lit "/a%3Fb")) = .ok (photoAt (lit "/a?b")) ∧
    question ∈ photoAt (lit "/a?b") ∧ extractMasterPhotoKey noLiteral (photoAt (lit "/a?b")) = none ∧
    ¬ Confined noLiteral sampleMaster (photoAt (lit "/a%3Fb")) (photoAt (lit "/a?b")) := by
  have hmem : question ∈ photoAt (lit "/a?b") := by decide +kernel
  exact ⟨by decide +kernel, hmem, by decide +kernel, fun h => h.query hmem⟩

end PhotoKey
end Agregator
