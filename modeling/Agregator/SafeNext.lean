import Agregator.UrlOrigin
/-!
# SafeNext — where a login may lead

The gateway and the browser each check the destination of a login by its first two characters, before the parser of the browser
drops the tabs and newlines.
-/
namespace Agregator

open UrlOrigin

/-- `safeOAuthNext`. -/
def safeOAuthNext (raw : String) : String :=
  if raw = "" ∨ raw.toList[0]? ≠ some '/' then ""
  else if 1 < raw.length ∧ (raw.toList[1]? = some '/' ∨ raw.toList[1]? = some '\\') then ""
  else raw

/-- `safeNextPath`; a destination that is `null` or `undefined` is none. -/
def safeNextPath (raw : Option String) : Option String :=
  match raw with
  | none => none
  | some raw =>
    if raw = "" ∨ raw.toList[0]? ≠ some '/' then none
    else if 1 < raw.length ∧ (raw.toList[1]? = some '/' ∨ raw.toList[1]? = some '\\') then none
    else some raw

/-- A path that does not begin with two slashes. -/
structure SingleSlash (raw : String) : Prop where
  first : raw.toList[0]? = some '/'
  second : ∀ c, raw.toList[1]? = some c → isSlash c = false

/-- One of the checks lets a destination through. -/
def Accepted (raw : String) : Prop := safeOAuthNext raw ≠ "" ∨ (safeNextPath (some raw)).isSome

/-! ## What the checks let through -/

section Checks

variable {raw : String}

theorem SingleSlash.toList (h : SingleSlash raw) : ∃ l, raw.toList = '/' :: l ∧ ∀ c, l.head? = some c → isSlash c = false := by
  obtain ⟨hfirst, hsecond⟩ := h
  cases hl : raw.toList with
  | nil =>
    rw [hl] at hfirst
    cases hfirst
  | cons c l =>
    rw [hl] at hfirst hsecond
    cases hfirst
    refine ⟨l, rfl, fun d hd => hsecond d ?_⟩
    rw [List.getElem?_cons_succ, ← List.head?_eq_getElem?]
    exact hd

/-- What both checks look at. -/
theorem singleSlash_iff : (¬ (raw = "" ∨ raw.toList[0]? ≠ some '/') ∧
    ¬ (1 < raw.length ∧ (raw.toList[1]? = some '/' ∨ raw.toList[1]? = some '\\'))) ↔ SingleSlash raw := by
  constructor
  · rintro ⟨h0, h1⟩
    rw [not_or, ne_eq, not_not] at h0
    refine ⟨h0.2, fun c hc => ?_⟩
    by_contra hs
    simp only [isSlash, Bool.not_eq_false, Bool.or_eq_true, beq_iff_eq] at hs
    have hlen : 1 < raw.length := by
      rw [← String.length_toList]
      exact (List.getElem?_eq_some_iff.1 hc).1
    rcases hs with rfl | rfl
    · exact h1 ⟨hlen, .inl hc⟩
    · exact h1 ⟨hlen, .inr hc⟩
  · rintro ⟨h0, h1⟩
    refine ⟨?_, ?_⟩
    · rintro (rfl | h)
      · cases h0
      · exact h h0
    · rintro ⟨-, h | h⟩
      · exact absurd (h1 _ h) (by decide)
      · exact absurd (h1 _ h) (by decide)

/-- **The gateway lets through the paths of one slash**, as they are. -/
theorem safeOAuthNext_eq : safeOAuthNext raw = raw ∧ raw ≠ "" ↔ SingleSlash raw := by
  rw [← singleSlash_iff]
  unfold safeOAuthNext
  by_cases h0 : raw = "" ∨ raw.toList[0]? ≠ some '/'
  · rw [if_pos h0]
    exact ⟨fun h => absurd h.1.symm h.2, fun h => absurd h0 h.1⟩
  · have hne : raw ≠ "" := fun h => h0 (.inl h)
    rw [if_neg h0]
    by_cases h1 : 1 < raw.length ∧ (raw.toList[1]? = some '/' ∨ raw.toList[1]? = some '\\')
    · rw [if_pos h1]
      exact ⟨fun h => absurd h.1.symm h.2, fun h => absurd h1 h.2⟩
    · rw [if_neg h1]
      exact ⟨fun _ => ⟨h0, h1⟩, fun _ => ⟨rfl, hne⟩⟩

/-- **The browser lets through the same.** -/
theorem safeNextPath_isSome : (safeNextPath (some raw)).isSome ↔ SingleSlash raw := by
  rw [← singleSlash_iff]
  unfold safeNextPath
  simp only
  by_cases h0 : raw = "" ∨ raw.toList[0]? ≠ some '/'
  · rw [if_pos h0]
    exact ⟨fun h => absurd h (by simp), fun h => absurd h0 h.1⟩
  · rw [if_neg h0]
    by_cases h1 : 1 < raw.length ∧ (raw.toList[1]? = some '/' ∨ raw.toList[1]? = some '\\')
    · rw [if_pos h1]
      exact ⟨fun h => absurd h (by simp), fun h => absurd h1 h.2⟩
    · rw [if_neg h1]
      exact ⟨fun _ => ⟨h0, h1⟩, fun _ => rfl⟩

theorem safeOAuthNext_cases (raw : String) : safeOAuthNext raw = "" ∨ safeOAuthNext raw = raw := by
  unfold safeOAuthNext
  split_ifs
  · exact .inl rfl
  · exact .inl rfl
  · exact .inr rfl

theorem accepted_iff : Accepted raw ↔ SingleSlash raw := by
  unfold Accepted
  constructor
  · rintro (h | h)
    · have heq := (safeOAuthNext_cases raw).resolve_left h
      rw [heq] at h
      exact safeOAuthNext_eq.1 ⟨heq, h⟩
    · exact safeNextPath_isSome.1 h
  · intro h
    obtain ⟨heq, hne⟩ := safeOAuthNext_eq.2 h
    exact .inl (by rwa [heq])

end Checks

/-! ## Where it leads -/

section Leads

variable {H : Type} [DecidableEq H] {raw : String}

/-- **A destination that is let through stays on the site** just when no slash comes next after the tabs and newlines that follow
the first one, or what comes after the slashes is the site's own host and port. -/
theorem resolve_accepted_iff (P : Parser H) (site : Origin H) (h : Accepted raw) :
    P.resolve site raw = some site ↔ (firstVisible (raw.toList.drop 1)).any isSlash = false ∨
      P.authority site.scheme (authorityText (clean raw.toList)) = some (site.host, site.port) := by
  obtain ⟨l, hl, -⟩ := (accepted_iff.1 h).toList
  rw [P.resolve_slash site hl, hl, List.drop_one, List.tail_cons]

/-- A destination whose second character is no tab or newline stays on the site. -/
theorem resolve_plain (P : Parser H) (site : Origin H) (h : Accepted raw)
    (hplain : ∀ c, raw.toList[1]? = some c → isTabOrNewline c = false) : P.resolve site raw = some site := by
  obtain ⟨l, hl, hsecond⟩ := (accepted_iff.1 h).toList
  rw [P.resolve_slash site hl]
  cases l with
  | nil => exact .inl rfl
  | cons c l =>
    have hc : isTabOrNewline c = false := hplain c (by rw [hl]; rfl)
    have hfirst : firstVisible (c :: l) = some c := List.find?_cons_of_pos (by simp [hc])
    rw [hfirst, Option.any_some]
    exact .inl (hsecond c rfl)

end Leads

/-- A parser that takes every host for a domain. -/
def domainParser : Parser String := ⟨fun l => some (String.ofList (l.map Char.toLower)), fun _ => none⟩

/-- A query is a destination on the site. -/
theorem query_stays : domainParser.resolve ⟨.https, "site.example", none⟩ "/venues?city=moskva" = some ⟨.https, "site.example", none⟩ :=
  (resolve_accepted_iff domainParser ⟨.https, "site.example", none⟩ (.inl (by decide))).2 (.inl (by decide))

/-- A tab between two slashes leads to another site. -/
theorem tab_leads_away : ¬ ∀ (P : Parser String) (site : Origin String) (raw : String), Accepted raw →
    P.resolve site raw = some site := by
  intro hc
  have haway : domainParser.resolve ⟨.https, "site.example", none⟩ "/\t/evil.com" = some ⟨.https, "evil.com", none⟩ := by decide
  have hhome := hc domainParser ⟨.https, "site.example", none⟩ "/\t/evil.com" (.inl (by decide))
  rw [haway] at hhome
  exact absurd hhome (by decide)

end Agregator
