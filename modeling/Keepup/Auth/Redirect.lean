import Keepup.Lib.UrlSplit

/-!
The page to which a login leads. The target comes from the request, is checked by the
parts into which `urllib.parse` takes it, and is handed on as it was.
-/

namespace Keepup.Redirect

open Lib.UrlSplit

/-- `path.startswith("/") and not path.startswith("//")`. -/
def startsOnce (path : List Char) : Bool := ['/'].isPrefixOf path && !(['/', '/'].isPrefixOf path)

/-- The redirect target, `none` where the URL is refused with an exception. -/
def safeNextUrl (k : Checks) (url : String) : Option String :=
  if url = "" then some "/home"
  else (urlparse k url.toList).map fun parsed =>
    if parsed.scheme ≠ [] ∨ parsed.netloc ≠ [] then "/home"
    else if startsOnce parsed.path = false then "/home"
    else if '\\' ∈ url.toList then "/home"
    else url

/-- Without tabs and line ends, the target begins with one slash, and no second slash or
backslash follows. -/
def OnSite (target : String) : Prop :=
  ∃ rest, target.toList.filter (fun c => !isUnsafe c) = '/' :: rest ∧
    rest.head? ≠ some '/' ∧ rest.head? ≠ some '\\'

/-- The network location is one that the parser accepts, and a URL without a backslash
does not begin with three slashes, nor with a control character or a blank before its one
slash. -/
structure Harmless (k : Checks) (url : String) : Prop where
  accepted : netlocValid k (netlocOf url.toList) = true
  slashes : '\\' ∉ url.toList →
    ¬ ∃ rest, clean url.toList = '/' :: '/' :: rest ∧ OneSlash rest
  bare : '\\' ∉ url.toList → OneSlash (clean url.toList) →
    ∀ c ∈ url.toList.takeWhile isC0OrSpace, isUnsafe c = true

section Target

variable {k : Checks} {url : String} {parsed : ParseResult}

theorem startsOnce_iff {path : List Char} : startsOnce path = true ↔ OneSlash path := by
  cases path with
  | nil => exact iff_of_false nofun not_oneSlash_nil
  | cons c rest =>
      have hfirst : (['/'].isPrefixOf (c :: rest) = true) ↔ c = '/' := by
        rw [List.isPrefixOf_cons_cons, List.isPrefixOf_nil_left, Bool.and_true, beq_iff_eq, eq_comm]
      have hsecond : ['/'].isPrefixOf rest = true ↔ rest.head? = some '/' := by
        cases rest with
        | nil => exact iff_of_false nofun nofun
        | cons d more =>
            rw [List.isPrefixOf_cons_cons, List.isPrefixOf_nil_left,
              Bool.and_true, beq_iff_eq, List.head?_cons,
              Option.some_inj, eq_comm]
      rw [oneSlash_cons, startsOnce, Bool.and_eq_true, hfirst]
      refine and_congr_right fun hc => ?_
      rw [hc, List.isPrefixOf_cons_cons, beq_self_eq_true, Bool.true_and, Bool.not_eq_true', ne_eq,
        ← hsecond, Bool.not_eq_true]

theorem onSite_home : OnSite "/home" := ⟨"home".toList, by decide, by decide, by decide⟩

/-- What is left of a URL without its tabs and line ends. -/
theorem filter_url (url : String) : url.toList.filter (fun c => !isUnsafe c) =
    (url.toList.takeWhile isC0OrSpace).filter (fun c => !isUnsafe c) ++ clean url.toList := by
  rw [clean, ← List.filter_append, List.takeWhile_append_dropWhile]

/-- A control character or a blank that stays at the front is no slash. -/
theorem onSite_bare (h : OnSite url) :
    ∀ c ∈ url.toList.takeWhile isC0OrSpace, isUnsafe c = true := by
  obtain ⟨rest, hrest, -, -⟩ := h
  rw [filter_url] at hrest
  cases hlead : (url.toList.takeWhile isC0OrSpace).filter (fun c => !isUnsafe c) with
  | nil => simpa using hlead
  | cons c more =>
      have hc : c ∈ url.toList.takeWhile isC0OrSpace := by
        have hmem : c ∈ (url.toList.takeWhile isC0OrSpace).filter fun c => !isUnsafe c := by
          rw [hlead]
          exact List.mem_cons_self
        exact (List.mem_filter.mp hmem).1
      have hspace := List.mem_takeWhile_imp hc
      rw [hlead] at hrest
      rw [(List.cons.inj hrest).1] at hspace
      exact absurd hspace (by decide)

/-- A target that is handed on as it was. -/
theorem onSite_iff (hplain : '\\' ∉ url.toList) (honce : OneSlash (clean url.toList) ∨
      ∃ rest, clean url.toList = '/' :: '/' :: rest ∧ OneSlash rest) :
    OnSite url ↔ (¬ ∃ rest, clean url.toList = '/' :: '/' :: rest ∧ OneSlash rest) ∧
      ∀ c ∈ url.toList.takeWhile isC0OrSpace, isUnsafe c = true := by
  constructor
  · intro h
    have hbare := onSite_bare h
    refine ⟨?_, hbare⟩
    rintro ⟨more, hmore, _⟩
    obtain ⟨rest, hrest, hslash, _⟩ := h
    rw [filter_url, List.filter_eq_nil_iff.mpr (by simpa using hbare), List.nil_append, hmore]
      at hrest
    rw [← (List.cons.inj hrest).2] at hslash
    exact hslash rfl
  · rintro ⟨hslashes, hbare⟩
    obtain ⟨rest, hrest, hslash⟩ := honce.resolve_right hslashes
    have hfilter : url.toList.filter (fun c => !isUnsafe c) = '/' :: rest := by
      rw [filter_url, List.filter_eq_nil_iff.mpr (by simpa using hbare), List.nil_append, hrest]
    refine ⟨rest, hfilter, hslash, fun hback => hplain ?_⟩
    have hmem : '\\' ∈ url.toList.filter fun c => !isUnsafe c := by
      rw [hfilter]
      exact List.mem_cons_of_mem _ (List.mem_of_head? hback)
    exact (List.mem_filter.mp hmem).1

/-- A URL that is parsed. -/
theorem safeNextUrl_some_iff (hne : url ≠ "") (hparsed : urlparse k url.toList = some parsed) :
    (∃ target, safeNextUrl k url = some target ∧ OnSite target) ↔ Harmless k url := by
  have haccepted : netlocValid k (netlocOf url.toList) = true := by
    by_contra hinvalid
    have hnone := urlparse_none_iff.mpr (Bool.not_eq_true _ ▸ hinvalid)
    cases hnone.symm.trans hparsed
  have hone := urlparse_oneSlash_iff hparsed
  rw [safeNextUrl, if_neg hne, hparsed, Option.map_some]
  have htarget : ∀ result, (∃ target, some result = some target ∧ OnSite target) ↔
      OnSite result := by
    intro result
    constructor
    · rintro ⟨target, hsome, hsite⟩
      exact Option.some.inj hsome ▸ hsite
    · exact fun hsite => ⟨result, rfl, hsite⟩
  rw [htarget]
  -- where the target is the home page, there is nothing to ask of the URL
  have hhome : (¬ ('\\' ∉ url.toList ∧ (OneSlash (clean url.toList) ∨
      ∃ rest, clean url.toList = '/' :: '/' :: rest ∧ OneSlash rest))) → Harmless k url := by
    intro hnot
    refine ⟨haccepted, fun hplain hslashes => hnot ⟨hplain, .inr hslashes⟩,
      fun hplain hslash => absurd ⟨hplain, .inl hslash⟩ hnot⟩
  by_cases hreturned : '\\' ∉ url.toList ∧ (OneSlash (clean url.toList) ∨
      ∃ rest, clean url.toList = '/' :: '/' :: rest ∧ OneSlash rest)
  · obtain ⟨hplain, honce⟩ := hreturned
    obtain ⟨hscheme, hnetloc, hpath⟩ := hone.mpr honce
    rw [if_neg (by simp [hscheme, hnetloc]), if_neg (by simp [startsOnce_iff.mpr hpath]),
      if_neg hplain,
      onSite_iff hplain honce]
    constructor
    · exact fun h => ⟨haccepted, fun _ => h.1, fun _ _ => h.2⟩
    · intro h
      exact ⟨h.slashes hplain, h.bare hplain (honce.resolve_right (h.slashes hplain))⟩
  · refine iff_of_true ?_ (hhome hreturned)
    split
    · exact onSite_home
    · rename_i hparts
      obtain ⟨hscheme, hnetloc⟩ := not_or.mp hparts
      split
      · exact onSite_home
      · rename_i hpath
        split
        · exact onSite_home
        · rename_i hplain
          refine absurd ⟨hplain, hone.mp ⟨not_not.mp hscheme, not_not.mp hnetloc, ?_⟩⟩ hreturned
          exact startsOnce_iff.mp (by simpa using hpath)

end Target

/-- A login leads to a page of the site exactly if the target is harmless. -/
theorem redirect_on_site_iff (k : Checks) (url : String) :
    (∃ target, safeNextUrl k url = some target ∧ OnSite target) ↔ Harmless k url := by
  by_cases hne : url = ""
  · subst hne
    refine iff_of_true ⟨"/home", rfl, onSite_home⟩ ⟨rfl, fun _ => ?_, fun _ => ?_⟩
    · rintro ⟨rest, hnil, _⟩
      cases hnil
    · exact fun h => absurd h not_oneSlash_nil
  · cases hparsed : urlparse k url.toList with
    | some parsed => exact safeNextUrl_some_iff hne hparsed
    | none =>
        refine iff_of_false ?_ fun h => ?_
        · rintro ⟨target, htarget, _⟩
          rw [safeNextUrl, if_neg hne, hparsed] at htarget
          cases htarget
        · have hinvalid := urlparse_none_iff.mp hparsed
          cases h.accepted.symm.trans hinvalid

/-- Three slashes are handed on, though a browser takes what follows them for a host, and
a bracket that is not closed raises. -/
theorem three_slashes_leave :
    safeNextUrl .ascii "///evil.com" = some "///evil.com" ∧ ¬ OnSite "///evil.com" ∧
      safeNextUrl .ascii "//[x" = none ∧
      safeNextUrl .ascii " /home" = some " /home" ∧ ¬ OnSite " /home" := by
  refine ⟨by decide +kernel, ?_, by decide +kernel, by decide +kernel, ?_⟩
  · rintro ⟨rest, hrest, hslash, _⟩
    have hfilter : "///evil.com".toList.filter (fun c => !isUnsafe c) =
        '/' :: "//evil.com".toList := by
      decide
    rw [hfilter] at hrest
    rw [← (List.cons.inj hrest).2] at hslash
    exact hslash rfl
  · rintro ⟨rest, hrest, _⟩
    have hfilter : " /home".toList.filter (fun c => !isUnsafe c) =
      ' ' :: "/home".toList := by decide
    rw [hfilter] at hrest
    exact absurd (List.cons.inj hrest).1 (by decide)

end Keepup.Redirect
