import Mathlib.Data.List.TakeWhile

/-!
A URL taken apart as `urllib.parse` does it: control characters and blanks at the
front are dropped and tabs and line ends anywhere, then a scheme is read if there is
one, then a network location behind two slashes. What stands in brackets in a network
location is checked by code for addresses, and what is not ASCII by its normal form;
both are parameters, as is the lower case. A URL is refused by `none`.
-/

namespace Keepup.Lib.UrlSplit

/-- The address in the brackets of a network location is valid, the normal form NFKC of a
text, and its lower case. -/
structure Checks where
  bracketed : List Char → Bool
  nfkc : List Char → List Char
  lower : List Char → List Char

/-- What they are for a text in ASCII, with valid addresses in brackets. -/
def Checks.ascii : Checks where
  bracketed _ := true
  nfkc := id
  lower := List.map Char.toLower

def isC0OrSpace (c : Char) : Bool := c.toNat ≤ 32

/-- A tab or a line end, which is removed wherever it stands. -/
def isUnsafe (c : Char) : Bool := c == '\t' || c == '\r' || c == '\n'

def clean (url : List Char) : List Char := (url.dropWhile isC0OrSpace).filter fun c => !isUnsafe c

def isSchemeChar (c : Char) : Bool := c.isAlphanum || c ∈ ['+', '-', '.']

/-- What stands before the first occurrence of a character, and what behind it. -/
def cutAt (c : Char) (l : List Char) : List Char × List Char :=
  (l.takeWhile (· != c), (l.dropWhile (· != c)).drop 1)

/-- The scheme, if there is one, and the rest. -/
def splitScheme (url : List Char) : List Char × List Char :=
  let (lead, rest) := cutAt ':' url
  if ':' ∈ url ∧ (lead.head?.any Char.isAlpha && lead.all isSchemeChar) = true then
    (lead.map Char.toLower, rest)
  else ([], url)

def endsNetloc (c : Char) : Bool := c == '/' || c == '?' || c == '#'

/-- The network location, behind two slashes, and the rest. -/
def splitNetloc : List Char → List Char × List Char
  | '/' :: '/' :: rest =>
      (rest.takeWhile fun c => !endsNetloc c, rest.dropWhile fun c => !endsNetloc c)
  | url => ([], url)

/-- No character that divides a URL comes out of the normal form. -/
def normalizes (k : Checks) (netloc : List Char) : Bool :=
  let n := netloc.filter fun c => c ∉ ['@', ':', '#', '?']
  netloc.all (fun c => c.toNat < 128) || k.nfkc n == n ||
    !(k.nfkc n).any fun c => c ∈ ['/', '?', '#', '@', ':']

def netlocValid (k : Checks) (netloc : List Char) : Bool :=
  netloc.contains '[' == netloc.contains ']' && (!netloc.contains '[' || k.bracketed netloc) &&
    normalizes k netloc

/-- The parameters, behind the first semicolon of the last segment. -/
def splitParams : List Char → List Char × List Char
  | [] => ([], [])
  | c :: path =>
      if c = ';' ∧ '/' ∉ path then ([], path)
      else (c :: (splitParams path).1, (splitParams path).2)

/-- The schemes whose URLs have parameters. -/
def usesParams : List (List Char) :=
  ["", "ftp", "hdl", "prospero", "http", "imap", "https", "shttp", "rtsp", "rtsps", "rtspu", "sip",
    "sips", "mms", "sftp", "tel"].map String.toList

structure ParseResult where
  scheme : List Char
  netloc : List Char
  path : List Char
  params : List Char
  query : List Char
  fragment : List Char

def urlparse (k : Checks) (url : List Char) : Option ParseResult :=
  let (scheme, afterScheme) := splitScheme (clean url)
  let (netloc, afterNetloc) := splitNetloc afterScheme
  let (beforeFragment, fragment) := cutAt '#' afterNetloc
  let (beforeQuery, query) := cutAt '?' beforeFragment
  let (path, params) := if scheme ∈ usesParams then splitParams beforeQuery else (beforeQuery, [])
  if netlocValid k netloc then some ⟨scheme, netloc, path, params, query, fragment⟩ else none

/-- The host of a network location: behind what says who asks, without a port. -/
def hostOf (netloc : List Char) : List Char :=
  let info := (netloc.reverse.takeWhile (· != '@')).reverse
  if '[' ∈ info then (cutAt ']' (cutAt '[' info).2).1 else (cutAt ':' info).1

/-- The host in lower case, but for the zone of an address. -/
def ParseResult.hostname (k : Checks) (parsed : ParseResult) : Option (List Char) :=
  let host := hostOf parsed.netloc
  if host = [] then none
  else some (k.lower (host.takeWhile (· != '%')) ++ host.dropWhile (· != '%'))

/-- The network location of a URL, empty if it has none. -/
def netlocOf (url : List Char) : List Char := (splitNetloc (splitScheme (clean url)).2).1

/-- The text begins with exactly one slash. -/
def OneSlash (l : List Char) : Prop := ∃ rest, l = '/' :: rest ∧ rest.head? ≠ some '/'

section Slash

variable {k : Checks} {url l : List Char} {parts : ParseResult}

theorem oneSlash_cons (c : Char) : OneSlash (c :: l) ↔ c = '/' ∧ l.head? ≠ some '/' := by
  constructor
  · rintro ⟨rest, hcons, hrest⟩
    obtain ⟨rfl, rfl⟩ := List.cons.inj hcons
    exact ⟨rfl, hrest⟩
  · rintro ⟨rfl, hrest⟩
    exact ⟨l, rfl, hrest⟩

theorem not_oneSlash_nil : ¬ OneSlash [] := by
  rintro ⟨rest, hnil, _⟩
  cases hnil

/-- Cutting a text off at another character leaves its slashes at the front. -/
theorem oneSlash_takeWhile {p : Char → Bool} (hslash : p '/' = true) :
    OneSlash (l.takeWhile p) ↔ OneSlash l := by
  cases l with
  | nil => exact Iff.rfl
  | cons c rest =>
      rw [List.takeWhile_cons]
      split
      · rw [oneSlash_cons, oneSlash_cons]
        refine and_congr_right fun _ => not_congr ?_
        cases rest with
        | nil => exact Iff.rfl
        | cons d more =>
            rw [List.takeWhile_cons]
            split
            · exact Iff.rfl
            · rename_i hd
              refine iff_of_false nofun fun h => hd ?_
              rw [Option.some.inj h, hslash]
      · rename_i hc
        refine iff_of_false not_oneSlash_nil fun h => hc ?_
        rw [((oneSlash_cons c).mp h).1, hslash]

theorem head?_splitParams (c : Char) (hc : c ≠ ';') (path : List Char) :
    (splitParams path).1.head? = some c ↔ path.head? = some c := by
  cases path with
  | nil => exact Iff.rfl
  | cons d rest =>
      rw [splitParams]
      split
      · rename_i hd
        refine iff_of_false nofun fun h => hc ?_
        rw [← Option.some.inj h, hd.1]
      · exact Iff.rfl

theorem oneSlash_splitParams : OneSlash (splitParams l).1 ↔ OneSlash l := by
  cases l with
  | nil => exact Iff.rfl
  | cons c rest =>
      rw [splitParams]
      split
      · rename_i hc
        refine iff_of_false not_oneSlash_nil fun h => ?_
        cases ((oneSlash_cons c).mp h).1.symm.trans hc.1
      · rw [oneSlash_cons, oneSlash_cons, ne_eq, head?_splitParams '/' (by decide)]

end Slash

section Parse

variable {k : Checks} {url : List Char} {parts : ParseResult}

theorem splitScheme_slash (rest : List Char) : splitScheme ('/' :: rest) = ([], '/' :: rest) := by
  have hlead : ('/' :: rest).takeWhile (· != ':') = '/' :: rest.takeWhile (· != ':') :=
    List.takeWhile_cons_of_pos (by decide)
  rw [splitScheme, cutAt, hlead]
  refine if_neg fun h => ?_
  have halpha := (Bool.and_eq_true_iff.mp h.2).1
  cases halpha

theorem splitScheme_nil (h : (splitScheme url).1 = []) : (splitScheme url).2 = url := by
  rw [splitScheme] at h ⊢
  dsimp only at h ⊢
  split at h
  · rename_i hscheme
    rw [List.map_eq_nil_iff.mp h] at hscheme
    simp at hscheme
  · rename_i hscheme
    rw [if_neg hscheme]

theorem urlparse_none_iff : urlparse k url = none ↔ netlocValid k (netlocOf url) = false := by
  rw [urlparse, netlocOf]
  dsimp only
  split
  · rename_i hvalid
    simp [hvalid]
  · rename_i hinvalid
    simpa using hinvalid

theorem splitNetloc_oneSlash_iff : (splitNetloc url).1 = [] ∧ OneSlash (splitNetloc url).2 ↔
    OneSlash url ∨ ∃ rest, url = '/' :: '/' :: rest ∧ OneSlash rest := by
  by_cases hdouble : ∃ rest, url = '/' :: '/' :: rest
  · obtain ⟨rest, rfl⟩ := hdouble
    have hnot : ¬ OneSlash ('/' :: '/' :: rest) := fun h => ((oneSlash_cons '/').mp h).2 rfl
    rw [splitNetloc]
    constructor
    · rintro ⟨hnetloc, hpath⟩
      have hrest : rest.takeWhile (fun c => !endsNetloc c) ++
        rest.dropWhile (fun c => !endsNetloc c) =
          rest := List.takeWhile_append_dropWhile
      dsimp only at hnetloc hpath
      rw [hnetloc, List.nil_append] at hrest
      rw [hrest] at hpath
      exact .inr ⟨rest, rfl, hpath⟩
    · rintro (h | ⟨more, hmore, hone⟩)
      · exact absurd h hnot
      · obtain rfl : rest = more := (List.cons.inj (List.cons.inj hmore).2).2
        obtain ⟨path, rfl, hpath⟩ := hone
        exact ⟨rfl, path, rfl, hpath⟩
  · have hsplit : splitNetloc url = ([], url) := by
      rw [splitNetloc]
      exact fun rest h => hdouble ⟨rest, h⟩
    rw [hsplit]
    constructor
    · exact fun h => .inl h.2
    · rintro (h | ⟨rest, hrest, _⟩)
      · exact ⟨rfl, h⟩
      · exact absurd ⟨rest, hrest⟩ hdouble

/-- A URL without a scheme and a network location, whose path begins with one slash:
either it begins so itself, or with three, which are an empty network location. -/
theorem urlparse_oneSlash_iff (h : urlparse k url = some parts) :
    parts.scheme = [] ∧ parts.netloc = [] ∧ OneSlash parts.path ↔
      OneSlash (clean url) ∨ ∃ rest, clean url = '/' :: '/' :: rest ∧ OneSlash rest := by
  have hparts : parts.scheme = (splitScheme (clean url)).1 ∧
      parts.netloc = (splitNetloc (splitScheme (clean url)).2).1 ∧
      (OneSlash parts.path ↔ OneSlash (splitNetloc (splitScheme (clean url)).2).2) := by
    rw [urlparse] at h
    dsimp only at h
    split at h
    · rw [← Option.some.inj h]
      refine ⟨rfl, rfl, ?_⟩
      have hcut : ∀ l, OneSlash (cutAt '?' (cutAt '#' l).1).1 ↔ OneSlash l := fun l =>
        (oneSlash_takeWhile (by decide)).trans (oneSlash_takeWhile (by decide))
      dsimp only
      split
      · rw [oneSlash_splitParams, hcut]
      · rw [hcut]
    · cases h
  obtain ⟨hscheme, hnetloc, hpath⟩ := hparts
  rw [hscheme, hnetloc, hpath, ← splitNetloc_oneSlash_iff]
  constructor
  · rintro ⟨hnone, hrest⟩
    rwa [splitScheme_nil hnone] at hrest
  · intro hrest
    obtain ⟨rest, hslash⟩ : ∃ rest, clean url = '/' :: rest := by
      rcases splitNetloc_oneSlash_iff.mp hrest with ⟨rest, hcons, _⟩ | ⟨rest, hcons, _⟩
      · exact ⟨rest, hcons⟩
      · exact ⟨'/' :: rest, hcons⟩
    rw [hslash] at hrest ⊢
    rw [splitScheme_slash]
    exact ⟨rfl, hrest⟩

end Parse

end Keepup.Lib.UrlSplit
