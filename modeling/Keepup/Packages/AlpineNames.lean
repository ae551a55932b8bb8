import Keepup.Packages.RowReading

/-!
The lines of `apk version`. Name and installed version are parted by a `-`, and names may hold
others. The parser takes the first one with a digit behind it, and passes over lines that begin
as its notices do. The main theorem says which updates are read back as they were written.
-/

namespace Keepup.Packages

section Update

def isAlpineChar (c : Char) : Bool := c.isAlphanum || "._+-".toList.contains c

/-- A package of Alpine with an update. The installed version is `<digit>…-r<number>`, with no
other `-`; a repository may follow. -/
structure AlpineUpdate where
  name : String
  stem : String
  revision : Nat
  available : String
  repository : Option String
  name_ne : name ≠ ""
  name_chars : ∀ c ∈ name.toList, isAlpineChar c = true
  stem_digit : ∃ d ds, stem.toList = d :: ds ∧ d.isDigit = true
  stem_word : Text.IsWord stem
  stem_free : '-' ∉ stem.toList
  available_word : Text.IsWord available
  repository_line : ∀ c ∈ (repository.getD "").toList, Text.isLineBreak c = false

namespace AlpineUpdate

variable (u : AlpineUpdate)

def current : String := u.stem ++ ("-r" ++ toString u.revision)

def suffix : String := u.repository.elim "" fun repository => " [" ++ repository ++ "]"

/-- A line `name-version < new [repo]`. -/
def line : String :=
  (u.name ++ ("-" ++ u.current)) ++ (" " ++ ("<" ++ (" " ++ (u.available ++ u.suffix))))

def package : Package where
  name := u.name
  current := u.current
  available := u.available

/-- The name does not begin as a notice does, and only its first character may be a `-` with
a digit behind it. -/
structure Legible : Prop where
  fetch : Text.startsWith u.name "fetch" = false
  ok : Text.startsWith u.name "OK" = false
  dashes : ∀ pre d post, u.name.toList = pre ++ '-' :: d :: post → d.isDigit = true → pre = []

end AlpineUpdate

end Update

section Split

variable {n v : List Char} {d : Char}

/-- A name is found if and only if no earlier `-` has a digit behind it. -/
theorem splitVersion_eq_iff (hn : n ≠ []) (hd : d.isDigit = true) :
    splitVersion (n ++ '-' :: d :: v) = some (n, d :: v) ↔
      ∀ pre e post, n = pre ++ '-' :: e :: post → e.isDigit = true → pre = [] := by
  constructor
  · intro hsplit pre e post hpre he
    by_contra hne
    obtain ⟨parts, hparts, hle⟩ := splitVersion_first (v := post ++ '-' :: d :: v) hne he
    have hearly : n ++ '-' :: d :: v = pre ++ '-' :: e :: (post ++ '-' :: d :: v) := by simp [hpre]
    rw [hearly, hparts, Option.some.injEq] at hsplit
    have hlength := congrArg List.length hpre
    simp only [List.length_append, List.length_cons] at hlength
    rw [hsplit] at hle
    dsimp only at hle
    omega
  · intro hfirst
    obtain ⟨⟨name, version⟩, hparts, hle⟩ := splitVersion_first (v := v) hn hd
    obtain ⟨hsplit, hname, e, es, hversion, he⟩ := splitVersion_some hparts
    rcases List.append_eq_append_iff.mp hsplit with ⟨more, hmore, hrest⟩ | ⟨more, hmore, hrest⟩
    · -- the parts are no longer than what was joined
      have hnil : more = [] := by
        have hlength := congrArg List.length hmore
        simp only [List.length_append] at hlength
        dsimp only at hle
        exact List.length_eq_zero_iff.mp (by omega)
      subst hnil
      rw [List.append_nil] at hmore
      have hsame := (List.cons.inj hrest).2
      rw [hparts, hmore, hsame]
    · cases more with
      | nil =>
          rw [List.append_nil] at hmore
          have hsame := (List.cons.inj hrest).2
          rw [hparts, ← hmore, hsame]
      | cons c more =>
          -- a `-` of the name would have a digit behind it
          obtain ⟨rfl, htail⟩ := List.cons.inj hrest
          cases more with
          | nil =>
              rw [hversion] at htail
              obtain ⟨rfl, -⟩ := List.cons.inj htail
              exact absurd he (by decide)
          | cons f more =>
              rw [hversion] at htail
              obtain ⟨rfl, -⟩ := List.cons.inj htail
              exact absurd (hfirst name e more hmore he) hname

end Split

namespace AlpineUpdate

variable (u : AlpineUpdate)

theorem name_isWord : Text.IsWord u.name := by
  refine ⟨u.name_ne, fun c hc => ?_⟩
  have hchar : isTokenChar c = true := by
    have hc := u.name_chars c hc
    simp only [isAlpineChar, isTokenChar, Bool.or_eq_true, List.contains_eq_mem,
      decide_eq_true_eq] at hc ⊢
    rcases hc with halnum | hpunct
    · exact .inl halnum
    · have hall : ∀ c ∈ "._+-".toList, c ∈ "+-._~:^@,=%/".toList := by decide
      exact .inr (hall c hpunct)
  have hrange := tokenChar_toNat hchar
  simp only [Text.isSpace, Bool.or_eq_false_iff, Bool.and_eq_false_iff, decide_eq_false_iff_not,
    beq_eq_false_iff_ne]
  omega

theorem current_isWord : Text.IsWord u.current :=
  u.stem_word.append (Text.IsWord.append (by decide) (Text.toString_isWord u.revision))

theorem nameVersion_iff :
    nameVersion (u.name ++ ("-" ++ u.current)) = (u.name, u.current) ↔
      ∀ pre d post, u.name.toList = pre ++ '-' :: d :: post → d.isDigit = true → pre = [] := by
  obtain ⟨d, ds, hstem, hd⟩ := u.stem_digit
  have hcurrent : u.current.toList = d :: (ds ++ ("-r" ++ toString u.revision).toList) := by
    rw [current, String.toList_append, hstem, List.cons_append]
  have hlist : (u.name ++ ("-" ++ u.current)).toList =
      u.name.toList ++ '-' :: d :: (ds ++ ("-r" ++ toString u.revision).toList) := by
    rw [String.toList_append, String.toList_append, hcurrent]
    rfl
  rw [← splitVersion_eq_iff u.name_isWord.toList_ne_nil hd, ← hlist, ← hcurrent, nameVersion]
  constructor
  · intro h
    cases hsplit : splitVersion (u.name ++ ("-" ++ u.current)).toList with
    | none =>
        rw [hsplit] at h
        have hlength := congrArg (fun parts => parts.1.toList.length) h
        simp at hlength
    | some parts =>
        rw [hsplit] at h
        obtain ⟨hname, hversion⟩ := Prod.mk.inj h
        rw [← hname, ← hversion, String.toList_ofList, String.toList_ofList]
  · intro h
    rw [h]
    simp only [String.ofList_toList]

/-- The line begins as a notice if and only if the name does. -/
theorem startsWith_line {lead : String} (hlead : '-' ∉ lead.toList) :
    Text.startsWith u.line lead = Text.startsWith u.name lead := by
  have hlist : u.line.toList = u.name.toList ++ '-' :: (u.current ++ (" " ++ ("<" ++ (" " ++
      (u.available ++ u.suffix))))).toList := by
    simp only [line, String.toList_append, List.append_assoc]
    rfl
  rw [Bool.eq_iff_iff, Text.startsWith, Text.startsWith, List.isPrefixOf_iff_prefix,
    List.isPrefixOf_iff_prefix, hlist]
  exact ⟨Text.prefix_of_prefix_append hlead, fun h => h.trans (List.prefix_append _ _)⟩

theorem strip_line : Text.strip u.line = u.line := by
  have hpkgVer : Text.IsWord (u.name ++ ("-" ++ u.current)) :=
    u.name_isWord.append (Text.IsWord.append (by decide) u.current_isWord)
  cases hrepository : u.repository with
  | none =>
      have hrow : u.line = (u.name ++ ("-" ++ u.current)) ++ (" < " ++ u.available) := by
        apply String.toList_inj.mp
        simp [line, suffix, hrepository]
      rw [hrow]
      exact Text.strip_between hpkgVer _ u.available_word
  | some repository =>
      have hclose : Text.IsWord "]" := by decide
      have hrow : u.line = (u.name ++ ("-" ++ u.current)) ++
          ((" < " ++ u.available ++ " [" ++ repository) ++ "]") := by
        apply String.toList_inj.mp
        simp [line, suffix, hrepository]
      rw [hrow]
      exact Text.strip_between hpkgVer _ hclose

theorem split_line : ∃ more,
    Text.split u.line = (u.name ++ ("-" ++ u.current)) :: "<" :: u.available :: more := by
  have hpkgVer : Text.IsWord (u.name ++ ("-" ++ u.current)) :=
    u.name_isWord.append (Text.IsWord.append (by decide) u.current_isWord)
  have hsign : Text.IsWord "<" := by decide
  rw [line, Text.split_word hpkgVer, Text.split_word hsign, suffix]
  cases u.repository with
  | none => exact ⟨[], by rw [Option.elim_none, String.append_empty,
      Text.split_last u.available_word]⟩
  | some repository =>
      refine ⟨Text.split ("[" ++ (repository ++ "]")), ?_⟩
      have hblank : " [" ++ repository ++ "]" = " " ++ ("[" ++ (repository ++ "]")) := by
        apply String.toList_inj.mp
        simp
      rw [Option.elim_some, hblank, Text.split_word u.available_word]

/-- A line is read as its package, as another one, or not at all. -/
theorem apkPackage_line : apkPackage u.line =
    if Text.startsWith u.name "fetch" = true ∨ Text.startsWith u.name "OK" = true then none
    else some {
      name := (nameVersion (u.name ++ ("-" ++ u.current))).1
      current := (nameVersion (u.name ++ ("-" ++ u.current))).2
      available := u.available } := by
  have hin : Text.isIn "<" u.line = true := by
    rw [line, ← String.append_assoc]
    exact Text.isIn_append _ _
  obtain ⟨more, hsplit⟩ := u.split_line
  rw [apkPackage, u.strip_line, hin, u.startsWith_line (by decide),
    u.startsWith_line (by decide), hsplit]
  simp

theorem unbroken : ∀ c ∈ u.line.toList, Text.isLineBreak c = false := by
  have hfixed : ∀ text ∈ ["-", " ", "<", " [", "]"], ∀ c ∈ text.toList, Text.isLineBreak c =
      false := by
    decide
  have hsuffix : ∀ c ∈ u.suffix.toList, Text.isLineBreak c = false := by
    have hrepository := u.repository_line
    rw [suffix]
    cases hcase : u.repository with
    | none => simp
    | some repository =>
        rw [hcase, Option.getD_some] at hrepository
        exact Text.unbroken_append (Text.unbroken_append (hfixed _ (by simp)) hrepository)
          (hfixed _ (by simp))
  have hnew := Text.unbroken_append u.available_word.unbroken hsuffix
  have hsign := Text.unbroken_append (hfixed "<" (by simp))
    (Text.unbroken_append (hfixed " " (by simp)) hnew)
  have hcurrent := Text.unbroken_append (hfixed "-" (by simp)) u.current_isWord.unbroken
  exact Text.unbroken_append (Text.unbroken_append u.name_isWord.unbroken hcurrent)
    (Text.unbroken_append (hfixed " " (by simp)) hsign)

theorem apkPackage_iff : apkPackage u.line = some u.package ↔ u.Legible := by
  rw [apkPackage_line]
  constructor
  · intro h
    split at h
    · cases h
    · next hlead =>
        obtain ⟨hname, hcurrent, -, -, -⟩ := Package.mk.inj (Option.some.inj h)
        simp only [not_or, Bool.not_eq_true] at hlead
        exact ⟨hlead.1, hlead.2, u.nameVersion_iff.mp (Prod.ext hname hcurrent)⟩
  · intro h
    rw [u.nameVersion_iff.mpr h.dashes]
    simp [h.fetch, h.ok, package]

end AlpineUpdate

section Listing

variable {α β : Type} {f : α → Option β} {g : α → β} {l : List α}

/-- A reader that may pass over things gives all of them if and only if it reads each one. -/
theorem filterMap_eq_map_iff : l.filterMap f = l.map g ↔ ∀ x ∈ l, f x = some (g x) := by
  induction l with
  | nil => simp
  | cons x l ih =>
      cases hx : f x with
      | none =>
          have hshort : (l.filterMap f).length < ((x :: l).map g).length := by
            rw [List.length_map, List.length_cons]
            exact Nat.lt_succ_of_le (List.length_filterMap_le f l)
          rw [List.filterMap_cons_none hx]
          constructor
          · intro h
            rw [h] at hshort
            exact absurd hshort (lt_irrefl _)
          · intro h
            simpa [hx] using h x List.mem_cons_self
      | some y =>
          rw [List.filterMap_cons_some hx, List.map_cons, List.cons.injEq,
            ih, List.forall_mem_cons, hx,
            Option.some.injEq]

theorem apkParse_packages (stdout : String) :
    (apkParse stdout).1 = (Text.splitLines stdout).filterMap apkPackage := rfl

/-- A line is read back as its name and its two versions if and only if it is legible. -/
theorem apk_line_iff (u : AlpineUpdate) : (apkParse u.line).1 = [u.package] ↔ u.Legible := by
  have hline : u.line.toList ≠ [] := by
    rw [AlpineUpdate.line, String.toList_append, String.toList_append]
    exact List.append_ne_nil_of_left_ne_nil
      (List.append_ne_nil_of_left_ne_nil u.name_isWord.toList_ne_nil _) _
  have hsplit : Text.splitLines u.line = [u.line] := by
    rw [Text.splitLines, Text.splitLinesChars_unbroken u.unbroken, if_neg hline, List.map_singleton,
      String.ofList_toList]
  have hread : [u.line].filterMap apkPackage = [u.line].map (fun _ => u.package) ↔ _ :=
    filterMap_eq_map_iff
  rw [List.forall_mem_singleton, u.apkPackage_iff] at hread
  rw [apkParse_packages, hsplit]
  exact hread

/-- Of a whole listing everything is read back if and only if every line is legible. -/
theorem apk_listing_iff (updates : List AlpineUpdate) :
    (apkParse (Text.unlines (updates.map AlpineUpdate.line))).1 = updates.map AlpineUpdate.package ↔
      ∀ u ∈ updates, u.Legible := by
  have hunbroken : ∀ l ∈ updates.map AlpineUpdate.line, ∀ c ∈ l.toList, Text.isLineBreak c =
      false := by
    intro l hl
    obtain ⟨u, _, rfl⟩ := List.mem_map.mp hl
    exact u.unbroken
  rw [apkParse_packages, Text.splitLines_unlines hunbroken, List.filterMap_map,
    filterMap_eq_map_iff]
  simp only [Function.comp_apply, AlpineUpdate.apkPackage_iff]

def fontPackage : AlpineUpdate where
  name := "font-adobe-100dpi"
  stem := "1.0.3"
  revision := 2
  available := "1.0.4-r0"
  repository := some "community"
  name_ne := by decide
  name_chars := by decide
  stem_digit := ⟨'1', ".0.3".toList, by decide, by decide⟩
  stem_word := by decide
  stem_free := by decide
  available_word := by decide
  repository_line := by decide

/-- A component of a name that starts with a digit is taken for the version. -/
theorem font_name_cut : (apkParse fontPackage.line).1 ≠ [fontPackage.package] ∧
    (apkParse fontPackage.line).1 =
      [⟨"font-adobe", "100dpi-1.0.3-r2", "1.0.4-r0", none, none⟩] := by
  constructor <;> decide +kernel

end Listing

end Keepup.Packages
