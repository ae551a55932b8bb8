import Keepup.Hosts.Check
import Mathlib.Data.List.TakeWhile

/-!
The two parsers for what `apt` prints: that of the package manager, for a host that
is reached over SSH, and that of the Proxmox client, for a container. They read the
lines differently, and on a listing as `apt` writes it they come to the same packages.
-/

namespace Keepup.Ssh

open Packages

section Output

/-- The fields of a line `name/suite version arch [upgradable from: old]`. -/
structure Upgrade where
  name : String
  suite : String
  version : String
  arch : String
  old : String
  words : ∀ field ∈ [name, suite, version, arch, old], Text.IsWord field
  slash : '/' ∉ name.toList

def Upgrade.text (u : Upgrade) : String :=
  u.name ++ ("/" ++ u.suite) ++ (" " ++ (u.version ++ (" " ++ (u.arch ++ (" " ++
    ("[upgradable" ++ (" " ++ ("from:" ++ (" " ++ (u.old ++ "]"))))))))))

/-- A line of the listing. -/
inductive ListingLine where
  | header (text : String) (lead : Text.startsWith text "Listing" = true)
      (plain : Text.isIn "[upgradable from:" text = false)
      (unbroken : ∀ c ∈ text.toList, Text.isLineBreak c = false)
  | blank (text : String) (spaces : ∀ c ∈ text.toList, Text.isSpace c = true)
      (unbroken : ∀ c ∈ text.toList, Text.isLineBreak c = false)
  | package (upgrade : Upgrade)

def ListingLine.text : ListingLine → String
  | .header text _ _ _ => text
  | .blank text _ _ => text
  | .package upgrade => upgrade.text

def sentinels : List String := ["__APPLY__", "__FULL__", "__REBOOT__"]

/-- What a simulation prints. -/
structure Simulation where
  text : String
  unmarked : ∀ m ∈ sentinels, ¬ m.toList <:+: text.toList

/-- What follows the listing: nothing but perhaps a line that is not ended, the
simulation of an upgrade, or that and the simulation of a full upgrade. -/
inductive Sections where
  | none (last : Option ListingLine)
  | apply (plan : Simulation)
  | full (plan : List Simulation) (fullPlan : Simulation)

/-- Each sentinel has a line of its own. -/
def Sections.lines : Sections → List String
  | .none _ => []
  | .apply _ => ["__APPLY__"]
  | .full plan _ => "__APPLY__" :: plan.map Simulation.text ++ ["__FULL__"]

def Sections.rest : Sections → String
  | .none last => (last.map ListingLine.text).getD ""
  | .apply plan => plan.text
  | .full _ fullPlan => fullPlan.text

structure CheckOutput where
  lines : List ListingLine
  sections : Sections

namespace CheckOutput

variable (o : CheckOutput)

def text : String :=
  Text.unlines (o.lines.map ListingLine.text ++ o.sections.lines) ++ o.sections.rest

/-- All the lines of the listing. -/
def listing : List ListingLine :=
  match o.sections with
  | .none (some line) => o.lines ++ [line]
  | _ => o.lines

end CheckOutput

/-- No name begins as a header does, and no line holds a sentinel that ends the listing. -/
structure Plain (lines : List ListingLine) : Prop where
  names : ∀ u, .package u ∈ lines → Text.startsWith u.name "Listing" = false
  unmarked : ∀ line ∈ lines, ∀ m ∈ ["__APPLY__", "__REBOOT__"], ¬ m.toList <:+: line.text.toList

end Output

section Rows

variable {u : Upgrade} {l rest part : List Char}

/-- The search for the last occurrence goes on behind any character. -/
theorem filter_tails_append (h : ∀ t, t <:+ rest → ¬ part <+: t) (c : Char)
    (hlead : part <+: c :: rest) :
    ((l ++ c :: rest).tails.filter part.isPrefixOf).getLast? = some (c :: rest) := by
  induction l with
  | nil =>
      have hnone : rest.tails.filter part.isPrefixOf = [] := by
        rw [List.filter_eq_nil_iff]
        intro t ht
        rw [List.isPrefixOf_iff_prefix]
        exact h t ((List.mem_tails _ _).mp ht)
      rw [List.nil_append, List.tails_cons, List.filter_cons_of_pos, hnone]
      · rfl
      · rwa [List.isPrefixOf_iff_prefix]
  | cons d l ih =>
      rw [List.cons_append, List.tails_cons, List.filter_cons]
      split
      · rw [List.getLast?_cons, ih]
        rfl
      · exact ih

theorem afterLast_old (pre : String) {old : String} (hold : Text.IsWord old) :
    afterLast "upgradable from:" (pre ++ ("upgradable from:" ++ (" " ++ (old ++ "]")))) =
      " " ++ (old ++ "]") := by
  have hword : Text.IsWord (old ++ "]") := hold.append (by decide)
  have hnone : ∀ t, t <:+ "pgradable from:".toList ++ ' ' :: (old ++ "]").toList →
      ¬ "upgradable from:".toList <+: t := by
    rintro t ⟨lead, happend⟩ ⟨more, rfl⟩
    rcases List.append_eq_append_iff.mp happend with ⟨early, hearly, htext⟩ | ⟨late, hlate, htext⟩
    · -- behind its first letter the text has no other `u`
      cases early with
      | nil => simp at htext
      | cons d early =>
          have hd : d = 'u' := (List.cons.inj htext).1.symm
          have hmem : d ∈ "pgradable from:".toList := by rw [hearly]; simp
          exact absurd (hd ▸ hmem) (by decide)
    · -- and the old version has no blank
      cases late with
      | nil => simp at htext
      | cons d late =>
          have hmem : ' ' ∈ (old ++ "]").toList := by
            rw [(List.cons.inj htext).2]
            simp
          exact absurd (hword.solid ' ' hmem) (by decide)
  have hlist : (pre ++ ("upgradable from:" ++ (" " ++ (old ++ "]")))).toList =
      pre.toList ++ 'u' :: ("pgradable from:".toList ++ ' ' :: (old ++ "]").toList) := by
    simp
  have hlead : "upgradable from:".toList <+:
      'u' :: ("pgradable from:".toList ++ ' ' :: (old ++ "]").toList) :=
    List.prefix_append "upgradable from:".toList _
  rw [afterLast, hlist, filter_tails_append hnone 'u' hlead]
  apply String.toList_inj.mp
  simp

namespace Upgrade

variable (u)

theorem isWord {field : String} (h : field ∈ [u.name, u.suite, u.version, u.arch, u.old]) :
    Text.IsWord field := u.words field h

/-- The first word of the line. -/
theorem slashed_isWord : Text.IsWord (u.name ++ ("/" ++ u.suite)) :=
  (u.isWord (by simp)).append (Text.IsWord.append (by decide) (u.isWord (by simp)))

theorem split_text : Text.split u.text =
    [u.name ++ ("/" ++ u.suite), u.version, u.arch, "[upgradable", "from:", u.old ++ "]"] := by
  have hopen : Text.IsWord "[upgradable" := by decide
  have hfrom : Text.IsWord "from:" := by decide
  have hold : Text.IsWord (u.old ++ "]") := (u.isWord (by simp)).append (by decide)
  rw [text, Text.split_word u.slashed_isWord, Text.split_word (u.isWord (by simp)),
    Text.split_word (u.isWord (by simp)), Text.split_word hopen, Text.split_word hfrom,
    Text.split_last hold]

theorem strip_text : Text.strip u.text = u.text := by
  have hold : Text.IsWord (u.old ++ "]") := (u.isWord (by simp)).append (by decide)
  have hrow : u.text = (u.name ++ ("/" ++ u.suite)) ++
    ((" " ++ (u.version ++ (" " ++ (u.arch ++ (" " ++
      ("[upgradable" ++ (" " ++ ("from:" ++ " ")))))))) ++ (u.old ++ "]")) := by
    apply String.toList_inj.mp
    simp [text]
  rw [hrow]
  exact Text.strip_between u.slashed_isWord _ hold

/-- The line up to the word before the old version. -/
def lead : String := u.name ++ ("/" ++ u.suite) ++ (" " ++ (u.version ++ (" " ++ (u.arch ++ " "))))

theorem text_eq_bracket : u.text = u.lead ++ ("[upgradable from:" ++ (" " ++ (u.old ++ "]"))) := by
  apply String.toList_inj.mp
  simp [text, lead]

theorem text_eq_from : u.text =
    u.lead ++ "[" ++ ("upgradable from:" ++ (" " ++ (u.old ++ "]"))) := by
  apply String.toList_inj.mp
  simp [text, lead]

theorem before_text (rest : String) : Text.before '/' (u.name ++ ("/" ++ rest)) = u.name :=
  Text.before_append u.slash rest

theorem startsWith_text (h : Text.startsWith u.name "Listing" = false) :
    Text.startsWith u.text "Listing" = false := by
  rw [← Bool.not_eq_true, Text.startsWith, List.isPrefixOf_iff_prefix] at h ⊢
  intro hlead
  have hlist : u.text.toList = u.name.toList ++ '/' :: (u.suite ++ (" " ++ (u.version ++ (" " ++
      (u.arch ++ (" " ++
          ("[upgradable" ++ (" " ++ ("from:" ++ (" " ++ (u.old ++ "]"))))))))))).toList := by
    simp [text]
  rw [hlist] at hlead
  exact h (Text.prefix_of_prefix_append (by decide) hlead)

end Upgrade

/-- Both parsers read the line of a package alike. -/
theorem package_agrees (plans : Plans) (hname : Text.startsWith u.name "Listing" = false) :
    lxcPackage plans u.text = aptPackage plans u.text := by
  have hin : Text.isIn "[upgradable from:" u.text = true := by
    rw [u.text_eq_bracket]
    exact Text.isIn_append _ _
  have hfrom : Text.isIn "upgradable from:" u.text = true := by
    rw [u.text_eq_from]
    exact Text.isIn_append _ _
  have hskip : ¬ (u.text = "" ∨ Text.startsWith u.text "Listing" = true) := by
    rintro (hempty | hlead)
    · exact Text.append_ne_empty u.slashed_isWord.nonempty _ hempty
    · rw [u.startsWith_text hname] at hlead
      cases hlead
  have hbefore : Text.before '/' u.text = u.name := by
    rw [Upgrade.text, String.append_assoc, String.append_assoc]
    exact u.before_text _
  have hafter : Text.strip (afterLast "upgradable from:" u.text) = u.old ++ "]" := by
    have hold : Text.IsWord (u.old ++ "]") := (u.isWord (by simp)).append (by decide)
    have hstrip := Text.strip_surrounded " " "" (by decide) hold (by decide)
    rw [String.append_empty] at hstrip
    rw [u.text_eq_from, afterLast_old _ (u.isWord (by simp)), hstrip]
  rw [lxcPackage, u.strip_text, if_neg hskip, u.split_text, aptPackage, if_pos hin, u.split_text]
  simp [hbefore, u.before_text, hfrom, hafter]

/-- Neither takes any other line for a package. -/
theorem line_agrees (plans : Plans) {line : ListingLine}
    (h : ∀ u, line = .package u → Text.startsWith u.name "Listing" = false) :
    lxcPackage plans line.text = aptPackage plans line.text := by
  cases line with
  | header text lead plain unbroken =>
      have hstrip : Text.startsWith (Text.strip text) "Listing" = true :=
        Text.startsWith_strip (by decide) lead
      rw [ListingLine.text, lxcPackage, if_pos (.inr hstrip), aptPackage, plain]
      rfl
  | blank text spaces unbroken =>
      have hbracket : '[' ∉ text.toList := by
        intro hmem
        exact absurd (spaces '[' hmem) (by decide)
      have hin : Text.isIn "[upgradable from:" text = false :=
        Text.isIn_eq_false (by decide) hbracket
      have hstrip : Text.strip text = "" := Text.strip_spaces spaces
      rw [ListingLine.text, lxcPackage, hstrip, if_pos (.inl rfl), aptPackage, hin]
      rfl
  | package upgrade => exact package_agrees plans (h upgrade rfl)

end Rows

section Parts

theorem Upgrade.unbroken (u : Upgrade) : ∀ c ∈ u.text.toList, Text.isLineBreak c = false := by
  have hfield : ∀ field ∈ [u.name, u.suite, u.version, u.arch, u.old], ∀ c ∈ field.toList,
      Text.isLineBreak c = false := fun field h => (u.words field h).unbroken
  -- The text between the fields, whose characters are looked at one by one.
  have hfixed : ∀ text : String, text.toList.all (fun c => !Text.isLineBreak c) = true →
      ∀ c ∈ text.toList, Text.isLineBreak c = false := by
    intro text h
    simpa using h
  simp only [Upgrade.text, String.toList_append, List.forall_mem_append]
  exact ⟨⟨hfield _ (by simp), hfixed _ rfl, hfield _ (by simp)⟩, hfixed _ rfl, hfield _ (by simp),
    hfixed _ rfl, hfield _ (by simp), hfixed _ rfl, hfixed _ rfl, hfixed _ rfl, hfixed _ rfl,
    hfixed _ rfl, hfield _ (by simp), hfixed _ rfl⟩

theorem ListingLine.unbroken (line : ListingLine) :
    ∀ c ∈ line.text.toList, Text.isLineBreak c = false := by
  cases line with
  | header text lead plain unbroken => exact unbroken
  | blank text spaces unbroken => exact unbroken
  | package upgrade => exact upgrade.unbroken

theorem mem_splitLines_unbroken {s l : String} (hs : ∀ c ∈ s.toList, Text.isLineBreak c = false)
    (hl : l ∈ Text.splitLines s) : l = s := by
  rw [Text.splitLines, Text.splitLinesChars_unbroken hs] at hl
  split at hl
  · cases hl
  · simpa using hl

end Parts

section Sections

variable {o : CheckOutput} (hplain : Plain o.listing)

/-- The lines that are ended are all of the listing or all but the last. -/
theorem CheckOutput.lines_subset (o : CheckOutput) : o.lines ⊆ o.listing := by
  rw [CheckOutput.listing]
  split
  · exact List.subset_append_left _ _
  · exact List.Subset.refl _

include hplain

theorem lines_unmarked (mark : String) (hmark : mark ∈ ["__APPLY__", "__REBOOT__"]) :
    ∀ l ∈ o.lines.map ListingLine.text, ¬ mark.toList <:+: l.toList := by
  intro l hl
  obtain ⟨line, hline, rfl⟩ := List.mem_map.mp hl
  exact hplain.unmarked line (o.lines_subset hline) mark hmark

/-- What the sections hold is free of a sentinel that is not theirs. -/
theorem rest_unmarked (mark : String) (hmark : mark ∈ ["__APPLY__", "__REBOOT__"]) :
    ¬ mark.toList <:+: o.sections.rest.toList := by
  have hsentinel : mark ∈ sentinels := List.Sublist.subset (by decide) hmark
  cases hsections : o.sections with
  | none line =>
      cases line with
      | none =>
          have hempty : ¬ mark.toList <:+: [] := by
            rw [List.infix_nil]
            rcases List.mem_pair.mp hmark with rfl | rfl <;> decide
          exact hempty
      | some line =>
          have hlast : line ∈ o.listing := by simp [CheckOutput.listing, hsections]
          exact hplain.unmarked line hlast mark hmark
  | apply plan => exact plan.unmarked mark hsentinel
  | full plan fullPlan => exact fullPlan.unmarked mark hsentinel

/-- The parser of the package manager finds no section about a reboot. -/
theorem rebootSection_text : rebootSection o.text = (o.text, false) := by
  have hlines : ∀ l ∈ o.lines.map ListingLine.text ++ o.sections.lines,
      ¬ "__REBOOT__".toList <:+: l.toList := by
    intro l hl
    rcases List.mem_append.mp hl with hlisted | hsection
    · exact lines_unmarked hplain _ (by simp) l hlisted
    · cases hsections : o.sections with
      | none line => simp [hsections, Sections.lines] at hsection
      | apply plan =>
          rw [hsections, Sections.lines, List.mem_singleton] at hsection
          rw [hsection]
          decide
      | full plan fullPlan =>
          rw [hsections, Sections.lines, List.mem_append, List.mem_cons, List.mem_singleton]
            at hsection
          rcases hsection with (rfl | hplan) | rfl
          · decide
          · obtain ⟨simulation, _, rfl⟩ := List.mem_map.mp hplan
            exact simulation.unmarked _ (by decide)
          · decide
  rw [rebootSection, CheckOutput.text, Text.cut_unlines_append (by decide) (by decide) hlines,
    Text.cut_none (by decide) (rest_unmarked hplain _ (by simp))]
  rfl

/-- Both cut the listing off where it ends. -/
theorem mem_splitLines_listing {l : String} (hl : l ∈ Text.splitLines (aptPlans o.text).1) :
    ∃ line ∈ o.listing, line.text = l := by
  have hunmarked := lines_unmarked hplain "__APPLY__" (by simp)
  have hunbroken : ∀ l ∈ o.lines.map ListingLine.text, ∀ c ∈ l.toList, Text.isLineBreak c =
      false := by
    intro l hl
    obtain ⟨line, _, rfl⟩ := List.mem_map.mp hl
    exact line.unbroken
  have hlisted : ∀ after, l ∈
    Text.splitLines (aptPlans (Text.unlines (o.lines.map ListingLine.text) ++
      ("__APPLY__" ++ after))).1 → ∃ line ∈ o.listing, line.text = l := by
    intro after h
    have hfirst : (aptPlans (Text.unlines (o.lines.map ListingLine.text) ++
      ("__APPLY__" ++ after))).1 =
        Text.unlines (o.lines.map ListingLine.text) := by
      rw [aptPlans, Text.cut_unlines (by decide) (by decide) hunmarked]
      dsimp only
      split <;> rfl
    rw [hfirst, Text.splitLines_unlines hunbroken] at h
    obtain ⟨line, hline, rfl⟩ := List.mem_map.mp h
    exact ⟨line, o.lines_subset hline, rfl⟩
  have hrest := Text.cut_none (by decide) (rest_unmarked hplain "__APPLY__" (by simp))
  rw [CheckOutput.text, Text.unlines_append, String.append_assoc] at hl
  cases hsections : o.sections with
  | none last =>
      -- without a section the whole output is the listing
      rw [hsections, Sections.lines, Text.unlines_nil, String.empty_append] at hl
      rw [hsections] at hrest
      rw [aptPlans, Text.cut_unlines_append (by decide) (by decide) hunmarked,
        hrest, Option.map_none] at hl
      dsimp only at hl
      rw [Text.splitLines_unlines_append _ hunbroken] at hl
      rcases List.mem_append.mp hl with hended | hlast
      · obtain ⟨line, hline, rfl⟩ := List.mem_map.mp hended
        exact ⟨line, o.lines_subset hline, rfl⟩
      · cases last with
        | none => cases hlast
        | some line =>
            refine ⟨line, by simp [CheckOutput.listing, hsections], ?_⟩
            exact (mem_splitLines_unbroken line.unbroken hlast).symm
  | apply plan =>
      rw [hsections, Sections.lines, Text.unlines_cons, String.append_assoc] at hl
      exact hlisted _ hl
  | full plan fullPlan =>
      rw [hsections, Sections.lines, List.cons_append, Text.unlines_cons, String.append_assoc] at hl
      exact hlisted _ hl

end Sections

/-- The two parsers read the same packages from an output in which no name begins as a
header does and no line of the listing holds a sentinel that ends it. -/
theorem parsers_agree (o : CheckOutput) (hplain : Plain o.listing) :
    (aptParse o.text).1 = lxcParse o.text := by
  rw [aptParse, rebootSection_text hplain, lxcParse]
  apply List.filterMap_congr
  intro l hl
  obtain ⟨line, hline, rfl⟩ := mem_splitLines_listing hplain hl
  refine (line_agrees _ fun u hu => ?_).symm
  exact hplain.names u (hu ▸ hline)

/-- A package with an update, of the given name and architecture. -/
def upgradeOf (name arch : String) (hname : Text.IsWord name) (hslash : '/' ∉ name.toList)
    (harch : Text.IsWord arch) : Upgrade where
  name := name
  suite := "stable"
  version := "2"
  arch := arch
  old := "1"
  words := by
    simp only [List.forall_mem_cons]
    exact ⟨hname, by decide, by decide, harch, by decide, by simp⟩
  slash := hslash

def listed (upgrade : Upgrade) : CheckOutput :=
  ⟨[.package upgrade], .apply ⟨"Inst curl [1] (2 stable [amd64])", by decide⟩⟩

def curl : Upgrade := upgradeOf "curl" "amd64" (by decide) (by decide) (by decide)

theorem parsers_agree_curl : (aptParse (listed curl).text).1 = lxcParse (listed curl).text := by
  refine parsers_agree (listed curl) ⟨fun u hu => ?_, fun line hline m hm => ?_⟩
  · obtain rfl : u = curl := ListingLine.package.inj (List.mem_singleton.mp hu)
    decide
  · rw [List.mem_singleton.mp hline]
    rcases List.mem_pair.mp hm with rfl | rfl <;> decide +kernel

/-- A container's package is skipped when its name begins as the header does, and a field
that holds a sentinel ends the listing, for one parser in the middle of a line. -/
theorem parsers_differ :
    (∃ u : Upgrade, u.text = "Listing-x/stable 2 amd64 [upgradable from: 1]" ∧
      (aptParse (listed u).text).1 ≠ lxcParse (listed u).text) ∧
    (∃ u : Upgrade, u.text = "a/stable 2 __APPLY__ [upgradable from: 1]" ∧
      (aptParse (listed u).text).1 ≠ lxcParse (listed u).text) ∧
    ∃ u : Upgrade, u.text = "a/stable 2 __REBOOT__ [upgradable from: 1]" ∧
      (aptParse (listed u).text).1 ≠ lxcParse (listed u).text := by
  refine ⟨⟨upgradeOf "Listing-x" "amd64" (by decide) (by decide) (by decide), by decide +kernel,
    by decide +kernel⟩, ⟨upgradeOf "a" "__APPLY__" (by decide) (by decide) (by decide),
      by decide +kernel,
    by decide +kernel⟩, ⟨upgradeOf "a" "__REBOOT__" (by decide) (by decide) (by decide),
    by decide +kernel, by decide +kernel⟩⟩

end Keepup.Ssh
