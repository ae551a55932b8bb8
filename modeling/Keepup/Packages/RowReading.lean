import Keepup.Packages.Listings

/-!
What the parsers make of single lines: each one reads a package back from the
line it was printed on, with the name that decides whether it is a kernel.
-/

namespace Keepup.Packages

open Lib

section Kernel

/-- The name on a line is that of a kernel package, as far as the parser sees. -/
def kernelLine (parse : String → Option Package) (line : String) : Bool :=
  (parse line).elim false fun p => isKernelPackage p.name

theorem kernelUpdateIn_filterMap (parse : String → Option Package) (lines : List String) :
    kernelUpdateIn (lines.filterMap parse) = lines.any (kernelLine parse) := by
  induction lines with
  | nil => rfl
  | cons line lines ih =>
      cases hparse : parse line with
      | none => simpa [kernelLine, hparse] using ih
      | some p => simpa [kernelUpdateIn, kernelLine, hparse]
          using congrArg (isKernelPackage p.name || ·) ih

/-- The names of kernel packages begin with a `k` or an `l`. -/
theorem kernel_head {name : String} (h : isKernelPackage name = true) :
    name.toList.head? = some 'k' ∨ name.toList.head? = some 'l' := by
  simp only [isKernelPackage, Bool.or_eq_true, List.contains_eq_mem, decide_eq_true_eq] at h
  rcases h with ((h | h) | h) | h
  · have hall : kernelNames.all (fun name => name.toList.head? = some 'l') = true := by decide
    simpa using Or.inr (List.all_eq_true.mp hall name h)
  · exact .inl (Text.startsWith_head h (by decide))
  · exact .inr (Text.startsWith_head h (by decide))
  · exact .inr (Text.startsWith_head h (by decide))

/-- A line that a parser skips for how it begins names no kernel package. -/
theorem not_kernel_of_startsWith {line lead name : String}
    (hline : Text.startsWith line lead = true)
    (hlead : lead.toList.head?.any (fun c => c ≠ 'k' ∧ c ≠ 'l') = true)
    (hname : name.toList.head? = line.toList.head?) : isKernelPackage name = false := by
  have hne : lead ≠ "" := by
    rintro rfl
    simp at hlead
  rw [Text.startsWith_head hline hne] at hname
  by_contra hkernel
  rcases kernel_head (by simpa using hkernel) with h | h <;> simp [← hname, h] at hlead

end Kernel

section NameVersion

variable {cs n v : List Char} {d : Char}

theorem splitVersion_some (h : splitVersion cs = some (n, v)) :
    cs = n ++ '-' :: v ∧ n ≠ [] ∧ ∃ d ds, v = d :: ds ∧ d.isDigit = true := by
  induction cs using splitVersion.induct generalizing n v with
  | case1 c d cs hd =>
      rw [splitVersion, if_pos hd] at h
      cases h
      exact ⟨rfl, by simp, d, cs, rfl, hd⟩
  | case2 c d cs hd ih =>
      rw [splitVersion, if_neg hd] at h
      obtain ⟨parts, hparts, hcons⟩ := Option.map_eq_some_iff.mp h
      cases hcons
      obtain ⟨hsplit, _, hdigit⟩ := ih hparts
      exact ⟨by rw [hsplit]; rfl, by simp, hdigit⟩
  | case3 c cs hother ih =>
      rw [splitVersion.eq_2 _ _ hother] at h
      obtain ⟨parts, hparts, hcons⟩ := Option.map_eq_some_iff.mp h
      cases hcons
      obtain ⟨hsplit, _, hdigit⟩ := ih hparts
      exact ⟨by rw [hsplit]; rfl, by simp, hdigit⟩
  | case4 => simp [splitVersion] at h

/-- The name ends after its first character, or later. -/
theorem splitVersion_cons (c : Char) (cs : List Char) :
    (∃ v, splitVersion (c :: cs) = some ([c], v)) ∨
      splitVersion (c :: cs) = (splitVersion cs).map fun parts => (c :: parts.1, parts.2) := by
  by_cases hdash : ∃ d ds, cs = '-' :: d :: ds
  · obtain ⟨d, ds, rfl⟩ := hdash
    rw [splitVersion]
    split
    · exact .inl ⟨d :: ds, rfl⟩
    · exact .inr rfl
  · exact .inr (splitVersion.eq_2 c cs fun d ds h => hdash ⟨d, ds, h⟩)

/-- There is no earlier place at which a name could end. -/
theorem splitVersion_first (hn : n ≠ []) (hd : d.isDigit = true) :
    ∃ parts, splitVersion (n ++ '-' :: d :: v) = some parts ∧ parts.1.length ≤ n.length := by
  induction n with
  | nil => exact absurd rfl hn
  | cons c n ih =>
      cases n with
      | nil => exact ⟨([c], d :: v), by simp [splitVersion, hd], by simp⟩
      | cons c' n =>
          obtain ⟨parts, hparts, hle⟩ := ih (by simp)
          rcases splitVersion_cons c (c' :: n ++ '-' :: d :: v) with ⟨v', hnow⟩ | hlater
          · exact ⟨([c], v'), hnow, by simp⟩
          · rw [hparts] at hlater
            exact ⟨_, hlater, by simpa using hle⟩

theorem nameVersion_head (s : String) :
    (nameVersion s).1.toList.head? = s.toList.head? := by
  rw [nameVersion]
  cases hsplit : splitVersion s.toList with
  | none => rfl
  | some parts =>
      obtain ⟨hlist, hne, _⟩ := splitVersion_some hsplit
      rw [hlist, List.head?_append_of_ne_nil _ hne]
      simp

/-- A text in which no name ends before a version stays whole. -/
theorem prefix_splitVersion {lead : List Char} (hlead : splitVersion lead = none)
    (hlast : lead.getLast? ≠ some '-') (hcs : lead <+: cs) (h : splitVersion cs = some (n, v)) :
    lead <+: n := by
  obtain ⟨hsplit, hne, d, ds, hv, hd⟩ := splitVersion_some h
  have hn : n <+: cs := by rw [hsplit]; exact List.prefix_append n _
  rcases List.prefix_or_prefix_of_prefix hcs hn with hle | ⟨t, ht⟩
  · exact hle
  obtain ⟨post, hpost⟩ := hcs
  rw [← ht, hsplit, List.append_assoc, List.append_cancel_left_eq, hv] at hpost
  cases t with
  | nil => simp [← ht]
  | cons e t =>
      simp only [List.cons_append, List.cons.injEq] at hpost
      obtain ⟨rfl, hrest⟩ := hpost
      cases t with
      | nil => simp [← ht] at hlast
      | cons e' t =>
          simp only [List.cons_append, List.cons.injEq] at hrest
          obtain ⟨rfl, _⟩ := hrest
          obtain ⟨parts, hparts, _⟩ := splitVersion_first (v := t) hne hd
          rw [ht, hlead] at hparts
          cases hparts

/-- The parser recognizes the kernel packages of Alpine by their names. -/
theorem kernel_nameVersion {name current : String} (h : isKernelPackage name = true)
    (hcurrent : ∃ d ds, current.toList = d :: ds ∧ d.isDigit = true) :
    isKernelPackage (nameVersion (name ++ "-" ++ current)).1 = true := by
  obtain ⟨d, ds, hdigits, hd⟩ := hcurrent
  have hname : name.toList ≠ [] := by
    rcases kernel_head h with hhead | hhead <;> exact fun hnil => by simp [hnil] at hhead
  have hlist : (name ++ "-" ++ current).toList = name.toList ++ '-' :: d :: ds := by simp [hdigits]
  obtain ⟨parts, hparts, hle⟩ := splitVersion_first (v := ds) hname hd
  have hread : (nameVersion (name ++ "-" ++ current)).1 = String.ofList parts.1 := by
    simp [nameVersion, hlist, hparts]
  have hkeep : ∀ lead : String, splitVersion lead.toList = none → lead.toList.getLast? ≠ some '-' →
      lead.toList <+: name.toList → lead.toList <+: parts.1 := by
    intro lead hnone hlast hlead
    have hcs : lead.toList <+: name.toList ++ '-' :: d :: ds :=
      hlead.trans (List.prefix_append _ _)
    exact prefix_splitVersion hnone hlast hcs hparts
  have hstarts : ∀ lead : String, splitVersion lead.toList = none →
    lead.toList.getLast? ≠ some '-' →
      Text.startsWith name lead = true →
        Text.startsWith (nameVersion (name ++ "-" ++ current)).1 lead = true := by
    intro lead hnone hlast hlead
    rw [hread, Text.startsWith, String.toList_ofList, List.isPrefixOf_iff_prefix]
    exact hkeep lead hnone hlast (List.isPrefixOf_iff_prefix.mp hlead)
  simp only [isKernelPackage, Bool.or_eq_true, List.contains_eq_mem, decide_eq_true_eq] at h ⊢
  rcases h with ((h | h) | h) | h
  · have hall : kernelNames.all (fun name =>
        splitVersion name.toList = none ∧ name.toList.getLast? ≠ some '-') = true := by decide
    have hplain := List.all_eq_true.mp hall name h
    simp only [decide_eq_true_eq] at hplain
    have hkept := hkeep name hplain.1 hplain.2 List.prefix_rfl
    have heq : parts.1 = name.toList := (hkept.eq_of_length_le hle).symm
    exact .inl (.inl (.inl (by rwa [hread, heq, String.ofList_toList])))
  · exact .inl (.inl (.inr (hstarts "kernel" (by decide) (by decide) h)))
  · exact .inl (.inr (hstarts "linux-image" (by decide) (by decide) h))
  · exact .inr (hstarts "linux-headers" (by decide) (by decide) h)

end NameVersion

section Rows

variable (p : Pending)

theorem dnfRow_read : kernelLine dnfPackage p.dnfRow = isKernelPackage p.name.text := by
  have hdot : Text.IsWord "." := by decide
  have hnameArch : Text.IsWord (p.name.text ++ "." ++ p.arch.text) :=
    (p.name.isWord.append hdot).append p.arch.isWord
  have hstrip : Text.strip p.dnfRow = p.dnfRow := by
    have := Text.strip_between hnameArch
      (Text.blanks (p.gap + 1) ++ (p.available.text ++ Text.blanks (p.gap + 1))) p.origin.isWord
    simpa [Pending.dnfRow, String.append_assoc] using this
  have hhead : p.name.text.toList.head? = p.dnfRow.toList.head? := by
    rw [Pending.dnfRow, String.append_assoc, String.append_assoc, Text.head_append p.name.nonempty]
  have hsplit : Text.split p.dnfRow =
      [p.name.text ++ "." ++ p.arch.text, p.available.text, p.origin.text] := by
    rw [Pending.dnfRow, Text.split_column _ hnameArch, Text.split_column _ p.available.isWord,
      Text.split_last p.origin.isWord]
  have hbefore : Text.beforeLast '.' (p.name.text ++ "." ++ p.arch.text) = p.name.text := by
    have := Text.beforeLast_append (a := p.name.text) p.arch_plain
    simpa [String.append_assoc] using this
  rw [kernelLine, dnfPackage, hstrip]
  split
  case isTrue hskip =>
    rcases hskip with hempty | hlead | hlead
    · exact absurd hempty (Text.append_ne_empty hnameArch.nonempty _)
    · exact (not_kernel_of_startsWith hlead (by decide) hhead).symm
    · exact (not_kernel_of_startsWith hlead (by decide) hhead).symm
  case isFalse => simp [hsplit, hbefore]

theorem zypperRow_read : kernelLine zypperPackage p.zypperRow = isKernelPackage p.name.text := by
  have hbar : ∀ t : Token, '|' ∉ (p.cell t).toList := by
    intro t hmem
    rw [Pending.cell, String.toList_append, String.toList_append] at hmem
    simp only [Text.blanks, String.toList_ofList, List.mem_append, List.mem_replicate] at hmem
    rcases hmem with (hmem | hmem) | hmem
    · exact absurd hmem (by decide)
    · exact absurd (t.plain _ hmem) (by decide)
    · exact absurd hmem.2 (by decide)
  have hstrip : ∀ t : Token, Text.strip (p.cell t) = t.text := fun t =>
    Text.strip_padded t.isWord _
  have hpieces : Text.splitOn '|' p.zypperRow = ["v ", p.cell p.origin, p.cell p.name,
      p.cell p.current, p.cell p.available, p.cell p.arch] := by
    have hrow : p.zypperRow = "v " ++ ("|" ++ (p.cell p.origin ++ ("|" ++ (p.cell p.name ++ ("|" ++
        (p.cell p.current ++ ("|" ++ (p.cell p.available ++ ("|" ++ p.cell p.arch))))))))) := by
      simp [Pending.zypperRow, String.append_assoc, ← String.toList_inj]
    have hlead : '|' ∉ "v ".toList := by decide
    have hsep : "|" = String.ofList ['|'] := rfl
    rw [hrow, hsep, Text.splitOn_piece hlead, Text.splitOn_piece (hbar _),
      Text.splitOn_piece (hbar _),
      Text.splitOn_piece (hbar _), Text.splitOn_piece (hbar _), Text.splitOn_last (hbar _)]
  have hv : Text.strip "v " = "v" := by decide
  rw [kernelLine, zypperPackage, hpieces]
  simp [hstrip, hv, p.name.nonempty, p.available.nonempty]

theorem pacmanRow_read : kernelLine pacmanPackage p.pacmanRow = isKernelPackage p.name.text := by
  have harrow : Text.IsWord "->" := by decide
  have hignored : Text.IsWord "[ignored]" := by decide
  have hstrip : Text.strip p.pacmanRow = p.pacmanRow := by
    cases happlies : p.applies
    · have hrow : p.pacmanRow = p.name.text ++
          (" " ++ p.current.text ++ " -> " ++ p.available.text ++ " " ++ "[ignored]") := by
        apply String.toList_inj.mp
        simp [Pending.pacmanRow, happlies]
      rw [hrow]
      exact Text.strip_between p.name.isWord _ hignored
    · have hrow : p.pacmanRow = p.name.text ++
          ((" " ++ p.current.text ++ " -> ") ++ p.available.text) := by
        apply String.toList_inj.mp
        simp [Pending.pacmanRow, happlies]
      rw [hrow]
      exact Text.strip_between p.name.isWord _ p.available.isWord
  have hsplit : ∃ more, Text.split p.pacmanRow =
      p.name.text :: p.current.text :: "->" :: p.available.text :: more := by
    rw [Pending.pacmanRow, Text.split_word p.name.isWord, Text.split_word p.current.isWord,
      Text.split_word harrow]
    cases p.applies
    · have hblank : " [ignored]" = " " ++ "[ignored]" := rfl
      exact ⟨["[ignored]"], by
        simp only [Bool.false_eq_true, if_false, hblank, Text.split_word p.available.isWord,
          Text.split_last hignored]⟩
    · exact ⟨[], by simp [Text.split_last p.available.isWord]⟩
  have hin : Text.isIn "->" p.pacmanRow = true := by
    have hrow : p.pacmanRow = (p.name.text ++ " " ++ p.current.text ++ " ") ++ ("->" ++ (" " ++
        (p.available.text ++ if p.applies then "" else " [ignored]"))) := by
      simp only [Pending.pacmanRow, String.append_assoc]
    rw [hrow]
    exact Text.isIn_append _ _
  have hhead : p.name.text.toList.head? = p.pacmanRow.toList.head? := by
    rw [Pending.pacmanRow, Text.head_append p.name.nonempty]
  obtain ⟨more, hsplit⟩ := hsplit
  rw [kernelLine, pacmanPackage, hstrip]
  split
  case isTrue hskip =>
    rcases hskip with hempty | hlead | hmissing
    · exact absurd hempty (Text.append_ne_empty p.name.nonempty _)
    · exact (not_kernel_of_startsWith hlead (by decide) hhead).symm
    · simp [hin] at hmissing
  case isFalse => simp [hsplit]

theorem apkRow_read : kernelLine apkPackage p.apkRow =
    isKernelPackage (nameVersion (p.name.text ++ "-" ++ p.current.text)).1 := by
  have hsign : Text.IsWord "<" := by decide
  have hdash : Text.IsWord "-" := by decide
  have hpkgVer : Text.IsWord (p.name.text ++ "-" ++ p.current.text) :=
    (p.name.isWord.append hdash).append p.current.isWord
  have hstrip : Text.strip p.apkRow = p.apkRow := by
    have := Text.strip_between hpkgVer
      (Text.blanks (p.gap + 1) ++ ("<" ++ Text.blanks (p.gap + 1))) p.available.isWord
    simpa [Pending.apkRow, String.append_assoc] using this
  have hsplit : Text.split p.apkRow =
      [p.name.text ++ "-" ++ p.current.text, "<", p.available.text] := by
    rw [Pending.apkRow, Text.split_column _ hpkgVer, Text.split_column _ hsign,
      Text.split_last p.available.isWord]
  have hin : Text.isIn "<" p.apkRow = true := by
    rw [Pending.apkRow, ← String.append_assoc]
    exact Text.isIn_append _ _
  have hhead : (nameVersion (p.name.text ++ "-" ++ p.current.text)).1.toList.head? =
      p.apkRow.toList.head? := by
    rw [nameVersion_head, Pending.apkRow, Text.head_append hpkgVer.nonempty]
  rw [kernelLine, apkPackage, hstrip]
  split
  case isTrue hskip =>
    rcases hskip with hmissing | hlead | hlead
    · simp [hin] at hmissing
    · exact (not_kernel_of_startsWith hlead (by decide) hhead).symm
    · exact (not_kernel_of_startsWith hlead (by decide) hhead).symm
  case isFalse => simp [hsplit]

theorem aptPackage_notice (plans : Plans) {line : String} (hline : '[' ∉ line.toList) :
    aptPackage plans line = none := by
  have hin : Text.isIn "[upgradable from:" line = false := Text.isIn_eq_false (by decide) hline
  simp [aptPackage, hin]

end Rows

section Apt

variable {native name suite version arch old : String}

/-- A listed package is read with its name and the verdict on that name. -/
theorem aptLine_read (plans : Plans) (hname : '/' ∉ name.toList) : ∃ q,
    aptPackage plans (aptLine name suite version arch old) = some q ∧ q.name = name ∧
      q.heldBack = some (plans.heldBack name) ∧ q.heldBackReason = plans.reason name := by
  have hin : Text.isIn "[upgradable from:" (aptLine name suite version arch old) = true := by
    have hrow : aptLine name suite version arch old =
      (name ++ "/" ++ suite ++ " " ++ version ++ " " ++
        arch ++ " ") ++ ("[upgradable from:" ++ (" " ++ old ++ "]")) := by
      simp [aptLine, ← String.toList_inj]
    rw [hrow]
    exact Text.isIn_append _ _
  have hbefore : Text.before '/' (aptLine name suite version arch old) = name := by
    rw [aptLine, String.append_assoc, String.append_assoc, String.append_assoc,
      String.append_assoc, String.append_assoc, String.append_assoc, String.append_assoc]
    exact Text.before_append hname _
  exact ⟨_, by rw [aptPackage, if_pos hin], hbefore, by rw [hbefore], by rw [hbefore]⟩

/-- A simulation is read to install what it labels. -/
theorem instLine_read (hname : Text.IsWord name) (harch : Text.IsWord arch) :
    instName (instLine native name suite version arch old) = some (aptLabel native name arch) := by
  have hlabel : Text.IsWord (aptLabel native name arch) := by
    rw [aptLabel]
    split
    · exact hname.append (Text.IsWord.append (by decide) harch)
    · exact hname
  have hinst : Text.IsWord "Inst" := by decide
  have hend : Text.IsWord "])" := by decide
  have hstrip : Text.strip (instLine native name suite version arch old) =
      instLine native name suite version arch old := by
    have hrow : instLine native name suite version arch old = "Inst" ++ ((" " ++
        aptLabel native name arch ++ " [" ++ old ++ "] (" ++ version ++
          " " ++ suite ++ " [" ++ arch) ++
          "])") := by
      simp [instLine, ← String.toList_inj]
    rw [hrow]
    exact Text.strip_between hinst _ hend
  have hstarts : Text.startsWith (instLine native name suite version arch old) "Inst " = true := by
    have hrow : instLine native name suite version arch old =
      "Inst " ++ (aptLabel native name arch ++
        " [" ++ old ++ "] (" ++ version ++ " " ++ suite ++ " [" ++ arch ++ "])") := by
      simp [instLine, ← String.toList_inj]
    rw [hrow]
    exact Text.startsWith_append _ _
  rw [instName, hstrip, if_pos hstarts, instLine, Text.split_word hinst, Text.split_word hlabel]
  rfl

theorem notice_instName (notice : Notice) : instName notice.text = none := by
  simp [instName, notice.notInst]

end Apt

end Keepup.Packages
