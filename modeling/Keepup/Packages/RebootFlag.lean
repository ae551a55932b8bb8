import Keepup.Packages.RowReading

/-!
The reboot flag of an update check. What `list_cmd` prints is cut at its
markers into the sections it was put together from, so the flag that `parse`
returns is the answer it takes from the reboot probe, or a kernel package among
those it counts. The main theorem says for which machines that is the truth.
-/

namespace Keepup.Packages

open Lib

section Listing

def yesNo (b : Bool) : String := if b then "yes" else "no"

/-- The lines of the refresh before a listing. -/
def Machine.synced {pm : Supported} (m : Machine pm) (refresh : Bool) : List String :=
  if refresh then m.notices.map Notice.text else []

theorem synced_isLine {pm : Supported} (m : Machine pm) (refresh : Bool) :
    ∀ l ∈ m.synced refresh, IsLine l := by
  cases refresh
  · simp [Machine.synced]
  · simpa [Machine.synced] using m.notices_isLine

/-- What `apt` lists and plans stands in one text, with a marker before each section. -/
theorem apt_outcome {env : Script.Env} {synced rows plan full : List String} (refresh : Bool)
    (hsynced : (env "apt-get update -qq").out = Text.unlines synced)
    (hrows : (env "apt list --upgradable").out = Text.unlines rows)
    (hplan : (env "apt-get -s upgrade").out = Text.unlines plan)
    (hfull : (env "apt-get -s full-upgrade").out = Text.unlines full)
    (htest : (env "[ -f /var/run/reboot-required ]").out = "") :
    (Script.outcome env (aptListScript refresh)).out =
      Text.unlines ((if refresh then synced else []) ++ rows ++
        "__APPLY__" :: plan ++ "__FULL__" :: full) ++
        ("__REBOOT__" ++ ("\n" ++
          (yesNo ((env "[ -f /var/run/reboot-required ]").status = 0) ++ "\n"))) := by
  apply String.toList_inj.mp
  cases refresh <;>
    simp [aptListScript, refreshed, Script.chain, Script.outcome, hsynced, hrows, hplan, hfull,
      htest, Text.unlines_append, Text.unlines_cons, yesNo]

theorem apt_listing (m : Machine .apt) (refresh : Bool) :
    m.listing refresh =
      Text.unlines (m.synced refresh ++ "Listing..." :: m.pending.map Pending.aptRow ++
      "__APPLY__" :: m.plan Pending.applies ++ "__FULL__" :: m.plan Pending.planned) ++
        ("__REBOOT__" ++ ("\n" ++ (yesNo m.probeSays ++ "\n"))) := by
  have hsynced : (m.env "apt-get update -qq").out = Text.unlines (m.notices.map Notice.text) := by
    simp [Machine.env, Machine.printed]
  have hrows : (m.env "apt list --upgradable").out =
      Text.unlines ("Listing..." :: m.pending.map Pending.aptRow) := by
    simp [Machine.env, Machine.printed]
  have hplan : (m.env "apt-get -s upgrade").out = Text.unlines (m.plan Pending.applies) := by
    simp [Machine.env, Machine.printed]
  have hfull : (m.env "apt-get -s full-upgrade").out = Text.unlines (m.plan Pending.planned) := by
    simp [Machine.env, Machine.printed]
  have htest : (m.env "[ -f /var/run/reboot-required ]").out = "" := by
    simp [Machine.env, Machine.printed]
  exact apt_outcome refresh hsynced hrows hplan hfull htest

/-- The listing of `dnf` and of `yum`. -/
theorem dnf_listing {env : Script.Env} {rows : List String} {tool : String}
    (hout : (env (tool ++ " check-update -q")).out = Text.unlines rows) :
    (Script.outcome env (dnfListScript tool)).out = Text.unlines rows ++ ("__EXIT__" ++
      Text.unlines [toString (env (tool ++ " check-update -q")).status, "__REBOOT__",
        toString (env "needs-restarting -r").status]) := by
  simp [dnfListScript, Script.chain, Script.outcome, hout, Text.unlines_cons, ← String.toList_inj]

theorem zypper_listing (m : Machine .zypper) (refresh : Bool) :
    m.listing refresh = Text.unlines (m.synced refresh ++ m.printed "zypper -q lu") ++
      ("__REBOOT__" ++ ("\n" ++ (yesNo (m.status "zypper needs-rebooting" = 0) ++ "\n"))) := by
  cases refresh <;>
    simp [Machine.listing, Supported.manager, zypperPackageManager, zypperListScript, refreshed,
      Script.chain, Script.outcome, Machine.env, Machine.printed,
        Machine.synced, Text.unlines_append,
      yesNo, ← String.toList_inj]

theorem pacman_listing (m : Machine .pacman) (refresh : Bool) :
    m.listing refresh = Text.unlines (m.synced refresh ++ m.pending.map Pending.pacmanRow) := by
  cases refresh <;>
    simp [Machine.listing, Supported.manager, pacmanPackageManager, pacmanListScript, refreshed,
      Script.chain, Script.outcome, Machine.env, Machine.printed,
        Machine.synced, Text.unlines_append]

theorem apk_listing (m : Machine .apk) (refresh : Bool) :
    m.listing refresh = Text.unlines (m.synced refresh ++ m.pending.map Pending.apkRow) := by
  cases refresh <;>
    simp [Machine.listing, Supported.manager, apkPackageManager, apkListScript, refreshed,
      Script.chain, Script.outcome, Machine.env, Machine.printed,
        Machine.synced, Text.unlines_append]

/-- The last section of a listing is found, and its answer is read. -/
theorem rebootSection_read {lines : List String} (b : Bool)
    (hlines : ∀ l ∈ lines, ¬ "__REBOOT__".toList <:+: l.toList) :
    rebootSection (Text.unlines lines ++ ("__REBOOT__" ++ ("\n" ++ (yesNo b ++ "\n")))) =
      (Text.unlines lines, b) := by
  have hread : Text.startsWith (Text.strip ("\n" ++ (yesNo b ++ "\n"))) "yes" = b := by
    cases b <;> decide
  rw [rebootSection, Text.cut_unlines (by decide) (by decide) hlines]
  simp only [hread]

end Listing

section Flag

variable {pm : Supported} (m : Machine pm)

theorem any_rows {row : Pending → String} {parse : String → Option Package}
    (hrow : ∀ p, kernelLine parse (row p) = isKernelPackage p.name.text) :
    (m.pending.map row).any (kernelLine parse) = m.kernelListed := by
  simp [List.any_map, Function.comp_def, hrow, Machine.kernelListed]

/-- The lines of a refresh name no kernel package to a parser that passes over notices. -/
theorem any_synced {parse : String → Option Package} (refresh : Bool)
    (hnotice : ∀ notice : Notice, kernelLine parse notice.text = false) :
    (m.synced refresh).any (kernelLine parse) = false := by
  cases refresh
  · rfl
  · simp [Machine.synced, hnotice]

theorem zypper_notice (notice : Notice) : kernelLine zypperPackage notice.text = false := by
  have hbar : '|' ∉ notice.text.toList := fun h => (notice.plain _ h).2 (by decide)
  rw [kernelLine, zypperPackage, Text.splitOn_last hbar]
  rfl

theorem pacman_notice (notice : Notice) : kernelLine pacmanPackage notice.text = false := by
  have hsign : '>' ∉ (Text.strip notice.text).toList := fun h =>
    (notice.plain _ (Text.mem_of_mem_strip h)).2 (by decide)
  have hin : Text.isIn "->" (Text.strip notice.text) = false :=
    Text.isIn_eq_false (by decide) hsign
  simp [kernelLine, pacmanPackage, hin]

theorem apk_notice (notice : Notice) : kernelLine apkPackage notice.text = false := by
  have hsign : '<' ∉ (Text.strip notice.text).toList := fun h =>
    (notice.plain _ (Text.mem_of_mem_strip h)).2 (by decide)
  have hin : Text.isIn "<" (Text.strip notice.text) = false :=
    Text.isIn_eq_false (by decide) hsign
  simp [kernelLine, apkPackage, hin]

/-- What a check makes of the lines before the reboot section. -/
theorem kernelUpdateIn_unlines {parse : String → Option Package} {lines : List String}
    (hlines : ∀ l ∈ lines, IsLine l) :
    kernelUpdateIn ((Text.splitLines (Text.unlines lines)).filterMap parse) =
      lines.any (kernelLine parse) := by
  rw [Text.splitLines_unlines fun l hl => (hlines l hl).unbroken, kernelUpdateIn_filterMap]

theorem zypper_lines (m : Machine .zypper) (refresh : Bool) :
    ∀ l ∈ m.synced refresh ++ m.printed "zypper -q lu", IsLine l := by
  intro l hl
  rcases List.mem_append.mp hl with hl | hl
  · exact synced_isLine m refresh l hl
  have hprinted : m.printed "zypper -q lu" = if m.pending = [] then ["No updates found."]
      else zypperHeading ++ m.pending.map Pending.zypperRow := by simp [Machine.printed]
  rw [hprinted] at hl
  split at hl
  · obtain rfl := List.mem_singleton.mp hl
    decide
  · rcases List.mem_append.mp hl with hl | hl
    · have hall : ∀ l ∈ zypperHeading, IsLine l := by decide +kernel
      exact hall l hl
    · exact m.rows_isLine Pending.zypperRow_isLine l hl

theorem zypper_flag (m : Machine .zypper) (refresh : Bool) : (zypperParse (m.listing refresh)).2 =
    (decide (m.status "zypper needs-rebooting" = 0) || m.kernelListed) := by
  have hlines := zypper_lines m refresh
  have hunmarked : ∀ l ∈ m.synced refresh ++ m.printed "zypper -q lu",
      ¬ "__REBOOT__".toList <:+: l.toList := fun l hl => (hlines l hl).unmarked _ (by decide)
  have hprinted : (m.printed "zypper -q lu").any (kernelLine zypperPackage) = m.kernelListed := by
    have hheading : zypperHeading.any (kernelLine zypperPackage) = false := by decide
    have hnone : kernelLine zypperPackage "No updates found." = false := by decide
    by_cases hpending : m.pending = []
    · simp [Machine.printed, Machine.kernelListed, hpending, hnone]
    · have hrows := any_rows m zypperRow_read
      simp [Machine.printed, hpending, List.any_append, hheading, hrows]
  rw [zypperParse, zypper_listing, rebootSection_read _ hunmarked]
  simp only [kernelUpdateIn_unlines hlines, List.any_append, any_synced m refresh zypper_notice,
    hprinted, Bool.false_or]

theorem pacman_flag (m : Machine .pacman) (refresh : Bool) :
    (pacmanParse (m.listing refresh)).2 = m.kernelListed := by
  have hlines : ∀ l ∈ m.synced refresh ++ m.pending.map Pending.pacmanRow, IsLine l := by
    intro l hl
    rcases List.mem_append.mp hl with hl | hl
    · exact synced_isLine m refresh l hl
    · exact m.rows_isLine Pending.pacmanRow_isLine l hl
  rw [pacmanParse, pacman_listing]
  simp only [kernelUpdateIn_unlines hlines, List.any_append, any_synced m refresh pacman_notice,
    any_rows m pacmanRow_read, Bool.false_or]

/-- The parser takes a name of Alpine to end before the first `-` with a digit behind it. -/
def Machine.kernelRead {pm : Supported} (m : Machine pm) : Bool :=
  m.pending.any fun p => isKernelPackage (nameVersion (p.name.text ++ "-" ++ p.current.text)).1

theorem apk_flag (m : Machine .apk) (refresh : Bool) :
    (apkParse (m.listing refresh)).2 = m.kernelRead := by
  have hlines : ∀ l ∈ m.synced refresh ++ m.pending.map Pending.apkRow, IsLine l := by
    intro l hl
    rcases List.mem_append.mp hl with hl | hl
    · exact synced_isLine m refresh l hl
    · exact m.rows_isLine Pending.apkRow_isLine l hl
  have hrows : (m.pending.map Pending.apkRow).any (kernelLine apkPackage) = m.kernelRead := by
    simp [List.any_map, Function.comp_def, apkRow_read, Machine.kernelRead]
  rw [apkParse, apk_listing]
  simp only [kernelUpdateIn_unlines hlines, List.any_append, any_synced m refresh apk_notice,
    hrows, Bool.false_or]

/-- The parser takes every status whose first digit is a 1 for "reboot needed". -/
def beginsWithOne (status : Nat) : Bool := Text.startsWith (toString status) "1"

theorem digits_unmarked (n : Nat) : Unmarked (toString n).toList := by
  have hall : markers.all (fun m => m.toList.contains '_') = true := by decide
  intro m hm h
  have hmem : '_' ∈ m.toList := by simpa using List.all_eq_true.mp hall m hm
  have hdigit := Text.toString_digits n '_' (h.subset hmem)
  exact absurd hdigit (by decide)

/-- `dnf` and `yum`, whose listings differ in the name of the tool only. -/
theorem dnf_parse_flag {env : Script.Env} {rows : List String} (tool : String)
    (hrows : (env (tool ++ " check-update -q")).out = Text.unlines rows)
    (hlines : ∀ l ∈ rows, IsLine l) :
    (dnfParse (Script.outcome env (dnfListScript tool)).out).2 =
      (beginsWithOne (env "needs-restarting -r").status || rows.any (kernelLine dnfPackage)) := by
  generalize hstatus : (env (tool ++ " check-update -q")).status = status
  generalize hprobe : (env "needs-restarting -r").status = probe
  have hexit : ∀ l ∈ rows, ¬ "__EXIT__".toList <:+: l.toList := fun l hl =>
    (hlines l hl).unmarked _ (by decide)
  have hnone : Text.cut "__EXIT__" (Text.unlines [toString status, "__REBOOT__", toString probe]) =
      none := by
    apply Text.cut_unlines_none (by decide) (by decide)
    intro l hl
    simp only [List.mem_cons, List.not_mem_nil, or_false] at hl
    rcases hl with rfl | rfl | rfl
    · exact digits_unmarked _ _ (by decide)
    · decide
    · exact digits_unmarked _ _ (by decide)
  have hreboot : Text.cut "__REBOOT__" (Text.unlines [toString status,
    "__REBOOT__", toString probe]) =
      some (Text.unlines [toString status], "\n" ++ (toString probe ++ "\n")) := by
    have hafter : Text.unlines [toString status, "__REBOOT__", toString probe] =
        Text.unlines [toString status] ++ ("__REBOOT__" ++ ("\n" ++ (toString probe ++ "\n"))) := by
      simp [Text.unlines_cons, ← String.toList_inj]
    rw [hafter]
    apply Text.cut_unlines (by decide) (by decide)
    intro l hl
    obtain rfl := List.mem_singleton.mp hl
    exact digits_unmarked _ _ (by decide)
  have hblock : dnfRebootBlock (Text.unlines [toString status, "__REBOOT__", toString probe]) =
      toString probe := by
    simp only [dnfRebootBlock, hnone, Option.map_none, Option.getD_none, hreboot,
      Text.strip_line (Text.toString_isWord probe)]
  rw [dnf_listing hrows, hstatus, hprobe, dnfParse, Text.cut_unlines (by decide) (by decide) hexit]
  simp only [hblock, Text.strip_word (Text.toString_isWord probe), kernelUpdateIn_unlines hlines,
    beginsWithOne]

theorem dnfRows_flag {pm : Supported} (m : Machine pm) :
    ("" :: m.pending.map Pending.dnfRow).any (kernelLine dnfPackage) = m.kernelListed := by
  have hempty : kernelLine dnfPackage "" = false := by decide
  rw [List.any_cons, hempty, any_rows m dnfRow_read, Bool.false_or]

theorem dnfRows_isLine {pm : Supported} (m : Machine pm) :
    ∀ l ∈ "" :: m.pending.map Pending.dnfRow, IsLine l := by
  intro l hl
  rcases List.mem_cons.mp hl with rfl | hl
  · exact IsLine.empty
  · exact m.rows_isLine Pending.dnfRow_isLine l hl

theorem dnf_flag (m : Machine .dnf) (refresh : Bool) : (dnfParse (m.listing refresh)).2 =
    (beginsWithOne (m.status "needs-restarting -r") || m.kernelListed) := by
  have hrows : (m.env ("dnf" ++ " check-update -q")).out =
      Text.unlines ("" :: m.pending.map Pending.dnfRow) := by simp [Machine.env, Machine.printed]
  rw [← dnfRows_flag]
  exact dnf_parse_flag "dnf" hrows (dnfRows_isLine m)

theorem yum_flag (m : Machine .yum) (refresh : Bool) : (dnfParse (m.listing refresh)).2 =
    (beginsWithOne (m.status "needs-restarting -r") || m.kernelListed) := by
  have hrows : (m.env ("yum" ++ " check-update -q")).out =
      Text.unlines ("" :: m.pending.map Pending.dnfRow) := by simp [Machine.env, Machine.printed]
  rw [← dnfRows_flag]
  exact dnf_parse_flag "yum" hrows (dnfRows_isLine m)

theorem plan_names {pm : Supported} (m : Machine pm) (install : Pending → Bool) :
    (m.plan install).filterMap instName =
      (m.pending.filter install).map fun p => aptLabel m.native p.name.text p.arch.text := by
  have hnotices : (m.notices.map Notice.text).filterMap instName = [] := by
    simp [List.filterMap_map, notice_instName]
  have hread : ∀ p : Pending,
      instName (p.instRow m.native) = some (aptLabel m.native p.name.text p.arch.text) :=
    fun p => instLine_read p.name.isWord p.arch.isWord
  rw [Machine.plan, List.filterMap_append, hnotices, List.nil_append, List.filterMap_map]
  simp [hread]

/-- The sections of the output, read one by one. -/
theorem aptPlans_sections {lines plan full : List String} (hlines : ∀ l ∈ lines, IsLine l)
    (hplan : ∀ l ∈ plan, IsLine l) (hfull : ∀ l ∈ full, IsLine l) :
    aptPlans (Text.unlines (lines ++ "__APPLY__" :: plan ++ "__FULL__" :: full)) =
      (Text.unlines lines, ⟨some (plan.filterMap instName), some (full.filterMap instName)⟩) := by
  have hmarked : ∀ l ∈ lines, ¬ "__APPLY__".toList <:+: l.toList := fun l hl =>
    (hlines l hl).unmarked _ (by decide)
  have happly : ∀ l ∈ "" :: plan, ¬ "__FULL__".toList <:+: l.toList := by
    intro l hl
    rcases List.mem_cons.mp hl with rfl | hl
    · decide
    · exact (hplan l hl).unmarked _ (by decide)
  have hnames : ∀ lines : List String, (∀ l ∈ lines, IsLine l) →
      aptApplicableNames (Text.unlines ("" :: lines)) = lines.filterMap instName := by
    intro lines hlines
    have hunbroken : ∀ l ∈ "" :: lines, ∀ c ∈ l.toList, Text.isLineBreak c = false := by
      intro l hl
      rcases List.mem_cons.mp hl with rfl | hl
      · exact IsLine.empty.unbroken
      · exact (hlines l hl).unbroken
    have hempty : instName "" = none := by decide
    rw [aptApplicableNames, Text.splitLines_unlines hunbroken, List.filterMap_cons_none hempty]
  have hbody : Text.unlines (lines ++ "__APPLY__" :: plan ++ "__FULL__" :: full) =
      Text.unlines lines ++ ("__APPLY__" ++ (Text.unlines ("" :: plan) ++ ("__FULL__" ++
        Text.unlines ("" :: full)))) := by
    simp [Text.unlines_append, Text.unlines_cons, ← String.toList_inj]
  rw [hbody, aptPlans, Text.cut_unlines (by decide) (by decide) hmarked]
  simp only [Text.cut_unlines (by decide) (by decide) happly, hnames plan hplan, hnames full hfull]

/-- The whole output, read with its last section. -/
theorem aptParse_sections {lines plan full : List String} (b : Bool)
    (hlines : ∀ l ∈ lines, IsLine l) (hplan : ∀ l ∈ plan, IsLine l) (hfull : ∀ l ∈ full, IsLine l) :
    aptParse (Text.unlines (lines ++ "__APPLY__" :: plan ++ "__FULL__" :: full) ++
      ("__REBOOT__" ++ ("\n" ++ (yesNo b ++ "\n")))) =
    let plans : Plans := ⟨some (plan.filterMap instName), some (full.filterMap instName)⟩
    (lines.filterMap (aptPackage plans),
      b || kernelUpdateIn ((lines.filterMap (aptPackage plans)).filter
      fun p => !p.heldBack.getD false)) := by
  have hbody : ∀ l ∈ lines ++ "__APPLY__" :: plan ++ "__FULL__" :: full,
      ¬ "__REBOOT__".toList <:+: l.toList := by
    intro l hl
    rcases List.mem_append.mp hl with hl | hl
    · rcases List.mem_append.mp hl with hl | hl
      · exact (hlines l hl).unmarked _ (by decide)
      · rcases List.mem_cons.mp hl with rfl | hl
        · decide
        · exact (hplan l hl).unmarked _ (by decide)
    · rcases List.mem_cons.mp hl with rfl | hl
      · decide
      · exact (hfull l hl).unmarked _ (by decide)
  rw [aptParse, rebootSection_read _ hbody]
  simp only [aptPlans_sections hlines hplan hfull,
    Text.splitLines_unlines fun l hl => (hlines l hl).unbroken]

/-- A package that the plan leaves out does not count. -/
def aptCounted (plans : Plans) (line : String) : Option Package :=
  (aptPackage plans line).filter fun p => !p.heldBack.getD false

theorem filter_aptPackage (plans : Plans) (lines : List String) :
    (lines.filterMap (aptPackage plans)).filter (fun p => !p.heldBack.getD false) =
      lines.filterMap (aptCounted plans) := List.filter_filterMap

theorem aptCounted_row (p : Pending) (applied : List String) (full : Option (List String)) :
    kernelLine (aptCounted ⟨some applied, full⟩) p.aptRow =
      (applied.contains p.name.text && isKernelPackage p.name.text) := by
  obtain ⟨q, hread, hname, hheld, _⟩ := @aptLine_read p.name.text p.origin.text p.available.text
    p.arch.text p.current.text ⟨some applied, full⟩ p.name_plain
  rw [← Pending.aptRow] at hread
  by_cases hmem : p.name.text ∈ applied
  · simp [kernelLine, aptCounted, hread, hheld, Plans.heldBack, hname, Option.filter, hmem]
  · simp [kernelLine, aptCounted, hread, hheld, Plans.heldBack, Option.filter, hmem]

theorem aptCounted_notice (plans : Plans) (notice : Notice) :
    kernelLine (aptCounted plans) notice.text = false := by
  have hopen : '[' ∉ notice.text.toList := fun h => (notice.plain _ h).2 (by decide)
  simp [kernelLine, aptCounted, aptPackage_notice plans hopen]

/-- A row counts by its name, which a simulation has from a native package only. -/
theorem any_applied (m : Machine .apt) :
    (m.pending.any fun p => ((m.pending.filter Pending.applies).map fun p =>
      aptLabel m.native p.name.text p.arch.text).contains p.name.text &&
        isKernelPackage p.name.text) =
        m.nativeKernelApplied := by
  rw [Bool.eq_iff_iff]
  simp only [Machine.nativeKernelApplied, List.any_eq_true, Bool.and_eq_true, List.contains_eq_mem,
    decide_eq_true_eq, List.mem_map, List.mem_filter, Bool.not_eq_true']
  constructor
  · rintro ⟨p, hp, ⟨q, ⟨hq, happlies⟩, hlabel⟩, hkernel⟩
    obtain ⟨hnative, hname⟩ := (aptLabel_eq_iff (m.names rfl p hp)).mp hlabel
    exact ⟨q, hq, ⟨happlies, hnative⟩, by rwa [hname]⟩
  · rintro ⟨p, hp, ⟨happlies, hnative⟩, hkernel⟩
    exact ⟨p, hp, ⟨p, ⟨hp, happlies⟩, (aptLabel_eq_iff (m.names rfl p hp)).mpr ⟨hnative, rfl⟩⟩,
      hkernel⟩

theorem apt_flag (m : Machine .apt) (refresh : Bool) :
    (aptParse (m.listing refresh)).2 = (m.probeSays || m.nativeKernelApplied) := by
  have hlist : ∀ l ∈ m.synced refresh ++ "Listing..." ::
      m.pending.map Pending.aptRow, IsLine l := by
    intro l hl
    rcases List.mem_append.mp hl with hl | hl
    · exact synced_isLine m refresh l hl
    · rcases List.mem_cons.mp hl with rfl | hl
      · decide
      · exact m.rows_isLine Pending.aptRow_isLine l hl
  have hheading : ∀ plans, kernelLine (aptCounted plans) "Listing..." = false := fun plans => by
    simp [kernelLine, aptCounted, aptPackage_notice plans (by decide : '[' ∉ "Listing...".toList)]
  rw [apt_listing, aptParse_sections _ hlist (m.plan_isLine _) (m.plan_isLine _)]
  simp only [plan_names, filter_aptPackage, kernelUpdateIn_filterMap]
  simp only [List.any_append, List.any_cons, any_synced m refresh (aptCounted_notice _), hheading,
    Bool.false_or, List.any_map, Function.comp_def, aptCounted_row, any_applied]

theorem kernelApplied_of_native (h : m.nativeKernelApplied = true) : m.kernelApplied = true := by
  simp only [Machine.kernelApplied, Machine.nativeKernelApplied, List.any_eq_true,
    Bool.and_eq_true] at h ⊢
  obtain ⟨p, hp, ⟨happlies, _⟩, hkernel⟩ := h
  exact ⟨p, hp, happlies, hkernel⟩

theorem kernelListed_of_applied (h : m.kernelApplied = true) : m.kernelListed = true := by
  simp only [Machine.kernelApplied, Machine.kernelListed, List.any_eq_true, Bool.and_eq_true] at h ⊢
  obtain ⟨p, hp, _, hkernel⟩ := h
  exact ⟨p, hp, hkernel⟩

theorem kernelRead_of_applied (m : Machine .apk) (h : m.kernelApplied = true) :
    m.kernelRead = true := by
  simp only [Machine.kernelApplied, Machine.kernelRead, List.any_eq_true, Bool.and_eq_true] at h ⊢
  obtain ⟨p, hp, _, hkernel⟩ := h
  exact ⟨p, hp, kernel_nameVersion hkernel (m.versions rfl p hp)⟩

end Flag

section Truth

/-- The flag of a check is the answer of the probe, or a kernel package that the
upgrade will install. -/
def FlagTruthful {pm : Supported} (m : Machine pm) (refresh : Bool) : Prop :=
  (pm.manager.parse (m.listing refresh)).2 = true ↔ m.probeSays = true ∨ m.kernelApplied = true

/-- The machines whose flag is the truth. -/
def TruthfulWhen : {pm : Supported} → Machine pm → Prop
  | .apt, m => m.probeSays = true ∨ m.kernelApplied = false ∨ m.nativeKernelApplied = true
  | .dnf, m | .yum, m => m.kernelApplied = true ∨ m.status "needs-restarting -r" = 1 ∨
      (beginsWithOne (m.status "needs-restarting -r") = false ∧ m.kernelListed = false)
  | .zypper, m => m.kernelApplied = true ∨
      (m.status "zypper needs-rebooting" = 102 ∧ m.kernelListed = true) ∨
      (m.status "zypper needs-rebooting" ≠ 102 ∧ m.status "zypper needs-rebooting" ≠ 0 ∧
        m.kernelListed = false)
  | .pacman, m => m.kernelApplied = true ∨ m.kernelListed = false
  | .apk, m => m.kernelApplied = true ∨ m.kernelRead = false

/-- `dnf` and `yum`: the probe's status is read by its first digit. -/
theorem dnf_truthful {status : Nat} {listed applied : Bool}
    (hlisted : applied = true → listed = true) :
    ((beginsWithOne status || listed) = true ↔ decide (status = 1) = true ∨ applied = true) ↔
      applied = true ∨ status = 1 ∨ (beginsWithOne status = false ∧ listed = false) := by
  have hone : beginsWithOne 1 = true := by decide
  by_cases hstatus : status = 1
  · simp [hstatus, hone]
  · cases happlied : applied
    · simp [hstatus]
    · simp [hlisted happlied]

/-- `zypper`: the probe's success is read as a yes, and its 102 as a no. -/
theorem zypper_truthful {status : Nat} {listed applied : Bool}
    (hlisted : applied = true → listed = true) :
    ((decide (status = 0) || listed) = true ↔ decide (status = 102) = true ∨ applied = true) ↔
      applied = true ∨ (status = 102 ∧ listed = true) ∨
        (status ≠ 102 ∧ status ≠ 0 ∧ listed = false) := by
  cases happlied : applied
  · by_cases hneeded : status = 102
    · simp [hneeded]
    · by_cases hzero : status = 0 <;> simp [hneeded, hzero]
  · simp [hlisted happlied]

/-- An up-to-date host without `needs-restarting`. -/
def noProbe : Machine .dnf where
  native := "x86_64"
  pending := []
  notices := []
  status := fun command => if command = "needs-restarting -r" then 127 else 0
  names := nofun
  versions := nofun

/-- A host of 64 bits with the kernel of 32 bits, which the plain upgrade installs. -/
def foreignKernel : Machine .apt where
  native := "amd64"
  pending := [{
    name := ⟨"linux-image-686", by decide, by decide, by decide⟩
    current := ⟨"6.1.94-1", by decide, by decide, by decide⟩
    available := ⟨"6.1.99-1", by decide, by decide, by decide⟩
    origin := ⟨"stable-security", by decide, by decide, by decide⟩
    arch := ⟨"i386", by decide, by decide, by decide⟩
    name_plain := by decide
    arch_plain := by decide
    applies := true
    planned := true
    gap := 0 }]
  notices := []
  status := fun command => if command = "[ -f /var/run/reboot-required ]" then 1 else 0
  names := by decide
  versions := nofun

end Truth

end Keepup.Packages
