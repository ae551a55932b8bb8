import Keepup.Hosts.AptAgreement
import Keepup.Packages.RebootFlag

/-!
Which packages a plain upgrade of `apt` holds back. The listing names a package without its
architecture, while a simulation writes `name:arch` for a package of a foreign one, and the two
are joined by these texts. The main theorem says on which hosts every package gets the verdict
that the plans give it.
-/

namespace Keepup.Ssh

open Lib Packages

section Host

/-- An upgradable package, in a text without the markers of the sections. -/
structure AptUpdate extends Upgrade where
  colon : ':' ∉ name.toList
  unmarked : ∀ field ∈ [name, suite, version, arch, old], Unmarked field.toList

namespace AptUpdate

variable (native : String) (u : AptUpdate)

def isForeign : Bool := Packages.isForeign native u.arch

/-- The package as a simulation writes it. -/
def label : String := aptLabel native u.name u.arch

def instRow : String := instLine native u.name u.suite u.version u.arch u.old

end AptUpdate

/-- A line of a simulation: a package to install, or anything else. -/
inductive PlanLine where
  | install (update : AptUpdate)
  | other (text : String) (line : IsLine text)
      (notInst : Text.startsWith (Text.strip text) "Inst " = false)

def PlanLine.text (native : String) : PlanLine → String
  | .install update => update.instRow native
  | .other text _ _ => text

/-- The packages that a simulation installs. -/
def installs (plan : List PlanLine) : List AptUpdate :=
  plan.filterMap fun line =>
    match line with
    | .install update => some update
    | .other _ _ _ => none

/-- Whether a plan has the package of this name and architecture. -/
def planned (plan : List PlanLine) (u : AptUpdate) : Bool :=
  (installs plan).any fun v => v.name == u.name && v.arch == u.arch

/-- Whether a plan has a native package of this name. -/
def plannedNative (native : String) (plan : List PlanLine) (name : String) : Bool :=
  (installs plan).any fun v => !v.isForeign native && v.name == name

/-- What `apt` knows and plans on a host with a native architecture. -/
structure AptHost where
  native : String
  synced : List Notice
  heading : List Notice
  updates : List AptUpdate
  plain : List PlanLine
  full : List PlanLine
  rebootFile : Bool

namespace AptHost

variable (h : AptHost)

def rows : List String := h.heading.map Notice.text ++ h.updates.map fun u => u.text

def printed (command : String) : List String :=
  if command = "apt list --upgradable" then h.rows
  else if command = "apt-get -s upgrade" then h.plain.map (PlanLine.text h.native)
  else if command = "apt-get -s full-upgrade" then h.full.map (PlanLine.text h.native)
  else if command = "apt-get update -qq" then h.synced.map Notice.text
  else []

def env : Script.Env := fun command =>
  ⟨Text.unlines (h.printed command), if command = "[ -f /var/run/reboot-required ]" ∧
    h.rebootFile = false
    then 1 else 0⟩

/-- What `list_cmd` prints on this host. -/
def listing (refresh : Bool) : String := (Script.outcome h.env (aptListScript refresh)).out

/-- What the plans say of a package: its name, whether it is held back, and why. -/
def verdict (u : AptUpdate) : String × Option Bool × Option String :=
  (u.name, some (!planned h.plain u),
    if planned h.plain u then none
    else some (if planned h.full u then "needs_full_upgrade" else "phased"))

/-- Every package gets its verdict, and only a kernel package that the plain upgrade installs
adds to the answer of the probe. -/
structure FollowsPlans (refresh : Bool) : Prop where
  verdicts : (aptParse (h.listing refresh)).1.map (fun p =>
    (p.name, p.heldBack, p.heldBackReason)) =
    h.updates.map h.verdict
  reboot : (aptParse (h.listing refresh)).2 = true ↔ h.rebootFile = true ∨
    ∃ u ∈ h.updates, isKernelPackage u.name = true ∧ planned h.plain u = true

/-- The native package of its name is planned as the package itself. -/
def NamesakesPlannedAlike : Prop :=
  ∀ u ∈ h.updates, planned h.plain u = plannedNative h.native h.plain u.name ∧
    (planned h.plain u = false → planned h.full u = plannedNative h.native h.full u.name)

end AptHost

end Host

section Rows

variable {u : AptUpdate} {native : String}

theorem AptUpdate.isLine {field : String}
    (h : field ∈ [u.name, u.suite, u.version, u.arch, u.old]) :
    IsLine field := ⟨(u.words field h).unbroken, u.unmarked field h⟩

theorem AptUpdate.fields_isLine :
    ∀ field ∈ [u.name, u.suite, u.version, u.arch, u.old], IsLine field :=
  fun _ hfield => u.isLine hfield

theorem Upgrade.text_eq_aptLine (u : Upgrade) :
    u.text = aptLine u.name u.suite u.version u.arch u.old := by
  apply String.toList_inj.mp
  simp [Upgrade.text, aptLine]

theorem AptUpdate.text_isLine : IsLine u.text := by
  rw [Upgrade.text_eq_aptLine]
  exact aptLine_isLine u.fields_isLine

theorem AptUpdate.instRow_isLine : IsLine (u.instRow native) := instLine_isLine u.fields_isLine

theorem AptUpdate.instRow_read : instName (u.instRow native) = some (u.label native) :=
  instLine_read (u.words _ (by simp)) (u.words _ (by simp))

/-- The names that a simulation is read to have. -/
theorem plan_names_read (plan : List PlanLine) :
    (plan.map (PlanLine.text native)).filterMap instName =
    (installs plan).map (AptUpdate.label native) := by
  induction plan with
  | nil => rfl
  | cons line plan ih =>
      cases line with
      | install u =>
          rw [List.map_cons, PlanLine.text, List.filterMap_cons_some u.instRow_read, ih]
          rfl
      | other text _ hinst =>
          have hnone : instName text = none := by simp [instName, hinst]
          rw [List.map_cons, PlanLine.text, List.filterMap_cons_none hnone, ih]
          rfl

/-- A name without a `:` is that of a native package. -/
theorem contains_label (plan : List PlanLine) {name : String} (hname : ':' ∉ name.toList) :
    ((installs plan).map (AptUpdate.label native)).contains name =
      plannedNative native plan name := by
  have hlabel : ∀ v : AptUpdate, v.label native = name ↔
      v.isForeign native = false ∧ v.name = name :=
    fun _ => aptLabel_eq_iff hname
  rw [Bool.eq_iff_iff, List.contains_iff_mem, List.mem_map, plannedNative, List.any_eq_true]
  simp only [hlabel, Bool.and_eq_true, Bool.not_eq_true', beq_iff_eq]

theorem plan_isLine (plan : List PlanLine) : ∀ l ∈ plan.map (PlanLine.text native), IsLine l := by
  intro l hl
  obtain ⟨line, _, rfl⟩ := List.mem_map.mp hl
  cases line with
  | install u => exact u.instRow_isLine
  | other text hline _ => exact hline

/-- The row of a package, read with its name and the verdict on that name. -/
theorem aptPackage_text (plans : Plans) (u : Upgrade) : ∃ q, aptPackage plans u.text = some q ∧
    q.name = u.name ∧ q.heldBack = some (plans.heldBack u.name) ∧
    q.heldBackReason = plans.reason u.name := by
  rw [u.text_eq_aptLine]
  exact aptLine_read plans u.slash

end Rows

section Verdicts

variable (h : AptHost) (refresh : Bool)

/-- What is read of the two simulations. -/
def AptHost.plans : Plans :=
  ⟨some ((installs h.plain).map (AptUpdate.label h.native)),
    some ((installs h.full).map (AptUpdate.label h.native))⟩

/-- The parser goes by the native package of a name. -/
theorem verdict_read (u : AptUpdate) : (h.plans.heldBack u.name, h.plans.reason u.name) =
    (!plannedNative h.native h.plain u.name,
      if plannedNative h.native h.plain u.name then none
      else some (if plannedNative h.native h.full u.name then "needs_full_upgrade"
        else "phased")) := by
  have hheld : h.plans.heldBack u.name = !plannedNative h.native h.plain u.name := by
    rw [Plans.heldBack, AptHost.plans, Option.elim_some, contains_label h.plain u.colon]
  have hfull : h.plans.fullNames.map (fun names =>
      if names.contains u.name then "needs_full_upgrade" else "phased") =
        some (if plannedNative h.native h.full u.name then "needs_full_upgrade" else "phased") := by
    rw [AptHost.plans, Option.map_some, contains_label h.full u.colon]
  rw [Plans.reason, hheld, hfull]
  cases plannedNative h.native h.plain u.name <;> rfl

theorem rows_isLine :
    ∀ l ∈ (if refresh then h.synced.map Notice.text else []) ++ h.rows, IsLine l := by
  have hnotices : ∀ notices : List Notice, ∀ l ∈ notices.map Notice.text, IsLine l := by
    intro notices l hl
    obtain ⟨notice, _, rfl⟩ := List.mem_map.mp hl
    exact IsLine.notice notice
  intro l hl
  rcases List.mem_append.mp hl with hl | hl
  · cases refresh
    · cases hl
    · exact hnotices h.synced l hl
  · rcases List.mem_append.mp hl with hl | hl
    · exact hnotices h.heading l hl
    · obtain ⟨u, _, rfl⟩ := List.mem_map.mp hl
      exact u.text_isLine

/-- The packages of a check are the rows of the listing, read next to the two simulations. -/
theorem aptParse_listing : aptParse (h.listing refresh) =
    (h.updates.filterMap fun u => aptPackage h.plans u.text, h.rebootFile ||
      kernelUpdateIn ((h.updates.filterMap fun u => aptPackage h.plans u.text).filter fun p =>
        !p.heldBack.getD false)) := by
  have houtput : h.listing refresh =
      Text.unlines ((if refresh then h.synced.map Notice.text else []) ++ h.rows ++
        "__APPLY__" :: h.plain.map (PlanLine.text h.native) ++
        "__FULL__" :: h.full.map (PlanLine.text h.native)) ++
      ("__REBOOT__" ++ ("\n" ++ (yesNo h.rebootFile ++ "\n"))) := by
    have hstatus : h.rebootFile =
        decide ((h.env "[ -f /var/run/reboot-required ]").status = 0) := by
      cases hfile : h.rebootFile <;> simp [AptHost.env, hfile]
    rw [hstatus]
    apply apt_outcome <;> simp [AptHost.env, AptHost.printed]
  have hnotice : ∀ notices : List Notice, (notices.map Notice.text).filterMap (aptPackage h.plans) =
      [] := by
    intro notices
    rw [List.filterMap_eq_nil_iff]
    intro l hl
    obtain ⟨notice, _, rfl⟩ := List.mem_map.mp hl
    exact aptPackage_notice _ fun hmem => (notice.plain _ hmem).2 (by decide)
  have hsynced : (if refresh then h.synced.map Notice.text else []).filterMap (aptPackage h.plans) =
      [] := by
    cases refresh
    · rfl
    · exact hnotice h.synced
  have hrows : ((if refresh then h.synced.map Notice.text else []) ++
    h.rows).filterMap (aptPackage h.plans) =
      h.updates.filterMap fun u => aptPackage h.plans u.text := by
    rw [List.filterMap_append, hsynced, List.nil_append, AptHost.rows,
      List.filterMap_append, hnotice,
      List.nil_append, List.filterMap_map]
    rfl
  rw [houtput, aptParse_sections _ (rows_isLine h refresh) (plan_isLine _) (plan_isLine _),
    plan_names_read,
    plan_names_read, ← hrows]
  rfl

/-- Each package has the verdict on its name. -/
theorem packages_read : ∃ packages : List Package,
    aptParse (h.listing refresh) =
      (packages, h.rebootFile || kernelUpdateIn (packages.filter fun p =>
      !p.heldBack.getD false)) ∧
    packages.map (fun p => (p.name, p.heldBack, p.heldBackReason)) = h.updates.map fun u =>
      (u.name, some (h.plans.heldBack u.name), h.plans.reason u.name) := by
  refine ⟨_, aptParse_listing h refresh, ?_⟩
  induction h.updates with
  | nil => rfl
  | cons u updates ih =>
      obtain ⟨q, hread, hname, hheld, hreason⟩ := aptPackage_text h.plans u.toUpgrade
      simp only [List.filterMap_cons, hread, List.map_cons, ih, hname, hheld, hreason]

theorem verdict_eq_iff (read readFull plain full : Bool) :
    ((!read, if read then none else some (if readFull then "needs_full_upgrade" else "phased")) =
      (!plain, if plain then none else some (if full then "needs_full_upgrade" else "phased"))) ↔
      plain = read ∧ (plain = false → full = readFull) := by
  cases read <;> cases readFull <;> cases plain <;> cases full <;> decide

theorem verdict_iff (u : AptUpdate) :
    (u.name, some (h.plans.heldBack u.name), h.plans.reason u.name) = h.verdict u ↔
      planned h.plain u = plannedNative h.native h.plain u.name ∧
        (planned h.plain u = false → planned h.full u = plannedNative h.native h.full u.name) := by
  rw [← verdict_eq_iff, ← verdict_read, AptHost.verdict]
  simp only [Prod.mk.injEq, Option.some.injEq, true_and]

/-- A package is counted for the reboot flag by its name and its verdict. -/
theorem kernelUpdateIn_verdicts (packages : List Package) :
    kernelUpdateIn (packages.filter fun p => !p.heldBack.getD false) =
      (packages.map fun p => (p.name, p.heldBack, p.heldBackReason)).any fun verdict =>
        !verdict.2.1.getD false && isKernelPackage verdict.1 := by
  rw [kernelUpdateIn, List.any_filter, List.any_map]
  rfl

/-- Every package gets the verdict of the plans if and only if the native package of its name is
planned as it is. -/
theorem held_back_iff : h.FollowsPlans refresh ↔ h.NamesakesPlannedAlike := by
  obtain ⟨packages, hparse, hread⟩ := packages_read h refresh
  constructor
  · intro hfollows u hu
    have hverdicts := hfollows.verdicts
    rw [hparse, hread] at hverdicts
    exact (verdict_iff h u).mp (List.map_inj_left.mp hverdicts u hu)
  · intro halike
    have hverdicts : packages.map (fun p => (p.name, p.heldBack, p.heldBackReason)) =
        h.updates.map h.verdict := by
      rw [hread]
      exact List.map_inj_left.mpr fun u hu => (verdict_iff h u).mpr (halike u hu)
    refine ⟨by rw [hparse, hverdicts], ?_⟩
    rw [hparse]
    simp only [kernelUpdateIn_verdicts, hverdicts, List.any_map, Bool.or_eq_true, List.any_eq_true,
      Function.comp_apply, AptHost.verdict, Option.getD_some, Bool.not_not, Bool.and_eq_true]
    simp only [and_comm]

/-- On a host with packages of its own architecture only, the verdicts are those of the plans. -/
theorem one_architecture_follows (hupdates : ∀ u ∈ h.updates, u.arch = h.native)
    (hplain : ∀ u ∈ installs h.plain, u.arch = h.native)
    (hfull : ∀ u ∈ installs h.full, u.arch = h.native) : h.FollowsPlans refresh := by
  have hsame : ∀ u ∈ h.updates, ∀ plan, (∀ v ∈ installs plan, v.arch = h.native) →
      planned plan u = plannedNative h.native plan u.name := by
    intro u hu plan hplan
    rw [Bool.eq_iff_iff, planned, plannedNative, List.any_eq_true, List.any_eq_true]
    refine exists_congr fun v => and_congr_right fun hv => ?_
    have hnative : v.isForeign h.native = false := by
      simp [AptUpdate.isForeign, isForeign, hplan v hv]
    simp only [hnative, hplan v hv, hupdates u hu, beq_self_eq_true, Bool.and_true, Bool.not_false,
      Bool.true_and]
  rw [held_back_iff]
  exact fun u hu => ⟨hsame u hu h.plain hplain, fun _ => hsame u hu h.full hfull⟩

def wine32 : AptUpdate where
  name := "wine32"
  suite := "stable"
  version := "8.0~repack-4"
  arch := "i386"
  old := "8.0~repack-3"
  words := by decide
  slash := by decide
  colon := by decide
  unmarked := by decide

/-- A foreign package, which both upgrades install. -/
def multiarch : AptHost where
  native := "amd64"
  synced := []
  heading := []
  updates := [wine32]
  plain := [.install wine32]
  full := [.install wine32]
  rebootFile := false

/-- The package is marked as phased, though the plain upgrade installs it. -/
theorem foreign_marked_phased : ¬ multiarch.FollowsPlans false ∧
    (aptParse (multiarch.listing false)).1 =
      [⟨"wine32", "8.0~repack-3", "8.0~repack-4", some true, some "phased"⟩] := by
  have hparse : (aptParse (multiarch.listing false)).1 =
      [⟨"wine32", "8.0~repack-3", "8.0~repack-4", some true, some "phased"⟩] := by
    rw [aptParse_listing]
    decide +kernel
  refine ⟨fun hfollows => ?_, hparse⟩
  have hverdicts := hfollows.verdicts
  rw [hparse] at hverdicts
  revert hverdicts
  decide

end Verdicts

end Keepup.Ssh
