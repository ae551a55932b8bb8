import Keepup.Docker.HostEdit
import Keepup.Docker.StackMigration
import Keepup.Lib.Grouped
import Mathlib.Data.String.Basic

/-!
The panel on which the containers of a host are chosen. It lists them over SSH, with a box for each
one, and what is posted takes the place of what was chosen before. The next scan reports what was
ticked; so a panel that does not show everything loses what it does not show.
-/

namespace Keepup.Docker.Monitoring

open Lib Discovery

section Source

/-- A row of `docker ps`, as the panel reads it. The names may be null. -/
structure PsLine where
  id : String
  names : Option String
  image : String
  labels : String
  status : String

/-- What comes back of `docker ps`. A row that is no dictionary raises where the rows are read. -/
inductive PsReply where
  | raised (message : String)
  | printed (returncode : Option Int) (lines : Except String (List PsLine))

structure DisplayContainer where
  name : String
  image : String
  status : String
  running : Bool
  composeProject : Option String
  cssId : String
  portainerManaged : Bool := false

def PsLine.container (line : PsLine) :
    PsContainer := ⟨line.id, line.names.getD "", line.image, line.labels⟩

/-- The reply as the scan takes it, which has no use for names that are null. -/
def PsReply.listing : PsReply → Listing
  | .raised _ => ⟨none, none⟩
  | .printed returncode lines =>
      ⟨returncode, (lines.toOption.filter fun lines => lines.all fun line => line.names.isSome).map
        fun lines => lines.map PsLine.container⟩

/-- Every run of other characters is one dash. -/
def dashed : Bool → List Char → List Char
  | _, [] => []
  | inRun, c :: cs =>
      if ('a' ≤ c ∧ c ≤ 'z') ∨ ('0' ≤ c ∧ c ≤ '9') then c :: dashed false cs
      else if inRun then dashed true cs
      else '-' :: dashed true cs

/- `str.lower`. -/
variable (lower : String → String)

def cssSafeId (name : String) : String :=
  let trimmed := Text.dropEndWhile (· ==
    '-') ((dashed false (lower name).toList).dropWhile (· == '-'))
  Text.orElse (some (String.ofList trimmed)) "container"

def containersForDisplay (lines : List PsLine) : List DisplayContainer :=
  lines.filterMap fun line =>
    let c := line.container
    if c.name = "" then none
    else some {
      name := c.name
      image := c.image
      status := line.status
      running := Text.startsWith (lower line.status) "up"
      composeProject := if c.project = "" then none else some c.project
      cssId := cssSafeId lower c.name }

def discoverContainers : PsReply → Except String (List DisplayContainer)
  | .raised message => .error message
  | .printed returncode lines =>
      if returncode ≠ some 0 then .ok []
      else lines.map fun lines =>
        let managed := portainerManagedProjects lower none (lines.map PsLine.container)
        (containersForDisplay lower lines).map fun c =>
          { c with portainerManaged := c.composeProject.any managed.contains }

def givenProject (c : DisplayContainer) : Option String := c.composeProject.filter (· != "")

def groupContainers (containers : List DisplayContainer) :
    List (String × List DisplayContainer) × List DisplayContainer :=
  let grouped := Grouped.group givenProject containers
  (grouped.1.entries.mergeSort fun a b => decide (a.1 ≤ b.1), grouped.2)

/-- How many containers are Portainer's, and whether it has to be connected for them. -/
def portainerDependency (active : Bool) (containers : List DisplayContainer) : Nat × Bool :=
  let managedCount := containers.countP DisplayContainer.portainerManaged
  (managedCount, decide (0 < managedCount) && !active)

structure Panel where
  host : HostEntry
  composeGroups : List (String × List DisplayContainer)
  standalone : List DisplayContainer
  error : Option String
  portainerManagedCount : Nat
  portainerRequired : Bool

def panelOf (active : Bool) (host : HostEntry) (containers : List DisplayContainer)
    (error : Option String) : Panel where
  host := host
  composeGroups := (groupContainers containers).1
  standalone := (groupContainers containers).2
  error := error
  portainerManagedCount := (portainerDependency active containers).1
  portainerRequired := (portainerDependency active containers).2

/-- The panel, or nothing for a host that is unknown. -/
def adminDockerManage (active : Bool) (config : Config) (slug : String) (reply : PsReply) :
    Option Panel :=
  (config.findHost slug).map fun host =>
    match discoverContainers lower reply with
    | .error message => panelOf active host [] (some message)
    | .ok containers => panelOf active host containers none

/-- The containers that have a box, as they stand on the page. -/
def Panel.offered (panel : Panel) : List DisplayContainer :=
  panel.composeGroups.flatMap Prod.snd ++ panel.standalone

/-- Whether the box of a container is ticked when the panel is opened. -/
def Panel.isChecked (panel : Panel) (c : DisplayContainer) : Bool :=
  !Text.given panel.host.dockerMode || panel.host.dockerMode != some "selected" ||
    (panel.host.dockerContainers.getD []).contains c.name

structure MonitoringForm where
  dockerMode : String := "none"
  dockerContainers : List String := []

/-- The form that is posted with a mode and some of the boxes ticked. -/
def Panel.posted (panel : Panel) (mode : String) (ticked : DisplayContainer → Bool) :
    MonitoringForm where
  dockerMode := mode
  dockerContainers := (panel.offered.filter ticked).map DisplayContainer.name

/-- The form, where nothing is changed on the panel. -/
def Panel.shown (panel : Panel) : MonitoringForm :=
  panel.posted (Text.orElse panel.host.dockerMode "none") panel.isChecked

def adminSaveDockerMonitoring (config : Config) (slug : String) (form : MonitoringForm) : Config :=
  config.setDockerMonitoring slug form.dockerMode
    (if form.dockerMode = "selected" then some form.dockerContainers else none)

end Source

section Boxes

variable {lower : String → String} {active : Bool} {config : Config}
  {slug : String} {host : HostEntry}
variable {reply : PsReply} {panel : Panel}

/-- Each container stands on the page once. -/
theorem panelOf_offered (host : HostEntry) (containers : List DisplayContainer)
    (error : Option String) :
    (panelOf active host containers error).offered.Perm containers := by
  have hsorted := (List.mergeSort_perm (Grouped.group givenProject containers).1.entries
    fun a b => decide (a.1 ≤ b.1)).flatMap_right Prod.snd
  have hvalues : (Grouped.group givenProject containers).1.entries.flatMap Prod.snd =
      (Grouped.group givenProject containers).1.values.flatMap id := by
    rw [Dict.values, List.flatMap_map]
    rfl
  rw [hvalues] at hsorted
  exact (hsorted.append_right _).trans (Grouped.members_group containers)

theorem display_names (lines : List PsLine) :
    (containersForDisplay lower lines).map DisplayContainer.name =
      (lines.map fun line => line.container.name).filter (· != "") := by
  rw [containersForDisplay, List.map_filterMap, List.filter_map,
    ← List.filterMap_eq_map, List.filterMap_filter]
  refine List.filterMap_congr fun line _ => ?_
  by_cases hname : line.container.name = ""
  · simp [hname]
  · simp [hname]

/-- The names on the page, for a reply that has been read. -/
theorem discovered_names {lines : List PsLine} {containers : List DisplayContainer}
    (h : discoverContainers lower (.printed (some 0) (.ok lines)) = .ok containers) :
    containers.map DisplayContainer.name =
      (lines.map fun line => line.container.name).filter (· != "") := by
  have hcontainers := Except.ok.inj h
  rw [← hcontainers, List.map_map, ← @display_names lower]
  rfl

end Boxes

section Scanned

/- What the scan of a host meets. -/
variable (lower : String → String) (env : SelfEnvironment) (check : String → ImageCheck)
  (knownStacks : Option (List (Int × String))) (active : Bool)

/-- The names that the next check of the containers reports for a host. -/
def reported (config : Config) (slug : String) (listing : Listing) : Option (List String) :=
  match config.findHost slug with
  | none => some []
  | some host =>
      if Text.given host.dockerMode
        then monitored lower env check knownStacks active config listing host else some []

/-- The names that a check can report for a host. -/
def reportable (host : HostEntry) (containers : List PsContainer) : List String :=
  (rawAll lower knownStacks (Compose.target env host) active containers).map PsContainer.name

/-- Whether the settings of a host ask for a container. -/
def asksFor (host : HostEntry) (containers : List PsContainer) (name : String) : Bool :=
  match pendingStacks host with
  | some selected =>
      (expandedNames lower knownStacks
      (Compose.target env host) active containers selected).contains name
  | none => (allowedContainers host).all fun names => names.contains name

variable {lower env check knownStacks active}
variable {config : Config} {host : HostEntry} {listing : Listing} {containers : List PsContainer}

theorem monitored_read (h : listing.containers = some containers) :
    monitored lower env check knownStacks active config listing host =
      some ((reportable lower env knownStacks active host containers).filter
        (asksFor lower env knownStacks active host containers)) := by
  rw [monitored, containersForHost, h, reportable, List.filter_map]
  cases hpending : pendingStacks host
  all_goals
    simp only [Option.map_some, names_of_rows]
    congr 2
    refine List.filter_congr fun c _ => ?_
    rw [Function.comp_apply, asksFor, hpending]

/-- The entry that a slug stands for: the first one that has it, and filled in. -/
structure Placed (config : Config) (slug : String) (before : List HostEntry) (host : HostEntry)
    (after : List HostEntry) : Prop where
  hosts : config.hosts = before ++ host :: after
  named : host.slug = slug
  first : ∀ x ∈ before, x.slug ≠ slug
  filled : Text.isIn "XXX" host.host = false

variable {slug : String} {before after : List HostEntry}

theorem Placed.findHost (hplace : Placed config slug before host after) :
    config.findHost slug = some host := by
  have hnone : (before.filter fun x => !Text.isIn "XXX" x.host).find? (fun x => x.slug == slug) =
      none := by
    rw [List.find?_eq_none]
    intro x hx hfound
    exact hplace.first x (List.mem_of_mem_filter hx) (eq_of_beq hfound)
  rw [Config.findHost, Config.getHosts, hplace.hosts, List.filter_append,
    List.filter_cons_of_pos (by simp [hplace.filled]), List.find?_append, hnone, Option.none_or,
    List.find?_cons_of_pos (by simp [hplace.named])]

/-- What a form asks for. -/
def MonitoringForm.asksFor (form : MonitoringForm) (name : String) : Bool :=
  form.dockerMode != "" && form.dockerMode != "none" &&
    (form.dockerMode != "selected" || form.dockerContainers.contains name)

theorem monitoredEntry_host (mode : String) (names : Option (List String)) (host : HostEntry) :
    (Config.monitoredEntry mode names host).host = host.host := by
  rw [Config.monitoredEntry]
  split <;> rfl

/-- The save is about the host that the panel shows. -/
theorem Placed.save (hplace : Placed config slug before host after) (form : MonitoringForm) :
    Placed (adminSaveDockerMonitoring config slug form) slug before
      (Config.monitoredEntry form.dockerMode
      (if form.dockerMode = "selected" then some form.dockerContainers else none) host) after where
  hosts := by
    rw [adminSaveDockerMonitoring, Config.setDockerMonitoring, hplace.hosts,
      Config.changeHost_append hplace.first hplace.named]
  named := by
    rw [HostEntry.slug, Config.monitoredEntry_name]
    exact hplace.named
  first := hplace.first
  filled := by
    rw [monitoredEntry_host]
    exact hplace.filled

theorem reportable_monitoredEntry (mode : String) (names : Option (List String))
    (host : HostEntry) :
    reportable lower env knownStacks active (Config.monitoredEntry mode names host) containers =
      reportable lower env knownStacks active host containers := by
  rw [reportable, reportable]
  exact congrArg (List.map PsContainer.name) (rawAll_congr rfl containers)

theorem reported_now (hfound : config.findHost slug = some host)
    (hread : listing.containers = some containers) :
    reported lower env check knownStacks active config slug listing =
      some ((reportable lower env knownStacks active host containers).filter fun name =>
        Text.given host.dockerMode &&
          asksFor lower env knownStacks active host containers name) := by
  rw [reported, hfound]
  dsimp only
  cases Text.given host.dockerMode with
  | false => simp
  | true => simp [monitored_read hread]

theorem given_monitoredEntry (mode : String) (names : Option (List String)) (host : HostEntry) :
    Text.given (Config.monitoredEntry mode names host).dockerMode =
      (mode != "" && mode != "none") := by
  rw [Config.monitoredEntry]
  split
  · rename_i hnone
    simp [hnone, Text.given, Text.orElse]
  · rename_i hother
    by_cases hempty : mode = ""
    · simp [hempty, Text.given, Text.orElse]
    · simp [hempty, hother, Text.given, Text.orElse]

theorem asksFor_monitoredEntry {mode : String} (hmode : mode ≠ "none") (names : List String)
    (name : String) :
    asksFor lower env knownStacks active
        (Config.monitoredEntry mode (if mode = "selected" then some names
          else none) host) containers name =
      (mode != "selected" || names.contains name) := by
  rw [Config.monitoredEntry, if_neg hmode]
  by_cases hselected : mode = "selected"
  · simp [asksFor, pendingStacks, allowedContainers, hselected]
  · simp [asksFor, pendingStacks, allowedContainers, hselected]

/-- After a save the scan reports what was asked for, of the containers that it can report. -/
theorem reported_save (hplace : Placed config slug before host after)
    (hread : listing.containers = some containers) (form : MonitoringForm) :
    reported lower env check knownStacks active
      (adminSaveDockerMonitoring config slug form) slug listing =
      some ((reportable lower env knownStacks active host containers).filter form.asksFor) := by
  rw [reported_now (hplace.save form).findHost hread, reportable_monitoredEntry]
  congr 2
  funext name
  rw [given_monitoredEntry, MonitoringForm.asksFor]
  by_cases hnone : form.dockerMode = "none"
  · simp [hnone]
  · rw [asksFor_monitoredEntry hnone]

end Scanned

section Opened

variable {lower : String → String} {env : SelfEnvironment} {check : String → ImageCheck}
  {knownStacks : Option (List (Int × String))} {active panelActive : Bool}
variable {config : Config} {slug : String} {before after : List HostEntry} {host : HostEntry}
variable {reply : PsReply} {panel : Panel} {listing : Listing} {containers : List PsContainer}

theorem manage_eq (hfound : config.findHost slug = some host)
    (hpanel : adminDockerManage lower panelActive config slug reply = some panel) :
    ∃ error, panel = panelOf panelActive host
      ((discoverContainers lower reply).toOption.getD []) error := by
  rw [adminDockerManage, hfound, Option.map_some, Option.some_inj] at hpanel
  rw [← hpanel]
  cases discoverContainers lower reply with
  | error message => exact ⟨some message, rfl⟩
  | ok containers => exact ⟨none, rfl⟩

theorem panelOf_names (host : HostEntry) (containers : List DisplayContainer)
    (error : Option String) :
    ((panelOf panelActive host containers error).offered.map DisplayContainer.name).Perm
      (containers.map DisplayContainer.name) := (panelOf_offered host containers error).map _

theorem listing_containers {returncode : Option Int} {lines : List PsLine}
    (h : (PsReply.printed returncode (.ok lines)).listing.containers = some containers) :
    containers = lines.map PsLine.container := by
  obtain ⟨read, hread, rfl⟩ := Option.map_eq_some_iff.mp h
  obtain ⟨hlines, _⟩ := Option.filter_eq_some_iff.mp hread
  rw [Option.some_inj.mp hlines]

/-- What can be reported has a name. -/
theorem reportable_named {name : String}
    (h : name ∈ reportable lower env knownStacks active host containers) :
    name ∈ containers.map PsContainer.name ∧ name ≠ "" := by
  obtain ⟨c, hc, rfl⟩ := List.mem_map.mp h
  obtain ⟨hmem, hnamed, _⟩ := mem_rawAll.mp hc
  exact ⟨List.mem_map_of_mem hmem, hnamed⟩

/-- On a panel that could be filled there is a box for everything that the scan of the same reply
can report. -/
theorem reportable_offered {lines : List PsLine} (hfound : config.findHost slug = some host)
    (hpanel : adminDockerManage lower panelActive config slug (.printed (some 0) (.ok lines)) =
      some panel)
    (hread : (PsReply.printed (some 0) (.ok lines)).listing.containers = some containers) :
    reportable lower env knownStacks active host containers ⊆
      panel.offered.map DisplayContainer.name := by
  intro name hname
  obtain ⟨hmem, hnamed⟩ := reportable_named hname
  obtain ⟨error, rfl⟩ := manage_eq hfound hpanel
  rw [(panelOf_names host _ error).mem_iff,
    show discoverContainers lower (.printed (some 0) (.ok lines)) = .ok _ from rfl,
    Except.toOption, Option.getD_some, discovered_names rfl, List.mem_filter, bne_iff_ne]
  rw [listing_containers hread, List.map_map] at hmem
  exact ⟨hmem, hnamed⟩

/-- Whether a container is still asked for once the panel has been saved as it was shown. -/
def Panel.retains (panel : Panel) (name : String) : Bool :=
  panel.host.dockerMode != some "none" && (panel.host.dockerMode != some "selected" ||
    (pendingStacks panel.host).isNone && (panel.offered.map DisplayContainer.name).contains name)

theorem mem_shown {name : String} :
    name ∈ (panel.offered.filter panel.isChecked).map DisplayContainer.name ↔
    name ∈ panel.offered.map DisplayContainer.name ∧ (Text.given panel.host.dockerMode = false ∨
      panel.host.dockerMode ≠ some "selected" ∨ name ∈ panel.host.dockerContainers.getD []) := by
  simp only [List.mem_map, List.mem_filter, Panel.isChecked, Bool.or_eq_true,
    Bool.not_eq_true', bne_iff_ne,
    List.contains_iff_mem]
  constructor
  · rintro ⟨c, ⟨hc, hticked⟩, rfl⟩
    exact ⟨⟨c, hc, rfl⟩, or_assoc.mp hticked⟩
  · rintro ⟨⟨c, hc, rfl⟩, hticked⟩
    exact ⟨c, ⟨hc, or_assoc.mpr hticked⟩, rfl⟩

/-- The form as it is shown asks for what the settings asked for and the panel retains. -/
theorem shown_asksFor (name : String) : panel.shown.asksFor name =
    (Text.given panel.host.dockerMode &&
      asksFor lower env knownStacks active panel.host containers name &&
      panel.retains name) := by
  have hnames : panel.shown.dockerContainers =
    (panel.offered.filter panel.isChecked).map DisplayContainer.name := rfl
  rw [Bool.eq_iff_iff, MonitoringForm.asksFor, hnames]
  cases hmode : panel.host.dockerMode with
  | none => simp [Panel.shown, Panel.posted, hmode, Text.given, Text.orElse]
  | some mode =>
      by_cases hempty : mode = ""
      · simp [Panel.shown, Panel.posted, hmode, hempty, Text.given, Text.orElse]
      have hshown : panel.shown.dockerMode = mode := by
        simp [Panel.shown, Panel.posted, hmode, hempty, Text.orElse]
      have hgiven : Text.given (some mode) = true := by simp [Text.given, Text.orElse, hempty]
      rw [hshown, hgiven, Panel.retains, hmode]
      by_cases hselected : mode = "selected"
      · subst hselected
        rw [asksFor, pendingStacks, allowedContainers, hmode]
        cases hcontainers : panel.host.dockerContainers with
        | none =>
            cases panel.host.dockerStacks <;> simp [mem_shown, hmode, hcontainers, hgiven]
        | some names => simp [mem_shown, hmode, hcontainers, hgiven, and_comm]
      · simp [hempty, hselected, asksFor, pendingStacks, allowedContainers, hmode]

/-- What is left of what is reported, once the panel has been saved as it was shown. -/
theorem reported_shown (hplace : Placed config slug before host after)
    (hpanel : adminDockerManage lower panelActive config slug reply = some panel)
    (hread : listing.containers = some containers) {names : List String}
    (hnow : reported lower env check knownStacks active config slug listing = some names) :
    reported lower env check knownStacks active
      (adminSaveDockerMonitoring config slug panel.shown) slug listing =
      some (names.filter panel.retains) := by
  have hfound := hplace.findHost
  obtain ⟨error, rfl⟩ := manage_eq hfound hpanel
  rw [reported_now hfound hread] at hnow
  rw [reported_save hplace hread, ← Option.some_inj.mp hnow, List.filter_filter]
  congr 2
  funext name
  rw [@shown_asksFor lower env knownStacks active _ containers name, Bool.and_comm]
  rfl

theorem discovered_failed (h : ∀ lines, reply ≠ .printed (some 0) (.ok lines)) :
    (discoverContainers lower reply).toOption.getD [] = [] := by
  cases reply with
  | raised message => rfl
  | printed returncode lines =>
      rw [discoverContainers]
      split
      · rfl
      · rename_i hcode
        cases lines with
        | error message => rfl
        | ok lines =>
            exact absurd (congrArg (PsReply.printed · (.ok lines)) (not_not.mp hcode)) (h lines)

theorem answered_of_listing (hread : reply.listing.containers = some containers)
    (hcode : reply.listing.returncode = some 0) :
    ∃ lines, reply = .printed (some 0) (.ok lines) := by
  cases reply with
  | raised message => cases hread
  | printed returncode lines =>
      cases lines with
      | error message => cases hread
      | ok lines => exact ⟨lines, congrArg (PsReply.printed · (.ok lines)) hcode⟩

theorem forall_mem_const {α : Type} (as : List α) (p : Prop) : (∀ a ∈ as, p) ↔ as = [] ∨ p := by
  cases as with
  | nil => simp
  | cons a as =>
      rw [or_iff_right (List.cons_ne_nil a as)]
      exact ⟨fun h => h a List.mem_cons_self, fun h _ _ => h⟩

/-- The panel has a box for each container, once, and with it one for everything that a scan can
report. Whatever is posted from there, the next scan reports what is ticked of what it can report,
or all of it, or nothing, as the mode says. -/
theorem panel_monitors (hplace : Placed config slug before host after) (lines : List PsLine) :
    ∃ panel, adminDockerManage lower panelActive config slug (.printed (some 0) (.ok lines)) =
      some panel ∧
      (panel.offered.map DisplayContainer.name).Perm
        ((lines.map fun line => line.container.name).filter (· != "")) ∧
      (∀ containers, (PsReply.printed (some 0) (.ok lines)).listing.containers = some containers →
        reportable lower env knownStacks active host containers ⊆
          panel.offered.map DisplayContainer.name) ∧
      ∀ mode ticked listing containers, listing.containers = some containers →
        reported lower env check knownStacks active
            (adminSaveDockerMonitoring config slug (panel.posted mode ticked)) slug listing =
          some ((reportable lower env knownStacks active host containers).filter fun name =>
            mode != "" && mode != "none" &&
              (mode != "selected" || panel.offered.any fun c => ticked c && c.name == name)) := by
  have hfound := hplace.findHost
  have hpanel : ∃ panel, adminDockerManage lower panelActive config slug
      (.printed (some 0) (.ok lines)) = some panel := by
    rw [adminDockerManage, hfound]
    exact ⟨_, rfl⟩
  obtain ⟨panel, hpanel⟩ := hpanel
  refine ⟨panel, hpanel, ?_, fun containers hread => reportable_offered hfound hpanel hread, ?_⟩
  · obtain ⟨error, rfl⟩ := manage_eq hfound hpanel
    rw [← @discovered_names lower lines _ rfl]
    exact panelOf_names host _ error
  · intro mode ticked listing containers hread
    rw [reported_save hplace hread]
    congr 2
    funext name
    have hticked : ((panel.offered.filter ticked).map DisplayContainer.name).contains name =
        panel.offered.any fun c => ticked c && c.name == name := by
      rw [Bool.eq_iff_iff, List.contains_iff_mem, List.mem_map, List.any_eq_true]
      simp only [List.mem_filter, Bool.and_eq_true, beq_iff_eq, and_assoc]
    rw [MonitoringForm.asksFor, ← hticked]
    rfl

def watched : HostEntry where
  name := "nas"
  host := "10.0.0.2"
  dockerMode := some "selected"
  dockerContainers := some ["jellyfin"]

def jellyfin : PsLine := ⟨"8d3b6c4f5a1e", some "/jellyfin", "jellyfin/jellyfin", "", "Up 3 days"⟩

def answered : PsReply := .printed (some 0) (.ok [jellyfin])

theorem watched_placed : Placed { hosts := [watched] } "nas" [] watched [] where
  hosts := rfl
  named := by decide +kernel
  first := by simp
  filled := by decide +kernel

def radarr : PsLine :=
  ⟨"51c09fe0d7b2", some "/radarr", "linuxserver/radarr", "com.docker.compose.project=media",
    "Up 2 hours"⟩

def bothAnswered : PsReply := .printed (some 0) (.ok [jellyfin, radarr])

/-- Of two boxes the one that was ticked is cleared and the other ticked. -/
theorem watched_monitors :
    ∃ panel, adminDockerManage id false { hosts := [watched] } "nas" bothAnswered = some panel ∧
      reported id ⟨"", none, ""⟩ (fun _ => ⟨.unknown, none⟩) none false { hosts := [watched] } "nas"
        bothAnswered.listing = some ["jellyfin"] ∧
      reported id ⟨"", none, ""⟩ (fun _ => ⟨.unknown, none⟩) none false
        (adminSaveDockerMonitoring { hosts := [watched] } "nas"
          (panel.posted "selected" fun c => c.name == "radarr")) "nas"
        bothAnswered.listing = some ["radarr"] := by
  obtain ⟨panel, hpanel, hboxes, _, hreports⟩ := @panel_monitors id ⟨"", none, ""⟩
    (fun _ => ⟨.unknown, none⟩) none false false { hosts := [watched] } "nas" [] [] watched
    watched_placed [jellyfin, radarr]
  have hnames : ([jellyfin, radarr].map fun line => line.container.name).filter (· != "") =
      ["jellyfin", "radarr"] := by decide +kernel
  have hcan : reportable id ⟨"", none, ""⟩ none false watched
      [jellyfin.container, radarr.container] = ["jellyfin", "radarr"] := by decide +kernel
  have hticked : ∀ name, (panel.offered.any fun c => c.name == "radarr" && c.name == name) =
      ["jellyfin", "radarr"].any fun other => other == "radarr" && other == name := by
    intro name
    rw [← hnames, ← hboxes.any_eq, List.any_map]
    rfl
  refine ⟨panel, hpanel, by decide +kernel, ?_⟩
  rw [hreports "selected" (fun c => c.name == "radarr") bothAnswered.listing
    [jellyfin.container, radarr.container] rfl, hcan]
  simp only [hticked]
  decide +kernel

/-- Saving the panel as it was opened keeps what a scan reports exactly if there is a box for it
and no selection of projects is still waiting for its migration. Where Docker could be asked
there always is a box, for the scan of what was listed; where it could not be, nothing of a
selection is kept. -/
theorem shown_panel_keeps_iff (hplace : Placed config slug before host after)
    (hpanel : adminDockerManage lower panelActive config slug reply = some panel)
    (hread : listing.containers = some containers) {names : List String}
    (hnow : reported lower env check knownStacks active config slug listing = some names) :
    let keeps := reported lower env check knownStacks active
      (adminSaveDockerMonitoring config slug panel.shown) slug listing = some names
    (keeps ↔ ∀ name ∈ names, host.dockerMode ≠ some "none" ∧ (host.dockerMode = some "selected" →
      pendingStacks host = none ∧ name ∈ panel.offered.map DisplayContainer.name)) ∧
    (listing = reply.listing → listing.returncode = some 0 →
      (keeps ↔ names = [] ∨ host.dockerMode ≠ some "none" ∧ pendingStacks host = none)) ∧
    ((∀ lines, reply ≠ .printed (some 0) (.ok lines)) →
      (keeps ↔
        names = [] ∨ host.dockerMode ≠ some "none" ∧ host.dockerMode ≠ some "selected")) := by
  intro keeps
  have hfound := hplace.findHost
  have hhost : panel.host = host := by
    obtain ⟨error, rfl⟩ := manage_eq hfound hpanel
    rfl
  have hkeeps : keeps ↔ ∀ name ∈ names, host.dockerMode ≠ some "none" ∧
    (host.dockerMode = some "selected" →
      pendingStacks host = none ∧ name ∈ panel.offered.map DisplayContainer.name) := by
    have hfilter : keeps ↔ names.filter panel.retains = names := by
      rw [← Option.some_inj,
        ← @reported_shown lower env check knownStacks active panelActive config slug before after
        host reply panel listing containers hplace hpanel hread names hnow]
    rw [hfilter, List.filter_eq_self]
    refine forall₂_congr fun name _ => ?_
    rw [Panel.retains, hhost, Bool.and_eq_true, Bool.or_eq_true,
      Bool.and_eq_true, bne_iff_ne, bne_iff_ne,
      Option.isNone_iff_eq_none, List.contains_iff_mem]
    exact and_congr_right fun _ => imp_iff_not_or.symm
  refine ⟨hkeeps, fun hsame hcode => ?_, fun hfailed => ?_⟩
  · subst hsame
    obtain ⟨lines, rfl⟩ := answered_of_listing hread hcode
    have hoffered : ∀ name ∈ names, name ∈ panel.offered.map DisplayContainer.name := by
      rw [reported_now hfound hread] at hnow
      rw [← Option.some_inj.mp hnow]
      exact fun name hname => reportable_offered hfound hpanel hread (List.mem_of_mem_filter hname)
    have hwaits : pendingStacks host = none ↔
        (host.dockerMode = some "selected" → pendingStacks host = none) := by
      refine ⟨fun h _ => h, fun h => ?_⟩
      by_cases hselected : host.dockerMode = some "selected"
      · exact h hselected
      · rw [pendingStacks, if_neg fun hboth => hselected hboth.1]
    rw [hkeeps, ← forall_mem_const]
    refine forall₂_congr fun name hname => and_congr_right fun _ => ?_
    rw [and_iff_left (hoffered name hname)]
    exact hwaits.symm
  · have hnone : panel.offered.map DisplayContainer.name = [] := by
      obtain ⟨error, rfl⟩ := manage_eq hfound hpanel
      rw [discovered_failed hfailed]
      exact List.perm_nil.mp (panelOf_names host [] error)
    rw [hkeeps, ← forall_mem_const]
    refine forall₂_congr fun name _ => and_congr_right fun _ => ?_
    rw [hnone]
    simp

/-- A panel that was opened while the host was down, and saved as it was, takes
the selection away. -/
theorem unreachable_panel_loses :
    ∃ panel, adminDockerManage id false { hosts := [watched] } "nas" (.raised "timed out") =
      some panel ∧
      reported id ⟨"", none, ""⟩ (fun _ => ⟨.unknown, none⟩) none false
        (adminSaveDockerMonitoring
          { hosts := [watched] } "nas" panel.shown) "nas" answered.listing ≠
          some ["jellyfin"] := by
  have hfound := watched_placed.findHost
  have hnow : reported id ⟨"", none, ""⟩ (fun _ =>
    ⟨.unknown, none⟩) none false { hosts := [watched] } "nas"
      answered.listing = some ["jellyfin"] := by decide +kernel
  refine ⟨panelOf false watched [] (some "timed out"), by rw [adminDockerManage, hfound]; rfl, ?_⟩
  obtain ⟨_, _, hfailed⟩ :=
    @shown_panel_keeps_iff id ⟨"", none, ""⟩ (fun _ => ⟨.unknown, none⟩) none false false
    { hosts := [watched] } "nas" [] [] watched (.raised "timed out")
      (panelOf false watched [] (some "timed out"))
    answered.listing [jellyfin.container] watched_placed
      (by rw [adminDockerManage, hfound]; rfl) rfl
    ["jellyfin"] hnow
  intro hkeeps
  rcases (hfailed (by simp)).mp hkeeps with hnone | ⟨_, hnot⟩
  · cases hnone
  · exact hnot rfl

end Opened

section Wizard

structure WizardContainer where
  id : String
  name : String
  image : String

/-- The output of `docker ps`, with the name and the image of each line that is an object. -/
inductive WizardReply where
  | raised
  | printed (lines : List (Option (String × String)))

structure WizardHost where
  id : String
  name : String
  ip : String
  containers : List WizardContainer

structure WizardPage where
  hosts : List WizardHost
  pctExecCount : Nat
  proxmoxDockerHosts : List (String × String)

/-- The `discover_containers` of `ssh_client`, for running containers. It never raises. -/
def runningContainers : WizardReply → List WizardContainer
  | .raised => []
  | .printed lines => lines.filterMap fun line =>
      line.bind fun (name, image) => if name = "" then none else some ⟨name, name, image⟩

/-- A Proxmox node, on which there is no Docker. -/
def isHypervisor (host : HostEntry) : Bool := Text.given host.proxmoxNode && host.proxmoxVmid.isNone

def setupContainersPage (config : Config) (reply : HostEntry → WizardReply) : WizardPage where
  hosts := (config.getHosts.filter fun h => !isHypervisor h && h.proxmoxVmid.isNone).map fun h =>
    ⟨h.slug, h.name, h.host, runningContainers (reply h)⟩
  pctExecCount := config.getHosts.countP fun h => h.proxmoxVmid.isSome && !Text.given h.dockerMode
  proxmoxDockerHosts :=
    (config.getHosts.filter fun h => h.proxmoxVmid.isSome && Text.given h.dockerMode).map
    fun h => (h.name, h.host)

/-- The values of the ticked boxes. -/
def WizardPage.posted (page : WizardPage) (ticked : String → WizardContainer → Bool) :
    List String :=
  page.hosts.flatMap fun host =>
    (host.containers.filter (ticked host.id)).map fun c => host.id ++ ":" ++ c.id

/-- The containers that are ticked for a host. -/
def WizardPage.tickedFor (page : WizardPage) (ticked : String → WizardContainer → Bool)
    (slug : String) :
    List String :=
  (page.hosts.filter fun host => host.id == slug).flatMap fun host =>
    (host.containers.filter (ticked host.id)).map WizardContainer.id

/-- No slug has a colon, so that the value of a box is read back as it was meant. -/
theorem selectedFor_value {owner slug name : String} (howner : ':' ∉ owner.toList) :
    Config.selectedFor slug (owner ++ ":" ++ name) = if owner = slug then some name else none := by
  have hspan : (owner ++ ":" ++ name).toList.span (· ≠ ':') =
      (owner.toList, ':' :: name.toList) := by
    have hother : ∀ c ∈ owner.toList, decide (c ≠ ':') = true := fun c hc =>
      decide_eq_true fun heq => howner (heq ▸ hc)
    rw [List.span_eq_takeWhile_dropWhile]
    simp only [String.toList_append, List.append_assoc]
    rw [List.takeWhile_append_of_pos hother, List.dropWhile_append_of_pos hother]
    simp
  rw [Config.selectedFor, hspan]
  simp

theorem page_slug_plain {config : Config} {reply : HostEntry → WizardReply} {host : WizardHost}
    (h : host ∈ (setupContainersPage config reply).hosts) : ':' ∉ host.id.toList := by
  obtain ⟨entry, _, rfl⟩ := List.mem_map.mp h
  intro hcolon
  exact absurd (slugify_chars entry.name ':' hcolon) (by decide)

/-- What is posted for a host are its own boxes. -/
theorem posted_for {config : Config} {reply : HostEntry → WizardReply}
    (ticked : String → WizardContainer → Bool) (slug : String) :
    ((setupContainersPage config reply).posted ticked).filterMap (Config.selectedFor slug) =
      (setupContainersPage config reply).tickedFor ticked slug := by
  have hplain : ∀ host ∈ (setupContainersPage config reply).hosts, ':' ∉ host.id.toList :=
    fun _ => page_slug_plain
  rw [WizardPage.posted, WizardPage.tickedFor]
  generalize (setupContainersPage config reply).hosts = hosts at hplain
  induction hosts with
  | nil => rfl
  | cons host hosts ih =>
      have howner := hplain host List.mem_cons_self
      rw [List.flatMap_cons, List.filterMap_append, ih fun x hx =>
        hplain x (List.mem_cons_of_mem _ hx),
        List.filterMap_map]
      have hown : Config.selectedFor slug ∘ (fun c : WizardContainer => host.id ++ ":" ++ c.id) =
          fun c => if host.id = slug then some c.id else none := by
        funext c
        exact selectedFor_value howner
      rw [hown]
      by_cases hslug : host.id = slug
      · simp [hslug]
      · simp [hslug]

variable {lower : String → String} {env : SelfEnvironment} {check : String → ImageCheck}
  {knownStacks : Option (List (Int × String))} {active : Bool}
variable {config : Config} {slug : String} {host : HostEntry} {listing : Listing}
  {containers : List PsContainer}

/-- The entry of a host after the save, by what was ticked for it. -/
def wizardEntry (names : List String) (host : HostEntry) : HostEntry :=
  if names = [] then host else selecting host names

theorem findHost_wizard (hfound : config.findHost slug = some host) (selections : List String) :
    (config.saveWizardContainerSelection selections).findHost slug =
      some (wizardEntry (selections.filterMap (Config.selectedFor slug)) host) := by
  let change (h : HostEntry) : HostEntry :=
    wizardEntry (selections.filterMap (Config.selectedFor h.slug)) h
  have hslug : host.slug = slug := by
    have hfirst := hfound
    rw [Config.findHost] at hfirst
    have hequal := List.find?_some hfirst
    exact eq_of_beq hequal
  have hchange : ∀ h, (change h).host = h.host ∧ (change h).slug = h.slug := by
    intro h
    simp only [change, wizardEntry]
    split <;> exact ⟨rfl, rfl⟩
  have hsaved : (config.saveWizardContainerSelection selections).getHosts =
      config.getHosts.map change := by
    rw [Config.getHosts, Config.saveWizardContainerSelection, Config.getHosts, List.filter_map]
    refine congrArg (List.map change) (List.filter_congr fun h _ => ?_)
    change (!Text.isIn "XXX" (change h).host) = _
    rw [(hchange h).1]
  have hsame : (fun h : HostEntry => (change h).slug == slug) = fun h => h.slug == slug := by
    funext h
    rw [(hchange h).2]
  rw [Config.findHost, hsaved, List.find?_map, Function.comp_def,
    hsame, ← Config.findHost, hfound, Option.map_some,
    ← hslug]

/-- Through the wizard too, the next scan of a host reports exactly the containers that were ticked
for it, of those that it can report; where none was, it reports what it did before. -/
theorem wizard_monitors (hfound : config.findHost slug = some host)
    (hread : listing.containers = some containers) (reply : HostEntry → WizardReply)
    (ticked : String → WizardContainer → Bool) :
    let page := setupContainersPage config reply
    let names := page.tickedFor ticked slug
    reported lower env check knownStacks active
      (config.saveWizardContainerSelection (page.posted ticked)) slug listing =
      if names = [] then reported lower env check knownStacks active config slug listing
      else
        some ((reportable lower env knownStacks active host containers).filter names.contains) := by
  intro page names
  have hsaved := findHost_wizard hfound (page.posted ticked)
  rw [show page.posted ticked = (setupContainersPage config reply).posted ticked from rfl,
    posted_for] at hsaved
  rw [reported_now hsaved hread, reported_now hfound hread, wizardEntry]
  by_cases hnames : names = []
  · rw [if_pos hnames, if_pos hnames]
  · rw [if_neg hnames]
    have hreportable : reportable lower env knownStacks active (selecting host names) containers =
        reportable lower env knownStacks active host containers :=
      congrArg (List.map PsContainer.name) (rawAll_congr rfl containers)
    rw [show (setupContainersPage config reply).tickedFor ticked slug = names from rfl,
      if_neg hnames, hreportable]
    exact congrArg some (List.filter_congr fun name _ => by
      simp [asksFor, pendingStacks, allowedContainers, selecting, Text.given, Text.orElse])

def unwatched : HostEntry where
  name := "nas"
  host := "10.0.0.2"

/-- What `docker ps` prints on the host, to the wizard. -/
def nasReply (_ : HostEntry) : WizardReply := .printed [some ("jellyfin", "jellyfin/jellyfin")]

theorem ticked_nas_monitors :
    reported id ⟨"", none, ""⟩ (fun _ => ⟨.unknown, none⟩) none false
      (Config.saveWizardContainerSelection { hosts := [unwatched] }
        ((setupContainersPage { hosts := [unwatched] } nasReply).posted fun _ _ =>
          true)) "nas" answered.listing =
      some ["jellyfin"] := by
  have hfound : Config.findHost { hosts := [unwatched] } "nas" = some unwatched := by decide +kernel
  have hticked : (setupContainersPage { hosts := [unwatched] } nasReply).tickedFor (fun _ _ =>
    true) "nas" =
      ["jellyfin"] := by decide +kernel
  have hcan : reportable id ⟨"", none, ""⟩ none false unwatched [jellyfin.container] =
    ["jellyfin"] := by decide +kernel
  have hreports := @wizard_monitors id ⟨"", none, ""⟩ (fun _ =>
    ⟨.unknown, none⟩) none false { hosts := [unwatched] }
    "nas" unwatched answered.listing [jellyfin.container] hfound rfl nasReply fun _ _ => true
  dsimp only at hreports
  rw [hticked, hcan, if_neg (List.cons_ne_nil _ _)] at hreports
  exact hreports

end Wizard

end Keepup.Docker.Monitoring
