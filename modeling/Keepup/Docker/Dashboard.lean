import Keepup.Docker.StackMigration
import Keepup.Lib.Sorting
import Keepup.Registry.Lookup
import Mathlib.Data.String.Basic

/-!
The SSH half of the container dashboard. All Docker hosts are scanned at once; a scan that migrates
an older selection writes the configuration while the others are still under way. The rows are put
together when all have come back, and the page must not depend on the order in which they did.
-/

namespace Keepup.Docker.Dashboard

open Lib Discovery Registry

section Images

/-- An image id, with or without its prefix. -/
def isBareImageId (image : String) : Bool :=
  Text.startsWith image "sha256:" ||
    (image.toList.all fun c => c.isDigit || ('a' ≤ c && c ≤ 'f')) && 12 ≤
      image.length && image.length ≤ 64

def usableTag (entry : String) : Bool := entry != "" && !Text.isIn "<none>" entry

/-- The repository of an entry of `RepoDigests`. -/
def digestRepository (entry : String) : Option String :=
  ((Text.cut digestMark entry).map Prod.fst).filter usableTag

/-- The reference to look up for the image of a container. -/
def resolveImageRef (image : String) (repoTags repoDigests : List String) : Option String :=
  if isBareImageId image = false then some image
  else match repoTags.find? usableTag with
    | some tag => some tag
    | none => (repoDigests.findSome? digestRepository).map fun repo => repo ++ ":latest"

/-- What `docker image inspect` comes to. It counts as raised too when its output cannot be read. -/
inductive Inspection where
  | raised
  | failed
  | printed (repoDigests repoTags : List String)

def checkImageStatus (remote : String → DigestResult) (image : String) : Inspection → ImageCheck
  | .raised => ⟨.unknown, some "registry_error"⟩
  | .failed => checkImageUpdate remote (resolveImageRef image [] []) none
  | .printed repoDigests repoTags =>
      checkImageUpdate remote (resolveImageRef image repoTags repoDigests)
      (extractLocalDigest repoDigests image)

/-- The page says whether there is an update, or why it does not know. -/
def Told (check : ImageCheck) : Prop :=
  (check.status = .unknown ∧ ∃ reason, check.reason = some reason ∧
    (reason, Notifier.reasonLabel reason) ∈ Notifier.reasonLabels) ∨
  ((check.status = .updateAvailable ∨ check.status = .upToDate) ∧ check.reason = none)

theorem checkImageUpdate_told (creds : Option (String × String)) (replies : Nat → Request → Reply)
    (image localDigest : Option String) :
    Told (checkImageUpdate (remoteDigest creds replies) image localDigest) := by
  simp only [checkImageUpdate]
  split
  · exact .inl ⟨rfl, _, rfl, by decide⟩
  split
  · exact .inl ⟨rfl, _, rfl, by decide⟩
  rcases remoteDigest_explained creds replies (image.getD "") with
    ⟨_, _, digest, _, _, _, _, _, _, hresult⟩ | ⟨reason, hlabel, hresult⟩
  · rw [hresult]
    dsimp only
    split
    · exact .inr ⟨.inl rfl, rfl⟩
    · exact .inr ⟨.inr rfl, rfl⟩
  · rw [hresult]
    have hgiven : reason ≠ "" := by
      rintro rfl
      exact absurd hlabel (by decide)
    exact .inl ⟨rfl, reason, by simp [Text.orElse, hgiven], hlabel⟩

theorem checkImageStatus_told (creds : Option (String × String)) (replies : Nat → Request → Reply)
    (image : String) (inspection : Inspection) :
    Told (checkImageStatus (remoteDigest creds replies) image inspection) := by
  cases inspection with
  | raised => exact .inl ⟨rfl, _, rfl, by decide⟩
  | failed =>
      rw [checkImageStatus]
      exact checkImageUpdate_told creds replies _ _
  | printed repoDigests repoTags =>
      rw [checkImageStatus]
      exact checkImageUpdate_told creds replies _ _

end Images

section Source

/-- What a check of all hosts meets: what it knows from Portainer, what the hosts print, by their
slugs, and what the registries reply to the look-up for an image of a host. -/
structure Surroundings where
  lower : String → String
  env : SelfEnvironment
  knownStacks : Option (List (Int × String))
  active : Bool
  listing : String → Listing
  inspect : String → String → Inspection
  creds : Option (String × String)
  replies : String → String → Nat → Request → Reply

variable (found : Surroundings)

def Surroundings.check (slug image : String) : ImageCheck :=
  checkImageStatus (remoteDigest found.creds (found.replies slug image)) image
    (found.inspect slug image)

def scanHost (host : HostEntry) (config : Config) : Config × Option (List StackRow) :=
  containersForHost found.lower found.knownStacks (Compose.target found.env host) found.active
    (found.check host.slug) host (found.listing host.slug) config

def dockerHosts (config : Config) : List HostEntry :=
  config.getHosts.filter fun host => Text.given host.dockerMode

/-- The configuration, and the scans that have come back. -/
structure Gathering where
  config : Config
  results : List (HostEntry × Option (List StackRow)) := []

/-- The scan of a host comes to its write. It has the entry from when all were started. -/
def Gathering.scan (g : Gathering) (host : HostEntry) : Gathering :=
  let scanned := scanHost found host g.config
  { config := scanned.1, results := g.results ++ [(host, scanned.2)] }

/-- The scans in the order in which they come back. -/
def gather (order : List HostEntry) (config : Config) : Gathering :=
  order.foldl (Gathering.scan found) { config := config }

/-- `zip(hosts, results)`: the results stand in the order of the hosts. -/
def entries (hosts : List HostEntry) (results : List (HostEntry × Option (List StackRow))) :
    List StackRow :=
  hosts.flatMap fun host => ((results.lookup host).getD none).getD []

def getStacksWithUpdateStatus (order : List HostEntry) (config : Config) : Config × List StackRow :=
  let gathered := gather found order config
  (gathered.config, (entries (dockerHosts config) gathered.results).mergeSort
    (Sorting.before StackRow.endpointName StackRow.name))

end Source

section Writes

def mapHosts (f : HostEntry → HostEntry) (config : Config) :
    Config := { config with hosts := config.hosts.map f }

theorem mapHosts_congr {f g : HostEntry → HostEntry} {config : Config}
    (h : ∀ host ∈ config.hosts, f host = g host) :
    mapHosts f config = mapHosts g config := by
  rw [mapHosts, mapHosts, List.map_congr_left h]

theorem mapHosts_self {f : HostEntry → HostEntry} {config : Config}
    (h : ∀ host ∈ config.hosts, f host = host) :
    mapHosts f config = config := by
  rw [mapHosts, List.map_congr_left h, List.map_id']

theorem mapHosts_mapHosts (f g : HostEntry → HostEntry) (config : Config) :
    mapHosts f (mapHosts g config) = mapHosts (fun host => f (g host)) config := by
  simp [mapHosts, Function.comp_def]

variable {slug : String} {change : HostEntry → HostEntry} {hosts : List HostEntry}

theorem changeHost_map (hslugs : (hosts.map HostEntry.slug).Nodup) :
    Config.changeHost slug change hosts = hosts.map fun h =>
      if h.slug = slug then change h else h := by
  induction hosts with
  | nil => rfl
  | cons x rest ih =>
      rw [List.map_cons, List.nodup_cons] at hslugs
      rw [Config.changeHost, List.map_cons]
      split
      · rename_i hx
        have hrest : ∀ y ∈ rest, y.slug ≠ slug := fun y hy heq =>
          hslugs.1 (List.mem_map.mpr ⟨y, hy, heq.trans hx.symm⟩)
        rw [List.map_congr_left fun y hy => if_neg (hrest y hy), List.map_id']
      · rw [ih hslugs.2]

theorem setDockerMonitoring_map {config : Config} (hslugs : (config.hosts.map HostEntry.slug).Nodup)
    (slug mode : String) (containers : Option (List String)) :
    config.setDockerMonitoring slug mode containers =
      mapHosts (fun h => if h.slug = slug then Config.monitoredEntry mode containers h
        else h) config := by
  rw [Config.setDockerMonitoring, changeHost_map hslugs, mapHosts]

theorem monitored_selecting (names : List String) (host : HostEntry) :
    Config.monitoredEntry "selected" (some names) host = selecting host names := by
  rw [Config.monitoredEntry, if_neg (by decide), if_pos rfl, selecting]

variable (found : Surroundings)

/-- What the selection of a host is expanded to, by a scan that can read the listing. -/
def expanded (host : HostEntry) : Option (List String) :=
  (found.listing host.slug).containers.bind fun containers =>
    (pendingStacks host).map fun selected =>
      expandedNames found.lower found.knownStacks
        (Compose.target found.env host) found.active containers selected

/-- The entry of a host that has been scanned. -/
def settle (host : HostEntry) : HostEntry := (expanded found host).elim host (selecting host)

/-- The rows of a host, none where its scan raises. -/
def rowsOf (host : HostEntry) : Option (List StackRow) :=
  (found.listing host.slug).containers.map fun containers =>
    let names := (expanded found host).or (allowedContainers host)
    ((rawAll found.lower found.knownStacks
      (Compose.target found.env host) found.active containers).filter
      fun c => names.all fun names => names.contains c.name).map
        (stackRow (found.check host.slug) host)

theorem scanHost_eq (host : HostEntry) (config : Config) : scanHost found host config =
    ((expanded found host).elim config fun names =>
      config.setDockerMonitoring host.slug "selected" (some names),
      rowsOf found host) := by
  cases hlisting : (found.listing host.slug).containers with
  | none => simp [scanHost, containersForHost, expanded, rowsOf, hlisting]
  | some containers =>
      cases hpending : pendingStacks host <;>
        simp [scanHost, containersForHost, expanded, rowsOf, hlisting, hpending]

theorem pendingStacks_selecting (host : HostEntry) (names : List String) :
    pendingStacks (selecting host names) = none := by
  simp [pendingStacks, selecting]

@[simp] theorem settle_slug (host : HostEntry) : (settle found host).slug = host.slug := by
  rw [settle]
  cases expanded found host <;> rfl

theorem expanded_settle (host : HostEntry) : expanded found (settle found host) = none := by
  cases hexpanded : expanded found host with
  | none => rw [settle, hexpanded, Option.elim_none, hexpanded]
  | some names =>
      rw [settle, hexpanded, Option.elim_some, expanded, pendingStacks_selecting]
      cases (found.listing (selecting host names).slug).containers <;> rfl

theorem settle_settle (host : HostEntry) :
    settle found (settle found host) = settle found host := by
  conv_lhs => rw [settle, expanded_settle, Option.elim_none]

/-- The migration is not seen on the page. -/
theorem rowsOf_settle (host : HostEntry) :
    rowsOf found (settle found host) = rowsOf found host := by
  cases hexpanded : expanded found host with
  | none => rw [settle, hexpanded, Option.elim_none]
  | some names =>
      have hallowed : allowedContainers (selecting host names) = some names := by
        simp [allowedContainers, selecting]
      have hnone : expanded found (selecting host names) = none := by
        simpa [settle, hexpanded] using expanded_settle found host
      rw [settle, hexpanded, Option.elim_some, rowsOf, rowsOf,
        hnone, hexpanded, hallowed, Option.none_or,
        Option.some_or]
      rfl

theorem dockerMode_settle (host : HostEntry) :
    (settle found host).dockerMode = host.dockerMode := by
  cases hexpanded : expanded found host with
  | none => rw [settle, hexpanded, Option.elim_none]
  | some names =>
      have hpending : pendingStacks host ≠ none := by
        rintro hnone
        simp [expanded, hnone] at hexpanded
      have hmode : host.dockerMode = some "selected" := by
        rw [pendingStacks] at hpending
        by_contra hother
        exact hpending (if_neg fun h => hother h.1)
      rw [settle, hexpanded, Option.elim_some, hmode]
      rfl

theorem host_settle (host : HostEntry) : (settle found host).host = host.host := by
  rw [settle]
  cases expanded found host <;> rfl

end Writes

section Gathered

variable (found : Surroundings)

theorem scanHost_config {config : Config} (hslugs : (config.hosts.map HostEntry.slug).Nodup)
    {host : HostEntry} (hhost : host ∈ config.hosts) : (scanHost found host config).1 =
      mapHosts (fun h => if h = host then settle found h else h) config := by
  have hsame : ∀ h ∈ config.hosts, h.slug = host.slug ↔ h = host := fun h hh =>
    ⟨List.inj_on_of_nodup_map hslugs hh hhost, fun heq => heq ▸ rfl⟩
  rw [scanHost_eq]
  cases hexpanded : expanded found host with
  | none =>
      refine (mapHosts_self fun h _ => ?_).symm
      split
      · rename_i heq
        rw [heq, settle, hexpanded, Option.elim_none]
      · rfl
  | some names =>
      rw [Option.elim_some, setDockerMonitoring_map hslugs]
      refine mapHosts_congr fun h hh => ?_
      by_cases heq : h = host
      · subst heq
        rw [if_pos rfl, if_pos rfl, settle, hexpanded, Option.elim_some, monitored_selecting]
      · rw [if_neg heq, if_neg (mt (hsame h hh).mp heq)]

theorem gather_config (order : List HostEntry) (g : Gathering)
    (hslugs : (g.config.hosts.map HostEntry.slug).Nodup) (horder : order.Nodup)
    (hmem : ∀ host ∈ order, host ∈ g.config.hosts) :
    (order.foldl (Gathering.scan found) g).config =
      mapHosts (fun h => if h ∈ order then settle found h else h) g.config := by
  induction order generalizing g with
  | nil => exact (mapHosts_self fun h _ => by simp).symm
  | cons host rest ih =>
      have hscanned : (g.scan found host).config =
          mapHosts (fun h => if h = host then settle found h else h) g.config :=
        scanHost_config found hslugs (hmem host List.mem_cons_self)
      obtain ⟨hnot, hrest⟩ := List.nodup_cons.mp horder
      have hslug : ∀ h : HostEntry, (if h = host then settle found h else h).slug =
          h.slug := fun h => by
        split <;> simp
      -- the entries that are still to be scanned are as they were
      have hlater : ∀ later ∈ rest, later ∈
          (g.scan found host).config.hosts := fun later hlater => by
        have hne : later ≠ host := fun heq => hnot (heq ▸ hlater)
        rw [hscanned]
        exact List.mem_map.mpr ⟨later, hmem later (List.mem_cons_of_mem _ hlater), if_neg hne⟩
      have hdistinct : ((g.scan found host).config.hosts.map HostEntry.slug).Nodup := by
        rw [hscanned, mapHosts, List.map_map]
        simpa [Function.comp_def, hslug] using hslugs
      rw [List.foldl_cons, ih _ hdistinct hrest hlater, hscanned, mapHosts_mapHosts]
      refine mapHosts_congr fun h hh => ?_
      by_cases heq : h = host
      · subst heq
        have hsettled : (if settle found h ∈ rest then settle found (settle found h)
          else settle found h) =
            settle found h := by split <;> simp [settle_settle]
        simp [hsettled]
      · simp [heq]

theorem gather_results (order : List HostEntry) (g : Gathering) :
    (order.foldl (Gathering.scan found) g).results =
      g.results ++ order.map fun host => (host, rowsOf found host) := by
  induction order generalizing g with
  | nil => simp
  | cons host rest ih =>
      rw [List.foldl_cons, ih]
      simp [Gathering.scan, scanHost_eq]

theorem lookup_results {order : List HostEntry} {host : HostEntry} (h : host ∈ order) :
    (order.map fun host => (host, rowsOf found host)).lookup host = some (rowsOf found host) := by
  induction order with
  | nil => cases h
  | cons first rest ih =>
      rw [List.map_cons, List.lookup_cons]
      by_cases heq : host = first
      · simp [heq]
      · have hrest : host ∈ rest := (List.mem_cons.mp h).resolve_left heq
        have hne : (host == first) = false := beq_eq_false_iff_ne.mpr heq
        simp [hne, ih hrest]

theorem entries_gathered {order hosts : List HostEntry} (h : hosts ⊆ order) :
    entries hosts (order.map fun host => (host, rowsOf found host)) =
      hosts.flatMap fun host => (rowsOf found host).getD [] := by
  refine List.flatMap_congr fun host hhost => ?_
  rw [lookup_results found (h hhost), Option.getD_some]

end Gathered

section Page

variable (found : Surroundings) {config : Config}

def settledConfig (config : Config) : Config :=
  mapHosts (fun h => if h ∈ dockerHosts config then settle found h else h) config

def pageRows (hosts : List HostEntry) : List StackRow :=
  (hosts.flatMap fun host => (rowsOf found host).getD []).mergeSort
    (Sorting.before StackRow.endpointName StackRow.name)

theorem dockerHosts_subset : ∀ host ∈ dockerHosts config, host ∈ config.hosts := fun _ h =>
  (List.mem_filter.mp (List.mem_filter.mp h).1).1

theorem check_eq (hslugs : (config.hosts.map HostEntry.slug).Nodup) {order : List HostEntry}
    (horder : order.Perm (dockerHosts config)) : getStacksWithUpdateStatus found order config =
      (settledConfig found config, pageRows found (dockerHosts config)) := by
  have hhosts : config.hosts.Nodup := hslugs.of_map _
  have hnodup : order.Nodup := horder.nodup_iff.mpr ((hhosts.filter _).filter _)
  have hmem : ∀ host ∈ order, host ∈ config.hosts :=
    fun host h => dockerHosts_subset host (horder.mem_iff.mp h)
  have hconfig := gather_config found order { config := config } hslugs hnodup hmem
  rw [getStacksWithUpdateStatus, gather, hconfig, gather_results, List.nil_append,
    entries_gathered found fun host h => horder.mem_iff.mpr h]
  simp only [horder.mem_iff]
  rfl

theorem dockerHosts_settled :
    dockerHosts (settledConfig found config) = (dockerHosts config).map (settle found) := by
  have hkept : ∀ h : HostEntry, (if h ∈ dockerHosts config then settle found h else h).host =
      h.host := fun h => by
    split <;> simp [host_settle]
  have hmode : ∀ h : HostEntry,
      (if h ∈ dockerHosts config then settle found h else h).dockerMode =
          h.dockerMode := fun h => by
    split <;> simp [dockerMode_settle]
  have hmap : (dockerHosts config).map (fun h => if h ∈ dockerHosts config
    then settle found h else h) =
      (dockerHosts config).map (settle found) := List.map_congr_left fun h hh => if_pos hh
  rw [← hmap]
  simp only [dockerHosts, Config.getHosts, settledConfig, mapHosts,
    List.filter_map, Function.comp_def] at hkept hmode ⊢
  simp only [hkept, hmode]

theorem settledConfig_slugs :
    (settledConfig found config).hosts.map HostEntry.slug = config.hosts.map HostEntry.slug := by
  have hslug : ∀ h : HostEntry, (if h ∈ dockerHosts config then settle found h else h).slug =
      h.slug := fun h => by
    split <;> simp
  simp [settledConfig, mapHosts, Function.comp_def, hslug]

theorem settledConfig_settled :
    settledConfig found (settledConfig found config) = settledConfig found config := by
  conv_lhs => rw [settledConfig, dockerHosts_settled]
  refine mapHosts_self fun host hhost => ?_
  split
  · rename_i hsettled
    obtain ⟨first, _, rfl⟩ := List.mem_map.mp hsettled
    exact settle_settle found first
  · rfl

theorem pageRows_settled : pageRows found (dockerHosts (settledConfig found config)) =
    pageRows found (dockerHosts config) := by
  rw [dockerHosts_settled, pageRows, pageRows, List.flatMap_map]
  simp only [rowsOf_settle]

theorem row_told {host : HostEntry} {rows : List StackRow} (hrows : rowsOf found host = some rows)
    {row : StackRow} (hrow : row ∈ rows) : Told ⟨row.updateStatus, row.unknownReason⟩ := by
  obtain ⟨containers, _, rfl⟩ := Option.map_eq_some_iff.mp hrows
  obtain ⟨c, _, rfl⟩ := List.mem_map.mp hrow
  exact checkImageStatus_told found.creds (found.replies host.slug c.image) c.image
    (found.inspect host.slug c.image)

/-- In whatever order the hosts come back, the check shows the same rows and leaves the same
configuration. The rows are sorted, and they are those of the hosts whose scans come back, each with
a status or the reason why there is none. A check after it shows and leaves the same again, so that
a migration on the way is not seen. -/
theorem check_order_free (hslugs : (config.hosts.map HostEntry.slug).Nodup) :
    let page := pageRows found (dockerHosts config)
    let after := settledConfig found config
    (∀ order, order.Perm (dockerHosts config) → getStacksWithUpdateStatus found order config =
      (after, page)) ∧
    (∀ order, order.Perm (dockerHosts after) → getStacksWithUpdateStatus found order after =
      (after, page)) ∧
    page.Pairwise (fun a b => a.endpointName < b.endpointName ∨
      a.endpointName = b.endpointName ∧ a.name ≤ b.name) ∧
    (∀ row, row ∈ page ↔
      ∃ host ∈ dockerHosts config, ∃ rows, (scanHost found host config).2 = some rows ∧
        row ∈ rows) ∧
    ∀ row ∈ page, Told ⟨row.updateStatus, row.unknownReason⟩ := by
  intro page after
  have hmem : ∀ row, row ∈ page ↔
      ∃ host ∈ dockerHosts config, ∃ rows, (scanHost found host config).2 = some rows ∧
          row ∈ rows := by
    intro row
    rw [show page = pageRows found (dockerHosts config) from rfl,
      pageRows, List.mem_mergeSort, List.mem_flatMap]
    refine exists_congr fun host => and_congr_right fun _ => ?_
    rw [scanHost_eq]
    cases hrows : rowsOf found host <;> simp
  refine ⟨fun order horder => check_eq found hslugs horder, fun order horder =>
    ?_, ?_, hmem, fun row hrow => ?_⟩
  · have hagain := check_eq found ((settledConfig_slugs found).symm ▸ hslugs) horder
    rw [settledConfig_settled, pageRows_settled] at hagain
    exact hagain
  · exact Sorting.pairwise_sorted StackRow.endpointName StackRow.name _
  · obtain ⟨host, _, rows, hrows, hin⟩ := (hmem row).mp hrow
    rw [scanHost_eq] at hrows
    exact row_told found hrows hin

def mediaBox : HostEntry where
  name := "media"
  host := "10.0.0.3"
  dockerMode := some "all"

/-- One host is down, on the other a selection of projects is migrated. -/
def evening : Surroundings where
  lower := id
  env := ⟨"", none, ""⟩
  knownStacks := none
  active := false
  listing slug := if slug = "nas"
    then ⟨some 0, some [⟨"8d3b6c4f5a1e", "/jellyfin", "jellyfin/jellyfin",
    "com.docker.compose.project=mystack"⟩]⟩ else ⟨none, none⟩
  inspect _ _ := .failed
  creds := none
  replies _ _ _ _ := .unreachable

theorem evening_order_free :
    getStacksWithUpdateStatus evening [mediaBox,
      selectingHost] { hosts := [selectingHost, mediaBox] } =
      getStacksWithUpdateStatus evening [selectingHost,
          mediaBox] { hosts := [selectingHost, mediaBox] } := by
  have hslugs : ([selectingHost, mediaBox].map HostEntry.slug).Nodup := by decide +kernel
  have hhosts : dockerHosts { hosts := [selectingHost, mediaBox] } = [selectingHost, mediaBox] := by
    decide +kernel
  obtain ⟨hfree, _⟩ := @check_order_free evening { hosts := [selectingHost, mediaBox] } hslugs
  rw [hfree _ (hhosts ▸ .swap _ _ _), hfree _ (hhosts ▸ .refl _)]

end Page

end Keepup.Docker.Dashboard
