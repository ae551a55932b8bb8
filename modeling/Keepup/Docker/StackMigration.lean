import Keepup.Docker.Discovery
import Keepup.Lib.Runs

/-!
The migration of a selection of projects to one of containers, through any number of
scans. It takes what `docker ps` has printed for the list of the containers, also
where the command has failed.
-/

namespace Keepup.Docker.Discovery

open Lib

section FirstOfSlug

variable {slug : String} {change : HostEntry → HostEntry} {hosts : List HostEntry}
  {host : HostEntry} {i : ℕ}

theorem changeHost_set (hfirst : ∀ x ∈ hosts.take i, x.slug ≠ slug) (hhost : hosts[i]? = some host)
    (hslug : host.slug = slug) : Config.changeHost slug change hosts =
      hosts.set i (change host) := by
  induction hosts generalizing i with
  | nil => cases hhost
  | cons x rest ih =>
      cases i with
      | zero =>
          obtain rfl : x = host := by simpa using hhost
          rw [Config.changeHost, if_pos hslug, List.set_cons_zero]
      | succ i =>
          rw [List.take_succ_cons] at hfirst
          rw [Config.changeHost, if_neg (hfirst x List.mem_cons_self), List.set_cons_succ,
            ih (fun y hy => hfirst y (List.mem_cons_of_mem x hy)) (by simpa using hhost)]

/-- A host after the first one of its slug stays as it is. -/
theorem changeHost_later (hearlier : ∃ x ∈ hosts.take i, x.slug = slug) :
    (Config.changeHost slug change hosts)[i]? = hosts[i]? := by
  induction hosts generalizing i with
  | nil => rfl
  | cons x rest ih =>
      cases i with
      | zero =>
          obtain ⟨y, hy, _⟩ := hearlier
          cases hy
      | succ i =>
          rw [Config.changeHost]
          split
          · rfl
          · rename_i hx
            rw [List.getElem?_cons_succ, List.getElem?_cons_succ]
            refine ih ?_
            obtain ⟨y, hy, hslug⟩ := hearlier
            rw [List.take_succ_cons] at hy
            rcases List.mem_cons.mp hy with rfl | hlater
            · exact absurd hslug hx
            · exact ⟨y, hlater, hslug⟩

theorem changeHost_eq_self_iff : Config.changeHost slug change hosts = hosts ↔
    ∀ first, hosts.find? (fun x => x.slug = slug) = some first → change first = first := by
  induction hosts with
  | nil => simp [Config.changeHost]
  | cons x rest ih =>
      rw [Config.changeHost]
      split
      · rename_i hx
        simp [hx]
      · rename_i hx
        simp [hx, ih]

end FirstOfSlug

section Scans

variable (lower : String → String) (env : SelfEnvironment) (check : String → ImageCheck)

/-- The scan of one host of the configuration. -/
structure Scan where
  index : ℕ
  knownStacks : Option (List (Int × String))
  active : Bool
  listing : Listing

/-- What becomes of the configuration. -/
def Scan.after (config : Config) (scan : Scan) : Config :=
  match config.hosts[scan.index]? with
  | none => config
  | some host => (containersForHost lower scan.knownStacks
      (Compose.target env host) scan.active check host
      scan.listing config).1

/-- A listed container that the migration is to select. -/
structure Chosen (scan : Scan) (host : HostEntry) (containers : List PsContainer)
    (selected : List String) (c : PsContainer) : Prop where
  named : c.name ≠ ""
  imaged : c.image ≠ ""
  inSelected : c.project ∈ selected
  notSelf : (Compose.target env host).isSelf c.id = false
  notOwn : c.project ∉ selfProjects (Compose.target env host) containers
  notLeft : ¬ (scan.active = true ∧
    c.project ∈ portainerManagedProjects lower scan.knownStacks containers)

/-- The host with a selection of containers. -/
def selecting (host : HostEntry) (names : List String) : HostEntry :=
  { host with dockerMode := some "selected", dockerContainers := some names, dockerStacks := none }

/-- With a listing that succeeded the selection is exactly that of the containers of
the selected projects, and otherwise nothing is changed, so that the next scan finds
the same selection of projects. -/
def KeepsSelection (config : Config) (scan : Scan) : Prop :=
  ∀ host selected, config.hosts[scan.index]? = some host → pendingStacks host = some selected →
    (∀ containers, scan.listing = ⟨some 0, some containers⟩ → ∃ names,
      scan.after lower env check config =
        { config with hosts := config.hosts.set scan.index (selecting host names) } ∧
      ∀ name, name ∈ names ↔ ∃ c ∈ containers, c.name = name ∧
        Chosen lower env scan host containers selected c) ∧
    ((scan.listing.returncode ≠ some 0 ∨ scan.listing.containers = none) →
      scan.after lower env check config = config)

/-- The command has not failed, and no host before this one has its slug. A command
that has failed does no harm where nothing of it can be read, and where the first
host of the slug has already the selection that is written. -/
def ListingSafe (config : Config) (scan : Scan) : Prop :=
  ∀ host selected containers, config.hosts[scan.index]? = some host →
    pendingStacks host = some selected →
    scan.listing.containers = some containers →
      scan.listing.returncode = some 0 ∧ (∀ x ∈ config.hosts.take scan.index, x.slug ≠ host.slug) ∨
      scan.listing.returncode ≠ some 0 ∧
        ∀ first, config.hosts.find? (fun x => x.slug = host.slug) = some first →
          first = selecting first
            (expandedNames lower scan.knownStacks (Compose.target env host) scan.active
            containers selected)

variable {lower env check} {config : Config} {scan : Scan} {host : HostEntry}
  {selected : List String}

theorem pendingStacks_containers (h : pendingStacks host = some selected) :
    host.dockerContainers = none := by
  rw [pendingStacks] at h
  split at h
  · rename_i hmode
    exact hmode.2
  · cases h

variable (lower env check) in
/-- What a scan with a readable listing makes of the configuration. -/
theorem after_pending {containers : List PsContainer}
    (hhost : config.hosts[scan.index]? = some host) (hpending : pendingStacks host = some selected)
    (hlisting : scan.listing.containers = some containers) :
    scan.after lower env check config = { config with
      hosts := Config.changeHost host.slug
        (Config.monitoredEntry "selected" (some (expandedNames lower
        scan.knownStacks (Compose.target env host) scan.active containers selected)))
            config.hosts } := by
  rw [Scan.after, hhost]
  dsimp only
  rw [containersForHost, hlisting]
  dsimp only
  rw [hpending]
  rfl

theorem after_unread (h : scan.listing.containers = none) :
    scan.after lower env check config = config := by
  rw [Scan.after]
  split
  · rfl
  · rw [containersForHost, h]

theorem mem_expandedNames {containers : List PsContainer} {name : String} :
    name ∈ expandedNames lower scan.knownStacks
      (Compose.target env host) scan.active containers selected ↔
      ∃ c ∈ containers, c.name = name ∧ Chosen lower env scan host containers selected c := by
  simp only [expandedNames, List.mem_map, List.mem_filter, mem_rawAll,
    List.contains_eq_mem, decide_eq_true_iff]
  constructor
  · rintro ⟨c, ⟨⟨hmem, hname, himage, hself, hown, hleft⟩, hin⟩, hsame⟩
    exact ⟨c, hmem, hsame, hname, himage, hin, hself, hown, hleft⟩
  · rintro ⟨c, hmem, hsame, hchosen⟩
    exact ⟨c, ⟨⟨hmem, hchosen.named, hchosen.imaged, hchosen.notSelf,
      hchosen.notOwn, hchosen.notLeft⟩,
      hchosen.inSelected⟩, hsame⟩

theorem ListingSafe.keepsSelection (h : ListingSafe lower env config scan) :
    KeepsSelection lower env check config scan := by
  intro host selected hhost hpending
  cases hlisting : scan.listing.containers with
  | none =>
      refine ⟨fun containers hsucceeded => ?_, fun _ => after_unread hlisting⟩
      rw [hsucceeded] at hlisting
      cases hlisting
  | some containers =>
      have hafter := after_pending lower env check hhost hpending hlisting
      rcases h host selected containers hhost hpending hlisting
        with ⟨hcode, hfirst⟩ | ⟨hcode, hsame⟩
      · refine ⟨fun containers' hsucceeded => ?_, fun hfailed => ?_⟩
        · obtain rfl : containers = containers' := by
            rw [hsucceeded] at hlisting
            exact (Option.some.inj hlisting).symm
          refine ⟨_, ?_, fun name => mem_expandedNames⟩
          rw [hafter, changeHost_set hfirst hhost rfl]
          rfl
        · exact hfailed.elim (fun hne => absurd hcode hne) fun hnone => by cases hnone
      · refine ⟨fun containers' hsucceeded => absurd (by rw [hsucceeded]) hcode, fun _ => ?_⟩
        have hwrite : Config.changeHost host.slug
          (Config.monitoredEntry "selected" _) config.hosts =
            config.hosts := changeHost_eq_self_iff.mpr fun first hfirst => (hsame first hfirst).symm
        rw [hafter, hwrite]

theorem KeepsSelection.listingSafe (h : KeepsSelection lower env check config scan) :
    ListingSafe lower env config scan := by
  intro host selected containers hhost hpending hlisting
  obtain ⟨hsucceeded, hfailed⟩ := h host selected hhost hpending
  have hafter := after_pending lower env check hhost hpending hlisting
  by_cases hcode : scan.listing.returncode = some 0
  · refine .inl ⟨hcode, fun x hx hslug => ?_⟩
    have hwhole : scan.listing = ⟨some 0, some containers⟩ := by
      rw [← hcode, ← hlisting]
    obtain ⟨names, hset, _⟩ := hsucceeded containers hwhole
    -- the write has gone to the earlier host, and this one is as before
    have hhosts := congrArg (fun c : Config => c.hosts[scan.index]?) (hafter.symm.trans hset)
    dsimp only at hhosts
    rw [changeHost_later ⟨x, hx, hslug⟩, hhost,
      List.getElem?_set_self (List.getElem?_eq_some_iff.mp hhost).1]
      at hhosts
    have hcontainers := congrArg HostEntry.dockerContainers (Option.some.inj hhosts)
    rw [pendingStacks_containers hpending] at hcontainers
    cases hcontainers
  · refine .inr ⟨hcode, fun first hfirst => ?_⟩
    have hsame := congrArg Config.hosts (hafter.symm.trans (hfailed (.inl hcode)))
    exact (changeHost_eq_self_iff.mp hsame first hfirst).symm

/-- Through all scans of any hosts, the migration keeps the selection if and only if
the listings are safe. -/
theorem selection_kept_iff (lower : String → String) (env : SelfEnvironment)
    (check : String → ImageCheck) (config : Config) (scans : List Scan) :
    Meets (Scan.after lower env check) (KeepsSelection lower env check) config scans ↔
      Meets (Scan.after lower env check) (ListingSafe lower env) config scans :=
  meets_iff (P := fun _ => True) (fun _ _ _ _ => trivial) trivial fun _ _ _ _ =>
    ⟨KeepsSelection.listingSafe, ListingSafe.keepsSelection⟩

/-- A host with a selection of one project. -/
def selectingHost : HostEntry where
  name := "nas"
  host := "10.0.0.2"
  dockerMode := some "selected"
  dockerStacks := some ["mystack"]

/-- `docker ps` fails, as where there is no daemon, and prints no container. -/
def failedScan : Scan where
  index := 0
  knownStacks := none
  active := false
  listing := ⟨some 1, some []⟩

/-- The selection is lost, and with it what the next scan would need. -/
theorem failed_listing_clears : ¬ KeepsSelection id ⟨"", none, ""⟩ (fun _ => ⟨.unknown, none⟩)
    { hosts := [selectingHost] } failedScan := by
  intro h
  have hkept := (h selectingHost ["mystack"] rfl rfl).2 (.inl (by decide))
  have hstacks := congrArg (fun c : Config => c.hosts.map HostEntry.dockerStacks) hkept
  exact absurd hstacks (by decide +kernel)

end Scans

end Keepup.Docker.Discovery
