import Keepup.Proxmox.Reowning

/-!
The removal of a Proxmox server against the list of hosts that the confirmation
page shows for it. The page reads the hosts as all pages do, without the ones whose
address is still a placeholder, and the removal takes every host of the server. The
credentials of a removed host go by its slug, whoever else has that slug.
-/

namespace Keepup.Proxmox

open Lib

def ownedBy (serverId : String) (host : HostEntry) : Bool := host.proxmoxServer == some serverId

def isDropped (serverId : String) (host : HostEntry) : Bool := ownedBy serverId host && !isVm host

def isConverted (serverId : String) (host : HostEntry) : Bool := ownedBy serverId host && isVm host

/-- The names of the hosts that go, and of those that become plain hosts, as the
confirmation page has them. -/
def hostsLostWithServer (config : Config) (serverId : String) : List String × List String :=
  let lost := config.getHosts.filter (ownedBy serverId)
  ((lost.filter fun host => !isVm host).map HostEntry.name, (lost.filter isVm).map HostEntry.name)

/-- The server is gone with its nodes and LXCs, its VMs are plain hosts, the page has
named just these, and everything else is as it was. -/
structure RemovesAnnounced (s : Settings) (serverId : String) (t : Settings) : Prop where
  gone : t.config.getProxmoxServer serverId = none
  unreferenced : ∀ host ∈ t.config.hosts, host.proxmoxServer ≠ some serverId
  hosts : t.config.hosts =
      (s.config.hosts.filter fun host => !isDropped serverId host).map fun host =>
    if ownedBy serverId host then stripProxmox host else host
  announced : hostsLostWithServer s.config serverId =
    ((s.config.hosts.filter (isDropped serverId)).map HostEntry.name,
      (s.config.hosts.filter (isConverted serverId)).map HostEntry.name)
  kept : ∀ host ∈ s.config.hosts, isDropped serverId host = false →
    t.store.get? host.slug = s.store.get? host.slug
  servers : ∀ other, other ≠ serverId →
    t.config.getProxmoxServer other = s.config.getProxmoxServer other ∧
      t.store.get? (integrationKey ("proxmox_" ++ other)) =
        s.store.get? (integrationKey ("proxmox_" ++ other))
  legacy : t.config.proxmox = s.config.proxmox ∧
    t.store.get? (integrationKey "proxmox") = s.store.get? (integrationKey "proxmox")
  integrations : ∀ name ∈ otherIntegrations,
    t.store.get? (integrationKey name) = s.store.get? (integrationKey name)
  others : { t.config with hosts := s.config.hosts, proxmoxServers := s.config.proxmoxServers } =
    s.config

/-- No host of the server has a placeholder for its address, no other host with
credentials has the slug of one that goes, and the key of the server is not that of
the backup server. -/
structure Announceable (s : Settings) (serverId : String) : Prop where
  shown : ∀ host ∈ s.config.hosts, ownedBy serverId host = true → Text.isIn "XXX" host.host = false
  apart : ∀ host ∈ s.config.hosts, ∀ other ∈ s.config.hosts, isDropped serverId host = false →
    isDropped serverId other = true → other.slug = host.slug →
      host.slug = "" ∨ s.store.get? host.slug = none
  backup : serverId = "backup" → s.store.get? (integrationKey "proxmox_backup") = none

section Hosts

variable {serverId : String} {config : Config}

theorem keepWithout_eq (host : HostEntry) : keepWithout serverId host =
    if isDropped serverId host then none
    else some (if ownedBy serverId host then stripProxmox host else host) := by
  unfold keepWithout isDropped ownedBy
  by_cases hserver : host.proxmoxServer = some serverId
  · cases isVm host <;> simp [hserver]
  · simp [hserver]

theorem filterMap_keepWithout (hosts : List HostEntry) :
    hosts.filterMap (keepWithout serverId) = (hosts.filter fun host => !isDropped serverId host).map
      fun host => if ownedBy serverId host then stripProxmox host else host := by
  induction hosts with
  | nil => rfl
  | cons host hosts ih =>
      rw [List.filterMap_cons, keepWithout_eq]
      cases hdropped : isDropped serverId host with
      | false =>
          rw [List.filter_cons_of_pos (by simp [hdropped]), List.map_cons, ← ih]
          rfl
      | true =>
          rw [List.filter_cons_of_neg (by simp [hdropped]), ← ih]
          rfl

theorem unreferenced_of_keepWithout {host kept : HostEntry}
    (h : keepWithout serverId host = some kept) :
    kept.proxmoxServer ≠ some serverId := by
  rw [keepWithout] at h
  split at h
  · rename_i hserver
    rwa [← Option.some.inj h]
  · split at h
    · rw [← Option.some.inj h]
      nofun
    · cases h

/-- The page has named all of them exactly if it shows them all. -/
theorem announced_iff : hostsLostWithServer config serverId =
    ((config.hosts.filter (isDropped serverId)).map HostEntry.name,
      (config.hosts.filter (isConverted serverId)).map HostEntry.name) ↔
      ∀ host ∈ config.hosts, ownedBy serverId host = true → Text.isIn "XXX" host.host = false := by
  have hdropped : (config.getHosts.filter (ownedBy serverId)).filter (fun host => !isVm host) =
      (config.hosts.filter (isDropped serverId)).filter fun host => !Text.isIn "XXX" host.host := by
    simp only [Config.getHosts, List.filter_filter]
    apply List.filter_congr
    intro host _
    rw [isDropped]
    ac_rfl
  have hconverted : (config.getHosts.filter (ownedBy serverId)).filter isVm =
      (config.hosts.filter (isConverted serverId)).filter
          fun host => !Text.isIn "XXX" host.host := by
    simp only [Config.getHosts, List.filter_filter]
    apply List.filter_congr
    intro host _
    rw [isConverted]
    ac_rfl
  rw [hostsLostWithServer, hdropped, hconverted, Prod.mk.injEq]
  constructor
  · rintro ⟨hfirst, hsecond⟩ host hhost howned
    have hall : ∀ l : List HostEntry,
        (l.filter fun host => !Text.isIn "XXX" host.host).map HostEntry.name =
          l.map HostEntry.name →
          ∀ host ∈ l, Text.isIn "XXX" host.host = false := by
      intro l hnames host hhost
      have hlength := congrArg List.length hnames
      rw [List.length_map, List.length_map, List.length_filter_eq_length_iff] at hlength
      simpa using hlength host hhost
    cases hvm : isVm host with
    | false =>
        exact hall _ hfirst host (List.mem_filter.mpr ⟨hhost, by simp [isDropped, howned, hvm]⟩)
    | true =>
        exact hall _ hsecond host (List.mem_filter.mpr ⟨hhost, by simp [isConverted, howned, hvm]⟩)
  · intro hshown
    constructor
    · rw [List.filter_eq_self.mpr]
      intro host hhost
      obtain ⟨hmem, hlost⟩ := List.mem_filter.mp hhost
      simp [hshown host hmem (Bool.and_eq_true_iff.mp hlost).1]
    · rw [List.filter_eq_self.mpr]
      intro host hhost
      obtain ⟨hmem, hlost⟩ := List.mem_filter.mp hhost
      simp [hshown host hmem (Bool.and_eq_true_iff.mp hlost).1]

end Hosts

section Credentials

variable {s : Settings} {serverId key : String}

/-- The slugs whose credentials go. -/
def droppedSlugs (s : Settings) (serverId : String) : List String :=
  ((s.config.hosts.filter (isDropped serverId)).map HostEntry.slug).filter (· != "")

theorem get?_deleted (slugs : List String) (store : Store) :
    (slugs.foldl Store.deleteCredentials store).get? key =
      if key ∈ slugs then none else store.get? key := by
  induction slugs generalizing store with
  | nil => simp
  | cons slug slugs ih =>
      rw [List.foldl_cons, ih, Store.deleteCredentials, Dict.get?_pop]
      by_cases hkey : key = slug <;> by_cases hrest : key ∈ slugs <;> simp [hkey, hrest]

theorem deleteProxmoxServer_eq (hknown : serverId ∈ serverIds s.config) :
    deleteProxmoxServer s serverId = {
      config := { s.config with
        proxmoxServers := some (s.config.getProxmoxServers.filter (·.id != serverId))
        hosts := s.config.hosts.filterMap (keepWithout serverId) }
      store := (droppedSlugs s serverId).foldl Store.deleteCredentials
        (s.store.deleteIntegrationCredentials ("proxmox_" ++ serverId)) } := by
  have hslugs : (s.config.hosts.filter fun host => (keepWithout serverId host).isNone) =
      s.config.hosts.filter (isDropped serverId) := by
    apply List.filter_congr
    intro host _
    rw [keepWithout_eq]
    cases isDropped serverId host <;> rfl
  obtain ⟨server, hserver, hid⟩ := List.mem_map.mp hknown
  have hany : s.config.getProxmoxServers.any (·.id == serverId) = true :=
    List.any_eq_true.mpr ⟨server, hserver, by simp [hid]⟩
  rw [deleteProxmoxServer, if_pos hany, droppedSlugs, ← hslugs]

/-- What becomes of an entry of the store. -/
theorem deleteProxmoxServer_get? (hknown : serverId ∈ serverIds s.config) :
    (deleteProxmoxServer s serverId).store.get? key =
      if key ∈ droppedSlugs s serverId ∨ key = integrationKey ("proxmox_" ++ serverId) then none
      else s.store.get? key := by
  rw [deleteProxmoxServer_eq hknown, get?_deleted, Store.deleteIntegrationCredentials,
    Dict.get?_pop]
  by_cases hslug : key ∈ droppedSlugs s serverId <;> simp [hslug]

theorem mem_droppedSlugs : key ∈ droppedSlugs s serverId ↔
    key ≠ "" ∧ ∃ host ∈ s.config.hosts, isDropped serverId host = true ∧ host.slug = key := by
  rw [droppedSlugs, List.mem_filter, List.mem_map, bne_iff_ne, and_comm]
  simp only [List.mem_filter, and_assoc]

/-- The key of an integration is no slug. -/
theorem integrationKey_not_dropped (name : String) :
    integrationKey name ∉ droppedSlugs s serverId := by
  intro h
  obtain ⟨_, host, _, _, hslug⟩ := mem_droppedSlugs.mp h
  exact not_integrationKey_of_hostKey ⟨host.name, hslug⟩ ⟨name, rfl⟩

theorem deleteProxmoxServer_integration (hknown : serverId ∈ serverIds s.config) {name : String}
    (hname : name ≠ "proxmox_" ++ serverId) :
    (deleteProxmoxServer s serverId).store.get? (integrationKey name) =
      s.store.get? (integrationKey name) := by
  rw [deleteProxmoxServer_get? hknown, if_neg]
  rintro (hslug | hkey)
  · exact integrationKey_not_dropped name hslug
  · exact hname (integrationKey_injective hkey)

end Credentials

section Removal

variable {s : Settings} {serverId : String}

theorem getProxmoxServer_deleted (hknown : serverId ∈ serverIds s.config) (other : String) :
    (deleteProxmoxServer s serverId).config.getProxmoxServer other =
      if other = serverId then none else s.config.getProxmoxServer other := by
  rw [deleteProxmoxServer_eq hknown, Config.getProxmoxServer, Config.getProxmoxServers,
    Option.getD_some,
    List.find?_filter, Config.getProxmoxServer]
  split
  · rename_i hsame
    rw [List.find?_eq_none]
    simp [hsame]
  · rename_i hother
    congr 1
    funext server
    by_cases hid : server.id = other <;> simp [hid, hother]

theorem removesAnnounced_of_known (hknown : serverId ∈ serverIds s.config)
    (h : Announceable s serverId) :
    RemovesAnnounced s serverId (deleteProxmoxServer s serverId) where
  gone := by rw [getProxmoxServer_deleted hknown, if_pos rfl]
  unreferenced := by
    rw [deleteProxmoxServer_eq hknown]
    intro host hhost
    obtain ⟨old, _, hkept⟩ := List.mem_filterMap.mp hhost
    exact unreferenced_of_keepWithout hkept
  hosts := by rw [deleteProxmoxServer_eq hknown, filterMap_keepWithout]
  announced := announced_iff.mpr h.shown
  kept := by
    intro host hhost hkept
    rw [deleteProxmoxServer_get? hknown]
    split
    · rename_i hremoved
      rcases hremoved with hslug | hkey
      · obtain ⟨hne, other, hother, hdropped, hsame⟩ := mem_droppedSlugs.mp hslug
        rcases h.apart host hhost other hother hkept hdropped hsame with hempty | hnone
        · exact absurd hempty hne
        · exact hnone.symm
      · exact absurd ⟨_, hkey.symm⟩ (not_integrationKey_of_hostKey ⟨host.name, rfl⟩)
    · rfl
  servers := by
    intro other hother
    rw [getProxmoxServer_deleted hknown, if_neg hother]
    exact ⟨rfl, deleteProxmoxServer_integration hknown fun hkey =>
      hother (String.append_right_inj _ |>.mp hkey)⟩
  legacy := by
    refine ⟨?_, deleteProxmoxServer_integration hknown (proxmox_ne serverId).symm⟩
    rw [deleteProxmoxServer_eq hknown]
  integrations := by
    intro name hname
    by_cases hbackup : name = "proxmox_" ++ serverId
    · have hid : serverId = "backup" := by
        by_contra hid
        exact otherIntegrations_ne hname hid hbackup
      subst hid
      have hnone := h.backup rfl
      rw [deleteProxmoxServer_get? hknown]
      split
      · rw [hbackup]
        exact hnone.symm
      · rfl
    · exact deleteProxmoxServer_integration hknown hbackup
  others := by rw [deleteProxmoxServer_eq hknown]

theorem announceable_of_removes (hknown : serverId ∈ serverIds s.config)
    (h : RemovesAnnounced s serverId (deleteProxmoxServer s serverId)) :
    Announceable s serverId where
  shown := announced_iff.mp h.announced
  apart := by
    intro host hhost other hother hkept hdropped hsame
    by_cases hempty : host.slug = ""
    · exact .inl hempty
    · have hslug : host.slug ∈ droppedSlugs s serverId :=
        mem_droppedSlugs.mpr ⟨hempty, other, hother, hdropped, hsame⟩
      have hentry := h.kept host hhost hkept
      rw [deleteProxmoxServer_get? hknown, if_pos (.inl hslug)] at hentry
      exact .inr hentry.symm
  backup := by
    rintro rfl
    have hentry := h.integrations "proxmox_backup" (by decide)
    rw [deleteProxmoxServer_get? hknown, if_pos (.inr rfl)] at hentry
    exact hentry.symm

/-- Where the server is not configured nothing is removed. -/
theorem removesAnnounced_unknown_iff (hunknown : serverId ∉ serverIds s.config) :
    RemovesAnnounced s serverId (deleteProxmoxServer s serverId) ↔
      ∀ host ∈ s.config.hosts, ownedBy serverId host = false := by
  rw [deleteProxmoxServer_unknown hunknown]
  constructor
  · intro h host hhost
    simpa [ownedBy] using h.unreferenced host hhost
  · intro hnone
    have hdropped : ∀ host ∈ s.config.hosts, isDropped serverId host = false := by
      intro host hhost
      rw [isDropped, hnone host hhost, Bool.false_and]
    exact {
      gone := by
        rw [Config.getProxmoxServer, List.find?_eq_none]
        intro server hserver
        have hne : server.id ≠ serverId :=
          fun hid => hunknown (List.mem_map.mpr ⟨server, hserver, hid⟩)
        simpa using hne
      unreferenced := by simpa [ownedBy] using hnone
      hosts := by
        rw [List.filter_eq_self.mpr (by simpa using hdropped)]
        conv_lhs => rw [← List.map_id s.config.hosts]
        apply List.map_congr_left
        intro host hhost
        rw [if_neg (by simp [hnone host hhost]), id]
      announced := announced_iff.mpr fun host hhost howned => by simp [hnone host hhost] at howned
      kept := fun _ _ _ => rfl
      servers := fun _ _ => ⟨rfl, rfl⟩
      legacy := ⟨rfl, rfl⟩
      integrations := fun _ _ => rfl
      others := rfl }

end Removal

/-- The removal takes what the page has announced exactly if the page shows all that
is concerned. -/
theorem deletion_announced_iff (s : Settings) (serverId : String) :
    RemovesAnnounced s serverId (deleteProxmoxServer s serverId) ↔
      (serverId ∈ serverIds s.config → Announceable s serverId) ∧
        (serverId ∉ serverIds s.config →
          ∀ host ∈ s.config.hosts, ownedBy serverId host = false) := by
  by_cases hknown : serverId ∈ serverIds s.config
  · constructor
    · exact fun h => ⟨fun _ => announceable_of_removes hknown h,
        fun hunknown => absurd hknown hunknown⟩
    · exact fun h => removesAnnounced_of_known hknown (h.1 hknown)
  · rw [removesAnnounced_unknown_iff hknown]
    exact ⟨fun h => ⟨fun hid => absurd hid hknown, fun _ => h⟩, fun h => h.2 hknown⟩

/-- An LXC of the server whose address has not been filled in yet, and a plain host
with credentials whose name has the same slug. -/
def unfilledLxc : HostEntry :=
  { name := "ct 1", host := "XXX", proxmoxNode := some "pve", proxmoxVmid := some 101,
    proxmoxServer := some "10-0-0-2" }

def plainHost : HostEntry := { name := "CT-1", host := "10.0.0.7", user := some "root" }

def sharedSettings : Settings where
  config := { hosts := [unfilledLxc, plainHost], proxmoxServers := some [{ id := "10-0-0-2" }] }
  store := (∅ : Store).saveCredentials "ct-1" (some "hunter2") none none

/-- The page announces nothing, and the removal takes a host and the password of another. -/
theorem removal_takes_unannounced :
    hostsLostWithServer sharedSettings.config "10-0-0-2" = ([], []) ∧
      (deleteProxmoxServer sharedSettings "10-0-0-2").config.hosts = [plainHost] ∧
      plainHost.slug = "ct-1" ∧ (sharedSettings.store.get? "ct-1").isSome = true ∧
      (deleteProxmoxServer sharedSettings "10-0-0-2").store.get? "ct-1" = none ∧
      ¬ RemovesAnnounced sharedSettings "10-0-0-2"
        (deleteProxmoxServer sharedSettings "10-0-0-2") := by
  refine ⟨by decide +kernel, by decide +kernel, by decide +kernel,
    by decide +kernel, by decide +kernel,
    fun h => ?_⟩
  have hshown := announced_iff.mp h.announced unfilledLxc (by simp [sharedSettings]) (by decide)
  exact absurd hshown (by decide +kernel)

end Keepup.Proxmox
