import Keepup.Credentials.Separation
import Keepup.Proxmox.Ownership

/-!
What each write to the disk makes of the record: a server that goes or comes,
credentials that are saved, hosts that are added, and the migration.
-/

namespace Keepup.Proxmox

open Lib

section Removal

variable {w : World} {s : Settings} {id : String}

/-- The entries of the hosts have other keys than those of the integrations. -/
theorem deleted_single (slugs : List String) (store : Store)
    (hslugs : ∀ slug ∈ slugs, IsHostKey slug) :
    (slugs.foldl Store.deleteCredentials store).get? (integrationKey "proxmox") =
      store.get? (integrationKey "proxmox") := by
  induction slugs generalizing store with
  | nil => rfl
  | cons slug slugs ih =>
      have hne : integrationKey "proxmox" ≠ slug := fun h =>
        not_integrationKey_of_hostKey (hslugs slug (by simp)) ⟨_, h⟩
      rw [List.foldl_cons, ih _ fun other hother => hslugs other (by simp [hother]),
        Store.deleteCredentials, Dict.get?_pop_ne _ hne]

theorem deleteProxmoxServer_single (s : Settings) (id : String) :
    (deleteProxmoxServer s id).store.get? (integrationKey "proxmox") =
      s.store.get? (integrationKey "proxmox") := by
  rw [deleteProxmoxServer]
  split
  · refine (deleted_single _ _ ?_).trans (Dict.get?_pop_ne _ (integrationKey_ne id).symm)
    intro slug hslug
    obtain ⟨host, _, rfl⟩ := List.mem_map.mp (List.mem_of_mem_filter hslug)
    exact ⟨host.name, rfl⟩
  · rfl

theorem proxmoxServer_of_stamp {host : HostEntry} (h : stampOf host ≠ "") :
    host.proxmoxServer = some (stampOf host) := by
  unfold stampOf at h ⊢
  cases hserver : host.proxmoxServer with
  | none => simp [hserver, Text.orElse] at h
  | some id =>
      rw [hserver, Text.orElse] at h
      rw [Text.orElse]
      split at h
      · exact absurd rfl h
      · rename_i hid
        rw [if_neg hid]

/-- What is left of a configuration without one of its servers. -/
theorem deleteProxmoxServer_known (hknown : id ∈ serverIds s.config) :
    legacyBlock (deleteProxmoxServer s id).config = legacyBlock s.config ∧
      serverIds (deleteProxmoxServer s id).config = (serverIds s.config).filter (· != id) ∧
      (deleteProxmoxServer s id).config.hosts = s.config.hosts.filterMap (keepWithout id) := by
  obtain ⟨server, hserver, hid⟩ := List.mem_map.mp hknown
  have hany : s.config.getProxmoxServers.any (·.id == id) = true :=
    List.any_eq_true.mpr ⟨server, hserver, by simp [hid]⟩
  rw [deleteProxmoxServer, if_pos hany]
  refine ⟨rfl, ?_, rfl⟩
  exact (List.filter_map (f := ProxmoxServer.id) (p := (· != id))
    (l := s.config.getProxmoxServers)).symm

theorem deleteProxmoxServer_unknown (hunknown : id ∉ serverIds s.config) :
    deleteProxmoxServer s id = s := by
  rw [deleteProxmoxServer]
  refine if_neg fun hany => hunknown ?_
  obtain ⟨server, hserver, hid⟩ := List.any_eq_true.mp hany
  exact List.mem_map.mpr ⟨server, hserver, by simpa using hid⟩

/-- A server is deleted while no host without a stamp would go to another. -/
theorem World.Sound.deleted (h : w.Sound) (hknown : id ∈ serverIds w.settings.config)
    (hsafe : w.SafeRemoval (.server id)) :
    { w.forget (.server id) with settings := deleteProxmoxServer w.settings id }.Sound := by
  obtain ⟨hlegacy, hids, hhosts⟩ := deleteProxmoxServer_known hknown
  have hadded : ∀ entry ∈ (w.forget (.server id)).added,
      entry ∈ w.added ∧ entry.1.proxmoxServer ≠ some id := fun entry hentry =>
    ⟨List.mem_of_mem_filter hentry, by simpa [World.forget] using (List.mem_filter.mp hentry).2⟩
  have hbare : (w.forget (.server id)).Bare → w.Bare := fun ⟨entry, hentry, hstamp⟩ =>
    ⟨entry, (hadded entry hentry).1, hstamp⟩
  have hkept : ∀ owner, owner ≠ .server id → Configured w.settings.config owner →
      Configured (deleteProxmoxServer w.settings id).config owner := by
    intro owner hne howner
    cases owner with
    | legacy => rwa [Configured, blockOf, hlegacy]
    | server other =>
        rw [configured_server] at howner ⊢
        rw [hids, List.mem_filter]
        exact ⟨howner, by simpa using fun heq => hne (congrArg Owner.server heq)⟩
  refine ⟨?_, ?_, ?_, ?_⟩
  · intro entry hentry
    obtain ⟨hmem, hstamp⟩ := hadded entry hentry
    rw [hhosts, List.mem_filterMap]
    exact ⟨entry.1, h.held entry hmem, if_pos hstamp⟩
  · intro entry hentry hstamp
    obtain ⟨hmem, hother⟩ := hadded entry hentry
    obtain ⟨howner, hconfigured⟩ := h.stamped entry hmem hstamp
    refine ⟨howner, hkept _ (fun hgone => hother ?_) hconfigured⟩
    rw [howner, Owner.server.injEq] at hgone
    rw [proxmoxServer_of_stamp hstamp, hgone]
  · intro entry hentry hstamp owner howner
    refine h.single entry (hadded entry hentry).1 hstamp owner ?_
    rw [singletonOwner_ids] at howner ⊢
    dsimp only at howner
    rw [hlegacy, hids] at howner
    split
    · rename_i hold
      rwa [if_pos hold] at howner
    · rename_i hold
      rw [if_neg hold] at howner
      cases hservers : serverIds w.settings.config with
      | nil => simp [hservers] at howner
      | cons first rest =>
          rw [hservers] at howner
          by_cases hfirst : first = id
          · -- the single server goes: no other id may be left
            have hsingle : singletonOwner w.settings.config = some (.server id) := by
              rw [singletonOwner_ids, if_neg hold, hservers, ← hfirst]
              rfl
            have hlast : ∀ other ∈ serverIds w.settings.config, other = id := by
              intro other hother
              obtain ⟨server, hserver, rfl⟩ := List.mem_map.mp hother
              exact hsafe (hbare ⟨entry, hentry, hstamp⟩) hsingle server hserver
            rw [← hservers, List.filter_eq_nil_iff.mpr fun other hother => by
              simp [hlast other hother]] at howner
            cases howner
          · rwa [List.filter_cons_of_pos (by simpa using hfirst)] at howner
  · intro hb
    have hfits := (h.key (hbare hb)).resolve_left fun hnil => by
      rw [serverIds_eq_nil.mpr hnil] at hknown
      cases hknown
    refine .inr ?_
    dsimp only
    rwa [hlegacy, deleteProxmoxServer_single]

/-- The old block is deleted while no host without a stamp would go to the list. -/
theorem World.Sound.legacyDeleted (h : w.Sound) (hlegacy : legacyBlock w.settings.config ≠ none)
    (hsafe : w.SafeRemoval .legacy) :
    { w.forget .legacy with
      settings := { w.settings
        with config := { w.settings.config with proxmox := none } } }.Sound := by
  have hadded : ∀ entry, entry ∈ (w.forget .legacy).added ↔ entry ∈ w.added := by
    simp [World.forget]
  have hempty : (w.forget .legacy).Bare → w.settings.config.getProxmoxServers = [] := by
    rintro ⟨entry, hentry, hstamp⟩
    exact hsafe ⟨entry, (hadded entry).mp hentry, hstamp⟩ (singletonOwner_legacy hlegacy)
  refine ⟨?_, ?_, ?_, ?_⟩
  · exact fun entry hentry => h.held entry ((hadded entry).mp hentry)
  · intro entry hentry hstamp
    obtain ⟨howner, hconfigured⟩ := h.stamped entry ((hadded entry).mp hentry) hstamp
    rw [howner] at hconfigured ⊢
    exact ⟨rfl, hconfigured⟩
  · intro entry hentry hstamp owner howner
    have hnil := hempty ⟨entry, hentry, hstamp⟩
    rw [singletonOwner_list rfl] at howner
    obtain ⟨first, hfirst, _⟩ := Option.map_eq_some_iff.mp howner
    have hmem : first ∈ w.settings.config.getProxmoxServers := List.mem_of_mem_head? hfirst
    rw [hnil] at hmem
    cases hmem
  · exact fun hbare => .inl (hempty hbare)

end Removal

section Saving

variable {env : Surroundings} {w : World} {form : SaveForm} {t : Settings} {id : String}
  {nodes : Option (List String)}

theorem removing_of_url (hurl : form.url ≠ "") : w.removing form = w := by
  rw [World.removing, World.removedBy, if_neg fun h => hurl h.1, Option.elim_none]

theorem removing_of_named (hnamed : form.serverId ≠ "") : w.removing form = w := by
  rw [World.removing, World.removedBy, if_neg fun h => hnamed h.2, Option.elim_none]

theorem newServer_ne : newServer ≠ "" := by decide

/-- A careful removal is one of the single server, as the program takes it to be. -/
theorem removing_of_single {pem fp : String} (hurl : form.url = "")
    (hsingle : IsSingletonSave w.settings form.serverId)
    (hsafe : w.Careful (.save form pem fp nodes)) :
    w.removing form = (singletonOwner w.settings.config).elim w w.forget := by
  by_cases hid : form.serverId = ""
  · rw [World.removing, World.removedBy, if_pos ⟨hurl, hid⟩]
  · -- the card is stale, so there is no single server
    have hstale : Stale w.settings form.serverId := ⟨hid, hsingle.1, hsingle.2.resolve_left hid⟩
    have hnone := (hsafe.2.2 hstale).resolve_right fun hposted => hposted.1 hurl
    rw [removing_of_named hid, hnone, Option.elim_none]

/-- A server is added at the end of the list. -/
theorem World.Sound.appended (h : w.Sound) (server : ProxmoxServer)
    (hsafe : w.Bare → ListShape w.settings.config ∨
      legacyBlock w.settings.config ≠ none ∧
      w.settings.store.get? (integrationKey "proxmox") ≠ none) :
    { w with settings := { w.settings with config := { w.settings.config with
      proxmoxServers := some (w.settings.config.getProxmoxServers ++ [server]) } } }.Sound := by
  refine h.settle (fun _ hhost => hhost) ?_ ?_ ?_
  · intro owner howner
    cases owner with
    | legacy => exact howner
    | server other =>
        rw [configured_server] at howner ⊢
        rw [serverIds, Config.getProxmoxServers, Option.getD_some, List.map_append]
        exact List.mem_append_left _ howner
  · intro hbare owner howner
    rcases hsafe hbare with ⟨hlegacy, hne⟩ | ⟨hlegacy, _⟩
    · obtain ⟨first, rest, hservers⟩ := List.exists_cons_of_ne_nil hne
      rw [@singletonOwner_list { w.settings.config with
        proxmoxServers := some (w.settings.config.getProxmoxServers ++ [server]) } hlegacy]
          at howner
      rw [singletonOwner_list hlegacy, ← howner, hservers]
      simp [Config.getProxmoxServers]
    · rw [@singletonOwner_legacy { w.settings.config with
        proxmoxServers := some (w.settings.config.getProxmoxServers ++ [server]) } hlegacy]
          at howner
      rwa [singletonOwner_legacy hlegacy]
  · intro hbare
    refine .inr ?_
    rcases hsafe hbare with ⟨hlegacy, hne⟩ | ⟨hlegacy, hentry⟩
    · exact (h.key hbare).resolve_left hne
    · exact iff_of_true hlegacy hentry

/-- The old block is written where it stands already or where nothing is. -/
theorem World.Sound.legacyWritten {entry : Block} (h : w.Sound) (hentry : entry ≠ {})
    (hsafe : w.Bare → legacyBlock w.settings.config ≠ none) :
    { w with settings := { w.settings with config := { w.settings.config with
      proxmox := some entry } } }.Sound := by
  have hlegacy : legacyBlock { w.settings.config with proxmox := some entry } = some entry := by
    simp [legacyBlock, hentry]
  refine h.settle (fun _ hhost => hhost) ?_ ?_ ?_
  · intro owner howner
    cases owner with
    | legacy => simp [Configured, blockOf, hlegacy]
    | server other => exact howner
  · intro hbare owner howner
    rw [singletonOwner_legacy (hsafe hbare)]
    rwa [singletonOwner_legacy (by simp [hlegacy])] at howner
  · intro hbare
    rcases h.key hbare with hnil | hiff
    · exact .inl hnil
    · exact .inr (iff_of_true (by simp [hlegacy]) (hiff.mp (hsafe hbare)))

/-- What a save makes of the servers. -/
theorem World.Sound.persisted {pem fp : String} (h : w.Sound)
    (hsaved : Persisted env w.settings form.serverId form.url t id)
    (hsafe : w.Careful (.save form pem fp nodes)) :
    { w.removing form with settings := t }.Sound := by
  cases hsaved with
  | ignored hnew hurl =>
      rw [removing_of_named (hnew ▸ newServer_ne)]
      exact h
  | added base entry hnew hurl hbase =>
      rw [removing_of_named (hnew ▸ newServer_ne)]
      exact h.appended _ fun hbare => (hsafe.1 hnew hbare).2 hurl
  | updated change hchange hnew hid hknown =>
      rw [removing_of_named hid]
      refine h.reshaped ⟨Iff.rfl, ?_⟩ rfl rfl
      simp only [serverIds, Config.getProxmoxServers]
      cases w.settings.config.proxmoxServers with
      | none => rfl
      | some servers => exact changeFirst_ids _ change hchange servers
  | legacyWritten entry hsingle hurl hentry hshape =>
      rw [removing_of_url hurl]
      refine h.legacyWritten hentry fun hbare hlegacy => ?_
      refine (((hsafe.2.1 hsingle).2 hurl hlegacy).1 hbare).1 ?_
      rw [Config.getProxmoxServers, hshape.resolve_right (not_not.mpr hlegacy), Option.getD_none]
  | legacyRemoved hsingle hurl hshape =>
      rw [removing_of_single hurl hsingle hsafe]
      have hremoval := (hsafe.2.1 hsingle).1 hurl
      cases hlegacy : legacyBlock w.settings.config with
      | some legacy =>
          have hne : legacyBlock w.settings.config ≠ none := by simp [hlegacy]
          rw [singletonOwner_legacy hne]
          exact h.legacyDeleted hne (hremoval .legacy)
      | none =>
          have hnone := hshape.resolve_right (not_not.mpr hlegacy)
          have hservers : w.settings.config.getProxmoxServers = [] := by
            rw [Config.getProxmoxServers, hnone, Option.getD_none]
          rw [singletonOwner_list hlegacy, hservers]
          exact h.reshaped ⟨iff_of_true rfl hlegacy, rfl⟩ rfl rfl
  | firstAdded base entry hsingle hurl hlegacy hservers hbase =>
      rw [removing_of_url hurl]
      have hget : w.settings.config.getProxmoxServers = [] := getProxmoxServers_of hservers
      have happended := h.appended { entry with id := uniqueServerId base [] } fun hbare =>
        absurd hget (((hsafe.2.1 hsingle).2 hurl hlegacy).1 hbare).1
      rwa [hget] at happended
  | firstUpdated first rest change hchange hsingle hurl hlegacy hservers =>
      rw [removing_of_url hurl]
      refine h.reshaped ⟨Iff.rfl, ?_⟩ rfl rfl
      simp [serverIds, Config.getProxmoxServers, hservers, hchange]
  | firstDeleted first rest hsingle hurl hlegacy hservers =>
      rw [removing_of_single hurl hsingle hsafe]
      have hget : w.settings.config.getProxmoxServers = first :: rest :=
        getProxmoxServers_of hservers
      rw [singletonOwner_list hlegacy, hget]
      exact h.deleted (by simp [serverIds, hget]) ((hsafe.2.1 hsingle).1 hurl _)
  | emptyList hsingle hurl hlegacy hservers =>
      have hget : w.settings.config.getProxmoxServers = [] := getProxmoxServers_of hservers
      rw [removing_of_single hurl hsingle hsafe, singletonOwner_list hlegacy, hget]
      exact h

theorem keyFits_of_posted {s : Settings} {fields : CredFields} (hfields : fields ≠ [])
    (hshape : ¬ ListShape s.config) : KeyFits (saveCredentials s "" fields) := by
  rw [KeyFits, saveCredentials_config, saveCredentials_store hfields]
  by_cases hservers : s.config.getProxmoxServers = []
  · exact .inl hservers
  · refine .inr (iff_of_true (fun hlegacy => hshape ⟨hlegacy, hservers⟩) ?_)
    rw [Store.saveIntegrationCredentials]
    simp [credentialKey, Store.saveUnder_self]

/-- Credentials without the id of a server are those of the old block. -/
theorem World.Sound.credentials (h : w.Sound) (id : String) (fields : CredFields)
    (hsafe : id = "" → fields ≠ [] → w.Bare → ¬ ListShape w.settings.config) :
    { w with settings := saveCredentials w.settings id fields }.Sound := by
  have hconfig : (saveCredentials w.settings id fields).config = w.settings.config := by simp
  refine h.settle (fun host hhost => hconfig ▸ hhost) (fun owner howner => hconfig ▸ howner)
    (fun _ owner howner => hconfig ▸ howner) fun hbare => ?_
  have hfits := h.key hbare
  by_cases hfields : fields = []
  · rwa [saveCredentials, if_pos hfields]
  · by_cases hid : id = ""
    · rw [hid]
      exact keyFits_of_posted hfields (hsafe hid hfields hbare)
    · rw [KeyFits, hconfig, saveCredentials_store hfields, Store.saveIntegrationCredentials,
        credentialKey_of_ne hid, Store.saveUnder_other (integrationKey_ne id).symm]
      exact hfits

end Saving

section Adding

variable {env : Surroundings} {w : World} {s t : Settings} {id : String} {new : List HostEntry}

/-- Hosts with one stamp are added to a configuration. -/
structure Appends (s t : Settings) (id : String) (new : List HostEntry) : Prop where
  eq : t = { s with config := { s.config with hosts := s.config.hosts ++ new } }
  stamp : ∀ host ∈ new, stampOf host = id

theorem Appends.serverFor_eq (h : Appends s t id new) (other : String) :
    serverFor t.config other = serverFor s.config other := by
  obtain ⟨rfl, _⟩ := h
  rfl

theorem appends_nil (s : Settings) (id : String) : Appends s s id [] := ⟨by simp, by simp⟩

theorem appends_addHosts (s : Settings) {hosts : List HostEntry}
    (hstamp : ∀ host ∈ hosts, stampOf host = id) :
    ∃ new, Appends s { s with config := addHosts s.config hosts } id new ∧ new ⊆ hosts :=
  ⟨_, ⟨rfl, fun host hhost => hstamp host (addNew_subset _ _ hhost)⟩, addNew_subset _ _⟩

theorem stampOf_buildHostEntry (name host node server : String) (vmid : Option Int)
    (type dockerMode : Option String) :
    stampOf (buildHostEntry name host node server vmid type dockerMode) = server := by
  have hstamp : Text.orElse (stored server) "" = server := by
    rw [stored]
    split
    · rename_i hserver
      exact hserver.symm
    · rename_i hserver
      exact if_neg hserver
  exact hstamp

theorem stampOf_nodeHosts (pxHost server : String) (nodes : List String) :
    ∀ host ∈ nodeHosts pxHost server nodes, stampOf host = server := by
  intro host hhost
  obtain ⟨node, _, rfl⟩ := List.mem_map.mp hhost
  exact stampOf_buildHostEntry ..

theorem stampOf_lxcHost {server entry : String} {host : HostEntry}
    (h : lxcHost server entry = some host) : stampOf host = server := by
  rw [lxcHost] at h
  split at h
  · split at h
    · cases h
    · obtain ⟨n, _, rfl⟩ := Option.map_eq_some_iff.mp h
      exact stampOf_buildHostEntry ..
  · cases h

theorem stampOf_guestHost {server entry : String} {host : HostEntry}
    (h : guestHost server entry = some host) : stampOf host = server := by
  rw [guestHost] at h
  split at h
  · split at h
    · cases h
    · split at h
      · exact Option.some.inj h ▸ stampOf_buildHostEntry ..
      · exact Option.some.inj h ▸ stampOf_buildHostEntry ..
  · cases h

theorem stampOf_vmHost {address : String → String} {entry : String} {host : HostEntry}
    (h : vmHost address entry = some host) : stampOf host = "" := by
  rw [vmHost] at h
  split at h
  · dsimp only at h
    split at h
    · cases h
    · exact Option.some.inj h ▸ stampOf_buildHostEntry ..
  · cases h

theorem stampOf_filterMap (select : String → Option HostEntry) (selected : List String)
    (hselect : ∀ entry host, select entry = some host → stampOf host = id) :
    ∀ host ∈ selected.filterMap select, stampOf host = id := by
  intro host hhost
  obtain ⟨entry, _, hentry⟩ := List.mem_filterMap.mp hhost
  exact hselect entry host hentry

theorem appends_addNodes (env : Surroundings) (s : Settings) (wizard : Bool) (url id : String)
    (nodes : Option (List String)) :
    ∃ new, Appends s (addNodes env s wizard url id nodes) id new ∧ (nodes = none → new = []) := by
  unfold addNodes
  split
  · dsimp only
    split
    · exact ⟨[], appends_nil s id, fun _ => rfl⟩
    · obtain ⟨new, hnew, _⟩ := appends_addHosts s (stampOf_nodeHosts _ id _)
      exact ⟨new, hnew, nofun⟩
  · exact ⟨[], appends_nil s id, fun _ => rfl⟩

/-- What a save adds to the servers and the credentials: the nodes, where the form is
complete and the API answers. -/
theorem setupSaveProxmox_appends {form : SaveForm} {pem fp : String} {nodes : Option (List String)}
    (hrun : setupSaveProxmox env s form pem fp nodes = some (t, id)) : ∃ saved new,
      persistProxmoxServer env s form.serverId form.url pem fp (form.skipSslVerify != "1") =
        some (saved, id) ∧
      Appends (saveCredentials saved id form.credKwargs) t id new ∧
      (new ≠ [] → form.Complete ∧ nodes ≠ none) := by
  obtain ⟨⟨saved, serverId⟩, hpersist, hpair⟩ := Option.map_eq_some_iff.mp hrun
  obtain ⟨hstate, rfl⟩ := Prod.mk.inj hpair
  rw [← hstate]
  split
  · rename_i hcomplete
    obtain ⟨new, hnew, hnodes⟩ :=
      appends_addNodes env (saveCredentials saved serverId form.credKwargs)
      true form.url serverId nodes
    exact ⟨saved, new, hpersist, hnew, fun hne => ⟨hcomplete, fun hnone => hne (hnodes hnone)⟩⟩
  · exact ⟨saved, [], hpersist, appends_nil _ _, fun hne => absurd rfl hne⟩

/-- A discovery that finds something out adds the nodes, any other nothing. -/
theorem discover_appends (env : Surroundings) (s : Settings) (serverId : String)
    (nodes : Option (List String)) :
    ∃ new, Appends s (setupProxmoxDiscover env s serverId nodes) serverId new ∧
      (new ≠ [] → Discovers s serverId nodes) := by
  unfold setupProxmoxDiscover
  extract_lets cfg creds url
  split
  · exact ⟨[], appends_nil s serverId, fun hne => absurd rfl hne⟩
  · rename_i hready
    obtain ⟨new, hnew, hnodes⟩ := appends_addNodes env s true
      ((proxmoxCfgFor s serverId).url.getD "") serverId nodes
    exact ⟨new, hnew, fun hne => ⟨fun hnone => hne (hnodes hnone), hready⟩⟩

theorem addNodeHost_appends (env : Surroundings) (s : Settings) (serverId : String)
    (nodes : Option (List String)) :
    ∃ new, Appends s (adminAddNodeHost env s serverId nodes)
    (resolveProxmoxServer s serverId) new := by
  unfold adminAddNodeHost
  extract_lets owner cfg creds url
  split
  · exact ⟨[], appends_nil s _⟩
  · obtain ⟨new, hnew, _⟩ := appends_addNodes env s false _ (resolveProxmoxServer s serverId) nodes
    exact ⟨new, hnew⟩

/-- Hosts that are added for the server of their stamp. -/
theorem World.Sound.become {owner : Option Owner} (h : { w with settings := s }.Sound)
    (hlength : s.config.hosts.length = w.settings.config.hosts.length ∨
      s.config.hosts.length ≤ w.settings.config.hosts.length ∧ new = [])
    (happends : Appends s t id new) (hkey : id = "" → new ≠ [] → owner ≠ none → KeyFits s)
    (howner : new ≠ [] → ∀ o, owner = some o → serverFor s.config id = some o) :
    (w.become t owner).Sound := by
  have hdrop : t.config.hosts.drop w.settings.config.hosts.length = new := by
    rw [happends.eq]
    rcases hlength with heq | ⟨hle, hnil⟩
    · rw [← heq]
      exact List.drop_left
    · rw [hnil, List.append_nil]
      exact List.drop_eq_nil_of_le hle
  have hnew : ∀ entry ∈ (w.become t owner).added, entry ∈ w.added ∨
      (new ≠ [] ∧ owner ≠ none) ∧ entry.1 ∈ new ∧ serverFor s.config id = some entry.2 := by
    intro entry hentry
    rw [World.become, hdrop] at hentry
    rcases List.mem_append.mp hentry with hold | hnew
    · exact .inl hold
    · obtain ⟨host, hhost, hpair⟩ := List.mem_filterMap.mp hnew
      obtain ⟨o, ho, rfl⟩ := Option.map_eq_some_iff.mp hpair
      have hne := List.ne_nil_of_mem hhost
      exact .inr ⟨⟨hne, by simp [ho]⟩, hhost, howner hne o ho⟩
  have hfits : (w.become t owner).Bare → KeyFits s := by
    rintro ⟨entry, hentry, hstamp⟩
    rcases hnew entry hentry with hold | ⟨hne, hhost, _⟩
    · exact h.key ⟨entry, hold, hstamp⟩
    · exact hkey ((happends.stamp _ hhost).symm.trans hstamp) hne.1 hne.2
  have ht := happends.eq
  refine ⟨?_, ?_, ?_, ?_⟩
  · intro entry hentry
    rw [World.become, ht]
    rcases hnew entry hentry with hold | ⟨_, hhost, _⟩
    · exact List.mem_append_left _ (h.held entry hold)
    · exact List.mem_append_right _ hhost
  · intro entry hentry hstamp
    subst ht
    rcases hnew entry hentry with hold | ⟨_, hhost, hfor⟩
    · exact h.stamped entry hold hstamp
    · rw [happends.stamp _ hhost] at hstamp ⊢
      exact serverFor_some hfor hstamp
  · intro entry hentry hstamp o ho
    subst ht
    rcases hnew entry hentry with hold | ⟨_, hhost, hfor⟩
    · exact h.single entry hold hstamp o ho
    · rw [← happends.stamp _ hhost, hstamp] at hfor
      exact Option.some.inj (ho.symm.trans hfor)
  · subst ht
    exact hfits

end Adding

section Restarting

variable {env : Surroundings} {w : World}

/-- A migration takes the old block and its hosts over into the list. -/
theorem World.Sound.migrated (h : w.Sound)
    (hshape : legacyBlock w.settings.config = none ∨ w.settings.config.getProxmoxServers = []) :
    (w.migrated env).Sound := by
  have hafter := restart_migrated env w.settings
  rw [World.migrated]
  generalize restart env w.settings = t at hafter ⊢
  cases hafter with
  | nothing hlegacy => simpa [World.migratedId, hlegacy] using h
  | dropped legacy hlegacy hservers =>
      exact absurd (hshape.resolve_left (by simp [hlegacy])) hservers
  | refused legacy hlegacy hservers hurl =>
      simpa [World.migratedId, hlegacy, hservers, hurl] using h
  | moved legacy id hlegacy hservers hurl =>
      have hid : World.migratedId env w.settings = some id := by
        simp [World.migratedId, hlegacy, hservers, hurl]
      have hne : id ≠ "" := slugifyServerId_ne_empty hurl
      have hlegacyOnly : ∀ owner, Configured w.settings.config owner → owner = .legacy := by
        intro owner howner
        cases owner with
        | legacy => rfl
        | server other =>
            rw [configured_server, serverIds, hservers] at howner
            cases howner
      have howned : ∀ entry ∈ w.added, stampOf entry.1 = "" ∧ entry.2 = .legacy := by
        intro entry hentry
        by_cases hstamp : stampOf entry.1 = ""
        · exact ⟨hstamp, (h.single entry hentry hstamp _
            (singletonOwner_legacy (by simp [hlegacy]))).symm⟩
        · obtain ⟨howner, hconfigured⟩ := h.stamped entry hentry hstamp
          rw [hlegacyOnly _ hconfigured] at howner
          cases howner
      have hlist : singletonOwner (migratedConfig w.settings.config legacy id) =
        some (.server id) := rfl
      have hserver := configured_of_singleton hlist
      have hstamped : ∀ host, stampOf host = "" → stampOf (stamp id host) ≠ "" →
          stampOf (stamp id host) = id := by
        intro host hbare hstamp
        rw [stamp] at hstamp ⊢
        split
        · exact if_neg hne
        · rename_i hnode
          rw [if_neg hnode] at hstamp
          exact absurd hbare hstamp
      rw [hid]
      dsimp only
      refine ⟨?_, ?_, ?_, ?_⟩
      · intro entry hentry
        obtain ⟨old, hold, rfl⟩ := List.mem_map.mp hentry
        exact List.mem_map_of_mem (h.held old hold)
      · intro entry hentry hstamp
        obtain ⟨old, hold, rfl⟩ := List.mem_map.mp hentry
        obtain ⟨hbare, howner⟩ := howned old hold
        rw [hstamped old.1 hbare hstamp, howner]
        exact ⟨rfl, hserver⟩
      · intro entry hentry hstamp owner hsingle
        obtain ⟨old, hold, rfl⟩ := List.mem_map.mp hentry
        rw [(howned old hold).2]
        exact Option.some.inj (hsingle.symm.trans hlist)
      · intro _
        refine .inr (iff_of_false (fun hnone => hnone rfl) (not_not.mpr ?_))
        cases hentry : w.settings.store.get? (integrationKey "proxmox") with
        | none => rwa [movedStore_of_none hentry]
        | some entry =>
            rw [movedStore_of_some hentry, Dict.get?_set_ne _ _ (integrationKey_ne id).symm,
              Dict.get?_pop_self]

end Restarting

end Keepup.Proxmox
