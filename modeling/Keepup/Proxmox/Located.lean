import Keepup.Proxmox.Reowning

/-!
Where the saved servers are. A step keeps the URL of every server but the one it
is for, and that one is then where the step says; so the servers of the record of
a run stay at the URLs they were saved with.
-/

namespace Keepup.Proxmox

open Lib

section Lookup

variable {config : Config} {s t : Settings} {owner : Owner} {url id other : String}

theorem urlOf_server : urlOf config (.server id) =
    (config.getProxmoxServers.find? (·.id == id)).bind fun server => server.url := by
  rw [urlOf, blockOf, Config.getProxmoxServer]
  cases config.getProxmoxServers.find? (·.id == id) <;> rfl

theorem configured_of_urlOf (h : urlOf config owner = some url) : Configured config owner := by
  intro hnone
  rw [urlOf, hnone] at h
  cases h

theorem urlOf_eq_none (h : singletonOwner config = none) : urlOf config owner ≠ some url := by
  intro hurl
  obtain ⟨single, hsingle⟩ := exists_singleton (configured_of_urlOf hurl)
  rw [h] at hsingle
  cases hsingle

theorem singletonOwner_empty (hlegacy : legacyBlock config = none)
    (hservers : config.getProxmoxServers = []) : singletonOwner config = none := by
  rw [singletonOwner_list hlegacy, hservers]
  rfl

/-- A change that leaves the old block and the list where they are. -/
theorem urlOf_congr (hlegacy : t.config.proxmox = s.config.proxmox)
    (hservers : t.config.proxmoxServers = s.config.proxmoxServers) (owner : Owner) :
    urlOf t.config owner = urlOf s.config owner := by
  cases owner with
  | legacy => rw [urlOf, urlOf, blockOf, blockOf, legacyBlock, hlegacy, legacyBlock]
  | server id =>
      rw [urlOf_server, urlOf_server, Config.getProxmoxServers, hservers, Config.getProxmoxServers]

theorem Appends.urlOf_eq {new : List HostEntry} (h : Appends s t id new) (owner : Owner) :
    urlOf t.config owner = urlOf s.config owner := by
  obtain ⟨rfl, _⟩ := h
  exact urlOf_congr (s := s) rfl rfl owner

theorem urlOf_known {server : ProxmoxServer} (h : config.getProxmoxServer id = some server) :
    urlOf config (.server id) = server.url := by
  rw [Config.getProxmoxServer] at h
  rw [urlOf_server, h, Option.bind_some]

theorem serverFor_of_ne (hid : id ≠ "") (h : Configured config (.server id)) :
    serverFor config id = some (.server id) := by
  obtain ⟨block, hblock⟩ := Option.ne_none_iff_exists'.mp h
  obtain ⟨server, hserver, _⟩ := Option.map_eq_some_iff.mp hblock
  rw [serverFor, if_pos hid, hserver, Option.map_some]

/-- A server with a new id, at the end of the list. -/
theorem urlOf_append {entry : ProxmoxServer} (hfree : entry.id ∉ serverIds s.config) :
    let config := { s.config with proxmoxServers := some (s.config.getProxmoxServers ++ [entry]) }
    urlOf s.config (.server entry.id) = none ∧
      (∀ owner url, urlOf s.config owner = some url → urlOf config owner = some url) ∧
      urlOf config (.server entry.id) = entry.url := by
  have hnone : s.config.getProxmoxServers.find? (·.id == entry.id) = none := by
    rw [List.find?_eq_none]
    intro server hserver
    have hmem : server.id ∈ serverIds s.config := List.mem_map_of_mem hserver
    simpa using fun hid : server.id = entry.id => hfree (hid ▸ hmem)
  refine ⟨by rw [urlOf_server, hnone, Option.bind_none], fun owner url hold => ?_, ?_⟩
  · cases owner with
    | legacy => exact hold
    | server other =>
        rw [urlOf_server] at hold ⊢
        obtain ⟨server, hserver, hurl⟩ := Option.bind_eq_some_iff.mp hold
        simp [Config.getProxmoxServers, List.find?_append] at hserver ⊢
        simp [hserver, hurl]
  · rw [urlOf_server, Config.getProxmoxServers, Option.getD_some, List.find?_append, hnone]
    simp

theorem urlOf_delete_server (hother : other ≠ id) :
    urlOf (deleteProxmoxServer s id).config (.server other) = urlOf s.config (.server other) := by
  rw [deleteProxmoxServer]
  split
  · have hkeeps : ∀ server : ProxmoxServer,
        (decide ((server.id != id) = true ∧ (server.id == other) = true)) =
            (server.id == other) := by
      intro server
      by_cases hid : server.id = other <;> simp [hid, hother]
    simp only [urlOf_server, Config.getProxmoxServers, Option.getD_some, List.find?_filter, hkeeps]
  · rfl

theorem urlOf_delete {owner : Owner} (hother : owner ≠ .server id) :
    urlOf (deleteProxmoxServer s id).config owner = urlOf s.config owner := by
  cases owner with
  | legacy =>
      rw [deleteProxmoxServer]
      split <;> rfl
  | server other => exact urlOf_delete_server fun hid => hother (congrArg Owner.server hid)

/-- The first server with an id is changed, and the others are found as they were. -/
theorem find?_changeFirst {change : ProxmoxServer → ProxmoxServer}
    (hchange : ∀ server, (change server).id = server.id) (servers : List ProxmoxServer)
    (other : String) :
    (changeFirst id change servers).find? (·.id == other) =
      (servers.find? (·.id == other)).map fun server =>
        if other = id then change server else server := by
  induction servers with
  | nil => rfl
  | cons server rest ih =>
      rw [changeFirst]
      split
      · rename_i hid
        by_cases hother : other = id
        · simp [hchange, hid, hother]
        · have hne : id ≠ other := fun h => hother h.symm
          simp [hchange, hid, hother, hne]
      · rename_i hid
        by_cases hsame : server.id = other
        · have hne : other ≠ id := fun h => hid (hsame.trans h)
          simp [hsame, hne]
        · rw [List.find?_cons_of_neg (by simpa using hsame),
            List.find?_cons_of_neg (by simpa using hsame), ih]

theorem urlOf_updated {change : ProxmoxServer → ProxmoxServer}
    (hchange : ∀ server, (change server).id = server.id)
    (hlegacy : t.config.proxmox = s.config.proxmox)
    (hservers : t.config.proxmoxServers = s.config.proxmoxServers.map (changeFirst id change)) :
    (∀ owner, owner ≠ .server id → urlOf t.config owner = urlOf s.config owner) ∧
      urlOf t.config (.server id) =
        (s.config.getProxmoxServer id).bind fun server => (change server).url := by
  have hget : t.config.getProxmoxServers = changeFirst id change s.config.getProxmoxServers := by
    rw [Config.getProxmoxServers, hservers, Config.getProxmoxServers]
    cases s.config.proxmoxServers <;> rfl
  refine ⟨fun owner howner => ?_, ?_⟩
  · cases owner with
    | legacy => rw [urlOf, urlOf, blockOf, blockOf, legacyBlock, hlegacy, legacyBlock]
    | server other =>
        have hother : other ≠ id := fun h => howner (congrArg Owner.server h)
        simp [urlOf_server, hget, find?_changeFirst hchange, hother]
  · rw [urlOf_server, hget, find?_changeFirst hchange, Config.getProxmoxServer]
    cases s.config.getProxmoxServers.find? (·.id == id) <;> simp

end Lookup

section Record

variable {w : World} {t : Settings} {owner : Owner} {url : String}

/-- A change that keeps every URL. -/
theorem World.Located.kept (h : w.Located)
    (hkept : ∀ owner url, urlOf w.settings.config owner = some url →
      urlOf t.config owner = some url) :
    { w with settings := t }.Located := fun entry hentry => hkept entry.1 entry.2 (h entry hentry)

/-- A change of the URL of one server. -/
theorem World.Located.moved (h : w.Located)
    (hown : Configured w.settings.config owner → urlOf t.config owner = some url)
    (hother : ∀ other, other ≠ owner → urlOf t.config other = urlOf w.settings.config other) :
    { w with settings := t, saved := w.saved.map (relocated owner url) }.Located := by
  intro entry hentry
  obtain ⟨old, hold, rfl⟩ := List.mem_map.mp hentry
  have hurl := h old hold
  by_cases hsame : old.1 = owner
  · rw [relocated, if_pos hsame]
    exact hown (hsame ▸ configured_of_urlOf hurl)
  · rw [relocated, if_neg hsame]
    exact (hother old.1 hsame).trans hurl

/-- A server that goes takes its entries with it. -/
theorem World.Located.gone (h : w.Located) (hother : ∀ other, other ≠ owner → ∀ url,
      urlOf w.settings.config other = some url → urlOf t.config other = some url) :
    { w.forget owner with settings := t }.Located := by
  intro entry hentry
  obtain ⟨hmem, hne⟩ := List.mem_filter.mp hentry
  exact hother entry.1 (by simpa using hne) entry.2 (h entry hmem)

theorem World.Located.become (h : { w with settings := t }.Located) (owner : Option Owner) :
    (w.become t owner).Located := h

variable {form : SaveForm}

theorem recording_of_blank (hurl : form.url = "") (owner : Option Owner) :
    w.recording form owner = w :=
  if_pos hurl

/-- A save with a URL, of a server that is at that URL then. -/
theorem World.Located.recorded (h : w.Located) (hurl : form.url ≠ "")
    (hown : urlOf t.config owner = some (Text.rstripChar '/' form.url))
    (hother : ∀ other, other ≠ owner → ∀ url,
      urlOf w.settings.config other = some url → urlOf t.config other = some url)
    (hstale : Stale w.settings form.serverId → ∀ url, urlOf w.settings.config owner = some url →
      url = Text.rstripChar '/' form.url) :
    { w.recording form (some owner) with settings := t }.Located := by
  rw [World.recording, if_neg hurl]
  intro entry hentry
  rcases List.mem_cons.mp hentry with rfl | hentry
  · exact hown
  split at hentry
  · rename_i hcard
    by_cases hsame : entry.1 = owner
    · rw [hsame, hown, hstale hcard entry.2 (hsame ▸ h entry hentry)]
    · exact hother entry.1 hsame entry.2 (h entry hentry)
  · obtain ⟨old, hold, rfl⟩ := List.mem_map.mp hentry
    by_cases hsame : old.1 = owner
    · rw [relocated, if_pos hsame]
      exact hown
    · rw [relocated, if_neg hsame]
      exact hother old.1 hsame old.2 (h old hold)

end Record

section Steps

variable {env : Surroundings} {w : World} {s t : Settings} {form : SaveForm} {id : String}
  {nodes : Option (List String)}

/-- A careful save from a card whose server is gone repeats the URL of the single server. -/
theorem stale_url {pem fp : String} (hsafe : w.Careful (.save form pem fp nodes))
    (hcard : Stale w.settings form.serverId) {owner : Owner}
    (howner : Configured w.settings.config owner → singletonOwner w.settings.config = some owner) :
    ∀ url, urlOf w.settings.config owner = some url → url = Text.rstripChar '/' form.url := by
  intro url hurl
  have hsingle := howner (configured_of_urlOf hurl)
  rcases hsafe.2.2 hcard with hnone | ⟨_, _, hsame⟩
  · rw [hnone] at hsingle
    cases hsingle
  · exact Option.some.inj (hurl.symm.trans (hsame owner hsingle))

/-- A save through the blank card puts the new server at the end of the list. -/
theorem World.Located.savedLast (h : w.Located) (hurl : form.url ≠ "") {entry : ProxmoxServer}
    (hid : entry.id ≠ "") (hfree : entry.id ∉ serverIds w.settings.config)
    (hentry : entry.url = some (Text.rstripChar '/' form.url)) :
    let config := { w.settings.config with
      proxmoxServers := some (w.settings.config.getProxmoxServers ++ [entry]) }
    { w.recording form (serverFor config entry.id) with
      settings := { w.settings with config } }.Located := by
  intro config
  obtain ⟨hnone, hkept, hfound⟩ := urlOf_append hfree
  rw [serverFor_of_ne hid (configured_of_urlOf (hfound.trans hentry))]
  exact h.recorded hurl (hfound.trans hentry) (fun other _ => hkept other)
    fun _ url hold => by rw [hnone] at hold; cases hold

/-- A save with the id of a configured server changes that one, and its URL if one is posted. -/
theorem World.Located.savedKnown (h : w.Located) {change : ProxmoxServer → ProxmoxServer}
    (hchange : ∀ server, (change server).id = server.id) (hid : form.serverId ≠ "")
    (hknown : w.settings.config.getProxmoxServer form.serverId ≠ none)
    (hwritten : ∀ server, (change server).url =
      if form.url = "" then server.url else some (Text.rstripChar '/' form.url)) :
    let config := { w.settings.config with
      proxmoxServers := w.settings.config.proxmoxServers.map (changeFirst form.serverId change) }
    { w.recording form (serverFor config form.serverId) with
      settings := { w.settings with config } }.Located := by
  intro config
  obtain ⟨server, hserver⟩ := Option.ne_none_iff_exists'.mp hknown
  obtain ⟨hothers, hown⟩ :=
    @urlOf_updated w.settings { w.settings with config } form.serverId change hchange rfl rfl
  rw [hserver, Option.bind_some, hwritten] at hown
  by_cases hurl : form.url = ""
  · rw [recording_of_blank hurl]
    refine h.kept fun owner url hold => ?_
    by_cases howner : owner = .server form.serverId
    · rw [howner, hown, if_pos hurl]
      rwa [howner, urlOf_known hserver] at hold
    · exact (hothers owner howner).trans hold
  · rw [if_neg hurl] at hown
    rw [serverFor_of_ne hid (configured_of_urlOf hown)]
    exact h.recorded hurl hown (fun other hne url hold => (hothers other hne).trans hold)
      fun hcard => absurd hcard.2.2 hknown

/-- Only the entry of the old block depends on it. -/
theorem urlOf_old_block (block : Option Block) {owner : Owner} (howner : owner ≠ .legacy) :
    urlOf { w.settings.config with proxmox := block } owner = urlOf w.settings.config owner := by
  cases owner with
  | legacy => exact absurd rfl howner
  | server id => rfl

/-- A save for the single server that is the old block. -/
theorem World.Located.legacyWritten {pem fp : String} (h : w.Located) (hurl : form.url ≠ "")
    (hsafe : w.Careful (.save form pem fp nodes)) {entry : Block} (hentry : entry ≠ {})
    (hwritten : entry.url = some (Text.rstripChar '/' form.url)) :
    let config := { w.settings.config with proxmox := some entry }
    { w.recording form (serverFor config "") with
      settings := { w.settings with config } }.Located := by
  intro config
  have hown : urlOf config .legacy = some (Text.rstripChar '/' form.url) := by
    simpa [config, urlOf, blockOf, legacyBlock, Option.filter, hentry] using hwritten
  have hfor : serverFor config "" = some .legacy :=
    singletonOwner_legacy (configured_of_urlOf hown)
  rw [hfor]
  exact h.recorded hurl hown (fun other hne url hold => (urlOf_old_block _ hne).trans hold)
    fun hcard => stale_url hsafe hcard fun hlegacy => singletonOwner_legacy hlegacy

/-- The single server that is the old block is removed, where there is one. -/
theorem World.Located.legacyRemoved (h : w.Located)
    (hshape : w.settings.config.proxmoxServers = none ∨ legacyBlock w.settings.config ≠ none) :
    { (singletonOwner w.settings.config).elim w w.forget with
      settings := { w.settings with
        config := { w.settings.config with proxmox := none } } }.Located := by
  cases hlegacy : legacyBlock w.settings.config with
  | some legacy =>
      rw [singletonOwner_legacy (by simp [hlegacy]), Option.elim_some]
      exact h.gone fun other hne url hold => (urlOf_old_block _ hne).trans hold
  | none =>
      have hservers : w.settings.config.getProxmoxServers = [] := by
        rw [Config.getProxmoxServers, hshape.resolve_right (not_not.mpr hlegacy), Option.getD_none]
      have hnone := singletonOwner_empty hlegacy hservers
      rw [hnone, Option.elim_none]
      exact h.kept fun owner url hold => absurd hold (urlOf_eq_none hnone)

/-- A save for the single server where there is none yet, only an empty list. -/
theorem World.Located.firstAdded (h : w.Located) (hurl : form.url ≠ "")
    (hlegacy : legacyBlock w.settings.config = none)
    (hservers : w.settings.config.proxmoxServers = some []) {entry : ProxmoxServer}
    (hentry : entry.url = some (Text.rstripChar '/' form.url)) :
    let config := { w.settings.config with proxmoxServers := some [entry] }
    { w.recording form (serverFor config "") with
      settings := { w.settings with config } }.Located := by
  intro config
  have hnone := singletonOwner_empty hlegacy (getProxmoxServers_of hservers)
  have hown : urlOf config (.server entry.id) = some (Text.rstripChar '/' form.url) := by
    simpa [config, urlOf_server, Config.getProxmoxServers] using hentry
  have hfor : serverFor config "" = some (.server entry.id) := singletonOwner_list hlegacy
  rw [hfor]
  exact h.recorded hurl hown (fun _ _ _ hold => absurd hold (urlOf_eq_none hnone))
    fun _ _ hold => absurd hold (urlOf_eq_none hnone)

/-- A save for the single server that is the first of the list. -/
theorem World.Located.firstUpdated {pem fp : String} (h : w.Located) (hurl : form.url ≠ "")
    (hsafe : w.Careful (.save form pem fp nodes)) (hlegacy : legacyBlock w.settings.config = none)
    {first : ProxmoxServer} {rest : List ProxmoxServer}
    (hservers : w.settings.config.proxmoxServers = some (first :: rest))
    {change : ProxmoxServer → ProxmoxServer} (hchange : ∀ server, (change server).id = server.id)
    (hwritten : (change first).url = some (Text.rstripChar '/' form.url)) :
    let config := { w.settings.config with proxmoxServers := some (change first :: rest) }
    { w.recording form (serverFor config "") with
      settings := { w.settings with config } }.Located := by
  intro config
  have hget := getProxmoxServers_of hservers
  have hfirst : some (change first :: rest) =
      w.settings.config.proxmoxServers.map (changeFirst first.id change) := by
    simp [hservers, changeFirst]
  obtain ⟨hothers, hown⟩ :=
    @urlOf_updated w.settings { w.settings with config } first.id change hchange rfl hfirst
  have hserver : w.settings.config.getProxmoxServer first.id = some first := by
    simp [Config.getProxmoxServer, hget]
  rw [hserver, Option.bind_some, hwritten] at hown
  have hfor : serverFor config "" = some (.server first.id) := by
    rw [← hchange first]
    exact singletonOwner_list hlegacy
  rw [hfor]
  refine h.recorded hurl hown (fun other hne url hold => (hothers other hne).trans hold)
    fun hcard => stale_url hsafe hcard fun _ => ?_
  rw [singletonOwner_list hlegacy, hget]
  rfl

/-- A save puts its server at the posted URL, or takes it away, and no other. -/
theorem World.Located.persisted {pem fp : String} (h : w.Located)
    (hsaved : Persisted env w.settings form.serverId form.url t id)
    (hsafe : w.Careful (.save form pem fp nodes)) :
    { (w.removing form).recording form (serverFor t.config id) with settings := t }.Located := by
  cases hsaved with
  | ignored hnew hurl =>
      rw [removing_of_named (hnew ▸ newServer_ne), recording_of_blank hurl]
      exact h
  | added base entry hnew hurl hbase hentry =>
      have hne := uniqueServerId_ne_empty (slugifyServerId_ne_empty hbase)
        (serverIds w.settings.config)
      have hfree := uniqueServerId_not_mem base (serverIds w.settings.config)
      rw [removing_of_url hurl]
      exact @World.Located.savedLast w form h hurl { entry with id := _ } hne hfree hentry
  | updated change hchange hnew hid hknown hwritten =>
      rw [removing_of_named hid]
      exact h.savedKnown hchange hid hknown hwritten
  | legacyWritten entry hsingle hurl hentry hshape hwritten =>
      rw [removing_of_url hurl]
      exact h.legacyWritten hurl hsafe hentry hwritten
  | legacyRemoved hsingle hurl hshape =>
      rw [removing_of_single hurl hsingle hsafe, recording_of_blank hurl]
      exact h.legacyRemoved hshape
  | firstAdded base entry hsingle hurl hlegacy hservers hbase hentry =>
      rw [removing_of_url hurl]
      exact h.firstAdded hurl hlegacy hservers hentry
  | firstUpdated first rest change hchange hsingle hurl hlegacy hservers hwritten =>
      rw [removing_of_url hurl]
      exact h.firstUpdated hurl hsafe hlegacy hservers hchange hwritten
  | firstDeleted first rest hsingle hurl hlegacy hservers =>
      rw [removing_of_single hurl hsingle hsafe, singletonOwner_list hlegacy,
        getProxmoxServers_of hservers, recording_of_blank hurl]
      exact h.gone fun other hne url hold => (urlOf_delete hne).trans hold
  | emptyList hsingle hurl hlegacy hservers =>
      rw [removing_of_single hurl hsingle hsafe,
        singletonOwner_empty hlegacy (getProxmoxServers_of hservers), recording_of_blank hurl]
      exact h

theorem World.Located.afterSave {pem fp : String} (h : w.Located)
    (hrun : setupSaveProxmox env w.settings form pem fp nodes = some (t, id))
    (hsafe : w.Careful (.save form pem fp nodes)) : (w.afterSave form t id).Located := by
  obtain ⟨saved, new, hpersist, hnew, _⟩ := setupSaveProxmox_appends hrun
  have hconfig : (saveCredentials saved id form.credKwargs).config = saved.config := by simp
  have hplaced := h.persisted (persistProxmoxServer_persisted hpersist) hsafe
  rw [← hconfig, ← hnew.serverFor_eq id] at hplaced
  rw [World.afterSave]
  refine World.Located.become (fun entry hentry => ?_) _
  rw [← hplaced entry hentry]
  exact (hnew.urlOf_eq entry.1).trans (congrArg (urlOf · entry.1) hconfig)

/-- Hosts that are added leave the servers where they are. -/
theorem World.Located.appends {new : List HostEntry} (h : w.Located)
    (hservers : ∀ owner, urlOf s.config owner = urlOf w.settings.config owner)
    (hnew : Appends s t id new) (owner : Option Owner) : (w.become t owner).Located :=
  World.Located.become (fun entry hentry =>
    ((hnew.urlOf_eq entry.1).trans (hservers entry.1)).trans (h entry hentry)) owner

/-- A migration takes the URL of the old block over, where there is no list. -/
theorem World.Located.migrated (h : w.Located)
    (hshape : legacyBlock w.settings.config = none ∨ w.settings.config.getProxmoxServers = []) :
    (w.migrated env).Located := by
  have hafter := restart_migrated env w.settings
  rw [World.migrated]
  generalize restart env w.settings = t at hafter ⊢
  cases hafter with
  | nothing hlegacy => simpa [World.migratedId, hlegacy] using h
  | dropped legacy hlegacy hservers =>
      exact absurd (hshape.resolve_left (by simp [hlegacy])) hservers
  | refused legacy hlegacy hservers hurl =>
      simpa [World.migratedId, hlegacy, hservers, hurl] using h
  | moved legacy id hlegacy hservers hurl =>
      have hid : World.migratedId env w.settings = some id := by
        simp [World.migratedId, hlegacy, hservers, hurl]
      rw [hid]
      intro entry hentry
      obtain ⟨old, hold, rfl⟩ := List.mem_map.mp hentry
      have hplaced := h old hold
      -- without a list only the old block has a URL
      obtain ⟨owner, url⟩ := old
      cases owner with
      | server other => simp [urlOf_server, hservers] at hplaced
      | legacy =>
          have hblock : legacy.url = some url := by simpa [urlOf, blockOf, hlegacy] using hplaced
          simp [urlOf_server, renamed, migratedConfig, Config.getProxmoxServers,
            serverOfBlock, hblock]

theorem World.Located.updated (h : w.Located) (serverId : String) (url : Option String)
    (verifySsl : Option Bool) (pem fp : Option String) :
    (w.step env (.update serverId url verifySsl pem fp)).Located := by
  obtain ⟨hothers, hown⟩ :=
    @urlOf_updated w.settings (updateProxmoxServer w.settings serverId url verifySsl pem fp)
    serverId (updateEntry url verifySsl pem fp) (fun _ => rfl) rfl rfl
  cases url with
  | none =>
      refine h.kept fun owner url hold => ?_
      by_cases howner : owner = .server serverId
      · rw [howner, hown]
        rw [howner, urlOf_server] at hold
        exact hold
      · exact (hothers owner howner).trans hold
  | some url =>
      refine h.moved (fun hconfigured => ?_) hothers
      obtain ⟨block, hblock⟩ := Option.ne_none_iff_exists'.mp hconfigured
      obtain ⟨server, hserver, _⟩ := Option.map_eq_some_iff.mp hblock
      rw [hown, hserver]
      rfl

theorem World.Located.step (h : w.Located) {request : Request} (hsafe : w.Careful request) :
    (w.step env request).Located := by
  cases request with
  | save form pem fp nodes =>
      rw [World.step]
      cases hrun : setupSaveProxmox env w.settings form pem fp nodes with
      | none => exact h
      | some saved => exact h.afterSave hrun hsafe
  | saveLxcs form =>
      obtain ⟨new, hnew, _⟩ :=
        appends_addHosts (saveCredentials w.settings form.serverId form.credKwargs)
        (stampOf_filterMap (lxcHost form.serverId) form.selectedLxcs fun _ _ => stampOf_lxcHost)
      exact h.appends (fun owner => by simp) hnew _
  | saveVms address selected =>
      obtain ⟨new, hnew, _⟩ := appends_addHosts w.settings
        (stampOf_filterMap (vmHost address) selected fun _ _ => stampOf_vmHost)
      exact h.appends (fun _ => rfl) hnew _
  | addAnother => exact h.migrated hsafe
  | restart => exact h.migrated hsafe
  | discover serverId nodes =>
      obtain ⟨new, hnew, _⟩ := discover_appends env w.settings serverId nodes
      exact h.appends (fun _ => rfl) hnew _
  | selectHosts serverId selected =>
      obtain ⟨new, hnew, _⟩ := appends_addHosts w.settings
        (stampOf_filterMap (guestHost (resolveProxmoxServer w.settings serverId)) selected
          fun _ _ => stampOf_guestHost)
      exact h.appends (fun _ => rfl) hnew _
  | addNodeHost serverId nodes =>
      obtain ⟨new, hnew⟩ := addNodeHost_appends env w.settings serverId nodes
      exact h.appends (fun _ => rfl) hnew _
  | update serverId url verifySsl pem fp => exact h.updated serverId url verifySsl pem fp
  | delete serverId =>
      rw [World.step]
      dsimp only
      split
      · exact h.gone fun other hne url hold => (urlOf_delete hne).trans hold
      · rename_i hunknown
        have hmem : serverId ∉ serverIds w.settings.config := by
          rw [← configured_server]
          simpa [Configured, blockOf] using hunknown
        rw [adminRemoveServer, deleteProxmoxServer_unknown hmem]
        exact h

end Steps

end Keepup.Proxmox
