import Keepup.Proxmox.Ids
import Keepup.Proxmox.Preservation
import Keepup.Proxmox.SavedCredentials

/-!
The Proxmox servers and their hosts over runs of saves, discoveries, deletions
and restarts. Beside the disk a run records which servers were saved and not
deleted since, with the URL of each, and for which server each host was added;
nothing of this record is read by the program.

The old block and the list may stand beside each other for a while. What must
not happen is that a restart finds both, that a host without a stamp outlives
the server it belongs to, and that credentials are saved without an id while the
single server is one of the list. A card can outlive its server, and a save from
such a card is one for the single server to the program: it must find none.
-/

namespace Keepup.Proxmox

open Lib

section Owners

/-- The block of a server, none when it is not configured. -/
def blockOf (config : Config) : Owner → Option Block
  | .legacy => legacyBlock config
  | .server id => (config.getProxmoxServer id).map ProxmoxServer.toBlock

def Configured (config : Config) (owner : Owner) : Prop := blockOf config owner ≠ none

/-- The URL at which a server is configured. -/
def urlOf (config : Config) (owner : Owner) : Option String := (blockOf config owner).bind Block.url

instance (config : Config) (owner : Owner) : Decidable (Configured config owner) :=
  inferInstanceAs (Decidable (blockOf config owner ≠ none))

/-- The key under which the credentials of a server belong. -/
def Owner.key : Owner → String
  | .legacy => "proxmox"
  | .server id => "proxmox_" ++ id

def credentialsOf (store : Store) (owner : Owner) : Entry :=
  store.getD (integrationKey owner.key) ∅

/-- The server that an id is about: without an id, the single one. -/
def serverFor (config : Config) (id : String) : Option Owner :=
  if id ≠ "" then (config.getProxmoxServer id).map fun _ => .server id else singletonOwner config

/-- The stamp of a host, empty without one. -/
def stampOf (host : HostEntry) : String := Text.orElse host.proxmoxServer ""

/-- The host resolves to a server, its block and its credentials. -/
def ResolvesTo (s : Settings) (host : HostEntry) (owner : Owner) : Prop :=
  ownerOf s.config host = some owner ∧
    ∃ block, blockOf s.config owner = some block ∧
      serverContext s.config s.store host = (block, credentialsOf s.store owner)

end Owners

section Requests

/-- A selected VM `node:vmid:name`, at the address posted for it. The wizard adds
it as a host like any other, which no server owns. -/
def vmHost (address : String → String) (entry : String) : Option HostEntry :=
  match splitFields 2 entry with
  | [_, vmid, name] =>
      let ip := Text.strip (address vmid)
      if ip = "" then none else some (buildHostEntry name ip "" "" none none none)
  | _ => none

def setupProxmoxSaveVms (s : Settings) (address : String → String) (selected : List String) :
    Settings :=
  { s with config := addHosts s.config (selected.filterMap (vmHost address)) }

/-- What changes the servers and their hosts. Discoveries come with what the API
answers, saves with the certificate that was confirmed. -/
inductive Request where
  | save (form : SaveForm) (pinnedCertPem pinnedFingerprint : String) (nodes : Option (List String))
  | saveLxcs (form : LxcForm)
  | saveVms (address : String → String) (selected : List String)
  | addAnother
  | discover (serverId : String) (nodes : Option (List String))
  | selectHosts (serverId : String) (selected : List String)
  | addNodeHost (serverId : String) (nodes : Option (List String))
  | update (serverId : String) (url : Option String) (verifySsl : Option Bool)
      (pinnedCertPem pinnedFingerprint : Option String)
  | delete (serverId : String)
  | restart

/-- A card whose server is gone. -/
def Stale (s : Settings) (serverId : String) : Prop :=
  serverId ≠ "" ∧ serverId ≠ newServer ∧ s.config.getProxmoxServer serverId = none

instance (s : Settings) (serverId : String) : Decidable (Stale s serverId) :=
  inferInstanceAs (Decidable (_ ∧ _ ∧ _))

/-- An entry of the record, once a server is at another URL. -/
def relocated (owner : Owner) (url : String) (entry : Owner × String) : Owner × String :=
  if entry.1 = owner then (owner, url) else entry

/-- The disk, and the record of the run. -/
structure World where
  settings : Settings
  saved : List (Owner × String) := []
  added : List (HostEntry × Owner) := []

namespace World

variable (env : Surroundings) (w : World)

/-- A server is deleted. Its stamped hosts go with it, or stop being hosts of
Proxmox. -/
def forget (owner : Owner) : World :=
  { w with
    saved := w.saved.filter fun entry => entry.1 ≠ owner
    added := w.added.filter fun entry =>
      match owner with
      | .legacy => true
      | .server id => entry.1.proxmoxServer ≠ some id }

/-- The hosts that are new on the disk were added for a server, if for any. -/
def become (t : Settings) (owner : Option Owner) : World :=
  { w with
    settings := t
    added := w.added ++
      (t.config.hosts.drop w.settings.config.hosts.length).filterMap fun host =>
        owner.map (Prod.mk host) }

/-- The server that a save without a URL removes. Whoever saves from a card whose
server is gone removes no other one. -/
def removedBy (s : Settings) (form : SaveForm) : Option Owner :=
  if form.url = "" ∧ form.serverId = "" then singletonOwner s.config else none

def removing (form : SaveForm) : World := (removedBy w.settings form).elim w w.forget

/-- A save with a URL is one of a server at that URL, and moves a server that was
saved before, unless it is from a card whose server is gone. -/
def recording (form : SaveForm) (owner : Option Owner) : World :=
  if form.url = "" then w
  else
    match owner with
    | none => w
    | some owner =>
        let url := Text.rstripChar '/' form.url
        { w with saved := (owner, url) :: if Stale w.settings form.serverId then w.saved
                                          else w.saved.map (relocated owner url) }

def afterSave (form : SaveForm) (t : Settings) (id : String) : World :=
  let owner := serverFor t.config id
  ((w.removing form).recording form owner).become t owner

/-- A change of the URL of a server. -/
def updating (serverId : String) (url : Option String) : World :=
  match url with
  | none => w
  | some url =>
      { w with saved := w.saved.map (relocated (.server serverId) (Text.rstripChar '/' url)) }

/-- The id that a migration gives to the old block. -/
def migratedId (s : Settings) : Option String :=
  match legacyBlock s.config with
  | some legacy =>
      if s.config.getProxmoxServers = [] then slugifyServerId env (legacy.url.getD "") else none
  | none => none

/-- The same server, once the old block has become one with an id. -/
def renamed (id : String) : Owner → Owner
  | .legacy => .server id
  | .server other => .server other

/-- The disk after the migration at startup. -/
def migrated : World :=
  let t := Proxmox.restart env w.settings
  match migratedId env w.settings with
  | some id =>
      { settings := t
        saved := w.saved.map fun entry => (renamed id entry.1, entry.2)
        added := w.added.map fun entry => (stamp id entry.1, renamed id entry.2) }
  | none => { w with settings := t }

/-- The server that a discovery is about: the blank card stands for the single
one. -/
def discovered (config : Config) (serverId : String) : Option Owner :=
  serverFor config (if serverId = newServer then "" else serverId)

def step : Request → World
  | .save form pem fp nodes =>
      match setupSaveProxmox env w.settings form pem fp nodes with
      | some (t, id) => w.afterSave form t id
      | none => w
  | .saveLxcs form =>
      let t := setupProxmoxSaveLxcs w.settings form
      w.become t (serverFor t.config form.serverId)
  | .saveVms address selected => w.become (setupProxmoxSaveVms w.settings address selected) none
  | .addAnother => w.migrated env
  | .discover serverId nodes =>
      w.become (setupProxmoxDiscover env w.settings serverId nodes)
        (discovered w.settings.config serverId)
  | .selectHosts serverId selected =>
      w.become (adminSelectHosts w.settings serverId selected)
        (serverFor w.settings.config (resolveProxmoxServer w.settings serverId))
  | .addNodeHost serverId nodes =>
      w.become (adminAddNodeHost env w.settings serverId nodes)
        (serverFor w.settings.config (resolveProxmoxServer w.settings serverId))
  | .update serverId url verifySsl pem fp =>
      { w.updating serverId url with
        settings := updateProxmoxServer w.settings serverId url verifySsl pem fp }
  | .delete serverId =>
      let t := adminRemoveServer w.settings serverId
      if w.settings.config.getProxmoxServer serverId ≠ none then
        { w.forget (.server serverId) with settings := t }
      else { w with settings := t }
  | .restart => w.migrated env

/-- No server is lost and no host is re-owned: a server that was saved and not
deleted is configured at the URL it was saved with, a host that was added for a
server is there and resolves to that server and its credentials as long as it is
configured, and to no other server ever. -/
structure Intact : Prop where
  configured : ∀ entry ∈ w.saved, urlOf w.settings.config entry.1 = some entry.2
  held : ∀ entry ∈ w.added, entry.1 ∈ w.settings.config.hosts
  resolved : ∀ entry ∈ w.added, Configured w.settings.config entry.2 →
    ResolvesTo w.settings entry.1 entry.2
  owned : ∀ entry ∈ w.added, ∀ owner, ownerOf w.settings.config entry.1 = some owner →
    owner = entry.2

end World

end Requests

section Conditions

/-- The single server is the first of the list. -/
def ListShape (config : Config) : Prop :=
  legacyBlock config = none ∧ config.getProxmoxServers ≠ []

/-- The entry without an id is there for the old block only. -/
def KeyFits (s : Settings) : Prop :=
  s.config.getProxmoxServers = [] ∨
    (legacyBlock s.config ≠ none ↔ s.store.get? (integrationKey "proxmox") ≠ none)

/-- No other server of the list stays when this one goes. -/
def Last (config : Config) : Owner → Prop
  | .legacy => config.getProxmoxServers = []
  | .server id => ∀ server ∈ config.getProxmoxServers, server.id = id

/-- The form names a server and says how to log in. -/
def SaveForm.Complete (form : SaveForm) : Prop :=
  form.url ≠ "" ∧ form.tokenId ≠ "" ∧ form.secret ≠ ""

/-- A discovery has a server to ask, and an answer. -/
def Discovers (s : Settings) (serverId : String) (nodes : Option (List String)) : Prop :=
  let creds := s.store.getIntegrationCredentials s.config
    (credentialKey (if serverId = newServer then "" else serverId))
  nodes ≠ none ∧ ¬ ((proxmoxCfgFor s serverId).url.getD "" = "" ∨
    (assembleToken creds).truthy = false)

namespace World

variable (w : World)

/-- A host without a stamp was added for a server. -/
def Bare : Prop := ∃ entry ∈ w.added, stampOf entry.1 = ""

/-- When the single server goes, no host without a stamp is left to the next. -/
def SafeRemoval (owner : Owner) : Prop :=
  w.Bare → singletonOwner w.settings.config = some owner → Last w.settings.config owner

/-- The blank card. -/
def SafeNew (form : SaveForm) : Prop :=
  w.Bare → (form.url = "" → ListShape w.settings.config → form.credKwargs = []) ∧
    (form.url ≠ "" → ListShape w.settings.config ∨ legacyBlock w.settings.config ≠ none ∧
      w.settings.store.get? (integrationKey "proxmox") ≠ none)

/-- A save without the id of a server. -/
def SafeSingle (form : SaveForm) (nodes : Option (List String)) : Prop :=
  (form.url = "" → ∀ owner, w.SafeRemoval owner) ∧
    (form.url ≠ "" → legacyBlock w.settings.config = none →
      (w.Bare → w.settings.config.getProxmoxServers ≠ [] ∧ form.credKwargs = []) ∧
        (w.settings.config.proxmoxServers ≠ none → form.Complete → nodes = none))

/-- A save from a card whose server is gone finds no single server, or says of that
one the URL that it has. -/
def SafeStale (form : SaveForm) : Prop :=
  singletonOwner w.settings.config = none ∨ form.url ≠ "" ∧ form.credKwargs = [] ∧
    ∀ owner, singletonOwner w.settings.config = some owner →
      urlOf w.settings.config owner = some (Text.rstripChar '/' form.url)

/-- The step does not confuse the single server with another. -/
def Careful : Request → Prop
  | .save form _ _ nodes =>
      (form.serverId = newServer → w.SafeNew form) ∧
        (IsSingletonSave w.settings form.serverId → w.SafeSingle form nodes) ∧
        (Stale w.settings form.serverId → w.SafeStale form)
  | .saveLxcs form => form.serverId = "" → ListShape w.settings.config →
      ¬ w.Bare ∧ form.selectedLxcs.filterMap (lxcHost "") = []
  | .saveVms _ _ => True
  | .addAnother => legacyBlock w.settings.config = none ∨ w.settings.config.getProxmoxServers = []
  | .discover serverId nodes => Discovers w.settings serverId nodes →
      (serverId = "" → KeyFits w.settings) ∧ serverId ≠ newServer
  | .selectHosts serverId _ => resolveProxmoxServer w.settings serverId = "" → KeyFits w.settings
  | .addNodeHost serverId _ => resolveProxmoxServer w.settings serverId = "" → KeyFits w.settings
  | .update _ _ _ _ _ => True
  | .delete serverId => w.SafeRemoval (.server serverId)
  | .restart => legacyBlock w.settings.config = none ∨ w.settings.config.getProxmoxServers = []

/-- What the record of the hosts and the disk have to say of each other. -/
structure Sound : Prop where
  held : ∀ entry ∈ w.added, entry.1 ∈ w.settings.config.hosts
  stamped : ∀ entry ∈ w.added, stampOf entry.1 ≠ "" →
    entry.2 = .server (stampOf entry.1) ∧ Configured w.settings.config entry.2
  single : ∀ entry ∈ w.added, stampOf entry.1 = "" → ∀ owner,
    singletonOwner w.settings.config = some owner → owner = entry.2
  key : w.Bare → KeyFits w.settings

/-- The servers of the record are where they were saved. -/
def Located : Prop := ∀ entry ∈ w.saved, urlOf w.settings.config entry.1 = some entry.2

end World

end Conditions

section Servers

variable {config : Config} {s : Settings} {owner : Owner} {id : String}

theorem configured_server : Configured config (.server id) ↔ id ∈ serverIds config := by
  simp [Configured, blockOf, Config.getProxmoxServer, serverIds]

theorem serverFor_some (h : serverFor config id = some owner) (hid : id ≠ "") :
    owner = .server id ∧ Configured config owner := by
  rw [serverFor, if_pos hid] at h
  obtain ⟨server, hserver, rfl⟩ := Option.map_eq_some_iff.mp h
  exact ⟨rfl, by simp [Configured, blockOf, hserver]⟩

theorem singletonOwner_legacy (h : legacyBlock config ≠ none) :
    singletonOwner config = some .legacy := if_pos h

theorem singletonOwner_list (h : legacyBlock config = none) :
    singletonOwner config = config.getProxmoxServers.head?.map fun server => .server server.id :=
  if_neg (not_not.mpr h)

theorem configured_of_singleton (h : singletonOwner config = some owner) :
    Configured config owner := by
  by_cases hlegacy : legacyBlock config = none
  · rw [singletonOwner_list hlegacy] at h
    obtain ⟨first, hfirst, rfl⟩ := Option.map_eq_some_iff.mp h
    rw [configured_server]
    exact List.mem_map_of_mem (List.mem_of_mem_head? hfirst)
  · rw [singletonOwner_legacy hlegacy] at h
    exact Option.some.inj h ▸ hlegacy

/-- While a server is configured, some server is the single one. -/
theorem exists_singleton (h : Configured config owner) :
    ∃ single, singletonOwner config = some single := by
  by_cases hlegacy : legacyBlock config = none
  · rw [singletonOwner_list hlegacy]
    cases owner with
    | legacy => exact absurd hlegacy h
    | server id =>
        obtain ⟨server, hserver, _⟩ := List.mem_map.mp (configured_server.mp h)
        obtain ⟨first, rest, hservers⟩ := List.exists_cons_of_ne_nil (List.ne_nil_of_mem hserver)
        exact ⟨_, by rw [hservers]; rfl⟩
  · exact ⟨_, singletonOwner_legacy hlegacy⟩

theorem serverContext_server {host : HostEntry} {block : Block} (hstamp : stampOf host ≠ "")
    (hblock : blockOf s.config (.server (stampOf host)) = some block) :
    serverContext s.config s.store host =
      (block, credentialsOf s.store (.server (stampOf host))) := by
  have hgiven : Text.orElse host.proxmoxServer "" ≠ "" := hstamp
  refine Prod.ext ?_ (serverContext_stamped hgiven)
  rw [serverContext, if_pos hgiven]
  exact congrArg (Option.getD · {}) hblock

/-- Without an old block the single server's settings are those of the first. -/
theorem getProxmoxConfig_list (hlegacy : legacyBlock config = none) :
    config.getProxmoxConfig =
      (config.getProxmoxServers.head?.map ProxmoxServer.toBlock).getD {} := by
  rw [Config.getProxmoxConfig]
  cases hblock : config.proxmox with
  | none => rfl
  | some block =>
      rw [legacyBlock, hblock] at hlegacy
      have hempty : block = {} := by simpa using hlegacy
      exact if_pos hempty

/-- Where the entry without an id is in its place, a host without a stamp gets
the settings of the single server. -/
theorem serverContext_single {host : HostEntry} (hstamp : stampOf host = "") (hkey : KeyFits s)
    (hsingle : singletonOwner s.config = some owner) :
    ∃ block, blockOf s.config owner = some block ∧
      serverContext s.config s.store host = (block, credentialsOf s.store owner) := by
  have hcontext : serverContext s.config s.store host =
      (s.config.getProxmoxConfig, s.store.getIntegrationCredentials s.config "proxmox") :=
    if_neg (not_not.mpr hstamp)
  rw [hcontext]
  cases hlegacy : legacyBlock s.config with
  | some legacy =>
      obtain rfl : Owner.legacy = owner := by
        rw [singletonOwner_legacy (by simp [hlegacy])] at hsingle
        exact Option.some.inj hsingle
      refine ⟨legacy, hlegacy, Prod.ext (getProxmoxConfig_legacy hlegacy) ?_⟩
      cases hentry : s.store.get? (integrationKey "proxmox") with
      | some entry => simp [getIntegrationCredentials_some hentry,
          credentialsOf, Owner.key, Dict.getD, hentry]
      | none =>
          have hservers : s.config.getProxmoxServers = [] :=
            hkey.resolve_right fun hiff => hiff.mp (by simp [hlegacy]) hentry
          simp [getIntegrationCredentials_empty hentry hservers,
            credentialsOf, Owner.key, Dict.getD, hentry]
  | none =>
      rw [singletonOwner_list hlegacy] at hsingle
      obtain ⟨first, hfirst, rfl⟩ := Option.map_eq_some_iff.mp hsingle
      have hne : s.config.getProxmoxServers ≠ [] := by
        intro hnil
        rw [hnil] at hfirst
        cases hfirst
      have hentry : s.store.get? (integrationKey "proxmox") = none :=
        by_contra fun hsome => (hkey.resolve_left hne).mpr hsome hlegacy
      obtain ⟨rest, hservers⟩ := List.head?_eq_some_iff.mp hfirst
      refine ⟨first.toBlock, ?_, Prod.ext ?_ (getIntegrationCredentials_first hentry hfirst)⟩
      · simp [blockOf, Config.getProxmoxServer, hservers]
      · rw [getProxmoxConfig_list hlegacy, hfirst]
        rfl

end Servers

section Invariant

variable {w : World} {t : Settings} {owner : Owner}

theorem World.Sound.intact (h : w.Sound) (hlocated : w.Located) : w.Intact where
  configured := hlocated
  held := h.held
  resolved entry hentry hconfigured := by
    by_cases hstamp : stampOf entry.1 = ""
    · obtain ⟨single, hsingle⟩ := exists_singleton hconfigured
      obtain rfl := h.single entry hentry hstamp single hsingle
      refine ⟨?_, serverContext_single hstamp (h.key ⟨entry, hentry, hstamp⟩) hsingle⟩
      exact (congrArg (serverFor w.settings.config) hstamp).trans hsingle
    · obtain ⟨howner, _⟩ := h.stamped entry hentry hstamp
      rw [howner] at hconfigured ⊢
      obtain ⟨block, hblock⟩ := Option.ne_none_iff_exists'.mp hconfigured
      refine ⟨?_, block, hblock, serverContext_server hstamp hblock⟩
      obtain ⟨server, hserver, _⟩ := Option.map_eq_some_iff.mp hblock
      exact (if_pos hstamp).trans (congrArg (Option.map _) hserver)
  owned entry hentry owner howner := by
    have hfor : serverFor w.settings.config (stampOf entry.1) = some owner := howner
    by_cases hstamp : stampOf entry.1 = ""
    · rw [hstamp] at hfor
      exact h.single entry hentry hstamp owner hfor
    · rw [(serverFor_some hfor hstamp).1, (h.stamped entry hentry hstamp).1]

/-- A change that keeps the hosts, the servers and the single server. -/
theorem World.Sound.settle (h : w.Sound)
    (hhosts : ∀ host ∈ w.settings.config.hosts, host ∈ t.config.hosts)
    (hservers : ∀ owner, Configured w.settings.config owner → Configured t.config owner)
    (hsingle : w.Bare → ∀ owner, singletonOwner t.config = some owner →
      singletonOwner w.settings.config = some owner)
    (hkey : w.Bare → KeyFits t) : { w with settings := t }.Sound where
  held entry hentry := hhosts _ (h.held entry hentry)
  stamped entry hentry hstamp :=
    ⟨(h.stamped entry hentry hstamp).1, hservers _ (h.stamped entry hentry hstamp).2⟩
  single entry hentry hstamp owner howner :=
    h.single entry hentry hstamp owner (hsingle ⟨entry, hentry, hstamp⟩ owner howner)
  key := hkey

end Invariant

section Shape

variable {w : World} {s t : Settings} {id : String}

theorem singletonOwner_ids (config : Config) : singletonOwner config =
    if legacyBlock config ≠ none then some .legacy else (serverIds config).head?.map .server := by
  rw [singletonOwner, serverIds, List.head?_map, Option.map_map]
  rfl

theorem serverIds_eq_nil {config : Config} :
    serverIds config = [] ↔ config.getProxmoxServers = [] :=
  List.map_eq_nil_iff

/-- The old block and the ids are what they were. -/
structure SameShape (s t : Settings) : Prop where
  legacy : legacyBlock t.config = none ↔ legacyBlock s.config = none
  ids : serverIds t.config = serverIds s.config

namespace SameShape

variable (h : SameShape s t)

include h

theorem configured (owner : Owner) : Configured t.config owner ↔ Configured s.config owner := by
  cases owner with
  | legacy => exact not_congr h.legacy
  | server id => rw [configured_server, configured_server, h.ids]

theorem singleton : singletonOwner t.config = singletonOwner s.config := by
  simp only [singletonOwner_ids, h.ids, ne_eq, h.legacy]

theorem keyFits (hentry : t.store.get? (integrationKey "proxmox") =
    s.store.get? (integrationKey "proxmox")) : KeyFits t ↔ KeyFits s := by
  rw [KeyFits, KeyFits, ← serverIds_eq_nil, ← serverIds_eq_nil,
    h.ids, hentry, ne_eq, ne_eq, h.legacy]

end SameShape

theorem World.Sound.reshaped (h : w.Sound) (hshape : SameShape w.settings t)
    (hhosts : t.config.hosts = w.settings.config.hosts) (hstore : t.store = w.settings.store) :
    { w with settings := t }.Sound :=
  h.settle (fun host hhost => hhosts ▸ hhost) (fun owner => (hshape.configured owner).mpr)
    (fun _ _ hsingle => hshape.singleton ▸ hsingle)
    (fun hbare => (hshape.keyFits (by rw [hstore])).mpr (h.key hbare))

end Shape

end Keepup.Proxmox
