import Keepup.Proxmox.Deletion
import Keepup.Proxmox.OwnershipRuns

/-!
What a save under an id does to the other servers. The card of a server posts its
id, and a card can outlive its server: the id is unknown then, and the save takes
the path of the time before there were ids.
-/

namespace Keepup.Proxmox

open Lib

section Frame

/-- There is a single server, of the old block or the first of the list, and it is
not the one with the id. -/
def SingleElse (config : Config) (serverId : String) : Prop :=
  singletonOwner config ≠ none ∧ singletonOwner config ≠ some (.server serverId)

/-- The entry of a server with the posted settings. A blank URL and a certificate
that was not confirmed leave what is there. -/
def postedEntry (form : SaveForm) (pem fp : String) (server : ProxmoxServer) : ProxmoxServer :=
  { server with
    url := if form.url = "" then server.url else some (Text.rstripChar '/' form.url)
    verifySsl := some (form.skipSslVerify != "1")
    pinnedCertPem := if pem = "" then server.pinnedCertPem else some pem
    pinnedFingerprint := if fp = "" then server.pinnedFingerprint else some fp }

@[simp] theorem postedEntry_id (form : SaveForm) (pem fp : String) (server : ProxmoxServer) :
    (postedEntry form pem fp server).id = server.id := by
  rw [postedEntry]

/-- The server with the posted id has the posted settings and credentials, and the
settings and credentials of every other server are what they were. -/
structure TouchesOnly (s : Settings) (form : SaveForm) (pem fp : String) (t : Settings) : Prop where
  own : form.serverId ≠ newServer → ∀ server, s.config.getProxmoxServer form.serverId =
    some server →
    t.config.getProxmoxServer form.serverId = some (postedEntry form pem fp server) ∧
      t.store.getD (integrationKey ("proxmox_" ++ form.serverId)) ∅ =
        (s.store.getD (integrationKey ("proxmox_" ++ form.serverId)) ∅).saveFields form.credKwargs
  servers : t.config.getProxmoxServers.filter
      (fun server => server.id ∈ serverIds s.config && server.id != form.serverId) =
    s.config.getProxmoxServers.filter fun server => server.id != form.serverId
  credentials : ∀ other ∈ serverIds s.config, other ≠ form.serverId →
    t.store.get? (integrationKey ("proxmox_" ++ other)) =
      s.store.get? (integrationKey ("proxmox_" ++ other))
  legacy : legacyBlock s.config ≠ none → t.config.proxmox = s.config.proxmox
  single : SingleElse s.config form.serverId → ∀ field,
    (t.store.getD (integrationKey "proxmox") ∅).get? field =
      (s.store.getD (integrationKey "proxmox") ∅).get? field

/-- The old block says what is posted. -/
structure BlockRestated (form : SaveForm) (pem fp : String) (block : Block) : Prop where
  url : block.url = some (Text.rstripChar '/' form.url)
  verifySsl : block.verifySsl = some (form.skipSslVerify != "1")
  pinnedCertPem : block.pinnedCertPem =
    stored (if pem ≠ "" then pem else block.pinnedCertPem.getD "")
  pinnedFingerprint : block.pinnedFingerprint =
    if block.pinnedCertPem = none then none
    else some (if fp ≠ "" then fp else block.pinnedFingerprint.getD "")

/-- The server says what is posted. -/
structure ServerRestated (form : SaveForm) (pem fp : String) (server : ProxmoxServer) : Prop where
  url : server.url = some (Text.rstripChar '/' form.url)
  verifySsl : server.verifySsl = some (form.skipSslVerify != "1")
  pinnedCertPem : pem ≠ "" → server.pinnedCertPem = some pem
  pinnedFingerprint : fp ≠ "" → server.pinnedFingerprint = some fp

/-- The credentials of the single server are those that are posted. -/
def SingleSettled (s : Settings) (form : SaveForm) : Prop :=
  (s.store.getD (integrationKey "proxmox") ∅).Settled form.credKwargs

/-- A blank card without a URL, and a card whose server is gone, say about the single
server only what is so already. -/
structure Harmless (s : Settings) (form : SaveForm) (pem fp : String) : Prop where
  blank : form.serverId = newServer → form.url = "" → SingleElse s.config form.serverId →
    SingleSettled s form
  stale : IsSingletonSave s form.serverId → ∀ legacy, legacyBlock s.config = some legacy →
    form.url ≠ "" ∧ BlockRestated form pem fp legacy ∧ SingleSettled s form
  staleFirst : IsSingletonSave s form.serverId → legacyBlock s.config = none →
    ∀ first ∈ s.config.getProxmoxServers.head?,
      form.url ≠ "" ∧ ServerRestated form pem fp first ∧ SingleSettled s form

end Frame

section Written

/-- After the settings come the credentials, under the id that the settings gave, and
the nodes, which are hosts. -/
structure Written (saved : Settings) (id : String) (fields : CredFields) (t : Settings) : Prop where
  servers : t.config.proxmoxServers = saved.config.proxmoxServers
  legacy : t.config.proxmox = saved.config.proxmox
  own : t.store.getD (integrationKey (credentialKey id)) ∅ =
    (saved.store.getD (integrationKey (credentialKey id)) ∅).saveFields fields
  other : ∀ key, key ≠ credentialKey id →
    t.store.get? (integrationKey key) = saved.store.get? (integrationKey key)

variable {env : Surroundings} {s saved t : Settings} {form : SaveForm} {pem fp id : String}
  {nodes : Option (List String)} {fields : CredFields}

theorem addNodes_config (env : Surroundings) (s : Settings) (wizard : Bool) (url server : String)
    (nodes : Option (List String)) :
    (addNodes env s wizard url server nodes).config.proxmoxServers = s.config.proxmoxServers ∧
      (addNodes env s wizard url server nodes).config.proxmox = s.config.proxmox := by
  unfold addNodes
  split
  · dsimp only
    split <;> exact ⟨rfl, rfl⟩
  · exact ⟨rfl, rfl⟩

theorem written_saveCredentials (saved : Settings) (id : String) (fields : CredFields) :
    Written saved id fields (saveCredentials saved id fields) := by
  rw [saveCredentials]
  split
  · rename_i hnone
    subst hnone
    exact ⟨rfl, rfl, rfl, fun _ _ => rfl⟩
  · exact ⟨rfl, rfl, saved_getD rfl, fun key hkey => saved_other rfl hkey⟩

theorem setupSaveProxmox_written (h : setupSaveProxmox env s form pem fp nodes = some (t, id)) :
    ∃ saved, persistProxmoxServer env s form.serverId form.url pem fp (form.skipSslVerify != "1") =
      some (saved, id) ∧ Written saved id form.credKwargs t := by
  obtain ⟨⟨saved, serverId⟩, hpersist, hpair⟩ := Option.map_eq_some_iff.mp h
  obtain ⟨hstate, rfl⟩ := Prod.mk.inj hpair
  refine ⟨saved, hpersist, ?_⟩
  have hcreds : Written saved serverId form.credKwargs
      (saveCredentials saved serverId form.credKwargs) :=
    written_saveCredentials saved serverId form.credKwargs
  rw [← hstate]
  split
  · obtain ⟨hservers, hlegacy⟩ := addNodes_config env
      (saveCredentials saved serverId form.credKwargs) true form.url serverId nodes
    refine ⟨hservers.trans hcreds.servers, hlegacy.trans hcreds.legacy, ?_, fun key hkey => ?_⟩
    · rw [addNodes_store]
      exact hcreds.own
    · rw [addNodes_store]
      exact hcreds.other key hkey
  · exact hcreds

/-- What a save under no id does to the credentials of the single server. -/
theorem single_iff (hwritten : Written saved "" form.credKwargs t)
    (hstore : saved.store = s.store) :
    (∀ field, (t.store.getD (integrationKey "proxmox") ∅).get? field =
      (s.store.getD (integrationKey "proxmox") ∅).get? field) ↔ SingleSettled s form := by
  have hown : t.store.getD (integrationKey "proxmox") ∅ =
      (s.store.getD (integrationKey "proxmox") ∅).saveFields form.credKwargs := by
    rw [← hstore]
    exact hwritten.own
  have hnodup : (form.credKwargs.map Prod.fst).Nodup :=
    (CredentialSave.proxmox form "" "" none).fields_nodup
  rw [SingleSettled, ← Entry.settled_iff hnodup, hown]
  exact forall_congr' fun _ => eq_comm

/-- A save under no id leaves the credentials of the listed servers. -/
theorem credentials_of_no_id (hwritten : Written saved "" fields t) (hstore : saved.store = s.store)
    (other : String) : t.store.get? (integrationKey ("proxmox_" ++ other)) =
      s.store.get? (integrationKey ("proxmox_" ++ other)) := by
  rw [hwritten.other _ (proxmox_ne other), hstore]

end Written

section Known

variable {s saved t : Settings} {form : SaveForm} {pem fp serverId : String}

theorem filter_changeFirst {change : ProxmoxServer → ProxmoxServer}
    (hchange : ∀ server, (change server).id = server.id) (servers : List ProxmoxServer) :
    (changeFirst serverId change servers).filter (fun server => server.id != serverId) =
      servers.filter fun server => server.id != serverId := by
  induction servers with
  | nil => rfl
  | cons server rest ih =>
      rw [changeFirst]
      split
      · rename_i hid
        simp [hchange, hid]
      · rw [List.filter_cons, List.filter_cons, ih]

/-- Among servers that were there the frame looks at all but the posted one. -/
theorem filter_known {servers : List ProxmoxServer}
    (hservers : ∀ server ∈ servers, server.id ∈ serverIds s.config) :
    servers.filter (fun server => server.id ∈ serverIds s.config && server.id != serverId) =
      servers.filter fun server => server.id != serverId := by
  apply List.filter_congr
  intro server hserver
  rw [decide_eq_true (hservers server hserver), Bool.true_and]

theorem updateEntry_posted (form : SaveForm) (pem fp : String) (server : ProxmoxServer) :
    updateEntry ((some form.url).filter (· != "")) (some (form.skipSslVerify != "1"))
      ((some pem).filter (· != "")) ((some fp).filter (· != "")) server =
        postedEntry form pem fp server := by
  by_cases hurl : form.url = "" <;> by_cases hpem : pem = "" <;> by_cases hfp : fp = "" <;>
    simp [updateEntry, postedEntry, Option.filter, hurl, hpem, hfp]

theorem updated_servers (url : Option String) (verifySsl : Option Bool)
    (pinnedCertPem pinnedFingerprint : Option String) :
    (updateProxmoxServer s serverId url verifySsl pinnedCertPem
        pinnedFingerprint).config.getProxmoxServers =
      changeFirst serverId (updateEntry url verifySsl pinnedCertPem pinnedFingerprint)
        s.config.getProxmoxServers := by
  rw [Config.getProxmoxServers, Config.getProxmoxServers, updateProxmoxServer]
  cases s.config.proxmoxServers <;> rfl

/-- A save under a known id changes the entry with the id. -/
theorem touchesOnly_known (hid : form.serverId ≠ "")
    (hwritten : Written saved form.serverId form.credKwargs t) (hstore : saved.store = s.store)
    (hlegacy : saved.config.proxmox = s.config.proxmox)
    (hservers : saved.config.getProxmoxServers =
      changeFirst form.serverId (postedEntry form pem fp) s.config.getProxmoxServers) :
    TouchesOnly s form pem fp t := by
  have hown := hwritten.own
  have hother := hwritten.other
  rw [credentialKey_of_ne hid, hstore] at hown hother
  have hchanged : t.config.getProxmoxServers =
      changeFirst form.serverId (postedEntry form pem fp) s.config.getProxmoxServers := by
    rw [Config.getProxmoxServers, hwritten.servers, ← Config.getProxmoxServers, hservers]
  have hids : ∀ server ∈ t.config.getProxmoxServers, server.id ∈ serverIds s.config := by
    intro server hserver
    rw [serverIds, ← changeFirst_ids form.serverId (postedEntry form pem fp)
      (postedEntry_id form pem fp),
      ← hchanged]
    exact List.mem_map_of_mem hserver
  refine ⟨fun _ server hserver => ⟨?_, hown⟩, ?_, fun other _ hne => ?_,
    fun _ => hwritten.legacy.trans hlegacy, fun _ field => ?_⟩
  · rw [Config.getProxmoxServer] at hserver ⊢
    rw [hchanged, find?_changeFirst (postedEntry_id form pem fp),
      hserver, Option.map_some, if_pos rfl]
  · rw [filter_known hids, hchanged, filter_changeFirst (postedEntry_id form pem fp)]
  · exact hother _ fun hsame => hne ((String.append_right_inj _).mp hsame)
  · rw [Dict.getD, hother _ (proxmox_ne _).symm, ← Dict.getD]

end Known

section NoId

variable {env : Surroundings} {s saved t : Settings} {form : SaveForm} {pem fp : String}

/-- A save that leaves its credentials under no id. -/
theorem touchesOnly_of_no_id_iff (hwritten : Written saved "" form.credKwargs t)
    (hstore : saved.store = s.store)
    (hown : form.serverId ≠ newServer → s.config.getProxmoxServer form.serverId = none) :
    TouchesOnly s form pem fp t ↔
      saved.config.getProxmoxServers.filter
          (fun server => server.id ∈ serverIds s.config && server.id != form.serverId) =
        s.config.getProxmoxServers.filter (fun server => server.id != form.serverId) ∧
      (legacyBlock s.config ≠ none → saved.config.proxmox = s.config.proxmox) ∧
      (SingleElse s.config form.serverId → SingleSettled s form) := by
  have hservers : t.config.getProxmoxServers = saved.config.getProxmoxServers := by
    rw [Config.getProxmoxServers, hwritten.servers, ← Config.getProxmoxServers]
  have hsingle := single_iff hwritten hstore
  constructor
  · intro h
    refine ⟨hservers ▸ h.servers, fun hlegacy => ?_, fun helse => hsingle.mp (h.single helse)⟩
    rw [← hwritten.legacy]
    exact h.legacy hlegacy
  · rintro ⟨hframe, hlegacy, hsettled⟩
    refine ⟨fun hnew server hserver => ?_, hservers.symm ▸ hframe, fun other _ _ => ?_,
      fun hblock => hwritten.legacy.trans (hlegacy hblock), fun helse =>
        hsingle.mpr (hsettled helse)⟩
    · rw [hown hnew] at hserver
      cases hserver
    · exact credentials_of_no_id hwritten hstore other

theorem frame_refl : s.config.getProxmoxServers.filter
      (fun server => server.id ∈ serverIds s.config && server.id != form.serverId) =
    s.config.getProxmoxServers.filter fun server => server.id != form.serverId :=
  filter_known fun _ hserver => List.mem_map_of_mem hserver

/-- A blank card without a URL. -/
theorem touchesOnly_blank_iff (hnew : form.serverId = newServer)
    (hwritten : Written s "" form.credKwargs t) : TouchesOnly s form pem fp t ↔
      (SingleElse s.config form.serverId → SingleSettled s form) := by
  rw [touchesOnly_of_no_id_iff hwritten rfl fun h => absurd hnew h]
  exact ⟨fun h => h.2.2, fun h => ⟨frame_refl, fun _ => rfl, h⟩⟩

section Stale

variable (hunknown : s.config.getProxmoxServer form.serverId = none)

include hunknown

theorem unknown_ne {server : ProxmoxServer} (hserver : server ∈ s.config.getProxmoxServers) :
    server.id ≠ form.serverId := by
  intro hid
  have hnone := List.find?_eq_none.mp hunknown server hserver
  simp [hid] at hnone

theorem singleElse_unknown :
    SingleElse s.config form.serverId ↔ singletonOwner s.config ≠ none := by
  constructor
  · exact fun h => h.1
  · refine fun h => ⟨h, fun howner => ?_⟩
    rw [singletonOwner] at howner
    split at howner
    · cases howner
    · obtain ⟨first, hfirst, hsame⟩ := Option.map_eq_some_iff.mp howner
      exact unknown_ne hunknown (List.mem_of_head? hfirst) (Owner.server.inj hsame)

theorem frame_unknown :
    s.config.getProxmoxServers.filter (fun server => server.id != form.serverId) =
    s.config.getProxmoxServers := by
  rw [List.filter_eq_self]
  intro server hserver
  simpa using unknown_ne hunknown hserver

/-- With an old block, a stale card writes that block. -/
theorem touchesOnly_legacy_iff {legacy : Block} (hlegacy : legacyBlock s.config = some legacy)
    {block : Option Block} (hwritten : Written
      { s with config := { s.config with proxmox := block } } "" form.credKwargs t) :
    TouchesOnly s form pem fp t ↔ block = some legacy ∧ SingleSettled s form := by
  have hproxmox : s.config.proxmox = some legacy := (Option.filter_eq_some_iff.mp hlegacy).1
  have howner : singletonOwner s.config ≠ none := by simp [singletonOwner, hlegacy]
  rw [touchesOnly_of_no_id_iff (s := s) hwritten rfl fun _ => hunknown, singleElse_unknown hunknown]
  constructor
  · rintro ⟨_, hblock, hsettled⟩
    refine ⟨?_, hsettled howner⟩
    rw [← hproxmox]
    exact hblock (by simp [hlegacy])
  · rintro ⟨rfl, hsettled⟩
    exact ⟨frame_refl, fun _ => hproxmox.symm, fun _ => hsettled⟩

/-- Without one it writes the first server. -/
theorem touchesOnly_first_iff {first : ProxmoxServer} {rest : List ProxmoxServer}
    (hlegacy : legacyBlock s.config = none) (hservers : s.config.getProxmoxServers = first :: rest)
    (hstore : saved.store = s.store)
    (hsaved : saved.config.getProxmoxServers = postedEntry form pem fp first :: rest)
    (hwritten : Written saved "" form.credKwargs t) :
    TouchesOnly s form pem fp t ↔ postedEntry form pem fp first = first ∧ SingleSettled s form := by
  have howner : singletonOwner s.config ≠ none := by simp [singletonOwner, hlegacy, hservers]
  have hids : ∀ server ∈ saved.config.getProxmoxServers, server.id ∈ serverIds s.config := by
    rw [hsaved, serverIds, hservers]
    intro server hserver
    rcases List.mem_cons.mp hserver with rfl | hrest
    · simp
    · exact List.mem_map_of_mem (List.mem_cons_of_mem _ hrest)
  have hall : ∀ server ∈ saved.config.getProxmoxServers, server.id ≠ form.serverId := by
    intro server hserver
    obtain ⟨old, hold, hid⟩ := List.mem_map.mp (hids server hserver)
    exact hid ▸ unknown_ne hunknown hold
  have hfilter : saved.config.getProxmoxServers.filter (fun server => server.id != form.serverId) =
      saved.config.getProxmoxServers := by
    rw [List.filter_eq_self]
    intro server hserver
    simpa using hall server hserver
  rw [touchesOnly_of_no_id_iff hwritten hstore fun _ => hunknown, singleElse_unknown hunknown,
    filter_known hids, hfilter, frame_unknown hunknown, hsaved, hservers, List.cons.injEq]
  constructor
  · exact fun h => ⟨h.1.1, h.2.2 howner⟩
  · exact fun h => ⟨⟨h.1, rfl⟩, fun hblock => absurd hlegacy hblock, fun _ => h.2⟩

/-- Without a server there is none to touch. -/
theorem touchesOnly_none (hlegacy : legacyBlock s.config = none)
    (hservers : s.config.getProxmoxServers = []) (hwritten : Written saved "" form.credKwargs t)
    (hstore : saved.store = s.store) : TouchesOnly s form pem fp t := by
  rw [touchesOnly_of_no_id_iff hwritten hstore fun _ => hunknown]
  refine ⟨?_, fun hblock => absurd hlegacy hblock, fun helse => ?_⟩
  · simp [serverIds, hservers]
  · exact absurd (by simp [singletonOwner, hlegacy, hservers]) helse.1

end Stale

end NoId

section Cards

variable {env : Surroundings} {s saved t : Settings} {form : SaveForm} {pem fp id : String}
  {nodes : Option (List String)}

/-- A blank card with a URL is a new server. -/
theorem touchesOnly_added {entry : ProxmoxServer} (hnew : form.serverId = newServer)
    (hid : id ≠ "") (hfree : id ∉ serverIds s.config) (hentry : entry.id = id)
    (hstore : saved.store = s.store) (hlegacy : saved.config.proxmox = s.config.proxmox)
    (hservers : saved.config.getProxmoxServers = s.config.getProxmoxServers ++ [entry])
    (hwritten : Written saved id form.credKwargs t) : TouchesOnly s form pem fp t := by
  have hother := hwritten.other
  rw [credentialKey_of_ne hid, hstore] at hother
  refine ⟨fun hne => absurd hnew hne, ?_, fun other hknown _ => hother _ fun hsame => hfree ?_,
    fun _ => hwritten.legacy.trans hlegacy, fun _ field => ?_⟩
  · rw [Config.getProxmoxServers, hwritten.servers, ← Config.getProxmoxServers, hservers,
      List.filter_append, frame_refl]
    simp [hentry, hfree]
  · rwa [← (String.append_right_inj _).mp hsame]
  · rw [Dict.getD, hother _ (proxmox_ne _).symm, ← Dict.getD]

theorem postedEntry_eq_self_iff {server : ProxmoxServer} (hurl : form.url ≠ "") :
    postedEntry form pem fp server = server ↔ ServerRestated form pem fp server := by
  obtain ⟨⟨url, verifySsl, cert, fingerprint⟩, id⟩ := server
  rw [postedEntry, if_neg hurl]
  constructor
  · intro h
    injection h with hblock
    injection hblock with hurl hverify hcert hprint
    refine ⟨hurl.symm, hverify.symm, fun hpem => ?_, fun hfp => ?_⟩
    · rw [if_neg hpem] at hcert
      exact hcert.symm
    · rw [if_neg hfp] at hprint
      exact hprint.symm
  · rintro ⟨hurl, hverify, hcert, hprint⟩
    congr 2
    · exact hurl.symm
    · exact hverify.symm
    · split
      · rfl
      · rename_i hpem
        exact (hcert hpem).symm
    · split
      · rfl
      · rename_i hfp
        exact (hprint hfp).symm

/-- The entry that a save with a URL makes of the old block. -/
def blockEntry (form : SaveForm) (pem fp : String) (existing : Block) : Block :=
  let pem := if pem ≠ "" then pem else existing.pinnedCertPem.getD ""
  let fp := if fp ≠ "" then fp else existing.pinnedFingerprint.getD ""
  { url := some (Text.rstripChar '/' form.url)
    verifySsl := some (form.skipSslVerify != "1")
    pinnedCertPem := if pem ≠ "" then some pem else none
    pinnedFingerprint := if pem ≠ "" then some fp else none }

theorem blockEntry_eq_self_iff {block : Block} :
    blockEntry form pem fp block = block ↔ BlockRestated form pem fp block := by
  simp only [blockEntry]
  generalize hpem : (if pem ≠ "" then pem else block.pinnedCertPem.getD "") = cert
  generalize hfp : (if fp ≠ "" then fp else block.pinnedFingerprint.getD "") = print
  have hstored : stored cert = if cert ≠ "" then some cert else none := by rw [stored, ite_not]
  -- the fingerprint stands with a certificate
  have hprint : (if cert ≠ "" then some print else none) =
      if stored cert = none then none else some print := by
    by_cases hcert : cert = "" <;> simp [stored, hcert]
  rw [hprint, ← hstored]
  constructor
  · intro h
    refine ⟨(congrArg Block.url h).symm, (congrArg Block.verifySsl h).symm, ?_, ?_⟩
    · rw [hpem]
      exact (congrArg Block.pinnedCertPem h).symm
    · rw [hfp, ← congrArg Block.pinnedCertPem h]
      exact (congrArg Block.pinnedFingerprint h).symm
  · rintro ⟨hurl, hverify, hcert, hfingerprint⟩
    rw [hpem] at hcert
    rw [hfp, hcert] at hfingerprint
    rw [← hurl, ← hverify, ← hfingerprint, ← hcert]

theorem persist_stale (env : Surroundings) (pem fp : String) (hid : form.serverId ≠ "")
    (hstale : IsSingletonSave s form.serverId) :
    persistProxmoxServer env s form.serverId form.url pem fp (form.skipSslVerify != "1") =
      (saveProxmoxConfig env s form.url pem fp (form.skipSslVerify != "1")).map
        fun t => (t, "") := by
  rw [persistProxmoxServer, if_neg hstale.1, if_neg]
  exact fun h => h.2 (hstale.2.resolve_left hid)

theorem saveProxmoxConfig_legacy {legacy : Block} (hlegacy : legacyBlock s.config = some legacy) :
    saveProxmoxConfig env s form.url pem fp (form.skipSslVerify != "1") =
      some { s with config := { s.config with
        proxmox := if form.url ≠ "" then some (blockEntry form pem fp legacy) else none } } := by
  have hproxmox : s.config.proxmox = some legacy := (Option.filter_eq_some_iff.mp hlegacy).1
  rw [saveProxmoxConfig, if_neg (by simp [hlegacy]), hproxmox]
  split <;> rfl

/-- What holds of all that a save can leave holds of the save. -/
theorem save_iff {P : Prop} {saved : Settings}
    (hpersist : persistProxmoxServer env s form.serverId form.url pem fp
      (form.skipSslVerify != "1") =
      some (saved, id))
    (hspec : ∀ t, Written saved id form.credKwargs t → (TouchesOnly s form pem fp t ↔ P)) :
    (∀ t id, setupSaveProxmox env s form pem fp nodes = some (t, id) →
      TouchesOnly s form pem fp t) ↔
      P := by
  constructor
  · intro h
    obtain ⟨t, hrun⟩ : ∃ t, setupSaveProxmox env s form pem fp nodes = some (t, id) := by
      rw [setupSaveProxmox, hpersist, Option.map_some]
      exact ⟨_, rfl⟩
    obtain ⟨u, hsame, hwritten⟩ := setupSaveProxmox_written hrun
    obtain ⟨rfl, -⟩ := Prod.mk.inj (Option.some.inj (hpersist.symm.trans hsame))
    exact (hspec t hwritten).mp (h t id hrun)
  · intro hP t other hrun
    obtain ⟨u, hsame, hwritten⟩ := setupSaveProxmox_written hrun
    obtain ⟨rfl, rfl⟩ := Prod.mk.inj (Option.some.inj (hpersist.symm.trans hsame))
    exact (hspec t hwritten).mpr hP

/-- Nor is there anything to show where the save raises. -/
theorem save_raises (hpersist : persistProxmoxServer env s form.serverId form.url pem fp
      (form.skipSslVerify != "1") = none) :
    ∀ t id, setupSaveProxmox env s form pem fp nodes = some (t, id) →
      TouchesOnly s form pem fp t := by
  intro t id hrun
  obtain ⟨u, hsome, -⟩ := setupSaveProxmox_written hrun
  cases hpersist.symm.trans hsome

theorem save_blank_iff (hnew : form.serverId = newServer) :
    (∀ t id, setupSaveProxmox env s form pem fp nodes = some (t, id) →
      TouchesOnly s form pem fp t) ↔
      (form.url = "" → SingleElse s.config form.serverId → SingleSettled s form) := by
  by_cases hurl : form.url = ""
  · have hpersist : persistProxmoxServer env s form.serverId form.url pem fp
        (form.skipSslVerify != "1") = some (s, "") := by
      rw [persistProxmoxServer, if_pos hnew, if_pos hurl]
    rw [save_iff hpersist fun t hwritten => touchesOnly_blank_iff hnew hwritten]
    exact ⟨fun h _ => h, fun h => h hurl⟩
  · refine iff_of_true ?_ fun hempty => absurd hempty hurl
    have hpersist : persistProxmoxServer env s form.serverId form.url pem fp
        (form.skipSslVerify != "1") =
          addProxmoxServer env s form.url (form.skipSslVerify != "1") pem fp := by
      rw [persistProxmoxServer, if_pos hnew, if_neg hurl]
    cases hadd : addProxmoxServer env s form.url (form.skipSslVerify != "1") pem fp with
    | none => exact save_raises (hpersist.trans hadd)
    | some added =>
        obtain ⟨saved, id⟩ := added
        obtain ⟨base, entry, hbase, _, hid, hsaved⟩ := addProxmoxServer_some hadd
        have hne : id ≠ "" := hid ▸ uniqueServerId_ne_empty (slugifyServerId_ne_empty hbase) _
        have hfree : id ∉ serverIds s.config := hid ▸ uniqueServerId_not_mem base _
        intro t other hrun
        obtain ⟨u, hsame, hwritten⟩ := setupSaveProxmox_written hrun
        obtain ⟨rfl, rfl⟩ := Prod.mk.inj (Option.some.inj ((hpersist.trans hadd).symm.trans hsame))
        have hentry : ({ entry with id := id } : ProxmoxServer).id = id := rfl
        refine touchesOnly_added hnew hne hfree hentry ?_ ?_ ?_ hwritten
        · rw [hsaved]
        · rw [hsaved]
        · rw [hsaved]
          rfl

theorem save_known (hid : form.serverId ≠ "") (hnew : form.serverId ≠ newServer)
    (hknown : s.config.getProxmoxServer form.serverId ≠ none) :
    ∀ t id, setupSaveProxmox env s form pem fp nodes = some (t, id) →
      TouchesOnly s form pem fp t := by
  have hpersist : persistProxmoxServer env s form.serverId form.url pem fp
      (form.skipSslVerify != "1") = some (updateProxmoxServer s form.serverId
        ((some form.url).filter (· != "")) (some (form.skipSslVerify != "1"))
        ((some pem).filter (· != "")) ((some fp).filter (· != "")), form.serverId) := by
    rw [persistProxmoxServer, if_neg hnew, if_pos ⟨hid, hknown⟩]
  intro t other hrun
  obtain ⟨u, hsame, hwritten⟩ := setupSaveProxmox_written hrun
  obtain ⟨hsaved, rfl⟩ := Prod.mk.inj (Option.some.inj (hpersist.symm.trans hsame))
  refine touchesOnly_known hid hwritten ?_ ?_ ?_
  · rw [← hsaved, updateProxmoxServer]
  · rw [← hsaved, updateProxmoxServer]
  · rw [← hsaved, updated_servers, funext (updateEntry_posted form pem fp)]

section Stale

variable (hid : form.serverId ≠ "") (hstale : IsSingletonSave s form.serverId)

include hid hstale

theorem save_stale_legacy_iff {legacy : Block} (hlegacy : legacyBlock s.config = some legacy) :
    (∀ t id, setupSaveProxmox env s form pem fp nodes = some (t, id) →
      TouchesOnly s form pem fp t) ↔
      form.url ≠ "" ∧ BlockRestated form pem fp legacy ∧ SingleSettled s form := by
  have hunknown := hstale.2.resolve_left hid
  have hpersist := persist_stale env pem fp hid hstale
  rw [saveProxmoxConfig_legacy hlegacy, Option.map_some] at hpersist
  rw [save_iff hpersist fun t hwritten => touchesOnly_legacy_iff hunknown hlegacy hwritten]
  by_cases hurl : form.url = ""
  · simp [hurl]
  · rw [if_pos hurl, Option.some_inj, blockEntry_eq_self_iff]
    exact ⟨fun h => ⟨hurl, h⟩, fun h => h.2⟩

theorem save_stale_first_iff {first : ProxmoxServer} {rest : List ProxmoxServer}
    (hlegacy : legacyBlock s.config = none)
    (hservers : s.config.getProxmoxServers = first :: rest) :
    (∀ t id, setupSaveProxmox env s form pem fp nodes = some (t, id) →
      TouchesOnly s form pem fp t) ↔
      form.url ≠ "" ∧ ServerRestated form pem fp first ∧ SingleSettled s form := by
  have hunknown := hstale.2.resolve_left hid
  have hlisted : s.config.proxmoxServers.isSome := by
    cases hnone : s.config.proxmoxServers with
    | none => simp [Config.getProxmoxServers, hnone] at hservers
    | some servers => rfl
  have hpersist := persist_stale env pem fp hid hstale
  rw [saveProxmoxConfig, if_pos ⟨hlisted, hlegacy⟩, saveFirstServer, hservers] at hpersist
  by_cases hurl : form.url = ""
  · -- the first server is gone, whoever it is
    rw [decide_eq_true hurl] at hpersist
    have hmem : first ∈ s.config.getProxmoxServers := by rw [hservers]; exact List.mem_cons_self
    have hknown : first.id ∈ serverIds s.config := List.mem_map_of_mem hmem
    refine iff_of_false (fun h => ?_) fun h => h.1 hurl
    obtain ⟨t, hrun⟩ : ∃ t, setupSaveProxmox env s form pem fp nodes = some (t, "") := by
      rw [setupSaveProxmox, hpersist]
      exact ⟨_, rfl⟩
    obtain ⟨saved, hsame, hwritten⟩ := setupSaveProxmox_written hrun
    obtain ⟨hsaved, -⟩ := Prod.mk.inj (Option.some.inj (hpersist.symm.trans hsame))
    have hframe := (h t "" hrun).servers
    rw [frame_unknown hunknown, Config.getProxmoxServers, hwritten.servers, ← hsaved,
      ← Config.getProxmoxServers] at hframe
    rw [← hframe, List.mem_filter, deleteProxmoxServer_eq hknown] at hmem
    simpa [Config.getProxmoxServers] using hmem.1
  · rw [decide_eq_false hurl] at hpersist
    have hposted : updateEntry (some form.url) (some (form.skipSslVerify != "1"))
        ((some pem).filter (· != "")) ((some fp).filter (· != "")) first =
          postedEntry form pem fp first := by
      have hgiven : (some form.url).filter (· != "") = some form.url := by
        rw [Option.filter_some, if_pos]
        simpa using hurl
      rw [← updateEntry_posted, hgiven]
    rw [Option.map_some] at hpersist
    generalize hsaved : updateProxmoxServer s first.id (some form.url)
      (some (form.skipSslVerify != "1")) ((some pem).filter (· != ""))
        ((some fp).filter (· != "")) =
        saved at hpersist
    have hstore : saved.store = s.store := by rw [← hsaved, updateProxmoxServer]
    have hfirst : saved.config.getProxmoxServers = postedEntry form pem fp first :: rest := by
      rw [← hsaved, updated_servers, hservers, changeFirst, if_pos rfl, hposted]
    rw [save_iff hpersist fun t hwritten =>
      touchesOnly_first_iff hunknown hlegacy hservers hstore hfirst hwritten,
      postedEntry_eq_self_iff hurl]
    exact ⟨fun h => ⟨hurl, h⟩, fun h => h.2⟩

theorem save_stale_none (hlegacy : legacyBlock s.config = none)
    (hservers : s.config.getProxmoxServers = []) :
    ∀ t id, setupSaveProxmox env s form pem fp nodes = some (t, id) →
      TouchesOnly s form pem fp t := by
  intro t id hrun
  obtain ⟨saved, hpersist, hwritten⟩ := setupSaveProxmox_written hrun
  have hunknown := hstale.2.resolve_left hid
  cases persistProxmoxServer_persisted hpersist with
  | ignored hnew => exact absurd hnew hstale.1
  | added _ _ hnew => exact absurd hnew hstale.1
  | updated _ _ _ _ hknown => exact absurd hunknown hknown
  | legacyWritten | legacyRemoved | firstAdded | emptyList =>
      exact touchesOnly_none hunknown hlegacy hservers hwritten rfl
  | firstUpdated _ _ _ _ _ _ _ hlisted | firstDeleted _ _ _ _ _ hlisted =>
      simp [Config.getProxmoxServers, hlisted] at hservers

end Stale

end Cards

/-- A save under an id touches only the server with that id exactly if a card whose
server is gone repeats what the single server has. -/
theorem save_touches_only_iff (env : Surroundings) (s : Settings) (form : SaveForm)
    (pem fp : String) (nodes : Option (List String)) (hid : form.serverId ≠ "") :
    (∀ t id, setupSaveProxmox env s form pem fp nodes = some (t, id) →
      TouchesOnly s form pem fp t) ↔
      Harmless s form pem fp := by
  by_cases hnew : form.serverId = newServer
  · rw [save_blank_iff hnew]
    exact ⟨fun h => ⟨fun _ => h, fun hstale => absurd hnew hstale.1,
      fun hstale => absurd hnew hstale.1⟩,
      fun h => h.blank hnew⟩
  by_cases hknown : s.config.getProxmoxServer form.serverId = none
  · have hstale : IsSingletonSave s form.serverId := ⟨hnew, .inr hknown⟩
    cases hlegacy : legacyBlock s.config with
    | some legacy =>
        rw [save_stale_legacy_iff hid hstale hlegacy]
        refine ⟨fun h => ⟨fun hsame => absurd hsame hnew, fun _ block hblock =>
          ?_, fun _ hnone => ?_⟩,
          fun h => h.stale hstale legacy hlegacy⟩
        · rw [hlegacy] at hblock
          exact Option.some.inj hblock ▸ h
        · cases hlegacy.symm.trans hnone
    | none =>
        have hstaleBlock : ∀ legacy, legacyBlock s.config = some legacy →
            form.url ≠ "" ∧ BlockRestated form pem fp legacy ∧ SingleSettled s form :=
          fun legacy hblock => by cases hlegacy.symm.trans hblock
        cases hservers : s.config.getProxmoxServers with
        | nil =>
            refine iff_of_true (save_stale_none hid hstale hlegacy hservers)
              ⟨fun hsame => absurd hsame hnew, fun _ => hstaleBlock, fun _ _ => ?_⟩
            simp [hservers]
        | cons first rest =>
            rw [save_stale_first_iff hid hstale hlegacy hservers]
            refine ⟨fun h => ⟨fun hsame => absurd hsame hnew, fun _ => hstaleBlock, fun _ _ => ?_⟩,
              fun h => h.staleFirst hstale hlegacy first (by simp [hservers])⟩
            simpa [hservers] using h
  · refine iff_of_true (save_known hid hnew hknown) ⟨fun hsame => absurd hsame hnew, ?_, ?_⟩
    · exact fun hstale => absurd (hstale.2.resolve_left hid) hknown
    · exact fun hstale => absurd (hstale.2.resolve_left hid) hknown

/-- Two servers, and the card of a third that another tab has removed. -/
def pairSettings : Settings where
  config := { proxmoxServers := some [{ id := "pve", url := some "https://pve:8006" },
    { id := "backup-pve", url := some "https://backup-pve:8006" }] }
  store := ∅

def staleCard : SaveForm := { proxmoxUrl := "https://old:8006", serverId := "old" }

theorem card_of_known_server :
    (∀ t id, setupSaveProxmox plainSurroundings pairSettings { staleCard
      with serverId := "pve" } "" "" none =
        some (t, id) → TouchesOnly pairSettings { staleCard with serverId := "pve" } "" "" t) ↔
      Harmless pairSettings { staleCard with serverId := "pve" } "" "" :=
  save_touches_only_iff _ _ _ _ _ _ (by decide)

/-- The stale card gives the first server its URL. -/
theorem stale_card_overwrites_first :
    (setupSaveProxmox plainSurroundings pairSettings staleCard "" "" none).map
        (fun saved => saved.1.config.getProxmoxServers.map fun server => server.url) =
      some [some "https://old:8006", some "https://backup-pve:8006"] ∧
    ¬ ∀ t id, setupSaveProxmox plainSurroundings pairSettings staleCard "" "" none = some (t, id) →
      TouchesOnly pairSettings staleCard "" "" t := by
  refine ⟨by decide +kernel, fun h => ?_⟩
  have hservers : pairSettings.config.getProxmoxServers =
      { id := "pve", url := some "https://pve:8006" } ::
        [{ id := "backup-pve", url := some "https://backup-pve:8006" }] := rfl
  have hrestated :=
    ((save_stale_first_iff (by decide) ⟨by decide, .inr (by decide)⟩ rfl hservers).mp h).2.1
  exact absurd hrestated.url (by decide +kernel)

end Keepup.Proxmox
