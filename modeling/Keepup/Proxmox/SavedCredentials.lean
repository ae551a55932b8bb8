import Keepup.Credentials.Entry
import Keepup.Proxmox.Saves

/-!
Where the credentials of a Proxmox server are saved and where they are read.
The key of a save follows from the posted id, the key of a read from the stamp
of the host, the shape of the configuration and what the store holds; the two
have to be the same for a save to have its effect.
-/

namespace Keepup

open Lib

namespace Entry

variable {entry : Entry} {fields : List (String × Option Scalar)}

/-- Every posted field has its value already. -/
def Settled (entry : Entry) (fields : List (String × Option Scalar)) : Prop :=
  ∀ field value, (field, some value) ∈ fields → entry.get? field = value.kept

/-- Every field of the entry is posted. -/
def Covered (entry : Entry) (fields : List (String × Option Scalar)) : Prop :=
  ∀ field, entry.get? field ≠ none → ∃ value, (field, some value) ∈ fields

theorem settled_iff (hnodup : (fields.map Prod.fst).Nodup) :
    (∀ key, entry.get? key = (entry.saveFields fields).get? key) ↔ entry.Settled fields := by
  constructor
  · intro hsame field value hposted
    rw [hsame, get?_saveFields_kept hnodup hposted]
  · intro hsettled key
    by_cases hposted : ∃ value, (key, some value) ∈ fields
    · obtain ⟨value, hvalue⟩ := hposted
      rw [hsettled key value hvalue, get?_saveFields_kept hnodup hvalue]
    · rw [get?_saveFields_of_not_posted (not_exists.mp hposted)]

/-- Saving over nothing is saving over an entry just when that is covered. -/
theorem covered_iff :
    (∀ key, (saveFields ∅ fields).get? key = (entry.saveFields fields).get? key) ↔
      entry.Covered fields := by
  constructor
  · intro hsame field hfield
    by_contra hposted
    rw [not_exists] at hposted
    have hkey := hsame field
    rw [get?_saveFields_of_not_posted hposted, get?_saveFields_of_not_posted hposted,
      Dict.get?_empty] at hkey
    exact hfield hkey.symm
  · intro hcovered key
    by_cases hposted : ∃ value, (key, some value) ∈ fields
    · obtain ⟨value, hvalue⟩ := hposted
      exact get?_saveFields_of_posted hvalue
    · rw [get?_saveFields_of_not_posted (not_exists.mp hposted),
        get?_saveFields_of_not_posted (not_exists.mp hposted), Dict.get?_empty]
      exact (by_contra fun hne => hposted (hcovered key fun h => hne h.symm))

end Entry

namespace Proxmox

/-- Whose settings a host uses: the old block's, or those of a configured server. -/
inductive Owner where
  | legacy
  | server (id : String)
deriving DecidableEq

/-- The owner of the hosts without a stamp. -/
def singletonOwner (config : Config) : Option Owner :=
  if legacyBlock config ≠ none then some .legacy
  else config.getProxmoxServers.head?.map fun server => .server server.id

/-- The owner of a host, none when the server of its stamp is not configured. -/
def ownerOf (config : Config) (host : HostEntry) : Option Owner :=
  let serverId := Text.orElse host.proxmoxServer ""
  if serverId ≠ "" then (config.getProxmoxServer serverId).map fun _ => .server serverId
  else singletonOwner config

/-- The two forms that save credentials. -/
inductive CredentialSave where
  | proxmox (form : SaveForm) (pinnedCertPem pinnedFingerprint : String)
    (nodes : Option (List String))
  | lxcs (form : LxcForm)

namespace CredentialSave

def fields : CredentialSave → CredFields
  | .proxmox form _ _ _ => form.credKwargs
  | .lxcs form => form.credKwargs

/-- What the save makes of the disk, and the id its credentials are under. -/
def run (env : Surroundings) (s : Settings) : CredentialSave → Option (Settings × String)
  | .proxmox form pem fp nodes => setupSaveProxmox env s form pem fp nodes
  | .lxcs form => some (setupProxmoxSaveLxcs s form, form.serverId)

/-- A save of the single server without a URL removes that server. -/
def Removes (s : Settings) : CredentialSave → Prop
  | .proxmox form _ _ _ => form.url = "" ∧ IsSingletonSave s form.serverId
  | .lxcs _ => False

/-- The id that the posted id and the URL stand for: that of a new server for the
blank card, and none for the single server. -/
def targetId (env : Surroundings) (config : Config) : CredentialSave → String
  | .proxmox form _ _ _ =>
      if form.serverId = newServer then
        if form.url = "" then ""
        else uniqueServerId ((slugifyServerId env form.url).getD "")
          (config.getProxmoxServers.map ProxmoxServer.id)
      else if config.getProxmoxServer form.serverId ≠ none then form.serverId
      else ""
  | .lxcs form => form.serverId

end CredentialSave

/-- The host belongs to the server that the save is about: the one with the id
the credentials are under, and without an id the single server. -/
def Addressed (config : Config) (id : String) (host : HostEntry) : Prop :=
  ownerOf config host ≠ none ∧
    ownerOf config host = if id ≠ "" then some (.server id) else singletonOwner config

/-- The host gets the credentials it had, updated by the posted fields, and a
client made of them. -/
def TakesEffect (s t : Settings) (fields : CredFields) (host : HostEntry) : Prop :=
  let updated := (serverContext s.config s.store host).2.saveFields fields
  (∀ field, (serverContext t.config t.store host).2.get? field = updated.get? field) ∧
    clientFromConfig t.config t.store host = clientOf (Text.orElse host.proxmoxServer "")
      ((serverContext t.config t.store host).1, updated)

/-- The key of the save and the key from which the host reads are the same, or
the difference does not show. -/
def KeysAgree (s : Settings) (id : String) (fields : CredFields) (host : HostEntry) : Prop :=
  let stamped := Text.orElse host.proxmoxServer ""
  let single := s.store.get? (integrationKey "proxmox")
  if stamped ≠ "" then
    stamped = id ∨ (s.store.getD (integrationKey ("proxmox_" ++ stamped)) ∅).Settled fields
  else if id = "" then
    single ≠ none ∨ (s.store.getIntegrationCredentials s.config "proxmox").Covered fields
  else if single ≠ none then (single.getD ∅).Settled fields
  else s.config.getProxmoxServers ≠ [] ∨
    (s.store.getD (integrationKey ("proxmox_" ++ id)) ∅).Covered fields

section Spec

variable {env : Surroundings} {s t : Settings} {id : String} {host : HostEntry}

@[simp] theorem addNodes_store (wizard : Bool) (url server : String)
    (nodes : Option (List String)) :
    (addNodes env s wizard url server nodes).store = s.store := by
  unfold addNodes
  split
  · dsimp only
    split <;> rfl
  · rfl

@[simp] theorem addNodes_servers (wizard : Bool) (url server : String)
    (nodes : Option (List String)) :
    (addNodes env s wizard url server nodes).config.getProxmoxServers =
      s.config.getProxmoxServers := by
  unfold addNodes
  split
  · dsimp only
    split <;> rfl
  · rfl

@[simp] theorem saveCredentials_config (fields : CredFields) :
    (saveCredentials s id fields).config = s.config := by
  rw [saveCredentials]
  split <;> rfl

theorem saveCredentials_store {fields : CredFields} (hposted : fields ≠ []) :
    (saveCredentials s id fields).store =
      s.store.saveIntegrationCredentials (credentialKey id) fields := by
  rw [saveCredentials, if_neg hposted]

theorem changeFirst_head (serverId : String) {change : ProxmoxServer → ProxmoxServer}
    (hchange : ∀ server, (change server).id = server.id) (servers : List ProxmoxServer) :
    (changeFirst serverId change servers).head?.map ProxmoxServer.id =
      servers.head?.map ProxmoxServer.id := by
  cases servers with
  | nil => rfl
  | cons server rest =>
      rw [changeFirst]
      split
      · simp [hchange]
      · rfl

/-- What the two forms have in common: credentials saved under the id that was
meant, and a first server that stays the first. -/
structure CredentialSave.Spec (env : Surroundings) (s t : Settings) (save : CredentialSave)
    (id : String) : Prop where
  target : save.targetId env s.config = id
  store : t.store = s.store.saveIntegrationCredentials (credentialKey id) save.fields
  first : s.config.getProxmoxServers ≠ [] →
    t.config.getProxmoxServers.head?.map ProxmoxServer.id =
      s.config.getProxmoxServers.head?.map ProxmoxServer.id

/-- The servers of a save that removes none. -/
theorem persisted_spec {serverId url : String} (h : Persisted env s serverId url t id)
    (hkeeps : ¬ (url = "" ∧ IsSingletonSave s serverId)) : t.store = s.store ∧
      (s.config.getProxmoxServers ≠ [] → t.config.getProxmoxServers.head?.map ProxmoxServer.id =
        s.config.getProxmoxServers.head?.map ProxmoxServer.id) ∧
      id = if serverId = newServer then
          if url = "" then ""
          else uniqueServerId ((slugifyServerId env url).getD "")
            (s.config.getProxmoxServers.map ProxmoxServer.id)
        else if s.config.getProxmoxServer serverId ≠ none then serverId else "" := by
  have hsingleId : IsSingletonSave s serverId → "" =
      if serverId = newServer then
        if url = "" then ""
        else uniqueServerId ((slugifyServerId env url).getD "")
          (s.config.getProxmoxServers.map ProxmoxServer.id)
      else if s.config.getProxmoxServer serverId ≠ none then serverId else "" := by
    rintro ⟨hnew, hempty | hunknown⟩
    · simp [hempty, newServer]
    · simp [hnew, hunknown]
  cases h with
  | ignored hnew hurl => exact ⟨rfl, fun _ => rfl, by simp [hnew, hurl]⟩
  | added base entry hnew hurl hbase =>
      refine ⟨rfl, fun hne => ?_, by simp [hnew, hurl, hbase]⟩
      obtain ⟨first, rest, hservers⟩ := List.exists_cons_of_ne_nil hne
      simp [Config.getProxmoxServers] at hservers ⊢
      simp [hservers]
  | updated change hchange hnew hid hknown =>
      refine ⟨rfl, fun _ => ?_, by simp [hnew, hknown]⟩
      simp only [Config.getProxmoxServers]
      cases s.config.proxmoxServers with
      | none => rfl
      | some servers => exact changeFirst_head _ hchange servers
  | legacyWritten entry hsingle hurl hentry hshape =>
      exact ⟨rfl, fun _ => rfl, hsingleId hsingle⟩
  | legacyRemoved hsingle hurl hshape => exact absurd ⟨hurl, hsingle⟩ hkeeps
  | firstAdded base entry hsingle hurl hlegacy hservers hbase =>
      refine ⟨rfl, fun hne => absurd ?_ hne, hsingleId hsingle⟩
      exact getProxmoxServers_of hservers
  | firstUpdated first rest change hchange hsingle hurl hlegacy hservers =>
      refine ⟨rfl, fun _ => ?_, hsingleId hsingle⟩
      simp [Config.getProxmoxServers, hservers, hchange]
  | firstDeleted first rest hsingle hurl hlegacy hservers => exact absurd ⟨hurl, hsingle⟩ hkeeps
  | emptyList hsingle hurl hlegacy hservers => exact absurd ⟨hurl, hsingle⟩ hkeeps

theorem CredentialSave.run_spec {save : CredentialSave} (hrun : save.run env s = some (t, id))
    (hposted : save.fields ≠ []) (hkeeps : ¬ save.Removes s) : save.Spec env s t id := by
  cases save with
  | proxmox form pem fp nodes =>
      obtain ⟨⟨saved, serverId⟩, hpersist, hpair⟩ := Option.map_eq_some_iff.mp hrun
      obtain ⟨hstate, rfl⟩ := Prod.mk.inj hpair
      obtain ⟨hstore, hfirst, hid⟩ :=
        persisted_spec (persistProxmoxServer_persisted hpersist) hkeeps
      have hservers : t.config.getProxmoxServers = saved.config.getProxmoxServers := by
        rw [← hstate]
        split <;> simp
      have hform : form.credKwargs ≠ [] := hposted
      refine ⟨hid.symm, ?_, fun hne => hservers ▸ hfirst hne⟩
      rw [← hstate]
      split
      · rw [addNodes_store, saveCredentials_store hform, hstore]
        rfl
      · rw [saveCredentials_store hform, hstore]
        rfl
  | lxcs form =>
      obtain ⟨rfl, rfl⟩ := Prod.mk.inj (Option.some.inj hrun)
      refine ⟨rfl, saveCredentials_store hposted, fun _ => ?_⟩
      simp [setupProxmoxSaveLxcs, addHosts, Config.getProxmoxServers]

end Spec

section Effect

variable {env : Surroundings} {s t : Settings} {id : String} {host : HostEntry}
  {fields : CredFields}

theorem clientOf_congr (serverId : String) (block : Block) {creds creds' : Entry}
    (h : ∀ field, creds.get? field = creds'.get? field) :
    clientOf serverId (block, creds) = clientOf serverId (block, creds') := by
  have hfield : ∀ field default, creds.getD field default = creds'.getD field default := by
    intro field default
    rw [Dict.getD, h, ← Dict.getD]
  have htoken : assembleToken creds = assembleToken creds' := by
    unfold assembleToken
    dsimp only
    rw [hfield "token_id", hfield "api_user", hfield "api_token", hfield "secret"]
  unfold clientOf
  dsimp only
  rw [htoken]

/-- The client follows from the credentials. -/
theorem takesEffect_iff_lookups : TakesEffect s t fields host ↔
    ∀ field, (serverContext t.config t.store host).2.get? field =
      ((serverContext s.config s.store host).2.saveFields fields).get? field :=
  ⟨fun h => h.1, fun h => ⟨h, clientOf_congr _ _ h⟩⟩

theorem credentialKey_of_ne {serverId : String} (h : serverId ≠ "") :
    credentialKey serverId = "proxmox_" ++ serverId := if_pos h

theorem serverContext_stamped {config : Config} {store : Store}
    (hstamped : Text.orElse host.proxmoxServer "" ≠ "") :
    (serverContext config store host).2 =
      store.getD (integrationKey ("proxmox_" ++ Text.orElse host.proxmoxServer "")) ∅ := by
  rw [serverContext, if_pos hstamped, getIntegrationCredentials_of_ne (proxmox_ne _)]

theorem serverContext_unstamped {config : Config} {store : Store}
    (hstamped : Text.orElse host.proxmoxServer "" = "") :
    (serverContext config store host).2 = store.getIntegrationCredentials config "proxmox" := by
  rw [serverContext, if_neg (not_not.mpr hstamped)]

theorem getIntegrationCredentials_some {config : Config} {store : Store} {entry : Entry}
    (h : store.get? (integrationKey "proxmox") = some entry) :
    store.getIntegrationCredentials config "proxmox" = entry := by
  rw [Store.getIntegrationCredentials, h]

theorem getIntegrationCredentials_first {config : Config} {store : Store} {first : ProxmoxServer}
    (h : store.get? (integrationKey "proxmox") = none)
    (hfirst : config.getProxmoxServers.head? = some first) :
    store.getIntegrationCredentials config "proxmox" =
      store.getD (integrationKey ("proxmox_" ++ first.id)) ∅ := by
  rw [Store.getIntegrationCredentials, h, if_pos rfl, hfirst]

theorem getIntegrationCredentials_empty {config : Config} {store : Store}
    (h : store.get? (integrationKey "proxmox") = none) (hservers : config.getProxmoxServers = []) :
    store.getIntegrationCredentials config "proxmox" = ∅ := by
  rw [Store.getIntegrationCredentials, h, if_pos rfl, hservers]
  rfl

section Saved

variable (hstore : t.store = s.store.saveIntegrationCredentials (credentialKey id) fields)
  (hnodup : (fields.map Prod.fst).Nodup)

include hstore

/-- The entry under the key of the save. -/
theorem saved_getD : t.store.getD (integrationKey (credentialKey id)) ∅ =
    (s.store.getD (integrationKey (credentialKey id)) ∅).saveFields fields := by
  rw [hstore, Store.saveIntegrationCredentials, Dict.getD, Store.saveUnder_self, Option.getD_some]

theorem saved_other {key : String} (hkey : key ≠ credentialKey id) :
    t.store.get? (integrationKey key) = s.store.get? (integrationKey key) := by
  rw [hstore, Store.saveIntegrationCredentials,
    Store.saveUnder_other fun h => hkey (integrationKey_injective h)]

/-- The save is under the key of the single server. -/
theorem takesEffect_single (hstamped : Text.orElse host.proxmoxServer "" = "") (hid : id = "") :
    TakesEffect s t fields host ↔ KeysAgree s id fields host := by
  have hkey : credentialKey id = "proxmox" := by simp [credentialKey, hid]
  have hsaved := saved_getD hstore
  have hself : t.store.get? (integrationKey "proxmox") =
      some ((s.store.getD (integrationKey "proxmox") ∅).saveFields fields) := by
    rw [hstore, Store.saveIntegrationCredentials, hkey, Store.saveUnder_self]
  rw [takesEffect_iff_lookups, serverContext_unstamped hstamped, serverContext_unstamped hstamped,
    KeysAgree, if_neg (not_not.mpr hstamped), if_pos hid, getIntegrationCredentials_some hself]
  cases hsingle : s.store.get? (integrationKey "proxmox") with
  | some entry =>
      rw [getIntegrationCredentials_some hsingle, Dict.getD, hsingle]
      exact iff_of_true (fun _ => rfl) (.inl (by simp))
  | none =>
      rw [Dict.getD, hsingle, Option.getD_none, Entry.covered_iff]
      simp

include hnodup

theorem takesEffect_stamped (hstamped : Text.orElse host.proxmoxServer "" ≠ "") :
    TakesEffect s t fields host ↔ KeysAgree s id fields host := by
  rw [takesEffect_iff_lookups, serverContext_stamped hstamped, serverContext_stamped hstamped,
    KeysAgree, if_pos hstamped]
  by_cases hid : Text.orElse host.proxmoxServer "" = id
  · have hkey : credentialKey id = "proxmox_" ++ Text.orElse host.proxmoxServer "" := by
      rw [hid, credentialKey_of_ne (hid ▸ hstamped)]
    rw [← hkey, saved_getD hstore]
    exact iff_of_true (fun _ => rfl) (.inl hid)
  · have hkey : "proxmox_" ++ Text.orElse host.proxmoxServer "" ≠ credentialKey id := by
      rw [credentialKey]
      split
      · intro h
        have hlist := congrArg String.toList h
        simp only [String.toList_append] at hlist
        exact hid (String.toList_inj.mp (List.append_cancel_left hlist))
      · exact proxmox_ne _
    rw [Dict.getD, saved_other hstore hkey, ← Dict.getD, Entry.settled_iff hnodup]
    exact ⟨.inr, fun h => h.resolve_left hid⟩

/-- The save is under the key of a named server. -/
theorem takesEffect_named (hstamped : Text.orElse host.proxmoxServer "" = "") (hid : id ≠ "")
    (haddr : Addressed t.config id host)
    (hheads : s.config.getProxmoxServers ≠ [] →
      t.config.getProxmoxServers.head?.map ProxmoxServer.id =
        s.config.getProxmoxServers.head?.map ProxmoxServer.id) :
    TakesEffect s t fields host ↔ KeysAgree s id fields host := by
  have hkey : credentialKey id = "proxmox_" ++ id := credentialKey_of_ne hid
  have hother : t.store.get? (integrationKey "proxmox") = s.store.get? (integrationKey "proxmox") :=
    saved_other hstore (hkey ▸ (proxmox_ne id).symm)
  have hsaved := saved_getD hstore
  rw [hkey] at hsaved
  rw [takesEffect_iff_lookups, serverContext_unstamped hstamped, serverContext_unstamped hstamped,
    KeysAgree, if_neg (not_not.mpr hstamped), if_neg hid]
  cases hsingle : s.store.get? (integrationKey "proxmox") with
  | some entry =>
      rw [getIntegrationCredentials_some (hother.trans hsingle),
        getIntegrationCredentials_some hsingle, Entry.settled_iff hnodup]
      simp
  | none =>
      -- the host has no stamp, so the named server is the first one
      obtain ⟨first, hfirst, hfirstId⟩ : ∃ first,
          t.config.getProxmoxServers.head? = some first ∧ first.id = id := by
        have howner := haddr.2
        rw [ownerOf, if_neg (not_not.mpr hstamped), if_pos hid, singletonOwner] at howner
        split at howner
        · cases howner
        · obtain ⟨first, hfirst, hserver⟩ := Option.map_eq_some_iff.mp howner
          exact ⟨first, hfirst, Owner.server.inj hserver⟩
      rw [getIntegrationCredentials_first (hother.trans hsingle) hfirst, hfirstId, hsaved]
      by_cases hservers : s.config.getProxmoxServers = []
      · rw [getIntegrationCredentials_empty hsingle hservers]
        simp only [ne_eq, not_true_eq_false, if_false, hservers, false_or]
        rw [← Entry.covered_iff]
        exact forall_congr' fun _ => eq_comm
      · have hsame := hheads hservers
        obtain ⟨old, rest, hcons⟩ := List.exists_cons_of_ne_nil hservers
        have hold : s.config.getProxmoxServers.head? = some old := by rw [hcons, List.head?_cons]
        rw [hfirst, hold, Option.map_some, Option.map_some, Option.some_inj, hfirstId] at hsame
        rw [getIntegrationCredentials_first hsingle hold, ← hsame]
        exact iff_of_true (fun _ => rfl) (by simp [hservers])

end Saved

/-- No form posts a field twice. -/
theorem CredentialSave.fields_nodup (save : CredentialSave) : (save.fields.map Prod.fst).Nodup := by
  cases save with
  | proxmox form pem fp nodes =>
      simp only [CredentialSave.fields, SaveForm.credKwargs, proxmoxSshCredKwargs]
      split_ifs <;> simp
  | lxcs form =>
      simp only [CredentialSave.fields, LxcForm.credKwargs]
      split_ifs <;> simp_all

end Effect

/-- A save takes effect on a host of the server it is about exactly when the key
it writes and the key the host reads agree. -/
theorem save_takes_effect_iff (env : Surroundings) (s : Settings) (save : CredentialSave)
    {t : Settings} {id : String} (hrun : save.run env s = some (t, id)) (hposted : save.fields ≠ [])
    (hkeeps : ¬ save.Removes s) {host : HostEntry} (haddr : Addressed t.config id host) :
    TakesEffect s t save.fields host ↔
      KeysAgree s (save.targetId env s.config) save.fields host := by
  have hspec := CredentialSave.run_spec hrun hposted hkeeps
  rw [hspec.target]
  by_cases hstamped : Text.orElse host.proxmoxServer "" = ""
  · by_cases hid : id = ""
    · exact takesEffect_single hspec.store hstamped hid
    · exact takesEffect_named hspec.store save.fields_nodup hstamped hid haddr hspec.first
  · exact takesEffect_stamped hspec.store save.fields_nodup hstamped

/-- A server of the list with its token under its own key, and a container that
was saved without a server id. -/
def listSettings : Settings where
  config := {
    hosts :=
      [{ name := "db", host := "10.0.0.5", proxmoxNode := some "pve", proxmoxVmid := some 101 }]
    proxmoxServers := some [{ id := "pve", url := some "https://pve:8006" }] }
  store := (∅ : Store).set (integrationKey "proxmox_pve")
    (((∅ : Entry).set "token_id" (.str "root@pam!keepup")).set "secret" (.str "sekrit"))

def sshOnly : CredentialSave := .lxcs { proxmoxSshKey := "id_ed25519" }

def container : HostEntry :=
  { name := "db", host := "10.0.0.5", proxmoxNode := some "pve", proxmoxVmid := some 101 }

theorem save_takes_effect_container :
    TakesEffect listSettings (setupProxmoxSaveLxcs listSettings { proxmoxSshKey := "id_ed25519" })
        sshOnly.fields container ↔
      KeysAgree listSettings (sshOnly.targetId plainSurroundings listSettings.config) sshOnly.fields
        container :=
  save_takes_effect_iff plainSurroundings listSettings sshOnly rfl (List.cons_ne_nil _ _) id
    (by unfold Addressed; decide +kernel)

/-- Saving the SSH login alone puts the API token out of reach. -/
theorem ssh_save_hides_token :
    Addressed (setupProxmoxSaveLxcs listSettings
      { proxmoxSshKey := "id_ed25519" }).config "" container ∧
      ¬ TakesEffect listSettings
        (setupProxmoxSaveLxcs listSettings { proxmoxSshKey := "id_ed25519" })
            sshOnly.fields container := by
  refine ⟨by unfold Addressed; decide +kernel, fun heffect => ?_⟩
  have htoken := heffect.1 "token_id"
  revert htoken
  decide +kernel

end Proxmox

end Keepup
