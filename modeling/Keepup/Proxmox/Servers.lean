import Keepup.Hosts.Dispatch
import Keepup.Lib.Numbered

/-!
The Proxmox servers of the configuration: ids derived from URLs, the operations
on the list, and the functions that still take the block from before there was
a list. An operation is `none` where the code raises on a URL that cannot be
taken apart; nothing is written then.
-/

namespace Keepup.Proxmox

open Lib

/-- The configuration and the credential store, as they are on the disk. -/
structure Settings where
  config : Config
  store : Store
deriving DecidableEq

/-- The key of a server's credentials among those of the integrations. -/
def credentialKey (serverId : String) : String :=
  if serverId ≠ "" then "proxmox_" ++ serverId else "proxmox"

theorem getIntegrationCredentials_of_ne {config : Config} {store : Store} {key : String}
    (h : key ≠ "proxmox") :
    store.getIntegrationCredentials config key = store.getD (integrationKey key) ∅ := by
  rw [Store.getIntegrationCredentials, Dict.getD]
  cases store.get? (integrationKey key) with
  | none => simp [h]
  | some entry => rfl

/-- The names under which the other integrations keep their credentials. -/
def otherIntegrations : List String :=
  ["admin", "dockerhub", "email", "homeassistant", "opnsense", "pfsense", "portainer",
    "proxmox_backup", "pushover"]

/-- No other integration keeps its credentials under the key of a server, unless
the server has the id that makes it the backup server's key. -/
theorem otherIntegrations_ne {name serverId : String} (hname : name ∈ otherIntegrations)
    (hid : serverId ≠ "backup") : name ≠ "proxmox_" ++ serverId := by
  rintro rfl
  have hall : otherIntegrations.all
      (fun n => n.toList.take 8 != "proxmox_".toList || n.toList.drop 8 == "backup".toList) =
          true := by
    decide
  have hone := List.all_eq_true.mp hall _ hname
  have hlist : ("proxmox_" ++ serverId).toList = "proxmox_".toList ++ serverId.toList :=
    String.toList_append
  rw [hlist] at hone
  have hlead : ("proxmox_".toList ++ serverId.toList).take 8 = "proxmox_".toList :=
    List.take_left' rfl
  have hrest : ("proxmox_".toList ++ serverId.toList).drop 8 = serverId.toList :=
    List.drop_left' rfl
  rw [hlead, hrest] at hone
  simp only [bne_self_eq_false, Bool.false_or, beq_iff_eq] at hone
  exact hid (String.toList_inj.mp hone)

section Ids

/-- The id that a URL stands for. -/
def slugifyServerId (env : Surroundings) (url : String) : Option String :=
  (env.urlHostname url).map fun hostname =>
    let host := (Text.orElse hostname url).toList.map fun c => if c = '.' ∨ c = ':' then '-' else c
    Text.orElse (some (slugify (String.ofList host))) "proxmox"

theorem slugifyServerId_ne_empty {env : Surroundings} {url serverId : String}
    (hurl : slugifyServerId env url = some serverId) : serverId ≠ "" := by
  obtain ⟨hostname, _, rfl⟩ := Option.map_eq_some_iff.mp hurl
  exact Text.orElse_ne_empty (by decide) _

/-- Ids that the UI reserves for itself. -/
def reservedServerIds : List String := ["new"]

def suffixed (base : String) (suffix : Nat) : String := base ++ "-" ++ toString suffix

theorem suffixed_injective (base : String) : Function.Injective (suffixed base) := by
  intro i j h
  have hlist := congrArg String.toList h
  simp only [suffixed, String.toList_append] at hlist
  have hdigits : (toString i).toList = (toString j).toList := List.append_cancel_left hlist
  rw [Nat.toString_eq_ofList_toDigits, Nat.toString_eq_ofList_toDigits] at hdigits
  simpa using congrArg (fun ds => Nat.ofDigitChars 10 ds 0) hdigits

/-- The search for a free suffix, looking at `fuel` candidates. -/
def freeSuffix (base : String) (taken : List String) (fuel suffix : Nat) : Option Nat :=
  firstFree (fun i => decide (suffixed base i ∈ taken)) fuel suffix

/-- The search ends: more candidates than there are taken ids are never needed. -/
theorem freeSuffix_isSome (base : String) (taken : List String) :
    (freeSuffix base taken (taken.length + 1) 2).isSome :=
  firstFree_isSome (suffixed_injective base) taken 2

def uniqueServerId (base : String) (taken : List String) : String :=
  if base ∉ taken ∧ base ∉ reservedServerIds then base
  else suffixed base ((freeSuffix base taken (taken.length + 1) 2).get
    (freeSuffix_isSome base taken))

theorem uniqueServerId_not_mem (base : String) (taken : List String) :
    uniqueServerId base taken ∉ taken := by
  rw [uniqueServerId]
  split
  · rename_i hbase
    exact hbase.1
  · have hfree := firstFree_free (Option.some_get (freeSuffix_isSome base taken)).symm
    simpa using hfree

end Ids

section Operations

variable (env : Surroundings) (s : Settings)

/-- Append a server, and its id. -/
def addProxmoxServer (url : String) (verifySsl : Bool) (pinnedCertPem pinnedFingerprint : String) :
    Option (Settings × String) :=
  let servers := s.config.getProxmoxServers
  (slugifyServerId env url).map fun base =>
    let serverId := uniqueServerId base (servers.map ProxmoxServer.id)
    let entry : ProxmoxServer := {
      id := serverId
      url := some (Text.rstripChar '/' url)
      verifySsl := some verifySsl
      pinnedCertPem := if pinnedCertPem ≠ "" then some pinnedCertPem else none
      pinnedFingerprint := if pinnedCertPem ≠ "" then some pinnedFingerprint else none }
    ({ s with config := { s.config with proxmoxServers := some (servers ++ [entry]) } }, serverId)

/-- The change of an entry: `none` leaves a field as it is. -/
def updateEntry (url : Option String) (verifySsl : Option Bool)
    (pinnedCertPem pinnedFingerprint : Option String) (server : ProxmoxServer) : ProxmoxServer :=
  { server with
    url := (url.map (Text.rstripChar '/')).or server.url
    verifySsl := verifySsl.or server.verifySsl
    pinnedCertPem := pinnedCertPem.or server.pinnedCertPem
    pinnedFingerprint := pinnedFingerprint.or server.pinnedFingerprint }

/-- Change the first server with an id. -/
def changeFirst (serverId : String) (change : ProxmoxServer → ProxmoxServer) :
    List ProxmoxServer → List ProxmoxServer
  | [] => []
  | server :: rest =>
      if server.id = serverId then change server :: rest
      else server :: changeFirst serverId change rest

/-- The id stays, also when the URL changes. -/
def updateProxmoxServer (serverId : String) (url : Option String) (verifySsl : Option Bool)
    (pinnedCertPem pinnedFingerprint : Option String) : Settings :=
  let change := updateEntry url verifySsl pinnedCertPem pinnedFingerprint
  { s with config := { s.config with
      proxmoxServers := s.config.proxmoxServers.map (changeFirst serverId change) } }

/-- A VM keeps its entry when its server goes, without the Proxmox fields. -/
def isVm (host : HostEntry) : Bool := host.proxmoxVmid.isSome && host.proxmoxType == some "vm"

def stripProxmox (host : HostEntry) : HostEntry :=
  { host with proxmoxNode := none, proxmoxVmid := none, proxmoxType := none, proxmoxServer := none }

/-- What becomes of a host when a server goes. -/
def keepWithout (serverId : String) (host : HostEntry) : Option HostEntry :=
  if host.proxmoxServer ≠ some serverId then some host
  else if isVm host then some (stripProxmox host) else none

def deleteProxmoxServer (serverId : String) : Settings :=
  let servers := s.config.getProxmoxServers
  if servers.any (·.id == serverId) then
    let dropped := (s.config.hosts.filter fun h =>
      (keepWithout serverId h).isNone).map HostEntry.slug
    let store := s.store.deleteIntegrationCredentials ("proxmox_" ++ serverId)
    { config := { s.config with
        proxmoxServers := some (servers.filter (·.id != serverId))
        hosts := s.config.hosts.filterMap (keepWithout serverId) }
      store := (dropped.filter (· != "")).foldl Store.deleteCredentials store }
  else s

/-- The old block counts when it holds anything. -/
def legacyBlock (config : Config) : Option Block := config.proxmox.filter (· != {})

def saveFirstServer (url pinnedCertPem pinnedFingerprint : String) (verifySsl : Bool) :
    Option Settings :=
  match s.config.getProxmoxServers, decide (url = "") with
  | [], true => some s
  | first :: _, true => some (deleteProxmoxServer s first.id)
  | [], false =>
      (addProxmoxServer env s url verifySsl pinnedCertPem pinnedFingerprint).map Prod.fst
  | first :: _, false =>
      some (updateProxmoxServer s first.id (some url) (some verifySsl)
        (some pinnedCertPem |>.filter (· != "")) (some pinnedFingerprint |>.filter (· != "")))

/-- Write the old block, or through to the first server once there is a list. -/
def saveProxmoxConfig (url pinnedCertPem pinnedFingerprint : String) (verifySsl : Bool) :
    Option Settings :=
  if s.config.proxmoxServers.isSome ∧ legacyBlock s.config = none then
    saveFirstServer env s url pinnedCertPem pinnedFingerprint verifySsl
  else if url ≠ "" then
    let existing := s.config.proxmox.getD {}
    let pem := if pinnedCertPem ≠ "" then pinnedCertPem else existing.pinnedCertPem.getD ""
    let fp := if pinnedFingerprint ≠ "" then pinnedFingerprint
      else existing.pinnedFingerprint.getD ""
    let entry : Block := {
      url := some (Text.rstripChar '/' url)
      verifySsl := some verifySsl
      pinnedCertPem := if pem ≠ "" then some pem else none
      pinnedFingerprint := if pem ≠ "" then some fp else none }
    some { s with config := { s.config with proxmox := some entry } }
  else some { s with config := { s.config with proxmox := none } }

/-- The id of the blank card. -/
def newServer : String := "__new__"

/-- Write a server's configuration, and the id its credentials belong under. -/
def persistProxmoxServer (serverId url pinnedCertPem pinnedFingerprint : String)
    (verifySsl : Bool) : Option (Settings × String) :=
  if serverId = newServer then
    if url = "" then some (s, "")
    else addProxmoxServer env s url verifySsl pinnedCertPem pinnedFingerprint
  else if serverId ≠ "" ∧ s.config.getProxmoxServer serverId ≠ none then
    some (updateProxmoxServer s serverId (some url |>.filter (· != "")) (some verifySsl)
      (some pinnedCertPem |>.filter (· != "")) (some pinnedFingerprint |>.filter (· != "")),
        serverId)
  else (saveProxmoxConfig env s url pinnedCertPem pinnedFingerprint verifySsl).map fun s' =>
    (s', "")

end Operations

section Persisted

/-- The save is for the single server of the time before the list. -/
def IsSingletonSave (s : Settings) (serverId : String) : Prop :=
  serverId ≠ newServer ∧ (serverId = "" ∨ s.config.getProxmoxServer serverId = none)

/-- What a save makes of the servers, and the id under which it leaves the
credentials. -/
inductive Persisted (env : Surroundings) (s : Settings) (serverId url : String) :
    Settings → String → Prop where
  | ignored (hnew : serverId = newServer) (hurl : url = "") : Persisted env s serverId url s ""
  | added (base : String) (entry : Block) (hnew : serverId = newServer) (hurl : url ≠ "")
      (hbase : slugifyServerId env url = some base)
      (hentry : entry.url = some (Text.rstripChar '/' url)) :
      Persisted env s serverId url
        { s with config := { s.config with proxmoxServers := some (s.config.getProxmoxServers ++
          [{ entry with id := uniqueServerId base (s.config.getProxmoxServers.map
            ProxmoxServer.id) }]) } }
        (uniqueServerId base (s.config.getProxmoxServers.map ProxmoxServer.id))
  | updated (change : ProxmoxServer → ProxmoxServer)
      (hchange : ∀ server, (change server).id = server.id)
      (hnew : serverId ≠ newServer) (hid : serverId ≠ "")
      (hknown : s.config.getProxmoxServer serverId ≠ none)
      (hwritten : ∀ server, (change server).url =
        if url = "" then server.url else some (Text.rstripChar '/' url)) :
      Persisted env s serverId url
        { s with config := { s.config with
          proxmoxServers := s.config.proxmoxServers.map (changeFirst serverId change) } } serverId
  | legacyWritten (entry : Block) (hsingle : IsSingletonSave s serverId) (hurl : url ≠ "")
      (hentry : entry ≠ {})
      (hshape : s.config.proxmoxServers = none ∨ legacyBlock s.config ≠ none)
      (hwritten : entry.url = some (Text.rstripChar '/' url)) :
      Persisted env s serverId url { s with config := { s.config with proxmox := some entry } } ""
  | legacyRemoved (hsingle : IsSingletonSave s serverId) (hurl : url = "")
      (hshape : s.config.proxmoxServers = none ∨ legacyBlock s.config ≠ none) :
      Persisted env s serverId url { s with config := { s.config with proxmox := none } } ""
  | firstAdded (base : String) (entry : Block) (hsingle : IsSingletonSave s serverId)
      (hurl : url ≠ "") (hlegacy : legacyBlock s.config = none)
      (hservers : s.config.proxmoxServers = some [])
      (hbase : slugifyServerId env url = some base)
      (hentry : entry.url = some (Text.rstripChar '/' url)) :
      Persisted env s serverId url
        { s with config := { s.config with
          proxmoxServers := some [{ entry with id := uniqueServerId base [] }] } } ""
  | firstUpdated (first : ProxmoxServer) (rest : List ProxmoxServer)
      (change : ProxmoxServer → ProxmoxServer) (hchange : ∀ server, (change server).id = server.id)
      (hsingle : IsSingletonSave s serverId)
      (hurl : url ≠ "") (hlegacy : legacyBlock s.config = none)
      (hservers : s.config.proxmoxServers = some (first :: rest))
      (hwritten : (change first).url = some (Text.rstripChar '/' url)) :
      Persisted env s serverId url
        { s with config := { s.config with proxmoxServers := some (change first :: rest) } } ""
  | firstDeleted (first : ProxmoxServer) (rest : List ProxmoxServer)
      (hsingle : IsSingletonSave s serverId)
      (hurl : url = "") (hlegacy : legacyBlock s.config = none)
      (hservers : s.config.proxmoxServers = some (first :: rest)) :
      Persisted env s serverId url (deleteProxmoxServer s first.id) ""
  | emptyList (hsingle : IsSingletonSave s serverId) (hurl : url = "")
      (hlegacy : legacyBlock s.config = none) (hservers : s.config.proxmoxServers = some []) :
      Persisted env s serverId url s ""

variable {env : Surroundings} {s s' : Settings}
  {serverId url pinnedCertPem pinnedFingerprint id : String}
  {verifySsl : Bool}

theorem getProxmoxServers_of {config : Config} {servers : List ProxmoxServer}
    (h : config.proxmoxServers = some servers) : config.getProxmoxServers = servers := by
  rw [Config.getProxmoxServers, h, Option.getD_some]

theorem addProxmoxServer_some (h : addProxmoxServer env s url verifySsl pinnedCertPem
    pinnedFingerprint = some (s', id)) :
    ∃ (base : String) (entry : Block), slugifyServerId env url = some base ∧
      entry.url = some (Text.rstripChar '/' url) ∧
      id = uniqueServerId base (s.config.getProxmoxServers.map ProxmoxServer.id) ∧
      s' = { s with config := { s.config with
        proxmoxServers := some (s.config.getProxmoxServers ++ [{ entry with id := id }]) } } := by
  obtain ⟨base, hbase, hpair⟩ := Option.map_eq_some_iff.mp h
  obtain ⟨rfl, rfl⟩ := Prod.mk.inj hpair
  exact ⟨base, _, hbase, rfl, rfl, rfl⟩

theorem saveProxmoxConfig_persisted (hsingle : IsSingletonSave s serverId)
    (h : saveProxmoxConfig env s url pinnedCertPem pinnedFingerprint verifySsl = some s') :
    Persisted env s serverId url s' "" := by
  rw [saveProxmoxConfig] at h
  split at h
  · rename_i hshape
    obtain ⟨servers, hservers⟩ := Option.isSome_iff_exists.mp hshape.1
    have hget : s.config.getProxmoxServers = servers := getProxmoxServers_of hservers
    rw [saveFirstServer, hget] at h
    cases servers with
    | nil =>
        by_cases hurl : url = ""
        · simp only [hurl, decide_true, Option.some_inj] at h
          exact h ▸ .emptyList hsingle hurl hshape.2 hservers
        · simp only [hurl, decide_false] at h
          obtain ⟨⟨t, id⟩, hadd, rfl⟩ := Option.map_eq_some_iff.mp h
          obtain ⟨base, entry, hbase, hentry, rfl, rfl⟩ := addProxmoxServer_some hadd
          simpa [hget] using Persisted.firstAdded base entry hsingle
            hurl hshape.2 hservers hbase hentry
    | cons first rest =>
        by_cases hurl : url = ""
        · simp only [hurl, decide_true, Option.some_inj] at h
          exact h ▸ .firstDeleted first rest hsingle hurl hshape.2 hservers
        · simp only [hurl, decide_false, Option.some_inj] at h
          rw [← h, updateProxmoxServer, hservers]
          simpa [changeFirst] using Persisted.firstUpdated first rest
            (updateEntry (some url) (some verifySsl) ((some pinnedCertPem).filter (· != ""))
              ((some pinnedFingerprint).filter (· != ""))) (fun _ =>
                rfl) hsingle hurl hshape.2 hservers rfl
  · rename_i hshape
    have hlegacy : s.config.proxmoxServers = none ∨ legacyBlock s.config ≠ none := by
      by_cases hnone : s.config.proxmoxServers = none
      · exact .inl hnone
      · exact .inr fun hlegacy => hshape ⟨Option.isSome_iff_ne_none.mpr hnone, hlegacy⟩
    split at h
    · rename_i hurl
      rw [Option.some_inj] at h
      refine h ▸ .legacyWritten _ hsingle hurl (fun hempty => ?_) hlegacy rfl
      cases congrArg Block.url hempty
    · rename_i hurl
      rw [ne_eq, not_not] at hurl
      rw [Option.some_inj] at h
      exact h ▸ .legacyRemoved hsingle hurl hlegacy

theorem persistProxmoxServer_persisted (h : persistProxmoxServer env s serverId url pinnedCertPem
    pinnedFingerprint verifySsl = some (s', id)) : Persisted env s serverId url s' id := by
  rw [persistProxmoxServer] at h
  split at h
  · rename_i hnew
    split at h
    · rename_i hurl
      cases h
      exact .ignored hnew hurl
    · rename_i hurl
      obtain ⟨base, entry, hbase, hentry, rfl, rfl⟩ := addProxmoxServer_some h
      exact .added base entry hnew hurl hbase hentry
  · rename_i hnew
    split at h
    · rename_i hknown
      cases h
      refine .updated (updateEntry ((some url).filter (· != "")) (some verifySsl)
        ((some pinnedCertPem).filter (· != "")) ((some pinnedFingerprint).filter (· != "")))
        (fun _ => rfl) hnew hknown.1 hknown.2 fun server => ?_
      by_cases hurl : url = "" <;> simp [updateEntry, Option.filter, hurl]
    · rename_i hknown
      have hsingle : IsSingletonSave s serverId := by
        refine ⟨hnew, ?_⟩
        by_cases hid : serverId = ""
        · exact .inl hid
        · exact .inr (by_contra fun hne => hknown ⟨hid, hne⟩)
      obtain ⟨t, hsave, hpair⟩ := Option.map_eq_some_iff.mp h
      obtain ⟨rfl, rfl⟩ := Prod.mk.inj hpair
      exact saveProxmoxConfig_persisted hsingle hsave

end Persisted

theorem plainPath_ne (name path : String) (h : some ("/app/keys/" ++ name) = some path) :
    path ≠ "" := by
  rw [← Option.some.inj h]
  intro hempty
  have hlength := congrArg String.length hempty
  simp at hlength

/-- For runs on concrete URLs. -/
def plainSurroundings : Surroundings where
  resolveKeyPath name := some ("/app/keys/" ++ name)
  path_ne := plainPath_ne
  urlChecks := .ascii

example : slugifyServerId plainSurroundings "https://192.168.1.10:8006" = some "192-168-1-10" := by
  decide +kernel

end Keepup.Proxmox
