import Keepup.Proxmox.Migration
import Keepup.Lib.Runs

/-!
The ids of the Proxmox servers over whole runs of the operations on them: they
name HTML elements, and they are part of the names under which credentials are
kept, next to those of the other integrations.
-/

namespace Keepup.Proxmox

open Lib

inductive ServerCall where
  | add (url : String) (verifySsl : Bool) (pinnedCertPem pinnedFingerprint : String)
  | update (serverId : String) (url : Option String) (verifySsl : Option Bool)
      (pinnedCertPem pinnedFingerprint : Option String)
  | delete (serverId : String)
  | migrate

/-- A call that raises changes nothing. -/
def ServerCall.run (env : Surroundings) (s : Settings) : ServerCall → Settings
  | .add url verifySsl pinnedCertPem pinnedFingerprint =>
      ((addProxmoxServer env s url verifySsl pinnedCertPem pinnedFingerprint).map Prod.fst).getD s
  | .update serverId url verifySsl pinnedCertPem pinnedFingerprint =>
      updateProxmoxServer s serverId url verifySsl pinnedCertPem pinnedFingerprint
  | .delete serverId => deleteProxmoxServer s serverId
  | .migrate => restart env s

def serverIds (config : Config) : List String := config.getProxmoxServers.map ProxmoxServer.id

/-- An id that can stand in the UI and in the name of an entry. -/
structure UsableId (serverId : String) : Prop where
  nonempty : serverId ≠ ""
  chars : ∀ c ∈ serverId.toList, isSlugChar c = true
  free : serverId ∉ reservedServerIds
  separate : "proxmox_" ++ serverId ∉ otherIntegrations

structure UsableIds (s : Settings) : Prop where
  distinct : (serverIds s.config).Nodup
  usable : ∀ serverId ∈ serverIds s.config, UsableId serverId

/-- The id that a call derives from a URL is none that it would use as it is
although it must not. -/
def KeepsIds (env : Surroundings) (s : Settings) : ServerCall → Prop
  | .add url _ _ _ => slugifyServerId env url ≠ some "backup"
  | .migrate => ∀ legacy, legacyBlock s.config = some legacy → s.config.getProxmoxServers = [] →
      slugifyServerId env (legacy.url.getD "") ≠ some "new" ∧
        slugifyServerId env (legacy.url.getD "") ≠ some "backup"
  | _ => True

section Derived

variable {env : Surroundings} {url serverId : String}

theorem separate_iff : "proxmox_" ++ serverId ∉ otherIntegrations ↔ serverId ≠ "backup" := by
  constructor
  · rintro hmem rfl
    exact hmem (by decide)
  · exact fun hne hmem => otherIntegrations_ne hmem hne rfl

theorem slugifyServerId_chars (hurl : slugifyServerId env url = some serverId) :
    ∀ c ∈ serverId.toList, isSlugChar c = true := by
  obtain ⟨hostname, _, rfl⟩ := Option.map_eq_some_iff.mp hurl
  have hdefault : "proxmox".toList.all isSlugChar = true := by decide
  rw [Text.orElse]
  split
  · exact List.all_eq_true.mp hdefault
  · exact slugify_chars _

/-- An id that a URL stands for is usable unless it has another use. -/
theorem usableId_iff (hurl : slugifyServerId env url = some serverId) :
    UsableId serverId ↔ serverId ≠ "new" ∧ serverId ≠ "backup" := by
  constructor
  · exact fun h => ⟨fun hnew => h.free (by simp [hnew, reservedServerIds]),
      separate_iff.mp h.separate⟩
  · rintro ⟨hnew, hbackup⟩
    exact ⟨slugifyServerId_ne_empty hurl, slugifyServerId_chars hurl,
      by simpa [reservedServerIds] using hnew, separate_iff.mpr hbackup⟩

theorem dash_mem_suffixed (base : String) (suffix : Nat) : '-' ∈ (suffixed base suffix).toList := by
  simp [suffixed]

/-- A suffix makes any id usable. -/
theorem uniqueServerId_ne_empty {base : String} (hbase : base ≠ "") (taken : List String) :
    uniqueServerId base taken ≠ "" := by
  rw [uniqueServerId]
  split
  · exact hbase
  · intro hempty
    have hdash := dash_mem_suffixed base ((freeSuffix base taken (taken.length + 1) 2).get
      (freeSuffix_isSome base taken))
    rw [hempty] at hdash
    cases hdash

theorem usableId_suffixed (hurl : slugifyServerId env url = some serverId) (suffix : Nat) :
    UsableId (suffixed serverId suffix) := by
  have hdash := dash_mem_suffixed serverId suffix
  refine ⟨?_, ?_, ?_, ?_⟩
  · intro hempty
    rw [hempty] at hdash
    cases hdash
  · intro c hc
    simp only [suffixed, String.toList_append, List.mem_append] at hc
    rcases hc with (hbase | hsep) | hdigit
    · exact slugifyServerId_chars hurl c hbase
    · obtain rfl : c = '-' := by simpa using hsep
      decide
    · simp [isSlugChar, Text.toString_digits suffix c hdigit]
  · intro hnew
    rw [reservedServerIds, List.mem_singleton] at hnew
    rw [hnew] at hdash
    exact absurd hdash (by decide)
  · refine separate_iff.mpr fun hbackup => ?_
    rw [hbackup] at hdash
    exact absurd hdash (by decide)

/-- The id of a new server is usable, unless the URL stands for the one id that
nothing holds back. -/
theorem usableId_unique (hurl : slugifyServerId env url = some serverId) {taken : List String}
    (hbackup : serverId ≠ "backup") : UsableId (uniqueServerId serverId taken) := by
  rw [uniqueServerId]
  split
  · rename_i hfree
    refine (usableId_iff hurl).mpr ⟨fun hnew => hfree.2 ?_, hbackup⟩
    simp [hnew, reservedServerIds]
  · exact usableId_suffixed hurl _

end Derived

section Step

variable {env : Surroundings} {s : Settings}

theorem changeFirst_ids (serverId : String) (change : ProxmoxServer → ProxmoxServer)
    (hchange : ∀ server, (change server).id = server.id) (servers : List ProxmoxServer) :
    (changeFirst serverId change servers).map ProxmoxServer.id = servers.map ProxmoxServer.id := by
  induction servers with
  | nil => rfl
  | cons server rest ih =>
      rw [changeFirst]
      split
      · simp [hchange]
      · simp [ih]

theorem update_ids (serverId : String) (url : Option String) (verifySsl : Option Bool)
    (pinnedCertPem pinnedFingerprint : Option String) :
    serverIds (updateProxmoxServer s serverId url verifySsl pinnedCertPem
      pinnedFingerprint).config =
      serverIds s.config := by
  have hchange : ∀ server,
      (updateEntry url verifySsl pinnedCertPem pinnedFingerprint server).id = server.id :=
    fun _ => rfl
  simp only [serverIds, Config.getProxmoxServers, updateProxmoxServer]
  cases s.config.proxmoxServers with
  | none => rfl
  | some servers => exact changeFirst_ids serverId _ hchange servers

theorem delete_ids (serverId : String) :
    (serverIds (deleteProxmoxServer s serverId).config).Sublist (serverIds s.config) := by
  rw [deleteProxmoxServer]
  split
  · exact List.filter_sublist.map _
  · exact List.Sublist.refl _

theorem UsableIds.of_sublist {t : Settings} (h : UsableIds s)
    (hsub : (serverIds t.config).Sublist (serverIds s.config)) : UsableIds t :=
  ⟨hsub.nodup h.distinct, fun serverId hid => h.usable serverId (hsub.subset hid)⟩

theorem add_ids {url : String} {verifySsl : Bool} {pem fp base : String}
    (hurl : slugifyServerId env url = some base) :
    serverIds (ServerCall.run env s (.add url verifySsl pem fp)).config =
      serverIds s.config ++ [uniqueServerId base (serverIds s.config)] := by
  simp [ServerCall.run, addProxmoxServer, hurl, serverIds, Config.getProxmoxServers]

/-- A call keeps the ids usable exactly when it derives none that it must not use. -/
theorem usableIds_run_iff (hs : UsableIds s) (call : ServerCall) :
    UsableIds (call.run env s) ↔ KeepsIds env s call := by
  cases call with
  | add url verifySsl pem fp =>
      simp only [KeepsIds]
      cases hurl : slugifyServerId env url with
      | none => simpa [ServerCall.run, addProxmoxServer, hurl] using hs
      | some base =>
          rw [ne_eq, Option.some_inj]
          constructor
          · rintro hkept rfl
            -- the id is free and not held back, so it is taken as it is
            have hfree : "backup" ∉ serverIds s.config := fun hmem =>
              separate_iff.mp (hs.usable _ hmem).separate rfl
            have htaken : uniqueServerId "backup" (serverIds s.config) = "backup" :=
              if_pos ⟨hfree, by decide⟩
            have hused := hkept.usable "backup" (by rw [add_ids hurl, htaken]; simp)
            exact separate_iff.mp hused.separate rfl
          · intro hbackup
            have hnew := uniqueServerId_not_mem base (serverIds s.config)
            constructor
            · rw [add_ids hurl, List.nodup_append]
              refine ⟨hs.distinct, by simp, fun serverId hid other hother => ?_⟩
              rw [List.mem_singleton.mp hother]
              exact fun h => hnew (h ▸ hid)
            · intro serverId hid
              rw [add_ids hurl, List.mem_append, List.mem_singleton] at hid
              rcases hid with hold | rfl
              · exact hs.usable serverId hold
              · exact usableId_unique hurl hbackup
  | update serverId url verifySsl pem fp =>
      refine iff_of_true (hs.of_sublist ?_) trivial
      rw [ServerCall.run, update_ids]
  | delete serverId => exact iff_of_true (hs.of_sublist (delete_ids serverId)) trivial
  | migrate =>
      simp only [KeepsIds, ServerCall.run]
      generalize hafter : restart env s = t
      cases hafter ▸ restart_migrated env s with
      | nothing hlegacy => simpa [hlegacy] using hs
      | dropped legacy hlegacy hservers =>
          refine iff_of_true (hs.of_sublist (List.Sublist.refl _)) fun _ _ hnone =>
            absurd hnone hservers
      | refused legacy hlegacy hservers hurl => simpa [hlegacy, hurl] using hs
      | moved legacy serverId hlegacy hservers hurl =>
          have hids : serverIds (migratedConfig s.config legacy serverId) = [serverId] := rfl
          have husable : UsableIds ⟨migratedConfig s.config legacy serverId,
            movedStore s.store serverId⟩ ↔
              UsableId serverId := by
            constructor
            · exact fun h => h.usable serverId (by simp [hids])
            · exact fun h => ⟨by simp [hids], by simpa [hids] using h⟩
          rw [husable, usableId_iff hurl]
          simp [hlegacy, hservers, hurl]

end Step

/-- In a run of calls the ids stay usable exactly as long as no call derives an id
that it must not use, and the search for a free id always ends. -/
theorem ids_usable_iff (env : Surroundings) (s : Settings) (calls : List ServerCall) :
    ((∀ t ∈ reached (ServerCall.run env) s calls, UsableIds t) ↔
      UsableIds s ∧ Meets (ServerCall.run env) (KeepsIds env) s calls) ∧
    ∀ base taken, ∃ suffix, ∀ fuel > taken.length, freeSuffix base taken fuel 2 = some suffix := by
  refine ⟨⟨fun hall => ?_, fun h => ?_⟩, fun base taken => ?_⟩
  · have hs := hall s (mem_reached_start s calls)
    exact ⟨hs, (reached_all_iff (P := UsableIds) (fun _ call ht =>
      usableIds_run_iff ht call) hs calls).mp hall⟩
  · exact (reached_all_iff (P := UsableIds) (fun _ call ht =>
      usableIds_run_iff ht call) h.1 calls).mpr h.2
  · obtain ⟨suffix, hfound⟩ := Option.isSome_iff_exists.mp (freeSuffix_isSome base taken)
    exact ⟨suffix, fun fuel hfuel => firstFree_more hfound hfuel⟩

/-- A server on a machine named `backup` is to keep its credentials where those
of the backup server are. -/
theorem backup_server_shares_key :
    ¬ ∀ t ∈ reached (ServerCall.run plainSurroundings) ⟨{}, ∅⟩
      [.add "https://backup:8006" true "" ""], UsableIds t := by
  intro hall
  have hids : serverIds (ServerCall.run plainSurroundings ⟨{}, ∅⟩
      (.add "https://backup:8006" true "" "")).config = ["backup"] := by decide +kernel
  have hused := (hall (ServerCall.run plainSurroundings ⟨{}, ∅⟩
    (.add "https://backup:8006" true "" "")) (by simp [reached])).usable "backup" (by simp [hids])
  exact separate_iff.mp hused.separate rfl

end Keepup.Proxmox
