import Keepup.Config.File
import Keepup.Lib.Resuming
import Keepup.Proxmox.Ownership
import Keepup.Proxmox.Preservation

/-!
The migration from unverified TLS to pinned certificates, at the start of the program. It is made
once: an administrator who turns the verification off later has meant it. A start that is cut off
before it has marked the migration leaves it to the next one. Only the notice comes after the mark,
and is lost when the start is cut off between them.
-/

namespace Keepup.Tofu

open Lib Proxmox Resuming

section Source

inductive Integration where
  | proxmox
  | proxmoxBackup
  | opnsense
  | pfsense
  | portainer
deriving DecidableEq

def integrations : List Integration := [.proxmox, .proxmoxBackup, .opnsense, .pfsense, .portainer]

def Integration.name : Integration → String
  | .proxmox => "proxmox"
  | .proxmoxBackup => "proxmox_backup"
  | .opnsense => "opnsense"
  | .pfsense => "pfsense"
  | .portainer => "portainer"

def Integration.getCfg (config : Config) : Integration → Block
  | .proxmox => config.getProxmoxConfig
  | .proxmoxBackup => config.proxmoxBackup.getD {}
  | .opnsense => config.opnsense.getD {}
  | .pfsense => config.pfsense.getD {}
  | .portainer => config.portainer.getD {}

/-- `save_cfg`, with the verification left to its default. -/
def Integration.saveCfg (env : Surroundings) (s : Settings) (url pem fingerprint : String) :
    Integration → Option Settings
  | .proxmox => saveProxmoxConfig env s url pem fingerprint true
  | .proxmoxBackup => some { s with config := s.config.savePbsConfig url pem fingerprint true }
  | .opnsense => some { s with config := s.config.saveOpnsenseConfig url pem fingerprint true }
  | .pfsense => some { s with config := s.config.savePfsenseConfig url pem fingerprint true }
  | .portainer => some { s with config := s.config.savePortainerConfig url pem fingerprint }

/-- A certificate that was fetched and could be read. -/
structure Certificate where
  pem : String
  fingerprint : String
  pem_ne : pem ≠ ""
  fingerprint_ne : fingerprint ≠ ""

/- The certificate at a URL, `none` where it cannot be fetched or read. -/
variable (env : Surroundings) (fetch : String → Option Certificate)

/-- One round of the loop, `none` where it pins nothing. -/
def autoPin (i : Integration) (s : Settings) : Option Settings :=
  let cfg := i.getCfg s.config
  if cfg.verifySsl ≠ some false ∨ Text.given cfg.pinnedCertPem then none
  else
    let url := cfg.url.getD ""
    if url = "" then none
    else (fetch url).bind fun found => i.saveCfg env s url found.pem found.fingerprint

structure World where
  settings : Settings
  tofuMigrated : Bool := false
  notices : List (String × String) := []

def notice (pinned : List String) : String × String :=
  ("TLS certificates auto-pinned",
    "Keepup upgraded to certificate pinning (TOFU). Certificates were automatically captured for: "
      ++ ", ".intercalate pinned ++ ". Re-test each integration if connections fail.")

/-- The loop, with the names that it has pinned. -/
def pinAll (is : List Integration) (s : Settings) : Settings × List String :=
  is.foldl (fun done i => (autoPin env fetch i done.1).elim done fun s =>
    (s, done.2 ++ [i.name])) (s, [])

def migrateTofuCerts (w : World) : World :=
  if w.tofuMigrated then w
  else
    let done := pinAll env fetch integrations w.settings
    { settings := done.1
      tofuMigrated := true
      notices := if done.2 = [] then w.notices else w.notices ++ [notice done.2] }

/-- Where a start is cut off: within the loop, after so many integrations, or before the notice. -/
inductive Cut where
  | inLoop (rounds : ℕ)
  | unnoticed
deriving DecidableEq

def interrupted (w : World) (cut : Cut) : World :=
  if w.tofuMigrated then w
  else match cut with
    | .inLoop rounds =>
        { w with settings := (pinAll env fetch (integrations.take rounds) w.settings).1 }
    | .unnoticed => { w with settings := (pinAll env fetch integrations w.settings).1,
                             tofuMigrated := true }

end Source

section Blocks

/-- The block is one that the migration is for. -/
def Unverified (block : Block) : Prop :=
  block.verifySsl = some false ∧ Text.given block.pinnedCertPem = false ∧ block.url.getD "" ≠ ""

instance (block : Block) : Decidable (Unverified block) := by
  unfold Unverified
  infer_instance

theorem not_unverified_empty : ¬ Unverified {} := by decide

variable (fetch : String → Option Certificate) (verifySsl : Option Bool)

/-- There is something to pin in a block. -/
def Open (block : Block) : Prop := Unverified block ∧ (fetch (block.url.getD "")).isSome

instance (block : Block) : Decidable (Open fetch block) := by
  unfold Open
  infer_instance

/-- A block with the certificate of its server, if it was unverified and there is one. -/
def repinned (block : Block) : Block :=
  match fetch (block.url.getD "") with
  | some found =>
      if Unverified block then
        { url := some (Text.rstripChar '/' (block.url.getD ""))
          verifySsl := verifySsl
          pinnedCertPem := some found.pem
          pinnedFingerprint := some found.fingerprint }
      else block
  | none => block

def repinFirst : List ProxmoxServer → List ProxmoxServer
  | [] => []
  | first :: rest => { first with toBlock := repinned fetch (some true) first.toBlock } :: rest

/-- The whole configuration after the migration. Of several Proxmox servers it is the first that is
looked at, unless the old block stands beside them. -/
def pinnedConfig (config : Config) : Config :=
  { config with
    proxmox := config.proxmox.map (repinned fetch (some true))
    proxmoxServers :=
      if legacyBlock config = none then config.proxmoxServers.map (repinFirst fetch)
        else config.proxmoxServers
    proxmoxBackup := config.proxmoxBackup.map (repinned fetch (some true))
    opnsense := config.opnsense.map (repinned fetch (some true))
    pfsense := config.pfsense.map (repinned fetch (some true))
    portainer := config.portainer.map (repinned fetch none) }

/-- What one round makes of the configuration. -/
def Integration.pin (config : Config) : Integration → Config
  | .proxmox =>
      { config with
        proxmox := (pinnedConfig fetch config).proxmox
        proxmoxServers := (pinnedConfig fetch config).proxmoxServers }
  | .proxmoxBackup => { config with proxmoxBackup := (pinnedConfig fetch config).proxmoxBackup }
  | .opnsense => { config with opnsense := (pinnedConfig fetch config).opnsense }
  | .pfsense => { config with pfsense := (pinnedConfig fetch config).pfsense }
  | .portainer => { config with portainer := (pinnedConfig fetch config).portainer }

variable {fetch verifySsl}

theorem repinned_closed {block : Block} (h : ¬ Open fetch block) :
    repinned fetch verifySsl block = block := by
  rw [repinned]
  split
  · rename_i found hfound
    exact if_neg fun hopen => h ⟨hopen, by rw [hfound]; rfl⟩
  · rfl

theorem repinned_found {block : Block} {found : Certificate} (hopen : Unverified block)
    (hfound : fetch (block.url.getD "") = some found) : repinned fetch verifySsl block =
      { url := some (Text.rstripChar '/' (block.url.getD ""))
        verifySsl := verifySsl
        pinnedCertPem := some found.pem
        pinnedFingerprint := some found.fingerprint } := by
  rw [repinned, hfound]
  exact if_pos hopen

theorem repinned_settled (hverify : verifySsl ≠ some false) (block : Block) :
    ¬ Open fetch (repinned fetch verifySsl block) := by
  by_cases hopen : Open fetch block
  · obtain ⟨found, hfound⟩ := Option.isSome_iff_exists.mp hopen.2
    rw [repinned_found hopen.1 hfound]
    exact fun h => hverify h.1.1
  · rwa [repinned_closed hopen]

theorem not_open_empty : ¬ Open fetch {} := fun h => not_unverified_empty h.1

theorem getD_repinned (block : Option Block) :
    (block.map (repinned fetch verifySsl)).getD {} = repinned fetch verifySsl (block.getD {}) := by
  cases block with
  | none => exact (repinned_closed not_open_empty).symm
  | some block => rfl

theorem map_repinned {block : Option Block} (h : ¬ Open fetch (block.getD {})) :
    block.map (repinned fetch verifySsl) = block := by
  cases block with
  | none => rfl
  | some block => exact congrArg some (repinned_closed h)

theorem savedBlock_eq {block : Option Block} {found : Certificate}
    (hopen : Unverified (block.getD {}))
    (hfound : fetch ((block.getD {}).url.getD "") = some found) :
    Config.savedBlock block ((block.getD {}).url.getD "") found.pem found.fingerprint verifySsl =
      block.map (repinned fetch verifySsl) := by
  cases block with
  | none => exact absurd hopen not_unverified_empty
  | some block =>
      rw [Option.getD_some] at hopen hfound
      rw [Option.map_some, repinned_found hopen hfound, Option.getD_some,
        Config.savedBlock, if_neg hopen.2.2]
      simp [found.pem_ne, found.fingerprint_ne]

end Blocks

section Proxmox

variable {fetch : String → Option Certificate} {config : Config} {env : Surroundings} {s : Settings}

theorem repinned_ne_empty {verifySsl : Option Bool} {block : Block} (h : block ≠ {}) :
    repinned fetch verifySsl block ≠ {} := by
  by_cases hopen : Open fetch block
  · obtain ⟨found, hfound⟩ := Option.isSome_iff_exists.mp hopen.2
    rw [repinned_found hopen.1 hfound]
    exact fun hempty => nomatch congrArg Block.url hempty
  · rwa [repinned_closed hopen]

/-- Without an old block there is nothing of it to pin. -/
theorem old_kept (hlegacy : legacyBlock config = none) :
    (pinnedConfig fetch config).proxmox = config.proxmox := by
  refine map_repinned ?_
  cases hblock : config.proxmox with
  | none => exact not_open_empty
  | some block =>
      rw [legacyBlock, hblock] at hlegacy
      obtain rfl : block = {} := by simpa using hlegacy
      exact not_open_empty

theorem servers_pinned (hlegacy : legacyBlock config = none) :
    (pinnedConfig fetch config).proxmoxServers = config.proxmoxServers.map (repinFirst fetch) :=
      if_pos hlegacy

theorem getProxmoxServers_pinned (hlegacy : legacyBlock config = none) :
    (pinnedConfig fetch config).getProxmoxServers = repinFirst fetch config.getProxmoxServers := by
  rw [Config.getProxmoxServers, Config.getProxmoxServers, servers_pinned hlegacy]
  cases config.proxmoxServers <;> rfl

theorem head?_repinFirst (servers : List ProxmoxServer) :
    (repinFirst fetch servers).head?.map ProxmoxServer.toBlock =
    (servers.head?.map ProxmoxServer.toBlock).map (repinned fetch (some true)) := by
  cases servers <;> rfl

theorem getProxmoxConfig_pinned :
    (pinnedConfig fetch config).getProxmoxConfig =
      repinned fetch (some true) config.getProxmoxConfig := by
  cases hlegacy : legacyBlock config with
  | some legacy =>
      obtain ⟨hblock, hne⟩ := Option.filter_eq_some_iff.mp hlegacy
      have hpinned : legacyBlock (pinnedConfig fetch config) =
          some (repinned fetch (some true) legacy) := by
        rw [legacyBlock, pinnedConfig, hblock]
        exact Option.filter_eq_some_iff.mpr ⟨rfl,
          bne_iff_ne.mpr (repinned_ne_empty (bne_iff_ne.mp hne))⟩
      rw [@getProxmoxConfig_legacy ⟨pinnedConfig fetch config, ∅⟩ _ hpinned,
        @getProxmoxConfig_legacy ⟨config, ∅⟩ _ hlegacy]
  | none =>
      have hpinned : legacyBlock (pinnedConfig fetch config) = none := by
        rwa [legacyBlock, old_kept hlegacy]
      rw [getProxmoxConfig_list hpinned, getProxmoxConfig_list hlegacy, ← getD_repinned,
        getProxmoxServers_pinned hlegacy, head?_repinFirst]

theorem filter_given {text : String} (h : text ≠ "") : (some text).filter (· != "") = some text :=
  Option.filter_eq_some_iff.mpr ⟨rfl, bne_iff_ne.mpr h⟩

/-- With a list of servers the block is that of the first one, which is changed in its place. -/
theorem saveFirstServer_eq {first : ProxmoxServer} {rest : List ProxmoxServer} {found : Certificate}
    (hlegacy : legacyBlock s.config = none)
    (hservers : s.config.proxmoxServers = some (first :: rest)) (hopen : Unverified first.toBlock)
    (hfound : fetch (first.url.getD "") = some found) :
    saveFirstServer env s (first.url.getD "") found.pem found.fingerprint true =
      some { s with config := Integration.proxmox.pin fetch s.config } := by
  have hlist : s.config.getProxmoxServers = first :: rest := getProxmoxServers_of hservers
  have hpin : Integration.proxmox.pin fetch s.config =
      { s.config with proxmoxServers := some (repinFirst fetch (first :: rest)) } := by
    rw [Integration.pin, old_kept hlegacy, servers_pinned hlegacy, hservers]
    rfl
  rw [hpin, repinFirst, repinned_found hopen hfound, saveFirstServer,
    hlist, decide_eq_false hopen.2.2]
  dsimp only
  rw [updateProxmoxServer, hservers, Option.map_some, changeFirst,
    if_pos rfl, filter_given found.pem_ne,
    filter_given found.fingerprint_ne]
  rfl

/-- A Proxmox block that is not empty is the old one, or that of the first server. -/
theorem saveProxmoxConfig_eq {found : Certificate} (hopen : Unverified s.config.getProxmoxConfig)
    (hfound : fetch (s.config.getProxmoxConfig.url.getD "") = some found) :
    saveProxmoxConfig env s (s.config.getProxmoxConfig.url.getD "")
      found.pem found.fingerprint true =
      some { s with config := Integration.proxmox.pin fetch s.config } := by
  cases hlegacy : legacyBlock s.config with
  | some legacy =>
      have hblock := (Option.filter_eq_some_iff.mp hlegacy).1
      rw [getProxmoxConfig_legacy hlegacy] at hopen hfound ⊢
      rw [saveProxmoxConfig, if_neg (by simp [hlegacy]), if_pos hopen.2.2, hblock]
      have hpin : Integration.proxmox.pin fetch s.config =
          { s.config with proxmox := some (repinned fetch (some true) legacy) } := by
        have hservers : (pinnedConfig fetch s.config).proxmoxServers = s.config.proxmoxServers :=
          if_neg (by simp [hlegacy])
        rw [Integration.pin, hservers, pinnedConfig, hblock]
        rfl
      rw [hpin, repinned_found hopen hfound]
      simp [found.pem_ne, found.fingerprint_ne]
  | none =>
      have hconfig := getProxmoxConfig_list hlegacy
      cases hservers : s.config.proxmoxServers with
      | none =>
          rw [Config.getProxmoxServers, hservers] at hconfig
          rw [hconfig] at hopen
          exact absurd hopen not_unverified_empty
      | some servers =>
          rw [getProxmoxServers_of hservers] at hconfig
          cases servers with
          | nil =>
              rw [hconfig] at hopen
              exact absurd hopen not_unverified_empty
          | cons first rest =>
              rw [hconfig] at hopen hfound ⊢
              rw [saveProxmoxConfig, if_pos (by simp [hlegacy, hservers])]
              exact saveFirstServer_eq hlegacy hservers hopen hfound

theorem repinFirst_closed {servers : List ProxmoxServer}
    (h : ¬ Open fetch ((servers.head?.map ProxmoxServer.toBlock).getD {})) :
    repinFirst fetch servers = servers := by
  cases servers with
  | nil => rfl
  | cons first rest =>
      have hfirst : repinned fetch (some true) first.toBlock = first.toBlock := repinned_closed h
      rw [repinFirst, hfirst]

theorem pinProxmox_closed (h : ¬ Open fetch config.getProxmoxConfig) :
    Integration.proxmox.pin fetch config = config := by
  cases hlegacy : legacyBlock config with
  | some legacy =>
      have hblock := (Option.filter_eq_some_iff.mp hlegacy).1
      rw [@getProxmoxConfig_legacy ⟨config, ∅⟩ _ hlegacy] at h
      have hold : (pinnedConfig fetch config).proxmox = config.proxmox := by
        rw [pinnedConfig, hblock]
        exact congrArg some (repinned_closed h)
      have hservers : (pinnedConfig fetch config).proxmoxServers = config.proxmoxServers :=
        if_neg (by simp [hlegacy])
      rw [Integration.pin, hold, hservers]
  | none =>
      rw [getProxmoxConfig_list hlegacy] at h
      have hservers : config.proxmoxServers.map (repinFirst fetch) = config.proxmoxServers := by
        cases hlist : config.proxmoxServers with
        | none => rfl
        | some servers =>
            rw [getProxmoxServers_of hlist] at h
            exact congrArg some (repinFirst_closed h)
      rw [Integration.pin, old_kept hlegacy, servers_pinned hlegacy, hservers]

end Proxmox

section Loop

variable (env : Surroundings) {fetch : String → Option Certificate}
  {config : Config} {i j : Integration}

/-- The save for Portainer leaves the verification to its default. -/
def Integration.verifySsl : Integration → Option Bool
  | .portainer => none
  | _ => some true

theorem verifySsl_ne (i : Integration) : i.verifySsl ≠ some false := by cases i <;> decide

theorem saveCfg_eq {s : Settings} {found : Certificate} (hopen : Unverified (i.getCfg s.config))
    (hfound : fetch ((i.getCfg s.config).url.getD "") = some found) :
    i.saveCfg env s ((i.getCfg s.config).url.getD "") found.pem found.fingerprint =
      some { s with config := i.pin fetch s.config } := by
  cases i with
  | proxmox => exact saveProxmoxConfig_eq hopen hfound
  | proxmoxBackup =>
      exact congrArg (fun block =>
        some { s with config := { s.config with proxmoxBackup := block } })
        (savedBlock_eq hopen hfound)
  | opnsense =>
      exact congrArg (fun block => some { s with config := { s.config with opnsense := block } })
        (savedBlock_eq hopen hfound)
  | pfsense =>
      exact congrArg (fun block => some { s with config := { s.config with pfsense := block } })
        (savedBlock_eq hopen hfound)
  | portainer =>
      exact congrArg (fun block => some { s with config := { s.config with portainer := block } })
        (savedBlock_eq hopen hfound)

theorem pin_closed (h : ¬ Open fetch (i.getCfg config)) : i.pin fetch config = config := by
  cases i with
  | proxmox => exact pinProxmox_closed h
  | proxmoxBackup =>
      exact congrArg (fun block => { config with proxmoxBackup := block }) (map_repinned h)
  | opnsense => exact congrArg (fun block => { config with opnsense := block }) (map_repinned h)
  | pfsense => exact congrArg (fun block => { config with pfsense := block }) (map_repinned h)
  | portainer => exact congrArg (fun block => { config with portainer := block }) (map_repinned h)

theorem getCfg_pinned (i : Integration) :
    i.getCfg (pinnedConfig fetch config) = repinned fetch i.verifySsl (i.getCfg config) := by
  cases i with
  | proxmox => exact getProxmoxConfig_pinned
  | proxmoxBackup | opnsense | pfsense | portainer => exact getD_repinned _

theorem getCfg_pin_self (i : Integration) :
    i.getCfg (i.pin fetch config) = repinned fetch i.verifySsl (i.getCfg config) := by
  rw [← getCfg_pinned]
  cases i <;> rfl

/-- A round leaves the other integrations as they are. -/
theorem getCfg_pin_other (h : i ≠ j) : i.getCfg (j.pin fetch config) = i.getCfg config := by
  cases i <;> cases j <;> first | rfl | exact absurd rfl h

theorem autoPin_closed {s : Settings} (h : ¬ Open fetch (i.getCfg s.config)) :
    autoPin env fetch i s = none := by
  rw [autoPin]
  split
  · rfl
  · rename_i hnot
    dsimp only
    split
    · rfl
    · rename_i hurl
      rw [not_or, not_not, Bool.not_eq_true] at hnot
      cases hfound : fetch ((i.getCfg s.config).url.getD "") with
      | none => rfl
      | some found => exact absurd ⟨⟨hnot.1, hnot.2, hurl⟩, by rw [hfound]; rfl⟩ h

/-- What a round makes of the settings. -/
def round (fetch : String → Option Certificate) (i : Integration) (s : Settings) : Settings :=
  { s with config := i.pin fetch s.config }

theorem autoPin_open {s : Settings} (h : Open fetch (i.getCfg s.config)) :
    autoPin env fetch i s = some (round fetch i s) := by
  obtain ⟨hopen, hsome⟩ := h
  obtain ⟨found, hfound⟩ := Option.isSome_iff_exists.mp hsome
  have hverify : ¬ ((i.getCfg s.config).verifySsl ≠ some false ∨
      Text.given (i.getCfg s.config).pinnedCertPem = true) := by simp [hopen.1, hopen.2.1]
  rw [autoPin, if_neg hverify]
  dsimp only
  rw [if_neg hopen.2.2, hfound]
  exact saveCfg_eq env hopen hfound

variable (fetch)

theorem round_settles : Settles (round fetch) fun i s => ¬ Open fetch (i.getCfg s.config) where
  skips i s hclosed := congrArg (Settings.mk · s.store) (pin_closed hclosed)
  finishes i s := by
    rw [round, getCfg_pin_self]
    exact repinned_settled (verifySsl_ne i) _
  keeps i j s hclosed := by
    by_cases hij : i = j
    · rw [hij, round, getCfg_pin_self]
      exact repinned_settled (verifySsl_ne j) _
    · rwa [round, getCfg_pin_other hij]

/-- The names that are pinned, which can be told before the loop. -/
def toPin (is : List Integration) (s : Settings) : List String :=
  (is.filter fun i => Open fetch (i.getCfg s.config)).map Integration.name

theorem pinAll_from {is : List Integration} (his : is.Nodup) (s : Settings) (names : List String) :
    is.foldl (fun done i => (autoPin env fetch i done.1).elim done fun s =>
      (s, done.2 ++ [i.name])) (s, names) =
      (sweep (round fetch) is s, names ++ toPin fetch is s) := by
  induction is generalizing s names with
  | nil => simp [sweep, toPin]
  | cons i is ih =>
      obtain ⟨hnot, hrest⟩ := List.nodup_cons.mp his
      rw [List.foldl_cons, sweep, List.foldl_cons]
      by_cases hopen : Open fetch (i.getCfg s.config)
      · have hlater : toPin fetch is (round fetch i s) = toPin fetch is s := by
          refine congrArg (List.map Integration.name) (List.filter_congr fun j hj => ?_)
          have hother : j ≠ i := fun heq => hnot (heq ▸ hj)
          rw [round, getCfg_pin_other hother]
        rw [autoPin_open env hopen, Option.elim_some, ih hrest, hlater]
        simp [toPin, hopen, sweep]
      · rw [autoPin_closed env hopen, Option.elim_none, ih hrest,
          (round_settles fetch).skips i s hopen]
        simp [toPin, hopen, sweep]

theorem pinAll_eq {is : List Integration} (his : is.Nodup) (s : Settings) :
    pinAll env fetch is s = (sweep (round fetch) is s, toPin fetch is s) := by
  rw [pinAll, pinAll_from env fetch his, List.nil_append]

theorem sweep_integrations (s : Settings) :
    sweep (round fetch) integrations s = { s with config := pinnedConfig fetch s.config } := rfl

end Loop

section Migration

variable (env : Surroundings) (fetch : String → Option Certificate)

theorem integrations_nodup : integrations.Nodup := by decide

theorem migrate_marked {w : World} (h : w.tofuMigrated = true) :
    migrateTofuCerts env fetch w = w := if_pos h

theorem interrupted_marked {w : World} (h : w.tofuMigrated = true) (cut : Cut) :
    interrupted env fetch w cut = w := if_pos h

theorem migrate_unmarked {w : World} (h : w.tofuMigrated = false) :
    migrateTofuCerts env fetch w =
      ⟨sweep (round fetch) integrations w.settings, true,
        if toPin fetch integrations w.settings = [] then w.notices
        else w.notices ++ [notice (toPin fetch integrations w.settings)]⟩ := by
  rw [migrateTofuCerts, if_neg (by simp [h])]
  simp only [pinAll_eq env fetch integrations_nodup]

/-- Starts that are cut off: the sweeps within the loop can be resumed, and the mark ends them. -/
theorem interrupted_run (cuts : List Cut) (s : Settings) (notices : List (String × String)) :
    let reached := cuts.foldl (interrupted env fetch) ⟨s, false, notices⟩
    reached.notices = notices ∧ reached.tofuMigrated = decide (.unnoticed ∈ cuts) ∧
      (migrateTofuCerts env fetch reached).settings = sweep (round fetch) integrations s := by
  induction cuts generalizing s with
  | nil => exact ⟨rfl, rfl, by rw [List.foldl_nil, migrate_unmarked env fetch rfl]⟩
  | cons cut cuts ih =>
      rw [List.foldl_cons]
      cases cut with
      | inLoop rounds =>
          have hnodup : (integrations.take rounds).Nodup :=
            integrations_nodup.sublist (List.take_sublist rounds integrations)
          have hcut : interrupted env fetch ⟨s, false, notices⟩ (.inLoop rounds) =
              ⟨sweep (round fetch) (integrations.take rounds) s, false, notices⟩ := by
            rw [interrupted, if_neg (by simp)]
            simp only [pinAll_eq env fetch hnodup]
          rw [hcut]
          obtain ⟨hnotices, hmarked, hsettings⟩ :=
            ih (sweep (round fetch) (integrations.take rounds) s)
          refine ⟨hnotices, by rw [hmarked]; simp, ?_⟩
          rw [hsettings, (round_settles fetch).sweep_resumed]
      | unnoticed =>
          have hcut : interrupted env fetch ⟨s, false, notices⟩ .unnoticed =
              ⟨sweep (round fetch) integrations s, true, notices⟩ := by
            rw [interrupted, if_neg (by simp)]
            simp only [pinAll_eq env fetch integrations_nodup]
          have hrest : ∀ w : World, w.tofuMigrated = true →
              cuts.foldl (interrupted env fetch) w = w :=
            fun w hw => List.foldl_fixed' (interrupted_marked env fetch hw) cuts
          rw [hcut, hrest _ rfl]
          exact ⟨rfl, by simp, by rw [migrate_marked env fetch rfl]⟩

def selfSigned : Certificate := ⟨"MIIB", "ab:12", by decide, by decide⟩

/-- Two integrations that nothing verifies, and one that is verified. -/
def unverified : Installation where
  config :=
    { proxmoxBackup := some { url := some "https://10.0.0.5:8007", verifySsl := some false }
      opnsense := some { url := some "https://10.0.0.1/", verifySsl := some false }
      pfsense := some { url := some "https://10.0.0.2" } }

end Migration

end Keepup.Tofu
