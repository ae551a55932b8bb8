import Keepup.Config.Hosts
import Keepup.Proxmox.Migration

/-!
What else the configuration file holds and who writes it: the blocks of the
single integrations, the schedules of the stacks, the interval of the update
check. The file and the credential store together are what a factory reset
clears.
-/

namespace Keepup

open Lib Proxmox

structure StackAutoUpdate where
  enabled : Bool
  schedule : String
  name : String
deriving DecidableEq

/-- The file. An empty map of stack schedules is not written. -/
structure ConfigFile extends Config where
  stackAutoUpdate : Dict String StackAutoUpdate := ∅
  updateCheckHours : Nat := 6
deriving DecidableEq

namespace Config

section Integrations

variable (config : Config)

/-- The block of an integration after a save: gone without a URL, and with the
certificate pinned before when no other one is given. -/
def savedBlock (existing : Option Block) (url pinnedCertPem pinnedFingerprint : String)
    (verifySsl : Option Bool) : Option Block :=
  let old := existing.getD {}
  let pem := if pinnedCertPem ≠ "" then pinnedCertPem else old.pinnedCertPem.getD ""
  let fp := if pinnedFingerprint ≠ "" then pinnedFingerprint else old.pinnedFingerprint.getD ""
  if url = "" then none
  else some {
    url := some (Text.rstripChar '/' url)
    verifySsl := verifySsl
    pinnedCertPem := if pem ≠ "" then some pem else none
    pinnedFingerprint := if pem ≠ "" then some fp else none }

def savePortainerConfig (url pinnedCertPem pinnedFingerprint : String) : Config :=
  { config with portainer := savedBlock config.portainer url pinnedCertPem pinnedFingerprint none }

def savePbsConfig (url pinnedCertPem pinnedFingerprint : String) (verifySsl : Bool) : Config :=
  { config with proxmoxBackup :=
      savedBlock config.proxmoxBackup url pinnedCertPem pinnedFingerprint (some verifySsl) }

def saveOpnsenseConfig (url pinnedCertPem pinnedFingerprint : String) (verifySsl : Bool) : Config :=
  { config with opnsense :=
      savedBlock config.opnsense url pinnedCertPem pinnedFingerprint (some verifySsl) }

def savePfsenseConfig (url pinnedCertPem pinnedFingerprint : String) (verifySsl : Bool) : Config :=
  { config with pfsense :=
      savedBlock config.pfsense url pinnedCertPem pinnedFingerprint (some verifySsl) }

/-- The one block without a certificate. -/
def saveHomeassistantConfig (url : String) (verifySsl : Bool) : Config :=
  { config with homeassistant := savedBlock none url "" "" (some verifySsl) }

def saveDockerhubConfig (username : String) : Config :=
  { config with dockerhub := if username = "" then none else some username }

def savePushoverConfig (enabled : Bool) : Config := { config with pushover := some enabled }

def saveEmailConfig (block : EmailBlock) : Config := { config with email := some block }

end Integrations

end Config

namespace ConfigFile

variable (config : ConfigFile)

def setStackAutoUpdate (updatePath stackName : String) (enabled : Bool) (schedule : String) :
    ConfigFile :=
  { config with stackAutoUpdate :=
      if enabled then config.stackAutoUpdate.set updatePath ⟨true, schedule, stackName⟩
      else config.stackAutoUpdate.pop updatePath }

def updateCheckIntervals : List Nat := [0, 1, 6, 12, 24]

def saveUpdateCheckIntervalHours (hours : Nat) : ConfigFile :=
  { config with updateCheckHours := if hours ∈ updateCheckIntervals then hours else 6 }

/-- The keys that a factory reset removes. -/
def resetConfig : ConfigFile :=
  { config with
    hosts := []
    portainer := none
    dockerhub := none
    stackAutoUpdate := ∅
    proxmox := none
    proxmoxBackup := none
    opnsense := none
    pfsense := none
    homeassistant := none }

end ConfigFile

/-- The file and the credential store, as they are on the disk. -/
structure Installation where
  config : ConfigFile := {}
  store : Store := ∅
deriving DecidableEq

namespace Installation

variable (s : Installation)

/-- The part of the file that the functions on Proxmox servers work on. -/
def settings : Settings := ⟨s.config.toConfig, s.store⟩

def withSettings (t : Settings) : Installation :=
  { config := { s.config with toConfig := t.config }, store := t.store }

def withConfig (config : Config) : Installation :=
  { s with config := { s.config with toConfig := config } }

def wipeCredentialStore : Installation := { s with store := ∅ }

/-- Both files, one after the other. -/
def factoryReset : Installation :=
  let wiped := s.wipeCredentialStore
  { wiped with config := wiped.config.resetConfig }

end Installation

end Keepup
