import Keepup.Config.File
import Keepup.Proxmox.Saves

/-!
The pages of the wizard that add a host. Whether the connection succeeds and how
many containers are found on the host are parameters. A host with containers
waits in the session until its owner has said what to do with them.
-/

namespace Keepup.Setup

open Lib

/-- The posted fields of the page that adds a host. -/
structure AddForm where
  name : String := ""
  host : String := ""
  user : String := ""
  port : String := ""
  authMethod : String := "password"
  sshPassword : String := ""
  keyFile : String := ""
  enableAutoUpdate : String := ""

/-- A host as it waits in the session. -/
structure PendingHost where
  name : String
  host : String
  user : String
  port : String
  authMethod : String
  sshPassword : String
  keyFile : String
  autoUpdate : Bool

/-- `int(port)` for a text of digits. -/
def portOf (port : String) : Option Int := Proxmox.vmidOf (Text.strip port)

/-- The path of a key file, as these pages form it. -/
def keyPathOf (authMethod keyFile : String) : Option String :=
  if authMethod = "key" ∧ keyFile ≠ "" then some ("/app/keys/" ++ keyFile) else none

namespace AddForm

variable (form : AddForm)

/-- A field that has to be filled in is blank. -/
def incomplete : Bool :=
  Text.strip form.name == "" || Text.strip form.host == "" || Text.strip form.user == "" ||
    (form.authMethod == "password" && Text.strip form.sshPassword == "") ||
    (form.authMethod == "key" && form.keyFile == "")

def pending : PendingHost where
  name := Text.strip form.name
  host := Text.strip form.host
  user := Text.strip form.user
  port := form.port
  authMethod := form.authMethod
  sshPassword := if form.authMethod = "password" then Text.strip form.sshPassword else ""
  keyFile := form.keyFile
  autoUpdate := form.enableAutoUpdate == "on"

/-- The entry and the credentials with which the connection is tried. -/
def hostEntry : HostEntry where
  name := Text.strip form.name
  host := Text.strip form.host
  user := some (Text.strip form.user) |>.filter (· ≠ "")
  port := (portOf form.port).filter (· ≠ 0)
  key := keyPathOf form.authMethod form.keyFile

def creds : Entry :=
  let password := Text.strip form.sshPassword
  if form.authMethod = "password" ∧ password ≠ "" then
    ((∅ : Entry).set "ssh_password" (.str password)).set "sudo_password" (.str password)
  else ∅

end AddForm

namespace PendingHost

variable (pending : PendingHost)

def entry (dockerMode : Option String) : HostEntry :=
  Config.buildHostEntry pending.name pending.host (some pending.user |>.filter (· ≠ ""))
    (portOf pending.port) (keyPathOf pending.authMethod pending.keyFile)
      dockerMode none none none none

def slug : String := slugify pending.name

end PendingHost

section Handlers

variable (s : Installation)

/-- Write a host, its password and its schedule. -/
def recordHost (pending : PendingHost) (dockerMode : Option String) : Installation :=
  let added := s.withConfig (s.config.addHost (pending.entry dockerMode))
  let saved :=
    if pending.authMethod = "password" ∧ pending.sshPassword ≠ "" then
      { added with store := added.store.saveCredentials pending.slug
                     (some pending.sshPassword) none none }
    else added
  if pending.autoUpdate then
    saved.withConfig (saved.config.setHostAutoUpdate pending.slug true "weekly" false)
  else saved

/-- Both files, and what is put into the session. -/
def setupAddHost (form : AddForm) (connected : Bool) (containers : Nat) :
    Installation × Option PendingHost :=
  if form.incomplete ∨ connected = false then (s, none)
  else if 0 < containers then (s, some form.pending)
  else (recordHost s form.pending none, none)

/-- `pending` is what the session of the request holds. -/
def setupConfirmAddHost (pending : Option PendingHost) (enableDocker : String) : Installation :=
  match pending with
  | none => s
  | some pending => recordHost s pending (if enableDocker = "yes" then some "all" else none)

def setupRemoveHost (slug : String) : Installation :=
  { s.withConfig (s.config.deleteHost slug) with store := s.store.deleteCredentials slug }

end Handlers

section Recorded

variable {s : Installation} {pending : PendingHost} {dockerMode : Option String}

/-- What becomes of the configuration when a host is written. -/
theorem recordHost_config : (recordHost s pending dockerMode).config.toConfig =
    if pending.autoUpdate then
      (s.config.addHost (pending.entry dockerMode)).setHostAutoUpdate
        pending.slug true "weekly" false
    else s.config.addHost (pending.entry dockerMode) := by
  simp only [recordHost]
  split <;> split <;> rfl

end Recorded

end Keepup.Setup
