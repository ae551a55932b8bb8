import Keepup.Hosts.Dispatch

/-!
Where a check, an upgrade and the Docker discovery of one host end up. The
three dispatch on their own, and the theorem says for which hosts and
credentials they reach the same machine in the same way.
-/

namespace Keepup

open Lib

/-- The way to a host: plain SSH, the node itself, or a guest through `pct exec`. -/
inductive Way where
  | plain
  | node
  | pct
deriving DecidableEq

/-- What an operation does to reach a host. The guest and the server are those
of its `pct exec`. -/
structure Reach where
  way : Way
  connection : Option Connection
  vmid : Option Int := none
  server : Option (Block × Entry) := none

section Operations

variable (env : Surroundings) (config : Config) (store : Store)

def throughGuest (host : HostEntry) (vmid : Int) (connection : Option Connection) : Reach where
  way := .pct
  connection := connection
  vmid := some vmid
  server := some (serverContext config store host)

/-- The connection of the check and of the upgrade of an LXC. -/
def lxcConnection (host : HostEntry) : Option Connection :=
  match clientFromConfig config store host, lxcSshContext env config store host with
  | .ok _, some (sshHost, sshCreds) => pctConnect sshHost sshCreds
  | _, _ => none

/-- The connection of the reboot check and of the upgrade of a node. -/
def nodeConnection (host : HostEntry) : Option Connection :=
  (nodeSshContext env config store host).bind fun context => connect context.1 context.2

/-- The reboot check by which the check of a node opens its connection. -/
def nodeRebootConnection (host : HostEntry) : Option Connection :=
  match clientFromConfig config store host with
  | .error _ => none
  | .ok _ =>
      match resolveKind config host with
      | .node => if host.host = "" then none else nodeConnection env config store host
      | .lxc => none
      | .plain | .vm => connect host.sshHost ∅

def scanHost (host : HostEntry) (creds : Entry) : Reach :=
  if Text.given host.proxmoxNode then
    match host.proxmoxVmid with
    | some vmid => throughGuest config store host vmid (lxcConnection env config store host)
    | none => { way := .node, connection := nodeRebootConnection env config store host }
  else { way := .plain, connection := connect host.sshHost creds }

def runOsUpdate (host : HostEntry) (creds : Entry) : Reach :=
  match resolveKind config host, host.proxmoxVmid with
  | .lxc, some vmid => throughGuest config store host vmid (lxcConnection env config store host)
  | .node, _ => { way := .node, connection := nodeConnection env config store host }
  | _, _ => { way := .plain, connection := connect host.sshHost creds }

/-- The host's Docker daemon is reached through `pct exec` on a node. -/
def isPctHost (host : HostEntry) : Bool :=
  Text.given host.proxmoxNode && host.proxmoxVmid.isSome &&
    Text.orElse host.proxmoxType "lxc" == "lxc"

/-- The connection for Docker commands in the guests of a server. -/
def guestDockerConnection (server : Block × Entry) (address : String) : Option Connection := do
  let (pxCfg, pxCreds) := server
  let hostname ← env.urlHostname (pxCfg.url.getD "")
  let sshUser := pxCreds.getD "ssh_user" (.str "")
  let sshKey := pxCreds.getD "ssh_key" (.str "")
  let sshPassword := pxCreds.getD "ssh_password" (.str "")
  let user := if sshUser.truthy then sshUser else .str "root"
  let key ← storedKeyPath env sshKey
  let sshCreds := if sshKey.truthy = false ∧ sshPassword.truthy = true then
    (∅ : Entry).set "ssh_password" sshPassword else ∅
  connect ⟨Text.orElse hostname address, some user, some (.int 22), key⟩ sshCreds

def sshParamsFor (host : HostEntry) : Reach :=
  match host.proxmoxVmid with
  | some vmid =>
      if isPctHost host then
        throughGuest config store host vmid
          (guestDockerConnection env (serverContext config store host) host.host)
      else { way := .plain, connection := connect host.sshHost (store.getCredentials host.slug) }
  | none => { way := .plain, connection := connect host.sshHost (store.getCredentials host.slug) }

end Operations

/-- Two operations go the same way, and where both open a connection it is the
same one, to the same guest and through the same server. -/
def Reach.Same (r s : Reach) : Prop :=
  r.way = s.way ∧ ∀ c d, r.connection = some c → s.connection = some d →
    c = d ∧ r.vmid = s.vmid ∧ r.server = s.server

section Conditions

/-- The check of a guest opens a connection: its server has an address and a token,
the host name and the key file can be resolved, there is a key or a password,
and the user is not blank. -/
structure PctReady (env : Surroundings) (server : Block × Entry) : Prop where
  url : server.1.url.getD "" ≠ ""
  token : (assembleToken server.2).truthy = true
  hostname : (env.urlHostname (server.1.url.getD "")).isSome = true
  key : (storedKeyPath env (server.2.getD "ssh_key" (.str ""))).isSome = true
  secret : (server.2.getD "ssh_key" (.str "")).truthy = true ∨
    (server.2.getD "ssh_password" (.str "")).truthy = true
  user : (sshUser (some (server.2.getD "ssh_user" (.str "root")))).isSome = true

/-- The port is the standard one, and there are not both a key and a password. -/
def StandardLogin (creds : Entry) : Prop :=
  creds.getD "ssh_port" (.int 22) = .int 22 ∧
    ¬ ((creds.getD "ssh_key" (.str "")).truthy = true ∧
      (creds.getD "ssh_password" (.str "")).truthy = true)

/-- A plain host, or an LXC whose server is configured and, where its check opens a
connection at all, has a standard login. -/
def Uniform (env : Surroundings) (config : Config) (store : Store) (host : HostEntry) : Prop :=
  Text.given host.proxmoxNode = false ∨
    (host.proxmoxVmid.isSome = true ∧ Text.orElse host.proxmoxType "lxc" = "lxc" ∧
      isOrphaned config host = false ∧
      (PctReady env (serverContext config store host) →
        StandardLogin (serverContext config store host).2))

end Conditions

section Logins

variable {env : Surroundings} {server : Block × Entry} {address : String}

theorem clientOf_ok (serverId : String) :
    (∃ client, clientOf serverId server = .ok client) ↔
      server.1.url.getD "" ≠ "" ∧ (assembleToken server.2).truthy = true := by
  simp only [clientOf]
  split
  · next hbad =>
      constructor
      · rintro ⟨client, hclient⟩
        cases hclient
      · rintro ⟨hurl, htoken⟩
        rcases hbad with hempty | hfalse
        · exact absurd hempty hurl
        · rw [htoken] at hfalse
          cases hfalse
  · next hgood =>
      obtain ⟨hurl, htoken⟩ := not_or.mp hgood
      exact ⟨fun _ => ⟨hurl, by simpa using htoken⟩, fun _ => ⟨_, rfl⟩⟩

/-- A resolved path is there exactly when a key is stored, and it is not empty. -/
theorem storedKeyPath_eq {sshKey : Scalar} {path : Option String}
    (hpath : storedKeyPath env sshKey = some path) :
    (path.isSome = true ↔ sshKey.truthy = true) ∧ ∀ p, path = some p → p ≠ "" := by
  unfold storedKeyPath at hpath
  split at hpath
  · next hkey =>
      obtain ⟨p, hp, rfl⟩ := Option.map_eq_some_iff.mp hpath
      refine ⟨by simp [hkey], fun q hq => ?_⟩
      obtain rfl : p = q := Option.some.inj hq
      cases sshKey with
      | str name => exact env.path_ne name p hp
      | bool b => cases hp
      | int n => cases hp
  · next hkey =>
      obtain rfl := Option.some.inj hpath
      simpa using hkey

/-- The password if there is one, else the key file. -/
def passwordFirst (password : Scalar) (path : Option String) : Auth :=
  if password.truthy then .password password
  else (path.map fun p => Auth.keyFile (.str p)).getD .default

/-- The key file if there is one, else the password. -/
def keyFirst (password : Scalar) (path : Option String) : Auth :=
  match path with
  | some p => .keyFile (.str p)
  | none => if password.truthy then .password password else .default

theorem passwordFirst_eq_keyFirst {password : Scalar} {path : Option String} :
    passwordFirst password path = keyFirst password path ↔
      ¬ (path.isSome = true ∧ password.truthy = true) := by
  cases path with
  | none => simp [passwordFirst, keyFirst]
  | some p => cases h : password.truthy <;> simp [passwordFirst, keyFirst, h]

/-- The login that a check and an upgrade make of a node's credentials. -/
theorem pctConnect_login {user port password : Scalar} {path : Option String}
    (hne : ∀ p, path = some p → p ≠ "") :
    pctConnect address (nodeLogin (((∅ : Entry).set "user" user).set "port" port) password path) =
      if path = none ∧ password.truthy = false then none
      else (sshUser (some user)).map fun username =>
        ⟨address, port, username, passwordFirst password path⟩ := by
  cases path with
  | none =>
      simp [pctConnect, connect, sshAuth, nodeLogin, Dict.getD, Text.given, Text.orElse,
        passwordFirst]
  | some p =>
      have hp := hne p rfl
      simp [pctConnect, connect, sshAuth, nodeLogin, Dict.getD, hp, passwordFirst]

/-- The login of the Docker discovery. -/
theorem dockerConnect_login {user : Scalar} {sshKey password : Scalar} {path : Option String}
    (hpath : storedKeyPath env sshKey = some path) :
    connect ⟨address, some user, some (.int 22), path⟩
        (if sshKey.truthy = false ∧ password.truthy = true then
          (∅ : Entry).set "ssh_password" password else ∅) =
      (sshUser (some user)).map fun username =>
        ⟨address, .int 22, username, keyFirst password path⟩ := by
  obtain ⟨hkey, hne⟩ := storedKeyPath_eq hpath
  cases path with
  | none =>
      have hkeyless : sshKey.truthy = false := by simpa using hkey
      cases hpassword : password.truthy <;>
        simp [connect, sshAuth, Dict.getD, hkeyless, hpassword, Text.given, Text.orElse, keyFirst]
  | some p =>
      have hkeyed : sshKey.truthy = true := by simpa using hkey
      have hp := hne p rfl
      simp [connect, sshAuth, Dict.getD, hkeyed, Text.given, Text.orElse, hp, keyFirst]

/-- Where the check finds a user, the Docker discovery finds the same. -/
theorem dockerUser_eq {creds : Entry}
    (huser : (sshUser (some (creds.getD "ssh_user" (.str "root")))).isSome = true) :
    (if (creds.getD "ssh_user" (.str "")).truthy = true then creds.getD "ssh_user" (.str "")
      else .str "root") = creds.getD "ssh_user" (.str "root") := by
  unfold Dict.getD at huser ⊢
  cases hstored : creds.get? "ssh_user" with
  | none => rfl
  | some value =>
      rw [hstored] at huser
      have htruthy : value.truthy = true := by
        cases value with
        | str u =>
            by_contra hempty
            obtain rfl : u = "" := by simpa using hempty
            exact absurd huser (by decide)
        | bool b => cases huser
        | int n => cases huser
      simp [htruthy]

end Logins

section Host

variable {env : Surroundings} {config : Config} {store : Store} {host : HostEntry}

/-- A check or an upgrade of an LXC that has all it needs opens a connection, and so
does the Docker discovery. The two are the same exactly for a standard login. -/
theorem lxc_connections (hready : PctReady env (serverContext config store host)) :
    ∃ c d, lxcConnection env config store host = some c ∧
      guestDockerConnection env (serverContext config store host) host.host = some d ∧
      (c = d ↔ StandardLogin (serverContext config store host).2) := by
  obtain ⟨client, hclient⟩ :=
    (clientOf_ok (Text.orElse host.proxmoxServer "")).mpr ⟨hready.url, hready.token⟩
  have hcheck : lxcConnection env config store host =
      (guestLogin env (serverContext config store host) host.host).bind
        fun context => pctConnect context.1 context.2 := by
    simp only [lxcConnection, clientFromConfig, hclient, lxcSshContext]
    cases guestLogin env (serverContext config store host) host.host <;> rfl
  rw [hcheck]
  generalize serverContext config store host = server at *
  obtain ⟨pxCfg, pxCreds⟩ := server
  obtain ⟨hostname, hname⟩ := Option.isSome_iff_exists.mp hready.hostname
  obtain ⟨path, hpath⟩ := Option.isSome_iff_exists.mp hready.key
  obtain ⟨username, huser⟩ := Option.isSome_iff_exists.mp hready.user
  obtain ⟨hkey, hne⟩ := storedKeyPath_eq hpath
  have hsecret : ¬ (path = none ∧ (pxCreds.getD "ssh_password" (.str "")).truthy = false) := by
    rintro ⟨rfl, hno⟩
    rcases hready.secret with hkeyed | hpassword
    · exact absurd (hkey.mpr hkeyed) (by simp)
    · rw [hno] at hpassword
      cases hpassword
  have hlogin : (guestLogin env (pxCfg, pxCreds) host.host).bind
      (fun context => pctConnect context.1 context.2) = some ⟨Text.orElse hostname host.host,
        pxCreds.getD "ssh_port" (.int 22), username,
        passwordFirst (pxCreds.getD "ssh_password" (.str "")) path⟩ := by
    simp only [guestLogin, hname, hpath, Option.bind_eq_bind, Option.bind_some,
      pctConnect_login hne, if_neg hsecret, huser, Option.map_some]
  have hdocker : guestDockerConnection env (pxCfg, pxCreds) host.host =
      some ⟨Text.orElse hostname host.host, .int 22, username,
        keyFirst (pxCreds.getD "ssh_password" (.str "")) path⟩ := by
    simp only [guestDockerConnection, hname, hpath, Option.bind_eq_bind, Option.bind_some,
      dockerUser_eq hready.user, dockerConnect_login hpath, huser, Option.map_some]
  refine ⟨_, _, hlogin, hdocker, ?_⟩
  simp only [Connection.mk.injEq, true_and, passwordFirst_eq_keyFirst, hkey, StandardLogin]

/-- A check that opens a connection had all it needs. -/
theorem ready_of_lxcConnection {c : Connection}
    (hopen : lxcConnection env config store host = some c) :
    PctReady env (serverContext config store host) := by
  unfold lxcConnection at hopen
  split at hopen
  · next client sshHost sshCreds hclient hcontext =>
      obtain ⟨hurl, htoken⟩ := (clientOf_ok _).mp ⟨client, hclient⟩
      unfold lxcSshContext at hcontext
      generalize serverContext config store host = server at *
      obtain ⟨pxCfg, pxCreds⟩ := server
      simp only [guestLogin, Option.bind_eq_bind, Option.bind_eq_some_iff, Option.some.injEq,
        Prod.mk.injEq] at hcontext
      obtain ⟨hostname, hname, path, hpath, rfl, rfl⟩ := hcontext
      obtain ⟨hkey, hne⟩ := storedKeyPath_eq hpath
      rw [pctConnect_login hne] at hopen
      split at hopen
      · cases hopen
      · next hsecret =>
          obtain ⟨username, huser, _⟩ := Option.map_eq_some_iff.mp hopen
          refine ⟨hurl, htoken, by simp [hname], by simp [hpath], ?_, by simp [huser]⟩
          by_cases hkeyed : path.isSome = true
          · exact .inl (hkey.mp hkeyed)
          · refine .inr (by_contra fun hno => hsecret ⟨?_, by simpa using hno⟩)
            simpa using hkeyed
  · cases hopen

theorem Reach.same_self {r : Reach} : r.Same r :=
  ⟨rfl, fun _ _ hc hd => ⟨Option.some.inj (hc.symm.trans hd), rfl, rfl⟩⟩

/-- The three operations over an LXC whose server is configured. -/
theorem lxc_reaches (env : Surroundings) (store : Store) (creds : Entry) {vmid : Int}
    (hnode : Text.given host.proxmoxNode = true) (hvmid : host.proxmoxVmid = some vmid)
    (htype : Text.orElse host.proxmoxType "lxc" = "lxc")
    (howned : isOrphaned config host = false) :
    scanHost env config store host creds =
        throughGuest config store host vmid (lxcConnection env config store host) ∧
      runOsUpdate env config store host creds =
        throughGuest config store host vmid (lxcConnection env config store host) ∧
      sshParamsFor env config store host = throughGuest config store host vmid
        (guestDockerConnection env (serverContext config store host) host.host) := by
  have hkind : resolveKind config host = .lxc := by
    simp [resolveKind, classifyHost, howned, hnode, hvmid, htype]
  refine ⟨?_, ?_, ?_⟩
  · simp [scanHost, hnode, hvmid]
  · simp [runOsUpdate, hkind, hvmid]
  · simp [sshParamsFor, isPctHost, hnode, hvmid, htype]

/-- Any other Proxmox host is not taken for the same kind by all three. -/
theorem ways_differ (env : Surroundings) (store : Store) (creds : Entry)
    (hnode : Text.given host.proxmoxNode = true)
    (hother : ¬ (host.proxmoxVmid.isSome = true ∧ Text.orElse host.proxmoxType "lxc" = "lxc" ∧
      isOrphaned config host = false)) :
    (scanHost env config store host creds).way ≠ (runOsUpdate env config store host creds).way ∨
      (scanHost env config store host creds).way ≠ (sshParamsFor env config store host).way := by
  cases hvmid : host.proxmoxVmid with
  | none => exact .inr (by simp [scanHost, sshParamsFor, hnode, hvmid])
  | some vmid =>
      have hscan : (scanHost env config store host creds).way = .pct := by
        simp [scanHost, hnode, hvmid, throughGuest]
      rw [hscan]
      by_cases htype : Text.orElse host.proxmoxType "lxc" = "lxc"
      · have horphan : isOrphaned config host = true := by
          by_contra howned
          exact hother ⟨by simp [hvmid], htype, by simpa using howned⟩
        exact .inl (by simp [runOsUpdate, resolveKind, horphan])
      · exact .inr (by simp [sshParamsFor, isPctHost, hvmid, htype])

/-- The check and the Docker discovery of an LXC agree exactly where the check opens
no connection or the login is a standard one. -/
theorem lxc_same_iff (vmid : Int) :
    (throughGuest config store host vmid (lxcConnection env config store host)).Same
        (throughGuest config store host vmid
          (guestDockerConnection env (serverContext config store host) host.host)) ↔
      (PctReady env (serverContext config store host) →
        StandardLogin (serverContext config store host).2) := by
  constructor
  · rintro ⟨_, hsame⟩ hready
    obtain ⟨c, d, hc, hd, hiff⟩ := lxc_connections hready
    exact hiff.mp (hsame c d hc hd).1
  · refine fun hstandard => ⟨rfl, fun c d hc hd => ⟨?_, rfl, rfl⟩⟩
    have hready := ready_of_lxcConnection hc
    obtain ⟨c', d', hc', hd', hiff⟩ := lxc_connections hready
    obtain rfl : c' = c := Option.some.inj (hc'.symm.trans hc)
    obtain rfl : d' = d := Option.some.inj (hd'.symm.trans hd)
    exact hiff.mpr (hstandard hready)

/-- A host without a Proxmox node is reached by the same plain connection. -/
theorem plain_reaches (env : Surroundings) (store : Store)
    (hplain : Text.given host.proxmoxNode = false) :
    let reach : Reach :=
      { way := .plain, connection := connect host.sshHost (store.getCredentials host.slug) }
    scanHost env config store host (store.getCredentials host.slug) = reach ∧
      runOsUpdate env config store host (store.getCredentials host.slug) = reach ∧
      sshParamsFor env config store host = reach := by
  have hkind : resolveKind config host = .plain := by simp [resolveKind, classifyHost, hplain]
  refine ⟨?_, ?_, ?_⟩
  · simp [scanHost, hplain]
  · simp [runOsUpdate, hkind]
  · unfold sshParamsFor
    cases host.proxmoxVmid <;> simp [isPctHost, hplain]

end Host

/-- The check, the upgrade and the Docker discovery of a host, the first two with
its stored credentials, reach the same machine in the same way. -/
def ReachOneMachine (env : Surroundings) (config : Config) (store : Store) (host : HostEntry) :
    Prop :=
  let scan := scanHost env config store host (store.getCredentials host.slug)
  let update := runOsUpdate env config store host (store.getCredentials host.slug)
  let docker := sshParamsFor env config store host
  scan.Same update ∧ scan.Same docker ∧ update.Same docker

/-- The three operations reach one machine exactly for the uniform hosts. -/
theorem reach_one_machine_iff (env : Surroundings) (config : Config) (store : Store)
    (host : HostEntry) : ReachOneMachine env config store host ↔ Uniform env config store host := by
  simp only [ReachOneMachine, Uniform]
  by_cases hplain : Text.given host.proxmoxNode = false
  · obtain ⟨hscan, hrun, hdocker⟩ := plain_reaches env store hplain
    rw [hscan, hrun, hdocker]
    exact ⟨fun _ => .inl hplain, fun _ => ⟨Reach.same_self, Reach.same_self, Reach.same_self⟩⟩
  have hnode : Text.given host.proxmoxNode = true := by simpa using hplain
  by_cases hlxc : host.proxmoxVmid.isSome = true ∧
      Text.orElse host.proxmoxType "lxc" = "lxc" ∧ isOrphaned config host = false
  · obtain ⟨hvmid, htype, howned⟩ := hlxc
    obtain ⟨vmid, hsome⟩ := Option.isSome_iff_exists.mp hvmid
    obtain ⟨hscan, hrun, hdocker⟩ := lxc_reaches env store (store.getCredentials host.slug)
      hnode hsome htype howned
    rw [hscan, hrun, hdocker, lxc_same_iff]
    constructor
    · exact fun hall => .inr ⟨hvmid, htype, howned, hall.2.1⟩
    · intro huniform
      obtain ⟨_, _, _, hstandard⟩ := huniform.resolve_left hplain
      exact ⟨Reach.same_self, hstandard, hstandard⟩
  · constructor
    · rintro ⟨hrun, hdocker, _⟩
      rcases ways_differ env store (store.getCredentials host.slug) hnode hlxc with hne | hne
      · exact absurd hrun.1 hne
      · exact absurd hdocker.1 hne
    · intro huniform
      obtain ⟨hvmid, htype, howned, _⟩ := huniform.resolve_left hplain
      exact absurd ⟨hvmid, htype, howned⟩ hlxc

section Vm

/-- A configured server with a key for its nodes, and a VM on it. -/
def vmConfig : Config where
  proxmoxServers := some [{ id := "pve", url := some "https://10.0.0.1:8006" }]

def vmHost : HostEntry where
  name := "db"
  host := "10.0.0.7"
  user := some "admin"
  proxmoxNode := some "pve"
  proxmoxVmid := some 100
  proxmoxType := some "vm"
  proxmoxServer := some "pve"

def vmStore : Store :=
  (∅ : Store).set "__integration_proxmox_pve__"
    (((∅ : Entry).set "token_id" (.str "root@pam!keepup")).set "ssh_key" (.str "id_ed25519"))

def vmSurroundings : Surroundings where
  resolveKeyPath name := some ("/app/keys/" ++ name)
  path_ne name path h := by
    rw [← Option.some.inj h]
    intro hempty
    have hlength := congrArg String.length hempty
    simp at hlength
  urlChecks := .ascii

/-- The check of the VM runs on its node through `pct exec`, and its upgrade logs in
to the VM. -/
theorem vm_reaches_differ :
    (scanHost vmSurroundings vmConfig vmStore vmHost ∅).way = .pct ∧
      (runOsUpdate vmSurroundings vmConfig vmStore vmHost ∅).way = .plain ∧
      ¬ ReachOneMachine vmSurroundings vmConfig vmStore vmHost := by
  have hscan : ∀ creds, (scanHost vmSurroundings vmConfig vmStore vmHost creds).way = .pct :=
    fun _ => rfl
  have hrun : ∀ creds, (runOsUpdate vmSurroundings vmConfig vmStore vmHost creds).way = .plain := by
    intro creds
    have hkind : resolveKind vmConfig vmHost = .vm := by decide
    simp [runOsUpdate, hkind]
  refine ⟨hscan ∅, hrun ∅, fun hone => ?_⟩
  have hway := hone.1.1
  rw [hscan, hrun] at hway
  cases hway

end Vm

end Keepup
