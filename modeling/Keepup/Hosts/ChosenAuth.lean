import Keepup.Hosts.Reach
import Keepup.Proxmox.SaveFrame

/-!
Which of a password and a key a connection uses after a form has saved one of the two.
The forms say with an empty text that the other one goes, and with nothing that it
stays. A connection with both prefers the password, but one for Docker in a guest
prefers the key.
-/

namespace Keepup

open Lib Proxmox

section Saves

/-- The two ways to log in that a form offers. -/
inductive Method where
  | password
  | key
deriving DecidableEq

/-- The posted fields of the form for the credentials of a host. -/
structure CredentialsForm where
  authMethod : String := "password"
  sshPassword : String := ""
  sshKey : String := ""
  sudoPassword : String := ""

/-- `s.strip() or None`. -/
def strippedOrNone (s : String) : Option String := stored (Text.strip s)

def CredentialsForm.savedPassword (form : CredentialsForm) : Option String :=
  if form.authMethod = "password" then strippedOrNone form.sshPassword else some ""

def CredentialsForm.savedKey (form : CredentialsForm) : Option String :=
  if form.authMethod = "key" then strippedOrNone form.sshKey else some ""

def adminSaveCredentials (store : Store) (slug : String) (form : CredentialsForm) : Store :=
  store.saveCredentials slug form.savedPassword form.savedKey (strippedOrNone form.sudoPassword)

/-- The forms that save a way to log in: those of a host, of the card of a Proxmox
server, and of the page of the wizard for its containers. -/
inductive LoginSave where
  | host (slug : String) (form : CredentialsForm)
  | card (form : SaveForm) (pem fp : String) (nodes : Option (List String))
  | wizard (form : LxcForm)

/-- The method with a non-blank secret for it that a form selects. -/
def selected (auth password key : String) : Option (Method × String) :=
  if auth = "password" ∧ Text.strip password ≠ "" then some (.password, Text.strip password)
  else if auth = "key" ∧ Text.strip key ≠ "" then some (.key, Text.strip key)
  else none

namespace LoginSave

def selection : LoginSave → Option (Method × String)
  | .host _ form => selected form.authMethod form.sshPassword form.sshKey
  | .card form _ _ _ => selected form.proxmoxSshAuth form.proxmoxSshPassword form.proxmoxSshKey
  | .wizard form => selected form.proxmoxSshAuth form.proxmoxSshPassword form.proxmoxSshKey

/-- What the save makes of the disk, and the key of the entry that it writes. -/
def run (env : Surroundings) (s : Settings) : LoginSave → Option (Settings × String)
  | .host slug form => some ({ s with store := adminSaveCredentials s.store slug form }, slug)
  | .card form pem fp nodes =>
      (setupSaveProxmox env s form pem fp nodes).map fun saved =>
        (saved.1, integrationKey (credentialKey saved.2))
  | .wizard form =>
      some (setupProxmoxSaveLxcs s form, integrationKey (credentialKey form.serverId))

end LoginSave

end Saves

section Openings

/-- What `_connect` is called for: a host with its own credentials, a command in a
guest, a Proxmox node, and Docker in a guest. -/
inductive Opening where
  | login (host : HostEntry)
  | pct (host : HostEntry)
  | node (host : HostEntry)
  | docker (host : HostEntry)

namespace Opening

/-- The entry whose secrets the connection uses. -/
def entry (s : Settings) : Opening → Entry
  | .login host => s.store.getCredentials host.slug
  | .pct host | .node host | .docker host => (serverContext s.config s.store host).2

def connection (env : Surroundings) (s : Settings) : Opening → Option Connection
  | .login host => connect host.sshHost (s.store.getCredentials host.slug)
  | .pct host =>
      (lxcSshContext env s.config s.store host).bind fun context => pctConnect context.1 context.2
  | .node host => nodeConnection env s.config s.store host
  | .docker host => guestDockerConnection env (serverContext s.config s.store host) host.host

/-- The entry of a host holds the text of a key, that of a server the name of a file. -/
def auth (env : Surroundings) : Opening → Method → String → Auth → Prop
  | _, .password, secret, auth => auth = .password (.str secret)
  | .login _, .key, secret, auth => auth = .privateKey (.str secret)
  | _, .key, secret, auth => ∃ path, env.resolveKeyPath secret = some path ∧
  auth = .keyFile (.str path)

/-- A secret of the other method is stored, and the connection prefers it. -/
def Shadowed (stored : Entry) : Opening → Method → Prop
  | .docker _, .password => (stored.getD "ssh_key" (.str "")).truthy = true
  | .docker _, .key => False
  | _, .key => (stored.getD "ssh_password" (.str "")).truthy = true
  | _, .password => False

end Opening

end Openings

section Logins

variable {env : Surroundings} {s : Settings} {opening : Opening} {connection : Connection}

/-- The connection to a node or to a guest through it. -/
theorem connect_nodeLogin {host : SshHost} {fields : Entry} {password : Scalar}
    {path : Option String} (hne : ∀ p, path = some p → p ≠ "")
    (hfree : fields.get? "ssh_key" = none) (hpath : fields.get? "key_path" = none)
    (hkey : host.key = none) (h : connect host (nodeLogin fields password path) = some connection) :
    connection.auth = passwordFirst password path := by
  obtain ⟨username, _, rfl⟩ := Option.map_eq_some_iff.mp h
  cases path with
  | none => simp [sshAuth, nodeLogin, Dict.getD, hfree, hpath,
      hkey, Text.given, Text.orElse, passwordFirst]
  | some p =>
      have hp := hne p rfl
      simp [sshAuth, nodeLogin, Dict.getD, hfree, hp, passwordFirst]

theorem pct_auth {host : HostEntry} (h : Opening.connection env s (.pct host) = some connection) :
    ∃ path, storedKeyPath env ((serverContext s.config s.store host).2.getD "ssh_key" (.str "")) =
        some path ∧ connection.auth =
      passwordFirst ((serverContext s.config s.store host).2.getD "ssh_password" (.str ""))
        path := by
  obtain ⟨⟨address, creds⟩, hcontext, hconnect⟩ := Option.bind_eq_some_iff.mp h
  simp only [lxcSshContext, guestLogin, Option.bind_eq_bind, Option.bind_eq_some_iff,
    Option.some_inj] at hcontext
  obtain ⟨hostname, _, path, hpath, hpair⟩ := hcontext
  obtain ⟨rfl, rfl⟩ := Prod.mk.inj hpair
  refine ⟨path, hpath, ?_⟩
  rw [pctConnect] at hconnect
  split at hconnect
  · cases hconnect
  · exact connect_nodeLogin (storedKeyPath_eq hpath).2 (by simp) (by simp) rfl hconnect

theorem node_auth {host : HostEntry} (h : Opening.connection env s (.node host) = some connection) :
    ∃ path, storedKeyPath env ((serverContext s.config s.store host).2.getD "ssh_key" (.str "")) =
        some path ∧ connection.auth =
      passwordFirst ((serverContext s.config s.store host).2.getD "ssh_password" (.str ""))
        path := by
  obtain ⟨⟨sshHost, creds⟩, hcontext, hconnect⟩ := Option.bind_eq_some_iff.mp h
  simp only [nodeSshContext, Option.bind_eq_bind, Option.bind_eq_some_iff, Option.some_inj]
    at hcontext
  obtain ⟨path, hpath, hpair⟩ := hcontext
  obtain ⟨rfl, rfl⟩ := Prod.mk.inj hpair
  exact ⟨path, hpath, connect_nodeLogin (storedKeyPath_eq hpath).2 (by simp) (by simp) rfl hconnect⟩

theorem docker_auth {host : HostEntry}
    (h : Opening.connection env s (.docker host) = some connection) :
    ∃ path, storedKeyPath env ((serverContext s.config s.store host).2.getD "ssh_key" (.str "")) =
        some path ∧ connection.auth =
      keyFirst ((serverContext s.config s.store host).2.getD "ssh_password" (.str "")) path := by
  simp only [Opening.connection, guestDockerConnection, Option.bind_eq_bind,
    Option.bind_eq_some_iff] at h
  obtain ⟨hostname, _, path, hpath, hconnect⟩ := h
  refine ⟨path, hpath, ?_⟩
  rw [dockerConnect_login hpath] at hconnect
  obtain ⟨username, _, rfl⟩ := Option.map_eq_some_iff.mp hconnect
  rfl

end Logins

section Saved

variable {env : Surroundings} {s t : Settings} {save : LoginSave} {key secret : String}

/-- The field of a method. -/
def Method.field : Method → String
  | .password => "ssh_password"
  | .key => "ssh_key"

def Method.other : Method → Method
  | .password => .key
  | .key => .password

/-- What a save leaves of the secret of the other method. -/
def LoginSave.left (stored : Entry) (method : Method) : LoginSave → Scalar
  | .wizard _ => stored.getD method.other.field (.str "")
  | .host _ _ | .card _ _ _ _ => .str ""

theorem selected_cases {auth password key : String} {method : Method}
    (h : selected auth password key = some (method, secret)) :
    (method = .password ∧ auth = "password" ∧ Text.strip password = secret ∧ secret ≠ "") ∨
      (method = .key ∧ auth = "key" ∧ Text.strip key = secret ∧ secret ≠ "") := by
  rw [selected] at h
  split at h
  · rename_i hpassword
    obtain ⟨rfl, rfl⟩ := Prod.mk.inj (Option.some.inj h)
    exact .inl ⟨rfl, hpassword.1, rfl, hpassword.2⟩
  · split at h
    · rename_i hkey
      obtain ⟨rfl, rfl⟩ := Prod.mk.inj (Option.some.inj h)
      exact .inr ⟨rfl, hkey.1, rfl, hkey.2⟩
    · cases h

theorem selection_ne {method : Method} (h : save.selection = some (method, secret)) :
    secret ≠ "" := by
  cases save with
  | host slug form => rcases selected_cases h with hcase | hcase <;> exact hcase.2.2.2
  | card form pem fp nodes => rcases selected_cases h with hcase | hcase <;> exact hcase.2.2.2
  | wizard form => rcases selected_cases h with hcase | hcase <;> exact hcase.2.2.2

section Fields

variable {stored : Entry} {fields : CredFields} {field : String}

theorem getD_posted (hnodup : (fields.map Prod.fst).Nodup)
    (hposted : (field, some (.str secret)) ∈ fields) :
    (stored.saveFields fields).getD field (.str "") = .str secret := by
  rw [Dict.getD, Entry.get?_saveFields_kept hnodup hposted, Scalar.kept]
  split
  · rename_i hempty
    rw [hempty]
    rfl
  · rfl

theorem getD_not_posted (hkept : ∀ value, (field, some value) ∉ fields) :
    (stored.saveFields fields).getD field (.str "") = stored.getD field (.str "") := by
  rw [Dict.getD, Entry.get?_saveFields_of_not_posted hkept, ← Dict.getD]

end Fields

/-- The form of a host and the card of a server clear the other secret. -/
theorem login_cleared {stored : Entry} {fields : CredFields} {method : Method}
    (hnodup : (fields.map Prod.fst).Nodup) (hsecret : (method.field, some (.str secret)) ∈ fields)
    (hother : (method.other.field, some (.str "")) ∈ fields) :
    (stored.saveFields fields).getD method.field (.str "") = .str secret ∧
      (stored.saveFields fields).getD method.other.field (.str "") = .str "" :=
  ⟨getD_posted hnodup hsecret, getD_posted hnodup hother⟩

theorem host_login {slug : String} {form : CredentialsForm} {store : Store} {method : Method}
    (hselected : selected form.authMethod form.sshPassword form.sshKey = some (method, secret)) :
    ((adminSaveCredentials store slug form).getD slug ∅).getD method.field (.str "") = .str secret ∧
      ((adminSaveCredentials store slug form).getD slug ∅).getD method.other.field (.str "") =
        .str "" := by
  have hentry : (adminSaveCredentials store slug form).getD slug ∅ =
      (store.getD slug ∅).saveFields [("ssh_password", form.savedPassword.map .str),
        ("ssh_key", form.savedKey.map .str),
        ("sudo_password", (strippedOrNone form.sudoPassword).map .str)] := by
    rw [adminSaveCredentials, Store.saveCredentials, Dict.getD,
      Store.saveUnder_self, Option.getD_some]
  rw [hentry]
  rcases selected_cases hselected with ⟨rfl, hauth, hsecret, hne⟩ | ⟨rfl, hauth, hsecret, hne⟩
  · apply login_cleared (by simp)
    · simp [Method.field, CredentialsForm.savedPassword, hauth,
        strippedOrNone, hsecret, Proxmox.stored, hne]
    · simp [Method.field, Method.other, CredentialsForm.savedKey, hauth]
  · apply login_cleared (by simp)
    · simp [Method.field, CredentialsForm.savedKey, hauth, strippedOrNone,
        hsecret, Proxmox.stored, hne]
    · simp [Method.field, Method.other, CredentialsForm.savedPassword, hauth]

theorem card_login {form : SaveForm} {stored : Entry} {method : Method}
    (hselected : selected form.proxmoxSshAuth form.proxmoxSshPassword form.proxmoxSshKey =
      some (method, secret)) :
    (stored.saveFields form.credKwargs).getD method.field (.str "") = .str secret ∧
      (stored.saveFields form.credKwargs).getD method.other.field (.str "") = .str "" := by
  have hnodup : (form.credKwargs.map Prod.fst).Nodup :=
    (CredentialSave.proxmox form "" "" none).fields_nodup
  rcases selected_cases hselected with ⟨rfl, hauth, hsecret, hne⟩ | ⟨rfl, hauth, hsecret, hne⟩
  · apply login_cleared hnodup <;>
      simp [SaveForm.credKwargs, proxmoxSshCredKwargs, Method.field,
        Method.other, hauth, hsecret, hne]
  · apply login_cleared hnodup <;>
      simp [SaveForm.credKwargs, proxmoxSshCredKwargs, Method.field,
        Method.other, hauth, hsecret, hne]

/-- The page of the wizard leaves it. -/
theorem wizard_login {form : LxcForm} {stored : Entry} {method : Method}
    (hselected : selected form.proxmoxSshAuth form.proxmoxSshPassword form.proxmoxSshKey =
      some (method, secret)) :
    (stored.saveFields form.credKwargs).getD method.field (.str "") = .str secret ∧
      (stored.saveFields form.credKwargs).getD method.other.field (.str "") =
        stored.getD method.other.field (.str "") := by
  have hnodup : (form.credKwargs.map Prod.fst).Nodup := (CredentialSave.lxcs form).fields_nodup
  rcases selected_cases hselected with ⟨rfl, hauth, hsecret, hne⟩ | ⟨rfl, hauth, hsecret, hne⟩
  · refine ⟨getD_posted hnodup ?_, getD_not_posted fun value => ?_⟩ <;>
      simp [LxcForm.credKwargs, Method.field, Method.other, hauth, hsecret, hne]
  · refine ⟨getD_posted hnodup ?_, getD_not_posted fun value => ?_⟩ <;>
      simp [LxcForm.credKwargs, Method.field, Method.other, hauth, hsecret, hne]

/-- The chosen secret is stored, and of the other one only what the form left. -/
theorem saved_login {method : Method} (hselected : save.selection = some (method, secret))
    (hrun : save.run env s = some (t, key)) :
    (t.store.getD key ∅).getD method.field (.str "") = .str secret ∧
      (t.store.getD key ∅).getD method.other.field (.str "") =
        save.left (s.store.getD key ∅) method := by
  cases save with
  | host slug form =>
      obtain ⟨rfl, rfl⟩ := Prod.mk.inj (Option.some.inj hrun)
      exact host_login hselected
  | card form pem fp nodes =>
      obtain ⟨⟨saved, id⟩, hsave, hpair⟩ := Option.map_eq_some_iff.mp hrun
      obtain ⟨rfl, rfl⟩ := Prod.mk.inj hpair
      obtain ⟨_, _, hwritten⟩ := setupSaveProxmox_written hsave
      rw [hwritten.own]
      exact card_login hselected
  | wizard form =>
      obtain ⟨rfl, rfl⟩ := Prod.mk.inj (Option.some.inj hrun)
      have hentry := (written_saveCredentials s form.serverId form.credKwargs).own
      have hstore : (setupProxmoxSaveLxcs s form).store =
          (saveCredentials s form.serverId form.credKwargs).store := rfl
      rw [hstore, hentry]
      exact wizard_login hselected

end Saved

section Wins

variable {env : Surroundings} {password key : Scalar} {path : Option String} {secret : String}

theorem str_truthy (hne : secret ≠ "") : (Scalar.str secret).truthy = true := by
  simpa [Scalar.truthy] using hne

/-- The stored name of a key file stands for the path of the file. -/
theorem storedKeyPath_name (hne : secret ≠ "")
    (hpath : storedKeyPath env (.str secret) = some path) :
    ∃ p, env.resolveKeyPath secret = some p ∧ path = some p := by
  rw [storedKeyPath, if_pos (str_truthy hne)] at hpath
  obtain ⟨p, hp, rfl⟩ := Option.map_eq_some_iff.mp hpath
  exact ⟨p, hp, rfl⟩

theorem passwordFirst_password (hne : secret ≠ "") :
    passwordFirst (.str secret) path = .password (.str secret) := by
  rw [passwordFirst, if_pos (str_truthy hne)]

theorem passwordFirst_key_iff (hne : secret ≠ "")
    (hpath : storedKeyPath env (.str secret) = some path) :
    (∃ p, env.resolveKeyPath secret = some p ∧ passwordFirst password path = .keyFile (.str p)) ↔
      password.truthy = false := by
  obtain ⟨p, hp, rfl⟩ := storedKeyPath_name hne hpath
  rw [passwordFirst]
  cases password.truthy with
  | true => simp
  | false => simp [hp]

theorem keyFirst_key (hne : secret ≠ "") (hpath : storedKeyPath env (.str secret) = some path) :
    ∃ p, env.resolveKeyPath secret = some p ∧ keyFirst password path = .keyFile (.str p) := by
  obtain ⟨p, hp, rfl⟩ := storedKeyPath_name hne hpath
  exact ⟨p, hp, rfl⟩

theorem keyFirst_password_iff (hne : secret ≠ "") (hpath : storedKeyPath env key = some path) :
    keyFirst (.str secret) path = .password (.str secret) ↔ key.truthy = false := by
  have hstored := (storedKeyPath_eq hpath).1
  cases path with
  | none => simpa [keyFirst, str_truthy hne] using hstored
  | some p => simpa [keyFirst] using hstored

/-- The plain connection of a host. -/
theorem login_password {host : SshHost} {creds : Entry} (hne : secret ≠ "")
    (hpassword : creds.getD "ssh_password" (.str "") = .str secret) :
    sshAuth host creds = .password (.str secret) := by
  rw [sshAuth, hpassword]
  exact if_pos (str_truthy hne)

theorem login_key_iff {host : SshHost} {creds : Entry} (hne : secret ≠ "")
    (hkey : creds.getD "ssh_key" (.str "") = .str secret) :
    sshAuth host creds = .privateKey (.str secret) ↔
      (creds.getD "ssh_password" (.str "")).truthy = false := by
  rw [sshAuth, hkey]
  cases (creds.getD "ssh_password" (.str "")).truthy with
  | true => simp
  | false => simp [str_truthy hne]

/-- Only the page of the wizard leaves anything. -/
theorem left_iff (save : LoginSave) (stored : Entry) (method : Method) :
    (save.left stored method).truthy = false ↔ ∀ form, save = .wizard form →
      ¬ (stored.getD method.other.field (.str "")).truthy = true := by
  cases save with
  | wizard form => simp [LoginSave.left]
  | host slug form => simp [LoginSave.left, Scalar.truthy]
  | card form pem fp nodes => simp [LoginSave.left, Scalar.truthy]

/-- A connection to a node, for itself or for a guest. -/
def NodeAuth (env : Surroundings) (entry : Entry) (auth : Auth) : Prop :=
  ∃ path, storedKeyPath env (entry.getD "ssh_key" (.str "")) = some path ∧
    auth = passwordFirst (entry.getD "ssh_password" (.str "")) path

theorem node_password {entry : Entry} {auth : Auth} (hne : secret ≠ "")
    (hauth : NodeAuth env entry auth)
    (hsecret : entry.getD "ssh_password" (.str "") = .str secret) :
    auth = .password (.str secret) := by
  obtain ⟨path, _, rfl⟩ := hauth
  rw [hsecret, passwordFirst_password hne]

theorem node_key_iff {entry : Entry} {auth : Auth} (hne : secret ≠ "")
    (hauth : NodeAuth env entry auth) (hsecret : entry.getD "ssh_key" (.str "") = .str secret) :
    (∃ path, env.resolveKeyPath secret = some path ∧ auth = .keyFile (.str path)) ↔
      (entry.getD "ssh_password" (.str "")).truthy = false := by
  obtain ⟨path, hpath, rfl⟩ := hauth
  rw [hsecret] at hpath
  exact passwordFirst_key_iff hne hpath

end Wins

/-- After a form has saved a secret for the method that it selects, a connection with
that entry uses just this secret, exactly if the form is not the wizard's or no secret
of the other method is stored that the connection prefers. -/
theorem chosen_auth_wins_iff (env : Surroundings) (s : Settings) (save : LoginSave)
    {method : Method} {secret : String} (hselected : save.selection = some (method, secret))
    {t : Settings} {key : String} (hrun : save.run env s = some (t, key)) (opening : Opening)
    (hentry : opening.entry t = t.store.getD key ∅) {connection : Connection}
    (hopen : opening.connection env t = some connection) :
    opening.auth env method secret connection.auth ↔
      (∀ form, save = .wizard form → ¬ opening.Shadowed (s.store.getD key ∅) method) := by
  have hne : secret ≠ "" := selection_ne hselected
  obtain ⟨hsecret, hother⟩ := saved_login hselected hrun
  rw [← hentry] at hsecret hother
  have hleft := left_iff save (s.store.getD key ∅) method
  rw [← hother] at hleft
  cases opening with
  | login host =>
      obtain ⟨username, _, rfl⟩ := Option.map_eq_some_iff.mp hopen
      cases method with
      | password => exact iff_of_true (login_password hne hsecret) fun _ _ h => h
      | key => exact (login_key_iff hne hsecret).trans hleft
  | pct host =>
      cases method with
      | password => exact iff_of_true (node_password hne (pct_auth hopen) hsecret) fun _ _ h => h
      | key => exact (node_key_iff hne (pct_auth hopen) hsecret).trans hleft
  | node host =>
      cases method with
      | password => exact iff_of_true (node_password hne (node_auth hopen) hsecret) fun _ _ h => h
      | key => exact (node_key_iff hne (node_auth hopen) hsecret).trans hleft
  | docker host =>
      obtain ⟨path, hpath, hauth⟩ := docker_auth hopen
      cases method with
      | password =>
          have hpassword : (serverContext t.config t.store host).2.getD "ssh_password" (.str "") =
              .str secret := hsecret
          rw [Opening.auth, hauth, hpassword]
          exact (keyFirst_password_iff hne hpath).trans hleft
      | key =>
          have hkey : (serverContext t.config t.store host).2.getD "ssh_key" (.str "") =
              .str secret :=
            hsecret
          rw [hkey] at hpath
          refine iff_of_true ?_ fun _ _ h => h
          obtain ⟨p, hp, hfirst⟩ := keyFirst_key hne hpath
          exact ⟨p, hp, hauth.trans hfirst⟩

/-- A node whose server is reached with a password so far, and the page of the wizard
on which a key is selected for it. -/
def passwordSettings : Settings where
  config := { proxmoxServers := some [{ id := "pve", url := some "https://10.0.0.2:8006" }] }
  store := (∅ : Store).set (integrationKey "proxmox_pve")
    ((∅ : Entry).set "ssh_password" (.str "old"))

def nodeHost : HostEntry :=
  { name := "pve", host := "10.0.0.2", proxmoxNode := some "pve", proxmoxServer := some "pve" }

def keyPage : LxcForm := { proxmoxSshKey := "id_ed25519", serverId := "pve" }

def afterKeyPage : Settings := setupProxmoxSaveLxcs passwordSettings keyPage

theorem chosen_auth_on_node :
    Opening.auth plainSurroundings (.node nodeHost) .key "id_ed25519" (.password (.str "old")) ↔
      ∀ form, LoginSave.wizard keyPage = .wizard form →
        ¬ Opening.Shadowed (passwordSettings.store.getD (integrationKey "proxmox_pve") ∅)
          (.node nodeHost) .key :=
  chosen_auth_wins_iff plainSurroundings passwordSettings (.wizard keyPage) (by decide +kernel) rfl
    (.node nodeHost) (by decide +kernel)
    (by decide +kernel : Opening.connection plainSurroundings afterKeyPage (.node nodeHost) =
      some ⟨"10.0.0.2", .int 22, "root", .password (.str "old")⟩)

/-- The key is selected and stored, and the node is still reached with the old password. -/
theorem wizard_key_loses :
    (LoginSave.wizard keyPage).selection = some (.key, "id_ed25519") ∧
      (afterKeyPage.store.getD (integrationKey "proxmox_pve") ∅).get? "ssh_key" =
        some (.str "id_ed25519") ∧
      (Opening.connection plainSurroundings afterKeyPage (.node nodeHost)).map Connection.auth =
        some (.password (.str "old")) ∧
      ¬ Opening.auth plainSurroundings (.node nodeHost) .key "id_ed25519"
        (.password (.str "old")) := by
  refine ⟨by decide +kernel, by decide +kernel, by decide +kernel, ?_⟩
  rintro ⟨path, _, hauth⟩
  cases hauth

end Keepup
