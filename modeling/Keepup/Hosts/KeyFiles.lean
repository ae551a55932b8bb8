import Keepup.Hosts.Reach
import Keepup.Hosts.Wizard
import Keepup.Lib.Paths
import Keepup.Lib.Runs

/-!
The way of a key file from the name that is posted to the connection that reads
it. Most connections resolve a stored name with a guard against names that lead
out of the directory of the keys; the wizard puts names behind the directory on
its own, to test a connection and to write a host.
-/

namespace Keepup.Setup

open Lib Proxmox

section Directory

/-- The directory of the keys, resolved. -/
structure KeysDir where
  parts : List Path.Part
  proper : ∀ part ∈ parts, Path.Proper part

variable (dir : KeysDir)

/-- A path lies in the directory once it is normalised. -/
def KeysDir.Holds (path : String) : Prop := Path.Inside dir.parts path.toList

instance (path : String) : Decidable (dir.Holds path) :=
  inferInstanceAs (Decidable (Path.Inside dir.parts path.toList))

/-- The absolute path of a key file, `none` where the name is refused. There are
no symbolic links. -/
def resolveKeyPath (name : String) : Option String :=
  if Text.isIn ".." name ∨ Text.startsWith name "/" then none
  else
    let resolved := Path.normalise (Path.render dir.parts ++ '/' :: name.toList)
    if dir.parts <+: resolved then some (String.ofList (Path.render resolved)) else none

variable {dir}

theorem resolveKeyPath_some {name path : String} (h : resolveKeyPath dir name = some path) :
    ∃ resolved, dir.parts <+: resolved ∧ (∀ part ∈ resolved, Path.Proper part) ∧
      path = String.ofList (Path.render resolved) := by
  simp only [resolveKeyPath] at h
  split at h
  · cases h
  · split at h
    · rename_i hinside
      exact ⟨_, hinside, Path.normalise_proper _, (Option.some.inj h).symm⟩
    · cases h

theorem resolveKeyPath_holds {name path : String} (h : resolveKeyPath dir name = some path) :
    dir.Holds path := by
  obtain ⟨resolved, hinside, hproper, rfl⟩ := resolveKeyPath_some h
  rw [KeysDir.Holds, Path.Inside, String.toList_ofList, Path.normalise_render hproper]
  exact hinside

variable (dir)

/-- Surroundings in which key files are resolved in the directory. -/
def surroundings (checks : UrlSplit.Checks) : Surroundings where
  resolveKeyPath := resolveKeyPath dir
  path_ne name path h := by
    obtain ⟨resolved, _, _, rfl⟩ := resolveKeyPath_some h
    intro hempty
    have hlist := congrArg String.toList hempty
    simp [Path.render] at hlist
  urlChecks := checks

end Directory

section Connections

/-- The connection reads no key file outside of the directory. -/
def KeyHeld (dir : KeysDir) (connection : Option Connection) : Prop :=
  ∀ c ∈ connection, ∀ path, c.auth = .keyFile path → ∃ s, path = .str s ∧ dir.Holds s

/-- A key file comes from the credentials or from the host. -/
theorem connect_keyFile {host : SshHost} {creds : Entry} {c : Connection} {path : Scalar}
    (hconnect : connect host creds = some c) (hauth : c.auth = .keyFile path) :
    creds.get? "key_path" = some path ∨ ∃ s, host.key = some s ∧ path = .str s := by
  obtain ⟨username, _, rfl⟩ := Option.map_eq_some_iff.mp hconnect
  have hcases : sshAuth host creds = .keyFile path := hauth
  unfold sshAuth at hcases
  extract_lets password key keyPath at hcases
  split at hcases
  · cases hcases
  · split at hcases
    · cases hcases
    · split at hcases
      · rename_i hgiven
        obtain rfl := Auth.keyFile.inj hcases
        left
        have hkey : keyPath = (creds.get? "key_path").getD (.str "") := rfl
        cases hget : creds.get? "key_path" with
        | none =>
            rw [hkey, hget] at hgiven
            cases hgiven
        | some value => rw [hkey, hget, Option.getD_some]
      · split at hcases
        · rename_i hgiven
          right
          cases hget : host.key with
          | none =>
              rw [hget] at hgiven
              cases hgiven
          | some s =>
              rw [hget] at hcases
              exact ⟨s, rfl, (Auth.keyFile.inj hcases).symm⟩
        · cases hcases

theorem connect_held {dir : KeysDir} {host : SshHost} {creds : Entry}
    (hcreds : ∀ path, creds.get? "key_path" = some path → ∃ s, path = .str s ∧ dir.Holds s)
    (hhost : ∀ s, host.key = some s → dir.Holds s) : KeyHeld dir (connect host creds) := by
  intro c hc path hauth
  rcases connect_keyFile hc hauth with hpath | ⟨s, hkey, rfl⟩
  · exact hcreds path hpath
  · exact ⟨s, rfl, hhost s hkey⟩

/-- Every call of `_connect` for a host: with its own credentials or with none,
and through the credentials of its Proxmox server. -/
def connections (env : Surroundings) (config : Config) (store : Store) (host : HostEntry) :
    List (Option Connection) :=
  [connect host.sshHost (store.getCredentials host.slug), connect host.sshHost ∅,
    lxcConnection env config store host, nodeConnection env config store host,
    guestDockerConnection env (serverContext config store host) host.host]

section Held

variable {dir : KeysDir} {checks : UrlSplit.Checks} {config : Config} {store : Store}
  {host : HostEntry}

theorem storedKeyPath_holds {sshKey : Scalar} {path : String}
    (h : storedKeyPath (surroundings dir checks) sshKey = some (some path)) : dir.Holds path := by
  rw [storedKeyPath] at h
  split at h
  · obtain ⟨p, hp, hsame⟩ := Option.map_eq_some_iff.mp h
    obtain rfl := Option.some.inj hsame
    cases sshKey with
    | str name => exact resolveKeyPath_holds hp
    | bool b => cases hp
    | int n => cases hp
  · cases h

/-- The login of a node holds the path that was resolved for it, and no other. -/
theorem nodeLogin_keyPath {fields : Entry} {password : Scalar} {path : Option String}
    {value : Scalar} (hfields : fields.get? "key_path" = none)
    (h : (nodeLogin fields password path).get? "key_path" = some value) :
    ∃ p, path = some p ∧ value = .str p := by
  have hpassword : (fields.set "ssh_password" password).get? "key_path" = none := by
    rw [Dict.get?_set_ne _ _ (by decide), hfields]
  cases path with
  | none =>
      rw [nodeLogin, hpassword] at h
      cases h
  | some p =>
      rw [nodeLogin, Dict.get?_set_self] at h
      exact ⟨p, rfl, (Option.some.inj h).symm⟩

theorem lxcConnection_held :
    KeyHeld dir (lxcConnection (surroundings dir checks) config store host) := by
  rw [lxcConnection]
  split
  · rename_i sshHost sshCreds hclient hcontext
    intro c hc
    rw [pctConnect] at hc
    split at hc
    · cases hc
    · refine connect_held (fun path hpath => ?_) (by simp) c hc
      simp only [lxcSshContext, guestLogin, Option.bind_eq_bind, Option.bind_eq_some_iff,
        Option.some_inj] at hcontext
      obtain ⟨hostname, _, stored, hstored, hpair⟩ := hcontext
      obtain ⟨_, rfl⟩ := Prod.mk.inj hpair
      obtain ⟨p, rfl, rfl⟩ := nodeLogin_keyPath (by simp) hpath
      exact ⟨p, rfl, storedKeyPath_holds hstored⟩
  · intro c hc
    cases hc

theorem nodeConnection_held :
    KeyHeld dir (nodeConnection (surroundings dir checks) config store host) := by
  intro c hc
  obtain ⟨⟨sshHost, sshCreds⟩, hcontext, hconnect⟩ := Option.bind_eq_some_iff.mp hc
  simp only [nodeSshContext, Option.bind_eq_bind, Option.bind_eq_some_iff, Option.some_inj]
    at hcontext
  obtain ⟨stored, hstored, hpair⟩ := hcontext
  obtain ⟨rfl, rfl⟩ := Prod.mk.inj hpair
  refine connect_held (fun path hpath => ?_) (by simp) c hconnect
  obtain ⟨p, rfl, rfl⟩ := nodeLogin_keyPath (by simp) hpath
  exact ⟨p, rfl, storedKeyPath_holds hstored⟩

theorem guestDockerConnection_held {server : Block × Entry} {address : String} :
    KeyHeld dir (guestDockerConnection (surroundings dir checks) server address) := by
  intro c hc
  simp only [guestDockerConnection, Option.bind_eq_bind, Option.mem_def,
    Option.bind_eq_some_iff] at hc
  obtain ⟨hostname, _, key, hkey, hconnect⟩ := hc
  refine connect_held (fun path hpath => ?_) (fun s hs => ?_) c hconnect
  · split at hpath
    · rw [Dict.get?_set_ne _ _ (by decide)] at hpath
      cases hpath
    · cases hpath
  · subst hs
    exact storedKeyPath_holds hkey

/-- Only the key in its own entry can lead a connection to a host out of the
directory. -/
theorem connections_held (hkey : ∀ s, host.key = some s → dir.Holds s)
    (hcreds : (store.getCredentials host.slug).get? "key_path" = none) :
    ∀ c ∈ connections (surroundings dir checks) config store host, KeyHeld dir c := by
  intro c hc
  simp only [connections, List.mem_cons, List.not_mem_nil, or_false] at hc
  rcases hc with rfl | rfl | rfl | rfl | rfl
  · exact connect_held (fun path hpath => by simp [hcreds] at hpath) hkey
  · exact connect_held (fun path hpath => by simp at hpath) hkey
  · exact lxcConnection_held
  · exact nodeConnection_held
  · exact guestDockerConnection_held

end Held

/-- The check, the upgrade and the Docker commands use no other connection. -/
theorem reach_mem_connections (env : Surroundings) (config : Config) (store : Store)
    (host : HostEntry) :
    let creds := store.getCredentials host.slug
    let all := none :: connections env config store host
    (scanHost env config store host creds).connection ∈ all ∧
      (runOsUpdate env config store host creds).connection ∈ all ∧
      (sshParamsFor env config store host).connection ∈ all := by
  refine ⟨?_, ?_, ?_⟩
  · simp only [scanHost]
    split
    · split
      · simp [throughGuest, connections]
      · simp only [nodeRebootConnection]
        split
        · simp
        · split
          · split <;> simp [connections]
          · simp
          all_goals simp [connections]
    · simp [connections]
  · simp only [runOsUpdate]
    split <;> simp [throughGuest, connections]
  · simp only [sshParamsFor]
    split
    · split <;> simp [throughGuest, connections]
    · simp [connections]

end Connections

end Keepup.Setup
