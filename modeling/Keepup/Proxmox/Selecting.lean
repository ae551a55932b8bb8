import Keepup.Proxmox.Discovery
import Keepup.Proxmox.Reowning

/-!
From the discovered guests to hosts. The page offers each guest as a check box whose value spells it
out, and the form that is posted back is taken apart again. Between the two the settings may have
changed. A page without the id of a server is about the single one, and the wizard's first page is
such.
-/

namespace Keepup.Proxmox

open Lib Discovery

section Values

/-- The value of the check box of a guest on the admin page. -/
def guestValue (r : Resource) : String :=
  r.node ++ ":" ++ vmidText r.vmid ++ ":" ++ r.type.text ++ ":" ++ r.name ++ ":" ++ r.ip

/-- The value of the check box of a container in the wizard. -/
def lxcValue (r : Resource) : String :=
  r.node ++ ":" ++ vmidText r.vmid ++ ":" ++ r.name ++ ":" ++ r.ip

/-- The names of a guest are labels, as Proxmox wants them, and it has a number. The
address may have colons. -/
structure Labelled (r : Resource) : Prop where
  numbered : r.vmid ≠ none
  given : r.node ≠ ""
  node : ':' ∉ r.node.toList
  name : ':' ∉ r.name.toList

end Values

section Fields

theorem splitFields_zero (s : String) : splitFields 0 s = [s] := by
  simp [splitFields, splitMax]

theorem splitFields_succ (n : Nat) {a : String} (ha : ':' ∉ a.toList) (rest : String) :
    splitFields (n + 1) (a ++ ":" ++ rest) = a :: splitFields n rest := by
  have hword : ∀ c ∈ a.toList, decide (c ≠ ':') = true := fun c hc =>
    decide_eq_true fun heq => ha (heq ▸ hc)
  have hcut : (a.toList ++ ':' :: rest.toList).span (· ≠ ':') = (a.toList, ':' :: rest.toList) := by
    rw [List.span_eq_takeWhile_dropWhile, List.takeWhile_append_of_pos hword,
      List.dropWhile_append_of_pos hword]
    simp
  have htext : (a ++ ":" ++ rest).toList = a.toList ++ ':' :: rest.toList := by simp
  rw [splitFields, htext, splitMax, hcut, List.map_cons, String.ofList_toList]
  rfl

theorem vmidOf_digits (n : Nat) : vmidOf (toString n) = some (n : Int) := by
  have hne : toString n ≠ "" := by simp
  have hdigits : (toString n).toList.all Char.isDigit = true :=
    List.all_eq_true.mpr (Text.toString_digits n)
  have hread : Nat.ofDigitChars 10 (toString n).toList 0 = n := by
    rw [Nat.toString_eq_ofList_toDigits, String.toList_ofList]
    exact Nat.ofDigitChars_ten_toDigits
  rw [vmidOf, if_pos ⟨hne, hdigits⟩, hread]

theorem colon_free_number (vmid : Option Nat) : ':' ∉ (vmidText vmid).toList := by
  cases vmid with
  | none => decide
  | some n => exact fun hmem => absurd (Text.toString_digits n _ hmem) (by decide)

theorem vmidOf_text {vmid : Option Nat} (h : vmid ≠ none) :
    vmidOf (vmidText vmid) = vmid.map Int.ofNat := by
  obtain ⟨n, rfl⟩ := Option.ne_none_iff_exists'.mp h
  exact vmidOf_digits n

end Fields

section Hosts

/-- The host that a guest becomes on the admin page, when it has an address. -/
def guestEntry (owner : String) (r : Resource) : Option HostEntry :=
  if r.ip = "" then none
  else match r.type with
    | .lxc => some (buildHostEntry r.name r.ip r.node owner (r.vmid.map Int.ofNat)
        (some "lxc") (some "all"))
    | .qemu => some (buildHostEntry r.name r.ip r.node owner (r.vmid.map Int.ofNat)
        (some "vm") none)

/-- The host that a container becomes in the wizard. -/
def lxcEntry (owner : String) (r : Resource) : Option HostEntry :=
  if r.ip = "" then none
  else some (buildHostEntry r.name r.ip r.node owner (r.vmid.map Int.ofNat) none (some "all"))

theorem guestHost_value (owner : String) {r : Resource} (h : Labelled r) :
    guestHost owner (guestValue r) = guestEntry owner r := by
  have hfields : splitFields 4 (guestValue r) =
      [r.node, vmidText r.vmid, r.type.text, r.name, r.ip] := by
    have htype : ':' ∉ r.type.text.toList := by cases r.type <;> decide
    have htext : guestValue r =
        r.node ++ ":" ++ (vmidText r.vmid ++ ":" ++
            (r.type.text ++ ":" ++ (r.name ++ ":" ++ r.ip))) := by
      simp only [guestValue, String.append_assoc]
    rw [htext, splitFields_succ 3 h.node, splitFields_succ 2 (colon_free_number r.vmid),
      splitFields_succ 1 htype, splitFields_succ 0 h.name, splitFields_zero]
  simp only [guestHost, hfields, guestEntry, vmidOf_text h.numbered]
  split
  · rfl
  · cases r.type with
    | qemu => rw [if_neg (by decide)]
    | lxc => exact if_pos rfl

theorem lxcHost_value (owner : String) {r : Resource} (h : Labelled r) :
    lxcHost owner (lxcValue r) = lxcEntry owner r := by
  have hfields : splitFields 3 (lxcValue r) = [r.node, vmidText r.vmid, r.name, r.ip] := by
    have htext : lxcValue r = r.node ++ ":" ++
        (vmidText r.vmid ++ ":" ++ (r.name ++ ":" ++ r.ip)) := by
      simp only [lxcValue, String.append_assoc]
    rw [htext, splitFields_succ 2 h.node, splitFields_succ 1 (colon_free_number r.vmid),
      splitFields_succ 0 h.name, splitFields_zero]
  obtain ⟨n, hn⟩ := Option.ne_none_iff_exists'.mp h.numbered
  simp only [lxcHost, hfields, lxcEntry, vmidOf_text h.numbered]
  rw [hn]
  rfl

def kindFor : GuestType → Kind
  | .lxc => .lxc
  | .qemu => .vm

/-- The host is the guest, stamped with this id, if it is one. In every configuration the server
that the id is about owns it. -/
structure IsGuest (owner : String) (r : Resource) (host : HostEntry) : Prop where
  name : host.name = r.name
  address : host.host = r.ip
  node : host.proxmoxNode = some r.node
  vmid : host.proxmoxVmid = r.vmid.map Int.ofNat
  server : host.proxmoxServer = stored owner
  kind : classifyHost host = kindFor r.type
  owned : ∀ config, ownerOf config host = serverFor config owner

theorem stored_given {s : String} (hs : s ≠ "") : stored s = some s := if_neg hs

theorem built_owned (name host node owner : String) (vmid : Option Int)
    (type dockerMode : Option String) (config : Config) :
    ownerOf config (buildHostEntry name host node owner vmid type dockerMode) =
      serverFor config owner := by
  have hstamp := stampOf_buildHostEntry name host node owner vmid type dockerMode
  rw [stampOf] at hstamp
  rw [ownerOf, hstamp]
  rfl

theorem guestEntry_isGuest {owner : String} {r : Resource} (h : Labelled r) {host : HostEntry}
    (hentry : guestEntry owner r = some host) : IsGuest owner r host := by
  have hgiven : Text.given (some r.node) = true := by simp [Text.given, Text.orElse, h.given]
  cases htype : r.type with
  | lxc =>
      simp only [guestEntry, htype, Option.ite_none_left_eq_some, Option.some.injEq] at hentry
      obtain ⟨_, rfl⟩ := hentry
      exact ⟨rfl, rfl, stored_given h.given, rfl, rfl, by
        simp [classifyHost, buildHostEntry, stored_given h.given,
          hgiven, h.numbered, htype, kindFor, Text.orElse],
        fun _ => built_owned ..⟩
  | qemu =>
      simp only [guestEntry, htype, Option.ite_none_left_eq_some, Option.some.injEq] at hentry
      obtain ⟨_, rfl⟩ := hentry
      exact ⟨rfl, rfl, stored_given h.given, rfl, rfl, by
        simp [classifyHost, buildHostEntry, stored_given h.given,
          hgiven, h.numbered, htype, kindFor, Text.orElse],
        fun _ => built_owned ..⟩

theorem lxcEntry_isGuest {owner : String} {r : Resource} (h : Labelled r) (hlxc : r.type = .lxc)
    {host : HostEntry} (hentry : lxcEntry owner r = some host) : IsGuest owner r host := by
  have hgiven : Text.given (some r.node) = true := by simp [Text.given, Text.orElse, h.given]
  simp only [lxcEntry, Option.ite_none_left_eq_some, Option.some.injEq] at hentry
  obtain ⟨_, rfl⟩ := hentry
  exact ⟨rfl, rfl, stored_given h.given, rfl, rfl, by
    simp [classifyHost, buildHostEntry, stored_given h.given, hgiven,
      h.numbered, hlxc, kindFor, Text.orElse],
    fun _ => built_owned ..⟩

end Hosts

section Adding

theorem addNew_sublist (inUse : List String) (hosts : List HostEntry) :
    (addNew inUse hosts).Sublist hosts := by
  induction hosts generalizing inUse with
  | nil => exact .slnil
  | cons host rest ih =>
      rw [addNew]
      split
      · exact (ih inUse).cons host
      · exact (ih _).cons_cons host

theorem addNew_unused (inUse : List String) (hosts : List HostEntry) :
    ∀ host ∈ addNew inUse hosts, host.host ∉ inUse := by
  induction hosts generalizing inUse with
  | nil => simp [addNew]
  | cons host rest ih =>
      rw [addNew]
      split
      · exact ih inUse
      · rename_i hunused
        intro other hother
        rcases List.mem_cons.mp hother with rfl | hother
        · exact hunused
        · exact fun hmem => ih _ other hother (List.mem_cons_of_mem _ hmem)

theorem addNew_distinct (inUse : List String) (hosts : List HostEntry) :
    ((addNew inUse hosts).map HostEntry.host).Nodup := by
  induction hosts generalizing inUse with
  | nil => simp [addNew]
  | cons host rest ih =>
      rw [addNew]
      split
      · exact ih inUse
      · rw [List.map_cons, List.nodup_cons]
        refine ⟨fun hmem => ?_, ih _⟩
        obtain ⟨other, hother, heq⟩ := List.mem_map.mp hmem
        exact addNew_unused _ rest other hother (heq ▸ List.mem_cons_self)

/-- Every address that is asked for is in use afterwards. -/
theorem addNew_reaches (inUse : List String) (hosts : List HostEntry) :
    ∀ host ∈ hosts, host.host ∈ inUse ∨ host.host ∈ (addNew inUse hosts).map HostEntry.host := by
  induction hosts generalizing inUse with
  | nil => simp
  | cons host rest ih =>
      intro other hother
      rw [addNew]
      split
      · rename_i hused
        rcases List.mem_cons.mp hother with rfl | hother
        · exact .inl hused
        · exact ih inUse other hother
      · rcases List.mem_cons.mp hother with rfl | hother
        · exact .inr (by simp)
        · rcases ih (host.host :: inUse) other hother with hused | hadded
          · rcases List.mem_cons.mp hused with heq | hused
            · exact .inr (by simp [heq])
            · exact .inl hused
          · exact .inr (List.mem_cons_of_mem _ hadded)

theorem addNew_used {inUse : List String} {hosts : List HostEntry}
    (h : ∀ host ∈ hosts, host.host ∈ inUse) :
    addNew inUse hosts = [] := by
  induction hosts with
  | nil => rfl
  | cons host rest ih =>
      rw [addNew, if_pos (h host List.mem_cons_self)]
      exact ih fun other hother => h other (List.mem_cons_of_mem _ hother)

/-- What adding hosts comes to. -/
structure Adds (config after : Config) (wanted : List HostEntry) : Prop where
  appended : ∃ added, after = { config with hosts := config.hosts ++ added } ∧
    added.Sublist wanted ∧
    (added.map HostEntry.host).Nodup ∧ ∀ host ∈ added, host.host ∉
      config.getHosts.map HostEntry.host
  reached : ∀ host ∈ wanted, host.host ∈ after.hosts.map HostEntry.host
  settled : (∀ host ∈ wanted, Text.isIn "XXX" host.host = false) → addHosts after wanted = after

theorem mem_getHosts {config : Config} {host : HostEntry} :
    host ∈ config.getHosts ↔ host ∈ config.hosts ∧ Text.isIn "XXX" host.host = false := by
  simp [Config.getHosts]

theorem addHosts_adds (config : Config) (wanted : List HostEntry) :
    Adds config (addHosts config wanted) wanted := by
  have hreached : ∀ host ∈ wanted, host.host ∈
      (addHosts config wanted).hosts.map HostEntry.host := by
    intro host hhost
    rw [addHosts, List.map_append, List.mem_append]
    refine (addNew_reaches (config.getHosts.map HostEntry.host) wanted host hhost).imp_left
      fun hused => ?_
    obtain ⟨known, hknown, heq⟩ := List.mem_map.mp hused
    exact List.mem_map.mpr ⟨known, (mem_getHosts.mp hknown).1, heq⟩
  refine ⟨⟨_, rfl, addNew_sublist _ _, addNew_distinct _ _, addNew_unused _ _⟩,
    hreached, fun hplain => ?_⟩
  have hnothing : addNew ((addHosts config wanted).getHosts.map HostEntry.host) wanted = [] := by
    refine addNew_used fun host hhost => ?_
    obtain ⟨known, hknown, heq⟩ := List.mem_map.mp (hreached host hhost)
    exact List.mem_map.mpr ⟨known, mem_getHosts.mpr ⟨hknown, heq ▸ hplain host hhost⟩, heq⟩
  rw [addHosts, hnothing, List.append_nil]

end Adding

section Selection

/-- The guests that are selected become hosts of their server, and nothing else does: each one that
has an address, under this address, unless a host has it already. -/
structure Selects (owner : String) (chosen : List Resource) (entry : Resource → Option HostEntry)
    (config after : Config) : Prop where
  adds : Adds config after (chosen.filterMap entry)
  complete : ∀ r ∈ chosen, r.ip ≠ "" → ∃ host ∈ chosen.filterMap entry, IsGuest owner r host
  sound : ∀ host ∈ chosen.filterMap entry, ∃ r ∈ chosen, r.ip ≠ "" ∧ IsGuest owner r host

theorem filterMap_values {chosen : List Resource} (h : ∀ r ∈ chosen, Labelled r)
    {value : Resource → String} {parse : String → Option HostEntry}
    {entry : Resource → Option HostEntry} (hparse : ∀ r, Labelled r → parse (value r) = entry r) :
    (chosen.map value).filterMap parse = chosen.filterMap entry := by
  rw [List.filterMap_map]
  exact List.filterMap_congr fun r hr => hparse r (h r hr)

theorem addHosts_selects {owner : String} {chosen : List Resource}
    {entry : Resource → Option HostEntry} (hgiven : ∀ r ∈ chosen, entry r = none ↔ r.ip = "")
    (hguest : ∀ r ∈ chosen, ∀ host, entry r = some host → IsGuest owner r host) (config : Config) :
    Selects owner chosen entry config (addHosts config (chosen.filterMap entry)) := by
  refine ⟨addHosts_adds config _, fun r hr hip => ?_, fun host hhost => ?_⟩
  · obtain ⟨host, hentry⟩ := Option.ne_none_iff_exists'.mp (mt (hgiven r hr).mp hip)
    exact ⟨host, List.mem_filterMap.mpr ⟨r, hr, hentry⟩, hguest r hr host hentry⟩
  · obtain ⟨r, hr, hentry⟩ := List.mem_filterMap.mp hhost
    have hip : r.ip ≠ "" := fun hnone => by simp [(hgiven r hr).mpr hnone] at hentry
    exact ⟨r, hr, hip, hguest r hr host hentry⟩

theorem guestEntry_none (owner : String) (r : Resource) :
    guestEntry owner r = none ↔ r.ip = "" := by
  cases htype : r.type <;> simp [guestEntry, htype]

theorem lxcEntry_none (owner : String) (r : Resource) : lxcEntry owner r = none ↔ r.ip = "" := by
  simp [lxcEntry]

theorem resolveProxmoxServer_of_ne (s : Settings) {serverId : String} (h : serverId ≠ "") :
    resolveProxmoxServer s serverId = serverId := if_pos h

theorem resolveProxmoxServer_of_nil {s : Settings} (h : s.config.getProxmoxServers = [])
    (serverId : String) :
    resolveProxmoxServer s serverId = serverId := by
  rw [resolveProxmoxServer]
  split
  · rfl
  · rename_i hempty
    simp [h, not_not.mp hempty]

/-- Guests that are selected on the admin page become hosts of the server that its page is about,
and containers that are selected in the wizard of the server that its step is about. With an id this
is the server they were discovered on, whatever has become of the settings since; without one it is
the single server, and on the admin page the first of the list once there is a list. No address is
added twice or over a host that has it, and selecting the same guests again changes nothing. -/
theorem selected_guests_added {chosen : List Resource} (hlabels : ∀ r ∈ chosen, Labelled r)
    (s : Settings) :
    (∀ (discovered : Settings) (serverId : String),
      let carried := resolveProxmoxServer discovered serverId
      let owner := resolveProxmoxServer s carried
      Selects owner chosen (guestEntry owner) s.config
        (adminSelectHosts s carried (chosen.map guestValue)).config ∧
      (carried ≠ "" ∨ s.config.getProxmoxServers = [] → owner = carried)) ∧
    ∀ form : LxcForm, (∀ r ∈ chosen, r.type = .lxc) →
      Selects form.serverId chosen (lxcEntry form.serverId) s.config
        (setupProxmoxSaveLxcs s { form with selectedLxcs := chosen.map lxcValue }).config := by
  constructor
  · intro discovered serverId carried owner
    constructor
    · have hvalues := filterMap_values hlabels fun r hr => guestHost_value owner hr
      rw [adminSelectHosts, hvalues]
      exact addHosts_selects (fun r _ => guestEntry_none owner r)
        (fun r hr _ => guestEntry_isGuest (hlabels r hr)) s.config
    · rintro (hcarried | hnone)
      · exact resolveProxmoxServer_of_ne s hcarried
      · exact resolveProxmoxServer_of_nil hnone carried
  · intro form hlxcs
    have hvalues := filterMap_values hlabels fun r hr => lxcHost_value form.serverId hr
    have hsaved : ∀ fields, (saveCredentials s form.serverId fields).config = s.config := by
      intro fields
      rw [saveCredentials]
      split <;> rfl
    simp only [setupProxmoxSaveLxcs, hvalues, hsaved]
    exact addHosts_selects (fun r _ => lxcEntry_none form.serverId r)
      (fun r hr _ => lxcEntry_isGuest (hlabels r hr) (hlxcs r hr)) s.config

def plex : Resource where
  type := .lxc
  node := "pve"
  vmid := some 105
  name := "plex"
  status := "running"
  ip := "fd00::5"

def pihole : Resource := { plex with vmid := some 106, name := "pihole", ip := "10.0.0.6" }

/-- On the admin page of a server, which is gone by the time of the selection, and in the
wizard's first step. -/
theorem plex_selected :
    Selects "home" [plex, pihole] (guestEntry "home") {}
    (adminSelectHosts { config := {}, store := ∅ } "home"
      ["pve:105:lxc:plex:fd00::5", "pve:106:lxc:pihole:10.0.0.6"]).config ∧
    Selects "" [plex, pihole] (lxcEntry "") {} (setupProxmoxSaveLxcs { config := {}, store := ∅ }
      { serverId := "", selectedLxcs := ["pve:105:plex:fd00::5",
          "pve:106:pihole:10.0.0.6"] }).config := by
  have hlabels : ∀ r ∈ [plex, pihole], Labelled r := by
    simp only [List.forall_mem_cons]
    exact ⟨⟨by decide, by decide, by decide, by decide⟩,
      ⟨by decide, by decide, by decide, by decide⟩, by simp⟩
  obtain ⟨hadmin, hwizard⟩ := selected_guests_added hlabels { config := {}, store := ∅ }
  exact ⟨(hadmin { config := {}, store := ∅ } "home").1, hwizard {} (by simp [plex, pihole])⟩

end Selection

end Keepup.Proxmox
