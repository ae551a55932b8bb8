import Keepup.Lib.Dict
import Keepup.Lib.Sorting
import Keepup.Text.Cuts
import Mathlib.Data.String.Basic

/-!
What a Proxmox server has. The cluster lists its guests in one answer, as far as the token may see
them; each node is asked for its containers after that, and each guest for its address. Any of these
requests can fail, and costs no more than what it would have added. Only the sorting can fail as a
whole, over a guest that the cluster lists without its number.
-/

namespace Keepup.Proxmox.Discovery

open Lib

section Source

inductive GuestType where
  | qemu
  | lxc
deriving DecidableEq

def GuestType.text : GuestType → String
  | .qemu => "qemu"
  | .lxc => "lxc"

structure Resource where
  type : GuestType
  node : String
  vmid : Option Nat
  name : String
  status : String
  ip : String := ""
deriving DecidableEq

abbrev Key := GuestType × String × Option Nat

def Resource.key (r : Resource) : Key := (r.type, r.node, r.vmid)

/-- An entry of `cluster/resources`. -/
structure ClusterItem where
  type : Option String
  node : Option String
  vmid : Option Nat
  name : Option String
  status : Option String

/-- An entry of the list of containers of a node. -/
structure Container where
  vmid : Option Nat
  name : Option String
  status : Option String

/-- An entry of the list of nodes, and what the node answers when it is asked for its containers. -/
structure Node where
  node : Option String
  containers : Option (List Container)

structure LxcInterface where
  name : String := ""
  inet : String := ""

structure AgentAddress where
  ipAddressType : String
  ipAddress : String := ""

structure AgentInterface where
  name : String := ""
  ipAddresses : List AgentAddress := []

/-- The answers of the API. A request that fails has none. -/
structure Api where
  clusterResources : Option (List ClusterItem)
  nodes : Option (List Node)
  lxcInterfaces : String → Option Nat → Option (List LxcInterface)
  agentInterfaces : String → Option Nat → Option (List AgentInterface)

def vmidText (vmid : Option Nat) : String := vmid.elim "None" toString

def newResource (type : GuestType) (node : String) (vmid : Option Nat)
    (name status : Option String) :
    Resource where
  type := type
  node := node
  vmid := vmid
  name := name.getD (type.text ++ "-" ++ vmidText vmid)
  status := status.getD "unknown"

def ClusterItem.resource (item : ClusterItem) : Option Resource :=
  if item.type = some "qemu" then
    some (newResource .qemu (item.node.getD "") item.vmid item.name item.status)
  else if item.type = some "lxc" then
    some (newResource .lxc (item.node.getD "") item.vmid item.name item.status)
  else none

/-- Phase 1. A guest that is listed twice is taken as it is listed last. -/
def fromCluster (items : List ClusterItem) : Dict Key Resource :=
  Dict.ofPairs ((items.filterMap ClusterItem.resource).map fun r => (r.key, r))

/-- One container of a node, unless it is known already. -/
def addMissing (seen : Dict Key Resource) (r : Resource) : Dict Key Resource :=
  if seen.contains r.key then seen else seen.set r.key r

/-- The containers of a node. An entry without a number ends the loop. -/
def containersOf (node : String) : List Container → List Resource
  | [] => []
  | ct :: cts =>
      match ct.vmid with
      | none => []
      | some vmid => newResource .lxc node (some vmid) ct.name ct.status :: containersOf node cts

/-- The containers of the nodes, in the order in which phase 2 adds them. An entry without a name
ends the loop. -/
def fromNodes : List Node → List Resource
  | [] => []
  | node :: nodes =>
      match node.node with
      | none => []
      | some name => (node.containers.elim [] (containersOf name)) ++ fromNodes nodes

def usable (ip : String) : Bool := ip != "" && !Text.startsWith ip "127."

def getLxcIp (interfaces : Option (List LxcInterface)) : String :=
  let addresses := ((interfaces.getD []).filter fun iface => iface.name ≠ "lo").flatMap fun iface =>
    (Text.splitOn ',' iface.inet).map fun addr => Text.before '/' (Text.strip addr)
  (addresses.find? usable).getD ""

def getVmIp (interfaces : Option (List AgentInterface)) : String :=
  let addresses := ((interfaces.getD []).filter fun iface => iface.name ≠ "lo").flatMap fun iface =>
    (iface.ipAddresses.filter fun addr => addr.ipAddressType = "ipv4").map AgentAddress.ipAddress
  (addresses.find? usable).getD ""

def fillIp (api : Api) (r : Resource) : Resource :=
  { r with
    ip := match r.type with
      | .lxc => getLxcIp (api.lxcInterfaces r.node r.vmid)
      | .qemu => getVmIp (api.agentInterfaces r.node r.vmid) }

/-- What is known of the guests, before their addresses are. -/
def seenResources (api : Api) : Dict Key Resource :=
  (fromNodes (api.nodes.getD [])).foldl addMissing (fromCluster (api.clusterResources.getD []))

/-- Whether two guests can be put in order: a number does not compare with none. -/
def Comparable (a b : Resource) : Prop := a.node = b.node → a.vmid.isSome = b.vmid.isSome

instance : DecidableRel Comparable := fun a b =>
  inferInstanceAs (Decidable (a.node = b.node → a.vmid.isSome = b.vmid.isSome))

/-- What tells guests of a node apart in the order. -/
def Resource.number (r : Resource) : Nat := r.vmid.getD 0

/-- The discovery, none where the sorting raises. -/
def discoverResources (api : Api) : Option (List Resource) :=
  let resources := (seenResources api).values.map (fillIp api)
  if ∀ a ∈ resources, ∀ b ∈ resources, Comparable a b then
    some (resources.mergeSort (Sorting.before Resource.node Resource.number))
  else none

end Source

section Found

/-- Everything that some answer lists, the one that counts for a guest before the others. -/
def listed (api : Api) : List Resource :=
  ((api.clusterResources.getD []).filterMap ClusterItem.resource).reverse ++
    fromNodes (api.nodes.getD [])

def firstOf (resources : List Resource) (key : Key) : Option Resource :=
  resources.find? fun r => decide (r.key = key)

theorem lookup_pairs {κ α : Type} [DecidableEq κ] (keyOf : α → κ) (as : List α) (key : κ) :
    (as.map fun a => (keyOf a, a)).lookup key = as.find? fun a => decide (keyOf a = key) := by
  induction as with
  | nil => rfl
  | cons a as ih =>
      rw [List.map_cons, List.lookup_cons, ih, List.find?_cons]
      by_cases hkey : keyOf a = key
      · simp [hkey]
      · have hne : (key == keyOf a) = false := beq_eq_false_iff_ne.mpr (Ne.symm hkey)
        simp [hkey, hne]

theorem get?_addMissing (seen : Dict Key Resource) (r : Resource) (key : Key) :
    (addMissing seen r).get? key = (seen.get? key).or (firstOf [r] key) := by
  rw [addMissing, Dict.contains, firstOf]
  by_cases hkey : r.key = key
  · subst hkey
    cases hseen : seen.get? r.key <;> simp [hseen]
  · cases seen.get? r.key <;> simp [hkey, Ne.symm hkey]

theorem get?_foldl_addMissing (resources : List Resource) (seen : Dict Key Resource) (key : Key) :
    (resources.foldl addMissing seen).get? key = (seen.get? key).or (firstOf resources key) := by
  induction resources generalizing seen with
  | nil => simp [firstOf]
  | cons r resources ih =>
      rw [List.foldl_cons, ih, get?_addMissing, Option.or_assoc]
      congr 1
      simp only [firstOf, List.find?_cons, List.find?_nil]
      by_cases hkey : r.key = key <;> simp [hkey]

theorem get?_seenResources (api : Api) (key : Key) :
    (seenResources api).get? key = firstOf (listed api) key := by
  rw [seenResources, get?_foldl_addMissing, fromCluster, Dict.ofPairs, Dict.get?_foldl_set,
    Dict.get?_empty, Option.or_none, ← List.map_reverse, lookup_pairs, listed]
  exact List.find?_append.symm

theorem firstOf_key {resources : List Resource} {key : Key} {r : Resource}
    (h : firstOf resources key = some r) :
    r.key = key := by
  simpa using List.find?_some h

/-- The guests are kept under what tells them apart. -/
theorem map_key_seen (api : Api) :
    (seenResources api).values.map Resource.key = (seenResources api).keys := by
  rw [Dict.values, Dict.keys, List.map_map]
  refine List.map_congr_left fun entry hentry => ?_
  have hget := Dict.mem_entries_iff.mp (show (entry.1, entry.2) ∈
    (seenResources api).entries from hentry)
  rw [get?_seenResources] at hget
  exact firstOf_key hget

theorem mem_seen_iff (api : Api) (r : Resource) :
    r ∈ (seenResources api).values ↔ firstOf (listed api) r.key = some r := by
  rw [← get?_seenResources, ← Dict.mem_entries_iff, Dict.values, List.mem_map]
  constructor
  · rintro ⟨entry, hentry, rfl⟩
    have hget := Dict.mem_entries_iff.mp (show (entry.1, entry.2) ∈
      (seenResources api).entries from hentry)
    rw [get?_seenResources] at hget
    rwa [firstOf_key hget]
  · exact fun hentry => ⟨_, hentry, rfl⟩

end Found

section Addresses

theorem usable_or_empty (addresses : List String) :
    (addresses.find? usable).getD "" = "" ∨ usable ((addresses.find? usable).getD "") = true := by
  cases hfound : addresses.find? usable with
  | none => exact .inl rfl
  | some ip => exact .inr (List.find?_some hfound)

theorem fillIp_usable (api : Api) (r : Resource) :
    (fillIp api r).ip = "" ∨ usable (fillIp api r).ip = true := by
  cases htype : r.type <;> simp only [fillIp, htype, getLxcIp, getVmIp] <;> exact usable_or_empty _

end Addresses

section Discovered

variable {api : Api} {found : List Resource}

theorem discover_perm (h : discoverResources api = some found) :
    found.Perm ((seenResources api).values.map (fillIp api)) := by
  rw [discoverResources] at h
  split at h
  · cases h
    exact List.mergeSort_perm _ _
  · cases h

theorem discover_sorted (h : discoverResources api = some found) :
    found.Pairwise fun a b => a.node < b.node ∨ a.node = b.node ∧ a.number ≤ b.number := by
  rw [discoverResources] at h
  split at h
  · cases h
    exact Sorting.pairwise_sorted Resource.node Resource.number _
  · cases h

theorem mem_discover_iff (h : discoverResources api = some found) (r : Resource) :
    r ∈ found ↔ ∃ known, firstOf (listed api) r.key = some known ∧ r = fillIp api known := by
  rw [(discover_perm h).mem_iff, List.mem_map]
  constructor
  · rintro ⟨known, hknown, rfl⟩
    exact ⟨known, (mem_seen_iff api known).mp hknown, rfl⟩
  · rintro ⟨known, hknown, hr⟩
    have hkey := firstOf_key hknown
    refine ⟨known, (mem_seen_iff api known).mpr ?_, hr.symm⟩
    rwa [hkey]

/-- Of each guest that is listed one is seen. -/
theorem seen_of_listed {r : Resource} (h : r ∈ listed api) :
    ∃ known ∈ (seenResources api).values, known.key = r.key := by
  cases hfirst : firstOf (listed api) r.key with
  | none =>
      have hne := List.find?_eq_none.mp hfirst r h
      simp at hne
  | some known =>
      have hkey := firstOf_key hfirst
      exact ⟨known, (mem_seen_iff api known).mpr (hkey ▸ hfirst), hkey⟩

/-- A guest without a number beside a numbered one. -/
def Mixed (resources : List Resource) : Prop :=
  ∃ a ∈ resources, ∃ b ∈ resources, a.node = b.node ∧ a.vmid = none ∧ b.vmid ≠ none

theorem not_comparable_iff (resources : List Resource) :
    (¬ ∀ a ∈ resources, ∀ b ∈ resources, Comparable a b) ↔ Mixed resources := by
  simp only [Comparable, not_forall]
  constructor
  · rintro ⟨a, ha, b, hb, hnode, hdiffer⟩
    cases hvmid : a.vmid with
    | none =>
        refine ⟨a, ha, b, hb, hnode, hvmid, fun hnone => hdiffer ?_⟩
        rw [hvmid, hnone]
    | some number =>
        refine ⟨b, hb, a, ha, hnode.symm, ?_, by simp [hvmid]⟩
        cases hother : b.vmid with
        | none => rfl
        | some other => exact absurd (by rw [hvmid, hother]; rfl) hdiffer
  · rintro ⟨a, ha, b, hb, hnode, hnone, hsome⟩
    refine ⟨a, ha, b, hb, hnode, fun hsame => hsome ?_⟩
    rw [hnone] at hsame
    exact Option.isNone_iff_eq_none.mp (Option.isSome_eq_false_iff.mp hsame.symm)

theorem Mixed.of_keys {as bs : List Resource} (hkeys : ∀ a ∈ as, ∃ b ∈ bs, b.key = a.key)
    (h : Mixed as) :
    Mixed bs := by
  obtain ⟨a, ha, b, hb, hpair⟩ := h
  obtain ⟨a', ha', hkey⟩ := hkeys a ha
  obtain ⟨b', hb', hkey'⟩ := hkeys b hb
  simp only [Resource.key, Prod.mk.injEq] at hkey hkey'
  refine ⟨a', ha', b', hb', ?_⟩
  rwa [hkey.2.1, hkey.2.2, hkey'.2.1, hkey'.2.2]

/-- The sorting raises over a guest that is listed without a number beside a numbered one. -/
theorem discover_none_iff (api : Api) : discoverResources api = none ↔ Mixed (listed api) := by
  have hraises : discoverResources api = none ↔
      Mixed ((seenResources api).values.map (fillIp api)) := by
    rw [← not_comparable_iff, discoverResources]
    simp
  rw [hraises]
  refine ⟨.of_keys fun r hr => ?_, .of_keys fun r hr => ?_⟩
  · obtain ⟨known, hknown, rfl⟩ := List.mem_map.mp hr
    exact ⟨known, List.mem_of_find?_eq_some ((mem_seen_iff api known).mp hknown), rfl⟩
  · obtain ⟨known, hknown, hkey⟩ := seen_of_listed hr
    exact ⟨fillIp api known, List.mem_map_of_mem hknown, hkey⟩

/-- Whichever requests fail, the discovery has every guest that some answer lists, once, as
the cluster lists it where it does, and nothing else; they are sorted, and no address is a
loopback one. It only fails over a guest that the cluster lists without a number beside a
numbered one of the node. -/
theorem discovery_complete (api : Api) :
    (discoverResources api = none ↔ Mixed (listed api)) ∧
    ∀ found, discoverResources api = some found →
      (found.map Resource.key).Nodup ∧
      found.Pairwise (fun a b => a.node < b.node ∨ a.node = b.node ∧ a.number ≤ b.number) ∧
      (∀ r, r ∈ found ↔ ∃ known, firstOf (listed api) r.key = some known ∧ r = fillIp api known) ∧
      (∀ r ∈ listed api, ∃ known ∈ found, known.key = r.key) ∧
      ∀ r ∈ found, r.ip = "" ∨ usable r.ip = true := by
  refine ⟨discover_none_iff api, fun found hfound => ?_⟩
  refine ⟨?_, discover_sorted hfound, mem_discover_iff hfound, fun r hr => ?_, fun r hr => ?_⟩
  · have hperm : (found.map Resource.key).Perm (seenResources api).keys := by
      rw [← map_key_seen]
      refine ((discover_perm hfound).map _).trans ?_
      rw [List.map_map]
      exact .of_eq rfl
    exact hperm.nodup_iff.mpr (seenResources api).nodup
  · obtain ⟨known, hknown, hkey⟩ := seen_of_listed hr
    exact ⟨fillIp api known, (discover_perm hfound).mem_iff.mpr (List.mem_map_of_mem hknown), hkey⟩
  · obtain ⟨known, _, rfl⟩ := (mem_discover_iff hfound r).mp hr
    exact fillIp_usable api known

end Discovered

end Keepup.Proxmox.Discovery
