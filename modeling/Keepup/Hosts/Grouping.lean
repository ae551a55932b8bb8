import Keepup.Config.Hosts
import Keepup.Lib.Dict
import Mathlib.Data.List.Induction

/-!
The grouping of the hosts on the dashboard: Proxmox hosts under the name of
their node, all others by themselves. Nodes of different servers may share a
name, and a group has room for one node only.
-/

namespace Keepup.Dashboard

open Lib

/-- One node with its guests. The node itself need not be monitored. -/
structure HostGroup where
  name : String
  nodeHost : Option HostEntry := none
  lxcs : List HostEntry := []
  vms : List HostEntry := []
deriving DecidableEq

/-- The groups by node name, and the hosts without one. -/
abbrev Grouping := Dict String HostGroup × List HostEntry

def HostGroup.place (group : HostGroup) (host : HostEntry) : HostGroup :=
  if host.proxmoxVmid = none then { group with nodeHost := some host }
  else if Text.orElse host.proxmoxType "lxc" = "vm" then { group with vms := group.vms ++ [host] }
  else { group with lxcs := group.lxcs ++ [host] }

def groupHost (grouping : Grouping) (host : HostEntry) : Grouping :=
  if Text.given host.proxmoxNode then
    let node := host.proxmoxNode.getD ""
    (grouping.1.set node ((grouping.1.getD node { name := node }).place host), grouping.2)
  else (grouping.1, grouping.2 ++ [host])

def groupHosts (hosts : List HostEntry) : List HostGroup × List HostEntry :=
  let grouping := hosts.foldl groupHost (∅, [])
  (grouping.1.values, grouping.2)

/-- The hosts that a group shows. -/
def HostGroup.members (group : HostGroup) : List HostEntry :=
  group.nodeHost.toList ++ group.lxcs ++ group.vms

def shown (groups : List HostGroup) (standalone : List HostEntry) : List HostEntry :=
  groups.flatMap HostGroup.members ++ standalone

/-- The name under which a host takes the place of the node. -/
def nodeName (host : HostEntry) : Option String :=
  if Text.given host.proxmoxNode ∧ host.proxmoxVmid = none then host.proxmoxNode else none

def nodeNames (hosts : List HostEntry) : List String := hosts.filterMap nodeName

section Placing

variable {grouping : Grouping} {host : HostEntry}

/-- The host that gives its place to another one. -/
def replaced (grouping : Grouping) (host : HostEntry) : Option HostEntry :=
  (nodeName host).bind fun node => (grouping.1.get? node).bind HostGroup.nodeHost

theorem node_of_given (h : Text.given host.proxmoxNode = true) :
    ∃ node, host.proxmoxNode = some node := by
  cases hnode : host.proxmoxNode with
  | none => simp [hnode, Text.given, Text.orElse] at h
  | some node => exact ⟨node, rfl⟩

theorem place_nodeHost (group : HostGroup) (host : HostEntry) :
    (group.place host).nodeHost ≠ none ↔ group.nodeHost ≠ none ∨ host.proxmoxVmid = none := by
  rw [HostGroup.place]
  split
  · rename_i hvmid
    simp [hvmid]
  · rename_i hvmid
    split <;> simp [hvmid]

theorem place_members (group : HostGroup) (host : HostEntry) :
    ((group.place host).members ++ (if host.proxmoxVmid = none
      then group.nodeHost else none).toList).Perm
      (group.members ++ [host]) := by
  rw [List.perm_iff_count]
  intro a
  rw [HostGroup.place]
  split
  · simp only [HostGroup.members, List.count_append, Option.toList_some]
    omega
  · split
    all_goals
      simp only [HostGroup.members, List.count_append, Option.toList_none, List.count_nil]
      omega

/-- The hosts that are shown after one more, and the one that it replaces. -/
theorem shown_groupHost (grouping : Grouping) (host : HostEntry) :
    (shown (groupHost grouping host).1.values (groupHost grouping host).2 ++
      (replaced grouping host).toList).Perm (shown grouping.1.values grouping.2 ++ [host]) := by
  rw [groupHost]
  split
  · rename_i hnode
    obtain ⟨node, hsome⟩ := node_of_given hnode
    simp only [hsome, Option.getD_some]
    generalize hgroup : grouping.1.getD node { name := node } = group
    have hset := grouping.1.flatMap_set HostGroup.members node (group.place host)
    have hplace := place_members group host
    have hold : ((grouping.1.get? node).map HostGroup.members).getD [] = group.members := by
      rw [← hgroup, Dict.getD]
      cases grouping.1.get? node <;> rfl
    have hreplaced : replaced grouping host =
        if host.proxmoxVmid = none then group.nodeHost else none := by
      rw [replaced, nodeName]
      by_cases hvmid : host.proxmoxVmid = none
      · rw [if_pos ⟨hnode, hvmid⟩, if_pos hvmid, hsome, Option.bind_some]
        rw [← hgroup, Dict.getD]
        cases grouping.1.get? node <;> rfl
      · rw [if_neg fun h => hvmid h.2, if_neg hvmid, Option.bind_none]
    rw [hold] at hset
    rw [hreplaced]
    rw [List.perm_iff_count] at hset hplace ⊢
    intro a
    have hset := hset a
    have hplace := hplace a
    simp only [shown, List.count_append] at hset hplace ⊢
    omega
  · rename_i hnode
    have hnone : replaced grouping host = none := by simp [replaced, nodeName, hnode]
    simp [hnone, shown]

/-- Who has the place of a node after one more host. -/
theorem seated_groupHost (grouping : Grouping) (host : HostEntry) (node : String) :
    ((groupHost grouping host).1.get? node).bind HostGroup.nodeHost ≠ none ↔
      (grouping.1.get? node).bind HostGroup.nodeHost ≠ none ∨ nodeName host = some node := by
  rw [groupHost]
  split
  · rename_i hgiven
    obtain ⟨own, hsome⟩ := node_of_given hgiven
    simp only [hsome, Option.getD_some, Dict.get?_set]
    by_cases hnode : node = own
    · subst hnode
      have hname : nodeName host = some node ↔ host.proxmoxVmid = none := by
        rw [nodeName, hsome]
        simp only [← hsome, hgiven, true_and]
        split <;> simp_all
      rw [if_pos rfl, Option.bind_some, place_nodeHost, hname, Dict.getD]
      cases grouping.1.get? node <;> rfl
    · have hname : nodeName host ≠ some node := by
        rw [nodeName, hsome]
        split
        · simpa using fun h => hnode h.symm
        · simp
      simp [hnode, hname]
  · rename_i hgiven
    have hname : nodeName host = none := by simp [nodeName, hgiven]
    simp [hname]

end Placing

section Partition

/-- The grouping after the hosts of a list. -/
def groupingOf (hosts : List HostEntry) : Grouping := hosts.foldl groupHost (∅, [])

def shownOf (hosts : List HostEntry) : List HostEntry :=
  shown (groupHosts hosts).1 (groupHosts hosts).2

theorem groupingOf_append (hosts : List HostEntry) (host : HostEntry) :
    groupingOf (hosts ++ [host]) = groupHost (groupingOf hosts) host := by
  rw [groupingOf, List.foldl_append, List.foldl_cons, List.foldl_nil, ← groupingOf]

/-- The place of a node is taken if and only if some host names it as its own. -/
theorem node_seated_iff (hosts : List HostEntry) (node : String) :
    ((groupingOf hosts).1.get? node).bind HostGroup.nodeHost ≠ none ↔ node ∈ nodeNames hosts := by
  induction hosts using List.reverseRecOn with
  | nil => simp [groupingOf, nodeNames]
  | append_singleton hosts host ih =>
      rw [groupingOf_append, seated_groupHost, ih, nodeNames, nodeNames, List.filterMap_append,
        List.mem_append, List.mem_filterMap (l := [host])]
      simp

theorem shownOf_append (hosts : List HostEntry) (host : HostEntry) :
    (shownOf (hosts ++ [host]) ++ (replaced (groupingOf hosts) host).toList).Perm
      (shownOf hosts ++ [host]) := by
  have hstep := shown_groupHost (groupingOf hosts) host
  rw [← groupingOf_append] at hstep
  exact hstep

theorem shownOf_length_le (hosts : List HostEntry) : (shownOf hosts).length ≤ hosts.length := by
  induction hosts using List.reverseRecOn with
  | nil => exact Nat.le_refl 0
  | append_singleton hosts host ih =>
      have hlength := (shownOf_append hosts host).length_eq
      simp only [List.length_append, List.length_singleton] at hlength ⊢
      omega

/-- Every host is shown exactly once if and only if no two hosts are nodes of
one name. -/
theorem shown_perm_iff (hosts : List HostEntry) :
    (shownOf hosts).Perm hosts ↔ (nodeNames hosts).Nodup := by
  induction hosts using List.reverseRecOn with
  | nil => exact iff_of_true (List.Perm.refl []) List.nodup_nil
  | append_singleton hosts host ih =>
      have hstep := shownOf_append hosts host
      have hnames : nodeNames (hosts ++ [host]) = nodeNames hosts ++ (nodeName host).toList := by
        rw [nodeNames, List.filterMap_append, ← nodeNames]
        cases hname : nodeName host <;> simp [hname]
      rw [hnames]
      cases hreplaced : replaced (groupingOf hosts) host with
      | none =>
          rw [hreplaced, Option.toList_none, List.append_nil] at hstep
          have hnew : ∀ node, nodeName host = some node → node ∉ nodeNames hosts := by
            intro node hname
            rw [← node_seated_iff, not_not]
            rwa [replaced, hname, Option.bind_some] at hreplaced
          have hperm : (shownOf (hosts ++ [host])).Perm (hosts ++ [host]) ↔
              (shownOf hosts).Perm hosts :=
            ⟨fun h => (List.perm_append_right_iff [host]).mp (hstep.symm.trans h),
              fun h => hstep.trans (h.append_right [host])⟩
          rw [hperm, ih]
          cases hname : nodeName host with
          | none => simp
          | some node =>
              have hfresh := hnew node hname
              rw [Option.toList_some, List.nodup_append]
              exact ⟨fun h => ⟨h, by simp, fun a ha b hb => by grind⟩, fun h => h.1⟩
      | some old =>
          -- the one that is replaced is shown no more
          have hlength := hstep.length_eq
          have hle := shownOf_length_le hosts
          rw [hreplaced] at hlength
          refine iff_of_false (fun h => ?_) fun h => ?_
          · have hall := h.length_eq
            simp only [List.length_append, Option.toList_some, List.length_singleton]
              at hlength hall
            omega
          · cases hname : nodeName host with
            | none => simp [replaced, hname] at hreplaced
            | some node =>
                rw [replaced, hname, Option.bind_some] at hreplaced
                have hmem := (node_seated_iff hosts node).mp (by simp [hreplaced])
                rw [hname] at h
                exact (List.nodup_append.mp h).2.2 node hmem node (by simp) rfl

/-- Two servers with a node of the same name each. -/
def twoServers : List HostEntry :=
  [{ name := "Proxmox VE (pve)", host := "10.0.0.1", proxmoxNode := some "pve",
     proxmoxServer := some "a" },
    { name := "Proxmox VE (pve)", host := "10.0.0.2", proxmoxNode := some "pve",
      proxmoxServer := some "b" }]

theorem twoServers_lose_node : ¬ (shownOf twoServers).Perm twoServers := by
  intro h
  have hlength := h.length_eq
  revert hlength
  decide +kernel

end Partition

end Keepup.Dashboard
