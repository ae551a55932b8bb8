import Keepup.Hosts.Dispatch
import Keepup.Lib.Runs
import Mathlib.Data.Rat.Init
import Mathlib.Data.Set.Defs

/-!
When an update check refreshes the package lists first. The refreshes are kept
under keys that are put together from the names of a machine, without its
Proxmox server or its address. Checks run at the same time; each decides at its
start, and a refresh is recorded once the check has come back.
-/

namespace Keepup.RefreshCache

open Lib

/-- What a package list belongs to: a guest of a server, or what is at an address. -/
inductive Machine where
  | address (host : String)
  | guest (server node : String) (vmid : Int)
deriving DecidableEq

/-- An update check: `check_host_updates` of a host, or `get_lxc_updates` of a guest. -/
inductive Checked where
  | host (slug address : String)
  | lxc (server node : String) (vmid : Int)
deriving DecidableEq

def Checked.machine : Checked → Machine
  | host _ address => .address address
  | lxc server node vmid => .guest server node vmid

def label (slug address : String) : String := if slug = "" then address else slug

def Checked.cacheKey : Checked → String
  | host slug address => "ssh:" ++ label slug address
  | lxc _ node vmid => "lxc:" ++ node ++ ":" ++ toString vmid

def isCacheFresh (lastRefresh : Dict String ℚ) (now : ℚ) (key : String) (ttlMinutes : Int) : Bool :=
  if ttlMinutes ≤ 0 then false
  else
    match lastRefresh.get? key with
    | none => false
    | some last => now - last < ttlMinutes * 60

section Dispatch

/-- The server that owns a host: the one it names, or the first. -/
def serverOf (config : Config) (host : HostEntry) : String :=
  let serverId := Text.orElse host.proxmoxServer ""
  if serverId ≠ "" then serverId
  else if config.proxmox.getD {} ≠ {} then ""
  else (config.getProxmoxServers.head?.map ProxmoxServer.id).getD ""

/-- What a scan checks. A node is asked through the API of its server instead. -/
def scanHost (config : Config) (host : HostEntry) : Option Checked :=
  if Text.given host.proxmoxNode then
    host.proxmoxVmid.map fun vmid => .lxc (serverOf config host) (host.proxmoxNode.getD "") vmid
  else some (.host host.slug host.host)

end Dispatch

section Machine

/-- The cache, the checks that have not come back, each with whether it
refreshes, and the refreshes that were recorded. -/
structure Checks where
  lastRefresh : Dict String ℚ := ∅
  running : List (Checked × Bool) := []
  recorded : List (Checked × ℚ) := []

def Checks.refresh (s : Checks) (now : ℚ) (check : Checked) (ttlMinutes : Int) : Bool :=
  !isCacheFresh s.lastRefresh now check.cacheKey ttlMinutes

def Checks.begun (s : Checks) (now : ℚ) (check : Checked) (ttlMinutes : Int) : Checks :=
  { s with running := s.running ++ [(check, s.refresh now check ttlMinutes)] }

def Checks.failed (s : Checks) (index : Nat) : Checks :=
  { s with running := s.running.eraseIdx index }

def Checks.markRefreshed (s : Checks) (now : ℚ) (check : Checked) : Checks :=
  { s with
    lastRefresh := s.lastRefresh.set check.cacheKey now
    recorded := s.recorded ++ [(check, now)] }

def Checks.answered (s : Checks) (now : ℚ) (index : Nat) : Checks :=
  match s.running[index]? with
  | some (check, true) => (s.failed index).markRefreshed now check
  | _ => s.failed index

inductive Event where
  | begun (check : Checked) (ttlMinutes : Int)
  | answered (index : Nat)
  | failed (index : Nat)
  | restarted
deriving DecidableEq

def step (s : Checks) : ℚ × Event → Checks
  | (now, .begun check ttlMinutes) => s.begun now check ttlMinutes
  | (now, .answered index) => s.answered now index
  | (_, .failed index) => s.failed index
  | (_, .restarted) => { s with lastRefresh := ∅, running := [] }

/-- A skipped refresh is one that this machine had less than the lifetime ago. -/
def SkipsOwn (s : Checks) : ℚ × Event → Prop
  | (now, .begun check ttlMinutes) =>
      s.refresh now check ttlMinutes = false →
        ∃ other time, (other, time) ∈ s.recorded ∧ other.machine = check.machine ∧
          now - time < ttlMinutes * 60
  | _ => True

/-- The times of a run. -/
def NonDecreasing (run : List (ℚ × Event)) : Prop := (run.map Prod.fst).Pairwise (· ≤ ·)

/-- Nothing else is checked. -/
def Within (fleet : Set Checked) (run : List (ℚ × Event)) : Prop :=
  ∀ now check ttlMinutes, (now, .begun check ttlMinutes) ∈ run → check ∈ fleet

end Machine

section Keys

/-- Guests of one node name and number are on one server, and hosts of one label
at one address. -/
structure KeysApart (fleet : Set Checked) : Prop where
  guests : ∀ server server' node vmid, Checked.lxc server node vmid ∈ fleet →
    Checked.lxc server' node vmid ∈ fleet → server = server'
  hosts : ∀ slug slug' address address', Checked.host slug address ∈ fleet →
    Checked.host slug' address' ∈ fleet → label slug address = label slug' address' →
      address = address'

theorem colon_not_mem_int (i : Int) : ':' ∉ (toString i).toList := by
  intro hmem
  rcases Text.int_chars i ':' hmem with h | h <;> cases h

theorem lxcKey_inj {server server' node node' : String} {vmid vmid' : Int}
    (h : (Checked.lxc server node vmid).cacheKey = (Checked.lxc server' node' vmid').cacheKey) :
    node = node' ∧ vmid = vmid' := by
  have hlist := congrArg String.toList h
  simp only [Checked.cacheKey, String.toList_append, List.append_assoc] at hlist
  obtain ⟨hnode, hvmid⟩ := Text.append_cons_inj_last (colon_not_mem_int vmid)
    (colon_not_mem_int vmid') (List.append_cancel_left hlist)
  exact ⟨String.toList_inj.mp hnode, Text.int_toString_injective (String.toList_inj.mp hvmid)⟩

theorem hostKey_inj {slug slug' address address' : String}
    (h : (Checked.host slug address).cacheKey = (Checked.host slug' address').cacheKey) :
    label slug address = label slug' address' := by
  have hlist := congrArg String.toList h
  simp only [Checked.cacheKey, String.toList_append] at hlist
  exact String.toList_inj.mp (List.append_cancel_left hlist)

theorem hostKey_ne_lxcKey {slug address server node : String} {vmid : Int} :
    (Checked.host slug address).cacheKey ≠ (Checked.lxc server node vmid).cacheKey := by
  intro h
  have hlist := congrArg String.toList h
  simp [Checked.cacheKey, String.toList_append] at hlist

/-- The keys of a fleet tell its machines apart. -/
theorem keysApart_iff {fleet : Set Checked} : KeysApart fleet ↔
    ∀ check ∈ fleet, ∀ other ∈ fleet, other.cacheKey = check.cacheKey →
      other.machine = check.machine := by
  constructor
  · intro h check hcheck other hother hkey
    cases other with
    | host slug address =>
        cases check with
        | host slug' address' =>
            rw [Checked.machine, Checked.machine, h.hosts _ _ _ _ hother hcheck (hostKey_inj hkey)]
        | lxc server' node' vmid' => exact absurd hkey hostKey_ne_lxcKey
    | lxc server node vmid =>
        cases check with
        | host slug' address' => exact absurd hkey.symm hostKey_ne_lxcKey
        | lxc server' node' vmid' =>
            obtain ⟨rfl, rfl⟩ := lxcKey_inj hkey
            rw [Checked.machine, Checked.machine, h.guests _ _ _ _ hother hcheck]
  · intro h
    constructor
    · intro server server' node vmid hone hother
      injection h _ hother _ hone rfl
    · intro slug slug' address address' hone hother hlabel
      have hkey : (Checked.host slug address).cacheKey =
          (Checked.host slug' address').cacheKey := by
        rw [Checked.cacheKey, Checked.cacheKey, hlabel]
      injection h _ hother _ hone hkey

end Keys

section Runs

/-- What every state has: the machines are of the fleet, and every entry of the
cache is a recorded refresh. -/
structure Kept (fleet : Set Checked) (s : Checks) : Prop where
  running : ∀ p ∈ s.running, p.1 ∈ fleet
  recorded : ∀ p ∈ s.recorded, p.1 ∈ fleet
  dated : ∀ key last, s.lastRefresh.get? key = some last →
    ∃ check, (check, last) ∈ s.recorded ∧ check.cacheKey = key

variable {fleet : Set Checked} {s : Checks}

theorem Kept.failed (h : Kept fleet s) (index : Nat) : Kept fleet (s.failed index) where
  running p hp := h.running p (List.mem_of_mem_eraseIdx hp)
  recorded := h.recorded
  dated := h.dated

theorem Kept.markRefreshed (h : Kept fleet s) (now : ℚ) {check : Checked} (hcheck : check ∈ fleet) :
    Kept fleet (s.markRefreshed now check) where
  running := h.running
  recorded p hp := by
    rcases List.mem_append.mp hp with hp | hp
    · exact h.recorded p hp
    · rwa [List.mem_singleton.mp hp]
  dated key last hlast := by
    rw [Checks.markRefreshed, Dict.get?_set] at hlast
    by_cases hkey : key = check.cacheKey
    · rw [if_pos hkey, Option.some_inj] at hlast
      subst hlast
      exact ⟨check, by simp [Checks.markRefreshed], hkey.symm⟩
    · rw [if_neg hkey] at hlast
      obtain ⟨other, hmem, hother⟩ := h.dated key last hlast
      exact ⟨other, List.mem_append_left _ hmem, hother⟩

theorem Kept.answered (h : Kept fleet s) (now : ℚ) (index : Nat) :
    Kept fleet (s.answered now index) := by
  rw [Checks.answered]
  split
  · rename_i check hrunning
    exact (h.failed index).markRefreshed now (h.running _ (List.mem_of_getElem? hrunning))
  · exact h.failed index

theorem Kept.step (h : Kept fleet s) {event : ℚ × Event}
    (hfleet : ∀ now check ttlMinutes, event = (now, .begun check ttlMinutes) → check ∈ fleet) :
    Kept fleet (step s event) := by
  obtain ⟨now, event⟩ := event
  cases event with
  | begun check ttlMinutes =>
      refine ⟨fun p hp => ?_, h.recorded, h.dated⟩
      rcases List.mem_append.mp hp with hp | hp
      · exact h.running p hp
      · rw [List.mem_singleton.mp hp]
        exact hfleet now check ttlMinutes rfl
  | answered index => exact h.answered now index
  | failed index => exact h.failed index
  | restarted => exact ⟨by simp [RefreshCache.step], h.recorded, by simp [RefreshCache.step]⟩

/-- A skipped refresh was recorded under the key of the check. -/
theorem skipped_recorded (h : Kept fleet s) {now : ℚ} {check : Checked} {ttlMinutes : Int}
    (hskip : s.refresh now check ttlMinutes = false) :
    ∃ other time, (other, time) ∈ s.recorded ∧ other.cacheKey = check.cacheKey ∧
      now - time < ttlMinutes * 60 := by
  rw [Checks.refresh, Bool.not_eq_false', isCacheFresh] at hskip
  split at hskip
  · cases hskip
  · split at hskip
    · cases hskip
    · rename_i last hlast
      obtain ⟨other, hmem, hkey⟩ := h.dated _ _ hlast
      exact ⟨other, last, hmem, hkey, by simpa using hskip⟩

/-- The state after one check that refreshed. -/
def marked (check : Checked) : Checks := step (step {} (0, .begun check 1)) (0, .answered 0)

theorem marked_eq (check : Checked) : marked check = Checks.markRefreshed {} 0 check := by
  simp [marked, step, Checks.begun, Checks.refresh, isCacheFresh, Checks.answered, Checks.failed,
    Checks.markRefreshed]

theorem marked_fresh (other check : Checked) (hkey : other.cacheKey = check.cacheKey) :
    (marked other).refresh 0 check 1 = false := by
  simp only [marked_eq, Checks.markRefreshed, Checks.refresh, isCacheFresh,
    hkey, Dict.get?_set_self]
  decide +kernel

theorem marked_recorded {other first : Checked} {time : ℚ}
    (h : (first, time) ∈ (marked other).recorded) :
    first = other := by
  rw [marked_eq] at h
  exact congrArg Prod.fst (List.mem_singleton.mp h)

/-- The checks of a fleet skip a refresh only for the machine that had it, in
every run, if and only if no two machines of the fleet share a key. -/
theorem skips_own_iff (fleet : Set Checked) :
    (∀ run, NonDecreasing run → Within fleet run → Meets step SkipsOwn {} run) ↔
      KeysApart fleet := by
  rw [keysApart_iff]
  constructor
  · intro hruns check hcheck other hother hkey
    have hwithin : Within fleet [(0, .begun other 1), (0, .answered 0), (0, .begun check 1)] := by
      intro now c ttlMinutes hmem
      rcases (by simpa using hmem : _ ∨ _) with ⟨_, rfl, _⟩ | ⟨_, rfl, _⟩
      · exact hother
      · exact hcheck
    obtain ⟨-, -, hskips, -⟩ := hruns _ (by simp [NonDecreasing]) hwithin
    obtain ⟨first, time, hmem, hmachine, _⟩ := hskips (marked_fresh other check hkey)
    rwa [marked_recorded hmem] at hmachine
  · intro hapart run _ hwithin
    have hin : Meets step (fun _ event => ∀ now check ttlMinutes,
        event = (now, .begun check ttlMinutes) → check ∈ fleet) {} run :=
      meets_of_forall fun event hevent _ now check ttlMinutes heq =>
        hwithin now check ttlMinutes (heq ▸ hevent)
    have hkept := reached_all (P := Kept fleet) (fun s event h hfleet => h.step hfleet)
      ⟨by simp, by simp, by simp⟩ hin
    refine meets_of_reached (fun s event h hfleet => ?_) hkept hin
    obtain ⟨now, event⟩ := event
    cases event with
    | begun check ttlMinutes =>
        intro hskip
        obtain ⟨other, time, hmem, hkey, hlater⟩ := skipped_recorded h hskip
        exact ⟨other, time, hmem,
          hapart check (hfleet now check ttlMinutes rfl) other (h.recorded _ hmem) hkey, hlater⟩
    | answered index => trivial
    | failed index => trivial
    | restarted => trivial

/-- Two servers, each with a guest of the same number on a node of the same name. -/
def twoServers : Config where
  proxmoxServers := some [{ id := "a", url := some "https://10.0.0.1:8006" },
    { id := "b", url := some "https://10.0.0.2:8006" }]
  hosts := [{ name := "web", host := "10.0.0.11", proxmoxNode := some "pve",
              proxmoxVmid := some 100, proxmoxServer := some "a" },
    { name := "mail", host := "10.0.0.12", proxmoxNode := some "pve",
      proxmoxVmid := some 100, proxmoxServer := some "b" }]

/-- A minute after the guest of the first server, that of the second is checked. -/
def twoServersRun : List (ℚ × Event) :=
  match twoServers.getHosts.filterMap (scanHost twoServers) with
  | [web, mail] => [(0, .begun web 15), (10, .answered 0), (60, .begun mail 15)]
  | _ => []

theorem twoServers_share_refresh : ¬ Meets step SkipsOwn {} twoServersRun := by
  have hrun : twoServersRun = [(0, .begun (.lxc "a" "pve" 100) 15), (10, .answered 0),
      (60, .begun (.lxc "b" "pve" 100) 15)] := by decide +kernel
  rw [hrun]
  rintro ⟨-, -, hskips, -⟩
  obtain ⟨other, time, hmem, hmachine, _⟩ := hskips (by decide +kernel)
  have hrecorded : (step (step {} (0, .begun (.lxc "a" "pve" 100) 15)) (10, .answered 0)).recorded =
      [(.lxc "a" "pve" 100, 10)] := by decide +kernel
  rw [hrecorded] at hmem
  obtain ⟨rfl, -⟩ := Prod.mk.inj (List.mem_singleton.mp hmem)
  simp [Checked.machine] at hmachine

end Runs

end Keepup.RefreshCache
