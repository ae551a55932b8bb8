import Keepup.Config.Reset

/-!
What an operation on one host does to the others. Hosts are told apart by the
slugs of their names, which no operation keeps distinct by itself; the main
theorem says that everything depends on the names that are given out.
-/

namespace Keepup

open Lib

/-- The operations on a host, with what the admin pages do to its credentials. -/
inductive HostChange where
  | addHost (name host : String) (user : Option String) (port : Option Int)
      (keyPath dockerMode proxmoxNode : Option String) (proxmoxVmid : Option Int)
      (proxmoxType proxmoxServer : Option String)
  | updateHost (slug name host : String) (user : Option String) (port : Option Int)
  | deleteHost (slug : String)
  | saveCredentials (slug : String) (sshPassword sshKey sudoPassword : Option String)
  | setDockerMonitoring (slug mode : String) (containers : Option (List String))
  | setHostAutoUpdate (slug : String) (osEnabled : Bool) (osSchedule : String) (autoReboot : Bool)

namespace HostChange

/-- The slug of the host that an operation is for. -/
def slug : HostChange → String
  | addHost name .. => slugify name
  | updateHost slug .. => slug
  | deleteHost slug => slug
  | saveCredentials slug .. => slug
  | setDockerMonitoring slug .. => slug
  | setHostAutoUpdate slug .. => slug

def apply (s : Installation) : HostChange → Installation
  | addHost name host user port keyPath dockerMode node vmid type server =>
      s.withConfig (s.config.addHost
        (Config.buildHostEntry name host user port keyPath dockerMode node vmid type server))
  | updateHost slug name host user port =>
      { s.withConfig (s.config.updateHost slug name host user port) with
        store := (s.store.renameCredentials slug (slugify name)).getD s.store }
  | deleteHost slug =>
      { s.withConfig (s.config.deleteHost slug) with store := s.store.deleteCredentials slug }
  | saveCredentials slug sshPassword sshKey sudoPassword =>
      { s with store := s.store.saveCredentials slug sshPassword sshKey sudoPassword }
  | setDockerMonitoring slug mode containers =>
      s.withConfig (s.config.setDockerMonitoring slug mode containers)
  | setHostAutoUpdate slug osEnabled osSchedule autoReboot =>
      s.withConfig (s.config.setHostAutoUpdate slug osEnabled osSchedule autoReboot)

end HostChange

section Isolation

variable (s : Installation)

/-- Between two states, one host of a slug may come, go or change; all others keep
their entries and their credentials. -/
def OthersKept (slug : String) (s s' : Installation) : Prop :=
  ∃ before after : List HostEntry, ∃ own own' : Option HostEntry,
    s.config.hosts = before ++ own.toList ++ after ∧
    s'.config.hosts = before ++ own'.toList ++ after ∧ (∀ host ∈ own, host.slug = slug) ∧
    ∀ host ∈ before ++ after, s'.store.getCredentials host.slug = s.store.getCredentials host.slug

/-- The operation is for a host that there is, or a new one. -/
def Addressed : HostChange → Prop
  | .addHost .. => True
  | o => ∃ host ∈ s.config.hosts, host.slug = o.slug

/-- A name that is given to a host has the slug of no other host. -/
def TakesFreeSlug : HostChange → Prop
  | .addHost name .. => ∀ host ∈ s.config.hosts, host.slug ≠ slugify name
  | .updateHost slug name .. => ∀ before old after, s.config.hosts = before ++ old :: after →
      old.slug = slug → (∀ x ∈ before, x.slug ≠ slug) →
        ∀ host ∈ before ++ after, host.slug ≠ slugify name
  | _ => True

def DistinctSlugs : Prop := (s.config.hosts.map HostEntry.slug).Nodup

/-- An operation on a host leaves all others as they are. -/
def Isolates (o : HostChange) : Prop := Addressed s o → OthersKept o.slug s (o.apply s)

variable {s}

theorem changeHost_slugs {slug : String} {change : HostEntry → HostEntry}
    (h : ∀ x, (change x).slug = x.slug) (hosts : List HostEntry) :
    (Config.changeHost slug change hosts).map HostEntry.slug = hosts.map HostEntry.slug := by
  induction hosts with
  | nil => rfl
  | cons x hosts ih =>
      rw [Config.changeHost]
      split
      · simp [h x]
      · simp [ih]

/-- The host of a slug, when there are no two of one slug. -/
theorem DistinctSlugs.split (h : DistinctSlugs s) {slug : String}
    (hmem : ∃ host ∈ s.config.hosts, host.slug = slug) :
    ∃ before old after, s.config.hosts = before ++ old :: after ∧ old.slug = slug ∧
      (∀ x ∈ before, x.slug ≠ slug) ∧ ∀ x ∈ before ++ after, x.slug ≠ slug := by
  obtain ⟨before, old, after, hhosts, hslug, hfirst⟩ := Config.exists_firstOfSlug hmem
  refine ⟨before, old, after, hhosts, hslug, hfirst, fun x hx hsame => ?_⟩
  rw [DistinctSlugs, hhosts, List.map_append, List.map_cons, List.nodup_middle, List.nodup_cons,
    ← List.map_append] at h
  exact h.1 (List.mem_map.mpr ⟨x, hx, hsame.trans hslug.symm⟩)

/-- Slugs stay distinct exactly if every name that is given out has a free one. -/
theorem distinctSlugs_apply_iff (h : DistinctSlugs s) (o : HostChange) :
    DistinctSlugs (o.apply s) ↔ TakesFreeSlug s o := by
  cases o with
  | addHost name host user port keyPath dockerMode node vmid type server =>
      have hslugs : (HostChange.addHost name host user port keyPath dockerMode node vmid type
          server |>.apply s).config.hosts.map HostEntry.slug =
            s.config.hosts.map HostEntry.slug ++ [slugify name] := List.map_append
      have hnodup : (s.config.hosts.map HostEntry.slug).Nodup := h
      rw [DistinctSlugs, hslugs, List.nodup_append_comm, List.singleton_append, List.nodup_cons,
        and_iff_left hnodup, List.mem_map]
      exact ⟨fun hnew host hhost hsame => hnew ⟨host, hhost, hsame⟩,
        fun hfree ⟨host, hhost, hsame⟩ => hfree host hhost hsame⟩
  | updateHost slug name host user port =>
      by_cases hmem : ∃ old ∈ s.config.hosts, old.slug = slug
      · obtain ⟨before, old, after, hhosts, hslug, hfirst, _⟩ := h.split hmem
        have hchanged : (HostChange.updateHost slug name host user port |>.apply s).config.hosts =
            before ++ Config.editedEntry name host user port old :: after := by
          refine Eq.trans ?_ (Config.changeHost_append hfirst hslug)
          rw [← hhosts]
          rfl
        have hrest : ((before ++ after).map HostEntry.slug).Nodup := by
          rw [DistinctSlugs, hhosts, List.map_append, List.map_cons, List.nodup_middle,
            ← List.map_append] at h
          exact h.of_cons
        rw [DistinctSlugs, hchanged, List.map_append, List.map_cons, List.nodup_middle,
          ← List.map_append, List.nodup_cons, and_iff_left hrest, List.mem_map]
        constructor
        · intro hnew before' old' after' hsplit hslug' hfirst' x hx hsame
          obtain ⟨rfl, rfl, rfl⟩ :=
            Config.firstOfSlug_unique (hhosts.symm.trans hsplit) hslug hfirst hslug' hfirst'
          exact hnew ⟨x, hx, hsame⟩
        · rintro hfree ⟨x, hx, hsame⟩
          exact hfree before old after hhosts hslug hfirst x hx hsame
      · have hnone : ∀ old ∈ s.config.hosts, old.slug ≠ slug := by simpa using hmem
        have hsame : (HostChange.updateHost slug name host user port |>.apply s).config.hosts =
            s.config.hosts := Config.changeHost_of_not_mem hnone
        rw [DistinctSlugs, hsame]
        refine iff_of_true h fun before old after hsplit hslug => ?_
        exact absurd hslug (hnone old (by simp [hsplit]))
  | deleteHost slug =>
      exact iff_of_true ((List.filter_sublist.map HostEntry.slug).nodup h) trivial
  | saveCredentials slug sshPassword sshKey sudoPassword => exact iff_of_true h trivial
  | setDockerMonitoring slug mode containers =>
      have hname : ∀ x, (Config.monitoredEntry mode containers x).slug = x.slug := fun x => by
        simp [HostEntry.slug]
      have hslugs : (Config.changeHost slug (Config.monitoredEntry mode containers)
          s.config.hosts).map HostEntry.slug = _ := changeHost_slugs hname s.config.hosts
      exact iff_of_true (by rwa [DistinctSlugs, ← hslugs] at h) trivial
  | setHostAutoUpdate slug osEnabled osSchedule autoReboot =>
      have hname : ∀ x, (Config.scheduledEntry osEnabled osSchedule autoReboot x).slug = x.slug :=
        fun _ => rfl
      have hslugs : (Config.changeHost slug (Config.scheduledEntry osEnabled osSchedule autoReboot)
          s.config.hosts).map HostEntry.slug = _ := changeHost_slugs hname s.config.hosts
      exact iff_of_true (by rwa [DistinctSlugs, ← hslugs] at h) trivial

theorem getCredentials_congr {store store' : Store} {slug : String}
    (h : store'.get? slug = store.get? slug) :
    store'.getCredentials slug = store.getCredentials slug := by
  rw [Store.getCredentials, Store.getCredentials, Dict.getD, Dict.getD, h]

theorem renameCredentials_other {store : Store} {oldSlug newSlug key : String}
    (hold : key ≠ oldSlug) (hnew : key ≠ newSlug) :
    ((store.renameCredentials oldSlug newSlug).getD store).get? key = store.get? key := by
  rw [Store.renameCredentials]
  split
  · rfl
  · cases hrename : store.renameUnder oldSlug newSlug with
    | none => rfl
    | some renamed => exact Store.renameUnder_other hrename hold hnew

/-- Changing the first host of a slug keeps the others. -/
theorem othersKept_changeHost (hdistinct : DistinctSlugs s) {slug : String}
    {change : HostEntry → HostEntry} {s' : Installation}
    (hmem : ∃ host ∈ s.config.hosts, host.slug = slug)
    (hhosts : s'.config.hosts = Config.changeHost slug change s.config.hosts)
    (hstore : ∀ host ∈ s.config.hosts, host.slug ≠ slug →
      s'.store.getCredentials host.slug = s.store.getCredentials host.slug) :
    OthersKept slug s s' := by
  obtain ⟨before, old, after, hsplit, hslug, hfirst, hothers⟩ := hdistinct.split hmem
  refine ⟨before, after, some old, some (change old), by simp [hsplit],
    ?_, by simpa using hslug, ?_⟩
  · rw [hhosts, hsplit, Config.changeHost_append hfirst hslug]
    simp
  · intro host hhost
    refine hstore host ?_ (hothers host hhost)
    rw [hsplit]
    exact (List.sublist_cons_self old after).append_left before |>.subset hhost

/-- With distinct slugs, an operation that takes a free slug keeps all other hosts. -/
theorem isolates_of_distinctSlugs (hdistinct : DistinctSlugs s) {o : HostChange}
    (hfree : TakesFreeSlug s o) : Isolates s o := by
  cases o with
  | addHost name host user port keyPath dockerMode node vmid type server =>
      intro _
      let entry := Config.buildHostEntry name host user port keyPath
        dockerMode node vmid type server
      refine ⟨s.config.hosts, [], none, some entry, by simp, ?_, by simp, fun x _ => ?_⟩
      · simp [HostChange.apply, Installation.withConfig, Config.addHost, entry]
      · simp only [HostChange.apply, Installation.withConfig]
  | updateHost slug name host user port =>
      intro (hmem : ∃ old ∈ s.config.hosts, old.slug = slug)
      have hhosts : (HostChange.updateHost slug name host user port |>.apply s).config.hosts =
          Config.changeHost slug (Config.editedEntry name host user port) s.config.hosts := rfl
      refine othersKept_changeHost hdistinct hmem hhosts fun x hx hne => ?_
      obtain ⟨before, old, after, hsplit, hslug, hfirst, _⟩ := hdistinct.split hmem
      have hother : x ∈ before ++ after := by
        rw [hsplit, List.mem_append, List.mem_cons] at hx
        rcases hx with hx | rfl | hx
        · exact List.mem_append_left after hx
        · exact absurd hslug hne
        · exact List.mem_append_right before hx
      have hnew : x.slug ≠ slugify name := hfree before old after hsplit hslug hfirst x hother
      have hstore : (HostChange.updateHost slug name host user port |>.apply s).store =
          (s.store.renameCredentials slug (slugify name)).getD s.store := by
        simp only [HostChange.apply]
      rw [hstore]
      exact getCredentials_congr (renameCredentials_other hne hnew)
  | deleteHost slug =>
      intro (hmem : ∃ old ∈ s.config.hosts, old.slug = slug)
      obtain ⟨before, old, after, hsplit, hslug, _, hothers⟩ := hdistinct.split hmem
      refine ⟨before, after, some old, none, by simp [hsplit],
        ?_, by simpa [HostChange.slug] using hslug, ?_⟩
      · have hkept : (before ++ after).filter (·.slug ≠ slug) = before ++ after :=
          List.filter_eq_self.mpr fun x hx => by simpa using hothers x hx
        have hdeleted : (HostChange.deleteHost slug |>.apply s).config.hosts =
            s.config.hosts.filter (·.slug ≠ slug) := rfl
        rw [hdeleted, hsplit, List.filter_append, List.filter_cons_of_neg (by simpa using hslug),
          ← List.filter_append, hkept]
        simp
      · intro x hx
        exact getCredentials_congr (Dict.get?_pop_ne s.store (hothers x hx))
  | saveCredentials slug sshPassword sshKey sudoPassword =>
      intro (hmem : ∃ old ∈ s.config.hosts, old.slug = slug)
      obtain ⟨before, old, after, hsplit, hslug, _, hothers⟩ := hdistinct.split hmem
      refine ⟨before, after, some old, some old, by simp [hsplit],
        ?_, by simpa [HostChange.slug] using hslug, ?_⟩
      · exact hsplit.trans (by simp)
      · intro x hx
        exact getCredentials_congr (Store.saveUnder_other (hothers x hx))
  | setDockerMonitoring slug mode containers =>
      intro (hmem : ∃ old ∈ s.config.hosts, old.slug = slug)
      have hhosts : (HostChange.setDockerMonitoring slug mode containers |>.apply s).config.hosts =
          Config.changeHost slug (Config.monitoredEntry mode containers) s.config.hosts := rfl
      exact othersKept_changeHost hdistinct hmem hhosts fun _ _ _ => rfl
  | setHostAutoUpdate slug osEnabled osSchedule autoReboot =>
      intro (hmem : ∃ old ∈ s.config.hosts, old.slug = slug)
      have hhosts : (HostChange.setHostAutoUpdate slug osEnabled osSchedule autoReboot |>.apply
          s).config.hosts = Config.changeHost slug
            (Config.scheduledEntry osEnabled osSchedule autoReboot) s.config.hosts := rfl
      exact othersKept_changeHost hdistinct hmem hhosts fun _ _ _ => rfl

/-- To delete a host of a slug is to delete all hosts of that slug. -/
theorem distinctSlugs_of_isolates (h : ∀ slug, Isolates s (.deleteHost slug)) :
    DistinctSlugs s := by
  rw [DistinctSlugs, List.nodup_iff_count_le_one]
  intro slug
  by_cases hmem : ∃ host ∈ s.config.hosts, host.slug = slug
  · obtain ⟨before, after, own, own', hhosts, hhosts', _, _⟩ := h slug hmem
    have hrest : ∀ x ∈ before ++ after, x.slug ≠ slug := by
      intro x hx
      have hkept : x ∈ s.config.hosts.filter (·.slug ≠ slug) := by
        have hdeleted : (HostChange.deleteHost slug |>.apply s).config.hosts =
            s.config.hosts.filter (·.slug ≠ slug) := rfl
        rw [← hdeleted, hhosts']
        rcases List.mem_append.mp hx with hx | hx
        · simp [hx]
        · simp [hx]
      simpa using (List.mem_filter.mp hkept).2
    have hnone : ∀ part : List HostEntry, (∀ x ∈ part, x.slug ≠ slug) →
        (part.map HostEntry.slug).count slug = 0 := fun part hpart =>
      List.count_eq_zero_of_not_mem fun hin => by
        obtain ⟨x, hx, hsame⟩ := List.mem_map.mp hin
        exact hpart x hx hsame
    have hbefore := hnone before fun x hx => hrest x (List.mem_append_left after hx)
    have hafter := hnone after fun x hx => hrest x (List.mem_append_right before hx)
    have hown : (own.toList.map HostEntry.slug).count slug ≤ 1 := by
      refine List.count_le_length.trans ?_
      cases own <;> simp
    rw [hhosts, List.map_append, List.map_append, List.count_append,
      List.count_append, hbefore, hafter]
    omega
  · rw [List.count_eq_zero_of_not_mem]
    · exact Nat.zero_le 1
    · simpa using hmem

/-- Every operation of a run keeps the hosts that it is not for, and so would any
other that could come at any point of it. -/
def HostsIsolated (s : Installation) (ops : List HostChange) : Prop :=
  Meets HostChange.apply Isolates s ops ∧
    ∀ t ∈ reached HostChange.apply s ops, ∀ o, TakesFreeSlug t o → Isolates t o

/-- The hosts of a run are kept apart exactly if their slugs are distinct at its
start, and every name that it gives out has a free one. -/
theorem hosts_isolated_iff (s : Installation) (ops : List HostChange) :
    HostsIsolated s ops ↔ DistinctSlugs s ∧ Meets HostChange.apply TakesFreeSlug s ops := by
  constructor
  · rintro ⟨_, hall⟩
    have hdistinct : ∀ t ∈ reached HostChange.apply s ops, DistinctSlugs t := fun t ht =>
      distinctSlugs_of_isolates fun slug => hall t ht (.deleteHost slug) trivial
    have hstart := hdistinct s (mem_reached_start s ops)
    have hsteps := reached_all_iff (P := DistinctSlugs) (fun t o ht => distinctSlugs_apply_iff ht o)
      hstart ops
    exact ⟨hstart, hsteps.mp hdistinct⟩
  · rintro ⟨hstart, hfree⟩
    have hsteps := reached_all_iff (P := DistinctSlugs) (fun t o ht => distinctSlugs_apply_iff ht o)
      hstart ops
    have hdistinct := hsteps.mpr hfree
    refine ⟨?_, fun t ht o ho => isolates_of_distinctSlugs (hdistinct t ht) ho⟩
    exact meets_of_reached (fun t o ht ho => isolates_of_distinctSlugs ht ho) hdistinct hfree

def added (name host : String) : HostChange :=
  .addHost name host (some "admin") none none none none none none none

/-- Two hosts whose names have one slug, of which the second is deleted. -/
def sameSlug : List HostChange :=
  [added "Web 1" "10.0.0.1", added "web_1" "10.0.0.2", .deleteHost "web-1"]

theorem deletion_takes_other_host :
    ¬ Meets HostChange.apply Isolates Installation.fresh sameSlug := by
  rintro ⟨_, _, hisolates, _⟩
  let s := (added "web_1" "10.0.0.2").apply ((added "Web 1" "10.0.0.1").apply Installation.fresh)
  have haddressed : Addressed s (.deleteHost "web-1") := by
    change ∃ host ∈ s.config.hosts, host.slug = "web-1"
    decide +kernel
  obtain ⟨before, after, own, own', hhosts, hhosts', _⟩ := hisolates haddressed
  have hnone : (HostChange.deleteHost "web-1" |>.apply s).config.hosts = [] := by decide +kernel
  have htwo : s.config.hosts.length = 2 := by decide +kernel
  rw [hnone, eq_comm, List.append_eq_nil_iff, List.append_eq_nil_iff] at hhosts'
  have hshort := congrArg List.length hhosts
  rw [hhosts'.1.1, hhosts'.2] at hshort
  cases own with
  | none => simp [htwo, s] at hshort
  | some host => simp [htwo, s] at hshort

end Isolation

end Keepup
