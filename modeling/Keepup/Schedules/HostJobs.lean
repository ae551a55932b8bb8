import Keepup.Config.Reset
import Keepup.Hosts.Wizard
import Keepup.Schedules.Scheduler

/-!
The jobs of the hosts after a start of the application. Which hosts have the job
that their settings ask for is a property of the configuration alone; the main
theorem says which operations of the wizard and of the admin pages keep it.
-/

namespace Keepup.Schedules

open Lib

section Jobs

def osEnabled (host : HostEntry) : Bool := (host.autoUpdate.getD {}).osEnabled

/-- The position of the host that a scheduled upgrade works on: the first of its slug. -/
def upgraded (config : Config) (slug : String) : Option Nat :=
  config.getHosts.findIdx? fun host => host.slug == slug

/-- The job with an id upgrades the host at a position. -/
def RunsHost (config : Config) (jobs : Jobs) (id : String) (i : Nat) : Prop :=
  ∃ job slug, jobs.get? id = some job ∧ job.task = .runOsUpdate slug ∧ upgraded config slug = some i

/-- Every host with updates enabled has one job, that upgrades this host, and
the other hosts have none. -/
def HostJobsMatch (config : Config) (jobs : Jobs) : Prop :=
  ∀ i host, config.getHosts[i]? = some host →
    if osEnabled host then ∃! id, RunsHost config jobs id i else ∀ id, ¬ RunsHost config jobs id i

/-- The settings of a host name a time that the scheduler understands. -/
def Schedulable (crontab : Crontab) (host : HostEntry) : Prop :=
  ∃ au schedule, host.autoUpdate = some au ∧ au.osSchedule = some schedule ∧ schedule ≠ "" ∧
    crontab.valid schedule = true

/-- The hosts with updates enabled can be scheduled, and none comes after a host
of the same slug. -/
def Sound (crontab : Crontab) (config : Config) : Prop :=
  (∀ host ∈ config.getHosts, osEnabled host = true → Schedulable crontab host) ∧
    config.getHosts.Pairwise fun x y => osEnabled y = true → x.slug ≠ y.slug

variable {crontab : Crontab} {config : ConfigFile}

theorem findHost_of_upgraded {config : Config} {slug : String} {i : Nat} {host : HostEntry}
    (hi : config.getHosts[i]? = some host) (h : upgraded config slug = some i) :
    config.findHost slug = some host ∧ host.slug = slug := by
  rw [upgraded, List.findIdx?_eq_some_iff_getElem] at h
  obtain ⟨hlt, hslug, hfirst⟩ := h
  have hget : config.getHosts[i] = host := by
    rw [List.getElem?_eq_getElem hlt] at hi
    exact Option.some.inj hi
  refine ⟨?_, by simpa [hget] using hslug⟩
  rw [Config.findHost, List.find?_eq_some_iff_getElem]
  exact ⟨hget ▸ hslug, i, hlt, hget, fun j hj => by simpa using hfirst j hj⟩

theorem osJob_isSome_iff {slug : String} {host : HostEntry} (h : config.findHost slug = some host) :
    (∃ job, osJob crontab config slug = some job) ↔
      osEnabled host = true ∧ Schedulable crontab host := by
  cases hau : host.autoUpdate with
  | none => simp [osJob, h, hau, osEnabled, Schedulable]
  | some au =>
      cases hschedule : au.osSchedule with
      | none => simp [osJob, h, hau, hschedule, Schedulable]
      | some schedule => simp [osJob, h, hau, hschedule, osEnabled, Schedulable]

/-- After a start, a host is upgraded by the job of its slug, if it is the first of
that slug and can be scheduled. -/
theorem runsHost_startup_iff {id : String} {i : Nat} {host : HostEntry}
    (hi : config.getHosts[i]? = some host) :
    RunsHost config.toConfig (startup crontab config) id i ↔
      id = osJobId host.slug ∧ upgraded config.toConfig host.slug = some i ∧
        osEnabled host = true ∧ Schedulable crontab host := by
  constructor
  · rintro ⟨job, slug, hjob, htask, hslug⟩
    obtain ⟨hfound, rfl⟩ := findHost_of_upgraded hi hslug
    rcases startup_get?_cases hjob with ⟨other, rfl, hother⟩ | ⟨path, _, hpath⟩ | ⟨_, hcheck⟩
    · have hslugs : other = host.slug := Task.runOsUpdate.inj ((osJob_some hother).symm.trans htask)
      subst hslugs
      exact ⟨rfl, hslug, (osJob_isSome_iff hfound).mp ⟨job, hother⟩⟩
    · obtain ⟨_, _, _, _, _, rfl⟩ := stackJob_eq_some.mp hpath
      cases htask
    · rw [updateCheckJob, Option.ite_none_left_eq_some] at hcheck
      rw [← Option.some.inj hcheck.2] at htask
      cases htask
  · rintro ⟨rfl, hfirst, hready⟩
    obtain ⟨job, hjob⟩ := (osJob_isSome_iff (findHost_of_upgraded hi hfirst).1).mpr hready
    exact ⟨job, host.slug, (startup_osJob crontab config host.slug).trans hjob,
      osJob_some hjob, hfirst⟩

theorem sound_iff_first : Sound crontab config.toConfig ↔
    ∀ i host, config.getHosts[i]? = some host → osEnabled host = true →
      Schedulable crontab host ∧ upgraded config.toConfig host.slug = some i := by
  constructor
  · rintro ⟨hready, hpairs⟩ i host hi henabled
    obtain ⟨hlt, hget⟩ := List.getElem?_eq_some_iff.mp hi
    refine ⟨hready host (List.mem_of_getElem? hi) henabled, ?_⟩
    rw [upgraded, List.findIdx?_eq_some_iff_getElem]
    refine ⟨hlt, by simp [hget], fun j hj => ?_⟩
    have hpair := List.pairwise_iff_getElem.mp hpairs j i (by omega) hlt hj
    rw [hget] at hpair
    simpa using hpair henabled
  · intro hall
    refine ⟨fun host hmem henabled => ?_, ?_⟩
    · obtain ⟨i, hi⟩ := List.mem_iff_getElem?.mp hmem
      exact (hall i host hi henabled).1
    · rw [List.pairwise_iff_getElem]
      intro i j hi hj hij henabled hsame
      have hfirst := (hall j _ (List.getElem?_eq_getElem hj) henabled).2
      rw [upgraded, List.findIdx?_eq_some_iff_getElem] at hfirst
      obtain ⟨_, _, hbefore⟩ := hfirst
      exact hbefore i hij (by simpa using hsame)

/-- The jobs after a start match exactly the sound configurations. -/
theorem hostJobsMatch_startup_iff :
    HostJobsMatch config.toConfig (startup crontab config) ↔ Sound crontab config.toConfig := by
  rw [sound_iff_first]
  refine forall₃_congr fun i host hi => ?_
  simp only [runsHost_startup_iff hi]
  by_cases henabled : osEnabled host = true
  · simp only [henabled, if_true, forall_const, true_and]
    constructor
    · rintro ⟨id, ⟨_, hfirst, hready⟩, _⟩
      exact ⟨hready, hfirst⟩
    · rintro ⟨hready, hfirst⟩
      exact ⟨osJobId host.slug, ⟨rfl, hfirst, hready⟩, fun id h => h.1⟩
  · simp [henabled]

end Jobs

section Lists

/-- A placeholder that was never filled in. -/
def isPlaceholder (host : HostEntry) : Bool := Text.isIn "XXX" host.host

/-- `Sound`, on the host entries as they stand in the file. -/
def SoundHosts (crontab : Crontab) (hosts : List HostEntry) : Prop :=
  (∀ host ∈ hosts, isPlaceholder host = false → osEnabled host = true → Schedulable crontab host) ∧
    hosts.Pairwise fun x y =>
      isPlaceholder x = false → isPlaceholder y = false → osEnabled y = true → x.slug ≠ y.slug

/-- What scheduling depends on. -/
def scheduledPart (host : HostEntry) : HostEntry :=
  { name := host.name, host := host.host, autoUpdate := host.autoUpdate }

variable {crontab : Crontab} {hosts hosts' before after : List HostEntry} {host host' : HostEntry}

theorem sound_iff_soundHosts {config : Config} :
    Sound crontab config ↔ SoundHosts crontab config.hosts := by
  simp only [Sound, SoundHosts, Config.getHosts, List.pairwise_filter,
    List.mem_filter, isPlaceholder,
    Bool.not_eq_true', and_imp]

theorem soundHosts_map_scheduledPart :
    SoundHosts crontab (hosts.map scheduledPart) ↔ SoundHosts crontab hosts := by
  simp only [SoundHosts, List.forall_mem_map, List.pairwise_map]
  exact Iff.rfl

/-- Dropping hosts, and changing what scheduling does not depend on, keeps a list sound. -/
theorem SoundHosts.sublist (h : SoundHosts crontab hosts)
    (hsub : (hosts'.map scheduledPart).Sublist (hosts.map scheduledPart)) :
    SoundHosts crontab hosts' := by
  rw [← soundHosts_map_scheduledPart] at h ⊢
  exact ⟨fun host hhost => h.1 host (hsub.subset hhost), h.2.sublist hsub⟩

theorem soundHosts_append_iff (hnew : osEnabled host = false) :
    SoundHosts crontab (hosts ++ [host]) ↔ SoundHosts crontab hosts := by
  constructor
  · intro h
    exact h.sublist ((List.sublist_append_left hosts [host]).map scheduledPart)
  · rintro ⟨hready, hpairs⟩
    refine ⟨fun x hx => ?_, List.pairwise_append.mpr ⟨hpairs, List.pairwise_singleton _ _, ?_⟩⟩
    · rcases List.mem_append.mp hx with hx | hx
      · exact hready x hx
      · obtain rfl := List.mem_singleton.mp hx
        simp [hnew]
    · intro x _ y hy
      obtain rfl := List.mem_singleton.mp hy
      simp [hnew]

/-- What a host changes for is its own settings and the pairs it is in. -/
theorem soundHosts_middle_iff : SoundHosts crontab (before ++ host :: after) ↔
    SoundHosts crontab (before ++ after) ∧
      (isPlaceholder host = false → osEnabled host = true →
        Schedulable crontab host ∧ ∀ x ∈ before, isPlaceholder x = false → x.slug ≠ host.slug) ∧
      (isPlaceholder host = false → ∀ y ∈ after, isPlaceholder y = false → osEnabled y = true →
        host.slug ≠ y.slug) := by
  simp only [SoundHosts, List.pairwise_append, List.pairwise_cons, List.mem_append, List.mem_cons,
    forall_eq_or_imp]
  grind

theorem filterMap_scheduledPart_sublist {f : HostEntry → Option HostEntry}
    (h : ∀ x y, f x = some y → scheduledPart y = scheduledPart x) (hosts : List HostEntry) :
    ((hosts.filterMap f).map scheduledPart).Sublist (hosts.map scheduledPart) := by
  induction hosts with
  | nil => exact List.Sublist.refl _
  | cons x hosts ih =>
      cases hx : f x with
      | none => simpa [hx] using ih.cons (scheduledPart x)
      | some y => simpa [hx, h x y hx] using ih

theorem changeHost_scheduledPart {slug : String} {change : HostEntry → HostEntry}
    (h : ∀ x, scheduledPart (change x) = scheduledPart x) (hosts : List HostEntry) :
    (Config.changeHost slug change hosts).map scheduledPart = hosts.map scheduledPart := by
  induction hosts with
  | nil => rfl
  | cons x hosts ih =>
      rw [Config.changeHost]
      split
      · simp [h x]
      · simp [ih]

end Lists

section Operations

variable (crontab : Crontab) (env : Surroundings) (s : Installation)

/-- The forms that save a schedule refuse to enable one that the parser does not take. -/
def refused (enabled : Bool) (schedule : String) : Bool := enabled && !crontab.valid schedule

def osScheduleOf (osSchedule : String) :
    String := Text.orElse (some (Text.strip osSchedule)) "0 3 * * *"

/-- The page of the admin that saves the schedule of a host. -/
def saveHostAutoUpdate (slug : String) (enabled : Bool) (osSchedule : String) (reboot : Bool) :
    Installation :=
  if refused crontab enabled (osScheduleOf osSchedule) then s
  else s.withConfig (s.config.setHostAutoUpdate slug enabled (osScheduleOf osSchedule) reboot)

/-- A write that sets no schedule of a host itself. -/
def setsNoSchedule : SaveOp → Bool
  | .setHostAutoUpdate .. => false
  | .addHost entry => entry.autoUpdate.isNone
  | _ => true

/-- What changes the configuration: the three pages that schedule a host, and
every other write. -/
inductive HostOp where
  | setupAddHost (form : Setup.AddForm) (connected : Bool) (containers : Nat)
  | setupConfirmAddHost (pending : Option Setup.PendingHost) (enableDocker : String)
  | saveHostAutoUpdate (slug : String) (enabled : Bool) (osSchedule : String) (reboot : Bool)
  | write (op : SaveOp) (h : setsNoSchedule op = true)

def hostStep : HostOp → Installation
  | .setupAddHost form connected containers => (Setup.setupAddHost s form connected containers).1
  | .setupConfirmAddHost pending enableDocker => Setup.setupConfirmAddHost s pending enableDocker
  | .saveHostAutoUpdate slug enabled osSchedule reboot =>
      saveHostAutoUpdate crontab s slug enabled osSchedule reboot
  | .write op _ => s.save env op

/-- No host gets the weekly schedule of the wizard, except a placeholder. -/
def RecordedUnscheduled (pending : Setup.PendingHost) (dockerMode : Option String) : Prop :=
  pending.autoUpdate = true →
    ∀ before host after, s.config.hosts ++ [pending.entry dockerMode] = before ++ host :: after →
      host.slug = pending.slug → (∀ x ∈ before, x.slug ≠ pending.slug) → isPlaceholder host = true

/-- A renamed host gets the slug of no later host that has updates enabled. -/
def RenamedApart (slug name host : String) : Prop :=
  ∀ before old after, s.config.hosts = before ++ old :: after → old.slug = slug →
    (∀ x ∈ before, x.slug ≠ slug) → Text.isIn "XXX" host = false →
    ∀ y ∈ after, isPlaceholder y = false → osEnabled y = true → slugify name ≠ y.slug

/-- The condition under which an operation keeps a sound configuration sound. -/
def KeepsSound : HostOp → Prop
  | .setupAddHost form connected containers =>
      form.incomplete = false → connected = true → containers = 0 →
        RecordedUnscheduled s form.pending none
  | .setupConfirmAddHost pending enableDocker => ∀ p, pending = some p →
      RecordedUnscheduled s p (if enableDocker = "yes" then some "all" else none)
  | .saveHostAutoUpdate .. => True
  | .write (.updateHost slug name host _ _) _ => RenamedApart s slug name host
  | .write _ _ => True

end Operations

section Steps

variable {crontab : Crontab} {env : Surroundings} {s : Installation}

theorem not_valid_weekly (crontab : Crontab) : crontab.valid "weekly" = false := by
  cases hvalid : crontab.valid "weekly" with
  | false => rfl
  | true =>
      have hfields := crontab.five_fields "weekly" hvalid
      revert hfields
      decide

/-- What a new schedule has to be, for the first host of its slug. -/
theorem setHostAutoUpdate_sound_iff {config : Config} {slug schedule : String}
    {enabled reboot : Bool} (hsound : SoundHosts crontab config.hosts) :
    SoundHosts crontab (config.setHostAutoUpdate slug enabled schedule reboot).hosts ↔
      ∀ before host after, config.hosts = before ++ host :: after → host.slug = slug →
        (∀ x ∈ before, x.slug ≠ slug) → isPlaceholder host = false → enabled = true →
        schedule ≠ "" ∧ crontab.valid schedule = true := by
  by_cases hmem : ∃ host ∈ config.hosts, host.slug = slug
  · obtain ⟨before, host, after, hhosts, hslug, hfirst⟩ := Config.exists_firstOfSlug hmem
    have hchanged : (config.setHostAutoUpdate slug enabled schedule reboot).hosts =
        before ++ Config.scheduledEntry enabled schedule reboot host :: after := by
      rw [Config.setHostAutoUpdate, hhosts]
      exact Config.changeHost_append hfirst hslug
    rw [hhosts, soundHosts_middle_iff] at hsound
    rw [hchanged, soundHosts_middle_iff]
    obtain ⟨hrest, _, hlater⟩ := hsound
    constructor
    · rintro ⟨_, hnew, _⟩ before' host' after' hsplit hslug' hfirst' hvisible henabled
      obtain ⟨rfl, rfl, rfl⟩ :=
        Config.firstOfSlug_unique (hhosts.symm.trans hsplit) hslug hfirst hslug' hfirst'
      obtain ⟨au, expr, hau, hexpr, hvalid⟩ := (hnew hvisible (by
        simp [osEnabled, Config.scheduledEntry, henabled])).1
      simp only [Config.scheduledEntry, henabled, if_true, Option.some_inj] at hau
      subst hau
      cases hexpr
      exact hvalid
    · intro hall
      refine ⟨hrest, fun hvisible hosEnabled => ?_, hlater⟩
      have henabled : enabled = true := by
        cases enabled with
        | true => rfl
        | false => simp [osEnabled, Config.scheduledEntry] at hosEnabled
      refine ⟨⟨⟨true, some schedule, reboot⟩, schedule, ?_, rfl,
        hall before host after hhosts hslug hfirst hvisible henabled⟩, fun x hx _ => ?_⟩
      · simp [Config.scheduledEntry, henabled]
      · exact fun hsame => hfirst x hx (hsame.trans hslug)
  · have hnone : ∀ host ∈ config.hosts, host.slug ≠ slug := by simpa using hmem
    have hsame : (config.setHostAutoUpdate slug enabled schedule reboot).hosts = config.hosts :=
      Config.changeHost_of_not_mem hnone
    rw [hsame]
    refine iff_of_true hsound fun before host after hsplit hslug => ?_
    exact absurd hslug (hnone host (by simp [hsplit]))

/-- No cron parser takes the wizard's schedule, so only a placeholder may get it. -/
theorem recordHost_sound_iff {pending : Setup.PendingHost} {dockerMode : Option String}
    (hsound : SoundHosts crontab s.config.hosts) :
    SoundHosts crontab (Setup.recordHost s pending dockerMode).config.hosts ↔
      RecordedUnscheduled s pending dockerMode := by
  have hadded : SoundHosts crontab (s.config.addHost (pending.entry dockerMode)).hosts :=
    (soundHosts_append_iff rfl).mpr hsound
  have hconfig : (Setup.recordHost s pending dockerMode).config.toConfig = _ :=
    Setup.recordHost_config
  rw [hconfig]
  by_cases htick : pending.autoUpdate = true
  · rw [if_pos htick, setHostAutoUpdate_sound_iff hadded]
    constructor
    · intro hall _ before host after hsplit hslug hfirst
      cases hplace : isPlaceholder host with
      | true => rfl
      | false =>
          have hvalid := (hall before host after hsplit hslug hfirst hplace rfl).2
          rw [not_valid_weekly] at hvalid
          cases hvalid
    · intro hall before host after hsplit hslug hfirst hvisible
      rw [hall htick before host after hsplit hslug hfirst] at hvisible
      cases hvisible
  · rw [if_neg htick]
    exact iff_of_true hadded fun h => absurd h htick

theorem updateHost_sound_iff {slug name host : String} {user : Option String} {port : Option Int}
    (hsound : SoundHosts crontab s.config.hosts) :
    SoundHosts crontab (s.config.updateHost slug name host user port).hosts ↔
      RenamedApart s slug name host := by
  by_cases hmem : ∃ old ∈ s.config.hosts, old.slug = slug
  · obtain ⟨before, old, after, hhosts, hslug, hfirst⟩ := Config.exists_firstOfSlug hmem
    have hchanged : (s.config.updateHost slug name host user port).hosts =
        before ++ Config.editedEntry name host user port old :: after := by
      rw [Config.updateHost, hhosts]
      exact Config.changeHost_append hfirst hslug
    rw [hhosts, soundHosts_middle_iff] at hsound
    rw [hchanged, soundHosts_middle_iff]
    constructor
    · rintro ⟨_, _, hlater⟩ before' old' after' hsplit hslug' hfirst' hvisible
      obtain ⟨rfl, rfl, rfl⟩ :=
        Config.firstOfSlug_unique (hhosts.symm.trans hsplit) hslug hfirst hslug' hfirst'
      exact hlater hvisible
    · intro hapart
      refine ⟨hsound.1, fun _ henabled => ?_, fun hvisible => ?_⟩
      · simp [osEnabled, Config.editedEntry, Config.buildHostEntry] at henabled
      · exact hapart before old after hhosts hslug hfirst hvisible
  · have hnone : ∀ old ∈ s.config.hosts, old.slug ≠ slug := by simpa using hmem
    have hsame : (s.config.updateHost slug name host user port).hosts = s.config.hosts :=
      Config.changeHost_of_not_mem hnone
    rw [hsame]
    refine iff_of_true hsound fun before old after hsplit hslug => ?_
    exact absurd hslug (hnone old (by simp [hsplit]))

/-- The other writes drop hosts, or change what scheduling does not depend on. -/
theorem save_scheduledPart_sublist (op : SaveOp) (h : setsNoSchedule op = true)
    (hadd : ∀ entry, op ≠ .addHost entry)
    (hupdate : ∀ slug name host user port, op ≠ .updateHost slug name host user port) :
    ((s.save env op).config.hosts.map scheduledPart).Sublist
      (s.config.hosts.map scheduledPart) := by
  have hdelete : ∀ serverId, ((Proxmox.deleteProxmoxServer s.settings serverId).config.hosts.map
      scheduledPart).Sublist (s.config.hosts.map scheduledPart) := by
    intro serverId
    rw [Proxmox.deleteProxmoxServer]
    split
    · refine filterMap_scheduledPart_sublist (fun x y hkept => ?_) s.config.hosts
      rw [Proxmox.keepWithout] at hkept
      split at hkept
      · rw [← Option.some.inj hkept]
      · rw [Option.ite_none_right_eq_some] at hkept
        rw [← Option.some.inj hkept.2]
        rfl
    · exact List.Sublist.refl _
  cases op with
  | addHost entry => exact absurd rfl (hadd entry)
  | updateHost slug name host user port => exact absurd rfl (hupdate slug name host user port)
  | setHostAutoUpdate slug osEnabled osSchedule autoReboot => cases h
  | deleteHost slug => exact List.filter_sublist.map scheduledPart
  | setDockerMonitoring slug mode containers =>
      refine (changeHost_scheduledPart (fun x => ?_) s.config.hosts).symm ▸ List.Sublist.refl _
      rw [Config.monitoredEntry]
      split <;> rfl
  | saveWizardContainerSelection selections =>
      have hsame : (s.config.saveWizardContainerSelection selections).hosts.map scheduledPart =
          s.config.hosts.map scheduledPart := by
        rw [Config.saveWizardContainerSelection, List.map_map]
        refine List.map_congr_left fun x _ => ?_
        dsimp only [Function.comp]
        split <;> rfl
      exact hsame ▸ List.Sublist.refl _
  | deleteProxmoxServer serverId => exact hdelete serverId
  | saveProxmoxConfig url pem fp verify =>
      rw [Installation.save]
      cases hsave : Proxmox.saveProxmoxConfig env s.settings url pem fp verify with
      | none => exact List.Sublist.refl _
      | some t =>
          have hsingle : Proxmox.IsSingletonSave s.settings "" := ⟨by decide, .inl rfl⟩
          obtain ⟨id, hpersisted⟩ : ∃ id, Proxmox.Persisted env s.settings "" url t id :=
            ⟨"", Proxmox.saveProxmoxConfig_persisted hsingle hsave⟩
          cases hpersisted with
          | firstDeleted first rest _ _ _ _ => exact hdelete first.id
          | _ => exact List.Sublist.refl _
  | addProxmoxServer url verify pem fp =>
      rw [Installation.save]
      cases hadded : Proxmox.addProxmoxServer env s.settings url verify pem fp with
      | none => exact List.Sublist.refl _
      | some added =>
          obtain ⟨base, entry, _, _, _, hconfig⟩ := Proxmox.addProxmoxServer_some hadded
          rw [Option.map_some, Option.getD_some, hconfig]
          exact List.Sublist.refl _
  | migrateProxmoxServers =>
      rw [Installation.save]
      generalize hafter : Proxmox.restart env s.settings = t
      cases hafter ▸ Proxmox.restart_migrated env s.settings with
      | moved legacy serverId _ _ _ =>
          have hsame : (s.config.hosts.map (Proxmox.stamp serverId)).map scheduledPart =
              s.config.hosts.map scheduledPart := by
            rw [List.map_map]
            refine List.map_congr_left fun x _ => ?_
            rw [Function.comp, Proxmox.stamp]
            split <;> rfl
          exact hsame ▸ List.Sublist.refl _
      | _ => exact List.Sublist.refl _
  | factoryReset => exact List.nil_sublist _
  | _ => exact List.Sublist.refl _

theorem write_sound_iff (hsound : Sound crontab s.config.toConfig) (op : SaveOp)
    (h : setsNoSchedule op = true) :
    Sound crontab (s.save env op).config.toConfig ↔ KeepsSound s (.write op h) := by
  rw [sound_iff_soundHosts] at hsound ⊢
  cases op with
  | updateHost slug name host user port => exact updateHost_sound_iff hsound
  | addHost entry =>
      have hnone : entry.autoUpdate = none := Option.isNone_iff_eq_none.mp h
      refine iff_of_true ((soundHosts_append_iff ?_).mpr hsound) trivial
      simp [osEnabled, hnone]
  | _ =>
      refine iff_of_true (hsound.sublist (save_scheduledPart_sublist _ h ?_ ?_)) trivial
      · simp
      · simp

/-- What an operation makes of a sound configuration. -/
theorem hostStep_sound_iff (hsound : Sound crontab s.config.toConfig) (o : HostOp) :
    Sound crontab (hostStep crontab env s o).config.toConfig ↔ KeepsSound s o := by
  have hhosts := sound_iff_soundHosts.mp hsound
  cases o with
  | write op h => exact write_sound_iff hsound op h
  | setupAddHost form connected containers =>
      rw [sound_iff_soundHosts, hostStep, Setup.setupAddHost, KeepsSound]
      by_cases hwritten : form.incomplete = false ∧ connected = true ∧ containers = 0
      · obtain ⟨hcomplete, rfl, rfl⟩ := hwritten
        simpa [hcomplete] using recordHost_sound_iff hhosts
      · refine iff_of_true ?_ fun hcomplete hconnected hnone =>
          absurd ⟨hcomplete, hconnected, hnone⟩ hwritten
        split
        · exact hhosts
        · rename_i hrefused
          rw [not_or, Bool.not_eq_true, Bool.not_eq_false] at hrefused
          rw [if_pos (Nat.pos_of_ne_zero fun hnone => hwritten ⟨hrefused.1, hrefused.2, hnone⟩)]
          exact hhosts
  | setupConfirmAddHost pending enableDocker =>
      cases pending with
      | none => exact iff_of_true hsound fun p hp => nomatch hp
      | some p =>
          simp only [hostStep, Setup.setupConfirmAddHost, KeepsSound, Option.some_inj, forall_eq']
          exact sound_iff_soundHosts.trans (recordHost_sound_iff hhosts)
  | saveHostAutoUpdate slug enabled osSchedule reboot =>
      refine iff_of_true ?_ trivial
      rw [sound_iff_soundHosts, hostStep, saveHostAutoUpdate]
      split
      · exact hhosts
      · rename_i hchecked
        refine (setHostAutoUpdate_sound_iff hhosts).mpr fun _ _ _ _ _ _ _ henabled => ?_
        refine ⟨Text.orElse_ne_empty (by decide) _, ?_⟩
        simpa [refused, henabled] using hchecked

/-- The jobs of a start match the configuration in every state of a run, exactly if
no operation gives a host the weekly schedule of the wizard, or a name whose slug is
that of a later host with updates enabled. -/
theorem hostJobs_match_iff (crontab : Crontab) (env : Surroundings) (ops : List HostOp) :
    (∀ s ∈ reached (hostStep crontab env) Installation.fresh ops,
        HostJobsMatch s.config.toConfig (startup crontab s.config)) ↔
      Meets (hostStep crontab env) KeepsSound Installation.fresh ops := by
  have hstart : Sound crontab Installation.fresh.config.toConfig := by
    simp [Sound, Config.getHosts, Installation.fresh]
  rw [← reached_all_iff (P := fun s : Installation => Sound crontab s.config.toConfig)
    (fun s o hsound => hostStep_sound_iff hsound o) hstart]
  exact forall₂_congr fun s _ => hostJobsMatch_startup_iff

/-- A host added on the wizard's page, with automatic updates ticked. -/
def tickedForm : Setup.AddForm where
  name := "Web"
  host := "10.0.0.5"
  user := "admin"
  sshPassword := "pw"
  enableAutoUpdate := "on"

theorem ticked_host_has_no_job : ¬ ∀ s ∈ reached (hostStep plainCrontab Proxmox.plainSurroundings)
    Installation.fresh [.setupAddHost tickedForm true 0],
    HostJobsMatch s.config.toConfig (startup plainCrontab s.config) := by
  intro hmatch
  have hlast := hmatch (hostStep plainCrontab Proxmox.plainSurroundings Installation.fresh
    (.setupAddHost tickedForm true 0)) (by simp [reached])
  have hsound := (hostJobsMatch_startup_iff.mp hlast).1
  obtain ⟨host, hhost, henabled⟩ : ∃ host ∈ (hostStep plainCrontab Proxmox.plainSurroundings
      Installation.fresh (.setupAddHost tickedForm true 0)).config.getHosts,
      osEnabled host = true ∧ host.autoUpdate = some ⟨true, some "weekly", false⟩ := by
    decide +kernel
  obtain ⟨au, schedule, hau, hschedule, _, hvalid⟩ := hsound host hhost henabled.1
  cases henabled.2.symm.trans hau
  cases hschedule
  rw [not_valid_weekly] at hvalid
  cases hvalid

end Steps

end Keepup.Schedules
