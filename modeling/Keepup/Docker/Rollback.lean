import Keepup.Docker.Stages

/-!
One whole update on a host that resolves arguments by exact name. The two
theorems say for which outcomes of its remote commands a failed update has put
the original container back, and for which a finished one has replaced it.
-/

namespace Keepup.Docker

open Lib Remote

/-- An update gets as far as a rename that the host would take. -/
structure SetsAside (t : Target) (name : String) (h : Host) (o : Outcomes) (c : Container) : Prop
    extends Pulled t name h o c where
  free : h.lookup (backupName name) = none

/-- The outcomes from the rename on with which a failed update has restored `c`. -/
def Restores (o : Outcomes) (c : Container) : Prop :=
  (o .rename).fate ≠ .lost true ∧
    (o.Done .rename → ¬ o.Interrupted ∧ (¬ o.Healthy → c.running = true))

theorem successor_ne {n : Name} {h : Host} {o : Outcomes} {c : Container}
    (hfresh : o.Fresh h) (hget : h.get? n = some c) : successor o c ≠ c := by
  intro heq
  have hid : (successor o c).id = c.id := congrArg Container.id heq
  exact h.usesId_eq_false.mp hfresh n c hget hid.symm

section Whole

variable {t : Target} {n : Name} {h : Host} {o : Outcomes} {c : Container}

/-- After the rename an update is interrupted with the original aside, or goes
to the rollback, or ends with the new container under the name. -/
theorem runUpdate_aside (hclean : o.Clean) (hfresh : o.Fresh h)
    (haside : SetsAside t n.val h o c) (hdone : o.Done .rename) :
    (o.Interrupted ∧ ∃ h' e, runUpdate t n.val h o = (h', .error e) ∧
        (h'.get? n = none ∨ h'.get? n = some (successor o c))) ∨
      (¬ o.Interrupted ∧ ¬ o.Healthy ∧ ∃ k run lines h' x, runUpdate t n.val h o =
          exec (serve exactName) (fun _ call => o call.site) k (rollBack t n.val run lines) h' ∧
        Slots n n.backup h x (some (afterStop o c)) h') ∨
      (¬ o.Interrupted ∧ o.Healthy ∧ ∃ h' lines, runUpdate t n.val h o = (h', .ok lines) ∧
        Slots n n.backup h (some (successor o c)) (leftBehind o (afterStop o c)) h') := by
  have hget : h.get? n = some c := by simpa using haside.original
  have hfree : h.get? n.backup = none := by rw [← h.lookup_backup, haside.free]
  obtain ⟨lines, hpulled⟩ := runUpdate_pulled t haside.toPulled
  obtain ⟨h₁, lines₁, hrename, hs₁⟩ := exec_renameAside t hdone hget hfree
  rw [hpulled, hrename]
  by_cases hstop : o.Lost .stop
  · obtain ⟨h', hexec, hnone⟩ := exec_recreate_lost t hstop hs₁
    exact .inl ⟨.inl hstop, h', _, hexec, .inl hnone⟩
  obtain ⟨h₂, lines₂, hrecreate, hs₂⟩ := exec_recreate t hclean hstop hs₁
  have hid : (afterStop o c).id = c.id := by
    unfold afterStop
    split <;> rfl
  have hfresh₂ := hs₂.usesId_aside hget hid hfresh
  rw [hrecreate]
  by_cases hlost : o.Lost .run ∨ (o.Done .run ∧ o.Lost .verify)
  · obtain ⟨h', hexec, hcases⟩ := exec_runReplacement_lost t hlost hfresh₂ hs₂
    have hinterrupted : o.Interrupted := hlost.elim (fun hr => .inr (.inl hr))
      fun hv => .inr (.inr (.inl hv))
    exact .inl ⟨hinterrupted, h', _, hexec, hcases⟩
  obtain ⟨hrun, hverify⟩ := not_or.mp hlost
  by_cases hhealthy : o.Healthy
  · obtain ⟨k, lines₃, h₃, hreplaced, hs₃⟩ :=
      exec_runReplacement_healthy t hclean hhealthy hfresh₂ hs₂
    rw [hreplaced]
    by_cases hrm : o.Lost .rmBackup
    · obtain ⟨h', hexec, hname⟩ := exec_dropBackup_lost t hrm hs₃
      exact .inl ⟨.inr (.inr (.inr ⟨hhealthy, hrm⟩)), h', _, hexec, .inr hname⟩
    · obtain ⟨h', hexec, hs'⟩ := exec_dropBackup t hclean hrm hs₃
      have hgoing : ¬ o.Interrupted := by
        rintro (hl | hl | hl | hl)
        · exact hstop hl
        · exact hrun hl
        · exact hverify hl
        · exact hrm hl.2
      exact .inr (.inr ⟨hgoing, hhealthy, h', _, hexec, hs'⟩)
  · obtain ⟨k, run, lines₃, h₃, x, hback, hs₃⟩ :=
      exec_runReplacement_unhealthy t hclean hrun hverify hhealthy hfresh₂ hs₂
    have hgoing : ¬ o.Interrupted := by
      rintro (hl | hl | hl | hl)
      · exact hstop hl
      · exact hrun hl
      · exact hverify hl
      · exact hhealthy hl.1
    exact .inr (.inl ⟨hgoing, hhealthy, k, run, lines₃, h₃, x, hback, hs₃⟩)

/-- An update that does not set the container aside has changed nothing. -/
theorem runUpdate_untouched {name : String} (hclean : o.Clean)
    (hno : ∀ c, ¬ SetsAside t name h o c) : ∃ e, runUpdate t name h o = (h, .error e) := by
  by_cases hpulled : ∃ c, Pulled t name h o c
  · obtain ⟨c, hp⟩ := hpulled
    obtain ⟨n, rfl, hget⟩ := Host.lookup_some hp.original
    obtain ⟨lines, hrun⟩ := runUpdate_pulled t hp
    have htaken : h.get? n.backup ≠ none := fun hfree =>
      hno c ⟨hp, by rw [h.lookup_backup, hfree]⟩
    obtain ⟨h', e, hexec, hcases⟩ := exec_renameAside_failed t hclean hget
      (fun hboth => htaken hboth.2)
    have hwhole := hrun.trans hexec
    rcases hcases with ⟨_, hfree, _⟩ | ⟨_, hsame⟩
    · exact absurd hfree htaken
    · exact ⟨e, by rw [hwhole, hsame]⟩
  · exact runUpdate_not_pulled t (not_exists.mp hpulled)

end Whole

/-- A failed update has put the original container back under its name, as it
was, exactly under these outcomes. -/
theorem failed_update_restores_iff (t : Target) (name : String) (h : Host) (o : Outcomes)
    (hclean : o.Clean) (hworks : o.RollbackWorks) (hfresh : o.Fresh h) :
    (∀ e, (runUpdate t name h o).2 = .error e →
        (runUpdate t name h o).1.lookup name = h.lookup name) ↔
      ∀ c, SetsAside t name h o c → Restores o c := by
  constructor
  · intro hrestored c haside
    obtain ⟨n, rfl, hget⟩ := Host.lookup_some haside.original
    have hback : ∀ h' e, runUpdate t n.val h o = (h', .error e) → h'.get? n = some c := by
      intro h' e hrun
      have hlookup := hrestored e (by rw [hrun])
      rwa [hrun, Host.lookup_val, Host.lookup_val, hget] at hlookup
    refine ⟨?_, fun hdone => ?_⟩
    · intro hlost
      have hfree : h.get? n.backup = none := by rw [← h.lookup_backup, haside.free]
      obtain ⟨lines, hpulled⟩ := runUpdate_pulled t haside.toPulled
      obtain ⟨h', e, hexec, hcases⟩ := exec_renameAside_failed t hclean hget
        (fun hboth => by rw [Outcomes.Done, hlost] at hboth; cases hboth.1)
      have hpresent := hback h' e (hpulled.trans hexec)
      rcases hcases with ⟨_, _, hgone⟩ | ⟨hnot, _⟩
      · rw [hgone] at hpresent
        cases hpresent
      · exact hnot ⟨hlost, hfree⟩
    · rcases runUpdate_aside hclean hfresh haside hdone with
        ⟨_, h', e, hrun, hname⟩ | ⟨hgoing, hill, k, run, lines, h₁, x, hrun, hs⟩ | ⟨hgoing, hup, _⟩
      · have hpresent := hback h' e hrun
        rcases hname with hnone | hsome
        · rw [hnone] at hpresent
          cases hpresent
        · rw [hsome] at hpresent
          exact absurd (Option.some.inj hpresent) (successor_ne hfresh hget)
      · refine ⟨hgoing, fun _ => ?_⟩
        obtain ⟨h', hexec, hs'⟩ := exec_rollBack t hworks hs
        have hpresent := hback h' _ (hrun.trans hexec)
        rw [hs'.atName] at hpresent
        rw [← Option.some.inj hpresent]
      · exact ⟨hgoing, fun hill => absurd hup hill⟩
  · intro hcond e he
    by_cases haside : ∃ c, SetsAside t name h o c
    · obtain ⟨c, haside⟩ := haside
      obtain ⟨hkept, hdone⟩ := hcond c haside
      obtain ⟨n, rfl, hget⟩ := Host.lookup_some haside.original
      rw [Host.lookup_val, Host.lookup_val, hget]
      by_cases hrename : o.Done .rename
      · obtain ⟨hgoing, hrunning⟩ := hdone hrename
        rcases runUpdate_aside hclean hfresh haside hrename with
          ⟨hlost, _⟩ | ⟨_, hill, k, run, lines, h₁, x, hrun, hs⟩ | ⟨_, _, h', lines, hrun, _⟩
        · exact absurd hlost hgoing
        · obtain ⟨h', hexec, hs'⟩ := exec_rollBack t hworks hs
          rw [hrun.trans hexec, hs'.atName]
          have hsame : { afterStop o c with running := true } = c := by
            have hup := hrunning hill
            obtain ⟨id, image, running, settings⟩ := c
            obtain rfl : running = true := hup
            unfold afterStop
            split <;> rfl
          rw [hsame]
        · rw [hrun] at he
          cases he
      · obtain ⟨lines, hpulled⟩ := runUpdate_pulled t haside.toPulled
        obtain ⟨h', e', hexec, hcases⟩ := exec_renameAside_failed t hclean hget
          (fun hboth => hrename hboth.1)
        have hwhole := hpulled.trans hexec
        rcases hcases with ⟨hlost, _⟩ | ⟨_, hsame⟩
        · exact absurd hlost hkept
        · rw [hwhole, hsame, hget]
    · obtain ⟨e', hrun⟩ := runUpdate_untouched hclean (not_exists.mp haside)
      rw [hrun]

/-- The new container runs under the name, the original is gone, and its backup
name is free, so that the next update can rename. -/
structure Replaced (h : Host) (name : String) (c : Container) : Prop where
  runs : ∃ r, h.lookup name = some r ∧ r.running = true ∧ r.id ≠ c.id
  gone : ¬ h.HasId c.id
  free : h.lookup (backupName name) = none
  unblocked : ∀ chance, (effect exactName h chance (.rename name (backupName name))).isSome = true

/-- The outcomes from the rename on with which a finished update has replaced `c`. -/
def Replaces (o : Outcomes) (c : Container) : Prop :=
  o.Done .rename → ¬ o.Interrupted → o.Healthy →
    o.Done .rmBackup ∧ (c.running = false ∨ o.Done .stop)

/-- Nothing is left behind when the removal succeeds on a container at rest. -/
theorem leftBehind_eq_none {o : Outcomes} {c : Container} :
    leftBehind o (afterStop o c) = none ↔
      o.Done .rmBackup ∧ (c.running = false ∨ o.Done .stop) := by
  unfold leftBehind afterStop Outcomes.Done
  by_cases hstop : (o .stop).fate = .done
  · simp [hstop]
  · simp [hstop]

theorem replaced_of_slots {n : Name} {h h' : Host} {c r : Container}
    (hs : Slots n n.backup h (some r) none h') (hget : h.get? n = some c)
    (hrunning : r.running = true) (hid : r.id ≠ c.id) : Replaced h' n.val c where
  runs := ⟨r, by rw [h'.lookup_val, hs.atName], hrunning, hid⟩
  gone := by
    rintro ⟨k, x, hx, hxid⟩
    by_cases hn : k = n
    · rw [hn, hs.atName] at hx
      rw [← Option.some.inj hx] at hxid
      exact hid hxid
    · by_cases hb : k = n.backup
      · rw [hb, hs.atBackup] at hx
        cases hx
      · exact hn (h.unique k n x c ((hs.others k hn hb).symm.trans hx) hget hxid)
  free := by rw [h'.lookup_backup, hs.atBackup]
  unblocked := by
    intro chance
    obtain ⟨h'', heffect, _⟩ := hs.effect_rename chance
    exact Option.isSome_iff_exists.mpr ⟨_, heffect⟩

/-- An update that returns normally has replaced the original container exactly
under these outcomes. -/
theorem finished_update_replaces_iff (t : Target) (name : String) (h : Host) (o : Outcomes)
    (hclean : o.Clean) (hfresh : o.Fresh h) :
    (∀ lines c, (runUpdate t name h o).2 = .ok lines → h.lookup name = some c →
        Replaced (runUpdate t name h o).1 name c) ↔
      ∀ c, SetsAside t name h o c → Replaces o c := by
  constructor
  · intro hreplaced c haside hdone hgoing hup
    obtain ⟨n, rfl, hget⟩ := Host.lookup_some haside.original
    rcases runUpdate_aside hclean hfresh haside hdone with
      ⟨hlost, _⟩ | ⟨_, hill, _⟩ | ⟨_, _, h', lines, hrun, hs⟩
    · exact absurd hlost hgoing
    · exact absurd hup hill
    · have hpost := hreplaced lines c (by rw [hrun]) haside.original
      rw [hrun] at hpost
      have hfree := hpost.free
      rw [h'.lookup_backup, hs.atBackup] at hfree
      exact leftBehind_eq_none.mp hfree
  · intro hcond lines c hok horiginal
    by_cases haside : ∃ d, SetsAside t name h o d
    · obtain ⟨d, haside⟩ := haside
      obtain rfl : d = c := Option.some.inj (haside.original.symm.trans horiginal)
      obtain ⟨n, rfl, hget⟩ := Host.lookup_some haside.original
      by_cases hrename : o.Done .rename
      · rcases runUpdate_aside hclean hfresh haside hrename with
          ⟨_, h', e, hrun, _⟩ | ⟨_, _, k, run, lines, h₁, x, hrun, _⟩ |
            ⟨hgoing, hup, h', lines, hrun, hs⟩
        · rw [hrun] at hok
          cases hok
        · obtain ⟨h', e, hexec⟩ := exec_rollBack_error t exactName (fun _ call => o call.site)
          rw [hrun.trans hexec] at hok
          cases hok
        · rw [leftBehind_eq_none.mpr (hcond d haside hrename hgoing hup)] at hs
          rw [hrun]
          have hid : (successor o d).id ≠ d.id := fun heq =>
            h.usesId_eq_false.mp hfresh n d hget heq.symm
          exact replaced_of_slots hs hget hup.2.2.1 hid
      · obtain ⟨lines', hpulled⟩ := runUpdate_pulled t haside.toPulled
        obtain ⟨h', e, hexec, _⟩ := exec_renameAside_failed t hclean hget
          (fun hboth => hrename hboth.1)
        rw [hpulled.trans hexec] at hok
        cases hok
    · obtain ⟨e, hrun⟩ := runUpdate_untouched hclean (not_exists.mp haside)
      rw [hrun] at hok
      cases hok

section Web

/-- A container named `web`, running. -/
def webContainer : Container where
  id := ⟨String.ofList (List.replicate 64 'a'), by decide⟩
  image := ⟨"nginx", by decide⟩
  running := true
  settings := {}

def webName : Name := ⟨"web", by decide⟩

def webHost : Host where
  containers := (∅ : Dict Name Container).set webName webContainer
  unique := by
    intro n m c d hc hd _
    rw [Dict.get?_set] at hc hd
    split at hc <;> split at hd
    · next hn hm => rw [hn, hm]
    · cases hd
    · cases hc
    · cases hc

def webTarget : Target where
  address := "10.0.0.5"
  vmid := none
  selfId := none

/-- Every call ends as given, and a new container comes up and stays up. -/
def outcomesOf (fate : Site → Fate) : Outcomes := fun site =>
  { fate := fate site
    chance :=
      { output := ""
        newId := ⟨String.ofList (List.replicate 64 'b'), by decide⟩
        newName := ⟨"other", by decide⟩
        settings := {}
        comesUp := true
        restarts := 0 } }

theorem outcomesOf_fresh (fate : Site → Fate) : (outcomesOf fate).Fresh webHost := by
  change webHost.usesId ⟨String.ofList (List.replicate 64 'b'), _⟩ = false
  decide

theorem web_setsAside {fate : Site → Fate} (hconnect : fate .connect = .done)
    (hinspect : fate .inspect = .done) (hpull : fate .pull = .done) :
    SetsAside webTarget "web" webHost (outcomesOf fate) webContainer where
  original := by decide
  other := rfl
  connect := hconnect
  inspect := hinspect
  pull := hpull
  free := by decide

/-- The connection is lost while the container is being stopped. -/
def lostAtStop : Outcomes := outcomesOf fun site => if site = .stop then .lost false else .done

theorem lostAtStop_clean : lostAtStop.Clean := by
  intro site code hcode
  cases site <;> simp [lostAtStop, outcomesOf]

theorem failed_update_restores_at_stop :
    (∀ e, (runUpdate webTarget "web" webHost lostAtStop).2 = .error e →
        (runUpdate webTarget "web" webHost lostAtStop).1.lookup "web" = webHost.lookup "web") ↔
      ∀ c, SetsAside webTarget "web" webHost lostAtStop c → Restores lostAtStop c :=
  failed_update_restores_iff webTarget "web" webHost lostAtStop lostAtStop_clean ⟨rfl, rfl, rfl⟩
    (outcomesOf_fresh _)

/-- The update fails at the stop, and the original is not under its name. -/
theorem failed_update_leaves_aside :
    lostAtStop.Clean ∧ lostAtStop.RollbackWorks ∧ lostAtStop.Fresh webHost ∧
      (∃ e, (runUpdate webTarget "web" webHost lostAtStop).2 = .error e) ∧
      (runUpdate webTarget "web" webHost lostAtStop).1.lookup "web" ≠ webHost.lookup "web" := by
  have hfresh : lostAtStop.Fresh webHost := outcomesOf_fresh _
  have haside : SetsAside webTarget webName.val webHost lostAtStop webContainer :=
    web_setsAside rfl rfl rfl
  have hinterrupted : lostAtStop.Interrupted := .inl ⟨false, rfl⟩
  have hget : webHost.get? webName = some webContainer := by decide
  refine ⟨lostAtStop_clean, ⟨rfl, rfl, rfl⟩, hfresh, ?_⟩
  rcases runUpdate_aside lostAtStop_clean hfresh haside rfl with
    ⟨_, h', e, hrun, hname⟩ | ⟨hgoing, _⟩ | ⟨hgoing, _⟩
  · change runUpdate webTarget "web" webHost lostAtStop = (h', .error e) at hrun
    rw [hrun]
    refine ⟨⟨e, rfl⟩, ?_⟩
    change h'.lookup webName.val ≠ webHost.lookup webName.val
    rw [Host.lookup_val, Host.lookup_val, hget]
    rcases hname with hnone | hsome
    · simp [hnone]
    · rw [hsome]
      exact fun heq => successor_ne hfresh hget (Option.some.inj heq)
  · exact absurd hinterrupted hgoing
  · exact absurd hinterrupted hgoing

/-- The stop exits with status 1, and everything else succeeds. -/
def stopFails : Outcomes :=
  outcomesOf fun site => if site = .stop then .exit (some 1) (by decide) false else .done

theorem stopFails_clean : stopFails.Clean := by
  intro site code hcode
  cases site <;> simp [stopFails, outcomesOf]

theorem finished_update_replaces_unstopped :
    (∀ lines c, (runUpdate webTarget "web" webHost stopFails).2 = .ok lines →
        webHost.lookup "web" = some c →
        Replaced (runUpdate webTarget "web" webHost stopFails).1 "web" c) ↔
      ∀ c, SetsAside webTarget "web" webHost stopFails c → Replaces stopFails c :=
  finished_update_replaces_iff webTarget "web" webHost stopFails stopFails_clean
    (outcomesOf_fresh _)

/-- The update returns normally with the original still running as the backup. -/
theorem finished_update_keeps_original :
    stopFails.Clean ∧ stopFails.Fresh webHost ∧
      (∃ lines, (runUpdate webTarget "web" webHost stopFails).2 = .ok lines) ∧
      webHost.lookup "web" = some webContainer ∧
      (runUpdate webTarget "web" webHost stopFails).1.lookup "web__keepup_old" =
        some webContainer ∧
      ¬ Replaced (runUpdate webTarget "web" webHost stopFails).1 "web" webContainer := by
  have hfresh : stopFails.Fresh webHost := outcomesOf_fresh _
  have haside : SetsAside webTarget webName.val webHost stopFails webContainer :=
    web_setsAside rfl rfl rfl
  have hup : stopFails.Healthy := ⟨rfl, rfl, rfl, rfl⟩
  have hgoing : ¬ stopFails.Interrupted := by
    rintro (⟨_, hlost⟩ | ⟨_, hlost⟩ | ⟨_, _, hlost⟩ | ⟨_, _, hlost⟩) <;> cases hlost
  refine ⟨stopFails_clean, hfresh, ?_⟩
  rcases runUpdate_aside stopFails_clean hfresh haside rfl with
    ⟨hlost, _⟩ | ⟨_, hill, _⟩ | ⟨_, _, h', lines, hrun, hs⟩
  · exact absurd hlost hgoing
  · exact absurd hup hill
  · change runUpdate webTarget "web" webHost stopFails = (h', .ok lines) at hrun
    have hbackup : h'.lookup (backupName webName.val) = some webContainer := by
      rw [h'.lookup_backup, hs.atBackup]
      rfl
    rw [hrun]
    refine ⟨⟨lines, rfl⟩, by decide, hbackup, fun hpost => ?_⟩
    have hfree : h'.lookup (backupName webName.val) = none := hpost.free
    rw [hbackup] at hfree
    cases hfree

end Web

end Keepup.Docker
