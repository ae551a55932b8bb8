import Keepup.Proxmox.Located

/-!
Runs that lose no Proxmox server and give no host to another one: every step
keeps what the record and the disk say of each other, of the servers and of the
hosts, so a run of such steps does.
-/

namespace Keepup.Proxmox

open Lib

section Run

variable {env : Surroundings} {w : World} {form : SaveForm} {t : Settings} {id : String}
  {nodes : Option (List String)}

theorem removing_settings (w : World) (form : SaveForm) :
    (w.removing form).settings = w.settings := by
  rw [World.removing]
  cases World.removedBy w.settings form <;> rfl

theorem bare_of_removing (h : { w.removing form with settings := t }.Bare) : w.Bare := by
  obtain ⟨entry, hentry, hstamp⟩ := h
  refine ⟨entry, ?_, hstamp⟩
  dsimp only at hentry
  rw [World.removing] at hentry
  cases hgone : World.removedBy w.settings form with
  | none => rwa [hgone] at hentry
  | some gone =>
      rw [hgone] at hentry
      exact List.mem_of_mem_filter hentry

/-- A save that counts as one of the single server is about the old block. -/
theorem Persisted.not_listShape {pem fp : String}
    (hsaved : Persisted env w.settings form.serverId form.url t id)
    (hsafe : w.Careful (.save form pem fp nodes)) (hid : id = "")
    (hposts : w.Bare ∧ form.credKwargs ≠ [] ∨ form.Complete ∧ nodes ≠ none) :
    ¬ ListShape t.config := by
  rintro ⟨hlegacy', hservers'⟩
  have hposted : form.url = "" → w.Bare ∧ form.credKwargs ≠ [] := fun hurl =>
    hposts.resolve_right fun h => h.1.1 hurl
  -- with a URL nothing is posted to a server of the list
  have hlist : IsSingletonSave w.settings form.serverId → form.url ≠ "" →
      legacyBlock w.settings.config = none → w.settings.config.proxmoxServers ≠ none → False := by
    intro hsingle hurl hlegacy hsome
    obtain ⟨hbare, hcomplete⟩ := (hsafe.2.1 hsingle).2 hurl hlegacy
    rcases hposts with ⟨hb, hfields⟩ | ⟨hc, hnodes⟩
    · exact hfields (hbare hb).2
    · exact hnodes (hcomplete hsome hc)
  cases hsaved with
  | ignored hnew hurl =>
      obtain ⟨hbare, hfields⟩ := hposted hurl
      exact hfields ((hsafe.1 hnew hbare).1 hurl ⟨hlegacy', hservers'⟩)
  | added base entry hnew hurl hbase =>
      exact uniqueServerId_ne_empty (slugifyServerId_ne_empty hbase) _ hid
  | updated change hchange hnew hne hknown => exact hne hid
  | legacyWritten entry hsingle hurl hentry hshape => simp [legacyBlock, hentry] at hlegacy'
  | legacyRemoved hsingle hurl hshape =>
      have hremoval := (hsafe.2.1 hsingle).1 hurl .legacy (hposted hurl).1
      refine hservers' ?_
      rcases hshape with hnone | hlegacy
      · exact congrArg (Option.getD · []) hnone
      · exact hremoval (singletonOwner_legacy hlegacy)
  | firstAdded base entry hsingle hurl hlegacy hservers hbase =>
      exact hlist hsingle hurl hlegacy (by simp [hservers])
  | firstUpdated first rest change hchange hsingle hurl hlegacy hservers =>
      exact hlist hsingle hurl hlegacy (by simp [hservers])
  | firstDeleted first rest hsingle hurl hlegacy hservers =>
      have hget : w.settings.config.getProxmoxServers = first :: rest :=
        congrArg (Option.getD · []) hservers
      have hlast := (hsafe.2.1 hsingle).1 hurl (.server first.id) (hposted hurl).1
        (by rw [singletonOwner_list hlegacy, hget]; rfl)
      have hknown : first.id ∈ serverIds w.settings.config := by simp [serverIds, hget]
      obtain ⟨_, hids, _⟩ := deleteProxmoxServer_known hknown
      refine hservers' (serverIds_eq_nil.mp (hids.trans (List.filter_eq_nil_iff.mpr ?_)))
      intro other hother
      obtain ⟨server, hserver, rfl⟩ := List.mem_map.mp hother
      simp [hlast server hserver]
  | emptyList hsingle hurl hlegacy hservers =>
      exact hservers' (congrArg (Option.getD · []) hservers)

theorem Persisted.hosts (hsaved : Persisted env w.settings form.serverId form.url t id) :
    t.config.hosts.length = w.settings.config.hosts.length ∨
      t.config.hosts.length ≤ w.settings.config.hosts.length ∧ form.url = "" := by
  cases hsaved with
  | firstDeleted first rest hsingle hurl hlegacy hservers =>
      refine .inr ⟨?_, hurl⟩
      rw [deleteProxmoxServer]
      split
      · exact List.length_filterMap_le _ _
      · exact Nat.le_refl _
  | _ => exact .inl rfl

theorem credKwargs_of_complete (h : form.Complete) : form.credKwargs ≠ [] := by
  simp [SaveForm.credKwargs, h.2.1]

/-- What is recorded of the servers says nothing of the hosts. -/
theorem World.Sound.relisted (h : w.Sound) (saved : List (Owner × String)) :
    { w with saved := saved }.Sound := ⟨h.held, h.stamped, h.single, h.key⟩

theorem recording_saved (w : World) (form : SaveForm) (owner : Option Owner) :
    ∃ saved, w.recording form owner = { w with saved := saved } := by
  unfold World.recording
  split
  · exact ⟨w.saved, rfl⟩
  · cases owner with
    | none => exact ⟨w.saved, rfl⟩
    | some owner => exact ⟨_, rfl⟩

theorem World.Sound.afterSave {pem fp : String} (h : w.Sound)
    (hrun : setupSaveProxmox env w.settings form pem fp nodes = some (t, id))
    (hsafe : w.Careful (.save form pem fp nodes)) : (w.afterSave form t id).Sound := by
  obtain ⟨saved, new, hpersist, hnew, hwhy⟩ := setupSaveProxmox_appends hrun
  have hsaved := persistProxmoxServer_persisted hpersist
  have hconfig : (saveCredentials saved id form.credKwargs).config = saved.config := by simp
  have hfor := hnew.serverFor_eq id
  have hservers := h.persisted hsaved hsafe
  have hlength := hsaved.hosts
  rw [← hconfig, ← removing_settings w form] at hlength
  have hfits : id = "" → new ≠ [] → KeyFits (saveCredentials saved id form.credKwargs) := by
    intro hid hne
    have hposts := hwhy hne
    rw [hid]
    exact keyFits_of_posted (credKwargs_of_complete hposts.1)
      (hsaved.not_listShape hsafe hid (.inr hposts))
  have hcredentials := hservers.credentials id form.credKwargs fun hid hfields hb =>
    hsaved.not_listShape hsafe hid (.inl ⟨bare_of_removing hb, hfields⟩)
  rw [World.afterSave]
  obtain ⟨recorded, hrecorded⟩ := recording_saved (w.removing form) form (serverFor t.config id)
  simp only [hrecorded]
  generalize w.removing form = kept at hcredentials hlength ⊢
  dsimp only at hcredentials
  generalize saveCredentials saved id form.credKwargs = s at hnew hfor hfits hcredentials hlength
  refine World.Sound.become (hcredentials.relisted recorded) ?_ hnew (fun hid hne _ =>
    hfits hid hne)
    fun _ o ho => hfor.symm.trans ho
  refine hlength.imp_right fun hkept => ⟨hkept.1, ?_⟩
  exact by_contra fun hne => (hwhy hne).1.1 hkept.2

theorem World.Sound.afterLxcs (h : w.Sound) {form : LxcForm} (hsafe : w.Careful (.saveLxcs form)) :
    (w.step env (.saveLxcs form)).Sound := by
  have hfields : form.credKwargs ≠ [] := by simp [LxcForm.credKwargs]
  obtain ⟨new, hnew, hsub⟩ :=
    appends_addHosts (saveCredentials w.settings form.serverId form.credKwargs)
    (stampOf_filterMap (lxcHost form.serverId) form.selectedLxcs fun _ _ => stampOf_lxcHost)
  have hcredentials := h.credentials form.serverId form.credKwargs fun hid _ hbare hlist =>
    (hsafe hid hlist).1 hbare
  have hhosts : (saveCredentials w.settings form.serverId form.credKwargs).config.hosts.length =
      w.settings.config.hosts.length := by simp
  refine World.Sound.become hcredentials (.inl hhosts) hnew ?_ fun _ _ ho => ho
  intro hid hne _
  rw [hid] at hsub ⊢
  refine keyFits_of_posted hfields fun hlist => hne ?_
  rw [(hsafe hid hlist).2] at hsub
  exact List.subset_nil.mp hsub

theorem World.Sound.step (h : w.Sound) {request : Request} (hsafe : w.Careful request) :
    (w.step env request).Sound := by
  cases request with
  | save form pem fp nodes =>
      rw [World.step]
      cases hrun : setupSaveProxmox env w.settings form pem fp nodes with
      | none => exact h
      | some saved => exact h.afterSave hrun hsafe
  | saveLxcs form => exact h.afterLxcs hsafe
  | saveVms address selected =>
      obtain ⟨new, hnew, _⟩ := appends_addHosts w.settings
        (stampOf_filterMap (vmHost address) selected fun _ _ => stampOf_vmHost)
      refine World.Sound.become h (.inl rfl) hnew (fun _ _ hne => absurd rfl hne) fun _ o ho => ?_
      cases ho
  | addAnother => exact h.migrated hsafe
  | restart => exact h.migrated hsafe
  | discover serverId nodes =>
      obtain ⟨new, hnew, hfound⟩ := discover_appends env w.settings serverId nodes
      refine World.Sound.become h (.inl rfl) hnew (fun hid hne _ => (hsafe (hfound hne)).1 hid) ?_
      intro hne o ho
      rwa [World.discovered, if_neg (hsafe (hfound hne)).2] at ho
  | selectHosts serverId selected =>
      obtain ⟨new, hnew, _⟩ := appends_addHosts w.settings
        (stampOf_filterMap (guestHost (resolveProxmoxServer w.settings serverId)) selected
          fun _ _ => stampOf_guestHost)
      exact World.Sound.become h (.inl rfl) hnew (fun hid _ _ => hsafe hid) fun _ _ ho => ho
  | addNodeHost serverId nodes =>
      obtain ⟨new, hnew⟩ := addNodeHost_appends env w.settings serverId nodes
      exact World.Sound.become h (.inl rfl) hnew (fun hid _ _ => hsafe hid) fun _ _ ho => ho
  | update serverId url verifySsl pem fp =>
      have hshape : SameShape w.settings
          (updateProxmoxServer w.settings serverId url verifySsl pem fp) :=
        ⟨Iff.rfl, update_ids serverId url verifySsl pem fp⟩
      have hupdated := h.reshaped hshape rfl rfl
      cases url with
      | none => exact hupdated
      | some url => exact hupdated.relisted _
  | delete serverId =>
      rw [World.step]
      dsimp only
      split
      · rename_i hknown
        refine h.deleted ?_ hsafe
        rw [← configured_server]
        simpa [Configured, blockOf] using hknown
      · rename_i hunknown
        rw [adminRemoveServer, deleteProxmoxServer_unknown]
        · exact h
        · rw [← configured_server]
          simpa [Configured, blockOf] using hunknown

end Run

section Examples

def freshSettings : Settings := { config := {}, store := ∅ }

def firstForm : SaveForm where
  proxmoxUrl := "https://a:8006"
  proxmoxTokenId := "root@pam!keepup"
  proxmoxSecret := "sekrit"

def secondForm : SaveForm where
  proxmoxUrl := "https://b:8006"
  proxmoxTokenId := "root@pam!other"
  proxmoxSecret := "other"
  serverId := newServer

/-- The wizard saves a server and adds another; then the first one moves, and the
second one is deleted. -/
def twoServers : List Request :=
  [.save firstForm "" "" (some ["pve"]), .addAnother, .save secondForm "" "" (some ["pvf"]),
    .update "a" (some "https://c:8006/") none none none, .delete "b", .restart]

/-- A card whose server is gone takes the first server away. -/
theorem stale_card_loses_server :
    ¬ ∀ w ∈ reached (World.step plainSurroundings) { settings := freshSettings }
      [.save firstForm "" "" none, .addAnother, .save { serverId := "old" } "" "" none],
          w.Intact := by
  intro hall
  have hlast := hall _ (.tail _ (.tail _ (.tail _ (.head _))))
  have hfirst := hlast.configured (.server "a", "https://a:8006") (by decide +kernel)
  exact absurd hfirst (by decide +kernel)

end Examples

end Keepup.Proxmox
