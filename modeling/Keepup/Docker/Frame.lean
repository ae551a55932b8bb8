import Keepup.Docker.Rollback

/-!
What an update does to the other containers of a host that resolves an
argument by exact name or else by a unique id prefix. After the rename nobody
has the container's name, so the rollback's `docker rm -f` and `docker start`
can fall through to an id: the theorem says exactly when they do.
-/

namespace Keepup.Docker

open Lib Remote

/-- The container's id starts with the argument. -/
def Matches (h : Host) (ref : String) (k : Name) : Prop :=
  ∃ x, h.get? k = some x ∧ Text.startsWith x.id.val ref = true

theorem mem_matching {h : Host} {ref : String} {k : Name} {x : Container} :
    (k, x) ∈ h.containers.entries.filter (fun entry => Text.startsWith entry.2.id.val ref) ↔
      h.get? k = some x ∧ Text.startsWith x.id.val ref = true := by
  rw [List.mem_filter, Dict.mem_entries_iff]
  rfl

theorem uniquePrefix_eq_some {h : Host} {ref : String} {m : Name} :
    uniquePrefix h ref = some m ↔ Matches h ref m ∧ ∀ k, Matches h ref k → k = m := by
  have hmem : ∀ k x, _ ↔ _ := fun k x => @mem_matching h ref k x
  have hnodup : ((h.containers.entries.filter
      fun entry => Text.startsWith entry.2.id.val ref).map Prod.fst).Nodup :=
    (List.Sublist.map Prod.fst List.filter_sublist).nodup h.containers.nodup
  unfold uniquePrefix
  generalize h.containers.entries.filter
    (fun entry => Text.startsWith entry.2.id.val ref) = matching at hmem hnodup
  rcases matching with _ | ⟨⟨k, y⟩, _ | ⟨⟨l, z⟩, rest⟩⟩
  · constructor
    · intro hunique
      cases hunique
    · rintro ⟨⟨x, hx⟩, _⟩
      exact absurd ((hmem m x).mpr hx) List.not_mem_nil
  · constructor
    · intro hunique
      obtain rfl : k = m := Option.some.inj hunique
      refine ⟨⟨y, (hmem k y).mp List.mem_cons_self⟩, ?_⟩
      rintro l ⟨z, hz⟩
      exact (Prod.mk.inj (List.mem_singleton.mp ((hmem l z).mpr hz))).1
    · rintro ⟨_, honly⟩
      exact congrArg some (honly k ⟨y, (hmem k y).mp List.mem_cons_self⟩)
  · constructor
    · intro hunique
      cases hunique
    · rintro ⟨_, honly⟩
      have hk := honly k ⟨y, (hmem k y).mp List.mem_cons_self⟩
      have hl := honly l ⟨z, (hmem l z).mp (List.mem_cons_of_mem _ List.mem_cons_self)⟩
      rw [hk, hl] at hnodup
      exact absurd (List.mem_cons_self) (List.nodup_cons.mp hnodup).1

theorem exactOrPrefix_eq_some {h : Host} {ref : String} {m : Name} :
    exactOrPrefix h ref = some m ↔
      exactName h ref = some m ∨ (exactName h ref = none ∧ uniquePrefix h ref = some m) := by
  unfold exactOrPrefix
  cases exactName h ref with
  | none => simp
  | some n => simp

theorem hex_of_startsWith {id : ContainerId} {ref : String}
    (hstart : Text.startsWith id.val ref = true) : ∀ c ∈ ref.toList, isHex c = true := by
  have hlead : ref.toList <+: id.val.toList := List.isPrefixOf_iff_prefix.mp hstart
  intro c hc
  exact List.all_eq_true.mp id.property.2 c (hlead.subset hc)

/-- A backup name is no prefix of an id. -/
theorem not_matches_backup {h : Host} {name : String} {k : Name} :
    ¬ Matches h (backupName name) k := by
  rintro ⟨x, _, hstart⟩
  have hunderscore : '_' ∈ (backupName name).toList := by simp [backupName]
  exact absurd (hex_of_startsWith hstart '_' hunderscore) (by decide)

/-- A backup name resolves to the container of exactly that name. -/
theorem exactOrPrefix_backup {h : Host} {name : String} {b : Name}
    (hb : exactOrPrefix h (backupName name) = some b) :
    b.val = backupName name ∧ (h.get? b).isSome = true := by
  rcases exactOrPrefix_eq_some.mp hb with hexact | ⟨_, hunique⟩
  · exact exactName_eq_some.mp hexact
  · exact absurd (uniquePrefix_eq_some.mp hunique).1 not_matches_backup

section Invariant

variable (name : String) (n₀ : Name)

/-- A container name that is neither the original's nor one the update uses. -/
def Third (k : Name) : Prop := k ≠ n₀ ∧ k.val ≠ name ∧ k.val ≠ backupName name

/-- Third containers are as they were in `h₀`. -/
def Kept (h₀ h : Host) : Prop := ∀ k, Third name n₀ k → h.get? k = h₀.get? k

/-- No third container is the only one of its kind that the argument matches. -/
def Harmless (h₀ : Host) : Prop :=
  ∀ k, Third name n₀ k → Matches h₀ name k →
    ∃ l, Third name n₀ l ∧ l ≠ k ∧ Matches h₀ name l

/-- The container of this id stands aside under the backup name. -/
def StandsAside (id : ContainerId) (h : Host) : Prop :=
  ∃ b c, b.val = backupName name ∧ h.get? b = some c ∧ c.id = id

variable {name n₀} {h₀ h h' : Host} {m : Name} {id : ContainerId}

theorem Kept.matches (hkept : Kept name n₀ h₀ h) {k : Name} (hthird : Third name n₀ k) :
    Matches h name k ↔ Matches h₀ name k := by
  unfold Matches
  rw [hkept k hthird]

theorem Kept.setRunning (hkept : Kept name n₀ h₀ h) (hm : ¬ Third name n₀ m) (running : Bool) :
    Kept name n₀ h₀ (h.setRunning m running) := by
  intro k hthird
  have hne : k ≠ m := fun heq => hm (heq ▸ hthird)
  rw [Host.get?_setRunning, if_neg hne, hkept k hthird]

theorem Kept.remove (hkept : Kept name n₀ h₀ h) (hm : ¬ Third name n₀ m) :
    Kept name n₀ h₀ (h.remove m) := by
  intro k hthird
  have hne : k ≠ m := fun heq => hm (heq ▸ hthird)
  rw [Host.get?_remove, if_neg hne, hkept k hthird]

theorem Kept.rename (hkept : Kept name n₀ h₀ h) {n : Name} (hn : ¬ Third name n₀ n)
    (hm : ¬ Third name n₀ m) (hrename : h.rename n m = some h') : Kept name n₀ h₀ h' := by
  obtain ⟨c, _, _, hget⟩ := Host.rename_some hrename
  intro k hthird
  have hkn : k ≠ n := fun heq => hn (heq ▸ hthird)
  have hkm : k ≠ m := fun heq => hm (heq ▸ hthird)
  rw [hget, if_neg hkm, if_neg hkn, hkept k hthird]

theorem Kept.create (hkept : Kept name n₀ h₀ h) (hm : ¬ Third name n₀ m) {c : Container}
    (hcreate : h.create m c = some h') : Kept name n₀ h₀ h' := by
  obtain ⟨_, _, hget⟩ := Host.create_some hcreate
  intro k hthird
  have hne : k ≠ m := fun heq => hm (heq ▸ hthird)
  rw [hget, if_neg hne, hkept k hthird]

/-- While one of these holds, the container's name never reaches a third one. -/
theorem not_third_of_resolved (hkept : Kept name n₀ h₀ h)
    (hsafe : Harmless name n₀ h₀ ∨ Text.startsWith id.val name = true)
    (hstage : Harmless name n₀ h₀ ∨ StandsAside name id h ∨ (exactName h name).isSome = true)
    (hm : exactOrPrefix h name = some m) : ¬ Third name n₀ m := by
  intro hthird
  rcases exactOrPrefix_eq_some.mp hm with hexact | ⟨hnone, hunique⟩
  · exact hthird.2.1 (exactName_eq_some.mp hexact).1
  · obtain ⟨hmatch, honly⟩ := uniquePrefix_eq_some.mp hunique
    have hnot : ¬ Harmless name n₀ h₀ := by
      intro hharmless
      obtain ⟨l, hl, hne, hlmatch⟩ := hharmless m hthird ((hkept.matches hthird).mp hmatch)
      exact hne (honly l ((hkept.matches hl).mpr hlmatch))
    rcases hstage with hharmless | ⟨b, c, hb, hc, hid⟩ | hsome
    · exact hnot hharmless
    · rcases hsafe with hharmless | hstart
      · exact hnot hharmless
      · have hbm := honly b ⟨c, hc, by rw [hid, hstart]⟩
        exact hthird.2.2 (hbm ▸ hb)
    · rw [hnone] at hsome
      cases hsome

theorem StandsAside.setRunning (haside : StandsAside name id h) (running : Bool) :
    StandsAside name id (h.setRunning m running) := by
  obtain ⟨b, c, hb, hc, hid⟩ := haside
  by_cases hbm : b = m
  · refine ⟨b, { c with running }, hb, ?_, hid⟩
    rw [Host.get?_setRunning, if_pos hbm, ← hbm, hc]
    rfl
  · exact ⟨b, c, hb, by rw [Host.get?_setRunning, if_neg hbm, hc], hid⟩

theorem StandsAside.remove (haside : StandsAside name id h) (hm : m.val ≠ backupName name) :
    StandsAside name id (h.remove m) := by
  obtain ⟨b, c, hb, hc, hid⟩ := haside
  have hbm : b ≠ m := fun heq => hm (heq ▸ hb)
  exact ⟨b, c, hb, by rw [Host.get?_remove, if_neg hbm, hc], hid⟩

theorem StandsAside.create (haside : StandsAside name id h) {c : Container}
    (hcreate : h.create m c = some h') : StandsAside name id h' := by
  obtain ⟨b, d, hb, hd, hid⟩ := haside
  obtain ⟨hfree, _, hget⟩ := Host.create_some hcreate
  have hbm : b ≠ m := by
    rintro rfl
    rw [hfree] at hd
    cases hd
  exact ⟨b, d, hb, by rw [hget, if_neg hbm, hd], hid⟩

variable (name n₀ id) in
/-- Between the rename and the removal or the return of the backup. -/
def Underway (h₀ h : Host) : Prop :=
  Kept name n₀ h₀ h ∧ (Harmless name n₀ h₀ ∨ StandsAside name id h)

theorem not_third_name (hm : m.val = name) : ¬ Third name n₀ m := fun hthird => hthird.2.1 hm

theorem not_third_backup (hm : m.val = backupName name) : ¬ Third name n₀ m :=
  fun hthird => hthird.2.2 hm

theorem backupName_ne (name : String) : backupName name ≠ name := by
  intro heq
  have hlength := congrArg (fun s : String => s.toList.length) heq
  simp [backupName] at hlength

variable (t : Target)

theorem stop_keeps (hin : Underway name n₀ id h₀ h) (o : Outcome) :
    Underway name n₀ id h₀
      (serve exactOrPrefix h ⟨.stop, t.wrap (stopText (backupName name))⟩ o).1 := by
  rw [serve_read (by decide) (read_stopText t (backupName name))]
  refine answer_keeps hin fun h₁ out htaken => ?_
  obtain ⟨b, hb, rfl⟩ := effect_some _ htaken
  exact ⟨hin.1.setRunning (not_third_backup (exactOrPrefix_backup hb).1) false,
    hin.2.imp_right fun haside => haside.setRunning false⟩

theorem run_keeps (hin : Underway name n₀ id h₀ h) (c : Container) (o : Outcome) :
    Underway name n₀ id h₀
      (serve exactOrPrefix h ⟨.run, t.wrap (runText (c.document n₀))⟩ o).1 := by
  rw [serve_read (by decide) (read_runText t c n₀)]
  refine answer_keeps hin fun h₁ out htaken => ?_
  obtain ⟨n, d, hnew, hcreate⟩ := effect_some _ htaken
  rw [newContainer_recreation] at hnew
  obtain ⟨rfl, -⟩ := Prod.mk.inj (Option.some.inj hnew)
  exact ⟨hin.1.create (fun hthird => hthird.1 rfl) hcreate,
    hin.2.imp_right fun haside => haside.create hcreate⟩

theorem verify_keeps (hin : Underway name n₀ id h₀ h) (o : Outcome) :
    Underway name n₀ id h₀
      (serve exactOrPrefix h ⟨.verify, t.wrap (verifyText name)⟩ o).1 := by
  rw [serve_read (by decide) (read_verifyText t name)]
  refine answer_keeps hin fun h₁ out htaken => ?_
  obtain rfl : h₁ = h := effect_some _ htaken
  exact hin

/-- The forced removal takes the container under the name, or by its id one
that the update owns. It never takes the backup while a third one matches. -/
theorem rmForce_keeps (hin : Underway name n₀ id h₀ h)
    (hsafe : Harmless name n₀ h₀ ∨ Text.startsWith id.val name = true) (o : Outcome) :
    Underway name n₀ id h₀
      (serve exactOrPrefix h ⟨.rmForce, t.wrap (rmForceText name)⟩ o).1 := by
  rw [serve_read (by decide) (read_rmForceText t name)]
  refine answer_keeps hin fun h₁ out htaken => ?_
  obtain ⟨m, hm, rfl⟩ := effect_some _ htaken
  have hthird := not_third_of_resolved hin.1 hsafe (hin.2.imp_right .inl) hm
  refine ⟨hin.1.remove hthird, ?_⟩
  by_cases hharmless : Harmless name n₀ h₀
  · exact .inl hharmless
  · refine .inr ((hin.2.resolve_left hharmless).remove ?_)
    intro hbackup
    rcases exactOrPrefix_eq_some.mp hm with hexact | ⟨_, hunique⟩
    · exact backupName_ne name (hbackup ▸ (exactName_eq_some.mp hexact).1)
    · obtain ⟨_, honly⟩ := uniquePrefix_eq_some.mp hunique
      apply hharmless
      intro k hk hmatch
      have hkm := honly k ((hin.1.matches hk).mpr hmatch)
      exact absurd hbackup (hkm ▸ hk.2.2)

variable (name n₀ id) in
/-- After the attempt to give the backup its name back. -/
def Ending (h₀ h : Host) : Prop :=
  Kept name n₀ h₀ h ∧
    (Harmless name n₀ h₀ ∨ StandsAside name id h ∨ (exactName h name).isSome = true)

theorem renameBack_keeps (hin : Underway name n₀ id h₀ h) (o : Outcome) :
    Ending name n₀ id h₀
      (serve exactOrPrefix h
        ⟨.renameBack, t.wrap (renameText (backupName name) name)⟩ o).1 := by
  rw [serve_read (by decide) (read_renameText t (backupName name) name)]
  refine answer_keeps ⟨hin.1, hin.2.imp_right .inl⟩ fun h₁ out htaken => ?_
  obtain ⟨b, m, hb, hm, hrename⟩ := effect_some _ htaken
  have hmname := Name.val_of_ofString? hm
  refine ⟨hin.1.rename (not_third_backup (exactOrPrefix_backup hb).1) (not_third_name hmname)
    hrename, .inr (.inr ?_)⟩
  obtain ⟨c, _, _, hget⟩ := Host.rename_some hrename
  have hc : h₁.get? m = some c := by rw [hget, if_pos rfl]
  rw [← hmname, exactName_of_some hc]
  rfl

theorem start_keeps (hin : Ending name n₀ id h₀ h)
    (hsafe : Harmless name n₀ h₀ ∨ Text.startsWith id.val name = true) (o : Outcome) :
    Kept name n₀ h₀ (serve exactOrPrefix h ⟨.start, t.wrap (startText name)⟩ o).1 := by
  rw [serve_read (by decide) (read_startText t name)]
  refine answer_keeps hin.1 fun h₁ out htaken => ?_
  obtain ⟨m, hm, rfl⟩ := effect_some _ htaken
  exact hin.1.setRunning (not_third_of_resolved hin.1 hsafe hin.2 hm) true

theorem rmBackup_keeps (hin : Underway name n₀ id h₀ h) (o : Outcome) :
    Kept name n₀ h₀
      (serve exactOrPrefix h ⟨.rmBackup, t.wrap (rmText (backupName name))⟩ o).1 := by
  rw [serve_read (by decide) (read_rmText t (backupName name))]
  refine answer_keeps hin.1 fun h₁ out htaken => ?_
  obtain ⟨b, _, hb, _, _, rfl⟩ := effect_some _ htaken
  exact hin.1.remove (not_third_backup (exactOrPrefix_backup hb).1)

/-- Past the rename, every way the update can go keeps the third containers. -/
theorem holds_recreate (hin : Underway name n₀ id h₀ h)
    (hsafe : Harmless name n₀ h₀ ∨ Text.startsWith id.val name = true) (c : Container)
    (lines : List String) :
    Holds (serve exactOrPrefix) (recreate t name (c.document n₀) lines) h
      fun h' _ => Kept name n₀ h₀ h' := by
  have hback : ∀ h₁ run lines', Underway name n₀ id h₀ h₁ →
      Holds (serve exactOrPrefix) (rollBack t name run lines') h₁
          fun h' _ => Kept name n₀ h₀ h' := by
    intro h₁ run lines' hin₁
    simp only [rollBack, restoreBackup, send, perform_bind]
    refine holds_call_keeping (rmForce_keeps t hin₁ hsafe) (fun _ _ hp => hp.1) fun h₂ _ hin₂ => ?_
    refine holds_call_keeping (renameBack_keeps t hin₂) (fun _ _ hp => hp.1) fun h₃ _ hin₃ => ?_
    exact holds_call_keeping (start_keeps t hin₃ hsafe) (fun _ _ hp => hp) fun h₄ _ hkept =>
      holds_raise hkept
  have hdrop : ∀ h₁ lines', Underway name n₀ id h₀ h₁ →
      Holds (serve exactOrPrefix) (dropBackup t name lines') h₁ fun h' _ => Kept name n₀ h₀ h' := by
    intro h₁ lines' hin₁
    simp only [dropBackup, send, perform_bind]
    exact holds_call_keeping (rmBackup_keeps t hin₁) (fun _ _ hp => hp) fun h₂ _ hkept =>
      holds_ret hkept
  have hconclude : ∀ running h₁ run lines', Underway name n₀ id h₀ h₁ →
      Holds (serve exactOrPrefix) (conclude t name running run lines') h₁
        fun h' _ => Kept name n₀ h₀ h' := by
    intro running h₁ run lines' hin₁
    cases running with
    | true => exact hdrop h₁ lines' hin₁
    | false => exact hback h₁ run lines' hin₁
  simp only [recreate, runReplacement, send, perform_bind]
  refine holds_call_keeping (stop_keeps t hin) (fun _ _ hp => hp.1) fun h₁ _ hin₁ => ?_
  refine holds_call_keeping (run_keeps t hin₁ c) (fun _ _ hp => hp.1) fun h₂ run hin₂ => ?_
  split
  · refine holds_call_keeping (verify_keeps t hin₂) (fun _ _ hp => hp.1) fun h₃ _ hin₃ => ?_
    exact hconclude _ h₃ run _ hin₃
  · exact hconclude false h₂ run _ hin₂

end Invariant

/-- The update comes to its rollback with nobody under the container's name, and
the name is then the unique id prefix of another container. -/
def HitsThird (t : Target) (name : String) (h : Host) : Prop :=
  ∃ n c m, exactName h name = some n ∧ h.get? n = some c ∧ t.isSelf c.id.val = false ∧
    h.lookup (backupName name) = none ∧ uniquePrefix h name = some m ∧ m ≠ n

/-- Every container but the one the argument resolves to is as it was. -/
def Untouched (name : String) (h h' : Host) : Prop :=
  ∀ k x, exactOrPrefix h name ≠ some k → h.get? k = some x → h'.get? k = some x

section Update

variable {t : Target} {name : String} {h h' : Host} {n₀ : Name} {c₀ : Container}

theorem untouched_of_kept (hresolve : exactOrPrefix h name = some n₀)
    (hfree : h.lookup (backupName name) = none) (hkept : Kept name n₀ h h') :
    Untouched name h h' := by
  intro k x hk hx
  refine (hkept k ⟨?_, ?_, ?_⟩).trans hx
  · rintro rfl
    exact hk hresolve
  · intro hname
    have hexact : exactName h name = some k := exactName_eq_some.mpr ⟨hname, by simp [hx]⟩
    exact hk (exactOrPrefix_eq_some.mpr (.inl hexact))
  · intro hbackup
    rw [← hbackup, h.lookup_val, hx] at hfree
    cases hfree

/-- Where the update does not hit a third container, an id of a third one that
the name matches is not alone: another third one matches, or the original. -/
theorem harmless_or_original (hresolve : exactOrPrefix h name = some n₀)
    (hget : h.get? n₀ = some c₀) (hother : t.isSelf c₀.id.val = false)
    (hfree : h.lookup (backupName name) = none) (hno : ¬ HitsThird t name h) :
    Harmless name n₀ h ∨ Text.startsWith c₀.id.val name = true := by
  by_contra hcontra
  obtain ⟨hharm, hstart⟩ := not_or.mp hcontra
  apply hharm
  intro k hthird hmatch
  by_contra hnone
  have honly : ∀ l, Matches h name l → l = k := by
    intro l hl
    by_contra hlk
    by_cases hlthird : Third name n₀ l
    · exact hnone ⟨l, hlthird, hlk, hl⟩
    · obtain ⟨x, hx, hlstart⟩ := hl
      have hl₀ : l = n₀ := by
        by_contra hne
        by_cases hname : l.val = name
        · have hexact : exactName h name = some l :=
            exactName_eq_some.mpr ⟨hname, by simp [hx]⟩
          have hl := hresolve.symm.trans (exactOrPrefix_eq_some.mpr (.inl hexact))
          exact hne (Option.some.inj hl).symm
        · by_cases hbackup : l.val = backupName name
          · rw [← hbackup, h.lookup_val, hx] at hfree
            cases hfree
          · exact hlthird ⟨hne, hname, hbackup⟩
      rw [hl₀, hget] at hx
      exact hstart (Option.some.inj hx ▸ hlstart)
  have hunique : uniquePrefix h name = some k := uniquePrefix_eq_some.mpr ⟨hmatch, honly⟩
  rcases exactOrPrefix_eq_some.mp hresolve with hexact | ⟨_, hlead⟩
  · exact hno ⟨n₀, c₀, k, hexact, hget, hother, hfree, hunique, hthird.1⟩
  · rw [hunique] at hlead
    exact hthird.1 (Option.some.inj hlead)

theorem holds_renameAside (hresolve : exactOrPrefix h name = some n₀)
    (hget : h.get? n₀ = some c₀) (hother : t.isSelf c₀.id.val = false)
    (hno : ¬ HitsThird t name h) (lines : List String) :
    Holds (serve exactOrPrefix) (renameAside t name (c₀.document n₀) lines) h
      fun h' _ => Untouched name h h' := by
  have hself : Untouched name h h := fun _ _ _ hx => hx
  -- what the rename leaves, taken or not
  have hstep : ∀ chance h₁ out, effect exactOrPrefix h chance
        (.rename name (backupName name)) = some (h₁, out) →
      h.lookup (backupName name) = none ∧ Underway name n₀ c₀.id h h₁ := by
    intro chance h₁ out htaken
    obtain ⟨n, m, hn, hm, hrename⟩ := effect_some _ htaken
    obtain rfl : n = n₀ := Option.some.inj (hn.symm.trans hresolve)
    have hmname := Name.val_of_ofString? hm
    obtain ⟨c, hc, hmfree, hget₁⟩ := Host.rename_some hrename
    obtain rfl : c = c₀ := Option.some.inj (hc.symm.trans hget)
    have hkept : Kept name n h h := fun _ _ => rfl
    refine ⟨by rw [← hmname, h.lookup_val, hmfree],
      hkept.rename (fun hthird => hthird.1 rfl) (not_third_backup hmname) hrename, .inr ?_⟩
    exact ⟨m, c, hmname, by rw [hget₁, if_pos rfl], rfl⟩
  have huntouched : ∀ o, Untouched name h (serve exactOrPrefix h
      ⟨.rename, t.wrap (renameText name (backupName name) ++ " 2>&1")⟩ o).1 := by
    intro o
    rw [serve_read (by decide) (read_renameText_redirect t name (backupName name))]
    refine answer_keeps hself fun h₁ out htaken => ?_
    obtain ⟨hfree, hin⟩ := hstep _ _ _ htaken
    exact untouched_of_kept hresolve hfree hin.1
  simp only [renameAside, send, perform_bind]
  refine holds_call (fun o h₁ e hserve => ?_) fun o h₁ r hserve => ?_
  · simpa [hserve] using huntouched o
  · by_cases hcode : r.returncode = some 0
    · obtain ⟨code, out⟩ := r
      obtain rfl : code = some 0 := hcode
      rw [serve_read (by decide) (read_renameText_redirect t name (backupName name))] at hserve
      obtain ⟨_, htaken⟩ := answer_zero hserve
      obtain ⟨hfree, hin⟩ := hstep _ _ _ htaken
      have hsafe := harmless_or_original hresolve hget hother hfree hno
      simp only [ne_eq, not_true_eq_false, if_false]
      intro env n
      exact untouched_of_kept hresolve hfree (holds_recreate t hin hsafe c₀ _ env n)
    · simp only [ne_eq, hcode, not_false_eq_true, if_true]
      refine holds_raise ?_
      simpa [hserve] using huntouched o

theorem holds_update (hno : ¬ HitsThird t name h) :
    Holds (serve exactOrPrefix) (updateStandaloneContainer t name) h
      fun h' _ => Untouched name h h' := by
  have hself : Untouched name h h := fun _ _ _ hx => hx
  have hconnect : ∀ o, (serve exactOrPrefix h ⟨.connect, ""⟩ o).1 = h := by
    intro o
    simp only [serve, if_true]
    split <;> rfl
  have hinspect : ∀ o, (serve exactOrPrefix h ⟨.inspect, t.wrap (inspectText name)⟩ o).1 = h := by
    intro o
    rw [serve_read (by decide) (read_inspectText t name)]
    exact answer_keeps (P := (· = h)) rfl fun _ _ htaken => effect_some _ htaken
  have hpull : ∀ image o,
      (serve exactOrPrefix h ⟨.pull, t.wrap (pullText image)⟩ o).1 = h := by
    intro image o
    rw [serve_read (by decide) (read_pullText t image)]
    exact answer_keeps (P := (· = h)) rfl fun _ _ htaken => effect_some _ htaken
  simp only [updateStandaloneContainer, send, perform_bind]
  refine holds_call_keeping (P := (· = h)) hconnect (fun _ _ hs => hs ▸ hself) fun h₁ _ hs => ?_
  rw [show h₁ = h from hs]
  refine holds_call (fun o h₂ e hserve => ?_) fun o h₂ r hserve => ?_
  · have hstate := hinspect o
    rw [hserve] at hstate
    exact hstate ▸ hself
  · have hsame : h₂ = h := by simpa [hserve] using hinspect o
    rw [hsame] at hserve ⊢
    split
    · exact holds_raise hself
    · next hgood =>
        split
        · exact holds_raise hself
        · next doc hdoc =>
            split
            · exact holds_raise hself
            · next hother =>
                obtain ⟨code, out⟩ := r
                obtain rfl : code = some 0 := by
                  by_contra hcode
                  exact hgood (.inl hcode)
                rw [serve_read (by decide) (read_inspectText t name)] at hserve
                obtain ⟨_, htaken⟩ := answer_zero hserve
                simp only [effect, Option.bind_eq_bind, Option.bind_eq_some_iff, Option.some.injEq,
                  Prod.mk.injEq] at htaken
                obtain ⟨n₀, hresolve, c₀, hget, -, rfl⟩ := htaken
                obtain rfl : c₀.document n₀ = doc := Option.some.inj hdoc
                simp only [pullImage, send, perform_bind]
                refine holds_call_keeping (P := (· = h)) (hpull _) (fun _ _ hs => hs ▸ hself)
                  fun h₃ pull hs => ?_
                rw [show h₃ = h from hs]
                split
                · exact holds_raise hself
                · exact holds_renameAside hresolve hget (Bool.eq_false_iff.mpr hother) hno _

/-- Nothing in the rest of the rollback brings back a container. -/
theorem holds_restoreBackup_absent {m : Name} (hm : m.val ≠ name) (habsent : h.get? m = none)
    (run : Completed) (lines : List String) :
    Holds (serve exactOrPrefix) (restoreBackup t name run lines) h
      fun h' _ => h'.get? m = none := by
  have hrename : ∀ o, (serve exactOrPrefix h
      ⟨.renameBack, t.wrap (renameText (backupName name) name)⟩ o).1.get? m = none := by
    intro o
    rw [serve_read (by decide) (read_renameText t (backupName name) name)]
    refine answer_keeps (P := fun h' => h'.get? m = none) habsent fun h₁ out htaken => ?_
    obtain ⟨n, k, _, hk, hrenamed⟩ := effect_some _ htaken
    obtain ⟨c, _, _, hget⟩ := Host.rename_some hrenamed
    have hmk : m ≠ k := fun heq => hm (heq ▸ Name.val_of_ofString? hk)
    rw [hget, if_neg hmk]
    split
    · rfl
    · exact habsent
  have hstart : ∀ h₁ : Host, h₁.get? m = none → ∀ o, (serve exactOrPrefix h₁
      ⟨.start, t.wrap (startText name)⟩ o).1.get? m = none := by
    intro h₁ habsent₁ o
    rw [serve_read (by decide) (read_startText t name)]
    refine answer_keeps (P := fun h' => h'.get? m = none) habsent₁ fun h₂ out htaken => ?_
    obtain ⟨n, _, rfl⟩ := effect_some _ htaken
    rw [Host.get?_setRunning]
    split
    · next heq => rw [← heq, habsent₁]; rfl
    · exact habsent₁
  simp only [restoreBackup, send, perform_bind]
  refine holds_call_keeping (P := fun h' => h'.get? m = none) hrename (fun _ _ hp => hp)
    fun h₁ _ habsent₁ => ?_
  exact holds_call_keeping (P := fun h' => h'.get? m = none) (hstart h₁ habsent₁) (fun _ _ hp => hp)
    fun _ _ hp => holds_raise hp

/-- The new container cannot be created. -/
def runFails : Outcomes :=
  outcomesOf fun site => if site = .run then .exit (some 125) (by decide) false else .done

/-- When the new container cannot be created, the update comes to its rollback
with the original stopped and aside. -/
theorem runFails_rolls_back {n : Name} {c : Container} {h₁ : Host}
    (hresolve : exactOrPrefix h n.val = some n) (hget : h.get? n = some c)
    (hother : t.isSelf c.id.val = false) (hrename : h.rename n n.backup = some h₁)
    (hback : h₁.get? n.backup = some c) :
    ∃ run lines, exec (serve exactOrPrefix) (fun _ call => runFails call.site) 0
        (updateStandaloneContainer t n.val) h =
      exec (serve exactOrPrefix) (fun _ call => runFails call.site) 6
        (rollBack t n.val run lines) (h₁.setRunning n.backup false) := by
  have hinspect : serve exactOrPrefix h ⟨.inspect, t.wrap (inspectText n.val)⟩
      (runFails .inspect) = (h, .ok ⟨some 0, .documents [c.document n]⟩) := by
    rw [serve_read (by decide) (read_inspectText t n.val)]
    simp only [effect, hresolve, hget, Option.bind_eq_bind, Option.bind_some]
    rfl
  have hpull : serve exactOrPrefix h
      ⟨.pull, t.wrap (pullText (c.document n).config.image)⟩ (runFails .pull) =
        (h, .ok ⟨some 0, .text ""⟩) := by
    rw [serve_read (by decide) (read_pullText t (c.document n).config.image)]
    rfl
  have hrenamed : serve exactOrPrefix h
      ⟨.rename, t.wrap (renameText n.val (backupName n.val) ++ " 2>&1")⟩ (runFails .rename) =
        (h₁, .ok ⟨some 0, .text ""⟩) := by
    have hb : Name.ofString? (backupName n.val) = some n.backup := Name.ofString?_val n.backup
    rw [serve_read (by decide) (read_renameText_redirect t n.val (backupName n.val))]
    simp only [effect, hresolve, hb, hrename, Option.bind_eq_bind, Option.bind_some]
    rfl
  have hstop : serve exactOrPrefix h₁
      ⟨.stop, t.wrap (stopText (backupName n.val))⟩ (runFails .stop) =
        (h₁.setRunning n.backup false, .ok ⟨some 0, .text ""⟩) := by
    have hb : exactOrPrefix h₁ (backupName n.val) = some n.backup :=
      exactOrPrefix_eq_some.mpr (.inl (exactName_of_some hback))
    rw [serve_read (by decide) (read_stopText t (backupName n.val))]
    simp only [effect, hb, Option.bind_eq_bind, Option.bind_some]
    rfl
  have hrun : serve exactOrPrefix (h₁.setRunning n.backup false)
      ⟨.run, t.wrap (runText (c.document n))⟩ (runFails .run) =
        (h₁.setRunning n.backup false, .ok ⟨some 125, .text ""⟩) := by
    rw [serve_read (by decide) (read_runText t c n)]
    rfl
  have hconnect : serve exactOrPrefix h ⟨.connect, ""⟩ (runFails .connect) =
      (h, .ok ⟨some 0, .text ""⟩) := rfl
  have hself : t.isSelf (c.document n).id = false := hother
  have hcode : (some 125 : Option Int) ≠ some 0 := by decide
  refine ⟨?run, ?log, ?steps⟩
  case steps =>
    simp only [updateStandaloneContainer, send, perform_bind]
    rw [exec_call_ok hconnect, exec_call_ok hinspect]
    simp only [Stdout.isBlank, Stdout.firstDocument, List.head?_cons, hself, ne_eq,
      not_true_eq_false, Bool.false_eq_true, or_self, if_false, pullImage, send, perform_bind]
    rw [exec_call_ok hpull]
    simp only [ne_eq, not_true_eq_false, if_false, renameAside, send, perform_bind]
    rw [exec_call_ok hrenamed]
    simp only [not_true_eq_false, if_false, recreate, runReplacement, send, perform_bind]
    rw [exec_call_ok hstop, exec_call_ok hrun]
    simp only [hcode, if_false, conclude, Bool.false_eq_true]
    rfl

/-- With the original stopped and aside, a third container that the name is the
unique id prefix of still is the only one that the name resolves to. -/
theorem resolves_to_third {n m : Name} {c x : Container} {h₁ : Host}
    (hget : h.get? n = some c) (hfree : h.get? n.backup = none)
    (hrename : h.rename n n.backup = some h₁) (hmn : m ≠ n) (hx : h.get? m = some x)
    (hstart : Text.startsWith x.id.val n.val = true)
    (honly : ∀ k, Matches h n.val k → k = m) :
    exactOrPrefix (h₁.setRunning n.backup false) n.val = some m := by
  obtain ⟨d, hd, _, hget₁⟩ := Host.rename_some hrename
  obtain rfl : d = c := Option.some.inj (hd.symm.trans hget)
  have hmb : m ≠ n.backup := by
    rintro rfl
    rw [hfree] at hx
    cases hx
  have hback : h₁.get? n.backup = some d := by rw [hget₁, if_pos rfl]
  have hnone : (h₁.setRunning n.backup false).get? n = none := by
    rw [Host.get?_setRunning, if_neg n.backup_ne.symm, hget₁, if_neg n.backup_ne.symm, if_pos rfl]
  have hthird : (h₁.setRunning n.backup false).get? m = some x := by
    rw [Host.get?_setRunning, if_neg hmb, hget₁, if_neg hmb, if_neg hmn, hx]
  refine exactOrPrefix_eq_some.mpr (.inr ⟨exactName_of_none hnone, ?_⟩)
  refine uniquePrefix_eq_some.mpr ⟨⟨x, hthird, hstart⟩, ?_⟩
  rintro k ⟨y, hy, hystart⟩
  by_cases hkb : k = n.backup
  · rw [hkb, Host.get?_setRunning, if_pos rfl, hback] at hy
    simp only [Option.map_some, Option.some.injEq] at hy
    have hyid : d.id = y.id := by rw [← hy]
    exact absurd (honly n ⟨d, hget, hyid ▸ hystart⟩).symm hmn
  · by_cases hkn : k = n
    · rw [hkn, hnone] at hy
      cases hy
    · rw [Host.get?_setRunning, if_neg hkb, hget₁, if_neg hkb, if_neg hkn] at hy
      exact honly k ⟨y, hy, hystart⟩

/-- When the new container cannot be created, the rollback removes the third one. -/
theorem runFails_hits_third (hhits : HitsThird t name h) :
    ¬ Untouched name h (exec (serve exactOrPrefix) (fun _ call => runFails call.site) 0
      (updateStandaloneContainer t name) h).1 := by
  obtain ⟨n, c, m, hexact, hget, hother, hfree, hunique, hmn⟩ := hhits
  obtain ⟨hn, _⟩ := exactName_eq_some.mp hexact
  subst hn
  have hresolve : exactOrPrefix h n.val = some n := exactOrPrefix_eq_some.mpr (.inl hexact)
  obtain ⟨⟨x, hx, hstart⟩, honly⟩ := uniquePrefix_eq_some.mp hunique
  rw [h.lookup_backup] at hfree
  obtain ⟨h₁, hrename⟩ := Host.rename_of_free hget hfree
  have hback : h₁.get? n.backup = some c := by
    obtain ⟨d, hd, _, hget₁⟩ := Host.rename_some hrename
    rw [hget₁, if_pos rfl, ← hd, hget]
  obtain ⟨run, lines, hrolls⟩ := runFails_rolls_back hresolve hget hother hrename hback
  have hthird := resolves_to_third hget hfree hrename hmn hx hstart honly
  have hrmForce : serve exactOrPrefix (h₁.setRunning n.backup false)
      ⟨.rmForce, t.wrap (rmForceText n.val)⟩ (runFails .rmForce) =
        ((h₁.setRunning n.backup false).remove m, .ok ⟨some 0, .text ""⟩) := by
    rw [serve_read (by decide) (read_rmForceText t n.val)]
    simp only [effect, hthird, Option.bind_eq_bind, Option.bind_some]
    rfl
  intro huntouched
  have hpresent := huntouched m x
    (by rw [hresolve]; exact fun heq => hmn (Option.some.inj heq).symm) hx
  rw [hrolls] at hpresent
  simp only [rollBack, send, perform_bind] at hpresent
  rw [exec_call_ok hrmForce] at hpresent
  have habsent : ((h₁.setRunning n.backup false).remove m).get? m = none := by
    rw [Host.get?_remove, if_pos rfl]
  have hmname : m.val ≠ n.val := fun heq => hmn (Subtype.ext heq)
  have hgone := holds_restoreBackup_absent (t := t) hmname habsent
  rw [hgone] at hpresent
  cases hpresent

/-- An update leaves every container but its own untouched, under all outcomes
of its commands, exactly when it does not hit a third one. -/
theorem update_frame_iff (t : Target) (name : String) (h : Host) :
    (∀ env : Nat → Call → Outcome, Untouched name h
      (exec (serve exactOrPrefix) env 0 (updateStandaloneContainer t name) h).1) ↔
      ¬ HitsThird t name h :=
  ⟨fun hframe hhits => runFails_hits_third hhits (hframe _),
    fun hno env => holds_update hno env 0⟩

end Update

section Cafe

/-- A container named `cafe`, and one named `db` whose id begins with `cafe`. -/
def cafeHost : Host where
  containers := ((∅ : Dict Name Container).set ⟨"cafe", by decide⟩ webContainer).set
    ⟨"db", by decide⟩
    { webContainer with
      id := ⟨String.ofList ("cafe".toList ++ List.replicate 60 '0'), by decide⟩ }
  unique := by
    intro n m c d hc hd hid
    simp only [Dict.get?_set, Dict.get?_empty] at hc hd
    have hne : webContainer.id.val ≠ String.ofList ("cafe".toList ++ List.replicate 60 '0') := by
      decide
    by_cases hndb : n = ⟨"db", by decide⟩ <;> by_cases hmdb : m = ⟨"db", by decide⟩
    · rw [hndb, hmdb]
    · rw [if_pos hndb] at hc
      rw [if_neg hmdb] at hd
      split at hd
      · rw [← Option.some.inj hc, ← Option.some.inj hd] at hid
        exact absurd (congrArg Subtype.val hid).symm hne
      · cases hd
    · rw [if_neg hndb] at hc
      rw [if_pos hmdb] at hd
      split at hc
      · rw [← Option.some.inj hc, ← Option.some.inj hd] at hid
        exact absurd (congrArg Subtype.val hid) hne
      · cases hc
    · rw [if_neg hndb] at hc
      rw [if_neg hmdb] at hd
      split at hc
      · next hn =>
        split at hd
        · next hm => rw [hn, hm]
        · cases hd
      · cases hc

/-- The failed update of `cafe` removes `db`. -/
theorem update_removes_third :
    ¬ Untouched "cafe" cafeHost (exec (serve exactOrPrefix) (fun _ call => runFails call.site) 0
      (updateStandaloneContainer webTarget "cafe") cafeHost).1 := by
  refine runFails_hits_third ⟨⟨"cafe", by decide⟩, webContainer, ⟨"db", by decide⟩, ?_⟩
  refine ⟨by decide, by decide, rfl, by decide, by decide, by decide⟩

end Cafe

end Keepup.Docker
