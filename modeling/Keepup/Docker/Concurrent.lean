import Keepup.Docker.Rollback

/-!
Any number of updates of one container at the same time. Nothing but the fixed
backup name keeps them apart: a rename aside is refused while the backup of
another update is there. The invariant says what the two names hold while an
update is between its rename and the end of its backup.
-/

namespace Keepup.Docker

open Lib Remote

inductive Stage where
  | before
  | aside
  | verified
  | after
deriving DecidableEq

/-- What one update has done so far: the container it renamed aside, the one its
`docker run` created, and the one its verification reported. -/
structure Progress where
  stage : Stage
  aside : Option ContainerId
  created : Option ContainerId
  reported : Option ContainerId

namespace Progress

def start : Progress := ⟨.before, none, none, none⟩

/-- Between the successful rename and the last `docker rm` or rename back. -/
def Inside (p : Progress) : Prop := p.stage = .aside ∨ p.stage = .verified

/-- A container that the update may remove: its own replacement as long as it is
not verified, then the one it renamed aside. -/
def MayRemove (p : Progress) (id : ContainerId) : Prop :=
  (p.stage = .aside ∧ p.created = some id) ∨
    (p.stage = .verified ∧ p.aside = some id ∧
      ∃ replacement, p.created = some replacement ∧ p.reported = some replacement)

end Progress

def Host.idAt (h : Host) (n : Name) : Option ContainerId := (h.get? n).map Container.id

/-- The stage at which a call stands in the code. -/
def Site.stage : Site → Stage
  | .connect | .inspect | .pull | .rename => .before
  | .stop | .run | .verify | .rmForce | .renameBack => .aside
  | .rmBackup => .verified
  | .start => .after

/-- The texts that the update of the container `n` sends at each place. -/
def Sends (t : Target) (n : Name) (text : String) : Site → Prop
  | .connect => True
  | .inspect => text = t.wrap (inspectText n.val)
  | .pull => ∃ image, text = t.wrap (pullText image)
  | .rename => text = t.wrap (renameText n.val (backupName n.val) ++ " 2>&1")
  | .stop => text = t.wrap (stopText (backupName n.val))
  | .run => ∃ c : Container, text = t.wrap (runText (c.document n))
  | .verify => text = t.wrap (verifyText n.val)
  | .rmForce => text = t.wrap (rmForceText n.val)
  | .renameBack => text = t.wrap (renameText (backupName n.val) n.val)
  | .start => text = t.wrap (startText n.val)
  | .rmBackup => text = t.wrap (rmText (backupName n.val))

/-- The progress after a call, from its answer and the host before and after it. -/
def progress (n : Name) (p : Progress) (call : Call) (h h' : Host) :
    Except UpdateError Completed → Progress
  | .ok r =>
      match call.site with
      | .rename =>
          if r.returncode = some 0 then { p with stage := .aside, aside := h.idAt n } else p
      | .run => { p with created := if h.idAt n = none then h'.idAt n else p.created }
      | .verify => if settled r then { p with stage := .verified, reported := h.idAt n } else p
      | .renameBack | .rmBackup => { p with stage := .after }
      | _ => p
  | .error _ =>
      match call.site with
      | .run => { p with created := if h.idAt n = none then h'.idAt n else p.created }
      | .renameBack | .rmBackup => { p with stage := .after }
      | _ => p

def monitor (t : Target) (n : Name) : Monitor Host Call Completed UpdateError Progress where
  due p call := p.stage = call.site.stage ∧ Sends t n call.text call.site
  next := progress n

section Program

variable {t : Target} {n : Name} {p : Progress} {run : Completed} {lines : List String}

theorem follows_restoreBackup (hp : p.stage = .aside) :
    Follows (serve exactName) (monitor t n) p (restoreBackup t n.val run lines) := by
  simp only [restoreBackup, send, perform_bind, Follows]
  exact ⟨⟨hp, rfl⟩, fun _ _ _ _ _ => ⟨⟨rfl, rfl⟩, fun _ _ _ _ _ => trivial⟩⟩

theorem follows_rollBack (hp : p.stage = .aside) :
    Follows (serve exactName) (monitor t n) p (rollBack t n.val run lines) := by
  simp only [rollBack, send, perform_bind, Follows]
  exact ⟨⟨hp, rfl⟩, fun _ _ _ _ _ => follows_restoreBackup hp⟩

theorem follows_dropBackup (hp : p.stage = .verified) :
    Follows (serve exactName) (monitor t n) p (dropBackup t n.val lines) := by
  simp only [dropBackup, send, perform_bind, Follows]
  exact ⟨⟨hp, rfl⟩, fun _ _ _ _ _ => trivial⟩

theorem follows_runReplacement (hp : p.stage = .aside) (c : Container) :
    Follows (serve exactName) (monitor t n) p (runReplacement t n.val (c.document n) lines) := by
  simp only [runReplacement, send, perform_bind, Follows]
  refine ⟨⟨hp, c, rfl⟩, fun h h' _ run _ => ?_⟩
  have hstage : (progress n p ⟨.run, t.wrap (runText (c.document n))⟩ h h' (.ok run)).stage =
      .aside := hp
  split
  · refine ⟨⟨hstage, rfl⟩, fun _ _ _ verify _ => ?_⟩
    simp only [monitor, progress]
    cases settled verify with
    | true => exact follows_dropBackup rfl
    | false => exact follows_rollBack hp
  · exact follows_rollBack hstage

theorem follows_recreate (hp : p.stage = .aside) (c : Container) :
    Follows (serve exactName) (monitor t n) p (recreate t n.val (c.document n) lines) := by
  simp only [recreate, send, perform_bind, Follows]
  exact ⟨⟨hp, rfl⟩, fun _ _ _ _ _ => follows_runReplacement hp c⟩

theorem follows_renameAside (hp : p.stage = .before) (c : Container) :
    Follows (serve exactName) (monitor t n) p (renameAside t n.val (c.document n) lines) := by
  simp only [renameAside, send, perform_bind, Follows]
  refine ⟨⟨hp, rfl⟩, fun _ _ _ rename _ => ?_⟩
  by_cases hzero : rename.returncode = some 0
  · simp only [monitor, progress, hzero, ne_eq, not_true_eq_false, if_true, if_false]
    exact follows_recreate rfl c
  · simp [hzero, Follows]

theorem follows_pullImage (hp : p.stage = .before) (c : Container) :
    Follows (serve exactName) (monitor t n) p (pullImage t n.val (c.document n) lines) := by
  simp only [pullImage, send, perform_bind, Follows]
  refine ⟨⟨hp, _, rfl⟩, fun _ _ _ pull _ => ?_⟩
  split
  · trivial
  · exact follows_renameAside hp c

/-- A document that the inspection answers is the one of the container under the name. -/
theorem inspected_document {h h' : Host} {o : Outcome} {r : Completed} {doc : Inspect}
    (hserve : serve exactName h ⟨.inspect, t.wrap (inspectText n.val)⟩ o = (h', .ok r))
    (hzero : r.returncode = some 0) (hdoc : r.stdout.firstDocument = some doc) :
    ∃ c : Container, doc = c.document n := by
  rw [serve_read (by decide) (read_inspectText t n.val)] at hserve
  obtain ⟨code, out⟩ := r
  obtain rfl : code = some 0 := hzero
  obtain ⟨_, htaken⟩ := answer_zero hserve
  simp only [effect, Option.bind_eq_bind, Option.bind_eq_some_iff, Option.some.injEq,
    Prod.mk.injEq] at htaken
  obtain ⟨m, hm, c, _, _, rfl⟩ := htaken
  obtain rfl : m = n := Subtype.ext (exactName_eq_some.mp hm).1
  exact ⟨c, (Option.some.inj hdoc).symm⟩

/-- The update sends what is due at its stage, whatever the host answers. -/
theorem follows_update : Follows (serve exactName) (monitor t n) .start
    (updateStandaloneContainer t n.val) := by
  simp only [updateStandaloneContainer, send, perform_bind, Follows]
  refine ⟨⟨rfl, trivial⟩, fun _ _ _ _ _ => ⟨⟨rfl, rfl⟩, fun h h' o inspect hserve => ?_⟩⟩
  split
  · trivial
  · next hfound =>
    have hzero := not_not.mp (not_or.mp hfound).1
    split
    · trivial
    · next doc hdoc =>
      obtain ⟨c, rfl⟩ := inspected_document hserve hzero hdoc
      split
      · trivial
      · exact follows_pullImage rfl c

end Program

section Ids

variable {h h' : Host} {n m : Name} {id : ContainerId}

theorem Host.idAt_setRunning (running : Bool) (k : Name) :
    (h.setRunning n running).idAt k = h.idAt k := by
  rw [idAt, idAt, get?_setRunning]
  split
  · next hk => simp [hk, Function.comp_def]
  · rfl

theorem Host.idAt_remove (k : Name) : (h.remove n).idAt k = if k = n then none else h.idAt k := by
  rw [idAt, get?_remove]
  split <;> rfl

/-- A rename takes an id from one name to another, which was free. -/
theorem Host.idAt_rename (hrename : h.rename n m = some h') :
    (∃ id, h.idAt n = some id ∧ h'.idAt m = some id) ∧ h.idAt m = none ∧
      ∀ k, k ≠ m → h'.idAt k = if k = n then none else h.idAt k := by
  obtain ⟨c, hn, hm, hget⟩ := Host.rename_some hrename
  refine ⟨⟨c.id, by rw [idAt, hn]; rfl, by rw [idAt, hget, if_pos rfl]; rfl⟩, ?_, fun k hk => ?_⟩
  · rw [idAt, hm]
    rfl
  · rw [idAt, hget, if_neg hk]
    split <;> rfl

theorem Host.idAt_create {c : Container} (hcreate : h.create n c = some h') :
    h.idAt n = none ∧ ∀ k, k ≠ n → h'.idAt k = h.idAt k := by
  obtain ⟨hn, _, hget⟩ := Host.create_some hcreate
  refine ⟨by rw [idAt, hn]; rfl, fun k hk => ?_⟩
  rw [idAt, hget, if_neg hk]
  rfl

theorem Host.hasId_iff : h.HasId id ↔ ∃ k, h.idAt k = some id := by
  simp [HasId, idAt]

/-- A rename keeps every id. -/
theorem Host.hasId_rename (hrename : h.rename n m = some h') (hid : ∃ k, h.idAt k = some id) :
    ∃ k, h'.idAt k = some id := by
  obtain ⟨⟨x, hn, hm⟩, hfree, hrest⟩ := Host.idAt_rename hrename
  obtain ⟨k, hk⟩ := hid
  by_cases hkn : k = n
  · rw [hkn, hn] at hk
    exact ⟨m, hm.trans hk⟩
  · have hkm : k ≠ m := by
      rintro rfl
      rw [hfree] at hk
      cases hk
    exact ⟨k, by rw [hrest k hkm, if_neg hkn, hk]⟩

/-- An id that a removal takes away was the one under the removed name. -/
theorem Host.removed_eq {k : Name} (hk : h.idAt k = some id)
    (hgone : ¬ ∃ k, (h.remove n).idAt k = some id) : k = n := by
  by_contra hne
  exact hgone ⟨k, by rw [Host.idAt_remove, if_neg hne, hk]⟩

end Ids

/-- What the name and the backup name hold while an update is inside. -/
structure Exclusive {ι : Type} (n : Name) (h : Host) (runs : ι → Progress) : Prop where
  backup : ∀ i, (runs i).Inside → ∃ id, (runs i).aside = some id ∧ h.idAt n.backup = some id
  name : ∀ i, (runs i).Inside → h.idAt n = none ∨ h.idAt n = (runs i).created
  one : ∀ i j, (runs i).Inside → (runs j).Inside → i = j
  verified : ∀ i, (runs i).stage = .verified →
    ∃ id, (runs i).created = some id ∧ (runs i).reported = some id

namespace Exclusive

variable {ι : Type} {n : Name} {h h' : Host} {runs : ι → Progress} {i : ι} {p : Progress}

theorem initial : Exclusive n h (fun _ : ι => Progress.start) where
  backup _ hin := by rcases hin with hs | hs <;> cases hs
  name _ hin := by rcases hin with hs | hs <;> cases hs
  one _ _ hin := by rcases hin with hs | hs <;> cases hs
  verified _ hs := by cases hs

/-- Nobody is inside while the backup name is free. -/
theorem outside (hex : Exclusive n h runs) (hfree : h.idAt n.backup = none) (j : ι) :
    ¬ (runs j).Inside := by
  intro hin
  obtain ⟨id, _, hid⟩ := hex.backup j hin
  rw [hfree] at hid
  cases hid

theorem others (hex : Exclusive n h runs) (hin : (runs i).Inside) :
    ∀ j, j ≠ i → ¬ (runs j).Inside :=
  fun _ hne hj => hne (hex.one _ _ hj hin)

/-- The two names keep their ids. -/
theorem congr (hex : Exclusive n h runs) (hn : h'.idAt n = h.idAt n)
    (hb : h'.idAt n.backup = h.idAt n.backup) : Exclusive n h' runs where
  backup j hin := by
    rw [hb]
    exact hex.backup j hin
  name j hin := by
    rw [hn]
    exact hex.name j hin
  one := hex.one
  verified := hex.verified

variable [DecidableEq ι]

/-- One update moves while no other is inside. -/
theorem alone (hex : Exclusive n h runs) (hothers : ∀ j, j ≠ i → ¬ (runs j).Inside)
    (hbackup : p.Inside → ∃ id, p.aside = some id ∧ h'.idAt n.backup = some id)
    (hname : p.Inside → h'.idAt n = none ∨ h'.idAt n = p.created)
    (hverified : p.stage = .verified → ∃ id, p.created = some id ∧ p.reported = some id) :
    Exclusive n h' (Function.update runs i p) where
  backup j hin := by
    by_cases hj : j = i
    · subst hj
      rw [Function.update_self] at hin ⊢
      exact hbackup hin
    · rw [Function.update_of_ne hj] at hin
      exact absurd hin (hothers j hj)
  name j hin := by
    by_cases hj : j = i
    · subst hj
      rw [Function.update_self] at hin ⊢
      exact hname hin
    · rw [Function.update_of_ne hj] at hin
      exact absurd hin (hothers j hj)
  one j k hj hk := by
    have hself : ∀ l, (Function.update runs i p l).Inside → l = i := by
      intro l hl
      by_contra hne
      rw [Function.update_of_ne hne] at hl
      exact hothers l hne hl
    rw [hself j hj, hself k hk]
  verified j hs := by
    by_cases hj : j = i
    · subst hj
      rw [Function.update_self] at hs ⊢
      exact hverified hs
    · rw [Function.update_of_ne hj] at hs ⊢
      exact hex.verified j hs

/-- An update stays outside while no other is inside. -/
theorem quiet (hex : Exclusive n h runs) (hothers : ∀ j, j ≠ i → ¬ (runs j).Inside)
    (hout : ¬ p.Inside) : Exclusive n h' (Function.update runs i p) :=
  hex.alone hothers (fun hin => absurd hin hout) (fun hin => absurd hin hout)
    fun hs => absurd (.inr hs) hout

end Exclusive

section Served

variable {t : Target} {n : Name} {h h' : Host} {o : Outcome} {res : Except UpdateError Completed}

/-- A served command leaves the host as it was or as its effect leaves it, and
exit status zero means the latter. -/
theorem served_cases {site : Site} {text : String} {cmd : Cmd} (hsite : site ≠ .connect)
    (hread : readCommand text = some cmd)
    (hserve : serve exactName h ⟨site, text⟩ o = (h', res)) :
    (h' = h ∧ ∀ r, res = .ok r → r.returncode ≠ some 0) ∨
      ∃ out, effect exactName h o.chance cmd = some (h', out) ∧
        ∀ r, res = .ok r → r.returncode = some 0 → r.stdout = out := by
  rw [serve_read hsite hread] at hserve
  by_cases hzero : ∃ out, res = .ok ⟨some 0, out⟩
  · obtain ⟨out, rfl⟩ := hzero
    refine .inr ⟨out, (answer_zero hserve).2, ?_⟩
    rintro r hr _
    rw [← Except.ok.inj hr]
  · have hnonzero : ∀ r, res = .ok r → r.returncode ≠ some 0 := by
      rintro ⟨code, out⟩ hr hcode
      exact hzero ⟨out, by rw [hr, show code = some 0 from hcode]⟩
    have hkeeps : (answer h (effect exactName h o.chance cmd) o).1 = h ∨
        ∃ out, effect exactName h o.chance cmd =
          some ((answer h (effect exactName h o.chance cmd) o).1, out) :=
      answer_keeps (P := fun h₁ => h₁ = h ∨ ∃ out, effect exactName h o.chance cmd = some (h₁, out))
        (.inl rfl) fun h₁ out htaken => .inr ⟨out, htaken⟩
    rw [hserve] at hkeeps
    rcases hkeeps with hsame | ⟨out, htaken⟩
    · exact .inl ⟨hsame, hnonzero⟩
    · exact .inr ⟨out, htaken, fun r hr hcode => absurd hcode (hnonzero r hr)⟩

theorem served_connect {text : String}
    (hserve : serve exactName h ⟨.connect, text⟩ o = (h', res)) : h' = h := by
  simp only [serve, if_true] at hserve
  split at hserve <;> exact (Prod.mk.inj hserve).1.symm

variable {text : String} {ref : String}

/-- Stopping and starting change no id. -/
theorem served_setRunning {site : Site} {cmd : Cmd} (hcmd : cmd = .stop ref ∨ cmd = .start ref)
    (hsite : site ≠ .connect) (hread : readCommand text = some cmd)
    (hserve : serve exactName h ⟨site, text⟩ o = (h', res)) (k : Name) : h'.idAt k = h.idAt k := by
  rcases served_cases hsite hread hserve with ⟨rfl, _⟩ | ⟨out, htaken, _⟩
  · rfl
  · rcases hcmd with rfl | rfl
    · obtain ⟨m, _, rfl⟩ := effect_some _ htaken
      exact h.idAt_setRunning false k
    · obtain ⟨m, _, rfl⟩ := effect_some _ htaken
      exact h.idAt_setRunning true k

theorem served_pull (hsends : Sends t n text .pull)
    (hserve : serve exactName h ⟨.pull, text⟩ o = (h', res)) : h' = h := by
  obtain ⟨image, rfl⟩ := hsends
  rcases served_cases (by decide) (read_pullText t image) hserve with ⟨hsame, _⟩ | ⟨_, htaken, _⟩
  · exact hsame
  · exact effect_some _ htaken

theorem served_inspect (hsends : Sends t n text .inspect)
    (hserve : serve exactName h ⟨.inspect, text⟩ o = (h', res)) : h' = h := by
  subst hsends
  rcases served_cases (by decide) (read_inspectText t n.val) hserve with
    ⟨hsame, _⟩ | ⟨_, htaken, _⟩
  · exact hsame
  · exact effect_some _ htaken

/-- The rename aside is refused, or it takes the container to the free backup name. -/
theorem served_rename (hsends : Sends t n text .rename)
    (hserve : serve exactName h ⟨.rename, text⟩ o = (h', res)) :
    (h' = h ∧ ∀ r, res = .ok r → r.returncode ≠ some 0) ∨ h.rename n n.backup = some h' := by
  subst hsends
  rcases served_cases (by decide) (read_renameText_redirect t n.val _) hserve with
    hrefused | ⟨_, htaken, _⟩
  · exact .inl hrefused
  · obtain ⟨m, b, hm, hb, hrename⟩ := effect_some _ htaken
    obtain rfl : m = n := Subtype.ext (exactName_eq_some.mp hm).1
    obtain rfl : b = m.backup := Subtype.ext (Name.val_of_ofString? hb)
    exact .inr hrename

theorem served_renameBack (hsends : Sends t n text .renameBack)
    (hserve : serve exactName h ⟨.renameBack, text⟩ o = (h', res)) :
    h' = h ∨ h.rename n.backup n = some h' := by
  subst hsends
  rcases served_cases (by decide) (read_renameText t _ n.val) hserve with
    ⟨hsame, _⟩ | ⟨_, htaken, _⟩
  · exact .inl hsame
  · obtain ⟨b, m, hb, hm, hrename⟩ := effect_some _ htaken
    obtain rfl : m = n := Subtype.ext (Name.val_of_ofString? hm)
    obtain rfl : b = m.backup := Subtype.ext (exactName_eq_some.mp hb).1
    exact .inr hrename

theorem served_run (hsends : Sends t n text .run)
    (hserve : serve exactName h ⟨.run, text⟩ o = (h', res)) :
    h' = h ∨ ∃ c, h.create n c = some h' := by
  obtain ⟨c, rfl⟩ := hsends
  rcases served_cases (by decide) (read_runText t c n) hserve with ⟨hsame, _⟩ | ⟨_, htaken, _⟩
  · exact .inl hsame
  · obtain ⟨m, d, hnew, hcreate⟩ := effect_some _ htaken
    rw [newContainer_recreation] at hnew
    obtain ⟨rfl, _⟩ := Prod.mk.inj (Option.some.inj hnew)
    exact .inr ⟨d, hcreate⟩

/-- A verification that settles was about a container under the name. -/
theorem served_verify (hsends : Sends t n text .verify)
    (hserve : serve exactName h ⟨.verify, text⟩ o = (h', res)) :
    h' = h ∧ ∀ r, res = .ok r → settled r = true → h.idAt n ≠ none := by
  subst hsends
  rcases served_cases (by decide) (read_verifyText t n.val) hserve with
    ⟨hsame, hcode⟩ | ⟨_, htaken, _⟩
  · refine ⟨hsame, fun r hr hsettled => absurd ?_ (hcode r hr)⟩
    simp only [settled, Bool.and_eq_true, beq_iff_eq] at hsettled
    exact hsettled.1
  · have hsame : h' = h := effect_some _ htaken
    simp only [effect, Option.bind_eq_bind, Option.bind_eq_some_iff] at htaken
    obtain ⟨m, hm, c, hc, _⟩ := htaken
    obtain rfl : m = n := Subtype.ext (exactName_eq_some.mp hm).1
    exact ⟨hsame, fun _ _ _ => by simp [Host.idAt, hc]⟩

theorem served_rmForce (hsends : Sends t n text .rmForce)
    (hserve : serve exactName h ⟨.rmForce, text⟩ o = (h', res)) : h' = h ∨ h' = h.remove n := by
  subst hsends
  rcases served_cases (by decide) (read_rmForceText t n.val) hserve with
    ⟨hsame, _⟩ | ⟨_, htaken, _⟩
  · exact .inl hsame
  · obtain ⟨m, hm, rfl⟩ := effect_some _ htaken
    obtain rfl : m = n := Subtype.ext (exactName_eq_some.mp hm).1
    exact .inr rfl

theorem served_rmBackup (hsends : Sends t n text .rmBackup)
    (hserve : serve exactName h ⟨.rmBackup, text⟩ o = (h', res)) :
    h' = h ∨ h' = h.remove n.backup := by
  subst hsends
  rcases served_cases (by decide) (read_rmText t _) hserve with ⟨hsame, _⟩ | ⟨_, htaken, _⟩
  · exact .inl hsame
  · obtain ⟨m, _, hm, _, _, rfl⟩ := effect_some _ htaken
    obtain rfl : m = n.backup := Subtype.ext (exactName_eq_some.mp hm).1
    exact .inr rfl

end Served

section Together

variable {ι : Type} (t : Target) (n : Name)

/-- An id that a served call takes away was one that its update may remove. -/
theorem removed_mayRemove {h h' : Host} {runs : ι → Progress} {i : ι} {call : Call} {o : Outcome}
    {res : Except UpdateError Completed} {id : ContainerId} (hex : Exclusive n h runs)
    (hdue : (monitor t n).due (runs i) call) (hserve : serve exactName h call o = (h', res))
    (hhas : h.HasId id) (hgone : ¬ h'.HasId id) : (runs i).MayRemove id := by
  obtain ⟨site, text⟩ := call
  obtain ⟨hstage, hsends⟩ := hdue
  rw [Host.hasId_iff] at hhas hgone
  obtain ⟨k, hk⟩ := hhas
  cases site with
  | connect =>
      obtain rfl := served_connect hserve
      exact absurd ⟨k, hk⟩ hgone
  | inspect =>
      obtain rfl := served_inspect hsends hserve
      exact absurd ⟨k, hk⟩ hgone
  | pull =>
      obtain rfl := served_pull hsends hserve
      exact absurd ⟨k, hk⟩ hgone
  | verify =>
      obtain ⟨rfl, _⟩ := served_verify hsends hserve
      exact absurd ⟨k, hk⟩ hgone
  | stop =>
      subst hsends
      have hids := served_setRunning (.inl rfl) (by decide) (read_stopText t _) hserve
      exact absurd ⟨k, (hids k).trans hk⟩ hgone
  | start =>
      subst hsends
      have hids := served_setRunning (.inr rfl) (by decide) (read_startText t _) hserve
      exact absurd ⟨k, (hids k).trans hk⟩ hgone
  | rename =>
      rcases served_rename hsends hserve with ⟨rfl, _⟩ | hrename
      · exact absurd ⟨k, hk⟩ hgone
      · exact absurd (Host.hasId_rename hrename ⟨k, hk⟩) hgone
  | renameBack =>
      rcases served_renameBack hsends hserve with rfl | hrename
      · exact absurd ⟨k, hk⟩ hgone
      · exact absurd (Host.hasId_rename hrename ⟨k, hk⟩) hgone
  | run =>
      rcases served_run hsends hserve with rfl | ⟨c, hcreate⟩
      · exact absurd ⟨k, hk⟩ hgone
      · obtain ⟨hnone, hrest⟩ := Host.idAt_create hcreate
        have hkn : k ≠ n := by
          rintro rfl
          rw [hnone] at hk
          cases hk
        exact absurd ⟨k, (hrest k hkn).trans hk⟩ hgone
  | rmForce =>
      rcases served_rmForce hsends hserve with rfl | rfl
      · exact absurd ⟨k, hk⟩ hgone
      · obtain rfl := Host.removed_eq hk hgone
        refine .inl ⟨hstage, ?_⟩
        rcases hex.name i (.inl hstage) with hnone | hcreated
        · rw [hnone] at hk
          cases hk
        · rw [← hcreated, hk]
  | rmBackup =>
      rcases served_rmBackup hsends hserve with rfl | rfl
      · exact absurd ⟨k, hk⟩ hgone
      · obtain rfl := Host.removed_eq hk hgone
        obtain ⟨aside, haside, hid⟩ := hex.backup i (.inr hstage)
        refine .inr ⟨hstage, ?_, hex.verified i hstage⟩
        rw [haside, ← hid, hk]

variable [DecidableEq ι]

/-- Every call of every update keeps the invariant, whatever its answer. -/
theorem stable_exclusive :
    Pool.Stable (serve exactName) (monitor t n) fun h (runs : ι → Progress) =>
      Exclusive n h runs := by
  intro h runs i call o h' res hex hdue hserve
  obtain ⟨site, text⟩ := call
  obtain ⟨hstage, hsends⟩ := hdue
  change Exclusive n h' (Function.update runs i (progress n (runs i) ⟨site, text⟩ h h' res))
  have hsame : progress n (runs i) ⟨site, text⟩ h h' res = runs i → h'.idAt n = h.idAt n →
      h'.idAt n.backup = h.idAt n.backup →
      Exclusive n h' (Function.update runs i (progress n (runs i) ⟨site, text⟩ h h' res)) := by
    intro hp hn hb
    rw [hp, Function.update_eq_self]
    exact hex.congr hn hb
  cases site with
  | connect =>
      obtain rfl := served_connect hserve
      exact hsame (by cases res <;> rfl) rfl rfl
  | inspect =>
      obtain rfl := served_inspect hsends hserve
      exact hsame (by cases res <;> rfl) rfl rfl
  | pull =>
      obtain rfl := served_pull hsends hserve
      exact hsame (by cases res <;> rfl) rfl rfl
  | rename =>
      rcases served_rename hsends hserve with ⟨rfl, hcode⟩ | hrename
      · refine hsame ?_ rfl rfl
        cases res with
        | error e => rfl
        | ok r => simp [progress, hcode r rfl]
      · obtain ⟨⟨id, hid, hid'⟩, hfree, hrest⟩ := Host.idAt_rename hrename
        have hothers : ∀ j, j ≠ i → ¬ (runs j).Inside := fun j _ => hex.outside hfree j
        cases res with
        | error e => exact hex.quiet hothers (hex.outside hfree i)
        | ok r =>
            by_cases hzero : r.returncode = some 0
            · simp only [progress, hzero, if_true]
              refine hex.alone hothers (fun _ => ⟨id, hid, hid'⟩) (fun _ => .inl ?_) nofun
              rw [hrest n n.backup_ne.symm, if_pos rfl]
            · simp only [progress, hzero, if_false]
              exact hex.quiet hothers (hex.outside hfree i)
  | stop =>
      subst hsends
      have hids := served_setRunning (.inl rfl) (by decide) (read_stopText t _) hserve
      exact hsame (by cases res <;> rfl) (hids n) (hids n.backup)
  | run =>
      have hin : (runs i).Inside := .inl hstage
      obtain ⟨id, haside, hid⟩ := hex.backup i hin
      have hp : progress n (runs i) ⟨.run, text⟩ h h' res = { runs i with
          created := if h.idAt n = none then h'.idAt n else (runs i).created } := by
        cases res <;> rfl
      rw [hp]
      refine hex.alone (hex.others hin) (fun _ => ⟨id, haside, ?_⟩) (fun _ => ?_) fun hs =>
        absurd (hstage.symm.trans hs) nofun
      · rcases served_run hsends hserve with rfl | ⟨c, hcreate⟩
        · exact hid
        · rw [(Host.idAt_create hcreate).2 _ n.backup_ne, hid]
      · rcases served_run hsends hserve with rfl | ⟨c, hcreate⟩
        · by_cases hnone : h'.idAt n = none
          · exact .inl hnone
          · simpa [hnone] using hex.name i hin
        · simp [(Host.idAt_create hcreate).1]
  | verify =>
      have hin : (runs i).Inside := .inl hstage
      obtain ⟨rfl, hfound⟩ := served_verify hsends hserve
      cases res with
      | error e => exact hsame rfl rfl rfl
      | ok r =>
          by_cases hsettled : settled r = true
          · simp only [progress, hsettled, if_true]
            refine hex.alone (hex.others hin) (fun _ => hex.backup i hin)
              (fun _ => hex.name i hin) fun _ => ?_
            have hsome := hfound r rfl hsettled
            have hcreated := (hex.name i hin).resolve_left hsome
            obtain ⟨id, hid⟩ := Option.ne_none_iff_exists'.mp hsome
            exact ⟨id, hcreated.symm.trans hid, hid⟩
          · exact hsame (by simp [progress, hsettled]) rfl rfl
  | rmForce =>
      have hin : (runs i).Inside := .inl hstage
      have hp : progress n (runs i) ⟨.rmForce, text⟩ h h' res = runs i := by cases res <;> rfl
      rcases served_rmForce hsends hserve with rfl | rfl
      · exact hsame hp rfl rfl
      · obtain ⟨id, haside, hid⟩ := hex.backup i hin
        rw [hp]
        refine hex.alone (hex.others hin) (fun _ => ⟨id, haside, ?_⟩) (fun _ => .inl ?_)
          (hex.verified i)
        · rw [Host.idAt_remove, if_neg n.backup_ne, hid]
        · rw [Host.idAt_remove, if_pos rfl]
  | renameBack | rmBackup =>
      have hin : (runs i).Inside := by
        first
        | exact .inl hstage
        | exact .inr hstage
      refine hex.quiet (hex.others hin) ?_
      cases res <;> rintro (hs | hs) <;> cases hs
  | start =>
      subst hsends
      have hids := served_setRunning (.inr rfl) (by decide) (read_startText t _) hserve
      exact hsame (by cases res <;> rfl) (hids n) (hids n.backup)

variable {t n}

/-- All updates of the container, none of which has begun. -/
def allUpdates (t : Target) (n : Name) (h : Host) :
    Pool ι Host Call Completed UpdateError Progress (List String) where
  server := h
  prog _ := updateStandaloneContainer t n.val
  phase _ := .start

/-- In every interleaving of the updates of one container, a container that one
of them removes is one that it may remove, and at most one of them is between its
rename and the end of its backup. -/
theorem updates_keep_unreplaced {h : Host}
    {q : Pool ι Host Call Completed UpdateError Progress (List String)}
    (hrun : Pool.Run (serve exactName) (monitor t n) (allUpdates t n h) q) :
    (∀ i q', Pool.Step (serve exactName) (monitor t n) i q q' →
        ∀ id, q.server.HasId id → ¬ q'.server.HasId id → (q.phase i).MayRemove id) ∧
      ∀ i j, (q.phase i).Inside → (q.phase j).Inside → i = j := by
  have hinv : Pool.Inv (serve exactName) (monitor t n) (fun h runs => Exclusive n h runs) q :=
    Pool.run_inv (stable_exclusive t n) hrun ⟨Exclusive.initial, fun _ => follows_update⟩
  refine ⟨fun i q' hstep id hhas hgone => ?_, hinv.1.one⟩
  obtain ⟨call, o, res, hdue, hserve⟩ := Pool.step_served hstep (hinv.2 i)
  exact removed_mayRemove t n hinv.1 hdue hserve hhas hgone

section Web

/-- Two updates, by what each of them has left to do. -/
def pair (h : Host) (first second : Update) (p p' : Progress) :
    Pool Bool Host Call Completed UpdateError Progress (List String) where
  server := h
  prog i := if i then first else second
  phase i := if i then p else p'

variable {h h' : Host} {call : Call} {k : Completed → Update} {first second : Update}
  {p p' : Progress}
  {r : Completed} {o : Outcome}
  {start : Pool Bool Host Call Completed UpdateError Progress (List String)}

theorem pair_first (hserve : serve exactName h call o = (h', .ok r)) :
    Pool.Step (serve exactName) (monitor t n) true (pair h (.call call k) second p p')
      (pair h' (k r) second (progress n p call h h' (.ok r)) p') := by
  have hafter : pair h' (k r) second (progress n p call h h' (.ok r)) p' =
      ⟨h', Function.update (pair h (.call call k) second p p').prog true (k r),
        Function.update (pair h (.call call k) second p p').phase true (progress n p call h h'
            (.ok r))⟩ := by
    rw [pair, Pool.mk.injEq]
    refine ⟨rfl, ?_, ?_⟩ <;> funext i <;> cases i <;> rfl
  rw [hafter]
  exact .answer rfl hserve

theorem pair_second (hserve : serve exactName h call o = (h', .ok r)) :
    Pool.Step (serve exactName) (monitor t n) false (pair h first (.call call k) p p')
      (pair h' first (k r) p (progress n p' call h h' (.ok r))) := by
  have hafter : pair h' first (k r) p (progress n p' call h h' (.ok r)) =
      ⟨h', Function.update (pair h first (.call call k) p p').prog false (k r),
        Function.update (pair h first (.call call k) p p').phase false (progress n p' call h h'
            (.ok r))⟩ := by
    rw [pair, Pool.mk.injEq]
    refine ⟨rfl, ?_, ?_⟩ <;> funext i <;> cases i <;> rfl
  rw [hafter]
  exact .answer rfl hserve

/-- Every command is done. -/
def allDone : Outcomes := outcomesOf fun _ => .done

theorem allDone_clean : allDone.Clean := nofun

theorem allDone_kept (site : Site) : ¬ allDone.Lost site := nofun

abbrev WebRun (q : Pool Bool Host Call Completed UpdateError Progress (List String)) : Prop :=
  Pool.Run (serve exactName) (monitor webTarget webName) (allUpdates webTarget webName webHost) q

/-- Up to the rename nothing is changed. -/
theorem web_pulled
    (place : Update → Pool Bool Host Call Completed UpdateError Progress (List String))
    (hstep : ∀ call k o r, call.site.stage = .before → call.site ≠ .rename →
      serve exactName webHost call o = (webHost, .ok r) → WebRun (place (.call call k)) →
        WebRun (place (k r)))
    (hrun : WebRun (place (updateStandaloneContainer webTarget webName.val))) :
    ∃ lines, WebRun (place
      (renameAside webTarget webName.val (webContainer.document webName) lines)) := by
  have hget : webHost.get? webName = some webContainer := by decide
  have hinspect : serve exactName webHost ⟨.inspect,
    webTarget.wrap (inspectText webName.val)⟩ (allDone .inspect) =
      (webHost, .ok ⟨some 0, .documents [webContainer.document webName]⟩) := by
    rw [serve_read (by decide) (read_inspectText webTarget webName.val)]
    simp only [effect, exactName_of_some hget, hget, Option.bind_eq_bind, Option.bind_some]
    exact answer_done rfl
  have hpull : serve exactName webHost ⟨.pull, webTarget.wrap (pullText "nginx")⟩ (allDone .pull) =
      (webHost, .ok ⟨some 0, .text ""⟩) := by
    rw [serve_read (by decide) (read_pullText webTarget "nginx")]
    exact answer_done rfl
  have hconnected :=
    hstep ⟨.connect, ""⟩ _ (allDone .connect) ⟨some 0, .text ""⟩ rfl (by decide) rfl hrun
  have hinspected := hstep _ _ _ _ rfl (by decide) hinspect hconnected
  exact ⟨_, hstep _ _ _ _ rfl (by decide) hpull hinspected⟩

theorem progress_before {p : Progress} (hstage : call.site.stage = .before)
    (hsite : call.site ≠ .rename) :
    progress webName p call h h' (.ok r) = p := by
  obtain ⟨site, text⟩ := call
  cases site <;> first | rfl | exact absurd rfl hsite | cases hstage

/-- One update has renamed the container aside. The other one, whose rename is refused
then, has ended. -/
theorem web_renamed : ∃ h lines e, Slots webName webName.backup webHost none (some webContainer) h ∧
    WebRun (pair h (recreate webTarget webName.val (webContainer.document webName) lines) (.raise e)
      { Progress.start with stage := .aside, aside := some webContainer.id } .start) := by
  have hget : webHost.get? webName = some webContainer := by decide
  have hslots : Slots webName webName.backup webHost (some webContainer) none webHost :=
    ⟨hget, by decide, fun _ _ _ => rfl⟩
  have hstart : WebRun (pair webHost (updateStandaloneContainer webTarget webName.val)
      (updateStandaloneContainer webTarget webName.val) .start .start) := by
    have hall : pair webHost (updateStandaloneContainer webTarget webName.val)
        (updateStandaloneContainer webTarget webName.val) .start .start =
            allUpdates webTarget webName webHost := by
      rw [pair, allUpdates, Pool.mk.injEq]
      refine ⟨rfl, ?_, ?_⟩ <;> funext i <;> cases i <;> rfl
    rw [hall]
    exact .refl
  obtain ⟨lines, hfirst⟩ := web_pulled (fun u => pair webHost u _ .start .start)
    (fun call k o r hstage hsite hserve hrun => by
      have hnext := hrun.tail (pair_first hserve)
      rwa [progress_before hstage hsite] at hnext) hstart
  obtain ⟨lines', hboth⟩ := web_pulled (fun u => pair webHost _ u .start .start)
    (fun call k o r hstage hsite hserve hrun => by
      have hnext := hrun.tail (pair_second hserve)
      rwa [progress_before hstage hsite] at hnext) hfirst
  obtain ⟨h, heffect, hs⟩ := hslots.effect_rename (allDone .rename).chance
  have hrename : serve exactName webHost ⟨.rename, webTarget.wrap (renameText webName.val
      (backupName webName.val) ++ " 2>&1")⟩ (allDone .rename) = (h, .ok ⟨some 0, .text ""⟩) := by
    refine (serve_read (by decide)
      (read_renameText_redirect webTarget webName.val webName.backup.val)).trans ?_
    rw [heffect]
    exact answer_done rfl
  have hrefused : serve exactName h ⟨.rename, webTarget.wrap (renameText webName.val
      (backupName webName.val) ++ " 2>&1")⟩ (allDone .rename) = (h, .ok ⟨some 1, .text ""⟩) := by
    refine (serve_read (by decide)
      (read_renameText_redirect webTarget webName.val webName.backup.val)).trans ?_
    rw [hs.effect_rename_taken]
    exact answer_refused rfl
  exact ⟨h, _, _, hs, (hboth.tail (pair_first hrename)).tail (pair_second hrefused)⟩

/-- Then the first update has verified its replacement, and removes the backup next. -/
theorem web_verified :
    ∃ h lines e p, Slots webName webName.backup webHost (some (successor allDone webContainer))
      (some { webContainer with running := false }) h ∧ p.Inside ∧
    WebRun (pair h (dropBackup webTarget webName.val lines) (.raise e) p .start) := by
  obtain ⟨h, lines, e, hs, hrenamed⟩ := web_renamed
  obtain ⟨h₁, r₁, hstop, hs₁⟩ := serve_stop webTarget allDone_clean (allDone_kept .stop) hs
  have hfresh : h₁.usesId (allDone .run).chance.newId = false :=
    hs₁.usesId_aside (c := webContainer) (by decide) rfl (outcomesOf_fresh _)
  have hdone : allDone.Done .run := rfl
  obtain ⟨h₂, out, hrun, hs₂⟩ := serve_run_done webTarget webContainer hdone hfresh hs₁
  obtain ⟨r₃, hverify, hsettled⟩ := serve_verify webTarget allDone_clean (allDone_kept .verify) hs₂
  have htrue : settled r₃ = true := hsettled.mpr ⟨rfl, rfl, rfl⟩
  have hcreated := (hrenamed.tail (pair_first hstop)).tail (pair_first hrun)
  have hverified : WebRun (pair h₂ (conclude webTarget webName.val (settled r₃) _ _) _ _ _) :=
    hcreated.tail (pair_first hverify)
  rw [htrue] at hverified
  refine ⟨h₂, _, e, _, hs₂, .inr ?_, hverified⟩
  simp only [progress, htrue, if_true]

/-- Of two updates of `web` the first one removes the container that it has renamed aside
and the second one had to leave alone. -/
theorem updates_keep_unreplaced_web :
    ∃ q q' : Pool Bool Host Call Completed UpdateError Progress (List String),
      Pool.Step (serve exactName) (monitor webTarget webName) true q q' ∧
      q.server.HasId webContainer.id ∧ ¬ q'.server.HasId webContainer.id ∧
      (q.phase true).MayRemove webContainer.id ∧ (∃ e, q.prog false = .raise e) ∧
      (q.phase true).Inside ∧ ∀ i, (q.phase i).Inside → i = true := by
  obtain ⟨h, lines, e, p, hs, hinside, hrun⟩ := web_verified
  have hremove : serve exactName h ⟨.rmBackup,
    webTarget.wrap (rmText webName.backup.val)⟩ (allDone .rmBackup) =
      (h.remove webName.backup, .ok ⟨some 0, .text ""⟩) := by
    refine (serve_read (by decide) (read_rmText webTarget webName.backup.val)).trans ?_
    simp only [effect, exactName_of_some hs.atBackup, hs.atBackup,
      Option.bind_eq_bind, Option.bind_some,
      Bool.false_eq_true, if_false]
    exact answer_done rfl
  have hs' := hs.swap.remove webName.backup_ne.symm
  have hgone : ¬ (h.remove webName.backup).HasId webContainer.id := by
    rintro ⟨m, c, hc, hid⟩
    by_cases hbackup : m = webName.backup
    · rw [hbackup, hs'.atName] at hc
      cases hc
    by_cases hname : m = webName
    · rw [hname, hs'.atBackup] at hc
      obtain rfl := Option.some.inj hc
      exact absurd hid (by decide)
    · rw [hs'.others m hbackup hname] at hc
      have hnone : webHost.get? m = none := by
        rw [Host.get?, webHost, Dict.get?_set, if_neg hname]
        rfl
      rw [hnone] at hc
      cases hc
  have hhas : h.HasId webContainer.id := ⟨webName.backup, _, hs.atBackup, rfl⟩
  have hstep : Pool.Step (serve exactName) (monitor webTarget webName) true
      (pair h (dropBackup webTarget webName.val lines) (.raise e) p .start) _ := pair_first hremove
  obtain ⟨hmay, hone⟩ := updates_keep_unreplaced hrun
  exact ⟨_, _, hstep, hhas, hgone, hmay true _ hstep _ hhas hgone, ⟨e, rfl⟩, hinside,
    fun i hi => hone i true hi hinside⟩

end Web

end Together

end Keepup.Docker
