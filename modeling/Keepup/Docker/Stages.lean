import Keepup.Docker.Slots

/-!
The stages of one update, last stage first, on a host that resolves arguments
by exact name: what each does to the two slots under the outcomes of its calls.
-/

namespace Keepup.Docker

open Lib Remote

def Host.lookup (h : Host) (name : String) : Option Container := (Name.ofString? name).bind h.get?

@[simp] theorem Host.lookup_val (h : Host) (n : Name) : h.lookup n.val = h.get? n := by
  simp [lookup]

theorem Host.lookup_backup (h : Host) (n : Name) :
    h.lookup (backupName n.val) = h.get? n.backup :=
  h.lookup_val n.backup

/-- A name that is found is a container name. -/
theorem Host.lookup_some {h : Host} {name : String} {c : Container} (hc : h.lookup name = some c) :
    ∃ n : Name, n.val = name ∧ h.get? n = some c := by
  obtain ⟨n, hname, hget⟩ := Option.bind_eq_some_iff.mp hc
  exact ⟨n, Name.val_of_ofString? hname, hget⟩

/-- The outcome of each call, by its place in the code. -/
abbrev Outcomes := Site → Outcome

namespace Outcomes

/-- A command that exits with a non-zero status has no effect. -/
def Clean (o : Outcomes) : Prop := ∀ site code hcode, (o site).fate ≠ .exit code hcode true

def Done (o : Outcomes) (site : Site) : Prop := (o site).fate = .done

def Lost (o : Outcomes) (site : Site) : Prop := ∃ takes, (o site).fate = .lost takes

/-- The commands of the rollback succeed. -/
def RollbackWorks (o : Outcomes) : Prop := o.Done .rmForce ∧ o.Done .renameBack ∧ o.Done .start

/-- The id drawn for the new container is not in use. -/
def Fresh (o : Outcomes) (h : Host) : Prop := h.usesId (o .run).chance.newId = false

/-- The replacement starts, and the verification reports it running with no
restarts. -/
def Healthy (o : Outcomes) : Prop :=
  o.Done .run ∧ o.Done .verify ∧ (o .run).chance.comesUp = true ∧ (o .verify).chance.restarts = 0

/-- The connection is lost at a call between the rename and the end. -/
def Interrupted (o : Outcomes) : Prop :=
  o.Lost .stop ∨ o.Lost .run ∨ (o.Done .run ∧ o.Lost .verify) ∨ (o.Healthy ∧ o.Lost .rmBackup)

/-- A call is answered when its connection holds. -/
theorem answered {o : Outcomes} (hclean : o.Clean) {site : Site} (hlost : ¬ o.Lost site) :
    o.Done site ∨ ∃ code hcode, (o site).fate = .exit code hcode false := by
  cases hfate : (o site).fate with
  | done => exact .inl hfate
  | exit code hcode takes =>
      cases takes with
      | false => exact .inr ⟨code, hcode, rfl⟩
      | true => exact absurd hfate (hclean site code hcode)
  | lost takes => exact absurd ⟨takes, hfate⟩ hlost

end Outcomes

section Answer

variable {h h' : Host} {out : Stdout} {taken : Option (Host × Stdout)} {outcome : Outcome}

theorem answer_done (hdone : outcome.fate = .done) :
    answer h (some (h', out)) outcome = (h', .ok ⟨some 0, out⟩) := by
  simp [answer, hdone]

theorem answer_refused (hdone : outcome.fate = .done) :
    answer h none outcome = (h, .ok ⟨some 1, .text outcome.chance.output⟩) := by
  simp [answer, hdone]

theorem answer_exit {code : Option Int} {hcode : code ≠ some 0}
    (hexit : outcome.fate = .exit code hcode false) :
    answer h taken outcome = (h, .ok ⟨code, .text outcome.chance.output⟩) := by
  simp [answer, hexit]

theorem answer_lost {takes : Bool} (hlost : outcome.fate = .lost takes) :
    answer h taken outcome = (if takes then taken.elim h Prod.fst else h, .error .connection) := by
  simp [answer, hlost]

/-- Exit status zero means that the command was taken. -/
theorem answer_zero (hzero : answer h taken outcome = (h', .ok ⟨some 0, out⟩)) :
    outcome.fate = .done ∧ taken = some (h', out) := by
  unfold answer at hzero
  split at hzero
  · next hfate =>
      cases taken with
      | none => simp at hzero
      | some taken =>
          simp only [Option.elim_some, Prod.mk.injEq, Except.ok.injEq, Completed.mk.injEq,
            true_and] at hzero
          exact ⟨hfate, by rw [← hzero.1, ← hzero.2]⟩
  · next hcode _ _ =>
      simp only [Prod.mk.injEq, Except.ok.injEq, Completed.mk.injEq] at hzero
      exact absurd hzero.2.1 hcode
  · simp at hzero

/-- However a command ends, the host is as before it or as its effect leaves it. -/
theorem answer_keeps {P : Host → Prop} (hbefore : P h)
    (hafter : ∀ h₁ out₁, taken = some (h₁, out₁) → P h₁) : P (answer h taken outcome).1 := by
  have helim : P (taken.elim h Prod.fst) := by
    cases taken with
    | none => exact hbefore
    | some taken => exact hafter taken.1 taken.2 rfl
  unfold answer
  split
  · exact helim
  · split
    · exact helim
    · exact hbefore
  · split
    · exact helim
    · exact hbefore

end Answer

/-- The state and the result of one update. -/
def runUpdate (t : Target) (name : String) (h : Host) (o : Outcomes) :
    Host × Except UpdateError (List String) :=
  exec (serve exactName) (fun _ call => o call.site) 0 (updateStandaloneContainer t name) h

section Stages

variable (t : Target) {n b : Name} {h₀ h : Host} {o : Outcomes} {c : Container}
  {x y : Option Container}

/-- Clearing the name slot, whether or not it holds a container. -/
theorem serve_rmForce (hdone : o.Done .rmForce) (hnb : b ≠ n) (hs : Slots n b h₀ x y h) :
    ∃ h' r, serve exactName h ⟨.rmForce, t.wrap (rmForceText n.val)⟩ (o .rmForce) = (h', .ok r) ∧
      Slots n b h₀ none y h' := by
  rw [serve_read (by decide) (read_rmForceText t n.val)]
  cases x with
  | none =>
      simp only [effect, exactName_of_none hs.atName, Option.bind_eq_bind, Option.bind_none,
        answer_refused hdone]
      exact ⟨h, _, rfl, hs⟩
  | some d =>
      simp only [effect, exactName_of_some hs.atName, Option.bind_eq_bind, Option.bind_some,
        answer_done hdone]
      exact ⟨_, _, rfl, hs.remove hnb⟩

theorem serve_renameBack (hdone : o.Done .renameBack) (hs : Slots n n.backup h₀ none (some c) h) :
    ∃ h' r, serve exactName h
        ⟨.renameBack, t.wrap (renameText (backupName n.val) n.val)⟩ (o .renameBack) = (h', .ok r) ∧
      Slots n n.backup h₀ (some c) none h' := by
  obtain ⟨h', heffect, hs'⟩ := hs.swap.effect_rename (o .renameBack).chance
  rw [serve_read (by decide) (read_renameText t (backupName n.val) n.val)]
  change ∃ h' r, answer h (effect exactName h _ (.rename n.backup.val n.val)) _ = _ ∧ _
  rw [heffect, answer_done hdone]
  exact ⟨h', _, rfl, hs'.swap⟩

theorem serve_start (hdone : o.Done .start) (hnb : b ≠ n) (hs : Slots n b h₀ (some c) y h) :
    ∃ h' r, serve exactName h ⟨.start, t.wrap (startText n.val)⟩ (o .start) = (h', .ok r) ∧
      Slots n b h₀ (some { c with running := true }) y h' := by
  rw [serve_read (by decide) (read_startText t n.val)]
  simp only [effect, exactName_of_some hs.atName, Option.bind_eq_bind, Option.bind_some,
    answer_done hdone]
  exact ⟨_, _, rfl, hs.set_running hnb true⟩

variable {k : Nat} {run : Completed} {lines : List String}

/-- The rollback puts the container back and starts it. -/
theorem exec_rollBack (hworks : o.RollbackWorks) (hs : Slots n n.backup h₀ x (some c) h) :
    ∃ h', exec (serve exactName) (fun _ call => o call.site) k (rollBack t n.val run lines) h =
        (h', .error (rolledBack run lines)) ∧
      Slots n n.backup h₀ (some { c with running := true }) none h' := by
  obtain ⟨hrm, hrename, hstart⟩ := hworks
  obtain ⟨h₁, r₁, hserve₁, hs₁⟩ := serve_rmForce t hrm n.backup_ne hs
  obtain ⟨h₂, r₂, hserve₂, hs₂⟩ := serve_renameBack t hrename hs₁
  obtain ⟨h₃, r₃, hserve₃, hs₃⟩ := serve_start t hstart n.backup_ne hs₂
  refine ⟨h₃, ?_, hs₃⟩
  simp only [rollBack, restoreBackup, send, perform_bind]
  rw [exec_call_ok hserve₁, exec_call_ok hserve₂, exec_call_ok hserve₃]
  rfl

/-- Whatever its commands do, the rollback ends in an error. -/
theorem exec_rollBack_error (resolve : Resolver) (env : Nat → Call → Outcome) :
    ∃ h' e, exec (serve resolve) env k (rollBack t n.val run lines) h = (h', .error e) := by
  have hraise : Holds (serve resolve) (rollBack t n.val run lines) h
      fun _ result => ∃ e, result = .error e := by
    simp only [rollBack, restoreBackup, send, perform_bind]
    refine holds_call (fun _ _ e _ => ⟨e, rfl⟩) fun _ _ _ _ => ?_
    refine holds_call (fun _ _ e _ => ⟨e, rfl⟩) fun _ _ _ _ => ?_
    refine holds_call (fun _ _ e _ => ⟨e, rfl⟩) fun _ _ _ _ => ?_
    exact holds_raise ⟨_, rfl⟩
  obtain ⟨e, he⟩ := hraise env k
  exact ⟨_, e, Prod.ext rfl he⟩

/-- A backup that runs stays, and so does one whose removal exits non-zero. -/
def leftBehind (o : Outcomes) (c : Container) : Option Container :=
  if (o .rmBackup).fate = .done ∧ c.running = false then none else some c

theorem exec_dropBackup (hclean : o.Clean) (hkept : ¬ o.Lost .rmBackup)
    (hs : Slots n n.backup h₀ x (some c) h) :
    ∃ h', exec (serve exactName) (fun _ call => o call.site) k (dropBackup t n.val lines) h =
        (h', .ok (droppedBackup n.val lines)) ∧
      Slots n n.backup h₀ x (leftBehind o c) h' := by
  have hserve : serve exactName h ⟨.rmBackup, t.wrap (rmText n.backup.val)⟩ (o .rmBackup) = _ :=
    serve_read (by decide) (read_rmText t n.backup.val)
  have hrun : ∀ h' r, serve exactName h ⟨.rmBackup, t.wrap (rmText n.backup.val)⟩ (o .rmBackup) =
      (h', .ok r) → exec (serve exactName) (fun _ call =>
        o call.site) k (dropBackup t n.val lines) h =
        (h', .ok (droppedBackup n.val lines)) := by
    intro h' r hr
    simp only [dropBackup, send, perform_bind]
    exact exec_call_ok hr
  rcases Outcomes.answered hclean hkept with hdone | ⟨code, hcode, hexit⟩
  · cases hrunning : c.running with
    | false =>
        have heffect : effect exactName h (o .rmBackup).chance (.rm n.backup.val) =
            some (h.remove n.backup, .text (o .rmBackup).chance.output) := by
          have hget := hs.atBackup
          simp [effect, exactName_of_some hget, hget, hrunning]
        rw [heffect, answer_done hdone] at hserve
        refine ⟨_, hrun _ _ hserve, ?_⟩
        have hleft : leftBehind o c = none := by
          have hfate : (o .rmBackup).fate = .done := hdone
          simp [leftBehind, hfate, hrunning]
        rw [hleft]
        exact (hs.swap.remove n.backup_ne.symm).swap
    | true =>
        have heffect : effect exactName h (o .rmBackup).chance (.rm n.backup.val) = none := by
          have hget := hs.atBackup
          simp [effect, exactName_of_some hget, hget, hrunning]
        rw [heffect, answer_refused hdone] at hserve
        refine ⟨_, hrun _ _ hserve, ?_⟩
        have hleft : leftBehind o c = some c := by simp [leftBehind, hrunning]
        rwa [hleft]
  · rw [answer_exit hexit] at hserve
    refine ⟨_, hrun _ _ hserve, ?_⟩
    have hleft : leftBehind o c = some c := by simp [leftBehind, hexit]
    rwa [hleft]

/-- A lost connection leaves the host before or after the command. -/
theorem serve_lost {site : Site} {text : String} {cmd : Cmd} (hsite : site ≠ .connect)
    (hread : readCommand text = some cmd) (hlost : o.Lost site) :
    ∃ h', serve exactName h ⟨site, text⟩ (o site) = (h', .error .connection) ∧
      (h' = h ∨ ∃ out, effect exactName h (o site).chance cmd = some (h', out)) := by
  obtain ⟨takes, hlost⟩ := hlost
  rw [serve_read hsite hread, answer_lost hlost]
  refine ⟨_, rfl, ?_⟩
  cases takes with
  | false => exact .inl rfl
  | true =>
      cases heffect : effect exactName h (o site).chance cmd with
      | none => exact .inl rfl
      | some taken => exact .inr ⟨taken.2, rfl⟩

theorem exec_dropBackup_lost (hlost : o.Lost .rmBackup) (hs : Slots n n.backup h₀ x (some c) h) :
    ∃ h', exec (serve exactName) (fun _ call => o call.site) k (dropBackup t n.val lines) h =
        (h', .error .connection) ∧ h'.get? n = x := by
  obtain ⟨h', hserve, hcases⟩ := serve_lost (by decide) (read_rmText t n.backup.val) hlost
  refine ⟨h', ?_, ?_⟩
  · simp only [dropBackup, send, perform_bind]
    exact exec_call_error hserve
  · rcases hcases with rfl | ⟨out, heffect⟩
    · exact hs.atName
    · have hget := hs.atBackup
      simp only [effect, exactName_of_some hget, hget, Option.bind_eq_bind, Option.bind_some]
        at heffect
      split at heffect
      · cases heffect
      · obtain ⟨rfl, -⟩ := Prod.mk.inj (Option.some.inj heffect)
        exact (hs.swap.remove n.backup_ne.symm).atBackup

/-- The original container after the attempt to stop it. -/
def afterStop (o : Outcomes) (c : Container) : Container :=
  if (o .stop).fate = .done then { c with running := false } else c

theorem serve_stop (hclean : o.Clean) (hkept : ¬ o.Lost .stop)
    (hs : Slots n n.backup h₀ none (some c) h) :
    ∃ h' r, serve exactName h ⟨.stop, t.wrap (stopText (backupName n.val))⟩ (o .stop) =
      (h', .ok r) ∧
      Slots n n.backup h₀ none (some (afterStop o c)) h' := by
  have hget := hs.atBackup
  have hserve : serve exactName h ⟨.stop, t.wrap (stopText n.backup.val)⟩ (o .stop) = _ :=
    serve_read (by decide) (read_stopText t n.backup.val)
  simp only [effect, exactName_of_some hget, Option.bind_eq_bind, Option.bind_some] at hserve
  rcases Outcomes.answered hclean hkept with hdone | ⟨code, hcode, hexit⟩
  · rw [answer_done hdone] at hserve
    refine ⟨_, _, hserve, ?_⟩
    have hafter : afterStop o c = { c with running := false } := if_pos hdone
    rw [hafter]
    exact (hs.swap.set_running n.backup_ne.symm false).swap
  · rw [answer_exit hexit] at hserve
    refine ⟨_, _, hserve, ?_⟩
    have hafter : afterStop o c = c := by simp [afterStop, hexit]
    rwa [hafter]

theorem serve_run_done (d : Container) (hdone : o.Done .run)
    (hfresh : h.usesId (o .run).chance.newId = false) (hs : Slots n n.backup h₀ none y h) :
    ∃ h' out, serve exactName h ⟨.run, t.wrap (runText (d.document n))⟩ (o .run) =
        (h', .ok ⟨some 0, out⟩) ∧
      Slots n n.backup h₀ (some (replacement d (o .run).chance)) y h' := by
  obtain ⟨h', heffect, hs'⟩ :=
    hs.effect_run n.backup_ne (newContainer_recreation d n (o .run).chance) hfresh
  rw [serve_read (by decide) (read_runText t d n), heffect, answer_done hdone]
  exact ⟨h', _, rfl, hs'⟩

/-- The verification of the container in the name slot. -/
theorem serve_verify {d : Container} (hclean : o.Clean) (hkept : ¬ o.Lost .verify)
    (hs : Slots n b h₀ (some d) y h) :
    ∃ r, serve exactName h ⟨.verify, t.wrap (verifyText n.val)⟩ (o .verify) = (h, .ok r) ∧
      (settled r = true ↔
        o.Done .verify ∧ d.running = true ∧ (o .verify).chance.restarts = 0) := by
  have hget := hs.atName
  have hserve : serve exactName h ⟨.verify, t.wrap (verifyText n.val)⟩ (o .verify) = _ :=
    serve_read (by decide) (read_verifyText t n.val)
  simp only [effect, exactName_of_some hget, hget, Option.bind_eq_bind, Option.bind_some] at hserve
  rcases Outcomes.answered hclean hkept with hdone | ⟨code, hcode, hexit⟩
  · rw [answer_done hdone] at hserve
    refine ⟨_, hserve, ?_⟩
    simp [settled_stateText, hdone]
  · rw [answer_exit hexit] at hserve
    refine ⟨_, hserve, ?_⟩
    simp [settled, Outcomes.Done, hexit, hcode]

/-- The container that the update creates in place of `c`. -/
abbrev successor (o : Outcomes) (c : Container) : Container := replacement c (o .run).chance

/-- A run that is answered but does not end healthy goes to the rollback. -/
theorem exec_runReplacement_unhealthy (hclean : o.Clean) (hrun : ¬ o.Lost .run)
    (hverify : ¬ (o.Done .run ∧ o.Lost .verify)) (hill : ¬ o.Healthy)
    (hfresh : h.usesId (o .run).chance.newId = false) (hs : Slots n n.backup h₀ none y h) :
    ∃ k' run lines' h' x, exec (serve exactName) (fun _ call => o call.site) k
        (runReplacement t n.val (c.document n) lines) h =
      exec (serve exactName) (fun _ call => o call.site) k' (rollBack t n.val run lines') h' ∧
      Slots n n.backup h₀ x y h' := by
  rcases Outcomes.answered hclean hrun with hdone | ⟨code, hcode, hexit⟩
  · have hkept : ¬ o.Lost .verify := fun hlost => hverify ⟨hdone, hlost⟩
    obtain ⟨h₁, out, hserve, hs₁⟩ := serve_run_done t c hdone hfresh hs
    obtain ⟨r, hverified, hsettled⟩ := serve_verify t hclean hkept hs₁
    have hfalse : settled r = false := by
      rw [Bool.eq_false_iff]
      intro htrue
      obtain ⟨hv, hup, hrestarts⟩ := hsettled.mp htrue
      exact hill ⟨hdone, hv, hup, hrestarts⟩
    refine ⟨?count, ?run, ?log, h₁, _, ?steps, hs₁⟩
    case steps =>
      simp only [runReplacement, send, perform_bind]
      rw [exec_call_ok hserve]
      simp only [if_true]
      rw [exec_call_ok hverified, hfalse]
      rfl
  · have hserve : serve exactName h ⟨.run, t.wrap (runText (c.document n))⟩ (o .run) = _ :=
      serve_read (by decide) (read_runText t c n)
    rw [answer_exit hexit] at hserve
    refine ⟨?count', ?run', ?log', h, none, ?steps', hs⟩
    case steps' =>
      simp only [runReplacement, send, perform_bind]
      rw [exec_call_ok hserve]
      simp only [hcode, if_false]
      rfl

/-- A healthy replacement leads to the removal of the backup. -/
theorem exec_runReplacement_healthy (hclean : o.Clean) (hhealthy : o.Healthy)
    (hfresh : h.usesId (o .run).chance.newId = false) (hs : Slots n n.backup h₀ none y h) :
    ∃ k' lines' h', exec (serve exactName) (fun _ call => o call.site) k
        (runReplacement t n.val (c.document n) lines) h =
      exec (serve exactName) (fun _ call => o call.site) k' (dropBackup t n.val lines') h' ∧
      Slots n n.backup h₀ (some (successor o c)) y h' := by
  obtain ⟨hrun, hverify, hup, hrestarts⟩ := hhealthy
  have hkept : ¬ o.Lost .verify := by
    rintro ⟨takes, hlost⟩
    rw [Outcomes.Done, hlost] at hverify
    cases hverify
  obtain ⟨h₁, out, hserve, hs₁⟩ := serve_run_done t c hrun hfresh hs
  obtain ⟨r, hverified, hsettled⟩ := serve_verify t hclean hkept hs₁
  have htrue : settled r = true := hsettled.mpr ⟨hverify, hup, hrestarts⟩
  refine ⟨?count, ?log, h₁, ?steps, hs₁⟩
  case steps =>
    simp only [runReplacement, send, perform_bind]
    rw [exec_call_ok hserve]
    simp only [if_true]
    rw [exec_call_ok hverified, htrue]
    rfl

/-- A connection lost during the run or the verification leaves the name slot
empty or with the new container. -/
theorem exec_runReplacement_lost (hlost : o.Lost .run ∨ (o.Done .run ∧ o.Lost .verify))
    (hfresh : h.usesId (o .run).chance.newId = false) (hs : Slots n n.backup h₀ none y h) :
    ∃ h', exec (serve exactName) (fun _ call => o call.site) k
        (runReplacement t n.val (c.document n) lines) h = (h', .error .connection) ∧
      (h'.get? n = none ∨ h'.get? n = some (successor o c)) := by
  rcases hlost with hrun | ⟨hdone, hverify⟩
  · obtain ⟨h', hserve, hcases⟩ := serve_lost (by decide) (read_runText t c n) hrun
    refine ⟨h', ?_, ?_⟩
    · simp only [runReplacement, send, perform_bind]
      exact exec_call_error hserve
    · rcases hcases with rfl | ⟨out, heffect⟩
      · exact .inl hs.atName
      · obtain ⟨h₁, heffect₁, hs₁⟩ :=
          hs.effect_run n.backup_ne (newContainer_recreation c n (o .run).chance) hfresh
        rw [heffect₁] at heffect
        obtain ⟨rfl, -⟩ := Prod.mk.inj (Option.some.inj heffect)
        exact .inr hs₁.atName
  · obtain ⟨h₁, out, hserve, hs₁⟩ := serve_run_done t c hdone hfresh hs
    obtain ⟨h', hverified, hcases⟩ := serve_lost (by decide) (read_verifyText t n.val) hverify
    refine ⟨h', ?_, .inr ?_⟩
    · simp only [runReplacement, send, perform_bind]
      rw [exec_call_ok hserve]
      exact exec_call_error hverified
    · rcases hcases with rfl | ⟨out, heffect⟩
      · exact hs₁.atName
      · have hget := hs₁.atName
        simp only [effect, exactName_of_some hget, hget, Option.bind_eq_bind,
          Option.bind_some] at heffect
        obtain ⟨rfl, -⟩ := Prod.mk.inj (Option.some.inj heffect)
        exact hget

/-- Past an answered stop, the new container is run. -/
theorem exec_recreate (hclean : o.Clean) (hkept : ¬ o.Lost .stop)
    (hs : Slots n n.backup h₀ none (some c) h) {doc : Inspect} :
    ∃ h' lines', exec (serve exactName) (fun _ call => o call.site) k
        (recreate t n.val doc lines) h =
      exec (serve exactName) (fun _ call => o call.site) (k + 1)
        (runReplacement t n.val doc lines') h' ∧
      Slots n n.backup h₀ none (some (afterStop o c)) h' := by
  obtain ⟨h', r, hserve, hs'⟩ := serve_stop t hclean hkept hs
  refine ⟨h', ?log, ?steps, hs'⟩
  case steps =>
    simp only [recreate, send, perform_bind]
    rw [exec_call_ok hserve]

theorem exec_recreate_lost (hlost : o.Lost .stop) (hs : Slots n n.backup h₀ none (some c) h)
    {doc : Inspect} :
    ∃ h', exec (serve exactName) (fun _ call => o call.site) k (recreate t n.val doc lines) h =
        (h', .error .connection) ∧ h'.get? n = none := by
  obtain ⟨h', hserve, hcases⟩ := serve_lost (by decide) (read_stopText t n.backup.val) hlost
  refine ⟨h', ?_, ?_⟩
  · simp only [recreate, send, perform_bind]
    exact exec_call_error hserve
  · rcases hcases with rfl | ⟨out, heffect⟩
    · exact hs.atName
    · have hget := hs.atBackup
      simp only [effect, exactName_of_some hget, Option.bind_eq_bind, Option.bind_some] at heffect
      obtain ⟨rfl, -⟩ := Prod.mk.inj (Option.some.inj heffect)
      exact (hs.swap.set_running n.backup_ne.symm false).atBackup

/-- The calls before the rename end well, on a container that is not the own one. -/
structure Pulled (t : Target) (name : String) (h : Host) (o : Outcomes) (c : Container) : Prop where
  original : h.lookup name = some c
  other : t.isSelf c.id.val = false
  connect : o.Done .connect
  inspect : o.Done .inspect
  pull : o.Done .pull

theorem runUpdate_pulled (hp : Pulled t n.val h o c) :
    ∃ lines, runUpdate t n.val h o = exec (serve exactName) (fun _ call => o call.site) 3
      (renameAside t n.val (c.document n) lines) h := by
  have hget : h.get? n = some c := by simpa using hp.original
  have hconnect : serve exactName h ⟨.connect, ""⟩ (o .connect) = (h, .ok ⟨some 0, .text ""⟩) := by
    have hfate : (o .connect).fate = .done := hp.connect
    simp [serve, hfate]
  have hinspect : serve exactName h ⟨.inspect, t.wrap (inspectText n.val)⟩ (o .inspect) = _ :=
    serve_read (by decide) (read_inspectText t n.val)
  simp only [effect, exactName_of_some hget, hget, Option.bind_eq_bind, Option.bind_some,
    answer_done hp.inspect] at hinspect
  have hpull : serve exactName h
      ⟨.pull, t.wrap (pullText (c.document n).config.image)⟩ (o .pull) = _ :=
    serve_read (by decide) (read_pullText t (c.document n).config.image)
  simp only [effect, answer_done hp.pull] at hpull
  refine ⟨?log, ?steps⟩
  case steps =>
    have hself : t.isSelf (c.document n).id = false := hp.other
    simp only [runUpdate, updateStandaloneContainer, send, perform_bind]
    rw [exec_call_ok hconnect, exec_call_ok hinspect]
    simp only [Stdout.isBlank, Stdout.firstDocument, List.head?_cons, hself, ne_eq,
      not_true_eq_false, Bool.false_eq_true, or_self, if_false, pullImage, send, perform_bind]
    rw [exec_call_ok hpull]
    rfl

/-- What `docker inspect` prints is the document of the named container. -/
theorem serve_inspect_zero {outcome : Outcome} {name : String} {h' : Host} {out : Stdout}
    (hserve : serve exactName h ⟨.inspect, t.wrap (inspectText name)⟩ outcome =
      (h', .ok ⟨some 0, out⟩)) :
    outcome.fate = .done ∧
      ∃ (n : Name) (c : Container), n.val = name ∧ h.get? n = some c ∧
        out = .documents [c.document n] := by
  rw [serve_read (by decide) (read_inspectText t name)] at hserve
  obtain ⟨hdone, htaken⟩ := answer_zero hserve
  refine ⟨hdone, ?_⟩
  simp only [effect, Option.bind_eq_bind, Option.bind_eq_some_iff, Option.some.injEq,
    Prod.mk.injEq] at htaken
  obtain ⟨n, hn, c, hc, -, hout⟩ := htaken
  exact ⟨n, c, (exactName_eq_some.mp hn).1, hc, hout.symm⟩

theorem serve_inspect_state (name : String) (outcome : Outcome) :
    (serve exactName h ⟨.inspect, t.wrap (inspectText name)⟩ outcome).1 = h := by
  rw [serve_read (by decide) (read_inspectText t name)]
  exact answer_keeps (P := (· = h)) rfl fun _ _ htaken => effect_some _ htaken

theorem serve_pull_state (image : String) (outcome : Outcome) :
    (serve exactName h ⟨.pull, t.wrap (pullText image)⟩ outcome).1 = h := by
  rw [serve_read (by decide) (read_pullText t image)]
  exact answer_keeps (P := (· = h)) rfl fun _ _ htaken => effect_some _ htaken

/-- A pull that is not answered with success ends the update. -/
theorem exec_pullImage_failed {name : String} {doc : Inspect} (hpull : ¬ o.Done .pull) :
    ∃ e, exec (serve exactName) (fun _ call => o call.site) k (pullImage t name doc lines) h =
      (h, .error e) := by
  have hstate : (serve exactName h _ _).1 = h := serve_pull_state t doc.config.image (o .pull)
  simp only [pullImage, send, perform_bind]
  rcases hserve : serve exactName h ⟨.pull, t.wrap (pullText doc.config.image)⟩ (o .pull) with
    ⟨h₁, result⟩
  obtain rfl : h₁ = h := by rw [← hstate, hserve]
  cases result with
  | error e => exact ⟨e, exec_call_error hserve⟩
  | ok pull =>
      have hcode : pull.returncode ≠ some 0 := by
        intro hzero
        obtain ⟨code, out⟩ := pull
        obtain rfl : code = some 0 := hzero
        rw [serve_read (by decide) (read_pullText t doc.config.image)] at hserve
        exact hpull (answer_zero hserve).1
      rw [exec_call_ok hserve]
      simp only [ne_eq, hcode, not_false_eq_true, if_true]
      exact ⟨_, rfl⟩

/-- Short of the rename, an update fails and leaves the host as it is. -/
theorem runUpdate_not_pulled {name : String} (hno : ∀ c, ¬ Pulled t name h o c) :
    ∃ e, runUpdate t name h o = (h, .error e) := by
  simp only [runUpdate, updateStandaloneContainer, send, perform_bind]
  by_cases hconnect : o.Done .connect
  · have hserve : serve exactName h ⟨.connect, ""⟩ (o .connect) = (h, .ok ⟨some 0, .text ""⟩) := by
      have hfate : (o .connect).fate = .done := hconnect
      simp [serve, hfate]
    rw [exec_call_ok hserve]
    have hstate : (serve exactName h _ _).1 = h := serve_inspect_state t name (o .inspect)
    rcases hinspect : serve exactName h ⟨.inspect, t.wrap (inspectText name)⟩ (o .inspect) with
      ⟨h₁, result⟩
    obtain rfl : h₁ = h := by rw [← hstate, hinspect]
    cases result with
    | error e => exact ⟨e, exec_call_error hinspect⟩
    | ok inspect =>
        rw [exec_call_ok hinspect]
        by_cases hcode : inspect.returncode = some 0
        · obtain ⟨code, out⟩ := inspect
          obtain rfl : code = some 0 := hcode
          obtain ⟨hdone, n, c, rfl, hget, rfl⟩ := serve_inspect_zero t hinspect
          simp only [Stdout.isBlank, Stdout.firstDocument, List.head?_cons, ne_eq,
            not_true_eq_false, Bool.false_eq_true, or_self, if_false]
          cases hself : t.isSelf (c.document n).id with
          | true => exact ⟨_, rfl⟩
          | false =>
              have hpull : ¬ o.Done .pull := fun hpull =>
                hno c ⟨by simpa using hget, hself, hconnect, hdone, hpull⟩
              exact exec_pullImage_failed t hpull
        · simp only [ne_eq, hcode, not_false_eq_true, true_or, if_true]
          exact ⟨_, rfl⟩
  · have hserve : serve exactName h ⟨.connect, ""⟩ (o .connect) = (h, .error .connection) := by
      simp only [serve, if_true]
      cases hfate : (o .connect).fate with
      | done => exact absurd hfate hconnect
      | exit code hcode takes => rfl
      | lost takes => rfl
    rw [exec_call_error hserve]
    exact ⟨_, rfl⟩

/-- A rename that takes effect goes on with the container aside. -/
theorem exec_renameAside (hdone : o.Done .rename) (hget : h.get? n = some c)
    (hfree : h.get? n.backup = none) {doc : Inspect} :
    ∃ h' lines', exec (serve exactName) (fun _ call => o call.site) k
        (renameAside t n.val doc lines) h =
      exec (serve exactName) (fun _ call => o call.site) (k + 1)
        (recreate t n.val doc lines') h' ∧
      Slots n n.backup h none (some c) h' := by
  have hs : Slots n n.backup h (some c) none h := ⟨hget, hfree, fun _ _ _ => rfl⟩
  obtain ⟨h', heffect, hs'⟩ := hs.effect_rename (o .rename).chance
  have hserve : serve exactName h
      ⟨.rename, t.wrap (renameText n.val (backupName n.val) ++ " 2>&1")⟩ (o .rename) = _ :=
    serve_read (by decide) (read_renameText_redirect t n.val n.backup.val)
  rw [heffect, answer_done hdone] at hserve
  refine ⟨h', ?log, ?steps, hs'⟩
  case steps =>
    simp only [renameAside, send, perform_bind]
    rw [exec_call_ok hserve]
    rfl

/-- A rename that is refused or not answered with success ends the update. It
has changed nothing, unless it took effect before the connection was lost. -/
theorem exec_renameAside_failed (hclean : o.Clean) (hget : h.get? n = some c)
    (hfail : ¬ (o.Done .rename ∧ h.get? n.backup = none)) {doc : Inspect} :
    ∃ h' e, exec (serve exactName) (fun _ call => o call.site) k
        (renameAside t n.val doc lines) h = (h', .error e) ∧
      (((o .rename).fate = .lost true ∧ h.get? n.backup = none ∧ h'.get? n = none) ∨
        (¬ ((o .rename).fate = .lost true ∧ h.get? n.backup = none) ∧ h' = h)) := by
  have hserve : serve exactName h
      ⟨.rename, t.wrap (renameText n.val (backupName n.val) ++ " 2>&1")⟩ (o .rename) = _ :=
    serve_read (by decide) (read_renameText_redirect t n.val n.backup.val)
  have hraise : ∀ r : Completed, r.returncode ≠ some 0 → ∀ h', serve exactName h
      ⟨.rename, t.wrap (renameText n.val (backupName n.val) ++ " 2>&1")⟩ (o .rename) = (h', .ok r) →
      ∃ e, exec (serve exactName) (fun _ call => o call.site) k (renameAside t n.val doc lines) h =
        (h', .error e) := by
    intro r hcode h' hr
    simp only [renameAside, send, perform_bind]
    rw [exec_call_ok hr]
    simp only [ne_eq, hcode, not_false_eq_true, if_true]
    exact ⟨_, rfl⟩
  have hlost : ∀ h', serve exactName h
      ⟨.rename, t.wrap (renameText n.val (backupName n.val) ++ " 2>&1")⟩ (o .rename) =
        (h', .error .connection) →
      exec (serve exactName) (fun _ call => o call.site) k (renameAside t n.val doc lines) h =
        (h', .error .connection) := by
    intro h' hr
    simp only [renameAside, send, perform_bind]
    exact exec_call_error hr
  cases hbackup : h.get? n.backup with
  | some d =>
      have hs : Slots n n.backup h (some c) (some d) h := ⟨hget, hbackup, fun _ _ _ => rfl⟩
      have hrefused := hs.effect_rename_taken (o .rename).chance
      cases hfate : (o .rename).fate with
      | done =>
          rw [hrefused, answer_refused hfate] at hserve
          obtain ⟨e, he⟩ := hraise _ (by simp) _ hserve
          exact ⟨h, e, he, .inr ⟨by simp, rfl⟩⟩
      | exit code hcode takes =>
          cases takes with
          | true => exact absurd hfate (hclean .rename code hcode)
          | false =>
              rw [answer_exit hfate] at hserve
              obtain ⟨e, he⟩ := hraise _ hcode _ hserve
              exact ⟨h, e, he, .inr ⟨by simp, rfl⟩⟩
      | lost takes =>
          rw [hrefused, answer_lost hfate] at hserve
          exact ⟨h, _, hlost h (by simpa using hserve), .inr ⟨by simp, rfl⟩⟩
  | none =>
      have hs : Slots n n.backup h (some c) none h := ⟨hget, hbackup, fun _ _ _ => rfl⟩
      obtain ⟨h', heffect, hs'⟩ := hs.effect_rename (o .rename).chance
      cases hfate : (o .rename).fate with
      | done => exact absurd ⟨hfate, hbackup⟩ hfail
      | exit code hcode takes =>
          cases takes with
          | true => exact absurd hfate (hclean .rename code hcode)
          | false =>
              rw [answer_exit hfate] at hserve
              obtain ⟨e, he⟩ := hraise _ hcode _ hserve
              exact ⟨h, e, he, .inr ⟨by simp, rfl⟩⟩
      | lost takes =>
          rw [heffect, answer_lost hfate] at hserve
          cases takes with
          | true => exact ⟨h', _, hlost h' hserve, .inl ⟨rfl, rfl, hs'.atName⟩⟩
          | false => exact ⟨h, _, hlost h hserve, .inr ⟨by simp, rfl⟩⟩

end Stages

end Keepup.Docker
