import Keepup.Docker.Compose
import Keepup.Portainer.Update

/-!
No update of the own container. Each backend looks up, before its update, whether
the own container is concerned, and the theorem says what the three checks are
good for: over Portainer and for a Compose project as long as the look-up gets
an answer, for a standalone container always.
-/

namespace Keepup.Docker

open Lib Remote

section Standalone

variable {resolve : Resolver} {t : Target} {containerName : String} {h : Host} {n : Name}
variable {c : Container} {outcomes : Nat → Call → Outcome}

/-- The inspection by which an update looks at its container. -/
def inspection (t : Target) (containerName : String) : Call :=
  ⟨.inspect, t.wrap (inspectText containerName)⟩

/-- An inspection that does not succeed has no status 0. -/
theorem inspect_failed {h' : Host} {result : Completed} {outcome : Outcome}
    (hfate : outcome.fate ≠ .done)
    (hserve : serve resolve h (inspection t containerName) outcome = (h', .ok result)) :
    result.returncode ≠ some 0 := by
  rw [inspection, serve_read (by simp) (read_inspectText t containerName)] at hserve
  cases hended : outcome.fate with
  | done => exact absurd hended hfate
  | exit code hcode takes =>
      simp only [answer, hended, Prod.mk.injEq, Except.ok.injEq] at hserve
      rw [← hserve.2]
      exact hcode
  | lost takes => simp [answer, hended] at hserve

theorem inspect_done {h' : Host} {result : Completed} {outcome : Outcome}
    (hfate : outcome.fate = .done) (hresolve : resolve h containerName = some n)
    (hget : h.get? n = some c)
    (hserve : serve resolve h (inspection t containerName) outcome = (h', .ok result)) :
    result = ⟨some 0, .documents [c.document n]⟩ := by
  rw [inspection, serve_read (by simp) (read_inspectText t containerName)] at hserve
  simp only [answer, hfate, effect, hresolve, hget, Option.bind_eq_bind, Option.bind_some,
    Option.elim_some, Prod.mk.injEq, Except.ok.injEq] at hserve
  exact hserve.2.symm

/-- The own container, and one that cannot be inspected, is looked at, and nothing else
is done to it. -/
theorem standalone_refused
    (hself : (∃ n c, resolve h containerName = some n ∧ h.get? n = some c ∧
        t.isSelf c.id.val = true) ∨
      (outcomes 1 (inspection t containerName)).fate ≠ .done) :
    ∀ call ∈ sent (serve resolve) outcomes 0 (updateStandaloneContainer t containerName) h,
      call.site = .connect ∨ call.site = .inspect := by
  intro call hcall
  rcases mem_sent_call hcall with rfl | ⟨h₁, r₁, hconnect, hafter⟩
  · exact .inl rfl
  have hstate : h₁ = h := by
    simp only [serve, if_true] at hconnect
    split at hconnect <;> simp_all
  rw [hstate] at hafter
  rcases mem_sent_call hafter with rfl | ⟨h₂, result, hinspect, hrest⟩
  · exact .inr rfl
  by_cases hfate : (outcomes 1 (inspection t containerName)).fate = .done
  · obtain ⟨n, c, hresolve, hget, hid⟩ := hself.resolve_right fun hne => hne hfate
    obtain rfl := inspect_done hfate hresolve hget hinspect
    have hdoc : (c.document n).id = c.id.val := rfl
    simp [Remote.bind, Stdout.isBlank, Stdout.firstDocument, hdoc, hid, sent] at hrest
  · have hfailed := inspect_failed hfate hinspect
    simp [Remote.bind, hfailed, sent] at hrest

end Standalone

section Project

open Compose (PsRow psText)

variable {t : Target} {projectName : String} {rows : List PsRow}
variable {fates : Nat → Compose.Call → Compose.Fate}

/-- The listing by which the update of a project looks for the own container. -/
def listing (t : Target) : Compose.Call := ⟨.ps, t.wrap psText⟩

theorem given_of_isSelf {id : String} (h : t.isSelf id = true) : Text.given t.selfId = true := by
  unfold Target.isSelf at h
  cases hid : t.selfId with
  | none => simp [hid] at h
  | some selfId =>
      simp only [hid, Bool.and_eq_true] at h
      simpa [Text.given, Text.orElse] using h.1

/-- A listing that succeeds names all containers. -/
theorem listing_answer {fate : Compose.Fate} {rows' : List PsRow} {reply : Compose.Reply}
    (hlisted : ∀ answer, fate = .ended answer → answer.result.returncode = some 0)
    (hserve : Compose.serve rows (listing t) fate = (rows', .ok reply)) :
    reply = .listed (some 0) rows := by
  cases fate with
  | lost => simp [Compose.serve, listing] at hserve
  | ended answer =>
      simp only [Compose.serve, listing, hlisted answer rfl, true_or, and_self, if_true,
        Prod.mk.injEq, Except.ok.injEq] at hserve
      exact hserve.2.symm

/-- A project that holds the own container is neither pulled nor started where the
look-up lists the containers, or the connection is lost. -/
theorem project_refused (lower : String → String) (connected active : Bool)
    (hself : ∃ row ∈ rows, t.isSelf row.id = true ∧ row.project = projectName)
    (hlisted : ∀ reply, fates 1 (listing t) = .ended reply → reply.result.returncode = some 0) :
    ∀ call ∈ sent Compose.serve fates 0
        (Compose.updateComposeProject lower t projectName connected active) rows,
      call.site = .connect ∨ call.site = .ps := by
  obtain ⟨row, hrow, hid, hproject⟩ := hself
  intro call hcall
  rcases mem_sent_call hcall with rfl | ⟨rows₁, r₁, hconnect, hafter⟩
  · exact .inl rfl
  have hstate : rows₁ = rows := by
    simp only [Compose.serve] at hconnect
    split at hconnect <;> simp_all
  rw [hstate] at hafter
  simp only [Remote.bind, given_of_isSelf hid, if_true] at hafter
  rcases mem_sent_call hafter with rfl | ⟨rows₂, reply, hps, hrest⟩
  · exact .inr rfl
  obtain rfl := listing_answer hlisted hps
  have hfound : rows.any (fun row => t.isSelf row.id && row.project == projectName) = true :=
    List.any_eq_true.mpr ⟨row, hrow, by simp [hid, hproject]⟩
  simp [Compose.Reply.parseJsonOutput, Remote.bind, hfound, sent] at hrest

end Project

section Refusal

variable (lower unquote : String → String) (self : SelfEnvironment)
  (config : Config) (store : Store)

/-- Whatever a reference asks for over SSH, the own container is only looked at: as a
standalone container always, also where it cannot be inspected, and within a project
unless the listing of the containers ends with an error status. -/
def SshRefuses (ref : String) : Prop :=
  ∀ host job, Compose.updateStack unquote config ref = .ok (host, job) →
    match job with
    | .standalone containerName => ∀ resolve h outcomes,
        let t := Compose.target self host
        (∃ n c, resolve h containerName = some n ∧ h.get? n = some c ∧
            t.isSelf c.id.val = true) ∨
          (outcomes 1 (inspection t containerName)).fate ≠ .done →
        ∀ call ∈ sent (serve resolve) outcomes 0 (updateStandaloneContainer t containerName) h,
          call.site = .connect ∨ call.site = .inspect
    | .project projectName => ∀ rows fates connected,
        let t := Compose.target self host
        (∃ row ∈ rows, t.isSelf row.id = true ∧ row.project = projectName) →
        (∀ reply, fates 1 (listing t) = .ended reply → reply.result.returncode = some 0) →
        ∀ call ∈ sent Compose.serve fates 0 (Compose.updateComposeProject lower t projectName
            connected (Compose.portainerIntegrationActive config store)) rows,
          call.site = .connect ∨ call.site = .ps

/-- A stack that holds the own container is redeployed through Portainer only after a
check that has failed, with an exception other than a `ValueError`. -/
def PortainerRefuses (stackId endpointId : Int) : Prop :=
  let selfId := getSelfContainerId self
  let selfName := getSelfContainerName self
  selfId.isSome = true ∨ selfName.isSome = true →
  ∀ world fates, Portainer.World.HoldsSelf world lower selfId selfName stackId endpointId →
    ∀ call ∈ sent Portainer.serve fates 0
        (Portainer.updateStack lower selfId selfName stackId endpointId) world,
      call.isRedeploy = true →
        ∃ message, Portainer.checkResult lower selfId selfName world fates stackId endpointId =
          .error (.other message)

/-- No stack, project or container that holds the own container is updated after a
look-up that was answered. -/
theorem self_update_refused :
    (∀ stackId endpointId, PortainerRefuses lower self stackId endpointId) ∧
    ∀ ref, SshRefuses lower unquote self config store ref := by
  constructor
  · intro stackId endpointId hknown world fates hholds call hcall hredeploy
    exact Portainer.redeploy_of_failed_check hholds hknown hcall hredeploy
  · intro ref host job hjob
    cases job with
    | standalone containerName =>
        intro resolve h outcomes t hself
        exact standalone_refused hself
    | project projectName =>
        intro rows fates connected t hself hlisted
        exact project_refused lower connected _ hself hlisted

end Refusal

section FailedCheck

/-- An endpoint on which the own container runs in the stack 20. -/
def keepupWorld : Portainer.World where
  containers _ := some [⟨some "aabbccddeeff112233445566", some ["/keepup"],
    some ((∅ : Dict String String).set Portainer.projectLabel "keepup")⟩]
  stackOf _ := some ⟨some "keepup", []⟩
  files _ := "services: {}"

/-- The containers cannot be listed, everything else is answered. -/
def networkError : Nat → Portainer.Call → Portainer.Fate
  | 0, _ => .raised (.other "network error")
  | _, _ => .answered "1"

theorem failed_check_redeploys :
    keepupWorld.HoldsSelf id (some "aabbccddeeff") none 20 1 ∧
      (sent Portainer.serve networkError 0
        (Portainer.updateStack id (some "aabbccddeeff") none 20 1) keepupWorld).any
          Portainer.Call.isRedeploy = true := by
  refine ⟨⟨_, "keepup", _, _, rfl, rfl, rfl, List.mem_singleton_self _, rfl, ?_⟩, rfl⟩
  exact .inl (by decide)

end FailedCheck

end Keepup.Docker
