import Keepup.Docker.RunReading
import Keepup.Lib.ShellCommand

/-!
What becomes of the health check of a container that is recreated. The option
`--health-cmd` holds a shell command. A check that is an argument list is joined with
blanks to make one, without quotes around the arguments.
-/

namespace Keepup.Docker

open Lib Lib.CommandLine Lib.ShellCommand

section Probes

/-- The probe of a container: the one of its image, none, or a shell command. -/
inductive HealthProbe where
  | inherited
  | disabled
  | shell (command : String)
deriving DecidableEq

/-- An empty `--health-cmd` counts as none. -/
def probeOf (opts : List Opt) : HealthProbe :=
  if isSet "--no-healthcheck" opts then .disabled
  else
    let command := (valuesOf "--health-cmd" opts).getLast?.getD ""
    if command = "" then .inherited else .shell command

def Invocation.healthProbe (inv : Invocation) : HealthProbe := probeOf inv.opts

/-- The probe runs the same arguments or the same shell command, or nothing where nothing
was run. A test that is empty asks for the probe of the image. -/
def Healthcheck.Survives (hc : Healthcheck) (probe : HealthProbe) : Prop :=
  match hc.test.getD [] with
  | [] => True
  | kind :: args =>
      (kind = "NONE" → probe = .disabled) ∧
      (kind = "CMD-SHELL" → probe = .shell (args.headD "")) ∧
      (kind = "CMD" → ∃ command, probe = .shell command ∧ ∀ around, argv around command = some args)

/-- The shell command is not empty, and no argument of a list has a meaning of its own to
the shell. -/
def Healthcheck.Plain (hc : Healthcheck) : Prop :=
  match hc.test.getD [] with
  | [] => True
  | kind :: args =>
      (kind = "CMD-SHELL" → args.headD "" ≠ "") ∧
      (kind = "CMD" → args ≠ [] ∧ (∀ a ∈ args, Literal a.toList) ∧
        ∀ a ∈ args.head?, NamesProgram a.toList)

end Probes

section Options

variable (hc : Healthcheck)

theorem timings_healthCmd : valuesOf "--health-cmd" (healthTimings hc) = [] := by
  simp [healthTimings, durationOpt, intOpt]

theorem timings_noHealthcheck : isSet "--no-healthcheck" (healthTimings hc) = false := by
  simp [healthTimings, durationOpt, intOpt]

theorem probeOf_command (command : String) :
    probeOf (.value "--health-cmd" command :: healthTimings hc) =
      if command = "" then .inherited else .shell command := by
  have hvalues : valuesOf "--health-cmd" (.value "--health-cmd" command :: healthTimings hc) =
      [command] := by
    rw [← List.singleton_append, valuesOf_append, valuesOf_value, if_pos rfl, timings_healthCmd]
    rfl
  have hflag : isSet "--no-healthcheck" (.value "--health-cmd" command :: healthTimings hc) =
      false := by
    rw [isSet_value_cons, timings_noHealthcheck]
  rw [probeOf, hvalues, hflag]
  rfl

theorem recreation_probe {doc : Inspect} {hc : Healthcheck}
    (hcheck : doc.config.healthcheck = some hc) :
    (recreation doc).healthProbe = probeOf (healthOpts hc) := by
  have hvalues := runOpts_healthCmd doc
  have hflag := runOpts_noHealthcheck doc
  rw [hcheck, Option.getD_some] at hvalues hflag
  simp only [Invocation.healthProbe, probeOf, recreation, hvalues, hflag]

/-- A shell command that is not empty is the probe, an empty one is none. -/
theorem probe_eq_shell {text command : String} :
    (if text = "" then HealthProbe.inherited else .shell text) = .shell command ↔
      text ≠ "" ∧ command = text := by
  split
  · simp_all
  · simp_all [eq_comm]

theorem join_ne_empty {args : List String} (hne : args ≠ []) (h : ∀ a ∈ args, Literal a.toList) :
    Shell.join args ≠ "" := by
  intro hempty
  have hlex := lex_join h
  rw [hempty] at hlex
  have hnil : args.map (fun a => plain a.toList) = [] := (Option.some.inj hlex).symm
  exact hne (List.map_eq_nil_iff.mp hnil)

theorem survives_iff : hc.Survives (probeOf (healthOpts hc)) ↔ hc.Plain := by
  cases htest : hc.test.getD [] with
  | nil => simp only [Healthcheck.Survives, Healthcheck.Plain, htest]
  | cons kind args =>
    simp only [Healthcheck.Survives, Healthcheck.Plain, healthOpts, htest]
    by_cases hnone : kind = "NONE"
    · subst hnone
      simp [probeOf]
    · by_cases hshell : kind = "CMD-SHELL"
      · subst hshell
        rw [if_neg (by decide), if_pos rfl, probeOf_command]
        simp [probe_eq_shell]
      · by_cases hcmd : kind = "CMD"
        · subst hcmd
          rw [if_neg (by decide), if_neg (by decide), if_pos rfl, probeOf_command]
          simp only [probe_eq_shell, hnone, hshell, false_implies, true_and, forall_const]
          constructor
          · rintro ⟨command, ⟨hne, rfl⟩, hargv⟩
            refine ⟨?_, (argv_join_iff args).mp hargv⟩
            rintro rfl
            exact hne rfl
          · rintro ⟨hne, hliteral⟩
            exact ⟨_, ⟨join_ne_empty hne hliteral.1, rfl⟩, (argv_join_iff args).mpr hliteral⟩
        · simp [hnone, hshell, hcmd]

end Options

def curlCheck : Healthcheck where
  test := some ["CMD", "curl", "-f", "http://localhost:8080/health"]

def curlDoc : Inspect where
  name := "/web"
  config := { image := "nginx:1", healthcheck := some curlCheck }

/-- A check for a file whose name has a blank. -/
def fileCheck : Healthcheck where
  test := some ["CMD", "test", "-f", "/run/my app.pid"]

def fileDoc : Inspect where
  name := "/app"
  config := { image := "app:1", healthcheck := some fileCheck }

end Keepup.Docker
