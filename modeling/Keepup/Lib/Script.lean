import Keepup.Lib.Shell

/-!
Small shell scripts: external commands joined by `;`, `&&`, `||` and `if`, with
`echo`, `exit` and the status `$?` of the last command. A script has a text,
which is what is sent to a host, and a meaning, which depends on how each
external command ends there.
-/

namespace Keepup.Lib

/-- What an external command prints on its standard output, and its status. -/
structure Outcome where
  out : String
  status : Nat
deriving DecidableEq

/-- Where the output of an external command goes. -/
inductive Redirect where
  | none
  | dropErrors
  | dropAll
  | merge
deriving DecidableEq

def Redirect.text : Redirect → String
  | .none => ""
  | .dropErrors => " 2>/dev/null"
  | .dropAll => " >/dev/null 2>&1"
  | .merge => " 2>&1"

inductive Script where
  | tool (command : String) (redirect : Redirect)
  | echo (word : String)
  | echoStatus (word : String)
  | exit
  | seq (first next : Script)
  | both (first next : Script)
  | either (first next : Script)
  | cond (test yes no : Script)

namespace Script

def text : Script → String
  | tool command redirect => command ++ redirect.text
  | echo word => "echo " ++ Shell.quote word
  | echoStatus word => "echo " ++ word ++ "$?"
  | exit => "exit"
  | seq first next => first.text ++ "; " ++ next.text
  | both first next => first.text ++ " && " ++ next.text
  | either first next => first.text ++ " || " ++ next.text
  | cond test yes no => "if " ++ test.text ++ "; then " ++ yes.text ++
      "; else " ++ no.text ++ "; fi"

/-- The scripts one after the other, whatever their statuses. -/
def chain : Script → List Script → Script
  | script, [] => script
  | script, next :: rest => chain (seq script next) rest

/-- Print whether a command succeeds. -/
def answer (test : Script) : Script := either (both test (echo "yes")) (echo "no")

/-- How the external commands of a script end on one host. A merged output is
the one the outcome names. -/
abbrev Env := String → Outcome

/-- The output so far, the status of the last command, and whether the shell
has left the script. -/
structure Result where
  out : String
  status : Nat
  exited : Bool
deriving DecidableEq

/-- The result of running `next` after `r`, with the outputs in this order. -/
def Result.andThen (r : Result) (next : Nat → Result) : Result :=
  if r.exited then r else { next r.status with out := r.out ++ (next r.status).out }

variable (env : Env)

/-- Run a script, given the status of the command before it. -/
def run : Script → Nat → Result
  | tool command redirect, _ =>
      ⟨if redirect = .dropAll then "" else (env command).out, (env command).status, false⟩
  | echo word, _ => ⟨word ++ "\n", 0, false⟩
  | echoStatus word, status => ⟨word ++ toString status ++ "\n", 0, false⟩
  | exit, status => ⟨"", status, true⟩
  | seq first next, status => (first.run status).andThen next.run
  | both first next, status =>
      let r := first.run status
      if r.status = 0 then r.andThen next.run else r
  | either first next, status =>
      let r := first.run status
      if r.status = 0 then r else r.andThen next.run
  | cond test yes no, status =>
      let r := test.run status
      if r.status = 0 then r.andThen yes.run else r.andThen no.run

/-- What a host prints for a script in a fresh shell, and the status it ends with. -/
def outcome (script : Script) : Outcome := ⟨(script.run env 0).out, (script.run env 0).status⟩

section Rules

variable {env} {status : Nat} {command word : String}

@[simp] theorem andThen_running (out : String) (next : Nat → Result) :
    Result.andThen ⟨out, status, false⟩ next =
      { next status with out := out ++ (next status).out } :=
  rfl

@[simp] theorem run_tool (redirect : Redirect) (h : redirect ≠ .dropAll) :
    (tool command redirect).run env status = ⟨(env command).out, (env command).status, false⟩ := by
  simp [run, h]

@[simp] theorem run_quiet :
    (tool command .dropAll).run env status = ⟨"", (env command).status, false⟩ := rfl

@[simp] theorem run_echo : (echo word).run env status = ⟨word ++ "\n", 0, false⟩ := rfl

@[simp] theorem run_echoStatus :
    (echoStatus word).run env status = ⟨word ++ toString status ++ "\n", 0, false⟩ := rfl

@[simp] theorem run_seq (first next : Script) :
    (seq first next).run env status = (first.run env status).andThen (next.run env) := rfl

@[simp] theorem run_answer (redirect : Redirect) :
    (answer (tool command redirect)).run env status =
      ⟨(if redirect = .dropAll then "" else (env command).out) ++
        ((if (env command).status = 0 then "yes" else "no") ++ "\n"), 0, false⟩ := by
  by_cases htest : (env command).status = 0
  · simp [answer, run, Result.andThen, htest]
  · simp [answer, run, Result.andThen, htest]

end Rules

end Script

end Keepup.Lib
