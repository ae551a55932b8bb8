import Keepup.Credentials.Store
import Keepup.Lib.Masking
import Keepup.Text.Lines

/-!
How the output of a run is masked before it is kept, and what becomes of it in
its file. The values to mask are those of the credential store under the names
of secrets; a store that cannot be read masks nothing.
-/

namespace Keepup.Activity

open Lib

/-- What the code takes from its language: lower case, and the order in which the
elements of a set come. -/
structure Surroundings where
  lower : String → String
  iterate : List String → List String
  iterate_perm : ∀ texts, (iterate texts).Perm texts

def secretKeyHints : List String :=
  ["password", "token", "secret", "api_key", "user_key", "passphrase"]

def minSecretLen : ℕ := 8

def redacted : String := "***"

section Source

variable (env : Surroundings)

/-- The value of a field, when it is one to mask. -/
def secretValue (field : String × Scalar) : Option String :=
  match field.2 with
  | .str value =>
      if value.length < minSecretLen then none
      else if secretKeyHints.any fun hint => Text.isIn hint (env.lower field.1) then some value
      else none
  | _ => none

def secretValues (store : Store) : List String :=
  (store.values.flatMap fun entry => entry.entries.filterMap (secretValue env)).dedup

/-- The secrets, the longest first. -/
def orderedSecrets (store : Store) : List String :=
  (env.iterate (secretValues env store)).mergeSort fun a b => b.length ≤ a.length

def redactLine (secrets : List String) (line : String) : String :=
  String.ofList (Masking.mask redacted.toList (secrets.map String.toList) line.toList)

/-- `none` is a store that could not be loaded. -/
def redact (store : Option Store) (lines : List String) : List String :=
  match store with
  | none => lines
  | some store => lines.map (redactLine (orderedSecrets env store))

/-- The lines of the output file. -/
def flatLines (lines : List String) : List String := lines.flatMap (Text.splitOn '\n')

def outputText (lines : List String) : String := "\n".intercalate (flatLines lines)

end Source

end Keepup.Activity
