import Keepup.Docker.Daemon

/-!
What this program knows of the container it runs in: a short id, from the host
name or from the control groups of its process, and a name from its settings.
-/

namespace Keepup.Docker

/-- Where the own identity is read from: the environment, and the lines of
`/proc/self/cgroup` where it can be read. -/
structure SelfEnvironment where
  hostname : String
  cgroup : Option (List String)
  containerName : String

/-- The first twelve of the first 64 hexadecimal digits in a row. -/
def longId : List Char → Option String
  | [] => none
  | c :: cs =>
      if 64 ≤ (c :: cs).length ∧ ((c :: cs).take 64).all isHex = true then
        some (String.ofList ((c :: cs).take 12))
      else longId cs

def containerIdFromCgroup (lines : Option (List String)) : Option String :=
  (lines.getD []).findSome? fun line => longId line.toList

/-- Twelve hexadecimal digits, with at most a line break after them. -/
def isShortId (hostname : String) : Bool :=
  let digits := hostname.toList.take 12
  digits.length == 12 && digits.all isHex &&
    ["", "\n"].contains (String.ofList (hostname.toList.drop 12))

def getSelfContainerId (env : SelfEnvironment) : Option String :=
  if isShortId env.hostname then some env.hostname else containerIdFromCgroup env.cgroup

def getSelfContainerName (env : SelfEnvironment) : Option String :=
  let name := Text.strip env.containerName
  if name = "" then none else some name

end Keepup.Docker
