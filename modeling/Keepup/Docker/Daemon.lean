import Keepup.Docker.RunReading

/-!
A Docker host: containers under their names, the commands of the Docker CLI
and what each of them does. A command that the host refuses (no such
container, name taken, container still running) has no effect.
-/

namespace Keepup.Docker

open Lib

/-- A letter or a digit, then letters, digits and `_.-`. -/
def isName (s : String) : Bool :=
  match s.toList with
  | [] => false
  | c :: cs => c.isAlphanum && cs.all fun d => d.isAlphanum || ['_', '.', '-'].contains d

abbrev Name := {s : String // isName s = true}

def Name.ofString? (s : String) : Option Name := if h : isName s = true then some ⟨s, h⟩ else none

@[simp] theorem Name.ofString?_val (n : Name) : Name.ofString? n.val = some n := by
  simp [Name.ofString?, n.property]

theorem Name.val_of_ofString? {s : String} {n : Name} (h : Name.ofString? s = some n) :
    n.val = s := by
  unfold Name.ofString? at h
  split at h
  · rw [← Option.some.inj h]
  · cases h

def isHex (c : Char) : Bool := "0123456789abcdef".toList.contains c

abbrev ContainerId := {s : String // s.toList.length = 64 ∧ s.toList.all isHex = true}

def isImageRef (s : String) : Bool := s != "" && !Text.startsWith s "-"

abbrev ImageRef := {s : String // isImageRef s = true}

/-- A container. `settings` is the rest of what `docker inspect` says about it. -/
structure Container where
  id : ContainerId
  image : ImageRef
  running : Bool
  settings : Inspect
deriving DecidableEq

/-- The inspect document of a container. -/
def Container.document (c : Container) (name : Name) : Inspect :=
  { c.settings with
    id := c.id.val
    name := "/" ++ name.val
    config := { c.settings.config with image := c.image.val } }

/-- The containers by name. No two have the same id. -/
structure Host where
  containers : Dict Name Container
  unique : ∀ n m c d, containers.get? n = some c → containers.get? m = some d → c.id = d.id → n = m

namespace Host

variable (h : Host)

def get? (n : Name) : Option Container := h.containers.get? n

/-- A container of this id is present, under any name. -/
def HasId (id : ContainerId) : Prop := ∃ n c, h.get? n = some c ∧ c.id = id

def usesId (id : ContainerId) : Bool := h.containers.values.any fun c => c.id == id

def setRunning (n : Name) (running : Bool) : Host where
  containers :=
    match h.containers.get? n with
    | some c => h.containers.set n { c with running }
    | none => h.containers
  unique := by
    cases hget : h.containers.get? n with
    | none => exact h.unique
    | some c =>
        intro k m x y hx hy hid
        simp only [Dict.get?_set] at hx hy
        split at hx <;> split at hy
        · next hk hm => rw [hk, hm]
        · next hk hm =>
            obtain rfl := Option.some.inj hx
            exact hk ▸ h.unique n m c y hget hy hid
        · next hk hm =>
            obtain rfl := Option.some.inj hy
            exact hm ▸ h.unique k n x c hx hget hid
        · exact h.unique k m x y hx hy hid

def remove (n : Name) : Host where
  containers := h.containers.pop n
  unique := by
    intro k m x y hx hy hid
    simp only [Dict.get?_pop] at hx hy
    split at hx
    · cases hx
    · split at hy
      · cases hy
      · exact h.unique k m x y hx hy hid

/-- Refused when there is nothing to rename or the new name is taken. -/
def rename (n m : Name) : Option Host :=
  match hn : h.containers.get? n, h.containers.get? m with
  | some c, none => some
      { containers := (h.containers.pop n).set m c
        unique := by
          have hother : ∀ k x, (h.containers.pop n).get? k = some x → x.id ≠ c.id := by
            intro k x hx hid
            rw [Dict.get?_pop] at hx
            split at hx
            · cases hx
            · next hk => exact hk (h.unique k n x c hx hn hid)
          intro k l x y hx hy hid
          rw [Dict.get?_set] at hx hy
          split at hx <;> split at hy
          · next hk hl => rw [hk, hl]
          · obtain rfl := Option.some.inj hx
            exact absurd hid.symm (hother l y hy)
          · obtain rfl := Option.some.inj hy
            exact absurd hid (hother k x hx)
          · rw [Dict.get?_pop] at hx hy
            split at hx
            · cases hx
            · split at hy
              · cases hy
              · exact h.unique k l x y hx hy hid }
  | _, _ => none

theorem usesId_eq_false {id : ContainerId} :
    h.usesId id = false ↔ ∀ n c, h.containers.get? n = some c → c.id ≠ id := by
  simp only [usesId, List.any_eq_false]
  constructor
  · intro hfresh n c hc heq
    have hmem : c ∈ h.containers.values :=
      List.mem_map.mpr ⟨(n, c), Dict.mem_entries_iff.mpr hc, rfl⟩
    exact hfresh c hmem (by simp [heq])
  · intro hfresh c hmem
    obtain ⟨entry, hentry, rfl⟩ := List.mem_map.mp hmem
    simpa using fun heq => hfresh entry.1 entry.2 (Dict.mem_entries_iff.mp hentry) (Subtype.ext heq)

/-- Refused when the name is taken; an id is drawn that is not in use. -/
def create (n : Name) (c : Container) : Option Host :=
  if hfree : h.containers.get? n = none ∧ h.usesId c.id = false then some
    { containers := h.containers.set n c
      unique := by
        intro k l x y hx hy hid
        rw [Dict.get?_set] at hx hy
        split at hx <;> split at hy
        · next hk hl => rw [hk, hl]
        · obtain rfl := Option.some.inj hx
          exact absurd hid.symm (h.usesId_eq_false.mp hfree.2 _ _ hy)
        · obtain rfl := Option.some.inj hy
          exact absurd hid (h.usesId_eq_false.mp hfree.2 _ _ hx)
        · exact h.unique k l x y hx hy hid }
  else none

variable {h : Host}

theorem get?_setRunning (n k : Name) (running : Bool) :
    (h.setRunning n running).get? k =
      if k = n then (h.get? n).map fun c => { c with running } else h.get? k := by
  simp only [get?, setRunning]
  cases hn : h.containers.get? n with
  | none =>
      by_cases hk : k = n
      · simp [hk, hn]
      · simp [hk]
  | some c => simp [Dict.get?_set]

theorem get?_remove (n k : Name) : (h.remove n).get? k = if k = n then none else h.get? k :=
  Dict.get?_pop _ _ _

/-- A rename moves one container and leaves every other name as it was. -/
theorem rename_some {n m : Name} {h' : Host} (hrename : h.rename n m = some h') :
    ∃ c, h.get? n = some c ∧ h.get? m = none ∧
      ∀ k, h'.get? k = if k = m then some c else if k = n then none else h.get? k := by
  unfold rename at hrename
  split at hrename
  · next c hn hm =>
      obtain rfl := Option.some.inj hrename
      exact ⟨c, hn, hm, fun k => by simp only [get?, Dict.get?_set, Dict.get?_pop]⟩
  · cases hrename

theorem rename_of_free {n m : Name} {c : Container} (hn : h.get? n = some c)
    (hm : h.get? m = none) : ∃ h', h.rename n m = some h' := by
  unfold rename
  split
  · exact ⟨_, rfl⟩
  · next hno => exact absurd hm (hno c hn)

theorem rename_of_taken {n m : Name} (hm : (h.get? m).isSome = true) : h.rename n m = none := by
  cases hrename : h.rename n m with
  | none => rfl
  | some h' =>
      obtain ⟨_, _, hfree, _⟩ := rename_some hrename
      simp [hfree] at hm

theorem create_some {n : Name} {c : Container} {h' : Host} (hcreate : h.create n c = some h') :
    h.get? n = none ∧ h.usesId c.id = false ∧
      ∀ k, h'.get? k = if k = n then some c else h.get? k := by
  unfold create at hcreate
  split at hcreate
  · next hfree =>
      obtain rfl := Option.some.inj hcreate
      exact ⟨hfree.1, hfree.2, fun k => Dict.get?_set _ _ _ _⟩
  · cases hcreate

theorem create_of_free {n : Name} {c : Container} (hn : h.get? n = none)
    (hid : h.usesId c.id = false) : ∃ h', h.create n c = some h' := by
  unfold create
  rw [dif_pos ⟨hn, hid⟩]
  exact ⟨_, rfl⟩

end Host

/-- The commands of the Docker CLI that the update sends. -/
inductive Cmd where
  | inspect (ref : String)
  | inspectState (ref : String)
  | pull (image : String)
  | rename (ref newName : String)
  | stop (ref : String)
  | start (ref : String)
  | rm (ref : String)
  | rmForce (ref : String)
  | run (inv : Invocation)
deriving DecidableEq

def stateFormat : String :=
  "\x7b\x7b.State.Running\x7d\x7d \x7b\x7b.RestartCount\x7d\x7d"

/-- The command that an argument list stands for. -/
def readArgs : List String → Option Cmd
  | ["docker", "inspect", ref] => some (.inspect ref)
  | ["docker", "inspect", "-f", format, ref] =>
      if format = stateFormat then some (.inspectState ref) else none
  | ["docker", "pull", image] => some (.pull image)
  | ["docker", "rename", ref, newName] => some (.rename ref newName)
  | ["docker", "stop", ref] => some (.stop ref)
  | ["docker", "start", ref] => some (.start ref)
  | ["docker", "rm", "-f", ref] => some (.rmForce ref)
  | ["docker", "rm", ref] => some (.rm ref)
  | "docker" :: "run" :: args => (readRun args).map .run
  | _ => none

/-- A command as it arrives: plain, or for the shell inside a Proxmox guest. -/
def readCommand (text : String) : Option Cmd :=
  match Shell.words text with
  | some ["pct", "exec", _, "--", "sh", "-c", inner] => (Shell.words inner).bind readArgs
  | some args => readArgs args
  | none => none

/-- What a command printed: text, or the JSON array of `docker inspect`. -/
inductive Stdout where
  | text (s : String)
  | documents (docs : List Inspect)
deriving DecidableEq

/-- The result of a remote command. -/
structure Completed where
  returncode : Option Int
  stdout : Stdout
deriving DecidableEq

/-- What the host does not decide from its containers alone. -/
structure Chance where
  output : String
  newId : ContainerId
  newName : Name
  settings : Inspect
  comesUp : Bool
  restarts : Nat

def stateText (running : Bool) (restarts : Nat) : String :=
  (if running then "true" else "false") ++ " " ++ toString restarts

/-- How an argument is resolved to a container. -/
abbrev Resolver := Host → String → Option Name

def exactName : Resolver := fun h ref =>
  (Name.ofString? ref).filter fun n => (h.get? n).isSome

/-- The only container whose id starts with the argument. -/
def uniquePrefix : Resolver := fun h ref =>
  match h.containers.entries.filter fun entry => Text.startsWith entry.2.id.val ref with
  | [entry] => some entry.1
  | _ => none

/-- The exact name, or else the unique id prefix. -/
def exactOrPrefix : Resolver := fun h ref => (exactName h ref).or (uniquePrefix h ref)

section Effect

variable (resolve : Resolver)

/-- The container a `docker run` asks for, and its name. -/
def newContainer (inv : Invocation) (chance : Chance) : Option (Name × Container) := do
  let name ← ((inv.values "--name").getLast?).elim (some chance.newName) Name.ofString?
  if h : isImageRef inv.image = true then
    some (name, ⟨chance.newId, ⟨inv.image, h⟩, chance.comesUp, chance.settings⟩)
  else none

/-- The effect and the output of a command, `none` when the host refuses it. -/
def effect (h : Host) (chance : Chance) : Cmd → Option (Host × Stdout)
  | .inspect ref => do
      let n ← resolve h ref
      let c ← h.get? n
      some (h, .documents [c.document n])
  | .inspectState ref => do
      let n ← resolve h ref
      let c ← h.get? n
      some (h, .text (stateText c.running chance.restarts))
  | .pull _ => some (h, .text chance.output)
  | .rename ref newName => do
      let n ← resolve h ref
      let m ← Name.ofString? newName
      let h' ← h.rename n m
      some (h', .text chance.output)
  | .stop ref => do
      let n ← resolve h ref
      some (h.setRunning n false, .text chance.output)
  | .start ref => do
      let n ← resolve h ref
      some (h.setRunning n true, .text chance.output)
  | .rm ref => do
      let n ← resolve h ref
      let c ← h.get? n
      if c.running then none else some (h.remove n, .text chance.output)
  | .rmForce ref => do
      let n ← resolve h ref
      some (h.remove n, .text chance.output)
  | .run inv => do
      let (name, c) ← newContainer inv chance
      let h' ← h.create name c
      some (h', .text chance.output)

/-- Everything a command that is not refused can do to the host. -/
theorem effect_some {h h' : Host} {chance : Chance} {cmd : Cmd} {out : Stdout}
    (heffect : effect resolve h chance cmd = some (h', out)) :
    match cmd with
    | .inspect _ | .inspectState _ | .pull _ => h' = h
    | .rename ref newName => ∃ n m, resolve h ref = some n ∧ Name.ofString? newName = some m ∧
        h.rename n m = some h'
    | .stop ref => ∃ n, resolve h ref = some n ∧ h' = h.setRunning n false
    | .start ref => ∃ n, resolve h ref = some n ∧ h' = h.setRunning n true
    | .rm ref => ∃ n c, resolve h ref = some n ∧ h.get? n = some c ∧ c.running = false ∧
        h' = h.remove n
    | .rmForce ref => ∃ n, resolve h ref = some n ∧ h' = h.remove n
    | .run inv => ∃ n c, newContainer inv chance = some (n, c) ∧ h.create n c = some h' := by
  cases cmd with
  | inspect ref | inspectState ref =>
      simp only [effect, Option.bind_eq_bind, Option.bind_eq_some_iff, Option.some.injEq,
        Prod.mk.injEq] at heffect
      obtain ⟨_, _, _, _, hstate, _⟩ := heffect
      exact hstate.symm
  | pull image => exact (Prod.mk.inj (Option.some.inj heffect)).1.symm
  | rename ref newName =>
      simp only [effect, Option.bind_eq_bind, Option.bind_eq_some_iff, Option.some.injEq,
        Prod.mk.injEq] at heffect
      obtain ⟨n, hn, m, hm, h₁, hrename, rfl, _⟩ := heffect
      exact ⟨n, m, hn, hm, hrename⟩
  | stop ref | start ref | rmForce ref =>
      simp only [effect, Option.bind_eq_bind, Option.bind_eq_some_iff, Option.some.injEq,
        Prod.mk.injEq] at heffect
      obtain ⟨n, hn, hstate, _⟩ := heffect
      exact ⟨n, hn, hstate.symm⟩
  | rm ref =>
      simp only [effect, Option.bind_eq_bind, Option.bind_eq_some_iff] at heffect
      obtain ⟨n, hn, c, hc, htaken⟩ := heffect
      split at htaken
      · cases htaken
      · next hstopped =>
          obtain ⟨rfl, _⟩ := Prod.mk.inj (Option.some.inj htaken)
          exact ⟨n, c, hn, hc, Bool.eq_false_iff.mpr hstopped, rfl⟩
  | run inv =>
      simp only [effect, Option.bind_eq_bind, Option.bind_eq_some_iff, Option.some.injEq,
        Prod.mk.injEq] at heffect
      obtain ⟨⟨n, c⟩, hnew, h₁, hcreate, rfl, _⟩ := heffect
      exact ⟨n, c, hnew, hcreate⟩

end Effect

section ExactName

variable {h : Host} {n m : Name} {c : Container} {chance : Chance}

theorem exactName_eq_some {ref : String} :
    exactName h ref = some n ↔ n.val = ref ∧ (h.get? n).isSome = true := by
  unfold exactName
  rw [Option.filter_eq_some_iff]
  constructor
  · rintro ⟨hname, hget⟩
    exact ⟨Name.val_of_ofString? hname, hget⟩
  · rintro ⟨rfl, hget⟩
    exact ⟨Name.ofString?_val n, hget⟩

theorem exactName_of_some (hc : h.get? n = some c) : exactName h n.val = some n :=
  exactName_eq_some.mpr ⟨rfl, by simp [hc]⟩

theorem exactName_of_none (hc : h.get? n = none) : exactName h n.val = none := by
  simp [exactName, hc]

end ExactName

end Keepup.Docker
