import Keepup.Docker.Standalone

/-!
The part of a Docker host that one update works on: the slot under the
container's name and the slot under its backup name. `Slots` relates a host to
the contents of the two, with everything else as it was at the start, and the
theorems below say what each command does to them when arguments are resolved
by exact name.
-/

namespace Keepup.Docker

open Lib Remote

theorem backup_isName (n : Name) : isName (backupName n.val) = true := by
  obtain ⟨s, hs⟩ := n
  have hlist : (backupName s).toList = s.toList ++ "__keepup_old".toList := by simp [backupName]
  unfold isName at hs ⊢
  rw [hlist]
  cases hcs : s.toList with
  | nil => simp [hcs] at hs
  | cons c cs =>
      simp only [hcs, Bool.and_eq_true] at hs
      simp only [List.cons_append, List.all_append, Bool.and_eq_true]
      exact ⟨hs.1, hs.2, by decide⟩

def Name.backup (n : Name) : Name := ⟨backupName n.val, backup_isName n⟩

theorem Name.backup_ne (n : Name) : n.backup ≠ n := by
  intro h
  have hlength := congrArg (fun m : Name => m.val.toList.length) h
  simp [Name.backup, backupName] at hlength

/-- The name slot holds `x`, the backup slot `y`, and the rest is as in `h₀`. -/
structure Slots (n b : Name) (h₀ : Host) (x y : Option Container) (h : Host) : Prop where
  atName : h.get? n = x
  atBackup : h.get? b = y
  others : ∀ k, k ≠ n → k ≠ b → h.get? k = h₀.get? k

namespace Slots

variable {n b : Name} {h₀ h : Host} {x y : Option Container} {c : Container}

theorem start (n b : Name) (h : Host) : Slots n b h (h.get? n) (h.get? b) h :=
  ⟨rfl, rfl, fun _ _ _ => rfl⟩

theorem swap (hs : Slots n b h₀ x y h) : Slots b n h₀ y x h :=
  ⟨hs.atBackup, hs.atName, fun k hb hn => hs.others k hn hb⟩

theorem effect_rename (chance : Chance) (hs : Slots n b h₀ (some c) none h) :
    ∃ h', effect exactName h chance (.rename n.val b.val) = some (h', .text chance.output) ∧
      Slots n b h₀ none (some c) h' := by
  obtain ⟨h', hrename⟩ := Host.rename_of_free hs.atName hs.atBackup
  obtain ⟨d, hd, _, hget⟩ := Host.rename_some hrename
  obtain rfl : d = c := Option.some.inj (hd.symm.trans hs.atName)
  have hnb : n ≠ b := by
    intro heq
    have hc := hs.atName
    rw [heq, hs.atBackup] at hc
    cases hc
  refine ⟨h', ?_, ?_, ?_, ?_⟩
  · simp [effect, exactName_of_some hs.atName, hrename]
  · simp [hget, hnb]
  · simp [hget]
  · intro k hn hb
    simpa [hget, hn, hb] using hs.others k hn hb

theorem effect_rename_taken (chance : Chance) (hs : Slots n b h₀ x (some c) h) :
    effect exactName h chance (.rename n.val b.val) = none := by
  have hrename : ∀ m, h.rename m b = none := by
    intro m
    exact Host.rename_of_taken (by simp [hs.atBackup])
  simp [effect, hrename]

/-- Stopping or starting the container in the name slot. -/
theorem set_running (hs : Slots n b h₀ (some c) y h) (hnb : b ≠ n) (running : Bool) :
    Slots n b h₀ (some { c with running }) y (h.setRunning n running) := by
  refine ⟨?_, ?_, ?_⟩
  · simp [Host.get?_setRunning, hs.atName]
  · simp [Host.get?_setRunning, hnb, hs.atBackup]
  · intro k hn hb
    simpa [Host.get?_setRunning, hn] using hs.others k hn hb

theorem remove (hs : Slots n b h₀ x y h) (hnb : b ≠ n) : Slots n b h₀ none y (h.remove n) := by
  refine ⟨?_, ?_, ?_⟩
  · simp [Host.get?_remove]
  · simp [Host.get?_remove, hnb, hs.atBackup]
  · intro k hn hb
    simpa [Host.get?_remove, hn] using hs.others k hn hb

theorem effect_run {chance : Chance} (hs : Slots n b h₀ none y h) (hnb : b ≠ n)
    {inv : Invocation} {d : Container}
    (hnew : newContainer inv chance = some (n, d)) (hfresh : h.usesId d.id = false) :
    ∃ h', effect exactName h chance (.run inv) = some (h', .text chance.output) ∧
      Slots n b h₀ (some d) y h' := by
  obtain ⟨h', hcreate⟩ := Host.create_of_free hs.atName hfresh
  obtain ⟨_, _, hget⟩ := Host.create_some hcreate
  refine ⟨h', ?_, ?_, ?_, ?_⟩
  · simp [effect, hnew, hcreate]
  · simp [hget]
  · simp [hget, hnb, hs.atBackup]
  · intro k hn hb
    simpa [hget, hn] using hs.others k hn hb

/-- An id that was not in use at the start is not in use while the original
container stands aside. -/
theorem usesId_aside {d : Container} (hs : Slots n b h₀ none (some d) h)
    (horiginal : h₀.get? n = some c) (hid : d.id = c.id) {id : ContainerId}
    (hfresh : h₀.usesId id = false) : h.usesId id = false := by
  rw [Host.usesId_eq_false] at hfresh ⊢
  intro k x hx
  by_cases hn : k = n
  · subst hn
    have hnone := hs.atName
    rw [Host.get?, hx] at hnone
    cases hnone
  · by_cases hb : k = b
    · subst hb
      have hsome := hs.atBackup
      rw [Host.get?, hx] at hsome
      obtain rfl := Option.some.inj hsome
      rw [hid]
      exact hfresh n c horiginal
    · exact hfresh k x ((hs.others k hn hb).symm.trans hx)

end Slots

/-- What `docker run` creates from the recreate command of a container. -/
def replacement (c : Container) (chance : Chance) : Container where
  id := chance.newId
  image := c.image
  running := chance.comesUp
  settings := chance.settings

theorem isName_head {n : Name} : ∀ d ∈ n.val.toList.head?, d ≠ '/' := by
  obtain ⟨s, hs⟩ := n
  intro d hd
  unfold isName at hs
  cases hcs : s.toList with
  | nil => simp [hcs] at hd
  | cons c cs =>
      simp only [hcs, Bool.and_eq_true] at hs
      simp only [hcs, List.head?_cons, Option.mem_some_iff] at hd
      subst hd
      rintro rfl
      exact absurd hs.1 (by decide)

theorem containerName_document (c : Container) (n : Name) :
    containerName (c.document n) = n.val := by
  exact Text.lstripChar_cons isName_head

theorem newContainer_recreation (c : Container) (n : Name) (chance : Chance) :
    newContainer (recreation (c.document n)) chance = some (n, replacement c chance) := by
  have hname : (recreation (c.document n)).values "--name" = [n.val] := by
    have hne : n.val ≠ "" := by
      intro hempty
      have hprop := n.property
      rw [hempty] at hprop
      cases hprop
    simp [recreation, Invocation.values, runOpts_name, containerName_document, hne]
  have himage : (recreation (c.document n)).image = c.image.val := rfl
  simp [newContainer, hname, himage, c.image.property, replacement]

/-- The host reads the recreate command of a container as its recreation. -/
theorem read_runText (t : Target) (c : Container) (n : Name) :
    readCommand (t.wrap (runText (c.document n))) = some (.run (recreation (c.document n))) := by
  have himage : CommandLine.isOption (c.document n).config.image = false := by
    have hprop := c.image.property
    simp only [isImageRef, Text.startsWith, Bool.and_eq_true, Bool.not_eq_true'] at hprop
    have hlead : ['-'].isPrefixOf (c.document n).config.image.toList = false := hprop.2
    simp [CommandLine.isOption, hlead]
  obtain ⟨args, hparts, hread⟩ := run_parts_read _ himage
  have hwords := words_runText (c.document n)
  rw [hparts] at hwords
  rw [readCommand_wrap t hwords]
  simp [readArgs, hread]

end Keepup.Docker
