import Keepup.Docker.RunReading
import Keepup.Text.Cuts

/-!
What becomes of the storage of a container that is recreated. Docker records it in three
places: as the text that `-v` was given, as a mount with fields of its own, or as the
path of a tmpfs with its options. The command has an option for each of the first kind,
none for the second, and for the third one with the path alone.
-/

namespace Keepup.Docker

open Lib Lib.CommandLine

section Attachments

inductive MountKind where
  | bind
  | volume
  | tmpfs
  | other (name : String)
deriving DecidableEq

/-- Something attached to a container, with its options as Docker writes them. -/
structure Attachment where
  kind : MountKind
  source : String := ""
  target : String
  options : String := ""
deriving DecidableEq

/-- An entry of `HostConfig.Mounts`. -/
structure Mount where
  type : String
  source : String := ""
  target : String
  readOnly : Bool := false
  propagation : String := ""
  noCopy : Bool := false
  sizeBytes : ℕ := 0
  mode : ℕ := 0
deriving DecidableEq

def kindOf (type : String) : MountKind :=
  if type = "bind" then .bind
  else if type = "volume" then .volume
  else if type = "tmpfs" then .tmpfs
  else .other type

def Mount.options (m : Mount) : List String :=
  [if m.readOnly then ["ro"] else [],
    if m.propagation ≠ "" then [m.propagation] else [],
    if m.noCopy then ["nocopy"] else [],
    if m.sizeBytes ≠ 0 then ["size=" ++ toString m.sizeBytes] else [],
    if m.mode ≠ 0 then ["mode=" ++ String.ofList (Nat.toDigits 8 m.mode)] else []].flatten

def Mount.attachment (m : Mount) : Attachment where
  kind := kindOf m.type
  source := m.source
  target := m.target
  options := Text.joinOn ',' m.options

/-- `-v [source:]target[:options]`. A source that is no path is the name of a volume. -/
def readVolume (spec : String) : Attachment :=
  match Text.splitOn ':' spec with
  | source :: target :: options =>
      { kind := if Text.startsWith source "/" then .bind else .volume
        source := source
        target := target
        options := Text.joinOn ':' options }
  | _ => { kind := .volume, target := spec }

/-- `--tmpfs path[:options]` -/
def readTmpfs (text : String) : Attachment :=
  match Text.cut ":" text with
  | some (path, options) => { kind := .tmpfs, target := path, options := options }
  | none => { kind := .tmpfs, target := text }

/-- What an option of `docker run` attaches. -/
def attachmentOf : Opt → Option Attachment
  | .flag _ => none
  | .value name val =>
      if name = "-v" then some (readVolume val)
      else if name = "--tmpfs" then some (readTmpfs val)
      else none

/-- A document with `HostConfig.Mounts`, which the function does not read. -/
structure StoredInspect extends Inspect where
  mounts : Option (List Mount) := none

end Attachments

section Recorded

variable (doc : StoredInspect)

def StoredInspect.binds : List String := doc.hostConfig.binds.getD []

def StoredInspect.tmpfs : List (String × String) := items doc.hostConfig.tmpfs

/-- An entry of `HostConfig.Tmpfs`. -/
def tmpfsAttachment (entry : String × String) : Attachment where
  kind := .tmpfs
  target := entry.1
  options := entry.2

def StoredInspect.recorded : List Attachment :=
  doc.binds.map readVolume ++ (doc.mounts.getD []).map Mount.attachment ++
    doc.tmpfs.map tmpfsAttachment

/-- Everything that is recorded is attached by an option. -/
def Reattaches (inv : Invocation) : Prop :=
  ∀ a ∈ doc.recorded, ∃ opt ∈ inv.opts, attachmentOf opt = some a

/-- Every mount is recorded as a bind or as the path of a tmpfs too, and every tmpfs has
a path without a colon, and no options or ones that are a part of another path. -/
def KeepsStorage : Prop :=
  (∀ m ∈ doc.mounts.getD [], (∃ spec ∈ doc.binds, readVolume spec = m.attachment) ∨
    ∃ entry ∈ doc.tmpfs, readTmpfs entry.1 = m.attachment) ∧
  ∀ entry ∈ doc.tmpfs, ':' ∉ entry.1.toList ∧
    (entry.2 = "" ∨ ∃ other ∈ doc.tmpfs, other.1 = entry.1 ++ ":" ++ entry.2)

end Recorded

section Options

variable {doc : StoredInspect} {a : Attachment}

theorem exists_attaching {opts : List Opt} : (∃ opt ∈ opts, attachmentOf opt = some a) ↔
    (∃ spec ∈ valuesOf "-v" opts, readVolume spec = a) ∨
      ∃ text ∈ valuesOf "--tmpfs" opts, readTmpfs text = a := by
  simp only [valuesOf, List.mem_filterMap]
  constructor
  · rintro ⟨opt, hmem, hopt⟩
    cases opt with
    | flag name => cases hopt
    | value name val =>
        rw [attachmentOf] at hopt
        split at hopt
        · rename_i hname
          exact .inl ⟨val, ⟨_, hmem, if_pos hname⟩, Option.some.inj hopt⟩
        · split at hopt
          · rename_i hname
            exact .inr ⟨val, ⟨_, hmem, if_pos hname⟩, Option.some.inj hopt⟩
          · cases hopt
  · rintro (⟨val, ⟨opt, hmem, hval⟩, rfl⟩ | ⟨val, ⟨opt, hmem, hval⟩, rfl⟩)
    all_goals
      cases opt with
      | flag name => cases hval
      | value name val' =>
          simp only [Opt.valueOf, Option.ite_none_right_eq_some, Option.some_inj] at hval
          obtain ⟨rfl, rfl⟩ := hval
          exact ⟨_, hmem, rfl⟩

theorem attached_iff : (∃ opt ∈ (recreation doc.toInspect).opts, attachmentOf opt = some a) ↔
    (∃ spec ∈ doc.binds, readVolume spec = a) ∨ ∃ entry ∈ doc.tmpfs, readTmpfs entry.1 = a := by
  have hbinds : valuesOf "-v" (recreation doc.toInspect).opts = doc.binds :=
    (recreation_recreates doc.toInspect).binds
  have htmpfs : valuesOf "--tmpfs" (recreation doc.toInspect).opts = doc.tmpfs.map Prod.fst :=
    runOpts_tmpfs doc.toInspect
  rw [exists_attaching, hbinds, htmpfs]
  simp only [List.mem_map, exists_exists_and_eq_and]

theorem readVolume_not_tmpfs (spec : String) : (readVolume spec).kind ≠ .tmpfs := by
  rw [readVolume]
  split
  · dsimp only
    split <;> exact nofun
  · exact nofun

/-- The path of a tmpfs is read as another entry where the two are joined by a colon. -/
theorem readTmpfs_eq_iff {path : String} {entry : String × String} :
    readTmpfs path = tmpfsAttachment entry ↔
      ':' ∉ entry.1.toList ∧
      (path = entry.1 ∧ entry.2 = "" ∨ path = entry.1 ++ ":" ++ entry.2) := by
  have hcolon : ":" = String.ofList [':'] := rfl
  rw [readTmpfs, hcolon]
  cases hcut : Text.cut (String.ofList [':']) path with
  | none =>
      have hfree : ':' ∉ path.toList := by
        intro hmem
        obtain ⟨rest, hpath⟩ := Text.eq_before_append hmem
        rw [Text.cut_eq_some_iff.mpr ⟨Text.not_mem_before ':' path, hpath⟩] at hcut
        cases hcut
      simp only [tmpfsAttachment, Attachment.mk.injEq, true_and]
      constructor
      · rintro ⟨rfl, hempty⟩
        exact ⟨hfree, .inl ⟨rfl, hempty.symm⟩⟩
      · rintro ⟨-, ⟨rfl, hempty⟩ | rfl⟩
        · exact ⟨rfl, hempty.symm⟩
        · exact absurd (by simp) hfree
  | some parts =>
      obtain ⟨first, options⟩ := parts
      obtain ⟨hfree, hpath⟩ := Text.cut_eq_some_iff.mp hcut
      have hmem : ':' ∈ path.toList := by simp [hpath]
      simp only [tmpfsAttachment, Attachment.mk.injEq, true_and]
      constructor
      · rintro ⟨rfl, rfl⟩
        exact ⟨hfree, .inr (hpath.trans String.append_assoc.symm)⟩
      · rintro ⟨hentry, ⟨rfl, -⟩ | hjoined⟩
        · exact absurd hmem hentry
        · rw [String.append_assoc] at hjoined
          have hsame := Text.cut_eq_some_iff.mpr ⟨hentry, hjoined⟩
          rw [hcut] at hsame
          exact Prod.mk.inj (Option.some.inj hsame)

theorem reattaches_iff : Reattaches doc (recreation doc.toInspect) ↔ KeepsStorage doc := by
  have hspecs : ∀ spec ∈ doc.binds, ∃ opt ∈ (recreation doc.toInspect).opts,
      attachmentOf opt = some (readVolume spec) :=
    fun spec hspec => attached_iff.mpr (.inl ⟨spec, hspec, rfl⟩)
  have hentry : ∀ entry ∈ doc.tmpfs, (∃ opt ∈ (recreation doc.toInspect).opts,
      attachmentOf opt = some (tmpfsAttachment entry)) ↔ ':' ∉ entry.1.toList ∧
        (entry.2 = "" ∨ ∃ other ∈ doc.tmpfs, other.1 = entry.1 ++ ":" ++ entry.2) := by
    intro entry hmem
    rw [attached_iff]
    constructor
    · rintro (⟨spec, _, hspec⟩ | ⟨other, hother, hread⟩)
      · exact absurd (congrArg Attachment.kind hspec) (readVolume_not_tmpfs spec)
      · obtain ⟨hfree, ⟨_, hnone⟩ | hjoined⟩ := readTmpfs_eq_iff.mp hread
        · exact ⟨hfree, .inl hnone⟩
        · exact ⟨hfree, .inr ⟨other, hother, hjoined⟩⟩
    · rintro ⟨hfree, hnone | ⟨other, hother, hjoined⟩⟩
      · exact .inr ⟨entry, hmem, readTmpfs_eq_iff.mpr ⟨hfree, .inl ⟨rfl, hnone⟩⟩⟩
      · exact .inr ⟨other, hother, readTmpfs_eq_iff.mpr ⟨hfree, .inr hjoined⟩⟩
  simp only [Reattaches, StoredInspect.recorded, List.mem_append, List.mem_map, or_imp, forall_and,
    forall_exists_index, and_imp, forall_apply_eq_imp_iff₂]
  constructor
  · rintro ⟨⟨_, hmounts⟩, htmpfs⟩
    exact ⟨fun m hm => attached_iff.mp (hmounts m hm), fun entry hmem =>
      (hentry entry hmem).mp (htmpfs entry hmem)⟩
  · rintro ⟨hmounts, htmpfs⟩
    exact ⟨⟨hspecs, fun m hm => attached_iff.mpr (hmounts m hm)⟩,
      fun entry hmem => (hentry entry hmem).mpr (htmpfs entry hmem)⟩

end Options

/-- What is attached to a container is attached again exactly if its mounts are recorded
otherwise too and its tmpfs have no options. -/
theorem storage_reattached_iff (doc : StoredInspect)
    (hdash : Text.startsWith doc.config.image "-" = false) :
    (∃ inv, Reads doc.toInspect inv ∧ Reattaches doc inv) ↔ KeepsStorage doc := by
  rw [exists_reads_iff hdash]
  exact reattaches_iff

/-- A bind and a tmpfs without options. -/
def boundDoc : StoredInspect where
  name := "/db"
  config := { image := "postgres:16" }
  hostConfig := { binds := some ["/srv/db:/var/lib/postgresql:rw"],
                  tmpfs := some (Dict.ofPairs [("/run", "")]) }

theorem storage_reattached_db : ∃ inv, Reads boundDoc.toInspect inv ∧ Reattaches boundDoc inv :=
  (storage_reattached_iff boundDoc (by decide)).mpr ⟨nofun, by decide +kernel⟩

/-- A volume of the database given with `--mount`. -/
def mountedDoc : StoredInspect where
  name := "/db"
  config := { image := "postgres:16" }
  mounts := some [{ type := "volume", source := "pgdata", target := "/var/lib/postgresql" }]

/-- The volume is not attached to the container that takes its place. -/
theorem mount_not_reattached :
    ¬ ∃ inv, Reads mountedDoc.toInspect inv ∧ Reattaches mountedDoc inv := by
  have hdash : Text.startsWith mountedDoc.config.image "-" = false := by decide
  rw [exists_reads_iff hdash, reattaches_iff]
  rintro ⟨hmounts, _⟩
  have hnone := hmounts _ List.mem_cons_self
  revert hnone
  decide +kernel

end Keepup.Docker
