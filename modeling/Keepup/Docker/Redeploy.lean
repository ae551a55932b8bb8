import Keepup.Docker.SelfUpdate

/-!
What a redeploy of a Compose project names. `docker ps` gives the labels of a
container as one text, in which commas stand between labels and within them. Of the
configuration files of a project the first is used, where it is on the host.
-/

namespace Keepup.Docker.Compose

open Lib Remote

section Recorded

/-- A container with its labels. -/
structure Labelled where
  id : String
  labels : List (String × String)

/-- As `docker ps` lists it. -/
def labelText (labels : List (String × String)) : String :=
  Text.joinOn ',' (labels.map fun label => label.1 ++ "=" ++ label.2)

def Labelled.row (c : Labelled) : PsRow := ⟨c.id, labelText c.labels⟩

/-- The keys and values that a text of labels can be read as, piece by piece. -/
def readings (labels : List (String × String)) : List (String × String) :=
  (Text.splitOn ',' (labelText labels)).filterMap fun piece =>
    (Text.cut "=" piece).map fun kv => (Text.strip kv.1, Text.strip kv.2)

def filesLabel : String := projectLabel ++ ".config_files"

def dirLabel : String := projectLabel ++ ".working_dir"

/-- A container has a label, and its text can be read under that key in one way only. -/
structure Gives (labels : List (String × String)) (key value : String) : Prop where
  mem : (key, value) ∈ labels
  once : ∀ r ∈ readings labels, ∀ r' ∈ readings labels, r.1 = key → r'.1 = key → r = r'

/-- A project as it was started. -/
structure Project where
  name : String
  file : String
  moreFiles : List String
  workingDir : String

def Project.files (p : Project) : List String := p.file :: p.moreFiles

def IsRelative (path : String) : Prop := Text.startsWith path "/" = false

/-- The labels of a container of the project. -/
structure Records (labels : List (String × String)) (p : Project) : Prop where
  name : Gives labels projectLabel p.name
  files : Gives labels filesLabel (Text.joinOn ',' p.files)
  workingDir : IsRelative p.file → Gives labels dirLabel p.workingDir

/-- The labels of a container of another project, or of none. -/
def Apart (labels : List (String × String)) (p : Project) : Prop :=
  ∀ r ∈ readings labels, r.1 = projectLabel → r.2 ≠ p.name

/-- The path of a configuration file, from the root. -/
def Project.path (p : Project) (file : String) : String :=
  if Text.startsWith file "/" then file else Text.rstripChar '/' p.workingDir ++ "/" ++ file

/-- Texts that come through the text of labels as they are. -/
structure Project.Legible (p : Project) : Prop where
  name_ne : p.name ≠ ""
  name_comma : ',' ∉ p.name.toList
  name_trimmed : Text.strip p.name = p.name
  files : ∀ file ∈ p.files, file ≠ "" ∧ ',' ∉ file.toList ∧ '=' ∉ file.toList
  file_trimmed : Text.strip p.file = p.file
  absolute : IsRelative p.file → Text.startsWith p.workingDir "/" = true
  dir_comma : IsRelative p.file → ',' ∉ p.workingDir.toList
  dir_trimmed : IsRelative p.file → Text.strip p.workingDir = p.workingDir
  dir_ne_root : IsRelative p.file → ∃ c ∈ p.workingDir.toList, c ≠ '/'

end Recorded

section Reading

variable {labels : List (String × String)} {p : Project} {key value : String}

theorem foldl_readings (pieces : List String) (d : Dict String String) :
    pieces.foldl (fun result part =>
        match Text.cut "=" part with
        | some (k, v) => result.set (Text.strip k) (Text.strip v)
        | none => result) d =
      (pieces.filterMap fun piece =>
        (Text.cut "=" piece).map fun kv => (Text.strip kv.1, Text.strip kv.2)).foldl
          (fun d r => d.set r.1 r.2) d := by
  induction pieces generalizing d with
  | nil => rfl
  | cons piece pieces ih =>
      rw [List.foldl_cons, ih, List.filterMap_cons]
      cases Text.cut "=" piece with
      | none => rfl
      | some kv => rfl

theorem parse_labelText (labels : List (String × String)) :
    parseDockerPsLabels (labelText labels) = Dict.ofPairs (readings labels) := foldl_readings _ ∅

/-- The first piece of a label is among the readings. -/
theorem reading_of_mem (hcomma : ',' ∉ key.toList) (hequals : '=' ∉ key.toList)
    (htrimmed : Text.strip key = key) (hmem : (key, value) ∈ labels) :
    (key, Text.strip (Text.before ',' value)) ∈ readings labels := by
  have hne : (labels.map fun label => label.1 ++ "=" ++ label.2) ≠ [] := by
    intro hnil
    rw [List.map_eq_nil_iff.mp hnil] at hmem
    cases hmem
  have hpiece : key ++ ("=" ++ Text.before ',' value) ∈ Text.splitOn ',' (key ++ "=" ++ value) := by
    have hfree : ',' ∉ (key ++ "=").toList := by simp [hcomma]
    rw [← String.append_assoc, ← Text.before_append_free hfree]
    exact Text.splitOn_before ',' _
  refine List.mem_filterMap.mpr ⟨key ++ ("=" ++ Text.before ',' value), ?_, ?_⟩
  · rw [labelText, Text.splitOn_joinOn ',' hne, List.mem_flatMap]
    exact ⟨_, List.mem_map_of_mem hmem, hpiece⟩
  · have hcut := Text.cut_char hequals (Text.before ',' value)
    rw [show ("=" : String) = String.ofList ['='] from rfl, hcut, Option.map_some, htrimmed]

theorem Gives.get? (h : Gives labels key value) (hcomma : ',' ∉ key.toList)
    (hequals : '=' ∉ key.toList) (htrimmed : Text.strip key = key) :
    (parseDockerPsLabels (labelText labels)).get? key =
      some (Text.strip (Text.before ',' value)) := by
  have hmem := reading_of_mem hcomma hequals htrimmed h.mem
  rw [parse_labelText]
  exact Dict.get?_ofPairs_of_mem hmem fun other hother hkey => h.once other hother _ hmem hkey rfl

theorem composeKeys : ∀ key ∈ [projectLabel, filesLabel, dirLabel],
    ',' ∉ key.toList ∧ '=' ∉ key.toList ∧ Text.strip key = key := by
  decide +kernel

/-- A text without commas, and without blanks around it, is read as it is. -/
theorem Gives.getD (h : Gives labels key value) (hkey : key ∈ [projectLabel, filesLabel, dirLabel])
    {text : String} (hbefore : Text.before ',' value = text) (htext : Text.strip text = text) :
    (parseDockerPsLabels (labelText labels)).getD key "" = text := by
  obtain ⟨hcomma, hequals, htrimmed⟩ := composeKeys key hkey
  rw [Dict.getD, h.get? hcomma hequals htrimmed, hbefore, htext, Option.getD_some]

theorem before_joinOn {file : String} (hfile : ',' ∉ file.toList) (more : List String) :
    Text.before ',' (Text.joinOn ',' (file :: more)) = file := by
  cases more with
  | nil => exact Text.before_free hfile
  | cons next more => exact Text.before_append hfile (Text.joinOn ',' (next :: more))

theorem rstripChar_ne {c : Char} {s : String} (h : ∃ d ∈ s.toList, d ≠ c) :
    Text.rstripChar c s ≠ "" := by
  obtain ⟨d, hd, hne⟩ := h
  intro hempty
  have hnil : s.toList.reverse.dropWhile (· == c) = [] := by
    have hlist := congrArg String.toList hempty
    simpa [Text.rstripChar, Text.dropEndWhile] using hlist
  have hall := List.dropWhile_eq_nil_iff.mp hnil d (List.mem_reverse.mpr hd)
  exact hne (by simpa using hall)

/-- A container of the project says so, and its configuration file is the first one. -/
theorem row_recorded (hrecords : Records labels p) (hlegible : p.Legible) (id : String) :
    (Labelled.row ⟨id, labels⟩).project = p.name ∧
      (Labelled.row ⟨id, labels⟩).configFile = p.path p.file := by
  obtain ⟨hfile_ne, hfile_comma, _⟩ := hlegible.files p.file List.mem_cons_self
  refine ⟨hrecords.name.getD (by simp) (Text.before_free hlegible.name_comma) hlegible.name_trimmed,
    ?_⟩
  have hfiles : (parseDockerPsLabels (labelText labels)).getD (projectLabel ++ ".config_files") "" =
      p.file :=
    hrecords.files.getD (by simp) (before_joinOn hfile_comma p.moreFiles) hlegible.file_trimmed
  have hfirst : Text.strip (Text.before ',' p.file) = p.file := by
    rw [Text.before_free hfile_comma, hlegible.file_trimmed]
  rw [PsRow.configFile, Labelled.row]
  dsimp only
  rw [hfiles, hfirst, Project.path]
  cases habsolute : Text.startsWith p.file "/" with
  | true => simp
  | false =>
      have hdir : (parseDockerPsLabels (labelText labels)).getD
        (projectLabel ++ ".working_dir") "" =
          p.workingDir :=
        (hrecords.workingDir habsolute).getD (by simp)
          (Text.before_free (hlegible.dir_comma habsolute))
          (hlegible.dir_trimmed habsolute)
      rw [hdir, hlegible.dir_trimmed habsolute]
      simp [hfile_ne, rstripChar_ne (hlegible.dir_ne_root habsolute)]

theorem path_ne (hlegible : p.Legible) : p.path p.file ≠ "" := by
  rw [Project.path]
  split
  · exact (hlegible.files p.file List.mem_cons_self).1
  · simp

/-- A container apart from the project is not taken for one of it. -/
theorem row_apart (hapart : Apart labels p) (hlegible : p.Legible) (id : String) :
    (Labelled.row ⟨id, labels⟩).project ≠ p.name := by
  rw [PsRow.project, Labelled.row, Dict.getD, parse_labelText]
  cases h : (Dict.ofPairs (readings labels)).get? projectLabel with
  | none => exact hlegible.name_ne.symm
  | some name => exact hapart _ (Dict.mem_of_get?_ofPairs h) rfl

end Reading

section Lookup

/-- What one container adds to the projects that are known. -/
def addRow (byProject : Dict String String) (row : PsRow) : Dict String String :=
  let name := row.project
  let cf := row.configFile
  if name = "" then byProject
  else
    match byProject.get? name with
    | none => byProject.set name cf
    | some known => if cf ≠ "" ∧ known = "" then byProject.set name cf else byProject

theorem composeProjectsFromPs_eq (rows : List PsRow) :
    composeProjectsFromPs rows = rows.foldl addRow ∅ := rfl

variable {byProject : Dict String String} {row : PsRow} {rows : List PsRow} {name path : String}

theorem addRow_other (h : row.project ≠ name) :
    (addRow byProject row).get? name = byProject.get? name := by
  rw [addRow]
  split
  · rfl
  · split
    · rw [Dict.get?_set_ne _ _ h.symm]
    · split
      · rw [Dict.get?_set_ne _ _ h.symm]
      · rfl

theorem addRow_own (hname : name ≠ "") (hpath : path ≠ "") (hproject : row.project = name)
    (hfile : row.configFile = path)
    (h : byProject.get? name = none ∨ byProject.get? name = some path) :
    (addRow byProject row).get? name = some path := by
  rw [addRow, hproject, hfile]
  rcases h with hnone | hknown
  · simp [hname, hnone]
  · simp [hname, hknown, hpath]

/-- The file of a project whose containers agree. -/
theorem foldl_addRow (hname : name ≠ "") (hpath : path ≠ "")
    (hrows : ∀ row ∈ rows, row.project = name → row.configFile = path)
    (h : byProject.get? name = some path ∨
      byProject.get? name = none ∧ ∃ row ∈ rows, row.project = name) :
    (rows.foldl addRow byProject).get? name = some path := by
  induction rows generalizing byProject with
  | nil => simpa using h
  | cons row rows ih =>
      have hrest : ∀ row ∈ rows, row.project = name → row.configFile = path :=
        fun other hother => hrows other (List.mem_cons_of_mem row hother)
      rw [List.foldl_cons]
      by_cases hproject : row.project = name
      · refine ih hrest (.inl
          (addRow_own hname hpath hproject (hrows row List.mem_cons_self hproject) ?_))
        exact h.symm.imp_left And.left
      · refine ih hrest ?_
        rw [addRow_other hproject]
        refine h.imp_right fun ⟨hnone, other, hother, hown⟩ => ⟨hnone, other, ?_, hown⟩
        exact (List.mem_cons.mp hother).resolve_left fun heq => hproject (heq ▸ hown)

end Lookup

section Words

/-- The words of a command as it arrives, plain or for the shell inside a Proxmox guest. -/
def arrivingWords (text : String) : Option (List String) :=
  match Shell.words text with
  | some ["pct", "exec", _, "--", "sh", "-c", inner] => Shell.words inner
  | args => args

/-- A call of Compose with its arguments. -/
def composeWords (binary : List String) (project : String) (files action : List String) :
    List String :=
  binary ++ ["-p", project] ++ files.flatMap (fun file => ["-f", file]) ++ action

/-- The arguments that name the project, and its configuration file if there is one. -/
def projectArgs (project configFile : String) : String :=
  "-p " ++ Shell.quote project ++ (if configFile ≠ "" then " -f " ++ Shell.quote configFile else "")

variable {binary action : String} {lead words : List String}

theorem words_compose (hlead : Shell.spells (binary ++ " -p ") (lead ++ ["-p"]) = true)
    (haction : Shell.words (action ++ " 2>&1") = some words) (project configFile : String) :
    Shell.words (binary ++ " " ++ projectArgs project configFile ++ " " ++ action ++ " 2>&1") =
      some (composeWords lead project (if configFile ≠ "" then [configFile] else []) words) := by
  by_cases hfile : configFile = ""
  · have htext : binary ++ " " ++ projectArgs project configFile ++ " " ++ action ++ " 2>&1" =
        binary ++ " -p " ++ (Shell.quote project ++ (" " ++ (action ++ " 2>&1"))) := by
      apply String.toList_inj.mp
      simp [projectArgs, hfile]
    rw [htext, Shell.words_lead hlead, Shell.words_quote_blank, haction]
    simp [composeWords, hfile]
  · have hflag : Shell.spells "-f " ["-f"] = true := by decide
    have htext : binary ++ " " ++ projectArgs project configFile ++ " " ++ action ++ " 2>&1" =
        binary ++ " -p " ++ (Shell.quote project ++ (" " ++ ("-f " ++ (Shell.quote configFile ++
          (" " ++ (action ++ " 2>&1")))))) := by
      apply String.toList_inj.mp
      simp [projectArgs, hfile]
    rw [htext, Shell.words_lead hlead, Shell.words_quote_blank, Shell.words_lead hflag,
      Shell.words_quote_blank, haction]
    simp [composeWords, hfile]

/-- A command arrives as it is written, unless it is one of `pct` itself. -/
theorem arrivingWords_wrap (t : Target) {cmd : String} {args : List String}
    (hwords : Shell.words cmd = some args) (hpct : args.head? ≠ some "pct") :
    arrivingWords (t.wrap cmd) = some args := by
  rw [Target.wrap]
  split
  · rw [arrivingWords, hwords]
    split
    · rename_i hargs
      rw [Option.some.inj hargs] at hpct
      exact absurd rfl hpct
    · rfl
  · rw [arrivingWords, words_pct]
    exact hwords

end Words

section Trace

variable {lower : String → String} {t : Target} {connected active : Bool}
variable {rows rows' : List PsRow} {fates : Nat → Call → Fate} {n : Nat} {call : Call}

theorem serve_rows (rows : List PsRow) (call : Call) (fate : Fate) :
    (serve rows call fate).1 = rows := by
  cases fate with
  | lost => rfl
  | ended reply =>
      rw [serve]
      split <;> rfl

/-- No command changes the containers that are listed. -/
theorem exec_rows {α : Type} {prog : Update α} {result : Except UpdateError α}
    (h : exec serve fates n prog rows = (rows', result)) : rows' = rows := by
  have hkept : (exec serve fates n prog rows).1 = rows :=
    exec_sent (P := fun _ => True) (I := fun s => s = rows)
      (fun s call fate _ hs => (serve_rows s call fate).trans hs) (fun _ _ => trivial) rfl
  rw [h] at hkept
  exact hkept

/-- What `docker ps` and `test -f` answer on a host with these containers, on which the
path is a file or is not. -/
structure Answers (t : Target) (path : String) (onHost : Bool) (fates : Nat → Call → Fate) :
    Prop where
  listed : ∀ n call reply, call.site = .configPs → fates n call = .ended reply →
    reply.result.returncode = some 0
  tested : ∀ n reply,
    fates n ⟨.testFile, t.wrap ("test -f " ++ Shell.quote path ++ " && echo exists")⟩ =
      .ended reply →
      Text.isIn "exists" reply.result.stdout.toText = onHost

variable {name path configFile : String} {onHost : Bool}

/-- The configuration file is looked up in what `docker ps` lists. -/
theorem getConfigFile_result (h : Answers t path onHost fates)
    (hexec : exec serve fates n (getConfigFile t name) rows = (rows', .ok configFile)) :
    configFile = (composeProjectsFromPs rows).getD name "" := by
  let call : Call := ⟨.configPs, t.wrap psText⟩
  cases hfate : fates n call with
  | lost =>
      have hserve : serve rows call (fates n call) = (rows, .error .connection) := by
        rw [hfate]; rfl
      rw [getConfigFile, send, perform_bind, exec_call_error hserve] at hexec
      cases hexec
  | ended reply =>
      have hcode := h.listed n call reply rfl hfate
      have hserve : serve rows call (fates n call) = (rows, .ok (.listed (some 0) rows)) := by
        rw [hfate, serve, if_pos ⟨.inr rfl, hcode⟩]
      rw [getConfigFile, send, perform_bind, exec_call_ok hserve] at hexec
      cases hexec
      rfl

/-- A stack of Portainer is not updated over SSH. -/
theorem refusePortainerStack_raises (configFile : String) :
    (refusePortainerStack lower t name connected active configFile).Returns fun _ => False := by
  rw [refusePortainerStack]
  refine returns_bind (fun known => ?_) _
  refine returns_ite ?_ (returns_ite ?_ ?_) <;> trivial

/-- A file on the host is used. One that is not there is left out, unless it is
Portainer's own. -/
theorem checkConfigFile_result (h : Answers t path onHost fates) (hpath : path ≠ "")
    {lines lines' : List String}
    (hexec : exec serve fates n (checkConfigFile lower t name connected active path lines) rows =
      (rows', .ok (configFile, lines'))) :
    configFile = (if onHost then path else "") ∧
      (onHost = false → Text.startsWith path "/data/compose/" = false) := by
  let call : Call := ⟨.testFile, t.wrap ("test -f " ++ Shell.quote path ++ " && echo exists")⟩
  cases hfate : fates n call with
  | lost =>
      have hserve : serve rows call (fates n call) = (rows, .error .connection) := by
        rw [hfate]; rfl
      rw [checkConfigFile, if_neg hpath, send, perform_bind, exec_call_error hserve] at hexec
      cases hexec
  | ended reply =>
      have hserve : serve rows call (fates n call) = (rows, .ok reply) := by
        rw [hfate, serve, if_neg (by simp [call])]
      rw [checkConfigFile, if_neg hpath, send, perform_bind, exec_call_ok hserve,
        h.tested n reply hfate] at hexec
      cases onHost with
      | true =>
          cases hexec
          exact ⟨rfl, fun honHost => Bool.noConfusion honHost⟩
      | false =>
          rw [if_neg Bool.false_ne_true] at hexec
          split at hexec
          · have hraises := exec_returns (refusePortainerStack_raises path)
              (congrArg Prod.snd hexec)
            exact hraises.elim
          · rename_i hportainer
            cases hexec
            exact ⟨rfl, fun _ => Bool.eq_false_iff.mpr hportainer⟩

/-- A command of Compose on the project, with these configuration files. -/
def NamesProject (name : String) (files : List String) (call : Call) : Prop :=
  ∃ binary ∈ [["docker", "compose"], ["docker-compose"]], arrivingWords call.text =
    some (composeWords binary name files (if call.site = .pull then ["pull"] else ["up", "-d"]))

def IsBinary (binary : String) : Prop := binary = "docker compose" ∨ binary = "docker-compose"

theorem detectComposeBinary_result {binary : String}
    (hexec : exec serve fates n (detectComposeBinary t) rows = (rows', .ok binary)) :
    IsBinary binary := by
  let call : Call := ⟨.probe, t.wrap composeProbe⟩
  rw [detectComposeBinary, send, perform_bind] at hexec
  cases hserve : serve rows call (fates n call) with
  | mk rows₁ result =>
      cases result with
      | error e =>
          rw [exec_call_error hserve] at hexec
          cases hexec
      | ok reply =>
          rw [exec_call_ok hserve] at hexec
          dsimp only at hexec
          generalize Text.strip
            ((Text.splitLines (Text.strip reply.result.stdout.toText)).getLastD "") =
            flavour at hexec
          split at hexec
          · cases hexec
            exact .inl rfl
          · split at hexec
            · cases hexec
              exact .inr rfl
            · cases hexec

theorem compose_only (t : Target) (site : Site) (binary args action : String)
    (lines : List String) :
    (compose t site binary args action lines).Only fun call =>
      call = ⟨site, t.wrap (binary ++ " " ++ args ++ " " ++ action ++ " 2>&1")⟩ := by
  rw [compose, send, perform_bind]
  refine ⟨rfl, fun reply => ?_⟩
  dsimp only
  split <;> trivial

/-- Both commands name the project and the file that was found. -/
theorem names_compose {binary : String} (hbinary : IsBinary binary)
    {site : Site} {action : String}
    (haction : site = .pull ∧ action = "pull" ∨ site = .up ∧ action = "up -d")
    (t : Target) (name configFile : String) :
    NamesProject name (if configFile ≠ "" then [configFile] else [])
      ⟨site, t.wrap (binary ++ " " ++ projectArgs name configFile ++
        " " ++ action ++ " 2>&1")⟩ := by
  have hwords : ∃ lead, lead ∈ [["docker", "compose"], ["docker-compose"]] ∧
      Shell.spells (binary ++ " -p ") (lead ++ ["-p"]) = true := by
    rcases hbinary with rfl | rfl
    · exact ⟨["docker", "compose"], by simp, by decide⟩
    · exact ⟨["docker-compose"], by simp, by decide⟩
  have hlast : Shell.words (action ++ " 2>&1") =
      some (if site = .pull then ["pull"] else ["up", "-d"]) := by
    rcases haction with ⟨rfl, rfl⟩ | ⟨rfl, rfl⟩ <;> decide
  obtain ⟨lead, hlead, hspells⟩ := hwords
  refine ⟨lead, hlead, arrivingWords_wrap t (words_compose hspells hlast name configFile) ?_⟩
  rcases List.mem_pair.mp hlead with rfl | rfl <;> simp [composeWords]

/-- A command that changes nothing. -/
def Quiet (call : Call) : Prop := call.site ≠ .pull ∧ call.site ≠ .up

theorem quiet_send (t : Target) (site : Site) (hpull : site ≠ .pull) (hup : site ≠ .up)
    (cmd : String) :
    (send t site cmd).Only Quiet := ⟨⟨hpull, hup⟩, fun _ => trivial⟩

theorem detectComposeBinary_quiet (t : Target) : (detectComposeBinary t).Only Quiet := by
  refine only_bind (quiet_send t .probe nofun nofun composeProbe) fun reply => ?_
  dsimp only
  generalize Text.strip ((Text.splitLines (Text.strip reply.result.stdout.toText)).getLastD "") =
    flavour
  refine only_ite ?_ (only_ite ?_ ?_) <;> trivial

theorem getConfigFile_quiet (t : Target) (name : String) : (getConfigFile t name).Only Quiet :=
  only_bind (quiet_send t .configPs nofun nofun psText) fun _ => trivial

theorem refusePortainerStack_quiet (configFile : String) :
    (refusePortainerStack lower t name connected active configFile).Only Quiet := by
  refine only_bind ?_ fun known => ?_
  · refine only_ite ⟨⟨nofun, nofun⟩, fun reply => ?_⟩ trivial
    cases reply <;> trivial
  · refine only_ite ?_ (only_ite ?_ ?_) <;> trivial

theorem checkConfigFile_quiet (configFile : String) (lines : List String) :
    (checkConfigFile lower t name connected active configFile lines).Only Quiet := by
  refine only_ite trivial (only_bind (quiet_send t .testFile nofun nofun _) fun reply => ?_)
  exact only_ite trivial (only_ite (refusePortainerStack_quiet configFile) trivial)

/-- The two commands of an update. -/
def composeBoth (t : Target) (binary args : String) (lines : List String) :
    Update (List String) := do
  let lines ← compose t .pull binary args "pull" lines
  let lines ← compose t .up binary args "up -d" lines
  pure (lines ++ ["Compose update complete."])

theorem names_composeBoth {binary : String} (hbinary : IsBinary binary)
    {lines : List String}
    (hcall : call ∈ sent serve fates n
      (composeBoth t binary (projectArgs name configFile) lines) rows) :
    NamesProject name (if configFile ≠ "" then [configFile] else []) call := by
  rcases mem_sent_bind hcall with hpull | ⟨n₁, rows₁, lines₁, _, hcall₁⟩
  · have hcall := sent_only (compose_only t .pull _ _ _ _) fates n rows call hpull
    rw [hcall]
    exact names_compose hbinary (.inl ⟨rfl, rfl⟩) t name configFile
  · rcases mem_sent_bind hcall₁ with hup | ⟨n₂, rows₂, lines₂, _, hcall₂⟩
    · have hcall := sent_only (compose_only t .up _ _ _ _) fates n₁ rows₁ call hup
      rw [hcall]
      exact names_compose hbinary (.inr ⟨rfl, rfl⟩) t name configFile
    · cases hcall₂

theorem pullAndUp_eq (lines : List String) :
    pullAndUp lower t name connected active lines = (do
      let binary ← detectComposeBinary t
      let configFile ← getConfigFile t name
      let used ← checkConfigFile lower t name connected active configFile
        (lines ++ ["Using compose binary: " ++ binary])
      composeBoth t binary (projectArgs name used.1) used.2) := rfl

/-- The commands of an update that was not refused. -/
theorem names_pullAndUp (h : Answers t path onHost fates) (hpath : path ≠ "")
    (hfile : (composeProjectsFromPs rows).getD name "" = path) {lines : List String}
    (hcall : call ∈ sent serve fates n (pullAndUp lower t name connected active lines) rows)
    (hloud : ¬ Quiet call) :
    NamesProject name (if onHost then [path] else []) call ∧
      (onHost = false → Text.startsWith path "/data/compose/" = false) := by
  rw [pullAndUp_eq] at hcall
  rcases mem_sent_bind hcall with hprobe | ⟨n₁, rows₁, binary, hbinary, hcall₁⟩
  · exact absurd (sent_only (detectComposeBinary_quiet t) fates n rows call hprobe) hloud
  obtain rfl := exec_rows hbinary
  have hknown : IsBinary binary := detectComposeBinary_result hbinary
  rcases mem_sent_bind hcall₁ with hps | ⟨n₂, rows₂, configFile, hconfig, hcall₂⟩
  · exact absurd (sent_only (getConfigFile_quiet t name) fates n₁ rows₁ call hps) hloud
  obtain rfl := exec_rows hconfig
  obtain rfl : configFile = path := (getConfigFile_result h hconfig).trans hfile
  rcases mem_sent_bind hcall₂ with htest | ⟨n₃, rows₃, used, hcheck, hcall₃⟩
  · exact absurd (sent_only (checkConfigFile_quiet configFile _) fates n₂ rows₂ call htest) hloud
  obtain ⟨hused, hportainer⟩ := checkConfigFile_result h hpath hcheck
  refine ⟨?_, hportainer⟩
  have hfiles : (if onHost then [configFile] else []) = if used.1 ≠ "" then [used.1] else [] := by
    cases onHost <;> simp [hused, hpath]
  rw [hfiles]
  exact names_composeBoth hknown hcall₃

/-- What an update sends beyond its look-ups, it sends after the check for the own
container. -/
theorem loud_of_update
    (hcall : call ∈ sent serve fates n (updateComposeProject lower t name connected active) rows)
    (hloud : ¬ Quiet call) :
    ∃ m lines, call ∈ sent serve fates m (pullAndUp lower t name connected active lines) rows := by
  rcases mem_sent_call hcall with rfl | ⟨rows₁, r, hconnect, hcall₁⟩
  · exact absurd ⟨nofun, nofun⟩ hloud
  obtain rfl : rows₁ = rows := (congrArg Prod.fst hconnect).symm.trans (serve_rows rows _ _)
  change call ∈ sent serve fates (n + 1) (ite _ _ _) rows₁ at hcall₁
  split at hcall₁
  · rcases mem_sent_bind hcall₁ with hps | ⟨m, rows₂, reply, hreply, hcall₂⟩
    · exact absurd (sent_only (quiet_send t .ps nofun nofun psText) fates _ rows₁ call hps) hloud
    · obtain rfl := exec_rows hreply
      split at hcall₂
      · cases hcall₂
      · exact ⟨m, _, hcall₂⟩
  · exact ⟨_, _, hcall₁⟩

end Trace

section Redeploy

/-- Every pull and every start of an update names the project that it is for, and of the
configuration files of the project exactly the first one, where it is on the host. Where
it is not, no file is named, and nothing is issued for a file of Portainer. -/
theorem redeploy_names_first_file (lower : String → String) (t : Target) (connected active : Bool)
    {containers : List Labelled} {p : Project} (hlegible : p.Legible)
    (hrecorded : ∃ c ∈ containers, Records c.labels p)
    (hcontainers : ∀ c ∈ containers, Records c.labels p ∨ Apart c.labels p) {onHost : Bool}
    {fates : Nat → Call → Fate} (hanswers : Answers t (p.path p.file) onHost fates) :
    ∀ call ∈ sent serve fates 0 (updateComposeProject lower t p.name connected active)
        (containers.map Labelled.row),
      call.site = .pull ∨ call.site = .up →
        NamesProject p.name (if onHost then [p.path p.file] else []) call ∧
          (onHost = false → Text.startsWith (p.path p.file) "/data/compose/" = false) := by
  intro call hcall hsite
  have hloud : ¬ Quiet call := fun hquiet => hsite.elim hquiet.1 hquiet.2
  obtain ⟨m, lines, hsent⟩ := loud_of_update hcall hloud
  have hrows : ∀ row ∈ containers.map Labelled.row, row.project = p.name →
      row.configFile = p.path p.file := by
    intro row hrow hproject
    obtain ⟨c, hc, rfl⟩ := List.mem_map.mp hrow
    rcases hcontainers c hc with hown | hapart
    · exact (row_recorded hown hlegible c.id).2
    · exact absurd hproject (row_apart hapart hlegible c.id)
  have hsome : ∃ row ∈ containers.map Labelled.row, row.project = p.name := by
    obtain ⟨c, hc, hown⟩ := hrecorded
    exact ⟨c.row, List.mem_map_of_mem hc, (row_recorded hown hlegible c.id).1⟩
  have hfile : (composeProjectsFromPs (containers.map Labelled.row)).getD p.name "" =
      p.path p.file := by
    rw [Dict.getD, composeProjectsFromPs_eq,
      foldl_addRow hlegible.name_ne (path_ne hlegible) hrows (.inr ⟨rfl, hsome⟩), Option.getD_some]
  exact names_pullAndUp hanswers (path_ne hlegible) hfile hsent hloud

/-- A project of two files. -/
def web : Project := ⟨"web", "/srv/web.yml", ["/srv/override.yml"], "/srv"⟩

def webContainer : Labelled :=
  ⟨"0123456789ab", [("com.docker.compose.project", "web"),
    ("com.docker.compose.project.config_files", "/srv/web.yml,/srv/override.yml")]⟩

def webHost : Target := ⟨"nas", none, none⟩

/-- A host with Compose v2, on which every file is there and every command succeeds. -/
def webFates (_ : Nat) (call : Call) : Fate :=
  .ended (.completed ⟨some 0, .text (if call.site = .probe then "v2\n" else "exists\n")⟩)

theorem web_answers : Answers webHost (web.path web.file) true webFates where
  listed := by
    rintro n call reply - h
    obtain rfl := Fate.ended.inj h
    rfl
  tested := by
    rintro n reply h
    obtain rfl := Fate.ended.inj h
    decide +kernel

theorem web_absolute : ¬ IsRelative web.file := by
  rw [IsRelative]
  decide +kernel

theorem web_records : Records webContainer.labels web where
  name := ⟨by decide +kernel, by decide +kernel⟩
  files := ⟨by decide +kernel, by decide +kernel⟩
  workingDir h := absurd h web_absolute

theorem web_legible : web.Legible where
  name_ne := by decide +kernel
  name_comma := by decide +kernel
  name_trimmed := by decide +kernel
  files := by decide +kernel
  file_trimmed := by decide +kernel
  absolute h := absurd h web_absolute
  dir_comma h := absurd h web_absolute
  dir_trimmed h := absurd h web_absolute
  dir_ne_root h := absurd h web_absolute

/-- The update of that project. -/
def webCalls : List Call :=
  sent serve webFates 0
    (updateComposeProject String.toLower webHost "web" false false) [webContainer.row]

theorem web_redeploy :
    ∃ call ∈ webCalls, call.site = .pull ∧ NamesProject "web" ["/srv/web.yml"] call := by
  have hpull : ∃ call ∈ webCalls, call.site = .pull := by decide +kernel
  obtain ⟨call, hcall, hsite⟩ := hpull
  have hnamed := redeploy_names_first_file String.toLower webHost false false web_legible
    ⟨webContainer, List.mem_singleton_self _, web_records⟩
    (fun _ hc => .inl (List.mem_singleton.mp hc ▸ web_records)) web_answers call hcall (.inl hsite)
  exact ⟨call, hcall, hsite, hnamed.1⟩

/-- The second file of the project is not named. -/
theorem second_file_not_named : Records webContainer.labels web ∧ web.Legible ∧
    ∃ call ∈ webCalls, call.site = .pull ∧
      call.text = "docker compose -p web -f /srv/web.yml pull 2>&1" ∧
      ¬ NamesProject "web" ["/srv/web.yml", "/srv/override.yml"] call := by
  refine ⟨web_records, web_legible, ?_⟩
  unfold NamesProject
  decide +kernel

end Redeploy

end Keepup.Docker.Compose
