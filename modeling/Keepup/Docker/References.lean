import Keepup.Docker.Compose
import Keepup.Schedules.UpdatePaths
import Mathlib.Data.List.TakeWhile

/-!
The references of the SSH backend, from the discovery that writes them to the
update and the label that read them. The names are encoded one by one but decoded
all at once, before the reference is taken apart.
-/

namespace Keepup.Docker.Compose

open Lib Schedules

/-- The reference under the slug of a host. -/
def makeRef (slug : HostSlug) : ContainerRef → String
  | .compose project container => makeComposeRef slug.text project container
  | .standalone container => makeStandaloneRef slug.text container

/-- The label of a reference on a page. -/
def describeRef (ref : String) : Except UpdateError String :=
  match Text.cut "/" ref with
  | none => .error (.valueError "not enough values to unpack (expected 2, got 1)")
  | some (_, encoded) =>
      let rest := Percent.unquote encoded
      if Text.startsWith rest "~" then .ok (String.ofList (rest.toList.drop 1))
      else .ok (Text.before ':' rest)

/-- The first Docker host of a slug. -/
def dockerHost (config : Config) (slug : HostSlug) : Option HostEntry :=
  (config.getHosts.filter fun host => Text.given host.dockerMode).find? fun host =>
    host.slug == slug.text

/-- What a reference is for. -/
def job : ContainerRef → Job
  | .compose project _ => .project project
  | .standalone container => .standalone container

def jobName : Job → String
  | .project name => name
  | .standalone containerName => containerName

/-- The update finds the host and the project or the container that the reference was
made for, and so does the label. -/
def RoundTrips (config : Config) (slug : HostSlug) (ref : ContainerRef) : Prop :=
  (∀ host, dockerHost config slug = some host →
    updateStack Percent.unquote config (makeRef slug ref) = .ok (host, job ref)) ∧
  describeRef (makeRef slug ref) = .ok (jobName (job ref))

/-- The names of the reference as they stand side by side once decoded. -/
def decoded : ContainerRef → String
  | .compose project container => project ++ ":" ++ container
  | .standalone container => "~" ++ container

/-- The name of a project has no colon and does not begin with a tilde. -/
def Plain : ContainerRef → Prop
  | .compose project _ => ':' ∉ project.toList ∧ project.toList.head? ≠ some '~'
  | .standalone _ => True

section Decoding

variable {config : Config} {slug : HostSlug} {ref : ContainerRef}

theorem makeRef_text : (makeRef slug ref).toList = slug.text.toList ++ '/' :: ref.chars := by
  cases ref <;> simp [makeRef, makeComposeRef, makeStandaloneRef, ContainerRef.chars]

theorem cut_makeRef :
    Text.cut "/" (makeRef slug ref) = some (slug.text, String.ofList ref.chars) := by
  have hslash : "/".toList = ['/'] := rfl
  rw [Text.cut, makeRef_text, hslash, Text.cutChars_char (slug.not_mem (by decide)),
    Option.map_some,
    String.ofList_toList]

theorem isAscii_chars : ∀ c ∈ ref.chars, Percent.isAscii c = true := by
  intro c hc
  cases ref with
  | compose project container =>
      rcases List.mem_append.mp hc with hproject | hrest
      · exact Percent.isAscii_quote project c hproject
      · rcases List.mem_cons.mp hrest with rfl | hcontainer
        · rfl
        · exact Percent.isAscii_quote container c hcontainer
  | standalone container =>
      rcases List.mem_cons.mp hc with rfl | hcontainer
      · rfl
      · exact Percent.isAscii_quote container c hcontainer

theorem encodes_chars : Percent.Encodes ref.chars (decoded ref).toByteArray.data.toList := by
  have hcolon : Percent.Encodes [':'] ":".toByteArray.data.toList :=
    Percent.encodes_char (by decide)
  have htilde : Percent.Encodes ['~'] "~".toByteArray.data.toList :=
    Percent.encodes_char (by decide)
  cases ref with
  | compose project container =>
      have hjoined := ((Percent.encodes_quote project).append hcolon).append
        (Percent.encodes_quote container)
      simpa [decoded, ContainerRef.chars, String.toByteArray_append, ByteArray.data_append]
        using hjoined
  | standalone container =>
      have hjoined := htilde.append (Percent.encodes_quote container)
      simpa [decoded, ContainerRef.chars, String.toByteArray_append, ByteArray.data_append]
        using hjoined

/-- Decoding the names at once is decoding each of them. -/
theorem unquote_chars : Percent.unquote (String.ofList ref.chars) = decoded ref :=
  Percent.unquote_of_encodes (by simpa using isAscii_chars) (by simpa using encodes_chars)

end Decoding

section Reading

variable {config : Config} {slug : HostSlug} {ref : ContainerRef} {project container : String}

theorem startsWith_tilde (s : String) :
    Text.startsWith s "~" = true ↔ s.toList.head? = some '~' := by
  have htilde : "~".toList = ['~'] := rfl
  rw [Text.startsWith, htilde, List.isPrefixOf_iff_prefix]
  cases s.toList with
  | nil => simp
  | cons c cs =>
      rw [List.cons_prefix_cons, List.head?_cons, Option.some_inj]
      exact ⟨fun h => h.1.symm, fun h => ⟨h.symm, List.nil_prefix⟩⟩

theorem decoded_compose_toList : (decoded (.compose project container)).toList =
    project.toList ++ ':' :: container.toList := by
  simp [decoded]

/-- A project is taken for a container where its name begins with a tilde. -/
theorem startsWith_decoded_compose :
    Text.startsWith (decoded (.compose project container)) "~" = true ↔
      project.toList.head? = some '~' := by
  rw [startsWith_tilde, decoded_compose_toList]
  cases project.toList with
  | nil => exact iff_of_false nofun nofun
  | cons c x => rfl

theorem describeRef_makeRef : describeRef (makeRef slug ref) =
    .ok (if Text.startsWith (decoded ref) "~" = true
      then String.ofList ((decoded ref).toList.drop 1)
      else Text.before ':' (decoded ref)) := by
  simp only [describeRef, cut_makeRef, unquote_chars]
  split <;> rfl

theorem tilde_moved {x rest : List Char} (h : x ++ ':' :: rest = '~' :: x) : False := by
  have hcount := congrArg (List.count ':') h
  rw [List.count_append, List.count_cons_self, List.count_cons_of_ne (by decide)] at hcount
  omega

/-- The label is the name of the project only where that is plain. -/
theorem describeRef_compose_iff :
    describeRef (makeRef slug (.compose project container)) = .ok project ↔
    Plain (.compose project container) := by
  rw [describeRef_makeRef, Except.ok.injEq, ← String.toList_inj]
  by_cases htilde : project.toList.head? = some '~'
  · rw [if_pos (startsWith_decoded_compose.mpr htilde), String.toList_ofList,
      decoded_compose_toList]
    refine iff_of_false (fun h => ?_) fun hplain => hplain.2 htilde
    cases hproject : project.toList with
    | nil =>
        rw [hproject] at htilde
        cases htilde
    | cons c x =>
        rw [hproject] at htilde h
        obtain rfl := Option.some.inj htilde
        exact (tilde_moved h).elim
  · rw [if_neg (mt startsWith_decoded_compose.mp htilde)]
    constructor
    · intro h
      refine ⟨fun hcolon => ?_, htilde⟩
      rw [← h, Text.before, String.toList_ofList] at hcolon
      simpa using List.mem_takeWhile_imp hcolon
    · rintro ⟨hcolon, _⟩
      have hdecoded : decoded (.compose project container) =
          project ++ (String.ofList [':'] ++ container) := by
        rw [← String.toList_inj, decoded_compose_toList]
        simp
      rw [hdecoded, Text.before_append hcolon]

theorem updateStack_tilde {host : HostEntry} (hhost : dockerHost config slug = some host)
    (htilde : Text.startsWith (decoded ref) "~" = true) :
    updateStack Percent.unquote config (makeRef slug ref) =
      .ok (host, .standalone (String.ofList ((decoded ref).toList.drop 1))) := by
  rw [dockerHost] at hhost
  simp only [updateStack, cut_makeRef, unquote_chars, hhost, if_pos htilde]

theorem updateStack_project {host : HostEntry} (hhost : dockerHost config slug = some host)
    (htilde : ¬ Text.startsWith (decoded ref) "~" = true)
    (hcut : Text.cut ":" (decoded ref) = some (project, container)) :
    updateStack Percent.unquote config (makeRef slug ref) = .ok (host, .project project) := by
  rw [dockerHost] at hhost
  simp only [updateStack, cut_makeRef, unquote_chars, hhost, if_neg htilde, hcut]

theorem roundTrips_standalone : RoundTrips config slug (.standalone container) := by
  have htilde : Text.startsWith (decoded (.standalone container)) "~" = true := by
    rw [startsWith_tilde]
    simp [decoded]
  have hrest : String.ofList ((decoded (.standalone container)).toList.drop 1) = container := by
    rw [← String.toList_inj]
    simp [decoded]
  constructor
  · intro host hhost
    rw [updateStack_tilde hhost htilde, hrest]
    rfl
  · rw [describeRef_makeRef, if_pos htilde, hrest]
    rfl

theorem roundTrips_compose (hplain : Plain (.compose project container)) :
    RoundTrips config slug (.compose project container) := by
  have hcolon : ":".toList = [':'] := rfl
  have hcut : Text.cut ":" (decoded (.compose project container)) = some (project, container) := by
    rw [Text.cut, decoded_compose_toList, hcolon, Text.cutChars_char hplain.1, Option.map_some,
      String.ofList_toList, String.ofList_toList]
  constructor
  · intro host hhost
    exact updateStack_project hhost (mt startsWith_decoded_compose.mp hplain.2) hcut
  · exact describeRef_compose_iff.mpr hplain

end Reading

/-- A reference to a container of its own always comes back, one to a project exactly
where the name of the project is plain. -/
theorem reference_round_trips_iff (config : Config) (slug : HostSlug) (ref : ContainerRef) :
    RoundTrips config slug ref ↔ Plain ref := by
  cases ref with
  | compose project container =>
      exact ⟨fun h => describeRef_compose_iff.mp h.2, roundTrips_compose⟩
  | standalone container => exact iff_of_true roundTrips_standalone trivial

def nas : HostEntry := { name := "nas", host := "10.0.0.5", dockerMode := some "all" }

def nasSlug : HostSlug := ⟨"nas", "nas", by decide +kernel⟩

/-- The update of a project `shop:eu` goes to the project `shop`. -/
theorem colon_updates_other_project :
    dockerHost { hosts := [nas] } nasSlug = some nas ∧
      updateStack Percent.unquote { hosts := [nas] } (makeRef nasSlug (.compose "shop:eu" "web")) =
        .ok (nas, .project "shop") ∧
      ¬ RoundTrips { hosts := [nas] } nasSlug (.compose "shop:eu" "web") := by
  have hhost : dockerHost { hosts := [nas] } nasSlug = some nas := by decide +kernel
  have hcut : Text.cut ":" (decoded (.compose "shop:eu" "web")) = some ("shop", "eu:web") := by
    decide +kernel
  refine ⟨hhost, ?_, fun h => ?_⟩
  · exact updateStack_project hhost (by decide +kernel) hcut
  · exact (describeRef_compose_iff.mp h.2).1 (by decide)

end Keepup.Docker.Compose
