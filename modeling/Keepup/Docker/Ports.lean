import Keepup.Docker.RunReading
import Keepup.Text.Cuts

/-!
The ports that a recreated container publishes. An option `-p` has the form
`[ip:][hostPort]:containerPort[/proto]`, with an IPv6 address in brackets. The command is
built without them, so that the colons of such an address part it.
-/

namespace Keepup.Docker

open Lib Lib.CommandLine

section Publish

/-- A port of the container, with its protocol, and where the host offers it. -/
structure Published where
  address : String
  hostPort : String
  containerPort : String
deriving DecidableEq

/-- An address with colons has to stand in brackets. -/
def readPublish (text : String) : Option Published :=
  if Text.startsWith text "[" then
    match Text.cut "]:" (Text.lstripChar '[' text) with
    | some (address, ports) =>
        match Text.splitOn ':' ports with
        | [hostPort, containerPort] => some ⟨address, hostPort, containerPort⟩
        | _ => none
    | none => none
  else
    match Text.splitOn ':' text with
    | [containerPort] => some ⟨"", "", containerPort⟩
    | [hostPort, containerPort] => some ⟨"", hostPort, containerPort⟩
    | [address, hostPort, containerPort] => some ⟨address, hostPort, containerPort⟩
    | _ => none

example : readPublish "[fd00::1]:8080:80/tcp" = some ⟨"fd00::1", "8080", "80/tcp"⟩ := by
  decide +kernel

/-- Addresses that stand for every interface. -/
def everyInterface : List String := ["", "0.0.0.0", "::"]

def Published.normalized (p : Published) : Published :=
  { p with address := if p.address ∈ everyInterface then "" else p.address }

def HostConfig.bindings (host : HostConfig) : List (String × PortBinding) :=
  (items host.portBindings).flatMap fun port => (port.2.getD []).map (port.1, ·)

def recordedPort (binding : String × PortBinding) : Published where
  address := binding.2.hostIp
  hostPort := binding.2.hostPort
  containerPort := binding.1

/-- Every option can be read, and together they publish what is recorded, in any order. -/
def Republishes (host : HostConfig) (inv : Invocation) : Prop :=
  ∃ published : List Published, (inv.values "-p").map readPublish = published.map some ∧
    (published.map Published.normalized).Perm (host.bindings.map fun b =>
      (recordedPort b).normalized)

/-- A text that has no part in the form of the option. -/
def Unmarked (text : String) : Prop := ':' ∉ text.toList ∧ '[' ∉ text.toList

/-- Ports are digits, with a protocol where it is one of the container, and addresses
have no brackets. -/
structure HostConfig.Publishable (host : HostConfig) : Prop where
  containerPort : ∀ b ∈ host.bindings, Unmarked b.1
  hostPort : ∀ b ∈ host.bindings, Unmarked b.2.hostPort
  address : ∀ b ∈ host.bindings, '[' ∉ b.2.hostIp.toList

/-- The address has no colons, or stands for every interface. -/
def PortBinding.Plain (binding : PortBinding) :
    Prop := binding.hostIp = "::" ∨ ':' ∉ binding.hostIp.toList

instance (binding : PortBinding) : Decidable binding.Plain := by
  unfold PortBinding.Plain
  infer_instance

end Publish

section Reading

variable {containerPort hostPort address : String}

theorem not_bracketed {text : String} (h : '[' ∉ text.toList) :
    Text.startsWith text "[" = false := by
  rw [Bool.eq_false_iff]
  intro hstarts
  obtain ⟨rest, hrest⟩ := List.isPrefixOf_iff_prefix.mp hstarts
  apply h
  rw [← hrest]
  exact List.mem_append_left _ (List.mem_singleton_self '[')

theorem readPublish_port (hc : Unmarked containerPort) :
    readPublish containerPort = some ⟨"", "", containerPort⟩ := by
  rw [readPublish, not_bracketed hc.2, Text.splitOn_last hc.1]
  rfl

theorem readPublish_ports (hh : Unmarked hostPort) (hc : Unmarked containerPort) :
    readPublish (hostPort ++ ":" ++ containerPort) = some ⟨"", hostPort, containerPort⟩ := by
  have htext : '[' ∉ (hostPort ++ ":" ++ containerPort).toList := by simp [hh.2, hc.2]
  have hcolon : ":" = String.ofList [':'] := rfl
  rw [readPublish, not_bracketed htext, hcolon, String.append_assoc, Text.splitOn_piece hh.1,
    Text.splitOn_last hc.1]
  rfl

/-- An address before two ports is read where it has no colon. -/
theorem readPublish_address (ha : '[' ∉ address.toList) (hh : Unmarked hostPort)
    (hc : Unmarked containerPort) :
    readPublish (address ++ ":" ++ hostPort ++ ":" ++ containerPort) =
      if ':' ∈ address.toList then none else some ⟨address, hostPort, containerPort⟩ := by
  have htext : '[' ∉ (address ++ ":" ++ hostPort ++ ":" ++ containerPort).toList := by
    simp [ha, hh.2, hc.2]
  have hcolon : ":" = String.ofList [':'] := rfl
  rw [readPublish, not_bracketed htext, if_neg Bool.false_ne_true, hcolon, String.append_assoc,
    String.append_assoc, String.append_assoc, Text.splitOn_sep,
      Text.splitOn_piece hh.1, Text.splitOn_last hc.1]
  by_cases hmem : ':' ∈ address.toList
  · obtain ⟨rest, hrest⟩ := Text.eq_before_append hmem
    obtain ⟨piece, pieces, hpieces⟩ := List.exists_cons_of_ne_nil (Text.splitOn_ne_nil ':' rest)
    have hmany : Text.splitOn ':' address = Text.before ':' address :: piece :: pieces := by
      rw [← hpieces, ← Text.splitOn_piece (Text.not_mem_before ':' address), ← hrest]
    rw [if_pos hmem, hmany]
    match pieces with
    | [] => rfl
    | [_] => rfl
    | _ :: _ :: _ => rfl
  · rw [if_neg hmem, Text.splitOn_last hmem]
    rfl

theorem normalized_every {p : Published} (h : p.address ∈ everyInterface) :
    p.normalized = { p with address := "" } := by
  simp [Published.normalized, h]

theorem normalized_other {p : Published} (h : p.address ∉ everyInterface) : p.normalized = p := by
  simp [Published.normalized, h]

theorem normalized_normalized (p : Published) : p.normalized.normalized = p.normalized := by
  by_cases h : p.address ∈ everyInterface
  · rw [normalized_every h]
    exact normalized_every List.mem_cons_self
  · rw [normalized_other h, normalized_other h]

theorem plain_of_every {binding : PortBinding} (h : binding.hostIp ∈ everyInterface) :
    binding.Plain := by
  simp only [everyInterface, List.mem_cons, List.not_mem_nil, or_false] at h
  rcases h with h | h | h
  · exact .inr (by rw [h]; decide)
  · exact .inr (by rw [h]; decide)
  · exact .inl h

/-- The option of a binding is read as the binding, every interface as none, or not at all. -/
theorem read_portText {b : String × PortBinding} (hc : Unmarked b.1) (hh : Unmarked b.2.hostPort)
    (ha : '[' ∉ b.2.hostIp.toList) : readPublish (portText b.1 b.2) =
      if b.2.Plain then some (recordedPort b).normalized else none := by
  have hevery : (b.2.hostIp ≠ "" ∧ b.2.hostIp ∉ ["0.0.0.0", "::"]) ↔
      b.2.hostIp ∉ everyInterface := by
    simp [everyInterface]
  rw [portText, if_congr hevery rfl rfl]
  by_cases hall : b.2.hostIp ∈ everyInterface
  · have hnormal : (recordedPort b).normalized = ⟨"", b.2.hostPort, b.1⟩ := normalized_every hall
    rw [if_neg (not_not.mpr hall), if_pos (plain_of_every hall), hnormal]
    split
    · exact readPublish_ports hh hc
    · rename_i hnone
      rw [readPublish_port hc, not_not.mp hnone]
  · have hnormal : (recordedPort b).normalized = recordedPort b := normalized_other hall
    have hplain : b.2.Plain ↔ ':' ∉ b.2.hostIp.toList := by
      constructor
      · rintro (h | h)
        · exact absurd (by simp [h, everyInterface]) hall
        · exact h
      · exact .inr
    rw [if_pos hall, readPublish_address ha hh hc, if_congr hplain rfl rfl, hnormal, ite_not]
    rfl

theorem portTexts_eq (host : HostConfig) :
    portTexts host = host.bindings.map fun b => portText b.1 b.2 := by
  simp [portTexts, HostConfig.bindings, List.map_flatMap, Function.comp_def]

theorem republishes_iff {doc : Inspect} (hports : doc.hostConfig.Publishable) :
    Republishes doc.hostConfig (recreation doc) ↔ ∀ b ∈ doc.hostConfig.bindings, b.2.Plain := by
  have hread : ∀ b ∈ doc.hostConfig.bindings, readPublish (portText b.1 b.2) =
      if b.2.Plain then some (recordedPort b).normalized else none := fun b hb =>
    read_portText (hports.containerPort b hb) (hports.hostPort b hb) (hports.address b hb)
  have hvalues : (recreation doc).values "-p" = portTexts doc.hostConfig := runOpts_ports doc
  rw [Republishes, hvalues, portTexts_eq, List.map_map]
  constructor
  · rintro ⟨published, hall, _⟩ b hb
    by_contra hplain
    have hnone : readPublish (portText b.1 b.2) = none := by rw [hread b hb, if_neg hplain]
    have hmem : (none : Option Published) ∈ published.map some := by
      rw [← hall, List.mem_map]
      refine ⟨b, hb, ?_⟩
      rw [Function.comp_apply]
      exact hnone
    simp at hmem
  · intro hplain
    refine ⟨doc.hostConfig.bindings.map fun b => (recordedPort b).normalized, ?_, ?_⟩
    · rw [List.map_map]
      apply List.map_congr_left
      intro b hb
      simpa only [Function.comp_apply, if_pos (hplain b hb)] using hread b hb
    · rw [List.map_map]
      simp [Function.comp_def, normalized_normalized]

end Reading

/-- The recorded ports are published again exactly if no address but the one of every
interface has a colon. -/
theorem ports_republished_iff (doc : Inspect) (hports : doc.hostConfig.Publishable)
    (hdash : Text.startsWith doc.config.image "-" = false) :
    (∃ inv, Reads doc inv ∧ Republishes doc.hostConfig inv) ↔
      ∀ b ∈ doc.hostConfig.bindings, b.2.Plain := by
  rw [exists_reads_iff hdash]
  exact republishes_iff hports

def publishedDoc (hostIp : String) : Inspect where
  name := "/web"
  config := { image := "nginx:1" }
  hostConfig := { portBindings := some (Dict.ofPairs [("80/tcp", some [⟨hostIp, "8080"⟩])]) }

theorem publishable_published (hostIp : String) (h : '[' ∉ hostIp.toList) :
    (publishedDoc hostIp).hostConfig.Publishable := by
  have hbindings : (publishedDoc hostIp).hostConfig.bindings = [("80/tcp", ⟨hostIp, "8080"⟩)] := rfl
  constructor
  all_goals
    rw [hbindings]
    simp only [List.mem_singleton, forall_eq]
  · exact ⟨by decide, by decide⟩
  · exact ⟨by decide, by decide⟩
  · exact h

theorem ports_republished_local :
    ∃ inv, Reads (publishedDoc "127.0.0.1") inv ∧
      Republishes (publishedDoc "127.0.0.1").hostConfig inv :=
  (ports_republished_iff (publishedDoc "127.0.0.1") (publishable_published _ (by decide))
    (by decide)).mpr
    (by decide +kernel)

/-- A port of an IPv6 address is not published again. -/
theorem ipv6_port_lost :
    ¬ ∃ inv, Reads (publishedDoc "fd00::1") inv ∧
    Republishes (publishedDoc "fd00::1").hostConfig inv := by
  have hdash : Text.startsWith (publishedDoc "fd00::1").config.image "-" = false := by decide
  rw [exists_reads_iff hdash, republishes_iff (publishable_published _ (by decide))]
  decide +kernel

end Keepup.Docker
