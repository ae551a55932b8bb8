import Keepup.Lib.Percent
import Keepup.Schedules.Scheduler

/-!
The update paths that the two backends give to their stacks, and which of them
the scheduler keeps apart. A path names its parts unambiguously; the id of its
job has an underscore for each of its separators, and names may contain
underscores.
-/

namespace Keepup.Schedules

open Lib

/-- The slug of a host. -/
structure HostSlug where
  text : String
  named : ∃ name, slugify name = text

@[ext] theorem HostSlug.ext {slug slug' : HostSlug} (h : slug.text = slug'.text) :
    slug = slug' := by
  cases slug
  cases slug'
  cases h
  rfl

/-- What is updated on a host: a container of a Compose project, or one of its own. -/
inductive ContainerRef where
  | compose (project container : String)
  | standalone (container : String)

inductive UpdatePath where
  | ssh (slug : HostSlug) (ref : ContainerRef)
  | portainer (stackId endpointId : Int)

def makeComposeRef (slug project container : String) : String :=
  slug ++ "/" ++ Percent.quote project ++ ":" ++ Percent.quote container

def makeStandaloneRef (slug container : String) : String := slug ++ "/~" ++ Percent.quote container

def makePortainerRef (stackId endpointId : Int) :
    String := toString stackId ++ ":" ++ toString endpointId

/-- The path, as the pages and the configuration have it. -/
def UpdatePath.text : UpdatePath → String
  | ssh slug (.compose project container) => "ssh/" ++ makeComposeRef slug.text project container
  | ssh slug (.standalone container) => "ssh/" ++ makeStandaloneRef slug.text container
  | portainer stackId endpointId => "portainer/" ++ makePortainerRef stackId endpointId

/-- The names of a container, as the id of a job has them: joined by an underscore. -/
def ContainerRef.joined : ContainerRef → String
  | compose project container => project ++ "_" ++ container
  | standalone container => "~" ++ container

/-- What is left of a path in the id of its job. -/
def UpdatePath.joined : UpdatePath → (HostSlug × String) ⊕ (Int × Int)
  | ssh slug ref => .inl (slug, ref.joined)
  | portainer stackId endpointId => .inr (stackId, endpointId)

section Parts

theorem HostSlug.not_mem (slug : HostSlug) {c : Char} (h : isSlugChar c = false) :
    c ∉ slug.text.toList := by
  intro hc
  obtain ⟨text, name, rfl⟩ := slug
  rw [slugify_chars name c hc] at h
  cases h

theorem not_mem_quote (s : String) {c : Char} (h : Percent.unreserved c = false) (hc : c ≠ '%') :
    c ∉ (Percent.quote s).toList := by
  intro hmem
  rcases Percent.quote_chars s c hmem with hfree | rfl
  · rw [hfree] at h
    cases h
  · exact hc rfl

end Parts

section Text

/-- The part of a path after the host. -/
def ContainerRef.chars : ContainerRef → List Char
  | compose project container =>
      (Percent.quote project).toList ++ ':' :: (Percent.quote container).toList
  | standalone container => '~' :: (Percent.quote container).toList

theorem ssh_text (slug : HostSlug) (ref : ContainerRef) :
    (UpdatePath.ssh slug ref).text.toList =
      "ssh".toList ++ '/' :: (slug.text.toList ++ '/' :: ref.chars) := by
  cases ref <;> simp [UpdatePath.text, makeComposeRef, makeStandaloneRef, ContainerRef.chars]

theorem portainer_text (stackId endpointId : Int) :
    (UpdatePath.portainer stackId endpointId).text.toList =
      "portainer".toList ++ '/' ::
        ((toString stackId).toList ++ ':' :: (toString endpointId).toList) := by
  simp [UpdatePath.text, makePortainerRef]

theorem colon_not_mem_quote (s : String) : ':' ∉ (Percent.quote s).toList :=
  not_mem_quote s (by decide) (by decide)

theorem not_mem_int {c : Char} (i : Int) (hc : c.isDigit = false) (hsign : c ≠ '-') :
    c ∉ (toString i).toList := by
  intro hmem
  rcases Text.int_chars i c hmem with hdigit | rfl
  · rw [hdigit] at hc
    cases hc
  · exact hsign rfl

theorem ContainerRef.chars_injective : Function.Injective ContainerRef.chars := by
  have hmixed : ∀ project container other,
      (compose project container).chars ≠ (standalone other).chars := by
    intro project container other h
    have hcolon : ':' ∈ (compose project container).chars := by simp [chars]
    rw [h] at hcolon
    rcases List.mem_cons.mp hcolon with htilde | hquote
    · cases htilde
    · exact colon_not_mem_quote other hquote
  intro ref ref' h
  cases ref with
  | compose project container =>
      cases ref' with
      | compose project' container' =>
          obtain ⟨hproject, hcontainer⟩ :=
            Text.append_cons_inj (colon_not_mem_quote project) (colon_not_mem_quote project') h
          rw [Percent.quote_injective (String.toList_inj.mp hproject),
            Percent.quote_injective (String.toList_inj.mp hcontainer)]
      | standalone container' => exact absurd h (hmixed _ _ _)
  | standalone container =>
      cases ref' with
      | compose project' container' => exact absurd h.symm (hmixed _ _ _)
      | standalone container' =>
          rw [Percent.quote_injective (String.toList_inj.mp (List.cons.inj h).2)]

/-- No two paths are written the same. -/
theorem UpdatePath.text_injective : Function.Injective UpdatePath.text := by
  have hmixed : ∀ slug ref stackId endpointId,
      (ssh slug ref).text ≠ (portainer stackId endpointId).text := by
    intro slug ref stackId endpointId h
    have hlist := congrArg (fun s => s.toList.head?) h
    simp [ssh_text, portainer_text] at hlist
  intro p q h
  have hlist := congrArg String.toList h
  cases p with
  | ssh slug ref =>
      cases q with
      | ssh slug' ref' =>
          rw [ssh_text, ssh_text] at hlist
          have hrest := (List.cons.inj (List.append_cancel_left hlist)).2
          obtain ⟨hslug, hchars⟩ := Text.append_cons_inj (slug.not_mem (by decide))
            (slug'.not_mem (by decide)) hrest
          rw [HostSlug.ext (String.toList_inj.mp hslug), ContainerRef.chars_injective hchars]
      | portainer stackId' endpointId' => exact absurd h (hmixed _ _ _ _)
  | portainer stackId endpointId =>
      cases q with
      | ssh slug' ref' => exact absurd h.symm (hmixed _ _ _ _)
      | portainer stackId' endpointId' =>
          rw [portainer_text, portainer_text] at hlist
          have hrest := (List.cons.inj (List.append_cancel_left hlist)).2
          obtain ⟨hstack, hendpoint⟩ :=
            Text.append_cons_inj (not_mem_int stackId (by decide) (by decide))
            (not_mem_int stackId' (by decide) (by decide)) hrest
          rw [Text.int_toString_injective (String.toList_inj.mp hstack),
            Text.int_toString_injective (String.toList_inj.mp hendpoint)]

end Text

section JobIds

theorem map_safeChar_eq_self {w : List Char} (hslash : '/' ∉ w) (hcolon : ':' ∉ w) :
    w.map safeChar = w := by
  induction w with
  | nil => rfl
  | cons c w ih =>
      rw [List.mem_cons, not_or] at hslash hcolon
      rw [List.map_cons, ih hslash.2 hcolon.2, safeChar,
        if_neg (not_or.mpr ⟨hslash.1 ∘ Eq.symm, hcolon.1 ∘ Eq.symm⟩)]

theorem map_safeChar_quote (s : String) :
    (Percent.quote s).toList.map safeChar = (Percent.quote s).toList :=
  map_safeChar_eq_self (not_mem_quote s (by decide) (by decide)) (colon_not_mem_quote s)

/-- The names of a container are kept apart by an underscore only. -/
theorem ContainerRef.map_safeChar (ref : ContainerRef) :
    ref.chars.map safeChar = (Percent.quote ref.joined).toList := by
  have hunderscore : Percent.quote "_" = "_" := by decide +kernel
  have htilde : Percent.quote "~" = "~" := by decide +kernel
  cases ref with
  | compose project container =>
      rw [chars, joined, Percent.quote_append, Percent.quote_append, hunderscore, List.map_append,
        List.map_cons, map_safeChar_quote, map_safeChar_quote]
      simp [safeChar]
  | standalone container =>
      rw [chars, joined, Percent.quote_append, htilde, List.map_cons, map_safeChar_quote]
      simp [safeChar]

theorem ssh_jobId (slug : HostSlug) (ref : ContainerRef) :
    (stackJobId (UpdatePath.ssh slug ref).text).toList = "auto_stack_ssh_".toList ++
      (slug.text.toList ++ '_' :: (Percent.quote ref.joined).toList) := by
  rw [stackJobId, String.toList_append, String.toList_ofList, ssh_text,
    List.map_append, List.map_cons,
    List.map_append, List.map_cons, ref.map_safeChar,
    map_safeChar_eq_self (slug.not_mem (by decide)) (slug.not_mem (by decide))]
  simp [safeChar]

theorem portainer_jobId (stackId endpointId : Int) :
    (stackJobId (UpdatePath.portainer stackId endpointId).text).toList =
      "auto_stack_portainer_".toList ++
        ((toString stackId).toList ++ '_' :: (toString endpointId).toList) := by
  have hint : ∀ i : Int, (toString i).toList.map safeChar = (toString i).toList := fun i =>
    map_safeChar_eq_self (not_mem_int i (by decide) (by decide))
      (not_mem_int i (by decide) (by decide))
  rw [stackJobId, String.toList_append, String.toList_ofList, portainer_text, List.map_append,
    List.map_cons, List.map_append, List.map_cons, hint, hint]
  simp [safeChar]

/-- Two paths have the same job exactly if they are the same but for how the names
of a project and a container are joined. -/
theorem stackJobId_eq_iff (p q : UpdatePath) :
    stackJobId p.text = stackJobId q.text ↔ p.joined = q.joined := by
  have hmixed : ∀ slug ref stackId endpointId,
      stackJobId (UpdatePath.ssh slug ref).text ≠
        stackJobId (UpdatePath.portainer stackId endpointId).text := by
    intro slug ref stackId endpointId h
    have hlist := congrArg (fun s => s.toList.drop 11 |>.head?) h
    simp [ssh_jobId, portainer_jobId] at hlist
  rw [← String.toList_inj]
  cases p with
  | ssh slug ref =>
      cases q with
      | ssh slug' ref' =>
          rw [ssh_jobId, ssh_jobId]
          constructor
          · intro h
            obtain ⟨hslug, hjoined⟩ := Text.append_cons_inj (slug.not_mem (by decide))
              (slug'.not_mem (by decide)) (List.append_cancel_left h)
            rw [UpdatePath.joined, UpdatePath.joined, HostSlug.ext (String.toList_inj.mp hslug),
              Percent.quote_injective (String.toList_inj.mp hjoined)]
          · intro h
            obtain ⟨hslug, hjoined⟩ := Prod.mk.inj (Sum.inl.inj h)
            rw [hslug, hjoined]
      | portainer stackId' endpointId' =>
          exact iff_of_false (fun h => hmixed _ _ _ _ (String.toList_inj.mp h)) nofun
  | portainer stackId endpointId =>
      cases q with
      | ssh slug' ref' =>
          exact iff_of_false (fun h => hmixed _ _ _ _ (String.toList_inj.mp h.symm)) nofun
      | portainer stackId' endpointId' =>
          rw [portainer_jobId, portainer_jobId]
          constructor
          · intro h
            obtain ⟨hstack, hendpoint⟩ :=
              Text.append_cons_inj (not_mem_int stackId (by decide) (by decide))
                (not_mem_int stackId' (by decide) (by decide)) (List.append_cancel_left h)
            rw [UpdatePath.joined, UpdatePath.joined,
              Text.int_toString_injective (String.toList_inj.mp hstack),
              Text.int_toString_injective (String.toList_inj.mp hendpoint)]
          · intro h
            obtain ⟨hstack, hendpoint⟩ := Prod.mk.inj (Sum.inr.inj h)
            rw [hstack, hendpoint]

end JobIds

end Keepup.Schedules
