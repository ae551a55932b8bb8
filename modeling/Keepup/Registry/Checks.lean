import Keepup.Docker.Discovery
import Keepup.Registry.ImageRef

/-!
The check of an image against its registry. Docker records a digest for each repository
that an image was pulled from or pushed to. The check compares the remote digest with the
first of them, whatever repository it is for.
-/

namespace Keepup.Registry

open Text Docker.Discovery

section Digests

def digestMark : String := "@sha256:"

/-- What follows the last mark. Two marks never overlap, since only the front of a mark is
an at sign. -/
def afterMark (mark : List Char) : List Char → Option (List Char)
  | [] => none
  | c :: cs =>
      match afterMark mark cs with
      | some rest => some rest
      | none => if mark.isPrefixOf (c :: cs) then some ((c :: cs).drop mark.length) else none

/-- The digest of an entry of `RepoDigests`. -/
def digestOf (entry : String) : Option String :=
  (afterMark digestMark.toList entry.toList).map fun hex => "sha256:" ++ String.ofList hex

/-- The name of the image is not read. -/
def extractLocalDigest (repoDigests : List String) (_imageName : String) : Option String :=
  repoDigests.findSome? digestOf

/-- What the registry answered. The reason is set where there is no digest. -/
structure DigestResult where
  digest : Option String
  reason : Option String := none
deriving DecidableEq

/-- `remote` is the outcome of `get_remote_digest` for an image. -/
def checkImageUpdate (remote : String → DigestResult) (image localDigest : Option String) :
    ImageCheck :=
  if given image = false then ⟨.unknown, some "unresolvable_image"⟩
  else if given localDigest = false then ⟨.unknown, some "no_local_digest"⟩
  else
    let answer := remote (image.getD "")
    match answer.digest with
    | none => ⟨.unknown, some (orElse answer.reason "registry_error")⟩
    | some digest => if digest ≠ localDigest.getD "" then ⟨.updateAvailable, none⟩
        else ⟨.upToDate, none⟩

/-- The digest is extracted and the image is checked. -/
def checkImage (remote : String → DigestResult) (image : String) (repoDigests : List String) :
    ImageCheck :=
  checkImageUpdate remote (some image) (extractLocalDigest repoDigests image)

end Digests

section Comparison

variable (remote : String → DigestResult) (image : String) (repoDigests : List String)

/-- The digests of all entries, in their order. -/
def recorded : List String := repoDigests.filterMap digestOf

instance (a b : ImageRef) : Decidable (SameRepository a b) := by
  unfold SameRepository
  infer_instance

/-- The digests of the entries for the repository of the image. -/
def recordedFor : List String :=
  recorded (repoDigests.filter fun entry =>
    SameRepository (parseImageRef (before '@' entry)) (parseImageRef image))

/-- An update is reported only if the remote digest differs from all that are recorded for
the image, and the order of the entries has no part in the status. -/
def ComparesOwn : Prop :=
  ((checkImage remote image repoDigests).status = .updateAvailable →
    ∀ digest ∈ recordedFor image repoDigests, (remote image).digest ≠ some digest) ∧
  ∀ others, repoDigests.Perm others →
    (checkImage remote image others).status = (checkImage remote image repoDigests).status

theorem digestOf_given {entry digest : String} (h : digestOf entry = some digest) :
    given (some digest) = true := by
  obtain ⟨hex, _, rfl⟩ := Option.map_eq_some_iff.mp h
  simp [given, orElse]

theorem extract_eq_head : extractLocalDigest repoDigests image = (recorded repoDigests).head? := by
  rw [recorded, List.head?_filterMap, extractLocalDigest]

/-- The status is that of the first recorded digest. -/
theorem check_status : (checkImage remote image repoDigests).status =
    match (recorded repoDigests).head?, (remote image).digest with
    | some first, some digest =>
        if image = "" then .unknown else if digest = first then .upToDate else .updateAvailable
    | _, _ => .unknown := by
  rw [checkImage, extract_eq_head, checkImageUpdate]
  by_cases himage : image = ""
  · subst himage
    rw [if_pos (by decide)]
    split <;> rfl
  · have hgiven : given (some image) = true := by simp [given, orElse, himage]
    rw [hgiven, if_neg (by decide), Option.getD_some]
    cases hfirst : (recorded repoDigests).head? with
    | none => rfl
    | some first =>
        obtain ⟨entry, _, hentry⟩ := List.mem_filterMap.mp (List.mem_of_mem_head? hfirst)
        rw [digestOf_given hentry, if_neg (by decide)]
        cases hanswer : (remote image).digest with
        | none => simp [hanswer]
        | some digest =>
            simp only [hanswer, if_neg himage, Option.getD_some, ite_not]
            split <;> rfl

theorem update_available_iff : (checkImage remote image repoDigests).status = .updateAvailable ↔
    image ≠ "" ∧ ∃ first digest, (recorded repoDigests).head? = some first ∧
      (remote image).digest = some digest ∧ digest ≠ first := by
  rw [check_status]
  split
  · rename_i first digest hfirst hanswer
    simp only [hfirst, hanswer, Option.some_inj, exists_and_left, exists_eq_left']
    split
    · simp_all
    · split <;> simp_all
  · rename_i hnone
    constructor
    · nofun
    · rintro ⟨_, first, digest, hfirst, hanswer, _⟩
      exact absurd hanswer (hnone first digest hfirst)

/-- An entry in front decides. -/
theorem check_first {entry first : String} (hentry : digestOf entry = some first)
    (rest : List String) (himage : image ≠ "") {digest : String}
    (hanswer : (remote image).digest = some digest) :
    (checkImage remote image (entry :: rest)).status =
      if digest = first then .upToDate else .updateAvailable := by
  have hhead : (recorded (entry :: rest)).head? = some first := by
    rw [recorded, List.filterMap_cons_some hentry, List.head?_cons]
  rw [check_status, hhead, hanswer]
  exact if_neg himage

/-- All recorded digests are compared alike. -/
def Agree (digest : String) : Prop :=
  (∀ other ∈ recorded repoDigests, other = digest) ∨ ∀ other ∈ recorded repoDigests, other ≠ digest

theorem order_free_iff : (∀ others, repoDigests.Perm others →
      (checkImage remote image others).status = (checkImage remote image repoDigests).status) ↔
    (image ≠ "" → ∀ digest, (remote image).digest = some digest → Agree repoDigests digest) := by
  constructor
  · intro horder himage digest hanswer
    by_contra hdisagree
    simp only [Agree, not_or, not_forall] at hdisagree
    obtain ⟨⟨first, hfirst, hne⟩, same, hsame, heq⟩ := hdisagree
    obtain ⟨entry, hentry, hdigest⟩ := List.mem_filterMap.mp hfirst
    obtain ⟨entry', hentry', hdigest'⟩ := List.mem_filterMap.mp hsame
    have hupdate := horder _ (List.perm_cons_erase hentry)
    have hcurrent := horder _ (List.perm_cons_erase hentry')
    rw [check_first remote image hdigest _ himage hanswer, if_neg (Ne.symm hne)] at hupdate
    rw [check_first remote image hdigest' _ himage hanswer, if_pos (not_not.mp heq).symm, ← hupdate]
      at hcurrent
    cases hcurrent
  · intro hagree others hperm
    have hrecorded : (recorded repoDigests).Perm (recorded others) := hperm.filterMap digestOf
    rw [check_status, check_status]
    cases hfirst : (recorded repoDigests).head? with
    | none =>
        rw [List.head?_eq_none_iff.mp hfirst] at hrecorded
        rw [List.nil_perm.mp hrecorded]
        rfl
    | some first =>
        have hmem : first ∈ recorded repoDigests := List.mem_of_mem_head? hfirst
        obtain ⟨other, hother⟩ : ∃ other, (recorded others).head? = some other := by
          have hne : recorded others ≠ [] := List.ne_nil_of_mem (hrecorded.subset hmem)
          exact ⟨_, List.head?_eq_some_head hne⟩
        have hmem' : other ∈ recorded repoDigests :=
          hrecorded.symm.subset (List.mem_of_mem_head? hother)
        rw [hother]
        cases hanswer : (remote image).digest with
        | none => rfl
        | some digest =>
            by_cases himage : image = ""
            · simp [himage]
            · have hsame : digest = other ↔ digest = first := by
                rcases hagree himage digest hanswer with hall | hnone
                · rw [hall other hmem', hall first hmem]
                · exact iff_of_false (hnone other hmem').symm (hnone first hmem).symm
              simp only [himage, if_false, hsame]

end Comparison

/-- An update is reported exactly if the remote digest differs from the first recorded one,
of whichever repository. The status depends on the order of the entries only where some of
the recorded digests are the remote one and some are not. -/
theorem first_digest_compared (remote : String → DigestResult) (image : String)
    (repoDigests : List String) :
    ((checkImage remote image repoDigests).status = .updateAvailable ↔
      image ≠ "" ∧ ∃ first digest, (recorded repoDigests).head? = some first ∧
        (remote image).digest = some digest ∧ digest ≠ first) ∧
    ((∀ others, repoDigests.Perm others →
        (checkImage remote image others).status = (checkImage remote image repoDigests).status) ↔
      (image ≠ "" → ∀ digest, (remote image).digest = some digest → Agree repoDigests digest)) :=
  ⟨update_available_iff remote image repoDigests, order_free_iff remote image repoDigests⟩

/-- The image is current in its own repository, and an older build of it was pushed to
another one. -/
theorem other_digest_compared :
    ¬ ComparesOwn (fun _ => ⟨some "sha256:deadbeef", none⟩) "myrepo/app"
      ["other/image@sha256:zzz", "myrepo/app@sha256:deadbeef"] := by
  intro h
  have hdiffers := h.1 (by decide +kernel) "sha256:deadbeef" (by decide +kernel)
  exact hdiffers rfl

end Keepup.Registry
