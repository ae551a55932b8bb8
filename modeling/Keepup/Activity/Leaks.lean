import Keepup.Activity.Redaction
import Keepup.Text.Cuts
import Mathlib.Data.List.Dedup
import Mathlib.Data.List.Forall2

/-!
What is left of the secrets of the credential store in the output of a run. No
secret is left that has neither a star nor a line break of its own; another one
can come about across a mask, or across two lines where they are joined.
-/

namespace Keepup.Activity

open Lib

section Masked

/-- No secret is a part of the text. -/
def Hides (secrets : List String) (text : String) : Prop :=
  ∀ secret ∈ secrets, ¬ Text.isIn secret text = true

variable {env : Surroundings} {store : Store} {secret : String} {lines : List String}

theorem mem_orderedSecrets :
    secret ∈ orderedSecrets env store ↔ secret ∈ secretValues env store := by
  rw [orderedSecrets, (List.mergeSort_perm _ _).mem_iff, (env.iterate_perm _).mem_iff]

theorem secretValue_length {field : String × Scalar} (h : secretValue env field = some secret) :
    minSecretLen ≤ secret.length := by
  rcases field with ⟨name, _ | _ | value⟩
  · cases h
  · cases h
  · rw [secretValue] at h
    dsimp only at h
    split at h
    · cases h
    · rename_i hlong
      split at h
      · cases h
        exact Nat.le_of_not_lt hlong
      · cases h

theorem secretValues_length (h : secret ∈ secretValues env store) :
    minSecretLen ≤ secret.length := by
  obtain ⟨entry, _, hfield⟩ := List.mem_flatMap.mp (List.mem_dedup.mp h)
  obtain ⟨field, _, hvalue⟩ := List.mem_filterMap.mp hfield
  exact secretValue_length hvalue

theorem secretValues_ne_nil (h : secret ∈ secretValues env store) : secret.toList ≠ [] := by
  intro hnil
  have hlength := secretValues_length h
  rw [← String.length_toList, hnil] at hlength
  exact absurd hlength (by decide)

theorem redacted_toList : redacted.toList = List.replicate 3 '*' := rfl

/-- A line with a note of what the masking put in. -/
def tracedLine (secrets : List String) (line : String) : List (Masking.Traced Char) :=
  Masking.traceMask redacted.toList (secrets.map String.toList) (Masking.trace line.toList)

theorem redactLine_eq_erase (secrets : List String) (line : String) :
    redactLine secrets line = String.ofList (Masking.erase (tracedLine secrets line)) := by
  rw [tracedLine, Masking.erase_traceMask, Masking.erase_trace, redactLine]

/-- An occurrence of a secret has a part of a mask in it. -/
theorem occurrence_masked (hsecret : secret ∈ secretValues env store) {line : String}
    {stretch : List (Masking.Traced Char)}
    (h : stretch <:+: tracedLine (orderedSecrets env store) line)
    (herase : Masking.erase stretch = secret.toList) : ∃ c ∈ stretch, c.inserted = true := by
  by_contra hnone
  have hold : ∀ c ∈ stretch, c.inserted = false := fun c hc =>
    Bool.eq_false_iff.mpr fun hin => hnone ⟨c, hc, hin⟩
  have hne : stretch ≠ [] := by
    rintro rfl
    exact secretValues_ne_nil hsecret herase.symm
  have hsome : redacted.toList ≠ [] := List.cons_ne_nil _ _
  have hother := (Masking.infix_of_traceMask hsome hold hne h).2
  apply hother
  rw [herase]
  exact List.mem_map_of_mem (mem_orderedSecrets.mpr hsecret)

end Masked

/-- The lines that are returned come from the output by putting masks in place of parts,
and every occurrence of a secret overlaps a mask. What was not put in is text of the line,
in its order. -/
theorem redacted_secrets_overlap_masks (env : Surroundings) (store : Store) (lines : List String) :
    redact env (some store) lines =
      lines.map (fun line =>
        String.ofList (Masking.erase (tracedLine (orderedSecrets env store) line))) ∧
    ∀ line ∈ lines,
      (Masking.survivors (tracedLine (orderedSecrets env store) line)).Sublist line.toList ∧
      ∀ secret ∈ secretValues env store, ∀ stretch, stretch <:+:
        tracedLine (orderedSecrets env store) line →
        Masking.erase stretch = secret.toList → ∃ c ∈ stretch, c.inserted = true := by
  refine ⟨List.map_congr_left fun line _ => redactLine_eq_erase _ line, fun line _ => ⟨?_, ?_⟩⟩
  · have hkept := Masking.survivors_traceMask redacted.toList
      ((orderedSecrets env store).map String.toList) (Masking.trace line.toList)
    rwa [Masking.survivors_trace] at hkept
  · intro secret hsecret stretch hin herase
    exact occurrence_masked hsecret hin herase

section Joined

theorem joinOn_append (c : Char) {texts texts' : List String} (h : texts ≠ []) (h' : texts' ≠ []) :
    Text.joinOn c (texts ++ texts') = Text.joinOn c texts ++
      (String.ofList [c] ++ Text.joinOn c texts') := by
  induction texts with
  | nil => exact absurd rfl h
  | cons text texts ih =>
      cases texts with
      | nil => exact Text.joinOn_cons c text h'
      | cons next texts =>
          rw [List.cons_append, Text.joinOn_cons c text (List.append_ne_nil_of_right_ne_nil _ h'),
            Text.joinOn_cons c text (List.cons_ne_nil next texts), ih (List.cons_ne_nil next texts)]
          simp only [String.append_assoc]

theorem flatLines_ne_nil {lines : List String} (h : lines ≠ []) : flatLines lines ≠ [] := by
  obtain ⟨line, rest, rfl⟩ := List.exists_cons_of_ne_nil h
  rw [flatLines, List.flatMap_cons]
  exact List.append_ne_nil_of_left_ne_nil (Text.splitOn_ne_nil '\n' line) _

/-- Splitting the lines first makes no difference to how they are joined. -/
theorem outputText_eq (lines : List String) : outputText lines = "\n".intercalate lines := by
  have hjoin : ∀ texts, "\n".intercalate texts = Text.joinOn '\n' texts := fun texts =>
    (Text.joinOn_eq_intercalate '\n' texts).symm
  rw [outputText, hjoin, hjoin]
  induction lines with
  | nil => rfl
  | cons line lines ih =>
      cases lines with
      | nil => rw [flatLines, List.flatMap_singleton, Text.joinOn_splitOn, Text.joinOn]
      | cons next lines =>
          have hrest : flatLines (next :: lines) ≠ [] :=
            flatLines_ne_nil (List.cons_ne_nil next lines)
          have hflat : flatLines (line :: next :: lines) =
            Text.splitOn '\n' line ++ flatLines (next :: lines) := rfl
          rw [hflat, joinOn_append '\n' (Text.splitOn_ne_nil '\n' line) hrest,
            Text.joinOn_splitOn, ih,
            Text.joinOn_cons '\n' line (List.cons_ne_nil next lines)]

theorem splitOn_length (c : Char) (s : String) :
    (Text.splitOn c s).length = s.toList.count c + 1 := by
  induction s using Text.pieces_induction c with
  | hlast s hfree => rw [Text.splitOn_last hfree, List.count_eq_zero.mpr hfree,
      List.length_singleton]
  | hpiece a rest ha ih =>
      rw [Text.splitOn_piece ha, List.length_cons, ih, String.toList_append, String.toList_append,
        List.count_append, List.count_append, List.count_eq_zero.mpr ha, String.toList_ofList,
        List.count_singleton_self]
      omega

theorem flatLines_cons_length (line : String) (lines : List String) :
    (flatLines (line :: lines)).length = line.toList.count '\n' + 1 + (flatLines lines).length := by
  rw [flatLines, List.flatMap_cons, List.length_append, splitOn_length, flatLines]

end Joined

section Output

variable (secrets : List String) (lines : List String)

/-- The lines with some of the secrets masked, whichever and in whatever order. -/
def Masked (texts : List (List (Masking.Traced Char))) : Prop :=
  List.Forall₂ (fun line =>
    Masking.Masks redacted.toList (secrets.map String.toList) (Masking.trace line.toList))
    lines texts

/-- The lines as they are joined in the file. The line breaks between them count as put in. -/
def joinedLines (texts : List (List (Masking.Traced Char))) : List (Masking.Traced Char) :=
  [⟨'\n', true⟩].intercalate texts

/-- Whichever of the secrets are masked in the lines, no secret comes about across a mask
or across two lines. -/
def OutputClear : Prop :=
  ∀ texts, Masked secrets lines texts → ∀ stretch, stretch <:+: joinedLines texts →
    (∃ c ∈ stretch, c.inserted = true) → Masking.erase stretch ∉ secrets.map String.toList

/-- The number of lines that is recorded: as many as the masked lines have, or none where
they could not be written. -/
def Counted (count : ℕ) : Prop :=
  count = 0 ∨ ∃ texts, Masked secrets lines texts ∧
    count = (flatLines (texts.map fun text => String.ofList (Masking.erase text))).length

/-- No secret has a character of a mask or a line break. -/
def Plain : Prop := ∀ secret ∈ secrets, '*' ∉ secret.toList ∧ '\n' ∉ secret.toList

variable {secrets lines}

/-- What was put in a line is of a mask. -/
theorem Masked.put_in {texts : List (List (Masking.Traced Char))} (h : Masked secrets lines texts)
    {text : List (Masking.Traced Char)} (htext : text ∈ texts) :
    ∀ c ∈ text, c.inserted = true → c.value = '*' := by
  induction h with
  | nil => cases htext
  | cons hmasks _ ih =>
      rename_i line text lines texts _
      rcases List.mem_cons.mp htext with rfl | hrest
      · intro c hc hput
        have hold : ∀ d ∈ Masking.trace line.toList, d.inserted = false := by
          intro d hd
          obtain ⟨_, _, rfl⟩ := List.mem_map.mp hd
          rfl
        exact List.eq_of_mem_replicate (redacted_toList ▸ hmasks.inserted hold c hc hput)
      · exact ih hrest

/-- Where no secret has a star or a line break, the output is clear whatever is in it. -/
theorem Plain.outputClear (h : Plain secrets) : OutputClear secrets lines := by
  rintro texts htexts stretch hin ⟨c, hc, hput⟩ hsecret
  obtain ⟨secret, hmem, herase⟩ := List.mem_map.mp hsecret
  have hvalue : c.value ∈ secret.toList := herase ▸ List.mem_map_of_mem hc
  have hchar : c.value = '*' ∨ c.value = '\n' := by
    rcases Masking.mem_intercalate (hin.subset hc) with rfl | ⟨text, htext, hctext⟩
    · exact .inr rfl
    · exact .inl (htexts.put_in htext c hctext hput)
  rcases hchar with hstar | hbreak
  · exact (h secret hmem).1 (hstar ▸ hvalue)
  · exact (h secret hmem).2 (hbreak ▸ hvalue)

variable {env : Surroundings} {store : Store}

theorem masked_traced (env : Surroundings) (store : Store) (lines : List String) :
    Masked (secretValues env store) lines (lines.map (tracedLine (orderedSecrets env store))) := by
  refine List.forall₂_map_right_iff.mpr (List.forall₂_same.mpr fun line _ => ?_)
  refine Masking.masks_traceMask (fun part hpart => ?_) .refl
  obtain ⟨secret, hsecret, rfl⟩ := List.mem_map.mp hpart
  have hmem := mem_orderedSecrets.mp hsecret
  exact ⟨List.mem_map_of_mem hmem, secretValues_ne_nil hmem⟩

theorem redact_eq_erase (env : Surroundings) (store : Store) (lines : List String) :
    redact env (some store) lines = (lines.map (tracedLine (orderedSecrets env store))).map
      fun text => String.ofList (Masking.erase text) := by
  rw [List.map_map]
  exact List.map_congr_left fun line _ => redactLine_eq_erase _ line

/-- What is in the file is the lines as they were masked, one after the other. -/
theorem outputText_toList (texts : List (List (Masking.Traced Char))) :
    (outputText (texts.map fun text => String.ofList (Masking.erase text))).toList =
      Masking.erase (joinedLines texts) := by
  have htexts : (texts.map fun text => String.ofList (Masking.erase text)).map String.toList =
      texts.map Masking.erase := by
    rw [List.map_map]
    exact List.map_congr_left fun text _ => String.toList_ofList
  rw [outputText_eq, String.toList_intercalate, htexts, joinedLines]
  exact (Masking.map_intercalate Masking.Traced.value [⟨'\n', true⟩] texts).symm

/-- A secret that is in the output has come about across a mask or two lines. -/
theorem OutputClear.hides (h : OutputClear (secretValues env store) lines) :
    Hides (secretValues env store) (outputText (redact env (some store) lines)) := by
  intro secret hsecret hin
  rw [Text.isIn_iff, redact_eq_erase, outputText_toList, Masking.erase, List.infix_map_iff] at hin
  obtain ⟨stretch, hstretch, herase⟩ := hin
  have hsome : ∃ c ∈ stretch, c.inserted = true := by
    by_contra hnone
    have hne : stretch ≠ [] := by
      rintro rfl
      exact secretValues_ne_nil hsecret herase
    have hold : (⟨'\n', true⟩ : Masking.Traced Char) ∉ stretch := fun hmem => hnone ⟨_, hmem, rfl⟩
    obtain ⟨text, htext, hwithin⟩ := Masking.infix_of_intercalate hold hne hstretch
    obtain ⟨line, _, rfl⟩ := List.mem_map.mp htext
    exact hnone (occurrence_masked hsecret hwithin herase.symm)
  have hmem := h _ (masked_traced env store lines) stretch hstretch hsome
  rw [Masking.erase, ← herase] at hmem
  exact hmem (List.mem_map_of_mem hsecret)

theorem counted_redact (env : Surroundings) (store : Store) (lines : List String) :
    Counted (secretValues env store) lines (flatLines (redact env (some store) lines)).length :=
  .inr ⟨_, masked_traced env store lines, by rw [redact_eq_erase]⟩

/-- Masks for plain secrets keep the lines. -/
theorem Plain.length_eq (h : Plain secrets) {texts : List (List (Masking.Traced Char))}
    (htexts : Masked secrets lines texts) :
    (flatLines (texts.map fun text => String.ofList (Masking.erase text))).length =
      (flatLines lines).length := by
  induction htexts with
  | nil => rfl
  | cons hmasks _ ih =>
      rw [List.map_cons, flatLines_cons_length, flatLines_cons_length, ih]
      have hcount := hmasks.count (c := '\n') (by decide) fun part hpart => by
        obtain ⟨secret, hsecret, rfl⟩ := List.mem_map.mp hpart
        exact (h secret hsecret).2
      rw [String.toList_ofList, hcount, Masking.erase_trace]

theorem Plain.counted (h : Plain (secretValues env store)) {count : ℕ}
    (hcount : Counted (secretValues env store) lines count) :
    count = 0 ∨ count = (flatLines (redact env (some store) lines)).length := by
  refine hcount.imp_right ?_
  rintro ⟨texts, htexts, rfl⟩
  rw [h.length_eq htexts, redact_eq_erase, h.length_eq (masked_traced env store lines)]

end Output

end Keepup.Activity
