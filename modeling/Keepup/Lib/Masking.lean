import Mathlib.Data.List.Infix

/-!
Masking by search and replace: every occurrence of a part is replaced by a run
of one mark, part after part. A part without the mark cannot come about across
a replacement, so none of the parts is left.
-/

namespace Keepup.Lib.Masking

variable {α : Type*} [DecidableEq α]

/-- Replace the occurrences from the left, none of which overlap. The number is
how much of the last one is still to be passed over. -/
def replaceFrom (old new : List α) : ℕ → List α → List α
  | _, [] => []
  | skip + 1, _ :: cs => replaceFrom old new skip cs
  | 0, c :: cs =>
      if old.isPrefixOf (c :: cs) then new ++ replaceFrom old new (old.length - 1) cs
      else c :: replaceFrom old new 0 cs

def replace (old new text : List α) : List α := replaceFrom old new 0 text

/-- Replace one part after the other. -/
def mask (new : List α) (parts : List (List α)) (text : List α) : List α :=
  parts.foldl (fun text part => replace part new text) text

section Substitution

variable {β : Type*} {P : β → Prop} {hit : List β → Bool} {width : ℕ} {new part text : List β}

/-- The search with any test for a hit in place of a part. -/
def substituteFrom (hit : List β → Bool) (width : ℕ) (new : List β) : ℕ → List β → List β
  | _, [] => []
  | skip + 1, _ :: cs => substituteFrom hit width new skip cs
  | 0, c :: cs =>
      if hit (c :: cs) then new ++ substituteFrom hit width new (width - 1) cs
      else c :: substituteFrom hit width new 0 cs

def substitute (hit : List β → Bool) (width : ℕ) (new text : List β) : List β :=
  substituteFrom hit width new 0 text

theorem substituteFrom_skip (skip : ℕ) (text : List β) :
    substituteFrom hit width new skip text = substitute hit width new (text.drop skip) := by
  induction skip generalizing text with
  | zero => rfl
  | succ skip ih =>
      cases text with
      | nil => rfl
      | cons c cs => exact ih cs

theorem substitute_hit {c : β} {cs : List β} (h : hit (c :: cs) = true) :
    substitute hit width new (c :: cs) = new ++ substitute hit width new (cs.drop (width - 1)) := by
  rw [substitute, substituteFrom, if_pos h, substituteFrom_skip]

theorem substitute_miss {c : β} {cs : List β} (h : hit (c :: cs) = false) :
    substitute hit width new (c :: cs) = c :: substitute hit width new cs := by
  rw [substitute, substituteFrom, h, if_neg Bool.false_ne_true, substitute]

/-- Elements that are not put in begin after those that are. -/
theorem infix_of_inserted (hnew : ∀ c ∈ new, P c) (hpart : ∀ c ∈ part, ¬ P c) (hne : part ≠ [])
    (h : part <:+: new ++ text) : part <:+: text := by
  induction new with
  | nil => exact h
  | cons c new ih =>
      rcases List.infix_cons_iff.mp h with hprefix | hinfix
      · obtain ⟨d, rest, rfl⟩ := List.exists_cons_of_ne_nil hne
        obtain ⟨rfl, _⟩ := List.cons_prefix_cons.mp hprefix
        exact absurd (hnew d List.mem_cons_self) (hpart d List.mem_cons_self)
      · exact ih (fun d hd => hnew d (List.mem_cons_of_mem c hd)) hinfix

theorem prefix_of_substitute (hnew : ∀ c ∈ new, P c) (hsome : new ≠ []) (hpart : ∀ c ∈ part, ¬ P c)
    (h : part <+: substitute hit width new text) : part <+: text := by
  induction part generalizing text with
  | nil => exact List.nil_prefix
  | cons d part ih =>
      cases text with
      | nil => exact h
      | cons c cs =>
          cases hhit : hit (c :: cs) with
          | true =>
              rw [substitute_hit hhit] at h
              obtain ⟨e, rest, rfl⟩ := List.exists_cons_of_ne_nil hsome
              obtain ⟨rfl, _⟩ := List.cons_prefix_cons.mp h
              exact absurd (hnew d List.mem_cons_self) (hpart d List.mem_cons_self)
          | false =>
              rw [substitute_miss hhit] at h
              obtain ⟨rfl, hrest⟩ := List.cons_prefix_cons.mp h
              exact List.cons_prefix_cons.mpr
                ⟨rfl, ih (fun e he => hpart e (List.mem_cons_of_mem d he)) hrest⟩

/-- What is not put in has been in the text, at a place without a hit. -/
theorem infix_of_substitute (hnew : ∀ c ∈ new, P c) (hsome : new ≠ []) (hpart : ∀ c ∈ part, ¬ P c)
    (hne : part ≠ []) (h : part <:+: substitute hit width new text) :
    part <:+: text ∧ ∃ rest, hit (part ++ rest) = false := by
  induction hlength : text.length using Nat.strong_induction_on generalizing text with
  | _ n ih =>
      cases text with
      | nil => exact absurd (List.infix_nil.mp h) hne
      | cons c cs =>
          rw [List.length_cons] at hlength
          cases hhit : hit (c :: cs) with
          | true =>
              rw [substitute_hit hhit] at h
              have hshort : (cs.drop (width - 1)).length < n := by
                rw [List.length_drop]
                omega
              obtain ⟨hin, hmiss⟩ := ih _ hshort (infix_of_inserted hnew hpart hne h) rfl
              exact ⟨(hin.trans (List.drop_suffix _ cs).isInfix).trans
                (List.suffix_cons c cs).isInfix, hmiss⟩
          | false =>
              rw [substitute_miss hhit] at h
              rcases List.infix_cons_iff.mp h with hprefix | hinfix
              · rw [← substitute_miss hhit] at hprefix
                have hin := prefix_of_substitute hnew hsome hpart hprefix
                obtain ⟨rest, hrest⟩ := hin
                exact ⟨⟨[], rest, hrest⟩, rest, hrest ▸ hhit⟩
              · have hshort : cs.length < n := by omega
                obtain ⟨hin, hmiss⟩ := ih _ hshort hinfix rfl
                exact ⟨hin.trans (List.suffix_cons c cs).isInfix, hmiss⟩

end Substitution

/-- Replacing a part is a substitution at each hit of it. -/
theorem replace_eq_substitute (old new text : List α) :
    replace old new text = substitute old.isPrefixOf old.length new text := by
  have hfrom : ∀ skip text, replaceFrom old new skip text =
      substituteFrom old.isPrefixOf old.length new skip text := by
    intro skip text
    fun_induction replaceFrom old new skip text with
    | case1 => cases ‹ℕ› <;> rfl
    | case2 skip c cs ih => exact ih
    | case3 c cs hhit ih => rw [ih, substituteFrom, if_pos hhit]
    | case4 c cs hmiss ih => rw [ih, substituteFrom, if_neg hmiss]
  exact hfrom 0 text

/-- A change of the alphabet does not matter. -/
theorem replace_map {β : Type*} [DecidableEq β] {f : α → β} (hf : Function.Injective f)
    (old new text : List α) :
    replace (old.map f) (new.map f) (text.map f) = (replace old new text).map f := by
  have hhit : ∀ cs : List α, (old.map f).isPrefixOf (cs.map f) = old.isPrefixOf cs := by
    intro cs
    rw [Bool.eq_iff_iff, List.isPrefixOf_iff_prefix, List.isPrefixOf_iff_prefix]
    exact List.prefix_map_iff_of_injective hf
  have hfrom : ∀ skip text, replaceFrom (old.map f) (new.map f) skip (text.map f) =
      (replaceFrom old new skip text).map f := by
    intro skip text
    fun_induction replaceFrom old new skip text with
    | case1 => cases ‹ℕ› <;> rfl
    | case2 skip c cs ih => exact ih
    | case3 c cs h ih =>
        rw [← hhit] at h
        rw [List.map_append, ← ih, List.map_cons, replaceFrom,
          ← List.map_cons, if_pos h, List.length_map]
    | case4 c cs h ih =>
        rw [← hhit] at h
        rw [List.map_cons, List.map_cons, ← ih, replaceFrom, ← List.map_cons, if_neg h]
  exact hfrom 0 text

theorem mask_map {β : Type*} [DecidableEq β] {f : α → β} (hf : Function.Injective f) (new : List α)
    (parts : List (List α)) (text : List α) :
    mask (new.map f) (parts.map (List.map f)) (text.map f) = (mask new parts text).map f := by
  induction parts generalizing text with
  | nil => rfl
  | cons old parts ih =>
      have hfirst := ih (replace old new text)
      rw [← replace_map hf] at hfirst
      exact hfirst

/-- Masks take up room, so that no text is masked away. -/
theorem replace_eq_nil_iff {old new text : List α} (hsome : new ≠ []) :
    replace old new text = [] ↔ text = [] := by
  rw [replace_eq_substitute]
  cases text with
  | nil => exact iff_of_true rfl rfl
  | cons c cs =>
      cases hhit : old.isPrefixOf (c :: cs) with
      | true => simp [substitute_hit hhit, hsome]
      | false => simp [substitute_miss hhit]

theorem mask_eq_nil_iff {new text : List α} (hsome : new ≠ []) (parts : List (List α)) :
    mask new parts text = [] ↔ text = [] := by
  induction parts generalizing text with
  | nil => rfl
  | cons old parts ih => exact ih.trans (replace_eq_nil_iff hsome)

/-- A character of no part, and not of the mask, stays. -/
theorem mem_replace_iff {old new text : List α} {c : α} (hne : old ≠ []) (hold : c ∉ old)
    (hnew : c ∉ new) :
    c ∈ replace old new text ↔ c ∈ text := by
  rw [replace_eq_substitute]
  induction hlength : text.length using Nat.strong_induction_on generalizing text with
  | _ n ih =>
      cases text with
      | nil => rfl
      | cons d ds =>
          rw [List.length_cons] at hlength
          cases hhit : old.isPrefixOf (d :: ds) with
          | true =>
              obtain ⟨first, rest, rfl⟩ := List.exists_cons_of_ne_nil hne
              obtain ⟨tail, htail⟩ := List.isPrefixOf_iff_prefix.mp hhit
              rw [List.cons_append, List.cons_eq_cons] at htail
              obtain ⟨rfl, rfl⟩ := htail
              have hdrop : (rest ++ tail).drop ((first :: rest).length - 1) = tail := by simp
              have hshort : tail.length < n := by
                rw [List.length_append] at hlength
                omega
              rw [substitute_hit hhit, hdrop, List.mem_append,
                ih _ hshort rfl, ← List.cons_append, List.mem_append]
              exact or_congr (iff_of_false hnew hold) Iff.rfl
          | false =>
              have hshort : ds.length < n := by omega
              rw [substitute_miss hhit, List.mem_cons, List.mem_cons, ih _ hshort rfl]

theorem mem_mask_iff {new text : List α} {c : α} (hnew : c ∉ new) {parts : List (List α)}
    (hne : ∀ part ∈ parts, part ≠ []) (hparts : ∀ part ∈ parts, c ∉ part) :
    c ∈ mask new parts text ↔ c ∈ text := by
  induction parts generalizing text with
  | nil => rfl
  | cons old parts ih =>
      have hrest := @ih (replace old new text)
        (fun part hpart => hne part (List.mem_cons_of_mem old hpart))
        fun part hpart => hparts part (List.mem_cons_of_mem old hpart)
      exact hrest.trans (mem_replace_iff (hne old List.mem_cons_self)
        (hparts old List.mem_cons_self) hnew)

section Traces

/-- A character, and whether it was put in. -/
structure Traced (α : Type*) where
  value : α
  inserted : Bool

omit [DecidableEq α] in
def erase (text : List (Traced α)) : List α := text.map Traced.value

omit [DecidableEq α] in
/-- A text of which nothing was put in. -/
def trace (text : List α) : List (Traced α) := text.map (⟨·, false⟩)

omit [DecidableEq α] in
def insertion (new : List α) : List (Traced α) := new.map (⟨·, true⟩)

/-- The part is next. Whether a character was put in makes no difference. -/
def isNext (old : List α) (rest : List (Traced α)) : Bool := old.isPrefixOf (erase rest)

/-- Replace a part, with a note of what is put in. -/
def traceReplace (old new : List α) (text : List (Traced α)) : List (Traced α) :=
  substitute (isNext old) old.length (insertion new) text

def traceMask (new : List α) (parts : List (List α)) (text : List (Traced α)) : List (Traced α) :=
  parts.foldl (fun text part => traceReplace part new text) text

omit [DecidableEq α] in
/-- What is left of the text that was there before. -/
def survivors (text : List (Traced α)) : List α := erase (text.filter fun c => !c.inserted)

variable {new old : List α} {text stretch : List (Traced α)}

omit [DecidableEq α] in
@[simp] theorem erase_append (text text' : List (Traced α)) :
    erase (text ++ text') = erase text ++ erase text' :=
  List.map_append

omit [DecidableEq α] in
@[simp] theorem erase_insertion (new : List α) : erase (insertion new) = new := by
  simp [erase, insertion, Function.comp_def]

omit [DecidableEq α] in
@[simp] theorem erase_trace (text : List α) : erase (trace text) = text := by
  simp [erase, trace, Function.comp_def]

omit [DecidableEq α] in
@[simp] theorem survivors_trace (text : List α) : survivors (trace text) = text := by
  simp [survivors, erase, trace, List.filter_map, Function.comp_def]

omit [DecidableEq α] in
theorem survivors_append (text text' : List (Traced α)) :
    survivors (text ++ text') = survivors text ++ survivors text' := by
  simp [survivors]

omit [DecidableEq α] in
theorem survivors_insertion (new : List α) : survivors (insertion new) = [] := by
  simp [survivors, erase, insertion, List.filter_map, Function.comp_def]

/-- The note changes nothing in the text. -/
theorem erase_traceReplace (old new : List α) (text : List (Traced α)) :
    erase (traceReplace old new text) = replace old new (erase text) := by
  rw [replace_eq_substitute, traceReplace]
  induction hlength : text.length using Nat.strong_induction_on generalizing text with
  | _ n ih =>
      cases text with
      | nil => rfl
      | cons c cs =>
          rw [List.length_cons] at hlength
          have herase : erase (c :: cs) = c.value :: erase cs := rfl
          cases hhit : isNext old (c :: cs) with
          | true =>
              have hshort : (cs.drop (old.length - 1)).length < n := by
                rw [List.length_drop]
                omega
              have hdrop : erase (cs.drop (old.length - 1)) = (erase cs).drop (old.length - 1) :=
                List.map_drop
              rw [substitute_hit hhit, erase_append, erase_insertion,
                ih _ hshort _ rfl, hdrop, herase,
                substitute_hit (herase ▸ hhit)]
          | false =>
              have hshort : cs.length < n := by omega
              rw [substitute_miss hhit, herase, substitute_miss (herase ▸ hhit),
                ← ih _ hshort _ rfl]
              rfl

theorem erase_traceMask (new : List α) (parts : List (List α)) (text : List (Traced α)) :
    erase (traceMask new parts text) = mask new parts (erase text) := by
  induction parts generalizing text with
  | nil => rfl
  | cons old parts ih =>
      have hstep : traceMask new (old :: parts) text =
        traceMask new parts (traceReplace old new text) := rfl
      rw [hstep, ih, erase_traceReplace]
      rfl

/-- Nothing of the text is moved or made up. -/
theorem survivors_traceReplace (old new : List α) (text : List (Traced α)) :
    (survivors (traceReplace old new text)).Sublist (survivors text) := by
  rw [traceReplace]
  induction hlength : text.length using Nat.strong_induction_on generalizing text with
  | _ n ih =>
      cases text with
      | nil => exact List.Sublist.refl _
      | cons c cs =>
          rw [List.length_cons] at hlength
          cases hhit : isNext old (c :: cs) with
          | true =>
              have hshort : (cs.drop (old.length - 1)).length < n := by
                rw [List.length_drop]
                omega
              have hdropped : (cs.drop (old.length - 1)).Sublist (c :: cs) :=
                (List.drop_sublist _ cs).trans (List.sublist_cons_self c cs)
              rw [substitute_hit hhit, survivors_append, survivors_insertion, List.nil_append]
              exact (ih _ hshort _ rfl).trans ((hdropped.filter _).map Traced.value)
          | false =>
              have hshort : cs.length < n := by omega
              rw [substitute_miss hhit, ← List.singleton_append, ← List.singleton_append (l := cs),
                survivors_append, survivors_append]
              exact (ih _ hshort _ rfl).append_left _

theorem survivors_traceMask (new : List α) (parts : List (List α)) (text : List (Traced α)) :
    (survivors (traceMask new parts text)).Sublist (survivors text) := by
  induction parts generalizing text with
  | nil => exact List.Sublist.refl _
  | cons old parts ih =>
      exact (ih (traceReplace old new text)).trans (survivors_traceReplace old new text)

/-- A stretch of the result in which nothing was put in is one of the text, and no part
that was replaced. -/
theorem infix_of_traceMask (hsome : new ≠ []) (hold : ∀ c ∈ stretch, c.inserted = false)
    (hne : stretch ≠ []) {parts : List (List α)} (h : stretch <:+: traceMask new parts text) :
    stretch <:+: text ∧ erase stretch ∉ parts := by
  induction parts generalizing text with
  | nil => exact ⟨h, List.not_mem_nil⟩
  | cons old parts ih =>
      obtain ⟨hin, hother⟩ := ih h
      have hnew : ∀ c ∈ insertion new, c.inserted = true := by
        intro c hc
        obtain ⟨d, _, rfl⟩ := List.mem_map.mp hc
        rfl
      have hkept : ∀ c ∈ stretch, ¬ c.inserted = true :=
        fun c hc => Bool.eq_false_iff.mp (hold c hc)
      have hsome' : insertion new ≠ [] := fun hnil => hsome (List.map_eq_nil_iff.mp hnil)
      obtain ⟨htext, rest, hmiss⟩ := infix_of_substitute hnew hsome' hkept hne hin
      refine ⟨htext, fun hmem => ?_⟩
      rcases List.mem_cons.mp hmem with rfl | hmem
      · rw [isNext, erase_append, List.isPrefixOf_iff_prefix.mpr (List.prefix_append _ _)] at hmiss
        cases hmiss
      · exact hother hmem

/-- What becomes of a text when masks are put in place of parts, any of them and in any
order. A mask may be put in place of text that has masks in it. -/
inductive Masks (new : List α) (parts : List (List α)) (text : List (Traced α)) :
    List (Traced α) → Prop where
  | refl : Masks new parts text text
  | put {before stretch after} (h : Masks new parts text (before ++ stretch ++ after))
      (hpart : erase stretch ∈ parts) : Masks new parts text (before ++ insertion new ++ after)

variable {parts : List (List α)} {text' : List (Traced α)}

/-- Replacing a part is to put some masks, one after the other from the left. -/
theorem masks_substitute (hold : old ∈ parts) (hne : old ≠ []) (before rest : List (Traced α))
    (h : Masks new parts text (before ++ rest)) :
    Masks new parts text (before ++ traceReplace old new rest) := by
  rw [traceReplace]
  induction hlength : rest.length using Nat.strong_induction_on generalizing before rest with
  | _ n ih =>
      cases rest with
      | nil => exact h
      | cons c cs =>
          rw [List.length_cons] at hlength
          cases hhit : isNext old (c :: cs) with
          | true =>
              have hshort : (cs.drop (old.length - 1)).length < n := by
                rw [List.length_drop]
                omega
              have hlast : old.length = old.length - 1 + 1 := by
                have hpos := List.length_pos_of_ne_nil hne
                omega
              have herase : erase ((c :: cs).take old.length) ∈ parts := by
                have hprefix := List.isPrefixOf_iff_prefix.mp hhit
                rw [erase, List.map_take, ← erase, ← List.prefix_iff_eq_take.mp hprefix]
                exact hold
              have hsplit : (c :: cs).take old.length ++ cs.drop (old.length - 1) = c :: cs := by
                conv_rhs => rw [← List.take_append_drop old.length (c :: cs),
                  hlast, List.drop_succ_cons]
                rw [← hlast]
              rw [← hsplit, ← List.append_assoc] at h
              rw [substitute_hit hhit, ← List.append_assoc]
              exact ih _ hshort _ _ (h.put herase) rfl
          | false =>
              have hshort : cs.length < n := by omega
              rw [← List.singleton_append, ← List.append_assoc] at h
              rw [substitute_miss hhit, ← List.singleton_append, ← List.append_assoc]
              exact ih _ hshort _ _ h rfl

theorem masks_traceMask {some : List (List α)} (hsome : ∀ part ∈ some, part ∈ parts ∧ part ≠ [])
    (h : Masks new parts text text') : Masks new parts text (traceMask new some text') := by
  induction some generalizing text' with
  | nil => exact h
  | cons old some ih =>
      obtain ⟨hold, hne⟩ := hsome old List.mem_cons_self
      exact ih (fun part hpart => hsome part (List.mem_cons_of_mem old hpart))
        (masks_substitute hold hne [] text' h)

omit [DecidableEq α] in
/-- What was put in is of the mask. -/
theorem Masks.inserted (h : Masks new parts text text') (htext : ∀ c ∈ text, c.inserted = false) :
    ∀ c ∈ text', c.inserted = true → c.value ∈ new := by
  induction h with
  | refl =>
      intro c hc hin
      rw [htext c hc] at hin
      cases hin
  | put h hpart ih =>
      rename_i before stretch after
      intro c hc hin
      have hold : c ∈ before ++ stretch ++ after → c.value ∈ new := fun hmem => ih c hmem hin
      rw [List.mem_append, List.mem_append] at hc hold
      rcases hc with (hbefore | hput) | hafter
      · exact hold (.inl (.inl hbefore))
      · obtain ⟨d, hd, rfl⟩ := List.mem_map.mp hput
        exact hd
      · exact hold (.inr hafter)

/-- A character of no part, and not of the mask, stays as often as it is there. -/
theorem Masks.count (h : Masks new parts text text') {c : α} (hnew : c ∉ new)
    (hparts : ∀ part ∈ parts, c ∉ part) :
    (erase text').count c = (erase text).count c := by
  induction h with
  | refl => rfl
  | put h hpart ih =>
      rw [erase_append, erase_append, List.count_append, List.count_append] at ih ⊢
      rw [erase_insertion, List.count_eq_zero.mpr hnew, ← ih,
        List.count_eq_zero.mpr (hparts _ hpart)]

end Traces

section Pieces

omit [DecidableEq α]

variable {sep : α} {part : List α}

theorem prefix_of_append_sep (hpart : sep ∉ part) {xs ys : List α} (h : part <+: xs ++ sep :: ys) :
    part <+: xs := by
  induction xs generalizing part with
  | nil =>
      cases part with
      | nil => exact List.nil_prefix
      | cons d part =>
          obtain ⟨rfl, _⟩ := List.cons_prefix_cons.mp h
          exact absurd List.mem_cons_self hpart
  | cons x xs ih =>
      cases part with
      | nil => exact List.nil_prefix
      | cons d part =>
          obtain ⟨rfl, hrest⟩ := List.cons_prefix_cons.mp h
          exact List.cons_prefix_cons.mpr ⟨rfl,
            ih (fun hmem => hpart (List.mem_cons_of_mem d hmem)) hrest⟩

theorem infix_of_append_sep (hpart : sep ∉ part) (hne : part ≠ []) {xs ys : List α}
    (h : part <:+: xs ++ sep :: ys) : part <:+: xs ∨ part <:+: ys := by
  induction xs with
  | nil =>
      rcases List.infix_cons_iff.mp h with hprefix | hinfix
      · have hnil : part <+: [] := prefix_of_append_sep hpart hprefix
        exact absurd (List.prefix_nil.mp hnil) hne
      · exact .inr hinfix
  | cons x xs ih =>
      rcases List.infix_cons_iff.mp h with hprefix | hinfix
      · exact .inl (prefix_of_append_sep hpart hprefix).isInfix
      · exact (ih hinfix).imp_left fun hin => hin.trans (List.suffix_cons x xs).isInfix

theorem infix_intercalate {piece : List α} {pieces : List (List α)} (h : piece ∈ pieces) :
    piece <:+: [sep].intercalate pieces := by
  induction pieces with
  | nil => cases h
  | cons first pieces ih =>
      cases pieces with
      | nil =>
          obtain rfl := List.mem_singleton.mp h
          simp
      | cons next pieces =>
          rw [List.intercalate_cons_cons, List.append_assoc]
          rcases List.mem_cons.mp h with rfl | hrest
          · exact (List.prefix_append _ _).isInfix
          · exact (ih hrest).trans ((List.suffix_append _ _).trans (List.suffix_append _ _)).isInfix

theorem mem_intercalate {pieces : List (List α)} {c : α} (h : c ∈ [sep].intercalate pieces) :
    c = sep ∨ ∃ piece ∈ pieces, c ∈ piece := by
  induction pieces with
  | nil => cases h
  | cons first pieces ih =>
      cases pieces with
      | nil => exact .inr ⟨first, List.mem_cons_self, by simpa using h⟩
      | cons next pieces =>
          rw [List.intercalate_cons_cons, List.append_assoc, List.mem_append,
            List.singleton_append, List.mem_cons] at h
          rcases h with hfirst | rfl | hrest
          · exact .inr ⟨first, List.mem_cons_self, hfirst⟩
          · exact .inl rfl
          · refine (ih hrest).imp_right ?_
            rintro ⟨piece, hpiece, hin⟩
            exact ⟨piece, List.mem_cons_of_mem first hpiece, hin⟩

theorem map_intercalate {β : Type*} (f : α → β) (between : List α) (pieces : List (List α)) :
    (between.intercalate pieces).map f =
      (between.map f).intercalate (pieces.map (List.map f)) := by
  induction pieces with
  | nil => rfl
  | cons first pieces ih =>
      cases pieces with
      | nil => simp
      | cons next pieces =>
          rw [List.intercalate_cons_cons, List.map_append, List.map_append, ih]
          exact List.intercalate_cons_cons.symm

/-- A part without the separator lies within one of the joined pieces. -/
theorem infix_of_intercalate (hpart : sep ∉ part) (hne : part ≠ []) {pieces : List (List α)}
    (h : part <:+: [sep].intercalate pieces) : ∃ piece ∈ pieces, part <:+: piece := by
  induction pieces with
  | nil => exact absurd (List.infix_nil.mp h) hne
  | cons piece pieces ih =>
      cases pieces with
      | nil => exact ⟨piece, by simp, by simpa using h⟩
      | cons next pieces =>
          rw [List.intercalate_cons_cons, List.append_assoc, List.singleton_append] at h
          rcases infix_of_append_sep hpart hne h with hfirst | hrest
          · exact ⟨piece, by simp, hfirst⟩
          · obtain ⟨found, hmem, hin⟩ := ih hrest
            exact ⟨found, List.mem_cons_of_mem piece hmem, hin⟩

/-- What a part is made of when it lies across joined pieces, or within one of them: the
end of a piece, whole pieces, and the beginning of one. -/
def Pieced (sep : α) (P : List α → Prop) (part : List α) : Prop :=
  (∃ piece, P piece ∧ part <:+: piece) ∨
    ∃ first middle last, part = [sep].intercalate (first :: (middle ++ [last])) ∧
      (∃ piece, P piece ∧ first <:+ piece) ∧ (∀ piece ∈ middle, P piece) ∧
        ∃ piece, P piece ∧ last <+: piece

theorem Pieced.mono {P P' : List α → Prop} (hP : ∀ piece, P piece → P' piece)
    (h : Pieced sep P part) :
    Pieced sep P' part := by
  rcases h with ⟨piece, hpiece, hin⟩ | ⟨first, middle, last, rfl,
    ⟨piece, hpiece, hfirst⟩, hmiddle, hlast⟩
  · exact .inl ⟨piece, hP piece hpiece, hin⟩
  · obtain ⟨piece', hpiece', hlast⟩ := hlast
    exact .inr ⟨first, middle, last, rfl, ⟨piece, hP piece hpiece, hfirst⟩,
      fun p hp => hP p (hmiddle p hp), piece', hP piece' hpiece', hlast⟩

theorem prefix_of_intercalate {first : List α} {pieces : List (List α)}
    (h : part <+: [sep].intercalate (first :: pieces)) : part <+: first ∨
      ∃ middle last, part = [sep].intercalate (first :: (middle ++ [last])) ∧
        (∀ piece ∈ middle, piece ∈ pieces) ∧
        ∃ piece ∈ pieces, last <+: piece := by
  induction pieces generalizing first part with
  | nil => exact .inl (by simpa using h)
  | cons next pieces ih =>
      rw [List.intercalate_cons_cons, List.append_assoc, List.singleton_append] at h
      rcases List.prefix_or_prefix_of_prefix h (List.prefix_append first _)
        with hshort | ⟨rest, rfl⟩
      · exact .inl hshort
      have hrest := (List.prefix_append_right_inj first).mp h
      cases rest with
      | nil => exact .inl (by simp)
      | cons c rest =>
          obtain ⟨rfl, hrest⟩ := List.cons_prefix_cons.mp hrest
          rcases ih hrest with hnext | ⟨middle, last, rfl, hmiddle, piece, hpiece, hlast⟩
          · exact .inr ⟨[], rest, by simp [List.intercalate_cons_cons],
              nofun, next, List.mem_cons_self, hnext⟩
          · refine .inr ⟨next :: middle, last, ?_, ?_, piece,
              List.mem_cons_of_mem next hpiece, hlast⟩
            · rw [List.cons_append, List.intercalate_cons_cons,
                List.append_assoc, List.singleton_append]
            · intro p hp
              rcases List.mem_cons.mp hp with rfl | hp
              · exact List.mem_cons_self
              · exact List.mem_cons_of_mem next (hmiddle p hp)

/-- Wherever a part lies in the joined pieces, it is pieced together from them. -/
theorem pieced_of_infix {pieces : List (List α)} (hsome : pieces ≠ [])
    (h : part <:+: [sep].intercalate pieces) :
    Pieced sep (· ∈ pieces) part := by
  induction pieces with
  | nil => exact absurd rfl hsome
  | cons piece pieces ih =>
      have hfirst : ∀ first, first <:+ piece → part <+: [sep].intercalate (first :: pieces) →
          Pieced sep (· ∈ piece :: pieces) part := by
        intro first hsuffix hprefix
        rcases prefix_of_intercalate hprefix with hshort | ⟨middle,
          last, rfl, hmiddle, other, hother, hlast⟩
        · exact .inl ⟨piece, List.mem_cons_self, hshort.isInfix.trans hsuffix.isInfix⟩
        · exact .inr ⟨first, middle, last, rfl, ⟨piece, List.mem_cons_self, hsuffix⟩,
            fun p hp => List.mem_cons_of_mem piece (hmiddle p hp),
              other, List.mem_cons_of_mem piece hother, hlast⟩
      cases pieces with
      | nil => exact .inl ⟨piece, List.mem_cons_self, by simpa using h⟩
      | cons next pieces =>
          have hjoin : ∀ first : List α, [sep].intercalate (first :: next :: pieces) =
              first ++ sep :: [sep].intercalate (next :: pieces) := fun first => by
            rw [List.intercalate_cons_cons, List.append_assoc, List.singleton_append]
          rw [hjoin, List.infix_append_iff, List.infix_cons_iff] at h
          rcases h with hin | (hstart | hrest) | ⟨first, rest, rfl, hsuffix, hstart⟩
          · exact .inl ⟨piece, List.mem_cons_self, hin⟩
          · exact hfirst [] (List.nil_suffix) (hjoin [] ▸ hstart)
          · exact (ih (List.cons_ne_nil next pieces) hrest).mono fun p hp =>
              List.mem_cons_of_mem piece hp
          · exact hfirst first hsuffix (hjoin first ▸
              (List.prefix_append_right_inj first).mpr hstart)

/-- A part without the separator lies within one piece. -/
theorem Pieced.within {P : List α → Prop} (h : Pieced sep P part) (hpart : sep ∉ part) :
    ∃ piece, P piece ∧ part <:+: piece := by
  rcases h with hwithin | ⟨first, middle, last, rfl, _⟩
  · exact hwithin
  · refine absurd ?_ hpart
    cases middle <;> simp [List.intercalate_cons_cons]

end Pieces

end Keepup.Lib.Masking
