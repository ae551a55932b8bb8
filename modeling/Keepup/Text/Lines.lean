import Keepup.Text
import Mathlib.Data.List.Infix
import Mathlib.Data.List.TakeWhile

/-!
Texts of several lines: `splitlines`, cutting at the first occurrence of a
marker, and the last occurrence of a character. The lemmas say that lines
survive being written out and split again, and that a marker is found where it
was written, as long as no line before it contains it.
-/

namespace Keepup.Text

/-- The characters at which `str.splitlines` ends a line. -/
def isLineBreak (c : Char) : Bool :=
  let n := c.toNat
  (10 ≤ n && n ≤ 13) || (28 ≤ n && n ≤ 30) || n == 0x85 || n == 0x2028 || n == 0x2029

def splitLinesChars : List Char → List (List Char)
  | [] => []
  | '\r' :: '\n' :: cs => [] :: splitLinesChars cs
  | c :: cs =>
      if isLineBreak c then [] :: splitLinesChars cs
      else
        match splitLinesChars cs with
        | [] => [[c]]
        | l :: ls => (c :: l) :: ls

def splitLines (s : String) : List String := (splitLinesChars s.toList).map String.ofList

/-- Every line with its newline. -/
def unlines (lines : List String) : String :=
  String.ofList (lines.flatMap fun l => l.toList ++ ['\n'])

def cutChars (marker : List Char) : List Char → Option (List Char × List Char)
  | [] => if marker = [] then some ([], []) else none
  | c :: cs =>
      if marker.isPrefixOf (c :: cs) then some ([], (c :: cs).drop marker.length)
      else (cutChars marker cs).map fun parts => (c :: parts.1, parts.2)

/-- What stands before and after the first occurrence of a marker. -/
def cut (marker s : String) : Option (String × String) :=
  (cutChars marker.toList s.toList).map fun parts => (String.ofList parts.1, String.ofList parts.2)

/-- `s.split(c)[0]`. -/
def before (c : Char) (s : String) : String := String.ofList (s.toList.takeWhile (· != c))

/-- `s.rsplit(c, 1)[0]`. -/
def beforeLast (c : Char) (s : String) : String :=
  if c ∈ s.toList then
    String.ofList ((s.toList.reverse.dropWhile (· != c)).drop 1).reverse
  else s

theorem unlines_append (ls ls' : List String) :
    unlines (ls ++ ls') = unlines ls ++ unlines ls' := by
  simp [unlines, String.ofList_append]

theorem unlines_cons (l : String) (ls : List String) :
    unlines (l :: ls) = l ++ ("\n" ++ unlines ls) := by
  apply String.toList_inj.mp
  simp [unlines]

@[simp] theorem unlines_nil : unlines [] = "" := rfl

section Lines

variable {l rest marker : List Char}

theorem splitLinesChars_line (hl : ∀ c ∈ l, isLineBreak c = false) :
    splitLinesChars (l ++ '\n' :: rest) = l :: splitLinesChars rest := by
  induction l with
  | nil => rw [List.nil_append, splitLinesChars, if_pos (by decide)]; simp
  | cons c l ih =>
      have hc : isLineBreak c = false := hl c (by simp)
      have hcr : c ≠ '\r' := by rintro rfl; exact absurd hc (by decide)
      rw [List.cons_append, splitLinesChars, ih fun d hd => hl d (by simp [hd]),
        if_neg (by simp [hc])]
      exact fun _ h _ => hcr h

/-- A text without a line break is one line, or none if it is empty. -/
theorem splitLinesChars_unbroken (hl : ∀ c ∈ l, isLineBreak c = false) :
    splitLinesChars l = if l = [] then [] else [l] := by
  induction l with
  | nil => rfl
  | cons c l ih =>
      have hc : isLineBreak c = false := hl c (by simp)
      have hcr : c ≠ '\r' := by rintro rfl; exact absurd hc (by decide)
      rw [splitLinesChars, if_neg (by simp [hc]), ih fun d hd => hl d (by simp [hd])]
      · by_cases hnil : l = [] <;> simp [hnil]
      · exact fun _ h _ => hcr h

/-- Lines that are written out are split into the same lines. -/
theorem splitLines_unlines_append {lines : List String} (rest : String)
    (hlines : ∀ l ∈ lines, ∀ c ∈ l.toList, isLineBreak c = false) :
    splitLines (unlines lines ++ rest) = lines ++ splitLines rest := by
  induction lines with
  | nil => simp [unlines]
  | cons l lines ih =>
      have hl := hlines l (by simp)
      have hrest := ih fun l' hl' => hlines l' (by simp [hl'])
      have hcons : (unlines (l :: lines) ++ rest).toList =
          l.toList ++ '\n' :: (unlines lines ++ rest).toList := by simp [unlines]
      rw [splitLines, hcons, splitLinesChars_line hl, List.map_cons, String.ofList_toList]
      exact congrArg (l :: ·) hrest

theorem splitLines_unlines {lines : List String}
    (hlines : ∀ l ∈ lines, ∀ c ∈ l.toList, isLineBreak c = false) :
    splitLines (unlines lines) = lines := by
  have happ := splitLines_unlines_append "" hlines
  simpa [splitLines, splitLinesChars] using happ

end Lines

section Cut

variable {l rest marker : List Char}

theorem cutChars_here (hmarker : marker ≠ []) :
    cutChars marker (marker ++ rest) = some ([], rest) := by
  obtain ⟨c, cs, rfl⟩ := List.exists_cons_of_ne_nil hmarker
  have hlead : (c :: cs).isPrefixOf (c :: (cs ++ rest)) = true := by
    rw [List.isPrefixOf_iff_prefix]
    exact List.prefix_append (c :: cs) rest
  rw [List.cons_append, cutChars, if_pos hlead]
  simp

/-- The first occurrence of a single character. -/
theorem cutChars_char {c : Char} (hl : c ∉ l) : cutChars [c] (l ++ c :: rest) = some (l, rest) := by
  induction l with
  | nil => exact cutChars_here (List.cons_ne_nil c [])
  | cons d l ih =>
      rw [List.mem_cons, not_or] at hl
      have hlead : ¬ ([c].isPrefixOf (d :: (l ++ c :: rest)) = true) := by simpa using hl.1
      rw [List.cons_append, cutChars, if_neg hlead, ih hl.2]
      rfl

theorem cutChars_none (hmarker : marker ≠ []) (hl : ¬ marker <:+: l) :
    cutChars marker l = none := by
  induction l with
  | nil => rw [cutChars, if_neg hmarker]
  | cons c l ih =>
      have hlead : marker.isPrefixOf (c :: l) ≠ true := by
        rw [Ne, List.isPrefixOf_iff_prefix]
        exact fun h => hl h.isInfix
      rw [cutChars, if_neg hlead, ih fun h => hl (h.trans (List.suffix_cons c l).isInfix)]
      rfl

/-- A marker does not reach over a character that it does not have. -/
theorem prefix_of_prefix_append {e : Char} (he : e ∉ marker) (h : marker <+: l ++ e :: rest) :
    marker <+: l := by
  obtain ⟨post, hpost⟩ := h
  have hle : marker.length ≤ l.length := by
    by_contra hlt
    have hget : (marker ++ post)[l.length]? = some e := by rw [hpost]; simp
    rw [List.getElem?_append_left (by omega)] at hget
    exact he (List.mem_of_getElem? hget)
  have htake : marker = l.take marker.length := by
    have := congrArg (List.take marker.length) hpost
    rwa [List.take_left, List.take_append_of_le_length hle] at this
  rw [htake]
  exact List.take_prefix _ _

theorem infix_of_prefix_append {e : Char} (he : e ∉ marker) (h : marker <+: l ++ e :: rest) :
    marker <:+: l := (prefix_of_prefix_append he h).isInfix

theorem infix_append_cons {e : Char} (he : e ∉ marker) (h : marker <:+: l ++ e :: rest) :
    marker <:+: l ∨ marker <:+: rest := by
  induction l with
  | nil =>
      rcases List.infix_cons_iff.mp h with hlead | htail
      · exact .inl (infix_of_prefix_append he hlead)
      · exact .inr htail
  | cons c l ih =>
      rcases List.infix_cons_iff.mp h with hlead | htail
      · exact .inl (infix_of_prefix_append (l := c :: l) he hlead)
      · rcases ih htail with hl | hrest
        · exact .inl (hl.trans (List.suffix_cons c l).isInfix)
        · exact .inr hrest

/-- The search for a marker passes over a line that does not contain it. -/
theorem cutChars_line (hmarker : marker ≠ []) (hnl : '\n' ∉ marker) (hl : ¬ marker <:+: l) :
    cutChars marker (l ++ '\n' :: rest) =
      (cutChars marker rest).map fun parts => (l ++ '\n' :: parts.1, parts.2) := by
  induction l with
  | nil =>
      have hlead : marker.isPrefixOf ('\n' :: rest) ≠ true := by
        rw [Ne, List.isPrefixOf_iff_prefix]
        intro h
        exact hmarker (List.eq_nil_of_infix_nil (infix_of_prefix_append (l := []) hnl h))
      rw [List.nil_append, cutChars, if_neg hlead]
      simp
  | cons c l ih =>
      have hlead : marker.isPrefixOf (c :: (l ++ '\n' :: rest)) ≠ true := by
        rw [Ne, List.isPrefixOf_iff_prefix]
        exact fun h => hl (infix_of_prefix_append (l := c :: l) hnl h)
      have htail : ¬ marker <:+: l := fun h => hl (h.trans (List.suffix_cons c l).isInfix)
      rw [List.cons_append, cutChars, if_neg hlead, ih htail, Option.map_map]
      simp [Function.comp_def]

theorem cutChars_lines (hmarker : marker ≠ []) (hnl : '\n' ∉ marker) {lines : List String}
    (hlines : ∀ l ∈ lines, ¬ marker <:+: l.toList) :
    cutChars marker ((unlines lines).toList ++ rest) =
      (cutChars marker rest).map fun parts => ((unlines lines).toList ++ parts.1, parts.2) := by
  induction lines with
  | nil => simp [unlines]
  | cons l lines ih =>
      have hstep := ih fun l' hl' => hlines l' (by simp [hl'])
      have hcons : (unlines (l :: lines)).toList = l.toList ++ '\n' :: (unlines lines).toList := by
        simp [unlines]
      rw [hcons, List.append_assoc, List.cons_append,
        cutChars_line hmarker hnl (hlines l (by simp)),
        hstep, Option.map_map]
      simp [Function.comp_def]

variable {lines : List String} {mark after : String}

theorem cut_unlines_append (hmark : mark ≠ "") (hnl : '\n' ∉ mark.toList)
    (hlines : ∀ l ∈ lines, ¬ mark.toList <:+: l.toList) (text : String) :
    cut mark (unlines lines ++ text) =
      (cut mark text).map fun parts => (unlines lines ++ parts.1, parts.2) := by
  have hne : mark.toList ≠ [] := by simpa using hmark
  rw [cut, String.toList_append, cutChars_lines hne hnl hlines, cut, Option.map_map, Option.map_map]
  apply congrArg (Option.map · _)
  funext parts
  simp [String.ofList_append]

theorem cut_none (hmark : mark ≠ "") {s : String} (h : ¬ mark.toList <:+: s.toList) :
    cut mark s = none := by
  rw [cut, cutChars_none (by simpa using hmark) h]
  rfl

/-- A marker is found where it was written. -/
theorem cut_unlines (hmark : mark ≠ "") (hnl : '\n' ∉ mark.toList)
    (hlines : ∀ l ∈ lines, ¬ mark.toList <:+: l.toList) :
    cut mark (unlines lines ++ (mark ++ after)) = some (unlines lines, after) := by
  have hne : mark.toList ≠ [] := by simpa using hmark
  have hhere : cut mark (mark ++ after) = some ("", after) := by
    rw [cut, String.toList_append, cutChars_here hne]
    simp
  rw [cut_unlines_append hmark hnl hlines, hhere]
  simp

/-- A text without a marker is not cut. -/
theorem cut_unlines_none (hmark : mark ≠ "") (hnl : '\n' ∉ mark.toList)
    (hlines : ∀ l ∈ lines, ¬ mark.toList <:+: l.toList) : cut mark (unlines lines) = none := by
  have hnil : cut mark "" = none := by simp [cut, cutChars, hmark]
  have happ := cut_unlines_append hmark hnl hlines ""
  rwa [hnil, Option.map_none, String.append_empty] at happ

end Cut

section Words

/-- What holds of all characters of a text is decided along the text, and not
over all characters. -/
instance decidableForallChars (P : Char → Prop) [DecidablePred P] (cs : List Char) :
    Decidable (∀ c ∈ cs, P c) := List.decidableBAll P cs

/-- A text without whitespace that is not empty. -/
structure IsWord (w : String) : Prop where
  nonempty : w ≠ ""
  solid : ∀ c ∈ w.toList, isSpace c = false

variable {v w rest : String}

theorem append_ne_empty (hw : w ≠ "") (rest : String) : w ++ rest ≠ "" := by
  intro h
  have hlist := congrArg String.toList h
  simp only [String.toList_append, String.toList_empty, List.append_eq_nil_iff] at hlist
  exact hw (by simpa using hlist.1)

instance (w : String) : Decidable (IsWord w) :=
  decidable_of_iff ((w != "" && w.toList.all fun c => !isSpace c) = true)
    ⟨fun h => ⟨by simp_all, by simp_all⟩, fun h => by simpa using ⟨h.nonempty, h.solid⟩⟩

theorem IsWord.append (hv : IsWord v) (hw : IsWord w) : IsWord (v ++ w) := by
  refine ⟨append_ne_empty hv.nonempty w, fun c hc => ?_⟩
  rw [String.toList_append, List.mem_append] at hc
  exact hc.elim (hv.solid c) (hw.solid c)

theorem IsWord.toList_ne_nil (hw : IsWord w) : w.toList ≠ [] := by simpa using hw.nonempty

theorem unbroken_of_solid {c : Char} (h : isSpace c = false) : isLineBreak c = false := by
  simp only [isSpace, isLineBreak, Bool.or_eq_false_iff, Bool.and_eq_false_iff,
    decide_eq_false_iff_not,
    beq_eq_false_iff_ne] at h ⊢
  omega

theorem IsWord.unbroken (hw : IsWord w) : ∀ c ∈ w.toList, isLineBreak c = false :=
  fun c hc => unbroken_of_solid (hw.solid c hc)

/-- Two parts of a line. -/
theorem unbroken_append (hv : ∀ c ∈ v.toList, isLineBreak c = false)
    (hw : ∀ c ∈ w.toList, isLineBreak c = false) :
    ∀ c ∈ (v ++ w).toList, isLineBreak c = false := by
  intro c hc
  rw [String.toList_append, List.mem_append] at hc
  exact hc.elim (hv c) (hw c)

theorem split_blank : split (" " ++ rest) = split rest := by
  simp [split, splitChars, isSpace]

/-- A word that a blank ends is the first one. -/
theorem split_word (hw : IsWord w) : split (w ++ (" " ++ rest)) = w :: split rest := by
  have hlist : (w ++ (" " ++ rest)).toList = w.toList ++ ' ' :: rest.toList := by simp
  rw [split, hlist, splitChars_append hw.solid (by decide),
    List.filter_cons_of_pos (by simpa using hw.nonempty)]
  simp [split]

theorem split_last (hw : IsWord w) : split w = [w] := by
  rw [split, splitChars_single hw.solid, List.filter_cons_of_pos (by simpa using hw.nonempty)]
  simp

def blanks (n : Nat) : String := String.ofList (List.replicate n ' ')

theorem split_blanks (n : Nat) : split (blanks n ++ rest) = split rest := by
  induction n with
  | zero => simp [blanks]
  | succ n ih =>
      have hsucc : blanks (n + 1) ++ rest = " " ++ (blanks n ++ rest) := by
        apply String.toList_inj.mp
        simp [blanks, List.replicate_succ]
      rw [hsucc, split_blank, ih]

/-- The words of a line with columns. -/
theorem split_column (n : Nat) (hw : IsWord w) :
    split (w ++ (blanks (n + 1) ++ rest)) = w :: split rest := by
  have hsucc : blanks (n + 1) ++ rest = " " ++ (blanks n ++ rest) := by
    apply String.toList_inj.mp
    simp [blanks, List.replicate_succ]
  rw [hsucc, split_word hw, split_blanks]

end Words

section Parts

variable {a b : String} {c : Char}

/-- Nothing to strip from a line between two words. -/
theorem strip_between (ha : IsWord a) (mid : String) (hb : IsWord b) :
    strip (a ++ (mid ++ b)) = a ++ (mid ++ b) := by
  apply strip_eq_self
  · obtain ⟨d, ds, hds⟩ := List.exists_cons_of_ne_nil ha.toList_ne_nil
    intro c hc
    rw [String.toList_append, hds] at hc
    exact ha.solid c (by simpa [hds, eq_comm] using Or.inl hc)
  · intro c hc
    rw [String.toList_append, String.toList_append, ← List.append_assoc, List.getLast?_append,
      List.getLast?_eq_some_getLast hb.toList_ne_nil, Option.some_or, Option.mem_some_iff] at hc
    exact hb.solid c (hc ▸ List.getLast_mem hb.toList_ne_nil)

theorem isIn_iff : isIn a b = true ↔ a.toList <:+: b.toList := by
  simp only [isIn, List.any_eq_true, List.mem_tails, List.isPrefixOf_iff_prefix]
  constructor
  · rintro ⟨t, hsuffix, hprefix⟩
    exact hprefix.isInfix.trans hsuffix.isInfix
  · rintro ⟨s, t, h⟩
    exact ⟨a.toList ++ t, ⟨s, by rw [← h, List.append_assoc]⟩, List.prefix_append _ _⟩

theorem isIn_append (pre post : String) : isIn a (pre ++ (a ++ post)) = true := by
  rw [isIn_iff, String.toList_append, String.toList_append, ← List.append_assoc]
  exact List.infix_append _ _ _

/-- A text without one of the characters of `a` does not contain `a`. -/
theorem isIn_eq_false (ha : c ∈ a.toList) (hb : c ∉ b.toList) : isIn a b = false := by
  rw [← Bool.not_eq_true, isIn_iff]
  exact fun h => hb (h.subset ha)

theorem head_append (ha : a ≠ "") : (a ++ b).toList.head? = a.toList.head? := by
  rw [String.toList_append, List.head?_append_of_ne_nil _ (by simpa using ha)]

theorem startsWith_append (a b : String) : startsWith (a ++ b) a = true := by
  rw [startsWith, List.isPrefixOf_iff_prefix, String.toList_append]
  exact List.prefix_append _ _

theorem startsWith_head (h : startsWith a b = true) (hb : b ≠ "") :
    a.toList.head? = b.toList.head? := by
  have hbne : b.toList ≠ [] := by simpa using hb
  obtain ⟨post, hpost⟩ := List.isPrefixOf_iff_prefix.mp h
  rw [← hpost, List.head?_append_of_ne_nil _ hbne]

theorem splitOn_piece (ha : c ∉ a.toList) (rest : String) :
    splitOn c (a ++ (String.ofList [c] ++ rest)) = a :: splitOn c rest := by
  have hlist : (a ++ (String.ofList [c] ++ rest)).toList = a.toList ++ c :: rest.toList := by simp
  have hfree : ∀ d ∈ a.toList, (d == c) = false := by
    intro d hd
    have hne : d ≠ c := by rintro rfl; exact ha hd
    simpa using hne
  rw [splitOn, hlist, splitChars_append hfree (by simp)]
  simp [splitOn]

theorem splitOn_last (ha : c ∉ a.toList) : splitOn c a = [a] := by
  have hfree : ∀ d ∈ a.toList, (d == c) = false := by
    intro d hd
    have hne : d ≠ c := by rintro rfl; exact ha hd
    simpa using hne
  rw [splitOn, splitChars_single hfree]
  simp

theorem prefix_of_head_splitChars {sep : Char → Bool} {l w : List Char} {ws : List (List Char)}
    (h : splitChars sep l = w :: ws) : w <+: l := by
  induction l generalizing w ws with
  | nil =>
      cases h
      exact List.nil_prefix
  | cons c l ih =>
      rw [splitChars] at h
      split at h
      · cases h
        exact List.nil_prefix
      · split at h
        · cases h
          exact List.cons_prefix_cons.mpr ⟨rfl, List.nil_prefix⟩
        · rename_i hrest
          cases h
          exact List.cons_prefix_cons.mpr ⟨rfl, ih hrest⟩

theorem infix_of_mem_splitChars {sep : Char → Bool} {l w : List Char} (h : w ∈ splitChars sep l) :
    w <:+: l := by
  induction l generalizing w with
  | nil =>
      rw [splitChars, List.mem_singleton] at h
      rw [h]
  | cons c l ih =>
      have hlater : ∀ v ∈ splitChars sep l, v <:+: c :: l := fun v hv =>
        (ih hv).trans (List.suffix_cons c l).isInfix
      cases hsplit : splitChars sep (c :: l) with
      | nil =>
          rw [hsplit] at h
          cases h
      | cons v vs =>
          have hfirst := (prefix_of_head_splitChars hsplit).isInfix
          rw [hsplit] at h
          rcases List.mem_cons.mp h with rfl | hmem
          · exact hfirst
          · refine hlater w ?_
            rw [splitChars] at hsplit
            split at hsplit
            · cases hsplit
              exact hmem
            · split at hsplit
              · cases hsplit
                cases hmem
              · rename_i hrest
                cases hsplit
                rw [hrest]
                exact List.mem_cons_of_mem _ hmem

/-- The pieces of a text are parts of it. -/
theorem infix_of_mem_splitOn (h : b ∈ splitOn c a) : b.toList <:+: a.toList := by
  obtain ⟨piece, hpiece, rfl⟩ := List.mem_map.mp h
  rw [String.toList_ofList]
  exact infix_of_mem_splitChars hpiece

theorem before_append (ha : c ∉ a.toList) (rest : String) :
    before c (a ++ (String.ofList [c] ++ rest)) = a := by
  have hfree : ∀ d ∈ a.toList, (d != c) = true := by
    intro d hd
    have hne : d ≠ c := by rintro rfl; exact ha hd
    simpa using hne
  have hlist : (a ++ (String.ofList [c] ++ rest)).toList = a.toList ++ c :: rest.toList := by simp
  rw [before, hlist, List.takeWhile_append_of_pos hfree, List.takeWhile_cons_of_neg (by simp)]
  simp

theorem beforeLast_append (hb : c ∉ b.toList) :
    beforeLast c (a ++ (String.ofList [c] ++ b)) = a := by
  have hfree : ∀ d ∈ b.toList.reverse, (d != c) = true := by
    intro d hd
    have hne : d ≠ c := by rintro rfl; exact hb (List.mem_reverse.mp hd)
    simpa using hne
  have hlist : (a ++ (String.ofList [c] ++ b)).toList = a.toList ++ c :: b.toList := by simp
  have hrev : (a.toList ++ c :: b.toList).reverse =
    b.toList.reverse ++ c :: a.toList.reverse := by simp
  rw [beforeLast, if_pos (by simp), hlist, hrev, List.dropWhile_append_of_pos hfree,
    List.dropWhile_cons_of_neg (by simp)]
  simp

/-- A word between whitespace is what is left of the text. -/
theorem strip_surrounded (pre post : String) (hpre : pre.toList.all isSpace = true)
    (ha : IsWord a) (hpost : post.toList.all isSpace = true) : strip (pre ++ (a ++ post)) = a := by
  obtain ⟨d, ds, hds⟩ := List.exists_cons_of_ne_nil ha.toList_ne_nil
  have hd : isSpace d = false := ha.solid d (by simp [hds])
  have hfront : (pre ++ (a ++ post)).toList.dropWhile isSpace = a.toList ++ post.toList := by
    rw [String.toList_append, List.dropWhile_append_of_pos (List.all_eq_true.mp hpre),
      String.toList_append, hds,
      List.cons_append, List.dropWhile_cons_of_neg (by simp [hd])]
  have hback : dropEndWhile isSpace (a.toList ++ post.toList) = a.toList := by
    obtain ⟨e, es, hes⟩ :=
      List.exists_cons_of_ne_nil (by simpa using ha.nonempty : a.toList.reverse ≠ [])
    have he : isSpace e = false := ha.solid e (List.mem_reverse.mp (by simp [hes]))
    have hrev : ∀ c ∈ post.toList.reverse, isSpace c = true := fun c hc =>
      List.all_eq_true.mp hpost c (List.mem_reverse.mp hc)
    rw [dropEndWhile, List.reverse_append, List.dropWhile_append_of_pos hrev, hes,
      List.dropWhile_cons_of_neg (by simp [he]), ← hes, List.reverse_reverse]
  rw [strip, hfront, hback, String.ofList_toList]

/-- A padded cell holds its text. -/
theorem strip_padded (ha : IsWord a) (n : Nat) : strip (" " ++ a ++ blanks n) = a := by
  rw [String.append_assoc]
  apply strip_surrounded _ _ (by decide) ha
  have hblank : isSpace ' ' = true := by decide
  simp [blanks, hblank]

/-- What `echo` prints, read back from the end of a text. -/
theorem strip_line (ha : IsWord a) : strip ("\n" ++ (a ++ "\n")) = a :=
  strip_surrounded _ _ (by decide) ha (by decide)

theorem strip_word (ha : IsWord a) : strip a = a := by
  have hself := strip_surrounded "" "" (by simp) ha (by simp)
  simpa using hself

theorem strip_spaces (h : ∀ c ∈ a.toList, isSpace c = true) : strip a = "" := by
  apply String.toList_inj.mp
  rw [strip, List.dropWhile_eq_nil_iff.mpr h]
  rfl

theorem strip_blanks (n : Nat) (a : String) : strip (blanks n ++ a) = strip a := by
  have hblanks : ∀ c ∈ (blanks n).toList, isSpace c = true := by
    intro c hc
    rw [blanks, String.toList_ofList, List.mem_replicate] at hc
    rw [hc.2]
    rfl
  rw [strip, strip, String.toList_append, List.dropWhile_append_of_pos hblanks]

theorem mem_of_mem_strip (h : c ∈ (strip a).toList) : c ∈ a.toList := by
  rw [strip, dropEndWhile, String.toList_ofList, List.mem_reverse] at h
  have hmem := List.mem_reverse.mp ((List.dropWhile_sublist _).subset h)
  exact (List.dropWhile_sublist _).subset hmem

theorem dropWhile_head (p : Char → Bool) (l : List Char) :
    ∀ c ∈ (l.dropWhile p).head?, p c = false := by
  intro c hc
  have h := List.head?_dropWhile_not p l
  rw [hc] at h
  exact h

/-- A stripped text has nothing left to strip. -/
theorem strip_strip (s : String) : strip (strip s) = strip s := by
  have hlist : (strip s).toList =
      ((s.toList.dropWhile isSpace).reverse.dropWhile isSpace).reverse :=
    String.toList_ofList
  apply strip_eq_self
  · intro c hc
    have hlead : ((s.toList.dropWhile isSpace).reverse.dropWhile isSpace).reverse <+:
        s.toList.dropWhile isSpace := by
      have h := List.dropWhile_suffix isSpace (l := (s.toList.dropWhile isSpace).reverse)
      simpa using h.reverse
    obtain ⟨rest, hrest⟩ := hlead
    apply dropWhile_head isSpace s.toList
    rw [hlist] at hc
    rw [← hrest, List.head?_append, hc]
    rfl
  · intro c hc
    rw [hlist, List.getLast?_reverse] at hc
    exact dropWhile_head _ _ c hc

/-- Stripping leaves a word at the front. -/
theorem startsWith_strip {s lead : String} (hword : IsWord lead)
    (h : startsWith s lead = true) : startsWith (strip s) lead = true := by
  rw [startsWith, List.isPrefixOf_iff_prefix] at h ⊢
  obtain ⟨rest, hrest⟩ := h
  have hfront : s.toList.dropWhile isSpace = lead.toList ++ rest := by
    obtain ⟨c, cs, hcs⟩ := List.exists_cons_of_ne_nil hword.toList_ne_nil
    have hc : isSpace c = false := hword.solid c (by simp [hcs])
    rw [← hrest, hcs, List.cons_append, List.dropWhile_cons_of_neg (by simp [hc])]
  have hback : lead.toList.reverse.dropWhile isSpace = lead.toList.reverse := by
    obtain ⟨c, cs, hcs⟩ :=
      List.exists_cons_of_ne_nil (by simpa using hword.nonempty : lead.toList.reverse ≠ [])
    have hc : isSpace c = false := hword.solid c (List.mem_reverse.mp (by simp [hcs]))
    rw [hcs, List.dropWhile_cons_of_neg (by simp [hc])]
  rw [strip, String.toList_ofList, hfront, dropEndWhile, List.reverse_append,
    List.dropWhile_append]
  split
  · rw [hback, List.reverse_reverse]
  · rw [List.reverse_append, List.reverse_reverse]
    exact List.prefix_append _ _

theorem toString_isWord (n : Nat) : IsWord (toString n) := by
  constructor
  · intro h
    have hnil := toString_ne_nil n
    simp [h] at hnil
  · exact fun c hc => digit_not_space (toString_digits n c hc)

end Parts

section Joined

/-- `c.join(parts)`. -/
def joinOn (c : Char) : List String → String
  | [] => ""
  | [a] => a
  | a :: as => a ++ (String.ofList [c] ++ joinOn c as)

variable {a : String} {c : Char}

theorem splitChars_ne_nil (sep : Char → Bool) (l : List Char) : splitChars sep l ≠ [] := by
  cases l with
  | nil => simp [splitChars]
  | cons c l =>
      rw [splitChars]
      split
      · simp
      · split <;> simp

/-- A separator ends a piece, whatever stands before it. -/
theorem splitChars_sep {sep : Char → Bool} {d : Char} (hd : sep d = true) (w rest : List Char) :
    splitChars sep (w ++ d :: rest) = splitChars sep w ++ splitChars sep rest := by
  induction w with
  | nil => simp [splitChars, hd]
  | cons c w ih =>
      obtain ⟨v, vs, hw⟩ := List.exists_cons_of_ne_nil (splitChars_ne_nil sep w)
      rw [List.cons_append, splitChars, splitChars, ih, hw]
      split <;> rfl

theorem splitOn_sep (c : Char) (a b : String) :
    splitOn c (a ++ (String.ofList [c] ++ b)) = splitOn c a ++ splitOn c b := by
  have hlist : (a ++ (String.ofList [c] ++ b)).toList = a.toList ++ c :: b.toList := by simp
  rw [splitOn, hlist, splitChars_sep (by simp), List.map_append, splitOn, splitOn]

theorem splitOn_joinOn (c : Char) {parts : List String} (h : parts ≠ []) :
    splitOn c (joinOn c parts) = parts.flatMap (splitOn c) := by
  induction parts with
  | nil => exact absurd rfl h
  | cons a as ih =>
      cases as with
      | nil => simp [joinOn]
      | cons b bs =>
          have hjoin :
              joinOn c (a :: b :: bs) = a ++ (String.ofList [c] ++ joinOn c (b :: bs)) := rfl
          rw [hjoin, splitOn_sep, ih (List.cons_ne_nil b bs), ← List.flatMap_cons]

theorem before_free (ha : c ∉ a.toList) : before c a = a := by
  have hfree : ∀ d ∈ a.toList, (d != c) = true := by
    intro d hd
    have hne : d ≠ c := by rintro rfl; exact ha hd
    simpa using hne
  rw [before, List.takeWhile_eq_self_iff.mpr hfree, String.ofList_toList]

theorem before_append_free (ha : c ∉ a.toList) (b : String) :
    before c (a ++ b) = a ++ before c b := by
  have hfree : ∀ d ∈ a.toList, (d != c) = true := by
    intro d hd
    have hne : d ≠ c := by rintro rfl; exact ha hd
    simpa using hne
  apply String.toList_inj.mp
  simp [before, List.takeWhile_append_of_pos hfree]

theorem not_mem_before (c : Char) (a : String) : c ∉ (before c a).toList := by
  intro h
  rw [before, String.toList_ofList] at h
  simpa using List.mem_takeWhile_imp h

theorem splitOn_before (c : Char) (a : String) : before c a ∈ splitOn c a := by
  by_cases h : c ∈ a.toList
  · have hdrop : a.toList.dropWhile (· != c) ≠ [] := by
      intro hnil
      have hall := List.dropWhile_eq_nil_iff.mp hnil c h
      simp at hall
    obtain ⟨d, rest, hrest⟩ := List.exists_cons_of_ne_nil hdrop
    have hd : d = c := by
      have hhead := dropWhile_head (· != c) a.toList d (by rw [hrest]; rfl)
      simpa using hhead
    have htext : a = before c a ++ (String.ofList [c] ++ String.ofList rest) := by
      apply String.toList_inj.mp
      rw [hd] at hrest
      simp [before, ← hrest]
    rw [htext, before_append (not_mem_before c a), splitOn_piece (not_mem_before c a)]
    exact List.mem_cons_self
  · rw [before_free h, splitOn_last h]
    exact List.mem_singleton_self a

theorem cut_char {d : Char} (ha : d ∉ a.toList) (b : String) :
    cut (String.ofList [d]) (a ++ (String.ofList [d] ++ b)) = some (a, b) := by
  have hlist : (a ++ (String.ofList [d] ++ b)).toList = a.toList ++ d :: b.toList := by simp
  rw [cut, hlist, String.toList_ofList, cutChars_char ha]
  simp

end Joined

end Keepup.Text
