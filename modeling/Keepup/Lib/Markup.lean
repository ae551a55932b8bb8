import Mathlib.Data.List.Basic

/-!
Text in markup. Five characters are written as references, so that a reader finds neither a tag nor
a reference in a text that has been escaped, and reads it as what it was.
-/

namespace Keepup.Lib.Markup

section Escaping

/-- The characters that are escaped, with the names of their references. -/
def references : List (Char × List Char) :=
  [('&', "amp".toList), ('<', "lt".toList), ('>', "gt".toList),
    ('"', "quot".toList), ('\'', "#x27".toList)]

def escapeChar (c : Char) : List Char :=
  match references.lookup c with
  | some name => '&' :: name ++ [';']
  | none => [c]

def escape (text : List Char) : List Char := text.flatMap escapeChar

/-- What a reference stands for. An unknown one is text. -/
def expand (name : List Char) : List Char :=
  match references.find? fun reference => reference.2 = name with
  | some reference => [reference.1]
  | none => '&' :: name ++ [';']

/-- Read text, in a reference if the start of its name is given. -/
def unescape : Option (List Char) → List Char → List Char
  | none, [] => []
  | some name, [] => '&' :: name
  | none, c :: cs => if c = '&' then unescape (some []) cs else c :: unescape none cs
  | some name, c :: cs => if c = ';' then expand name ++ unescape none cs
      else unescape (some (name ++ [c])) cs

theorem unescape_name {word : List Char} (hword : ';' ∉ word) (name rest : List Char) :
    unescape (some name) (word ++ ';' :: rest) = expand (name ++ word) ++ unescape none rest := by
  induction word generalizing name with
  | nil => simp [unescape]
  | cons c word ih =>
      rw [List.mem_cons, not_or] at hword
      rw [List.cons_append, unescape, if_neg (Ne.symm hword.1), ih hword.2, List.append_assoc]
      rfl

theorem mem_references {c : Char} {name : List Char} (h : references.lookup c = some name) :
    ';' ∉ name ∧ '<' ∉ name ∧ expand name = [c] := by
  have hall : ∀ reference ∈ references, ';' ∉ reference.2 ∧ '<' ∉ reference.2 ∧
      expand reference.2 = [reference.1] := by
    decide
  obtain ⟨before, after, hmem, _⟩ := List.lookup_eq_some_iff.mp h
  exact hall (c, name) (by simp [hmem])

theorem unescape_escapeChar (c : Char) (rest : List Char) :
    unescape none (escapeChar c ++ rest) = c :: unescape none rest := by
  cases hname : references.lookup c with
  | some name =>
      obtain ⟨hfree, _, hexpand⟩ := mem_references hname
      have htext : escapeChar c ++ rest = '&' :: (name ++ ';' :: rest) := by
        simp [escapeChar, hname]
      rw [htext, unescape, if_pos rfl, unescape_name hfree, List.nil_append,
        hexpand, List.singleton_append]
  | none =>
      have hplain : c ≠ '&' := by
        rintro rfl
        cases hname
      have htext : escapeChar c ++ rest = c :: rest := by simp [escapeChar, hname]
      rw [htext, unescape, if_neg hplain]

theorem unescape_escape (text : List Char) : unescape none (escape text) = text := by
  induction text with
  | nil => rfl
  | cons c text ih => rw [escape, List.flatMap_cons, unescape_escapeChar, ← escape, ih]

theorem no_tag_in_escape (text : List Char) : '<' ∉ escape text := by
  rw [escape, List.mem_flatMap]
  rintro ⟨c, _, hc⟩
  cases hname : references.lookup c with
  | some name =>
      have hfree := (mem_references hname).2.1
      simp [escapeChar, hname, hfree] at hc
  | none =>
      simp only [escapeChar, hname, List.mem_singleton] at hc
      subst hc
      cases hname

end Escaping

section Reading

/-- What a reader finds: tags, with what is in them, and text in between. -/
inductive Piece where
  | tag (inside : List Char)
  | text (shown : List Char)
deriving DecidableEq

def shownText (raw : List Char) : List Piece := if raw = [] then [] else [.text (unescape none raw)]

/-- Read markup, within a tag if what is read of it is given. The end of the
markup ends a tag too. -/
def scan : Option (List Char) → List Char → List Char → List Piece
  | none, raw, [] => shownText raw
  | some inside, _, [] => [.tag inside]
  | none, raw, c :: cs =>
      if c = '<' then shownText raw ++ scan (some []) [] cs else scan none (raw ++ [c]) cs
  | some inside, raw, c :: cs =>
      if c = '>' then .tag inside :: scan none raw cs else scan (some (inside ++ [c])) raw cs

def pieces (markup : List Char) : List Piece := scan none [] markup

theorem scan_text {word : List Char} (hword : '<' ∉ word) (raw rest : List Char) :
    scan none raw (word ++ rest) = scan none (raw ++ word) rest := by
  induction word generalizing raw with
  | nil => simp
  | cons c word ih =>
      rw [List.mem_cons, not_or] at hword
      rw [List.cons_append, scan, if_neg (Ne.symm hword.1), ih hword.2, List.append_assoc]
      rfl

theorem scan_inside {word : List Char} (hword : '>' ∉ word) (inside rest : List Char) :
    scan (some inside) [] (word ++ '>' :: rest) = .tag (inside ++ word) :: pieces rest := by
  induction word generalizing inside with
  | nil => simp [scan, pieces]
  | cons c word ih =>
      rw [List.mem_cons, not_or] at hword
      rw [List.cons_append, scan, if_neg (Ne.symm hword.1), ih hword.2, List.append_assoc]
      rfl

theorem pieces_tag {word : List Char} (hword : '>' ∉ word) (rest : List Char) :
    pieces ('<' :: (word ++ '>' :: rest)) = .tag word :: pieces rest := by
  rw [pieces, scan, if_pos rfl, scan_inside hword]
  rfl

theorem pieces_text {word : List Char} (hword : '<' ∉ word) (rest : List Char) :
    pieces (word ++ '<' :: rest) = shownText word ++ pieces ('<' :: rest) := by
  rw [pieces, scan_text hword, List.nil_append, scan, if_pos rfl, pieces, scan, if_pos rfl]
  rfl

/-- The pieces of an element with a text. -/
def element (start text finish : List Char) : List Piece :=
  .tag start :: ((if text = [] then [] else [.text text]) ++ [.tag finish])

theorem shownText_escape (text : List Char) :
    shownText (escape text) = if text = [] then [] else [.text text] := by
  by_cases htext : text = []
  · subst htext
    rfl
  · have hescaped : escape text ≠ [] :=
      fun hnil => htext (by rw [← unescape_escape text, hnil]; rfl)
    rw [shownText, if_neg hescaped, if_neg htext, unescape_escape]

/-- An escaped text does not leave its element. -/
theorem pieces_element {start finish : List Char} (hstart : '>' ∉ start) (hfinish : '>' ∉ finish)
    (text rest : List Char) :
    pieces ('<' :: (start ++ '>' :: (escape text ++ '<' :: (finish ++ '>' :: rest)))) =
      element start text finish ++ pieces rest := by
  rw [pieces_tag hstart, pieces_text (no_tag_in_escape text), pieces_tag hfinish,
    shownText_escape, element]
  simp

end Reading

end Keepup.Lib.Markup
