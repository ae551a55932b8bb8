import Mathlib.Data.List.Basic

/-!
The string methods of Python that the modelled functions call, on lists of
characters. Whitespace is what `str.isspace` accepts.
-/

namespace Keepup.Text

def isSpace (c : Char) : Bool :=
  let n := c.toNat
  (9 ≤ n && n ≤ 13) || (28 ≤ n && n ≤ 32) || n == 0x85 || n == 0xa0 || n == 0x1680 ||
    (0x2000 ≤ n && n ≤ 0x200a) || n == 0x2028 || n == 0x2029 || n == 0x202f || n == 0x205f ||
    n == 0x3000

def dropEndWhile (p : Char → Bool) (cs : List Char) : List Char :=
  (cs.reverse.dropWhile p).reverse

def strip (s : String) : String := String.ofList (dropEndWhile isSpace (s.toList.dropWhile isSpace))

def rstrip (s : String) : String := String.ofList (dropEndWhile isSpace s.toList)

/-- `s.lstrip(c)` for a single character. -/
def lstripChar (c : Char) (s : String) : String := String.ofList (s.toList.dropWhile (· == c))

/-- `s.rstrip(c)` for a single character. -/
def rstripChar (c : Char) (s : String) : String := String.ofList (dropEndWhile (· == c) s.toList)

/-- The first `n` characters. -/
def take (n : Nat) (s : String) : String := String.ofList (s.toList.take n)

def startsWith (s lead : String) : Bool := lead.toList.isPrefixOf s.toList

/-- `x or default` for a string that may be missing. -/
def orElse (s : Option String) (default : String) : String :=
  match s with
  | some s => if s = "" then default else s
  | none => default

theorem orElse_ne_empty {default : String} (h : default ≠ "") (s : Option String) :
    orElse s default ≠ "" := by
  cases s with
  | none => exact h
  | some s =>
      rw [orElse]
      split
      · exact h
      · assumption

/-- The truth value of a string that may be missing. -/
def given (s : Option String) : Bool := orElse s "" != ""

/-- `part in s`. -/
def isIn (part s : String) : Bool := s.toList.tails.any (part.toList.isPrefixOf ·)

def splitChars (sep : Char → Bool) : List Char → List (List Char)
  | [] => [[]]
  | c :: cs =>
      if sep c then [] :: splitChars sep cs
      else
        match splitChars sep cs with
        | [] => [[c]]
        | w :: ws => (c :: w) :: ws

/-- `s.split(c)`: one piece more than there are separators. -/
def splitOn (c : Char) (s : String) : List String :=
  (splitChars (· == c) s.toList).map String.ofList

/-- `s.split()`: the maximal runs without whitespace. -/
def split (s : String) : List String :=
  ((splitChars isSpace s.toList).filter (· ≠ [])).map String.ofList

def hexDigit (n : Nat) : Char := "0123456789abcdef".toList.getD n '0'

/-- One character of a Python string literal delimited by `quote`. Characters
from U+00A0 on are taken to be printable. -/
def reprChar (quote c : Char) : List Char :=
  if c = quote ∨ c = '\\' then ['\\', c]
  else if c = '\n' then ['\\', 'n']
  else if c = '\r' then ['\\', 'r']
  else if c = '\t' then ['\\', 't']
  else if c.toNat < 32 ∨ (127 ≤ c.toNat ∧ c.toNat < 160) then
    ['\\', 'x', hexDigit (c.toNat / 16), hexDigit (c.toNat % 16)]
  else [c]

/-- `repr(s)`: double quotes only around a text with a single quote and no
double quote in it. -/
def repr (s : String) : String :=
  let quote := if '\'' ∈ s.toList ∧ '"' ∉ s.toList then '"' else '\''
  String.ofList (quote :: (s.toList.flatMap (reprChar quote) ++ [quote]))

/-- A piece without separators reaches to the first separator. -/
theorem splitChars_append {sep : Char → Bool} {w : List Char} (hw : ∀ c ∈ w, sep c = false)
    {d : Char} (hd : sep d = true) (rest : List Char) :
    splitChars sep (w ++ d :: rest) = w :: splitChars sep rest := by
  induction w with
  | nil => simp [splitChars, hd]
  | cons c w ih =>
      have hc : sep c = false := hw c (by simp)
      rw [List.cons_append, splitChars, ih fun x hx => hw x (by simp [hx])]
      simp [hc]

theorem splitChars_single {sep : Char → Bool} {w : List Char} (hw : ∀ c ∈ w, sep c = false) :
    splitChars sep w = [w] := by
  induction w with
  | nil => rfl
  | cons c w ih =>
      have hc : sep c = false := hw c (by simp)
      rw [splitChars, ih fun x hx => hw x (by simp [hx])]
      simp [hc]

theorem lstripChar_cons {c : Char} {s : String} (h : ∀ d ∈ s.toList.head?, d ≠ c) :
    lstripChar c (String.ofList [c] ++ s) = s := by
  have hdrop : (c :: s.toList).dropWhile (· == c) = s.toList := by
    rw [List.dropWhile_cons_of_pos (by simp)]
    cases hs : s.toList with
    | nil => rfl
    | cons d ds =>
        have hd : d ≠ c := h d (by simp [hs])
        rw [List.dropWhile_cons_of_neg (by simpa using hd)]
  simp [lstripChar, hdrop]

theorem digit_not_space {c : Char} (h : c.isDigit = true) : isSpace c = false := by
  rw [Char.isDigit_iff_toNat] at h
  have hlow : 48 ≤ c.toNat := h.1
  have hhigh : c.toNat ≤ 57 := h.2
  simp only [isSpace, Bool.or_eq_false_iff, Bool.and_eq_false_iff, decide_eq_false_iff_not,
    beq_eq_false_iff_ne]
  omega

theorem toString_digits (n : Nat) : ∀ c ∈ (toString n).toList, c.isDigit = true := by
  intro c hc
  rw [Nat.toString_eq_ofList_toDigits, String.toList_ofList] at hc
  exact Nat.isDigit_of_mem_toDigits (by decide) (by decide) hc

theorem toString_ne_nil (n : Nat) : (toString n).toList ≠ [] := by
  rw [Nat.toString_eq_ofList_toDigits, String.toList_ofList]
  exact Nat.toDigits_ne_nil

theorem nat_repr_injective : Function.Injective Nat.repr := by
  intro m n h
  simp only [Nat.repr] at h
  simpa using congrArg (fun ds => Nat.ofDigitChars 10 ds 0) (String.ofList_injective h)

theorem int_chars (i : Int) : ∀ c ∈ (toString i).toList, c.isDigit = true ∨ c = '-' := by
  intro c hc
  rw [Int.toString_eq_repr] at hc
  cases i with
  | ofNat n => exact .inl (toString_digits n c hc)
  | negSucc n =>
      simp only [Int.repr, String.toList_append, List.mem_append] at hc
      rcases hc with hsign | hdigits
      · exact .inr (by simpa using hsign)
      · exact .inl (toString_digits _ c hdigits)

theorem int_toString_injective {i j : Int} (h : toString i = toString j) : i = j := by
  -- no natural number starts with a sign
  have hsign : ∀ m n : Nat, Nat.repr m ≠ "-" ++ Nat.repr n := by
    intro m n hsame
    have hmem : '-' ∈ (Nat.repr m).toList := by simp [hsame]
    cases toString_digits m '-' hmem
  rw [Int.toString_eq_repr, Int.toString_eq_repr] at h
  cases i with
  | ofNat m =>
      cases j with
      | ofNat n => rw [nat_repr_injective h]
      | negSucc n => exact absurd h (hsign m _)
  | negSucc m =>
      cases j with
      | ofNat n => exact absurd h.symm (hsign n _)
      | negSucc n =>
          have hlist := congrArg String.toList h
          simp only [Int.repr, String.toList_append] at hlist
          have hnat := nat_repr_injective (String.toList_inj.mp (List.append_cancel_left hlist))
          rw [Nat.succ.inj hnat]

/-- What stands before the first separator, and after it. -/
theorem append_cons_inj {d : Char} {w w' rest rest' : List Char} (hw : d ∉ w) (hw' : d ∉ w')
    (h : w ++ d :: rest = w' ++ d :: rest') : w = w' ∧ rest = rest' := by
  induction w generalizing w' with
  | nil =>
      cases w' with
      | nil => simpa using h
      | cons c w' => simp [(List.cons.inj h).1] at hw'
  | cons c w ih =>
      cases w' with
      | nil => simp [(List.cons.inj h).1] at hw
      | cons c' w' =>
          obtain ⟨rfl, htail⟩ := List.cons.inj h
          obtain ⟨rfl, hrest⟩ := ih (fun hd => hw (List.mem_cons_of_mem c hd))
            (fun hd => hw' (List.mem_cons_of_mem c hd)) htail
          exact ⟨rfl, hrest⟩

/-- What stands before the last separator, and after it. -/
theorem append_cons_inj_last {d : Char} {w w' rest rest' : List Char} (hw : d ∉ w) (hw' : d ∉ w')
    (h : rest ++ d :: w = rest' ++ d :: w') : rest = rest' ∧ w = w' := by
  have hreverse := congrArg List.reverse h
  rw [List.reverse_append, List.reverse_append, List.reverse_cons, List.reverse_cons,
    List.append_assoc, List.append_assoc] at hreverse
  obtain ⟨hword, hrest⟩ := append_cons_inj (by simpa using hw) (by simpa using hw') hreverse
  exact ⟨List.reverse_inj.mp hrest, List.reverse_inj.mp hword⟩

/-- Nothing to strip from a text that begins and ends without whitespace. -/
theorem strip_eq_self {s : String} (hhead : ∀ c ∈ s.toList.head?, isSpace c = false)
    (hlast : ∀ c ∈ s.toList.getLast?, isSpace c = false) : strip s = s := by
  have hkeep : ∀ l : List Char, (∀ c ∈ l.head?, isSpace c = false) → l.dropWhile isSpace = l := by
    intro l hl
    cases l with
    | nil => rfl
    | cons c cs => exact List.dropWhile_cons_of_neg (by simp [hl c (by simp)])
  have hend : dropEndWhile isSpace s.toList = s.toList := by
    rw [dropEndWhile, hkeep _ (by simpa using hlast), List.reverse_reverse]
  rw [strip, hkeep _ hhead, hend, String.ofList_toList]

theorem strip_empty : strip "" = "" := by decide

/-- Two words with one blank between them are split into the two. -/
theorem split_strip_pair {v w : String} (hv : v.toList ≠ []) (hw : w.toList ≠ [])
    (hvfree : ∀ c ∈ v.toList, isSpace c = false) (hwfree : ∀ c ∈ w.toList, isSpace c = false) :
    split (strip (v ++ " " ++ w)) = [v, w] := by
  have hlist : (v ++ " " ++ w).toList = v.toList ++ ' ' :: w.toList := by simp
  have hhead : ∀ c ∈ (v ++ " " ++ w).toList.head?, isSpace c = false := by
    obtain ⟨d, ds, hds⟩ := List.exists_cons_of_ne_nil hv
    intro c hc
    rw [hlist, hds] at hc
    exact hvfree c (by simpa [hds, eq_comm] using Or.inl hc)
  have hlast : ∀ c ∈ (v ++ " " ++ w).toList.getLast?, isSpace c = false := by
    intro c hc
    rw [hlist, List.getLast?_append, List.getLast?_cons_of_ne_nil hw] at hc
    rw [List.getLast?_eq_some_getLast hw, Option.some_or, Option.mem_some_iff] at hc
    exact hwfree c (hc ▸ List.getLast_mem hw)
  rw [strip_eq_self hhead hlast, split, hlist, splitChars_append hvfree (by decide),
    splitChars_single hwfree]
  simp [hv, hw]

end Keepup.Text
