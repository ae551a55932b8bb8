import Mathlib.Data.List.Basic

/-!
Word splitting of a POSIX shell command line, and its inverse `quote`. The
lexer is partial on purpose: any character that would make the shell expand,
redirect, chain or comment gives `none`, so `words text = some args` says that
the text is one command with exactly these arguments. The only operator it
admits is a final `2>&1`, which adds no argument.
-/

namespace Keepup.Lib.Shell

inductive Quoting where
  | bare
  | single
  | double
deriving DecidableEq

/-- Unquoted characters with a meaning of their own to the shell. -/
def special : List Char :=
  ['|', '&', ';', '<', '>', '(', ')', '$', Char.ofNat 96, '\\', '"', '\'', ' ', '\t', '\n',
    '*', '?', '[', '#', '~', '!', '\x7b', '\x7d', '^']

/-- Characters that keep a meaning inside double quotes. -/
def activeInDouble : List Char := ['$', Char.ofNat 96, '\\']

/-- One more character of the current word, which begins here if there is none. -/
def push (cur : Option (List Char)) (c : Char) : Option (List Char) := some (cur.getD [] ++ [c])

/-- Read words from left to right. `cur` is the word being read; it is `none`
between words, so that an empty pair of quotes is a word and a blank is not. -/
def lex (q : Quoting) (cur : Option (List Char)) : List Char → Option (List (List Char))
  | [] => if q = .bare then some cur.toList else none
  | c :: cs =>
      match q with
      | .single => if c = '\'' then lex .bare cur cs else lex .single (push cur c) cs
      | .double =>
          if c = '"' then lex .bare cur cs
          else if c ∈ activeInDouble then none
          else lex .double (push cur c) cs
      | .bare =>
          if c = '\'' then lex .single (some (cur.getD [])) cs
          else if c = '"' then lex .double (some (cur.getD [])) cs
          else if c = ' ' ∨ c = '\t' then (lex .bare none cs).map (cur.toList ++ ·)
          else if c = '>' ∧ cur = some ['2'] ∧ cs = ['&', '1'] then some []
          else if c ∈ special then none
          else lex .bare (push cur c) cs

def words (text : String) : Option (List String) :=
  (lex .bare none text.toList).map (·.map String.ofList)

/-- Characters that never need quoting. -/
def isSafe (c : Char) : Bool := c.isAlphanum || "_@%+=:,./-".toList.contains c

/-- What stands between the outer quotes: a single quote is closed, written
inside double quotes and opened again. -/
def escape : List Char → List Char
  | [] => []
  | c :: cs => if c = '\'' then '\'' :: '"' :: '\'' :: '"' :: '\'' :: escape cs else c :: escape cs

def quoteChars (w : List Char) : List Char :=
  if w = [] then ['\'', '\'']
  else if w.all isSafe then w
  else '\'' :: (escape w ++ ['\''])

/-- A word in a spelling that the shell reads back as that word. -/
def quote (w : String) : String := String.ofList (quoteChars w.toList)

/-- The words in order, with one blank between two of them. -/
def join : List String → String
  | [] => ""
  | [w] => w
  | w :: ws => w ++ " " ++ join ws

theorem special_not_safe : ∀ c ∈ special, isSafe c = false := by
  have hall : special.all (fun c => !isSafe c) = true := by decide
  simpa using hall

theorem safe_not_special {c : Char} (hsafe : isSafe c = true) : c ∉ special := by
  intro hmem
  rw [special_not_safe c hmem] at hsafe
  cases hsafe

/-- A safe character simply extends the word being read. -/
theorem lex_safe_cons {c : Char} (hsafe : isSafe c = true) (cur : Option (List Char))
    (rest : List Char) : lex .bare cur (c :: rest) = lex .bare (push cur c) rest := by
  have hspecial := safe_not_special hsafe
  have hne : ∀ d ∈ special, c ≠ d := fun d hd h => hspecial (h ▸ hd)
  simp [lex, hspecial, hne '\'' (by decide), hne '"' (by decide), hne ' ' (by decide),
    hne '\t' (by decide), hne '>' (by decide)]

theorem lex_safe_append {w : List Char} (hsafe : w.all isSafe = true) (cur : List Char)
    (rest : List Char) : lex .bare (some cur) (w ++ rest) = lex .bare (some (cur ++ w)) rest := by
  induction w generalizing cur with
  | nil => simp
  | cons c w ih =>
      simp only [List.all_cons, Bool.and_eq_true] at hsafe
      rw [List.cons_append, lex_safe_cons hsafe.1, push, Option.getD_some, ih hsafe.2]
      simp

/-- The escaped body of a quoted word adds exactly that word. -/
theorem lex_escape (w : List Char) (cur : List Char) (rest : List Char) :
    lex .single (some cur) (escape w ++ '\'' :: rest) = lex .bare (some (cur ++ w)) rest := by
  induction w generalizing cur with
  | nil => simp [escape, lex]
  | cons c w ih =>
      by_cases hc : c = '\''
      · subst hc
        simp [escape, lex, push, activeInDouble, ih]
      · simp [escape, lex, push, hc, ih]

/-- A quoted word is read as one word, whatever its characters are. -/
theorem lex_quoteChars (w : List Char) (rest : List Char) :
    lex .bare none (quoteChars w ++ rest) = lex .bare (some w) rest := by
  unfold quoteChars
  split
  · next hnil => simp [lex, hnil]
  · next hnil =>
      split
      · next hsafe =>
          obtain ⟨c, w, rfl⟩ := List.exists_cons_of_ne_nil hnil
          simp only [List.all_cons, Bool.and_eq_true] at hsafe
          rw [List.cons_append, lex_safe_cons hsafe.1, push, lex_safe_append hsafe.2]
          simp
      · have hopen : lex .bare none (('\'' :: (escape w ++ ['\''])) ++ rest) =
            lex .single (some []) (escape w ++ '\'' :: rest) := by
          simp [lex]
        rw [hopen, lex_escape, List.nil_append]

theorem words_quote_blank (w rest : String) :
    words (quote w ++ (" " ++ rest)) = (words rest).map (w :: ·) := by
  have hblank : lex .bare (some w.toList) (' ' :: rest.toList) =
      (lex .bare none rest.toList).map (w.toList :: ·) := by
    simp [lex]
  have hlist : (quote w ++ (" " ++ rest)).toList = quoteChars w.toList ++ ' ' :: rest.toList := by
    simp [quote]
  simp only [words, hlist, lex_quoteChars, hblank, Option.map_map]
  congr 1
  funext ws
  simp

@[simp] theorem words_quote (w : String) : words (quote w) = some [w] := by
  have hlist : (quote w).toList = quoteChars w.toList ++ [] := by simp [quote]
  rw [words, hlist, lex_quoteChars]
  simp [lex]

/-- A word made of safe characters is its own quotation. -/
theorem quote_safe {w : String} (hne : w.toList ≠ []) (hsafe : w.toList.all isSafe = true) :
    quote w = w := by
  simp [quote, quoteChars, hne, hsafe]

theorem escape_plain {w : List Char} (hplain : '\'' ∉ w) : escape w = w := by
  induction w with
  | nil => rfl
  | cons c w ih =>
      simp only [List.mem_cons, not_or] at hplain
      have hc : c ≠ '\'' := fun h => hplain.1 h.symm
      simp [escape, hc, ih hplain.2]

/-- A word without single quotes is quoted by a pair of them. -/
theorem quote_plain {w : String} (hneeds : w.toList.all isSafe = false)
    (hplain : '\'' ∉ w.toList) : quote w = "'" ++ w ++ "'" := by
  have hne : w.toList ≠ [] := by
    intro hnil
    rw [hnil] at hneeds
    cases hneeds
  apply String.toList_inj.mp
  rw [quote, quoteChars, if_neg hne, hneeds, escape_plain hplain]
  simp

theorem words_safe_blank {w : String} (hne : w.toList ≠ []) (hsafe : w.toList.all isSafe = true)
    (rest : String) : words (w ++ (" " ++ rest)) = (words rest).map (w :: ·) := by
  have h := words_quote_blank w rest
  rwa [quote_safe hne hsafe] at h

/-- A text made of these words, all safe, with a blank after each. -/
def spells (lead : String) (ws : List String) : Bool :=
  lead.toList == ws.flatMap (fun w => w.toList ++ [' ']) &&
    ws.all fun w => w.toList != [] && w.toList.all isSafe

theorem words_lead {lead : String} {ws : List String} (hlead : spells lead ws = true)
    (rest : String) : words (lead ++ rest) = (words rest).map (ws ++ ·) := by
  simp only [spells, Bool.and_eq_true, beq_iff_eq] at hlead
  obtain ⟨htext, hsafe⟩ := hlead
  induction ws generalizing lead with
  | nil =>
      have hnil : lead = "" := String.toList_inj.mp htext
      simp [hnil]
  | cons w ws ih =>
      simp only [List.all_cons, Bool.and_eq_true, bne_iff_ne] at hsafe
      have hsplit : lead = w ++ (" " ++ String.ofList (ws.flatMap fun w => w.toList ++ [' '])) := by
        apply String.toList_inj.mp
        simp [htext]
      rw [hsplit, String.append_assoc, String.append_assoc, words_safe_blank hsafe.1.1 hsafe.1.2,
        ih (by simp) hsafe.2, Option.map_map]
      rfl

@[simp] theorem words_redirect : words "2>&1" = some [] := by decide

/-- Splitting inverts quoting, also in front of further text. -/
theorem words_join_blank (ws : List String) (hne : ws ≠ []) (rest : String) :
    words (join (ws.map quote) ++ (" " ++ rest)) = (words rest).map (ws ++ ·) := by
  induction ws with
  | nil => exact absurd rfl hne
  | cons w ws ih =>
      cases ws with
      | nil => simpa [join] using words_quote_blank w rest
      | cons w' ws =>
          have hjoin : join ((w :: w' :: ws).map quote) =
              quote w ++ (" " ++ join ((w' :: ws).map quote)) := by
            simp [join, String.append_assoc]
          rw [hjoin, String.append_assoc, String.append_assoc, words_quote_blank,
            ih (by simp), Option.map_map]
          rfl

theorem words_join (ws : List String) : words (join (ws.map quote)) = some ws := by
  induction ws with
  | nil => decide
  | cons w ws ih =>
      cases ws with
      | nil => simp [join]
      | cons w' ws =>
          have hjoin : join ((w :: w' :: ws).map quote) =
              quote w ++ (" " ++ join ((w' :: ws).map quote)) := by
            simp [join, String.append_assoc]
          rw [hjoin, words_quote_blank, ih]
          rfl

end Keepup.Lib.Shell
