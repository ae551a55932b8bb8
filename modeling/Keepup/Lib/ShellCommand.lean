import Keepup.Lib.Shell
import Mathlib.Algebra.Ring.Nat

/-!
What `sh -c` runs for a text. Blanks part the words, quotes are removed, and a word
with an expansion in it becomes the fields that the files and the variables around the
shell make of it. There is no argument list where the text is not one simple command,
where it sets variables first, and where POSIX leaves its meaning open.

Joining arguments with blanks and running the text gives back the arguments exactly if
none of them has a character that the shell takes for itself.
-/

namespace Keepup.Lib.ShellCommand

/-- How a character of a word was quoted. -/
inductive Quoting where
  | bare
  | double
  | literal
deriving DecidableEq

structure Mark where
  char : Char
  quoting : Quoting
deriving DecidableEq

abbrev Word := List Mark

inductive Mode where
  | bare
  | single
  | double
deriving DecidableEq

/-- Characters that end a word and begin an operator. -/
def operators : List Char := ['|', '&', ';', '<', '>', '(', ')', '\n']

/-- Characters that a backslash escapes inside double quotes. -/
def escapedInDouble : List Char := ['$', Char.ofNat 96, '"', '\\']

def add (cur : Option Word) (c : Char) (quoting : Quoting) : Option Word :=
  some (cur.getD [] ++ [⟨c, quoting⟩])

/-- Read words from left to right. `cur` is the word being read, `none` between words. -/
def lex : Mode → Option Word → List Char → Option (List Word)
  | .bare, cur, [] => some cur.toList
  | _, _, [] => none
  | .single, cur, c :: cs =>
      if c = '\'' then lex .bare cur cs else lex .single (add cur c .literal) cs
  | .double, cur, '\\' :: c :: cs =>
      if c ∈ escapedInDouble then lex .double (add cur c .literal) cs
      else lex .double (add (add cur '\\' .literal) c .literal) cs
  | .double, cur, c :: cs =>
      if c = '"' then lex .bare cur cs else lex .double (add cur c .double) cs
  | .bare, cur, '\\' :: c :: cs =>
      if c = '\n' then lex .bare cur cs else lex .bare (add cur c .literal) cs
  | .bare, cur, c :: cs =>
      if c = '\\' then none
      else if c = '\'' then lex .single (some (cur.getD [])) cs
      else if c = '"' then lex .double (some (cur.getD [])) cs
      else if c = ' ' ∨ c = '\t' then (lex .bare none cs).map (cur.toList ++ ·)
      else if c ∈ operators then none
      else if c = '#' ∧ cur = none then if '\n' ∈ cs then none else some []
      else lex .bare (add cur c .bare) cs

def chars (w : Word) : List Char := w.map Mark.char

/-- Characters after a dollar sign with which an expansion begins. -/
def beginsExpansion (c : Char) : Bool := c.isAlphanum || "_@*#?-$!(\x7b".toList.contains c

/-- A word whose fields depend on more than the word. -/
def expands : Word → Bool
  | [] => false
  | m :: w =>
      (m.char == Char.ofNat 96 && m.quoting != .literal) ||
      (m.char == '$' && m.quoting != .literal && (w.head?.map Mark.char).any beginsExpansion) ||
      ((m.char == '*' || m.char == '?') && m.quoting == .bare) ||
      (m.char == '[' && m.quoting == .bare && (chars w).contains ']') ||
      expands w

/-- A tilde at the front stands for a home directory. -/
def active (w : Word) : Bool := w.head? == some ⟨'~', .bare⟩ || expands w

/-- The fields that the surroundings make of a word with an expansion. -/
abbrev Surroundings := Word → List (List Char)

def fields (around : Surroundings) (w : Word) : List (List Char) :=
  if active w then around w else [chars w]

def reservedWords : List String :=
  ["!", "\x7b", "\x7d", "case", "do", "done", "elif", "else", "esac",
    "fi", "for", "if", "then", "until",
    "while"]

def plain (w : List Char) : Word := w.map fun c => ⟨c, .bare⟩

def isReserved (w : Word) : Bool := reservedWords.any fun name => w == plain name.toList

def isNameChar (c : Char) : Bool := c.isAlphanum || c == '_'

/-- The word sets a variable. -/
def assigns (w : Word) : Bool :=
  let name := w.takeWhile fun m => m.quoting == .bare && isNameChar m.char
  name != [] && !(name.head?.map Mark.char).any Char.isDigit && w[name.length]? == some ⟨'=', .bare⟩

/-- The arguments of the command, the name of the program first. -/
def argv (around : Surroundings) (text : String) : Option (List String) :=
  (lex .bare none text.toList).bind fun
    | [] => some []
    | w :: ws =>
        if isReserved w || assigns w then none
        else some (((w :: ws).flatMap (fields around)).map String.ofList)

/-- A character that stands for itself outside quotes, an expansion apart. -/
def ordinary (c : Char) : Bool :=
  c != '\\' && c != '\'' && c != '"' && c != ' ' && c != '\t' && !operators.contains c

/-- The shell reads a text as the one word that it is. -/
def Literal (w : List Char) : Prop :=
  w ≠ [] ∧ (∀ c ∈ w, ordinary c = true) ∧ w.head? ≠ some '#' ∧ active (plain w) = false

instance (w : List Char) : Decidable (Literal w) :=
  have : Decidable (∀ c ∈ w, ordinary c = true) := List.decidableBAll (ordinary · = true) w
  inferInstanceAs (Decidable (w ≠ [] ∧ (∀ c ∈ w, ordinary c = true) ∧ _ ∧ _))

/-- A word that is read from such characters alone, expansions included. -/
def Solid (w : Word) : Prop :=
  ∃ u : List Char, w = plain u ∧ u ≠ [] ∧ (∀ c ∈ u, ordinary c = true) ∧ u.head? ≠ some '#'

section Reading

variable {c : Char} {cs w : List Char} {cur : Option Word} {ws : List Word}

@[simp] theorem chars_plain (w : List Char) : chars (plain w) = w := by
  simp [chars, plain, Function.comp_def]

theorem lex_ordinary (hc : ordinary c = true) (hword : c = '#' → cur ≠ none) (cs : List Char) :
    lex .bare cur (c :: cs) = lex .bare (add cur c .bare) cs := by
  simp only [ordinary, Bool.and_eq_true, bne_iff_ne, Bool.not_eq_true', List.contains_eq_mem,
    decide_eq_false_iff_not] at hc
  obtain ⟨⟨⟨⟨⟨hback, hsingle⟩, hdouble⟩, hblank⟩, htab⟩, hoperator⟩ := hc
  have hcomment : ¬ (c = '#' ∧ cur = none) := fun h => hword h.1 h.2
  cases cs <;> simp [lex, hback, hsingle, hdouble, hblank, htab, hoperator, hcomment]

theorem lex_word_rest (hw : ∀ c ∈ w, ordinary c = true) (v : Word) (cs : List Char) :
    lex .bare (some v) (w ++ cs) = lex .bare (some (v ++ plain w)) cs := by
  induction w generalizing v with
  | nil => simp [plain]
  | cons c w ih =>
      rw [List.cons_append, lex_ordinary (hw c List.mem_cons_self) (by simp), add, Option.getD_some,
        ih fun d hd => hw d (List.mem_cons_of_mem c hd)]
      simp [plain]

theorem lex_literal (hw : Literal w) (cs : List Char) :
    lex .bare none (w ++ cs) = lex .bare (some (plain w)) cs := by
  obtain ⟨hne, hordinary, hcomment, _⟩ := hw
  obtain ⟨c, rest, rfl⟩ := List.exists_cons_of_ne_nil hne
  have hfirst : c = '#' → (none : Option Word) ≠ none := fun h => absurd (congrArg some h) hcomment
  rw [List.cons_append, lex_ordinary (hordinary c List.mem_cons_self) hfirst, add, Option.getD_none,
    lex_word_rest fun d hd => hordinary d (List.mem_cons_of_mem c hd)]
  rfl

theorem lex_blank (cs : List Char) (v : Word) :
    lex .bare (some v) (' ' :: cs) = (lex .bare none cs).map (v :: ·) := by
  cases cs <;> simp [lex]

end Reading

section Weight

/-- The room that words take up, each with something that parts it from the next. -/
def weight (ws : List Word) : ℕ := (ws.map fun w => w.length + 1).sum

/-- The room that there is for the words of what is still to be read. -/
def room (cur : Option Word) (cs : List Char) : ℕ := (cur.getD []).length + cs.length + 1

@[simp] theorem room_add (cur : Option Word) (c : Char) (quoting : Quoting) (cs : List Char) :
    room (add cur c quoting) cs = room cur cs + 1 := by
  simp [room, add]
  omega

/-- Words never take up more room than the text, and less where a character of it is not
a part of them. Where they take up all of it, they are solid. -/
def Packed (cur : Option Word) (cs : List Char) (ws : List Word) : Prop :=
  weight ws ≤ room cur cs ∧
    (weight ws = room cur cs → (∀ v, cur = some v → Solid v) → ∀ w ∈ ws, Solid w)

theorem Packed.of_lt {cur : Option Word} {cs : List Char} {ws : List Word}
    (h : weight ws < room cur cs) :
    Packed cur cs ws := ⟨Nat.le_of_lt h, fun heq => absurd heq (Nat.ne_of_lt h)⟩

theorem solid_add {cur : Option Word} {c : Char} (hc : ordinary c = true)
    (hword : c = '#' → cur ≠ none)
    (hcur : ∀ v, cur = some v → Solid v) : ∀ v, add cur c .bare = some v → Solid v := by
  rintro v hv
  obtain rfl := Option.some.inj hv
  cases cur with
  | none =>
      refine ⟨[c], rfl, by simp, by simpa using hc, ?_⟩
      simpa using fun h => hword h rfl
  | some v =>
      obtain ⟨u, rfl, hne, hordinary, hhead⟩ := hcur v rfl
      refine ⟨u ++ [c], by simp [plain], by simp, ?_, ?_⟩
      · intro d hd
        rcases List.mem_append.mp hd with hd | hd
        · exact hordinary d hd
        · rwa [List.mem_singleton.mp hd]
      · rwa [List.head?_append_of_ne_nil _ hne]

@[simp] theorem room_cons (cur : Option Word) (c : Char) (cs : List Char) :
    room cur (c :: cs) = room cur cs + 1 := by
  simp [room]
  omega

@[simp] theorem room_open (cur : Option Word) (cs : List Char) :
    room (some (cur.getD [])) cs = room cur cs := by
  simp [room]

/-- A blank ends the word before it. Without one it is lost. -/
theorem packed_blank {c : Char} {cur : Option Word} {cs : List Char} {ws : List Word}
    (h : Packed none cs ws) : Packed cur (c :: cs) (cur.toList ++ ws) := by
  obtain ⟨hle, hsolid⟩ := h
  cases cur with
  | none =>
      refine .of_lt ?_
      rw [room_cons]
      exact Nat.lt_succ_of_le hle
  | some v =>
      have hweight : weight (v :: ws) = v.length + 1 + weight ws := by simp [weight]
      have hroom : room (some v) (c :: cs) = v.length + 1 + room none cs := by
        simp [room]
        omega
      refine ⟨?_, fun heq hcur w hw => ?_⟩
      · change weight (v :: ws) ≤ _
        omega
      · rcases List.mem_cons.mp hw with rfl | hw
        · exact hcur w rfl
        · refine hsolid ?_ nofun w hw
          change weight (v :: ws) = _ at heq
          omega

theorem packed_lost {mode : Mode} {cur : Option Word} {cs : List Char} {ws : List Word}
    (h : weight ws < room cur cs) : Packed cur cs ws ∧ (mode ≠ .bare → weight ws < room cur cs) :=
  ⟨.of_lt h, fun _ => h⟩

/-- One word after another. Where the text begins in quotes some of it is lost. -/
theorem lex_packed {mode : Mode} {cur : Option Word} {cs : List Char} {ws : List Word}
    (h : lex mode cur cs = some ws) : Packed cur cs ws ∧
    (mode ≠ .bare → weight ws < room cur cs) := by
  fun_induction lex mode cur cs generalizing ws with
  | case1 cur =>
      obtain rfl := Option.some.inj h
      refine ⟨?_, fun hmode => absurd rfl hmode⟩
      cases cur with
      | none => exact .of_lt (by simp [weight, room])
      | some v => exact ⟨by simp [weight, room], fun _ hcur => by simpa using hcur v rfl⟩
  | case2 | case11 | case15 | case16 => cases h
  -- a quote or an escaped newline goes
  | case3 cur cs ih | case9 cur cs ih =>
      have hle := (ih h).1.1
      apply packed_lost
      simp only [room_cons]
      omega
  | case7 cur cs _ ih =>
      have hle := (ih h).1.1
      apply packed_lost
      simp only [room_cons]
      omega
  | case12 cur cs _ _ ih | case13 cur cs _ _ _ ih =>
      have hlt := (ih h).2 (by decide)
      apply packed_lost
      simp only [room_cons, room_open] at hlt ⊢
      omega
  -- a character in quotes
  | case4 cur c cs _ ih | case8 cur c cs _ _ ih =>
      have hlt := (ih h).2 (by decide)
      apply packed_lost
      simpa using hlt
  | case5 cur c cs _ ih | case6 cur c cs _ ih =>
      have hlt := (ih h).2 (by decide)
      apply packed_lost
      simp only [room_cons, room_add] at hlt ⊢
      omega
  | case10 cur c cs _ ih =>
      have hle := (ih h).1.1
      apply packed_lost
      simp only [room_cons, room_add] at hle ⊢
      omega
  | case14 cur c cs _ _ _ _ _ ih =>
      obtain ⟨rest, hrest, rfl⟩ := Option.map_eq_some_iff.mp h
      exact ⟨packed_blank (ih hrest).1, fun hmode => absurd rfl hmode⟩
  -- a comment
  | case17 =>
      obtain rfl := Option.some.inj h
      exact packed_lost (by simp [weight, room])
  | case18 cur c cs _ hback hsingle hdouble hblank hoperator hcomment ih =>
      obtain ⟨hle, hsolid⟩ := (ih h).1
      have hc : ordinary c = true := by
        rw [not_or] at hblank
        simp [ordinary, hback, hsingle, hdouble, hblank, hoperator]
      rw [room_add, ← room_cons cur c] at hle hsolid
      exact ⟨⟨hle, fun heq hcur => hsolid heq (solid_add hc (fun hc h => hcomment ⟨hc, h⟩) hcur)⟩,
        fun hmode => absurd rfl hmode⟩

end Weight

section Joined

/-- The room that arguments take up in a text. -/
def size (args : List (List Char)) : ℕ := (args.map fun a => a.length + 1).sum

/-- Surroundings in which every expansion comes to nothing. -/
def nothing : Surroundings := fun _ => []

theorem size_fields (ws : List Word) :
    size (ws.flatMap (fields nothing)) ≤ weight ws ∧
      (size (ws.flatMap (fields nothing)) = weight ws → ∀ w ∈ ws, active w = false) := by
  induction ws with
  | nil => simp [size, weight]
  | cons w ws ih =>
      obtain ⟨hle, hnone⟩ := ih
      have hweight : weight (w :: ws) = w.length + 1 + weight ws := by simp [weight]
      have hsplit : size ((w :: ws).flatMap (fields nothing)) =
          size (fields nothing w) + size (ws.flatMap (fields nothing)) := by
        simp [size]
      rw [hsplit, hweight]
      by_cases hactive : active w = true
      · have hlost : size (fields nothing w) = 0 := by simp [fields, hactive, nothing, size]
        refine ⟨by omega, fun heq => ?_⟩
        omega
      · rw [Bool.not_eq_true] at hactive
        have hkept : size (fields nothing w) = w.length + 1 := by
          simp [fields, hactive, size, chars]
        refine ⟨by omega, fun heq v hv => ?_⟩
        rcases List.mem_cons.mp hv with rfl | hv
        · exact hactive
        · exact hnone (by omega) v hv

theorem join_cons (a b : String) (args : List String) :
    (Shell.join (a :: b :: args)).toList = a.toList ++ ' ' :: (Shell.join (b :: args)).toList := by
  simp [Shell.join]

theorem join_length {args : List String} (hne : args ≠ []) :
    (Shell.join args).toList.length + 1 = size (args.map String.toList) := by
  induction args with
  | nil => exact absurd rfl hne
  | cons a args ih =>
      cases args with
      | nil => simp [Shell.join, size]
      | cons b args =>
          have hrest := ih (List.cons_ne_nil b args)
          have hsize : size ((a :: b :: args).map String.toList) =
              a.toList.length + 1 + size ((b :: args).map String.toList) := by
            simp [size]
          rw [join_cons, hsize, ← hrest, List.length_append, List.length_cons]
          omega

theorem lex_join {args : List String} (h : ∀ a ∈ args, Literal a.toList) :
    lex .bare none (Shell.join args).toList = some (args.map fun a => plain a.toList) := by
  induction args with
  | nil => rfl
  | cons a args ih =>
      have ha := h a List.mem_cons_self
      cases args with
      | nil =>
          have hword := lex_literal ha []
          rw [List.append_nil] at hword
          rw [Shell.join, hword]
          rfl
      | cons b args =>
          rw [join_cons, lex_literal ha, lex_blank, ih fun x hx => h x (List.mem_cons_of_mem a hx)]
          rfl

/-- The first argument is the name of a program to the shell. -/
def NamesProgram (w : List Char) : Prop := isReserved (plain w) = false ∧ assigns (plain w) = false

theorem fields_inactive (around : Surroundings) {ws : List Word} (h : ∀ w ∈ ws, active w = false) :
    ws.flatMap (fields around) = ws.map chars := by
  induction ws with
  | nil => rfl
  | cons w ws ih =>
      rw [List.flatMap_cons, fields, h w List.mem_cons_self, if_neg Bool.false_ne_true,
        ih fun x hx => h x (List.mem_cons_of_mem w hx)]
      rfl

theorem argv_join {args : List String} (h : ∀ a ∈ args, Literal a.toList)
    (hfirst : ∀ a ∈ args.head?, NamesProgram a.toList) (around : Surroundings) :
    argv around (Shell.join args) = some args := by
  rw [argv, lex_join h, Option.bind_some]
  cases args with
  | nil => rfl
  | cons a args =>
      obtain ⟨hreserved, hassigns⟩ := hfirst a rfl
      simp only [List.map_cons, hreserved, hassigns, Bool.or_self, Bool.false_eq_true, if_false]
      have hinactive : ∀ w ∈ (a :: args).map fun a => plain a.toList, active w = false := by
        intro w hw
        obtain ⟨b, hb, rfl⟩ := List.mem_map.mp hw
        exact (h b hb).2.2.2
      have hfields := fields_inactive around hinactive
      rw [List.map_cons] at hfields
      rw [hfields, List.map_cons, List.map_cons, chars_plain, String.ofList_toList,
        List.map_map, List.map_map]
      simp [Function.comp_def]

/-- Only literal arguments come back in every surroundings. -/
theorem literal_of_argv_join {args : List String} (h : argv nothing (Shell.join args) = some args) :
    (∀ a ∈ args, Literal a.toList) ∧ ∀ a ∈ args.head?, NamesProgram a.toList := by
  by_cases hne : args = []
  · simp [hne]
  obtain ⟨ws, hlex, hargs⟩ := Option.bind_eq_some_iff.mp h
  cases ws with
  | nil => exact absurd (Option.some.inj hargs).symm hne
  | cons w ws =>
      simp only [Option.ite_none_left_eq_some, Bool.not_eq_true, Bool.or_eq_false_iff] at hargs
      obtain ⟨⟨hreserved, hassigns⟩, hfields⟩ := hargs
      have htext : (w :: ws).flatMap (fields nothing) = args.map String.toList := by
        rw [← Option.some.inj hfields, List.map_map]
        simp [Function.comp_def]
      -- the words take up all of the room, so that nothing of the text was lost
      obtain ⟨hpacked, hsolid⟩ := (lex_packed hlex).1
      obtain ⟨hsize, hinactive⟩ := size_fields (w :: ws)
      have hroom : room none (Shell.join args).toList = size (args.map String.toList) := by
        rw [← join_length hne]
        simp [room]
      rw [htext] at hsize hinactive
      have hsolid := hsolid (by omega) nofun
      have hinactive := hinactive (by omega)
      have hchars : (w :: ws).map chars = args.map String.toList := by
        rw [← htext]
        exact (fields_inactive nothing hinactive).symm
      refine ⟨fun a ha => ?_, fun a ha => ?_⟩
      · have hmem : a.toList ∈ (w :: ws).map chars := hchars ▸ List.mem_map_of_mem ha
        obtain ⟨v, hv, hword⟩ := List.mem_map.mp hmem
        obtain ⟨u, rfl, hsome, hordinary, hhead⟩ := hsolid v hv
        rw [chars_plain] at hword
        rw [← hword]
        exact ⟨hsome, hordinary, hhead, hinactive _ hv⟩
      · obtain ⟨u, rfl, _⟩ := hsolid w List.mem_cons_self
        have hhead := congrArg List.head? hchars
        rw [List.map_cons, List.head?_cons, chars_plain, List.head?_map, Option.mem_def.mp ha]
          at hhead
        obtain rfl := Option.some.inj hhead
        exact ⟨hreserved, hassigns⟩

/-- Joining arguments and running the text gives back the arguments, whatever the files
and variables are, exactly if all of them are literal and the first names a program. -/
theorem argv_join_iff (args : List String) :
    (∀ around, argv around (Shell.join args) = some args) ↔
      (∀ a ∈ args, Literal a.toList) ∧ ∀ a ∈ args.head?, NamesProgram a.toList :=
  ⟨fun h => literal_of_argv_join (h nothing), fun h => argv_join h.1 h.2⟩

end Joined

end Keepup.Lib.ShellCommand
