import Mathlib.Data.List.Basic

/-!
Command lines of the common kind: options first, each a flag or an option that
takes the next argument as its value, then the operands. Reading stops at the
first operand, so what follows it is never taken for an option.
-/

namespace Keepup.Lib.CommandLine

inductive Opt where
  | flag (name : String)
  | value (name val : String)
deriving DecidableEq, Repr

namespace Opt

def name : Opt → String
  | .flag name => name
  | .value name _ => name

def words : Opt → List String
  | .flag name => [name]
  | .value name val => [name, val]

/-- The value an option gives under a name. -/
def valueOf (wanted : String) : Opt → Option String
  | .flag _ => none
  | .value name val => if name = wanted then some val else none

end Opt

def flatten (opts : List Opt) : List String := opts.flatMap Opt.words

/-- All values given under one name, in order. -/
def valuesOf (wanted : String) (opts : List Opt) : List String := opts.filterMap (·.valueOf wanted)

/-- A dash alone is an operand. -/
def isOption (word : String) : Bool := ['-'].isPrefixOf word.toList && word != "-"

/-- The options a command has. None is of both kinds, and all are dashed. -/
structure Grammar where
  flags : List String
  valued : List String
  dashed : ∀ name ∈ flags ++ valued, isOption name = true
  disjoint : ∀ name ∈ valued, name ∉ flags

namespace Grammar

def read (g : Grammar) : List String → Option (List Opt × List String)
  | [] => some ([], [])
  | word :: rest =>
      if isOption word then
        if word ∈ g.flags then (g.read rest).map fun r => (.flag word :: r.1, r.2)
        else if word ∈ g.valued then
          match rest with
          | [] => none
          | val :: rest => (g.read rest).map fun r => (.value word val :: r.1, r.2)
        else none
      else some ([], word :: rest)

/-- The grammar knows the option, and knows it as this kind of option. -/
def Knows (g : Grammar) : Opt → Prop
  | .flag name => name ∈ g.flags
  | .value name _ => name ∈ g.valued

/-- The grammar knows every option of a list. -/
def KnowsAll (g : Grammar) (opts : List Opt) : Prop := ∀ opt ∈ opts, g.Knows opt

theorem read_operand (g : Grammar) {word : String} (h : isOption word = false)
    (rest : List String) : g.read (word :: rest) = some ([], word :: rest) := by
  rw [read.eq_def]
  simp [h]

theorem read_flag (g : Grammar) {name : String} (h : g.Knows (.flag name))
    (rest : List String) :
    g.read (name :: rest) = (g.read rest).map fun r => (.flag name :: r.1, r.2) := by
  have hdashed := g.dashed name (List.mem_append_left _ h)
  have hflag : name ∈ g.flags := h
  rw [read.eq_def]
  simp [hdashed, hflag]

theorem read_value (g : Grammar) {name val : String} (h : g.Knows (.value name val))
    (rest : List String) :
    g.read (name :: val :: rest) = (g.read rest).map fun r => (.value name val :: r.1, r.2) := by
  have hdashed := g.dashed name (List.mem_append_right _ h)
  have hflag := g.disjoint name h
  have hvalued : name ∈ g.valued := h
  rw [read.eq_def]
  simp [hdashed, hflag, hvalued]

/-- Reading gives back the options that were written, whatever their values
look like, and leaves the operands alone. -/
theorem read_flatten (g : Grammar) (opts : List Opt) (hknown : g.KnowsAll opts)
    {operand : String} (hoperand : isOption operand = false) (rest : List String) :
    g.read (flatten opts ++ operand :: rest) = some (opts, operand :: rest) := by
  induction opts with
  | nil => exact g.read_operand hoperand rest
  | cons opt opts ih =>
      have hrest := ih (fun o ho => hknown o (List.mem_cons_of_mem _ ho))
      have hopt := hknown opt List.mem_cons_self
      cases opt with
      | flag name =>
          change g.read (name :: (flatten opts ++ operand :: rest)) = _
          rw [g.read_flag hopt, hrest]
          rfl
      | value name val =>
          change g.read (name :: val :: (flatten opts ++ operand :: rest)) = _
          rw [g.read_value hopt, hrest]
          rfl

section Known

variable (g : Grammar)

@[simp] theorem knowsAll_nil : g.KnowsAll [] := by simp [KnowsAll]

/-- Options given in groups are known group by group. -/
theorem knowsAll_flatten (groups : List (List Opt)) :
    g.KnowsAll groups.flatten ↔ ∀ group ∈ groups, g.KnowsAll group := by
  simp only [KnowsAll, List.mem_flatten]
  exact ⟨fun h group hgroup opt hopt => h opt ⟨group, hgroup, hopt⟩,
    fun h opt ⟨group, hgroup, hopt⟩ => h group hgroup opt hopt⟩

@[simp] theorem knowsAll_cons (opt : Opt) (opts : List Opt) :
    g.KnowsAll (opt :: opts) ↔ g.Knows opt ∧ g.KnowsAll opts := by
  simp [KnowsAll]

theorem knowsAll_map {α : Type*} {name : String} (h : name ∈ g.valued) (render : α → String)
    (items : List α) : g.KnowsAll (items.map fun item => .value name (render item)) := by
  intro opt hopt
  obtain ⟨item, _, rfl⟩ := List.mem_map.mp hopt
  exact h

theorem knowsAll_ite {c : Prop} [Decidable c] {opts opts' : List Opt} (h : g.KnowsAll opts)
    (h' : g.KnowsAll opts') : g.KnowsAll (if c then opts else opts') := by
  split
  · exact h
  · exact h'

end Known

end Grammar

section Values

variable (wanted : String)

@[simp] theorem valuesOf_nil : valuesOf wanted [] = [] := rfl

@[simp] theorem valuesOf_append (opts opts' : List Opt) :
    valuesOf wanted (opts ++ opts') = valuesOf wanted opts ++ valuesOf wanted opts' := by
  simp [valuesOf]

@[simp] theorem valuesOf_flag_cons (name : String) (opts : List Opt) :
    valuesOf wanted (.flag name :: opts) = valuesOf wanted opts := rfl

@[simp] theorem valuesOf_value (name val : String) :
    valuesOf wanted [.value name val] = if name = wanted then [val] else [] := by
  by_cases h : name = wanted <;> simp [valuesOf, Opt.valueOf, h]

@[simp] theorem valuesOf_map {α : Type*} (name : String) (render : α → String) (items : List α) :
    valuesOf wanted (items.map fun item => .value name (render item)) =
      if name = wanted then items.map render else [] := by
  by_cases h : name = wanted <;> simp [valuesOf, Opt.valueOf, List.filterMap_map, h]

@[simp] theorem valuesOf_ite (c : Prop) [Decidable c] (opts opts' : List Opt) :
    valuesOf wanted (if c then opts else opts') =
      if c then valuesOf wanted opts else valuesOf wanted opts' := by
  split <;> rfl

theorem valuesOf_value_cons_of_ne {name : String} (h : name ≠ wanted) (val : String)
    (opts : List Opt) : valuesOf wanted (.value name val :: opts) = valuesOf wanted opts := by
  simp [valuesOf, Opt.valueOf, h]

/-- The flag is among the options. -/
def isSet (opts : List Opt) : Bool := opts.contains (.flag wanted)

@[simp] theorem isSet_nil : isSet wanted [] = false := rfl

@[simp] theorem isSet_append (opts opts' : List Opt) :
    isSet wanted (opts ++ opts') = (isSet wanted opts || isSet wanted opts') := by
  simp [isSet]

@[simp] theorem isSet_flag_cons (name : String) (opts : List Opt) :
    isSet wanted (.flag name :: opts) = (wanted == name || isSet wanted opts) := by
  rw [Bool.eq_iff_iff]
  simp [isSet]

@[simp] theorem isSet_value_cons (name val : String) (opts : List Opt) :
    isSet wanted (.value name val :: opts) = isSet wanted opts := by
  simp [isSet]

@[simp] theorem isSet_map {α : Type*} (name : String) (render : α → String) (items : List α) :
    isSet wanted (items.map fun item => .value name (render item)) = false := by
  simp [isSet]

@[simp] theorem isSet_ite (c : Prop) [Decidable c] (opts opts' : List Opt) :
    isSet wanted (if c then opts else opts') = if c then isSet wanted opts
      else isSet wanted opts' := by
  split <;> rfl

end Values

end Keepup.Lib.CommandLine
