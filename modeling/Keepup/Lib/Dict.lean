import Mathlib.Data.List.Nodup

/-!
Insertion-ordered dictionaries: a list of pairs with pairwise distinct keys,
in which replacing a value keeps its position and a new key goes to the end.
The lookup lemmas below are the whole interface; `AgreeOn` is the frame
relation ("every key of this kind still has the value it had").
-/

namespace Keepup.Lib

variable {κ α : Type*} [DecidableEq κ]

structure Dict (κ α : Type*) where
  entries : List (κ × α)
  nodup : (entries.map Prod.fst).Nodup
deriving DecidableEq

namespace Dict

omit [DecidableEq κ] in
@[ext] theorem ext {d e : Dict κ α} (h : d.entries = e.entries) : d = e := by
  cases d
  cases e
  cases h
  rfl

instance : EmptyCollection (Dict κ α) := ⟨⟨[], by simp⟩⟩

instance : Inhabited (Dict κ α) := ⟨∅⟩

def get? (d : Dict κ α) (k : κ) : Option α := d.entries.lookup k

def contains (d : Dict κ α) (k : κ) : Bool := (d.get? k).isSome

def getD (d : Dict κ α) (k : κ) (default : α) : α := (d.get? k).getD default

def keys (d : Dict κ α) : List κ := d.entries.map Prod.fst

def values (d : Dict κ α) : List α := d.entries.map Prod.snd

/-- Replace the value of `k` where it stands, or append the pair. -/
def setEntries (k : κ) (v : α) : List (κ × α) → List (κ × α)
  | [] => [(k, v)]
  | (k', v') :: rest =>
      if k' = k then (k, v) :: rest else (k', v') :: setEntries k v rest

theorem setEntries_keys (k : κ) (v : α) (l : List (κ × α)) :
    (setEntries k v l).map Prod.fst =
      if k ∈ l.map Prod.fst then l.map Prod.fst else l.map Prod.fst ++ [k] := by
  induction l with
  | nil => simp [setEntries]
  | cons pair rest ih =>
      obtain ⟨k', v'⟩ := pair
      by_cases hk : k' = k
      · simp [setEntries, hk]
      · have hk' : k ≠ k' := fun h => hk h.symm
        simp only [setEntries, hk, if_false, List.map_cons, ih, List.mem_cons, hk', false_or]
        split <;> simp

def set (d : Dict κ α) (k : κ) (v : α) : Dict κ α where
  entries := setEntries k v d.entries
  nodup := by
    rw [setEntries_keys]
    split
    · exact d.nodup
    · rename_i hnew
      rw [List.nodup_append]
      exact ⟨d.nodup, by simp, by
        intro a ha b hb
        rw [List.mem_singleton.mp hb]
        exact fun h => hnew (h ▸ ha)⟩

/-- Remove a key, present or not. -/
def pop (d : Dict κ α) (k : κ) : Dict κ α where
  entries := d.entries.filter (fun pair => pair.1 ≠ k)
  nodup := (List.Sublist.map Prod.fst List.filter_sublist).nodup d.nodup

def ofPairs (pairs : List (κ × α)) : Dict κ α :=
  pairs.foldl (fun d pair => d.set pair.1 pair.2) ∅

/-- Every key selected by `p` has the same value (or absence) in both. -/
def AgreeOn (p : κ → Prop) (d e : Dict κ α) : Prop :=
  ∀ k, p k → d.get? k = e.get? k

/-- A lookup finds an entry, and every entry is found. -/
theorem mem_entries_iff {d : Dict κ α} {k : κ} {v : α} :
    (k, v) ∈ d.entries ↔ d.get? k = some v := by
  obtain ⟨entries, hnodup⟩ := d
  simp only [get?]
  induction entries with
  | nil => simp
  | cons pair rest ih =>
      obtain ⟨k₁, v₁⟩ := pair
      simp only [List.map_cons, List.nodup_cons] at hnodup
      by_cases hk : k = k₁
      · subst hk
        have hrest : (k, v) ∉ rest := fun h => hnodup.1 (List.mem_map.mpr ⟨(k, v), h, rfl⟩)
        simp [hrest, eq_comm]
      · have hb : (k == k₁) = false := beq_eq_false_iff_ne.mpr hk
        simp [List.lookup_cons, hk, hb, ih hnodup.2]

@[simp] theorem get?_empty (k : κ) : (∅ : Dict κ α).get? k = none := rfl

theorem get?_set (d : Dict κ α) (k k' : κ) (v : α) :
    (d.set k v).get? k' = if k' = k then some v else d.get? k' := by
  obtain ⟨entries, hnodup⟩ := d
  simp only [get?, set]
  clear hnodup
  induction entries with
  | nil =>
      by_cases h : k' = k
      · simp [setEntries, h]
      · have hb : (k' == k) = false := beq_eq_false_iff_ne.mpr h
        simp [setEntries, List.lookup_cons, h, hb]
  | cons pair rest ih =>
      obtain ⟨k₁, v₁⟩ := pair
      by_cases hk : k₁ = k
      · subst hk
        by_cases h : k' = k₁
        · simp [setEntries, h]
        · have hb : (k' == k₁) = false := beq_eq_false_iff_ne.mpr h
          simp [setEntries, List.lookup_cons, h, hb]
      · by_cases h : k' = k₁
        · subst h
          simp [setEntries, hk]
        · have hb : (k' == k₁) = false := beq_eq_false_iff_ne.mpr h
          simp [setEntries, List.lookup_cons, hk, hb, ih]

@[simp] theorem get?_set_self (d : Dict κ α) (k : κ) (v : α) :
    (d.set k v).get? k = some v := by
  simp [get?_set]

@[simp] theorem get?_set_ne (d : Dict κ α) {k k' : κ} (v : α) (h : k' ≠ k) :
    (d.set k v).get? k' = d.get? k' := by
  simp [get?_set, h]

theorem get?_foldl_set (pairs : List (κ × α)) (d : Dict κ α) (k : κ) :
    (pairs.foldl (fun d pair => d.set pair.1 pair.2) d).get? k =
      (pairs.reverse.lookup k).or (d.get? k) := by
  induction pairs generalizing d with
  | nil => rfl
  | cons pair pairs ih =>
      obtain ⟨k₁, v₁⟩ := pair
      rw [List.foldl_cons, ih, List.reverse_cons, List.lookup_append, Option.or_assoc, get?_set]
      congr 1
      by_cases hk : k = k₁
      · simp [hk]
      · have hb : (k == k₁) = false := beq_eq_false_iff_ne.mpr hk
        simp [hk, hb, List.lookup_cons]

/-- What is under a key is one of the pairs. -/
theorem mem_of_get?_ofPairs {pairs : List (κ × α)} {k : κ} {v : α}
    (h : (ofPairs pairs).get? k = some v) :
    (k, v) ∈ pairs := by
  rw [ofPairs, get?_foldl_set, get?_empty, Option.or_none, List.lookup_eq_some_iff] at h
  obtain ⟨before, after, hpairs, _⟩ := h
  apply List.mem_reverse.mp
  rw [hpairs]
  exact List.mem_append_right before List.mem_cons_self

/-- A key with one value only has that value. -/
theorem get?_ofPairs_of_mem {pairs : List (κ × α)} {pair : κ × α} (hmem : pair ∈ pairs)
    (honce : ∀ other ∈ pairs, other.1 = pair.1 → other = pair) :
    (ofPairs pairs).get? pair.1 = some pair.2 := by
  cases h : (ofPairs pairs).get? pair.1 with
  | none =>
      rw [ofPairs, get?_foldl_set, get?_empty, Option.or_none, List.lookup_eq_none_iff] at h
      have hne := h pair (List.mem_reverse.mpr hmem)
      simp at hne
  | some v => rw [← honce _ (mem_of_get?_ofPairs h) rfl]

theorem get?_pop (d : Dict κ α) (k k' : κ) :
    (d.pop k).get? k' = if k' = k then none else d.get? k' := by
  obtain ⟨entries, hnodup⟩ := d
  simp only [get?, pop]
  clear hnodup
  induction entries with
  | nil => simp
  | cons pair rest ih =>
      obtain ⟨k₁, v₁⟩ := pair
      by_cases hk : k₁ = k
      · subst hk
        by_cases h : k' = k₁
        · simpa [h] using ih
        · have hb : (k' == k₁) = false := beq_eq_false_iff_ne.mpr h
          simpa [List.lookup_cons, h, hb] using ih
      · by_cases h : k' = k₁
        · subst h
          simp [hk]
        · have hb : (k' == k₁) = false := beq_eq_false_iff_ne.mpr h
          simpa [List.lookup_cons, hk, h, hb] using ih

@[simp] theorem get?_pop_self (d : Dict κ α) (k : κ) : (d.pop k).get? k = none := by
  simp [get?_pop]

@[simp] theorem get?_pop_ne (d : Dict κ α) {k k' : κ} (h : k' ≠ k) :
    (d.pop k).get? k' = d.get? k' := by
  simp [get?_pop, h]

/-- The pairs whose key is selected by `p`. -/
def restrict (p : κ → Bool) (d : Dict κ α) : Dict κ α where
  entries := d.entries.filter fun pair => p pair.1
  nodup := (List.Sublist.map Prod.fst List.filter_sublist).nodup d.nodup

theorem get?_restrict (p : κ → Bool) (d : Dict κ α) (k : κ) :
    (d.restrict p).get? k = if p k then d.get? k else none := by
  obtain ⟨entries, hnodup⟩ := d
  simp only [get?, restrict]
  clear hnodup
  induction entries with
  | nil => simp
  | cons pair rest ih =>
      obtain ⟨k₁, v₁⟩ := pair
      by_cases hk : k = k₁
      · subst hk
        cases hp : p k with
        | true => simp [hp]
        | false => simpa [hp] using ih
      · have hb : (k == k₁) = false := beq_eq_false_iff_ne.mpr hk
        cases hp : p k₁ with
        | true => simpa [List.lookup_cons, hp, hb] using ih
        | false => simpa [List.lookup_cons, hp, hb] using ih

omit [DecidableEq κ] in
theorem restrict_eq_self {p : κ → Bool} {d : Dict κ α} (h : ∀ k ∈ d.keys, p k = true) :
    d.restrict p = d := by
  apply ext
  refine List.filter_eq_self.mpr fun pair hpair => ?_
  exact h pair.1 (List.mem_map_of_mem hpair)

theorem mem_keys_iff {d : Dict κ α} {k : κ} : k ∈ d.keys ↔ ∃ v, d.get? k = some v := by
  simp only [keys, List.mem_map, Prod.exists, exists_and_right, exists_eq_right, mem_entries_iff]

/-- Removing a key that is not there changes nothing. -/
theorem pop_absent {d : Dict κ α} {k : κ} (h : d.get? k = none) : d.pop k = d := by
  apply ext
  refine List.filter_eq_self.mpr fun pair hpair => decide_eq_true ?_
  rintro rfl
  exact absurd (List.lookup_eq_none_iff.mp h pair hpair) (by simp)

/-- Writing the value a key already has changes nothing. -/
theorem set_get? {d : Dict κ α} {k : κ} {v : α} (h : d.get? k = some v) : d.set k v = d := by
  obtain ⟨entries, hnodup⟩ := d
  apply ext
  simp only [get?, set] at h ⊢
  clear hnodup
  induction entries with
  | nil => simp at h
  | cons pair rest ih =>
      obtain ⟨k₁, v₁⟩ := pair
      by_cases hk : k₁ = k
      · subst hk
        simp only [List.lookup_cons, beq_self_eq_true] at h
        simp [setEntries, Option.some.inj h]
      · have hk' : (k == k₁) = false := by simpa using fun h => hk h.symm
        simp only [List.lookup_cons, hk'] at h
        simp [setEntries, hk, ih h]

/-- What the values hold, once one of them has taken the place of another. -/
theorem flatMap_set {β : Type*} (f : α → List β) (d : Dict κ α) (k : κ) (v : α) :
    ((d.set k v).values.flatMap f ++ ((d.get? k).map f).getD []).Perm
      (d.values.flatMap f ++ f v) := by
  obtain ⟨entries, hnodup⟩ := d
  simp only [values, get?, set]
  clear hnodup
  induction entries with
  | nil => simp [setEntries]
  | cons pair rest ih =>
      obtain ⟨k₁, v₁⟩ := pair
      by_cases hk : k₁ = k
      · subst hk
        simp only [setEntries, if_true, List.map_cons, List.flatMap_cons, List.lookup_cons_self,
          Option.map_some, Option.getD_some]
        rw [List.append_assoc (f v₁)]
        exact List.perm_append_comm.trans (List.perm_append_comm.append_left (f v₁))
      · have hb : (k == k₁) = false := beq_eq_false_iff_ne.mpr fun h => hk h.symm
        simp only [setEntries, hk, if_false, List.map_cons, List.flatMap_cons, List.lookup_cons, hb,
          List.append_assoc]
        exact ih.append_left (f v₁)

section Put

/-- Remove a key, and add it again when there is a value for it. -/
def put (d : Dict κ α) (k : κ) : Option α → Dict κ α
  | none => d.pop k
  | some v => (d.pop k).set k v

theorem get?_put (d : Dict κ α) (k k' : κ) (value : Option α) :
    (d.put k value).get? k' = if k' = k then value else d.get? k' := by
  cases value with
  | none => exact get?_pop d k k'
  | some v =>
      rw [put, get?_set]
      split
      · rfl
      · rename_i hne
        rw [get?_pop_ne _ hne]

variable {β : Type*}

/-- Put the value of every element of a list under its key. -/
def putAll (key : β → κ) (value : β → Option α) (d : Dict κ α) (l : List β) : Dict κ α :=
  l.foldl (fun d b => d.put (key b) (value b)) d

variable {key : β → κ} {value : β → Option α} {d : Dict κ α} {l : List β} {k : κ}

theorem get?_putAll_of_not_mem (h : ∀ b ∈ l, key b ≠ k) :
    (d.putAll key value l).get? k = d.get? k := by
  induction l generalizing d with
  | nil => rfl
  | cons b l ih =>
      rw [putAll, List.foldl_cons]
      refine (ih fun x hx => h x (by simp [hx])).trans ?_
      rw [get?_put, if_neg (h b (by simp)).symm]

/-- What is under a key afterwards was put there last, or has been there before. -/
theorem get?_putAll_cases (key : β → κ) (value : β → Option α) (d : Dict κ α) (l : List β) (k : κ) :
    (∃ b ∈ l, key b = k ∧ (d.putAll key value l).get? k = value b) ∨
      (d.putAll key value l).get? k = d.get? k := by
  induction l generalizing d with
  | nil => exact .inr rfl
  | cons b l ih =>
      rw [putAll, List.foldl_cons]
      rcases ih (d.put (key b) (value b)) with ⟨x, hx, hkey, hvalue⟩ | hkept
      · exact .inl ⟨x, by simp [hx], hkey, hvalue⟩
      · rw [get?_put] at hkept
        by_cases hkey : k = key b
        · exact .inl ⟨b, by simp, hkey.symm, hkept.trans (if_pos hkey)⟩
        · exact .inr (hkept.trans (if_neg hkey))

/-- Where the keys of the elements differ, each has its own value. -/
theorem get?_putAll_of_mem {b : β} (hb : b ∈ l) (hkey : ∀ x ∈ l, key x = key b → x = b) :
    (d.putAll key value l).get? (key b) = value b := by
  induction l generalizing d with
  | nil => cases hb
  | cons x l ih =>
      rw [putAll, List.foldl_cons]
      by_cases hmem : b ∈ l
      · exact ih hmem fun y hy => hkey y (by simp [hy])
      · obtain rfl : b = x := (List.mem_cons.mp hb).resolve_right hmem
        refine (get?_putAll_of_not_mem fun y hy hsame => ?_).trans ?_
        · exact hmem (hkey y (by simp [hy]) hsame ▸ hy)
        · rw [get?_put, if_pos rfl]

end Put

namespace AgreeOn

variable {p : κ → Prop} {d e f : Dict κ α}

theorem refl (d : Dict κ α) : AgreeOn p d d := fun _ _ => rfl

theorem symm (h : AgreeOn p d e) : AgreeOn p e d := fun k hk => (h k hk).symm

theorem trans (h : AgreeOn p d e) (h' : AgreeOn p e f) : AgreeOn p d f :=
  fun k hk => (h k hk).trans (h' k hk)

theorem set {k : κ} (hk : ¬ p k) (v : α) : AgreeOn p (d.set k v) d := by
  intro k' hk'
  exact get?_set_ne d v (fun h => hk (h ▸ hk'))

theorem pop {k : κ} (hk : ¬ p k) : AgreeOn p (d.pop k) d := by
  intro k' hk'
  exact get?_pop_ne d (fun h => hk (h ▸ hk'))

end AgreeOn

end Dict

end Keepup.Lib
