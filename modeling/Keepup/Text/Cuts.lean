import Keepup.Text.Lines

/-!
A text and its pieces: at the first separator, at the last one, and at all of them.
-/

namespace Keepup.Text

variable {a b s : String} {c : Char}

/-- `s.rsplit(c, 1)[-1]`. -/
def afterLast (c : Char) (s : String) : String :=
  String.ofList (s.toList.reverse.takeWhile (· != c)).reverse

section First

theorem eq_before_append (h : c ∈ s.toList) :
    ∃ rest, s = before c s ++ (String.ofList [c] ++ rest) := by
  have hdrop : s.toList.dropWhile (· != c) ≠ [] := by
    intro hnil
    simpa using List.dropWhile_eq_nil_iff.mp hnil c h
  obtain ⟨d, rest, hrest⟩ := List.exists_cons_of_ne_nil hdrop
  obtain rfl : d = c := by simpa using dropWhile_head (· != c) s.toList d (by rw [hrest]; rfl)
  refine ⟨String.ofList rest, ?_⟩
  apply String.toList_inj.mp
  simp only [before, String.toList_append, String.toList_ofList, List.singleton_append, ← hrest,
    List.takeWhile_append_dropWhile]

theorem cut_free (h : c ∉ s.toList) : cut (String.ofList [c]) s = none := by
  apply cut_none
  · simp
  · rw [String.toList_ofList]
    exact fun hin => h (hin.subset (List.mem_singleton_self c))

theorem cut_eq_some_iff :
    cut (String.ofList [c]) s = some (a, b) ↔ c ∉ a.toList ∧ s = a ++ (String.ofList [c] ++ b) := by
  constructor
  · intro h
    by_cases hmem : c ∈ s.toList
    · obtain ⟨rest, hs⟩ := eq_before_append hmem
      rw [hs, cut_char (not_mem_before c s)] at h
      obtain ⟨rfl, rfl⟩ := Prod.mk.inj (Option.some.inj h)
      exact ⟨not_mem_before c s, hs⟩
    · rw [cut_free hmem] at h
      cases h
  · rintro ⟨ha, rfl⟩
    exact cut_char ha b

end First

section All

theorem splitOn_ne_nil (c : Char) (s : String) : splitOn c s ≠ [] := by
  simpa [splitOn] using splitChars_ne_nil (· == c) s.toList

theorem joinOn_cons (c : Char) (a : String) {as : List String} (h : as ≠ []) :
    joinOn c (a :: as) = a ++ (String.ofList [c] ++ joinOn c as) := by
  obtain ⟨b, bs, rfl⟩ := List.exists_cons_of_ne_nil h
  rfl

/-- A statement about a text follows from that for what comes after the first separator. -/
theorem pieces_induction {P : String → Prop} (c : Char) (hlast : ∀ s, c ∉ s.toList → P s)
    (hpiece : ∀ a rest, c ∉ a.toList → P rest → P (a ++ (String.ofList [c] ++ rest))) (s : String) :
    P s := by
  induction hlength : s.toList.length using Nat.strong_induction_on generalizing s with
  | _ n ih =>
      by_cases hmem : c ∈ s.toList
      · obtain ⟨rest, hs⟩ := eq_before_append hmem
        have hshort : rest.toList.length < n := by
          rw [← hlength, hs]
          simp
          omega
        rw [hs]
        exact hpiece _ rest (not_mem_before c s) (ih _ hshort rest rfl)
      · exact hlast s hmem

/-- Joining the pieces at the separator gives back the text. -/
theorem joinOn_splitOn (c : Char) (s : String) : joinOn c (splitOn c s) = s := by
  induction s using pieces_induction c with
  | hlast s hfree => rw [splitOn_last hfree, joinOn]
  | hpiece a rest ha ih => rw [splitOn_piece ha, joinOn_cons c a (splitOn_ne_nil c rest), ih]

theorem free_of_mem_splitOn (h : a ∈ splitOn c s) : c ∉ a.toList := by
  induction s using pieces_induction c with
  | hlast s hfree =>
      rw [splitOn_last hfree, List.mem_singleton] at h
      rwa [h]
  | hpiece b rest hb ih =>
      rw [splitOn_piece hb, List.mem_cons] at h
      rcases h with rfl | hrest
      · exact hb
      · exact ih hrest

/-- Every other character is in one of the pieces. -/
theorem exists_mem_splitOn {d : Char} (hne : d ≠ c) (h : d ∈ s.toList) :
    ∃ a ∈ splitOn c s, d ∈ a.toList := by
  induction s using pieces_induction c with
  | hlast s hfree => exact ⟨s, by rw [splitOn_last hfree]; exact List.mem_singleton_self s, h⟩
  | hpiece b rest hb ih =>
      rw [splitOn_piece hb]
      simp only [String.toList_append, String.toList_ofList, List.singleton_append, List.mem_append,
        List.mem_cons, hne, false_or] at h
      rcases h with hfirst | hrest
      · exact ⟨b, List.mem_cons_self, hfirst⟩
      · obtain ⟨a, ha, hd⟩ := ih hrest
        exact ⟨a, List.mem_cons_of_mem b ha, hd⟩

theorem joinOn_eq_intercalate (c : Char) (parts : List String) :
    joinOn c parts = (String.ofList [c]).intercalate parts := by
  apply String.toList_inj.mp
  rw [String.toList_intercalate, String.toList_ofList]
  induction parts with
  | nil => rfl
  | cons a as ih =>
      cases as with
      | nil => simp [joinOn]
      | cons b bs =>
          rw [joinOn_cons c a (List.cons_ne_nil b bs), List.map_cons, List.map_cons,
            List.intercalate_cons_cons, ← List.map_cons (f := String.toList), ← ih]
          simp

end All

section Last

theorem takeWhile_reverse_free (h : c ∉ s.toList) : ∀ d ∈ s.toList.reverse, (d != c) = true := by
  intro d hd
  have hne : d ≠ c := by rintro rfl; exact h (List.mem_reverse.mp hd)
  simpa using hne

theorem afterLast_append_free (hb : c ∉ b.toList) (a : String) :
    afterLast c (a ++ b) = afterLast c a ++ b := by
  apply String.toList_inj.mp
  simp [afterLast, List.takeWhile_append_of_pos (takeWhile_reverse_free hb)]

theorem afterLast_free (h : c ∉ s.toList) : afterLast c s = s := by
  have hempty := afterLast_append_free h ""
  rwa [String.empty_append] at hempty

/-- What stands before a separator does not count. -/
theorem afterLast_sep (c : Char) (a b : String) :
    afterLast c (a ++ (String.ofList [c] ++ b)) = afterLast c b := by
  have hrev : (a ++ (String.ofList [c] ++ b)).toList.reverse =
      b.toList.reverse ++ c :: a.toList.reverse := by
    simp
  rw [afterLast, afterLast, hrev, List.takeWhile_append]
  split
  · rename_i hall
    rw [List.takeWhile_cons_of_neg (by simp), List.append_nil, List.Sublist.eq_of_length
      (List.takeWhile_sublist _) hall]
  · rfl

theorem afterLast_append (hb : c ∉ b.toList) (a : String) :
    afterLast c (a ++ (String.ofList [c] ++ b)) = b := by
  rw [afterLast_sep, afterLast_free hb]

theorem mem_of_mem_afterLast {d : Char} (h : d ∈ (afterLast c s).toList) : d ∈ s.toList := by
  rw [afterLast, String.toList_ofList, List.mem_reverse] at h
  exact List.mem_reverse.mp ((List.takeWhile_sublist _).subset h)

end Last

end Keepup.Text
