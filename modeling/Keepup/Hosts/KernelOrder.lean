import Keepup.Hosts.Kernel
import Keepup.Text.Cuts
import Mathlib.Data.List.Lex

/-!
The order of the kernel releases of Proxmox. A release is read as the tuple of its
numbers, but one that was ported back carries a suffix that is no number, and is read
as the lowest of all. The main theorem says for which releases the order is still right,
and with it the answer whether a node needs a reboot.
-/

namespace Keepup.Kernel

open Lib

section Releases

/-- A release `A.B.C-N-pve`, or `A.B.C-N-bpoM-pve` when it was ported back. -/
structure Release where
  major : Nat
  minor : Nat
  patch : Nat
  build : Nat
  backport : Option Nat := none
deriving DecidableEq

namespace Release

variable (r : Release)

def version : String := toString r.major ++ "." ++ toString r.minor ++ "." ++ toString r.patch

def suffix : String := r.backport.elim "" fun m => "-bpo" ++ toString m

def text : String := r.version ++ "-" ++ toString r.build ++ r.suffix ++ "-pve"

def numbers : List Nat := [r.major, r.minor, r.patch, r.build]

end Release

end Releases

section Numerals

theorem digitsOf_digits {cs : List Char} (hne : cs ≠ []) (hdigits : ∀ c ∈ cs, c.isDigit = true) :
    digitsOf cs = some cs := by
  induction cs with
  | nil => exact absurd rfl hne
  | cons c cs ih =>
      have hc : c.isDigit = true := hdigits c List.mem_cons_self
      cases cs with
      | nil => simp [digitsOf, hc]
      | cons d ds =>
          have hd : d ≠ '_' := by
            rintro rfl
            exact absurd (hdigits '_' (by simp)) (by decide)
          have hrest := ih (by simp) fun x hx => hdigits x (List.mem_cons_of_mem c hx)
          rw [digitsOf, if_pos hc, hrest, Option.map_some]
          · simp
          · intro rest hcons
            exact hd (List.cons.inj hcons).1

theorem digitsOf_eq_none {cs : List Char} {d : Char} (hmem : d ∈ cs) (hd : d.isDigit = false)
    (hsep : d ≠ '_') : digitsOf cs = none := by
  induction cs using digitsOf.induct with
  | case1 => cases hmem
  | case2 c hc =>
      obtain rfl := List.mem_singleton.mp hmem
      simp [hd] at hc
  | case3 c hc => simp [digitsOf, hc]
  | case4 c cs hc ih =>
      have hcs : d ∈ cs := by
        rcases List.mem_cons.mp hmem with rfl | hmem
        · simp [hd] at hc
        · exact (List.mem_cons.mp hmem).resolve_left hsep
      simp [digitsOf, ih hcs]
  | case5 c cs hc => simp [digitsOf, hc]
  | case6 c cs hne hnot hc ih =>
      have hcs : d ∈ cs := (List.mem_cons.mp hmem).resolve_left (by rintro rfl; simp [hd] at hc)
      rw [digitsOf, if_pos hc, ih hcs, Option.map_none]
      · exact hne
      · exact hnot
  | case7 c cs hne hnot hc =>
      rw [digitsOf, if_neg hc]
      · exact hne
      · exact hnot

theorem natOf_toString (n : Nat) : natOf (toString n).toList = n := by
  rw [Nat.toString_eq_ofList_toDigits, String.toList_ofList]
  exact Nat.ofDigitChars_ten_toDigits

/-- A number is read back from its numeral. -/
theorem intOf_toString (n : Nat) : intOf (toString n) = some (n : Int) := by
  have hdigits := Text.toString_digits n
  have hread := digitsOf_digits (Text.toString_ne_nil n) hdigits
  have hsign : ∀ c cs, (toString n).toList = c :: cs → c ≠ '-' ∧ c ≠ '+' := by
    intro c cs hcs
    have hc : c.isDigit = true := hdigits c (hcs ▸ List.mem_cons_self)
    constructor <;> (rintro rfl; exact absurd hc (by decide))
  rw [intOf, Text.strip_word (Text.toString_isWord n)]
  split
  · next cs hcs => exact absurd rfl (hsign _ _ hcs).1
  · next cs hcs => exact absurd rfl (hsign _ _ hcs).2
  · rw [hread, Option.map_some, natOf_toString]

/-- A text with a `-` behind its first character is no number. -/
theorem intOf_dash {s rest : String} (hs : Text.IsWord s)
    (hdigits : ∀ c ∈ s.toList, c.isDigit = true)
    (hrest : Text.IsWord rest) : intOf (s ++ ("-" ++ rest)) = none := by
  have hword : Text.IsWord (s ++ ("-" ++ rest)) := hs.append (Text.IsWord.append (by decide) hrest)
  have hmem : '-' ∈ (s ++ ("-" ++ rest)).toList := by simp
  obtain ⟨d, ds, hds⟩ := List.exists_cons_of_ne_nil hs.toList_ne_nil
  have hd : d.isDigit = true := hdigits d (by simp [hds])
  have hlist : (s ++ ("-" ++ rest)).toList = d :: (ds ++ '-' :: rest.toList) := by simp [hds]
  rw [intOf, Text.strip_word hword]
  split
  · next cs hcs =>
      rw [hlist] at hcs
      obtain ⟨rfl, -⟩ := List.cons.inj hcs
      exact absurd hd (by decide)
  · next cs hcs =>
      rw [hlist] at hcs
      obtain ⟨rfl, -⟩ := List.cons.inj hcs
      exact absurd hd (by decide)
  · rw [digitsOf_eq_none hmem (by decide) (by decide), Option.map_none]

end Numerals

section Tuples

/-- The suffix ends at the first place where it can begin. -/
theorem cutChars_pve {l : List Char} (hl : 'v' ∉ l) (rest : List Char) :
    Text.cutChars "-pve".toList (l ++ ("-pve".toList ++ rest)) = some (l, rest) := by
  induction l with
  | nil => exact Text.cutChars_here (by decide)
  | cons c l ih =>
      have htail : 'v' ∉ l := fun h => hl (List.mem_cons_of_mem c h)
      have hlead : ("-pve".toList.isPrefixOf (c :: l ++ ("-pve".toList ++ rest))) = false := by
        match l, hl with
        | [], _ => simp [List.isPrefixOf]
        | [d], _ => simp [List.isPrefixOf]
        | d :: e :: l, hl =>
            have he : 'v' ≠ e := by rintro rfl; simp at hl
            simp [List.isPrefixOf, he]
      rw [List.cons_append] at hlead ⊢
      rw [Text.cutChars, hlead, ih htail]
      rfl

theorem deletePve {l : List Char} (hl : 'v' ∉ l) (fuel : Nat) :
    deleteChars "-pve".toList (fuel + 1) (l ++ "-pve".toList) = l := by
  have hcut := cutChars_pve hl []
  rw [List.append_nil] at hcut
  have hnil : deleteChars "-pve".toList fuel [] = [] := by
    cases fuel <;> rfl
  have hstep : deleteChars "-pve".toList (fuel + 1) (l ++ "-pve".toList) =
      l ++ deleteChars "-pve".toList fuel [] := by
    rw [deleteChars.eq_def]
    simp only [hcut]
  rw [hstep, hnil, List.append_nil]

namespace Release

variable (r : Release)

theorem numeral_free {c : Char} (hc : c.isDigit = false) (n : Nat) : c ∉ (toString n).toList := by
  intro h
  have hdigit := Text.toString_digits n c h
  rw [hc] at hdigit
  cases hdigit

theorem version_free {c : Char} (hc : c.isDigit = false) (hdot : c ≠ '.') :
    c ∉ r.version.toList := by
  have hnum := numeral_free hc
  have hpoint : c ∉ ".".toList := by simpa using hdot
  simp only [version, String.toList_append, List.mem_append, hnum,
    hpoint, or_self, not_false_eq_true]

theorem suffix_free {c : Char} (hc : c.isDigit = false) (hlead : c ∉ "-bpo".toList) :
    c ∉ r.suffix.toList := by
  rw [suffix]
  cases r.backport with
  | none => simp
  | some m =>
      have hnum := numeral_free hc m
      simp only [Option.elim_some, String.toList_append, List.mem_append, hnum, hlead, or_self,
        not_false_eq_true]

/-- What is left of a release without `-pve`. -/
theorem deleted_text : deleteChars "-pve".toList r.text.toList.length r.text.toList =
    (r.version ++ ("-" ++ (toString r.build ++ r.suffix))).toList := by
  have hfree : 'v' ∉ (r.version ++ ("-" ++ (toString r.build ++ r.suffix))).toList := by
    have hversion := r.version_free (c := 'v') (by decide) (by decide)
    have hbuild := numeral_free (c := 'v') (by decide) r.build
    have hsuffix := r.suffix_free (c := 'v') (by decide) (by decide)
    have hdash : 'v' ∉ "-".toList := by decide
    simp only [String.toList_append, List.mem_append, hversion, hbuild, hsuffix, hdash, or_self,
      not_false_eq_true]
  have hlist : r.text.toList =
      (r.version ++ ("-" ++ (toString r.build ++ r.suffix))).toList ++ "-pve".toList := by
    simp only [text, String.toList_append, List.append_assoc]
  have hfour : "-pve".toList.length = 3 + 1 := by decide
  have hlength : r.text.toList.length =
      (r.version ++ ("-" ++ (toString r.build ++ r.suffix))).toList.length + 3 + 1 := by
    rw [hlist, List.length_append, hfour, Nat.add_assoc]
  rw [hlength, hlist]
  exact deletePve hfree _

theorem splitOn_version : Text.splitOn '.' r.version =
    [toString r.major, toString r.minor, toString r.patch] := by
  have hfree := numeral_free (c := '.') (by decide)
  have hdot : "." = String.ofList ['.'] := rfl
  rw [version, String.append_assoc, String.append_assoc, String.append_assoc, hdot,
    Text.splitOn_piece (hfree _), Text.splitOn_piece (hfree _), Text.splitOn_last (hfree _)]

theorem kernelVersionTuple_text : kernelVersionTuple r.text =
    match r.backport with
    | none => [(r.major : Int), r.minor, r.patch, r.build]
    | some _ => [0] := by
  have hdash : '-' ∉ r.version.toList := r.version_free (by decide) (by decide)
  have hminus : "-" = String.ofList ['-'] := rfl
  have hmain : Text.before '-' (r.version ++ ("-" ++ (toString r.build ++ r.suffix))) = r.version :=
    Text.before_append hdash _
  have hbuild : Text.cut "-" (r.version ++ ("-" ++ (toString r.build ++ r.suffix))) =
      some (r.version, toString r.build ++ r.suffix) := Text.cut_char hdash _
  have hnums : (Text.splitOn '.' r.version).mapM intOf =
      some [(r.major : Int), r.minor, r.patch] := by
    rw [splitOn_version]
    simp only [List.mapM_cons, List.mapM_nil, intOf_toString]
    rfl
  rw [kernelVersionTuple, deleted_text, String.ofList_toList]
  simp only [hmain, hbuild, hnums, Option.map_some, Option.elim_some]
  rw [suffix]
  cases r.backport with
  | none => simp only [Option.elim_none, String.append_empty, intOf_toString]; rfl
  | some m =>
      have hrest : Text.IsWord ("bpo" ++ toString m) :=
        Text.IsWord.append (by decide) (Text.toString_isWord m)
      have hsplit : "-bpo" ++ toString m = "-" ++ ("bpo" ++ toString m) := by
        rw [← String.append_assoc]
        rfl
      simp only [Option.elim_some, hsplit,
        intOf_dash (Text.toString_isWord r.build) (Text.toString_digits r.build) hrest]

end Release

end Tuples

section Order

/-- The tuples stand in the order of the numbers. -/
def OrderedByNumbers (releases : List Release) : Prop :=
  ∀ r ∈ releases, ∀ s ∈ releases,
    (kernelVersionTuple r.text < kernelVersionTuple s.text ↔ r.numbers < s.numbers)

/-- What was ported back is older than everything else, and of one age. -/
def BackportsOldest (releases : List Release) : Prop :=
  ∀ r ∈ releases, r.backport ≠ none → ∀ s ∈ releases,
    if s.backport = none then r.numbers < s.numbers else r.numbers = s.numbers

instance (releases : List Release) : Decidable (OrderedByNumbers releases) :=
  inferInstanceAs (Decidable (∀ r ∈ releases, ∀ s ∈ releases, _))

instance (releases : List Release) : Decidable (BackportsOldest releases) :=
  inferInstanceAs (Decidable (∀ r ∈ releases, r.backport ≠ none → ∀ s ∈ releases, _))

theorem tuple_lt_iff (r s : Release) : kernelVersionTuple r.text < kernelVersionTuple s.text ↔
    s.backport = none ∧ (r.backport = none → r.numbers < s.numbers) := by
  rw [r.kernelVersionTuple_text, s.kernelVersionTuple_text]
  cases r.backport with
  | none =>
      cases s.backport with
      | none => simp only [Release.numbers, List.cons_lt_cons_iff, Int.ofNat_lt, Int.natCast_inj,
          List.not_lt_nil, and_false, or_false, true_and, forall_const]
      | some _ =>
          have hfirst : ¬ (r.major : Int) < 0 := by omega
          simp only [List.cons_lt_cons_iff, hfirst, List.not_lt_nil,
            and_false, or_false, reduceCtorEq,
            false_and]
  | some _ =>
      cases s.backport with
      | none =>
          have hfirst : (0 : Int) < s.major ∨ 0 = (s.major : Int) := by omega
          simpa [List.cons_lt_cons_iff] using hfirst
      | some _ => simp

theorem ordered_iff (releases : List Release) :
    OrderedByNumbers releases ↔ BackportsOldest releases := by
  constructor
  · intro hordered r hr hback s hs
    split
    · next hnone => exact (hordered r hr s hs).mp ((tuple_lt_iff r s).mpr ⟨hnone,
        fun h => absurd h hback⟩)
    · next hsome =>
        have hnot : ∀ x ∈ releases, ∀ y ∈ releases, y.backport ≠ none →
            ¬ x.numbers < y.numbers := by
          intro x hx y hy hy' hlt
          exact hy' ((tuple_lt_iff x y).mp ((hordered x hx y hy).mpr hlt)).1
        exact le_antisymm (not_lt.mp (hnot s hs r hr hback)) (not_lt.mp (hnot r hr s hs hsome))
  · intro holdest r hr s hs
    rw [tuple_lt_iff]
    constructor
    · rintro ⟨hs', hlt⟩
      by_cases hr' : r.backport = none
      · exact hlt hr'
      · simpa [hs'] using holdest r hr hr' s hs
    · intro hlt
      refine ⟨?_, fun _ => hlt⟩
      by_contra hs'
      have hback := holdest s hs hs' r hr
      split at hback
      · exact lt_asymm hlt hback
      · exact hlt.ne hback.symm

/-- No release of the list has a greater tuple than the newest. -/
theorem newest_spec {kernels : List String} (hne : kernels ≠ []) :
    newest kernels ∈ kernels ∧
      ∀ k ∈ kernels, ¬ kernelVersionTuple (newest kernels) < kernelVersionTuple k := by
  obtain ⟨kernel, kernels, rfl⟩ := List.exists_cons_of_ne_nil hne
  rw [newest]
  induction kernels generalizing kernel with
  | nil => simp
  | cons k ks ih =>
      rw [List.foldl_cons]
      split
      · next hlt =>
          obtain ⟨hmem, hmax⟩ := ih k (by simp)
          refine ⟨List.mem_cons_of_mem _ hmem, fun x hx => ?_⟩
          rcases List.mem_cons.mp hx with rfl | hx
          · exact fun hnew => hmax k List.mem_cons_self (List.lt_trans hnew hlt)
          · exact hmax x hx
      · next hge =>
          obtain ⟨hmem, hmax⟩ := ih kernel (by simp)
          refine ⟨?_, fun x hx => ?_⟩
          · rcases List.mem_cons.mp hmem with hhead | htail
            · rw [hhead]
              exact List.mem_cons_self
            · exact List.mem_cons_of_mem _ (List.mem_cons_of_mem _ htail)
          · rcases List.mem_cons.mp hx with rfl | hx
            · exact hmax x List.mem_cons_self
            · rcases List.mem_cons.mp hx with rfl | hx
              · have hstart := List.not_lt.mp (hmax kernel List.mem_cons_self)
                exact List.not_lt.mpr (List.le_trans (List.not_lt.mp hge) hstart)
              · exact hmax x (List.mem_cons_of_mem _ hx)

end Order

section Probe

/-- What the probe prints on a node with these releases, no pin and the usual entry of GRUB. -/
def probeOutput (running : Release) (installed : List Release) : String :=
  Text.unlines ([("RUNNING " ++ running.text), "GRUBDEFAULT 0", "SAVEDENTRY ", "PIN "] ++
    installed.map fun k => "KERNEL " ++ k.text)

theorem Release.text_isWord (r : Release) : Text.IsWord r.text := by
  have hnum := Text.toString_isWord
  have hdot : Text.IsWord "." := by decide
  have hbuild : Text.IsWord (toString r.build ++ r.suffix) := by
    rw [suffix]
    cases r.backport with
    | none => simpa using hnum r.build
    | some m => exact (hnum r.build).append (Text.IsWord.append (by decide) (hnum m))
  have hversion : Text.IsWord r.version :=
    ((((hnum r.major).append hdot).append (hnum r.minor)).append hdot).append (hnum r.patch)
  have htext := ((hversion.append (by decide : Text.IsWord "-")).append hbuild).append
    (by decide : Text.IsWord "-pve")
  rwa [← String.append_assoc] at htext

theorem keyValue_pair {key value : String} (hkey : Text.IsWord key) (hvalue : Text.IsWord value) :
    keyValue (key ++ (" " ++ value)) = some (key, value) := by
  have hlist : (key ++ (" " ++ value)).toList = key.toList ++ ' ' :: value.toList := by simp
  have hfront : (key.toList ++ ' ' :: value.toList).dropWhile Text.isSpace =
      key.toList ++ ' ' :: value.toList := by
    obtain ⟨c, cs, hcs⟩ := List.exists_cons_of_ne_nil hkey.toList_ne_nil
    have hc : Text.isSpace c = false := hkey.solid c (by simp [hcs])
    rw [hcs, List.cons_append, List.dropWhile_cons_of_neg (by simp [hc])]
  have hsolid : ∀ c ∈ key.toList, (!Text.isSpace c) = true := fun c hc => by simp [hkey.solid c hc]
  have hdrop : (' ' :: value.toList).dropWhile (fun c => !Text.isSpace c) = ' ' :: value.toList :=
    List.dropWhile_cons_of_neg (by decide)
  have htake : (' ' :: value.toList).takeWhile (fun c => !Text.isSpace c) = [] :=
    List.takeWhile_cons_of_neg (by decide)
  have hrest : Text.strip (String.ofList (' ' :: value.toList)) = value := by
    have hpadded := Text.strip_surrounded " " "" (by decide) hvalue (by simp)
    rw [String.append_empty] at hpadded
    exact (congrArg Text.strip (String.toList_inj.mp (by simp))).trans hpadded
  rw [keyValue, hlist, hfront, List.dropWhile_append_of_pos hsolid,
    List.takeWhile_append_of_pos hsolid,
    hdrop, htake, hrest]
  simp [hvalue.nonempty]

theorem readFact_kernel (facts : Facts) (k : Release) :
    readFact facts ("KERNEL " ++ k.text) = { facts with kernels := facts.kernels ++ [k.text] } := by
  have hpair := keyValue_pair (by decide : Text.IsWord "KERNEL") k.text_isWord
  rw [← String.append_assoc] at hpair
  rw [readFact, show "KERNEL " = "KERNEL" ++ " " from rfl, hpair]
  rfl

theorem foldl_kernels (facts : Facts) (installed : List Release) :
    (installed.map fun k => "KERNEL " ++ k.text).foldl readFact facts =
      { facts with kernels := facts.kernels ++ installed.map Release.text } := by
  induction installed generalizing facts with
  | nil => simp
  | cons k ks ih => simp [readFact_kernel, ih]

theorem parse_probeOutput (running : Release) (installed : List Release) :
    parseKernelProbe (probeOutput running installed) =
      { running := running.text, grubDefault := "0", kernels := installed.map Release.text } := by
  have hunbroken : ∀ l ∈ [("RUNNING " ++ running.text), "GRUBDEFAULT 0", "SAVEDENTRY ", "PIN "] ++
      installed.map fun k => "KERNEL " ++ k.text, ∀ c ∈ l.toList, Text.isLineBreak c = false := by
    have hfixed : ∀ text ∈ ["RUNNING ", "GRUBDEFAULT 0", "SAVEDENTRY ", "PIN ", "KERNEL "],
        ∀ c ∈ text.toList, Text.isLineBreak c = false := by decide
    simp only [List.forall_mem_append, List.forall_mem_cons, List.forall_mem_map, List.not_mem_nil,
      false_implies, implies_true, and_true]
    refine ⟨⟨Text.unbroken_append (hfixed _ (by simp)) running.text_isWord.unbroken,
      hfixed _ (by simp),
      hfixed _ (by simp), hfixed _ (by simp)⟩, fun k _ => ?_⟩
    exact Text.unbroken_append (hfixed _ (by simp)) k.text_isWord.unbroken
  have hrunning : readFact {} ("RUNNING " ++ running.text) = { running := running.text } := by
    have hpair := keyValue_pair (by decide : Text.IsWord "RUNNING") running.text_isWord
    rw [← String.append_assoc] at hpair
    rw [readFact, show "RUNNING " = "RUNNING" ++ " " from rfl, hpair]
    rfl
  have hgrub : ∀ facts, readFact facts "GRUBDEFAULT 0" = { facts with grubDefault := "0" } := by
    intro facts
    rw [readFact, show keyValue "GRUBDEFAULT 0" = some ("GRUBDEFAULT", "0") by decide]
    rfl
  have hskip : ∀ line, keyValue line = none → ∀ facts, readFact facts line = facts := by
    intro line hline facts
    rw [readFact, hline]
  rw [parseKernelProbe, probeOutput, Text.splitLines_unlines hunbroken,
    List.foldl_append, foldl_kernels]
  simp only [List.foldl_cons, List.foldl_nil, hrunning, hgrub, hskip "SAVEDENTRY " (by decide),
    hskip "PIN " (by decide), List.nil_append]

end Probe

section Answer

/-- Some installed release has greater numbers than the running one. -/
def Newer (running : Release) (installed : List Release) : Prop :=
  ∃ k ∈ installed, running.numbers < k.numbers

instance (running : Release) (installed : List Release) : Decidable (Newer running installed) :=
  inferInstanceAs (Decidable (∃ k ∈ installed, running.numbers < k.numbers))

/-- The probe found these releases, no pin, and no saved entry that GRUB boots. -/
structure Reports (facts : Facts) (running : Release) (installed : List Release) : Prop where
  running : facts.running = running.text
  kernels : facts.kernels = installed.map Release.text
  unpinned : facts.pin = ""
  unsaved : facts.grubDefault ≠ "saved" ∨ facts.savedEntry = ""

variable {running : Release} {installed : List Release}

theorem Reports.nextBoot {facts : Facts} (h : Reports facts running installed) :
    resolveNextBootKernel facts = newest (installed.map Release.text) := by
  have hpin : ¬ facts.pin ≠ "" := fun hne => hne h.unpinned
  rw [resolveNextBootKernel, if_neg hpin, h.kernels]
  rcases h.unsaved with hgrub | hsaved
  · rw [if_neg hgrub, Option.getD_none]
  · simp [hsaved, findReleases]

theorem reports_probeOutput (running : Release) (installed : List Release) :
    Reports (parseKernelProbe (probeOutput running installed)) running installed := by
  rw [parse_probeOutput]
  exact ⟨rfl, rfl, rfl, .inr rfl⟩

/-- With no pin and no saved entry the check compares the tuples of all releases. -/
theorem Reports.answer {stdout : String} (h : Reports (parseKernelProbe stdout) running installed) :
    ∃ needed, nodeRebootRequired stdout = .ok needed ∧ (needed = true ↔
      ∃ k ∈ installed, kernelVersionTuple running.text < kernelVersionTuple k.text) := by
  have hrunning : ¬ (parseKernelProbe stdout).running = "" := by
    rw [h.running]
    exact running.text_isWord.nonempty
  refine ⟨_, by rw [nodeRebootRequired, if_neg hrunning, h.nextBoot, h.running], ?_⟩
  cases hinstalled : installed with
  | nil => simp [newest]
  | cons first rest =>
      rw [← hinstalled]
      have hne : installed.map Release.text ≠ [] := by simp [hinstalled]
      obtain ⟨hmem, hmax⟩ := newest_spec hne
      obtain ⟨best, hbest, htext⟩ := List.mem_map.mp hmem
      rw [← htext] at hmax ⊢
      simp only [Bool.and_eq_true, bne_iff_ne, ne_eq, best.text_isWord.nonempty, not_false_eq_true,
        decide_eq_true_eq, true_and]
      constructor
      · intro hlt
        exact ⟨best, hbest, hlt⟩
      · rintro ⟨k, hk, hlt⟩
        by_contra hnot
        have hle := List.le_trans (List.not_lt.mp (hmax k.text (List.mem_map_of_mem hk)))
          (List.not_lt.mp hnot)
        exact List.not_lt.mpr hle hlt

/-- The releases are ordered as their numbers, and the check of a node without pin and saved
entry answers whether a newer one is installed, if and only if whatever was ported back is
older than all else. -/
theorem kernel_order_iff (running : Release) (installed : List Release) :
    (OrderedByNumbers (running :: installed) ∧
      ∀ stdout, Reports (parseKernelProbe stdout) running installed →
        ∃ needed, nodeRebootRequired stdout = .ok needed ∧
          (needed = true ↔ Newer running installed)) ↔
      BackportsOldest (running :: installed) := by
  rw [← ordered_iff]
  constructor
  · exact And.left
  · intro hordered
    refine ⟨hordered, fun stdout hreports => ?_⟩
    obtain ⟨needed, hrun, hneeded⟩ := hreports.answer
    refine ⟨needed, hrun, hneeded.trans (exists_congr fun k => and_congr_right fun hk => ?_)⟩
    exact hordered running List.mem_cons_self k (List.mem_cons_of_mem running hk)

def oldRelease : Release := ⟨5, 15, 108, 1, none⟩

def backported : Release := ⟨6, 2, 16, 4, some 11⟩

/-- A node with a newer release that was ported back is taken to need no reboot. -/
theorem backport_missed :
    ¬ (OrderedByNumbers [oldRelease, oldRelease, backported] ∧
      ∀ stdout, Reports (parseKernelProbe stdout) oldRelease [oldRelease, backported] →
        ∃ needed, nodeRebootRequired stdout = .ok needed ∧
          (needed = true ↔ Newer oldRelease [oldRelease, backported])) := by
  rintro ⟨-, hanswers⟩
  have hreports := reports_probeOutput oldRelease [oldRelease, backported]
  obtain ⟨needed, hrun, hneeded⟩ := hanswers _ hreports
  obtain ⟨answered, hanswer, hanswered⟩ := hreports.answer
  obtain rfl : needed = answered := Except.ok.inj (hrun.symm.trans hanswer)
  simp only [tuple_lt_iff] at hanswered
  exact absurd (hanswered.mp (hneeded.mpr (by decide))) (by decide)

end Answer

section Api

def parseKversion (kversion : String) : String := (Text.split kversion)[1]?.getD ""

/-- The release in the name of a signed kernel package. -/
def signedRelease (package : String) : Option String :=
  if Text.startsWith package "proxmox-kernel-" ∧ "-pve-signed".toList.isSuffixOf package.toList then
    some (String.ofList ((package.toList.take (package.toList.length - 7)).drop 15))
  else none

/-- The check over the API, from the `kversion` of the node and the names of its packages.
Without both answers it says no. -/
def getNodeRebootRequired : Option (String × List String) → Bool
  | none => false
  | some (kversion, packages) =>
      let running := parseKversion kversion
      let installedKernels := packages.filterMap signedRelease
      running != "" && installedKernels.any fun k =>
        decide (kernelVersionTuple running < kernelVersionTuple k)

variable {running : Release} {installed : List Release}

theorem signedRelease_text (r : Release) :
    signedRelease ("proxmox-kernel-" ++ (r.text ++ "-signed")) = some r.text := by
  have hlist : ("proxmox-kernel-" ++ (r.text ++ "-signed")).toList =
      ("proxmox-kernel-".toList ++ r.text.toList) ++ "-signed".toList := by
    simp only [String.toList_append, List.append_assoc]
  have hsuffix : "-pve-signed".toList.isSuffixOf ("proxmox-kernel-" ++
      (r.text ++ "-signed")).toList = true := by
    rw [List.isSuffixOf_iff_suffix]
    refine ⟨("proxmox-kernel-" ++ (r.version ++ "-" ++ toString r.build ++ r.suffix)).toList, ?_⟩
    simp [Release.text]
  have hlength : ("proxmox-kernel-" ++ (r.text ++ "-signed")).toList.length - 7 =
      ("proxmox-kernel-".toList ++ r.text.toList).length := by
    have hseven : "-signed".toList.length = 7 := by decide
    rw [hlist, List.length_append, hseven, Nat.add_sub_cancel]
  rw [signedRelease, if_pos ⟨Text.startsWith_append _ _, hsuffix⟩, hlength, hlist, List.take_left]
  have hfifteen : "proxmox-kernel-".toList.length = 15 := by decide
  rw [← hfifteen, List.drop_left, String.ofList_toList]

/-- On a node without pin and saved entry both checks give the same answer, as long as the
packages are the releases that the probe finds. -/
theorem checks_agree {stdout kversion : String} {packages : List String}
    (h : Reports (parseKernelProbe stdout) running installed)
    (hkversion : parseKversion kversion = running.text)
    (hpackages : packages.filterMap signedRelease = installed.map Release.text) :
    nodeRebootRequired stdout = .ok (getNodeRebootRequired (some (kversion, packages))) := by
  obtain ⟨needed, hrun, hneeded⟩ := h.answer
  have hapi : getNodeRebootRequired (some (kversion, packages)) = true ↔
      ∃ k ∈ installed, kernelVersionTuple running.text < kernelVersionTuple k.text := by
    simp only [getNodeRebootRequired, hkversion, hpackages, Bool.and_eq_true, bne_iff_ne, ne_eq,
      running.text_isWord.nonempty, not_false_eq_true, true_and, List.any_map, List.any_eq_true,
      Function.comp_apply, decide_eq_true_eq]
  rw [hrun, Bool.eq_iff_iff.mpr (hneeded.trans hapi.symm)]

/-- They agree on a release that was ported back as well. -/
theorem backport_checks_agree :
    nodeRebootRequired (probeOutput oldRelease [oldRelease, backported]) =
      .ok (getNodeRebootRequired (some ("Linux 5.15.108-1-pve #1 SMP PVE 5.15.108-2",
        "pve-manager" :: [oldRelease, backported].map fun r =>
          "proxmox-kernel-" ++ (r.text ++ "-signed")))) := by
  refine checks_agree (reports_probeOutput _ _) (by decide +kernel) ?_
  have hmanager : signedRelease "pve-manager" = none := by decide +kernel
  simp only [List.map_cons, List.map_nil, List.filterMap_cons, List.filterMap_nil, hmanager,
    signedRelease_text]

end Api

end Keepup.Kernel
