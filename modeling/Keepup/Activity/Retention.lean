import Keepup.Activity.Output

/-!
What is kept after a run whose recording meets no failure: the records of the index, and
the output files of all runs.
-/

namespace Keepup.Activity

open Lib Remote

section Completion

variable {α β : Type} {d : Disk}

/-- Where no step fails, a program ends in a state and with a result of the given kind. -/
def Completes (prog : Program α) (d : Disk) (P : Disk → α → Prop) : Prop :=
  ∀ n, ∃ d' a, exec serve allDone n prog d = (d', .ok a) ∧ P d' a

theorem completes_ret {a : α} {P : Disk → α → Prop} (h : P d a) : Completes (.ret a) d P :=
  fun _ => ⟨d, a, rfl, h⟩

theorem completes_call {step : Step} {k : Answer → Program α} {P : Disk → α → Prop}
    (h : Completes (k (d.perform step).2) (d.perform step).1 P) : Completes (.call step k) d P := by
  intro n
  have hserve : serve d step (allDone n step) = ((d.perform step).1, .ok (d.perform step).2) := by
    cases step <;> rfl
  rw [exec_call_ok hserve]
  exact h (n + 1)

theorem completes_bind {prog : Program α} {k : α → Program β} {Q : Disk → α → Prop}
    {P : Disk → β → Prop} (hprog : Completes prog d Q)
    (hk : ∀ d' a, Q d' a → Completes (k a) d' P) :
    Completes (prog >>= k) d P := by
  intro n
  obtain ⟨d', a, hexec, hq⟩ := hprog n
  obtain ⟨m, hm⟩ := exec_bind hexec k
  rw [hm]
  exact hk d' a hq m

/-- A disk with other output files. -/
def SameIndex (d d' : Disk) : Prop := d'.index = d.index ∧ d'.legacy = d.legacy

theorem deleteOutputFiles_completes (runIds : List String) (d : Disk) :
    Completes (deleteOutputFiles runIds) d fun d' _ => SameIndex d d' ∧
      ∀ runId, d'.runs.get? runId = if runId ∈ runIds ∧
        runId ≠ "" then none else d.runs.get? runId := by
  induction runIds generalizing d with
  | nil => exact completes_ret ⟨⟨rfl, rfl⟩, fun runId => by simp⟩
  | cons first rest ih =>
      rw [deleteOutputFiles]
      split
      · rename_i hempty
        intro n
        obtain ⟨d', a, hexec, hsame, hruns⟩ := ih d n
        refine ⟨d', a, hexec, hsame, fun runId => ?_⟩
        rw [hruns]
        by_cases hid : runId = "" <;> simp [hid, hempty]
      · rename_i hsome
        refine completes_call fun n => ?_
        obtain ⟨d', a, hexec, hsame, hruns⟩ := ih (d.perform (.unlink first)).1 n
        refine ⟨d', a, hexec, hsame, fun runId => ?_⟩
        rw [hruns]
        by_cases hid : runId = first
        · subst hid
          simp [Disk.perform, hsome]
        · simp [Disk.perform, hid, Dict.get?_pop_ne _ hid]

/-- A file that is old enough goes. -/
theorem sweepEach_completes (cutoff : ℚ) (runIds : List String) (d : Disk) :
    Completes (sweepEach cutoff runIds) d fun d' _ => SameIndex d d' ∧
      ∀ runId, d'.runs.get? runId = d.runs.get? runId ∨
        runId ∈ runIds ∧ d'.runs.get? runId = none ∧
        (d.runs.get? runId).any (fun file => file.mtime < cutoff) := by
  induction runIds generalizing d with
  | nil => exact completes_ret ⟨⟨rfl, rfl⟩, fun runId => .inl rfl⟩
  | cons first rest ih =>
      rw [sweepEach]
      refine completes_call fun n => ?_
      obtain ⟨d', a, hexec, hsame, hruns⟩ := ih (d.perform (.sweep first cutoff)).1 n
      rw [Disk.perform] at hexec hsame hruns
      dsimp only at hexec hsame hruns
      by_cases hold : (d.runs.get? first).any (fun file => file.mtime < cutoff) = true
      · rw [if_pos hold] at hexec hsame hruns
        refine ⟨d', a, ?_, hsame, fun runId => ?_⟩
        · rw [← hexec, Disk.perform, if_pos hold]
        · by_cases hid : runId = first
          · subst hid
            right
            refine ⟨List.mem_cons_self, ?_, hold⟩
            rcases hruns runId with hkept | ⟨_, hgone, _⟩
            · rw [hkept]
              exact Dict.get?_pop_self _ _
            · exact hgone
          · have hother : (d.runs.pop first).get? runId = d.runs.get? runId :=
              Dict.get?_pop_ne _ hid
            have hrest := hruns runId
            rw [hother] at hrest
            exact hrest.imp_right fun h => ⟨List.mem_cons_of_mem first h.1, h.2⟩
      · rw [if_neg hold] at hexec hsame hruns
        refine ⟨d', a, ?_, hsame, fun runId => ?_⟩
        · rw [← hexec, Disk.perform, if_neg hold]
        · exact (hruns runId).imp_right fun h => ⟨List.mem_cons_of_mem first h.1, h.2⟩

end Completion

section Retained

variable (env : Surroundings) (dates : Dates)

def getRun (moment : Moment) (runId : String) : Program (Option Record) := do
  let entries ← loadIndex env dates moment
  .ret (entries.find? fun e => e.id = runId)

/-- A record is not older than what is kept. A time that cannot be read counts as now. -/
def recent (now : ℚ) (e : Record) : Bool := decide (now - retention ≤ dates.parseTs e.startedAt now)

/-- The records that are kept beside the new one. -/
def older (now : ℚ) (entries : List Record) :
    List Record := (entries.take 499).filter (recent dates now)

/-- The index and the output files after a run. -/
structure Retained (moment : Moment) (run : Run) (d d' : Disk) : Prop where
  index : d'.index = some (.full (run.record dates (run.lineCount env moment.store) ::
    older dates moment.now (entriesOf d)))
  bounded : (entriesOf d').length ≤ maxEntries
  found : ∀ later n, exec serve allDone n (getRun env dates later run.runId) d' =
    (d', .ok (some (run.record dates (run.lineCount env moment.store))))
  own : d'.runs.get? run.runId = some ⟨run.text env moment.store, moment.now⟩
  kept : ∀ e ∈ older dates moment.now (entriesOf d), d'.runs.get? e.id = d.runs.get? e.id
  dropped : ∀ e ∈ entriesOf d, e ∉ older dates moment.now (entriesOf d) → e.id ≠ "" →
    d'.runs.get? e.id = none
  others : ∀ runId, runId ≠ run.runId → runId ∉ (entriesOf d).map Record.id →
    d'.runs.get? runId = d.runs.get? runId ∨
      d'.runs.get? runId = none ∧ ∃ file, d.runs.get? runId = some file ∧
        file.mtime < moment.now - retention

variable {dates} {d : Disk} {moment : Moment} {run : Run}

variable (dates) in
/-- The new record, and the recent ones of those before it. -/
theorem selected_eq (count : ℕ) {entries : List Record} (hfresh : run.runId ∉ entries.map Record.id)
    (now : ℚ) : (run.selected dates now count entries).1 =
      run.record dates count :: older dates now entries := by
  refine (selectKept_cons dates now (run.record dates count) entries).trans (congrArg _ ?_)
  apply List.filter_congr
  intro e he
  have hother : e.id ≠ run.runId := by
    intro hid
    exact hfresh (hid ▸ List.mem_map_of_mem (List.mem_of_mem_take he))
  have hfalse : decide (e.id = (run.record dates count).id) = false := decide_eq_false hother
  rw [hfalse, Bool.false_or, recent]

variable (dates) in
/-- The dropped records are those that are not kept. -/
theorem mem_dropped_iff (count : ℕ) {entries : List Record}
    (hdistinct : (entries.map Record.id).Nodup) (hfresh : run.runId ∉ entries.map Record.id)
    (now : ℚ) (runId : String) :
    runId ∈ (run.selected dates now count entries).2.map Record.id ↔
      ∃ e ∈ entries, e.id = runId ∧ e ∉ older dates now entries := by
  have hperm := selectKept_perm dates now (run.record dates count :: entries) run.runId
  have hids : ((run.record dates count :: entries).map Record.id).Nodup :=
    List.nodup_cons.mpr ⟨hfresh, hdistinct⟩
  have hsplit : ((run.selected dates now count entries).1 ++
    (run.selected dates now count entries).2).Perm
      (run.record dates count :: entries) := hperm
  rw [selected_eq dates count hfresh now, List.cons_append] at hsplit
  have hrest := (List.perm_cons _).mp hsplit
  have hnodup : (older dates now entries ++ (run.selected dates now count entries).2).Nodup :=
    hrest.nodup_iff.mpr (List.Nodup.of_map Record.id hdistinct)
  constructor
  · intro hmem
    obtain ⟨e, he, rfl⟩ := List.mem_map.mp hmem
    refine ⟨e, hrest.subset (List.mem_append_right _ he), rfl, fun hkept => ?_⟩
    exact (List.nodup_append.mp hnodup).2.2 e hkept e he rfl
  · rintro ⟨e, he, rfl, hnot⟩
    rcases List.mem_append.mp (hrest.symm.subset he) with hkept | hdropped
    · exact absurd hkept hnot
    · exact List.mem_map_of_mem hdropped

theorem sweepAgedOrphans_completes (now : ℚ) (keepIds : List String) (d : Disk) :
    Completes (sweepAgedOrphans now keepIds) d fun d' _ => SameIndex d d' ∧
      ∀ runId, d'.runs.get? runId = d.runs.get? runId ∨ runId ∉ keepIds ∧
        d'.runs.get? runId = none ∧
        (d.runs.get? runId).any (fun file => file.mtime < now - retention) := by
  refine completes_call fun n => ?_
  obtain ⟨d', a, hexec, hsame, hruns⟩ := sweepEach_completes (now - retention)
    (d.runs.keys.filter fun runId => runId ∉ keepIds) d n
  refine ⟨d', a, hexec, hsame, fun runId => (hruns runId).imp_right fun h => ⟨?_, h.2⟩⟩
  simpa using (List.mem_filter.mp h.1).2

/-- A file of no dropped record is as before, or no record is kept for it and it is old. -/
def Spared (now : ℚ) (kept : List Record) (d d' : Disk) (runId : String) : Prop :=
  d'.runs.get? runId = d.runs.get? runId ∨ runId ∉ kept.map Record.id ∧ d'.runs.get? runId = none ∧
    (d.runs.get? runId).any (fun file => file.mtime < now - retention)

variable (dates moment run) in
theorem indexRun_completes (count : ℕ) (hlegacy : d.legacy = none) (hwhole : d.index ≠ some .torn) :
    Completes (indexRun env dates moment run count) d fun d' result =>
      let selected := run.selected dates moment.now count (entriesOf d)
      result = run.runId ∧ d'.legacy = none ∧ d'.index = some (.full selected.1) ∧ ∀ runId,
        (runId ∈ selected.2.map Record.id → runId ≠ "" → d'.runs.get? runId = none) ∧
        (runId ∉ selected.2.map Record.id → Spared moment.now selected.1 d d' runId) := by
  refine completes_bind (Q := fun d' entries => d' = d ∧ entries = entriesOf d)
    (fun n => ⟨d, entriesOf d, loadIndex_done env dates moment hlegacy hwhole n, rfl, rfl⟩) ?_
  rintro d _ ⟨rfl, rfl⟩
  generalize run.selected dates moment.now count (entriesOf d) = selected
  refine completes_bind (Q := fun d' saved => saved = true ∧ d'.index = some (.full selected.1) ∧
      d'.runs = d.runs ∧ d'.legacy = none)
    (completes_call (completes_call (completes_ret ⟨rfl, rfl, rfl, hlegacy⟩))) ?_
  rintro d₁ _ ⟨rfl, hindex, hruns, hnone⟩
  rw [if_pos rfl]
  refine completes_bind (deleteOutputFiles_completes _ d₁) ?_
  rintro d₂ _ ⟨hsame, hdeleted⟩
  refine completes_bind (sweepAgedOrphans_completes moment.now _ d₂) ?_
  rintro d₃ _ ⟨hlast, hswept⟩
  refine completes_ret ⟨rfl, hlast.2.trans (hsame.2.trans hnone),
    (hlast.1.trans hsame.1).trans hindex,
    fun runId => ⟨fun hmem hsome => ?_, fun hnot => ?_⟩⟩
  · have hlisted : runId ∈ env.iterate (selected.2.map Record.id).dedup :=
      (env.iterate_perm _).mem_iff.mpr (List.mem_dedup.mpr hmem)
    rcases hswept runId with hkept | ⟨_, hgone, _⟩
    · rw [hkept, hdeleted, if_pos ⟨hlisted, hsome⟩]
    · exact hgone
  · have hunlisted : ¬ (runId ∈ env.iterate (selected.2.map Record.id).dedup ∧
        runId ≠ "") := fun h =>
      hnot (List.mem_dedup.mp ((env.iterate_perm _).mem_iff.mp h.1))
    have hbefore : d₂.runs.get? runId = d.runs.get? runId := by
      rw [hdeleted, if_neg hunlisted, hruns]
    have hafter := hswept runId
    rwa [hbefore] at hafter

theorem Spared.of_kept {now : ℚ} {kept : List Record} {d' : Disk} {runId : String}
    (h : Spared now kept d d' runId) (hmem : runId ∈ kept.map Record.id) :
    d'.runs.get? runId = d.runs.get? runId :=
  h.elim id fun hgone => absurd hmem hgone.1

theorem older_subset (now : ℚ) (entries : List Record) :
    older dates now entries ⊆ entries := fun _ he =>
  List.mem_of_mem_take (List.mem_of_mem_filter he)

theorem older_length (now : ℚ) (entries : List Record) : (older dates now entries).length ≤ 499 :=
  (List.length_filter_le _ _).trans (List.length_take_le _ _)

/-- A record of an index is found where there is no old log to import. -/
theorem getRun_done (later : Moment) {entries : List Record} (hlegacy : d.legacy = none)
    (hindex : d.index = some (.full entries)) (runId : String) (n : ℕ) :
    exec serve allDone n (getRun env dates later runId) d =
      (d, .ok (entries.find? fun e => e.id = runId)) := by
  have hwhole : d.index ≠ some .torn := by
    rw [hindex]
    simp
  have hentries : entriesOf d = entries := by rw [entriesOf, hindex]
  have hread := loadIndex_done env dates later hlegacy hwhole n
  obtain ⟨m, hm⟩ := exec_bind hread fun entries => (.ret (entries.find? fun e => e.id = runId) :
    Program (Option Record))
  rw [getRun, hm, hentries, exec_ret]

end Retained

/-- After a run whose recording meets no failure the new record is in front of at most 500,
before those of the first 499 old ones that are recent. Their files stay, those of the
dropped records go, and of the others only old ones. A record without an id has no file. -/
theorem run_retained (env : Surroundings) (dates : Dates) (moment : Moment) (run : Run) (d : Disk)
    (hlegacy : d.legacy = none) (hwhole : d.index ≠ some .torn)
    (hdistinct : ((entriesOf d).map Record.id).Nodup)
    (hfresh : run.runId ∉ (entriesOf d).map Record.id) :
    Completes (recordRun env dates moment run) d fun d' result =>
      result = run.runId ∧ Retained env dates moment run d d' := by
  let d₁ := (d.perform (.writeOutput run.runId (run.text env moment.store) moment.now)).1
  have hother : ∀ runId, runId ≠ run.runId → d₁.runs.get? runId =
      d.runs.get? runId := fun runId hne =>
    Dict.get?_set_ne _ _ hne
  rw [recordRun_eq]
  refine completes_bind (Q := fun d' count => d' = d₁ ∧ count = run.lineCount env moment.store)
    (completes_call (completes_ret ⟨rfl, rfl⟩)) ?_
  rintro _ _ ⟨rfl, rfl⟩
  intro n
  obtain ⟨d', result, hexec, rfl, hnone, hindex, hfiles⟩ :=
    indexRun_completes env dates moment run (run.lineCount env moment.store)
      (d := d₁) hlegacy hwhole n
  refine ⟨d', run.runId, hexec, rfl, ?_⟩
  have hentries : entriesOf d₁ = entriesOf d := rfl
  rw [hentries] at hindex hfiles
  have hselected := selected_eq dates (run.lineCount env moment.store) hfresh moment.now
  have hdropped := mem_dropped_iff dates
    (run.lineCount env moment.store) hdistinct hfresh moment.now
  have hstays : ∀ e ∈ older dates moment.now (entriesOf d),
      e.id ∉ ((run.selected dates moment.now (run.lineCount env moment.store) (entriesOf d)).2.map
          Record.id) := by
    intro e he hmem
    obtain ⟨e', he', hid, hgone⟩ := (hdropped e.id).mp hmem
    rw [List.inj_on_of_nodup_map hdistinct he' (older_subset _ _ he) hid] at hgone
    exact hgone he
  have hunlisted : ∀ runId, runId ∉ (entriesOf d).map Record.id →
      runId ∉ ((run.selected dates moment.now (run.lineCount env moment.store) (entriesOf d)).2.map
          Record.id) := by
    intro runId hnot hmem
    obtain ⟨e, he, hid, _⟩ := (hdropped runId).mp hmem
    exact hnot (hid ▸ List.mem_map_of_mem he)
  rw [hselected] at hindex hfiles
  constructor
  case index => exact hindex
  case bounded =>
    rw [entriesOf, hindex]
    exact Nat.succ_le_succ (older_length _ _)
  case found =>
    intro later n
    have hfront : (run.record dates (run.lineCount env moment.store) ::
      older dates moment.now (entriesOf d)).find?
        (fun e => e.id = run.runId) = some (run.record dates (run.lineCount env moment.store)) := by
      apply List.find?_cons_of_pos
      exact decide_eq_true rfl
    rw [getRun_done env later hnone hindex, hfront]
  case own =>
    have hkept := ((hfiles run.runId).2 (hunlisted _ hfresh)).of_kept List.mem_cons_self
    rw [hkept]
    exact Dict.get?_set_self _ _ _
  case kept =>
    intro e he
    have hnew : e.id ≠ run.runId :=
      fun hid => hfresh (hid ▸ List.mem_map_of_mem (older_subset _ _ he))
    have hmem := List.mem_cons_of_mem run.runId (List.mem_map_of_mem (f := Record.id) he)
    rw [((hfiles e.id).2 (hstays e he)).of_kept hmem, hother e.id hnew]
  case dropped =>
    intro e he hgone hsome
    exact (hfiles e.id).1 ((hdropped e.id).mpr ⟨e, he, rfl, hgone⟩) hsome
  case others =>
    intro runId hne hnot
    have hspared := (hfiles runId).2 (hunlisted runId hnot)
    rw [Spared, hother runId hne] at hspared
    refine hspared.imp_right fun hswept => ⟨hswept.2.1, ?_⟩
    obtain ⟨_, _, hold⟩ := hswept
    obtain ⟨file, hfile, hmtime⟩ := (Option.any_eq_true _ _).mp hold
    exact ⟨file, hfile, of_decide_eq_true hmtime⟩

def pastRecord (runId startedAt : String) : Record where
  id := runId
  kind := "os_upgrade"
  target := "nas"
  targetName := "NAS"
  trigger := "manual"
  status := "success"
  startedAt := startedAt
  finishedAt := startedAt
  durationS := 0
  error := ""
  lineCount := 1

/-- An old record, and one with a time that cannot be read. -/
def pastDisk : Disk where
  index := some (.full [pastRecord "4e5f6071" "1970-01-01T00:00:00+00:00",
    pastRecord "5a6b7c8d" "yesterday"])

/-- More than ninety days after the epoch. -/
def laterMoment : Moment where
  now := 8000000
  ids := fun _ => ""
  store := some ∅

theorem past_retained :
    Completes (recordRun plainSurroundings epoch laterMoment firstCall.run) pastDisk
    fun d' result => result = "0a1b2c3d" ∧
      Retained plainSurroundings epoch laterMoment firstCall.run pastDisk d' :=
  run_retained plainSurroundings epoch laterMoment firstCall.run pastDisk rfl nofun (by decide)
    (by decide)

end Keepup.Activity
