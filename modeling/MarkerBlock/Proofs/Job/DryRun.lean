/-
MarkerBlock.Proofs.Job.DryRun — a run that only examines predicts one that changes files.

The two runs go through the files side by side.  Both trees follow the first one,
although one run has written files and the other at most the file for differences, so
every file is skipped in both runs or in neither (`judge_verdict`), and what is planned
for it is the same (`step_predicts`).  `dry_run_predicts` puts the steps together.
-/
import Mathlib
import MarkerBlock.Proofs.Job.Batch

namespace MarkerBlock

/-- The report after a file that lacks the block got it. -/
def FileReport.carriedOut (r : FileReport) : FileReport :=
  if r.action = .missing then { r with action := .inserted } else r

namespace Job

variable {job : Job} {page : CodePage} {s : Surroundings} {T tree : FileTree} {path : Path}
  {paths rest : List Path} {lists : Lists}

/-! ## §1 What is decided -/

/-- The list for a directory does not depend on what a batch has done. -/
theorem listFor_follows (job : Job) (hsame : IgnoreList.SameIgnoreFiles s T tree) (lists : Lists)
    (d : Path) :
    (job.listFor s tree lists d).toOption.map (fun found => (found.1, found.2.1)) =
      (job.listFor s T lists d).toOption.map (fun found => (found.1, found.2.1)) := by
  have hload := IgnoreList.toOption_load hsame { globs := [] } d job.workspace
  unfold listFor
  simp only
  split
  · rfl
  · generalize IgnoreList.load s T { globs := [] } d job.workspace = first at hload
    generalize IgnoreList.load s tree { globs := [] } d job.workspace = now at hload
    obtain ⟨_ | list, remarks⟩ := first <;> obtain ⟨_ | list', remarks'⟩ := now <;> cases hload
    · rfl
    · rfl

/-- What is decided about a file does not depend on what a batch has done. -/
theorem judge_verdict (hfollows : Follows s T rest tree) {face : Face}
    (hlook : T.look? s.cwd path = some face) (lists : Lists) :
    verdict (job.judge s tree lists path) = verdict (job.judge s T lists path) := by
  obtain ⟨node, node', hfirst, hnow, halike⟩ := hfollows.statLink hlook
  unfold judge
  rw [hfirst, hnow]
  cases halike with
  | link target => rfl
  | _ =>
    simp only
    cases job.filter.judge (path.relativeTo job.workspace) with
    | some reason => rfl
    | none =>
      cases path.parent? with
      | none => rfl
      | some d =>
        have hlist := listFor_follows job hfollows.ignoreFiles lists d
        simp only
        generalize job.listFor s T lists d = first at hlist
        generalize job.listFor s tree lists d = now at hlist
        rcases first with e | ⟨list, lists', remarks⟩ <;>
          rcases now with e' | ⟨list', lists'', remarks'⟩ <;> cases hlist
        · rfl
        · simp only
          cases list.cause? path <;> rfl

/-! ## §2 One file -/

/-- The job that only examines, and otherwise does the same. -/
def examining (job : Job) : Job := { job with modifies := false }

/-- The job that changes files, and otherwise does the same. -/
def changing (job : Job) : Job := { job with modifies := true }

/-- The report of the job that changes files, from that of the job that examines. -/
theorem reportFor_changing (job : Job) (page : CodePage) (s : Surroundings) (path : Path)
    (e : Encoding) (octets : List UInt8) :
    job.changing.reportFor page s path e octets =
      (job.examining.reportFor page s path e octets).carriedOut := by
  have hchanging : job.changing.inserter = job.inserter := rfl
  have hexamining : job.examining.inserter = job.inserter := rfl
  unfold reportFor
  rw [hchanging, hexamining]
  rcases plan page job.inserter e octets with failure | (_ | i)
  · rfl
  · rfl
  · rfl

/-- What one file comes to in both runs. -/
theorem step_predicts (hdetector : job.detector.GoesByOctets) {dryTree wetTree : FileTree}
    (hdry : Follows s T (path :: rest) dryTree) (hwet : Follows s T (path :: rest) wetTree)
    (hfile : ∃ octets, T.look? s.cwd path = some (.file octets)) (page : CodePage) (lists : Lists) :
    (∃ e e', job.examining.step page s dryTree lists path = .error e ∧
      job.changing.step page s wetTree lists path = .error e') ∨
    ∃ dry wet, job.examining.step page s dryTree lists path = .ok dry ∧
      job.changing.step page s wetTree lists path = .ok wet ∧
      dry.lists = wet.lists ∧ wet.report = dry.report.carriedOut ∧
      (dry.tree = dryTree ∨ dry.tree = (job.examining.ensure page s dryTree path).2.tree) ∧
      (wet.tree = wetTree ∨ wet.tree = (job.changing.ensure page s wetTree path).2.tree) := by
  obtain ⟨octets, hlook⟩ := hfile
  have hdryStep := step_of_verdict job.examining page s dryTree lists path
  have hwetStep := step_of_verdict job.changing page s wetTree lists path
  rw [judge_verdict hdry hlook] at hdryStep
  rw [judge_verdict hwet hlook] at hwetStep
  have hsame : job.changing.judge s T lists path = job.examining.judge s T lists path := rfl
  rw [hsame] at hwetStep
  generalize verdict (job.examining.judge s T lists path) = v at hdryStep hwetStep
  rcases v with _ | ⟨_ | reason, lists'⟩
  · obtain ⟨e, he⟩ := hdryStep
    obtain ⟨e', he'⟩ := hwetStep
    exact .inl ⟨e, e', he, he'⟩
  · obtain ⟨remarks, hdone⟩ := hdryStep
    obtain ⟨remarks', hdone'⟩ := hwetStep
    refine .inr ⟨_, _, hdone, hdone', rfl, ?_, .inr rfl, .inr rfl⟩
    have hdryLook := (hdry.files path List.mem_cons_self).trans hlook
    have hwetLook := (hwet.files path List.mem_cons_self).trans hlook
    have hfound : job.changing.found page s wetTree path = job.examining.found page s dryTree path :=
      found_eq hdetector hwetLook hdryLook page
    obtain ⟨henc, hresult⟩ := ensure_of_look? job.examining hdryLook page
    obtain ⟨henc', hresult'⟩ := ensure_of_look? job.changing hwetLook page
    simp only [henc, hresult, henc', hresult', hfound]
    exact reportFor_changing job page s path _ octets
  · obtain ⟨remarks, hdone⟩ := hdryStep
    obtain ⟨remarks', hdone'⟩ := hwetStep
    exact .inr ⟨_, _, hdone, hdone', rfl, rfl, .inl rfl, .inl rfl⟩

/-! ## §3 The two runs -/

/-- The file for differences is none of the files of a batch, and not an ignore file. -/
def KeepsDiffsApart (job : Job) (s : Surroundings) (T : FileTree) (paths : List Path) : Prop :=
  ∀ saved ∈ job.diffs.saved, ∀ q, T.placeOf? s.cwd saved = some q →
    ¬IsIgnoreFile s T q ∧ ∀ path ∈ paths, T.placeOf? s.cwd path ≠ some q

/-- `wet` did what `dry` foretold. -/
structure Foretells (dry wet : Batch) : Prop where
  error : wet.error.isSome = dry.error.isSome
  reports : wet.reports = dry.reports.map FileReport.carriedOut

theorem KeepsDiffsApart.follows (h : job.KeepsDiffsApart s T paths) (hfollows : Follows s T paths tree)
    (page : CodePage) (path : Path) :
    Follows s T paths (job.examining.ensure page s tree path).2.tree :=
  have htouched : job.examining.touched? path = job.diffs.saved := rfl
  hfollows.ensure (fun saved hsaved q hq => (h saved (htouched ▸ hsaved) q hq).1)
    (fun saved hsaved q hq => (h saved (htouched ▸ hsaved) q hq).2) page

/-- From trees on the way of both runs, one foretells the other, and leaves the files as they
were. -/
theorem runFrom_foretells (hdetector : job.detector.GoesByOctets) (hfiles : AreFiles s T rest)
    (hrest : rest ⊆ paths) (hdiffs : job.KeepsDiffsApart s T paths) {dryTree wetTree : FileTree}
    (hdry : Follows s T paths dryTree) (hwet : Follows s T rest wetTree)
    (page : CodePage) (lists : Lists) :
    Foretells (job.examining.runFrom page s dryTree lists rest)
      (job.changing.runFrom page s wetTree lists rest) ∧
      Follows s T paths (job.examining.runFrom page s dryTree lists rest).tree := by
  induction rest generalizing dryTree wetTree lists with
  | nil => exact ⟨⟨rfl, rfl⟩, hdry⟩
  | cons path rest ih =>
    unfold runFrom
    rcases step_predicts hdetector (hdry.mono hrest) hwet (hfiles.files path List.mem_cons_self) page
        lists with
      ⟨e, e', he, he'⟩ | ⟨dry, wet, hdone, hdone', hlists, hreport, hdryTree, hwetTree⟩
    · rw [he, he']
      exact ⟨⟨rfl, rfl⟩, hdry⟩
    · have hdryNext : Follows s T paths dry.tree := by
        rcases hdryTree with h | h
        · rwa [h]
        · rw [h]
          exact hdiffs.follows hdry page path
      have hwetNext : Follows s T rest wet.tree := by
        rcases hwetTree with h | h
        · rw [h]
          exact hwet.mono (List.subset_cons_self path rest)
        · rw [h]
          have htouched : job.changing.touched? path = some path := rfl
          exact hfiles.follows hwet (fun p hp => (Option.some.inj (htouched ▸ hp)).symm) page
      obtain ⟨hforetells, hafter⟩ :=
        ih hfiles.tail (List.cons_subset.mp hrest).2 hdryNext hwetNext dry.lists
      rw [hlists] at hforetells hafter
      simp only [hdone, hdone', hlists]
      refine ⟨⟨hforetells.error, ?_⟩, hafter⟩
      simp only [List.map_cons, hreport, hforetells.reports]

/-- A run that only examines foretells the run that changes files, where the encoding of a file is
told from its octets: both end early or neither does, and the second reports what the first
reports, with the block inserted where it was missing.  The first leaves the files as they were. -/
theorem dry_run_predicts (hdetector : job.detector.GoesByOctets) (hfiles : AreFiles s tree paths)
    (hdiffs : job.KeepsDiffsApart s tree paths) (page : CodePage) :
    Foretells (job.examining.run page s tree paths) (job.changing.run page s tree paths) ∧
      ∀ path ∈ paths, (job.examining.run page s tree paths).tree.read s.cwd path =
        tree.read s.cwd path := by
  obtain ⟨hforetells, hafter⟩ := runFrom_foretells hdetector hfiles (List.Subset.refl paths) hdiffs
    (Follows.refl s tree paths) (Follows.refl s tree paths) page []
  have hread : ∀ path ∈ paths,
      (job.examining.runFrom page s tree [] paths).tree.read s.cwd path = tree.read s.cwd path := by
    intro path hpath
    obtain ⟨octets, hlook⟩ := hfiles.files path hpath
    have hlook' := (hafter.files path hpath).trans hlook
    rw [FileTree.read_eq_ok_iff_look?.mpr hlook, FileTree.read_eq_ok_iff_look?.mpr hlook']
  unfold run
  split
  · exact ⟨⟨rfl, rfl⟩, fun _ _ => rfl⟩
  · exact ⟨⟨hforetells.error, hforetells.reports⟩, hread⟩

/-- A job that keeps differences in a file of its own. -/
def apartJob : Job := { braceJob with diffs := { saved := some ⟨['/', 'd']⟩ } }

/-- Where differences have a file of their own, one run foretells the other. -/
theorem dry_run_predicts_of_apart :
    apartJob.detector.GoesByOctets ∧ AreFiles atRoot (twoDirectories []) twoFiles ∧
    apartJob.KeepsDiffsApart atRoot (twoDirectories []) twoFiles ∧
    Foretells (apartJob.examining.run .windows1252 atRoot (twoDirectories []) twoFiles)
      (apartJob.changing.run .windows1252 atRoot (twoDirectories []) twoFiles) ∧
    ∀ path ∈ twoFiles,
      (apartJob.examining.run .windows1252 atRoot (twoDirectories []) twoFiles).tree.read atRoot.cwd path =
        (twoDirectories []).read atRoot.cwd path := by
  have hfiles := twoFiles_areFiles []
  have hplace : (twoDirectories []).placeOf? atRoot.cwd ⟨['/', 'd']⟩ = some [['d']] := by cbv
  have hdiffs : apartJob.KeepsDiffsApart atRoot (twoDirectories []) twoFiles := by
    rintro saved ⟨⟩ q hq
    refine ⟨not_isIgnoreFile_of_linkless rfl rfl hplace (by decide) q hq, fun path hpath hthere => ?_⟩
    have hmem := List.mem_map_of_mem (f := (twoDirectories []).placeOf? atRoot.cwd) hpath
    rw [hthere, ← hq, hplace, twoFiles_places] at hmem
    revert hmem
    decide
  have hdetector : apartJob.detector.GoesByOctets := Detector.goesByOctets_fixed .ascii
  exact ⟨hdetector, hfiles, hdiffs, dry_run_predicts hdetector hfiles hdiffs .windows1252⟩

/-- If the file for differences is an ignore file, the run that only examines ends at the
second directory, and the run that changes files does not. -/
theorem diffsJob_ends (page : CodePage) :
    (diffsJob.examining.run page atRoot (twoDirectories []) twoFiles).error ≠ none ∧
      (diffsJob.changing.run page atRoot (twoDirectories []) twoFiles).error = none := by
  have hload := firstDirectory_load []
  have hnew : [(Path.components ⟨['/', 'a']⟩, listOf ⟨['/']⟩ [])].find?
      (fun entry => entry.1 == Path.components ⟨['/', 'b']⟩) = none :=
    List.find?_eq_none.mpr (by simp; decide)
  constructor
  · have hx : diffsJob.examining.IsRegular atRoot (twoDirectories []) ⟨['/', 'a', '/', 'x']⟩
        ⟨['/', 'a']⟩ [0x61] := firstFile_isRegular rfl []
    have hy : diffsJob.examining.IsRegular atRoot
        (diffsJob.examining.ensure page atRoot (twoDirectories []) ⟨['/', 'a', '/', 'x']⟩).2.tree
        ⟨['/', 'b', '/', 'y']⟩ ⟨['/', 'b']⟩ [0x61] := ⟨by cbv, by cbv, rfl, by decide⟩
    obtain ⟨e, hbroken⟩ := exists_error_of_toOption (r := (IgnoreList.load atRoot
        (diffsJob.examining.ensure page atRoot (twoDirectories []) ⟨['/', 'a', '/', 'x']⟩).2.tree
        { globs := [] } ⟨['/', 'b']⟩ diffsJob.workspace).1) (by cbv)
    obtain ⟨said, hlist⟩ := listFor_of_load diffsJob.examining List.find?_nil hload
    obtain ⟨remarks, hstep⟩ := hx.step_eq hlist (IgnoreList.cause?_of_no_rules _ _) page
    obtain ⟨said', hlist'⟩ := listFor_of_error diffsJob.examining hnew hbroken
    obtain ⟨e', hstep'⟩ := hy.step_error hlist' page
    simp only [twoFiles, run, runFrom, hstep, hstep']
    exact Option.some_ne_none _
  · have hx : diffsJob.changing.IsRegular atRoot (twoDirectories []) ⟨['/', 'a', '/', 'x']⟩
        ⟨['/', 'a']⟩ [0x61] := firstFile_isRegular rfl []
    have hy : diffsJob.changing.IsRegular atRoot
        (diffsJob.changing.ensure page atRoot (twoDirectories []) ⟨['/', 'a', '/', 'x']⟩).2.tree
        ⟨['/', 'b', '/', 'y']⟩ ⟨['/', 'b']⟩ [0x61] := ⟨by cbv, by cbv, rfl, by decide⟩
    have hload' : (IgnoreList.load atRoot
        (diffsJob.changing.ensure page atRoot (twoDirectories []) ⟨['/', 'a', '/', 'x']⟩).2.tree
        { globs := [] } ⟨['/', 'b']⟩ diffsJob.workspace).1 = .ok (listOf ⟨['/']⟩ []) := by cbv
    obtain ⟨said, hlist⟩ := listFor_of_load diffsJob.changing List.find?_nil hload
    obtain ⟨remarks, hstep⟩ := hx.step_eq hlist (IgnoreList.cause?_of_no_rules _ _) page
    obtain ⟨said', hlist'⟩ := listFor_of_load diffsJob.changing hnew hload'
    obtain ⟨remarks', hstep'⟩ := hy.step_eq hlist' (IgnoreList.cause?_of_no_rules _ _) page
    simp only [twoFiles, run, runFrom, hstep, hstep']
    rfl

/-- It is not enough that the file for differences is none of the files. -/
theorem dry_run_mispredicts :
    ¬∀ (job : Job) (page : CodePage) (s : Surroundings) (tree : FileTree) (paths : List Path),
      job.detector.GoesByOctets → AreFiles s tree paths →
      (∀ saved ∈ job.diffs.saved, ∀ path ∈ paths,
        tree.placeOf? s.cwd path ≠ tree.placeOf? s.cwd saved) →
      Foretells (job.examining.run page s tree paths) (job.changing.run page s tree paths) ∧
        ∀ path ∈ paths, (job.examining.run page s tree paths).tree.read s.cwd path =
          tree.read s.cwd path := by
  intro hall
  have hplace : (twoDirectories []).placeOf? atRoot.cwd diffsFile =
      some [['b'], IgnoreList.fileName.toList] := by cbv
  have hapart : ∀ saved ∈ diffsJob.diffs.saved, ∀ path ∈ twoFiles,
      (twoDirectories []).placeOf? atRoot.cwd path ≠ (twoDirectories []).placeOf? atRoot.cwd saved := by
    rintro saved ⟨⟩ path hpath hsame
    have hmem := List.mem_map_of_mem (f := (twoDirectories []).placeOf? atRoot.cwd) hpath
    rw [hsame, hplace, twoFiles_places] at hmem
    revert hmem
    decide
  obtain ⟨hforetells, -⟩ := hall diffsJob .windows1252 atRoot (twoDirectories []) twoFiles
    (Detector.goesByOctets_fixed .ascii) (twoFiles_areFiles []) hapart
  obtain ⟨hdry, hwet⟩ := diffsJob_ends .windows1252
  have herror := hforetells.error
  rw [hwet, Option.isSome_none] at herror
  exact hdry (Option.isNone_iff_eq_none.mp (Option.isSome_eq_false_iff.mp herror.symm))

end Job

end MarkerBlock
