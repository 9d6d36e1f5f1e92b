/-
MarkerBlock.Proofs.CommandLine.Reports — the reports a completed run was asked for.

A run that found files ends by writing its reports, and a report that can be written holds
then what this run has to tell and nothing else, with one entry for each file in the order
of paths.  For that the report need only be writable before the run: nothing a run does takes
a file or a directory away (`Completes.grown_batch`).  A run that found no files is done
before it comes to reports: a file that an earlier run left there stays.
-/
import Mathlib
import MarkerBlock.Proofs.CommandLine.Account
import MarkerBlock.Proofs.Selection.Order

namespace MarkerBlock

/-- Where arguments want a report in a format. -/
def Arguments.reportTarget (a : Arguments) : Report.Format → Option String
  | .json => a.reportJson
  | .csv => a.reportCsv

namespace Run

variable {a : Arguments} {s : Surroundings} {tree : FileTree} {ready : Ready}
  {found : Selection.Found}

/-! ## §1 One report -/

section report

variable (console : Console) (page : CodePage) (clock : Clock) (reports : List FileReport)
  (summary : Summary) (format : Report.Format)

/-- A report that can be written is written. -/
theorem writeReport_of_target {text : String} {place : Place} {before : List UInt8}
    (h : tree.target s.cwd (.ofString text) = .ok (place, before)) :
    (writeReport console s page clock reports summary format (some text) tree).1 =
      tree.set place (.file (Encoding.Utf8.encode
        (Report.render format page reports summary clock.now))) := by
  unfold writeReport
  simp only [Report.write, FileTree.write, h, Except.map]

/-- Writing a report changes its own file at most. -/
theorem writeReport_puts (target : Option String) :
    (writeReport console s page clock reports summary format target tree).1 = tree ∨
      ∃ text ∈ target, Job.Puts s tree (.ofString text)
        (writeReport console s page clock reports summary format target tree).1 := by
  cases target with
  | none => exact .inl rfl
  | some text =>
    cases htarget : tree.target s.cwd (.ofString text) with
    | error e =>
      left
      unfold writeReport
      simp only [Report.write, FileTree.write, htarget, Except.map]
    | ok pair =>
      obtain ⟨place, before⟩ := pair
      rw [writeReport_of_target console page clock reports summary format htarget]
      exact .inr ⟨text, rfl, place, before, _, htarget, rfl⟩

theorem grown_writeReport (target : Option String) (q : Place) :
    FileTree.Grown (tree.node? q)
      ((writeReport console s page clock reports summary format target tree).1.node? q) := by
  rcases writeReport_puts console page clock reports summary format target with hsame | ⟨_, -, hputs⟩
  · rw [hsame]
    exact .refl _
  · exact hputs.grown q

/-- A report that could be written before holds what is to be told. -/
theorem look?_writeReport {tree' : FileTree}
    (hgrown : ∀ q, FileTree.Grown (tree.node? q) (tree'.node? q)) {text : String} {place : Place}
    {before : List UInt8} (h : tree.target s.cwd (.ofString text) = .ok (place, before)) :
    (writeReport console s page clock reports summary format (some text) tree').1.look? s.cwd
        (.ofString text) =
      some (.file (Encoding.Utf8.encode (Report.render format page reports summary clock.now))) := by
  obtain ⟨octets, htarget⟩ := FileTree.target_of_grown hgrown h
  rw [writeReport_of_target console page clock reports summary format htarget]
  exact FileTree.look?_set_target htarget _

end report

/-! ## §2 All reports of a run -/

theorem grown_prepared {tree' : FileTree} (h : Prepared a s tree tree') (q : Place) :
    FileTree.Grown (tree.node? q) (tree'.node? q) := by
  rcases h with rfl | ⟨saved, -, hputs⟩
  · exact .refl _
  · exact hputs.grown q

/-- What a completed run leaves: what its batch leaves, and its reports. -/
theorem Completes.tree_eq (h : Completes a s tree ready found) (console : Console) (clock : Clock) :
    (run a console s clock tree).tree =
      if found.paths = [] then ready.tree
      else (conclude a console s clock ready
        (ready.job.run ready.page s ready.tree found.paths)).tree := by
  rw [h.run_eq console clock]
  split <;> rfl

theorem Completes.prepared_tree (h : Completes a s tree ready found) :
    Prepared a s tree ready.tree := by
  have hspec := prepare_spec a s tree
  rw [h.prepared] at hspec
  exact hspec.1

/-- The files there were are there when the batch is done. -/
theorem Completes.grown_batch (h : Completes a s tree ready found) (q : Place) :
    FileTree.Grown (tree.node? q)
      ((ready.job.run ready.page s ready.tree found.paths).tree.node? q) := by
  have hworked := Job.worked_run ready.job ready.page s ready.tree found.paths
  exact (grown_prepared h.prepared_tree q).trans (hworked.grown q)

/-- Both reports are written, that of values last. -/
theorem look?_conclude (console : Console) (clock : Clock) {batch : Job.Batch}
    (hgrown : ∀ q, FileTree.Grown (tree.node? q) (batch.tree.node? q)) {format : Report.Format}
    {text : String} {place : Place} {before : List UInt8} (hasked : a.reportTarget format = some text)
    (htarget : tree.target s.cwd (.ofString text) = .ok (place, before))
    (hother : format = .json → ∀ other ∈ a.reportCsv,
      tree.placeOf? s.cwd (.ofString other) ≠ some place) :
    (conclude a console s clock ready batch).tree.look? s.cwd (.ofString text) =
      some (.file (Encoding.Utf8.encode (Report.render format ready.page batch.reports
        (Summary.ofReports batch.reports clock.nanoseconds (some clock.timestamp)) clock.now))) := by
  let summary := Summary.ofReports batch.reports clock.nanoseconds (some clock.timestamp)
  let write := writeReport console s ready.page clock batch.reports summary
  have htree : (conclude a console s clock ready batch).tree =
      (write .csv a.reportCsv (write .json a.reportJson batch.tree).1).1 := rfl
  have hgrown' : ∀ q, FileTree.Grown (tree.node? q)
      ((write .json a.reportJson batch.tree).1.node? q) := fun q =>
    (hgrown q).trans (grown_writeReport console ready.page clock batch.reports summary .json _ q)
  rw [htree]
  cases format with
  | csv =>
    have hcsv : a.reportCsv = some text := hasked
    rw [hcsv]
    exact look?_writeReport console ready.page clock batch.reports summary .csv hgrown' htarget
  | json =>
    have hjson : a.reportJson = some text := hasked
    have hwritten := look?_writeReport console ready.page clock batch.reports summary .json hgrown
      htarget
    rw [hjson] at hgrown' ⊢
    rw [← hwritten]
    rcases writeReport_puts console ready.page clock batch.reports summary .csv a.reportCsv with
      hsame | ⟨other, hmem, hputs⟩
    · rw [hsame]
    · refine hputs.look? ?_
      intro there hthere
      rw [FileTree.placeOf?_of_grown hgrown'] at hthere ⊢
      rw [FileTree.placeOf?_of_target htarget]
      rintro ⟨⟩
      exact hother rfl other hmem hthere

/-- A completed run works on the files it collected in the order of paths and has one entry for
each.  If there are any, each report that was asked for and that can be written holds exactly
these entries and their counts, whatever it held before; two reports at one place are that of
comma-separated values.  If there are none, no report is written. -/
theorem Completes.reports_written (h : Completes a s tree ready found) (console : Console)
    (clock : Clock) :
    (found.paths.Pairwise fun p q => p.cmp q = .lt) ∧
    (ready.job.run ready.page s ready.tree found.paths).reports.map (·.path) =
      found.paths.map (Job.displayPath s) ∧
    (found.paths ≠ [] → ∀ (format : Report.Format) (text : String) (place : Place)
        (before : List UInt8), a.reportTarget format = some text →
      tree.target s.cwd (.ofString text) = .ok (place, before) →
      (format = .json → ∀ other ∈ a.reportCsv,
        tree.placeOf? s.cwd (.ofString other) ≠ some place) →
      (run a console s clock tree).tree.read s.cwd (.ofString text) =
        .ok (Encoding.Utf8.encode (Report.render format ready.page
          (ready.job.run ready.page s ready.tree found.paths).reports
          (Summary.ofReports (ready.job.run ready.page s ready.tree found.paths).reports
            clock.nanoseconds (some clock.timestamp)) clock.now))) ∧
    (found.paths = [] → ∀ q, ¬SavesAt a s tree q →
      (run a console s clock tree).tree.face? q = tree.face? q) := by
  have htree := h.tree_eq console clock
  refine ⟨Selection.pairwise_select h.selected, ?_, ?_, ?_⟩
  · exact Job.map_path_of_reports (Job.forall₂_reports h.unbroken)
  · intro hsome format text place before hasked htarget hother
    rw [htree, if_neg hsome, FileTree.read_eq_ok_iff_look?]
    exact look?_conclude console clock h.grown_batch hasked htarget hother
  · intro hnone q hq
    rw [htree, if_pos hnone]
    exact h.prepared_tree.face? hq

/-- The examination of the first file completes, quiet or not, whether or not it shows differences,
and whatever reports are asked for. -/
theorem checkFirst_completes (shown quiet : Bool) (json csv : Option String) :
    ∃ page found, found.paths = [.ofString "/a/x.cpp"] ∧
      Completes { checkFirst with showDiff := shown, quiet, reportJson := json, reportCsv := csv }
        Job.atRoot (brokenRules anchorOctets)
        ⟨brokenRules anchorOctets, page, checkFirstJob shown⟩ found := by
  obtain ⟨page, hprepare⟩ := checkFirst_prepare shown anchorOctets
  obtain ⟨found, hselect, hpaths⟩ := checkFirst_select anchorOctets
  obtain ⟨hunbroken, -⟩ := checkFirst_batch shown page
  refine ⟨page, found, hpaths, hprepare, hselect, ?_⟩
  rw [hpaths]
  exact hunbroken

/-- Examine the first of the two files, and report on it in both formats. -/
def reportFirst : Arguments :=
  { checkFirst with reportJson := some "/r.json", reportCsv := some "/r.csv" }

theorem reportFirst_completes :
    ∃ page found, found.paths ≠ [] ∧ Completes reportFirst Job.atRoot (brokenRules anchorOctets)
      ⟨brokenRules anchorOctets, page, checkFirstJob false⟩ found := by
  obtain ⟨page, found, hpaths, hcompletes⟩ :=
    checkFirst_completes false false (some "/r.json") (some "/r.csv")
  exact ⟨page, found, by simp [hpaths], hcompletes⟩

theorem Completes.reports_written_of_missing_block :
    ∃ ready found, Completes reportFirst Job.atRoot (brokenRules anchorOctets) ready found ∧
      (run reportFirst {} Job.atRoot {} (brokenRules anchorOctets)).tree.read []
          (.ofString "/r.json") =
        .ok (Encoding.Utf8.encode (Report.render .json ready.page
          (ready.job.run ready.page Job.atRoot ready.tree found.paths).reports
          (Summary.ofReports (ready.job.run ready.page Job.atRoot ready.tree found.paths).reports
            0 (some 0)) "")) := by
  obtain ⟨page, found, hsome, hcompletes⟩ := reportFirst_completes
  obtain ⟨-, -, hwritten, -⟩ := hcompletes.reports_written {} {}
  have htarget : (brokenRules anchorOctets).target [] (.ofString "/r.json") =
      .ok (["r.json".toList], []) := by cbv
  have hplace : (brokenRules anchorOctets).placeOf? [] (.ofString "/r.csv") =
      some ["r.csv".toList] := by cbv
  refine ⟨_, found, hcompletes, hwritten hsome .json "/r.json" _ _ rfl htarget ?_⟩
  rintro - other ⟨⟩ hsame
  exact absurd (hplace.symm.trans hsame) (by decide)

/-- An empty directory, and beside it a report of an earlier run. -/
def emptyDirectory : FileTree := ⟨[(['d'], .directory []), ("r.json".toList, .file [0x78])]⟩

/-- Examine the directory, and report on it. -/
def checkEmpty : Arguments :=
  { patterns := ["/d"], noConfig := true, reportJson := some "/r.json" }

theorem checkEmpty_completes :
    ∃ ready found, Completes checkEmpty Job.atRoot emptyDirectory ready found ∧
      found.paths = [] ∧ ready.tree = emptyDirectory := by
  obtain ⟨page, hpage⟩ := CodePage.ofLabel?_defaultLabel
  have hregister : (CodePage.register none (some ({} : Config).legacyCodePage)).1 = .ok page :=
    CodePage.register_first hpage
  have hsettings (workspace : Path) : settings checkEmpty Job.atRoot emptyDirectory workspace =
      (.ok {}, [.detail "Config file discovery disabled (--no-config)"]) := rfl
  have hprepare : ∃ ready, (prepare checkEmpty Job.atRoot emptyDirectory).1 = .ok ready ∧
      ready.tree = emptyDirectory := by
    unfold prepare
    simp only [hsettings, hregister]
    exact ⟨_, rfl, rfl⟩
  have hpaths : (Selection.select Job.atRoot emptyDirectory
      checkEmpty.patterns).toOption.map (·.paths) = some [] := by cbv
  obtain ⟨ready, hready, htree⟩ := hprepare
  cases hselect : Selection.select Job.atRoot emptyDirectory checkEmpty.patterns with
  | error e =>
    rw [hselect] at hpaths
    cases hpaths
  | ok found =>
    rw [hselect] at hpaths
    have hnone : found.paths = [] := Option.some.inj hpaths
    refine ⟨ready, found, ⟨hready, ?_, ?_⟩, hnone, htree⟩
    · rw [htree]
      exact hselect
    · rw [hnone]
      rfl

/-- Every report as a document begins with a brace. -/
theorem head?_render_json (page : CodePage) (reports : List FileReport) (summary : Summary)
    (now : String) :
    (Encoding.Utf8.encode (Report.render .json page reports summary now)).head? = some 0x7B := by
  have hrender : ∃ rest, Report.render .json page reports summary now = '\x7b' :: rest := ⟨_, rfl⟩
  obtain ⟨rest, hrest⟩ := hrender
  rw [hrest]
  rfl

/-- A run that finds no files completes, and leaves an old report where a new one was asked for. -/
theorem empty_run_keeps_report :
    ∃ ready found, Completes checkEmpty Job.atRoot emptyDirectory ready found ∧
      (∃ place before, emptyDirectory.target [] (.ofString "/r.json") = .ok (place, before)) ∧
      (run checkEmpty {} Job.atRoot {} emptyDirectory).exitCode = 0 ∧
      (run checkEmpty {} Job.atRoot {} emptyDirectory).tree.read [] (.ofString "/r.json") =
        .ok [0x78] ∧
      Encoding.Utf8.encode (Report.render .json ready.page
        (ready.job.run ready.page Job.atRoot ready.tree found.paths).reports
        (Summary.ofReports (ready.job.run ready.page Job.atRoot ready.tree found.paths).reports
          0 (some 0)) "") ≠ [0x78] := by
  obtain ⟨ready, found, hcompletes, hnone, htree⟩ := checkEmpty_completes
  refine ⟨ready, found, hcompletes, ⟨["r.json".toList], [0x78], by cbv⟩, ?_, ?_, ?_⟩
  · rw [(hcompletes.outcome {} {}).1, hnone]
    rfl
  · rw [hcompletes.tree_eq, if_pos hnone, htree]
    cbv
  · intro hsame
    have hhead := head?_render_json ready.page
      (ready.job.run ready.page Job.atRoot ready.tree found.paths).reports
      (Summary.ofReports (ready.job.run ready.page Job.atRoot ready.tree found.paths).reports
        0 (some 0)) ""
    rw [hsame] at hhead
    exact absurd hhead (by decide)

end Run

end MarkerBlock
