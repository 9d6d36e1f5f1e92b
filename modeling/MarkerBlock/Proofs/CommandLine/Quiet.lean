/-
MarkerBlock.Proofs.CommandLine.Quiet — what a quiet run prints.

A quiet console has nothing to say on the output stream but the bare paths of files that lack the
block (`account_quiet`); what else it shows goes to the error stream.  So the output of a completed
quiet run is the list of the files to be worked on, each on a line of its own and all of them, or
nothing if the run changes the files itself (`quiet_output`).  Failures, differences and reports
that cannot be written are told on the error stream.
-/
import Mathlib
import MarkerBlock.Proofs.CommandLine.Reports
import MarkerBlock.Proofs.Job.Differences

namespace MarkerBlock

/-! ## §1 Streams -/

/-- Every line is for the error stream. -/
def Line.AreErrors (lines : List Line) : Prop := ∀ line ∈ lines, line.stream = .err

namespace Line

theorem AreErrors.append {a b : List Line} (ha : AreErrors a) (hb : AreErrors b) :
    AreErrors (a ++ b) := fun line hline => (List.mem_append.mp hline).elim (ha line) (hb line)

theorem AreErrors.nil : AreErrors [] := fun _ hline => absurd hline List.not_mem_nil

theorem areErrors_complain (texts : List String) : AreErrors (Console.complain texts) := by
  intro line hline
  obtain ⟨text, -, rfl⟩ := List.mem_map.mp hline
  rfl

theorem areErrors_remark (console : Console) (r : Remark) : AreErrors (console.remark r) := by
  unfold Console.remark
  split
  · split
    · exact areErrors_complain _
    · exact .nil
  · split
    · exact areErrors_complain _
    · exact .nil
  · split <;> exact areErrors_complain _

theorem areErrors_remarks (console : Console) (rs : List Remark) :
    AreErrors (console.remarks rs) := by
  intro line hline
  obtain ⟨r, -, hr⟩ := List.mem_flatMap.mp hline
  exact areErrors_remark console r line hr

theorem areErrors_failed (console : Console) (reports : List FileReport) :
    AreErrors (console.failed reports) := by
  unfold Console.failed
  split
  · exact .nil
  · exact areErrors_complain _

theorem AreErrors.filter {errors : List Line} (h : AreErrors errors) :
    errors.filter (·.stream == .out) = [] := by
  rw [List.filter_eq_nil_iff]
  intro line hline
  rw [h line hline]
  decide

/-- Between lines for the error stream, texts for the other are what it shows. -/
theorem collect_out_between {before after : List Line} (hbefore : AreErrors before)
    (hafter : AreErrors after) (texts : List String) :
    collect .out (before ++ texts.map (⟨.out, ·⟩) ++ after) =
      String.join (texts.map (· ++ "\n")) := by
  have htexts : (texts.map (Line.mk .out)).filter (·.stream == .out) = texts.map (Line.mk .out) := by
    rw [List.filter_eq_self]
    intro line hline
    obtain ⟨text, -, rfl⟩ := List.mem_map.mp hline
    rfl
  rw [collect, List.filter_append, List.filter_append, hbefore.filter, hafter.filter, htexts,
    List.nil_append, List.append_nil, List.map_map]
  rfl

end Line

/-- Lines of the error stream that show a text line by line, each perhaps in a style. -/
def Line.AreShown (text : List Char) (block : List Line) : Prop :=
  List.Forall₂ (fun line shown => shown.stream = .err ∧ (shown.text = String.ofList line ∨
    ∃ style : Style, shown.text = style.apply (String.ofList line))) (Text.lines text) block

/-! ## §2 Consoles -/

namespace Console

/-- A line of a difference is shown on the error stream, perhaps in a style. -/
theorem exists_remark_diffLine (console : Console) (text : String) :
    ∃ shown, console.remark (.diffLine text) = [⟨.err, shown⟩] ∧
      (shown = text ∨ ∃ style : Style, shown = style.apply text) := by
  unfold remark
  simp only
  split
  · next style _ =>
    refine ⟨_, rfl, ?_⟩
    unfold styled
    simp only
    split
    · exact .inr ⟨style, rfl⟩
    · exact .inl rfl
  · exact ⟨text, rfl, .inl rfl⟩

/-- A difference is shown line by line. -/
theorem areShown_remarks (console : Console) {o : Diff.Output} (hshown : o.shown = true)
    (text : List Char) : Line.AreShown text (console.remarks (o.remarks text)) := by
  unfold Line.AreShown Diff.Output.remarks
  rw [if_pos hshown]
  induction Text.lines text with
  | nil => exact .nil
  | cons line rest ih =>
    obtain ⟨shown, hremark, hstyle⟩ := console.exists_remark_diffLine (String.ofList line)
    rw [List.map_cons, remarks, List.flatMap_cons, hremark]
    exact .cons ⟨rfl, hstyle⟩ ih

theorem failure_mem_failed (console : Console) {reports : List FileReport} {r : FileReport}
    (h : r ∈ reports) : ⟨.err, failure r⟩ ∈ console.failed reports := by
  unfold failed
  rw [if_neg (by simpa using List.ne_nil_of_mem h)]
  exact List.mem_map.mpr ⟨_, List.mem_cons_of_mem _ (List.mem_map_of_mem h), rfl⟩

variable {console : Console} (hquiet : console.mode = .quiet)
include hquiet

theorem say_quiet (texts : List String) : console.say texts = [] := if_pos hquiet

/-- A quiet console shows the paths of all files that lack the block. -/
theorem missing_quiet (reports : List FileReport) (marker : String) :
    console.missing reports marker = reports.map fun r => ⟨.out, toString r.path⟩ := by
  rw [missing, hquiet]
  cases reports <;> rfl

theorem inserted_quiet (reports : List FileReport) (marker : String) :
    console.inserted reports marker = [] := by
  unfold inserted
  split
  · rfl
  · exact say_quiet hquiet _

end Console

namespace Arguments

/-- Arguments that ask for quiet do not ask for more at the same time. -/
theorem mode_of_quiet {arguments : List String} {a : Arguments} (h : parse arguments = .ok a)
    (hquiet : a.quiet = true) (terminalOut terminalErr : Bool) :
    (a.console terminalOut terminalErr).mode = .quiet := by
  have hchecked : ∃ settled : Arguments, settled.check = .ok a := by
    rw [parse] at h
    split at h
    · cases h
    · split at h
      · cases h
      · exact ⟨_, h⟩
  obtain ⟨settled, hcheck⟩ := hchecked
  rw [check] at hcheck
  split_ifs at hcheck with hconflict
  cases hcheck
  have hverbosity : a.verbosity = 0 := by
    rw [Bool.or_eq_true, not_or, hquiet, Bool.true_and, bne_iff_ne, not_not] at hconflict
    exact hconflict.1
  simp [console, hverbosity, hquiet]

end Arguments

namespace Run

variable {a : Arguments} {s : Surroundings} {tree : FileTree} {ready : Ready}
  {found : Selection.Found} {console : Console}

/-- What is told of a report that could not be written. -/
def reportFailure (format : Report.Format) (e : Report.WriteError) : String :=
  let causes := ": ".intercalate e.chain
  s!"Error generating {format.name} report: {causes}"

/-- The files when a report is about to be written: that of values is written last. -/
def treeBefore (a : Arguments) (console : Console) (s : Surroundings) (clock : Clock) (ready : Ready)
    (batch : Job.Batch) : Report.Format → FileTree
  | .json => batch.tree
  | .csv =>
    (writeReport console s ready.page clock batch.reports
      (Summary.ofReports batch.reports clock.nanoseconds (some clock.timestamp)) .json a.reportJson
      batch.tree).1

/-- What is told of a report. -/
def reportLines (a : Arguments) (console : Console) (s : Surroundings) (clock : Clock)
    (ready : Ready) (batch : Job.Batch) (format : Report.Format) : List Line :=
  (writeReport console s ready.page clock batch.reports
    (Summary.ofReports batch.reports clock.nanoseconds (some clock.timestamp)) format
    (a.reportTarget format) (treeBefore a console s clock ready batch format)).2

/-- What is told of files that failed and of reports that could not be written. -/
def troubles (a : Arguments) (console : Console) (s : Surroundings) (clock : Clock) (ready : Ready)
    (found : Selection.Found) : List Line :=
  if found.paths = [] then []
  else
    let batch := ready.job.run ready.page s ready.tree found.paths
    console.failed (Categories.ofReports batch.reports).failed ++
      (reportLines a console s clock ready batch .json ++
        reportLines a console s clock ready batch .csv)

section quiet

variable (hquiet : console.mode = .quiet)
include hquiet

/-- The account a quiet run gives. -/
theorem account_quiet (ready : Ready) (batch : Job.Batch) (summary : Summary) :
    account console ready batch summary =
      (if ready.job.modifies then []
        else (Categories.ofReports batch.reports).missing.map fun r => toString r.path).map
          (⟨.out, ·⟩) ++
        console.failed (Categories.ofReports batch.reports).failed := by
  have hsay := Console.say_quiet hquiet
  unfold account
  cases ready.job.modifies <;>
    simp [Console.blank, Console.details, Console.allPresent, Console.note, Console.summary, hsay,
      Console.missing_quiet hquiet, Console.inserted_quiet hquiet, hquiet]

theorem said_quiet : Line.AreErrors (said a console s tree ready found) := by
  have hsay := Console.say_quiet hquiet
  unfold said
  simp only [Console.started, Console.blank, Console.allPresent, hsay, List.append_nil]
  refine (Line.areErrors_remarks _ _).append ((Line.areErrors_remarks _ _).append ?_)
  split
  · exact .nil
  · exact Line.areErrors_remarks _ _

theorem writeReport_quiet (page : CodePage) (clock : Clock) (reports : List FileReport)
    (summary : Summary) (format : Report.Format) (target : Option String) :
    Line.AreErrors (writeReport console s page clock reports summary format target tree).2 := by
  unfold writeReport
  split
  · exact .nil
  · simp only
    split
    · rw [Console.note, Console.say_quiet hquiet]
      exact .nil
    · exact Line.areErrors_complain _

theorem troubles_quiet (clock : Clock) :
    Line.AreErrors (troubles a console s clock ready found) := by
  unfold troubles
  split
  · exact .nil
  · refine (Line.areErrors_failed console _).append (.append ?_ ?_) <;>
      exact writeReport_quiet hquiet _ _ _ _ _ _

/-- What a completed quiet run says: the paths of files that lack the block, unless it changes files,
between what it says before its account and what went wrong. -/
theorem Completes.lines_quiet (h : Completes a s tree ready found) (clock : Clock) :
    (run a console s clock tree).lines =
      said a console s tree ready found ++
        (if ready.job.modifies then []
          else (Categories.ofReports (ready.job.run ready.page s ready.tree
            found.paths).reports).missing.map fun r => toString r.path).map (⟨.out, ·⟩) ++
        troubles a console s clock ready found := by
  rw [h.run_eq console clock, troubles]
  by_cases hpaths : found.paths = []
  · have hreports : (ready.job.run ready.page s ready.tree found.paths).reports = [] := by
      rw [hpaths]
      rfl
    rw [if_pos hpaths, if_pos hpaths, hreports]
    cases ready.job.modifies <;> simp [Categories.ofReports]
  · rw [if_neg hpaths, if_neg hpaths]
    have hlines (batch : Job.Batch) : (conclude a console s clock ready batch).lines =
        account console ready batch
            (Summary.ofReports batch.reports clock.nanoseconds (some clock.timestamp)) ++
          reportLines a console s clock ready batch .json ++
          reportLines a console s clock ready batch .csv := rfl
    simp only [hlines, account_quiet hquiet, List.append_assoc]

theorem Completes.collect_out_quiet (h : Completes a s tree ready found) (clock : Clock) :
    Line.collect .out (run a console s clock tree).lines =
      if ready.job.modifies then ""
      else String.join (((ready.job.run ready.page s ready.tree found.paths).reports.filter
        (·.action == .missing)).map fun r => toString r.path ++ "\n") := by
  rw [h.lines_quiet hquiet clock,
    Line.collect_out_between (said_quiet hquiet) (troubles_quiet hquiet clock)]
  cases ready.job.modifies
  · rw [if_neg Bool.false_ne_true, if_neg Bool.false_ne_true, List.map_map]
    rfl
  · rfl

theorem Completes.said_infix_quiet (h : Completes a s tree ready found) (clock : Clock) :
    said a console s tree ready found <:+: (run a console s clock tree).lines := by
  rw [h.lines_quiet hquiet clock, List.append_assoc]
  exact (List.prefix_append _ _).isInfix

theorem Completes.mem_lines_quiet (h : Completes a s tree ready found) (clock : Clock) {line : Line}
    (hline : line ∈ said a console s tree ready found ∨
      line ∈ troubles a console s clock ready found) :
    line ∈ (run a console s clock tree).lines := by
  rcases hline with hline | hline
  · exact (h.said_infix_quiet hquiet clock).subset hline
  · rw [h.lines_quiet hquiet clock]
    exact List.mem_append_right _ hline

end quiet

/-- What is said in a batch is told before the account of it. -/
theorem infix_said {remarks : List Remark} (hpaths : found.paths ≠ [])
    (h : remarks <:+: (ready.job.run ready.page s ready.tree found.paths).remarks) :
    console.remarks remarks <:+: said a console s tree ready found := by
  rw [said, if_neg hpaths]
  refine (h.flatMap console.remark).trans ?_
  exact ((List.suffix_append _ _).trans (List.suffix_append _ _)).isInfix

/-- A difference that is shown is told, perhaps in a style. -/
theorem diffLine_mem_said {text : String}
    (h : .diffLine text ∈ (ready.job.run ready.page s ready.tree found.paths).remarks) :
    ∃ shown, ⟨.err, shown⟩ ∈ said a console s tree ready found ∧
      (shown = text ∨ ∃ style : Style, shown = style.apply text) := by
  have hpaths : found.paths ≠ [] := by
    intro hpaths
    rw [hpaths] at h
    cases List.mem_singleton.mp h
  obtain ⟨shown, hremark, hshown⟩ := console.exists_remark_diffLine text
  have htold : console.remarks [.diffLine text] <:+: said a console s tree ready found :=
    infix_said hpaths ((List.singleton_infix_iff _ _).mpr h)
  refine ⟨shown, htold.subset ?_, hshown⟩
  rw [Console.remarks, List.flatMap_singleton, hremark]
  exact List.mem_singleton_self _

theorem failure_mem_troubles {r : FileReport} (clock : Clock)
    (h : r ∈ (ready.job.run ready.page s ready.tree found.paths).reports)
    (hfailed : r.action = .failed) :
    ⟨.err, Console.failure r⟩ ∈ troubles a console s clock ready found := by
  have hpaths : found.paths ≠ [] := by
    intro hpaths
    rw [hpaths] at h
    cases h
  have hmem : r ∈ (Categories.ofReports
      (ready.job.run ready.page s ready.tree found.paths).reports).failed :=
    List.mem_filter.mpr ⟨h, by rw [hfailed]; rfl⟩
  rw [troubles, if_neg hpaths]
  exact List.mem_append_left _ (console.failure_mem_failed hmem)

/-- The error with which a report cannot be written, if it cannot. -/
def reportError? (a : Arguments) (console : Console) (s : Surroundings) (clock : Clock)
    (ready : Ready) (batch : Job.Batch) (format : Report.Format) : Option Report.WriteError :=
  (a.reportTarget format).bind fun text =>
    match Report.write (treeBefore a console s clock ready batch format) s.cwd (.ofString text)
        (Report.render format ready.page batch.reports
          (Summary.ofReports batch.reports clock.nanoseconds (some clock.timestamp)) clock.now) with
    | .ok _ => none
    | .error e => some e

theorem reportError?_eq_some {clock : Clock} {batch : Job.Batch} {format : Report.Format}
    {e : Report.WriteError} (h : reportError? a console s clock ready batch format = some e) :
    ∃ text, a.reportTarget format = some text ∧
      Report.write (treeBefore a console s clock ready batch format) s.cwd (.ofString text)
        (Report.render format ready.page batch.reports
          (Summary.ofReports batch.reports clock.nanoseconds (some clock.timestamp)) clock.now) =
        .error e := by
  obtain ⟨text, hasked, hwrite⟩ := Option.bind_eq_some_iff.mp h
  refine ⟨text, hasked, ?_⟩
  cases hresult : Report.write (treeBefore a console s clock ready batch format) s.cwd (.ofString text)
      (Report.render format ready.page batch.reports
        (Summary.ofReports batch.reports clock.nanoseconds (some clock.timestamp)) clock.now) with
  | ok _ =>
    rw [hresult] at hwrite
    cases hwrite
  | error e' =>
    rw [hresult] at hwrite
    cases hwrite
    rfl

/-- A report that cannot be written is told. -/
theorem writeReport_of_error {page : CodePage} {clock : Clock} {reports : List FileReport}
    {summary : Summary} {format : Report.Format} {text : String} {e : Report.WriteError}
    (h : Report.write tree s.cwd (.ofString text)
      (Report.render format page reports summary clock.now) = .error e) :
    (writeReport console s page clock reports summary format (some text) tree).2 =
      [⟨.err, reportFailure format e⟩] := by
  simp only [writeReport, h]
  rfl

theorem reportFailure_mem_troubles {clock : Clock} {format : Report.Format} {e : Report.WriteError}
    (hpaths : found.paths ≠ [])
    (h : reportError? a console s clock ready
      (ready.job.run ready.page s ready.tree found.paths) format = some e) :
    ⟨.err, reportFailure format e⟩ ∈ troubles a console s clock ready found := by
  obtain ⟨text, hasked, hwrite⟩ := reportError?_eq_some h
  have hmem : ⟨.err, reportFailure format e⟩ ∈ reportLines a console s clock ready
      (ready.job.run ready.page s ready.tree found.paths) format := by
    rw [reportLines, hasked, writeReport_of_error hwrite]
    exact List.mem_singleton_self _
  rw [troubles, if_neg hpaths]
  refine List.mem_append_right _ ?_
  cases format with
  | json => exact List.mem_append_left _ hmem
  | csv => exact List.mem_append_right _ hmem

/-- The output of a quiet run that completes is the list of the files that lack the block, in the
order in which they were examined, each on a line of its own; it is empty if the run changes files.
What failed, the differences and the reports that could not be written are told on the error
stream: if differences are to be shown, then that of every file that lacks the block is, all of it
and line by line. -/
theorem quiet_output {arguments : List String} (hparse : Arguments.parse arguments = .ok a)
    (hquiet : a.quiet = true) (h : Completes a s tree ready found) (terminalOut terminalErr : Bool)
    (clock : Clock) :
    let console := a.console terminalOut terminalErr
    let batch := ready.job.run ready.page s ready.tree found.paths
    let lines := (run a console s clock tree).lines
    batch.reports.map (·.path) = found.paths.map (Job.displayPath s) ∧
    Line.collect .out lines =
      (if a.modifies then ""
        else String.join ((batch.reports.filter (·.action == .missing)).map fun r =>
          toString r.path ++ "\n")) ∧
    (∀ r ∈ batch.reports, r.action = .failed → ⟨.err, Console.failure r⟩ ∈ lines) ∧
    (∀ text, .diffLine text ∈ batch.remarks → ∃ shown, ⟨.err, shown⟩ ∈ lines ∧
      (shown = text ∨ ∃ style : Style, shown = style.apply text)) ∧
    (a.showDiff = true → ∀ r ∈ batch.reports, r.action = .missing →
      ∃ path ∈ found.paths, ∃ now, Job.Worked ready.job ready.page s found.paths ready.tree now ∧
        ∃ octets before after text,
          ready.job.IsDifference ready.page s now path r octets before after text ∧
          ∃ block, block <:+: lines ∧ Line.AreShown text block) ∧
    (found.paths ≠ [] → ∀ format e, reportError? a console s clock ready batch format = some e →
      ⟨.err, reportFailure format e⟩ ∈ lines) := by
  intro console batch lines
  have hmode : console.mode = .quiet :=
    Arguments.mode_of_quiet hparse hquiet terminalOut terminalErr
  obtain ⟨-, hmodifies, hdiffs⟩ : Prepared a s tree ready.tree ∧ ready.job.modifies = a.modifies ∧
      ready.job.diffs = a.diffs := by
    have hspec := prepare_spec a s tree
    rwa [h.prepared] at hspec
  refine ⟨Job.map_path_of_reports (Job.forall₂_reports h.unbroken), ?_, ?_, ?_, ?_, ?_⟩
  · rw [← hmodifies]
    exact h.collect_out_quiet hmode clock
  · intro r hr hfailed
    exact h.mem_lines_quiet hmode clock (.inr (failure_mem_troubles clock hr hfailed))
  · intro text htext
    obtain ⟨shown, hmem, hshown⟩ := @diffLine_mem_said a s tree ready found console text htext
    exact ⟨shown, h.mem_lines_quiet hmode clock (.inl hmem), hshown⟩
  · intro hasked r hr hmissing
    obtain ⟨path, hpath, now, hworked, octets, before, after, text, hdifference, hremarks⟩ :=
      Job.run_missing hr hmissing
    have hshown : ready.job.diffs.shown = true := (congrArg Diff.Output.shown hdiffs).trans hasked
    refine ⟨path, hpath, now, hworked, octets, before, after, text, hdifference, _, ?_,
      console.areShown_remarks hshown text⟩
    exact (infix_said (List.ne_nil_of_mem hpath) hremarks).trans (h.said_infix_quiet hmode clock)
  · intro hpaths format e herror
    exact h.mem_lines_quiet hmode clock (.inr (reportFailure_mem_troubles hpaths herror))

/-- Quietly examine the first of the two files, and show its difference. -/
def quietFirst : Arguments := { checkFirst with showDiff := true, quiet := true }

/-- The difference the block makes to the file. -/
def firstDifference : String :=
  "--- a/x.cpp\n+++ a/x.cpp\n@@ -1 +1,5 @@\n-#include\n\x5c No newline at end of file\n" ++
    "+#include\n+\x0d\n+#ifdef _DEBUG\x0d\n+#define new DEBUG_NEW\x0d\n+#endif\x0d\n"

theorem render_firstDifference :
    Diff.render (Job.displayPath Job.atRoot (.ofString "/a/x.cpp")) "#include".toList
      ("#include".toList ++ Inserter.standard.insertion) = firstDifference.toList := by
  decide +kernel

/-- The file is not touched before its turn, so its difference can be told from the first tree. -/
theorem checkFirst_difference {page : CodePage} {now : FileTree} {r : FileReport}
    {octets : List UInt8} {before after text : List Char}
    (hworked : Job.Worked (checkFirstJob true) page Job.atRoot [.ofString "/a/x.cpp"]
      (brokenRules anchorOctets) now)
    (h : (checkFirstJob true).IsDifference page Job.atRoot now (.ofString "/a/x.cpp") r octets before
      after text) : text = firstDifference.toList := by
  have hlook := (modifyBothJob_isRegular anchorOctets).1.look
  have hnow : now.look? Job.atRoot.cwd (.ofString "/a/x.cpp") = some (.file anchorOctets) := by
    rw [← hlook]
    refine FileTree.look?_of_grown hworked.grown fun q _ => hworked.face? ?_
    rintro path - p ⟨⟩
  have hfound : (checkFirstJob true).found page Job.atRoot now (.ofString "/a/x.cpp") =
      (checkFirstJob true).found page Job.atRoot (brokenRules anchorOctets) (.ofString "/a/x.cpp") :=
    Job.found_eq Detector.goesByOctets_heuristic hnow hlook page
  have hdecode : ((checkFirstJob true).found page Job.atRoot (brokenRules anchorOctets)
      (.ofString "/a/x.cpp")).decode page anchorOctets = .ok "#include".toList := by cbv
  have hensure : (checkFirstJob true).inserter.ensure "#include".toList =
      .ok (.inserted ("#include".toList ++ Inserter.standard.insertion)) := by decide +kernel
  obtain ⟨hread, -, hdecoded, hinserted, hpath, hrendered⟩ := h
  obtain rfl : anchorOctets = octets :=
    Except.ok.inj ((FileTree.read_eq_ok_iff_look?.mpr hnow).symm.trans hread)
  obtain rfl : "#include".toList = before := by
    rw [hfound, hdecode] at hdecoded
    exact Except.ok.inj hdecoded
  rw [hensure] at hinserted
  cases hinserted
  rw [hrendered, hpath, render_firstDifference]

/-- A quiet run prints the path of the one file that lacks the block, and shows its difference on the
error stream. -/
theorem quiet_output_of_missing_block :
    Arguments.parse ["-q", "--show-diff", "/a/x.cpp", "--no-config"] = .ok quietFirst ∧
      ∃ ready found, Completes quietFirst Job.atRoot (brokenRules anchorOctets) ready found ∧
        let lines := (run quietFirst (quietFirst.console true true) Job.atRoot {}
          (brokenRules anchorOctets)).lines
        Line.collect .out lines = "a/x.cpp\n" ∧
        ∃ block, block <:+: lines ∧ Line.AreShown firstDifference.toList block := by
  have hparse : Arguments.parse ["-q", "--show-diff", "/a/x.cpp", "--no-config"] =
      .ok quietFirst := by decide
  obtain ⟨page, found, hpaths, hcompletes⟩ := checkFirst_completes true true none none
  obtain ⟨-, hout, -, -, hdiffs, -⟩ := quiet_output hparse rfl hcompletes true true {}
  have hreports := (checkFirst_batch true page).2
  refine ⟨hparse, _, found, hcompletes, hout.trans ?_, ?_⟩
  · have hpath : toString (checkFirstReport page).path = "a/x.cpp" := by cbv
    rw [hpaths, hreports, List.filter_singleton, checkFirst_report]
    simp only [beq_self_eq_true, cond_true, List.map_cons, List.map_nil, hpath]
    rfl
  · rw [hpaths, hreports] at hdiffs
    obtain ⟨path, hpath, now, hworked, _, _, _, text, hdifference, block, hblock, hshown⟩ :=
      hdiffs rfl _ (List.mem_singleton_self _) (checkFirst_report page)
    obtain rfl := List.mem_singleton.mp hpath
    rw [checkFirst_difference hworked hdifference] at hshown
    exact ⟨block, hblock, hshown⟩

end Run

end MarkerBlock
