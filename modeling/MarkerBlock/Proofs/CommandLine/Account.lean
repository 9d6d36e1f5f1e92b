/-
MarkerBlock.Proofs.CommandLine.Account — all accounts of a completed run agree.

A batch that no ignore file ends has one report for each of its files, in order
(`forall₂_reports`), and each report says what one step can say (`Reports`).  Counts,
categories, the line of counts, the verdict on the batch and the exit code are all taken
from these reports; `accounts_agree` puts them side by side.
-/
import Mathlib
import MarkerBlock.Proofs.CommandLine.Run
import MarkerBlock.Proofs.Report

namespace MarkerBlock

/-! ## §1 One report a file -/

namespace Job

variable {job : Job} {page : CodePage} {s : Surroundings} {tree : FileTree} {lists : Lists}
  {path : Path} {paths : List Path}

/-- What a report says whatever became of the file at `path`. -/
structure Reports (job : Job) (s : Surroundings) (path : Path) (r : FileReport) : Prop where
  path : r.path = displayPath s path
  marked : r.hasMarker = true ↔ r.action = .present
  /-- A job that changes files inserts blocks and leaves none missing. -/
  modifying : job.modifies = true → r.action ≠ .missing

theorem reports_skipped (job : Job) (s : Surroundings) (path : Path) (reason : String) :
    job.Reports s path (.skipped (displayPath s path) reason) :=
  ⟨rfl, by simp [FileReport.skipped], fun _ => by simp [FileReport.skipped]⟩

theorem reports_reportOf (page : CodePage) (e : Encoding) {result : Except FileFailure Status}
    (h : job.modifies = true → result ≠ .ok .missing) :
    job.Reports s path (reportOf page (displayPath s path) e result) := by
  rcases result with failure | status
  · exact ⟨rfl, by simp [reportOf, FileReport.failed], fun _ => by simp [reportOf, FileReport.failed]⟩
  · cases status with
    | missing => exact ⟨rfl, by simp [reportOf, actionOf], fun hmodifies => absurd rfl (h hmodifies)⟩
    | _ => exact ⟨rfl, by simp [reportOf, actionOf], fun _ => by simp [reportOf, actionOf]⟩

/-- A job that changes files leaves no block missing. -/
theorem ensure_ne_missing (hmodifies : job.modifies = true) (page : CodePage) (s : Surroundings)
    (tree : FileTree) (path : Path) :
    (job.ensure page s tree path).2.result ≠ .ok .missing := by
  intro hmissing
  have hmeans := ensure_means job page s tree path
  rw [Means, hmissing] at hmeans
  exact absurd (hmodifies.symm.trans hmeans.1) (by decide)

theorem reports_step {done : Step} (h : job.step page s tree lists path = .ok done) :
    job.Reports s path done.report := by
  rcases step_eq_ok h with ⟨reason, -, hreport⟩ | ⟨-, hreport⟩
  · rw [hreport]
    exact reports_skipped job s path reason.message
  · rw [hreport]
    exact reports_reportOf page _ fun hmodifies => ensure_ne_missing hmodifies page s tree path

theorem forall₂_reports_runFrom (h : (job.runFrom page s tree lists paths).error = none) :
    List.Forall₂ (job.Reports s) paths (job.runFrom page s tree lists paths).reports := by
  induction paths generalizing tree lists with
  | nil => exact .nil
  | cons path rest ih =>
    rw [runFrom] at h ⊢
    cases hstep : job.step page s tree lists path with
    | error e =>
      rw [hstep] at h
      cases h
    | ok done =>
      rw [hstep] at h
      exact .cons (reports_step hstep) (ih h)

/-- A batch that nothing ends has one report for each file, in order. -/
theorem forall₂_reports (h : (job.run page s tree paths).error = none) :
    List.Forall₂ (job.Reports s) paths (job.run page s tree paths).reports := by
  rcases paths with - | ⟨path, rest⟩
  · exact .nil
  · exact forall₂_reports_runFrom h

end Job

/-! ## §2 The accounts of a batch -/

/-- The line of counts that says how many reports each category holds, and how long it took. -/
def Console.countsLine (console : Console) (c : Categories) (time : Decimal.Binary) : String :=
  let ok := console.onOut .cyan (toString c.present.length)
  let missing := console.concern c.missing.length
  let ignored := console.onOut .dimmed (toString c.ignored.length)
  let failed := console.concern c.failed.length
  let counts := s!"Summary: {ok} OK, {missing} missing, {failed} failed, {ignored} ignored"
  let inserted := if c.inserted.length = 0 then "" else s!", {c.inserted.length} inserted"
  let seconds := if console.mode = .verbose then s!" ({Decimal.fixed 2 time}s)" else ""
  counts ++ inserted ++ seconds

/-- The counts that are printed are the lengths of the categories.  A quiet console prints
none. -/
theorem Console.summary_ofReports (console : Console) (reports : List FileReport)
    (nanoseconds : Nat) (timestamp : Option Int) :
    console.summary (Summary.ofReports reports nanoseconds timestamp) =
      if console.mode = .quiet then []
      else [⟨.out, console.countsLine (Categories.ofReports reports)
        (Summary.ofReports reports nanoseconds timestamp).seconds⟩] := by
  have hmissing (m n : Nat) : m + n - n = m := Nat.add_sub_cancel m n
  unfold Console.summary Console.countsLine Console.say
  simp only [Summary.ofReports_eq, hmissing]
  rfl

/-- Reports, categories, counts, the line of counts and the verdict on a batch say the same. -/
structure Job.Batch.Agrees (batch : Job.Batch) (job : Job) (s : Surroundings) (paths : List Path)
    (c : Categories) (summary : Summary) : Prop where
  /-- There is one report for each file, in order. -/
  reported : batch.reports.map (·.path) = paths.map (displayPath s)
  marked : ∀ r ∈ batch.reports, r.hasMarker = true ↔ r.action = .present
  partitioned : c.Partitions batch.reports
  /-- Each count is the length of its category. -/
  counted : summary.withMarker = c.present.length ∧
    summary.missing = c.missing.length + c.inserted.length ∧
    summary.inserted = c.inserted.length ∧ summary.failed = c.failed.length ∧
    summary.ignored = c.ignored.length
  total : summary.total = paths.length ∧
    summary.total = summary.withMarker + summary.missing + summary.failed + summary.ignored
  processed : c.processedCount = summary.total - summary.ignored
  /-- The difference that is printed is one of numbers, not cut off at zero. -/
  uncut : summary.inserted ≤ summary.missing
  /-- The line of counts is printed, unless the console is quiet. -/
  printed : ∀ console : Console, console.summary summary =
    if console.mode = .quiet then [] else [⟨.out, console.countsLine c summary.seconds⟩]
  flagged : batch.hasIssues = true ↔ c.failed ≠ [] ∨ c.missing ≠ []
  modifying : job.modifies = true → (batch.hasIssues = true ↔ c.failed ≠ [])

namespace Job

theorem map_path_of_reports {s : Surroundings} {job : Job} {paths : List Path}
    {reports : List FileReport} (h : List.Forall₂ (job.Reports s) paths reports) :
    reports.map (·.path) = paths.map (displayPath s) := by
  induction h with
  | nil => rfl
  | cons hr _ ih => rw [List.map_cons, List.map_cons, hr.path, ih]

theorem exists_reports_of_mem {s : Surroundings} {job : Job} {paths : List Path}
    {reports : List FileReport} (h : List.Forall₂ (job.Reports s) paths reports) {r : FileReport}
    (hr : r ∈ reports) : ∃ path, job.Reports s path r := by
  induction h with
  | nil => cases hr
  | cons hfirst _ ih =>
    rcases List.mem_cons.mp hr with rfl | hr
    · exact ⟨_, hfirst⟩
    · exact ih hr

/-- The accounts of a batch that nothing ends agree. -/
theorem agrees_run {job : Job} {page : CodePage} {s : Surroundings} {tree : FileTree}
    {paths : List Path} (h : (job.run page s tree paths).error = none) (nanoseconds : Nat)
    (timestamp : Option Int) :
    (job.run page s tree paths).Agrees job s paths
      (Categories.ofReports (job.run page s tree paths).reports)
      (Summary.ofReports (job.run page s tree paths).reports nanoseconds timestamp) := by
  have hreports := forall₂_reports h
  have hflagged := Categories.any_isIssue_iff (job.run page s tree paths).reports
  rw [← run_hasIssues] at hflagged
  generalize job.run page s tree paths = batch at hreports hflagged
  have hpartitions := Categories.partitions_ofReports batch.reports
  have hlength := hpartitions.length
  have hpaths : paths.length = batch.reports.length := hreports.length_eq
  have hsummary := Summary.ofReports_eq batch.reports nanoseconds timestamp
  constructor
  case reported => exact map_path_of_reports hreports
  case marked =>
    intro r hr
    obtain ⟨path, hreport⟩ := exists_reports_of_mem hreports hr
    exact hreport.marked
  case partitioned => exact hpartitions
  case counted =>
    rw [hsummary]
    exact ⟨rfl, rfl, rfl, rfl, rfl⟩
  case total =>
    rw [hsummary]
    simp only
    omega
  case processed =>
    rw [hsummary]
    simp only [Categories.processedCount]
    omega
  case uncut =>
    rw [hsummary]
    simp only
    omega
  case printed =>
    intro console
    exact console.summary_ofReports batch.reports nanoseconds timestamp
  case flagged => exact hflagged
  case modifying =>
    intro hmodifies
    have hmissing : (Categories.ofReports batch.reports).missing = [] := by
      refine List.filter_eq_nil_iff.mpr ?_
      intro r hr
      obtain ⟨path, hreport⟩ := exists_reports_of_mem hreports hr
      simpa using hreport.modifying hmodifies
    rw [hflagged, hmissing]
    simp

end Job

/-! ## §3 The outcome of a run -/

namespace Run

variable {a : Arguments} {s : Surroundings} {tree : FileTree} {ready : Ready}
  {found : Selection.Found}

/-- A run that was made ready, found its files, and worked on them without an error. -/
structure Completes (a : Arguments) (s : Surroundings) (tree : FileTree) (ready : Ready)
    (found : Selection.Found) : Prop where
  prepared : (prepare a s tree).1 = .ok ready
  selected : Selection.select s ready.tree a.patterns = .ok found
  unbroken : (ready.job.run ready.page s ready.tree found.paths).error = none

/-- What a run says before it gives an account of its batch, or instead if there is no file. -/
def said (a : Arguments) (console : Console) (s : Surroundings) (tree : FileTree) (ready : Ready)
    (found : Selection.Found) : List Line :=
  console.remarks (prepare a s tree).2 ++
    (console.remarks found.remarks ++ console.started found.paths.length ready.job.modifies ++
      if found.paths = [] then
        console.blank ++ console.allPresent (String.ofList ready.job.inserter.marker)
      else console.remarks (ready.job.run ready.page s ready.tree found.paths).remarks)

theorem summary_infix_account (console : Console) (ready : Ready) (batch : Job.Batch)
    (summary : Summary) : console.summary summary <:+: account console ready batch summary := by
  unfold account
  exact List.infix_append _ _ _

theorem summary_infix_conclude (a : Arguments) (console : Console) (s : Surroundings)
    (clock : Clock) (ready : Ready) (batch : Job.Batch) :
    console.summary (Summary.ofReports batch.reports clock.nanoseconds (some clock.timestamp)) <:+:
      (conclude a console s clock ready batch).lines := by
  refine (summary_infix_account console ready batch _).trans ?_
  simp only [conclude, List.append_assoc]
  exact (List.prefix_append _ _).isInfix

/-- A run that completes has nothing to conclude if it found no files, and concludes otherwise. -/
theorem Completes.run_eq (h : Completes a s tree ready found) (console : Console) (clock : Clock) :
    run a console s clock tree =
      if found.paths = [] then
        { tree := ready.tree, lines := said a console s tree ready found, exitCode := 0 }
      else
        let concluded := conclude a console s clock ready
          (ready.job.run ready.page s ready.tree found.paths)
        { concluded with lines := said a console s tree ready found ++ concluded.lines } := by
  obtain ⟨hprepared, hselected, hunbroken⟩ := h
  unfold run said
  generalize prepare a s tree = prepared at hprepared
  obtain ⟨result, remarks⟩ := prepared
  simp only at hprepared
  subst hprepared
  unfold carryOut
  simp only [hselected]
  cases hpaths : found.paths with
  | nil => simp only [List.isEmpty_nil, if_true, List.append_assoc]
  | cons path rest =>
    rw [hpaths] at hunbroken
    simp only [List.isEmpty_cons, Bool.false_eq_true, if_false, hunbroken, reduceCtorEq,
      ← List.append_assoc]

/-- A run that completes exits by the verdict on its batch, and prints the summary of the batch. -/
theorem Completes.outcome (h : Completes a s tree ready found) (console : Console) (clock : Clock) :
    (run a console s clock tree).exitCode =
        (if (ready.job.run ready.page s ready.tree found.paths).hasIssues then 1 else 0) ∧
      (found.paths ≠ [] → console.summary
        (Summary.ofReports (ready.job.run ready.page s ready.tree found.paths).reports
          clock.nanoseconds (some clock.timestamp)) <:+: (run a console s clock tree).lines) := by
  rw [h.run_eq console clock]
  by_cases hpaths : found.paths = []
  · rw [if_pos hpaths, hpaths]
    exact ⟨rfl, fun hsome => absurd rfl hsome⟩
  · rw [if_neg hpaths]
    refine ⟨rfl, fun _ => ?_⟩
    exact (summary_infix_conclude a console s clock ready _).trans (List.suffix_append _ _).isInfix

/-- The line of counts is among the lines of a run that completes and found files, unless the
console is quiet. -/
theorem Completes.countsLine_mem (h : Completes a s tree ready found) {console : Console}
    (hloud : console.mode ≠ .quiet) (clock : Clock) (hpaths : found.paths ≠ []) :
    ⟨.out, console.countsLine
      (Categories.ofReports (ready.job.run ready.page s ready.tree found.paths).reports)
      (Summary.ofReports (ready.job.run ready.page s ready.tree found.paths).reports
        clock.nanoseconds (some clock.timestamp)).seconds⟩ ∈ (run a console s clock tree).lines := by
  have hsummary := (h.outcome console clock).2 hpaths
  rw [console.summary_ofReports, if_neg hloud] at hsummary
  exact hsummary.subset (List.mem_singleton_self _)

/-- All accounts of a run agree: reports, categories, counts, the line of counts and the verdict
on every batch that nothing ends, and with them the exit code and the counts that are printed. -/
theorem accounts_agree :
    (∀ (job : Job) (page : CodePage) (s : Surroundings) (tree : FileTree) (paths : List Path)
        (nanoseconds : Nat) (timestamp : Option Int),
      (job.run page s tree paths).error = none →
        (job.run page s tree paths).Agrees job s paths
          (Categories.ofReports (job.run page s tree paths).reports)
          (Summary.ofReports (job.run page s tree paths).reports nanoseconds timestamp)) ∧
    (∀ (a : Arguments) (console : Console) (s : Surroundings) (clock : Clock) (tree : FileTree)
        (ready : Ready) (found : Selection.Found), Completes a s tree ready found →
      (run a console s clock tree).exitCode =
          (if (ready.job.run ready.page s ready.tree found.paths).hasIssues then 1 else 0) ∧
        (found.paths ≠ [] → console.summary
          (Summary.ofReports (ready.job.run ready.page s ready.tree found.paths).reports
            clock.nanoseconds (some clock.timestamp)) <:+: (run a console s clock tree).lines) ∧
        (console.mode ≠ .quiet → found.paths ≠ [] → ⟨.out, console.countsLine
          (Categories.ofReports (ready.job.run ready.page s ready.tree found.paths).reports)
          (Summary.ofReports (ready.job.run ready.page s ready.tree found.paths).reports
            clock.nanoseconds (some clock.timestamp)).seconds⟩ ∈
              (run a console s clock tree).lines)) := by
  refine ⟨?_, ?_⟩
  · intro job page s tree paths nanoseconds timestamp hunbroken
    exact Job.agrees_run hunbroken nanoseconds timestamp
  · intro a console s clock tree ready found hcompletes
    obtain ⟨hexit, hsummary⟩ := hcompletes.outcome console clock
    exact ⟨hexit, hsummary, fun hloud => hcompletes.countsLine_mem hloud clock⟩

/-- Examine the first of the two files. -/
def checkFirst : Arguments := { patterns := ["/a/x.cpp"], noConfig := true }

/-- The job of this run, which may show differences. -/
def checkFirstJob (shown : Bool) : Job :=
  { modifyBothJob with modifies := false, diffs := { shown } }

theorem checkFirst_prepare (shown : Bool) (octets : List UInt8) :
    ∃ page, (prepare { checkFirst with showDiff := shown } Job.atRoot (brokenRules octets)).1 =
      .ok ⟨brokenRules octets, page, checkFirstJob shown⟩ := by
  obtain ⟨page, hpage⟩ := CodePage.ofLabel?_defaultLabel
  have hregister : (CodePage.register none (some ({} : Config).legacyCodePage)).1 = .ok page :=
    CodePage.register_first hpage
  have hworkspace : Selection.workspaceRoot Job.atRoot (brokenRules octets) checkFirst.patterns =
      ⟨['/', 'a']⟩ := workspaceRoot_of_first octets []
  have hsettings : settings { checkFirst with showDiff := shown } Job.atRoot (brokenRules octets)
      ⟨['/', 'a']⟩ = (.ok {}, [.detail "Config file discovery disabled (--no-config)"]) := rfl
  refine ⟨page, ?_⟩
  unfold prepare
  simp only [hworkspace, hsettings, hregister]
  rfl

theorem checkFirst_select (octets : List UInt8) :
    ∃ found, Selection.select Job.atRoot (brokenRules octets) checkFirst.patterns = .ok found ∧
      found.paths = [.ofString "/a/x.cpp"] := by
  have hpaths : (Selection.select Job.atRoot (brokenRules octets)
      checkFirst.patterns).toOption.map (·.paths) = some [.ofString "/a/x.cpp"] := by cbv
  cases hselect : Selection.select Job.atRoot (brokenRules octets) checkFirst.patterns with
  | error e =>
    rw [hselect] at hpaths
    cases hpaths
  | ok found =>
    rw [hselect] at hpaths
    exact ⟨found, rfl, Option.some.inj hpaths⟩

/-- The report on the one file of this run. -/
def checkFirstReport (page : CodePage) : FileReport :=
  let path := Path.ofString "/a/x.cpp"
  let e := (checkFirstJob false).found page Job.atRoot (brokenRules anchorOctets) path
  (checkFirstJob false).reportFor page Job.atRoot path e anchorOctets

/-- There is a report on the one file of this run. -/
theorem checkFirst_batch (shown : Bool) (page : CodePage) :
    ((checkFirstJob shown).run page Job.atRoot (brokenRules anchorOctets)
        [.ofString "/a/x.cpp"]).error = none ∧
      ((checkFirstJob shown).run page Job.atRoot (brokenRules anchorOctets)
        [.ofString "/a/x.cpp"]).reports = [checkFirstReport page] := by
  have hregular : (checkFirstJob shown).IsRegular Job.atRoot (brokenRules anchorOctets)
      (.ofString "/a/x.cpp") ⟨['/', 'a']⟩ anchorOctets := by
    obtain ⟨hlook, hstat, hunfiltered, hparent⟩ := (modifyBothJob_isRegular anchorOctets).1
    exact ⟨hlook, hstat, hunfiltered, hparent⟩
  obtain ⟨hload, -⟩ := brokenRules_load anchorOctets
  obtain ⟨said, hlist⟩ := Job.listFor_of_load (checkFirstJob shown) List.find?_nil hload
  obtain ⟨remarks, hstep⟩ := hregular.step_eq hlist (IgnoreList.cause?_of_no_rules _ _) page
  simp only [Job.run, Job.runFrom, hstep, List.isEmpty_cons, Bool.false_eq_true, if_false]
  exact ⟨trivial, rfl⟩

/-- The file lacks the block. -/
theorem checkFirst_report (page : CodePage) : (checkFirstReport page).action = .missing := by cbv

/-- The line of counts for one file that lacks the block. -/
theorem countsLine_of_missing {r : FileReport} (h : r.action = .missing) (time : Decimal.Binary) :
    Console.countsLine {} (Categories.ofReports [r]) time =
      "Summary: 0 OK, 1 missing, 0 failed, 0 ignored" := by
  have hcategories : Categories.ofReports [r] =
      { missing := [r], inserted := [], failed := [], present := [], ignored := [] } := by
    simp [Categories.ofReports, h]
  have hplain (style : Style) (text : String) : Console.onOut {} style text = text := rfl
  rw [hcategories]
  unfold Console.countsLine Console.concern
  simp only [hplain, List.length_cons, List.length_nil, if_true, reduceCtorEq, if_false]
  decide

/-- One file lacks the block: the run says so, and exits accordingly. -/
theorem accounts_agree_of_missing_block :
    ∃ page found, Completes checkFirst Job.atRoot (brokenRules anchorOctets)
        ⟨brokenRules anchorOctets, page, checkFirstJob false⟩ found ∧
      ((checkFirstJob false).run page Job.atRoot (brokenRules anchorOctets) found.paths).Agrees
        (checkFirstJob false) Job.atRoot [.ofString "/a/x.cpp"]
        (Categories.ofReports ((checkFirstJob false).run page Job.atRoot (brokenRules anchorOctets)
          found.paths).reports)
        (Summary.ofReports ((checkFirstJob false).run page Job.atRoot (brokenRules anchorOctets)
          found.paths).reports 0 none) ∧
      (run checkFirst {} Job.atRoot {} (brokenRules anchorOctets)).exitCode = 1 ∧
      ⟨.out, "Summary: 0 OK, 1 missing, 0 failed, 0 ignored"⟩ ∈
        (run checkFirst {} Job.atRoot {} (brokenRules anchorOctets)).lines := by
  obtain ⟨page, hprepare⟩ := checkFirst_prepare false anchorOctets
  obtain ⟨found, hselect, hpaths⟩ := checkFirst_select anchorOctets
  obtain ⟨hunbroken, hreports⟩ := checkFirst_batch false page
  have hissues : ((checkFirstJob false).run page Job.atRoot (brokenRules anchorOctets)
      [.ofString "/a/x.cpp"]).hasIssues = true := by
    rw [Job.run_hasIssues, hreports, List.any_cons, FileReport.isIssue, checkFirst_report]
    rfl
  have hcompletes : Completes checkFirst Job.atRoot (brokenRules anchorOctets)
      ⟨brokenRules anchorOctets, page, checkFirstJob false⟩ found := by
    refine ⟨hprepare, hselect, ?_⟩
    rw [hpaths]
    exact hunbroken
  obtain ⟨hagree, hexit⟩ := accounts_agree
  obtain ⟨hcode, -, hline⟩ := hexit checkFirst {} Job.atRoot {} _ _ found hcompletes
  refine ⟨page, found, hcompletes, ?_, ?_, ?_⟩
  · rw [hpaths]
    exact hagree (checkFirstJob false) page Job.atRoot _ _ 0 none hunbroken
  · rw [hcode, hpaths, if_pos hissues]
  · have hprinted := hline (by decide) (by rw [hpaths]; exact List.cons_ne_nil _ _)
    simp only [hpaths, hreports, countsLine_of_missing (checkFirst_report page)] at hprinted
    exact hprinted

end Run

end MarkerBlock
