/-
MarkerBlock.Proofs.CommandLine.Run — what a run that ends with an error leaves behind.

A run can end with an error (`error?`) while it is made ready, while its files are
selected, and in the batch.  Until the batch it has written to the file for differences at
most (`Prepared`).  A batch that ends early has worked on the files before the one at which
it ends; a run that changes files has changed those among them that lacked the block, each
by a complete insertion, and tells of none of them (`failed_run_rewrites_front`).
-/
import Mathlib
import MarkerBlock.CommandLine.Run
import MarkerBlock.Proofs.Job.Batch

namespace MarkerBlock

variable {a : Arguments} {s : Surroundings} {tree tree' : FileTree} {chain : List String}

namespace Run

/-! ## §1 Runs that end with an error -/

/-- The causes that are told of if a run ends with an error. -/
def error? (a : Arguments) (s : Surroundings) (tree : FileTree) : Option (List String) :=
  match (prepare a s tree).1 with
  | .error stopped => some stopped.chain
  | .ok ready =>
    match Selection.select s ready.tree a.patterns with
    | .error (e, _) => some e.chain
    | .ok found => (ready.job.run ready.page s ready.tree found.paths).error.map Ignore.Error.chain

/-- A run that ended in its batch, because the ignore files of `path` could not be loaded; the
files in `front` were worked on and reported on before. -/
structure EndsInBatch (a : Arguments) (s : Surroundings) (tree : FileTree) (ready : Ready)
    (front : List Path) (path : Path) (rest : List Path) (e : Ignore.Error) : Prop where
  prepared : (prepare a s tree).1 = .ok ready
  selected : ∃ found, Selection.select s ready.tree a.patterns = .ok found ∧
    Job.EndsAt (ready.job.run ready.page s ready.tree) ready.job s found.paths front path rest e

theorem carryOut_of_batch (console : Console) (clock : Clock) (ready : Ready)
    {found : Selection.Found} {e : Ignore.Error}
    (hselect : Selection.select s ready.tree a.patterns = .ok found)
    (he : (ready.job.run ready.page s ready.tree found.paths).error = some e) :
    ∃ lines, carryOut a console s clock ready =
      .failed (ready.job.run ready.page s ready.tree found.paths).tree lines e.chain := by
  have hsome : found.paths.isEmpty = false := by
    cases hpaths : found.paths with
    | nil =>
      rw [hpaths] at he
      cases he
    | cons path rest => rfl
  unfold carryOut
  simp only [hselect, hsome, Bool.false_eq_true, if_false, he]
  exact ⟨_, rfl⟩

/-- What ends a run, and the tree it leaves. -/
theorem run_eq_failed (console : Console) (clock : Clock) (h : error? a s tree = some chain) :
    ∃ lines, run a console s clock tree = .failed (run a console s clock tree).tree lines chain ∧
    ((∃ stopped, (prepare a s tree).1 = .error stopped ∧
        (run a console s clock tree).tree = stopped.tree) ∨
      ∃ ready, (prepare a s tree).1 = .ok ready ∧
        ((run a console s clock tree).tree = ready.tree ∨
          ∃ front path rest e, EndsInBatch a s tree ready front path rest e ∧ chain = e.chain ∧
            (run a console s clock tree).tree =
              (ready.job.run ready.page s ready.tree front).tree)) := by
  unfold error? at h
  unfold run
  cases hprepare : prepare a s tree with
  | mk result remarks =>
    rw [hprepare] at h
    cases result with
    | error stopped =>
      cases h
      exact ⟨_, rfl, .inl ⟨stopped, rfl, rfl⟩⟩
    | ok ready =>
      simp only at h ⊢
      cases hselect : Selection.select s ready.tree a.patterns with
      | error e =>
        obtain ⟨e, said⟩ := e
        simp only [hselect, Option.some.injEq] at h
        subst h
        unfold carryOut
        simp only [hselect]
        refine ⟨console.remarks remarks ++ console.remarks said, ?_, ?_⟩
        · simp [Outcome.failed]
        · exact .inr ⟨ready, rfl, .inl rfl⟩
      | ok found =>
        simp only [hselect] at h
        obtain ⟨e, he, rfl⟩ := Option.map_eq_some_iff.mp h
        obtain ⟨lines, hlines⟩ := carryOut_of_batch console clock ready hselect he
        obtain ⟨front, path, rest, hends⟩ := Job.run_error he
        rw [hlines]
        refine ⟨console.remarks remarks ++ lines, ?_, .inr ⟨ready, rfl, .inr ?_⟩⟩
        · simp [Outcome.failed]
        · exact ⟨front, path, rest, e, ⟨by rw [hprepare], found, hselect, hends⟩, rfl, hends.tree⟩

/-! ## §2 Making ready -/

/-- The trees there are when a run is ready: the file for differences may have been emptied. -/
def Prepared (a : Arguments) (s : Surroundings) (tree tree' : FileTree) : Prop :=
  tree' = tree ∨ ∃ saved ∈ a.diffs.saved, Job.Puts s tree saved tree'

theorem prepared_of_prepare (h : a.diffs.prepare tree s.cwd = .ok tree') :
    Prepared a s tree tree' := by
  unfold Diff.Output.prepare at h
  cases hsaved : a.diffs.saved with
  | none =>
    rw [hsaved] at h
    cases h
    exact .inl rfl
  | some saved =>
    simp only [hsaved] at h
    split at h
    · next hwrite =>
      cases h
      obtain ⟨place, before, htarget, hset⟩ := FileTree.write_eq_ok hwrite
      exact .inr ⟨saved, hsaved, place, before, [], htarget, hset⟩
    · cases h

/-- The file for differences is at `q`. -/
def SavesAt (a : Arguments) (s : Surroundings) (tree : FileTree) (q : Place) : Prop :=
  ∃ saved ∈ a.diffs.saved, tree.placeOf? s.cwd saved = some q

theorem Prepared.face? (h : Prepared a s tree tree') {q : Place} (hq : ¬SavesAt a s tree q) :
    tree'.face? q = tree.face? q := by
  rcases h with rfl | ⟨saved, hsaved, hputs⟩
  · rfl
  · exact hputs.face? fun hplace => hq ⟨saved, hsaved, hplace⟩

theorem Prepared.placeOf? (h : Prepared a s tree tree') (p : Path) :
    tree'.placeOf? s.cwd p = tree.placeOf? s.cwd p := by
  rcases h with rfl | ⟨saved, -, hputs⟩
  · rfl
  · exact FileTree.placeOf?_of_grown hputs.grown s.cwd p

/-- What is there when a run is ready, or stopped before. -/
theorem makeJob_spec (a : Arguments) (s : Surroundings) (tree : FileTree) (workspace : Path)
    (config : Config) (page : CodePage) :
    match makeJob a s tree workspace config page with
    | .error stopped => Prepared a s tree stopped.tree
    | .ok ready => Prepared a s tree ready.tree ∧ ready.job.modifies = a.modifies ∧
        ready.job.diffs = a.diffs := by
  unfold makeJob
  cases hdiffs : a.diffs.prepare tree s.cwd with
  | error e => exact .inl rfl
  | ok tree' =>
    have hprepared := prepared_of_prepare hdiffs
    simp only
    cases Filter.standard a.ignore (config.excludePaths ++ a.excludePath) (extensions a config) with
    | error e => exact hprepared
    | ok filter => exact ⟨hprepared, rfl, rfl⟩

theorem prepare_spec (a : Arguments) (s : Surroundings) (tree : FileTree) :
    match (prepare a s tree).1 with
    | .error stopped => Prepared a s tree stopped.tree
    | .ok ready => Prepared a s tree ready.tree ∧ ready.job.modifies = a.modifies ∧
        ready.job.diffs = a.diffs := by
  unfold prepare
  simp only
  rcases settings a s tree (Selection.workspaceRoot s tree a.patterns) with ⟨_ | config, remarks⟩
  · exact .inl rfl
  · simp only
    cases (CodePage.register none (some config.legacyCodePage)).1 with
    | error e => exact .inl rfl
    | ok page => exact makeJob_spec a s tree _ config page

/-! ## §3 What has changed -/

/-- A batch changes no places but those of its files and of the file for differences. -/
theorem face?_batch {ready : Ready} (hprepared : Prepared a s tree ready.tree)
    (hdiffs : ready.job.diffs = a.diffs) {front : List Path} {q : Place}
    (hq : ¬SavesAt a s tree q)
    (hfront : ready.job.modifies = true → ∀ p ∈ front, tree.placeOf? s.cwd p ≠ some q) :
    (ready.job.run ready.page s ready.tree front).tree.face? q = tree.face? q := by
  rw [Job.Worked.face? (Job.worked_run ready.job ready.page s ready.tree front), hprepared.face? hq]
  intro path hpath p hp
  rw [hprepared.placeOf?]
  unfold Job.touched? at hp
  split at hp
  · next hmodifies =>
    cases hp
    exact hfront hmodifies path hpath
  · rw [hdiffs] at hp
    exact fun hplace => hq ⟨p, hp, hplace⟩

/-- A run that ends with an error leaves all places but that of the file for differences as they
were, unless it changes files and ended in its batch: then the files before the one at which it
ended may have changed, by complete insertions, and nothing else has. -/
theorem failed_run_rewrites_front (console : Console) (clock : Clock)
    (h : error? a s tree = some chain) :
    (∃ lines, run a console s clock tree =
      .failed (run a console s clock tree).tree lines chain) ∧
    ((∀ q, ¬SavesAt a s tree q → (run a console s clock tree).tree.face? q = tree.face? q) ∨
      a.modifies = true ∧ ∃ ready front path rest e, EndsInBatch a s tree ready front path rest e ∧
        chain = e.chain ∧
        ready.job.Rewritten ready.page s front ready.tree (run a console s clock tree).tree ∧
        ∀ q, ¬SavesAt a s tree q → (∀ p ∈ front, tree.placeOf? s.cwd p ≠ some q) →
          (run a console s clock tree).tree.face? q = tree.face? q) := by
  obtain ⟨lines, hlines, hends⟩ := run_eq_failed console clock h
  refine ⟨⟨lines, hlines⟩, ?_⟩
  have hspec := prepare_spec a s tree
  rcases hends with ⟨stopped, hstopped, htree⟩ | ⟨ready, hready, htree | hbatch⟩
  · rw [hstopped] at hspec
    rw [htree]
    exact .inl fun q hq => hspec.face? hq
  · rw [hready] at hspec
    rw [htree]
    exact .inl fun q hq => hspec.1.face? hq
  · obtain ⟨front, path, rest, e, hbatch, hchain, htree⟩ := hbatch
    rw [hready] at hspec
    obtain ⟨hprepared, hmodifies, hdiffs⟩ := hspec
    rw [htree]
    by_cases ha : a.modifies = true
    · refine .inr ⟨ha, ready, front, path, rest, e, hbatch, hchain, ?_, ?_⟩
      · exact (Job.worked_run ready.job ready.page s ready.tree front).rewritten (hmodifies.trans ha)
      · intro q hq hfront
        exact face?_batch hprepared hdiffs hq fun _ => hfront
    · refine .inl fun q hq => face?_batch hprepared hdiffs hq ?_
      intro hjob
      exact absurd (hmodifies.symm.trans hjob) ha

/-! ## §4 A run that ends after a change -/

/-- A line that holds the anchor. -/
def anchorOctets : List UInt8 := [0x23, 0x69, 0x6E, 0x63, 0x6C, 0x75, 0x64, 0x65]

/-- The line with the block behind it. -/
def blockOctets : List UInt8 :=
  anchorOctets ++ Inserter.standard.insertion.map fun c => UInt8.ofNat c.toNat

/-- A source file in each of two directories, and in the second a rule that cannot be read. -/
def brokenRules (octets : List UInt8) : FileTree :=
  ⟨[(['a'], .directory [("x.cpp".toList, .file octets)]),
    (['b'], .directory [("y.cpp".toList, .file []), (IgnoreList.fileName.toList, .file [0x7B])])]⟩

/-- Insert the block in both. -/
def modifyBoth : Arguments :=
  { patterns := ["/a/x.cpp", "/b/y.cpp"], noConfig := true, modify := true }

/-- The job of this run. -/
def modifyBothJob : Job :=
  { workspace := ⟨['/', 'a']⟩, inserter := Config.inserter {}
    filter := .all [.ignoring { globs := [] }, .fragments (.ofTexts ({} : Config).excludePaths),
      .extensions (extensions modifyBoth {})] }

theorem workspaceRoot_of_first (octets : List UInt8) (more : List String) :
    Selection.workspaceRoot Job.atRoot (brokenRules octets) ("/a/x.cpp" :: more) = ⟨['/', 'a']⟩ := by
  have hdirectory : (brokenRules octets).isDirectory [] (.ofString "/a/x.cpp") = false := by cbv
  have hfile : (brokenRules octets).isFile [] (.ofString "/a/x.cpp") = true := by cbv
  have hparent : (Path.ofString "/a/x.cpp").parent? = some ⟨['/', 'a']⟩ := by decide
  have hfirst : Selection.workspaceOf? Job.atRoot (brokenRules octets) "/a/x.cpp" =
      some ⟨['/', 'a']⟩ := by
    unfold Selection.workspaceOf?
    simp only [Job.atRoot, hdirectory, hfile, hparent]
    rfl
  simp [Selection.workspaceRoot, hfirst]

theorem modifyBoth_prepare (octets : List UInt8) :
    ∃ page, (prepare modifyBoth Job.atRoot (brokenRules octets)).1 =
      .ok ⟨brokenRules octets, page, modifyBothJob⟩ := by
  obtain ⟨page, hpage⟩ := CodePage.ofLabel?_defaultLabel
  have hregister : (CodePage.register none (some ({} : Config).legacyCodePage)).1 = .ok page :=
    CodePage.register_first hpage
  have hworkspace : Selection.workspaceRoot Job.atRoot (brokenRules octets) modifyBoth.patterns =
      ⟨['/', 'a']⟩ := workspaceRoot_of_first octets ["/b/y.cpp"]
  have hsettings : settings modifyBoth Job.atRoot (brokenRules octets) ⟨['/', 'a']⟩ =
      (.ok {}, [.detail "Config file discovery disabled (--no-config)"]) := rfl
  refine ⟨page, ?_⟩
  unfold prepare
  simp only [hworkspace, hsettings, hregister]
  rfl

theorem modifyBoth_select (octets : List UInt8) :
    ∃ found, Selection.select Job.atRoot (brokenRules octets) modifyBoth.patterns = .ok found ∧
      found.paths = [.ofString "/a/x.cpp", .ofString "/b/y.cpp"] := by
  have hpaths : (Selection.select Job.atRoot (brokenRules octets)
      modifyBoth.patterns).toOption.map (·.paths) =
        some [.ofString "/a/x.cpp", .ofString "/b/y.cpp"] := by cbv
  cases hselect : Selection.select Job.atRoot (brokenRules octets) modifyBoth.patterns with
  | error e =>
    rw [hselect] at hpaths
    cases hpaths
  | ok found =>
    rw [hselect] at hpaths
    exact ⟨found, rfl, Option.some.inj hpaths⟩

theorem modifyBothJob_isRegular (octets : List UInt8) :
    modifyBothJob.IsRegular Job.atRoot (brokenRules octets) (.ofString "/a/x.cpp") ⟨['/', 'a']⟩
        octets ∧
      modifyBothJob.IsRegular Job.atRoot (brokenRules octets) (.ofString "/b/y.cpp") ⟨['/', 'b']⟩ [] :=
  ⟨⟨by cbv, by cbv, by decide, by decide⟩, ⟨by cbv, by cbv, by decide, by decide⟩⟩

theorem brokenRules_load (octets : List UInt8) :
    (IgnoreList.load Job.atRoot (brokenRules octets) { globs := [] } ⟨['/', 'a']⟩ ⟨['/', 'a']⟩).1 =
        .ok (Job.listOf ⟨['/', 'a']⟩ []) ∧
      ∃ e, (IgnoreList.load Job.atRoot (brokenRules octets) { globs := [] } ⟨['/', 'b']⟩
        ⟨['/', 'a']⟩).1 = .error e :=
  ⟨by cbv, Job.exists_error_of_toOption (by cbv)⟩

theorem brokenRules_insert (page : CodePage) :
    (modifyBothJob.ensure page Job.atRoot (brokenRules anchorOctets) (.ofString "/a/x.cpp")).2.tree =
      brokenRules blockOctets := by
  -- the standard job has the same inserter and no filter to be computed
  have hstandard : ((Job.standard ⟨['/', 'a']⟩).ensure page Job.atRoot (brokenRules anchorOctets)
      (.ofString "/a/x.cpp")).2.tree = brokenRules blockOctets := by cbv
  exact hstandard

/-- The first file gets the block, and the rule beside the second ends the batch. -/
theorem modifyBoth_batch (page : CodePage) :
    ∃ e, (modifyBothJob.run page Job.atRoot (brokenRules anchorOctets)
        [.ofString "/a/x.cpp", .ofString "/b/y.cpp"]).error = some e ∧
      (modifyBothJob.run page Job.atRoot (brokenRules anchorOctets)
        [.ofString "/a/x.cpp", .ofString "/b/y.cpp"]).tree = brokenRules blockOctets := by
  obtain ⟨hx, -⟩ := modifyBothJob_isRegular anchorOctets
  obtain ⟨-, hy⟩ := modifyBothJob_isRegular blockOctets
  obtain ⟨hload, -⟩ := brokenRules_load anchorOctets
  obtain ⟨-, e, hbroken⟩ := brokenRules_load blockOctets
  have hnew : [(Path.components ⟨['/', 'a']⟩, Job.listOf ⟨['/', 'a']⟩ [])].find?
      (fun entry => entry.1 == Path.components ⟨['/', 'b']⟩) = none :=
    List.find?_eq_none.mpr (by simp; decide)
  obtain ⟨said, hlist⟩ := Job.listFor_of_load modifyBothJob List.find?_nil hload
  obtain ⟨remarks, hstep⟩ := hx.step_eq hlist (IgnoreList.cause?_of_no_rules _ _) page
  obtain ⟨said', hlist'⟩ := Job.listFor_of_error modifyBothJob hnew hbroken
  obtain ⟨⟨e', remarks'⟩, hstep'⟩ := hy.step_error hlist' page
  rw [brokenRules_insert] at hstep
  refine ⟨e', ?_⟩
  simp only [Job.run, Job.runFrom, hstep, hstep']
  exact ⟨rfl, rfl⟩

/-- This run ends with an error and leaves the block in the first file. -/
theorem modifyBoth_fails (console : Console) (clock : Clock) :
    ∃ chain, error? modifyBoth Job.atRoot (brokenRules anchorOctets) = some chain ∧
      (run modifyBoth console Job.atRoot clock (brokenRules anchorOctets)).tree =
        brokenRules blockOctets := by
  obtain ⟨page, hprepare⟩ := modifyBoth_prepare anchorOctets
  obtain ⟨found, hselect, hpaths⟩ := modifyBoth_select anchorOctets
  obtain ⟨e, he, htree⟩ := modifyBoth_batch page
  rw [← hpaths] at he htree
  refine ⟨e.chain, ?_, ?_⟩
  · unfold error?
    simp only [hprepare, hselect, he, Option.map_some]
  · obtain ⟨lines, hlines⟩ := carryOut_of_batch console clock
      ⟨brokenRules anchorOctets, page, modifyBothJob⟩ hselect he
    unfold run
    generalize prepare modifyBoth Job.atRoot (brokenRules anchorOctets) = prepared at hprepare
    obtain ⟨result, remarks⟩ := prepared
    simp only at hprepare
    subst hprepare
    simp only [hlines]
    exact htree

theorem brokenRules_face? (octets : List UInt8) :
    (brokenRules octets).face? [['a'], "x.cpp".toList] = some (.file octets) := by
  cbv

theorem modifyBoth_not_savesAt (tree : FileTree) (q : Place) :
    ¬SavesAt modifyBoth Job.atRoot tree q := by
  rintro ⟨saved, ⟨⟩, -⟩

theorem failed_run_rewrites_front_of_broken_rules :
    ∃ chain, error? modifyBoth Job.atRoot (brokenRules anchorOctets) = some chain ∧
      ∃ ready front path rest e,
        EndsInBatch modifyBoth Job.atRoot (brokenRules anchorOctets) ready front path rest e ∧
        ready.job.Rewritten ready.page Job.atRoot front ready.tree (brokenRules blockOctets) := by
  obtain ⟨chain, herror, htree⟩ := modifyBoth_fails {} {}
  obtain ⟨-, hsame | ⟨-, ready, front, path, rest, e, hbatch, -, hrewritten, -⟩⟩ :=
    failed_run_rewrites_front {} {} herror
  · have hface := hsame _ (modifyBoth_not_savesAt _ [['a'], "x.cpp".toList])
    rw [htree, brokenRules_face?, brokenRules_face?] at hface
    exact absurd hface (by decide)
  · rw [htree] at hrewritten
    exact ⟨chain, herror, ready, front, path, rest, e, hbatch, hrewritten⟩

/-- A run that ends with an error may have changed a source file. -/
theorem failed_run_changes_file :
    ¬∀ (a : Arguments) (console : Console) (s : Surroundings) (clock : Clock) (tree : FileTree)
      (chain : List String), error? a s tree = some chain →
        ∀ q, ¬SavesAt a s tree q → (run a console s clock tree).tree.face? q = tree.face? q := by
  intro hall
  obtain ⟨chain, herror, htree⟩ := modifyBoth_fails {} {}
  have hface := hall modifyBoth {} Job.atRoot {} (brokenRules anchorOctets) chain herror _
    (modifyBoth_not_savesAt _ [['a'], "x.cpp".toList])
  rw [htree, brokenRules_face?, brokenRules_face?] at hface
  exact absurd hface (by decide)

end Run

end MarkerBlock
