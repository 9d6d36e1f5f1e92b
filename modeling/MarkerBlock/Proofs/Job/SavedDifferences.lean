/-
MarkerBlock.Proofs.Job.SavedDifferences — the file for differences holds those of the run.

A run begins with the file for differences empty (`holds_prepared`).  In a job that only examines,
work on a file puts the rendered difference at its end, if the block is missing, and otherwise
does nothing (`ensure_holds`).  So at every point of a batch the file holds the differences of the
files so far, one after another, and every other place holds what it held before the run
(`HoldsDifferences`, `runFrom_holds`).

What is rendered for a file is told from what it held before the run: no file of the batch is the
file for differences (`LeavesOut`), and nothing else changes.  A job that changes files does not touch
the file for differences at all (`runFrom_face?`).
-/
import Mathlib
import MarkerBlock.Proofs.Job.Differences

namespace MarkerBlock.Job

variable {job : Job} {page : CodePage} {s : Surroundings} {T t : FileTree} {path saved : Path}
  {paths : List Path} {lists : Lists} {place : Place} {text : List Char}

/-! ## §1 What is to be in the file -/

/-- The differences of the files that are reported to lack the block, one after another in the order
of the files, and nothing for the others.  When a file comes up, it has the octets it had in `T`. -/
inductive Differences (job : Job) (page : CodePage) (s : Surroundings) (T : FileTree) :
    List Path → List FileReport → List Char → Prop
  | nil : Differences job page s T [] [] []
  | missing {path : Path} {r : FileReport} {octets : List UInt8} {now : FileTree}
      {before after text more : List Char} {paths : List Path} {reports : List FileReport} :
      r.action = .missing → T.read s.cwd path = .ok octets →
      job.IsDifference page s now path r octets before after text →
      Differences job page s T paths reports more →
      Differences job page s T (path :: paths) (r :: reports) (text ++ more)
  | other {path : Path} {r : FileReport} {more : List Char} {paths : List Path}
      {reports : List FileReport} :
      r.action ≠ .missing → Differences job page s T paths reports more →
      Differences job page s T (path :: paths) (r :: reports) more

/-! ## §2 The file for differences -/

/-- In `t`, which a run has reached from `T`, the file for differences at `place` holds `text`, and
everything else is as it was. -/
structure HoldsDifferences (s : Surroundings) (T : FileTree) (saved : Path) (place : Place)
    (t : FileTree) (text : List Char) : Prop where
  /-- The file could be written before the run, and that is where. -/
  target : ∃ before, T.target s.cwd saved = .ok (place, before)
  grown : ∀ q, FileTree.Grown (T.node? q) (t.node? q)
  contents : t.face? place = some (.file (Encoding.Utf8.encode text))
  others : ∀ q, q ≠ place → t.face? q = T.face? q

theorem HoldsDifferences.placeOf? (h : HoldsDifferences s T saved place t text) :
    T.placeOf? s.cwd saved = some place := by
  obtain ⟨before, htarget⟩ := h.target
  exact FileTree.placeOf?_of_target htarget

theorem HoldsDifferences.read (h : HoldsDifferences s T saved place t text) :
    t.read s.cwd saved = .ok (Encoding.Utf8.encode text) := by
  have hplace : t.placeOf? s.cwd saved = some place := by
    rw [FileTree.placeOf?_of_grown h.grown, h.placeOf?]
  rw [FileTree.read_eq_ok_iff_look?, FileTree.look?_of_placeOf? hplace, h.contents]

/-- A path that leads elsewhere shows what it showed before the run. -/
theorem HoldsDifferences.look? (h : HoldsDifferences s T saved place t text)
    (hpath : T.placeOf? s.cwd path ≠ some place) : t.look? s.cwd path = T.look? s.cwd path := by
  refine FileTree.look?_of_grown h.grown fun q hq => h.others q ?_
  rintro rfl
  exact hpath hq

/-- At the start of a run the file is empty. -/
theorem holds_prepared (hsaved : job.diffs.saved = some saved)
    (hprepare : job.diffs.prepare T s.cwd = .ok t) :
    ∃ place, HoldsDifferences s T saved place t [] := by
  unfold Diff.Output.prepare at hprepare
  rw [hsaved] at hprepare
  simp only at hprepare
  split at hprepare
  · next hwrite =>
    cases hprepare
    obtain ⟨place, before, htarget, rfl⟩ := FileTree.write_eq_ok hwrite
    have hface (q : Place) := FileTree.face?_set_target (q := q) htarget []
    refine ⟨place, ⟨before, htarget⟩, FileTree.grown_set_target htarget [], ?_, fun q hq => ?_⟩
    · rw [hface, if_pos rfl]
      rfl
    · rw [hface, if_neg hq]
  · cases hprepare

/-- More text can be put at the end of the file. -/
theorem HoldsDifferences.append (h : HoldsDifferences s T saved place t text) (more : List Char) :
    ∃ t', t.append s.cwd saved (Encoding.Utf8.encode more) = .ok t' ∧
      HoldsDifferences s T saved place t' (text ++ more) := by
  obtain ⟨before, htarget⟩ := h.target
  obtain ⟨now, htarget'⟩ := FileTree.target_of_grown h.grown htarget
  have hnow : now = Encoding.Utf8.encode text := by
    rcases FileTree.face?_of_target htarget' with hface | ⟨hface, -⟩
    · rw [h.contents] at hface
      cases hface
      rfl
    · rw [h.contents] at hface
      cases hface
  refine ⟨t.set place (.file (now ++ Encoding.Utf8.encode more)), ?_, ?_⟩
  · rw [FileTree.append, htarget']
    rfl
  · have hface (q : Place) := FileTree.face?_set_target (q := q) htarget' (now ++ Encoding.Utf8.encode more)
    refine ⟨h.target, fun q => (h.grown q).trans (FileTree.grown_set_target htarget' _ q), ?_,
      fun q hq => ?_⟩
    · rw [hface, if_pos rfl, hnow, Encoding.Utf8.encode_append]
    · rw [hface, if_neg hq, h.others q hq]

/-! ## §3 One file -/

theorem Differences.cons {r : FileReport} {reports : List FileReport} {first more : List Char}
    (hfirst : Differences job page s T [path] [r] first)
    (hmore : Differences job page s T paths reports more) :
    Differences job page s T (path :: paths) (r :: reports) (first ++ more) := by
  cases hfirst with
  | missing haction hread hdifference hnone =>
    cases hnone
    rw [List.append_nil]
    exact .missing haction hread hdifference hmore
  | other haction hnone =>
    cases hnone
    exact .other haction hmore

/-- Nothing is put at the end for a file that is not reported to lack the block. -/
theorem HoldsDifferences.other (h : HoldsDifferences s T saved place t text) {r : FileReport}
    (haction : r.action ≠ .missing) :
    ∃ more, Differences job page s T [path] [r] more ∧
      HoldsDifferences s T saved place t (text ++ more) :=
  ⟨[], .other haction .nil, by rwa [List.append_nil]⟩

theorem examine_holds (h : HoldsDifferences s T saved place t text)
    (hsaved : job.diffs.saved = some saved) (path : Path) (i : Insertion) :
    HoldsDifferences s T saved place (job.examine s t path i).tree
      (text ++ Diff.render (displayPath s path) i.before i.after) := by
  have henabled : job.diffs.isEnabled = true := by simp [Diff.Output.isEnabled, hsaved]
  obtain ⟨t', happend, hnext⟩ := h.append (Diff.render (displayPath s path) i.before i.after)
  have hsave : job.diffs.save t s.cwd (Diff.render (displayPath s path) i.before i.after) =
      .ok t' := by
    unfold Diff.Output.save
    rw [hsaved]
    simp only [happend]
  unfold examine
  rw [if_pos henabled]
  simp only [hsave]
  exact hnext

/-- Work on a file puts its difference at the end, if it needs the block. -/
theorem ensure_holds (h : HoldsDifferences s T saved place t text)
    (hexamines : job.modifies = false) (hsaved : job.diffs.saved = some saved)
    (hpath : T.placeOf? s.cwd path ≠ some place) (page : CodePage) :
    ∃ more, Differences job page s T [path] [reportOf page (displayPath s path)
        (job.ensure page s t path).1 (job.ensure page s t path).2.result] more ∧
      HoldsDifferences s T saved place (job.ensure page s t path).2.tree (text ++ more) := by
  by_cases hmissing : (job.ensure page s t path).2.result = .ok .missing
  · obtain ⟨octets, i, hdifference, hexamine⟩ := ensure_missing hmissing
    have htree : (job.ensure page s t path).2.tree =
        (job.ensureAs page s t path (job.found page s t path)).tree := rfl
    have hread : T.read s.cwd path = .ok octets := by
      rw [FileTree.read_eq_ok_iff_look?, ← h.look? hpath, ← FileTree.read_eq_ok_iff_look?,
        hdifference.read]
    rw [hmissing, htree, hexamine]
    refine ⟨_, ?_, examine_holds h hsaved path i⟩
    rw [← List.append_nil (Diff.render _ _ _)]
    exact .missing rfl hread hdifference .nil
  · have hsame : (job.ensure page s t path).2.tree = t := by
      have hmeans := ensure_means job page s t path
      rw [Means] at hmeans
      split at hmeans
      · exact hmeans
      · exact hmeans
      · next hresult => exact absurd hresult hmissing
      · rw [hexamines] at hmeans
        cases hmeans.1
    rw [hsame]
    exact h.other (mt result_of_missing hmissing)

/-- A link is skipped. -/
theorem step_of_link {target : Path} (h : t.statLink s.cwd path = .ok (.link target))
    (job : Job) (page : CodePage) (lists : Lists) :
    ∃ remarks, job.step page s t lists path = .ok
      { tree := t, lists, report := .skipped (displayPath s path) SkipReason.symlink.message
        isIssue := false, remarks } := by
  unfold step judge
  rw [h]
  exact ⟨_, rfl⟩

/-- The file that `saved` leads to is none of the files of a batch.  There may be links to it. -/
def LeavesOut (s : Surroundings) (T : FileTree) (paths : List Path) (saved : Path) : Prop :=
  ∀ path ∈ paths, T.placeOf? s.cwd path = T.placeOf? s.cwd saved →
    ∃ target, T.statLink s.cwd path = .ok (.link target)

/-- A step skips a file or works on one that is not left out. -/
theorem LeavesOut.step (h : LeavesOut s T paths saved) (hpath : path ∈ paths)
    (hplace : T.placeOf? s.cwd saved = some place)
    (hgrown : ∀ q, FileTree.Grown (T.node? q) (t.node? q)) {done : Step}
    (hstep : job.step page s t lists path = .ok done) :
    (∃ reason : SkipReason, done.tree = t ∧
      done.report = .skipped (displayPath s path) reason.message) ∨
    (T.placeOf? s.cwd path ≠ some place ∧ done.tree = (job.ensure page s t path).2.tree ∧
      done.report = reportOf page (displayPath s path) (job.ensure page s t path).1
        (job.ensure page s t path).2.result) := by
  by_cases hthere : T.placeOf? s.cwd path = some place
  · obtain ⟨target, hlink⟩ := h path hpath (hthere.trans hplace.symm)
    obtain ⟨node, hlink', halike⟩ := FileTree.statLink_of_grown hgrown hlink
    cases halike
    obtain ⟨remarks, hskips⟩ := step_of_link hlink' job page lists
    rw [hstep] at hskips
    cases hskips
    exact .inl ⟨.symlink, rfl, rfl⟩
  · exact (step_eq_ok hstep).imp_right fun hworked => ⟨hthere, hworked⟩

theorem step_holds (h : HoldsDifferences s T saved place t text)
    (hexamines : job.modifies = false) (hsaved : job.diffs.saved = some saved)
    (hbatch : LeavesOut s T paths saved) (hpath : path ∈ paths) {done : Step}
    (hstep : job.step page s t lists path = .ok done) :
    ∃ more, Differences job page s T [path] [done.report] more ∧
      HoldsDifferences s T saved place done.tree (text ++ more) := by
  rcases hbatch.step hpath h.placeOf? h.grown hstep with ⟨reason, htree, hreport⟩ | ⟨hthere, htree, hreport⟩
  · rw [htree, hreport]
    exact h.other (by rintro ⟨⟩)
  · rw [htree, hreport]
    exact ensure_holds h hexamines hsaved hthere page

/-! ## §4 The run -/

/-- A batch that only examines puts the differences of its files at the end, up to where it
ends. -/
theorem runFrom_holds (h : HoldsDifferences s T saved place t text)
    (hexamines : job.modifies = false) (hsaved : job.diffs.saved = some saved)
    (hbatch : LeavesOut s T paths saved) {rest : List Path} (hrest : rest ⊆ paths) (page : CodePage)
    (lists : Lists) :
    ∃ front more, front <+: rest ∧
      ((job.runFrom page s t lists rest).error = none → front = rest) ∧
      Differences job page s T front (job.runFrom page s t lists rest).reports more ∧
      HoldsDifferences s T saved place (job.runFrom page s t lists rest).tree (text ++ more) := by
  induction rest generalizing t lists text with
  | nil => exact ⟨[], [], List.nil_prefix, fun _ => rfl, .nil, by rwa [List.append_nil]⟩
  | cons path rest ih =>
    obtain ⟨hpath, hrest⟩ := List.cons_subset.mp hrest
    unfold runFrom
    cases hstep : job.step page s t lists path with
    | error e =>
      refine ⟨[], [], List.nil_prefix, ?_, .nil, by rwa [List.append_nil]⟩
      intro hends
      cases hends
    | ok done =>
      obtain ⟨first, hfirst, hholds⟩ := step_holds h hexamines hsaved hbatch hpath hstep
      obtain ⟨front, more, hfront, hall, hmore, hafter⟩ := ih hholds hrest done.lists
      refine ⟨path :: front, first ++ more, List.cons_prefix_cons.mpr ⟨rfl, hfront⟩, ?_,
        hfirst.cons hmore, ?_⟩
      · exact fun hends => congrArg (path :: ·) (hall hends)
      · rwa [← List.append_assoc]

/-- A batch that changes files does not touch what it leaves out. -/
theorem runFrom_face? (hmodifies : job.modifies = true) (hbatch : LeavesOut s T paths saved)
    (hplace : T.placeOf? s.cwd saved = some place)
    (hgrown : ∀ q, FileTree.Grown (T.node? q) (t.node? q)) {rest : List Path} (hrest : rest ⊆ paths)
    (page : CodePage) (lists : Lists) :
    (job.runFrom page s t lists rest).tree.face? place = t.face? place := by
  induction rest generalizing t lists with
  | nil => rfl
  | cons path rest ih =>
    obtain ⟨hpath, hrest⟩ := List.cons_subset.mp hrest
    unfold runFrom
    cases hstep : job.step page s t lists path with
    | error e => rfl
    | ok done =>
      have hworked : Worked job page s [path] t done.tree :=
        worked_of_eq List.mem_cons_self (step_tree hstep)
      have hface : done.tree.face? place = t.face? place := by
        rcases hbatch.step hpath hplace hgrown hstep with ⟨-, htree, -⟩ | ⟨hthere, -, -⟩
        · rw [htree]
        · refine hworked.face? fun other hother p hp => ?_
          rw [List.mem_singleton.mp hother, touched?, if_pos hmodifies] at hp
          rw [FileTree.placeOf?_of_grown hgrown, ← Option.some.inj hp]
          exact hthere
      rw [← hface]
      exact ih (fun q => (hgrown q).trans (hworked.grown q)) hrest done.lists

/-- The file for differences is emptied at the start of a run, whatever was in it.  If the job only
examines, it holds at the end the differences of the files that are reported to lack the block, in
the order of the files and nothing else, and no other place has changed; and if the batch was not
ended early, these are all its files.  If the job changes files, it stays empty. -/
theorem run_saves_differences (hsaved : job.diffs.saved = some saved)
    (hprepare : job.diffs.prepare T s.cwd = .ok t) (hbatch : LeavesOut s T paths saved)
    (page : CodePage) :
    (job.modifies = false → ∃ front text, front <+: paths ∧
      ((job.run page s t paths).error = none → front = paths) ∧
      Differences job page s T front (job.run page s t paths).reports text ∧
      (job.run page s t paths).tree.read s.cwd saved = .ok (Encoding.Utf8.encode text) ∧
      ∀ q, T.placeOf? s.cwd saved ≠ some q → (job.run page s t paths).tree.face? q = T.face? q) ∧
    (job.modifies = true → (job.run page s t paths).tree.read s.cwd saved = .ok []) := by
  obtain ⟨place, hempty⟩ := holds_prepared hsaved hprepare
  obtain ⟨htree, hreports, herror⟩ := Batch.of_silent_eq (run_silent_eq job page s t paths)
  rw [htree, hreports, herror]
  constructor
  · intro hexamines
    obtain ⟨front, text, hfront, hall, hdifferences, hholds⟩ :=
      runFrom_holds hempty hexamines hsaved hbatch (List.Subset.refl paths) page []
    rw [List.nil_append] at hholds
    refine ⟨front, text, hfront, hall, hdifferences, hholds.read, fun q hq => hholds.others q ?_⟩
    rintro rfl
    exact hq hholds.placeOf?
  · intro hmodifies
    have hplace : (job.runFrom page s t [] paths).tree.placeOf? s.cwd saved = some place := by
      rw [FileTree.placeOf?_of_grown (worked_runFrom job page s t [] paths).grown,
        FileTree.placeOf?_of_grown hempty.grown, hempty.placeOf?]
    rw [FileTree.read_eq_ok_iff_look?, FileTree.look?_of_placeOf? hplace,
      runFrom_face? hmodifies hbatch hempty.placeOf? hempty.grown (List.Subset.refl paths) page [],
      hempty.contents]
    rfl

/-- A job that keeps differences at `/d`. -/
def keepingJob (modifies : Bool) : Job :=
  { braceJob with modifies, diffs := { saved := some ⟨['/', 'd']⟩ } }

/-- A file for differences, a link to it, a file that lacks the block and one that has the marker. -/
def withDifferences (octets : List UInt8) : FileTree :=
  ⟨[(['d'], .file octets), (['l'], .link ⟨['d']⟩), (['x'], .file [0x61]), (['y'], .file [0x6D])]⟩

/-- All but the file for differences, and the file without the block twice. -/
def otherFiles : List Path := [⟨['/', 'x']⟩, ⟨['/', 'l']⟩, ⟨['/', 'y']⟩, ⟨['/', 'x']⟩]

theorem otherFiles_leavesOut (octets : List UInt8) :
    LeavesOut atRoot (withDifferences octets) otherFiles ⟨['/', 'd']⟩ := by
  have hsaved : (withDifferences octets).placeOf? atRoot.cwd ⟨['/', 'd']⟩ = some [['d']] := by cbv
  have hx : (withDifferences octets).placeOf? atRoot.cwd ⟨['/', 'x']⟩ = some [['x']] := by cbv
  have hy : (withDifferences octets).placeOf? atRoot.cwd ⟨['/', 'y']⟩ = some [['y']] := by cbv
  have hlink : (withDifferences octets).statLink atRoot.cwd ⟨['/', 'l']⟩ = .ok (.link ⟨['d']⟩) := by
    cbv
  unfold LeavesOut otherFiles
  simp only [List.forall_mem_cons, hsaved, hx, hy]
  simp [hlink]

/-- The difference of the file without the block. -/
def keptDifference : List Char :=
  ("--- x\n+++ x\n@@ -1 +1,2 @@\n-a\n\x5c No newline at end of file\n" ++
    "+a\n+\x7b\n\x5c No newline at end of file\n").toList

theorem render_keptDifference :
    Diff.render (displayPath atRoot ⟨['/', 'x']⟩) ['a'] ['a', '\n', '{'] = keptDifference := by
  decide +kernel

theorem keepingJob_isRegular (octets : List UInt8) :
    (keepingJob false).IsRegular atRoot (withDifferences octets) ⟨['/', 'x']⟩ ⟨['/']⟩ [0x61] ∧
    (keepingJob false).IsRegular atRoot (withDifferences octets) ⟨['/', 'y']⟩ ⟨['/']⟩ [0x6D] :=
  ⟨⟨by cbv, by cbv, rfl, by decide⟩, ⟨by cbv, by cbv, rfl, by decide⟩⟩

theorem keepingJob_load (octets : List UInt8) :
    (IgnoreList.load atRoot (withDifferences octets) { globs := [] } ⟨['/']⟩ ⟨['/']⟩).1 =
      .ok (listOf ⟨['/']⟩ []) := by cbv

/-- Work on the file without the block puts its difference at the end. -/
theorem keepingJob_ensure (octets : List UInt8) :
    ((keepingJob false).ensure .windows1252 atRoot (withDifferences octets) ⟨['/', 'x']⟩).2.tree =
      withDifferences (octets ++ Encoding.Utf8.encode keptDifference) := by
  have hlook := (keepingJob_isRegular octets).1.look
  have hplan : plan .windows1252 (keepingJob false).inserter .ascii [0x61] =
      .ok (some ⟨['a'], ['a', '\n', '{'], [0x61, 0x0A, 0x7B]⟩) := rfl
  have happend (more : List UInt8) : (withDifferences octets).append atRoot.cwd ⟨['/', 'd']⟩ more =
      .ok (withDifferences (octets ++ more)) := by cbv
  rw [ensure_tree_of_examine rfl hlook hplan, examine, if_pos (by decide), render_keptDifference]
  simp only [Diff.Output.save, keepingJob, happend]

/-- The four files, one after another. -/
theorem keepingJob_run :
    ((keepingJob false).run .windows1252 atRoot (withDifferences []) otherFiles).error = none ∧
    ((keepingJob false).run .windows1252 atRoot (withDifferences []) otherFiles).tree =
      withDifferences (Encoding.Utf8.encode (keptDifference ++ keptDifference)) := by
  obtain ⟨kept, hkept⟩ : ∃ kept, kept = Encoding.Utf8.encode keptDifference := ⟨_, rfl⟩
  have hlink : (withDifferences kept).statLink atRoot.cwd ⟨['/', 'l']⟩ = .ok (.link ⟨['d']⟩) := by
    cbv
  have hfree (path : Path) : (listOf ⟨['/']⟩ []).cause? path = none :=
    IgnoreList.cause?_of_no_rules _ _
  have hlist : (keepingJob false).listFor atRoot (withDifferences kept)
      [(Path.components ⟨['/']⟩, listOf ⟨['/']⟩ [])] ⟨['/']⟩ =
        .ok (listOf ⟨['/']⟩ [], [(Path.components ⟨['/']⟩, listOf ⟨['/']⟩ [])], []) :=
    listFor_same rfl _
  obtain ⟨hx, hy⟩ := keepingJob_isRegular kept
  obtain ⟨_, hload⟩ := listFor_of_load (keepingJob false) List.find?_nil (keepingJob_load [])
  obtain ⟨_, hfirst⟩ := (keepingJob_isRegular []).1.step_eq hload (hfree _) .windows1252
  obtain ⟨_, hsecond⟩ := step_of_link hlink (keepingJob false) .windows1252
    [(Path.components ⟨['/']⟩, listOf ⟨['/']⟩ [])]
  obtain ⟨_, hthird⟩ := hy.step_eq hlist (hfree _) .windows1252
  obtain ⟨_, hfourth⟩ := hx.step_eq hlist (hfree _) .windows1252
  rw [keepingJob_ensure, List.nil_append, ← hkept] at hfirst
  rw [ensure_tree_of_plan hy.look rfl] at hthird
  rw [keepingJob_ensure] at hfourth
  simp only [otherFiles, run, runFrom, hfirst, hsecond, hthird, hfourth]
  rw [hkept, ← Encoding.Utf8.encode_append]
  exact ⟨rfl, rfl⟩

/-- What an earlier run left in the file is not kept, the link to it is skipped, and the file holds
the difference of `/x` twice. -/
theorem run_saves_differences_of_leftover :
    (withDifferences [0x73]).placeOf? atRoot.cwd ⟨['/', 'd']⟩ = some [['d']] ∧
    (∀ modifies, (keepingJob modifies).diffs.prepare (withDifferences [0x73]) atRoot.cwd =
      .ok (withDifferences [])) ∧
    LeavesOut atRoot (withDifferences [0x73]) otherFiles ⟨['/', 'd']⟩ ∧
    Differences (keepingJob false) .windows1252 atRoot (withDifferences [0x73]) otherFiles
      ((keepingJob false).run .windows1252 atRoot (withDifferences []) otherFiles).reports
      (keptDifference ++ keptDifference) ∧
    ((keepingJob false).run .windows1252 atRoot (withDifferences []) otherFiles).tree.read
      atRoot.cwd ⟨['/', 'd']⟩ = .ok (Encoding.Utf8.encode (keptDifference ++ keptDifference)) ∧
    (∀ q, (withDifferences [0x73]).placeOf? atRoot.cwd ⟨['/', 'd']⟩ ≠ some q →
      ((keepingJob false).run .windows1252 atRoot (withDifferences []) otherFiles).tree.face? q =
        (withDifferences [0x73]).face? q) ∧
    ((keepingJob true).run .windows1252 atRoot (withDifferences []) otherFiles).tree.read
      atRoot.cwd ⟨['/', 'd']⟩ = .ok [] := by
  have hprepare (modifies : Bool) :
      (keepingJob modifies).diffs.prepare (withDifferences [0x73]) atRoot.cwd =
        .ok (withDifferences []) := by cbv
  have hholds (octets : List UInt8) :
      (withDifferences octets).read atRoot.cwd ⟨['/', 'd']⟩ = .ok octets := by cbv
  have hbatch := otherFiles_leavesOut [0x73]
  obtain ⟨herror, htree⟩ := keepingJob_run
  obtain ⟨front, text, -, hall, hdifferences, hread, hframe⟩ :=
    (run_saves_differences rfl (hprepare false) hbatch .windows1252).1 rfl
  obtain rfl := hall herror
  have htext : text = keptDifference ++ keptDifference := by
    rw [htree, hholds] at hread
    exact (Encoding.Utf8.encode_injective (Except.ok.inj hread)).symm
  rw [htext] at hdifferences hread
  exact ⟨by cbv, hprepare, hbatch, hdifferences, hread, hframe,
    (run_saves_differences rfl (hprepare true) hbatch .windows1252).2 rfl⟩

end MarkerBlock.Job
