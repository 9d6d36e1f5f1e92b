/-
MarkerBlock.Proofs.Job.Batch — a batch is the plain loop over its files.

The plain loop (`runPlainly`) keeps nothing between files but the tree: the ignore
files of a file's directory are loaded when the file comes up.  A batch loads them
once for a directory.  What carries the comparison is that every list that is kept is
the one that would be loaded from the first tree (`Kept`), and that no file of the
batch changes what is loaded.

An ignore file that cannot be loaded ends the loop; what was done before is what the
loop does on the files before (`runPlainly_error`).
-/
import Mathlib
import MarkerBlock.Job.Batch
import MarkerBlock.Proofs.Job.Frame

namespace MarkerBlock.Job

variable {job : Job} {page : CodePage} {s : Surroundings} {T tree : FileTree} {path : Path}
  {paths : List Path} {lists : Lists}

/-! ## §1 What is decided -/

/-- What was decided about a file, if anything could be. -/
def verdict (judged : Except (Ignore.Error × List Remark) Judged) :
    Option (Option SkipReason × Lists) :=
  judged.toOption.map fun j => (j.reason, j.lists)

/-- A file is skipped or worked on by what is decided about it. -/
theorem step_of_verdict (job : Job) (page : CodePage) (s : Surroundings) (tree : FileTree)
    (lists : Lists) (path : Path) :
    match verdict (job.judge s tree lists path) with
    | none => ∃ e, job.step page s tree lists path = .error e
    | some (some reason, lists') => ∃ remarks, job.step page s tree lists path =
        .ok { tree, lists := lists'
              report := .skipped (displayPath s path) reason.message, isIssue := false, remarks }
    | some (none, lists') =>
      let report := reportOf page (displayPath s path) (job.ensure page s tree path).1
        (job.ensure page s tree path).2.result
      ∃ remarks, job.step page s tree lists path =
        .ok { tree := (job.ensure page s tree path).2.tree, lists := lists'
              report, isIssue := report.isIssue, remarks } := by
  unfold step
  rcases job.judge s tree lists path with e | ⟨_ | reason, lists', remarks⟩
  · exact ⟨e, rfl⟩
  · exact ⟨_, rfl⟩
  · exact ⟨_, rfl⟩

/-- What a step does that does not end the batch: the file is skipped, or it is worked on. -/
theorem step_eq_ok {done : Step} (h : job.step page s tree lists path = .ok done) :
    (∃ reason : SkipReason, done.tree = tree ∧
      done.report = .skipped (displayPath s path) reason.message) ∨
    (done.tree = (job.ensure page s tree path).2.tree ∧
      done.report = reportOf page (displayPath s path) (job.ensure page s tree path).1
        (job.ensure page s tree path).2.result) := by
  have hstep := step_of_verdict job page s tree lists path
  split at hstep
  · obtain ⟨e, herror⟩ := hstep
    rw [h] at herror
    cases herror
  · next reason _ _ =>
    obtain ⟨remarks, hskipped⟩ := hstep
    rw [h] at hskipped
    cases hskipped
    exact .inl ⟨reason, rfl, rfl⟩
  · obtain ⟨remarks, hworked⟩ := hstep
    rw [h] at hworked
    cases hworked
    exact .inr ⟨rfl, rfl⟩

/-- A file is an issue if its report is one.  Files that are skipped are none. -/
theorem step_isIssue {done : Step} (h : job.step page s tree lists path = .ok done) :
    done.isIssue = done.report.isIssue := by
  have hstep := step_of_verdict job page s tree lists path
  split at hstep
  · obtain ⟨e, herror⟩ := hstep
    rw [h] at herror
    cases herror
  · obtain ⟨remarks, hskipped⟩ := hstep
    rw [h] at hskipped
    cases hskipped
    rfl
  · obtain ⟨remarks, hworked⟩ := hstep
    rw [h] at hworked
    cases hworked
    rfl

/-- What a batch carries from file to file agrees with its reports. -/
theorem runFrom_hasIssues (job : Job) (page : CodePage) (s : Surroundings) (tree : FileTree)
    (lists : Lists) (paths : List Path) :
    (job.runFrom page s tree lists paths).hasIssues =
      (job.runFrom page s tree lists paths).reports.any (·.isIssue) := by
  induction paths generalizing tree lists with
  | nil => rfl
  | cons path rest ih =>
    unfold runFrom
    cases hstep : job.step page s tree lists path with
    | error e => rfl
    | ok done =>
      simp only
      rw [List.any_cons, step_isIssue hstep, ih]

/-- A batch has issues if a file failed or lacks the block, as far as it got. -/
theorem run_hasIssues (job : Job) (page : CodePage) (s : Surroundings) (tree : FileTree)
    (paths : List Path) :
    (job.run page s tree paths).hasIssues =
      (job.run page s tree paths).reports.any (·.isIssue) := by
  unfold run
  split
  · rfl
  · exact runFrom_hasIssues job page s tree [] paths

/-! ## §2 The plain loop -/

/-- Why a file is skipped, if it is, by the ignore files that are there now. -/
def reason? (job : Job) (s : Surroundings) (tree : FileTree) (path : Path) :
    Except Ignore.Error (Option SkipReason) :=
  match tree.statLink s.cwd path with
  | .ok (.link _) => .ok (some .symlink)
  | .error e => .ok (some (.unstatable e))
  | .ok _ =>
    match job.filter.judge (path.relativeTo job.workspace) with
    | some reason => .ok (some reason)
    | none =>
      match path.parent? with
      | none => .ok none
      | some directory =>
        (IgnoreList.load s tree { globs := [] } directory job.workspace).1.map fun list =>
          (list.cause? path).map .ignored

/-- Skip a file or make sure that it has the block, and report on it. -/
def visit (job : Job) (page : CodePage) (s : Surroundings) (tree : FileTree) (path : Path) :
    Except Ignore.Error (FileTree × FileReport) :=
  (job.reason? s tree path).map fun
    | some reason => (tree, .skipped (displayPath s path) reason.message)
    | none =>
      let (e, handled) := job.ensure page s tree path
      (handled.tree, reportOf page (displayPath s path) e handled.result)

/-- Visit files in order, until the ignore files of one cannot be loaded. -/
def runPlainly (job : Job) (page : CodePage) (s : Surroundings) : FileTree → List Path → Batch
  | tree, [] => { tree }
  | tree, path :: rest =>
    match job.visit page s tree path with
    | .error e => { tree, error := some e }
    | .ok (tree, report) =>
      let after := runPlainly job page s tree rest
      { after with
        reports := report :: after.reports
        hasIssues := report.isIssue || after.hasIssues }

/-! ## §3 Lists that are kept -/

/-- Files in one directory write it in ways between which the loading of ignore files
makes no difference. -/
def SpellsAlike (job : Job) (paths : List Path) : Prop :=
  ∀ p ∈ paths, ∀ q ∈ paths, ∀ d d', p.parent? = some d → q.parent? = some d' →
    d.components = d'.components → IgnoreList.SpelledAlike job.workspace d d'

/-- Every list that is kept is what is loaded from `T` for the directory of some file. -/
def Kept (job : Job) (s : Surroundings) (T : FileTree) (paths : List Path) (lists : Lists) : Prop :=
  ∀ entry ∈ lists, ∃ p ∈ paths, ∃ d, p.parent? = some d ∧ entry.1 = d.components ∧
    (IgnoreList.load s T { globs := [] } d job.workspace).1 = .ok entry.2

theorem listFor_of_kept {d : Path} {entry : List Path.Component × IgnoreList}
    (h : lists.find? (fun entry => entry.1 == d.components) = some entry) :
    job.listFor s tree lists d = .ok (entry.2, lists, []) := by
  unfold listFor
  simp only [h]

theorem listFor_of_none {d : Path}
    (h : lists.find? (fun entry => entry.1 == d.components) = none) :
    job.listFor s tree lists d =
      match IgnoreList.load s tree { globs := [] } d job.workspace with
      | (.ok list, remarks) => .ok (list, (d.components, list) :: lists, remarks)
      | (.error e, remarks) => .error (e, remarks) := by
  unfold listFor
  rcases IgnoreList.load s tree { globs := [] } d job.workspace with ⟨_ | list, remarks⟩ <;>
    simp only [h]

/-- A list that is kept, or loaded now, decides as one that is loaded now. -/
theorem listFor_spec (hkept : job.Kept s T paths lists) (hspells : job.SpellsAlike paths)
    (hsame : IgnoreList.SameIgnoreFiles s T tree) (hpath : path ∈ paths) {d : Path}
    (hd : path.parent? = some d) :
    match job.listFor s tree lists d with
    | .error e => (IgnoreList.load s tree { globs := [] } d job.workspace).1 = .error e.1
    | .ok (list, lists', _) => job.Kept s T paths lists' ∧
        ∃ loaded, (IgnoreList.load s tree { globs := [] } d job.workspace).1 = .ok loaded ∧
          loaded.cause? path = list.cause? path := by
  cases hfind : lists.find? fun entry => entry.1 == d.components with
  | some entry =>
    obtain ⟨p, hp, d', hd', hkey, hload⟩ := hkept entry (List.mem_of_find?_eq_some hfind)
    have hcomponents : d'.components = d.components := by
      rw [← hkey]
      simpa using List.find?_some hfind
    rw [listFor_of_kept hfind]
    exact ⟨hkept, IgnoreList.load_alike (hspells p hp path hpath d' d hd' hd hcomponents) hsame hd hload⟩
  | none =>
    have hfirst := IgnoreList.toOption_load hsame { globs := [] } d job.workspace
    rw [listFor_of_none hfind]
    generalize IgnoreList.load s tree { globs := [] } d job.workspace = now at hfirst
    obtain ⟨_ | list, remarks⟩ := now
    · exact rfl
    · refine ⟨?_, list, rfl, rfl⟩
      intro entry hentry
      rcases List.mem_cons.mp hentry with rfl | hentry
      · refine ⟨path, hpath, d, hd, rfl, ?_⟩
        generalize (IgnoreList.load s T { globs := [] } d job.workspace).1 = first at hfirst
        cases first with
        | error e => cases hfirst
        | ok list' =>
          cases hfirst
          rfl
      · exact hkept entry hentry

/-- A file is skipped in a batch for the reason it is skipped for in the plain loop. -/
theorem judge_spec (hkept : job.Kept s T paths lists) (hspells : job.SpellsAlike paths)
    (hsame : IgnoreList.SameIgnoreFiles s T tree) (hpath : path ∈ paths) :
    match job.judge s tree lists path with
    | .error e => job.reason? s tree path = .error e.1
    | .ok judged => job.reason? s tree path = .ok judged.reason ∧
        job.Kept s T paths judged.lists := by
  unfold judge reason?
  cases hstat : tree.statLink s.cwd path with
  | error e => exact ⟨rfl, hkept⟩
  | ok node =>
    cases node with
    | link target => exact ⟨rfl, hkept⟩
    | _ =>
      simp only
      cases hfilter : job.filter.judge (path.relativeTo job.workspace) with
      | some reason => exact ⟨rfl, hkept⟩
      | none =>
        cases hd : path.parent? with
        | none => exact ⟨rfl, hkept⟩
        | some d =>
          have hlist := listFor_spec hkept hspells hsame hpath hd
          simp only
          generalize job.listFor s tree lists d = found at hlist
          rcases found with e | ⟨list, lists', remarks⟩
          · rw [hlist]
            rfl
          · obtain ⟨hkept', loaded, hload, hcause⟩ := hlist
            simp only [hload, Except.map, hcause]
            cases list.cause? path with
            | none => exact ⟨rfl, hkept'⟩
            | some cause => exact ⟨rfl, hkept'⟩

/-- One file of a batch comes to what it comes to in the plain loop. -/
theorem step_spec (hkept : job.Kept s T paths lists) (hspells : job.SpellsAlike paths)
    (hsame : IgnoreList.SameIgnoreFiles s T tree) (hpath : path ∈ paths) (page : CodePage) :
    match job.step page s tree lists path with
    | .error e => job.visit page s tree path = .error e.1
    | .ok done => job.visit page s tree path = .ok (done.tree, done.report) ∧
        job.Kept s T paths done.lists := by
  have hjudge := judge_spec hkept hspells hsame hpath
  unfold step visit
  generalize job.judge s tree lists path = judged at hjudge
  rcases judged with e | ⟨reason, lists', remarks⟩
  · rw [hjudge]
    rfl
  · obtain ⟨hreason, hkept'⟩ := hjudge
    rw [hreason]
    cases reason with
    | some reason => exact ⟨rfl, hkept'⟩
    | none => exact ⟨rfl, hkept'⟩

/-! ## §4 The tree on the way -/

theorem visit_tree {report : FileReport} {tree' : FileTree}
    (h : job.visit page s tree path = .ok (tree', report)) :
    tree' = tree ∨ tree' = (job.ensure page s tree path).2.tree := by
  unfold visit at h
  cases hreason : job.reason? s tree path with
  | error e =>
    rw [hreason] at h
    cases h
  | ok reason =>
    rw [hreason] at h
    cases reason with
    | some reason =>
      cases h
      exact .inl rfl
    | none =>
      cases h
      exact .inr rfl

theorem step_tree {done : Step} (h : job.step page s tree lists path = .ok done) :
    done.tree = tree ∨ done.tree = (job.ensure page s tree path).2.tree :=
  (step_eq_ok h).imp (fun ⟨_, htree, _⟩ => htree) And.left

/-- A batch goes from tree to tree by work on its files. -/
theorem worked_runFrom (job : Job) (page : CodePage) (s : Surroundings) (tree : FileTree)
    (lists : Lists) (paths : List Path) :
    Worked job page s paths tree (job.runFrom page s tree lists paths).tree := by
  induction paths generalizing tree lists with
  | nil => exact .refl
  | cons path rest ih =>
    unfold runFrom
    cases hstep : job.step page s tree lists path with
    | error e => exact .refl
    | ok done =>
      have hfirst : Worked job page s (path :: rest) tree done.tree :=
        worked_of_eq List.mem_cons_self (step_tree hstep)
      exact hfirst.trans ((ih done.tree done.lists).mono (List.subset_cons_self path rest))

theorem worked_run (job : Job) (page : CodePage) (s : Surroundings) (tree : FileTree)
    (paths : List Path) : Worked job page s paths tree (job.run page s tree paths).tree := by
  unfold run
  split
  · exact .refl
  · exact worked_runFrom job page s tree [] paths

/-- The plain loop goes from tree to tree by work on its files. -/
theorem worked_runPlainly (job : Job) (page : CodePage) (s : Surroundings) (tree : FileTree)
    (paths : List Path) : Worked job page s paths tree (job.runPlainly page s tree paths).tree := by
  induction paths generalizing tree with
  | nil => exact .refl
  | cons path rest ih =>
    unfold runPlainly
    cases hvisit : job.visit page s tree path with
    | error e => exact .refl
    | ok done =>
      have hfirst : Worked job page s (path :: rest) tree done.1 :=
        worked_of_eq List.mem_cons_self (visit_tree hvisit)
      exact hfirst.trans ((ih done.1).mono (List.subset_cons_self path rest))

/-- A visited file leaves a tree that follows the first one. -/
theorem Follows.visit {rest : List Path} {report : FileReport} {tree' : FileTree}
    (h : Follows s T rest tree) (hignore : job.SparesIgnoreFiles s T path)
    (hfiles : job.SparesFiles s T path rest)
    (hvisit : job.visit page s tree path = .ok (tree', report)) : Follows s T rest tree' := by
  rcases visit_tree hvisit with rfl | rfl
  · exact h
  · exact h.ensure hignore hfiles page

/-- A batch without what it says. -/
def Batch.silent (b : Batch) : Batch := { b with remarks := [] }

theorem Batch.of_silent {b b' : Batch} (h : b.silent = b') :
    b.tree = b'.tree ∧ b.reports = b'.reports ∧ b.error = b'.error := by
  subst h
  exact ⟨rfl, rfl, rfl⟩

theorem Batch.of_silent_eq {b b' : Batch} (h : b.silent = b'.silent) :
    b.tree = b'.tree ∧ b.reports = b'.reports ∧ b.error = b'.error := by
  have hfields := Batch.of_silent h
  exact hfields

/-- From any tree on the way, and with the lists kept on the way, the batch goes on as the
plain loop does. -/
theorem runFrom_silent (hspells : job.SpellsAlike paths)
    (hspares : ∀ path ∈ paths, job.SparesIgnoreFiles s T path) {rest : List Path}
    (hrest : rest ⊆ paths) (hkept : job.Kept s T paths lists) (hfollows : Follows s T [] tree)
    (page : CodePage) :
    (job.runFrom page s tree lists rest).silent = job.runPlainly page s tree rest := by
  induction rest generalizing tree lists with
  | nil => rfl
  | cons path rest ih =>
    obtain ⟨hpath, hrest⟩ := List.cons_subset.mp hrest
    have hspec := step_spec hkept hspells hfollows.ignoreFiles hpath page
    unfold runFrom runPlainly
    cases hstep : job.step page s tree lists path with
    | error e =>
      rw [hstep] at hspec
      rw [hspec]
      rfl
    | ok done =>
      rw [hstep] at hspec
      obtain ⟨hvisit, hkept'⟩ := hspec
      have hnone : job.SparesFiles s T path [] := fun _ _ _ _ other hother => by cases hother
      have hnext := ih hrest hkept' (hfollows.visit (hspares path hpath) hnone hvisit)
      rw [hvisit]
      simp only [← hnext, step_isIssue hstep]
      rfl

theorem run_silent (hspells : job.SpellsAlike paths)
    (hspares : ∀ path ∈ paths, job.SparesIgnoreFiles s tree path) (page : CodePage) :
    (job.run page s tree paths).silent = job.runPlainly page s tree paths := by
  have hkept : job.Kept s tree paths [] := fun entry hentry => by cases hentry
  have hfrom := runFrom_silent hspells hspares (List.Subset.refl paths) hkept
    (Follows.refl s tree []) page
  unfold run
  split
  · next hempty =>
    rw [List.isEmpty_iff.mp hempty]
    rfl
  · exact hfrom

/-! ## §5 Batches that end early -/

/-- A way to work on files ended at `path`, because its ignore files could not be loaded:
what it did and reported is what it does and reports on the files before. -/
structure EndsAt (work : List Path → Batch) (job : Job) (s : Surroundings) (paths front : List Path)
    (path : Path) (rest : List Path) (e : Ignore.Error) : Prop where
  order : paths = front ++ path :: rest
  complete : (work front).error = none
  reported : (work front).reports.length = front.length
  reports : (work paths).reports = (work front).reports
  tree : (work paths).tree = (work front).tree
  cause : job.reason? s (work front).tree path = .error e

/-- Ending early does not depend on what is said. -/
theorem EndsAt.of_same {work work' : List Path → Batch} {front rest : List Path} {e : Ignore.Error}
    (h : EndsAt work job s paths front path rest e)
    (hpaths : (work' paths).silent = (work paths).silent)
    (hfront : (work' front).silent = (work front).silent) :
    EndsAt work' job s paths front path rest e := by
  obtain ⟨htree, hreports, herror⟩ := Batch.of_silent_eq hfront
  obtain ⟨htree', hreports', -⟩ := Batch.of_silent_eq hpaths
  refine ⟨h.order, ?_, ?_, ?_, ?_, ?_⟩
  · rw [herror, h.complete]
  · rw [hreports, h.reported]
  · rw [hreports, hreports', h.reports]
  · rw [htree, htree', h.tree]
  · rw [htree]
    exact h.cause

theorem EndsAt.of_silent {work work' : List Path → Batch} {front rest : List Path} {e : Ignore.Error}
    (h : EndsAt work job s paths front path rest e) (hpaths : (work' paths).silent = work paths)
    (hfront : (work' front).silent = work front) : EndsAt work' job s paths front path rest e :=
  h.of_same (congrArg Batch.silent hpaths :) (congrArg Batch.silent hfront :)

/-- Work that ends at its first file has done nothing before. -/
theorem EndsAt.first {work : List Path → Batch} {rest : List Path} {e : Ignore.Error}
    (hnone : work [] = { tree }) (hends : (work (path :: rest)).silent = { tree, error := some e })
    (hcause : job.reason? s tree path = .error e) :
    EndsAt work job s (path :: rest) [] path rest e := by
  obtain ⟨htree, hreports, -⟩ := Batch.of_silent hends
  refine ⟨rfl, ?_, ?_, ?_, ?_, ?_⟩
  · rw [hnone]
  · rw [hnone]
    rfl
  · rw [hnone, hreports]
  · rw [hnone, htree]
  · rw [hnone]
    exact hcause

/-- Work that goes on behind its first file ends where it ends from there on. -/
theorem EndsAt.later {work after : List Path → Batch} {first : Path} {report : FileReport}
    {isIssue : Bool} {front rest : List Path} {e : Ignore.Error}
    (hmore : ∀ rest, (work (first :: rest)).silent =
      Batch.silent { after rest with
        reports := report :: (after rest).reports
        hasIssues := isIssue || (after rest).hasIssues })
    (h : EndsAt after job s paths front path rest e) :
    EndsAt work job s (first :: paths) (first :: front) path rest e := by
  obtain ⟨htree, hreports, -⟩ := Batch.of_silent (hmore paths)
  obtain ⟨htree', hreports', herror'⟩ := Batch.of_silent (hmore front)
  refine ⟨?_, ?_, ?_, ?_, ?_, ?_⟩
  · rw [h.order]
    rfl
  · rw [herror']
    exact h.complete
  · rw [hreports']
    exact congrArg Nat.succ h.reported
  · rw [hreports, hreports']
    exact congrArg (report :: ·) h.reports
  · rw [htree, htree']
    exact h.tree
  · rw [htree']
    exact h.cause

theorem visit_eq_error {e : Ignore.Error} (h : job.visit page s tree path = .error e) :
    job.reason? s tree path = .error e := by
  unfold visit at h
  generalize job.reason? s tree path = reason at h
  cases reason with
  | error e' =>
    cases h
    rfl
  | ok reason => cases h

theorem runPlainly_error {e : Ignore.Error} (h : (job.runPlainly page s tree paths).error = some e) :
    ∃ front path rest, EndsAt (job.runPlainly page s tree) job s paths front path rest e := by
  induction paths generalizing tree with
  | nil => cases h
  | cons path paths ih =>
    cases hvisit : job.visit page s tree path with
    | error e' =>
      have hwhole : job.runPlainly page s tree (path :: paths) = { tree, error := some e' } := by
        rw [runPlainly, hvisit]
      rw [hwhole] at h
      cases h
      exact ⟨[], path, paths, .first rfl (congrArg Batch.silent hwhole) (visit_eq_error hvisit)⟩
    | ok done =>
      obtain ⟨tree', report⟩ := done
      have hmore (rest : List Path) : job.runPlainly page s tree (path :: rest) =
          { job.runPlainly page s tree' rest with
            reports := report :: (job.runPlainly page s tree' rest).reports
            hasIssues := report.isIssue || (job.runPlainly page s tree' rest).hasIssues } := by
        rw [runPlainly, hvisit]
      rw [hmore] at h
      obtain ⟨front, last, rest, hends⟩ := ih h
      exact ⟨path :: front, last, rest, hends.later fun rest => congrArg Batch.silent (hmore rest)⟩

/-- Only what is loaded now can fail to load. -/
theorem listFor_eq_error {d : Path} {e : Ignore.Error × List Remark}
    (h : job.listFor s tree lists d = .error e) :
    (IgnoreList.load s tree { globs := [] } d job.workspace).1 = .error e.1 := by
  cases hfind : lists.find? fun entry => entry.1 == d.components with
  | some entry =>
    rw [listFor_of_kept hfind] at h
    cases h
  | none =>
    rw [listFor_of_none hfind] at h
    generalize IgnoreList.load s tree { globs := [] } d job.workspace = loaded at h
    obtain ⟨_ | list, remarks⟩ := loaded <;> cases h
    rfl

theorem judge_eq_error {e : Ignore.Error × List Remark} (h : job.judge s tree lists path = .error e) :
    job.reason? s tree path = .error e.1 := by
  unfold judge at h
  unfold reason?
  cases hstat : tree.statLink s.cwd path with
  | error e' =>
    rw [hstat] at h
    cases h
  | ok node =>
    rw [hstat] at h
    cases node with
    | link target => cases h
    | _ =>
      simp only at h ⊢
      cases hfilter : job.filter.judge (path.relativeTo job.workspace) with
      | some reason =>
        rw [hfilter] at h
        cases h
      | none =>
        cases hd : path.parent? with
        | none =>
          rw [hfilter, hd] at h
          cases h
        | some d =>
          simp only [hfilter, hd] at h ⊢
          cases hlist : job.listFor s tree lists d with
          | error e' =>
            rw [hlist] at h
            cases h
            rw [listFor_eq_error hlist]
            rfl
          | ok found =>
            obtain ⟨list, lists', remarks⟩ := found
            simp only [hlist] at h
            split at h <;> cases h

theorem step_eq_error {e : Ignore.Error × List Remark}
    (h : job.step page s tree lists path = .error e) : job.reason? s tree path = .error e.1 := by
  unfold step at h
  cases hjudge : job.judge s tree lists path with
  | error e' =>
    rw [hjudge] at h
    cases h
    exact judge_eq_error hjudge
  | ok judged =>
    simp only [hjudge] at h
    split at h <;> cases h

theorem runFrom_error {e : Ignore.Error}
    (h : (job.runFrom page s tree lists paths).error = some e) :
    ∃ front path rest, EndsAt (job.runFrom page s tree lists) job s paths front path rest e := by
  induction paths generalizing tree lists with
  | nil => cases h
  | cons path paths ih =>
    cases hstep : job.step page s tree lists path with
    | error e' =>
      obtain ⟨e', remarks⟩ := e'
      have hwhole : job.runFrom page s tree lists (path :: paths) =
          { tree, error := some e', remarks } := by
        rw [runFrom, hstep]
      rw [hwhole] at h
      cases h
      exact ⟨[], path, paths, .first rfl (congrArg Batch.silent hwhole) (step_eq_error hstep)⟩
    | ok done =>
      have hmore (rest : List Path) : job.runFrom page s tree lists (path :: rest) =
          { job.runFrom page s done.tree done.lists rest with
            reports := done.report :: (job.runFrom page s done.tree done.lists rest).reports
            hasIssues := done.isIssue || (job.runFrom page s done.tree done.lists rest).hasIssues
            remarks := done.remarks ++ (job.runFrom page s done.tree done.lists rest).remarks } := by
        rw [runFrom, hstep]
      rw [hmore] at h
      obtain ⟨front, last, rest, hends⟩ := ih h
      have hsilent (rest : List Path) : (job.runFrom page s tree lists (path :: rest)).silent =
          Batch.silent { job.runFrom page s done.tree done.lists rest with
            reports := done.report :: (job.runFrom page s done.tree done.lists rest).reports
            hasIssues := done.isIssue || (job.runFrom page s done.tree done.lists rest).hasIssues } := by
        rw [hmore]
        rfl
      exact ⟨path :: front, last, rest, hends.later hsilent⟩

theorem run_silent_eq (job : Job) (page : CodePage) (s : Surroundings) (tree : FileTree)
    (paths : List Path) :
    (job.run page s tree paths).silent = (job.runFrom page s tree [] paths).silent := by
  unfold run
  split
  · next hempty =>
    rw [List.isEmpty_iff.mp hempty]
    rfl
  · rfl

/-- A batch that ends early has done and reported what it does and reports on the files
before the one at which it ends. -/
theorem run_error {e : Ignore.Error} (h : (job.run page s tree paths).error = some e) :
    ∃ front path rest, EndsAt (job.run page s tree) job s paths front path rest e := by
  rw [(Batch.of_silent (run_silent_eq job page s tree paths)).2.2] at h
  obtain ⟨front, path, rest, hends⟩ := runFrom_error h
  exact ⟨front, path, rest, hends.of_same (run_silent_eq job page s tree paths)
    (run_silent_eq job page s tree front)⟩

/-- The plain loop changes no place but those its files write to. -/
theorem face?_runPlainly {q : Place}
    (h : ∀ path ∈ paths, ∀ p ∈ job.touched? path, tree.placeOf? s.cwd p ≠ some q) :
    (job.runPlainly page s tree paths).tree.face? q = tree.face? q :=
  Worked.face? (worked_runPlainly job page s tree paths) h

/-! ## §6 Files that no filter holds back -/

/-- A file in the directory `d` that is no link and that the job's filter lets through. -/
structure IsRegular (job : Job) (s : Surroundings) (tree : FileTree) (path d : Path)
    (octets : List UInt8) : Prop where
  look : tree.look? s.cwd path = some (.file octets)
  stat : tree.statLink s.cwd path = .ok (.file octets)
  unfiltered : job.filter.judge (path.relativeTo job.workspace) = none
  parent : path.parent? = some d

section regular

variable {d : Path} {octets : List UInt8} {list : IgnoreList}
  (h : job.IsRegular s tree path d octets)
include h

theorem IsRegular.verdict_judge (lists : Lists) :
    verdict (job.judge s tree lists path) = (job.listFor s tree lists d).toOption.map fun found =>
      ((found.1.cause? path).map .ignored, found.2.1) := by
  unfold judge
  simp only [h.stat, h.unfiltered, h.parent]
  rcases job.listFor s tree lists d with e | ⟨list, lists', remarks⟩
  · rfl
  · cases hcause : list.cause? path <;>
      simp only [verdict, Except.toOption, Option.map_some, Option.map_none, hcause]

theorem IsRegular.reason?_eq : job.reason? s tree path =
    (IgnoreList.load s tree { globs := [] } d job.workspace).1.map fun list =>
      (list.cause? path).map .ignored := by
  unfold reason?
  simp only [h.stat, h.unfiltered, h.parent]

/-- A file that is not ignored is worked on. -/
theorem IsRegular.step_eq {lists' : Lists} {said : List Remark}
    (hlist : job.listFor s tree lists d = .ok (list, lists', said))
    (hcause : list.cause? path = none) (page : CodePage) :
    let report := job.reportFor page s path (job.found page s tree path) octets
    ∃ remarks, job.step page s tree lists path =
      .ok { tree := (job.ensure page s tree path).2.tree, lists := lists'
            report, isIssue := report.isIssue, remarks } := by
  have hstep := step_of_verdict job page s tree lists path
  have hverdict : verdict (job.judge s tree lists path) = some (none, lists') := by
    rw [h.verdict_judge, hlist]
    simp only [Except.toOption, Option.map_some, hcause, Option.map_none]
  obtain ⟨hencoding, hresult⟩ := ensure_of_look? job h.look page
  rw [hverdict] at hstep
  simp only [hencoding, hresult] at hstep
  exact hstep

/-- A file that is ignored is skipped. -/
theorem IsRegular.step_ignored {lists' : Lists} {said : List Remark}
    (hlist : job.listFor s tree lists d = .ok (list, lists', said)) {cause : IgnoreList.Cause}
    (hcause : list.cause? path = some cause) (page : CodePage) :
    ∃ remarks, job.step page s tree lists path =
      .ok { tree, lists := lists'
            report := .skipped (displayPath s path) (SkipReason.ignored cause).message
            isIssue := false, remarks } := by
  have hstep := step_of_verdict job page s tree lists path
  have hverdict : verdict (job.judge s tree lists path) = some (some (.ignored cause), lists') := by
    rw [h.verdict_judge, hlist]
    simp only [Except.toOption, Option.map_some, hcause]
  rw [hverdict] at hstep
  exact hstep

/-- A batch ends where ignore files cannot be loaded. -/
theorem IsRegular.step_error {e : Ignore.Error × List Remark}
    (hlist : job.listFor s tree lists d = .error e) (page : CodePage) :
    ∃ e, job.step page s tree lists path = .error e := by
  have hstep := step_of_verdict job page s tree lists path
  rw [h.verdict_judge, hlist] at hstep
  exact hstep

/-- In the plain loop a file that is not ignored is worked on. -/
theorem IsRegular.visit_eq
    (hload : (IgnoreList.load s tree { globs := [] } d job.workspace).1 = .ok list)
    (hcause : list.cause? path = none) (page : CodePage) :
    job.visit page s tree path =
      .ok ((job.ensure page s tree path).2.tree,
        job.reportFor page s path (job.found page s tree path) octets) := by
  obtain ⟨hencoding, hresult⟩ := ensure_of_look? job h.look page
  unfold visit
  rw [h.reason?_eq, hload]
  simp only [Except.map, hcause, Option.map_none, hencoding, hresult]
  rfl

/-- In the plain loop a file that is ignored is skipped. -/
theorem IsRegular.visit_ignored {cause : IgnoreList.Cause}
    (hload : (IgnoreList.load s tree { globs := [] } d job.workspace).1 = .ok list)
    (hcause : list.cause? path = some cause) (page : CodePage) :
    job.visit page s tree path =
      .ok (tree, .skipped (displayPath s path) (SkipReason.ignored cause).message) := by
  unfold visit
  rw [h.reason?_eq, hload]
  simp only [Except.map, hcause, Option.map_some]

/-- The plain loop ends where ignore files cannot be loaded. -/
theorem IsRegular.visit_error {e : Ignore.Error}
    (hload : (IgnoreList.load s tree { globs := [] } d job.workspace).1 = .error e)
    (page : CodePage) : job.visit page s tree path = .error e := by
  unfold visit
  rw [h.reason?_eq, hload]
  rfl

end regular

theorem listFor_of_load (job : Job) {d : Path} {list : IgnoreList}
    (hnew : lists.find? (fun entry => entry.1 == d.components) = none)
    (hload : (IgnoreList.load s tree { globs := [] } d job.workspace).1 = .ok list) :
    ∃ said, job.listFor s tree lists d = .ok (list, (d.components, list) :: lists, said) := by
  rw [listFor_of_none hnew]
  generalize IgnoreList.load s tree { globs := [] } d job.workspace = loaded at hload
  obtain ⟨_ | list', remarks⟩ := loaded <;> cases hload
  exact ⟨remarks, rfl⟩

theorem listFor_of_error (job : Job) {d : Path} {e : Ignore.Error}
    (hnew : lists.find? (fun entry => entry.1 == d.components) = none)
    (hload : (IgnoreList.load s tree { globs := [] } d job.workspace).1 = .error e) :
    ∃ said, job.listFor s tree lists d = .error (e, said) := by
  rw [listFor_of_none hnew]
  generalize IgnoreList.load s tree { globs := [] } d job.workspace = loaded at hload
  obtain ⟨e' | _, remarks⟩ := loaded <;> cases hload
  exact ⟨remarks, rfl⟩

theorem listFor_same {d d' : Path} (h : d.components = d'.components) (list : IgnoreList) :
    job.listFor s tree [(d.components, list)] d' = .ok (list, [(d.components, list)], []) := by
  exact listFor_of_kept (List.find?_cons_of_pos (by simp [h]))

/-! ## §7 A batch is the plain loop -/

/-- Files that write every directory with the same text write it alike. -/
theorem spellsAlike_of_parents
    (h : ∀ p ∈ paths, ∀ q ∈ paths, p.parent?.map Path.components = q.parent?.map Path.components →
      p.parent? = q.parent?) : job.SpellsAlike paths := by
  intro p hp q hq d d' hd hd' hcomponents
  have hsame := h p hp q hq
  rw [hd, hd', Option.map_some, Option.map_some, hcomponents] at hsame
  exact .inl (Option.some.inj (hsame rfl))

/-- A batch is the plain loop.  If no file of the batch writes to an ignore file, and files in
one directory write it alike, then loading the ignore files once for a directory makes no
difference to files, reports and errors.  When an ignore file cannot be loaded, the batch
ends: it has done and reported what it does and reports on the files before, and no other
place has changed. -/
theorem run_is_plain_loop (hspares : ∀ path ∈ paths, job.SparesIgnoreFiles s tree path)
    (hspells : job.SpellsAlike paths) (page : CodePage) :
    (job.run page s tree paths).silent = job.runPlainly page s tree paths ∧
      ∀ e, (job.run page s tree paths).error = some e →
        ∃ front path rest, EndsAt (job.run page s tree) job s paths front path rest e ∧
          ∀ q, (∀ before ∈ front, ∀ p ∈ job.touched? before, tree.placeOf? s.cwd p ≠ some q) →
            (job.run page s tree paths).tree.face? q = tree.face? q := by
  have hrun := run_silent hspells hspares page
  refine ⟨hrun, ?_⟩
  intro e he
  rw [(Batch.of_silent hrun).2.2] at he
  obtain ⟨front, path, rest, hends⟩ := runPlainly_error he
  have hfront : front ⊆ paths := by
    rw [hends.order]
    exact List.subset_append_left front (path :: rest)
  have hbefore : (job.run page s tree front).silent = job.runPlainly page s tree front :=
    run_silent (fun p hp q hq => hspells p (hfront hp) q (hfront hq))
      (fun path hpath => hspares path (hfront hpath)) page
  have hends' := hends.of_silent hrun hbefore
  refine ⟨front, path, rest, hends', ?_⟩
  intro q hq
  rw [hends'.tree, (Batch.of_silent hbefore).1]
  exact face?_runPlainly hq

/-- Nothing outside the file tree, and the current directory is the root. -/
def atRoot : Surroundings := { cwd := [] }

/-- Two directories, the second with an ignore file. -/
def twoDirectories (rules : List UInt8) : FileTree :=
  ⟨[(['a'], .directory [(['x'], .file [0x61])]),
    (['b'], .directory [(['x'], .file [0x61]), (['y'], .file [0x61]),
      (IgnoreList.fileName.toList, .file rules)])]⟩

/-- A file of each. -/
def twoFiles : List Path := [⟨['/', 'a', '/', 'x']⟩, ⟨['/', 'b', '/', 'y']⟩]

theorem twoFiles_places (rules : List UInt8) :
    twoFiles.map ((twoDirectories rules).placeOf? atRoot.cwd) =
      [some [['a'], ['x']], some [['b'], ['y']]] := by
  cbv

theorem twoFiles_areFiles (rules : List UInt8) : AreFiles atRoot (twoDirectories rules) twoFiles := by
  refine areFiles_of_linkless rfl rfl ?_ ?_
  · rw [twoFiles, List.forall_mem_cons, List.forall_mem_singleton]
    exact ⟨⟨[['a'], ['x']], [0x61], by cbv, by cbv, by decide⟩,
      ⟨[['b'], ['y']], [0x61], by cbv, by cbv, by decide⟩⟩
  · have hdistinct : (twoFiles.map ((twoDirectories rules).placeOf? atRoot.cwd)).Pairwise (· ≠ ·) := by
      rw [twoFiles_places]
      decide
    exact List.pairwise_map.mp hdistinct

/-- A job that puts a brace after the line with the `a`. -/
def braceJob : Job :=
  { workspace := ⟨['/']⟩, inserter := { marker := ['m'], anchor := ['a'], block := [['{']] }
    filter := .all [], detector := .fixed .ascii }

/-- An ignore list without globs of the run. -/
def listOf (root : Path) (rules : List Ignore.Rule) : IgnoreList :=
  { globs := [], loaded := some { root, rules } }

theorem firstFile_isRegular {job : Job} (hfilter : job.filter = .all []) (rules : List UInt8) :
    job.IsRegular atRoot (twoDirectories rules) ⟨['/', 'a', '/', 'x']⟩ ⟨['/', 'a']⟩ [0x61] :=
  ⟨by cbv, by cbv, by rw [hfilter]; rfl, by decide⟩

theorem firstDirectory_load (rules : List UInt8) :
    (IgnoreList.load atRoot (twoDirectories rules) { globs := [] } ⟨['/', 'a']⟩ ⟨['/']⟩).1 =
      .ok (listOf ⟨['/']⟩ []) := by
  cbv

theorem exists_error_of_toOption {α β : Type} {r : Except α β} (h : r.toOption.isSome = false) :
    ∃ e, r = .error e := by
  cases r with
  | error e => exact ⟨e, rfl⟩
  | ok a => cases h

/-- With a brace for a rule, a batch changes the file in the first directory and ends at the
second. -/
theorem run_is_plain_loop_of_broken_rules :
    (∀ path ∈ twoFiles, braceJob.SparesIgnoreFiles atRoot (twoDirectories [0x7B]) path) ∧
    braceJob.SpellsAlike twoFiles ∧
    (braceJob.run .windows1252 atRoot (twoDirectories [0x7B]) twoFiles).silent =
      braceJob.runPlainly .windows1252 atRoot (twoDirectories [0x7B]) twoFiles ∧
    ∃ e, (braceJob.run .windows1252 atRoot (twoDirectories [0x7B]) twoFiles).error = some e ∧
      ∃ front path rest, EndsAt (braceJob.run .windows1252 atRoot (twoDirectories [0x7B])) braceJob
        atRoot twoFiles front path rest e := by
  have hspares : ∀ path ∈ twoFiles, braceJob.SparesIgnoreFiles atRoot (twoDirectories [0x7B]) path :=
    (twoFiles_areFiles [0x7B]).spares fun path _ p hp => (Option.some.inj hp).symm
  have hspells : braceJob.SpellsAlike twoFiles := spellsAlike_of_parents (by decide)
  obtain ⟨hrun, hends⟩ := run_is_plain_loop hspares hspells .windows1252
  have hx : braceJob.IsRegular atRoot (twoDirectories [0x7B]) ⟨['/', 'a', '/', 'x']⟩ ⟨['/', 'a']⟩ [0x61] :=
    firstFile_isRegular rfl [0x7B]
  have hvisit := hx.visit_eq (firstDirectory_load [0x7B]) (IgnoreList.cause?_of_no_rules _ _) .windows1252
  have hy : braceJob.IsRegular atRoot
      (braceJob.ensure .windows1252 atRoot (twoDirectories [0x7B]) ⟨['/', 'a', '/', 'x']⟩).2.tree
      ⟨['/', 'b', '/', 'y']⟩ ⟨['/', 'b']⟩ [0x61] := ⟨by cbv, by cbv, rfl, by decide⟩
  obtain ⟨e, hbroken⟩ := exists_error_of_toOption (r := (IgnoreList.load atRoot
      (braceJob.ensure .windows1252 atRoot (twoDirectories [0x7B]) ⟨['/', 'a', '/', 'x']⟩).2.tree
      { globs := [] } ⟨['/', 'b']⟩ braceJob.workspace).1) (by cbv)
  have herror : (braceJob.run .windows1252 atRoot (twoDirectories [0x7B]) twoFiles).error = some e := by
    rw [(Batch.of_silent hrun).2.2]
    simp only [twoFiles, runPlainly, hvisit, hy.visit_error hbroken]
  obtain ⟨front, path, rest, hend, -⟩ := hends e herror
  exact ⟨hspares, hspells, hrun, e, herror, front, path, rest, hend⟩

/-! ## §8 Where a batch is not the plain loop -/

/-- The ignore file of the directory `/b`. -/
def diffsFile : Path := ⟨'/' :: 'b' :: '/' :: IgnoreList.fileName.toList⟩

/-- A job that only examines, and keeps differences in this ignore file. -/
def diffsJob : Job := { braceJob with modifies := false, diffs := { saved := some diffsFile } }

/-- Two files in one directory, which they write in two ways, and the second way shows a
rule against the second file. -/
structure AreMisspelt (job : Job) (s : Surroundings) (tree : FileTree) (x y d d' : Path)
    (octets octets' : List UInt8) (list list' : IgnoreList) : Prop where
  first : job.IsRegular s tree x d octets
  second : job.IsRegular s tree y d' octets'
  sameDirectory : d.components = d'.components
  load : (IgnoreList.load s tree { globs := [] } d job.workspace).1 = .ok list
  load' : (IgnoreList.load s tree { globs := [] } d' job.workspace).1 = .ok list'
  cause : list.cause? x = none ∧ list.cause? y = none
  ignored : (list'.cause? y).isSome = true

section misspelt

variable {x y d d' : Path} {octets octets' : List UInt8} {list list' : IgnoreList}
  (h : job.AreMisspelt s tree x y d d' octets octets' list list')
  (hplan : plan page job.inserter (job.found page s tree x) octets = .ok none)
include h hplan

/-- A batch that comes to the directory in the first way ignores neither file. -/
theorem AreMisspelt.run_eq : (job.run page s tree [x, y]).error = none ∧
    (job.run page s tree [x, y]).reports =
      [job.reportFor page s x (job.found page s tree x) octets,
        job.reportFor page s y (job.found page s tree y) octets'] := by
  obtain ⟨said, hlist⟩ := listFor_of_load job List.find?_nil h.load
  obtain ⟨remarks, hstep⟩ := h.first.step_eq hlist h.cause.1 page
  obtain ⟨remarks', hstep'⟩ :=
    h.second.step_eq (listFor_same h.sameDirectory list) h.cause.2 page
  rw [ensure_tree_of_plan h.first.look hplan] at hstep
  simp only [run, runFrom, hstep, hstep']
  exact ⟨rfl, rfl⟩

/-- The plain loop ignores the second file. -/
theorem AreMisspelt.runPlainly_eq : ∃ cause, (job.runPlainly page s tree [x, y]).reports =
    [job.reportFor page s x (job.found page s tree x) octets,
      .skipped (displayPath s y) (SkipReason.ignored cause).message] := by
  obtain ⟨cause, hcause⟩ := Option.isSome_iff_exists.mp h.ignored
  have hvisit := h.first.visit_eq h.load h.cause.1 page
  have hvisit' := h.second.visit_ignored h.load' hcause page
  rw [ensure_tree_of_plan h.first.look hplan] at hvisit
  simp only [runPlainly, hvisit, hvisit']
  exact ⟨cause, rfl⟩

end misspelt

/-- Absolute paths that lead to no ignore file and not to the file for differences. -/
def LeadElsewhere (job : Job) (s : Surroundings) (tree : FileTree) (paths : List Path) : Prop :=
  ∀ path ∈ paths, path.isAbsolute = true ∧ ∀ q, tree.placeOf? s.cwd path = some q →
    ¬IsIgnoreFile s tree q ∧ ∀ saved ∈ job.diffs.saved, tree.placeOf? s.cwd saved ≠ some q

theorem leadElsewhere_of_linkless (hlinks : tree.isLinkless = true)
    (hvariable : s.ignoreVariable = none)
    (h : ∀ path ∈ paths, path.isAbsolute = true ∧ ∃ place, tree.placeOf? s.cwd path = some place ∧
      place.getLast? ≠ some IgnoreList.fileName.toList ∧
      ∀ saved ∈ job.diffs.saved, tree.placeOf? s.cwd saved ≠ some place) :
    job.LeadElsewhere s tree paths := by
  intro path hpath
  obtain ⟨habsolute, place, hplace, hname, hdiffs⟩ := h path hpath
  refine ⟨habsolute, fun q hq => ⟨?_, ?_⟩⟩
  · exact not_isIgnoreFile_of_linkless hlinks hvariable hplace hname q hq
  · rw [hplace, Option.some.injEq] at hq
    rwa [← hq]

/-- The files of the second directory. -/
def neighbours : List Path := [⟨['/', 'b', '/', 'x']⟩, ⟨['/', 'b', '/', 'y']⟩]

theorem neighbours_elsewhere : diffsJob.LeadElsewhere atRoot (twoDirectories []) neighbours := by
  have hsaved : (twoDirectories []).placeOf? atRoot.cwd diffsFile =
      some [['b'], IgnoreList.fileName.toList] := by cbv
  have hapart (place : Place) (hne : place ≠ [['b'], IgnoreList.fileName.toList]) :
      ∀ saved ∈ diffsJob.diffs.saved, (twoDirectories []).placeOf? atRoot.cwd saved ≠ some place := by
    rintro saved ⟨⟩
    rw [hsaved]
    exact fun h => hne (Option.some.inj h).symm
  refine leadElsewhere_of_linkless (by decide) rfl ?_
  rw [neighbours, List.forall_mem_cons, List.forall_mem_singleton]
  exact ⟨⟨rfl, [['b'], ['x']], by cbv, by decide, hapart _ (by decide)⟩,
    ⟨rfl, [['b'], ['y']], by cbv, by decide, hapart _ (by decide)⟩⟩

/-- The difference of the first file is a line in the ignore file that is no rule.  The batch
has loaded the ignore file before. -/
theorem neighbours_end (page : CodePage) :
    (diffsJob.run page atRoot (twoDirectories []) neighbours).error = none ∧
      (diffsJob.runPlainly page atRoot (twoDirectories []) neighbours).error ≠ none := by
  have hx : diffsJob.IsRegular atRoot (twoDirectories []) ⟨['/', 'b', '/', 'x']⟩ ⟨['/', 'b']⟩ [0x61] :=
    ⟨by cbv, by cbv, rfl, by decide⟩
  have hload : (IgnoreList.load atRoot (twoDirectories []) { globs := [] } ⟨['/', 'b']⟩
      diffsJob.workspace).1 = .ok (listOf ⟨['/']⟩ []) := by cbv
  have hy : diffsJob.IsRegular atRoot
      (diffsJob.ensure page atRoot (twoDirectories []) ⟨['/', 'b', '/', 'x']⟩).2.tree
      ⟨['/', 'b', '/', 'y']⟩ ⟨['/', 'b']⟩ [0x61] := ⟨by cbv, by cbv, rfl, by decide⟩
  obtain ⟨e, hbroken⟩ := exists_error_of_toOption (r := (IgnoreList.load atRoot
      (diffsJob.ensure page atRoot (twoDirectories []) ⟨['/', 'b', '/', 'x']⟩).2.tree
      { globs := [] } ⟨['/', 'b']⟩ diffsJob.workspace).1) (by cbv)
  constructor
  · obtain ⟨said, hlist⟩ := listFor_of_load diffsJob List.find?_nil hload
    obtain ⟨remarks, hstep⟩ := hx.step_eq hlist (IgnoreList.cause?_of_no_rules _ _) page
    obtain ⟨remarks', hstep'⟩ :=
      hy.step_eq (listFor_same rfl (listOf ⟨['/']⟩ [])) (IgnoreList.cause?_of_no_rules _ _) page
    simp only [neighbours, run, runFrom, hstep, hstep']
    rfl
  · have hvisit := hx.visit_eq hload (IgnoreList.cause?_of_no_rules _ _) page
    simp only [neighbours, runPlainly, hvisit, hy.visit_error hbroken]
    exact Option.some_ne_none e

/-- The directory `/a/b`, with `k` slashes too many. -/
def wide (k : Nat) : Path := ⟨['/', 'a'] ++ (List.replicate k '/' ++ '/' :: ['b'])⟩

/-- The file `x` in this directory. -/
def wideFile (k : Nat) : Path := ⟨(wide k).text ++ '/' :: ['x']⟩

/-- A directory with a rule against one of two files. -/
def oneDirectory : FileTree :=
  ⟨[(['a'], .directory [(['b'], .directory [(['x'], .file [0x6D]), (['y'], .file [0x6D]),
      (IgnoreList.fileName.toList, .file [0x2F, 0x79, 0x0A])])])]⟩

/-- A job on files with the marker; its workspace is elsewhere. -/
def markedJob : Job :=
  { workspace := ⟨['/', 'w']⟩, inserter := { marker := ['m'], anchor := ['a'], block := [['m']] }
    filter := .all [], detector := .fixed .ascii }

/-- The rule against it. -/
def ruleAgainstY : Ignore.Rule :=
  { glob := { options := Ignore.Rule.globOptions, tokens := [.literal 'y'] }
    keeps := false, directoriesOnly := false }

theorem markedJob_plan (page : CodePage) (s : Surroundings) (tree : FileTree) (path : Path) :
    plan page markedJob.inserter (markedJob.found page s tree path) [0x6D] = .ok none := rfl

theorem markedJob_action (page : CodePage) (tree : FileTree) (path : Path) :
    (markedJob.reportFor page atRoot path (markedJob.found page atRoot tree path) [0x6D]).action =
      .present := rfl

theorem wide_components (k : Nat) :
    (wide k).components = Path.components ⟨['/', 'a', '/', 'b']⟩ :=
  Path.components_slashes (List.cons_ne_nil _ _) k ['b']

theorem wideFile_components (k : Nat) :
    (wideFile k).components = Path.components ⟨['/', 'a', '/', 'b', '/', 'x']⟩ := by
  have hne : (wide k).text ≠ [] := List.cons_ne_nil _ _
  have hwide := wide_components k
  unfold wideFile
  rw [Path.components_append hne]
  exact congrArg (· ++ _) hwide

/-- The last slash of the directory is before its name. -/
theorem wide_eq (k : Nat) : wide k = ⟨(['/', 'a'] ++ List.replicate k '/') ++ '/' :: ['b']⟩ :=
  congrArg Path.mk (List.append_assoc _ _ _).symm

theorem wide_join {x : List Char} (hx : Path.IsPlain x) (k : Nat) :
    (wide k).join ⟨x⟩ = ⟨(wide k).text ++ '/' :: x⟩ := by
  rcases hx.join (wide k) with ⟨htext, -⟩ | ⟨base, htext, -⟩ | ⟨-, hjoin⟩
  · cases htext
  · have hends : (['/', 'a'] ++ List.replicate k '/') ++ '/' :: ['b'] = base ++ ['/'] :=
      (congrArg Path.text (wide_eq k)).symm.trans htext
    have hlast := congrArg List.getLast? hends
    rw [List.getLast?_concat, List.getLast?_append_of_ne_nil _ (List.cons_ne_nil _ _)] at hlast
    exact absurd hlast (by decide)
  · exact hjoin

theorem wide_parent {x : List Char} (hx : Path.IsPlain x) (k : Nat) :
    ((wide k).join ⟨x⟩).parent? = some (wide k) := by
  have hb : Path.IsPlain ['b'] := ⟨by decide, by decide, by decide⟩
  have hbase : ['/', 'a'] ++ List.replicate k '/' ≠ [] := List.cons_ne_nil _ _
  rw [wide_join hx, wide_eq]
  exact hx.parent? hb hbase

theorem wideFile_parent (k : Nat) : (wideFile k).parent? = some (wide k) := by
  have hx : Path.IsPlain ['x'] := ⟨by decide, by decide, by decide⟩
  have hparent := wide_parent hx k
  rwa [wide_join hx] at hparent

theorem wide_length (k : Nat) : FileTree.octetLength (wide k).text = k + 4 := by
  have ha : FileTree.octetLength ['/', 'a'] = 2 := rfl
  have hb : FileTree.octetLength ('/' :: ['b']) = 2 := rfl
  unfold wide
  rw [FileTree.octetLength_append, FileTree.octetLength_append, FileTree.octetLength_slashes, ha, hb]
  omega

/-- The file is found as long as its own text is not too long. -/
theorem wide_locate {k : Nat} (hk : k ≤ 4089) {purpose : FileTree.Purpose}
    (hpurpose : purpose ≠ .write) : oneDirectory.locate [] purpose (wideFile k) =
      oneDirectory.locate [] purpose ⟨['/', 'a', '/', 'b', '/', 'x']⟩ := by
  have hne : (wide k).text ≠ [] := List.cons_ne_nil _ _
  have hfits : FileTree.Fits (wideFile k) := by
    have hlength := wide_length k
    have hx : FileTree.octetLength ('/' :: ['x']) = 2 := rfl
    have hlimit : FileTree.pathLimit = 4095 := rfl
    unfold FileTree.Fits wideFile
    rw [FileTree.octetLength_append, hlength, hx, hlimit]
    omega
  refine FileTree.locate_of_components (wideFile_components k) ?_ ?_ ?_ hfits ?_ hpurpose _ _
  · rw [wideFile_components]
    decide
  · intro last hlast
    unfold wideFile at hlast
    rw [Path.segments_append hne, Text.split_of_not_mem (by decide), List.getLast?_concat,
      Option.mem_some_iff] at hlast
    rw [← hlast]
    decide
  · intro last hlast
    revert last
    decide
  · unfold FileTree.Fits
    decide

theorem wideFile_place {k : Nat} (hk : k ≤ 4089) :
    oneDirectory.placeOf? atRoot.cwd (wideFile k) = some [['a'], ['b'], ['x']] := by
  have hplace : oneDirectory.placeOf? [] ⟨['/', 'a', '/', 'b', '/', 'x']⟩ =
      some [['a'], ['b'], ['x']] := by cbv
  unfold FileTree.placeOf? at hplace ⊢
  rwa [← wide_locate hk (by decide)] at hplace

theorem wideFile_isRegular {k : Nat} (hk : k ≤ 4089) :
    markedJob.IsRegular atRoot oneDirectory (wideFile k) (wide k) [0x6D] := by
  have hlook : oneDirectory.look? [] ⟨['/', 'a', '/', 'b', '/', 'x']⟩ = some (.file [0x6D]) := by cbv
  have hstat : oneDirectory.statLink [] ⟨['/', 'a', '/', 'b', '/', 'x']⟩ = .ok (.file [0x6D]) := by
    cbv
  refine ⟨?_, ?_, rfl, wideFile_parent k⟩
  · unfold FileTree.look? FileTree.stat FileTree.find at hlook ⊢
    rwa [← wide_locate hk (by decide)] at hlook
  · unfold FileTree.statLink FileTree.find at hstat ⊢
    rwa [← wide_locate hk (by decide)] at hstat

/-- The ignore file is not found, since its text is too long. -/
theorem wide_ignoreFiles {k : Nat} (hk : 4076 < k) :
    IgnoreList.ignoreFiles oneDirectory atRoot.cwd (wide k) (wide k) = [] := by
  have htoo : ¬FileTree.Fits ((wide k).join (.ofString IgnoreList.fileName)) := by
    have hlength := (FileTree.octetLength_join IgnoreList.isPlain_fileName (wide k)).1
    have hname : FileTree.octetLength IgnoreList.fileName.toList = 15 := by decide
    have hlimit : FileTree.pathLimit = 4095 := rfl
    rw [wide_length, hname] at hlength
    unfold FileTree.Fits
    rw [hlimit]
    exact fun hfits => absurd (hlength.trans hfits) (by omega)
  have hisFile :=
    FileTree.isFile_of_look?_eq_none (FileTree.look?_of_not_fits htoo oneDirectory atRoot.cwd)
  unfold IgnoreList.ignoreFiles
  rw [IgnoreList.chain_self, List.map_singleton, List.filter_cons_of_neg (by rw [hisFile]; decide)]
  rfl

/-- So there are no rules, if the directory is its own root. -/
theorem wide_load {k : Nat} (hk : 4076 < k) {workspace : Path}
    (hroot : IgnoreList.rootFor (wide k) workspace = wide k) :
    (IgnoreList.load atRoot oneDirectory { globs := [] } (wide k) workspace).1 =
      .ok (listOf (wide k) []) := by
  have hfiles : IgnoreList.ignoreFiles oneDirectory atRoot.cwd (wide k)
      (IgnoreList.rootFor (wide k) workspace) = [] := by
    rw [hroot]
    exact wide_ignoreFiles hk
  rw [IgnoreList.load_eq, IgnoreList.rulesIn_of_no_file rfl hfiles, hroot]
  rfl

/-- The workspace of the job is another directory. -/
theorem wide_rootFor (k : Nat) : IgnoreList.rootFor (wide k) markedJob.workspace = wide k := by
  unfold IgnoreList.rootFor Path.startsWith
  rw [wide_components, if_neg (by decide)]

/-- With so many slashes that the text of the ignore file is too long, but not that of the
file `x`, the rule against `y` is not seen. -/
theorem wide_misspelt {k : Nat} (hlow : 4076 < k) (hhigh : k ≤ 4089) :
    markedJob.AreMisspelt atRoot oneDirectory (wideFile k) ⟨['/', 'a', '/', 'b', '/', 'y']⟩ (wide k)
      ⟨['/', 'a', '/', 'b']⟩ [0x6D] [0x6D] (listOf (wide k) [])
      (listOf ⟨['/', 'a', '/', 'b']⟩ [ruleAgainstY]) where
  first := wideFile_isRegular hhigh
  second := ⟨by cbv, by cbv, rfl, by decide⟩
  sameDirectory := wide_components k
  load := wide_load hlow (wide_rootFor k)
  load' := by cbv
  cause := ⟨IgnoreList.cause?_of_no_rules _ _, IgnoreList.cause?_of_no_rules _ _⟩
  ignored := by decide

theorem wide_elsewhere {k : Nat} (hk : k ≤ 4089) :
    markedJob.LeadElsewhere atRoot oneDirectory [wideFile k, ⟨['/', 'a', '/', 'b', '/', 'y']⟩] := by
  have hnone (place : Place) :
      ∀ saved ∈ markedJob.diffs.saved, oneDirectory.placeOf? atRoot.cwd saved ≠ some place := by
    rintro saved ⟨⟩
  refine leadElsewhere_of_linkless (by decide) rfl ?_
  rw [List.forall_mem_cons, List.forall_mem_singleton]
  exact ⟨⟨rfl, _, wideFile_place hk, by decide, hnone _⟩,
    ⟨rfl, [['a'], ['b'], ['y']], by cbv, by decide, hnone _⟩⟩

/-- It is not enough that the files themselves are no ignore files: the file for differences
may be one, and a directory may be written in two ways. -/
theorem run_is_not_plain_loop :
    (¬∀ (job : Job) (page : CodePage) (s : Surroundings) (tree : FileTree) (paths : List Path),
      job.LeadElsewhere s tree paths →
        (job.run page s tree paths).silent = job.runPlainly page s tree paths) ∧
    ¬∀ (job : Job) (page : CodePage) (s : Surroundings) (tree : FileTree) (paths : List Path),
      job.diffs.saved = none → job.LeadElsewhere s tree paths →
        (job.run page s tree paths).silent = job.runPlainly page s tree paths := by
  constructor
  · intro hall
    have hsilent := hall diffsJob .windows1252 atRoot (twoDirectories []) neighbours
      neighbours_elsewhere
    obtain ⟨hends, hplainly⟩ := neighbours_end .windows1252
    rw [(Batch.of_silent hsilent).2.2] at hends
    exact hplainly hends
  · intro hall
    have hsilent := hall markedJob .windows1252 atRoot oneDirectory
      [wideFile 4080, ⟨['/', 'a', '/', 'b', '/', 'y']⟩] rfl (wide_elsewhere (by decide))
    have hmisspelt := wide_misspelt (k := 4080) (by decide) (by decide)
    have hplan := markedJob_plan .windows1252 atRoot oneDirectory (wideFile 4080)
    obtain ⟨cause, hplainly⟩ := hmisspelt.runPlainly_eq hplan
    have hreports := (hmisspelt.run_eq hplan).2
    rw [(Batch.of_silent hsilent).2.1, hplainly] at hreports
    have haction := congrArg (List.map (·.action)) hreports
    cases haction

end MarkerBlock.Job
