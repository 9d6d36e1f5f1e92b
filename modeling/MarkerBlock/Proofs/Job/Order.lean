/-
MarkerBlock.Proofs.Job.Order — the order of the files of a batch does not matter.

What a batch does to a file, and reports on it, can be told from the first tree
(`outcome?`): a file that is visited later gets the same report, and the same octets
are written to the same place (`visit_outcome`).  So a batch that does not end early
is a row of refills (`runPlainly_refills`), and refills of different places commute.
-/
import Mathlib
import MarkerBlock.Proofs.FileTree.Refill
import MarkerBlock.Proofs.Job.Batch

namespace MarkerBlock.Job

variable {job : Job} {page : CodePage} {s : Surroundings} {T tree : FileTree} {path : Path}
  {paths paths' rest : List Path} {octets : List UInt8}

/-! ## §1 What one file comes to -/

/-- What is written to a file with these octets in the encoding `e`, if anything is. -/
def newOctets? (job : Job) (page : CodePage) (e : Encoding) (octets : List UInt8) :
    Option (List UInt8) :=
  match plan page job.inserter e octets with
  | .ok (some i) => if job.modifies then some i.octets else none
  | _ => none

/-- What a batch does to a file and reports on it. -/
structure Outcome where
  place : Place
  octets? : Option (List UInt8)
  report : FileReport

/-- The tree after what is done to the file. -/
def Outcome.apply (o : Outcome) (tree : FileTree) : FileTree :=
  match o.octets? with
  | some octets => tree.refill o.place octets
  | none => tree

/-- What a batch does to a file, told from the first tree; none if its ignore files cannot
be loaded. -/
def outcome? (job : Job) (page : CodePage) (s : Surroundings) (T : FileTree) (path : Path) :
    Option Outcome :=
  match T.placeOf? s.cwd path, T.look? s.cwd path, (job.reason? s T path).toOption with
  | some place, some (.file _), some (some reason) =>
    some { place, octets? := none, report := .skipped (displayPath s path) reason.message }
  | some place, some (.file octets), some none =>
    let e := job.found page s T path
    some { place, octets? := job.newOctets? page e octets
           report := job.reportFor page s path e octets }
  | _, _, _ => none

/-- A file is skipped for the same reason whatever a batch has done. -/
theorem reason?_follows (job : Job) (hfollows : Follows s T rest tree) {face : Face}
    (hlook : T.look? s.cwd path = some face) :
    (job.reason? s tree path).toOption = (job.reason? s T path).toOption := by
  obtain ⟨node, node', hfirst, hnow, halike⟩ := hfollows.statLink hlook
  unfold reason?
  rw [hfirst, hnow]
  cases halike with
  | link target => rfl
  | _ =>
    simp only
    cases job.filter.judge (path.relativeTo job.workspace) with
    | some reason => rfl
    | none =>
      cases path.parent? with
      | none => rfl
      | some d =>
        have hload := IgnoreList.toOption_load hfollows.ignoreFiles { globs := [] } d job.workspace
        simp only
        generalize (IgnoreList.load s T { globs := [] } d job.workspace).1 = first at hload
        generalize (IgnoreList.load s tree { globs := [] } d job.workspace).1 = now at hload
        rcases first with e | list <;> rcases now with e' | list' <;> cases hload
        · rfl
        · rfl

/-- The tree after work on a file with these octets. -/
theorem ensure_tree_eq (hlook : tree.look? s.cwd path = some (.file octets)) (page : CodePage) :
    (job.ensure page s tree path).2.tree =
      match plan page job.inserter (job.found page s tree path) octets with
      | .ok (some i) =>
        if job.modifies then (writeBack s tree path i).tree else (job.examine s tree path i).tree
      | _ => tree := by
  have hread := FileTree.read_eq_ok_iff_look?.mpr hlook
  have htree : (job.ensure page s tree path).2.tree =
      (job.ensureAs page s tree path (job.ensure page s tree path).1).tree := rfl
  rw [htree, (ensure_of_look? job hlook page).1]
  unfold ensureAs
  rw [hread]
  simp only
  rcases plan page job.inserter (job.found page s tree path) octets with f | (_ | i)
  · rfl
  · rfl
  · simp only
    split <;> rfl

/-- New octets are put where the path leads. -/
theorem ensure_tree_of_new {new : List UInt8} (hlook : tree.look? s.cwd path = some (.file octets))
    (hnew : job.newOctets? page (job.found page s tree path) octets = some new) :
    ∃ place, tree.placeOf? s.cwd path = some place ∧ tree.node? place = some (.file octets) ∧
      (job.ensure page s tree path).2.tree = tree.set place (.file new) := by
  obtain ⟨place, hplace, hnode, hwrite⟩ := FileTree.write_of_look? hlook
  refine ⟨place, hplace, hnode, ?_⟩
  rw [ensure_tree_eq hlook]
  unfold newOctets? at hnew
  split at hnew
  · split at hnew
    · next hmodifies =>
      cases hnew
      simp only [hmodifies, if_true, writeBack, hwrite]
    · cases hnew
  · cases hnew

/-- Without new octets at most a difference is kept, by a job that only examines. -/
theorem ensure_tree_of_same (hlook : tree.look? s.cwd path = some (.file octets))
    (hsame : job.newOctets? page (job.found page s tree path) octets = none) :
    (job.ensure page s tree path).2.tree = tree ∨
      job.modifies = false ∧ ∃ saved ∈ job.diffs.saved,
        Puts s tree saved (job.ensure page s tree path).2.tree := by
  rw [ensure_tree_eq hlook]
  unfold newOctets? at hsame
  split at hsame
  · next i _ =>
    split at hsame
    · cases hsame
    · next hmodifies =>
      simp only [hmodifies, Bool.false_eq_true, if_false, true_and]
      exact examine_tree job s tree path i
  · exact .inl rfl

theorem ensure_tree_of_look? {place : Place} (hdiffs : job.diffs.saved = none)
    (hlook : tree.look? s.cwd path = some (.file octets))
    (hplace : tree.placeOf? s.cwd path = some place) (page : CodePage) :
    (job.ensure page s tree path).2.tree =
      match job.newOctets? page (job.found page s tree path) octets with
      | some new => tree.refill place new
      | none => tree := by
  cases hnew : job.newOctets? page (job.found page s tree path) octets with
  | some new =>
    obtain ⟨there, hthere, hnode, htree⟩ := ensure_tree_of_new hlook hnew
    rw [hplace, Option.some.injEq] at hthere
    subst hthere
    rw [htree]
    exact FileTree.set_eq_refill hnode new
  | none =>
    rcases ensure_tree_of_same hlook hnew with htree | ⟨-, saved, hsaved, -⟩
    · exact htree
    · rw [hdiffs] at hsaved
      cases hsaved

/-- A file that is visited in a later tree comes to what the first tree tells. -/
theorem visit_outcome (hdetector : job.detector.GoesByOctets) (hdiffs : job.diffs.saved = none)
    (hfollows : Follows s T (path :: rest) tree)
    (hlook : T.look? s.cwd path = some (.file octets)) (page : CodePage) :
    (job.visit page s tree path).toOption =
      (job.outcome? page s T path).map fun o => (o.apply tree, o.report) := by
  have hnow := (hfollows.files path List.mem_cons_self).trans hlook
  obtain ⟨place, hplace, -, -⟩ := FileTree.write_of_look? hlook
  have hplace' : tree.placeOf? s.cwd path = some place :=
    (FileTree.placeOf?_of_grown hfollows.grown s.cwd path).trans hplace
  have hreason := reason?_follows job hfollows hlook
  unfold visit outcome?
  rw [hplace, hlook, ← hreason]
  rcases job.reason? s tree path with e | (_ | reason)
  · rfl
  · obtain ⟨hencoding, hresult⟩ := ensure_of_look? job hnow page
    have htree := ensure_tree_of_look? hdiffs hnow hplace' page
    have hfound : job.found page s tree path = job.found page s T path :=
      found_eq hdetector hnow hlook page
    simp only [Except.map, Except.toOption, Option.map_some, hencoding, hresult, htree, hfound]
    rfl
  · rfl

/-! ## §2 A batch as a row of refills -/

/-- What a batch does to one file. -/
def change (job : Job) (page : CodePage) (s : Surroundings) (T tree : FileTree) (path : Path) :
    FileTree :=
  match job.outcome? page s T path with
  | some o => o.apply tree
  | none => tree

/-- What a batch reports on one file, if it gets there. -/
def reportOn (job : Job) (page : CodePage) (s : Surroundings) (T : FileTree) (path : Path) :
    FileReport :=
  match job.outcome? page s T path with
  | some o => o.report
  | none => .skipped path ""

/-- Without a file for differences, work on a file writes to that file at most. -/
theorem eq_of_mem_touched? (hdiffs : job.diffs.saved = none) {p : Path}
    (hp : p ∈ job.touched? path) : p = path := by
  unfold touched? at hp
  rw [hdiffs] at hp
  split at hp
  · exact (Option.some.inj hp).symm
  · cases hp

theorem Follows.change (hdiffs : job.diffs.saved = none) (hfiles : AreFiles s T (path :: rest))
    (hfollows : Follows s T (path :: rest) tree) {report : FileReport} {tree' : FileTree}
    (hvisit : job.visit page s tree path = .ok (tree', report)) : Follows s T rest tree' := by
  rcases visit_tree hvisit with rfl | rfl
  · exact hfollows.mono (List.subset_cons_self path rest)
  · exact hfiles.follows hfollows (fun p hp => eq_of_mem_touched? hdiffs hp) page

/-- If the ignore files of every file can be loaded, the plain loop is a row of refills. -/
theorem runPlainly_refills (hdetector : job.detector.GoesByOctets)
    (hdiffs : job.diffs.saved = none) (hfiles : AreFiles s T paths)
    (hfollows : Follows s T paths tree)
    (hall : ∀ path ∈ paths, (job.outcome? page s T path).isSome = true) :
    job.runPlainly page s tree paths =
      { tree := paths.foldl (job.change page s T) tree
        reports := paths.map (job.reportOn page s T)
        hasIssues := paths.any fun path => (job.reportOn page s T path).isIssue } := by
  induction paths generalizing tree with
  | nil => rfl
  | cons path rest ih =>
    obtain ⟨octets, hlook⟩ := hfiles.files path List.mem_cons_self
    obtain ⟨hhead, hrest⟩ := List.forall_mem_cons.mp hall
    obtain ⟨o, ho⟩ := Option.isSome_iff_exists.mp hhead
    have houtcome := visit_outcome hdetector hdiffs hfollows hlook page
    rw [ho] at houtcome
    have hvisit : job.visit page s tree path = .ok (o.apply tree, o.report) := by
      cases hvisit : job.visit page s tree path with
      | error e =>
        rw [hvisit] at houtcome
        cases houtcome
      | ok done =>
        rw [hvisit] at houtcome
        exact congrArg Except.ok (Option.some.inj houtcome)
    have hchange : job.change page s T tree path = o.apply tree := by
      rw [change, ho]
    have hreport : job.reportOn page s T path = o.report := by
      rw [reportOn, ho]
    rw [List.foldl_cons, List.map_cons, List.any_cons, hchange, hreport, runPlainly, hvisit]
    simp only
    rw [ih hfiles.tail (Follows.change hdiffs hfiles hfollows hvisit) hrest]

/-- If the ignore files of some file cannot be loaded, the plain loop ends early. -/
theorem runPlainly_stops (hdetector : job.detector.GoesByOctets)
    (hdiffs : job.diffs.saved = none) (hfiles : AreFiles s T paths)
    (hfollows : Follows s T paths tree) (hpath : path ∈ paths)
    (hnone : job.outcome? page s T path = none) :
    (job.runPlainly page s tree paths).error ≠ none := by
  induction paths generalizing tree with
  | nil => cases hpath
  | cons first rest ih =>
    obtain ⟨octets, hlook⟩ := hfiles.files first List.mem_cons_self
    have houtcome := visit_outcome hdetector hdiffs hfollows hlook page
    rw [runPlainly]
    cases hvisit : job.visit page s tree first with
    | error e => exact Option.some_ne_none e
    | ok done =>
      have hrest : path ∈ rest := by
        rcases List.mem_cons.mp hpath with rfl | hrest
        · rw [hvisit, hnone] at houtcome
          cases houtcome
        · exact hrest
      exact ih hfiles.tail (Follows.change hdiffs hfiles hfollows hvisit) hrest

/-- A batch of files without a file for differences: it ends early if the ignore files of a file
cannot be loaded, and otherwise it is a row of refills. -/
theorem run_refills (hdetector : job.detector.GoesByOctets) (hdiffs : job.diffs.saved = none)
    (hfiles : AreFiles s tree paths)
    (hspells : job.SpellsAlike paths) (page : CodePage) :
    ((job.run page s tree paths).error = none ↔
      ∀ path ∈ paths, (job.outcome? page s tree path).isSome = true) ∧
    ((job.run page s tree paths).error = none →
      (job.run page s tree paths).tree = paths.foldl (job.change page s tree) tree ∧
      (job.run page s tree paths).reports = paths.map (job.reportOn page s tree)) := by
  have hspares : ∀ path ∈ paths, job.SparesIgnoreFiles s tree path :=
    hfiles.spares fun path _ p hp => eq_of_mem_touched? hdiffs hp
  obtain ⟨htree, hreports, herror⟩ := Batch.of_silent (run_silent hspells hspares page)
  have hfollows := Follows.refl s tree paths
  rw [htree, hreports, herror]
  by_cases hall : ∀ path ∈ paths, (job.outcome? page s tree path).isSome = true
  · rw [runPlainly_refills hdetector hdiffs hfiles hfollows hall]
    exact ⟨⟨fun _ => hall, fun _ => rfl⟩, fun _ => ⟨rfl, rfl⟩⟩
  · obtain ⟨path, hpath, hnone⟩ : ∃ path ∈ paths, job.outcome? page s tree path = none := by
      push Not at hall
      simpa using hall
    have hstops := runPlainly_stops hdetector hdiffs hfiles hfollows hpath hnone
    exact ⟨⟨fun h => absurd h hstops, fun h => absurd h hall⟩, fun h => absurd h hstops⟩

/-! ## §3 Two orders -/

theorem AreFiles.perm (h : AreFiles s T paths) (hperm : paths.Perm paths') : AreFiles s T paths' := by
  refine ⟨fun path hpath => h.files path (hperm.mem_iff.mpr hpath), ?_,
    fun path hpath => h.ordinary path (hperm.mem_iff.mpr hpath)⟩
  exact (hperm.pairwise_iff fun hne => hne.symm).mp h.distinct

theorem SpellsAlike.perm (h : job.SpellsAlike paths) (hperm : paths.Perm paths') :
    job.SpellsAlike paths' :=
  fun p hp q hq => h p (hperm.mem_iff.mpr hp) q (hperm.mem_iff.mpr hq)

theorem placeOf?_of_outcome {o : Outcome} (h : job.outcome? page s T path = some o) :
    T.placeOf? s.cwd path = some o.place := by
  unfold outcome? at h
  split at h
  · next hplace _ _ =>
    cases h
    exact hplace
  · next hplace _ _ =>
    cases h
    exact hplace
  · cases h

theorem Outcome.apply_comm {o o' : Outcome} (hne : o.place ≠ o'.place) (tree : FileTree) :
    o'.apply (o.apply tree) = o.apply (o'.apply tree) := by
  unfold Outcome.apply
  cases o.octets? with
  | none => rfl
  | some a =>
    cases o'.octets? with
    | none => rfl
    | some b => exact (FileTree.refill_comm tree hne a b).symm

/-- What a batch does to two files does not depend on which comes first. -/
theorem change_comm (hfiles : AreFiles s T paths) {p q : Path} (hp : p ∈ paths) (hq : q ∈ paths)
    (tree : FileTree) :
    job.change page s T (job.change page s T tree p) q =
      job.change page s T (job.change page s T tree q) p := by
  by_cases hpq : p = q
  · rw [hpq]
  · have hsymm : Std.Symm fun p q => T.placeOf? s.cwd p ≠ T.placeOf? s.cwd q :=
      ⟨fun _ _ hne => hne.symm⟩
    have hplaces := hfiles.distinct.forall hp hq hpq
    unfold change
    cases ho : job.outcome? page s T p with
    | none => rfl
    | some o =>
      cases ho' : job.outcome? page s T q with
      | none => rfl
      | some o' =>
        refine Outcome.apply_comm (fun hsame => hplaces ?_) tree
        rw [placeOf?_of_outcome ho, placeOf?_of_outcome ho', hsame]

/-- Two batches over the same files come to the same: both end early or neither does; if they
do not, the files afterwards are the same, and so is the report on every file and whether
there is an issue. -/
structure ComeToSame (paths paths' : List Path) (b b' : Batch) : Prop where
  error : b.error = none ↔ b'.error = none
  tree : b.error = none → b.tree = b'.tree
  hasIssues : b.error = none → b.hasIssues = b'.hasIssues
  reports : b.error = none →
    ∃ report : Path → FileReport, b.reports = paths.map report ∧ b'.reports = paths'.map report

/-- A batch comes to the same in every order of its files, if the encoding of a file is told from
its octets, no file for differences is kept, the files are different ones and no ignore files, and
those in one directory write it alike. -/
theorem run_perm (hdetector : job.detector.GoesByOctets) (hdiffs : job.diffs.saved = none)
    (hfiles : AreFiles s tree paths) (hspells : job.SpellsAlike paths)
    (hperm : paths.Perm paths') (page : CodePage) :
    ComeToSame paths paths' (job.run page s tree paths) (job.run page s tree paths') := by
  obtain ⟨hiff, hdone⟩ := run_refills hdetector hdiffs hfiles hspells page
  obtain ⟨hiff', hdone'⟩ := run_refills hdetector hdiffs (hfiles.perm hperm) (hspells.perm hperm) page
  have herror : (job.run page s tree paths).error = none ↔
      (job.run page s tree paths').error = none := by
    rw [hiff, hiff']
    exact ⟨fun h path hpath => h path (hperm.mem_iff.mpr hpath),
      fun h path hpath => h path (hperm.mem_iff.mp hpath)⟩
  refine ⟨herror, fun hnone => ?_, fun hnone => ?_, fun hnone => ?_⟩
  · rw [(hdone hnone).1, (hdone' (herror.mp hnone)).1]
    exact hperm.foldl_eq' (fun p hp q hq t => change_comm hfiles hp hq t) tree
  · rw [run_hasIssues, run_hasIssues, (hdone hnone).2, (hdone' (herror.mp hnone)).2,
      (hperm.map (job.reportOn page s tree)).any_eq]
  · exact ⟨job.reportOn page s tree, (hdone hnone).2, (hdone' (herror.mp hnone)).2⟩

/-- Two files in two directories. -/
theorem run_perm_of_two_files :
    braceJob.detector.GoesByOctets ∧ braceJob.diffs.saved = none ∧
    AreFiles atRoot (twoDirectories []) twoFiles ∧
    braceJob.SpellsAlike twoFiles ∧ twoFiles.Perm twoFiles.reverse ∧
    ComeToSame twoFiles twoFiles.reverse (braceJob.run .windows1252 atRoot (twoDirectories []) twoFiles)
      (braceJob.run .windows1252 atRoot (twoDirectories []) twoFiles.reverse) := by
  have hfiles := twoFiles_areFiles []
  have hspells : braceJob.SpellsAlike twoFiles := spellsAlike_of_parents (by decide)
  have hperm := (List.reverse_perm twoFiles).symm
  have hdetector : braceJob.detector.GoesByOctets := Detector.goesByOctets_fixed .ascii
  exact ⟨hdetector, rfl, hfiles, hspells, hperm,
    run_perm hdetector rfl hfiles hspells hperm .windows1252⟩

/-! ## §4 Where the order matters -/

/-- Of two files that write their directory in two ways, the second is ignored if it comes
first, and not if it comes second. -/
theorem AreMisspelt.order_matters {x y d d' : Path} {octets octets' : List UInt8}
    {list list' : IgnoreList} (h : job.AreMisspelt s tree x y d d' octets octets' list list')
    (hplan : plan page job.inserter (job.found page s tree x) octets = .ok none)
    (hworked : (job.reportFor page s y (job.found page s tree y) octets').action ≠ .skipped) :
    ¬ComeToSame [x, y] [y, x] (job.run page s tree [x, y]) (job.run page s tree [y, x]) := by
  intro hsame
  obtain ⟨hnone, hreports⟩ := h.run_eq hplan
  obtain ⟨cause, hcause⟩ := Option.isSome_iff_exists.mp h.ignored
  obtain ⟨said, hlist⟩ := listFor_of_load job List.find?_nil h.load'
  obtain ⟨remarks, hstep⟩ := h.second.step_ignored hlist hcause page
  have hswapped : ∃ rest, (job.run page s tree [y, x]).reports =
      .skipped (displayPath s y) (SkipReason.ignored cause).message :: rest := by
    simp only [run, runFrom, hstep]
    exact ⟨_, rfl⟩
  obtain ⟨rest, hrest⟩ := hswapped
  obtain ⟨report, hreport, hreport'⟩ := hsame.reports hnone
  rw [hreports, List.map_cons, List.map_singleton, List.cons_eq_cons, List.cons_eq_cons] at hreport
  rw [hrest, List.map_cons, List.cons_eq_cons] at hreport'
  apply hworked
  rw [hreport.2.1, ← hreport'.1]
  rfl

/-- The files `x` and `y` of one directory, seen from the root. -/
def relativeFiles : List Path := [⟨['a', '/', '/', 'b', '/', 'x']⟩, ⟨['a', '/', 'b', '/', 'y']⟩]

/-- The text of a relative directory is taken off once more, if it is there. -/
theorem relative_misspelt :
    markedJob.AreMisspelt atRoot oneDirectory ⟨['a', '/', '/', 'b', '/', 'x']⟩
      ⟨['a', '/', 'b', '/', 'y']⟩ ⟨['a', '/', '/', 'b']⟩ ⟨['a', '/', 'b']⟩ [0x6D] [0x6D]
      (listOf ⟨['a', '/', '/', 'b']⟩ [ruleAgainstY]) (listOf ⟨['a', '/', 'b']⟩ [ruleAgainstY]) where
  first := ⟨by cbv, by cbv, rfl, by decide⟩
  second := ⟨by cbv, by cbv, rfl, by decide⟩
  sameDirectory := by decide
  load := by cbv
  load' := by cbv
  cause := by decide
  ignored := by decide

theorem relativeFiles_areFiles : AreFiles atRoot oneDirectory relativeFiles := by
  have hplaces : relativeFiles.map (oneDirectory.placeOf? atRoot.cwd) =
      [some [['a'], ['b'], ['x']], some [['a'], ['b'], ['y']]] := by cbv
  refine areFiles_of_linkless (by decide) rfl ?_ ?_
  · rw [relativeFiles, List.forall_mem_cons, List.forall_mem_singleton]
    exact ⟨⟨[['a'], ['b'], ['x']], [0x6D], by cbv, by cbv, by decide⟩,
      ⟨[['a'], ['b'], ['y']], [0x6D], by cbv, by cbv, by decide⟩⟩
  · have hdistinct : (relativeFiles.map (oneDirectory.placeOf? atRoot.cwd)).Pairwise (· ≠ ·) := by
      rw [hplaces]
      decide
    exact List.pairwise_map.mp hdistinct

theorem wideFile_areFiles {k : Nat} (hk : k ≤ 4089) :
    AreFiles atRoot oneDirectory [wideFile k, ⟨['/', 'a', '/', 'b', '/', 'y']⟩] := by
  have hy : oneDirectory.placeOf? atRoot.cwd ⟨['/', 'a', '/', 'b', '/', 'y']⟩ =
      some [['a'], ['b'], ['y']] := by cbv
  refine areFiles_of_linkless (by decide) rfl ?_ ?_
  · rw [List.forall_mem_cons, List.forall_mem_singleton]
    exact ⟨⟨_, [0x6D], wideFile_place hk, (wideFile_isRegular hk).look, by decide⟩,
      ⟨_, [0x6D], hy, by cbv, by decide⟩⟩
  · rw [List.pairwise_pair, wideFile_place hk, hy]
    decide

/-- The order matters where files in one directory write it in two ways: if the paths are
absolute, since one may be too long, and if none is too long, since they may be relative. -/
theorem run_not_perm :
    (¬∀ (job : Job) (page : CodePage) (s : Surroundings) (tree : FileTree) (paths paths' : List Path),
      job.detector.GoesByOctets → job.diffs.saved = none → AreFiles s tree paths →
      paths.Perm paths' →
      (∀ path ∈ paths, path.isAbsolute = true) →
        ComeToSame paths paths' (job.run page s tree paths) (job.run page s tree paths')) ∧
    ¬∀ (job : Job) (page : CodePage) (s : Surroundings) (tree : FileTree) (paths paths' : List Path),
      job.detector.GoesByOctets → job.diffs.saved = none → AreFiles s tree paths →
      paths.Perm paths' →
      (∀ path ∈ paths, ∀ d, path.parent? = some d →
        FileTree.Fits (d.join (.ofString IgnoreList.fileName))) →
        ComeToSame paths paths' (job.run page s tree paths) (job.run page s tree paths') := by
  have hdetector : markedJob.detector.GoesByOctets := Detector.goesByOctets_fixed .ascii
  have hplan := markedJob_plan .windows1252 atRoot oneDirectory
  have hworked (path : Path) : (markedJob.reportFor .windows1252 atRoot path
      (markedJob.found .windows1252 atRoot oneDirectory path) [0x6D]).action ≠ .skipped := by
    rw [markedJob_action]
    decide
  constructor
  · intro hall
    have hmisspelt := wide_misspelt (k := 4080) (by decide) (by decide)
    refine hmisspelt.order_matters (hplan _) (hworked _) ?_
    have habsolute (k : Nat) : ∀ path ∈ [wideFile k, ⟨['/', 'a', '/', 'b', '/', 'y']⟩],
        path.isAbsolute = true := by
      rw [List.forall_mem_cons, List.forall_mem_singleton]
      exact ⟨rfl, rfl⟩
    exact hall markedJob .windows1252 atRoot oneDirectory _ _ hdetector rfl
      (wideFile_areFiles (k := 4080) (by decide)) (List.Perm.swap _ _ _) (habsolute 4080)
  · intro hall
    have hmisspelt := relative_misspelt
    refine hmisspelt.order_matters (hplan _) (hworked _) ?_
    refine hall markedJob .windows1252 atRoot oneDirectory _ _ hdetector rfl relativeFiles_areFiles
      (List.Perm.swap _ _ _) ?_
    rw [List.forall_mem_cons, List.forall_mem_singleton]
    refine ⟨fun d hd => ?_, fun d hd => ?_⟩
    · rw [hmisspelt.first.parent, Option.some.injEq] at hd
      subst hd
      unfold FileTree.Fits
      decide
    · rw [hmisspelt.second.parent, Option.some.injEq] at hd
      subst hd
      unfold FileTree.Fits
      decide

end MarkerBlock.Job
