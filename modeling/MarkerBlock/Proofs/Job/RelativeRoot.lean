/-
MarkerBlock.Proofs.Job.RelativeRoot — a workspace that is given by a relative path.

Files are collected as absolute paths, and an absolute path is never below a relative one
(`Path.not_startsWith_of_relative`).  So a relative workspace is none: filters see a file's
whole path, and of the ignore files only that of the file's own directory is read
(`reason?_of_relative`).  Which relative path it is makes no difference to a run
(`run_of_relative`).
-/
import Mathlib
import MarkerBlock.Proofs.Ignore.Anchored
import MarkerBlock.Proofs.Job.Placement

namespace MarkerBlock

/-! ## §1 Seen from a relative path -/

namespace Path

variable {p base : Path}

theorem isAbsolute_of_parent {d : Path} (hp : p.isAbsolute = true) (hd : p.parent? = some d) :
    d.isAbsolute = true := by
  have hspec := parent?_spec p
  rw [hd] at hspec
  obtain ⟨hparent, -, hroot⟩ := hspec
  rw [isAbsolute_of_components] at hp ⊢
  obtain ⟨tail, htail⟩ := List.head?_eq_some_iff.mp hp
  rw [hparent.components, htail]
  cases tail with
  | nil => exact absurd htail hroot
  | cons next rest => rfl

/-- No absolute path is below a relative one.  (Every path is below the empty one.) -/
theorem not_startsWith_of_relative (hp : p.isAbsolute = true) (hbase : base.isAbsolute = false)
    (hne : base.components ≠ []) : p.startsWith base = false := by
  cases hstart : p.startsWith base with
  | false => rfl
  | true =>
    obtain ⟨first, rest, hfirst⟩ := List.exists_cons_of_ne_nil hne
    obtain ⟨tail, htail⟩ := List.head?_eq_some_iff.mp ((isAbsolute_of_components p).mp hp)
    rw [startsWith, hfirst, htail, List.isPrefixOf_cons_cons, Bool.and_eq_true, beq_iff_eq] at hstart
    have habs : base.isAbsolute = true := by
      rw [isAbsolute_of_components, hfirst, hstart.1]
      rfl
    exact absurd (hbase.symm.trans habs) (by decide)

/-- From a relative path, an absolute path is seen as it is. -/
theorem relativeTo_of_relative (hp : p.isAbsolute = true) (hbase : base.isAbsolute = false)
    (hne : base.components ≠ []) : p.relativeTo base = p := by
  have hstrip : p.stripPrefix? base = none := by
    rw [stripPrefix?, not_startsWith_of_relative hp hbase hne]
    rfl
  have hdifference : p.difference? base = some p := by
    rw [difference?, hp, hbase]
    rfl
  rw [relativeTo, if_pos hp, hstrip, hdifference]
  rfl

end Path

namespace IgnoreList

variable {s : Surroundings} {tree : FileTree} {d root : Path}

/-- Rules loaded for a relative workspace refer to the directory they are loaded for. -/
theorem rootFor_of_relative (hd : d.isAbsolute = true) (hroot : root.isAbsolute = false)
    (hne : root.components ≠ []) : rootFor d root = d := by
  rw [rootFor, Path.not_startsWith_of_relative hd hroot hne]
  rfl

theorem rootFor_self (d : Path) : rootFor d d = d := ite_self d

/-- For a relative workspace, a directory's own ignore file is loaded and no other. -/
theorem load_of_relative (list : IgnoreList) (hd : d.isAbsolute = true)
    (hroot : root.isAbsolute = false) (hne : root.components ≠ []) :
    load s tree list d root = load s tree list d d := by
  unfold load
  rw [rootFor_of_relative hd hroot hne, rootFor_self]

theorem self_mem_chain (d root : Path) : d ∈ chain d root := by
  have hfirst : ∃ rest, d.ancestors = d :: rest := by
    cases hd : d.parent? with
    | none => exact ⟨[], Path.ancestors_of_none hd⟩
    | some above => exact ⟨above.ancestors, Path.ancestors_of_parent hd⟩
  obtain ⟨rest, hrest⟩ := hfirst
  unfold chain
  simp [hrest]

/-- Where no ignore file is from a directory up to its root, none is in the directory. -/
theorem ignoreFiles_self {cwd : Place} (h : ignoreFiles tree cwd d root = []) :
    ignoreFiles tree cwd d d = [] := by
  unfold ignoreFiles at h ⊢
  rw [List.filter_eq_nil_iff] at h ⊢
  intro file hfile
  rw [chain_self, List.map_singleton, List.mem_singleton] at hfile
  exact h file (List.mem_map.mpr ⟨d, self_mem_chain d root, hfile.symm⟩)

/-- Where no ignore file is, nothing is ignored. -/
theorem load_of_no_file (hvariable : s.ignoreVariable = none)
    (hfiles : ignoreFiles tree s.cwd d (rootFor d root) = []) :
    (load s tree { globs := [] } d root).1 =
      .ok { globs := [], loaded := some { root := rootFor d root, rules := [] } } := by
  rw [load_eq, rulesIn_of_no_file hvariable hfiles]
  rfl

end IgnoreList

/-! ## §2 Decisions -/

namespace Job

variable {job : Job} {s : Surroundings} {tree : FileTree} {p r r' : Path}

/-- Why a file is skipped, if it is, by what filters say of it and by what the rules for its
directory do. -/
def reasonBy (s : Surroundings) (tree : FileTree) (path : Path) (filtered : Option SkipReason)
    (ignored : Path → Except Ignore.Error (Option SkipReason)) :
    Except Ignore.Error (Option SkipReason) :=
  match tree.statLink s.cwd path with
  | .ok (.link _) => .ok (some .symlink)
  | .error e => .ok (some (.unstatable e))
  | .ok _ =>
    match filtered with
    | some reason => .ok (some reason)
    | none =>
      match path.parent? with
      | none => .ok none
      | some directory => ignored directory

/-- What the rules do that are loaded for a directory of the workspace `root`. -/
def ignoredFrom (s : Surroundings) (tree : FileTree) (path root directory : Path) :
    Except Ignore.Error (Option SkipReason) :=
  (IgnoreList.load s tree { globs := [] } directory root).1.map fun list =>
    (list.cause? path).map .ignored

/-- Why a file is skipped if filters see its whole path, and of the ignore files only that of its
directory is read, and that for every workspace. -/
def reasonAlone? (job : Job) (s : Surroundings) (tree : FileTree) (path : Path) :
    Except Ignore.Error (Option SkipReason) :=
  reasonBy s tree path (job.filter.judge path) fun d => ignoredFrom s tree path d d

theorem reason?_eq_reasonBy (job : Job) (s : Surroundings) (tree : FileTree) (path : Path) :
    job.reason? s tree path =
      reasonBy s tree path (job.filter.judge (path.relativeTo job.workspace))
        (ignoredFrom s tree path job.workspace) :=
  rfl

/-- Rules count for the directory of the file only. -/
theorem reasonBy_congr {ignored ignored' : Path → Except Ignore.Error (Option SkipReason)}
    (h : ∀ d, p.parent? = some d → ignored d = ignored' d) (filtered : Option SkipReason) :
    reasonBy s tree p filtered ignored = reasonBy s tree p filtered ignored' := by
  unfold reasonBy
  cases hd : p.parent? with
  | none => rfl
  | some d =>
    dsimp only
    rw [h d hd]

theorem ignoredFrom_of_relative {d : Path} (hd : d.isAbsolute = true) (hr : r.isAbsolute = false)
    (hne : r.components ≠ []) : ignoredFrom s tree p r d = ignoredFrom s tree p d d := by
  unfold ignoredFrom
  rw [IgnoreList.load_of_relative _ hd hr hne]

/-- From a relative workspace, decisions are as if there were none. -/
theorem reason?_of_relative (hr : r.isAbsolute = false) (hne : r.components ≠ [])
    (hp : p.isAbsolute = true) : (job.workingIn r).reason? s tree p = job.reasonAlone? s tree p := by
  have hsees : p.relativeTo (job.workingIn r).workspace = p := Path.relativeTo_of_relative hp hr hne
  rw [reason?_eq_reasonBy, hsees, reasonAlone?]
  refine reasonBy_congr (fun d hd => ?_) _
  exact ignoredFrom_of_relative (Path.isAbsolute_of_parent hp hd) hr hne

/-- No ignore file holds in a directory of the workspace `root`, and none holds everywhere. -/
def HoldsNoRules (s : Surroundings) (tree : FileTree) (d root : Path) : Prop :=
  s.ignoreVariable = none ∧ IgnoreList.ignoreFiles tree s.cwd d (IgnoreList.rootFor d root) = []

theorem ignoredFrom_of_no_file {d root : Path} (hvariable : s.ignoreVariable = none)
    (hfiles : IgnoreList.ignoreFiles tree s.cwd d (IgnoreList.rootFor d root) = []) :
    ignoredFrom s tree p root d = .ok none := by
  rw [ignoredFrom, IgnoreList.load_of_no_file hvariable hfiles, Except.map,
    IgnoreList.cause?_of_no_rules]
  rfl

/-- Where filters do not tell the two forms of a path apart, a file directly in the workspace is
decided on as from there, and so is one in a directory without rules. -/
theorem reasonAlone?_eq_reason? {root : Path}
    (hfilter : job.filter.judge p = job.filter.judge (p.relativeTo root))
    (hrules : ∀ d, p.parent? = some d → d = root ∨ HoldsNoRules s tree d root) :
    job.reasonAlone? s tree p = (job.workingIn root).reason? s tree p := by
  rw [reason?_eq_reasonBy, reasonAlone?, hfilter]
  refine reasonBy_congr (fun d hd => ?_) _
  rcases hrules d hd with rfl | ⟨hvariable, hfiles⟩
  · rfl
  · have hown : IgnoreList.ignoreFiles tree s.cwd d (IgnoreList.rootFor d d) = [] := by
      rw [IgnoreList.rootFor_self]
      exact IgnoreList.ignoreFiles_self hfiles
    rw [ignoredFrom_of_no_file hvariable hown]
    exact (ignoredFrom_of_no_file hvariable hfiles).symm

/-! ## §3 Runs -/

section runs

variable (hr : r.isAbsolute = false) (hne : r.components ≠ []) (hr' : r'.isAbsolute = false)
  (hne' : r'.components ≠ [])
include hr hne hr' hne'

theorem listFor_of_relative {d : Path} (hd : d.isAbsolute = true) (lists : Lists) :
    (job.workingIn r).listFor s tree lists d = (job.workingIn r').listFor s tree lists d := by
  unfold listFor
  simp only [workingIn, IgnoreList.load_of_relative _ hd hr hne,
    IgnoreList.load_of_relative _ hd hr' hne']

theorem judge_of_relative (hp : p.isAbsolute = true) (lists : Lists) :
    (job.workingIn r).judge s tree lists p = (job.workingIn r').judge s tree lists p := by
  unfold judge
  have hsees : p.relativeTo (job.workingIn r).workspace = p.relativeTo (job.workingIn r').workspace :=
    (Path.relativeTo_of_relative hp hr hne).trans (Path.relativeTo_of_relative hp hr' hne').symm
  rw [hsees]
  cases hd : p.parent? with
  | none => rfl
  | some d =>
    simp only [listFor_of_relative hr hne hr' hne' (Path.isAbsolute_of_parent hp hd)]
    rfl

theorem step_of_relative (hp : p.isAbsolute = true) (page : CodePage) (lists : Lists) :
    (job.workingIn r).step page s tree lists p = (job.workingIn r').step page s tree lists p := by
  unfold step
  rw [judge_of_relative hr hne hr' hne' hp]
  rfl

theorem runFrom_of_relative {paths : List Path} (hpaths : ∀ p ∈ paths, p.isAbsolute = true)
    (page : CodePage) (lists : Lists) :
    (job.workingIn r).runFrom page s tree lists paths =
      (job.workingIn r').runFrom page s tree lists paths := by
  induction paths generalizing tree lists with
  | nil => rfl
  | cons p rest ih =>
    obtain ⟨hp, hrest⟩ := List.forall_mem_cons.mp hpaths
    rw [runFrom, runFrom, step_of_relative hr hne hr' hne' hp]
    cases (job.workingIn r').step page s tree lists p with
    | error e => rfl
    | ok done => simp only [ih hrest]

/-- One relative workspace is as good as another. -/
theorem run_of_relative {paths : List Path} (hpaths : ∀ p ∈ paths, p.isAbsolute = true)
    (page : CodePage) :
    (job.workingIn r).run page s tree paths = (job.workingIn r').run page s tree paths := by
  rw [run, run, runFrom_of_relative hr hne hr' hne' hpaths]

end runs

/-! ## §4 What a relative workspace means -/

/-- A relative workspace is ignored.  A job decides on absolute paths as if it had none; it decides
as from the same directory in absolute form where its filters do not tell the whole path from the
path below the directory, and the file lies directly in the directory or no rules hold for it; and
all relative workspaces make the same runs. -/
theorem relative_workspace_is_ignored (hr : r.isAbsolute = false) (hne : r.components ≠ [])
    (job : Job) (s : Surroundings) :
    (∀ (tree : FileTree) (p : Path), p.isAbsolute = true →
      (job.workingIn r).reason? s tree p = job.reasonAlone? s tree p) ∧
    (∀ (tree : FileTree) (p : Path), p.isAbsolute = true →
      job.filter.judge p = job.filter.judge (p.relativeTo (r.absoluteFrom s.directory)) →
      (∀ d, p.parent? = some d → d = r.absoluteFrom s.directory ∨
        HoldsNoRules s tree d (r.absoluteFrom s.directory)) →
      (job.workingIn r).reason? s tree p =
        (job.workingIn (r.absoluteFrom s.directory)).reason? s tree p) ∧
    (∀ r' : Path, r'.isAbsolute = false → r'.components ≠ [] →
      ∀ (page : CodePage) (tree : FileTree) (paths : List Path),
        (∀ p ∈ paths, p.isAbsolute = true) →
        (job.workingIn r).run page s tree paths = (job.workingIn r').run page s tree paths) := by
  refine ⟨?_, ?_, ?_⟩
  · intro tree p hp
    exact reason?_of_relative hr hne hp
  · intro tree p hp hfilter hrules
    rw [reason?_of_relative hr hne hp]
    exact reasonAlone?_eq_reason? hfilter hrules
  · intro r' hr' hne' page tree paths hpaths
    exact run_of_relative hr hne hr' hne' hpaths page

theorem relative_workspace_is_ignored_of_dot :
    (Path.ofString ".").isAbsolute = false ∧ (Path.ofString ".").components ≠ [] ∧
    (braceJob.workingIn (.ofString ".")).reason? atRoot (twoDirectories [0x7B])
        (.ofString "/b/y") =
      braceJob.reasonAlone? atRoot (twoDirectories [0x7B]) (.ofString "/b/y") ∧
    (braceJob.workingIn (.ofString ".")).reason? atRoot (twoDirectories [0x7B])
        (.ofString "/a/x") =
      (braceJob.workingIn (.ofString "/")).reason? atRoot (twoDirectories [0x7B])
        (.ofString "/a/x") ∧
    (braceJob.workingIn (.ofString ".")).run .windows1252 atRoot (twoDirectories [0x7B]) twoFiles =
      (braceJob.workingIn (.ofString "src/")).run .windows1252 atRoot (twoDirectories [0x7B])
        twoFiles := by
  have hr : (Path.ofString ".").isAbsolute = false := by decide
  have hne : (Path.ofString ".").components ≠ [] := by decide
  have hroot : (Path.ofString ".").absoluteFrom atRoot.directory = .ofString "/" := by decide
  have hrules : ∀ d, (Path.ofString "/a/x").parent? = some d →
      d = .ofString "/" ∨ HoldsNoRules atRoot (twoDirectories [0x7B]) d (.ofString "/") := by
    have hparent : (Path.ofString "/a/x").parent? = some (.ofString "/a") := by decide
    intro d hd
    rw [hparent] at hd
    cases hd
    exact .inr ⟨rfl, by cbv⟩
  obtain ⟨halone, hagree, hruns⟩ := relative_workspace_is_ignored hr hne braceJob atRoot
  rw [hroot] at hagree
  refine ⟨hr, hne, halone _ _ (by decide), hagree _ _ (by decide) rfl hrules, ?_⟩
  exact hruns (.ofString "src/") (by decide) (by decide) _ _ twoFiles (by decide)

/-- The current directory, `/w`. -/
def inW : Surroundings := { cwd := [['w']] }

/-- A file in a directory of it, and rules beside that directory. -/
def rulesAbove (rules : List UInt8) : FileTree :=
  ⟨[(['w'], .directory [(['d'], .directory [(['x'], .file [0x61])]),
    (IgnoreList.fileName.toList, .file rules)])]⟩

theorem rulesAbove_isRegular {job : Job} (rules : List UInt8)
    (h : job.filter.judge ((Path.ofString "/w/d/x").relativeTo job.workspace) = none) :
    job.IsRegular inW (rulesAbove rules) (.ofString "/w/d/x") (.ofString "/w/d") [0x61] :=
  ⟨by cbv, by cbv, h, by decide⟩

/-- A job that skips paths with `/w/` in them. -/
def skipW : Job := { braceJob with filter := .fragments (.ofTexts ["/w/"]) }

/-- Called in `/w` for its directory `d`, with `.` and with `/w` for the workspace: the rule `/d`
beside `d` holds only from `/w`, and the fragment `/w/` is found only from `.`. -/
theorem relative_workspace_differs :
    (Path.ofString ".").absoluteFrom inW.directory = .ofString "/w" ∧
    (Selection.select inW (rulesAbove [0x2F, 0x64]) ["d"]).toOption.map (·.paths) =
      some [.ofString "/w/d/x"] ∧
    (braceJob.workingIn (.ofString ".")).reason? inW (rulesAbove [0x2F, 0x64])
        (.ofString "/w/d/x") = .ok none ∧
    (braceJob.workingIn (.ofString "/w")).reason? inW (rulesAbove [0x2F, 0x64])
        (.ofString "/w/d/x") = .ok (some (.ignored (.rule (.ofString "/w/d/x")))) ∧
    (skipW.workingIn (.ofString ".")).reason? inW (rulesAbove []) (.ofString "/w/d/x") =
      .ok (some (.pathContains "/w/".toList)) ∧
    (skipW.workingIn (.ofString "/w")).reason? inW (rulesAbove []) (.ofString "/w/d/x") =
      .ok none := by
  have hmarkless : Ignore.IsMarkless ['d'] := Ignore.isMarkless_of_word (by decide)
    (List.forall_mem_singleton.mpr (.inl rfl))
  refine ⟨by decide, by cbv, ?_, ?_, by cbv, ?_⟩
  · have hload : (IgnoreList.load inW (rulesAbove [0x2F, 0x64]) { globs := [] } (.ofString "/w/d")
        (.ofString ".")).1 = .ok (listOf (.ofString "/w/d") []) := by cbv
    rw [(rulesAbove_isRegular _ rfl).reason?_eq, workingIn, hload, Except.map, listOf,
      IgnoreList.cause?_of_no_rules]
    rfl
  · have hload : (IgnoreList.load inW (rulesAbove [0x2F, 0x64]) { globs := [] } (.ofString "/w/d")
        (.ofString "/w")).1 = .ok (listOf (.ofString "/w") [Ignore.nameRule ['d']]) := by cbv
    have hcause : (listOf (.ofString "/w") [Ignore.nameRule ['d']]).cause? (.ofString "/w/d/x") =
        some (.rule (.ofString "/w/d/x")) := by
      rw [listOf, IgnoreList.cause?_nameRule hmarkless (by decide) (by decide)]
      decide
    rw [(rulesAbove_isRegular _ rfl).reason?_eq, workingIn, hload, Except.map, hcause]
    rfl
  · have hload : (IgnoreList.load inW (rulesAbove []) { globs := [] } (.ofString "/w/d")
        (.ofString "/w")).1 = .ok (listOf (.ofString "/w") []) := by cbv
    have hfilter : (skipW.workingIn (.ofString "/w")).filter.judge
        ((Path.ofString "/w/d/x").relativeTo (.ofString "/w")) = none := by cbv
    rw [(rulesAbove_isRegular _ hfilter).reason?_eq, workingIn, hload, Except.map, listOf,
      IgnoreList.cause?_of_no_rules]
    rfl

end Job

end MarkerBlock
