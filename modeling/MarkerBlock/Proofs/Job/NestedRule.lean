/-
MarkerBlock.Proofs.Job.NestedRule — a rule with a slash in front, in an ignore file below
the workspace root.

Let the line `/n` be the only rule in the ignore files that hold for the files of a batch,
and let it stand in the ignore file of a directory `D` below the workspace.  Then the files
are skipped if the way from the workspace to `D` begins with the name `n`, and all of them
are worked on if it does not (`run_nested_rule`): whether a file is `n` in `D` makes no
difference.
-/
import Mathlib
import MarkerBlock.Proofs.Ignore.Anchored
import MarkerBlock.Proofs.Job.Order

namespace MarkerBlock.Job

open Ignore IgnoreList

variable {job : Job} {page : CodePage} {s : Surroundings} {tree : FileTree} {path D : Path}
  {paths : List Path} {n : List Char} {octetsAt : Path → List UInt8}

/-! ## §1 One file -/

/-- Files below a directory `D` of the workspace, for which the line `/n` in the ignore file of
`D` is the only rule. -/
structure AreBelowRule (job : Job) (s : Surroundings) (tree : FileTree) (D : Path) (n : List Char)
    (paths : List Path) (octetsAt : Path → List UInt8) : Prop where
  absolute : job.workspace.isAbsolute = true
  inside : D.startsWith job.workspace = true
  below : job.workspace.components.length < D.components.length
  markless : IsMarkless n
  files : ∀ path ∈ paths, ∃ d, D ∈ d.ancestors ∧ job.IsRegular s tree path d (octetsAt path) ∧
    IsOnlyRule s tree D ('/' :: n) d

/-- The way from the workspace to `D` begins with the name `n`. -/
def BeginsWith (job : Job) (D : Path) (n : List Char) : Prop :=
  D.components[job.workspace.components.length]? = some (.name n)

instance : Decidable (job.BeginsWith D n) :=
  inferInstanceAs (Decidable (D.components[job.workspace.components.length]? = some (.name n)))

/-- What is reported on a file below `D`, if it comes up in the tree `now`. -/
def reportBelow (job : Job) (page : CodePage) (s : Surroundings) (now : FileTree) (D : Path)
    (n : List Char) (octetsAt : Path → List UInt8) (path : Path) : FileReport :=
  if job.BeginsWith D n then .skipped (displayPath s path) (SkipReason.ignored (.rule path)).message
  else job.reportFor page s path (job.found page s now path) (octetsAt path)

/-- A report on a file below `D`, which had the same octets still when it came up. -/
def IsReportBelow (job : Job) (page : CodePage) (s : Surroundings) (D : Path) (n : List Char)
    (octetsAt : Path → List UInt8) (path : Path) (report : FileReport) : Prop :=
  ∃ now, now.look? s.cwd path = some (.file (octetsAt path)) ∧
    report = job.reportBelow page s now D n octetsAt path

section below

variable (h : job.AreBelowRule s tree D n paths octetsAt) (hpath : path ∈ paths)
include h hpath

theorem AreBelowRule.reason?_eq : job.reason? s tree path =
    .ok (if job.BeginsWith D n then some (.ignored (.rule path)) else none) := by
  obtain ⟨d, hD, hregular, honly⟩ := h.files path hpath
  obtain ⟨hroot, hrules⟩ := rulesIn_of_onlyRule h.markless hD h.inside h.below honly
  -- the components of `D` are the first ones of the file
  have hprefix : D.components <+: path.components := by
    refine (Path.components_prefix_of_mem_ancestors hD).trans ?_
    rw [(Path.parent?_eq_some hregular.parent).components]
    exact List.dropLast_prefix path.components
  have hstart : path.startsWith job.workspace = true :=
    List.isPrefixOf_iff_prefix.mpr ((List.isPrefixOf_iff_prefix.mp h.inside).trans hprefix)
  have hname : path.components[job.workspace.components.length]? =
      D.components[job.workspace.components.length]? := by
    obtain ⟨more, hmore⟩ := hprefix
    rw [← hmore, List.getElem?_append_left h.below]
  rw [hregular.reason?_eq, load_eq, hrules, hroot]
  simp only [Except.map, cause?_nameRule h.markless h.absolute hstart, hname]
  by_cases hbegins : job.BeginsWith D n
  · rw [if_pos hbegins]
    unfold BeginsWith at hbegins
    rw [if_pos hbegins, Option.map_some]
  · rw [if_neg hbegins]
    unfold BeginsWith at hbegins
    rw [if_neg hbegins, Option.map_none]

/-- A file that comes up later is skipped or worked on as it would be in the first tree. -/
theorem AreBelowRule.visit_eq {rest : List Path} {now : FileTree}
    (hfollows : Follows s tree (path :: rest) now) (page : CodePage) :
    job.visit page s now path =
      .ok (if job.BeginsWith D n then now else (job.ensure page s now path).2.tree,
        job.reportBelow page s now D n octetsAt path) ∧
    now.look? s.cwd path = some (.file (octetsAt path)) := by
  obtain ⟨d, -, hregular, -⟩ := h.files path hpath
  have hlook := (hfollows.files path List.mem_cons_self).trans hregular.look
  obtain ⟨hencoding, hresult⟩ := ensure_of_look? job hlook page
  have hreason := reason?_follows job hfollows hregular.look
  rw [h.reason?_eq hpath] at hreason
  refine ⟨?_, hlook⟩
  unfold visit reportBelow
  generalize job.reason? s now path = reason at hreason
  cases reason with
  | error e => cases hreason
  | ok reason =>
    obtain rfl : reason = _ := Option.some.inj hreason
    by_cases hbegins : job.BeginsWith D n
    · simp only [if_pos hbegins]
      rfl
    · simp only [if_neg hbegins, Except.map, hencoding, hresult]
      rfl

end below

/-! ## §2 A batch -/

section batch

variable (hdiffs : job.diffs.saved = none) (hfiles : AreFiles s tree paths)
  (hspells : job.SpellsAlike paths) (h : job.AreBelowRule s tree D n paths octetsAt)
  (page : CodePage)

/-- What a visit of every file comes to, from any tree on the way. -/
theorem AreBelowRule.runPlainly_eq (hdiffs : job.diffs.saved = none)
    (h : job.AreBelowRule s tree D n paths octetsAt) (page : CodePage) {rest : List Path}
    {now : FileTree} (hrest : rest ⊆ paths) (hfiles : AreFiles s tree rest)
    (hfollows : Follows s tree rest now) :
    (job.runPlainly page s now rest).error = none ∧
      List.Forall₂ (job.IsReportBelow page s D n octetsAt) rest
        (job.runPlainly page s now rest).reports ∧
      (job.BeginsWith D n → (job.runPlainly page s now rest).tree = now) := by
  induction rest generalizing now with
  | nil => exact ⟨rfl, .nil, fun _ => rfl⟩
  | cons path rest ih =>
    obtain ⟨hpath, hrest⟩ := List.cons_subset.mp hrest
    obtain ⟨hvisit, hlook⟩ := h.visit_eq hpath hfollows page
    obtain ⟨herror, hreports, htree⟩ :=
      ih hrest hfiles.tail (Follows.change hdiffs hfiles hfollows hvisit)
    rw [runPlainly, hvisit]
    refine ⟨herror, .cons ⟨now, hlook, rfl⟩ hreports, ?_⟩
    intro hbegins
    rw [if_pos hbegins] at htree ⊢
    exact htree hbegins

include hdiffs hfiles hspells h

theorem AreBelowRule.run_eq :
    (job.run page s tree paths).error = none ∧
      List.Forall₂ (job.IsReportBelow page s D n octetsAt) paths
        (job.run page s tree paths).reports ∧
      (job.BeginsWith D n → (job.run page s tree paths).tree = tree) := by
  have hspares : ∀ path ∈ paths, job.SparesIgnoreFiles s tree path :=
    hfiles.spares fun path _ p hp => eq_of_mem_touched? hdiffs hp
  obtain ⟨htree, hreports, herror⟩ := Batch.of_silent (run_silent hspells hspares page)
  rw [htree, hreports, herror]
  exact h.runPlainly_eq hdiffs page (List.Subset.refl paths) hfiles (Follows.refl s tree paths)

/-- If the detector goes by the octets of a file, the reports can be told from the first tree. -/
theorem AreBelowRule.run_reports (hdetector : job.detector.GoesByOctets) :
    (job.run page s tree paths).reports = paths.map (job.reportBelow page s tree D n octetsAt) := by
  obtain ⟨-, hreports, -⟩ := h.run_eq hdiffs hfiles hspells page
  have hall := List.forall₂_and_left paths _ |>.mpr ⟨fun path hpath => hpath, hreports⟩
  have hsame : List.Forall₂ Eq (paths.map (job.reportBelow page s tree D n octetsAt))
      (job.run page s tree paths).reports := by
    refine List.forall₂_map_left_iff.mpr (hall.imp ?_)
    rintro path report ⟨hpath, now, hlook, rfl⟩
    obtain ⟨d, -, hregular, -⟩ := h.files path hpath
    have hfound : job.found page s tree path = job.found page s now path :=
      found_eq hdetector hregular.look hlook page
    unfold reportBelow
    rw [hfound]
  rw [List.forall₂_eq_eq_eq] at hsame
  exact hsame.symm

/-- A rule `/n` below the workspace root is about the entry `n` of the workspace: files below its
own directory are left alone if the way to this directory leads through the entry, whatever they
are called, and are worked on if not. -/
theorem run_nested_rule :
    (job.run page s tree paths).error = none ∧
      List.Forall₂ (job.IsReportBelow page s D n octetsAt) paths
        (job.run page s tree paths).reports ∧
      (job.detector.GoesByOctets → (job.run page s tree paths).reports =
        paths.map (job.reportBelow page s tree D n octetsAt)) ∧
      (job.BeginsWith D n → (job.run page s tree paths).tree = tree) := by
  obtain ⟨herror, hreports, htree⟩ := h.run_eq hdiffs hfiles hspells page
  exact ⟨herror, hreports, h.run_reports hdiffs hfiles hspells page, htree⟩

end batch

/-- A directory `/w/d` with a file `x`, and a directory in it with another; the ignore file has the
line `/x`. -/
def nestedTree : FileTree :=
  ⟨[(['w'], .directory [(['d'], .directory [(fileName.toList, .file [0x2F, 0x78, 0x0A]),
    (['e'], .directory [(['x'], .file [0x6D])]), (['x'], .file [0x6D])])])]⟩

/-- The directory with the ignore file. -/
def nestedDirectory : Path := ⟨['/', 'w', '/', 'd']⟩

/-- The directory in it. -/
def innerDirectory : Path := ⟨['/', 'w', '/', 'd', '/', 'e']⟩

/-- The files in both. -/
def nestedFiles : List Path := [nestedDirectory.join ⟨['x']⟩, innerDirectory.join ⟨['x']⟩]

theorem innerDirectory_ancestors : innerDirectory.ancestors =
    [innerDirectory, nestedDirectory, ⟨['/', 'w']⟩, ⟨['/']⟩] := by
  decide

theorem nested_ancestors : nestedDirectory.ancestors ⊆ innerDirectory.ancestors := by
  have hparent : innerDirectory.parent? = some nestedDirectory := by decide
  rw [Path.ancestors_of_parent hparent]
  exact List.subset_cons_self _ _

theorem nested_onlyRule {d : Path} (hd : d.ancestors ⊆ innerDirectory.ancestors) :
    IsOnlyRule atRoot nestedTree nestedDirectory ['/', 'x'] d where
  outer := rfl
  here := ⟨['/', 'x', '\n'], by cbv, by decide⟩
  elsewhere a ha hne hfile := by
    have hnone : ∀ a ∈ innerDirectory.ancestors, a ≠ nestedDirectory →
        nestedTree.isFile atRoot.cwd (a.join (.ofString fileName)) = false := by
      simp only [innerDirectory_ancestors, List.forall_mem_cons, List.not_mem_nil, false_implies,
        implies_true, and_true]
      exact ⟨fun _ => by cbv, fun h => absurd rfl h, fun _ => by cbv, fun _ => by cbv⟩
    rw [hnone a (hd ha) hne] at hfile
    cases hfile

theorem nested_belowRule : markedJob.AreBelowRule atRoot nestedTree nestedDirectory ['x'] nestedFiles
    fun _ => [0x6D] where
  absolute := by decide
  inside := by decide
  below := by decide
  markless := isMarkless_of_word (by decide) (List.forall_mem_singleton.mpr (.inl rfl))
  files := by
    rw [nestedFiles, List.forall_mem_cons, List.forall_mem_singleton]
    exact ⟨⟨nestedDirectory, by decide, ⟨by cbv, by cbv, rfl, by decide⟩, nested_onlyRule nested_ancestors⟩,
      ⟨innerDirectory, by decide, ⟨by cbv, by cbv, rfl, by decide⟩, nested_onlyRule (List.Subset.refl _)⟩⟩

theorem nested_areFiles : AreFiles atRoot nestedTree nestedFiles := by
  have hplaces : nestedFiles.map (nestedTree.placeOf? atRoot.cwd) =
      [some [['w'], ['d'], ['x']], some [['w'], ['d'], ['e'], ['x']]] := by cbv
  refine areFiles_of_linkless (by decide) rfl ?_ ?_
  · rw [nestedFiles, List.forall_mem_cons, List.forall_mem_singleton]
    exact ⟨⟨[['w'], ['d'], ['x']], [0x6D], by cbv, by cbv, by decide⟩,
      ⟨[['w'], ['d'], ['e'], ['x']], [0x6D], by cbv, by cbv, by decide⟩⟩
  · have hdistinct : (nestedFiles.map (nestedTree.placeOf? atRoot.cwd)).Pairwise (· ≠ ·) := by
      rw [hplaces]
      decide
    exact List.pairwise_map.mp hdistinct

theorem nested_spellsAlike : markedJob.SpellsAlike nestedFiles := spellsAlike_of_parents (by decide)

/-- Both files are worked on. -/
theorem run_nested_rule_of_two_files :
    markedJob.diffs.saved = none ∧ AreFiles atRoot nestedTree nestedFiles ∧
    markedJob.SpellsAlike nestedFiles ∧
    markedJob.AreBelowRule atRoot nestedTree nestedDirectory ['x'] nestedFiles (fun _ => [0x6D]) ∧
    (markedJob.run .windows1252 atRoot nestedTree nestedFiles).error = none ∧
    (markedJob.run .windows1252 atRoot nestedTree nestedFiles).reports =
      nestedFiles.map fun path => markedJob.reportFor .windows1252 atRoot path .ascii [0x6D] := by
  obtain ⟨herror, -, hreports, -⟩ := run_nested_rule rfl nested_areFiles nested_spellsAlike
    nested_belowRule .windows1252
  exact ⟨rfl, nested_areFiles, nested_spellsAlike, nested_belowRule, herror,
    hreports (Detector.goesByOctets_fixed .ascii)⟩

/-- A rule `/n` does not make sure that the file `n` beside it is skipped. -/
theorem nested_rule_misses_file :
    ¬∀ (job : Job) (page : CodePage) (s : Surroundings) (tree : FileTree) (D : Path) (n : List Char)
      (octetsAt : Path → List UInt8) (paths : List Path),
      job.diffs.saved = none → AreFiles s tree paths → job.SpellsAlike paths →
      job.AreBelowRule s tree D n paths octetsAt → D.join ⟨n⟩ ∈ paths →
        ∃ report ∈ (job.run page s tree paths).reports,
          report.path = displayPath s (D.join ⟨n⟩) ∧ report.action = .skipped := by
  intro hall
  obtain ⟨report, hreport, -, hskipped⟩ := hall markedJob .windows1252 atRoot nestedTree
    nestedDirectory ['x'] (fun _ => [0x6D]) nestedFiles rfl nested_areFiles nested_spellsAlike
    nested_belowRule List.mem_cons_self
  rw [nested_belowRule.run_reports rfl nested_areFiles nested_spellsAlike .windows1252
    (Detector.goesByOctets_fixed .ascii)] at hreport
  obtain ⟨path, -, rfl⟩ := List.mem_map.mp hreport
  have hbegins : ¬markedJob.BeginsWith nestedDirectory ['x'] := by decide
  rw [reportBelow, if_neg hbegins, markedJob_action] at hskipped
  cases hskipped

end MarkerBlock.Job
