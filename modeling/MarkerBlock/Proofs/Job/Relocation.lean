/-
MarkerBlock.Proofs.Job.Relocation — the place of a workspace makes no difference.

Two batches work on the same files of a directory that lies at two sites, each with the directory
for its workspace.  They go in step: at every file the directory has the same contents at both
sites, and the ignore lists that are kept are the same for the same directories (`AreTwins`).  One
file keeps it so and gets the same report (`AreTwins.step`), and so do all (`AreTwins.runFrom`).

What a batch can notice of the place are links that lead out of the directory, links that were
passed before, the length of paths, and the file for differences (`run_not_relocated`).
-/
import Mathlib
import MarkerBlock.Proofs.Job.Placement

namespace MarkerBlock.Job

variable {job : Job} {page : CodePage} {a b : Site} {tree tree' : FileTree} {lists lists' : Lists}
  {inner : Entries} {spare : Nat} {f : Place} {files : List Place} {octets : List UInt8}

/-! ## §1 Batches in step -/

/-- Lists that are kept for the same directory, seen from two roots: they have the same rules. -/
def AreKin (root root' : Path) (entry entry' : List Path.Component × IgnoreList) : Prop :=
  ∃ names : Place, ∃ rules, entry = (root.components ++ names.map .name, listOf root rules) ∧
    entry' = (root'.components ++ names.map .name, listOf root' rules)

/-- Two batches that have come to the same. -/
structure AreTwins (job : Job) (a b : Site) (spare : Nat) (files : List Place) (inner : Entries)
    (tree tree' : FileTree) (lists lists' : Lists) : Prop where
  left : job.Placed a spare files tree inner
  right : job.Placed b spare files tree' inner
  nodes : AreNodes inner files
  inside : ∀ f ∈ files, IgnoreList.KeepInside inner spare f.dropLast
  kin : List.Forall₂ (AreKin a.root b.root) lists lists'

/-! ## §2 The same decision -/

/-- The same lists are found for the same directory. -/
theorem find?_kin {root root' : Path} (h : List.Forall₂ (AreKin root root') lists lists')
    (names : Place) :
    Option.Rel (AreKin root root')
      (lists.find? fun entry => entry.1 == root.components ++ names.map .name)
      (lists'.find? fun entry => entry.1 == root'.components ++ names.map .name) := by
  have hkey (root : Path) (others : Place) :
      (root.components ++ others.map .name == root.components ++ names.map .name) =
        decide (others = names) := by
    have hinjective : Function.Injective Path.Component.name := fun _ _ h => Path.Component.name.inj h
    rw [Bool.beq_eq_decide_eq, decide_eq_decide, List.append_cancel_left_eq,
      List.map_inj_right hinjective]
  induction h with
  | nil => exact .none
  | cons hkin _ ih =>
    obtain ⟨others, rules, rfl, rfl⟩ := hkin
    rw [List.find?_cons, List.find?_cons, hkey, hkey]
    split
    · exact .some ⟨others, rules, rfl, rfl⟩
    · exact ih

/-- What two batches know after they have asked for the list of a directory. -/
structure AreFound (root root' : Path) (found found' : IgnoreList × Lists × List Remark) : Prop where
  list : ∃ rules, found.1 = listOf root rules ∧ found'.1 = listOf root' rules
  kin : List.Forall₂ (AreKin root root') found.2.1 found'.2.1

/-- The list of a directory has the same rules in two copies. -/
theorem AreTwins.listFor (h : AreTwins job a b spare files inner tree tree' lists lists')
    (hf : f ∈ files) {d d' : Path}
    (hd : IgnoreList.IsInCopy tree a.root spare a.place inner f.dropLast d)
    (hd' : IgnoreList.IsInCopy tree' b.root spare b.place inner f.dropLast d') :
    Option.Rel (AreFound a.root b.root)
      ((job.workingIn a.root).listFor a.surroundings tree lists d).toOption
      ((job.workingIn b.root).listFor b.surroundings tree' lists' d').toOption := by
  have hfind := find?_kin h.kin f.dropLast
  rw [← hd.components, ← hd'.components] at hfind
  cases hlist : lists.find? fun entry => entry.1 == d.components with
  | some entry =>
    cases hlist' : lists'.find? fun entry => entry.1 == d'.components with
    | none =>
      rw [hlist, hlist'] at hfind
      cases hfind
    | some entry' =>
      rw [hlist, hlist'] at hfind
      cases hfind with
      | some hkin =>
        obtain ⟨names, rules, rfl, rfl⟩ := hkin
        rw [listFor_of_kept hlist, listFor_of_kept hlist']
        exact .some ⟨⟨rules, rfl, rfl⟩, h.kin⟩
  | none =>
    cases hlist' : lists'.find? fun entry => entry.1 == d'.components with
    | some entry' =>
      rw [hlist, hlist'] at hfind
      cases hfind
    | none =>
      have hrules := IgnoreList.toOption_rulesIn_relocated hd hd' (h.inside f hf)
        h.left.lies.globalFile h.right.lies.globalFile
      have hload := load_in_copy hd a.surroundings
      have hload' := load_in_copy hd' b.surroundings
      generalize IgnoreList.rulesIn a.surroundings tree d a.root = found at hrules hload
      generalize IgnoreList.rulesIn b.surroundings tree' d' b.root = found' at hrules hload'
      rcases found with e | rules <;> rcases found' with e' | rules' <;> cases hrules
      · obtain ⟨said, herror⟩ := listFor_of_error (job.workingIn a.root) hlist hload
        obtain ⟨said', herror'⟩ := listFor_of_error (job.workingIn b.root) hlist' hload'
        rw [herror, herror']
        exact .none
      · obtain ⟨said, hfound⟩ := listFor_of_load (job.workingIn a.root) hlist hload
        obtain ⟨said', hfound'⟩ := listFor_of_load (job.workingIn b.root) hlist' hload'
        rw [hfound, hfound']
        refine .some ⟨⟨rules, rfl, rfl⟩, .cons ⟨f.dropLast, rules, ?_, ?_⟩ h.kin⟩
        · rw [hd.components]
        · rw [hd'.components]

/-- What was decided about a file in two batches. -/
structure IsSameVerdict (a b : Site) (inner : Entries) (f : Place)
    (found found' : Option SkipReason × Lists) : Prop where
  reason : found.1.map SkipReason.message = found'.1.map SkipReason.message
  kin : List.Forall₂ (AreKin a.root b.root) found.2 found'.2
  file : found.1 = none → ∃ octets, Entries.node? f inner = some (.file octets)

/-- A link is skipped. -/
theorem verdict_of_link {s : Surroundings} {path target : Path}
    (h : tree.statLink s.cwd path = .ok (.link target)) :
    verdict (job.judge s tree lists path) = some (some .symlink, lists) := by
  unfold judge
  rw [h]
  rfl

/-- A file is skipped for what the filter has against it. -/
theorem verdict_of_filter {s : Surroundings} {path : Path} {reason : SkipReason}
    (h : tree.statLink s.cwd path = .ok (.file octets))
    (hfilter : job.filter.judge (path.relativeTo job.workspace) = some reason) :
    verdict (job.judge s tree lists path) = some (some reason, lists) := by
  unfold judge
  simp only [h, hfilter]
  rfl

/-- A file of a copy that the filter lets through. -/
theorem Placed.isRegular (h : job.Placed a spare files tree inner) (hnodes : AreNodes inner files)
    (hf : f ∈ files) (hfile : Entries.node? f inner = some (.file octets))
    (hfilter : job.filter.judge (.ofShape .nothing f) = none) {d : Path}
    (hd : (a.root.below f).parent? = some d) :
    (job.workingIn a.root).IsRegular a.surroundings tree (a.root.below f) d octets where
  look := h.look? hnodes hf hfile
  stat := h.statLink hnodes hf hfile (.file octets)
  unfiltered := (congrArg job.filter.judge (h.relativeTo hnodes hf)).trans hfilter
  parent := hd

/-- All rules are given as one reason. -/
theorem map_message_of_isSome {cause cause' : Option IgnoreList.Cause}
    (h : cause.isSome = cause'.isSome) :
    (cause.map SkipReason.ignored).map SkipReason.message =
      (cause'.map SkipReason.ignored).map SkipReason.message := by
  cases cause <;> cases cause'
  · rfl
  · cases h
  · cases h
  · rfl

/-- The same is decided about a file in two copies. -/
theorem AreTwins.verdict (h : AreTwins job a b spare files inner tree tree' lists lists')
    (hf : f ∈ files) :
    Option.Rel (IsSameVerdict a b inner f)
      (verdict ((job.workingIn a.root).judge a.surroundings tree lists (a.root.below f)))
      (verdict ((job.workingIn b.root).judge b.surroundings tree' lists' (b.root.below f))) := by
  obtain ⟨node, hnode, hend⟩ := h.nodes.ends f hf
  have hstat := h.left.statLink h.nodes hf hnode hend
  have hstat' := h.right.statLink h.nodes hf hnode hend
  cases hend with
  | link target hlink =>
    rw [verdict_of_link hstat, verdict_of_link hstat']
    exact .some ⟨rfl, h.kin, fun hnone => by cases hnone⟩
  | file octets =>
    cases hfilter : job.filter.judge (.ofShape .nothing f) with
    | some reason =>
      have hleft := (congrArg job.filter.judge (h.left.relativeTo h.nodes hf)).trans hfilter
      have hright := (congrArg job.filter.judge (h.right.relativeTo h.nodes hf)).trans hfilter
      rw [verdict_of_filter hstat hleft, verdict_of_filter hstat' hright]
      exact .some ⟨rfl, h.kin, fun hnone => by cases hnone⟩
    | none =>
      obtain ⟨d, hd, hcopy⟩ := h.left.parent h.nodes hf
      obtain ⟨d', hd', hcopy'⟩ := h.right.parent h.nodes hf
      rw [(h.left.isRegular h.nodes hf hnode hfilter hd).verdict_judge,
        (h.right.isRegular h.nodes hf hnode hfilter hd').verdict_judge]
      have hlist := h.listFor hf hcopy hcopy'
      generalize (Job.listFor _ _ tree lists d).toOption = found at hlist
      generalize (Job.listFor _ _ tree' lists' d').toOption = found' at hlist
      cases hlist with
      | none => exact .none
      | some hfound =>
        obtain ⟨⟨rules, hrules, hrules'⟩, hkin⟩ := hfound
        refine .some ⟨?_, hkin, fun _ => ⟨octets, hnode⟩⟩
        have hcause := IgnoreList.cause?_relocated h.left.lies.copy.absolute
          h.right.lies.copy.absolute (h.nodes.ne_nil hf) (h.nodes.plain hf) rules
        simp only [hrules, hrules']
        exact map_message_of_isSome hcause

/-! ## §3 The same reports -/

/-- Two reports on the same file, which say the same but for the path. -/
structure IsSameReport (a b : Site) (files : List Place) (report report' : FileReport) : Prop where
  file : ∃ f ∈ files, report.path = displayPath a.surroundings (a.root.below f) ∧
    report'.path = displayPath b.surroundings (b.root.below f)
  encoding : report.encoding = report'.encoding
  hasMarker : report.hasMarker = report'.hasMarker
  action : report.action = report'.action
  reason : report.reason = report'.reason

theorem isSameReport_skipped (hf : f ∈ files) (message : String) :
    IsSameReport a b files (.skipped (displayPath a.surroundings (a.root.below f)) message)
      (.skipped (displayPath b.surroundings (b.root.below f)) message) :=
  ⟨⟨f, hf, rfl, rfl⟩, rfl, rfl, rfl, rfl⟩

theorem isSameReport_worked (hf : f ∈ files) (e : Encoding) (result : Except FileFailure Status) :
    IsSameReport a b files (reportOf page (displayPath a.surroundings (a.root.below f)) e result)
      (reportOf page (displayPath b.surroundings (b.root.below f)) e result) := by
  refine ⟨⟨f, hf, ?_, ?_⟩, ?_, ?_, ?_, ?_⟩ <;> cases result <;> rfl

/-- What two batches have come to after one more file. -/
structure AreSteps (job : Job) (a b : Site) (spare : Nat) (files : List Place) (done done' : Step) :
    Prop where
  twins : ∃ inner, AreTwins job a b spare files inner done.tree done'.tree done.lists done'.lists
  report : IsSameReport a b files done.report done'.report

/-- One file comes to the same in two copies. -/
theorem AreTwins.step (hdetector : job.detector.GoesByOctets)
    (h : AreTwins job a b spare files inner tree tree' lists lists') (hf : f ∈ files)
    (page : CodePage) :
    Option.Rel (AreSteps job a b spare files)
      ((job.workingIn a.root).step page a.surroundings tree lists (a.root.below f)).toOption
      ((job.workingIn b.root).step page b.surroundings tree' lists' (b.root.below f)).toOption := by
  have hverdict := h.verdict hf
  have hstep := step_of_verdict (job.workingIn a.root) page a.surroundings tree lists (a.root.below f)
  have hstep' :=
    step_of_verdict (job.workingIn b.root) page b.surroundings tree' lists' (b.root.below f)
  generalize Job.verdict _ = found at hverdict hstep
  generalize Job.verdict _ = found' at hverdict hstep'
  cases hverdict with
  | none =>
    obtain ⟨e, herror⟩ := hstep
    obtain ⟨e', herror'⟩ := hstep'
    rw [herror, herror']
    exact .none
  | @some found found' hfound =>
    obtain ⟨reason, kept⟩ := found
    obtain ⟨reason', kept'⟩ := found'
    have hreason := hfound.reason
    rcases reason with - | reason <;> rcases reason' with - | reason'
    · obtain ⟨octets, hfile⟩ := hfound.file rfl
      obtain ⟨remarks, hworked⟩ := hstep
      obtain ⟨remarks', hworked'⟩ := hstep'
      have hlook := h.left.look? h.nodes hf hfile
      have hlook' := h.right.look? h.nodes hf hfile
      obtain ⟨hencoding, hresult⟩ := ensure_of_look? (job.workingIn a.root) hlook page
      obtain ⟨hencoding', hresult'⟩ := ensure_of_look? (job.workingIn b.root) hlook' page
      have hsame : (job.workingIn a.root).found page a.surroundings tree (a.root.below f) =
          (job.workingIn b.root).found page b.surroundings tree' (b.root.below f) :=
        found_eq hdetector hlook hlook' page
      have hleft := h.left.ensure h.nodes hf hfile page
      rw [hsame] at hleft
      rw [hworked, hworked', hencoding, hresult, hencoding', hresult', hsame]
      refine .some ⟨⟨_, hleft, h.right.ensure h.nodes hf hfile page, ?_, ?_, hfound.kin⟩,
        isSameReport_worked hf _ _⟩
      · exact h.nodes.rewritten job page _ hfile
      · exact fun other hother => keepInside_rewritten (h.inside other hother) job page _ hfile
    · cases hreason
    · cases hreason
    · obtain ⟨remarks, hskipped⟩ := hstep
      obtain ⟨remarks', hskipped'⟩ := hstep'
      have hmessage : reason.message = reason'.message := Option.some.inj hreason
      rw [hskipped, hskipped', hmessage]
      exact .some ⟨⟨inner, h.left, h.right, h.nodes, h.inside, hfound.kin⟩, isSameReport_skipped hf _⟩

/-! ## §4 The same batch -/

/-- What comes of the files of a directory at two sites: the same reports but for the paths, an
early end in both batches or in none, and the same contents of the directory in the end. -/
structure ComeToTheSame (a b : Site) (spare : Nat) (files : List Place) (batch batch' : Batch) :
    Prop where
  reports : List.Forall₂ (IsSameReport a b files) batch.reports batch'.reports
  error : batch.error.isSome = batch'.error.isSome
  contents : ∃ inner, batch.tree.Copy a.root spare a.place inner ∧
    batch'.tree.Copy b.root spare b.place inner

/-- From anything two batches have come to, they come to the same. -/
theorem AreTwins.runFrom (hdetector : job.detector.GoesByOctets) {rest : List Place}
    (hrest : rest ⊆ files) (h : AreTwins job a b spare files inner tree tree' lists lists')
    (page : CodePage) :
    ComeToTheSame a b spare files
      ((job.workingIn a.root).runFrom page a.surroundings tree lists (rest.map a.root.below))
      ((job.workingIn b.root).runFrom page b.surroundings tree' lists' (rest.map b.root.below)) := by
  induction rest generalizing inner tree tree' lists lists' with
  | nil => exact ⟨.nil, rfl, inner, h.left.lies.copy, h.right.lies.copy⟩
  | cons f rest ih =>
    obtain ⟨hf, hrest⟩ := List.cons_subset.mp hrest
    have hstep := h.step hdetector hf page
    rw [List.map_cons, List.map_cons]
    unfold Job.runFrom
    generalize Job.step _ page a.surroundings tree lists _ = done at hstep
    generalize Job.step _ page b.surroundings tree' lists' _ = done' at hstep
    rcases done with e | done <;> rcases done' with e' | done' <;> cases hstep
    · exact ⟨.nil, rfl, inner, h.left.lies.copy, h.right.lies.copy⟩
    · next hdone =>
      obtain ⟨⟨inner', htwins⟩, hreport⟩ := hdone
      have hafter := ih hrest htwins
      exact ⟨.cons hreport hafter.reports, hafter.error, hafter.contents⟩

/-- Batches on the files of a directory at two sites, each with the directory for its workspace, come
to the same. -/
def RunsAlike (job : Job) (page : CodePage) (a b : Site) (tree tree' : FileTree) (spare : Nat)
    (files : List Place) : Prop :=
  ComeToTheSame a b spare files
    ((job.workingIn a.root).run page a.surroundings tree (files.map a.root.below))
    ((job.workingIn b.root).run page b.surroundings tree' (files.map b.root.below))

/-- A directory lies at two sites, and the names lead to files of it, or to links in it. -/
structure AreCopies (a b : Site) (tree tree' : FileTree) (spare : Nat) (inner : Entries)
    (files : List Place) : Prop where
  left : Lies a tree spare inner
  right : Lies b tree' spare inner
  nodes : AreNodes inner files

/-- The place of a workspace makes no difference.  Let a directory lie at two sites, under absolute
paths that leave as many links to be passed as its ignore files need.  If the encoding of a file is
told from its octets, the file system takes the paths of the files and of the ignore files, no
ignore file leads out of the directory or holds for every workspace, and the file for differences is
not in the directory, then both batches skip the same files for the same reasons, find the same
encodings, take the same actions and leave the same contents. -/
theorem run_relocated (hdetector : job.detector.GoesByOctets) (page : CodePage)
    (hcopies : AreCopies a b tree tree' spare inner files)
    (hinside : ∀ f ∈ files, IgnoreList.KeepInside inner spare f.dropLast)
    (htaken : TakesPaths a.root files) (htaken' : TakesPaths b.root files)
    (hdiffs : job.KeepsDiffsElsewhere a tree) (hdiffs' : job.KeepsDiffsElsewhere b tree') :
    job.RunsAlike page a b tree tree' spare files := by
  have htwins : AreTwins job a b spare files inner tree tree' [] [] :=
    ⟨⟨hcopies.left, htaken, hdiffs⟩, ⟨hcopies.right, htaken', hdiffs'⟩, hcopies.nodes, hinside, .nil⟩
  have hfrom := htwins.runFrom hdetector (List.Subset.refl files) page
  cases files with
  | nil => exact ⟨.nil, rfl, inner, hcopies.left.copy, hcopies.right.copy⟩
  | cons f rest => exact ⟨hfrom.reports, hfrom.error, hfrom.contents⟩

/-- A site in surroundings without variables. -/
def siteAt (root : Path) (place : Place) : Site := { surroundings := atRoot, root, place }

theorem siteAt_lies {root : Path} {place : Place} (hcopy : tree.Copy root spare place inner) :
    Lies (siteAt root place) tree spare inner :=
  ⟨hcopy, fun _ hvariable => by cases hvariable⟩

theorem keepsDiffsElsewhere_of_none (hdiffs : job.diffs.saved = none) (a : Site) (tree : FileTree) :
    job.KeepsDiffsElsewhere a tree := by
  intro _ saved hsaved
  rw [hdiffs] at hsaved
  cases hsaved

theorem isName_fileName : FileTree.IsName .see IgnoreList.fileName.toList [] :=
  ⟨by decide, by decide, by decide, by decide⟩

/-- A directory with a file `x`, and a file `y` in a directory below, which has a link to the file
`r` for its ignore file. -/
def project : Entries :=
  [(['x'], .file [0x61]), (['r'], .file [0x79, 0x0A]),
    (['d'], .directory [(['y'], .file [0x61]),
      (IgnoreList.fileName.toList, .link ⟨['.', '.', '/', 'r']⟩)])]

/-- The files of the directory. -/
def projectFiles : List Place := [[['x']], [['d'], ['y']]]

/-- A name that is often excluded. -/
def interop : List Char := ['i', 'n', 't', 'e', 'r', 'o', 'p']

/-- The directory in `/interop` and in `/t/s`, below ignore files that ignore everything. -/
def twoProjects : FileTree :=
  ⟨[(IgnoreList.fileName.toList, .file [0x2A, 0x0A]), (interop, .directory project),
    (['t'], .directory [(IgnoreList.fileName.toList, .file [0x2A, 0x0A]),
      (['s'], .directory project)])]⟩

/-- A job that excludes what is below one of the names. -/
def excludingJob : Job := { markedJob with filter := .fragments (.ofTexts ["/interop/", "/t/"]) }

theorem project_inside : ∀ f ∈ projectFiles, IgnoreList.KeepInside project 1 f.dropLast := by
  have houter : FileTree.Stays .see 1 (FileTree.mk project).cursor [IgnoreList.fileName.toList] :=
    .vacant isName_fileName (by cbv)
  have hinner : FileTree.Stays .see 1 (FileTree.mk project).cursor
      [['d'], IgnoreList.fileName.toList] := by
    refine .directory ⟨by decide, by decide, by decide, by decide⟩ rfl ?_
    refine .passed isName_fileName rfl (by decide) (by decide) ?_
    exact .up (by decide) (.file ⟨by decide, by decide, by decide, by decide⟩ rfl)
  rw [projectFiles, List.forall_mem_cons, List.forall_mem_singleton]
  refine ⟨?_, ?_⟩ <;> intro front hfront
  · rw [List.prefix_nil.mp hfront]
    exact houter
  · rcases List.prefix_cons_iff.mp hfront with rfl | ⟨rest, rfl, hrest⟩
    · exact houter
    · rw [List.prefix_nil.mp hrest]
      exact hinner

theorem project_nodes : AreNodes project projectFiles := by
  refine ⟨by decide, ?_⟩
  rw [projectFiles, List.forall_mem_cons, List.forall_mem_singleton]
  exact ⟨⟨_, by cbv, .file [0x61]⟩, ⟨_, by cbv, .file [0x61]⟩⟩

/-- Neither the name of the directory nor the ignore files around it make a difference. -/
theorem run_relocated_of_two_projects :
    excludingJob.detector.GoesByOctets ∧
    AreCopies (siteAt ⟨'/' :: interop⟩ [interop]) (siteAt ⟨['/', 't', '/', 's']⟩ [['t'], ['s']])
      twoProjects twoProjects 1 project projectFiles ∧
    (∀ f ∈ projectFiles, IgnoreList.KeepInside project 1 f.dropLast) ∧
    TakesPaths ⟨'/' :: interop⟩ projectFiles ∧ TakesPaths ⟨['/', 't', '/', 's']⟩ projectFiles ∧
    excludingJob.KeepsDiffsElsewhere (siteAt ⟨'/' :: interop⟩ [interop]) twoProjects ∧
    excludingJob.KeepsDiffsElsewhere (siteAt ⟨['/', 't', '/', 's']⟩ [['t'], ['s']]) twoProjects ∧
    excludingJob.RunsAlike .windows1252 (siteAt ⟨'/' :: interop⟩ [interop])
      (siteAt ⟨['/', 't', '/', 's']⟩ [['t'], ['s']]) twoProjects twoProjects 1 projectFiles := by
  have hcopies : AreCopies (siteAt ⟨'/' :: interop⟩ [interop])
      (siteAt ⟨['/', 't', '/', 's']⟩ [['t'], ['s']]) twoProjects twoProjects 1 project projectFiles :=
    ⟨siteAt_lies ⟨rfl, by decide, by cbv⟩, siteAt_lies ⟨rfl, by decide, by cbv⟩, project_nodes⟩
  have htaken : TakesPaths ⟨'/' :: interop⟩ projectFiles := ⟨by decide, by decide⟩
  have htaken' : TakesPaths ⟨['/', 't', '/', 's']⟩ projectFiles := ⟨by decide, by decide⟩
  have hdiffs := keepsDiffsElsewhere_of_none (show excludingJob.diffs.saved = none from rfl)
  have hdetector : excludingJob.detector.GoesByOctets := Detector.goesByOctets_fixed .ascii
  exact ⟨hdetector, hcopies, project_inside, htaken, htaken', hdiffs _ _, hdiffs _ _,
    run_relocated hdetector .windows1252 hcopies project_inside htaken htaken' (hdiffs _ _)
      (hdiffs _ _)⟩

/-! ## §5 Where the place makes a difference -/

/-- What the same reports have in common. -/
theorem ComeToTheSame.map_eq {batch batch' : Batch} {β : Type} {g : FileReport → β}
    (h : ComeToTheSame a b spare files batch batch')
    (hg : ∀ r r', IsSameReport a b files r r' → g r = g r') :
    batch.reports.map g = batch'.reports.map g := by
  rw [← List.forall₂_eq_eq_eq, List.forall₂_map_left_iff, List.forall₂_map_right_iff]
  exact h.reports.imp hg

/-- What is reported on one file, if the filter lets it through. -/
theorem IsRegular.reports {s : Surroundings} {path d : Path} {list : IgnoreList}
    (h : job.IsRegular s tree path d octets)
    (hload : (IgnoreList.load s tree { globs := [] } d job.workspace).1 = .ok list)
    (page : CodePage) : (job.run page s tree [path]).reports =
      [match list.cause? path with
        | some cause => .skipped (displayPath s path) (SkipReason.ignored cause).message
        | none => job.reportFor page s path (job.found page s tree path) octets] := by
  obtain ⟨said, hlist⟩ := listFor_of_load job List.find?_nil hload
  cases hcause : list.cause? path with
  | none =>
    obtain ⟨remarks, hstep⟩ := h.step_eq hlist hcause page
    simp only [run, runFrom, hstep]
    rfl
  | some cause =>
    obtain ⟨remarks, hstep⟩ := h.step_ignored hlist hcause page
    simp only [run, runFrom, hstep]
    rfl

/-- A file `y` with the marker that is shown at two sites: a rule against it is loaded at one of
them, and no rule at the other. -/
structure IsRuledApart (a b : Site) (tree : FileTree) : Prop where
  absolute : a.root.isAbsolute = true
  here : (markedJob.workingIn a.root).IsRegular a.surroundings tree (a.root.below [['y']]) a.root
    [0x6D]
  there : (markedJob.workingIn b.root).IsRegular b.surroundings tree (b.root.below [['y']]) b.root
    [0x6D]
  rule : (IgnoreList.load a.surroundings tree { globs := [] } a.root a.root).1 =
    .ok (listOf a.root [ruleAgainstY])
  free : (IgnoreList.load b.surroundings tree { globs := [] } b.root b.root).1 =
    .ok (listOf b.root [])

/-- It is skipped at one and worked on at the other. -/
theorem IsRuledApart.not_runsAlike (h : IsRuledApart a b tree) (page : CodePage) (spare : Nat) :
    ¬markedJob.RunsAlike page a b tree tree spare [[['y']]] := by
  intro halike
  have hskipped := h.here.reports h.rule page
  have hworked := h.there.reports h.free page
  have hignores : IgnoreList.Loaded.ignores { root := a.root, rules := [ruleAgainstY] }
      (a.root.below [['y']]) = true := by
    rw [IgnoreList.ignores_below h.absolute (by decide)
      (List.forall_mem_singleton.mpr ⟨by decide, by decide, by decide⟩)]
    decide
  have hcause : ((listOf a.root [ruleAgainstY]).cause? (a.root.below [['y']])).isSome = true := by
    unfold listOf IgnoreList.cause?
    simp [hignores]
  obtain ⟨cause, hcause⟩ := Option.isSome_iff_exists.mp hcause
  rw [hcause] at hskipped
  rw [listOf, IgnoreList.cause?_of_no_rules] at hworked
  have hactions := halike.map_eq fun _ _ hsame => hsame.action
  simp only [List.map_cons, List.map_nil, hskipped, hworked] at hactions
  cases hactions

/-- A directory with a file `y` at two sites. -/
theorem areCopies_of_file (hleft : Lies a tree spare inner) (hright : Lies b tree' spare inner)
    (hfile : Entries.node? [['y']] inner = some (.file [0x6D])) :
    AreCopies a b tree tree' spare inner [[['y']]] :=
  ⟨hleft, hright, by decide, List.forall_mem_singleton.mpr ⟨_, hfile, .file [0x6D]⟩⟩

theorem keepInside_of_file
    (h : FileTree.Stays .see spare (FileTree.mk inner).cursor [IgnoreList.fileName.toList]) :
    ∀ f ∈ [[['y']]], IgnoreList.KeepInside inner spare f.dropLast := by
  rw [List.forall_mem_singleton]
  intro front hfront
  rw [List.prefix_nil.mp hfront]
  exact h

/-- A file `y`, and a link for an ignore file that leads out of the directory. -/
def outward : Entries :=
  [(['y'], .file [0x6D]), (IgnoreList.fileName.toList, .link ⟨['.', '.', '/', 'r']⟩)]

/-- The directory in `/p` and in `/q/p`; there is a file `/r`, and no file `/q/r`. -/
def twoOutward : FileTree :=
  ⟨[(['p'], .directory outward), (['q'], .directory [(['p'], .directory outward)]),
    (['r'], .file [0x2F, 0x79, 0x0A])]⟩

theorem twoOutward_copies : AreCopies (siteAt ⟨['/', 'p']⟩ [['p']])
    (siteAt ⟨['/', 'q', '/', 'p']⟩ [['q'], ['p']]) twoOutward twoOutward 1 outward [[['y']]] :=
  areCopies_of_file (siteAt_lies ⟨rfl, by decide, by cbv⟩) (siteAt_lies ⟨rfl, by decide, by cbv⟩)
    (by cbv)

theorem twoOutward_apart : IsRuledApart (siteAt ⟨['/', 'p']⟩ [['p']])
    (siteAt ⟨['/', 'q', '/', 'p']⟩ [['q'], ['p']]) twoOutward where
  absolute := rfl
  here := ⟨by cbv, by cbv, rfl, by decide⟩
  there := ⟨by cbv, by cbv, rfl, by decide⟩
  rule := by cbv
  free := by cbv

/-- A file `y`, and a link for an ignore file that leads to a file `r` with a rule against it. -/
def inward : Entries :=
  [(['y'], .file [0x6D]), (['r'], .file [0x2F, 0x79, 0x0A]),
    (IgnoreList.fileName.toList, .link ⟨['r']⟩)]

theorem inward_inside : ∀ f ∈ [[['y']]], IgnoreList.KeepInside inward 1 f.dropLast := by
  refine keepInside_of_file (.passed isName_fileName rfl (by decide) (by decide) ?_)
  exact .file ⟨by decide, by decide, by decide, by decide⟩ rfl

/-- A link to the one before. -/
def rung (i : Nat) : List Char × Node := ([Char.ofNat (49 + i)], .link ⟨[Char.ofNat (48 + i)]⟩)

/-- The directory in `/0`, and links to it one above the other; `/X` leads there through as many as a
path may pass. -/
def ladder : FileTree := ⟨(['0'], .directory inward) :: (List.range FileTree.linkLimit).map rung⟩

theorem ladder_copies : AreCopies (siteAt ⟨['/', '0']⟩ [['0']]) (siteAt ⟨['/', 'X']⟩ [['0']]) ladder
    ladder 0 inward [[['y']]] :=
  areCopies_of_file (siteAt_lies ⟨rfl, by decide, by cbv⟩) (siteAt_lies ⟨rfl, by decide, by cbv⟩)
    (by cbv)

theorem ladder_apart :
    IsRuledApart (siteAt ⟨['/', '0']⟩ [['0']]) (siteAt ⟨['/', 'X']⟩ [['0']]) ladder where
  absolute := rfl
  here := ⟨by cbv, by cbv, rfl, by decide⟩
  there := ⟨by cbv, by cbv, rfl, by decide⟩
  rule := by cbv
  free := by cbv

/-- The directory `/a/b` with its contents. -/
def oneContents : Entries :=
  [(['x'], .file [0x6D]), (['y'], .file [0x6D]),
    (IgnoreList.fileName.toList, .file [0x2F, 0x79, 0x0A])]

theorem oneContents_inside : ∀ f ∈ [[['y']]], IgnoreList.KeepInside oneContents 0 f.dropLast :=
  keepInside_of_file (.file isName_fileName rfl)

theorem oneDirectory_copy : oneDirectory.Copy ⟨['/', 'a', '/', 'b']⟩ 0 [['a'], ['b']] oneContents :=
  ⟨rfl, by decide, by cbv⟩

theorem isPlain_y : Path.IsPlain ['y'] := ⟨by decide, by decide, by decide⟩

/-- The directory is there for the path with too many slashes, too. -/
theorem wide_copy (k : Nat) : oneDirectory.Copy (wide k) 0 [['a'], ['b']] oneContents := by
  refine oneDirectory_copy.respelled (wide_components k) ?_ ?_
  · intro last hlast
    revert last
    decide
  · have hne : ['/', 'a'] ++ List.replicate k '/' ≠ [] := List.cons_ne_nil _ _
    intro last hlast
    rw [wide_eq, Path.segments_append hne, Text.split_of_not_mem (by decide), List.getLast?_concat,
      Option.mem_some_iff] at hlast
    rw [← hlast]
    decide

theorem wide_fits {k : Nat} (hk : k ≤ 4089) : FileTree.Fits ((wide k).join ⟨['y']⟩) := by
  have hlength := (FileTree.octetLength_join isPlain_y (wide k)).2
  have hy : FileTree.octetLength ['y'] = 1 := rfl
  have hlimit : FileTree.pathLimit = 4095 := rfl
  rw [wide_length, hy] at hlength
  unfold FileTree.Fits
  omega

theorem wide_fault {k : Nat} (hk : k ≤ 4089) :
    FileTree.textFault? ((wide k).below [['y']]) = none := by
  have hcomponents : ((wide k).join ⟨['y']⟩).components =
      (Path.join ⟨['/', 'a', '/', 'b']⟩ ⟨['y']⟩).components := by
    rw [isPlain_y.components_join, isPlain_y.components_join, wide_components]
  have hfault := FileTree.textFault?_of_fits (by rw [hcomponents]; decide) (wide_fits hk)
  rw [Path.names_of_components, hcomponents] at hfault
  exact hfault

theorem wide_copies (k : Nat) : AreCopies (siteAt ⟨['/', 'a', '/', 'b']⟩ [['a'], ['b']])
    (siteAt (wide k) [['a'], ['b']]) oneDirectory oneDirectory 0 oneContents [[['y']]] :=
  areCopies_of_file (siteAt_lies oneDirectory_copy) (siteAt_lies (wide_copy k)) (by cbv)

theorem wide_isRegular {k : Nat} (hk : k ≤ 4089) : (markedJob.workingIn (wide k)).IsRegular atRoot
    oneDirectory ((wide k).join ⟨['y']⟩) (wide k) [0x6D] := by
  have hfits : FileTree.Fits (Path.join ⟨['/', 'a', '/', 'b']⟩ ⟨['y']⟩) := by
    unfold FileTree.Fits
    decide
  have hlocate {purpose : FileTree.Purpose} (hpurpose : purpose ≠ .write) :=
    FileTree.locate_join isPlain_y (wide_components k) (wide_fits hk) hfits hpurpose oneDirectory
      atRoot.cwd
  have hlook : oneDirectory.look? atRoot.cwd (Path.join ⟨['/', 'a', '/', 'b']⟩ ⟨['y']⟩) =
      some (.file [0x6D]) := by cbv
  have hstat : oneDirectory.statLink atRoot.cwd (Path.join ⟨['/', 'a', '/', 'b']⟩ ⟨['y']⟩) =
      .ok (.file [0x6D]) := by cbv
  refine ⟨?_, ?_, rfl, wide_parent isPlain_y k⟩
  · unfold FileTree.look? FileTree.stat FileTree.find at hlook ⊢
    rwa [hlocate (by decide)]
  · unfold FileTree.statLink FileTree.find at hstat ⊢
    rwa [hlocate (by decide)]

/-- With so many slashes that the path of the ignore file is too long, but not that of the file, the
rule against the file is not seen. -/
theorem wide_apart {k : Nat} (hlow : 4076 < k) (hhigh : k ≤ 4089) :
    IsRuledApart (siteAt ⟨['/', 'a', '/', 'b']⟩ [['a'], ['b']]) (siteAt (wide k) [['a'], ['b']])
      oneDirectory where
  absolute := rfl
  here := ⟨by cbv, by cbv, rfl, by decide⟩
  there := wide_isRegular hhigh
  rule := by cbv
  free := wide_load hlow (ite_self (wide k))

/-- Work on two files, in different directories, ends early if the ignore files for the second
cannot be loaded when the first has been worked on. -/
theorem IsRegular.error_of_two {s : Surroundings} {x y d d' : Path} {octets' : List UInt8}
    {list : IgnoreList} (hx : job.IsRegular s tree x d octets)
    (hload : (IgnoreList.load s tree { globs := [] } d job.workspace).1 = .ok list)
    (hcause : list.cause? x = none)
    (hy : job.IsRegular s (job.ensure page s tree x).2.tree y d' octets')
    (hne : d.components ≠ d'.components) :
    (job.run page s tree [x, y]).error.isSome =
      !(IgnoreList.load s (job.ensure page s tree x).2.tree { globs := [] } d'
        job.workspace).1.toOption.isSome := by
  obtain ⟨said, hlist⟩ := listFor_of_load job List.find?_nil hload
  obtain ⟨remarks, hstep⟩ := hx.step_eq hlist hcause page
  have hnew : [(d.components, list)].find? (fun entry => entry.1 == d'.components) = none :=
    List.find?_cons_of_neg (by simpa using hne)
  cases hload' : (IgnoreList.load s (job.ensure page s tree x).2.tree { globs := [] } d'
      job.workspace).1 with
  | error e =>
    obtain ⟨said', hlist'⟩ := listFor_of_error job hnew hload'
    obtain ⟨e', hends⟩ := hy.step_error hlist' page
    simp only [run, runFrom, hstep, hends]
    rfl
  | ok list' =>
    obtain ⟨said', hlist'⟩ := listFor_of_load job hnew hload'
    cases hcause' : list'.cause? y with
    | none =>
      obtain ⟨remarks', hstep'⟩ := hy.step_eq hlist' hcause' page
      simp only [run, runFrom, hstep, hstep']
      rfl
    | some cause =>
      obtain ⟨remarks', hstep'⟩ := hy.step_ignored hlist' hcause' page
      simp only [run, runFrom, hstep, hstep']
      rfl

/-- The directory in `/b` and in `/c`.  The job `diffsJob` keeps differences in `/b`. -/
def apartProjects : FileTree := ⟨[(['b'], .directory project), (['c'], .directory project)]⟩

theorem apartProjects_copies : AreCopies (siteAt ⟨['/', 'b']⟩ [['b']]) (siteAt ⟨['/', 'c']⟩ [['c']])
    apartProjects apartProjects 1 project projectFiles :=
  ⟨siteAt_lies ⟨rfl, by decide, by cbv⟩, siteAt_lies ⟨rfl, by decide, by cbv⟩, project_nodes⟩

theorem diffsJob_elsewhere :
    diffsJob.KeepsDiffsElsewhere (siteAt ⟨['/', 'c']⟩ [['c']]) apartProjects := by
  have hplace : apartProjects.placeOf? atRoot.cwd diffsFile =
      some [['b'], IgnoreList.fileName.toList] := by cbv
  rintro - saved ⟨⟩ q hq
  obtain rfl : [['b'], IgnoreList.fileName.toList] = q := Option.some.inj (hplace.symm.trans hq)
  exact ⟨by decide, fun _ hvariable => by cases hvariable⟩

/-- The tree when the file `x` has been worked on. -/
def apartAfter (page : CodePage) (c : Char) : FileTree :=
  ((diffsJob.workingIn ⟨['/', c]⟩).ensure page atRoot apartProjects ⟨['/', c, '/', 'x']⟩).2.tree

/-- The difference of the file `x` is a line that is no rule, in the ignore file of `/b`. -/
theorem apartProjects_error (page : CodePage) : ∀ c ∈ ['b', 'c'],
    ((diffsJob.workingIn ⟨['/', c]⟩).run page atRoot apartProjects
      [⟨['/', c, '/', 'x']⟩, ⟨['/', c, '/', 'd', '/', 'y']⟩]).error.isSome = decide (c = 'b') := by
  have hfacts : ∀ c ∈ ['b', 'c'],
      (diffsJob.workingIn ⟨['/', c]⟩).IsRegular atRoot apartProjects ⟨['/', c, '/', 'x']⟩
        ⟨['/', c]⟩ [0x61] ∧
      (IgnoreList.load atRoot apartProjects { globs := [] } ⟨['/', c]⟩ ⟨['/', c]⟩).1 =
        .ok (listOf ⟨['/', c]⟩ []) ∧
      (diffsJob.workingIn ⟨['/', c]⟩).IsRegular atRoot (apartAfter page c)
        ⟨['/', c, '/', 'd', '/', 'y']⟩ ⟨['/', c, '/', 'd']⟩ [0x61] ∧
      Path.components ⟨['/', c]⟩ ≠ Path.components ⟨['/', c, '/', 'd']⟩ ∧
      (IgnoreList.load atRoot (apartAfter page c) { globs := [] } ⟨['/', c, '/', 'd']⟩
        ⟨['/', c]⟩).1.toOption.isSome = !decide (c = 'b') := by
    rw [List.forall_mem_cons, List.forall_mem_singleton]
    refine ⟨?_, ?_⟩ <;>
      exact ⟨⟨by cbv, by cbv, rfl, by decide⟩, by cbv, ⟨by cbv, by cbv, rfl, by decide⟩, by decide,
        by cbv⟩
  intro c hc
  obtain ⟨hx, hload, hy, hne, hlast⟩ := hfacts c hc
  have herror := hx.error_of_two hload (IgnoreList.cause?_of_no_rules _ _) hy hne
  exact herror.trans ((congrArg Bool.not hlast).trans (Bool.not_not _))

/-- A file with the marker, in two directories. -/
def twoPlain : FileTree :=
  ⟨[(['p'], .directory [(['y'], .file [0x6D])]), (['q'], .directory [(['y'], .file [0x6D])])]⟩

theorem twoPlain_copies : AreCopies (siteAt ⟨['/', 'p']⟩ [['p']]) (siteAt ⟨['/', 'q']⟩ [['q']])
    twoPlain twoPlain 1 [(['y'], .file [0x6D])] [[['y']]] :=
  areCopies_of_file (siteAt_lies ⟨rfl, by decide, by cbv⟩) (siteAt_lies ⟨rfl, by decide, by cbv⟩)
    (by cbv)

theorem twoPlain_inside :
    ∀ f ∈ [[['y']]], IgnoreList.KeepInside [(['y'], .file [0x6D])] 1 f.dropLast :=
  keepInside_of_file (.vacant isName_fileName (by cbv))

/-- A job whose detector goes by the path. -/
def byPathJob : Job :=
  { markedJob with
    detector := { detect _ _ _ p := (if p.startsWith ⟨['/', 'p']⟩ then .ascii else .utf8 false, []) } }

/-- It finds another encoding for the file in the other directory. -/
theorem byPathJob_not_runsAlike (page : CodePage) : ¬byPathJob.RunsAlike page
    (siteAt ⟨['/', 'p']⟩ [['p']]) (siteAt ⟨['/', 'q']⟩ [['q']]) twoPlain twoPlain 1 [[['y']]] := by
  intro halike
  have hregular : ∀ c ∈ ['p', 'q'], (byPathJob.workingIn ⟨['/', c]⟩).IsRegular atRoot twoPlain
        (Path.below ⟨['/', c]⟩ [['y']]) ⟨['/', c]⟩ [0x6D] ∧
      (IgnoreList.load atRoot twoPlain { globs := [] } ⟨['/', c]⟩ ⟨['/', c]⟩).1 =
        .ok (listOf ⟨['/', c]⟩ []) := by
    rw [List.forall_mem_cons, List.forall_mem_singleton]
    exact ⟨⟨⟨by cbv, by cbv, rfl, by decide⟩, by cbv⟩, ⟨by cbv, by cbv, rfl, by decide⟩, by cbv⟩
  rw [List.forall_mem_cons, List.forall_mem_singleton] at hregular
  obtain ⟨⟨hp, hload⟩, hq, hload'⟩ := hregular
  have hreports := hp.reports hload page
  have hreports' := hq.reports hload' page
  rw [listOf, IgnoreList.cause?_of_no_rules] at hreports hreports'
  have hencodings := halike.map_eq fun _ _ hsame => hsame.encoding
  have hsame : [some Encoding.ascii] = [some (Encoding.utf8 false)] := by
    calc [some Encoding.ascii]
        = ((byPathJob.workingIn ⟨['/', 'p']⟩).run page atRoot twoPlain
            [Path.below ⟨['/', 'p']⟩ [['y']]]).reports.map (·.encoding) := by rw [hreports]; rfl
      _ = ((byPathJob.workingIn ⟨['/', 'q']⟩).run page atRoot twoPlain
            [Path.below ⟨['/', 'q']⟩ [['y']]]).reports.map (·.encoding) := hencodings
      _ = [some (.utf8 false)] := by rw [hreports']; rfl
  exact absurd hsame (by decide)

/-- The place of a workspace makes a difference to ignore files that are links which lead out of it,
to ignore files that are links where as many have been passed as a path may pass, to ignore files
whose paths are too long, to differences that are kept in it, and to a detector that goes by the
path. -/
theorem run_not_relocated :
    (¬∀ (job : Job) (page : CodePage) (a b : Site) (tree : FileTree) (spare : Nat) (inner : Entries)
      (files : List Place), job.detector.GoesByOctets →
      AreCopies a b tree tree spare inner files →
      TakesPaths a.root files → TakesPaths b.root files →
      job.KeepsDiffsElsewhere a tree → job.KeepsDiffsElsewhere b tree →
      job.RunsAlike page a b tree tree spare files) ∧
    (¬∀ (job : Job) (page : CodePage) (a b : Site) (tree : FileTree) (spare links : Nat)
      (inner : Entries) (files : List Place), job.detector.GoesByOctets →
      AreCopies a b tree tree spare inner files →
      (∀ f ∈ files, IgnoreList.KeepInside inner links f.dropLast) →
      TakesPaths a.root files → TakesPaths b.root files →
      job.KeepsDiffsElsewhere a tree → job.KeepsDiffsElsewhere b tree →
      job.RunsAlike page a b tree tree spare files) ∧
    (¬∀ (job : Job) (page : CodePage) (a b : Site) (tree : FileTree) (spare : Nat) (inner : Entries)
      (files : List Place), job.detector.GoesByOctets →
      AreCopies a b tree tree spare inner files →
      (∀ f ∈ files, IgnoreList.KeepInside inner spare f.dropLast) → TakesPaths a.root files →
      (∀ f ∈ files, FileTree.textFault? (b.root.below f) = none) →
      job.KeepsDiffsElsewhere a tree → job.KeepsDiffsElsewhere b tree →
      job.RunsAlike page a b tree tree spare files) ∧
    (¬∀ (job : Job) (page : CodePage) (a b : Site) (tree : FileTree) (spare : Nat) (inner : Entries)
      (files : List Place), job.detector.GoesByOctets →
      AreCopies a b tree tree spare inner files →
      (∀ f ∈ files, IgnoreList.KeepInside inner spare f.dropLast) →
      TakesPaths a.root files → TakesPaths b.root files → job.KeepsDiffsElsewhere b tree →
      job.RunsAlike page a b tree tree spare files) ∧
    ¬∀ (job : Job) (page : CodePage) (a b : Site) (tree : FileTree) (spare : Nat) (inner : Entries)
      (files : List Place), AreCopies a b tree tree spare inner files →
      (∀ f ∈ files, IgnoreList.KeepInside inner spare f.dropLast) →
      TakesPaths a.root files → TakesPaths b.root files →
      job.KeepsDiffsElsewhere a tree → job.KeepsDiffsElsewhere b tree →
      job.RunsAlike page a b tree tree spare files := by
  have hfixed : markedJob.detector.GoesByOctets := Detector.goesByOctets_fixed .ascii
  have hdiffs := keepsDiffsElsewhere_of_none (show markedJob.diffs.saved = none from rfl)
  have hdiffs' := keepsDiffsElsewhere_of_none (show byPathJob.diffs.saved = none from rfl)
  refine ⟨?_, ?_, ?_, ?_, ?_⟩ <;> intro hall
  · exact twoOutward_apart.not_runsAlike .windows1252 1 (hall markedJob _ _ _ _ _ _ _ hfixed
      twoOutward_copies ⟨by decide, by decide⟩ ⟨by decide, by decide⟩ (hdiffs _ _) (hdiffs _ _))
  · exact ladder_apart.not_runsAlike .windows1252 0 (hall markedJob _ _ _ _ _ _ _ _ hfixed
      ladder_copies inward_inside ⟨by decide, by decide⟩ ⟨by decide, by decide⟩ (hdiffs _ _)
      (hdiffs _ _))
  · have hapart := wide_apart (k := 4080) (by decide) (by decide)
    exact hapart.not_runsAlike .windows1252 0 (hall markedJob _ _ _ _ _ _ _ hfixed
      (wide_copies 4080) oneContents_inside ⟨by decide, by decide⟩
      (List.forall_mem_singleton.mpr (wide_fault (by decide))) (hdiffs _ _) (hdiffs _ _))
  · have halike := hall diffsJob .windows1252 _ _ _ _ _ _ (Detector.goesByOctets_fixed .ascii)
      apartProjects_copies project_inside ⟨by decide, by decide⟩ ⟨by decide, by decide⟩
      diffsJob_elsewhere
    have herror := apartProjects_error .windows1252
    rw [List.forall_mem_cons, List.forall_mem_singleton] at herror
    exact absurd (herror.1.symm.trans (halike.error.trans herror.2)) (by decide)
  · exact byPathJob_not_runsAlike .windows1252 (hall byPathJob _ _ _ _ _ _ _ twoPlain_copies
      twoPlain_inside ⟨by decide, by decide⟩ ⟨by decide, by decide⟩ (hdiffs' _ _) (hdiffs' _ _))

end MarkerBlock.Job
