/-
MarkerBlock.Proofs.Selection — what a pattern that finds a link to a directory selects.

Links are listed, and those below a directory are not entered; but a link to a directory
that a wildcard finds is walked like a directory.  So the link is selected, and with it
everything behind it (`select_enters_link`).  A file behind it is no link at the path it is
selected by: a job does not skip it as one, and what it writes goes to where the link leads
(`FileTree.find_below`).
-/
import Mathlib
import MarkerBlock.Proofs.FileTree.Passage
import MarkerBlock.Proofs.Job.Batch
import MarkerBlock.Selection

namespace MarkerBlock

namespace Selection

variable {s : Surroundings} {tree : FileTree} {cwd : Place} {patterns : List String} {found : Found}

/-! ## §1 Walking -/

theorem walkNode_subset {name : List Char} {node : Node} {entries : Entries}
    (h : Entries.get? entries name = some node) (p : Path) :
    walkNode (p.join ⟨name⟩) node ⊆ walkEntries p entries := by
  induction entries with
  | nil => cases h
  | cons entry rest ih =>
    obtain ⟨key, first⟩ := entry
    rw [Entries.get?_cons] at h
    rw [walkEntries]
    by_cases hkey : key = name
    · rw [if_pos hkey] at h
      cases h
      rw [hkey]
      exact List.subset_append_left _ _
    · rw [if_neg hkey] at h
      exact List.Subset.trans (ih h) (List.subset_append_right _ _)

/-- A walk lists every file below, however deep. -/
theorem below_mem_walkEntries {names : Place} {entries : Entries} {octets : List UInt8} {p : Path}
    (hnames : ∀ name ∈ names, Path.IsPlain name)
    (hfile : Entries.node? names entries = some (.file octets))
    (hfault : FileTree.textFault? (p.below names) = none) :
    .ok (p.below names) ∈ walkEntries p entries := by
  induction names generalizing p entries with
  | nil => cases hfile
  | cons name rest ih =>
    obtain ⟨hname, hrest⟩ := List.forall_mem_cons.mp hnames
    rw [Path.below_cons] at hfault ⊢
    by_cases hdirectory : ∃ inner, Entries.get? entries name = some (.directory inner)
    · obtain ⟨inner, hget⟩ := hdirectory
      rw [Entries.node?_cons_of_directory hget] at hfile
      refine walkNode_subset hget p ?_
      have htext : (p.join ⟨name⟩).text ≠ [] := by
        intro hempty
        have hlast := hname.getLast?_join p
        simp [Path.segments, hempty, Text.split] at hlast
        exact hname.blank (hlast ▸ rfl)
      have hshort : FileTree.textFault? (p.join ⟨name⟩) = none :=
        FileTree.textFault?_of_prefix (Path.text_prefix_below hrest _) htext hfault
      rw [walkNode, hshort]
      exact ih hrest hfile hfault
    · have hnot : ∀ inner, Entries.get? entries name ≠ some (.directory inner) :=
        fun inner hget => hdirectory ⟨inner, hget⟩
      cases rest with
      | nil =>
        rw [Entries.node?_singleton] at hfile
        refine walkNode_subset hfile p ?_
        rw [walkNode]
        · exact List.mem_singleton.mpr rfl
        · intro entries h
          cases h
      | cons next rest =>
        rw [Entries.node?_cons_cons_of_not_directory hnot] at hfile
        cases hfile

theorem mem_pathsOf {p : Path} {walked : List (Except PathError Path)} :
    p ∈ pathsOf walked ↔ .ok p ∈ walked := by
  unfold pathsOf
  rw [List.mem_filterMap]
  constructor
  · rintro ⟨e, he, hp⟩
    cases e with
    | error e => cases hp
    | ok q =>
      cases hp
      exact he
  · intro h
    exact ⟨.ok p, h, rfl⟩

/-! ## §2 Selecting -/

/-- Some path with the components of `p` is selected. -/
def Selects (found : Found) (p : Path) : Prop := ∃ q ∈ found.paths, q.components = p.components

theorem mem_dropRepeats {l : List Keyed} {p : Keyed} (h : p ∈ l) :
    ∃ q ∈ dropRepeats l, q.1 = p.1 := by
  induction l generalizing p with
  | nil => cases h
  | cons first rest ih =>
    have hrest : ∀ p ∈ rest, ∃ q ∈ dropRepeats (first :: rest), q.1 = p.1 := by
      intro p hp
      obtain ⟨q, hq, hkey⟩ := ih hp
      rw [dropRepeats]
      cases hkept : dropRepeats rest with
      | nil =>
        rw [hkept] at hq
        cases hq
      | cons next kept =>
        rw [hkept] at hq
        simp only
        split
        · next hsame =>
          rcases List.mem_cons.mp hq with rfl | hq
          · exact ⟨first, List.mem_cons_self, (beq_iff_eq.mp hsame).trans hkey⟩
          · exact ⟨q, List.mem_cons_of_mem _ hq, hkey⟩
        · exact ⟨q, List.mem_cons_of_mem _ hq, hkey⟩
    rcases List.mem_cons.mp h with rfl | h
    · refine ⟨p, ?_, rfl⟩
      rw [dropRepeats]
      split
      · exact List.mem_cons_self
      · split <;> exact List.mem_cons_self
    · exact hrest p h

theorem dropRepeats_subset (l : List Keyed) : dropRepeats l ⊆ l := by
  induction l with
  | nil => exact List.Subset.refl _
  | cons first rest ih =>
    rw [dropRepeats]
    split
    · exact List.cons_subset_cons _ (List.nil_subset _)
    · next hkept =>
      rw [hkept] at ih
      split
      · exact List.cons_subset_cons _ (List.Subset.trans (List.subset_cons_self _ _) ih)
      · exact List.cons_subset_cons _ ih

/-- Paths beside their components, in order. -/
def inOrder (paths : List Path) : List Keyed :=
  (paths.map fun p => (p.components, p)).mergeSort fun p q =>
    Path.compareComponents p.1 q.1 != .gt

theorem sorted_eq (paths : List Path) :
    sorted paths = (dropRepeats (inOrder paths)).map Prod.snd := rfl

theorem mem_inOrder {paths : List Path} {k : Keyed} :
    k ∈ inOrder paths ↔ k.2 ∈ paths ∧ k.1 = k.2.components := by
  rw [inOrder, List.mem_mergeSort, List.mem_map]
  constructor
  · rintro ⟨p, hp, rfl⟩
    exact ⟨hp, rfl⟩
  · rintro ⟨hp, hkey⟩
    exact ⟨k.2, hp, by rw [← hkey]⟩

theorem sorted_subset (paths : List Path) : sorted paths ⊆ paths := by
  rw [sorted_eq]
  intro p hp
  obtain ⟨k, hk, rfl⟩ := List.mem_map.mp hp
  exact (mem_inOrder.mp (dropRepeats_subset _ hk)).1

/-- Nothing is lost in sorting but other ways to write the same path. -/
theorem mem_sorted {paths : List Path} {p : Path} (h : p ∈ paths) :
    ∃ q ∈ sorted paths, q.components = p.components := by
  obtain ⟨k, hk, hkey⟩ := mem_dropRepeats (mem_inOrder (k := (p.components, p)).mpr ⟨h, rfl⟩)
  have hkept := (mem_inOrder.mp (dropRepeats_subset _ hk)).2
  rw [sorted_eq]
  exact ⟨k.2, List.mem_map.mpr ⟨k, hk, rfl⟩, hkept.symm.trans hkey⟩

theorem mem_sorted_iff {paths : List Path} {cs : List Path.Component} :
    (∃ q ∈ sorted paths, q.components = cs) ↔ ∃ p ∈ paths, p.components = cs := by
  constructor
  · rintro ⟨q, hq, rfl⟩
    exact ⟨q, sorted_subset paths hq, rfl⟩
  · rintro ⟨p, hp, rfl⟩
    exact mem_sorted hp

/-- What all patterns stand for is what each of them stands for. -/
theorem mem_ofPatterns_iff {before : Found} (h : ofPatterns tree cwd before patterns = .ok found)
    {p : Path} : p ∈ found.paths ↔ p ∈ before.paths ∨ ∃ pattern ∈ patterns, ∃ more,
      ofPattern tree cwd pattern = .ok more ∧ p ∈ more.paths := by
  induction patterns generalizing before with
  | nil =>
    cases h
    simp
  | cons first rest ih =>
    rw [ofPatterns] at h
    split at h
    · cases h
    · next more hmore =>
      have happend : p ∈ (before.append more).paths ↔ p ∈ before.paths ∨ p ∈ more.paths :=
        List.mem_append
      rw [ih h, happend, List.exists_mem_cons_iff, hmore, or_assoc]
      simp

/-- All patterns can be read, or one of them cannot. -/
theorem exists_ofPatterns_iff {before : Found} :
    (∃ found, ofPatterns tree cwd before patterns = .ok found) ↔
      ∀ pattern ∈ patterns, ∃ more, ofPattern tree cwd pattern = .ok more := by
  induction patterns generalizing before with
  | nil => simp [ofPatterns]
  | cons first rest ih =>
    rw [ofPatterns, List.forall_mem_cons]
    cases hfirst : ofPattern tree cwd first with
    | error e => simp
    | ok more => simp [ih]

theorem exists_select_iff : (∃ found, select s tree patterns = .ok found) ↔
    ∀ pattern ∈ patterns, ∃ more, ofPattern tree s.cwd pattern = .ok more := by
  have hread : (∃ found, ofPatterns tree s.cwd {} patterns = .ok found) ↔
      ∀ pattern ∈ patterns, ∃ more, ofPattern tree s.cwd pattern = .ok more := exists_ofPatterns_iff
  rw [← hread, select]
  cases ofPatterns tree s.cwd {} patterns <;> simp

/-- A path is selected exactly if some pattern stands for it. -/
theorem selects_iff (h : select s tree patterns = .ok found) {p : Path} :
    Selects found p ↔ ∃ pattern ∈ patterns, ∃ more, ofPattern tree s.cwd pattern = .ok more ∧
      ∃ q ∈ more.paths, (q.absoluteFrom s.directory).components = p.components := by
  unfold select at h
  split at h
  · cases h
  · next all hall =>
    cases h
    rw [Selects, mem_sorted_iff]
    constructor
    · rintro ⟨absolute, habsolute, hsame⟩
      obtain ⟨q, hq, rfl⟩ := List.mem_map.mp habsolute
      obtain hnone | ⟨pattern, hpattern, more, hmore, hq⟩ := (mem_ofPatterns_iff hall).mp hq
      · cases hnone
      · exact ⟨pattern, hpattern, more, hmore, q, hq, hsame⟩
    · rintro ⟨pattern, hpattern, more, hmore, q, hq, hsame⟩
      have hall := (mem_ofPatterns_iff hall).mpr (.inr ⟨pattern, hpattern, more, hmore, hq⟩)
      exact ⟨_, List.mem_map.mpr ⟨q, hall, rfl⟩, hsame⟩

/-! ## §3 Links that a wildcard finds -/

/-- A pattern that is itself no path of the tree finds `link`, which is a link to the directory at
`place`. -/
structure FindsLink (s : Surroundings) (tree : FileTree) (pattern : String) (link target : Path)
    (place : Place) (entries : Entries) : Prop where
  unwritten : (tree.statLink s.cwd (.ofString pattern)).isOk = false
  found : ∃ wildcard, Wildcard.Pattern.parse (Path.ofString pattern).text = .ok wildcard ∧
    .ok link ∈ wildcard.expand tree s.cwd
  isLink : tree.statLink s.cwd link = .ok (.link target)
  leads : tree.find s.cwd .see link = .ok (place, .directory entries)

/-- What is not there is no directory. -/
theorem isDirectory_of_statLink {p : Path} (h : (tree.statLink cwd p).isOk = false) :
    tree.isDirectory cwd p = false := by
  cases hlocate : tree.locate cwd .see p with
  | error e => simp [FileTree.isDirectory, FileTree.stat, FileTree.find, hlocate, Except.map]
  | ok location =>
    cases location with
    | vacant place => simp [FileTree.isDirectory, FileTree.stat, FileTree.find, hlocate, Except.map]
    | found place node =>
      obtain ⟨place', node', hseen⟩ := FileTree.locate_seeLink_of_see hlocate
      simp [FileTree.statLink, FileTree.find, hseen, Except.map, Except.isOk, Except.toBool] at h

/-- A link to a directory stands for itself and for everything behind it. -/
theorem ofMatch_link {link target : Path} {place : Place} {entries : Entries}
    (hlink : tree.statLink cwd link = .ok (.link target))
    (hleads : tree.find cwd .see link = .ok (place, .directory entries)) :
    (ofMatch tree cwd link).paths = link :: pathsOf (walkEntries link entries) := by
  have hstat : tree.stat cwd link = .ok (.directory entries) := by
    rw [FileTree.stat, hleads]
    rfl
  have hdirectory : tree.isDirectory cwd link = true := by
    unfold FileTree.isDirectory
    rw [hstat]
  unfold ofMatch walk
  simp only [hdirectory, if_true, hlink, hstat]
  rfl

/-- What was found, and what one more match of a pattern adds. -/
def withMatch (tree : FileTree) (cwd : Place) (pattern : String) (found : Found) :
    Except PathError Path → Found
  | .ok p => found.append (ofMatch tree cwd p)
  | .error e => found.append { remarks := [patternWarning pattern e] }

/-- What is found stays found, and every path that is found is taken for what it stands for. -/
theorem foldl_withMatch_subset (tree : FileTree) (cwd : Place) (pattern : String)
    (matched : List (Except PathError Path)) (found : Found) :
    found.paths ⊆ (matched.foldl (withMatch tree cwd pattern) found).paths ∧
      ∀ p, .ok p ∈ matched →
        (ofMatch tree cwd p).paths ⊆ (matched.foldl (withMatch tree cwd pattern) found).paths := by
  induction matched generalizing found with
  | nil => exact ⟨List.Subset.refl _, by simp⟩
  | cons m rest ih =>
    obtain ⟨hfirst, hrest⟩ := ih (withMatch tree cwd pattern found m)
    have hstays : found.paths ⊆ (withMatch tree cwd pattern found m).paths := by
      cases m <;> exact List.subset_append_left _ _
    refine ⟨List.Subset.trans hstays hfirst, ?_⟩
    intro p hp
    rcases List.mem_cons.mp hp with rfl | hp
    · exact List.Subset.trans (List.subset_append_right _ _) hfirst
    · exact hrest p hp

/-- A pattern that is no path of the tree stands for what its matches stand for. -/
theorem ofPattern_of_absent {pattern : String} {wildcard : Wildcard.Pattern} {more : Found}
    (habsent : (tree.statLink cwd (.ofString pattern)).isOk = false)
    (hparse : Wildcard.Pattern.parse (Path.ofString pattern).text = .ok wildcard)
    (h : ofPattern tree cwd pattern = .ok more) :
    more.paths = ((wildcard.expand tree cwd).foldl (withMatch tree cwd pattern) {}).paths := by
  unfold ofPattern at h
  simp only [habsent, isDirectory_of_statLink habsent, Bool.or_self, Bool.false_eq_true,
    if_false, hparse] at h
  split at h
  · cases h
    exact List.append_nil _
  · cases h
    rfl

/-- A pattern that finds a link to a directory selects the link and everything behind it. -/
theorem selects_link {pattern : String} {link target : Path} {place : Place} {entries : Entries}
    (h : FindsLink s tree pattern link target place entries) (hpattern : pattern ∈ patterns)
    (hselect : select s tree patterns = .ok found) :
    ∀ p ∈ link :: pathsOf (walkEntries link entries), Selects found (p.absoluteFrom s.directory) := by
  obtain ⟨more, hmore⟩ := exists_select_iff.mp ⟨found, hselect⟩ pattern hpattern
  obtain ⟨wildcard, hparse, hmem⟩ := h.found
  intro p hp
  refine (selects_iff hselect).mpr ⟨pattern, hpattern, more, hmore, p, ?_, rfl⟩
  rw [ofPattern_of_absent h.unwritten hparse hmore]
  rw [← ofMatch_link h.isLink h.leads] at hp
  exact (foldl_withMatch_subset tree s.cwd pattern _ {}).2 link hmem hp

/-- A pattern that finds a link to a directory selects the link, and also everything that a walk
lists behind it.  A file behind the link, whatever it is called and however deep it lies, is among
this; it is no link itself at the path that is listed, so a job does not skip it as one, and a job
that inserts the block there rewrites the file where the link leads. -/
theorem select_enters_link {pattern : String} {link target : Path} {place : Place}
    {entries : Entries} (h : FindsLink s tree pattern link target place entries)
    (hpattern : pattern ∈ patterns) (hselect : select s tree patterns = .ok found) :
    Selects found (link.absoluteFrom s.directory) ∧
    (∀ p ∈ pathsOf (walkEntries link entries), Selects found (p.absoluteFrom s.directory)) ∧
    ∀ names octets, Entries.node? names entries = some (.file octets) →
      (∀ name ∈ names, FileTree.IsEntryName name) → FileTree.textFault? (link.below names) = none →
      link.below names ∈ pathsOf (walkEntries link entries) ∧
      tree.statLink s.cwd (link.below names) = .ok (.file octets) ∧
      ∀ (job : Job) (page : CodePage),
        (job.ensure page s tree (link.below names)).2.result = .ok .inserted →
          ∃ i, job.Rewrites page s tree (job.ensure page s tree (link.below names)).2.tree
            (link.below names) (job.ensure page s tree (link.below names)).1 (place ++ names)
            octets i := by
  have hselects := selects_link h hpattern hselect
  refine ⟨hselects link List.mem_cons_self, ?_, ?_⟩
  · intro p hp
    exact hselects p (List.mem_cons_of_mem _ hp)
  · intro names octets hfile hnames hfault
    have hplain : ∀ name ∈ names, Path.IsPlain name := fun name hname => (hnames name hname).plain
    have hfind {purpose : FileTree.Purpose} (hpurpose : purpose ≠ .write) :
        tree.find s.cwd purpose (link.below names) = .ok (place ++ names, .file octets) :=
      FileTree.find_below h.leads hnames hfile hfault hpurpose
    refine ⟨mem_pathsOf.mpr (below_mem_walkEntries hplain hfile hfault), ?_, ?_⟩
    · rw [FileTree.statLink, hfind (by decide)]
      rfl
    · intro job page hinserted
      obtain ⟨place', old, i, hrewrites⟩ := Job.rewrites_of_inserted hinserted
      have hsee := hfind (show FileTree.Purpose.see ≠ .write by decide)
      unfold FileTree.find at hsee
      rw [hrewrites.found] at hsee
      cases hsee
      exact ⟨i, hrewrites⟩

/-! ## §4 A file reached through a link -/

/-- A file in one directory, and in another a link to the first. -/
def linkedDirectory (octets : List UInt8) : FileTree :=
  ⟨[(['d'], .directory [(['x'], .file octets)]),
    (['w'], .directory [(['k'], .link (.ofString "../d"))])]⟩

theorem linkedDirectory_finds (octets : List UInt8) :
    FindsLink Job.atRoot (linkedDirectory octets) "/w/*" (.ofString "/w/k") (.ofString "../d") [['d']]
      [(['x'], .file octets)] := by
  have hparse : (Wildcard.Pattern.parse (Path.ofString "/w/*").text).toOption.map
      (fun wildcard => decide (.ok (.ofString "/w/k") ∈ wildcard.expand (linkedDirectory octets) [])) =
        some true := by cbv
  refine ⟨by cbv, ?_, by cbv, by cbv⟩
  cases hwildcard : Wildcard.Pattern.parse (Path.ofString "/w/*").text with
  | error e =>
    rw [hwildcard] at hparse
    cases hparse
  | ok wildcard =>
    rw [hwildcard] at hparse
    exact ⟨wildcard, rfl, of_decide_eq_true (Option.some.inj hparse)⟩

theorem linkedDirectory_select (octets : List UInt8) :
    ∃ found, select Job.atRoot (linkedDirectory octets) ["/w/*"] = .ok found ∧
      found.paths = [.ofString "/w/k", .ofString "/w/k/x"] := by
  have hpaths : (select Job.atRoot (linkedDirectory octets) ["/w/*"]).toOption.map (·.paths) =
      some [.ofString "/w/k", .ofString "/w/k/x"] := by cbv
  cases hselect : select Job.atRoot (linkedDirectory octets) ["/w/*"] with
  | error e =>
    rw [hselect] at hpaths
    cases hpaths
  | ok found =>
    rw [hselect] at hpaths
    exact ⟨found, rfl, Option.some.inj hpaths⟩

theorem select_enters_link_of_wildcard :
    ∃ found, select Job.atRoot (linkedDirectory [0x61]) ["/w/*"] = .ok found ∧
      Selects found (.ofString "/w/k") ∧ Selects found (.ofString "/w/k/x") ∧
      (linkedDirectory [0x61]).statLink [] (.ofString "/w/k/x") = .ok (.file [0x61]) := by
  obtain ⟨found, hselect, -⟩ := linkedDirectory_select [0x61]
  obtain ⟨hlink, hbehind, hfile⟩ :=
    select_enters_link (linkedDirectory_finds [0x61]) List.mem_cons_self hselect
  have hname : FileTree.IsEntryName ['x'] := ⟨⟨by decide, by decide, by decide⟩, by decide⟩
  obtain ⟨hlisted, hstat, -⟩ := hfile [['x']] [0x61] rfl
    (List.forall_mem_singleton.mpr hname) (by decide)
  exact ⟨found, hselect, hlink, hbehind _ hlisted, hstat⟩

/-- A job that changes files rewrites a file that it reaches through the link. -/
theorem linkedDirectory_rewritten :
    (Job.braceJob.run .windows1252 Job.atRoot (linkedDirectory [0x61])
      [.ofString "/w/k", .ofString "/w/k/x"]).tree.face? [['d'], ['x']] =
        some (.file [0x61, 0x0A, 0x7B]) := by
  have hlink : (linkedDirectory [0x61]).statLink Job.atRoot.cwd (.ofString "/w/k") =
      .ok (.link (.ofString "../d")) := by cbv
  have hskip : ∃ report remarks, Job.braceJob.step .windows1252 Job.atRoot (linkedDirectory [0x61]) []
      (.ofString "/w/k") = .ok ⟨linkedDirectory [0x61], [], report, false, remarks⟩ := by
    unfold Job.step Job.judge
    simp only [hlink]
    exact ⟨_, _, rfl⟩
  have hregular : Job.braceJob.IsRegular Job.atRoot (linkedDirectory [0x61]) (.ofString "/w/k/x")
      (.ofString "/w/k") [0x61] := ⟨by cbv, by cbv, by decide, by decide⟩
  have hload : (IgnoreList.load Job.atRoot (linkedDirectory [0x61]) { globs := [] }
      (.ofString "/w/k") Job.braceJob.workspace).1 = .ok (Job.listOf ⟨['/']⟩ []) := by cbv
  have hbehind : (Job.braceJob.ensure .windows1252 Job.atRoot (linkedDirectory [0x61])
      (.ofString "/w/k/x")).2.tree.face? [['d'], ['x']] = some (.file [0x61, 0x0A, 0x7B]) := by cbv
  obtain ⟨report, remarks, hstep⟩ := hskip
  obtain ⟨said, hlist⟩ := Job.listFor_of_load Job.braceJob List.find?_nil hload
  obtain ⟨remarks', hstep'⟩ :=
    hregular.step_eq hlist (IgnoreList.cause?_of_no_rules _ _) .windows1252
  simp only [Job.run, Job.runFrom, hstep, hstep', List.isEmpty_cons, Bool.false_eq_true, if_false]
  exact hbehind

/-- Files behind a link that a wildcard finds are not left out, and may be rewritten. -/
theorem link_is_entered :
    (¬∀ (s : Surroundings) (tree : FileTree) (pattern : String) (link target : Path) (place : Place)
        (entries : Entries) (found : Found), FindsLink s tree pattern link target place entries →
        select s tree [pattern] = .ok found →
        ∀ names, names ≠ [] → ¬Selects found ((link.below names).absoluteFrom s.directory)) ∧
    ¬∀ (job : Job) (page : CodePage) (s : Surroundings) (tree : FileTree) (pattern : String)
        (link target : Path) (place : Place) (entries : Entries) (found : Found),
        FindsLink s tree pattern link target place entries → select s tree [pattern] = .ok found →
        job.modifies = true →
        ∀ names, (∀ p ∈ found.paths, tree.placeOf? s.cwd p = some (place ++ names) →
          link.components <+: p.components) →
        (job.run page s tree found.paths).tree.face? (place ++ names) =
          tree.face? (place ++ names) := by
  obtain ⟨found, hselect, hpaths⟩ := linkedDirectory_select [0x61]
  have hfinds := linkedDirectory_finds [0x61]
  refine ⟨?_, ?_⟩
  · intro hall
    refine hall _ _ _ _ _ _ _ found hfinds hselect [['x']] (List.cons_ne_nil _ _) ?_
    refine ⟨.ofString "/w/k/x", ?_, by decide⟩
    rw [hpaths]
    exact List.mem_cons_of_mem _ List.mem_cons_self
  · intro hall
    have hsame := hall Job.braceJob .windows1252 _ _ _ _ _ _ _ found hfinds hselect rfl [['x']] ?_
    · rw [hpaths] at hsame
      have hrewritten := linkedDirectory_rewritten.symm.trans hsame
      exact absurd hrewritten (by decide)
    · rw [hpaths, List.forall_mem_cons, List.forall_mem_singleton]
      exact ⟨fun _ => by decide, fun _ => by decide⟩

end Selection

end MarkerBlock
