/-
MarkerBlock.Proofs.Selection.Workspace — the workspace holds what chose it.

The root of the workspace is made absolute from the first pattern that names a directory or a file,
the files are made absolute from what a walk lists or from the pattern itself.  Both agree however
the pattern is written: what a directory stands for is names below it (`mem_ofMatch_directory`), and
a file is a name in its parent (`liesIn_of_isFile`), and names may be put after a path before or after
it is made absolute (`Path.absoluteFrom_below`).

So what is selected is seen from the root by names alone, and the ignore files that hold for it are
those from the root on (`IgnoreList.exists_parent_below`): the rules refer to the root, and those in
the root's ignore file are among them (`select_in_workspace`).

One path is an exception.  A link to a directory is selected along with what is behind it.  It is the
root, and its own directory is the one above (`link_without_root_rules`).
-/
import Mathlib
import MarkerBlock.Proofs.Ignore.Precedence
import MarkerBlock.Proofs.Path.Inside
import MarkerBlock.Proofs.Selection

namespace MarkerBlock

/-! ## §1 Names of a tree -/

mutual

/-- Every name in a node is one that a path is written with. -/
def Node.HasPlainNames : Node → Prop
  | .directory entries => Entries.HasPlainNames entries
  | _ => True

/-- Every name in a directory, and below it, is one that a path is written with. -/
def Entries.HasPlainNames : List (List Char × Node) → Prop
  | [] => True
  | (name, node) :: rest =>
    Path.IsPlain name ∧ node.HasPlainNames ∧ Entries.HasPlainNames rest

end

theorem Entries.HasPlainNames.get? {entries : Entries} (h : Entries.HasPlainNames entries)
    {name : List Char} {node : Node} (hget : Entries.get? entries name = some node) :
    Path.IsPlain name ∧ node.HasPlainNames := by
  induction entries with
  | nil => cases hget
  | cons entry rest ih =>
    obtain ⟨key, first⟩ := entry
    rw [Entries.HasPlainNames] at h
    rw [Entries.get?_cons] at hget
    split at hget
    · next hkey =>
      cases hget
      exact ⟨hkey ▸ h.1, h.2.1⟩
    · exact ih h.2.2 hget

theorem Entries.HasPlainNames.node? {entries : Entries} (h : Entries.HasPlainNames entries)
    {place : Place} {node : Node} (hnode : Entries.node? place entries = some node) :
    node.HasPlainNames := by
  induction place generalizing entries with
  | nil =>
    cases hnode
    rwa [Node.HasPlainNames]
  | cons name rest ih =>
    rw [Entries.node?] at hnode
    split at hnode
    · next inner hget =>
      have hinner := (h.get? hget).2
      rw [Node.HasPlainNames] at hinner
      exact ih hinner hnode
    · next other hget =>
      split_ifs at hnode
      cases hnode
      exact (h.get? hget).2
    · cases hnode

/-- The names on the way to a directory are names of the tree. -/
theorem Entries.HasPlainNames.down? {c d : Cursor} (h : Entries.HasPlainNames c.entries)
    {place : Place} (hdown : c.down? place = some d) : ∀ name ∈ place, Path.IsPlain name := by
  induction place generalizing c with
  | nil => exact fun name hname => absurd hname List.not_mem_nil
  | cons name rest ih =>
    rw [Cursor.down?] at hdown
    split at hdown
    · next inner hget =>
      obtain ⟨hname, hinner⟩ := h.get? hget
      rw [Node.HasPlainNames] at hinner
      exact List.forall_mem_cons.mpr ⟨hname, ih (c := c.enter name inner) hinner hdown⟩
    · cases hdown

/-- Every name in a tree is one that a path is written with, as in any file system: not empty, no `.`
or `..`, and without a slash. -/
def FileTree.HasPlainNames (t : FileTree) : Prop := Entries.HasPlainNames t.entries

namespace Selection

variable {s : Surroundings} {tree : FileTree} {cwd : Place} {p q : Path}

/-! ## §2 What a walk lists -/

mutual

/-- What is listed at or below a path has names below it. -/
theorem exists_below_of_mem_walkNode {p q : Path} : (node : Node) → node.HasPlainNames →
    .ok q ∈ walkNode p node → ∃ names, (∀ name ∈ names, Path.IsPlain name) ∧ q = p.below names
  | .directory entries, hnames, h => by
    rw [walkNode] at h
    split at h
    · cases List.mem_singleton.mp h
    · obtain ⟨names, -, hplain, hq⟩ := exists_below_of_mem_walkEntries entries hnames h
      exact ⟨names, hplain, hq⟩
  | .file octets, _, h => by
    simp only [walkNode, List.mem_singleton] at h
    cases h
    exact ⟨[], List.forall_mem_nil _, rfl⟩
  | .link target, _, h => by
    simp only [walkNode, List.mem_singleton] at h
    cases h
    exact ⟨[], List.forall_mem_nil _, rfl⟩

theorem exists_below_of_mem_walkEntries {p q : Path} : (entries : List (List Char × Node)) →
    Entries.HasPlainNames entries → .ok q ∈ walkEntries p entries →
    ∃ names, names ≠ [] ∧ (∀ name ∈ names, Path.IsPlain name) ∧ q = p.below names
  | [], _, h => absurd h List.not_mem_nil
  | (name, node) :: rest, hnames, h => by
    obtain ⟨hname, hnode, hrest⟩ := hnames
    rw [walkEntries, List.mem_append] at h
    rcases h with h | h
    · obtain ⟨names, hplain, rfl⟩ := exists_below_of_mem_walkNode node hnode h
      exact ⟨name :: names, List.cons_ne_nil _ _, List.forall_mem_cons.mpr ⟨hname, hplain⟩, rfl⟩
    · exact exists_below_of_mem_walkEntries rest hrest h

end

theorem exists_node?_of_stat {node : Node} (h : tree.stat cwd p = .ok node) :
    ∃ place, tree.locate cwd .see p = .ok (.found place node) ∧ tree.node? place = some node := by
  rw [FileTree.stat, FileTree.find] at h
  cases hlocate : tree.locate cwd .see p with
  | error e =>
    rw [hlocate] at h
    cases h
  | ok location =>
    rw [hlocate] at h
    cases location with
    | vacant place => cases h
    | found place found =>
      cases h
      exact ⟨place, rfl, FileTree.locate_holds hlocate⟩

/-- What a directory stands for is below it, but for the directory's own path if that is a link. -/
theorem mem_ofMatch_directory (hnames : tree.HasPlainNames) (hdirectory : tree.isDirectory cwd p = true)
    (hq : q ∈ (ofMatch tree cwd p).paths) :
    (q = p ∧ ∃ target, tree.statLink cwd p = .ok (.link target)) ∨
      ∃ names, names ≠ [] ∧ (∀ name ∈ names, Path.IsPlain name) ∧ q = p.below names := by
  rw [ofMatch, if_pos hdirectory, mem_pathsOf] at hq
  rw [FileTree.isDirectory] at hdirectory
  split at hdirectory
  · next entries hstat =>
    obtain ⟨place, hlocate, hnode⟩ := exists_node?_of_stat hstat
    have hentries := Entries.HasPlainNames.node? hnames hnode
    rw [Node.HasPlainNames] at hentries
    have hlink : tree.statLink cwd p = .ok (.directory entries) ∨
        ∃ target, tree.statLink cwd p = .ok (.link target) := by
      rw [FileTree.statLink, FileTree.find]
      rcases FileTree.locate_seeLink_cases hlocate with hsame | ⟨place', target, hlink⟩
      · exact .inl (by rw [hsame]; rfl)
      · exact .inr ⟨target, by rw [hlink]; rfl⟩
    rcases hlink with hsame | ⟨target, hlink⟩
    · rw [walk, hsame] at hq
      simp only [walkNode] at hq
      split at hq
      · cases List.mem_singleton.mp hq
      · exact .inr (exists_below_of_mem_walkEntries entries hentries hq)
    · rw [walk, hlink, hstat] at hq
      rcases List.mem_cons.mp hq with hself | hq
      · cases hself
        exact .inl ⟨rfl, target, hlink⟩
      · exact .inr (exists_below_of_mem_walkEntries entries hentries hq)
  · cases hdirectory

/-! ## §3 Files -/

theorem isFile_eq_true (h : tree.isFile cwd p = true) :
    ∃ octets, tree.stat cwd p = .ok (.file octets) := by
  rw [FileTree.isFile] at h
  split at h
  · next octets hstat => exact ⟨octets, hstat⟩
  · cases h

/-- The path of a file ends in a name: any other end leads to a directory. -/
theorem exists_segments_of_isFile (h : tree.isFile cwd p = true) :
    ∃ before x, Path.IsPlain x ∧ p.segments = before ++ [x] := by
  obtain ⟨octets, hstat⟩ := isFile_eq_true h
  obtain ⟨place, hlocate, -⟩ := exists_node?_of_stat hstat
  rw [FileTree.locate] at hlocate
  split at hlocate
  · cases hlocate
  · cases hlocate
  · obtain ⟨before, x, hsegments⟩ :=
      (List.eq_nil_or_concat' p.segments).resolve_left (Path.segments_ne_nil p)
    have hend : ¬(Path.isBlank x = true ∨ x = ['.', '.']) := by
      intro hend
      have hlast : ∀ segment ∈ p.segments.getLast?,
          Path.isBlank segment = true ∨ segment = ['.', '.'] := by
        rw [hsegments, List.getLast?_concat]
        rintro _ ⟨⟩
        exact hend
      obtain ⟨place', inner, hdirectory⟩ := FileTree.walk_of_no_name_end hlast hlocate
      cases hdirectory
    rw [not_or] at hend
    have hmem : x ∈ p.segments := hsegments ▸ List.mem_append_right _ (List.mem_singleton_self x)
    exact ⟨before, x, ⟨Path.not_mem_segments hmem, hend.1, hend.2⟩, hsegments⟩

/-- A relative path leads to a file from a directory of the tree only. -/
theorem plain_of_isFile (hnames : tree.HasPlainNames) (hfile : tree.isFile cwd p = true)
    (hrelative : p.isAbsolute = false) : ∀ name ∈ cwd, Path.IsPlain name := by
  obtain ⟨octets, hstat⟩ := isFile_eq_true hfile
  obtain ⟨place, hlocate, -⟩ := exists_node?_of_stat hstat
  rw [FileTree.locate, hrelative, if_neg Bool.false_ne_true] at hlocate
  split at hlocate
  · cases hlocate
  · cases hlocate
  · next c hfault hstart => exact Entries.HasPlainNames.down? (c := tree.cursor) hnames hstart

theorem isDirectory_of_isFile (h : tree.isFile cwd p = true) : tree.isDirectory cwd p = false := by
  obtain ⟨octets, hstat⟩ := isFile_eq_true h
  rw [FileTree.isDirectory, hstat]

/-! ## §4 What lies in the workspace -/

/-- A path lies in a directory: right in it, or below it by names. -/
inductive LiesIn (root q : Path) : Prop
  | file {x : List Char} (parent : q.parent? = some root)
      (components : q.components = root.components ++ [.name x])
  | below {names : Place} (ne : names ≠ []) (plain : ∀ name ∈ names, Path.IsPlain name)
      (eq : q = root.below names)

theorem LiesIn.components {root q : Path} (h : LiesIn root q) :
    ∃ names : Place, q.components = root.components ++ names.map .name := by
  cases h with
  | @file x _ hcomponents => exact ⟨[x], hcomponents⟩
  | @below names _ hplain heq => exact ⟨names, heq ▸ Path.components_below hplain root⟩

/-- The workspace that a directory chooses is the directory. -/
theorem workspaceOf?_of_isDirectory {pattern : String}
    (h : tree.isDirectory s.cwd (.ofString pattern) = true) :
    workspaceOf? s tree pattern = some ((Path.ofString pattern).absoluteFrom s.directory) := by
  rw [workspaceOf?]
  exact if_pos h

/-- The workspace that a file chooses is its parent.  The parent of a name alone is the current
directory. -/
theorem workspaceOf?_of_isFile {pattern : String} {d : Path}
    (hfile : tree.isFile s.cwd (.ofString pattern) = true)
    (hparent : (Path.ofString pattern).parent? = some d) :
    workspaceOf? s tree pattern =
      some (if d.text.isEmpty then s.directory else d.absoluteFrom s.directory) := by
  rw [workspaceOf?, if_neg (Bool.eq_false_iff.mp (isDirectory_of_isFile hfile)), if_pos hfile, hparent]
  exact (apply_ite some _ _ _).symm

/-- A file lies in the workspace that it chooses. -/
theorem liesIn_of_isFile {pattern : String} {root : Path} (hnames : tree.HasPlainNames)
    (hfile : tree.isFile s.cwd (.ofString pattern) = true)
    (hroot : workspaceOf? s tree pattern = some root) :
    LiesIn root ((Path.ofString pattern).absoluteFrom s.directory) := by
  obtain ⟨before, x, hx, hsegments⟩ := exists_segments_of_isFile hfile
  obtain ⟨d, hparent, hcomponents⟩ := hx.exists_parent hsegments
  rw [workspaceOf?_of_isFile hfile hparent] at hroot
  cases hroot
  generalize Path.ofString pattern = p at hfile hparent hcomponents
  by_cases habsolute : p.isAbsolute = true
  · have hd : d.isAbsolute = true :=
      (Path.isAbsolute_eq_of_below [x] hcomponents).symm.trans habsolute
    have hne : ¬d.text.isEmpty = true := by
      rw [List.isEmpty_iff]
      exact Path.text_ne_nil_of_isAbsolute hd
    rw [if_neg hne, Path.absoluteFrom, Path.absoluteFrom, if_pos hd, if_pos habsolute]
    exact .file hparent hcomponents
  · have hrelative := Bool.eq_false_iff.mpr habsolute
    have hcwd := Place.ofComponents_path (plain_of_isFile hnames hfile hrelative)
    exact .below (List.cons_ne_nil x []) (List.forall_mem_singleton.mpr hx)
      (Path.absoluteFrom_of_last rfl hcwd hrelative hx hcomponents)

end Selection

/-! ## §5 Ignore files from the root on -/

namespace IgnoreList

open Ignore

variable {s : Surroundings} {tree : FileTree} {cwd : Place} {root d : Path}

/-- The ignore files that hold in `d` are those from `root` on.  The first directory on the way is
the root, perhaps without what means nothing at its end. -/
structure BeginsAt (root d : Path) : Prop where
  inside : d.startsWith root = true
  first : ∃ a rest, chain d root = a :: rest ∧ a.components = root.components ∧ a.text <+: root.text

theorem beginsAt_of_components (h : d.components = root.components) (htext : d.text <+: root.text) :
    BeginsAt root d where
  inside := List.isPrefixOf_iff_prefix.mpr (h ▸ List.prefix_rfl)
  first := ⟨d, [], chain_of_same (beq_iff_eq.mpr h), h, htext⟩

/-- What is below an absolute path is in a directory whose ignore files begin at the path. -/
theorem exists_parent_below (hroot : root.isAbsolute = true) {names : Place} (hne : names ≠ [])
    (hnames : ∀ name ∈ names, Path.IsPlain name) :
    ∃ d, (root.below names).parent? = some d ∧ BeginsAt root d := by
  induction names using List.reverseRecOn with
  | nil => exact absurd rfl hne
  | append_singleton before x ih =>
    have hbefore : ∀ name ∈ before, Path.IsPlain name :=
      fun name hname => hnames name (List.mem_append_left [x] hname)
    by_cases hempty : before = []
    · subst hempty
      have hx := hnames x (List.mem_singleton_self x)
      obtain ⟨d, hd, hcomponents, htext⟩ := hx.parent?_join hroot
      exact ⟨d, hd, beginsAt_of_components hcomponents htext⟩
    · obtain ⟨q, hq, hbegins⟩ := ih hempty hbefore
      obtain ⟨a, rest, hchain, ha⟩ := hbegins.first
      have hcomponents := Path.components_below hbefore root
      have hother : (root.below before).same root = false := by
        simpa [Path.same, hcomponents] using hempty
      refine ⟨root.below before, Path.parent?_below hroot hempty hnames, ?_, a,
        rest ++ [root.below before], ?_, ha⟩
      · exact List.isPrefixOf_iff_prefix.mpr (hcomponents ▸ List.prefix_append _ _)
      · rw [chain_of_parent hother hq, hchain]
        rfl

/-- The ignore file of the root is read before any other. -/
theorem BeginsAt.ignoreFiles_eq (h : BeginsAt root d)
    (hfile : tree.isFile cwd (root.join (.ofString fileName)) = true) :
    ∃ file rest, ignoreFiles tree cwd d root = file :: rest ∧
      tree.look? cwd file = tree.look? cwd (root.join (.ofString fileName)) := by
  obtain ⟨a, rest, hchain, hcomponents, htext⟩ := h.first
  have hfits : FileTree.Fits (root.join (.ofString fileName)) := by
    by_contra hlong
    rw [FileTree.isFile_of_look?_eq_none (FileTree.look?_of_not_fits hlong tree cwd)] at hfile
    cases hfile
  have hlook := FileTree.look?_join isPlain_fileName hcomponents
    (FileTree.Fits.of_front isPlain_fileName htext hfits) hfits tree cwd
  have hhere : tree.isFile cwd (a.join (.ofString fileName)) = true :=
    (FileTree.questions_of_look? hlook).1.trans hfile
  have hfiles : ignoreFiles tree cwd d root = a.join (.ofString fileName) ::
      (rest.map (·.join (.ofString fileName))).filter (tree.isFile cwd) := by
    rw [ignoreFiles, hchain, List.map_cons, List.filter_cons_of_pos hhere]
  exact ⟨_, _, hfiles, hlook⟩

/-- The rules of a file are those of any path that shows the same. -/
theorem readRules_of_look? {file file' : Path} {rules : List Rule}
    (h : tree.look? cwd file = tree.look? cwd file') (hfile : tree.isFile cwd file' = true)
    (hrules : readRules tree cwd file = .ok rules) : readRules tree cwd file' = .ok rules := by
  obtain ⟨hsame, -, hread⟩ := FileTree.questions_of_look? h
  have hequal := toOption_readRules (hread (FileTree.isPresent_of_isFile (hsame.trans hfile)))
  rw [hrules] at hequal
  cases hother : readRules tree cwd file' with
  | error e =>
    rw [hother] at hequal
    cases hequal
  | ok other =>
    rw [hother] at hequal
    cases hequal
    rfl

/-- The rules that hold in `d` refer to the root, and those of the root's ignore file are among
them.  If the root's ignore file cannot be read, none are loaded. -/
def HasRootRules (s : Surroundings) (tree : FileTree) (root d : Path) : Prop :=
  ∀ list loaded, (load s tree list d root).1 = .ok loaded →
    ∃ rules, loaded.loaded = some { root, rules } ∧
      (tree.isFile s.cwd (root.join (.ofString fileName)) = true →
        ∃ outer own inner, readRules tree s.cwd (root.join (.ofString fileName)) = .ok own ∧
          rules = outer ++ own ++ inner)

theorem BeginsAt.hasRootRules (h : BeginsAt root d) : HasRootRules s tree root d := by
  intro list loaded hload
  rw [load_eq, rootFor_of_startsWith h.inside] at hload
  cases hrules : rulesIn s tree d root with
  | error e =>
    rw [hrules] at hload
    cases hload
  | ok rules =>
    rw [hrules] at hload
    cases hload
    refine ⟨rules, rfl, fun hfile => ?_⟩
    obtain ⟨file, rest, hfiles, hlook⟩ := h.ignoreFiles_eq hfile
    obtain ⟨outer, inner, hinner, rfl⟩ := exists_of_rulesIn hrules
    rw [rootFor_of_startsWith h.inside, hfiles] at hinner
    obtain ⟨own, more, hown, -, rfl⟩ := readAll_cons_eq_ok_iff.mp hinner
    exact ⟨outer, own, more, readRules_of_look? hlook hfile hown, (List.append_assoc _ _ _).symm⟩

end IgnoreList

namespace Selection

variable {s : Surroundings} {tree : FileTree} {cwd : Place} {p q root : Path} {pattern : String}
  {patterns : List String}

/-! ## §6 The first pattern -/

/-- A pattern chooses a workspace if it names a directory or a file. -/
def chooses (s : Surroundings) (tree : FileTree) (pattern : String) : Bool :=
  tree.isDirectory s.cwd (.ofString pattern) || tree.isFile s.cwd (.ofString pattern)

theorem isSome_workspaceOf? : (workspaceOf? s tree pattern).isSome = chooses s tree pattern := by
  rw [workspaceOf?, chooses]
  split_ifs with hdirectory hfile
  · rw [hdirectory]
    rfl
  · rw [hfile, Bool.or_true]
    split
    · rfl
    · split_ifs <;> rfl
  · rw [eq_false_of_ne_true hdirectory, eq_false_of_ne_true hfile]
    rfl

/-- The first pattern that names a directory or a file has the workspace. -/
theorem workspaceOf?_of_find? (h : patterns.find? (chooses s tree) = some pattern) :
    workspaceOf? s tree pattern = some (workspaceRoot s tree patterns) := by
  obtain ⟨hhere, before, after, rfl, hbefore⟩ := List.find?_eq_some_iff_append.mp h
  have hnone : before.findSome? (workspaceOf? s tree) = none := by
    rw [List.findSome?_eq_none_iff]
    intro earlier hearlier
    have hnot := hbefore earlier hearlier
    rw [← isSome_workspaceOf?] at hnot
    simpa using hnot
  rw [← isSome_workspaceOf?] at hhere
  obtain ⟨root, hroot⟩ := Option.isSome_iff_exists.mp hhere
  rw [workspaceRoot, List.findSome?_append, hnone, Option.none_or, List.findSome?_cons, hroot]
  rfl

theorem isAbsolute_of_workspaceOf? (h : workspaceOf? s tree pattern = some root) :
    root.isAbsolute = true := by
  have habsolute (p : Path) : (p.absoluteFrom s.directory).isAbsolute = true :=
    Path.isAbsolute_absoluteFrom p rfl
  rw [workspaceOf?] at h
  split_ifs at h
  · exact Option.some.inj h ▸ habsolute _
  · split at h
    · exact Option.some.inj h ▸ rfl
    · split_ifs at h
      · exact Option.some.inj h ▸ rfl
      · exact Option.some.inj h ▸ habsolute _

theorem isOk_statLink_of_isFile (h : tree.isFile cwd p = true) : (tree.statLink cwd p).isOk = true := by
  obtain ⟨octets, hstat⟩ := isFile_eq_true h
  obtain ⟨place, hlocate, -⟩ := exists_node?_of_stat hstat
  obtain ⟨place', node', hseen⟩ := FileTree.locate_seeLink_of_see hlocate
  rw [FileTree.statLink, FileTree.find, hseen]
  rfl

/-- A pattern that names a directory or a file selects what this stands for. -/
theorem exists_select_of_chooses (h : chooses s tree pattern = true) :
    ∃ found, select s tree [pattern] = .ok found ∧ ∀ q ∈ found.paths,
      ∃ p ∈ (ofMatch tree s.cwd (.ofString pattern)).paths, q = p.absoluteFrom s.directory := by
  have hthere : (tree.isDirectory s.cwd (.ofString pattern) ||
      (tree.statLink s.cwd (.ofString pattern)).isOk) = true := by
    rcases Bool.or_eq_true_iff.mp h with hdirectory | hfile
    · rw [hdirectory, Bool.true_or]
    · rw [isOk_statLink_of_isFile hfile, Bool.or_true]
  have hread : ofPattern tree s.cwd pattern = .ok (ofMatch tree s.cwd (.ofString pattern)) := by
    rw [ofPattern]
    exact if_pos hthere
  rw [select, ofPatterns, hread]
  refine ⟨_, rfl, fun q hq => ?_⟩
  obtain ⟨p, hp, rfl⟩ := List.mem_map.mp (sorted_subset _ hq)
  exact ⟨p, hp, rfl⟩

/-- What a pattern selects lies in the workspace that it chooses, but for a link to a directory,
which is itself the workspace. -/
theorem liesIn_of_chooses (hnames : tree.HasPlainNames) (hroot : workspaceOf? s tree pattern = some root)
    (hp : p ∈ (ofMatch tree s.cwd (.ofString pattern)).paths) :
    LiesIn root (p.absoluteFrom s.directory) ∨ p.absoluteFrom s.directory = root ∧
      ∃ target, tree.statLink s.cwd (.ofString pattern) = .ok (.link target) := by
  by_cases hdirectory : tree.isDirectory s.cwd (.ofString pattern) = true
  · cases (workspaceOf?_of_isDirectory hdirectory).symm.trans hroot
    rcases mem_ofMatch_directory hnames hdirectory hp with ⟨rfl, hlink⟩ | ⟨names, hne, hplain, rfl⟩
    · exact .inr ⟨rfl, hlink⟩
    · exact .inl (.below hne hplain (Path.absoluteFrom_below rfl hplain))
  · have hfile : tree.isFile s.cwd (.ofString pattern) = true := by
      have hchooses : chooses s tree pattern = (workspaceOf? s tree pattern).isSome :=
        isSome_workspaceOf?.symm
      rw [hroot, chooses, Bool.eq_false_iff.mpr hdirectory, Bool.false_or] at hchooses
      exact hchooses
    rw [ofMatch, if_neg hdirectory] at hp
    cases List.mem_singleton.mp hp
    exact .inl (liesIn_of_isFile hnames hfile hroot)

theorem LiesIn.exists_parent (h : LiesIn root q) (hroot : root.isAbsolute = true) :
    ∃ d, q.parent? = some d ∧ IgnoreList.BeginsAt root d := by
  cases h with
  | file hparent _ => exact ⟨root, hparent, IgnoreList.beginsAt_of_components rfl List.prefix_rfl⟩
  | below hne hplain heq => exact heq ▸ IgnoreList.exists_parent_below hroot hne hplain

/-- What the first pattern selects that names a directory or a file is in the workspace.  Seen from
the root it is neither absolute nor led out of it, and the root's ignore file holds for it, unless it
is the root: a link to a directory, which is selected along with what is behind it. -/
theorem select_in_workspace (hnames : tree.HasPlainNames)
    (hfirst : patterns.find? (chooses s tree) = some pattern) :
    ∃ found, select s tree [pattern] = .ok found ∧ ∀ q ∈ found.paths,
      q.startsWith (workspaceRoot s tree patterns) = true ∧
      (q.relativeTo (workspaceRoot s tree patterns)).isAbsolute = false ∧
      .parent ∉ (q.relativeTo (workspaceRoot s tree patterns)).components ∧
      ((∃ d, q.parent? = some d ∧
          IgnoreList.HasRootRules s tree (workspaceRoot s tree patterns) d) ∨
        q = workspaceRoot s tree patterns ∧
          ∃ target, tree.statLink s.cwd (.ofString pattern) = .ok (.link target)) := by
  have hroot := workspaceOf?_of_find? hfirst
  have habsolute := isAbsolute_of_workspaceOf? hroot
  generalize workspaceRoot s tree patterns = root at hroot habsolute ⊢
  obtain ⟨found, hselect, hpaths⟩ := exists_select_of_chooses (List.find?_some hfirst)
  refine ⟨found, hselect, fun q hq => ?_⟩
  obtain ⟨p, hp, rfl⟩ := hpaths q hq
  have hlies := liesIn_of_chooses hnames hroot hp
  generalize p.absoluteFrom s.directory = q at hlies ⊢
  obtain ⟨names, hcomponents⟩ : ∃ names : Place, q.components = root.components ++ names.map .name := by
    rcases hlies with hlies | ⟨rfl, -⟩
    · exact hlies.components
    · exact ⟨[], (List.append_nil _).symm⟩
  obtain ⟨hrelative, hseen⟩ := Path.relativeTo_of_append habsolute hcomponents
  refine ⟨List.isPrefixOf_iff_prefix.mpr (hcomponents ▸ List.prefix_append _ _), hrelative, ?_, ?_⟩
  · rw [hseen]
    simp
  · refine hlies.imp_left fun hlies => ?_
    obtain ⟨d, hd, hbegins⟩ := hlies.exists_parent habsolute
    exact ⟨d, hd, hbegins.hasRootRules⟩

/-- A directory with an ignore file and another file, and beside it a link to it. -/
def linkedRoot : FileTree :=
  ⟨[(['d'], .directory [(IgnoreList.fileName.toList, .file [0x2A]), (['x'], .file [])]),
    (['k'], .link (.ofString "d"))]⟩

theorem linkedRoot_hasPlainNames : linkedRoot.HasPlainNames := by
  simp only [FileTree.HasPlainNames, linkedRoot, Entries.HasPlainNames, Node.HasPlainNames]
  exact ⟨⟨by decide, by decide, by decide⟩, ⟨IgnoreList.isPlain_fileName, trivial,
    ⟨by decide, by decide, by decide⟩, trivial, trivial⟩, ⟨by decide, by decide, by decide⟩, trivial,
    trivial⟩

/-- A file chooses the directory in which it is, however it is written. -/
theorem select_in_workspace_of_file :
    linkedRoot.HasPlainNames ∧
    ["*.c", "..//d/./x"].find? (chooses ⟨[['d']], none, none⟩ linkedRoot) = some "..//d/./x" ∧
    workspaceRoot ⟨[['d']], none, none⟩ linkedRoot ["*.c", "..//d/./x"] = .ofString "/d/../d" ∧
    ∃ found, select ⟨[['d']], none, none⟩ linkedRoot ["..//d/./x"] = .ok found ∧ ∀ q ∈ found.paths,
      q.startsWith (.ofString "/d/../d") = true ∧
      .parent ∉ (q.relativeTo (.ofString "/d/../d")).components ∧
      ∃ d, q.parent? = some d ∧
        IgnoreList.HasRootRules ⟨[['d']], none, none⟩ linkedRoot (.ofString "/d/../d") d := by
  have hfirst : ["*.c", "..//d/./x"].find? (chooses ⟨[['d']], none, none⟩ linkedRoot) =
      some "..//d/./x" := by cbv
  have hroot : workspaceRoot ⟨[['d']], none, none⟩ linkedRoot ["*.c", "..//d/./x"] =
      .ofString "/d/../d" := by
    have hfile : linkedRoot.isFile [['d']] (.ofString "..//d/./x") = true := by cbv
    have hparent : (Path.ofString "..//d/./x").parent? = some (.ofString "..//d") := by cbv
    have hchosen := (workspaceOf?_of_find? hfirst).symm.trans (workspaceOf?_of_isFile hfile hparent)
    refine (Option.some.inj hchosen).trans ?_
    cbv
  have hlink : ¬∃ target, linkedRoot.statLink [['d']] (.ofString "..//d/./x") = .ok (.link target) := by
    rintro ⟨target, htarget⟩
    have hfile : linkedRoot.statLink [['d']] (.ofString "..//d/./x") = .ok (.file []) := by cbv
    cases hfile.symm.trans htarget
  obtain ⟨found, hselect, hpaths⟩ := select_in_workspace linkedRoot_hasPlainNames hfirst
  rw [hroot] at hpaths
  refine ⟨linkedRoot_hasPlainNames, hfirst, hroot, found, hselect, fun q hq => ?_⟩
  obtain ⟨hstart, -, hwithin, hrules⟩ := hpaths q hq
  exact ⟨hstart, hwithin, hrules.resolve_right fun hself => hlink hself.2⟩

/-- The root's ignore file does not hold for the root itself: the directory in which a link to a
directory is has its own rules. -/
theorem link_without_root_rules :
    ¬∀ (s : Surroundings) (tree : FileTree) (patterns : List String) (pattern : String) (found : Found),
      tree.HasPlainNames → patterns.find? (chooses s tree) = some pattern →
      select s tree [pattern] = .ok found → ∀ q ∈ found.paths, ∃ d, q.parent? = some d ∧
        IgnoreList.HasRootRules s tree (workspaceRoot s tree patterns) d := by
  intro hall
  have hfirst : ["/k"].find? (chooses Job.atRoot linkedRoot) = some "/k" := by cbv
  have hroot : workspaceRoot Job.atRoot linkedRoot ["/k"] = .ofString "/k" := by cbv
  have hload : (IgnoreList.load Job.atRoot linkedRoot { globs := [] } (.ofString "/")
      (.ofString "/k")).1 = .ok { globs := [], loaded := some ⟨.ofString "/", []⟩ } := by cbv
  have hpaths : (select Job.atRoot linkedRoot ["/k"]).toOption.map (·.paths) =
      some [.ofString "/k", .ofString "/k/.crtdebugignore", .ofString "/k/x"] := by cbv
  cases hselect : select Job.atRoot linkedRoot ["/k"] with
  | error e =>
    rw [hselect] at hpaths
    cases hpaths
  | ok found =>
    rw [hselect] at hpaths
    have hself : .ofString "/k" ∈ found.paths := by
      rw [show found.paths = _ from Option.some.inj hpaths]
      exact List.mem_cons_self
    obtain ⟨d, hd, hrules⟩ := hall _ _ _ _ found linkedRoot_hasPlainNames hfirst hselect _ hself
    have hparent : (Path.ofString "/k").parent? = some (.ofString "/") := by cbv
    cases hparent.symm.trans hd
    rw [hroot] at hrules
    obtain ⟨rules, hloaded, -⟩ := hrules _ _ hload
    cases hloaded

end Selection

end MarkerBlock
