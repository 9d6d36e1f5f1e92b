/-
MarkerBlock.Proofs.Job.Placement — work on the files of a directory, wherever it is.

A batch may work on files of a directory that is at some place of a tree (`Site`).  What it
sees of a file is what the directory holds (`Placed.statLink`, `Placed.look?`); what is reported
on a file, and what is written to it, depends on its octets and on the encoding found; and when the
batch has worked on the file, the directory is still there, with the new contents (`Placed.ensure`),
which are told from the old ones (`rewritten`).  So the batch never notices what is around the
directory.
-/
import Mathlib
import MarkerBlock.Proofs.Ignore.Relocation
import MarkerBlock.Proofs.Job.Order

namespace MarkerBlock.Job

variable {job : Job} {page : CodePage} {tree tree' : FileTree} {inner inner' : Entries} {spare : Nat}
  {f : Place} {files : List Place} {octets : List UInt8}

/-! ## §1 Sites -/

/-- Where a directory is: the surroundings in which a batch runs, a path to the directory, and the
place of the directory. -/
structure Site where
  surroundings : Surroundings
  root : Path
  place : Place

/-- The job with another directory for its workspace. -/
def workingIn (job : Job) (root : Path) : Job := { job with workspace := root }

/-- A directory with the contents `inner` is at a site, and there is no ignore file for every
workspace. -/
structure Lies (a : Site) (tree : FileTree) (spare : Nat) (inner : Entries) : Prop where
  copy : tree.Copy a.root spare a.place inner
  globalFile : IgnoreList.HasNoGlobalFile a.surroundings tree

/-- The file system takes the paths of the files, and those of the ignore files beside them. -/
structure TakesPaths (root : Path) (files : List Place) : Prop where
  here : ∀ f ∈ files, FileTree.textFault? (root.below f) = none
  beside : ∀ f ∈ files, ∀ d ∈ (root.below f).parent?,
    FileTree.textFault? (d.join (.ofString IgnoreList.fileName)) = none

/-- If the job only examines, the file for differences is not in the directory at the site, and is
no ignore file for every workspace. -/
def KeepsDiffsElsewhere (job : Job) (a : Site) (tree : FileTree) : Prop :=
  job.modifies = false → ∀ saved ∈ job.diffs.saved,
    ∀ q, tree.placeOf? a.surroundings.cwd saved = some q → ¬a.place <+: q ∧
      ∀ text ∈ a.surroundings.ignoreVariable,
        tree.placeOf? a.surroundings.cwd (.ofString text) ≠ some q

/-- All that a batch needs of a site to work on files of the directory there. -/
structure Placed (job : Job) (a : Site) (spare : Nat) (files : List Place) (tree : FileTree)
    (inner : Entries) : Prop where
  lies : Lies a tree spare inner
  taken : TakesPaths a.root files
  diffs : job.KeepsDiffsElsewhere a tree

/-- The names lead to files of a directory, or to links in it. -/
structure AreNodes (inner : Entries) (files : List Place) : Prop where
  names : ∀ f ∈ files, ∀ name ∈ f, FileTree.IsEntryName name
  ends : ∀ f ∈ files, ∃ node, Entries.node? f inner = some node ∧ FileTree.IsEnd .seeLink node

theorem AreNodes.ne_nil (h : AreNodes inner files) (hf : f ∈ files) : f ≠ [] := by
  obtain ⟨node, hnode, hend⟩ := h.ends f hf
  rintro rfl
  cases hnode
  cases hend

theorem AreNodes.plain (h : AreNodes inner files) (hf : f ∈ files) :
    ∀ name ∈ f, Path.IsPlain name := fun name hname => (h.names f hf name hname).plain

/-! ## §2 What is seen of a file -/

section seen

variable {a : Site} (h : job.Placed a spare files tree inner) (hnodes : AreNodes inner files)
  (hf : f ∈ files)
include h hnodes hf

theorem Placed.writes : FileTree.Writes a.root f (a.root.below f) :=
  FileTree.writes_below (hnodes.plain hf) (hnodes.ne_nil hf) (h.taken.here f hf)

theorem Placed.statLink {node : Node} (hnode : Entries.node? f inner = some node)
    (hend : FileTree.IsEnd .seeLink node) :
    tree.statLink a.surroundings.cwd (a.root.below f) = .ok node := by
  have hstays : FileTree.Stays .seeLink spare (FileTree.mk inner).cursor f :=
    FileTree.stays_names (by decide) (hnodes.names f hf) hnode hend spare
  have hseen := FileTree.seen_names (by decide) (hnodes.names f hf) hnode hend spare
  rw [FileTree.statLink,
    h.lies.copy.find (h.writes hnodes hf) (hnodes.ne_nil hf) (by decide) hstays, hseen]

theorem Placed.locate (hfile : Entries.node? f inner = some (.file octets)) :
    tree.locate a.surroundings.cwd .see (a.root.below f) =
      .ok (.found (a.place ++ f) (.file octets)) := by
  have hstays : FileTree.Stays .see spare (FileTree.mk inner).cursor f :=
    FileTree.stays_names (by decide) (hnodes.names f hf) hfile (.file octets) spare
  have hwalk : (FileTree.mk inner).walk .see spare (FileTree.mk inner).cursor f =
      .ok (.found f (.file octets)) :=
    FileTree.walk_names (by decide) (hnodes.names f hf) hfile (.file octets) ⟨inner⟩ spare
  rw [h.lies.copy.locate (h.writes hnodes hf) (hnodes.ne_nil hf) (by decide) hstays, hwalk]
  rfl

theorem Placed.look? (hfile : Entries.node? f inner = some (.file octets)) :
    tree.look? a.surroundings.cwd (a.root.below f) = some (.file octets) :=
  FileTree.look?_eq_file_iff.mpr ⟨_, h.locate hnodes hf hfile⟩

theorem Placed.placeOf? (hfile : Entries.node? f inner = some (.file octets)) :
    tree.placeOf? a.surroundings.cwd (a.root.below f) = some (a.place ++ f) := by
  rw [FileTree.placeOf?, h.locate hnodes hf hfile]
  rfl

theorem Placed.relativeTo : (a.root.below f).relativeTo a.root = .ofShape .nothing f :=
  Path.relativeTo_below h.lies.copy.absolute (hnodes.ne_nil hf) (hnodes.plain hf)

/-- The directory of a file is one of the copy. -/
theorem Placed.parent : ∃ d, (a.root.below f).parent? = some d ∧
    IgnoreList.IsInCopy tree a.root spare a.place inner f.dropLast d := by
  obtain ⟨front, x, rfl⟩ := (List.eq_nil_or_concat' f).resolve_left (hnodes.ne_nil hf)
  obtain ⟨d, hd, hcomponents, -⟩ :=
    Path.parent?_of_names (Path.components_below (hnodes.plain hf) a.root)
  refine ⟨d, hd, h.lies.copy, ?_, h.taken.beside _ hf d hd⟩
  rw [List.dropLast_concat]
  exact hcomponents

end seen

/-- The list for a directory of a copy has the rules that hold there, seen from the root. -/
theorem load_in_copy {root d : Path} {place names : Place}
    (h : IgnoreList.IsInCopy tree root spare place inner names d) (s : Surroundings) :
    (IgnoreList.load s tree { globs := [] } d root).1 =
      (IgnoreList.rulesIn s tree d root).map (listOf root) := by
  rw [IgnoreList.load_eq, h.rootFor]
  rfl

/-! ## §3 What work on a file leaves -/

/-- The contents of a directory when a file in it has been worked on in the encoding `e`. -/
def rewritten (job : Job) (page : CodePage) (e : Encoding) (f : Place) (octets : List UInt8)
    (inner : Entries) : Entries :=
  match job.newOctets? page e octets with
  | some new => ((FileTree.mk inner).set f (.file new)).entries
  | none => inner

/-- What was there is there in the same way, and perhaps with other contents. -/
theorem grown_rewritten (job : Job) (page : CodePage) (e : Encoding)
    (hfile : Entries.node? f inner = some (.file octets)) (q : Place) :
    FileTree.Grown ((FileTree.mk inner).node? q)
      ((FileTree.mk (job.rewritten page e f octets inner)).node? q) := by
  unfold rewritten
  split
  · next new _ => exact .alike (FileTree.alike_set hfile new q)
  · exact .refl _

theorem AreNodes.rewritten (h : AreNodes inner files) (job : Job) (page : CodePage) (e : Encoding)
    (hfile : Entries.node? f inner = some (.file octets)) :
    AreNodes (job.rewritten page e f octets inner) files := by
  refine ⟨h.names, ?_⟩
  intro other hother
  obtain ⟨node, hnode, hend⟩ := h.ends other hother
  have hgrown : FileTree.Grown (Entries.node? other inner)
      (Entries.node? other (job.rewritten page e f octets inner)) :=
    grown_rewritten job page e hfile other
  rw [hnode] at hgrown
  cases hend with
  | file old =>
    obtain ⟨new, hnew⟩ := hgrown.of_some.eq_file
    exact ⟨_, hnew, .file new⟩
  | link target hlink => exact ⟨_, hgrown.of_some.eq_link, .link target hlink⟩

/-- Ignore files that do not lead out of a directory do not when a file in it has been worked on. -/
theorem keepInside_rewritten {names : Place} (h : IgnoreList.KeepInside inner spare names) (job : Job)
    (page : CodePage) (e : Encoding) (hfile : Entries.node? f inner = some (.file octets)) :
    IgnoreList.KeepInside (job.rewritten page e f octets inner) spare names :=
  fun front hfront => (h front hfront).of_grown (grown_rewritten job page e hfile) .root .root rfl

/-- A site is good for work in a later tree, if the directory is still there and no ignore file
for every workspace has come up. -/
theorem Placed.of_grown {a : Site} (h : job.Placed a spare files tree inner)
    (hgrown : ∀ q, FileTree.Grown (tree.node? q) (tree'.node? q))
    (hcopy : tree'.Copy a.root spare a.place inner')
    (hface : ∀ text ∈ a.surroundings.ignoreVariable, ∀ q,
      tree.placeOf? a.surroundings.cwd (.ofString text) = some q → tree'.face? q = tree.face? q) :
    job.Placed a spare files tree' inner' := by
  have hplace := FileTree.placeOf?_of_grown hgrown a.surroundings.cwd
  refine ⟨⟨hcopy, ?_⟩, h.taken, ?_⟩
  · intro text htext
    rw [FileTree.look?_of_grown hgrown (hface text htext)]
    exact h.lies.globalFile text htext
  · intro hmodifies saved hsaved q hq
    rw [hplace] at hq
    obtain ⟨hout, hglobal⟩ := h.diffs hmodifies saved hsaved q hq
    refine ⟨hout, ?_⟩
    intro text htext
    rw [hplace]
    exact hglobal text htext

/-- When a file has been worked on, the directory is at the site as before, with the new
contents. -/
theorem Placed.ensure {a : Site} (h : job.Placed a spare files tree inner)
    (hnodes : AreNodes inner files) (hf : f ∈ files)
    (hfile : Entries.node? f inner = some (.file octets)) (page : CodePage) :
    job.Placed a spare files
      ((job.workingIn a.root).ensure page a.surroundings tree (a.root.below f)).2.tree
      (job.rewritten page ((job.workingIn a.root).found page a.surroundings tree (a.root.below f)) f
        octets inner) := by
  have hlook := h.look? hnodes hf hfile
  have hplace := h.placeOf? hnodes hf hfile
  unfold rewritten
  generalize hfound : (job.workingIn a.root).found page a.surroundings tree (a.root.below f) = e
  cases hnew : job.newOctets? page e octets with
  | some new =>
    have hnew' : (job.workingIn a.root).newOctets? page e octets = some new := hnew
    rw [← hfound] at hnew'
    obtain ⟨there, hthere, hnode, htree⟩ := ensure_tree_of_new hlook hnew'
    rw [hplace, Option.some.injEq] at hthere
    subst hthere
    rw [htree]
    refine h.of_grown (fun q => .alike (FileTree.alike_set hnode new q)) ?_ ?_
    · exact h.lies.copy.set_inside hfile new
    · -- where an ignore file for every workspace would be is no file
      intro text htext q hq
      have hnone := h.lies.globalFile text htext
      rw [FileTree.look?_of_placeOf? hq] at hnone
      have hface : tree.face? (a.place ++ f) = some (.file octets) := by
        rw [FileTree.face?, hnode]
        rfl
      have hne : q ≠ a.place ++ f := by
        rintro rfl
        rw [hface] at hnone
        cases hnone
      rw [FileTree.face?_set (FileTree.reaches_of_file hnode) (by simp [hface]) new, if_neg hne]
  | none =>
    have hsame : (job.workingIn a.root).newOctets? page e octets = none := hnew
    rw [← hfound] at hsame
    rcases ensure_tree_of_same hlook hsame with htree | ⟨hmodifies, saved, hsaved, hputs⟩
    · rw [htree]
      exact h
    · obtain ⟨there, before, octets', htarget, htree⟩ := id hputs
      obtain ⟨hout, -⟩ :=
        h.diffs hmodifies saved hsaved there (FileTree.placeOf?_of_target htarget)
      refine h.of_grown hputs.grown ?_ ?_
      · rw [htree]
        exact h.lies.copy.set_outside htarget hout octets'
      · intro text htext q hq
        refine hputs.face? ?_
        intro hthere
        exact (h.diffs hmodifies saved hsaved q hthere).2 text htext hq

end MarkerBlock.Job
