/-
MarkerBlock.Proofs.Job.Frame — what working on a file depends on, and what it leaves alone.

Work on a file writes to one path at most (`touched?`): to the file itself if the job
changes files, and otherwise to the file for differences.  What comes of a file
depends on its octets and the encoding found for it alone (`ensure_of_look?`).  Work on
several files changes no other place either, and if the job changes files it goes by
complete insertions (`Worked`).

A batch works on its files in trees that follow the first one (`Follows`): no file was
taken away, the ignore files are the same, and so are the files that are still to
come.  One more file keeps it so (`Follows.ensure`), as long as what it writes is none
of these (`SparesIgnoreFiles`, `SparesFiles`).
-/
import Mathlib
import MarkerBlock.Proofs.Ignore.Loading
import MarkerBlock.Proofs.Job.Detector
import MarkerBlock.Proofs.Job.File

namespace MarkerBlock

namespace Job

variable {job : Job} {page : CodePage} {s : Surroundings} {T tree : FileTree} {path : Path}
  {octets : List UInt8}

/-! ## §1 What is written -/

/-- The path that work on a file may write to. -/
def touched? (job : Job) (path : Path) : Option Path :=
  if job.modifies then some path else job.diffs.saved

/-- The trees that writing to a path may lead to. -/
def Puts (s : Surroundings) (tree : FileTree) (p : Path) (tree' : FileTree) : Prop :=
  ∃ place before octets, tree.target s.cwd p = .ok (place, before) ∧
    tree' = tree.set place (.file octets)

theorem examine_tree (job : Job) (s : Surroundings) (tree : FileTree) (path : Path)
    (i : Insertion) :
    (job.examine s tree path i).tree = tree ∨
      ∃ saved ∈ job.diffs.saved, Puts s tree saved (job.examine s tree path i).tree := by
  unfold examine
  split
  · simp only
    split
    · next tree' hsave =>
      unfold Diff.Output.save at hsave
      split at hsave
      · cases hsave
        exact .inl rfl
      · next saved hsaved =>
        split at hsave
        · next happend =>
          cases hsave
          obtain ⟨place, before, htarget, hset⟩ := FileTree.append_eq_ok happend
          exact .inr ⟨saved, hsaved, place, before, _, htarget, hset⟩
        · cases hsave
    · exact .inl rfl
  · exact .inl rfl

theorem writeBack_tree (s : Surroundings) (tree : FileTree) (path : Path) (i : Insertion) :
    (writeBack s tree path i).tree = tree ∨ Puts s tree path (writeBack s tree path i).tree := by
  unfold writeBack
  split
  · exact .inl rfl
  · next hwrite =>
    obtain ⟨place, before, htarget, hset⟩ := FileTree.write_eq_ok hwrite
    exact .inr ⟨place, before, _, htarget, hset⟩

/-- All that work on a file can do to the tree: nothing, or put a file where the path that
may be written to leads. -/
theorem ensure_tree (job : Job) (page : CodePage) (s : Surroundings) (tree : FileTree)
    (path : Path) :
    (job.ensure page s tree path).2.tree = tree ∨
      ∃ p ∈ job.touched? path, Puts s tree p (job.ensure page s tree path).2.tree := by
  have htree : (job.ensure page s tree path).2.tree =
      (job.ensureAs page s tree path (job.detector.detect page tree s.cwd path).1).tree := rfl
  rw [htree]
  unfold ensureAs touched?
  split
  · exact .inl rfl
  · split
    · exact .inl rfl
    · exact .inl rfl
    · next i _ =>
      split
      · exact (writeBack_tree s tree path i).imp_right fun h => ⟨path, rfl, h⟩
      · exact examine_tree job s tree path i

/-! ## §2 What is left alone -/

theorem Puts.face? {p : Path} {tree' : FileTree} {q : Place} (h : Puts s tree p tree')
    (hne : tree.placeOf? s.cwd p ≠ some q) : tree'.face? q = tree.face? q := by
  obtain ⟨place, before, octets, htarget, rfl⟩ := h
  rw [FileTree.face?_set_target htarget, if_neg]
  rintro rfl
  exact hne (FileTree.placeOf?_of_target htarget)

theorem Puts.grown {p : Path} {tree' : FileTree} (h : Puts s tree p tree') (q : Place) :
    FileTree.Grown (tree.node? q) (tree'.node? q) := by
  obtain ⟨place, before, octets, htarget, rfl⟩ := h
  exact FileTree.grown_set_target htarget octets q

/-- A path that does not lead where `p` leads shows what it showed. -/
theorem Puts.look? {p other : Path} {tree' : FileTree} (h : Puts s tree p tree')
    (hne : ∀ place, tree.placeOf? s.cwd p = some place → tree.placeOf? s.cwd other ≠ some place) :
    tree'.look? s.cwd other = tree.look? s.cwd other := by
  exact FileTree.look?_of_grown h.grown fun q hq => h.face? fun hp => hne q hp hq

/-- The trees that work on one of several files may lead to. -/
def Works (job : Job) (page : CodePage) (s : Surroundings) (paths : List Path)
    (tree tree' : FileTree) : Prop :=
  ∃ path ∈ paths, tree' = (job.ensure page s tree path).2.tree

/-- The trees that work on several files, one after another, may lead to. -/
def Worked (job : Job) (page : CodePage) (s : Surroundings) (paths : List Path) :
    FileTree → FileTree → Prop :=
  Relation.ReflTransGen (Works job page s paths)

theorem worked_of_eq {paths : List Path} {tree' : FileTree} (hpath : path ∈ paths)
    (h : tree' = tree ∨ tree' = (job.ensure page s tree path).2.tree) :
    Worked job page s paths tree tree' := by
  rcases h with rfl | h
  · exact .refl
  · exact .single ⟨path, hpath, h⟩

theorem Worked.mono {paths more : List Path} {tree' : FileTree}
    (h : Worked job page s paths tree tree') (hmore : paths ⊆ more) :
    Worked job page s more tree tree' := by
  have hworks : Works job page s paths ≤ Works job page s more :=
    fun _ _ ⟨path, hpath, hstep⟩ => ⟨path, hmore hpath, hstep⟩
  exact Relation.ReflTransGen.mono hworks tree tree' h

theorem Worked.grown {paths : List Path} {tree' : FileTree} (h : Worked job page s paths tree tree')
    (q : Place) : FileTree.Grown (tree.node? q) (tree'.node? q) := by
  induction h with
  | refl => exact .refl (tree.node? q)
  | tail _ hstep ih =>
    obtain ⟨path, -, rfl⟩ := hstep
    rcases ensure_tree job page s _ path with hsame | ⟨p, -, hputs⟩
    · rwa [hsame]
    · exact ih.trans (hputs.grown q)

/-- Work on files changes no place but those that are written to. -/
theorem Worked.face? {paths : List Path} {tree' : FileTree} {q : Place}
    (h : Worked job page s paths tree tree')
    (hq : ∀ path ∈ paths, ∀ p ∈ job.touched? path, tree.placeOf? s.cwd p ≠ some q) :
    tree'.face? q = tree.face? q := by
  induction h with
  | refl => rfl
  | @tail now next hbefore hstep ih =>
    obtain ⟨path, hpath, rfl⟩ := hstep
    rcases ensure_tree job page s now path with hsame | ⟨p, hp, hputs⟩
    · rw [hsame, ih]
    · rw [hputs.face? ?_, ih]
      rw [FileTree.placeOf?_of_grown (Worked.grown hbefore)]
      exact hq path hpath p hp

/-- The trees that complete insertions in some of several files lead to, one after another. -/
def Rewritten (job : Job) (page : CodePage) (s : Surroundings) (paths : List Path) :
    FileTree → FileTree → Prop :=
  Relation.ReflTransGen fun now next => ∃ path ∈ paths, ∃ e place old i,
    job.Rewrites page s now next path e place old i

/-- A job that changes files goes from tree to tree by complete insertions. -/
theorem Worked.rewritten {paths : List Path} {tree' : FileTree} (hmodifies : job.modifies = true)
    (h : Worked job page s paths tree tree') : Rewritten job page s paths tree tree' := by
  induction h with
  | refl => exact .refl
  | @tail now next _ hstep ih =>
    obtain ⟨path, hpath, rfl⟩ := hstep
    have hmeans := ensure_means job page s now path
    rw [Means] at hmeans
    split at hmeans
    · rwa [hmeans]
    · rwa [hmeans]
    · rw [hmodifies] at hmeans
      cases hmeans.1
    · obtain ⟨-, place, old, i, hrewrites⟩ := hmeans
      exact ih.tail ⟨path, hpath, _, place, old, i, hrewrites⟩

/-- The file at `q` is one that ignore rules may be loaded from. -/
def IsIgnoreFile (s : Surroundings) (tree : FileTree) (q : Place) : Prop :=
  ∃ file, IgnoreList.IsIgnorePath s file ∧ tree.placeOf? s.cwd file = some q

/-- Without links, and without an ignore file for every workspace, ignore files are those that are
called so. -/
theorem IsIgnoreFile.getLast? (hlinks : T.isLinkless = true) (hvariable : s.ignoreVariable = none)
    {q : Place} (h : IsIgnoreFile s T q) : q.getLast? = some IgnoreList.fileName.toList := by
  obtain ⟨file, hfile | ⟨directory, rfl⟩, hplace⟩ := h
  · rw [hvariable] at hfile
    cases hfile
  · have hname := IgnoreList.isPlain_fileName
    exact FileTree.getLast?_placeOf? hlinks (hname.getLast?_join directory) hname hplace

/-- A path to a place with another name leads to no ignore file. -/
theorem not_isIgnoreFile_of_linkless (hlinks : T.isLinkless = true)
    (hvariable : s.ignoreVariable = none) {place : Place} (hplace : T.placeOf? s.cwd path = some place)
    (hname : place.getLast? ≠ some IgnoreList.fileName.toList) :
    ∀ q, T.placeOf? s.cwd path = some q → ¬IsIgnoreFile s T q := by
  intro q hq hignore
  rw [hplace, Option.some.injEq] at hq
  subst hq
  exact hname (hignore.getLast? hlinks hvariable)

/-- What work on a file writes is not an ignore file. -/
def SparesIgnoreFiles (job : Job) (s : Surroundings) (T : FileTree) (path : Path) : Prop :=
  ∀ p ∈ job.touched? path, ∀ q, T.placeOf? s.cwd p = some q → ¬IsIgnoreFile s T q

/-- What work on a file writes is none of the files in `rest`. -/
def SparesFiles (job : Job) (s : Surroundings) (T : FileTree) (path : Path) (rest : List Path) :
    Prop :=
  ∀ p ∈ job.touched? path, ∀ q, T.placeOf? s.cwd p = some q →
    ∀ other ∈ rest, T.placeOf? s.cwd other ≠ some q

/-- A tree that a batch may have reached from `T`: nothing was taken away, and the ignore
files are the same, and so are the files that are still to come. -/
structure Follows (s : Surroundings) (T : FileTree) (rest : List Path) (tree : FileTree) : Prop where
  grown : ∀ q, FileTree.Grown (T.node? q) (tree.node? q)
  ignoreFiles : IgnoreList.SameIgnoreFiles s T tree
  files : ∀ path ∈ rest, tree.look? s.cwd path = T.look? s.cwd path

theorem Follows.refl (s : Surroundings) (T : FileTree) (rest : List Path) : Follows s T rest T :=
  ⟨fun q => .refl (T.node? q), fun _ _ => rfl, fun _ _ => rfl⟩

theorem Follows.mono {paths rest : List Path} (h : Follows s T paths tree) (hrest : rest ⊆ paths) :
    Follows s T rest tree :=
  ⟨h.grown, h.ignoreFiles, fun path hpath => h.files path (hrest hpath)⟩

/-- One file is worked on, and the tree still follows the first one. -/
theorem Follows.ensure {rest : List Path} (h : Follows s T rest tree)
    (hignore : job.SparesIgnoreFiles s T path) (hfiles : job.SparesFiles s T path rest)
    (page : CodePage) :
    Follows s T rest (job.ensure page s tree path).2.tree := by
  rcases ensure_tree job page s tree path with hsame | ⟨p, hp, hputs⟩
  · rwa [hsame]
  · have hplace := FileTree.placeOf?_of_grown h.grown s.cwd
    refine ⟨fun q => ?_, fun file hfile => ?_, fun other hother => ?_⟩
    · exact (h.grown q).trans (hputs.grown q)
    · rw [← h.ignoreFiles file hfile]
      refine hputs.look? fun q hq hthere => ?_
      rw [hplace] at hq hthere
      exact hignore p hp q hq ⟨file, hfile, hthere⟩
    · rw [← h.files other hother]
      refine hputs.look? fun q hq hthere => ?_
      rw [hplace] at hq hthere
      exact hfiles p hp q hq other hother hthere

/-- The node at the path itself is of the same kind as it was. -/
theorem Follows.statLink {rest : List Path} (h : Follows s T rest tree) {face : Face}
    (hlook : T.look? s.cwd path = some face) :
    ∃ node node', T.statLink s.cwd path = .ok node ∧ tree.statLink s.cwd path = .ok node' ∧
      FileTree.Alike (some node) (some node') := by
  obtain ⟨node, hnode⟩ := FileTree.exists_statLink hlook
  obtain ⟨node', hnode', halike⟩ := FileTree.statLink_of_grown h.grown hnode
  exact ⟨node, node', hnode, hnode', halike⟩

/-- The paths lead to files at different places, none of which is an ignore file. -/
structure AreFiles (s : Surroundings) (T : FileTree) (paths : List Path) : Prop where
  files : ∀ path ∈ paths, ∃ octets, T.look? s.cwd path = some (.file octets)
  distinct : paths.Pairwise fun p q => T.placeOf? s.cwd p ≠ T.placeOf? s.cwd q
  ordinary : ∀ path ∈ paths, ∀ q, T.placeOf? s.cwd path = some q → ¬IsIgnoreFile s T q

theorem AreFiles.tail {rest : List Path} (h : AreFiles s T (path :: rest)) : AreFiles s T rest :=
  ⟨fun p hp => h.files p (List.mem_cons_of_mem _ hp), (List.pairwise_cons.mp h.distinct).2,
    fun p hp => h.ordinary p (List.mem_cons_of_mem _ hp)⟩

theorem AreFiles.spares {paths : List Path} (h : AreFiles s T paths)
    (htouched : ∀ path ∈ paths, ∀ p ∈ job.touched? path, p = path) :
    ∀ path ∈ paths, job.SparesIgnoreFiles s T path := by
  intro path hpath p hp q hq
  rw [htouched path hpath p hp] at hq
  exact h.ordinary path hpath q hq

theorem areFiles_of_linkless {paths : List Path} (hlinks : T.isLinkless = true)
    (hvariable : s.ignoreVariable = none)
    (hfiles : ∀ path ∈ paths, ∃ place octets, T.placeOf? s.cwd path = some place ∧
      T.look? s.cwd path = some (.file octets) ∧
      place.getLast? ≠ some IgnoreList.fileName.toList)
    (hdistinct : paths.Pairwise fun p q => T.placeOf? s.cwd p ≠ T.placeOf? s.cwd q) :
    AreFiles s T paths := by
  refine ⟨fun path hpath => ?_, hdistinct, fun path hpath => ?_⟩
  · obtain ⟨place, octets, -, hlook, -⟩ := hfiles path hpath
    exact ⟨octets, hlook⟩
  · obtain ⟨place, octets, hplace, -, hname⟩ := hfiles path hpath
    exact not_isIgnoreFile_of_linkless hlinks hvariable hplace hname

/-- Work on a file of several that writes to this file at most spares the others. -/
theorem AreFiles.follows {rest : List Path} (h : AreFiles s T (path :: rest))
    (hfollows : Follows s T (path :: rest) tree) (htouched : ∀ p ∈ job.touched? path, p = path)
    (page : CodePage) : Follows s T rest (job.ensure page s tree path).2.tree := by
  have hdistinct := (List.pairwise_cons.mp h.distinct).1
  refine (hfollows.mono (List.subset_cons_self path rest)).ensure ?_ ?_ page
  · intro p hp q hq
    rw [htouched p hp] at hq
    exact h.ordinary path List.mem_cons_self q hq
  · intro p hp q hq other hother hthere
    rw [htouched p hp] at hq
    exact hdistinct other hother (hq.trans hthere.symm)

/-! ## §3 What comes of a file -/

/-- The encoding the job's detector finds for a file. -/
def found (job : Job) (page : CodePage) (s : Surroundings) (tree : FileTree) (path : Path) :
    Encoding :=
  (job.detector.detect page tree s.cwd path).1

/-- What a detector finds that goes by the octets of a file is the same wherever the octets are. -/
theorem found_eq {s' : Surroundings} {tree' : FileTree} {path' : Path}
    (hdetector : job.detector.GoesByOctets) (h : tree.look? s.cwd path = some (.file octets))
    (h' : tree'.look? s'.cwd path' = some (.file octets)) (page : CodePage) :
    job.found page s tree path = job.found page s' tree' path' :=
  hdetector (FileTree.read_eq_ok_iff_look?.mpr h) (FileTree.read_eq_ok_iff_look?.mpr h')

/-- What a plan comes to, where files can be written. -/
def statusOf (job : Job) : Except FileFailure (Option Insertion) → Except FileFailure Status
  | .error failure => .error failure
  | .ok none => .ok .present
  | .ok (some _) => .ok (if job.modifies then .inserted else .missing)

/-- What comes of a file depends on its octets and the encoding that is found. -/
theorem ensure_of_look? (job : Job) (h : tree.look? s.cwd path = some (.file octets))
    (page : CodePage) :
    (job.ensure page s tree path).1 = job.found page s tree path ∧
      (job.ensure page s tree path).2.result =
        job.statusOf (plan page job.inserter (job.found page s tree path) octets) := by
  refine ⟨rfl, ?_⟩
  have hresult : (job.ensure page s tree path).2.result =
      (job.ensureAs page s tree path (job.found page s tree path)).result := rfl
  rw [hresult]
  unfold ensureAs
  rw [FileTree.read_eq_ok_iff_look?.mpr h]
  simp only
  split
  · next hplan => rw [hplan]; rfl
  · next hplan => rw [hplan]; rfl
  · next i hplan =>
    rw [hplan, statusOf]
    by_cases hmodifies : job.modifies = true
    · obtain ⟨place, -, -, hwrite⟩ := FileTree.write_of_look? h
      simp only [hmodifies, if_true, writeBack, hwrite]
    · rw [if_neg hmodifies, if_neg hmodifies]
      exact (examine_spec job s tree path i).1

/-- If files are not to be changed, a file that needs the block is examined. -/
theorem ensure_tree_of_examine (hexamines : job.modifies = false)
    (h : tree.look? s.cwd path = some (.file octets)) {i : Insertion}
    (hplan : plan page job.inserter (job.found page s tree path) octets = .ok (some i)) :
    (job.ensure page s tree path).2.tree = (job.examine s tree path i).tree := by
  have htree : (job.ensure page s tree path).2.tree =
      (job.ensureAs page s tree path (job.found page s tree path)).tree := rfl
  rw [htree, ensureAs, FileTree.read_eq_ok_iff_look?.mpr h]
  simp only [hplan]
  rw [if_neg (by rw [hexamines]; exact Bool.false_ne_true)]

/-- A file that needs nothing is left alone. -/
theorem ensure_tree_of_plan (h : tree.look? s.cwd path = some (.file octets))
    (hplan : plan page job.inserter (job.found page s tree path) octets = .ok none) :
    (job.ensure page s tree path).2.tree = tree := by
  have hresult := (ensure_of_look? job h page).2
  have hmeans := ensure_means job page s tree path
  rw [hplan] at hresult
  rw [Means, hresult] at hmeans
  exact hmeans

/-- The report on a file with these octets, if it is worked on in the encoding `e`. -/
def reportFor (job : Job) (page : CodePage) (s : Surroundings) (path : Path) (e : Encoding)
    (octets : List UInt8) : FileReport :=
  reportOf page (displayPath s path) e (job.statusOf (plan page job.inserter e octets))

end Job

end MarkerBlock
