/-
MarkerBlock.Proofs.Job.File — what working on one file does to the tree.

Whatever can go wrong goes wrong before anything is written, so the tree changes
in two cases only: a block was inserted, and then the file the path leads to holds
the new contents and nothing else changed (`Rewrites`); or a job that only examines
put a difference at the end of the file it keeps them in.
`ensure_changes_only_by_insertion` goes through all results.
-/
import Mathlib
import MarkerBlock.Job.File
import MarkerBlock.Proofs.Encoding.Codec
import MarkerBlock.Proofs.FileTree
import MarkerBlock.Proofs.Insertion

namespace MarkerBlock

/-! ## §1 Plans -/

/-- An insertion that is planned has been carried through up to the octets. -/
theorem plan_eq_some {page : CodePage} {i : Inserter} {e : Encoding} {octets : List UInt8}
    {ins : Insertion} (h : plan page i e octets = .ok (some ins)) :
    e.decode page octets = .ok ins.before ∧ i.ensure ins.before = .ok (.inserted ins.after) ∧
      e.encode page ins.after = .ok ins.octets := by
  rw [plan] at h
  split at h
  · cases h
  · next before hdecode =>
    split at h
    · cases h
    · cases h
    · next after hensure =>
      split at h
      · cases h
      · next new hencode =>
        cases h
        exact ⟨hdecode, hensure, hencode⟩

/-- No insertion is planned for a text that holds the marker. -/
theorem plan_eq_none {page : CodePage} {i : Inserter} {e : Encoding} {octets : List UInt8}
    {text : List Char} (hdecode : e.decode page octets = .ok text)
    (hmarker : i.hasMarker text = true) : plan page i e octets = .ok none := by
  rw [plan, hdecode]
  simp only [Inserter.ensure_eq_present_iff.mpr hmarker]

namespace Job

variable {job : Job} {page : CodePage} {s : Surroundings} {tree : FileTree} {path : Path}
  {e : Encoding}

/-! ## §2 Examining -/

/-- All places but those of the file for differences are as they were. -/
def KeepsAllButDiffs (job : Job) (s : Surroundings) (tree tree' : FileTree) : Prop :=
  ∀ q, (∀ saved before, job.diffs.saved = some saved →
    tree.target s.cwd saved ≠ .ok (q, before)) → tree'.face? q = tree.face? q

theorem KeepsAllButDiffs.refl (job : Job) (s : Surroundings) (tree : FileTree) :
    job.KeepsAllButDiffs s tree tree := fun _ _ => rfl

theorem keepsAllButDiffs_save {tree' : FileTree} {text : List Char}
    (h : job.diffs.save tree s.cwd text = .ok tree') : job.KeepsAllButDiffs s tree tree' := by
  rw [Diff.Output.save] at h
  split at h
  · cases h
    exact .refl job s tree
  · next saved hsaved =>
    split at h
    · next tree' happend =>
      cases h
      obtain ⟨place, before, htarget, rfl⟩ := FileTree.append_eq_ok happend
      intro q hq
      have hne : q ≠ place := by
        rintro rfl
        exact hq saved before hsaved htarget
      rw [FileTree.face?_set_target htarget, if_neg hne]
    · cases h

theorem examine_spec (job : Job) (s : Surroundings) (tree : FileTree) (path : Path)
    (i : Insertion) :
    (job.examine s tree path i).result = .ok .missing ∧
      job.KeepsAllButDiffs s tree (job.examine s tree path i).tree := by
  rw [examine]
  split
  · simp only
    split
    · next hsave => exact ⟨rfl, keepsAllButDiffs_save hsave⟩
    · exact ⟨rfl, .refl job s tree⟩
  · exact ⟨rfl, .refl job s tree⟩

/-! ## §3 Rewriting -/

/-- In `tree'` the file `path` leads to holds the planned octets, which are read as
the text with the block in it; nothing else has changed. -/
structure Rewrites (job : Job) (page : CodePage) (s : Surroundings) (tree tree' : FileTree)
    (path : Path) (e : Encoding) (place : Place) (old : List UInt8) (i : Insertion) : Prop where
  /-- The path leads to a file. -/
  found : tree.locate s.cwd .see path = .ok (.found place (.file old))
  /-- The file is read as text that needs the block. -/
  decoded : e.decode page old = .ok i.before
  inserted : job.inserter.ensure i.before = .ok (.inserted i.after)
  /-- The text with the block is written, and read back from what was written. -/
  encoded : e.encode page i.after = .ok i.octets
  redecoded : e.decode page i.octets = .ok i.after
  /-- The new text holds the marker if a line of the block does. -/
  marked : (∃ line ∈ job.inserter.block, Text.occursIn job.inserter.marker line = true) →
    job.inserter.hasMarker i.after = true
  /-- The file holds what was written, and all other places hold what they held. -/
  reread : tree'.read s.cwd path = .ok i.octets
  changed : ∀ q, tree'.face? q = if q = place then some (.file i.octets) else tree.face? q

/-- Whether a file could be written is all that is left to be seen. -/
theorem writeBack_spec {old : List UInt8} {i : Insertion}
    (hread : tree.read s.cwd path = .ok old)
    (hplan : plan page job.inserter e old = .ok (some i)) :
    (∃ err, (writeBack s tree path i).result = .error (.write path err) ∧
      (writeBack s tree path i).tree = tree) ∨
    ((writeBack s tree path i).result = .ok .inserted ∧ ∃ place,
      job.Rewrites page s tree (writeBack s tree path i).tree path e place old i) := by
  obtain ⟨hdecode, hensure, hencode⟩ := plan_eq_some hplan
  rw [writeBack]
  split
  · next err _ => exact .inl ⟨err, rfl, rfl⟩
  · next tree' hwrite =>
    obtain ⟨place, hfound, hreread, hchanged⟩ := FileTree.write_after_read hread hwrite
    refine .inr ⟨rfl, place, hfound, hdecode, hensure, hencode, Encoding.decode_of_encode hencode,
      ?_, hreread, hchanged⟩
    rintro ⟨line, hmem, hline⟩
    obtain ⟨-, head, tail, -, -, hafter⟩ := Inserter.ensure_eq_inserted hensure
    rw [hafter]
    exact Inserter.hasMarker_insertion hmem hline head tail

/-! ## §4 Results -/

/-- What the results of working on a file in one encoding mean. -/
def Means (job : Job) (page : CodePage) (s : Surroundings) (tree : FileTree) (path : Path)
    (e : Encoding) (h : Handled) : Prop :=
  match h.result with
  | .error _ | .ok .present => h.tree = tree
  | .ok .missing => job.modifies = false ∧ job.KeepsAllButDiffs s tree h.tree
  | .ok .inserted => job.modifies = true ∧
      ∃ place old i, job.Rewrites page s tree h.tree path e place old i

theorem ensureAs_means (job : Job) (page : CodePage) (s : Surroundings) (tree : FileTree)
    (path : Path) (e : Encoding) :
    job.Means page s tree path e (job.ensureAs page s tree path e) := by
  rw [ensureAs]
  split
  · exact rfl
  · next octets hread =>
    split
    · exact rfl
    · exact rfl
    · next i hplan =>
      by_cases hmodifies : job.modifies = true
      · rw [if_pos hmodifies, Means]
        rcases writeBack_spec hread hplan with ⟨err, hresult, htree⟩ | ⟨hresult, place, hrewrites⟩
        · rw [hresult]
          exact htree
        · rw [hresult]
          exact ⟨hmodifies, place, octets, i, hrewrites⟩
      · obtain ⟨hresult, hkeeps⟩ := examine_spec job s tree path i
        rw [if_neg hmodifies, Means, hresult]
        exact ⟨Bool.not_eq_true _ ▸ hmodifies, hkeeps⟩

theorem ensure_means (job : Job) (page : CodePage) (s : Surroundings) (tree : FileTree)
    (path : Path) :
    job.Means page s tree path (job.ensure page s tree path).1 (job.ensure page s tree path).2 :=
  ensureAs_means job page s tree path (job.detector.detect page tree s.cwd path).1

/-- An insertion that is planned is carried out where the file can be written. -/
theorem inserted_of_plan {tree' : FileTree} {old : List UInt8} {i : Insertion}
    (hmodifies : job.modifies = true) (hread : tree.read s.cwd path = .ok old)
    (hplan : plan page job.inserter e old = .ok (some i))
    (hwrite : tree.write s.cwd path i.octets = .ok tree') :
    (job.ensureAs page s tree path e).result = .ok .inserted := by
  rw [ensureAs, hread]
  simp only [hplan, if_pos hmodifies, writeBack, hwrite]

/-- An inserted block is a rewritten file. -/
theorem rewrites_of_inserted (h : (job.ensure page s tree path).2.result = .ok .inserted) :
    ∃ place old i, job.Rewrites page s tree (job.ensure page s tree path).2.tree path
      (job.ensure page s tree path).1 place old i := by
  have hmeans := ensure_means job page s tree path
  rw [Means, h] at hmeans
  exact hmeans.2

/-- A file is changed by a successful insertion only.  After a failure, and when the
marker is there, the tree is as it was; when the block is missing, the job only
examines, and at most the file for differences has changed.  After an insertion
the job is one that changes files, the path leads to the one file that has
changed, and the encoding that was found reads it as the old text with the block in
it, which holds the marker if a line of the block does. -/
theorem ensure_changes_only_by_insertion (job : Job) (page : CodePage) (s : Surroundings)
    (tree : FileTree) (path : Path) :
    match (job.ensure page s tree path).2.result with
    | .error _ | .ok .present => (job.ensure page s tree path).2.tree = tree
    | .ok .missing => job.modifies = false ∧
        job.KeepsAllButDiffs s tree (job.ensure page s tree path).2.tree
    | .ok .inserted => job.modifies = true ∧ ∃ place old i,
        job.Rewrites page s tree (job.ensure page s tree path).2.tree path
          (job.ensure page s tree path).1 place old i :=
  ensure_means job page s tree path

end Job

end MarkerBlock
