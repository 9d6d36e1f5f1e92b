/-
MarkerBlock.Proofs.Job.Detector — what the rules of detection find depends on the octets of the
file alone.

In memory the rules of detection have all octets at hand.  On disk they have the size of the file
and its first octets, and see the rest only where these decide nothing.  Both find the same
encoding (`detect_on_disk`): no signature is longer than what is read first
(`Encoding.ofSignature?_take`), zeros are only counted there, and the lengths are those of the
whole file either way.

So the rules of detection go by the octets (`GoesByOctets`), and so does an encoding that is the
same for every file.  Other detectors need not.
-/
import Mathlib
import MarkerBlock.CodePage.Tables
import MarkerBlock.Job.Basic
import MarkerBlock.Proofs.Encoding.Opening
import MarkerBlock.Proofs.FileTree

namespace MarkerBlock.Detector

variable {page : CodePage} {tree : FileTree} {cwd : Place} {p : Path} {octets : List UInt8}

/-- What the rules of detection find for a file that can be read. -/
theorem heuristic_of_read (page : CodePage) (h : tree.read cwd p = .ok octets) :
    (heuristic.detect page tree cwd p).1 = Encoding.detectFile page (some octets) := by
  unfold heuristic
  simp only [h]

/-- The rules of detection find for a file that can be read what they find for its octets in
memory, however long it is and wherever it lies. -/
theorem detect_on_disk (page : CodePage) {tree : FileTree} {cwd : Place} {p : Path}
    {octets : List UInt8} (h : tree.read cwd p = .ok octets) :
    (heuristic.detect page tree cwd p).1 = Encoding.detect page octets := by
  rw [heuristic_of_read page h]
  exact Encoding.detectFile_some page octets

/-- A detector that goes by what is in a file: it finds the same encoding for the same octets,
whatever the path to them and whatever else is in the tree. -/
def GoesByOctets (d : Detector) : Prop :=
  ∀ ⦃page : CodePage⦄ ⦃tree tree' : FileTree⦄ ⦃cwd cwd' : Place⦄ ⦃p p' : Path⦄
    ⦃octets : List UInt8⦄, tree.read cwd p = .ok octets → tree'.read cwd' p' = .ok octets →
      (d.detect page tree cwd p).1 = (d.detect page tree' cwd' p').1

theorem goesByOctets_heuristic : heuristic.GoesByOctets := by
  intro page tree tree' cwd cwd' p p' octets h h'
  rw [heuristic_of_read page h, heuristic_of_read page h']

theorem goesByOctets_fixed (e : Encoding) : (fixed e).GoesByOctets := by
  intro page tree tree' cwd cwd' p p' octets h h'
  rfl

/-- A file whose first octets are ASCII, as many as are looked at before the lengths are, with a
character beyond ASCII behind them. -/
def lateOctets : List UInt8 := List.replicate Encoding.sampleSize 0x61 ++ [0xC3, 0xBC]

/-- A tree with this file alone. -/
def lateTree : FileTree := ⟨[(['a'], .file lateOctets)]⟩

theorem lateTree_read : lateTree.read [] ⟨['/', 'a']⟩ = .ok lateOctets :=
  FileTree.read_eq_ok_iff.mpr ⟨[['a']],
    FileTree.locate_name (by decide) (by decide) (by decide) (by decide) rfl [] .see⟩

/-- The character behind the first octets makes it UTF-8. -/
theorem detect_lateOctets (page : CodePage) : Encoding.detect page lateOctets = .utf8 false := by
  have hmem (b : UInt8) (hb : b ∈ lateOctets) : b = 0x61 ∨ b = 0xC3 ∨ b = 0xBC := by
    rcases List.mem_append.mp hb with hb | hb
    · exact .inl (List.eq_of_mem_replicate hb)
    · exact .inr (by simpa using hb)
  have hlength : 4 ≤ lateOctets.length := by
    rw [lateOctets, List.length_append, List.length_replicate]
    decide
  have hsig : Encoding.ofSignature? lateOctets = none := rfl
  have hnull : 0 ∉ lateOctets := fun hzero => by simpa using hmem 0 hzero
  have hopening : Encoding.Utf8.HasOpening lateOctets :=
    ⟨List.replicate Encoding.sampleSize 0x61, 0xC3, 0xBC, [], rfl, by decide⟩
  rw [← Encoding.detectFile_some, Encoding.detectFile_of_plain hlength hsig hnull,
    Encoding.ofWhole_eq, if_pos (Encoding.Utf8.count_lt_length hopening)]

/-- What stands behind the first octets is seen on disk as it is in memory. -/
theorem detect_on_disk_late :
    lateTree.read [] ⟨['/', 'a']⟩ = .ok lateOctets ∧
    (heuristic.detect CodePage.windows1252 lateTree [] ⟨['/', 'a']⟩).1 = .utf8 false :=
  ⟨lateTree_read,
    (detect_on_disk CodePage.windows1252 lateTree_read).trans (detect_lateOctets _)⟩

end MarkerBlock.Detector
