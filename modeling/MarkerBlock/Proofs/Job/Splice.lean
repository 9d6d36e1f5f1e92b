/-
MarkerBlock.Proofs.Job.Splice — the octets an insertion leaves alone.

In the text the block goes between two parts that stay as they are.  For every
encoding but UTF-7 the same is true of the octets, as reading and writing are
inverse and a text is written piece by piece: the file is cut in two, behind the last
line that holds the anchor, and the octets of the block go in between
(`ensure_splices_block`).  It does not matter whether the encoding was guessed right.

In UTF-7 a text has several forms, and an insertion leaves that of the writer.  A file that has
this form already keeps its octets too: the block stands between line ends, which are direct
characters, and there a UTF-7 text is written piece by piece (`canonical_utf7_splices_block`).
-/
import Mathlib
import MarkerBlock.CodePage.Tables
import MarkerBlock.Proofs.Encoding.Detection
import MarkerBlock.Proofs.Encoding.Utf7Pieces
import MarkerBlock.Proofs.Job.Detector
import MarkerBlock.Proofs.Job.File

namespace MarkerBlock

/-! ## §1 Splices -/

/-- `new` is `old` with the octets `x` of the block between its parts `front` and
`back`. -/
structure Spliced (page : CodePage) (i : Inserter) (e : Encoding)
    (old new front x back : List UInt8) : Prop where
  old_eq : old = front ++ back
  new_eq : new = front ++ x ++ back
  /-- The octets of a line feed and a block line, for every block line. -/
  block : e.encodeBody page i.insertion = .ok x
  /-- The mark is in the first part. -/
  mark : e.bom <+: front
  /-- The parts are read as the parts of the text, and the first of them ends in the
  last line that holds the anchor. -/
  read : ∃ head tail, e.decode page front = .ok head ∧ e.decodeBody page back = .ok tail ∧
    e.decode page old = .ok (head ++ tail) ∧ Inserter.EndsAtLastAnchor i.anchor head tail

/-- A planned insertion changes nothing but the place of the block. -/
theorem spliced_of_plan {page : CodePage} {i : Inserter} {e : Encoding} {old : List UInt8}
    {ins : Insertion} (he : e ≠ .utf7) (hbom : e.bom <+: old)
    (hplan : plan page i e old = .ok (some ins)) :
    ∃ front x back, Spliced page i e old ins.octets front x back := by
  obtain ⟨hdecode, hensure, hencode⟩ := plan_eq_some hplan
  obtain ⟨-, head, tail, hbefore, hcut, hafter⟩ := Inserter.ensure_eq_inserted hensure
  have hold := (Encoding.decode_eq_ok_iff_encode he hbom).mp hdecode
  -- both texts in pieces, and their octets in pieces
  obtain ⟨body, hbody, rfl⟩ := Encoding.encode_eq_ok_iff.mp hold
  obtain ⟨newBody, hnewBody, hnew⟩ := Encoding.encode_eq_ok_iff.mp hencode
  rw [hbefore] at hbody
  rw [hafter] at hnewBody
  obtain ⟨a, back, ha, hback, rfl⟩ := (Encoding.encodeBody_append_eq_ok_iff he).mp hbody
  obtain ⟨first, back', hfirst, hback', rfl⟩ := (Encoding.encodeBody_append_eq_ok_iff he).mp hnewBody
  obtain ⟨a', x, ha', hx, rfl⟩ := (Encoding.encodeBody_append_eq_ok_iff he).mp hfirst
  rw [ha] at ha'
  rw [hback] at hback'
  cases ha'
  cases hback'
  refine ⟨e.bom ++ a, x, back, ?_, ?_, hx, List.prefix_append _ _, head, tail, ?_, ?_, ?_, hcut⟩
  · rw [List.append_assoc]
  · rw [← hnew]
    simp only [List.append_assoc]
  · exact Encoding.decode_bom_append_eq_ok_iff.mpr ((Encoding.decodeBody_eq_ok_iff he).mpr ha)
  · exact (Encoding.decodeBody_eq_ok_iff he).mpr hback
  · rw [← hbefore]
    exact hdecode

/-! ## §2 The one form of a UTF-7 file that is written -/

/-- The block in a text, written as UTF-7: the octets of both parts stay as they are. -/
theorem Inserter.PlacesBlock.encode_utf7 {anchor text after head tail : List Char}
    {block : List (List Char)} (h : PlacesBlock anchor block text after head tail) :
    Encoding.Utf7.encode text = Encoding.Utf7.encode head ++ Encoding.Utf7.encode tail ∧
      Encoding.Utf7.encode after = Encoding.Utf7.encode head ++
        Encoding.Utf7.encode (Text.led '\n' block) ++ Encoding.Utf7.encode tail := by
  obtain ⟨-, -, others, -, htail, -⟩ := h.cut.lines
  have hdirect : Encoding.Utf7.StartsDirect tail := by
    rw [htail]
    exact Encoding.Utf7.startsDirect_led others
  have hboth := (Encoding.Utf7.startsDirect_led block).append hdirect
  refine ⟨?_, ?_⟩
  · rw [h.text_eq, Encoding.Utf7.encode_append head hdirect]
  · rw [h.after_eq, List.append_assoc, Encoding.Utf7.encode_append head hboth,
      Encoding.Utf7.encode_append _ hdirect, List.append_assoc]

/-- An insertion into a UTF-7 file that was written for its text is one into the text. -/
theorem plan_utf7 {i : Inserter} {text after : List Char}
    (h : i.ensure text = .ok (.inserted after)) (page : CodePage) :
    plan page i .utf7 (Encoding.Utf7.encode text) =
      .ok (some ⟨text, after, Encoding.Utf7.encode after⟩) := by
  have hwritten (t : List Char) : Encoding.utf7.encode page t = .ok (Encoding.Utf7.encode t) := rfl
  rw [plan, Encoding.decode_of_encode (hwritten text)]
  simp only [h, hwritten]

/-- A UTF-7 text is written piece by piece at direct characters.  So a UTF-7 file that holds what is
written for its text, lacks the marker and has an anchor line keeps its other octets: those of the
block, each of its lines with a line feed in front, go between the octets of the two parts of the
text, and the file that is planned holds just that. -/
theorem canonical_utf7_splices_block :
    (∀ (x y : List Char) (d : Char), Encoding.Utf7.isDirect d = true →
      Encoding.Utf7.encode (x ++ d :: y) =
        Encoding.Utf7.encode x ++ UInt8.ofNat d.toNat :: Encoding.Utf7.encode y) ∧
    ∀ (page : CodePage) (marker anchor : List Char) (lines : List (List Char)) (text : List Char),
      (∀ line ∈ lines, '\n' ∉ line) →
      (Inserter.ofLines marker anchor lines).hasMarker text = false →
      (∃ line ∈ Text.split '\n' text, Text.occursIn anchor line = true) →
      ∃ after head tail,
        (Inserter.ofLines marker anchor lines).ensure text = .ok (.inserted after) ∧
        Inserter.PlacesBlock anchor (lines.map Inserter.endLine) text after head tail ∧
        Encoding.Utf7.encode text = Encoding.Utf7.encode head ++ Encoding.Utf7.encode tail ∧
        Encoding.Utf7.encode after = Encoding.Utf7.encode head ++
          Encoding.Utf7.encode (Text.led '\n' (lines.map Inserter.endLine)) ++
            Encoding.Utf7.encode tail ∧
        plan page (Inserter.ofLines marker anchor lines) .utf7 (Encoding.Utf7.encode text) =
          .ok (some ⟨text, after, Encoding.Utf7.encode after⟩) := by
  refine ⟨fun x y d hd => Encoding.Utf7.encode_append_cons hd x y, ?_⟩
  intro page marker anchor lines text hlines hmarker hanchor
  obtain ⟨after, head, tail, hinserted, hplaced⟩ :=
    Inserter.exists_placesBlock hlines hmarker hanchor
  obtain ⟨htext, hafter⟩ := hplaced.encode_utf7
  exact ⟨after, head, tail, hinserted, hplaced, htext, hafter, plan_utf7 hinserted page⟩

/-- Characters that are not direct on both sides of the place, and in the block. -/
theorem canonical_utf7_splices_block_euro :
    Encoding.Utf7.isDirect '\n' = true ∧
    Encoding.Utf7.encode ['ü', '\n', '€'] =
      Encoding.Utf7.encode ['ü'] ++ 0x0A :: Encoding.Utf7.encode ['€'] ∧
    (∀ line ∈ [['ü']], '\n' ∉ line) ∧
    (Inserter.ofLines ['ü'] ['#'] [['ü']]).hasMarker ['#', '\n', '€'] = false ∧
    (∃ line ∈ Text.split '\n' ['#', '\n', '€'], Text.occursIn ['#'] line = true) ∧
    ∃ after head tail,
      Encoding.Utf7.encode ['#', '\n', '€'] =
        Encoding.Utf7.encode head ++ Encoding.Utf7.encode tail ∧
      plan CodePage.windows1252 (Inserter.ofLines ['ü'] ['#'] [['ü']]) .utf7
          (Encoding.Utf7.encode ['#', '\n', '€']) =
        .ok (some ⟨['#', '\n', '€'], after, Encoding.Utf7.encode head ++
          Encoding.Utf7.encode ['\n', 'ü', '\r'] ++ Encoding.Utf7.encode tail⟩) := by
  have hnewline : Encoding.Utf7.isDirect '\n' = true := by decide
  have hlines : ∀ line ∈ [['ü']], '\n' ∉ line := by decide
  have hmarker : (Inserter.ofLines ['ü'] ['#'] [['ü']]).hasMarker ['#', '\n', '€'] = false := by
    decide
  have hanchor : ∃ line ∈ Text.split '\n' ['#', '\n', '€'], Text.occursIn ['#'] line = true := by
    decide
  obtain ⟨hpieces, hsplices⟩ := canonical_utf7_splices_block
  obtain ⟨after, head, tail, -, -, htext, hafter, hplan⟩ :=
    hsplices CodePage.windows1252 ['ü'] ['#'] [['ü']] ['#', '\n', '€'] hlines hmarker hanchor
  refine ⟨hnewline, hpieces ['ü'] ['€'] '\n' hnewline, hlines, hmarker, hanchor, after, head, tail,
    htext, ?_⟩
  rw [hplan, hafter]
  rfl

/-! ## §3 Jobs -/

namespace Job

variable {job : Job} {page : CodePage} {s : Surroundings} {tree : FileTree} {path : Path}
  {octets : List UInt8}

/-- What the rules of detection find in a file that can be read. -/
theorem ensure_encoding (hheuristic : job.detector = .heuristic)
    (hread : tree.read s.cwd path = .ok octets) :
    (job.ensure page s tree path).1 = Encoding.detectFile page (some octets) := by
  have hfound : (job.ensure page s tree path).1 = (job.detector.detect page tree s.cwd path).1 := rfl
  rw [hfound, hheuristic]
  exact Detector.heuristic_of_read page hread

/-- A file that was read is the file that was rewritten. -/
theorem Rewrites.read_old {tree' : FileTree} {e : Encoding} {place : Place} {old : List UInt8}
    {i : Insertion} (h : job.Rewrites page s tree tree' path e place old i) :
    tree.read s.cwd path = .ok old :=
  FileTree.read_eq_ok_iff.mpr ⟨place, h.found⟩

theorem Rewrites.plan_eq {tree' : FileTree} {e : Encoding} {place : Place} {old : List UInt8}
    {i : Insertion} (h : job.Rewrites page s tree tree' path e place old i) :
    plan page job.inserter e old = .ok (some i) := by
  rw [plan, h.decoded]
  simp only [h.inserted, h.encoded]

/-- A file in a code page, with a line that holds the standard anchor. -/
def sampleOctets : List UInt8 :=
  [0x23, 0x69, 0x6E, 0x63, 0x6C, 0x75, 0x64, 0x65, 0x20, 0x22, 0xE9, 0x22, 0x0A]

/-- A tree with this file alone. -/
def sampleTree : FileTree := ⟨[(['a'], .file sampleOctets)]⟩

theorem sample_locate (purpose : FileTree.Purpose) :
    sampleTree.locate [] purpose ⟨['/', 'a']⟩ = .ok (.found [['a']] (.file sampleOctets)) :=
  FileTree.locate_name (by decide) (by decide) (by decide) (by decide) rfl [] purpose

theorem sample_read : sampleTree.read [] ⟨['/', 'a']⟩ = .ok sampleOctets :=
  FileTree.read_eq_ok_iff.mpr ⟨[['a']], sample_locate .see⟩

/-- The standard job on this file. -/
def sampleRun : Encoding × Handled :=
  (standard ⟨['/']⟩).ensure CodePage.windows1252 ⟨[], none, none⟩ sampleTree ⟨['/', 'a']⟩

/-- The file is read in the code page and gets the block. -/
theorem sampleRun_inserted : sampleRun.1 = .legacy ∧ sampleRun.2.result = .ok .inserted := by
  have hencoding : sampleRun.1 = .legacy := (ensure_encoding rfl sample_read).trans (by decide)
  have hwrite (octets : List UInt8) : sampleTree.write [] ⟨['/', 'a']⟩ octets =
      .ok (sampleTree.set [['a']] (.file octets)) := by
    rw [FileTree.write, FileTree.target, sample_locate]
    rfl
  refine ⟨hencoding, ?_⟩
  show ((standard ⟨['/']⟩).ensureAs CodePage.windows1252 ⟨[], none, none⟩ sampleTree ⟨['/', 'a']⟩
    sampleRun.1).result = _
  rw [hencoding]
  exact inserted_of_plan rfl sample_read rfl (hwrite _)

/-- Only the block is added.  If a file begins with the mark of the encoding it was
read in, which it does if the rules of detection chose the encoding, then an
insertion puts the octets of the block behind the last line that holds the anchor
and leaves all others as they are.  UTF-7 is the exception. -/
theorem ensure_splices_block (hread : tree.read s.cwd path = .ok octets)
    (he : (job.ensure page s tree path).1 ≠ .utf7)
    (hbom : job.detector = .heuristic ∨ (job.ensure page s tree path).1.bom <+: octets)
    (hinserted : (job.ensure page s tree path).2.result = .ok .inserted) :
    ∃ new front x back, (job.ensure page s tree path).2.tree.read s.cwd path = .ok new ∧
      Spliced page job.inserter (job.ensure page s tree path).1 octets new front x back := by
  have hmark : (job.ensure page s tree path).1.bom <+: octets := by
    rcases hbom with hheuristic | hbom
    · rw [ensure_encoding hheuristic hread]
      exact Encoding.bom_prefix_of_detectFile page octets
    · exact hbom
  obtain ⟨place, old, i, hrewrites⟩ := rewrites_of_inserted hinserted
  have hold := hrewrites.read_old
  rw [hread] at hold
  cases hold
  obtain ⟨front, x, back, hspliced⟩ := spliced_of_plan he hmark hrewrites.plan_eq
  exact ⟨i.octets, front, x, back, hrewrites.reread, hspliced⟩

/-- The block in the file in a code page. -/
theorem ensure_splices_block_sample :
    sampleRun.1 = .legacy ∧ sampleRun.2.result = .ok .inserted ∧ ∃ new front x back,
      sampleRun.2.tree.read [] ⟨['/', 'a']⟩ = .ok new ∧
      Spliced CodePage.windows1252 .standard .legacy sampleOctets new front x back := by
  obtain ⟨hencoding, hinserted⟩ := sampleRun_inserted
  have hseven : sampleRun.1 ≠ .utf7 := by
    rw [hencoding]
    decide
  obtain ⟨new, front, x, back, hread, hspliced⟩ :=
    ensure_splices_block sample_read hseven (.inl rfl) hinserted
  have hlegacy : Spliced CodePage.windows1252 .standard sampleRun.1 sampleOctets new front x back :=
    hspliced
  rw [hencoding] at hlegacy
  exact ⟨hencoding, hinserted, new, front, x, back, hread, hlegacy⟩

end Job

end MarkerBlock
