/-
MarkerBlock.Proofs.Job.SecondRun — a second run changes nothing.

After an insertion the rules of detection are applied to the new octets, and find
the encoding they found before.  A byte order mark is still there; the UTF-7
signature is written again, since the text begins with the same character; and
without either the block is ASCII between line ends, which moves no verdict
(`redetected`).  So the file is read as the text with the block, which holds the
marker, and is left alone from then on (`ensure_again`).
-/
import Mathlib
import MarkerBlock.Config.Basic
import MarkerBlock.Proofs.Encoding.Utf7Signature
import MarkerBlock.Proofs.Job.Splice

namespace MarkerBlock

/-! ## §1 The encoding is found again -/

/-- The characters of the block are ASCII, and not NUL. -/
def Inserter.IsPlain (i : Inserter) : Prop :=
  ∀ line ∈ i.block, ∀ c ∈ line, 0 < c.toNat ∧ c.toNat < 0x80

theorem Inserter.IsPlain.insertion {i : Inserter} (h : i.IsPlain) :
    ∀ c ∈ i.insertion, 0 < c.toNat ∧ c.toNat < 0x80 := by
  intro c hc
  rw [Inserter.insertion, Text.led, List.mem_flatMap] at hc
  obtain ⟨line, hline, hc⟩ := hc
  rcases List.mem_cons.mp hc with rfl | hc
  · decide
  · exact h line hline c hc

namespace Encoding

variable {page : CodePage} {i : Inserter} {e : Encoding} {old new front x back : List UInt8}

/-- A file with a byte order mark still has it. -/
theorem redetected_marked (he : e ≠ .utf7) (hlength : 4 ≤ old.length)
    (hsig : ofSignature? old = some e) (h : Spliced page i e old new front x back) :
    detectFile page (some new) = e := by
  have hne := (ofSignature?_eq_some_iff.mp hsig).1
  have hlength' : 4 ≤ new.length := by
    rw [h.old_eq, List.length_append] at hlength
    rw [h.new_eq, List.length_append, List.length_append]
    omega
  refine detectFile_of_signature hlength' (ofSignature?_eq_some_iff.mpr ⟨hne, ?_⟩)
  rw [signature_eq_bom he, h.new_eq, List.append_assoc]
  exact h.mark.trans (List.prefix_append _ _)

/-- A file with the UTF-7 signature gets it again. -/
theorem redetected_utf7 {before after : List Char} (hanchor : i.anchor ≠ [])
    (hsig : ofSignature? old = some .utf7) (hdecode : Encoding.utf7.decode page old = .ok before)
    (hensure : i.ensure before = .ok (.inserted after))
    (hencode : Encoding.utf7.encode page after = .ok new) :
    detectFile page (some new) = .utf7 := by
  obtain ⟨-, head, tail, hbefore, hcut, hafter⟩ := Inserter.ensure_eq_inserted hensure
  obtain ⟨c, rest, hfirst, hc⟩ := Utf7.signature_of_decode (ofSignature?_eq_some_iff.mp hsig).2
    (decode_eq_ok_iff.mp hdecode)
  -- the block goes behind a line, so the text still begins with the same character
  obtain ⟨d, head, rfl⟩ := List.exists_cons_of_ne_nil (hcut.head_ne_nil hanchor)
  rw [hbefore, List.cons_append, List.cons_eq_cons] at hfirst
  obtain ⟨rfl, -⟩ := hfirst
  rw [hafter, List.cons_append, List.cons_append] at hencode
  obtain ⟨body, hbody, rfl⟩ := encode_eq_ok_iff.mp hencode
  cases hbody
  obtain ⟨hprefixed, hlength⟩ := Utf7.signature_of_encode hc (head ++ i.insertion ++ tail)
  exact detectFile_of_signature hlength (ofSignature?_eq_some_iff.mpr ⟨by decide, hprefixed⟩)

/-- The octets of a block of ASCII lines are ASCII, and begin with a line feed. -/
theorem plain_octets (hplain : i.IsPlain) (he : e = .utf8 false ∨ e = .legacy)
    (hx : e.encodeBody page i.insertion = .ok x) :
    (∀ b ∈ x, b < 0x80 ∧ b ≠ 0) ∧ StartsLine x := by
  rw [encodeBody_ascii page he fun c hc => (hplain.insertion c hc).2, Except.ok.injEq] at hx
  refine ⟨?_, ?_⟩
  · intro b hb
    rw [← hx, List.mem_map] at hb
    obtain ⟨c, hc, rfl⟩ := hb
    obtain ⟨hpos, hlt⟩ := hplain.insertion c hc
    have hvalue : (UInt8.ofNat c.toNat).toNat = c.toNat := toNat_octet (by omega)
    refine ⟨?_, ?_⟩
    · rw [UInt8.lt_iff_toNat_lt, hvalue]
      exact hlt
    · intro hzero
      have hzero' : (0 : UInt8).toNat = 0 := rfl
      rw [hzero] at hvalue
      omega
  · rw [← hx, Inserter.insertion]
    cases i.block with
    | nil => exact .inl rfl
    | cons line lines => exact .inr ⟨_, rfl⟩

/-- What follows the last anchor line begins with a line feed, if there is any. -/
theorem startsLine_of_tail {anchor head tail : List Char} (he : e = .utf8 false ∨ e = .legacy)
    (hcut : Inserter.EndsAtLastAnchor anchor head tail)
    (hback : e.encodeBody page tail = .ok back) : StartsLine back := by
  have hseven : e ≠ .utf7 := by rcases he with rfl | rfl <;> decide
  rcases hcut.unanchored with rfl | ⟨rest, rfl, -⟩
  · rw [encodeBody_ascii page he (by simp)] at hback
    cases hback
    exact .inl rfl
  · rw [← List.singleton_append, encodeBody_append_eq_ok_iff hseven] at hback
    obtain ⟨a, b, ha, -, rfl⟩ := hback
    rw [encodeBody_ascii page he (by simp)] at ha
    cases ha
    exact .inr ⟨b, rfl⟩

/-- In a file without signature and zeros the block moves no verdict. -/
theorem redetected_plain (hplain : i.IsPlain) (hlength : 4 ≤ old.length)
    (hsig : ofSignature? old = none) (hnull : 0 ∉ old) (he : e = .utf8 false ∨ e = .legacy)
    (h : Spliced page i e old new front x back) :
    detectFile page (some new) = detectFile page (some old) := by
  have hseven : e ≠ .utf7 := by rcases he with rfl | rfl <;> decide
  obtain ⟨head, tail, -, htail, -, hcut⟩ := h.read
  obtain ⟨hx, hline⟩ := plain_octets hplain he h.block
  have hback := startsLine_of_tail he hcut ((decodeBody_eq_ok_iff hseven).mp htail)
  rw [h.old_eq] at hlength hsig hnull ⊢
  rw [h.new_eq]
  exact detectFile_splice hlength hsig hnull hx hline hback

/-- The rules of detection find in the new octets what they found in the old. -/
theorem redetected {ins : Insertion} (hanchor : i.anchor ≠ []) (hplain : i.IsPlain)
    (hlength : 4 ≤ old.length)
    (hkind : (∃ e : Encoding, e.signature ≠ [] ∧ e.signature <+: old) ∨ 0 ∉ old)
    (hplan : plan page i (detectFile page (some old)) old = .ok (some ins)) :
    detectFile page (some ins.octets) = detectFile page (some old) := by
  cases hsig : ofSignature? old with
  | some e =>
    rw [detectFile_of_signature hlength hsig] at hplan ⊢
    by_cases he : e = .utf7
    · subst he
      obtain ⟨hdecode, hensure, hencode⟩ := plan_eq_some hplan
      exact redetected_utf7 hanchor hsig hdecode hensure hencode
    · have hbom := (ofSignature?_eq_some_iff.mp hsig).2
      rw [signature_eq_bom he] at hbom
      obtain ⟨front, x, back, hspliced⟩ := spliced_of_plan he hbom hplan
      exact redetected_marked he hlength hsig hspliced
  | none =>
    have hnull : 0 ∉ old := by
      rcases hkind with ⟨e, he⟩ | hnull
      · rw [ofSignature?_eq_some_iff.mpr he] at hsig
        cases hsig
      · exact hnull
    have hwhole : detectFile page (some old) = ofWhole page old :=
      detectFile_of_plain hlength hsig hnull
    have he : detectFile page (some old) = .utf8 false ∨ detectFile page (some old) = .legacy := by
      rw [hwhole, ofWhole_eq]
      split
      · exact .inl rfl
      · exact .inr rfl
    have hseven : detectFile page (some old) ≠ .utf7 := by rcases he with h | h <;> rw [h] <;> decide
    obtain ⟨front, x, back, hspliced⟩ :=
      spliced_of_plan hseven (bom_prefix_of_detectFile page old) hplan
    exact redetected_plain hplain hlength hsig hnull he hspliced

end Encoding

/-! ## §2 The file is left alone -/

namespace Job

variable {job : Job} {page : CodePage} {s : Surroundings} {tree : FileTree} {path : Path}
  {octets : List UInt8}

/-- The files after `n` runs on one of them. -/
def rerun (job : Job) (page : CodePage) (s : Surroundings) (path : Path) (n : Nat)
    (tree : FileTree) : FileTree :=
  (fun tree => (job.ensure page s tree path).2.tree)^[n] tree

/-- A file whose text holds the marker is left alone. -/
theorem ensure_of_hasMarker {text : List Char} (hread : tree.read s.cwd path = .ok octets)
    (hdecode : (job.ensure page s tree path).1.decode page octets = .ok text)
    (hmarker : job.inserter.hasMarker text = true) :
    (job.ensure page s tree path).2.result = .ok .present ∧
      (job.ensure page s tree path).2.tree = tree := by
  have hplan := plan_eq_none hdecode hmarker
  have hensure : (job.ensureAs page s tree path (job.ensure page s tree path).1).result = .ok .present ∧
      (job.ensureAs page s tree path (job.ensure page s tree path).1).tree = tree := by
    rw [ensureAs, hread]
    simp only [hplan, and_self]
  exact hensure

/-- A second run changes nothing.  After an insertion with valid settings and a block
of ASCII lines, into a file that begins with a signature or has no zeros, every later
run finds the encoding that was found before, finds the marker and leaves all files
as they are. -/
theorem ensure_again {config : Config} (hvalid : config.validate = .ok ())
    (hinserter : job.inserter = config.inserter) (hplain : job.inserter.IsPlain)
    (hheuristic : job.detector = .heuristic) (hread : tree.read s.cwd path = .ok octets)
    (hlength : 4 ≤ octets.length)
    (hkind : (∃ e : Encoding, e.signature ≠ [] ∧ e.signature <+: octets) ∨ 0 ∉ octets)
    (hinserted : (job.ensure page s tree path).2.result = .ok .inserted) (n : Nat) :
    let first := job.ensure page s tree path
    let later := job.ensure page s (job.rerun page s path n first.2.tree) path
    job.rerun page s path n first.2.tree = first.2.tree ∧ later.1 = first.1 ∧
      later.2.result = .ok .present ∧ later.2.tree = first.2.tree := by
  intro first later
  obtain ⟨hanchor, hmarker⟩ := Config.validate_eq_ok hvalid
  rw [← hinserter] at hanchor hmarker
  obtain ⟨place, old, i, hrewrites⟩ := rewrites_of_inserted hinserted
  have hold := hrewrites.read_old
  rw [hread] at hold
  cases hold
  have hfound : (job.ensure page s tree path).1 = Encoding.detectFile page (some octets) :=
    ensure_encoding hheuristic hread
  have hplan := hrewrites.plan_eq
  rw [hfound] at hplan
  -- the next run finds the same encoding, and therefore the text that was written
  have hagain : (job.ensure page s first.2.tree path).1 = first.1 := by
    rw [ensure_encoding hheuristic hrewrites.reread, hfound]
    exact Encoding.redetected hanchor hplain hlength hkind hplan
  have hdecode : (job.ensure page s first.2.tree path).1.decode page i.octets = .ok i.after := by
    rw [hagain]
    exact hrewrites.redecoded
  obtain ⟨hpresent, hsame⟩ :=
    ensure_of_hasMarker hrewrites.reread hdecode (hrewrites.marked hmarker)
  have hrerun : job.rerun page s path n first.2.tree = first.2.tree :=
    Function.iterate_fixed hsame n
  have hlater : later = job.ensure page s first.2.tree path := by
    show job.ensure page s (job.rerun page s path n first.2.tree) path = _
    rw [hrerun]
  rw [hlater]
  exact ⟨hrerun, hagain, hpresent, hsame⟩

/-- The second run after the block went into the file in a code page. -/
theorem ensure_again_sample :
    ({} : Config).validate = .ok () ∧ sampleRun.2.result = .ok .inserted ∧
      ((standard ⟨['/']⟩).ensure CodePage.windows1252 ⟨[], none, none⟩ sampleRun.2.tree
        ⟨['/', 'a']⟩).2.result = .ok .present := by
  have hvalid : ({} : Config).validate = .ok () := by decide
  have hplain : Inserter.IsPlain .standard := by
    simp [Inserter.IsPlain, Inserter.standard, Inserter.ofLines, Inserter.defaultBlock,
      Inserter.endLine]
  have hagain := ensure_again hvalid rfl hplain rfl sample_read (by decide) (.inr (by decide))
    sampleRun_inserted.2 0
  exact ⟨hvalid, sampleRun_inserted.2, hagain.2.2.1⟩

end Job

end MarkerBlock
