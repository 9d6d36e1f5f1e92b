/-
MarkerBlock.Proofs.Job.SecondRunUtf16 — a second run on UTF-16 without a mark.

Nothing but its zeros tells UTF-16 without a mark, and the block changes them: it is ASCII, so
half of its octets are zeros, and all of these count for the other byte order.  In the sample
of the second run there are as many octets of the block as fit behind the line with the
anchor (`shownOctets`), and what was there before has made room for them.  `StillSpeaks` says
when the zeros are then still enough.  Where they are, the second run finds the block;
where they are not, it takes the file for single octets (`second_run_utf16`).
-/
import Mathlib
import MarkerBlock.Proofs.Encoding.Zeros
import MarkerBlock.Proofs.Job.SecondRun

namespace MarkerBlock

namespace Encoding

variable {page : CodePage} {i : Inserter} {order : ByteOrder} {old new front x back : List UInt8}

/-! ## §1 The sample with the block in it -/

/-- Number of octets of a block of `n` characters that are in the sample if the block is put
behind `front`. -/
def shownOctets (n : Nat) (front : List UInt8) : Nat := min (2 * n) (sampleSize - front.length)

/-- What stays in the sample of a file when `shown` octets are put into it. -/
def keptSample (old : List UInt8) (shown : Nat) : List UInt8 := old.take (sampleSize - shown)

/-- The zeros of a sample are enough for the byte order when `shown` octets of a block have been
put into it. -/
def StillSpeaks (order : ByteOrder) (old : List UInt8) (shown : Nat) : Prop :=
  2 * ((keptSample old shown).length + shown) < 5 * zerosFor order (keptSample old shown) ∧
    10 * (zerosFor order.other (keptSample old shown) + shown / 2) <
      (keptSample old shown).length + shown

/-- The new sample is what stays of the old one, with the octets of the block in between. -/
theorem take_splice (n : Nat) (hx : x.length = 2 * n) (front back : List UInt8) :
    (front ++ x ++ back).take sampleSize = front.take sampleSize ++
        x.take (sampleSize - front.length) ++ back.take (sampleSize - front.length - 2 * n) ∧
      keptSample (front ++ back) (shownOctets n front) =
        front.take sampleSize ++ back.take (sampleSize - front.length - 2 * n) := by
  constructor
  · rw [List.take_append, List.take_append, List.length_append, hx, Nat.sub_add_eq]
  · have hrest : sampleSize - shownOctets n front - front.length =
        sampleSize - front.length - 2 * n := by
      unfold shownOctets
      omega
    rw [keptSample, List.take_append, hrest]
    by_cases hfits : front.length < sampleSize
    · rw [List.take_of_length_le hfits.le, List.take_of_length_le]
      unfold shownOctets
      omega
    · have hnone : shownOctets n front = 0 := by
        unfold shownOctets
        omega
      rw [hnone, Nat.sub_zero]

section shown

variable {text : List Char} (hascii : IsAsciiText text) (heven : front.length % 2 = 0)
  (hx : x = Utf16.encode order text)
include hascii heven hx

/-- The octets of ASCII text in the sample: no zeros for the byte order, and every second octet a
zero for the other. -/
theorem zerosFor_shown :
    (x.take (sampleSize - front.length)).length = shownOctets text.length front ∧
      zerosFor order (x.take (sampleSize - front.length)) = 0 ∧
      zerosFor order.other (x.take (sampleSize - front.length)) =
        shownOctets text.length front / 2 := by
  have hsize : sampleSize = 32768 := rfl
  obtain ⟨k, hk⟩ : ∃ k, sampleSize - front.length = 2 * k :=
    ⟨(sampleSize - front.length) / 2, by omega⟩
  have hpart : IsAsciiText (text.take k) := fun c hc => hascii c (List.mem_of_mem_take hc)
  obtain ⟨hnone, hall⟩ := zerosFor_encode_ascii order hpart
  rw [hx, hk, take_encode_ascii order hascii, hnone, hall, length_encode_ascii order hpart,
    List.length_take]
  unfold shownOctets
  rw [hk]
  omega

/-- The new sample in numbers. -/
theorem measures_take_splice (back : List UInt8) :
    ((front ++ x ++ back).take sampleSize).length =
        (keptSample (front ++ back) (shownOctets text.length front)).length +
          shownOctets text.length front ∧
      zerosFor order ((front ++ x ++ back).take sampleSize) =
        zerosFor order (keptSample (front ++ back) (shownOctets text.length front)) ∧
      zerosFor order.other ((front ++ x ++ back).take sampleSize) =
        zerosFor order.other (keptSample (front ++ back) (shownOctets text.length front)) +
          shownOctets text.length front / 2 := by
  have hlength : x.length = 2 * text.length := by rw [hx, length_encode_ascii order hascii]
  have hsize : sampleSize = 32768 := rfl
  have hfront : (front.take sampleSize).length % 2 = 0 := by
    rw [List.length_take]
    omega
  have hblock : (x.take (sampleSize - front.length)).length % 2 = 0 := by
    rw [List.length_take, hlength]
    omega
  obtain ⟨hshown, hnone, hall⟩ := zerosFor_shown hascii heven hx
  obtain ⟨hnew, hkept⟩ := take_splice text.length hlength front back
  rw [hnew, hkept, List.append_assoc]
  simp only [zerosFor_append_even _ hfront, zerosFor_append_even _ hblock, List.length_append,
    hshown, hnone, hall]
  omega

/-- The new sample speaks for the byte order if the zeros are still enough. -/
theorem speaksFor_take_splice_iff (back : List UInt8) :
    SpeaksFor order ((front ++ x ++ back).take sampleSize) ↔
      StillSpeaks order (front ++ back) (shownOctets text.length front) := by
  obtain ⟨hlength, hhere, hthere⟩ := measures_take_splice hascii heven hx back
  rw [SpeaksFor, hlength, hhere, hthere, StillSpeaks]

/-- A short block does not turn a sample with some ASCII in it around. -/
theorem not_speaksFor_other (hshort : text.length ≤ 48)
    (hmany : 8 ≤ zerosFor order.other front) (back : List UInt8)
    (hspeaks : SpeaksFor order ((front ++ back).take sampleSize)) :
    ¬SpeaksFor order.other ((front ++ x ++ back).take sampleSize) := by
  obtain ⟨hlength, hhere, -⟩ := measures_take_splice hascii heven hx back
  intro hother
  have hfew := hother.2
  rw [ByteOrder.other_other, hlength, hhere] at hfew
  obtain ⟨henough, hlittle⟩ := hspeaks
  have hsize : sampleSize = 32768 := rfl
  have hshown : shownOctets text.length front ≤ 96 := by
    unfold shownOctets
    omega
  generalize shownOctets text.length front = shown at hfew hshown
  have hkeptLength : (keptSample (front ++ back) shown).length =
      min (sampleSize - shown) (front ++ back).length := List.length_take
  have hsampleLength : ((front ++ back).take sampleSize).length =
      min sampleSize (front ++ back).length := List.length_take
  by_cases hwhole : (front ++ back).length ≤ sampleSize - shown
  · -- the whole file is in both samples, and it has zeros for the other order
    have hkept : keptSample (front ++ back) shown = front ++ back := List.take_of_length_le hwhole
    have hsample : (front ++ back).take sampleSize = front ++ back :=
      List.take_of_length_le (by omega)
    have hthere := (zerosFor_append_le order.other front back).1
    rw [hkept] at hfew
    rw [hsample] at henough hlittle
    omega
  · -- the sample is full, and has lost little
    have hsplit : (front ++ back).take sampleSize = keptSample (front ++ back) shown ++
        ((front ++ back).drop (sampleSize - shown)).take shown := by
      unfold keptSample
      rw [← List.take_add]
      congr 1
      omega
    have hlost := (zerosFor_append_le order (keptSample (front ++ back) shown)
      (((front ++ back).drop (sampleSize - shown)).take shown)).2
    rw [← hsplit, List.length_take] at hlost
    omega

end shown

/-- Where the file and the block fit into the sample, the block counts as a whole. -/
theorem stillSpeaks_iff_of_fits {n : Nat} (hfits : old.length + 2 * n ≤ sampleSize)
    (hfront : front.length ≤ old.length) : StillSpeaks order old (shownOctets n front) ↔
      2 * (old.length + 2 * n) < 5 * zerosFor order old ∧
        10 * (zerosFor order.other old + n) < old.length + 2 * n := by
  have hshown : shownOctets n front = 2 * n := by
    unfold shownOctets
    omega
  have hkept : keptSample old (2 * n) = old := by
    rw [keptSample, List.take_of_length_le]
    omega
  rw [StillSpeaks, hshown, hkept, Nat.mul_div_cancel_left n Nat.two_pos]

end Encoding

/-! ## §2 The encoding of the second run -/

open Encoding

variable {page : CodePage} {i : Inserter} {order : ByteOrder} {old new front x back : List UInt8}

/-- The parts of a spliced file in UTF-16 are parts of the text, and the first of them has the
anchor. -/
theorem Spliced.utf16 (h : Spliced page i (.utf16 order false) old new front x back) :
    x = Utf16.encode order i.insertion ∧
      ∃ head, front = Utf16.encode order head ∧ i.anchor <:+: head := by
  obtain ⟨head, tail, hhead, -, -, hcut⟩ := h.read
  have hblock : Except.ok (Utf16.encode order i.insertion) = Except.ok x := h.block
  have hseven : Encoding.utf16 order false ≠ .utf7 := by simp
  have hwritten := (decode_eq_ok_iff_encode hseven h.mark).mp hhead
  obtain ⟨body, hbody, rfl⟩ := encode_eq_ok_iff.mp hwritten
  obtain ⟨line, hline, hanchor⟩ := hcut.anchored
  refine ⟨(Except.ok.inj hblock).symm, head, ?_, ?_⟩
  · cases hbody
    cases order <;> rfl
  · exact (Text.occursIn_iff.mp hanchor).trans
      (Text.infix_of_mem_split (List.mem_of_getLast? hline))

theorem isAsciiText_standard :
    IsAsciiText Inserter.standard.insertion ∧ IsAsciiText Inserter.standard.anchor := by
  constructor <;>
    simp [IsAsciiText, Inserter.insertion, Inserter.standard, Inserter.ofLines,
      Inserter.defaultBlock, Inserter.defaultAnchor, Inserter.endLine, Text.led]

theorem length_standard :
    Inserter.standard.insertion.length = 48 ∧ Inserter.standard.anchor.length = 8 := by
  decide

/-- A file in UTF-16 with the standard block in it is found to be UTF-16 again if its zeros are
still enough, and otherwise it is taken for single octets. -/
theorem redetected_utf16 (hfound : detectFile page (some old) = .utf16 order false)
    (h : Spliced page .standard (.utf16 order false) old new front x back) :
    (StillSpeaks order old (shownOctets 48 front) →
      detectFile page (some new) = .utf16 order false) ∧
    (¬StillSpeaks order old (shownOctets 48 front) →
      detectFile page (some new) = .utf8 false ∨ detectFile page (some new) = .legacy) := by
  obtain ⟨hinsertion, hanchor⟩ := isAsciiText_standard
  obtain ⟨hblockLength, hanchorLength⟩ := length_standard
  obtain ⟨hx, head, hfront, hin⟩ := h.utf16
  obtain ⟨hlength, hsig, hspeaks⟩ := detectFile_eq_utf16_iff.mp hfound
  have heven : front.length % 2 = 0 := by
    rw [hfront]
    exact length_encode_even order head
  have hmany : 8 ≤ zerosFor order.other front := by
    rw [hfront, ← hanchorLength]
    exact length_le_zerosFor hanchor hin
  have hfrontLength : signatureSize ≤ front.length :=
    le_trans (by decide) (hmany.trans (zerosFor_le order.other front))
  have hlength' : 4 ≤ new.length := by
    rw [h.new_eq, List.append_assoc, List.length_append]
    exact hfrontLength.trans (Nat.le_add_right _ _)
  have hsig' : ofSignature? new = none := by
    rw [h.old_eq, ofSignature?_append hfrontLength] at hsig
    rw [h.new_eq, List.append_assoc, ofSignature?_append hfrontLength, hsig]
  have hiff : SpeaksFor order _ ↔ _ := speaksFor_take_splice_iff hinsertion heven hx back
  have hnot := not_speaksFor_other hinsertion heven hx hblockLength.le hmany back
  rw [← h.new_eq, ← h.old_eq, hblockLength] at hiff
  rw [← h.new_eq, ← h.old_eq] at hnot
  constructor
  · intro hstill
    exact detectFile_eq_utf16_iff.mpr ⟨hlength', hsig', hiff.mpr hstill⟩
  · intro hstill
    refine detectFile_of_neither hlength' hsig' fun order' => ?_
    by_cases ho : order' = order
    · rw [ho]
      exact fun hyes => hstill (hiff.mp hyes)
    · have hother : order' = order.other := by
        cases order <;> cases order' <;> first | rfl | exact absurd rfl ho
      rw [hother]
      exact hnot hspeaks

/-! ## §3 The second run -/

namespace Job

variable {job : Job} {s : Surroundings} {tree : FileTree} {path : Path}

/-- A second run on UTF-16 without a mark.  After the standard block was put into a file that
was found to be UTF-16 without a mark, the second run finds the same encoding and the block if
the zeros are still enough.  If they are not, it takes the file for UTF-8 or for the code
page. -/
theorem second_run_utf16 (hinserter : job.inserter = .standard) (hheuristic : job.detector = .heuristic)
    (hinserted : (job.ensure page s tree path).2.result = .ok .inserted)
    (hutf16 : (job.ensure page s tree path).1 = .utf16 order false) :
    let first := job.ensure page s tree path
    let second := job.ensure page s first.2.tree path
    ∃ old new front x back, tree.read s.cwd path = .ok old ∧ first.2.tree.read s.cwd path = .ok new ∧
      Spliced page .standard (.utf16 order false) old new front x back ∧
      (StillSpeaks order old (shownOctets 48 front) →
        second.1 = .utf16 order false ∧ second.2.result = .ok .present ∧
          second.2.tree = first.2.tree) ∧
      (¬StillSpeaks order old (shownOctets 48 front) →
        second.1 = .utf8 false ∨ second.1 = .legacy) := by
  intro first second
  obtain ⟨place, old, i, hrewrites⟩ := rewrites_of_inserted hinserted
  have hfound : (job.ensure page s tree path).1 = detectFile page (some old) :=
    ensure_encoding hheuristic hrewrites.read_old
  have hagain : second.1 = detectFile page (some i.octets) :=
    ensure_encoding hheuristic hrewrites.reread
  rw [hutf16] at hfound hrewrites
  have hplan := hrewrites.plan_eq
  rw [hinserter] at hplan
  have hbom : (Encoding.utf16 order false).bom <+: old := by
    rw [hfound]
    exact bom_prefix_of_detectFile page old
  obtain ⟨front, x, back, hspliced⟩ := spliced_of_plan (by simp) hbom hplan
  obtain ⟨hstays, hchanges⟩ := redetected_utf16 hfound.symm hspliced
  rw [← hagain] at hstays hchanges
  refine ⟨old, i.octets, front, x, back, hrewrites.read_old, hrewrites.reread, hspliced, ?_, hchanges⟩
  intro hstill
  have hsame := hstays hstill
  have hdecode : second.1.decode page i.octets = .ok i.after := by
    rw [hsame]
    exact hrewrites.redecoded
  have hmarked : job.inserter.hasMarker i.after = true := by
    refine hrewrites.marked ?_
    rw [hinserter]
    exact ⟨_, List.getElem_mem (l := Inserter.standard.block) (n := 2) (by decide), by decide⟩
  obtain ⟨hpresent, htree⟩ := ensure_of_hasMarker hrewrites.reread hdecode hmarked
  exact ⟨hsame, hpresent, htree⟩

/-- A line in UTF-16: the anchor, the octets of the anchor again as four units, and characters that
have a zero octet each. -/
def twofoldOctets : List UInt8 :=
  [0x23, 0, 0x69, 0, 0x6E, 0, 0x63, 0, 0x6C, 0, 0x75, 0, 0x64, 0, 0x65, 0,
    0x23, 0x69, 0x6E, 0x63, 0x6C, 0x75, 0x64, 0x65] ++ (List.replicate 49 [0, 0x4E]).flatten

/-- This line with the block behind it. -/
def twofoldBlock : List UInt8 :=
  twofoldOctets ++ Utf16.encode .little Inserter.standard.insertion

/-- A tree with one file. -/
def oneFile (octets : List UInt8) : FileTree := ⟨[(['a'], .file octets)]⟩

/-- The standard job on this file. -/
def oneFileRun (page : CodePage) (octets : List UInt8) : Encoding × Handled :=
  (standard ⟨['/']⟩).ensure page ⟨[], none, none⟩ (oneFile octets) ⟨['/', 'a']⟩

theorem twofold_first (page : CodePage) :
    (oneFileRun page twofoldOctets).1 = .utf16 .little false ∧
      (oneFileRun page twofoldOctets).2.result = .ok .inserted ∧
      (oneFileRun page twofoldOctets).2.tree = oneFile twofoldBlock :=
  ⟨by cbv, by cbv, by cbv⟩

/-- The job on what it left of a file. -/
def oneFileRerun (page : CodePage) (octets : List UInt8) : Encoding × Handled :=
  (standard ⟨['/']⟩).ensure page ⟨[], none, none⟩ (oneFileRun page octets).2.tree ⟨['/', 'a']⟩

/-- The zeros of this file are not enough for the block as well. -/
theorem second_run_utf16_of_twofold :
    (oneFileRun CodePage.windows1252 twofoldOctets).2.result = .ok .inserted ∧
    (oneFileRun CodePage.windows1252 twofoldOctets).1 = .utf16 .little false ∧
    ((oneFileRerun CodePage.windows1252 twofoldOctets).1 = .utf8 false ∨
      (oneFileRerun CodePage.windows1252 twofoldOctets).1 = .legacy) := by
  obtain ⟨hutf16, hinserted, -⟩ := twofold_first CodePage.windows1252
  obtain ⟨old, new, front, x, back, hold, -, hspliced, -, hchanges⟩ :=
    second_run_utf16 rfl rfl hinserted hutf16
  have hread : (oneFile twofoldOctets).read [] ⟨['/', 'a']⟩ = .ok twofoldOctets := by cbv
  obtain rfl : twofoldOctets = old := Except.ok.inj (hread.symm.trans hold)
  have hfront : front.length ≤ twofoldOctets.length := by
    rw [hspliced.old_eq, List.length_append]
    exact Nat.le_add_right _ _
  have hnot : ¬StillSpeaks .little twofoldOctets (shownOctets 48 front) := by
    rw [stillSpeaks_iff_of_fits (by decide +kernel) hfront]
    decide +kernel
  exact ⟨hinserted, hutf16, hchanges hnot⟩

set_option maxRecDepth 4000 in
theorem twofold_second (page : CodePage) :
    (oneFileRerun page twofoldOctets).2.result = .ok .inserted := by
  have hagain : (oneFileRun page twofoldBlock).2.result = .ok .inserted := by cbv
  rw [oneFileRerun, (twofold_first page).2.2]
  exact hagain

/-- A second run on UTF-16 without a mark may put a second block into the file. -/
theorem second_run_utf16_inserts_again :
    ¬∀ (page : CodePage) (workspace : Path) (s : Surroundings) (tree : FileTree) (path : Path)
      (order : ByteOrder),
      ((standard workspace).ensure page s tree path).2.result = .ok .inserted →
      ((standard workspace).ensure page s tree path).1 = .utf16 order false →
        ((standard workspace).ensure page s
            ((standard workspace).ensure page s tree path).2.tree path).1 = .utf16 order false ∧
          ((standard workspace).ensure page s
            ((standard workspace).ensure page s tree path).2.tree path).2.result = .ok .present := by
  intro hall
  obtain ⟨hutf16, hinserted, -⟩ := twofold_first CodePage.windows1252
  obtain ⟨-, hpresent⟩ := hall CodePage.windows1252 ⟨['/']⟩ ⟨[], none, none⟩ (oneFile twofoldOctets)
    ⟨['/', 'a']⟩ .little hinserted hutf16
  have hagain := twofold_second CodePage.windows1252
  rw [oneFileRerun, oneFileRun, hpresent] at hagain
  cases hagain

end Job

end MarkerBlock
