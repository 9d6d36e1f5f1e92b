/-
MarkerBlock.Proofs.Config — the settings a run works with insert a block once.

Settings are valid if none of the checks fails (`validate_eq_ok_iff`).  Those that are
loaded from a file are checked before their extensions are put in lower case, which makes
no dot (`head?_convert`), so they are valid afterwards as well; so are the standard ones,
and those with a marker from the command line (`validate_of_settings`).  An inserter made
from valid settings leaves alone what it has inserted into (`valid_settings_insert_once`).
-/
import Mathlib
import MarkerBlock.CommandLine.Run
import MarkerBlock.Proofs.CodePage
import MarkerBlock.Proofs.Insertion

namespace MarkerBlock

/-! ## §1 Lower case makes no dot -/

namespace Text.LowerCase

/-- No run of capital letters has an image at or below the dot. -/
theorem dot_lt_image : ∀ run ∈ runs, '.'.toNat < run.image := by decide +kernel

theorem simple_ne_dot {c : Char} (h : c ≠ '.') : simple c ≠ '.' := by
  rw [simple]
  split
  · next n himage =>
    obtain ⟨run, hrun, hn⟩ := List.exists_of_findSome?_eq_some himage
    rw [Run.image?] at hn
    split at hn
    · have hlow : '.'.toNat < n := by
        have := dot_lt_image run hrun
        cases hn
        omega
      intro hdot
      -- a code point is kept or becomes zero
      rw [Char.ofNat] at hdot
      split at hdot
      · next hvalid =>
        have hcode : n = '.'.toNat := congrArg Char.toNat hdot
        omega
      · exact absurd hdot (by decide)
    · cases hn
  · exact h

theorem head?_ofChar_ne_dot {c : Char} (h : c ≠ '.') (before after : List Char) :
    ∃ first rest, ofChar before c after = first :: rest ∧ first ≠ '.' := by
  rw [ofChar]
  split_ifs
  · exact ⟨'i', _, rfl, by decide⟩
  · exact ⟨'ς', _, rfl, by decide⟩
  · exact ⟨'σ', _, rfl, by decide⟩
  · exact ⟨simple c, _, rfl, simple_ne_dot h⟩

/-- A text in lower case begins with a dot only if the text does. -/
theorem head?_convert {text : List Char} (h : (convert text).head? = some '.') :
    text.head? = some '.' := by
  cases text with
  | nil => cases h
  | cons c rest =>
    by_contra hc
    have hne : c ≠ '.' := fun heq => hc (congrArg some heq)
    obtain ⟨first, more, hfirst, hdot⟩ := head?_ofChar_ne_dot hne [] rest
    rw [convert, convertAfter, hfirst] at h
    exact hdot (Option.some.inj h)

end Text.LowerCase

namespace Config

variable {c : Config}

/-! ## §2 Valid settings -/

/-- None of the checks of settings fails. -/
structure IsFaultless (c : Config) : Prop where
  marker : c.marker.isEmpty = false
  anchor : c.anchor.isEmpty = false
  block : c.block.isEmpty = false
  newline : c.block.any (·.toList.contains '\n') = false
  markerInBlock : c.markerInBlock = true
  codePage : (CodePage.ofLabel? c.legacyCodePage).isNone = false
  extensions : c.dottedExtension? = none

theorem fault?_eq_none_iff : c.fault? = none ↔ c.IsFaultless := by
  rw [fault?]
  constructor
  · intro h
    split_ifs at h with hmarker hanchor hblock hnewline hin hpage
    rw [Bool.not_eq_true] at hmarker hanchor hblock hnewline hpage
    exact ⟨hmarker, hanchor, hblock, hnewline, by simpa using hin, hpage,
      Option.map_eq_none_iff.mp h⟩
  · intro h
    rw [h.marker, h.anchor, h.block, h.newline, h.markerInBlock, h.codePage, h.extensions]
    rfl

theorem validate_eq_ok_iff : c.validate = .ok () ↔ c.IsFaultless := by
  rw [← fault?_eq_none_iff, validate]
  cases c.fault? <;> simp

/-- Settings in lower case are as valid as they were. -/
theorem IsFaultless.normalize (h : c.IsFaultless) : c.normalize.IsFaultless := by
  refine ⟨h.marker, h.anchor, h.block, h.newline, h.markerInBlock, h.codePage, ?_⟩
  have hextensions := h.extensions
  rw [dottedExtension?, List.find?_eq_none] at hextensions ⊢
  rw [Config.normalize, ← List.map_append]
  intro extension hmem hdot
  obtain ⟨written, hwritten, rfl⟩ := List.mem_map.mp hmem
  refine hextensions written hwritten ?_
  rw [beq_iff_eq] at hdot ⊢
  rw [Text.lowerCase, String.toList_ofList] at hdot
  exact Text.LowerCase.head?_convert hdot

/-- The standard settings are valid. -/
theorem isFaultless_standard : ({} : Config).IsFaultless := by
  obtain ⟨page, hpage⟩ := CodePage.ofLabel?_defaultLabel
  refine ⟨by decide, by decide, by decide, by decide, by decide, ?_, by decide⟩
  exact (congrArg Option.isNone hpage).trans rfl

/-! ## §3 The settings of a run -/

section sources

variable {s : Surroundings} {tree : FileTree} {cwd : Place} {path workspace : Path}

theorem isFaultless_of_load (h : load tree cwd path = .ok c) : c.IsFaultless := by
  rw [load] at h
  split at h
  · cases h
  · split at h
    · cases h
    · split at h
      · cases h
      · next hnone =>
        cases h
        exact (fault?_eq_none_iff.mp hnone).normalize

theorem isFaultless_of_find {explicit : Option Path} {disabled : Bool}
    (h : (find s tree explicit workspace disabled).1 = .ok c) : c.IsFaultless := by
  rw [find] at h
  split at h
  · cases h
    exact isFaultless_standard
  · split at h
    · cases h
      exact isFaultless_standard
    · simp only at h
      split at h
      · next hload =>
        cases h
        exact isFaultless_of_load hload
      · cases h

/-- A run works with valid settings, also with a marker from the command line. -/
theorem validate_of_settings {a : Arguments} (h : (Run.settings a s tree workspace).1 = .ok c) :
    c.validate = .ok () := by
  rw [validate_eq_ok_iff]
  rw [Run.settings] at h
  split at h
  · cases h
  · next found remarks hfind =>
    have hfound : found.IsFaultless := isFaultless_of_find (congrArg Prod.fst hfind)
    split at h
    · cases h
      exact hfound
    · simp only at h
      split at h
      · next hnone =>
        cases h
        exact fault?_eq_none_iff.mp hnone
      · cases h

end sources

/-! ## §4 Inserting once -/

/-- What an inserter made from valid settings does: the result holds the marker, and is left
alone from then on; the text was changed if and only if it lacked the marker. -/
structure InsertsOnce (i : Inserter) (text : List Char) (outcome : Inserter.Outcome) : Prop where
  marked : i.hasMarker (outcome.text text) = true
  again : i.ensure (outcome.text text) = .ok .present
  present : outcome = .present ↔ i.hasMarker text = true
  unchanged : outcome.text text = text ↔ i.hasMarker text = true

theorem insertsOnce_of_block {i : Inserter}
    (hblock : ∃ line ∈ i.block, Text.occursIn i.marker line = true) {text : List Char}
    {outcome : Inserter.Outcome} (h : i.ensure text = .ok outcome) :
    InsertsOnce i text outcome := by
  cases outcome with
  | present =>
    have hmarker := Inserter.ensure_eq_present_iff.mp h
    exact ⟨hmarker, h, ⟨fun _ => hmarker, fun _ => rfl⟩, ⟨fun _ => hmarker, fun _ => rfl⟩⟩
  | inserted after =>
    obtain ⟨hlacks, head, tail, -, -, rfl⟩ := Inserter.ensure_eq_inserted h
    obtain ⟨line, hmem, hline⟩ := hblock
    have hmarked := Inserter.hasMarker_insertion hmem hline head tail
    have hnot : ¬i.hasMarker text = true := by simp [hlacks]
    refine ⟨hmarked, Inserter.ensure_eq_present_iff.mpr hmarked, ?_, ?_⟩
    · refine ⟨fun heq => ?_, fun hmarker => absurd hmarker hnot⟩
      cases heq
    · refine ⟨fun heq => ?_, fun hmarker => absurd hmarker hnot⟩
      rw [← heq]
      exact hmarked

/-- Whatever settings a run works with are valid: those loaded from a file, the standard ones,
and both with a marker from the command line.  With valid settings, a text into which the
block was inserted holds the marker and is not changed again, and a text is changed if and
only if it lacks the marker. -/
theorem valid_settings_insert_once :
    (∀ (tree : FileTree) (cwd : Place) (path : Path) (c : Config),
      load tree cwd path = .ok c → c.validate = .ok ()) ∧
    ({} : Config).validate = .ok () ∧
    (∀ (a : Arguments) (s : Surroundings) (tree : FileTree) (workspace : Path) (c : Config),
      (Run.settings a s tree workspace).1 = .ok c → c.validate = .ok ()) ∧
    ∀ c : Config, c.validate = .ok () → ∀ (text : List Char) (outcome : Inserter.Outcome),
      c.inserter.ensure text = .ok outcome → InsertsOnce c.inserter text outcome := by
  refine ⟨fun tree cwd path c h => ?_, ?_, fun a s tree workspace c h => ?_, ?_⟩
  · exact validate_eq_ok_iff.mpr (isFaultless_of_load h)
  · exact validate_eq_ok_iff.mpr isFaultless_standard
  · exact validate_of_settings h
  · intro c hvalid text outcome h
    exact insertsOnce_of_block (validate_eq_ok hvalid).2 h

/-- A settings file that sets nothing. -/
def emptySettings : FileTree := ⟨[(['c'], .file [])]⟩

theorem emptySettings_load : load emptySettings [] ⟨['/', 'c']⟩ = .ok (normalize {}) := by
  have hread : IgnoreList.readText emptySettings [] ⟨['/', 'c']⟩ = .ok [] := by cbv
  have hparse : parse? [] = some {} := by cbv
  have hfault := fault?_eq_none_iff.mpr isFaultless_standard
  unfold load
  simp only [hread, hparse, hfault]

/-- No settings file, but another marker from the block. -/
def otherMarker : Arguments := { patterns := ["/"], noConfig := true, marker := some "#define" }

theorem otherMarker_settings (tree : FileTree) :
    (Run.settings otherMarker { cwd := [] } tree ⟨['/']⟩).1 =
      .ok { ({} : Config) with marker := "#define" } := by
  have hstandard := isFaultless_standard
  have hfault : ({ ({} : Config) with marker := "#define" } : Config).fault? = none :=
    fault?_eq_none_iff.mpr ⟨by decide, hstandard.anchor, hstandard.block, hstandard.newline,
      by decide, hstandard.codePage, hstandard.extensions⟩
  unfold Run.settings find otherMarker
  simp only [if_true, hfault]

/-- Settings with a carriage return and a letter beyond ASCII in the marker. -/
def accented : Config := { marker := "é\r", anchor := "#", block := ["é\r", "x"] }

theorem accented_validate : accented.validate = .ok () := by
  have hstandard := isFaultless_standard
  refine validate_eq_ok_iff.mpr ⟨by decide, by decide, by decide, by decide, by decide, ?_, by decide⟩
  exact hstandard.codePage

/-- Settings from all three sources, and a text that holds the letter without the carriage
return, so that the block is inserted once. -/
theorem valid_settings_insert_once_accented :
    (load emptySettings [] ⟨['/', 'c']⟩ = .ok (normalize {}) ∧
      (normalize {}).validate = .ok ()) ∧
    ((Run.settings otherMarker { cwd := [] } emptySettings ⟨['/']⟩).1 =
        .ok { ({} : Config) with marker := "#define" } ∧
      ({ ({} : Config) with marker := "#define" } : Config).validate = .ok ()) ∧
    accented.validate = .ok () ∧
    accented.inserter.ensure "#é\n".toList = .ok (.inserted "#é\né\r\nx\r\n".toList) ∧
    InsertsOnce accented.inserter "#é\n".toList (.inserted "#é\né\r\nx\r\n".toList) := by
  obtain ⟨hload, -, hsettings, hinsert⟩ := valid_settings_insert_once
  have hensure : accented.inserter.ensure "#é\n".toList =
      .ok (.inserted "#é\né\r\nx\r\n".toList) := by decide
  have hother := otherMarker_settings emptySettings
  exact ⟨⟨emptySettings_load, hload _ _ _ _ emptySettings_load⟩,
    ⟨hother, hsettings _ _ _ _ _ hother⟩, accented_validate, hensure,
    hinsert accented accented_validate _ _ hensure⟩

end Config

end MarkerBlock
