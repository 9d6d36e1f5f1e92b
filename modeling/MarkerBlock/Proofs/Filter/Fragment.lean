/-
MarkerBlock.Proofs.Filter.Fragment — which paths fragments exclude.

A path is excluded if one of the fragments is found in it (`excludes_ofTexts_iff`), so fragments
are never weakened by others.  Paths and fragments are searched in lower case, each converted by
itself.  A fragment that is a part of a path, be it with ASCII letters in another case, is found
there if its capital sigmas end a word in the path exactly if they do so in the fragment alone
(`excludes_of_parts`).  A fragment in slashes is found at the beginning of a path as anywhere else.

A capital sigma that ends the fragment and not the word in the path is overlooked
(`fragment_is_overlooked`).
-/
import Mathlib
import MarkerBlock.Filter
import MarkerBlock.Proofs.Path
import MarkerBlock.Proofs.Text.LowerCase

namespace MarkerBlock

namespace FragmentFilter

open Text Text.LowerCase

/-! ## §1 What is searched -/

theorem fold_eq (text : List Char) : fold text = convert (slashed text) := rfl

theorem fold_eq_nil_iff {text : List Char} : fold text = [] ↔ text = [] := by
  rw [fold_eq, convert_eq_nil_iff, slashed, List.map_eq_nil_iff]

/-- A path that does not begin with a slash or backslash. -/
def IsLow (p : Path) : Prop := (slashed p.text).head? ≠ some '/'

instance (p : Path) : Decidable (IsLow p) := inferInstanceAs (Decidable (_ ≠ _))

/-- Such a path is searched with one slash before it. -/
theorem IsLow.haystack {p : Path} (hp : IsLow p) :
    FragmentFilter.haystack p = convert ('/' :: slashed p.text) := by
  have hkept : (fold p.text).dropWhile (· == '/') = fold p.text := by
    have hhead := head?_convert_ne_slash hp
    rw [fold_eq]
    cases hfold : convert (slashed p.text) with
    | nil => rfl
    | cons c rest =>
      rw [hfold] at hhead
      have hc : ¬(c == '/') = true := by simpa using hhead
      exact List.dropWhile_cons_of_neg hc
  rw [FragmentFilter.haystack, hkept, convert_slash_cons, fold_eq]

/-! ## §2 What is found -/

/-- A filter excludes a path, because of one of its fragments. -/
def Excludes (f : FragmentFilter) (p : Path) : Prop :=
  ∃ fragment ∈ f.fragments, f.judge p = some (.pathContains fragment)

theorem excludes_iff {f : FragmentFilter} {p : Path} :
    f.Excludes p ↔ ∃ fragment ∈ f.fragments, fragment <:+: haystack p := by
  constructor
  · rintro ⟨fragment, hmem, hjudge⟩
    obtain ⟨found, hfound, hreason⟩ := Option.map_eq_some_iff.mp hjudge
    cases hreason
    have hoccurs := List.find?_some (p := (occursIn · (haystack p))) hfound
    exact ⟨fragment, hmem, occursIn_iff.mp hoccurs⟩
  · rintro ⟨fragment, hmem, hinfix⟩
    cases hfound : f.fragments.find? (occursIn · (haystack p)) with
    | none =>
      have hnot := List.find?_eq_none.mp hfound fragment hmem
      exact absurd (occursIn_iff.mpr hinfix) hnot
    | some found => exact ⟨found, List.mem_of_find?_eq_some hfound, congrArg (Option.map _) hfound⟩

/-- Of the texts that were given, the first that is found counts; empty ones do not. -/
theorem excludes_ofTexts_iff {texts : List String} {p : Path} :
    (ofTexts texts).Excludes p ↔
      ∃ t ∈ texts, t.toList ≠ [] ∧ fold t.toList <:+: haystack p := by
  rw [excludes_iff]
  constructor
  · rintro ⟨fragment, hmem, hinfix⟩
    obtain ⟨hmem, hne⟩ := List.mem_filter.mp hmem
    obtain ⟨t, ht, rfl⟩ := List.mem_map.mp hmem
    refine ⟨t, ht, fun hnil => ?_, hinfix⟩
    rw [fold_eq_nil_iff.mpr hnil] at hne
    cases hne
  · rintro ⟨t, ht, hne, hinfix⟩
    refine ⟨fold t.toList, List.mem_filter.mpr ⟨List.mem_map_of_mem ht, ?_⟩, hinfix⟩
    rw [Bool.not_eq_true', List.isEmpty_eq_false_iff]
    exact fun hnil => hne (fold_eq_nil_iff.mp hnil)

/-- Two texts that differ in the case of ASCII letters at most. -/
def SameLetters (a b : List Char) : Prop := a.map Char.toLower = b.map Char.toLower

instance (a b : List Char) : Decidable (SameLetters a b) := inferInstanceAs (Decidable (_ = _))

theorem SameLetters.convert_eq {a b : List Char} (h : SameLetters a b) : convert a = convert b := by
  rw [← convert_map_toLower a, h, convert_map_toLower]

/-- A fragment is found where it is a part of what is searched that keeps its word ends. -/
theorem excludes_of_part {texts : List String} {p : Path} (hp : IsLow p) {t : String}
    (ht : t ∈ texts) (hne : t.toList ≠ []) {before part after : List Char}
    (htext : '/' :: slashed p.text = before ++ part ++ after)
    (hpart : SameLetters part (slashed t.toList)) (hends : KeepsWordEnds before part after) :
    (ofTexts texts).Excludes p := by
  refine excludes_ofTexts_iff.mpr ⟨t, ht, hne, ?_⟩
  rw [hp.haystack, htext, fold_eq, ← hpart.convert_eq]
  exact infix_convert hends

/-- A path is excluded if a fragment is a part of it, with slashes for backslashes and whatever the
case of ASCII letters, as long as each capital sigma of that part ends a word in the path exactly
if it does so in the part alone.  A fragment of a name in slashes excludes every path of several
components of which this is the first.  Further fragments exclude no less. -/
theorem excludes_of_parts {texts : List String} {p : Path} (hp : IsLow p) :
    (∀ t ∈ texts, t.toList ≠ [] → ∀ before part after,
      slashed p.text = before ++ part ++ after → SameLetters part (slashed t.toList) →
      KeepsWordEnds before part after → (ofTexts texts).Excludes p) ∧
    (∀ (q : Path) (first next : Path.Component) (rest : List Path.Component),
      slashed q.text = slashed p.text → q.components = first :: next :: rest →
      String.ofList ('/' :: first.text ++ ['/']) ∈ texts → (ofTexts texts).Excludes p) ∧
    (∀ more : List String, texts ⊆ more → (ofTexts texts).Excludes p →
      (ofTexts more).Excludes p) := by
  refine ⟨?_, ?_, ?_⟩
  · intro t ht hne before part after htext hpart hends
    have hsearched : '/' :: slashed p.text = ('/' :: before) ++ part ++ after := by
      rw [htext]
      rfl
    exact excludes_of_part hp ht hne hsearched hpart hends.after_slash
  · intro q first next rest hq hcomponents ht
    have hrelative : q.isAbsolute = false := by
      rw [Path.isAbsolute, beq_eq_false_iff_ne]
      intro hhead
      refine hp ?_
      rw [← hq, slashed, List.head?_map, hhead]
      rfl
    obtain ⟨tail, htail⟩ := Path.exists_text_of_components hcomponents hrelative
    have htext : slashed p.text = slashed first.text ++ '/' :: slashed tail := by
      rw [← hq, htail, slashed_append]
      rfl
    have hfragment : slashed (String.ofList ('/' :: first.text ++ ['/'])).toList =
        ('/' :: slashed first.text) ++ ['/'] := by
      rw [String.toList_ofList, slashed_append]
      rfl
    have hsearched : '/' :: slashed p.text =
        [] ++ slashed (String.ofList ('/' :: first.text ++ ['/'])).toList ++ slashed tail := by
      rw [htext, hfragment]
      simp
    refine excludes_of_part hp ht (by simp) hsearched rfl ?_
    rw [hfragment]
    exact keepsWordEnds_of_slash _ _
  · intro more hmore hexcluded
    obtain ⟨t, ht, hfound⟩ := excludes_ofTexts_iff.mp hexcluded
    exact excludes_ofTexts_iff.mpr ⟨t, hmore ht, hfound⟩

/-- A fragment with a sigma at the end of a name, which ends a name of the path as well. -/
theorem excludes_of_parts_of_sigma :
    IsLow (.ofString "src\\xΣ/y.cpp") ∧
    (ofTexts ["/XΣ"]).Excludes (.ofString "src\\xΣ/y.cpp") := by
  have hlow : IsLow (.ofString "src\\xΣ/y.cpp") := by decide
  obtain ⟨hparts, -⟩ := @excludes_of_parts ["/XΣ"] _ hlow
  refine ⟨hlow, hparts "/XΣ" (by simp) (by decide) ['s', 'r', 'c'] ['/', 'x', 'Σ']
    "/y.cpp".toList (by decide) (by decide) ?_⟩
  intro front back htext
  rcases front with _ | ⟨a, _ | ⟨b, _ | ⟨c, front⟩⟩⟩
  · cases htext
  · cases htext
  · cases htext
    decide +kernel
  · simp at htext

/-- A fragment may be a part of a path that it does not exclude. -/
theorem fragment_is_overlooked :
    ¬∀ (texts : List String) (p : Path), IsLow p →
      ∀ t ∈ texts, t.toList ≠ [] → slashed t.toList <:+: slashed p.text →
        (ofTexts texts).Excludes p := by
  intro hall
  have hexcluded := hall ["ΑΣ"] (.ofString "ΑΣ.cpp") (by decide) "ΑΣ" (by simp) (by decide)
    ⟨[], ".cpp".toList, by decide⟩
  obtain ⟨fragment, -, hjudge⟩ := hexcluded
  have hnone : (ofTexts ["ΑΣ"]).judge (.ofString "ΑΣ.cpp") = none := by decide +kernel
  rw [hnone] at hjudge
  cases hjudge

end FragmentFilter

end MarkerBlock
