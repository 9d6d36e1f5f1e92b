/-
MarkerBlock.Proofs.Filter.Extension — what a list of extensions on top of the settings admits.

Two lists of the settings make a filter, and two further lists are put on top of it.  An entry is
compared without its leading dots and in lower case; one that consists of dots only names no
extension (`normalize_eq_nil_iff`) and is left out (`mem_normalizeAll_iff`).

A further included list is therefore a restriction only if one of its entries names an extension.
If none does, nothing is left of the list, and a filter without an included list admits every
extension, also those that the list of the settings left out (`judge_override_eq_none_iff`,
`included_dot_admits_more`).
-/
import Mathlib
import MarkerBlock.Filter
import MarkerBlock.Proofs.Text.LowerCase

namespace MarkerBlock

namespace ExtensionFilter

/-! ## §1 Entries -/

/-- An entry that names no extension consists of dots. -/
theorem normalize_eq_nil_iff {entry : List Char} : normalize entry = [] ↔ ∀ c ∈ entry, c = '.' := by
  rw [normalize, Text.LowerCase.convert_eq_nil_iff, List.dropWhile_eq_nil_iff]
  simp only [beq_iff_eq]

/-- The extensions of a list are those that its entries name. -/
theorem mem_normalizeAll_iff {entries : List String} {extension : List Char} :
    extension ∈ normalizeAll entries ↔
      extension ≠ [] ∧ ∃ e ∈ entries, normalize e.toList = extension := by
  simp only [normalizeAll, List.mem_filter, List.mem_map, Bool.not_eq_true',
    List.isEmpty_eq_false_iff, and_comm]

theorem normalizeAll_eq_nil_iff {entries : List String} :
    normalizeAll entries = [] ↔ ∀ e ∈ entries, normalize e.toList = [] := by
  rw [List.eq_nil_iff_forall_not_mem]
  constructor
  · intro h e he
    by_contra hne
    exact h _ (mem_normalizeAll_iff.mpr ⟨hne, e, he, rfl⟩)
  · intro h extension hmem
    obtain ⟨hne, e, he, rfl⟩ := mem_normalizeAll_iff.mp hmem
    exact hne (h e he)

/-! ## §2 Filters -/

/-- A path is worked on if its extension is not excluded, and is included unless all are. -/
theorem judge_eq_none_iff {f : ExtensionFilter} {p : Path} :
    f.judge p = none ↔
      extensionOf p ∉ f.excluded ∧ (f.included = [] ∨ extensionOf p ∈ f.included) := by
  rw [judge]
  by_cases hexcluded : extensionOf p ∈ f.excluded
  · simp [hexcluded]
  · by_cases hincluded : extensionOf p ∈ f.included
    · simp [hexcluded, hincluded]
    · simp [hexcluded, hincluded]

/-- None of these entries names the extension of the path. -/
def NamesNot (entries : List String) (p : Path) : Prop :=
  ∀ e ∈ entries, normalize e.toList ≠ [] → normalize e.toList ≠ extensionOf p

instance (entries : List String) (p : Path) : Decidable (NamesNot entries p) :=
  inferInstanceAs (Decidable (∀ e ∈ entries, normalize e.toList ≠ [] → _))

theorem namesNot_iff {entries : List String} {p : Path} :
    NamesNot entries p ↔ extensionOf p ∉ normalizeAll entries := by
  rw [mem_normalizeAll_iff, NamesNot]
  constructor
  · rintro h ⟨hne, e, he, hsame⟩
    exact h e he (hsame ▸ hne) hsame
  · intro h e he hne hsame
    exact h ⟨hsame ▸ hne, e, he, hsame⟩

theorem namesNot_append {a b : List String} {p : Path} :
    NamesNot (a ++ b) p ↔ NamesNot a p ∧ NamesNot b p := List.forall_mem_append

/-- What lists of extensions admit that are put on top of those of the settings.  If an entry of
the included list is more than dots, a path is worked on exactly if it has an extension that the
list names and that neither excluded list names.  If all its entries are dots, the list lifts
every restriction: whatever the settings include, a path is worked on exactly if neither excluded
list names its extension. -/
theorem judge_override_eq_none_iff {included : List String} (h : included ≠ [])
    (settingsIncluded settingsExcluded excluded : List String) (p : Path) :
    ((∃ e ∈ included, ∃ c ∈ e.toList, c ≠ '.') →
      (((ofLists settingsIncluded settingsExcluded).override included excluded).judge p = none ↔
        extensionOf p ≠ [] ∧ (∃ e ∈ included, normalize e.toList = extensionOf p) ∧
          NamesNot (settingsExcluded ++ excluded) p)) ∧
    ((∀ e ∈ included, ∀ c ∈ e.toList, c = '.') →
      (((ofLists settingsIncluded settingsExcluded).override included excluded).judge p = none ↔
        NamesNot (settingsExcluded ++ excluded) p)) := by
  have hlist : included.isEmpty = false := List.isEmpty_eq_false_iff.mpr h
  have hjudge : ((ofLists settingsIncluded settingsExcluded).override included excluded).judge p =
      none ↔ NamesNot (settingsExcluded ++ excluded) p ∧
        (normalizeAll included = [] ∨ extensionOf p ∈ normalizeAll included) := by
    rw [judge_eq_none_iff, namesNot_append, namesNot_iff, namesNot_iff]
    simp [override, ofLists, hlist]
  simp only [← normalize_eq_nil_iff, hjudge, normalizeAll_eq_nil_iff, mem_normalizeAll_iff]
  constructor
  · rintro ⟨e, he, c, hc, hdot⟩
    have hnamed : ¬∀ e ∈ included, normalize e.toList = [] :=
      fun hall => hdot (normalize_eq_nil_iff.mp (hall e he) c hc)
    rw [or_iff_right hnamed]
    tauto
  · intro hall
    exact and_iff_left (.inl hall)

/-- A list with an entry in capitals and one of nothing but a dot, and a list of the dot alone. -/
theorem judge_override_eq_none_iff_of_dots :
    ([".", "..CPP"] : List String) ≠ [] ∧
    ((ofLists ["h"] ["inl"]).override [".", "..CPP"] [".H"]).judge (.ofString "a/x.Cpp") = none ∧
    (["."] : List String) ≠ [] ∧
    ((ofLists ["h"] ["inl"]).override ["."] [".H"]).judge (.ofString "a/x.txt") = none := by
  have hlist : ([".", "..CPP"] : List String) ≠ [] := List.cons_ne_nil _ _
  have hdot : (["."] : List String) ≠ [] := List.cons_ne_nil _ _
  obtain ⟨hnamed, -⟩ :=
    judge_override_eq_none_iff hlist ["h"] ["inl"] [".H"] (.ofString "a/x.Cpp")
  obtain ⟨-, hlifted⟩ := judge_override_eq_none_iff hdot ["h"] ["inl"] [".H"] (.ofString "a/x.txt")
  have hcapital : ∃ e ∈ [".", "..CPP"], ∃ c ∈ e.toList, c ≠ '.' :=
    ⟨"..CPP", by simp, 'C', by simp, by decide⟩
  have hdots : ∀ e ∈ ["."], ∀ c ∈ e.toList, c = '.' := by simp
  exact ⟨hlist, (hnamed hcapital).mpr (by decide +kernel), hdot,
    (hlifted hdots).mpr (by decide +kernel)⟩

/-- A list of one dot takes away the restriction of the settings: a path is worked on that the
settings alone leave out, and whose extension is none that the list names. -/
theorem included_dot_admits_more :
    ¬∀ (settingsIncluded settingsExcluded included excluded : List String) (p : Path),
      included ≠ [] →
      ((ofLists settingsIncluded settingsExcluded).override included excluded).judge p = none →
      ∃ e ∈ included, normalize e.toList = extensionOf p := by
  intro hall
  have hjudge : ((ofLists ["cpp"] []).override ["."] []).judge (.ofString "x.h") = none := by cbv
  obtain ⟨e, he, hnamed⟩ := hall ["cpp"] [] ["."] [] (.ofString "x.h") (by simp) hjudge
  rw [List.mem_singleton.mp he] at hnamed
  exact absurd hnamed (by decide)

end ExtensionFilter

end MarkerBlock
