/-
MarkerBlock.Proofs.Ignore.Names — patterns that are names.

A pattern of names, with or without a separator at its end, stands for four globs: the names as they
are, below directories, with anything below them, and both (`globsOf_name`).  One of them accepts a
text exactly if the names follow one another in it between slashes (`any_accepts_iff`).  In a plainly
written relative path these are its components (`IsNormal.infix_iff`), so a path is ignored if the
names are among its components, next to one another, and not otherwise (`ignores_ofName_iff`).

The fourth glob needs a machine, and a pattern may be too long for one.  Such a pattern is refused
(`ofPatterns_of_long`).
-/
import Mathlib
import MarkerBlock.Ignore.List
import MarkerBlock.Proofs.Glob.Literal
import MarkerBlock.Proofs.Path

namespace MarkerBlock

namespace Path

/-! ## §1 Plainly written paths -/

/-- A relative path that is written with its components alone, a slash between two of them. -/
structure IsNormal (p : Path) : Prop where
  relative : p.isAbsolute = false
  written : ofComponents p.components = p

instance (p : Path) : Decidable p.IsNormal :=
  decidable_of_iff (p.isAbsolute = false ∧ ofComponents p.components = p)
    ⟨fun h => ⟨h.1, h.2⟩, fun h => ⟨h.relative, h.written⟩⟩

theorem IsNormal.slash_notMem {p : Path} (h : p.IsNormal) {c : Component} (hc : c ∈ p.components) :
    '/' ∉ c.text := by
  have hroot : p.shape.1 ≠ .root := by
    intro hlead
    have habs := (isAbsolute_of_components p).mpr (by rw [components_eq, hlead]; rfl)
    rw [h.relative] at habs
    cases habs
  rw [components_eq, List.mem_append] at hc
  rcases hc with hc | hc
  · cases hlead : p.shape.1 with
    | nothing => rw [hlead] at hc; cases hc
    | root => exact absurd hlead hroot
    | current =>
      rw [hlead, Lead.components, List.mem_singleton] at hc
      rw [hc]
      decide
  · obtain ⟨segment, hmem, hsegment⟩ := List.mem_filterMap.mp hc
    rw [← text_componentOf? hsegment]
    exact not_mem_shape hmem

theorem IsNormal.text_eq {p : Path} (h : p.IsNormal) :
    p.text = List.intercalate ['/'] (p.components.map Component.text) := by
  have hroot : p.components.head? ≠ some .root := fun hhead =>
    h.slash_notMem (List.mem_of_head? hhead) (List.mem_singleton_self '/')
  have hplain (cs : List Component) (hcs : cs.head? ≠ some .root) :
      (ofComponents cs).text = List.intercalate ['/'] (cs.map Component.text) := by
    rw [ofComponents]
    rintro rest rfl
    exact hcs rfl
  rw [← hplain _ hroot, h.written]

theorem IsPlain.eq_name {c : Component} (h : IsPlain c.text) : Component.name c.text = c := by
  cases c with
  | root => exact absurd (List.mem_singleton_self '/') h.slash
  | current => exact absurd rfl h.blank
  | parent => exact absurd rfl h.parent
  | name n => rfl

/-- Names follow one another in a path exactly if they do so in its text, between slashes. -/
theorem IsNormal.infix_iff {p : Path} (h : p.IsNormal) {names : List (List Char)} (hne : names ≠ [])
    (hplain : ∀ n ∈ names, IsPlain n) :
    names <:+: p.text.splitOn '/' ↔ names.map .name <:+: p.components := by
  by_cases hempty : p.components = []
  · -- the empty text has one piece, which is no name
    have htext : p.text = [] := by rw [h.text_eq, hempty]; rfl
    rw [htext, hempty, List.splitOn_nil, List.infix_nil, List.map_eq_nil_iff]
    refine iff_of_false (fun hpieces => ?_) hne
    obtain ⟨n, hn⟩ := List.exists_mem_of_ne_nil names hne
    have hblank := List.mem_singleton.mp (hpieces.subset hn)
    exact (hplain n hn).blank (by rw [hblank]; rfl)
  · have hsplit : p.text.splitOn '/' = p.components.map Component.text := by
      rw [h.text_eq, List.splitOn_intercalate '/' ?_ (by simpa using hempty)]
      intro piece hpiece
      obtain ⟨c, hc, rfl⟩ := List.mem_map.mp hpiece
      exact h.slash_notMem hc
    rw [hsplit, List.infix_map_iff]
    constructor
    · rintro ⟨cs, hcs, rfl⟩
      have hnames : (cs.map Component.text).map Component.name = cs := by
        rw [List.map_map]
        refine (List.map_congr_left fun c hc => ?_).trans (List.map_id cs)
        exact (hplain _ (List.mem_map_of_mem hc)).eq_name
      rwa [hnames]
    · intro hinfix
      refine ⟨_, hinfix, ?_⟩
      rw [List.map_map]
      exact (List.map_id names).symm

end Path

namespace Ignore

open Glob

/-! ## §2 The globs of names -/

/-- The texts a pattern of these names has: a separator between two of them, and perhaps one more at
the end. -/
def Writes (pattern : List Char) (names : List (List Char)) : Prop :=
  Text.slashed pattern = List.intercalate ['/'] names ∨
    Text.slashed pattern = List.intercalate ['/'] names ++ ['/']

/-- A name as a pattern of names has them: no character has a meaning of its own. -/
structure IsLiteralName (n : List Char) : Prop where
  plain : Path.IsPlain n
  literal : ∀ c ∈ n, IsLiteral c

instance (n : List Char) : Decidable (IsLiteralName n) :=
  decidable_of_iff (('/' ∉ n ∧ ¬Path.isBlank n = true ∧ n ≠ ['.', '.']) ∧
      n.all (decide <| IsLiteral ·) = true)
    ⟨fun h => ⟨⟨h.1.1, h.1.2.1, h.1.2.2⟩, by simpa using h.2⟩,
      fun h => ⟨⟨h.plain.slash, h.plain.blank, h.plain.parent⟩, by simpa using h.literal⟩⟩

/-- The globs of a text that stands for itself, anywhere and with anything below it. -/
def entry (text : List Char) : List Glob :=
  [framed globOptions false false text, framed globOptions false true text,
    framed globOptions true false text, framed globOptions true true text]

section

variable {names : List (List Char)} (hne : names ≠ []) (hnames : ∀ n ∈ names, IsLiteralName n)
include hne hnames

theorem split_joined : Text.split '/' (List.intercalate ['/'] names) = names :=
  Text.split_intercalate hne fun n hn => (hnames n hn).plain.slash

theorem joined_literal : ∀ c ∈ List.intercalate ['/'] names, IsLiteral c := by
  intro c hc
  by_cases hslash : c = '/'
  · rw [hslash]
    decide
  · rw [Text.mem_iff_mem_split hslash, split_joined hne hnames] at hc
    obtain ⟨n, hn, hmem⟩ := hc
    exact (hnames n hn).literal c hmem

theorem joined_ne_nil : List.intercalate ['/'] names ≠ [] := by
  intro hempty
  have hsplit := split_joined hne hnames
  rw [hempty] at hsplit
  exact (hnames [] (hsplit ▸ List.mem_singleton_self [])).plain.blank rfl

theorem joined_ne_parent : List.intercalate ['/'] names ≠ ['.', '.'] := by
  intro hparent
  have hsplit := split_joined hne hnames
  rw [hparent] at hsplit
  exact (hnames ['.', '.'] (hsplit ▸ List.mem_singleton_self _)).plain.parent rfl

theorem getLast?_joined : (List.intercalate ['/'] names).getLast? ≠ some '/' := by
  intro hlast
  obtain ⟨front, hfront⟩ := List.getLast?_eq_some_iff.mp hlast
  have hsplit := split_joined hne hnames
  rw [hfront, Text.split_append '/' front []] at hsplit
  exact (hnames [] (hsplit ▸ List.mem_append_right _ (List.mem_singleton_self []))).plain.blank rfl

theorem expand_of_writes {pattern : List Char} (h : Writes pattern names) :
    expand pattern =
      [framedText false false (List.intercalate ['/'] names),
        framedText false true (List.intercalate ['/'] names),
        framedText true false (List.intercalate ['/'] names),
        framedText true true (List.intercalate ['/'] names)] := by
  have hliteral := joined_literal hne hnames
  have hlast := getLast?_joined hne hnames
  unfold Writes Text.slashed at h
  generalize List.intercalate ['/'] names = joined at h hliteral hlast
  have hplain : joined.any ['*', '?', '['].contains = false := by
    rw [List.any_eq_false]
    intro c hc hmark
    refine hliteral c hc ?_
    have hmark' : c ∈ ['*', '?', '['] := List.contains_iff_mem.mp hmark
    simp only [List.mem_cons, List.not_mem_nil, or_false] at hmark' ⊢
    tauto
  rcases h with h | h
  · simp only [expand, h, hlast, hplain, framedText, if_false, if_true, Bool.not_false,
      Bool.false_eq_true, List.nil_append, List.append_nil]
  · simp only [expand, h, List.getLast?_concat, List.dropLast_concat, framedText, if_false, if_true,
      Bool.false_eq_true, List.nil_append, List.append_nil]

/-- The globs of a pattern of names. -/
theorem globsOf_name {pattern : String} (h : Writes pattern.toList names) :
    globsOf pattern = .ok (entry (List.intercalate ['/'] names)) := by
  have hparse := parse_framed (joined_literal hne hnames) globOptions
  rw [globsOf, expand_of_writes hne hnames h]
  simp only [List.mapM_cons, List.mapM_nil, hparse]
  rfl

/-- Of the globs of a pattern of names only the last needs a machine. -/
theorem fault?_entry :
    fault? (entry (List.intercalate ['/'] names)) =
      if lengthLimit < ((List.intercalate ['/'] names).flatMap octetsOf).length then
        some (.together .size)
      else none := by
  have hmethod := method_framed globOptions (joined_ne_nil hne hnames)
  have hfirst : (entry (List.intercalate ['/'] names)).filter (·.method == .extensionFirst) = [] := by
    by_cases hslash : '/' ∈ List.intercalate ['/'] names <;> simp [entry, hmethod, hslash]
  have hmachine : (entry (List.intercalate ['/'] names)).filter (·.method == .expression) =
      [framed globOptions true true (List.intercalate ['/'] names)] := by
    by_cases hslash : '/' ∈ List.intercalate ['/'] names <;> simp [entry, hmethod, hslash]
  rw [fault?]
  simp only [hfirst, hmachine, excess?_framed, List.findSome?_nil]
  split <;> rfl

/-- The four globs accept what has the text in it, after directories or first, and before anything
below it or last. -/
theorem any_accepts_iff_exists (text : List Char) :
    (entry (List.intercalate ['/'] names)).any (·.accepts text) = true ↔
      ∃ before after, text.flatMap octetsOf =
          before ++ (List.intercalate ['/'] names).flatMap octetsOf ++ after ∧
        before ∈ directories ∧ (after = [] ∨ after ∈ below) := by
  have haccepts := accepts_framed_iff globOptions (joined_ne_nil hne hnames)
    (joined_ne_parent hne hnames)
  generalize List.intercalate ['/'] names = joined at haccepts
  have hentry : (entry joined).any (·.accepts text) = true ↔
      ∃ anywhere deep, (framed globOptions anywhere deep joined).accepts text = true := by
    simp only [entry, List.any_cons, List.any_nil, Bool.or_false, Bool.or_eq_true,
      Bool.exists_bool, or_assoc]
  rw [hentry]
  constructor
  · rintro ⟨anywhere, deep, h⟩
    obtain ⟨before, after, htext, hbefore, hafter⟩ := (haccepts anywhere deep text).mp h
    refine ⟨before, after, htext, ?_, ?_⟩
    · cases anywhere with
      | false => exact mem_directories_iff.mpr (.inl hbefore)
      | true => exact hbefore
    · cases deep with
      | false => exact .inl hafter
      | true => exact .inr hafter
  · rintro ⟨before, after, htext, hbefore, rfl | hafter⟩
    · exact ⟨true, false, (haccepts true false text).mpr ⟨before, [], htext, hbefore, rfl⟩⟩
    · exact ⟨true, true, (haccepts true true text).mpr ⟨before, after, htext, hbefore, hafter⟩⟩

/-- One of the globs accepts a text exactly if the names follow one another in it. -/
theorem any_accepts_iff (text : List Char) :
    (entry (List.intercalate ['/'] names)).any (·.accepts text) = true ↔
      names <:+: text.splitOn '/' := by
  have hpieces : ∀ octets ∈ names.map (List.flatMap octetsOf), slash ∉ octets := by
    intro octets hoctets
    obtain ⟨n, hn, rfl⟩ := List.mem_map.mp hoctets
    exact slash_mem_octets_iff.not.mpr (hnames n hn).plain.slash
  rw [any_accepts_iff_exists hne hnames, ← infix_splitOn_octets_iff,
    Text.infix_splitOn_iff (by simpa using hne) hpieces, octets_intercalate]
  simp only [mem_directories_iff, mem_below_iff]

end

/-! ## §3 Ignored paths -/

/-- Names that are not too long to be looked for. -/
def Fits (names : List (List Char)) : Prop :=
  ((List.intercalate ['/'] names).flatMap octetsOf).length ≤ lengthLimit

instance (names : List (List Char)) : Decidable (Fits names) :=
  inferInstanceAs (Decidable (_ ≤ lengthLimit))

/-- The ignore list of a pattern of names. -/
theorem ofPatterns_name {names : List (List Char)} (hne : names ≠ [])
    (hnames : ∀ n ∈ names, IsLiteralName n) {pattern : String}
    (hpattern : Writes pattern.toList names) :
    IgnoreList.ofPatterns [pattern] =
      if Fits names then .ok { globs := entry (List.intercalate ['/'] names) }
      else .error (.badGlobs (.together .size)) := by
  have hglobs : [pattern].mapM globsOf = .ok [entry (List.intercalate ['/'] names)] := by
    rw [List.mapM_cons, globsOf_name hne hnames hpattern]
    rfl
  rw [IgnoreList.ofPatterns, hglobs]
  simp only [List.flatten_cons, List.flatten_nil, List.append_nil, fault?_entry hne hnames]
  by_cases hfits : Fits names
  · rw [if_pos hfits, if_neg (Nat.not_lt.mpr hfits)]
  · rw [if_neg hfits, if_pos (Nat.lt_of_not_le hfits)]

end Ignore

namespace IgnoreList

open Ignore

/-- A pattern of names ignores the paths in which the names follow one another as components, and no
others, unless it is too long: then there is no list. -/
theorem ignores_iff_names_in_components {names : List (List Char)} (hne : names ≠ [])
    (hnames : ∀ n ∈ names, IsLiteralName n) {pattern : String}
    (hpattern : Writes pattern.toList names) :
    (Fits names →
      ∃ list, ofPatterns [pattern] = .ok list ∧ ∀ p : Path, p.IsNormal →
        (list.ignores p = true ↔ names.map Path.Component.name <:+: p.components)) ∧
    (¬Fits names → ofPatterns [pattern] = .error (.badGlobs (.together .size))) := by
  have hlist := ofPatterns_name hne hnames hpattern
  constructor
  · intro hfits
    refine ⟨_, hlist.trans (if_pos hfits), fun p hp => ?_⟩
    have hignores : ignores { globs := entry (List.intercalate ['/'] names) } p =
        (entry (List.intercalate ['/'] names)).any (·.accepts p.text) := by
      rw [ignores, cause?]
      cases (entry (List.intercalate ['/'] names)).any (·.accepts p.text) <;> rfl
    rw [hignores, any_accepts_iff hne hnames, hp.infix_iff hne fun n hn => (hnames n hn).plain]
  · intro hlong
    rw [hlist, if_neg hlong]

/-- A directory in a directory, written with a backslash and one more separator at the end. -/
theorem ignores_nested_directory :
    Writes "out\\x64/".toList [['o', 'u', 't'], ['x', '6', '4']] ∧
      ∃ list, ofPatterns ["out\\x64/"] = .ok list ∧
        list.ignores (Path.ofString "src/out/x64/main.cpp") = true ∧
        list.ignores (Path.ofString "src/out/x640/main.cpp") = false := by
  have hnames : ∀ n ∈ [['o', 'u', 't'], ['x', '6', '4']], IsLiteralName n := by decide
  have hpattern : Writes "out\\x64/".toList [['o', 'u', 't'], ['x', '6', '4']] := .inr (by decide)
  obtain ⟨list, hlist, hignores⟩ :=
    (ignores_iff_names_in_components (List.cons_ne_nil _ _) hnames hpattern).1 (by decide +kernel)
  refine ⟨hpattern, list, hlist, ?_, ?_⟩
  · exact (hignores _ (by decide)).mpr (by decide)
  · rw [← Bool.not_eq_true, hignores _ (by decide)]
    decide

/-- A name of 400000 letters is too long, so no list ignores the entry with this name. -/
theorem long_name_has_no_list :
    [Path.Component.name (List.replicate 400000 'a')] <:+:
        Path.components ⟨List.replicate 400000 'a'⟩ ∧
      ¬∃ list, ofPatterns [String.ofList (List.replicate 400000 'a')] = .ok list ∧
        list.ignores ⟨List.replicate 400000 'a'⟩ = true := by
  generalize hcount : 400000 = count
  have hname : IsLiteralName (List.replicate count 'a') := by
    have hletter : ∀ c ∈ List.replicate count 'a', c = 'a' := fun _ => List.eq_of_mem_replicate
    have hlength : (List.replicate count 'a').length = count := List.length_replicate
    refine ⟨⟨fun h => ?_, fun h => ?_, fun h => ?_⟩, fun c hc => ?_⟩
    · exact absurd (hletter _ h) (by decide)
    · have hone : List.replicate count 'a' = [] ∨ List.replicate count 'a' = ['.'] := by
        simpa [Path.isBlank] using h
      rcases hone with hone | hone <;> rw [hone] at hlength
      · rw [← hlength] at hcount
        cases hcount
      · exact absurd (hletter '.' (hone ▸ List.mem_cons_self)) (by decide)
    · exact absurd (hletter '.' (h ▸ List.mem_cons_self)) (by decide)
    · rw [hletter c hc]
      decide
  have hwrites : Writes (String.ofList (List.replicate count 'a')).toList
      [List.replicate count 'a'] := by
    left
    rw [String.toList_ofList, Text.slashed, List.map_replicate, List.intercalate_singleton]
    rfl
  have hlong : ¬Fits [List.replicate count 'a'] := by
    have hoctets : ((List.replicate count 'a').flatMap Glob.octetsOf).length = count := by
      rw [List.length_flatMap, List.map_replicate, List.sum_replicate]
      exact Nat.mul_one count
    rw [Fits, List.intercalate_singleton, hoctets, ← hcount]
    decide
  refine ⟨by rw [hname.plain.components], ?_⟩
  rintro ⟨list, hlist, -⟩
  rw [ofPatterns_name (List.cons_ne_nil _ _) (by simpa using hname) hwrites, if_neg hlong] at hlist
  cases hlist

end IgnoreList

end MarkerBlock
