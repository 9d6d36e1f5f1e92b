/-
MarkerBlock.Proofs.Ignore.Loading — what the loading of ignore files depends on.

Rules are loaded from files a tree shows under a few paths (`IsIgnorePath`), so trees
that show the same there give the same rules.  A directory may also be written in
another way: then the same files are found, and the rules loaded for one spelling
decide about paths below the other as those loaded for the other would, unless the
text is too long for the file system or the rules refer to a relative path
(`SpelledAlike`).  `load_alike` puts both together.
-/
import Mathlib
import MarkerBlock.Ignore.List
import MarkerBlock.Proofs.FileTree.Spelling

namespace MarkerBlock

/-! ## §1 Reading ignore files -/

/-- Lines are read one by one, and succeed together. -/
theorem toOption_mapM {α β ε : Type} (f : α → Except ε β) (items : List α) :
    (items.mapM f).toOption = items.mapM fun item => (f item).toOption := by
  induction items with
  | nil => rfl
  | cons item rest ih =>
    rw [List.mapM_cons, List.mapM_cons, ← ih]
    cases f item with
    | error e => rfl
    | ok b => cases rest.mapM f <;> rfl

namespace IgnoreList

open Ignore

variable {s : Surroundings} {tree tree' : FileTree} {cwd cwd' : Place}

/-- A path under which an ignore file is looked for. -/
def IsIgnorePath (s : Surroundings) (file : Path) : Prop :=
  s.ignoreVariable.map Path.ofString = some file ∨
    ∃ directory : Path, file = directory.join (.ofString fileName)

/-- Both trees show the same under the paths of ignore files. -/
def SameIgnoreFiles (s : Surroundings) (tree tree' : FileTree) : Prop :=
  ∀ file, IsIgnorePath s file → tree'.look? s.cwd file = tree.look? s.cwd file

theorem isPlain_fileName : Path.IsPlain fileName.toList :=
  ⟨by decide, by decide, by decide⟩

theorem toOption_rulesOf (file file' : Path) (lines : List (List Char)) :
    (rulesOf file lines).toOption = (rulesOf file' lines).toOption := by
  have hrules (file : Path) :
      (rulesOf file lines).toOption = (lines.mapM (ruleOf? file)).toOption.map (List.filterMap id) := by
    rw [rulesOf]
    cases lines.mapM (ruleOf? file) <;> rfl
  have hline (line : List Char) : (ruleOf? file line).toOption = (ruleOf? file' line).toOption := by
    rw [ruleOf?, ruleOf?]
    split
    · rfl
    · cases Rule.ofLine? line <;> rfl
  rw [hrules, hrules, toOption_mapM, toOption_mapM, funext hline]

/-- The rules in a file are those in its text, whatever the file is called. -/
theorem toOption_readRules {file file' : Path} (h : tree.read cwd file = tree'.read cwd' file') :
    (readRules tree cwd file).toOption = (readRules tree' cwd' file').toOption := by
  rw [readRules, readRules, readText, readText, h]
  cases tree'.read cwd' file' with
  | error e => rfl
  | ok octets =>
    simp only
    cases Encoding.Utf8.decode octets with
    | error e => rfl
    | ok text => exact toOption_rulesOf file file' _

theorem toOption_readAll_cons (say : Path → Remark) (file : Path) (rest : List Path) :
    (readAll tree cwd say (file :: rest)).1.toOption =
      (readRules tree cwd file).toOption.bind fun rules =>
        (readAll tree cwd say rest).1.toOption.map (rules ++ ·) := by
  rw [readAll]
  cases readRules tree cwd file with
  | error e => rfl
  | ok rules =>
    simp only [Except.toOption, Option.bind_some]
    rcases readAll tree cwd say rest with ⟨_ | more, remarks⟩ <;> rfl

/-- Files that show the same hold the same rules, those that are no files left out. -/
theorem toOption_readAll {files files' : List Path}
    (h : List.Forall₂ (fun file file' => tree.look? cwd file = tree'.look? cwd' file') files files')
    (say : Path → Remark) :
    (readAll tree cwd say (files.filter (tree.isFile cwd))).1.toOption =
      (readAll tree' cwd' say (files'.filter (tree'.isFile cwd'))).1.toOption := by
  induction h with
  | nil => rfl
  | @cons file file' rest rest' hlook _ ih =>
    obtain ⟨hfile, hpresent, hread⟩ := FileTree.questions_of_look? hlook
    by_cases hisFile : tree.isFile cwd file = true
    · rw [List.filter_cons_of_pos hisFile, List.filter_cons_of_pos (hfile ▸ hisFile),
        toOption_readAll_cons, toOption_readAll_cons, ih,
        toOption_readRules (hread (FileTree.isPresent_of_isFile hisFile))]
    · rw [List.filter_cons_of_neg hisFile, List.filter_cons_of_neg (hfile ▸ hisFile), ih]

/-! ## §2 Loading -/

/-- The rules that hold in a directory. -/
def rulesIn (s : Surroundings) (tree : FileTree) (directory workspace : Path) :
    Except Error (List Rule) :=
  match (globalRules s tree).1 with
  | .error e => .error e
  | .ok outer =>
    match (readAll tree s.cwd (fun file => .detail s!"Loading {fileName} file: {file}")
        (ignoreFiles tree s.cwd directory (rootFor directory workspace))).1 with
    | .error e => .error e
    | .ok inner =>
      match Glob.fault? ((outer ++ inner).map (·.glob)) with
      | some fault => .error (.badRules fault)
      | none => .ok (outer ++ inner)

theorem load_eq (s : Surroundings) (tree : FileTree) (list : IgnoreList) (directory workspace : Path) :
    (load s tree list directory workspace).1 = (rulesIn s tree directory workspace).map fun rules =>
      { list with loaded := some { root := rootFor directory workspace, rules } } := by
  rw [load, rulesIn]
  rcases globalRules s tree with ⟨_ | outer, remarks⟩
  · rfl
  · simp only
    generalize readAll tree s.cwd _ _ = read
    obtain ⟨_ | inner, more⟩ := read
    · rfl
    · simp only
      cases Glob.fault? ((outer ++ inner).map (·.glob)) <;> rfl

/-! ## §3 Ways to write a directory -/

/-- Two ways to write a directory between which the loading of ignore files makes no
difference: none is too long, and the rules do not refer to a relative path that is
itself written in two ways. -/
def SpelledAlike (workspace d d' : Path) : Prop :=
  d = d' ∨ d.components = d'.components ∧ FileTree.Fits (d.join (.ofString fileName)) ∧
    FileTree.Fits (d'.join (.ofString fileName)) ∧
    (d.isAbsolute = true ∨ d.startsWith workspace = true)

theorem rootFor_components {d d' : Path} (h : d.components = d'.components) (workspace : Path) :
    (rootFor d workspace).components = (rootFor d' workspace).components := by
  rw [rootFor, rootFor, Path.startsWith, Path.startsWith, h]
  split
  · rfl
  · exact h

theorem length_takeWhile_of_forall₂ {α : Type} {R : α → α → Prop} {f g : α → Bool} {a b : List α}
    (h : List.Forall₂ R a b) (hfg : ∀ x y, R x y → f x = g y) :
    (a.takeWhile f).length = (b.takeWhile g).length := by
  induction h with
  | nil => rfl
  | @cons x y rest rest' hxy _ ih =>
    rw [List.takeWhile_cons, List.takeWhile_cons, hfg x y hxy]
    split
    · rw [List.length_cons, List.length_cons, ih]
    · rfl

/-- The same directories hold for a directory, however it is written. -/
theorem chain_same {d d' root root' : Path} (h : d.components = d'.components)
    (hroot : root.components = root'.components) :
    List.Forall₂ (Path.AreAncestors d d') (chain d root) (chain d' root') := by
  have habove := Path.ancestors_same h
  have hlength := length_takeWhile_of_forall₂ (f := (!·.same root)) (g := (!·.same root')) habove
    fun a a' ha => by rw [Path.same, Path.same, ha.same, hroot]
  rw [chain, chain, hlength]
  exact List.rel_reverse (List.forall₂_take _ habove)

/-- The same ignore files are found for a directory, however it is written. -/
theorem ignoreFiles_alike {workspace d d' : Path} (hd : SpelledAlike workspace d d')
    (htrees : SameIgnoreFiles s tree tree') :
    List.Forall₂ (fun file file' => tree.look? s.cwd file = tree'.look? s.cwd file')
      ((chain d (rootFor d workspace)).map (·.join (.ofString fileName)))
      ((chain d' (rootFor d' workspace)).map (·.join (.ofString fileName))) := by
  have hsame (a : Path) : tree.look? s.cwd (a.join (.ofString fileName)) =
      tree'.look? s.cwd (a.join (.ofString fileName)) := (htrees _ (.inr ⟨a, rfl⟩)).symm
  rw [List.forall₂_map_left_iff, List.forall₂_map_right_iff]
  rcases hd with rfl | ⟨hcomponents, hfits, hfits', -⟩
  · exact List.forall₂_same.mpr fun a _ => hsame a
  · refine (chain_same hcomponents (rootFor_components hcomponents workspace)).imp fun a a' ha => ?_
    rw [hsame]
    exact FileTree.look?_join isPlain_fileName ha.same (hfits.of_front isPlain_fileName ha.left)
      (hfits'.of_front isPlain_fileName ha.right) tree' s.cwd

theorem toOption_globalRules (h : ∀ text ∈ s.ignoreVariable,
      tree'.look? s.cwd (.ofString text) = tree.look? s.cwd (.ofString text)) :
    (globalRules s tree).1.toOption = (globalRules s tree').1.toOption := by
  rw [globalRules, globalRules]
  cases hvariable : s.ignoreVariable with
  | none => rfl
  | some text =>
    obtain ⟨-, hpresent, hread⟩ := FileTree.questions_of_look? (h text hvariable).symm
    simp only
    by_cases hthere : tree.isPresent s.cwd (.ofString text) = true
    · rw [if_pos hthere, if_pos (hpresent ▸ hthere), toOption_readAll_cons, toOption_readAll_cons,
        toOption_readRules (hread hthere)]
      rfl
    · rw [if_neg hthere, if_neg (hpresent ▸ hthere)]

/-- The rules of the one file for every workspace and those of the directory, unless they
cannot be carried out together. -/
def together? (outer inner : List Rule) : Option (List Rule) :=
  match Glob.fault? ((outer ++ inner).map (·.glob)) with
  | some _ => none
  | none => some (outer ++ inner)

theorem toOption_rulesIn_eq (s : Surroundings) (tree : FileTree) (directory workspace : Path) :
    (rulesIn s tree directory workspace).toOption =
      (globalRules s tree).1.toOption.bind fun outer =>
        (readAll tree s.cwd (fun file => .detail s!"Loading {fileName} file: {file}")
          (ignoreFiles tree s.cwd directory (rootFor directory workspace))).1.toOption.bind
            (together? outer) := by
  rw [rulesIn]
  cases (globalRules s tree).1 with
  | error e => rfl
  | ok outer =>
    simp only [Except.toOption, Option.bind_some]
    generalize (readAll tree s.cwd _ _).1 = read
    cases read with
    | error e => rfl
    | ok inner =>
      simp only [Option.bind_some, together?]
      cases Glob.fault? ((outer ++ inner).map (·.glob)) <;> rfl

/-- The rules in a directory do not depend on how it is written, nor on files that are
no ignore files. -/
theorem toOption_rulesIn {workspace d d' : Path} (hd : SpelledAlike workspace d d')
    (htrees : SameIgnoreFiles s tree tree') :
    (rulesIn s tree d workspace).toOption = (rulesIn s tree' d' workspace).toOption := by
  have hglobal : ∀ text ∈ s.ignoreVariable,
      tree'.look? s.cwd (.ofString text) = tree.look? s.cwd (.ofString text) :=
    fun text htext => htrees _ (.inl (congrArg (Option.map Path.ofString) htext))
  rw [toOption_rulesIn_eq, toOption_rulesIn_eq, toOption_globalRules hglobal, ignoreFiles, ignoreFiles,
    toOption_readAll (ignoreFiles_alike hd htrees)]

/-- For a root its own ignore file holds only. -/
theorem chain_of_same {d root : Path} (h : d.same root = true) : chain d root = [d] := by
  have hroot : (!d.same root) = false := by rw [h, Bool.not_true]
  obtain ⟨rest, hrest⟩ : ∃ rest, d.ancestors = d :: rest := by
    unfold Path.ancestors Path.ancestorsUpTo
    cases d.parent? with
    | none => exact ⟨[], rfl⟩
    | some q => exact ⟨_, rfl⟩
  unfold chain
  simp only [hrest, List.takeWhile_cons, hroot]
  rfl

/-- A directory that is its own root has its own ignore file only. -/
theorem chain_self (d : Path) : chain d d = [d] := chain_of_same (by simp [Path.same])

/-- Where no ignore file is, there are no rules. -/
theorem rulesIn_of_no_file {directory workspace : Path} (hvariable : s.ignoreVariable = none)
    (hfiles : ignoreFiles tree s.cwd directory (rootFor directory workspace) = []) :
    rulesIn s tree directory workspace = .ok [] := by
  unfold rulesIn globalRules
  rw [hvariable, hfiles]
  rfl

/-! ## §4 Deciding -/

/-- A path as the rules for a root see it. -/
def seenFrom? (root p : Path) : Option Path :=
  ((if p.isAbsolute then p else root.join p).stripPrefix? root).map (underRoot root)

theorem Loaded.ignores_eq (loaded : Loaded) (p : Path) : Loaded.ignores loaded p =
    ((seenFrom? loaded.root p).bind (decidingRule? loaded.rules)).any (!·.keeps) := by
  rw [Loaded.ignores, fullPath, seenFrom?]
  cases (if p.isAbsolute then p else loaded.root.join p).stripPrefix? loaded.root with
  | none => rfl
  | some relative =>
    simp only [Option.map_some, Option.bind_some]
    cases decidingRule? loaded.rules (underRoot loaded.root relative) <;> rfl

/-- No rules ignore nothing. -/
theorem cause?_of_no_rules (root p : Path) :
    cause? { globs := [], loaded := some { root, rules := [] } } p = none := by
  have hignores : Loaded.ignores { root, rules := [] } p = false := by
    unfold Loaded.ignores
    cases (fullPath { root, rules := [] } p).stripPrefix? root with
    | none => rfl
    | some relative =>
      have hnone (q : Path) : decidingRule? [] q = none := by
        simp [decidingRule?, lastRule?]
      simp only [hnone]
  unfold cause?
  simp [hignores]

/-- What follows an absolute root is seen as it is. -/
theorem underRoot_of_isAbsolute {root relative : Path} (hroot : root.isAbsolute = true)
    (hrelative : relative.isAbsolute = false) : underRoot root relative = relative := by
  rw [Path.isAbsolute, beq_iff_eq] at hroot
  obtain ⟨rest, htext⟩ := List.head?_eq_some_iff.mp hroot
  have hnot : ¬('/' :: rest).isPrefixOf relative.text = true := by
    rw [List.isPrefixOf_iff_prefix]
    rintro ⟨tail, htail⟩
    rw [Path.isAbsolute, ← htail] at hrelative
    cases hrelative
  rw [underRoot, htext]
  simp [hnot]

/-- About an absolute path, rules decide in the same way for a root with the same
components. -/
theorem cause?_of_components {globs : List Glob} {rules : List Rule} {root root' p : Path}
    (h : root.components = root'.components) (hroot : root.isAbsolute = true)
    (hp : p.isAbsolute = true) :
    cause? { globs, loaded := some { root, rules } } p =
      cause? { globs, loaded := some { root := root', rules } } p := by
  have hroot' : root'.isAbsolute = true := by
    rw [Path.isAbsolute_of_components] at hroot ⊢
    rwa [← h]
  have hignores : Loaded.ignores { root, rules } p = Loaded.ignores { root := root', rules } p := by
    rw [Loaded.ignores, Loaded.ignores, fullPath, fullPath, if_pos hp, if_pos hp,
      Path.stripPrefix?_of_components h]
    cases hrest : p.stripPrefix? root' with
    | none => rfl
    | some relative =>
      have hrelative := Path.stripPrefix?_isRelative hroot' hrest
      simp only [underRoot_of_isAbsolute hroot hrelative, underRoot_of_isAbsolute hroot' hrelative]
  rw [cause?, cause?]
  simp only [hignores, fullPath, hp, if_true]

theorem toOption_load (htrees : SameIgnoreFiles s tree tree') (list : IgnoreList)
    (directory workspace : Path) :
    (load s tree list directory workspace).1.toOption =
      (load s tree' list directory workspace).1.toOption := by
  have hrules := toOption_rulesIn (.inl rfl : SpelledAlike workspace directory directory) htrees
  rw [load_eq, load_eq]
  generalize rulesIn s tree directory workspace = rules at hrules
  generalize rulesIn s tree' directory workspace = rules' at hrules
  cases rules <;> cases rules' <;> cases hrules <;> rfl

/-- The rules that hold in two spellings of a directory decide in the same way about a
file there. -/
theorem cause?_of_spelledAlike {workspace d d' p : Path} (hd : SpelledAlike workspace d d')
    (hp : p.parent? = some d') (globs : List Glob) (rules : List Rule) :
    cause? { globs, loaded := some { root := rootFor d workspace, rules } } p =
      cause? { globs, loaded := some { root := rootFor d' workspace, rules } } p := by
  rcases hd with rfl | ⟨hcomponents, -, -, habs⟩
  · rfl
  · by_cases hstart : d.startsWith workspace = true
    · have hstart' : d'.startsWith workspace = true := by
        rwa [Path.startsWith, ← hcomponents, ← Path.startsWith]
      rw [rootFor, rootFor, if_pos hstart, if_pos hstart']
    · have hstart' : ¬d'.startsWith workspace = true := by
        rwa [Path.startsWith, ← hcomponents, ← Path.startsWith]
      have hd := habs.resolve_right hstart
      have hd' : d'.components.head? = some .root := by
        rw [← hcomponents]
        exact (Path.isAbsolute_of_components d).mp hd
      rw [rootFor, rootFor, if_neg hstart, if_neg hstart']
      exact cause?_of_components hcomponents hd ((Path.parent?_eq_some hp).isAbsolute hd')

/-- An ignore list that was loaded for a directory decides about a file as one that is
loaded for the file's own directory, from a tree with the same ignore files, if both
directories are the same. -/
theorem load_alike {workspace d d' p : Path} {list loaded : IgnoreList}
    (hd : SpelledAlike workspace d d') (htrees : SameIgnoreFiles s tree tree')
    (hp : p.parent? = some d') (h : (load s tree list d workspace).1 = .ok loaded) :
    ∃ loaded', (load s tree' list d' workspace).1 = .ok loaded' ∧
      loaded'.cause? p = loaded.cause? p := by
  have hrules := toOption_rulesIn hd htrees
  rw [load_eq] at h ⊢
  cases hd' : rulesIn s tree d workspace with
  | error e =>
    rw [hd'] at h
    cases h
  | ok rules =>
    rw [hd'] at h hrules
    cases h
    cases hd'' : rulesIn s tree' d' workspace with
    | error e =>
      rw [hd''] at hrules
      cases hrules
    | ok rules' =>
      rw [hd''] at hrules
      cases hrules
      exact ⟨_, rfl, (cause?_of_spelledAlike hd hp list.globs rules).symm⟩

end IgnoreList

end MarkerBlock
