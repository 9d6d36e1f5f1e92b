/-
MarkerBlock.Proofs.Job.Differences — what is rendered for a file that lacks the block.

A file that is reported to lack the block was read in the encoding found for it, and its text
needs an insertion.  The difference that the insertion makes (`IsDifference`) is what a job shows
and keeps.  `ensure_missing` says so of one file; `run_missing` says of every report of a batch
that all lines of the difference were shown, if differences are.
-/
import Mathlib
import MarkerBlock.Proofs.Job.Batch

namespace MarkerBlock.Job

variable {job : Job} {page : CodePage} {s : Surroundings} {tree : FileTree} {path : Path}
  {paths : List Path} {lists : Lists} {r : FileReport}

/-! ## §1 One file -/

/-- `text` is the difference that the block makes to the file at `path`, which is worked on in the
tree `now` and reported by `r`: the file is read in the encoding that is found for it, and needs the
block. -/
structure IsDifference (job : Job) (page : CodePage) (s : Surroundings) (now : FileTree) (path : Path)
    (r : FileReport) (octets : List UInt8) (before after text : List Char) : Prop where
  read : now.read s.cwd path = .ok octets
  encoding : r.encoding = some (job.found page s now path)
  decoded : (job.found page s now path).decode page octets = .ok before
  inserted : job.inserter.ensure before = .ok (.inserted after)
  path : r.path = displayPath s path
  rendered : text = Diff.render r.path before after

/-- A file that lacks the block is only examined. -/
theorem ensureAs_missing {e : Encoding}
    (h : (job.ensureAs page s tree path e).result = .ok .missing) :
    ∃ octets i, tree.read s.cwd path = .ok octets ∧
      plan page job.inserter e octets = .ok (some i) ∧
      job.ensureAs page s tree path e = job.examine s tree path i := by
  unfold ensureAs at h ⊢
  split at h
  · cases h
  · next octets hread =>
    split at h
    · cases h
    · cases h
    · next i hplan =>
      split at h
      · unfold writeBack at h
        split at h <;> cases h
      · next hexamines => exact ⟨octets, i, hread, hplan, if_neg hexamines⟩

/-- The difference of a file that lacks the block. -/
theorem ensure_missing (h : (job.ensure page s tree path).2.result = .ok .missing) :
    ∃ octets i, job.IsDifference page s tree path
        (reportOf page (displayPath s path) (job.found page s tree path) (.ok .missing)) octets
        i.before i.after (Diff.render (displayPath s path) i.before i.after) ∧
      job.ensureAs page s tree path (job.found page s tree path) = job.examine s tree path i := by
  obtain ⟨octets, i, hread, hplan, hexamine⟩ := ensureAs_missing h
  obtain ⟨hdecode, hensure, -⟩ := plan_eq_some hplan
  exact ⟨octets, i, ⟨hread, rfl, hdecode, hensure, rfl, rfl⟩, hexamine⟩

/-! ## §2 What is shown -/

/-- The difference is shown before anything else is said of it. -/
theorem remarks_examine (job : Job) (s : Surroundings) (tree : FileTree) (path : Path)
    (i : Insertion) :
    job.diffs.remarks (Diff.render (displayPath s path) i.before i.after) <+:
      (job.examine s tree path i).remarks := by
  unfold examine
  split
  · simp only
    split
    · exact List.prefix_refl _
    · exact List.prefix_append _ _
  · next hnone =>
    have hshown : job.diffs.shown = false := by
      simp only [Diff.Output.isEnabled, Bool.or_eq_true, not_or, Bool.not_eq_true] at hnone
      exact hnone.1
    rw [Diff.Output.remarks, hshown]
    exact List.nil_prefix

/-- `r` reports that a file lacks the block, and all lines of the difference are among `said`, if
differences are shown. -/
def IsShown (job : Job) (page : CodePage) (s : Surroundings) (now : FileTree) (path : Path)
    (r : FileReport) (said : List Remark) : Prop :=
  ∃ octets before after text, job.IsDifference page s now path r octets before after text ∧
    job.diffs.remarks text <:+: said

theorem IsShown.mono {said more : List Remark} (h : job.IsShown page s tree path r said)
    (hmore : said <:+: more) : job.IsShown page s tree path r more := by
  obtain ⟨octets, before, after, text, hdifference, hsaid⟩ := h
  exact ⟨octets, before, after, text, hdifference, hsaid.trans hmore⟩

/-- Only a file that lacks the block is reported to lack it. -/
theorem result_of_missing {display : Path} {e : Encoding} {result : Except FileFailure Status}
    (h : (reportOf page display e result).action = .missing) : result = .ok .missing := by
  rcases result with failure | (_ | _ | _)
  · cases h
  · cases h
  · cases h
  · rfl

theorem processFile_missing (h : (job.processFile page s tree path).2.1.action = .missing) :
    job.IsShown page s tree path (job.processFile page s tree path).2.1
      (job.processFile page s tree path).2.2 := by
  have hresult : (job.ensure page s tree path).2.result = .ok .missing := result_of_missing h
  obtain ⟨octets, i, hdifference, hexamine⟩ := ensure_missing hresult
  have hreport : (job.processFile page s tree path).2.1 =
      reportOf page (displayPath s path) (job.found page s tree path) (.ok .missing) :=
    congrArg (reportOf page (displayPath s path) (job.found page s tree path)) hresult
  have hsaid : (job.ensureAs page s tree path (job.found page s tree path)).remarks <:+:
      (job.processFile page s tree path).2.2 := by
    refine List.IsInfix.trans ?_ (List.prefix_append _ _).isInfix
    exact ((List.suffix_cons _ _).trans (List.suffix_append _ _)).isInfix
  rw [hreport]
  refine ⟨octets, i.before, i.after, _, hdifference, .trans ?_ hsaid⟩
  rw [hexamine]
  exact (remarks_examine job s tree path i).isInfix

theorem step_missing {done : Step} (h : job.step page s tree lists path = .ok done)
    (hmissing : done.report.action = .missing) :
    job.IsShown page s tree path done.report done.remarks := by
  unfold step at h
  split at h
  · cases h
  · split at h
    · cases h
      cases hmissing
    · cases h
      exact (processFile_missing hmissing).mono (List.suffix_append _ _).isInfix

/-- The difference of every file that a batch reports to lack the block is shown. -/
theorem runFrom_missing (h : r ∈ (job.runFrom page s tree lists paths).reports)
    (hmissing : r.action = .missing) :
    ∃ path ∈ paths, ∃ now, Worked job page s paths tree now ∧
      job.IsShown page s now path r (job.runFrom page s tree lists paths).remarks := by
  induction paths generalizing tree lists with
  | nil => cases h
  | cons first rest ih =>
    rw [runFrom] at h ⊢
    cases hstep : job.step page s tree lists first with
    | error e =>
      rw [hstep] at h
      cases h
    | ok done =>
      rw [hstep] at h
      rcases List.mem_cons.mp h with rfl | h
      · refine ⟨first, List.mem_cons_self, tree, .refl, (step_missing hstep hmissing).mono ?_⟩
        exact (List.prefix_append _ _).isInfix
      · obtain ⟨path, hpath, now, hworked, hshown⟩ := ih h
        have hfirst : Worked job page s (first :: rest) tree done.tree :=
          worked_of_eq List.mem_cons_self (step_tree hstep)
        refine ⟨path, List.mem_cons_of_mem _ hpath, now,
          hfirst.trans (hworked.mono (List.subset_cons_self first rest)), hshown.mono ?_⟩
        exact (List.suffix_append _ _).isInfix

theorem run_missing (h : r ∈ (job.run page s tree paths).reports)
    (hmissing : r.action = .missing) :
    ∃ path ∈ paths, ∃ now, Worked job page s paths tree now ∧
      job.IsShown page s now path r (job.run page s tree paths).remarks := by
  unfold run at h ⊢
  split at h
  · cases h
  · next hpaths =>
    obtain ⟨path, hpath, now, hworked, hshown⟩ := runFrom_missing h hmissing
    rw [if_neg hpaths]
    exact ⟨path, hpath, now, hworked, hshown.mono (List.prefix_append _ _).isInfix⟩

end MarkerBlock.Job
