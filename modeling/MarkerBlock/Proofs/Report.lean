/-
MarkerBlock.Proofs.Report — counts and categories of the same reports agree.

A summary counts reports one by one; categories hold the reports themselves.  Every
report has one action, so the categories share the reports out among them
(`Categories.partitions_ofReports`), and what a summary counts are their lengths
(`Summary.ofReports_eq`).
-/
import Mathlib
import MarkerBlock.Report.Basic

namespace MarkerBlock

/-! ## §1 Categories -/

namespace Categories

/-- The reports in the category of an action. -/
def bucket (c : Categories) : Action → List FileReport
  | .missing => c.missing
  | .inserted => c.inserted
  | .failed => c.failed
  | .present => c.present
  | .skipped => c.ignored

/-- All reports, category by category. -/
def all (c : Categories) : List FileReport :=
  c.missing ++ c.inserted ++ c.failed ++ c.present ++ c.ignored

/-- Every report is in one category, that of its action, and each category keeps the order. -/
structure Partitions (c : Categories) (reports : List FileReport) : Prop where
  shared : c.all.Perm reports
  sorted : ∀ action, ∀ r ∈ c.bucket action, r.action = action
  ordered : ∀ action, (c.bucket action).Sublist reports

theorem bucket_ofReports (reports : List FileReport) (action : Action) :
    (ofReports reports).bucket action = reports.filter (·.action == action) := by
  cases action <;> rfl

theorem count_bucket (reports : List FileReport) (action : Action) (r : FileReport) :
    ((ofReports reports).bucket action).count r = if r.action = action then reports.count r else 0 := by
  rw [bucket_ofReports]
  split
  · next h => exact List.count_filter (by simpa using h)
  · next h =>
    have hnot : r ∉ reports.filter (·.action == action) := by simp [h]
    exact List.count_eq_zero.mpr hnot

theorem count_all (c : Categories) (r : FileReport) :
    c.all.count r = (c.bucket .missing).count r + (c.bucket .inserted).count r +
      (c.bucket .failed).count r + (c.bucket .present).count r + (c.bucket .skipped).count r := by
  simp only [all, bucket, List.count_append]

theorem partitions_ofReports (reports : List FileReport) :
    (ofReports reports).Partitions reports where
  shared := by
    refine List.perm_iff_count.mpr fun r => ?_
    simp only [count_all, count_bucket]
    cases r.action <;> simp
  sorted action r hr := by
    rw [bucket_ofReports] at hr
    simpa using (List.mem_filter.mp hr).2
  ordered action := by
    rw [bucket_ofReports]
    exact List.filter_sublist

theorem bucket_ne_nil_iff {reports : List FileReport} {action : Action} :
    (ofReports reports).bucket action ≠ [] ↔ ∃ r ∈ reports, r.action = action := by
  rw [bucket_ofReports, ne_eq, List.filter_eq_nil_iff]
  simp

/-- Some report is an issue if the category of the failed or that of the missing has any. -/
theorem any_isIssue_iff (reports : List FileReport) :
    reports.any (·.isIssue) = true ↔
      (ofReports reports).failed ≠ [] ∨ (ofReports reports).missing ≠ [] := by
  have hfailed : (ofReports reports).failed ≠ [] ↔ ∃ r ∈ reports, r.action = .failed :=
    @bucket_ne_nil_iff reports .failed
  have hmissing : (ofReports reports).missing ≠ [] ↔ ∃ r ∈ reports, r.action = .missing :=
    @bucket_ne_nil_iff reports .missing
  rw [hfailed, hmissing, ← exists_or]
  simp only [List.any_eq_true, FileReport.isIssue, Bool.or_eq_true, beq_iff_eq, ← and_or_left]

theorem Partitions.length {c : Categories} {reports : List FileReport} (h : c.Partitions reports) :
    c.missing.length + c.inserted.length + c.failed.length + c.present.length + c.ignored.length =
      reports.length := by
  have hlength := h.shared.length_eq
  simp only [all, List.length_append] at hlength
  exact hlength

end Categories

/-! ## §2 Counts -/

namespace Summary

/-- A summary and the reports in it: what counting on from `s` comes to. -/
theorem foldl_add (s : Summary) (reports : List FileReport) :
    reports.foldl add s =
      { s with
        total := s.total + reports.length
        withMarker := s.withMarker + (Categories.ofReports reports).present.length
        missing := s.missing + (Categories.ofReports reports).missing.length +
          (Categories.ofReports reports).inserted.length
        inserted := s.inserted + (Categories.ofReports reports).inserted.length
        failed := s.failed + (Categories.ofReports reports).failed.length
        ignored := s.ignored + (Categories.ofReports reports).ignored.length } := by
  induction reports generalizing s with
  | nil => rfl
  | cons r rest ih =>
    rw [List.foldl_cons, ih]
    cases h : r.action <;>
      simp [add, Categories.ofReports, h, Nat.add_assoc, Nat.add_comm, Nat.add_left_comm]

theorem ofReports_eq (reports : List FileReport) (nanoseconds : Nat) (timestamp : Option Int) :
    ofReports reports nanoseconds timestamp =
      { total := reports.length
        withMarker := (Categories.ofReports reports).present.length
        missing := (Categories.ofReports reports).missing.length +
          (Categories.ofReports reports).inserted.length
        inserted := (Categories.ofReports reports).inserted.length
        failed := (Categories.ofReports reports).failed.length
        ignored := (Categories.ofReports reports).ignored.length
        nanoseconds, timestamp } := by
  rw [ofReports, foldl_add]
  simp

end Summary

end MarkerBlock
