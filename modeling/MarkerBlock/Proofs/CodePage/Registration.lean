/-
MarkerBlock.Proofs.CodePage.Registration — the code page of a process is written once.

What one call does depends on two things only: the page its label names, if any, and
the page that is registered, if any (§1).  The registered page is therefore that of
the first call whose label names one, whatever calls come before and after it
(`registeredAfter_eq`, §2), and a file is written in the page it was read in as soon
as there has been such a call (§3).
-/
import Mathlib
import MarkerBlock.CodePage.Labels
import MarkerBlock.Proofs.Encoding.Codec

namespace MarkerBlock.CodePage

/-! ## §1 One call -/

/-- The page a call asks for, if its label names one. -/
def pageOf? (label : Option String) : Option CodePage := ofLabel? (label.getD defaultLabel)

theorem register_of_unknown {label : Option String} (h : pageOf? label = none)
    (registered : Option CodePage) :
    register registered label = (.error (.unsupported (label.getD defaultLabel)), registered) := by
  simp only [register]
  rw [show ofLabel? (label.getD defaultLabel) = none from h]

theorem register_of_known {label : Option String} {page : CodePage} (h : pageOf? label = some page)
    (registered : Option CodePage) :
    register registered label =
      (if registered.getD page = page then .ok page
        else .error (.alreadyRegistered (registered.getD page).name), some (registered.getD page)) := by
  simp only [register]
  rw [show ofLabel? (label.getD defaultLabel) = some page from h]
  by_cases hsame : registered.getD page = page
  · simp [hsame]
  · simp [hsame]

/-- What is registered stays; where nothing is, the page asked for is. -/
theorem register_snd (registered : Option CodePage) (label : Option String) :
    (register registered label).2 = registered.or (pageOf? label) := by
  cases hpage : pageOf? label with
  | none => rw [register_of_unknown hpage, Option.or_none]
  | some page =>
    rw [register_of_known hpage]
    cases registered <;> rfl

theorem register_fst_eq_ok_iff {registered : Option CodePage} {label : Option String}
    {page : CodePage} :
    (register registered label).1 = .ok page ↔
      pageOf? label = some page ∧ (registered = none ∨ registered = some page) := by
  cases hpage : pageOf? label with
  | none => simp [register_of_unknown hpage]
  | some asked =>
    rw [register_of_known hpage]
    cases registered with
    | none => simp
    | some first =>
      by_cases hsame : first = asked
      · simp [hsame]
      · simp only [Option.getD_some, hsame, if_false, reduceCtorEq, false_or, Option.some.injEq,
          false_iff, not_and]
        rintro rfl hfirst
        exact hsame hfirst

theorem register_fst_eq_unsupported_iff {registered : Option CodePage} {label : Option String}
    {text : String} :
    (register registered label).1 = .error (.unsupported text) ↔
      pageOf? label = none ∧ text = label.getD defaultLabel := by
  cases hpage : pageOf? label with
  | none => simp [register_of_unknown hpage, eq_comm]
  | some asked =>
    rw [register_of_known hpage]
    by_cases hsame : registered.getD asked = asked <;> simp [hsame]

theorem register_fst_eq_alreadyRegistered_iff {registered : Option CodePage}
    {label : Option String} {name : String} :
    (register registered label).1 = .error (.alreadyRegistered name) ↔
      ∃ first page, registered = some first ∧ pageOf? label = some page ∧ page ≠ first ∧
        name = first.name := by
  cases hpage : pageOf? label with
  | none => simp [register_of_unknown hpage]
  | some asked =>
    rw [register_of_known hpage]
    cases registered with
    | none => simp
    | some first =>
      by_cases hsame : first = asked
      · simp [hsame]
      · simp [hsame, eq_comm, Ne.symm hsame]

/-- A call that fails changes nothing. -/
theorem register_snd_of_error {registered : Option CodePage} {label : Option String}
    {e : RegistrationError} (h : (register registered label).1 = .error e) :
    (register registered label).2 = registered := by
  rw [register_snd]
  cases e with
  | unsupported text =>
    rw [(register_fst_eq_unsupported_iff.mp h).1, Option.or_none]
  | alreadyRegistered name =>
    obtain ⟨first, page, rfl, -⟩ := register_fst_eq_alreadyRegistered_iff.mp h
    rfl

/-! ## §2 Many calls -/

/-- What is registered after some calls. -/
def registeredAfter (registered : Option CodePage) (calls : List (Option String)) :
    Option CodePage :=
  calls.foldl (fun registered label => (register registered label).2) registered

theorem registeredAfter_append (registered : Option CodePage) (before after : List (Option String)) :
    registeredAfter registered (before ++ after) =
      registeredAfter (registeredAfter registered before) after :=
  List.foldl_append

/-- The page that was registered before the calls, or else that of the first call that asks
for one. -/
theorem registeredAfter_eq (registered : Option CodePage) (calls : List (Option String)) :
    registeredAfter registered calls = registered.or (calls.findSome? pageOf?) := by
  induction calls generalizing registered with
  | nil => simp [registeredAfter]
  | cons label rest ih =>
    have hcons : registeredAfter registered (label :: rest) =
        registeredAfter (register registered label).2 rest := List.foldl_cons
    rw [hcons, ih, register_snd, Option.or_assoc, List.findSome?_cons]
    cases pageOf? label <;> rfl

/-! ## §3 A process -/

/-- What a process makes of the calls it has done, and of what comes after them. -/
structure WriteOnce (calls : List (Option String)) : Prop where
  /-- Until a label names a page, it is Windows-1252. -/
  unregistered : (∀ label ∈ calls, pageOf? label = none) →
    inUse (registeredAfter none calls) = windows1252
  /-- From the first call whose label names a page on, it is this page. -/
  registered : ∀ (before after : List (Option String)) (label : Option String) (page : CodePage),
    calls = before ++ label :: after → (∀ earlier ∈ before, pageOf? earlier = none) →
    pageOf? label = some page → inUse (registeredAfter none calls) = page
  /-- A call succeeds if its label names a page, and no call before it has registered another. -/
  succeeds : ∀ (label : Option String) (page : CodePage),
    (register (registeredAfter none calls) label).1 = .ok page ↔
      pageOf? label = some page ∧ (calls.findSome? pageOf? = none ∨ calls.findSome? pageOf? = some page)
  /-- It fails with its label if this names no page. -/
  unsupported : ∀ (label : Option String) (text : String),
    (register (registeredAfter none calls) label).1 = .error (.unsupported text) ↔
      pageOf? label = none ∧ text = label.getD defaultLabel
  /-- It fails with the name of the registered page if its label names another one. -/
  alreadyRegistered : ∀ (label : Option String) (name : String),
    (register (registeredAfter none calls) label).1 = .error (.alreadyRegistered name) ↔
      ∃ first page, calls.findSome? pageOf? = some first ∧ pageOf? label = some page ∧
        page ≠ first ∧ name = first.name
  /-- A call that fails leaves the state as it was. -/
  unchanged : ∀ (label : Option String) (e : RegistrationError),
    (register (registeredAfter none calls) label).1 = .error e →
    (register (registeredAfter none calls) label).2 = registeredAfter none calls
  /-- Further calls change the page in use only if no call has registered one yet, and the first
  of them that registers one registers another than Windows-1252. -/
  stable : ∀ between : List (Option String),
    inUse (registeredAfter none (calls ++ between)) = inUse (registeredAfter none calls) ↔
      ((∃ label ∈ calls, pageOf? label ≠ none) ∨
        ∀ page, between.findSome? pageOf? = some page → page = windows1252)
  /-- Once a page is registered, a file that was read is written as it was, whatever calls come
  between. -/
  rewrites : (∃ label ∈ calls, pageOf? label ≠ none) →
    ∀ (between : List (Option String)) (octets : List UInt8) (text : List Char),
      Encoding.legacy.decode (inUse (registeredAfter none calls)) octets = .ok text →
      Encoding.legacy.encode (inUse (registeredAfter none (calls ++ between))) text = .ok octets

theorem inUse_registeredAfter_append_iff (calls between : List (Option String)) :
    inUse (registeredAfter none (calls ++ between)) = inUse (registeredAfter none calls) ↔
      ((∃ label ∈ calls, pageOf? label ≠ none) ∨
        ∀ page, between.findSome? pageOf? = some page → page = windows1252) := by
  rw [registeredAfter_append, registeredAfter_eq _ between, registeredAfter_eq none calls,
    Option.none_or]
  cases hcalls : calls.findSome? pageOf? with
  | some first =>
    obtain ⟨label, hlabel, hpage⟩ := List.exists_of_findSome?_eq_some hcalls
    have hasked : pageOf? label ≠ none := by simp [hpage]
    exact iff_of_true rfl (.inl ⟨label, hlabel, hasked⟩)
  | none =>
    have hnone : ¬ ∃ label ∈ calls, pageOf? label ≠ none := by
      rintro ⟨label, hlabel, hasked⟩
      exact hasked (List.findSome?_eq_none_iff.mp hcalls label hlabel)
    rw [or_iff_right hnone]
    cases between.findSome? pageOf? <;> simp [inUse]

/-- The legacy code page of a process is written once: by the first call that names a page. -/
theorem writeOnce (calls : List (Option String)) : WriteOnce calls where
  unregistered h := by
    rw [registeredAfter_eq, List.findSome?_eq_none_iff.mpr h]
    rfl
  registered before after label page hcalls hbefore hpage := by
    have hfirst : calls.findSome? pageOf? = some page := by
      rw [hcalls, List.findSome?_append, List.findSome?_eq_none_iff.mpr hbefore, List.findSome?_cons,
        hpage]
      rfl
    rw [registeredAfter_eq, hfirst]
    rfl
  succeeds label page := by
    rw [register_fst_eq_ok_iff, registeredAfter_eq, Option.none_or]
  unsupported label text := register_fst_eq_unsupported_iff
  alreadyRegistered label name := by
    rw [register_fst_eq_alreadyRegistered_iff, registeredAfter_eq, Option.none_or]
  unchanged label e h := register_snd_of_error h
  stable between := inUse_registeredAfter_append_iff calls between
  rewrites h between octets text hread := by
    have hbom : Encoding.legacy.bom <+: octets := List.nil_prefix
    rw [(inUse_registeredAfter_append_iff calls between).mpr (.inl h)]
    exact (Encoding.decode_eq_ok_iff_encode (by decide) hbom).mp hread

/-- A file that is read before any page is registered need not be written in the page it was
read in: a letter of Windows-1252 has no octet in ISO-8859-5. -/
theorem inUse_changes_if_unregistered :
    inUse (registeredAfter none [some "utf-8"]) = windows1252 ∧
    Encoding.legacy.decode windows1252 [0xE4] = .ok ['ä'] ∧
    inUse (registeredAfter none ([some "utf-8"] ++ [some "iso-8859-5"])) = iso8859_5 ∧
    Encoding.legacy.encode iso8859_5 ['ä'] = .error ⟨.legacy, 'ä'⟩ := by
  have hdecode : Encoding.legacy.decode windows1252 [0xE4] = .ok ['ä'] := by cbv
  have hencode : Encoding.legacy.encode iso8859_5 ['ä'] = .error ⟨.legacy, 'ä'⟩ := by cbv
  have hunknown : pageOf? (some "utf-8") = none := by cbv
  have hknown : pageOf? (some "iso-8859-5") = some iso8859_5 := by cbv
  have hread : inUse (registeredAfter none [some "utf-8"]) = windows1252 := by
    rw [registeredAfter_eq]
    simp [hunknown, inUse]
  have hwritten : inUse (registeredAfter none ([some "utf-8"] ++ [some "iso-8859-5"])) =
      iso8859_5 := by
    rw [registeredAfter_eq]
    simp [hunknown, hknown, inUse]
  exact ⟨hread, hdecode, hwritten, hencode⟩

end MarkerBlock.CodePage
