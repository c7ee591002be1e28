import ContextDesk.Portable.Parse

/-!
# What an accepted bundle refers to

The references of an accepted bundle stay inside it. A composite target of an experiment may name a
trace that is not there: only the targets of imported traces are compared with the traces of an
experiment, where it lists any.
-/

namespace ContextDesk

open Lib Lib.Lineage List

variable {sha256 : List UInt8 → JsString} {inline : Bool} {bundle b : PortableInvestigation}

/-! ## Rows of the lists -/

theorem mem_zipIdx_of_mem {α : Type} {rows : List α} {row : α} (h : row ∈ rows) :
    ∃ i, (row, i) ∈ rows.zipIdx := by
  obtain ⟨i, hi⟩ := mem_iff_getElem?.mp h
  exact ⟨i, mem_zipIdx_iff_getElem?.mpr hi⟩

theorem contentOf_eq_some {contents : List PortableContent} {digest : JsString}
    {content : PortableContent} (h : contentOf contents digest = some content) :
    content ∈ contents ∧ content.digest = digest := by
  refine ⟨mem_reverse.mp (mem_of_find?_eq_some h), ?_⟩
  simpa using find?_some h

/-- Evidence names a content object, and withheld evidence one that is withheld. -/
def EvidenceInside (bundle : PortableInvestigation) : Prop :=
  ∀ row ∈ bundle.evidence, ∃ content ∈ bundle.contentObjects, content.digest = row.digest ∧
    (row.inclusion ≠ .present → Withheld content)

theorem validateContent_ok (h : validateContent sha256 inline bundle = .ok ()) :
    (∀ row ∈ bundle.contentObjects, isSha256Hex row.digest = true) ∧ EvidenceInside bundle := by
  simp only [validateContent, bind_ok, ensureAll_ok] at h
  obtain ⟨-, -, -, hcontent, hevidence⟩ := h
  refine ⟨fun row hrow => ?_, fun row hrow => ?_⟩
  · obtain ⟨i, hi⟩ := mem_zipIdx_of_mem hrow
    have hcheck := hcontent _ hi
    simp only [checkContent, requirePortableSha256, bind_ok, ensure_ok] at hcheck
    exact hcheck.choose_spec.1
  · obtain ⟨i, hi⟩ := mem_zipIdx_of_mem hrow
    have hcheck := hevidence _ hi
    simp only [checkEvidence, bind_ok, ensure_ok, require_ok] at hcheck
    obtain ⟨-, -, content, hfound, -, -, -, -, -, -, hwithheld⟩ := hcheck
    obtain ⟨hmem, hdigest⟩ := contentOf_eq_some hfound
    exact ⟨content, hmem, hdigest, hwithheld⟩

variable {i : Nat}

variable {targetId : JsString}

variable {id : JsString}

variable {snap : PortableSnapshot}

theorem parsePortableInvestigation_returns
    (h : parsePortableInvestigation sha256 inline bundle = .ok b) : b = bundle := by
  simp only [parsePortableInvestigation, bind_ok, pure_ok] at h
  obtain ⟨-, -, -, -, -, -, -, -, -, -, -, -, -, -, -, -, -, -, -, -, -, -, -, -, -, -, -, -, -, -, -,
    -, -, -, -, -, -, -, -, -, -, -, -, -, -, -, -, -, -, -, -, -, -, -, h⟩ := h
  exact h.symm

theorem parsePortableInvestigation_digests
    (h : parsePortableInvestigation sha256 inline bundle = .ok b) :
    ∀ row ∈ bundle.contentObjects, isSha256Hex row.digest = true := by
  simp only [parsePortableInvestigation, bind_ok] at h
  obtain ⟨⟨⟩, -, ⟨⟩, -, ⟨⟩, -, ⟨⟩, -, ⟨⟩, -, ⟨⟩, -, ⟨⟩, hcontent, -⟩ := h
  exact (validateContent_ok hcontent).1

end ContextDesk
