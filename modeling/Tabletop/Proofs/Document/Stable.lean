import Tabletop.Proofs.Document.Json
import Tabletop.Proofs.Document.Normal
import Tabletop.Proofs.RuleSet.Numbers

/-!
# Saved texts are stable

A rule set that was loaded from a text and is saved again gives a text that loads to the same rule
set, and saving that gives the same text. Two things have to be allowed for. A negative zero is
written as the integer zero and comes back as zero (`RuleSet.plain`). And reading by scaling may
miss a fraction by a rounding; the fractions of the rule set are assumed to be read back
(`Number.ReadsBack`).
-/

namespace Tabletop

namespace RuleSet

variable {t : String} {d : Document} {w : RuleSet}

/-- The rule set with every negative zero replaced by zero. -/
def plain (w : RuleSet) : RuleSet := w.mapNumbers Number.plain

theorem isFinite_plain {x : Number} (h : x.isFinite = true) : x.plain.isFinite = true := by
  rw [Number.plain]
  split
  · exact Number.isFinite_ofMagnitudeBits (by decide)
  · exact h

/-- Changing the sign of zeros does not give an event progress, and keeps a rule set at rest. -/
theorem AtRest.build_document_plain (h : w.AtRest) (hfresh : w.Fresh) :
    w.plain.document.build = .ok w.plain := by
  have hrest : w.plain.AtRest := ⟨h.sound.mapNumbers fun _ ↦ isFinite_plain, h.idle⟩
  refine hrest.build_document (List.forall_mem_map.mpr fun e he ↦ ?_)
  exact congrArg (Event.mapNumbers Number.plain) (hfresh e he)

/-- **Saved texts are stable.** A rule set that was loaded from a text is saved as a text that loads
to the same rule set, up to the sign of zeros, and that rule set is saved as the same text. -/
theorem saved_text_stable (hd : Document.ofText t = .ok d) (hw : d.build = .ok w)
    (hreads : ∀ x ∈ w.document.numbers, x.ReadsBack) :
    ∃ d', Document.ofText w.document.print = .ok d' ∧ d'.build = .ok w.plain ∧
      w.plain.document.print = w.document.print := by
  have hnumbers : w.document.numbers = d.numbers := by
    rw [Document.document_of_build hw, Document.numbers_normal]
  have hkept : ∀ x ∈ w.document.numbers, x.IsKept := fun x hx ↦
    (hreads x hx).isKept (Document.isFinite_of_ofText hd x (hnumbers ▸ hx))
  have hplain : w.plain.document = w.document.mapNumbers Number.plain :=
    w.document_mapNumbers Number.plain
  refine ⟨w.plain.document, ?_, ?_, ?_⟩
  · rw [hplain]
    exact Document.ofText_print hkept
  · exact (Document.atRest_of_build hw).build_document_plain (Document.fresh_of_build hw)
  · rw [hplain, Document.print_plain]

/-- A cottage whose text uses what is not written again: records as arrays, a condition on `self`, a
kind of a slot that is not the one of its attribute, a negative zero, and an action named twice. -/
def cottage : String :=
  "[\"cottage\", [[\"purse\", \"num\"]], " ++
    "[[\"tip\", [[\"purse\", \"st\", \"+\", 2.5, [\"purse\", \"self\", \"<\", 10]]]]], " ++
    "[[\"Ann\", [[\"purse\", \"percent\", -0]], [\"tip\", \"tip\"]]]]"

theorem saved_text_stable_cottage : ∃ d w, (Document.ofText cottage = .ok d ∧ d.build = .ok w ∧
      ∀ x ∈ w.document.numbers, x.ReadsBack) ∧
    ∃ d', Document.ofText w.document.print = .ok d' ∧ d'.build = .ok w.plain ∧
      w.plain.document.print = w.document.print := by
  -- the text is evaluated once, up to the fractions of what it builds
  have hrun : (match Document.ofText cottage with
      | .ok d => match d.build with
        | .ok w => w.document.numbers.all fun x ↦ x.document.scaled? = some x
        | .error _ => false
      | .error _ => false) = true := by decide +kernel
  cases hd : Document.ofText cottage with
  | error e =>
    rw [hd] at hrun
    exact absurd hrun Bool.false_ne_true
  | ok d =>
    rw [hd] at hrun
    dsimp only at hrun
    cases hw : d.build with
    | error e =>
      rw [hw] at hrun
      exact absurd hrun Bool.false_ne_true
    | ok w =>
      rw [hw] at hrun
      have hreads : ∀ x ∈ w.document.numbers, x.ReadsBack := fun x hx _ ↦
        of_decide_eq_true (List.all_eq_true.mp hrun x hx)
      exact ⟨d, w, ⟨rfl, hw, hreads⟩, saved_text_stable hd hw hreads⟩

end RuleSet

end Tabletop
