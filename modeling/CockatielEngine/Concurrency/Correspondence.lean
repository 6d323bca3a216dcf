import Mathlib.Data.List.Infix

/-!
# Correspondence: what each event of a log follows from

A log lists events, the latest first.  It is founded when each event is
justified by the events before it; a run that only ever adds justified events
keeps its log founded, and the justification of any event of the log can then be
read off its past.
-/

namespace CockatielEngine

universe u

variable {α : Type u} {J : List α → α → Prop} {log past : List α} {ev : α}

/-- Every event of the log is justified by its past. -/
def Founded (J : List α → α → Prop) : List α → Prop
  | [] => True
  | ev :: past => J past ev ∧ Founded J past

namespace Founded

/-- The past of an event is founded and justifies it. -/
theorem justified
    (h : Founded J log)
    (hev : ev :: past <:+ log) :
    J past ev ∧ Founded J past := by
  induction log with
  | nil => simp at hev
  | cons e log ih =>
      rcases List.suffix_cons_iff.mp hev with heq | hlater
      · obtain ⟨rfl, rfl⟩ := List.cons.inj heq
        exact h
      · exact ih h.2 hlater

/-- An event of the log has a justification within the log. -/
theorem of_mem
    (h : Founded J log)
    (hev : ev ∈ log) :
    ∃ past, ev :: past <:+ log ∧ J past ev ∧ Founded J past := by
  obtain ⟨later, past, rfl⟩ := List.mem_iff_append.mp hev
  have hsuffix : ev :: past <:+ later ++ ev :: past := List.suffix_append ..
  exact ⟨past, hsuffix, h.justified hsuffix⟩

end Founded
end CockatielEngine
