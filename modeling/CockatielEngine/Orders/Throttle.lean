import Mathlib.Data.List.Pairwise
import Mathlib.Tactic

/-!
# Orders: events that are kept apart

Something that may be done again only when a given time has passed since it was
last done.  The time is looked at before it is done and stamped when it is, so
that it may be later than the look.
-/

namespace CockatielEngine

/-- Each time is at least so much later than every one before it. -/
def Spaced (interval : Int) (times : List Int) : Prop :=
  times.Pairwise fun t t' => t + interval ≤ t'

/-- It has not been done yet, or long enough ago. -/
def isDue (interval : Int) (last : Option Int) (now : Int) : Bool :=
  last.all fun t => decide (t + interval ≤ now)

namespace Spaced

variable {interval : Int} {times : List Int} {now stamp : Int}

theorem nil : Spaced interval [] := List.Pairwise.nil

/-- Doing it when it is due keeps the times apart. -/
theorem concat
    (h : Spaced interval times)
    (hinterval : 0 ≤ interval)
    (hdue : isDue interval times.getLast? now = true)
    (hstamp : now ≤ stamp) :
    Spaced interval (times ++ [stamp]) := by
  refine List.pairwise_append.mpr ⟨h, List.pairwise_singleton _ _, ?_⟩
  intro t ht stamp' hstamp'
  obtain rfl := List.mem_singleton.mp hstamp'
  induction times using List.reverseRecOn with
  | nil => cases ht
  | append_singleton times last _ =>
      have hlast : last + interval ≤ now := by
        simpa [isDue] using hdue
      rcases List.mem_append.mp ht with ht | ht
      · have := (List.pairwise_append.mp h).2.2 t ht last (List.mem_singleton_self _)
        omega
      · obtain rfl := List.mem_singleton.mp ht
        omega

end Spaced
end CockatielEngine
