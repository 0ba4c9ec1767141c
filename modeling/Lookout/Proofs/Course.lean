import Lookout.Proofs.Steps

/-!
# Courses of an engine

A course is a run in which two more things may happen between any two steps.

- Stored triggers are loaded, for the first time or once more.
- The poll that is under way is cut short: it asks about no further key.

A run is a course (`Course.of_run`). The engine that `Engine.start` gives is a new one that has
loaded.
-/

namespace Lookout

/-- A run with the moments of its steps, in which triggers may be loaded and polls cut short. -/
inductive Course (s₀ : System) : List Moment → System → Prop
  | nil : Course s₀ [] s₀
  | step {past : List Moment} {s s' : System} {e : Event} (h : Course s₀ past s)
      (hs : Step s e s') : Course s₀ (past ++ [⟨s, e⟩]) s'
  | load {past : List Moment} {s : System} (h : Course s₀ past s) :
      Course s₀ past { s with engine := s.engine.load.2 }
  | cutShort {past : List Moment} {s : System} (h : Course s₀ past s) :
      Course s₀ past { s with asking := [] }

namespace Course

variable {s₀ s s' : System} {past rest history : List Moment}

theorem of_run (h : Run s₀ history s) : Course s₀ history s := by
  induction h with
  | nil => exact .nil
  | snoc _ hs ih => exact .step ih hs

theorem append (h : Course s₀ past s) (h' : Course s rest s') : Course s₀ (past ++ rest) s' := by
  induction h' with
  | nil =>
    rw [List.append_nil]
    exact h
  | step _ hs ih =>
    rw [← List.append_assoc]
    exact .step ih hs
  | load _ ih => exact .load ih
  | cutShort _ ih => exact .cutShort ih

end Course
end Lookout
