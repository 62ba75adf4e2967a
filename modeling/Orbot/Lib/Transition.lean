import Mathlib.Data.Option.Basic

/-! # Partial transition systems

A system is a partial step function: `step s a` is the state after action `a`,
or `none` when `a` is not enabled in `s`. A side condition `ok` on a state and
the action taken in it restricts the runs under consideration; `Reaches` are
the states reached by runs all of whose steps meet it.
-/

namespace Orbot.Lib.Transition

variable {S A : Type}

/-- States reached from `start` by enabled steps that each meet `ok`. -/
inductive Reaches (step : S → A → Option S) (ok : S → A → Prop) (start : S) : S → Prop where
  | here : Reaches step ok start start
  | next {s s' : S} {a : A} : Reaches step ok start s → ok s a → step s a = some s' →
      Reaches step ok start s'

/-- Reachability with no side condition on the steps. -/
abbrev Reachable (step : S → A → Option S) (start : S) : S → Prop :=
  Reaches step (fun _ _ => True) start

namespace Reaches

variable {step : S → A → Option S} {ok : S → A → Prop} {start s s' : S}

/-- The invariant rule: what holds at the start and is kept by every step that
    meets the side condition holds in every state reached. -/
theorem invariant {Inv : S → Prop} (initial : Inv start)
    (keep : ∀ s a s', Inv s → ok s a → step s a = some s' → Inv s')
    (reached : Reaches step ok start s) : Inv s := by
  induction reached with
  | here => exact initial
  | next _ allowed taken ih => exact keep _ _ _ ih allowed taken

theorem trans (first : Reaches step ok start s) (second : Reaches step ok s s') :
    Reaches step ok start s' := by
  induction second with
  | here => exact first
  | next _ allowed taken ih => exact ih.next allowed taken

/-- A side condition may be traded for another one that follows from it in the
    states that are reached. -/
theorem imp {ok' : S → A → Prop}
    (weaken : ∀ s a, Reaches step ok start s → ok s a → ok' s a)
    (reached : Reaches step ok start s) : Reaches step ok' start s := by
  induction reached with
  | here => exact .here
  | next before allowed taken ih => exact ih.next (weaken _ _ before allowed) taken

end Reaches

/-- Take a list of actions in order; `none` as soon as one is not enabled. -/
def run (step : S → A → Option S) : S → List A → Option S
  | s, [] => some s
  | s, a :: rest => (step s a).bind fun s' => run step s' rest

/-- The system in which an action that breaks `ok` is not enabled. -/
def guarded (step : S → A → Option S) (ok : S → A → Prop) [∀ s a, Decidable (ok s a)]
    (s : S) (a : A) : Option S :=
  if ok s a then step s a else none

/-- An executed run of the guarded system reaches its last state. -/
theorem reaches_of_run {step : S → A → Option S} {ok : S → A → Prop}
    [∀ s a, Decidable (ok s a)] {s s' : S} (actions : List A)
    (executed : run (guarded step ok) s actions = some s') : Reaches step ok s s' := by
  induction actions generalizing s with
  | nil =>
      obtain rfl : s = s' := by simpa only [run, Option.some.injEq] using executed
      exact .here
  | cons a rest ih =>
      simp only [run, guarded] at executed
      obtain ⟨mid, taken, remaining⟩ := Option.bind_eq_some_iff.mp executed
      by_cases allowed : ok s a
      · rw [if_pos allowed] at taken
        exact (Reaches.here.next allowed taken).trans (ih remaining)
      · simp [allowed] at taken

/-- Without a side condition every executed run counts. -/
theorem reachable_of_run {step : S → A → Option S} {s s' : S} (actions : List A)
    (executed : run step s actions = some s') : Reachable step s s' := by
  induction actions generalizing s with
  | nil =>
      obtain rfl : s = s' := by simpa only [run, Option.some.injEq] using executed
      exact .here
  | cons a rest ih =>
      obtain ⟨mid, taken, remaining⟩ := Option.bind_eq_some_iff.mp executed
      exact (Reaches.here.next trivial taken).trans (ih remaining)

end Orbot.Lib.Transition
