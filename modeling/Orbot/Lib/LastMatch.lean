import Mathlib.Data.List.Basic

/-! # The last setting counts

A text is a list of lines, some of which set an option; `read` is the value a
line sets it to. Of several such lines the last one counts.
-/

namespace Orbot.Lib.LastMatch

variable {L V : Type} (read : L → Option V)

/-- The value of the last line that sets the option. -/
def setting (lines : List L) : Option V := (lines.filterMap read).getLast?

@[simp] theorem setting_append (lines later : List L) :
    setting read (lines ++ later) = (setting read later).or (setting read lines) := by
  simp only [setting, List.filterMap_append, List.getLast?_append]

@[simp] theorem setting_singleton (line : L) : setting read [line] = read line := by
  cases value : read line with
  | none => simp [setting, value]
  | some v => simp [setting, value]

end Orbot.Lib.LastMatch
