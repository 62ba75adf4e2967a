/-! # How a computation ends

A computation that may fail ends well when its result has a property, or its
failure is one of those allowed. The rules follow the steps of the computation,
so that neither is looked at on the way.
-/

namespace Orbot.Lib

universe u v

variable {ε : Type u} {α β : Type v} {allowed : ε → Prop} {post : α → Prop} {post' : β → Prop}

def Ends (allowed : ε → Prop) (post : α → Prop) : Except ε α → Prop
  | .ok a => post a
  | .error e => allowed e

theorem Ends.ok {a : α} (holds : post a) : Ends allowed post (.ok a) := holds

theorem Ends.error {e : ε} (may : allowed e) : Ends allowed post (.error e) := may

theorem Ends.mono {x : Except ε α} {weaker : α → Prop} (ends : Ends allowed post x)
    (implies : ∀ a, post a → weaker a) : Ends allowed weaker x := by
  cases x with
  | ok a => exact implies a ends
  | error e => exact ends

theorem Ends.bind {x : Except ε α} {f : α → Except ε β} (first : Ends allowed post x)
    (then' : ∀ a, post a → Ends allowed post' (f a)) : Ends allowed post' (x >>= f) := by
  cases x with
  | ok a => exact then' a first
  | error e => exact first

theorem Ends.ite {c : Prop} [Decidable c] {x y : Except ε α} (yes : c → Ends allowed post x)
    (no : ¬c → Ends allowed post y) : Ends allowed post (if c then x else y) := by
  split
  next holds => exact yes holds
  next fails => exact no fails

theorem Ends.of_ok {x : Except ε α} {a : α} (ends : Ends allowed post x) (result : x = .ok a) :
    post a := by
  rw [result] at ends
  exact ends

theorem Ends.of_error {x : Except ε α} {e : ε} (ends : Ends allowed post x)
    (failure : x = .error e) : allowed e := by
  rw [failure] at ends
  exact ends

end Orbot.Lib
