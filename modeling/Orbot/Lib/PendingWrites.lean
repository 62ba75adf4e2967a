import Orbot.Lib.LastMatch
import Orbot.Lib.Transition

/-! # Writers that overtake each other

Each of several writers has a list of writes to make in its order; between
writers there is no order. `read` is the value a write gives to the setting in
question, and of all writes that were received the last such value counts.
-/

namespace Orbot.Lib.PendingWrites

open LastMatch Transition

structure Pool (W : Type) where
  /-- what each writer has yet to write -/
  pending : List (List W) := []
  received : List W := []
  deriving Repr, DecidableEq

namespace Pool

variable {W V : Type} (read : W → Option V) (v : V)

def spawn (pool : Pool W) (writes : List W) : Pool W :=
  { pool with pending := pool.pending ++ [writes] }

/-- The next write of a writer, and what it has yet to write then. -/
def next (pool : Pool W) (i : Nat) : Option (W × List W) :=
  match pool.pending[i]? with
  | some (write :: rest) => some (write, rest)
  | _ => none

def send (pool : Pool W) (i : Nat) : Option (Pool W) :=
  (pool.next i).map fun step =>
    { pending := pool.pending.set i step.2, received := pool.received ++ [step.1] }

/-- All writers are through. -/
def Quiescent (pool : Pool W) : Prop := ∀ writer ∈ pool.pending, writer = []

/-- A writer is going to end with the value. -/
def EndsWith (pool : Pool W) : Prop := ∃ writer ∈ pool.pending, setting read writer = some v

/-- The value is there, or may yet come. -/
def Settles (pool : Pool W) : Prop :=
  setting read pool.received = some v ∨ pool.EndsWith read v

/-- Where another value is sent, a writer is left that is going to end with this
    one. -/
def Covered (pool : Pool W) (i : Nat) : Prop :=
  ∀ step ∈ pool.next i, ∀ value ∈ read step.1, value ≠ v →
    ∃ writer ∈ pool.pending.set i step.2, setting read writer = some v

/-- Another value is there or will be, and this one cannot come any more. -/
structure Lost (pool : Pool W) : Prop where
  pending : ∀ writer ∈ pool.pending, setting read writer ≠ some v
  other : setting read pool.received ≠ some v ∨
    ∃ writer ∈ pool.pending, setting read writer ≠ none

instance (pool : Pool W) : Decidable pool.Quiescent :=
  decidable_of_iff (∀ writer ∈ pool.pending, writer.isEmpty = true)
    (forall₂_congr fun _ _ => List.isEmpty_iff)

instance [DecidableEq V] (pool : Pool W) (i : Nat) : Decidable (pool.Covered read v i) :=
  inferInstanceAs (Decidable (∀ step ∈ pool.next i, ∀ value ∈ read step.1, value ≠ v →
    ∃ writer ∈ pool.pending.set i step.2, setting read writer = some v))

/-! ## What a write changes -/

theorem next_eq_some {pool : Pool W} {i : Nat} {write : W} {rest : List W} :
    pool.next i = some (write, rest) ↔ pool.pending[i]? = some (write :: rest) := by
  unfold next
  split
  next write' rest' found => simp [found]
  next other =>
    apply iff_of_false (by simp)
    intro found
    exact other write rest found

theorem send_eq_some {pool pool' : Pool W} {i : Nat} :
    pool.send i = some pool' ↔ ∃ write rest, pool.pending[i]? = some (write :: rest) ∧
      pool' = { pending := pool.pending.set i rest, received := pool.received ++ [write] } := by
  constructor
  · intro sent
    obtain ⟨⟨write, rest⟩, found, same⟩ := Option.map_eq_some_iff.mp sent
    exact ⟨write, rest, next_eq_some.mp found, same.symm⟩
  · rintro ⟨write, rest, found, rfl⟩
    rw [send, next_eq_some.mpr found, Option.map_some]

theorem setting_cons (write : W) (rest : List W) :
    setting read (write :: rest) = (setting read rest).or (read write) := by
  rw [← List.singleton_append, setting_append, setting_singleton]

/-- The other writers are as they were. -/
theorem mem_set_of_mem {writers : List (List W)} {writer : List W} (member : writer ∈ writers)
    (i : Nat) (rest : List W) : writers[i]? = some writer ∨ writer ∈ writers.set i rest := by
  obtain ⟨j, found⟩ := List.mem_iff_getElem?.mp member
  by_cases same : i = j
  · subst same
    exact .inl found
  · exact .inr (List.mem_iff_getElem?.mpr ⟨j, by rw [List.getElem?_set_ne same, found]⟩)

theorem mem_set_self {writers : List (List W)} {writer : List W} {i : Nat}
    (found : writers[i]? = some writer) (rest : List W) : rest ∈ writers.set i rest := by
  obtain ⟨inside, -⟩ := List.getElem?_eq_some_iff.mp found
  exact List.mem_set inside rest

variable {read v} {pool pool' : Pool W} {i : Nat}

/-! ## The value comes -/

theorem Settles.spawn (settles : pool.Settles read v) (writes : List W) :
    (pool.spawn writes).Settles read v := by
  rcases settles with there | ⟨writer, member, ends⟩
  · exact .inl there
  · exact .inr ⟨writer, List.mem_append_left _ member, ends⟩

theorem settles_spawn {writes : List W} (ends : setting read writes = some v) (pool : Pool W) :
    (pool.spawn writes).Settles read v :=
  .inr ⟨writes, List.mem_append_right _ (List.mem_singleton_self _), ends⟩

/-- A write keeps this up if it is not the last word of another value. -/
theorem Settles.send (settles : pool.Settles read v) (covered : pool.Covered read v i)
    (sent : pool.send i = some pool') : pool'.Settles read v := by
  obtain ⟨write, rest, found, rfl⟩ := send_eq_some.mp sent
  have received : setting read (pool.received ++ [write]) =
      (read write).or (setting read pool.received) := by
    rw [setting_append, setting_singleton]
  cases value : read write with
  | none =>
      rcases settles with there | ⟨writer, member, ends⟩
      · exact .inl (by rw [received, value, Option.none_or, there])
      · rcases mem_set_of_mem member i rest with same | other
        · obtain rfl := Option.some.inj (found.symm.trans same)
          rw [setting_cons, value, Option.or_none] at ends
          exact .inr ⟨rest, mem_set_self found rest, ends⟩
        · exact .inr ⟨writer, other, ends⟩
  | some value' =>
      by_cases right : value' = v
      · exact .inl (by rw [received, value, Option.some_or, right])
      · exact .inr (covered _ (next_eq_some.mpr found) value' value right)

theorem Settles.quiescent (settles : pool.Settles read v) (quiescent : pool.Quiescent) :
    setting read pool.received = some v := by
  rcases settles with there | ⟨writer, member, ends⟩
  · exact there
  · rw [quiescent writer member] at ends
    cases ends

/-! ## The value is lost -/

theorem lost_of_not_covered (uncovered : ¬ pool.Covered read v i)
    (sent : pool.send i = some pool') : pool'.Lost read v := by
  obtain ⟨write, rest, found, rfl⟩ := send_eq_some.mp sent
  unfold Covered at uncovered
  push Not at uncovered
  obtain ⟨⟨write', rest'⟩, isNext, value, isValue, wrong, nobody⟩ := uncovered
  obtain ⟨rfl, rfl⟩ :=
    Prod.mk.inj (Option.some.inj ((next_eq_some.mpr found).symm.trans isNext))
  refine ⟨nobody, .inl ?_⟩
  rw [setting_append, setting_singleton, Option.mem_def.mp isValue, Option.some_or]
  exact fun same => wrong (Option.some.inj same)

theorem Lost.send (lost : pool.Lost read v) (sent : pool.send i = some pool') :
    pool'.Lost read v := by
  obtain ⟨write, rest, found, rfl⟩ := send_eq_some.mp sent
  have own : setting read (write :: rest) ≠ some v := lost.pending _ (List.mem_of_getElem? found)
  rw [setting_cons] at own
  have restNot : setting read rest ≠ some v := by
    intro ends
    rw [ends, Option.some_or] at own
    exact own rfl
  constructor
  case pending =>
    intro writer member
    rcases List.mem_or_eq_of_mem_set member with old | rfl
    · exact lost.pending writer old
    · exact restNot
  case other =>
    -- the writer has another value to come, or its last one was received just now
    cases later : setting read rest with
    | some value => exact .inr ⟨rest, mem_set_self found rest, by simp [later]⟩
    | none =>
        rw [later, Option.none_or] at own
        simp only [setting_append, setting_singleton]
        cases value : read write with
        | some value' =>
            rw [value] at own
            exact .inl (by rwa [Option.some_or])
        | none =>
            rw [Option.none_or]
            apply lost.other.imp_right
            rintro ⟨writer, member, ends⟩
            rcases mem_set_of_mem member i rest with same | other
            · obtain rfl := Option.some.inj (found.symm.trans same)
              rw [setting_cons, later, value] at ends
              exact absurd rfl ends
            · exact ⟨writer, other, ends⟩

theorem Lost.quiescent (lost : pool.Lost read v) (quiescent : pool.Quiescent) :
    setting read pool.received ≠ some v := by
  apply lost.other.resolve_right
  rintro ⟨writer, member, ends⟩
  rw [quiescent writer member] at ends
  exact ends rfl

/-- However the writers go on, another value is there in the end. -/
theorem Lost.forever (lost : pool.Lost read v) (sends : Reachable Pool.send pool pool')
    (quiescent : pool'.Quiescent) : setting read pool'.received ≠ some v := by
  have stays := sends.invariant lost fun _ _ _ lost _ sent => lost.send sent
  exact stays.quiescent quiescent

/-- The writers can always get through. -/
theorem exists_quiescent (pool : Pool W) :
    ∃ pool', Reachable Pool.send pool pool' ∧ pool'.Quiescent := by
  induction total : (pool.pending.map List.length).sum using Nat.strongRecOn
    generalizing pool with
  | ind left ih =>
      by_cases quiescent : pool.Quiescent
      · exact ⟨pool, .here, quiescent⟩
      · unfold Quiescent at quiescent
        push Not at quiescent
        obtain ⟨writer, member, busy⟩ := quiescent
        obtain ⟨write, rest, rfl⟩ := List.exists_cons_of_ne_nil busy
        obtain ⟨before, after, split⟩ := List.append_of_mem member
        have found : pool.pending[before.length]? = some (write :: rest) := by simp [split]
        have sent := send_eq_some.mpr ⟨write, rest, found, rfl⟩
        have fewer : ((pool.pending.set before.length rest).map List.length).sum < left := by
          rw [← total, split]
          simp
        obtain ⟨pool', later, through⟩ := ih _ fewer
          { pending := pool.pending.set before.length rest, received := pool.received ++ [write] }
          rfl
        exact ⟨pool', (Reaches.here.next trivial sent).trans later, through⟩

end Pool

end Orbot.Lib.PendingWrites
