import Mathlib.Data.List.Nodup
import Mathlib.Logic.Function.Basic

/-! # Files written one after another

A file is created empty and then grows item by item. A list of files is written
in its order, and writing may break off after any number of operations: what is
there then tells how far it got.
-/

namespace Orbot.Lib.Writes

variable {F B : Type}

/-- What the files hold; `none` where there is no such file. -/
abbrev Store (F B : Type) := F → Option (List B)

inductive Op (F B : Type) where
  | create (file : F)
  | append (file : F) (item : B)

def Op.file : Op F B → F
  | .create file => file
  | .append file _ => file

def writeFile (file : F) (items : List B) : List (Op F B) := .create file :: items.map (.append file)

def writeFiles (files : List (F × List B)) : List (Op F B) :=
  files.flatMap fun file => writeFile file.1 file.2

theorem writeFiles_append (files later : List (F × List B)) :
    writeFiles (files ++ later) = writeFiles files ++ writeFiles later :=
  List.flatMap_append

theorem writeFiles_cons (file : F × List B) (files : List (F × List B)) :
    writeFiles (file :: files) = writeFile file.1 file.2 ++ writeFiles files :=
  List.flatMap_cons

theorem file_of_mem_writeFile {file : F} {items : List B} {op : Op F B}
    (member : op ∈ writeFile file items) : op.file = file := by
  rcases List.mem_cons.mp member with rfl | appended
  · rfl
  · obtain ⟨item, -, rfl⟩ := List.mem_map.mp appended
    rfl

theorem untouched {files : List (F × List B)} {file : F} (absent : file ∉ files.map Prod.fst) :
    ∀ op ∈ writeFiles files, op.file ≠ file := by
  intro op member same
  obtain ⟨written, listed, inside⟩ := List.mem_flatMap.mp member
  exact absent (List.mem_map.mpr ⟨written, listed, (file_of_mem_writeFile inside).symm.trans same⟩)

variable [DecidableEq F]

def Op.apply (store : Store F B) : Op F B → Store F B
  | .create file => Function.update store file (some [])
  | .append file item => Function.update store file ((store file).map (· ++ [item]))

def perform (ops : List (Op F B)) (store : Store F B) : Store F B := ops.foldl Op.apply store

/-! ## One file -/

theorem perform_append (ops later : List (Op F B)) (store : Store F B) :
    perform (ops ++ later) store = perform later (perform ops store) :=
  List.foldl_append

/-- Operations on other files leave a file alone. -/
theorem perform_untouched {ops : List (Op F B)} {file : F} (others : ∀ op ∈ ops, op.file ≠ file)
    (store : Store F B) : perform ops store file = store file := by
  induction ops generalizing store with
  | nil => rfl
  | cons op ops ih =>
      obtain ⟨other, rest⟩ := List.forall_mem_cons.mp others
      refine (ih rest (op.apply store)).trans ?_
      cases op <;> exact Function.update_of_ne other.symm _ _

theorem perform_appends (file : F) (items : List B) (store : Store F B) :
    perform (items.map (.append file)) store file = (store file).map (· ++ items) := by
  induction items generalizing store with
  | nil => simp [perform]
  | cons item items ih =>
      refine (ih ((Op.append file item).apply store)).trans ?_
      rw [Op.apply, Function.update_self, Option.map_map]
      simp only [Function.comp_def, List.append_assoc, List.singleton_append]

theorem perform_writeFile (file : F) (items : List B) (store : Store F B) :
    perform (writeFile file items) store file = some items := by
  refine (perform_appends file items ((Op.create file).apply store)).trans ?_
  rw [Op.apply, Function.update_self, Option.map_some, List.nil_append]

/-- A file that is there stays. -/
theorem isSome_perform (ops : List (Op F B)) {store : Store F B} {file : F}
    (there : (store file).isSome = true) : (perform ops store file).isSome = true := by
  induction ops generalizing store with
  | nil => exact there
  | cons op ops ih =>
      have still : (op.apply store file).isSome = true := by
        cases op with
        | create other | append other =>
            by_cases same : file = other
            · subst same
              simp [Op.apply, there]
            · simpa [Op.apply, Function.update_of_ne same] using there
      exact ih still

/-! ## Several files -/

/-- In the end every file is there in full. -/
theorem perform_writeFiles {files : List (F × List B)} (distinct : (files.map Prod.fst).Nodup)
    (store : Store F B) : ∀ file ∈ files, perform (writeFiles files) store file.1 = some file.2 := by
  induction files generalizing store with
  | nil => exact fun file none => absurd none List.not_mem_nil
  | cons first files ih =>
      obtain ⟨fresh, rest⟩ := List.nodup_cons.mp distinct
      intro file member
      rw [writeFiles_cons, perform_append]
      rcases List.mem_cons.mp member with rfl | later
      · rw [perform_untouched (untouched fresh), perform_writeFile]
      · exact ih rest _ file later

section Cut

variable {store : Store F B} (n : Nat)

/-- A file is there as soon as it was created. -/
theorem isSome_take_iff {before : List (F × List B)} {file : F} (items : List B)
    (later : List (F × List B)) (absent : file ∉ before.map Prod.fst) (missing : store file = none) :
    (perform ((writeFiles (before ++ (file, items) :: later)).take n) store file).isSome = true ↔
      (writeFiles before).length < n := by
  have untouchedBefore : ∀ op ∈ (writeFiles before).take n, op.file ≠ file :=
    fun op member => untouched absent op (List.mem_of_mem_take member)
  rw [writeFiles_append, writeFiles_cons, List.take_append, perform_append]
  by_cases created : (writeFiles before).length < n
  · obtain ⟨m, more⟩ := Nat.exists_eq_add_of_lt created
    have begins : (writeFile file items ++ writeFiles later).take (n - (writeFiles before).length) =
        .create file :: (items.map (Op.append file) ++ writeFiles later).take m := by
      have rest : n - (writeFiles before).length = m + 1 := by omega
      rw [rest]
      rfl
    rw [begins]
    apply iff_of_true _ created
    have there : ((Op.create file).apply (perform ((writeFiles before).take n) store) file).isSome =
        true := by
      rw [Op.apply, Function.update_self, Option.isSome_some]
    have kept := isSome_perform ((items.map (Op.append file) ++ writeFiles later).take m) there
    exact kept
  · have nothing : n - (writeFiles before).length = 0 := by omega
    rw [nothing, List.take_zero]
    refine iff_of_false ?_ created
    rw [perform, List.foldl_nil, perform_untouched untouchedBefore, missing]
    simp

/-- Everything is there in full only after the last operation. -/
theorem complete_take_iff {before : List (F × List B)} {file : F} {items : List B}
    (distinct : ((before ++ [(file, items)]).map Prod.fst).Nodup) (missing : store file = none) :
    (∀ written ∈ before ++ [(file, items)],
        perform ((writeFiles (before ++ [(file, items)])).take n) store written.1 =
          some written.2) ↔
      (writeFiles (before ++ [(file, items)])).length ≤ n := by
  constructor
  · intro full
    have last := full (file, items) (List.mem_append_right _ (List.mem_singleton_self _))
    have absent : file ∉ before.map Prod.fst := by
      rw [List.map_append, List.nodup_append] at distinct
      exact fun inside => distinct.2.2 file inside file (List.mem_singleton_self _) rfl
    have created : (writeFiles before).length < n := by
      apply (isSome_take_iff n items [] absent missing).mp
      rw [last, Option.isSome_some]
    -- the last file has as many items as were appended
    obtain ⟨m, more⟩ := Nat.exists_eq_add_of_lt created
    have cut : (writeFiles (before ++ [(file, items)])).take n =
        writeFiles before ++ (.create file :: (items.take m).map (.append file)) := by
      have rest : n - (writeFiles before).length = m + 1 := by omega
      rw [writeFiles_append, List.take_append, List.take_of_length_le (Nat.le_of_lt created), rest]
      simp [writeFiles, writeFile, List.map_take]
    have held : items.take m = items := by
      have content := perform_writeFile file (items.take m) (perform (writeFiles before) store)
      rw [cut, perform_append] at last
      exact Option.some.inj (content.symm.trans last)
    have enough : items.length ≤ m := by
      have length := congrArg List.length held
      rw [List.length_take] at length
      omega
    simp [writeFiles, writeFile] at more ⊢
    omega
  · intro all
    rw [List.take_of_length_le all]
    exact perform_writeFiles distinct store

end Cut

end Orbot.Lib.Writes
