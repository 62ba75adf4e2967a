import Orbot.Control.Decode

/-! # Keys without a value

A key alone is documented to reset an option. The loop of `setConf` appends
such a string as it should, but then goes on to cut it at the blank it has not
found.
-/

namespace Orbot.Control

open Java (Text RuntimeException)

/-- A string for `setConf(Collection)`: a key alone, or a key and a value. -/
inductive Setting where
  | bare (key : Text)
  | valued (key value : Text)
  deriving Repr, DecidableEq

namespace Setting

def kv : Setting → Text
  | bare key => key
  | valued key value => key ++ ' ' :: value

/-- What is to be sent for it. -/
def item : Setting → Text
  | bare key => ' ' :: key
  | valued key value => ' ' :: key ++ '=' :: quote value

/-- A key alone is not empty and has no blank, equals sign or quote; one with a
    value has no blank. -/
def HasKey : Setting → Prop
  | bare key => IsConfKey key
  | valued key _ => ' ' ∉ key

/-- The string has a value. -/
def IsValued : Setting → Prop
  | bare _ => False
  | valued _ _ => True

theorem setConfItem_bare {key : Text} (noBlank : ' ' ∉ key) :
    setConfItem key = .error .stringIndexOutOfBounds := by
  simp [setConfItem, Java.indexOf_of_not_mem noBlank, keyAndValue, Java.substring, bind,
    Except.bind]

theorem setConfItem_kv (setting : Setting) (hasKey : setting.HasKey) :
    (setting.IsValued ∧ setConfItem setting.kv = .ok setting.item) ∨
      ¬ setting.IsValued ∧ setConfItem setting.kv = .error .stringIndexOutOfBounds := by
  cases setting with
  | bare key => exact .inr ⟨id, setConfItem_bare hasKey.noBlank⟩
  | valued key value => exact .inl ⟨trivial, setConfItem_pair key value hasKey⟩

/-- The loop appends the items, unless there is a key alone: there it throws. -/
theorem appendItems_kv {settings : List Setting} (hasKeys : ∀ s ∈ settings, s.HasKey) :
    ((∀ s ∈ settings, s.IsValued) ∧
        appendItems setConfItem (settings.map kv) = .ok (settings.flatMap item)) ∨
      (¬ ∀ s ∈ settings, s.IsValued) ∧
        appendItems setConfItem (settings.map kv) = .error .stringIndexOutOfBounds := by
  induction settings with
  | nil => exact .inl ⟨List.forall_mem_nil _, rfl⟩
  | cons setting settings ih =>
      obtain ⟨first, others⟩ := List.forall_mem_cons.mp hasKeys
      simp only [List.map_cons, appendItems, List.forall_mem_cons, List.flatMap_cons]
      rcases setting.setConfItem_kv first with ⟨valued, appended⟩ | ⟨bare, thrown⟩
      · rcases ih others with ⟨allValued, rest⟩ | ⟨someBare, rest⟩
        · exact .inl ⟨⟨valued, allValued⟩, by rw [appended, rest]; rfl⟩
        · exact .inr ⟨fun all => someBare all.2, by rw [appended, rest]; rfl⟩
      · exact .inr ⟨fun all => bare all.1, by rw [thrown]; rfl⟩

/-- One command with the items of all settings is sent exactly if none of them is
    a key alone. -/
theorem setConf_settings_iff {settings : List Setting} (some : settings ≠ [])
    (hasKeys : ∀ s ∈ settings, s.HasKey) :
    setConfCollection (settings.map kv) =
        .ok (.some ("SETCONF".toList ++ settings.flatMap item ++ crlf)) ↔
      ∀ s ∈ settings, s.IsValued := by
  have nonempty : settings.map kv ≠ [] := mt List.map_eq_nil_iff.mp some
  rw [setConfCollection, if_neg nonempty]
  rcases appendItems_kv hasKeys with ⟨allValued, appended⟩ | ⟨someBare, thrown⟩
  · rw [appended]
    exact iff_of_true rfl allValued
  · rw [thrown]
    apply iff_of_false _ someBare
    intro sent
    cases sent

/-- Two options are set. -/
theorem setConf_settings_iff_valued :
    setConfCollection ["ExitNodes {us}".toList, "StrictNodes 1".toList] =
      .ok (some "SETCONF ExitNodes=\"{us}\" StrictNodes=\"1\"\r\n".toList) := by
  have hasKeys : ∀ s ∈ [valued "ExitNodes".toList "{us}".toList,
      valued "StrictNodes".toList "1".toList], s.HasKey := by
    intro s member
    rcases List.mem_cons.mp member with rfl | last
    · show ' ' ∉ "ExitNodes".toList
      decide
    · obtain rfl := List.mem_singleton.mp last
      show ' ' ∉ "StrictNodes".toList
      decide
  apply (setConf_settings_iff (List.cons_ne_nil _ _) hasKeys).mpr
  intro s member
  rcases List.mem_cons.mp member with rfl | last
  · trivial
  · obtain rfl := List.mem_singleton.mp last
    trivial

/-- The exit nodes are to be reset. -/
theorem setConf_bare_throws :
    IsConfKey "ExitNodes".toList ∧
      setConfCollection ["ExitNodes".toList] = .error .stringIndexOutOfBounds :=
  ⟨⟨by decide, by decide, by decide, by decide⟩, by decide⟩

end Setting

end Orbot.Control
