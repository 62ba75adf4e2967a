import Mathlib.Data.List.FinRange
import Mathlib.Data.List.Perm.Basic
import Orbot.Service.Ports

/-! # The default bridges that are pulled

`getBridges` shuffles the default bridges and goes through them until it has
enough of one type.
-/

namespace Orbot.Service

open Java (Text)

def countOfType (type : Text) (bridges : List Bridge) : ℕ := bridges.countP (·.type = type)

/-- Of the bridges of a type that are loaded, those at these positions are pulled:
    two, or as many as there are. -/
structure UpToTwo (sources : TorrcSources) (type : Text)
    (positions : List (Fin (loadBridgeDefaults sources).length)) : Prop where
  distinct : positions.Nodup
  count : positions.length = min 2 (countOfType type (loadBridgeDefaults sources))
  ofType : ∀ i ∈ positions, ((loadBridgeDefaults sources).get i).type = type
  lines : (getBridges sources type).map TorrcLine.text =
    positions.map fun i => (bridgeLine ((loadBridgeDefaults sources).get i)).text

/-- Shuffling puts the positions in another order. -/
theorem positions_of_perm {α : Type} {shuffled xs : List α} (perm : shuffled.Perm xs) :
    ∃ positions : List (Fin xs.length), positions.Nodup ∧ shuffled = positions.map xs.get := by
  have listed : shuffled.Perm ((List.finRange xs.length).map xs.get) := by
    rw [List.map_get_finRange]
    exact perm
  obtain ⟨positions, same, order⟩ :=
    (congrFun₂ (List.eq_map_comp_perm xs.get) shuffled (List.finRange xs.length)).mpr listed
  exact ⟨positions, order.nodup_iff.mpr (List.nodup_finRange _), same⟩

section Count

variable (sources : TorrcSources) (type : Text)

theorem filter_shuffle_length :
    ((sources.shuffle (loadBridgeDefaults sources)).filter (·.type = type)).length =
      countOfType type (loadBridgeDefaults sources) := by
  rw [← List.countP_eq_length_filter, countOfType]
  exact (sources.shuffle_perm _).countP_eq _

theorem getBridges_length :
    (getBridges sources type).length =
      min 3 (countOfType type (loadBridgeDefaults sources)) := by
  rw [getBridges_eq, List.length_map, pickedBridges, List.length_take, filter_shuffle_length]

/-- Two are pulled at most if and only if no third one is loaded. -/
theorem upToTwo_iff :
    (∃ positions, UpToTwo sources type positions) ↔
      countOfType type (loadBridgeDefaults sources) ≤ 2 := by
  constructor
  · rintro ⟨positions, pulled⟩
    have three := getBridges_length sources type
    have same := congrArg List.length pulled.lines
    rw [List.length_map, List.length_map, pulled.count] at same
    omega
  · intro few
    obtain ⟨positions, distinct, shuffled⟩ :=
      positions_of_perm (sources.shuffle_perm (loadBridgeDefaults sources))
    have chosen := filter_shuffle_length sources type
    have pulled := getBridges_eq sources type
    rw [pickedBridges, List.take_of_length_le (by omega)] at pulled
    rw [shuffled, List.filter_map] at chosen pulled
    rw [List.length_map] at chosen
    have lines := congrArg (List.map TorrcLine.text) pulled
    rw [List.map_map, List.map_map] at lines
    refine ⟨_, ⟨distinct.filter _, ?_, ?_, lines⟩⟩
    · rw [chosen]
      omega
    · intro i member
      exact of_decide_eq_true (List.mem_filter.mp member).2

end Count

/-- Of three bridges all are pulled. -/
theorem three_bridges_pulled :
    ¬∀ sources type, ∃ positions, UpToTwo sources type positions := by
  intro claimed
  let bridge : Bridge := ⟨"obfs4".toList, "192.0.2.1:443".toList⟩
  obtain ⟨positions, pulled⟩ :=
    claimed { exampleSources with alBridges := some [bridge, bridge, bridge] } "obfs4".toList
  have two := congrArg List.length pulled.lines
  rw [List.length_map, List.length_map, pulled.count] at two
  exact absurd two (by decide +kernel)

end Orbot.Service
