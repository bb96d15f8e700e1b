/-
# Writing that stops

Writing goes piece by piece, so what stops it stops one of the pieces, unless a container stands too
deep itself (`Written.obstacle_enclosed`).  Followed into the value, a foreign obstacle is a foreign
value somewhere in it (`hasForeign_of_write`).
-/

import DeskCalculator.Settings.Writer

namespace DeskCalculator
namespace Settings

/-- A foreign value stands in a value, at any depth. -/
inductive Value.HasForeign : Value → Prop
  | here : HasForeign .foreign
  | item {v : Value} {items : List Value} (mem : v ∈ items) (inside : HasForeign v) :
      HasForeign (.list items)
  | entry {e : CodeText × Value} {entries : List (CodeText × Value)} (mem : e ∈ entries)
      (inside : HasForeign e.2) : HasForeign (.dictionary entries)

namespace Written

/-- What stops two things written one behind the other stops one of them. -/
theorem obstacle_append {a b : Written} {o : Unwritable} (h : (a ++ b).obstacle = some o) :
    a.obstacle = some o ∨ b.obstacle = some o := by
  obtain ⟨text, obstacle⟩ := a
  cases obstacle with
  | none => exact .inr h
  | some o' => exact .inl h

/-- What stops a part behind something stops the part. -/
theorem obstacle_behind {p : Part} {front : List Char} {o : Unwritable}
    (h : (p.behind front).obstacle = some o) : p.written.obstacle = some o := by
  unfold Part.behind at h
  split at h
  · exact h
  · exact (obstacle_append h).resolve_left nofun

/-- What stops parts that follow each other stops one of them. -/
theorem obstacle_following {level : Nat} {ps : List Part} {o : Unwritable}
    (h : (following level ps).obstacle = some o) : ∃ p ∈ ps, p.written.obstacle = some o := by
  induction ps with
  | nil => cases h
  | cons p ps ih =>
    rcases obstacle_append h with h | h
    · exact ⟨p, List.mem_cons_self, obstacle_behind h⟩
    · obtain ⟨p', mem, h⟩ := ih h
      exact ⟨p', List.mem_cons_of_mem _ mem, h⟩

/-- What stops a container stops one of its parts, unless there are too few calls for the container
itself. -/
theorem obstacle_enclosed {opening closing : Char} {calls level : Nat} {ps : List Part}
    {o : Unwritable} (h : (enclosed opening closing calls level ps).obstacle = some o) :
    o = .tooNested ∨ ∃ p ∈ ps, p.written.obstacle = some o := by
  cases ps with
  | nil => cases h
  | cons p ps =>
    rw [enclosed, needing] at h
    split at h
    · exact .inl (Option.some.inj h).symm
    right
    rcases obstacle_append h with h | h
    · exact ⟨p, List.mem_cons_self, obstacle_behind h⟩
    rcases obstacle_append h with h | h
    · obtain ⟨p', mem, h⟩ := obstacle_following h
      exact ⟨p', List.mem_cons_of_mem _ mem, h⟩
    · cases h

end Written

namespace Json

mutual

/-- **Only a foreign value stops the writing as one.** -/
theorem hasForeign_of_write {calls level : Nat} :
    ∀ {v : Value}, (write calls level v).obstacle = some .foreign → v.HasForeign
  | .null, h => by cases h
  | .bool _, h => by cases h
  | .integer i, h => by
    rw [write, wholeNumber] at h
    split at h <;> cases h
  | .number _, h => by
    rw [write, Written.needing] at h
    split at h <;> cases h
  | .text _, h => by cases h
  | .list items, h => by
    rw [write] at h
    obtain ⟨p, mem, h⟩ := (Written.obstacle_enclosed h).resolve_left nofun
    obtain ⟨v, mem, inside⟩ := hasForeign_of_writeItems mem h
    exact .item mem inside
  | .dictionary entries, h => by
    rw [write] at h
    obtain ⟨p, mem, h⟩ := (Written.obstacle_enclosed h).resolve_left nofun
    obtain ⟨e, mem, inside⟩ := hasForeign_of_writeEntries mem h
    exact .entry mem inside
  | .foreign, _ => .here

/-- The same for the items of a list. -/
theorem hasForeign_of_writeItems {calls level : Nat} {p : Written.Part} :
    ∀ {items : List Value}, p ∈ writeItems calls level items →
      p.written.obstacle = some .foreign → ∃ v ∈ items, v.HasForeign
  | v :: rest, mem, h => by
    rw [writeItems] at mem
    rcases List.mem_cons.1 mem with rfl | mem
    · exact ⟨v, List.mem_cons_self, hasForeign_of_write h⟩
    · obtain ⟨v', mem, inside⟩ := hasForeign_of_writeItems mem h
      exact ⟨v', List.mem_cons_of_mem _ mem, inside⟩

/-- The same for the entries of a dictionary. -/
theorem hasForeign_of_writeEntries {calls level : Nat} {p : Written.Part} :
    ∀ {entries : List (CodeText × Value)}, p ∈ writeEntries calls level entries →
      p.written.obstacle = some .foreign → ∃ e ∈ entries, e.2.HasForeign
  | (k, v) :: rest, mem, h => by
    rw [writeEntries] at mem
    rcases List.mem_cons.1 mem with rfl | mem
    · rcases Written.obstacle_append h with h | h
      · cases h
      · exact ⟨(k, v), List.mem_cons_self, hasForeign_of_write h⟩
    · obtain ⟨e, mem, inside⟩ := hasForeign_of_writeEntries mem h
      exact ⟨e, List.mem_cons_of_mem _ mem, inside⟩

end

end Json

end Settings
end DeskCalculator
