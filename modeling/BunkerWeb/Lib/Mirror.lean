import Mathlib.Tactic.TypeStar

/-!
# Mirrors

Somebody keeps a copy of a value that others store. Whoever stores raises a flag; the keeper of the
copy reads the value when it sees the flag, and lowers the flag some time after. `dirty` says that
something has been stored since the last read.

`Clean` is what makes the copy trustworthy: it is `Synced`, and stays so as long as the flag is only
lowered while the mirror is not dirty.
-/

namespace Lib

structure Mirror (α : Type*) where
  stored : α
  copy : α
  flag : Bool
  dirty : Bool

namespace Mirror

variable {α : Type*}

/-- What happens to a mirror in one step. -/
inductive Op (α : Type*) where
  | none
  | store (v : α)
  | raise
  | read
  | lower

def apply (m : Mirror α) : Op α → Mirror α
  | .none => m
  | .store v => { m with stored := v, flag := true, dirty := true }
  | .raise => { m with flag := true }
  | .read => { m with copy := m.stored, dirty := false }
  | .lower => { m with flag := false }

/-- What is not read yet is flagged. -/
structure Clean (m : Mirror α) : Prop where
  read : m.dirty = false → m.stored = m.copy
  flagged : m.dirty = true → m.flag = true

/-- The copy is that of the stored value, or the flag says that it may not be. -/
def Synced (m : Mirror α) : Prop := m.flag = true ∨ m.stored = m.copy

theorem Clean.synced {m : Mirror α} (h : m.Clean) : m.Synced := by
  cases hd : m.dirty with
  | false => exact .inr (h.read hd)
  | true => exact .inl (h.flagged hd)

theorem clean_read (m : Mirror α) : (m.apply .read).Clean := ⟨fun _ => rfl, nofun⟩

theorem Clean.apply {m : Mirror α} (h : m.Clean) {op : Op α}
    (hop : op = .lower → m.dirty = false) : (m.apply op).Clean := by
  cases op with
  | none => exact h
  | store v => exact ⟨nofun, fun _ => rfl⟩
  | raise => exact ⟨h.read, fun _ => rfl⟩
  | read => exact clean_read m
  | lower => exact ⟨h.read, fun hd => by rw [Mirror.apply, hop rfl] at hd; cases hd⟩

end Mirror

end Lib
