import BunkerWeb.Lib.Expiring

/-!
# The shared dictionary of an instance

`datastore.lua` over `ngx.shared.DICT`. Instants are milliseconds, the resolution of the
dictionary's expiry; the Lua code itself reads the clock in whole seconds (`timestamp`). A
dictionary never runs out of memory here, so a `set` succeeds at its first try.
-/

namespace BunkerWeb.Lua

open Lib

/-- `os.time(os.date("!*t"))`. The offset of the local time zone is the same in every call and
every use is a difference, so it is left out. -/
def timestamp (now : Nat) : Nat := now / 1000

theorem timestamp_mono {a b : Nat} (h : a ≤ b) : timestamp a ≤ timestamp b :=
  Nat.div_le_div_right h

/-- What was stamped less than `s` seconds ago is at most `s` whole seconds old. -/
theorem timestamp_sub_le {t now s : Nat} (h : now < t + 1000 * s) :
    timestamp now - timestamp t ≤ s := by
  unfold timestamp; omega

/-- When an entry written at `now` with `exptime` seconds expires: never for `nil`, and never for
`0`, which the dictionary takes for "no expiry". -/
def expiry (now : Nat) : Option Nat → Option Nat
  | none => none
  | some 0 => none
  | some (s + 1) => some (now + 1000 * (s + 1))

/-- `datastore:set_with_retries`. -/
def setWithRetries {β : Type} (dict : Store String β) (now : Nat) (key : String) (value : β)
    (exptime : Option Nat) : Store String β :=
  dict.put key ⟨value, expiry now exptime⟩

section

variable {β : Type} (dict : Store String β) (now : Nat) {key : String} (value : β)
  (exptime : Option Nat)

@[simp] theorem setWithRetries_same :
    setWithRetries dict now key value exptime key = some ⟨value, expiry now exptime⟩ :=
  Store.put_same _ _ _

theorem setWithRetries_of_ne {key' : String} (h : key' ≠ key) :
    setWithRetries dict now key value exptime key' = dict key' :=
  Store.put_of_ne _ _ h

/-- An entry that is written can be read at once. -/
theorem expiry_live : Entry.Live ⟨value, expiry now exptime⟩ now := by
  rcases exptime with _ | _ | s
  · exact Entry.live_none _ _
  · exact Entry.live_none _ _
  · exact Entry.live_some.mpr (by omega)

@[simp] theorem get_setWithRetries_same :
    (setWithRetries dict now key value exptime).get now key = some value :=
  Store.get_of_live (setWithRetries_same _ _ _ _) (expiry_live _ _ _)

/-- An entry with `s` seconds to live is gone only when those have passed. -/
theorem le_of_not_expiry_live {s now' : Nat} (h : ¬ Entry.Live ⟨value, expiry now (some s)⟩ now') :
    now + 1000 * s ≤ now' := by
  rcases s with _ | s
  · exact absurd (Entry.live_none _ _) h
  · simpa [expiry, Entry.live_some] using h

end

end BunkerWeb.Lua
