import BunkerWeb.Lib.Dict
import BunkerWeb.Lib.Nested
import BunkerWeb.Lib.Parties
import BunkerWeb.Lib.Run
import Mathlib.Logic.Function.Basic

/-!
# The state that the workers of the UI share (`ui/app/models/ui_data.py`)

Every worker has a dictionary of its own. `load_from_file` lays the keys of the file over it, and
an assignment or a deletion is followed by `write_to_file`, which writes the whole dictionary.

- **Data** (`Data`): the keys at the top with their JSON values, in a worker and in the file. A file
  that is missing or empty has no keys, and `loads` gives back what `dumps` was given.
- **Changes** (`Change`): what one statement does to a dictionary. `none` is an exception, which ends
  the operation.
- **Operations** (`Op.actions`): the statements in order. The lock is held for one access of the file
  at a time, so other workers come between any two of them (`step`).
- `State.log` is a history variable: the changes in the order in which they came into the file.
-/

namespace BunkerWeb.Ui.SharedData

open Lib

abbrev SharedKey := List Char

variable {ω α : Type}

/-- The keys at the top of a dictionary. -/
abbrev Data (α : Type) := SharedKey → Option (Nested SharedKey α)

/-- What a statement changes. -/
inductive Change (α : Type) where
  /-- `super().__setitem__` and `super().update`; the last entry of a key counts. -/
  | assign (entries : List (SharedKey × Nested SharedKey α))
  /-- `target[key] = {}` in the dictionary itself, if the key is not there. -/
  | create (key : SharedKey)
  /-- The way of `set_nested` down the nested dictionaries and the assignment at its end. -/
  | nest (key : SharedKey) (keys : List SharedKey) (value : Nested SharedKey α)
  /-- `super().__delitem__`. -/
  | delete (key : SharedKey)

/-- The dictionary after the change, or none for a `KeyError` or a `TypeError`. -/
def Change.applyTo : Change α → Data α → Option (Data α)
  | .assign entries, d => some fun key => (Dict.lastOf key entries).or (d key)
  | .create key, d =>
    some (if (d key).isSome then d else Function.update d key (some (.dict [])))
  | .nest key keys value, d =>
    (Nested.set keys value ((d key).getD (.dict []))).map fun t => Function.update d key (some t)
  | .delete key, d => if (d key).isSome then some (Function.update d key none) else none

/-- What a worker does next. -/
inductive Action (α : Type) where
  /-- `load_from_file`. -/
  | load
  | change (c : Change α)
  /-- `write_to_file`, which is the first one after a change (`some`) or not (`none`). -/
  | write (c : Option (Change α))

/-- The operations of `UIData`. -/
inductive Op (α : Type) where
  | loadFromFile
  | setItem (key : SharedKey) (value : Nested SharedKey α)
  | update (entries : List (SharedKey × Nested SharedKey α))
  | setNested (keys : List SharedKey) (value : Nested SharedKey α)
  | delItem (key : SharedKey)

/-- A change of the dictionary itself writes the file. -/
def written (c : Change α) : List (Action α) := [.change c, .write (some c)]

/-- The statements of an operation of a worker with the dictionary `d`. -/
def Op.actions (d : Data α) : Op α → List (Action α)
  | .loadFromFile => [.load]
  | .setItem key value => written (.assign [(key, value)])
  | .update entries => written (.assign entries)
  | .setNested [] _ => []
  | .setNested [key] value =>
    -- The assignment in the dictionary itself has written the file already.
    written (.assign [(key, value)]) ++ [.write none]
  | .setNested (key :: key' :: keys) value =>
    (if (d key).isSome then [] else written (.create key)) ++
      written (.nest key (key' :: keys) value)
  | .delItem key => written (.delete key)

structure State (ω α : Type) where
  file : Data α
  /-- The dictionary of each worker. -/
  mem : ω → Data α
  /-- What is left of the operation that a worker is in. -/
  pending : ω → List (Action α)
  log : List (Change α)

/-- Every worker has read the file (`__init__`). -/
def State.start (file : Data α) : State ω α := ⟨file, fun _ => file, fun _ => [], []⟩

inductive Event (ω α : Type) where
  /-- A worker that is started. -/
  | start (w : ω)
  | call (w : ω) (op : Op α)
  | resume (w : ω)

/-- The keys of the file over those of a dictionary. -/
def merge (file d : Data α) : Data α := fun key => (file key).or (d key)

variable [DecidableEq ω]

/-- The next action of a worker. -/
def act (s : State ω α) (w : ω) : Action α → List (Action α) → State ω α
  | .load, rest =>
    { s with
      mem := Function.update s.mem w (merge s.file (s.mem w))
      pending := Function.update s.pending w rest }
  | .change c, rest =>
    match c.applyTo (s.mem w) with
    | none => { s with pending := Function.update s.pending w [] }
    | some d =>
      { s with
        mem := Function.update s.mem w d
        pending := Function.update s.pending w rest }
  | .write c, rest =>
    { s with
      file := s.mem w
      pending := Function.update s.pending w rest
      log := s.log ++ c.toList }

/-- One event. A busy worker takes no call. -/
def step (s : State ω α) : Event ω α → State ω α
  | .start w => if (s.pending w).isEmpty then { s with mem := Function.update s.mem w s.file } else s
  | .call w op =>
    if (s.pending w).isEmpty then
      { s with pending := Function.update s.pending w (op.actions (s.mem w)) }
    else s
  | .resume w =>
    match s.pending w with
    | [] => s
    | a :: rest => act s w a rest

/-! ## Paths -/

/-- What a path of keys leads to. -/
def Data.get (d : Data α) : List SharedKey → Option (Nested SharedKey α)
  | [] => none
  | key :: path => (d key).bind (Nested.get path)

/-- The value that a change assigns at exactly this path. -/
def Change.sets : Change α → List SharedKey → Option (Nested SharedKey α)
  | .assign entries, [key] => Dict.lastOf key entries
  | .nest key keys value, path => if key :: keys = path then some value else none
  | _, _ => none

/-- The change assigns or deletes something on the way to the path, at it or below it. -/
def Change.Touches : Change α → List SharedKey → Prop
  | .assign entries, path => ∃ e ∈ entries, path.head? = some e.1
  | .create _, _ => False
  | .nest key keys _, path => key :: keys <+: path ∨ path <+: key :: keys
  | .delete key, path => path.head? = some key

/-- The change assigns the key or something below it. -/
def Change.Assigns : Change α → SharedKey → Prop
  | .assign entries, key => ∃ e ∈ entries, e.1 = key
  | .create key', key => key' = key
  | .nest key' _ _, key => key' = key
  | .delete _, _ => False

end BunkerWeb.Ui.SharedData

/-!
## When no update of the shared state is lost

A worker that writes the file writes its whole dictionary, with what it has not read since the last
writes of the others, and `load_from_file` never takes a key away.

* `Fresh`: a write brings into the file what the file has, with the change of the operation, and a
  key is deleted only when no other worker has it.
* `inv_step`: then the file is what the changes make of it one after the other, and a worker between
  two operations has no key that the file does not have.
* `no_lost_update`: what was assigned stays, and what was deleted is gone, in the file and in every
  worker that reads it.
-/

namespace BunkerWeb.Ui.SharedData

open Lib Lib.Run

variable {ω α : Type} {d d' : Data α} {c : Change α} {path : List SharedKey} {key : SharedKey}
  {v : Nested SharedKey α}

/-! ## One change -/

/-- What a change assigns is there after it. -/
theorem get_of_sets (h : c.applyTo d = some d') (hs : c.sets path = some v) :
    d'.get path = some v := by
  match c, path with
  | .assign entries, [key] =>
    obtain rfl := Option.some.inj h
    simp only [Change.sets] at hs
    rw [Data.get, hs]
    rfl
  | .nest key keys value, path =>
    obtain ⟨rfl, ⟨⟩⟩ := Option.ite_none_right_eq_some.mp hs
    obtain ⟨t, ht, rfl⟩ := Option.map_eq_some_iff.mp h
    rw [Data.get, Function.update_self, Option.bind_some, Nested.get_set_same ht]
  | .assign _, [] => cases hs
  | .assign _, _ :: _ :: _ => cases hs
  | .create _, _ => cases hs
  | .delete _, _ => cases hs

theorem get_congr (h : ∀ key ∈ path.head?, d' key = d key) : d'.get path = d.get path := by
  cases path with
  | nil => rfl
  | cons key path => rw [Data.get, Data.get, h key rfl]

/-- What a change does not touch stays. -/
theorem get_of_not_touches (h : c.applyTo d = some d') (hc : ¬ c.Touches path)
    (hv : d.get path = some v) : d'.get path = some v := by
  cases c with
  | assign entries =>
    obtain rfl := Option.some.inj h
    rw [← hv]
    refine get_congr fun key hkey => ?_
    rw [Dict.lastOf_eq_none.mpr fun e he hk => hc ⟨e, he, hk ▸ hkey⟩, Option.none_or]
  | create key =>
    obtain rfl := Option.some.inj h
    cases hd : d key with
    | some t => rwa [Option.isSome_some, if_pos rfl]
    | none =>
      rw [← hv, Option.isSome_none, if_neg Bool.false_ne_true]
      refine get_congr fun key' hkey' => Function.update_of_ne ?_ _ _
      rintro rfl
      cases path with
      | nil => cases hkey'
      | cons key path =>
        obtain rfl := Option.some.inj hkey'
        simp [Data.get, hd] at hv
  | nest key keys value =>
    obtain ⟨t, ht, rfl⟩ := Option.map_eq_some_iff.mp h
    cases path with
    | nil => exact absurd (.inr List.nil_prefix) hc
    | cons key' path =>
      rw [← hv, Data.get, Data.get]
      by_cases hk : key' = key
      · subst hk
        rw [Change.Touches, List.cons_prefix_cons, List.cons_prefix_cons] at hc
        have hne : path ≠ [] := fun he => hc (.inr ⟨rfl, he ▸ List.nil_prefix⟩)
        rw [Function.update_self, Option.bind_some, Nested.get_set_of_apart ht
          (fun hp => hc (.inl ⟨rfl, hp⟩)) fun hp => hc (.inr ⟨rfl, hp⟩)]
        exact Nested.get_getD_of_ne_nil hne
      · rw [Function.update_of_ne hk]
  | delete key =>
    obtain ⟨-, ⟨⟩⟩ := Option.ite_none_right_eq_some.mp h
    rw [← hv]
    refine get_congr fun key' hkey' => Function.update_of_ne (fun he => hc ?_) _ _
    rw [Change.Touches, ← he]
    exact hkey'

/-- A key comes only with an assignment of it. -/
theorem isSome_or_assigns (h : c.applyTo d = some d') (hd : (d' key).isSome) :
    (d key).isSome ∨ c.Assigns key := by
  cases c with
  | assign entries =>
    obtain rfl := Option.some.inj h
    simp only [Option.isSome_or, Bool.or_eq_true] at hd
    rcases hd with hd | hd
    · obtain ⟨t, ht⟩ := Option.isSome_iff_exists.mp hd
      exact .inr ⟨_, Dict.mem_of_lastOf ht, rfl⟩
    · exact .inl hd
  | create key' =>
    obtain rfl := Option.some.inj h
    split at hd
    · exact .inl hd
    · by_cases hk : key = key'
      · exact .inr hk.symm
      · rw [Function.update_of_ne hk] at hd
        exact .inl hd
  | nest key' keys value =>
    obtain ⟨t, -, rfl⟩ := Option.map_eq_some_iff.mp h
    by_cases hk : key = key'
    · exact .inr hk.symm
    · rw [Function.update_of_ne hk] at hd
      exact .inl hd
  | delete key' =>
    obtain ⟨-, ⟨⟩⟩ := Option.ite_none_right_eq_some.mp h
    by_cases hk : key = key'
    · rw [hk, Function.update_self] at hd
      cases hd
    · rw [Function.update_of_ne hk] at hd
      exact .inl hd

/-- A key goes only with its deletion. -/
theorem isSome_of_not_delete (h : c.applyTo d = some d') (hd : (d key).isSome)
    (hc : c ≠ .delete key) : (d' key).isSome := by
  cases c with
  | assign entries =>
    obtain rfl := Option.some.inj h
    simp [hd]
  | create key' =>
    obtain rfl := Option.some.inj h
    split
    · exact hd
    · by_cases hk : key = key'
      · rw [hk, Function.update_self]
        rfl
      · rwa [Function.update_of_ne hk]
  | nest key' keys value =>
    obtain ⟨t, -, rfl⟩ := Option.map_eq_some_iff.mp h
    by_cases hk : key = key'
    · rw [hk, Function.update_self]
      rfl
    · rwa [Function.update_of_ne hk]
  | delete key' =>
    obtain ⟨-, ⟨⟩⟩ := Option.ite_none_right_eq_some.mp h
    rwa [Function.update_of_ne fun hk => hc (by rw [hk])]

theorem eq_none_of_delete (h : (Change.delete key).applyTo d = some d') : d' key = none := by
  obtain ⟨-, ⟨⟩⟩ := Option.ite_none_right_eq_some.mp h
  exact Function.update_self ..

/-! ## What the changes say -/

/-- The dictionary has what was assigned last, and nothing that was deleted last. -/
structure Current (log : List (Change α)) (d : Data α) : Prop where
  assigned : ∀ l c l' path v, log = l ++ c :: l' → c.sets path = some v →
    (∀ c' ∈ l', ¬ c'.Touches path) → d.get path = some v
  deleted : ∀ l key l', log = l ++ .delete key :: l' → (∀ c' ∈ l', ¬ c'.Assigns key) →
    d key = none

theorem current_nil (d : Data α) : Current [] d where
  assigned l c l' _ _ h := by simp at h
  deleted l _ l' h := by simp at h

theorem Current.append {log : List (Change α)} (hcur : Current log d)
    (h : c.applyTo d = some d') : Current (log ++ [c]) d' where
  assigned l c₀ l' path v hlog hsets hleft := by
    rcases List.eq_nil_or_concat l' with rfl | ⟨l', c', rfl⟩
    · obtain ⟨-, hc⟩ := List.append_inj' hlog rfl
      obtain rfl := List.singleton_inj.mp hc
      exact get_of_sets h hsets
    · rw [List.concat_eq_append, ← List.cons_append, ← List.append_assoc] at hlog
      obtain ⟨hlog', hc⟩ := List.append_inj' hlog rfl
      obtain rfl := List.singleton_inj.mp hc
      simp only [List.concat_eq_append, List.forall_mem_append, List.forall_mem_singleton] at hleft
      exact get_of_not_touches h hleft.2 (hcur.assigned l c₀ l' path v hlog' hsets hleft.1)
  deleted l key l' hlog hleft := by
    rcases List.eq_nil_or_concat l' with rfl | ⟨l', c', rfl⟩
    · obtain ⟨-, hc⟩ := List.append_inj' hlog rfl
      obtain rfl := List.singleton_inj.mp hc
      exact eq_none_of_delete h
    · rw [List.concat_eq_append, ← List.cons_append, ← List.append_assoc] at hlog
      obtain ⟨hlog', hc⟩ := List.append_inj' hlog rfl
      obtain rfl := List.singleton_inj.mp hc
      simp only [List.concat_eq_append, List.forall_mem_append, List.forall_mem_singleton] at hleft
      have hnone := hcur.deleted l key l' hlog' hleft.1
      by_contra hsome
      rcases isSome_or_assigns h (Option.isSome_iff_ne_none.mpr hsome) with hd | hassigns
      · rw [hnone] at hd
        cases hd
      · exact hleft.2 hassigns

/-! ## One event -/

/-- The dictionary is what the file has with the change. -/
def Publishes (file d : Data α) : Option (Change α) → Prop
  | none => d = file
  | some c => c.applyTo file = some d

variable {s : State ω α} {w : ω}

/-- A write of a worker brings its own change into the file and nothing else, and a key that it
deletes is in no other worker. -/
def Fresh (s : State ω α) : Event ω α → Prop
  | .resume w => ∀ c rest, s.pending w = .write c :: rest → Publishes s.file (s.mem w) c ∧
      ∀ key, c = some (.delete key) → ∀ w' ≠ w, s.mem w' key = none
  | _ => True

/-- A change is followed by its write. -/
def Shaped : List (Action α) → Prop
  | [] => True
  | .change c :: rest => rest.head? = some (.write (some c)) ∧ Shaped rest
  | .load :: rest => Shaped rest
  | .write _ :: rest => Shaped rest

theorem shaped_actions (d : Data α) (op : Op α) : Shaped (op.actions d) := by
  cases op with
  | setNested keys value =>
    match keys with
    | [] => trivial
    | [key] => simp [Op.actions, written, Shaped]
    | key :: key' :: keys =>
      rw [Op.actions]
      split <;> simp [written, Shaped]
  | loadFromFile => trivial
  | setItem key value => simp [Op.actions, written, Shaped]
  | update entries => simp [Op.actions, written, Shaped]
  | delItem key => simp [Op.actions, written, Shaped]

/-- The file is what the changes say, and a worker has a key that the file does not have only
between an assignment and its write. -/
structure Inv (s : State ω α) : Prop where
  shaped : ∀ w, Shaped (s.pending w)
  keys : ∀ w key, (s.mem w key).isSome → (s.file key).isSome ∨
    ∃ c, (s.pending w).head? = some (.write (some c)) ∧ c.Assigns key
  current : Current s.log s.file

theorem inv_start (file : Data α) : Inv (State.start file : State ω α) :=
  ⟨fun _ => trivial, fun _ _ h => .inl h, current_nil file⟩

section

variable {a : Action α} {rest : List (Action α)} (h : Inv s) (hp : s.pending w = a :: rest)

include h hp

/-- A worker that is not before a write has the keys of the file. -/
theorem Inv.isSome_file (hw : ∀ c, a ≠ .write c) {key : SharedKey} (hk : (s.mem w key).isSome) :
    (s.file key).isSome := by
  rcases h.keys w key hk with hf | ⟨c, hc, -⟩
  · exact hf
  · rw [hp, List.head?_cons] at hc
    exact absurd (Option.some.inj hc) (hw _)

variable [DecidableEq ω]

theorem Inv.act_load (ha : a = .load) : Inv (act s w .load rest) where
  shaped := Parties.forall_update (by simpa [hp, ha, Shaped] using h.shaped w) h.shaped
  keys w' key hk := by
    by_cases hw : w' = w
    · subst hw
      simp only [act, Function.update_self, merge, Option.isSome_or, Bool.or_eq_true] at hk ⊢
      exact .inl (hk.elim id (h.isSome_file hp (by simp [ha])))
    · simp only [act, Function.update_of_ne hw] at hk ⊢
      exact h.keys w' key hk
  current := h.current

theorem Inv.act_change {c : Change α} (ha : a = .change c) : Inv (act s w (.change c) rest) := by
  have hshaped := h.shaped w
  rw [hp, ha, Shaped] at hshaped
  have hold : ∀ key, (s.mem w key).isSome → (s.file key).isSome := fun key =>
    h.isSome_file hp (by simp [ha])
  rw [act]
  split
  next hc =>
    -- The exception ends the operation.
    refine ⟨Parties.forall_update (P := Shaped) trivial h.shaped, fun w' key hk => ?_, h.current⟩
    by_cases hw : w' = w
    · exact .inl (hold key (hw ▸ hk))
    · simp only [Function.update_of_ne hw]
      exact h.keys w' key hk
  next d hc =>
    refine ⟨Parties.forall_update hshaped.2 h.shaped, fun w' key hk => ?_, h.current⟩
    by_cases hw : w' = w
    · subst hw
      simp only [Function.update_self] at hk ⊢
      exact (isSome_or_assigns hc hk).imp (hold key) fun hassigns => ⟨c, hshaped.1, hassigns⟩
    · simp only [Function.update_of_ne hw] at hk ⊢
      exact h.keys w' key hk

theorem Inv.act_write {c : Option (Change α)} (ha : a = .write c)
    (hpub : Publishes s.file (s.mem w) c)
    (hdel : ∀ key, c = some (.delete key) → ∀ w' ≠ w, s.mem w' key = none) :
    Inv (act s w (.write c) rest) where
  shaped := Parties.forall_update (by simpa [hp, ha, Shaped] using h.shaped w) h.shaped
  keys w' key hk := by
    by_cases hw : w' = w
    · exact .inl (hw ▸ hk)
    · simp only [act, Function.update_of_ne hw] at hk ⊢
      refine (h.keys w' key hk).imp_left fun hf => ?_
      cases c with
      | none => rwa [show s.mem w = s.file from hpub]
      | some c =>
        refine isSome_of_not_delete hpub hf fun hc => ?_
        rw [hdel key (congrArg some hc) w' hw] at hk
        cases hk
  current := by
    cases c with
    | none =>
      simp only [act, Option.toList_none, List.append_nil]
      rw [show s.mem w = s.file from hpub]
      exact h.current
    | some c => exact h.current.append hpub

end

variable [DecidableEq ω]

theorem inv_step {e : Event ω α} (h : Inv s) (hok : Fresh s e) : Inv (step s e) := by
  cases e with
  | start w =>
    rw [step]
    split
    · refine ⟨h.shaped, fun w' key hk => ?_, h.current⟩
      by_cases hw : w' = w
      · subst hw
        simp only [Function.update_self] at hk
        exact .inl hk
      · simp only [Function.update_of_ne hw] at hk
        exact h.keys w' key hk
    · exact h
  | call w op =>
    rw [step]
    split
    next hidle =>
      refine ⟨Parties.forall_update (shaped_actions _ op) h.shaped, fun w' key hk => ?_, h.current⟩
      by_cases hw : w' = w
      · subst hw
        refine .inl ((h.keys w' key hk).resolve_right fun ⟨c, hc, _⟩ => ?_)
        rw [List.isEmpty_iff.mp hidle] at hc
        cases hc
      · simp only [Function.update_of_ne hw]
        exact h.keys w' key hk
    next => exact h
  | resume w =>
    rw [step]
    cases hp : s.pending w with
    | nil => exact h
    | cons a rest =>
      cases a with
      | load => exact h.act_load hp rfl
      | change c => exact h.act_change hp rfl
      | write c =>
        obtain ⟨hpub, hdel⟩ := hok c rest hp
        exact h.act_write hp rfl hpub hdel

/-! ## All runs -/

/-- The state of a worker after it has read the file. -/
def reload (s : State ω α) (w : ω) : State ω α :=
  run step s [.call w .loadFromFile, .resume w]

/-- The file, and every worker that reads it between two operations, has what was assigned last and
nothing that was deleted last. -/
def NoLostUpdate (s : State ω α) : Prop :=
  Current s.log s.file ∧ ∀ w, s.pending w = [] → Current s.log ((reload s w).mem w)

theorem mem_reload (hw : s.pending w = []) : (reload s w).mem w = merge s.file (s.mem w) := by
  simp [reload, step, hw, Op.actions, act]

/-- **No lost update.** For every set of workers, every file at the start and every interleaving of
their operations: if every write brings its own change into the file and nothing else, and keys are
deleted that no other worker has, then the file and every worker that reads it have what was
assigned last, and nothing that was deleted last. -/
theorem no_lost_update (file : Data α) {events : List (Event ω α)}
    (hfresh : Meets step Fresh (State.start file) events) :
    NoLostUpdate (run step (State.start file) events) := by
  have hinv := invariant (fun _ _ => inv_step) (inv_start file) hfresh
  refine ⟨hinv.current, fun w hw => ?_⟩
  rw [mem_reload hw]
  convert hinv.current using 1
  funext key
  cases hf : (run step (State.start file) events).file key with
  | some t => rw [merge, hf, Option.some_or]
  | none =>
    rw [merge, hf, Option.none_or, ← Option.not_isSome_iff_eq_none]
    intro hk
    rcases hinv.keys w key hk with hsome | ⟨c, hc, -⟩
    · rw [hf] at hsome
      cases hsome
    · rw [hw] at hc
      cases hc

/-- One worker assigns a key, and another one reads it. -/
theorem no_lost_update_two_workers :
    NoLostUpdate (run step (State.start fun _ => none : State Bool Nat)
      [.call true (.setItem ['a'] (.leaf 1)), .resume true, .resume true,
        .call false .loadFromFile, .resume false]) := by
  refine no_lost_update _ ⟨trivial, fun c rest h => ?_, fun c rest h => ?_, trivial,
    fun c rest h => ?_, trivial⟩
  · cases h
  · cases h
    exact ⟨rfl, fun _ h => nomatch h⟩
  · cases h

/-- A worker that has not read the file since takes the assignment of another one away, and a key
that one worker deletes is still in the others. -/
theorem stale_dictionary_written :
    (¬ NoLostUpdate (run step (State.start fun _ => none : State Bool Nat)
      [.call true (.setItem ['a'] (.leaf 1)), .resume true, .resume true,
        .call false (.setItem ['b'] (.leaf 2)), .resume false, .resume false])) ∧
    ¬ NoLostUpdate (run step (State.start fun _ => some (.leaf 0) : State Bool Nat)
      [.call true (.delItem ['a']), .resume true, .resume true]) := by
  constructor
  · intro h
    have hget := h.1.assigned [] (.assign [(['a'], .leaf 1)]) [.assign [(['b'], .leaf 2)]] [['a']]
      (.leaf 1) rfl rfl (by simp [Change.Touches])
    cases hget
  · intro h
    have hnone := (h.2 false rfl).deleted [] ['a'] [] rfl (by simp)
    cases hnone

end BunkerWeb.Ui.SharedData
