import BunkerWeb.Text

/-!
# Response headers (`ngx.header`)

The headers of a response are a list of names and values. `ngx.header` finds a name in any case, with
a hyphen for each underscore of the key (`lua_transform_underscores_in_response_headers`), so a header
with an underscore in its name is never found.

Reading a header gives its first hundred values (`MAX_HEADER_VALUES`). Setting it changes the first
header of the name, or adds one behind the others; an empty value removes all of them.
-/

namespace BunkerWeb.Lua.NgxHeader

abbrev Text := List Char

abbrev Headers := List (Text × Text)

/-- `key` as the module looks for it. -/
def dashed (key : Text) : Text := key.map fun c => if c = '_' then '-' else c

def lower (name : Text) : Text := name.map Char.toLower

/-- The name that a key stands for, in lower case. -/
def slot (key : Text) : Text := lower (dashed key)

/-- The values of the headers with this name, which is in lower case. -/
def values (h : Headers) (name : Text) : List Text := (h.filter fun e => lower e.1 = name).map Prod.snd

def maxHeaderValues : Nat := 100

/-- `ngx.header[key]`: the empty list for `nil`. -/
def get (h : Headers) (key : Text) : List Text := (values h (slot key)).take maxHeaderValues

/-- `ngx.header[key] = nil`. -/
def clear (h : Headers) (key : Text) : Headers := h.filter fun e => lower e.1 ≠ slot key

/-- The first header of the name gets the value, the others go. -/
def replace (h : Headers) (key value : Text) : Headers :=
  match h with
  | [] => []
  | e :: h => if lower e.1 = slot key then (e.1, value) :: clear h key else e :: replace h key value

/-- `ngx.header[key] = value`. -/
def put (h : Headers) (key value : Text) : Headers :=
  if value = [] then clear h key
  else if h.any fun e => lower e.1 = slot key then replace h key value
  else h ++ [(dashed key, value)]

/-- `ngx.header[key] = values` for a table. -/
def putAll (h : Headers) (key : Text) : List Text → Headers
  | [] => clear h key
  | value :: rest => put h key value ++ (rest.filter (· ≠ [])).map (dashed key, ·)

/-! ## Values -/

variable {h : Headers} {key name value : Text}

theorem values_append (h h' : Headers) (name : Text) :
    values (h ++ h') name = values h name ++ values h' name := by
  rw [values, List.filter_append, List.map_append]
  rfl

theorem values_cons (e : Text × Text) (h : Headers) (name : Text) :
    values (e :: h) name = if lower e.1 = name then e.2 :: values h name else values h name := by
  rw [values, List.filter_cons]
  split
  next heq => rw [if_pos (of_decide_eq_true heq), List.map_cons]; rfl
  next hne => rw [if_neg fun heq => hne (decide_eq_true heq)]; rfl

theorem values_eq_nil_iff : values h name = [] ↔ ∀ e ∈ h, lower e.1 ≠ name := by
  rw [values, List.map_eq_nil_iff, List.filter_eq_nil_iff]
  exact forall₂_congr fun _ _ => not_congr decide_eq_true_iff

theorem get_ne_nil_iff : get h key ≠ [] ↔ values h (slot key) ≠ [] := by
  rw [get, ne_eq, List.take_eq_nil_iff, or_iff_right (show maxHeaderValues ≠ 0 by decide)]

theorem values_clear_same (h : Headers) (key : Text) : values (clear h key) (slot key) = [] := by
  rw [values_eq_nil_iff]
  exact fun e he => of_decide_eq_true (List.mem_filter.mp he).2

theorem values_clear_of_ne (hne : name ≠ slot key) : values (clear h key) name = values h name := by
  rw [values, clear, List.filter_filter, values]
  congr 1
  refine List.filter_congr fun e _ => ?_
  by_cases heq : lower e.1 = name
  · rw [decide_eq_true heq, decide_eq_true (heq.trans_ne hne), Bool.true_and]
  · rw [decide_eq_false heq, Bool.false_and]

theorem values_replace_same (hany : ∃ e ∈ h, lower e.1 = slot key) :
    values (replace h key value) (slot key) = [value] := by
  induction h with
  | nil =>
    obtain ⟨e, he, -⟩ := hany
    cases he
  | cons e h ih =>
    unfold replace
    split
    next heq => rw [values_cons, if_pos heq, values_clear_same]
    next hne =>
      rw [values_cons, if_neg hne]
      refine ih ?_
      obtain ⟨e', he', heq⟩ := hany
      rcases List.mem_cons.mp he' with rfl | he'
      · exact absurd heq hne
      · exact ⟨e', he', heq⟩

theorem values_replace_of_ne (hne : name ≠ slot key) :
    values (replace h key value) name = values h name := by
  induction h with
  | nil => rfl
  | cons e h ih =>
    unfold replace
    split
    next heq =>
      have hother : lower e.1 ≠ name := fun h => hne (h.symm.trans heq)
      rw [values_cons, values_cons, if_neg hother, if_neg hother, values_clear_of_ne hne]
    next => rw [values_cons, values_cons, ih]

theorem lower_dashed (key : Text) : lower (dashed key) = slot key := rfl

theorem values_put_same (h : Headers) (key value : Text) :
    values (put h key value) (slot key) = if value = [] then [] else [value] := by
  unfold put
  split
  next => exact values_clear_same h key
  next =>
    split
    next hany =>
      obtain ⟨e, he, heq⟩ := List.any_eq_true.mp hany
      exact values_replace_same ⟨e, he, of_decide_eq_true heq⟩
    next hany =>
      have hnone : values h (slot key) = [] := by
        rw [values_eq_nil_iff]
        exact fun e he heq => hany (List.any_eq_true.mpr ⟨e, he, decide_eq_true heq⟩)
      rw [values_append, hnone, values_cons, if_pos (lower_dashed key)]
      rfl

theorem values_put_of_ne (hne : name ≠ slot key) : values (put h key value) name = values h name := by
  unfold put
  split
  next => exact values_clear_of_ne hne
  next =>
    split
    next => exact values_replace_of_ne hne
    next =>
      rw [values_append, values_cons, if_neg fun heq => hne (heq.symm.trans (lower_dashed key))]
      exact List.append_nil _

theorem values_added (key : Text) (l : List Text) :
    values (l.map (dashed key, ·)) (slot key) = l := by
  induction l with
  | nil => rfl
  | cons value l ih => rw [List.map_cons, values_cons, if_pos (lower_dashed key), ih]

theorem values_added_of_ne (hne : name ≠ slot key) (l : List Text) :
    values (l.map (dashed key, ·)) name = [] := by
  rw [values_eq_nil_iff]
  intro e he heq
  obtain ⟨value, -, rfl⟩ := List.mem_map.mp he
  exact hne (heq.symm.trans (lower_dashed key))

/-- Values that are not empty replace those of the header. -/
theorem values_putAll_same {l : List Text} (hl : ∀ value ∈ l, value ≠ []) (h : Headers) :
    values (putAll h key l) (slot key) = l := by
  cases l with
  | nil => exact values_clear_same h key
  | cons value rest =>
    obtain ⟨hvalue, hrest⟩ := List.forall_mem_cons.mp hl
    rw [putAll, values_append, values_put_same, if_neg hvalue, values_added,
      List.filter_eq_self.mpr fun v hv => decide_eq_true (hrest v hv)]
    rfl

theorem values_putAll_of_ne (hne : name ≠ slot key) (h : Headers) (l : List Text) :
    values (putAll h key l) name = values h name := by
  cases l with
  | nil => exact values_clear_of_ne hne
  | cons value rest =>
    rw [putAll, values_append, values_put_of_ne hne, values_added_of_ne hne, List.append_nil]

/-! ## Names with an underscore -/

theorem toLower_ne_underscore {c : Char} (h : c ≠ '_') : c.toLower ≠ '_' := by
  rcases toLower_cases c with heq | ⟨h65, -, hlower⟩
  · rwa [heq]
  · intro heq
    rw [heq] at hlower
    have h95 : '_'.toNat = 95 := rfl
    omega

theorem underscore_notMem_slot (key : Text) : '_' ∉ slot key := by
  intro hmem
  obtain ⟨c, hc, heq⟩ := List.mem_map.mp hmem
  obtain ⟨d, -, rfl⟩ := List.mem_map.mp hc
  refine toLower_ne_underscore ?_ heq
  split
  · decide
  · assumption

/-- A name with an underscore is no name that a key stands for. -/
theorem ne_slot_of_underscore (h : '_' ∈ name) (key : Text) : name ≠ slot key := by
  rintro rfl
  exact underscore_notMem_slot key h

end BunkerWeb.Lua.NgxHeader
