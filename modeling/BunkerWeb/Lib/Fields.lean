import Mathlib.Data.List.Basic

/-!
# Fields of a text

The fields of a text are its longest runs of characters that do not separate, as `%S+` or `[^.]+`
finds them and `split()` returns them. A field is not empty and has no separator in it; separators
at the end of the text make no field.

`append_sep_inj` is the rule for a text of two parts: they are found again when the separator
between them is the first one.
-/

namespace Lib

variable {α : Type*} {sep sep' : α → Bool} {l w : List α}

/-- The fields of `l` between the elements that satisfy `sep`. -/
def fields (sep : α → Bool) (l : List α) : List (List α) :=
  (l.splitOnP sep).filter fun w => !w.isEmpty

theorem not_sep_of_mem_splitOnP (hw : w ∈ l.splitOnP sep) {a : α} (ha : a ∈ w) :
    sep a = false := by
  induction l generalizing w with
  | nil =>
    obtain rfl := List.mem_singleton.mp hw
    exact absurd ha List.not_mem_nil
  | cons b l ih =>
    rw [List.splitOnP_cons_eq_if_modifyHead] at hw
    split at hw
    next hb =>
      rcases List.mem_cons.mp hw with rfl | hw
      · exact absurd ha List.not_mem_nil
      · exact ih hw ha
    next hb =>
      obtain ⟨u, us, hu⟩ := List.exists_cons_of_ne_nil (List.splitOnP_ne_nil sep l)
      rw [hu, List.modifyHead_cons] at hw
      rcases List.mem_cons.mp hw with rfl | hw
      · rcases List.mem_cons.mp ha with rfl | ha
        · simpa using hb
        · exact ih (hu ▸ List.mem_cons_self) ha
      · exact ih (hu ▸ List.mem_cons_of_mem u hw) ha

theorem ne_nil_of_mem_fields (hw : w ∈ fields sep l) : w ≠ [] := by
  simpa using (List.mem_filter.mp hw).2

theorem not_sep_of_mem_fields (hw : w ∈ fields sep l) {a : α} (ha : a ∈ w) : sep a = false :=
  not_sep_of_mem_splitOnP (List.mem_filter.mp hw).1 ha

/-- The text with another one behind a separator. -/
theorem fields_append_cons {a : α} (ha : sep a = true) (l l' : List α) :
    fields sep (l ++ a :: l') = fields sep l ++ fields sep l' := by
  unfold fields
  rw [List.splitOnP_append_cons l l' ha, List.filter_append]

/-- Separators at the end. -/
theorem fields_append_of_forall_sep (l : List α) {t : List α} (ht : ∀ a ∈ t, sep a = true) :
    fields sep (l ++ t) = fields sep l := by
  induction t generalizing l with
  | nil => rw [List.append_nil]
  | cons a t ih =>
    have hrest := ih [] fun b hb => ht b (List.mem_cons_of_mem a hb)
    rw [fields_append_cons (ht a List.mem_cons_self), ← List.nil_append t, hrest]
    exact List.append_nil _

theorem fields_congr (h : ∀ a ∈ l, sep a = sep' a) : fields sep l = fields sep' l := by
  have hsplit : l.splitOnP sep = l.splitOnP sep' := by
    induction l with
    | nil => rfl
    | cons a l ih =>
      rw [List.splitOnP_cons_eq_if_modifyHead, List.splitOnP_cons_eq_if_modifyHead,
        h a List.mem_cons_self, ih fun b hb => h b (List.mem_cons_of_mem a hb)]
  rw [fields, hsplit, fields]

/-! ## Fields of fields -/

@[simp] theorem fields_nil : fields sep ([] : List α) = [] := rfl

/-- Texts behind each other with a separator in between. -/
theorem fields_intercalate {a : α} (ha : sep a = true) (ws : List (List α)) :
    fields sep ([a].intercalate ws) = ws.flatMap (fields sep) := by
  match ws with
  | [] => rfl
  | [w] => simp
  | w :: w' :: ws =>
    rw [List.intercalate_cons_cons, List.append_assoc, List.singleton_append,
      fields_append_cons ha, fields_intercalate ha (w' :: ws), List.flatMap_cons (x := w)]

theorem fields_cons_sep {a : α} (ha : sep a = true) (l : List α) :
    fields sep (a :: l) = fields sep l := by
  rw [← List.nil_append (a :: l), fields_append_cons ha, fields_nil, List.nil_append]

/-- A text without a separator is its only field. -/
theorem fields_eq_singleton (hne : l ≠ []) (h : ∀ a ∈ l, sep a = false) : fields sep l = [l] := by
  have hsplit : l.splitOnP sep = [l] := by
    induction l with
    | nil => exact absurd rfl hne
    | cons a l ih =>
      rw [List.splitOnP_cons_eq_if_modifyHead, if_neg (by simp [h a List.mem_cons_self])]
      cases l with
      | nil => rfl
      | cons b l =>
        rw [ih (List.cons_ne_nil b l) fun c hc => h c (List.mem_cons_of_mem a hc)]
        rfl
  rw [fields, hsplit]
  simp [hne]

/-- A text without a separator, or two texts with a separator in between. -/
theorem sep_induction (sep : α → Bool) {P : List α → Prop}
    (free : ∀ l, (∀ a ∈ l, sep a = false) → P l)
    (append : ∀ l a l', sep a = true → P l → P l' → P (l ++ a :: l')) (l : List α) : P l := by
  by_cases hsep : ∃ a ∈ l, sep a = true
  · obtain ⟨a, ha, hsep⟩ := hsep
    obtain ⟨before, after, hl⟩ := List.append_of_mem ha
    have hlen : before.length < l.length ∧ after.length < l.length := by
      rw [hl, List.length_append, List.length_cons]
      omega
    rw [hl]
    exact append before a after hsep (sep_induction sep free append before)
      (sep_induction sep free append after)
  · exact free l fun a ha => Bool.eq_false_iff.mpr fun h => hsep ⟨a, ha, h⟩
termination_by l.length
decreasing_by
  · exact hlen.1
  · exact hlen.2

/-- A field is a text without a separator that has one, or an end of the whole, at either side. -/
theorem mem_fields_iff (hne : w ≠ []) (hw : ∀ x ∈ w, sep x = false) :
    w ∈ fields sep l ↔ ∃ a b, l = a ++ w ++ b ∧ (∀ x ∈ a.getLast?, sep x = true) ∧
      ∀ x ∈ b.head?, sep x = true := by
  constructor
  · induction l using sep_induction sep with
    | free l hl =>
      intro hmem
      have hl' : l ≠ [] := by
        rintro rfl
        exact List.not_mem_nil hmem
      rw [fields_eq_singleton hl' hl, List.mem_singleton] at hmem
      exact ⟨[], [], by simp [hmem], by simp, by simp⟩
    | append l x l' hx ih ih' =>
      intro hmem
      rw [fields_append_cons hx, List.mem_append] at hmem
      rcases hmem with hmem | hmem
      · obtain ⟨a, b, rfl, ha, hb⟩ := ih hmem
        refine ⟨a, b ++ x :: l', by simp, ha, ?_⟩
        cases b with
        | nil => simpa using hx
        | cons y b => exact hb
      · obtain ⟨a, b, rfl, ha, hb⟩ := ih' hmem
        refine ⟨l ++ x :: a, b, by simp, ?_, hb⟩
        rcases a.eq_nil_or_concat with rfl | ⟨a, y, rfl⟩
        · simpa using hx
        · rw [List.concat_eq_append] at ha ⊢
          rw [← List.cons_append, ← List.append_assoc, List.getLast?_concat]
          rwa [List.getLast?_concat] at ha
  · rintro ⟨a, b, rfl, ha, hb⟩
    have hfirst : w ∈ fields sep (w ++ b) := by
      cases b with
      | nil => rw [List.append_nil, fields_eq_singleton hne hw]; exact List.mem_singleton_self w
      | cons y b =>
        rw [fields_append_cons (hb y rfl), fields_eq_singleton hne hw]
        exact List.mem_append_left _ (List.mem_singleton_self w)
    rcases a.eq_nil_or_concat with rfl | ⟨a, x, rfl⟩
    · exact hfirst
    · rw [List.concat_eq_append] at ha ⊢
      have hx : sep x = true := ha x (by rw [List.getLast?_concat]; rfl)
      rw [show a ++ [x] ++ w ++ b = a ++ x :: (w ++ b) by simp, fields_append_cons hx]
      exact List.mem_append_right _ hfirst

/-- Splitting at separators of two kinds is splitting the fields of the first kind again. -/
theorem flatMap_fields (l : List α) :
    (fields sep l).flatMap (fields sep') = fields (fun a => sep a || sep' a) l := by
  induction l using sep_induction sep with
  | free w hw =>
    have hcongr : fields (fun a => sep a || sep' a) w = fields sep' w :=
      fields_congr fun a ha => by rw [hw a ha, Bool.false_or]
    by_cases hne : w = []
    · subst hne
      rfl
    · rw [hcongr, fields_eq_singleton hne hw, List.flatMap_cons, List.flatMap_nil, List.append_nil]
  | append l a l' ha ih ih' =>
    have ha' : (sep a || sep' a) = true := by rw [ha, Bool.true_or]
    rw [fields_append_cons ha, @fields_append_cons _ (fun a => sep a || sep' a) _ ha',
      List.flatMap_append, ih, ih']

/-- The fields of a text in which separators are written as other ones. -/
theorem fields_map {f : α → α} (h : ∀ a, sep (f a) = true ∨ f a = a) (l : List α) :
    fields sep (l.map f) = fields (fun a => sep (f a)) l := by
  induction l using sep_induction fun a => sep (f a) with
  | free w hw =>
    have hself : ∀ a ∈ w, f a = a := fun a ha => (h a).resolve_left (by simp [hw a ha])
    rw [List.map_congr_left hself, List.map_id']
    exact fields_congr fun a ha => by rw [hself a ha]
  | append l a l' ha ih ih' =>
    rw [List.map_append, List.map_cons, fields_append_cons ha,
      @fields_append_cons _ (fun a => sep (f a)) _ ha, ih, ih']

/-! ## What stands in front of a separator -/

/-- A text without the separator that begins another one lies in front of its first separator. -/
theorem prefix_of_notMem {sep : α} {r t d rest : List α} (hr : sep ∉ r)
    (h : r ++ t = d ++ sep :: rest) : ∃ x, d = r ++ x ∧ t = x ++ sep :: rest := by
  rcases List.append_eq_append_iff.mp h with ⟨x, hd, ht⟩ | ⟨x, rfl, hx⟩
  · exact ⟨x, hd, ht⟩
  · cases x with
    | nil => exact ⟨[], by simp, by simpa using hx.symm⟩
    | cons c x =>
      obtain ⟨rfl, -⟩ := List.cons.inj hx
      exact absurd (by simp) hr

/-- Two texts with a separator each agree part by part if the separators are the first ones. -/
theorem append_sep_inj {sep : α} {a b v w : List α} (ha : sep ∉ a) (hb : sep ∉ b)
    (h : a ++ sep :: v = b ++ sep :: w) : a = b ∧ v = w := by
  obtain ⟨x, rfl, hx⟩ := prefix_of_notMem ha h
  cases x with
  | nil => exact ⟨by simp, (List.cons.inj hx).2⟩
  | cons c x =>
    obtain ⟨rfl, -⟩ := List.cons.inj hx
    exact absurd (by simp) hb

end Lib
