import BunkerWeb.Scheduler.CustomConfigs
import Mathlib.Data.List.Nodup

/-!
# What a check of the files leaves in the database

One lemma for each part of `check_configs_changes`: names (`pathStem_eq_or_lt`), the rows after
`save_custom_configs` (`foldl_putConfig`), and what `get_custom_configs` returns
(`mem_getCustomConfigs`).
-/

namespace BunkerWeb.Scheduler

open Lib

/-! ## Names and contents -/

theorem stem_eq_or_lt (name : Text) : stem name = name ∨ (stem name).length < name.length := by
  unfold stem
  split
  next => exact .inl rfl
  next c pre hpre =>
    split
    next =>
      right
      have hle := List.length_dropWhile_le (· ≠ '.') name.reverse
      rw [hpre, List.length_cons, List.length_reverse] at hle
      rw [List.length_reverse]
      omega
    next => exact .inl rfl

theorem pathStem_eq_or_lt (name : Text) :
    pathStem name = name ∨ (pathStem name).length < name.length := by
  unfold pathStem
  split
  next h => exact .inr (by rw [h]; decide)
  next => exact stem_eq_or_lt name

/-- A text is read as it is if no carriage return is in it. -/
theorem readText_eq_self_iff {text : Text} : readText text = text ↔ '\r' ∉ text := by
  induction text using readText.induct with
  | case1 => simp [readText]
  | case2 rest ih => simp [readText]
  | case3 rest hne ih => simp [readText]
  | case4 c rest hcr hc ih =>
    rw [readText, List.cons.injEq, List.mem_cons, not_or, ih]
    · constructor
      · rintro ⟨-, h⟩
        exact ⟨fun hr => hc hr.symm, h⟩
      · exact fun h => ⟨rfl, h.2⟩
    · exact hcr
    · exact hc

/-! ## Rows -/

theorem key_overwrite (method : Db.Method) (c : Incoming) (r : Row) :
    (overwrite method c r).key = r.key := by
  unfold overwrite
  split
  next => rfl
  next => split <;> rfl

/-- The row that a check makes of a row of another method. -/
theorem overwrite_manual {c : Incoming} {r : Row} (hr : r.method ≠ .manual) :
    overwrite .manual c r =
      if r.method.isUi then { r with data := c.value, isDraft := c.isDraft } else r := by
  unfold overwrite
  cases hm : r.method <;> simp_all [Db.Method.isUi, Db.methodsAreCompatible]

theorem modifyFirst_eq_map {α κ : Type} [DecidableEq κ] {key : α → κ} {l : List α}
    (hl : (l.map key).Nodup) (k : κ) (g : α → α) :
    modifyFirst (fun a => key a = k) g l = l.map fun a => if key a = k then g a else a := by
  induction l with
  | nil => rfl
  | cons a l ih =>
    obtain ⟨hnot, hl⟩ := List.nodup_cons.mp (List.map_cons ▸ hl)
    rw [modifyFirst, List.map_cons]
    by_cases ha : key a = k
    · have hrest : (l.map fun a => if key a = k then g a else a) = l := by
        refine (List.map_congr_left fun b hb => ?_).trans (List.map_id _)
        refine if_neg fun h => hnot ?_
        rw [ha, ← h]
        exact List.mem_map_of_mem hb
      rw [if_pos (by simpa using ha), if_pos ha, hrest]
    · rw [if_neg (by simpa using ha), if_neg ha, ih hl]

/-- The row after all incoming configurations. -/
def settled (method : Db.Method) (incoming : List Incoming) (r : Row) : Row :=
  match incoming.find? (·.exploded = r.key) with
  | some c => overwrite method c r
  | none => r

theorem key_settled (method : Db.Method) (incoming : List Incoming) (r : Row) :
    (settled method incoming r).key = r.key := by
  unfold settled
  split
  next => exact key_overwrite _ _ _
  next => rfl

/-- The row of an incoming configuration. -/
def newRow (method : Db.Method) (c : Incoming) : Row := ⟨c.exploded, c.value, method, c.isDraft⟩

/-- Incoming configurations with different keys: each row is overwritten by the one that has its
key, and the ones without a row are put. -/
theorem foldl_putConfig (method : Db.Method) {incoming : List Incoming}
    (hincoming : (incoming.map Incoming.exploded).Nodup) {rows : List Row}
    (hrows : (rows.map Row.key).Nodup) (toPut : List Row) :
    incoming.foldl (putConfig method) (rows, toPut) =
      (rows.map (settled method incoming),
        toPut ++ (incoming.filter fun c => !rows.any (·.key = c.exploded)).map (newRow method)) := by
  induction incoming generalizing rows toPut with
  | nil =>
    have hid : rows.map (settled method []) = rows := List.map_id rows
    rw [List.foldl_nil, hid, List.filter_nil, List.map_nil, List.append_nil]
  | cons c incoming ih =>
    obtain ⟨hnot, hincoming⟩ := List.nodup_cons.mp (List.map_cons ▸ hincoming)
    rw [List.foldl_cons, putConfig]
    have hsettled : ∀ r : Row, r.key ≠ c.exploded →
        settled method (c :: incoming) r = settled method incoming r := by
      intro r hr
      rw [settled, settled, List.find?_cons_of_neg (by simpa using hr.symm)]
    by_cases hc : rows.any (·.key = c.exploded) = true
    · rw [if_pos hc]
      let rows' := modifyFirst (·.key = c.exploded) (overwrite method c) rows
      have hmap : rows' = rows.map fun r => if r.key = c.exploded then overwrite method c r else r :=
        modifyFirst_eq_map hrows _ _
      have hkeys : rows'.map Row.key = rows.map Row.key := by
        rw [hmap, List.map_map]
        refine List.map_congr_left fun r _ => ?_
        show Row.key (if r.key = c.exploded then _ else r) = r.key
        split
        next => exact key_overwrite _ _ _
        next => rfl
      have hany : ∀ key, rows'.any (·.key = key) = rows.any (·.key = key) := fun key => by
        have h := congrArg (List.any · (· = key)) hkeys
        simpa [List.any_map, Function.comp_def] using h
      have hrows' : (rows'.map Row.key).Nodup := hkeys ▸ hrows
      rw [ih hincoming hrows']
      refine Prod.ext ?_ ?_
      · show rows'.map (settled method incoming) = rows.map (settled method (c :: incoming))
        rw [hmap, List.map_map]
        refine List.map_congr_left fun r _ => ?_
        rw [Function.comp_apply]
        by_cases hr : r.key = c.exploded
        · -- No later configuration has this key.
          have hnone : incoming.find? (·.exploded = (overwrite method c r).key) = none := by
            rw [List.find?_eq_none]
            intro c' hc' h
            rw [key_overwrite, hr, decide_eq_true_eq] at h
            exact hnot (h ▸ List.mem_map_of_mem hc')
          rw [if_pos hr, settled, hnone, settled, List.find?_cons_of_pos (by simpa using hr.symm)]
        · rw [if_neg hr, hsettled r hr]
      · show toPut ++ _ = toPut ++ _
        rw [List.filter_cons_of_neg (by simpa using hc)]
        simp only [hany]
    · have hne : ∀ r ∈ rows, r.key ≠ c.exploded := fun r hr h =>
        hc (List.any_eq_true.mpr ⟨r, hr, by simpa using h⟩)
      rw [if_neg hc, ih hincoming hrows, List.filter_cons_of_pos (by simpa using hne),
        List.map_cons, List.append_assoc, List.singleton_append]
      refine Prod.ext (List.map_congr_left fun r hr => ?_) rfl
      exact (hsettled r (hne r hr)).symm

/-! ## What `get_custom_configs` returns -/

private theorem mem_foldl_offers (offers : List Offer) (configs : List Config) (c : Config) :
    c ∈ offers.foldl (fun configs o =>
      if configs.any (·.key = o.config.key) then configs else configs ++ [o.config]) configs ↔
      c ∈ configs ∨ (∀ c' ∈ configs, c'.key ≠ c.key) ∧
        ∃ o, offers.find? (·.config.key = c.key) = some o ∧ c = o.config := by
  induction offers generalizing configs with
  | nil => simp
  | cons o offers ih =>
    rw [List.foldl_cons, ih]
    by_cases ho : configs.any (·.key = o.config.key) = true
    · rw [if_pos ho]
      refine or_congr_right (and_congr_right fun hne => ?_)
      obtain ⟨c', hc', hkey⟩ := List.any_eq_true.mp ho
      have hoc : o.config.key ≠ c.key := fun h =>
        hne c' hc' ((by simpa using hkey : c'.key = o.config.key).trans h)
      rw [List.find?_cons_of_neg (by simpa using hoc)]
    · have hnot : ∀ c' ∈ configs, c'.key ≠ o.config.key := fun c' hc' h =>
        ho (List.any_eq_true.mpr ⟨c', hc', by simpa using h⟩)
      rw [if_neg ho, List.mem_append, List.mem_singleton, or_assoc]
      refine or_congr_right ?_
      by_cases hoc : o.config.key = c.key
      · rw [List.find?_cons_of_pos (by simpa using hoc)]
        constructor
        · rintro (rfl | ⟨hne, -⟩)
          · exact ⟨hnot, o, rfl, rfl⟩
          · exact absurd hoc (hne o.config (List.mem_append_right _ (List.mem_singleton_self _)))
        · rintro ⟨-, o', ho', rfl⟩
          cases ho'
          exact .inl rfl
      · rw [List.find?_cons_of_neg (by simpa using hoc)]
        constructor
        · rintro (rfl | ⟨hne, h⟩)
          · exact absurd rfl hoc
          · exact ⟨fun c' hc' => hne c' (List.mem_append_left _ hc'), h⟩
        · rintro ⟨hne, h⟩
          refine .inr ⟨fun c' hc' => ?_, h⟩
          rcases List.mem_append.mp hc' with hc' | hc'
          · exact hne c' hc'
          · rw [List.mem_singleton.mp hc']
            exact hoc

variable {db : Db}

/-- What the templates have for a key. -/
def Db.offer (db : Db) (key : Key) : Option Offer :=
  (db.offered.filter fun o => db.allowed o.service).find? (·.config.key = key)

theorem key_of_offer {key : Key} {o : Offer} (h : db.offer key = some o) : o.config.key = key := by
  rw [Db.offer] at h
  have hkey := List.find?_some h
  exact of_decide_eq_true hkey

/-- A configuration is that of a row that shows, or the first one that the templates offer for its
key, which no such row has. -/
theorem mem_getCustomConfigs {c : Config} :
    c ∈ db.getCustomConfigs ↔ (∃ r ∈ db.rows, db.shows r = true ∧ r.config = c) ∨
      (∀ r ∈ db.rows, db.shows r = true → r.key ≠ c.key) ∧
        ∃ o, db.offer c.key = some o ∧ c = o.config := by
  rw [Db.getCustomConfigs, mem_foldl_offers]
  simp only [List.mem_map, List.mem_filter, and_assoc]
  refine or_congr_right (and_congr_left fun _ => ?_)
  constructor
  · exact fun h r hr hs => h _ ⟨r, hr, hs, rfl⟩
  · rintro h _ ⟨r, hr, hs, rfl⟩
    exact h r hr hs

/-- A key has one configuration. -/
theorem getCustomConfigs_unique (hrows : (db.rows.map Row.key).Nodup) {c c' : Config}
    (hc : c ∈ db.getCustomConfigs) (hc' : c' ∈ db.getCustomConfigs) (hkey : c.key = c'.key) :
    c = c' := by
  rcases mem_getCustomConfigs.mp hc with ⟨r, hr, hs, rfl⟩ | ⟨hno, o, ho, heq⟩
  · rcases mem_getCustomConfigs.mp hc' with ⟨r', hr', -, rfl⟩ | ⟨hno, -⟩
    · rw [List.inj_on_of_nodup_map hrows hr hr' hkey]
    · exact absurd hkey (hno r hr hs)
  · rcases mem_getCustomConfigs.mp hc' with ⟨r', hr', hs', rfl⟩ | ⟨-, o', ho', heq'⟩
    · exact absurd hkey.symm (hno r' hr' hs')
    · rw [hkey, ho'] at ho
      rw [heq, heq', Option.some.inj ho]

end BunkerWeb.Scheduler
