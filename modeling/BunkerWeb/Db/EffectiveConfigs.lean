import BunkerWeb.Db.ConfigsUnique
import BunkerWeb.Db.Save
import BunkerWeb.Db.TemplateMap
import BunkerWeb.Lib.Merging

/-!
# The custom configurations that are in force (`get_custom_configs`, `get_custom_config`)

A service has the configurations that are stored for it, and those of its template that no stored
one replaces. `get_custom_configs` looks for the template among all keys of a map that begin with
the name of the service; `get_custom_config` asks the map for the one key.

- **The list** (`getCustomConfigs_eq`): the configurations are merged by service, type and name.
- **What it is for** (`Effective`): each type and name once, from the rows or from the template of
  the service.
- **The result** (`effective_iff`): a key with the same beginning brings the configurations of
  another template (`Undisturbed.foreign`), and a draft hides the template from the look-up
  (`Undisturbed.noDraft`).
-/

namespace BunkerWeb.Db.EffectiveConfigs

open Lib CustomConfigs

variable {Data Digest : Type}

/-- A row of `Template_custom_configs`. -/
structure TemplateConfig (Data Digest : Type) where
  templateId : String
  type : String
  name : String
  data : Data
  checksum : Digest
  order : Int

/-- The database with the contents of its custom configurations. The rows are in the order in which
the database returns them. -/
structure State (Data Digest : Type) where
  db : Database
  customConfigs : List (Row Data Digest)
  templateConfigs : List (TemplateConfig Data Digest)

/-- The dictionary of a configuration; `method = none` is the text `default`. -/
structure Listed (Data Digest : Type) where
  serviceId : Option String
  type : String
  name : String
  checksum : Digest
  method : Option Method
  template : Option String
  isDraft : Bool
  data : Data
  deriving DecidableEq, Repr

/-- `CUSTOM_CONFIGS_TYPES_ENUM`. -/
def customConfigsTypes : List String :=
  ["http", "stream", "server_http", "server_stream", "default_server_http", "modsec", "modsec_crs",
    "crs_plugins_before", "crs_plugins_after"]

/-- `.replace("_", "-").replace(".conf", "").strip()`. -/
def configType (type : String) : String :=
  String.ofList (stripChars (removeConf (type.toList.map fun c => if c = '_' then '-' else c)))

/-- `.replace("-", "_")`. -/
def underscored (type : String) : String :=
  String.ofList (type.toList.map fun c => if c = '-' then '_' else c)

def ofRow (r : Row Data Digest) : Listed Data Digest where
  serviceId := r.key.1
  type := r.key.2.1
  name := r.key.2.2
  checksum := r.checksum
  method := some r.method
  template := none
  isDraft := r.isDraft
  data := r.data

def ofTemplate (service template : String) (t : TemplateConfig Data Digest) :
    Listed Data Digest where
  serviceId := some service
  type := configType t.type
  name := t.name
  checksum := t.checksum
  method := none
  template := some template
  isDraft := false
  data := t.data

namespace State

/-- `allowed_services`; the order in which the set is gone through only orders the result. -/
def allowedServices (st : State Data Digest) (withDrafts : Bool) : List String :=
  (st.db.services.items.filter fun s => withDrafts || !s.2.isDraft).map Prod.fst

/-- The rows that are listed. -/
def storedConfigs (st : State Data Digest) (withDrafts : Bool) : List (Listed Data Digest) :=
  st.customConfigs.filterMap fun r =>
    if r.key.1.any fun s => s ≠ "" && !(st.allowedServices withDrafts).contains s then none
    else if r.isDraft && !withDrafts then none
    else some (ofRow r)

/-- The configurations of a template, `order_by(Template_custom_configs.order)`. -/
def configsOf (st : State Data Digest) (template : String) : List (TemplateConfig Data Digest) :=
  (st.templateConfigs.filter (·.templateId = template)).insertionSort fun t u => t.order ≤ u.order

/-- A configuration of a template, unless one is there for its type and name. -/
def addConfig (service template : String) (configs : List (Listed Data Digest))
    (t : TemplateConfig Data Digest) : List (Listed Data Digest) :=
  if configs.any fun c => c.serviceId = some service &&
      underscored c.type = underscored (configType t.type) && c.name = t.name then configs
  else configs ++ [ofTemplate service template t]

/-- A key of the map, for a service. -/
def addTemplate (st : State Data Digest) (service : String) (configs : List (Listed Data Digest))
    (e : String × String) : List (Listed Data Digest) :=
  if (service ++ "_").toList.isPrefixOf e.1.toList then
    (st.configsOf e.2).foldl (addConfig service e.2) configs
  else configs

/-- `get_custom_configs`, as a list with the data; `entries` are the items of
`get_non_default_settings`, in the order of the dictionary. -/
def getCustomConfigs (st : State Data Digest) (withDrafts : Bool)
    (entries : List (String × String)) : List (Listed Data Digest) :=
  let customConfigs := st.storedConfigs withDrafts
  if entries.isEmpty then customConfigs
  else
    (st.allowedServices withDrafts).foldl
      (fun configs service => entries.foldl (st.addTemplate service) configs) customConfigs

/-- `get_custom_config`; none is the empty dictionary. -/
def getCustomConfig (st : State Data Digest) (type name : String) (serviceId : Option String) :
    Option (Listed Data Digest) :=
  let type := columnType type
  match st.customConfigs.find? fun r => r.key = (serviceId, type, name) with
  | some r => some { ofRow r with serviceId, type, name }
  | none =>
    match serviceId with
    | none => none
    | some service =>
      if service = "" then none
      else
        let template := ((templateMap st.db true).lookup (joinKey service "USE_TEMPLATE")).getD ""
        if template = "" then none
        else
          (st.templateConfigs.find? fun t =>
            t.templateId = template && t.type = type && t.name = name).map fun t =>
              { ofTemplate service template t with type }

end State

/-! ## What the list is for -/

/-- Service, type and name, with the type as the column has it. -/
def Listed.key (c : Listed Data Digest) : Key := (c.serviceId, underscored c.type, c.name)

def TemplateConfig.key (service : String) (t : TemplateConfig Data Digest) : Key :=
  (some service, t.type, t.name)

/-- What the tables hold: a multisite configuration, one row for each configuration of a service,
and types of the enumeration. -/
structure Standing (st : State Data Digest) : Prop where
  multisite : Multisite st.db
  unique : CustomConfigs.Unique (ofServices st.customConfigs)
  rowTypes : ∀ r ∈ st.customConfigs, r.key.2.1 ∈ customConfigsTypes
  templateTypes : ∀ t ∈ st.templateConfigs, t.type ∈ customConfigsTypes

/-- A configuration is stored for the service, and is not a draft. -/
def Given (st : State Data Digest) (k : Key) : Prop :=
  ∃ r ∈ st.customConfigs, r.isDraft = false ∧ r.key = k

/-- A configuration of the template that the service uses. -/
def Used (st : State Data Digest) (service : String) (t : TemplateConfig Data Digest) : Prop :=
  t ∈ st.templateConfigs ∧ effectiveTemplate st.db service = some t.templateId

/-- What is listed for a service. -/
def listOf (st : State Data Digest) (entries : List (String × String)) (service : String) :
    List (Listed Data Digest) :=
  (st.getCustomConfigs false entries).filter (·.serviceId = some service)

/-- Each type and name is listed once: from the row that is stored and is not a draft, or else from
the template that the service uses; and the look-up returns the same. -/
structure Effective (st : State Data Digest) (entries : List (String × String))
    (service : String) : Prop where
  once : ((listOf st entries service).map Listed.key).Nodup
  rows : ∀ r ∈ st.customConfigs, r.isDraft = false → r.key.1 = some service →
    ofRow r ∈ listOf st entries service
  templates : ∀ t, Used st service t → ¬Given st (t.key service) →
    ∃ c ∈ listOf st entries service, c.key = t.key service
  nothingElse : ∀ c ∈ listOf st entries service,
    (∃ r ∈ st.customConfigs, r.isDraft = false ∧ r.key.1 = some service ∧ c = ofRow r) ∨
      ∃ t, Used st service t ∧ ¬Given st (t.key service) ∧ c = ofTemplate service t.templateId t
  same : ∀ c ∈ listOf st entries service,
    st.getCustomConfig c.type c.name (some service) = some { c with type := columnType c.type }

/-! ## The condition -/

/-- The templates that are looked for in the name of a service. -/
def visited (entries : List (String × String)) (service : String) : List String :=
  (entries.filter fun e => (service ++ "_").toList.isPrefixOf e.1.toList).map Prod.snd

/-- What the two readers take over from a configuration of a template. -/
def TemplateConfig.content (t : TemplateConfig Data Digest) : Data × Digest := (t.data, t.checksum)

/-- The look-up of a configuration of a template. -/
def TemplateConfig.isLike (t u : TemplateConfig Data Digest) : Bool :=
  u.templateId = t.templateId && u.type = t.type && u.name = t.name

structure Undisturbed (st : State Data Digest) (entries : List (String × String))
    (service : String) : Prop where
  /-- Of another template that a key names, each configuration is stored for the service, or is
  one of its own template that an earlier key has named. -/
  foreign : ∀ before id after, visited entries service = before ++ id :: after →
    effectiveTemplate st.db service ≠ some id → ∀ t ∈ st.templateConfigs, t.templateId = id →
      Given st (t.key service) ∨
        ∃ u, Used st service u ∧ u.templateId ∈ before ∧ u.key service = t.key service
  /-- No draft stands for a configuration of the template. -/
  noDraft : ∀ t, Used st service t → ¬Given st (t.key service) →
    ∀ r ∈ st.customConfigs, r.key ≠ t.key service
  /-- The service and its template have names. -/
  named : ∀ t, Used st service t → ¬Given st (t.key service) → service ≠ "" ∧ t.templateId ≠ ""
  /-- Of two configurations of the template with one type and name, the first row and the first in
  order have the same content. -/
  first : ∀ t, Used st service t → ¬Given st (t.key service) →
    (st.templateConfigs.find? t.isLike).map TemplateConfig.content =
      ((st.configsOf t.templateId).find? t.isLike).map TemplateConfig.content

/-! ## Types -/

theorem underscored_configType : ∀ type ∈ customConfigsTypes,
    underscored (configType type) = type := by decide

theorem underscored_of_mem : ∀ type ∈ customConfigsTypes, underscored type = type := by decide

theorem columnType_configType : ∀ type ∈ customConfigsTypes,
    columnType (configType type) = type := by decide

theorem columnType_of_types : ∀ type ∈ customConfigsTypes, columnType type = type := by decide

section

variable {st : State Data Digest} {entries : List (String × String)} {service : String}
  {c : Listed Data Digest} {r : Row Data Digest} {t : TemplateConfig Data Digest}

theorem Standing.key_ofRow (h : Standing st) (hr : r ∈ st.customConfigs) :
    (ofRow r).key = r.key := by
  show (r.key.1, underscored r.key.2.1, r.key.2.2) = r.key
  rw [underscored_of_mem _ (h.rowTypes r hr)]

theorem Standing.key_ofTemplate (h : Standing st) (ht : t ∈ st.templateConfigs)
    (service template : String) : (ofTemplate service template t).key = t.key service := by
  show (some service, underscored (configType t.type), t.name) = t.key service
  rw [underscored_configType _ (h.templateTypes t ht)]
  rfl

/-! ## The list as a merge -/

/-- What the keys of the map bring for a service. -/
def candidates (st : State Data Digest) (entries : List (String × String)) (service : String) :
    List (Listed Data Digest) :=
  (visited entries service).flatMap fun id => (st.configsOf id).map (ofTemplate service id)

theorem foldl_addConfig (template : String) (configs : List (Listed Data Digest))
    (ts : List (TemplateConfig Data Digest)) :
    ts.foldl (State.addConfig service template) configs =
      merge Listed.key configs (ts.map (ofTemplate service template)) := by
  rw [merge, List.foldl_map]
  congr 1
  funext configs t
  unfold State.addConfig
  congr 1
  simp [Listed.key, ofTemplate, Prod.ext_iff, and_assoc]

theorem foldl_addTemplate (configs : List (Listed Data Digest)) :
    entries.foldl (st.addTemplate service) configs =
      merge Listed.key configs (candidates st entries service) := by
  induction entries generalizing configs with
  | nil => rfl
  | cons e entries ih =>
    rw [List.foldl_cons, ih]
    unfold State.addTemplate candidates visited
    rw [List.filter_cons]
    split
    · rw [List.map_cons, List.flatMap_cons, merge_append, foldl_addConfig]
    · rfl

/-- The configurations are merged by service, type and name. -/
theorem getCustomConfigs_eq (st : State Data Digest) (withDrafts : Bool)
    (entries : List (String × String)) :
    st.getCustomConfigs withDrafts entries =
      merge Listed.key (st.storedConfigs withDrafts)
        ((st.allowedServices withDrafts).flatMap (candidates st entries)) := by
  have hfold : ∀ (services : List String) (configs : List (Listed Data Digest)),
      services.foldl (fun configs service => entries.foldl (st.addTemplate service) configs)
        configs = merge Listed.key configs (services.flatMap (candidates st entries)) := by
    intro services
    induction services with
    | nil => exact fun _ => rfl
    | cons service services ih =>
      intro configs
      rw [List.foldl_cons, ih, List.flatMap_cons, merge_append, foldl_addTemplate]
  unfold State.getCustomConfigs
  cases entries with
  | nil =>
    have hnone : (st.allowedServices withDrafts).flatMap (candidates st []) = [] :=
      List.flatMap_eq_nil_iff.mpr fun _ _ => rfl
    rw [hnone]
    rfl
  | cons e entries => exact hfold _ _

/-! ## The list of one service -/

theorem serviceId_of_mem_candidates (h : c ∈ candidates st entries service) :
    c.serviceId = some service := by
  obtain ⟨id, -, hc⟩ := List.mem_flatMap.mp h
  obtain ⟨t, -, rfl⟩ := List.mem_map.mp hc
  rfl

theorem nodup_allowedServices (st : State Data Digest) (withDrafts : Bool) :
    (st.allowedServices withDrafts).Nodup :=
  (Dict.items_keys_nodup st.db.services).sublist (List.filter_sublist.map _)

/-- The candidates of all services, without those of the others. -/
theorem filter_candidates (hservice : service ∈ st.allowedServices false) :
    ((st.allowedServices false).flatMap (candidates st entries)).filter
        (·.serviceId = some service) = candidates st entries service := by
  have hother : ∀ services : List String, service ∉ services →
      (services.flatMap (candidates st entries)).filter (·.serviceId = some service) = [] := by
    intro services hnot
    rw [List.filter_eq_nil_iff]
    intro c hc heq
    obtain ⟨other, hmem, hc⟩ := List.mem_flatMap.mp hc
    rw [serviceId_of_mem_candidates hc, decide_eq_true_iff, Option.some_inj] at heq
    exact hnot (heq ▸ hmem)
  have hown : (candidates st entries service).filter (·.serviceId = some service) =
      candidates st entries service :=
    List.filter_eq_self.mpr fun c hc => decide_eq_true (serviceId_of_mem_candidates hc)
  obtain ⟨before, after, hsplit⟩ := List.append_of_mem hservice
  have hnodup := nodup_allowedServices st false
  rw [hsplit] at hnodup ⊢
  obtain ⟨-, hcons, hdisjoint⟩ := List.nodup_append.mp hnodup
  rw [List.flatMap_append, List.flatMap_cons, List.filter_append, List.filter_append, hown,
    hother before fun hmem => hdisjoint _ hmem _ List.mem_cons_self rfl,
    hother after (List.nodup_cons.mp hcons).1, List.nil_append, List.append_nil]

/-- The rows that are listed for the service. -/
def storedOf (st : State Data Digest) (service : String) : List (Listed Data Digest) :=
  (st.storedConfigs false).filter (·.serviceId = some service)

theorem listOf_eq (hservice : service ∈ st.allowedServices false) :
    listOf st entries service =
      merge Listed.key (storedOf st service) (candidates st entries service) := by
  have hfilter := filter_merge Listed.key (st.storedConfigs false)
    ((st.allowedServices false).flatMap (candidates st entries))
    fun k => decide (k.1 = some service)
  rw [← getCustomConfigs_eq] at hfilter
  refine hfilter.trans ?_
  show merge _ (storedOf st service) _ = _
  exact congrArg (merge _ _) (filter_candidates hservice)

theorem mem_storedOf (hservice : service ∈ st.allowedServices false) :
    c ∈ storedOf st service ↔
      ∃ r ∈ st.customConfigs, r.isDraft = false ∧ r.key.1 = some service ∧ c = ofRow r := by
  have hallowed : (st.allowedServices false).contains service = true := by simpa using hservice
  simp only [storedOf, State.storedConfigs, List.mem_filter, List.mem_filterMap]
  constructor
  · rintro ⟨⟨r, hr, hlisted⟩, hid⟩
    split at hlisted
    · cases hlisted
    · split at hlisted
      · cases hlisted
      · rename_i hdraft
        cases hlisted
        exact ⟨r, hr, by simpa using hdraft, of_decide_eq_true hid, rfl⟩
  · rintro ⟨r, hr, hdraft, hid, rfl⟩
    refine ⟨⟨r, hr, ?_⟩, decide_eq_true hid⟩
    simp only [hid, Option.any_some, hallowed, hdraft]
    simp

/-- The keys of the rows that are listed. -/
theorem Standing.mem_keys_storedOf (h : Standing st) (hservice : service ∈ st.allowedServices false)
    {k : Key} (hk : k.1 = some service) :
    k ∈ (storedOf st service).map Listed.key ↔ Given st k := by
  rw [List.mem_map]
  constructor
  · rintro ⟨c, hc, rfl⟩
    obtain ⟨r, hr, hdraft, -, rfl⟩ := (mem_storedOf hservice).mp hc
    exact ⟨r, hr, hdraft, (h.key_ofRow hr).symm⟩
  · rintro ⟨r, hr, hdraft, rfl⟩
    exact ⟨ofRow r, (mem_storedOf hservice).mpr ⟨r, hr, hdraft, hk, rfl⟩, h.key_ofRow hr⟩

theorem Standing.nodup_storedOf (h : Standing st) (service : String) :
    ((storedOf st service).map Listed.key).Nodup := by
  have hrows : st.customConfigs.Pairwise fun r r' =>
      r.key.1.isSome = true → r'.key.1.isSome = true → r.key ≠ r'.key := by
    have hunique := h.unique
    rwa [CustomConfigs.Unique, ofServices, List.Nodup, List.pairwise_map,
      List.pairwise_filter] at hunique
  have hlisted : ∀ {r : Row Data Digest} {c : Listed Data Digest},
      (if r.key.1.any fun s => s ≠ "" && !(st.allowedServices false).contains s then none
        else if r.isDraft && !false then none else some (ofRow r)) = some c → c = ofRow r := by
    intro r c heq
    split at heq
    · cases heq
    · split at heq
      · cases heq
      · exact (Option.some.inj heq).symm
  rw [List.Nodup, List.pairwise_map, storedOf, List.pairwise_filter, State.storedConfigs,
    List.pairwise_filterMap]
  refine hrows.imp_of_mem fun {r r'} hr hr' hne c hc c' hc' hid hid' => ?_
  obtain rfl := hlisted hc
  obtain rfl := hlisted hc'
  rw [h.key_ofRow hr, h.key_ofRow hr']
  have hid : r.key.1 = some service := of_decide_eq_true hid
  have hid' : r'.key.1 = some service := of_decide_eq_true hid'
  exact hne (by rw [hid]; rfl) (by rw [hid']; rfl)

theorem mem_configsOf {id : String} :
    t ∈ st.configsOf id ↔ t ∈ st.templateConfigs ∧ t.templateId = id := by
  simp [State.configsOf]

/-- The key of the service names its template. -/
theorem Used.mem_visited (ht : Used st service t) (h : Standing st)
    (hservice : service ∈ st.allowedServices false)
    (hentries : entries.Perm (templateMap st.db false).items) :
    t.templateId ∈ visited entries service := by
  have hlookup := lookup_templateMap (d := false) h.multisite hservice
  rw [ht.2] at hlookup
  refine List.mem_map.mpr ⟨(joinKey service "USE_TEMPLATE", t.templateId),
    List.mem_filter.mpr ⟨hentries.mem_iff.mpr (Dict.mem_items.mpr hlookup), ?_⟩, rfl⟩
  simp [joinKey, List.isPrefixOf_iff_prefix]

/-- A configuration of the template is a candidate. -/
theorem Used.mem_candidates (ht : Used st service t) (h : Standing st)
    (hservice : service ∈ st.allowedServices false)
    (hentries : entries.Perm (templateMap st.db false).items) :
    ofTemplate service t.templateId t ∈ candidates st entries service :=
  List.mem_flatMap.mpr ⟨_, ht.mem_visited h hservice hentries,
    List.mem_map_of_mem (mem_configsOf.mpr ⟨ht.1, rfl⟩)⟩

/-! ## What always holds -/

theorem Standing.once (h : Standing st) (hservice : service ∈ st.allowedServices false) :
    ((listOf st entries service).map Listed.key).Nodup := by
  rw [listOf_eq hservice]
  exact nodup_merge (h.nodup_storedOf service)

theorem ofRow_mem_listOf (hservice : service ∈ st.allowedServices false)
    (hr : r ∈ st.customConfigs) (hdraft : r.isDraft = false) (hid : r.key.1 = some service) :
    ofRow r ∈ listOf st entries service := by
  rw [listOf_eq hservice]
  exact prefix_merge.subset ((mem_storedOf hservice).mpr ⟨r, hr, hdraft, hid, rfl⟩)

theorem Used.listed (ht : Used st service t) (h : Standing st)
    (hservice : service ∈ st.allowedServices false)
    (hentries : entries.Perm (templateMap st.db false).items) :
    ∃ c ∈ listOf st entries service, c.key = t.key service := by
  rw [listOf_eq hservice]
  obtain ⟨c, hc, hkey⟩ := exists_mem_merge Listed.key (storedOf st service)
    (ht.mem_candidates h hservice hentries)
  exact ⟨c, hc, hkey.trans (h.key_ofTemplate ht.1 service _)⟩

/-- Where a listed configuration comes from: from a row, or from the first key that names a
template with its type and name. -/
theorem Standing.mem_listOf (h : Standing st) (hservice : service ∈ st.allowedServices false)
    (hc : c ∈ listOf st entries service) :
    (∃ r ∈ st.customConfigs, r.isDraft = false ∧ r.key.1 = some service ∧ c = ofRow r) ∨
      ∃ before t after, visited entries service = before ++ t.templateId :: after ∧
        t ∈ st.templateConfigs ∧ c = ofTemplate service t.templateId t ∧
        ¬Given st (t.key service) ∧
        (∀ u ∈ st.templateConfigs, u.templateId ∈ before → u.key service ≠ t.key service) ∧
        (st.configsOf t.templateId).find? t.isLike = some t := by
  rw [listOf_eq hservice] at hc
  rcases mem_merge_flatMap hc with hstored |
    ⟨hnew, before, id, after, before', after', hvisited, hbefore, hgroup, hbefore'⟩
  · exact .inl ((mem_storedOf hservice).mp hstored)
  obtain ⟨ts, us, hconfigs, rfl, hus⟩ := List.map_eq_append_iff.mp hgroup
  obtain ⟨t, vs, rfl, rfl, rfl⟩ := List.map_eq_cons_iff.mp hus
  have ht : t ∈ st.configsOf id := by
    rw [hconfigs]
    exact List.mem_append_right _ List.mem_cons_self
  obtain ⟨hmem, rfl⟩ := mem_configsOf.mp ht
  rw [h.key_ofTemplate hmem] at hnew hbefore hbefore'
  refine .inr ⟨before, t, after, hvisited, hmem, rfl,
    mt (h.mem_keys_storedOf hservice rfl).mpr hnew, ?_, ?_⟩
  · intro u hu huid heq
    refine hbefore (List.mem_map.mpr ⟨ofTemplate service u.templateId u, ?_, ?_⟩)
    · exact List.mem_flatMap.mpr ⟨_, huid, List.mem_map_of_mem (mem_configsOf.mpr ⟨hu, rfl⟩)⟩
    · rw [h.key_ofTemplate hu, heq]
  · rw [hconfigs, List.find?_append, List.find?_eq_none.mpr, Option.none_or, List.find?_cons_of_pos]
    · simp [TemplateConfig.isLike]
    · intro u hu hlike
      simp only [TemplateConfig.isLike, Bool.and_eq_true, decide_eq_true_eq] at hlike
      have humem : u ∈ st.configsOf t.templateId := by
        rw [hconfigs]
        exact List.mem_append_left _ hu
      refine hbefore' (List.mem_map.mpr ⟨_, List.mem_map_of_mem hu, ?_⟩)
      rw [h.key_ofTemplate (mem_configsOf.mp humem).1]
      simp [TemplateConfig.key, hlike.1.2, hlike.2]

/-! ## The look-up -/

/-- A row is found, whether it is a draft or not. -/
theorem getCustomConfig_of_row {service : String} (type name : String)
    (hr : ∃ r ∈ st.customConfigs, r.key = (some service, columnType type, name)) :
    ∃ r ∈ st.customConfigs, r.key = (some service, columnType type, name) ∧
      st.getCustomConfig type name (some service) = some (ofRow r) := by
  obtain ⟨r, hr, hkey⟩ := hr
  have hsome : (st.customConfigs.find? fun r =>
      decide (r.key = (some service, columnType type, name))).isSome :=
    List.find?_isSome.mpr ⟨r, hr, decide_eq_true hkey⟩
  obtain ⟨found, hfound⟩ := Option.isSome_iff_exists.mp hsome
  have hfoundKey : found.key = (some service, columnType type, name) := by
    simpa using List.find?_some hfound
  refine ⟨found, List.mem_of_find?_eq_some hfound, hfoundKey, ?_⟩
  simp only [State.getCustomConfig, hfound, ofRow, hfoundKey]

/-- Without a row, the template of the service is asked. -/
theorem Standing.getCustomConfig_of_template (h : Standing st)
    (hservice : service ∈ st.allowedServices false) (ht : Used st service t)
    (hnone : ∀ r ∈ st.customConfigs, r.key ≠ t.key service) :
    st.getCustomConfig (configType t.type) t.name (some service) =
      if service = "" ∨ t.templateId = "" then none
      else (st.templateConfigs.find? t.isLike).map fun u =>
        { ofTemplate service t.templateId u with type := t.type } := by
  have hlisted : service ∈ (serviceList st.db (filteredQuery true)).map Prod.fst := by
    obtain ⟨sv, hsv, rfl⟩ := List.mem_map.mp hservice
    exact List.mem_map.mpr ⟨sv, List.mem_filter.mpr ⟨(List.mem_filter.mp hsv).1, rfl⟩, rfl⟩
  have hlookup := lookup_templateMap h.multisite hlisted
  have hfind : (st.customConfigs.find? fun r =>
      decide (r.key = (some service, t.type, t.name))) = none :=
    List.find?_eq_none.mpr fun r hr => by
      rw [decide_eq_true_eq]
      exact hnone r hr
  have htype := columnType_configType _ (h.templateTypes t ht.1)
  simp only [State.getCustomConfig, htype, hfind, hlookup, ht.2, Option.getD_some]
  by_cases hname : service = ""
  · simp [hname]
  · by_cases htemplate : t.templateId = ""
    · simp [htemplate]
    · rw [if_neg hname, if_neg htemplate, if_neg (by simp [hname, htemplate])]
      rfl

/-- The two readers agree about a configuration of the template if they agree about its content. -/
theorem Standing.same_iff (h : Standing st) (hservice : service ∈ st.allowedServices false)
    (ht : Used st service t) (hnone : ∀ r ∈ st.customConfigs, r.key ≠ t.key service)
    (hnames : service ≠ "" ∧ t.templateId ≠ "") :
    st.getCustomConfig (configType t.type) t.name (some service) =
        some { ofTemplate service t.templateId t with type := columnType (configType t.type) } ↔
      (st.templateConfigs.find? t.isLike).map TemplateConfig.content = some t.content := by
  rw [h.getCustomConfig_of_template hservice ht hnone, if_neg (by simp [hnames]),
    columnType_configType _ (h.templateTypes t ht.1)]
  cases hfind : st.templateConfigs.find? t.isLike with
  | none => simp
  | some u =>
    have hlike := List.find?_some hfind
    simp only [TemplateConfig.isLike, Bool.and_eq_true, decide_eq_true_eq] at hlike
    simp [ofTemplate, TemplateConfig.content, hlike.2, and_comm]

/-! ## The result -/

/-- Under `nothingElse`, what is listed for a configuration of the template. -/
theorem Effective.exists_listed (heffective : Effective st entries service) (h : Standing st)
    (hservice : service ∈ st.allowedServices false) (ht : Used st service t)
    (hnew : ¬Given st (t.key service)) :
    ∃ u before after, Used st service u ∧ u.key service = t.key service ∧
      visited entries service = before ++ u.templateId :: after ∧
      ofTemplate service u.templateId u ∈ listOf st entries service ∧
      (st.configsOf u.templateId).find? u.isLike = some u := by
  obtain ⟨c, hc, hkey⟩ := heffective.templates t ht hnew
  have hrow : ∀ r ∈ st.customConfigs, r.isDraft = false → c ≠ ofRow r := by
    rintro r hr hdraft rfl
    exact hnew ⟨r, hr, hdraft, (h.key_ofRow hr).symm.trans hkey⟩
  rcases heffective.nothingElse c hc with ⟨r, hr, hdraft, -, heq⟩ | ⟨own, hown, -, hceq⟩
  · exact absurd heq (hrow r hr hdraft)
  rcases h.mem_listOf hservice hc with
    ⟨r, hr, hdraft, -, heq⟩ | ⟨before, u, after, hvisited, hu, rfl, -, -, hfirst⟩
  · exact absurd heq (hrow r hr hdraft)
  have htemplate : u.templateId = own.templateId := by
    simpa [ofTemplate] using congrArg Listed.template hceq
  exact ⟨u, before, after, ⟨hu, htemplate ▸ hown.2⟩,
    (h.key_ofTemplate hu service _).symm.trans hkey, hvisited, hc, hfirst⟩

/-- A template that is named is listed, unless an earlier one has its types and names. -/
theorem Effective.foreign (heffective : Effective st entries service) (h : Standing st)
    (hservice : service ∈ st.allowedServices false) {before after : List String}
    (hvisited : visited entries service = before ++ t.templateId :: after)
    (hother : effectiveTemplate st.db service ≠ some t.templateId) (ht : t ∈ st.templateConfigs)
    (hnew : ¬Given st (t.key service)) :
    ∃ u, Used st service u ∧ u.templateId ∈ before ∧ u.key service = t.key service := by
  let early := (before ++ [t.templateId]).flatMap fun id =>
    (st.configsOf id).map (ofTemplate service id)
  have hcandidate : ofTemplate service t.templateId t ∈ early :=
    List.mem_flatMap.mpr ⟨_, List.mem_append_right _ (List.mem_singleton_self _),
      List.mem_map_of_mem (mem_configsOf.mpr ⟨ht, rfl⟩)⟩
  obtain ⟨c, hc, hkey⟩ := exists_mem_merge Listed.key (storedOf st service)
    hcandidate
  rw [h.key_ofTemplate ht] at hkey
  have hlisted : c ∈ listOf st entries service := by
    rw [listOf_eq hservice, candidates, hvisited,
      show before ++ t.templateId :: after = (before ++ [t.templateId]) ++ after by simp,
      List.flatMap_append, merge_append]
    exact prefix_merge.subset hc
  rcases mem_of_mem_merge hc with hstored | hearly
  · exact absurd ((h.mem_keys_storedOf hservice rfl).mp (hkey ▸ List.mem_map_of_mem hstored)) hnew
  obtain ⟨id, hid, hgroup⟩ := List.mem_flatMap.mp hearly
  obtain ⟨u, hu, rfl⟩ := List.mem_map.mp hgroup
  obtain ⟨hmem, rfl⟩ := mem_configsOf.mp hu
  rcases heffective.nothingElse _ hlisted with ⟨r, hr, hdraft, -, heq⟩ | ⟨own, hown, -, heq⟩
  · refine absurd ⟨r, hr, hdraft, ?_⟩ hnew
    rw [← h.key_ofRow hr, ← heq, hkey]
  have htemplate : u.templateId = own.templateId := by
    simpa [ofTemplate] using congrArg Listed.template heq
  have hused : Used st service u := ⟨hmem, htemplate ▸ hown.2⟩
  refine ⟨u, hused, ?_, (h.key_ofTemplate hmem service _).symm.trans hkey⟩
  refine (List.mem_append.mp hid).resolve_right fun hlast => hother ?_
  rw [← List.mem_singleton.mp hlast]
  exact hused.2

/-- **The custom configurations in force.** The list of a service that is no draft is the effective
one, and the look-up agrees with it, if and only if the condition holds. -/
theorem effective_iff (h : Standing st) (hservice : service ∈ st.allowedServices false)
    (hentries : entries.Perm (templateMap st.db false).items) :
    Effective st entries service ↔ Undisturbed st entries service := by
  constructor
  · intro heffective
    have hnoDraft : ∀ t, Used st service t → ¬Given st (t.key service) →
        ∀ r ∈ st.customConfigs, r.key ≠ t.key service := by
      intro t ht hnew r hr hkey
      obtain ⟨u, -, -, hu, hukey, -, hlisted, -⟩ :=
        heffective.exists_listed h hservice ht hnew
      have htype := columnType_configType _ (h.templateTypes u hu.1)
      have hsame := heffective.same _ hlisted
      obtain ⟨found, -, -, hfound⟩ := getCustomConfig_of_row (configType u.type) u.name
        ⟨r, hr, by rw [htype]; exact hkey.trans hukey.symm⟩
      have htemplate := congrArg (Option.map Listed.template) (hfound.symm.trans hsame)
      simp [ofRow, ofTemplate] at htemplate
    have hsame : ∀ t, Used st service t → ¬Given st (t.key service) →
        (service ≠ "" ∧ t.templateId ≠ "") ∧
          (st.templateConfigs.find? t.isLike).map TemplateConfig.content =
            ((st.configsOf t.templateId).find? t.isLike).map TemplateConfig.content := by
      intro t ht hnew
      obtain ⟨u, -, -, hu, hukey, -, hlisted, hfirst⟩ :=
        heffective.exists_listed h hservice ht hnew
      have hid : u.templateId = t.templateId := by
        have := hu.2.symm.trans ht.2
        simpa using this
      have hlike : u.isLike = t.isLike := by
        obtain ⟨-, htype, hname⟩ : some service = some service ∧ u.type = t.type ∧
            u.name = t.name := by simpa [TemplateConfig.key] using hukey
        funext v
        simp [TemplateConfig.isLike, hid, htype, hname]
      have hnone := hnoDraft u hu (hukey ▸ hnew)
      have hreturned := heffective.same _ hlisted
      have hnames : service ≠ "" ∧ u.templateId ≠ "" := by
        by_contra hempty
        have hlookup := h.getCustomConfig_of_template hservice hu hnone
        rw [if_pos (by
          by_contra hboth
          exact hempty (not_or.mp hboth))] at hlookup
        exact absurd (hlookup.symm.trans hreturned) (by simp)
      refine ⟨hid ▸ hnames, ?_⟩
      rw [← hlike, ← hid, hfirst]
      exact (h.same_iff hservice hu hnone hnames).mp hreturned
    refine ⟨?_, hnoDraft, fun t ht hnew => (hsame t ht hnew).1, fun t ht hnew =>
      (hsame t ht hnew).2⟩
    rintro before _ after hvisited hother t ht rfl
    by_cases hgiven : Given st (t.key service)
    · exact .inl hgiven
    · exact .inr (heffective.foreign h hservice hvisited hother ht hgiven)
  · intro hundisturbed
    have hown : ∀ c ∈ listOf st entries service,
        (∃ r ∈ st.customConfigs, r.isDraft = false ∧ r.key.1 = some service ∧ c = ofRow r) ∨
          ∃ t, Used st service t ∧ ¬Given st (t.key service) ∧
            c = ofTemplate service t.templateId t ∧
            (st.configsOf t.templateId).find? t.isLike = some t := by
      intro c hc
      rcases h.mem_listOf hservice hc with
        hrow | ⟨before, t, after, hvisited, ht, rfl, hnew, hbefore, hfirst⟩
      · exact .inl hrow
      refine .inr ⟨t, ⟨ht, ?_⟩, hnew, rfl, hfirst⟩
      by_contra hother
      rcases hundisturbed.foreign before _ after hvisited hother t ht rfl with
        hgiven | ⟨u, hu, hmem, hkey⟩
      · exact hnew hgiven
      · exact hbefore u hu.1 hmem hkey
    refine ⟨h.once hservice, fun r hr hdraft hid => ofRow_mem_listOf hservice hr hdraft hid,
      fun t ht _ => ht.listed h hservice hentries, fun c hc => ?_, fun c hc => ?_⟩
    · rcases hown c hc with hrow | ⟨t, ht, hnew, heq, -⟩
      · exact .inl hrow
      · exact .inr ⟨t, ht, hnew, heq⟩
    · rcases hown c hc with ⟨r, hr, hdraft, hid, rfl⟩ | ⟨t, ht, hnew, rfl, hfirst⟩
      · have htype := columnType_of_types _ (h.rowTypes r hr)
        have hkey : r.key = (some service, columnType r.key.2.1, r.key.2.2) := by
          rw [htype, ← hid]
        obtain ⟨found, hfound, hfoundKey, hreturned⟩ := getCustomConfig_of_row r.key.2.1
          r.key.2.2 ⟨r, hr, hkey⟩
        have hservices : ∀ r' ∈ st.customConfigs, r'.key = r.key →
            r' ∈ ofServices st.customConfigs := fun r' hr' hkey' =>
          List.mem_filter.mpr ⟨hr', by rw [hkey', hid]; rfl⟩
        have hone : found = r := h.unique.eq_of_key
          (hservices found hfound (hfoundKey.trans hkey.symm)) (hservices r hr rfl)
          (hfoundKey.trans hkey.symm)
        rw [hone] at hreturned
        refine hreturned.trans ?_
        simp only [ofRow, htype]
      · exact (h.same_iff hservice ht (hundisturbed.noDraft t ht hnew)
          (hundisturbed.named t ht hnew)).mpr (by
            rw [hundisturbed.first t ht hnew, hfirst]
            rfl)

end

/-! ## Two services -/

/-- Services of the web interface, the second with a template of its own. -/
def twoSites (second : String) : State String String where
  db := site [("a", ⟨.ui, false⟩), (second, ⟨.ui, false⟩)] [(("MULTISITE", 0), ⟨"yes", "", .ui⟩)]
    [((second, "USE_TEMPLATE", 0), ⟨"low", "", .ui⟩)]
  customConfigs := [⟨(some second, "server_http", "headers"), "allow all;", "5a0d", .ui, false⟩]
  templateConfigs := [⟨"low", "modsec_crs", "exclusions", "SecRuleEngine On", "8c1f", 0⟩]

theorem effective_beside_other :
    Effective (twoSites "b") (templateMap (twoSites "b").db false).items "b" := by
  refine (effective_iff ⟨by decide +kernel, by decide, by decide, by decide⟩ (by decide)
    (List.Perm.refl _)).mpr ⟨?_, ?_, ?_, ?_⟩
  · intro before id after _ hother t ht hid
    obtain rfl := List.mem_singleton.mp ht
    exact absurd (hid ▸ (by decide : effectiveTemplate (twoSites "b").db "b" = some "low")) hother
  · intro t ht _ r hr
    obtain rfl := List.mem_singleton.mp ht.1
    obtain rfl := List.mem_singleton.mp hr
    decide
  · intro t ht _
    obtain rfl := List.mem_singleton.mp ht.1
    decide
  · intro t ht _
    obtain rfl := List.mem_singleton.mp ht.1
    decide

/-- Service `a` has no template; it is given the configuration of the template of `a_b`. -/
theorem template_of_longer_name :
    let st := twoSites "a_b"
    effectiveTemplate st.db "a" = none ∧
      ofTemplate "a" "low" ⟨"low", "modsec_crs", "exclusions", "SecRuleEngine On", "8c1f", 0⟩ ∈
        listOf st (templateMap st.db false).items "a" ∧
      ¬Effective st (templateMap st.db false).items "a" := by
  intro st
  have hnone : effectiveTemplate st.db "a" = none := by decide
  have hlisted : ofTemplate "a" "low"
      ⟨"low", "modsec_crs", "exclusions", "SecRuleEngine On", "8c1f", 0⟩ ∈
        listOf st (templateMap st.db false).items "a" := by decide +kernel
  refine ⟨hnone, hlisted, fun h => ?_⟩
  rcases h.nothingElse _ hlisted with ⟨r, -, -, -, heq⟩ | ⟨t, ht, -⟩
  · simpa [ofTemplate, ofRow] using congrArg Listed.template heq
  · rw [ht.2] at hnone
    cases hnone

end BunkerWeb.Db.EffectiveConfigs
