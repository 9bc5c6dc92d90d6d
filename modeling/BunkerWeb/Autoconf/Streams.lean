import BunkerWeb.Autoconf.Ingress
import BunkerWeb.Keys
import Mathlib.Data.List.Pairwise

/-!
# One upstream for a stream (`IngressController._to_services`)

A stream is served by one upstream, without a number and without a scheme. The reduction looks only
at the settings with the name of the service in front, which come from annotations: it keeps the
first of them (`reduceName_spec`). What the paths of a rule have set stays beside it.

`oneUpstream_iff` says of which settings the services that come out have one upstream.
-/

namespace BunkerWeb.Autoconf.Ingress

open Lib

/-! ## Settings of a name -/

/-- The key is a setting that may have a number. -/
def IsSetting (base key : Text) : Prop :=
  key = base ∨ ∃ digits, digits ≠ [] ∧ digits.all Char.isDigit ∧ key = base ++ '_' :: digits

/-- The value is a URL with a scheme. -/
def HasScheme (value : Text) : Prop := "://".toList <:+: value

instance (value : Text) : Decidable (HasScheme value) :=
  inferInstanceAs (Decidable (_ <:+: _))

/-- At most one upstream is set for the name, with no number and no scheme, and one URL for it. -/
structure OneUpstream (name : Text) (service : Service) : Prop where
  plain : ∀ key value, service.get key = some value →
    (IsSetting hostKey key → key = hostKey ∧ ¬ HasScheme value) ∧
      (IsSetting (prefixed name hostKey) key → key = prefixed name hostKey ∧ ¬ HasScheme value)
  host : hostKey ∈ service.keys → prefixed name hostKey ∉ service.keys
  url : ∀ key ∈ service.keys, ∀ key' ∈ service.keys,
    (IsSetting urlKey key ∨ IsSetting (prefixed name urlKey) key) →
      (IsSetting urlKey key' ∨ IsSetting (prefixed name urlKey) key') → key = key'

/-- The first key of an upstream with the name in front. -/
def firstHost (name : Text) (service : Service) : Option Text :=
  service.keys.find? (prefixed name hostKey).isPrefixOf

/-- The upstream that the reduction keeps: the first one, unless the key without a number comes
after it. -/
def keptHost (name : Text) (service : Service) : Option Text :=
  (firstHost name service).bind fun key =>
    if key ≠ prefixed name hostKey ∧ prefixed name hostKey ∈ service.keys then none
    else service.get key

/-- The reduction leaves a URL: there is an upstream, and the URL without a number does not come
after the first of them. -/
def KeepsUrl (name : Text) (service : Service) : Prop :=
  (firstHost name service).isSome ∧ prefixed name urlKey ∉
    service.keys.dropWhile fun key => !(prefixed name hostKey).isPrefixOf key

/-- The settings that end as one upstream. -/
structure Clean (protocol : Protocol) (name : Text) (service : Service) : Prop where
  /-- Without the name there is no upstream, or one that is alone. -/
  unprefixed : ∀ key value, service.get key = some value → IsSetting hostKey key →
    key = hostKey ∧ ¬ HasScheme value ∧ keptHost name service = none
  /-- The upstream that is kept has at most the scheme of the controller. -/
  kept : ∀ value, keptHost name service = some value →
    ¬ HasScheme (removeFirst (protocol.text ++ "://".toList) value)
  /-- Without the name there is at most one URL, and then none is kept. -/
  url : ∀ key ∈ service.keys, IsSetting urlKey key → ¬ KeepsUrl name service ∧
    ∀ key' ∈ service.keys, IsSetting urlKey key' → key = key'

/-! ## The loop over the keys -/

variable {protocol : Protocol} {name : Text}

/-- Whether a key is touched by the reduction for a name. -/
def touches (name key : Text) : Bool :=
  (prefixed name hostKey).isPrefixOf key || (prefixed name urlKey).isPrefixOf key

theorem not_touches_iff (key : Text) : touches name key = false ↔
    (prefixed name hostKey).isPrefixOf key = false ∧
      (prefixed name urlKey).isPrefixOf key = false :=
  Bool.or_eq_false_iff

theorem prefixed_prefix_iff (base base' : Text) :
    prefixed name base <+: prefixed name base' ↔ base <+: base' := by
  rw [prefixed, prefixed, List.prefix_append_right_inj, List.prefix_cons_inj]

/-- No key is an upstream and a URL. -/
theorem not_url_of_host {key : Text} (h : (prefixed name hostKey).isPrefixOf key = true) :
    (prefixed name urlKey).isPrefixOf key = false := by
  rw [Bool.eq_false_iff]
  intro hurl
  rw [List.isPrefixOf_iff_prefix] at h hurl
  rcases List.prefix_or_prefix_of_prefix h hurl with hp | hp
  · exact absurd ((prefixed_prefix_iff _ _).mp hp) (by decide)
  · exact absurd ((prefixed_prefix_iff _ _).mp hp) (by decide)

/-- Keys before the first upstream: those of URLs go. -/
theorem foldl_reduceKey_before (protocol : Protocol) (service : Service) {keys : List Text}
    (h : ∀ key ∈ keys, (prefixed name hostKey).isPrefixOf key = false) :
    (keys.foldl (reduceKey protocol name) (service, false)).2 = false ∧
      ∀ key, (keys.foldl (reduceKey protocol name) (service, false)).1.get key =
        if key ∈ keys ∧ (prefixed name urlKey).isPrefixOf key then none else service.get key := by
  induction keys generalizing service with
  | nil => exact ⟨rfl, fun key => by simp⟩
  | cons setting keys ih =>
    have hhost := h setting List.mem_cons_self
    have hrest := fun key hkey => h key (List.mem_cons_of_mem _ hkey)
    by_cases hurl : (prefixed name urlKey).isPrefixOf setting ∧ setting ∈ service.keys
    · have hstep : reduceKey protocol name (service, false) setting = (service.del setting, false) := by
        simp only [reduceKey, hhost, Bool.false_eq_true, if_false]
        exact if_pos hurl
      rw [List.foldl_cons, hstep]
      obtain ⟨hfound, hget⟩ := ih (service.del setting) hrest
      refine ⟨hfound, fun key => ?_⟩
      rw [hget, Ordered.get_del]
      by_cases hkey : key = setting
      · subst hkey
        simp [hurl.1]
      · simp [hkey]
    · have hstep : reduceKey protocol name (service, false) setting = (service, false) := by
        simp only [reduceKey, hhost, Bool.false_eq_true, if_false]
        exact if_neg hurl
      rw [List.foldl_cons, hstep]
      obtain ⟨hfound, hget⟩ := ih service hrest
      refine ⟨hfound, fun key => ?_⟩
      rw [hget]
      by_cases hkey : key = setting
      · subst hkey
        by_cases hmem : key ∈ service.keys
        · have hno : (prefixed name urlKey).isPrefixOf key = false :=
            Bool.eq_false_iff.mpr fun hp => hurl ⟨hp, hmem⟩
          simp [hno]
        · simp [(Ordered.get_eq_none service key).mpr hmem]
      · simp [hkey]

/-- One key after the first upstream. -/
theorem reduceKey_after (setting : Text) (service : Service) :
    (reduceKey protocol name (service, true) setting).2 = true ∧
      ∀ key, (reduceKey protocol name (service, true) setting).1.get key =
        if key = setting ∧ touches name key then none else service.get key := by
  unfold reduceKey touches
  by_cases hhost : (prefixed name hostKey).isPrefixOf setting
  · rw [if_pos hhost]
    refine ⟨rfl, fun key => ?_⟩
    show (service.del setting).get key = _
    rw [Ordered.get_del]
    by_cases hkey : key = setting
    · subst hkey
      simp [hhost]
    · simp [hkey]
  · rw [if_neg hhost]
    split
    next hurl =>
      refine ⟨rfl, fun key => ?_⟩
      show (service.del setting).get key = _
      rw [Ordered.get_del]
      by_cases hkey : key = setting
      · subst hkey
        simp [hurl.1]
      · simp [hkey]
    next hurl =>
      refine ⟨rfl, fun key => ?_⟩
      split
      next h =>
        obtain ⟨rfl, htouched⟩ := h
        have hnotMem : key ∉ service.keys := fun hmem => hurl ⟨by simpa [hhost] using htouched, hmem⟩
        exact (Ordered.get_eq_none service key).mpr hnotMem
      next => rfl

/-- Keys after the first upstream: those of upstreams and URLs go. -/
theorem foldl_reduceKey_after (keys : List Text) (service : Service) (key : Text) :
    (keys.foldl (reduceKey protocol name) (service, true)).1.get key =
      if key ∈ keys ∧ touches name key then none else service.get key := by
  induction keys generalizing service with
  | nil => simp
  | cons setting keys ih =>
    obtain ⟨hfound, hget⟩ := @reduceKey_after protocol name setting service
    obtain ⟨service', hstep⟩ : ∃ service',
        reduceKey protocol name (service, true) setting = (service', true) :=
      ⟨_, Prod.ext rfl hfound⟩
    rw [hstep] at hget
    rw [List.foldl_cons, hstep, ih, hget]
    by_cases hkey : key = setting
    · subst hkey
      simp only [List.mem_cons, true_or, true_and]
      split
      next h => simp [h.2]
      next => rfl
    · simp [hkey]

theorem urlOf_isUrl (name setting : Text) :
    (prefixed name urlKey).isPrefixOf (urlOf name setting) = true := by
  rw [List.isPrefixOf_iff_prefix, urlOf]
  split
  · exact List.prefix_append _ _
  · exact List.prefix_rfl

/-- The first upstream gets the key without a number, and a URL does. -/
theorem reduceKey_first (protocol : Protocol) {setting : Text} (service : Service)
    (hhost : (prefixed name hostKey).isPrefixOf setting = true) :
    (reduceKey protocol name (service, false) setting).2 = true ∧
      ∃ path, ∀ key, (reduceKey protocol name (service, false) setting).1.get key =
        if key = prefixed name urlKey then some path
        else if key = urlOf name setting then none
        else if key = prefixed name hostKey then
          some (removeFirst (protocol.text ++ "://".toList) ((service.get setting).getD []))
        else if key = setting then none
        else service.get key := by
  unfold reduceKey
  rw [if_pos hhost]
  refine ⟨rfl, ((((service.del setting).put (prefixed name hostKey)
    (removeFirst (protocol.text ++ "://".toList) ((service.get setting).getD []))).get
      (urlOf name setting)).getD ['/']), fun key => ?_⟩
  have hput := fun (d : Service) k v => Ordered.get_put d k key v
  have hdel := fun (d : Service) k => Ordered.get_del d k key
  show ((((service.del setting).put _ _).del (urlOf name setting)).put (prefixed name urlKey) _).get
    key = _
  rw [hput, hdel, hput, hdel]

/-! ## The reduction for one name -/

/-- A key after the reduction, when there is an upstream. -/
theorem get_reduceName_of_first (protocol : Protocol) {service : Service} {setting : Text}
    {before after : List Text} (hkeys : service.keys = before ++ setting :: after)
    (hhost : (prefixed name hostKey).isPrefixOf setting = true)
    (hbefore : ∀ key ∈ before, (prefixed name hostKey).isPrefixOf key = false) :
    ∃ path, ∀ key, (reduceName protocol name service).get key =
      if key ∈ after ∧ touches name key then none
      else if key = prefixed name urlKey then some path
      else if key = urlOf name setting then none
      else if key = prefixed name hostKey then
        some (removeFirst (protocol.text ++ "://".toList) ((service.get setting).getD []))
      else if key = setting then none
      else if key ∈ before ∧ (prefixed name urlKey).isPrefixOf key then none
      else service.get key := by
  obtain ⟨hfound, hgetBefore⟩ := foldl_reduceKey_before protocol service hbefore
  obtain ⟨service₁, h₁⟩ : ∃ service₁,
      before.foldl (reduceKey protocol name) (service, false) = (service₁, false) :=
    ⟨_, Prod.ext rfl hfound⟩
  rw [h₁] at hgetBefore
  obtain ⟨hfound, path, hgetFirst⟩ := reduceKey_first protocol service₁ hhost
  obtain ⟨service₂, h₂⟩ : ∃ service₂,
      reduceKey protocol name (service₁, false) setting = (service₂, true) :=
    ⟨_, Prod.ext rfl hfound⟩
  rw [h₂] at hgetFirst
  have hvalue : service₁.get setting = service.get setting := by
    rw [hgetBefore, if_neg fun h => by simp [not_url_of_host hhost] at h]
  refine ⟨path, fun key => ?_⟩
  rw [reduceName, hkeys, List.foldl_append, List.foldl_cons, h₁, h₂, foldl_reduceKey_after,
    hgetFirst, hvalue, hgetBefore]

/-- What is left of the settings of the name: the upstream that is kept, and perhaps a URL. -/
theorem reduceName_spec (protocol : Protocol) (name : Text) (service : Service) :
    (∀ key, touches name key = false →
      (reduceName protocol name service).get key = service.get key) ∧
    (∀ key, (prefixed name hostKey).isPrefixOf key = true →
      (reduceName protocol name service).get key =
        if key = prefixed name hostKey then
          (keptHost name service).map (removeFirst (protocol.text ++ "://".toList))
        else none) ∧
    ∀ key, (prefixed name urlKey).isPrefixOf key = true →
      (key ∈ (reduceName protocol name service).keys ↔
        key = prefixed name urlKey ∧ KeepsUrl name service) := by
  cases hfirst : firstHost name service with
  | none =>
    have hno : ∀ key ∈ service.keys, (prefixed name hostKey).isPrefixOf key = false := by
      intro key hkey
      exact Bool.eq_false_iff.mpr (List.find?_eq_none.mp hfirst key hkey)
    obtain ⟨-, hget⟩ := foldl_reduceKey_before protocol service hno
    have hkept : keptHost name service = none := by rw [keptHost, hfirst, Option.bind_none]
    have hurl : ¬ KeepsUrl name service := fun h => by simp [KeepsUrl, hfirst] at h
    refine ⟨fun key htouched => ?_, fun key hhost => ?_, fun key hkey => ?_⟩
    · rw [reduceName, hget, if_neg]
      intro h
      simp [touches, h.2] at htouched
    · rw [reduceName, hget, if_neg fun h => by simp [not_url_of_host hhost] at h, hkept,
        Option.map_none, ite_self, Ordered.get_eq_none]
      intro hmem
      rw [hno key hmem] at hhost
      cases hhost
    · refine iff_of_false (fun hmem => ?_) fun h => hurl h.2
      have hnone : (reduceName protocol name service).get key = none := by
        rw [reduceName, hget]
        split
        next => rfl
        next h => exact (Ordered.get_eq_none service key).mpr fun hmem => h ⟨hmem, hkey⟩
      exact (Ordered.get_eq_none _ key).mp hnone hmem
  | some setting =>
    obtain ⟨hhost, before, after, hkeys, hbefore⟩ := List.find?_eq_some_iff_append.mp hfirst
    have hbefore : ∀ key ∈ before, (prefixed name hostKey).isPrefixOf key = false :=
      fun key hkey => by simpa using hbefore key hkey
    have hnodup := service.keys_nodup
    rw [hkeys] at hnodup
    have hsetting : setting ∉ before ∧ setting ∉ after := by
      obtain ⟨-, hafter, hdisjoint⟩ := List.nodup_append.mp hnodup
      exact ⟨fun h => hdisjoint setting h setting List.mem_cons_self rfl,
        (List.nodup_cons.mp hafter).1⟩
    -- a key of the service is before the first upstream, the first upstream, or after it
    have hget := get_reduceName_of_first protocol hkeys hhost hbefore
    have habsent : ∀ key, key ∉ before → key ≠ setting → key ∉ after → service.get key = none := by
      intro key h h' h''
      rw [Ordered.get_eq_none, hkeys]
      simp [h, h', h'']
    obtain ⟨path, hget⟩ := hget
    have hdrop : service.keys.dropWhile (fun key => !(prefixed name hostKey).isPrefixOf key) =
        setting :: after := by
      rw [hkeys, List.dropWhile_append_of_pos (fun key hkey => by simp [hbefore key hkey]),
        List.dropWhile_cons_of_neg (by simp [hhost])]
    have hkeeps : KeepsUrl name service ↔ prefixed name urlKey ∉ after := by
      have hne : prefixed name urlKey ≠ setting := by
        rintro rfl
        have hurl := not_url_of_host hhost
        rw [Bool.eq_false_iff, ne_eq, List.isPrefixOf_iff_prefix] at hurl
        exact hurl List.prefix_rfl
      rw [KeepsUrl, hfirst, hdrop, List.mem_cons, not_or]
      simp [hne]
    refine ⟨fun key htouched => ?_, fun key hkey => ?_, fun key hkey => ?_⟩
    · have hnot := (not_touches_iff key).mp htouched
      have hurl : ∀ url, (prefixed name urlKey).isPrefixOf url = true → key ≠ url := by
        rintro url h rfl
        simp [h] at hnot
      have hhost' : ∀ host, (prefixed name hostKey).isPrefixOf host = true → key ≠ host := by
        rintro host h rfl
        simp [h] at hnot
      rw [hget, if_neg (by simp [htouched]), if_neg (hurl _ (by simp)), if_neg (hurl _ (urlOf_isUrl _ _)),
        if_neg (hhost' _ (by simp)), if_neg (hhost' _ hhost), if_neg (by simp [hnot.2])]
    · have hnotUrl := not_url_of_host hkey
      have hurl : ∀ url, (prefixed name urlKey).isPrefixOf url = true → key ≠ url := by
        rintro url h rfl
        simp [h] at hnotUrl
      have hnotBefore : key ∉ before := fun h => by simp [hbefore key h] at hkey
      rw [hget, if_neg (hurl _ (by simp)), if_neg (hurl _ (urlOf_isUrl _ _))]
      by_cases hafter : key ∈ after
      · rw [if_pos ⟨hafter, by simp [touches, hkey]⟩]
        split
        next h =>
          subst h
          have hne : setting ≠ prefixed name hostKey := fun h => hsetting.2 (h ▸ hafter)
          rw [keptHost, hfirst, Option.bind_some, if_pos ⟨hne, by simp [hkeys, hafter]⟩, Option.map_none]
        next => rfl
      · rw [if_neg (by simp [hafter])]
        split
        next h =>
          subst h
          obtain ⟨value, hvalue⟩ := (Ordered.mem_keys service setting).mp (by simp [hkeys])
          rw [keptHost, hfirst, Option.bind_some, if_neg, hvalue, Option.map_some, Option.getD_some]
          rintro ⟨hne, hmem⟩
          simp [hkeys, hnotBefore, hafter, hne.symm] at hmem
        next =>
          split
          next => rfl
          next hne => rw [if_neg (by simp [hnotBefore]), habsent key hnotBefore hne hafter]
    · have hnotHost : (prefixed name hostKey).isPrefixOf key = false := by
        rw [Bool.eq_false_iff]
        intro h
        simp [not_url_of_host h] at hkey
      have hhost' : ∀ host, (prefixed name hostKey).isPrefixOf host = true → key ≠ host := by
        rintro host h rfl
        simp [h] at hnotHost
      rw [Ordered.mem_keys, hget, if_neg (hhost' (prefixed name hostKey) (by simp)),
        if_neg (hhost' setting hhost), hkeeps]
      by_cases hafter : key ∈ after
      · rw [if_pos ⟨hafter, by simp [touches, hkey]⟩]
        refine iff_of_false (by simp) ?_
        rintro ⟨rfl, h⟩
        exact h hafter
      · rw [if_neg (by simp [hafter])]
        by_cases h : key = prefixed name urlKey
        · subst h
          simp [hafter]
        · rw [if_neg h]
          refine iff_of_false ?_ fun hright => h hright.1
          rintro ⟨value, hvalue⟩
          split at hvalue
          next => cases hvalue
          next =>
            split at hvalue
            next => cases hvalue
            next hbefore' =>
              rw [habsent key (fun hmem => hbefore' ⟨hmem, hkey⟩) (hhost' _ hhost) hafter] at hvalue
              cases hvalue

/-- What belongs to the name alone: the settings that its reduction touches, in their order, and
its type. -/
structure SameOf (name : Text) (service service' : Service) : Prop where
  get : ∀ key, touches name key = true → service'.get key = service.get key
  order : service'.keys.filter (touches name) = service.keys.filter (touches name)
  stream : isStream name service' = isStream name service

theorem SameOf.refl (name : Text) (service : Service) : SameOf name service service :=
  ⟨fun _ _ => rfl, rfl, rfl⟩

theorem SameOf.trans {s₁ s₂ s₃ : Service} (h₁ : SameOf name s₁ s₂) (h₂ : SameOf name s₂ s₃) :
    SameOf name s₁ s₃ :=
  ⟨fun key hkey => (h₂.get key hkey).trans (h₁.get key hkey), h₂.order.trans h₁.order,
    h₂.stream.trans h₁.stream⟩

variable {service service' : Service}

theorem find_filter_touches (keys : List Text) :
    (keys.filter (touches name)).find? (prefixed name hostKey).isPrefixOf =
      keys.find? (prefixed name hostKey).isPrefixOf := by
  rw [List.find?_filter]
  congr 1
  funext key
  rw [Bool.eq_iff_iff, decide_eq_true_iff, and_iff_right_iff_imp]
  intro hhost
  rw [touches, hhost, Bool.true_or]

theorem dropWhile_filter_touches (keys : List Text) :
    (keys.filter (touches name)).dropWhile (fun key => !(prefixed name hostKey).isPrefixOf key) =
      (keys.dropWhile fun key => !(prefixed name hostKey).isPrefixOf key).filter (touches name) := by
  induction keys with
  | nil => rfl
  | cons key keys ih =>
    by_cases hhost : (prefixed name hostKey).isPrefixOf key
    · have htouched : touches name key = true := by simp [touches, hhost]
      rw [List.filter_cons_of_pos htouched, List.dropWhile_cons_of_neg (by simp [hhost]),
        List.dropWhile_cons_of_neg (by simp [hhost]), List.filter_cons_of_pos htouched]
    · rw [List.dropWhile_cons_of_pos (by simp [hhost]), ← ih]
      by_cases htouched : touches name key
      · rw [List.filter_cons_of_pos htouched, List.dropWhile_cons_of_pos (by simp [hhost])]
      · rw [List.filter_cons_of_neg htouched]

theorem SameOf.firstHost (h : SameOf name service service') :
    firstHost name service' = firstHost name service := by
  rw [Ingress.firstHost, Ingress.firstHost, ← find_filter_touches, h.order, find_filter_touches]

/-- Which of the fixed keys speak of a reverse proxy. -/
theorem reverseProxy_within :
    ("REVERSE_PROXY".toList <:+: hostKey ∧ "REVERSE_PROXY".toList <:+: urlKey) ∧
      ¬ "REVERSE_PROXY".toList <:+: typeKey ∧ ¬ "REVERSE_PROXY".toList <:+: serverNameKey := by
  decide +kernel

/-- A key that a reduction touches speaks of a reverse proxy. -/
theorem touches_of_other {key : Text} (h : ¬ "REVERSE_PROXY".toList <:+: key) :
    touches name key = false := by
  have hno : ∀ rest, (prefixed name ("REVERSE_PROXY".toList ++ rest)).isPrefixOf key = false := by
    intro rest
    rw [Bool.eq_false_iff, ne_eq, List.isPrefixOf_iff_prefix]
    rintro ⟨tail, rfl⟩
    exact h ⟨name ++ ['_'], rest ++ tail, by simp [prefixed]⟩
  exact (not_touches_iff key).mpr ⟨hno "_HOST".toList, hno "_URL".toList⟩

theorem touches_host (name : Text) : touches name (prefixed name hostKey) = true := by
  simp [touches]

theorem touches_url (name : Text) : touches name (prefixed name urlKey) = true := by
  simp [touches]

theorem SameOf.keptHost (h : SameOf name service service') :
    keptHost name service' = keptHost name service := by
  rw [Ingress.keptHost, Ingress.keptHost, h.firstHost]
  cases hfirst : Ingress.firstHost name service with
  | none => rfl
  | some key =>
    have hkey : touches name key = true := by simp [touches, List.find?_some hfirst]
    have hmem : prefixed name hostKey ∈ service'.keys ↔ prefixed name hostKey ∈ service.keys := by
      rw [Ordered.mem_keys, Ordered.mem_keys, h.get _ (touches_host name)]
    rw [Option.bind_some, Option.bind_some, h.get key hkey]
    simp only [hmem]

theorem SameOf.keepsUrl (h : SameOf name service service') :
    KeepsUrl name service' ↔ KeepsUrl name service := by
  have hmem : ∀ keys : List Text, prefixed name urlKey ∈ keys ↔
      prefixed name urlKey ∈ keys.filter (touches name) := by
    intro keys
    simp [List.mem_filter, touches_url]
  rw [KeepsUrl, KeepsUrl, h.firstHost, hmem (service'.keys.dropWhile _),
    hmem (service.keys.dropWhile _), ← dropWhile_filter_touches, h.order, dropWhile_filter_touches]

/-! ## Several names -/

/-- The names differ and have no capital letters, as the pattern of `SERVER_NAME` wants. -/
def Apart (name name' : Text) : Prop :=
  name ≠ name' ∧ (∀ c ∈ name, c.isUpper = false) ∧ ∀ c ∈ name', c.isUpper = false

theorem Apart.symm {name' : Text} (h : Apart name name') : Apart name' name :=
  ⟨h.1.symm, h.2.2, h.2.1⟩

instance : Std.Symm Apart := ⟨fun _ _ => Apart.symm⟩

theorem takeWhile_prefixed (hname : ∀ c ∈ name, c.isUpper = false) {c : Char} (hc : c.isUpper = true)
    (rest : Text) :
    (name ++ '_' :: c :: rest).takeWhile (fun c => !c.isUpper) = name ++ ['_'] := by
  rw [List.takeWhile_append_of_pos (by simpa using hname), List.takeWhile_cons_of_pos (by decide),
    List.takeWhile_cons_of_neg (by simp [hc])]

/-- A setting of one name is no setting of another. -/
theorem Apart.not_prefix {name' base base' : Text} (h : Apart name name')
    (hbase : ∃ rest, base = 'R' :: rest) {c : Char} (hc : c.isUpper = true)
    (hbase' : ∃ rest, base' = c :: rest) {key : Text} (hkey : prefixed name base <+: key) :
    ¬ prefixed name' base' <+: key := by
  obtain ⟨rest, rfl⟩ := hbase
  obtain ⟨rest', rfl⟩ := hbase'
  obtain ⟨tail, rfl⟩ := hkey
  rintro ⟨tail', heq⟩
  have htake := congrArg (List.takeWhile fun c => !c.isUpper) heq
  simp only [prefixed, List.append_assoc, List.cons_append] at htake
  rw [takeWhile_prefixed h.2.1 (by decide), takeWhile_prefixed h.2.2 hc] at htake
  exact h.1 (List.append_cancel_right htake).symm

theorem Apart.not_touches {name' key : Text} (h : Apart name name') (hkey : touches name key = true) :
    touches name' key = false := by
  rw [not_touches_iff, Bool.eq_false_iff, Bool.eq_false_iff, ne_eq, ne_eq, List.isPrefixOf_iff_prefix,
    List.isPrefixOf_iff_prefix]
  rw [touches, Bool.or_eq_true, List.isPrefixOf_iff_prefix, List.isPrefixOf_iff_prefix]
    at hkey
  rcases hkey with hkey | hkey
  · exact ⟨h.not_prefix ⟨_, rfl⟩ (c := 'R') (by decide) ⟨_, rfl⟩ hkey,
      h.not_prefix ⟨_, rfl⟩ (c := 'R') (by decide) ⟨_, rfl⟩ hkey⟩
  · exact ⟨h.not_prefix ⟨_, rfl⟩ (c := 'R') (by decide) ⟨_, rfl⟩ hkey,
      h.not_prefix ⟨_, rfl⟩ (c := 'R') (by decide) ⟨_, rfl⟩ hkey⟩

/-- The reduction for a name only moves what it touches. -/
theorem filter_keys_reduceName {p : Text → Bool} (hp : ∀ key, touches name key = true → p key = false)
    (service : Service) :
    (reduceName protocol name service).keys.filter p = service.keys.filter p := by
  suffices hfold : ∀ (keys : List Text) (st : Service × Bool),
      (keys.foldl (reduceKey protocol name) st).1.keys.filter p = st.1.keys.filter p from
    hfold service.keys (service, false)
  intro keys st
  induction keys generalizing st with
  | nil => rfl
  | cons setting keys ih =>
    rw [List.foldl_cons, ih]
    have hurl : ∀ url, (prefixed name urlKey).isPrefixOf url = true → p url = false := by
      intro url h
      exact hp url (by rw [touches, h, Bool.or_true])
    unfold reduceKey
    split
    next hhost =>
      have hsetting := hp setting (by rw [touches, hhost, Bool.true_or])
      split
      next => exact Ordered.filter_keys_del _ _ hsetting
      next =>
        show ((((st.1.del setting).put _ _).del _).put _ _).keys.filter p = _
        rw [Ordered.filter_keys_put _ _ _ (hp _ (touches_url name)),
          Ordered.filter_keys_del _ _ (hurl _ (urlOf_isUrl name setting)),
          Ordered.filter_keys_put _ _ _ (hp _ (touches_host name)),
          Ordered.filter_keys_del _ _ hsetting]
    next =>
      split
      next h => exact Ordered.filter_keys_del _ _ (hurl setting h.1)
      next => rfl

theorem Apart.not_touches_type {name' : Text} (h : Apart name name') :
    touches name' (prefixed name typeKey) = false := by
  rw [not_touches_iff, Bool.eq_false_iff, Bool.eq_false_iff, ne_eq, ne_eq,
    List.isPrefixOf_iff_prefix, List.isPrefixOf_iff_prefix]
  exact ⟨fun hp => h.symm.not_prefix ⟨_, rfl⟩ (c := 'S') (by decide) ⟨_, rfl⟩ hp List.prefix_rfl,
    fun hp => h.symm.not_prefix ⟨_, rfl⟩ (c := 'S') (by decide) ⟨_, rfl⟩ hp List.prefix_rfl⟩

theorem Apart.sameOf {name' : Text} (h : Apart name name') (service : Service) :
    SameOf name service (reduceName protocol name' service) := by
  have hget := (reduceName_spec protocol name' service).1
  refine ⟨fun key hkey => hget key (h.not_touches hkey),
    filter_keys_reduceName (fun key hkey => h.symm.not_touches hkey) service, ?_⟩
  rw [isStream, isStream, hget _ h.not_touches_type, hget _ (touches_of_other reverseProxy_within.2.1)]

/-- The turn of a name in the loop over the names. -/
def turn (protocol : Protocol) (service : Service) (name : Text) : Service :=
  if isStream name service then reduceName protocol name service else service

theorem sameOf_foldl_turn {others : List Text} (h : ∀ other ∈ others, Apart name other)
    (service : Service) : SameOf name service (others.foldl (turn protocol) service) := by
  induction others generalizing service with
  | nil => exact .refl name service
  | cons other others ih =>
    have hturn : SameOf name service (turn protocol service other) := by
      unfold turn
      split
      · exact (h other List.mem_cons_self).sameOf service
      · exact .refl name service
    exact hturn.trans (ih (fun o ho => h o (List.mem_cons_of_mem _ ho)) _)

theorem get_foldl_turn {key : Text} {others : List Text}
    (h : ∀ other ∈ others, touches other key = false) (service : Service) :
    (others.foldl (turn protocol) service).get key = service.get key := by
  induction others generalizing service with
  | nil => rfl
  | cons other others ih =>
    rw [List.foldl_cons, ih (fun o ho => h o (List.mem_cons_of_mem _ ho)), turn]
    split
    · exact (reduceName_spec protocol other service).1 key (h other List.mem_cons_self)
    · rfl

/-- What no name touches stays. -/
theorem get_reduced {key : Text} (h : ∀ other ∈ names service, touches other key = false) :
    (reduced protocol service).get key = service.get key :=
  get_foldl_turn h service

theorem isStream_reduced (hapart : (names service).Pairwise Apart) (hname : name ∈ names service) :
    isStream name (reduced protocol service) = isStream name service := by
  have hown : touches name (prefixed name typeKey) = false := by
    rw [not_touches_iff, Bool.eq_false_iff, Bool.eq_false_iff, ne_eq, ne_eq,
      List.isPrefixOf_iff_prefix, List.isPrefixOf_iff_prefix, prefixed_prefix_iff,
      prefixed_prefix_iff]
    decide
  have htype : ∀ other ∈ names service, touches other (prefixed name typeKey) = false := by
    intro other hother
    by_cases h : name = other
    · exact h ▸ hown
    · exact (hapart.forall hname hother h).not_touches_type
  rw [isStream, isStream, get_reduced htype,
    get_reduced fun other _ => touches_of_other reverseProxy_within.2.1]

/-- What the loop leaves of the settings of a stream. -/
theorem reduced_spec (protocol : Protocol) (hapart : (names service).Pairwise Apart)
    (hname : name ∈ names service) (hstream : isStream name service = true) :
    (∀ key, (prefixed name hostKey).isPrefixOf key = true →
      (reduced protocol service).get key =
        if key = prefixed name hostKey then
          (keptHost name service).map (removeFirst (protocol.text ++ "://".toList))
        else none) ∧
    ∀ key, (prefixed name urlKey).isPrefixOf key = true →
      (key ∈ (reduced protocol service).keys ↔
        key = prefixed name urlKey ∧ KeepsUrl name service) := by
  obtain ⟨before, after, hnames⟩ := List.append_of_mem hname
  rw [hnames] at hapart
  obtain ⟨-, hafter, hbefore⟩ := List.pairwise_append.mp hapart
  have hsame : SameOf name service (before.foldl (turn protocol) service) :=
    sameOf_foldl_turn (fun other h => (hbefore other h name List.mem_cons_self).symm) service
  obtain ⟨-, hhosts, hurls⟩ :=
    reduceName_spec protocol name (before.foldl (turn protocol) service)
  rw [hsame.keptHost] at hhosts
  simp only [hsame.keepsUrl] at hurls
  -- the turns of the names after it leave what its own turn has left
  have hrest : SameOf name (reduceName protocol name (before.foldl (turn protocol) service))
      (after.foldl (turn protocol)
        (reduceName protocol name (before.foldl (turn protocol) service))) :=
    sameOf_foldl_turn (List.pairwise_cons.mp hafter).1 _
  have hreduced : reduced protocol service = after.foldl (turn protocol)
      (reduceName protocol name (before.foldl (turn protocol) service)) := by
    show (names service).foldl (turn protocol) service = _
    rw [hnames, List.foldl_append, List.foldl_cons]
    congr 1
    rw [turn, hsame.stream, if_pos hstream]
  rw [hreduced]
  refine ⟨fun key hkey => ?_, fun key hkey => ?_⟩
  · rw [hrest.get key (by rw [touches, hkey, Bool.true_or]), hhosts key hkey]
  · rw [Ordered.mem_keys, hrest.get key (by rw [touches, hkey, Bool.or_true]), ← Ordered.mem_keys,
      hurls key hkey]

/-! ## One upstream -/

theorem IsSetting.isPrefixOf {base key : Text} (h : IsSetting base key) :
    base.isPrefixOf key = true := by
  rw [List.isPrefixOf_iff_prefix]
  rcases h with rfl | ⟨digits, -, -, rfl⟩
  · exact List.prefix_rfl
  · exact List.prefix_append _ _

/-- A setting without a name is no setting of a name. -/
theorem IsSetting.not_touches {base key : Text} (h : IsSetting base key)
    (hbase : base = hostKey ∨ base = urlKey) : touches name key = false := by
  -- no `_` of the key has a capital `R` behind it
  have hno : ∀ i, key[i]? = some '_' → key[i + 1]? ≠ some 'R' := by
    have hcheck : ∀ base ∈ [hostKey, urlKey], ∀ i < base.length,
        (base ++ ['_'])[i]? = some '_' → (base ++ ['_'])[i + 1]? ≠ some 'R' := by decide
    have hcheck := hcheck base (by simpa using hbase)
    intro i hi hnext
    by_cases hlt : i < base.length
    · have hbefore : ∀ tail : Text, (base ++ '_' :: tail)[i]? = (base ++ ['_'])[i]? ∧
          (base ++ '_' :: tail)[i + 1]? = (base ++ ['_'])[i + 1]? := by
        intro tail
        rw [List.append_cons]
        exact ⟨List.getElem?_append_left (by simp; omega), List.getElem?_append_left (by simpa)⟩
      rcases h with rfl | ⟨digits, -, -, rfl⟩
      · have hlt' := (List.getElem?_eq_some_iff.mp hnext).1
        refine hcheck i hlt ?_ ?_
        · rw [List.getElem?_append_left hlt, hi]
        · rw [List.getElem?_append_left hlt', hnext]
      · exact hcheck i hlt ((hbefore digits).1 ▸ hi) ((hbefore digits).2 ▸ hnext)
    · rcases h with rfl | ⟨digits, -, hdigits, rfl⟩
      · exact hlt (List.getElem?_eq_some_iff.mp hi).1
      · rw [List.append_cons, List.getElem?_append_right (by simp; omega)] at hnext
        have hdigit := List.all_eq_true.mp hdigits 'R' (List.mem_of_getElem? hnext)
        exact absurd hdigit (by decide)
  have hno' : ∀ rest, (name ++ '_' :: 'R' :: rest).isPrefixOf key = false := by
    intro rest
    rw [Bool.eq_false_iff, ne_eq, List.isPrefixOf_iff_prefix]
    rintro ⟨tail, rfl⟩
    exact hno name.length (by simp) (by simp)
  exact (not_touches_iff key).mpr ⟨hno' _, hno' _⟩

/-- For a stream, its settings are one upstream after the loop just when they are clean before. -/
theorem oneUpstream_reduced_iff (hapart : (names service).Pairwise Apart)
    (hname : name ∈ names service) (hstream : isStream name service = true) :
    OneUpstream name (reduced protocol service) ↔ Clean protocol name service := by
  obtain ⟨hhosts, hurls⟩ := reduced_spec protocol hapart hname hstream
  have hset : ∀ key base, base = hostKey ∨ base = urlKey → IsSetting base key →
      (reduced protocol service).get key = service.get key := by
    intro key base hbase h
    exact get_reduced fun other _ => h.not_touches hbase
  have hkeys : ∀ key base, base = hostKey ∨ base = urlKey → IsSetting base key →
      (key ∈ (reduced protocol service).keys ↔ key ∈ service.keys) := by
    intro key base hbase h
    rw [Ordered.mem_keys, Ordered.mem_keys, hset key base hbase h]
  have hhost := hhosts (prefixed name hostKey) (by simp)
  rw [if_pos rfl] at hhost
  have hurl := hurls (prefixed name urlKey) (by simp)
  constructor
  · intro h
    refine ⟨fun key value hget hsetting => ?_, fun value hkept => ?_, fun key hkey hsetting => ?_⟩
    · obtain ⟨rfl, hscheme⟩ :=
        (h.plain key value ((hset key _ (.inl rfl) hsetting).trans hget)).1 hsetting
      refine ⟨rfl, hscheme, ?_⟩
      have hnot := h.host ((hkeys _ _ (.inl rfl) hsetting).mpr ((Ordered.mem_keys _ _).mpr ⟨_, hget⟩))
      rw [← Ordered.get_eq_none, hhost, Option.map_eq_none_iff] at hnot
      exact hnot
    · refine ((h.plain (prefixed name hostKey) _ ?_).2 (.inl rfl)).2
      rw [hhost, hkept, Option.map_some]
    · have hmem := (hkeys key _ (.inr rfl) hsetting).mpr hkey
      refine ⟨fun hkeeps => ?_, fun key' hkey' hsetting' =>
        h.url key hmem key' ((hkeys key' _ (.inr rfl) hsetting').mpr hkey') (.inl hsetting)
          (.inl hsetting')⟩
      have heq := h.url key hmem _ (hurl.mpr ⟨rfl, hkeeps⟩) (.inl hsetting) (.inr (.inl rfl))
      have hnot : touches name key = false := hsetting.not_touches (.inr rfl)
      rw [heq, touches_url] at hnot
      cases hnot
  · intro h
    refine ⟨fun key value hget => ⟨fun hsetting => ?_, fun hsetting => ?_⟩, fun hmem => ?_,
      fun key hkey key' hkey' hsetting hsetting' => ?_⟩
    · obtain ⟨hplain, hscheme, -⟩ :=
        h.unprefixed key value (hset key _ (.inl rfl) hsetting ▸ hget) hsetting
      exact ⟨hplain, hscheme⟩
    · rw [hhosts key hsetting.isPrefixOf] at hget
      split at hget
      next hkey =>
        obtain ⟨kept, hkept, rfl⟩ := Option.map_eq_some_iff.mp hget
        exact ⟨hkey, h.kept kept hkept⟩
      next => cases hget
    · obtain ⟨value, hvalue⟩ :=
        (Ordered.mem_keys _ _).mp ((hkeys hostKey _ (.inl rfl) (.inl rfl)).mp hmem)
      rw [← Ordered.get_eq_none, hhost, (h.unprefixed _ value hvalue (.inl rfl)).2.2,
        Option.map_none]
    · have hown : ∀ key, key ∈ (reduced protocol service).keys →
          IsSetting (prefixed name urlKey) key → key = prefixed name urlKey ∧ KeepsUrl name service :=
        fun key hkey hsetting => (hurls key hsetting.isPrefixOf).mp hkey
      have hplain : ∀ key, key ∈ (reduced protocol service).keys → IsSetting urlKey key →
          ¬ KeepsUrl name service ∧
            ∀ key' ∈ service.keys, IsSetting urlKey key' → key = key' :=
        fun key hkey hsetting => h.url key ((hkeys key _ (.inr rfl) hsetting).mp hkey) hsetting
      rcases hsetting with hsetting | hsetting <;> rcases hsetting' with hsetting' | hsetting'
      · exact (hplain key hkey hsetting).2 key' ((hkeys key' _ (.inr rfl) hsetting').mp hkey')
          hsetting'
      · exact absurd (hown key' hkey' hsetting').2 (hplain key hkey hsetting).1
      · exact absurd (hown key hkey hsetting).2 (hplain key' hkey' hsetting').1
      · rw [(hown key hkey hsetting).1, (hown key' hkey' hsetting').1]

/-! ## Certificates -/

/-- The settings that a secret gives. -/
def certificateKeys : List Text :=
  ["USE_CUSTOM_SSL".toList, "CUSTOM_SSL_CERT_DATA".toList, "CUSTOM_SSL_KEY_DATA".toList]

/-- None of them speaks of a reverse proxy or of the type. -/
theorem certificateKeys_apart : ∀ key ∈ certificateKeys,
    ¬ "REVERSE_PROXY".toList <:+: key ∧ ¬ typeKey <:+: key := by
  decide +kernel

theorem get_update {key : Text} {items : List (Text × Text)} (h : ∀ item ∈ items, key ≠ item.1)
    (service : Service) : (update service items).get key = service.get key := by
  induction items generalizing service with
  | nil => rfl
  | cons item items ih =>
    show (update (service.put item.1 item.2) items).get key = _
    rw [ih fun i hi => h i (List.mem_cons_of_mem _ hi), Ordered.get_put,
      if_neg (h item List.mem_cons_self)]

theorem get_update_secret (cluster : Cluster) (nameSpace secretName : Text) {key : Text}
    (hkey : key ∉ certificateKeys) (service : Service) :
    (update service (secretSettings cluster nameSpace secretName)).get key = service.get key := by
  refine get_update (fun item hitem heq => hkey ?_) service
  subst heq
  unfold secretSettings at hitem
  split at hitem
  next => cases hitem
  next =>
    split at hitem
    next cert private' _ _ =>
      have hkeys : [("USE_CUSTOM_SSL".toList, "yes".toList), ("CUSTOM_SSL_CERT_DATA".toList, cert),
          ("CUSTOM_SSL_KEY_DATA".toList, private')].map Prod.fst = certificateKeys := rfl
      exact hkeys ▸ List.mem_map_of_mem hitem
    next => cases hitem

/-- The certificates leave all other settings. -/
theorem get_certified (cluster : Cluster) (ingress : Ingress) {key : Text}
    (hkey : key ∉ certificateKeys) (service : Service) :
    (certified cluster ingress service).get key = service.get key := by
  unfold certified
  induction ingress.tls generalizing service with
  | nil => rfl
  | cons tls rest ih =>
    rw [List.foldl_cons, ih]
    split
    next => rfl
    next secretName _ =>
      induction tls.hosts generalizing service with
      | nil => rfl
      | cons host hosts ih =>
        rw [List.foldl_cons, ih]
        split
        · exact get_update_secret cluster ingress.nameSpace secretName hkey service
        · rfl

theorem IsSetting.not_mem_certificateKeys {base key : Text} (h : IsSetting base key)
    (hbase : "REVERSE_PROXY".toList <:+: base) : key ∉ certificateKeys := by
  have hinfix := hbase.trans (List.isPrefixOf_iff_prefix.mp h.isPrefixOf).isInfix
  exact fun hmem => (certificateKeys_apart key hmem).1 hinfix

theorem infix_prefixed {sub base : Text} (h : sub <:+: base) (name : Text) :
    sub <:+: prefixed name base :=
  h.trans ⟨name ++ ['_'], [], by simp [prefixed]⟩

theorem OneUpstream.congr (hone : OneUpstream name service)
    (h : ∀ key, key ∉ certificateKeys → service'.get key = service.get key) :
    OneUpstream name service' := by
  obtain ⟨⟨hhost, hurl⟩, -⟩ := reverseProxy_within
  have hset : ∀ {base key}, "REVERSE_PROXY".toList <:+: base → IsSetting base key →
      service'.get key = service.get key :=
    fun hbase hsetting => h _ (hsetting.not_mem_certificateKeys hbase)
  have hmem : ∀ {base key}, "REVERSE_PROXY".toList <:+: base → IsSetting base key →
      (key ∈ service'.keys ↔ key ∈ service.keys) := by
    intro base key hbase hsetting
    rw [Ordered.mem_keys, Ordered.mem_keys, hset hbase hsetting]
  have hurls : ∀ {key}, IsSetting urlKey key ∨ IsSetting (prefixed name urlKey) key →
      (key ∈ service'.keys ↔ key ∈ service.keys) := by
    rintro key (hsetting | hsetting)
    · exact hmem hurl hsetting
    · exact hmem (infix_prefixed hurl name) hsetting
  refine ⟨fun key value hget => ⟨fun hsetting => ?_, fun hsetting => ?_⟩, fun hkey hnamed => ?_,
    fun key hkey key' hkey' hsetting hsetting' => ?_⟩
  · exact (hone.plain key value (hset hhost hsetting ▸ hget)).1 hsetting
  · exact (hone.plain key value (hset (infix_prefixed hhost name) hsetting ▸ hget)).2 hsetting
  · exact hone.host ((hmem hhost (.inl rfl)).mp hkey)
      ((hmem (infix_prefixed hhost name) (.inl rfl)).mp hnamed)
  · exact hone.url key ((hurls hsetting).mp hkey) key' ((hurls hsetting').mp hkey') hsetting
      hsetting'

theorem names_congr (h : service'.get serverNameKey = service.get serverNameKey) :
    names service' = names service := by
  rw [names, names, h]

theorem isStream_certified (cluster : Cluster) (ingress : Ingress) :
    isStream name (certified cluster ingress service) = isStream name service := by
  have htype := fun key (h : typeKey <:+: key) =>
    get_certified cluster ingress (fun hmem => (certificateKeys_apart key hmem).2 h) service
  rw [isStream, isStream, htype _ (infix_prefixed List.infix_rfl name), htype _ List.infix_rfl]

theorem oneUpstream_certified_iff (cluster : Cluster) (ingress : Ingress) :
    OneUpstream name (certified cluster ingress service) ↔ OneUpstream name service :=
  ⟨fun h => h.congr fun _ hkey => (get_certified cluster ingress hkey service).symm,
    fun h => h.congr fun _ hkey => get_certified cluster ingress hkey service⟩

/-! ## What the rules set -/

theorem isSetting_numbered (base : Text) (location : Nat) :
    IsSetting base (numbered base location) := by
  unfold numbered
  split
  · refine .inr ⟨_, ?_, List.all_eq_true.mpr isDigit_toString, rfl⟩
    exact fun h => toString_ne_empty location (String.toList_eq_nil_iff.mp h)
  · exact .inl rfl

theorem IsSetting.not_typeKey_suffix {base key : Text} (h : IsSetting base key)
    (hbase : base = hostKey ∨ base = urlKey) : ¬ typeKey <:+ key := by
  rcases h with rfl | ⟨digits, hne, hdigits, rfl⟩
  · rcases hbase with rfl | rfl <;> decide
  · rintro ⟨before, heq⟩
    -- the last character is a digit
    have hlast := congrArg List.getLast? heq
    have htype : typeKey.getLast? = some 'E' := by decide
    rw [List.getLast?_append, htype, Option.some_or, List.getLast?_append,
      List.getLast?_cons_of_ne_nil hne, List.getLast?_eq_some_getLast hne, Option.some_or] at hlast
    have hdigit := List.all_eq_true.mp hdigits _ (List.getLast_mem hne)
    rw [← Option.some.inj hlast] at hdigit
    exact absurd hdigit (by decide)

theorem get_ruleService (c : Controller) (cluster : Cluster) (nameSpace host : Text)
    (http : Option (List Path)) {key : Text} (hkey : typeKey <:+ key) :
    (ruleService c cluster nameSpace host http).get key = none := by
  have hfixed : ∀ fixed ∈ [serverNameKey, "NAMESPACE".toList, "USE_REVERSE_PROXY".toList],
      ¬ typeKey <:+ fixed := by decide
  have hne : ∀ fixed ∈ [serverNameKey, "NAMESPACE".toList, "USE_REVERSE_PROXY".toList],
      key ≠ fixed := fun fixed hmem heq => hfixed fixed hmem (heq ▸ hkey)
  have hpath : ∀ location path, ∀ item ∈ pathSettings c cluster nameSpace location path,
      key ≠ item.1 := by
    rintro location path item hitem rfl
    unfold pathSettings at hitem
    split at hitem
    next =>
      split at hitem
      next =>
        rcases List.mem_cons.mp hitem with rfl | hitem
        · exact hne _ (by simp) rfl
        rcases List.mem_cons.mp hitem with rfl | hitem
        · exact (isSetting_numbered hostKey location).not_typeKey_suffix (.inl rfl) hkey
        obtain rfl := List.mem_singleton.mp hitem
        exact (isSetting_numbered urlKey location).not_typeKey_suffix (.inr rfl) hkey
      next => cases hitem
    next => cases hitem
  unfold ruleService
  generalize (http.getD []).zipIdx c.suffixStart = paths
  have hstart : (update .empty [(serverNameKey, host), ("NAMESPACE".toList, nameSpace)]).get key =
      none := by
    rw [get_update fun item hitem => ?_]
    · rfl
    · rcases List.mem_cons.mp hitem with rfl | hitem
      · exact hne _ (by simp)
      · obtain rfl := List.mem_singleton.mp hitem
        exact hne _ (by simp)
  generalize update .empty [(serverNameKey, host), ("NAMESPACE".toList, nameSpace)] = service
    at hstart ⊢
  induction paths generalizing service with
  | nil => exact hstart
  | cons path paths ih => exact ih _ ((get_update (hpath path.2 path.1) service).trans hstart)

/-- No rule sets a type. -/
theorem isStream_ruleService (c : Controller) (cluster : Cluster) (nameSpace host : Text)
    (http : Option (List Path)) :
    isStream name (ruleService c cluster nameSpace host http) = false := by
  have hnone := fun key => @get_ruleService c cluster nameSpace host http key
  rw [isStream, hnone _ ⟨name ++ ['_'], by simp [prefixed]⟩, hnone _ List.suffix_rfl]
  decide

/-! ## All services -/

/-- What becomes of the settings of a service. -/
def finished (c : Controller) (cluster : Cluster) (ingress : Ingress) (service : Service) : Service :=
  certified cluster ingress
    (if ingress.annotations.isEmpty then service else reduced c.protocol service)

theorem toServices_eq (c : Controller) (cluster : Cluster) (ingress : Ingress) :
    toServices c cluster ingress =
      (settings c cluster ingress).map (finished c cluster ingress) := rfl

theorem names_finished (c : Controller) (cluster : Cluster) (ingress : Ingress) (service : Service) :
    names (finished c cluster ingress service) = names service := by
  have hnot : serverNameKey ∉ certificateKeys := by decide
  refine names_congr ((get_certified cluster ingress hnot _).trans ?_)
  split
  · rfl
  · exact get_reduced fun other _ => touches_of_other reverseProxy_within.2.2

/-- Without annotations there is no stream. -/
theorem isStream_of_no_annotations {c : Controller} {cluster : Cluster} {ingress : Ingress}
    (hempty : ingress.annotations = []) (hservice : service ∈ settings c cluster ingress) :
    isStream name service = false := by
  obtain ⟨service, hrule, rfl⟩ := List.mem_map.mp hservice
  rw [annotated, hempty, List.foldl_nil]
  obtain ⟨rule, -, hsome⟩ := List.mem_filterMap.mp hrule
  obtain ⟨host, -, rfl⟩ := Option.map_eq_some_iff.mp hsome
  exact isStream_ruleService c cluster ingress.nameSpace host rule.http

/-- A stream that comes out has one upstream just when its settings are clean. -/
theorem oneUpstream_finished_iff (c : Controller) (cluster : Cluster) (ingress : Ingress)
    (hservice : service ∈ settings c cluster ingress) (hapart : (names service).Pairwise Apart)
    (hname : name ∈ names service) :
    (isStream name (finished c cluster ingress service) = true →
        OneUpstream name (finished c cluster ingress service)) ↔
      (isStream name service = true → Clean c.protocol name service) := by
  rw [finished, isStream_certified, oneUpstream_certified_iff]
  split
  next hempty =>
    rw [isStream_of_no_annotations (List.isEmpty_iff.mp hempty) hservice]
    simp
  next =>
    rw [isStream_reduced hapart hname]
    exact forall_congr' fun hstream => oneUpstream_reduced_iff hapart hname hstream

/-- The streams that come out have one upstream just when their settings are clean. -/
theorem oneUpstream_iff (c : Controller) (cluster : Cluster) (ingress : Ingress) :
    (∀ service ∈ toServices c cluster ingress, (names service).Pairwise Apart →
      ∀ name ∈ names service, isStream name service = true → OneUpstream name service) ↔
    ∀ service ∈ settings c cluster ingress, (names service).Pairwise Apart →
      ∀ name ∈ names service, isStream name service = true → Clean c.protocol name service := by
  rw [toServices_eq, List.forall_mem_map]
  refine forall₂_congr fun service hservice => ?_
  rw [names_finished]
  exact forall_congr' fun hapart => forall₂_congr fun name hname =>
    oneUpstream_finished_iff c cluster ingress hservice hapart hname

/-- A controller with its defaults, to which all settings are valid. -/
def plainController : Controller := ⟨1, .http, "cluster.local".toList, fun _ _ => true⟩

def appCluster : Cluster := ⟨fun _ _ => some [(none, 8080)], fun _ _ => none⟩

/-- One path to one backend, and the type of the service. -/
def appIngress : Ingress :=
  ⟨"default".toList,
    [⟨some "app.example.com".toList,
      some [⟨some ['/'], some ⟨"app".toList, some ⟨none, 8080⟩⟩⟩]⟩],
    [("bunkerweb.io/SERVER_TYPE".toList, "stream".toList)], []⟩

/-- What the path of a rule has set keeps its number and its scheme. -/
theorem path_of_stream_keeps_number :
    ∃ service ∈ toServices plainController appCluster appIngress,
      ∃ name, names service = [name] ∧ isStream name service = true ∧
        service.get "REVERSE_PROXY_HOST_1".toList =
          some "http://app.default.svc.cluster.local:8080".toList ∧ ¬ OneUpstream name service := by
  obtain ⟨service, hservices, hname, hstream, hvalue⟩ :
      ∃ service, toServices plainController appCluster appIngress = [service] ∧
        names service = ["app.example.com".toList] ∧
        isStream "app.example.com".toList service = true ∧
        service.get "REVERSE_PROXY_HOST_1".toList =
          some "http://app.default.svc.cluster.local:8080".toList :=
    ⟨_, rfl, by decide +kernel, by decide +kernel, by decide +kernel⟩
  refine ⟨service, hservices ▸ List.mem_singleton_self service, _, hname, hstream, hvalue,
    fun h => ?_⟩
  have hsetting : IsSetting hostKey "REVERSE_PROXY_HOST_1".toList :=
    .inr ⟨['1'], by decide, by decide, by decide +kernel⟩
  exact absurd ((h.plain _ _ hvalue).1 hsetting).1 (by decide +kernel)

end BunkerWeb.Autoconf.Ingress
