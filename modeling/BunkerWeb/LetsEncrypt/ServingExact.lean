import BunkerWeb.LetsEncrypt.Serving
import BunkerWeb.LetsEncrypt.WildcardBases
import BunkerWeb.Lib.Overwrite

/-!
# When every host is served with its own certificate

- **The sorted bases** (`find?_sortBases`): the first base found for a host is the longest.
- **The fill** (`servers_init`, `Stored`): what the table has for a name is what the last service
  wrote that knows the name; the store has the certificate of the service without wildcards that
  lists the name, else that of the group.
- **The condition** (`Apart`) and the result (`served_iff`).
-/

namespace BunkerWeb.LetsEncrypt.Plugin

open Lib

/-! ## Sorted bases -/

theorem longerFirst_eq_false_iff {a b : Name} :
    longerFirst b a = false ↔ b.length < a.length ∨ a.length = b.length ∧ textLt b a = false := by
  unfold longerFirst
  split
  next h => simp [h]
  next h => simp only [decide_eq_false_iff_not]; omega

theorem pairwise_sortBases (bases : List Name) :
    (sortBases bases).Pairwise fun a b => b.length ≤ a.length := by
  have htotal : Std.Total fun a b : Name => longerFirst b a = false := ⟨fun a b => by
    simp only [longerFirst_eq_false_iff]
    rcases Nat.lt_trichotomy a.length b.length with h | h | h
    · exact .inr (.inl h)
    · exact (textLt_total a b).imp (fun hle => .inr ⟨h, hle⟩) fun hle => .inr ⟨h.symm, hle⟩
    · exact .inl (.inl h)⟩
  have htrans : IsTrans Name fun a b => longerFirst b a = false := ⟨fun a b c => by
    simp only [longerFirst_eq_false_iff]
    rintro (h | ⟨h, hle⟩) (h' | ⟨h', hle'⟩)
    · exact .inl (h'.trans h)
    · exact .inl (h' ▸ h)
    · exact .inl (h ▸ h')
    · exact .inr ⟨h.trans h', not_textLt_trans hle hle'⟩⟩
  refine (List.pairwise_insertionSort _ bases).imp fun {a b} h => ?_
  rcases longerFirst_eq_false_iff.mp h with h | ⟨h, -⟩
  · exact h.le
  · exact h.ge

theorem mem_sortBases {base : Name} {bases : List Name} : base ∈ sortBases bases ↔ base ∈ bases :=
  List.mem_insertionSort _

theorem isUnder_self (name : Name) : isUnder name name = true := by simp [isUnder]

theorem suffix_of_isUnder {name base : Name} (h : isUnder name base = true) : base <:+ name := by
  simp only [isUnder, Bool.or_eq_true, decide_eq_true_eq, Bool.and_eq_true,
    List.isSuffixOf_iff_suffix] at h
  rcases h with rfl | ⟨-, h⟩
  · exact List.suffix_rfl
  · exact (List.suffix_cons '.' base).trans h

/-- A base the name is at or below, and the longest one. -/
def IsClosest (bases : List Name) (name base : Name) : Prop :=
  base ∈ bases ∧ isUnder name base ∧
    ∀ base' ∈ bases, isUnder name base' → base'.length ≤ base.length

theorem IsClosest.unique {bases : List Name} {name b b' : Name} (h : IsClosest bases name b)
    (h' : IsClosest bases name b') : b = b' :=
  (List.suffix_of_suffix_length_le (suffix_of_isUnder h.2.1) (suffix_of_isUnder h'.2.1)
    (h'.2.2 b h.1 h.2.1)).eq_of_length (Nat.le_antisymm (h'.2.2 b h.1 h.2.1) (h.2.2 b' h'.1 h'.2.1))

/-- A base is the closest to itself. -/
theorem IsClosest.self {bases : List Name} {name : Name} (h : name ∈ bases) :
    IsClosest bases name name :=
  ⟨h, isUnder_self name, fun _ _ hunder => (suffix_of_isUnder hunder).length_le⟩

theorem find?_sortBases {bases : List Name} {name base : Name} :
    (sortBases bases).find? (isUnder name) = some base ↔ IsClosest bases name base := by
  have hfound : ∀ b, (sortBases bases).find? (isUnder name) = some b →
      IsClosest bases name b := by
    intro b hb
    obtain ⟨hunder, before, after, hsplit, hbefore⟩ := List.find?_eq_some_iff_append.mp hb
    have hmem : b ∈ sortBases bases := List.mem_of_find?_eq_some hb
    refine ⟨mem_sortBases.mp hmem, hunder, fun b' hb' hunder' => ?_⟩
    have hsorted := pairwise_sortBases bases
    have hb' := mem_sortBases.mpr hb'
    rw [hsplit] at hsorted hb'
    rcases List.mem_append.mp hb' with hb' | hb'
    · exact absurd hunder' (by simpa using hbefore b' hb')
    · rcases List.mem_cons.mp hb' with rfl | hb'
      · exact Nat.le_refl _
      · exact List.rel_of_pairwise_cons (List.pairwise_append.mp hsorted).2.1 hb'
  constructor
  · exact hfound base
  · intro h
    obtain ⟨b, hb⟩ : ∃ b, (sortBases bases).find? (isUnder name) = some b := by
      rw [← Option.isSome_iff_exists, List.find?_isSome]
      exact ⟨base, mem_sortBases.mpr h.1, h.2.1⟩
    rw [hb, (hfound b hb).unique h]

theorem find?_sortBases_eq_none {bases : List Name} {name : Name} :
    (sortBases bases).find? (isUnder name) = none ↔ ∀ base ∈ bases, ¬ isUnder name base := by
  simp [List.find?_eq_none, mem_sortBases]

/-! ## Services -/

namespace Service

variable {s : Service}

theorem ne_nil_of_mem_serverNames {name : Name} (h : name ∈ s.serverNames) : name ≠ [] :=
  ne_nil_of_mem_fields h

theorem certIdentifier_mem (s : Service) : s.certIdentifier ∈ s.serverNames :=
  List.head_mem s.nonempty

theorem mem_bases {base : Name} :
    base ∈ s.bases ↔ base ∈ (buildWildcardGroups s.serverNames).keys := mem_sortBases

theorem ne_nil_of_mem_bases {base : Name} (h : base ∈ s.bases) : base ≠ [] := by
  have hlookup := AList.lookup_isSome.mpr (mem_bases.mp h)
  rw [buildWildcardGroups, lookup_groups] at hlookup
  split at hlookup
  next hmem => simpa using (List.mem_filter.mp hmem).2
  next => exact absurd hlookup (by simp)

/-- A name of the service resolves to its closest base. -/
theorem resolve_eq_some_iff {name base : Name} (h : name ∈ s.serverNames) :
    resolveWildcardBase name s.bases = some base ↔ IsClosest s.bases name base := by
  have hclosest : IsClosest (buildWildcardGroups s.serverNames).keys name base ↔
      IsClosest s.bases name base := by
    simp only [IsClosest, mem_bases]
  rw [resolveWildcardBase, if_neg (ne_nil_of_mem_serverNames h), bases, find?_sortBases, hclosest]
  rfl

end Service

/-! ## The table of names -/

/-- What a service writes for a name: `false`, the base that the name resolves to, or the name
itself as one of its bases. -/
def writes (s : Service) (name : Name) : Option (Option Name) :=
  if s.enabled then
    if s.wildcard then
      if name ∈ s.serverNames then some (resolveWildcardBase name s.bases)
      else if name ∈ s.bases then some (some name) else none
    else if name ∈ s.serverNames then some none else none
  else none

theorem servers_initService (live : Name → Option Issued) (t : Tables) (s : Service) (name : Name) :
    (initService live t s).servers.lookup name = (writes s name).or (t.servers.lookup name) := by
  unfold initService writes
  cases henabled : s.enabled with
  | false => simp
  | true =>
    cases hwild : s.wildcard with
    | false =>
      simp only [Bool.not_true, Bool.false_eq_true, if_false, if_true]
      rw [Dict.lookup_foldl_insert fun _ => none]
      split <;> rfl
    | true =>
      simp only [Bool.not_true, Bool.false_eq_true, if_false, if_true]
      rw [Dict.lookup_foldl_insert fun part => resolveWildcardBase part s.bases,
        Dict.lookup_foldl_insert fun base => some base]
      split
      · rfl
      · split <;> rfl

theorem servers_foldl (live : Name → Option Issued) (order : List Service) (name : Name) :
    (order.foldl (initService live) ⟨∅, ∅, []⟩).servers.lookup name =
      order.reverse.findSome? (writes · name) := by
  rw [read_foldl (fun t : Tables => t.servers.lookup name) (writes · name)
    (fun t s => servers_initService live t s name)]
  exact Option.or_none

/-! ## The store -/

/-- The bases of the services that are read with wildcards. -/
def allBases (services : List Service) : List Name :=
  (services.filter fun s => s.enabled && s.wildcard).flatMap Service.bases

theorem mem_allBases {services : List Service} {base : Name} :
    base ∈ allBases services ↔ ∃ s ∈ services, (s.enabled ∧ s.wildcard) ∧ base ∈ s.bases := by
  simp [allBases, and_assoc]

/-- The services that are read without wildcards. -/
def Service.plain (s : Service) : Bool := s.enabled && !s.wildcard

/-- The store after some services: a name of a service without wildcards has its certificate,
another base that of its group, and nothing else is there. -/
structure Stored (services : List Service) (store : Dict Name Value) : Prop where
  plain : ∀ s ∈ services, s.plain → ∀ name ∈ s.serverNames,
    store.lookup name = some (.certificate (.own s.certIdentifier))
  base : ∀ name ∈ allBases services, (∀ s ∈ services, s.plain → name ∉ s.serverNames) →
    store.lookup name = some (.certificate (.group name))
  other : ∀ name ∉ allBases services, (∀ s ∈ services, s.plain → name ∉ s.serverNames) →
    store.lookup name = none

section

variable {live : Name → Option Issued}

theorem lookup_load {identifier : Name} {names : List Name} {store : Dict Name Value} {c : Issued}
    (hstore : store.lookup identifier = none) (hlive : live identifier = some c) (name : Name) :
    (load live identifier names store).lookup name =
      if name ∈ names then some (.certificate c) else store.lookup name := by
  simp only [load, hstore, hlive]
  rw [Dict.lookup_foldl_insert fun _ => Value.certificate c]
  congr

theorem lookup_load_base {base : Name} (hlive : live base = some (.group base))
    (store : Dict Name Value) (name : Name) :
    (load live base [base] store).lookup name =
      (store.lookup name).or (if name = base then some (.certificate (.group base)) else none) := by
  cases hstore : store.lookup base with
  | none =>
    rw [lookup_load hstore hlive]
    by_cases hname : name = base
    · subst hname
      simp [hstore]
    · simp [hname]
  | some v =>
    rw [load, hstore]
    by_cases hname : name = base
    · subst hname
      simp [hstore]
    · simp [hname]

theorem lookup_load_bases {bases : List Name} (hlive : ∀ base ∈ bases, live base = some (.group base))
    (store : Dict Name Value) (name : Name) :
    (bases.foldl (fun store base => load live base [base] store) store).lookup name =
      (store.lookup name).or
        (if name ∈ bases then some (.certificate (.group name)) else none) := by
  induction bases generalizing store with
  | nil => simp
  | cons base bases ih =>
    rw [List.foldl_cons, ih fun b hb => hlive b (List.mem_cons_of_mem base hb),
      lookup_load_base (hlive base List.mem_cons_self), Option.or_assoc]
    congr 1
    by_cases hname : name = base
    · subst hname
      simp
    · simp [hname]

theorem allBases_append (services : List Service) (s : Service) :
    allBases (services ++ [s]) =
      allBases services ++ if s.enabled && s.wildcard then s.bases else [] := by
  rw [allBases, List.filter_append, List.flatMap_append, ← allBases]
  cases h : s.enabled && s.wildcard <;> simp [h]

/-- What one more service stores. -/
theorem Stored.step {services : List Service} {t : Tables} (h : Stored services t.store)
    {s : Service} (honce : ListedOnce (services ++ [s]))
    (hpresent : AllPresent live (services ++ [s])) :
    Stored (services ++ [s]) (initService live t s).store := by
  have hs := hpresent s (List.mem_append_right _ (List.mem_singleton_self s))
  have hdisjoint : ∀ s' ∈ services, ∀ name ∈ s.serverNames, name ∉ s'.serverNames :=
    fun s' hs' name hname hname' => (List.pairwise_append.mp honce).2.2 s' hs' s
      (List.mem_singleton_self s) name hname' hname
  have hold : ∀ {p : Service → Prop}, (∀ s' ∈ services ++ [s], p s') ↔
      (∀ s' ∈ services, p s') ∧ p s := by
    intro p
    simp [or_imp, forall_and]
  cases henabled : s.enabled with
  | false =>
    have hplain : ¬ s.plain := by simp [Service.plain, henabled]
    have hstore : initService live t s = t := by simp [initService, henabled]
    have hbases : allBases (services ++ [s]) = allBases services := by
      rw [allBases_append]
      simp [henabled]
    rw [hstore]
    constructor
    · exact hold.mpr ⟨h.plain, fun hp => absurd hp hplain⟩
    · rw [hbases]
      exact fun name hname hnot => h.base name hname (hold.mp hnot).1
    · rw [hbases]
      exact fun name hname hnot => h.other name hname (hold.mp hnot).1
  | true =>
    cases hwild : s.wildcard with
    | true =>
      have hplain : ¬ s.plain := by simp [Service.plain, hwild]
      have hstore : ∀ name, (initService live t s).store.lookup name =
          (t.store.lookup name).or
            (if name ∈ s.bases then some (.certificate (.group name)) else none) := by
        intro name
        simp only [initService, henabled, hwild, Bool.not_true, Bool.false_eq_true, if_false,
          if_true]
        exact lookup_load_bases ((hs henabled).1 hwild) t.store name
      have hbases : ∀ name, name ∈ allBases (services ++ [s]) ↔
          name ∈ allBases services ∨ name ∈ s.bases := by
        intro name
        rw [allBases_append]
        simp [henabled, hwild]
      constructor
      · refine hold.mpr ⟨fun s' hs' hp name hname => ?_, fun hp => absurd hp hplain⟩
        rw [hstore, h.plain s' hs' hp name hname, Option.some_or]
      · intro name hname hnot
        rw [hstore]
        by_cases hmem : name ∈ allBases services
        · rw [h.base name hmem (hold.mp hnot).1, Option.some_or]
        · rw [h.other name hmem (hold.mp hnot).1, Option.none_or,
            if_pos (((hbases name).mp hname).resolve_left hmem)]
      · intro name hname hnot
        rw [hbases, not_or] at hname
        rw [hstore, h.other name hname.1 (hold.mp hnot).1, if_neg hname.2, Option.none_or]
    | false =>
      have hplain : s.plain := by simp [Service.plain, henabled, hwild]
      have hlive : live s.certIdentifier = some (.own s.certIdentifier) :=
        (hs henabled).2 (by simp [hwild])
      -- No service before has stored anything for the identifier.
      have hnew : t.store.lookup s.certIdentifier = none := by
        refine h.other _ (fun hbase => ?_) fun s' hs' _ =>
          hdisjoint s' hs' _ s.certIdentifier_mem
        obtain ⟨s', hs', hwild', hbase⟩ := mem_allBases.mp hbase
        have hgroup := (hpresent s' (List.mem_append_left _ hs') hwild'.1).1 hwild'.2 _ hbase
        rw [hlive] at hgroup
        exact absurd hgroup (by simp)
      have hstore : ∀ name, (initService live t s).store.lookup name =
          if name ∈ s.serverNames then some (.certificate (.own s.certIdentifier))
          else t.store.lookup name := by
        intro name
        simp only [initService, henabled, hwild, Bool.not_true, Bool.false_eq_true, if_false]
        exact lookup_load hnew hlive name
      have hbases : allBases (services ++ [s]) = allBases services := by
        rw [allBases_append]
        simp [hwild]
      constructor
      · refine hold.mpr ⟨fun s' hs' hp name hname => ?_, fun _ name hname => ?_⟩
        · have hother : name ∉ s.serverNames := fun hmem => hdisjoint s' hs' name hmem hname
          rw [hstore, if_neg hother, h.plain s' hs' hp name hname]
        · rw [hstore, if_pos hname]
      · rw [hbases]
        intro name hname hnot
        rw [hstore, if_neg ((hold.mp hnot).2 hplain), h.base name hname (hold.mp hnot).1]
      · rw [hbases]
        intro name hname hnot
        rw [hstore, if_neg ((hold.mp hnot).2 hplain), h.other name hname (hold.mp hnot).1]

theorem stored_foldl (order : List Service) (honce : ListedOnce order)
    (hpresent : AllPresent live order) :
    Stored order (order.foldl (initService live) ⟨∅, ∅, []⟩).store := by
  induction order using List.reverseRecOn with
  | nil => exact ⟨by simp, by simp [allBases], fun name _ _ => AList.lookup_empty name⟩
  | append_singleton services s ih =>
    rw [List.foldl_append]
    exact (ih (List.pairwise_append.mp honce).1
      fun s' hs' => hpresent s' (List.mem_append_left _ hs')).step honce hpresent

end

/-! ## The lookup -/

theorem bases_initService (live : Name → Option Issued) (t : Tables) (s : Service) (base : Name) :
    base ∈ (initService live t s).bases ↔
      base ∈ t.bases ∨ ((s.enabled ∧ s.wildcard) ∧ base ∈ s.bases) := by
  unfold initService
  cases henabled : s.enabled <;> cases hwild : s.wildcard <;> simp

theorem mem_bases_foldl (live : Name → Option Issued) (t : Tables) (order : List Service)
    (base : Name) : base ∈ (order.foldl (initService live) t).bases ↔
      base ∈ t.bases ∨ base ∈ allBases order := by
  induction order generalizing t with
  | nil => simp [allBases]
  | cons s order ih =>
    rw [List.foldl_cons, ih, bases_initService]
    simp only [mem_allBases, List.mem_cons, exists_eq_or_imp, or_assoc]

/-- Without a service that is read the fill is empty. -/
theorem foldl_of_not_any (live : Name → Option Issued) {order : List Service}
    (h : ¬ order.any Service.autoLetsEncrypt) (t : Tables) :
    order.foldl (initService live) t = t := by
  induction order with
  | nil => rfl
  | cons s order ih =>
    simp only [List.any_cons, Bool.or_eq_true, not_or] at h
    have hskip : initService live t s = t := by simp [initService, Service.enabled, h.1]
    rw [List.foldl_cons, hskip, ih h.2]

/-- What `ssl_certificate` finds under a key. -/
def found (live : Name → Option Issued) (order : List Service) (key : Name) : Option Value :=
  (init live order).lookup key

/-- The keys that `init` keeps its tables under. -/
def reserved : List Name := [basesKey, serversKey]

section

variable {live : Name → Option Issued} {order services : List Service} {name key : Name}

theorem init_eq (live : Name → Option Issued) (order : List Service) :
    init live order =
      (((order.foldl (initService live) ⟨∅, ∅, []⟩).store.insert basesKey
        (.bases (sortBases (order.foldl (initService live) ⟨∅, ∅, []⟩).bases))).insert serversKey
          (.servers (order.foldl (initService live) ⟨∅, ∅, []⟩).servers)) := by
  unfold init
  split
  · rfl
  next h => rw [foldl_of_not_any live h]

theorem found_of_notMem (h : key ∉ reserved) :
    found live order key = (order.foldl (initService live) ⟨∅, ∅, []⟩).store.lookup key := by
  simp only [reserved, List.mem_cons, List.not_mem_nil, or_false, not_or] at h
  rw [found, init_eq, AList.lookup_insert_ne h.2, AList.lookup_insert_ne h.1]

theorem found_of_mem (h : key ∈ reserved) (c : Issued) :
    found live order key ≠ none ∧ found live order key ≠ some (.certificate c) := by
  rw [found, init_eq]
  simp only [reserved, List.mem_cons, List.not_mem_nil, or_false] at h
  rcases h with rfl | rfl
  · rw [AList.lookup_insert_ne (by decide), AList.lookup_insert]
    simp
  · rw [AList.lookup_insert]
    simp

/-- The key of a name that the table has no base for. -/
def IsHostKey (bases : List Name) (name key : Name) : Prop :=
  IsClosest bases name key ∨ key = name ∧ ∀ base ∈ bases, ¬ isUnder name base

theorem IsHostKey.unique {bases : List Name} {key' : Name} (h : IsHostKey bases name key)
    (h' : IsHostKey bases name key') : key = key' := by
  rcases h with h | ⟨rfl, h⟩
  · rcases h' with h' | ⟨-, h'⟩
    · exact h.unique h'
    · exact absurd h.2.1 (h' key h.1)
  · rcases h' with h' | ⟨rfl, -⟩
    · exact absurd h'.2.1 (h key' h'.1)
    · rfl

theorem isClosest_congr {bases bases' : List Name} (h : ∀ base, base ∈ bases ↔ base ∈ bases') :
    IsClosest bases name key ↔ IsClosest bases' name key := by
  simp only [IsClosest, h]

theorem mem_bases_init (hperm : order.Perm services) (base : Name) :
    base ∈ (order.foldl (initService live) ⟨∅, ∅, []⟩).bases ↔ base ∈ allBases services := by
  rw [mem_bases_foldl]
  simp [mem_allBases, hperm.mem_iff]

/-- A name with an alias. -/
theorem sslCertificate_alias (hne : key ≠ [])
    (h : order.reverse.findSome? (writes · name) = some (some key)) :
    sslCertificate (init live order) name = found live order key := by
  obtain ⟨c, base, rfl⟩ := List.exists_cons_of_ne_nil hne
  have hservers := (servers_foldl live order name).trans h
  have hlookup : (init live order).lookup basesKey =
      some (.bases (sortBases (order.foldl (initService live) ⟨∅, ∅, []⟩).bases)) := by
    rw [init_eq, AList.lookup_insert_ne (by decide), AList.lookup_insert]
  have hlookup' : (init live order).lookup serversKey =
      some (.servers (order.foldl (initService live) ⟨∅, ∅, []⟩).servers) := by
    rw [init_eq, AList.lookup_insert]
  simp only [sslCertificate, hlookup, hlookup', hservers, found]

/-- A name with `false` in the table. -/
theorem sslCertificate_search (hperm : order.Perm services)
    (h : order.reverse.findSome? (writes · name) = some none) :
    ∃ key, IsHostKey (allBases services) name key ∧
      sslCertificate (init live order) name = found live order key := by
  have hservers := (servers_foldl live order name).trans h
  have hlookup : (init live order).lookup basesKey =
      some (.bases (sortBases (order.foldl (initService live) ⟨∅, ∅, []⟩).bases)) := by
    rw [init_eq, AList.lookup_insert_ne (by decide), AList.lookup_insert]
  have hlookup' : (init live order).lookup serversKey =
      some (.servers (order.foldl (initService live) ⟨∅, ∅, []⟩).servers) := by
    rw [init_eq, AList.lookup_insert]
  refine ⟨_, ?_, by simp only [sslCertificate, hlookup, hlookup', hservers, found]; rfl⟩
  have hmem := @mem_bases_init live _ _ hperm
  cases hfind : (sortBases (order.foldl (initService live) ⟨∅, ∅, []⟩).bases).find?
      (isUnder name) with
  | none =>
    refine .inr ⟨by simp, fun base hbase => ?_⟩
    exact find?_sortBases_eq_none.mp hfind base ((hmem base).mpr hbase)
  | some base => exact .inl ((isClosest_congr hmem).mp (find?_sortBases.mp hfind))

end

/-! ## The condition -/

/-- The services do not get in each other's way. -/
structure Apart (services : List Service) : Prop where
  /-- The closest base to a name of a service without wildcards is a name of that service. -/
  plain : ∀ s ∈ services, s.plain → ∀ name ∈ s.serverNames, ∀ key,
    IsHostKey (allBases services) name key → key ∈ s.serverNames ∧ key ∉ reserved
  /-- The base of a name is no name of a service without wildcards, and a name that is a base of
  some service is its own base. -/
  resolved : ∀ s ∈ services, s.enabled → s.wildcard → ∀ name ∈ s.serverNames, ∀ base,
    IsClosest s.bases name base →
      base ∉ reserved ∧ (∀ s' ∈ services, s'.plain → base ∉ s'.serverNames) ∧
        (name ∈ allBases services → base = name)
  /-- A name without a base of its own is below no other one. -/
  unresolved : ∀ s ∈ services, s.enabled → s.wildcard → ∀ name ∈ s.serverNames,
    (∀ base ∈ s.bases, ¬ isUnder name base) →
      (∀ base ∈ allBases services, ¬ isUnder name base) ∧ name ∉ reserved

section

variable {live : Name → Option Issued} {order services : List Service}

theorem ListedOnce.eq (h : ListedOnce services) {s s' : Service} (hs : s ∈ services)
    (hs' : s' ∈ services) {name : Name} (hname : name ∈ s.serverNames)
    (hname' : name ∈ s'.serverNames) : s = s' := by
  have hsymm : Std.Symm fun s s' : Service => ∀ name ∈ s.serverNames, name ∉ s'.serverNames :=
    ⟨fun _ _ hdisjoint name hname hname' => hdisjoint name hname' hname⟩
  by_contra hne
  exact List.Pairwise.forall h hs hs' hne name hname hname'

theorem stored_init (honce : ListedOnce services) (hpresent : AllPresent live services)
    (hperm : order.Perm services) :
    Stored services (order.foldl (initService live) ⟨∅, ∅, []⟩).store := by
  have honce' : ListedOnce order := (hperm.pairwise_iff fun hdisjoint name hname hname' =>
    hdisjoint name hname' hname).mpr honce
  have hstored := @stored_foldl live order honce' fun s hs => hpresent s (hperm.mem_iff.mp hs)
  have hbases : ∀ name, name ∈ allBases order ↔ name ∈ allBases services := fun name => by
    simp [mem_allBases, hperm.mem_iff]
  constructor
  · exact fun s hs => hstored.plain s (hperm.mem_iff.mpr hs)
  · exact fun name hname hnot => hstored.base name ((hbases name).mpr hname)
      fun s hs => hnot s (hperm.mem_iff.mp hs)
  · exact fun name hname hnot => hstored.other name (mt (hbases name).mp hname)
      fun s hs => hnot s (hperm.mem_iff.mp hs)

/-- What is stored under a key, for a key that `init` does not use itself. -/
theorem found_cases (honce : ListedOnce services) (hpresent : AllPresent live services)
    (hperm : order.Perm services) {key : Name} (hkey : key ∉ reserved) :
    (∃ s ∈ services, s.plain ∧ key ∈ s.serverNames ∧
        found live order key = some (.certificate (.own s.certIdentifier))) ∨
      (∀ s ∈ services, s.plain → key ∉ s.serverNames) ∧
        ((key ∈ allBases services ∧ found live order key = some (.certificate (.group key))) ∨
          (key ∉ allBases services ∧ found live order key = none)) := by
  have hstored := stored_init honce hpresent hperm
  rw [found_of_notMem hkey]
  by_cases hplain : ∃ s ∈ services, s.plain ∧ key ∈ s.serverNames
  · obtain ⟨s, hs, hp, hname⟩ := hplain
    exact .inl ⟨s, hs, hp, hname, hstored.plain s hs hp key hname⟩
  · have hnot : ∀ s ∈ services, s.plain → key ∉ s.serverNames :=
      fun s hs hp hname => hplain ⟨s, hs, hp, hname⟩
    refine .inr ⟨hnot, ?_⟩
    by_cases hbase : key ∈ allBases services
    · exact .inl ⟨hbase, hstored.base key hbase hnot⟩
    · exact .inr ⟨hbase, hstored.other key hbase hnot⟩

theorem found_eq_own_iff (honce : ListedOnce services) (hpresent : AllPresent live services)
    (hperm : order.Perm services) {s : Service} (hs : s ∈ services) (hplain : s.plain)
    {key : Name} : found live order key = some (.certificate (.own s.certIdentifier)) ↔
      key ∈ s.serverNames ∧ key ∉ reserved := by
  by_cases hkey : key ∈ reserved
  · exact iff_of_false (found_of_mem hkey _).2 fun h => h.2 hkey
  · rcases found_cases honce hpresent hperm hkey with ⟨s', hs', -, hname, h⟩ | ⟨hnot, h | h⟩
    · rw [h]
      constructor
      · intro heq
        have hid : s'.certIdentifier = s.certIdentifier := by simpa using heq
        have hself : s' = s :=
          honce.eq hs' hs s'.certIdentifier_mem (hid ▸ s.certIdentifier_mem)
        exact ⟨hself ▸ hname, hkey⟩
      · rintro ⟨hname', -⟩
        rw [honce.eq hs' hs hname hname']
    · rw [h.2]
      exact iff_of_false (by simp) fun hname => hnot s hs hplain hname.1
    · rw [h.2]
      exact iff_of_false (by simp) fun hname => hnot s hs hplain hname.1

theorem found_eq_group_iff (honce : ListedOnce services) (hpresent : AllPresent live services)
    (hperm : order.Perm services) {key base : Name} :
    found live order key = some (.certificate (.group base)) ↔
      key = base ∧ key ∈ allBases services ∧ key ∉ reserved ∧
        ∀ s ∈ services, s.plain → key ∉ s.serverNames := by
  by_cases hkey : key ∈ reserved
  · exact iff_of_false (found_of_mem hkey _).2 fun h => h.2.2.1 hkey
  · rcases found_cases honce hpresent hperm hkey with ⟨s, hs, hp, hname, h⟩ | ⟨hnot, h | h⟩
    · rw [h]
      exact iff_of_false (by simp) fun hall => hall.2.2.2 s hs hp hname
    · rw [h.2]
      constructor
      · exact fun heq => ⟨by simpa using heq, h.1, hkey, hnot⟩
      · rintro ⟨rfl, -⟩
        rfl
    · rw [h.2]
      exact iff_of_false (by simp) fun hall => h.1 hall.2.1

theorem found_eq_none_iff (honce : ListedOnce services) (hpresent : AllPresent live services)
    (hperm : order.Perm services) {key : Name} :
    found live order key = none ↔
      key ∉ allBases services ∧ key ∉ reserved ∧
        ∀ s ∈ services, s.plain → key ∉ s.serverNames := by
  by_cases hkey : key ∈ reserved
  · exact iff_of_false (found_of_mem hkey (.own [])).1 fun h => h.2.1 hkey
  · rcases found_cases honce hpresent hperm hkey with ⟨s, hs, hp, hname, h⟩ | ⟨hnot, h | h⟩
    · rw [h]
      exact iff_of_false (by simp) fun hall => hall.2.2 s hs hp hname
    · rw [h.2]
      exact iff_of_false (by simp) fun hall => hall.1 h.1
    · exact iff_of_true h.2 ⟨h.1, hkey, hnot⟩

/-- The table has for a name what its service wrote, or the name as a base of another one. -/
theorem alias_cases (honce : ListedOnce services) (hperm : order.Perm services) {s : Service}
    (hs : s ∈ services) {name : Name} (hname : name ∈ s.serverNames) {v v' : Option Name}
    (hwrites : writes s name = some v')
    (h : order.reverse.findSome? (writes · name) = some v) :
    v = v' ∨ v = some name ∧ name ∈ allBases services := by
  obtain ⟨s', hs', hv⟩ := exists_of_findSome?_reverse h
  by_cases hname' : name ∈ s'.serverNames
  · rw [honce.eq (hperm.mem_iff.mp hs') hs hname' hname, hwrites] at hv
    exact .inl (Option.some.inj hv).symm
  · unfold writes at hv
    simp only [hname', if_false] at hv
    split at hv
    next henabled =>
      split at hv
      next hwild =>
        split at hv
        next hbase =>
          exact .inr ⟨(Option.some.inj hv).symm,
            mem_allBases.mpr ⟨s', hperm.mem_iff.mp hs', ⟨henabled, hwild⟩, hbase⟩⟩
        next => cases hv
      next => cases hv
    next => cases hv

/-- An order in which the service comes last. -/
theorem exists_last {s : Service} (hs : s ∈ services) :
    ∃ before, (before ++ [s]).Perm services := by
  obtain ⟨l, l', rfl⟩ := List.append_of_mem hs
  exact ⟨l ++ l', (List.perm_append_singleton s _).trans List.perm_middle.symm⟩

theorem exists_alias (hperm : order.Perm services) {s : Service} (hs : s ∈ services) {name : Name}
    {v : Option Name} (hwrites : writes s name = some v) :
    ∃ v', order.reverse.findSome? (writes · name) = some v' :=
  exists_findSome?_reverse (hperm.mem_iff.mpr hs) hwrites

/-- A name of a service without wildcards is looked up in the list of bases. -/
theorem sslCertificate_plain (honce : ListedOnce services) (hperm : order.Perm services)
    {s : Service} (hs : s ∈ services) (hplain : s.plain) {name : Name}
    (hname : name ∈ s.serverNames) :
    ∃ key, IsHostKey (allBases services) name key ∧
      sslCertificate (init live order) name = found live order key := by
  have hmode : s.enabled = true ∧ s.wildcard = false := by simpa [Service.plain] using hplain
  have hwrites : writes s name = some none := by simp [writes, hmode, hname]
  obtain ⟨v, hv⟩ := exists_alias hperm hs hwrites
  rcases alias_cases honce hperm hs hname hwrites hv with rfl | ⟨rfl, hbase⟩
  · exact sslCertificate_search hperm hv
  · exact ⟨name, .inl (.self hbase),
      sslCertificate_alias (Service.ne_nil_of_mem_serverNames hname) hv⟩

theorem resolveWildcardBase_eq_none_iff {s : Service} {name : Name} (h : name ∈ s.serverNames) :
    resolveWildcardBase name s.bases = none ↔ ∀ base ∈ s.bases, ¬ isUnder name base := by
  rw [resolveWildcardBase, if_neg (Service.ne_nil_of_mem_serverNames h), List.find?_eq_none]

theorem Served.apart (honce : ListedOnce services) (hpresent : AllPresent live services)
    (h : Served live services) : Apart services := by
  constructor
  case plain =>
    intro s hs hplain name hname key hkey
    have hmode : s.enabled = true ∧ s.wildcard = false := by simpa [Service.plain] using hplain
    have hserved := h services (.refl _) s hs hmode.1 name hname
    obtain ⟨key', hkey', hfound⟩ :=
      @sslCertificate_plain live _ _ honce (.refl services) s hs hplain name hname
    obtain rfl := hkey.unique hkey'
    rw [hfound, issuedFor, hmode.2] at hserved
    exact (found_eq_own_iff honce hpresent (.refl _) hs hplain).mp hserved
  case resolved =>
    intro s hs henabled hwild name hname base hclosest
    have hresolve := (Service.resolve_eq_some_iff hname).mpr hclosest
    have hwrites : writes s name = some (some base) := by
      simp [writes, henabled, hwild, hname, hresolve]
    have hissued : (issuedFor s name).map Value.certificate = some (.certificate (.group base)) := by
      rw [issuedFor, if_pos hwild, hresolve]
      rfl
    -- First the service itself comes last, then the one with the name as a base.
    obtain ⟨before, hperm⟩ := exists_last hs
    have hserved := h _ hperm s hs henabled name hname
    rw [sslCertificate_alias (Service.ne_nil_of_mem_bases hclosest.1)
      (findSome?_reverse_append_singleton hwrites), hissued] at hserved
    obtain ⟨-, -, hreserved, hnot⟩ := (found_eq_group_iff honce hpresent hperm).mp hserved
    refine ⟨hreserved, hnot, fun hbase => ?_⟩
    obtain ⟨s', hs', hwild', hbase'⟩ := mem_allBases.mp hbase
    by_cases hname' : name ∈ s'.serverNames
    · obtain rfl := honce.eq hs' hs hname' hname
      exact hclosest.unique (.self hbase')
    · have hwrites' : writes s' name = some (some name) := by
        simp [writes, hwild', hname', hbase']
      obtain ⟨before', hperm'⟩ := exists_last hs'
      have hserved' := h _ hperm' s hs henabled name hname
      rw [sslCertificate_alias (Service.ne_nil_of_mem_serverNames hname)
        (findSome?_reverse_append_singleton hwrites'), hissued] at hserved'
      exact ((found_eq_group_iff honce hpresent hperm').mp hserved').1.symm
  case unresolved =>
    intro s hs henabled hwild name hname hnone
    have hresolve := (resolveWildcardBase_eq_none_iff hname).mpr hnone
    have hwrites : writes s name = some none := by
      simp [writes, henabled, hwild, hname, hresolve]
    obtain ⟨before, hperm⟩ := exists_last hs
    have hserved := h _ hperm s hs henabled name hname
    obtain ⟨key, hkey, hfound⟩ := @sslCertificate_search live _ _ _ hperm
      (findSome?_reverse_append_singleton hwrites)
    rw [hfound, issuedFor, if_pos hwild, hresolve] at hserved
    obtain ⟨hbase, hreserved, -⟩ := (found_eq_none_iff honce hpresent hperm).mp hserved
    rcases hkey with hkey | ⟨rfl, hnot⟩
    · exact absurd hkey.1 hbase
    · exact ⟨hnot, hreserved⟩

theorem Apart.served (honce : ListedOnce services) (hpresent : AllPresent live services)
    (h : Apart services) : Served live services := by
  intro order hperm s hs henabled name hname
  cases hwild : s.wildcard with
  | false =>
    have hplain : s.plain := by simp [Service.plain, henabled, hwild]
    obtain ⟨key, hkey, hfound⟩ := sslCertificate_plain honce hperm hs hplain hname
    rw [hfound, issuedFor, hwild]
    exact (found_eq_own_iff honce hpresent hperm hs hplain).mpr (h.plain s hs hplain name hname key
      hkey)
  | true =>
    rw [issuedFor, if_pos hwild]
    cases hresolve : resolveWildcardBase name s.bases with
    | some base =>
      have hclosest := (Service.resolve_eq_some_iff hname).mp hresolve
      obtain ⟨hreserved, hnot, hself⟩ := h.resolved s hs henabled hwild name hname base hclosest
      have hmem : base ∈ allBases services :=
        mem_allBases.mpr ⟨s, hs, ⟨henabled, hwild⟩, hclosest.1⟩
      have hwrites : writes s name = some (some base) := by
        simp [writes, henabled, hwild, hname, hresolve]
      obtain ⟨v, hv⟩ := exists_alias hperm hs hwrites
      have halias : v = some base := by
        rcases alias_cases honce hperm hs hname hwrites hv with hv | ⟨hv, hbase⟩
        · exact hv
        · rw [hv, hself hbase]
      rw [sslCertificate_alias (Service.ne_nil_of_mem_bases hclosest.1) (halias ▸ hv)]
      exact (found_eq_group_iff honce hpresent hperm).mpr ⟨rfl, hmem, hreserved, hnot⟩
    | none =>
      have hnone := (resolveWildcardBase_eq_none_iff hname).mp hresolve
      obtain ⟨hbases, hreserved⟩ := h.unresolved s hs henabled hwild name hname hnone
      have hnotBase : name ∉ allBases services :=
        fun hbase => hbases name hbase (isUnder_self name)
      have hwrites : writes s name = some none := by
        simp [writes, henabled, hwild, hname, hresolve]
      obtain ⟨v, hv⟩ := exists_alias hperm hs hwrites
      have halias : v = none := (alias_cases honce hperm hs hname hwrites hv).resolve_right
        fun hbase => hnotBase hbase.2
      obtain ⟨key, hkey, hfound⟩ := @sslCertificate_search live _ _ _ hperm (halias ▸ hv)
      rw [hfound]
      have hkeyName : key = name := hkey.unique (.inr ⟨rfl, hbases⟩)
      rw [hkeyName]
      refine (found_eq_none_iff honce hpresent hperm).mpr ⟨hnotBase, hreserved, ?_⟩
      intro s' hs' hplain hname'
      obtain rfl := honce.eq hs' hs hname' hname
      simp [Service.plain, hwild] at hplain

/-- Every host is served with the certificate of its service, in every order, exactly when the
services are apart. -/
theorem served_iff (honce : ListedOnce services) (hpresent : AllPresent live services) :
    Served live services ↔ Apart services :=
  ⟨Served.apart honce hpresent, Apart.served honce hpresent⟩

end

theorem served_iff_two_sites :
    Served bothLive [wildcardSite, plainSite] ↔ Apart [wildcardSite, plainSite] :=
  served_iff (by decide) (by decide)

end BunkerWeb.LetsEncrypt.Plugin
