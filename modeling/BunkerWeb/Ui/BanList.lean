import BunkerWeb.Lib.Marker
import BunkerWeb.Lib.Merging
import BunkerWeb.Lua.BanListing

/-!
# The list of bans (`_collect_all_bans` of `routes/bans.py`, `get_bans` of `models/instance.py`)

The bans of Redis come first, each read from its key, its value and its `TTL`; those of the instances
follow if the list does not have them yet. A ban is found again by its address, its scope and its
service label, and a lifetime of 0 stands for a permanent one.

The label of a global ban is the service it was written for, and two places may have two labels for
one ban. A lifetime is 0 shortly before its end, and `-1` in Redis for a ban without end.
`exact_iff_plain` says when the list is right all the same.
-/

namespace BunkerWeb.Ui.BanList

open Lib Lib.Marker Lua

/-- What is banned: an address, everywhere or for a service. -/
structure Ban where
  ip : String
  service : Option String
  deriving DecidableEq

/-- A ban as Redis or an instance has it. -/
structure Copy where
  ban : Ban
  entry : Entry BanValue
  deriving DecidableEq

/-- A row of the list, and the copy from which its reason, its country and its date are. -/
structure Row where
  ip : String
  scope : BanScope
  /-- The service label. -/
  service : String
  exp : Int
  permanent : Bool
  copy : Copy
  deriving DecidableEq

/-- What the row shows. -/
def Row.ban (r : Row) : Ban := ⟨r.ip, if r.scope = .service then some r.service else none⟩

/-- What two rows of one ban agree in, for the functions here. -/
def Row.key (r : Row) : String × BanScope × String := (r.ip, r.scope, r.service)

def Ban.key (b : Ban) : String :=
  match b.service with
  | none => globalBanKey b.ip
  | some service => serviceBanKey service b.ip

/-- The permanent flag of a value. -/
def flagged : BanValue → Bool
  | .data _ _ _ _ _ permanent => permanent
  | .text _ => false

/-- The service label of a value. -/
def label : BanValue → String
  | .data _ service _ _ _ _ => service
  | .text _ => "unknown"

/-! ## Redis -/

def readGlobal (key : String) : String := String.ofList (removeAll "bans_ip_".toList 0 key.toList)

/-- The service and the address; `none` is the error of a key with one part. -/
def readService (key : String) : Option (String × String) :=
  (rsplit "_ip_".toList (removeAll "bans_service_".toList 0 key.toList)).map fun parts =>
    (String.ofList parts.1, String.ofList parts.2)

/-- The row of a key, with its value and its `TTL`. -/
def redisRow (now : Nat) (c : Copy) : Option Row :=
  let ttl := redisTtl c.entry now
  let permanent := flagged c.entry.value || ttl = 0
  let exp := if permanent then 0 else ttl
  match c.ban.service with
  | none => some ⟨readGlobal c.ban.key, .global, label c.entry.value, exp, permanent, c⟩
  | some _ =>
    (readService c.ban.key).map fun parts => ⟨parts.2, .service, parts.1, exp, permanent, c⟩

/-- `if not data` lets a value pass. -/
def hasData : BanValue → Bool
  | .data .. => true
  | .text reason => reason ≠ ""

/-! ## Instances -/

/-- What an instance lists for a ban. -/
def listed (now : Nat) (c : Copy) : Listed :=
  match c.ban.service with
  | none => listedGlobal c.entry.value c.ban.ip (remaining c.entry now)
  | some service => listedValue c.entry.value c.ban.ip service .service (remaining c.entry now)

def instanceRow (now : Nat) (c : Copy) : Row :=
  let l := listed now c
  ⟨l.ip, l.scope, l.service, l.exp, l.permanent, c⟩

/-- What there is when the list is made. -/
structure World where
  now : Nat
  /-- The bans in Redis, none if there is no client. -/
  redis : Ban → Option (Entry BanValue)
  /-- What the two scans find, the global bans and those of services: each ban, maybe more than
  once. -/
  scan : List Ban
  mem_scan : ∀ b, b ∈ scan ↔ (redis b).isSome
  live : ∀ b, ∀ e ∈ redis b, e.Live now
  /-- Only addresses are banned. -/
  address : ∀ b ∈ scan, '_' ∉ b.ip.toList
  /-- The bans of the instances that answer. -/
  instances : List (List Copy)
  /-- A global ban is written with the scope of one. -/
  scopes : ∀ copies ∈ instances, ∀ c ∈ copies, c.ban.service = none →
    (listed now c).scope = .global

namespace World

variable (w : World)

/-- The keys that are found, with their values: the global ones, then the others. -/
def found : List Copy :=
  (w.scan.filter (·.service.isNone) ++ w.scan.filter (·.service.isSome)).filterMap fun b =>
    ((w.redis b).filter fun e => hasData e.value).map (⟨b, ·⟩)

/-- The rows for Redis; an error leaves none of them. -/
def redisRows : List Row := (w.found.mapM (redisRow w.now)).getD []

/-- `get_bans`. -/
def getBans : List Row :=
  merge Row.key []
    ((w.instances.flatten.map (instanceRow w.now)).insertionSort fun r s => r.exp ≤ s.exp)

/-- The last loop. -/
def finish (r : Row) : Row := if r.exp = 0 ∨ r.permanent then { r with permanent := true } else r

/-- `_collect_all_bans`. -/
def collectAllBans : List Row := (merge Row.key w.redisRows w.getBans).map finish

/-! ## The right list -/

/-- The ban is in Redis or on an instance. -/
def Banned (b : Ban) : Prop := (w.redis b).isSome ∨ ∃ c ∈ w.instances.flatten, c.ban = b

/-- The ban has no end. Redis says so if it has the ban; an instance keeps a copy for a short time, with
the flag of the ban. -/
def NoExpiry (b : Ban) : Prop :=
  match w.redis b with
  | some e => e.expires = none
  | none => ∃ c ∈ w.instances.flatten, c.ban = b ∧
      (c.entry.expires = none ∨ flagged c.entry.value = true)

structure Exact : Prop where
  /-- A row shows the ban that it is read from. -/
  shows : ∀ r ∈ w.collectAllBans, r.ban = r.copy.ban
  mem : ∀ b, b ∈ w.collectAllBans.map Row.ban ↔ w.Banned b
  once : (w.collectAllBans.map Row.ban).Nodup
  permanent : ∀ r ∈ w.collectAllBans, r.permanent = true ↔ w.NoExpiry r.ban

/-! ## When it is -/

/-- The service can be read from the key, maybe wrongly. -/
def Splits (c : Copy) : Prop := c.ban.service.isSome → (readService c.ban.key).isSome

instance (c : Copy) : Decidable (Splits c) := inferInstanceAs (Decidable (_ → _))

/-- What is read from Redis: nothing if one of the keys cannot be split. -/
def shown : List Copy := if ∀ c ∈ w.found, Splits c then w.found else []

/-- The key has `bans_service_` at its beginning only. -/
def Readable (b : Ban) : Prop :=
  ∀ service ∈ b.service, ¬ "bans_service_".toList <:+: (service ++ ("_ip_" ++ b.ip)).toList

/-- An instance lists the copy with a lifetime of 0. -/
def Ending (c : Copy) : Prop :=
  flagged c.entry.value = true ∨ ∀ t ∈ c.entry.expires, t < w.now + 1000

structure Plain : Prop where
  readable : ∀ c ∈ w.shown, Readable c.ban
  once : (w.shown.map Copy.ban).Nodup
  covered : ∀ b ∈ w.scan, b ∈ w.shown.map Copy.ban ∨ ∃ c ∈ w.instances.flatten, c.ban = b
  labels : ∀ c ∈ w.shown ++ w.instances.flatten, ∀ d ∈ w.shown ++ w.instances.flatten,
    c.ban = d.ban → c.ban.service = none → label c.entry.value = label d.entry.value
  unending : ∀ c ∈ w.shown, c.entry.expires = none → flagged c.entry.value = true
  ending : ∀ c ∈ w.shown, ∀ t ∈ c.entry.expires,
    flagged c.entry.value = false ∧ w.now + 500 ≤ t
  instances : ∀ c ∈ w.instances.flatten, c.ban ∉ w.shown.map Copy.ban →
    ((∃ d ∈ w.instances.flatten, d.ban = c.ban ∧ w.Ending d) ↔ w.NoExpiry c.ban)

end World

/-! ## Rows of Redis -/

variable {now : Nat} {c : Copy} {r : Row}

theorem not_infix_address {ip : String} (hip : '_' ∉ ip.toList) :
    ¬ "_ip_".toList <:+: "_ip_".toList.tail ++ ip.toList := by
  intro h
  have hle := h.sublist.count_le '_'
  rw [List.count_append, List.count_eq_zero.mpr hip] at hle
  exact absurd hle (by decide)

theorem readGlobal_key {ip : String} (hip : '_' ∉ ip.toList) : readGlobal (globalBanKey ip) = ip := by
  have hkey : (globalBanKey ip).toList = "bans_ip_".toList ++ ip.toList := String.toList_append
  have hno : ¬ "bans_ip_".toList <:+: ip.toList := fun h => hip (h.subset (by decide))
  rw [readGlobal, hkey, removeAll_append (by decide), removeAll_eq_self hno, String.ofList_toList]

/-- The parts of a key are those of the ban if and only if the ban is readable. -/
theorem readService_key (service : String) {ip : String} (hip : '_' ∉ ip.toList) :
    readService (serviceBanKey service ip) = some (service, ip) ↔
      ¬ "bans_service_".toList <:+: (service ++ ("_ip_" ++ ip)).toList := by
  have hrest : (service ++ ("_ip_" ++ ip)).toList =
      service.toList ++ ("_ip_".toList ++ ip.toList) := by
    rw [String.toList_append, String.toList_append]
  have hkey : (serviceBanKey service ip).toList =
      "bans_service_".toList ++ (service ++ ("_ip_" ++ ip)).toList := by
    rw [toList_serviceBanKey, ← String.toList_append]
  rw [readService, hkey, removeAll_append (by decide)]
  constructor
  · intro h hinfix
    obtain ⟨parts, hparts, heq⟩ := Option.map_eq_some_iff.mp h
    obtain ⟨hservice, haddress⟩ := Prod.mk.inj heq
    have hlen := length_removeAll_lt (by decide) hinfix
    rw [eq_of_rsplit hparts, hrest, ← hservice, ← haddress] at hlen
    simp only [String.toList_ofList] at hlen
    exact Nat.lt_irrefl _ hlen
  · intro hno
    rw [removeAll_eq_self hno, hrest, rsplit_append (by decide) (not_infix_address hip)]
    simp [String.ofList_toList]

/-- What is read from a row of Redis beside its ban. -/
theorem redisRow_spec (h : redisRow now c = some r) :
    r.copy = c ∧ (r.scope = .global → r.service = label c.entry.value) ∧
      (r.exp = 0 ∨ r.permanent = true ↔ flagged c.entry.value = true ∨ redisTtl c.entry now = 0) := by
  have hexp : ∀ permanent : Bool, permanent = (flagged c.entry.value || redisTtl c.entry now = 0) →
      ((if permanent then 0 else redisTtl c.entry now) = 0 ∨ permanent = true ↔
        flagged c.entry.value = true ∨ redisTtl c.entry now = 0) := by
    rintro permanent rfl
    by_cases hflag : flagged c.entry.value = true
    · simp [hflag]
    · by_cases httl : redisTtl c.entry now = 0
      · simp [httl]
      · simp [hflag, httl]
  unfold redisRow at h
  cases hservice : c.ban.service with
  | none =>
    rw [hservice] at h
    obtain rfl := Option.some.inj h
    exact ⟨rfl, fun _ => rfl, hexp _ rfl⟩
  | some service =>
    rw [hservice] at h
    obtain ⟨parts, -, rfl⟩ := Option.map_eq_some_iff.mp h
    exact ⟨rfl, nofun, hexp _ rfl⟩

theorem redisRow_ban_iff (hip : '_' ∉ c.ban.ip.toList) (h : redisRow now c = some r) :
    r.ban = c.ban ↔ World.Readable c.ban := by
  obtain ⟨⟨ip, service⟩, entry⟩ := c
  unfold redisRow at h
  cases service with
  | none =>
    obtain rfl := Option.some.inj h
    refine iff_of_true ?_ nofun
    show Ban.mk (readGlobal (globalBanKey ip)) none = _
    rw [readGlobal_key hip]
  | some service =>
    obtain ⟨parts, hparts, rfl⟩ := Option.map_eq_some_iff.mp h
    have hkey := readService_key service hip
    rw [show readService (serviceBanKey service ip) = some parts from hparts] at hkey
    have hforall : World.Readable ⟨ip, some service⟩ ↔
        ¬ "bans_service_".toList <:+: (service ++ ("_ip_" ++ ip)).toList :=
      ⟨fun h => h service rfl, fun h _ hs => Option.some.inj hs ▸ h⟩
    rw [hforall, ← hkey]
    show Ban.mk parts.2 (some parts.1) = _ ↔ _
    rw [Ban.mk.injEq, Option.some_inj, Option.some_inj, Prod.ext_iff, and_comm]

theorem redisRow_isSome_iff : (redisRow now c).isSome ↔ World.Splits c := by
  unfold redisRow World.Splits
  cases c.ban.service with
  | none => simp
  | some service => simp

/-! ## Rows of instances -/

theorem instanceRow_service {ip service : String} {entry : Entry BanValue} :
    (instanceRow now ⟨⟨ip, some service⟩, entry⟩).ban = ⟨ip, some service⟩ ∧
      (instanceRow now ⟨⟨ip, some service⟩, entry⟩).scope = .service := by
  obtain ⟨hs, hi, hscope⟩ :=
    @listedValue_fields service ip entry.value .service (remaining entry now)
  refine ⟨?_, hscope⟩
  unfold Row.ban
  rw [show (instanceRow now ⟨⟨ip, some service⟩, entry⟩).scope = .service from hscope, if_pos rfl]
  exact congrArg₂ Ban.mk hi (congrArg some hs)

theorem instanceRow_global {ip : String} {entry : Entry BanValue}
    (hscope : (listed now ⟨⟨ip, none⟩, entry⟩).scope = .global) :
    (instanceRow now ⟨⟨ip, none⟩, entry⟩).ban = ⟨ip, none⟩ ∧
      (instanceRow now ⟨⟨ip, none⟩, entry⟩).service = label entry.value := by
  have hban : ∀ value, (listedGlobal value ip (remaining entry now)).ip = ip ∧
      (listedGlobal value ip (remaining entry now)).service = label value := by
    rintro (_ | _) <;> exact ⟨rfl, rfl⟩
  refine ⟨?_, (hban entry.value).2⟩
  unfold Row.ban
  rw [show (instanceRow now ⟨⟨ip, none⟩, entry⟩).scope = .global from hscope, if_neg nofun]
  exact congrArg₂ Ban.mk (hban entry.value).1 rfl

/-- A flagged copy is listed with a lifetime of 0. -/
theorem instanceRow_exp (w : World) (c : Copy) :
    ((instanceRow w.now c).exp = 0 ↔ w.Ending c) ∧
      ((instanceRow w.now c).permanent = true → (instanceRow w.now c).exp = 0) := by
  have hvalue : ∀ (value : BanValue) (service : String) (scope : BanScope) (exp : Nat),
      ((listedValue value c.ban.ip service scope exp).exp = 0 ↔ flagged value = true ∨ exp = 0) ∧
        (listedValue value c.ban.ip service scope exp).permanent = flagged value := by
    rintro (⟨_, _, _, _, _, permanent⟩ | _) service scope exp
    · cases permanent <;> simp [listedValue, flagged]
    · simp [listedValue, flagged]
  have hlisted : ((listed w.now c).exp = 0 ↔ flagged c.entry.value = true ∨
      remaining c.entry w.now = 0) ∧ (listed w.now c).permanent = flagged c.entry.value := by
    unfold listed
    cases c.ban.service with
    | none => cases hv : c.entry.value <;> exact hvalue _ _ _ _
    | some service => exact hvalue _ _ _ _
  have hremaining : remaining c.entry w.now = 0 ↔ ∀ t ∈ c.entry.expires, t < w.now + 1000 := by
    unfold remaining
    cases c.entry.expires with
    | none => simp
    | some t =>
      simp only [Option.mem_some_iff, forall_eq']
      omega
  have hexp : (instanceRow w.now c).exp = 0 ↔ (listed w.now c).exp = 0 := Int.natCast_eq_zero
  refine ⟨?_, fun h => ?_⟩
  · rw [hexp, hlisted.1, hremaining]
    rfl
  · rw [hexp, hlisted.1]
    exact Or.inl (hlisted.2.symm.trans h)

/-! ## All rows -/

namespace World

variable {w : World}

theorem mem_found : c ∈ w.found ↔ w.redis c.ban = some c.entry ∧ hasData c.entry.value = true := by
  obtain ⟨b, e⟩ := c
  have hscan : b ∈ w.scan.filter (·.service.isNone) ++ w.scan.filter (·.service.isSome) ↔
      (w.redis b).isSome := by
    rw [← w.mem_scan]
    cases h : b.service <;> simp [h]
  unfold found
  rw [List.mem_filterMap]
  constructor
  · rintro ⟨b', -, h⟩
    obtain ⟨e', he', heq⟩ := Option.map_eq_some_iff.mp h
    obtain ⟨rfl, rfl⟩ := Copy.mk.inj heq
    exact Option.filter_eq_some_iff.mp he'
  · rintro ⟨hredis, hdata⟩
    refine ⟨b, hscan.mpr (by rw [hredis]; rfl), ?_⟩
    rw [Option.filter_eq_some_iff.mpr ⟨hredis, hdata⟩]
    rfl

theorem redis_of_shown (h : c ∈ w.shown) : w.redis c.ban = some c.entry := by
  unfold shown at h
  split at h
  · exact (mem_found.mp h).1
  · cases h

theorem address_of_shown (h : c ∈ w.shown) : '_' ∉ c.ban.ip.toList :=
  w.address _ ((w.mem_scan _).mpr (by rw [redis_of_shown h]; rfl))

/-- The rows of Redis are those of the copies that are shown. -/
theorem redisRows_eq (w : World) : w.redisRows.map some = w.shown.map (redisRow w.now) := by
  have hmapM : ∀ l : List Copy, (∀ c ∈ l, Splits c) →
      ((l.mapM (redisRow w.now)).getD []).map some = l.map (redisRow w.now) ∧
        (l.mapM (redisRow w.now)).isSome := by
    intro l hl
    induction l with
    | nil => exact ⟨rfl, rfl⟩
    | cons c l ih =>
      obtain ⟨hc, hl⟩ := List.forall_mem_cons.mp hl
      obtain ⟨r, hr⟩ := Option.isSome_iff_exists.mp (redisRow_isSome_iff.mpr hc)
      obtain ⟨ih, hsome⟩ := ih hl
      obtain ⟨rows, hrows⟩ := Option.isSome_iff_exists.mp hsome
      rw [hrows] at ih
      rw [List.mapM_cons, hr, hrows, List.map_cons, hr, ← ih]
      exact ⟨rfl, rfl⟩
  have hnone : ∀ l : List Copy, (∃ c ∈ l, ¬ Splits c) → l.mapM (redisRow w.now) = none := by
    intro l hl
    induction l with
    | nil =>
      obtain ⟨c, hc, -⟩ := hl
      cases hc
    | cons d l ih =>
      rw [List.mapM_cons]
      by_cases hd : Splits d
      · have hrest : ∃ c ∈ l, ¬ Splits c := by
          obtain ⟨c, hc, hsplits⟩ := hl
          rcases List.mem_cons.mp hc with rfl | hc
          · exact absurd hd hsplits
          · exact ⟨c, hc, hsplits⟩
        rw [ih hrest]
        cases redisRow w.now d <;> rfl
      · have hrow : redisRow w.now d = none := by
          rw [← Option.not_isSome_iff_eq_none, redisRow_isSome_iff]
          exact hd
        rw [hrow]
        rfl
  unfold redisRows shown
  split
  next hall => exact (hmapM _ hall).1
  next hnot =>
    push Not at hnot
    rw [hnone _ hnot]
    rfl

theorem mem_redisRows : r ∈ w.redisRows ↔ ∃ c ∈ w.shown, redisRow w.now c = some r := by
  have hmem : some r ∈ w.redisRows.map some ↔ r ∈ w.redisRows := by simp
  rw [← hmem, redisRows_eq, List.mem_map]

theorem mem_getBans (h : r ∈ w.getBans) : ∃ c ∈ w.instances.flatten, instanceRow w.now c = r := by
  rcases mem_of_mem_merge h with h | h
  · cases h
  · exact List.mem_map.mp ((List.mem_insertionSort _).mp h)

theorem instanceRow_ban (hc : c ∈ w.instances.flatten) :
    (instanceRow w.now c).ban = c.ban ∧
      ((instanceRow w.now c).scope = .global → (instanceRow w.now c).service = label c.entry.value) := by
  obtain ⟨⟨ip, service⟩, entry⟩ := c
  obtain ⟨copies, hcopies, hc⟩ := List.mem_flatten.mp hc
  cases service with
  | none =>
    obtain ⟨hban, hlabel⟩ := instanceRow_global (w.scopes copies hcopies _ hc rfl)
    exact ⟨hban, fun _ => hlabel⟩
  | some service =>
    obtain ⟨hban, hscope⟩ := @instanceRow_service w.now ip service entry
    exact ⟨hban, fun h => absurd (hscope.symm.trans h) nofun⟩

/-- The list before the last loop. -/
def merged (w : World) : List Row := merge Row.key w.redisRows w.getBans

theorem finish_fields (r : Row) : (finish r).ban = r.ban ∧ (finish r).copy = r.copy ∧
    ((finish r).permanent = true ↔ r.exp = 0 ∨ r.permanent = true) := by
  unfold finish
  split
  next h => exact ⟨rfl, rfl, iff_of_true rfl h⟩
  next h => exact ⟨rfl, rfl, ⟨Or.inr, fun hor => (h hor).elim⟩⟩

theorem map_ban_collectAllBans (w : World) :
    w.collectAllBans.map Row.ban = w.merged.map Row.ban := by
  rw [collectAllBans, List.map_map]
  exact List.map_congr_left fun r _ => (finish_fields r).1

/-- The copy of a row is one that Redis shows or that an instance has. -/
theorem copy_mem (h : r ∈ w.merged) : r.copy ∈ w.shown ++ w.instances.flatten := by
  rcases mem_of_mem_merge h with h | h
  · obtain ⟨c, hc, hrow⟩ := mem_redisRows.mp h
    rw [(redisRow_spec hrow).1]
    exact List.mem_append_left _ hc
  · obtain ⟨c, hc, rfl⟩ := mem_getBans h
    exact List.mem_append_right _ hc

theorem service_of_global (h : r ∈ w.merged) (hscope : r.scope = .global) :
    r.service = label r.copy.entry.value := by
  rcases mem_of_mem_merge h with h | h
  · obtain ⟨c, hc, hrow⟩ := mem_redisRows.mp h
    rw [(redisRow_spec hrow).1]
    exact (redisRow_spec hrow).2.1 hscope
  · obtain ⟨c, hc, rfl⟩ := mem_getBans h
    exact (instanceRow_ban hc).2 hscope

/-! ## Keys and bans -/

variable {s : Row}

theorem ban_of_key (h : r.key = s.key) : r.ban = s.ban := by
  obtain ⟨hip, h⟩ := Prod.mk.inj h
  obtain ⟨hscope, hservice⟩ := Prod.mk.inj h
  rw [Row.ban, Row.ban, hip, hscope, hservice]

theorem scope_eq_global_iff : r.scope = .global ↔ r.ban.service = none := by
  unfold Row.ban
  cases r.scope <;> simp

theorem key_of_ban (h : r.ban = s.ban) (hlabel : r.scope = .global → r.service = s.service) :
    r.key = s.key := by
  have hip : r.ip = s.ip := congrArg Ban.ip h
  have hservice := congrArg Ban.service h
  have hscope : r.scope = .global ↔ s.scope = .global := by
    rw [scope_eq_global_iff, scope_eq_global_iff, hservice]
  unfold Row.key
  cases hr : r.scope with
  | global => rw [hip, hlabel hr, hscope.mp hr]
  | service =>
    have hs : s.scope = .service := by
      cases hs : s.scope with
      | service => rfl
      | global => exact absurd (hr.symm.trans (hscope.mpr hs)) nofun
    unfold Row.ban at hservice
    dsimp only at hservice
    rw [hr, hs, if_pos rfl, if_pos rfl] at hservice
    rw [hip, Option.some.inj hservice, hs]

theorem redisRows_subset (h : r ∈ w.redisRows) : r ∈ w.merged := prefix_merge.subset h

theorem row_of_shown (hc : c ∈ w.shown) :
    ∃ r ∈ w.redisRows, redisRow w.now c = some r := by
  have hrow : redisRow w.now c ∈ w.redisRows.map some := by
    rw [redisRows_eq]
    exact List.mem_map_of_mem hc
  obtain ⟨r, hr, hrow⟩ := List.mem_map.mp hrow
  exact ⟨r, hr, hrow.symm⟩

/-- Each copy has its ban in a row. -/
theorem exists_row (hreadable : ∀ c ∈ w.shown, Readable c.ban)
    (hc : c ∈ w.shown ++ w.instances.flatten) :
    ∃ r ∈ w.merged, r.ban = c.ban ∧ (r.scope = .global → r.service = label c.entry.value) := by
  rcases List.mem_append.mp hc with hc | hc
  · obtain ⟨r, hr, hrow⟩ := row_of_shown hc
    exact ⟨r, redisRows_subset hr,
      (redisRow_ban_iff (address_of_shown hc) hrow).mpr (hreadable c hc), (redisRow_spec hrow).2.1⟩
  · obtain ⟨hban, hlabel⟩ := instanceRow_ban hc
    have hsorted : instanceRow w.now c ∈
        (w.instances.flatten.map (instanceRow w.now)).insertionSort fun r s => r.exp ≤ s.exp :=
      (List.mem_insertionSort _).mpr (List.mem_map_of_mem hc)
    obtain ⟨s, hs, hkey⟩ := exists_mem_merge Row.key [] hsorted
    obtain ⟨r, hr, hkey'⟩ := exists_mem_merge Row.key w.redisRows hs
    have hkeys : r.key = (instanceRow w.now c).key := hkey'.trans hkey
    obtain ⟨-, h⟩ := Prod.mk.inj hkeys
    obtain ⟨hscope, hservice⟩ := Prod.mk.inj h
    exact ⟨r, hr, (ban_of_key hkeys).trans hban,
      fun hglobal => hservice.trans (hlabel (hscope.symm.trans hglobal))⟩

/-- The rows of the instances have the least lifetime of their key. -/
theorem exp_le_of_getBans (hr : r ∈ w.getBans) (hc : c ∈ w.instances.flatten)
    (hkey : (instanceRow w.now c).key = r.key) : r.exp ≤ (instanceRow w.now c).exp := by
  have hsorted := List.pairwise_insertionSort (fun r s : Row => r.exp ≤ s.exp)
    (w.instances.flatten.map (instanceRow w.now))
  refine le_of_mem_merge hsorted (fun b => Int.le_refl _) hr ?_ hkey
  exact (List.mem_insertionSort _).mpr (List.mem_map_of_mem hc)

/-- A row of an instance is permanent if some copy of its ban is listed with a lifetime of 0. -/
theorem permanent_iff_ending (hr : r ∈ w.getBans)
    (hlabels : ∀ c ∈ w.instances.flatten, c.ban = r.ban → r.scope = .global →
      label c.entry.value = r.service) :
    (r.exp = 0 ∨ r.permanent = true) ↔ ∃ c ∈ w.instances.flatten, c.ban = r.ban ∧ w.Ending c := by
  obtain ⟨d, hd, rfl⟩ := mem_getBans hr
  have hzero : (instanceRow w.now d).exp = 0 ∨ (instanceRow w.now d).permanent = true ↔
      (instanceRow w.now d).exp = 0 :=
    ⟨fun h => h.elim id (instanceRow_exp w d).2, Or.inl⟩
  rw [hzero]
  constructor
  · exact fun h => ⟨d, hd, (instanceRow_ban hd).1.symm, (instanceRow_exp w d).1.mp h⟩
  · rintro ⟨c, hc, hban, hending⟩
    have hkey : (instanceRow w.now c).key = (instanceRow w.now d).key := by
      have hbans := (instanceRow_ban hc).1.trans hban
      refine key_of_ban hbans fun hglobal => ?_
      have hglobal' : (instanceRow w.now d).scope = .global := by
        rwa [scope_eq_global_iff, ← hbans, ← scope_eq_global_iff]
      rw [(instanceRow_ban hc).2 hglobal, hlabels c hc hban hglobal']
    have hle := exp_le_of_getBans hr hc hkey
    rw [(instanceRow_exp w c).1.mpr hending] at hle
    exact Int.le_antisymm hle (Int.natCast_nonneg _)

/-- The permanent mark for a copy in Redis. -/
theorem redis_permanent_iff {e : Entry BanValue} {now : Nat} (hlive : e.Live now) :
    ((flagged e.value = true ∨ redisTtl e now = 0) ↔ e.expires = none) ↔
      (e.expires = none → flagged e.value = true) ∧
        ∀ t ∈ e.expires, flagged e.value = false ∧ now + 500 ≤ t := by
  obtain ⟨value, expires⟩ := e
  cases expires with
  | none => simp [redisTtl]
  | some t =>
    have hnow : now < t := Entry.live_some.mp hlive
    have httl : redisTtl ⟨value, some t⟩ now = 0 ↔ t < now + 500 := by
      simp only [redisTtl]
      omega
    simp [httl]

/-! ## The list -/

theorem noExpiry_of_shown (hc : c ∈ w.shown) :
    w.NoExpiry c.ban ↔ c.entry.expires = none := by
  rw [NoExpiry, redis_of_shown hc]

theorem live_of_shown (hc : c ∈ w.shown) : c.entry.Live w.now :=
  w.live c.ban c.entry (redis_of_shown hc)

/-- The bans that the rows of Redis show, if they are readable. -/
theorem map_ban_redisRows (hreadable : ∀ r ∈ w.redisRows, r.ban = r.copy.ban) :
    w.redisRows.map Row.ban = w.shown.map Copy.ban := by
  have hcopy : ∀ (rows : List Row) (copies : List Copy),
      rows.map some = copies.map (redisRow w.now) → rows.map Row.copy = copies := by
    intro rows
    induction rows with
    | nil =>
      intro copies h
      exact (List.map_eq_nil_iff.mp h.symm).symm
    | cons r rows ih =>
      intro copies h
      cases copies with
      | nil => cases h
      | cons c copies =>
        obtain ⟨hhead, htail⟩ := List.cons.inj h
        rw [List.map_cons, ih copies htail, (redisRow_spec hhead.symm).1]
  rw [← hcopy _ _ (redisRows_eq w), List.map_map]
  exact List.map_congr_left hreadable

/-- A row that is not read from Redis shows no ban that Redis shows, if labels agree. -/
theorem banned_elsewhere (h : Plain w) (hr : r ∈ w.merged) (hnot : r ∉ w.redisRows) :
    r ∈ w.getBans ∧ r.ban ∉ w.shown.map Copy.ban := by
  rcases mem_merge.mp hr with hmem | ⟨hkey, l₁, l₂, hl, -⟩
  · exact absurd hmem hnot
  have hget : r ∈ w.getBans := by
    rw [hl]
    exact List.mem_append_right _ List.mem_cons_self
  refine ⟨hget, fun hban => ?_⟩
  obtain ⟨d, hd, hdr⟩ := mem_getBans hget
  obtain ⟨c, hc, hcr⟩ := List.mem_map.mp hban
  obtain ⟨s, hs, hrow⟩ := row_of_shown hc
  have hsban := (redisRow_ban_iff (address_of_shown hc) hrow).mpr (h.readable c hc)
  have hdban : r.ban = d.ban := by rw [← hdr]; exact (instanceRow_ban hd).1
  refine hkey (List.mem_map.mpr ⟨s, hs, key_of_ban (hsban.trans hcr) fun hglobal => ?_⟩)
  have hnone : c.ban.service = none := by rw [← hsban, ← scope_eq_global_iff]; exact hglobal
  have hscope : r.scope = .global := by
    rw [scope_eq_global_iff, ← hcr]
    exact hnone
  rw [(redisRow_spec hrow).2.1 hglobal, service_of_global hr hscope, ← hdr]
  exact h.labels c (List.mem_append_left _ hc) d (List.mem_append_right _ hd)
    (hcr.trans hdban) hnone

theorem plain_of_exact (h : w.Exact) : w.Plain := by
  have hmerged : ∀ r ∈ w.merged, finish r ∈ w.collectAllBans := fun r hr => List.mem_map_of_mem hr
  have hshows : ∀ r ∈ w.merged, r.ban = r.copy.ban := by
    intro r hr
    obtain ⟨hban, hcopy, -⟩ := finish_fields r
    rw [← hban, ← hcopy]
    exact h.shows _ (hmerged r hr)
  have hpermanent : ∀ r ∈ w.merged, (r.exp = 0 ∨ r.permanent = true) ↔ w.NoExpiry r.ban := by
    intro r hr
    obtain ⟨hban, -, hperm⟩ := finish_fields r
    rw [← hperm, ← hban]
    exact h.permanent _ (hmerged r hr)
  have honce : (w.merged.map Row.ban).Nodup := by
    rw [← map_ban_collectAllBans]
    exact h.once
  have hreadable : ∀ c ∈ w.shown, Readable c.ban := by
    intro c hc
    obtain ⟨r, hr, hrow⟩ := row_of_shown hc
    rw [← redisRow_ban_iff (address_of_shown hc) hrow, ← (redisRow_spec hrow).1]
    exact hshows r (redisRows_subset hr)
  have hlabels : ∀ c ∈ w.shown ++ w.instances.flatten, ∀ d ∈ w.shown ++ w.instances.flatten,
      c.ban = d.ban → c.ban.service = none → label c.entry.value = label d.entry.value := by
    intro c hc d hd hban hnone
    obtain ⟨r, hr, hrban, hrlabel⟩ := exists_row hreadable hc
    obtain ⟨s, hs, hsban, hslabel⟩ := exists_row hreadable hd
    obtain rfl := List.inj_on_of_nodup_map honce hr hs (by rw [hrban, hban, hsban])
    have hglobal : r.scope = .global := by rw [scope_eq_global_iff, hrban]; exact hnone
    rw [← hrlabel hglobal, ← hslabel hglobal]
  have hredis : ∀ c ∈ w.shown, (c.entry.expires = none → flagged c.entry.value = true) ∧
      ∀ t ∈ c.entry.expires, flagged c.entry.value = false ∧ w.now + 500 ≤ t := by
    intro c hc
    obtain ⟨r, hr, hrow⟩ := row_of_shown hc
    have hban := (redisRow_ban_iff (address_of_shown hc) hrow).mpr (hreadable c hc)
    rw [← redis_permanent_iff (live_of_shown hc), ← (redisRow_spec hrow).2.2,
      hpermanent r (redisRows_subset hr), hban, noExpiry_of_shown hc]
  exact
    { readable := hreadable
      once := by
        rw [← map_ban_redisRows fun r hr => hshows r (redisRows_subset hr)]
        exact honce.sublist (prefix_merge.sublist.map _)
      covered := by
        intro b hb
        have hmem := (h.mem b).mpr (Or.inl ((w.mem_scan b).mp hb))
        rw [map_ban_collectAllBans] at hmem
        obtain ⟨r, hr, rfl⟩ := List.mem_map.mp hmem
        rw [hshows r hr]
        rcases List.mem_append.mp (copy_mem hr) with hc | hc
        · exact Or.inl (List.mem_map_of_mem hc)
        · exact Or.inr ⟨r.copy, hc, rfl⟩
      labels := hlabels
      unending := fun c hc => (hredis c hc).1
      ending := fun c hc => (hredis c hc).2
      instances := by
        intro c hc hnot
        obtain ⟨r, hr, hban, hlabel⟩ := exists_row hreadable (List.mem_append_right _ hc)
        have hget : r ∈ w.getBans := by
          rcases mem_of_mem_merge hr with hredis | hget
          · obtain ⟨d, hd, hrow⟩ := mem_redisRows.mp hredis
            refine absurd (List.mem_map.mpr ⟨d, hd, ?_⟩) hnot
            rw [← (redisRow_spec hrow).1, ← hshows r hr, hban]
          · exact hget
        rw [← hban, ← permanent_iff_ending hget fun d hd hdban hglobal => ?_, hpermanent r hr]
        rw [hlabel hglobal]
        refine hlabels d (List.mem_append_right _ hd) c (List.mem_append_right _ hc)
          (hdban.trans hban) ?_
        rw [hdban, ← scope_eq_global_iff]
        exact hglobal }

theorem exact_of_plain (h : w.Plain) : w.Exact := by
  have hshows : ∀ r ∈ w.merged, r.ban = r.copy.ban := by
    intro r hr
    rcases mem_of_mem_merge hr with hmem | hmem
    · obtain ⟨c, hc, hrow⟩ := mem_redisRows.mp hmem
      rw [(redisRow_spec hrow).1]
      exact (redisRow_ban_iff (address_of_shown hc) hrow).mpr (h.readable c hc)
    · obtain ⟨c, hc, rfl⟩ := mem_getBans hmem
      exact (instanceRow_ban hc).1
  have hlabel : ∀ r ∈ w.merged, ∀ d ∈ w.shown ++ w.instances.flatten, d.ban = r.ban →
      r.scope = .global → label d.entry.value = r.service := by
    intro r hr d hd hban hglobal
    rw [service_of_global hr hglobal]
    refine h.labels d hd r.copy (copy_mem hr) (hban.trans (hshows r hr)) ?_
    rw [hban, ← scope_eq_global_iff]
    exact hglobal
  have hkeys : (w.merged.map Row.key).Nodup := by
    refine nodup_merge (List.Nodup.of_map (fun k : String × BanScope × String =>
      Ban.mk k.1 (if k.2.1 = .service then some k.2.2 else none)) ?_)
    rw [List.map_map]
    show (w.redisRows.map Row.ban).Nodup
    rw [map_ban_redisRows fun r hr => hshows r (redisRows_subset hr)]
    exact h.once
  have hpermanent : ∀ r ∈ w.merged, (r.exp = 0 ∨ r.permanent = true) ↔ w.NoExpiry r.ban := by
    intro r hr
    by_cases hmem : r ∈ w.redisRows
    · obtain ⟨c, hc, hrow⟩ := mem_redisRows.mp hmem
      rw [hshows r hr, (redisRow_spec hrow).1, noExpiry_of_shown hc, (redisRow_spec hrow).2.2,
        redis_permanent_iff (live_of_shown hc)]
      exact ⟨h.unending c hc, h.ending c hc⟩
    · obtain ⟨hget, hnot⟩ := banned_elsewhere h hr hmem
      obtain ⟨c, hc, hcr⟩ := mem_getBans hget
      have hban : r.ban = c.ban := by rw [← hcr]; exact (instanceRow_ban hc).1
      rw [permanent_iff_ending hget fun d hd => hlabel r hr d (List.mem_append_right _ hd), hban]
      exact h.instances c hc (hban ▸ hnot)
  constructor
  · intro r hr
    obtain ⟨s, hs, rfl⟩ := List.mem_map.mp hr
    obtain ⟨hban, hcopy, -⟩ := finish_fields s
    rw [hban, hcopy]
    exact hshows s hs
  · intro b
    rw [map_ban_collectAllBans]
    constructor
    · intro hmem
      obtain ⟨r, hr, rfl⟩ := List.mem_map.mp hmem
      rw [hshows r hr]
      rcases List.mem_append.mp (copy_mem hr) with hc | hc
      · exact Or.inl (by rw [redis_of_shown hc]; rfl)
      · exact Or.inr ⟨r.copy, hc, rfl⟩
    · intro hbanned
      have hcopy : ∃ c ∈ w.shown ++ w.instances.flatten, c.ban = b := by
        rcases hbanned with hredis | ⟨c, hc, hcb⟩
        · rcases h.covered b ((w.mem_scan b).mpr hredis) with hmem | ⟨c, hc, hcb⟩
          · obtain ⟨c, hc, hcb⟩ := List.mem_map.mp hmem
            exact ⟨c, List.mem_append_left _ hc, hcb⟩
          · exact ⟨c, List.mem_append_right _ hc, hcb⟩
        · exact ⟨c, List.mem_append_right _ hc, hcb⟩
      obtain ⟨c, hc, rfl⟩ := hcopy
      obtain ⟨r, hr, hban, -⟩ := exists_row h.readable hc
      exact List.mem_map.mpr ⟨r, hr, hban⟩
  · rw [map_ban_collectAllBans]
    refine (List.Nodup.of_map _ hkeys).map_on fun r hr s hs hban => ?_
    refine List.inj_on_of_nodup_map hkeys hr hs (key_of_ban hban fun hglobal => ?_)
    rw [service_of_global hr hglobal]
    refine hlabel s hs r.copy (copy_mem hr) ((hshows r hr).symm.trans hban) ?_
    rwa [scope_eq_global_iff, ← hban, ← scope_eq_global_iff]
  · intro r hr
    obtain ⟨s, hs, rfl⟩ := List.mem_map.mp hr
    obtain ⟨hban, -, hperm⟩ := finish_fields s
    rw [hban, hperm]
    exact hpermanent s hs

/-- The list of bans is right if and only if the bans are plain. -/
theorem exact_iff_plain (w : World) : w.Exact ↔ w.Plain := ⟨plain_of_exact, exact_of_plain⟩

/-- A global ban in Redis and on an instance, written for two services. -/
def twoLabels : World where
  now := 0
  redis b := if b = ⟨"192.0.2.1", none⟩ then
    some ⟨.data "bad behavior" "app1.example.com" 0 "FR" .global false, some 60000⟩ else none
  scan := [⟨"192.0.2.1", none⟩]
  mem_scan b := by
    rw [List.mem_singleton]
    split <;> simp_all
  live b := by
    split
    · intro e he
      obtain rfl := Option.some.inj he
      decide
    · nofun
  address := by decide
  instances := [[⟨⟨"192.0.2.1", none⟩,
    ⟨.data "bad behavior" "app2.example.com" 0 "FR" .global false, some 60000⟩⟩]]
  scopes := by decide

/-- Such a ban is listed twice. -/
theorem global_ban_listed_twice : ¬ twoLabels.Exact := by
  intro h
  have hlabels := (plain_of_exact h).labels
  exact absurd hlabels (by decide)

end World

end BunkerWeb.Ui.BanList
