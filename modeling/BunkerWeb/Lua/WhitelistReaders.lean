import BunkerWeb.Lua.Whitelist

/-!
# One whitelist, two readers

`is_ip_whitelisted` exempts an address from bans by what the init phase has left in the internal
store: the downloaded lists without the settings `WHITELIST_IP`. The access check of the plugin
reads both. `readers_agree_iff` says for which service and address they come to the same verdict.
-/

namespace BunkerWeb.Lua.Whitelist

open Lib

/-- Every text of the list can be read as an entry. -/
def IpMatcher.Readable (m : IpMatcher) (list : List String) : Prop := ∀ e ∈ list, m.entry e = true

/-- An entry of the list covers the address. -/
def IpMatcher.Covers (m : IpMatcher) (list : List String) (addr : String) : Prop :=
  ∃ e ∈ list, m.covers e addr = true

instance (m : IpMatcher) (list : List String) : Decidable (m.Readable list) :=
  inferInstanceAs (Decidable (∀ _ ∈ _, _))

instance (m : IpMatcher) (list : List String) (addr : String) : Decidable (m.Covers list addr) :=
  inferInstanceAs (Decidable (∃ _ ∈ _, _))

namespace World

variable (w : World)

/-- The entries that were downloaded for the service. -/
def downloaded (server : String) : List String := ((w.files server .ip).getD []).filter (· ≠ "")

/-- The entries of the setting of the service. -/
def configured (server : String) : List String := gmatchWords (w.setting server "WHITELIST_IP")

/-- The service is configured, and not the placeholder for the default server. -/
structure IsService (server : String) : Prop where
  configured : server ∈ gmatchWords w.vars.serverName
  notDefault : server ≠ "_"

/-- The downloaded list of the service covers the address. -/
structure Listed (server addr : String) : Prop where
  loaded : w.initNeeded = true
  readable : w.matcher.Readable (w.downloaded server)
  address : w.matcher.address addr = true
  covered : w.matcher.Covers (w.downloaded server) addr

/-- The setting of the service covers the address, and the service uses the whitelist. -/
structure Configured (server addr : String) : Prop where
  needed : w.needed server = true
  readable : w.matcher.Readable (w.configured server)
  address : w.matcher.address addr = true
  covered : w.matcher.Covers (w.configured server) addr

/-- The verdict that the cache or the downloaded list of the service has for the address. -/
def Accepts (server addr : String) (info : Info) : Prop :=
  (w.cache server addr = some info ∧ info ≠ .ok) ∨
    (w.cache server addr = none ∧ w.Listed server addr ∧ info = .ip)

/-- The first of all services that accepts the address does so by a list, or none does and the
global setting covers it. -/
def Elsewhere (addr : String) : Prop :=
  (∃ before server after, gmatchWords w.vars.serverName = before ++ server :: after ∧
      w.Accepts server addr .ip ∧ ∀ s ∈ before, ∀ info, ¬ w.Accepts s addr info) ∨
    (∀ s ∈ gmatchWords w.vars.serverName, ∀ info, ¬ w.Accepts s addr info) ∧
      w.matcher.Readable (gmatchWords ((w.vars.global.lookup "WHITELIST_IP").getD "")) ∧
      w.matcher.address addr = true ∧
      w.matcher.Covers (gmatchWords ((w.vars.global.lookup "WHITELIST_IP").getD "")) addr

/-- The lists of the service are loaded and can be read. -/
def Answers (server addr : String) : Prop :=
  w.initNeeded = true ∧ (w.downloaded server = [] ∨
    (w.matcher.Readable (w.downloaded server) ∧ w.matcher.address addr = true))

/-- Both readers accept the address by a list, or neither does. -/
def ReadersAgree (server addr : String) : Prop :=
  w.access server addr = some .ip ↔ w.isIpWhitelisted addr server = some (true, .ip)

/-- A cached verdict is one of a service that uses the whitelist. Without one: where the lists of
the service can be read, an address of its downloaded list is accepted by the plugin too, and
another one is not in its setting; where they cannot, the address is in no other list. -/
def SameVerdict (server addr : String) : Prop :=
  (w.cache server addr = some .ip → w.needed server = true) ∧
    (w.cache server addr = none → w.Answers server addr →
      (w.Listed server addr → w.needed server = true ∧ w.matcher.Readable (w.configured server)) ∧
      (w.Configured server addr → w.Listed server addr)) ∧
    (w.cache server addr = none → ¬ w.Answers server addr → ¬ w.Elsewhere addr)

section

variable {w} {server addr : String}

theorem mem_deduplicateList {list : List String} {e : String} :
    e ∈ deduplicateList list ↔ e ∈ list := by
  obtain ⟨new, hnew, hfirst⟩ := place_eq (fun _ => true) [] list
  rw [deduplicateList, hnew, List.nil_append, hfirst.mem]
  simp

theorem matchList_eq_true {m : IpMatcher} {list : List String} :
    m.matchList list addr = some true ↔
      m.Readable list ∧ m.address addr = true ∧ m.Covers list addr := by
  unfold IpMatcher.matchList IpMatcher.Readable IpMatcher.Covers
  by_cases h : (list.all m.entry && m.address addr) = true
  · rw [if_pos h, Option.some.injEq, List.any_eq_true]
    rw [Bool.and_eq_true, List.all_eq_true] at h
    exact ⟨fun hany => ⟨h.1, h.2, hany⟩, fun hall => hall.2.2⟩
  · rw [if_neg h]
    rw [Bool.and_eq_true, List.all_eq_true] at h
    refine iff_of_false (by simp) fun hall => h ⟨hall.1, hall.2.1⟩

theorem matchList_eq_none {m : IpMatcher} {list : List String} :
    m.matchList list addr = none ↔ ¬ (m.Readable list ∧ m.address addr = true) := by
  unfold IpMatcher.matchList IpMatcher.Readable
  simp

/-- The order and the repetitions of a list do not matter. -/
theorem matchList_deduplicateList {m : IpMatcher} {list : List String} :
    m.matchList (deduplicateList list) addr = m.matchList list addr := by
  unfold IpMatcher.matchList
  have hall : (deduplicateList list).all m.entry = list.all m.entry := by
    rw [Bool.eq_iff_iff, List.all_eq_true, List.all_eq_true]
    exact forall_congr' fun e => imp_congr_left mem_deduplicateList
  have hany : ((deduplicateList list).any fun e => m.covers e addr) =
      list.any fun e => m.covers e addr := by
    rw [Bool.eq_iff_iff, List.any_eq_true, List.any_eq_true]
    exact exists_congr fun e => and_congr_left' mem_deduplicateList
  rw [hall, hany]

theorem deduplicateList_eq_nil {list : List String} : deduplicateList list = [] ↔ list = [] := by
  simp only [List.eq_nil_iff_forall_not_mem, mem_deduplicateList]

/-! ## The lists -/

theorem ne_empty_of_mem_gmatchWords {text word : String} (h : word ∈ gmatchWords text) :
    word ≠ "" := by
  obtain ⟨chars, hchars, rfl⟩ := List.mem_map.mp h
  intro he
  apply ne_nil_of_mem_fields hchars
  have h' := congrArg String.toList he
  rwa [String.toList_ofList] at h'

theorem stored_of_mem (h : server ∈ gmatchWords w.vars.serverName) :
    w.stored server = if w.initNeeded then some fun kind =>
      deduplicateList (((w.files server kind).getD []).filter (· ≠ "")) else none := by
  unfold stored
  simp [h]

/-- A service that uses the whitelist has had its lists loaded. -/
theorem initNeeded_of_needed (h : w.IsService server) (hneeded : w.needed server = true) :
    w.initNeeded = true := by
  unfold needed at hneeded
  obtain ⟨hloading, huse⟩ := Bool.and_eq_true_iff.mp hneeded
  refine Bool.and_eq_true_iff.mpr ⟨hloading, ?_⟩
  rw [if_pos h.notDefault, beq_iff_eq] at huse
  rw [Variables.hasVariable_iff]
  have hvalue : w.vars.getVariable (some server) "USE_WHITELIST" = some "yes" := by
    unfold setting at huse
    cases hv : w.vars.getVariable (some server) "USE_WHITELIST" with
    | none =>
      rw [hv] at huse
      exact absurd huse (by decide)
    | some v =>
      rw [hv] at huse
      exact congrArg some huse
  by_cases hper : w.vars.PerService
  · refine ⟨_, ?_, rfl⟩
    rw [Variables.values, if_pos hper]
    refine List.mem_map.mpr ⟨server, h.configured, ?_⟩
    obtain ⟨names, hnames, hsites⟩ := w.vars.servers (by simpa [Variables.multisite] using hper.1)
    have hsite : (w.vars.site server).isSome := hsites server (by
      have hmem := h.configured
      rwa [Variables.serverName, hnames, Option.getD_some] at hmem)
    obtain ⟨table, htable⟩ := Option.isSome_iff_exists.mp hsite
    rw [Variables.getVariable, if_pos hper.1, htable] at hvalue
    rw [Variables.get, htable]
    exact hvalue
  · refine ⟨_, ?_, rfl⟩
    have hmulti : ¬ w.vars.multisite = true := fun hm => hper ⟨hm, fun hempty => by
      have hmem := h.configured
      rw [hempty] at hmem
      cases hmem⟩
    rw [Variables.values, if_neg hper, List.mem_singleton]
    rw [Variables.getVariable, if_neg hmulti] at hvalue
    exact hvalue.symm

theorem mem_lists (h : w.IsService server) (hneeded : w.needed server = true) {e : String} :
    e ∈ w.lists server .ip ↔ e ∈ w.downloaded server ∨ e ∈ w.configured server := by
  rw [lists, mem_deduplicateList, List.mem_append, stored_of_mem h.configured,
    if_pos (initNeeded_of_needed h hneeded), Option.map_some, Option.getD_some,
    mem_deduplicateList]
  rfl

/-! ## The plugin -/

/-- The searches after the lists never say that the address is in a list. -/
theorem isWhitelistedIp_eq_ip :
    w.isWhitelistedIp server addr = some .ip ↔
      w.matcher.matchList (w.lists server .ip) addr = some true := by
  unfold isWhitelistedIp
  split
  next hnone => simp [hnone]
  next htrue => simp [htrue]
  next hfalse =>
    rw [hfalse]
    refine iff_of_false ?_ (by simp)
    dsimp only
    split
    · simp
    · split <;> simp

theorem access_eq_ip (h : w.IsService server) :
    w.access server addr = some .ip ↔ w.needed server = true ∧
      (w.cache server addr = some .ip ∨ (w.cache server addr = none ∧
        w.matcher.Readable (w.downloaded server) ∧ w.matcher.Readable (w.configured server) ∧
        w.matcher.address addr = true ∧ (w.matcher.Covers (w.downloaded server) addr ∨
          w.matcher.Covers (w.configured server) addr))) := by
  unfold access
  by_cases hneeded : w.needed server = true
  · rw [if_pos hneeded, and_iff_right hneeded]
    cases hcache : w.cache server addr with
    | some info => cases info <;> simp
    | none =>
      have hlist : w.isWhitelistedIp server addr = some .ip ↔
          w.matcher.Readable (w.downloaded server) ∧ w.matcher.Readable (w.configured server) ∧
          w.matcher.address addr = true ∧ (w.matcher.Covers (w.downloaded server) addr ∨
            w.matcher.Covers (w.configured server) addr) := by
        rw [isWhitelistedIp_eq_ip, matchList_eq_true]
        unfold IpMatcher.Readable IpMatcher.Covers
        simp only [mem_lists h hneeded, or_imp, forall_and, or_and_right, exists_or, and_assoc]
      rw [← hlist]
      cases w.isWhitelistedIp server addr with
      | none => simp
      | some info => cases info <;> simp
  · rw [if_neg hneeded]
    simp [hneeded]

/-! ## The helper -/

/-- What the helper finds for a service, from the cached verdict or the downloaded list. -/
theorem checkService_of_cache {info : Info} (h : server ∈ gmatchWords w.vars.serverName)
    (hcache : w.cache server addr = some info) :
    w.checkService addr server = some (decide (info ≠ .ok), info) := by
  unfold checkService
  rw [if_neg (ne_empty_of_mem_gmatchWords h), hcache]

theorem checkService_of_not_loaded (h : server ∈ gmatchWords w.vars.serverName)
    (hcache : w.cache server addr = none) (hinit : ¬ w.initNeeded = true) :
    w.checkService addr server = none := by
  unfold checkService
  rw [if_neg (ne_empty_of_mem_gmatchWords h), hcache, stored_of_mem h, if_neg hinit]

theorem checkService_of_loaded (h : server ∈ gmatchWords w.vars.serverName)
    (hcache : w.cache server addr = none) (hinit : w.initNeeded = true) :
    w.checkService addr server = if w.downloaded server = [] then some (false, .ok) else
      (w.matcher.matchList (w.downloaded server) addr).map fun found =>
        if found then (true, .ip) else (false, .ok) := by
  unfold checkService
  rw [if_neg (ne_empty_of_mem_gmatchWords h), hcache, stored_of_mem h, if_pos hinit]
  have hlists : ((w.files server .ip).getD []).filter (· ≠ "") = w.downloaded server := rfl
  simp only [deduplicateList_eq_nil, matchList_deduplicateList, hlists]
  congr 1
  cases w.matcher.matchList (w.downloaded server) addr with
  | none => rfl
  | some found => cases found <;> rfl

theorem Listed.answers (h : w.Listed server addr) : w.Answers server addr :=
  ⟨h.loaded, .inr ⟨h.readable, h.address⟩⟩

/-- A service that does not answer leaves the question to the others. -/
theorem checkService_eq_none (h : server ∈ gmatchWords w.vars.serverName)
    (hcache : w.cache server addr = none) :
    w.checkService addr server = none ↔ ¬ w.Answers server addr := by
  by_cases hinit : w.initNeeded = true
  · rw [checkService_of_loaded h hcache hinit]
    by_cases hempty : w.downloaded server = []
    · simp [Answers, hinit, hempty]
    · rw [if_neg hempty, Option.map_eq_none_iff, matchList_eq_none]
      simp [Answers, hinit, hempty]
  · rw [checkService_of_not_loaded h hcache hinit]
    exact iff_of_true rfl fun ha => hinit ha.1

theorem checkService_accepts {info : Info} (h : server ∈ gmatchWords w.vars.serverName) :
    w.checkService addr server = some (true, info) ↔ w.Accepts server addr info := by
  cases hcache : w.cache server addr with
  | some cached =>
    rw [checkService_of_cache h hcache]
    simp only [Accepts, hcache, Option.some.injEq, Prod.mk.injEq, decide_eq_true_eq, reduceCtorEq,
      false_and, or_false]
    constructor
    · rintro ⟨hne, rfl⟩
      exact ⟨rfl, hne⟩
    · rintro ⟨rfl, hne⟩
      exact ⟨hne, rfl⟩
  | none =>
    simp only [Accepts, hcache, reduceCtorEq, false_and, false_or, true_and]
    by_cases hinit : w.initNeeded = true
    · rw [checkService_of_loaded h hcache hinit]
      by_cases hempty : w.downloaded server = []
      · rw [if_pos hempty]
        refine iff_of_false (by simp) fun ⟨hlisted, _⟩ => ?_
        obtain ⟨e, he, _⟩ := hlisted.covered
        rw [hempty] at he
        cases he
      · rw [if_neg hempty, Option.map_eq_some_iff]
        constructor
        · rintro ⟨found, hfound, hinfo⟩
          cases found with
          | false => simp at hinfo
          | true =>
            obtain ⟨hreadable, haddress, hcovered⟩ := matchList_eq_true.mp hfound
            exact ⟨⟨hinit, hreadable, haddress, hcovered⟩, by simpa using hinfo.symm⟩
        · rintro ⟨hlisted, rfl⟩
          exact ⟨true, matchList_eq_true.mpr ⟨hlisted.readable, hlisted.address, hlisted.covered⟩,
            rfl⟩
    · rw [checkService_of_not_loaded h hcache hinit]
      exact iff_of_false (by simp) fun ⟨hlisted, _⟩ => hinit hlisted.loaded

/-- One step of the search over all services. -/
theorem checkService_filter {verdict : Bool × Info} (h : server ∈ gmatchWords w.vars.serverName) :
    (w.checkService addr server).filter (·.1) = some verdict ↔
      verdict.1 = true ∧ w.Accepts server addr verdict.2 := by
  rw [Option.filter_eq_some_iff, ← checkService_accepts h, and_comm]
  refine and_congr_right fun hv => ?_
  rw [← hv]

theorem checkService_filter_none (h : server ∈ gmatchWords w.vars.serverName) :
    (w.checkService addr server).filter (·.1) = none ↔ ∀ info, ¬ w.Accepts server addr info := by
  rw [Option.eq_none_iff_forall_ne_some]
  constructor
  · intro hnone info haccepts
    exact hnone (true, info) ((checkService_filter h).mpr ⟨rfl, haccepts⟩)
  · intro hno verdict hverdict
    exact hno _ ((checkService_filter h).mp hverdict).2

theorem fallback_eq_ip : w.fallback addr = some (true, .ip) ↔ w.Elsewhere addr := by
  unfold fallback Elsewhere
  have hfirst : ∀ info, ((gmatchWords w.vars.serverName).findSome? fun server =>
      (w.checkService addr server).filter (·.1)) = some (true, info) ↔
      ∃ before server after, gmatchWords w.vars.serverName = before ++ server :: after ∧
        w.Accepts server addr info ∧ ∀ s ∈ before, ∀ info, ¬ w.Accepts s addr info := by
    intro info
    rw [List.findSome?_eq_some_iff]
    refine exists_congr fun before => exists_congr fun server => exists_congr fun after =>
      and_congr_right fun hsplit => ?_
    have hmem : ∀ s ∈ before ++ server :: after, s ∈ gmatchWords w.vars.serverName :=
      fun s hs => hsplit ▸ hs
    rw [checkService_filter (hmem server (by simp))]
    refine and_congr (and_iff_right rfl) (forall₂_congr fun s hs => ?_)
    rw [checkService_filter_none (hmem s (List.mem_append_left _ hs))]
  have hnone : ((gmatchWords w.vars.serverName).findSome? fun server =>
      (w.checkService addr server).filter (·.1)) = none ↔
      ∀ s ∈ gmatchWords w.vars.serverName, ∀ info, ¬ w.Accepts s addr info := by
    rw [List.findSome?_eq_none_iff]
    exact forall₂_congr fun s hs => checkService_filter_none hs
  cases haccepted : (gmatchWords w.vars.serverName).findSome? fun server =>
      (w.checkService addr server).filter (·.1) with
  | some verdict =>
    have hverdict : verdict.1 = true := by
      obtain ⟨server, _, hserver⟩ := List.exists_of_findSome?_eq_some haccepted
      exact (Option.filter_eq_some_iff.mp hserver).2
    have hnot : ¬ ∀ s ∈ gmatchWords w.vars.serverName, ∀ info, ¬ w.Accepts s addr info := by
      rw [← hnone, haccepted]
      simp
    rw [← hfirst .ip, haccepted]
    simp [hnot]
  | none =>
    have hno := hnone.mp haccepted
    rw [← hfirst .ip, haccepted, and_iff_right hno]
    dsimp only
    rw [← matchList_eq_true]
    by_cases hempty : gmatchWords ((w.vars.global.lookup "WHITELIST_IP").getD "") = []
    · simp [hempty, IpMatcher.matchList]
    · rw [if_neg hempty]
      cases w.matcher.matchList (gmatchWords ((w.vars.global.lookup "WHITELIST_IP").getD ""))
        addr with
      | none => simp
      | some found => cases found <;> simp

theorem isIpWhitelisted_eq_ip (h : w.IsService server) :
    w.isIpWhitelisted addr server = some (true, .ip) ↔
      w.cache server addr = some .ip ∨ (w.cache server addr = none ∧
        (w.Listed server addr ∨ ¬ w.Answers server addr ∧ w.Elsewhere addr)) := by
  unfold isIpWhitelisted
  rw [if_pos ⟨ne_empty_of_mem_gmatchWords h.configured, h.notDefault⟩]
  have haccepts : w.checkService addr server = some (true, .ip) ↔ w.Accepts server addr .ip :=
    checkService_accepts h.configured
  cases hcheck : w.checkService addr server with
  | some verdict =>
    show some verdict = some (true, .ip) ↔ _
    rw [← hcheck, haccepts]
    cases hcache : w.cache server addr with
    | some info => simp +contextual [Accepts, hcache]
    | none =>
      have hanswers : w.Answers server addr := by
        by_contra hno
        rw [(checkService_eq_none h.configured hcache).mpr hno] at hcheck
        cases hcheck
      simp [Accepts, hcache, hanswers]
  | none =>
    show w.fallback addr = some (true, .ip) ↔ _
    cases hcache : w.cache server addr with
    | some info =>
      rw [checkService_of_cache h.configured hcache] at hcheck
      cases hcheck
    | none =>
      have hno := (checkService_eq_none h.configured hcache).mp hcheck
      have hlisted : ¬ w.Listed server addr := fun hl => hno hl.answers
      simp [fallback_eq_ip, hno, hlisted]

end

/-! ## The two verdicts -/

/-- **One whitelist.** Both readers accept an address by a list for the same services and addresses
exactly where the verdict is the same from what each of them reads. -/
theorem readers_agree_iff (server addr : String) (h : w.IsService server) :
    w.ReadersAgree server addr ↔ w.SameVerdict server addr := by
  unfold ReadersAgree SameVerdict
  rw [access_eq_ip h, isIpWhitelisted_eq_ip h]
  cases hcache : w.cache server addr with
  | some info =>
    simp only [Option.some.injEq, reduceCtorEq, false_and, or_false, false_implies, and_true]
    constructor
    · exact fun hagree hip => (hagree.mpr hip).1
    · exact fun hneeded => ⟨And.right, fun hip => ⟨hneeded hip, hip⟩⟩
  | none =>
    simp only [reduceCtorEq, false_or, true_and, false_implies, forall_const]
    by_cases hanswers : w.Answers server addr
    · simp only [hanswers, not_true, false_and, or_false, forall_const, false_implies, and_true]
      constructor
      · intro hagree
        constructor
        · intro hlisted
          obtain ⟨hneeded, _, hconf, _⟩ := hagree.mpr hlisted
          exact ⟨hneeded, hconf⟩
        · intro hconf
          apply hagree.mp
          refine ⟨hconf.needed, ?_, hconf.readable, hconf.address, .inr hconf.covered⟩
          obtain hempty | ⟨hreadable, _⟩ := hanswers.2
          · rw [hempty]
            exact fun e he => nomatch he
          · exact hreadable
      · rintro ⟨hlisted, hconf⟩
        constructor
        · rintro ⟨hneeded, hdown, hreadable, haddress, hcovered | hcovered⟩
          · exact ⟨hanswers.1, hdown, haddress, hcovered⟩
          · exact hconf ⟨hneeded, hreadable, haddress, hcovered⟩
        · intro hl
          obtain ⟨hneeded, hreadable⟩ := hlisted hl
          exact ⟨hneeded, hl.readable, hreadable, hl.address, .inl hl.covered⟩
    · have hlisted : ¬ w.Listed server addr := fun hl => hanswers hl.answers
      simp only [hanswers, hlisted, not_false_eq_true, true_and, false_or, false_implies,
        forall_const]
      -- Without lists that can be read the plugin finds an error, so it never accepts.
      have hno : ¬ (w.needed server = true ∧ w.matcher.Readable (w.downloaded server) ∧
          w.matcher.Readable (w.configured server) ∧ w.matcher.address addr = true ∧
            (w.matcher.Covers (w.downloaded server) addr ∨
              w.matcher.Covers (w.configured server) addr)) :=
        fun ⟨hneeded, hdown, _, haddress, _⟩ =>
          hanswers ⟨initNeeded_of_needed h hneeded, .inr ⟨hdown, haddress⟩⟩
      rw [iff_false_left hno]

/-- An address in the setting of the service, without downloaded lists: the plugin accepts it and
the helper does not. -/
def settingOnly : World where
  matcher := ⟨fun _ => true, fun _ => true, fun e addr => e == addr⟩
  vars := {
    global := Dict.ofItems [("MULTISITE", "no"), ("SERVER_NAME", "www"), ("USE_WHITELIST", "yes"),
      ("WHITELIST_IP", "192.0.2.7")]
    site := fun _ => none
    servers := fun h => absurd h (by decide) }
  files := fun _ _ => none
  cache := fun _ _ => none
  ipIsGlobal := fun _ => true
  getRdns := fun _ => none
  getIps := fun _ => none
  getAsn := fun _ => none

theorem setting_not_exempt :
    settingOnly.IsService "www" ∧ ¬ settingOnly.ReadersAgree "www" "192.0.2.7" := by
  refine ⟨⟨by decide, by decide⟩, ?_⟩
  unfold ReadersAgree
  decide

theorem readers_agree_settingOnly :
    settingOnly.ReadersAgree "www" "192.0.2.8" ↔ settingOnly.SameVerdict "www" "192.0.2.8" :=
  settingOnly.readers_agree_iff "www" "192.0.2.8" ⟨by decide, by decide⟩

end World

end BunkerWeb.Lua.Whitelist
