import BunkerWeb.Lib.Fields
import BunkerWeb.Lib.Numerals
import Mathlib.Algebra.Group.Nat.Defs

/-!
# The text of a client's address

`ngx.var.remote_addr` is what `ngx_sock_ntop` and `ngx_inet6_ntop` of nginx (`core/ngx_inet.c`)
write for the address of the connection: four decimal octets, or the groups of an IPv6 address in
hexadecimal with the longest run of zero groups left out. Groups are counted in sixteen bits here
and in bytes there.
-/

namespace BunkerWeb.Lua

open Lib Lib.Numerals

inductive Address where
  | ipv4 (a b c d : Fin 256)
  | ipv6 (groups : List (Fin 65536)) (length : groups.length = 8)
  deriving DecidableEq

namespace Address

/-- `"%ud.%ud.%ud.%ud"`. -/
def dotted (a b c d : Nat) : List Char :=
  Nat.toDigits 10 a ++ '.' :: (Nat.toDigits 10 b ++ '.' :: (Nat.toDigits 10 c ++ '.' ::
    Nat.toDigits 10 d))

/-- The variables of the first loop of `ngx_inet6_ntop`; `zero` is `none` for its `-1`. -/
structure ZeroRun where
  zero : Option Nat
  last : Nat
  max : Nat
  n : Nat

/-- `if (max < n) { zero = last; max = n; }`, and `n = 0`. -/
def ZeroRun.close (s : ZeroRun) : ZeroRun :=
  if s.max < s.n then { s with zero := some s.last, max := s.n, n := 0 } else { s with n := 0 }

/-- The body of the loop at the group of index `i`. -/
def ZeroRun.step (s : ZeroRun) (i group : Nat) : ZeroRun :=
  if group ≠ 0 then s.close
  else { s with last := if s.n = 0 then i else s.last, n := s.n + 1 }

def scanZeros (s : ZeroRun) (i : Nat) : List Nat → ZeroRun
  | [] => s.close
  | group :: groups => scanZeros (s.step i group) (i + 1) groups

/-- The run of zero groups that is left out. -/
def zeroRun (groups : List Nat) : ZeroRun := scanZeros ⟨none, 0, 1, 0⟩ 0 groups

/-- The second loop, at the group of index `i`; `skip` groups of the run are still to be passed. -/
def groupsText (run : ZeroRun) (i : Nat) : Nat → List Nat → List Char
  | _, [] => []
  | skip + 1, _ :: groups => groupsText run (i + 1) skip groups
  | 0, group :: groups =>
    if run.zero = some i then ':' :: groupsText run (i + 1) (run.max - 1) groups
    else Nat.toDigits 16 group ++ (if i < 7 then [':'] else []) ++ groupsText run (i + 1) 0 groups

/-- The last two groups are written as octets (`n = 12`). -/
def endsDotted (run : ZeroRun) (groups : List Nat) : Bool :=
  let group (i : Nat) : Nat := groups[i]?.getD 0
  decide (run.zero = some 0) &&
    (decide (run.max = 5 ∧ group 5 = 0xffff) || decide (run.max = 6) ||
      decide (run.max = 7 ∧ group 7 / 256 ≠ 0 ∧ group 7 % 256 ≠ 1))

/-- `ngx_inet6_ntop`. -/
def ipv6Text (groups : List Nat) : List Char :=
  let run := zeroRun groups
  let group (i : Nat) : Nat := groups[i]?.getD 0
  let front : List Char := if run.zero = some 0 then [':'] else []
  if endsDotted run groups then
    front ++ groupsText run 0 0 (groups.take 6) ++
      dotted (group 6 / 256) (group 6 % 256) (group 7 / 256) (group 7 % 256)
  else front ++ groupsText run 0 0 groups

/-- `ngx_sock_ntop` without the port. -/
def chars : Address → List Char
  | ipv4 a b c d => dotted a b c d
  | ipv6 groups _ => ipv6Text (groups.map Fin.val)

def text (a : Address) : String := String.ofList a.chars

@[simp] theorem toList_text (a : Address) : a.text.toList = a.chars := String.toList_ofList

example : (ipv6 [0x2001, 0xdb8, 0, 0, 1, 0, 0, 0] rfl).chars = "2001:db8:0:0:1::".toList := by
  decide

example : (ipv6 [0, 0, 0, 0, 0, 0xffff, 0x0a00, 1] rfl).chars = "::ffff:10.0.0.1".toList := by
  decide

/-! ## The characters -/

/-- What an address is made of. -/
def IsAddressChar (c : Char) : Prop := IsDigit 16 c ∨ c = ':' ∨ c = '.'

instance (c : Char) : Decidable (IsAddressChar c) := inferInstanceAs (Decidable (_ ∨ _))

theorem isDigit_or_dot_of_mem_dotted {a b c d : Nat} {x : Char} (h : x ∈ dotted a b c d) :
    IsDigit 10 x ∨ x = '.' := by
  simp only [dotted, List.mem_append, List.mem_cons] at h
  rcases h with h | rfl | h | rfl | h | rfl | h
  · exact .inl (isDigit_of_mem (by decide) h)
  · exact .inr rfl
  · exact .inl (isDigit_of_mem (by decide) h)
  · exact .inr rfl
  · exact .inl (isDigit_of_mem (by decide) h)
  · exact .inr rfl
  · exact .inl (isDigit_of_mem (by decide) h)

theorem isAddressChar_of_mem_dotted {a b c d : Nat} {x : Char} (h : x ∈ dotted a b c d) :
    IsAddressChar x := by
  rcases isDigit_or_dot_of_mem_dotted h with h | rfl
  · exact .inl (h.mono (by decide))
  · exact .inr (.inr rfl)

theorem isAddressChar_of_mem_groupsText {run : ZeroRun} {i skip : Nat} {groups : List Nat}
    {x : Char} (h : x ∈ groupsText run i skip groups) : IsAddressChar x := by
  induction groups generalizing i skip with
  | nil => simp [groupsText] at h
  | cons group groups ih =>
    cases skip with
    | succ skip => exact ih h
    | zero =>
      rw [groupsText] at h
      split at h
      · rcases List.mem_cons.mp h with rfl | h
        · exact .inr (.inl rfl)
        · exact ih h
      · rcases List.mem_append.mp h with h | h
        · rcases List.mem_append.mp h with h | h
          · exact .inl (isDigit_of_mem (by decide) h)
          · split at h
            · exact .inr (.inl (List.mem_singleton.mp h))
            · cases h
        · exact ih h

theorem isAddressChar_of_mem (a : Address) {x : Char} (h : x ∈ a.chars) : IsAddressChar x := by
  have hfront {p : Prop} [Decidable p] (h : x ∈ if p then [':'] else []) : IsAddressChar x := by
    split at h
    · exact .inr (.inl (List.mem_singleton.mp h))
    · cases h
  cases a with
  | ipv4 a b c d => exact isAddressChar_of_mem_dotted h
  | ipv6 groups hl =>
    simp only [chars, ipv6Text] at h
    split at h
    · rcases List.mem_append.mp h with h | h
      · rcases List.mem_append.mp h with h | h
        · exact hfront h
        · exact isAddressChar_of_mem_groupsText h
      · exact isAddressChar_of_mem_dotted h
    · rcases List.mem_append.mp h with h | h
      · exact hfront h
      · exact isAddressChar_of_mem_groupsText h

/-! ## How an address begins -/

theorem colon_notMem_dotted {a b c d : Nat} : ':' ∉ dotted a b c d := by
  intro h
  rcases isDigit_or_dot_of_mem_dotted h with h | h
  · exact absurd h (by decide)
  · exact absurd h (by decide)

theorem dot_notMem_toDigits {b n : Nat} (hb : 1 < b) (hle : b ≤ 16) : '.' ∉ Nat.toDigits b n := by
  intro h
  exact absurd ((isDigit_of_mem hb h).mono hle) (by decide)

theorem count_dot_dotted {a b c d : Nat} : (dotted a b c d).count '.' = 3 := by
  have h (n : Nat) : (Nat.toDigits 10 n).count '.' = 0 :=
    List.count_eq_zero_of_not_mem (dot_notMem_toDigits (by decide) (by decide))
  simp [dotted, h]

/-- The run does not start at the second group if the first one is zero as well. -/
theorem scanZeros_ne_one {s : ZeroRun} {i : Nat} {groups : List Nat} (hi : 0 < i)
    (hzero : s.zero ≠ some 1) (hlast : s.last ≠ 1) (hn : i = 1 → s.n ≠ 0) :
    (scanZeros s i groups).zero ≠ some 1 := by
  have hclose {s : ZeroRun} (hzero : s.zero ≠ some 1) (hlast : s.last ≠ 1) :
      s.close.zero ≠ some 1 ∧ s.close.last ≠ 1 := by
    unfold ZeroRun.close
    split <;> simp [hzero, hlast]
  induction groups generalizing s i with
  | nil => exact (hclose hzero hlast).1
  | cons group groups ih =>
    have hi' : i + 1 = 1 → False := by omega
    rw [scanZeros, ZeroRun.step]
    split
    · exact ih (by omega) (hclose hzero hlast).1 (hclose hzero hlast).2 (fun h => (hi' h).elim)
    · refine ih (by omega) hzero ?_ (fun h => (hi' h).elim)
      simp only
      split
      · rename_i h0
        intro h1
        exact hn h1 h0
      · exact hlast

theorem groupsText_run {run : ZeroRun} {i group : Nat} {groups : List Nat}
    (h : run.zero = some i) :
    groupsText run i 0 (group :: groups) = ':' :: groupsText run (i + 1) (run.max - 1) groups := by
  rw [groupsText, if_pos h]

theorem groupsText_group {run : ZeroRun} {i group : Nat} {groups : List Nat}
    (h : run.zero ≠ some i) :
    groupsText run i 0 (group :: groups) =
      Nat.toDigits 16 group ++ ((if i < 7 then [':'] else []) ++
        groupsText run (i + 1) 0 groups) := by
  rw [groupsText, if_neg h, List.append_assoc]

theorem head_groupsText {run : ZeroRun} {i group : Nat} {groups : List Nat}
    (h : run.zero ≠ some i) : (groupsText run i 0 (group :: groups)).head? ≠ some ':' := by
  rw [groupsText_group h, List.head?_append_of_ne_nil _ Nat.toDigits_ne_nil]
  intro hc
  exact absurd (isDigit_of_mem (by decide) (List.mem_of_mem_head? hc)) (by decide)

/-- An IPv6 address begins with `::`, or with its first group and a colon; a first group that is
zero and is written has no second colon behind it. -/
theorem ipv6Text_begins (g₀ g₁ : Nat) (groups : List Nat) :
    (∃ t, ipv6Text (g₀ :: g₁ :: groups) = ':' :: ':' :: t) ∨
    ∃ t, ipv6Text (g₀ :: g₁ :: groups) = Nat.toDigits 16 g₀ ++ ':' :: t ∧
      (g₀ = 0 → t.head? ≠ some ':') := by
  by_cases h0 : (zeroRun (g₀ :: g₁ :: groups)).zero = some 0
  · refine .inl ?_
    simp only [ipv6Text, h0, if_true]
    split
    · rw [List.take_succ_cons, groupsText_run h0]
      exact ⟨_, rfl⟩
    · rw [groupsText_run h0]
      exact ⟨_, rfl⟩
  · refine .inr ⟨groupsText (zeroRun (g₀ :: g₁ :: groups)) 1 0 (g₁ :: groups), ?_, ?_⟩
    · have hdots : endsDotted (zeroRun (g₀ :: g₁ :: groups)) (g₀ :: g₁ :: groups) = false := by
        simp [endsDotted, h0]
      simp only [ipv6Text, hdots, if_neg h0]
      rw [groupsText_group h0]
      rfl
    · rintro rfl
      have h1 : (zeroRun (0 :: g₁ :: groups)).zero ≠ some 1 :=
        scanZeros_ne_one (s := ⟨none, 0, 1, 1⟩) (i := 1) (by decide) (by decide) (by decide)
          (fun _ => by decide)
      exact head_groupsText h1

theorem colon_mem_ipv6 (groups : List (Fin 65536)) (h : groups.length = 8) :
    ':' ∈ (ipv6 groups h).chars := by
  match groups, h with
  | g₀ :: g₁ :: groups, _ =>
    rcases ipv6Text_begins g₀ g₁ (groups.map Fin.val) with ⟨t, ht⟩ | ⟨t, ht, -⟩
    · simp [chars, ht]
    · simp [chars, ht]

/-- An address that begins with a colon begins with two. -/
theorem head_of_colon {a : Address} {t : List Char} (h : a.chars = ':' :: t) :
    t.head? = some ':' := by
  cases a with
  | ipv4 a b c d =>
    have hmem : ':' ∈ (ipv4 a b c d).chars := h ▸ List.mem_cons_self
    exact absurd hmem colon_notMem_dotted
  | ipv6 groups hl =>
    match groups, hl with
    | g₀ :: g₁ :: groups, _ =>
      rcases ipv6Text_begins g₀ g₁ (groups.map Fin.val) with ⟨t', ht⟩ | ⟨t', ht, -⟩
      · obtain ⟨-, rfl⟩ := List.cons.inj (h.symm.trans ht)
        rfl
      · have hne : Nat.toDigits 16 (g₀ : Nat) ≠ [] := Nat.toDigits_ne_nil
        have hc : (Nat.toDigits 16 (g₀ : Nat)).head? = some ':' := by
          have happend : (Nat.toDigits 16 (g₀ : Nat) ++ ':' :: t').head? = _ :=
            List.head?_append_of_ne_nil _ hne
          rw [← happend, ← ht]
          exact congrArg List.head? h
        exact absurd (isDigit_of_mem (by decide) (List.mem_of_mem_head? hc)) (by decide)

/-! ## What may stand in front of an address -/

/-- One to four hexadecimal digits, the first of them not `0`. -/
def IsGroup (r : List Char) : Prop :=
  r ≠ [] ∧ r.length ≤ 4 ∧ (∀ c ∈ r, IsDigit 16 c) ∧ r.head? ≠ some '0'

instance (r : List Char) : Decidable (IsGroup r) := inferInstanceAs (Decidable (_ ∧ _))

/-- The front of a numeral of a positive number is a group if the numeral is short enough. -/
theorem isGroup_of_append {b n : Nat} {r x : List Char} (hb : 1 < b) (hle : b ≤ 16)
    (hn : n ≠ 0) (hlt : n < b ^ 4) (hr : r ≠ []) (h : Nat.toDigits b n = r ++ x) : IsGroup r := by
  refine ⟨hr, ?_, fun c hc => ?_, ?_⟩
  · have := (Nat.length_toDigits_le_iff hb (by decide)).mpr hlt
    rw [h, List.length_append] at this
    omega
  · exact (isDigit_of_mem hb (h ▸ List.mem_append_left _ hc)).mono hle
  · have := head_ne_zero hb hn
    rwa [h, List.head?_append_of_ne_nil _ hr] at this

/-- The numeral `0` has nothing in front of it. -/
theorem eq_of_zero_append {b : Nat} {r x : List Char} (hb : 1 < b) (hr : r ≠ [])
    (h : Nat.toDigits b 0 = r ++ x) : x = [] := by
  rw [Nat.toDigits_of_lt_base (by omega)] at h
  rcases List.append_eq_singleton_iff.mp h.symm with ⟨rfl, -⟩ | ⟨-, rfl⟩
  · exact absurd rfl hr
  · rfl

/-- Exactly the groups, among the texts without a colon, make an address of an address. -/
theorem append_chars_iff {r : List Char} (hr : r ≠ []) (hcolon : ':' ∉ r) :
    (∃ a a' : Address, a'.chars = r ++ a.chars) ↔ IsGroup r := by
  constructor
  · rintro ⟨a, a', h⟩
    cases a' with
    | ipv4 d₁ d₂ d₃ d₄ =>
      cases a with
      | ipv6 groups hl =>
        have hmem : ':' ∈ (ipv4 d₁ d₂ d₃ d₄).chars :=
          h ▸ List.mem_append_right _ (colon_mem_ipv6 groups hl)
        exact absurd hmem colon_notMem_dotted
      | ipv4 e₁ e₂ e₃ e₄ =>
        -- Both have three dots, so none is in `r`.
        have hdots : '.' ∉ r := by
          have := congrArg (List.count '.') h
          simp only [chars, List.count_append, count_dot_dotted] at this
          exact List.count_eq_zero.mp (by omega)
        obtain ⟨x, hx, hrest⟩ := prefix_of_notMem hdots h.symm
        by_cases h0 : (d₁ : Nat) = 0
        · rw [h0] at hx
          rw [eq_of_zero_append (by decide) hr hx, chars, dotted, List.nil_append] at hrest
          have hhead := congrArg List.head? hrest
          rw [List.head?_append_of_ne_nil _ Nat.toDigits_ne_nil] at hhead
          exact absurd (isDigit_of_mem (by decide) (List.mem_of_mem_head? hhead)) (by decide)
        · exact isGroup_of_append (by decide) (by decide) h0 (by omega) hr hx
    | ipv6 groups hl =>
      match groups, hl with
      | g₀ :: g₁ :: groups, _ =>
        rcases ipv6Text_begins g₀ g₁ (groups.map Fin.val) with ⟨t, ht⟩ | ⟨t, ht, h0⟩
        · have := h.symm.trans ht
          cases r with
          | nil => exact absurd rfl hr
          | cons c r =>
            obtain ⟨rfl, -⟩ := List.cons.inj this
            exact absurd List.mem_cons_self hcolon
        · obtain ⟨x, hx, hrest⟩ := prefix_of_notMem hcolon (h.symm.trans ht)
          by_cases hg : (g₀ : Nat) = 0
          · rw [hg] at hx
            rw [eq_of_zero_append (by decide) hr hx, List.nil_append] at hrest
            exact absurd (head_of_colon hrest) (h0 hg)
          · exact isGroup_of_append (by decide) (by decide) hg (by omega) hr hx
  · rintro ⟨-, hlength, hdigits, hhead⟩
    obtain ⟨n, hn, rfl⟩ := exists_toDigits (by decide) hr hdigits hhead
    have hlt : n < 65536 := (Nat.length_toDigits_le_iff (by decide) (by decide)).mp hlength
    refine ⟨ipv6 [0, 0, 0, 0, 0, 0, 0, 1] rfl, ipv6 [⟨n, hlt⟩, 0, 0, 0, 0, 0, 0, 1] rfl, ?_⟩
    have h1 : Nat.toDigits 16 1 = ['1'] := by decide
    simp [chars, ipv6Text, zeroRun, scanZeros, ZeroRun.step, ZeroRun.close, hn, endsDotted,
      groupsText, h1]

end Address

/-- The text of some address, as a request carries it. -/
def RemoteAddr : Type := {s : String // ∃ a : Address, a.text = s}

namespace RemoteAddr

instance : DecidableEq RemoteAddr := inferInstanceAs (DecidableEq (Subtype _))

def of (a : Address) : RemoteAddr := ⟨a.text, a, rfl⟩

theorem isAddressChar_of_mem (t : RemoteAddr) {c : Char} (h : c ∈ t.val.toList) :
    Address.IsAddressChar c := by
  obtain ⟨s, a, rfl⟩ := t
  exact a.isAddressChar_of_mem (by simpa using h)

end RemoteAddr

end BunkerWeb.Lua
