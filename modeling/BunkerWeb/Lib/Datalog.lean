import Mathlib.Data.List.Basic
import Mathlib.Logic.Function.Basic

/-!
# Datalog queries over a set of facts

Queries and policies of a Datalog authorizer without rules: what a body means under a valuation of
its variables, a matcher that finds the valuations, and the first-match decision over policies.

- **Meaning**: `Query.Holds facts q` says that some valuation makes every atom of the body a fact
  and every test true.
- **Matcher**: `answers` walks through the body and tries every fact for every atom. One
  equivalence a layer (`bindTerm_iff`, `bindArgs_iff`, `matchAtom_iff`, `answers_iff`) says that a
  valuation agrees with a result exactly when it agreed before and matches; `holds_iff_solved`
  is what follows for queries, so that `Holds` is decidable.
- **Decision**: `authorize` takes the first policy whose query holds, and refuses without one.
-/

namespace BunkerWeb.Datalog

variable {P V C : Type}

/-- A ground fact: a predicate and its arguments. -/
structure Fact (P C : Type) where
  pred : P
  args : List C
deriving DecidableEq

/-- An argument of a body atom. -/
inductive Term (V C : Type) where
  | var (v : V)
  | const (c : C)
deriving DecidableEq

/-- A body atom: a predicate over terms. -/
structure Atom (P V C : Type) where
  pred : P
  args : List (Term V C)

/-- An expression of a body: a condition on the values of some variables. -/
structure Test (V C : Type) where
  vars : List V
  passes : List C → Bool

/-- A query. Every variable of a test occurs in an atom, or the authorizer refuses to build it. -/
structure Query (P V C : Type) where
  body : List (Atom P V C)
  tests : List (Test V C)
  safe : ∀ t ∈ tests, ∀ v ∈ t.vars, ∃ a ∈ body, Term.var v ∈ a.args

/-! ## Meaning -/

/-- The value of a term under a valuation. -/
def Term.value (σ : V → C) : Term V C → C
  | .var v => σ v
  | .const c => c

/-- The fact that an atom becomes under a valuation. -/
def Atom.ground (σ : V → C) (a : Atom P V C) : Fact P C := ⟨a.pred, a.args.map (Term.value σ)⟩

/-- The query holds: some valuation grounds the body in the facts and passes the tests. -/
def Query.Holds (facts : List (Fact P C)) (q : Query P V C) : Prop :=
  ∃ σ : V → C, (∀ a ∈ q.body, a.ground σ ∈ facts) ∧ ∀ t ∈ q.tests, t.passes (t.vars.map σ) = true

/-! ## Matcher -/

variable [DecidableEq P] [DecidableEq V] [DecidableEq C]

/-- Variables bound so far. -/
abbrev Bindings (V C : Type) := List (V × C)

/-- A valuation agrees with the bindings. -/
def Agrees (σ : V → C) (ρ : Bindings V C) : Prop := ∀ v c, ρ.lookup v = some c → σ v = c

/-- Match a term with a value. -/
def bindTerm (ρ : Bindings V C) (t : Term V C) (c : C) : Option (Bindings V C) :=
  match t with
  | .const d => if d = c then some ρ else none
  | .var v =>
    match ρ.lookup v with
    | some d => if d = c then some ρ else none
    | none => some ((v, c) :: ρ)

/-- Match terms with values, one by one. -/
def bindArgs (ρ : Bindings V C) : List (Term V C) → List C → Option (Bindings V C)
  | [], [] => some ρ
  | t :: ts, c :: cs => (bindTerm ρ t c).bind fun ρ' => bindArgs ρ' ts cs
  | [], _ :: _ => none
  | _ :: _, [] => none

/-- Match an atom with a fact. -/
def matchAtom (ρ : Bindings V C) (a : Atom P V C) (f : Fact P C) : Option (Bindings V C) :=
  if a.pred = f.pred then bindArgs ρ a.args f.args else none

/-- The bindings under which every atom of the body is a fact. -/
def answers (facts : List (Fact P C)) : List (Atom P V C) → Bindings V C → List (Bindings V C)
  | [], ρ => [ρ]
  | a :: rest, ρ => (facts.filterMap (matchAtom ρ a)).flatMap (answers facts rest)

/-- A test on bindings; it fails when a variable is unbound. -/
def Test.check (ρ : Bindings V C) (t : Test V C) : Bool :=
  match t.vars.mapM fun v => ρ.lookup v with
  | some cs => t.passes cs
  | none => false

/-- Some answer to the body passes the tests. -/
def Query.solved (facts : List (Fact P C)) (q : Query P V C) : Bool :=
  (answers facts q.body []).any fun ρ => q.tests.all (Test.check ρ)

omit [DecidableEq C] in
theorem agrees_cons {σ : V → C} {ρ : Bindings V C} {v : V} {c : C} (h : ρ.lookup v = none) :
    Agrees σ ((v, c) :: ρ) ↔ Agrees σ ρ ∧ σ v = c := by
  constructor
  · intro hσ
    refine ⟨fun w d hw => hσ w d ?_, hσ v c (by simp)⟩
    have hne : w ≠ v := by rintro rfl; rw [h] at hw; cases hw
    rw [List.lookup_cons, beq_false_of_ne hne, hw]
  · rintro ⟨hσ, hv⟩ w d hw
    rw [List.lookup_cons] at hw
    rcases eq_or_ne w v with rfl | hne
    · simp only [beq_self_eq_true, Option.some.injEq] at hw
      rw [hv, hw]
    · rw [beq_false_of_ne hne] at hw
      exact hσ w d hw

theorem bindTerm_iff {σ : V → C} {ρ : Bindings V C} {t : Term V C} {c : C} :
    (∃ ρ', bindTerm ρ t c = some ρ' ∧ Agrees σ ρ') ↔ Agrees σ ρ ∧ t.value σ = c := by
  cases t with
  | const d =>
    by_cases h : d = c
    · simp [bindTerm, h, Term.value]
    · simp [bindTerm, h, Term.value]
  | var v =>
    cases hl : ρ.lookup v with
    | none => simp [bindTerm, hl, agrees_cons hl, Term.value]
    | some d =>
      -- the variable keeps the value it has
      by_cases h : d = c
      · simp only [bindTerm, hl, h, if_pos, Option.some.injEq, exists_eq_left', Term.value]
        exact ⟨fun hσ => ⟨hσ, hσ v c (by rw [hl, h])⟩, And.left⟩
      · simp only [bindTerm, hl, h, if_false, reduceCtorEq, false_and, exists_false, Term.value,
          false_iff, not_and]
        intro hσ hv
        exact h ((hσ v d hl).symm.trans hv)

theorem bindArgs_iff {σ : V → C} {ts : List (Term V C)} {cs : List C} {ρ : Bindings V C} :
    (∃ ρ', bindArgs ρ ts cs = some ρ' ∧ Agrees σ ρ') ↔
      Agrees σ ρ ∧ ts.map (Term.value σ) = cs := by
  induction ts generalizing ρ cs with
  | nil => cases cs <;> simp [bindArgs]
  | cons t ts ih =>
    cases cs with
    | nil => simp [bindArgs]
    | cons c cs =>
      have hstep : (∃ ρ', bindArgs ρ (t :: ts) (c :: cs) = some ρ' ∧ Agrees σ ρ') ↔
          ∃ ρ₁, bindTerm ρ t c = some ρ₁ ∧ ∃ ρ', bindArgs ρ₁ ts cs = some ρ' ∧ Agrees σ ρ' := by
        simp only [bindArgs, Option.bind_eq_some_iff]
        constructor
        · rintro ⟨ρ', ⟨ρ₁, h₁, h'⟩, hσ⟩
          exact ⟨ρ₁, h₁, ρ', h', hσ⟩
        · rintro ⟨ρ₁, h₁, ρ', h', hσ⟩
          exact ⟨ρ', ⟨ρ₁, h₁, h'⟩, hσ⟩
      rw [hstep, List.map_cons, List.cons.injEq, ← and_assoc, ← bindTerm_iff]
      simp only [ih]
      constructor
      · rintro ⟨ρ₁, h₁, hσ, hts⟩
        exact ⟨⟨ρ₁, h₁, hσ⟩, hts⟩
      · rintro ⟨⟨ρ₁, h₁, hσ⟩, hts⟩
        exact ⟨ρ₁, h₁, hσ, hts⟩

theorem matchAtom_iff {σ : V → C} {ρ : Bindings V C} {a : Atom P V C} {f : Fact P C} :
    (∃ ρ', matchAtom ρ a f = some ρ' ∧ Agrees σ ρ') ↔ Agrees σ ρ ∧ a.ground σ = f := by
  rcases f with ⟨p, cs⟩
  by_cases h : a.pred = p
  · simp [matchAtom, h, bindArgs_iff, Atom.ground]
  · simp [matchAtom, h, Atom.ground]

/-- A valuation agrees with an answer exactly when it grounds the body in the facts. -/
theorem answers_iff {σ : V → C} {facts : List (Fact P C)} {body : List (Atom P V C)}
    {ρ : Bindings V C} :
    (∃ ρ' ∈ answers facts body ρ, Agrees σ ρ') ↔
      Agrees σ ρ ∧ ∀ a ∈ body, a.ground σ ∈ facts := by
  induction body generalizing ρ with
  | nil => simp [answers]
  | cons a rest ih =>
    have hstep : (∃ ρ' ∈ answers facts (a :: rest) ρ, Agrees σ ρ') ↔
        ∃ f ∈ facts, ∃ ρ₁, matchAtom ρ a f = some ρ₁ ∧
          ∃ ρ' ∈ answers facts rest ρ₁, Agrees σ ρ' := by
      simp only [answers, List.mem_flatMap, List.mem_filterMap]
      constructor
      · rintro ⟨ρ', ⟨ρ₁, ⟨f, hf, h₁⟩, h'⟩, hσ⟩
        exact ⟨f, hf, ρ₁, h₁, ρ', h', hσ⟩
      · rintro ⟨f, hf, ρ₁, h₁, ρ', h', hσ⟩
        exact ⟨ρ', ⟨ρ₁, ⟨f, hf, h₁⟩, h'⟩, hσ⟩
    rw [hstep, List.forall_mem_cons]
    constructor
    · rintro ⟨f, hf, ρ₁, h₁, h'⟩
      obtain ⟨hσ₁, hrest⟩ := ih.1 h'
      obtain ⟨hσ, rfl⟩ := matchAtom_iff.1 ⟨ρ₁, h₁, hσ₁⟩
      exact ⟨hσ, hf, hrest⟩
    · rintro ⟨hσ, ha, hrest⟩
      obtain ⟨ρ₁, h₁, hσ₁⟩ : ∃ ρ₁, matchAtom ρ a (a.ground σ) = some ρ₁ ∧ Agrees σ ρ₁ :=
        matchAtom_iff.2 ⟨hσ, rfl⟩
      exact ⟨a.ground σ, ha, ρ₁, h₁, ih.2 ⟨hσ₁, hrest⟩⟩

/-! ## Bound variables -/

/-- The bindings give the variable a value. -/
def Bound (ρ : Bindings V C) (v : V) : Prop := (List.lookup v ρ).isSome = true

theorem bindTerm_bound {ρ ρ' : Bindings V C} {t : Term V C} {c : C}
    (h : bindTerm ρ t c = some ρ') {v : V} (hv : Bound ρ v ∨ t = .var v) : Bound ρ' v := by
  cases t with
  | const d =>
    simp only [bindTerm] at h
    split at h
    · cases h; exact hv.resolve_right (by simp)
    · cases h
  | var w =>
    simp only [bindTerm] at h
    cases hl : ρ.lookup w with
    | none =>
      rw [hl] at h
      cases h
      rcases eq_or_ne v w with rfl | hne
      · simp [Bound]
      · rw [Bound, List.lookup_cons, beq_false_of_ne hne]
        exact hv.resolve_right (by simpa using hne.symm)
    | some d =>
      rw [hl] at h
      simp only at h
      split at h
      · cases h
        rcases hv with hv | hv
        · exact hv
        · cases hv; simp [Bound, hl]
      · cases h

theorem bindArgs_bound {ts : List (Term V C)} {cs : List C} {ρ ρ' : Bindings V C}
    (h : bindArgs ρ ts cs = some ρ') {v : V} (hv : Bound ρ v ∨ Term.var v ∈ ts) : Bound ρ' v := by
  induction ts generalizing ρ cs with
  | nil =>
    cases cs with
    | nil => cases h; exact hv.resolve_right (by simp)
    | cons c cs => cases h
  | cons t ts ih =>
    cases cs with
    | nil => cases h
    | cons c cs =>
      obtain ⟨ρ₁, h₁, h'⟩ := Option.bind_eq_some_iff.1 h
      refine ih h' ?_
      rcases hv with hv | hv
      · exact .inl (bindTerm_bound h₁ (.inl hv))
      · rcases List.mem_cons.1 hv with hv | hv
        · exact .inl (bindTerm_bound h₁ (.inr hv.symm))
        · exact .inr hv

/-- An answer binds every variable of the body. -/
theorem answers_bound {facts : List (Fact P C)} {body : List (Atom P V C)} {ρ ρ' : Bindings V C}
    (h : ρ' ∈ answers facts body ρ) {v : V}
    (hv : Bound ρ v ∨ ∃ a ∈ body, Term.var v ∈ a.args) : Bound ρ' v := by
  induction body generalizing ρ with
  | nil =>
    rw [answers, List.mem_singleton] at h
    subst h
    exact hv.resolve_right (by simp)
  | cons a rest ih =>
    simp only [answers, List.mem_flatMap, List.mem_filterMap] at h
    obtain ⟨ρ₁, ⟨f, -, h₁⟩, h'⟩ := h
    refine ih h' ?_
    simp only [matchAtom] at h₁
    split at h₁
    · rcases hv with hv | ⟨b, hb, hv⟩
      · exact .inl (bindArgs_bound h₁ (.inl hv))
      · rcases List.mem_cons.1 hb with rfl | hb
        · exact .inl (bindArgs_bound h₁ (.inr hv))
        · exact .inr ⟨b, hb, hv⟩
    · cases h₁

/-! ## Queries -/

omit [DecidableEq C] in
theorem lookups_eq {σ : V → C} {ρ : Bindings V C} (hσ : Agrees σ ρ) {vs : List V}
    (hb : ∀ v ∈ vs, Bound ρ v) : (vs.mapM fun v => ρ.lookup v) = some (vs.map σ) := by
  induction vs with
  | nil => rfl
  | cons v vs ih =>
    obtain ⟨c, hc⟩ := Option.isSome_iff_exists.1 (hb v (by simp))
    have hv : ρ.lookup v = some (σ v) := by rw [hc, hσ v c hc]
    rw [List.mapM_cons, hv, ih fun w hw => hb w (by simp [hw])]
    rfl

omit [DecidableEq C] in
/-- On bound variables a test reads the values of the valuation. -/
theorem Test.check_eq {σ : V → C} {ρ : Bindings V C} (hσ : Agrees σ ρ) {t : Test V C}
    (hb : ∀ v ∈ t.vars, Bound ρ v) : t.check ρ = t.passes (t.vars.map σ) := by
  rw [Test.check, lookups_eq hσ hb]

omit [DecidableEq C] in
/-- Every set of bindings has a valuation that agrees with it. -/
theorem exists_agrees [Inhabited C] (ρ : Bindings V C) : ∃ σ : V → C, Agrees σ ρ :=
  ⟨fun v => (ρ.lookup v).getD default, fun v c h => by simp [h]⟩

/-- The matcher decides whether a query holds. -/
theorem holds_iff_solved [Inhabited C] {facts : List (Fact P C)} {q : Query P V C} :
    q.Holds facts ↔ q.solved facts = true := by
  have hbound : ∀ ρ ∈ answers facts q.body [], ∀ t ∈ q.tests, ∀ v ∈ t.vars, Bound ρ v :=
    fun ρ hρ t ht v hv => answers_bound hρ (.inr (q.safe t ht v hv))
  simp only [Query.solved, List.any_eq_true, List.all_eq_true]
  constructor
  · rintro ⟨σ, hbody, htests⟩
    have hnil : Agrees σ ([] : Bindings V C) := fun v c h => by simp at h
    obtain ⟨ρ, hρ, hσ⟩ := answers_iff.2 ⟨hnil, hbody⟩
    exact ⟨ρ, hρ, fun t ht => by rw [Test.check_eq hσ (hbound ρ hρ t ht), htests t ht]⟩
  · rintro ⟨ρ, hρ, htests⟩
    obtain ⟨σ, hσ⟩ := exists_agrees ρ
    refine ⟨σ, (answers_iff.1 ⟨ρ, hρ, hσ⟩).2, fun t ht => ?_⟩
    rw [← Test.check_eq hσ (hbound ρ hρ t ht), htests t ht]

instance [Inhabited C] (facts : List (Fact P C)) (q : Query P V C) : Decidable (q.Holds facts) :=
  decidable_of_iff _ holds_iff_solved.symm

/-! ## Policies -/

/-- What a policy does when its query holds. -/
inductive Effect where
  | allow
  | deny
deriving DecidableEq

/-- An authorization policy. -/
structure Policy (P V C : Type) where
  effect : Effect
  query : Query P V C

/-- The first policy whose query holds decides; without one the request is refused. -/
def authorize [Inhabited C] (facts : List (Fact P C)) : List (Policy P V C) → Bool
  | [] => false
  | p :: ps => if p.query.Holds facts then p.effect = .allow else authorize facts ps

/-- With allow policies only, the request is authorized when one of the queries holds. -/
theorem authorize_of_allow [Inhabited C] {facts : List (Fact P C)} {ps : List (Policy P V C)}
    (h : ∀ p ∈ ps, p.effect = .allow) :
    authorize facts ps = true ↔ ∃ p ∈ ps, p.query.Holds facts := by
  induction ps with
  | nil => simp [authorize]
  | cons p ps ih =>
    obtain ⟨hp, hps⟩ := List.forall_mem_cons.1 h
    by_cases hq : p.query.Holds facts
    · simp [authorize, hq, hp]
    · simp [authorize, hq, ih hps]

end BunkerWeb.Datalog
