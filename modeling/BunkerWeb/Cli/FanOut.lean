import BunkerWeb.Cli.ApiCaller
import BunkerWeb.Keys

/-!
# What the fan-out reports

- **The flag** (`sendToApis_fst`): it is true exactly when every instance accepted. The commands test
  the pair that holds it, so they report a success whatever it is.
- **The answers** (`lookup_sendToApis`): they are kept under host names without the port
  (`answerKey_eq`), and an answer that is not an object with entries is not kept.
- **The truth** (`fan_out_truthful_iff`): when what is reported is what happened.
-/

namespace BunkerWeb.Cli

open Lib

/-! ## Names -/

/-- The port of an endpoint. -/
def Instance.portText (i : Instance) : Text :=
  match i.port with
  | some port => ':' :: (toString port).toList
  | none => []

/-- The host of an endpoint. -/
def Instance.hostText (i : Instance) : Text :=
  if ':' ∈ i.hostname then '[' :: i.hostname ++ [']'] else i.hostname

theorem notMem_portText (i : Instance) {c : Char} (hc : c ∈ ['/', '?', '#', '@', '[', ']']) :
    c ∉ i.portText := by
  unfold Instance.portText
  have hcolon : c ≠ ':' := by
    rintro rfl
    simp at hc
  have hdigit : c.isDigit = false := by
    simp only [List.mem_cons, List.not_mem_nil, or_false] at hc
    rcases hc with rfl | rfl | rfl | rfl | rfl | rfl <;> rfl
  split
  · rw [List.mem_cons, not_or]
    refine ⟨hcolon, fun hmem => ?_⟩
    rw [isDigit_toString c hmem] at hdigit
    cases hdigit
  · exact List.not_mem_nil

theorem notMem_hostText (i : Instance) {c : Char} (hc : c ∈ ['/', '?', '#', '@']) :
    c ∉ i.hostText := by
  have hplain : c ∉ i.hostname := fun hmem => i.canonical.plain c hmem
    (List.mem_append_left ['[', ']'] hc)
  have hbracket : c ≠ '[' ∧ c ≠ ']' := by
    constructor <;> rintro rfl <;> simp at hc
  unfold Instance.hostText
  split
  · simp [hplain, hbracket]
  · exact hplain

theorem netloc_endpoint (i : Instance) : netloc i.endpoint = i.hostText ++ i.portText := by
  have hdrop : ((i.endpoint).dropWhile (· ≠ '/')).drop 2 = i.hostText ++ i.portText ++ ['/'] := by
    unfold Instance.endpoint Instance.hostText Instance.portText
    cases i.https <;> rfl
  rw [netloc, hdrop, List.takeWhile_append_of_pos]
  · simp
  · intro c hmem
    have hne : ∀ d ∈ ['/', '?', '#', '@'], c ≠ d := by
      rintro d hd rfl
      rcases List.mem_append.mp hmem with hmem | hmem
      · exact notMem_hostText i hd hmem
      · exact notMem_portText i (List.mem_append_left ['[', ']'] hd) hmem
    simp [hne '/', hne '?', hne '#']

theorem hostOfInfo_endpoint (i : Instance) : hostOfInfo (i.hostText ++ i.portText) = i.hostname := by
  by_cases hcolon : ':' ∈ i.hostname
  · have htext : i.hostText ++ i.portText = '[' :: (i.hostname ++ (']' :: i.portText)) := by
      simp [Instance.hostText, hcolon]
    rw [htext, hostOfInfo, List.dropWhile_cons_of_neg (by simp)]
    show (i.hostname ++ (']' :: i.portText)).takeWhile (· ≠ ']') = i.hostname
    rw [List.takeWhile_append_of_pos, List.takeWhile_cons_of_neg (by simp), List.append_nil]
    intro c hmem
    rw [decide_eq_true_eq]
    rintro rfl
    exact i.canonical.plain _ hmem (by simp)
  · have hdrop : (i.hostText ++ i.portText).dropWhile (· ≠ '[') = [] := by
      rw [List.dropWhile_eq_nil_iff, Instance.hostText, if_neg hcolon]
      intro c hmem
      rw [decide_eq_true_eq]
      rintro rfl
      exact (List.mem_append.mp hmem).elim (fun h => i.canonical.plain _ h (by simp))
        (notMem_portText i (by simp))
    rw [hostOfInfo, hdrop]
    show (i.hostText ++ i.portText).takeWhile (· ≠ ':') = i.hostname
    rw [Instance.hostText, if_neg hcolon, List.takeWhile_append_of_pos]
    · unfold Instance.portText
      split <;> simp
    · intro c hmem
      rw [decide_eq_true_eq]
      rintro rfl
      exact hcolon hmem

/-- The name is the host name, without the port. -/
theorem answerKey_eq (i : Instance) : i.answerKey = i.hostname := by
  have hinfo : (((netloc i.endpoint).reverse).takeWhile (· ≠ '@')).reverse =
      i.hostText ++ i.portText := by
    rw [netloc_endpoint, List.takeWhile_eq_self_iff.mpr, List.reverse_reverse]
    intro c hmem
    rw [List.mem_reverse, List.mem_append] at hmem
    rw [decide_eq_true_eq]
    rintro rfl
    exact hmem.elim (notMem_hostText i (by simp)) (notMem_portText i (by simp))
  rw [Instance.answerKey, urlHostname, hinfo, hostOfInfo_endpoint,
    if_neg i.canonical.nonempty, Option.getD_some, i.canonical.lower,
    List.takeWhile_append_dropWhile]

/-! ## The loop -/

variable {α : Type} {completed : List (Instance × Outcome α)}

/-- The instance took the request. -/
def Outcome.Accepts : Outcome α → Prop
  | .answered status _ => status = 200
  | _ => False

/-- What the loop keeps of an answer. -/
def kept (e : Instance × Outcome α) : Option (Text × Body α) :=
  match e.2 with
  | .answered _ (.object entries) =>
    if entries.isEmpty then none else some (e.1.hostname, .object entries)
  | _ => none

theorem foldl_complete_fst (r : Bool × Dict Text (Body α)) :
    ((completed.foldl (complete false) r).1 = true ↔
      r.1 = true ∧ ∀ e ∈ completed, e.2.Accepts) := by
  induction completed generalizing r with
  | nil => simp
  | cons e completed ih =>
    rw [List.foldl_cons, ih, List.forall_mem_cons, ← and_assoc]
    refine and_congr_left fun _ => ?_
    obtain ⟨i, o⟩ := e
    match o with
    | .notSent => simp [complete, Outcome.Accepts]
    | .raised => simp [complete, Outcome.Accepts]
    | .answered status (.object entries) => simp [complete, Outcome.Accepts]
    | .answered status (.other value truthy) => simp [complete, Outcome.Accepts]

/-- The flag says whether every instance accepted. -/
theorem sendToApis_fst : (sendToApis false completed).1 = true ↔ ∀ e ∈ completed, e.2.Accepts := by
  rw [sendToApis, foldl_complete_fst, and_iff_right rfl]

theorem foldl_complete_snd (r : Bool × Dict Text (Body α)) :
    (completed.foldl (complete true) r).2 = r.2.setAll (completed.filterMap kept) := by
  induction completed generalizing r with
  | nil => rfl
  | cons e completed ih =>
    rw [List.foldl_cons, ih]
    obtain ⟨i, o⟩ := e
    match o with
    | .notSent => rfl
    | .raised => rfl
    | .answered status (.object []) => rfl
    | .answered status (.object (e :: entries)) =>
      show Dict.setAll (r.2.insert i.answerKey _) _ = _
      rw [answerKey_eq]
      rfl
    | .answered status (.other value truthy) => rfl

/-- The answer under a name is the last one that was kept for it. -/
theorem lookup_sendToApis (key : Text) :
    ((sendToApis true completed).2.bind fun d => d.lookup key) =
      Dict.lastOf key (completed.filterMap kept) := by
  show ((completed.foldl (complete true) (true, ∅)).2).lookup key = _
  rw [foldl_complete_snd, Dict.lookup_setAll, AList.lookup_empty, Option.or_none]

theorem mem_filterMap_kept {key : Text} {body : Body α} :
    (key, body) ∈ completed.filterMap kept ↔ ∃ e ∈ completed, e.1.hostname = key ∧
      ∃ status entries, entries ≠ [] ∧ body = .object entries ∧
        e.2 = .answered status (.object entries) := by
  rw [List.mem_filterMap]
  refine exists_congr fun e => and_congr_right fun _ => ?_
  obtain ⟨i, o⟩ := e
  match o with
  | .notSent => simp [kept]
  | .raised => simp [kept]
  | .answered status (.other value truthy) => simp [kept]
  | .answered status (.object []) => simp [kept]
  | .answered status (.object (e :: entries)) => simp [kept, eq_comm]

/-! ## The truth -/

/-- What the caller finds for an instance among the answers. -/
def answerOf (responses : Option (Dict Text (Body α))) (i : Instance) : Option (Body α) :=
  responses.bind fun d => d.lookup i.answerKey

/-- The answer of every instance that answered is there, and not that of another one. -/
def AnswersTruthful (fleet : List (Instance × Outcome α))
    (responses : Option (Dict Text (Body α))) : Prop :=
  ∀ e ∈ fleet, ∀ status body, e.2 = .answered status body →
    answerOf responses e.1 = some body

/-- Every answer is an object with entries, and instances of one host name that answer say the
same. -/
structure Distinct (fleet : List (Instance × Outcome α)) : Prop where
  objects : ∀ e ∈ fleet, ∀ status body, e.2 = .answered status body →
    ∃ entries, entries ≠ [] ∧ body = .object entries
  hosts : ∀ e ∈ fleet, ∀ e' ∈ fleet, e.1.hostname = e'.1.hostname →
    ∀ status body status' body', e.2 = .answered status body → e'.2 = .answered status' body' →
      body = body'

theorem answers_truthful_iff :
    AnswersTruthful completed (sendToApis true completed).2 ↔ Distinct completed := by
  have hanswer : ∀ i : Instance, answerOf (sendToApis true completed).2 i =
      Dict.lastOf i.hostname (completed.filterMap kept) := fun i => by
    rw [answerOf, answerKey_eq, lookup_sendToApis]
  constructor
  · intro htrue
    refine ⟨fun e he status body hbody => ?_, fun e he e' he' hhost status body status' body' hbody
      hbody' => ?_⟩
    · have hlast := (hanswer e.1).symm.trans (htrue e he status body hbody)
      obtain ⟨-, -, -, -, entries, hne, hobject, -⟩ :=
        mem_filterMap_kept.mp (Dict.mem_of_lastOf hlast)
      exact ⟨entries, hne, hobject⟩
    · have hlast := (hanswer e.1).symm.trans (htrue e he status body hbody)
      have hlast' := (hanswer e'.1).symm.trans (htrue e' he' status' body' hbody')
      rw [hhost, hlast'] at hlast
      exact (Option.some.inj hlast).symm
  · intro hdistinct e he status body hbody
    obtain ⟨entries, hne, rfl⟩ := hdistinct.objects e he status body hbody
    rw [hanswer]
    refine Dict.lastOf_eq_some (mem_filterMap_kept.mpr ⟨e, he, rfl, status, entries, hne,
      rfl, hbody⟩) fun w hw => ?_
    obtain ⟨e', he', hhost, status', entries', -, rfl, hbody'⟩ := mem_filterMap_kept.mp hw
    exact hdistinct.hosts e' he' e he hhost _ _ _ _ hbody' hbody

/-- **The fan-out reports the truth.** For every list of instances, every outcome of the requests to
them and every order in which they complete, of a ban, of an unban and of a request that asks for
answers: both commands report a success exactly when every instance accepted, and every instance
that answered has its own answer, if and only if every instance accepted both commands, every answer
is an object with entries, and no instance of the same host name answered something else. -/
theorem fan_out_truthful_iff (sendBan : BanData → List (Instance × Outcome α))
    (sendUnban : UnbanData → List (Instance × Outcome α)) (completed : List (Instance × Outcome α))
    (services : Option (List String)) (ip reason service : String) (exp : Int)
    (unbanService : Option String) :
    (((ban sendBan services ip exp reason service).1 = true ↔
        ∀ e ∈ sendBan (banData services ip exp reason service), e.2.Accepts) ∧
      ((unban sendUnban ip unbanService).1 = true ↔
        ∀ e ∈ sendUnban (unbanData ip unbanService), e.2.Accepts) ∧
      AnswersTruthful completed (sendToApis true completed).2) ↔
    (∀ e ∈ sendBan (banData services ip exp reason service), e.2.Accepts) ∧
      (∀ e ∈ sendUnban (unbanData ip unbanService), e.2.Accepts) ∧ Distinct completed := by
  have hban : (ban sendBan services ip exp reason service).1 = true := rfl
  have hunban : (unban sendUnban ip unbanService).1 = true := rfl
  rw [hban, hunban, eq_self, true_iff, true_iff, answers_truthful_iff]

/-- The host name of a container. -/
def bunkerweb : Instance where
  https := false
  hostname := "bunkerweb".toList
  port := some 5000
  canonical := ⟨by decide, @of_decide_eq_true _ (List.decidableBAll _ _) rfl, by decide⟩

/-- An instance refuses a ban, and two instances on one host name answer a request. -/
theorem refused_ban_reported_as_success :
    let refused : List (Instance × Outcome Nat) := [(bunkerweb, .answered 403 (.object [([], 0)]))]
    let asked : List (Instance × Outcome Nat) := [(bunkerweb, .answered 200 (.object [([], 0)])),
      ({ bunkerweb with port := some 5001 }, .answered 200 (.object [([], 1)]))]
    ¬ ((ban (fun _ => refused) none "192.0.2.1" 86400 "manual" "bwcli").1 = true ↔
      ∀ e ∈ refused, e.2.Accepts) ∧
    ¬ ((unban (fun _ => refused) "192.0.2.1" none).1 = true ↔ ∀ e ∈ refused, e.2.Accepts) ∧
    ¬ AnswersTruthful asked (sendToApis true asked).2 := by
  intro refused asked
  have hrefused : ¬ ∀ e ∈ refused, e.2.Accepts := fun h => by
    cases h _ (List.mem_singleton.mpr rfl)
  refine ⟨fun h => hrefused (h.mp rfl), fun h => hrefused (h.mp rfl), fun h => ?_⟩
  have hhosts := (answers_truthful_iff.mp h).hosts _ List.mem_cons_self _
    (List.mem_cons_of_mem _ (List.mem_singleton.mpr rfl)) rfl _ _ _ _ rfl rfl
  cases hhosts

end BunkerWeb.Cli
