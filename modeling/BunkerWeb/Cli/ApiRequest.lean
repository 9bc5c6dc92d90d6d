import BunkerWeb.Cli.FanOut

/-!
# One request to an instance (`common/api/API.py`)

`API.request` sends a request to its endpoint, and once more without TLS if it could not connect with
it. The second URL is the text of the endpoint without the characters of `https://` at its start, and
these are also the first ones of many host names. The second attempt is not guarded, and a body that is
no JSON is an error behind both.

`clean_iff` says for which endpoints and outcomes the request fails cleanly and goes to the right host.
-/

namespace BunkerWeb.Cli

open Lib

/-! ## Endpoints -/

/-- What `parse_host` returns: no scheme for a name or an address alone. -/
structure ParsedHost where
  https : Option Bool
  hostname : Text
  port : Option Nat
  canonical : CanonicalHost hostname

/-- The hints of `build_endpoint`, and the ports of the environment. -/
structure Hints where
  port : Option Nat
  listenHttps : Bool
  httpsPort : Option Nat
  defaultHttpPort : Nat
  defaultHttpsPort : Nat

/-- The port of the URL, or of the hints for the scheme. -/
def effPort (parsed : ParsedHost) (hints : Hints) : Nat :=
  parsed.port.getD (if parsed.https.getD hints.listenHttps
    then hints.httpsPort.getD hints.defaultHttpsPort else hints.port.getD hints.defaultHttpPort)

/-- `API.build_endpoint`; the endpoint as `API` parses it again. -/
def buildEndpoint (parsed : ParsedHost) (hints : Hints) : Except String Instance :=
  if 1 ≤ effPort parsed hints ∧ effPort parsed hints ≤ 65535 then
    .ok ⟨parsed.https.getD hints.listenHttps, parsed.hostname, some (effPort parsed hints),
      parsed.canonical⟩
  else .error "Invalid API port: expected a value between 1 and 65535"

/-- An endpoint that was built has a port. -/
theorem port_of_buildEndpoint {parsed : ParsedHost} {hints : Hints} {i : Instance}
    (h : buildEndpoint parsed hints = .ok i) : i.port.isSome := by
  unfold buildEndpoint at h
  split at h
  next =>
    obtain rfl := Except.ok.inj h
    rfl
  next => cases h

/-! ## Where a URL leads -/

/-- The port of what stands behind the user information, if there is one. -/
def portOfInfo (hostinfo : Text) : Text :=
  match hostinfo.dropWhile (· ≠ '[') with
  | [] => (hostinfo.dropWhile (· ≠ ':')).drop 1
  | _ :: bracketed => ((bracketed.dropWhile (· ≠ ']')).dropWhile (· ≠ ':')).drop 1

def defaultPort (https : Bool) : Nat := if https then 443 else 80

/-- The port that a URL leads to. -/
def urlPort (url : Text) : Nat :=
  let port := portOfInfo (((netloc url).reverse).takeWhile (· ≠ '@')).reverse
  if port = [] then defaultPort (url.takeWhile (· ≠ ':') = "https".toList)
  else parseInt (String.ofList port)

/-- The host and the port that a URL leads to. -/
def urlTarget (url : Text) : Option Text × Nat := (urlHostname url, urlPort url)

/-- The host and the port of an endpoint. -/
def Instance.target (i : Instance) : Option Text × Nat :=
  (some i.hostname, i.port.getD (defaultPort i.https))

/-! ## `request` -/

/-- The `data` of a request. -/
inductive Data where
  | dict
  | bytes
  /-- Something else, with the name of its type. -/
  | other (type : String)

variable {J : Type}

/-- What becomes of an attempt. -/
inductive Attempt (J : Type) where
  /-- `ConnectionError`, which a timeout of the connection also is. -/
  | connectionError (e : String)
  /-- Another exception. -/
  | failure (e : String)
  /-- A response: its status, and what `resp.json()` returns if it does not raise. -/
  | answer (status : Nat) (json : Option J)

abbrev Result (J : Type) := Bool × String × Option Nat × Option J

/-- `url if not url.startswith('/') else url[1:]`. -/
def relativeUrl : Text → Text
  | '/' :: url => url
  | url => url

/-- `f"http://{self.__endpoint.lstrip('https://')}"`. -/
def Instance.fallback (i : Instance) : Text :=
  "http://".toList ++ i.endpoint.dropWhile fun c => c ∈ "https://".toList

/-- What follows an answer; `none` is the exception of `resp.json()`. -/
def answered (status : Nat) (json : Option J) : Option (Result J) :=
  json.map fun j => (true, "ok", some status, some j)

/-- What follows the second attempt; its exceptions leave `request`. -/
def retried : Attempt J → Option (Result J)
  | .answer status json => answered status json
  | _ => none

/-- `API.request`: the URLs of the attempts, and the result or (`none`) an exception. -/
def Instance.request (i : Instance) (url : Text) (data : Option Data) (first second : Attempt J) :
    List Text × Option (Result J) :=
  match data with
  | some (.other type) => ([], some (false, "Unsupported data type: " ++ type, none, none))
  | _ =>
    let sent := i.endpoint ++ relativeUrl url
    match first with
    | .answer status json => ([sent], answered status json)
    | .failure e => ([sent], some (false, "Request failed: " ++ e, none, none))
    | .connectionError e =>
      if i.https then ([sent, i.fallback ++ relativeUrl url], retried second)
      else ([sent], some (false, "Connection error: " ++ e, none, none))

/-! ## Clean requests -/

def Attempt.IsAnswer : Attempt J → Prop
  | .answer _ _ => True
  | _ => False

/-- All attempts go to the endpoint, and the result is no success without an answer. -/
structure Clean (i : Instance) (first second : Attempt J) (out : List Text × Option (Result J)) :
    Prop where
  target : ∀ url ∈ out.1, urlTarget url = i.target
  returns : out.2.isSome
  success : ∀ r ∈ out.2, r.1 = true → (out.1.length = 1 ∧ first.IsAnswer) ∨
    (out.1.length = 2 ∧ second.IsAnswer)

/-- The second URL has the host and the port of the endpoint: the host name does not begin with a
character of `https://`, and the port is given. -/
def Instance.Reaches (i : Instance) : Prop :=
  i.port.isSome ∧ ∀ c ∈ i.hostText.head?, c ∉ "https://".toList

/-- No answer without JSON; and if there is a second attempt, it reaches the host and is answered. -/
def Smooth (i : Instance) (first second : Attempt J) : Prop :=
  match first with
  | .answer _ json => json.isSome
  | .failure _ => True
  | .connectionError _ =>
    i.https = true → i.Reaches ∧ ∃ status j, second = .answer status (some j)

/-! ## URLs of an endpoint -/

variable {i : Instance} {tail : Text}

theorem netloc_of_info {scheme info : Text} (hscheme : '/' ∉ scheme)
    (hinfo : ∀ c ∈ info, c ∉ ['/', '?', '#']) :
    netloc (scheme ++ "://".toList ++ (info ++ '/' :: tail)) = info := by
  have hdrop : (scheme ++ "://".toList ++ (info ++ '/' :: tail)).dropWhile (· ≠ '/') =
      "//".toList ++ (info ++ '/' :: tail) := by
    rw [List.append_assoc, List.dropWhile_append_of_pos]
    · rfl
    · intro c hc
      rw [decide_eq_true_eq]
      rintro rfl
      exact hscheme hc
  rw [netloc, hdrop]
  show (info ++ '/' :: tail).takeWhile _ = info
  rw [List.takeWhile_append_of_pos, List.takeWhile_cons_of_neg (by decide), List.append_nil]
  intro c hc
  have hne := hinfo c hc
  simp only [List.mem_cons, List.not_mem_nil, or_false, not_or] at hne
  simp [hne]

theorem notMem_info {c : Char} (hc : c ∈ ['/', '?', '#', '@']) : c ∉ i.hostText ++ i.portText :=
  fun hmem => (List.mem_append.mp hmem).elim (notMem_hostText i hc)
    (notMem_portText i (List.mem_append_left ['[', ']'] hc))

/-- What `urlsplit` takes apart into host and port. -/
def hostinfo (url : Text) : Text := (((netloc url).reverse).takeWhile (· ≠ '@')).reverse

theorem hostinfo_of_netloc {url info : Text} (h : netloc url = info) (hinfo : '@' ∉ info) :
    hostinfo url = info := by
  rw [hostinfo, h, List.takeWhile_eq_self_iff.mpr, List.reverse_reverse]
  intro c hc
  rw [decide_eq_true_eq]
  rintro rfl
  exact hinfo (List.mem_reverse.mp hc)

theorem portOfInfo_endpoint (i : Instance) :
    portOfInfo (i.hostText ++ i.portText) = i.portText.drop 1 := by
  have hport : i.portText.dropWhile (· ≠ ':') = i.portText := by
    unfold Instance.portText
    split <;> rfl
  by_cases hcolon : ':' ∈ i.hostname
  · have htext : i.hostText ++ i.portText = '[' :: (i.hostname ++ (']' :: i.portText)) := by
      simp [Instance.hostText, hcolon]
    rw [htext, portOfInfo, List.dropWhile_cons_of_neg (by simp)]
    have hbracket : (i.hostname ++ ']' :: i.portText).dropWhile (· ≠ ']') = ']' :: i.portText := by
      rw [List.dropWhile_append_of_pos, List.dropWhile_cons_of_neg (by simp)]
      intro c hc
      rw [decide_eq_true_eq]
      rintro rfl
      exact i.canonical.plain _ hc (by simp)
    dsimp only
    rw [hbracket, List.dropWhile_cons_of_pos (by decide), hport]
  · have hdrop : (i.hostText ++ i.portText).dropWhile (· ≠ '[') = [] := by
      rw [List.dropWhile_eq_nil_iff, Instance.hostText, if_neg hcolon]
      intro c hc
      rw [decide_eq_true_eq]
      rintro rfl
      exact (List.mem_append.mp hc).elim (fun h => i.canonical.plain _ h (by simp))
        (notMem_portText i (by simp))
    rw [portOfInfo, hdrop]
    dsimp only
    rw [Instance.hostText, if_neg hcolon, List.dropWhile_append_of_pos, hport]
    intro c hc
    rw [decide_eq_true_eq]
    rintro rfl
    exact hcolon hc

/-- A URL with the host and the port of an endpoint leads there; without a port, the scheme counts. -/
theorem urlTarget_of_info {scheme : Text} (hslash : '/' ∉ scheme) (hcolon : ':' ∉ scheme)
    (i : Instance) (tail : Text) :
    urlTarget (scheme ++ "://".toList ++ (i.hostText ++ i.portText ++ '/' :: tail)) =
      (some i.hostname, i.port.getD (defaultPort (scheme = "https".toList))) := by
  have hnetloc : netloc (scheme ++ "://".toList ++ (i.hostText ++ i.portText ++ '/' :: tail)) =
      i.hostText ++ i.portText :=
    netloc_of_info hslash fun c hc hmem => notMem_info (List.mem_append_left ['@'] hmem) hc
  have hinfo := hostinfo_of_netloc hnetloc (notMem_info (i := i) (by simp))
  have hscheme : (scheme ++ "://".toList ++ (i.hostText ++ i.portText ++ '/' :: tail)).takeWhile
      (· ≠ ':') = scheme := by
    rw [List.append_assoc, List.takeWhile_append_of_pos]
    · show scheme ++ (':' :: _).takeWhile _ = scheme
      rw [List.takeWhile_cons_of_neg (by decide), List.append_nil]
    · intro c hc
      rw [decide_eq_true_eq]
      rintro rfl
      exact hcolon hc
  rw [hostinfo] at hinfo
  refine Prod.ext ?_ ?_
  · show urlHostname _ = _
    rw [urlHostname, hinfo, hostOfInfo_endpoint, if_neg i.canonical.nonempty, i.canonical.lower,
      List.takeWhile_append_dropWhile]
  · show urlPort _ = _
    rw [urlPort, hinfo, portOfInfo_endpoint, hscheme, Instance.portText]
    cases i.port with
    | none => rfl
    | some port =>
      have hne : (toString port).toList ≠ [] := by simp
      show (if (toString port).toList = [] then _
        else parseInt (String.ofList (toString port).toList)) = port
      rw [if_neg hne, String.ofList_toList, parseInt_toString]

/-! ## The fallback -/

theorem endpoint_eq (i : Instance) (tail : Text) :
    i.endpoint ++ tail = (if i.https then "https".toList else "http".toList) ++ "://".toList ++
      (i.hostText ++ i.portText ++ '/' :: tail) := by
  have hendpoint : i.endpoint = (if i.https then "https".toList else "http".toList) ++
      "://".toList ++ i.hostText ++ i.portText ++ ['/'] := rfl
  rw [hendpoint]
  simp

theorem urlTarget_endpoint (i : Instance) (tail : Text) :
    urlTarget (i.endpoint ++ tail) = i.target := by
  rw [endpoint_eq, urlTarget_of_info (by split <;> decide) (by split <;> decide), Instance.target]
  cases i.https <;> rfl

/-- The characters that are taken away from the endpoint. -/
def stripped (c : Char) : Bool := c ∈ "https://".toList

theorem fallback_eq (hhttps : i.https = true) :
    i.fallback = "http://".toList ++ (i.hostText ++ i.portText ++ ['/']).dropWhile stripped := by
  have hendpoint := endpoint_eq i []
  rw [List.append_nil, hhttps, if_pos rfl] at hendpoint
  have hall : ("https".toList ++ "://".toList).all stripped = true := by decide
  have hdrop : ("https".toList ++ "://".toList ++ (i.hostText ++ i.portText ++ ['/'])).dropWhile
      stripped = (i.hostText ++ i.portText ++ ['/']).dropWhile stripped :=
    List.dropWhile_append_of_pos fun c hc => List.all_eq_true.mp hall c hc
  rw [← hdrop, ← hendpoint]
  rfl

theorem hostText_ne_nil (i : Instance) : i.hostText ≠ [] := by
  unfold Instance.hostText
  split
  · exact List.cons_ne_nil _ _
  · exact i.canonical.nonempty

/-- If the host name does not begin with such a character, only the scheme changes. -/
theorem urlTarget_fallback (hhttps : i.https = true) (hhead : ∀ c ∈ i.hostText.head?, stripped c = false)
    (tail : Text) : urlTarget (i.fallback ++ tail) = (some i.hostname, i.port.getD 80) := by
  have hdrop : (i.hostText ++ i.portText ++ ['/']).dropWhile stripped =
      i.hostText ++ i.portText ++ ['/'] := by
    obtain ⟨c, rest, hc⟩ := List.exists_cons_of_ne_nil (hostText_ne_nil i)
    rw [hc] at hhead ⊢
    exact List.dropWhile_cons_of_neg (by simp [hhead c rfl])
  have htext : i.fallback ++ tail = "http".toList ++ "://".toList ++
      (i.hostText ++ i.portText ++ '/' :: tail) := by
    rw [fallback_eq hhttps, hdrop]
    simp
  rw [htext, urlTarget_of_info (by decide) (by decide)]
  rfl

theorem toLower_of_hostname {c : Char} (hc : c ∈ i.hostname.takeWhile (· ≠ '%')) : c.toLower = c :=
  List.map_eq_map_iff.mp (i.canonical.lower.trans (List.map_id' _).symm) c hc

theorem not_stripped_of_dropWhile {l rest : Text} {d : Char}
    (h : l.dropWhile stripped = d :: rest) : stripped d = false := by
  have hnot := List.head?_dropWhile_not stripped l
  rw [h] at hnot
  exact hnot

/-- What is left begins with another character, in lower case or in front of a zone. -/
theorem head_of_stripped {d : Char} {rest : Text}
    (h : (i.hostname ++ (i.portText ++ ['/'])).dropWhile stripped = d :: rest) :
    d = '%' ∨ d.toLower = d := by
  rw [List.dropWhile_append] at h
  split at h
  next =>
    right
    have hdigit : d.isDigit = true := by
      unfold Instance.portText at h
      cases hport : i.port with
      | none =>
        rw [hport] at h
        cases h
      | some port =>
        rw [hport] at h
        obtain ⟨e, es, he⟩ := List.exists_cons_of_ne_nil
          (show (toString port).toList ≠ [] by simp)
        have he' : e.isDigit = true := isDigit_toString e (by rw [he]; exact List.mem_cons_self)
        have hnot : stripped e = false := by
          rw [stripped, decide_eq_false_iff_not]
          intro hmem
          have hall : ("https://".toList.all fun c => !c.isDigit) = true := by decide
          have hno := List.all_eq_true.mp hall e hmem
          rw [he'] at hno
          cases hno
        have hdrop : ((':' :: (toString port).toList) ++ ['/']).dropWhile stripped =
            e :: (es ++ ['/']) := by
          rw [he]
          show (e :: (es ++ ['/'])).dropWhile stripped = _
          exact List.dropWhile_cons_of_neg (by simp [hnot])
        rw [← (List.cons.inj (hdrop.symm.trans h)).1]
        exact he'
    rcases toLower_cases d with heq | ⟨h65, h90, -⟩
    · exact heq
    · have hrange : d.toNat ≤ 57 := (Char.isDigit_iff_toNat.mp hdigit).2
      omega
  next hne =>
    obtain ⟨e, es, he⟩ := List.exists_cons_of_ne_nil
      (fun hnil : i.hostname.dropWhile stripped = [] => hne (by rw [hnil]; rfl))
    rw [he] at h
    obtain rfl : e = d := (List.cons.inj h).1
    by_cases hzone : e = '%'
    · exact Or.inl hzone
    · refine Or.inr (toLower_of_hostname (i := i) ?_)
      rw [← List.takeWhile_append_dropWhile (p := stripped) (l := i.hostname), he,
        List.takeWhile_append_of_pos, List.takeWhile_cons_of_pos (by simpa using hzone)]
      · exact List.mem_append_right _ List.mem_cons_self
      · intro c hc
        have hstripped := List.mem_takeWhile_imp hc
        rw [decide_eq_true_eq]
        rintro rfl
        exact absurd hstripped (by decide)

/-- The host of a URL that begins with a certain character, if it is no end of a host. -/
theorem head_urlHostname (scheme : Text) {text host : Text} {d : Char} (hscheme : '/' ∉ scheme)
    (htext : ∀ c ∈ d :: text, c ∉ ['@', '[']) (hd : d ∉ ['/', '?', '#', ':'])
    (h : urlHostname (scheme ++ "://".toList ++ d :: text) = some host) :
    ∃ rest, host = (if d = '%' then d else d.toLower) :: rest := by
  have hdrop : (scheme ++ "://".toList ++ d :: text).dropWhile (· ≠ '/') =
      "//".toList ++ d :: text := by
    rw [List.append_assoc, List.dropWhile_append_of_pos]
    · rfl
    · intro c hc
      rw [decide_eq_true_eq]
      rintro rfl
      exact hscheme hc
  simp only [List.mem_cons, List.not_mem_nil, or_false, not_or] at hd
  obtain ⟨info, hinfo⟩ : ∃ info, netloc (scheme ++ "://".toList ++ d :: text) = d :: info := by
    rw [netloc, hdrop]
    show ∃ info, (d :: text).takeWhile _ = _
    exact ⟨_, List.takeWhile_cons_of_pos (by simp [hd])⟩
  have hsub : ∀ c ∈ d :: info, c ∈ d :: text := by
    intro c hc
    rw [← hinfo, netloc, hdrop] at hc
    exact (List.takeWhile_sublist _).subset hc
  have hnone : (d :: info).dropWhile (· ≠ '[') = [] := by
    rw [List.dropWhile_eq_nil_iff]
    intro c hc
    have hne := htext c (hsub c hc)
    simp only [List.mem_cons, List.not_mem_nil, or_false, not_or] at hne
    simp [hne]
  have hhost : hostOfInfo (hostinfo (scheme ++ "://".toList ++ d :: text)) =
      d :: info.takeWhile (· ≠ ':') := by
    rw [hostinfo_of_netloc hinfo fun hmem => htext _ (hsub _ hmem) (by simp), hostOfInfo, hnone]
    exact List.takeWhile_cons_of_pos (by simp [hd])
  rw [hostinfo] at hhost
  rw [urlHostname, hhost, if_neg (List.cons_ne_nil _ _)] at h
  rw [← Option.some.inj h]
  split
  next hzone => exact ⟨_, by rw [List.takeWhile_cons_of_neg (by simp [hzone]),
    List.dropWhile_cons_of_neg (by simp [hzone])]; rfl⟩
  next hzone => exact ⟨_, by rw [List.takeWhile_cons_of_pos (by simpa using hzone)]; rfl⟩

/-- Otherwise a part of the name, or all of it, is gone. -/
theorem urlHostname_fallback_ne (hhttps : i.https = true) {c : Char} (hhead : c ∈ i.hostText.head?)
    (hc : stripped c = true) : urlHostname i.fallback ≠ some i.hostname := by
  have hcolon : ':' ∉ i.hostname := by
    intro hmem
    rw [Instance.hostText, if_pos hmem] at hhead
    obtain rfl := Option.some.inj hhead
    exact absurd hc (by decide)
  have hhost : i.hostText = i.hostname := if_neg hcolon
  rw [hhost] at hhead
  rw [fallback_eq hhttps, hhost, List.append_assoc]
  cases hrest : (i.hostname ++ (i.portText ++ ['/'])).dropWhile stripped with
  | nil =>
    rw [show urlHostname ("http://".toList ++ []) = none by decide]
    exact (Option.some_ne_none _).symm
  | cons d rest =>
    have hmem : ∀ e ∈ d :: rest, e ∉ ['?', '#', '@', '['] := by
      intro e he hbad
      have hsub : e ∈ i.hostname ++ (i.portText ++ ['/']) :=
        (List.dropWhile_sublist _).subset (hrest ▸ he)
      have hmarks : e ∈ ['/', '?', '#', '@', '[', ']'] := by
        simp only [List.mem_cons, List.not_mem_nil, or_false] at hbad ⊢
        tauto
      rcases List.mem_append.mp hsub with hsub | hsub
      · exact i.canonical.plain e hsub hmarks
      · rcases List.mem_append.mp hsub with hsub | hsub
        · exact notMem_portText i hmarks hsub
        · obtain rfl := List.mem_singleton.mp hsub
          exact absurd hbad (by decide)
    have hd := not_stripped_of_dropWhile hrest
    have hne : d ∉ ['/', '?', '#', ':'] := by
      intro hbad
      have hno := hmem d List.mem_cons_self
      simp only [List.mem_cons, List.not_mem_nil, or_false, not_or] at hbad hno
      obtain rfl | rfl | rfl | rfl := hbad
      · exact absurd hd (by decide)
      · exact hno.1 rfl
      · exact hno.2.1 rfl
      · exact absurd hd (by decide)
    intro h
    obtain ⟨tail, htail⟩ := head_urlHostname "http".toList (by decide)
      (fun e he hbad => hmem e he (by
        simp only [List.mem_cons, List.not_mem_nil, or_false] at hbad ⊢
        tauto)) hne h
    rw [htail] at hhead
    obtain rfl := Option.some.inj hhead
    have hsame : (if d = '%' then d else d.toLower) = d := by
      split
      next => rfl
      next hzone => exact (head_of_stripped hrest).resolve_left hzone
    rw [hsame, hd] at hc
    cases hc

/-! ## Requests -/

theorem reaches_iff (hhttps : i.https = true) :
    i.Reaches ↔ ∀ url, urlTarget (i.fallback ++ relativeUrl url) = i.target := by
  constructor
  · rintro ⟨hport, hhead⟩ url
    obtain ⟨port, hport⟩ := Option.isSome_iff_exists.mp hport
    rw [urlTarget_fallback hhttps fun c hc => decide_eq_false (hhead c hc), Instance.target, hport]
    rfl
  · intro h
    have hbare : urlTarget i.fallback = i.target := by
      have hempty := h []
      rwa [show relativeUrl [] = [] from rfl, List.append_nil] at hempty
    have hhead : ∀ c ∈ i.hostText.head?, c ∉ "https://".toList := fun c hc hmem =>
      urlHostname_fallback_ne hhttps hc (decide_eq_true hmem) (congrArg Prod.fst hbare)
    refine ⟨?_, hhead⟩
    have htarget := urlTarget_fallback hhttps (fun c hc => decide_eq_false (hhead c hc)) []
    rw [List.append_nil, hbare, Instance.target] at htarget
    cases hport : i.port with
    | some port => rfl
    | none =>
      rw [hport, hhttps] at htarget
      exact absurd (show 443 = 80 from congrArg Prod.snd htarget) (by decide)

/-- What is sent and returned for data that can be sent. -/
def Instance.sends (i : Instance) (url : Text) (first second : Attempt J) :
    List Text × Option (Result J) := i.request url none first second

theorem request_cases (i : Instance) (url : Text) (data : Option Data) (first second : Attempt J) :
    i.request url data first second = i.sends url first second ∨
      ∃ e, i.request url data first second = ([], some (false, e, none, none)) := by
  rcases data with _ | _ | _ | type
  · exact Or.inl rfl
  · exact Or.inl rfl
  · exact Or.inl rfl
  · exact Or.inr ⟨_, rfl⟩

theorem clean_of_failure {first second : Attempt J} {sent : List Text} {e : String}
    (htarget : ∀ url ∈ sent, urlTarget url = i.target) :
    Clean i first second (sent, some (false, e, none, none)) where
  target := htarget
  returns := rfl
  success r hr htrue := by
    obtain rfl := Option.some.inj hr
    cases htrue

theorem clean_sends {url : Text} {first second : Attempt J} (h : Smooth i first second) :
    Clean i first second (i.sends url first second) := by
  have hfirst : ∀ u ∈ [i.endpoint ++ relativeUrl url], urlTarget u = i.target := by
    intro u hu
    rw [List.mem_singleton.mp hu]
    exact urlTarget_endpoint i _
  cases first with
  | failure e => exact clean_of_failure hfirst
  | answer status json =>
    obtain ⟨j, rfl⟩ := Option.isSome_iff_exists.mp h
    exact ⟨hfirst, rfl, fun _ _ _ => Or.inl ⟨rfl, trivial⟩⟩
  | connectionError e =>
    by_cases hhttps : i.https = true
    · obtain ⟨hreaches, status, j, rfl⟩ := h hhttps
      have hsends : i.sends url (.connectionError e) (.answer status (some j)) =
          ([i.endpoint ++ relativeUrl url, i.fallback ++ relativeUrl url],
            some (true, "ok", some status, some j)) := if_pos hhttps
      rw [hsends]
      refine ⟨fun u hu => ?_, rfl, fun _ _ _ => Or.inr ⟨rfl, trivial⟩⟩
      rcases List.mem_cons.mp hu with rfl | hu
      · exact urlTarget_endpoint i _
      · rw [List.mem_singleton.mp hu]
        exact (reaches_iff hhttps).mp hreaches url
    · have hsends : i.sends url (.connectionError e) second =
          ([i.endpoint ++ relativeUrl url],
            some (false, "Connection error: " ++ e, none, none)) := if_neg hhttps
      rw [hsends]
      exact clean_of_failure hfirst

theorem smooth_of_clean {first second : Attempt J}
    (h : ∀ url, Clean i first second (i.sends url first second)) : Smooth i first second := by
  cases first with
  | failure e => trivial
  | answer status json =>
    have hreturns := (h []).returns
    cases json with
    | none => cases hreturns
    | some j => rfl
  | connectionError e =>
    intro hhttps
    have hsends : ∀ url, i.sends url (.connectionError e) second =
        ([i.endpoint ++ relativeUrl url, i.fallback ++ relativeUrl url], retried second) :=
      fun url => if_pos hhttps
    refine ⟨(reaches_iff hhttps).mpr fun url => (h url).target _ ?_, ?_⟩
    · rw [hsends]
      exact List.mem_cons_of_mem _ (List.mem_singleton_self _)
    · have hreturns := (h []).returns
      rw [hsends] at hreturns
      cases second with
      | connectionError e => cases hreturns
      | failure e => cases hreturns
      | answer status json =>
        cases json with
        | none => cases hreturns
        | some j => exact ⟨status, j, rfl⟩

/-- **Requests that fail cleanly and go to the right host.** For every endpoint and all outcomes of the
attempts, whatever the request is. -/
theorem clean_iff (i : Instance) (first second : Attempt J) :
    (∀ url data, Clean i first second (i.request url data first second)) ↔ Smooth i first second := by
  constructor
  · exact fun h => smooth_of_clean fun url => h url none
  · intro h url data
    rcases request_cases i url data first second with heq | ⟨e, heq⟩
    · rw [heq]
      exact clean_sends h
    · rw [heq]
      exact clean_of_failure nofun

/-- An instance whose name begins with a character of `https://`. -/
def proxy : Instance where
  https := true
  hostname := "proxy".toList
  port := some 5443
  canonical := ⟨by decide, @of_decide_eq_true _ (List.decidableBAll _ _) rfl, by decide⟩

/-- Its second attempt goes to `roxy`. -/
theorem proxy_fallback_to_roxy :
    ¬ ∀ url data, Clean proxy (.connectionError "") (.answer 200 (some ()))
      (proxy.request url data (.connectionError "") (.answer 200 (some ()))) := by
  intro h
  have htarget := (h [] none).target "http://roxy:5443/".toList (by decide)
  exact absurd (congrArg Prod.fst htarget) (by decide)

end BunkerWeb.Cli
