import BunkerWeb.LetsEncrypt.Issuance
import BunkerWeb.LetsEncrypt.ServiceConfig

/-!
# What the job reads back from a renewal file

Everything that is compared comes back as it was asked for (`existingOf_issued`), except that a
certificate of route53 has no line with its credentials (`credentialsHash_issued`). The path of a
file with credentials tells the digits of their hash and the type of the file
(`credentialsPath_inj`).
-/

namespace BunkerWeb.LetsEncrypt.CertbotNew

open Lib

/-! ## Lines -/

theorem capture_eq {value : Text} (hne : value ≠ []) (h : ∀ c ∈ value, isSpace c = false) :
    capture value = some value :=
  if_pos ⟨hne, List.any_eq_false.mpr fun c hc => Bool.eq_false_iff.mp (h c hc)⟩

theorem of_capture {value word : Text} (h : capture value = some word) : word = value := by
  unfold capture at h
  split at h
  · exact (Option.some.inj h).symm
  · cases h

theorem readLine_self (key value : Text) (renewal : List (Text × Text)) :
    readLine ((key, value) :: renewal) key = (capture value).or (readLine renewal key) := by
  unfold readLine
  rw [List.filter_cons_of_pos (by simp)]
  cases hc : capture value with
  | none => rw [List.findSome?_cons_of_isNone (by simp [hc]), Option.none_or]
  | some word => rw [List.findSome?_cons, hc, Option.some_or]

theorem readLine_of_ne {key key' : Text} (h : key' ≠ key) {value : Text}
    {renewal : List (Text × Text)} :
    readLine ((key', value) :: renewal) key = readLine renewal key := by
  unfold readLine
  rw [List.filter_cons_of_neg (by simpa using h)]

/-- No other key of a renewal file looks like the one of the credentials. -/
theorem credentialsKey_ne {key : Text} (h : key.head? ≠ some 'd') (authenticator : Text) :
    credentialsKey authenticator ≠ key := by
  rintro rfl
  exact h rfl

theorem credentialsKey_inj {a a' : Text} (h : credentialsKey a = credentialsKey a') : a = a' := by
  unfold credentialsKey at h
  exact List.append_cancel_left (List.append_cancel_right h)

/-- The text of a provider is read back from the name of its plugin. -/
theorem read_plugin : ∀ a ∈ providers,
    capture ("dns-".toList ++ a) = some ("dns-".toList ++ a) ∧
      removeAll "dns-".toList 0 ("dns-".toList ++ a) = a := by
  decide

theorem read_challenge : ∀ challenge ∈ challengeTypes,
    (capture (challenge ++ "-01,".toList)).map (fun value =>
      removeAll "-01".toList 0 (value.takeWhile (· ≠ ','))) = some challenge := by
  decide

theorem read_server (server : Text) (staging : Bool) (h : server = zerossl → staging = false) :
    capture (getExpectedAcmeDirectory server staging) =
        some (getExpectedAcmeDirectory server staging) ∧
      decide ("acme-staging".toList <:+: getExpectedAcmeDirectory server staging) = staging ∧
      normalizeServerUrl (normalizeServerUrl (getExpectedAcmeDirectory server staging)) =
        normalizeServerUrl (getExpectedAcmeDirectory server staging) := by
  unfold getExpectedAcmeDirectory
  by_cases hserver : server = zerossl
  · rw [if_pos hserver, h hserver]
    decide
  · rw [if_neg hserver]
    cases staging <;> decide

/-! ## Paths -/

theorem hexDigit_inj {d d' : Fin 16} (h : hexDigit d = hexDigit d') : d = d' := by
  have hall : ∀ d d' : Fin 16, hexDigit d = hexDigit d' → d = d' := by decide
  exact hall d d' h

theorem hexDigit_spec (d : Fin 16) : hexDigit d ≠ '.' ∧ isSpace (hexDigit d) = false := by
  have hall : ∀ d : Fin 16, hexDigit d ≠ '.' ∧ isSpace (hexDigit d) = false := by decide
  exact hall d

section

variable {sha256 : Bytes → Digest}

theorem credentialsPath_eq_iff {a a' : Text} {c c' : Bytes} :
    credentialsPath sha256 a c = credentialsPath sha256 a' c' ↔
      (sha256 c).take 12 = (sha256 c').take 12 ∧ fileType a = fileType a' := by
  have hdot : ∀ c, '.' ∉ ((sha256 c).take 12).map hexDigit := by
    intro c hmem
    obtain ⟨d, -, hd⟩ := List.mem_map.mp hmem
    exact (hexDigit_spec d).1 hd
  unfold credentialsPath
  rw [List.append_assoc, List.append_assoc, List.append_cancel_left_eq]
  constructor
  · intro h
    obtain ⟨hdigits, htype⟩ := append_sep_inj (hdot c) (hdot c') h
    exact ⟨List.map_injective_iff.mpr (fun _ _ => hexDigit_inj) hdigits, htype⟩
  · rintro ⟨hdigits, htype⟩
    rw [hdigits, htype]

theorem capture_credentialsPath (a : Text) (c : Bytes) :
    capture (credentialsPath sha256 a c) = some (credentialsPath sha256 a c) := by
  have htype : (fileType a).any isSpace = false := by
    unfold fileType
    split
    · decide
    · split <;> decide
  have hprefix : credentialsPrefix.any isSpace = false := by decide
  refine capture_eq (List.append_ne_nil_of_right_ne_nil _ (List.cons_ne_nil _ _)) fun x hx => ?_
  simp only [credentialsPath, List.mem_append, List.mem_cons, List.mem_map] at hx
  rcases hx with (hx | ⟨d, -, rfl⟩) | rfl | hx
  · exact Bool.eq_false_iff.mpr (List.any_eq_false.mp hprefix x hx)
  · exact (hexDigit_spec d).2
  · decide
  · exact Bool.eq_false_iff.mpr (List.any_eq_false.mp htype x hx)

/-! ## The names -/

/-- The names come back from certbot's list as the same set. -/
theorem normalizeServerNames_parse (serverNames : Text) :
    normalizeServerNames (parseCertbotDomains (fields (· = ',') serverNames)) =
      normalizeServerNames serverNames := by
  have hsep : ∀ c : Char, isSpace (if c = ',' then ' ' else c) =
      (decide (c = ',') || isSpace c) := by
    intro c
    by_cases hc : c = ','
    · subst hc
      decide
    · simp [hc]
  have hmap : ∀ text : Text, fields isSpace (text.map fun c => if c = ',' then ' ' else c) =
      fields (fun c => decide (c = ',') || isSpace c) text := by
    intro text
    have hcases : ∀ c : Char, isSpace (if c = ',' then ' ' else c) = true ∨
        (if c = ',' then ' ' else c) = c := by
      intro c
      by_cases hc : c = ','
      · exact .inl (by rw [if_pos hc]; decide)
      · exact .inr (if_neg hc)
    rw [fields_map hcases]
    exact fields_congr fun c _ => hsep c
  have hparse : fields isSpace ((parseCertbotDomains (fields (· = ',') serverNames)).map
        fun c => if c = ',' then ' ' else c) =
      fields isSpace (serverNames.map fun c => if c = ',' then ' ' else c) := by
    have hself : ∀ w ∈ fields (fun c => decide (c = ',') || isSpace c) serverNames,
        fields (fun c => decide (c = ',') || isSpace c) w = [w] := fun w hw =>
      fields_eq_singleton (ne_nil_of_mem_fields hw) fun c hc => not_sep_of_mem_fields hw hc
    rw [hmap, hmap, parseCertbotDomains, fields_intercalate (by decide),
      fields_intercalate (by decide), flatMap_fields, List.flatMap_congr hself]
    exact List.flatMap_singleton' _
  unfold normalizeServerNames
  simp only [hparse]

/-! ## A certificate that was issued -/

/-- The line with the credentials. -/
def credentialsLine (sha256 : Bytes → Digest) (config : Config) : List (Text × Text) :=
  if config.challenge = dns ∧ config.authenticator ≠ route53 then
    (config.provider.map fun credentials => (credentialsKey config.authenticator,
      credentialsPath sha256 config.authenticator credentials)).toList
  else []

variable {config : Config}

theorem readLine_credentialsLine_of_head {key : Text} (h : key.head? ≠ some 'd') :
    readLine (credentialsLine sha256 config) key = none := by
  unfold credentialsLine
  split
  · cases config.provider with
    | none => rfl
    | some credentials =>
      rw [Option.map_some, Option.toList_some, readLine_of_ne (credentialsKey_ne h _)]
      rfl
  · rfl

theorem renewalOf_eq (config : Config) : renewalOf sha256 config =
    (authenticatorKey,
        if config.challenge = dns then "dns-".toList ++ config.authenticator else manual) ::
      (serverKey, config.acmeServerUrl) ::
      (prefChallsKey, config.challenge ++ "-01,".toList) ::
      (preferredProfileKey, config.profile) :: credentialsLine sha256 config := rfl

/-- The four lines that every certificate has. -/
theorem readLine_renewalOf (config : Config) :
    readLine (renewalOf sha256 config) authenticatorKey =
        capture (if config.challenge = dns then "dns-".toList ++ config.authenticator
          else manual) ∧
      readLine (renewalOf sha256 config) serverKey = capture config.acmeServerUrl ∧
      readLine (renewalOf sha256 config) prefChallsKey =
        capture (config.challenge ++ "-01,".toList) ∧
      readLine (renewalOf sha256 config) preferredProfileKey = capture config.profile := by
  have hnone : ∀ {key : Text}, key.head? ≠ some 'd' →
      readLine (credentialsLine sha256 config) key = none := readLine_credentialsLine_of_head
  rw [renewalOf_eq]
  refine ⟨?_, ?_, ?_, ?_⟩
  · rw [readLine_self, readLine_of_ne (by decide), readLine_of_ne (by decide),
      readLine_of_ne (by decide), hnone (by decide), Option.or_none]
  · rw [readLine_of_ne (by decide), readLine_self, readLine_of_ne (by decide),
      readLine_of_ne (by decide), hnone (by decide), Option.or_none]
  · rw [readLine_of_ne (by decide), readLine_of_ne (by decide), readLine_self,
      readLine_of_ne (by decide), hnone (by decide), Option.or_none]
  · rw [readLine_of_ne (by decide), readLine_of_ne (by decide), readLine_of_ne (by decide),
      readLine_self, hnone (by decide), Option.or_none]

theorem readLine_credentials (config : Config) (authenticator : Text) :
    readLine (renewalOf sha256 config) (credentialsKey authenticator) =
      if config.challenge = dns ∧ config.authenticator ≠ route53 ∧
          config.authenticator = authenticator then
        config.provider.map (credentialsPath sha256 config.authenticator)
      else none := by
  have hkeys : ∀ key : Text, key.head? ≠ some 'd' → ¬ key = credentialsKey authenticator :=
    fun key h heq => credentialsKey_ne h authenticator heq.symm
  rw [renewalOf_eq, readLine_of_ne (hkeys _ (by decide)), readLine_of_ne (hkeys _ (by decide)),
    readLine_of_ne (hkeys _ (by decide)), readLine_of_ne (hkeys _ (by decide)), credentialsLine]
  by_cases hdns : config.challenge = dns ∧ config.authenticator ≠ route53
  · rw [if_pos hdns]
    cases config.provider with
    | none => exact (ite_self _).symm
    | some credentials =>
      rw [Option.map_some, Option.toList_some]
      by_cases ha : config.authenticator = authenticator
      · rw [if_pos ⟨hdns.1, hdns.2, ha⟩, ← ha, readLine_self, capture_credentialsPath]
        rfl
      · rw [readLine_of_ne fun h => ha (credentialsKey_inj h), if_neg fun h => ha h.2.2]
        rfl
  · rw [if_neg hdns, if_neg fun h => hdns ⟨h.1, h.2.1⟩]
    rfl

/-- The authenticator of a certificate that was asked for. -/
theorem read_authenticator (hconfig : IsConfig config) (hactivated : config.activated) :
    (capture (if config.challenge = dns then "dns-".toList ++ config.authenticator
      else manual)).map (removeAll "dns-".toList 0) = some config.authenticator := by
  by_cases hdns : config.challenge = dns
  · obtain ⟨hcapture, hread⟩ := read_plugin _ (hconfig.provider hactivated hdns).1
    rw [if_pos hdns, hcapture, Option.map_some, hread]
  · rw [if_neg hdns, (hconfig.notDns hdns).1]
    decide

variable (files : Dict Text Bytes)

/-- Everything but the credentials is read back. -/
theorem existingOf_issued (hconfig : IsConfig config) (hactivated : config.activated)
    (hprofile : config.profile ≠ [] ∧ ∀ c ∈ config.profile, isSpace c = false) :
    existingOf sha256 files ⟨fields (· = ',') config.serverNames, renewalOf sha256 config⟩ =
      { serverNames := normalizeServerNames config.serverNames
        challenge := config.challenge
        authenticator := config.authenticator
        credentialsHash :=
          (readLine (renewalOf sha256 config) (credentialsKey config.authenticator)).bind
            fun path => (files.lookup path).map sha256
        staging := config.staging
        profile := config.profile
        acmeServerUrl := normalizeServerUrl config.acmeServerUrl } := by
  obtain ⟨hauthenticator, hserver, hchallenge, hprofileLine⟩ :=
    @readLine_renewalOf sha256 config
  obtain ⟨hcapture, hstaging, -⟩ :=
    read_server config.acmeServer config.staging hconfig.server.2
  rw [← hconfig.server.1] at hcapture hstaging
  simp only [existingOf, hauthenticator, hserver, hchallenge, hprofileLine,
    read_authenticator hconfig hactivated, read_challenge _ (hconfig.challenge hactivated),
    hcapture, hstaging, capture_eq hprofile.1 hprofile.2, normalizeServerNames_parse,
    Option.getD_some]

/-- The hash of the credentials is known, except for route53. -/
theorem credentialsHash_issued {credentials : Bytes} (hdns : config.challenge = dns)
    (hprovider : config.provider = some credentials) :
    (readLine (renewalOf sha256 config) (credentialsKey config.authenticator)).bind
        (fun path => (files.lookup path).map sha256) =
      if config.authenticator = route53 then none
      else (files.lookup (credentialsPath sha256 config.authenticator credentials)).map sha256 := by
  rw [readLine_credentials, hprovider]
  by_cases hroute : config.authenticator = route53
  · rw [if_pos hroute, if_neg fun h => h.2.1 hroute]
    rfl
  · rw [if_neg hroute, if_pos ⟨hdns, hroute, rfl⟩]
    rfl

end

end BunkerWeb.LetsEncrypt.CertbotNew
