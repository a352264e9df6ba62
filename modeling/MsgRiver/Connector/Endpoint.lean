import MsgRiver.Connector.Ntfy
import MsgRiver.Connector.Whatsapp
import MsgRiver.Lib.Lines

/-!
# The endpoints of the drivers

`NtfyEndpoint::parse`, `WhatsappEndpoint::parse` and `WhatsappDriver::new_with_additional_root`.
Each text that an endpoint or a driver keeps for the head of its requests passed a check that
refuses CR and LF.
-/

namespace MsgRiver.Connector

open Ascii Text Lines

/-- The parts before and after the last `c`. -/
def rsplitOnce (c : Char) (cs : List Char) : Option (List Char × List Char) :=
  (splitOnce c cs.reverse).map fun parts => (parts.2.reverse, parts.1.reverse)

/-- What the two parsers check first: a scheme, and neither query, fragment, user nor white space.
-/
def authorityAndPath (scheme value : List Char) : Option (List Char) :=
  if scheme.isPrefixOf value then
    let rest := value.drop scheme.length
    if rest.isEmpty || rest.any (fun c => c == '?' || c == '#' || c == '@')
        || rest.any isWhitespace then none
    else some rest
  else none

/-- `is_ascii_control`. -/
def isAsciiControl (byte : UInt8) : Bool := byte < 0x20 || byte == 0x7f

/-- `trim_end_matches('/')`. -/
def trimEndSlashes (cs : List Char) : List Char := (cs.reverse.dropWhile (· == '/')).reverse

/-- `http://host[:port][/path]` on this host; slashes at the end are dropped. -/
def Ntfy.NtfyEndpoint.parse (value : String) : Except DriverError Ntfy.NtfyEndpoint :=
  match authorityAndPath "http://".toList value.toList with
  | none => .error .invalidEndpoint
  | some rest =>
    let (authority, suffix) := (splitOnce '/' rest).getD (rest, [])
    let hostPort := match rsplitOnce ':' authority with
      | some (host, port) =>
        if host.contains ':' then none else (parseUnsigned 65535 port).map fun n => (host, n)
      | none => some (authority, 80)
    match hostPort with
    | none => .error .invalidEndpoint
    | some (host, port) =>
      if host ≠ "127.0.0.1".toList ∧ host ≠ "localhost".toList then .error .invalidEndpoint
      else if suffix.isEmpty then .ok ⟨String.ofList host, UInt16.ofNat port, ""⟩
      else
        let candidate := '/' :: suffix
        if (utf8Bytes (String.ofList candidate)).any (fun byte => isAsciiControl byte || byte == 0x20)
        then .error .invalidEndpoint
        else .ok ⟨String.ofList host, UInt16.ofNat port, String.ofList (trimEndSlashes candidate)⟩

namespace Whatsapp

/-- A host name of at most 253 bytes: letters, digits, dots and hyphens. -/
def validHost (value : String) : Bool :=
  !value.isEmpty && value.utf8ByteSize ≤ 253
    && (utf8Bytes value).all fun byte => isAlphanumeric byte || byte == 0x2e || byte == 0x2d

/-- The first byte is a `v`, so the slice behind it is well formed. -/
def validVersion (value : String) : Bool :=
  2 ≤ value.utf8ByteSize && "v".toList.isPrefixOf value.toList
    && ((utf8Bytes value).drop 1).all fun byte => Ascii.isDigit byte || byte == 0x2e

/-- A phone number id of at most 32 digits. -/
def validPhoneId (value : String) : Bool :=
  !value.isEmpty && value.utf8ByteSize ≤ 32 && (utf8Bytes value).all Ascii.isDigit

/-- An access token of at most 4096 visible bytes. -/
def validToken (value : String) : Bool :=
  !value.isEmpty && value.utf8ByteSize ≤ 4096
    && (utf8Bytes value).all fun byte => 0x21 ≤ byte && byte ≤ 0x7e

/-- `https://host[:port]/version`, together with the phone number id. -/
def WhatsappEndpoint.parse (url phoneId : String) : Except DriverError WhatsappEndpoint :=
  match authorityAndPath "https://".toList url.toList with
  | none => .error .invalidEndpoint
  | some rest =>
    if !validPhoneId phoneId then .error .invalidEndpoint
    else
      match splitOnce '/' rest with
      | none => .error .invalidEndpoint
      | some (authority, path) =>
        let hostPort := match rsplitOnce ':' authority with
          | some (host, port) =>
            if host.isEmpty || host.contains ':' then none
            else (parseUnsigned 65535 port).map fun n => (host, n)
          | none => some (authority, 443)
        match hostPort with
        | none => .error .invalidEndpoint
        | some (host, port) =>
          if !validHost (String.ofList host) || !validVersion (String.ofList path) then
            .error .invalidEndpoint
          else .ok ⟨String.ofList host, UInt16.ofNat port, String.ofList path, phoneId⟩

/-- `trusts` tells which certificates can be added to the trust anchors.  The driver keeps the
additional one for its TLS connections only. -/
def WhatsappDriver.newWithAdditionalRoot (trusts : List UInt8 → Bool) (endpoint : WhatsappEndpoint)
    (token : String) (registration : TemplateRegistration) (additionalRoot : Option (List UInt8)) :
    Except DriverError WhatsappDriver :=
  if !validToken token || !validTemplate registration.name || !validLocale registration.locale
      || maxParameters < registration.parameterCount
      || additionalRoot.any (fun certificate =>
          certificate.isEmpty || 32 * 1024 < certificate.length) then .error .invalidEndpoint
  else if additionalRoot.any (fun certificate => !trusts certificate) then .error .invalidEndpoint
  else .ok ⟨endpoint, token, registration⟩

end Whatsapp

/-! ### What is kept has no line breaks -/

theorem isWhitespace_lineBreak : isWhitespace '\r' = true ∧ isWhitespace '\n' = true := by decide

theorem authorityAndPath_unbroken {scheme value rest : List Char}
    (h : authorityAndPath scheme value = some rest) : '\r' ∉ rest ∧ '\n' ∉ rest := by
  unfold authorityAndPath at h
  dsimp only at h
  split_ifs at h with hscheme hcheck
  obtain rfl := Option.some.inj h
  simp only [Bool.or_eq_true, not_or, List.any_eq_true, not_exists, not_and] at hcheck
  exact ⟨fun hmem => hcheck.2 '\r' hmem isWhitespace_lineBreak.1,
    fun hmem => hcheck.2 '\n' hmem isWhitespace_lineBreak.2⟩

theorem mem_of_mem_trimEndSlashes {c : Char} {cs : List Char} (h : c ∈ trimEndSlashes cs) :
    c ∈ cs := by
  rw [trimEndSlashes, List.mem_reverse] at h
  exact List.mem_reverse.1 ((List.dropWhile_sublist _).subset h)

/-- The part behind the first slash is a part of the whole. -/
theorem mem_of_mem_suffix {c d : Char} {rest : List Char}
    (h : d ∈ ((splitOnce c rest).getD (rest, [])).2) : d ∈ rest := by
  cases hparts : splitOnce c rest with
  | none =>
    rw [hparts] at h
    cases h
  | some parts =>
    obtain ⟨xs, ys⟩ := parts
    rw [hparts] at h
    rw [(splitOnce_eq_some hparts).2]
    exact List.mem_append_right _ (List.mem_cons_of_mem _ h)

theorem Ntfy.unbroken_parse {value : String} {endpoint : Ntfy.NtfyEndpoint}
    (h : Ntfy.NtfyEndpoint.parse value = .ok endpoint) :
    Unbroken endpoint.host ∧ Unbroken endpoint.pathPrefix := by
  unfold Ntfy.NtfyEndpoint.parse at h
  split at h
  · cases h
  · next rest hrest =>
    obtain ⟨hcr, hlf⟩ := authorityAndPath_unbroken hrest
    dsimp only at h
    split at h
    · cases h
    · next host port _ =>
      split_ifs at h with hlocal hempty hcontrol
      all_goals
        have hhost : Unbroken (String.ofList host) := by
          rw [not_and_or, not_not, not_not] at hlocal
          unfold Unbroken
          rw [String.toList_ofList]
          rcases hlocal with rfl | rfl <;> decide +kernel
        obtain rfl := Except.ok.inj h
        refine ⟨hhost, ?_⟩
      · exact ⟨List.not_mem_nil, List.not_mem_nil⟩
      · unfold Unbroken
        rw [String.toList_ofList]
        constructor
        · intro hmem
          rcases List.mem_cons.1 (mem_of_mem_trimEndSlashes hmem) with hslash | hsuffix
          · cases hslash
          · exact hcr (mem_of_mem_suffix hsuffix)
        · intro hmem
          rcases List.mem_cons.1 (mem_of_mem_trimEndSlashes hmem) with hslash | hsuffix
          · cases hslash
          · exact hlf (mem_of_mem_suffix hsuffix)

namespace Whatsapp

theorem unbroken_host {value : String} (h : validHost value = true) : Unbroken value := by
  simp only [validHost, Bool.and_eq_true] at h
  exact unbroken_of_all h.2 (by decide) (by decide)

theorem unbroken_phoneId {value : String} (h : validPhoneId value = true) : Unbroken value := by
  simp only [validPhoneId, Bool.and_eq_true] at h
  exact unbroken_of_all h.2 (by decide) (by decide)

theorem unbroken_token {value : String} (h : validToken value = true) : Unbroken value := by
  simp only [validToken, Bool.and_eq_true] at h
  exact unbroken_of_all h.2 (by decide) (by decide)

theorem unbroken_version {value : String} (h : validVersion value = true) : Unbroken value := by
  simp only [validVersion, Bool.and_eq_true] at h
  obtain ⟨cs, hcs⟩ := List.isPrefixOf_iff_prefix.1 h.1.2
  have hvalue : value = "v" ++ String.ofList cs := by
    rw [← String.toList_inj, String.toList_append, @String.toList_ofList cs, hcs]
  have hbytes : utf8Bytes value = 0x76 :: utf8Bytes (String.ofList cs) := by
    rw [hvalue, utf8Bytes_append]
    rfl
  have hrest := h.2
  rw [hbytes, List.drop_succ_cons, List.drop_zero] at hrest
  rw [hvalue]
  exact unbroken_append (by decide +kernel)
    (unbroken_of_all hrest (by decide) (by decide))

theorem unbroken_parse {url phoneId : String} {endpoint : WhatsappEndpoint}
    (h : WhatsappEndpoint.parse url phoneId = .ok endpoint) :
    Unbroken endpoint.host ∧ Unbroken endpoint.version ∧ Unbroken endpoint.phoneId := by
  unfold WhatsappEndpoint.parse at h
  split at h
  · cases h
  · split_ifs at h with hphone
    split at h
    · cases h
    · dsimp only at h
      split at h
      · cases h
      · split_ifs at h with hcheck
        obtain rfl := Except.ok.inj h
        simp only [Bool.or_eq_true, Bool.not_eq_true', not_or, Bool.not_eq_false] at hcheck hphone
        exact ⟨unbroken_host hcheck.1, unbroken_version hcheck.2, unbroken_phoneId hphone⟩

theorem newWithAdditionalRoot_eq_ok {trusts : List UInt8 → Bool} {endpoint : WhatsappEndpoint}
    {token : String} {registration : TemplateRegistration} {root : Option (List UInt8)}
    {driver : WhatsappDriver}
    (h : WhatsappDriver.newWithAdditionalRoot trusts endpoint token registration root = .ok driver) :
    driver = ⟨endpoint, token, registration⟩ ∧ validToken token = true ∧
      validTemplate registration.name = true ∧ validLocale registration.locale = true ∧
      registration.parameterCount ≤ maxParameters := by
  unfold WhatsappDriver.newWithAdditionalRoot at h
  split_ifs at h with hcheck
  obtain rfl := Except.ok.inj h
  simp only [Bool.or_eq_true, Bool.not_eq_true', not_or, Bool.not_eq_false, decide_eq_true_eq,
    Nat.not_lt] at hcheck
  obtain ⟨⟨⟨⟨htoken, hname⟩, hlocale⟩, hcount⟩, -⟩ := hcheck
  exact ⟨rfl, htoken, hname, hlocale, hcount⟩

end Whatsapp

end MsgRiver.Connector
