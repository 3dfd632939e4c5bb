/-
`config.py`: the configuration of a client, and the one of `with_options()`.

`resolveConfig` applies the defaults, and `mergeClientConfig` turns a resolved configuration back
into one to be validated and resolved again.  A configuration comes back as it was exactly if the
trimmed API key is still long enough and the URL of the socket is not made of slashes alone
(`roundTrips_iff`).
-/
import SpooledSdk.Dict
import SpooledSdk.Http.CircuitBreaker
import SpooledSdk.Text

namespace SpooledSdk

open Text

namespace Config

/-! ### Configurations -/

structure RetryConfig where
  maxRetries : ℕ := 3
  baseDelay : ℚ := 1
  maxDelay : ℚ := 30
  factor : ℚ := 2
  jitter : Bool := true
  maxRetries_le : maxRetries ≤ 10 := by decide
  baseDelay_pos : 0 < baseDelay := by decide
  maxDelay_pos : 0 < maxDelay := by decide
  one_lt_factor : 1 < factor := by decide

/-- The fields of `SpooledClientConfig`, before they are checked. -/
structure ConfigFields where
  apiKey : Option String
  accessToken : Option String
  refreshToken : Option String
  adminKey : Option String
  baseUrl : String
  wsUrl : Option String
  grpcAddress : String
  timeout : ℚ
  connectTimeout : ℚ
  retry : RetryConfig
  circuitBreaker : Http.CircuitBreakerConfig ℚ
  headers : Dict String String
  userAgent : String
  autoRefreshToken : Bool
  debug : Bool

/-- What the fields check: `min_length` of the API key, and `gt` of the timeouts. -/
def ConfigFields.Valid (fields : ConfigFields) : Prop :=
  (∀ key ∈ fields.apiKey, 10 ≤ key.length) ∧ 0 < fields.timeout ∧ 0 < fields.connectTimeout

instance (fields : ConfigFields) : Decidable fields.Valid :=
  inferInstanceAs (Decidable (_ ∧ _ ∧ _))

structure SpooledClientConfig extends ConfigFields where
  valid : toConfigFields.Valid

/-- `SpooledClientConfig(**fields)`, if the fields pass their checks. -/
def ConfigFields.validate (fields : ConfigFields) : Option SpooledClientConfig :=
  if h : fields.Valid then some ⟨fields, h⟩ else none

/-- The URL that `get_ws_url` derives from the base URL. -/
def convertUrl (baseUrl : String) : String :=
  if "https://".toList.isPrefixOf baseUrl.toList then replace "https://" "wss://" baseUrl
  else replace "http://" "ws://" baseUrl

/-- `get_ws_url` -/
def ConfigFields.getWsUrl (config : ConfigFields) : String :=
  match config.wsUrl with
  | some url => if url = "" then convertUrl config.baseUrl else url
  | none => convertUrl config.baseUrl

structure ResolvedConfig where
  apiKey : Option String
  accessToken : Option String
  refreshToken : Option String
  adminKey : Option String
  baseUrl : String
  wsUrl : String
  grpcAddress : String
  timeout : ℚ
  connectTimeout : ℚ
  retry : RetryConfig
  circuitBreaker : Http.CircuitBreakerConfig ℚ
  headers : Dict String String
  userAgent : String
  autoRefreshToken : Bool
  /-- Whether there is a `debug_fn`. -/
  debugFn : Bool

/-- `_normalize_credential` -/
def normalizeCredential (value : Option String) : Option String :=
  value.bind fun value => if strip value = "" then none else some (strip value)

/-- `resolve_config` -/
def resolveConfig (config : SpooledClientConfig) : ResolvedConfig where
  apiKey := normalizeCredential config.apiKey
  accessToken := normalizeCredential config.accessToken
  refreshToken := normalizeCredential config.refreshToken
  adminKey := normalizeCredential config.adminKey
  baseUrl := rstrip config.baseUrl
  wsUrl := rstrip config.getWsUrl
  grpcAddress := config.grpcAddress
  timeout := config.timeout
  connectTimeout := config.connectTimeout
  retry := config.retry
  circuitBreaker := config.circuitBreaker
  headers := config.headers
  userAgent := config.userAgent
  autoRefreshToken := config.autoRefreshToken
  debugFn := config.debug

/-! ### `with_options` -/

/-- An override that is not `None`. -/
inductive Override
  | apiKey (value : String)
  | accessToken (value : String)
  | refreshToken (value : String)
  | adminKey (value : String)
  | baseUrl (value : String)
  | wsUrl (value : String)
  | grpcAddress (value : String)
  | timeout (value : ℚ)
  | connectTimeout (value : ℚ)
  | retry (value : RetryConfig)
  | circuitBreaker (value : Http.CircuitBreakerConfig ℚ)
  | headers (value : Dict String String)
  | userAgent (value : String)
  | autoRefreshToken (value : Bool)
  | debug (value : Bool)

def ConfigFields.update (fields : ConfigFields) : Override → ConfigFields
  | .apiKey value => { fields with apiKey := some value }
  | .accessToken value => { fields with accessToken := some value }
  | .refreshToken value => { fields with refreshToken := some value }
  | .adminKey value => { fields with adminKey := some value }
  | .baseUrl value => { fields with baseUrl := value }
  | .wsUrl value => { fields with wsUrl := some value }
  | .grpcAddress value => { fields with grpcAddress := value }
  | .timeout value => { fields with timeout := value }
  | .connectTimeout value => { fields with connectTimeout := value }
  | .retry value => { fields with retry := value }
  | .circuitBreaker value => { fields with circuitBreaker := value }
  | .headers value => { fields with headers := value }
  | .userAgent value => { fields with userAgent := value }
  | .autoRefreshToken value => { fields with autoRefreshToken := value }
  | .debug value => { fields with debug := value }

/-- `SpooledClientConfig(base_url=baseUrl).get_ws_url().rstrip("/")` -/
def derivedWsUrl (baseUrl : String) : String := rstrip (convertUrl baseUrl)

/-- `merged`, before the overrides. -/
def mergedFields (current : ResolvedConfig) : ConfigFields where
  apiKey := current.apiKey
  accessToken := current.accessToken
  refreshToken := current.refreshToken
  adminKey := current.adminKey
  baseUrl := current.baseUrl
  -- a URL that was only derived is derived again
  wsUrl := if current.wsUrl = derivedWsUrl current.baseUrl then none else some current.wsUrl
  grpcAddress := current.grpcAddress
  timeout := current.timeout
  connectTimeout := current.connectTimeout
  retry := current.retry
  circuitBreaker := current.circuitBreaker
  headers := current.headers
  userAgent := current.userAgent
  autoRefreshToken := current.autoRefreshToken
  debug := current.debugFn

/-- `merge_client_config` -/
def mergeClientConfig (current : ResolvedConfig) (overrides : List Override) :
    Option SpooledClientConfig :=
  (overrides.foldl ConfigFields.update (mergedFields current)).validate

/-! ### The statement -/

/-- An override that its own field accepts. -/
def Override.Valid : Override → Prop
  | .apiKey value => 10 ≤ value.length
  | .timeout value | .connectTimeout value => 0 < value
  | _ => True

/-- The configuration with one field overridden, normalised as resolving does: an empty URL of
the socket stands for the derived one. -/
def ResolvedConfig.override (r : ResolvedConfig) : Override → ResolvedConfig
  | .apiKey value => { r with apiKey := normalizeCredential (some value) }
  | .accessToken value => { r with accessToken := normalizeCredential (some value) }
  | .refreshToken value => { r with refreshToken := normalizeCredential (some value) }
  | .adminKey value => { r with adminKey := normalizeCredential (some value) }
  | .baseUrl value => { r with
      baseUrl := rstrip value
      wsUrl := if r.wsUrl = derivedWsUrl r.baseUrl then derivedWsUrl value else r.wsUrl }
  | .wsUrl value => { r with
      wsUrl := if value = "" then derivedWsUrl r.baseUrl else rstrip value }
  | .grpcAddress value => { r with grpcAddress := value }
  | .timeout value => { r with timeout := value }
  | .connectTimeout value => { r with connectTimeout := value }
  | .retry value => { r with retry := value }
  | .circuitBreaker value => { r with circuitBreaker := value }
  | .headers value => { r with headers := value }
  | .userAgent value => { r with userAgent := value }
  | .autoRefreshToken value => { r with autoRefreshToken := value }
  | .debug value => { r with debugFn := value }

/-- A configuration that `with_options()` brings back, and of which it changes what it is asked
to. -/
def RoundTrips (config : SpooledClientConfig) : Prop :=
  (mergeClientConfig (resolveConfig config) []).map resolveConfig = some (resolveConfig config) ∧
  ∀ o : Override, o.Valid →
    (mergeClientConfig (resolveConfig config) [o]).map resolveConfig =
      some ((resolveConfig config).override o)

/-- The API key stays long enough without its spaces, and an explicit URL of the socket is not
made of slashes alone, unless the base URL is. -/
def Survives (config : SpooledClientConfig) : Prop :=
  (∀ key ∈ normalizeCredential config.apiKey, 10 ≤ key.length) ∧
  ∀ url ∈ config.wsUrl, url ≠ "" → rstrip url = "" → rstrip config.baseUrl = ""

/-! ### Texts that are normalised already -/

theorem normalizeCredential_idem (value : Option String) :
    normalizeCredential (normalizeCredential value) = normalizeCredential value := by
  cases value with
  | none => rfl
  | some value =>
    rw [normalizeCredential, normalizeCredential, Option.bind_some]
    split
    · rfl
    · rename_i hne
      rw [Option.bind_some, strip_strip, if_neg hne]

/-- The URL of a socket is made of slashes exactly if the base URL is. -/
theorem derivedWsUrl_eq_empty {baseUrl : String} :
    derivedWsUrl baseUrl = "" ↔ rstrip baseUrl = "" := by
  have hreplace : ∀ old new : List Char, (∃ c ∈ old, c ≠ '/') → (∃ c ∈ new, c ≠ '/') →
      ((∀ c ∈ replaceFuel old new baseUrl.toList.length baseUrl.toList, c = '/') ↔
        ∀ c ∈ baseUrl.toList, c = '/') := fun old new hold hnew => mem_replaceFuel hold hnew
  rw [derivedWsUrl, rstrip_eq_empty, rstrip_eq_empty, convertUrl]
  split
  · rw [replace, String.toList_ofList]
    exact hreplace _ _ ⟨'h', by decide, by decide⟩ ⟨'w', by decide, by decide⟩
  · rw [replace, String.toList_ofList]
    exact hreplace _ _ ⟨'h', by decide, by decide⟩ ⟨'w', by decide, by decide⟩

/-! ### Resolving again -/

variable {config : SpooledClientConfig}

theorem map_resolveConfig_validate {fields : ConfigFields} (h : fields.Valid) :
    fields.validate.map resolveConfig = some (resolveConfig ⟨fields, h⟩) := by
  rw [ConfigFields.validate, dif_pos h]
  rfl

theorem valid_mergedFields : (mergedFields (resolveConfig config)).Valid ↔
    ∀ key ∈ normalizeCredential config.apiKey, 10 ≤ key.length :=
  ⟨fun h => h.1, fun h => ⟨h, config.valid.2⟩⟩

theorem getWsUrl_eq (fields : ConfigFields) :
    rstrip fields.getWsUrl =
      match fields.wsUrl with
      | some url => if url = "" then derivedWsUrl fields.baseUrl else rstrip url
      | none => derivedWsUrl fields.baseUrl := by
  rw [ConfigFields.getWsUrl]
  cases fields.wsUrl with
  | none => rfl
  | some url =>
    by_cases h : url = ""
    · simp only [if_pos h]
      rfl
    · simp only [if_neg h]

-- from here on only the facts above are used of the URLs
attribute [irreducible] convertUrl derivedWsUrl

/-- The URL of the socket, resolved again over some base URL. -/
theorem rstrip_getWsUrl_merged {r : ResolvedConfig} (hstrip : rstrip r.wsUrl = r.wsUrl)
    (baseUrl : String) :
    rstrip ({ mergedFields r with baseUrl := baseUrl }).getWsUrl =
      if r.wsUrl = derivedWsUrl r.baseUrl ∨ r.wsUrl = "" then derivedWsUrl baseUrl
      else r.wsUrl := by
  rw [getWsUrl_eq]
  by_cases hderived : r.wsUrl = derivedWsUrl r.baseUrl
  · have hmerged : (mergedFields r).wsUrl = none := if_pos hderived
    rw [if_pos (.inl hderived)]
    simp only [hmerged]
  · have hmerged : (mergedFields r).wsUrl = some r.wsUrl := if_neg hderived
    simp only [hmerged]
    by_cases hempty : r.wsUrl = ""
    · rw [if_pos hempty, if_pos (.inr hempty)]
    · rw [if_neg (not_or.mpr ⟨hderived, hempty⟩), if_neg hempty, hstrip]

theorem getWsUrl_merged_iff {r : ResolvedConfig} (hstrip : rstrip r.wsUrl = r.wsUrl) :
    rstrip (mergedFields r).getWsUrl = r.wsUrl ↔
      (r.wsUrl = "" → r.wsUrl = derivedWsUrl r.baseUrl) := by
  have hmerged : rstrip (mergedFields r).getWsUrl = _ := rstrip_getWsUrl_merged hstrip r.baseUrl
  rw [hmerged]
  constructor
  · intro h hempty
    rw [if_pos (.inr hempty)] at h
    exact h.symm
  · intro h
    by_cases hderived : r.wsUrl = derivedWsUrl r.baseUrl
    · rw [if_pos (.inl hderived), ← hderived]
    · rw [if_neg (not_or.mpr ⟨hderived, mt h hderived⟩)]

/-- The second half of `Survives`, on the resolved configuration. -/
theorem wsUrl_survives_iff :
    (∀ url ∈ config.wsUrl, url ≠ "" → rstrip url = "" → rstrip config.baseUrl = "") ↔
      ((resolveConfig config).wsUrl = "" →
        (resolveConfig config).wsUrl = derivedWsUrl (resolveConfig config).baseUrl) := by
  have hbase : derivedWsUrl (resolveConfig config).baseUrl = "" ↔ rstrip config.baseUrl = "" := by
    rw [derivedWsUrl_eq_empty]
    show rstrip (rstrip config.baseUrl) = "" ↔ _
    rw [rstrip_rstrip]
  have hderived : (resolveConfig config).wsUrl = rstrip config.getWsUrl := rfl
  rw [getWsUrl_eq] at hderived
  constructor
  · intro h hempty
    rw [hempty]
    -- the URL was derived, or is an explicit one that `h` is about
    refine (hbase.mpr ?_).symm
    cases hws : config.wsUrl with
    | none =>
      rw [hempty, hws] at hderived
      exact derivedWsUrl_eq_empty.mp hderived.symm
    | some url =>
      rw [hempty, hws] at hderived
      by_cases hurl : url = ""
      · exact derivedWsUrl_eq_empty.mp (hderived.trans (if_pos hurl)).symm
      · exact h url hws hurl (hderived.trans (if_neg hurl)).symm
  · intro h url hurl hne hslashes
    rw [hurl] at hderived
    have hempty := (hderived.trans (if_neg hne)).trans hslashes
    exact hbase.mp ((h hempty).symm.trans hempty)

/-- What resolving the merged fields gives. -/
theorem resolveConfig_merged (h : (mergedFields (resolveConfig config)).Valid) :
    resolveConfig ⟨mergedFields (resolveConfig config), h⟩ = { resolveConfig config with
      wsUrl := rstrip (mergedFields (resolveConfig config)).getWsUrl } := by
  simp only [resolveConfig, mergedFields, normalizeCredential_idem, rstrip_rstrip]

theorem valid_update {o : Override} (ho : o.Valid)
    (h : (mergedFields (resolveConfig config)).Valid) :
    ((mergedFields (resolveConfig config)).update o).Valid := by
  obtain ⟨hkey, htimeout, hconnect⟩ := h
  cases o with
  | apiKey value => exact ⟨fun key hmem => Option.some.inj hmem ▸ ho, htimeout, hconnect⟩
  | timeout value => exact ⟨hkey, ho, hconnect⟩
  | connectTimeout value => exact ⟨hkey, htimeout, ho⟩
  | _ => exact ⟨hkey, htimeout, hconnect⟩

/-- A field that is overridden, and nothing else, is resolved anew. -/
theorem resolveConfig_update {o : Override} (hsurvives : Survives config)
    (h : ((mergedFields (resolveConfig config)).update o).Valid) :
    resolveConfig ⟨(mergedFields (resolveConfig config)).update o, h⟩ =
      (resolveConfig config).override o := by
  have hvalid := valid_mergedFields.mpr hsurvives.1
  have hws := wsUrl_survives_iff.mp hsurvives.2
  have hstrip : rstrip (resolveConfig config).wsUrl = (resolveConfig config).wsUrl :=
    rstrip_rstrip _
  have hkeep : resolveConfig ⟨mergedFields (resolveConfig config), hvalid⟩ =
      resolveConfig config := by
    rw [resolveConfig_merged, (getWsUrl_merged_iff hstrip).mpr hws]
  generalize hr : resolveConfig config = r at *
  cases o with
  | baseUrl value =>
    -- an empty URL of the socket was derived from the old base URL, too
    have hor : (r.wsUrl = derivedWsUrl r.baseUrl ∨ r.wsUrl = "") ↔
        r.wsUrl = derivedWsUrl r.baseUrl := ⟨fun h => h.elim id hws, .inl⟩
    have hurl := rstrip_getWsUrl_merged hstrip value
    rw [if_congr hor rfl rfl] at hurl
    have hstep : resolveConfig ⟨(mergedFields r).update (.baseUrl value), h⟩ =
        { resolveConfig ⟨mergedFields r, hvalid⟩ with
          baseUrl := rstrip value
          wsUrl := rstrip ({ mergedFields r with baseUrl := value }).getWsUrl } := rfl
    rw [hstep, hkeep, hurl, ResolvedConfig.override]
  | wsUrl value =>
    have hstep : resolveConfig ⟨(mergedFields r).update (.wsUrl value), h⟩ =
        { resolveConfig ⟨mergedFields r, hvalid⟩ with
          wsUrl := rstrip ({ mergedFields r with wsUrl := some value }).getWsUrl } := rfl
    rw [hstep, hkeep, getWsUrl_eq]
    rfl
  | apiKey | accessToken | refreshToken | adminKey | grpcAddress | timeout | connectTimeout | retry
  | circuitBreaker | headers | userAgent | autoRefreshToken | debug =>
    -- no other field is looked at by two of the normalisations
    conv_rhs => rw [← hkeep]
    rfl

/-- `with_options()` gives back the configurations that survive a second resolution. -/
theorem roundTrips_iff (config : SpooledClientConfig) :
    RoundTrips config ↔ Survives config := by
  constructor
  · rintro ⟨h, -⟩
    rw [mergeClientConfig, List.foldl_nil] at h
    -- the trimmed key is refused, or all fields but the URL of the socket come back
    by_cases hvalid : (mergedFields (resolveConfig config)).Valid
    · rw [map_resolveConfig_validate hvalid, resolveConfig_merged] at h
      exact ⟨valid_mergedFields.mp hvalid, wsUrl_survives_iff.mpr
        ((getWsUrl_merged_iff (rstrip_rstrip _)).mp
          (congrArg ResolvedConfig.wsUrl (Option.some.inj h)))⟩
    · rw [ConfigFields.validate, dif_neg hvalid] at h
      cases h
  · intro h
    have hvalid := valid_mergedFields.mpr h.1
    refine ⟨?_, fun o ho => ?_⟩
    · rw [mergeClientConfig, List.foldl_nil, map_resolveConfig_validate hvalid,
        resolveConfig_merged,
        (getWsUrl_merged_iff (rstrip_rstrip _)).mpr (wsUrl_survives_iff.mp h.2)]
    · rw [mergeClientConfig, List.foldl_cons, List.foldl_nil,
        map_resolveConfig_validate (valid_update ho hvalid), resolveConfig_update h]

/-- A configuration with the defaults and an API key that ends in spaces. -/
def paddedKey : SpooledClientConfig where
  apiKey := some "abc       "
  accessToken := none
  refreshToken := none
  adminKey := none
  baseUrl := "https://api.spooled.cloud"
  wsUrl := none
  grpcAddress := "grpc.spooled.cloud:443"
  timeout := 30
  connectTimeout := 10
  retry := {}
  circuitBreaker := ⟨true, 5, 3, 30, by decide, by decide⟩
  headers := Dict.empty
  userAgent := "spooled-python/1.0.0"
  autoRefreshToken := true
  debug := false
  valid := by decide +kernel

/-- Its ten characters are accepted, and the three that are left of them are not. -/
theorem padded_key_refused : ¬ ∀ config : SpooledClientConfig, RoundTrips config := by
  intro h
  have hkey : normalizeCredential paddedKey.apiKey = some "abc" := by decide +kernel
  have hvalid : ¬ (mergedFields (resolveConfig paddedKey)).Valid := by
    rw [valid_mergedFields, hkey]
    exact fun hall => absurd (hall "abc" rfl) (by decide)
  have hmerge := (h paddedKey).1
  rw [mergeClientConfig, List.foldl_nil, ConfigFields.validate, dif_neg hvalid] at hmerge
  cases hmerge

end Config

end SpooledSdk
