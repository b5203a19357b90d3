import Lakehouse.Storage.Segregation
/-!
# Storage configuration

The root of a scope is resolved from environment variables alone: an ADLS
filesystem, an S3 bucket or a gated local directory. An environment is the
function that looks a variable up.
-/

namespace Lakehouse

/-- The environment: the value of each variable that is set. -/
abbrev Env : Type := Text → Option Text

/-- The environment that sets these variables. -/
def Env.ofList (vars : List (String × String)) : Env := fun name =>
  (vars.find? fun v => lit v.1 == name).map fun v => lit v.2

namespace Storage

open Uri

def envBackend : String := "BLUEECONOMY_STORAGE_BACKEND"
def envAzureCloud : String := "BLUEECONOMY_AZURE_CLOUD"
def envStorageAccount : String := "BLUEECONOMY_STORAGE_ACCOUNT"
def envStorageFilesystem : String := "BLUEECONOMY_STORAGE_FILESYSTEM"
def envLocalRoot : String := "BLUEECONOMY_LOCAL_LAKEHOUSE_ROOT"
def envAllowLocal : String := "BLUEECONOMY_ALLOW_LOCAL_STORAGE"
def envS3Bucket : String := "BLUEECONOMY_S3_BUCKET"
def envS3Region : String := "BLUEECONOMY_S3_REGION"
def envS3EndpointUrl : String := "BLUEECONOMY_S3_ENDPOINT_URL"
def envS3Secure : String := "BLUEECONOMY_S3_SECURE"

/-- `env.get(name, "")`. -/
def envValue (env : Env) (name : String) : Text := (env (lit name)).getD []

/-- **`_require_env`.** -/
def requireEnv (env : Env) (name : String) : Except PyError Text :=
  let value := envValue env name
  if value = [] ∨ value ≠ value.strip then
    .error (.storageConfiguration (lit "environment variable " ++ lit name ++
      lit " must be set and canonical"))
  else .ok value

/-- The supported backends. -/
inductive Backend where
  | adls | s3 | localGated
  deriving DecidableEq, Repr

variable (L : Library)

/-- **`_canonical_backend`**: a backend's name or its historical alias. -/
def canonicalBackend (rawBackend : Text) : Except PyError Backend :=
  if rawBackend = lit "adls" ∨ rawBackend = lit "adls-gen2" then .ok .adls
  else if rawBackend = lit "s3" then .ok .s3
  else if rawBackend = lit "local-gated" ∨ rawBackend = lit "local" then .ok .localGated
  else if rawBackend = [] then
    .error (.storageConfiguration (lit envBackend ++
      lit " is not set; refusing to assume a storage backend"))
  else
    .error (.storageConfiguration (lit envBackend ++ 0x3D :: L.reprText rawBackend ++
      lit " is not a supported backend ('adls', 's3', 'local-gated')"))

/-! ## ADLS -/

/-- `[a-z0-9]`. -/
def isLowerAlnum (c : ℕ) : Bool := isLower c || isDigit c

/-- `AZURE_CLOUDS`. -/
def azureCloudSuffix (cloud : Text) : Option Text :=
  if cloud = lit "AzureCloud" then some (lit "dfs.core.windows.net")
  else if cloud = lit "AzureUSGovernment" then some (lit "dfs.core.usgovcloudapi.net")
  else none

/-- `ACCOUNT_NAME_PATTERN.fullmatch`. -/
def isAccountName (t : Text) : Bool := 3 ≤ t.length && t.length ≤ 24 && t.all isLowerAlnum

/-- A name that starts and ends alphanumeric, of 3 to 63 characters. -/
def isDelimitedName (inner : ℕ → Bool) (t : Text) : Bool :=
  3 ≤ t.length && t.length ≤ 63 && t.all inner && t.head?.any isLowerAlnum &&
    t.getLast?.any isLowerAlnum

/-- `FILESYSTEM_NAME_PATTERN.fullmatch`. -/
def isFilesystemName (t : Text) : Bool :=
  (t.length == 1 && t.all isLowerAlnum) || isDelimitedName (fun c => isLowerAlnum c || c == 0x2D) t

/-- **Validated ADLS Gen2 coordinates.** -/
structure AdlsGen2Config where
  account : Text
  filesystem : Text
  endpointSuffix : Text
  isAccountName : isAccountName account = true
  isFilesystemName : isFilesystemName filesystem = true
  isEndpointSuffix : ∃ cloud, azureCloudSuffix cloud = some endpointSuffix

/-- **`abfs_base_uri`.** -/
def AdlsGen2Config.abfsBaseUri (c : AdlsGen2Config) : Text :=
  lit "abfs://" ++ c.filesystem ++ 0x40 :: c.account ++ 0x2E :: c.endpointSuffix

/-- **`load_adls_config`.** -/
def loadAdlsConfig (env : Env) : Except PyError AdlsGen2Config := do
  let cloud ← requireEnv env envAzureCloud
  match hs : azureCloudSuffix cloud with
  | none =>
    .error (.storageConfiguration (lit envAzureCloud ++
      lit " must be one of ['AzureCloud', 'AzureUSGovernment']; " ++
      lit "use AzureUSGovernment for the CVFF segregated lakehouse"))
  | some suffix =>
    let account ← requireEnv env envStorageAccount
    if ha : isAccountName account = true then
      let filesystem ← requireEnv env envStorageFilesystem
      if hf : isFilesystemName filesystem = true then
        .ok ⟨account, filesystem, suffix, ha, hf, cloud, hs⟩
      else
        .error (.storageConfiguration (lit envStorageFilesystem ++
          lit " must be a valid ADLS Gen2 filesystem name"))
    else
      .error (.storageConfiguration (lit envStorageAccount ++
        lit " must be a valid storage account name (3-24 lowercase alnum)"))

/-! ## S3 -/

/-- `S3_BUCKET_PATTERN.fullmatch`. -/
def isBucketName (t : Text) : Bool :=
  isDelimitedName (fun c => isLowerAlnum c || c == 0x2E || c == 0x2D) t

/-- `S3_IP_ADDRESS_PATTERN.fullmatch`. -/
def isIpAddress (t : Text) : Bool :=
  let parts := Text.splitOn 0x2E t
  parts.length == 4 && parts.all fun p => 1 ≤ p.length && p.length ≤ 3 && p.all isDigit

/-- `S3_REGION_PATTERN.fullmatch`. -/
def isRegion (t : Text) : Bool :=
  let isRest (area digit : Text) : Bool :=
    area ≠ [] && area.all isLower && digit.length == 1 && digit.all isDigit
  match Text.splitOn 0x2D t with
  | [country, area, digit] => country.length == 2 && country.all isLower && isRest area digit
  | [country, gov, area, digit] =>
    country.length == 2 && country.all isLower && gov == lit "gov" && isRest area digit
  | _ => false

/-- **`validate_s3_bucket_name`.** -/
def validateS3BucketName (bucket : Text) :
    Except PyError { name : Text // isBucketName name = true } :=
  if hb : isBucketName bucket = true then
    if isIpAddress bucket = true then
      .error (.storageConfiguration (lit "S3 bucket names must not look like an IP address"))
    else if lit ".." <:+: bucket ∨ lit ".-" <:+: bucket ∨ lit "-." <:+: bucket then
      .error (.storageConfiguration
        (lit "S3 bucket names must not contain consecutive dots or dot-hyphen adjacency"))
    else .ok ⟨bucket, hb⟩
  else
    .error (.storageConfiguration
      (lit "S3 bucket names must be 3-63 characters of lowercase letters, digits, dots " ++
        lit "and hyphens, starting and ending with a letter or digit"))

/-- `parsed.port`, where there is one, and the check it is made to pass. -/
def validatePort (port : Text) : Bool :=
  port == [] || (port.all isDigit && 1 ≤ digitsValue port && digitsValue port ≤ 65535)

/-- **`_validate_s3_endpoint`.** -/
def validateS3Endpoint (endpointUrl : Text) (secure : Bool) : Except PyError Text := do
  let parsed ← urlsplit L endpointUrl
  let expectedScheme := if secure then lit "https" else lit "http"
  if parsed.scheme ≠ expectedScheme then
    .error (.storageConfiguration (lit envS3EndpointUrl ++ lit " must use the " ++
      expectedScheme ++ lit ":// scheme when " ++ lit envS3Secure ++ 0x3D ::
      (if secure then lit "true" else lit "false")))
  else if Decorated parsed then
    .error (.storageConfiguration (lit envS3EndpointUrl ++
      lit " must not contain credentials, query parameters or fragments"))
  else if parsed.path ≠ [] ∧ parsed.path ≠ [0x2F] then
    .error (.storageConfiguration (lit envS3EndpointUrl ++ lit " must not contain a path"))
  else if (hostInfo parsed.netloc).1 = [] then
    .error (.storageConfiguration (lit envS3EndpointUrl ++ lit " must name a valid host"))
  else if validatePort (hostInfo parsed.netloc).2 = false then
    .error (.storageConfiguration (lit envS3EndpointUrl ++ lit " has an invalid port"))
  else .ok endpointUrl

/-- **Validated S3-compatible coordinates.** -/
structure S3Config where
  bucket : { name : Text // isBucketName name = true }
  region : Text
  endpointUrl : Option Text
  secure : Bool

/-- **`s3_base_uri`.** -/
def S3Config.s3BaseUri (c : S3Config) : Text := lit "s3://" ++ c.bucket.val

/-- **`load_s3_config`.** -/
def loadS3Config (env : Env) : Except PyError S3Config := do
  let bucket ← requireEnv env envS3Bucket >>= validateS3BucketName
  let region ← requireEnv env envS3Region
  if isRegion region = false then
    .error (.storageConfiguration (lit envS3Region ++
      lit " must be a valid region identifier (for example us-east-1)"))
  else
    let secureRaw ← requireEnv env envS3Secure
    if secureRaw ≠ lit "true" ∧ secureRaw ≠ lit "false" then
      .error (.storageConfiguration (lit envS3Secure ++ lit " must be exactly 'true' or 'false'"))
    else
      let secure := decide (secureRaw = lit "true")
      let endpointRaw := envValue env envS3EndpointUrl
      if endpointRaw ≠ [] then
        if endpointRaw ≠ endpointRaw.strip then
          .error (.storageConfiguration (lit envS3EndpointUrl ++ lit " must be canonical"))
        else
          let endpointUrl ← validateS3Endpoint L endpointRaw secure
          .ok ⟨bucket, region, some endpointUrl, secure⟩
      else if secure = false then
        .error (.storageConfiguration (lit envS3Secure ++
          lit "=false is only permitted against an explicit " ++ lit envS3EndpointUrl ++
          lit " (for example a MinIO deployment); AWS S3 transport is always TLS"))
      else .ok ⟨bucket, region, none, secure⟩

/-! ## The local backend -/

/-- **`load_local_root`.** -/
def loadLocalRoot (env : Env) : Except PyError Text :=
  if envValue env envAllowLocal ≠ lit "true" then
    .error (.storageConfiguration (lit "local storage requires " ++ lit envAllowLocal ++
      lit "=true as an explicit development opt-in"))
  else do
    let root ← requireEnv env envLocalRoot
    if pathRoot root = [] then
      .error (.storageConfiguration (lit envLocalRoot ++ lit " must be an absolute path"))
    else .ok (pathStr root)

/-! ## The root of a scope -/

/-- The base every scope root lies under. -/
def resolveBase (env : Env) : Backend → Except PyError Text
  | .adls => (loadAdlsConfig env).map AdlsGen2Config.abfsBaseUri
  | .s3 => (loadS3Config L env).map S3Config.s3BaseUri
  | .localGated => loadLocalRoot env

/-- **`resolve_lakehouse_root`.** -/
def resolveLakehouseRoot (scope : LakehouseScope) (env : Env) : Except PyError Text := do
  let backend ← canonicalBackend L (envValue env envBackend)
  let base ← resolveBase L env backend
  return base ++ 0x2F :: scope.value

end Storage

end Lakehouse
