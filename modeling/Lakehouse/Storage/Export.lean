import Lakehouse.PyJson
import Lakehouse.Storage.PathBoundary
/-!
# Export targets

An export writes one object outside the Delta tables. Its target is resolved
from the same environment as the roots of the scopes, but each backend checks
it on its own: only the local one compares the target with the storage that
is configured, and the ADLS one takes the file system of a target for a user
name.
-/

namespace Lakehouse

namespace Storage

open Uri

variable (L : Library)

/-! ## S3 URIs -/

/-- `S3_MAX_KEY_BYTES`. -/
def s3MaxKeyBytes : ℕ := 1024

/-- **`validate_s3_key`.** -/
def validateS3Key (key : Text) : Except PyError Text :=
  if key = [] ∨ key.head? = some 0x2F then
    .error (.storageConfiguration (lit "S3 keys must be non-empty and must not start with '/'"))
  else do
    let encoded ← encodeUtf8 key
    if s3MaxKeyBytes < encoded.length then
      .error (.storageConfiguration (lit "S3 keys must not exceed 1024 UTF-8 bytes"))
    else if key.any (fun c => c < 0x20 || c == 0x7F) then
      .error (.storageConfiguration (lit "S3 keys must not contain control characters"))
    else if (Text.splitOn 0x2F key).any (fun s => s = [] ∨ s = lit "." ∨ s = lit "..") then
      .error (.storageConfiguration
        (lit "S3 keys must not contain empty, '.' or '..' path segments"))
    else .ok key

/-- **`validate_s3_uri`**: the bucket and the key. -/
def validateS3Uri (uri : Text) : Except PyError (Text × Text) :=
  if uri = [] ∨ uri ≠ uri.strip then
    .error (.storageConfiguration (lit "S3 URI must be canonical non-empty text"))
  else do
    let parsed ← urlsplit L uri
    if parsed.scheme ≠ lit "s3" then
      .error (.storageConfiguration (lit "S3 URI " ++ L.reprText uri ++
        lit " must use the s3:// scheme"))
    else if Decorated parsed then
      .error (.storageConfiguration
        (lit "S3 URIs must not contain embedded credentials, query parameters or fragments"))
    else
      let bucket ← validateS3BucketName parsed.netloc
      if parsed.path.head? ≠ some 0x2F then
        .error (.storageConfiguration (lit "S3 URI " ++ L.reprText uri ++
          lit " must name an object key"))
      else
        let key ← validateS3Key (parsed.path.drop 1)
        return (bucket.val, key)

/-! ## ADLS URIs -/

/-- The groups of `([a-z0-9-]+)@([a-z0-9]{3,24})\..+`, matched in full. -/
def matchAdlsNetloc (netloc : Text) : Option (Text × Text) :=
  match Text.partition 0x40 netloc with
  | (container, true, host) =>
    match Text.partition 0x2E host with
    | (account, true, suffix) =>
      if container ≠ [] ∧ container.all (fun c => isLowerAlnum c || c == 0x2D) ∧
          isAccountName account ∧ suffix ≠ [] ∧ 0x0A ∉ suffix then some (container, account)
      else none
    | _ => none
  | _ => none

/-! ## Local paths -/

/-- A character of a name the operating system takes; bytes that are no
text stand as lone surrogates. -/
def isFsChar (c : ℕ) : Bool := c ≠ 0 ∧ (Scalar c ∨ (0xDC80 ≤ c ∧ c ≤ 0xDCFF))

/-- A part joins an absolute path; `..` leaves the last one. -/
def joinPart (parts : List Text) (part : Text) : List Text :=
  if part = [] ∨ part = lit "." then parts
  else if part = lit ".." then parts.dropLast
  else parts ++ [part]

/-- The parts of an absolute path once `.` and `..` are followed. -/
def realParts (path : Text) : List Text := (Text.splitOn 0x2F path).foldl joinPart []

/-- `os.path.realpath` of an absolute path, where there are no symbolic
links. -/
def realpath (path : Text) : Except PyError Text :=
  if path.all isFsChar then .ok (0x2F :: Text.join [0x2F] (realParts path))
  else .error (if 0 ∈ path then .valueError (lit "embedded null byte") else .unicodeError)

/-- The parts two paths start with. -/
def commonParts : List Text → List Text → List Text
  | p :: ps, q :: qs => if p = q then p :: commonParts ps qs else []
  | _, _ => []

/-- The parts of a path that name something. -/
def namedParts (path : Text) : List Text :=
  (Text.splitOn 0x2F path).filter fun p => p ≠ [] ∧ p ≠ lit "."

/-- `os.path.commonpath([path, other])` of absolute paths. -/
def commonpath (path other : Text) : Text :=
  0x2F :: Text.join [0x2F] (commonParts (namedParts path) (namedParts other))

/-! ## Targets -/

/-- The file systems of an export. -/
inductive FileSystem where
  | s3FileSystem (region : Text) (endpointOverride : Option Text) (scheme : Text)
  | azureFileSystem (account : Text)
  | localFileSystem
  deriving DecidableEq, Repr

/-- The S3 branch of `resolve_export_filesystem`. -/
def resolveS3Target (targetUri : Text) (env : Env) : Except PyError (FileSystem × Text) := do
  let config ← loadS3Config L env
  let (bucket, key) ← validateS3Uri L targetUri
  return (.s3FileSystem config.region config.endpointUrl
    (if config.secure then lit "https" else lit "http"), bucket ++ 0x2F :: key)

/-- The ADLS branch. -/
def resolveAdlsTarget (targetUri : Text) : Except PyError (FileSystem × Text) := do
  let parsed ← urlsplit L targetUri
  if parsed.scheme ≠ lit "abfs" then
    .error (.storageConfiguration (lit "ADLS export targets must use abfs:// URIs"))
  else if Decorated parsed then
    .error (.storageConfiguration
      (lit "ADLS URIs must not contain credentials, query parameters or fragments"))
  else
    match matchAdlsNetloc parsed.netloc with
    | none => .error (.storageConfiguration
        (lit "ADLS export target must be abfs://<filesystem>@<account>.<suffix>/<key>"))
    | some (container, account) =>
      let path := parsed.path.dropWhile (· == 0x2F)
      if path = [] ∨ lit ".." ∈ Text.splitOn 0x2F path then
        .error (.storageConfiguration (lit "ADLS export target must name an object key"))
      else .ok (.azureFileSystem account, container ++ 0x2F :: path)

/-- The local branch. -/
def resolveLocalTarget (targetUri : Text) (env : Env) : Except PyError (FileSystem × Text) := do
  let root ← loadLocalRoot env
  if targetUri.head? ≠ some 0x2F then
    .error (.storageConfiguration (lit "local export targets must be absolute paths"))
  else
    let resolved ← realpath targetUri
    let realRoot ← realpath root
    if commonpath realRoot resolved ≠ realRoot then
      .error (.storageConfiguration
        (lit "local export targets must stay under BLUEECONOMY_LOCAL_LAKEHOUSE_ROOT"))
    else .ok (.localFileSystem, resolved)

/-- **`resolve_export_filesystem`.** -/
def resolveExportFilesystem (targetUri : Text) (env : Env) :
    Except PyError (FileSystem × Text) :=
  let rawBackend := envValue env envBackend
  if rawBackend = [] then
    .error (.storageConfiguration (lit envBackend ++
      lit " is not set; refusing to assume a storage backend"))
  else if rawBackend = lit "s3" then resolveS3Target L targetUri env
  else if rawBackend = lit "adls" ∨ rawBackend = lit "adls-gen2" then resolveAdlsTarget L targetUri
  else if rawBackend = lit "local-gated" ∨ rawBackend = lit "local" then
    resolveLocalTarget targetUri env
  else
    .error (.storageConfiguration (lit envBackend ++ 0x3D :: L.reprText rawBackend ++
      lit " is not a supported backend for GeoParquet export"))

/-! ## The configured storage -/

/-- **An object inside the configured storage.** -/
def InsideStorage (env : Env) : FileSystem × Text → Prop
  | (.s3FileSystem _ _ _, path) => ∃ config, loadS3Config L env = .ok config ∧
      config.bucket.val ++ [0x2F] <+: path
  | (.azureFileSystem account, path) => ∃ config, loadAdlsConfig env = .ok config ∧
      account = config.account ∧ config.filesystem ++ [0x2F] <+: path
  | (.localFileSystem, path) => ∃ root realRoot, loadLocalRoot env = .ok root ∧
      realpath root = .ok realRoot ∧ namedParts realRoot <+: namedParts path

/-- The names of objects: letters, digits, `_` and `.`, ending in `.parquet`.
Every character beyond ASCII may be a letter. -/
def IsObjectName (name : Text) : Prop :=
  (∀ c ∈ name, isUpper c || isLower c || isDigit c || c == 0x5F || c == 0x2E ||
    (0x80 ≤ c && decide (Scalar c)) = true) ∧ lit ".parquet" <:+ name

/-- **Export targets stay in the configured storage.** -/
def ExportsContained (env : Env) : Prop :=
  ∀ targetUri target, resolveExportFilesystem L targetUri env = .ok target →
    InsideStorage L env target

/-- **Export targets reach all of the configured storage.** -/
def ExportsComplete (env : Env) : Prop :=
  ∀ scope root name, resolveLakehouseRoot L scope env = .ok root → IsObjectName name →
    ∃ target, resolveExportFilesystem L (root ++ 0x2F :: name) env = .ok target

/-- **An export the program gets right**: the backend is the local one, and
the operating system takes the name of its root. -/
def LocalExport (env : Env) : Prop :=
  (envValue env envBackend = lit "local-gated" ∨ envValue env envBackend = lit "local") ∧
    ∀ c ∈ envValue env envLocalRoot, isFsChar c = true

variable {L} {env : Env} {targetUri : Text} {target : FileSystem × Text}

/-- The branch of a backend. -/
def resolveTargetOf (L : Library) (env : Env) (targetUri : Text) :
    Backend → Except PyError (FileSystem × Text)
  | .s3 => resolveS3Target L targetUri env
  | .adls => resolveAdlsTarget L targetUri
  | .localGated => resolveLocalTarget targetUri env

/-- The target is resolved by the backend named. -/
theorem resolveExportFilesystem_eq {backend : Backend}
    (h : canonicalBackend L (envValue env envBackend) = .ok backend) (targetUri : Text) :
    resolveExportFilesystem L targetUri env = resolveTargetOf L env targetUri backend := by
  unfold resolveExportFilesystem
  generalize envValue env envBackend = rawBackend at h ⊢
  unfold canonicalBackend at h
  split_ifs at h with hadls hs3 hlocal hnil
  · cases h
    obtain rfl | rfl := hadls <;> rfl
  · cases h
    subst hs3
    rfl
  · cases h
    obtain rfl | rfl := hlocal <;> rfl

/-! ## S3: another bucket -/

/-- **An S3 export leaves its bucket**: any other bucket is a target too. -/
theorem not_contained_s3 (h : canonicalBackend L (envValue env envBackend) = .ok .s3)
    {config : S3Config} (hconfig : loadS3Config L env = .ok config) : ¬ExportsContained L env := by
  intro hcontained
  have hinside : ∀ {bucket : Text} (uri : Text), validateS3Uri L uri = .ok (bucket, lit "x") →
      config.bucket.val ++ [0x2F] <+: bucket ++ 0x2F :: lit "x" := by
    intro bucket uri huri
    have htarget : resolveExportFilesystem L uri env = .ok (.s3FileSystem config.region
        config.endpointUrl (if config.secure then lit "https" else lit "http"),
          bucket ++ 0x2F :: lit "x") := by
      rw [resolveExportFilesystem_eq h, resolveTargetOf, resolveS3Target]
      rw [hconfig, ok_bind, huri]
      rfl
    obtain ⟨config', hconfig', hprefix⟩ := hcontained _ _ htarget
    cases hconfig.symm.trans hconfig'
    exact hprefix
  have hbucket : 0x2F ∉ config.bucket.val := by
    have hname := config.bucket.property
    simp only [isBucketName, isDelimitedName, Bool.and_eq_true] at hname
    intro hslash
    exact absurd (List.all_eq_true.1 hname.1.1.2 _ hslash) (by decide)
  have hsame : ∀ {bucket : Text}, 0x2F ∉ bucket →
      config.bucket.val ++ [0x2F] <+: bucket ++ 0x2F :: lit "x" → config.bucket.val = bucket := by
    rintro bucket hslash ⟨rest, hrest⟩
    rw [List.append_assoc, List.singleton_append] at hrest
    have hparts := congrArg (Text.partition 0x2F) hrest
    rw [Text.partition_append hbucket, Text.partition_append hslash] at hparts
    exact congrArg Prod.fst hparts
  have ha := hsame (by decide) (hinside (lit "s3://export-a/x") rfl)
  have hb := hsame (by decide) (hinside (lit "s3://export-b/x") rfl)
  exact absurd (ha.symm.trans hb) (by decide)

/-! ## ADLS: a file system is no user -/

/-- An authority of the ADLS form reads as one with a user. -/
theorem userInfo_of_matchAdlsNetloc {netloc : Text} {groups : Text × Text}
    (h : matchAdlsNetloc netloc = some groups) : (userInfo netloc).1 ≠ [] := by
  unfold matchAdlsNetloc at h
  by_cases hat : 0x40 ∈ netloc
  · obtain ⟨container, host, rfl, hcontainer⟩ := List.eq_append_cons_of_mem hat
    rw [Text.partition_append hcontainer] at h
    obtain ⟨front, last, hfront, hlast⟩ := Text.exists_append_last hat
    have huser : (userInfo (container ++ 0x40 :: host)).1 = (Text.partition 0x3A front).1 := by
      rw [hfront, userInfo, Text.rpartition_append hlast]
    rw [huser]
    have hname : container ≠ [] ∧
        container.all (fun c => isLowerAlnum c || c == 0x2D) = true := by
      dsimp only at h
      split at h
      · split_ifs at h with hmatch
        exact ⟨hmatch.1, hmatch.2.1⟩
      · cases h
    obtain ⟨c, rest, rfl⟩ := List.exists_cons_of_ne_nil hname.1
    have hc : c ≠ 0x3A ∧ c ≠ 0x40 := by
      have hclass := List.all_eq_true.1 hname.2 c List.mem_cons_self
      refine ⟨?_, ?_⟩ <;> rintro rfl <;> exact absurd hclass (by decide)
    cases front with
    | nil =>
      rw [List.nil_append, List.cons_append] at hfront
      exact absurd (List.cons.inj hfront).1 hc.2
    | cons d front =>
      rw [List.cons_append, List.cons_append] at hfront
      obtain ⟨rfl, -⟩ := List.cons.inj hfront
      rw [Text.partition, if_neg hc.1]
      exact List.cons_ne_nil _ _
  · rw [Text.partition_of_notMem hat] at h
    cases h

/-- **No ADLS target is accepted.** -/
theorem resolveAdlsTarget_ne_ok : resolveAdlsTarget L targetUri ≠ .ok target := by
  intro h
  unfold resolveAdlsTarget at h
  obtain ⟨parsed, -, h⟩ := bind_eq_ok.1 h
  obtain ⟨-, h⟩ := guard_eq_ok.1 h
  obtain ⟨hplain, h⟩ := guard_eq_ok.1 h
  split at h
  · cases h
  · rename_i groups hmatch
    exact hplain (Or.inl (userInfo_of_matchAdlsNetloc hmatch))

/-! ## Local: parts of paths -/

/-- Parts as `realpath` leaves them. -/
def Canonical (parts : List Text) : Prop := ∀ p ∈ parts, p ≠ [] ∧ p ≠ lit "." ∧ 0x2F ∉ p

/-- Parts joined to canonical ones are canonical. -/
theorem canonical_foldl {parts names : List Text} (h : Canonical parts)
    (hnames : ∀ p ∈ names, 0x2F ∉ p) : Canonical (names.foldl joinPart parts) := by
  induction names generalizing parts with
  | nil => exact h
  | cons name names ih =>
    obtain ⟨hname, hnames⟩ := List.forall_mem_cons.1 hnames
    refine ih ?_ hnames
    unfold joinPart
    split_ifs with hnil hup
    · exact h
    · exact fun p hp => h p (List.mem_of_mem_dropLast hp)
    · rw [not_or] at hnil
      intro p hp
      obtain hp | hp := List.mem_append.1 hp
      · exact h p hp
      · rw [List.mem_singleton.1 hp]
        exact ⟨hnil.1, hnil.2, hname⟩

/-- A resolved path has canonical parts. -/
theorem canonical_realParts (path : Text) : Canonical (realParts path) :=
  canonical_foldl (fun _ hp => absurd hp List.not_mem_nil) fun p hp hslash =>
    (Text.mem_splitOn.1 ⟨p, hp, hslash⟩).2 rfl

/-- Canonical parts are read back from their path. -/
theorem namedParts_join {parts : List Text} (h : Canonical parts) :
    namedParts (0x2F :: Text.join [0x2F] parts) = parts := by
  have hsplit : Text.splitOn 0x2F (0x2F :: Text.join [0x2F] parts) =
      [] :: Text.splitOn 0x2F (Text.join [0x2F] parts) := by
    rw [Text.splitOn, if_pos rfl]
  rw [namedParts, hsplit, List.filter_cons_of_neg (by simp)]
  by_cases hne : parts = []
  · subst hne
    rfl
  · rw [Text.splitOn_join hne fun p hp => (h p hp).2.2, List.filter_eq_self]
    exact fun p hp => decide_eq_true ⟨(h p hp).1, (h p hp).2.1⟩

/-- The common parts are the first parts of a path. -/
theorem commonParts_isPrefix (ps qs : List Text) : commonParts ps qs <+: ps := by
  induction ps generalizing qs with
  | nil => exact List.prefix_refl _
  | cons p ps ih =>
    cases qs with
    | nil => exact List.nil_prefix
    | cons q qs =>
      rw [commonParts]
      split_ifs
      · exact (List.cons_prefix_cons).2 ⟨rfl, ih qs⟩
      · exact List.nil_prefix

/-- All parts are common where they begin the other path. -/
theorem commonParts_eq_left {ps qs : List Text} : commonParts ps qs = ps ↔ ps <+: qs := by
  induction ps generalizing qs with
  | nil => exact iff_of_true rfl List.nil_prefix
  | cons p ps ih =>
    cases qs with
    | nil => simp [commonParts]
    | cons q qs =>
      rw [commonParts, List.cons_prefix_cons]
      split_ifs with hpq
      · rw [List.cons.injEq, ih]
        simp [hpq]
      · simp [hpq]

/-- **What the local check compares.** -/
theorem commonpath_eq_left {root path : List Text} (hroot : Canonical root) (hpath : Canonical path) :
    commonpath (0x2F :: Text.join [0x2F] root) (0x2F :: Text.join [0x2F] path) =
      0x2F :: Text.join [0x2F] root ↔ root <+: path := by
  rw [← commonParts_eq_left, commonpath, namedParts_join hroot, namedParts_join hpath]
  constructor
  · intro h
    have hcommon : Canonical (commonParts root path) := fun p hp =>
      hroot p ((commonParts_isPrefix root path).subset hp)
    rw [← namedParts_join hcommon, h, namedParts_join hroot]
  · intro h
    rw [h]

/-- A path of file-system characters has its real path. -/
theorem realpath_eq_ok {path resolved : Text} : realpath path = .ok resolved ↔
    (∀ c ∈ path, isFsChar c = true) ∧ resolved = 0x2F :: Text.join [0x2F] (realParts path) := by
  unfold realpath
  rw [← List.all_eq_true]
  split_ifs with h
  · simp [h, eq_comm]
  · simp [h]

/-- **The local targets that are accepted**: absolute paths below the root
that the operating system takes. -/
theorem resolveLocalTarget_eq_ok : resolveLocalTarget targetUri env = .ok target ↔
    ∃ root, loadLocalRoot env = .ok root ∧ targetUri.head? = some 0x2F ∧
      (∀ c ∈ targetUri, isFsChar c = true) ∧ (∀ c ∈ root, isFsChar c = true) ∧
      realParts root <+: realParts targetUri ∧
      target = (.localFileSystem, 0x2F :: Text.join [0x2F] (realParts targetUri)) := by
  unfold resolveLocalTarget
  rw [bind_eq_ok]
  refine exists_congr fun root => and_congr_right fun _ => ?_
  rw [guard_eq_ok, not_not, bind_eq_ok]
  refine and_congr_right fun _ => ?_
  constructor
  · rintro ⟨resolved, hresolved, h⟩
    obtain ⟨realRoot, hrealRoot, h⟩ := bind_eq_ok.1 h
    obtain ⟨hchars, rfl⟩ := realpath_eq_ok.1 hresolved
    obtain ⟨hroot, rfl⟩ := realpath_eq_ok.1 hrealRoot
    obtain ⟨hunder, htarget⟩ := guard_eq_ok.1 h
    cases htarget
    rw [not_not, commonpath_eq_left (canonical_realParts _) (canonical_realParts _)] at hunder
    exact ⟨hchars, hroot, hunder, rfl⟩
  · rintro ⟨hchars, hroot, hunder, rfl⟩
    refine ⟨_, realpath_eq_ok.2 ⟨hchars, rfl⟩, ?_⟩
    rw [realpath_eq_ok.2 ⟨hroot, rfl⟩, ok_bind, if_neg]
    rwa [not_not, commonpath_eq_left (canonical_realParts _) (canonical_realParts _)]

/-! ## Local: contained and complete -/

/-- The root a local environment sets. -/
theorem loadLocalRoot_eq_ok {root : Text} (h : loadLocalRoot env = .ok root) :
    root = pathStr (envValue env envLocalRoot) ∧ pathRoot (envValue env envLocalRoot) ≠ [] := by
  unfold loadLocalRoot at h
  obtain ⟨-, h⟩ := guard_eq_ok.1 h
  obtain ⟨raw, hraw, h⟩ := bind_eq_ok.1 h
  obtain ⟨habs, h⟩ := guard_eq_ok.1 h
  cases h
  unfold requireEnv at hraw
  obtain ⟨-, hraw⟩ := guard_eq_ok.1 hraw
  cases hraw
  exact ⟨rfl, habs⟩

/-- The characters of the root are those of the setting. -/
theorem fsChars_root {root : Text} (h : loadLocalRoot env = .ok root) :
    (∀ c ∈ root, isFsChar c = true) ↔ ∀ c ∈ envValue env envLocalRoot, isFsChar c = true := by
  rw [(loadLocalRoot_eq_ok h).1]
  exact forall_mem_pathStr (by decide) (by decide) _

/-- **A local export stays under its root.** -/
theorem contained_local (h : canonicalBackend L (envValue env envBackend) = .ok .localGated) :
    ExportsContained L env := by
  intro targetUri target htarget
  rw [resolveExportFilesystem_eq h, resolveTargetOf, resolveLocalTarget_eq_ok] at htarget
  obtain ⟨root, hroot, -, -, hchars, hunder, rfl⟩ := htarget
  refine ⟨root, _, hroot, realpath_eq_ok.2 ⟨hchars, rfl⟩, ?_⟩
  rwa [namedParts_join (canonical_realParts _), namedParts_join (canonical_realParts _)]

/-- An object name is a part of a path, and the operating system takes it. -/
theorem IsObjectName.part {name : Text} (h : IsObjectName name) :
    (∀ parts, joinPart parts name = parts ++ [name]) ∧ 0x2F ∉ name ∧
      ∀ c ∈ name, isFsChar c = true := by
  obtain ⟨hchars, front, rfl⟩ := h
  refine ⟨fun parts => ?_, fun hslash => absurd (hchars _ hslash) (by decide), fun c hc => ?_⟩
  · have hlen : ∀ short : Text, short.length < 8 → front ++ lit ".parquet" ≠ short := by
      intro short hshort heq
      have hsame := congrArg List.length heq
      rw [List.length_append] at hsame
      have hext : (lit ".parquet").length = 8 := rfl
      omega
    unfold joinPart
    rw [if_neg (not_or.2 ⟨hlen _ (by decide), hlen _ (by decide)⟩), if_neg (hlen _ (by decide))]
  · have hclass := hchars c hc
    simp only [isUpper, isLower, isDigit, Bool.or_eq_true, Bool.and_eq_true, decide_eq_true_eq,
      beq_iff_eq] at hclass
    unfold isFsChar Scalar
    rw [decide_eq_true_eq]
    unfold Scalar at hclass
    omega

/-- **A local export reaches everything under its root** exactly where the
operating system takes the root. -/
theorem complete_local (h : canonicalBackend L (envValue env envBackend) = .ok .localGated)
    {scope : LakehouseScope} {root : Text} (hroot : resolveLakehouseRoot L scope env = .ok root) :
    ExportsComplete L env ↔ ∀ c ∈ envValue env envLocalRoot, isFsChar c = true := by
  have hresolve : ∀ {scope : LakehouseScope} {root : Text},
      resolveLakehouseRoot L scope env = .ok root →
        ∃ base, loadLocalRoot env = .ok base ∧ root = base ++ 0x2F :: scope.value := by
    intro scope root hroot
    unfold resolveLakehouseRoot at hroot
    rw [h, ok_bind] at hroot
    obtain ⟨base, hbase, hroot⟩ := bind_eq_ok.1 hroot
    cases hroot
    exact ⟨base, hbase, rfl⟩
  constructor
  -- one name is enough to see the characters of the root
  · intro hcomplete
    have hname : IsObjectName (lit "x.parquet") := ⟨by decide, lit "x", rfl⟩
    obtain ⟨base, hbase, rfl⟩ := hresolve hroot
    obtain ⟨target, htarget⟩ := hcomplete _ _ _ hroot hname
    rw [resolveExportFilesystem_eq h, resolveTargetOf, resolveLocalTarget_eq_ok] at htarget
    obtain ⟨base', hbase', -, -, hchars, -, -⟩ := htarget
    exact (fsChars_root hbase').1 hchars
  · intro hchars scope root name hroot hname
    obtain ⟨base, hbase, rfl⟩ := hresolve hroot
    obtain ⟨hbaseEq, habs⟩ := loadLocalRoot_eq_ok hbase
    obtain ⟨hjoin, hslash, hnameChars⟩ := hname.part
    have hbaseChars := (fsChars_root hbase).2 hchars
    have hscope : 0x2F ∉ scope.value ∧ (∀ parts, joinPart parts scope.value = parts ++ [scope.value]) ∧
        ∀ c ∈ scope.value, isFsChar c = true := by
      refine ⟨by cases scope <;> decide, fun parts => ?_, by cases scope <;> decide⟩
      cases scope <;> rfl
    have hhead : ∃ rest, base = 0x2F :: rest := by
      rw [hbaseEq, pathStr]
      obtain hnil | hone | htwo := pathRoot_cases (envValue env envLocalRoot)
      · exact absurd hnil habs
      · exact ⟨_, by rw [hone]; rfl⟩
      · exact ⟨_, by rw [htwo]; rfl⟩
    -- the parts of the target are those of the base with two more
    have hparts : realParts (base ++ 0x2F :: scope.value ++ 0x2F :: name) =
        realParts base ++ [scope.value, name] := by
      rw [realParts, Text.splitOn_append_sep, Text.splitOn_append_sep, Text.splitOn_of_notMem hscope.1,
        Text.splitOn_of_notMem hslash, List.foldl_append, List.foldl_append, List.foldl_cons,
        List.foldl_nil, List.foldl_cons, List.foldl_nil, hscope.2.1, hjoin, List.append_assoc]
      rfl
    refine ⟨(.localFileSystem, 0x2F :: Text.join [0x2F]
      (realParts (base ++ 0x2F :: scope.value ++ 0x2F :: name))), ?_⟩
    rw [resolveExportFilesystem_eq h, resolveTargetOf, resolveLocalTarget_eq_ok]
    refine ⟨base, hbase, ?_, ?_, hbaseChars, ?_, rfl⟩
    · obtain ⟨rest, rfl⟩ := hhead
      rfl
    · intro c hc
      simp only [List.mem_append, List.mem_cons] at hc
      obtain (hc | rfl | hc) | rfl | hc := hc
      · exact hbaseChars c hc
      · decide
      · exact hscope.2.2 c hc
      · decide
      · exact hnameChars c hc
    · rw [hparts]
      exact List.prefix_append _ _

/-! ## The export contract -/

/-- **An export stays in the configured storage and reaches all of it**
exactly on a local root the operating system takes: on S3 it leaves the
bucket, on ADLS it reaches nothing. -/
theorem exports_iff {scope : LakehouseScope} {root : Text}
    (hroot : resolveLakehouseRoot L scope env = .ok root) :
    ExportsContained L env ∧ ExportsComplete L env ↔ LocalExport env := by
  have hbackend : ∃ backend base, canonicalBackend L (envValue env envBackend) = .ok backend ∧
      resolveBase L env backend = .ok base := by
    unfold resolveLakehouseRoot at hroot
    obtain ⟨backend, hbackend, hroot⟩ := bind_eq_ok.1 hroot
    obtain ⟨base, hbase, -⟩ := bind_eq_ok.1 hroot
    exact ⟨backend, base, hbackend, hbase⟩
  obtain ⟨backend, base, hbackend, hbase⟩ := hbackend
  have hname : ∀ {name : String}, envValue env envBackend = lit name →
      canonicalBackend L (lit name) = .ok backend := fun heq => heq ▸ hbackend
  cases backend with
  -- no target of ADLS is accepted, for the `@` of its authority
  | adls =>
    refine iff_of_false ?_ ?_
    · rintro ⟨-, hcomplete⟩
      have hname : IsObjectName (lit "x.parquet") := ⟨by decide, lit "x", rfl⟩
      obtain ⟨target, htarget⟩ := hcomplete _ _ _ hroot hname
      rw [resolveExportFilesystem_eq hbackend] at htarget
      exact resolveAdlsTarget_ne_ok htarget
    · rintro ⟨hlocal | hlocal, -⟩ <;> cases hname hlocal
  -- the bucket of an S3 target is not compared with the configured one
  | s3 =>
    refine iff_of_false ?_ ?_
    · rintro ⟨hcontained, -⟩
      unfold resolveBase at hbase
      cases hconfig : loadS3Config L env with
      | error e =>
        rw [hconfig] at hbase
        cases hbase
      | ok config => exact not_contained_s3 hbackend hconfig hcontained
    · rintro ⟨hlocal | hlocal, -⟩ <;> cases hname hlocal
  | localGated =>
    have hlocal : envValue env envBackend = lit "local-gated" ∨
        envValue env envBackend = lit "local" := by
      unfold canonicalBackend at hbackend
      split_ifs at hbackend with hadls hs3 hlocal hnil
      · cases hbackend
      · cases hbackend
      · exact hlocal
    rw [complete_local hbackend hroot, LocalExport]
    exact and_congr_left' (iff_of_true (contained_local hbackend) hlocal)

/-- A local root of plain characters. -/
theorem exports_local :
    ExportsContained Library.ascii localEnv ∧ ExportsComplete Library.ascii localEnv := by
  have hroot : resolveLakehouseRoot Library.ascii .fisheries localEnv =
      .ok (lit "/srv/lakehouse/fisheries") := by decide +kernel
  exact (exports_iff hroot).2 ⟨Or.inl rfl, by decide +kernel⟩

/-- The coordinates of an S3 deployment. -/
def s3Env : Env := .ofList [(envBackend, "s3"), (envS3Bucket, "blueeconomy-lakehouse"),
  (envS3Region, "us-east-1"), (envS3Secure, "true")]

/-- **A target in another bucket.** -/
theorem exports_other_bucket :
    (resolveLakehouseRoot Library.ascii .fisheries s3Env =
        .ok (lit "s3://blueeconomy-lakehouse/fisheries") ∧
      resolveExportFilesystem Library.ascii (lit "s3://other-bucket/x.parquet") s3Env =
        .ok (.s3FileSystem (lit "us-east-1") none (lit "https"), lit "other-bucket/x.parquet")) ∧
      ¬(ExportsContained Library.ascii s3Env ∧ ExportsComplete Library.ascii s3Env) := by
  have htarget : resolveExportFilesystem Library.ascii (lit "s3://other-bucket/x.parquet") s3Env =
      .ok (.s3FileSystem (lit "us-east-1") none (lit "https"), lit "other-bucket/x.parquet") := by
    decide +kernel
  obtain ⟨config, hconfig, hbucket⟩ := exists_of_any (x := loadS3Config Library.ascii s3Env)
    (p := fun config => config.bucket.val = lit "blueeconomy-lakehouse") (by decide +kernel)
  refine ⟨⟨by decide +kernel, htarget⟩, fun h => ?_⟩
  obtain ⟨config', hconfig', hprefix⟩ := h.1 _ _ htarget
  cases hconfig.symm.trans hconfig'
  rw [of_decide_eq_true hbucket] at hprefix
  exact absurd hprefix (by decide)

end Storage

end Lakehouse
