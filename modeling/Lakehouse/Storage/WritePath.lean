import Lakehouse.Storage.Config
/-!
# The table URIs the platform resolves

A table URI is a resolved base, the scope's component, the layer and the
`events` table. This file says which of these URIs the check of the write
path accepts: every one on S3, none on ADLS, whose authority names the
filesystem before an at sign, and on a local root the ones whose path a URL
reads as a path.
-/

namespace Lakehouse

namespace Storage

open Uri Segregation

variable {L : Library} {env : Env} {scope : LakehouseScope} {root layer u : Text}

/-- What a table URI adds to the resolved base. -/
def tableSuffix (scope : LakehouseScope) (layer : Text) : Text :=
  0x2F :: scope.value ++ layerDirectory scope [] layer ++ lit "/events"

/-- A medallion layer. -/
def IsLayer (layer : Text) : Prop :=
  layer = lit "bronze" ∨ layer = lit "silver" ∨ layer = lit "gold"

/-- The environments whose tables the write path accepts. -/
def Writable (L : Library) (env : Env) : Prop :=
  let root := envValue env envLocalRoot
  match canonicalBackend L (envValue env envBackend) with
  | .ok .s3 => True
  | .ok .localGated =>
    (∀ c ∈ root, L.isControl c = false ∧ c ≠ 0x3F ∧ c ≠ 0x23) ∧
      userInfo (pathAuthority root) = ([], [])
  | _ => False

/-! ## The suffix -/

/-- The characters of a suffix delimit nothing. -/
theorem tableSuffix_plain (hl : IsLayer layer) :
    ∀ c ∈ tableSuffix scope layer, 0x20 < c ∧ c < 0x7F ∧ c ≠ 0x3F ∧ c ≠ 0x23 := by
  obtain rfl | rfl | rfl := hl <;> cases scope <;> decide

theorem tableSuffix_getLast? (hl : IsLayer layer) :
    (tableSuffix scope layer).getLast? = some 0x73 := by
  obtain rfl | rfl | rfl := hl <;> cases scope <;> rfl

/-- The authority a suffix makes of itself after one more slash. -/
theorem splitNetloc_tableSuffix (hl : IsLayer layer) :
    (splitNetloc (0x2F :: tableSuffix scope layer)).1 = scope.value := by
  obtain rfl | rfl | rfl := hl <;> cases scope <;> rfl

theorem value_plain (scope : LakehouseScope) : 0x40 ∉ scope.value := by
  cases scope <;> decide

theorem value_getLast? (scope : LakehouseScope) (base : Text) :
    ∀ c ∈ (base ++ 0x2F :: scope.value).getLast?, c ≠ 0x2F := by
  rw [List.getLast?_append]
  have h : ∀ d ∈ (0x2F :: scope.value).getLast?, d ≠ 0x2F := by cases scope <;> decide
  cases hl : (0x2F :: scope.value).getLast? with
  | none => exact absurd (List.getLast?_eq_none_iff.1 hl) (List.cons_ne_nil _ _)
  | some d => simpa using h d hl

/-! ## What is handed out -/

theorem scope_of_mk? {w : SegregatedDeltaWriter L}
    (h : SegregatedDeltaWriter.mk? L scope root = .ok w) :
    w.scope = scope ∧ w.root = Text.rstripChar 0x2F root := by
  unfold SegregatedDeltaWriter.mk? at h
  split at h
  · rename_i r hr
    cases h
    refine ⟨rfl, ?_⟩
    unfold checkScopeRoot at hr
    simp only at hr
    split_ifs at hr <;> exact (Except.ok.inj hr).symm
  · cases h

/-- **A table URI is its base and a suffix**, and it splits. -/
theorem tableUri_eq_ok {base : Text} {w : SegregatedDeltaWriter L}
    (hw : SegregatedDeltaWriter.mk? L scope (base ++ 0x2F :: scope.value) = .ok w)
    (hu : w.tableUri layer = .ok u) :
    IsLayer layer ∧ u = base ++ tableSuffix scope layer ∧ ∃ r, urlsplit L u = .ok r := by
  obtain ⟨hscope, hroot⟩ := scope_of_mk? hw
  rw [Text.rstripChar_eq_self (value_getLast? scope base)] at hroot
  unfold SegregatedDeltaWriter.tableUri at hu
  obtain ⟨v, hv, hu⟩ := bind_eq_ok.1 hu
  obtain ⟨⟨⟩, hreq, hu⟩ := bind_eq_ok.1 hu
  cases hu
  unfold forLayer at hv
  split_ifs at hv with hl
  rw [hscope, hroot] at hv
  refine ⟨hl, ?_, ?_⟩
  · rw [← Except.ok.inj hv]
    simp [tableSuffix, layerDirectory]
  · unfold requireScopeTableUri scopesDeclaredByUri at hreq
    obtain ⟨_, hd, _⟩ := bind_eq_ok.1 hreq
    obtain ⟨r, hr, _⟩ := bind_eq_ok.1 hd
    exact ⟨r, hr⟩

/-! ## The check -/

/-- The characters of a URI the check lets through. -/
theorem le_of_hasControlCharacters (hL : L.AsciiControls) (h : hasControlCharacters L u = false) :
    ∀ c ∈ u, 0x20 ≤ c := by
  intro c hc
  have hn : L.isControl c = false := by
    simpa using List.any_eq_false.1 h c hc
  by_contra hlt
  rw [hL c (by omega), decide_eq_false_iff_not] at hn
  omega

/-- **The check of a table URI**, over its base: its control characters
are the base's. -/
theorem validateTableUri_suffix (hL : L.AsciiControls) {base : Text} {r : SplitResult}
    (hb : ∃ c ∈ base.head?, 0x20 < c ∧ c < 0x7F) (hl : IsLayer layer)
    (hr : urlsplit L (base ++ tableSuffix scope layer) = .ok r) :
    validateTableUri L (base ++ tableSuffix scope layer) = .ok () ↔
      hasControlCharacters L base = false ∧ ¬Decorated r := by
  obtain ⟨c, hc, hlo, hhi⟩ := hb
  have hsp : Text.isSpace c = false := by
    simp [Text.isSpace]
    omega
  have hhead : (base ++ tableSuffix scope layer).head? = some c := by
    rw [List.head?_append, hc]
    rfl
  have hstrip : (base ++ tableSuffix scope layer).strip = base ++ tableSuffix scope layer := by
    refine Text.strip_eq_self ?_ ?_
    · rw [hhead]
      simpa using hsp
    · rw [List.getLast?_append, tableSuffix_getLast? hl]
      simp [Text.isSpace]
  have hsuffix : (tableSuffix scope layer).any L.isControl = false := by
    refine List.any_eq_false.2 fun d hd => ?_
    obtain ⟨h1, h2, -⟩ := tableSuffix_plain hl d hd
    rw [hL d h2, decide_eq_true_iff]
    omega
  rw [validateTableUri_iff (fun h => by simp [h] at hhead) hstrip hr]
  unfold hasControlCharacters
  rw [List.any_append, hsuffix, Bool.or_false]

/-- What splits off a URI that the check finds no control character in. -/
theorem urlsplit_suffix (hL : L.AsciiControls) {base : Text} {r : SplitResult}
    (hb : ∃ c ∈ base.head?, 0x20 < c ∧ c < 0x7F) (hl : IsLayer layer)
    (hc : hasControlCharacters L base = false)
    (hr : urlsplit L (base ++ tableSuffix scope layer) = .ok r) :
    let rest := splitNetloc (splitScheme (base ++ tableSuffix scope layer)).2
    r.netloc = rest.1 ∧ r.fragment = (Text.partition 0x23 rest.2).2.2 ∧
      r.query = (Text.partition 0x3F (Text.partition 0x23 rest.2).1).2.2 := by
  obtain ⟨c, hcb, hlo, hhi⟩ := hb
  refine urlsplit_eq_ok ?_ ?_ hr
  · rw [List.head?_append, hcb]
    simpa using hlo
  · intro d hd
    obtain hd | hd := List.mem_append.1 hd
    · exact le_of_hasControlCharacters hL hc d hd
    · exact (tableSuffix_plain hl d hd).1.le

/-- The characters of the hosts, buckets and filesystems. -/
theorem inner_plain {inner : ℕ → Bool} {t : Text} (h : isDelimitedName inner t = true) :
    ∀ c ∈ t, inner c = true := by
  simp only [isDelimitedName, Bool.and_eq_true, List.all_eq_true] at h
  exact h.1.1.2

/-- **Every S3 table URI passes.** -/
theorem validateTableUri_s3 (hL : L.AsciiControls) (c : S3Config) (hl : IsLayer layer)
    {r : SplitResult} (hr : urlsplit L (c.s3BaseUri ++ tableSuffix scope layer) = .ok r) :
    validateTableUri L (c.s3BaseUri ++ tableSuffix scope layer) = .ok () := by
  have hchars : ∀ d ∈ c.bucket.val, 0x2D ≤ d ∧ d < 0x7F ∧ d ≠ 0x2F ∧ d ≠ 0x3A ∧ d ≠ 0x3F ∧
      d ≠ 0x40 := by
    intro d hd
    have := inner_plain c.bucket.property d hd
    simp [isLowerAlnum, isLower, isDigit] at this
    omega
  have hb : ∃ d ∈ c.s3BaseUri.head?, 0x20 < d ∧ d < 0x7F := ⟨0x73, rfl, by decide⟩
  have hc : hasControlCharacters L c.s3BaseUri = false := by
    refine List.any_eq_false.2 fun d hd => ?_
    have hp : ∀ d ∈ lit "s3://", 0x20 ≤ d ∧ d < 0x7F := by decide
    have hd : 0x20 ≤ d ∧ d < 0x7F := by
      obtain hd | hd := List.mem_append.1 hd
      · exact hp d hd
      · have := hchars d hd
        omega
    rw [hL d hd.2, decide_eq_true_iff]
    omega
  have hscheme : splitScheme (c.s3BaseUri ++ tableSuffix scope layer) =
      (lit "s3", 0x2F :: 0x2F :: (c.bucket.val ++ tableSuffix scope layer)) := by
    have h := splitScheme_colon (c := 0x73) (s := [0x33])
      (t := 0x2F :: 0x2F :: (c.bucket.val ++ tableSuffix scope layer)) (by decide) rfl rfl rfl
    simpa [S3Config.s3BaseUri, lit] using h
  obtain ⟨hn, hf, hq⟩ := urlsplit_suffix hL hb hl hc hr
  have hnet := splitNetloc_authority (a := c.bucket.val) (t := (tableSuffix scope layer).tail)
    fun d hd => by
      have := hchars d hd
      simp [endsNetloc]
      omega
  have htail : 0x2F :: (tableSuffix scope layer).tail = tableSuffix scope layer := rfl
  rw [htail] at hnet
  have hsuffix : ∀ c ∈ tableSuffix scope layer, _ := tableSuffix_plain hl
  rw [hscheme, hnet] at hn hf hq
  rw [Text.partition_of_notMem fun h => (hsuffix _ h).2.2.2 rfl] at hf hq
  rw [Text.partition_of_notMem fun h => (hsuffix _ h).2.2.1 rfl] at hq
  rw [validateTableUri_suffix hL hb hl hr]
  refine ⟨hc, ?_⟩
  rw [Decorated, hn, hf, hq, userInfo_of_notMem fun h => (hchars _ h).2.2.2.2.2 rfl]
  simp

/-- **No ADLS table URI passes**: its filesystem reads as a user. -/
theorem validateTableUri_adls (hL : L.AsciiControls) (c : AdlsGen2Config) (hl : IsLayer layer)
    {r : SplitResult} (hr : urlsplit L (c.abfsBaseUri ++ tableSuffix scope layer) = .ok r) :
    validateTableUri L (c.abfsBaseUri ++ tableSuffix scope layer) ≠ .ok () := by
  have hfs : c.filesystem ≠ [] ∧ ∀ d ∈ c.filesystem, 0x2D ≤ d ∧ d ≠ 0x2F ∧ d ≠ 0x3A ∧ d ≠ 0x3F := by
    have hall : ∀ d ∈ c.filesystem, (isLowerAlnum d || d == 0x2D) = true := by
      have h := c.isFilesystemName
      simp only [isFilesystemName, Bool.or_eq_true, Bool.and_eq_true, List.all_eq_true] at h
      obtain ⟨-, h⟩ | h := h
      · exact fun d hd => Bool.or_eq_true_iff.2 (Or.inl (h d hd))
      · exact inner_plain h
    refine ⟨fun h => ?_, fun d hd => ?_⟩
    · have hn := c.isFilesystemName
      rw [h] at hn
      exact absurd hn (by decide)
    · have := hall d hd
      simp [isLowerAlnum, isLower, isDigit] at this
      omega
  have hhost : ∀ d ∈ c.account ++ 0x2E :: c.endpointSuffix, 0x2D ≤ d ∧ d ≠ 0x2F ∧ d ≠ 0x3F ∧
      d ≠ 0x40 := by
    obtain ⟨cloud, hcloud⟩ := c.isEndpointSuffix
    have hs : ∀ d ∈ 0x2E :: c.endpointSuffix, 0x2D ≤ d ∧ d ≠ 0x2F ∧ d ≠ 0x3F ∧ d ≠ 0x40 := by
      unfold azureCloudSuffix at hcloud
      split_ifs at hcloud <;> rw [← Option.some.inj hcloud] <;> decide
    have ha := c.isAccountName
    simp only [isAccountName, Bool.and_eq_true, List.all_eq_true] at ha
    intro d hd
    obtain hd | hd := List.mem_append.1 hd
    · have := ha.2 d hd
      simp [isLowerAlnum, isLower, isDigit] at this
      omega
    · exact hs d hd
  have hb : ∃ d ∈ c.abfsBaseUri.head?, 0x20 < d ∧ d < 0x7F := ⟨0x61, rfl, by decide⟩
  rw [Ne, validateTableUri_suffix hL hb hl hr]
  rintro ⟨hc, hd⟩
  obtain ⟨hn, -, -⟩ := urlsplit_suffix hL hb hl hc hr
  have hscheme : splitScheme (c.abfsBaseUri ++ tableSuffix scope layer) = (lit "abfs",
      0x2F :: 0x2F :: ((c.filesystem ++ 0x40 :: (c.account ++ 0x2E :: c.endpointSuffix)) ++
        0x2F :: (tableSuffix scope layer).tail)) := by
    have h := splitScheme_colon (c := 0x61) (s := lit "bfs")
      (t := 0x2F :: 0x2F :: ((c.filesystem ++ 0x40 :: (c.account ++ 0x2E :: c.endpointSuffix)) ++
        0x2F :: (tableSuffix scope layer).tail)) (by decide) rfl rfl rfl
    have htail : 0x2F :: (tableSuffix scope layer).tail = tableSuffix scope layer := rfl
    rw [htail] at h ⊢
    simpa [AdlsGen2Config.abfsBaseUri, lit] using h
  have hnet : ∀ d ∈ c.filesystem ++ 0x40 :: (c.account ++ 0x2E :: c.endpointSuffix),
      endsNetloc d = false := by
    intro d hd
    rw [List.mem_append, List.mem_cons] at hd
    obtain hd | rfl | hd := hd
    · have := hfs.2 d hd
      simp [endsNetloc]
      omega
    · rfl
    · have := hhost d hd
      simp [endsNetloc]
      omega
  rw [hscheme, splitNetloc_authority hnet] at hn
  refine hd (Or.inl ?_)
  rw [hn, userInfo_append (fun h => (hfs.2 _ h).2.2.1 rfl) fun h => (hhost _ h).2.2.2 rfl]
  exact hfs.1

/-- A delimiter in a base is a query or a fragment of the URI. -/
theorem decorated_of_mem (hL : L.AsciiControls) {base : Text} {r : SplitResult}
    (hb : ∃ u, base = 0x2F :: u) (hl : IsLayer layer) (hc : hasControlCharacters L base = false)
    (hr : urlsplit L (base ++ tableSuffix scope layer) = .ok r) {d : ℕ}
    (hd : d = 0x3F ∨ d = 0x23) (hm : d ∈ base) : Decorated r := by
  obtain ⟨u, rfl⟩ := hb
  obtain ⟨-, hf, hq⟩ := urlsplit_suffix hL ⟨0x2F, rfl, by decide⟩ hl hc hr
  rw [List.cons_append, splitScheme_slash, ← List.cons_append] at hf hq
  set url := (0x2F :: u) ++ tableSuffix scope layer with hurl
  have hlast : url.getLast? = some 0x73 := by
    rw [hurl, List.getLast?_append, tableSuffix_getLast? hl]
    rfl
  have hmem : ∀ e ∈ url, endsNetloc e = true → e ≠ 0x2F →
      e ∈ (splitNetloc url).2 ∧ (splitNetloc url).2.getLast? = some 0x73 := fun e he h1 h2 =>
    hlast ▸ mem_splitNetloc h1 h2 he
  by_cases hh : 0x23 ∈ url
  · obtain ⟨h1, h2⟩ := hmem 0x23 hh rfl (by decide)
    refine Or.inr (Or.inr (Or.inr fun h => ?_))
    rw [hf] at h
    rw [Text.getLast?_of_partition_nil h1 h] at h2
    exact absurd h2 (by decide)
  · obtain rfl : d = 0x3F :=
      hd.resolve_right fun h => hh (h ▸ List.mem_append_left _ hm)
    obtain ⟨h1, h2⟩ := hmem 0x3F (List.mem_append_left _ hm) rfl (by decide)
    refine Or.inr (Or.inr (Or.inl fun h => ?_))
    rw [hq, Text.partition_of_notMem fun h => hh (mem_of_mem_splitNetloc h)] at h
    rw [Text.getLast?_of_partition_nil h1 h] at h2
    exact absurd h2 (by decide)

/-- **The local table URIs that pass** are those of a path without control
characters, `?` and `#` and without credentials in what reads as its
authority. -/
theorem validateTableUri_local (hL : L.AsciiControls) {path : Text} (hroot : pathRoot path ≠ [])
    (hl : IsLayer layer) {r : SplitResult}
    (hr : urlsplit L (pathStr path ++ tableSuffix scope layer) = .ok r) :
    validateTableUri L (pathStr path ++ tableSuffix scope layer) = .ok () ↔
      (∀ c ∈ path, L.isControl c = false ∧ c ≠ 0x3F ∧ c ≠ 0x23) ∧
        userInfo (pathAuthority path) = ([], []) := by
  have hslash : ∃ u, pathStr path = 0x2F :: u := by
    unfold pathStr
    obtain h | h | h := pathRoot_cases path
    · exact absurd h hroot
    · exact ⟨_, by rw [h]; rfl⟩
    · exact ⟨_, by rw [h]; rfl⟩
  have hb : ∃ d ∈ (pathStr path).head?, 0x20 < d ∧ d < 0x7F := by
    obtain ⟨u, hu⟩ := hslash
    exact ⟨0x2F, by rw [hu]; rfl, by decide⟩
  have hscheme : splitScheme (pathStr path ++ tableSuffix scope layer) =
      ([], pathStr path ++ tableSuffix scope layer) := by
    obtain ⟨u, hu⟩ := hslash
    rw [hu, List.cons_append, splitScheme_slash]
  have hsuffix : 0x2F :: (tableSuffix scope layer).tail = tableSuffix scope layer := rfl
  have hplain : ∀ c ∈ tableSuffix scope layer, _ := tableSuffix_plain hl
  -- the authority the URI is read with, where no delimiter ends it
  have hnet : (∀ c ∈ pathStr path, c ≠ 0x3F ∧ c ≠ 0x23) →
      userInfo (splitNetloc (pathStr path ++ tableSuffix scope layer)).1 =
        userInfo (pathAuthority path) := by
    intro h
    have hcases : (splitNetloc (pathStr path ++ 0x2F :: (tableSuffix scope layer).tail)).1 =
        pathAuthority path ∨ _ := splitNetloc_pathStr hroot h
    obtain hn | ⟨hp, ha⟩ := hcases
    · rw [hsuffix] at hn
      rw [hn]
    · rw [hp, ha, List.singleton_append, splitNetloc_tableSuffix hl,
        userInfo_of_notMem (value_plain scope)]
      rfl
  have hP : (∀ c ∈ path, L.isControl c = false ∧ c ≠ 0x3F ∧ c ≠ 0x23) ↔
      ∀ c ∈ pathStr path, L.isControl c = false ∧ c ≠ 0x3F ∧ c ≠ 0x23 :=
    (forall_mem_pathStr ⟨by rw [hL _ (by decide)]; rfl, by decide⟩
      ⟨by rw [hL _ (by decide)]; rfl, by decide⟩ path).symm
  rw [validateTableUri_suffix hL hb hl hr, hP]
  constructor
  · rintro ⟨hc, hd⟩
    have hclean : ∀ c ∈ pathStr path, c ≠ 0x3F ∧ c ≠ 0x23 := fun c hm =>
      ⟨fun h => hd (decorated_of_mem hL hslash hl hc hr (Or.inl h) hm),
        fun h => hd (decorated_of_mem hL hslash hl hc hr (Or.inr h) hm)⟩
    refine ⟨fun c hm => ⟨by simpa using List.any_eq_false.1 hc c hm, hclean c hm⟩, ?_⟩
    obtain ⟨hn, -, -⟩ := urlsplit_suffix hL hb hl hc hr
    rw [hscheme] at hn
    rw [← hnet hclean, ← hn]
    simp only [Decorated, not_or, not_not] at hd
    exact Prod.ext hd.1 hd.2.1
  · rintro ⟨hchars, hauth⟩
    have hc : hasControlCharacters L (pathStr path) = false :=
      List.any_eq_false.2 fun c hm => by simp [(hchars c hm).1]
    obtain ⟨hn, hf, hq⟩ := urlsplit_suffix hL hb hl hc hr
    rw [hscheme] at hn hf hq
    have hno : ∀ d, d = 0x3F ∨ d = 0x23 →
        d ∉ (splitNetloc (pathStr path ++ tableSuffix scope layer)).2 := by
      intro d hd hm
      obtain hm | hm := List.mem_append.1 (mem_of_mem_splitNetloc hm)
      · have := (hchars d hm).2
        omega
      · have := (hplain d hm).2.2
        omega
    rw [Text.partition_of_notMem (hno _ (Or.inr rfl))] at hf hq
    rw [Text.partition_of_notMem (hno _ (Or.inl rfl))] at hq
    refine ⟨hc, ?_⟩
    rw [Decorated, hn, hf, hq, hnet fun c hm => (hchars c hm).2, hauth]
    simp

/-- **A resolved table URI passes the check of the write path exactly where
the environment is `Writable`.** -/
theorem validateTableUri_resolved (hL : L.AsciiControls)
    (hroot : resolveLakehouseRoot L scope env = .ok root) {w : SegregatedDeltaWriter L}
    (hw : SegregatedDeltaWriter.mk? L scope root = .ok w) (hu : w.tableUri layer = .ok u) :
    validateTableUri L u = .ok () ↔ Writable L env := by
  unfold resolveLakehouseRoot at hroot
  obtain ⟨backend, hbackend, hroot⟩ := bind_eq_ok.1 hroot
  obtain ⟨base, hbase, hroot⟩ := bind_eq_ok.1 hroot
  cases hroot
  obtain ⟨hl, rfl, r, hr⟩ := tableUri_eq_ok hw hu
  unfold Writable
  rw [hbackend]
  cases backend with
  -- the base names the container before an `@`, which the check of the URI refuses
  | adls =>
    unfold resolveBase at hbase
    cases hc : loadAdlsConfig env with
    | error e => rw [hc] at hbase; cases hbase
    | ok c =>
      rw [hc] at hbase
      cases hbase
      exact iff_of_false (validateTableUri_adls hL c hl hr) id
  | s3 =>
    unfold resolveBase at hbase
    cases hc : loadS3Config L env with
    | error e => rw [hc] at hbase; cases hbase
    | ok c =>
      rw [hc] at hbase
      cases hbase
      exact iff_of_true (validateTableUri_s3 hL c hl hr) trivial
  | localGated =>
    unfold resolveBase loadLocalRoot at hbase
    split_ifs at hbase
    obtain ⟨path, hpath, hbase⟩ := bind_eq_ok.1 hbase
    split_ifs at hbase with habs
    cases hbase
    unfold requireEnv at hpath
    simp only at hpath
    split_ifs at hpath
    rw [Except.ok.inj hpath]
    exact validateTableUri_local hL habs hl hr

/-- The coordinates of an ADLS deployment. -/
def adlsEnv : Env := .ofList [(envBackend, "adls"), (envAzureCloud, "AzureUSGovernment"),
  (envStorageAccount, "blueeconomystore"), (envStorageFilesystem, "lakehouse")]

/-- The coordinates of a gated local root. -/
def localEnv : Env := .ofList [(envBackend, "local-gated"), (envAllowLocal, "true"),
  (envLocalRoot, "/srv/lakehouse")]

/-- On a local root the check accepts what was resolved. -/
theorem validateTableUri_resolved_local :
    ∃ w, SegregatedDeltaWriter.mk? Library.ascii .cvff (lit "/srv/lakehouse/cvff") = .ok w ∧
      w.tableUri (lit "bronze") = .ok (lit "/srv/lakehouse/cvff/cvff_bronze/events") ∧
      (validateTableUri Library.ascii (lit "/srv/lakehouse/cvff/cvff_bronze/events") = .ok () ↔
        Writable Library.ascii localEnv) :=
  have hroot : resolveLakehouseRoot Library.ascii .cvff localEnv =
      .ok (lit "/srv/lakehouse/cvff") := by decide +kernel
  have hbronze : ∃ w, SegregatedDeltaWriter.mk? Library.ascii .cvff
      (lit "/srv/lakehouse/cvff") = .ok w ∧ w.tableUri (lit "bronze") = _ := ⟨_, rfl, rfl⟩
  hbronze.imp fun _ h => ⟨h.1, h.2, validateTableUri_resolved Library.ascii_controls hroot h.1 h.2⟩

/-- **On ADLS the write path refuses what the platform resolved.** -/
theorem validateTableUri_resolved_adls :
    let root := lit "abfs://lakehouse@blueeconomystore.dfs.core.usgovcloudapi.net/cvff"
    let uri := root ++ lit "/cvff_bronze/events"
    resolveLakehouseRoot Library.ascii .cvff adlsEnv = .ok root ∧
      (SegregatedDeltaWriter.mk? Library.ascii .cvff root >>= (·.tableUri (lit "bronze"))) = .ok uri ∧
      validateTableUri Library.ascii uri = .error (.valueError (lit
        "table URI must not contain embedded credentials, query parameters or fragments")) := by
  decide +kernel

end Storage

end Lakehouse
