import Lakehouse.Storage.Export
/-!
# The object an S3 URI names

`validate_s3_uri` checks what `urlsplit` makes of a URI, and `urlsplit`
drops tabs and line breaks, control characters in front, the case of the
scheme and empty queries and fragments. So the URIs it accepts are those
that are an object's URI once this is done (`validateS3Uri_iff`), and the
object is the one the text names only where there was nothing to do
(`validateS3Uri_literal_iff`).
-/

namespace Lakehouse

namespace Storage

open Uri

/-! ## The rules -/

/-- **The rules of a bucket name.** -/
structure BucketRules (bucket : Text) : Prop where
  name : isBucketName bucket = true
  notIpAddress : isIpAddress bucket = false
  dots : ¬(lit ".." <:+: bucket ∨ lit ".-" <:+: bucket ∨ lit "-." <:+: bucket)

/-- **The rules of a key.** -/
structure KeyRules (key : Text) : Prop where
  nonempty : key ≠ []
  bytes : ∃ encoded, encodeUtf8 key = .ok encoded ∧ encoded.length ≤ 1024
  printable : ∀ c ∈ key, 0x20 ≤ c ∧ c ≠ 0x7F
  segments : ∀ segment ∈ Text.splitOn 0x2F key,
    segment ≠ [] ∧ segment ≠ lit "." ∧ segment ≠ lit ".."

/-- A bucket name accepted is one of the rules. -/
theorem validateS3BucketName_eq_ok {bucket : Text} {x : { name : Text // isBucketName name = true }} :
    validateS3BucketName bucket = .ok x ↔ x.val = bucket ∧ BucketRules bucket := by
  unfold validateS3BucketName
  split_ifs with hname hip hdots
  · exact iff_of_false nofun fun ⟨_, h⟩ => by
      rw [h.notIpAddress] at hip
      cases hip
  · exact iff_of_false nofun fun ⟨_, h⟩ => h.dots hdots
  · constructor
    · rintro ⟨⟩
      exact ⟨rfl, hname, eq_false_of_ne_true hip, hdots⟩
    · rintro ⟨rfl, -⟩
      rfl
  · exact iff_of_false nofun fun ⟨_, h⟩ => hname h.name

/-- A key accepted is one of the rules, and is returned as it is. -/
theorem validateS3Key_eq_ok {key key' : Text} :
    validateS3Key key = .ok key' ↔ key' = key ∧ KeyRules key := by
  unfold validateS3Key
  rw [guard_eq_ok]
  constructor
  · rintro ⟨hhead, h⟩
    rw [not_or] at hhead
    obtain ⟨encoded, hencoded, h⟩ := bind_eq_ok.1 h
    obtain ⟨hlen, h⟩ := guard_eq_ok.1 h
    obtain ⟨hcontrol, h⟩ := guard_eq_ok.1 h
    obtain ⟨hsegments, h⟩ := guard_eq_ok.1 h
    cases h
    refine ⟨rfl, hhead.1, ⟨encoded, hencoded, not_lt.1 hlen⟩, fun c hc => ?_, fun segment hs => ?_⟩
    · have hnot : ¬(c < 0x20 ∨ c = 0x7F) := fun h =>
        hcontrol (List.any_eq_true.2 ⟨c, hc, by simpa using h⟩)
      omega
    · have hnot : ¬(segment = [] ∨ segment = lit "." ∨ segment = lit "..") := fun h =>
        hsegments (List.any_eq_true.2 ⟨segment, hs, decide_eq_true h⟩)
      simpa only [not_or] using hnot
  · rintro ⟨rfl, h⟩
    obtain ⟨encoded, hencoded, hlen⟩ := h.bytes
    refine ⟨not_or.2 ⟨h.nonempty, fun hslash => ?_⟩, ?_⟩
    · obtain ⟨t, rfl⟩ := List.head?_eq_some_iff.1 hslash
      exact (h.segments [] (by rw [Text.splitOn, if_pos rfl]; exact List.mem_cons_self)).1 rfl
    · rw [hencoded, ok_bind, guard_eq_ok, guard_eq_ok, guard_eq_ok]
      refine ⟨not_lt.2 hlen, fun hany => ?_, fun hany => ?_, rfl⟩
      · obtain ⟨c, hc, hcontrol⟩ := List.any_eq_true.1 hany
        obtain ⟨hlow, hdel⟩ := h.printable c hc
        simp only [Bool.or_eq_true, decide_eq_true_eq, beq_iff_eq] at hcontrol
        omega
      · obtain ⟨segment, hs, hbad⟩ := List.any_eq_true.1 hany
        obtain ⟨hne, hdot, hdots⟩ := h.segments segment hs
        obtain hbad | hbad | hbad := of_decide_eq_true hbad
        · exact hne hbad
        · exact hdot hbad
        · exact hdots hbad

/-- The characters of a bucket name. -/
theorem BucketRules.chars {bucket : Text} (h : BucketRules bucket) :
    ∀ c ∈ bucket, isLowerAlnum c = true ∨ c = 0x2E ∨ c = 0x2D := by
  have hname := h.name
  simp only [isBucketName, isDelimitedName, Bool.and_eq_true] at hname
  intro c hc
  have hall := List.all_eq_true.1 hname.1.1.2 c hc
  simpa [or_assoc] using hall

/-- A bucket name is not empty. -/
theorem BucketRules.ne_nil {bucket : Text} (h : BucketRules bucket) : bucket ≠ [] := by
  rintro rfl
  exact absurd h.name (by decide)

/-- No character of a bucket name ends an authority or has a meaning in
one. -/
theorem BucketRules.netloc {L : Library} {bucket : Text} (h : BucketRules bucket) :
    IsNetloc L bucket ∧ (∀ c ∈ bucket, endsNetloc c = false) ∧ userInfo bucket = ([], []) := by
  have hplain : ∀ c ∈ bucket, c < 0x80 ∧ c ≠ 0x5B ∧ c ≠ 0x5D ∧ c ≠ 0x40 ∧ endsNetloc c = false := by
    intro c hc
    have hchars := h.chars c hc
    simp only [isLowerAlnum, isLower, isDigit, Bool.or_eq_true, Bool.and_eq_true,
      decide_eq_true_eq] at hchars
    simp only [endsNetloc, Bool.or_eq_false_iff, beq_eq_false_iff_ne]
    omega
  have hopen : 0x5B ∉ bucket := fun hc => (hplain _ hc).2.1 rfl
  have hclose : 0x5D ∉ bucket := fun hc => (hplain _ hc).2.2.1 rfl
  have hat : 0x40 ∉ bucket := fun hc => (hplain _ hc).2.2.2.1 rfl
  refine ⟨⟨iff_of_false hopen hclose, fun hc => absurd hc hopen, ?_⟩,
    fun c hc => (hplain c hc).2.2.2.2, userInfo_of_notMem hat⟩
  rw [checkNetloc, List.all_eq_true.2 fun c hc => decide_eq_true (hplain c hc).1]
  rfl

/-! ## What is accepted -/

/-- **A cleaned text is an object's URI**, but for the case of its scheme and
for an empty query and an empty fragment. -/
def Writes (text bucket key : Text) : Prop :=
  ∃ s tail, (s = 0x73 ∨ s = 0x53) ∧ tail ∈ [[], lit "?", lit "#", lit "?#"] ∧
    text = s :: lit "3://" ++ bucket ++ 0x2F :: key ++ tail ∧ 0x3F ∉ key ∧ 0x23 ∉ key

/-- A text of the scheme `s3` begins with it. -/
theorem splitScheme_s3 {text : Text} (h : (splitScheme text).1 = lit "s3") :
    ∃ s, (s = 0x73 ∨ s = 0x53) ∧ text = s :: 0x33 :: 0x3A :: (splitScheme text).2 := by
  have hlower : ∀ c, (if isUpper c then c + 0x20 else c) = 0x73 → c = 0x73 ∨ c = 0x53 := by
    intro c hc
    split_ifs at hc <;> omega
  have hthree : ∀ c, (if isUpper c then c + 0x20 else c) = 0x33 → c = 0x33 := by
    intro c hc
    split_ifs at hc with hupper
    · simp only [isUpper, Bool.and_eq_true, decide_eq_true_eq] at hupper
      omega
    · exact hc
  by_cases hcolon : 0x3A ∈ text
  · obtain ⟨a, rest, rfl, ha⟩ := List.eq_append_cons_of_mem hcolon
    rw [splitScheme, Text.partition_append ha] at h ⊢
    cases a with
    | nil => cases h
    | cons c a =>
      simp only at h ⊢
      split_ifs at h ⊢
      · obtain ⟨hc, hrest⟩ := List.cons.inj (h : lower (c :: a) = [0x73, 0x33])
        obtain ⟨d, rfl⟩ : ∃ d, a = [d] := by
          rw [← List.length_eq_one_iff, ← List.length_map]
          exact congrArg List.length hrest
        obtain rfl := hthree d (List.cons.inj hrest).1
        exact ⟨c, hlower c hc, rfl⟩
      · cases h
  · rw [splitScheme, Text.partition_of_notMem hcolon] at h
    cases text <;> cases h

/-- A text with an authority begins with two slashes and the authority. -/
theorem splitNetloc_eq {text : Text} (h : (splitNetloc text).1 ≠ []) :
    text = 0x2F :: 0x2F :: ((splitNetloc text).1 ++ (splitNetloc text).2) := by
  unfold splitNetloc at h ⊢
  split at h
  · rw [List.takeWhile_append_dropWhile]
  · exact absurd rfl h

/-- What follows an authority, where there is neither a query nor a
fragment. -/
theorem eq_pathOf {rest : Text} (hquery : queryOf rest = []) (hfragment : fragmentOf rest = []) :
    (∃ tail ∈ [[], lit "?", lit "#", lit "?#"], rest = pathOf rest ++ tail) ∧
      0x3F ∉ pathOf rest ∧ 0x23 ∉ pathOf rest := by
  rw [queryOf] at hquery
  rw [fragmentOf] at hfragment
  obtain ⟨front, hfront⟩ : ∃ front, front = (Text.partition 0x23 rest).1 := ⟨_, rfl⟩
  have hnone : 0x23 ∉ front := hfront ▸ Text.notMem_partition 0x23 rest
  have hrest := Text.eq_of_partition_nil hfragment
  rw [pathOf]
  rw [← hfront] at hquery hrest ⊢
  have hpath := Text.eq_of_partition_nil hquery
  refine ⟨?_, Text.notMem_partition 0x3F front, fun hmem => hnone ?_⟩
  · generalize (Text.partition 0x3F front).1 = path at hpath ⊢
    obtain rfl | rfl := hpath
    · obtain rfl | rfl := hrest
      · exact ⟨[], by decide, (List.append_nil _).symm⟩
      · exact ⟨lit "#", by decide, rfl⟩
    · obtain rfl | rfl := hrest
      · exact ⟨lit "?", by decide, rfl⟩
      · exact ⟨lit "?#", by decide, List.append_assoc _ _ _⟩
  · obtain hpath | hpath := hpath
    · rwa [hpath]
    · rw [hpath]
      exact List.mem_append_left _ hmem

/-- The path of a text without query and fragment. -/
theorem pathOf_append {path tail : Text} (hquery : 0x3F ∉ path) (hfragment : 0x23 ∉ path)
    (htail : tail ∈ [[], lit "?", lit "#", lit "?#"]) :
    pathOf (path ++ tail) = path ∧ queryOf (path ++ tail) = [] ∧ fragmentOf (path ++ tail) = [] := by
  have hmark : Text.partition 0x3F (path ++ [0x3F]) = (path, true, []) := Text.partition_append hquery
  have hboth : 0x23 ∉ path ++ [0x3F] := by simpa using hfragment
  simp only [List.mem_cons, List.not_mem_nil, or_false] at htail
  rw [pathOf, queryOf, fragmentOf]
  obtain rfl | rfl | rfl | rfl := htail
  · rw [List.append_nil, Text.partition_of_notMem hfragment, Text.partition_of_notMem hquery]
    exact ⟨rfl, rfl, rfl⟩
  · rw [Text.partition_of_notMem (t := path ++ lit "?") hboth]
    exact ⟨congrArg Prod.fst hmark, congrArg (fun p => p.2.2) hmark, rfl⟩
  · have hsharp : Text.partition 0x23 (path ++ lit "#") = (path, true, []) :=
      Text.partition_append hfragment
    rw [hsharp, Text.partition_of_notMem hquery]
    exact ⟨rfl, rfl, rfl⟩
  · have hsharp : Text.partition 0x23 (path ++ lit "?#") = (path ++ [0x3F], true, []) := by
      have happend : path ++ lit "?#" = (path ++ [0x3F]) ++ 0x23 :: [] := by
        rw [List.append_assoc]
        rfl
      rw [happend, Text.partition_append hboth]
    rw [hsharp]
    exact ⟨congrArg Prod.fst hmark, congrArg (fun p => p.2.2) hmark, rfl⟩

/-- What is checked of a URI that was split. -/
theorem validateS3Uri_eq_ok {L : Library} {uri bucket key : Text} :
    validateS3Uri L uri = .ok (bucket, key) ↔ (uri ≠ [] ∧ uri.strip = uri) ∧
      (∃ parsed, urlsplit L uri = .ok parsed ∧ parsed.scheme = lit "s3" ∧ ¬Decorated parsed ∧
        parsed.netloc = bucket ∧ parsed.path = 0x2F :: key) ∧ BucketRules bucket ∧ KeyRules key := by
  unfold validateS3Uri
  rw [guard_eq_ok, not_or, not_not]
  constructor
  · rintro ⟨⟨hne, hstrip⟩, h⟩
    obtain ⟨parsed, hparsed, h⟩ := bind_eq_ok.1 h
    obtain ⟨hscheme, h⟩ := guard_eq_ok.1 h
    obtain ⟨hdecorated, h⟩ := guard_eq_ok.1 h
    obtain ⟨name, hname, h⟩ := bind_eq_ok.1 h
    obtain ⟨hslash, h⟩ := guard_eq_ok.1 h
    obtain ⟨key', hkey, h⟩ := bind_eq_ok.1 h
    obtain ⟨hval, hbucket⟩ := validateS3BucketName_eq_ok.1 hname
    obtain ⟨path, hpath⟩ := List.head?_eq_some_iff.1 (not_not.1 hslash)
    obtain ⟨hkeyEq, hrules⟩ := validateS3Key_eq_ok.1 hkey
    cases h
    rw [hpath] at hrules hkeyEq
    obtain rfl : key = path := hkeyEq
    exact ⟨⟨hne, hstrip.symm⟩,
      ⟨parsed, hparsed, not_not.1 hscheme, hdecorated, hval.symm, hpath⟩, hval ▸ hbucket, hrules⟩
  · rintro ⟨⟨hne, hstrip⟩, ⟨parsed, hparsed, hscheme, hdecorated, hnetloc, hpath⟩, hbucket, hkey⟩
    have hname := validateS3BucketName_eq_ok.2 ⟨(rfl : (⟨bucket, hbucket.name⟩ :
      { name : Text // isBucketName name = true }).val = bucket), hbucket⟩
    refine ⟨⟨hne, hstrip.symm⟩, ?_⟩
    rw [hparsed, ok_bind, guard_eq_ok, guard_eq_ok, hnetloc, hname, ok_bind, guard_eq_ok, hpath]
    refine ⟨not_not.2 hscheme, hdecorated, not_not.2 rfl, ?_⟩
    simp only [List.drop_succ_cons, List.drop_zero]
    rw [validateS3Key_eq_ok.2 ⟨rfl, hkey⟩]
    rfl

/-- **What splits into an object's bucket and key.** -/
theorem writes_iff {L : Library} {uri bucket key : Text} (hbucket : BucketRules bucket) :
    (∃ parsed, urlsplit L uri = .ok parsed ∧ parsed.scheme = lit "s3" ∧ ¬Decorated parsed ∧
      parsed.netloc = bucket ∧ parsed.path = 0x2F :: key) ↔ Writes (cleaned uri) bucket key := by
  constructor
  · rintro ⟨parsed, hparsed, hscheme, hdecorated, hnetloc, hpath⟩
    obtain ⟨-, rfl⟩ := urlsplit_iff.1 hparsed
    simp only at hscheme hnetloc hpath
    obtain ⟨s, hs, htext⟩ := splitScheme_s3 hscheme
    have hauthority := splitNetloc_eq (hnetloc ▸ hbucket.ne_nil)
    rw [← hierPart, hnetloc] at hauthority
    rw [Decorated, not_or, not_or, not_or, not_not, not_not, not_not, not_not] at hdecorated
    obtain ⟨⟨tail, htail, hrest⟩, hquery, hfragment⟩ :=
      eq_pathOf hdecorated.2.2.1 hdecorated.2.2.2
    rw [hpath] at hrest hquery hfragment
    rw [List.mem_cons, not_or] at hquery hfragment
    refine ⟨s, tail, hs, htail, ?_, hquery.2, hfragment.2⟩
    rw [htext, hauthority, hrest]
    simp [lit]
  · rintro ⟨s, tail, hs, htail, htext, hquery, hfragment⟩
    obtain ⟨hnetloc, hends, huser⟩ := hbucket.netloc (L := L)
    obtain ⟨hpath, hnoQuery, hnoFragment⟩ : pathOf (0x2F :: key ++ tail) = 0x2F :: key ∧
        queryOf (0x2F :: key ++ tail) = [] ∧ fragmentOf (0x2F :: key ++ tail) = [] :=
      pathOf_append (by simpa using hquery) (by simpa using hfragment) htail
    have hscheme : splitScheme (cleaned uri) =
        (lit "s3", 0x2F :: 0x2F :: (bucket ++ 0x2F :: (key ++ tail))) := by
      have hflat : cleaned uri =
          s :: 0x33 :: 0x3A :: 0x2F :: 0x2F :: (bucket ++ 0x2F :: (key ++ tail)) := by
        rw [htext]
        simp [lit]
      rw [hflat]
      obtain rfl | rfl := hs <;> rfl
    have hhier : hierPart uri = (bucket, 0x2F :: key ++ tail) := by
      rw [hierPart, hscheme]
      exact splitNetloc_authority hends
    refine ⟨_, urlsplit_iff.2 ⟨by rwa [hhier], rfl⟩, ?_, ?_, ?_, ?_⟩
    · exact congrArg Prod.fst hscheme
    · rw [Decorated, hhier, huser, hnoQuery, hnoFragment]
      simp
    · exact congrArg Prod.fst hhier
    · rw [hhier]
      exact hpath

/-- **The URIs that are accepted**, and what they are taken for. -/
theorem validateS3Uri_iff {L : Library} {uri bucket key : Text} :
    validateS3Uri L uri = .ok (bucket, key) ↔ (uri ≠ [] ∧ uri.strip = uri) ∧
      Writes (cleaned uri) bucket key ∧ BucketRules bucket ∧ KeyRules key := by
  rw [validateS3Uri_eq_ok]
  refine and_congr_right fun _ => ?_
  constructor
  · rintro ⟨hparsed, hbucket, hkey⟩
    exact ⟨(writes_iff hbucket).1 hparsed, hbucket, hkey⟩
  · rintro ⟨hwrites, hbucket, hkey⟩
    exact ⟨(writes_iff hbucket).2 hwrites, hbucket, hkey⟩

/-! ## The literal ones -/

/-- **A URI names an object letter by letter**, and the rules hold. -/
structure LiteralS3 (uri bucket key : Text) : Prop where
  text : uri = lit "s3://" ++ bucket ++ 0x2F :: key
  bucket : BucketRules bucket
  key : KeyRules key

/-- A text in which `urlsplit` changes nothing: no tab, line feed or carriage
return, neither a control character nor a capital letter first, and no
delimiter last. -/
structure Untouched (uri : Text) : Prop where
  breaks : ∀ c ∈ uri, c ≠ 0x09 ∧ c ≠ 0x0A ∧ c ≠ 0x0D
  first : ∀ c ∈ uri.head?, 0x20 < c ∧ c ≠ 0x53
  last : ∀ c ∈ uri.getLast?, c ≠ 0x3F ∧ c ≠ 0x23

/-- A text without white space around it that is an object's URI once it is
cleaned. -/
def Restores (uri : Text) : Prop :=
  (uri ≠ [] ∧ uri.strip = uri) ∧ ∃ bucket key, Writes (cleaned uri) bucket key ∧
    BucketRules bucket ∧ KeyRules key

/-- A text left untouched is itself. -/
theorem Untouched.cleaned {uri : Text} (h : Untouched uri) : Uri.cleaned uri = uri := by
  have hdrop : uri.dropWhile (fun c => decide (c ≤ 0x20)) = uri :=
    Text.dropWhile_of_head? fun c hc => decide_eq_false (Nat.not_le.2 (h.first c hc).1)
  rw [Uri.cleaned, hdrop]
  refine List.filter_eq_self.2 fun c hc => ?_
  obtain ⟨htab, hfeed, hreturn⟩ := h.breaks c hc
  simp [htab, hfeed, hreturn]

/-- A literal object URI is left untouched. -/
theorem LiteralS3.untouched {uri bucket key : Text} (h : LiteralS3 uri bucket key)
    (hquery : 0x3F ∉ key) (hfragment : 0x23 ∉ key) : Untouched uri := by
  obtain ⟨rfl, hbucket, hkey⟩ := h
  refine ⟨fun c hc => ?_, fun c hc => ?_, fun c hc => ?_⟩
  · rw [List.mem_append, List.mem_append, List.mem_cons] at hc
    obtain (hc | hc) | rfl | hc := hc
    · have hscheme : ∀ c ∈ lit "s3://", c ≠ 0x09 ∧ c ≠ 0x0A ∧ c ≠ 0x0D := by decide
      exact hscheme c hc
    · have hchars := hbucket.chars c hc
      simp only [isLowerAlnum, isLower, isDigit, Bool.or_eq_true, Bool.and_eq_true,
        decide_eq_true_eq] at hchars
      omega
    · decide
    · have hlow := (hkey.printable c hc).1
      omega
  · obtain rfl : 0x73 = c := Option.some.inj hc
    decide
  · have hlast : c ∈ key := by
      have hend : (lit "s3://" ++ bucket ++ 0x2F :: key).getLast? = key.getLast? := by
        rw [List.getLast?_append_of_ne_nil _ (List.cons_ne_nil _ _),
          List.getLast?_cons_of_ne_nil hkey.nonempty]
      rw [hend] at hc
      exact List.mem_of_getLast? hc
    constructor
    · rintro rfl
      exact hquery hlast
    · rintro rfl
      exact hfragment hlast

/-- Where nothing is changed, what is accepted is literal. -/
theorem Untouched.literal {uri bucket key : Text} (h : Untouched uri)
    (hwrites : Writes (Uri.cleaned uri) bucket key) (hbucket : BucketRules bucket)
    (hkey : KeyRules key) : LiteralS3 uri bucket key := by
  obtain ⟨s, tail, hs, htail, htext, -, -⟩ := hwrites
  rw [h.cleaned] at htext
  have hscheme : s = 0x73 := by
    refine hs.resolve_right fun hcapital => (h.first s ?_).2 hcapital
    rw [htext]
    rfl
  have hlast : ∀ c ∈ tail.getLast?, c ≠ 0x3F ∧ c ≠ 0x23 := by
    intro c hc
    refine h.last c ?_
    rw [htext, List.getLast?_append, Option.mem_def.1 hc]
    rfl
  have hnone : tail = [] := by
    simp only [List.mem_cons, List.not_mem_nil, or_false] at htail
    obtain rfl | rfl | rfl | rfl := htail
    · rfl
    · exact absurd rfl (hlast 0x3F rfl).1
    · exact absurd rfl (hlast 0x23 rfl).2
    · exact absurd rfl (hlast 0x23 rfl).2
  subst hscheme hnone
  refine ⟨?_, hbucket, hkey⟩
  rw [htext, List.append_nil]
  rfl

/-- **The object of an S3 URI is the one it names exactly where `urlsplit`
has nothing to do**, the URIs that are refused apart. -/
theorem validateS3Uri_literal_iff (L : Library) (uri : Text) :
    ((∀ bucket key, validateS3Uri L uri = .ok (bucket, key) → LiteralS3 uri bucket key) ∧
      ∀ env filesystem object, resolveS3Target L uri env = .ok (filesystem, object) →
        uri = lit "s3://" ++ object) ↔ Untouched uri ∨ ¬Restores uri := by
  constructor
  · rintro ⟨hliteral, -⟩
    by_cases hrestores : Restores uri
    · obtain ⟨htext, bucket, key, hwrites, hbucket, hkey⟩ := hrestores
      have hnames := hliteral bucket key (validateS3Uri_iff.2 ⟨htext, hwrites, hbucket, hkey⟩)
      obtain ⟨s, tail, -, -, -, hquery, hfragment⟩ := hwrites
      exact .inl (hnames.untouched hquery hfragment)
    · exact .inr hrestores
  · intro h
    -- what is accepted is the text it was read from, where nothing was cut off
    have hliteral : ∀ bucket key, validateS3Uri L uri = .ok (bucket, key) →
        LiteralS3 uri bucket key := by
      intro bucket key hok
      obtain ⟨htext, hwrites, hbucket, hkey⟩ := validateS3Uri_iff.1 hok
      obtain huntouched | hrefused := h
      · exact huntouched.literal hwrites hbucket hkey
      · exact absurd ⟨htext, bucket, key, hwrites, hbucket, hkey⟩ hrefused
    refine ⟨hliteral, fun env filesystem object hobject => ?_⟩
    obtain ⟨config, -, hobject⟩ := bind_eq_ok.1 hobject
    obtain ⟨⟨bucket, key⟩, hok, hobject⟩ := bind_eq_ok.1 hobject
    cases hobject
    exact (hliteral bucket key hok).text.trans (List.append_assoc _ _ _)

/-- A tab in a key is gone before the key is checked. -/
theorem validateS3Uri_tab : ¬∀ (L : Library) (uri bucket key : Text),
    validateS3Uri L uri = .ok (bucket, key) → LiteralS3 uri bucket key := by
  intro hall
  have hok : validateS3Uri Library.ascii (lit "s3://exports/re\tport.parquet") =
      .ok (lit "exports", lit "report.parquet") := by decide +kernel
  exact absurd (hall _ _ _ _ hok).text (by decide)

end Storage

end Lakehouse
