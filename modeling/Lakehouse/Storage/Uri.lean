import Lakehouse.Library
import Lakehouse.Common.Numeral
import Lakehouse.Common.Outcome
import Lakehouse.Error
/-!
# URIs and paths

`urlsplit` and the properties of its result the program reads, the
normalization `pathlib` applies to an absolute path, and the check every
table URI passes before a write.
-/

namespace Lakehouse

/-- The result of `urllib.parse.urlsplit`. -/
structure SplitResult where
  scheme : Text
  netloc : Text
  path : Text
  query : Text
  fragment : Text
  deriving DecidableEq, Repr

namespace Uri

def isUpper (c : ℕ) : Bool := 0x41 ≤ c && c ≤ 0x5A

def isLower (c : ℕ) : Bool := 0x61 ≤ c && c ≤ 0x7A

/-- `str.lower` of an ASCII text. -/
def lower (t : Text) : Text := t.map fun c => if isUpper c then c + 0x20 else c

/-- The characters of a scheme. -/
def isSchemeChar (c : ℕ) : Bool :=
  isUpper c || isLower c || isDigit c || c == 0x2B || c == 0x2D || c == 0x2E

/-- The scheme a URL starts with, if it does, and the rest. -/
def splitScheme (url : Text) : Text × Text :=
  match Text.partition 0x3A url with
  | (c :: s, true, rest) =>
    if (isUpper c || isLower c) && (c :: s).all isSchemeChar then (lower (c :: s), rest)
    else ([], url)
  | _ => ([], url)

/-- The characters an authority ends before. -/
def endsNetloc (c : ℕ) : Bool := c == 0x2F || c == 0x3F || c == 0x23

/-- The authority after `//`, and the rest. -/
def splitNetloc : Text → Text × Text
  | 0x2F :: 0x2F :: t => (t.takeWhile (!endsNetloc ·), t.dropWhile (!endsNetloc ·))
  | t => ([], t)

/-- `_checknetloc`: what the authority normalizes to may not contain a
delimiter. -/
def checkNetloc (L : Library) (netloc : Text) : Bool :=
  let n := netloc.filter fun c => !(c == 0x40 || c == 0x3A || c == 0x23 || c == 0x3F)
  netloc.all (· < 0x80) || L.nfkc n == n ||
    (L.nfkc n).all fun c => !(endsNetloc c || c == 0x40 || c == 0x3A)

/-- **`urlsplit(url)`.** -/
def urlsplit (L : Library) (url : Text) : Except PyError SplitResult :=
  let url := (url.dropWhile (· ≤ 0x20)).filter fun c => !(c == 0x09 || c == 0x0A || c == 0x0D)
  let (scheme, url) := splitScheme url
  let (netloc, url) := splitNetloc url
  if (0x5B ∈ netloc ∧ 0x5D ∉ netloc) ∨ (0x5D ∈ netloc ∧ 0x5B ∉ netloc) then
    .error (.valueError (lit "Invalid IPv6 URL"))
  else if 0x5B ∈ netloc ∧ L.validBracketedNetloc netloc = false then
    .error (.valueError (lit "Invalid IPv6 URL"))
  else
    let (url, _, fragment) := Text.partition 0x23 url
    let (path, _, query) := Text.partition 0x3F url
    if checkNetloc L netloc then .ok ⟨scheme, netloc, path, query, fragment⟩
    else
      .error (.valueError (lit "netloc contains invalid characters under NFKC normalization"))

/-- `result.username` and `result.password` of an authority, empty where
there is none. -/
def userInfo (netloc : Text) : Text × Text :=
  match Text.rpartition 0x40 netloc with
  | (info, true, _) => ((Text.partition 0x3A info).1, (Text.partition 0x3A info).2.2)
  | _ => ([], [])

/-- The host and the port of an authority as they are written, empty
where there is none. -/
def hostInfo (netloc : Text) : Text × Text :=
  let hostinfo := (Text.rpartition 0x40 netloc).2.2
  match Text.partition 0x5B hostinfo with
  | (_, true, bracketed) =>
    let (host, _, port) := Text.partition 0x5D bracketed
    (host, (Text.partition 0x3A port).2.2)
  | _ =>
    let (host, _, port) := Text.partition 0x3A hostinfo
    (host, port)

/-- A URL with credentials, a query or a fragment. -/
def Decorated (r : SplitResult) : Prop :=
  (userInfo r.netloc).1 ≠ [] ∨ (userInfo r.netloc).2 ≠ [] ∨ r.query ≠ [] ∨ r.fragment ≠ []

instance : DecidablePred Decorated := fun r => by unfold Decorated; infer_instance

/-- `has_control_characters`. -/
def hasControlCharacters (L : Library) (t : Text) : Bool := t.any L.isControl

/-- **`validate_table_uri`.** -/
def validateTableUri (L : Library) (tableUri : Text) : Except PyError Unit :=
  if tableUri = [] ∨ tableUri ≠ tableUri.strip ∨ hasControlCharacters L tableUri then
    .error (.valueError (lit "table URI must be canonical non-control text"))
  else do
    let parsed ← urlsplit L tableUri
    if Decorated parsed then
      .error (.valueError
        (lit "table URI must not contain embedded credentials, query parameters or fragments"))
    else .ok ()

/-! ## Splitting -/

/-- A path has no scheme. -/
theorem splitScheme_slash (t : Text) : splitScheme (0x2F :: t) = ([], 0x2F :: t) := by
  have hp : Text.partition 0x3A (0x2F :: t) =
      (0x2F :: (Text.partition 0x3A t).1, (Text.partition 0x3A t).2) := by
    rw [Text.partition, if_neg (by decide)]
  rw [splitScheme, hp]
  rcases (Text.partition 0x3A t).2 with ⟨_ | _, rest⟩ <;> rfl

/-- A scheme in lower case splits off before its colon. -/
theorem splitScheme_colon {c : ℕ} {s t : Text} (hs : 0x3A ∉ c :: s) (hc : isLower c = true)
    (hall : (c :: s).all isSchemeChar = true) (hl : lower (c :: s) = c :: s) :
    splitScheme ((c :: s) ++ 0x3A :: t) = (c :: s, t) := by
  rw [splitScheme, Text.partition_append hs]
  simp only
  rw [if_pos (by rw [hc, hall]; simp), hl]

/-- An authority ends before the first slash. -/
theorem splitNetloc_authority {a t : Text} (ha : ∀ c ∈ a, endsNetloc c = false) :
    splitNetloc (0x2F :: 0x2F :: (a ++ 0x2F :: t)) = (a, 0x2F :: t) := by
  have hp : ∀ c ∈ a, (!endsNetloc c) = true := fun c hc => by rw [ha c hc]; rfl
  simp only [splitNetloc]
  rw [List.takeWhile_append_of_pos hp, List.dropWhile_append_of_pos hp]
  simp [endsNetloc]

/-- A text that does not start in two slashes has no authority. -/
theorem splitNetloc_eq_self {t : Text} (h : ∀ u, t ≠ 0x2F :: 0x2F :: u) :
    splitNetloc t = ([], t) := by
  rw [splitNetloc]
  exact h

/-- A path of one slash has no authority. -/
theorem splitNetloc_of_ne {c : ℕ} {t : Text} (h : c ≠ 0x2F) :
    splitNetloc (0x2F :: c :: t) = ([], 0x2F :: c :: t) :=
  splitNetloc_eq_self fun _ hu => h (List.cons.inj (List.cons.inj hu).2).1

/-- What follows the authority is part of the text. -/
theorem mem_of_mem_splitNetloc {c : ℕ} {t : Text} (h : c ∈ (splitNetloc t).2) : c ∈ t := by
  unfold splitNetloc at h
  split at h
  · exact List.mem_cons_of_mem _ (List.mem_cons_of_mem _ ((List.dropWhile_sublist _).mem h))
  · exact h

/-- A delimiter past the authority stays in what follows it. -/
theorem mem_splitNetloc {c : ℕ} {t : Text} (hc : endsNetloc c = true) (hs : c ≠ 0x2F)
    (h : c ∈ t) : c ∈ (splitNetloc t).2 ∧ (splitNetloc t).2.getLast? = t.getLast? := by
  unfold splitNetloc
  split
  · rename_i u
    have hu : c ∈ u := by
      simpa [hs] using h
    have hd : c ∈ u.dropWhile (!endsNetloc ·) := by
      rw [← List.takeWhile_append_dropWhile (p := (!endsNetloc ·)) (l := u), List.mem_append] at hu
      refine hu.resolve_left fun ht => ?_
      have hp := List.all_eq_true.1 (List.all_takeWhile (p := (!endsNetloc ·)) (l := u)) c ht
      rw [hc] at hp
      exact absurd hp (by decide)
    refine ⟨hd, ?_⟩
    obtain ⟨d, hd⟩ := List.getLast?_isSome.2 (List.ne_nil_of_mem hd) |> Option.isSome_iff_exists.1
    have ha : u.getLast? = some d := by
      rw [← List.takeWhile_append_dropWhile (p := (!endsNetloc ·)) (l := u), List.getLast?_append, hd]
      rfl
    rw [hd, List.getLast?_cons, List.getLast?_cons, ha]
    rfl
  · exact ⟨h, rfl⟩

/-- A URL without what `urlsplit` drops from it. -/
def cleaned (url : Text) : Text :=
  (url.dropWhile (· ≤ 0x20)).filter fun c => !(c == 0x09 || c == 0x0A || c == 0x0D)

/-- The authority of a URL and what follows it. -/
def hierPart (url : Text) : Text × Text := splitNetloc (splitScheme (cleaned url)).2

/-- The path of what follows an authority. -/
def pathOf (rest : Text) : Text := (Text.partition 0x3F (Text.partition 0x23 rest).1).1

/-- The query of what follows an authority. -/
def queryOf (rest : Text) : Text := (Text.partition 0x3F (Text.partition 0x23 rest).1).2.2

/-- The fragment of what follows an authority. -/
def fragmentOf (rest : Text) : Text := (Text.partition 0x23 rest).2.2

/-- The authorities `urlsplit` lets through. -/
def IsNetloc (L : Library) (netloc : Text) : Prop :=
  (0x5B ∈ netloc ↔ 0x5D ∈ netloc) ∧ (0x5B ∈ netloc → L.validBracketedNetloc netloc = true) ∧
    checkNetloc L netloc = true

/-- **What `urlsplit` returns**, and for which authorities. -/
theorem urlsplit_iff {L : Library} {url : Text} {r : SplitResult} :
    urlsplit L url = .ok r ↔ IsNetloc L (hierPart url).1 ∧
      r = ⟨(splitScheme (cleaned url)).1, (hierPart url).1, pathOf (hierPart url).2,
        queryOf (hierPart url).2, fragmentOf (hierPart url).2⟩ := by
  set n := (hierPart url).1 with hn
  have heq : urlsplit L url =
      if (0x5B ∈ n ∧ 0x5D ∉ n) ∨ (0x5D ∈ n ∧ 0x5B ∉ n) then
        .error (.valueError (lit "Invalid IPv6 URL"))
      else if 0x5B ∈ n ∧ L.validBracketedNetloc n = false then
        .error (.valueError (lit "Invalid IPv6 URL"))
      else if checkNetloc L n then
        .ok ⟨(splitScheme (cleaned url)).1, n, pathOf (hierPart url).2, queryOf (hierPart url).2,
          fragmentOf (hierPart url).2⟩
      else
        .error (.valueError
          (lit "netloc contains invalid characters under NFKC normalization")) := rfl
  rw [heq, IsNetloc]
  split_ifs with h₁ h₂ h₃
  · exact iff_of_false nofun fun h => by have := h.1.1; tauto
  · exact iff_of_false nofun fun h => by simp [h.1.2.1 h₂.1] at h₂
  · have hb : 0x5B ∈ n ↔ 0x5D ∈ n := by tauto
    have hv : 0x5B ∈ n → L.validBracketedNetloc n = true := fun h => by simpa [h] using h₂
    exact ⟨fun h => ⟨⟨hb, hv, h₃⟩, (Except.ok.inj h).symm⟩, fun h => congrArg _ h.2.symm⟩
  · exact iff_of_false nofun fun h => h₃ h.1.2.2

/-- Nothing is dropped from a text of no control characters. -/
theorem cleaned_eq_self {url : Text} (hh : ∀ c ∈ url.head?, 0x20 < c) (hc : ∀ c ∈ url, 0x20 ≤ c) :
    cleaned url = url := by
  have hd : url.dropWhile (fun c => decide (c ≤ 0x20)) = url :=
    Text.dropWhile_of_head? fun c hm => decide_eq_false (Nat.not_le.2 (hh c hm))
  rw [cleaned, hd]
  refine List.filter_eq_self.2 fun c hm => ?_
  have := hc c hm
  simp
  omega

/-- **What `urlsplit` reads off a text of no control characters.** -/
theorem urlsplit_eq_ok {L : Library} {url : Text} {r : SplitResult}
    (hh : ∀ c ∈ url.head?, 0x20 < c) (hc : ∀ c ∈ url, 0x20 ≤ c)
    (h : urlsplit L url = .ok r) :
    let rest := splitNetloc (splitScheme url).2
    r.netloc = rest.1 ∧ r.fragment = (Text.partition 0x23 rest.2).2.2 ∧
      r.query = (Text.partition 0x3F (Text.partition 0x23 rest.2).1).2.2 := by
  obtain ⟨-, rfl⟩ := urlsplit_iff.1 h
  rw [hierPart, cleaned_eq_self hh hc]
  exact ⟨rfl, rfl, rfl⟩

/-- The check accepts a URI in two parts: its characters, then what it
splits into. -/
theorem validateTableUri_iff {L : Library} {u : Text} {r : SplitResult} (hne : u ≠ [])
    (hs : u.strip = u) (hr : urlsplit L u = .ok r) :
    validateTableUri L u = .ok () ↔ hasControlCharacters L u = false ∧ ¬Decorated r := by
  unfold validateTableUri
  simp only [hne, hs, ne_eq, not_true_eq_false, false_or, hr, ok_bind]
  cases hasControlCharacters L u <;> by_cases hd : Decorated r <;> simp [hd]

/-- An authority without an at sign carries no credentials. -/
theorem userInfo_of_notMem {a : Text} (h : 0x40 ∉ a) : userInfo a = ([], []) := by
  rw [userInfo, Text.rpartition_of_notMem h]

/-- What stands before the at sign is the user. -/
theorem userInfo_append {a b : Text} (ha : 0x3A ∉ a) (hb : 0x40 ∉ b) :
    userInfo (a ++ 0x40 :: b) = (a, []) := by
  rw [userInfo, Text.rpartition_append hb]
  simp only
  rw [Text.partition_of_notMem ha]

/-! ## Paths -/

/-- The root of an absolute path: exactly two leading slashes are kept. -/
def pathRoot : Text → Text
  | 0x2F :: 0x2F :: 0x2F :: _ => [0x2F]
  | 0x2F :: 0x2F :: _ => [0x2F, 0x2F]
  | 0x2F :: _ => [0x2F]
  | _ => []

/-- The parts of a path: no empty one and no `.`. -/
def pathParts (t : Text) : List Text :=
  (Text.splitOn 0x2F (t.drop (pathRoot t).length)).filter fun p => p ≠ [] ∧ p ≠ [0x2E]

/-- `str(Path(text))` of an absolute path. -/
def pathStr (t : Text) : Text := pathRoot t ++ Text.join [0x2F] (pathParts t)

/-- The authority a URL reads in a path: the first part after two leading
slashes. -/
def pathAuthority (t : Text) : Text :=
  if pathRoot t = [0x2F, 0x2F] then (pathParts t).headD [] else []

/-- A path begins with no slash, one or two. -/
theorem pathRoot_cases (t : Text) :
    pathRoot t = [] ∨ pathRoot t = [0x2F] ∨ pathRoot t = [0x2F, 0x2F] := by
  unfold pathRoot
  split <;> simp

/-- The root of a path is its beginning. -/
theorem pathRoot_isPrefix (t : Text) : pathRoot t <+: t := by
  unfold pathRoot
  split <;> simp

/-- A part of a path is not empty and has no slash. -/
theorem of_mem_pathParts {t p : Text} (h : p ∈ pathParts t) : p ≠ [] ∧ 0x2F ∉ p := by
  obtain ⟨hp, hf⟩ := List.mem_filter.1 h
  have hf := of_decide_eq_true hf
  refine ⟨hf.1, fun hc => ?_⟩
  exact ((Text.mem_splitOn).1 ⟨p, hp, hc⟩).2 rfl

/-- **Normalizing a path keeps its characters**, slashes and dots apart. -/
theorem forall_mem_pathStr {P : ℕ → Prop} (hs : P 0x2F) (hd : P 0x2E) (t : Text) :
    (∀ c ∈ pathStr t, P c) ↔ ∀ c ∈ t, P c := by
  obtain ⟨rest, ht⟩ := pathRoot_isPrefix t
  have hroot : ∀ c ∈ pathRoot t, P c := by
    intro c hc
    obtain h | h | h := pathRoot_cases t <;> rw [h] at hc <;> simp at hc
    · exact hc ▸ hs
    · exact hc ▸ hs
  have hrest : t.drop (pathRoot t).length = rest := by
    have h : (pathRoot t ++ rest).drop (pathRoot t).length = rest := List.drop_left
    rwa [ht] at h
  constructor
  · intro h c hc
    by_cases hcs : c = 0x2F
    · exact hcs ▸ hs
    by_cases hcd : c = 0x2E
    · exact hcd ▸ hd
    rw [← ht, List.mem_append] at hc
    obtain hc | hc := hc
    · exact hroot c hc
    obtain ⟨p, hp, hcp⟩ := Text.mem_splitOn.2 ⟨hc, hcs⟩
    refine h c (List.mem_append_right _ (Text.mem_join_of_mem (List.mem_filter.2 ⟨hrest ▸ hp, ?_⟩) hcp))
    refine decide_eq_true ⟨List.ne_nil_of_mem hcp, fun hpd => hcd ?_⟩
    rw [hpd] at hcp
    exact List.mem_singleton.1 hcp
  · intro h c hc
    obtain hc | hc := List.mem_append.1 hc
    · exact hroot c hc
    obtain hc | ⟨p, hp, hcp⟩ := Text.of_mem_join hc
    · exact List.mem_singleton.1 hc ▸ hs
    · have hcr := (Text.mem_splitOn.1 ⟨p, (List.mem_filter.1 hp).1, hcp⟩).1
      exact h c (List.mem_of_mem_drop hcr)

/-- The authority of a URI that starts with a path. -/
theorem splitNetloc_pathStr {t tail : Text} (hroot : pathRoot t ≠ [])
    (hc : ∀ c ∈ pathStr t, c ≠ 0x3F ∧ c ≠ 0x23) :
    (splitNetloc (pathStr t ++ 0x2F :: tail)).1 = pathAuthority t ∨
      pathStr t = [0x2F] ∧ pathAuthority t = [] := by
  have hclean : ∀ p ∈ pathParts t, ∀ c ∈ p, endsNetloc c = false := by
    intro p hp c hcp
    have h1 := hc c (List.mem_append_right _ (Text.mem_join_of_mem hp hcp))
    have h2 : c ≠ 0x2F := fun h => (of_mem_pathParts hp).2 (h ▸ hcp)
    simp [endsNetloc, h1, h2]
  unfold pathStr pathAuthority
  obtain h | h | h := pathRoot_cases t
  · exact absurd h hroot
  · rw [h]
    cases hp : pathParts t with
    | nil => exact Or.inr ⟨rfl, rfl⟩
    | cons p ps =>
      have hpm : p ∈ pathParts t := hp ▸ List.mem_cons_self
      obtain ⟨hne, hsl⟩ := of_mem_pathParts hpm
      obtain ⟨c, p', rfl⟩ := List.exists_cons_of_ne_nil hne
      refine Or.inl ?_
      have hj : ∃ u, Text.join [0x2F] ((c :: p') :: ps) = c :: u := by
        cases ps with
        | nil => exact ⟨p', rfl⟩
        | cons q ps => exact ⟨_, rfl⟩
      obtain ⟨u, hu⟩ := hj
      rw [hu, List.cons_append, List.nil_append, List.cons_append, List.cons_append,
        splitNetloc_of_ne]
      · rfl
      · rintro rfl
        exact hsl List.mem_cons_self
  · rw [h, if_pos rfl]
    refine Or.inl ?_
    cases hp : pathParts t with
    | nil => exact congrArg Prod.fst (splitNetloc_authority (a := []) (t := tail) (by simp))
    | cons p ps =>
      have hpc := hclean p (hp ▸ List.mem_cons_self)
      have hj : ∃ u, Text.join [0x2F] (p :: ps) ++ 0x2F :: tail = p ++ 0x2F :: u := by
        cases ps with
        | nil => exact ⟨tail, rfl⟩
        | cons q ps => exact ⟨Text.join [0x2F] (q :: ps) ++ 0x2F :: tail, by simp [Text.join]⟩
      obtain ⟨u, hu⟩ := hj
      rw [List.append_assoc, hu]
      exact congrArg Prod.fst (splitNetloc_authority hpc)

end Uri

end Lakehouse
