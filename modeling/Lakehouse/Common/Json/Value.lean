import Lakehouse.Common.Text
import Lakehouse.Common.Sort
import Lakehouse.Common.Outcome
/-!
# JSON values and their serialization

A JSON value over an arbitrary type of numbers; an object is a Python
dict, its members in insertion order. `serialize` is one printer for
`json.dumps` and for the canonical form: a `Style` says how a number and
a string are written, which spaces stand between the parts and whether
the members are sorted.
-/

namespace Lakehouse

/-- **A JSON value.** -/
inductive Json (N : Type) where
  | null
  | bool (b : Bool)
  | num (n : N)
  | str (t : Text)
  | arr (items : List (Json N))
  | obj (members : List (Text × Json N))

/-- A Python dict with text keys, in insertion order. -/
abbrev Members (α : Type) : Type := List (Text × α)

namespace Members

variable {α β : Type}

/-- `d.get(key)`. -/
def get (key : Text) (ms : Members α) : Option α := ms.lookup key

/-- `d[key] = value`: a known key keeps its place. -/
def set (ms : Members α) (key : Text) (value : α) : Members α :=
  if key ∈ ms.map Prod.fst then ms.map fun m => if m.1 = key then (key, value) else m
  else ms ++ [(key, value)]

/-- `dict(pairs)`: the last value of a key, at the place of its first. -/
def ofPairs (pairs : List (Text × α)) : Members α := pairs.foldl (fun ms m => ms.set m.1 m.2) []

/-- `d.update(e)`, or `{**d, **e}`. -/
def update (ms es : Members α) : Members α := es.foldl (fun ms m => ms.set m.1 m.2) ms

/-- `{k: v for k, v in d.items() if k != key}`. -/
def without (key : Text) (ms : Members α) : Members α := ms.filter fun m => m.1 ≠ key

/-- No two members share a key. -/
def Distinct (ms : Members α) : Prop := (ms.map Prod.fst).Nodup

instance (ms : Members α) : Decidable ms.Distinct := by unfold Distinct; infer_instance

/-- A new key is set at the end. -/
theorem set_of_notMem {ms : Members α} {key : Text} {v : α} (h : key ∉ ms.map Prod.fst) :
    ms.set key v = ms ++ [(key, v)] :=
  if_neg h

/-- Pairs with distinct new keys are set in their order. -/
theorem foldl_set_of_distinct (ps ms : Members α) (h : Distinct (ms ++ ps)) :
    ps.foldl (fun ms m => ms.set m.1 m.2) ms = ms ++ ps := by
  induction ps generalizing ms with
  | nil => simp
  | cons m ps ih =>
    have hm : m.1 ∉ ms.map Prod.fst := by
      unfold Distinct at h
      rw [List.map_append, List.map_cons] at h
      exact fun hmem => (List.nodup_append.1 h).2.2 _ hmem _ (List.mem_cons_self ..) rfl
    rw [List.foldl_cons, set_of_notMem hm, ih]
    · simp
    · simpa using h

/-- Pairs with distinct keys are the dict they build. -/
theorem ofPairs_of_distinct {ms : Members α} (h : Distinct ms) : ofPairs ms = ms := by
  simpa [ofPairs] using foldl_set_of_distinct ms [] (by simpa using h)

/-- The same members with every value replaced. -/
def mapValues (f : α → β) (ms : Members α) : Members β := ms.map fun m => (m.1, f m.2)

/-- Mapping the values leaves the keys. -/
@[simp] theorem keys_mapValues (f : α → β) (ms : Members α) :
    (ms.mapValues f).map Prod.fst = ms.map Prod.fst := by
  simp [mapValues, Function.comp_def]

/-- A value set and mapped is mapped and set. -/
theorem mapValues_set (f : α → β) (ms : Members α) (key : Text) (v : α) :
    (ms.set key v).mapValues f = (ms.mapValues f).set key (f v) := by
  unfold set
  rw [keys_mapValues]
  split_ifs with h
  · simp only [mapValues, List.map_map]
    refine List.map_congr_left fun m _ => ?_
    by_cases hm : m.1 = key <;> simp [hm]
  · simp [mapValues]

/-- Values set one by one and mapped are mapped and set one by one. -/
theorem mapValues_foldl_set (f : α → β) (ps ms : Members α) :
    (ps.foldl (fun ms m => ms.set m.1 m.2) ms).mapValues f =
      (ps.mapValues f).foldl (fun ms m => ms.set m.1 m.2) (ms.mapValues f) := by
  induction ps generalizing ms with
  | nil => rfl
  | cons m ps ih =>
    rw [List.foldl_cons, ih, mapValues_set]
    rfl

/-- The dict of mapped pairs is the mapped dict. -/
theorem mapValues_ofPairs (f : α → β) (ps : List (Text × α)) :
    (ofPairs ps).mapValues f = ofPairs (mapValues f ps) :=
  mapValues_foldl_set f ps []

/-- Writing a key that is not there changes no member. -/
theorem map_replace_of_notMem {ms : Members α} {key : Text} {v : α} (h : key ∉ ms.map Prod.fst) :
    (ms.map fun m => if m.1 = key then (key, v) else m) = ms := by
  conv_rhs => rw [← List.map_id ms]
  refine List.map_congr_left fun m hm => if_neg fun hk => h ?_
  rw [← hk]
  exact List.mem_map_of_mem hm

/-- A lookup compares the first key, and goes on if it is another. -/
theorem get_cons (key k : Text) (v : α) (ms : Members α) :
    get key ((k, v) :: ms) = if key = k then some v else get key ms := by
  unfold get
  rw [List.lookup_cons]
  by_cases h : key = k
  · simp [h]
  · have hb : (key == k) = false := by simpa using h
    rw [hb, if_neg h]

/-- A mapped dict is looked up and the value mapped. -/
theorem get_mapValues (f : α → β) (key : Text) (ms : Members α) :
    (ms.mapValues f).get key = (ms.get key).map f := by
  induction ms with
  | nil => rfl
  | cons m ms ih =>
    obtain ⟨k, v⟩ := m
    change get key ((k, f v) :: mapValues f ms) = _
    rw [get_cons, get_cons, ih]
    split_ifs <;> rfl

/-- Dropping a key and mapping the values commute. -/
theorem mapValues_without (f : α → β) (key : Text) (ms : Members α) :
    (ms.without key).mapValues f = (ms.mapValues f).without key := by
  simp [without, mapValues, List.filter_map, Function.comp_def]

/-- Dropping a key keeps the keys distinct. -/
theorem Distinct.without {ms : Members α} (h : ms.Distinct) (key : Text) :
    (ms.without key).Distinct :=
  (List.Sublist.map _ List.filter_sublist).nodup h

/-- What a lookup finds is a member. -/
theorem mem_of_get {ms : Members α} {key : Text} {v : α} (h : ms.get key = some v) :
    (key, v) ∈ ms := by
  induction ms with
  | nil => cases h
  | cons m ms ih =>
    obtain ⟨k, w⟩ := m
    rw [get_cons] at h
    split_ifs at h with hk
    · cases h
      rw [hk]
      exact List.mem_cons_self ..
    · exact List.mem_cons_of_mem _ (ih h)

/-- A lookup finds nothing exactly where the key is not there. -/
theorem get_eq_none {ms : Members α} {key : Text} :
    ms.get key = none ↔ key ∉ ms.map Prod.fst := by
  induction ms with
  | nil => simp [get]
  | cons m ms ih =>
    obtain ⟨k, w⟩ := m
    rw [get_cons, List.map_cons, List.mem_cons, not_or]
    split_ifs with hk
    · simp [hk]
    · simp [hk, ih]

/-- Reading back a member of a dict. -/
theorem get_eq_some {ms : Members α} (h : ms.Distinct) {key : Text} {v : α} :
    ms.get key = some v ↔ (key, v) ∈ ms := by
  refine ⟨mem_of_get, fun hm => ?_⟩
  cases hg : ms.get key with
  | none => exact absurd (List.mem_map_of_mem hm) (get_eq_none.1 hg)
  | some w =>
    have hw := mem_of_get hg
    have heq : (key, w) = (key, v) := List.inj_on_of_nodup_map h hw hm rfl
    rw [(Prod.mk.inj heq).2]

/-- Reading a member after writing one. -/
theorem get_set (ms : Members α) (key k : Text) (v : α) :
    (ms.set key v).get k = if k = key then some v else ms.get k := by
  unfold set
  split_ifs with hmem hk hk
  · subst hk
    induction ms with
    | nil => cases hmem
    | cons m ms ih =>
      obtain ⟨j, w⟩ := m
      rw [List.map_cons]
      by_cases hj : j = k
      · rw [if_pos hj, get_cons, if_pos rfl]
      · rw [if_neg hj, get_cons, if_neg (Ne.symm hj)]
        exact ih (by simpa [Ne.symm hj] using hmem)
  · induction ms with
    | nil => rfl
    | cons m ms ih =>
      obtain ⟨j, w⟩ := m
      have hrest : get k (ms.map fun m => if m.1 = key then (key, v) else m) = get k ms := by
        by_cases hms : key ∈ ms.map Prod.fst
        · exact ih hms
        · rw [map_replace_of_notMem hms]
      rw [List.map_cons]
      by_cases hj : j = key
      · rw [if_pos hj, get_cons, get_cons, if_neg hk, hj, if_neg hk, hrest]
      · rw [if_neg hj, get_cons, get_cons, hrest]
  · subst hk
    induction ms with
    | nil => exact (get_cons _ _ _ _).trans (if_pos rfl)
    | cons m ms ih =>
      obtain ⟨j, w⟩ := m
      rw [List.map_cons, List.mem_cons, not_or] at hmem
      rw [List.cons_append, get_cons, if_neg hmem.1, ih hmem.2]
  · induction ms with
    | nil => exact (get_cons _ _ _ _).trans (if_neg hk)
    | cons m ms ih =>
      obtain ⟨j, w⟩ := m
      rw [List.map_cons, List.mem_cons, not_or] at hmem
      rw [List.cons_append, get_cons, get_cons, ih hmem.2]

/-- Without a key, only that key is not found. -/
theorem get_without (ms : Members α) (key k : Text) :
    (ms.without key).get k = if k = key then none else ms.get k := by
  induction ms with
  | nil => split_ifs <;> rfl
  | cons m ms ih =>
    obtain ⟨j, w⟩ := m
    unfold without at ih ⊢
    by_cases hj : j = key
    · rw [List.filter_cons_of_neg (by simpa using hj), ih, get_cons, hj]
      split_ifs <;> rfl
    · rw [List.filter_cons_of_pos (by simpa using hj), get_cons, get_cons, ih]
      split_ifs with h₁ h₂ <;> simp_all

/-- What a member was does not matter once it is dropped. -/
theorem without_set (ms : Members α) (key : Text) (v : α) :
    (ms.set key v).without key = ms.without key := by
  unfold set
  split_ifs with h
  · unfold without
    induction ms with
    | nil => rfl
    | cons m ms ih =>
      have hrest : (ms.map fun m => if m.1 = key then (key, v) else m).filter (fun m => m.1 ≠ key) =
          ms.filter fun m => m.1 ≠ key := by
        by_cases hms : key ∈ ms.map Prod.fst
        · exact ih hms
        · rw [map_replace_of_notMem hms]
      rw [List.map_cons]
      by_cases hm : m.1 = key
      · rw [if_pos hm, List.filter_cons_of_neg (by simp), hrest,
          List.filter_cons_of_neg (by simpa using hm)]
      · rw [if_neg hm, List.filter_cons_of_pos (by simpa using hm), hrest,
          List.filter_cons_of_pos (by simpa using hm)]
  · simp [without]

/-- A member after a `set` is an old one, or the one set. -/
theorem mem_set {ms : Members α} {key : Text} {v : α} {m : Text × α} (h : m ∈ ms.set key v) :
    m ∈ ms ∨ m = (key, v) := by
  unfold set at h
  split_ifs at h
  · obtain ⟨m', hm', rfl⟩ := List.mem_map.1 h
    split_ifs
    · exact Or.inr rfl
    · exact Or.inl hm'
  · simpa using h

/-- `set` keeps the keys distinct. -/
theorem Distinct.set {ms : Members α} (h : ms.Distinct) (key : Text) (v : α) :
    (ms.set key v).Distinct := by
  unfold Members.set
  split_ifs with hk
  · have hkeys : (ms.map fun m => if m.1 = key then (key, v) else m).map Prod.fst =
        ms.map Prod.fst := by
      rw [List.map_map]
      refine List.map_congr_left fun m _ => ?_
      by_cases hm : m.1 = key <;> simp [hm]
    unfold Distinct
    rwa [hkeys]
  · unfold Distinct
    rw [List.map_append, List.nodup_append]
    refine ⟨h, List.nodup_singleton _, fun a ha b hb => ?_⟩
    rw [List.map_singleton, List.mem_singleton] at hb
    subst hb
    exact fun hab => hk (hab ▸ ha)

/-- Setting pairs one by one keeps the keys distinct and adds members among
the pairs. -/
theorem foldl_set_spec (ps ms : Members α) (h : ms.Distinct) :
    (ps.foldl (fun ms m => ms.set m.1 m.2) ms).Distinct ∧
      ∀ m ∈ ps.foldl (fun ms m => ms.set m.1 m.2) ms, m ∈ ms ∨ m ∈ ps := by
  induction ps generalizing ms with
  | nil => exact ⟨h, fun m hm => Or.inl hm⟩
  | cons p ps ih =>
    obtain ⟨hd, hm⟩ := ih (ms.set p.1 p.2) (h.set p.1 p.2)
    refine ⟨hd, fun m hmem => ?_⟩
    rcases hm m hmem with hs | hp
    · rcases mem_set hs with hm | rfl
      · exact Or.inl hm
      · exact Or.inr (List.mem_cons_self ..)
    · exact Or.inr (List.mem_cons_of_mem _ hp)

/-- The empty dict has distinct keys. -/
theorem distinct_nil : Distinct ([] : Members α) := List.nodup_nil

/-- A dict of pairs has distinct keys. -/
theorem distinct_ofPairs (ps : List (Text × α)) : (ofPairs ps).Distinct :=
  (foldl_set_spec ps [] distinct_nil).1

/-- A member of a dict of pairs is one of the pairs. -/
theorem mem_ofPairs {ps : List (Text × α)} {m : Text × α} (h : m ∈ ofPairs ps) : m ∈ ps :=
  ((foldl_set_spec ps [] distinct_nil).2 m h).resolve_left List.not_mem_nil

/-- `update` keeps the keys distinct. -/
theorem Distinct.update {ms : Members α} (h : ms.Distinct) (es : Members α) :
    (ms.update es).Distinct :=
  (foldl_set_spec es ms h).1

end Members

namespace Json

variable {N M : Type}

mutual

/-- The induction on values, with the members of a list and of an object. -/
theorem inductAux {motive : Json N → Prop} (null : motive null) (bool : ∀ b, motive (bool b))
    (num : ∀ n, motive (num n)) (str : ∀ t, motive (str t))
    (arr : ∀ vs, (∀ v ∈ vs, motive v) → motive (arr vs))
    (obj : ∀ ms : Members (Json N), (∀ m ∈ ms, motive m.2) → motive (obj ms)) :
    ∀ v, motive v
  | .null => null
  | .bool b => bool b
  | .num n => num n
  | .str t => str t
  | .arr vs => arr vs (inductItems null bool num str arr obj vs)
  | .obj ms => obj ms (inductMembers null bool num str arr obj ms)

/-- The induction on the items of a list. -/
theorem inductItems {motive : Json N → Prop} (null : motive null) (bool : ∀ b, motive (bool b))
    (num : ∀ n, motive (num n)) (str : ∀ t, motive (str t))
    (arr : ∀ vs, (∀ v ∈ vs, motive v) → motive (arr vs))
    (obj : ∀ ms : Members (Json N), (∀ m ∈ ms, motive m.2) → motive (obj ms)) :
    ∀ vs : List (Json N), ∀ v ∈ vs, motive v
  | [] => fun _ h => absurd h List.not_mem_nil
  | w :: vs => List.forall_mem_cons.2
      ⟨inductAux null bool num str arr obj w, inductItems null bool num str arr obj vs⟩

/-- The induction on the members of an object. -/
theorem inductMembers {motive : Json N → Prop} (null : motive null) (bool : ∀ b, motive (bool b))
    (num : ∀ n, motive (num n)) (str : ∀ t, motive (str t))
    (arr : ∀ vs, (∀ v ∈ vs, motive v) → motive (arr vs))
    (obj : ∀ ms : Members (Json N), (∀ m ∈ ms, motive m.2) → motive (obj ms)) :
    ∀ ms : List (Text × Json N), ∀ m ∈ ms, motive m.2
  | [] => fun _ h => absurd h List.not_mem_nil
  | (_, w) :: ms => List.forall_mem_cons.2
      ⟨inductAux null bool num str arr obj w, inductMembers null bool num str arr obj ms⟩

end

/-- **Induction over a value**: an array from its items, an object from
the values of its members. -/
@[elab_as_elim]
theorem induct {motive : Json N → Prop} (v : Json N) (null : motive null)
    (bool : ∀ b, motive (bool b)) (num : ∀ n, motive (num n)) (str : ∀ t, motive (str t))
    (arr : ∀ vs, (∀ v ∈ vs, motive v) → motive (arr vs))
    (obj : ∀ ms : Members (Json N), (∀ m ∈ ms, motive m.2) → motive (obj ms)) : motive v :=
  inductAux null bool num str arr obj v

mutual

/-- The same value with its numbers replaced. -/
def map (g : N → M) : Json N → Json M
  | null => null
  | bool b => bool b
  | num n => num (g n)
  | str t => str t
  | arr vs => arr (mapItems g vs)
  | obj ms => obj (mapMembers g ms)

def mapItems (g : N → M) : List (Json N) → List (Json M)
  | [] => []
  | v :: vs => map g v :: mapItems g vs

def mapMembers (g : N → M) : List (Text × Json N) → List (Text × Json M)
  | [] => []
  | (k, v) :: ms => (k, map g v) :: mapMembers g ms

end

/-- The items of a list are mapped one by one. -/
theorem mapItems_eq (g : N → M) (vs : List (Json N)) : mapItems g vs = vs.map (map g) := by
  induction vs with
  | nil => rfl
  | cons v vs ih => rw [mapItems, ih, List.map_cons]

/-- The members of an object have their values mapped. -/
theorem mapMembers_eq (g : N → M) (ms : Members (Json N)) :
    mapMembers g ms = ms.mapValues (map g) := by
  induction ms with
  | nil => rfl
  | cons m ms ih =>
    obtain ⟨k, v⟩ := m
    rw [mapMembers, ih]
    rfl

/-- Mapping the numbers by the identity changes nothing. -/
@[simp] theorem map_id (v : Json N) : v.map id = v := by
  induction v using induct with
  | null => rfl
  | bool b => rfl
  | num n => rfl
  | str t => rfl
  | arr vs ih =>
    rw [map, mapItems_eq, List.map_congr_left ih, List.map_id']
  | obj ms ih =>
    have h : Members.mapValues (map id) ms = ms := by
      rw [Members.mapValues, List.map_congr_left (g := id) fun m hm => by rw [ih m hm]; rfl,
        List.map_id]
    rw [map, mapMembers_eq, h]

mutual

/-- **A well-formed value**: every number satisfies `num`, every string
and key satisfies `text`, and no object repeats a key. -/
def Valid (num : N → Prop) (text : Text → Prop) : Json N → Prop
  | null => True
  | bool _ => True
  | .num n => num n
  | str t => text t
  | arr vs => ValidItems num text vs
  | obj ms => Members.Distinct ms ∧ ValidMembers num text ms

def ValidItems (num : N → Prop) (text : Text → Prop) : List (Json N) → Prop
  | [] => True
  | v :: vs => Valid num text v ∧ ValidItems num text vs

def ValidMembers (num : N → Prop) (text : Text → Prop) : List (Text × Json N) → Prop
  | [] => True
  | (k, v) :: ms => (text k ∧ Valid num text v) ∧ ValidMembers num text ms

end

mutual

/-- Well-formedness is decided along the value. -/
def decideValid (num : N → Prop) (text : Text → Prop) [DecidablePred num] [DecidablePred text] :
    (v : Json N) → Decidable (v.Valid num text)
  | null => .isTrue trivial
  | bool _ => .isTrue trivial
  | .num n => inferInstanceAs (Decidable (num n))
  | str t => inferInstanceAs (Decidable (text t))
  | arr vs => decideValidItems num text vs
  | obj ms => match decideValidMembers num text ms with
    | .isTrue h => if hd : Members.Distinct ms then .isTrue ⟨hd, h⟩ else .isFalse fun h => hd h.1
    | .isFalse h => .isFalse fun h' => h h'.2

def decideValidItems (num : N → Prop) (text : Text → Prop) [DecidablePred num]
    [DecidablePred text] : (vs : List (Json N)) → Decidable (ValidItems num text vs)
  | [] => .isTrue trivial
  | v :: vs => match decideValid num text v, decideValidItems num text vs with
    | .isTrue h, .isTrue h' => .isTrue ⟨h, h'⟩
    | .isFalse h, _ => .isFalse fun h' => h h'.1
    | _, .isFalse h => .isFalse fun h' => h h'.2

def decideValidMembers (num : N → Prop) (text : Text → Prop) [DecidablePred num]
    [DecidablePred text] : (ms : List (Text × Json N)) → Decidable (ValidMembers num text ms)
  | [] => .isTrue trivial
  | (k, v) :: ms => match decideValid num text v, decideValidMembers num text ms with
    | .isTrue h, .isTrue h' =>
      if hk : text k then .isTrue ⟨⟨hk, h⟩, h'⟩ else .isFalse fun h => hk h.1.1
    | .isFalse h, _ => .isFalse fun h' => h h'.1.2
    | _, .isFalse h => .isFalse fun h' => h h'.2

end

instance (num : N → Prop) (text : Text → Prop) [DecidablePred num] [DecidablePred text]
    (v : Json N) : Decidable (v.Valid num text) :=
  decideValid num text v

section Equality

variable [DecidableEq N]

mutual

/-- Equality along the values, the order of members included. -/
def equal : Json N → Json N → Bool
  | null, null => true
  | bool a, bool b => a = b
  | .num a, .num b => a = b
  | str a, str b => a = b
  | arr vs, arr ws => equalItems vs ws
  | obj ms, obj ns => equalMembers ms ns
  | _, _ => false

def equalItems : List (Json N) → List (Json N) → Bool
  | [], [] => true
  | v :: vs, w :: ws => equal v w && equalItems vs ws
  | _, _ => false

def equalMembers : List (Text × Json N) → List (Text × Json N) → Bool
  | [], [] => true
  | (k, v) :: ms, (l, w) :: ns => decide (k = l) && equal v w && equalMembers ms ns
  | _, _ => false

end

mutual

/-- The comparison decides equality. -/
theorem equal_iff : (v w : Json N) → (equal v w = true ↔ v = w)
  | null, w => by cases w <;> simp [equal]
  | bool _, w => by cases w <;> simp [equal]
  | .num _, w => by cases w <;> simp [equal]
  | str _, w => by cases w <;> simp [equal]
  | arr vs, w => by cases w <;> simp [equal, equalItems_iff vs]
  | obj ms, w => by cases w <;> simp [equal, equalMembers_iff ms]

/-- The comparison of items decides equality. -/
theorem equalItems_iff : (vs ws : List (Json N)) → (equalItems vs ws = true ↔ vs = ws)
  | [], ws => by cases ws <;> simp [equalItems]
  | v :: vs, ws => by cases ws <;> simp [equalItems, equal_iff v, equalItems_iff vs]

/-- The comparison of members decides equality. -/
theorem equalMembers_iff :
    (ms ns : List (Text × Json N)) → (equalMembers ms ns = true ↔ ms = ns)
  | [], ns => by cases ns <;> simp [equalMembers]
  | (k, v) :: ms, ns => by
    cases ns <;> simp [equalMembers, equal_iff v, equalMembers_iff ms, Prod.ext_iff]

end

instance : DecidableEq (Json N) := fun v w => decidable_of_iff _ (equal_iff v w)

end Equality

/-- Items are valid one by one. -/
theorem validItems_iff {num : N → Prop} {text : Text → Prop} {vs : List (Json N)} :
    ValidItems num text vs ↔ ∀ v ∈ vs, Valid num text v := by
  induction vs with
  | nil => simp [ValidItems]
  | cons v vs ih => simp [ValidItems, ih]

/-- Members are valid one by one, in their keys and their values. -/
theorem validMembers_iff {num : N → Prop} {text : Text → Prop} {ms : Members (Json N)} :
    ValidMembers num text ms ↔ ∀ m ∈ ms, text m.1 ∧ Valid num text m.2 := by
  induction ms with
  | nil => simp [ValidMembers]
  | cons m ms ih => simp [ValidMembers, ih]

/-! ## Serialization -/

/-- **How a value is written.** -/
structure Style (N ε : Type) where
  number : N → Except ε Text
  string : Text → Text
  /-- What stands after a comma. -/
  itemSpace : Text
  /-- What stands after a colon. -/
  keySpace : Text
  /-- The line break before a part at a given depth. -/
  newline : ℕ → Text
  /-- What the members of an object are sorted by, if they are. -/
  sortKey : Option (Text → List ℕ)

/-- The members in the order they are written in. -/
def Style.arrange {N ε α : Type} (S : Style N ε) (ms : List (Text × α)) : List (Text × α) :=
  match S.sortKey with
  | none => ms
  | some key => sortBy (fun m => key m.1) ms

/-- Parts between brackets, each on its line. -/
def Style.enclose {N ε : Type} (S : Style N ε) (depth left right : ℕ) (parts : List Text) : Text :=
  match parts with
  | [] => [left, right]
  | p :: ps =>
    left :: S.newline (depth + 1) ++
      Text.join (0x2C :: S.itemSpace ++ S.newline (depth + 1)) (p :: ps) ++
      S.newline depth ++ [right]

mutual

/-- **The text of a value**, or the exception its first number raises. -/
def serialize {ε : Type} (S : Style N ε) (depth : ℕ) : Json N → Except ε Text
  | null => .ok (lit "null")
  | bool b => .ok (if b then lit "true" else lit "false")
  | num n => S.number n
  | str t => .ok (S.string t)
  | arr vs => do
    let parts ← collect (serializeItems S (depth + 1) vs)
    return S.enclose depth 0x5B 0x5D parts
  | obj ms => do
    let parts ← collect ((S.arrange (serializeMembers S (depth + 1) ms)).map Prod.snd)
    return S.enclose depth 0x7B 0x7D parts

def serializeItems {ε : Type} (S : Style N ε) (depth : ℕ) : List (Json N) → List (Except ε Text)
  | [] => []
  | v :: vs => serialize S depth v :: serializeItems S depth vs

/-- Each member's text, under its key. -/
def serializeMembers {ε : Type} (S : Style N ε) (depth : ℕ) :
    List (Text × Json N) → List (Text × Except ε Text)
  | [] => []
  | (k, v) :: ms =>
    (k, do
      let t ← serialize S depth v
      return S.string k ++ 0x3A :: S.keySpace ++ t) :: serializeMembers S depth ms

end

/-- Items are written one by one. -/
theorem serializeItems_eq {ε : Type} (S : Style N ε) (depth : ℕ) (vs : List (Json N)) :
    serializeItems S depth vs = vs.map (serialize S depth) := by
  induction vs with
  | nil => rfl
  | cons v vs ih => rw [serializeItems, ih, List.map_cons]

/-- The text of one member. -/
def serializeMember {ε : Type} (S : Style N ε) (depth : ℕ) (m : Text × Json N) : Except ε Text := do
  let t ← serialize S depth m.2
  return S.string m.1 ++ 0x3A :: S.keySpace ++ t

/-- Members are written one by one, each with its key. -/
theorem serializeMembers_eq {ε : Type} (S : Style N ε) (depth : ℕ) (ms : Members (Json N)) :
    serializeMembers S depth ms = ms.map fun m => (m.1, serializeMember S depth m) := by
  induction ms with
  | nil => rfl
  | cons m ms ih =>
    obtain ⟨k, v⟩ := m
    rw [serializeMembers, ih]
    rfl

namespace Style

variable {ε α β : Type} (S : Style N ε)

/-- The order of the members depends on their keys alone. -/
theorem arrange_map {f : Text × α → Text × β} (hf : ∀ m, (f m).1 = m.1) (ms : List (Text × α)) :
    S.arrange (ms.map f) = (S.arrange ms).map f := by
  unfold arrange
  cases S.sortKey with
  | none => rfl
  | some key => simp only [sortBy_map, hf]

/-- Arranging only reorders. -/
theorem arrange_perm (ms : List (Text × α)) : (S.arrange ms).Perm ms := by
  unfold arrange
  cases S.sortKey with
  | none => exact List.Perm.refl _
  | some key => exact perm_sortBy _ _

/-- Arranging keeps the keys distinct. -/
theorem distinct_arrange {ms : Members α} (h : ms.Distinct) :
    Members.Distinct (S.arrange ms) :=
  (((S.arrange_perm ms).map Prod.fst).nodup_iff).2 h

end Style

/-- The members of an object are written in the order of the style. -/
theorem serialize_obj {ε : Type} (S : Style N ε) (depth : ℕ) (ms : Members (Json N)) :
    serialize S depth (obj ms) = do
      let parts ← collect ((S.arrange ms).map (serializeMember S (depth + 1)))
      return S.enclose depth 0x7B 0x7D parts := by
  rw [serialize, serializeMembers_eq,
    S.arrange_map (f := fun m => (m.1, serializeMember S (depth + 1) m)) fun _ => rfl,
    List.map_map]
  rfl

/-- A list is its items, written and enclosed. -/
theorem serialize_arr {ε : Type} (S : Style N ε) (depth : ℕ) (vs : List (Json N)) :
    serialize S depth (arr vs) = do
      let parts ← collect (vs.map (serialize S (depth + 1)))
      return S.enclose depth 0x5B 0x5D parts := by
  rw [serialize, serializeItems_eq]

/-- A value is written if its numbers are. -/
theorem serialize_isOk {ε : Type} {S : Style N ε} {num : N → Prop} {text : Text → Prop}
    (h : ∀ n, num n → ∃ t, S.number n = .ok t) (v : Json N) (hv : v.Valid num text) (d : ℕ) :
    ∃ t, serialize S d v = .ok t := by
  have hparts : ∀ {α : Type} (f : α → Except ε Text) (l : List α),
      (∀ a ∈ l, ∃ t, f a = .ok t) → ∃ ts, collect (l.map f) = .ok ts := by
    intro α f l hl
    induction l with
    | nil => exact ⟨[], rfl⟩
    | cons a l ih =>
      obtain ⟨t, ht⟩ := hl a (by simp)
      obtain ⟨ts, hts⟩ := ih fun b hb => hl b (by simp [hb])
      exact ⟨t :: ts, collect_cons_eq_ok.2 ⟨t, ts, ht, hts, rfl⟩⟩
  induction v using induct generalizing d with
  | null => exact ⟨_, rfl⟩
  | bool b => exact ⟨_, rfl⟩
  | num n => exact h n hv
  | str t => exact ⟨_, rfl⟩
  | arr vs ih =>
    obtain ⟨ts, hts⟩ := hparts (serialize S (d + 1)) vs fun v hmem =>
      ih v hmem (validItems_iff.1 hv v hmem) _
    rw [serialize_arr, hts]
    exact ⟨_, rfl⟩
  | obj ms ih =>
    obtain ⟨ts, hts⟩ := hparts (serializeMember S (d + 1)) (S.arrange ms) fun m hmem => by
      have hm := (S.arrange_perm ms).mem_iff.1 hmem
      obtain ⟨t, ht⟩ := ih m hm (validMembers_iff.1 hv.2 m hm).2 (d + 1)
      exact ⟨_, by rw [serializeMember, ht]; rfl⟩
    rw [serialize_obj, hts]
    exact ⟨_, rfl⟩

/-- What joins to a text of scalar values. -/
theorem isScalar_join {sep : Text} (hsep : sep.IsScalar) {ts : List Text}
    (h : ∀ t ∈ ts, t.IsScalar) : (Text.join sep ts).IsScalar := by
  induction ts with
  | nil => exact Text.isScalar_nil
  | cons t ts ih =>
    obtain ⟨ht, hts⟩ := List.forall_mem_cons.1 h
    cases ts with
    | nil => exact ht
    | cons t' ts => exact Text.isScalar_append.2 ⟨Text.isScalar_append.2 ⟨ht, hsep⟩, ih hts⟩

/-- A style that writes scalar values only. -/
structure Style.WritesScalars {ε : Type} (S : Style N ε) (num : N → Prop) (text : Text → Prop) :
    Prop where
  number : ∀ {n t}, num n → S.number n = .ok t → t.IsScalar
  string : ∀ {t}, text t → (S.string t).IsScalar
  itemSpace : S.itemSpace.IsScalar
  keySpace : S.keySpace.IsScalar
  newline : ∀ d, (S.newline d).IsScalar

/-- Brackets around parts of scalar values are a text of scalar values. -/
theorem Style.WritesScalars.enclose {ε : Type} {S : Style N ε} {num : N → Prop}
    {text : Text → Prop} (hS : S.WritesScalars num text) {depth left right : ℕ}
    (hl : Scalar left) (hr : Scalar right) {parts : List Text} (h : ∀ p ∈ parts, p.IsScalar) :
    (S.enclose depth left right parts).IsScalar := by
  have hcomma : Scalar 0x2C := by decide
  cases parts with
  | nil => simp [Style.enclose, hl, hr]
  | cons p ps =>
    have hsep : Text.IsScalar (0x2C :: (S.itemSpace ++ S.newline (depth + 1))) := by
      simp [hcomma, hS.itemSpace, hS.newline]
    have hjoin := isScalar_join hsep h
    simp [Style.enclose, hl, hr, hS.newline, hjoin]

/-- **A text a value is written as** is one of scalar values. -/
theorem serialize_isScalar {ε : Type} {S : Style N ε} {num : N → Prop} {text : Text → Prop}
    (hS : S.WritesScalars num text) (v : Json N) (hv : v.Valid num text) {d : ℕ} {t : Text}
    (h : serialize S d v = .ok t) : t.IsScalar := by
  induction v using induct generalizing d t with
  | null =>
    cases h
    decide
  | bool b =>
    cases h
    cases b <;> decide
  | num n => exact hS.number hv h
  | str s =>
    cases h
    exact hS.string hv
  | arr vs ih =>
    rw [serialize_arr] at h
    obtain ⟨parts, hparts, h⟩ := bind_eq_ok.1 h
    cases h
    refine hS.enclose (by decide) (by decide) fun p hp => ?_
    obtain ⟨v, hmem, hser⟩ := List.mem_map.1 (mem_of_collect hparts hp)
    exact ih v hmem (validItems_iff.1 hv v hmem) hser
  | obj ms ih =>
    rw [serialize_obj] at h
    obtain ⟨parts, hparts, h⟩ := bind_eq_ok.1 h
    cases h
    refine hS.enclose (by decide) (by decide) fun p hp => ?_
    obtain ⟨m, hmem, hser⟩ := List.mem_map.1 (mem_of_collect hparts hp)
    have hm := (S.arrange_perm ms).mem_iff.1 hmem
    obtain ⟨htext, hvalid⟩ := validMembers_iff.1 hv.2 m hm
    obtain ⟨t, ht, hp⟩ := bind_eq_ok.1 hser
    cases hp
    have hcolon : Scalar 0x3A := by decide
    simp [hcolon, hS.string htext, hS.keySpace, ih m hm hvalid ht]

mutual

/-- A weaker condition on the parts. -/
theorem Valid.mono {num num' : N → Prop} {text text' : Text → Prop} (hn : ∀ n, num n → num' n)
    (ht : ∀ t, text t → text' t) : ∀ {v : Json N}, v.Valid num text → v.Valid num' text'
  | .null, _ => trivial
  | .bool _, _ => trivial
  | .num n, h => hn n h
  | .str t, h => ht t h
  | .arr _, h => ValidItems.mono hn ht h
  | .obj _, h => ⟨h.1, ValidMembers.mono hn ht h.2⟩

/-- A weaker condition on the items. -/
theorem ValidItems.mono {num num' : N → Prop} {text text' : Text → Prop}
    (hn : ∀ n, num n → num' n) (ht : ∀ t, text t → text' t) :
    ∀ {vs : List (Json N)}, ValidItems num text vs → ValidItems num' text' vs
  | [], _ => trivial
  | _ :: _, h => ⟨Valid.mono hn ht h.1, ValidItems.mono hn ht h.2⟩

/-- A weaker condition on the members. -/
theorem ValidMembers.mono {num num' : N → Prop} {text text' : Text → Prop}
    (hn : ∀ n, num n → num' n) (ht : ∀ t, text t → text' t) :
    ∀ {ms : List (Text × Json N)}, ValidMembers num text ms → ValidMembers num' text' ms
  | [], _ => trivial
  | (_, _) :: _, h => ⟨⟨ht _ h.1.1, Valid.mono hn ht h.1.2⟩, ValidMembers.mono hn ht h.2⟩

end

end Json

end Lakehouse
