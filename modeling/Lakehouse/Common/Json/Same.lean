import Lakehouse.Common.Json.RoundTrip
/-!
# The same JSON value

`Same R` compares two values as JSON does: arrays item by item, objects
as maps from keys to values, numbers by `R`. A sorting style writes the
same text exactly for the same values (`same_of_arranged`,
`serialize_congr`).
-/

namespace Lakehouse

namespace Json

variable {N M ε : Type}

/-- **Two values are the same**, their numbers related by `R`. -/
inductive Same (R : N → M → Prop) : Json N → Json M → Prop
  | null : Same R null null
  | bool (b : Bool) : Same R (bool b) (bool b)
  | num {m : N} {n : M} : R m n → Same R (num m) (num n)
  | str (t : Text) : Same R (str t) (str t)
  | arr {vs : List (Json N)} {ws : List (Json M)} : vs.length = ws.length →
      (∀ (i : ℕ) (h : i < vs.length) (h' : i < ws.length), Same R (vs.get ⟨i, h⟩) (ws.get ⟨i, h'⟩)) →
      Same R (arr vs) (arr ws)
  | obj {ms : Members (Json N)} {ns : Members (Json M)} :
      (∀ k, ms.get k = none ↔ ns.get k = none) →
      (∀ k v w, ms.get k = some v → ns.get k = some w → Same R v w) → Same R (obj ms) (obj ns)

/-- A related pair of lists, by position. -/
theorem same_arr {R : N → M → Prop} {vs : List (Json N)} {ws : List (Json M)}
    (h : List.Forall₂ (Same R) vs ws) : Same R (arr vs) (arr ws) :=
  .arr h.length_eq fun i h₁ h₂ => (List.forall₂_iff_get.1 h).2 i h₁ h₂

/-- A map of the numbers keeps a value valid. -/
theorem Valid.map {num : N → Prop} {num' : M → Prop} {text : Text → Prop} {g : N → M}
    (hg : ∀ n, num n → num' (g n)) (v : Json N) (hv : v.Valid num text) :
    (v.map g).Valid num' text := by
  induction v using Json.induct with
  | null => trivial
  | bool b => trivial
  | num n => exact hg n hv
  | str t => exact hv
  | arr vs ih =>
    rw [Json.map, mapItems_eq]
    refine validItems_iff.2 fun w hw => ?_
    obtain ⟨v, hmem, rfl⟩ := List.mem_map.1 hw
    exact ih v hmem (validItems_iff.1 hv v hmem)
  | obj ms ih =>
    rw [Json.map, mapMembers_eq]
    refine ⟨?_, validMembers_iff.2 fun w hw => ?_⟩
    · unfold Members.Distinct
      rw [Members.keys_mapValues]
      exact hv.1
    · obtain ⟨m, hmem, rfl⟩ := List.mem_map.1 hw
      have hm := validMembers_iff.1 hv.2 m hmem
      exact ⟨hm.1, ih m hmem hm.2⟩

/-- A value is the same with its numbers replaced by related ones. -/
theorem same_map {R : N → M → Prop} {num : N → Prop} {text : Text → Prop} {g : N → M}
    (hg : ∀ n, num n → R n (g n)) (v : Json N) (hv : v.Valid num text) : Same R v (v.map g) := by
  induction v using Json.induct with
  | null => exact .null
  | bool b => exact .bool b
  | num n => exact .num (hg n hv)
  | str t => exact .str t
  | arr vs ih =>
    rw [Json.map, mapItems_eq]
    refine same_arr ?_
    rw [List.forall₂_map_right_iff, List.forall₂_same]
    exact fun v hmem => ih v hmem (validItems_iff.1 hv v hmem)
  | obj ms ih =>
    rw [Json.map, mapMembers_eq]
    refine .obj (fun k => by rw [Members.get_mapValues, Option.map_eq_none_iff])
      fun k v w hgv hgw => ?_
    rw [Members.get_mapValues, hgv, Option.map_some, Option.some.injEq] at hgw
    subst hgw
    have hmem := Members.mem_of_get hgv
    exact ih _ hmem (validMembers_iff.1 hv.2 _ hmem).2

/-- A value is the same as itself. -/
theorem Same.refl (v : Json N) : Same Eq v v := by
  induction v using Json.induct with
  | null => exact .null
  | bool b => exact .bool b
  | num n => exact .num rfl
  | str t => exact .str t
  | arr vs ih =>
    refine same_arr ?_
    rw [List.forall₂_same]
    exact ih
  | obj ms ih =>
    refine .obj (fun k => Iff.rfl) fun k v w hgv hgw => ?_
    rw [hgv, Option.some.injEq] at hgw
    subst hgw
    exact ih _ (Members.mem_of_get hgv)

/-! ## Equal texts come from the same value -/

section Arranged

variable {K L : Type} {S : Style N ε} {T : Style M ε} {g : N → K} {g' : M → K}

/-- Objects permuted have the same members. -/
theorem get_of_perm {ms ns : Members K} (h : ms.Perm ns) (hd : ms.Distinct) (k : Text) :
    ms.get k = ns.get k := by
  have hd' : ns.Distinct := ((h.map Prod.fst).nodup_iff).1 hd
  cases hg : ns.get k with
  | none =>
    rw [Members.get_eq_none] at hg ⊢
    exact fun hk => hg ((h.map Prod.fst).mem_iff.1 hk)
  | some v =>
    rw [Members.get_eq_some hd'] at hg
    rw [Members.get_eq_some hd]
    exact h.mem_iff.2 hg

/-- Arranging keeps the members. -/
theorem get_arrange {α : Type} (S : Style N ε) {ms : Members α} (h : ms.Distinct) (k : Text) :
    Members.get k (S.arrange ms) = ms.get k :=
  get_of_perm (S.arrange_perm ms) (S.distinct_arrange h) k

/-- **Values that arrange to one value are the same.** -/
theorem same_of_arranged {num : N → Prop} {num' : M → Prop} {text text' : Text → Prop}
    {R : N → M → Prop} (hR : ∀ {m n}, num m → num' n → g m = g' n → R m n) (v : Json N)
    {w : Json M} (hv : v.Valid num text) (hw : w.Valid num' text')
    (h : arranged S g v = arranged T g' w) : Same R v w := by
  induction v using induct generalizing w with
  | null => cases w <;> first | exact .null | (simp [arranged] at h)
  | bool b =>
    cases w with
    | bool b' =>
      simp only [arranged, bool.injEq] at h
      rw [h]
      exact .bool _
    | _ => simp [arranged] at h
  | num n =>
    cases w with
    | num n' =>
      simp only [arranged, Json.num.injEq] at h
      exact .num (hR hv hw h)
    | _ => simp [arranged] at h
  | str t =>
    cases w with
    | str t' =>
      simp only [arranged, str.injEq] at h
      rw [h]
      exact .str _
    | _ => simp [arranged] at h
  | arr vs ih =>
    cases w with
    | arr ws =>
      simp only [arranged, arrangedItems_eq, arr.injEq] at h
      have hlen : vs.length = ws.length := by simpa using congrArg List.length h
      refine .arr hlen fun i h₁ h₂ => ih _ (List.get_mem ..) (validItems_iff.1 hv _ (List.get_mem ..))
        (validItems_iff.1 hw _ (List.get_mem ..)) ?_
      simpa [h₁, h₂] using congrArg (fun l => l[i]?) h
    | _ => simp [arranged] at h
  | obj ms ih =>
    cases w with
    | obj ns =>
      rw [arranged_obj, arranged_obj, obj.injEq] at h
      have hget : ∀ k, (Members.get k ms).map (arranged S g) = (Members.get k ns).map (arranged T g') := by
        intro k
        rw [← get_arrange S hv.1, ← get_arrange T hw.1, ← Members.get_mapValues,
          ← Members.get_mapValues, h]
      refine .obj (fun k => ?_) fun k v w hgv hgw => ?_
      · rw [← Option.map_eq_none_iff (f := arranged S g), hget k, Option.map_eq_none_iff]
      · have hk := hget k
        rw [hgv, hgw, Option.map_some, Option.map_some, Option.some.injEq] at hk
        have hmv := Members.mem_of_get hgv
        have hmw := Members.mem_of_get hgw
        exact ih _ hmv (validMembers_iff.1 hv.2 _ hmv).2 (validMembers_iff.1 hw.2 _ hmw).2 hk
    | _ => simp [arranged] at h

/-- **Equal texts come from the same value.** -/
theorem same_of_serialize {H : Hooks K ε} {num : N → Prop} {num' : M → Prop}
    {text text' : Text → Prop} {R : N → M → Prop}
    (hR : ∀ {m n}, num m → num' n → g m = g' n → R m n) (hS : S.ReadBy H num text g)
    (hT : T.ReadBy H num' text' g') {v : Json N} {w : Json M} {p : Text} (hv : v.Valid num text)
    (hw : w.Valid num' text') (hvp : serialize S 0 v = .ok p) (hwp : serialize T 0 w = .ok p) :
    Same R v w := by
  have hl := (loads_serialize hS hv hvp).symm.trans (loads_serialize hT hw hwp)
  exact same_of_arranged hR v hv hw (Except.ok.inj hl)

end Arranged

/-! ## The same value has one text -/

section Serialize

variable {S : Style N ε} {T : Style M ε} {key : Text → List ℕ}

/-- Styles that differ in the type of their numbers alone. -/
structure Style.Alike (S : Style N ε) (T : Style M ε) : Prop where
  string : S.string = T.string
  itemSpace : S.itemSpace = T.itemSpace
  keySpace : S.keySpace = T.keySpace
  newline : S.newline = T.newline
  sortKey : S.sortKey = T.sortKey

/-- Alike styles enclose alike. -/
theorem Style.Alike.enclose (h : S.Alike T) (d l r : ℕ) (ps : List Text) :
    S.enclose d l r ps = T.enclose d l r ps := by
  cases ps with
  | nil => rfl
  | cons p ps => simp only [Style.enclose, h.itemSpace, h.newline]

/-- A style is alike to itself. -/
theorem Style.Alike.refl (S : Style N ε) : S.Alike S := ⟨rfl, rfl, rfl, rfl, rfl⟩

/-- The text of an object sorted by key is a function of its members as
a set. -/
theorem serialize_obj_perm (h : S.Alike T) (hkey : S.sortKey = some key) {d : ℕ}
    {ms : Members (Json N)} {ns : Members (Json M)}
    (hinj : (ms.map fun m => key m.1).Nodup)
    (hp : (ms.map fun m => (m.1, serializeMember S (d + 1) m)).Perm
      (ns.map fun m => (m.1, serializeMember T (d + 1) m))) :
    serialize S d (obj ms) = serialize T d (obj ns) := by
  rw [serialize, serialize, serializeMembers_eq, serializeMembers_eq]
  have harr : S.arrange (ms.map fun m => (m.1, serializeMember S (d + 1) m)) =
      T.arrange (ns.map fun m => (m.1, serializeMember T (d + 1) m)) := by
    unfold Style.arrange
    rw [← h.sortKey, hkey]
    refine sortBy_perm hp ?_
    simpa [Function.comp_def] using hinj
  rw [harr]
  simp only [h.enclose]

/-- **The same value has one text**, under a style that sorts by a key
no two members share. -/
theorem serialize_congr (hST : S.Alike T) (hkey : S.sortKey = some key) {num : N → Prop}
    {num' : M → Prop} {text text' : Text → Prop}
    (hinj : ∀ {s t}, text s → text t → key s = key t → s = t) {R : N → M → Prop}
    (hR : ∀ {m n}, num m → num' n → R m n → S.number m = T.number n) {v : Json N} {w : Json M}
    (hvw : Same R v w) (hv : v.Valid num text) (hw : w.Valid num' text') (d : ℕ) :
    serialize S d v = serialize T d w := by
  induction hvw generalizing d with
  | null => rfl
  | bool b => rfl
  | num h => exact hR hv hw h
  | str t => simp only [serialize, hST.string]
  | @arr vs ws hlen _ ih =>
    rw [serialize_arr, serialize_arr]
    have hparts : vs.map (serialize S (d + 1)) = ws.map (serialize T (d + 1)) := by
      refine List.ext_get (by simpa using hlen) fun i h₁ h₂ => ?_
      rw [List.length_map] at h₁ h₂
      have hi := ih i h₁ h₂ (validItems_iff.1 hv _ (List.get_mem ..))
        (validItems_iff.1 hw _ (List.get_mem ..)) (d + 1)
      simpa using hi
    rw [hparts]
    simp only [hST.enclose]
  | @obj ms ns hnone _ ih =>
    have hmv := validMembers_iff.1 hv.2
    have hmw := validMembers_iff.1 hw.2
    -- distinct names have distinct sort keys
    have hkeys : (ms.map fun m => key m.1).Nodup := by
      refine List.Nodup.map_on (fun a ha b hb hab => ?_) (List.Nodup.of_map _ hv.1)
      exact List.inj_on_of_nodup_map hv.1 ha hb (hinj (hmv a ha).1 (hmv b hb).1 hab)
    -- a member has its counterpart, written alike
    have hpair : ∀ m ∈ ms, ∃ n ∈ ns, n.1 = m.1 ∧ serializeMember T (d + 1) n =
        serializeMember S (d + 1) m := by
      intro m hm
      have hgm := (Members.get_eq_some hv.1).2 hm
      cases hgn : Members.get m.1 ns with
      | none => rw [(hnone m.1).2 hgn] at hgm; cases hgm
      | some w =>
        have hmn := Members.mem_of_get hgn
        refine ⟨_, hmn, rfl, ?_⟩
        have hser := ih m.1 m.2 w hgm hgn (hmv m hm).2 (hmw _ hmn).2 (d + 1)
        simp only [serializeMember, hser, hST.string, hST.keySpace]
    refine serialize_obj_perm hST hkey hkeys ?_
    have hnd : ∀ {α : Type} {f : Text × α → Except ε Text} {ms : Members α}, ms.Distinct →
        (ms.map fun m => (m.1, f m)).Nodup := fun {α f ms} h =>
      List.Nodup.of_map Prod.fst (by simpa [Function.comp_def, Members.Distinct] using h)
    rw [List.perm_ext_iff_of_nodup (hnd hv.1) (hnd hw.1)]
    rintro ⟨k, t⟩
    constructor
    · intro h
      obtain ⟨m, hm, heq⟩ := List.mem_map.1 h
      obtain ⟨n, hn, hk, ht⟩ := hpair m hm
      exact List.mem_map.2 ⟨n, hn, by rw [← heq, hk, ht]⟩
    · intro h
      obtain ⟨n, hn, heq⟩ := List.mem_map.1 h
      have hgn := (Members.get_eq_some hw.1).2 hn
      cases hgm : Members.get n.1 ms with
      | none => rw [(hnone n.1).1 hgm] at hgn; cases hgn
      | some v =>
        have hm := Members.mem_of_get hgm
        obtain ⟨n', hn', hk, ht⟩ := hpair _ hm
        have hnn : n' = n := List.inj_on_of_nodup_map hw.1 hn' hn hk
        subst hnn
        exact List.mem_map.2 ⟨_, hm, by rw [← heq, ht]⟩

end Serialize

end Json

end Lakehouse
