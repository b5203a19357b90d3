import Lakehouse.Common.Json.TwoParses
/-!
# Two parses as one value

Where one parse accepts a text, so does a parse whose hooks accept what
its hooks do, and the two values are the halves of one value of pairs:
one shape, one order of members (`loads_paired`). Halves whose numbers
are written alike are written alike, and under a style that reads back
they are written alike in no other case (`serialize_halves`,
`numbers_of_serialize`).
-/

namespace Lakehouse

namespace Json

section Paired

variable {N M ε : Type} {H : Hooks N ε} {K : Hooks M ε} {R : N → M → Prop}

/-- The second hooks accept what the first do, and make a related number
of it. -/
structure Hooks.Covered (H : Hooks N ε) (K : Hooks M ε) (R : N → M → Prop) : Prop where
  number : ∀ {l a}, l.Wf → H.number l = .ok a → ∃ b, K.number l = .ok b ∧ R a b
  constant : ∀ {c a}, H.constant c = .ok a → ∃ b, K.constant c = .ok b ∧ R a b

/-- Hooks stay covered under a wider relation. -/
theorem Hooks.Covered.mono {S : N → M → Prop} (h : H.Covered K R) (hR : ∀ a b, R a b → S a b) :
    H.Covered K S where
  number hl ha := (h.number hl ha).imp fun _ hb => hb.imp_right (hR _ _)
  constant ha := (h.constant ha).imp fun _ hb => hb.imp_right (hR _ _)

/-- What covers another makes numbers that are related to its own. -/
theorem Hooks.Covered.relate (h : H.Covered K R) : H.Relate K R where
  number := by
    intro l a b hl ha hb
    obtain ⟨b', hb', hR⟩ := h.number hl ha
    cases hb'.symm.trans hb
    exact hR
  constant := by
    intro c a b ha hb
    obtain ⟨b', hb', hR⟩ := h.constant ha
    cases hb'.symm.trans hb
    exact hR

/-- **A value of pairs**, the halves of each related. -/
abbrev Paired (R : N → M → Prop) (r : Json (N × M)) : Prop := r.Valid (fun p => R p.1 p.2) AnyText

/-- An atom that one parse takes is taken by the other. -/
theorem parseAtom_paired (h : H.Covered K R) {t rest : Text} {v : Json N}
    (hv : parseAtom H t = .ok (v, rest)) :
    ∃ r, Paired R r ∧ r.map Prod.fst = v ∧ parseAtom K t = .ok (r.map Prod.snd, rest) := by
  have hconst : ∀ {c : Constant} {u : Text},
      (do return (Json.num (← H.constant c), u)) = (.ok (v, rest) : Except ε _) →
      ∃ r, Paired R r ∧ r.map Prod.fst = v ∧
        (do return (Json.num (← K.constant c), u)) = (.ok (r.map Prod.snd, rest) : Except ε _) := by
    intro c u hv
    obtain ⟨a, ha, hv⟩ := bind_eq_ok.1 hv
    cases hv
    obtain ⟨b, hb, hab⟩ := h.constant ha
    exact ⟨.num (a, b), hab, rfl, by rw [hb]; rfl⟩
  unfold parseAtom at hv ⊢
  split_ifs at hv ⊢
  · cases hv; exact ⟨.null, trivial, rfl, rfl⟩
  · cases hv; exact ⟨.bool true, trivial, rfl, rfl⟩
  · cases hv; exact ⟨.bool false, trivial, rfl, rfl⟩
  · exact hconst hv
  · exact hconst hv
  · exact hconst hv
  · cases hs : scanNumeral t with
    | none => rw [hs] at hv; cases hv
    | some p =>
      obtain ⟨l, rest'⟩ := p
      rw [hs] at hv
      obtain ⟨a, ha, hv⟩ := bind_eq_ok.1 hv
      cases hv
      obtain ⟨b, hb, hab⟩ := h.number (scanNumeral_wf hs) ha
      exact ⟨.num (a, b), hab, rfl, by dsimp only; rw [hb]; rfl⟩

/-- What the three parsers do under the two hooks, at one amount of fuel. -/
structure PairedAt (H : Hooks N ε) (K : Hooks M ε) (R : N → M → Prop) (fuel : ℕ) : Prop where
  value : ∀ {t v rest}, parseValue H fuel t = .ok (v, rest) →
    ∃ r, Paired R r ∧ r.map Prod.fst = v ∧ parseValue K fuel t = .ok (r.map Prod.snd, rest)
  items : ∀ {t vs rest}, parseItems H fuel t = .ok (vs, rest) →
    ∃ rs : List (Json (N × M)), (∀ r ∈ rs, Paired R r) ∧ rs.map (map Prod.fst) = vs ∧
      parseItems K fuel t = .ok (rs.map (map Prod.snd), rest)
  members : ∀ {t ms rest}, parseMembers H fuel t = .ok (ms, rest) →
    ∃ rs : Members (Json (N × M)), (∀ r ∈ rs, Paired R r.2) ∧ Members.mapValues (map Prod.fst) rs = ms ∧
      parseMembers K fuel t = .ok (Members.mapValues (map Prod.snd) rs, rest)

/-- The step of a value. -/
theorem PairedAt.value_succ (h : H.Covered K R) {fuel : ℕ} (ih : PairedAt H K R fuel)
    {t rest : Text} {v : Json N} (hv : parseValue H (fuel + 1) t = .ok (v, rest)) :
    ∃ r, Paired R r ∧ r.map Prod.fst = v ∧
      parseValue K (fuel + 1) t = .ok (r.map Prod.snd, rest) := by
  cases t with
  | nil => cases hv
  | cons c t =>
    rw [parseValue] at hv ⊢
    split_ifs at hv ⊢
    · cases hs : scanString t with
      | none => rw [hs] at hv; cases hv
      | some p => rw [hs] at hv; cases hv; exact ⟨.str p.1, trivial, rfl, rfl⟩
    · cases hs : skipWs t with
      | nil => rw [hs] at hv; cases hv
      | cons d t' =>
        rw [hs] at hv
        dsimp only at hv ⊢
        split_ifs at hv ⊢
        · cases hv
          exact ⟨.obj [], ⟨Members.distinct_nil, trivial⟩, rfl, rfl⟩
        · obtain ⟨⟨ms, rest'⟩, hms, hv⟩ := bind_eq_ok.1 hv
          obtain ⟨rs, hrs, rfl, hparse⟩ := ih.members hms
          cases hv
          refine ⟨.obj (Members.ofPairs rs), ⟨Members.distinct_ofPairs rs, validMembers_iff.2
            fun m hm => ⟨trivial, hrs m (Members.mem_ofPairs hm)⟩⟩, ?_, ?_⟩
          · rw [map, mapMembers_eq, Members.mapValues_ofPairs]
          · rw [hparse, ok_bind, map, mapMembers_eq, Members.mapValues_ofPairs]
            rfl
    · cases hs : skipWs t with
      | nil => rw [hs] at hv; cases hv
      | cons d t' =>
        rw [hs] at hv
        dsimp only at hv ⊢
        split_ifs at hv ⊢
        · cases hv
          exact ⟨.arr [], trivial, rfl, rfl⟩
        · obtain ⟨⟨vs, rest'⟩, hvs, hv⟩ := bind_eq_ok.1 hv
          obtain ⟨rs, hrs, rfl, hparse⟩ := ih.items hvs
          cases hv
          refine ⟨.arr rs, validItems_iff.2 hrs, ?_, ?_⟩
          · rw [map, mapItems_eq]
          · rw [hparse, ok_bind, map, mapItems_eq]
            rfl
    · exact parseAtom_paired h hv

/-- The step of the items of an array. -/
theorem PairedAt.items_succ {fuel : ℕ} (ih : PairedAt H K R fuel) {t rest : Text}
    {vs : List (Json N)} (hv : parseItems H (fuel + 1) t = .ok (vs, rest)) :
    ∃ rs : List (Json (N × M)), (∀ r ∈ rs, Paired R r) ∧ rs.map (map Prod.fst) = vs ∧
      parseItems K (fuel + 1) t = .ok (rs.map (map Prod.snd), rest) := by
  rw [parseItems] at hv ⊢
  obtain ⟨⟨v, rest'⟩, hv₁, hv⟩ := bind_eq_ok.1 hv
  obtain ⟨r, hr, rfl, hparse⟩ := ih.value hv₁
  rw [hparse, ok_bind]
  cases hs : skipWs rest' with
  | nil => simp only [hs] at hv; cases hv
  | cons d rest' =>
    simp only [hs] at hv ⊢
    split_ifs at hv ⊢
    · cases hv
      exact ⟨[r], List.forall_mem_singleton.2 hr, rfl, rfl⟩
    · obtain ⟨⟨vs, rest₁⟩, hvs, hv⟩ := bind_eq_ok.1 hv
      obtain ⟨rs, hrs, rfl, hparse'⟩ := ih.items hvs
      cases hv
      exact ⟨r :: rs, List.forall_mem_cons.2 ⟨hr, hrs⟩, rfl, by rw [hparse']; rfl⟩

/-- The step of the members of an object. -/
theorem PairedAt.members_succ {fuel : ℕ} (ih : PairedAt H K R fuel) {t rest : Text}
    {ms : List (Text × Json N)} (hv : parseMembers H (fuel + 1) t = .ok (ms, rest)) :
    ∃ rs : Members (Json (N × M)), (∀ r ∈ rs, Paired R r.2) ∧ Members.mapValues (map Prod.fst) rs = ms ∧
      parseMembers K (fuel + 1) t = .ok (Members.mapValues (map Prod.snd) rs, rest) := by
  cases t with
  | nil => cases hv
  | cons c t =>
    rw [parseMembers] at hv ⊢
    split_ifs at hv ⊢
    cases hk : scanString t with
    | none => rw [hk] at hv; cases hv
    | some p =>
      obtain ⟨k, rest'⟩ := p
      rw [hk] at hv
      cases hs : skipWs rest' with
      | nil => simp only [hs] at hv; cases hv
      | cons d rest' =>
        simp only [hs] at hv ⊢
        split_ifs at hv ⊢
        obtain ⟨⟨v, rest₁⟩, hv₁, hv⟩ := bind_eq_ok.1 hv
        obtain ⟨r, hr, rfl, hparse⟩ := ih.value hv₁
        rw [hparse, ok_bind]
        cases hs' : skipWs rest₁ with
        | nil => simp only [hs'] at hv; cases hv
        | cons d rest₁ =>
          simp only [hs'] at hv ⊢
          split_ifs at hv ⊢
          · cases hv
            exact ⟨[(k, r)], List.forall_mem_singleton.2 hr, rfl, rfl⟩
          · obtain ⟨⟨ms, rest₂⟩, hms, hv⟩ := bind_eq_ok.1 hv
            obtain ⟨rs, hrs, rfl, hparse'⟩ := ih.members hms
            cases hv
            exact ⟨(k, r) :: rs, List.forall_mem_cons.2 ⟨hr, hrs⟩, rfl, by rw [hparse']; rfl⟩

/-- **What one parse takes the other takes too.** -/
theorem pairedAt (h : H.Covered K R) (fuel : ℕ) : PairedAt H K R fuel := by
  induction fuel with
  | zero => exact ⟨nofun, nofun, nofun⟩
  | succ fuel ih => exact ⟨ih.value_succ h, ih.items_succ, ih.members_succ⟩

/-- **Two parses of one text are the halves of one value.** -/
theorem loads_paired (h : H.Covered K R) {t : Text} {v : Json N} (hv : loads H t = .ok v) :
    ∃ r, Paired R r ∧ r.map Prod.fst = v ∧ loads K t = .ok (r.map Prod.snd) := by
  unfold loads at hv ⊢
  split_ifs at hv ⊢
  obtain ⟨⟨v', rest⟩, hv₁, hv⟩ := bind_eq_ok.1 hv
  obtain ⟨r, hr, rfl, hparse⟩ := (pairedAt h _).value hv₁
  dsimp only at hv
  split_ifs at hv with hrest
  cases hv
  exact ⟨r, hr, rfl, by rw [hparse, ok_bind]; exact if_pos hrest⟩

end Paired

/-! ## What is said of every number -/

section Numbers

variable {A N ε : Type} {text : Text → Prop}

/-- A mapped value is valid where its numbers are mapped to valid ones. -/
theorem valid_map_iff {num : N → Prop} {f : A → N} {r : Json A} :
    (r.map f).Valid num text ↔ r.Valid (fun a => num (f a)) text := by
  induction r using induct with
  | null | bool _ | str _ | num _ => exact Iff.rfl
  | arr vs ih =>
    rw [map, mapItems_eq, Valid, Valid, validItems_iff, validItems_iff, List.forall_mem_map]
    exact forall₂_congr ih
  | obj ms ih =>
    rw [map, mapMembers_eq, Valid, Valid, validMembers_iff, validMembers_iff, Members.Distinct,
      Members.keys_mapValues, Members.mapValues, List.forall_mem_map]
    exact and_congr_right fun _ => forall₂_congr fun m hm => and_congr_right fun _ => ih m hm

/-- What is valid in two ways is valid in both at once. -/
theorem Valid.and {num num' : A → Prop} {r : Json A} (h : r.Valid num text) (h' : r.Valid num' text) :
    r.Valid (fun a => num a ∧ num' a) text := by
  induction r using Json.induct with
  | null | bool _ => trivial
  | str _ => exact h
  | num _ => exact ⟨h, h'⟩
  | arr vs ih =>
    exact validItems_iff.2 fun v hv => ih v hv (validItems_iff.1 h v hv) (validItems_iff.1 h' v hv)
  | obj ms ih =>
    refine ⟨h.1, validMembers_iff.2 fun m hm => ?_⟩
    obtain ⟨htext, hvalid⟩ := validMembers_iff.1 h.2 m hm
    exact ⟨htext, ih m hm hvalid (validMembers_iff.1 h'.2 m hm).2⟩

/-- Every number of a value that is written is written. -/
theorem Valid.isOk {S : Style N ε} {num : N → Prop} {v : Json N} (hv : v.Valid num text) {d : ℕ}
    {p : Text} (hp : serialize S d v = .ok p) : v.Valid (fun n => ∃ t, S.number n = .ok t) text := by
  induction v using Json.induct generalizing d p with
  | null | bool _ => trivial
  | str _ => exact hv
  | num n => exact ⟨p, hp⟩
  | arr vs ih =>
    rw [serialize_arr] at hp
    obtain ⟨ps, hps, -⟩ := bind_eq_ok.1 hp
    rw [collect_eq_ok, List.forall₂_map_left_iff] at hps
    refine validItems_iff.2 fun v hmem => ?_
    obtain ⟨i, rfl⟩ := List.get_of_mem hmem
    obtain ⟨hlen, hget⟩ := List.forall₂_iff_get.1 hps
    exact ih _ hmem (validItems_iff.1 hv _ hmem) (hget i.1 i.2 (hlen ▸ i.2))
  | obj ms ih =>
    rw [serialize_obj] at hp
    obtain ⟨ps, hps, -⟩ := bind_eq_ok.1 hp
    rw [collect_eq_ok, List.forall₂_map_left_iff] at hps
    refine ⟨hv.1, validMembers_iff.2 fun m hmem => ?_⟩
    obtain ⟨i, hi⟩ := List.get_of_mem ((S.arrange_perm ms).mem_iff.2 hmem)
    obtain ⟨hlen, hget⟩ := List.forall₂_iff_get.1 hps
    obtain ⟨t, ht, -⟩ := bind_eq_ok.1 (hget i.1 i.2 (hlen ▸ i.2))
    rw [hi] at ht
    obtain ⟨htext, hvalid⟩ := validMembers_iff.1 hv.2 m hmem
    exact ⟨htext, ih m hmem hvalid ht⟩

end Numbers

/-! ## The texts of two halves -/

section Halves

variable {A N K ε : Type} {S : Style N ε} {f f' : A → N} {text : Text → Prop}

/-- Values that differ in numbers written alike are written alike. -/
theorem serialize_halves {r : Json A} (hr : r.Valid (fun p => S.number (f p) = S.number (f' p)) text)
    (d : ℕ) : serialize S d (r.map f) = serialize S d (r.map f') := by
  induction r using induct generalizing d with
  | null | bool _ | str _ => rfl
  | num p => exact hr
  | arr vs ih =>
    rw [map, map, mapItems_eq, mapItems_eq, serialize_arr, serialize_arr, List.map_map, List.map_map]
    have hparts := List.map_congr_left fun v hv => ih v hv (validItems_iff.1 hr v hv) (d + 1)
    simp only [Function.comp_def, hparts]
  | obj ms ih =>
    rw [map, map, mapMembers_eq, mapMembers_eq, serialize_obj, serialize_obj, Members.mapValues,
      Members.mapValues, S.arrange_map (f := fun m => (m.1, map f m.2)) fun _ => rfl,
      S.arrange_map (f := fun m => (m.1, map f' m.2)) fun _ => rfl, List.map_map, List.map_map]
    have hparts : (S.arrange ms).map (serializeMember S (d + 1) ∘ fun m => (m.1, map f m.2)) =
        (S.arrange ms).map (serializeMember S (d + 1) ∘ fun m => (m.1, map f' m.2)) := by
      refine List.map_congr_left fun m hm => ?_
      have hmem := (S.arrange_perm ms).mem_iff.1 hm
      simp only [Function.comp_apply, serializeMember,
        ih m hmem (validMembers_iff.1 hr.2 m hmem).2 (d + 1)]
    rw [hparts]

/-- Values arranged alike have their numbers read alike. -/
theorem numbers_of_arranged {g : N → K} {r : Json A} (hr : r.Valid (fun _ => True) text)
    (h : arranged S g (r.map f) = arranged S g (r.map f')) :
    r.Valid (fun p => g (f p) = g (f' p)) text := by
  induction r using induct with
  | null | bool _ => trivial
  | str _ => exact hr
  | num p => exact num.inj h
  | arr vs ih =>
    rw [map, map, mapItems_eq, mapItems_eq, arranged, arranged, arrangedItems_eq, arrangedItems_eq,
      arr.injEq, List.map_map, List.map_map] at h
    exact validItems_iff.2 fun v hv =>
      ih v hv (validItems_iff.1 hr v hv) (List.map_inj_left.1 h v hv)
  | obj ms ih =>
    rw [map, map, mapMembers_eq, mapMembers_eq, arranged_obj, arranged_obj, obj.injEq,
      Members.mapValues, Members.mapValues, Members.mapValues, Members.mapValues,
      S.arrange_map (f := fun m => (m.1, map f m.2)) fun _ => rfl,
      S.arrange_map (f := fun m => (m.1, map f' m.2)) fun _ => rfl, List.map_map, List.map_map] at h
    refine ⟨hr.1, validMembers_iff.2 fun m hm => ?_⟩
    have hmem := (S.arrange_perm ms).mem_iff.2 hm
    have hvalid := validMembers_iff.1 hr.2 m hm
    exact ⟨hvalid.1, ih m hm hvalid.2 (congrArg Prod.snd (List.map_inj_left.1 h m hmem))⟩

/-- **Values of one text have their numbers read alike.** -/
theorem numbers_of_serialize {H : Hooks K ε} {num : N → Prop} {g : N → K}
    (hS : S.ReadBy H num text g) {r : Json A} {p : Text}
    (hv : (r.map f).Valid num text) (hw : (r.map f').Valid num text)
    (hr : r.Valid (fun _ => True) text) (hvp : serialize S 0 (r.map f) = .ok p)
    (hwp : serialize S 0 (r.map f') = .ok p) : r.Valid (fun a => g (f a) = g (f' a)) text := by
  have hl := (loads_serialize hS hv hvp).symm.trans (loads_serialize hS hw hwp)
  exact numbers_of_arranged hr (Except.ok.inj hl)

end Halves

end Json

end Lakehouse
