import Lakehouse.Common.Json.Same
/-!
# Two parses of one text

Under hooks that make related numbers of every numeral, the values two
parses return are the same up to that relation (`loads_same`): one
grammar, one shape. With it, what sameness says of the parts of a value.
-/

namespace Lakehouse

namespace Json

/-! ## The parts of the same value -/

section Parts

variable {N M P : Type} {R : N → M → Prop}

/-- Two optional members are the same, or both absent. -/
abbrev SameOpt (R : N → M → Prop) : Option (Json N) → Option (Json M) → Prop :=
  Option.Rel (Same R)

/-- The members of two objects, by key. -/
abbrev SameMembers (R : N → M → Prop) (ms : Members (Json N)) (ns : Members (Json M)) : Prop :=
  ∀ k, SameOpt R (ms.get k) (ns.get k)

/-- Objects of related members are related. -/
theorem same_obj {ms : Members (Json N)} {ns : Members (Json M)} (h : SameMembers R ms ns) :
    Same R (obj ms) (obj ns) := by
  refine .obj (fun k => ?_) fun k v w hv hw => ?_
  · have hk := h k
    generalize ms.get k = x at hk ⊢
    generalize ns.get k = y at hk ⊢
    cases hk with
    | none => exact ⟨fun _ => rfl, fun _ => rfl⟩
    | some _ => exact ⟨nofun, nofun⟩
  · have hk := h k
    rw [hv, hw] at hk
    cases hk with
    | some hvw => exact hvw

/-- Related objects have related members. -/
theorem Same.members {ms : Members (Json N)} {ns : Members (Json M)}
    (h : Same R (Json.obj ms) (Json.obj ns)) : SameMembers R ms ns := by
  cases h with
  | obj hnone hsome =>
    intro k
    cases hv : ms.get k with
    | none => rw [(hnone k).1 hv]; exact .none
    | some v =>
      cases hw : ns.get k with
      | none => rw [(hnone k).2 hw] at hv; cases hv
      | some w => exact .some (hsome k v w hv hw)

/-- Setting related values keeps the members related. -/
theorem SameMembers.set {ms : Members (Json N)} {ns : Members (Json M)}
    (h : SameMembers R ms ns) (key : Text) {v : Json N} {w : Json M} (hvw : Same R v w) :
    SameMembers R (ms.set key v) (ns.set key w) := by
  intro k
  rw [Members.get_set, Members.get_set]
  by_cases hk : k = key
  · rw [if_pos hk, if_pos hk]
    exact .some hvw
  · rw [if_neg hk, if_neg hk]
    exact h k

/-- Setting related members one after another keeps them related. -/
theorem SameMembers.foldl_set {ps : List (Text × Json N)} {qs : List (Text × Json M)}
    (hpq : List.Forall₂ (fun p q => p.1 = q.1 ∧ Same R p.2 q.2) ps qs) :
    ∀ {ms : Members (Json N)} {ns : Members (Json M)}, SameMembers R ms ns →
      SameMembers R (ps.foldl (fun ms m => Members.set ms m.1 m.2) ms)
        (qs.foldl (fun ms m => Members.set ms m.1 m.2) ns) := by
  induction hpq with
  | nil => exact fun h => h
  | @cons p q _ _ hpq _ ih =>
    intro ms ns h
    rw [List.foldl_cons, List.foldl_cons, ← hpq.1]
    exact ih (h.set p.1 hpq.2)

/-- Objects built from the same pairs. -/
theorem sameMembers_ofPairs {ps : List (Text × Json N)} {qs : List (Text × Json M)}
    (h : List.Forall₂ (fun p q => p.1 = q.1 ∧ Same R p.2 q.2) ps qs) :
    SameMembers R (Members.ofPairs ps) (Members.ofPairs qs) :=
  SameMembers.foldl_set h fun _ => .none

/-- Related arrays have related items. -/
theorem Same.items {vs : List (Json N)} {ws : List (Json M)} (h : Same R (Json.arr vs) (Json.arr ws)) :
    List.Forall₂ (Same R) vs ws := by
  cases h with
  | arr hlen hi => exact List.forall₂_iff_get.2 ⟨hlen, hi⟩

/-- Values related one way are related the other way by the converse. -/
theorem Same.symm {v : Json N} {w : Json M} (h : Same R v w) : Same (fun n m => R m n) w v := by
  induction h with
  | null => exact .null
  | bool b => exact .bool b
  | num h => exact .num h
  | str t => exact .str t
  | arr hlen _ ih => exact .arr hlen.symm fun i h₁ h₂ => ih i h₂ h₁
  | obj hnone _ ih =>
    exact .obj (fun k => (hnone k).symm) fun k w v hw hv => ih k v w hv hw

/-- Sameness under one relation is sameness under another that follows
from it for the numbers of the values. -/
theorem Same.mono {R' : N → M → Prop} {num : N → Prop} {num' : M → Prop} {text text' : Text → Prop}
    (hR : ∀ {m n}, num m → num' n → R m n → R' m n) {v : Json N} {w : Json M} (h : Same R v w)
    (hv : v.Valid num text) (hw : w.Valid num' text') : Same R' v w := by
  induction h with
  | null => exact .null
  | bool b => exact .bool b
  | num h => exact .num (hR hv hw h)
  | str t => exact .str t
  | arr hlen _ ih =>
    exact .arr hlen fun i h₁ h₂ => ih i h₁ h₂ (validItems_iff.1 hv _ (List.get_mem ..))
      (validItems_iff.1 hw _ (List.get_mem ..))
  | obj hnone _ ih =>
    exact .obj hnone fun k v w hgv hgw => ih k v w hgv hgw
      (validMembers_iff.1 hv.2 _ (Members.mem_of_get hgv)).2
      (validMembers_iff.1 hw.2 _ (Members.mem_of_get hgw)).2

/-- Relations of values compose as those of their numbers do. -/
theorem Same.trans {Q : M → P → Prop} {T : N → P → Prop}
    (hT : ∀ {m n p}, R m n → Q n p → T m p) {u : Json N} {v : Json M} {w : Json P}
    (h : Same R u v) (h' : Same Q v w) : Same T u w := by
  induction h generalizing w with
  | null => cases h'; exact .null
  | bool b => cases h'; exact .bool b
  | num h =>
    cases h' with
    | num h' => exact .num (hT h h')
  | str t => cases h'; exact .str t
  | arr hlen _ ih =>
    cases h' with
    | arr hlen' hi' =>
      exact .arr (hlen.trans hlen') fun i h₁ h₂ =>
        ih i h₁ (hlen ▸ h₁) (hi' i (hlen ▸ h₁) h₂)
  | @obj ms ns hnone _ ih =>
    cases h' with
    | obj hnone' hsome' =>
      refine .obj (fun k => (hnone k).trans (hnone' k)) fun k u w hu hw => ?_
      cases hv : ns.get k with
      | none => rw [(hnone' k).1 hv] at hw; cases hw
      | some v => exact ih k u v hu hv (hsome' k v w hv hw)

end Parts

/-! ## Two parses -/

section Hooks

variable {N M ε : Type} {H : Hooks N ε} {K : Hooks M ε} {R : N → M → Prop}

/-- Where both hooks accept a number, they make related ones of it. -/
structure Hooks.Relate (H : Hooks N ε) (K : Hooks M ε) (R : N → M → Prop) : Prop where
  number : ∀ {l a b}, l.Wf → H.number l = .ok a → K.number l = .ok b → R a b
  constant : ∀ {c a b}, H.constant c = .ok a → K.constant c = .ok b → R a b

/-- Two parses of an atom stop at one place with related values. -/
theorem parseAtom_same (h : H.Relate K R) {t r r' : Text} {v : Json N} {w : Json M}
    (hv : parseAtom H t = .ok (v, r)) (hw : parseAtom K t = .ok (w, r')) :
    Same R v w ∧ r' = r := by
  have hconst : ∀ {c : Constant} {u : Text}, (do return (num (← H.constant c), u)) = .ok (v, r) →
      (do return (num (← K.constant c), u)) = (.ok (w, r') : Except ε _) →
      Same R v w ∧ r' = r := by
    intro c u hv hw
    obtain ⟨a, ha, hv⟩ := bind_eq_ok.1 hv
    obtain ⟨b, hb, hw⟩ := bind_eq_ok.1 hw
    cases hv
    cases hw
    exact ⟨.num (h.constant ha hb), rfl⟩
  unfold parseAtom at hv hw
  split_ifs at hv hw
  · cases hv; cases hw; exact ⟨.null, rfl⟩
  · cases hv; cases hw; exact ⟨.bool _, rfl⟩
  · cases hv; cases hw; exact ⟨.bool _, rfl⟩
  · exact hconst hv hw
  · exact hconst hv hw
  · exact hconst hv hw
  · cases hs : scanNumeral t with
    | none => rw [hs] at hv; cases hv
    | some p =>
      obtain ⟨l, rest⟩ := p
      rw [hs] at hv hw
      obtain ⟨a, ha, hv⟩ := bind_eq_ok.1 hv
      obtain ⟨b, hb, hw⟩ := bind_eq_ok.1 hw
      cases hv
      cases hw
      exact ⟨.num (h.number (scanNumeral_wf hs) ha hb), rfl⟩

/-- What the three parsers say of each other at one amount of fuel. -/
structure SameAt (H : Hooks N ε) (K : Hooks M ε) (R : N → M → Prop) (fuel : ℕ) : Prop where
  value : ∀ {t v r w r'}, parseValue H fuel t = .ok (v, r) → parseValue K fuel t = .ok (w, r') →
    Same R v w ∧ r' = r
  items : ∀ {t vs r ws r'}, parseItems H fuel t = .ok (vs, r) →
    parseItems K fuel t = .ok (ws, r') → List.Forall₂ (Same R) vs ws ∧ r' = r
  members : ∀ {t ms r ns r'}, parseMembers H fuel t = .ok (ms, r) →
    parseMembers K fuel t = .ok (ns, r') →
      List.Forall₂ (fun m n => m.1 = n.1 ∧ Same R m.2 n.2) ms ns ∧ r' = r

/-- The step of a value. -/
theorem SameAt.value_succ (h : H.Relate K R) {fuel : ℕ} (ih : SameAt H K R fuel) {t r r' : Text}
    {v : Json N} {w : Json M} (hv : parseValue H (fuel + 1) t = .ok (v, r))
    (hw : parseValue K (fuel + 1) t = .ok (w, r')) : Same R v w ∧ r' = r := by
  cases t with
  | nil => cases hv
  | cons c t =>
    rw [parseValue] at hv hw
    split_ifs at hv hw
    · cases hs : scanString t with
      | none => rw [hs] at hv; cases hv
      | some p => rw [hs] at hv hw; cases hv; cases hw; exact ⟨.str _, rfl⟩
    · cases hs : skipWs t with
      | nil => rw [hs] at hv; cases hv
      | cons d t' =>
        rw [hs] at hv hw
        dsimp only at hv hw
        split_ifs at hv hw
        · cases hv; cases hw; exact ⟨same_obj fun _ => .none, rfl⟩
        · obtain ⟨⟨ms, rest⟩, hms, hv⟩ := bind_eq_ok.1 hv
          obtain ⟨⟨ns, rest'⟩, hns, hw⟩ := bind_eq_ok.1 hw
          obtain ⟨hsame, rfl⟩ := ih.members hms hns
          cases hv
          cases hw
          exact ⟨same_obj (sameMembers_ofPairs hsame), rfl⟩
    · cases hs : skipWs t with
      | nil => rw [hs] at hv; cases hv
      | cons d t' =>
        rw [hs] at hv hw
        dsimp only at hv hw
        split_ifs at hv hw
        · cases hv; cases hw; exact ⟨same_arr .nil, rfl⟩
        · obtain ⟨⟨vs, rest⟩, hvs, hv⟩ := bind_eq_ok.1 hv
          obtain ⟨⟨ws, rest'⟩, hws, hw⟩ := bind_eq_ok.1 hw
          obtain ⟨hsame, rfl⟩ := ih.items hvs hws
          cases hv
          cases hw
          exact ⟨same_arr hsame, rfl⟩
    · exact parseAtom_same h hv hw

/-- The step of the items of an array. -/
theorem SameAt.items_succ {fuel : ℕ} (ih : SameAt H K R fuel) {t r r' : Text}
    {vs : List (Json N)} {ws : List (Json M)} (hv : parseItems H (fuel + 1) t = .ok (vs, r))
    (hw : parseItems K (fuel + 1) t = .ok (ws, r')) :
    List.Forall₂ (Same R) vs ws ∧ r' = r := by
  rw [parseItems] at hv hw
  obtain ⟨⟨v, rest⟩, hv₁, hv⟩ := bind_eq_ok.1 hv
  obtain ⟨⟨w, rest'⟩, hw₁, hw⟩ := bind_eq_ok.1 hw
  obtain ⟨hvw, rfl⟩ := ih.value hv₁ hw₁
  cases hs : skipWs rest' with
  | nil => simp only [hs] at hv; cases hv
  | cons d rest =>
    simp only [hs] at hv hw
    split_ifs at hv hw
    · cases hv; cases hw; exact ⟨.cons hvw .nil, rfl⟩
    · obtain ⟨⟨vs, rest₁⟩, hvs, hv⟩ := bind_eq_ok.1 hv
      obtain ⟨⟨ws, rest₂⟩, hws, hw⟩ := bind_eq_ok.1 hw
      obtain ⟨hsame, rfl⟩ := ih.items hvs hws
      cases hv
      cases hw
      exact ⟨.cons hvw hsame, rfl⟩

/-- The step of the members of an object. -/
theorem SameAt.members_succ {fuel : ℕ} (ih : SameAt H K R fuel) {t r r' : Text}
    {ms : List (Text × Json N)} {ns : List (Text × Json M)}
    (hv : parseMembers H (fuel + 1) t = .ok (ms, r))
    (hw : parseMembers K (fuel + 1) t = .ok (ns, r')) :
    List.Forall₂ (fun m n => m.1 = n.1 ∧ Same R m.2 n.2) ms ns ∧ r' = r := by
  cases t with
  | nil => cases hv
  | cons c t =>
    rw [parseMembers] at hv hw
    split_ifs at hv hw
    cases hk : scanString t with
    | none => rw [hk] at hv; cases hv
    | some p =>
      obtain ⟨k, rest⟩ := p
      rw [hk] at hv hw
      cases hs : skipWs rest with
      | nil => simp only [hs] at hv; cases hv
      | cons d rest =>
        simp only [hs] at hv hw
        split_ifs at hv hw
        obtain ⟨⟨v, rest₁⟩, hv₁, hv⟩ := bind_eq_ok.1 hv
        obtain ⟨⟨w, rest₂⟩, hw₁, hw⟩ := bind_eq_ok.1 hw
        obtain ⟨hvw, rfl⟩ := ih.value hv₁ hw₁
        cases hs' : skipWs rest₂ with
        | nil => simp only [hs'] at hv; cases hv
        | cons d rest =>
          simp only [hs'] at hv hw
          split_ifs at hv hw
          · cases hv; cases hw; exact ⟨.cons ⟨rfl, hvw⟩ .nil, rfl⟩
          · obtain ⟨⟨ms, rest₃⟩, hms, hv⟩ := bind_eq_ok.1 hv
            obtain ⟨⟨ns, rest₄⟩, hns, hw⟩ := bind_eq_ok.1 hw
            obtain ⟨hsame, rfl⟩ := ih.members hms hns
            cases hv
            cases hw
            exact ⟨.cons ⟨rfl, hvw⟩ hsame, rfl⟩

/-- **Two parses of a text agree**, however far they have to look. -/
theorem sameAt (h : H.Relate K R) (fuel : ℕ) : SameAt H K R fuel := by
  induction fuel with
  | zero => exact ⟨nofun, nofun, nofun⟩
  | succ fuel ih => exact ⟨ih.value_succ h, ih.items_succ, ih.members_succ⟩

/-- **Two parses of one text** differ in their numbers alone. -/
theorem loads_same (h : H.Relate K R) {t : Text} {v : Json N} {w : Json M}
    (hv : loads H t = .ok v) (hw : loads K t = .ok w) : Same R v w := by
  unfold loads at hv hw
  split_ifs at hv hw
  obtain ⟨⟨v', rest⟩, hv₁, hv⟩ := bind_eq_ok.1 hv
  obtain ⟨⟨w', rest'⟩, hw₁, hw⟩ := bind_eq_ok.1 hw
  obtain ⟨hsame, rfl⟩ := (sameAt h _).value hv₁ hw₁
  dsimp only at hv hw
  split_ifs at hv hw
  cases hv
  cases hw
  exact hsame

end Hooks

end Json

end Lakehouse
