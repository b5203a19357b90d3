import Mathlib.Algebra.GroupWithZero.Nat
import Mathlib.Data.List.Induction
import Mathlib.Data.List.Nodup
import Mathlib.Data.List.Dedup
import Mathlib.Data.List.Count
/-!
# Dicts filled in one pass

A loop that goes over keyed items and updates the value of each key in
turn. A key is left with the fold of its own items (`get_accumulate`), keys
stand in the order they came in, and looking at some keys only is filling
the dict from the items of those keys (`filter_accumulate`). Collecting the
items of each key, and counting them, are two such loops.
-/

namespace Lakehouse

/-- **A dict**: keys and values, in the order the keys came in. -/
abbrev Dict (κ β : Type) : Type := List (κ × β)

namespace Dict

variable {κ β γ : Type} [DecidableEq κ] {key k : κ} {v : β} {f : Option β → β} {d : Dict κ β}

/-- `d.get(key)`. -/
def get (key : κ) : Dict κ β → Option β
  | [] => none
  | (k, v) :: d => if k = key then some v else get key d

/-- `d[key] = f(d.get(key))`. -/
def upsert (key : κ) (f : Option β → β) : Dict κ β → Dict κ β
  | [] => [(key, f none)]
  | (k, v) :: d => if k = key then (k, f (some v)) :: d else (k, v) :: upsert key f d

/-- A lookup after an update. -/
theorem get_upsert (d : Dict κ β) :
    get k (upsert key f d) = if k = key then some (f (get key d)) else get k d := by
  induction d with
  | nil =>
    simp only [upsert, get]
    split_ifs <;> simp_all
  | cons p d ih =>
    obtain ⟨k', v'⟩ := p
    rw [upsert]
    split_ifs with h hk hk
    · subst h hk
      simp [get]
    · subst h
      simp [get, Ne.symm hk]
    · subst hk
      simp [get, h, ih]
    · rw [get, get, ih, if_neg hk]

/-- An update adds its key where it is new. -/
theorem keys_upsert (d : Dict κ β) : (upsert key f d).map Prod.fst =
    if key ∈ d.map Prod.fst then d.map Prod.fst else d.map Prod.fst ++ [key] := by
  induction d with
  | nil => rfl
  | cons p d ih =>
    rw [upsert]
    split_ifs with h
    all_goals grind

/-- An update keeps the keys distinct. -/
theorem nodup_upsert (h : (d.map Prod.fst).Nodup) : ((upsert key f d).map Prod.fst).Nodup := by
  rw [keys_upsert]
  split_ifs with hk
  · exact h
  · exact List.nodup_append_comm.1 (List.nodup_cons.2 ⟨hk, h⟩)

/-- What a dict holds, it gives. -/
theorem mem_iff_get (h : (d.map Prod.fst).Nodup) : (key, v) ∈ d ↔ get key d = some v := by
  induction d with
  | nil => simp [get]
  | cons p d ih =>
    obtain ⟨k', v'⟩ := p
    rw [List.map_cons, List.nodup_cons] at h
    rw [List.mem_cons, ih h.2, get]
    split_ifs with hk
    · subst hk
      have hnone : get k' d ≠ some v := fun hget =>
        h.1 (List.mem_map.2 ⟨(k', v), (ih h.2).2 hget, rfl⟩)
      simp [hnone, eq_comm]
    · simp [Ne.symm hk]

/-- The entries of one key: one at most. -/
theorem filter_key (h : (d.map Prod.fst).Nodup) (key : κ) :
    d.filter (fun p => p.1 = key) = ((get key d).map fun v => (key, v)).toList := by
  induction d with
  | nil => rfl
  | cons p d ih =>
    obtain ⟨k', v'⟩ := p
    rw [List.map_cons, List.nodup_cons] at h
    rw [get]
    split_ifs with hk
    · subst hk
      rw [List.filter_cons_of_pos (by simp), List.filter_eq_nil_iff.2]
      · rfl
      · intro q hq hqk
        exact h.1 (List.mem_map.2 ⟨q, hq, by simpa using hqk⟩)
    · rw [List.filter_cons_of_neg (by simpa using hk), ih h.2]

/-- Selecting keys and updating commute. -/
theorem filter_upsert (p : κ → Bool) (d : Dict κ β) : (upsert key f d).filter (fun e => p e.1) =
    if p key then upsert key f (d.filter fun e => p e.1) else d.filter fun e => p e.1 := by
  induction d with
  | nil => cases h : p key <;> simp [upsert, h]
  | cons e d ih =>
    obtain ⟨k', v'⟩ := e
    rw [upsert]
    split_ifs with h hp hp
    · subst h
      simp [hp, upsert]
    · subst h
      simp [hp]
    · rw [if_pos hp] at ih
      cases hk : p k' <;> simp [hk, upsert, h, ih]
    · rw [if_neg hp] at ih
      rw [List.filter_cons, List.filter_cons, ih]

/-- A lookup is the library's. -/
theorem get_eq_lookup [BEq κ] [LawfulBEq κ] (key : κ) (d : Dict κ β) : d.lookup key = get key d := by
  induction d with
  | nil => rfl
  | cons e d ih =>
    obtain ⟨k, v⟩ := e
    rw [get]
    split_ifs with hk
    · subst hk
      rw [List.lookup_cons_self]
    · rw [List.lookup_cons, beq_false_of_ne (Ne.symm hk), ih]

/-- A key the dict does not have is put behind the others. -/
theorem upsert_eq_concat (h : get key d = none) : upsert key f d = d ++ [(key, f none)] := by
  induction d with
  | nil => rfl
  | cons e d ih =>
    obtain ⟨k, v⟩ := e
    rw [get] at h
    split_ifs at h with hk
    rw [upsert, if_neg hk, ih h, List.cons_append]

/-- A key the dict has keeps its place. -/
theorem upsert_eq_map (hd : (d.map Prod.fst).Nodup) (h : get key d = some v) :
    upsert key f d = d.map fun e => if e.1 = key then (key, f (some v)) else e := by
  induction d with
  | nil => cases h
  | cons e d ih =>
    obtain ⟨k, w⟩ := e
    rw [List.map_cons, List.nodup_cons] at hd
    rw [get] at h
    split_ifs at h with hk
    · subst hk
      cases h
      rw [upsert, if_pos rfl, List.map_cons, if_pos rfl]
      refine congrArg _ ((List.map_id d).symm.trans (List.map_congr_left fun e he => ?_))
      rw [if_neg, id_eq]
      rintro rfl
      exact hd.1 (List.mem_map.2 ⟨e, he, rfl⟩)
    · rw [upsert, if_neg hk, List.map_cons, if_neg hk, ih hd.2 h]

/-! ## One pass -/

/-- What the items of one key add, in order. -/
def valuesOf (key : κ) (ps : List (κ × γ)) : List γ := (ps.filter fun p => p.1 = key).map Prod.snd

/-- **The dict a loop fills.** -/
def accumulate (f : Option β → γ → β) (ps : List (κ × γ)) : Dict κ β :=
  ps.foldl (fun d p => upsert p.1 (fun b => f b p.2) d) []

variable {g : Option β → γ → β} {ps : List (κ × γ)}

/-- One pair more is one update more. -/
theorem accumulate_concat (g : Option β → γ → β) (ps : List (κ × γ)) (p : κ × γ) :
    accumulate g (ps ++ [p]) = upsert p.1 (fun b => g b p.2) (accumulate g ps) := by
  rw [accumulate, List.foldl_append]
  rfl

/-- The values of a key, with one pair more. -/
theorem valuesOf_concat (key : κ) (ps : List (κ × γ)) (p : κ × γ) :
    valuesOf key (ps ++ [p]) = valuesOf key ps ++ if p.1 = key then [p.2] else [] := by
  rw [valuesOf, valuesOf, List.filter_append, List.map_append]
  by_cases h : p.1 = key
  · rw [if_pos h, List.filter_cons_of_pos (by simpa using h)]
    rfl
  · rw [if_neg h, List.filter_cons_of_neg (by simpa using h)]
    rfl

/-- **What a key is left with.** -/
theorem get_accumulate (g : Option β → γ → β) (ps : List (κ × γ)) (key : κ) :
    get key (accumulate g ps) = (valuesOf key ps).foldl (fun b c => some (g b c)) none := by
  induction ps using List.reverseRecOn with
  | nil => rfl
  | append_singleton ps p ih =>
    rw [accumulate_concat, get_upsert, valuesOf_concat, List.foldl_append, ← ih]
    by_cases h : key = p.1
    · rw [if_pos h, if_pos h.symm, h]
      rfl
    · rw [if_neg h, if_neg (Ne.symm h)]
      rfl

/-- Accumulating keeps the keys distinct. -/
theorem nodup_accumulate (g : Option β → γ → β) (ps : List (κ × γ)) :
    ((accumulate g ps).map Prod.fst).Nodup := by
  induction ps using List.reverseRecOn with
  | nil => exact List.nodup_nil
  | append_singleton ps p ih =>
    rw [accumulate_concat]
    exact nodup_upsert ih

/-- **Some keys only.** -/
theorem filter_accumulate (p : κ → Bool) (g : Option β → γ → β) (ps : List (κ × γ)) :
    (accumulate g ps).filter (fun e => p e.1) = accumulate g (ps.filter fun q => p q.1) := by
  induction ps using List.reverseRecOn with
  | nil => rfl
  | append_singleton ps q ih =>
    rw [accumulate_concat, filter_upsert, List.filter_append]
    split_ifs with h
    · rw [ih, List.filter_singleton, h, cond_true, accumulate_concat]
    · rw [ih, List.filter_singleton, eq_false_of_ne_true h, cond_false, List.append_nil]

/-- The key that came first stands first. -/
theorem head?_accumulate (g : Option β → γ → β) (ps : List (κ × γ)) :
    ((accumulate g ps).map Prod.fst).head? = (ps.map Prod.fst).head? := by
  induction ps using List.reverseRecOn with
  | nil => rfl
  | append_singleton ps q ih =>
    rw [accumulate_concat, keys_upsert, List.map_append, List.head?_append, ← ih]
    split_ifs with h
    · rw [Option.or_of_isSome]
      exact List.isSome_head?.2 (List.ne_nil_of_mem h)
    · rw [List.head?_append]
      rfl

/-- `d.setdefault(key, []).append(value)`, for every item. -/
def gather (ps : List (κ × γ)) : Dict κ (List γ) := accumulate (fun b c => b.getD [] ++ [c]) ps

/-- A key gathers its values, and is there where it has one. -/
theorem get_gather (ps : List (κ × γ)) (key : κ) :
    get key (gather ps) = if valuesOf key ps = [] then none else some (valuesOf key ps) := by
  rw [gather, get_accumulate]
  generalize valuesOf key ps = cs
  induction cs using List.reverseRecOn with
  | nil => rfl
  | append_singleton cs c ih =>
    rw [List.foldl_append, ih, if_neg (List.append_ne_nil_of_right_ne_nil cs (List.cons_ne_nil c []))]
    split_ifs with h
    · rw [h]
      rfl
    · rfl

/-- Gathering keeps the keys distinct. -/
theorem nodup_gather (ps : List (κ × γ)) : ((gather ps).map Prod.fst).Nodup := nodup_accumulate _ ps

/-- **Each key with its items.** -/
theorem mem_gather {cs : List γ} : (key, cs) ∈ gather ps ↔ cs = valuesOf key ps ∧ cs ≠ [] := by
  rw [mem_iff_get (nodup_gather ps), get_gather]
  split_ifs with h
  · simp [h]
  · simp only [Option.some.injEq]
    constructor
    · rintro rfl
      exact ⟨rfl, h⟩
    · rintro ⟨rfl, -⟩
      rfl

/-- The values of a key are those paired with it. -/
theorem mem_valuesOf {c : γ} : c ∈ valuesOf key ps ↔ (key, c) ∈ ps := by
  simp [valuesOf]

/-- The keys are those of the items. -/
theorem mem_keys_gather : key ∈ (gather ps).map Prod.fst ↔ ∃ c, (key, c) ∈ ps := by
  constructor
  · intro h
    obtain ⟨⟨k, cs⟩, hmem, rfl⟩ := List.mem_map.1 h
    obtain ⟨rfl, hne⟩ := mem_gather.1 hmem
    obtain ⟨c, hc⟩ := List.exists_mem_of_ne_nil _ hne
    exact ⟨c, mem_valuesOf.1 hc⟩
  · rintro ⟨c, hc⟩
    exact List.mem_map.2 ⟨_, mem_gather.2 ⟨rfl, List.ne_nil_of_mem (mem_valuesOf.2 hc)⟩, rfl⟩

/-- Nothing is lost and nothing is added. -/
theorem flatMap_gather (ps : List (κ × γ)) : ((gather ps).flatMap Prod.snd).Perm (ps.map Prod.snd) := by
  have hupsert : ∀ (d : Dict κ (List γ)) (key : κ) (c : γ),
      ((upsert key (fun b => b.getD [] ++ [c]) d).flatMap Prod.snd).Perm
        (d.flatMap Prod.snd ++ [c]) := by
    intro d key c
    induction d with
    | nil => exact .refl _
    | cons entry d ih =>
      rw [upsert]
      split_ifs
      · simp only [List.flatMap_cons, Option.getD_some, List.append_assoc]
        exact List.perm_append_comm.append_left _
      · simp only [List.flatMap_cons, List.append_assoc]
        exact ih.append_left _
  induction ps using List.reverseRecOn with
  | nil => exact .refl _
  | append_singleton ps p ih =>
    rw [gather, accumulate_concat, List.map_append]
    exact (hupsert _ _ _).trans (ih.append_right _)

/-- Each key once, with what its items add. -/
theorem gather_eq (ps : List (κ × γ)) :
    gather ps = ((gather ps).map Prod.fst).map fun key => (key, valuesOf key ps) := by
  rw [List.map_map]
  refine (List.map_id _).symm.trans (List.map_congr_left fun entry hentry => ?_)
  exact Prod.ext rfl (mem_gather.1 hentry).1

/-- **Working off a dict group by group**: any list of distinct keys will do
that holds the keys of the items. -/
theorem flatMap_gather_perm {δ : Type} {ps : List (κ × γ)} {keys : List κ} (hkeys : keys.Nodup)
    (hmem : ∀ p ∈ ps, p.1 ∈ keys) (work : List γ → List δ) (hnil : work [] = []) :
    ((gather ps).flatMap fun entry => work entry.2).Perm
      (keys.flatMap fun key => work (valuesOf key ps)) := by
  have hperm : ((gather ps).map Prod.fst).Perm (keys.filter fun key => valuesOf key ps ≠ []) := by
    refine (List.perm_ext_iff_of_nodup (nodup_gather ps) (hkeys.filter _)).2 fun key => ?_
    rw [mem_keys_gather, List.mem_filter, decide_eq_true_eq]
    constructor
    · rintro ⟨c, hc⟩
      exact ⟨hmem _ hc, List.ne_nil_of_mem (mem_valuesOf.2 hc)⟩
    · rintro ⟨-, hne⟩
      obtain ⟨c, hc⟩ := List.exists_mem_of_ne_nil _ hne
      exact ⟨c, mem_valuesOf.1 hc⟩
  have hfilter : ∀ l : List κ, ((l.filter fun key => valuesOf key ps ≠ []).flatMap fun key =>
      work (valuesOf key ps)) = l.flatMap fun key => work (valuesOf key ps) := by
    intro l
    induction l with
    | nil => rfl
    | cons key l ih =>
      by_cases hv : valuesOf key ps = []
      · rw [List.filter_cons_of_neg (by simpa using hv), ih, List.flatMap_cons, hv, hnil,
          List.nil_append]
      · rw [List.filter_cons_of_pos (by simpa using hv), List.flatMap_cons, List.flatMap_cons, ih]
  rw [gather_eq, List.flatMap_map, ← hfilter keys]
  exact hperm.flatMap_right _

/-- `d[key] = d.get(key, 0) + 1`, for every key. -/
def tally (ks : List κ) : Dict κ ℕ := accumulate (fun b _ => b.getD 0 + 1) (ks.map fun k => (k, ()))

/-- A key is tallied as often as it occurs. -/
theorem get_tally [BEq κ] [LawfulBEq κ] (ks : List κ) (key : κ) :
    get key (tally ks) = if ks.count key = 0 then none else some (ks.count key) := by
  rw [tally, get_accumulate]
  have hcount : (valuesOf key (ks.map fun k => (k, ()))).length = ks.count key := by
    rw [valuesOf, List.length_map, List.filter_map, List.length_map, List.count_eq_countP,
      List.countP_eq_length_filter]
    refine congrArg _ (List.filter_congr fun k _ => ?_)
    rw [Function.comp_apply, Bool.eq_iff_iff, decide_eq_true_eq, beq_iff_eq]
  rw [← hcount]
  generalize valuesOf key (ks.map fun k => (k, ())) = cs
  induction cs using List.reverseRecOn with
  | nil => rfl
  | append_singleton cs c ih =>
    rw [List.foldl_append, ih, List.length_append]
    split_ifs <;> simp_all

/-- A tally keeps the keys distinct. -/
theorem nodup_tally (ks : List κ) : ((tally ks).map Prod.fst).Nodup := nodup_accumulate _ _

/-- **Each key with its number.** -/
theorem mem_tally [BEq κ] [LawfulBEq κ] {ks : List κ} {n : ℕ} : (key, n) ∈ tally ks ↔ n = ks.count key ∧ n ≠ 0 := by
  rw [mem_iff_get (nodup_tally ks), get_tally]
  split_ifs with h
  · rw [h]
    constructor
    · nofun
    · rintro ⟨rfl, hn⟩
      exact absurd rfl hn
  · simp only [Option.some.injEq]
    constructor
    · rintro rfl
      exact ⟨rfl, h⟩
    · rintro ⟨rfl, -⟩
      rfl

/-- A tally counts every key once for each time it occurs. -/
theorem sum_tally (ks : List κ) : ((tally ks).map Prod.snd).sum = ks.length := by
  have hupsert : ∀ (d : Dict κ ℕ) (key : κ),
      ((upsert key (fun b => b.getD 0 + 1) d).map Prod.snd).sum = (d.map Prod.snd).sum + 1 := by
    intro d key
    induction d with
    | nil => rfl
    | cons entry d ih =>
      rw [upsert]
      split_ifs
      · simp only [List.map_cons, List.sum_cons, Option.getD_some]
        omega
      · simp only [List.map_cons, List.sum_cons, ih]
        omega
  induction ks using List.reverseRecOn with
  | nil => rfl
  | append_singleton ks key ih =>
    rw [tally, List.map_append, List.map_singleton, accumulate_concat, hupsert, List.length_append]
    exact congrArg (· + 1) ih

/-- The key counted first stands first. -/
theorem head?_tally (ks : List κ) : ((tally ks).map Prod.fst).head? = ks.head? := by
  rw [tally, head?_accumulate, List.map_map]
  exact congrArg _ (List.map_id _)

/-- Selecting keys and tallying commute. -/
theorem filter_tally (p : κ → Bool) (ks : List κ) :
    (tally ks).filter (fun entry => p entry.1) = tally (ks.filter p) := by
  rw [tally, filter_accumulate, List.filter_map]
  rfl

/-- **The numbers of some keys** add up to the items that have one of them. -/
theorem sum_filter_tally (p : κ → Bool) (ks : List κ) :
    (((tally ks).filter fun entry => p entry.1).map Prod.snd).sum = ks.countP p := by
  rw [filter_tally, sum_tally, List.countP_eq_length_filter]

/-- A tally does not depend on the order, but for its own. -/
theorem tally_perm {ks ks' : List κ} (h : ks.Perm ks') : (tally ks).Perm (tally ks') := by
  refine (List.perm_ext_iff_of_nodup (nodup_tally ks).of_map (nodup_tally ks').of_map).2 ?_
  rintro ⟨key, n⟩
  rw [mem_tally, mem_tally, h.count_eq]

/-- The values of a key do not depend on the order, but for their own. -/
theorem valuesOf_perm {ps ps' : List (κ × γ)} (h : ps.Perm ps') (key : κ) :
    (valuesOf key ps).Perm (valuesOf key ps') := (h.filter _).map _

/-- **A list is its groups**, by any distinct keys that hold those of its
items. -/
theorem flatMap_filter_perm {α : Type} {key : α → κ} {keys : List κ} {as : List α}
    (hkeys : keys.Nodup) (hmem : ∀ a ∈ as, key a ∈ keys) :
    (keys.flatMap fun k => as.filter fun a => key a = k).Perm as := by
  have hvalues : ∀ k, valuesOf k (as.map fun a => (key a, a)) = as.filter fun a => key a = k := by
    intro k
    rw [valuesOf, List.filter_map, List.map_map]
    exact List.map_id _
  have hpairs : ∀ p ∈ as.map fun a => (key a, a), p.1 ∈ keys := by
    intro p hp
    obtain ⟨a, ha, rfl⟩ := List.mem_map.1 hp
    exact hmem a ha
  have hgather := flatMap_gather (as.map fun a => (key a, a))
  have hgroups := flatMap_gather_perm hkeys hpairs id rfl
  have hback : (as.map fun a => (key a, a)).map Prod.snd = as := by
    rw [List.map_map]
    exact List.map_id _
  simp only [hvalues, id] at hgroups
  rw [hback] at hgather
  exact hgroups.symm.trans hgather

/-- One group of many, by its key. -/
theorem filter_flatMap_key {α : Type} {key : α → κ} {keys : List κ} {group : κ → List α}
    (hkeys : keys.Nodup) (hgroup : ∀ k ∈ keys, ∀ a ∈ group k, key a = k) (k : κ) :
    (keys.flatMap group).filter (fun a => key a = k) = if k ∈ keys then group k else [] := by
  induction keys with
  | nil => rfl
  | cons k' keys ih =>
    rw [List.nodup_cons] at hkeys
    obtain ⟨hown, hrest⟩ := List.forall_mem_cons.1 hgroup
    rw [List.flatMap_cons, List.filter_append, ih hkeys.2 hrest]
    by_cases hk : k = k'
    · subst hk
      rw [if_neg hkeys.1, if_pos List.mem_cons_self, List.append_nil, List.filter_eq_self]
      exact fun a ha => decide_eq_true (hown a ha)
    · rw [List.filter_eq_nil_iff.2, List.nil_append]
      · simp [hk]
      · intro a ha
        rw [hown a ha]
        simpa using Ne.symm hk

end Dict

end Lakehouse
