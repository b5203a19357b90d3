import Lakehouse.Storage.WritePath
/-!
# What the boundary check sees of a path

A writer's root is checked by its last component and its table URIs by the
path `urlsplit` reads in them. This file compares the two, and the second
with the components a file system reads in the same text: an authority, a
query and a fragment hide components from the check.
-/

namespace Lakehouse

namespace Uri

/-- Some character of a text starts a query or a fragment. -/
def Delimited (t : Text) : Prop := 0x3F ∈ t ∨ 0x23 ∈ t

/-- An authority is not changed by a path that follows it, unless the text
before is one slash. -/
theorem splitNetloc_append {b t : Text} (hb : b ≠ [0x2F]) (ht : ∀ c ∈ t.head?, c ≠ 0x2F) :
    splitNetloc (b ++ 0x2F :: t) = ((splitNetloc b).1, (splitNetloc b).2 ++ 0x2F :: t) := by
  by_cases hs : ∃ w, b = 0x2F :: 0x2F :: w
  · obtain ⟨w, rfl⟩ := hs
    simp only [List.cons_append, splitNetloc]
    have hends : (!endsNetloc 0x2F) = false := rfl
    by_cases hw : ∀ c ∈ w, (!endsNetloc c) = true
    · rw [List.takeWhile_append_of_pos hw, List.dropWhile_append_of_pos hw,
        List.takeWhile_cons_of_neg (by simp [hends]), List.dropWhile_cons_of_neg (by simp [hends]),
        List.takeWhile_eq_self_iff.2 hw, List.dropWhile_eq_nil_iff.2 hw, List.append_nil,
        List.nil_append]
    · have hlen : (w.takeWhile (!endsNetloc ·)).length ≠ w.length := fun h => hw fun c hc => by
        have he := (List.takeWhile_prefix (!endsNetloc ·)).eq_of_length h
        exact List.takeWhile_eq_self_iff.1 he c hc
      have hd : w.dropWhile (!endsNetloc ·) ≠ [] := fun h => hw (List.dropWhile_eq_nil_iff.1 h)
      rw [List.takeWhile_append, if_neg hlen, List.dropWhile_append, if_neg (by simpa using hd)]
  · have hb' : ∀ w, b ≠ 0x2F :: 0x2F :: w := fun w hw => hs ⟨w, hw⟩
    rw [splitNetloc_eq_self hb', splitNetloc_eq_self]
    intro w hw
    obtain _ | ⟨c, _ | ⟨d, u⟩⟩ := b
    · obtain ⟨-, hw⟩ := List.cons.inj hw
      exact ht 0x2F (by rw [hw]; rfl) rfl
    · exact hb (congrArg (fun c => [c]) (List.cons.inj hw).1)
    · obtain ⟨h₁, hw⟩ := List.cons.inj hw
      obtain ⟨h₂, -⟩ := List.cons.inj hw
      exact hb' u (by rw [h₁, h₂])

/-- A scheme ends before a text without a colon. -/
theorem splitScheme_append {u t : Text} (ht : 0x3A ∉ t) :
    splitScheme (u ++ t) = ((splitScheme u).1, (splitScheme u).2 ++ t) := by
  by_cases hu : 0x3A ∈ u
  · obtain ⟨a, b, rfl, ha⟩ := List.eq_append_cons_of_mem hu
    rw [List.append_assoc, List.cons_append, splitScheme, splitScheme, Text.partition_append ha,
      Text.partition_append ha]
    cases a with
    | nil => simp
    | cons c s =>
      simp only
      split_ifs <;> simp
  · have hut : 0x3A ∉ u ++ t := fun h => (List.mem_append.1 h).elim hu ht
    rw [splitScheme, splitScheme, Text.partition_of_notMem hu, Text.partition_of_notMem hut]
    simp

/-- The front of a URL that `urlsplit` drops ends before a plain character. -/
theorem cleaned_append_cons {u t : Text} {c : ℕ} (hc : 0x20 < c) :
    cleaned (u ++ c :: t) =
      cleaned u ++ c :: t.filter fun c => !(c == 0x09 || c == 0x0A || c == 0x0D) := by
  have hf : (c :: t).filter (fun c => !(c == 0x09 || c == 0x0A || c == 0x0D)) =
      c :: t.filter fun c => !(c == 0x09 || c == 0x0A || c == 0x0D) :=
    List.filter_cons_of_pos (by simp; omega)
  unfold cleaned
  rw [List.dropWhile_append]
  split_ifs with h
  · rw [List.isEmpty_iff.1 h, List.filter_nil, List.nil_append,
      List.dropWhile_cons_of_neg (by simpa using hc), hf]
  · rw [List.filter_append, hf]

/-- Cleaning leaves a plain part behind a slash. -/
theorem cleaned_append {u t : Text} (ht : ∀ c ∈ t, 0x20 < c) :
    cleaned (u ++ 0x2F :: t) = cleaned u ++ 0x2F :: t := by
  rw [cleaned_append_cons (by decide), List.filter_eq_self.2]
  intro c hc
  have := ht c hc
  simp
  omega

/-- **What stands around a path.** -/
theorem hierPart_append {u t : Text} (ht : ∀ c ∈ t, 0x20 < c ∧ c ≠ 0x3A)
    (hh : ∀ c ∈ t.head?, c ≠ 0x2F) (hb : (splitScheme (cleaned u)).2 ≠ [0x2F]) :
    hierPart (u ++ 0x2F :: t) = ((hierPart u).1, (hierPart u).2 ++ 0x2F :: t) := by
  have hcolon : 0x3A ∉ 0x2F :: t := by
    rw [List.mem_cons, not_or]
    exact ⟨by decide, fun h => (ht _ h).2 rfl⟩
  rw [hierPart, cleaned_append fun c hc => (ht c hc).1, splitScheme_append hcolon]
  exact splitNetloc_append hb hh

/-- What follows a scheme ends the URL. -/
theorem splitScheme_isSuffix (u : Text) : (splitScheme u).2 <:+ u := by
  by_cases hu : 0x3A ∈ u
  · obtain ⟨a, b, rfl, ha⟩ := List.eq_append_cons_of_mem hu
    rw [splitScheme, Text.partition_append ha]
    cases a with
    | nil => exact List.suffix_refl _
    | cons c s =>
      simp only
      split_ifs
      · exact ⟨c :: s ++ [0x3A], by simp⟩
      · exact List.suffix_refl _
  · rw [splitScheme, Text.partition_of_notMem hu]
    simp

/-- A plain ASCII text is an authority. -/
theorem isNetloc_of_ascii {L : Library} {n : Text} (h : ∀ c ∈ n, c < 0x80 ∧ c ≠ 0x5B ∧ c ≠ 0x5D) :
    IsNetloc L n := by
  have h₁ : 0x5B ∉ n := fun hc => (h _ hc).2.1 rfl
  have h₂ : 0x5D ∉ n := fun hc => (h _ hc).2.2 rfl
  refine ⟨iff_of_false h₁ h₂, fun hc => absurd hc h₁, ?_⟩
  have hall : n.all (· < 0x80) = true := List.all_eq_true.2 fun c hc => decide_eq_true (h c hc).1
  rw [checkNetloc, hall, Bool.true_or, Bool.true_or]

/-- The path of a text no query and no fragment starts in. -/
theorem pathOf_of_not_delimited {p : Text} (h : ¬Delimited p) :
    pathOf p = p ∧ queryOf p = [] ∧ fragmentOf p = [] := by
  obtain ⟨hq, hf⟩ := not_or.1 h
  simp only [pathOf, queryOf, fragmentOf, Text.partition_of_notMem hf, Text.partition_of_notMem hq,
    and_self]

/-- A query or a fragment hides what follows it. -/
theorem pathOf_append_of_delimited {p u : Text} (h : Delimited p) (hu : 0x23 ∉ u) (hne : u ≠ []) :
    pathOf (p ++ u) = pathOf p ∧ ¬(queryOf (p ++ u) = [] ∧ fragmentOf (p ++ u) = []) := by
  unfold pathOf queryOf fragmentOf
  by_cases hf : 0x23 ∈ p
  · rw [Text.partition_append_of_mem hf]
    exact ⟨rfl, fun h => List.append_ne_nil_of_right_ne_nil _ hne h.2⟩
  · have hq : 0x3F ∈ p := h.resolve_right hf
    have hpu : 0x23 ∉ p ++ u := fun h => (List.mem_append.1 h).elim hf hu
    rw [Text.partition_of_notMem hf, Text.partition_of_notMem hpu, Text.partition_append_of_mem hq]
    exact ⟨rfl, fun h => List.append_ne_nil_of_right_ne_nil _ hne h.1⟩

/-- The characters of an empty query and an empty fragment. -/
def IsTail (tail : Text) : Prop := ∀ c ∈ tail, c = 0x3F ∨ c = 0x23

/-- What follows an authority is a path and, where the query and the
fragment are empty, at most their delimiters. -/
theorem eq_pathOf_append {rest : Text} (hq : queryOf rest = []) (hf : fragmentOf rest = []) :
    (∃ tail, rest = pathOf rest ++ tail ∧ IsTail tail) ∧ ¬Delimited (pathOf rest) := by
  have hpath : ¬Delimited (pathOf rest) := by
    rintro (h | h)
    · exact Text.notMem_partition _ _ h
    · refine Text.notMem_partition 0x23 rest ?_
      obtain hp | hp := Text.eq_of_partition_nil hq <;> rw [hp]
      · exact h
      · exact List.mem_append_left _ h
  refine ⟨?_, hpath⟩
  have hp : (Text.partition 0x23 rest).1 = pathOf rest ∨
      (Text.partition 0x23 rest).1 = pathOf rest ++ [0x3F] := Text.eq_of_partition_nil hq
  have hr : rest = (Text.partition 0x23 rest).1 ∨ rest = (Text.partition 0x23 rest).1 ++ [0x23] :=
    Text.eq_of_partition_nil hf
  obtain hp | hp := hp <;> rw [hp] at hr <;> obtain hr | hr := hr
  · exact ⟨[], by rwa [List.append_nil], by simp [IsTail]⟩
  · exact ⟨[0x23], hr, by simp [IsTail]⟩
  · exact ⟨[0x3F], hr, by simp [IsTail]⟩
  · exact ⟨[0x3F, 0x23], by rwa [List.append_assoc] at hr, by simp [IsTail]⟩

end Uri

namespace Segregation

open LakehouseScope Uri

variable {L : Library} {scope s : LakehouseScope}

/-- **Components that stay inside a scope**: none of another segregated
scope and, for a segregated scope, one of its own. -/
def Inside (scope : LakehouseScope) (components : List Text) : Prop :=
  (∀ c ∈ components, ∀ s ∈ segregated, s.matchesComponent c = true → s = scope) ∧
    (scope ≠ .platform → ∃ c ∈ components, scope.matchesComponent c = true)

instance (components : List Text) : Decidable (Inside scope components) := by
  unfold Inside
  infer_instance

/-- Components inside a scope stay there among others that are of no other
scope. -/
theorem inside_append {cs ds : List Text} (h : Inside scope ds) :
    Inside scope (cs ++ ds) ↔
      ∀ c ∈ cs, ∀ s ∈ segregated, s.matchesComponent c = true → s = scope := by
  obtain ⟨h₁, h₂⟩ := h
  constructor
  · rintro ⟨h, -⟩ c hc
    exact h c (List.mem_append_left _ hc)
  · refine fun h => ⟨fun c hc => ?_, fun hp => ?_⟩
    · obtain hc | hc := List.mem_append.1 hc
      · exact h c hc
      · exact h₁ c hc
    · obtain ⟨c, hc, hm⟩ := h₂ hp
      exact ⟨c, List.mem_append_right _ hc, hm⟩

/-- The segregated scope of a writer, if it has one. -/
def ownScope (scope : LakehouseScope) : List LakehouseScope :=
  if scope = .platform then [] else [scope]

/-- An empty component names no scope. -/
theorem matchesComponent_nil : s.matchesComponent [] = false := by
  cases s <;> decide

/-- The scopes declared are the scope's own. -/
theorem filter_segregated {p : LakehouseScope → Bool} :
    segregated.filter p = ownScope scope ↔
      (∀ s ∈ segregated, p s = true → s = scope) ∧ (scope ≠ .platform → p scope = true) := by
  have hown : ownScope scope = segregated.filter (· == scope) := by cases scope <;> rfl
  have hmem : scope ≠ .platform → scope ∈ segregated := by cases scope <;> decide
  rw [hown]
  constructor
  · intro h
    have hp : ∀ s ∈ segregated, p s = true ↔ s = scope := fun s hs => by
      have := congrArg (s ∈ ·) h
      simpa [List.mem_filter, hs] using this
    exact ⟨fun s hs => (hp s hs).1, fun hne => (hp scope (hmem hne)).2 rfl⟩
  · rintro ⟨h₁, h₂⟩
    refine List.filter_congr fun s hs => ?_
    rw [Bool.eq_iff_iff, beq_iff_eq]
    refine ⟨h₁ s hs, fun h => ?_⟩
    subst h
    exact h₂ fun h => by rw [h] at hs; exact absurd hs (by decide)

/-- **What a URI declares**, in the components of its path. -/
theorem scopesDeclaredByUri_eq_own {u : Text} :
    scopesDeclaredByUri L u = .ok (ownScope scope) ↔
      ∃ r, urlsplit L u = .ok r ∧ Inside scope (Text.splitOn 0x2F r.path) := by
  have hany : ∀ (t : Text) (s : LakehouseScope),
      (((Text.splitOn 0x2F t).filter (· ≠ [])).any s.matchesComponent = true) ↔
        ∃ c ∈ Text.splitOn 0x2F t, s.matchesComponent c = true := by
    intro t s
    rw [List.any_eq_true]
    constructor
    · rintro ⟨c, hc, hm⟩
      exact ⟨c, (List.mem_filter.1 hc).1, hm⟩
    · rintro ⟨c, hc, hm⟩
      refine ⟨c, List.mem_filter.2 ⟨hc, decide_eq_true fun h => ?_⟩, hm⟩
      rw [h, matchesComponent_nil] at hm
      cases hm
  unfold scopesDeclaredByUri
  rw [bind_eq_ok]
  refine exists_congr fun r => and_congr_right fun _ => ?_
  rw [pure_eq_ok, Except.ok.injEq, filter_segregated, Inside]
  simp only [hany]
  refine and_congr_left' ⟨fun h c hc s hs hm => h s hs ⟨c, hc, hm⟩, ?_⟩
  rintro h s hs ⟨c, hc, hm⟩
  exact h c hc s hs hm

/-- **The check of a table URI** accepts the URIs that declare the writer's
scope. -/
theorem requireScopeTableUri_eq_ok {u : Text} :
    requireScopeTableUri L scope u = .ok () ↔ scopesDeclaredByUri L u = .ok (ownScope scope) := by
  unfold requireScopeTableUri ownScope
  rw [bind_eq_ok]
  constructor
  · rintro ⟨declared, hd, h⟩
    split_ifs at h ⊢ with h₁ h₂ h₂ <;> simp_all
  · intro h
    refine ⟨_, h, ?_⟩
    split_ifs <;> simp_all

/-! ## The root of a writer -/

/-- What a writer appends to its root, after a slash. -/
def eventsPath (scope : LakehouseScope) (layer : Text) : Text :=
  scope.value ++ 0x5F :: layer ++ lit "/events"

variable {layer : Text}

/-- The path of a layer is of plain characters. -/
theorem eventsPath_plain (hl : Storage.IsLayer layer) :
    ∀ c ∈ eventsPath scope layer, 0x20 < c ∧ c < 0x7F ∧ c ≠ 0x3A ∧ c ≠ 0x3F ∧ c ≠ 0x23 := by
  obtain rfl | rfl | rfl := hl <;> cases scope <;> decide

/-- The path of a layer does not begin with a slash. -/
theorem eventsPath_head? (hl : Storage.IsLayer layer) :
    ∀ c ∈ (eventsPath scope layer).head?, c ≠ 0x2F := by
  obtain rfl | rfl | rfl := hl <;> cases scope <;> decide

/-- What a writer appends is inside its scope. -/
theorem inside_eventsPath (hl : Storage.IsLayer layer) :
    Inside scope (Text.splitOn 0x2F (eventsPath scope layer)) := by
  obtain rfl | rfl | rfl := hl <;> cases scope <;> decide +kernel

/-- **A root inside its scope**: no component of its path is of another
segregated scope and, for a segregated scope, no part of it reads as a
query or a fragment unless a component before that is the scope's. -/
def RootInside (L : Library) (scope : LakehouseScope) (root : Text) : Prop :=
  ∃ r, urlsplit L (root ++ [0x2F]) = .ok r ∧
    (∀ c ∈ Text.splitOn 0x2F r.path, ∀ s ∈ segregated, s.matchesComponent c = true → s = scope) ∧
    (scope ≠ .platform → (r.query = [] ∧ r.fragment = []) ∨
      ∃ c ∈ Text.splitOn 0x2F r.path, scope.matchesComponent c = true)

/-- A root checked for a segregated scope does not end, for `urlsplit`, in
a slash. -/
theorem splitScheme_of_checkScopeRoot {scopeRootUri root : Text} (hp : scope ≠ .platform)
    (h : checkScopeRoot L scope scopeRootUri = .ok root) :
    (splitScheme (cleaned root)).2 ≠ [0x2F] := by
  have hm : scope.matchesComponent (terminalComponent root) = true := by
    unfold checkScopeRoot at h
    simp only [if_neg hp] at h
    split_ifs at h with h₁ h₂
    have hself : scope ∈ segregated.filter (·.matchesComponent
        (terminalComponent (Text.rstripChar 0x2F scopeRootUri))) :=
      (not_not.1 h₂).symm ▸ List.mem_singleton_self scope
    rw [← Except.ok.inj h]
    exact (List.mem_filter.1 hself).2
  obtain ⟨front, hfront, hslash⟩ := Text.exists_append_rpartition 0x2F root
  rw [matchesComponent, Bool.and_eq_true, List.isPrefixOf_iff_prefix] at hm
  obtain ⟨⟨tail, htail⟩, -⟩ := hm
  obtain ⟨c, v, hv, hc⟩ : ∃ c v, scope.value = c :: v ∧ 0x20 < c := by
    cases scope <;> exact ⟨_, _, rfl, by decide⟩
  have hroot : root = front ++ c :: (v ++ tail) := by
    rw [hfront, ← List.cons_append, ← hv]
    exact congrArg _ htail.symm
  have hnot : 0x2F ∉ c :: (v ++ tail) := by
    rw [← List.cons_append, ← hv, htail]
    exact hslash
  intro hb
  obtain ⟨x, hx⟩ := splitScheme_isSuffix (cleaned root)
  rw [hb, hroot, cleaned_append_cons hc] at hx
  set t := (v ++ tail).filter _
  have hend : (x ++ [0x2F]).getLast? = (cleaned front ++ c :: t).getLast? := congrArg _ hx
  rw [List.getLast?_concat, List.getLast?_append_cons] at hend
  refine hnot (List.mem_cons.2 ?_)
  obtain h | h := List.mem_cons.1 (List.mem_of_getLast? hend.symm)
  · exact Or.inl h
  · exact Or.inr (List.mem_of_mem_filter h)

/-- **The check of a writer's table URIs** depends on its root alone. -/
theorem requireScopeTableUri_root {root : Text} (hl : Storage.IsLayer layer)
    (hroot : scope ≠ .platform → (splitScheme (cleaned root)).2 ≠ [0x2F]) :
    requireScopeTableUri L scope (root ++ 0x2F :: eventsPath scope layer) = .ok () ↔
      RootInside L scope root := by
  have hplain : ∀ c ∈ eventsPath scope layer, _ := eventsPath_plain hl
  have hinside : Inside scope (Text.splitOn 0x2F (eventsPath scope layer)) := inside_eventsPath hl
  rw [requireScopeTableUri_eq_ok, scopesDeclaredByUri_eq_own, RootInside]
  simp only [urlsplit_iff, and_assoc, exists_and_left, exists_eq_left]
  by_cases hb : (splitScheme (cleaned root)).2 = [0x2F]
  · -- One slash before the layer's makes an authority of the layer's directory.
    obtain rfl : scope = .platform := by
      by_contra hp
      exact hroot hp hb
    have hhier : ∀ t : Text, (∀ c ∈ t, 0x20 < c ∧ c ≠ 0x3A) →
        hierPart (root ++ 0x2F :: t) = splitNetloc (0x2F :: 0x2F :: t) := by
      intro t ht
      have hcolon : 0x3A ∉ 0x2F :: t := by
        rw [List.mem_cons, not_or]
        exact ⟨by decide, fun h => (ht _ h).2 rfl⟩
      rw [hierPart, cleaned_append fun c hc => (ht c hc).1, splitScheme_append hcolon, hb]
      rfl
    rw [hhier _ fun c hc => ⟨(hplain c hc).1, (hplain c hc).2.2.1⟩,
      hhier [] fun c hc => absurd hc List.not_mem_nil]
    refine iff_of_true ⟨isNetloc_of_ascii ?_, ?_⟩ ⟨isNetloc_of_ascii ?_, ?_, fun h => absurd rfl h⟩
    all_goals obtain rfl | rfl | rfl := hl <;> decide +kernel
  · rw [hierPart_append (fun c hc => ⟨(hplain c hc).1, (hplain c hc).2.2.1⟩) (eventsPath_head? hl) hb,
      hierPart_append (fun c hc => absurd hc List.not_mem_nil) (by simp) hb]
    set p := (hierPart root).2
    refine and_congr_right fun _ => ?_
    -- a root with a query or a fragment takes the layer's path into it
    by_cases hd : Delimited p
    · have hslash : 0x23 ∉ 0x2F :: eventsPath scope layer := by
        rw [List.mem_cons, not_or]
        exact ⟨by decide, fun h => (hplain _ h).2.2.2.2 rfl⟩
      obtain ⟨h₁, -⟩ := pathOf_append_of_delimited hd hslash (List.cons_ne_nil _ _)
      obtain ⟨h₂, h₃⟩ := pathOf_append_of_delimited (u := [0x2F]) hd (by decide) (by decide)
      rw [h₁, h₂, Inside]
      simp only [h₃, false_or]
    · have hslash : ∀ t : Text, (∀ c ∈ t, c ≠ 0x3F ∧ c ≠ 0x23) → ¬Delimited (p ++ 0x2F :: t) := by
        intro t ht hdt
        obtain h | h := hdt <;> rw [List.mem_append, List.mem_cons] at h
        · obtain h | h | h := h
          · exact hd (Or.inl h)
          · cases h
          · exact (ht _ h).1 rfl
        · obtain h | h | h := h
          · exact hd (Or.inr h)
          · cases h
          · exact (ht _ h).2 rfl
      obtain ⟨h₁, -, -⟩ := pathOf_of_not_delimited (hslash _ fun c hc => (hplain c hc).2.2.2)
      obtain ⟨h₂, h₃, h₄⟩ := pathOf_of_not_delimited (hslash [] (by simp))
      rw [h₁, h₂, h₃, h₄, Text.splitOn_append_sep, Text.splitOn_append_sep, inside_append hinside]
      have hnil : Text.splitOn 0x2F [] = [[]] := rfl
      simp [hnil, matchesComponent_nil, or_imp, forall_and]

/-- A table URI is the root with the layer's path, where the check passes. -/
theorem tableUri_eq_ok_iff {w : SegregatedDeltaWriter L} (hl : Storage.IsLayer layer) {u : Text} :
    w.tableUri layer = .ok u ↔ u = w.root ++ 0x2F :: eventsPath w.scope layer ∧
      requireScopeTableUri L w.scope u = .ok () := by
  have hlayer : forLayer L w.scope w.root layer =
      .ok (w.root ++ 0x2F :: eventsPath w.scope layer) := by
    rw [forLayer, if_pos (show layer = _ ∨ layer = _ ∨ layer = _ from hl)]
    simp [layerDirectory, eventsPath]
  rw [SegregatedDeltaWriter.tableUri, hlayer, ok_bind, bind_eq_ok]
  constructor
  · rintro ⟨⟨⟩, hreq, hu⟩
    cases hu
    exact ⟨rfl, hreq⟩
  · rintro ⟨rfl, hreq⟩
    exact ⟨(), hreq, rfl⟩

/-- **A writer resolves its three tables, each inside its scope, exactly
when its root is inside the scope** by the path a URL reads in it; the
constructor looks at the last component only. -/
theorem tableUri_declares_iff (w : SegregatedDeltaWriter L) :
    (∀ layer, Storage.IsLayer layer → ∃ u, w.tableUri layer = .ok u ∧
      scopesDeclaredByUri L u = .ok (ownScope w.scope)) ↔ RootInside L w.scope w.root := by
  have hroot : w.scope ≠ .platform → _ := fun hp => splitScheme_of_checkScopeRoot hp w.checked
  constructor
  · intro h
    have hl : Storage.IsLayer (lit "bronze") := Or.inl rfl
    obtain ⟨u, hu, hd⟩ := h _ hl
    obtain ⟨rfl, hreq⟩ := (tableUri_eq_ok_iff hl).1 hu
    exact (requireScopeTableUri_root hl hroot).1 hreq
  · intro h layer hl
    have hreq := (requireScopeTableUri_root hl hroot).2 h
    exact ⟨_, (tableUri_eq_ok_iff hl).2 ⟨rfl, hreq⟩, requireScopeTableUri_eq_ok.1 hreq⟩

/-- A platform writer is initialized under a `cvff` directory, and every
table of it is refused. -/
theorem tableUri_declares_not_initialized :
    ¬∀ (scope : LakehouseScope) (scopeRootUri : Text) (w : SegregatedDeltaWriter Library.ascii),
      SegregatedDeltaWriter.mk? Library.ascii scope scopeRootUri = .ok w →
        ∀ layer, Storage.IsLayer layer → ∃ u, w.tableUri layer = .ok u ∧
          scopesDeclaredByUri Library.ascii u = .ok (ownScope w.scope) := by
  intro h
  have hc : checkScopeRoot Library.ascii .platform (lit "/srv/cvff/lake") =
      .ok (lit "/srv/cvff/lake") := by decide +kernel
  let w : SegregatedDeltaWriter Library.ascii := ⟨_, _, _, hc⟩
  have hw : SegregatedDeltaWriter.mk? Library.ascii .platform (lit "/srv/cvff/lake") = .ok w := by
    unfold SegregatedDeltaWriter.mk?
    split
    · rename_i root hr
      have hroot : root = lit "/srv/cvff/lake" := Except.ok.inj (hr.symm.trans hc)
      subst hroot
      rfl
    · rename_i e he
      exact nomatch hc.symm.trans he
  obtain ⟨u, hu, -⟩ := h .platform _ w hw (lit "bronze") (Or.inl rfl)
  obtain ⟨rfl, hreq⟩ := (tableUri_eq_ok_iff (Or.inl rfl)).1 hu
  have hnone : (requireScopeTableUri Library.ascii .platform
      (lit "/srv/cvff/lake/platform_bronze/events")).toOption = none := by decide +kernel
  exact nomatch hnone.symm.trans (toOption_eq_some.2 hreq)

/-! ## The components of a local path -/

/-- **The only component of a scope is the last one, its bare name with an
empty query or fragment after it**: a path component that a URL ends
before. -/
def OnlyHidden (scope : LakehouseScope) (u : Text) : Prop :=
  ∃ front tail, u = front ++ 0x2F :: (scope.value ++ tail) ∧ tail ≠ [] ∧ IsTail tail ∧
    ∀ c ∈ Text.splitOn 0x2F front, scope.matchesComponent c = false

/-- **The third component of a path that starts in two slashes**, which a
URL reads as its authority, is of no other segregated scope. -/
def AuthorityInside (scope : LakehouseScope) (u : Text) : Prop :=
  ∀ third rest, Text.splitOn 0x2F u = [] :: [] :: third :: rest →
    ∀ s ∈ segregated, s.matchesComponent third = true → s = scope

/-- A scope's name has no delimiter. -/
theorem value_not_tail : ∀ c ∈ s.value, c ≠ 0x3F ∧ c ≠ 0x23 ∧ c ≠ 0x2F := by
  cases s <;> decide

/-- An empty query after a component hides the scope that it names. -/
theorem matchesComponent_append {x tail : Text} (hx : 0x0A ∉ x) (ht : IsTail tail) :
    s.matchesComponent (x ++ tail) = true ↔
      s.matchesComponent x = true ∧ (x = s.value → tail = []) := by
  have hpre : s.value <+: x ++ tail ↔ s.value <+: x := by
    refine ⟨fun h => ?_, fun h => h.trans (List.prefix_append _ _)⟩
    obtain hle | ⟨y, hy⟩ := List.prefix_or_prefix_of_prefix h (List.prefix_append x tail)
    · exact hle
    · cases y with
      | nil => exact ⟨[], by rw [← hy, List.append_nil, List.append_nil]⟩
      | cons c y =>
        rw [← hy, List.prefix_append_right_inj] at h
        have hc := ht c (h.subset List.mem_cons_self)
        have hv := value_not_tail (s := s) c (by rw [← hy]; simp)
        omega
  unfold matchesComponent
  rw [Bool.and_eq_true, Bool.and_eq_true, List.isPrefixOf_iff_prefix, List.isPrefixOf_iff_prefix,
    hpre, and_assoc]
  refine and_congr_right fun h => ?_
  obtain ⟨z, rfl⟩ := h
  rw [List.append_assoc, List.drop_left, List.drop_left]
  cases z with
  | nil =>
    cases tail with
    | nil => simp
    | cons c tail =>
      obtain rfl | rfl := ht c List.mem_cons_self <;> simp
  | cons c z =>
    have hc : c ≠ 0x0A := by
      rintro rfl
      exact hx (by simp)
    simp [hc]

/-- A hidden component is the only one that a scope has. -/
theorem OnlyHidden.not_matches {u : Text} (h : OnlyHidden s u) :
    ∀ c ∈ Text.splitOn 0x2F u, s.matchesComponent c = false := by
  obtain ⟨front, tail, rfl, hne, ht, hf⟩ := h
  have hslash : 0x2F ∉ s.value ++ tail := fun hm => by
    obtain hm | hm := List.mem_append.1 hm
    · exact (value_not_tail _ hm).2.2 rfl
    · exact absurd (ht _ hm) (by decide)
  have hbreak : 0x0A ∉ s.value := by cases s <;> decide
  intro c hc
  rw [Text.splitOn_append_sep, Text.splitOn_of_notMem hslash] at hc
  obtain hc | hc := List.mem_append.1 hc
  · exact hf c hc
  · rw [List.mem_singleton.1 hc, Bool.eq_false_iff]
    exact fun hm => hne (((matchesComponent_append hbreak ht).1 hm).2 rfl)

/-- **A path and the components a URL reads in it**: all but the last are
components of the path, which has no others but empty ones and the
authority. -/
theorem inside_iff_of_last {u front last tail : Text} {cs : List Text} (hx : 0x0A ∉ last)
    (ht : IsTail tail) (hslash : 0x2F ∉ last ++ tail) (hu : u = front ++ 0x2F :: (last ++ tail))
    (hin : Inside s (cs ++ [last]))
    (hcs : ∀ c ∈ cs, c = [] ∨ c ∈ Text.splitOn 0x2F front)
    (hfront : ∀ c ∈ Text.splitOn 0x2F front, c = [] ∨ c ∈ cs ∨
      ∃ rest, Text.splitOn 0x2F u = [] :: [] :: c :: rest) :
    Inside s (Text.splitOn 0x2F u) ↔
      AuthorityInside s u ∧ (s ≠ .platform → ¬OnlyHidden s u) := by
  have hsplit : Text.splitOn 0x2F u = Text.splitOn 0x2F front ++ [last ++ tail] := by
    rw [hu, Text.splitOn_append_sep, Text.splitOn_of_notMem hslash]
  have hno : ∀ {s' : LakehouseScope}, s'.matchesComponent [] ≠ true := by simp [matchesComponent_nil]
  constructor
  · rintro ⟨h₁, h₂⟩
    refine ⟨fun third rest h => h₁ third (by rw [h]; simp), fun hp hh => ?_⟩
    obtain ⟨c, hc, hm⟩ := h₂ hp
    rw [hh.not_matches c hc] at hm
    cases hm
  · rintro ⟨ha, hh⟩
    obtain ⟨h₁, h₂⟩ := hin
    refine ⟨fun c hc s' hs' hm => ?_, fun hp => ?_⟩
    · rw [hsplit] at hc
      obtain hc | hc := List.mem_append.1 hc
      · obtain rfl | hc | ⟨rest, hr⟩ := hfront c hc
        · exact absurd hm hno
        · exact h₁ c (List.mem_append_left _ hc) s' hs' hm
        · exact ha c rest hr s' hs' hm
      · rw [List.mem_singleton.1 hc] at hm
        exact h₁ last (by simp) s' hs' ((matchesComponent_append hx ht).1 hm).1
    · by_contra hnone
      have hnot : ∀ c ∈ Text.splitOn 0x2F u, s.matchesComponent c ≠ true := fun c hc hm =>
        hnone ⟨c, hc, hm⟩
      rw [hsplit] at hnot
      have hf : ∀ c ∈ Text.splitOn 0x2F front, s.matchesComponent c = false := fun c hc =>
        Bool.eq_false_iff.2 (hnot c (List.mem_append_left _ hc))
      have hlast : s.matchesComponent last = true := by
        obtain ⟨c, hc, hm⟩ := h₂ hp
        obtain hc | hc := List.mem_append.1 hc
        · obtain rfl | hc := hcs c hc
          · exact absurd hm hno
          · rw [hf c hc] at hm
            cases hm
        · exact List.mem_singleton.1 hc ▸ hm
      have hhid : ¬(last = s.value → tail = []) := fun h =>
        hnot (last ++ tail) (by simp) ((matchesComponent_append hx ht).2 ⟨hlast, h⟩)
      rw [Classical.not_imp] at hhid
      exact hh hp ⟨front, tail, by rw [hu, hhid.1], hhid.2, ht, hf⟩

/-- The case of a path that a URL reads whole, up to an empty query. -/
theorem inside_iff_of_path {v path tail : Text} (hbreak : 0x0A ∉ v) (htail : IsTail tail)
    (hv : v = path ++ tail) (hmem : 0x2F ∈ path) (hin : Inside s (Text.splitOn 0x2F path)) :
    Inside s (Text.splitOn 0x2F v) ↔ AuthorityInside s v ∧ (s ≠ .platform → ¬OnlyHidden s v) := by
  obtain ⟨front, last, hlast, hslash⟩ := Text.exists_append_last hmem
  have hu : v = front ++ 0x2F :: (last ++ tail) := by
    rw [hv, hlast, List.append_assoc, List.cons_append]
  have hlt : 0x2F ∉ last ++ tail := by
    rw [List.mem_append, not_or]
    exact ⟨hslash, fun h => absurd (htail _ h) (by decide)⟩
  rw [hlast, Text.splitOn_append_sep, Text.splitOn_of_notMem hslash] at hin
  exact inside_iff_of_last (fun h => hbreak (by rw [hu]; simp [h])) htail hlt hu hin
    (fun c hc => Or.inr hc) fun c hc => Or.inr (Or.inl hc)

/-- The case of a text that a URL reads as an authority alone, which no
segregated scope accepts. -/
theorem inside_iff_of_authority {w : Text} (hw : 0x2F ∉ w) :
    Inside .platform (Text.splitOn 0x2F (0x2F :: 0x2F :: w)) ↔
      AuthorityInside .platform (0x2F :: 0x2F :: w) := by
  have hsplit : Text.splitOn 0x2F (0x2F :: 0x2F :: w) = [[], [], w] := by
    rw [Text.splitOn, if_pos rfl, Text.splitOn, if_pos rfl, Text.splitOn_of_notMem hw]
  rw [AuthorityInside, hsplit]
  constructor
  · exact fun h third rest he => h.1 third (by rw [he]; simp)
  · refine fun h => ⟨fun c hc s' hs' hm => ?_, fun hne => absurd rfl hne⟩
    simp only [List.mem_cons, List.not_mem_nil, or_false, ← or_assoc, or_self] at hc
    obtain rfl | rfl := hc
    · rw [matchesComponent_nil] at hm
      cases hm
    · exact h _ [] rfl s' hs' hm

/-- The case of an authority and a path. -/
theorem inside_iff_of_authority_path {w a path tail : Text} (hbreak : 0x0A ∉ w)
    (htail : IsTail tail) (ha : 0x2F ∉ a) (hw : w = a ++ (0x2F :: path ++ tail))
    (hin : Inside s (Text.splitOn 0x2F (0x2F :: path))) :
    Inside s (Text.splitOn 0x2F (0x2F :: 0x2F :: w)) ↔
      AuthorityInside s (0x2F :: 0x2F :: w) ∧
        (s ≠ .platform → ¬OnlyHidden s (0x2F :: 0x2F :: w)) := by
  obtain ⟨front, last, hlast, hslash⟩ :=
    Text.exists_append_last (List.mem_cons_self : 0x2F ∈ 0x2F :: path)
  have hu : 0x2F :: 0x2F :: w = (0x2F :: 0x2F :: (a ++ front)) ++ 0x2F :: (last ++ tail) := by
    rw [hw, hlast]
    simp
  have hnil : ∃ rest, Text.splitOn 0x2F front = [] :: rest ∧
      Text.splitOn 0x2F (0x2F :: 0x2F :: (a ++ front)) = [] :: [] :: a :: rest := by
    rw [Text.splitOn, if_pos rfl, Text.splitOn, if_pos rfl]
    cases front with
    | nil => exact ⟨[], rfl, by rw [List.append_nil, Text.splitOn_of_notMem ha]⟩
    | cons e f =>
      obtain ⟨rfl, -⟩ := List.cons.inj hlast
      rw [Text.splitOn_append ha, Text.splitOn, if_pos rfl]
      exact ⟨_, rfl, rfl⟩
  obtain ⟨rest, hnil, hfront⟩ := hnil
  have hlt : 0x2F ∉ last ++ tail := by
    rw [List.mem_append, not_or]
    exact ⟨hslash, fun h => absurd (htail _ h) (by decide)⟩
  have hlb : 0x0A ∉ last := fun h => hbreak (by
    rw [hw, hlast]
    simp [h])
  rw [hlast, Text.splitOn_append_sep, Text.splitOn_of_notMem hslash, hnil] at hin
  refine inside_iff_of_last hlb htail hlt hu hin (fun c hc => ?_) fun c hc => ?_
  · rw [hfront]
    obtain rfl | hc := List.mem_cons.1 hc
    · exact Or.inl rfl
    · exact Or.inr (by simp [hc])
  · rw [hfront] at hc
    simp only [List.mem_cons] at hc
    obtain rfl | rfl | rfl | hc := hc
    · exact Or.inl rfl
    · exact Or.inl rfl
    · refine Or.inr (Or.inr ⟨rest ++ [last ++ tail], ?_⟩)
      rw [hu, Text.splitOn_append_sep, hfront, Text.splitOn_of_notMem hlt]
      simp
    · exact Or.inr (Or.inl (List.mem_cons_of_mem _ hc))

/-- **A local path that both checks accept stays inside the scope, component
by component, exactly when** what a URL reads as its authority does and its
only component of the scope is not one that a URL ends before. -/
theorem inside_local_iff (hL : L.AsciiControls) {u : Text} (hu : u.head? = some 0x2F)
    (hv : validateTableUri L u = .ok ()) (hr : requireScopeTableUri L s u = .ok ()) :
    Inside s (Text.splitOn 0x2F u) ↔
      AuthorityInside s u ∧ (s ≠ .platform → ¬OnlyHidden s u) := by
  obtain ⟨r, hsplit, hin⟩ := scopesDeclaredByUri_eq_own.1 (requireScopeTableUri_eq_ok.1 hr)
  obtain ⟨v, rfl⟩ : ∃ v, u = 0x2F :: v := by
    cases u with
    | nil => cases hu
    | cons c v => exact ⟨v, by rw [Option.some.inj hu]⟩
  have hstrip : Text.strip (0x2F :: v) = 0x2F :: v := by
    obtain ⟨h, -⟩ := guard_eq_ok.1 hv
    exact (not_not.1 (not_or.1 (not_or.1 h).2).1).symm
  obtain ⟨hctl, hdec⟩ := (validateTableUri_iff (List.cons_ne_nil _ _) hstrip hsplit).1 hv
  have hge := Storage.le_of_hasControlCharacters hL hctl
  have hbreak : 0x0A ∉ 0x2F :: v := fun h => absurd (hge _ h) (by decide)
  have hhier : hierPart (0x2F :: v) = splitNetloc (0x2F :: v) := by
    rw [hierPart, cleaned_eq_self (by simp) hge, splitScheme_slash]
  obtain ⟨-, rfl⟩ := urlsplit_iff.1 hsplit
  rw [hhier] at hdec hin
  simp only [Decorated, not_or, not_not] at hdec hin
  obtain ⟨⟨tail, hrest, htail⟩, hpath⟩ := eq_pathOf_append hdec.2.2.1 hdec.2.2.2
  set path := pathOf (splitNetloc (0x2F :: v)).2
  -- two slashes begin an authority, one the path
  by_cases hauth : ∃ w, v = 0x2F :: w
  · obtain ⟨w, rfl⟩ := hauth
    have hslash : 0x2F ∉ w.takeWhile (!endsNetloc ·) := fun h =>
      absurd (List.all_eq_true.1 List.all_takeWhile _ h) (by decide)
    have hw : w = w.takeWhile (!endsNetloc ·) ++ (path ++ tail) := by
      rw [← hrest]
      exact List.takeWhile_append_dropWhile.symm
    cases hp : path with
    | nil =>
      have hwslash : 0x2F ∉ w := by
        rw [hw, hp, List.nil_append, List.mem_append, not_or]
        exact ⟨hslash, fun h => absurd (htail _ h) (by decide)⟩
      obtain rfl : s = .platform := by
        by_contra hne
        obtain ⟨c, hc, hm⟩ := hin.2 hne
        rw [hp] at hc
        rw [List.mem_singleton.1 hc, matchesComponent_nil] at hm
        cases hm
      rw [inside_iff_of_authority hwslash, and_iff_left fun h => absurd rfl h]
    | cons d path' =>
      -- what follows an authority starts at the character that ended it
      have hd : endsNetloc d = true := by
        have h := List.head?_dropWhile_not (!endsNetloc ·) w
        have hdrop : w.dropWhile (!endsNetloc ·) = d :: (path' ++ tail) := by
          rw [← List.cons_append, ← hp]
          exact hrest
        rw [hdrop] at h
        simpa using h
      obtain rfl : d = 0x2F := by
        rw [hp] at hpath
        simp only [Delimited, List.mem_cons, not_or] at hpath
        simp only [endsNetloc, Bool.or_eq_true, beq_iff_eq] at hd
        omega
      rw [hp] at hin hw
      exact inside_iff_of_authority_path (fun h => hbreak (by simp [h])) htail hslash hw hin
  · have hself : splitNetloc (0x2F :: v) = ([], 0x2F :: v) :=
      splitNetloc_eq_self fun w hw => hauth ⟨w, (List.cons.inj hw).2⟩
    have hpt : 0x2F :: v = path ++ tail := by
      rw [← hrest, hself]
    have hmem : 0x2F ∈ path := by
      have h : 0x2F ∈ path ++ tail := hpt ▸ List.mem_cons_self
      exact (List.mem_append.1 h).resolve_right fun h => absurd (htail _ h) (by decide)
    exact inside_iff_of_path hbreak htail hpt hmem hin

/-- A directory of the scope is such a path. -/
theorem inside_local_cvff :
    validateTableUri Library.ascii (lit "/srv/cvff") = .ok () ∧
      (Inside .cvff (Text.splitOn 0x2F (lit "/srv/cvff")) ↔
        AuthorityInside .cvff (lit "/srv/cvff") ∧
          (LakehouseScope.cvff ≠ .platform → ¬OnlyHidden .cvff (lit "/srv/cvff"))) := by
  have hv : validateTableUri Library.ascii (lit "/srv/cvff") = .ok () :=
    toOption_eq_some.1 (by decide +kernel)
  exact ⟨hv, inside_local_iff Library.ascii_controls rfl hv
    (toOption_eq_some.1 (by decide +kernel))⟩

/-- An `isr` writer is let into the `cvff` root that a URL reads as an
authority. -/
theorem inside_local_not_always :
    ¬∀ (L : Library) (s : LakehouseScope) (u : Text), L.AsciiControls → u.head? = some 0x2F →
      validateTableUri L u = .ok () → requireScopeTableUri L s u = .ok () →
        Inside s (Text.splitOn 0x2F u) := by
  intro h
  have hin := h Library.ascii .isr (lit "//cvff/isr/x") Library.ascii_controls rfl
    (toOption_eq_some.1 (by decide +kernel)) (toOption_eq_some.1 (by decide +kernel))
  exact absurd hin (by decide +kernel)

end Segregation

end Lakehouse
