import Lakehouse.Common.Outcome
import Lakehouse.Common.Json.Value
/-!
# Grouping in one pass

A loop that decodes each item to a key and what the item adds there, skips
some, and keeps one value for each key in a dict. What a key is left with
is a fold over the items of that key alone (`groupPass_get`), and passes
over items that decode alike end alike (`groupPass_alike`).
-/

namespace Lakehouse

variable {ε α β γ : Type}

/-- **One pass over the items.** -/
def groupPass (decode : α → Except ε (Option (Text × γ))) (step : Option β → γ → Except ε β) :
    Members β → List α → Except ε (Members β)
  | ms, [] => .ok ms
  | ms, a :: as => do
    match ← decode a with
    | none => groupPass decode step ms as
    | some (key, c) => groupPass decode step (ms.set key (← step (ms.get key) c)) as

/-- What the items decode to, with their keys. -/
def entries (decode : α → Except ε (Option (Text × γ))) (as : List α) : List (Text × γ) :=
  as.filterMap fun a => (decode a).toOption.join

/-- What the items of one key add, in order. -/
def entriesOf (decode : α → Except ε (Option (Text × γ))) (as : List α) (key : Text) : List γ :=
  ((entries decode as).filter fun p => p.1 = key).map Prod.snd

/-- The value of one key after its items. -/
def foldGroup (step : Option β → γ → Except ε β) : Option β → List γ → Except ε (Option β)
  | b, [] => .ok b
  | b, c :: cs => do foldGroup step (some (← step b c)) cs

variable {decode : α → Except ε (Option (Text × γ))} {step : Option β → γ → Except ε β}
  {ms ms' : Members β} {a : α} {as : List α} {key : Text} {c : γ}

/-- A pass over one item more. -/
theorem groupPass_cons_eq_ok (h : groupPass decode step ms (a :: as) = .ok ms') :
    (decode a = .ok none ∧ groupPass decode step ms as = .ok ms') ∨
      ∃ key c b, decode a = .ok (some (key, c)) ∧ step (ms.get key) c = .ok b ∧
        groupPass decode step (ms.set key b) as = .ok ms' := by
  rw [groupPass] at h
  obtain ⟨p, hp, h⟩ := bind_eq_ok.1 h
  cases p with
  | none => exact Or.inl ⟨hp, h⟩
  | some p =>
    obtain ⟨b, hb, h⟩ := bind_eq_ok.1 h
    exact Or.inr ⟨p.1, p.2, b, hp, hb, h⟩

/-- A pass over items made of others. -/
theorem groupPass_map {δ : Type} (f : δ → α) (ds : List δ) (ms : Members β) :
    groupPass decode step ms (ds.map f) = groupPass (fun d => decode (f d)) step ms ds := by
  induction ds generalizing ms with
  | nil => rfl
  | cons d ds ih =>
    rw [List.map_cons, groupPass, groupPass]
    refine bind_congr fun p => ?_
    cases p with
    | none => exact ih ms
    | some p => exact bind_congr fun b => ih _

/-- An item passed over has no entry. -/
theorem entries_cons_none (h : decode a = .ok none) : entries decode (a :: as) = entries decode as := by
  rw [entries, List.filterMap_cons_none]
  · rfl
  · rw [h]
    rfl

/-- An item refused has no entry. -/
theorem entries_cons_error {e : ε} (h : decode a = .error e) :
    entries decode (a :: as) = entries decode as := by
  rw [entries, List.filterMap_cons_none]
  · rfl
  · rw [h]
    rfl

/-- An item decoded stands before the entries of the others. -/
theorem entries_cons_some (h : decode a = .ok (some (key, c))) :
    entries decode (a :: as) = (key, c) :: entries decode as := by
  rw [entries, List.filterMap_cons_some]
  · rfl
  · rw [h]
    rfl

/-- **What a key is left with.** -/
theorem groupPass_get (h : groupPass decode step ms as = .ok ms') (key : Text) :
    foldGroup step (ms.get key) (entriesOf decode as key) = .ok (ms'.get key) := by
  induction as generalizing ms with
  | nil =>
    cases h
    rfl
  | cons a as ih =>
    obtain ⟨ha, h⟩ | ⟨k, c, b, ha, hb, h⟩ := groupPass_cons_eq_ok h
    · rw [entriesOf, entries_cons_none ha]
      exact ih h
    · have ih := ih h
      rw [Members.get_set] at ih
      rw [entriesOf, entries_cons_some ha]
      by_cases hk : key = k
      · subst hk
        rw [if_pos rfl] at ih
        rw [List.filter_cons_of_pos (by simp), List.map_cons, foldGroup, hb]
        exact ih
      · rw [if_neg hk] at ih
        rw [List.filter_cons_of_neg (by simpa using Ne.symm hk)]
        exact ih

/-- A pass keeps the keys distinct. -/
theorem groupPass_distinct (hms : ms.Distinct) (h : groupPass decode step ms as = .ok ms') :
    ms'.Distinct := by
  induction as generalizing ms with
  | nil =>
    cases h
    exact hms
  | cons a as ih =>
    obtain ⟨-, h⟩ | ⟨k, c, b, -, -, h⟩ := groupPass_cons_eq_ok h
    · exact ih hms h
    · exact ih (hms.set k b) h

/-- A pass that returns has decoded every item. -/
theorem groupPass_decodes (h : groupPass decode step ms as = .ok ms') :
    ∀ a ∈ as, ∃ p, decode a = .ok p := by
  induction as generalizing ms with
  | nil => exact fun _ ha => absurd ha List.not_mem_nil
  | cons a as ih =>
    obtain ⟨ha, h⟩ | ⟨k, c, b, ha, -, h⟩ := groupPass_cons_eq_ok h
    all_goals exact List.forall_mem_cons.2 ⟨⟨_, ha⟩, ih h⟩

/-- A fold takes its first entry and goes on from there. -/
theorem foldGroup_cons_eq_ok {b b' : Option β} {cs : List γ}
    (h : foldGroup step b (c :: cs) = .ok b') :
    ∃ d, step b c = .ok d ∧ foldGroup step (some d) cs = .ok b' :=
  bind_eq_ok.1 h

/-- A value once there stays. -/
theorem foldGroup_some {b : β} {cs : List γ} {b' : Option β}
    (h : foldGroup step (some b) cs = .ok b') : ∃ d, b' = some d := by
  induction cs generalizing b with
  | nil =>
    cases h
    exact ⟨b, rfl⟩
  | cons c cs ih =>
    obtain ⟨d, -, h⟩ := foldGroup_cons_eq_ok h
    exact ih h

/-- A key has a value where an item has it. -/
theorem groupPass_get_eq_none (h : groupPass decode step [] as = .ok ms') (key : Text) :
    ms'.get key = none ↔ entriesOf decode as key = [] := by
  have hget := groupPass_get h key
  cases he : entriesOf decode as key with
  | nil =>
    rw [he] at hget
    have hnone : none = ms'.get key := Except.ok.inj hget
    simp [← hnone]
  | cons c cs =>
    rw [he] at hget
    obtain ⟨d, -, hd⟩ := foldGroup_cons_eq_ok hget
    obtain ⟨d', hd'⟩ := foldGroup_some hd
    rw [hd']
    simp

/-- **An invariant of a group**: it holds of what the first item makes and
every further item keeps it. -/
theorem foldGroup_induct {P : List γ → Option β → Prop} {cs : List γ} {b' : Option β}
    (hnil : P [] none)
    (hstep : ∀ done b c d, P done b → step b c = .ok d → P (done ++ [c]) (some d))
    (h : foldGroup step none cs = .ok b') : P cs b' := by
  suffices hall : ∀ cs done b, P done b → foldGroup step b cs = .ok b' → P (done ++ cs) b' by
    simpa using hall cs [] none hnil h
  intro cs
  induction cs with
  | nil =>
    intro done b hP h
    cases h
    simpa using hP
  | cons c cs ih =>
    intro done b hP h
    obtain ⟨d, hd, h⟩ := foldGroup_cons_eq_ok h
    simpa using ih (done ++ [c]) (some d) (hstep done b c d hP hd) h

/-- The entries of one list stand before those of the other. -/
theorem entriesOf_append (as bs : List α) (key : Text) :
    entriesOf decode (as ++ bs) key = entriesOf decode as key ++ entriesOf decode bs key := by
  simp [entriesOf, entries, List.filterMap_append]

/-- An item adds nothing to the keys it does not decode to. -/
theorem entriesOf_insert_of_ne {bs : List α} {p : Option (Text × γ)} (h : decode a = .ok p)
    (hk : ∀ q ∈ p, q.1 ≠ key) :
    entriesOf decode (as ++ a :: bs) key = entriesOf decode (as ++ bs) key := by
  rw [entriesOf_append, entriesOf_append]
  cases p with
  | none => rw [entriesOf, entriesOf, entriesOf, entries_cons_none h]
  | some q =>
    rw [entriesOf, entriesOf, entriesOf, entries_cons_some h,
      List.filter_cons_of_neg (by simpa using hk q rfl)]

/-- What it adds to its own key. -/
theorem entriesOf_insert {bs : List α} (h : decode a = .ok (some (key, c))) :
    entriesOf decode (as ++ a :: bs) key =
      entriesOf decode as key ++ c :: entriesOf decode bs key := by
  rw [entriesOf_append]
  refine congrArg _ ?_
  rw [entriesOf, entries_cons_some h, List.filter_cons_of_pos (by simp), List.map_cons]
  rfl

/-- What an item decodes to is an entry of its key. -/
theorem mem_entriesOf (ha : a ∈ as) (h : decode a = .ok (some (key, c))) :
    c ∈ entriesOf decode as key := by
  obtain ⟨bs, cs, rfl⟩ := List.append_of_mem ha
  rw [entriesOf_insert h]
  simp

/-- An entry is what some item decodes to. -/
theorem exists_of_mem_entriesOf (h : c ∈ entriesOf decode as key) :
    ∃ a ∈ as, decode a = .ok (some (key, c)) := by
  simp only [entriesOf, entries, List.mem_map, List.mem_filter, List.mem_filterMap,
    decide_eq_true_eq] at h
  obtain ⟨⟨_, _⟩, ⟨⟨a, ha, hdecode⟩, rfl⟩, rfl⟩ := h
  rw [Option.join_eq_some_iff] at hdecode
  exact ⟨a, ha, toOption_eq_some.1 hdecode⟩

/-- The entries of a key are permuted with the items. -/
theorem entriesOf_perm {bs : List α} (h : as.Perm bs) (key : Text) :
    (entriesOf decode as key).Perm (entriesOf decode bs key) :=
  ((h.filterMap _).filter _).map _

/-- **A pass that gathers**: each key holds its items, in order. -/
theorem groupPass_gather {ms' : Members (List γ)}
    (h : groupPass decode (fun b c => .ok (b.getD [] ++ [c])) [] as = .ok ms') (key : Text)
    (cs : List γ) : ms'.get key = some cs ↔ cs = entriesOf decode as key ∧ cs ≠ [] := by
  have hfold : ∀ {ds : List γ} {b : Option (List γ)},
      foldGroup (fun b c => (.ok (b.getD [] ++ [c]) : Except ε (List γ))) none ds = .ok b →
      b.getD [] = ds ∧ (b = none ↔ ds = []) := by
    intro ds b hb
    refine foldGroup_induct (P := fun ds b => b.getD [] = ds ∧ (b = none ↔ ds = []))
      ⟨rfl, by simp⟩ ?_ hb
    rintro done b c _ ⟨hP, -⟩ ⟨⟩
    exact ⟨by rw [Option.getD_some, hP], by simp⟩
  obtain ⟨hget, hnone⟩ := hfold (groupPass_get h key)
  cases hv : ms'.get key with
  | none =>
    rw [hv] at hnone
    rw [hnone.1 rfl]
    constructor
    · nofun
    · rintro ⟨rfl, hne⟩
      exact absurd rfl hne
  | some l =>
    rw [hv] at hget hnone
    have hne : entriesOf decode as key ≠ [] := fun he => nomatch hnone.2 he
    rw [Option.getD_some] at hget
    constructor
    · rintro ⟨⟩
      exact ⟨hget, hget ▸ hne⟩
    · rintro ⟨rfl, -⟩
      rw [hget]

/-- Passes that add the same to a key leave it the same. -/
theorem groupPass_get_congr {bs : List α} {ns ns' : Members β}
    (h : groupPass decode step ms as = .ok ms') (h' : groupPass decode step ns bs = .ok ns')
    (hms : ms.get key = ns.get key) (heq : entriesOf decode as key = entriesOf decode bs key) :
    ms'.get key = ns'.get key := by
  have hget := groupPass_get h key
  rw [hms, heq, groupPass_get h' key] at hget
  exact (Except.ok.inj hget).symm

/-- **A pass returns** where every item decodes to something its steps can
take, and what they make can take more; so can what it returns. -/
theorem groupPass_isOk_of {P : β → Prop} {Q : γ → Prop}
    (hstep : ∀ b c, (∀ x ∈ b, P x) → Q c → ∃ d, step b c = .ok d ∧ P d)
    (hms : ∀ key b, ms.get key = some b → P b)
    (h : ∀ a ∈ as, ∃ p, decode a = .ok p ∧ ∀ q ∈ p, Q q.2) :
    ∃ ms', groupPass decode step ms as = .ok ms' ∧ ∀ key b, ms'.get key = some b → P b := by
  induction as generalizing ms with
  | nil => exact ⟨ms, rfl, hms⟩
  | cons a as ih =>
    obtain ⟨⟨p, hp, hQ⟩, has⟩ := List.forall_mem_cons.1 h
    cases p with
    | none =>
      obtain ⟨ms', hms', hP⟩ := ih hms has
      exact ⟨ms', bind_eq_ok.2 ⟨_, hp, hms'⟩, hP⟩
    | some p =>
      obtain ⟨d, hd, hPd⟩ := hstep (ms.get p.1) p.2 (fun x => hms p.1 x) (hQ p rfl)
      have hset : ∀ key b, (ms.set p.1 d).get key = some b → P b := by
        intro key b hget
        rw [Members.get_set] at hget
        split_ifs at hget
        · cases hget
          exact hPd
        · exact hms key b hget
      obtain ⟨ms', hms', hP⟩ := ih hset has
      exact ⟨ms', bind_eq_ok.2 ⟨_, hp, bind_eq_ok.2 ⟨d, hd, hms'⟩⟩, hP⟩

/-- **A pass returns** where every item decodes and every key can take its
items, one after the other. -/
theorem groupPass_isOk_of_folds (hdecode : ∀ a ∈ as, ∃ p, decode a = .ok p)
    (hfold : ∀ key, ∃ b, foldGroup step (ms.get key) (entriesOf decode as key) = .ok b) :
    ∃ ms', groupPass decode step ms as = .ok ms' := by
  induction as generalizing ms with
  | nil => exact ⟨ms, rfl⟩
  | cons a as ih =>
    obtain ⟨⟨p, hp⟩, has⟩ := List.forall_mem_cons.1 hdecode
    cases p with
    | none =>
      simp only [entriesOf, entries_cons_none hp] at hfold
      obtain ⟨ms', hms'⟩ := ih has hfold
      exact ⟨ms', bind_eq_ok.2 ⟨_, hp, hms'⟩⟩
    | some p =>
      simp only [entriesOf, entries_cons_some hp] at hfold
      obtain ⟨b, hb⟩ := hfold p.1
      rw [List.filter_cons_of_pos (by simp), List.map_cons] at hb
      obtain ⟨d, hd, hrest⟩ := foldGroup_cons_eq_ok hb
      have hset : ∀ key, ∃ b, foldGroup step ((ms.set p.1 d).get key) (entriesOf decode as key) =
          .ok b := by
        intro key
        rw [Members.get_set]
        split_ifs with hk
        · exact ⟨b, hk ▸ hrest⟩
        · obtain ⟨b, hb⟩ := hfold key
          rw [List.filter_cons_of_neg (by simpa using Ne.symm hk)] at hb
          exact ⟨b, hb⟩
      obtain ⟨ms', hms'⟩ := ih has hset
      exact ⟨ms', bind_eq_ok.2 ⟨_, hp, bind_eq_ok.2 ⟨d, hd, hms'⟩⟩⟩

/-- A key can take its items where an invariant lets it take each. -/
theorem foldGroup_isOk {P : Option β → Prop} {b : Option β} {cs : List γ} (hb : P b)
    (hstep : ∀ b, P b → ∀ c ∈ cs, ∃ d, step b c = .ok d ∧ P (some d)) :
    ∃ b', foldGroup step b cs = .ok b' := by
  induction cs generalizing b with
  | nil => exact ⟨b, rfl⟩
  | cons c cs ih =>
    obtain ⟨d, hd, hP⟩ := hstep b hb c List.mem_cons_self
    obtain ⟨b', hb'⟩ := ih hP fun b hb c hc => hstep b hb c (List.mem_cons_of_mem _ hc)
    exact ⟨b', bind_eq_ok.2 ⟨d, hd, hb'⟩⟩

/-- A pass whose steps never raise returns where every item decodes. -/
theorem groupPass_isOk (hstep : ∀ b c, ∃ d, step b c = .ok d) (h : ∀ a ∈ as, ∃ p, decode a = .ok p) :
    ∃ ms', groupPass decode step ms as = .ok ms' := by
  have hstep' : ∀ b c, (∀ x ∈ b, True) → True → ∃ d, step b c = .ok d ∧ True := by
    intro b c _ _
    obtain ⟨d, hd⟩ := hstep b c
    exact ⟨d, hd, trivial⟩
  have hdecodes : ∀ a ∈ as, ∃ p, decode a = .ok p ∧ ∀ q ∈ p, True := by
    intro a ha
    obtain ⟨p, hp⟩ := h a ha
    exact ⟨p, hp, fun _ _ => trivial⟩
  obtain ⟨ms', hms', -⟩ := groupPass_isOk_of hstep' (fun _ _ _ => trivial) hdecodes
  exact ⟨ms', hms'⟩

/-- A pass whose steps never raise returns with an item repeated. -/
theorem groupPass_isOk_insert {pre post : List α} {u : α} (hstep : ∀ b c, ∃ d, step b c = .ok d)
    (hu : u ∈ pre ++ post) (ha : decode a = decode u)
    (h : groupPass decode step ms (pre ++ post) = .ok ms') :
    ∃ ms', groupPass decode step ms (pre ++ a :: post) = .ok ms' := by
  have hdecodes := groupPass_decodes h
  refine groupPass_isOk hstep fun x hx => ?_
  obtain hx | hx := List.mem_append.1 hx
  · exact hdecodes x (List.mem_append_left _ hx)
  · obtain rfl | hx := List.mem_cons.1 hx
    · rw [ha]
      exact hdecodes u hu
    · exact hdecodes x (List.mem_append_right _ hx)

/-- Dicts with the same lookups are the same once sorted. -/
theorem sortBy_fst_congr {ms ms' : Members β} (h : ms.Distinct) (h' : ms'.Distinct)
    (hget : ∀ k, ms.get k = ms'.get k) : sortBy Prod.fst ms = sortBy Prod.fst ms' := by
  refine sortBy_perm ((List.perm_ext_iff_of_nodup h.of_map h'.of_map).2 fun p => ?_) h
  obtain ⟨k, v⟩ := p
  rw [← Members.get_eq_some h, ← Members.get_eq_some h', hget]

/-- A member of a dict mapped over its entries. -/
theorem get_map_entries {δ : Type} (g : Text → β → δ) (ms : Members β) (key : Text) :
    Members.get key (ms.map fun c => (c.1, g c.1 c.2)) = (ms.get key).map (g key) := by
  induction ms with
  | nil => rfl
  | cons c ms ih =>
    obtain ⟨k, b⟩ := c
    rw [List.map_cons, Members.get_cons, Members.get_cons, ih]
    split_ifs with hk
    · rw [hk]
      rfl
    · rfl

/-- Dicts whose values are shown alike are shown alike once sorted. -/
theorem sortBy_fst_map_congr {δ : Type} {g : Text → β → δ} {ms ms' : Members β} (h : ms.Distinct)
    (h' : ms'.Distinct) (hget : ∀ k, (ms.get k).map (g k) = (ms'.get k).map (g k)) :
    (sortBy Prod.fst ms).map (fun c => (c.1, g c.1 c.2)) =
      (sortBy Prod.fst ms').map fun c => (c.1, g c.1 c.2) := by
  have hkeys : ∀ {ms : Members β}, ms.Distinct →
      Members.Distinct (ms.map fun c => (c.1, g c.1 c.2)) := by
    intro ms hms
    rw [Members.Distinct, List.map_map]
    exact hms
  have hsorted : ∀ ms : Members β, (sortBy Prod.fst ms).map (fun c => (c.1, g c.1 c.2)) =
      sortBy Prod.fst (ms.map fun c => (c.1, g c.1 c.2)) := by
    intro ms
    have hmap : sortBy Prod.fst (ms.map fun c => (c.1, g c.1 c.2)) =
        (sortBy (fun c => (c.1, g c.1 c.2).1) ms).map fun c => (c.1, g c.1 c.2) :=
      sortBy_map _ ms
    exact hmap.symm
  rw [hsorted, hsorted]
  refine sortBy_fst_congr (hkeys h) (hkeys h') fun k => ?_
  rw [get_map_entries, get_map_entries, hget]

/-! ## Two passes -/

section Alike

variable {α' β' γ' : Type} {decode' : α' → Except ε (Option (Text × γ'))}
  {step' : Option β' → γ' → Except ε β'} {R : α → α' → Prop} {S : β → β' → Prop}
  {T : γ → γ' → Prop}

/-- Two entries under one key. -/
def SameKey (T : γ → γ' → Prop) (p : Text × γ) (q : Text × γ') : Prop := p.1 = q.1 ∧ T p.2 q.2

/-- Dicts related entry by entry have related members. -/
theorem forall₂_get {ms : Members β} {ms' : Members β'} (h : List.Forall₂ (SameKey S) ms ms')
    (key : Text) : Option.Rel S (ms.get key) (ms'.get key) := by
  induction h with
  | nil => exact .none
  | @cons p q _ _ hpq _ ih =>
    obtain ⟨k, b⟩ := p
    obtain ⟨k', b'⟩ := q
    obtain ⟨hk, hS⟩ := hpq
    simp only at hk hS
    subst hk
    rw [Members.get_cons, Members.get_cons]
    split_ifs
    · exact .some hS
    · exact ih

/-- Setting related members keeps dicts related. -/
theorem forall₂_set {ms : Members β} {ms' : Members β'} (h : List.Forall₂ (SameKey S) ms ms')
    (key : Text) {b : β} {b' : β'} (hb : S b b') :
    List.Forall₂ (SameKey S) (ms.set key b) (ms'.set key b') := by
  have hkeys : ms.map Prod.fst = ms'.map Prod.fst := by
    induction h with
    | nil => rfl
    | cons hpq _ ih => rw [List.map_cons, List.map_cons, hpq.1, ih]
  unfold Members.set
  rw [hkeys]
  split_ifs
  · rw [List.forall₂_map_left_iff, List.forall₂_map_right_iff]
    refine h.imp fun p q hpq => ?_
    rw [hpq.1]
    split_ifs
    · exact ⟨rfl, hb⟩
    · exact hpq
  · exact List.rel_append h (.cons ⟨rfl, hb⟩ .nil)

/-- **Passes over items that decode alike end alike.** -/
theorem groupPass_alike (hdecode : ∀ a a', R a a' → Alike (Option.Rel (SameKey T)) (decode a) (decode' a'))
    (hstep : ∀ b b' c c', Option.Rel S b b' → T c c' → Alike S (step b c) (step' b' c'))
    {as : List α} {as' : List α'} (has : List.Forall₂ R as as') {ms : Members β} {ms' : Members β'}
    (hms : List.Forall₂ (SameKey S) ms ms') :
    Alike (List.Forall₂ (SameKey S)) (groupPass decode step ms as)
      (groupPass decode' step' ms' as') := by
  induction has generalizing ms ms' with
  | nil => exact .ok hms
  | cons ha _ ih =>
    refine (hdecode _ _ ha).bind fun p q hpq => ?_
    cases hpq with
    | none => exact ih hms
    | @some p q hpq =>
      obtain ⟨k, c⟩ := p
      obtain ⟨k', c'⟩ := q
      obtain ⟨hk, hT⟩ := hpq
      simp only at hk hT
      subst hk
      exact (hstep _ _ _ _ (forall₂_get hms k) hT).bind fun b b' hb => ih (forall₂_set hms k hb)

end Alike

end Lakehouse
