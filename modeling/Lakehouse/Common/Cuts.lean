import Lakehouse.Common.Sort
import Mathlib.Data.List.SplitBy
import Mathlib.Data.List.Destutter
/-!
# Cutting a list between neighbours

Two ways to cut a list into runs give runs of the same lengths exactly
when they cut between the same neighbours. `numbered` gives every item
the number of cuts before it, as a running sum does, and collecting the
items of one number gives the run back. Dropping repeats from a list and
cutting it one way, and cutting it another way and sorting each run, come
to the same exactly where nothing repeats, the cuts agree and the runs
are in order (`map_splitBy_destutter_iff`).
-/

namespace Lakehouse

variable {α β κ : Type} {r s : α → α → Bool}

theorem splitBy_singleton (r : α → α → Bool) (a : α) : [a].splitBy r = [[a]] := rfl

/-- The first run starts with the first item. -/
theorem exists_splitBy_cons (r : α → α → Bool) (b : α) (l : List α) :
    ∃ run runs, (b :: l).splitBy r = (b :: run) :: runs := by
  have hflat := List.flatten_splitBy r (b :: l)
  have hnil := List.nil_notMem_splitBy r (b :: l)
  cases hsplit : (b :: l).splitBy r with
  | nil => simp at hsplit
  | cons run runs =>
    rw [hsplit] at hflat hnil
    cases run with
    | nil => simp at hnil
    | cons c run =>
      obtain rfl : c = b := by simpa using congrArg List.head? hflat
      exact ⟨run, runs, rfl⟩

/-- One item more in front: it joins the first run, or is a run of its own. -/
theorem splitBy_cons_cons (r : α → α → Bool) (a b : α) (l : List α) :
    (a :: b :: l).splitBy r = if r a b then
      (a :: ((b :: l).splitBy r).headD []) :: ((b :: l).splitBy r).tail
    else [a] :: (b :: l).splitBy r := by
  split_ifs with h
  · obtain ⟨run, runs, hruns⟩ := exists_splitBy_cons r b l
    obtain ⟨hflat, hnil, hchain, hcut⟩ := List.splitBy_eq_iff.1 hruns
    have hl : l = run ++ runs.flatten := by simpa using hflat
    rw [hruns, List.headD_cons, List.tail_cons, List.splitBy_eq_iff]
    refine ⟨by simp [hl], by simpa using hnil, fun m hm => ?_, ?_⟩
    · obtain rfl | hm := List.mem_cons.1 hm
      · exact List.isChain_cons_cons.2 ⟨h, hchain _ List.mem_cons_self⟩
      · exact hchain m (List.mem_cons_of_mem _ hm)
    · cases runs with
      | nil => exact List.isChain_singleton _
      | cons next runs =>
        obtain ⟨⟨ha, hb, hlast⟩, hrest⟩ := List.isChain_cons_cons.1 hcut
        refine List.isChain_cons_cons.2 ⟨⟨List.cons_ne_nil _ _, hb, ?_⟩, hrest⟩
        rwa [List.getLast_cons ha]
  · have hfalse : r a b = false := by simpa using h
    rw [← List.singleton_append, List.splitBy_append_cons l (by simpa using hfalse)]
    rfl

/-- Runs of the same lengths are cut at the same places. -/
theorem isChain_of_length_splitBy {l : List α}
    (h : (l.splitBy r).map List.length = (l.splitBy s).map List.length) :
    l.IsChain fun a b => r a b = s a b := by
  induction l with
  | nil => exact List.isChain_nil
  | cons a l ih =>
    cases l with
    | nil => exact List.isChain_singleton a
    | cons b l =>
      have hpos : ∀ r : α → α → Bool, 0 < (((b :: l).splitBy r).headD []).length ∧
          ((b :: l).splitBy r).map List.length =
            (((b :: l).splitBy r).headD []).length ::
              (((b :: l).splitBy r).tail).map List.length := by
        intro r
        obtain ⟨run, runs, hruns⟩ := exists_splitBy_cons r b l
        rw [hruns]
        exact ⟨Nat.succ_pos _, rfl⟩
      obtain ⟨hr, hrmap⟩ := hpos r
      obtain ⟨hs, hsmap⟩ := hpos s
      rw [splitBy_cons_cons, splitBy_cons_cons] at h
      split_ifs at h with h₁ h₂ h₂
      · simp only [List.map_cons, List.length_cons, List.cons.injEq] at h
        refine List.isChain_cons_cons.2 ⟨h₁.trans h₂.symm, ih ?_⟩
        rw [hrmap, hsmap, h.2, Nat.succ.inj h.1]
      · simp only [List.map_cons, List.length_cons, List.length_nil, List.cons.injEq] at h
        omega
      · simp only [List.map_cons, List.length_cons, List.length_nil, List.cons.injEq] at h
        omega
      · simp only [List.map_cons, List.cons.injEq, true_and] at h
        refine List.isChain_cons_cons.2 ⟨?_, ih h⟩
        rw [Bool.not_eq_true] at h₁ h₂
        rw [h₁, h₂]

/-- Tests that agree on neighbours cut alike. -/
theorem splitBy_congr {l : List α} (h : l.IsChain fun a b => r a b = s a b) :
    l.splitBy r = l.splitBy s := by
  induction l with
  | nil => rfl
  | cons a l ih =>
    cases l with
    | nil => rfl
    | cons b l =>
      obtain ⟨hab, hl⟩ := List.isChain_cons_cons.1 h
      rw [splitBy_cons_cons, splitBy_cons_cons, hab, ih hl]

/-- What holds of neighbours that are not cut apart holds along every run. -/
theorem isChain_splitBy_iff {R : α → α → Prop} {l : List α} :
    (∀ run ∈ l.splitBy r, run.IsChain R) ↔ l.IsChain fun a b => r a b = true → R a b := by
  induction l with
  | nil => simp
  | cons a l ih =>
    cases l with
    | nil => simp [splitBy_singleton]
    | cons b l =>
      rw [List.isChain_cons_cons, ← ih, splitBy_cons_cons]
      split_ifs with h
      · obtain ⟨run, runs, hruns⟩ := exists_splitBy_cons r b l
        rw [hruns, List.headD_cons, List.tail_cons, List.forall_mem_cons, List.forall_mem_cons,
          List.isChain_cons_cons]
        simp only [h, true_implies]
        tauto
      · rw [List.forall_mem_cons]
        simp [h]

/-! ## Numbers -/

/-- Every item with the number of cuts before it. -/
def numbered (r : α → α → Bool) : ℕ → List α → List (ℕ × α)
  | _, [] => []
  | i, [a] => [(i, a)]
  | i, a :: b :: l => (i, a) :: numbered r (if r a b then i else i + 1) (b :: l)

theorem le_of_mem_numbered {i : ℕ} {l : List α} : ∀ p ∈ numbered r i l, i ≤ p.1 := by
  induction l generalizing i with
  | nil => exact nofun
  | cons a l ih =>
    cases l with
    | nil => simp [numbered]
    | cons b l =>
      rw [numbered, List.forall_mem_cons]
      refine ⟨le_rfl, fun p hp => ?_⟩
      have hle := ih p hp
      split_ifs at hle <;> omega

/-- **The items of one number are a run.** -/
theorem numbered_filter (i k : ℕ) (l : List α) :
    ((numbered r i l).filter fun p => p.1 = i + k).map Prod.snd = (l.splitBy r)[k]?.getD [] := by
  induction l generalizing i k with
  | nil => rfl
  | cons a l ih =>
    cases l with
    | nil =>
      cases k with
      | zero => simp [numbered, splitBy_singleton]
      | succ k => simp [numbered, splitBy_singleton]
    | cons b l =>
      obtain ⟨run, runs, hruns⟩ := exists_splitBy_cons r b l
      rw [numbered, splitBy_cons_cons]
      split_ifs with h
      · cases k with
        | zero =>
          have ih := ih i 0
          rw [hruns, List.getElem?_cons_zero, Option.getD_some] at ih
          rw [List.filter_cons_of_pos (by simp), List.map_cons, ih, hruns]
          rfl
        | succ k =>
          rw [List.filter_cons_of_neg (by simp), ih i (k + 1), hruns]
          rfl
      · cases k with
        | zero =>
          have hnone : (numbered r (i + 1) (b :: l)).filter (fun p => p.1 = i + 0) = [] := by
            refine List.filter_eq_nil_iff.2 fun p hp => ?_
            have hle := le_of_mem_numbered p hp
            simp only [decide_eq_true_eq]
            omega
          rw [List.filter_cons_of_pos (by simp), List.map_cons, hnone]
          rfl
        | succ k =>
          rw [List.filter_cons_of_neg (by simp), List.getElem?_cons_succ, ← ih (i + 1) k]
          congr 2
          funext p
          congr 1
          exact propext (by omega)

/-! ## Dropping repeats, and sorting runs -/

theorem eq_of_map_eq {f : α → β} {l l' : List α} (h : l.map f = l'.map f)
    (hinj : ∀ a ∈ l, ∀ b ∈ l', f a = f b → a = b) : l = l' := by
  induction l generalizing l' with
  | nil => exact (List.map_eq_nil_iff.1 h.symm).symm
  | cons a l ih =>
    cases l' with
    | nil => cases h
    | cons b l' =>
      rw [List.map_cons, List.map_cons, List.cons.injEq] at h
      rw [hinj a List.mem_cons_self b List.mem_cons_self h.1,
        ih h.2 fun c hc d hd => hinj c (List.mem_cons_of_mem a hc) d (List.mem_cons_of_mem b hd)]

/-- **When two ways of cutting come to the same**: nothing repeats its
neighbour, the cuts fall alike, and neighbours in a run are in order. -/
theorem map_splitBy_destutter_iff [LinearOrder κ] {R : α → α → Prop} [DecidableRel R] {key : α → κ}
    {id : α → β} {l : List α} (hid : (l.map id).Nodup) :
    ((l.destutter R).splitBy r).map (List.map id) =
        (l.splitBy s).map (fun run => (sortBy key run).map id) ↔
      l.IsChain fun a b => R a b ∧ r a b = s a b ∧ (s a b = true → key a ≤ key b) := by
  have htrans : IsTrans α fun a b => key a ≤ key b := ⟨fun _ _ _ => le_trans⟩
  constructor
  · intro h
    have hlengths : ((l.destutter R).splitBy r).map List.length = (l.splitBy s).map List.length := by
      simpa [Function.comp_def] using congrArg (List.map List.length) h
    have hlength : (l.destutter R).length = l.length := by
      have hflat : ∀ (r : α → α → Bool) (l : List α), ((l.splitBy r).map List.length).sum = l.length :=
        fun r l => by rw [← List.length_flatten, List.flatten_splitBy]
      rw [← hflat r, hlengths, hflat s]
    have hself : l.destutter R = l := (List.destutter_sublist R l).eq_of_length hlength
    rw [hself] at h hlengths
    have hcuts := isChain_of_length_splitBy hlengths
    rw [splitBy_congr hcuts] at h
    have hsorted : ∀ run ∈ l.splitBy s, run.IsChain fun a b => key a ≤ key b := by
      intro run hrun
      have hsub : run.Sublist l := by
        simpa using List.sublist_flatten_of_mem hrun
      have hmap : run.map id = (sortBy key run).map id := List.map_inj_left.1 h run hrun
      have hinj := List.inj_on_of_nodup_map hid
      have hrun : run = sortBy key run := eq_of_map_eq hmap fun a ha b hb hab =>
        hinj (hsub.mem ha) (hsub.mem (mem_sortBy.1 hb)) hab
      rw [hrun]
      exact (pairwise_sortBy key run).isChain
    have hrepeats := (List.destutter_eq_self_iff R l).1 hself
    have hordered := isChain_splitBy_iff.1 hsorted
    rw [List.isChain_iff_forall_rel_of_append_cons_cons] at hrepeats hcuts hordered ⊢
    intro a b l₁ l₂ hl
    exact ⟨hrepeats hl, hcuts hl, hordered hl⟩
  · intro h
    have hself : l.destutter R = l := List.destutter_of_isChain R l (h.imp fun _ _ h => h.1)
    rw [hself, splitBy_congr (h.imp fun _ _ h => h.2.1)]
    refine List.map_congr_left fun run hrun => ?_
    have hchain := isChain_splitBy_iff.2 (h.imp fun _ _ h => h.2.2) run hrun
    rw [sortBy_of_pairwise (List.isChain_iff_pairwise.1 hchain)]

end Lakehouse
