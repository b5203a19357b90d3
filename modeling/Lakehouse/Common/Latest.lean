import Lakehouse.Common.Greatest
/-!
# The latest value of a field

Items come in some order of arrival and carry a place in another order. A
field that only some of them have is left, by a loop that overwrites it, at
the value of the last item that has it (`lastValue`); its latest value is
that of the greatest item that has it (`IsLatest`). The two are one in a
listing in order (`isLatest_lastValue_of_pairwise`), and where the items
agree on the field every listing leaves the same (`lastValue_perm`).
-/

namespace Lakehouse

variable {α β γ κ : Type} [LinearOrder κ] {order : α → κ} {f : α → Option β} {l l' : List α} {x : α}
  {v v' : Option β}

/-- The value of a field in the last item that has it. -/
def lastValue (f : α → Option β) (l : List α) : Option β := (l.filterMap f).getLast?

/-- An empty list has no last value. -/
@[simp] theorem lastValue_nil : lastValue f [] = none := rfl

/-- The last value is that of the last item that has one. -/
theorem lastValue_concat (f : α → Option β) (l : List α) (x : α) :
    lastValue f (l ++ [x]) = (f x <|> lastValue f l) := by
  cases hx : f x with
  | none => simp [lastValue, hx]
  | some b => simp [lastValue, hx]

/-- There is no last value where no item has one. -/
theorem lastValue_eq_none : lastValue f l = none ↔ ∀ x ∈ l, f x = none := by
  rw [lastValue, List.getLast?_eq_none_iff, List.filterMap_eq_nil_iff]

/-- A last value is that of some item. -/
theorem mem_of_lastValue {b : β} (h : lastValue f l = some b) : ∃ x ∈ l, f x = some b :=
  List.mem_filterMap.1 (List.mem_of_getLast? h)

/-- **The latest value of a field**: that of the greatest item that has it. -/
def IsLatest (order : α → κ) (f : α → Option β) (l : List α) : Option β → Prop
  | none => ∀ x ∈ l, f x = none
  | some b => ∃ x ∈ l, f x = some b ∧ ∀ y ∈ l, f y ≠ none → order y ≤ order x

namespace IsLatest

/-- An empty list has no latest value. -/
theorem nil : IsLatest order f [] none := List.forall_mem_nil _

/-- No two items are in one place, so a field has one latest value. -/
theorem unique (hinj : ∀ x ∈ l, ∀ y ∈ l, order x = order y → x = y) (h : IsLatest order f l v)
    (h' : IsLatest order f l v') : v = v' := by
  cases v with
  | none =>
    cases v' with
    | none => rfl
    | some b' =>
      obtain ⟨x, hx, hfx, -⟩ := h'
      exact absurd (h x hx) (by simp [hfx])
  | some b =>
    obtain ⟨x, hx, hfx, hmax⟩ := h
    cases v' with
    | none => exact absurd (h' x hx) (by simp [hfx])
    | some b' =>
      obtain ⟨y, hy, hfy, hmax'⟩ := h'
      have hle := hmax y hy (by simp [hfy])
      have hge := hmax' x hx (by simp [hfx])
      have hxy := hinj x hx y hy (le_antisymm hge hle)
      rw [← hfx, ← hfy, hxy]

/-- An item without the field changes nothing. -/
theorem concat_none {y : α} (h : IsLatest order f l v) (hy : f y = none) :
    IsLatest order f (l ++ [y]) v := by
  have hsplit : ∀ {x}, x ∈ l ++ [y] → f x ≠ none → x ∈ l := by
    intro x hx hne
    obtain hx | hx := List.mem_append.1 hx
    · exact hx
    · exact absurd hy (List.mem_singleton.1 hx ▸ hne)
  cases v with
  | none =>
    intro x hx
    by_contra hne
    exact hne (h x (hsplit hx hne))
  | some b =>
    obtain ⟨x, hx, hfx, hmax⟩ := h
    exact ⟨x, List.mem_append_left _ hx, hfx, fun z hz hne => hmax z (hsplit hz hne) hne⟩

end IsLatest

/-- Any two items that have the field agree on it. -/
def AgreesOn (f : α → Option β) (l : List α) : Prop :=
  ∀ x ∈ l, ∀ y ∈ l, ∀ b c, f x = some b → f y = some c → b = c

/-- **In a listing in order**, the last value is the latest. -/
theorem isLatest_lastValue_of_pairwise (h : l.Pairwise fun x y => order x ≤ order y) :
    IsLatest order f l (lastValue f l) := by
  induction l using List.reverseRecOn with
  | nil => exact IsLatest.nil
  | append_singleton l y ih =>
    rw [lastValue_concat]
    obtain ⟨hl, -, hle⟩ := List.pairwise_append.1 h
    have hy : ∀ x ∈ l ++ [y], order x ≤ order y := by
      intro x hx
      obtain hx | hx := List.mem_append.1 hx
      · exact hle x hx y (List.mem_singleton_self y)
      · rw [List.mem_singleton.1 hx]
    cases hfy : f y with
    | some b => exact ⟨y, by simp, hfy, fun x hx _ => hy x hx⟩
    | none => exact (ih hl).concat_none hfy

/-- **Items that agree** leave a field at one value, in whatever order they
come. -/
theorem lastValue_perm (hp : l.Perm l') (h : AgreesOn f l) : lastValue f l = lastValue f l' := by
  cases hlast : lastValue f l with
  | none => exact (lastValue_eq_none.2 fun x hx => lastValue_eq_none.1 hlast x (hp.mem_iff.2 hx)).symm
  | some b =>
    obtain ⟨x, hx, hfx⟩ := mem_of_lastValue hlast
    cases hlast' : lastValue f l' with
    | none => exact absurd (lastValue_eq_none.1 hlast' x (hp.mem_iff.1 hx)) (by simp [hfx])
    | some c =>
      obtain ⟨y, hy, hfy⟩ := mem_of_lastValue hlast'
      rw [h x hx y (hp.mem_iff.2 hy) b c hfx hfy]

end Lakehouse
