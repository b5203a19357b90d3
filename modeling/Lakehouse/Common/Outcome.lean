import Mathlib.Data.List.Basic
import Mathlib.Data.List.Forall2
/-!
# Computations that may raise

Inversion rules for `Except`, `OnlyRaises`, which bounds the exceptions of
a computation, `Alike`, which compares two, and `collect`, which runs a list
of computations from left to right and stops at the first that raises.
-/

namespace Lakehouse

variable {ε α β : Type}

/-- A sequence returns exactly when both of its parts do. -/
theorem bind_eq_ok {x : Except ε α} {f : α → Except ε β} {b : β} :
    (x >>= f) = .ok b ↔ ∃ a, x = .ok a ∧ f a = .ok b := by
  cases x with
  | error e => exact ⟨nofun, fun ⟨_, h, _⟩ => nomatch h⟩
  | ok a => exact ⟨fun h => ⟨a, rfl, h⟩, fun ⟨_, h, hf⟩ => by cases h; exact hf⟩

/-- What a sequence raises, one of its parts raises. -/
theorem bind_eq_error {x : Except ε α} {f : α → Except ε β} {e : ε} :
    (x >>= f) = .error e ↔ x = .error e ∨ ∃ a, x = .ok a ∧ f a = .error e := by
  cases x with
  | error e' => exact ⟨fun h => .inl (by cases h; rfl), fun h => by
      rcases h with h | ⟨_, h, -⟩
      · cases h; rfl
      · cases h⟩
  | ok a => exact ⟨fun h => .inr ⟨a, rfl, h⟩, fun h => by
      rcases h with h | ⟨_, h, hf⟩
      · cases h
      · cases h; exact hf⟩

/-- `pure` is a return. -/
@[simp] theorem pure_eq_ok (a : α) : (pure a : Except ε α) = .ok a := rfl

/-- A return hands its value on. -/
@[simp] theorem ok_bind (a : α) (f : α → Except ε β) : (Except.ok a >>= f) = f a := rfl

/-- An error ends the computation. -/
@[simp] theorem error_bind (e : ε) (f : α → Except ε β) : (Except.error e >>= f) = .error e := rfl

/-- `if c then raise` falls through exactly when `c` fails. -/
theorem guard_eq_ok {c : Prop} [Decidable c] {e : ε} {x : Except ε α} {a : α} :
    (if c then .error e else x) = .ok a ↔ ¬c ∧ x = .ok a := by
  split_ifs with h <;> simp [h]

/-- The value of a computation is the one it returns. -/
theorem toOption_eq_some {x : Except ε α} {a : α} : x.toOption = some a ↔ x = .ok a := by
  cases x with
  | error e => exact ⟨nofun, nofun⟩
  | ok b => exact ⟨fun h => congrArg Except.ok (Option.some.inj h), fun h => by cases h; rfl⟩

/-- What a test of a result says. -/
theorem exists_of_any {x : Except ε α} {p : α → Bool}
    (h : x.toOption.any p = true) : ∃ a, x = .ok a ∧ p a = true := by
  cases x with
  | error e => cases h
  | ok a => exact ⟨a, rfl, h⟩

/-! ## What a computation may raise -/

/-- **A computation raises nothing else.** -/
def OnlyRaises (E : ε → Prop) (x : Except ε α) : Prop := ∀ e, x = .error e → E e

namespace OnlyRaises

variable {E E' : ε → Prop} {x : Except ε α}

/-- A return raises nothing. -/
theorem ok (a : α) : OnlyRaises E (.ok a : Except ε α) := nofun

/-- An error of the kind is one. -/
theorem error {e : ε} (h : E e) : OnlyRaises E (.error e : Except ε α) := by
  rintro _ ⟨⟩
  exact h

/-- A wider kind of errors admits what a narrower one does. -/
theorem mono (hE : ∀ e, E e → E' e) (hx : OnlyRaises E x) : OnlyRaises E' x :=
  fun e he => hE e (hx e he)

/-- What follows a computation runs where that returned. -/
theorem bind {f : α → Except ε β} (hx : OnlyRaises E x)
    (hf : ∀ a, x = .ok a → OnlyRaises E (f a)) : OnlyRaises E (x >>= f) := by
  intro e he
  obtain h | ⟨a, ha, h⟩ := bind_eq_error.1 he
  · exact hx e h
  · exact hf a ha e h

end OnlyRaises

/-- **What a sequence may raise**, its parts may. -/
theorem onlyRaises_bind_iff {E : ε → Prop} {x : Except ε α} {f : α → Except ε β} :
    OnlyRaises E (x >>= f) ↔ OnlyRaises E x ∧ ∀ a, x = .ok a → OnlyRaises E (f a) := by
  refine ⟨fun h => ⟨fun e he => ?_, fun a ha e he => ?_⟩, fun h => h.1.bind h.2⟩
  · exact h e (bind_eq_error.2 (.inl he))
  · exact h e (bind_eq_error.2 (.inr ⟨a, ha, he⟩))

/-! ## Two computations -/

/-- **Both raise, or both return, related results.** -/
inductive Alike (R : α → β → Prop) : Except ε α → Except ε β → Prop
  | ok {a : α} {b : β} : R a b → Alike R (.ok a) (.ok b)
  | error {e e' : ε} : Alike R (.error e) (.error e')

namespace Alike

variable {R : α → β → Prop} {x : Except ε α} {y : Except ε β}

/-- A computation is alike to itself. -/
theorem refl (x : Except ε α) : Alike Eq x x := by
  cases x with
  | ok a => exact .ok rfl
  | error e => exact .error

/-- Equal computations are alike. -/
theorem of_eq {x y : Except ε α} (h : x = y) : Alike Eq x y := h ▸ refl x

/-- A weaker relation of the values keeps the outcomes alike. -/
theorem mono {S : α → β → Prop} (hRS : ∀ a b, R a b → S a b) (h : Alike R x y) : Alike S x y := by
  cases h with
  | ok h => exact .ok (hRS _ _ h)
  | error => exact .error

/-- Computations alike, followed by computations alike. -/
theorem bind {α' β' : Type} {S : α' → β' → Prop} {f : α → Except ε α'} {g : β → Except ε β'}
    (h : Alike R x y) (hf : ∀ a b, R a b → Alike S (f a) (g b)) : Alike S (x >>= f) (y >>= g) := by
  cases h with
  | ok h => exact hf _ _ h
  | error => exact .error

/-- What agrees on one computation. -/
theorem bind_same {α' β' : Type} {S : α' → β' → Prop} (x : Except ε α) {f : α → Except ε α'}
    {g : α → Except ε β'} (hf : ∀ a, Alike S (f a) (g a)) : Alike S (x >>= f) (x >>= g) :=
  (refl x).bind fun a _ h => h ▸ hf a

end Alike

/-! ## Lists of computations -/

/-- The results of a list of computations, or the first exception. -/
def collect : List (Except ε α) → Except ε (List α)
  | [] => .ok []
  | x :: xs => do
    let a ← x
    let as ← collect xs
    return a :: as

/-- Nothing is collected from nothing. -/
@[simp] theorem collect_nil : collect ([] : List (Except ε α)) = .ok [] := rfl

/-- A list is collected where its head returns and its tail is. -/
theorem collect_cons_eq_ok {x : Except ε α} {xs : List (Except ε α)} {l : List α} :
    collect (x :: xs) = .ok l ↔ ∃ a as, x = .ok a ∧ collect xs = .ok as ∧ l = a :: as := by
  rw [collect]
  constructor
  · intro h
    obtain ⟨a, ha, h⟩ := bind_eq_ok.1 h
    obtain ⟨as, has, h⟩ := bind_eq_ok.1 h
    cases h
    exact ⟨a, as, ha, has, rfl⟩
  · rintro ⟨a, as, rfl, has, rfl⟩
    simp [has]

/-- **A collection returns exactly when all its parts do.** -/
theorem collect_eq_ok {xs : List (Except ε α)} {l : List α} :
    collect xs = .ok l ↔ List.Forall₂ (fun x a => x = .ok a) xs l := by
  induction xs generalizing l with
  | nil =>
    rw [collect_nil, List.forall₂_nil_left_iff]
    exact ⟨fun h => by cases h; rfl, fun h => by rw [h]⟩
  | cons x xs ih =>
    rw [collect_cons_eq_ok, List.forall₂_cons_left_iff]
    constructor
    · rintro ⟨a, as, hx, has, rfl⟩
      exact ⟨a, as, hx, ih.1 has, rfl⟩
    · rintro ⟨a, as, hx, has, rfl⟩
      exact ⟨a, as, hx, ih.2 has, rfl⟩

/-- What is on the right of a pointwise relation has its left. -/
theorem exists_of_forall₂ {R : α → β → Prop} {as : List α} {bs : List β}
    (h : List.Forall₂ R as bs) {b : β} (hb : b ∈ bs) : ∃ a ∈ as, R a b := by
  induction h with
  | nil => cases hb
  | @cons a b' _ _ hab _ ih =>
    obtain rfl | hb := List.mem_cons.1 hb
    · exact ⟨a, List.mem_cons_self, hab⟩
    · obtain ⟨a', ha', hab'⟩ := ih hb
      exact ⟨a', List.mem_cons_of_mem _ ha', hab'⟩

/-- What a left determines of its right, a list of lefts does. -/
theorem forall₂_map_eq {γ : Type} {R : α → β → Prop} {f : β → γ} {as : List α} {bs bs' : List β}
    (hf : ∀ a b b', R a b → R a b' → f b = f b') (h : List.Forall₂ R as bs)
    (h' : List.Forall₂ R as bs') : bs.map f = bs'.map f := by
  induction h generalizing bs' with
  | nil =>
    cases h'
    rfl
  | cons hab _ ih =>
    cases h' with
    | cons hab' h' => rw [List.map_cons, List.map_cons, hf _ _ _ hab hab', ih h']

/-- A result of a collection is that of one of its parts. -/
theorem mem_of_collect {xs : List (Except ε α)} {l : List α} (h : collect xs = .ok l) {a : α}
    (ha : a ∈ l) : Except.ok a ∈ xs := by
  obtain ⟨x, hx, rfl⟩ := exists_of_forall₂ (collect_eq_ok.1 h) ha
  exact hx

/-- Where each call returns a known value, those are collected. -/
theorem collect_map_eq_ok {f : β → Except ε α} {g : β → α} {xs : List β}
    (h : ∀ x ∈ xs, f x = .ok (g x)) : collect (xs.map f) = .ok (xs.map g) := by
  rw [collect_eq_ok, List.forall₂_map_left_iff, List.forall₂_map_right_iff, List.forall₂_same]
  exact h

/-- Where every call returns, the values are collected. -/
theorem exists_collect_map {f : β → Except ε α} {xs : List β} (h : ∀ x ∈ xs, ∃ a, f x = .ok a) :
    ∃ l, collect (xs.map f) = .ok l := by
  induction xs with
  | nil => exact ⟨[], rfl⟩
  | cons x xs ih =>
    obtain ⟨a, ha⟩ := h x List.mem_cons_self
    obtain ⟨as, has⟩ := ih fun y hy => h y (List.mem_cons_of_mem x hy)
    exact ⟨a :: as, collect_cons_eq_ok.2 ⟨a, as, ha, has, rfl⟩⟩

/-- What is collected is what the parts return. -/
theorem forall_of_collect {f : β → Except ε α} {xs : List β} {l : List α}
    (h : collect (xs.map f) = .ok l) : ∀ x ∈ xs, ∃ a, f x = .ok a := by
  intro x hx
  rw [collect_eq_ok, List.forall₂_map_left_iff] at h
  obtain ⟨a, -, ha⟩ := exists_of_forall₂ h.flip hx
  exact ⟨a, ha⟩

/-- A part of a collection is the collection of a part. -/
theorem collect_map_filter {f : β → Except ε α} {xs : List β} {l : List α}
    {p : β → Bool} {q : α → Bool} (h : collect (xs.map f) = .ok l)
    (hpq : ∀ x ∈ xs, ∀ a, f x = .ok a → p x = q a) :
    collect ((xs.filter p).map f) = .ok (l.filter q) := by
  rw [collect_eq_ok, List.forall₂_map_left_iff] at h ⊢
  induction h with
  | nil => exact .nil
  | @cons x a xs l hx _ ih =>
    have hxa := hpq x List.mem_cons_self a hx
    have ih := ih fun y hy => hpq y (List.mem_cons_of_mem x hy)
    cases hp : p x with
    | true =>
      rw [List.filter_cons_of_pos hp, List.filter_cons_of_pos (hxa ▸ hp)]
      exact .cons hx ih
    | false =>
      rw [List.filter_cons_of_neg (by simp [hp]), List.filter_cons_of_neg (by simp [← hxa, hp])]
      exact ih

/-- A fold whose steps return returns. -/
theorem foldlM_isOk {f : β → α → Except ε β} {as : List α}
    (h : ∀ a ∈ as, ∀ b, ∃ b', f b a = .ok b') (b : β) : ∃ b', as.foldlM f b = .ok b' := by
  induction as generalizing b with
  | nil => exact ⟨b, rfl⟩
  | cons a as ih =>
    obtain ⟨b', hb'⟩ := h a List.mem_cons_self b
    rw [List.foldlM_cons, hb', ok_bind]
    exact ih (fun c hc => h c (List.mem_cons_of_mem a hc)) b'

/-- Two maps that make one list agree on its items. -/
theorem collect_map_inj {f g : β → Except ε α} {xs : List β} {l : List α}
    (hf : collect (xs.map f) = .ok l) (hg : collect (xs.map g) = .ok l) {x : β} (hx : x ∈ xs) :
    f x = g x ∧ ∃ a, g x = .ok a := by
  rw [collect_eq_ok, List.forall₂_map_left_iff] at hf hg
  induction xs generalizing l with
  | nil => cases hx
  | cons y xs ih =>
    cases hf with
    | cons hfy hf =>
      cases hg with
      | cons hgy hg =>
        obtain rfl | hx := List.mem_cons.1 hx
        · exact ⟨hfy.trans hgy.symm, _, hgy⟩
        · exact ih hf hg hx

/-- **A collection raises what its parts do**, where they all raise the same. -/
theorem collect_map_eq_error {f : β → Except ε α} {e : ε} {xs : List β}
    (h : ∀ x ∈ xs, (∃ a, f x = .ok a) ∨ f x = .error e) (hx : ∃ x ∈ xs, f x = .error e) :
    collect (xs.map f) = .error e := by
  induction xs with
  | nil => exact absurd hx (by simp)
  | cons x xs ih =>
    rw [List.map_cons, collect]
    obtain ⟨a, ha⟩ | he := h x List.mem_cons_self
    · have hxs : ∃ y ∈ xs, f y = .error e := by
        obtain ⟨y, hy, hye⟩ := hx
        obtain rfl | hy := List.mem_cons.1 hy
        · rw [ha] at hye
          cases hye
        · exact ⟨y, hy, hye⟩
      rw [ha, ok_bind, ih (fun y hy => h y (List.mem_cons_of_mem x hy)) hxs, error_bind]
    · rw [he, error_bind]

/-- Lists of computations alike. -/
theorem Alike.collect {R : α → β → Prop} {xs : List (Except ε α)} {ys : List (Except ε β)}
    (h : List.Forall₂ (Alike R) xs ys) :
    Alike (List.Forall₂ R) (collect xs) (collect ys) := by
  induction h with
  | nil => exact .ok .nil
  | cons hxy _ ih => exact hxy.bind fun _ _ ha => ih.bind fun _ _ has => .ok (.cons ha has)

/-- Collecting raises only what the computations do. -/
theorem OnlyRaises.collect {E : ε → Prop} {xs : List (Except ε α)}
    (h : ∀ x ∈ xs, OnlyRaises E x) : OnlyRaises E (collect xs) := by
  induction xs with
  | nil => exact .ok _
  | cons x xs ih =>
    refine .bind (h x List.mem_cons_self) fun a _ => .bind ?_ fun as _ => .ok _
    exact ih fun y hy => h y (List.mem_cons_of_mem _ hy)

end Lakehouse
