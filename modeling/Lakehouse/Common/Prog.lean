import Mathlib.Logic.Relation
import Mathlib.Logic.Function.Basic
/-!
# Programs over atomic operations

A program is a tree of calls: each node names an atomic operation on
shared state and continues with what the operation answered, a value or
an exception. One program text then has three readings. `Prog.run` runs
it alone against a handler that never fails on its own. `Prog.Steps`
runs it in a setting where an operation may answer anything its relation
allows and where other parties move between two calls. `Fleet.Step`
interleaves any number of programs over one state.

`Prog.Meets` is the weakest precondition of the second reading: it is
closed under what the others do, it holds what must be true at every
point the program may be stopped at, and it passes from a program to the
whole fleet (`Fleet.meets`). `Prog.Obeys` is for what needs no knowledge
of the state: the transitions a program makes from whatever state it is
called in.
-/

namespace Lakehouse

/-- **A program over atomic operations.** An operation's exception is
handed to the continuation, so that a `try` block can catch it. -/
inductive Prog (Op : Type) (Res : Op → Type) (ε α : Type) where
  | ret (a : α)
  | raise (e : ε)
  | call (o : Op) (k : Except ε (Res o) → Prog Op Res ε α)

namespace Prog

variable {Op : Type} {Res : Op → Type} {ε α β γ σ : Type}

/-- Sequential composition. -/
def bind : Prog Op Res ε α → (α → Prog Op Res ε β) → Prog Op Res ε β
  | ret a, f => f a
  | raise e, _ => raise e
  | call o k, f => call o fun r => (k r).bind f

instance : Monad (Prog Op Res ε) where
  pure := ret
  bind := bind

/-- `try p except e: h e`. -/
def orElse : Prog Op Res ε α → (ε → Prog Op Res ε α) → Prog Op Res ε α
  | ret a, _ => ret a
  | raise e, h => h e
  | call o k, h => call o fun r => (k r).orElse h

/-- `try: p finally: c`. What `c` raises replaces what `p` ended with. -/
def andFinally : Prog Op Res ε α → Prog Op Res ε Unit → Prog Op Res ε α
  | ret a, c => c.bind fun _ => ret a
  | raise e, c => c.bind fun _ => raise e
  | call o k, c => call o fun r => (k r).andFinally c

/-- A pure computation that may raise. -/
def lift : Except ε α → Prog Op Res ε α
  | .ok a => ret a
  | .error e => raise e

/-- One operation, its exception raised. -/
def op (o : Op) : Prog Op Res ε (Res o) := call o lift

/-- `pure` is a program that has returned. -/
@[simp] theorem pure_eq (a : α) : (pure a : Prog Op Res ε α) = ret a := rfl

/-- What follows a program that has returned. -/
@[simp] theorem ret_bind (a : α) (f : α → Prog Op Res ε β) : (ret a >>= f) = f a := rfl

/-- Nothing follows a program that has raised. -/
@[simp] theorem raise_bind (e : ε) (f : α → Prog Op Res ε β) : (raise e >>= f) = raise e := rfl

/-- What follows a call follows its answers. -/
@[simp] theorem call_bind (o : Op) (k : Except ε (Res o) → Prog Op Res ε α)
    (f : α → Prog Op Res ε β) : (call o k >>= f) = call o fun r => k r >>= f := rfl

/-- A result that is one returns. -/
@[simp] theorem lift_ok (a : α) : (lift (.ok a) : Prog Op Res ε α) = ret a := rfl

/-- A result that is an error raises. -/
@[simp] theorem lift_error (e : ε) : (lift (.error e) : Prog Op Res ε α) = raise e := rfl

/-- Sequencing is associative. -/
theorem bind_assoc (p : Prog Op Res ε α) (f : α → Prog Op Res ε β)
    (g : β → Prog Op Res ε γ) : ((p >>= f) >>= g) = (p >>= fun a => f a >>= g) := by
  induction p with
  | ret a => rfl
  | raise e => rfl
  | call o k ih => exact congrArg (call o) (funext ih)

/-- Returning the result is the program itself. -/
theorem bind_pure (p : Prog Op Res ε α) : (p >>= ret) = p := by
  induction p with
  | ret a => rfl
  | raise e => rfl
  | call o k ih => exact congrArg (call o) (funext ih)

/-- What a program that has ended raised. -/
def raised : Prog Op Res ε α → Option ε
  | raise e => some e
  | _ => none

/-- A program that has raised an error is that. -/
theorem eq_raise {p : Prog Op Res ε α} {e : ε} (h : p.raised = some e) : p = raise e := by
  cases p with
  | raise e' => exact congrArg raise (Option.some.inj h)
  | ret _ | call _ _ => cases h

/-- What a program that has ended returned. -/
def returned : Prog Op Res ε α → Option α
  | ret a => some a
  | _ => none

/-- A program that has returned a value is that. -/
theorem eq_ret {p : Prog Op Res ε α} {a : α} (h : p.returned = some a) : p = ret a := by
  cases p with
  | ret a' => exact congrArg ret (Option.some.inj h)
  | raise _ | call _ _ => cases h

/-! ## A program alone -/

/-- What an operation does when nothing interferes. -/
abbrev Handler (Op : Type) (Res : Op → Type) (ε σ : Type) : Type :=
  (o : Op) → σ → Except ε (Res o) × σ

variable (h : Handler Op Res ε σ)

/-- The program run to its end against a handler. -/
def run : Prog Op Res ε α → σ → Except ε α × σ
  | ret a, s => (.ok a, s)
  | raise e, s => (.error e, s)
  | call o k, s => (k (h o s).1).run (h o s).2

/-- The state a program leaves that is stopped after some operations. -/
def stopAfter : Nat → Prog Op Res ε α → σ → σ
  | n + 1, call o k, s => stopAfter n (k (h o s).1) (h o s).2
  | _, _, s => s

/-- A program that has returned changes nothing. -/
@[simp] theorem run_ret (a : α) (s : σ) : (ret a : Prog Op Res ε α).run h s = (.ok a, s) := rfl

/-- A program that has raised changes nothing. -/
@[simp] theorem run_raise (e : ε) (s : σ) :
    (raise e : Prog Op Res ε α).run h s = (.error e, s) := rfl

/-- A call runs its operation, then what its answer is followed by. -/
theorem run_call (o : Op) (k : Except ε (Res o) → Prog Op Res ε α) (s : σ) :
    (call o k).run h s = (k (h o s).1).run h (h o s).2 := rfl

/-- What follows a program runs where it ended. -/
theorem run_bind (p : Prog Op Res ε α) (f : α → Prog Op Res ε β) (s : σ) :
    (p >>= f).run h s = match p.run h s with
      | (.ok a, t) => (f a).run h t
      | (.error e, t) => (.error e, t) := by
  induction p generalizing s with
  | ret a => rfl
  | raise e => rfl
  | call o k ih => exact ih _ _

/-- A handled program runs as itself unless it raises. -/
theorem run_orElse (p : Prog Op Res ε α) (g : ε → Prog Op Res ε α) (s : σ) :
    (p.orElse g).run h s = match p.run h s with
      | (.ok a, t) => (.ok a, t)
      | (.error e, t) => (g e).run h t := by
  induction p generalizing s with
  | ret a => rfl
  | raise e => rfl
  | call o k ih => exact ih _ _

/-- What follows runs from where the first part returned. -/
theorem run_bind_ok {p : Prog Op Res ε α} {f : α → Prog Op Res ε β} {s t : σ} {a : α}
    (hp : p.run h s = (.ok a, t)) : (p >>= f).run h s = (f a).run h t := by
  rw [run_bind, hp]

/-- What the first part raises is raised. -/
theorem run_bind_error {p : Prog Op Res ε α} {f : α → Prog Op Res ε β} {s t : σ} {e : ε}
    (hp : p.run h s = (.error e, t)) : (p >>= f).run h s = (.error e, t) := by
  rw [run_bind, hp]

/-- **A sequence that returns**: both of its parts have. -/
theorem run_bind_eq_ok {p : Prog Op Res ε α} {f : α → Prog Op Res ε β} {s u : σ} {b : β}
    (hp : (p >>= f).run h s = (.ok b, u)) :
    ∃ a t, p.run h s = (.ok a, t) ∧ (f a).run h t = (.ok b, u) := by
  rw [run_bind] at hp
  split at hp
  · rename_i a t hpa
    exact ⟨a, t, hpa, hp⟩
  · cases hp

/-- A handled program that returns: it did, or its handler has. -/
theorem run_orElse_eq_ok {p : Prog Op Res ε α} {g : ε → Prog Op Res ε α} {s u : σ} {b : α}
    (hp : (p.orElse g).run h s = (.ok b, u)) :
    p.run h s = (.ok b, u) ∨ ∃ e t, p.run h s = (.error e, t) ∧ (g e).run h t = (.ok b, u) := by
  rw [run_orElse] at hp
  split at hp
  · rename_i a t hpa
    exact Or.inl (hpa.trans hp)
  · rename_i e t hpe
    exact Or.inr ⟨e, t, hpe, hp⟩

/-- A result is its own run. -/
@[simp] theorem run_lift (x : Except ε α) (s : σ) :
    (lift x : Prog Op Res ε α).run h s = (x, s) := by
  cases x <;> rfl

/-- One operation is run by the handler. -/
@[simp] theorem run_op (o : Op) (s : σ) : (op o : Prog Op Res ε (Res o)).run h s = h o s := by
  change (lift (h o s).1).run h (h o s).2 = h o s
  rw [run_lift]

end Prog

namespace Prog

variable {Op : Type} {Res : Op → Type} {ε α β σ : Type} {h : Handler Op Res ε σ}

/-- A program stopped after an operation and so many more. -/
theorem stopAfter_op_bind {o : Op} {f : Res o → Prog Op Res ε α} {s t : σ} {a : Res o}
    (ho : h o s = (.ok a, t)) (n : Nat) :
    (op o >>= f).stopAfter h (n + 1) s = (f a).stopAfter h n t := by
  change (lift (h o s).1 >>= f).stopAfter h n (h o s).2 = _
  rw [ho]
  rfl

/-- A pure computation that returns, in a sequence. -/
theorem run_lift_bind_eq_ok {x : Except ε α} {f : α → Prog Op Res ε β} {s u : σ} {b : β}
    (hp : (lift x >>= f).run h s = (.ok b, u)) :
    ∃ a, x = .ok a ∧ (f a).run h s = (.ok b, u) := by
  obtain ⟨a, t, ha, hf⟩ := run_bind_eq_ok h hp
  rw [run_lift] at ha
  cases ha
  exact ⟨a, rfl, hf⟩

end Prog

/-! ## A program alone, whatever its operations answer -/

namespace Prog

variable {Op : Type} {Res : Op → Type} {ε α β σ : Type}

/-- **Where a program alone may end**: with what it returns or raises, and
in which state. -/
inductive Ends (sem : (o : Op) → σ → Except ε (Res o) → σ → Prop) :
    Prog Op Res ε α → σ → Except ε α → σ → Prop
  | ret {a : α} {s : σ} : Ends sem (ret a) s (.ok a) s
  | raise {e : ε} {s : σ} : Ends sem (raise e) s (.error e) s
  | call {o : Op} {k : Except ε (Res o) → Prog Op Res ε α} {s t u : σ} {r : Except ε (Res o)}
      {x : Except ε α} : sem o s r t → Ends sem (k r) t x u → Ends sem (call o k) s x u

variable {sem : (o : Op) → σ → Except ε (Res o) → σ → Prop} {s u : σ}

/-- How a program that has returned ends. -/
theorem ends_ret {a : α} {x : Except ε α} :
    Ends sem (ret a : Prog Op Res ε α) s x u ↔ x = .ok a ∧ u = s := by
  constructor
  · rintro ⟨⟩
    exact ⟨rfl, rfl⟩
  · rintro ⟨rfl, rfl⟩
    exact .ret

/-- How a program that has raised ends. -/
theorem ends_raise {e : ε} {x : Except ε α} :
    Ends sem (raise e : Prog Op Res ε α) s x u ↔ x = .error e ∧ u = s := by
  constructor
  · rintro ⟨⟩
    exact ⟨rfl, rfl⟩
  · rintro ⟨rfl, rfl⟩
    exact .raise

/-- How a result ends. -/
theorem ends_lift {x y : Except ε α} :
    Ends sem (lift x : Prog Op Res ε α) s y u ↔ y = x ∧ u = s := by
  cases x with
  | ok a => exact ends_ret
  | error e => exact ends_raise

/-- How one operation ends. -/
theorem ends_op {o : Op} {x : Except ε (Res o)} :
    Ends sem (op o : Prog Op Res ε (Res o)) s x u ↔ sem o s x u := by
  constructor
  · rintro (_ | _ | ⟨hsem, h⟩)
    obtain ⟨rfl, rfl⟩ := ends_lift.1 h
    exact hsem
  · exact fun h => .call h (ends_lift.2 ⟨rfl, rfl⟩)

/-- A sequence ends where its second part does, or raises with its
first. -/
theorem ends_bind {p : Prog Op Res ε α} {f : α → Prog Op Res ε β} {x : Except ε β}
    (h : Ends sem (p >>= f) s x u) :
    (∃ a t, Ends sem p s (.ok a) t ∧ Ends sem (f a) t x u) ∨
      ∃ e, x = .error e ∧ Ends sem p s (.error e) u := by
  induction p generalizing s with
  | ret a => exact Or.inl ⟨a, s, .ret, h⟩
  | raise e =>
    obtain ⟨rfl, rfl⟩ := ends_raise.1 h
    exact Or.inr ⟨e, rfl, .raise⟩
  | call o k ih =>
    obtain _ | _ | ⟨hsem, h⟩ := h
    obtain ⟨a, t, hp, hf⟩ | ⟨e, rfl, hp⟩ := ih _ h
    · exact Or.inl ⟨a, t, .call hsem hp, hf⟩
    · exact Or.inr ⟨e, rfl, .call hsem hp⟩

/-- A sequence that returns has returned in both parts. -/
theorem ends_bind_ok {p : Prog Op Res ε α} {f : α → Prog Op Res ε β} {b : β}
    (h : Ends sem (p >>= f) s (.ok b) u) :
    ∃ a t, Ends sem p s (.ok a) t ∧ Ends sem (f a) t (.ok b) u := by
  obtain h | ⟨e, he, -⟩ := ends_bind h
  · exact h
  · cases he

/-- A result is followed, or is the error raised. -/
theorem ends_lift_bind {x : Except ε α} {f : α → Prog Op Res ε β} {y : Except ε β}
    (h : Ends sem (lift x >>= f) s y u) :
    (∃ a, x = .ok a ∧ Ends sem (f a) s y u) ∨ ∃ e, x = .error e ∧ y = .error e ∧ u = s := by
  cases x with
  | ok a => exact Or.inl ⟨a, rfl, h⟩
  | error e =>
    obtain ⟨rfl, rfl⟩ := ends_raise.1 h
    exact Or.inr ⟨e, rfl, rfl, rfl⟩

/-- A handler runs exactly where the first part raised. -/
theorem ends_orElse {p : Prog Op Res ε α} {g : ε → Prog Op Res ε α} {x : Except ε α}
    (h : Ends sem (p.orElse g) s x u) :
    (∃ a, x = .ok a ∧ Ends sem p s (.ok a) u) ∨
      ∃ e t, Ends sem p s (.error e) t ∧ Ends sem (g e) t x u := by
  induction p generalizing s with
  | ret a =>
    obtain ⟨rfl, rfl⟩ := ends_ret.1 h
    exact Or.inl ⟨a, rfl, .ret⟩
  | raise e => exact Or.inr ⟨e, s, .raise, h⟩
  | call o k ih =>
    obtain _ | _ | ⟨hsem, h⟩ := h
    obtain ⟨a, rfl, hp⟩ | ⟨e, t, hp, hg⟩ := ih _ h
    · exact Or.inl ⟨a, rfl, .call hsem hp⟩
    · exact Or.inr ⟨e, t, .call hsem hp, hg⟩

/-- **The block, then its cleanup.** -/
theorem ends_andFinally {p : Prog Op Res ε α} {c : Prog Op Res ε Unit} {x : Except ε α}
    (h : Ends sem (p.andFinally c) s x u) :
    ∃ y t z, Ends sem p s y t ∧ Ends sem c t z u ∧
      ((z = .ok () ∧ x = y) ∨ ∃ e, z = .error e ∧ x = .error e) := by
  induction p generalizing s with
  | ret a =>
    obtain ⟨⟨⟩, t, hc, hr⟩ | ⟨e, rfl, hc⟩ := ends_bind (f := fun _ => Prog.ret a) h
    · obtain ⟨rfl, rfl⟩ := ends_ret.1 hr
      exact ⟨_, _, _, .ret, hc, Or.inl ⟨rfl, rfl⟩⟩
    · exact ⟨_, _, _, .ret, hc, Or.inr ⟨e, rfl, rfl⟩⟩
  | raise e =>
    obtain ⟨⟨⟩, t, hc, hr⟩ | ⟨e', rfl, hc⟩ := ends_bind (f := fun _ => Prog.raise e) h
    · obtain ⟨rfl, rfl⟩ := ends_raise.1 hr
      exact ⟨_, _, _, .raise, hc, Or.inl ⟨rfl, rfl⟩⟩
    · exact ⟨_, _, _, .raise, hc, Or.inr ⟨e', rfl, rfl⟩⟩
  | call o k ih =>
    obtain _ | _ | ⟨hsem, h⟩ := h
    obtain ⟨y, t, z, hp, hc, hx⟩ := ih _ h
    exact ⟨y, t, z, .call hsem hp, hc, hx⟩

/-- A program ends against a handler as it runs. -/
theorem ends_handler {h : Handler Op Res ε σ} {p : Prog Op Res ε α} {x : Except ε α} :
    Ends (fun o s r t => h o s = (r, t)) p s x u ↔ p.run h s = (x, u) := by
  induction p generalizing s with
  | ret a =>
    rw [ends_ret, run_ret, Prod.mk.injEq]
    exact and_congr eq_comm eq_comm
  | raise e =>
    rw [ends_raise, run_raise, Prod.mk.injEq]
    exact and_congr eq_comm eq_comm
  | call o k ih =>
    rw [run_call]
    constructor
    · rintro (_ | _ | ⟨hsem, hk⟩)
      rw [hsem]
      exact (ih _).1 hk
    · exact fun hr => .call rfl ((ih _).2 hr)

/-- What holds of every semantics' runs holds of a smaller one's. -/
theorem Ends.mono {sem' : (o : Op) → σ → Except ε (Res o) → σ → Prop}
    (hsem : ∀ o s r t, sem o s r t → sem' o s r t) {p : Prog Op Res ε α} {x : Except ε α}
    (h : Ends sem p s x u) : Ends sem' p s x u := by
  induction h with
  | ret => exact .ret
  | raise => exact .raise
  | call hs _ ih => exact .call (hsem _ _ _ _ hs) ih

end Prog

/-! ## A program among others -/

/-- **The setting a program runs in**: what each operation may answer
and do, and what the other parties may do between two operations. -/
structure Setting (Op : Type) (Res : Op → Type) (ε σ : Type) where
  /-- `sem o s r t`: called in `s`, operation `o` may answer `r` and
  leave `t`. -/
  sem : (o : Op) → σ → Except ε (Res o) → σ → Prop
  /-- What the other parties may do. -/
  rely : σ → σ → Prop
  rely_refl : ∀ s, rely s s
  rely_trans : ∀ {s t u}, rely s t → rely t u → rely s u

/-- The transitions a program made itself, in order. -/
abbrev Trail (σ : Type) : Type := List (σ × σ)

namespace Prog

variable {Op : Type} {Res : Op → Type} {ε α β σ : Type}
variable (S : Setting Op Res ε σ)

/-- Where a program may have got to: what is left of it, its own
transitions, and the state, after any number of its own operations and
of the others' moves. -/
inductive Steps (p : Prog Op Res ε α) (own : Trail σ) (s : σ) :
    Prog Op Res ε α → Trail σ → σ → Prop
  | refl : Steps p own s p own s
  | env {q : Prog Op Res ε α} {own' : Trail σ} {t u : σ} :
      Steps p own s q own' t → S.rely t u → Steps p own s q own' u
  | call {o : Op} {k : Except ε (Res o) → Prog Op Res ε α} {own' : Trail σ} {t u : σ}
      {r : Except ε (Res o)} :
      Steps p own s (.call o k) own' t → S.sem o t r u →
      Steps p own s (k r) (own' ++ [(t, u)]) u

/-- **The program meets its contract from here.** `G` bounds each of its
own transitions, `C` holds wherever it may be stopped, `Q` when it
returns and `E` when it raises; all three may read the transitions the
program made. -/
def Meets (G : σ → σ → Prop) (C : Trail σ → σ → Prop) (Q : α → Trail σ → σ → Prop)
    (E : ε → Trail σ → σ → Prop) : Prog Op Res ε α → Trail σ → σ → Prop
  | ret a, own, s => ∀ t, S.rely s t → C own t ∧ Q a own t
  | raise e, own, s => ∀ t, S.rely s t → C own t ∧ E e own t
  | call o k, own, s => ∀ t, S.rely s t → C own t ∧
      ∀ r u, S.sem o t r u → G t u ∧ Meets G C Q E (k r) (own ++ [(t, u)]) u

variable {S} {G : σ → σ → Prop} {C : Trail σ → σ → Prop}
  {Q : α → Trail σ → σ → Prop} {E : ε → Trail σ → σ → Prop}

/-- The contract is closed under what the others do. -/
theorem Meets.rely {p : Prog Op Res ε α} {own : Trail σ} {s t : σ}
    (hp : p.Meets S G C Q E own s) (hst : S.rely s t) : p.Meets S G C Q E own t := by
  cases p with
  | ret a => exact fun u hu => hp u (S.rely_trans hst hu)
  | raise e => exact fun u hu => hp u (S.rely_trans hst hu)
  | call o k => exact fun u hu => hp u (S.rely_trans hst hu)

/-- Whatever must hold at every point holds here. -/
theorem Meets.here {p : Prog Op Res ε α} {own : Trail σ} {s : σ}
    (hp : p.Meets S G C Q E own s) : C own s := by
  cases p with
  | ret a => exact (hp s (S.rely_refl s)).1
  | raise e => exact (hp s (S.rely_refl s)).1
  | call o k => exact (hp s (S.rely_refl s)).1

/-- The contract of what is returned, where it returns. -/
theorem Meets.ret_here {a : α} {own : Trail σ} {s : σ}
    (hp : (ret a : Prog Op Res ε α).Meets S G C Q E own s) : Q a own s :=
  (hp s (S.rely_refl s)).2

/-- The contract of what is raised, where it raises. -/
theorem Meets.raise_here {e : ε} {own : Trail σ} {s : σ}
    (hp : (raise e : Prog Op Res ε α).Meets S G C Q E own s) : E e own s :=
  (hp s (S.rely_refl s)).2

/-- Contracts weaken. -/
theorem Meets.mono {C' : Trail σ → σ → Prop} {Q' : α → Trail σ → σ → Prop}
    {E' : ε → Trail σ → σ → Prop} (hC : ∀ own s, C own s → C' own s)
    (hQ : ∀ a own s, C own s → Q a own s → Q' a own s)
    (hE : ∀ e own s, C own s → E e own s → E' e own s)
    {p : Prog Op Res ε α} {own : Trail σ} {s : σ} (hp : p.Meets S G C Q E own s) :
    p.Meets S G C' Q' E' own s := by
  induction p generalizing own s with
  | ret a => exact fun t ht => ⟨hC _ _ (hp t ht).1, hQ _ _ _ (hp t ht).1 (hp t ht).2⟩
  | raise e => exact fun t ht => ⟨hC _ _ (hp t ht).1, hE _ _ _ (hp t ht).1 (hp t ht).2⟩
  | call o k ih =>
    intro t ht
    refine ⟨hC _ _ (hp t ht).1, fun r u hu => ?_⟩
    obtain ⟨hG, hk⟩ := (hp t ht).2 r u hu
    exact ⟨hG, ih r hk⟩

/-- Where a program returns, it and the others have only made the moves
they may make. -/
theorem Meets.reach {R : σ → σ → Prop} (hrely : ∀ {s t}, S.rely s t → R s t)
    (hG : ∀ {s t}, G s t → R s t) (htrans : ∀ {s t u}, R s t → R t u → R s u)
    {p : Prog Op Res ε α} {own : Trail σ} {s : σ} (hp : p.Meets S G C Q E own s) :
    p.Meets S G C (fun a own t => Q a own t ∧ R s t) E own s := by
  suffices h : ∀ s₀, R s₀ s → p.Meets S G C (fun a own t => Q a own t ∧ R s₀ t) E own s from
    h s (hrely (S.rely_refl s))
  intro s₀ h₀
  induction p generalizing own s with
  | ret a => exact fun t ht => ⟨(hp t ht).1, (hp t ht).2, htrans h₀ (hrely ht)⟩
  | raise e => exact hp
  | call o k ih =>
    intro t ht
    refine ⟨(hp t ht).1, fun r u hu => ?_⟩
    obtain ⟨hGu, hk⟩ := (hp t ht).2 r u hu
    exact ⟨hGu, ih r hk (htrans (htrans h₀ (hrely ht)) (hG hGu))⟩

/-- **Sequential composition.** The second program owes its contract
from wherever the first returned. -/
theorem Meets.bind {Q' : β → Trail σ → σ → Prop} {f : α → Prog Op Res ε β}
    {p : Prog Op Res ε α} {own : Trail σ} {s : σ}
    (hp : p.Meets S G C (fun a own t => (f a).Meets S G C Q' E own t) E own s) :
    (p >>= f).Meets S G C Q' E own s := by
  induction p generalizing own s with
  | ret a => exact hp.ret_here
  | raise e => exact hp
  | call o k ih =>
    intro t ht
    refine ⟨(hp t ht).1, fun r u hu => ?_⟩
    obtain ⟨hG, hk⟩ := (hp t ht).2 r u hu
    exact ⟨hG, ih r hk⟩

/-- **Exception handling.** The handler owes the contract from wherever
the program raised. -/
theorem Meets.orElse {g : ε → Prog Op Res ε α} {p : Prog Op Res ε α} {own : Trail σ} {s : σ}
    (hp : p.Meets S G C Q (fun e own t => (g e).Meets S G C Q E own t) own s) :
    (p.orElse g).Meets S G C Q E own s := by
  induction p generalizing own s with
  | ret a => exact hp
  | raise e => exact hp.raise_here
  | call o k ih =>
    intro t ht
    refine ⟨(hp t ht).1, fun r u hu => ?_⟩
    obtain ⟨hG, hk⟩ := (hp t ht).2 r u hu
    exact ⟨hG, ih r hk⟩

/-- What a program returns, put in another form. -/
theorem Meets.map {f : α → β} {p : Prog Op Res ε α} {own : Trail σ} {s : σ}
    (hp : p.Meets S G C Q E own s) :
    (p >>= fun a => ret (f a)).Meets S G C (fun b own s => ∃ a, b = f a ∧ Q a own s) E own s := by
  induction p generalizing own s with
  | ret a => exact fun t ht => ⟨(hp t ht).1, a, rfl, (hp t ht).2⟩
  | raise e => exact hp
  | call o k ih =>
    intro t ht
    refine ⟨(hp t ht).1, fun r u hu => ?_⟩
    obtain ⟨hG, hk⟩ := (hp t ht).2 r u hu
    exact ⟨hG, ih r hk⟩

/-- A program that has ended owes what the others cannot undo. -/
theorem Meets.ret_of {a : α} {own : Trail σ} {s : σ} (hC : ∀ t, S.rely s t → C own t)
    (hQ : ∀ t, S.rely s t → Q a own t) : (ret a : Prog Op Res ε α).Meets S G C Q E own s :=
  fun t ht => ⟨hC t ht, hQ t ht⟩

/-- A program that raises meets its contract where the others keep it. -/
theorem Meets.raise_of {e : ε} {own : Trail σ} {s : σ} (hC : ∀ t, S.rely s t → C own t)
    (hE : ∀ t, S.rely s t → E e own t) : (raise e : Prog Op Res ε α).Meets S G C Q E own s :=
  fun t ht => ⟨hC t ht, hE t ht⟩

/-- **One operation first.** What follows owes the contract from every
answer. -/
theorem Meets.op_bind {o : Op} {f : Res o → Prog Op Res ε α} {own : Trail σ} {s : σ}
    (hC : ∀ t, S.rely s t → C own t)
    (h : ∀ t, S.rely s t → ∀ r u, S.sem o t r u →
      G t u ∧ (lift r >>= f).Meets S G C Q E (own ++ [(t, u)]) u) :
    (op o >>= f).Meets S G C Q E own s :=
  fun t ht => ⟨hC t ht, fun r u hu => h t ht r u hu⟩

/-- A pure computation first. -/
theorem Meets.lift_bind {x : Except ε β} {f : β → Prog Op Res ε α} {own : Trail σ} {s : σ}
    (hok : ∀ b, x = .ok b → (f b).Meets S G C Q E own s)
    (herr : ∀ e, x = .error e → (raise e : Prog Op Res ε α).Meets S G C Q E own s) :
    (lift x >>= f).Meets S G C Q E own s := by
  cases x with
  | ok b => exact hok b rfl
  | error e => exact herr e rfl

/-- **Soundness, alone.** Wherever the program may have got to, what is
left of it meets the contract. -/
theorem Meets.steps {p q : Prog Op Res ε α} {own own' : Trail σ} {s t : σ}
    (hp : p.Meets S G C Q E own s) (hs : Steps S p own s q own' t) :
    q.Meets S G C Q E own' t := by
  induction hs with
  | refl => exact hp
  | env _ hr ih => exact ih.rely hr
  | call _ hsem ih => exact ((ih _ (S.rely_refl _)).2 _ _ hsem).2

/-- **What the program did itself**: each of its transitions is one it may
make, and ended where the program may be stopped. -/
theorem Meets.own {p q : Prog Op Res ε α} {own own' : Trail σ} {s t : σ}
    (hp : p.Meets S G C Q E own s) (hs : Steps S p own s q own' t) :
    ∀ m ∈ own', m ∈ own ∨ G m.1 m.2 ∧ ∃ trail, C trail m.2 := by
  induction hs with
  | refl => exact fun m hm => Or.inl hm
  | env _ _ ih => exact ih
  | call h hsem ih =>
    intro m hm
    obtain hm | hm := List.mem_append.1 hm
    · exact ih m hm
    · obtain rfl := List.mem_singleton.1 hm
      obtain ⟨hG, hk⟩ := ((hp.steps h) _ (S.rely_refl _)).2 _ _ hsem
      exact Or.inr ⟨hG, _, hk.here⟩

/-- A program that has raised does nothing more. -/
theorem Steps.of_raise {e : ε} {q : Prog Op Res ε α} {own own' : Trail σ} {s t : σ}
    (hs : Steps S (raise e) own s q own' t) : q = raise e ∧ own' = own := by
  induction hs with
  | refl => exact ⟨rfl, rfl⟩
  | env _ _ ih => exact ih
  | call _ _ ih => cases ih.1

/-- The transitions of a program run against a handler. -/
def trail (h : Handler Op Res ε σ) : Prog Op Res ε α → σ → Trail σ
  | ret _, _ => []
  | raise _, _ => []
  | call o k, s => (s, (h o s).2) :: (k (h o s).1).trail h (h o s).2

/-- What a program does against a handler the setting allows is one of
the things it may do. -/
theorem Steps.run (h : Handler Op Res ε σ) (hsem : ∀ o s, S.sem o s (h o s).1 (h o s).2)
    {p q : Prog Op Res ε α} {own own' : Trail σ} {s t : σ} (hs : Steps S p own s q own' t) :
    Steps S p own s (lift (q.run h t).1) (own' ++ q.trail h t) (q.run h t).2 := by
  induction q generalizing own' t with
  | ret a =>
    rw [trail, List.append_nil]
    exact hs
  | raise e =>
    rw [trail, List.append_nil]
    exact hs
  | call o k ih =>
    have hk := ih _ (hs.call (hsem o t))
    rwa [List.append_assoc, List.singleton_append] at hk

/-! ## What a program does in any state -/

/-- **From whatever state**, every operation of the program makes a
`G`-transition, what it returns satisfies `Q` and what it raises `E`. -/
def Obeys (sem : (o : Op) → σ → Except ε (Res o) → σ → Prop) (G : σ → σ → Prop)
    (Q : α → Prop) (E : ε → Prop) : Prog Op Res ε α → Prop
  | ret a => Q a
  | raise e => E e
  | call o k => ∀ s r t, sem o s r t → G s t ∧ (k r).Obeys sem G Q E

section Obeys

variable {sem : (o : Op) → σ → Except ε (Res o) → σ → Prop} {Qa Qa' : α → Prop} {Qb : β → Prop}
  {Er Er' : ε → Prop}

/-- Weaker conditions are obeyed too. -/
theorem Obeys.mono {G' : σ → σ → Prop} (hG : ∀ s t, G s t → G' s t) (hQ : ∀ a, Qa a → Qa' a)
    (hE : ∀ e, Er e → Er' e) {p : Prog Op Res ε α} (hp : p.Obeys sem G Qa Er) :
    p.Obeys sem G' Qa' Er' := by
  induction p with
  | ret a => exact hQ a hp
  | raise e => exact hE e hp
  | call o k ih => exact fun s r t h => ⟨hG s t (hp s r t h).1, ih r (hp s r t h).2⟩

/-- A sequence obeys what its parts obey. -/
theorem Obeys.bind {f : α → Prog Op Res ε β} {p : Prog Op Res ε α}
    (hp : p.Obeys sem G (fun a => (f a).Obeys sem G Qb Er) Er) :
    (p >>= f).Obeys sem G Qb Er := by
  induction p with
  | ret a => exact hp
  | raise e => exact hp
  | call o k ih => exact fun s r t h => ⟨(hp s r t h).1, ih r (hp s r t h).2⟩

/-- A handled program obeys what it and its handler obey. -/
theorem Obeys.orElse {g : ε → Prog Op Res ε α} {p : Prog Op Res ε α}
    (hp : p.Obeys sem G Qa fun e => (g e).Obeys sem G Qa Er) :
    (p.orElse g).Obeys sem G Qa Er := by
  induction p with
  | ret a => exact hp
  | raise e => exact hp
  | call o k ih => exact fun s r t h => ⟨(hp s r t h).1, ih r (hp s r t h).2⟩

/-- A result obeys what is said of it. -/
theorem Obeys.lift {x : Except ε α} (hok : ∀ a, x = .ok a → Qa a)
    (herr : ∀ e, x = .error e → Er e) : (lift x : Prog Op Res ε α).Obeys sem G Qa Er := by
  cases x with
  | ok a => exact hok a rfl
  | error e => exact herr e rfl

/-- An operation obeys what its meaning allows. -/
theorem Obeys.op {o : Op} {Qo : Res o → Prop}
    (h : ∀ s r t, sem o s r t → G s t ∧ (∀ a, r = .ok a → Qo a) ∧ ∀ e, r = .error e → Er e) :
    (op o : Prog Op Res ε (Res o)).Obeys sem G Qo Er :=
  fun s r t hs => ⟨(h s r t hs).1, .lift (h s r t hs).2.1 (h s r t hs).2.2⟩

/-- **Soundness.** Whatever the others do, the program makes only such
transitions, and what is left of it still obeys. -/
theorem Obeys.steps {p q : Prog Op Res ε α} {own own' : Trail σ} {s t : σ}
    (hp : p.Obeys S.sem G Qa Er) (hs : Steps S p own s q own' t) :
    q.Obeys S.sem G Qa Er ∧ ∀ m ∈ own', m ∈ own ∨ G m.1 m.2 := by
  induction hs with
  | refl => exact ⟨hp, fun m hm => Or.inl hm⟩
  | env _ _ ih => exact ih
  | call _ hsem ih =>
    obtain ⟨hG, hk⟩ := ih.1 _ _ _ hsem
    refine ⟨hk, fun m hm => ?_⟩
    obtain hm | hm := List.mem_append.1 hm
    · exact ih.2 m hm
    · obtain rfl := List.mem_singleton.1 hm
      exact Or.inr hG

/-- What an obeying program alone does from beginning to end. -/
theorem Obeys.ends (hrefl : ∀ s, G s s) (htrans : ∀ {s t u}, G s t → G t u → G s u)
    {p : Prog Op Res ε α} {s t : σ} {x : Except ε α} (hp : p.Obeys sem G Qa Er)
    (h : Ends sem p s x t) : G s t := by
  induction h with
  | ret => exact hrefl _
  | raise => exact hrefl _
  | call hs _ ih =>
    obtain ⟨hG, hk⟩ := hp _ _ _ hs
    exact htrans hG (ih hk)

/-- What an obeying program alone raises. -/
theorem Obeys.ends_error {p : Prog Op Res ε α} {s t : σ} {x : Except ε α}
    (hp : p.Obeys sem G Qa Er) (h : Ends sem p s x t) : ∀ e, x = .error e → Er e := by
  induction h with
  | ret => exact nofun
  | raise => exact fun e he => Except.error.inj he ▸ hp
  | call hs _ ih => exact ih (hp _ _ _ hs).2

/-- A program that obeys meets every contract its transitions keep. -/
theorem Obeys.meets {W : σ → σ → Prop} (hrely : ∀ {own s t}, C own s → S.rely s t → C own t)
    (hmove : ∀ {own s t}, C own s → W s t → G s t ∧ C (own ++ [(s, t)]) t)
    {p : Prog Op Res ε α} (hp : p.Obeys S.sem W Qa Er) :
    ∀ {own s}, C own s →
      p.Meets S G C (fun a own t => Qa a ∧ C own t) (fun e own t => Er e ∧ C own t) own s := by
  induction p with
  | ret a => exact fun hC t ht => ⟨hrely hC ht, hp, hrely hC ht⟩
  | raise e => exact fun hC t ht => ⟨hrely hC ht, hp, hrely hC ht⟩
  | call o k ih =>
    intro own s hC t ht
    refine ⟨hrely hC ht, fun r u hu => ?_⟩
    obtain ⟨hW, hk⟩ := hp t r u hu
    obtain ⟨hG, hCu⟩ := hmove (hrely hC ht) hW
    exact ⟨hG, ih r hk hCu⟩

end Obeys

end Prog

/-! ## Many programs over one state -/

/-- **A fleet**: one state and, for each party, what is left of its
program and the transitions it made. -/
structure Fleet (ι : Type) (Op : Type) (Res : Op → Type) (ε α σ : Type) where
  store : σ
  prog : ι → Prog Op Res ε α
  own : ι → Trail σ

namespace Fleet

variable {ι Op : Type} [DecidableEq ι] {Res : Op → Type} {ε α σ : Type}
variable (sem : (o : Op) → σ → Except ε (Res o) → σ → Prop)

/-- One atomic operation of one party. -/
inductive Step : Fleet ι Op Res ε α σ → Fleet ι Op Res ε α σ → Prop
  | call {c : Fleet ι Op Res ε α σ} (i : ι) {o : Op}
      {k : Except ε (Res o) → Prog Op Res ε α} {r : Except ε (Res o)} {t : σ} :
      c.prog i = .call o k → sem o c.store r t →
      Step c ⟨t, Function.update c.prog i (k r),
        Function.update c.own i (c.own i ++ [(c.store, t)])⟩

/-- Any interleaving of the parties' operations. -/
def Reach : Fleet ι Op Res ε α σ → Fleet ι Op Res ε α σ → Prop :=
  Relation.ReflTransGen (Step sem)

/-- The fleet before anyone has moved. -/
def start (s : σ) (p : ι → Prog Op Res ε α) : Fleet ι Op Res ε α σ := ⟨s, p, fun _ => []⟩

variable {sem} {R : σ → σ → Prop} {hrefl : ∀ s, R s s}
  {htrans : ∀ {s t u}, R s t → R t u → R s u}
variable {C : ι → Trail σ → σ → Prop} {Q : ι → α → Trail σ → σ → Prop}
  {E : ι → ε → Trail σ → σ → Prop}

/-- **Soundness, for the fleet.** If every party's program meets its
contract while the others only make `R`-moves, and makes only `R`-moves
itself, then every party meets its contract in every reachable state. -/
theorem meets {c d : Fleet ι Op Res ε α σ}
    (hc : ∀ i, (c.prog i).Meets ⟨sem, R, hrefl, htrans⟩ R (C i) (Q i) (E i) (c.own i) c.store)
    (hcd : Reach sem c d) :
    R c.store d.store ∧
      ∀ i, (d.prog i).Meets ⟨sem, R, hrefl, htrans⟩ R (C i) (Q i) (E i) (d.own i) d.store := by
  induction hcd with
  | refl => exact ⟨hrefl _, hc⟩
  | @tail c₁ _ _ hstep ih =>
    obtain ⟨hR, hm⟩ := ih
    cases hstep with
    | @call i o k r t hi hsem =>
      have hcall := hm i
      rw [hi] at hcall
      obtain ⟨hG, hk⟩ := (hcall _ (hrefl _)).2 r t hsem
      refine ⟨htrans hR hG, fun j => ?_⟩
      by_cases hj : j = i
      · subst hj
        simpa using hk
      · simpa [Function.update_of_ne hj] using (hm j).rely hG

/-- One operation of a party, against a handler. -/
def move (h : Prog.Handler Op Res ε σ) (c : Fleet ι Op Res ε α σ) (i : ι) :
    Fleet ι Op Res ε α σ :=
  match c.prog i with
  | .call o k => ⟨(h o c.store).2, Function.update c.prog i (k (h o c.store).1),
      Function.update c.own i (c.own i ++ [(c.store, (h o c.store).2)])⟩
  | _ => c

omit hrefl htrans in
/-- **A schedule** of operations is an interleaving. -/
theorem reach_moves (h : Prog.Handler Op Res ε σ) (hsem : ∀ o s, sem o s (h o s).1 (h o s).2)
    (schedule : List ι) (c : Fleet ι Op Res ε α σ) : Reach sem c (schedule.foldl (move h) c) := by
  induction schedule generalizing c with
  | nil => exact .refl
  | cons i schedule ih =>
    refine .trans ?_ (ih (move h c i))
    unfold move
    split
    · rename_i o k hp
      exact .single (.call i hp (hsem o c.store))
    · exact .refl

end Fleet

end Lakehouse
