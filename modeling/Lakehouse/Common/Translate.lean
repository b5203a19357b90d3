import Lakehouse.Common.Prog
import Mathlib.Data.List.Basic
/-!
# Programs over larger operations

A program over operations that are programs themselves: `translate` puts
each operation's program in its place. What a program asks of its
surroundings, and in which order, is what it writes down where each
operation writes down itself (`Asks`), whatever it is answered.
-/

namespace Lakehouse

namespace Prog

variable {Op Op' : Type} {Res : Op → Type} {Res' : Op' → Type} {ε α β : Type}

/-- A program, whose end is handed on whether it returned or raised. -/
def attempt : Prog Op Res ε α → (Except ε α → Prog Op Res ε β) → Prog Op Res ε β
  | ret a, g => g (.ok a)
  | raise e, g => g (.error e)
  | call o k, g => call o fun r => (k r).attempt g

/-- **A program with each operation's program in its place.** -/
def translate (f : (o : Op) → Prog Op' Res' ε (Res o)) : Prog Op Res ε α → Prog Op' Res' ε α
  | ret a => ret a
  | raise e => raise e
  | call o k => (f o).attempt fun r => (k r).translate f

variable {f : (o : Op) → Prog Op' Res' ε (Res o)}

@[simp] theorem translate_ret (a : α) : (ret a : Prog Op Res ε α).translate f = ret a := rfl

@[simp] theorem translate_raise (e : ε) : (raise e : Prog Op Res ε α).translate f = raise e := rfl

/-- An operation whose exception is raised becomes its program. -/
theorem translate_op_bind (o : Op) (g : Res o → Prog Op Res ε α) :
    (op o >>= g).translate f = f o >>= fun a => (g a).translate f := by
  have hattempt : ∀ p : Prog Op' Res' ε (Res o),
      (p.attempt fun r => (lift r >>= g).translate f) = p >>= fun a => (g a).translate f := by
    intro p
    induction p with
    | ret a => rfl
    | raise e => rfl
    | call o k ih => exact congrArg (call o) (funext ih)
  exact hattempt (f o)

/-! ## What a program asks -/

/-- What was asked and answered. -/
abbrev Exchange (Op : Type) (Res : Op → Type) (ε : Type) : Type := (o : Op) × Except ε (Res o)

/-- An operation that may answer anything, written down. -/
def recorded (o : Op) (s : List (Exchange Op Res ε)) (r : Except ε (Res o))
    (t : List (Exchange Op Res ε)) : Prop :=
  t = s ++ [⟨o, r⟩]

/-- **What a program asks before it ends**, answered anything. -/
def Asks (p : Prog Op Res ε α) (s : List (Exchange Op Res ε)) (x : Except ε α)
    (t : List (Exchange Op Res ε)) : Prop :=
  Ends recorded p s x t

variable {s t : List (Exchange Op Res ε)}

/-- An operation is asked first, and what it raises is raised. -/
theorem Asks.op_bind_cases {o : Op} {g : Res o → Prog Op Res ε α} {x : Except ε α}
    (h : Asks (op o >>= g) s x t) :
    (∃ r, Asks (g r) (s ++ [⟨o, .ok r⟩]) x t) ∨ ∃ e, x = .error e ∧ t = s ++ [⟨o, .error e⟩] := by
  obtain ⟨r, u, hop, hg⟩ | ⟨e, rfl, hop⟩ := ends_bind h
  · have hu : u = s ++ [(⟨o, .ok r⟩ : Exchange Op Res ε)] := ends_op.1 hop
    exact .inl ⟨r, hu ▸ hg⟩
  · exact .inr ⟨e, rfl, ends_op.1 hop⟩

theorem Asks.op_bind {o : Op} {g : Res o → Prog Op Res ε α} {a : α}
    (h : Asks (op o >>= g) s (.ok a) t) : ∃ r, Asks (g r) (s ++ [⟨o, .ok r⟩]) (.ok a) t := by
  obtain h | ⟨_, he, -⟩ := h.op_bind_cases
  · exact h
  · cases he

end Prog

end Lakehouse
