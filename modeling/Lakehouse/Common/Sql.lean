import Lakehouse.Common.Text
/-!
# SQL string literals

A literal is delimited by quotes, and a doubled quote inside it is one
quote. `readLiterals` reads the list of an `IN` predicate, and
`readLiterals_literals` says that a list written by `literals` reads back
as itself, whatever characters its texts have.
-/

namespace Lakehouse

namespace Sql

/-- `"'" + key.replace("'", "''") + "'"`. -/
def quote (key : Text) : Text :=
  0x27 :: key.flatMap (fun c => if c = 0x27 then [0x27, 0x27] else [c]) ++ [0x27]

/-- `", ".join(...)` of the quoted keys. -/
def literals (keys : List Text) : Text := Text.join (lit ", ") (keys.map quote)

/-- The rest of a literal after its opening quote, and what follows its
closing one. -/
def readBody : Text → Option (Text × Text)
  | [] => none
  | 0x27 :: 0x27 :: t => (readBody t).map fun r => (0x27 :: r.1, r.2)
  | 0x27 :: t => some ([], t)
  | c :: t => (readBody t).map fun r => (c :: r.1, r.2)

/-- A literal and what follows it. -/
def readLiteral : Text → Option (Text × Text)
  | 0x27 :: t => readBody t
  | _ => none

/-- The texts of a list of literals, of at most `n`. -/
def readLiterals : ℕ → Text → Option (List Text)
  | 0, _ => none
  | n + 1, t =>
    match readLiteral t with
    | none => none
    | some (key, []) => some [key]
    | some (key, 0x2C :: 0x20 :: rest) => (readLiterals n rest).map (key :: ·)
    | some _ => none

/-- The texts an `IN` predicate lists. -/
def keysOf (t : Text) : Option (List Text) := readLiterals (t.length + 1) t

/-- A quoted text ends at its closing quote where no quote follows. -/
theorem readBody_quote (key : Text) {rest : Text} (h : rest.head? ≠ some 0x27) :
    readBody (key.flatMap (fun c => if c = 0x27 then [0x27, 0x27] else [c]) ++ 0x27 :: rest) =
      some (key, rest) := by
  induction key with
  | nil =>
    cases rest with
    | nil => rfl
    | cons c rest =>
      have hc : c ≠ 0x27 := fun hc => h (by rw [hc]; rfl)
      simp only [List.flatMap_nil, List.nil_append]
      rw [readBody.eq_3]
      rintro t ⟨⟩
      exact hc rfl
  | cons c key ih =>
    rw [List.flatMap_cons, List.append_assoc]
    by_cases hc : c = 0x27
    · rw [if_pos hc, hc]
      simp only [List.cons_append, List.nil_append]
      rw [readBody, ih]
      rfl
    · rw [if_neg hc]
      simp only [List.cons_append, List.nil_append]
      rw [readBody.eq_4 _ _ (fun t h _ => hc h) hc, ih]
      rfl

theorem readLiteral_quote (key : Text) {rest : Text} (h : rest.head? ≠ some 0x27) :
    readLiteral (quote key ++ rest) = some (key, rest) := by
  unfold quote
  rw [List.cons_append, List.cons_append, List.append_assoc, List.singleton_append]
  exact readBody_quote key h

theorem readLiterals_literals (keys : List Text) (hne : keys ≠ []) :
    ∀ n, keys.length ≤ n → readLiterals n (literals keys) = some keys := by
  induction keys with
  | nil => exact absurd rfl hne
  | cons key keys ih =>
    intro n hn
    obtain ⟨n, rfl⟩ : ∃ m, n = m + 1 := ⟨n - 1, by simp at hn; omega⟩
    rw [readLiterals]
    cases keys with
    | nil =>
      have h : readLiteral (literals [key]) = some (key, []) := by
        simpa [literals, Text.join] using
          readLiteral_quote key (List.head?_nil.trans_ne (Option.some_ne_none _).symm)
      rw [h]
    | cons key' keys =>
      have hl : literals (key :: key' :: keys) =
          quote key ++ 0x2C :: 0x20 :: literals (key' :: keys) := by
        simp [literals, Text.join, lit]
      rw [hl, readLiteral_quote key (by simp)]
      simp only
      rw [ih (List.cons_ne_nil _ _) n (by simpa using hn)]
      rfl

/-- A list of literals is at least as long as the list of its texts. -/
theorem length_le_literals (keys : List Text) : keys.length ≤ (literals keys).length := by
  induction keys with
  | nil => simp
  | cons key keys ih =>
    cases keys with
    | nil => simp [literals, Text.join, quote]
    | cons key' keys =>
      have hl : literals (key :: key' :: keys) =
          quote key ++ 0x2C :: 0x20 :: literals (key' :: keys) := by
        simp [literals, Text.join, lit]
      rw [hl]
      simp only [List.length_cons, List.length_append] at ih ⊢
      omega

/-- **What was quoted is read back.** -/
theorem keysOf_literals {keys : List Text} (hne : keys ≠ []) :
    keysOf (literals keys) = some keys :=
  readLiterals_literals keys hne _ ((length_le_literals keys).trans (Nat.le_succ _))

example : keysOf (literals [lit "a'b", lit "'"]) = some [lit "a'b", lit "'"] := by decide

end Sql

end Lakehouse
