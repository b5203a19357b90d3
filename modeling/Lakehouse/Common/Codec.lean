import Lakehouse.Common.Text
/-!
# Readers of byte strings

A reader takes a value off the front of a byte string. `Writes read a b`
says that it reads `a` where `b` was written, whatever follows; these
compose (`Writes.bind`, `Writes.many`), and what one reader reads back is
prefix-free (`Writes.prefix_free`).
-/

namespace Lakehouse

/-- A reader of a value at the front of a byte string. -/
abbrev Reader (α : Type) : Type := StateT Bytes Option α

/-- **`b` is read as `a`**, whatever follows it. -/
def Writes {α : Type} (read : Reader α) (a : α) (b : Bytes) : Prop :=
  ∀ rest, read (b ++ rest) = some (a, rest)

namespace Reader

/-- One byte. -/
def byte : Reader UInt8
  | [] => none
  | b :: bs => some (b, bs)

/-- `k` bytes, the least first. -/
def littleEndian : ℕ → Reader ℕ
  | 0 => pure 0
  | k + 1 => do
    let b ← byte
    let n ← littleEndian k
    return b.toNat + 256 * n

/-- Some number of values. -/
def many {α : Type} (read : Reader α) : ℕ → Reader (List α)
  | 0 => pure []
  | n + 1 => do
    let a ← read
    let as ← many read n
    return a :: as

end Reader

/-- `n` as `k` bytes, the least first. -/
def littleEndian : ℕ → ℕ → Bytes
  | 0, _ => []
  | k + 1, n => UInt8.ofNat n :: littleEndian k (n / 256)

/-- What is written of every item of a list. -/
theorem forall₂_of_mapM {α β : Type} {f : α → Option β} {as : List α} {bs : List β}
    (h : as.mapM f = some bs) : List.Forall₂ (fun a b => f a = some b) as bs := by
  induction as generalizing bs with
  | nil =>
    cases h
    exact .nil
  | cons a as ih =>
    rw [List.mapM_cons, Option.bind_eq_bind, Option.bind_eq_some_iff] at h
    obtain ⟨b, hb, h⟩ := h
    rw [Option.bind_eq_bind, Option.bind_eq_some_iff] at h
    obtain ⟨bs', hbs, h⟩ := h
    cases h
    exact .cons hb (ih hbs)

/-- A map of calls that all succeed succeeds. -/
theorem exists_mapM {α β : Type} {f : α → Option β} {as : List α}
    (h : ∀ a ∈ as, ∃ b, f a = some b) : ∃ bs, as.mapM f = some bs := by
  induction as with
  | nil => exact ⟨[], rfl⟩
  | cons a as ih =>
    obtain ⟨b, hb⟩ := h a List.mem_cons_self
    obtain ⟨bs, hbs⟩ := ih fun c hc => h c (List.mem_cons_of_mem a hc)
    exact ⟨b :: bs, by rw [List.mapM_cons, hb, hbs]; rfl⟩

namespace Writes

variable {α β : Type} {read : Reader α} {a a' : α} {b b' : Bytes}

/-- Nothing is written for a value known. -/
theorem pure (a : α) : Writes (Pure.pure a) a [] := fun _ => rfl

/-- A byte is written as itself. -/
theorem byte (x : UInt8) : Writes Reader.byte x [x] := fun _ => rfl

/-- What is read one after the other is written so. -/
theorem bind {f : α → Reader β} {c : β} (h : Writes read a b) (hf : Writes (f a) c b') :
    Writes (read >>= f) c (b ++ b') := by
  intro rest
  change (read (b ++ b' ++ rest) >>= fun p => f p.1 p.2) = _
  rw [List.append_assoc, h]
  exact hf rest

/-- A value read and converted is written as the one read. -/
theorem map {f : α → β} (h : Writes read a b) : Writes (read >>= fun a => Pure.pure (f a)) (f a) b := by
  have hmap := h.bind (f := fun a => Pure.pure (f a)) (pure (f a))
  rwa [List.append_nil] at hmap

/-- A number that fits is written in its bytes. -/
theorem littleEndian {k n : ℕ} (h : n < 256 ^ k) :
    Writes (Reader.littleEndian k) n (Lakehouse.littleEndian k n) := by
  induction k generalizing n with
  | zero =>
    rw [pow_zero, Nat.lt_one_iff] at h
    rw [h]
    exact pure 0
  | succ k ih =>
    rw [pow_succ'] at h
    have hdigits : (UInt8.ofNat n).toNat + 256 * (n / 256) = n := by
      rw [UInt8.toNat_ofNat']
      exact Nat.mod_add_div n 256
    have hread := (byte (UInt8.ofNat n)).bind
      (f := fun b => Reader.littleEndian k >>= fun m => Pure.pure (b.toNat + 256 * m))
      (ih (Nat.div_lt_of_lt_mul h)).map
    rw [hdigits] at hread
    exact hread

/-- A number of items is written item by item. -/
theorem many {as : List α} {bs : List Bytes} (h : List.Forall₂ (Writes read) as bs) :
    Writes (Reader.many read as.length) as bs.flatten := by
  induction h with
  | nil => exact pure []
  | @cons a b as bs ha _ ih =>
    exact ha.bind (f := fun a => Reader.many read as.length >>= fun as => Pure.pure (a :: as)) ih.map

/-- **What is read back is prefix-free.** -/
theorem prefix_free (h : Writes read a b) (h' : Writes read a' b') (hb : b <+: b') : a = a' := by
  obtain ⟨rest, rfl⟩ := hb
  have hread := h' []
  rw [List.append_nil, h rest] at hread
  exact congrArg Prod.fst (Option.some.inj hread)

end Writes

end Lakehouse
