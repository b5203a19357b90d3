import Lakehouse.Common.Text
/-!
# Comma-separated values

The grammar of RFC 4180, with LF at the end of every record: a field is a
text without separators, or any text between quotes with its own quotes
doubled. `parse` returns the records of a file exactly where the grammar
derives them (`parse_eq_some`).
-/

namespace Lakehouse

namespace Csv

/-! ## The grammar -/

/-- A character that needs no quotes. -/
def Plain (c : ℕ) : Prop := c ≠ 0x22 ∧ c ≠ 0x2C ∧ c ≠ 0x0A ∧ c ≠ 0x0D

instance : DecidablePred Plain := fun c => by unfold Plain; infer_instance

/-- A text with its quotes doubled. -/
def doubled (t : Text) : Text := t.flatMap fun c => if c = 0x22 then [0x22, 0x22] else [c]

/-- **A field**, and the text it stands for. -/
inductive Field : Text → Text → Prop
  | plain {t : Text} (h : ∀ c ∈ t, Plain c) : Field t t
  | quoted (t : Text) : Field (0x22 :: doubled t ++ [0x22]) t

/-- **A record**: fields with commas between them, and a line feed. -/
inductive Record : Text → List Text → Prop
  | last {s t : Text} (h : Field s t) : Record (s ++ [0x0A]) [t]
  | cons {s t u : Text} {ts : List Text} (h : Field s t) (hrest : Record u ts) :
      Record (s ++ 0x2C :: u) (t :: ts)

/-- **A file**: one record after another. -/
inductive File : Text → List (List Text) → Prop
  | nil : File [] []
  | cons {s u : Text} {r : List Text} {rs : List (List Text)} (h : Record s r) (hrest : File u rs) :
      File (s ++ u) (r :: rs)

/-! ## The parser -/

/-- What stands before a closing quote, and what behind it. -/
def readQuoted : Text → Option (Text × Text)
  | [] => none
  | 0x22 :: 0x22 :: t => (readQuoted t).map fun r => (0x22 :: r.1, r.2)
  | 0x22 :: t => some ([], t)
  | c :: t => (readQuoted t).map fun r => (c :: r.1, r.2)

def readField (t : Text) : Option (Text × Text) :=
  match t with
  | 0x22 :: t => readQuoted t
  | t => some (t.takeWhile fun c => Plain c, t.dropWhile fun c => Plain c)

/-- A record of at most `n` fields, and what follows it. -/
def readRecord : ℕ → Text → Option (List Text × Text)
  | 0, _ => none
  | n + 1, t =>
    match readField t with
    | some (f, 0x2C :: rest) => (readRecord n rest).map fun r => (f :: r.1, r.2)
    | some (f, 0x0A :: rest) => some ([f], rest)
    | _ => none

/-- At most `n` records. -/
def readFile : ℕ → Text → Option (List (List Text))
  | _, [] => some []
  | 0, _ => none
  | n + 1, t =>
    match readRecord t.length t with
    | some (r, rest) => (readFile n rest).map (r :: ·)
    | none => none

/-- **The records of a file.** -/
def parse (t : Text) : Option (List (List Text)) := readFile t.length t

/-! ## What is read is in the grammar -/

/-- What is read of a quoted field is its text with the quotes doubled. -/
theorem readQuoted_sound {t v rest : Text} (h : readQuoted t = some (v, rest)) :
    t = doubled v ++ 0x22 :: rest := by
  fun_induction readQuoted t generalizing v rest with
  | case1 => cases h
  | case2 t ih =>
    obtain ⟨⟨w, rest'⟩, hw, heq⟩ := Option.map_eq_some_iff.1 h
    cases heq
    rw [ih hw]
    rfl
  | case3 t _ =>
    cases h
    rfl
  | case4 c t _ hc ih =>
    obtain ⟨⟨w, rest'⟩, hw, heq⟩ := Option.map_eq_some_iff.1 h
    cases heq
    rw [ih hw, doubled, doubled, List.flatMap_cons, if_neg hc]
    rfl

/-- What is read of a field spells it. -/
theorem readField_sound {t f rest : Text} (h : readField t = some (f, rest)) :
    ∃ s, t = s ++ rest ∧ Field s f := by
  unfold readField at h
  split at h
  · rename_i u
    refine ⟨_, ?_, .quoted f⟩
    rw [readQuoted_sound h, List.cons_append, List.cons_append, List.append_assoc,
      List.singleton_append]
  · cases h
    refine ⟨_, (List.takeWhile_append_dropWhile).symm, .plain fun c hc => ?_⟩
    exact of_decide_eq_true (List.all_eq_true.1 List.all_takeWhile c hc)

/-- What is read of a record spells it. -/
theorem readRecord_sound {n : ℕ} {t rest : Text} {r : List Text}
    (h : readRecord n t = some (r, rest)) : ∃ s, t = s ++ rest ∧ Record s r := by
  induction n generalizing t r with
  | zero => cases h
  | succ n ih =>
    rw [readRecord] at h
    split at h
    · rename_i f rest' hfield
      obtain ⟨⟨r', rest''⟩, hrecord, heq⟩ := Option.map_eq_some_iff.1 h
      cases heq
      obtain ⟨s, rfl, hs⟩ := readField_sound hfield
      obtain ⟨u, rfl, hu⟩ := ih hrecord
      exact ⟨s ++ 0x2C :: u, by rw [List.append_assoc, List.cons_append], .cons hs hu⟩
    · rename_i f rest' hfield
      cases h
      obtain ⟨s, rfl, hs⟩ := readField_sound hfield
      exact ⟨s ++ [0x0A], by rw [List.append_assoc, List.singleton_append], .last hs⟩
    · cases h

/-- **A file read is one of the grammar.** -/
theorem readFile_sound {n : ℕ} {t : Text} {rs : List (List Text)} (h : readFile n t = some rs) :
    File t rs := by
  induction n generalizing t rs with
  | zero =>
    cases t with
    | nil =>
      cases h
      exact .nil
    | cons c t => cases h
  | succ n ih =>
    cases t with
    | nil =>
      cases h
      exact .nil
    | cons c t =>
      rw [readFile] at h
      · split at h
        · rename_i r rest hrecord
          obtain ⟨rs', hfile, rfl⟩ := Option.map_eq_some_iff.1 h
          obtain ⟨s, hs, hr⟩ := readRecord_sound hrecord
          rw [hs]
          exact .cons hr (ih hfile)
        · cases h
      · exact nofun

/-! ## What is in the grammar is read -/

/-- A text with its quotes doubled is read back. -/
theorem readQuoted_doubled (v : Text) {rest : Text} (h : rest.head? ≠ some 0x22) :
    readQuoted (doubled v ++ 0x22 :: rest) = some (v, rest) := by
  induction v with
  | nil =>
    rw [doubled, List.flatMap_nil, List.nil_append]
    cases rest with
    | nil => rfl
    | cons c rest =>
      refine readQuoted.eq_3 _ ?_
      rintro t ⟨⟩
      exact h rfl
  | cons c v ih =>
    rw [doubled, List.flatMap_cons, List.append_assoc, ← doubled]
    split_ifs with hc
    · rw [hc, List.cons_append, List.cons_append, List.nil_append, readQuoted, ih]
      rfl
    · rw [List.singleton_append, readQuoted.eq_4 _ _ (fun t h _ => hc h) hc, ih]
      rfl

/-- What ends a field. -/
def Ends (rest : Text) : Prop := rest.head? = some 0x2C ∨ rest.head? = some 0x0A

/-- A field ends before a comma or a line break. -/
theorem Ends.cons {rest : Text} (h : Ends rest) :
    ∃ c u, rest = c :: u ∧ ¬Plain c ∧ c ≠ 0x22 := by
  cases rest with
  | nil => obtain h | h := h <;> cases h
  | cons c u =>
    obtain h | h := h
    all_goals
      obtain rfl := Option.some.inj h
      exact ⟨_, u, rfl, by decide, by decide⟩

/-- A field of the grammar is read. -/
theorem Field.read {s t rest : Text} (h : Field s t) (hrest : Ends rest) :
    readField (s ++ rest) = some (t, rest) := by
  obtain ⟨c, rest, rfl, hplain, hquote⟩ := hrest.cons
  cases h with
  | plain h =>
    have hfirst : ∀ t : Text, s ++ c :: rest ≠ 0x22 :: t := by
      intro t heq
      cases s with
      | nil => exact hquote (List.cons.inj heq).1
      | cons d s => exact (h d List.mem_cons_self).1 (List.cons.inj heq).1
    rw [readField]
    · rw [List.takeWhile_append_of_pos (by simpa using h),
        List.dropWhile_append_of_pos (by simpa using h),
        List.takeWhile_cons_of_neg (by simpa using hplain),
        List.dropWhile_cons_of_neg (by simpa using hplain), List.append_nil]
    · exact hfirst
  | quoted =>
    rw [List.append_assoc]
    exact readQuoted_doubled t (by simpa using hquote)

/-- A record of the grammar is read. -/
theorem Record.read {s rest : Text} {r : List Text} (h : Record s r) :
    ∀ n, s.length ≤ n → readRecord n (s ++ rest) = some (r, rest) := by
  induction h with
  | @last s t hfield =>
    intro n hn
    obtain ⟨n, rfl⟩ : ∃ m, n = m + 1 := ⟨n - 1, by simp at hn; omega⟩
    have hread : readField (s ++ 0x0A :: rest) = some (t, 0x0A :: rest) := hfield.read (.inr rfl)
    rw [List.append_assoc, List.singleton_append, readRecord, hread]
    rfl
  | @cons s t u ts hfield _ ih =>
    intro n hn
    obtain ⟨n, rfl⟩ : ∃ m, n = m + 1 := ⟨n - 1, by simp at hn; omega⟩
    have hread : readField (s ++ 0x2C :: (u ++ rest)) = some (t, 0x2C :: (u ++ rest)) :=
      hfield.read (.inl rfl)
    have hlen : u.length ≤ n := by
      simp only [List.length_append, List.length_cons] at hn
      omega
    rw [List.append_assoc, List.cons_append, readRecord, hread]
    simp only
    rw [ih n hlen]
    rfl

/-- A record has its line break at least. -/
theorem Record.ne_nil {s : Text} {r : List Text} (h : Record s r) : s ≠ [] := by
  cases h with
  | last => exact List.append_ne_nil_of_right_ne_nil _ (List.cons_ne_nil _ _)
  | cons => exact List.append_ne_nil_of_right_ne_nil _ (List.cons_ne_nil _ _)

/-- **A file of the grammar is read.** -/
theorem File.read {t : Text} {rs : List (List Text)} (h : File t rs) :
    ∀ n, t.length ≤ n → readFile n t = some rs := by
  induction h with
  | nil =>
    intro n _
    cases n <;> rfl
  | @cons s u r rs hrecord _ ih =>
    intro n hn
    have hpos : 0 < s.length := List.length_pos_of_ne_nil hrecord.ne_nil
    rw [List.length_append] at hn
    obtain ⟨n, rfl⟩ : ∃ m, n = m + 1 := ⟨n - 1, by omega⟩
    rw [readFile, hrecord.read _ (by rw [List.length_append]; omega)]
    · simp only
      rw [ih n (by omega)]
      rfl
    · intro hnil
      exact hrecord.ne_nil (List.append_eq_nil_iff.1 hnil).1

/-- **The parser is the grammar's.** -/
theorem parse_eq_some {t : Text} {rs : List (List Text)} : parse t = some rs ↔ File t rs :=
  ⟨readFile_sound, fun h => h.read _ le_rfl⟩

/-! ## Writing -/

/-- Fields with commas between them. -/
theorem record_join {parts fields : List Text} (hne : parts ≠ [])
    (h : List.Forall₂ Field parts fields) : Record (Text.join [0x2C] parts ++ [0x0A]) fields := by
  induction h with
  | nil => exact absurd rfl hne
  | @cons s t parts fields hfield hrest ih =>
    cases hrest with
    | nil => exact .last hfield
    | @cons s' t' parts' fields' hfield' hrest' =>
      rw [Text.join, List.append_assoc, List.append_assoc, List.singleton_append]
      exact .cons hfield (ih (List.cons_ne_nil _ _))

/-- Records with line feeds between them, and one at the end. -/
theorem file_join {lines : List Text} {records : List (List Text)} (hne : lines ≠ [])
    (h : List.Forall₂ (fun line r => Record (line ++ [0x0A]) r) lines records) :
    File (Text.join [0x0A] lines ++ [0x0A]) records := by
  induction h with
  | nil => exact absurd rfl hne
  | @cons line r lines records hrecord hrest ih =>
    cases hrest with
    | nil =>
      have hlast := File.cons hrecord .nil
      rwa [List.append_nil] at hlast
    | @cons line' r' lines' records' hrecord' hrest' =>
      rw [Text.join, List.append_assoc]
      exact .cons hrecord (ih (List.cons_ne_nil _ _))

end Csv

end Lakehouse
