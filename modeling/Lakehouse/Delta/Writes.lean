import Lakehouse.Delta.AppendRows
/-!
# What an append writes

Whatever state `append_rows` is called in and whatever other writers do,
each of its transitions leaves every table but its own as it is, and adds
to that one rows of its batch (`only_adds_appendRows`).
-/

namespace Lakehouse

namespace Ingest

variable {F : Type}

/-- The rows a table holds. -/
def storedRows (uri : Text) (w : World F) : List (Row F) :=
  ((w.tables uri).head?.map Table.rows).getD []

/-- The rows a transition appends to a table. -/
def appended (uri : Text) (s t : World F) : List (Row F) :=
  (storedRows uri t).drop (storedRows uri s).length

/-- The rows a table already held stay its first ones. -/
def Retains (uri : Text) (s t : World F) : Prop := storedRows uri s <+: storedRows uri t

/-- **A version adds rows to the one before**: it keeps its rows and its
columns, and adds rows that satisfy `P`, in these columns. A first version
takes its columns from such a row. -/
structure AddsVersion (P : Row F → Prop) (older : List (Table F)) (newest : Table F)
    (added : List (Row F)) : Prop where
  rows : newest.rows = (older.head?.map Table.rows).getD [] ++ added
  added : ∀ u ∈ added, ∃ r, P r ∧ u = r.project newest.columns
  columns : ∀ t ∈ older.head?, newest.columns = t.columns
  first : older = [] → ∃ r, P r ∧ r.columns = newest.columns

/-- **A transition adds to one table**: it makes at most one version, which
adds rows that satisfy `P`. -/
structure Adds (uri : Text) (P : Row F → Prop) (s t : World F) : Prop where
  frame : t = { s with tables := Function.update s.tables uri (t.tables uri) }
  rows : t.tables uri = s.tables uri ∨ ∃ newest added, t.tables uri = newest :: s.tables uri ∧
    AddsVersion P (s.tables uri) newest added

variable {uri : Text} {P P' : Row F → Prop} {s t : World F}

/-- A table left as it was retains its rows and has none appended. -/
theorem retains_of_eq (h : t.tables uri = s.tables uri) :
    Retains uri s t ∧ appended uri s t = [] := by
  have hs : storedRows uri t = storedRows uri s := by rw [storedRows, storedRows, h]
  rw [Retains, appended, hs]
  exact ⟨List.prefix_refl _, List.drop_length⟩

/-- Nothing added. -/
theorem Adds.refl (s : World F) : Adds uri P s s :=
  ⟨by rw [Function.update_eq_self], Or.inl rfl⟩

/-- A weaker condition on the rows added. -/
theorem AddsVersion.mono {older : List (Table F)} {newest : Table F} {added : List (Row F)}
    (hP : ∀ r, P r → P' r) (h : AddsVersion P older newest added) :
    AddsVersion P' older newest added where
  rows := h.rows
  added u hu := (h.added u hu).imp fun r hr => ⟨hP r hr.1, hr.2⟩
  columns := h.columns
  first hn := (h.first hn).imp fun r hr => ⟨hP r hr.1, hr.2⟩

/-- A weaker condition on the rows added. -/
theorem Adds.mono (hP : ∀ r, P r → P' r) (h : Adds uri P s t) : Adds uri P' s t := by
  refine ⟨h.frame, h.rows.imp_right ?_⟩
  rintro ⟨newest, added, ht, hv⟩
  exact ⟨newest, added, ht, hv.mono hP⟩

/-- Other tables stay as they are. -/
theorem Adds.tables_of_ne (h : Adds uri P s t) {uri' : Text} (hne : uri' ≠ uri) :
    t.tables uri' = s.tables uri' := by
  rw [h.frame]
  exact Function.update_of_ne hne _ _

/-- No offset is committed. -/
theorem Adds.commits (h : Adds uri P s t) : t.commits = s.commits := by
  rw [h.frame]

/-- The rows a table held stay its first ones. -/
theorem Adds.retains (h : Adds uri P s t) (uri' : Text) :
    storedRows uri' s <+: storedRows uri' t := by
  by_cases he : uri' = uri
  · subst he
    obtain ht | ⟨newest, added, ht, hv⟩ := h.rows
    · rw [storedRows, storedRows, ht]
    · exact ⟨added, by rw [storedRows, storedRows, ht, ← hv.rows]; rfl⟩
  · rw [storedRows, storedRows, h.tables_of_ne he]

/-- A version that adds rows. -/
theorem Adds.push {table : Table F} {added : List (Row F)}
    (h : AddsVersion P (s.tables uri) table added) : Adds uri P s (s.push uri table) :=
  ⟨by rw [World.push_tables_self]; rfl, Or.inr ⟨table, added, World.push_tables_self .., h⟩⟩

variable [PyFloat F]

/-- A merge adds rows of its source. -/
theorem adds_mergeInsert {snapshot : Table F} {key : String} {source : ArrowTable F} {n : ℕ}
    (hP : ∀ r ∈ source.rows, P r)
    (h : World.Succeeds (.mergeInsert uri snapshot key source) s n t) : Adds uri P s t := by
  cases h with
  | @mergeInsert _ _ table older _ _ _ ht _ =>
    refine Adds.push ⟨by rw [ht]; rfl, fun u hu => ?_, fun t' ht' => ?_, fun hn => ?_⟩
    · obtain ⟨r, hr, rfl⟩ := List.mem_map.1 hu
      exact ⟨r, hP r (List.mem_filter.1 hr).1, rfl⟩
    · rw [ht] at ht'
      cases ht'
      rfl
    · rw [ht] at hn
      cases hn
  | mergeNothing => exact .refl s

/-- A first version adds the rows of its source. -/
theorem adds_createTable {name description : Text} {source : ArrowTable F}
    (hP : ∀ r ∈ source.rows, P r) (hproj : ∀ r ∈ source.rows, r = r.project source.columns)
    (hne : source.rows ≠ [])
    (h : World.Succeeds (.createTable uri name description source) s () t) : Adds uri P s t := by
  cases h with
  | createTable ht =>
    refine Adds.push ⟨by rw [ht]; rfl, fun u hu => ⟨u, hP u hu, hproj u hu⟩, fun t' ht' => ?_,
      fun _ => ?_⟩
    · rw [ht] at ht'
      cases ht'
    · obtain ⟨r, hr⟩ := List.exists_mem_of_ne_nil _ hne
      refine ⟨r, hP r hr, ?_⟩
      rw [hproj r hr, Row.project_columns]
      rfl

omit [PyFloat F] in
/-- A row in some columns, taken in them again. -/
theorem Row.project_project (cs : List String) (r : Row F) :
    (r.project cs).project cs = r.project cs :=
  List.map_congr_left fun c hc => by rw [Row.get_project_of_mem hc]

omit [PyFloat F] in
/-- The rows of an Arrow table are those of the batch in its columns. -/
theorem fromPylist_rows {rows : List (Row F)} {schema : Option (List String)}
    {source : ArrowTable F} (h : ArrowTable.fromPylist rows schema = .ok source) :
    source.rows = rows.map (Row.project source.columns) := by
  unfold ArrowTable.fromPylist at h
  simp only at h
  split_ifs at h
  cases h
  rfl

omit [PyFloat F] in
/-- The columns of an Arrow table are those of its schema. -/
theorem fromPylist_columns {rows : List (Row F)} {columns : List String}
    {source : ArrowTable F} (h : ArrowTable.fromPylist rows (some columns) = .ok source) :
    source.columns = columns := by
  unfold ArrowTable.fromPylist at h
  simp only at h
  split_ifs at h
  cases h
  rfl

/-! ## Programs by their transitions -/

/-- A program all of whose transitions are `G`-transitions. -/
abbrev Only {α : Type} (G : World F → World F → Prop) (p : Script F α) : Prop :=
  p.Obeys World.Performs G (fun _ => True) fun _ => True

section Only

variable {α β : Type} {G G' : World F → World F → Prop}

/-- A weaker condition on the transitions. -/
theorem Only.mono {p : Script F α} (hG : ∀ s t, G s t → G' s t) (hp : Only G p) : Only G' p :=
  Prog.Obeys.mono hG (fun _ => id) (fun _ => id) hp

/-- One program after another makes the transitions of both. -/
theorem Only.bind {p : Script F α} {f : α → Script F β} (hp : Only G p)
    (hf : ∀ a, Only G (f a)) : Only G (p >>= f) :=
  Prog.Obeys.bind (Prog.Obeys.mono (fun _ _ => id) (fun a _ => hf a) (fun _ => id) hp)

/-- A handled program makes its transitions and its handler's. -/
theorem Only.orElse {p : Script F α} {g : PyError → Script F α} (hp : Only G p)
    (hg : ∀ e, Only G (g e)) : Only G (p.orElse g) :=
  Prog.Obeys.orElse (Prog.Obeys.mono (fun _ _ => id) (fun _ => id) (fun e _ => hg e) hp)

/-- A computed value makes no transition. -/
theorem Only.pure (x : Except PyError α) : Only G (Script.pure x) :=
  Prog.Obeys.lift (fun _ _ => trivial) fun _ _ => trivial

/-- What follows a pure computation runs where that returned. -/
theorem Only.pure_bind {x : Except PyError α} {f : α → Script F β}
    (hf : ∀ a, x = .ok a → Only G (f a)) : Only G (Script.pure x >>= f) :=
  Prog.Obeys.bind (Prog.Obeys.lift hf fun _ _ => trivial)

variable (hrefl : ∀ s, G s s)

include hrefl

/-- A call that only reads. -/
theorem Only.read {o : Op F} (ho : o.isRead = true) : Only G (Prog.op o) := by
  refine Prog.Obeys.op fun s r t h => ?_
  obtain ⟨rfl, -⟩ := h.read ho
  exact ⟨hrefl t, fun _ _ => trivial, fun _ _ => trivial⟩

/-- However a call ends, it did nothing or what it is for. -/
theorem Only.op {o : Op F} (h : ∀ {s a t}, World.Succeeds o s a t → G s t) :
    Only G (Prog.op o) := by
  refine Prog.Obeys.op fun s r t hs => ⟨?_, fun _ _ => trivial, fun _ _ => trivial⟩
  cases hs with
  | done hs => exact h hs
  | refused _ _ => exact hrefl _
  | lost hs _ _ => exact h hs

end Only

/-! ## The append -/

section Append

variable {G : World F → World F → Prop} (hrefl : ∀ s, G s s)

include hrefl

/-- The replay guard only reads. -/
theorem only_rejectConflictingReplays (site : CheckSite) (table : Table F)
    (rows : List (Row F)) (keyColumn : String) :
    Only G (rejectConflictingReplays site table rows keyColumn) := by
  refine .bind (.pure _) fun columns => .bind (.pure _) fun keys => .bind (.orElse (.read hrefl rfl)
    fun e => ?_) fun existing => .pure _
  split_ifs
  · exact .bind (.read hrefl rfl) fun _ => trivial
  · trivial

/-- The retries make the transitions of the merge. -/
theorem only_mergeAttempts {source : ArrowTable F} {rows : List (Row F)} {keyColumn : String}
    (hmerge : ∀ {snapshot : Table F} {n : ℕ} {s t : World F},
      World.Succeeds (.mergeInsert uri snapshot keyColumn source) s n t → G s t) (attempts : ℕ) :
    Only G (mergeAttempts uri source rows keyColumn attempts) := by
  induction attempts with
  | zero => trivial
  | succ attempts ih =>
    refine .bind (.read hrefl rfl) fun table => ?_
    split_ifs
    · trivial
    refine .bind (only_rejectConflictingReplays hrefl _ _ _ _) fun _ => .orElse ?_ fun e => ?_
    · exact .bind (.op hrefl hmerge) fun _ => .bind (.read hrefl rfl) fun _ =>
        .bind (only_rejectConflictingReplays hrefl _ _ _ _) fun _ => trivial
    · split_ifs
      · exact ih
      · trivial

/-- **What an append does**: the merge of its batch, the creation of its
table with the batch, or nothing. -/
theorem only_appendRows (L : Library) (uri : Text) (rows : List (Row F)) (keyColumn : String)
    (tableDescription : Option Text) (arrowSchema : Option (List String)) (tableName : Text)
    (hmerge : ∀ {source : ArrowTable F}, ArrowTable.fromPylist rows arrowSchema = .ok source →
      ∀ {snapshot : Table F} {n : ℕ} {s t : World F},
        World.Succeeds (.mergeInsert uri snapshot keyColumn source) s n t → G s t)
    (hcreate : ∀ {source : ArrowTable F}, ArrowTable.fromPylist rows arrowSchema = .ok source →
      rows ≠ [] → ∀ {description : Text} {s t : World F},
        World.Succeeds (.createTable uri tableName description source) s () t → G s t) :
    Only G (appendRows L uri rows keyColumn tableDescription arrowSchema tableName) := by
  unfold appendRows
  split_ifs with hempty
  · trivial
  refine .bind (.pure _) fun _ => .pure_bind fun source hsource => .bind
    (.orElse (.bind (.read hrefl rfl) fun _ => trivial) fun e => ?_) fun isThere => ?_
  · split_ifs <;> trivial
  split_ifs
  · exact only_mergeAttempts hrefl (hmerge hsource) _
  · exact .bind (.pure _) fun _ => .bind (.op hrefl (hcreate hsource hempty)) fun _ =>
      .bind (.read hrefl rfl) fun _ => trivial

end Append

/-- **An append adds rows of its batch**, each as Arrow holds it. -/
theorem only_adds_appendRows (L : Library) (uri : Text) (rows : List (Row F)) (keyColumn : String)
    (tableDescription : Option Text) (arrowSchema : Option (List String)) (tableName : Text)
    (hP : ∀ source, ArrowTable.fromPylist rows arrowSchema = .ok source → ∀ r ∈ source.rows, P r) :
    Only (Adds uri P)
      (appendRows L uri rows keyColumn tableDescription arrowSchema tableName) := by
  refine only_appendRows .refl L uri rows keyColumn tableDescription arrowSchema tableName
    (fun hsource => adds_mergeInsert (hP _ hsource)) fun {source} hsource hempty =>
      adds_createTable (hP _ hsource) (fun r hr => ?_) ?_
  · rw [fromPylist_rows hsource] at hr
    obtain ⟨r', -, rfl⟩ := List.mem_map.1 hr
    exact (Row.project_project _ _).symm
  · rw [fromPylist_rows hsource]
    exact List.map_eq_nil_iff.not.2 hempty

end Ingest

end Lakehouse
