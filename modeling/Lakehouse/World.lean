import Lakehouse.Common.Prog
import Lakehouse.Common.Sql
import Lakehouse.Delta.Table
/-!
# The stores and the broker

The state the program works on: the versions of every Delta table, the
dead-letter topic, the committed offsets and the report files. An `Op` is
one atomic call on it. `Succeeds` says what a call that returns has done,
`Performs` adds the ways a call may fail, and an `Engine` is one
deterministic store that never fails on its own.
-/

namespace Lakehouse

/-- A message produced to a dead-letter topic. -/
structure DeadLetter where
  topic : Text
  key : Bytes
  value : Bytes
  deriving DecidableEq

/-- An offset committed for a partition. -/
structure Commit where
  topic : Text
  partition : ℤ
  offset : ℤ
  deriving DecidableEq

/-- One `TopicPartition` of a commit's reply, and whether it carries an
error. -/
structure CommitReply where
  topic : Text
  partition : ℤ
  offset : ℤ
  failed : Bool
  deriving DecidableEq

/-- **The stores.** -/
structure World (F : Type) where
  /-- Every version of each table, the newest first; none where there is
  no table. -/
  tables : Text → List (Table F)
  /-- What the dead-letter topics durably hold. -/
  deadLetters : List DeadLetter
  /-- The offsets committed, in order. -/
  commits : List Commit
  /-- The contents of the files written. -/
  files : Text → Option Text
  /-- The wall clock. -/
  clock : ℤ

/-- **One atomic call.** -/
inductive Op (F : Type) where
  /-- `DeltaTable(uri)`, or `DeltaTable(uri, version)`. -/
  | openTable (uri : Text) (version : Option ℕ)
  /-- `write_deltalake(uri, source, mode="error", name, description)` with
  `delta.appendOnly=true`. -/
  | createTable (uri name description : Text) (source : ArrowTable F)
  /-- `table.to_pyarrow_table(columns, filters).to_pylist()`. -/
  | readRows (table : Table F) (columns : List String) (filter : Option RowFilter)
  /-- `table.merge(source, "target.key = source.key").when_not_matched_insert_all().execute()`,
  with the number of inserted rows. -/
  | mergeInsert (uri : Text) (table : Table F) (keyColumn : String) (source : ArrowTable F)
  /-- `DeltaTable(uri).delete("column IN (literals)")`. -/
  | deleteIn (uri : Text) (column : String) (literals : Text)
  /-- `DeltaTable(uri).alter.set_table_properties` of `delta.appendOnly`. -/
  | setAppendOnly (uri : Text) (value : Bool)
  /-- `write_deltalake(uri, source, mode="overwrite", name, description)`. -/
  | overwriteTable (uri name description : Text) (source : ArrowTable F)
  /-- `producer.produce` and `producer.flush`, with the number of messages
  left and the delivery errors. -/
  | deliver (letter : DeadLetter)
  /-- `consumer.commit(message, asynchronous=False)`. -/
  | commitMessage (topic : Text) (partition : ℤ) (offset : Option ℤ)
  /-- A file written to a temporary path and moved in place. -/
  | writeFile (path text : Text)
  /-- `datetime.now(UTC)`. -/
  | now

/-- What a call returns. -/
abbrev Op.Res {F : Type} : Op F → Type
  | openTable _ _ => Table F
  | createTable _ _ _ _ => Unit
  | readRows _ _ _ => List (Row F)
  | mergeInsert _ _ _ _ => ℕ
  | deleteIn _ _ _ => Unit
  | setAppendOnly _ _ => Unit
  | overwriteTable _ _ _ _ => Unit
  | deliver _ => ℕ × List Text
  | commitMessage _ _ _ => List CommitReply
  | writeFile _ _ => Unit
  | now => ℤ

/-- A program over the stores. -/
abbrev Script (F α : Type) : Type := Prog (Op F) Op.Res PyError α

namespace Script

variable {F : Type}

abbrev openTable (uri : Text) : Script F (Table F) := Prog.op (Op.openTable uri none)

abbrev openVersion (uri : Text) (version : ℕ) : Script F (Table F) :=
  Prog.op (Op.openTable uri (some version))

abbrev createTable (uri name description : Text) (source : ArrowTable F) : Script F Unit :=
  Prog.op (Op.createTable uri name description source)

abbrev readRows (table : Table F) (columns : List String) (filter : Option RowFilter) :
    Script F (List (Row F)) :=
  Prog.op (Op.readRows table columns filter)

abbrev mergeInsert (uri : Text) (table : Table F) (keyColumn : String) (source : ArrowTable F) :
    Script F ℕ :=
  Prog.op (Op.mergeInsert uri table keyColumn source)

abbrev deleteIn (uri : Text) (column : String) (literals : Text) : Script F Unit :=
  Prog.op (Op.deleteIn uri column literals)

abbrev setAppendOnly (uri : Text) (value : Bool) : Script F Unit :=
  Prog.op (Op.setAppendOnly uri value)

abbrev overwriteTable (uri name description : Text) (source : ArrowTable F) : Script F Unit :=
  Prog.op (Op.overwriteTable uri name description source)

abbrev deliver (letter : DeadLetter) : Script F (ℕ × List Text) := Prog.op (Op.deliver letter)

abbrev commitMessage (topic : Text) (partition : ℤ) (offset : Option ℤ) :
    Script F (List CommitReply) :=
  Prog.op (Op.commitMessage topic partition offset)

abbrev writeFile (path text : Text) : Script F Unit := Prog.op (Op.writeFile path text)

abbrev now : Script F ℤ := Prog.op Op.now

/-- A computation that calls nothing. -/
abbrev pure {α : Type} (x : Except PyError α) : Script F α := Prog.lift x

end Script

/-- The calls that commit to a table: only they raise
`CommitFailedError`. -/
def Op.commits {F : Type} : Op F → Bool
  | createTable _ _ _ _ | mergeInsert _ _ _ _ | deleteIn _ _ _ | setAppendOnly _ _
  | overwriteTable _ _ _ _ => true
  | _ => false

/-- The calls that change nothing. -/
def Op.isRead {F : Type} : Op F → Bool
  | openTable _ _ | readRows _ _ _ | now => true
  | _ => false

/-- Whether a reply confirms an offset: one entry for the partition, with
that offset and no error. -/
def confirms (reply : List CommitReply) (topic : Text) (partition offset : ℤ) : Bool :=
  match reply.filter fun r => r.topic = topic ∧ r.partition = partition with
  | [r] => !r.failed && r.offset == offset
  | _ => false

namespace World

variable {F : Type}

/-- The world with one more version of a table. -/
def push (w : World F) (uri : Text) (t : Table F) : World F :=
  { w with tables := Function.update w.tables uri (t :: w.tables uri) }

/-- A version pushed is the newest. -/
@[simp] theorem push_tables_self (w : World F) (uri : Text) (t : Table F) :
    (w.push uri t).tables uri = t :: w.tables uri := by
  simp [push]

/-- Other tables are left. -/
theorem push_tables_of_ne (w : World F) {uri uri' : Text} (t : Table F) (h : uri' ≠ uri) :
    (w.push uri t).tables uri' = w.tables uri' := by
  simp [push, Function.update_of_ne h]

/-- The first version of a table. -/
def created (source : ArrowTable F) : Table F where
  version := 0
  appendOnly := true
  mergeWritten := false
  columns := source.columns
  rows := source.rows

/-- The version that replaces a table's content. -/
def overwritten (source : ArrowTable F) (version : ℕ) : Table F where
  version
  appendOnly := false
  mergeWritten := false
  columns := source.columns
  rows := source.rows

variable [PyFloat F]

/-- **What a call that returns has done.** -/
inductive Succeeds : (o : Op F) → World F → o.Res → World F → Prop
  | openTable {uri : Text} {w : World F} {t : Table F} {older : List (Table F)} :
      w.tables uri = t :: older → Succeeds (.openTable uri none) w t w
  | openVersion {uri : Text} {v : ℕ} {w : World F} {t : Table F} :
      t ∈ w.tables uri → t.version = v → Succeeds (.openTable uri (some v)) w t w
  | createTable {uri name description : Text} {source : ArrowTable F} {w : World F} :
      w.tables uri = [] →
      Succeeds (.createTable uri name description source) w () (w.push uri (created source))
  | readRows {t : Table F} {columns : List String} {filter : Option RowFilter} {w : World F}
      {rows : List (Row F)} :
      columns ⊆ t.columns → rows.Perm (t.read columns filter) →
      Succeeds (.readRows t columns filter) w rows w
  /-- A merge commits only over the version it read. -/
  | mergeInsert {uri : Text} {snapshot t : Table F} {older : List (Table F)} {key : String}
      {source : ArrowTable F} {w : World F} :
      w.tables uri = t :: older → t.version = snapshot.version →
      Succeeds (.mergeInsert uri snapshot key source) w
        (Table.unmatched key snapshot source.rows).length
        (w.push uri (t.mergeInsert key snapshot source.rows))
  /-- A merge without rows to insert may leave no version. -/
  | mergeNothing {uri : Text} {snapshot t : Table F} {older : List (Table F)} {key : String}
      {source : ArrowTable F} {w : World F} :
      w.tables uri = t :: older → t.version = snapshot.version →
      Table.unmatched key snapshot source.rows = [] →
      Succeeds (.mergeInsert uri snapshot key source) w 0 w
  /-- A table that is append-only deletes nothing. -/
  | deleteIn {uri literals : Text} {column : String} {keys : List Text} {t : Table F}
      {older : List (Table F)} {w : World F} :
      w.tables uri = t :: older → t.appendOnly = false → Sql.keysOf literals = some keys →
      Succeeds (.deleteIn uri column literals) w () (w.push uri (t.deleteIn column keys))
  | setAppendOnly {uri : Text} {value : Bool} {t : Table F} {older : List (Table F)}
      {w : World F} :
      w.tables uri = t :: older →
      Succeeds (.setAppendOnly uri value) w ()
        (w.push uri { t with version := t.version + 1, appendOnly := value })
  | overwriteNew {uri name description : Text} {source : ArrowTable F} {w : World F} :
      w.tables uri = [] →
      Succeeds (.overwriteTable uri name description source) w ()
        (w.push uri (overwritten source 0))
  | overwriteTable {uri name description : Text} {source : ArrowTable F} {t : Table F}
      {older : List (Table F)} {w : World F} :
      w.tables uri = t :: older → t.appendOnly = false →
      Succeeds (.overwriteTable uri name description source) w ()
        (w.push uri (overwritten source (t.version + 1)))
  /-- A flush that leaves nothing and reports no error has delivered. -/
  | delivered {letter : DeadLetter} {w : World F} {reply : ℕ × List Text} :
      Succeeds (.deliver letter) w reply { w with deadLetters := w.deadLetters ++ [letter] }
  | undelivered {letter : DeadLetter} {w : World F} {reply : ℕ × List Text} :
      reply ≠ (0, []) → Succeeds (.deliver letter) w reply w
  | committed {topic : Text} {partition offset : ℤ} {w : World F} {reply : List CommitReply} :
      Succeeds (.commitMessage topic partition (some offset)) w reply
        { w with commits := w.commits ++ [⟨topic, partition, offset + 1⟩] }
  /-- Any reply may come without a commit, but one that confirms it. -/
  | uncommitted {topic : Text} {partition : ℤ} {offset : Option ℤ} {w : World F}
      {reply : List CommitReply} :
      (∀ n ∈ offset, confirms reply topic partition (n + 1) = false) →
      Succeeds (.commitMessage topic partition offset) w reply w
  | writeFile {path text : Text} {w : World F} :
      Succeeds (.writeFile path text) w () { w with files := Function.update w.files path text }
  | now {w : World F} {us : ℤ} : Succeeds .now w us w

/-- **What a call may do**: what it is for, nothing, or what it is for
without the caller learning of it. A commit that lost its race did
nothing. -/
inductive Performs : (o : Op F) → World F → Except PyError o.Res → World F → Prop
  | done {o : Op F} {w w' : World F} {a : o.Res} : Succeeds o w a w' → Performs o w (.ok a) w'
  | refused {o : Op F} {w : World F} {e : PyError} : e.isForeign = true →
      (e = .commitFailed → o.commits = true) → Performs o w (.error e) w
  | lost {o : Op F} {w w' : World F} {a : o.Res} {e : PyError} : Succeeds o w a w' →
      e.isForeign = true → e ≠ .commitFailed → Performs o w (.error e) w'

/-- A read leaves the world as it was. -/
theorem Succeeds.read {o : Op F} {w w' : World F} {a : o.Res} (ho : o.isRead = true)
    (h : Succeeds o w a w') : w' = w := by
  cases h <;> first | rfl | cases ho

/-- A call has done what it is for, whether or not it says so, or it has
done nothing and raised. -/
theorem Performs.did {o : Op F} {w w' : World F} {r : Except PyError o.Res}
    (h : Performs o w r w') :
    (∃ a, Succeeds o w a w' ∧ (r = .ok a ∨ ∃ e, r = .error e)) ∨
      w' = w ∧ ∃ e, r = .error e := by
  cases h with
  | done hs => exact Or.inl ⟨_, hs, Or.inl rfl⟩
  | refused _ _ => exact Or.inr ⟨rfl, _, rfl⟩
  | lost hs _ _ => exact Or.inl ⟨_, hs, Or.inr ⟨_, rfl⟩⟩

/-- A call that returns succeeded. -/
theorem Performs.ok {o : Op F} {w w' : World F} {a : o.Res} (h : Performs o w (.ok a) w') :
    Succeeds o w a w' := by
  generalize hr : (Except.ok a : Except PyError o.Res) = r at h
  cases h with
  | done hs => exact Except.ok.inj hr ▸ hs
  | refused _ _ => cases hr
  | lost _ _ _ => cases hr

/-- A call that raised did nothing, or does not say that it lost a race. -/
theorem Performs.error {o : Op F} {w w' : World F} {e : PyError}
    (h : Performs o w (.error e) w') : w' = w ∨ e ≠ .commitFailed ∧ ∃ a, Succeeds o w a w' := by
  generalize hr : (Except.error e : Except PyError o.Res) = r at h
  cases h with
  | done hs => cases hr
  | refused _ _ => exact Or.inl rfl
  | lost hs _ hne => exact Or.inr ⟨Except.error.inj hr ▸ hne, _, hs⟩

/-- A call that only reads answers, or raises no commit failure. -/
theorem Performs.read {o : Op F} {w w' : World F} {r : Except PyError o.Res}
    (ho : o.isRead = true) (h : Performs o w r w') :
    w' = w ∧ match r with
      | .ok a => Succeeds o w a w
      | .error e => e.isForeign = true ∧ e ≠ .commitFailed := by
  have hc : o.commits = false := by
    cases o <;> first | rfl | cases ho
  cases h with
  | done hs =>
    obtain rfl := hs.read ho
    exact ⟨rfl, hs⟩
  | refused hf hce =>
    refine ⟨rfl, hf, fun he => ?_⟩
    rw [hce he] at hc
    cases hc
  | lost hs hf hne => exact ⟨hs.read ho, hf, hne⟩

end World

/-! ## A deterministic store -/

/-- **A store that never fails on its own**: the order it reads rows in,
whether a merge without rows to insert makes a version, whether a merge
refuses columns the table lacks, and whether a table that holds
merge-written files refuses a read with an `in` filter. It answers one with
an `=` filter. -/
structure Engine (F : Type) where
  order : List (Row F) → List (Row F)
  order_perm : ∀ rows, (order rows).Perm rows
  bumpsEmpty : Bool
  refusesExtra : Bool
  refusesIn : Bool

namespace Engine

/-- A store that reads rows in the order it holds them. -/
def plain (F : Type) : Engine F where
  order := id
  order_perm _ := .refl _
  bumpsEmpty := true
  refusesExtra := false
  refusesIn := false

variable {F : Type} [PyFloat F] (E : Engine F)

/-- The version a merge makes. -/
def merged (w : World F) (uri : Text) (t snapshot : Table F) (key : String)
    (source : ArrowTable F) : World F :=
  if Table.unmatched key snapshot source.rows = [] ∧ E.bumpsEmpty = false then w
  else w.push uri (t.mergeInsert key snapshot source.rows)

/-- **What the store does with a call.** -/
def handle : Prog.Handler (Op F) Op.Res PyError (World F)
  | .openTable uri none, w =>
    match w.tables uri with
    | t :: _ => (.ok t, w)
    | [] => (.error .tableNotFound, w)
  | .openTable uri (some v), w =>
    match (w.tables uri).find? (·.version = v) with
    | some t => (.ok t, w)
    | none => (.error .tableNotFound, w)
  | .createTable uri _ _ source, w =>
    match w.tables uri with
    | [] => (.ok (), w.push uri (World.created source))
    | _ :: _ => (.error (.clientError (lit "A Delta Lake table already exists")), w)
  | .readRows t columns filter, w =>
    if E.refusesIn = true ∧ t.mergeWritten = true ∧ filter.any (·.isMembership) then
      (.error .arrowNotImplemented, w)
    else if columns ⊆ t.columns then (.ok (E.order (t.read columns filter)), w)
    else (.error (.clientError (lit "No such column")), w)
  | .mergeInsert uri snapshot key source, w =>
    match w.tables uri with
    | t :: _ =>
      if E.refusesExtra = true ∧ ¬source.columns ⊆ t.columns then
        (.error (.clientError (lit "No such column")), w)
      else if t.version = snapshot.version then
        (.ok (Table.unmatched key snapshot source.rows).length,
          E.merged w uri t snapshot key source)
      else (.error .commitFailed, w)
    | [] => (.error .commitFailed, w)
  | .deleteIn uri column literals, w =>
    match w.tables uri with
    | t :: _ =>
      if t.appendOnly = true then
        (.error (.clientError (lit "The transaction includes Remove action")), w)
      else match Sql.keysOf literals with
      | some keys => (.ok (), w.push uri (t.deleteIn column keys))
      | none => (.error (.clientError (lit "sql parser error")), w)
    | [] => (.error .tableNotFound, w)
  | .setAppendOnly uri value, w =>
    match w.tables uri with
    | t :: _ => (.ok (), w.push uri { t with version := t.version + 1, appendOnly := value })
    | [] => (.error .tableNotFound, w)
  | .overwriteTable uri _ _ source, w =>
    match w.tables uri with
    | t :: _ =>
      if t.appendOnly = true then
        (.error (.clientError (lit "The transaction includes Remove action")), w)
      else (.ok (), w.push uri (World.overwritten source (t.version + 1)))
    | [] => (.ok (), w.push uri (World.overwritten source 0))
  | .deliver letter, w => (.ok (0, []), { w with deadLetters := w.deadLetters ++ [letter] })
  | .commitMessage topic partition (some offset), w =>
    (.ok [⟨topic, partition, offset + 1, false⟩],
      { w with commits := w.commits ++ [⟨topic, partition, offset + 1⟩] })
  | .commitMessage _ _ none, w => (.error .kafkaException, w)
  | .writeFile path text, w => (.ok (), { w with files := Function.update w.files path text })
  | .now, w => (.ok w.clock, w)

/-- **The store is one of those the results about any store cover.** -/
theorem performs_handle (o : Op F) (w : World F) :
    World.Performs o w (E.handle o w).1 (E.handle o w).2 := by
  cases o with
  | openTable uri version =>
    cases version with
    | none =>
      rw [handle]
      cases h : w.tables uri with
      | nil => exact .refused rfl nofun
      | cons t older => exact .done (.openTable h)
    | some v =>
      rw [handle]
      cases h : (w.tables uri).find? (·.version = v) with
      | none => exact .refused rfl nofun
      | some t =>
        have hv := List.find?_some h
        exact .done (.openVersion (List.mem_of_find?_eq_some h) (of_decide_eq_true hv))
  | createTable uri name description source =>
    rw [handle]
    cases h : w.tables uri with
    | nil => exact .done (.createTable h)
    | cons t older => exact .refused rfl nofun
  | readRows t columns filter =>
    rw [handle]
    split_ifs with hf h
    · exact .refused rfl nofun
    · exact .done (.readRows h (E.order_perm _))
    · exact .refused rfl nofun
  -- a merge conflicts, inserts nothing, or makes a version
  | mergeInsert uri snapshot key source =>
    rw [handle]
    cases h : w.tables uri with
    | nil => exact .refused rfl fun _ => rfl
    | cons t older =>
      simp only
      split_ifs with hx hv
      · exact .refused rfl nofun
      · rw [merged]
        split_ifs with hn
        · have hlen : (Table.unmatched key snapshot source.rows).length = 0 := by rw [hn.1]; rfl
          rw [hlen]
          exact .done (.mergeNothing h hv hn.1)
        · exact .done (.mergeInsert h hv)
      · exact .refused rfl fun _ => rfl
  | deleteIn uri column literals =>
    rw [handle]
    cases h : w.tables uri with
    | nil => exact .refused rfl nofun
    | cons t older =>
      simp only
      split_ifs with ha
      · exact .refused rfl nofun
      · cases hk : Sql.keysOf literals with
        | none => exact .refused rfl nofun
        | some keys => exact .done (.deleteIn h (Bool.eq_false_iff.2 ha) hk)
  | setAppendOnly uri value =>
    rw [handle]
    cases h : w.tables uri with
    | nil => exact .refused rfl nofun
    | cons t older => exact .done (.setAppendOnly h)
  | overwriteTable uri name description source =>
    rw [handle]
    cases h : w.tables uri with
    | nil => exact .done (.overwriteNew h)
    | cons t older =>
      simp only
      split_ifs with ha
      · exact .refused rfl nofun
      · exact .done (.overwriteTable h (Bool.eq_false_iff.2 ha))
  | deliver letter => exact .done .delivered
  | commitMessage topic partition offset =>
    cases offset with
    | none => exact .refused rfl nofun
    | some n => exact .done .committed
  | writeFile path text => exact .done .writeFile
  | now => exact .done .now

/-- A call that returns has done what it is for. -/
theorem succeeds_of_run {o : Op F} {w w' : World F} {a : o.Res}
    (h : (Prog.op o : Script F o.Res).run E.handle w = (.ok a, w')) :
    World.Succeeds o w a w' := by
  rw [Prog.run_op] at h
  have hp := E.performs_handle o w
  rw [h] at hp
  cases hp with
  | done hs => exact hs

/-- A table that exists is opened at its newest version. -/
theorem run_openTable {uri : Text} {w : World F} {t : Table F} {older : List (Table F)}
    (h : w.tables uri = t :: older) :
    (Script.openTable uri).run E.handle w = (.ok t, w) := by
  rw [Prog.run_op, handle, h]

/-- A read without an `in` filter is answered. -/
theorem run_readRows_filter {t : Table F} {columns : List String} {filter : Option RowFilter}
    {w : World F} (hfilter : filter.any (·.isMembership) = false) (h : columns ⊆ t.columns) :
    (Script.readRows t columns filter).run E.handle w =
      (.ok (E.order (t.read columns filter)), w) := by
  rw [Prog.run_op, handle, if_neg (by simp [hfilter]), if_pos h]

/-- An unfiltered read. -/
theorem run_readRows {t : Table F} {columns : List String} {w : World F}
    (h : columns ⊆ t.columns) :
    (Script.readRows t columns none).run E.handle w =
      (.ok (E.order (t.read columns none)), w) :=
  E.run_readRows_filter rfl h

end Engine

end Lakehouse
