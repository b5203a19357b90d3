import Lakehouse.Delta.Writes
import Lakehouse.Kafka.Durability
import Lakehouse.Ingest.SignedRow
/-!
# The scope of every row a run writes

A run writes rows along two paths: the append of its batch, behind the
scope checks, and the quarantine of the messages it refuses, which no
check guards. `run_moves` bounds every transition a run makes itself;
`run_inScope` and `run_respects_scope` read off what the two paths store.
-/

namespace Lakehouse

namespace Kafka

open Ingest

variable {F : Type} {L : Library}

/-! ## The scope of an event -/

/-- **The label of an event was mapped for its type.** -/
def Classified (L : Library) (e : Event) : Prop :=
  Segregation.scopeForClassification L e.dataClassification =
    .ok ((Segregation.scopeForName e.eventType).getD .platform)

/-- An event keeps its type and its classification. -/
theorem normalizeEvent_labels [PyFloat F] {now : ℤ} {event : InternalEvent F} {e : Event}
    (h : normalizeEvent L now event = .ok e) :
    e.eventType = event.eventType ∧ e.dataClassification = event.dataClassification := by
  obtain ⟨_, -, h⟩ := bind_eq_ok.1 h
  obtain ⟨_, -, h⟩ := bind_eq_ok.1 h
  split_ifs at h
  obtain ⟨_, -, h⟩ := bind_eq_ok.1 h
  obtain ⟨_, -, h⟩ := bind_eq_ok.1 h
  obtain ⟨_, -, h⟩ := bind_eq_ok.1 h
  obtain ⟨_, -, h⟩ := bind_eq_ok.1 h
  obtain ⟨eventType, htype, h⟩ := bind_eq_ok.1 h
  obtain ⟨_, -, h⟩ := bind_eq_ok.1 h
  obtain ⟨_, -, h⟩ := bind_eq_ok.1 h
  obtain ⟨_, -, h⟩ := bind_eq_ok.1 h
  cases h
  exact ⟨(Json.str.inj (requireCanonicalText_eq_ok L htype).1).symm, rfl⟩

/-- **Every event the decoder returns is classified for its type.** -/
theorem decodeEvent_classified [PyFloat F] {E : Ed25519} {directory : Members E.PublicKey}
    {schemaErrors : Members (Doc F) → List Text} {now : ℤ} {value : Option Bytes} {e : Event}
    (h : decodeEvent L E directory schemaErrors now value = .ok e) : Classified L e := by
  obtain ⟨document, -, h⟩ := bind_eq_ok.1 h
  obtain ⟨event, hevent, h⟩ := bind_eq_ok.1 h
  obtain ⟨htype, hlabel⟩ := normalizeEvent_labels h
  obtain ⟨_, _, hp⟩ := mapCanonicalEnvelope_eq_ok hevent
  obtain ⟨v, -, hv⟩ := hp.classification
  rw [Classified, htype, hlabel]
  cases v with
  | str classification => exact Segregation.scope_of_mapCanonicalClassification hv
  | null | bool _ | num _ | arr _ | obj _ => cases hv

/-- A batch let through is of one scope. -/
theorem enforceEventScope_eq_ok {scope : LakehouseScope} {events : List Event}
    (h : enforceEventScope L scope events = .ok ()) :
    ∀ e ∈ events, Segregation.scopeForClassification L e.dataClassification = .ok scope := by
  induction events with
  | nil => exact nofun
  | cons first events ih =>
    rw [enforceEventScope] at h
    obtain ⟨eventScope, hscope, h⟩ := bind_eq_ok.1 h
    split_ifs at h with hne
    intro e he
    obtain rfl | he := List.mem_cons.1 he
    · rw [hscope, not_not.1 hne]
    · exact ih h e he

/-! ## The rows of a scope -/

/-- **A row belongs to a scope**: its classification does. -/
def Respects (L : Library) (scope : LakehouseScope) (u : Row F) : Prop :=
  ∃ classification, u.get "data_classification" = .text classification ∧
    Segregation.scopeForClassification L classification = .ok scope

/-- **An event row of a scope**: its classification belongs to the scope, and
its type to the scope's namespaces, or to none where the scope is the
platform. -/
def InScope (L : Library) (scope : LakehouseScope) (u : Row F) : Prop :=
  Respects L scope u ∧ ∃ eventType, u.get "event_type" = .text eventType ∧
    (Segregation.scopeForName eventType = some scope ∨
      scope = .platform ∧ Segregation.scopeForName eventType = none)

/-- **A quarantine row**. -/
def IsQuarantine (u : Row F) : Prop :=
  u.get "data_classification" = .text (lit "internal") ∧
    u.get "event_type" = .text (lit "lakehouse.dlq.quarantine.v1")

instance [DecidableEq F] : DecidablePred (IsQuarantine (F := F)) := fun _ =>
  inferInstanceAs (Decidable (_ ∧ _))

/-- A quarantine row belongs to the platform scope, and to no other. -/
theorem IsQuarantine.respects_iff {u : Row F} {scope : LakehouseScope} (h : IsQuarantine u) :
    Respects L scope u ↔ scope = .platform := by
  have hinternal : Segregation.scopeForClassification L (lit "internal") = .ok .platform := rfl
  constructor
  · rintro ⟨classification, hc, hs⟩
    obtain rfl := Cell.text.inj (h.1.symm.trans hc)
    exact (Except.ok.inj (hinternal.symm.trans hs)).symm
  · rintro rfl
    exact ⟨_, h.1, hinternal⟩

/-- An event of a scope makes an event row of it. -/
theorem Classified.inScope {scope : LakehouseScope} {e : Event} (he : Classified L e)
    (hs : Segregation.scopeForClassification L e.dataClassification = .ok scope) {u : Row F}
    (hu : ∀ c ∈ eventIdentityColumns, u.get c = (e.row : Row F).get c) : InScope L scope u := by
  refine ⟨⟨e.dataClassification, ?_, hs⟩, e.eventType, ?_, ?_⟩
  · rw [hu _ (by decide), Event.get_dataClassification]
  · rw [hu _ (by decide), Event.get_eventType]
  · rw [he] at hs
    cases hname : Segregation.scopeForName e.eventType with
    | none =>
      rw [hname] at hs
      exact Or.inr ⟨(Except.ok.inj hs).symm, rfl⟩
    | some s =>
      rw [hname] at hs
      exact Or.inl (congrArg some (Except.ok.inj hs))

/-! ## What a transition appends -/

section

variable {uri : Text} {P : Row F → Prop} {s t : World F}

/-- **What is appended to a table of events** agrees with rows of the batch on
every guarded column. -/
theorem adds_appended (h : Adds uri P s t)
    (hl : Lineage "event_id" eventIdentityColumns (t.tables uri)) :
    Retains uri s t ∧ ∀ u ∈ appended uri s t, ∃ r, P r ∧ ∀ c ∈ eventIdentityColumns,
      u.get c = r.get c := by
  refine ⟨h.retains uri, fun u hu => ?_⟩
  obtain he | ⟨newest, added, ht, hv⟩ := h.rows
  · rw [(retains_of_eq he).2] at hu
    cases hu
  · have hst : storedRows uri t = storedRows uri s ++ added := by
      rw [storedRows, ht]
      exact hv.rows
    have hcolumns := (hl.keyed newest (by rw [ht]; rfl)).columns
    rw [appended, hst, List.drop_left] at hu
    obtain ⟨r, hr, rfl⟩ := hv.added u hu
    exact ⟨r, hr, fun c hc => Row.get_project_of_mem (hcolumns hc)⟩

end

/-! ## The transitions of a run -/

/-- An event the decoder made of a message. -/
def Decoded (decode : ℤ → Option Bytes → Except PyError Event) (e : Event) : Prop :=
  ∃ us value, decode us value = .ok e

/-- **A transition of the quarantine**: it adds quarantine rows to the
quarantine table, or changes no table, and commits nothing. -/
def Quarantines (dlqTableUri : Text) (s t : World F) : Prop :=
  (Adds dlqTableUri IsQuarantine s t ∨ t.tables = s.tables) ∧ t.commits = s.commits

/-- A row that agrees with a quarantined record's, or with a decoded event's
of the scope. -/
def OfBatch (L : Library) (decode : ℤ → Option Bytes → Except PyError Event)
    (scope : LakehouseScope) (r : Row F) : Prop :=
  ∃ e, Decoded decode e ∧ Segregation.scopeForClassification L e.dataClassification = .ok scope ∧
    ∀ c ∈ eventIdentityColumns, r.get c = (e.row : Row F).get c

/-- **A transition of a run.** -/
def Moves (L : Library) (decode : ℤ → Option Bytes → Except PyError Event) (a : Arguments)
    (s t : World F) : Prop :=
  Adds a.tableUri (OfBatch L decode a.scope) s t ∨ Adds a.dlqTableUri IsQuarantine s t ∨
    t.tables = s.tables

/-- Nothing done quarantines nothing. -/
theorem Quarantines.refl {dlqTableUri : Text} (s : World F) : Quarantines dlqTableUri s s :=
  ⟨Or.inr rfl, rfl⟩

/-- A step that adds quarantine rows only quarantines. -/
theorem Quarantines.of_adds {dlqTableUri : Text} (s t : World F)
    (h : Adds dlqTableUri IsQuarantine s t) : Quarantines dlqTableUri s t :=
  ⟨Or.inl h, h.commits⟩

/-- A step that quarantines is within what a run may do. -/
theorem Quarantines.moves {decode : ℤ → Option Bytes → Except PyError Event} {a : Arguments}
    (s t : World F) (h : Quarantines a.dlqTableUri s t) : Moves L decode a s t :=
  Or.inr h.1

section

variable [PyFloat F] {dlq : DeadLetterQueue} {decode : ℤ → Option Bytes → Except PyError Event}

/-- The event of a quarantine record is labelled as one. -/
theorem event_isQuarantine {record : DlqRecord} {ingestedAt : ℤ} {event : Event}
    (h : record.event L F ingestedAt = .ok event) :
    event.eventType = lit "lakehouse.dlq.quarantine.v1" ∧
      event.dataClassification = lit "internal" := by
  obtain ⟨_, -, h⟩ := bind_eq_ok.1 h
  obtain ⟨_, -, h⟩ := bind_eq_ok.1 h
  cases h
  exact ⟨rfl, rfl⟩

/-- Appending a quarantine row only quarantines. -/
theorem only_quarantines_append (record : DlqRecord) :
    Only (Quarantines dlq.quarantineTableUri) (appendQuarantineRow (F := F) L dlq record) := by
  refine .bind (.bind (.orElse (.bind (.read .refl rfl) fun _ => trivial) fun e => ?_)
    fun table => ?_) fun already => ?_
  · split_ifs <;> trivial
  · cases table with
    | none => trivial
    | some table => exact .bind (.read .refl rfl) fun _ => trivial
  · split_ifs
    · trivial
    refine .bind (.read .refl rfl) fun ingestedAt => .pure_bind fun event hevent => ?_
    obtain ⟨htype, hlabel⟩ := event_isQuarantine hevent
    refine .orElse (.bind (.mono Quarantines.of_adds (only_adds_appendRows L _ _ _ _ _ _
      fun source hsource r hr => ?_)) fun _ => trivial) fun e => trivial
    have hbatch : ArrowTable.fromPylist ([event].map Event.row) none = .ok source := hsource
    obtain ⟨e, he, hcols⟩ := Event.source_get hbatch hr
    obtain rfl := List.mem_singleton.1 he
    refine ⟨?_, ?_⟩
    · rw [hcols _ (by decide), Event.get_dataClassification, hlabel]
    · rw [hcols _ (by decide), Event.get_eventType, htype]

/-- Quarantining a message only quarantines. -/
theorem only_quarantines_message (m : Message) (e : PyError) :
    Only (Quarantines dlq.quarantineTableUri) (quarantineMessage (F := F) L dlq m e) := by
  unfold quarantineMessage
  split
  · refine .bind (.read .refl rfl) fun _ => .bind (.pure _) fun record => .bind (.pure _)
      fun letter => .bind (.op .refl fun h => ?_) fun flushed => ?_
    · cases h with
      | delivered => exact ⟨Or.inr rfl, rfl⟩
      | undelivered _ => exact .refl _
    · split_ifs
      · trivial
      · exact only_quarantines_append record
  · trivial

/-- **Collecting only quarantines**, and what it collects it decoded. -/
theorem obeys_collectMessages {maximum : ℕ} (polls : List Poll) :
    ∀ {acc : Collected}, (∀ e ∈ acc.events, Decoded decode e) →
      (collectMessages (F := F) L decode maximum dlq polls acc).Obeys World.Performs
        (Quarantines dlq.quarantineTableUri) (fun acc => ∀ e ∈ acc.events, Decoded decode e)
        fun _ => True := by
  have hfinish : ∀ {acc : Collected}, (∀ e ∈ acc.events, Decoded decode e) →
      (finishBatch acc : Script F Collected).Obeys World.Performs
        (Quarantines dlq.quarantineTableUri) (fun acc => ∀ e ∈ acc.events, Decoded decode e)
        fun _ => True := by
    intro acc h
    unfold finishBatch
    split_ifs
    · trivial
    · exact h
  induction polls with
  | nil => exact hfinish
  | cons poll polls ih =>
    intro acc h
    unfold collectMessages
    split_ifs
    · exact hfinish h
    cases poll with
    | idle => exact ih h
    | partitionEof => exact ih h
    | brokerError => trivial
    | message m =>
      refine Prog.Obeys.bind (Prog.Obeys.mono (fun _ _ => id) (fun us _ => ?_) (fun _ => id)
        (Only.read (G := Quarantines dlq.quarantineTableUri) .refl rfl))
      cases hd : decode us m.value >>= checkRepeat L acc with
      | ok e =>
        refine ih fun e' he' => ?_
        obtain he' | he' := List.mem_append.1 he'
        · exact h e' he'
        obtain rfl := List.mem_singleton.1 he'
        obtain ⟨e'', hd, he⟩ := bind_eq_ok.1 hd
        unfold checkRepeat at he
        split_ifs at he
        cases he
        exact ⟨us, m.value, hd⟩
      | error e =>
        simp only
        split_ifs
        · have hr : ∀ e' ∈ (acc.reject (rejectionReason e) m).events, Decoded decode e' := h
          exact Prog.Obeys.bind (Prog.Obeys.mono (fun _ _ => id) (fun _ _ => ih hr) (fun _ => id)
            (only_quarantines_message m e))
        · trivial

/-! ## The run, cut after its collection -/

/-- **What a run does with what it collected.** -/
def settle (L : Library) (a : Arguments) (collected : Collected) :
    Script F (Ingested × Members ℤ) := do
  Script.pure (enforceEventScope L a.scope collected.events)
  Script.pure (enforceRecordClassification L a.scope collected.events)
  let ingested ← appendCollected L a.tableUri collected
  let committedOffsets ← commitMessages ingested.collected.messages
  return (ingested, committedOffsets)

/-- A run collects and then settles what it collected. -/
theorem run_eq_settle (a : Arguments) (polls : List Poll) :
    run (F := F) L decode a polls = (do
      let dlq ← Script.pure (checkArguments (F := F) L a)
      let collected ← collectMessages L decode a.maxMessages dlq polls ⟨[], [], []⟩
      settle L a collected) := by
  unfold run ingestBatch settle
  simp only [Prog.bind_assoc]

/-- **A batch with an event of another scope** is neither appended nor
committed: the run raises before either. -/
theorem settle_refused {a : Arguments} {collected : Collected}
    (h : ∃ e ∈ collected.events,
      Segregation.scopeForClassification L e.dataClassification ≠ .ok a.scope) :
    ∃ e, settle (F := F) L a collected = .raise e := by
  obtain ⟨e, he, hne⟩ := h
  cases hs : enforceEventScope L a.scope collected.events with
  | ok _ => exact absurd (enforceEventScope_eq_ok hs e he) hne
  | error err =>
    refine ⟨err, ?_⟩
    rw [settle, hs]
    rfl

/-- Committing the latest offsets changes the commits alone. -/
theorem only_commitLatest {G : World F → World F → Prop} (hrefl : ∀ s, G s s)
    (hcommit : ∀ s c, G s { s with commits := c }) (latest : List ((Text × ℤ) × Message)) :
    ∀ offsets, Only G (commitLatest latest offsets) := by
  induction latest with
  | nil => exact fun _ => trivial
  | cons l rest ih =>
    obtain ⟨⟨topic, partition⟩, m⟩ := l
    refine fun offsets => .bind (.op hrefl fun h => ?_) fun reply => ?_
    · generalize m.offset = offset at h
      cases h with
      | committed => exact hcommit _ _
      | uncommitted _ => exact hrefl _
    · split_ifs
      · trivial
      split
      · trivial
      split_ifs
      · exact ih _
      · trivial

/-- A transition that appends events of the batch, or changes no table. -/
def Appends (L : Library) (decode : ℤ → Option Bytes → Except PyError Event) (a : Arguments)
    (s t : World F) : Prop :=
  Adds a.tableUri (OfBatch L decode a.scope) s t ∨ t.tables = s.tables

/-- Settling appends decoded events and quarantine rows. -/
theorem only_appends_settle {a : Arguments} {collected : Collected}
    (hd : ∀ e ∈ collected.events, Decoded decode e) :
    Only (Appends L decode a) (settle (F := F) L a collected) := by
  have hrefl : ∀ s : World F, Appends L decode a s s := fun s => Or.inr rfl
  refine .pure_bind fun _ hscope => .bind (.pure _) fun _ => .bind ?_ fun ingested => .bind
    (.bind (.pure _) fun latest => only_commitLatest hrefl (fun _ _ => Or.inr rfl) _ _)
      fun offsets => trivial
  unfold appendCollected
  split_ifs
  · trivial
  refine .bind (.mono (fun _ _ => Or.inl) (only_adds_appendRows L _ _ _ _ _ _
    fun source hsource r hr => ?_)) fun _ => trivial
  obtain ⟨e, he, hcols⟩ := Event.source_get hsource hr
  exact ⟨e, hd e he, enforceEventScope_eq_ok hscope e he, hcols⟩

omit [PyFloat F] in
/-- The quarantine table is the one the arguments name. -/
theorem checkArguments_dlq {a : Arguments} (h : checkArguments (F := F) L a = .ok dlq) :
    dlq.quarantineTableUri = a.dlqTableUri := by
  obtain ⟨_, -, h⟩ := bind_eq_ok.1 h
  obtain ⟨_, -, h⟩ := bind_eq_ok.1 h
  obtain ⟨_, -, h⟩ := bind_eq_ok.1 h
  split_ifs at h
  obtain ⟨_, -, h⟩ := bind_eq_ok.1 h
  obtain ⟨_, -, h⟩ := bind_eq_ok.1 h
  cases h
  rfl

/-- **Every transition of a run** appends events of its batch, quarantines, or
changes no table. -/
theorem only_moves_run (a : Arguments) (polls : List Poll) :
    Only (Moves L decode a) (run (F := F) L decode a polls) := by
  rw [run_eq_settle]
  refine .pure_bind fun dlq hdlq => Prog.Obeys.bind (Prog.Obeys.mono (fun s t h => ?_)
    (fun acc hacc => Only.mono (fun s t => Or.imp_right Or.inr) (only_appends_settle hacc))
    (fun _ => id) (obeys_collectMessages polls nofun))
  rw [checkArguments_dlq hdlq] at h
  exact h.moves

/-! ## What a run stores -/

variable {a : Arguments} {polls : List Poll} {w : World F}

/-- **What each transition of a run appends**: to the events table events of
its batch, to the quarantine table quarantine rows. -/
theorem run_appended (ha : checkArguments (F := F) L a = .ok dlq)
    (hw : Sound a.tableUri dlq.quarantineTableUri w) {q : Script F (Ingested × Members ℤ)}
    {own : Trail (World F)} {w' : World F}
    (h : Prog.Steps (setting F a.tableUri dlq.quarantineTableUri) (run L decode a polls) [] w
      q own w') :
    ∀ m ∈ own, ∀ uri ∈ [a.tableUri, dlq.quarantineTableUri], Retains uri m.1 m.2 ∧
      ∀ u ∈ appended uri m.1 m.2, uri = a.tableUri ∧ OfBatch L decode a.scope u ∨
        uri = dlq.quarantineTableUri ∧ IsQuarantine u := by
  intro m hm uri huri
  have hmove := ((only_moves_run a polls).steps h).2 m hm
  have hsound : Sound a.tableUri dlq.quarantineTableUri m.2 := by
    obtain hn | ⟨-, _, hC⟩ := (meets_run ha hw).own h m hm
    · cases hn
    · exact hC.1
  have hl : Lineage "event_id" eventIdentityColumns (m.2.tables uri) := by
    rw [List.mem_pair] at huri
    obtain rfl | rfl := huri
    · exact hsound.1
    · exact hsound.2
  have hother : ∀ {P : Row F → Prop} {uri' : Text}, Adds uri' P m.1 m.2 → uri ≠ uri' →
      Retains uri m.1 m.2 ∧ appended uri m.1 m.2 = [] := fun hadds hne =>
    retains_of_eq (hadds.tables_of_ne hne)
  obtain hadds | hadds | hsame := hmove.resolve_left nofun
  · by_cases he : uri = a.tableUri
    · subst he
      obtain ⟨hr, hu⟩ := adds_appended hadds hl
      refine ⟨hr, fun u hu' => Or.inl ⟨rfl, ?_⟩⟩
      obtain ⟨r, ⟨e, hd, hs, hcols⟩, hget⟩ := hu u hu'
      exact ⟨e, hd, hs, fun c hc => (hget c hc).trans (hcols c hc)⟩
    · obtain ⟨hr, hn⟩ := hother hadds he
      exact ⟨hr, by rw [hn]; nofun⟩
  · rw [← checkArguments_dlq ha] at hadds
    by_cases he : uri = dlq.quarantineTableUri
    · subst he
      obtain ⟨hr, hu⟩ := adds_appended hadds hl
      refine ⟨hr, fun u hu' => Or.inr ⟨rfl, ?_⟩⟩
      obtain ⟨r, hq, hget⟩ := hu u hu'
      exact ⟨(hget _ (by decide)).trans hq.1, (hget _ (by decide)).trans hq.2⟩
    · obtain ⟨hr, hn⟩ := hother hadds he
      exact ⟨hr, by rw [hn]; nofun⟩
  · obtain ⟨hr, hn⟩ := retains_of_eq (congrFun hsame uri)
    exact ⟨hr, by rw [hn]; nofun⟩

end

/-- **No cross-scope event row.** Every row a run appends to its events table
is an event row of its scope, or a quarantine row where the two tables are
one; every label the map returns belongs to the scope of the event type; and
a batch with an event of another scope ends the run with nothing of it
appended and nothing committed. -/
theorem run_inScope [PyFloat F] (L : Library) (E : Ed25519) (directory : Members E.PublicKey)
    (schemaErrors : Members (Doc F) → List Text) (a : Arguments) (polls : List Poll)
    (dlq : DeadLetterQueue) (w : World F) (ha : checkArguments (F := F) L a = .ok dlq)
    (hw : Sound a.tableUri dlq.quarantineTableUri w) :
    (∀ q own w', Prog.Steps (setting F a.tableUri dlq.quarantineTableUri)
      (run L (decodeEvent L E directory schemaErrors) a polls) [] w q own w' →
      ∀ m ∈ own, Retains a.tableUri m.1 m.2 ∧ ∀ u ∈ appended a.tableUri m.1 m.2,
        InScope L a.scope u ∨ a.tableUri = dlq.quarantineTableUri ∧ IsQuarantine u) ∧
    (∀ classification eventType label,
      Segregation.mapCanonicalClassification L classification eventType = .ok label →
      Segregation.scopeForClassification L label =
        .ok ((Segregation.scopeForName eventType).getD .platform)) ∧
    (run L (decodeEvent L E directory schemaErrors) a polls : Script F _) = (do
      let dlq ← Script.pure (checkArguments (F := F) L a)
      let collected ← collectMessages L (decodeEvent L E directory schemaErrors) a.maxMessages dlq
        polls ⟨[], [], []⟩
      settle L a collected) ∧
    ∀ collected own w', Prog.Steps (setting F a.tableUri dlq.quarantineTableUri)
      (collectMessages L (decodeEvent L E directory schemaErrors) a.maxMessages dlq polls
        ⟨[], [], []⟩) [] w (.ret collected) own w' →
      (∃ e ∈ collected.events,
        Segregation.scopeForClassification L e.dataClassification ≠ .ok a.scope) →
      (∀ m ∈ own, m.2.commits = m.1.commits ∧ (a.tableUri ≠ dlq.quarantineTableUri →
        m.2.tables a.tableUri = m.1.tables a.tableUri)) ∧
      ∀ q own' w'', Prog.Steps (setting F a.tableUri dlq.quarantineTableUri) (settle L a collected)
        own w' q own' w'' → (∃ e, q = .raise e) ∧ own' = own := by
  refine ⟨fun q own w' h m hm => ?_,
    fun _ _ _ => Segregation.scope_of_mapCanonicalClassification, run_eq_settle a polls,
    fun collected own w' h hforeign => ⟨fun m hm => ?_, fun q own' w'' h' => ?_⟩⟩
  · obtain ⟨hr, hu⟩ := run_appended ha hw h m hm a.tableUri (by simp)
    refine ⟨hr, fun u hu' => (hu u hu').imp (fun hb => ?_) id⟩
    obtain ⟨-, e, ⟨us, value, hd⟩, hs, hcols⟩ := hb
    exact (decodeEvent_classified hd).inScope hs hcols
  · obtain ⟨htables, hcommits⟩ := ((obeys_collectMessages polls
      fun _ he => absurd he List.not_mem_nil).steps h).2 m hm |>.resolve_left nofun
    refine ⟨hcommits, fun hne => ?_⟩
    obtain hadds | hsame := htables
    · exact hadds.tables_of_ne hne
    · exact congrFun hsame _
  · obtain ⟨e, he⟩ := settle_refused (F := F) (L := L) hforeign
    rw [he] at h'
    exact ⟨⟨e, h'.of_raise.1⟩, h'.of_raise.2⟩

/-- A signed gate scan, as the broker delivers it. -/
def gateScan : Message := ⟨some (lit "ports.gate-scans"), some 0, some 7, some levelMessages.1⟩

/-- The decoder of the port's gateway. -/
def decodeGate : ℤ → Option Bytes → Except PyError Event :=
  decodeEvent (F := Decimal) Library.ascii Envelope.echo [(lit "port-gateway-1", ())] fun _ => []

/-- A run of the platform scope over a signed gate scan and a poison
message. -/
def gateRun : Script Decimal (Ingested × Members ℤ) :=
  run Library.ascii decodeGate gateArguments [.message gateScan, .message poison]

/-- The run returns, and each of the two tables has a row. -/
theorem gateRun_rows :
    ((gateRun.run (Engine.plain Decimal).handle emptyWorld).1.isOk,
      (storedRows gateArguments.tableUri
        (gateRun.run (Engine.plain Decimal).handle emptyWorld).2).length,
      (storedRows gateArguments.dlqTableUri
        (gateRun.run (Engine.plain Decimal).handle emptyWorld).2).length) = (true, 1, 1) := by
  decide +kernel

/-- The run over the gate scan stores its event in the platform's table. -/
theorem run_inScope_gate : ∃ own w',
    (storedRows gateArguments.tableUri w').length = 1 ∧
    (∀ m ∈ own, Retains gateArguments.tableUri m.1 m.2 ∧
      ∀ u ∈ appended gateArguments.tableUri m.1 m.2, InScope Library.ascii .platform u ∨
        gateArguments.tableUri = gateArguments.dlqTableUri ∧ IsQuarantine u) ∧
    ∃ q, Prog.Steps (setting Decimal gateArguments.tableUri gateArguments.dlqTableUri) gateRun []
      emptyWorld q own w' := by
  have hstart : Prog.Steps (setting Decimal gateArguments.tableUri gateArguments.dlqTableUri)
      gateRun [] emptyWorld gateRun [] emptyWorld := .refl
  have h := hstart.run (Engine.plain Decimal).handle (Engine.plain Decimal).performs_handle
  exact ⟨_, _, (Prod.mk.inj (Prod.mk.inj gateRun_rows).2).1,
    (run_inScope Library.ascii Envelope.echo [(lit "port-gateway-1", ())] (fun _ => [])
      gateArguments [.message gateScan, .message poison]
      ⟨gateArguments.dlqTopic, gateArguments.dlqTableUri, gateArguments.groupId⟩ emptyWorld rfl
      ⟨⟨nofun, .nil⟩, ⟨nofun, .nil⟩⟩).1 _ _ _ h, _, h⟩

section

variable [PyFloat F] {decode : ℤ → Option Bytes → Except PyError Event}

/-- **Every message decodes**, to events with pairwise distinct ids. -/
def DecodesAll (decode : ℤ → Option Bytes → Except PyError Event) (ms : List Message) : Prop :=
  ∃ ids : List Text, ids.Nodup ∧
    List.Forall₂ (fun m id => ∀ us, ∃ e, decode us m.value = .ok e ∧ e.eventId = id) ms ids

/-- **Collecting messages that decode** changes no table. -/
theorem obeys_collectMessages_decoding {maximum : ℕ} {dlq : DeadLetterQueue} (polls : List Poll) :
    ∀ {acc : Collected} {ids : List Text}, (acc.events.map Event.eventId ++ ids).Nodup →
      List.Forall₂ (fun m id => ∀ us, ∃ e, decode us m.value = .ok e ∧ e.eventId = id)
        ((polledMessages polls).take (maximum - acc.messages.length)) ids →
      (∀ e ∈ acc.events, Decoded decode e) →
      (collectMessages (F := F) L decode maximum dlq polls acc).Obeys World.Performs
        (fun s t => t.tables = s.tables) (fun acc => ∀ e ∈ acc.events, Decoded decode e)
        fun _ => True := by
  have hfinish : ∀ {acc : Collected}, (∀ e ∈ acc.events, Decoded decode e) →
      (finishBatch acc : Script F Collected).Obeys World.Performs
        (fun s t => t.tables = s.tables) (fun acc => ∀ e ∈ acc.events, Decoded decode e)
        fun _ => True := by
    intro acc h
    unfold finishBatch
    split_ifs
    · trivial
    · exact h
  induction polls with
  | nil => exact fun _ _ h => hfinish h
  | cons poll polls ih =>
    intro acc ids hn hids h
    unfold collectMessages
    split_ifs with hmax
    · exact hfinish h
    cases poll with
    | idle => exact ih hn hids h
    | partitionEof => exact ih hn hids h
    | brokerError => trivial
    | message m =>
      have hpolled : (polledMessages (.message m :: polls)).take (maximum - acc.messages.length) =
          m :: (polledMessages polls).take (maximum - (acc.messages.length + 1)) := by
        have hp : polledMessages (.message m :: polls) = m :: polledMessages polls := rfl
        have hlen : maximum - acc.messages.length = (maximum - (acc.messages.length + 1)) + 1 := by
          omega
        rw [hp, hlen, List.take_succ_cons]
      rw [hpolled] at hids
      cases hids with
      | @cons _ eventId _ ids hm hids =>
        refine Prog.Obeys.bind (Prog.Obeys.mono (fun _ _ => id) (fun us _ => ?_)
          (fun _ => id) (Only.read (G := fun s t : World F => t.tables = s.tables) (fun _ => rfl) rfl))
        obtain ⟨e, hd, rfl⟩ := hm us
        -- the id is new, so the event joins the batch
        have hnew : e.eventId ∉ acc.events.map Event.eventId := fun hin =>
          (List.disjoint_of_nodup_append hn) hin List.mem_cons_self
        have hcheck : (decode us m.value >>= checkRepeat L acc) = .ok e := by
          rw [hd, ok_bind, checkRepeat, if_neg hnew]
        rw [hcheck]
        have haccept : (acc.accept e m).events = acc.events ++ [e] := rfl
        have hlength : (acc.accept e m).messages.length = acc.messages.length + 1 :=
          List.length_append
        have hids' : List.Forall₂
            (fun m id => ∀ us, ∃ e, decode us m.value = .ok e ∧ e.eventId = id)
            ((polledMessages polls).take (maximum - (acc.accept e m).messages.length)) ids := by
          rwa [hlength]
        refine ih ?_ hids' fun e' he' => ?_
        · rw [haccept, List.map_append, List.append_assoc]
          exact hn
        · obtain he' | he' := List.mem_append.1 he'
          · exact h e' he'
          · exact List.mem_singleton.1 he' ▸ ⟨us, m.value, hd⟩

/-- **A run only appends** decoded events and quarantine rows. -/
theorem only_appends_run {a : Arguments} {polls : List Poll}
    (h : DecodesAll decode (consumed a.maxMessages polls)) :
    Only (Appends L decode a) (run (F := F) L decode a polls) := by
  obtain ⟨ids, hn, hids⟩ := h
  rw [run_eq_settle]
  exact .pure_bind fun dlq _ => Prog.Obeys.bind (Prog.Obeys.mono (fun _ _ => Or.inr)
    (fun acc hacc => only_appends_settle hacc) (fun _ => id)
    (obeys_collectMessages_decoding polls hn hids fun _ he => absurd he List.not_mem_nil))

end

/-- **The scope of every row a run writes.** Where the scope is the platform,
or every message polled decodes to an event of an id of its own, every row
the run appends to its two tables belongs to its scope; and whatever is
polled, the rows appended belong to the scope exactly where the scope is the
platform or none of them is a quarantine row. -/
theorem run_respectsScope [PyFloat F] (L : Library)
    (decode : ℤ → Option Bytes → Except PyError Event) (a : Arguments) (polls : List Poll)
    (dlq : DeadLetterQueue) (w : World F) (ha : checkArguments (F := F) L a = .ok dlq)
    (hw : Sound a.tableUri dlq.quarantineTableUri w) :
    (a.scope = .platform ∨ DecodesAll decode (consumed a.maxMessages polls) →
      ∀ q own w', Prog.Steps (setting F a.tableUri dlq.quarantineTableUri)
        (run L decode a polls) [] w q own w' →
        ∀ m ∈ own, ∀ uri ∈ [a.tableUri, dlq.quarantineTableUri],
          ∀ u ∈ appended uri m.1 m.2, Respects L a.scope u) ∧
    ∀ q own w', Prog.Steps (setting F a.tableUri dlq.quarantineTableUri)
      (run L decode a polls) [] w q own w' →
      ((∀ m ∈ own, ∀ uri ∈ [a.tableUri, dlq.quarantineTableUri],
          ∀ u ∈ appended uri m.1 m.2, Respects L a.scope u) ↔
        a.scope = .platform ∨ ∀ m ∈ own, ∀ uri ∈ [a.tableUri, dlq.quarantineTableUri],
          ∀ u ∈ appended uri m.1 m.2, ¬IsQuarantine u) := by
  have hrows : ∀ {q own w'}, Prog.Steps (setting F a.tableUri dlq.quarantineTableUri)
      (run L decode a polls) [] w q own w' → ∀ m ∈ own,
      ∀ uri ∈ [a.tableUri, dlq.quarantineTableUri], ∀ u ∈ appended uri m.1 m.2,
        Respects L a.scope u ∨ IsQuarantine u := by
    intro q own w' h m hm uri huri u hu
    refine ((run_appended ha hw h m hm uri huri).2 u hu).imp (fun hb => ?_) And.right
    obtain ⟨-, e, -, hs, hcols⟩ := hb
    exact ⟨e.dataClassification, by rw [hcols _ (by decide), Event.get_dataClassification], hs⟩
  refine ⟨fun hcond q own w' h m hm uri huri u hu => ?_, fun q own w' h => ⟨fun hr => ?_,
    fun hcond m hm uri huri u hu => ?_⟩⟩
  · obtain hr | hq := hrows h m hm uri huri u hu
    · exact hr
    obtain hp | hd := hcond
    · exact hq.respects_iff.2 hp
    -- nothing is quarantined, so the row was appended with the batch
    obtain hadds | hsame := ((only_appends_run hd).steps h).2 m hm |>.resolve_left nofun
    · have hl : Lineage "event_id" eventIdentityColumns (m.2.tables a.tableUri) := by
        obtain hn | ⟨-, _, hC⟩ := (meets_run ha hw).own h m hm
        · cases hn
        · exact hC.1.1
      by_cases he : uri = a.tableUri
      · subst he
        obtain ⟨r, ⟨e, -, hs, hcols⟩, hget⟩ := (adds_appended hadds hl).2 u hu
        refine ⟨e.dataClassification, ?_, hs⟩
        rw [hget _ (by decide), hcols _ (by decide), Event.get_dataClassification]
      · rw [(retains_of_eq (hadds.tables_of_ne he)).2] at hu
        cases hu
    · rw [(retains_of_eq (congrFun hsame uri)).2] at hu
      cases hu
  -- a quarantine row respects the scope of the platform only
  · refine or_iff_not_imp_left.2 fun hne m hm uri huri u hu hq => ?_
    exact hne (hq.respects_iff.1 (hr m hm uri huri u hu))
  · obtain hr | hq := hrows h m hm uri huri u hu
    · exact hr
    · exact hcond.elim hq.respects_iff.2 fun hn => absurd hq (hn m hm uri huri u hu)

/-- A run of the fiduciary scope. -/
def fiduciaryArguments : Arguments where
  topic := lit "cvff.disbursements"
  scope := .cvff
  tableUri := lit "/srv/lakehouse/cvff/cvff_bronze/events"
  dlqTopic := lit "cvff.dead-letters"
  dlqTableUri := lit "/srv/lakehouse/cvff/cvff_bronze/quarantine"
  groupId := lit "lakehouse"
  maxMessages := 10

/-- The run over one poison message. -/
def fiduciaryRun : Script Decimal (Ingested × Members ℤ) :=
  run Library.ascii decodeGate fiduciaryArguments [.message poison]

/-- The run of the fiduciary scope over one poison message appends a row of
the platform's classification to a table under the fiduciary root. -/
theorem run_respectsScope_poison :
    checkArguments (F := Decimal) Library.ascii fiduciaryArguments = .ok
      ⟨fiduciaryArguments.dlqTopic, fiduciaryArguments.dlqTableUri, fiduciaryArguments.groupId⟩ ∧
    ∃ q own w', Prog.Steps
      (setting Decimal fiduciaryArguments.tableUri fiduciaryArguments.dlqTableUri) fiduciaryRun []
      emptyWorld q own w' ∧
    ∃ m ∈ own, ∃ u ∈ appended fiduciaryArguments.dlqTableUri m.1 m.2,
      ¬Respects Library.ascii fiduciaryArguments.scope u := by
  refine ⟨rfl, ?_⟩
  have hstart : Prog.Steps (setting Decimal fiduciaryArguments.tableUri
      fiduciaryArguments.dlqTableUri) fiduciaryRun [] emptyWorld fiduciaryRun [] emptyWorld := .refl
  have h := hstart.run (Engine.plain Decimal).handle (Engine.plain Decimal).performs_handle
  have hrow : ∃ m ∈ fiduciaryRun.trail (Engine.plain Decimal).handle emptyWorld,
      ∃ u ∈ appended fiduciaryArguments.dlqTableUri m.1 m.2, IsQuarantine u := by decide +kernel
  obtain ⟨m, hm, u, hu, hq⟩ := hrow
  exact ⟨_, _, _, h, m, hm, u, hu, fun hr => nomatch hq.respects_iff.1 hr⟩

/-- The platform's run over a gate scan and a poison message keeps the
boundary in both tables. -/
theorem run_respectsScope_gate : ∃ own w',
    (storedRows gateArguments.dlqTableUri w').length = 1 ∧
    (∀ m ∈ own, ∀ uri ∈ [gateArguments.tableUri, gateArguments.dlqTableUri],
      ∀ u ∈ appended uri m.1 m.2, Respects Library.ascii .platform u) ∧
    ∃ q, Prog.Steps (setting Decimal gateArguments.tableUri gateArguments.dlqTableUri) gateRun []
      emptyWorld q own w' := by
  have hstart : Prog.Steps (setting Decimal gateArguments.tableUri gateArguments.dlqTableUri)
      gateRun [] emptyWorld gateRun [] emptyWorld := .refl
  have h := hstart.run (Engine.plain Decimal).handle (Engine.plain Decimal).performs_handle
  exact ⟨_, _, (Prod.mk.inj (Prod.mk.inj gateRun_rows).2).2,
    (run_respectsScope Library.ascii decodeGate gateArguments
      [.message gateScan, .message poison]
      ⟨gateArguments.dlqTopic, gateArguments.dlqTableUri, gateArguments.groupId⟩ emptyWorld rfl
      ⟨⟨nofun, .nil⟩, ⟨nofun, .nil⟩⟩).1 (Or.inl rfl) _ _ _ h, _, h⟩

end Kafka

end Lakehouse
