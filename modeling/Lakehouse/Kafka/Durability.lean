import Lakehouse.Kafka.Run
/-!
# Nothing is lost by a commit

A message is `Landed` when its event is stored in the target table or when
it is quarantined: produced to the dead-letter topic and stored in the
quarantine table. `run_durable` holds at every point a run may have got to
or been stopped at, whatever call failed and whatever other writers of the
two tables did: where the run has committed an offset, every message it
polled has landed, and the offset is one past the last message it polled
from that partition.
-/

namespace Lakehouse

namespace Kafka

open Ingest

variable {F : Type} [PyFloat F]

/-! ## What a commit promises -/

/-- The messages of a list of polls. -/
def polledMessages (polls : List Poll) : List Message :=
  polls.filterMap fun
    | .message m => some m
    | _ => none

/-- **The messages a run polls**: it stops at the maximum. -/
def consumed (maximum : ℕ) (polls : List Poll) : List Message :=
  (polledMessages polls).take maximum

/-- A message polled joins a batch that has room. -/
theorem append_take_polled {maximum : ℕ} {ms : List Message} (h : ms.length < maximum)
    (m : Message) (polls : List Poll) :
    ms ++ (polledMessages (.message m :: polls)).take (maximum - ms.length) =
      ms ++ [m] ++ (polledMessages polls).take (maximum - (ms ++ [m]).length) := by
  have hp : polledMessages (.message m :: polls) = m :: polledMessages polls := rfl
  have hroom : maximum - ms.length = maximum - (ms ++ [m]).length + 1 := by
    rw [List.length_append, List.length_singleton]
    omega
  rw [hp, hroom, List.take_succ_cons, List.append_assoc, List.singleton_append]

/-- A row of a table carries an event id. -/
def HasEventId (id : Text) (h : List (Table F)) : Prop :=
  ∃ t ∈ h.head?, ∃ u ∈ t.rows, u.get "event_id" = .text id

/-- **A message is quarantined**: its record was produced to the
dead-letter topic, and the quarantine table has a row of its id. -/
def Quarantined (L : Library) (dlq : DeadLetterQueue) (m : Message) (w : World F) : Prop :=
  ∃ topic partition offset e us record letter,
    m.topic = some topic ∧ m.partition = some partition ∧ m.offset = some offset ∧
    buildDlqRecord L m.value topic partition offset (rejectionReason e) e.text
      dlq.consumerGroup us = .ok record ∧
    record.letter F dlq.dlqTopic = .ok letter ∧ letter ∈ w.deadLetters ∧
    HasEventId record.dlqEventId (w.tables dlq.quarantineTableUri)

/-- **A message has landed.** -/
def Landed (L : Library) (decode : ℤ → Option Bytes → Except PyError Event) (tableUri : Text)
    (dlq : DeadLetterQueue) (m : Message) (w : World F) : Prop :=
  (∃ us e, decode us m.value = .ok e ∧
    Held "event_id" eventIdentityColumns e.row (w.tables tableUri)) ∨ Quarantined L dlq m w

/-- A message of a partition. -/
def OfPartition (topic : Text) (partition : ℤ) (m : Message) : Prop :=
  m.topic = some topic ∧ m.partition = some partition

/-- The last message of a partition. -/
def LastOf (ms : List Message) (topic : Text) (partition : ℤ) (m : Message) : Prop :=
  ∃ before after, ms = before ++ m :: after ∧ OfPartition topic partition m ∧
    ∀ m' ∈ after, ¬OfPartition topic partition m'

/-- **A commit is one past the last message of its partition.** -/
def PastLast (ms : List Message) (c : Commit) : Prop :=
  ∃ m offset, LastOf ms c.topic c.partition m ∧ m.offset = some offset ∧ c.offset = offset + 1

/-- The commits a trail made. -/
def committedBy (own : Trail (World F)) : List Commit :=
  own.flatMap fun m => m.2.commits.drop m.1.commits.length

/-! ## The setting -/

/-- **What the others may do**: append to the two tables, and produce. -/
def Keeps (tableUri dlqTableUri : Text) (s t : World F) : Prop :=
  Grows "event_id" eventIdentityColumns (s.tables tableUri) (t.tables tableUri) ∧
    Grows "event_id" eventIdentityColumns (s.tables dlqTableUri) (t.tables dlqTableUri) ∧
    s.deadLetters ⊆ t.deadLetters

omit [PyFloat F] in
/-- Nothing happening is allowed. -/
theorem Keeps.refl {tableUri dlqTableUri : Text} (s : World F) : Keeps tableUri dlqTableUri s s :=
  ⟨Grows.refl _, Grows.refl _, List.Subset.refl _⟩

omit [PyFloat F] in
/-- What is allowed twice is allowed. -/
theorem Keeps.trans {tableUri dlqTableUri : Text} {s t u : World F}
    (h₁ : Keeps tableUri dlqTableUri s t) (h₂ : Keeps tableUri dlqTableUri t u) :
    Keeps tableUri dlqTableUri s u :=
  ⟨h₁.1.trans h₂.1, h₁.2.1.trans h₂.2.1, fun _ hl => h₂.2.2 (h₁.2.2 hl)⟩

/-- **The setting of a run**: any call may fail, and others append and
produce. -/
def setting (F : Type) [PyFloat F] (tableUri dlqTableUri : Text) :
    Setting (Op F) Op.Res PyError (World F) :=
  ⟨World.Performs, Keeps tableUri dlqTableUri, Keeps.refl, Keeps.trans⟩

/-- The newest versions of both tables hold events. -/
def Sound (tableUri dlqTableUri : Text) (s : World F) : Prop :=
  Lineage "event_id" eventIdentityColumns (s.tables tableUri) ∧
    Lineage "event_id" eventIdentityColumns (s.tables dlqTableUri)

omit [PyFloat F] in
/-- Both tables stay sound. -/
theorem Sound.keeps {tableUri dlqTableUri : Text} {s t : World F}
    (h : Sound tableUri dlqTableUri s) (hst : Keeps tableUri dlqTableUri s t) :
    Sound tableUri dlqTableUri t :=
  ⟨hst.1.lineage h.1, hst.2.1.lineage h.2⟩

omit [PyFloat F] in
/-- An append to any table is allowed. -/
theorem TableMove.keeps {tableUri dlqTableUri uri : Text} {s t : World F}
    (h : TableMove uri "event_id" eventIdentityColumns s t) : Keeps tableUri dlqTableUri s t := by
  have hg : ∀ uri', Grows "event_id" eventIdentityColumns (s.tables uri') (t.tables uri') := by
    intro uri'
    by_cases he : uri' = uri
    · exact he ▸ h.grows
    · have ht : t.tables uri' = s.tables uri' := by
        rw [h.frame]
        exact Function.update_of_ne he _ _
      rw [ht]
      exact Grows.refl _
  refine ⟨hg _, hg _, ?_⟩
  rw [h.frame]
  exact List.Subset.refl _

omit [PyFloat F] in
/-- The commits of one transition more. -/
theorem committedBy_append (own : Trail (World F)) (s t : World F) :
    committedBy (own ++ [(s, t)]) = committedBy own ++ t.commits.drop s.commits.length := by
  simp [committedBy]

/-- **Before the commits**: none made, and both tables sound. -/
def Uncommitted (tableUri dlqTableUri : Text) (own : Trail (World F)) (s : World F) : Prop :=
  committedBy own = [] ∧ Sound tableUri dlqTableUri s

section

variable {L : Library} {tableUri dlqTableUri : Text} {own : Trail (World F)} {s t : World F}

omit [PyFloat F] in
/-- A transition without a commit leaves none made. -/
theorem Uncommitted.move (h : Uncommitted tableUri dlqTableUri own s)
    (hst : Keeps tableUri dlqTableUri s t) (hc : t.commits = s.commits) :
    Uncommitted tableUri dlqTableUri (own ++ [(s, t)]) t := by
  refine ⟨?_, h.2.keeps hst⟩
  rw [committedBy_append, h.1, hc, List.drop_length]
  rfl

/-- An append to either table runs in this setting. -/
theorem hosts {uri : Text} (huri : uri = tableUri ∨ uri = dlqTableUri) :
    Hosts (setting F tableUri dlqTableUri) (Keeps tableUri dlqTableUri)
      (Uncommitted tableUri dlqTableUri) uri "event_id" eventIdentityColumns where
  sem h := h
  rely h := by
    obtain rfl | rfl := huri
    · exact h.1
    · exact h.2.1
  guarantee h := TableMove.keeps h
  crash_rely h hst := ⟨h.1, h.2.keeps hst⟩
  crash_move h hst := h.move (TableMove.keeps hst) (by rw [hst.frame])

omit [PyFloat F] in
/-- An event id that is stored stays stored. -/
theorem HasEventId.grows {id : Text} {h h' : List (Table F)} (hid : HasEventId id h)
    (hl : Lineage "event_id" eventIdentityColumns h)
    (hg : Grows "event_id" eventIdentityColumns h h') : HasEventId id h' := by
  obtain ⟨t, ht, u, hu, hk⟩ := hid
  obtain ⟨t', ht', hpre⟩ := hg.exists_head hl ht
  exact ⟨t', ht', u, hpre.subset hu, hk⟩

/-- A quarantined message stays quarantined. -/
theorem Quarantined.keeps {dlq : DeadLetterQueue} {m : Message} (h : Quarantined L dlq m s)
    (hs : Sound tableUri dlq.quarantineTableUri s)
    (hst : Keeps tableUri dlq.quarantineTableUri s t) : Quarantined L dlq m t := by
  obtain ⟨topic, partition, offset, e, us, record, letter, h1, h2, h3, h4, h5, h6, h7⟩ := h
  exact ⟨topic, partition, offset, e, us, record, letter, h1, h2, h3, h4, h5, hst.2.2 h6,
    h7.grows hs.2 hst.2.1⟩

/-- A message that has landed stays landed. -/
theorem Landed.keeps {decode : ℤ → Option Bytes → Except PyError Event} {dlq : DeadLetterQueue}
    {m : Message} (h : Landed L decode tableUri dlq m s)
    (hs : Sound tableUri dlq.quarantineTableUri s)
    (hst : Keeps tableUri dlq.quarantineTableUri s t) : Landed L decode tableUri dlq m t := by
  obtain ⟨us, e, he, hh⟩ | h := h
  · exact Or.inl ⟨us, e, he, hh.grows hs.1 hst.1⟩
  · exact Or.inr (h.keeps hs hst)

/-! ## Quarantine -/

variable {dlq : DeadLetterQueue} {α β : Type}

/-- **The contract of the part of a run that commits nothing.** -/
abbrev Runs (tableUri : Text) (dlq : DeadLetterQueue) (p : Script F α)
    (Q : α → World F → Prop) (own : Trail (World F)) (s : World F) : Prop :=
  p.Meets (setting F tableUri dlq.quarantineTableUri) (Keeps tableUri dlq.quarantineTableUri)
    (Uncommitted tableUri dlq.quarantineTableUri) (fun a _ t => Q a t) (fun _ _ _ => True) own s

/-- One part after another. -/
theorem Runs.bind {p : Script F α} {f : α → Script F β} {P : α → World F → Prop}
    {Q : β → World F → Prop} (hp : Runs tableUri dlq p P own s)
    (hf : ∀ a own t, Keeps tableUri dlq.quarantineTableUri s t →
      Uncommitted tableUri dlq.quarantineTableUri own t → P a t →
      Runs tableUri dlq (f a) Q own t) : Runs tableUri dlq (p >>= f) Q own s :=
  Prog.Meets.bind ((hp.reach (R := Keeps tableUri dlq.quarantineTableUri) id id Keeps.trans).mono
    (fun _ _ => id) (fun a own t hC hP => hf a own t hP.2 hC hP.1) fun _ _ _ _ => id)

/-- A part that raises. -/
theorem Runs.raise {e : PyError} {Q : α → World F → Prop}
    (hC : Uncommitted tableUri dlq.quarantineTableUri own s) :
    Runs tableUri dlq (.raise e) Q own s :=
  meets_raise (hosts (Or.inl rfl)) hC fun _ _ _ => trivial

/-- A part that returns. -/
theorem Runs.ret {a : α} {Q : α → World F → Prop}
    (hC : Uncommitted tableUri dlq.quarantineTableUri own s)
    (hQ : ∀ t, Keeps tableUri dlq.quarantineTableUri s t → Q a t) :
    Runs tableUri dlq (.ret a) Q own s :=
  Prog.Meets.ret_of (fun _ ht => (hosts (Or.inl rfl)).crash_rely hC ht) hQ

/-- A computed value, and what follows it. -/
theorem Runs.pure_bind {x : Except PyError β} {f : β → Script F α} {Q : α → World F → Prop}
    (hC : Uncommitted tableUri dlq.quarantineTableUri own s)
    (hf : ∀ b, x = .ok b → Runs tableUri dlq (f b) Q own s) :
    Runs tableUri dlq (Script.pure x >>= f) Q own s :=
  Prog.Meets.lift_bind hf fun _ _ => Runs.raise hC

/-- A part with a handler. -/
theorem Runs.handled {p : Script F α} {g : PyError → Script F α} {Q : α → World F → Prop}
    (hp : Runs tableUri dlq p Q own s)
    (hg : ∀ e own t, Uncommitted tableUri dlq.quarantineTableUri own t →
      Runs tableUri dlq (g e) Q own t) : Runs tableUri dlq (p.orElse g) Q own s :=
  Prog.Meets.orElse (hp.mono (fun _ _ => id) (fun _ _ _ _ => id) fun e own t hC _ => hg e own t hC)

/-- A call that only reads. -/
theorem Runs.read {o : Op F} {f : o.Res → Script F α} {Q : α → World F → Prop}
    (ho : o.isRead = true) (hC : Uncommitted tableUri dlq.quarantineTableUri own s)
    (hf : ∀ own t a, Keeps tableUri dlq.quarantineTableUri s t → World.Succeeds o t a t →
      Uncommitted tableUri dlq.quarantineTableUri own t → Runs tableUri dlq (f a) Q own t) :
    Runs tableUri dlq (Prog.op o >>= f) Q own s :=
  meets_read (hosts (Or.inl rfl)) ho ⟨hC.2.1, hC, rfl⟩
    (fun t a ht hs hb => hf _ t a ht hs hb.crash) fun _ _ _ _ _ hb => Runs.raise hb.crash

/-- An append to one of the two tables. -/
theorem Runs.append {uri : Text} {events : List Event} {description : Option Text}
    (huri : uri = tableUri ∨ uri = dlq.quarantineTableUri) (hne : events ≠ [])
    (hn : (events.map Event.eventId).Nodup)
    (hC : Uncommitted tableUri dlq.quarantineTableUri own s) :
    Runs tableUri dlq (appendEvents L uri (events.map Event.row) description)
      (fun _ t => ∀ e ∈ events, Held "event_id" eventIdentityColumns e.row (t.tables uri))
      own s := by
  have hl : Lineage "event_id" eventIdentityColumns (s.tables uri) := by
    obtain rfl | rfl := huri
    · exact hC.2.1
    · exact hC.2.2
  have hrefl : s.tables uri = [] → ∀ r ∈ events.map (Event.row (F := F)),
      ∀ c ∈ eventIdentityColumns, (r.get c).eq (r.get c) = true := by
    intro _ r hr
    obtain ⟨e, -, rfl⟩ := List.mem_map.1 hr
    exact e.eq_self
  refine (meets_appendRows (hosts huri) (Batch.events hne hn) hrefl hl hC).mono (fun _ _ => id)
    (fun a own' t _ hr => ?_) fun _ _ _ _ _ => trivial
  exact fun e he => hr.1 _ (List.mem_map_of_mem he)

/-- What the search for an earlier quarantine finds. -/
theorem runs_alreadyQuarantined {id : Text}
    (hC : Uncommitted tableUri dlq.quarantineTableUri own s) :
    Runs tableUri dlq (alreadyQuarantined dlq.quarantineTableUri id)
      (fun found t => found = true → HasEventId id (t.tables dlq.quarantineTableUri)) own s := by
  refine Runs.bind (P := fun table t => ∀ u ∈ table,
    ∃ newest ∈ (t.tables dlq.quarantineTableUri).head?, u.rows <+: newest.rows)
    (Runs.handled (Runs.read rfl hC fun own t table _ hopen hCt => ?_) fun e own t hCt => ?_)
    fun table own t _ hCt htable => ?_
  · refine Runs.ret hCt fun u htu => ?_
    rintro _ ⟨⟩
    refine htu.2.1.exists_head hCt.2.2 ?_
    cases hopen with
    | openTable h =>
      rw [h]
      rfl
  · split_ifs
    · exact Runs.ret hCt fun _ _ => nofun
    · exact Runs.raise hCt
  · cases table with
    | none => exact Runs.ret hCt fun _ _ => nofun
    | some table =>
      refine Runs.read rfl hCt fun own u existing htu hread hCu => ?_
      -- what was opened is still the beginning of the newest version
      obtain ⟨newest, hnewest, hopened⟩ := htable table rfl
      obtain ⟨head, hhead, hpre⟩ := htu.2.1.exists_head hCt.2.2 hnewest
      refine Runs.ret hCu fun v huv hfound => ?_
      cases hread with
      | readRows _ hperm =>
        obtain ⟨row, hrow⟩ := List.exists_mem_of_ne_nil _ (of_decide_eq_true hfound)
        rw [hperm.mem_iff] at hrow
        obtain ⟨w, hw, rfl⟩ := List.mem_map.1 hrow
        obtain ⟨hw, hkey⟩ := List.mem_filter.1 hw
        have hstored : w ∈ head.rows := (hopened.trans hpre).subset hw
        obtain ⟨id', hid'⟩ := (hCu.2.2.keyed head hhead).text w hstored
        have hid : w.get "event_id" = .text id := by
          rw [Option.all_some, RowFilter.admits_equals, hid'] at hkey
          have h : id' = id := hkey
          rw [hid', h]
        exact HasEventId.grows ⟨head, hhead, w, hstored, hid⟩ hCu.2.2 huv.2.1

/-- The row of a record is there once `_append_quarantine_row` returns. -/
theorem runs_appendQuarantineRow {record : DlqRecord}
    (hC : Uncommitted tableUri dlq.quarantineTableUri own s) :
    Runs tableUri dlq (appendQuarantineRow L dlq record)
      (fun _ t => HasEventId record.dlqEventId (t.tables dlq.quarantineTableUri)) own s := by
  refine Runs.bind (runs_alreadyQuarantined hC) fun found own t _ hCt hfound => ?_
  split_ifs with hf
  · exact Runs.ret hCt fun u htu => (hfound hf).grows hCt.2.2 htu.2.1
  · refine Runs.read rfl hCt fun own u us _ _ hCu => Runs.pure_bind hCu fun event hevent => ?_
    have hid : event.eventId = record.dlqEventId := by
      unfold DlqRecord.event at hevent
      obtain ⟨_, -, hevent⟩ := bind_eq_ok.1 hevent
      obtain ⟨_, -, hevent⟩ := bind_eq_ok.1 hevent
      cases hevent
      rfl
    have happend : Runs tableUri dlq (appendEvents L dlq.quarantineTableUri
        ([event].map Event.row) (some dlqTableDescription)) _ own u :=
      Runs.append (Or.inr rfl) (List.cons_ne_nil _ _) (List.nodup_singleton _) hCu
    refine Runs.handled (Runs.bind happend fun _ own v _ hCv hheld => ?_) fun e own v hCv => Runs.raise hCv
    obtain ⟨table, htable, row, hrow, hkey, -⟩ := hheld event (List.mem_singleton_self _)
    rw [Event.get_eventId, hid] at hkey
    exact Runs.ret hCv fun w hvw =>
      HasEventId.grows ⟨table, htable, row, hrow, hkey⟩ hCv.2.2 hvw.2.1

/-- **A message is quarantined once `quarantine` returns.** -/
theorem runs_quarantineMessage {m : Message} {e : PyError}
    (hC : Uncommitted tableUri dlq.quarantineTableUri own s) :
    Runs tableUri dlq (quarantineMessage L dlq m e) (fun _ t => Quarantined L dlq m t) own s := by
  unfold quarantineMessage
  split
  · rename_i topic partition offset htopic hpartition hoffset
    refine Runs.read rfl hC fun own t us _ _ hCt => Runs.pure_bind hCt fun record hrecord =>
      Runs.pure_bind hCt fun letter hletter => Prog.Meets.op_bind
        (fun u hu => (hosts (Or.inl rfl)).crash_rely hCt hu) fun u hu reply v hv => ?_
    have hCu := (hosts (Or.inl rfl)).crash_rely hCt hu
    have hkeeps : Keeps tableUri dlq.quarantineTableUri u v ∧ v.commits = u.commits := by
      have hdone : ∀ {a}, World.Succeeds (.deliver letter) u a v →
          Keeps tableUri dlq.quarantineTableUri u v ∧ v.commits = u.commits := by
        rintro a (_ | _)
        · exact ⟨⟨Grows.refl _, Grows.refl _, List.subset_append_left _ _⟩, rfl⟩
        · exact ⟨Keeps.refl _, rfl⟩
      cases (hosts (Or.inl rfl)).sem hv with
      | done h => exact hdone h
      | refused _ _ => exact ⟨Keeps.refl _, rfl⟩
      | lost h _ _ => exact hdone h
    have hCv := hCu.move hkeeps.1 hkeeps.2
    refine ⟨hkeeps.1, ?_⟩
    cases reply with
    | error e => exact Runs.raise hCv
    | ok flushed =>
      rw [Prog.lift_ok, Prog.ret_bind]
      split_ifs with hflushed
      · exact Runs.raise hCv
      -- the flush left nothing, so the letter is in the dead-letter topic
      have hletterIn : letter ∈ v.deadLetters := by
        cases (hosts (Or.inl rfl)).sem hv with
        | done h =>
          cases h with
          | delivered => exact List.mem_append_right _ (List.mem_singleton_self _)
          | undelivered hne => exact absurd hne hflushed
      refine (Prog.Meets.reach (R := Keeps tableUri dlq.quarantineTableUri) id id Keeps.trans
        (runs_appendQuarantineRow hCv)).mono (fun _ _ => id) (fun _ _ w _ hw => ?_)
        fun _ _ _ _ => id
      exact ⟨topic, partition, offset, e, us, record, letter, htopic, hpartition, hoffset, hrecord,
        hletter, hw.2.2.2 hletterIn, hw.1⟩
  · exact Runs.raise hC

/-! ## The batch -/

variable {decode : ℤ → Option Bytes → Except PyError Event} {maximum : ℕ}

/-- **What a run has collected**: events of distinct ids, and for each
message one of them or its quarantine. -/
structure Gathered (L : Library) (decode : ℤ → Option Bytes → Except PyError Event)
    (dlq : DeadLetterQueue) (acc : Collected) (w : World F) : Prop where
  nodup : (acc.events.map Event.eventId).Nodup
  settled : ∀ m ∈ acc.messages,
    (∃ e ∈ acc.events, ∃ us, decode us m.value = .ok e) ∨ Quarantined L dlq m w

/-- What is gathered stays settled. -/
theorem Gathered.keeps {acc : Collected} (h : Gathered L decode dlq acc s)
    (hs : Sound tableUri dlq.quarantineTableUri s)
    (hst : Keeps tableUri dlq.quarantineTableUri s t) : Gathered L decode dlq acc t :=
  ⟨h.nodup, fun m hm => (h.settled m hm).imp_right fun hq => hq.keeps hs hst⟩

omit [PyFloat F] in
/-- A decoded event whose id is new joins what is collected. -/
theorem Gathered.accept [PyFloat F] {acc : Collected} {e : Event} {m : Message} {us : ℤ}
    (h : Gathered L decode dlq acc s)
    (he : (decode us m.value >>= checkRepeat L acc) = .ok e) :
    Gathered L decode dlq (acc.accept e m) s := by
  obtain ⟨e', hd, he⟩ := bind_eq_ok.1 he
  unfold checkRepeat at he
  split_ifs at he with hnew
  cases he
  refine ⟨?_, fun m' hm' => ?_⟩
  · rw [Collected.accept, List.map_append]
    exact List.nodup_append'.2 ⟨h.nodup, by simp, by simpa using hnew⟩
  · obtain hm' | hm' := List.mem_append.1 hm'
    · refine (h.settled m' hm').imp_left ?_
      rintro ⟨e', he', hd'⟩
      exact ⟨e', List.mem_append_left _ he', hd'⟩
    · obtain rfl := List.mem_singleton.1 hm'
      exact Or.inl ⟨e, List.mem_append_right _ (List.mem_singleton_self _), us, hd⟩

/-- A quarantined message joins the batch. -/
theorem Gathered.reject {acc : Collected} {m : Message} {reason : Text}
    (h : Gathered L decode dlq acc s) (hq : Quarantined L dlq m s) :
    Gathered L decode dlq (acc.reject reason m) s := by
  refine ⟨h.nodup, fun m' hm' => ?_⟩
  obtain hm' | hm' := List.mem_append.1 hm'
  · exact h.settled m' hm'
  · obtain rfl := List.mem_singleton.1 hm'
    exact Or.inr hq

/-- What a batch ends with. -/
def Gathers (L : Library) (decode : ℤ → Option Bytes → Except PyError Event)
    (dlq : DeadLetterQueue) (messages : List Message) (acc : Collected) (w : World F) : Prop :=
  acc.messages = messages ∧ Gathered L decode dlq acc w

/-- The end of a batch. -/
theorem runs_finishBatch {acc : Collected}
    (hC : Uncommitted tableUri dlq.quarantineTableUri own s)
    (h : Gathered L decode dlq acc s) :
    Runs tableUri dlq (finishBatch acc) (Gathers L decode dlq acc.messages) own s := by
  unfold finishBatch
  split_ifs
  · exact Runs.raise hC
  · exact Runs.ret hC fun t ht => ⟨rfl, h.keeps hC.2 ht⟩

/-- **The loop collects the messages it polls**, each decoded or
quarantined. -/
theorem runs_collectMessages (polls : List Poll) :
    ∀ {acc : Collected} {own : Trail (World F)} {s : World F}, Uncommitted tableUri dlq.quarantineTableUri own s →
      Gathered L decode dlq acc s →
      Runs tableUri dlq (collectMessages L decode maximum dlq polls acc)
        (Gathers L decode dlq
          (acc.messages ++ (polledMessages polls).take (maximum - acc.messages.length)))
        own s := by
  induction polls with
  | nil =>
    intro acc own s hC h
    have hp : polledMessages [] = [] := rfl
    rw [hp, List.take_nil, List.append_nil]
    exact runs_finishBatch hC h
  | cons poll polls ih =>
    intro acc own s hC h
    unfold collectMessages
    split_ifs with hmax
    · rw [Nat.sub_eq_zero_of_le hmax, List.take_zero, List.append_nil]
      exact runs_finishBatch hC h
    cases poll with
    | idle => exact ih hC h
    | partitionEof => exact ih hC h
    | brokerError => exact Runs.raise hC
    | message m =>
      -- one more message, whichever way it goes
      rw [append_take_polled (not_le.1 hmax)]
      refine Runs.read rfl hC fun own t us hst _ hCt => ?_
      have ht := h.keeps hC.2 hst
      cases hd : decode us m.value >>= checkRepeat L acc with
      | ok e => exact ih hCt (ht.accept hd)
      | error e =>
        simp only
        split_ifs
        · exact Runs.bind (runs_quarantineMessage hCt) fun _ own u htu hCu hq =>
            ih hCu ((ht.keeps hCt.2 htu).reject hq)
        · exact Runs.raise hCt

/-- **The part of a run before its commits** commits nothing, and where it
returns every message it polled has landed. -/
theorem runs_ingestBatch {a : Arguments} {polls : List Poll}
    (ha : checkArguments (F := F) L a = .ok dlq)
    (hC : Uncommitted a.tableUri dlq.quarantineTableUri own s) :
    Runs a.tableUri dlq (ingestBatch L decode a polls)
      (fun ingested t => ingested.collected.messages = consumed a.maxMessages polls ∧
        ∀ m ∈ ingested.collected.messages, Landed L decode a.tableUri dlq m t) own s := by
  refine Runs.pure_bind hC fun dlq' hdlq => ?_
  obtain rfl : dlq = dlq' := Except.ok.inj (ha.symm.trans hdlq)
  have hnone : Gathered L decode dlq ⟨[], [], []⟩ s := ⟨by simp, by simp⟩
  refine Runs.bind (runs_collectMessages polls hC hnone)
    fun acc own t _ hCt hacc => Runs.pure_bind hCt fun _ _ => Runs.pure_bind hCt fun _ _ => ?_
  obtain ⟨hmessages, hgathered⟩ := hacc
  have hconsumed : acc.messages = consumed a.maxMessages polls := hmessages
  unfold appendCollected
  split_ifs with hevents
  · refine Runs.ret hCt fun u htu => ⟨hconsumed, fun m hm => Or.inr ?_⟩
    obtain ⟨e, he, -⟩ | hq := hgathered.settled m hm
    · rw [hevents] at he
      cases he
    · exact hq.keeps hCt.2 htu
  · refine Runs.bind (Runs.append (Or.inl rfl) hevents hgathered.nodup hCt)
      fun appended own u htu hCu hheld => Runs.ret hCu fun v huv => ⟨hconsumed, fun m hm => ?_⟩
    have hlanded : Landed L decode a.tableUri dlq m u := by
      obtain ⟨e, he, us, hd⟩ | hq := hgathered.settled m hm
      · exact Or.inl ⟨us, e, hd, hheld e he⟩
      · exact Or.inr (hq.keeps hCt.2 htu)
    exact hlanded.keeps hCu.2 huv

/-! ## The commits -/

/-- A message of another partition leaves the last one. -/
theorem LastOf.append_other {ms : List Message} {topic : Text} {partition : ℤ} {m m' : Message}
    (h : LastOf ms topic partition m) (hm' : ¬OfPartition topic partition m') :
    LastOf (ms ++ [m']) topic partition m := by
  obtain ⟨before, after, rfl, hm, hafter⟩ := h
  refine ⟨before, after ++ [m'], by simp, hm, fun x hx => ?_⟩
  obtain hx | hx := List.mem_append.1 hx
  · exact hafter x hx
  · exact List.mem_singleton.1 hx ▸ hm'

/-- A message is the last of its partition when it comes. -/
theorem LastOf.append_self (ms : List Message) {topic : Text} {partition : ℤ} {m : Message}
    (hm : OfPartition topic partition m) : LastOf (ms ++ [m]) topic partition m :=
  ⟨ms, [], rfl, hm, nofun⟩

/-- **The messages committed are the last of their partitions.** -/
theorem lastOf_of_mem_latestByPartition (ms : List Message) :
    ∀ {before : List Message} {latest out : List ((Text × ℤ) × Message)},
      (∀ l ∈ latest, LastOf before l.1.1 l.1.2 l.2) → latestByPartition ms latest = .ok out →
      ∀ l ∈ out, LastOf (before ++ ms) l.1.1 l.1.2 l.2 := by
  induction ms with
  | nil =>
    intro before latest out h hout
    cases hout
    rwa [List.append_nil]
  | cons m ms ih =>
    intro before latest out h hout
    unfold latestByPartition at hout
    split at hout
    · rename_i topic partition htopic hpartition
      have hm : OfPartition topic partition m := ⟨htopic, hpartition⟩
      rw [← List.singleton_append, ← List.append_assoc]
      refine ih (fun l hl => ?_) hout
      -- an entry is the new message's, or one of another partition
      have hother : ∀ l ∈ latest, l.1 ≠ (topic, partition) →
          LastOf (before ++ [m]) l.1.1 l.1.2 l.2 := fun l hl hne =>
        (h l hl).append_other fun hm' => hne (Prod.ext
          (Option.some.inj (hm'.1.symm.trans htopic)) (Option.some.inj (hm'.2.symm.trans hpartition)))
      split_ifs at hl with hin
      · obtain ⟨l', hl', rfl⟩ := List.mem_map.1 hl
        split_ifs with he
        · simp only [he]
          exact LastOf.append_self _ hm
        · exact hother l' hl' he
      · obtain hl | hl := List.mem_append.1 hl
        · exact hother l hl fun he => hin (he ▸ List.mem_map_of_mem hl)
        · obtain rfl := List.mem_singleton.1 hl
          exact LastOf.append_self _ hm
    · cases hout

/-- **At every point of a run**: both tables are sound, and a commit was
made only where every message polled has landed, one past the last message
of its partition. -/
def Safe (L : Library) (decode : ℤ → Option Bytes → Except PyError Event) (tableUri : Text)
    (dlq : DeadLetterQueue) (messages : List Message) (own : Trail (World F)) (s : World F) :
    Prop :=
  Sound tableUri dlq.quarantineTableUri s ∧
    ∀ c ∈ committedBy own, (∀ m ∈ messages, Landed L decode tableUri dlq m s) ∧
      PastLast messages c

/-- What the returned map of offsets holds: offsets committed. -/
def Reported (offsets : Members ℤ) (own : Trail (World F)) : Prop :=
  ∀ kv ∈ offsets, ∃ topic partition, kv.1 = partitionName topic partition ∧
    (⟨topic, partition, kv.2⟩ : Commit) ∈ committedBy own

variable {messages : List Message}

/-- What the others do keeps a run safe. -/
theorem Safe.keeps (h : Safe L decode tableUri dlq messages own s)
    (hst : Keeps tableUri dlq.quarantineTableUri s t) :
    Safe L decode tableUri dlq messages own t :=
  ⟨h.1.keeps hst, fun c hc => ⟨fun m hm => ((h.2 c hc).1 m hm).keeps h.1 hst, (h.2 c hc).2⟩⟩

omit [PyFloat F] in
/-- An offset that was committed is reported. -/
theorem Reported.set {offsets : Members ℤ} {topic : Text} {partition offset : ℤ}
    (h : Reported offsets own) (hst : t.commits = s.commits ++ [⟨topic, partition, offset⟩]) :
    Reported (Members.set offsets (partitionName topic partition) offset) (own ++ [(s, t)]) := by
  intro kv hkv
  rw [committedBy_append, hst, List.drop_left]
  unfold Members.set at hkv
  have hnew : (⟨topic, partition, offset⟩ : Commit) ∈
      committedBy own ++ [⟨topic, partition, offset⟩] :=
    List.mem_append_right _ (List.mem_singleton_self _)
  have hold : ∀ kv ∈ offsets, ∃ topic' partition', kv.1 = partitionName topic' partition' ∧
      (⟨topic', partition', kv.2⟩ : Commit) ∈ committedBy own ++ [⟨topic, partition, offset⟩] :=
    fun kv hkv => by
      obtain ⟨topic', partition', hk, hc⟩ := h kv hkv
      exact ⟨topic', partition', hk, List.mem_append_left _ hc⟩
  split_ifs at hkv
  · obtain ⟨kv', hkv', rfl⟩ := List.mem_map.1 hkv
    split_ifs
    · exact ⟨topic, partition, rfl, hnew⟩
    · exact hold kv' hkv'
  · obtain hkv | hkv := List.mem_append.1 hkv
    · exact hold kv hkv
    · obtain rfl := List.mem_singleton.1 hkv
      exact ⟨topic, partition, rfl, hnew⟩

omit [PyFloat F] in
/-- A transition more leaves what was reported. -/
theorem Reported.other {offsets : Members ℤ} (h : Reported offsets own) :
    Reported offsets (own ++ [(s, t)]) := by
  intro kv hkv
  obtain ⟨topic, partition, hk, hc⟩ := h kv hkv
  exact ⟨topic, partition, hk, by rw [committedBy_append]; exact List.mem_append_left _ hc⟩

/-- **What a commit does**: at most it adds this one commit, and it has
where the reply confirms it. -/
theorem commit_effect {topic : Text} {partition : ℤ} {offset : Option ℤ}
    {r : Except PyError (Op.commitMessage (F := F) topic partition offset).Res}
    (h : World.Performs (.commitMessage topic partition offset) s r t) :
    Keeps tableUri dlq.quarantineTableUri s t ∧
      ((t.commits = s.commits ∧ ∀ reply n, r = .ok reply → offset = some n →
          confirms reply topic partition (n + 1) = false) ∨
        ∃ n, offset = some n ∧ t.commits = s.commits ++ [⟨topic, partition, n + 1⟩]) := by
  have hcommitted : ∀ n, Keeps tableUri dlq.quarantineTableUri s
      { s with commits := s.commits ++ [⟨topic, partition, n⟩] } := fun _ =>
    ⟨Grows.refl _, Grows.refl _, List.Subset.refl _⟩
  cases h with
  | done h =>
    cases h with
    | committed => exact ⟨hcommitted _, Or.inr ⟨_, rfl, rfl⟩⟩
    | uncommitted hr =>
      refine ⟨Keeps.refl _, Or.inl ⟨rfl, ?_⟩⟩
      rintro _ n ⟨⟩ rfl
      exact hr n rfl
  | refused _ _ => exact ⟨Keeps.refl _, Or.inl ⟨rfl, nofun⟩⟩
  | lost h _ _ =>
    cases h with
    | committed => exact ⟨hcommitted _, Or.inr ⟨_, rfl, rfl⟩⟩
    | uncommitted _ => exact ⟨Keeps.refl _, Or.inl ⟨rfl, nofun⟩⟩

/-- **The commits, partition by partition.** -/
theorem meets_commitLatest (latest : List ((Text × ℤ) × Message))
    (hlast : ∀ l ∈ latest, LastOf messages l.1.1 l.1.2 l.2) :
    ∀ {offsets : Members ℤ} {own : Trail (World F)} {s : World F},
      Safe L decode tableUri dlq messages own s →
      (∀ m ∈ messages, Landed L decode tableUri dlq m s) → Reported offsets own →
      (commitLatest latest offsets).Meets (setting F tableUri dlq.quarantineTableUri)
        (Keeps tableUri dlq.quarantineTableUri) (Safe L decode tableUri dlq messages)
        (fun offsets own _ => Reported offsets own) (fun _ _ _ => True) own s := by
  induction latest with
  | nil => exact fun hs _ hr => Prog.Meets.ret_of (fun _ ht => hs.keeps ht) fun _ _ => hr
  | cons l rest ih =>
    obtain ⟨⟨topic, partition⟩, m⟩ := l
    intro offsets own s hs hlanded hr
    refine Prog.Meets.op_bind (fun t ht => hs.keeps ht) fun t ht reply u hu => ?_
    obtain ⟨hkeeps, heffect⟩ : Keeps tableUri dlq.quarantineTableUri t u ∧ _ := commit_effect hu
    have hst := hs.keeps ht
    have hlandedt : ∀ m ∈ messages, Landed L decode tableUri dlq m t := fun m hm =>
      (hlanded m hm).keeps hs.1 ht
    have hlandedu : ∀ m ∈ messages, Landed L decode tableUri dlq m u := fun m hm =>
      (hlandedt m hm).keeps hst.1 hkeeps
    -- what the call commits is one past the last message of its partition
    have hsu : Safe L decode tableUri dlq messages (own ++ [(t, u)]) u := by
      refine ⟨hst.1.keeps hkeeps, fun c hc => ⟨hlandedu, ?_⟩⟩
      rw [committedBy_append, List.mem_append] at hc
      obtain hc | hc := hc
      · exact (hst.2 c hc).2
      · obtain ⟨he, -⟩ | ⟨n, hn, he⟩ := heffect
        · rw [he, List.drop_length] at hc
          cases hc
        · rw [he, List.drop_left] at hc
          obtain rfl := List.mem_singleton.1 hc
          exact ⟨m, n, hlast _ List.mem_cons_self, hn, rfl⟩
    have hraise : ∀ e, (Prog.raise e : Script F (Members ℤ)).Meets
        (setting F tableUri dlq.quarantineTableUri) (Keeps tableUri dlq.quarantineTableUri)
        (Safe L decode tableUri dlq messages) (fun offsets own _ => Reported offsets own)
        (fun _ _ _ => True) (own ++ [(t, u)]) u := fun e =>
      Prog.Meets.raise_of (fun _ hv => hsu.keeps hv) fun _ _ => trivial
    refine ⟨hkeeps, ?_⟩
    -- the answer is checked before the next partition is committed
    cases reply with
    | error e => exact hraise e
    | ok reply =>
      rw [Prog.lift_ok, Prog.ret_bind]
      split_ifs
      · exact hraise _
      split
      · exact hraise _
      rename_i n hn
      split_ifs with hconfirms
      · refine ih (fun l hl => hlast l (List.mem_cons_of_mem _ hl)) hsu hlandedu ?_
        obtain ⟨-, hno⟩ | ⟨n', hn', he⟩ := heffect
        · rw [hno reply n rfl hn] at hconfirms
          cases hconfirms
        · obtain rfl : n = n' := Option.some.inj (hn.symm.trans hn')
          exact hr.set he
      · exact hraise _

/-- **The contract of a run.** -/
theorem meets_run {a : Arguments} {polls : List Poll} {w : World F}
    (ha : checkArguments (F := F) L a = .ok dlq)
    (hw : Sound a.tableUri dlq.quarantineTableUri w) :
    (run L decode a polls).Meets (setting F a.tableUri dlq.quarantineTableUri)
      (Keeps a.tableUri dlq.quarantineTableUri)
      (Safe L decode a.tableUri dlq (consumed a.maxMessages polls))
      (fun r own _ => Reported r.2 own) (fun _ _ _ => True) [] w := by
  have hbatch : Runs a.tableUri dlq (ingestBatch L decode a polls) _ [] w :=
    runs_ingestBatch ha ⟨rfl, hw⟩
  refine Prog.Meets.bind (hbatch.mono (fun own s hs => ⟨hs.2, by rw [hs.1]; nofun⟩)
    (fun ingested own s hs hq => ?_) fun _ _ _ _ _ => trivial)
  obtain ⟨hmessages, hlanded⟩ := hq
  rw [hmessages] at hlanded ⊢
  have hsafe : Safe L decode a.tableUri dlq (consumed a.maxMessages polls) own s :=
    ⟨hs.2, by rw [hs.1]; nofun⟩
  refine Prog.Meets.bind (Prog.Meets.lift_bind (fun latest hlatest => ?_) fun e _ =>
    Prog.Meets.raise_of (fun _ ht => hsafe.keeps ht) fun _ _ => trivial)
  refine (meets_commitLatest _ (fun l hl => ?_) hsafe hlanded
    fun _ h => absurd h List.not_mem_nil).mono (fun _ _ => id)
    (fun offsets own' t ht hr => ?_) fun _ _ _ _ => id
  · have hlast : ∀ l ∈ latest, LastOf ([] ++ consumed a.maxMessages polls) l.1.1 l.1.2 l.2 :=
      lastOf_of_mem_latestByPartition _ (fun _ h => absurd h List.not_mem_nil) hlatest
    exact hlast l (mem_sortBy.1 hl)
  · exact Prog.Meets.ret_of (fun _ hu => ht.keeps hu) fun _ _ => hr

/-- **Durability of a run.** Wherever a run may have got to, or been stopped,
with any call failing and others writing the same tables: up to its commits
it has committed nothing; where it has committed an offset, every message it
polled has landed, and the offset is one past the last message it polled
from that partition; and the offsets it returns are ones it committed. -/
theorem run_durable (L : Library) (decode : ℤ → Option Bytes → Except PyError Event)
    (a : Arguments) (polls : List Poll) (dlq : DeadLetterQueue) (w : World F)
    (ha : checkArguments (F := F) L a = .ok dlq)
    (hw : Sound a.tableUri dlq.quarantineTableUri w) :
    (∀ q own w', Prog.Steps (setting F a.tableUri dlq.quarantineTableUri)
      (ingestBatch L decode a polls) [] w q own w' → committedBy own = []) ∧
    ∀ q own w', Prog.Steps (setting F a.tableUri dlq.quarantineTableUri)
      (run L decode a polls) [] w q own w' →
      (∀ c ∈ committedBy own,
        (∀ m ∈ consumed a.maxMessages polls, Landed L decode a.tableUri dlq m w') ∧
          PastLast (consumed a.maxMessages polls) c) ∧
      ∀ ingested offsets, q = .ret (ingested, offsets) → Reported offsets own := by
  have hbatch : Runs a.tableUri dlq (ingestBatch L decode a polls) _ [] w :=
    runs_ingestBatch ha ⟨rfl, hw⟩
  refine ⟨fun q own w' h => (hbatch.steps h).here.1, fun q own w' h => ?_⟩
  have hmeets := (meets_run ha hw).steps h
  refine ⟨hmeets.here.2, ?_⟩
  rintro ingested offsets rfl
  exact hmeets.ret_here

end

/-- A run of the platform scope. -/
def gateArguments : Arguments where
  topic := lit "ports.gate-scans"
  scope := .platform
  tableUri := lit "/srv/lakehouse/platform/bronze/events"
  dlqTopic := lit "ports.dead-letters"
  dlqTableUri := lit "/srv/lakehouse/platform/bronze/quarantine"
  groupId := lit "lakehouse"
  maxMessages := 10

/-- Stores without a table. -/
def emptyWorld : World Decimal := ⟨fun _ => [], [], [], fun _ => none, 0⟩

/-- A message that is no JSON. -/
def poison : Message := ⟨some (lit "ports.gate-scans"), some 0, some 41, some [0x7B]⟩

/-- An event of an id. -/
def scanned (eventId : Text) : Event where
  eventId := eventId
  eventType := lit "GATE_SCANNED"
  producer := lit "port-gateway"
  occurredAt := 0
  recordedAt := 0
  dataClassification := lit "internal"
  sourceSystem := lit "gate"
  sourceRecordReference := lit "scan-1"
  correlationId := none
  payloadJson := lit "\x7b\x7d"
  ingestedAt := 0
  recordClassification := none

/-- A decoder of ids of one byte. -/
def decodeByte (_ : ℤ) : Option Bytes → Except PyError Event
  | some [b] => .ok (scanned [b.toNat])
  | _ => .error (.jsonDecodeError (lit "Expecting value"))

/-- Retention has deleted one of the two events the table had. -/
def retainedWorld : World Decimal where
  tables uri := if uri = gateArguments.tableUri then
    [⟨1, true, false, eventIdentityColumns, [(scanned (lit "B")).row]⟩,
      ⟨0, true, false, eventIdentityColumns, [(scanned (lit "A")).row, (scanned (lit "B")).row]⟩]
    else []
  deadLetters := []
  commits := []
  files _ := none
  clock := 0

/-- The newest versions are keyed, although an older one held more. -/
theorem retainedWorld_sound : Sound gateArguments.tableUri gateArguments.dlqTableUri retainedWorld := by
  refine ⟨⟨?_, ?_⟩, ⟨nofun, .nil⟩⟩
  · rintro _ ⟨⟩
    exact ⟨fun _ h => h, fun u hu => ⟨lit "B", by rw [List.mem_singleton.1 hu]; rfl⟩, by decide⟩
  · exact List.pairwise_pair.2 Nat.zero_lt_one

/-- Two partitions, interleaved: an event, one that is no event, one that
is stored already and one that retention has deleted. -/
def gatePolls : List Poll :=
  [.message ⟨some (lit "ports.gate-scans"), some 0, some 41, some [0x43]⟩,
    .message ⟨some (lit "ports.gate-scans"), some 1, some 7, none⟩,
    .idle,
    .message ⟨some (lit "ports.gate-scans"), some 0, some 43, some [0x42]⟩,
    .message ⟨some (lit "ports.gate-scans"), some 1, some 8, some [0x41]⟩]

def gateBatch : Script Decimal (Ingested × Members ℤ) :=
  run Library.ascii decodeByte gateArguments gatePolls

/-- The run returns and commits both partitions, and what it has committed
is covered. -/
theorem run_durable_partitions : ∃ q own w', Prog.Steps
      (setting Decimal gateArguments.tableUri gateArguments.dlqTableUri) gateBatch []
      retainedWorld q own w' ∧
    (∃ r, q = .ret r) ∧
    committedBy own = [⟨lit "ports.gate-scans", 0, 44⟩, ⟨lit "ports.gate-scans", 1, 9⟩] ∧
    ∀ c ∈ committedBy own, (∀ m ∈ consumed gateArguments.maxMessages gatePolls,
      Landed Library.ascii decodeByte gateArguments.tableUri
        ⟨gateArguments.dlqTopic, gateArguments.dlqTableUri, gateArguments.groupId⟩ m w') ∧
      PastLast (consumed gateArguments.maxMessages gatePolls) c := by
  have hends : (gateBatch.run (Engine.plain Decimal).handle retainedWorld).1.isOk = true ∧
      committedBy (gateBatch.trail (Engine.plain Decimal).handle retainedWorld) =
        [⟨lit "ports.gate-scans", 0, 44⟩, ⟨lit "ports.gate-scans", 1, 9⟩] := by
    decide +kernel
  have hstart : Prog.Steps (setting Decimal gateArguments.tableUri gateArguments.dlqTableUri)
      gateBatch [] retainedWorld gateBatch [] retainedWorld := .refl
  have h := hstart.run (Engine.plain Decimal).handle (Engine.plain Decimal).performs_handle
  refine ⟨_, _, _, h, ?_, hends.2, ((run_durable Library.ascii decodeByte gateArguments gatePolls
    ⟨gateArguments.dlqTopic, gateArguments.dlqTableUri, gateArguments.groupId⟩ retainedWorld rfl
    retainedWorld_sound).2 _ _ _ h).1⟩
  cases hr : (gateBatch.run (Engine.plain Decimal).handle retainedWorld).1 with
  | error e =>
    rw [hr] at hends
    cases hends.1
  | ok r => exact ⟨r, by rw [Prog.lift_ok]⟩

end Kafka

end Lakehouse
