import Lakehouse.Common.Latest
import Lakehouse.PortStatistics.Conservation
import Lakehouse.PortStatistics.Keys
/-!
# Which event a port call takes its fields from

The status of a port call is that of its greatest event by instant and id.
Every other field is that of the last listed event that reports it: the
listing decides, not the order of the events. So the facts are the merge
of the latest values just where the last listed value of every field is the
latest, and they forget the order of the listing just where no two events
of a call disagree on a field (`merges_latest_iff`).
-/

namespace Lakehouse

namespace PortStatistics

open Ingest

variable {F : Type} [PyFloat F] {L : Library} {events events' : List (Row F)} {event : Row F}
  {calls : Members (CallEntry F)} {facts : List (Fact F)} {start stop : ℤ} {portCallId : Text}
  {call : CallEvent F} {cs cs' : List (CallEvent F)} {entry entry' : CallEntry F} {f : Fact F}

/-! ## The fields of a port call -/

/-- A field that any event of a port call may report. -/
inductive CallField where
  | vesselRef | shipClass | arrivedAt | berthedAt | departedAt | declaredTonnage
  deriving DecidableEq, Repr

/-- A value of such a field. -/
inductive CallValue (F : Type) where
  | text (t : Text)
  | instant (us : ℤ)
  | number (x : F)
  deriving DecidableEq

section Reports

variable (L)

/-- The hash a fact shows of a vessel reference. -/
def vesselHash (vesselRef : Text) : Text :=
  L.sha256 ((encodeUtf8 (lit "blueeconomy.stats.vessel-ref.v1|" ++ vesselRef)).toOption.getD [])

/-- What an event reports of a field, as a fact shows it. -/
def CallEvent.reports (field : CallField) (e : CallEvent F) : Option (CallValue F) :=
  let instant (name : Text) := ((parseInstant L (fieldOrNone e.event.fields name) name
    e.event.eventType).toOption.join).map CallValue.instant
  match field with
  | .vesselRef => ((optionalText e.event.fields [lit "vesselRef"]).toOption.join).map fun t =>
      .text (vesselHash L t)
  | .shipClass => ((optionalText e.event.fields [lit "shipClass"]).toOption.join).map .text
  | .arrivedAt => instant (lit "arrivedAt")
  | .berthedAt => instant (lit "berthedAt")
  | .departedAt => instant (lit "departedAt")
  | .declaredTonnage => ((optionalNumber e.event.fields (lit "declaredTonnage")
      e.event.eventType).toOption.join).map .number

/-- What is known of a field. -/
def CallEntry.knows (field : CallField) (entry : CallEntry F) : Option (CallValue F) :=
  match field with
  | .vesselRef => entry.vesselRef.map fun t => .text (vesselHash L t)
  | .shipClass => entry.shipClass.map .text
  | .arrivedAt => entry.arrivedAt.map .instant
  | .berthedAt => entry.berthedAt.map .instant
  | .departedAt => entry.departedAt.map .instant
  | .declaredTonnage => entry.declaredTonnage.map .number

/-- What a fact shows of a field. -/
def Fact.shows (field : CallField) (f : Fact F) : Option (CallValue F) :=
  match field with
  | .vesselRef => f.vesselRefHashed.map .text
  | .shipClass => f.shipClass.map .text
  | .arrivedAt => f.arrivedAt.map .instant
  | .berthedAt => f.berthedAt.map .instant
  | .departedAt => f.departedAt.map .instant
  | .declaredTonnage => f.declaredTonnage.map .number

/-- An event whose fields are what its schema says. -/
structure CallEvent.Readable (e : CallEvent F) : Prop where
  vesselRef : ∃ v, optionalText e.event.fields [lit "vesselRef"] = .ok v ∧
    ∃ hash, hashVesselRef L v = .ok hash
  shipClass : ∃ v, optionalText e.event.fields [lit "shipClass"] = .ok v
  instants : ∀ name ∈ [lit "arrivedAt", lit "berthedAt", lit "departedAt"],
    ∃ v, parseInstant L (fieldOrNone e.event.fields name) name e.event.eventType = .ok v
  declaredTonnage : ∃ v, optionalNumber e.event.fields (lit "declaredTonnage")
    e.event.eventType = .ok v

/-- **Valid lifecycle events**, in some order: their ids are distinct and a
port call keeps its port. -/
structure ValidCalls (events : List (Row F)) : Prop where
  readable : ∀ event ∈ events, ∃ portCallId call,
    callEvent L event = .ok (some (portCallId, call)) ∧ call.Readable L
  ids : (events.map fun event => event.get "event_id").Nodup
  ports : ∀ event ∈ events, ∀ event' ∈ events, ∀ portCallId call call',
    callEvent L event = .ok (some (portCallId, call)) →
    callEvent L event' = .ok (some (portCallId, call')) → call.portCode = call'.portCode

/-- The events of a port call, as they are listed. -/
def callsOf (events : List (Row F)) (portCallId : Text) : List (CallEvent F) :=
  entriesOf (callEvent L) events portCallId

/-- The greatest event of a port call. -/
def IsGreatest (cs : List (CallEvent F)) (c : CallEvent F) : Prop :=
  c ∈ cs ∧ ∀ c' ∈ cs, c'.event.order ≤ c.event.order

/-- The latest value of a field. -/
def LatestReport (field : CallField) (cs : List (CallEvent F)) (v : Option (CallValue F)) : Prop :=
  IsLatest (fun c => c.event.order) (·.reports L field) cs v

/-- The instant a port call is attributed to: its latest arrival, or that of
its greatest event. -/
def AttributedAt (cs : List (CallEvent F)) (us : ℤ) : Prop :=
  ∃ c, IsGreatest cs c ∧ (LatestReport L .arrivedAt cs (some (.instant us)) ∨
    LatestReport L .arrivedAt cs none ∧ us = c.event.occurredAt)

/-- **The merge of the latest values**: the facts of a period are those of
the calls attributed to it, with the status of the greatest event and the
latest value of every other field. -/
structure MergesLatest (events : List (Row F)) (start stop : ℤ) (facts : List (Fact F)) :
    Prop where
  status : ∀ f ∈ facts, ∃ c, IsGreatest (callsOf L events f.portCallId) c ∧ c.status = f.status
  latest : ∀ f ∈ facts, ∀ field,
    LatestReport L field (callsOf L events f.portCallId) (f.shows field)
  attributed : ∀ portCallId us, AttributedAt L (callsOf L events portCallId) us →
    (portCallId ∈ facts.map Fact.portCallId ↔ inPeriod us start stop = true)

end Reports

/-! ## One call -/

omit [PyFloat F] in
/-- Advancing a call changes nothing it knows. -/
theorem knows_advance (entry : CallEntry F) (c : CallEvent F) (field : CallField) :
    (entry.advance c).knows L field = entry.knows L field := by
  unfold CallEntry.advance
  split_ifs
  · cases field <;> rfl
  · rfl

omit [PyFloat F] in
/-- A call knows nothing at first. -/
theorem knows_initial (c : CallEvent F) (field : CallField) :
    (CallEntry.initial c).knows L field = none := by
  cases field <;> rfl

/-- The entry an event leaves. -/
def CallEntry.take (L : Library) (entry : CallEntry F) (c : CallEvent F) : CallEntry F :=
  { entry with
    vesselRef := (optionalText c.event.fields [lit "vesselRef"]).toOption.join <|> entry.vesselRef
    shipClass := (optionalText c.event.fields [lit "shipClass"]).toOption.join <|> entry.shipClass
    arrivedAt := (parseInstant L (fieldOrNone c.event.fields (lit "arrivedAt")) (lit "arrivedAt")
      c.event.eventType).toOption.join <|> entry.arrivedAt
    berthedAt := (parseInstant L (fieldOrNone c.event.fields (lit "berthedAt")) (lit "berthedAt")
      c.event.eventType).toOption.join <|> entry.berthedAt
    departedAt := (parseInstant L (fieldOrNone c.event.fields (lit "departedAt"))
      (lit "departedAt") c.event.eventType).toOption.join <|> entry.departedAt
    declaredTonnage := (optionalNumber c.event.fields (lit "declaredTonnage")
      c.event.eventType).toOption.join <|> entry.declaredTonnage
    sourceEventIds := entry.sourceEventIds ++ [c.event.eventId] }

/-- **What an event reports comes first**, then what was known. -/
theorem knows_take (entry : CallEntry F) (c : CallEvent F) (field : CallField) :
    (entry.take L c).knows L field = (c.reports L field <|> entry.knows L field) := by
  have hmap : ∀ {α : Type} (g : α → CallValue F) (u v : Option α),
      (u <|> v).map g = (u.map g <|> v.map g) := by
    intro α g u v
    cases u <;> rfl
  cases field <;> exact hmap _ _ _

/-- An event joins a call of its port, advanced and with what it reports. -/
theorem joinCall_eq_ok {b : Option (CallEntry F)} (hread : call.Readable L) :
    joinCall L b call = .ok entry ↔ (b.getD (.initial call)).portCode = call.portCode ∧
      entry = ((b.getD (.initial call)).advance call).take L call := by
  obtain ⟨⟨v, hv, -⟩, ⟨s, hs⟩, hinstants, t, ht⟩ := hread
  obtain ⟨a, ha⟩ := hinstants (lit "arrivedAt") (by simp)
  obtain ⟨e, he⟩ := hinstants (lit "berthedAt") (by simp)
  obtain ⟨d, hd⟩ := hinstants (lit "departedAt") (by simp)
  rw [joinCall, guard_eq_ok, not_not]
  refine and_congr_right fun _ => ?_
  dsimp only
  rw [CallEntry.take, hv, hs, ha, he, hd, ht]
  exact ⟨fun h => (Except.ok.inj h).symm, fun h => congrArg Except.ok h.symm⟩

/-- **What the events of a call leave**: the greatest of them its status, the
last listed with a field that field. -/
structure Joined (L : Library) (cs : List (CallEvent F)) (entry : CallEntry F) : Prop where
  portCode : ∀ c ∈ cs, c.portCode = entry.portCode
  greatest : ∃ c, IsGreatest cs c ∧ c.event.order = entry.order ∧ c.status = entry.status
  knows : ∀ field, entry.knows L field = lastValue (·.reports L field) cs
  sourceEventIds : entry.sourceEventIds = cs.map (·.event.eventId)
  hashable : ∃ hash, hashVesselRef L entry.vesselRef = .ok hash

omit [PyFloat F] in
/-- The greatest of the events so far, and of one more. -/
theorem IsGreatest.advance {c : CallEvent F} (hc : IsGreatest cs c)
    (horder : c.event.order = entry.order) (hstatus : c.status = entry.status) :
    ∃ c', IsGreatest (cs ++ [call]) c' ∧ c'.event.order = (entry.advance call).order ∧
      c'.status = (entry.advance call).status := by
  have hsplit : ∀ {P : CallEvent F → Prop}, (∀ u ∈ cs, P u) → P call → ∀ u ∈ cs ++ [call], P u := by
    intro P hcs hcall u hu
    obtain hu | hu := List.mem_append.1 hu
    · exact hcs u hu
    · rwa [List.mem_singleton.1 hu]
  unfold CallEntry.advance
  split_ifs with hle
  · refine ⟨call, ⟨by simp, hsplit (fun u hu => ?_) le_rfl⟩, rfl, rfl⟩
    exact (hc.2 u hu).trans (horder ▸ hle)
  · refine ⟨c, ⟨List.mem_append_left _ hc.1, hsplit hc.2 ?_⟩, horder, hstatus⟩
    rw [horder]
    exact (not_le.1 hle).le

/-- What an event reports leaves the vessel reference hashable. -/
theorem hashable_take (hread : call.Readable L)
    (h : ∃ hash, hashVesselRef L entry.vesselRef = .ok hash) :
    ∃ hash, hashVesselRef L (entry.take L call).vesselRef = .ok hash := by
  obtain ⟨v, hv, hhash⟩ := hread.vesselRef
  rw [CallEntry.take, hv]
  cases v with
  | none => exact h
  | some t => exact hhash

omit [PyFloat F] in
/-- Advancing a call leaves its vessel reference. -/
theorem vesselRef_advance (entry : CallEntry F) (c : CallEvent F) :
    (entry.advance c).vesselRef = entry.vesselRef := by
  unfold CallEntry.advance
  split_ifs <;> rfl

omit [PyFloat F] in
/-- Advancing a call leaves its port. -/
theorem portCode_advance (entry : CallEntry F) (c : CallEvent F) :
    (entry.advance c).portCode = entry.portCode := by
  unfold CallEntry.advance
  split_ifs <;> rfl

omit [PyFloat F] in
/-- Advancing a call leaves its sources. -/
theorem sourceEventIds_advance (entry : CallEntry F) (c : CallEvent F) :
    (entry.advance c).sourceEventIds = entry.sourceEventIds := by
  unfold CallEntry.advance
  split_ifs <;> rfl

/-- The first event of a call. -/
theorem joined_first (hread : call.Readable L) (h : joinCall L none call = .ok entry) :
    Joined L [call] entry := by
  obtain ⟨-, rfl⟩ := (joinCall_eq_ok hread).1 h
  refine ⟨?_, ?_, fun field => ?_, ?_, hashable_take hread ?_⟩
  · intro c hc
    rw [List.mem_singleton.1 hc]
    change _ = ((CallEntry.initial call).advance call).portCode
    rw [portCode_advance]
    rfl
  · have hgreatest : IsGreatest [call] call :=
      ⟨List.mem_singleton_self _, fun c hc => by rw [List.mem_singleton.1 hc]⟩
    refine ⟨call, hgreatest, ?_⟩
    change _ = ((CallEntry.initial call).advance call).order ∧
      _ = ((CallEntry.initial call).advance call).status
    unfold CallEntry.advance
    split_ifs <;> exact ⟨rfl, rfl⟩
  · rw [knows_take, Option.getD_none, knows_advance, knows_initial]
    exact (lastValue_concat (·.reports L field) [] call).symm
  · change ((CallEntry.initial call).advance call).sourceEventIds ++ _ = _
    rw [sourceEventIds_advance]
    rfl
  · rw [vesselRef_advance]
    exact ⟨none, rfl⟩

/-- **One event more.** -/
theorem Joined.join (hjoined : Joined L cs entry) (hread : call.Readable L)
    (h : joinCall L (some entry) call = .ok entry') : Joined L (cs ++ [call]) entry' := by
  obtain ⟨hport, rfl⟩ := (joinCall_eq_ok hread).1 h
  refine ⟨?_, ?_, fun field => ?_, ?_, hashable_take hread ?_⟩
  · intro c hc
    change c.portCode = (entry.advance call).portCode
    rw [portCode_advance]
    obtain hc | hc := List.mem_append.1 hc
    · exact hjoined.portCode c hc
    · rw [List.mem_singleton.1 hc]
      exact hport.symm
  · obtain ⟨c, hc, horder, hstatus⟩ := hjoined.greatest
    exact hc.advance horder hstatus
  · rw [knows_take, Option.getD_some, knows_advance, hjoined.knows, lastValue_concat]
  · change (entry.advance call).sourceEventIds ++ _ = _
    rw [sourceEventIds_advance, hjoined.sourceEventIds, List.map_append]
    rfl
  · rw [Option.getD_some, vesselRef_advance]
    exact hjoined.hashable

/-- **All events of a call.** -/
theorem joined_of_foldGroup (hread : ∀ c ∈ cs, c.Readable L) {b : Option (CallEntry F)}
    (h : foldGroup (joinCall L) none cs = .ok b) : ∀ entry ∈ b, Joined L cs entry := by
  refine foldGroup_induct (P := fun cs b => (∀ c ∈ cs, c.Readable L) → (b = none → cs = []) ∧
    ∀ entry ∈ b, Joined L cs entry) ?_ ?_ h hread |>.2
  · exact fun _ => ⟨fun _ => rfl, by rintro _ ⟨⟩⟩
  · rintro done b c entry ih hjoin hread
    have hc := hread c (by simp)
    refine ⟨by rintro ⟨⟩, ?_⟩
    rintro _ ⟨⟩
    obtain ⟨hnone, hsome⟩ := ih fun c hc => hread c (List.mem_append_left _ hc)
    cases b with
    | none =>
      rw [hnone rfl]
      exact joined_first hc hjoin
    | some entry => exact (hsome entry rfl).join hc hjoin

/-! ## The events of a listing -/

/-- The events of a call are those read under its id. -/
theorem mem_callsOf : call ∈ callsOf L events portCallId ↔
    ∃ event ∈ events, callEvent L event = .ok (some (portCallId, call)) :=
  ⟨exists_of_mem_entriesOf, fun ⟨_, hevent, h⟩ => mem_entriesOf hevent h⟩

/-- An event of a call has its row's id. -/
theorem eventId_of_callEvent (h : callEvent L event = .ok (some (portCallId, call))) :
    event.get "event_id" = .text call.event.eventId := by
  obtain ⟨e, he, h⟩ := bind_eq_ok.1 h
  have heventId : call.event = e := by
    split_ifs at h with htype
    · cases h
    · split at h
      · obtain ⟨-, h⟩ := guard_eq_ok.1 h
        split at h
        · obtain ⟨-, h⟩ := guard_eq_ok.1 h
          split at h
          · obtain ⟨-, h⟩ := guard_eq_ok.1 h
            cases h
            rfl
          · cases h
        · cases h
      · cases h
  unfold decodeSilverEvent at he
  split at he
  · split at he
    · split at he
      · split at he
        · rename_i hid
          obtain ⟨_, -, he⟩ := bind_eq_ok.1 he
          cases he
          rw [heventId]
          exact hid
        · cases he
      · cases he
    · cases he
  · cases he

namespace ValidCalls

/-- Events of valid calls can be read. -/
theorem readable_of_mem (h : ValidCalls L events) (hc : call ∈ callsOf L events portCallId) :
    call.Readable L := by
  obtain ⟨event, hevent, hcall⟩ := mem_callsOf.1 hc
  obtain ⟨_, _, hcall', hread⟩ := h.readable event hevent
  cases hcall.symm.trans hcall'
  exact hread

/-- The events of a valid call name one port. -/
theorem portCode_eq {call' : CallEvent F} (h : ValidCalls L events)
    (hc : call ∈ callsOf L events portCallId) (hc' : call' ∈ callsOf L events portCallId) :
    call.portCode = call'.portCode := by
  obtain ⟨event, hevent, hcall⟩ := mem_callsOf.1 hc
  obtain ⟨event', hevent', hcall'⟩ := mem_callsOf.1 hc'
  exact h.ports event hevent event' hevent' _ _ _ hcall hcall'

/-- No two events of a call are in one place. -/
theorem order_inj (h : ValidCalls L events) : ∀ c ∈ callsOf L events portCallId,
    ∀ c' ∈ callsOf L events portCallId, c.event.order = c'.event.order → c = c' := by
  intro c hc c' hc' horder
  obtain ⟨event, hevent, hcall⟩ := mem_callsOf.1 hc
  obtain ⟨event', hevent', hcall'⟩ := mem_callsOf.1 hc'
  have hid : c.event.eventId = c'.event.eventId := congrArg (fun o => (ofLex o).2) horder
  have hsame : event = event' := List.inj_on_of_nodup_map h.ids hevent hevent' (by
    rw [eventId_of_callEvent hcall, eventId_of_callEvent hcall', hid])
  rw [hsame, hcall'] at hcall
  cases hcall
  rfl

/-- The order of the events does not matter to their validity. -/
theorem perm (h : ValidCalls L events) (hp : events.Perm events') : ValidCalls L events' where
  readable event hevent := h.readable event (hp.mem_iff.2 hevent)
  ids := (hp.map _).nodup_iff.1 h.ids
  ports event hevent event' hevent' :=
    h.ports event (hp.mem_iff.2 hevent) event' (hp.mem_iff.2 hevent')

/-- **The pass returns**, with what the events of each call leave. -/
theorem groupCalls_isOk (h : ValidCalls L events) : ∃ calls, groupCalls L events = .ok calls := by
  refine groupPass_isOk_of_folds (fun event hevent => ?_) fun portCallId => ?_
  · obtain ⟨_, _, hcall, -⟩ := h.readable event hevent
    exact ⟨_, hcall⟩
  · refine foldGroup_isOk (P := fun b => ∀ entry ∈ b, ∃ c ∈ callsOf L events portCallId,
      entry.portCode = c.portCode) (by rintro _ ⟨⟩) fun b hb c hc => ?_
    have hport : (b.getD (.initial c)).portCode = c.portCode := by
      cases b with
      | none => rfl
      | some entry =>
        obtain ⟨c', hc', hport⟩ := hb entry rfl
        exact hport.trans (h.portCode_eq hc' hc)
    refine ⟨_, (joinCall_eq_ok (h.readable_of_mem hc)).2 ⟨hport, rfl⟩, ?_⟩
    rintro _ ⟨⟩
    refine ⟨c, hc, ?_⟩
    change ((b.getD (.initial c)).advance c).portCode = _
    rw [portCode_advance, hport]

/-- The entry of a call is its events, joined. -/
theorem joined (h : ValidCalls L events) (hcalls : groupCalls L events = .ok calls)
    (hget : calls.get portCallId = some entry) :
    Joined L (callsOf L events portCallId) entry := by
  have hfold := groupPass_get hcalls portCallId
  rw [hget] at hfold
  exact joined_of_foldGroup (fun c hc => h.readable_of_mem hc) hfold entry rfl

end ValidCalls

/-! ## Facts -/

/-- A reference that can be hashed has its hash. -/
theorem hashVesselRef_eq {v : Option Text} (h : ∃ hash, hashVesselRef L v = .ok hash) :
    hashVesselRef L v = .ok (v.map (vesselHash L)) := by
  obtain ⟨hash, hhash⟩ := h
  cases v with
  | none => rfl
  | some t =>
    obtain ⟨b, hb, -⟩ := bind_eq_ok.1 hhash
    exact bind_eq_ok.2 ⟨b, hb, by rw [Option.map_some, vesselHash, hb]; rfl⟩

/-- **The fact of a call** shows what is known of it. -/
theorem exists_callFact (portCallId : Text) (h : ∃ hash, hashVesselRef L entry.vesselRef = .ok hash) :
    ∃ f, callFact L portCallId entry = .ok f ∧ f.portCallId = portCallId ∧
      f.status = entry.status ∧ ∀ field, f.shows field = entry.knows L field := by
  refine ⟨_, bind_eq_ok.2 ⟨_, hashVesselRef_eq h, bind_eq_ok.2 ⟨_, dumps_texts _ _, rfl⟩⟩, rfl, rfl,
    fun field => ?_⟩
  cases field with
  | vesselRef => exact Option.map_map ..
  | shipClass => rfl
  | arrivedAt => rfl
  | berthedAt => rfl
  | departedAt => rfl
  | declaredTonnage => rfl

/-- Calls of which the same is known, up to the order of their events, have
one fact. -/
theorem callFact_congr (portCallId : Text) (h : Joined L cs entry) (h' : Joined L cs' entry')
    (hport : entry.portCode = entry'.portCode) (hstatus : entry.status = entry'.status)
    (hids : entry.sourceEventIds.Perm entry'.sourceEventIds)
    (hknows : ∀ field, entry.knows L field = entry'.knows L field) :
    callFact L portCallId entry = callFact L portCallId entry' := by
  have hinj : ∀ {α : Type} {g : α → CallValue F} {u v : Option α},
      (∀ a b, g a = g b → a = b) → u.map g = v.map g → u = v := fun hg heq =>
    Option.map_injective (fun a b => hg a b) heq
  have hvessel : entry.vesselRef.map (vesselHash L) = entry'.vesselRef.map (vesselHash L) := by
    refine hinj (g := CallValue.text) (by rintro _ _ ⟨⟩; rfl) ?_
    rw [Option.map_map, Option.map_map]
    exact hknows .vesselRef
  have hship := hinj (by rintro _ _ ⟨⟩; rfl) (hknows .shipClass)
  have harrived := hinj (by rintro _ _ ⟨⟩; rfl) (hknows .arrivedAt)
  have hberthed := hinj (by rintro _ _ ⟨⟩; rfl) (hknows .berthedAt)
  have hdeparted := hinj (by rintro _ _ ⟨⟩; rfl) (hknows .departedAt)
  have htonnage := hinj (by rintro _ _ ⟨⟩; rfl) (hknows .declaredTonnage)
  rw [callFact, callFact, hashVesselRef_eq h.hashable, hashVesselRef_eq h'.hashable, hvessel,
    insertionSort_perm hids, hport, hship, hstatus, harrived, hberthed, hdeparted, htonnage]

/-- The facts of a period, from the fact and the instant of every call. -/
theorem assemblePortCallFacts_eq (hcalls : groupCalls L events = .ok calls) :
    assemblePortCallFacts L events start stop =
      collect ((((sortBy Prod.fst calls).map fun c =>
        (c.1, callFact L c.1 c.2, c.2.attributable)).filter fun v =>
          inPeriod v.2.2 start stop).map fun v => v.2.1) := by
  rw [assemblePortCallFacts, hcalls, ok_bind, List.filter_map, List.map_map]
  rfl

namespace ValidCalls

/-- Valid calls have facts. -/
theorem exists_facts (h : ValidCalls L events) (start stop : ℤ) :
    ∃ facts, assemblePortCallFacts L events start stop = .ok facts := by
  obtain ⟨calls, hcalls⟩ := h.groupCalls_isOk
  have hfact : ∀ c ∈ (sortBy Prod.fst calls).filter (fun c => inPeriod c.2.attributable start stop),
      ∃ f, callFact L c.1 c.2 = .ok f := by
    intro c hc
    have hget := (Members.get_eq_some (groupCalls_distinct hcalls)).2
      (mem_sortBy.1 (List.mem_filter.1 hc).1)
    obtain ⟨f, hf, -⟩ := exists_callFact c.1 (h.joined hcalls hget).hashable
    exact ⟨f, hf⟩
  obtain ⟨facts, hfacts⟩ := exists_collect_map hfact
  exact ⟨facts, bind_eq_ok.2 ⟨calls, hcalls, hfacts⟩⟩

/-- A fact shows what the events of its call leave. -/
theorem joined_of_mem (h : ValidCalls L events)
    (hfacts : assemblePortCallFacts L events start stop = .ok facts) (hf : f ∈ facts) :
    ∃ entry, Joined L (callsOf L events f.portCallId) entry ∧ f.status = entry.status ∧
      ∀ field, f.shows field = entry.knows L field := by
  obtain ⟨calls, hcalls, hcollect⟩ := bind_eq_ok.1 hfacts
  obtain ⟨⟨portCallId, entry⟩, hc, hfact⟩ := List.mem_map.1 (mem_of_collect hcollect hf)
  have hget := (Members.get_eq_some (groupCalls_distinct hcalls)).2
    (mem_sortBy.1 (List.mem_filter.1 hc).1)
  have hjoined := h.joined hcalls hget
  obtain ⟨f', hf', hid, hstatus, hshows⟩ := exists_callFact portCallId hjoined.hashable
  obtain rfl := Except.ok.inj (hfact.symm.trans hf')
  rw [hid]
  exact ⟨entry, hjoined, hstatus, hshows⟩

/-- A call with an event is a fact of the period of its instant. -/
theorem exists_entry (h : ValidCalls L events) (hne : callsOf L events portCallId ≠ []) :
    ∃ entry, Joined L (callsOf L events portCallId) entry ∧ ∀ start stop facts,
      assemblePortCallFacts L events start stop = .ok facts →
        (portCallId ∈ facts.map Fact.portCallId ↔ inPeriod entry.attributable start stop = true) := by
  obtain ⟨calls, hcalls⟩ := h.groupCalls_isOk
  have hsome : calls.get portCallId ≠ none := by
    rwa [ne_eq, groupPass_get_eq_none hcalls]
  obtain ⟨entry, hget⟩ := Option.ne_none_iff_exists'.1 hsome
  exact ⟨entry, h.joined hcalls hget, fun start stop facts hfacts => mem_portCallIds hcalls hfacts
    ((Members.get_eq_some (groupCalls_distinct hcalls)).1 hget)⟩

end ValidCalls

/-! ## The merge -/

omit [PyFloat F] in
/-- The greatest events of a call are one. -/
theorem IsGreatest.order_eq {c c' : CallEvent F} (h : IsGreatest cs c) (h' : IsGreatest cs c') :
    c.event.order = c'.event.order :=
  le_antisymm (h'.2 c h.1) (h.2 c' h'.1)

/-- The instant of a call, where its last listed arrival is its latest. -/
theorem Joined.attributable_eq (h : Joined L cs entry)
    (hinj : ∀ c ∈ cs, ∀ c' ∈ cs, c.event.order = c'.event.order → c = c')
    (hlatest : LatestReport L .arrivedAt cs (lastValue (·.reports L .arrivedAt) cs)) {us : ℤ}
    (hat : AttributedAt L cs us) : entry.attributable = us := by
  obtain ⟨c, hc, hus⟩ := hat
  rw [← h.knows] at hlatest
  have hknown : ∀ v, LatestReport L .arrivedAt cs v → entry.arrivedAt.map CallValue.instant = v :=
    fun v hv => hlatest.unique hinj hv
  obtain hus | ⟨hnone, rfl⟩ := hus
  · obtain ⟨us', hus', heq⟩ := Option.map_eq_some_iff.1 (hknown _ hus)
    cases heq
    rw [CallEntry.attributable, hus', Option.getD_some]
  · obtain ⟨c₀, hc₀, horder, -⟩ := h.greatest
    rw [CallEntry.attributable, Option.map_eq_none_iff.1 (hknown _ hnone), Option.getD_none,
      ← horder, hc₀.order_eq hc]
    rfl

/-- **The last listed value of each field**: the facts of every period are
the merge of the latest values just where it is the latest. -/
theorem mergesLatest_iff (h : ValidCalls L events) :
    (∀ start stop, ∃ facts, assemblePortCallFacts L events start stop = .ok facts ∧
        MergesLatest L events start stop facts) ↔
      ∀ portCallId field, LatestReport L field (callsOf L events portCallId)
        (lastValue (·.reports L field) (callsOf L events portCallId)) := by
  constructor
  · intro hmerges portCallId field
    by_cases hne : callsOf L events portCallId = []
    · rw [hne]
      exact IsLatest.nil
    · obtain ⟨entry, hjoined, hin⟩ := h.exists_entry hne
      -- the period of one microsecond the call is attributed to
      obtain ⟨facts, hfacts, hmerged⟩ := hmerges entry.attributable (entry.attributable + 1)
      have hmem := (hin _ _ _ hfacts).2 (inPeriod_iff.2 ⟨le_rfl, by omega⟩)
      obtain ⟨f, hf, rfl⟩ := List.mem_map.1 hmem
      obtain ⟨entry', hjoined', -, hshows⟩ := h.joined_of_mem hfacts hf
      have hlatest := hmerged.latest f hf field
      rwa [hshows, hjoined'.knows] at hlatest
  · intro hlatest start stop
    obtain ⟨facts, hfacts⟩ := h.exists_facts start stop
    refine ⟨facts, hfacts, ⟨fun f hf => ?_, fun f hf field => ?_, fun portCallId us hat => ?_⟩⟩
    · obtain ⟨entry, hjoined, hstatus, -⟩ := h.joined_of_mem hfacts hf
      obtain ⟨c, hc, -, hcstatus⟩ := hjoined.greatest
      exact ⟨c, hc, hcstatus.trans hstatus.symm⟩
    · obtain ⟨entry, hjoined, -, hshows⟩ := h.joined_of_mem hfacts hf
      rw [hshows, hjoined.knows]
      exact hlatest f.portCallId field
    · obtain ⟨c, hc, -⟩ := id hat
      obtain ⟨entry, hjoined, hin⟩ := h.exists_entry (List.ne_nil_of_mem hc.1)
      rw [hin _ _ _ hfacts, hjoined.attributable_eq h.order_inj (hlatest _ _) hat]

/-- What the facts of all periods tell of a call. -/
theorem lastValue_eq_of_facts (h : ValidCalls L events) (h' : ValidCalls L events')
    (hsame : ∀ start stop, assemblePortCallFacts L events' start stop =
      assemblePortCallFacts L events start stop)
    (hne : callsOf L events portCallId ≠ []) (field : CallField) :
    lastValue (·.reports L field) (callsOf L events' portCallId) =
      lastValue (·.reports L field) (callsOf L events portCallId) := by
  obtain ⟨entry, hjoined, hin⟩ := h.exists_entry hne
  obtain ⟨facts, hfacts⟩ := h.exists_facts entry.attributable (entry.attributable + 1)
  have hmem := (hin _ _ _ hfacts).2 (inPeriod_iff.2 ⟨le_rfl, by omega⟩)
  obtain ⟨f, hf, rfl⟩ := List.mem_map.1 hmem
  obtain ⟨e, hjoined, -, hshows⟩ := h.joined_of_mem hfacts hf
  obtain ⟨e', hjoined', -, hshows'⟩ := h'.joined_of_mem ((hsame _ _).trans hfacts) hf
  rw [← hjoined.knows, ← hjoined'.knows, ← hshows, ← hshows']

/-- A listing with one event of a call at its end. -/
theorem exists_perm_last (hc : call ∈ callsOf L events portCallId) :
    ∃ events' cs, events.Perm events' ∧ callsOf L events' portCallId = cs ++ [call] := by
  obtain ⟨event, hevent, hcall⟩ := mem_callsOf.1 hc
  obtain ⟨pre, post, rfl⟩ := List.append_of_mem hevent
  refine ⟨pre ++ post ++ [event], callsOf L (pre ++ post) portCallId, ?_, ?_⟩
  · exact List.perm_middle.trans (List.perm_append_singleton _ _).symm
  · have hlast : entriesOf (callEvent L) [event] portCallId = [call] := by
      rw [entriesOf, entries_cons_some hcall, List.filter_cons_of_pos (by simp)]
      rfl
    rw [callsOf, entriesOf_append, hlast]
    rfl

/-- Calls of one listing and of another order of it. -/
theorem ValidCalls.view_congr (h : ValidCalls L events) (hp : events.Perm events')
    (hagree : ∀ portCallId field, AgreesOn (·.reports L field) (callsOf L events portCallId))
    {calls' : Members (CallEntry F)} (hcalls : groupCalls L events = .ok calls)
    (hcalls' : groupCalls L events' = .ok calls') (portCallId : Text) :
    (calls'.get portCallId).map (fun e => (callFact L portCallId e, e.attributable)) =
      (calls.get portCallId).map fun e => (callFact L portCallId e, e.attributable) := by
  have hcs : (callsOf L events portCallId).Perm (callsOf L events' portCallId) :=
    entriesOf_perm hp portCallId
  have hnone : calls'.get portCallId = none ↔ calls.get portCallId = none := by
    rw [groupPass_get_eq_none hcalls, groupPass_get_eq_none hcalls', ← callsOf, ← callsOf]
    exact ⟨fun hnil => (hnil ▸ hcs).eq_nil, fun hnil => (hnil ▸ hcs).nil_eq.symm⟩
  cases hget : calls.get portCallId with
  | none => rw [hnone.2 hget]
  | some entry =>
    obtain ⟨entry', hget'⟩ := Option.ne_none_iff_exists'.1 fun h0 =>
      Option.some_ne_none _ (hget.symm.trans (hnone.1 h0))
    have hj := h.joined hcalls hget
    have hj' := (h.perm hp).joined hcalls' hget'
    obtain ⟨c, hc, horder, hstatus⟩ := hj.greatest
    obtain ⟨c', hc', horder', hstatus'⟩ := hj'.greatest
    have hcc : c' = c := by
      have hc'' : IsGreatest (callsOf L events portCallId) c' :=
        ⟨hcs.mem_iff.2 hc'.1, fun u hu => hc'.2 u (hcs.mem_iff.1 hu)⟩
      exact h.order_inj c' hc''.1 c hc.1 (hc''.order_eq hc)
    have hknows : ∀ field, entry'.knows L field = entry.knows L field := by
      intro field
      rw [hj.knows, hj'.knows]
      exact (lastValue_perm hcs (hagree portCallId field)).symm
    have hids : entry'.sourceEventIds.Perm entry.sourceEventIds := by
      rw [hj.sourceEventIds, hj'.sourceEventIds]
      exact (hcs.map _).symm
    have hport : entry'.portCode = entry.portCode :=
      (hj'.portCode c (hcs.mem_iff.1 hc.1)).symm.trans (hj.portCode c hc.1)
    have harrived : entry'.arrivedAt = entry.arrivedAt :=
      Option.map_injective (fun _ _ heq => CallValue.instant.inj heq) (hknows .arrivedAt)
    rw [hget', Option.map_some, Option.map_some, callFact_congr portCallId hj' hj hport
      (by rw [← hstatus, ← hstatus', hcc]) hids hknows, CallEntry.attributable,
      CallEntry.attributable, harrived, ← horder, ← horder', hcc]

/-- **The order of the listing**: the facts of every period forget it just
where no two events of a call disagree on a field. -/
theorem facts_perm_iff (h : ValidCalls L events) :
    (∀ events', events.Perm events' → ∀ start stop,
        assemblePortCallFacts L events' start stop = assemblePortCallFacts L events start stop) ↔
      ∀ portCallId field, AgreesOn (·.reports L field) (callsOf L events portCallId) := by
  constructor
  · intro hsame portCallId field c hc c' hc' v v' hv hv'
    have hlast : ∀ {u : CallEvent F} {w : CallValue F}, u ∈ callsOf L events portCallId →
        u.reports L field = some w →
        lastValue (·.reports L field) (callsOf L events portCallId) = some w := by
      intro u w hu hw
      obtain ⟨events', cs, hp, hcs⟩ := exists_perm_last hu
      rw [← lastValue_eq_of_facts h (h.perm hp) (hsame _ hp) (List.ne_nil_of_mem hu) field, hcs,
        lastValue_concat, hw]
      rfl
    exact Option.some.inj ((hlast hc hv).symm.trans (hlast hc' hv'))
  · intro hagree events' hp start stop
    obtain ⟨calls, hcalls⟩ := h.groupCalls_isOk
    obtain ⟨calls', hcalls'⟩ := (h.perm hp).groupCalls_isOk
    rw [assemblePortCallFacts_eq hcalls, assemblePortCallFacts_eq hcalls',
      sortBy_fst_map_congr (groupCalls_distinct hcalls') (groupCalls_distinct hcalls)
        (h.view_congr hp hagree hcalls hcalls')]

/-- **Port calls are merged by the listing**: the facts of every period are
the merge of the latest values just where, of every call and field, the last
listed value is the latest; and they are the same for every order of the
listing just where no two events of a call disagree on a field. -/
theorem merges_latest_iff (h : ValidCalls L events) :
    ((∀ start stop, ∃ facts, assemblePortCallFacts L events start stop = .ok facts ∧
        MergesLatest L events start stop facts) ↔
      ∀ portCallId field, LatestReport L field (callsOf L events portCallId)
        (lastValue (·.reports L field) (callsOf L events portCallId))) ∧
    ((∀ events', events.Perm events' → ∀ start stop,
        assemblePortCallFacts L events' start stop = assemblePortCallFacts L events start stop) ↔
      ∀ portCallId field, AgreesOn (·.reports L field) (callsOf L events portCallId)) :=
  ⟨mergesLatest_iff h, facts_perm_iff h⟩

/-- In the order of the events, the last value is the latest. -/
theorem latestReport_lastValue (h : cs.Pairwise fun c c' => c.event.order ≤ c'.event.order)
    (field : CallField) : LatestReport L field cs (lastValue (·.reports L field) cs) :=
  isLatest_lastValue_of_pairwise h

/-- **A listing in the order of the events** is merged as it should be. -/
theorem mergesLatest_of_chronological (h : ValidCalls L events)
    (horder : ∀ portCallId, (callsOf L events portCallId).Pairwise fun c c' =>
      c.event.order ≤ c'.event.order) (start stop : ℤ) :
    ∃ facts, assemblePortCallFacts L events start stop = .ok facts ∧
      MergesLatest L events start stop facts :=
  (mergesLatest_iff h).2 (fun portCallId => latestReport_lastValue (horder portCallId)) start stop

/-! ### A call reported twice -/

instance (c : CallEvent F) : Decidable (c.Readable L) :=
  decidable_of_iff
    (((optionalText c.event.fields [lit "vesselRef"]).toOption.any fun v =>
        (hashVesselRef L v).toOption.isSome) = true ∧
      (optionalText c.event.fields [lit "shipClass"]).toOption.isSome = true ∧
      (∀ name ∈ [lit "arrivedAt", lit "berthedAt", lit "departedAt"],
        (parseInstant L (fieldOrNone c.event.fields name) name
          c.event.eventType).toOption.isSome = true) ∧
      (optionalNumber c.event.fields (lit "declaredTonnage") c.event.eventType).toOption.isSome =
        true) (by
    have hsome : ∀ {α : Type} {x : Except PyError α},
        x.toOption.isSome = true ↔ ∃ v, x = .ok v := fun {_ x} => by
      rw [Option.isSome_iff_exists]
      exact exists_congr fun v => toOption_eq_some
    simp only [hsome, Option.any_eq_true, toOption_eq_some]
    exact ⟨fun ⟨h₁, h₂, h₃, h₄⟩ => ⟨h₁, h₂, h₃, h₄⟩, fun h => ⟨h.1, h.2, h.3, h.4⟩⟩)

/-- An event of the call, an instant and a ship class. -/
def classified (id : String) (us : ℤ) (shipClass : String) : Row Decimal :=
  [("event_id", .text (lit id)), ("event_type", .text portCallEventType), ("occurred_at", .instant us),
    ("payload_json", .text (lit "\x7b\x22portCallId\x22:\x22call-1\x22,\x22portCode\x22:\x22NGLOS\x22," ++
      lit "\x22status\x22:\x22ACCEPTED\x22,\x22shipClass\x22:\x22" ++ lit shipClass ++
      lit "\x22\x7d"))]

/-- What the event is, in full. -/
def IsClassified (us : ℤ) (shipClass : String) (event : Row Decimal) : Prop :=
  ∃ c, callEvent Library.ascii event = .ok (some (lit "call-1", c)) ∧ c.Readable Library.ascii ∧
    c.portCode = lit "NGLOS" ∧ c.event.occurredAt = us ∧
    c.reports Library.ascii .shipClass = some (.text (lit shipClass))

/-- An event that is checked to report a class. -/
theorem isClassified_of_check {us : ℤ} {shipClass : String} {event : Row Decimal}
    (h : ((callEvent Library.ascii event).toOption.join.any fun c =>
      decide (c.1 = lit "call-1" ∧ c.2.Readable Library.ascii ∧ c.2.portCode = lit "NGLOS" ∧
        c.2.event.occurredAt = us ∧
        c.2.reports Library.ascii .shipClass = some (.text (lit shipClass)))) = true) :
    IsClassified us shipClass event := by
  obtain ⟨⟨_, c⟩, hc, h⟩ := (Option.any_eq_true _ _).1 h
  obtain ⟨rfl, h⟩ := of_decide_eq_true h
  exact ⟨c, toOption_eq_some.1 (Option.join_eq_some_iff.1 hc), h⟩

/-- A container ship first, then a tanker. -/
def early : Row Decimal := classified "a" 1 "Container"

def late : Row Decimal := classified "b" 2 "Tanker"

/-- The earlier event reports a container ship. -/
theorem early_classified : IsClassified 1 "Container" early :=
  isClassified_of_check (by decide +kernel)

/-- The later event reports a tanker. -/
theorem late_classified : IsClassified 2 "Tanker" late := isClassified_of_check (by decide +kernel)

/-- The two events are a valid call. -/
theorem validCalls_early_late : ValidCalls Library.ascii [early, late] := by
  obtain ⟨c, hc, hread, hport, -⟩ := early_classified
  obtain ⟨c', hc', hread', hport', -⟩ := late_classified
  have hcall : ∀ event ∈ [early, late], ∃ call, callEvent Library.ascii event =
      .ok (some (lit "call-1", call)) ∧ call.Readable Library.ascii ∧ call.portCode = lit "NGLOS" := by
    intro event hevent
    simp only [List.mem_cons, List.not_mem_nil, or_false] at hevent
    obtain rfl | rfl := hevent
    · exact ⟨c, hc, hread, hport⟩
    · exact ⟨c', hc', hread', hport'⟩
  refine ⟨fun event hevent => ?_, ?_, ?_⟩
  · obtain ⟨call, h, hread, -⟩ := hcall event hevent
    exact ⟨_, call, h, hread⟩
  · have hne : (Cell.text (lit "a") : Cell Decimal) ≠ .text (lit "b") := by
      intro h
      exact absurd (Cell.text.inj h) (by decide)
    exact List.nodup_cons.2 ⟨fun h => hne (List.mem_singleton.1 h), List.nodup_singleton _⟩
  · intro event hevent event' hevent' portCallId call call' h h'
    obtain ⟨_, h₀, -, hport⟩ := hcall event hevent
    obtain ⟨_, h₀', -, hport'⟩ := hcall event' hevent'
    cases h.symm.trans h₀
    cases h'.symm.trans h₀'
    exact hport.trans hport'.symm

omit [PyFloat F] in
/-- The later of two events comes later in their order. -/
theorem order_lt {c c' : CallEvent F} (h : c.event.occurredAt < c'.event.occurredAt) :
    c.event.order < c'.event.order :=
  Prod.Lex.toLex_lt_toLex.2 (.inl h)

/-- The calls of two events of one key. -/
theorem callsOf_pair {c c' : CallEvent F} {event event' : Row F} {key : Text}
    (h : callEvent L event = .ok (some (key, c))) (h' : callEvent L event' = .ok (some (key, c')))
    (portCallId : Text) :
    callsOf L [event, event'] portCallId = if key = portCallId then [c, c'] else [] := by
  rw [callsOf, entriesOf, entries_cons_some h, entries_cons_some h']
  split_ifs with hk
  · simp [hk, entries]
  · simp [hk, entries]

/-- Listed in the order of the events, the call is a tanker. -/
theorem early_late_merged : ∃ facts,
    assemblePortCallFacts Library.ascii [early, late] 0 10 = .ok facts ∧
      MergesLatest Library.ascii [early, late] 0 10 facts := by
  obtain ⟨c, hc, -, -, hus, -⟩ := early_classified
  obtain ⟨c', hc', -, -, hus', -⟩ := late_classified
  have hlt : c.event.order < c'.event.order := order_lt (by rw [hus, hus']; decide)
  refine (merges_latest_iff validCalls_early_late).1.2 (fun portCallId => ?_) 0 10
  refine latestReport_lastValue ?_
  rw [callsOf_pair hc hc']
  split_ifs
  · simpa using hlt.le
  · exact .nil

/-- A later event listed before an earlier one that disagrees with it. -/
theorem not_merged_of_pair {c c' : CallEvent F} {event event' : Row F} {key : Text}
    {field : CallField} {v v' : CallValue F} (hvalid : ValidCalls L [event', event])
    (hc : callEvent L event = .ok (some (key, c)))
    (hc' : callEvent L event' = .ok (some (key, c')))
    (hlt : c.event.order < c'.event.order) (hv : c.reports L field = some v)
    (hv' : c'.reports L field = some v') (hne : v' ≠ v) :
    (¬∀ start stop, ∃ facts, assemblePortCallFacts L [event', event] start stop = .ok facts ∧
      MergesLatest L [event', event] start stop facts) ∧
    ¬∀ events', [event', event].Perm events' → ∀ start stop,
      assemblePortCallFacts L events' start stop =
        assemblePortCallFacts L [event', event] start stop := by
  have hcalls : callsOf L [event', event] key = [c', c] := by
    rw [callsOf_pair hc' hc, if_pos rfl]
  constructor
  · intro hmerges
    have hlast : lastValue (·.reports L field) [c', c] = some v := by
      simp [lastValue, hv, hv']
    have hlatest := (mergesLatest_iff hvalid).1 hmerges key field
    rw [hcalls, hlast] at hlatest
    obtain ⟨u, hu, huv, hmax⟩ := hlatest
    simp only [List.mem_cons, List.not_mem_nil, or_false] at hu
    obtain rfl | rfl := hu
    · exact hne (Option.some.inj (hv'.symm.trans huv))
    · have hreports : c'.reports L field ≠ none := by
        rw [hv']
        exact Option.some_ne_none _
      exact hlt.not_ge (hmax c' List.mem_cons_self hreports)
  · intro hsame
    have hagree := (facts_perm_iff hvalid).1 hsame key field
    rw [hcalls] at hagree
    exact hne (hagree c' List.mem_cons_self c (by simp) _ _ hv' hv)

/-- **Listed the other way round**, the call is a container ship. -/
theorem late_early_not_merged : ValidCalls Library.ascii [late, early] ∧
    ¬(∀ start stop, ∃ facts,
      assemblePortCallFacts Library.ascii [late, early] start stop = .ok facts ∧
        MergesLatest Library.ascii [late, early] start stop facts) ∧
    ¬∀ events', [late, early].Perm events' → ∀ start stop,
      assemblePortCallFacts Library.ascii events' start stop =
        assemblePortCallFacts Library.ascii [late, early] start stop := by
  have hvalid : ValidCalls Library.ascii [late, early] :=
    validCalls_early_late.perm (List.Perm.swap late early [])
  obtain ⟨c, hc, -, -, hus, hclass⟩ := early_classified
  obtain ⟨c', hc', -, -, hus', hclass'⟩ := late_classified
  have hlt : c.event.order < c'.event.order := order_lt (by rw [hus, hus']; decide)
  have hne : (.text (lit "Tanker") : CallValue Decimal) ≠ .text (lit "Container") := by decide
  exact ⟨hvalid, not_merged_of_pair hvalid hc hc' hlt hclass hclass' hne⟩

end PortStatistics

end Lakehouse
