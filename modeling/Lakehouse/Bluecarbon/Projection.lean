import Lakehouse.Bluecarbon.Registry
import Lakehouse.Common.Decimal
/-!
# The registry is public

`buildPublicRegistryRows` reads of an event its id, its type, its instant
and the public fields of its domain record. Two lists of events that agree
on these give the same rows, or are both refused.
-/

namespace Lakehouse

namespace Bluecarbon

open Ingest

variable {F : Type} [PyFloat F] {L : Library}

/-! ## Public agreement -/

/-- The public fields of a credit block. -/
def publicBlockFields : List Text :=
  [lit "blockId", lit "projectId", lit "vintage", lit "status", lit "quantityKgCo2e",
    lit "bufferPool"]

/-- The public fields of a retirement. -/
def publicRetirementFields : List Text :=
  [lit "projectId", lit "retirementId", lit "serial", lit "beneficiary", lit "purpose",
    lit "quantityKgCo2e", lit "artifactSha256", lit "retiredAt"]

/-- Two records that agree on some fields. -/
def AgreeOn (names : List Text) (fields fields' : Members (Doc F)) : Prop :=
  ∀ name ∈ names, fieldOrNone fields name = fieldOrNone fields' name

/-- The domain record of an event. -/
def recordOf (event : Row F) : Except PyError (Members (Doc F)) :=
  match event.get "payload_json" with
  | .text payloadJson => domainFields payloadJson
  | _ => .error (.valueError (lit "missing payload_json"))

/-- **Two events agree in public**: on their ids, types and instants, and,
where the type has public fields, on these; where one has no domain record,
neither has the other. -/
structure PublicAlike (e e' : Row F) : Prop where
  eventId : e.get "event_id" = e'.get "event_id"
  eventType : e.get "event_type" = e'.get "event_type"
  occurredAt : e.get "occurred_at" = e'.get "occurred_at"
  fields : ∀ p ∈ [(projectEventType, publicProjectFields), (creditBlockEventType, publicBlockFields),
    (retirementEventType, publicRetirementFields)], isOfType p.1 e = true →
    Alike (AgreeOn p.2) (recordOf e) (recordOf e')

variable {e e' : Row F} {names : List Text} {fields fields' : Members (Doc F)}

/-- Events that agree in public are of one type. -/
theorem PublicAlike.isOfType (h : PublicAlike e e') (eventType : Text) :
    isOfType eventType e = isOfType eventType e' := by
  rw [Ingest.isOfType, Ingest.isOfType, h.eventType]

omit [PyFloat F] in
/-- Records that agree on a field have one text there, or are refused alike. -/
theorem requireText_eq (h : AgreeOn names fields fields') (name : Text) (hn : name ∈ names)
    (eventType : Text) : requireText fields name eventType = requireText fields' name eventType := by
  rw [requireText, requireText, h name hn]

omit [PyFloat F] in
/-- Records that agree on a field have one optional text there, or are refused
alike. -/
theorem optionalText_eq (h : AgreeOn names fields fields') (name : Text) (hn : name ∈ names)
    (eventType : Text) :
    optionalText fields name eventType = optionalText fields' name eventType := by
  rw [optionalText, optionalText, h name hn]

/-- Records that agree on a field have one quantity there, or are refused
alike. -/
theorem requireQuantity_eq (h : AgreeOn names fields fields') (name : Text) (hn : name ∈ names)
    (eventType : Text) :
    requireQuantity fields name eventType = requireQuantity fields' name eventType := by
  rw [requireQuantity, requireQuantity, h name hn]

/-! ## The latest events -/

/-- Two latest events that agree in public. -/
structure LatestAlike (names : List Text) (a b : Latest F) : Prop where
  eventId : a.eventId = b.eventId
  occurredAt : a.occurredAt = b.occurredAt
  fields : AgreeOn names a.fields b.fields

/-- An event without a domain record is refused. -/
theorem latestCandidate_error {eventType : Text} (keyField : Text) {err : PyError}
    (ht : isOfType eventType e = true) (h : recordOf e = .error err) :
    ∃ err', latestCandidate eventType keyField e = .error err' := by
  unfold latestCandidate
  rw [if_neg (by simp [ht])]
  split
  · rename_i payloadJson _ _ hp _ _
    have hdomain : (domainFields payloadJson : Except _ (Members (Doc F))) = .error err := by
      rw [recordOf, hp] at h
      exact h
    rw [hdomain]
    exact ⟨_, rfl⟩
  all_goals exact ⟨_, rfl⟩

/-- What an event with a domain record may become the latest of. -/
theorem latestCandidate_ok {eventType keyField : Text} (ht : isOfType eventType e = true)
    (h : recordOf e = .ok fields) :
    latestCandidate eventType keyField e =
      match e.get "occurred_at", e.get "event_id" with
      | .instant occurredAt, .text eventId => do
        let key ← requireText fields keyField eventType
        return some (key, ⟨fields, eventId, occurredAt⟩)
      | .instant _, _ =>
        .error (.valueError (lit "silver " ++ eventType ++ lit " event is missing event_id"))
      | _, _ =>
        .error (.valueError (lit "silver " ++ eventType ++ lit " event is missing occurred_at")) := by
  unfold latestCandidate
  rw [if_neg (by simp [ht])]
  unfold recordOf at h
  cases hp : e.get "payload_json" with
  | text payloadJson =>
    rw [hp] at h
    cases e.get "occurred_at" with
    | instant us => cases e.get "event_id" <;> simp [h]
    | _ => rfl
  | _ =>
    rw [hp] at h
    cases h

/-- Events that agree in public are candidates that do. -/
theorem latestCandidate_alike {eventType keyField : Text}
    (hp : (eventType, names) ∈ [(projectEventType, publicProjectFields),
      (creditBlockEventType, publicBlockFields), (retirementEventType, publicRetirementFields)])
    (hkey : keyField ∈ names) (h : PublicAlike e e') :
    Alike (Option.Rel (SameKey (LatestAlike names))) (latestCandidate eventType keyField e)
      (latestCandidate eventType keyField e') := by
  cases ht : isOfType eventType e with
  | false =>
    rw [latestCandidate, latestCandidate, ← h.isOfType, if_pos ht, if_pos ht]
    exact .ok .none
  | true =>
    have ht' : isOfType eventType e' = true := h.isOfType eventType ▸ ht
    have hfields := h.fields _ hp ht
    generalize hr : recordOf e = x at hfields
    generalize hr' : recordOf e' = y at hfields
    cases hfields with
    | error =>
      obtain ⟨_, hc⟩ := latestCandidate_error keyField ht hr
      obtain ⟨_, hc'⟩ := latestCandidate_error keyField ht' hr'
      rw [hc, hc']
      exact .error
    | ok hagree =>
      rw [latestCandidate_ok ht hr, latestCandidate_ok ht' hr', ← h.occurredAt, ← h.eventId,
        requireText_eq hagree _ hkey]
      split
      · exact .bind_same _ fun key => .ok (.some ⟨rfl, rfl, rfl, hagree⟩)
      · exact .error
      · exact .error

omit [PyFloat F] in
/-- The later of two events, beside those that agree with them. -/
theorem keepLatest_alike {a b : Option (Latest F)} {c d : Latest F}
    (hab : Option.Rel (LatestAlike names) a b) (hcd : LatestAlike names c d) :
    Alike (LatestAlike names) (keepLatest a c) (keepLatest b d) := by
  have horder : ∀ {x y : Latest F}, LatestAlike names x y → x.order = y.order := fun h => by
    rw [Latest.order, Latest.order, h.occurredAt, h.eventId]
  cases hab with
  | none => exact .ok hcd
  | @some a b hab =>
    refine .ok ?_
    rw [horder hab, horder hcd]
    split_ifs
    · exact hcd
    · exact hab

variable {events events' : List (Row F)}

/-- **The latest events agree in public.** -/
theorem latestEventsByKey_alike (eventType keyField : Text) (names : List Text)
    (hp : (eventType, names) ∈ [(projectEventType, publicProjectFields),
      (creditBlockEventType, publicBlockFields), (retirementEventType, publicRetirementFields)])
    (hkey : keyField ∈ names) (h : List.Forall₂ PublicAlike events events') :
    Alike (List.Forall₂ (SameKey (LatestAlike names)))
      (latestEventsByKey events eventType keyField)
      (latestEventsByKey events' eventType keyField) := by
  unfold latestEventsByKey
  exact groupPass_alike (S := LatestAlike names) (T := LatestAlike names)
    (fun _ _ => latestCandidate_alike hp hkey) (fun _ _ _ _ => keepLatest_alike) h .nil

/-! ## Retirements and blocks -/

/-- Equal entries are entries under one key. -/
theorem sameKey_of_eq {β : Type} {p q : Option (Text × β)} (h : p = q) :
    Option.Rel (SameKey Eq) p q := by
  subst h
  cases p with
  | none => exact .none
  | some p => exact .some ⟨rfl, rfl⟩

/-- What a retirement event adds, out of its public fields. -/
def retirementOf (fields : Members (Doc F)) (eventId : Option Text) :
    Except PyError (Option (Text × Retirement F × Option Text)) := do
  let projectId ← requireText fields (lit "projectId") retirementEventType
  let retirementId ← requireText fields (lit "retirementId") retirementEventType
  let serial ← optionalText fields (lit "serial") retirementEventType
  let beneficiary ← requireText fields (lit "beneficiary") retirementEventType
  let purpose ← requireText fields (lit "purpose") retirementEventType
  let quantityKgCo2e ← requireQuantity fields (lit "quantityKgCo2e") retirementEventType
  let artifactSha256 ← requireText fields (lit "artifactSha256") retirementEventType
  let retiredAt ← optionalText fields (lit "retiredAt") retirementEventType
  return some (projectId, ⟨retirementId, serial, beneficiary, purpose, quantityKgCo2e,
    artifactSha256, retiredAt⟩, eventId)

/-- Records that agree in public are one retirement. -/
theorem retirementOf_eq (h : AgreeOn publicRetirementFields fields fields')
    (eventId : Option Text) : retirementOf fields eventId = retirementOf fields' eventId := by
  unfold retirementOf
  rw [requireText_eq h (lit "projectId") (by decide),
    requireText_eq h (lit "retirementId") (by decide),
    optionalText_eq h (lit "serial") (by decide),
    requireText_eq h (lit "beneficiary") (by decide),
    requireText_eq h (lit "purpose") (by decide),
    requireQuantity_eq h (lit "quantityKgCo2e") (by decide),
    requireText_eq h (lit "artifactSha256") (by decide),
    optionalText_eq h (lit "retiredAt") (by decide)]

/-- A retirement without a domain record is refused. -/
theorem retirementEntry_error {err : PyError} (ht : isOfType retirementEventType e = true)
    (h : recordOf e = .error err) : ∃ err', retirementEntry e = .error err' := by
  unfold retirementEntry
  rw [if_neg (by simp [ht])]
  cases hp : e.get "payload_json" with
  | text payloadJson =>
    have hdomain : (domainFields payloadJson : Except _ (Members (Doc F))) = .error err := by
      rw [recordOf, hp] at h
      exact h
    simp only [hdomain]
    exact ⟨_, rfl⟩
  | _ => exact ⟨_, rfl⟩

/-- What a retirement with a domain record adds. -/
theorem retirementEntry_ok (ht : isOfType retirementEventType e = true)
    (h : recordOf e = .ok fields) :
    retirementEntry e = retirementOf fields (match e.get "event_id" with
      | .text eventId => some eventId
      | _ => none) := by
  unfold retirementEntry
  rw [if_neg (by simp [ht])]
  cases hp : e.get "payload_json" with
  | text payloadJson =>
    have hdomain : domainFields payloadJson = .ok fields := by
      rw [recordOf, hp] at h
      exact h
    simp only [hdomain]
    rfl
  | _ =>
    rw [recordOf, hp] at h
    cases h

/-- Events that agree in public add one retirement. -/
theorem retirementEntry_alike (h : PublicAlike e e') :
    Alike (Option.Rel (SameKey Eq)) (retirementEntry e) (retirementEntry e') := by
  cases ht : isOfType retirementEventType e with
  | false =>
    rw [retirementEntry, retirementEntry, ← h.isOfType, if_pos ht, if_pos ht]
    exact .ok .none
  | true =>
    have ht' : isOfType retirementEventType e' = true := h.isOfType _ ▸ ht
    have hfields := h.fields (retirementEventType, publicRetirementFields) (by simp) ht
    generalize hr : recordOf e = x at hfields
    generalize hr' : recordOf e' = y at hfields
    cases hfields with
    | error =>
      obtain ⟨_, hc⟩ := retirementEntry_error ht hr
      obtain ⟨_, hc'⟩ := retirementEntry_error ht' hr'
      rw [hc, hc']
      exact .error
    | ok hagree =>
      rw [retirementEntry_ok ht hr, retirementEntry_ok ht' hr', ← h.eventId,
        retirementOf_eq hagree]
      exact (Alike.refl _).mono fun _ _ => sameKey_of_eq

/-- Dicts with equal entries are equal. -/
theorem forall₂_sameKey_eq {β : Type} {ms ms' : Members β}
    (h : List.Forall₂ (SameKey Eq) ms ms') : ms = ms' := by
  have heq : List.Forall₂ (· = ·) ms ms' := h.imp fun p q hpq => Prod.ext hpq.1 hpq.2
  rwa [List.forall₂_eq_eq_eq] at heq

/-- Lists that agree in public have the same retirements. -/
theorem retirementsByProject_alike (h : List.Forall₂ PublicAlike events events') :
    Alike Eq (retirementsByProject events) (retirementsByProject events') := by
  refine (groupPass_alike (S := Eq) (fun _ _ => retirementEntry_alike) (fun a b c d hab hcd => ?_) h
    .nil).mono fun _ _ => forall₂_sameKey_eq
  subst hcd
  cases hab with
  | none => exact .refl _
  | some hab =>
    subst hab
    exact .refl _

/-- Latest blocks that agree in public have the same totals. -/
theorem blockTotals_alike {blocks blocks' : Members (Latest F)}
    (h : List.Forall₂ (SameKey (LatestAlike publicBlockFields)) blocks blocks') :
    Alike Eq (blockTotals L blocks) (blockTotals L blocks') := by
  refine (groupPass_alike (R := SameKey (LatestAlike publicBlockFields)) (S := Eq) (T := Eq)
    (fun a b hab => ?_) (fun a b c d hab hcd => ?_) (sortBy_forall₂ (fun _ _ h => h.1) h)
    .nil).mono fun _ _ => forall₂_sameKey_eq
  · obtain ⟨hk, hid, -, hagree⟩ := hab
    have heq : creditBlockEntry L a = creditBlockEntry L b := by
      have hbuffer := hagree (lit "bufferPool") (by decide)
      unfold creditBlockEntry
      simp only []
      rw [requireText_eq hagree _ (by decide), requireText_eq hagree _ (by decide),
        requireText_eq hagree _ (by decide), requireQuantity_eq hagree _ (by decide), hk, hid, hbuffer]
    rw [heq]
    exact (Alike.refl _).mono fun _ _ => sameKey_of_eq
  · subst hcd
    cases hab with
    | none => exact .refl _
    | some hab =>
      subst hab
      exact .refl _

/-! ## The rows -/

omit [PyFloat F] in
/-- Projects that agree in public have one set of public fields. -/
theorem publicFields_eq {a b : Latest F} (h : LatestAlike publicProjectFields a b) :
    publicFields a.fields = publicFields b.fields :=
  List.map_congr_left fun name hn => Prod.ext rfl (h.fields name hn)

/-- Projects that agree in public have one row. -/
theorem registryRow_eq {a b : Text × Latest F} (h : SameKey (LatestAlike publicProjectFields) a b)
    (curatedAt : ℤ) (totals : Members (BlockTotals F)) (retirements : Members (Retirements F)) :
    registryRow curatedAt totals retirements a = registryRow curatedAt totals retirements b := by
  unfold registryRow
  rw [h.1, publicFields_eq h.2, h.2.eventId]

/-- **The registry is public.** Lists of events that agree in public at each
place give the same rows, or are both refused. -/
theorem buildPublicRegistryRows_alike (L : Library) (h : List.Forall₂ PublicAlike events events')
    (curatedAt : ℤ) :
    Alike Eq (buildPublicRegistryRows L events curatedAt)
      (buildPublicRegistryRows L events' curatedAt) := by
  have hprojects := latestEventsByKey_alike projectEventType (lit "projectId")
    publicProjectFields (by simp) (by decide) h
  have hblocks := latestEventsByKey_alike creditBlockEventType (lit "blockId")
    publicBlockFields (by simp) (by decide) h
  unfold buildPublicRegistryRows
  refine hprojects.bind fun projects projects' hprojects => hblocks.bind fun blocks blocks' hblocks =>
    (retirementsByProject_alike h).bind fun retirements _ hretirements =>
    (blockTotals_alike hblocks).bind fun totals _ htotals => ?_
  subst hretirements htotals
  refine .of_eq (congrArg collect ?_)
  have hrows := sortBy_forall₂ (fun _ _ hpq => hpq.1) hprojects
  have heq : List.Forall₂ (· = ·)
      ((sortBy Prod.fst projects).map (registryRow curatedAt totals retirements))
      ((sortBy Prod.fst projects').map (registryRow curatedAt totals retirements)) := by
    rw [List.forall₂_map_left_iff, List.forall₂_map_right_iff]
    exact hrows.imp fun _ _ hpq => registryRow_eq hpq curatedAt totals retirements
  rwa [List.forall₂_eq_eq_eq] at heq

/-! ## Two owners of a project -/

/-- The domain record of a project with an owner. -/
def ownedProject (owner : String) : Members (Doc Decimal) :=
  [(lit "landOwner", .str (lit owner)), (lit "projectId", .str (lit "P-1")),
    (lit "state", .str (lit "ISSUED"))]

/-- The registration of the project. -/
def projectEvent (owner : String) : Row Decimal :=
  [("event_id", .text (lit "e1")), ("event_type", .text projectEventType),
    ("occurred_at", .instant 0),
    ("payload_json", .text (lit "\x7b\"landOwner\":\"" ++ lit owner ++
      lit "\",\"projectId\":\"P-1\",\"state\":\"ISSUED\"\x7d"))]

/-- A survey, of a type the registry does not read. -/
def surveyEvent (surveyor : String) : Row Decimal :=
  [("event_id", .text (lit "e2")), ("event_type", .text (lit "bluecarbon.survey.v1")),
    ("occurred_at", .instant 0), ("payload_json", .text (lit surveyor))]

/-- Two registrations that differ in the owner agree in public. -/
theorem projectEvent_alike {a b : String}
    (ha : (recordOf (projectEvent a)).toOption = some (ownedProject a))
    (hb : (recordOf (projectEvent b)).toOption = some (ownedProject b)) :
    PublicAlike (projectEvent a) (projectEvent b) where
  eventId := rfl
  eventType := rfl
  occurredAt := rfl
  fields p hp ht := by
    simp only [List.mem_cons, List.not_mem_nil, or_false] at hp
    obtain rfl | rfl | rfl := hp
    · rw [toOption_eq_some.1 ha, toOption_eq_some.1 hb]
      refine .ok fun name hn => ?_
      have hne : name ≠ lit "landOwner" := by
        rintro rfl
        exact absurd hn (by decide)
      simp only [fieldOrNone, ownedProject, Members.get_cons, if_neg hne]
    all_goals exact absurd (Cell.text.inj (isOfType_eq_true.1 ht)) (by decide)

/-- Any two surveys agree in public. -/
theorem surveyEvent_alike (a b : String) : PublicAlike (surveyEvent a) (surveyEvent b) where
  eventId := rfl
  eventType := rfl
  occurredAt := rfl
  fields p hp ht := by
    simp only [List.mem_cons, List.not_mem_nil, or_false] at hp
    obtain rfl | rfl | rfl := hp
    all_goals exact absurd (Cell.text.inj (isOfType_eq_true.1 ht)) (by decide)

/-- The registry does not tell the owners, nor the surveyors, apart. -/
theorem buildPublicRegistryRows_alike_owners : ∃ rows,
    buildPublicRegistryRows Library.ascii [projectEvent "Ada", surveyEvent "Obi"] 0 = .ok rows ∧
      buildPublicRegistryRows Library.ascii [projectEvent "Bola", surveyEvent "Uche"] 0 =
        .ok rows := by
  have halike := buildPublicRegistryRows_alike Library.ascii
    (.cons (projectEvent_alike (a := "Ada") (b := "Bola") (by decide +kernel)
      (by decide +kernel))
      (.cons (surveyEvent_alike "Obi" "Uche") .nil)) 0
  have hok : (buildPublicRegistryRows Library.ascii
      [projectEvent "Ada", surveyEvent "Obi"] 0).toOption.isSome = true := by decide +kernel
  generalize hx : buildPublicRegistryRows Library.ascii
    [projectEvent "Ada", surveyEvent "Obi"] 0 = x at halike hok
  generalize buildPublicRegistryRows Library.ascii
    [projectEvent "Bola", surveyEvent "Uche"] 0 = y at halike
  cases halike with
  | ok h => exact ⟨_, rfl, congrArg Except.ok h.symm⟩
  | error => cases hok

end Bluecarbon

end Lakehouse
