import Lakehouse.Bluecarbon.Projection
import Lakehouse.Common.Greatest
/-!
# A repeated event in the registry

An event delivered again is a further silver row. Projects and credit
blocks are folded to their latest event, so a repeat leaves them as they
are, unless it comes before an equal rival that has been the latest and
publishes something else (`Overtakes`). Retirements are listed one for
each row: a repeat of a retirement is a second retirement of its project.
-/

namespace Lakehouse

namespace Bluecarbon

open Ingest

variable {F : Type} [PyFloat F] {L : Library} {e u : Row F} {pre post : List (Row F)}

/-- **The row of an event delivered again**: another row with its columns. -/
def Repeats (e u : Row F) : Prop :=
  ∀ c ∈ ["event_id", "event_type", "occurred_at", "payload_json"], e.get c = u.get c

/-- A repeat is the same candidate. -/
theorem Repeats.latestCandidate (h : Repeats e u) (eventType keyField : Text) :
    latestCandidate eventType keyField e = latestCandidate eventType keyField u := by
  unfold Bluecarbon.latestCandidate isOfType
  rw [h "event_id" (by decide), h "event_type" (by decide), h "occurred_at" (by decide),
    h "payload_json" (by decide)]

/-- A repeat is the same retirement. -/
theorem Repeats.retirementEntry (h : Repeats e u) : retirementEntry e = retirementEntry u := by
  unfold Bluecarbon.retirementEntry isOfType
  rw [h "event_id" (by decide), h "event_type" (by decide), h "payload_json" (by decide)]

/-! ## The latest events -/

section Latest

variable {eventType keyField key : Text} {ms ms' : Members (Latest F)} {events : List (Row F)}

/-- The latest events of a content, by key. -/
abbrev candidates (eventType keyField : Text) (events : List (Row F)) (key : Text) :
    List (Latest F) :=
  entriesOf (latestCandidate eventType keyField) events key

/-- **The event kept under a key** is the first of the latest. -/
theorem latestEventsByKey_keeps (h : latestEventsByKey events eventType keyField = .ok ms)
    (key : Text) :
    Keeps Latest.order (candidates eventType keyField events key) (ms.get key) := by
  refine foldGroup_induct rfl (fun done b x d hP hd => ?_) (groupPass_get h key)
  have hnext : keepLatest b x = .ok (keepNext Latest.order b x) := by cases b <;> rfl
  cases hnext.symm.trans hd
  exact hP.concat x

/-- **An event takes a rival's place** among the latest of a type: the first
of the latest events of its key stands behind it, with its instant and its
id, and publishes something else. -/
def Overtakes {β : Type} (eventType keyField : Text) (publishes : Text → Latest F → β)
    (pre post : List (Row F)) (e : Row F) : Prop :=
  ∃ key c w, latestCandidate eventType keyField e = .ok (some (key, c)) ∧
    FirstGreatest Latest.order (candidates eventType keyField (pre ++ post) key) w ∧
    ((∀ v ∈ candidates eventType keyField pre key, v.order ≠ w.order) ∧ c.order = w.order) ∧
    publishes key c ≠ publishes key w

/-- The latest events of a content with a repeat. -/
theorem exists_latestEventsByKey_insert (hu : u ∈ pre ++ post) (hrep : Repeats e u)
    (h : latestEventsByKey (pre ++ post) eventType keyField = .ok ms) :
    ∃ ms', latestEventsByKey (pre ++ e :: post) eventType keyField = .ok ms' := by
  refine groupPass_isOk_insert (fun b c => ?_) hu (hrep.latestCandidate eventType keyField) h
  cases b <;> exact ⟨_, rfl⟩

/-- **What a repeat leaves under its key**: where no event before it is as
late as the latest and it is itself, its own record. -/
theorem get_insert {c : Latest F} (hu : u ∈ pre ++ post) (hrep : Repeats e u)
    (he : latestCandidate eventType keyField e = .ok (some (key, c)))
    (h : latestEventsByKey (pre ++ post) eventType keyField = .ok ms)
    (h' : latestEventsByKey (pre ++ e :: post) eventType keyField = .ok ms') :
    ∃ w, ms.get key = some w ∧
      FirstGreatest Latest.order (candidates eventType keyField (pre ++ post) key) w ∧
      (((∀ v ∈ candidates eventType keyField pre key, v.order ≠ w.order) ∧ c.order = w.order) ∧
          ms'.get key = some c ∨
        ¬((∀ v ∈ candidates eventType keyField pre key, v.order ≠ w.order) ∧ c.order = w.order) ∧
          ms'.get key = some w) := by
  have hmem := mem_entriesOf hu ((hrep.latestCandidate eventType keyField).symm.trans he)
  have hkeeps := latestEventsByKey_keeps h key
  obtain ⟨w, hw⟩ := Option.ne_none_iff_exists'.1 (mt hkeeps.eq_none.1 (List.ne_nil_of_mem hmem))
  have hfirst := hkeeps.eq_some.1 hw
  refine ⟨w, hw, hfirst, ?_⟩
  have hle := hfirst.le
  rw [(latestEventsByKey_keeps h' key).eq_some, (latestEventsByKey_keeps h' key).eq_some]
  unfold candidates at hfirst hle ⊢
  rw [entriesOf_append] at hfirst hle hmem
  rw [entriesOf_insert he]
  -- either nothing before it is as late as the latest, or it comes behind one that is
  by_cases hbefore : (∀ v ∈ entriesOf (latestCandidate eventType keyField) pre key,
      v.order ≠ w.order) ∧ c.order = w.order
  · refine Or.inl ⟨hbefore, _, _, rfl, fun v hv => ?_, fun v hv => ?_⟩
    · rw [hbefore.2]
      exact lt_of_le_of_ne (hle v (List.mem_append_left _ hv)) (hbefore.1 v hv)
    · rw [hbefore.2]
      exact hle v (List.mem_append_right _ hv)
  · refine Or.inr ⟨hbefore, hfirst.insert (hle c hmem) fun hc => ?_⟩
    by_contra hnone
    exact hbefore ⟨fun v hv hvw => hnone ⟨v, hv, hvw⟩, hc⟩

/-- A repeat leaves what is under other keys. -/
theorem get_insert_of_ne (hu : u ∈ pre ++ post) (hrep : Repeats e u)
    (hne : ∀ c, latestCandidate eventType keyField e ≠ .ok (some (key, c)))
    (h : latestEventsByKey (pre ++ post) eventType keyField = .ok ms)
    (h' : latestEventsByKey (pre ++ e :: post) eventType keyField = .ok ms') :
    ms'.get key = ms.get key := by
  obtain ⟨p, hp⟩ := groupPass_decodes h u hu
  have he := (hrep.latestCandidate eventType keyField).trans hp
  refine groupPass_get_congr h' h rfl (entriesOf_insert_of_ne he fun q hq hqk => hne q.2 ?_)
  rw [he, hq, ← hqk]

/-- **A repeat that takes no rival's place leaves what is published** of the
latest events. -/
theorem latestEventsByKey_insert {β : Type} {publishes : Text → Latest F → β}
    (hu : u ∈ pre ++ post) (hrep : Repeats e u)
    (hover : ¬Overtakes eventType keyField publishes pre post e)
    (h : latestEventsByKey (pre ++ post) eventType keyField = .ok ms)
    (h' : latestEventsByKey (pre ++ e :: post) eventType keyField = .ok ms') :
    (sortBy Prod.fst ms').map (fun p => (p.1, p.2.eventId, publishes p.1 p.2)) =
      (sortBy Prod.fst ms).map fun p => (p.1, p.2.eventId, publishes p.1 p.2) := by
  refine sortBy_fst_map_congr (g := fun key v => (v.eventId, publishes key v))
    (groupPass_distinct Members.distinct_nil h') (groupPass_distinct Members.distinct_nil h)
    fun key => ?_
  by_cases hk : ∃ c, latestCandidate eventType keyField e = .ok (some (key, c))
  · obtain ⟨c, he⟩ := hk
    obtain ⟨w, hw, hfirst, ⟨hbefore, hc⟩ | ⟨-, hsame⟩⟩ := get_insert hu hrep he h h'
    · have hid : c.eventId = w.eventId := congrArg (fun o => (ofLex o).2) hbefore.2
      have hpublishes : publishes key c = publishes key w := by
        by_contra hne
        exact hover ⟨key, c, w, he, hfirst, hbefore, hne⟩
      rw [hw, hc, Option.map_some, Option.map_some, hid, hpublishes]
    · rw [hw, hsame]
  · rw [get_insert_of_ne hu hrep (fun c hc => hk ⟨c, hc⟩) h h']

/-- A repeat leaves the keys. -/
theorem keys_insert (hu : u ∈ pre ++ post) (hrep : Repeats e u)
    (h : latestEventsByKey (pre ++ post) eventType keyField = .ok ms)
    (h' : latestEventsByKey (pre ++ e :: post) eventType keyField = .ok ms') :
    (sortBy Prod.fst ms').map Prod.fst = (sortBy Prod.fst ms).map Prod.fst := by
  have hover : ¬Overtakes eventType keyField (fun _ _ => ()) pre post e := by
    rintro ⟨_, _, _, _, _, _, hne⟩
    exact hne rfl
  have hkeys := congrArg (List.map Prod.fst) (latestEventsByKey_insert hu hrep hover h h')
  rwa [List.map_map, List.map_map] at hkeys

end Latest

/-! ## The retirements -/

section Retirements

variable {events : List (Row F)} {ms ms' : Members (Retirements F)} {key : Text}

/-- What a project has retired; nothing, where the dict has no entry. -/
def retiredOf (ms : Members (Retirements F)) (key : Text) : Retirements F :=
  (ms.get key).getD ⟨[], []⟩

/-- **The sources of a project's retirements** are its retirement events. -/
theorem retirementsByProject_sources (h : retirementsByProject events = .ok ms) (key : Text) :
    (retiredOf ms key).sources =
      (entriesOf retirementEntry events key).flatMap fun r => r.2.toList := by
  refine foldGroup_induct (P := fun done b => (b.getD ⟨[], []⟩).sources =
    done.flatMap fun r => r.2.toList) rfl (fun done b r d hP hd => ?_) (groupPass_get h key)
  cases hd
  rw [List.flatMap_append, ← hP]
  simp

/-- The retirements of a content with a repeat. -/
theorem exists_retirementsByProject_insert (hu : u ∈ pre ++ post) (hrep : Repeats e u)
    (h : retirementsByProject (pre ++ post) = .ok ms) :
    ∃ ms', retirementsByProject (pre ++ e :: post) = .ok ms' :=
  groupPass_isOk_insert (fun _ _ => ⟨_, rfl⟩) hu hrep.retirementEntry h

/-- Only a retirement adds to the retirements. -/
theorem retirementEntry_of_not (h : isOfType retirementEventType e = false) :
    retirementEntry e = .ok none := if_pos h

end Retirements

/-! ## What a project publishes -/

/-- **The columns a project's record publishes.** -/
def publishedColumns (sourceFields : Members (Doc F)) : Except PyError (Row F) := do
  let fields := publicFields sourceFields
  checkCentroids fields
  let text := fun name => optionalText fields name projectEventType
  let projectName ← text (lit "projectName")
  let state ← requireText fields (lit "state") projectEventType
  let ecosystem ← text (lit "ecosystem")
  let methodology ← text (lit "methodology")
  let countryCode ← text (lit "countryCode")
  let strataCentroidsJson ← strataCentroidsJson fields
  let externalRegistry ← text (lit "externalRegistry")
  let externalProjectId ← text (lit "externalProjectId")
  return [("project_name", Event.optional projectName), ("state", .text state),
    ("ecosystem", Event.optional ecosystem), ("methodology", Event.optional methodology),
    ("country_code", Event.optional countryCode),
    ("strata_centroids_json", Event.optional strataCentroidsJson),
    ("external_registry", Event.optional externalRegistry),
    ("external_project_id", Event.optional externalProjectId)]

/-- The row of a project, out of the columns its record publishes. -/
def rowOf (curatedAt : ℤ) (totals : Members (BlockTotals F)) (retirements : Members (Retirements F))
    (projectId eventId : Text) (published : Row F) : Except PyError (Row F) := do
  let blocks := (totals.get projectId).getD ⟨[], zero, []⟩
  let retired := (retirements.get projectId).getD ⟨[], []⟩
  let vintageTotalsJson ← dumps { compact := true }
    (.arr ((sortBy Prod.fst blocks.vintages).map fun v => v.2.doc v.1))
  let retirementsJson ← dumps { compact := true }
    (.arr ((sortBy Retirement.retirementId retired.items).map Retirement.doc))
  let sourceEventIdsJson ← dumps {} (.arr
    (((eventId :: blocks.sources ++ retired.sources).insertionSort (· ≤ ·)).map .str) : Doc F)
  return ("project_id", .text projectId) :: published ++
    [("vintage_totals_json", .text vintageTotalsJson),
      ("buffer_balance_kg_co2e", .float blocks.bufferBalance),
      ("retirements_json", .text retirementsJson),
      ("source_event_ids_json", .text sourceEventIdsJson), ("curated_at", .instant curatedAt)]

section Published

variable {curatedAt : ℤ} {totals : Members (BlockTotals F)} {retirements : Members (Retirements F)}

/-- **A row is a function of what its project publishes.** -/
theorem registryRow_eq_bind (project : Text × Latest F) :
    registryRow curatedAt totals retirements project = publishedColumns project.2.fields >>=
      rowOf curatedAt totals retirements project.1 project.2.eventId := by
  unfold registryRow publishedColumns rowOf
  simp only [bind_assoc, pure_bind]
  rfl

/-- The columns a row takes from its project's record. -/
theorem publishedColumns_of_registryRow {project : Text × Latest F} {r : Row F}
    (h : registryRow curatedAt totals retirements project = .ok r) :
    publishedColumns project.2.fields = .ok ((r.drop 1).take 8) := by
  rw [registryRow_eq_bind] at h
  obtain ⟨published, hpublished, h⟩ := bind_eq_ok.1 h
  obtain ⟨_, -, h⟩ := bind_eq_ok.1 h
  obtain ⟨_, -, h⟩ := bind_eq_ok.1 h
  obtain ⟨_, -, h⟩ := bind_eq_ok.1 h
  cases h
  have hlength : published.length = 8 := by
    unfold publishedColumns at hpublished
    obtain ⟨_, -, h⟩ := bind_eq_ok.1 hpublished
    obtain ⟨_, -, h⟩ := bind_eq_ok.1 h
    obtain ⟨_, -, h⟩ := bind_eq_ok.1 h
    obtain ⟨_, -, h⟩ := bind_eq_ok.1 h
    obtain ⟨_, -, h⟩ := bind_eq_ok.1 h
    obtain ⟨_, -, h⟩ := bind_eq_ok.1 h
    obtain ⟨_, -, h⟩ := bind_eq_ok.1 h
    obtain ⟨_, -, h⟩ := bind_eq_ok.1 h
    obtain ⟨_, -, h⟩ := bind_eq_ok.1 h
    cases h
    rfl
  rw [hpublished, List.cons_append, List.drop_succ_cons, List.drop_zero, ← hlength, List.take_left]

end Published

/-! ## The texts of a row -/

/-- A list of texts is written in two code points more than each of them. -/
theorem length_dumps_texts {ids : List Text} {t : Text} (hne : ids ≠ [])
    (h : dumps {} (.arr (ids.map .str) : Doc F) = .ok t) :
    t.length = (ids.map fun i => (Json.quote true i).length + 2).sum := by
  have hjoin : ∀ ps : List Text, ps ≠ [] →
      (Text.join [0x2C, 0x20] ps).length + 2 = (ps.map fun p => p.length + 2).sum := by
    intro ps
    induction ps with
    | nil => exact fun hps => absurd rfl hps
    | cons p ps ih =>
      intro _
      cases ps with
      | nil => simp [Text.join]
      | cons q qs =>
        have ih := ih (List.cons_ne_nil _ _)
        rw [Text.join, List.map_cons, List.sum_cons, ← ih]
        simp only [List.length_append, List.length_cons, List.length_nil]
        omega
  rw [dumps_texts] at h
  cases h
  cases ids with
  | nil => exact absurd rfl hne
  | cons i is =>
    have hlength := hjoin ((i :: is).map (Json.quote true)) (List.cons_ne_nil _ _)
    rw [List.map_map] at hlength
    refine Eq.trans ?_ hlength
    simp [Json.Style.enclose, DumpsOptions.style]

/-- `json.dumps(sorted(ids))` is as long in whatever order they come. -/
theorem length_dumps_sorted {ids : List Text} {t : Text} (hne : ids ≠ [])
    (h : dumps {} (.arr ((ids.insertionSort (· ≤ ·)).map .str) : Doc F) = .ok t) :
    t.length = (ids.map fun i => (Json.quote true i).length + 2).sum := by
  have hperm := List.perm_insertionSort (· ≤ ·) ids
  have hsorted : ids.insertionSort (· ≤ ·) ≠ [] := fun hnil => hne (by simpa [hnil] using hperm)
  rw [length_dumps_texts hsorted h, (hperm.map _).sum_nat]

/-- **A text more makes a longer text.** -/
theorem dumps_sorted_ne {ids ids' : List Text} {i t t' : Text} (hne : ids ≠ [])
    (hperm : ids'.Perm (i :: ids))
    (h : dumps {} (.arr ((ids.insertionSort (· ≤ ·)).map .str) : Doc F) = .ok t)
    (h' : dumps {} (.arr ((ids'.insertionSort (· ≤ ·)).map .str) : Doc F) = .ok t') : t ≠ t' := by
  rintro rfl
  have hne' : ids' ≠ [] := fun hnil => by simp [hnil] at hperm
  have hlength := length_dumps_sorted hne h
  rw [length_dumps_sorted hne' h', (hperm.map _).sum_nat, List.map_cons, List.sum_cons] at hlength
  omega

/-- The sources of a row. -/
def sourceIds (totals : Members (BlockTotals F)) (retirements : Members (Retirements F))
    (project : Text × Latest F) : List Text :=
  project.2.eventId :: ((totals.get project.1).getD ⟨[], zero, []⟩).sources ++
    (retiredOf retirements project.1).sources

/-- What a row says of its project, its blocks and its sources. -/
theorem registryRow_eq_ok {curatedAt : ℤ} {totals : Members (BlockTotals F)}
    {retirements : Members (Retirements F)} {project : Text × Latest F} {r : Row F}
    (h : registryRow curatedAt totals retirements project = .ok r) :
    ∃ vintageTotals sources,
      dumps { compact := true } (.arr ((sortBy Prod.fst
        ((totals.get project.1).getD ⟨[], zero, []⟩).vintages).map fun v => v.2.doc v.1)) =
          .ok vintageTotals ∧
      dumps {} (.arr (((sourceIds totals retirements project).insertionSort (· ≤ ·)).map .str) :
        Doc F) = .ok sources ∧
      r.get "project_id" = .text project.1 ∧ r.get "vintage_totals_json" = .text vintageTotals ∧
      r.get "buffer_balance_kg_co2e" =
        .float ((totals.get project.1).getD ⟨[], zero, []⟩).bufferBalance ∧
      r.get "source_event_ids_json" = .text sources := by
  obtain ⟨_, -, h⟩ := bind_eq_ok.1 h
  obtain ⟨_, -, h⟩ := bind_eq_ok.1 h
  obtain ⟨_, -, h⟩ := bind_eq_ok.1 h
  obtain ⟨_, -, h⟩ := bind_eq_ok.1 h
  obtain ⟨_, -, h⟩ := bind_eq_ok.1 h
  obtain ⟨_, -, h⟩ := bind_eq_ok.1 h
  obtain ⟨_, -, h⟩ := bind_eq_ok.1 h
  obtain ⟨_, -, h⟩ := bind_eq_ok.1 h
  obtain ⟨_, -, h⟩ := bind_eq_ok.1 h
  obtain ⟨vintageTotals, hvintages, h⟩ := bind_eq_ok.1 h
  obtain ⟨_, -, h⟩ := bind_eq_ok.1 h
  obtain ⟨sources, hsources, h⟩ := bind_eq_ok.1 h
  cases h
  exact ⟨vintageTotals, sources, hvintages, hsources, rfl, rfl, rfl, rfl⟩

/-- The source ids that a row writes. -/
theorem registryRow_sources {curatedAt : ℤ} {totals : Members (BlockTotals F)}
    {retirements : Members (Retirements F)} {project : Text × Latest F} {r : Row F}
    (h : registryRow curatedAt totals retirements project = .ok r) :
    ∃ t, r.get "source_event_ids_json" = .text t ∧
      dumps {} (.arr (((sourceIds totals retirements project).insertionSort (· ≤ ·)).map .str) :
        Doc F) = .ok t := by
  obtain ⟨_, t, -, ht, -, -, -, hget⟩ := registryRow_eq_ok h
  exact ⟨t, hget, ht⟩

/-! ## The rows -/

/-- A retirement's source is its event id. -/
theorem retirementEntry_source {p : Text × Retirement F × Option Text} {eventId : Text}
    (h : retirementEntry e = .ok (some p)) (hid : e.get "event_id" = .text eventId) :
    p.2.2 = some eventId := by
  unfold retirementEntry at h
  rw [hid] at h
  split_ifs at h with hother
  · cases h
  split at h
  · obtain ⟨_, -, h⟩ := bind_eq_ok.1 h
    obtain ⟨_, -, h⟩ := bind_eq_ok.1 h
    obtain ⟨_, -, h⟩ := bind_eq_ok.1 h
    obtain ⟨_, -, h⟩ := bind_eq_ok.1 h
    obtain ⟨_, -, h⟩ := bind_eq_ok.1 h
    obtain ⟨_, -, h⟩ := bind_eq_ok.1 h
    obtain ⟨_, -, h⟩ := bind_eq_ok.1 h
    obtain ⟨_, -, h⟩ := bind_eq_ok.1 h
    obtain ⟨_, -, h⟩ := bind_eq_ok.1 h
    cases h
    rfl
  · cases h

/-- **A retirement of a project the content registers.** -/
def RetiresListed (events : List (Row F)) (e : Row F) : Prop :=
  ∃ projectId r, retirementEntry e = .ok (some (projectId, r)) ∧
    candidates projectEventType (lit "projectId") events projectId ≠ []

/-- What decodes to a retirement is of its type. -/
theorem retirementEntry_isOfType {p : Text × Retirement F × Option Text}
    (h : retirementEntry e = .ok (some p)) : isOfType retirementEventType e = true := by
  by_contra hno
  rw [retirementEntry_of_not (by simpa using hno)] at h
  cases h

/-- **An event takes the place of a project's latest**, with other columns. -/
abbrev OvertakesProject (pre post : List (Row F)) (e : Row F) : Prop :=
  Overtakes projectEventType (lit "projectId") (fun _ v => publishedColumns v.fields) pre post e

/-- **An event takes the place of a credit block's latest**, and is another
block. -/
abbrev OvertakesBlock (L : Library) (pre post : List (Row F)) (e : Row F) : Prop :=
  Overtakes creditBlockEventType (lit "blockId") (fun key v => creditBlockEntry L (key, v))
    pre post e

/-- An event of another type takes no rival's place. -/
theorem not_overtakes_of_ne {β : Type} {eventType eventType' keyField : Text}
    {publishes : Text → Latest F → β} (hne : eventType ≠ eventType')
    (h : isOfType eventType' e = true) : ¬Overtakes eventType keyField publishes pre post e := by
  rintro ⟨key, c, w, hc, -⟩
  rw [latestCandidate, if_pos (isOfType_of_ne hne.symm h)] at hc
  cases hc

/-- What decodes to a candidate is of its type. -/
theorem isOfType_of_latestCandidate {eventType keyField : Text} {p : Text × Latest F}
    (h : latestCandidate eventType keyField e = .ok (some p)) : isOfType eventType e = true := by
  by_contra hno
  rw [latestCandidate, if_pos (by simpa using hno)] at h
  cases h

section Repeat

variable {curatedAt : ℤ} {projects projects' blocks : Members (Latest F)}
  {totals : Members (BlockTotals F)} {retirements : Members (Retirements F)}

/-- **What a repeat leaves to differ**: the projects and the retirements. -/
theorem buildPublicRegistryRows_repeat (hu : u ∈ pre ++ post) (hrep : Repeats e u)
    (hover : ¬OvertakesBlock L pre post e)
    (hprojects' : latestEventsByKey (pre ++ e :: post) projectEventType (lit "projectId") =
      .ok projects')
    (hblocks : latestEventsByKey (pre ++ post) creditBlockEventType (lit "blockId") = .ok blocks)
    (htotals : blockTotals L blocks = .ok totals) :
    buildPublicRegistryRows L (pre ++ e :: post) curatedAt = (do
      let retirements ← retirementsByProject (pre ++ e :: post)
      collect ((sortBy Prod.fst projects').map (registryRow curatedAt totals retirements))) := by
  obtain ⟨blocks', hblocks'⟩ := exists_latestEventsByKey_insert hu hrep hblocks
  have htotals' : blockTotals L blocks' = .ok totals := by
    have hentries : ∀ blocks : Members (Latest F), blockTotals L blocks =
        groupPass (fun p : Text × Text × _ => p.2.2) addCreditBlock []
          ((sortBy Prod.fst blocks).map fun p =>
            (p.1, p.2.eventId, creditBlockEntry L (p.1, p.2))) := by
      intro blocks
      rw [groupPass_map]
      rfl
    rw [hentries, latestEventsByKey_insert hu hrep hover hblocks hblocks', ← hentries, htotals]
  rw [buildPublicRegistryRows, hprojects', ok_bind, hblocks', ok_bind]
  simp only [htotals', ok_bind]

/-- The rows where no project's latest was overtaken. -/
theorem rows_insert (hu : u ∈ pre ++ post) (hrep : Repeats e u)
    (hover : ¬OvertakesProject pre post e)
    (hprojects : latestEventsByKey (pre ++ post) projectEventType (lit "projectId") = .ok projects)
    (hprojects' : latestEventsByKey (pre ++ e :: post) projectEventType (lit "projectId") =
      .ok projects') :
    (sortBy Prod.fst projects').map (registryRow curatedAt totals retirements) =
      (sortBy Prod.fst projects).map (registryRow curatedAt totals retirements) := by
  have hrows : ∀ projects : Members (Latest F),
      (sortBy Prod.fst projects).map (registryRow curatedAt totals retirements) =
        ((sortBy Prod.fst projects).map fun p =>
            (p.1, p.2.eventId, publishedColumns p.2.fields)).map
          fun p => p.2.2 >>= rowOf curatedAt totals retirements p.1 p.2.1 := by
    intro projects
    rw [List.map_map]
    exact List.map_congr_left fun p _ => registryRow_eq_bind p
  rw [hrows, hrows, latestEventsByKey_insert hu hrep hover hprojects hprojects']

/-- **A project overtaken has another row.** -/
theorem rows_ne_of_overtakes {rows : List (Row F)} (hu : u ∈ pre ++ post) (hrep : Repeats e u)
    (hover : OvertakesProject pre post e)
    (hprojects : latestEventsByKey (pre ++ post) projectEventType (lit "projectId") = .ok projects)
    (hprojects' : latestEventsByKey (pre ++ e :: post) projectEventType (lit "projectId") =
      .ok projects')
    (h : collect ((sortBy Prod.fst projects).map (registryRow curatedAt totals retirements)) =
      .ok rows) :
    collect ((sortBy Prod.fst projects').map (registryRow curatedAt totals retirements)) ≠
      .ok rows := by
  intro h'
  obtain ⟨key, c, w, hc, hfirst, hbefore, hne⟩ := hover
  obtain ⟨w', hw, hfirst', ⟨-, hc'⟩ | ⟨hnot, -⟩⟩ := get_insert hu hrep hc hprojects hprojects'
  swap
  · rw [← hfirst.unique hfirst'] at hnot
    exact hnot hbefore
  obtain rfl := hfirst.unique hfirst'
  -- the rows are those of the keys, which are the same
  have hrows : ∀ {projects : Members (Latest F)}, projects.Distinct →
      (sortBy Prod.fst projects).map (registryRow curatedAt totals retirements) =
        ((sortBy Prod.fst projects).map Prod.fst).map fun key =>
          (projects.get key).elim (.ok []) fun v =>
            registryRow curatedAt totals retirements (key, v) := by
    intro projects hdistinct
    rw [List.map_map]
    refine List.map_congr_left fun p hp => ?_
    rw [Function.comp_apply, (Members.get_eq_some hdistinct).2 (mem_sortBy.1 hp)]
    rfl
  rw [hrows (groupPass_distinct Members.distinct_nil hprojects)] at h
  rw [hrows (groupPass_distinct Members.distinct_nil hprojects'),
    keys_insert hu hrep hprojects hprojects'] at h'
  obtain ⟨hrow, r, hr⟩ := collect_map_inj h' h (List.mem_map_of_mem
    (mem_sortBy.2 (Members.mem_of_get hw)))
  rw [hc', hw] at hrow
  rw [hw] at hr
  exact hne ((publishedColumns_of_registryRow (hrow.trans hr)).trans
    (publishedColumns_of_registryRow hr).symm)

/-- Where no listed project is retired, the rows see the retirements they
saw. -/
theorem rows_unlisted {retirements' : Members (Retirements F)} (hu : u ∈ pre ++ post)
    (hrep : Repeats e u) (hlisted : ¬RetiresListed (pre ++ post) e)
    (hprojects : latestEventsByKey (pre ++ post) projectEventType (lit "projectId") = .ok projects)
    (hprojects' : latestEventsByKey (pre ++ e :: post) projectEventType (lit "projectId") =
      .ok projects')
    (hretirements : retirementsByProject (pre ++ post) = .ok retirements)
    (hretirements' : retirementsByProject (pre ++ e :: post) = .ok retirements') :
    (sortBy Prod.fst projects').map (registryRow curatedAt totals retirements') =
      (sortBy Prod.fst projects').map (registryRow curatedAt totals retirements) := by
  obtain ⟨p, hp⟩ := groupPass_decodes hretirements u hu
  have he := hrep.retirementEntry.trans hp
  refine List.map_congr_left fun project hproject => ?_
  have hmem : project.1 ∈ (sortBy Prod.fst projects).map Prod.fst := by
    rw [← keys_insert hu hrep hprojects hprojects']
    exact List.mem_map_of_mem hproject
  obtain ⟨q, hq, hqk⟩ := List.mem_map.1 hmem
  have hsome := (Members.get_eq_some (groupPass_distinct Members.distinct_nil hprojects)).2
    (mem_sortBy.1 hq)
  have hget : retirements'.get project.1 = retirements.get project.1 := by
    refine groupPass_get_congr hretirements' hretirements rfl
      (entriesOf_insert_of_ne he fun r hr hrk => hlisted ⟨r.1, r.2, by rw [he, hr], ?_⟩)
    rw [hrk, ← hqk]
    exact List.ne_nil_of_mem ((latestEventsByKey_keeps hprojects q.1).eq_some.1 hsome).mem
  unfold registryRow
  simp only [hget]

/-- **A listed project retired has another row**: it lists one source more. -/
theorem rows_ne_of_retires {retirements' : Members (Retirements F)} {rows : List (Row F)}
    {projectId eventId : Text} {r : Retirement F × Option Text}
    (hr : retirementEntry e = .ok (some (projectId, r))) (hid : e.get "event_id" = .text eventId)
    (hlisted : candidates projectEventType (lit "projectId") (pre ++ post) projectId ≠ [])
    (hprojects : latestEventsByKey (pre ++ post) projectEventType (lit "projectId") = .ok projects)
    (hretirements : retirementsByProject (pre ++ post) = .ok retirements)
    (hretirements' : retirementsByProject (pre ++ e :: post) = .ok retirements')
    (h : collect ((sortBy Prod.fst projects).map (registryRow curatedAt totals retirements)) =
      .ok rows) :
    collect ((sortBy Prod.fst projects).map (registryRow curatedAt totals retirements')) ≠
      .ok rows := by
  intro h'
  obtain ⟨v, hv⟩ := Option.ne_none_iff_exists'.1
    (mt (latestEventsByKey_keeps hprojects projectId).eq_none.1 hlisted)
  obtain ⟨hrow, row, hrow'⟩ := collect_map_inj h' h (mem_sortBy.2 (Members.mem_of_get hv))
  obtain ⟨t', ht', hdumps'⟩ := registryRow_sources (hrow.trans hrow')
  obtain ⟨t, ht, hdumps⟩ := registryRow_sources hrow'
  have hsources := retirementsByProject_sources hretirements projectId
  have hsources' := retirementsByProject_sources hretirements' projectId
  rw [entriesOf_append, List.flatMap_append] at hsources
  rw [entriesOf_insert hr, List.flatMap_append, List.flatMap_cons,
    retirementEntry_source hr hid] at hsources'
  refine dumps_sorted_ne (i := eventId) (List.cons_ne_nil _ _) ?_ hdumps hdumps'
    (Cell.text.inj (ht.symm.trans ht'))
  unfold sourceIds
  simp only
  rw [hsources, hsources']
  have hmiddle : ∀ before after : List Text,
      (before ++ eventId :: after).Perm (eventId :: (before ++ after)) :=
    fun _ _ => List.perm_middle
  simpa [List.append_assoc] using
    hmiddle (v.eventId :: ((totals.get projectId).getD ⟨[], zero, []⟩).sources ++
      (entriesOf retirementEntry pre projectId).flatMap fun r => r.2.toList)
      ((entriesOf retirementEntry post projectId).flatMap fun r => r.2.toList)

end Repeat

/-- **Delivering an event again changes the registry** where it is a
retirement of a listed project, or takes the place of a project's latest;
and only there, as long as it does not take the place of a block's. -/
theorem buildPublicRegistryRows_insert {curatedAt : ℤ} {rows : List (Row F)}
    (hu : u ∈ pre ++ post) (hrep : Repeats e u) (hid : ∃ eventId, e.get "event_id" = .text eventId)
    (h : buildPublicRegistryRows L (pre ++ post) curatedAt = .ok rows) :
    (RetiresListed (pre ++ post) e ∨ OvertakesProject pre post e →
      buildPublicRegistryRows L (pre ++ e :: post) curatedAt ≠ .ok rows) ∧
    (¬RetiresListed (pre ++ post) e → ¬OvertakesProject pre post e → ¬OvertakesBlock L pre post e →
      buildPublicRegistryRows L (pre ++ e :: post) curatedAt = .ok rows) := by
  obtain ⟨projects, hprojects, h⟩ := bind_eq_ok.1 h
  obtain ⟨blocks, hblocks, h⟩ := bind_eq_ok.1 h
  obtain ⟨retirements, hretirements, h⟩ := bind_eq_ok.1 h
  obtain ⟨totals, htotals, h⟩ := bind_eq_ok.1 h
  obtain ⟨projects', hprojects'⟩ := exists_latestEventsByKey_insert hu hrep hprojects
  obtain ⟨retirements', hretirements'⟩ := exists_retirementsByProject_insert hu hrep hretirements
  constructor
  -- a retirement overtakes nothing, and a project retires nothing
  · rintro (⟨projectId, r, hr, hlisted⟩ | hover) h'
    · have hretires := retirementEntry_isOfType hr
      rw [buildPublicRegistryRows_repeat hu hrep (not_overtakes_of_ne (by decide) hretires)
        hprojects' hblocks htotals, hretirements', ok_bind,
        rows_insert hu hrep (not_overtakes_of_ne (by decide) hretires) hprojects hprojects'] at h'
      obtain ⟨eventId, hid⟩ := hid
      exact rows_ne_of_retires hr hid hlisted hprojects hretirements hretirements' h h'
    · have hproject : isOfType projectEventType e = true := by
        obtain ⟨_, _, _, hc, -⟩ := hover
        exact isOfType_of_latestCandidate hc
      have hunlisted : ¬RetiresListed (pre ++ post) e := by
        rintro ⟨_, _, hr, -⟩
        rw [retirementEntry_of_not (isOfType_of_ne (by decide) hproject)] at hr
        cases hr
      rw [buildPublicRegistryRows_repeat hu hrep (not_overtakes_of_ne (by decide) hproject)
        hprojects' hblocks htotals, hretirements', ok_bind, rows_unlisted hu hrep hunlisted
        hprojects hprojects' hretirements hretirements'] at h'
      exact rows_ne_of_overtakes hu hrep hover hprojects hprojects' h h'
  · intro hlisted hover hblock
    rw [buildPublicRegistryRows_repeat hu hrep hblock hprojects' hblocks htotals, hretirements',
      ok_bind, rows_unlisted hu hrep hlisted hprojects hprojects' hretirements hretirements',
      rows_insert hu hrep hover hprojects hprojects', h]

/-! ### A project and a retirement -/

/-- The rows of the registry after some registrations. -/
def registryAfter (events : List (Row Decimal)) : Except PyError (List (Row Decimal)) :=
  buildPublicRegistryRows Library.ascii events 0

/-- A registration delivered again changes nothing. -/
theorem buildPublicRegistryRows_again : ∃ rows, registryAfter [projectEvent "Ada"] = .ok rows ∧
    registryAfter [projectEvent "Ada", projectEvent "Ada"] = .ok rows := by
  have hok : (registryAfter [projectEvent "Ada"]).toOption.isSome = true := by decide +kernel
  obtain ⟨rows, hrows⟩ := Option.isSome_iff_exists.1 hok
  have hrows := toOption_eq_some.1 hrows
  have hproject : isOfType projectEventType (projectEvent "Ada") = true := rfl
  have hblock : ¬OvertakesBlock Library.ascii [projectEvent "Ada"] [] (projectEvent "Ada") :=
    not_overtakes_of_ne (by decide) hproject
  refine ⟨rows, hrows, (buildPublicRegistryRows_insert (e := projectEvent "Ada")
    (u := projectEvent "Ada") (L := Library.ascii)
    (List.mem_append_left [] (List.mem_singleton_self _)) (fun _ _ => rfl) ⟨_, rfl⟩ hrows).2
    ?_ ?_ hblock⟩
  · rintro ⟨projectId, r, hr, -⟩
    have hnone : retirementEntry (projectEvent "Ada") = .ok none :=
      retirementEntry_of_not (by decide)
    rw [hnone] at hr
    cases hr
  · rintro ⟨_, c, w, -, hw, ⟨hpre, -⟩, -⟩
    rw [List.append_nil] at hw
    exact hpre w hw.mem rfl

/-- A retirement of the project. -/
def retirementOfProject : Row Decimal :=
  [("event_id", .text (lit "e3")), ("event_type", .text retirementEventType),
    ("occurred_at", .instant 0),
    ("payload_json", .text (lit "\x7b\"artifactSha256\":\"c0\",\"beneficiary\":\"Ada\"," ++
      lit "\"projectId\":\"P-1\",\"purpose\":\"offset\",\"quantityKgCo2e\":1," ++
      lit "\"retirementId\":\"R-1\"\x7d"))]

/-- A retirement delivered again is listed again. -/
theorem buildPublicRegistryRows_insert_not_always :
    ¬∀ (L : Library) (pre post rows : List (Row Decimal)) (e u : Row Decimal) (curatedAt : ℤ),
      u ∈ pre ++ post → Repeats e u → (∃ eventId, e.get "event_id" = .text eventId) →
        buildPublicRegistryRows L (pre ++ post) curatedAt = .ok rows →
          buildPublicRegistryRows L (pre ++ e :: post) curatedAt = .ok rows := by
  intro h
  have hsources : ((registryAfter [projectEvent "Ada", retirementOfProject]).toOption.map
        fun rows => rows.map fun r => (r.get "source_event_ids_json").str) ≠
      (registryAfter [projectEvent "Ada", retirementOfProject, retirementOfProject]).toOption.map
        fun rows => rows.map fun r => (r.get "source_event_ids_json").str := by
    decide +kernel
  have hok : (registryAfter [projectEvent "Ada", retirementOfProject]).toOption.isSome = true := by
    decide +kernel
  obtain ⟨rows, hrows⟩ := Option.isSome_iff_exists.1 hok
  have hrows := toOption_eq_some.1 hrows
  have hagain : registryAfter [projectEvent "Ada", retirementOfProject, retirementOfProject] =
      .ok rows :=
    h Library.ascii [projectEvent "Ada", retirementOfProject] [] rows _ retirementOfProject 0
      (by simp) (fun _ _ => rfl) ⟨_, rfl⟩ hrows
  rw [hrows, hagain] at hsources
  exact hsources rfl

end Bluecarbon

end Lakehouse
