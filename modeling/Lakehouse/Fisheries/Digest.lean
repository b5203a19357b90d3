import Lakehouse.Common.IsoTime
import Lakehouse.Fisheries.Order
/-!
# What the coldchain digest commits to

The digest of a consignment is taken of its samples in one order, each
written so that it can be read back. So two digests are equal exactly where
the two consignments have the same samples, whatever order they came in.
-/

namespace Lakehouse

namespace Fisheries

open Ingest

variable {F : Type} [PyFloat F] {L : Library}

/-- The samples of a consignment, in the order their events came in. -/
def samplesOf (L : Library) (events : List (Row F)) (consignment : Text) : List (Sample F) :=
  (ofFamily .coldchain (sourcesOf L events consignment)).filterMap fun s => (sampleOf L s).toOption

/-! ## Reading a sample back -/

/-- What a sample is written as. -/
def sampleValue (L : Library) (sample : Sample F) : Doc F :=
  .obj [(lit "event_id", .str sample.eventId),
    (lit "occurred_at", .str (L.isoformat sample.occurredAt)),
    (lit "temperature_celsius", .num (.float sample.temperatureCelsius))]

/-- **A sample that can be read back**: its id is text, its instant is in the
calendar and its temperature is a number. -/
structure Sample.Readable (sample : Sample F) : Prop where
  eventId : sample.eventId.IsScalar
  occurredAt : IsoTime.InCalendar sample.occurredAt
  temperature : PyFloat.isFinite sample.temperatureCelsius = true

variable {s s' : Sample F} {samples samples' : List (Sample F)}

/-- A readable sample is a valid JSON value. -/
theorem Sample.Readable.valid [LawfulFloat F] (hiso : L.WritesIso) (h : s.Readable) :
    (sampleValue L s).Valid PyNum.Writable Text.IsScalar := by
  have htext : (L.isoformat s.occurredAt).IsScalar := by
    rw [hiso _ h.occurredAt]
    exact IsoTime.isScalar_format h.occurredAt
  have hkeys : (lit "event_id").IsScalar ∧ (lit "occurred_at").IsScalar ∧
      (lit "temperature_celsius").IsScalar := by decide
  refine ⟨?_, ⟨hkeys.1, h.eventId⟩, ⟨hkeys.2.1, htext⟩, ⟨hkeys.2.2, h.temperature, isScalar_repr h.temperature⟩,
    trivial⟩
  change List.Nodup [lit "event_id", lit "occurred_at", lit "temperature_celsius"]
  decide

/-- A sample is written with its keys in order. -/
theorem arranged_sampleValue (o : DumpsOptions) (s : Sample F) :
    Json.arranged (o.style (F := F)) id (sampleValue L s) = sampleValue L s := by
  have harrange : ∀ a b c : Doc F, (o.style (F := F)).arrange
      [(lit "event_id", a), (lit "occurred_at", b), (lit "temperature_celsius", c)] =
        [(lit "event_id", a), (lit "occurred_at", b), (lit "temperature_celsius", c)] := by
    intro a b c
    rw [Json.Style.arrange]
    cases hkey : (o.style (F := F)).sortKey with
    | none => rfl
    | some key =>
      have hid : key = id := by
        unfold DumpsOptions.style at hkey
        dsimp only at hkey
        split_ifs at hkey
        exact (Option.some.inj hkey).symm
      subst hid
      have hle : lit "event_id" ≤ lit "occurred_at" ∧ lit "event_id" ≤ lit "temperature_celsius" ∧
          lit "occurred_at" ≤ lit "temperature_celsius" := by decide
      refine sortBy_of_pairwise ?_
      simp [hle]
  rw [sampleValue, Json.arranged_obj, harrange]
  rfl

/-- **A readable sample is determined by its JSON value.** -/
theorem Sample.Readable.inj (hiso : L.WritesIso) (hs : s.Readable) (hs' : s'.Readable)
    (h : sampleValue L s = sampleValue L s') : s = s' := by
  obtain ⟨id, at_, temperature⟩ := s
  obtain ⟨id', at', temperature'⟩ := s'
  simp only [sampleValue, Json.obj.injEq, List.cons.injEq, Prod.mk.injEq, true_and, and_true,
    Json.str.injEq, Json.num.injEq, PyNum.float.injEq] at h
  obtain ⟨rfl, hat, rfl⟩ := h
  rw [hiso _ hs.occurredAt, hiso _ hs'.occurredAt] at hat
  rw [Sample.mk.injEq]
  exact ⟨rfl, IsoTime.format_inj hs.occurredAt hs'.occurredAt hat, rfl⟩

/-- Readable samples are determined by their JSON values. -/
theorem samples_inj (hiso : L.WritesIso) (hs : ∀ s ∈ samples, s.Readable)
    (hs' : ∀ s ∈ samples', s.Readable)
    (h : samples.map (sampleValue L) = samples'.map (sampleValue L)) : samples = samples' := by
  induction samples generalizing samples' with
  | nil => exact (List.map_eq_nil_iff.1 h.symm).symm
  | cons s samples ih =>
    cases samples' with
    | nil => cases h
    | cons s' samples' =>
      obtain ⟨hhead, htail⟩ := List.cons.inj h
      obtain ⟨hs, hrest⟩ := List.forall_mem_cons.1 hs
      obtain ⟨hs', hrest'⟩ := List.forall_mem_cons.1 hs'
      rw [hs.inj hiso hs' hhead, ih hrest hrest' htail]

/-! ## The digest -/

/-- Readable samples are a valid JSON array. -/
theorem valid_samples [LawfulFloat F] (hiso : L.WritesIso) (hs : ∀ s ∈ samples, s.Readable) :
    (Json.arr (samples.map (sampleValue L)) : Doc F).Valid PyNum.Writable Text.IsScalar := by
  induction samples with
  | nil => trivial
  | cons s samples ih =>
    obtain ⟨hs, hrest⟩ := List.forall_mem_cons.1 hs
    exact ⟨hs.valid hiso, ih hrest⟩

/-- A digest is that of the canonical text's bytes. -/
theorem coldchainDigest_eq_ok {digest : Text} (h : coldchainDigest L samples = .ok digest) :
    ∃ canonical b, dumps { sortKeys := true, compact := true }
        (.arr (samples.map (sampleValue L)) : Doc F) = .ok canonical ∧
      encodeUtf8 canonical = .ok b ∧ digest = L.sha256 b := by
  unfold coldchainDigest at h
  obtain ⟨canonical, hcanonical, h⟩ := bind_eq_ok.1 h
  obtain ⟨b, hb, h⟩ := bind_eq_ok.1 h
  cases h
  exact ⟨canonical, b, hcanonical, hb, rfl⟩

/-- **Samples that can be read back can be written.** -/
theorem exists_coldchainDigest [LawfulFloat F] (hiso : L.WritesIso)
    (hs : ∀ s ∈ samples, s.Readable) : ∃ digest, coldchainDigest L samples = .ok digest := by
  obtain ⟨canonical, hcanonical, hscalar⟩ :=
    exists_dumps { sortKeys := true, compact := true } (valid_samples hiso hs)
  obtain ⟨b, hb⟩ := exists_encodeUtf8 hscalar
  exact ⟨L.sha256 b, bind_eq_ok.2 ⟨canonical, hcanonical, bind_eq_ok.2 ⟨b, hb, rfl⟩⟩⟩

/-- **The samples are read off their digest.** -/
theorem coldchainDigest_inj [LawfulFloat F] (hsha : Function.Injective L.sha256)
    (hiso : L.WritesIso) (hs : ∀ s ∈ samples, s.Readable) (hs' : ∀ s ∈ samples', s.Readable)
    {digest : Text} (h : coldchainDigest L samples = .ok digest)
    (h' : coldchainDigest L samples' = .ok digest) : samples = samples' := by
  obtain ⟨canonical, b, hcanonical, hb, rfl⟩ := coldchainDigest_eq_ok h
  obtain ⟨canonical', b', hcanonical', hb', hsame⟩ := coldchainDigest_eq_ok h'
  obtain rfl := hsha hsame
  have htext : canonical = canonical' :=
    Except.ok.inj ((decodeUtf8_encodeUtf8 hb).symm.trans (decodeUtf8_encodeUtf8 hb'))
  subst htext
  have hfinite : ∀ n : PyNum F, n.Writable → n.Finite := by
    rintro (n | x) hn
    · trivial
    · exact hn.1
  have hreads := Json.loads_serialize (dumps_readBy_default _)
    ((valid_samples hiso hs).mono hfinite fun _ => id) hcanonical
  have hreads' := Json.loads_serialize (dumps_readBy_default _)
    ((valid_samples hiso hs').mono hfinite fun _ => id) hcanonical'
  have hvalue := Except.ok.inj (hreads.symm.trans hreads')
  have harranged : ∀ samples : List (Sample F), Json.arrangedItems
      (({ sortKeys := true, compact := true } : DumpsOptions).style (F := F)) id
        (samples.map (sampleValue L)) = samples.map (sampleValue L) := by
    intro samples
    rw [Json.arrangedItems_eq, List.map_map]
    exact List.map_congr_left fun s _ => arranged_sampleValue _ s
  rw [Json.arranged, Json.arranged, harranged, harranged] at hvalue
  exact samples_inj hiso hs hs' (Json.arr.inj hvalue)

/-! ## The samples of events -/

/-- **A row as a table holds it**: its id is text and its instant is in the
calendar. -/
structure Representable (e : Row F) : Prop where
  eventId : ∀ t, e.get "event_id" = .text t → t.IsScalar
  occurredAt : ∀ us, e.get "occurred_at" = .instant us → IsoTime.InCalendar us

variable {events events' : List (Row F)} {consignment consignment' : Text} {r r' : Row F}

/-- The instant of an event is its row's. -/
theorem occurredAt_of_sourceEvent {e : Row F} {k : Text} {s : SourceEvent F}
    (h : sourceEvent L e = .ok (k, s)) : e.get "occurred_at" = .instant s.occurredAt := by
  unfold sourceEvent at h
  split at h
  · cases h
  split at h
  · cases h
  split at h
  · rename_i us hus
    obtain ⟨payload, -, h⟩ := bind_eq_ok.1 h
    obtain ⟨consignment, -, h⟩ := bind_eq_ok.1 h
    cases h
    exact hus
  · cases h

/-- A number accepted is finite. -/
theorem finite_of_finiteNumber {value : Option (Doc F)} {field eventId : Text} {x : F}
    (h : finiteNumber L value field eventId = .ok x) : PyFloat.isFinite x = true := by
  unfold finiteNumber at h
  split at h
  · split_ifs at h with hfinite
    cases h
    exact hfinite
  · split_ifs at h with hfinite
    cases h
    exact hfinite
  · cases h

/-- The samples of representable rows are readable. -/
theorem readable_of_representable (hevents : ∀ e ∈ events, Representable e) {s : Sample F}
    (hs : s ∈ samplesOf L events consignment) : s.Readable := by
  obtain ⟨source, hsource, hsample⟩ := List.mem_filterMap.1 hs
  obtain ⟨e, he, hread⟩ := mem_sourcesOf.1 (List.mem_filter.1 hsource).1
  obtain ⟨temperature, htemperature, hsample⟩ := bind_eq_ok.1 (toOption_eq_some.1 hsample)
  obtain ⟨-, hsample⟩ := guard_eq_ok.1 hsample
  cases hsample
  exact ⟨(hevents e he).eventId _ (sourceEvent_eq_ok hread).2,
    (hevents e he).occurredAt _ (occurredAt_of_sourceEvent hread),
    finite_of_finiteNumber htemperature⟩

/-- **The samples of rows a table holds can be written**, so that where they
are assembled depends on the other fields alone. -/
theorem written_of_representable [LawfulFloat F] (hiso : L.WritesIso)
    (hevents : ∀ e ∈ events, Representable e) : Assemblable L events ↔ events ≠ [] ∧
      (∀ e ∈ events, Accepted L e) ∧
      ∀ k ∈ consignments L events, Recordable L (groupOf L (sourcesOf L events k)) := by
  refine ⟨fun h => ⟨h.nonempty, h.accepted, h.recordable⟩, fun ⟨hne, haccepted, hrecordable⟩ =>
    ⟨hne, haccepted, hrecordable, fun k _ => exists_coldchainDigest hiso fun s hs => ?_⟩⟩
  exact readable_of_representable hevents ((perm_sortBy _ _).mem_iff.1 hs)

/-- The digest a record carries. -/
theorem digest_of_record {t : ℤ} {g : Group F} (h : consignmentRecord L t consignment g = .ok r) :
    r.get "consignment_id" = .text consignment ∧
      ∃ digest, coldchainDigest L (sortedSamples g) = .ok digest ∧
        r.get "coldchain_digest_sha256" = .text digest := by
  unfold consignmentRecord at h
  split at h
  swap
  · cases h
  obtain ⟨species, -, h⟩ := bind_eq_ok.1 h
  obtain ⟨weight, -, h⟩ := bind_eq_ok.1 h
  obtain ⟨-, h⟩ := guard_eq_ok.1 h
  obtain ⟨reference, -, h⟩ := bind_eq_ok.1 h
  obtain ⟨custodyJson, -, h⟩ := bind_eq_ok.1 h
  obtain ⟨digest, hdigest, h⟩ := bind_eq_ok.1 h
  obtain ⟨sourceJson, -, h⟩ := bind_eq_ok.1 h
  cases h
  exact ⟨rfl, digest, hdigest, rfl⟩

/-- The record of a consignment carries the digest of its samples. -/
theorem digest_of_build {t : ℤ} {records : List (Row F)}
    (h : buildConsignmentRecords L t events = .ok records) (hr : r ∈ records)
    (hk : r.get "consignment_id" = .text consignment) :
    ∃ digest, coldchainDigest L (sortedSamples (groupOf L (sourcesOf L events consignment))) =
      .ok digest ∧ r.get "coldchain_digest_sha256" = .text digest := by
  have hcollect := (buildConsignmentRecords_eq_ok.1 h).2.2
  rw [collect_eq_ok, List.forall₂_map_left_iff] at hcollect
  obtain ⟨k, -, hrecord⟩ := exists_of_forall₂ hcollect hr
  obtain ⟨hid, hdigest⟩ := digest_of_record hrecord
  have hsame : (Cell.text k : Cell F) = .text consignment := hid.symm.trans hk
  cases hsame
  exact hdigest

/-- **The digest binds the samples**: two consignments have one digest
exactly where they have the same samples. -/
theorem digest_eq_iff [LawfulFloat F] (hsha : Function.Injective L.sha256) (hiso : L.WritesIso)
    (hids : (events.map fun e => e.get "event_id").Nodup)
    (hevents : ∀ e ∈ events, Representable e) (hevents' : ∀ e ∈ events', Representable e) {t t' : ℤ}
    {records records' : List (Row F)} (h : buildConsignmentRecords L t events = .ok records)
    (h' : buildConsignmentRecords L t' events' = .ok records') (hr : r ∈ records)
    (hr' : r' ∈ records') (hk : r.get "consignment_id" = .text consignment)
    (hk' : r'.get "consignment_id" = .text consignment') :
    r.get "coldchain_digest_sha256" = r'.get "coldchain_digest_sha256" ↔
      (samplesOf L events consignment).Perm (samplesOf L events' consignment') := by
  obtain ⟨digest, hdigest, hcell⟩ := digest_of_build h hr hk
  obtain ⟨digest', hdigest', hcell'⟩ := digest_of_build h' hr' hk'
  have hsorted : ∀ events consignment, (sortedSamples (groupOf L (sourcesOf (F := F) L events
      consignment))).Perm (samplesOf L events consignment) := fun _ _ => perm_sortBy _ _
  rw [hcell, hcell']
  constructor
  -- the canonical text of the samples can be read back
  · intro hsame
    have hread : ∀ {events : List (Row F)} {consignment : Text}, (∀ e ∈ events, Representable e) →
        ∀ s ∈ sortedSamples (groupOf L (sourcesOf L events consignment)), s.Readable :=
      fun hevents s hs => readable_of_representable hevents ((hsorted _ _).mem_iff.1 hs)
    cases hsame
    have hsamples := coldchainDigest_inj hsha hiso (hread hevents) (hread hevents') hdigest hdigest'
    exact (hsorted _ _).symm.trans (hsamples ▸ hsorted _ _)
  -- samples of distinct events have one order
  · intro hperm
    have hnodup : ((samplesOf L events consignment).map Sample.eventId).Nodup :=
      (sameEvents_groupOf (L := L) (List.Perm.refl _) (nodup_sourcesOf hids consignment)).samples
    have hsamples : sortedSamples (groupOf L (sourcesOf L events consignment)) =
        sortedSamples (groupOf L (sourcesOf L events' consignment')) :=
      sortedSamples_perm hperm hnodup
    rw [hsamples, hdigest'] at hdigest
    cases hdigest
    rfl

/-! ## Two samples -/

/-- A coldchain reading. -/
def readingEvent (id temperature : String) : Row Decimal :=
  consignmentEvent id "coldchain.reading.v1" (",\x22temperatureCelsius\x22:" ++ temperature)

/-- The sample rows are representable. -/
theorem representable_consignmentEvent {id : String} (hid : (lit id).IsScalar)
    (eventType fields : String) : Representable (consignmentEvent id eventType fields) where
  eventId t ht := by
    have hcell : (Cell.text (lit id) : Cell Decimal) = .text t := ht
    cases hcell
    exact hid
  occurredAt us hus := by
    have hcell : (Cell.instant 1786521600000000 : Cell Decimal) = .instant us := hus
    cases hcell
    decide

/-- Two readings of one catch, in both orders. -/
theorem digest_eq_swapped : ∃ records records' r r',
    buildConsignmentRecords Library.ascii 0
        [tunaCatch, readingEvent "e-2" "-4", readingEvent "e-3" "3.5"] = .ok records ∧
      buildConsignmentRecords Library.ascii 1
        [readingEvent "e-3" "3.5", readingEvent "e-2" "-4", tunaCatch] = .ok records' ∧
      r ∈ records ∧ r' ∈ records' ∧
      r.get "coldchain_digest_sha256" = r'.get "coldchain_digest_sha256" := by
  obtain ⟨records, h, hany⟩ := exists_of_any (x := buildConsignmentRecords Library.ascii 0
      [tunaCatch, readingEvent "e-2" "-4", readingEvent "e-3" "3.5"])
    (p := fun records => records.any fun r => r.get "consignment_id" = .text (lit "C-1"))
    (by decide +kernel)
  obtain ⟨records', h', hany'⟩ := exists_of_any (x := buildConsignmentRecords Library.ascii 1
      [readingEvent "e-3" "3.5", readingEvent "e-2" "-4", tunaCatch])
    (p := fun records => records.any fun r => r.get "consignment_id" = .text (lit "C-1"))
    (by decide +kernel)
  obtain ⟨r, hr, hk⟩ := List.any_eq_true.1 hany
  obtain ⟨r', hr', hk'⟩ := List.any_eq_true.1 hany'
  have hsha : Function.Injective Library.ascii.sha256 :=
    List.map_injective_iff.2 fun _ _ => UInt8.toNat_inj.1
  have hperm : [tunaCatch, readingEvent "e-2" "-4", readingEvent "e-3" "3.5"].Perm
      [readingEvent "e-3" "3.5", readingEvent "e-2" "-4", tunaCatch] := (List.reverse_perm _).symm
  have hevents : ∀ e ∈ [tunaCatch, readingEvent "e-2" "-4", readingEvent "e-3" "3.5"],
      Representable e := by
    intro e he
    simp only [List.mem_cons, List.not_mem_nil, or_false] at he
    obtain rfl | rfl | rfl := he <;> exact representable_consignmentEvent (by decide) _ _
  refine ⟨records, records', r, r', h, h', hr, hr', ?_⟩
  refine (digest_eq_iff hsha Library.ascii_writesIso (by decide +kernel) hevents
    (fun e he => hevents e (hperm.mem_iff.2 he)) h h' hr hr' (of_decide_eq_true hk)
    (of_decide_eq_true hk')).2 ?_
  exact (ofFamily_perm (sourcesOf_perm hperm _) _).filterMap _

end Fisheries

end Lakehouse
