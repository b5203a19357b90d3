import Lakehouse.Ingest.Decode
/-!
# Clearances

The four clearance levels, their labels, and the filter a row passes when
the reader's level meets the label it carries. Whatever is not a label is
withheld.
-/

namespace Lakehouse

/-- **Personnel clearances**, from the lowest to the highest. -/
inductive Clearance where
  | unclassified | restricted | confidential | secret
  deriving DecidableEq, Repr

namespace Clearance

/-- The value of the level. -/
def level : Clearance → ℕ
  | unclassified => 0
  | restricted => 1
  | confidential => 2
  | secret => 3

theorem level_injective : Function.Injective level := by
  intro c d h
  cases c <;> cases d <;> first | rfl | cases h

instance : LinearOrder Clearance := LinearOrder.lift' level level_injective

def label : Clearance → Text
  | unclassified => lit "UNCLASSIFIED"
  | restricted => lit "RESTRICTED"
  | confidential => lit "CONFIDENTIAL"
  | secret => lit "SECRET"

/-- Every level. -/
def all : List Clearance := [unclassified, restricted, confidential, secret]

theorem unclassified_le (c : Clearance) : unclassified ≤ c := by
  cases c <;> decide

variable (L : Library)

/-- **`Clearance.from_label`.** -/
def fromLabel (text : Text) : Except PyError Clearance :=
  if text = [] ∨ text ≠ text.strip then
    .error (.valueError (lit "clearance labels must be canonical non-empty text"))
  else match all.find? fun c => c.label = Ingest.upperAscii text with
    | some c => .ok c
    | none => .error (.valueError (lit "clearance label " ++ L.reprText text ++
        lit " is not one of [" ++ Text.join (lit ", ") (all.map fun c => L.reprText c.label) ++
        lit "]; access fails closed"))

variable {L}

/-- A level reads back from its label. -/
theorem fromLabel_label (c : Clearance) : fromLabel L c.label = .ok c := by
  cases c <;> rfl

/-- The label a row is normalized to is that of its level. -/
theorem clearanceLabel_eq (text : Text) :
    Ingest.clearanceLabel L text = label <$> fromLabel L text := by
  unfold Ingest.clearanceLabel fromLabel
  split_ifs with h hmem
  · rfl
  · obtain ⟨c, hc⟩ : ∃ c, all.find? (fun c => c.label = Ingest.upperAscii text) = some c := by
      refine Option.isSome_iff_exists.1 (List.find?_isSome.2 ?_)
      have hmem : Ingest.upperAscii text ∈ all.map label := hmem
      obtain ⟨c, hc, hl⟩ := List.mem_map.1 hmem
      exact ⟨c, hc, decide_eq_true hl⟩
    have hl := List.find?_some hc
    rw [hc, ← of_decide_eq_true hl]
    rfl
  · have hnone : all.find? (fun c => c.label = Ingest.upperAscii text) = none := by
      refine List.find?_eq_none.2 fun c hc hl => hmem ?_
      have hmem' : c.label ∈ all.map label := List.mem_map_of_mem hc
      rw [← of_decide_eq_true hl]
      exact hmem'
    rw [hnone]
    rfl

end Clearance

namespace Access

variable (L : Library)

/-- A clearance claim: a level, or its label. -/
inductive ClearanceClaim where
  | level (c : Clearance)
  | label (text : Text)
  deriving DecidableEq, Repr

/-- **`normalize_clearance`.** -/
def normalizeClearance : Option ClearanceClaim → Except PyError (Option Clearance)
  | none => .ok none
  | some (.level c) => .ok (some c)
  | some (.label text) =>
    match Clearance.fromLabel L text with
    | .ok c => .ok (some c)
    | .error e => .error (.accessDenied e.text)

/-- **`clearance_permits`.** -/
def clearancePermits (clearance : ClearanceClaim) (recordClassification : Text) : Bool :=
  let level : Except PyError Clearance := match clearance with
    | .level c => .ok c
    | .label text => Clearance.fromLabel L text
  match level, Clearance.fromLabel L recordClassification with
  | .ok level, .ok floor => floor ≤ level
  | _, _ => false

/-- **`filter_records_by_clearance`.** -/
def filterRecordsByClearance {F : Type} (records : List (Row F)) (clearance : ClearanceClaim)
    (labelColumn : String) : List (Row F) :=
  records.filter fun record =>
    match record.get labelColumn with
    | .text label => clearancePermits L clearance label
    | _ => false

variable {L}

/-- A reader at a level sees what is labelled at or below it. -/
theorem clearancePermits_label (c floor : Clearance) :
    clearancePermits L (.level c) floor.label = decide (floor ≤ c) := by
  rw [clearancePermits, Clearance.fromLabel_label]

end Access

end Lakehouse
