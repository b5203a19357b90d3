import Lakehouse.Storage.Uri
import Mathlib.Data.List.Lex
/-!
# Segregated scopes

Each lakehouse scope owns a storage root, a set of classifications and a
set of topic namespaces. A `LakehouseRoots` can only be built from a root
whose last component is the scope's, and every table URI is checked
against the scope before it is handed out.
-/

namespace Lakehouse

/-- **The segregated scopes.** -/
inductive LakehouseScope where
  | platform | cvff | seafarer | fisheries | isr | mrv | bluecarbon
  deriving DecidableEq, Repr

namespace LakehouseScope

def value : LakehouseScope → Text
  | platform => lit "platform"
  | cvff => lit "cvff"
  | seafarer => lit "seafarer"
  | fisheries => lit "fisheries"
  | isr => lit "isr"
  | mrv => lit "mrv"
  | bluecarbon => lit "bluecarbon"

/-- Every scope, in the order the source declares them. -/
def all : List LakehouseScope := [platform, cvff, seafarer, fisheries, isr, mrv, bluecarbon]

/-- `SEGREGATED_SCOPES`. -/
def segregated : List LakehouseScope := [cvff, seafarer, fisheries, isr, mrv, bluecarbon]

/-- `SCOPE_TOPIC_PREFIXES`. -/
def topicPrefixes : LakehouseScope → List Text
  | platform => [lit "ports.", lit "ferries.", lit "vessels.", lit "stamps."]
  | cvff => [lit "cvff."]
  | seafarer => [lit "seafarer."]
  | fisheries => [lit "fisheries.", lit "coldchain.", lit "export."]
  | isr => [lit "maritime.isr.", lit "maritime.behaviour.", lit "maritime.outcome."]
  | mrv => [lit "mrv."]
  | bluecarbon => [lit "bluecarbon."]

/-- `SCOPE_CLASSIFICATIONS`. -/
def classifications : LakehouseScope → List Text
  | platform => [lit "public", lit "internal", lit "confidential", lit "restricted",
      lit "highly_restricted"]
  | cvff => [lit "fiduciary_segregated"]
  | seafarer => [lit "seafarer_confidential"]
  | fisheries => [lit "fisheries_operational"]
  | isr => [lit "isr_classified"]
  | mrv => [lit "mrv_confidential"]
  | bluecarbon => [lit "bluecarbon_internal"]

/-- `scope.root_component_pattern.match(component)`, for `^value($|[_-])`;
the `$` also matches before a final line break. -/
def matchesComponent (s : LakehouseScope) (component : Text) : Bool :=
  s.value.isPrefixOf component &&
    match component.drop s.value.length with
    | [] => true
    | c :: rest => c == 0x5F || c == 0x2D || (c == 0x0A && rest.isEmpty)

end LakehouseScope

namespace Segregation

open LakehouseScope

variable (L : Library)

/-- `scope_for_event_type` and `scope_for_topic`: the scope whose prefix
a name starts with. -/
def scopeForName (name : Text) : Option LakehouseScope :=
  all.find? fun s => s.topicPrefixes.any (·.isPrefixOf name)

def scopeForClassification (classification : Text) : Except PyError LakehouseScope :=
  match all.find? fun s => classification ∈ s.classifications with
  | some s => .ok s
  | none => .error (.boundaryViolation (lit "data_classification " ++ L.reprText classification ++
      lit " is not mapped to any lakehouse scope"))

/-- The five canonical classifications. -/
def canonicalClassifications : List Text :=
  [lit "FIDUCIARY_SEGREGATED", lit "CONFIDENTIAL", lit "RESTRICTED", lit "INTERNAL", lit "PUBLIC"]

/-- `CANONICAL_TO_PLATFORM_LABEL`. -/
def platformLabel (classification : Text) : Text :=
  if classification = lit "PUBLIC" then lit "public"
  else if classification = lit "INTERNAL" then lit "internal"
  else if classification = lit "CONFIDENTIAL" then lit "confidential"
  else lit "restricted"

/-- **`map_canonical_classification`.** -/
def mapCanonicalClassification (classification eventType : Text) : Except PyError Text :=
  if classification ∉ canonicalClassifications then
    .error (.boundaryViolation (lit "canonical classification " ++ L.reprText classification ++
      lit " is not in the platform vocabulary"))
  else if classification = lit "FIDUCIARY_SEGREGATED" then
    match scopeForName eventType with
    | some .cvff => .ok (lit "fiduciary_segregated")
    | some _ => .error (.boundaryViolation (lit "FIDUCIARY_SEGREGATED event type " ++
        L.reprText eventType ++ lit " is outside the cvff boundary"))
    | none => .error (.boundaryViolation (lit "eventType " ++ L.reprText eventType ++
        lit " is outside the governed event namespaces"))
  else
    match (scopeForName eventType).getD .platform with
    | .cvff => .error (.boundaryViolation (lit "cvff event type " ++ L.reprText eventType ++
        lit " must be classified FIDUCIARY_SEGREGATED"))
    | .seafarer => .ok (lit "seafarer_confidential")
    | .fisheries => .ok (lit "fisheries_operational")
    | .isr => .ok (lit "isr_classified")
    | .mrv => .ok (lit "mrv_confidential")
    | .bluecarbon => .ok (lit "bluecarbon_internal")
    | .platform => .ok (platformLabel classification)

variable {L} in
/-- **A label belongs to the scope of the event type it was mapped for**;
outside the governed namespaces, to the platform. -/
theorem scope_of_mapCanonicalClassification {classification eventType label : Text}
    (h : mapCanonicalClassification L classification eventType = .ok label) :
    scopeForClassification L label = .ok ((scopeForName eventType).getD .platform) := by
  unfold mapCanonicalClassification at h
  split_ifs at h
  · cases hs : scopeForName eventType with
    | none => rw [hs] at h; cases h
    | some s => cases s <;> rw [hs] at h <;> cases h; rfl
  · have hplatform : scopeForClassification L (platformLabel classification) = .ok .platform := by
      unfold platformLabel
      split_ifs <;> rfl
    cases hs : scopeForName eventType with
    | none =>
      rw [hs] at h
      cases h
      exact hplatform
    | some s =>
      cases s <;> rw [hs] at h <;> cases h
      · exact hplatform
      all_goals rfl

/-- `enforce_topic_scope`. -/
def enforceTopicScope (topic : Text) (scope : LakehouseScope) : Except PyError Unit :=
  match scopeForName topic with
  | none => .error (.boundaryViolation (lit "Kafka topic " ++ L.reprText topic ++
      lit " is outside the governed namespaces (" ++
      Text.join [0x2F] ((all.flatMap topicPrefixes).map (· ++ [0x2A])) ++ lit ")"))
  | some s =>
    if s = scope then .ok ()
    else .error (.boundaryViolation (scope.value ++ lit " writer cannot consume topic " ++
      L.reprText topic ++ lit "; it belongs to the " ++ s.value ++ lit " boundary"))

/-- `scopes_declared_by_uri`: the segregated scopes a component of the
path belongs to. -/
def scopesDeclaredByUri (tableUri : Text) : Except PyError (List LakehouseScope) := do
  let parsed ← Uri.urlsplit L tableUri
  let components := (Text.splitOn 0x2F parsed.path).filter (· ≠ [])
  return segregated.filter fun s => components.any s.matchesComponent

/-- The names of scopes, sorted, for a message. -/
def scopeNames (scopes : List LakehouseScope) : Text :=
  Text.join (lit ", ") ((scopes.map value).insertionSort (· ≤ ·))

/-- **`require_scope_table_uri`.** -/
def requireScopeTableUri (scope : LakehouseScope) (tableUri : Text) : Except PyError Unit := do
  let declared ← scopesDeclaredByUri L tableUri
  if scope = .platform then
    if declared ≠ [] then
      .error (.boundaryViolation (lit "platform writer cannot target " ++ L.reprText tableUri ++
        lit ": segregated root component present (" ++ scopeNames declared ++ lit ")"))
    else .ok ()
  else if declared ≠ [scope] then
    .error (.boundaryViolation (scope.value ++ lit " writer cannot target " ++
      L.reprText tableUri ++ lit ": URI must declare the " ++ scope.value ++
      lit "* root component and no other segregated scope root"))
  else .ok ()

/-- The last component of a root. -/
def terminalComponent (root : Text) : Text := (Text.rpartition 0x2F root).2.2

/-- `build_lakehouse_roots`, up to the roots themselves: the checked root,
without trailing slashes. -/
def checkScopeRoot (scope : LakehouseScope) (scopeRootUri : Text) : Except PyError Text :=
  if scopeRootUri = [] ∨ scopeRootUri ≠ scopeRootUri.strip then
    .error (.boundaryViolation (lit "scope root URI must be canonical non-empty text"))
  else
    let root := Text.rstripChar 0x2F scopeRootUri
    let terminalScopes := segregated.filter (·.matchesComponent (terminalComponent root))
    if scope = .platform then
      if terminalScopes ≠ [] then
        .error (.boundaryViolation
          (lit "platform scope root must not terminate in a segregated scope path component (" ++
            scopeNames terminalScopes ++
            lit "); refusing to initialize a platform writer against " ++
            L.reprText scopeRootUri))
      else .ok root
    else if terminalScopes ≠ [scope] then
      .error (.boundaryViolation (scope.value ++ lit " scope root must terminate in a " ++
        scope.value ++ lit "* path component and no other segregated scope component; " ++
        lit "refusing to initialize a " ++ scope.value ++ lit " writer against " ++
        L.reprText scopeRootUri))
    else .ok root

/-- The directory of a layer under a root. -/
def layerDirectory (scope : LakehouseScope) (root layer : Text) : Text :=
  root ++ 0x2F :: scope.value ++ 0x5F :: layer

/-- **A writer bound to one scope**: the root it was initialized with
passed the boundary check. -/
structure SegregatedDeltaWriter (L : Library) where
  scope : LakehouseScope
  scopeRootUri : Text
  root : Text
  checked : checkScopeRoot L scope scopeRootUri = .ok root

/-- `SegregatedDeltaWriter(scope, scope_root_uri)`. -/
def SegregatedDeltaWriter.mk? (scope : LakehouseScope) (scopeRootUri : Text) :
    Except PyError (SegregatedDeltaWriter L) :=
  match h : checkScopeRoot L scope scopeRootUri with
  | .ok root => .ok ⟨scope, scopeRootUri, root, h⟩
  | .error e => .error e

/-- `roots.for_layer(layer)`. -/
def forLayer (scope : LakehouseScope) (root layer : Text) : Except PyError Text :=
  if layer = lit "bronze" ∨ layer = lit "silver" ∨ layer = lit "gold" then
    .ok (layerDirectory scope root layer ++ lit "/events")
  else .error (.boundaryViolation (lit "unknown medallion layer " ++ L.reprText layer))

variable {L}

/-- **`writer.table_uri(layer)`.** -/
def SegregatedDeltaWriter.tableUri (w : SegregatedDeltaWriter L) (layer : Text) :
    Except PyError Text := do
  let uri ← forLayer L w.scope w.root layer
  requireScopeTableUri L w.scope uri
  return uri

variable (L)

/-- `NAMED_TABLE_PATTERN.fullmatch(table_name)`. -/
def isNamedTable (name : Text) : Bool :=
  match name with
  | [] => false
  | c :: rest => Uri.isLower c && rest.length ≤ 63 &&
      rest.all fun d => Uri.isLower d || isDigit d || d == 0x5F

/-- `scope_layer_table_uri`. -/
def scopeLayerTableUri (scope : LakehouseScope) (scopeRootUri layer tableName : Text) :
    Except PyError Text := do
  if isNamedTable tableName = false then
    .error (.boundaryViolation (lit "named table " ++ L.reprText tableName ++
      lit " is not a governed table name"))
  else
    let root ← checkScopeRoot L scope scopeRootUri
    let events ← forLayer L scope root layer
    let uri := (Text.rpartition 0x2F events).1 ++ 0x2F :: tableName
    requireScopeTableUri L scope uri
    return uri

end Segregation

end Lakehouse
