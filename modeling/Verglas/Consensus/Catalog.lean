import Mathlib.Data.String.Basic
import Verglas.Lib.OrderedMap

/-!
# Catalog transactions

This file embeds the authoritative catalog of a warehouse group: namespaces, table pointers and
hosted-domain records, and the batch of requirements and actions that changes them atomically.
A batch either changes the cloned state completely or is refused as a whole.
-/

namespace Verglas.Consensus

/-- A durable catalog collection, in the order in which collections are stored. -/
inductive CatalogEntity where
  | server
  | project
  | warehouse
  | catalogNamespace
  | table
  | view
  | genericTable
  | role
  | roleAssignment
  | tag
  | idempotency
  | task
  | secretReference
  deriving DecidableEq, Repr

namespace CatalogEntity

instance : LinearOrder CatalogEntity :=
  LinearOrder.lift' CatalogEntity.ctorIdx (fun left right equal => by
    cases left <;> cases right <;> simp_all [CatalogEntity.ctorIdx])

end CatalogEntity

/-- Hosted-domain records grouped by their collection. -/
structure CatalogRecords where
  collections : OrderedMap CatalogEntity (OrderedMap String String) := ∅
  deriving DecidableEq

namespace CatalogRecords

/-- The document of a record. -/
def get (records : CatalogRecords) (entity : CatalogEntity) (id : String) : Option String :=
  records.collections.get entity >>= fun documents => documents.get id

/-- Set the document of a record. -/
def put (records : CatalogRecords) (entity : CatalogEntity) (id document : String) :
    CatalogRecords :=
  let documents := (records.collections.get entity).getD ∅
  ⟨records.collections.insert entity (documents.insert id document)⟩

/-- Remove a document while retaining no empty collection. -/
def remove (records : CatalogRecords) (entity : CatalogEntity) (id : String) :
    Option String × CatalogRecords :=
  match records.collections.get entity with
  | none => (none, records)
  | some documents =>
    let remaining := documents.remove id
    (documents.get id,
      if remaining.entries.isEmpty then ⟨records.collections.remove entity⟩
      else ⟨records.collections.insert entity remaining⟩)

end CatalogRecords

/-- A precondition of a batch. -/
inductive CatalogRequirement where
  | namespaceAbsent (namespaceName : String)
  | namespacePresent (namespaceName : String)
  | tableAbsent (table : String)
  | tableMetadata (table expected : String)
  | recordAbsent (entity : CatalogEntity) (id : String)
  | recordDocument (entity : CatalogEntity) (id expected : String)
  deriving DecidableEq, Repr

/-- A change that a batch makes. -/
inductive CatalogAction where
  | createNamespace (namespaceName : String)
  | dropNamespace (namespaceName : String)
  | putTable (table metadataLocation : String)
  | dropTable (table : String)
  | putRecord (entity : CatalogEntity) (id document : String)
  | deleteRecord (entity : CatalogEntity) (id : String)
  deriving DecidableEq, Repr

/-- Actions that are applied as a whole if all requirements hold. -/
structure CatalogBatch where
  requirements : List CatalogRequirement
  actions : List CatalogAction
  deriving DecidableEq, Repr

/-- A batch that cannot be built or decoded. -/
inductive CatalogBatchError where
  | invalid
  deriving DecidableEq, Repr

/-- Text before and after the last occurrence of `separator`. -/
def rsplitOnce (separator : Char) (text : String) : Option (String × String) :=
  let reversed := text.toList.reverse
  match reversed.dropWhile (· ≠ separator) with
  | [] => none
  | _ :: before =>
    some (String.ofList before.reverse,
      String.ofList (reversed.takeWhile (· ≠ separator)).reverse)

/-- The requirement names nothing. -/
def requirementNameEmpty : CatalogRequirement → Bool
  | .namespaceAbsent name | .namespacePresent name => name = ""
  | .tableAbsent table | .tableMetadata table _ => table = ""
  | .recordAbsent _ id | .recordDocument _ id _ => id = ""

/-- The action names nothing. -/
def actionNameEmpty : CatalogAction → Bool
  | .createNamespace name | .dropNamespace name => name = ""
  | .putTable table _ | .dropTable table => table = ""
  | .putRecord _ id _ | .deleteRecord _ id => id = ""

/-- Whether a record document is refused by the JSON decoder `isJson`. -/
def actionDocumentInvalid (isJson : String → Bool) : CatalogAction → Bool
  | .putRecord _ _ document => !isJson document
  | _ => false

namespace CatalogBatch

/-- Build a non-empty transaction after rejecting empty catalog identities. -/
def new (isJson : String → Bool) (requirements : List CatalogRequirement)
    (actions : List CatalogAction) : Except CatalogBatchError CatalogBatch :=
  if actions.isEmpty || requirements.any requirementNameEmpty || actions.any actionNameEmpty ||
      actions.any (actionDocumentInvalid isJson) then
    .error .invalid
  else
    .ok ⟨requirements, actions⟩

/-- Whether the namespaces and tables meet one requirement; record requirements are not read. -/
def satisfied (namespaces : OrderedMap String Unit) (tables : OrderedMap String String) :
    CatalogRequirement → Bool
  | .namespaceAbsent name => !namespaces.contains name
  | .namespacePresent name => namespaces.contains name
  | .tableAbsent table => !tables.contains table
  | .tableMetadata table expected => tables.get table = some expected
  | .recordAbsent _ _ | .recordDocument _ _ _ => true

/-- Change the cloned namespaces and tables by one action; record actions change neither. -/
def applyAction : OrderedMap String Unit × OrderedMap String String → CatalogAction →
    Except CatalogBatchError (OrderedMap String Unit × OrderedMap String String)
  | (namespaces, tables), .createNamespace name =>
    if namespaces.contains name then .error .invalid
    else .ok (namespaces.insert name (), tables)
  | (namespaces, tables), .dropNamespace name =>
    if tables.keys.any (fun table => (name ++ ".").toList.isPrefixOf table.toList) ||
        !namespaces.contains name then .error .invalid
    else .ok (namespaces.remove name, tables)
  | (namespaces, tables), .putTable table metadataLocation =>
    match rsplitOnce '.' table with
    | none => .error .invalid
    | some (name, _) =>
      if !namespaces.contains name || metadataLocation = "" then .error .invalid
      else .ok (namespaces, tables.insert table metadataLocation)
  | (namespaces, tables), .dropTable table =>
    if tables.contains table then .ok (namespaces, tables.remove table) else .error .invalid
  | state, .putRecord _ _ _ | state, .deleteRecord _ _ => .ok state

/-- Apply all requirements and actions atomically to cloned namespaces and tables. -/
def apply (batch : CatalogBatch) (namespaces : OrderedMap String Unit)
    (tables : OrderedMap String String) :
    Except CatalogBatchError (OrderedMap String Unit × OrderedMap String String) :=
  if batch.requirements.all (satisfied namespaces tables) then
    batch.actions.foldlM applyAction (namespaces, tables)
  else
    .error .invalid

/-- Whether the records meet one requirement; the other requirements are not read. -/
def recordSatisfied (records : CatalogRecords) : CatalogRequirement → Bool
  | .recordAbsent entity id => (records.get entity id).isNone
  | .recordDocument entity id expected => records.get entity id = some expected
  | _ => true

/-- One action on catalog records. -/
def applyRecordAction (records : CatalogRecords) :
    CatalogAction → Except CatalogBatchError CatalogRecords
  | .putRecord entity id document => .ok (records.put entity id document)
  | .deleteRecord entity id =>
    match records.remove entity id with
    | (none, _) => .error .invalid
    | (some _, remaining) => .ok remaining
  | _ => .ok records

/-- Apply typed hosted-domain records atomically against a cloned document state. -/
def applyRecords (batch : CatalogBatch) (records : CatalogRecords) :
    Except CatalogBatchError CatalogRecords :=
  if batch.requirements.all (recordSatisfied records) then
    batch.actions.foldlM applyRecordAction records
  else
    .error .invalid

end CatalogBatch

end Verglas.Consensus
