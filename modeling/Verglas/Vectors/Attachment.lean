import Mathlib.Logic.Function.Basic

/-!
# Attaching vector indexes to snapshots

An index is a blob of the statistics file of its snapshot.  An attachment writes a new file from the
blobs of the one that it read and binds it to the snapshot, again on refreshed metadata if another
commit came first.
-/

namespace Verglas.Vectors

open Function

/-- What a blob of a statistics file holds. -/
inductive BlobType where
  | vamana
  | stringKeyMap
  | other (name : String)
  deriving DecidableEq

/-- A blob of a statistics file; `field` is its field property. -/
structure Blob (Data : Type*) where
  type : BlobType
  field : Option String
  data : Data

/-- The arguments of `attach_index`, or of `attach_string_key_index` if there are keys. -/
structure Attachment (Data : Type*) where
  snapshot : Nat
  field : String
  index : Data
  keys : Option Data

variable {Data : Type*}

/-- The blob belongs to the index of a field. -/
def sameVectorField (field : String) (blob : Blob Data) : Bool :=
  (blob.type = .vamana || blob.type = .stringKeyMap) && blob.field = some field

namespace Attachment

variable (attachment : Attachment Data) (existing : List (Blob Data))

/-- The index, and the key map if there is one. -/
def blobs : List (Blob Data) :=
  ⟨.vamana, some attachment.field, attachment.index⟩ ::
    (attachment.keys.map fun keys => ⟨.stringKeyMap, some attachment.field, keys⟩).toList

/-- The file that the attachment writes for a snapshot with the existing blobs. -/
def file : List (Blob Data) :=
  existing.filter (fun blob => !sameVectorField attachment.field blob) ++ attachment.blobs

theorem filter_blobs (field : String) :
    attachment.blobs.filter (sameVectorField field) =
      if field = attachment.field then attachment.blobs else [] := by
  by_cases same : field = attachment.field
  · cases keys : attachment.keys <;> simp [blobs, sameVectorField, keys, same]
  · cases keys : attachment.keys <;> simp [blobs, sameVectorField, keys, same, Ne.symm same]

theorem filter_file (field : String) :
    (attachment.file existing).filter (sameVectorField field) =
      if field = attachment.field then attachment.blobs
      else existing.filter (sameVectorField field) := by
  rw [file, List.filter_append, List.filter_filter, filter_blobs]
  by_cases same : field = attachment.field
  · simp [same]
  rw [if_neg same, if_neg same, List.append_nil]
  refine List.filter_congr fun blob _ => ?_
  by_cases held : blob.field = some field
  · simp [sameVectorField, held, same]
  · simp [sameVectorField, held]

end Attachment

/-- A call that has read the existing blobs and commits on a version of the metadata. -/
structure Call (Data : Type*) where
  attachment : Attachment Data
  existing : List (Blob Data)
  version : Nat
  attempt : Nat := 1

/-- The metadata of a table, the calls at work on it, and the attachments in commit order. -/
structure Table (Data : Type*) where
  version : Nat := 0
  statistics : Nat → List (Blob Data) := fun _ => []
  calls : Nat → Option (Call Data) := fun _ => none
  attached : List (Attachment Data) := []

def commitAttempts : Nat := 8

section Runs

variable (admits : Table Data → Call Data → Prop)

/-- A step of `attach_with_optional_key_map`, or of another writer; `admits` restricts commits. -/
inductive AttachStep (table : Table Data) : Table Data → Prop
  | reads {id : Nat} (attachment : Attachment Data) (idle : table.calls id = none) :
      AttachStep table { table with
        calls := update table.calls id
          (some ⟨attachment, table.statistics attachment.snapshot, table.version, 1⟩) }
  | commits {id : Nat} {call : Call Data} (running : table.calls id = some call)
      (current : call.version = table.version) (admitted : admits table call) :
      AttachStep table
        { version := table.version + 1
          statistics := update table.statistics call.attachment.snapshot
            (call.attachment.file call.existing)
          calls := update table.calls id none
          attached := table.attached ++ [call.attachment] }
  | conflicts {id : Nat} {call : Call Data} (running : table.calls id = some call)
      (stale : call.version ≠ table.version) (left : call.attempt < commitAttempts) :
      AttachStep table { table with
        calls := update table.calls id
          (some { call with version := table.version, attempt := call.attempt + 1 }) }
  | fails {id : Nat} :
      AttachStep table { table with calls := update table.calls id none }
  | other_commit : AttachStep table { table with version := table.version + 1 }

/-- The tables that steps lead to. -/
inductive AttachRun (initial : Nat → List (Blob Data)) : Table Data → Prop
  | start : AttachRun initial { statistics := initial }
  | step {before after : Table Data} (run : AttachRun initial before)
      (happens : AttachStep admits before after) : AttachRun initial after

end Runs

/-- The snapshot has the blobs that the call read. -/
def Unchanged (table : Table Data) (call : Call Data) : Prop :=
  table.statistics call.attachment.snapshot = call.existing

/-- The last attachment to a snapshot and field. -/
def latest (attached : List (Attachment Data)) (snapshot : Nat) (field : String) :
    Option (Attachment Data) :=
  (attached.filter fun attachment =>
    attachment.snapshot = snapshot ∧ attachment.field = field).getLast?

/-- If no attachment to the snapshot commits between a call's read and its commit, every field has
the blobs of its most recent attachment, or those from before. -/
theorem attachments_kept {initial : Nat → List (Blob Data)} {table : Table Data}
    (run : AttachRun Unchanged initial table) (snapshot : Nat) (field : String) :
    (table.statistics snapshot).filter (sameVectorField field) =
      (latest table.attached snapshot field).elim
        ((initial snapshot).filter (sameVectorField field)) Attachment.blobs := by
  induction run with
  | start => rfl
  | step _ happens induction =>
    cases happens with
    | @commits id call running current admitted =>
      rw [latest, List.filter_append]
      dsimp only
      by_cases here : snapshot = call.attachment.snapshot
      · subst here
        rw [update_self, Attachment.filter_file, ← admitted]
        by_cases same : field = call.attachment.field
        · simp [same]
        · simpa [same, Ne.symm same, latest] using induction
      · rw [update_of_ne here]
        simpa [Ne.symm here, latest] using induction
    | reads | conflicts | fails | other_commit => exact induction

/-- Two attachments read the same file, and the second to commit drops the first. -/
theorem attachment_lost :
    ∃ table : Table Nat, AttachRun (fun _ _ => True) (fun _ => []) table ∧
      (∀ id, table.calls id = none) ∧
      table.attached = [⟨1, "a", 10, none⟩, ⟨1, "b", 20, none⟩] ∧
      (table.statistics 1).filter (sameVectorField "a") = [] := by
  have reached : AttachRun (fun _ _ => True) (fun _ => []) ({} : Table Nat) := .start
  have first := reached.step (@AttachStep.reads _ _ _ 0 ⟨1, "a", 10, none⟩ rfl)
  have second := first.step (@AttachStep.reads _ _ _ 1 ⟨1, "b", 20, none⟩ rfl)
  have landed := second.step (@AttachStep.commits _ _ _ 0 _ rfl rfl trivial)
  have stale := landed.step (@AttachStep.conflicts _ _ _ 1 _ rfl (by decide) (by decide))
  refine ⟨_, stale.step (@AttachStep.commits _ _ _ 1 _ rfl rfl trivial), ?_, rfl, rfl⟩
  rintro (_ | _ | id) <;> rfl

theorem attachments_kept_pair :
    ∃ table : Table Nat, AttachRun Unchanged (fun _ => []) table ∧
      (table.statistics 1).filter (sameVectorField "a") = [⟨.vamana, some "a", 10⟩] := by
  have reached : AttachRun Unchanged (fun _ => []) ({} : Table Nat) := .start
  have first := reached.step (@AttachStep.reads _ _ _ 0 ⟨1, "a", 10, none⟩ rfl)
  have landed := first.step (@AttachStep.commits _ _ _ 0 _ rfl rfl rfl)
  have second := landed.step (@AttachStep.reads _ _ _ 1 ⟨1, "b", 20, none⟩ rfl)
  have done := second.step (@AttachStep.commits _ _ _ 1 _ rfl rfl rfl)
  exact ⟨_, done, attachments_kept done 1 "a"⟩

end Verglas.Vectors
