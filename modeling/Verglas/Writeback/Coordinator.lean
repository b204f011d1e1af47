import Verglas.Writeback.Offload

/-!
# The write coordinator

One node runs any number of write-back PUTs, direct writes, deletes, flushes, drains, uploads and
repairs at once.  Each is a task; one step of the node is one access of a task to shared state.  A
crash may strike between any two steps, after which the journals are opened again and their objects
are uploaded.

A key is locked while a task that holds its key lock runs, and a journal while a task is between the
read and the write of it.  The stripes that share one lock among several journals only forbid more
interleavings.  An object id stands for one PUT: `staged` gives its key and its body.
-/

namespace Verglas.Writeback

open Cache (ReadRange ReadError)
open Function JournalStore

/-- The key and the body of the write-back PUT behind an object id. -/
structure StagedObject where
  key : CacheKey
  body : Bytes

/-- One packed object: the key that it resolves and its range in the pack. -/
structure PackedRow where
  objectId : String
  key : CacheKey
  offset : Nat
  length : Nat
  deriving DecidableEq, Repr

/-- Where `WriteCoordinator::delete` stands. -/
inductive DeletePhase where
  | origin
  | row
  | find
  | index (object : String)
  | file (object : String)
  deriving DecidableEq, Repr

/-- What a task is about to do. -/
inductive Task where
  | staging (object : String)
  /-- A PUT has written its journal and is about to index it. -/
  | journaling (object : String) (placements : List Placement)
  | returning (key : CacheKey) (body : Bytes)
  /-- The background part of a PUT merges stragglers and is about to offload. -/
  | settling (object : String)
  | resuming (object : String)
  /-- A direct upload is about to read its journal. -/
  | bypassing (object : String) (attempts : Nat)
  /-- A direct upload is about to reach the origin. -/
  | putting (object : String) (journal : Journal) (attempts : Nat)
  | collecting (lock : Option CacheKey) (stream : String × String) (batch : List PendingEntry)
      (pack : Bytes) (rows : List PackedRow)
  | packing (lock : Option CacheKey) (stream : String × String) (pack : Bytes) (packKey : String)
      (rows : List PackedRow) (attempts : Nat)
  | indexing (lock : Option CacheKey) (packKey : String) (rows : List PackedRow)
      (packed : List String)
  | marking (lock : Option CacheKey) (packed : List String)
  /-- The first of them was read and is about to be written clean. -/
  | cleaning (lock : Option CacheKey) (journal : Journal) (rest : List String)
  /-- It was written and is about to leave the index. -/
  | unindexing (lock : Option CacheKey) (journal : Journal) (rest : List String)
  /-- Its journal is about to be deleted, the index first. -/
  | discarding (lock : Option CacheKey) (object : String) (rest : List String)
  | erasing (lock : Option CacheKey) (object : String) (rest : List String)
  /-- A copy, a completed multipart upload or an opted-out PUT is about to reach the origin. -/
  | writing (key : CacheKey) (body : Bytes)
  | deleting (key : CacheKey) (phase : DeletePhase)
  | repairing (objects : List String)
  | rewriting (journal : Journal) (rest : List String)

/-- The node: shared state, running tasks, and what clients were told. -/
structure System where
  journals : JournalStore := {}
  packs : PackIndex := fun _ => none
  origin : CacheKey → Option Bytes := fun _ => none
  buffers : String × String → OffloadBuffer := fun _ => {}
  tasks : Nat → Option Task := fun _ => none
  issued : List String := []
  packKeys : List String := []
  acked : CacheKey → Option Bytes := fun _ => none
  deleted : List CacheKey := []

/-- What the conditions of a run look at. -/
inductive Event where
  | putStart (object : String)
  | writeStart (key : CacheKey) (body : Bytes)
  | deleteStart (key : CacheKey)
  | repairStart
  | collect (object : String)
  | repairRead (object : String)
  | restart
  | progress
  deriving DecidableEq

/-- The offload stream of a key. -/
def CacheKey.stream (key : CacheKey) : String × String := (key.storageBindingId, key.bucket)

namespace System

/-- Move a task. -/
def run (system : System) (id : Nat) (task : Task) : System :=
  { system with tasks := update system.tasks id (some task) }

/-- End a task. -/
def finish (system : System) (id : Nat) : System :=
  { system with tasks := update system.tasks id none }

/-- The object that the dirty index names for a key. -/
def holder (system : System) (key : CacheKey) : Option String := system.journals.dirty.holder key

/-- Write an object to the origin. -/
def store (system : System) (key : CacheKey) (body : Bytes) : System :=
  { system with origin := update system.origin key (some body) }

/-- Store an object at the origin if the upload took effect. -/
def storeIf (system : System) (landed : Bool) (key : CacheKey) (body : Bytes) : System :=
  if landed then system.store key body else system

end System

section Staged

variable (staged : String → StagedObject)

/-- The journal that a put writes. -/
def journalOf (object : String) (placements : List Placement) : Journal where
  objectId := object
  storageBindingId := (staged object).key.storageBindingId
  bucket := (staged object).key.bucket
  key := (staged object).key.key
  objectLen := (staged object).body.length
  state := .dirty
  placements := placements

/-- What a put pushes to the offload buffer. -/
def entryOf (object : String) : PendingEntry :=
  ⟨object, (staged object).key.key, (staged object).body.length⟩

/-- The key whose lock the task holds. -/
def Task.lock : Task → Option CacheKey
  | .staging object | .journaling object _ | .settling object | .bypassing object _
  | .putting object _ _ => some (staged object).key
  | .collecting lock _ _ _ _ | .packing lock _ _ _ _ _ | .indexing lock _ _ _ | .marking lock _
  | .cleaning lock _ _ | .unindexing lock _ _ | .discarding lock _ _ | .erasing lock _ _ => lock
  | .deleting key _ => some key
  | .returning _ _ | .resuming _ | .writing _ _ | .repairing _ | .rewriting _ _ => none

/-- The object whose journal stripe the task holds. -/
def Task.stripe : Task → Option String
  | .journaling object _ => some object
  | .cleaning _ journal _ | .unindexing _ journal _ | .rewriting journal _ => some journal.objectId
  | _ => none

/-- The key whose write a task has in progress: started and not yet acknowledged. -/
def Task.writes : Task → Option CacheKey
  | .staging object | .journaling object _ => some (staged object).key
  | .writing key _ | .returning key _ => some key
  | _ => none

namespace System

/-- Some task holds the lock of the key. -/
def Locked (system : System) (key : CacheKey) : Prop :=
  ∃ id task, system.tasks id = some task ∧ task.lock staged = some key

/-- Some task holds the journal stripe of the object. -/
def Striped (system : System) (object : String) : Prop :=
  ∃ id task, system.tasks id = some task ∧ task.stripe = some object

/-- Some task is writing the key. -/
def InProgress (system : System) (key : CacheKey) : Prop :=
  ∃ id task, system.tasks id = some task ∧ task.writes staged = some key

theorem not_exists_task_of_two {α : Type*} {system : System} {held : Task → Option α} {value : α}
    (first : (system.tasks 0).bind held ≠ some value)
    (second : (system.tasks 1).bind held ≠ some value)
    (others : ∀ id, system.tasks (id + 2) = none) :
    ¬∃ id task, system.tasks id = some task ∧ held task = some value := by
  rintro ⟨id, task, running, holds⟩
  match id with
  | 0 => exact first (by rw [running]; exact holds)
  | 1 => exact second (by rw [running]; exact holds)
  | id + 2 =>
    rw [others id] at running
    cases running

/-- `WritebackReader::get`. -/
def getObject (system : System) (key : CacheKey) (range : ReadRange) :
    Except ReadError ObjectGet :=
  Writeback.getObject (fun object => (staged object).body) system.journals system.packs
    system.origin key range

def get (system : System) (key : CacheKey) (range : ReadRange) : Except ReadError Bytes :=
  Writeback.get (fun object => (staged object).body) system.journals system.packs system.origin key
    range

end System

variable (limit : Nat)

/-- One step of the node; objects longer than `limit` bypass the offload stream. -/
inductive Step (system : System) : Event → System → Prop
  -- A write-back PUT.
  | putStart {id : Nat} {object : String} (idle : system.tasks id = none)
      (fresh : object ∉ system.issued) (unlocked : ¬system.Locked staged (staged object).key) :
      Step system (.putStart object)
        ({ system with issued := object :: system.issued }.run id (.staging object))
  | putFail {id : Nat} {object : String} (running : system.tasks id = some (.staging object)) :
      Step system .progress (system.finish id)
  | putJournal {id : Nat} {object : String} (placements : List Placement)
      (running : system.tasks id = some (.staging object)) (free : ¬system.Striped object) :
      Step system .progress
        ({ system with
          journals := system.journals.writeFsynced (journalOf staged object placements) }.run id
            (.journaling object placements))
  | putIndex {id handler : Nat} {object : String} {placements : List Placement}
      (running : system.tasks id = some (.journaling object placements))
      (idle : system.tasks handler = none) :
      Step system .progress
        (({ system with
          journals := system.journals.insertIndex (journalOf staged object placements) }.run id
            (.settling object)).run handler
              (.returning (staged object).key (staged object).body))
  | acknowledge {id : Nat} {key : CacheKey} {body : Bytes}
      (running : system.tasks id = some (.returning key body)) :
      Step system .progress ({ system with acked := update system.acked key (some body) }.finish id)
  | straggle {id : Nat} {object : String} (placement : Placement)
      (running : system.tasks id = some (.settling object)) (free : ¬system.Striped object) :
      Step system .progress
        { system with journals := system.journals.addPlacement object placement }
  -- Offload.
  | bypass {id : Nat} {object : String} (running : system.tasks id = some (.settling object))
      (large : limit < (staged object).body.length) :
      Step system .progress (system.run id (.bypassing object propagationAttempts))
  | append {id : Nat} {object : String} {buffer : OffloadBuffer}
      (running : system.tasks id = some (.settling object))
      (small : (staged object).body.length ≤ limit)
      (kept : (system.buffers (staged object).key.stream).append limit (entryOf staged object) =
        (none, buffer)) :
      Step system .progress
        ({ system with
          buffers := update system.buffers (staged object).key.stream buffer }.finish id)
  | appendFlush {id : Nat} {object : String} {batch : List PendingEntry} {buffer : OffloadBuffer}
      (running : system.tasks id = some (.settling object))
      (small : (staged object).body.length ≤ limit)
      (reached : (system.buffers (staged object).key.stream).append limit (entryOf staged object) =
        (some batch, buffer)) :
      Step system .progress
        ({ system with
          buffers := update system.buffers (staged object).key.stream buffer }.run id
            (.collecting (some (staged object).key) (staged object).key.stream batch [] []))
  | drain {id : Nat} {stream : String × String} {batch : List PendingEntry} {buffer : OffloadBuffer}
      (idle : system.tasks id = none)
      (taken : (system.buffers stream).takeAll = (some batch, buffer)) :
      Step system .progress
        ({ system with buffers := update system.buffers stream buffer }.run id
          (.collecting none stream batch [] []))
  -- A direct upload.
  | resume {id : Nat} {object : String} {journal : Journal}
      (running : system.tasks id = some (.resuming object))
      (found : system.journals.read object = some journal)
      (unlocked : ¬system.Locked staged journal.indexKey) :
      Step system .progress (system.run id (.bypassing object propagationAttempts))
  | resumeGone {id : Nat} {object : String} (running : system.tasks id = some (.resuming object))
      (gone : system.journals.read object = none) : Step system .progress (system.finish id)
  | bypassRead {id : Nat} {object : String} {attempts : Nat} {journal : Journal}
      (running : system.tasks id = some (.bypassing object (attempts + 1)))
      (found : system.journals.read object = some journal) (dirty : journal.state = .dirty)
      (bound : journal.storageBindingId ≠ "") :
      Step system .progress (system.run id (.putting object journal attempts))
  | bypassUnbound {id : Nat} {object : String} {attempts : Nat} {journal : Journal}
      (running : system.tasks id = some (.bypassing object (attempts + 1)))
      (found : system.journals.read object = some journal) (dirty : journal.state = .dirty)
      (unbound : journal.storageBindingId = "") :
      Step system .progress (system.run id (.bypassing object attempts))
  /-- The journal is gone or clean, the retries are exhausted, or the node shuts down. -/
  | bypassStop {id : Nat} {object : String} {attempts : Nat}
      (running : system.tasks id = some (.bypassing object attempts)) :
      Step system .progress (system.finish id)
  | bypassPut {id : Nat} {object : String} {journal : Journal} {attempts : Nat}
      (running : system.tasks id = some (.putting object journal attempts)) :
      Step system .progress
        ((system.store journal.indexKey (staged object).body).run id
          (.marking (some (staged object).key) [object]))
  | bypassPutFail {id : Nat} {object : String} {journal : Journal} {attempts : Nat} (landed : Bool)
      (running : system.tasks id = some (.putting object journal attempts)) :
      Step system .progress
        ((system.storeIf landed journal.indexKey (staged object).body).run id
          (.bypassing object attempts))
  -- A flush.
  | collect {id : Nat} {lock : Option CacheKey} {stream : String × String}
      {entry : PendingEntry} {batch : List PendingEntry} {pack : Bytes} {rows : List PackedRow}
      {journal : Journal}
      (running : system.tasks id = some (.collecting lock stream (entry :: batch) pack rows))
      (found : system.journals.read entry.objectId = some journal)
      (dirty : journal.state = .dirty) :
      Step system (.collect entry.objectId)
        (system.run id (.collecting lock stream batch (pack ++ (staged entry.objectId).body)
          (rows ++ [⟨entry.objectId, ⟨stream.1, stream.2, journal.key⟩, pack.length,
            (staged entry.objectId).body.length⟩])))
  | collectSkip {id : Nat} {lock : Option CacheKey} {stream : String × String}
      {entry : PendingEntry} {batch : List PendingEntry} {pack : Bytes} {rows : List PackedRow}
      (running : system.tasks id = some (.collecting lock stream (entry :: batch) pack rows)) :
      Step system .progress (system.run id (.collecting lock stream batch pack rows))
  | packNothing {id : Nat} {lock : Option CacheKey} {stream : String × String} {pack : Bytes}
      (running : system.tasks id = some (.collecting lock stream [] pack [])) :
      Step system .progress (system.finish id)
  | packStart {id : Nat} {lock : Option CacheKey} {stream : String × String} {pack : Bytes}
      {rows : List PackedRow} {packKey : String}
      (running : system.tasks id = some (.collecting lock stream [] pack rows))
      (nonempty : rows ≠ []) (reserved : Reserved packKey) (fresh : packKey ∉ system.packKeys) :
      Step system .progress
        ({ system with packKeys := packKey :: system.packKeys }.run id
          (.packing lock stream pack packKey rows propagationAttempts))
  | packUpload {id : Nat} {lock : Option CacheKey} {stream : String × String} {pack : Bytes}
      {packKey : String} {rows : List PackedRow} {attempts : Nat}
      (running : system.tasks id = some (.packing lock stream pack packKey rows (attempts + 1))) :
      Step system .progress
        ((system.store ⟨stream.1, stream.2, packKey⟩ pack).run id
          (.indexing lock packKey rows (rows.map PackedRow.objectId)))
  | packFail {id : Nat} {lock : Option CacheKey} {stream : String × String} {pack : Bytes}
      {packKey : String} {rows : List PackedRow} {attempts : Nat} (landed : Bool)
      (running : system.tasks id = some (.packing lock stream pack packKey rows (attempts + 1))) :
      Step system .progress
        ((system.storeIf landed ⟨stream.1, stream.2, packKey⟩ pack).run id
          (.packing lock stream pack packKey rows attempts))
  | packStop {id : Nat} {lock : Option CacheKey} {stream : String × String} {pack : Bytes}
      {packKey : String} {rows : List PackedRow} {attempts : Nat}
      (running : system.tasks id = some (.packing lock stream pack packKey rows attempts)) :
      Step system .progress (system.finish id)
  | indexRow {id : Nat} {lock : Option CacheKey} {packKey : String} {row : PackedRow}
      {rows : List PackedRow} {packed : List String}
      (running : system.tasks id = some (.indexing lock packKey (row :: rows) packed)) :
      Step system .progress
        ({ system with
          packs := update system.packs row.key
            (some ⟨packKey, row.offset, row.length⟩) }.run id
              (.indexing lock packKey rows packed))
  | indexDone {id : Nat} {lock : Option CacheKey} {packKey : String} {packed : List String}
      (running : system.tasks id = some (.indexing lock packKey [] packed)) :
      Step system .progress (system.run id (.marking lock packed))
  -- Marking clean and deleting the journal of each uploaded object.
  | markRead {id : Nat} {lock : Option CacheKey} {object : String} {rest : List String}
      {journal : Journal} (running : system.tasks id = some (.marking lock (object :: rest)))
      (free : ¬system.Striped object) (found : system.journals.read object = some journal) :
      Step system .progress (system.run id (.cleaning lock journal rest))
  | markGone {id : Nat} {lock : Option CacheKey} {object : String} {rest : List String}
      (running : system.tasks id = some (.marking lock (object :: rest)))
      (free : ¬system.Striped object) (gone : system.journals.read object = none) :
      Step system .progress (system.run id (.discarding lock object rest))
  | markWrite {id : Nat} {lock : Option CacheKey} {journal : Journal} {rest : List String}
      (running : system.tasks id = some (.cleaning lock journal rest)) :
      Step system .progress
        ({ system with
          journals := system.journals.writeFsynced { journal with state := .clean } }.run id
            (.unindexing lock { journal with state := .clean } rest))
  | markIndex {id : Nat} {lock : Option CacheKey} {journal : Journal} {rest : List String}
      (running : system.tasks id = some (.unindexing lock journal rest)) :
      Step system .progress
        ({ system with journals := system.journals.removeIndex journal }.run id
          (.discarding lock journal.objectId rest))
  | discardIndex {id : Nat} {lock : Option CacheKey} {object : String} {rest : List String}
      {journal : Journal} (running : system.tasks id = some (.discarding lock object rest))
      (found : system.journals.read object = some journal) :
      Step system .progress
        ({ system with journals := system.journals.removeIndex journal }.run id
          (.erasing lock object rest))
  | discardGone {id : Nat} {lock : Option CacheKey} {object : String} {rest : List String}
      (running : system.tasks id = some (.discarding lock object rest))
      (gone : system.journals.read object = none) :
      Step system .progress (system.run id (.erasing lock object rest))
  | erase {id : Nat} {lock : Option CacheKey} {object : String} {rest : List String}
      (running : system.tasks id = some (.erasing lock object rest)) :
      Step system .progress
        ({ system with journals := system.journals.removeFile object }.run id
          (.marking lock rest))
  | markDone {id : Nat} {lock : Option CacheKey}
      (running : system.tasks id = some (.marking lock [])) :
      Step system .progress (system.finish id)
  -- A write that goes to the origin directly.
  | writeStart {id : Nat} {key : CacheKey} {body : Bytes} (idle : system.tasks id = none) :
      Step system (.writeStart key body) (system.run id (.writing key body))
  | writeEffect {id : Nat} {key : CacheKey} {body : Bytes}
      (running : system.tasks id = some (.writing key body)) :
      Step system .progress ((system.store key body).run id (.returning key body))
  | writeFail {id : Nat} {key : CacheKey} {body : Bytes}
      (running : system.tasks id = some (.writing key body)) :
      Step system .progress (system.finish id)
  -- A delete.
  | deleteStart {id : Nat} {key : CacheKey} (idle : system.tasks id = none)
      (unlocked : ¬system.Locked staged key) :
      Step system (.deleteStart key) (system.run id (.deleting key .origin))
  | deleteOrigin {id : Nat} {key : CacheKey}
      (running : system.tasks id = some (.deleting key .origin)) :
      Step system .progress
        ({ system with origin := update system.origin key none }.run id
          (.deleting key .row))
  | deleteOriginFail {id : Nat} {key : CacheKey} (landed : Bool)
      (running : system.tasks id = some (.deleting key .origin)) :
      Step system .progress
        ({ system with
          origin := if landed then update system.origin key none
            else system.origin }.finish id)
  | deleteRow {id : Nat} {key : CacheKey} (running : system.tasks id = some (.deleting key .row)) :
      Step system .progress
        ({ system with packs := update system.packs key none }.run id
          (.deleting key .find))
  | deleteNone {id : Nat} {key : CacheKey} (running : system.tasks id = some (.deleting key .find))
      (unnamed : system.journals.findDirty key = none) :
      Step system .progress ({ system with deleted := key :: system.deleted }.finish id)
  | deleteFind {id : Nat} {key : CacheKey} {object : String}
      (running : system.tasks id = some (.deleting key .find))
      (named : system.journals.findDirty key = some object) :
      Step system .progress (system.run id (.deleting key (.index object)))
  | deleteIndex {id : Nat} {key : CacheKey} {object : String} {journal : Journal}
      (running : system.tasks id = some (.deleting key (.index object)))
      (found : system.journals.read object = some journal) :
      Step system .progress
        ({ system with journals := system.journals.removeIndex journal }.run id
          (.deleting key (.file object)))
  | deleteIndexGone {id : Nat} {key : CacheKey} {object : String}
      (running : system.tasks id = some (.deleting key (.index object)))
      (gone : system.journals.read object = none) :
      Step system .progress (system.run id (.deleting key (.file object)))
  | deleteFile {id : Nat} {key : CacheKey} {object : String}
      (running : system.tasks id = some (.deleting key (.file object))) :
      Step system .progress
        ({ system with
          journals := system.journals.removeFile object
          deleted := key :: system.deleted }.finish id)
  -- A repair pass.
  | repairStart {id : Nat} (idle : system.tasks id = none) :
      Step system .repairStart (system.run id (.repairing system.journals.dirtyObjectIds))
  | repairSkip {id : Nat} {object : String} {rest : List String}
      (running : system.tasks id = some (.repairing (object :: rest))) :
      Step system .progress (system.run id (.repairing rest))
  | repairRead {id : Nat} {object : String} {rest : List String} {journal : Journal}
      (placements : List Placement) (running : system.tasks id = some (.repairing (object :: rest)))
      (free : ¬system.Striped object) (found : system.journals.read object = some journal) :
      Step system (.repairRead object) (system.run id (.rewriting { journal with placements } rest))
  | repairWrite {id : Nat} {journal : Journal} {rest : List String}
      (running : system.tasks id = some (.rewriting journal rest)) :
      Step system .progress
        ({ system with journals := system.journals.writeFsynced journal }.run id
          (.repairing rest))
  | repairDone {id : Nat} (running : system.tasks id = some (.repairing [])) :
      Step system .progress (system.finish id)
  -- A crash and the next start: only files and the origin survive.
  | restart :
      Step system .restart
        { system with
          journals := openStore system.journals.files
          packs := fun _ => none
          buffers := fun _ => {}
          tasks := fun id =>
            ((openStore system.journals.files).dirtyObjectIds[id]?).map .resuming }

/-- Runs from a start whose every step meets a condition. -/
inductive Run (condition : System → Event → Prop) (start : System) : System → Prop
  | refl : Run condition start start
  | step {before after : System} {event : Event} (run : Run condition start before)
      (happens : Step staged limit before event after) (admitted : condition before event) :
      Run condition start after

/-! ## Undisturbed operations

Steps of one task without others in between add up to the operations of the journal store. -/

section Undisturbed

variable {staged} {limit} {condition : System → Event → Prop} {start system : System}

section Put

variable (run : Run staged limit condition start system) (id handler : Nat)
  (object : String) (placements : List Placement) (ne : handler ≠ id)
  (idle : system.tasks id = none) (handler_idle : system.tasks handler = none)
  (fresh : object ∉ system.issued) (unlocked : ¬system.Locked staged (staged object).key)
  (free : ¬system.Striped object) (starts : condition system (.putStart object))
  (progress : ∀ system, condition system .progress)

include run ne idle handler_idle fresh unlocked free starts progress

theorem Run.put : Run staged limit condition start
      ({ system with
        issued := object :: system.issued
        journals := system.journals.put (journalOf staged object placements)
        acked := update system.acked (staged object).key (some (staged object).body) }.run
          id (.settling object)) := by
  have staging := run.step (.putStart idle fresh unlocked) starts
  have still_free : ¬System.Striped ({ system with issued := object :: system.issued }.run id
      (.staging object)) object := by
    rintro ⟨other, task, running, stripe⟩
    by_cases same : other = id
    · rw [same] at running
      cases (update_self id _ _).symm.trans running
      cases stripe
    · exact free ⟨other, task, (update_of_ne same _ _).symm.trans running, stripe⟩
  have journaling := staging.step (.putJournal placements (update_self _ _ _) still_free)
    (progress _)
  have settling := journaling.step (@Step.putIndex _ _ _ id handler _ _ (update_self _ _ _)
    ((update_of_ne ne _ _).trans ((update_of_ne ne _ _).trans handler_idle)))
    (progress _)
  have acknowledged := settling.step (.acknowledge (update_self handler _ _)) (progress _)
  have handler_done : update (update system.tasks id (some (.settling object))) handler none =
        update system.tasks id (some (.settling object)) :=
    update_eq_self_iff.mpr (by rw [update_of_ne ne, handler_idle])
  simp only [System.run, System.finish, update_idem, handler_done] at acknowledged
  exact acknowledged

theorem Run.putBuffered (room : (system.buffers (staged object).key.stream).bytes +
      (staged object).body.length < limit) : Run staged limit condition start
      { system with
        issued := object :: system.issued
        journals := system.journals.put (journalOf staged object placements)
        acked := update system.acked (staged object).key (some (staged object).body)
        buffers := update system.buffers (staged object).key.stream
          ((system.buffers (staged object).key.stream).push (entryOf staged object)).1 } := by
  have settling := run.put id handler object placements ne idle handler_idle fresh unlocked free
    starts progress
  have kept : (system.buffers (staged object).key.stream).append limit (entryOf staged object) =
      (none, ((system.buffers (staged object).key.stream).push (entryOf staged object)).1) :=
    if_neg (Nat.not_le.mpr room)
  have done := settling.step (.append (update_self _ _ _) (by omega) kept) (progress _)
  have ended : update system.tasks id none = system.tasks := update_eq_self_iff.mpr idle.symm
  simp only [System.run, System.finish, update_idem, ended] at done
  exact done

end Put

theorem Run.retire (run : Run staged limit condition start system) (id : Nat)
    {lock : Option CacheKey} {object : String} {journal : Journal}
    (running : system.tasks id = some (.marking lock [object])) (free : ¬system.Striped object)
    (found : system.journals.read object = some journal) (named : journal.objectId = object)
    (progress : ∀ system, condition system .progress) :
    Run staged limit condition start
      ({ system with journals := (system.journals.markClean object).delete object }.finish id) := by
  subst named
  have cleaning := run.step (.markRead running free found) (progress _)
  have unindexing := cleaning.step (.markWrite (update_self _ _ _)) (progress _)
  have discarding := unindexing.step (.markIndex (update_self _ _ _)) (progress _)
  have found_clean : ((system.journals.writeFsynced { journal with state := .clean }).removeIndex
      { journal with state := .clean }).read journal.objectId =
        some { journal with state := .clean } :=
    (read_writeFsynced _ _ _).trans (if_pos rfl)
  have erasing := discarding.step (.discardIndex (update_self _ _ _) found_clean) (progress _)
  have erased := erasing.step (.erase (update_self _ _ _)) (progress _)
  have done := erased.step (.markDone (update_self _ _ _)) (progress _)
  simp only [System.run, System.finish, update_idem] at done
  rw [retire_eq found rfl]
  exact done

end Undisturbed

/-- Files lie under the ids of their journals and carry the keys of their objects; the index names
objects that have a file. -/
structure JournalsSound (journals : JournalStore) : Prop where
  named : ∀ object journal, journals.read object = some journal →
    journal.objectId = object ∧ journal.indexKey = (staged object).key
  indexed : ∀ key object, journals.dirty.holder key = some object →
    (staged object).key = key ∧ (journals.read object).isSome

variable {staged}

namespace JournalsSound

variable {journals : JournalStore} (sound : JournalsSound staged journals)

include sound

variable {journal : Journal}

theorem writeFsynced (key_eq : journal.indexKey = (staged journal.objectId).key) :
    JournalsSound staged (journals.writeFsynced journal) where
  named object found read := by
    rw [read_writeFsynced] at read
    split at read
    · rename_i same
      cases read
      exact ⟨same.symm, same ▸ key_eq⟩
    · exact sound.named object found read
  indexed key object names := by
    obtain ⟨key_of_object, present⟩ := sound.indexed key object names
    refine ⟨key_of_object, ?_⟩
    rw [read_writeFsynced]
    split
    · rfl
    · exact present

theorem insertIndex (key_eq : journal.indexKey = (staged journal.objectId).key)
    (present : (journals.read journal.objectId).isSome) :
    JournalsSound staged (journals.insertIndex journal) where
  named := sound.named
  indexed key object names := by
    by_cases same : key = journal.indexKey
    · subst same
      have object_eq := Option.some.inj ((DirtyIndex.holder_insert_self _ _ _).symm.trans names)
      subst object_eq
      exact ⟨key_eq.symm, present⟩
    · exact sound.indexed key object ((DirtyIndex.holder_insert_of_ne _ _ same).symm.trans names)

theorem removeIndex (journal : Journal) : JournalsSound staged (journals.removeIndex journal) where
  named := sound.named
  indexed key object names := sound.indexed key object (DirtyIndex.holder_of_remove names)

theorem removeFile {object : String}
    (unnamed : journals.dirty.holder (staged object).key ≠ some object) :
    JournalsSound staged (journals.removeFile object) where
  named other journal read := by
    rw [read_removeFile] at read
    split at read
    · cases read
    · exact sound.named other journal read
  indexed key other names := by
    obtain ⟨key_of_other, present⟩ := sound.indexed key other names
    refine ⟨key_of_other, ?_⟩
    rw [read_removeFile, if_neg]
    · exact present
    · rintro rfl
      exact unnamed (key_of_other ▸ names)

/-- A straggler changes nothing, or the journal of its object is written back with it. -/
theorem addPlacement_cases (object : String) (placement : Placement) :
    journals.addPlacement object placement = journals ∨ ∃ journal placements,
      journals.read object = some journal ∧ journal.objectId = object ∧
        journal.indexKey = (staged object).key ∧ journals.addPlacement object placement =
          journals.writeFsynced { journal with placements } := by
  cases found : journals.read object with
  | none => exact .inl (by rw [addPlacement, found])
  | some journal =>
    obtain ⟨named, key_eq⟩ := sound.named object journal found
    rw [addPlacement, found]
    dsimp only
    split
    · exact .inl rfl
    · exact .inr ⟨journal, _, rfl, named, key_eq, rfl⟩

end JournalsSound

end Staged

/-- A key that is written twice. -/
def report : CacheKey := ⟨"main", "bucket", "report"⟩

/-- One byte is staged under the first id, two under the second. -/
def reportVersions (object : String) : StagedObject :=
  ⟨report, if object = "first" then [1] else [2, 2]⟩

end Verglas.Writeback
