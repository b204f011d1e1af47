import Verglas.Writeback.Deletion

/-!
# Who still uploads a dirty object

A dirty journal is finished by whoever refers to its object: the background part of its PUT, the
offload buffer that it waits in, the flush that took it, or its direct upload.  One of them refers
to every indexed dirty journal as long as the attempts of no upload run out, every batch
reassembles, a restart finds one dirty journal for each key, and repair does not race with a delete.
-/

namespace Verglas.Writeback

open Function List Option

/-- The objects that a task is going to upload, or has uploaded and is going to mark clean. -/
def Task.uploads : Task → List String
  | .deleting _ _ | .repairing _ | .rewriting _ _ => []
  | task => task.objects

/-- The objects whose dirty journals a task answers for: those it uploads, and the one whose PUT it
is. -/
def Task.tracks (task : Task) : List String := task.starting.toList ++ task.uploads

namespace System

variable (system : System) (object : String)

/-- The object has a dirty journal. -/
def Dirty : Prop := ∃ journal, system.journals.read object = some journal ∧ journal.state = .dirty

/-- The object waits in some offload buffer. -/
def Buffered : Prop := ∃ stream, ∃ entry ∈ (system.buffers stream).pending, entry.objectId = object

/-- An offload buffer, a flush or a direct upload, running or pending, refers to the object. -/
def References : Prop :=
  system.Buffered object ∨ ∃ id task, system.tasks id = some task ∧ object ∈ task.uploads

/-- Something answers for the dirty journal of the object. -/
def Tracked : Prop :=
  system.Buffered object ∨ ∃ id task, system.tasks id = some task ∧ object ∈ task.tracks

/-- No two dirty journals belong to one key. -/
def OneDirtyPerKey : Prop :=
  ∀ first second journal other, system.journals.read first = some journal →
    system.journals.read second = some other → journal.state = .dirty → other.state = .dirty →
    journal.indexKey = other.indexKey → first = second

end System

/-- No upload is cut short by a shutdown: a direct upload with attempts left ends only over a
journal that is not dirty any more, and a flush with attempts left does not end. -/
structure StaysUp (before after : System) : Prop where
  uploads : ∀ id object attempts, before.tasks id = some (.bypassing object (attempts + 1)) →
    after.tasks id = none → ¬before.Dirty object
  packs : ∀ id lock stream pack packKey rows attempts,
    before.tasks id = some (.packing lock stream pack packKey rows (attempts + 1)) →
      after.tasks id ≠ none

/-- What keeps every dirty journal referenced. -/
structure Propagates (staged : String → StagedObject) (before : System) (event : Event)
    (after : System) : Prop where
  uploads : ∀ id object, before.tasks id ≠ some (.bypassing object 0)
  packs : ∀ id lock stream pack packKey rows,
    before.tasks id ≠ some (.packing lock stream pack packKey rows 0)
  reassembles : ∀ id lock stream entry batch pack rows,
    before.tasks id = some (.collecting lock stream (entry :: batch) pack rows) →
      after.tasks id = some (.collecting lock stream batch pack rows) →
        ¬before.Dirty entry.objectId
  restart : event = .restart → before.OneDirtyPerKey
  repair : ∀ object, event = .repairRead object → ¬before.Deleting (staged object).key
  delete : ∀ key, event = .deleteStart key → ∀ id journal rest,
    before.tasks id = some (.rewriting journal rest) → journal.indexKey ≠ key

/-- Runs of a node that may crash and start again, but does not shut down. -/
def RunsOn (staged : String → StagedObject) (limit : Nat)
    (condition : System → Event → System → Prop) : System → System → Prop :=
  Relation.ReflTransGen fun before after => ∃ event, Step staged limit before event after ∧
    (event = .restart ∨ StaysUp before after) ∧ condition before event after

/-- What a task sees of the journal that it works on. -/
def Task.Sees (system : System) : Task → Prop
  | .staging object => system.journals.read object = none
  | .erasing _ object _ => ¬system.Dirty object
  | .rewriting journal _ =>
    (journal.state = .dirty → system.Dirty journal.objectId) ∧ ¬system.Deleting journal.indexKey
  | _ => True

/-- Every dirty journal has somebody who answers for it. -/
structure Propagating (system : System) : Prop where
  tracked : ∀ object, system.Dirty object → system.Tracked object
  sees : ∀ id task, system.tasks id = some task → task.Sees system

variable {staged : String → StagedObject} {limit : Nat} {before after system : System}

theorem dirty_congr (files : after.journals.files = before.journals.files) {object : String} :
    after.Dirty object ↔ before.Dirty object := by
  rw [System.Dirty, System.Dirty, JournalStore.read, JournalStore.read, files]

theorem tracked_of_buffers (buffers : after.buffers = before.buffers) (object : String)
    (buffered : before.Buffered object) : after.Tracked object := by
  rw [System.Buffered, ← buffers] at buffered
  exact .inl buffered

variable {id : Nat} {lock : Option CacheKey}

namespace Propagating

/-- What a step of one task does to the journals: new files are of objects that are known or start,
new dirty journals come from starting PUTs, and journals stop being dirty only under their lock or
by a delete. -/
structure Moves (staged : String → StagedObject) (id : Nat) (before after : System) : Prop where
  found : ∀ object, (after.journals.read object).isSome → (before.journals.read object).isSome ∨
    before.Established object ∨ (before.tasks id).bind Task.starting = some object
  dirty : ∀ object, after.Dirty object →
    before.Dirty object ∨ (before.tasks id).bind Task.starting = some object
  lost : ∀ object, before.Dirty object → after.Dirty object ∨
    before.Deleting (staged object).key ∨ (before.tasks id).bind Task.stripe = some object

theorem Moves.of_files (files : after.journals.files = before.journals.files) :
    Moves staged id before after where
  found object found := .inl (by rwa [JournalStore.read, files] at found)
  dirty _ dirty := .inl ((dirty_congr files).mp dirty)
  lost _ dirty := .inl ((dirty_congr files).mpr dirty)

variable (inv : Propagating before) (consistent : Consistent staged before)
include inv consistent

/-- A step of one task: what the task and the buffers refer to stays referred to. -/
theorem advance (id : Nat)
    (stays : ∀ other task, other ≠ id → before.tasks other = some task →
      after.tasks other = some task)
    (comes : ∀ other task, after.tasks other = some task →
      other ≠ id ∧ before.tasks other = some task ∨
        task.Sees after ∧ ∀ key phase, task = .deleting key phase → ∀ writer journal rest,
          before.tasks writer = some (.rewriting journal rest) → journal.indexKey ≠ key)
    (buffers : ∀ object, before.Buffered object → after.Tracked object)
    (kept : ∀ task, before.tasks id = some task → ∀ object ∈ task.tracks, after.Dirty object →
      after.Tracked object)
    (moves : Moves staged id before after) :
    Propagating after where
  tracked object is_dirty := by
    rcases moves.dirty object is_dirty with was_dirty | starts
    · rcases inv.tracked object was_dirty with buffered | ⟨other, task, running, tracks⟩
      · exact buffers object buffered
      · by_cases same : other = id
        · exact kept task (same ▸ running) object tracks is_dirty
        · exact .inr ⟨other, task, stays other task same running, tracks⟩
    · obtain ⟨task, running, task_starts⟩ := bind_eq_some_iff.mp starts
      exact kept task running object (mem_append_left _ (mem_toList.mpr task_starts)) is_dirty
  sees other task running := by
    rcases comes other task running with ⟨ne, now⟩ | ⟨sees, _⟩
    swap
    · exact sees
    have saw := inv.sees other task now
    -- The moving task starts no PUT of an object that another task starts or works on.
    have unstarted : ∀ object, task.starting = some object ∨ object ∈ task.objects →
        (before.tasks id).bind Task.starting ≠ some object := by
      intro object works starts
      obtain ⟨mover, moves, mover_starts⟩ := bind_eq_some_iff.mp starts
      rcases works with task_starts | member
      · exact ne (consistent.single.unique (mem_owned.mpr ⟨task, now, task_starts⟩)
          (mem_owned.mpr ⟨mover, moves, mover_starts⟩))
      · exact (consistent.established other task now object member).indexed id mover moves
          mover_starts
    cases task with
    | staging object =>
      by_contra present
      rcases moves.found object (isSome_iff_ne_none.mpr present) with old | known | starts
      · rw [saw] at old
        cases old
      · exact known.indexed other _ now rfl
      · exact unstarted object (.inl rfl) starts
    | erasing lock object rest =>
      intro is_dirty
      rcases moves.dirty object is_dirty with was_dirty | starts
      · exact saw was_dirty
      · exact unstarted object (.inr mem_cons_self) starts
    | rewriting journal rest =>
      have key_eq : journal.indexKey = (staged journal.objectId).key := consistent.known other _ now
      refine ⟨fun copy_dirty => ?_, fun ⟨deleter, phase, deletes⟩ => ?_⟩
      · rcases moves.lost journal.objectId (saw.1 copy_dirty) with still | deleting | striped
        · exact still
        · exact absurd (key_eq ▸ deleting) saw.2
        · obtain ⟨mover, moves, mover_striped⟩ := bind_eq_some_iff.mp striped
          exact absurd (consistent.stripes.unique (mem_owned.mpr ⟨_, now, rfl⟩)
            (mem_owned.mpr ⟨mover, moves, mover_striped⟩)) ne
      · rcases comes deleter _ deletes with ⟨_, deleting⟩ | ⟨_, apart⟩
        · exact saw.2 ⟨deleter, phase, deleting⟩
        · exact apart _ phase rfl other journal rest now rfl
    | _ => trivial

variable {id : Nat} {next : Option Task} {task : Task} {object : String} {stream : String × String}
  {buffer : OffloadBuffer} {batch : List PendingEntry}

theorem replace (tasks : after.tasks = update before.tasks id next)
    (buffers : ∀ object, before.Buffered object → after.Tracked object)
    (kept : ∀ task, before.tasks id = some task → ∀ object ∈ task.tracks, after.Dirty object →
      ∃ moved, next = some moved ∧ object ∈ moved.tracks)
    (moves : Moves staged id before after)
    (sees : ∀ moved, next = some moved → moved.Sees after)
    (apart : ∀ key phase, next = some (.deleting key phase) → ∀ writer journal rest,
      before.tasks writer = some (.rewriting journal rest) → journal.indexKey ≠ key) :
    Propagating after := by
  refine inv.advance consistent id (fun other task ne running => ?_) (fun other task now => ?_)
    buffers (fun task running object tracks is_dirty => ?_) moves
  · rw [tasks, update_of_ne ne, running]
  · rw [tasks] at now
    rcases of_update_eq now with ⟨rfl, new⟩ | ⟨same, now⟩
    · refine .inr ⟨sees task new, fun key phase deletes => ?_⟩
      exact apart key phase (deletes ▸ new)
    · exact .inl ⟨same, now⟩
  · obtain ⟨moved, next_eq, moved_tracks⟩ := kept task running object tracks is_dirty
    refine .inr ⟨id, moved, ?_, moved_tracks⟩
    rw [tasks, update_self, next_eq]

section Untouched

variable (files : after.journals.files = before.journals.files)
  (buffers : after.buffers = before.buffers)
include files buffers

theorem move (tasks : after.tasks = update before.tasks id next)
    (kept : ∀ task, before.tasks id = some task → ∀ object ∈ task.tracks, before.Dirty object →
      ∃ moved, next = some moved ∧ object ∈ moved.tracks)
    (sees : ∀ moved, next = some moved → moved.Sees after)
    (apart : ∀ key phase, next = some (.deleting key phase) → ∀ writer journal rest,
      before.tasks writer = some (.rewriting journal rest) → journal.indexKey ≠ key) :
    Propagating after := by
  refine inv.replace consistent tasks (tracked_of_buffers buffers)
    (fun task running object tracks dirty => ?_) (.of_files files) sees apart
  exact kept task running object tracks ((dirty_congr files).mp dirty)

theorem enter {next : Task} (idle : before.tasks id = none)
    (tasks : after.tasks = update before.tasks id (some next)) (sees : next.Sees after)
    (apart : ∀ key phase, next = .deleting key phase → ∀ writer journal rest,
      before.tasks writer = some (.rewriting journal rest) → journal.indexKey ≠ key) :
    Propagating after := by
  refine inv.move consistent files buffers tasks (fun task running => ?_)
    (fun moved now => some.inj now ▸ sees)
    fun key phase now => apart key phase (some.inj now)
  exact nomatch idle.symm.trans running

theorem go {next : Task} (running : before.tasks id = some task)
    (tasks : after.tasks = update before.tasks id (some next)) (kept : task.tracks ⊆ next.tracks)
    (sees : next.Sees after)
    (apart : ∀ key phase, next = .deleting key phase → ∃ earlier, task = .deleting key earlier) :
    Propagating after := by
  refine inv.move consistent files buffers tasks (fun old old_running object tracks _ => ?_)
    (fun moved now => some.inj now ▸ sees) fun key phase now writer journal rest writes => ?_
  · cases old_running.symm.trans running
    exact ⟨next, rfl, kept tracks⟩
  · obtain ⟨earlier, rfl⟩ := apart key phase (some.inj now)
    rintro rfl
    exact (inv.sees writer _ writes).2 ⟨id, earlier, running⟩

theorem stop (running : before.tasks id = some task)
    (tasks : after.tasks = update before.tasks id none)
    (done : ∀ object ∈ task.tracks, ¬before.Dirty object) : Propagating after := by
  refine inv.move consistent files buffers tasks (fun old old_running object tracks dirty => ?_)
    (fun _ => nofun) nofun
  cases old_running.symm.trans running
  exact absurd dirty (done object tracks)

end Untouched

theorem write {next : Task} {journal : Journal} (running : before.tasks id = some task)
    (tasks : after.tasks = update before.tasks id (some next))
    (journals : after.journals = before.journals.writeFsynced journal)
    (buffers : after.buffers = before.buffers) (kept : task.tracks ⊆ next.tracks)
    (known : before.Established journal.objectId ∨ task.starting = some journal.objectId)
    (dirty : journal.state = .dirty →
      before.Dirty journal.objectId ∨ task.starting = some journal.objectId)
    (lost : before.Dirty journal.objectId →
      journal.state = .dirty ∨ task.stripe = some journal.objectId)
    (sees : next.Sees after) (deletes : ∀ key phase, next ≠ .deleting key phase) :
    Propagating after := by
  have read : ∀ object, after.journals.read object =
      if object = journal.objectId then some journal else before.journals.read object := by
    intro object
    rw [journals, JournalStore.read_writeFsynced]
  refine inv.replace consistent tasks (tracked_of_buffers buffers) ?_ ⟨?_, ?_, ?_⟩
    (fun moved now => some.inj now ▸ sees)
    fun key phase now => absurd (some.inj now) (deletes key phase)
  · intro old old_running object tracks _
    cases old_running.symm.trans running
    exact ⟨next, rfl, kept tracks⟩
  · intro object found
    rw [running, bind_some]
    by_cases same : object = journal.objectId
    · rw [same]
      exact .inr known
    · rw [read, if_neg same] at found
      exact .inl found
  · rintro object ⟨written, written_read, state⟩
    rw [running, bind_some]
    by_cases same : object = journal.objectId
    · rw [read, if_pos same] at written_read
      cases written_read
      rw [same]
      exact dirty state
    · rw [read, if_neg same] at written_read
      exact .inl ⟨written, written_read, state⟩
  · rintro object ⟨old, old_read, state⟩
    rw [running, bind_some]
    by_cases same : object = journal.objectId
    · rcases lost (same ▸ ⟨old, old_read, state⟩) with still | striped
      · exact .inl ⟨journal, by rw [read, if_pos same], still⟩
      · exact .inr (.inr (same ▸ striped))
    · exact .inl ⟨old, by rw [read, if_neg same, old_read], state⟩

theorem remove {gone : String} (running : before.tasks id = some task)
    (tasks : after.tasks = update before.tasks id next)
    (journals : after.journals = before.journals.removeFile gone)
    (buffers : after.buffers = before.buffers)
    (kept : ∀ object ∈ task.tracks, object ≠ gone → ∃ moved, next = some moved ∧
      object ∈ moved.tracks)
    (lost : before.Dirty gone → before.Deleting (staged gone).key)
    (sees : ∀ moved, next = some moved → moved.Sees after)
    (deletes : ∀ key phase, next ≠ some (.deleting key phase)) : Propagating after := by
  have read : ∀ object, after.journals.read object =
      if object = gone then none else before.journals.read object := by
    intro object
    rw [journals, JournalStore.read_removeFile]
  have remaining : ∀ object journal, after.journals.read object = some journal →
      object ≠ gone ∧ before.journals.read object = some journal := by
    intro object journal found
    rw [read] at found
    split at found
    · cases found
    · exact ⟨‹_›, found⟩
  refine inv.replace consistent tasks (tracked_of_buffers buffers) ?_ ⟨?_, ?_, ?_⟩ sees
    fun key phase now => absurd now (deletes key phase)
  · rintro old old_running object tracks ⟨journal, found, _⟩
    cases old_running.symm.trans running
    exact kept object tracks (remaining object journal found).1
  · intro object found
    obtain ⟨journal, found_eq⟩ := isSome_iff_exists.mp found
    rw [(remaining object journal found_eq).2]
    exact .inl rfl
  · rintro object ⟨journal, found, state⟩
    exact .inl ⟨journal, (remaining object journal found).2, state⟩
  · rintro object ⟨journal, found, state⟩
    by_cases same : object = gone
    · rw [same]
      exact .inr (.inl (lost (same ▸ ⟨journal, found, state⟩)))
    · exact .inl ⟨journal, by rw [read, if_neg same, found], state⟩

theorem straggle (placement : Placement) (running : before.tasks id = some (.settling object)) :
    Propagating { before with journals := before.journals.addPlacement object placement } := by
  rcases consistent.journals.addPlacement_cases object placement with
    same | ⟨journal, placements, found, rfl, _, written⟩
  · rw [same]
    exact inv
  · rw [written]
    refine inv.write consistent running (update_eq_self_iff.mpr running.symm).symm rfl
      rfl (.refl _) (.inl ?_) (fun state => .inl ⟨journal, found, state⟩) ?_ trivial
      nofun
    · exact consistent.established id _ running _ mem_cons_self
    · rintro ⟨other, other_found, state⟩
      cases found.symm.trans other_found
      exact .inl state

/-- A step between a task and a buffer: whatever waits in the buffer or is tracked by the task ends
up in the buffer or with the flush that the task has become. -/
theorem pass (tasks : after.tasks = update before.tasks id next)
    (buffers : after.buffers = update before.buffers stream buffer)
    (journals : after.journals = before.journals)
    (carried : ∀ object, (∃ entry ∈ (before.buffers stream).pending, entry.objectId = object) ∨
      (∃ task, before.tasks id = some task ∧ object ∈ task.tracks) →
        (∃ entry ∈ buffer.pending, entry.objectId = object) ∨
          ∃ moved, next = some moved ∧ object ∈ moved.tracks)
    (collects : ∀ moved, next = some moved → ∃ lock batch,
      moved = .collecting lock stream batch [] []) : Propagating after := by
  have tracked : ∀ object, (∃ entry ∈ buffer.pending, entry.objectId = object) ∨
      (∃ moved, next = some moved ∧ object ∈ moved.tracks) → after.Tracked object := by
    rintro object (⟨entry, waits, named⟩ | ⟨moved, now, tracks⟩)
    · refine .inl ⟨stream, entry, ?_, named⟩
      rwa [buffers, update_self]
    · refine .inr ⟨id, moved, ?_, tracks⟩
      rw [tasks, update_self, now]
  refine inv.advance consistent id (fun other task ne running => ?_) (fun other task now => ?_)
    ?_ (fun task running object tracks _ => ?_) (.of_files (by rw [journals]))
  · rw [tasks, update_of_ne ne, running]
  · rw [tasks] at now
    rcases of_update_eq now with ⟨rfl, new⟩ | ⟨same, now⟩
    · obtain ⟨lock, batch, rfl⟩ := collects task new
      exact .inr ⟨trivial, nofun⟩
    · exact .inl ⟨same, now⟩
  · rintro object ⟨waits_in, entry, waits, named⟩
    by_cases same : waits_in = stream
    · exact tracked object (carried object (.inl ⟨entry, same ▸ waits, named⟩))
    · refine .inl ⟨waits_in, entry, ?_, named⟩
      rwa [buffers, update_of_ne same]
  · exact tracked object (carried object (.inr ⟨task, running, tracks⟩))

omit inv consistent in
theorem mem_tracks_collecting {entry : PendingEntry} (member : entry ∈ batch) :
    entry.objectId ∈ (Task.collecting lock stream batch [] []).tracks :=
  mem_append_right _ (mem_append_left _ (mem_map_of_mem member))

theorem putIndex {handler : Nat} {placements : List Placement}
    (running : before.tasks id = some (.journaling object placements))
    (idle : before.tasks handler = none) :
    Propagating (({ before with
      journals := before.journals.insertIndex (journalOf staged object placements) }.run id
        (.settling object)).run handler
          (.returning (staged object).key (staged object).body)) := by
  have apart : id ≠ handler := by
    rintro rfl
    exact nomatch idle.symm.trans running
  refine inv.advance consistent id (fun other task ne now => ?_) (fun other task now => ?_)
    (fun other buffered => .inl buffered) (fun task now other tracks _ => ?_) (.of_files rfl)
  · refine (update_of_ne ?_ _ _).trans ((update_of_ne ne _ _).trans now)
    rintro rfl
    exact nomatch idle.symm.trans now
  · rcases of_update_eq now with ⟨rfl, new⟩ | ⟨_, earlier⟩
    · cases new
      exact .inr ⟨trivial, nofun⟩
    · rcases of_update_eq earlier with ⟨rfl, new⟩ | old
      · cases new
        exact .inr ⟨trivial, nofun⟩
      · exact .inl old
  · cases now.symm.trans running
    refine .inr ⟨id, .settling object, ?_, tracks⟩
    exact (update_of_ne apart _ _).trans (update_self _ _ _)

omit inv consistent in
theorem restart (inv : Consistent staged before) (single : before.OneDirtyPerKey)
    (journals : after.journals = openStore before.journals.files)
    (tasks : after.tasks = fun id => after.journals.dirtyObjectIds[id]?.map .resuming) :
    Propagating after where
  tracked object dirty := by
    rw [System.Dirty, journals, read_openStore] at dirty
    obtain ⟨journal, read, state⟩ := dirty
    have listed : journal ∈ dirtyFor journal.indexKey before.journals.files.values :=
      mem_dirtyFor.mpr ⟨mem_map.mpr ⟨_, OrderedMap.get_eq_some_iff.mp read, rfl⟩, state, rfl⟩
    obtain ⟨newest, last⟩ := isSome_iff_exists.mp (getLast?_isSome.mpr (ne_nil_of_mem listed))
    have names : (openStore before.journals.files).dirty.holder journal.indexKey =
        some newest.objectId := by
      rw [holder_openStore, last]
      rfl
    obtain ⟨indexed, indexed_read, indexed_dirty, key_eq⟩ := inv.journals.dirty_of_openStore names
    have same := single object newest.objectId journal indexed read indexed_read state indexed_dirty
      key_eq.symm
    have resumed := DirtyIndex.mem_objectIds.mpr ⟨_, same.symm ▸ names⟩
    obtain ⟨id, at_id⟩ := mem_iff_getElem?.mp resumed
    refine .inr ⟨id, .resuming object, ?_, mem_singleton_self _⟩
    rw [tasks, journals]
    exact congrArg (Option.map Task.resuming) at_id
  sees id task now := by
    rw [tasks] at now
    obtain ⟨object, _, rfl⟩ := map_eq_some_iff.mp now
    trivial

theorem step {event : Event} (happens : Step staged limit before event after)
    (up : event = .restart ∨ StaysUp before after)
    (propagates : Propagates staged before event after) : Propagating after := by
  cases happens with
  | putStart idle fresh _ =>
    refine inv.enter consistent rfl rfl idle rfl ?_ (by simp)
    exact not_isSome_iff_eq_none.mp fun found => fresh (consistent.files _ found)
  | @putFail id object running =>
    refine inv.stop consistent rfl rfl running rfl fun other tracks dirty => ?_
    obtain ⟨journal, found, _⟩ := dirty
    cases mem_singleton.mp tracks
    cases (inv.sees id _ running).symm.trans found
  | putJournal placements running _ =>
    exact inv.write consistent running rfl rfl rfl (.refl _) (.inr rfl)
      (fun _ => .inr rfl) (fun _ => .inl rfl) trivial (by simp)
  | putIndex running idle => exact inv.putIndex consistent running idle
  | acknowledge running | packNothing running | markDone running | writeFail running
  | deleteOriginFail landed running | deleteNone running _ | repairDone running =>
    exact inv.stop consistent rfl rfl running rfl (by rintro _ ⟨⟩)
  | straggle placement running _ => exact inv.straggle consistent placement running
  | bypass running _ | resume running _ _
  | bypassRead running _ _ _ | bypassUnbound running _ _ _ | bypassPut running
  | packStart running _ _ _ | packUpload running | indexRow running | indexDone running
  | markGone running _ _ | markIndex running | writeEffect running | repairSkip running =>
    exact inv.go consistent rfl rfl running rfl (.refl _) trivial (by simp)
  | append running _ kept =>
    cases OffloadBuffer.append_none kept
    refine inv.pass consistent rfl rfl rfl (fun other waits => .inl ?_) (by simp)
    rcases waits with ⟨entry, waits, named⟩ | ⟨task, task_running, tracks⟩
    · exact ⟨entry, mem_append_left _ waits, named⟩
    · cases task_running.symm.trans running
      cases mem_singleton.mp tracks
      exact ⟨_, mem_append_right _ (mem_singleton_self _), rfl⟩
  | appendFlush running _ reached =>
    obtain ⟨rfl, rfl⟩ := OffloadBuffer.append_some reached
    refine inv.pass consistent rfl rfl rfl (fun other waits => .inr ⟨_, rfl, ?_⟩)
      fun moved now => ⟨_, _, (some.inj now).symm⟩
    rcases waits with ⟨entry, waits, rfl⟩ | ⟨task, task_running, tracks⟩
    · exact mem_tracks_collecting (mem_append_left _ waits)
    · cases task_running.symm.trans running
      cases mem_singleton.mp tracks
      exact mem_tracks_collecting (mem_append_right _ (mem_singleton_self _))
  | drain idle taken =>
    obtain ⟨rfl, rfl⟩ := OffloadBuffer.takeAll_some taken
    refine inv.pass consistent rfl rfl rfl (fun other waits => .inr ⟨_, rfl, ?_⟩)
      fun moved now => ⟨_, _, (some.inj now).symm⟩
    rcases waits with ⟨entry, waits, rfl⟩ | ⟨task, running, _⟩
    · exact mem_tracks_collecting waits
    · cases idle.symm.trans running
  | resumeGone running gone =>
    refine inv.stop consistent rfl rfl running rfl fun other tracks dirty => ?_
    obtain ⟨journal, found, _⟩ := dirty
    cases mem_singleton.mp tracks
    cases gone.symm.trans found
  | @bypassStop id object attempts running =>
    refine inv.stop consistent rfl rfl running rfl fun other tracks => ?_
    cases mem_singleton.mp tracks
    cases attempts with
    | zero => exact absurd running (propagates.uploads id object)
    | succ attempts =>
      exact (up.resolve_left (by simp)).uploads id object attempts running (update_self id _ _)
  | bypassPutFail landed running | packFail landed running =>
    cases landed with
    | true | false =>
      exact inv.go consistent rfl rfl running rfl (.refl _) trivial (by simp)
  | collect running _ _ =>
    refine inv.go consistent rfl rfl running rfl ?_ trivial (by simp)
    intro object tracks
    simp only [Task.tracks, Task.starting, Task.uploads, Task.objects, toList_none,
      nil_append, map_cons, map_append, map_nil, mem_append,
      mem_cons, not_mem_nil, or_false] at tracks ⊢
    tauto
  | @collectSkip id lock stream entry batch pack rows running =>
    refine inv.move consistent rfl rfl rfl (fun task task_running object tracks dirty => ?_)
      (fun moved now => some.inj now ▸ trivial) (by simp)
    cases task_running.symm.trans running
    rcases mem_cons.mp tracks with rfl | kept
    · exact absurd dirty (propagates.reassembles id lock stream entry batch pack rows running
        (update_self id _ _))
    · exact ⟨_, rfl, kept⟩
  | @packStop id lock stream pack packKey rows attempts running =>
    cases attempts with
    | zero => exact absurd running (propagates.packs id lock stream pack packKey rows)
    | succ attempts =>
      exact absurd (update_self id _ _)
        ((up.resolve_left (by simp)).packs id lock stream pack packKey rows attempts running)
  | markRead running _ found =>
    obtain ⟨rfl, _⟩ := consistent.journals.named _ _ found
    exact inv.go consistent rfl rfl running rfl (.refl _) trivial (by simp)
  | markWrite running =>
    exact inv.write consistent running rfl rfl rfl (.refl _)
      (.inl (consistent.established _ _ running _ mem_cons_self)) (by simp) (fun _ => .inr rfl)
      trivial (by simp)
  | @discardIndex id lock object rest journal running _ =>
    have retired : before.Retired object := consistent.known id _ running
    refine inv.go consistent rfl rfl running rfl (.refl _) ?_ (by simp)
    rintro ⟨found, read, state⟩
    cases (retired.file found read).symm.trans state
  | discardGone running gone =>
    refine inv.go consistent rfl rfl running rfl (.refl _) ?_ (by simp)
    rintro ⟨found, read, state⟩
    cases gone.symm.trans read
  | @erase id lock object rest running =>
    refine inv.remove consistent running rfl rfl rfl (fun other tracks ne => ⟨_, rfl, ?_⟩)
      (fun dirty => absurd dirty (inv.sees id _ running))
      (fun moved now => some.inj now ▸ trivial) (by simp)
    exact (mem_cons.mp tracks).resolve_left ne
  | writeStart idle | repairStart idle =>
    exact inv.enter consistent rfl rfl idle rfl trivial (by simp)
  | deleteStart idle _ =>
    refine inv.enter consistent rfl rfl idle rfl trivial ?_
    rintro _ _ ⟨⟩ writer journal rest writes
    exact propagates.delete _ rfl writer journal rest writes
  | deleteOrigin running | deleteRow running | deleteFind running _ | deleteIndex running _
  | deleteIndexGone running _ =>
    refine inv.go consistent rfl rfl running rfl (.refl _) trivial ?_
    rintro _ _ ⟨⟩
    exact ⟨_, rfl⟩
  | @deleteFile id key object running =>
    have known := consistent.known id _ running
    refine inv.remove consistent running rfl rfl rfl (by rintro _ ⟨⟩)
      (fun _ => ⟨id, .file object, ?_⟩) (by simp) (by simp)
    rw [running, known.1]
  | @repairRead id object rest journal placements running _ found =>
    obtain ⟨named, key_eq⟩ := consistent.journals.named object journal found
    refine inv.go consistent rfl rfl running rfl (.refl _) ⟨fun state => ?_, ?_⟩
      (by simp)
    · exact ⟨journal, (congrArg before.journals.read named).trans found, state⟩
    · rintro ⟨deleter, phase, deletes⟩
      rcases of_update_eq deletes with ⟨rfl, new⟩ | ⟨_, old⟩
      · cases new
      · exact propagates.repair object rfl ⟨deleter, phase, key_eq ▸ old⟩
  | @repairWrite id journal rest running =>
    exact inv.write consistent running rfl rfl rfl (.refl _)
      (.inl (consistent.established _ _ running _ mem_cons_self))
      (fun state => .inl ((inv.sees id _ running).1 state)) (fun _ => .inr rfl) trivial (by simp)
  | restart => exact Propagating.restart consistent (propagates.restart rfl) rfl rfl

end Propagating

theorem propagating_start (origin : CacheKey → Option Bytes) : Propagating { origin } :=
  ⟨fun _ ⟨_, found, _⟩ => (nomatch found), fun _ _ running => nomatch running⟩

theorem RunsOn.propagating {origin : CacheKey → Option Bytes}
    (run : RunsOn staged limit (Propagates staged) { origin } system) :
    Consistent staged system ∧ Propagating system := by
  induction run with
  | refl => exact ⟨consistent_start origin, propagating_start origin⟩
  | tail _ happens induction =>
    obtain ⟨event, step, up, propagates⟩ := happens
    exact ⟨induction.1.step step, induction.2.step induction.1 step up propagates⟩

/-- While no upload runs out of attempts, every batch reassembles, restarts find one dirty journal
for each key and repairs and deletes of a key do not overlap, every dirty journal that was indexed
is referenced by a buffer, a flush or a direct upload. -/
theorem dirty_journal_is_referenced (staged : String → StagedObject) (limit : Nat)
    (origin : CacheKey → Option Bytes) (system : System)
    (run : RunsOn staged limit (Propagates staged) { origin } system) (object : String)
    (dirty : system.Dirty object) (indexed : system.Established object) :
    system.References object := by
  rcases run.propagating.2.tracked object dirty with buffered | ⟨id, task, running, tracks⟩
  · exact .inl buffered
  · rcases mem_append.mp tracks with starts | uploads
    · exact absurd (mem_toList.mp starts) (indexed.indexed id task running)
    · exact .inr ⟨id, task, running, uploads⟩

/-- The task uploads, or reassembles what it is going to upload. -/
def Task.offloads : Task → Option Unit
  | .bypassing _ _ | .collecting _ _ _ _ _ | .packing _ _ _ _ _ _ => some ()
  | _ => none

/-- Some upload is under way. -/
def System.Offloading (system : System) : Prop :=
  ∃ id task, system.tasks id = some task ∧ task.offloads = some ()

theorem StaysUp.of_not_offloading (quiet : ¬before.Offloading) : StaysUp before after :=
  ⟨fun id _ _ running => absurd ⟨id, _, running, rfl⟩ quiet,
    fun id _ _ _ _ _ _ running => absurd ⟨id, _, running, rfl⟩ quiet⟩

theorem StaysUp.of_goes_on {next : Task}
    (tasks : after.tasks = update before.tasks id (some next)) : StaysUp before after := by
  have alive : ∀ other task, before.tasks other = some task → after.tasks other ≠ none := by
    intro other task running ended
    rw [tasks] at ended
    by_cases same : other = id
    · rw [same, update_self] at ended
      cases ended
    · rw [update_of_ne same, running] at ended
      cases ended
  exact ⟨fun other _ _ running ended => absurd ended (alive other _ running),
    fun other _ _ _ _ _ _ running => alive other _ running⟩

theorem runsOn_bufferedOnce {condition : System → Event → System → Prop}
    (quiet : ∀ before event after, ¬before.Offloading →
      event = .putStart "first" ∨ event = .progress → condition before event after) :
    RunsOn reportVersions 10 condition {} bufferedOnce := by
  have idle : ∀ {system : System}, (system.tasks 0).bind Task.offloads ≠ some () →
      (system.tasks 1).bind Task.offloads ≠ some () → (∀ id, system.tasks (id + 2) = none) →
      ¬system.Offloading := System.not_exists_task_of_two
  have start : RunsOn reportVersions 10 condition {} {} := .refl
  have staging := start.tail ⟨_, @Step.putStart _ _ _ 0 "first" rfl not_mem_nil
    (System.not_exists_task_of_two nofun nofun fun _ => rfl), .inr (.of_goes_on rfl),
    quiet _ _ _ (idle nofun nofun fun _ => rfl) (.inl rfl)⟩
  have journaling := staging.tail ⟨_, @Step.putJournal _ _ _ 0 "first" [] rfl
    (System.not_exists_task_of_two nofun nofun fun _ => rfl), .inr (.of_goes_on rfl),
    quiet _ _ _ (idle nofun nofun fun _ => rfl) (.inr rfl)⟩
  have settling := journaling.tail ⟨_, @Step.putIndex _ _ _ 0 1 "first" [] rfl rfl,
    .inr (.of_not_offloading (idle nofun nofun fun _ => rfl)),
    quiet _ _ _ (idle nofun nofun fun _ => rfl) (.inr rfl)⟩
  have acknowledged := settling.tail ⟨_, @Step.acknowledge _ _ _ 1 _ _ rfl,
    .inr (.of_not_offloading (idle nofun nofun fun _ => rfl)),
    quiet _ _ _ (idle nofun nofun fun _ => rfl) (.inr rfl)⟩
  have buffered := acknowledged.tail ⟨_, @Step.append _ _ _ 0 "first" _ rfl (by decide) rfl,
    .inr (.of_not_offloading (idle nofun nofun fun _ => rfl)),
    quiet _ _ _ (idle nofun nofun fun _ => rfl) (.inr rfl)⟩
  have ended : update (update (update (fun _ => none) 0
      (some (Task.settling "first"))) 1 none) 0 none = fun _ => none := by
    funext id
    match id with
    | 0 | 1 | _ + 2 => rfl
  simp only [System.run, System.finish, update_idem] at buffered
  rw [ended] at buffered
  exact buffered

variable {pack : Bytes} {rows : List PackedRow}

theorem RunsOn.giveUp {start : System} {stream : String × String} {packKey : String}
    (attempts : Nat) (alone : ∀ other, other ≠ id → system.tasks other = none)
    (run : RunsOn staged limit (fun _ _ _ => True) start
      (system.run id (.packing lock stream pack packKey rows attempts))) :
    RunsOn staged limit (fun _ _ _ => True) start (system.finish id) := by
  induction attempts with
  | zero =>
    have only : ∀ other task, (system.run id (.packing lock stream pack packKey rows 0)).tasks
        other = some task → task = .packing lock stream pack packKey rows 0 := by
      intro other task running
      rcases of_update_eq running with ⟨rfl, new⟩ | ⟨same, old⟩
      · exact (some.inj new).symm
      · exact nomatch (alone other same).symm.trans old
    have ended := run.tail ⟨_, .packStop (update_self id _ _),
      .inr ⟨fun other _ _ running => (nomatch only other _ running),
        fun other _ _ _ _ _ _ running => nomatch only other _ running⟩, trivial⟩
    simp only [System.run, System.finish, update_idem] at ended
    exact ended
  | succ attempts induction =>
    have failed := run.tail ⟨_, .packFail false (update_self id _ _),
      .inr (.of_goes_on rfl), trivial⟩
    simp only [System.storeIf, System.run, update_idem, Bool.false_eq_true, if_false] at failed
    exact induction failed

/-- The node after a flush has given up on the first version. -/
def abandonedReport : System where
  journals := bufferedOnce.journals
  buffers := Function.update bufferedOnce.buffers report.stream {}
  issued := ["first"]
  packKeys := ["_verglas/packs/1"]
  acked := bufferedOnce.acked

/-- A flush fails in all of its attempts and ends.  The acknowledged object that it took is still
dirty, but no task runs and no buffer holds it for the next drain. -/
theorem exhausted_flush_drops_dirty_journal :
    RunsOn reportVersions 10 (fun _ _ _ => True) {} abandonedReport ∧
      abandonedReport.acked report = some [1] ∧ abandonedReport.Dirty "first" ∧
      abandonedReport.Established "first" ∧ ¬abandonedReport.References "first" ∧
      abandonedReport.journals.findDirty report = some "first" := by
  have buffered : RunsOn reportVersions 10 (fun _ _ _ => True) {} bufferedOnce :=
    runsOn_bufferedOnce fun _ _ _ _ _ => trivial
  have draining := buffered.tail ⟨_, @Step.drain _ _ _ 0 report.stream _ _ rfl rfl,
    .inr (.of_goes_on rfl), trivial⟩
  have collected := draining.tail ⟨_, @Step.collect _ _ _ 0 _ _ _ _ _ _ _ rfl rfl rfl,
    .inr (.of_goes_on rfl), trivial⟩
  have started := collected.tail ⟨_, @Step.packStart _ _ _ 0 _ _ _ _ "_verglas/packs/1" rfl
    (by simp) (by decide) not_mem_nil, .inr (.of_goes_on rfl), trivial⟩
  simp only [System.run, update_idem] at started
  have packing : RunsOn reportVersions 10 (fun _ _ _ => True) {} (abandonedReport.run 0
      (.packing none report.stream [1] "_verglas/packs/1" [⟨"first", report, 0, 1⟩]
        propagationAttempts)) := started
  have ended := RunsOn.giveUp propagationAttempts (fun _ _ => rfl) packing
  have idle : update abandonedReport.tasks 0 none = abandonedReport.tasks :=
    update_eq_self_iff.mpr rfl
  rw [System.finish, idle] at ended
  refine ⟨ended, rfl, ⟨_, rfl, rfl⟩, ⟨mem_cons_self, fun _ _ running => by cases running⟩, ?_,
    rfl⟩
  rintro (⟨stream, entry, waits, _⟩ | ⟨id, task, running, _⟩)
  · have unused : abandonedReport.buffers stream = {} := by
      simp [abandonedReport, bufferedOnce]
    rw [unused] at waits
    cases waits
  · cases running

/-- The node while a flush collects what a drain took out of the stream. -/
def drainedReport (batch : List PendingEntry) (pack : Bytes) (rows : List PackedRow) : System :=
  { bufferedOnce with buffers := update bufferedOnce.buffers report.stream {} }.run 0
    (.collecting none report.stream batch pack rows)

theorem collecting_of_drainedReport {batch : List PendingEntry} {task : Task}
    (running : (drainedReport batch pack rows).tasks id = some task) :
    task = .collecting none report.stream batch pack rows := by
  rcases of_update_eq running with ⟨_, new⟩ | ⟨_, old⟩
  · exact (some.inj new).symm
  · cases old

/-- A drain takes the acknowledged object out of its stream and reassembles it: the flush refers to
it, and no buffer does. -/
theorem dirty_journal_is_referenced_buffered :
    let system := drainedReport [] [1] [⟨"first", report, 0, 1⟩]
    RunsOn reportVersions 10 (Propagates reportVersions) {} system ∧ system.Dirty "first" ∧
      (system.buffers report.stream).pending = [] ∧ system.References "first" := by
  intro system
  have quietly : ∀ before event after, ¬before.Offloading →
      event = .putStart "first" ∨ event = .progress →
      Propagates reportVersions before event after := by
    intro before event after quiet starts
    refine ⟨fun id _ running => quiet ⟨id, _, running, rfl⟩,
      fun id _ _ _ _ _ running => quiet ⟨id, _, running, rfl⟩,
      fun id _ _ _ _ _ _ running => absurd ⟨id, _, running, rfl⟩ quiet, ?_, ?_, ?_⟩
    · rintro rfl
      simp at starts
    · rintro object rfl
      simp at starts
    · rintro key rfl
      simp at starts
  have buffered : RunsOn reportVersions 10 (Propagates reportVersions) {} bufferedOnce :=
    runsOn_bufferedOnce quietly
  have drained : RunsOn reportVersions 10 (Propagates reportVersions) {}
      (drainedReport [entryOf reportVersions "first"] [] []) :=
    buffered.tail ⟨_, @Step.drain _ _ _ 0 report.stream _ _ rfl rfl, .inr (.of_goes_on rfl),
      quietly _ _ _ (by rintro ⟨_, _, running, _⟩; cases running) (.inr rfl)⟩
  have reassembled : Propagates reportVersions
      (drainedReport [entryOf reportVersions "first"] [] []) (.collect "first") system := by
    refine ⟨fun _ _ running => ?_, fun _ _ _ _ _ _ running => ?_, ?_, by rintro ⟨⟩,
      by rintro _ ⟨⟩, by rintro _ ⟨⟩⟩
    · cases collecting_of_drainedReport running
    · cases collecting_of_drainedReport running
    · intro id lock stream entry batch pack rows running skipped
      cases collecting_of_drainedReport running
      cases collecting_of_drainedReport skipped
  have collected : RunsOn reportVersions 10 (Propagates reportVersions) {} system := by
    have step := @Step.collect reportVersions 10 (drainedReport _ [] []) 0 none report.stream
      (entryOf reportVersions "first") [] [] [] _ rfl rfl rfl
    rw [System.run, drainedReport, System.run, update_idem] at step
    exact drained.tail ⟨_, step, .inr (.of_goes_on (update_idem _ _ _).symm), reassembled⟩
  have dirty : system.Dirty "first" := ⟨_, rfl, rfl⟩
  refine ⟨collected, dirty, rfl, dirty_journal_is_referenced reportVersions 10 (fun _ => none) _
    collected "first" dirty ⟨mem_cons_self, fun id task running => ?_⟩⟩
  cases collecting_of_drainedReport running
  rintro ⟨⟩

end Verglas.Writeback
