import Verglas.Writeback.Consistency

/-!
# Deletes

A delete removes the object of a key from the origin, its row from the pack index, and the one
journal that the dirty index names.  The key stays deleted, across restarts, when nothing else holds
it as the delete starts: every dirty journal of the key is the indexed one, no flush has read the
key and not yet inserted its row, and repair holds no dirty copy of its journal.
-/

namespace Verglas.Writeback

open Function List Option JournalStore

namespace System

variable (system : System) (key : CacheKey)

/-- A dirty journal of the key lies on disk. -/
def DirtyFile (object : String) : Prop :=
  ∃ journal, system.journals.read object = some journal ∧ journal.indexKey = key ∧
    journal.state = .dirty

/-- A task is deleting the key. -/
def Deleting : Prop := ∃ id phase, system.tasks id = some (.deleting key phase)

/-- Every dirty journal of the key is the one that the index names. -/
def NamesDirty : Prop := ∀ object, system.DirtyFile key object → system.holder key = some object

end System

section Quiet

variable (staged : String → StagedObject) (key : CacheKey)

/-- Rows that a flush has read and not yet inserted. -/
def Task.pendingRows : Task → List PackedRow
  | .collecting _ _ _ _ rows | .packing _ _ _ _ rows _ | .indexing _ _ rows _ => rows
  | _ => []

/-- The state in which a delete of the key may start: nothing but the dirty index holds the key. -/
structure Deletable (system : System) : Prop where
  plain : ¬Reserved key.key
  named : system.NamesDirty key
  rows : ∀ id task, system.tasks id = some task → ∀ row ∈ task.pendingRows, row.key ≠ key
  copies : ∀ id journal rest, system.tasks id = some (.rewriting journal rest) →
    journal.indexKey = key → journal.state = .clean

/-- No write and no delete of the key starts. -/
def NothingStarts (_ : System) : Event → Prop
  | .putStart object => (staged object).key ≠ key
  | .writeStart other _ => other ≠ key
  | .deleteStart other => other ≠ key
  | _ => True

/-- No write and no other delete of the key starts, and until the delete is over no flush and no
repair reads a journal of the key. -/
def Undisturbed (system : System) : Event → Prop
  | .putStart object => (staged object).key ≠ key
  | .writeStart other _ => other ≠ key
  | .deleteStart other => other ≠ key
  | .collect object | .repairRead object => system.Deleting key → (staged object).key ≠ key
  | .repairStart | .restart | .progress => True

/-- The task will not bring the key back. -/
def Task.Quiet : Task → Prop
  | .staging object | .journaling object _ | .putting object _ _ => (staged object).key ≠ key
  | .writing other _ => other ≠ key
  | .collecting _ _ _ _ rows | .packing _ _ _ _ rows _ | .indexing _ _ rows _ =>
    ∀ row ∈ rows, row.key ≠ key
  | .rewriting journal _ => journal.indexKey = key → journal.state = .clean
  | .deleting other _ => other ≠ key
  | _ => True

/-- The key is gone and nothing will bring it back. -/
structure Deleted (system : System) : Prop where
  tasks : ∀ id task, system.tasks id = some task → task.Quiet staged key
  clean : ∀ object, ¬system.DirtyFile key object
  unnamed : system.holder key = none
  unpacked : system.packs key = none
  absent : system.origin key = none

/-- What a delete has achieved when it reaches a phase. -/
def DeletePhase.Facts (system : System) : DeletePhase → Prop
  | .origin => system.NamesDirty key
  | .row => system.NamesDirty key ∧ system.origin key = none
  | .find => system.NamesDirty key ∧ system.origin key = none ∧ system.packs key = none
  | .index object =>
    system.NamesDirty key ∧ system.origin key = none ∧ system.packs key = none ∧
      (system.holder key = some object ∨ system.holder key = none)
  | .file object =>
    (∀ other, system.DirtyFile key other → other = object) ∧ system.origin key = none ∧
      system.packs key = none ∧ system.holder key = none

/-- A delete is under way, alone with its key. -/
structure DeletingAlone (id : Nat) (phase : DeletePhase) (system : System) : Prop where
  running : system.tasks id = some (.deleting key phase)
  alone : ∀ other task, other ≠ id → system.tasks other = some task → task.lock staged ≠ some key
  tasks : ∀ other task, other ≠ id → system.tasks other = some task → task.Quiet staged key
  facts : phase.Facts key system

end Quiet

variable {staged : String → StagedObject} {limit : Nat} {before after system : System}
  {key : CacheKey}

/-- The steps of a delete of the key. -/
def Advances (key : CacheKey) (id : Nat) (before after : System) : DeletePhase → Prop
  | .origin =>
    after = { before with origin := update before.origin key none }.run id
        (.deleting key .row) ∨
      ∃ origin, after = { before with origin }.finish id
  | .row =>
    after = { before with packs := update before.packs key none }.run id
      (.deleting key .find)
  | .find =>
    before.holder key = none ∧
        after = { before with deleted := key :: before.deleted }.finish id ∨
      ∃ object, before.holder key = some object ∧
        after = before.run id (.deleting key (.index object))
  | .index object =>
    (∃ journal, before.journals.read object = some journal ∧
        after = { before with journals := before.journals.removeIndex journal }.run id
          (.deleting key (.file object))) ∨
      before.journals.read object = none ∧
        after = before.run id (.deleting key (.file object))
  | .file object =>
    after = { before with
      journals := before.journals.removeFile object
      deleted := key :: before.deleted }.finish id

/-- What the steps of quiet tasks can do to a key. -/
structure KeyEffects (staged : String → StagedObject) (key : CacheKey) (before after : System) :
    Prop where
  dirty : ∀ object, after.DirtyFile key object → before.DirtyFile key object
  holder : after.holder key = before.holder key ∨
    after.holder key = none ∧ ∀ object, before.holder key = some object →
      ¬after.DirtyFile key object
  packs : before.packs key = none → after.packs key = none
  origin : before.origin key = none → after.origin key = none
  deleted : key ∈ after.deleted → key ∈ before.deleted
  tasks : ∀ id task, after.tasks id = some task → before.tasks id = some task ∨
    task.Quiet staged key ∧ (task.lock staged = some key →
      (∃ old, before.tasks id = some old ∧ old.lock staged = some key) ∨
        ¬before.Locked staged key)
  deletes : ∀ id phase, before.tasks id = some (.deleting key phase) →
    after.tasks id = some (.deleting key phase)

theorem KeyEffects.namesDirty (effects : KeyEffects staged key before after)
    (named : before.NamesDirty key) : after.NamesDirty key := by
  intro object dirty
  have names := named object (effects.dirty object dirty)
  rcases effects.holder with same | ⟨_, retired⟩
  · exact same.trans names
  · exact absurd dirty (retired object names)

theorem KeyEffects.unnamed (effects : KeyEffects staged key before after)
    (unnamed : before.holder key = none) : after.holder key = none := by
  rcases effects.holder with same | ⟨freed, _⟩
  · exact same.trans unnamed
  · exact freed

theorem KeyEffects.facts (effects : KeyEffects staged key before after) {phase : DeletePhase}
    (facts : phase.Facts key before) : phase.Facts key after := by
  cases phase with
  | origin => exact effects.namesDirty facts
  | row => exact ⟨effects.namesDirty facts.1, effects.origin facts.2⟩
  | find =>
    exact ⟨effects.namesDirty facts.1, effects.origin facts.2.1, effects.packs facts.2.2⟩
  | index object =>
    obtain ⟨named, absent, unpacked, names⟩ := facts
    refine ⟨effects.namesDirty named, effects.origin absent, effects.packs unpacked, ?_⟩
    rcases effects.holder with same | ⟨freed, _⟩
    · exact same ▸ names
    · exact .inr freed
  | file object =>
    obtain ⟨single, absent, unpacked, unnamed⟩ := facts
    exact ⟨fun other dirty => single other (effects.dirty other dirty), effects.origin absent,
      effects.packs unpacked, effects.unnamed unnamed⟩

variable {journal : Journal}

theorem dirtyFile_of_write (journals : after.journals = before.journals.writeFsynced journal)
    (object : String) :
    after.DirtyFile key object ↔
      object = journal.objectId ∧ journal.indexKey = key ∧ journal.state = .dirty ∨
        object ≠ journal.objectId ∧ before.DirtyFile key object := by
  rw [System.DirtyFile, journals, read_writeFsynced]
  split_ifs with same
  · simp [same]
  · simp [same, System.DirtyFile]

theorem dirtyFile_of_remove {gone : String}
    (journals : after.journals = before.journals.removeFile gone) (object : String) :
    after.DirtyFile key object ↔ object ≠ gone ∧ before.DirtyFile key object := by
  rw [System.DirtyFile, journals, read_removeFile]
  split_ifs with same
  · simp [same]
  · exact (and_iff_right same).symm

namespace KeyEffects

variable {id : Nat} {next task : Task} {object : String}

/-- What a step that leaves the key alone does to the shared state: unless said otherwise, nothing.
-/
structure Spares (key : CacheKey) (before after : System) : Prop where
  dirty : ∀ object, after.DirtyFile key object → before.DirtyFile key object := by
    exact fun _ dirty => dirty
  holder : after.holder key = before.holder key ∨
    after.holder key = none ∧ ∀ object, before.holder key = some object →
      ¬after.DirtyFile key object := by exact .inl rfl
  packs : before.packs key = none → after.packs key = none := by exact fun unpacked => unpacked
  origin : before.origin key = none → after.origin key = none := by exact fun absent => absent
  deleted : key ∈ after.deleted → key ∈ before.deleted := by exact fun told => told

theorem of_step {next : Option Task} (tasks : after.tasks = update before.tasks id next)
    (other : ∀ phase, before.tasks id ≠ some (.deleting key phase))
    (quiet : ∀ moved, next = some moved → moved.Quiet staged key)
    (lock : ∀ moved, next = some moved → moved.lock staged = some key →
      (∃ old, before.tasks id = some old ∧ old.lock staged = some key) ∨
        ¬before.Locked staged key)
    (spares : Spares key before after) : KeyEffects staged key before after where
  dirty := spares.dirty
  holder := spares.holder
  packs := spares.packs
  origin := spares.origin
  deleted := spares.deleted
  tasks moved_id moved now := by
    rw [tasks] at now
    rcases of_update_eq now with ⟨rfl, new⟩ | ⟨_, now⟩
    · exact .inr ⟨quiet moved new, lock moved new⟩
    · exact .inl now
  deletes delete phase running := by
    rw [tasks, update_of_ne]
    · exact running
    · rintro rfl
      exact other phase running

theorem enter (idle : before.tasks id = none)
    (tasks : after.tasks = update before.tasks id (some next))
    (quiet : next.Quiet staged key) (lock : next.lock staged ≠ some key)
    (spares : Spares key before after) : KeyEffects staged key before after := by
  refine .of_step tasks (fun phase now => nomatch idle.symm.trans now) ?_ ?_ spares
  · rintro _ ⟨⟩
    exact quiet
  · rintro _ ⟨⟩ holds
    exact absurd holds lock

section
variable (running : before.tasks id = some task) (other : ∀ phase, task ≠ .deleting key phase)
include running other

theorem stop (tasks : after.tasks = update before.tasks id none)
    (spares : Spares key before after) : KeyEffects staged key before after :=
  .of_step tasks (fun phase now => other phase (some.inj (running.symm.trans now)))
    (fun _ => nofun) (fun _ => nofun) spares

theorem go (tasks : after.tasks = update before.tasks id (some next))
    (quiet : next.Quiet staged key)
    (lock : next.lock staged = none ∨ next.lock staged = task.lock staged)
    (spares : Spares key before after) : KeyEffects staged key before after := by
  refine .of_step tasks (fun phase now => other phase (some.inj (running.symm.trans now)))
    ?_ ?_ spares
  · rintro _ ⟨⟩
    exact quiet
  · rintro _ ⟨⟩ holds
    rcases lock with none_held | kept
    · exact absurd (none_held.symm.trans holds) nofun
    · exact .inl ⟨task, running, kept.symm.trans holds⟩

variable {name : CacheKey} {body : Bytes} (landed : Bool) (ne : key ≠ name)
  (quiet : next.Quiet staged key)
  (lock : next.lock staged = none ∨ next.lock staged = task.lock staged)
include ne quiet lock

theorem store : KeyEffects staged key before ((before.store name body).run id next) :=
  go running other rfl quiet lock
    { origin := fun absent => (update_of_ne ne _ _).trans absent }

theorem storeIf :
    KeyEffects staged key before ((before.storeIf landed name body).run id next) := by
  cases landed with
  | true => exact store running other ne quiet lock
  | false => exact go running other rfl quiet lock {}

end

section
variable {other : CacheKey} {phase moved : DeletePhase} (ne : other ≠ key)
  (running : before.tasks id = some (.deleting other phase)) (spares : Spares key before after)
include ne running spares

theorem go_delete
    (tasks : after.tasks = update before.tasks id (some (.deleting other moved))) :
    KeyEffects staged key before after :=
  go running (fun _ both => ne (Task.deleting.inj both).1) tasks ne (.inr rfl) spares

theorem stop_delete (tasks : after.tasks = update before.tasks id none) :
    KeyEffects staged key before after :=
  stop running (fun _ both => ne (Task.deleting.inj both).1) tasks spares

end

theorem dirtyFile_writeFsynced (journals : after.journals = before.journals.writeFsynced journal)
    (harmless : journal.indexKey = key → journal.state = .clean)
    (dirty : after.DirtyFile key object) : before.DirtyFile key object := by
  rcases (dirtyFile_of_write journals object).mp dirty with ⟨_, key_eq, state⟩ | ⟨_, old⟩
  · exact nomatch (harmless key_eq).symm.trans state
  · exact old

theorem dirtyFile_addPlacement {placed : String} {placement : Placement}
    (inv : Consistent staged before)
    (journals : after.journals = before.journals.addPlacement placed placement) :
    after.DirtyFile key object ↔ before.DirtyFile key object := by
  rcases inv.journals.addPlacement_cases placed placement with
    same | ⟨journal, placements, found, rfl, _, written⟩
  · rw [System.DirtyFile, journals, same]
    rfl
  · rw [dirtyFile_of_write (journals.trans written)]
    constructor
    · rintro (⟨rfl, key_eq, state⟩ | ⟨_, old⟩)
      · exact ⟨journal, found, key_eq, state⟩
      · exact old
    · rintro ⟨old, old_found, key_eq, state⟩
      by_cases same : object = journal.objectId
      · subst same
        cases found.symm.trans old_found
        exact .inl ⟨rfl, key_eq, state⟩
      · exact .inr ⟨same, old, old_found, key_eq, state⟩

theorem dirty_addPlacement (journals : JournalStore) (object : String) (placement : Placement) :
    (journals.addPlacement object placement).dirty = journals.dirty := by
  cases found : journals.read object with
  | none => rw [addPlacement, found]
  | some journal =>
    rw [addPlacement, found]
    dsimp only
    split
    · rfl
    · rfl

theorem holder_removeIndex (journals : JournalStore) (journal : Journal) (key : CacheKey) :
    (journals.removeIndex journal).dirty.holder key = journals.dirty.holder key ∨
      (journals.removeIndex journal).dirty.holder key = none ∧
        journals.dirty.holder key = some journal.objectId ∧ journal.indexKey = key := by
  by_cases same : key = journal.indexKey
  · subst same
    by_cases names : journals.dirty.holder journal.indexKey = some journal.objectId
    · exact .inr ⟨(DirtyIndex.holder_remove_self _ _ _).trans (if_pos names), names, rfl⟩
    · exact .inl ((DirtyIndex.holder_remove_self _ _ _).trans (if_neg names))
  · exact .inl (DirtyIndex.holder_remove_of_ne _ _ same)

theorem unindex (running : before.tasks id = some task)
    (other : ∀ phase, task ≠ .deleting key phase) (retired : before.Retired journal.objectId)
    (quiet : next.Quiet staged key)
    (lock : next.lock staged = none ∨ next.lock staged = task.lock staged) :
    KeyEffects staged key before
      ({ before with journals := before.journals.removeIndex journal }.run id next) := by
  refine go running other rfl quiet lock { holder := ?_ }
  rcases holder_removeIndex before.journals journal key with same | ⟨freed, names, _⟩
  · exact .inl same
  refine .inr ⟨freed, fun object named => ?_⟩
  cases names.symm.trans named
  rintro ⟨found, read, _, state⟩
  exact absurd ((retired.file found read).symm.trans state) nofun

theorem putIndex {handler : Nat} {placements : List Placement}
    (running : before.tasks id = some (.journaling object placements))
    (idle : before.tasks handler = none) (ne : (staged object).key ≠ key) :
    KeyEffects staged key before
      (({ before with
        journals := before.journals.insertIndex (journalOf staged object placements) }.run id
          (.settling object)).run handler
            (.returning (staged object).key (staged object).body)) where
  dirty _ dirty := dirty
  holder := .inl (DirtyIndex.holder_insert_of_ne _ _ ne.symm)
  packs unpacked := unpacked
  origin absent := absent
  deleted told := told
  tasks other task now := by
    rcases of_update_eq now with ⟨rfl, new⟩ | ⟨_, earlier⟩
    · cases new
      exact .inr ⟨trivial, nofun⟩
    · rcases of_update_eq earlier with ⟨rfl, new⟩ | ⟨_, old⟩
      · cases new
        exact .inr ⟨trivial, fun holds => absurd (some.inj holds) ne⟩
      · exact .inl old
  deletes other phase deleting := by
    refine (update_of_ne ?_ _ _).trans ((update_of_ne ?_ _ _).trans deleting)
    · rintro rfl
      exact nomatch idle.symm.trans deleting
    · rintro rfl
      exact nomatch running.symm.trans deleting

end KeyEffects

variable {event : Event}

/-- A step other than a restart is a step of a delete of the key, or leaves the key alone. -/
theorem Step.keyEffects (happens : Step staged limit before event after)
    (inv : Consistent staged before) (plain : ¬Reserved key.key) (running_on : event ≠ .restart)
    (undisturbed : Undisturbed staged key before event)
    (quiet : ∀ id task, before.tasks id = some task → (∀ phase, task ≠ .deleting key phase) →
      task.Quiet staged key)
    (uploads : ∀ id object attempts, before.tasks id = some (.bypassing object attempts) →
      ¬before.DirtyFile key object)
    (reads : ∀ object, event = .collect object ∨ event = .repairRead object →
      ¬before.DirtyFile key object) :
    (∃ id phase, before.tasks id = some (.deleting key phase) ∧
      Advances key id before after phase) ∨ KeyEffects staged key before after := by
  cases happens with
  | putStart idle fresh _ | deleteStart idle _ =>
    exact .inr (.enter idle rfl undisturbed (fun holds => undisturbed (some.inj holds)) {})
  | putFail running | acknowledge running | append running _ _ | resumeGone running _
  | bypassStop running | packNothing running | packStop running | markDone running
  | writeFail running | repairDone running => exact .inr (.stop running nofun rfl {})
  | putJournal placements running _ =>
    have elsewhere := quiet _ _ running nofun
    exact .inr (.go running nofun rfl elsewhere (.inr rfl)
      { dirty := fun object => KeyEffects.dirtyFile_writeFsynced rfl (absurd · elsewhere) })
  | putIndex running idle => exact .inr (.putIndex running idle (quiet _ _ running nofun))
  | straggle placement running _ =>
    refine .inr ⟨fun object => (KeyEffects.dirtyFile_addPlacement inv rfl).mp, .inl ?_,
      fun unpacked => unpacked, fun absent => absent, fun told => told,
      fun _ _ now => .inl now, fun _ _ now => now⟩
    exact congrArg (fun index => DirtyIndex.holder index key) (KeyEffects.dirty_addPlacement _ _ _)
  | bypass running _ | bypassUnbound running _ _ _ | indexDone running | markRead running _ _
  | markGone running _ _ | discardGone running _ | repairSkip running =>
    exact .inr (.go running nofun rfl trivial (.inr rfl) {})
  | appendFlush running _ _ =>
    exact .inr (.go running nofun rfl nofun (.inr rfl) {})
  | drain idle _ => exact .inr (.enter idle rfl nofun nofun {})
  | resume running found unlocked =>
    refine .inr (.of_step rfl (fun phase now => nomatch running.symm.trans now) ?_ ?_ {})
    · rintro _ ⟨⟩
      trivial
    · rintro _ ⟨⟩ holds
      refine .inr ?_
      rw [(inv.journals.named _ _ found).2, some.inj holds] at unlocked
      exact unlocked
  | bypassRead running found dirty _ =>
    refine .inr (.go running nofun rfl ?_ (.inr rfl) {})
    intro same
    exact uploads _ _ _ running ⟨_, found, (inv.journals.named _ _ found).2.trans same, dirty⟩
  | bypassPut running =>
    refine .inr (.store running nofun ?_ trivial (.inr rfl))
    rw [inv.known _ _ running]
    exact (quiet _ _ running nofun).symm
  | bypassPutFail landed running =>
    refine .inr (.storeIf running nofun landed ?_ trivial (.inr rfl))
    rw [inv.known _ _ running]
    exact (quiet _ _ running nofun).symm
  | @collect id lock stream entry batch pack rows journal running found dirty =>
    refine .inr (.go running nofun rfl ?_ (.inr rfl) {})
    refine forall_mem_append.mpr ⟨quiet _ _ running nofun, forall_mem_singleton.mpr ?_⟩
    have in_stream := inv.known _ _ running entry mem_cons_self
    have key_of_journal := (inv.journals.named _ _ found).2
    intro same
    refine reads _ (.inl rfl) ⟨journal, found, ?_, dirty⟩
    rw [← same, key_of_journal, ← in_stream, ← key_of_journal]
    rfl
  | collectSkip running | packStart running _ _ _ =>
    have elsewhere := quiet _ _ running nofun
    exact .inr (.go running nofun rfl elsewhere (.inr rfl) {})
  | packUpload running =>
    have elsewhere := quiet _ _ running nofun
    refine .inr (.store running nofun ?_ elsewhere (.inr rfl))
    rintro rfl
    exact plain (inv.known _ _ running)
  | packFail landed running =>
    have elsewhere := quiet _ _ running nofun
    refine .inr (.storeIf running nofun landed ?_ elsewhere (.inr rfl))
    rintro rfl
    exact plain (inv.known _ _ running)
  | indexRow running =>
    have elsewhere := quiet _ _ running nofun
    have apart := (elsewhere _ mem_cons_self).symm
    exact .inr (.go running nofun rfl
      (forall_mem_cons.mp elsewhere).2 (.inr rfl)
      { packs := fun unpacked => (update_of_ne apart _ _).trans unpacked })
  | markWrite running =>
    exact .inr (.go running nofun rfl trivial (.inr rfl)
      { dirty := fun object => KeyEffects.dirtyFile_writeFsynced rfl (fun _ => rfl) })
  | markIndex running =>
    exact .inr (.unindex running nofun (inv.known _ _ running).2 trivial (.inr rfl))
  | discardIndex running found =>
    have retired := inv.known _ _ running
    rw [← (inv.journals.named _ _ found).1] at retired
    exact .inr (.unindex running nofun retired trivial (.inr rfl))
  | erase running =>
    exact .inr (.go running nofun rfl trivial (.inr rfl)
      { dirty := fun object dirty => ((dirtyFile_of_remove rfl object).mp dirty).2 })
  | writeStart idle => exact .inr (.enter idle rfl undisturbed nofun {})
  | writeEffect running =>
    exact .inr (.store running nofun (quiet _ _ running nofun).symm trivial (.inl rfl))
  | repairStart idle => exact .inr (.enter idle rfl trivial nofun {})
  | @repairRead id object rest journal placements running _ found =>
    refine .inr (.go running nofun rfl ?_ (.inl rfl) {})
    intro same
    cases state : journal.state with
    | clean => rfl
    | dirty => exact absurd ⟨journal, found, same, state⟩ (reads _ (.inr rfl))
  | repairWrite running =>
    have harmless := quiet _ _ running nofun
    exact .inr (.go running nofun rfl trivial (.inr rfl)
      { dirty := fun object => KeyEffects.dirtyFile_writeFsynced rfl harmless })
  | restart => exact absurd rfl running_on
  -- A delete: of the key, or of another one.
  | @deleteOrigin id other running =>
    by_cases same : other = key
    · subst same
      exact .inl ⟨id, .origin, running, .inl rfl⟩
    · exact .inr (.go_delete same running
        { origin := fun absent => (update_of_ne (Ne.symm same) _ _).trans absent } rfl)
  | @deleteOriginFail id other landed running =>
    by_cases same : other = key
    · subst same
      exact .inl ⟨id, .origin, running, .inr ⟨_, rfl⟩⟩
    · refine .inr (.stop_delete same running { origin := fun absent => ?_ } rfl)
      cases landed with
      | true => exact (update_of_ne (Ne.symm same) _ _).trans absent
      | false => exact absent
  | @deleteRow id other running =>
    by_cases same : other = key
    · subst same
      exact .inl ⟨id, .row, running, rfl⟩
    · exact .inr (.go_delete same running
        { packs := fun unpacked => (update_of_ne (Ne.symm same) _ _).trans unpacked }
        rfl)
  | @deleteNone id other running unnamed =>
    rw [findDirty_eq_holder] at unnamed
    by_cases same : other = key
    · subst same
      exact .inl ⟨id, .find, running, .inl ⟨unnamed, rfl⟩⟩
    · exact .inr (.stop_delete same running
        { deleted := fun told => (mem_cons.mp told).resolve_left (Ne.symm same) } rfl)
  | @deleteFind id other object running named =>
    rw [findDirty_eq_holder] at named
    by_cases same : other = key
    · subst same
      exact .inl ⟨id, .find, running, .inr ⟨object, named, rfl⟩⟩
    · exact .inr (.go_delete same running {} rfl)
  | @deleteIndex id other object journal running found =>
    by_cases same : other = key
    · subst same
      exact .inl ⟨id, .index object, running, .inl ⟨journal, found, rfl⟩⟩
    · refine .inr (.go_delete same running { holder := .inl ?_ } rfl)
      refine DirtyIndex.holder_remove_of_ne _ _ ?_
      rw [(inv.journals.named _ _ found).2, inv.known _ _ running]
      exact Ne.symm same
  | @deleteIndexGone id other object running gone =>
    by_cases same : other = key
    · subst same
      exact .inl ⟨id, .index object, running, .inr ⟨gone, rfl⟩⟩
    · exact .inr (.go_delete same running {} rfl)
  | @deleteFile id other object running =>
    by_cases same : other = key
    · subst same
      exact .inl ⟨id, .file object, running, rfl⟩
    · exact .inr (.stop_delete same running
        { dirty := fun _ dirty => ((dirtyFile_of_remove rfl _).mp dirty).2
          deleted := fun told => (mem_cons.mp told).resolve_left (Ne.symm same) } rfl)

theorem Deleted.step (deleted : Deleted staged key before) (inv : Consistent staged before)
    (plain : ¬Reserved key.key) (happens : Step staged limit before event after)
    (undisturbed : Undisturbed staged key before event) : Deleted staged key after := by
  by_cases restarts : event = .restart
  · subst restarts
    cases happens
    refine ⟨fun id task now => ?_, fun object dirty => ?_, ?_, rfl, deleted.absent⟩
    · obtain ⟨object, _, rfl⟩ := map_eq_some_iff.mp now
      trivial
    · obtain ⟨journal, found, rest⟩ := dirty
      exact deleted.clean object ⟨journal, (read_openStore _ _).symm.trans found, rest⟩
    · refine eq_none_iff_forall_ne_some.mpr fun object names => ?_
      obtain ⟨journal, found, dirty, key_eq⟩ := inv.journals.dirty_of_openStore names
      exact deleted.clean object ⟨journal, found, key_eq, dirty⟩
  · rcases happens.keyEffects inv plain restarts undisturbed
      (fun id task running _ => deleted.tasks id task running)
      (fun _ object _ _ => deleted.clean object) (fun object _ => deleted.clean object) with
      ⟨id, phase, running, _⟩ | effects
    · exact absurd rfl (deleted.tasks id _ running)
    refine ⟨fun id task now => ?_, fun object dirty => ?_, effects.unnamed deleted.unnamed,
      effects.packs deleted.unpacked, effects.origin deleted.absent⟩
    · rcases effects.tasks id task now with old | ⟨quiet, _⟩
      · exact deleted.tasks id task old
      · exact quiet
    · exact deleted.clean object (effects.dirty object dirty)

/-- A delete of the key has ended without success, is under way, or has succeeded for good. -/
def Outcome (staged : String → StagedObject) (key : CacheKey) (system : System) : Prop :=
  key ∉ system.deleted ∧ ¬system.Deleting key ∨
    key ∉ system.deleted ∧ (∃ id phase, DeletingAlone staged key id phase system) ∨
    Deleted staged key system

namespace DeletingAlone

variable {id : Nat} {phase : DeletePhase} (alone : DeletingAlone staged key id phase before)

include alone

theorem proceed {next : DeletePhase}
    (tasks : after.tasks = update before.tasks id (some (.deleting key next)))
    (facts : next.Facts key after) : DeletingAlone staged key id next after where
  running := by rw [tasks, update_self]
  alone other task ne now := by
    rw [tasks, update_of_ne ne] at now
    exact alone.alone other task ne now
  tasks other task ne now := by
    rw [tasks, update_of_ne ne] at now
    exact alone.tasks other task ne now
  facts := facts

theorem quiet_of_end (tasks : after.tasks = update before.tasks id none) (other : Nat) (task : Task)
    (now : after.tasks other = some task) : task.Quiet staged key := by
  rw [tasks] at now
  rcases of_update_eq now with ⟨rfl, new⟩ | ⟨same, now⟩
  · cases new
  · exact alone.tasks other task same now

theorem advance (inv : Consistent staged before)
    (untold : key ∉ before.deleted) (advances : Advances key id before after phase) :
    Outcome staged key after := by
  have facts := alone.facts
  cases phase with
  | origin =>
    rcases advances with rfl | ⟨origin, rfl⟩
    · refine .inr (.inl ⟨untold, id, .row, alone.proceed rfl ⟨facts, ?_⟩⟩)
      exact update_self _ _ _
    · refine .inl ⟨untold, ?_⟩
      rintro ⟨other, phase, now⟩
      exact alone.quiet_of_end rfl other _ now rfl
  | row =>
    cases advances
    refine .inr (.inl ⟨untold, id, .find, alone.proceed rfl ⟨facts.1, facts.2, ?_⟩⟩)
    exact update_self _ _ _
  | find =>
    obtain ⟨named, absent, unpacked⟩ := facts
    rcases advances with ⟨unnamed, rfl⟩ | ⟨object, names, rfl⟩
    · refine .inr (.inr ⟨alone.quiet_of_end rfl, fun object dirty => ?_, unnamed, unpacked, absent⟩)
      exact absurd (unnamed.symm.trans (named object dirty)) nofun
    · exact .inr (.inl ⟨untold, id, .index object,
        alone.proceed rfl ⟨named, absent, unpacked, .inl names⟩⟩)
  | index object =>
    obtain ⟨named, absent, unpacked, names⟩ := facts
    have key_eq : (staged object).key = key := inv.known id _ alone.running
    have single : ∀ other, before.DirtyFile key other → other = object := by
      intro other dirty
      have held := named other dirty
      rcases names with names | unnamed
      · exact some.inj (held.symm.trans names)
      · exact absurd (unnamed.symm.trans held) nofun
    rcases advances with ⟨journal, found, rfl⟩ | ⟨gone, rfl⟩
    · refine .inr (.inl ⟨untold, id, .file object,
        alone.proceed rfl ⟨single, absent, unpacked, ?_⟩⟩)
      rcases KeyEffects.holder_removeIndex before.journals journal key with same | ⟨freed, _⟩
      · rcases names with names | unnamed
        · have kept := same.trans names
          exact absurd (key_eq ▸ kept) (inv.unheld_removeIndex found)
        · exact same.trans unnamed
      · exact freed
    · refine .inr (.inl ⟨untold, id, .file object,
        alone.proceed rfl ⟨single, absent, unpacked, ?_⟩⟩)
      rcases names with names | unnamed
      · exact absurd (key_eq ▸ names) (inv.unheld_of_gone gone)
      · exact unnamed
  | file object =>
    obtain ⟨single, absent, unpacked, unnamed⟩ := facts
    cases advances
    refine .inr (.inr ⟨alone.quiet_of_end rfl, fun other dirty => ?_, unnamed, unpacked, absent⟩)
    obtain ⟨ne, dirty_before⟩ := (dirtyFile_of_remove rfl _).mp dirty
    exact ne (single other dirty_before)

/-- Every step leaves the delete under way, ends it or completes it. -/
theorem step {event : Event}
    (inv : Consistent staged before) (plain : ¬Reserved key.key) (untold : key ∉ before.deleted)
    (happens : Step staged limit before event after)
    (undisturbed : Undisturbed staged key before event) : Outcome staged key after := by
  by_cases restarts : event = .restart
  · subst restarts
    cases happens
    refine .inl ⟨untold, ?_⟩
    rintro ⟨other, phase, now⟩
    obtain ⟨object, _, impossible⟩ := map_eq_some_iff.mp now
    cases impossible
  · have only : ∀ other task, before.tasks other = some task →
        (∀ phase, task ≠ .deleting key phase) → other ≠ id := by
      rintro other task running not_deleting rfl
      exact not_deleting phase (some.inj (running.symm.trans alone.running))
    have effects := happens.keyEffects inv plain restarts undisturbed
      (fun other task running not_deleting =>
        alone.tasks other task (only other task running not_deleting) running)
      (fun other object attempts running dirty => ?_) (fun object event_eq dirty => ?_)
    · rcases effects with ⟨other, other_phase, running, advances⟩ | effects
      · have same : other = id := by
          by_contra ne
          exact alone.alone other _ ne running rfl
        subst same
        cases running.symm.trans alone.running
        exact alone.advance inv untold advances
      · refine .inr (.inl ⟨fun told => untold (effects.deleted told), id, phase,
          effects.deletes id phase alone.running, fun other task ne now holds => ?_,
          fun other task ne now => ?_, effects.facts alone.facts⟩)
        · rcases effects.tasks other task now with old | ⟨_, locks⟩
          · exact alone.alone other task ne old holds
          · rcases locks holds with ⟨old, running, old_holds⟩ | unlocked
            · exact alone.alone other old ne running old_holds
            · exact unlocked ⟨id, _, alone.running, rfl⟩
        · rcases effects.tasks other task now with old | ⟨quiet, _⟩
          · exact alone.tasks other task ne old
          · exact quiet
    · obtain ⟨journal, found, key_eq, _⟩ := dirty
      refine alone.alone other _ (only other _ running nofun) running ?_
      exact congrArg some ((inv.journals.named object journal found).2.symm.trans key_eq)
    · obtain ⟨journal, found, key_eq, _⟩ := dirty
      have same := (inv.journals.named object journal found).2.symm.trans key_eq
      rcases event_eq with rfl | rfl
      all_goals exact undisturbed ⟨id, phase, alone.running⟩ same

end DeletingAlone

theorem not_deleting_of_step {id : Nat} {next : Option Task} (idle : ¬before.Deleting key)
    (untold : key ∉ before.deleted)
    (tasks : after.tasks = update before.tasks id next)
    (other : ∀ phase, next ≠ some (.deleting key phase))
    (deleted : key ∈ after.deleted → key ∈ before.deleted) :
    key ∉ after.deleted ∧ ¬after.Deleting key := by
  refine ⟨fun told => untold (deleted told), ?_⟩
  rintro ⟨moved, phase, now⟩
  rw [tasks] at now
  rcases of_update_eq now with ⟨rfl, new⟩ | ⟨_, now⟩
  · exact other phase new
  · exact idle ⟨moved, phase, now⟩

theorem Step.not_deleting (happens : Step staged limit before event after)
    (undisturbed : Undisturbed staged key before event) (idle : ¬before.Deleting key)
    (untold : key ∉ before.deleted) : key ∉ after.deleted ∧ ¬after.Deleting key := by
  have elsewhere : ∀ {id other phase}, before.tasks id = some (.deleting other phase) →
      other ≠ key := by
    rintro id other phase running rfl
    exact idle ⟨id, phase, running⟩
  cases happens with
  | @putIndex id handler object placements running _ =>
    have settled : key ∉ (before.run id (.settling object)).deleted ∧
        ¬(before.run id (.settling object)).Deleting key :=
      not_deleting_of_step idle untold rfl nofun fun told => told
    exact not_deleting_of_step settled.2 settled.1 rfl nofun fun told => told
  | straggle => exact ⟨untold, idle⟩
  | bypassPutFail landed running | packFail landed running =>
    cases landed with
    | true | false => exact not_deleting_of_step idle untold rfl nofun fun told => told
  | deleteStart idle_id _ =>
    exact not_deleting_of_step idle untold rfl
      (fun _ both => undisturbed (Task.deleting.inj (some.inj both)).1) fun told => told
  | deleteOrigin running | deleteRow running | deleteFind running _ | deleteIndex running _
  | deleteIndexGone running _ =>
    exact not_deleting_of_step idle untold rfl
      (fun _ both => elsewhere running (Task.deleting.inj (some.inj both)).1)
      fun told => told
  | deleteNone running _ | deleteFile running =>
    exact not_deleting_of_step idle untold rfl nofun
      fun told => (mem_cons.mp told).resolve_left (elsewhere running).symm
  | restart =>
    refine ⟨untold, ?_⟩
    rintro ⟨id, phase, now⟩
    obtain ⟨object, _, impossible⟩ := map_eq_some_iff.mp now
    cases impossible
  | _ => exact not_deleting_of_step idle untold rfl nofun fun told => told

theorem Outcome.step (outcome : Outcome staged key before) (inv : Consistent staged before)
    (plain : ¬Reserved key.key) (happens : Step staged limit before event after)
    (undisturbed : Undisturbed staged key before event) : Outcome staged key after := by
  rcases outcome with ⟨untold, idle⟩ | ⟨untold, id, phase, alone⟩ | deleted
  · exact .inl (happens.not_deleting undisturbed idle untold)
  · exact alone.step inv plain untold happens undisturbed
  · exact .inr (.inr (deleted.step inv plain happens undisturbed))

theorem Deletable.deletingAlone (ready : Deletable key before)
    (acknowledged : ¬before.InProgress staged key)
    (starts : Step staged limit before (.deleteStart key) after) :
    ∃ id, DeletingAlone staged key id .origin after := by
  cases starts with
  | @deleteStart id _ idle unlocked =>
    refine ⟨id, update_self _ _ _, fun other task ne now holds => ?_,
      fun other task ne now => ?_, ready.named⟩
    · exact unlocked ⟨other, task, (update_of_ne ne _ _).symm.trans now, holds⟩
    · have running := (update_of_ne ne _ _).symm.trans now
      have lock_ne : task.lock staged ≠ some key :=
        fun holds => unlocked ⟨other, task, running, holds⟩
      have writes_ne : task.writes staged ≠ some key :=
        fun writes => acknowledged ⟨other, task, running, writes⟩
      cases task with
      | staging object | journaling object placements | putting object journal attempts
      | deleting deleted phase => exact fun same => lock_ne (congrArg some same)
      | writing written body => exact fun same => writes_ne (congrArg some same)
      | collecting | packing | indexing => exact ready.rows other _ running
      | rewriting journal rest => exact ready.copies other journal rest running
      | _ => trivial

/-- A delete that starts on a deletable key, with its PUTs acknowledged, and that is not disturbed
is final once it returns: from then on, across restarts, the key has no dirty journal, no pack index
row and no object at the origin. -/
theorem delete_is_final (staged : String → StagedObject) (limit : Nat)
    (origin : CacheKey → Option Bytes) {started : System}
    (earlier : Run staged limit (fun _ _ => True) { origin } before)
    (starts : Step staged limit before (.deleteStart key) started)
    (acknowledged : ¬before.InProgress staged key) (first : key ∉ before.deleted)
    (ready : Deletable key before)
    (later : Run staged limit (Undisturbed staged key) started system)
    (returned : key ∈ system.deleted) :
    system.journals.findDirty key = none ∧ system.packs key = none ∧ system.origin key = none := by
  have consistent : Consistent staged started :=
    (earlier.consistent (consistent_start origin)).step starts
  have untold : key ∉ started.deleted := by
    cases starts
    exact first
  have outcome : Outcome staged key system := by
    clear returned
    induction later with
    | refl =>
      obtain ⟨id, alone⟩ := ready.deletingAlone acknowledged starts
      exact .inr (.inl ⟨untold, id, .origin, alone⟩)
    | step run happens undisturbed induction =>
      exact induction.step (run.consistent consistent) ready.plain happens undisturbed
  rcases outcome with ⟨told, _⟩ | ⟨told, _⟩ | deleted
  · exact absurd returned told
  · exact absurd returned told
  · exact ⟨(findDirty_eq_holder _ _).trans deleted.unnamed, deleted.unpacked, deleted.absent⟩

/-- The node after the first version was acknowledged: it waits in its offload stream. -/
def bufferedOnce : System where
  journals := JournalStore.put {} (journalOf reportVersions "first" [])
  buffers := update (fun _ => {}) report.stream ⟨[entryOf reportVersions "first"], 1⟩
  issued := ["first"]
  acked := update (fun _ => none) report (some [1])

/-- The node after the second version was acknowledged: both wait. -/
def bufferedTwice : System where
  journals := bufferedOnce.journals.put (journalOf reportVersions "second" [])
  buffers := update bufferedOnce.buffers report.stream
    ⟨[entryOf reportVersions "first", entryOf reportVersions "second"], 3⟩
  issued := ["second", "first"]
  acked := update bufferedOnce.acked report (some [2, 2])

theorem run_bufferedOnce : Run reportVersions 10 (fun _ _ => True) {} bufferedOnce :=
  Run.refl.putBuffered 0 1 "first" [] (by decide) rfl rfl not_mem_nil
    (System.not_exists_task_of_two nofun nofun fun _ => rfl)
    (System.not_exists_task_of_two nofun nofun fun _ => rfl) trivial (fun _ => trivial) (by decide)

theorem run_bufferedTwice : Run reportVersions 10 (fun _ _ => True) {} bufferedTwice :=
  run_bufferedOnce.putBuffered 0 1 "second" [] (by decide) rfl rfl (by decide)
    (System.not_exists_task_of_two nofun nofun fun _ => rfl)
    (System.not_exists_task_of_two nofun nofun fun _ => rfl) trivial (fun _ => trivial) (by decide)

/-- A delete returns while the journal of an older version waits in an offload stream; the next
flush makes the older version readable again. -/
theorem buffered_version_survives_delete :
    ∃ started system, Run reportVersions 10 (fun _ _ => True) {} bufferedTwice ∧
      ¬bufferedTwice.InProgress reportVersions report ∧ report ∉ bufferedTwice.deleted ∧
      Step reportVersions 10 bufferedTwice (.deleteStart report) started ∧
      Run reportVersions 10 (NothingStarts reportVersions report) started system ∧
      report ∈ system.deleted ∧ system.packs report ≠ none ∧
      system.get reportVersions report .full = .ok [1] := by
  have starts : Step reportVersions 10 bufferedTwice (.deleteStart report)
      (bufferedTwice.run 0 (.deleting report .origin)) :=
    .deleteStart rfl (System.not_exists_task_of_two nofun nofun fun _ => rfl)
  have start : Run reportVersions 10 (NothingStarts reportVersions report)
      (bufferedTwice.run 0 (.deleting report .origin))
      (bufferedTwice.run 0 (.deleting report .origin)) := .refl
  have absent := start.step (@Step.deleteOrigin _ _ _ 0 _ rfl) trivial
  have unpacked := absent.step (@Step.deleteRow _ _ _ 0 _ rfl) trivial
  have found := unpacked.step (@Step.deleteFind _ _ _ 0 _ "second" rfl rfl) trivial
  have unnamed := found.step (@Step.deleteIndex _ _ _ 0 _ _ _ rfl rfl) trivial
  have returned := unnamed.step (@Step.deleteFile _ _ _ 0 _ _ rfl) trivial
  have draining := returned.step (@Step.drain _ _ _ 0 report.stream _ _ rfl rfl) trivial
  have collected := draining.step (@Step.collect _ _ _ 0 _ _ _ _ _ _ _ rfl rfl rfl) trivial
  have skipped := collected.step (@Step.collectSkip _ _ _ 0 _ _ _ _ _ _ rfl) trivial
  have packing := skipped.step (@Step.packStart _ _ _ 0 _ _ _ _ "_verglas/packs/1" rfl nofun
    (by decide) not_mem_nil) trivial
  have indexing := packing.step (@Step.packUpload _ _ _ 0 _ _ _ _ _ _ rfl) trivial
  have indexed := indexing.step (@Step.indexRow _ _ _ 0 _ _ _ _ _ rfl) trivial
  exact ⟨_, _, run_bufferedTwice, System.not_exists_task_of_two nofun nofun fun _ => rfl,
    not_mem_nil, starts, indexed, mem_cons_self, nofun, rfl⟩

/-- With one version in the stream the delete is final, also after a restart. -/
theorem delete_is_final_buffered :
    ∃ started system, Step reportVersions 10 bufferedOnce (.deleteStart report) started ∧
      Run reportVersions 10 (Undisturbed reportVersions report) started system ∧
      report ∈ system.deleted ∧ system.journals.findDirty report = none ∧
      system.packs report = none ∧ system.origin report = none := by
  have starts : Step reportVersions 10 bufferedOnce (.deleteStart report)
      (bufferedOnce.run 0 (.deleting report .origin)) :=
    .deleteStart rfl (by rintro ⟨_, _, ⟨⟩, _⟩)
  have start : Run reportVersions 10 (Undisturbed reportVersions report)
      (bufferedOnce.run 0 (.deleting report .origin))
      (bufferedOnce.run 0 (.deleting report .origin)) := .refl
  have absent := start.step (@Step.deleteOrigin _ _ _ 0 _ rfl) trivial
  have unpacked := absent.step (@Step.deleteRow _ _ _ 0 _ rfl) trivial
  have found := unpacked.step (@Step.deleteFind _ _ _ 0 _ "first" rfl rfl) trivial
  have unnamed := found.step (@Step.deleteIndex _ _ _ 0 _ _ _ rfl rfl) trivial
  have returned := unnamed.step (@Step.deleteFile _ _ _ 0 _ _ rfl) trivial
  have restarted := returned.step .restart trivial
  have ready : Deletable report bufferedOnce := by
    refine ⟨by decide, ?_, fun _ _ running => (by cases running),
      fun _ _ _ running => by cases running⟩
    rintro object ⟨journal, read, _⟩
    have read_eq := (read_writeFsynced {} (journalOf reportVersions "first" [])
      object).symm.trans read
    split at read_eq
    · rename_i same
      rw [same]
      rfl
    · cases read_eq
  exact ⟨_, _, starts, restarted, mem_cons_self,
    delete_is_final reportVersions 10 (fun _ => none) run_bufferedOnce starts
      (by rintro ⟨_, _, ⟨⟩, _⟩) not_mem_nil ready restarted mem_cons_self⟩

end Verglas.Writeback
