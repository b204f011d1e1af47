import Verglas.Writeback.Deletion

/-!
# The life of one key

What becomes of one key while everything else runs free.  No two operations on the key overlap, and
no flush packs it.  Then the body that took effect last lies in the one dirty journal that the index
names or, without one, at the origin, and a restart finds it there.  A task that changes where the
key is read from holds the lock of the key; a task that changes what is read has a write or a delete
of the key in progress.
-/

namespace Verglas.Writeback

open Function

section Key

variable (staged : String → StagedObject) (key : CacheKey)

/-- The key that the task deletes. -/
def Task.deletes : Task → Option CacheKey
  | .deleting key _ => some key
  | _ => none

/-- The task holds the lock of the key. -/
def Task.locks (task : Task) : Option Unit :=
  if task.lock staged = some key then some () else none

/-- The task has a write or a delete of the key in progress. -/
def Task.changes (task : Task) : Option Unit :=
  if task.writes staged = some key ∨ task.deletes = some key then some () else none

/-- Some task changes the key. -/
def System.Busy (system : System) : Prop :=
  ∃ id task, system.tasks id = some task ∧ task.changes staged key = some ()

/-- Operations on the key do not overlap: a write starts without a dirty journal and without another
operation in progress, a delete without a write in progress and not while repair rewrites a journal
of the key, repair reads no journal of the key during a delete, and no restart interrupts a write.
No flush packs the key. -/
def Apart (system : System) : Event → Prop
  | .putStart object => (staged object).key = key →
      ¬system.InProgress staged key ∧ system.journals.findDirty key = none
  | .writeStart other _ => other = key →
      ¬system.InProgress staged key ∧ system.journals.findDirty key = none ∧ ¬system.Deleting key
  | .deleteStart other => other = key → ¬system.InProgress staged key ∧
      ∀ id journal rest, system.tasks id = some (.rewriting journal rest) → journal.indexKey ≠ key
  | .collect object => (staged object).key ≠ key
  | .repairRead object => (staged object).key = key → ¬system.Deleting key
  | .restart => ¬system.InProgress staged key
  | .repairStart | .progress => True

section Invariant

variable (latest : Option Bytes) (system : System)

/-- The object is the one that the index names for the key, and the origin has it. -/
structure Uploaded (object : String) : Prop where
  key_eq : (staged object).key = key
  held : system.holder key = some object
  stored : system.origin key = some (staged object).body

/-- The body of the key lies in its dirty journal, at the origin, or in both. -/
structure Readable (body : Bytes) : Prop where
  held : ∀ object, system.holder key = some object → (staged object).body = body ∧
    (system.DirtyFile key object ∨ system.origin key = some body)
  unheld : system.holder key = none → system.origin key = some body

/-- What a delete of the key knows of the index. -/
def DeletePhase.Minds : DeletePhase → Prop
  | .index object => system.holder key = some object
  | .file _ => system.holder key = none
  | .origin | .row | .find => True

/-- What a task knows of the key. -/
def Task.Minds : Task → Prop
  | .staging object => (staged object).key = key → system.holder key = none
  | .journaling object _ => (staged object).key = key →
      system.holder key = none ∧ system.DirtyFile key object
  | .returning other body => other = key → latest = some body
  | .putting object _ _ => (staged object).key = key → system.holder key = some object
  | .collecting _ _ _ _ rows | .packing _ _ _ _ rows _ =>
    ∀ row ∈ rows, row.key ≠ key ∧ (staged row.objectId).key ≠ key
  | .indexing _ _ rows packed =>
    (∀ row ∈ rows, row.key ≠ key) ∧ ∀ object ∈ packed, (staged object).key ≠ key
  | .marking lock packed => (∀ object ∈ packed, (staged object).key ≠ key) ∨
      ∃ object, packed = [object] ∧ lock = some key ∧ Uploaded staged key system object
  | .cleaning lock journal rest | .unindexing lock journal rest =>
    (∀ object ∈ journal.objectId :: rest, (staged object).key ≠ key) ∨
      rest = [] ∧ lock = some key ∧ Uploaded staged key system journal.objectId
  | .discarding lock object rest =>
    (∀ other ∈ object :: rest, (staged other).key ≠ key) ∨
      rest = [] ∧ lock = some key ∧ system.holder key = none
  | .erasing lock object rest =>
    (∀ other ∈ object :: rest, (staged other).key ≠ key) ∨
      rest = [] ∧ lock = some key ∧ system.holder key = none ∧ ¬system.DirtyFile key object
  | .writing other _ => other = key → system.holder key = none
  | .deleting other phase => other = key → latest = none ∧ phase.Minds key system
  | .rewriting journal _ => journal.indexKey = key →
      (journal.state = .dirty ↔ system.DirtyFile key journal.objectId) ∧ ¬system.Deleting key
  | .settling _ | .resuming _ | .bypassing _ _ | .repairing _ => True

/-- The journal that a task has written and not indexed, or is about to remove. -/
def Task.accounts : Task → Option String
  | .journaling object _ | .deleting _ (.file object) => some object
  | _ => none

/-- Who answers for a dirty journal of the key: the index, the PUT that writes it, or the delete
that removes it. -/
def System.Accounted (object : String) : Prop :=
  system.holder key = some object ∨
    (∃ id placements, system.tasks id = some (.journaling object placements)) ∨
      ∃ id, system.tasks id = some (.deleting key (.file object))

/-- The invariant of one key; `latest` is the body that took effect last, if no delete started
since. -/
structure KeyInvariant : Prop where
  unpacked : system.packs key = none
  locks : Exclusive (system.owned (Task.locks staged key))
  changes : Exclusive (system.owned (Task.changes staged key))
  current : ∀ body, latest = some body → Readable staged key system body
  dirty : ∀ object, system.DirtyFile key object → system.Accounted key object
  tasks : ∀ id task, system.tasks id = some task → task.Minds staged key latest system

end Invariant

end Key

variable {staged : String → StagedObject} {limit : Nat} {key : CacheKey}
  {latest later : Option Bytes} {before after system : System} {task : Task}

theorem Task.locks_eq_some : task.locks staged key = some () ↔ task.lock staged = some key := by
  simp [Task.locks]

theorem Task.changes_eq_some :
    task.changes staged key = some () ↔
      task.writes staged = some key ∨ task.deletes = some key := by
  rw [Task.changes]
  split_ifs with changing
  · exact iff_of_true rfl changing
  · exact iff_of_false nofun changing

theorem System.busy_iff :
    system.Busy staged key ↔ system.InProgress staged key ∨ system.Deleting key := by
  constructor
  · rintro ⟨id, task, running, changes⟩
    rcases Task.changes_eq_some.mp changes with writes | deletes
    · exact .inl ⟨id, task, running, writes⟩
    cases task with
    | deleting other phase =>
      cases deletes
      exact .inr ⟨id, phase, running⟩
    | _ => cases deletes
  · rintro (⟨id, task, running, writes⟩ | ⟨id, phase, running⟩)
    · exact ⟨id, task, running, Task.changes_eq_some.mpr (.inl writes)⟩
    · exact ⟨id, _, running, Task.changes_eq_some.mpr (.inr rfl)⟩

/-- What a step of a task may change of the key. -/
structure KeyFrame (staged : String → StagedObject) (key : CacheKey) (task : Task)
    (latest later : Option Bytes) (before after : System) : Prop where
  packs : before.packs key = none → after.packs key = none
  /-- Only under the lock, and only a write names a new object. -/
  holder : after.holder key = before.holder key ∨ task.locks staged key = some () ∧
    (after.holder key = none ∨ task.changes staged key = some ())
  /-- Only under the lock, or by a write while no journal is dirty. -/
  origin : after.origin key = before.origin key ∨ task.locks staged key = some () ∨
    before.holder key = none ∧ task.changes staged key = some ()
  latest : later = latest ∨ task.changes staged key = some ()
  gained : ∀ object, after.DirtyFile key object →
    before.DirtyFile key object ∨ task.starting = some object
  lost : ∀ object, before.DirtyFile key object → after.DirtyFile key object ∨
    before.Deleting key ∨ task.stripe = some object

/-- The shared state of the key is what it was. -/
structure SameKey (key : CacheKey) (before after : System) : Prop where
  packs : after.packs key = before.packs key := by rfl
  origin : after.origin key = before.origin key := by rfl
  holder : after.holder key = before.holder key := by rfl
  files : ∀ object, after.DirtyFile key object ↔ before.DirtyFile key object := by
    exact fun _ => Iff.rfl

theorem KeyFrame.of_same (same : SameKey key before after)
    (kept : later = latest ∨ task.changes staged key = some ()) :
    KeyFrame staged key task latest later before after :=
  ⟨fun unpacked => same.packs.trans unpacked, .inl same.holder, .inl same.origin, kept,
    fun object dirty => .inl ((same.files object).mp dirty),
    fun object dirty => .inl ((same.files object).mpr dirty)⟩

/-- What a task knows of the key is not disturbed by the steps of others. -/
theorem Task.Minds.frame {moving : Task} (minds : task.Minds staged key latest before)
    (frame : KeyFrame staged key moving latest later before after)
    (locks : task.locks staged key = some () → moving.locks staged key ≠ some ())
    (changes : task.changes staged key = some () → moving.changes staged key ≠ some ())
    (starts : ∀ object, moving.starting = some object →
      object ∉ task.objects ∧ task.starting ≠ some object)
    (stripes : ∀ object, task.stripe = some object → moving.stripe ≠ some object)
    (deletes : before.Deleting key → task.changes staged key = some () → task.deletes = some key)
    (alone : ∀ journal rest, task = .rewriting journal rest → journal.indexKey = key →
      ¬after.Deleting key) : task.Minds staged key later after := by
  have holder_of_lock : task.lock staged = some key → after.holder key = before.holder key := by
    intro locked
    exact frame.holder.resolve_right fun changed =>
      locks (Task.locks_eq_some.mpr locked) changed.1
  have uploaded : ∀ object, task.lock staged = some key → Uploaded staged key before object →
      Uploaded staged key after object := by
    intro object locked uploaded
    refine ⟨uploaded.key_eq, (holder_of_lock locked).trans uploaded.held, ?_⟩
    rcases frame.origin with same | moves | ⟨unheld, _⟩
    · exact same.trans uploaded.stored
    · exact absurd moves (locks (Task.locks_eq_some.mpr locked))
    · exact nomatch unheld.symm.trans uploaded.held
  have latest_of_change : task.changes staged key = some () → later = latest := fun changing =>
    frame.latest.resolve_right (changes changing)
  cases task with
  | staging object | putting object journal attempts =>
    intro key_eq
    exact (holder_of_lock (congrArg some key_eq)).trans (minds key_eq)
  | journaling object placements =>
    intro key_eq
    obtain ⟨unheld, dirty⟩ := minds key_eq
    refine ⟨(holder_of_lock (congrArg some key_eq)).trans unheld, ?_⟩
    rcases frame.lost object dirty with still | deleting | striped
    · exact still
    · exact nomatch deletes deleting (Task.changes_eq_some.mpr (.inl (congrArg some key_eq)))
    · exact absurd striped (stripes object rfl)
  | returning other body =>
    rintro rfl
    rw [latest_of_change (Task.changes_eq_some.mpr (.inl rfl))]
    exact minds rfl
  | marking lock packed =>
    rcases minds with foreign | ⟨object, packed_eq, locked, done⟩
    · exact .inl foreign
    · exact .inr ⟨object, packed_eq, locked, uploaded object locked done⟩
  | cleaning lock journal rest | unindexing lock journal rest =>
    rcases minds with foreign | ⟨last, locked, done⟩
    · exact .inl foreign
    · exact .inr ⟨last, locked, uploaded _ locked done⟩
  | discarding lock object rest =>
    rcases minds with foreign | ⟨last, locked, unheld⟩
    · exact .inl foreign
    · exact .inr ⟨last, locked, (holder_of_lock locked).trans unheld⟩
  | erasing lock object rest =>
    rcases minds with foreign | ⟨last, locked, unheld, clean⟩
    · exact .inl foreign
    refine .inr ⟨last, locked, (holder_of_lock locked).trans unheld, fun dirty => ?_⟩
    rcases frame.gained object dirty with old | starting
    · exact clean old
    · exact (starts object starting).1 List.mem_cons_self
  | writing other body =>
    rintro rfl
    rcases frame.holder with same | ⟨_, unheld | changing⟩
    · exact same.trans (minds rfl)
    · exact unheld
    · exact absurd changing (changes (Task.changes_eq_some.mpr (.inl rfl)))
  | deleting other phase =>
    rintro rfl
    obtain ⟨none_left, phase_minds⟩ := minds rfl
    have same := holder_of_lock rfl
    refine ⟨(latest_of_change (Task.changes_eq_some.mpr (.inr rfl))).trans none_left, ?_⟩
    cases phase with
    | index object | file object => exact same.trans phase_minds
    | _ => trivial
  | rewriting journal rest =>
    intro key_eq
    obtain ⟨copied, idle⟩ := minds key_eq
    refine ⟨copied.trans ⟨fun dirty => ?_, fun dirty => ?_⟩, alone journal rest rfl key_eq⟩
    · rcases frame.lost _ dirty with still | deleting | striped
      · exact still
      · exact absurd deleting idle
      · exact absurd striped (stripes _ rfl)
    · rcases frame.gained _ dirty with old | starting
      · exact old
      · exact absurd List.mem_cons_self (starts _ starting).1
  | settling | resuming | bypassing | repairing => trivial
  | collecting | packing | indexing => exact minds

/-- What a step makes of the invariant.  While no operation on the key is in progress and none
starts, nothing takes effect and no journal of the key becomes dirty. -/
structure KeyStep (staged : String → StagedObject) (key : CacheKey) (latest later : Option Bytes)
    (before after : System) : Prop where
  invariant : KeyInvariant staged key later after
  calm : ¬before.Busy staged key → later = latest ∧ ¬after.Busy staged key ∧
    (before.holder key = none → after.holder key = none)

theorem KeyStep.trans {middle : System} {between : Option Bytes}
    (first : KeyStep staged key latest between before middle)
    (second : KeyStep staged key between later middle after) :
    KeyStep staged key latest later before after := by
  refine ⟨second.invariant, fun quiet => ?_⟩
  obtain ⟨between_eq, middle_quiet, middle_unheld⟩ := first.calm quiet
  obtain ⟨later_eq, after_quiet, after_unheld⟩ := second.calm middle_quiet
  exact ⟨later_eq.trans between_eq, after_quiet, fun unheld => after_unheld (middle_unheld unheld)⟩

theorem Readable.congr {body : Bytes} (readable : Readable staged key before body)
    (holder : after.holder key = before.holder key)
    (origin : after.origin key = before.origin key)
    (files : ∀ object, before.DirtyFile key object → after.DirtyFile key object) :
    Readable staged key after body := by
  refine ⟨fun object named => ?_, fun unheld => origin.trans (readable.unheld (holder ▸ unheld))⟩
  obtain ⟨body_eq, lies⟩ := readable.held object (holder ▸ named)
  exact ⟨body_eq, lies.imp (files object) fun stored => origin.trans stored⟩

theorem not_busy_of_task {id : Nat} (idle : ¬before.Busy staged key)
    (running : before.tasks id = some task) : task.changes staged key ≠ some () :=
  fun changes => idle ⟨id, task, running, changes⟩

theorem exclusive_owned_take {α : Type} {held : Task → Option α} {id : Nat} {next : Option Task}
    (exclusive : Exclusive (before.owned held))
    (free : ∀ value other, value ∉ before.owned held other) :
    Exclusive (update (before.owned held) id (next.bind held).toList) := by
  have nodup : (next.bind held).toList.Nodup := by
    cases next.bind held with
    | none => exact .nil
    | some value => exact List.nodup_singleton value
  have taken := exclusive.take id nodup fun value _ other => free value other
  rwa [List.eq_nil_iff_forall_not_mem.mpr fun value => free value id, List.append_nil] at taken

variable {object : String}

theorem key_of_dirtyFile (consistent : Consistent staged before)
    (dirty : before.DirtyFile key object) : (staged object).key = key := by
  obtain ⟨journal, found, key_eq, _⟩ := dirty
  exact (consistent.journals.named object journal found).2.symm.trans key_eq

namespace KeyInvariant

variable {id : Nat} {task : Task} {next : Option Task}

theorem deletes_of_changes (inv : KeyInvariant staged key latest before)
    (running : before.tasks id = some task) (deleting : before.Deleting key)
    (changes : task.changes staged key = some ()) : task.deletes = some key := by
  obtain ⟨deleter, phase, deletes⟩ := deleting
  have same := inv.changes.unique (mem_owned.mpr ⟨task, running, changes⟩)
    (mem_owned.mpr ⟨_, deletes, Task.changes_eq_some.mpr (.inr rfl)⟩)
  cases (same ▸ running).symm.trans deletes
  rfl

section Replace

variable (inv : KeyInvariant staged key latest before) (consistent : Consistent staged before)
  (running : before.tasks id = some task)
  (tasks : after.tasks = update before.tasks id next)
  (locks : next.bind (Task.locks staged key) = none ∨
    next.bind (Task.locks staged key) = task.locks staged key ∨ ¬before.Locked staged key)
  (changes : next.bind (Task.changes staged key) = none ∨
    next.bind (Task.changes staged key) = task.changes staged key)

include inv consistent running tasks locks changes in
theorem replace (frame : KeyFrame staged key task latest later before after)
    (current : ∀ body, later = some body → Readable staged key after body)
    (dirty : ∀ object, after.DirtyFile key object → after.Accounted key object)
    (minds : ∀ moved, next = some moved → moved.Minds staged key later after)
    (deletes : ∀ phase, next = some (.deleting key phase) → task.deletes = some key) :
    KeyStep staged key latest later before after := by
  have moves : ∀ {other : Task}, other.deletes = some key →
      before.tasks id = some other → before.Deleting key := by
    intro other deleting now
    cases other with
    | deleting gone phase =>
      cases deleting
      exact ⟨id, phase, now⟩
    | _ => cases deleting
  have give : ∀ held : Task → Option Unit, Exclusive (before.owned held) →
      next.bind held = none ∨ next.bind held = held task ∨
        ¬(∃ other old, before.tasks other = some old ∧ held old = some ()) →
      Exclusive (after.owned held) := by
    intro held exclusive kept
    rw [owned_of_step tasks]
    rcases kept with none_left | same | free
    · rw [none_left]
      exact exclusive.give List.nil_subperm
    · rw [same, ← owned_of_task running]
      exact exclusive.give (List.Subperm.refl _)
    · refine exclusive_owned_take exclusive fun value other held_now => free ⟨other, ?_⟩
      exact mem_owned.mp held_now
  have locked : (∃ other old, before.tasks other = some old ∧ old.locks staged key = some ()) →
      before.Locked staged key := fun ⟨other, old, now, locks⟩ =>
    ⟨other, old, now, Task.locks_eq_some.mp locks⟩
  have after_tasks : ∀ other moved, after.tasks other = some moved →
      other ≠ id ∧ before.tasks other = some moved ∨ other = id ∧ next = some moved := by
    intro other moved now
    rw [tasks] at now
    exact (of_update_eq now).symm
  refine ⟨⟨frame.packs inv.unpacked, give _ inv.locks (locks.imp_right (·.imp_right
    (mt locked))), give _ inv.changes (changes.imp_right .inl), current, dirty,
    fun other moved now => ?_⟩, fun idle => ⟨?_, ?_, fun unheld => ?_⟩⟩
  · rcases after_tasks other moved now with ⟨ne, now⟩ | ⟨_, next_eq⟩
    swap
    · exact minds moved next_eq
    refine (inv.tasks other moved now).frame frame (fun locked locking => ?_)
      (fun changing moving => ?_) (fun object starting => ⟨fun works => ?_, fun starts => ?_⟩)
      (fun object striped moving => ?_) (inv.deletes_of_changes now)
      fun journal rest moved_eq key_eq => ?_
    · exact ne (inv.locks.unique (mem_owned.mpr ⟨moved, now, locked⟩)
        (mem_owned.mpr ⟨task, running, locking⟩))
    · exact ne (inv.changes.unique (mem_owned.mpr ⟨moved, now, changing⟩)
        (mem_owned.mpr ⟨task, running, moving⟩))
    · exact (consistent.established other moved now object works).indexed id task running starting
    · exact ne (consistent.single.unique (mem_owned.mpr ⟨moved, now, starts⟩)
        (mem_owned.mpr ⟨task, running, starting⟩))
    · exact ne (consistent.stripes.unique (mem_owned.mpr ⟨moved, now, striped⟩)
        (mem_owned.mpr ⟨task, running, moving⟩))
    · rintro ⟨deleter, phase, deleting⟩
      subst moved_eq
      have idle := (inv.tasks other _ now key_eq).2
      rcases after_tasks deleter _ deleting with ⟨_, old⟩ | ⟨_, next_eq⟩
      · exact idle ⟨deleter, phase, old⟩
      · exact idle (moves (deletes phase next_eq) running)
  · exact frame.latest.resolve_right (not_busy_of_task idle running)
  · rintro ⟨other, moved, now, changing⟩
    rcases after_tasks other moved now with ⟨_, old⟩ | ⟨_, next_eq⟩
    · exact idle ⟨other, moved, old, changing⟩
    · rw [next_eq, Option.bind_some, changing] at changes
      exact not_busy_of_task idle running (changes.resolve_left nofun).symm
  · rcases frame.holder with same | ⟨_, freed | changing⟩
    · exact same.trans unheld
    · exact freed
    · exact absurd changing (not_busy_of_task idle running)

include running tasks in
theorem accounted_of_step
    (holder : before.holder key = some object → after.holder key = some object)
    (accounts : task.accounts ≠ some object) (accounted : before.Accounted key object) :
    after.Accounted key object := by
  have stays : ∀ other old, before.tasks other = some old → old.accounts = some object →
      after.tasks other = some old := by
    intro other old now old_accounts
    rw [tasks, update_of_ne, now]
    rintro rfl
    cases running.symm.trans now
    exact accounts old_accounts
  rcases accounted with named | ⟨other, placements, now⟩ | ⟨other, now⟩
  · exact .inl (holder named)
  · exact .inr (.inl ⟨other, placements, stays other _ now rfl⟩)
  · exact .inr (.inr ⟨other, stays other _ now rfl⟩)

include inv consistent running tasks locks changes in
theorem go (same : SameKey key before after)
    (accounts : ∀ object, before.DirtyFile key object → task.accounts ≠ some object)
    (minds : ∀ moved, next = some moved → moved.Minds staged key latest after)
    (deletes : ∀ phase, next = some (.deleting key phase) → task.deletes = some key) :
    KeyStep staged key latest latest before after := by
  refine inv.replace consistent running tasks locks changes (.of_same same (.inl rfl))
    (fun body is_latest => (inv.current body is_latest).congr same.holder same.origin fun object =>
      (same.files object).mpr) (fun object dirty => ?_) minds deletes
  have was_dirty := (same.files object).mp dirty
  exact accounted_of_step running tasks (fun named => same.holder.trans named)
    (accounts object was_dirty) (inv.dirty object was_dirty)

end Replace

section Enter

variable (inv : KeyInvariant staged key latest before) {next : Task}
  (idle : before.tasks id = none)
  (tasks : after.tasks = update before.tasks id (some next))
  (same : SameKey key before after)
  (starting : ∀ object, next.starting = some object → ∀ other task,
    before.tasks other = some task → object ∉ task.objects ∧ task.starting ≠ some object)
  (stripe : next.stripe = none)

include inv idle tasks same starting stripe

/-- A task starts.  The start of a delete of the key puts an end to what was written before. -/
theorem enter (locks : next.lock staged = some key → ¬before.Locked staged key)
    (changes : next.changes staged key = some () → ¬before.Busy staged key)
    (alone : next.deletes = some key → ∀ other journal rest,
      before.tasks other = some (.rewriting journal rest) → journal.indexKey ≠ key)
    (latest_eq : later = latest ∨ later = none ∧ next.changes staged key = some ())
    (minds : next.Minds staged key later after) : KeyInvariant staged key later after := by
  have take : ∀ held : Task → Option Unit, Exclusive (before.owned held) →
      (held next = some () → ¬∃ other old, before.tasks other = some old ∧ held old = some ()) →
      Exclusive (after.owned held) := by
    intro held exclusive free
    rw [owned_of_step tasks]
    cases holds : held next with
    | none =>
      rw [Option.bind_some, holds]
      exact exclusive.give List.nil_subperm
    | some _ =>
      exact exclusive_owned_take exclusive fun value other member =>
        free holds ⟨other, mem_owned.mp member⟩
  have stays : ∀ other old, before.tasks other = some old → after.tasks other = some old := by
    intro other old now
    rw [tasks, update_of_ne, now]
    rintro rfl
    exact nomatch idle.symm.trans now
  refine ⟨same.packs.trans inv.unpacked, take _ inv.locks fun locked => ?_,
    take _ inv.changes changes, fun body is_latest => ?_, fun object dirty => ?_,
    fun other task now => ?_⟩
  · rintro ⟨other, old, now, old_locks⟩
    exact locks (Task.locks_eq_some.mp locked) ⟨other, old, now, Task.locks_eq_some.mp old_locks⟩
  · rcases latest_eq with kept | ⟨none_left, _⟩
    · exact (inv.current body (kept ▸ is_latest)).congr same.holder same.origin fun object =>
        (same.files object).mpr
    · exact nomatch none_left.symm.trans is_latest
  · rcases inv.dirty object ((same.files object).mp dirty) with named | ⟨other, placements, now⟩ |
      ⟨other, now⟩
    · exact .inl (same.holder.trans named)
    · exact .inr (.inl ⟨other, placements, stays other _ now⟩)
    · exact .inr (.inr ⟨other, stays other _ now⟩)
  · rw [tasks] at now
    rcases of_update_eq now with ⟨_, new⟩ | ⟨_, old⟩
    · exact Option.some.inj new ▸ minds
    have frame : KeyFrame staged key next latest later before after :=
      .of_same same (latest_eq.imp_right And.right)
    refine (inv.tasks other task old).frame frame (fun locked next_locks => ?_)
      (fun changing next_changes => ?_) (fun object starts => starting object starts other task old)
      (fun object _ striped => ?_) (inv.deletes_of_changes old)
      fun journal rest task_eq key_eq => ?_
    · exact locks (Task.locks_eq_some.mp next_locks)
        ⟨other, task, old, Task.locks_eq_some.mp locked⟩
    · exact changes next_changes ⟨other, task, old, changing⟩
    · exact nomatch stripe.symm.trans striped
    · subst task_eq
      rintro ⟨deleter, phase, deleting⟩
      rw [tasks] at deleting
      rcases of_update_eq deleting with ⟨rfl, new⟩ | ⟨_, deleting⟩
      · cases new
        exact alone rfl other journal rest old key_eq
      · exact (inv.tasks other _ old key_eq).2 ⟨deleter, phase, deleting⟩

theorem enterApart (locks : next.lock staged ≠ some key)
    (changes : next.changes staged key ≠ some ()) (minds : next.Minds staged key latest after) :
    KeyStep staged key latest latest before after := by
  refine ⟨inv.enter idle tasks same starting stripe
    (fun locked => absurd locked locks) (fun changing => absurd changing changes)
    (fun deleting => absurd (Task.changes_eq_some.mpr (.inr deleting)) changes) (.inl rfl) minds,
    fun quiet => ⟨rfl, ?_, fun unheld => ?_⟩⟩
  · rintro ⟨other, task, now, changing⟩
    rw [tasks] at now
    rcases of_update_eq now with ⟨rfl, new⟩ | ⟨_, now⟩
    · cases new
      exact changes changing
    · exact quiet ⟨other, task, now, changing⟩
  · exact same.holder.trans unheld

end Enter

end KeyInvariant

end Verglas.Writeback
