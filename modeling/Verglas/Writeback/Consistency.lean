import Verglas.Lib.Exclusive
import Verglas.Writeback.Recovery
import Verglas.Writeback.Coordinator

/-!
# What holds in every run of the coordinator

Whatever tasks run and whenever the node restarts: journals carry the keys of their objects, the
index names objects that have files, no two tasks lock one journal, and an object whose journal was
marked clean never becomes dirty again.
-/

namespace Verglas.Writeback

open Function List Option JournalStore

/-- The objects that a task works on after their PUT has indexed them. -/
def Task.objects : Task → List String
  | .staging _ | .journaling _ _ | .returning _ _ | .writing _ _ => []
  | .settling object | .resuming object | .bypassing object _ | .putting object _ _ => [object]
  | .collecting _ _ batch _ rows =>
    batch.map PendingEntry.objectId ++ rows.map PackedRow.objectId
  | .packing _ _ _ _ rows _ => rows.map PackedRow.objectId
  | .indexing _ _ _ packed | .marking _ packed => packed
  | .cleaning _ journal rest | .unindexing _ journal rest | .rewriting journal rest =>
    journal.objectId :: rest
  | .discarding _ object rest | .erasing _ object rest => object :: rest
  | .deleting _ (.index object) | .deleting _ (.file object) => [object]
  | .deleting _ .origin | .deleting _ .row | .deleting _ .find => []
  | .repairing objects => objects

/-- The object of a PUT that has not indexed it yet. -/
def Task.starting : Task → Option String
  | .staging object | .journaling object _ => some object
  | _ => none

namespace System

variable (system : System)

/-- What each task holds of a kind of which a task holds one at most. -/
def owned {α : Type} (held : Task → Option α) (id : Nat) : List α :=
  ((system.tasks id).bind held).toList

/-- The PUT of the object has indexed it. -/
structure Established (object : String) : Prop where
  issued : object ∈ system.issued
  indexed : ∀ id task, system.tasks id = some task → task.starting ≠ some object

/-- The journal of the object is not dirty, neither on disk nor in a copy that repair will write. -/
structure Retired (object : String) : Prop where
  file : ∀ journal, system.journals.read object = some journal → journal.state = .clean
  copies : ∀ id journal rest, system.tasks id = some (.rewriting journal rest) →
    journal.objectId = object → journal.state = .clean

end System

variable {α : Type} {held : Task → Option α} {id : Nat}

theorem owned_of_task {system : System} {task : Task} (running : system.tasks id = some task) :
    system.owned held id = (held task).toList := by
  simp [System.owned, running]

theorem mem_owned {system : System} {value : α} :
    value ∈ system.owned held id ↔
      ∃ task, system.tasks id = some task ∧ held task = some value := by
  rw [System.owned, mem_toList, bind_eq_some_iff]

theorem owned_of_step {before after : System} {next : Option Task}
    (tasks : after.tasks = update before.tasks id next) :
    after.owned held = update (before.owned held) id (next.bind held).toList := by
  funext other
  by_cases same : other = id
  · subst same
    rw [System.owned, tasks, update_self, update_self]
  · rw [System.owned, tasks, update_of_ne same, update_of_ne same, System.owned]

section Consistent

variable (staged : String → StagedObject) (system : System)

/-- What a task knows about the objects that it works on. -/
def Task.Knows : Task → Prop
  | .journaling object _ => (system.journals.read object).isSome
  | .collecting _ stream batch _ _ =>
    ∀ entry ∈ batch, (staged entry.objectId).key.stream = stream
  | .packing _ _ _ packKey _ _ => Reserved packKey
  | .putting object journal _ => journal.indexKey = (staged object).key
  | .cleaning _ journal _ | .rewriting journal _ =>
    journal.indexKey = (staged journal.objectId).key
  | .unindexing _ journal _ =>
    journal.indexKey = (staged journal.objectId).key ∧ system.Retired journal.objectId
  | .discarding _ object _ => system.Retired object
  | .erasing _ object _ => system.holder (staged object).key ≠ some object
  | .deleting key (.index object) => (staged object).key = key
  | .deleting key (.file object) =>
    (staged object).key = key ∧ system.holder (staged object).key ≠ some object
  | _ => True

/-- The invariant of every run. -/
structure Consistent : Prop where
  journals : JournalsSound staged system.journals
  files : ∀ object, (system.journals.read object).isSome → object ∈ system.issued
  held : ∀ key object, system.holder key = some object → system.Established object
  starting : ∀ id task object, system.tasks id = some task → task.starting = some object →
    object ∈ system.issued
  single : Exclusive (system.owned Task.starting)
  stripes : Exclusive (system.owned Task.stripe)
  established : ∀ id task, system.tasks id = some task → ∀ object ∈ task.objects,
    system.Established object
  known : ∀ id task, system.tasks id = some task → task.Knows staged system
  buffers : ∀ stream, ∀ entry ∈ (system.buffers stream).pending,
    system.Established entry.objectId ∧ (staged entry.objectId).key.stream = stream

end Consistent

variable {staged : String → StagedObject} {limit : Nat} {before after system : System}

/-- What is known of an indexed object stays known. -/
structure Effects (staged : String → StagedObject) (before after : System) : Prop where
  established : ∀ object, before.Established object → after.Established object
  retired : ∀ object, before.Established object → before.Retired object → after.Retired object
  unheld : ∀ object, before.Established object →
    before.holder (staged object).key ≠ some object → after.holder (staged object).key ≠ some object
  kept : ∀ object, ¬before.Established object → (before.journals.read object).isSome →
    (after.journals.read object).isSome

theorem Effects.known (effects : Effects staged before after) {task : Task}
    (starting : ∀ object, task.starting = some object → ¬before.Established object)
    (established : ∀ object ∈ task.objects, before.Established object)
    (known : task.Knows staged before) : task.Knows staged after := by
  cases task with
  | journaling object placements => exact effects.kept object (starting object rfl) known
  | unindexing lock journal rest =>
    exact ⟨known.1, effects.retired _ (established _ mem_cons_self) known.2⟩
  | discarding lock object rest =>
    exact effects.retired _ (established _ mem_cons_self) known
  | erasing lock object rest =>
    exact effects.unheld _ (established _ mem_cons_self) known
  | deleting key phase =>
    cases phase with
    | file object =>
      exact ⟨known.1, effects.unheld _ (established _ mem_cons_self) known.2⟩
    | _ => exact known
  | _ => exact known

/-- One task moves: it becomes responsible for a new object only with a fresh id, no file becomes
dirty behind its back, and the index takes up objects of starting PUTs only. -/
theorem Effects.of_step {next : Option Task}
    (tasks : after.tasks = update before.tasks id next)
    (issued : before.issued ⊆ after.issued)
    (starting : ∀ object, next.bind Task.starting = some object →
      object ∉ before.issued ∨ (before.tasks id).bind Task.starting = some object)
    (files : ∀ object journal, after.journals.read object = some journal →
      journal.state = .dirty → before.Established object → before.Retired object → False)
    (copies : ∀ journal rest, next = some (.rewriting journal rest) → journal.state = .dirty →
      before.Retired journal.objectId → False)
    (holder : ∀ key object, after.holder key = some object →
      before.holder key = some object ∨ ¬before.Established object)
    (kept : ∀ object, ¬before.Established object → (before.journals.read object).isSome →
      (after.journals.read object).isSome) : Effects staged before after where
  kept := kept
  established object known := by
    refine ⟨issued known.issued, fun other task now starts => ?_⟩
    rw [tasks] at now
    rcases of_update_eq now with ⟨rfl, new⟩ | ⟨_, now⟩
    · rcases starting object (by rw [new]; exact starts) with fresh | old
      · exact fresh known.issued
      · obtain ⟨earlier, running, earlier_starts⟩ := bind_eq_some_iff.mp old
        exact known.indexed other earlier running earlier_starts
    · exact known.indexed other task now starts
  retired object known retired := by
    refine ⟨fun journal found => ?_, fun other journal rest now named => ?_⟩
    · cases state : journal.state with
      | clean => rfl
      | dirty => exact (files object journal found state known retired).elim
    · rw [tasks] at now
      rcases of_update_eq now with ⟨rfl, new⟩ | ⟨_, now⟩
      · cases state : journal.state with
        | clean => rfl
        | dirty => exact (copies journal rest new state (named ▸ retired)).elim
      · exact retired.copies other journal rest now named
  unheld object known unheld names := by
    rcases holder _ object names with old | unknown
    · exact unheld old
    · exact unknown known

theorem isSome_read_writeFsynced {journals : JournalStore} {object : String} (journal : Journal)
    (found : (journals.read object).isSome) :
    ((journals.writeFsynced journal).read object).isSome := by
  rw [read_writeFsynced]
  split
  · rfl
  · exact found

theorem System.Retired.not_dirty {object : String} {journal : Journal}
    (retired : system.Retired object) (found : system.journals.read object = some journal) :
    journal.state ≠ .dirty := by
  rw [retired.file journal found]
  nofun

/-- A step that neither issues nor indexes an object.  Unless said otherwise, it leaves the shared
state alone. -/
structure Keeps (staged : String → StagedObject) (before after : System) : Prop where
  issued : after.issued = before.issued := by rfl
  buffers : ∀ stream, ∀ entry ∈ (after.buffers stream).pending,
    entry ∈ (before.buffers stream).pending ∨
      before.Established entry.objectId ∧ (staged entry.objectId).key.stream = stream := by
    exact fun _ _ member => .inl member
  journals : JournalsSound staged before.journals → JournalsSound staged after.journals := by
    exact fun sound => sound
  present : ∀ object, (after.journals.read object).isSome →
    (before.journals.read object).isSome ∨ object ∈ before.issued := by
    exact fun _ found => .inl found
  files : ∀ object journal, after.journals.read object = some journal →
    journal.state = .dirty → before.Established object → before.Retired object → False := by
    exact fun _ _ found dirty _ retired => retired.not_dirty found dirty
  holder : ∀ key object, after.holder key = some object → before.holder key = some object := by
    exact fun _ _ names => names
  kept : ∀ object, ¬before.Established object → (before.journals.read object).isSome →
    (after.journals.read object).isSome := by exact fun _ _ found => found

theorem Keeps.refl (staged : String → StagedObject) (system : System) :
    Keeps staged system system := {}

namespace Consistent

variable {id : Nat} {next : Option Task} {object : String} {task : Task} {journal : Journal}
  {buffer : OffloadBuffer} {rest : List String}

variable (inv : Consistent staged before)
include inv

theorem replace (tasks : after.tasks = update before.tasks id next)
    (effects : Effects staged before after) (issued : before.issued ⊆ after.issued)
    (single : Exclusive (update (before.owned Task.starting) id
      (next.bind Task.starting).toList))
    (stripes : Exclusive (update (before.owned Task.stripe) id
      (next.bind Task.stripe).toList))
    (starting : ∀ object, next.bind Task.starting = some object → object ∈ after.issued)
    (journals : JournalsSound staged after.journals)
    (files : ∀ object, (after.journals.read object).isSome → object ∈ after.issued)
    (held : ∀ key object, after.holder key = some object →
      before.holder key = some object ∨ after.Established object)
    (established : ∀ moved, next = some moved → ∀ object ∈ moved.objects,
      after.Established object)
    (known : ∀ moved, next = some moved → moved.Knows staged after)
    (buffers : ∀ stream, ∀ entry ∈ (after.buffers stream).pending,
      entry ∈ (before.buffers stream).pending ∨
        after.Established entry.objectId ∧ (staged entry.objectId).key.stream = stream) :
    Consistent staged after where
  journals := journals
  files := files
  held key object names := by
    rcases held key object names with old | new
    · exact effects.established object (inv.held key object old)
    · exact new
  starting other task object now starts := by
    rw [tasks] at now
    rcases of_update_eq now with ⟨rfl, new⟩ | ⟨_, now⟩
    · exact starting object (by rw [new]; exact starts)
    · exact issued (inv.starting other task object now starts)
  single := owned_of_step tasks ▸ single
  stripes := owned_of_step tasks ▸ stripes
  established other task now object member := by
    rw [tasks] at now
    rcases of_update_eq now with ⟨rfl, new⟩ | ⟨_, now⟩
    · exact established task new object member
    · exact effects.established object (inv.established other task now object member)
  known other task now := by
    rw [tasks] at now
    rcases of_update_eq now with ⟨rfl, new⟩ | ⟨_, now⟩
    · exact known task new
    · exact effects.known (fun object starts known => known.indexed other task now starts)
        (inv.established other task now) (inv.known other task now)
  buffers stream entry member := by
    rcases buffers stream entry member with old | new
    · obtain ⟨known, in_stream⟩ := inv.buffers stream entry old
      exact ⟨effects.established _ known, in_stream⟩
    · exact new

theorem touch (tasks : after.tasks = update before.tasks id next)
    (starting : next.bind Task.starting = none ∨
      next.bind Task.starting = (before.tasks id).bind Task.starting)
    (stripes : Exclusive (update (before.owned Task.stripe) id
      (next.bind Task.stripe).toList))
    (copies : ∀ journal rest, next = some (.rewriting journal rest) → journal.state = .dirty →
      before.Retired journal.objectId → False)
    (established : ∀ moved, next = some moved → ∀ object ∈ moved.objects,
      before.Established object)
    (keeps : Keeps staged before after)
    (known : Effects staged before after → ∀ moved, next = some moved → moved.Knows staged after) :
    Consistent staged after := by
  have issued := keeps.issued
  have effects : Effects staged before after := by
    refine .of_step tasks (issued ▸ .refl _) (fun object starts => ?_) keeps.files copies
      (fun key object names => .inl (keeps.holder key object names)) keeps.kept
    rcases starting with none_left | kept
    · rw [none_left] at starts
      cases starts
    · exact .inr (kept ▸ starts)
  refine inv.replace tasks effects (issued ▸ .refl _) ?_ stripes ?_
    (keeps.journals inv.journals)
    (fun object found => issued ▸ (keeps.present object found).elim (inv.files object) (·))
    (fun key object names => .inl (keeps.holder key object names))
    (fun moved now object member =>
      effects.established object (established moved now object member))
    (known effects) (fun stream entry member => (keeps.buffers stream entry member).imp_right
      fun new => ⟨effects.established _ new.1, new.2⟩)
  · rcases starting with none_left | kept
    · rw [none_left]
      exact inv.single.give nil_subperm
    · rw [kept]
      exact inv.single.give (List.Subperm.refl _)
  · intro object starts
    rcases starting with none_left | kept
    · rw [none_left] at starts
      cases starts
    · rw [kept] at starts
      obtain ⟨task, running, task_starts⟩ := bind_eq_some_iff.mp starts
      exact issued ▸ inv.starting id task object running task_starts

theorem move (tasks : after.tasks = update before.tasks id next)
    (starting : next.bind Task.starting = none) (stripe : next.bind Task.stripe = none)
    (established : ∀ moved, next = some moved → ∀ object ∈ moved.objects,
      before.Established object)
    (known : ∀ moved, next = some moved → moved.Knows staged before)
    (keeps : Keeps staged before after) : Consistent staged after := by
  refine inv.touch tasks (.inl starting) ?_ ?_ established keeps fun effects moved now => ?_
  · rw [stripe]
    exact inv.stripes.give nil_subperm
  · rintro journal rest rfl
    cases stripe
  · refine effects.known (fun object starts => ?_) (established moved now) (known moved now)
    rw [now] at starting
    exact absurd (starting.symm.trans starts) nofun

theorem stop (tasks : after.tasks = update before.tasks id none)
    (keeps : Keeps staged before after) : Consistent staged after :=
  inv.move tasks rfl rfl (fun _ => nofun) (fun _ => nofun) keeps

theorem lock_stripe (none_before : (before.tasks id).bind Task.stripe = none)
    (free : ¬before.Striped object) :
    Exclusive (update (before.owned Task.stripe) id [object]) := by
  have taken := inv.stripes.take id (nodup_singleton object) fun token member other claimed => by
      cases mem_singleton.mp member
      obtain ⟨task, running, stripe⟩ := mem_owned.mp claimed
      exact free ⟨other, task, running, stripe⟩
  have unlocked : before.owned Task.stripe id = [] := by
    rw [System.owned, none_before, toList_none]
  rw [unlocked, append_nil] at taken
  exact taken

theorem enter {next : Task} (tasks : after.tasks = update before.tasks id (some next))
    (starting : next.starting = none) (stripe : next.stripe = none)
    (established : ∀ object ∈ next.objects, before.Established object)
    (known : next.Knows staged before) (keeps : Keeps staged before after) :
    Consistent staged after := by
  refine inv.move tasks starting stripe ?_ ?_ keeps
  · rintro _ ⟨⟩
    exact established
  · rintro _ ⟨⟩
    exact known

theorem go {next : Task} (running : before.tasks id = some task)
    (tasks : after.tasks = update before.tasks id (some next))
    (starting : next.starting = none) (stripe : next.stripe = none)
    (objects : next.objects ⊆ task.objects) (known : next.Knows staged before)
    (keeps : Keeps staged before after) : Consistent staged after :=
  inv.enter tasks starting stripe
    (fun object member => inv.established id task running object (objects member)) known keeps

theorem putStart (idle : before.tasks id = none) (fresh : object ∉ before.issued) :
    Consistent staged
      ({ before with issued := object :: before.issued }.run id (.staging object)) := by
  have effects : Effects staged before
      ({ before with issued := object :: before.issued }.run id (.staging object)) := by
    refine .of_step rfl (subset_cons_self _ _) (fun other starts => ?_)
      (fun _ _ found dirty _ retired => retired.not_dirty found dirty) nofun
      (fun key other names => .inl names) fun other _ found => found
    cases starts
    exact .inl fresh
  refine inv.replace rfl effects (subset_cons_self _ _) ?_ ?_ ?_ inv.journals
    (fun other found => mem_cons_of_mem _ (inv.files other found))
    (fun key other names => .inl names) ?_ ?_ (fun stream entry member => .inl member)
  · have taken := inv.single.take id (nodup_singleton object) fun token member other claimed => by
        cases mem_singleton.mp member
        obtain ⟨task, running, starts⟩ := mem_owned.mp claimed
        exact fresh (inv.starting other task object running starts)
    have unclaimed : before.owned Task.starting id = [] := by
      rw [System.owned, idle]
      rfl
    rw [unclaimed, append_nil] at taken
    exact taken
  · exact inv.stripes.give nil_subperm
  · intro other starts
    cases starts
    exact mem_cons_self
  · rintro _ ⟨⟩ other member
    cases member
  · rintro _ ⟨⟩
    trivial

theorem putJournal (placements : List Placement)
    (running : before.tasks id = some (.staging object)) (free : ¬before.Striped object) :
    Consistent staged
      ({ before with
        journals := before.journals.writeFsynced (journalOf staged object placements) }.run id
          (.journaling object placements)) := by
  have read_after : ∀ other,
      (before.journals.writeFsynced (journalOf staged object placements)).read other =
        if other = object then some (journalOf staged object placements)
        else before.journals.read other :=
    read_writeFsynced _ _
  refine inv.touch rfl (.inr ?_) (inv.lock_stripe (by rw [running]; rfl) free) nofun ?_
    { Keeps.refl _ before with
      journals := fun sound => sound.writeFsynced rfl
      present := fun other found => ?_
      files := fun other journal found dirty known retired => ?_
      kept := fun other _ found => isSome_read_writeFsynced _ found } ?_
  · rw [running]
    rfl
  · rintro _ ⟨⟩ other member
    cases member
  · by_cases same : other = object
    · exact .inr (same ▸ inv.starting id _ object running rfl)
    · exact .inl ((read_after other).trans (if_neg same) ▸ found)
  · by_cases same : other = object
    · exact known.indexed id _ running (same ▸ rfl)
    · exact retired.not_dirty (((read_after other).trans (if_neg same)).symm.trans found) dirty
  · rintro _ _ ⟨⟩
    exact congrArg isSome ((read_after object).trans (if_pos rfl))

theorem putIndex {handler : Nat} {placements : List Placement}
    (running : before.tasks id = some (.journaling object placements)) :
    Consistent staged
      (({ before with
        journals := before.journals.insertIndex (journalOf staged object placements) }.run id
          (.settling object)).run handler
            (.returning (staged object).key (staged object).body)) := by
  have fresh : ¬before.Established object := fun known => known.indexed id _ running rfl
  set middle : System := { before with
    journals := before.journals.insertIndex (journalOf staged object placements) }.run id
      (.settling object) with middle_eq
  have holder : ∀ key other, middle.holder key = some other →
      before.holder key = some other ∨ other = object := by
    intro key other names
    by_cases same : key = (staged object).key
    · subst same
      exact .inr (some.inj (names.symm.trans (DirtyIndex.holder_insert_self _ _ _)))
    · exact .inl ((DirtyIndex.holder_insert_of_ne _ _ same).symm.trans names)
  have effects : Effects staged before middle := by
    exact .of_step rfl (.refl _) nofun
      (fun _ _ found dirty _ retired => retired.not_dirty found dirty)
      nofun (fun key other names => (holder key other names).imp_right
        fun (same : other = object) => same ▸ fresh)
      fun other _ found => found
  have indexed : middle.Established object := by
    refine ⟨inv.starting id _ object running rfl, fun other task now starts => ?_⟩
    rcases of_update_eq now with ⟨rfl, new⟩ | ⟨same, kept⟩
    · cases new
      cases starts
    · exact same (inv.single.unique (mem_owned.mpr ⟨task, kept, starts⟩)
        (mem_owned.mpr ⟨_, running, rfl⟩))
  have settled : Consistent staged middle := by
    refine inv.replace rfl effects (.refl _) (inv.single.give nil_subperm)
      (inv.stripes.give nil_subperm) nofun
      (inv.journals.insertIndex rfl (inv.known id _ running)) inv.files
      (fun key other names => (holder key other names).imp_right
        fun (same : other = object) => same ▸ indexed) ?_ ?_
      (fun stream entry member => .inl member)
    · rintro _ ⟨⟩ other member
      cases mem_singleton.mp member
      exact indexed
    · rintro _ ⟨⟩
      trivial
  exact settled.enter rfl rfl rfl (fun _ member => by cases member) trivial
    { Keeps.refl _ middle with }

theorem writeBack {next : Task} (running : before.tasks id = some task)
    (unstarted : next.starting = none) (key_eq : journal.indexKey = (staged journal.objectId).key)
    (known_object : before.Established journal.objectId)
    (dirty : journal.state = .dirty → ¬before.Retired journal.objectId)
    (stripe : next.stripe = none ∨ next.stripe = task.stripe)
    (copies : ∀ other rest, next ≠ .rewriting other rest) (objects : next.objects ⊆ task.objects)
    (known : Effects staged before
        ({ before with journals := before.journals.writeFsynced journal }.run id next) →
      next.Knows staged
        ({ before with journals := before.journals.writeFsynced journal }.run id next)) :
    Consistent staged
      ({ before with journals := before.journals.writeFsynced journal }.run id next) := by
  have read_after := read_writeFsynced before.journals journal
  refine inv.touch rfl (.inl unstarted) ?_
    (fun other rest now => absurd (some.inj now) (copies other rest)) ?_
    { Keeps.refl _ before with
      journals := fun sound => sound.writeFsynced key_eq
      present := fun other found => ?_
      files := fun other found read found_dirty _ retired => ?_
      kept := fun other _ found => isSome_read_writeFsynced journal found } ?_
  · rcases stripe with none_left | kept
    · have released : ((some next).bind Task.stripe).toList = [] := by
        rw [bind_some, none_left, toList_none]
      rw [released]
      exact inv.stripes.give nil_subperm
    · refine inv.stripes.give ?_
      rw [owned_of_task running, bind_some, kept]
  · rintro _ ⟨⟩ other member
    exact inv.established id task running other (objects member)
  · by_cases same : other = journal.objectId
    · exact .inr (same ▸ known_object.issued)
    · exact .inl ((read_after other).trans (if_neg same) ▸ found)
  · by_cases same : other = journal.objectId
    · subst same
      cases ((read_after _).trans (if_pos rfl)).symm.trans read
      exact dirty found_dirty retired
    · exact retired.not_dirty (((read_after other).trans (if_neg same)).symm.trans read) found_dirty
  · rintro effects _ ⟨⟩
    exact known effects

theorem straggle (placement : Placement) (running : before.tasks id = some (.settling object)) :
    Consistent staged
      { before with journals := before.journals.addPlacement object placement } := by
  rcases inv.journals.addPlacement_cases object placement with
    same | ⟨journal, placements, found, rfl, key_eq, written⟩
  · rw [same]
    exact inv
  · have moved := @writeBack _ _ id _ { journal with placements } inv
      (.settling journal.objectId) running rfl key_eq
      (inv.established id _ running _ mem_cons_self)
      (fun dirty retired => retired.not_dirty found dirty)
      (.inl rfl) nofun (.refl _) fun _ => trivial
    rw [System.run, update_eq_self_iff.mpr running.symm] at moved
    rw [written]
    exact moved

omit inv in
theorem waiting_update {stream : String × String}
    (waiting : ∀ entry ∈ buffer.pending, entry ∈ (before.buffers stream).pending ∨
      before.Established entry.objectId ∧ (staged entry.objectId).key.stream = stream)
    (other : String × String) :
    ∀ entry ∈ (Function.update before.buffers stream buffer other).pending,
      entry ∈ (before.buffers other).pending ∨
        before.Established entry.objectId ∧ (staged entry.objectId).key.stream = other := by
  intro entry member
  by_cases same : other = stream
  · subst same
    rw [Function.update_self] at member
    exact waiting entry member
  · rw [Function.update_of_ne same] at member
    exact .inl member

theorem collecting {stream : String × String} {batch : List PendingEntry} {lock : Option CacheKey}
    (waits : ∀ entry ∈ batch, before.Established entry.objectId ∧
      (staged entry.objectId).key.stream = stream) :
    Consistent staged
      ({ before with buffers := update before.buffers stream {} }.run id
        (.collecting lock stream batch [] [])) := by
  refine inv.enter rfl rfl rfl ?_ ?_ { Keeps.refl _ before with buffers := waiting_update nofun }
  · intro other member
    simp only [Task.objects, map_nil, append_nil] at member
    obtain ⟨entry, listed, rfl⟩ := mem_map.mp member
    exact (waits entry listed).1
  · exact fun entry member => (waits entry member).2

omit inv in
theorem retired_of_gone (gone : before.journals.read object = none)
    (free : ¬before.Striped object) : before.Retired object where
  file _ found := absurd (gone.symm.trans found) nofun
  copies id _ _ running named := absurd ⟨id, _, running, congrArg some named⟩ free

theorem markWrite {lock : Option CacheKey}
    (running : before.tasks id = some (.cleaning lock journal rest)) :
    Consistent staged
      ({ before with
        journals := before.journals.writeFsynced { journal with state := .clean } }.run id
          (.unindexing lock { journal with state := .clean } rest)) := by
  have key_eq := inv.known id _ running
  refine inv.writeBack running rfl key_eq (inv.established id _ running _ mem_cons_self) nofun
    (.inr rfl) nofun (.refl _) fun _ => ⟨key_eq, fun found read => ?_, ?_⟩
  · cases ((read_writeFsynced _ _ _).trans (if_pos rfl)).symm.trans read
    rfl
  · -- a copy would have the journal locked a second time
    intro other copy others now named
    rcases of_update_eq now with ⟨rfl, new⟩ | ⟨same, copied⟩
    · cases new
    · have locked : journal.objectId ∈ before.owned Task.stripe other :=
        mem_owned.mpr ⟨_, copied, congrArg some named⟩
      exact absurd (inv.stripes.unique locked (mem_owned.mpr ⟨_, running, rfl⟩)) same

theorem unindex {next : Task} (journal : Journal) (running : before.tasks id = some task)
    (starting : next.starting = none) (stripe : next.stripe = none)
    (objects : next.objects ⊆ task.objects)
    (known : Effects staged before
        ({ before with journals := before.journals.removeIndex journal }.run id next) →
      next.Knows staged
        ({ before with journals := before.journals.removeIndex journal }.run id next)) :
    Consistent staged
      ({ before with journals := before.journals.removeIndex journal }.run id next) := by
  refine inv.touch rfl (.inl starting) ?_ ?_ ?_
    { Keeps.refl _ before with
      journals := fun sound => sound.removeIndex journal
      holder := fun _ _ names => DirtyIndex.holder_of_remove names } ?_
  · have released : ((some next).bind Task.stripe).toList = [] := by
      rw [bind_some, stripe, toList_none]
    rw [released]
    exact inv.stripes.give nil_subperm
  · rintro copy rest now
    cases now
    cases stripe
  · rintro _ ⟨⟩ other member
    exact inv.established id task running other (objects member)
  · rintro effects _ ⟨⟩
    exact known effects

theorem removeFile (running : before.tasks id = some task) (member : object ∈ task.objects)
    (unheld : before.holder (staged object).key ≠ some object)
    (tasks : after.tasks = update before.tasks id next)
    (journals : after.journals = before.journals.removeFile object)
    (buffers : after.buffers = before.buffers) (issued : after.issued = before.issued)
    (starting : next.bind Task.starting = none) (stripe : next.bind Task.stripe = none)
    (objects : ∀ moved, next = some moved → moved.objects ⊆ task.objects)
    (known : ∀ moved, next = some moved → moved.Knows staged after) : Consistent staged after := by
  have read_after : ∀ other, after.journals.read other =
      if other = object then none else before.journals.read other := by
    intro other
    rw [journals]
    exact read_removeFile _ _ _
  have read_before : ∀ {other journal}, after.journals.read other = some journal →
      before.journals.read other = some journal := by
    intro other journal found
    rw [read_after] at found
    split at found
    · cases found
    · exact found
  refine inv.touch tasks (.inl starting) ?_ ?_ ?_
    { issued, buffers := fun _ _ member => .inl (buffers ▸ member)
      journals := fun sound => journals ▸ sound.removeFile unheld
      present := fun other found => ?_
      files := fun _ _ found dirty _ retired => retired.not_dirty (read_before found) dirty
      holder := fun key other names => ?_
      kept := fun other unknown found => ?_ } fun _ => known
  · rw [stripe]
    exact inv.stripes.give nil_subperm
  · rintro journal rest rfl
    cases stripe
  · intro moved now other listed
    exact inv.established id task running other (objects moved now listed)
  · obtain ⟨journal, read⟩ := isSome_iff_exists.mp found
    exact .inl (isSome_iff_exists.mpr ⟨journal, read_before read⟩)
  · rwa [System.holder, journals] at names
  · rw [read_after, if_neg]
    · exact found
    · rintro rfl
      exact unknown (inv.established id task running other member)

theorem unheld_removeIndex (found : before.journals.read object = some journal) :
    (before.journals.removeIndex journal).dirty.holder (staged object).key ≠ some object := by
  obtain ⟨rfl, key_eq⟩ := inv.journals.named object journal found
  intro names
  have removed := (DirtyIndex.holder_remove_self _ _ _).symm.trans (key_eq ▸ names)
  split at removed
  · cases removed
  · exact absurd removed ‹_›

theorem unheld_of_gone (gone : before.journals.read object = none) :
    before.holder (staged object).key ≠ some object := by
  intro names
  have present := (inv.journals.indexed _ _ names).2
  rw [gone] at present
  cases present

end Consistent

theorem read_openStore (journals : JournalStore) (object : String) :
    (openStore journals.files).read object = journals.read object :=
  congrArg (fun files => OrderedMap.get files object) (files_openStore _)

theorem JournalsSound.dirty_of_openStore {journals : JournalStore} {key : CacheKey}
    {object : String} (sound : JournalsSound staged journals)
    (names : (openStore journals.files).dirty.holder key = some object) :
    ∃ journal, journals.read object = some journal ∧ journal.state = .dirty ∧
      journal.indexKey = key := by
  rw [holder_openStore, map_eq_some_iff] at names
  obtain ⟨journal, last, rfl⟩ := names
  obtain ⟨listed, dirty, key_eq⟩ := mem_dirtyFor.mp (mem_of_getLast? last)
  obtain ⟨⟨file, _⟩, member, rfl⟩ := mem_map.mp listed
  have found := OrderedMap.get_eq_some_of_mem member
  exact ⟨_, (sound.named file _ found).1.symm ▸ found, dirty, key_eq⟩

theorem exclusive_of_resuming
    (resuming : ∀ id task, after.tasks id = some task → ∃ object, task = .resuming object)
    (none_held : ∀ object, held (.resuming object) = none) : Exclusive (after.owned held) := by
  have nothing : after.owned held = fun _ => [] := by
    funext id
    refine eq_nil_iff_forall_not_mem.mpr fun value owned => ?_
    obtain ⟨task, now, holds⟩ := mem_owned.mp owned
    obtain ⟨object, rfl⟩ := resuming id task now
    exact nomatch (none_held object).symm.trans holds
  rw [nothing]
  exact .empty

theorem Consistent.restart (inv : Consistent staged before)
    (journals : after.journals = openStore before.journals.files)
    (buffers : after.buffers = fun _ => {}) (issued : after.issued = before.issued)
    (tasks : after.tasks = fun id => after.journals.dirtyObjectIds[id]?.map .resuming) :
    Consistent staged after := by
  have read_after : ∀ object, after.journals.read object = before.journals.read object :=
    fun object => journals ▸ read_openStore before.journals object
  have dirty : ∀ key object, after.holder key = some object → ∃ journal,
      before.journals.read object = some journal ∧ journal.state = .dirty ∧
        journal.indexKey = key := by
    intro key object names
    rw [System.holder, journals] at names
    exact inv.journals.dirty_of_openStore names
  have resuming : ∀ id task, after.tasks id = some task →
      ∃ object ∈ after.journals.dirtyObjectIds, task = .resuming object := by
    intro id task now
    rw [tasks] at now
    obtain ⟨object, listed, rfl⟩ := map_eq_some_iff.mp now
    exact ⟨object, mem_of_getElem? listed, rfl⟩
  have established : ∀ object, object ∈ before.issued → after.Established object := by
    refine fun object known => ⟨issued ▸ known, fun id task now starts => ?_⟩
    obtain ⟨_, _, rfl⟩ := resuming id task now
    cases starts
  have held : ∀ key object, after.holder key = some object → after.Established object := by
    intro key object names
    obtain ⟨journal, found, _⟩ := dirty key object names
    exact established object (inv.files object (by rw [found]; rfl))
  have resumes : ∀ id task, after.tasks id = some task → ∃ object, task = .resuming object :=
    fun id task now => (resuming id task now).imp fun _ => And.right
  refine ⟨⟨fun object journal found => ?_, fun key object names => ?_⟩, fun object found => ?_,
    held, fun id task object now starts => ?_, exclusive_of_resuming resumes fun _ => rfl,
    exclusive_of_resuming resumes fun _ => rfl, fun id task now object member => ?_,
    fun id task now => ?_, fun stream entry member => ?_⟩
  · exact inv.journals.named object journal ((read_after object).symm.trans found)
  · obtain ⟨journal, found, _, key_eq⟩ := dirty key object names
    refine ⟨(inv.journals.named object journal found).2.symm.trans key_eq, ?_⟩
    rw [read_after, found]
    rfl
  · exact issued ▸ inv.files object (read_after object ▸ found)
  · obtain ⟨_, _, rfl⟩ := resuming id task now
    cases starts
  · obtain ⟨resumed, listed, rfl⟩ := resuming id task now
    rw [mem_singleton.mp member]
    obtain ⟨key, names⟩ := DirtyIndex.mem_objectIds.mp listed
    exact held key resumed names
  · obtain ⟨_, _, rfl⟩ := resuming id task now
    trivial
  · rw [buffers] at member
    cases member

theorem Consistent.step {event : Event} (inv : Consistent staged before)
    (happens : Step staged limit before event after) : Consistent staged after := by
  cases happens with
  | putStart idle fresh _ => exact inv.putStart idle fresh
  | putFail running | acknowledge running | resumeGone running _ | bypassStop running
  | packNothing running | packStop running | markDone running | writeFail running
  | deleteOriginFail landed running | deleteNone running _ | repairDone running =>
    exact inv.stop rfl {}
  | putJournal placements running free => exact inv.putJournal placements running free
  | putIndex running _ => exact inv.putIndex running
  | straggle placement running _ => exact inv.straggle placement running
  | bypass running _ | resume running _ _ | bypassUnbound running _ _ _ | bypassPut running
  | packUpload running | indexRow running | indexDone running | writeEffect running
  | deleteOrigin running | deleteRow running =>
    exact inv.go running rfl rfl rfl (.refl _) trivial {}
  | append running _ kept =>
    cases OffloadBuffer.append_none kept
    refine inv.stop rfl
      { Keeps.refl _ before with buffers := waiting_update fun entry member => ?_ }
    rcases mem_append.mp member with old | new
    · exact .inl old
    · cases mem_singleton.mp new
      exact .inr ⟨inv.established _ _ running _ mem_cons_self, rfl⟩
  | appendFlush running _ reached =>
    obtain ⟨rfl, rfl⟩ := OffloadBuffer.append_some reached
    refine inv.collecting fun entry member => ?_
    rcases mem_append.mp member with old | new
    · exact inv.buffers _ entry old
    · cases mem_singleton.mp new
      exact ⟨inv.established _ _ running _ mem_cons_self, rfl⟩
  | drain _ taken =>
    obtain ⟨rfl, rfl⟩ := OffloadBuffer.takeAll_some taken
    exact inv.collecting (inv.buffers _)
  | bypassRead running found _ _ =>
    exact inv.go running rfl rfl rfl (.refl _) (inv.journals.named _ _ found).2 {}
  | bypassPutFail landed running =>
    cases landed with
    | true | false => exact inv.go running rfl rfl rfl (.refl _) trivial {}
  | collect running found _ =>
    refine inv.go running rfl rfl rfl ?_
      (fun entry member => inv.known _ _ running entry (mem_cons_of_mem _ member)) {}
    simp only [Task.objects, map_append, map_cons, map_nil]
    intro object member
    simp only [mem_append, mem_cons, not_mem_nil, or_false] at member ⊢
    tauto
  | collectSkip running =>
    exact inv.go running rfl rfl rfl (subset_cons_self _ _)
      (fun entry member => inv.known _ _ running entry (mem_cons_of_mem _ member)) {}
  | packStart running _ reserved _ =>
    exact inv.go running rfl rfl rfl (.refl _) reserved {}
  | packFail landed running =>
    have reserved := inv.known _ _ running
    cases landed with
    | true | false => exact inv.go running rfl rfl rfl (.refl _) reserved {}
  | markRead running free found =>
    obtain ⟨rfl, key_eq⟩ := inv.journals.named _ _ found
    refine inv.touch rfl (.inl rfl) (inv.lock_stripe (by rw [running]; rfl) free) nofun ?_
      { Keeps.refl _ before with } ?_
    · rintro _ ⟨⟩ other member
      exact inv.established _ _ running other member
    · rintro _ _ ⟨⟩
      exact key_eq
  | markGone running free gone =>
    exact inv.go running rfl rfl rfl (.refl _) (Consistent.retired_of_gone gone free) {}
  | markWrite running => exact inv.markWrite running
  | markIndex running =>
    have known := inv.known _ _ running
    have object_known := inv.established _ _ running _ mem_cons_self
    exact inv.unindex _ running rfl rfl (.refl _)
      fun effects => effects.retired _ object_known known.2
  | discardIndex running found =>
    exact inv.unindex _ running rfl rfl (.refl _) fun _ => inv.unheld_removeIndex found
  | discardGone running gone =>
    exact inv.go running rfl rfl rfl (.refl _) (inv.unheld_of_gone gone) {}
  | erase running =>
    refine inv.removeFile running mem_cons_self (inv.known _ _ running) rfl rfl rfl rfl rfl
      rfl ?_ ?_
    · rintro _ ⟨⟩
      exact subset_cons_self _ _
    · rintro _ ⟨⟩
      trivial
  | writeStart idle | deleteStart idle _ =>
    exact inv.enter rfl rfl rfl (fun _ member => by cases member) trivial {}
  | @deleteFind id key object running named =>
    have names : before.holder key = some object := (findDirty_eq_holder _ _).symm.trans named
    refine inv.enter rfl rfl rfl (fun other member => ?_)
      (inv.journals.indexed key object names).1 {}
    cases mem_singleton.mp member
    exact inv.held key object names
  | deleteIndex running found =>
    exact inv.unindex _ running rfl rfl (.refl _)
      fun _ => ⟨inv.known _ _ running, inv.unheld_removeIndex found⟩
  | deleteIndexGone running gone =>
    exact inv.go running rfl rfl rfl (.refl _)
      ⟨inv.known _ _ running, inv.unheld_of_gone gone⟩ {}
  | deleteFile running =>
    exact inv.removeFile running mem_cons_self (inv.known _ _ running).2 rfl rfl rfl rfl rfl
      rfl (fun _ => nofun) fun _ => nofun
  | repairStart _ =>
    refine inv.enter rfl rfl rfl (fun object member => ?_) trivial { Keeps.refl _ before with }
    obtain ⟨key, names⟩ := DirtyIndex.mem_objectIds.mp member
    exact inv.held key object names
  | repairSkip running =>
    exact inv.go running rfl rfl rfl (subset_cons_self _ _) trivial {}
  | repairRead placements running free found =>
    obtain ⟨rfl, key_eq⟩ := inv.journals.named _ _ found
    refine inv.touch rfl (.inl rfl) (inv.lock_stripe (by rw [running]; rfl) free) ?_ ?_
      { Keeps.refl _ before with } ?_
    · intro copy others now dirty retired
      cases now
      exact retired.not_dirty found dirty
    · rintro _ ⟨⟩ other member
      exact inv.established _ _ running other member
    · rintro _ _ ⟨⟩
      exact key_eq
  | repairWrite running =>
    refine inv.writeBack running rfl (inv.known _ _ running)
      (inv.established _ _ running _ mem_cons_self) ?_ (.inl rfl) nofun
      (subset_cons_self _ _) fun _ => trivial
    intro dirty retired
    exact absurd ((retired.copies _ _ _ running rfl).symm.trans dirty) nofun
  | restart => exact inv.restart rfl rfl rfl rfl

theorem consistent_start (origin : CacheKey → Option Bytes) : Consistent staged { origin } := by
  have unnamed : ∀ key object, System.holder { origin } key ≠ some object := by
    intro key object names
    cases names
  exact {
    journals :=
      ⟨fun _ _ found => (nomatch found), fun key object names => absurd names (unnamed _ _)⟩
    files := fun _ found => nomatch found
    held := fun key object names => absurd names (unnamed _ _)
    starting := fun _ _ _ running => nomatch running
    single := .empty
    stripes := .empty
    established := fun _ _ running => nomatch running
    known := fun _ _ running => nomatch running
    buffers := fun _ _ member => absurd member not_mem_nil }

theorem Run.consistent {condition : System → Event → Prop} {start : System}
    (run : Run staged limit condition start system) (consistent : Consistent staged start) :
    Consistent staged system := by
  induction run with
  | refl => exact consistent
  | step run happens _ induction => exact induction.step happens

end Verglas.Writeback
