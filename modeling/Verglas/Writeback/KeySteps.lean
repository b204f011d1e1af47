import Verglas.Writeback.OneKey

/-!
# The steps of one key

Every step of the coordinator keeps the invariant of a key whose operations do not overlap and that
no flush packs.
-/

namespace Verglas.Writeback

open Function List Option JournalStore

variable {staged : String → StagedObject} {limit : Nat} {key : CacheKey}
  {latest later : Option Bytes} {before after system : System}

namespace KeyInvariant

variable {id attempts : Nat} {object : String} {journal : Journal} {lock : Option CacheKey}
  {rest : List String} {other : CacheKey} {phase : DeletePhase}

variable (inv : KeyInvariant staged key latest before) (consistent : Consistent staged before)
include inv consistent

theorem stop {task : Task} (running : before.tasks id = some task)
    (tasks : after.tasks = update before.tasks id none)
    (same : SameKey key before after) (accounts : task.accounts = none) :
    KeyStep staged key latest latest before after := by
  refine inv.go consistent running tasks (.inl rfl) (.inl rfl) same (fun _ _ => ?_)
    (fun _ => nofun) nofun
  rw [accounts]
  nofun

theorem move {task next : Task} (running : before.tasks id = some task)
    (tasks : after.tasks = update before.tasks id (some next))
    (same : SameKey key before after)
    (locks : next.lock staged = task.lock staged ∨ next.lock staged = none)
    (changes : next.writes staged = none ∧ next.deletes = none) (accounts : task.accounts = none)
    (minds : next.Minds staged key latest after) :
    KeyStep staged key latest latest before after := by
  have unchanging : next.changes staged key = none := by simp [Task.changes, changes]
  refine inv.go consistent running tasks ?_ (.inl unchanging) same (fun _ _ => ?_)
    (fun moved now => some.inj now ▸ minds) fun phase now => ?_
  · rcases locks with kept | free
    · exact .inr (.inl (by rw [bind_some, Task.locks, Task.locks, kept]))
    · exact .inl (by simp [Task.locks, free])
  · rw [accounts]
    rintro ⟨⟩
  · cases now
    cases changes.2

theorem putJournal (placements : List Placement)
    (running : before.tasks id = some (.staging object)) :
    KeyStep staged key latest latest before
      ({ before with
        journals := before.journals.writeFsynced (journalOf staged object placements) }.run id
          (.journaling object placements)) := by
  set after := { before with
    journals := before.journals.writeFsynced (journalOf staged object placements) }.run id
      (.journaling object placements) with after_eq
  have written : after.journals =
      before.journals.writeFsynced (journalOf staged object placements) := rfl
  have kept : ∀ other, before.DirtyFile key other → after.DirtyFile key other := by
    intro other dirty
    rw [dirtyFile_of_write written]
    by_cases same : other = object
    · exact .inl ⟨same, same ▸ key_of_dirtyFile consistent dirty, rfl⟩
    · exact .inr ⟨same, dirty⟩
  refine inv.replace consistent running rfl (.inr (.inl rfl)) (.inr rfl)
    ⟨fun unpacked => unpacked, .inl rfl, .inl rfl, .inl rfl, fun other dirty => ?_,
      fun other dirty => .inl (kept other dirty)⟩
    (fun body is_latest => (inv.current body is_latest).congr rfl rfl kept)
    (fun other dirty => ?_) ?_ nofun
  · rcases (dirtyFile_of_write written other).mp dirty with ⟨rfl, _⟩ | ⟨_, old⟩
    · exact .inr rfl
    · exact .inl old
  · rcases (dirtyFile_of_write written other).mp dirty with ⟨rfl, _⟩ | ⟨_, old⟩
    · exact .inr (.inl ⟨id, placements, update_self id _ _⟩)
    · exact accounted_of_step running rfl (fun named => named) nofun (inv.dirty other old)
  · rintro _ ⟨⟩ key_eq
    exact ⟨inv.tasks id _ running key_eq,
      (dirtyFile_of_write written object).mpr (.inl ⟨rfl, key_eq, rfl⟩)⟩

omit consistent in
theorem eq_of_lock {left right : Nat} {first second : Task}
    (left_running : before.tasks left = some first)
    (right_running : before.tasks right = some second) (left_locks : first.lock staged = some key)
    (right_locks : second.lock staged = some key) : first = second := by
  have same := inv.locks.unique
    (mem_owned.mpr ⟨first, left_running, Task.locks_eq_some.mpr left_locks⟩)
    (mem_owned.mpr ⟨second, right_running, Task.locks_eq_some.mpr right_locks⟩)
  subst same
  exact some.inj (left_running.symm.trans right_running)

theorem index {placements : List Placement}
    (running : before.tasks id = some (.journaling object placements))
    (key_eq : (staged object).key = key) :
    KeyStep staged key latest (some (staged object).body) before
      ({ before with
        journals := before.journals.insertIndex (journalOf staged object placements) }.run id
          (.settling object)) := by
  obtain ⟨unheld, dirty⟩ := inv.tasks id _ running key_eq
  have locks : (Task.journaling object placements).locks staged key = some () :=
    Task.locks_eq_some.mpr (congrArg some key_eq)
  have changes : (Task.journaling object placements).changes staged key = some () :=
    Task.changes_eq_some.mpr (.inl (congrArg some key_eq))
  have names : (before.journals.insertIndex (journalOf staged object placements)).dirty.holder key =
      some object := by
    rw [← key_eq]
    exact DirtyIndex.holder_insert_self _ _ _
  refine inv.replace consistent running rfl (.inr (.inl rfl)) (.inl rfl)
    ⟨fun unpacked => unpacked, .inr ⟨locks, .inr changes⟩, .inl rfl, .inr changes,
      fun other dirty => .inl dirty, fun other dirty => .inl dirty⟩ (fun body is_latest => ?_)
    (fun other other_dirty => ?_) ?_ nofun
  · cases is_latest
    refine ⟨fun other named => ?_, fun free => nomatch names.symm.trans free⟩
    cases names.symm.trans named
    exact ⟨rfl, .inl dirty⟩
  · have lock : (Task.journaling object placements).lock staged = some key := congrArg some key_eq
    have other_key := key_of_dirtyFile consistent other_dirty
    rcases inv.dirty other other_dirty with named | ⟨writer, written, now⟩ | ⟨deleter, now⟩
    · exact nomatch unheld.symm.trans named
    · cases inv.eq_of_lock running now lock (congrArg some other_key)
      exact .inl names
    · cases inv.eq_of_lock running now lock rfl
  · rintro _ ⟨⟩
    trivial

theorem putIndex {handler : Nat} {placements : List Placement}
    (running : before.tasks id = some (.journaling object placements))
    (idle : before.tasks handler = none) :
    ∃ later, KeyStep staged key latest later before
      (({ before with
        journals := before.journals.insertIndex (journalOf staged object placements) }.run id
          (.settling object)).run handler
            (.returning (staged object).key (staged object).body)) := by
  have apart : handler ≠ id := by
    rintro rfl
    exact nomatch idle.symm.trans running
  have still_idle : update before.tasks id (some (.settling object)) handler = none :=
    (update_of_ne apart _ _).trans idle
  by_cases key_eq : (staged object).key = key
  · have indexed := inv.index consistent running key_eq
    have changes : (Task.journaling object placements).changes staged key = some () :=
      Task.changes_eq_some.mpr (.inl (congrArg some key_eq))
    refine ⟨_, indexed.invariant.enter still_idle rfl ⟨rfl, rfl, rfl, fun _ => .rfl⟩ nofun rfl nofun
      ?_ nofun (.inl rfl) fun _ => rfl, fun quiet => absurd ⟨id, _, running, changes⟩ quiet⟩
    rintro _ ⟨other, moved, now, moved_changes⟩
    rcases of_update_eq now with ⟨rfl, new⟩ | ⟨same, old⟩
    · cases new
      exact nomatch (Task.changes_eq_some.mp moved_changes)
    · exact same (inv.changes.unique (mem_owned.mpr ⟨moved, old, moved_changes⟩)
        (mem_owned.mpr ⟨_, running, changes⟩))
  · have settled : KeyStep staged key latest latest before ({ before with
          journals := before.journals.insertIndex (journalOf staged object placements) }.run id
            (.settling object)) := by
      refine inv.go consistent running rfl (.inr (.inl rfl)) (.inl ?_)
        ⟨rfl, rfl, DirtyIndex.holder_insert_of_ne _ _ (Ne.symm key_eq), fun _ => .rfl⟩
        (fun other dirty accounts => ?_) ?_ nofun
      · rfl
      · cases accounts
        exact key_eq (key_of_dirtyFile consistent dirty)
      · rintro _ ⟨⟩
        trivial
    refine ⟨latest, settled.trans (settled.invariant.enterApart still_idle rfl
      ⟨rfl, rfl, rfl, fun _ => .rfl⟩ nofun rfl nofun (fun changes => ?_)
      fun same => absurd same key_eq)⟩
    exact key_eq (some.inj ((Task.changes_eq_some.mp changes).resolve_right nofun))

theorem straggle (placement : Placement) (running : before.tasks id = some (.settling object)) :
    KeyStep staged key latest latest before
      { before with journals := before.journals.addPlacement object placement } := by
  have tasks : before.tasks = update before.tasks id (some (.settling object)) :=
    (update_eq_self_iff.mpr running.symm).symm
  have holder : (before.journals.addPlacement object placement).dirty.holder key =
      before.holder key := by
    rw [KeyEffects.dirty_addPlacement]
    rfl
  exact inv.move consistent running tasks
    ⟨rfl, rfl, holder, fun other => KeyEffects.dirtyFile_addPlacement consistent rfl⟩ (.inl rfl)
    ⟨rfl, rfl⟩ rfl trivial

theorem held_of_read (running : before.tasks id = some (.bypassing object attempts))
    (found : before.journals.read object = some journal) (dirty : journal.state = .dirty)
    (key_eq : (staged object).key = key) : before.holder key = some object := by
  have index_key := (consistent.journals.named object journal found).2
  rcases inv.dirty object ⟨journal, found, index_key.trans key_eq, dirty⟩ with
    named | ⟨writer, placements, now⟩ | ⟨deleter, now⟩
  · exact named
  · have known := consistent.established id _ running object mem_cons_self
    exact absurd rfl (known.indexed writer _ now)
  · cases inv.eq_of_lock running now (congrArg some key_eq) rfl

theorem upload {next : Task} (running : before.tasks id = some (.putting object journal attempts))
    (locks : next.lock staged = (Task.putting object journal attempts).lock staged)
    (changes : next.writes staged = none ∧ next.deletes = none)
    (minds : ∀ after : System, (staged object).key ≠ key ∨ Uploaded staged key after object →
      next.Minds staged key latest after) :
    KeyStep staged key latest latest before
      ((before.store journal.indexKey (staged object).body).run id next) := by
  have index_key : journal.indexKey = (staged object).key := consistent.known id _ running
  by_cases key_eq : (staged object).key = key
  · have held : before.holder key = some object := inv.tasks id _ running key_eq
    have lock : (Task.putting object journal attempts).locks staged key = some () :=
      Task.locks_eq_some.mpr (congrArg some key_eq)
    have stored : update before.origin journal.indexKey (some (staged object).body) key =
        some (staged object).body := by
      rw [index_key, key_eq, update_self]
    refine inv.replace consistent running rfl (.inr (.inl ?_)) (.inl ?_)
      ⟨fun unpacked => unpacked, .inl rfl, .inr (.inl lock), .inl rfl, fun _ dirty => .inl dirty,
        fun _ dirty => .inl dirty⟩ (fun body is_latest => ?_) (fun other dirty => ?_) ?_
      fun phase now => ?_
    · rw [bind_some, Task.locks, Task.locks, locks]
    · simp [Task.changes, changes]
    · refine ⟨fun other named => ?_, fun free => ?_⟩
      · cases held.symm.trans named
        have body_eq := ((inv.current body is_latest).held object held).1
        exact ⟨body_eq, .inr (body_eq ▸ stored)⟩
      · cases held.symm.trans free
    · exact accounted_of_step running rfl (fun named => named) (by rintro ⟨⟩)
        (inv.dirty other dirty)
    · rintro _ ⟨⟩
      exact minds _ (.inr ⟨key_eq, held, stored⟩)
    · cases now
      cases changes.2
  · refine inv.move consistent running rfl ⟨rfl, update_of_ne ?_ _ _, rfl, fun _ => .rfl⟩
      (.inl locks) changes rfl (minds _ (.inl key_eq))
    rw [index_key]
    exact Ne.symm key_eq

theorem markWrite (running : before.tasks id = some (.cleaning lock journal rest)) :
    KeyStep staged key latest latest before
      ({ before with
        journals := before.journals.writeFsynced { journal with state := .clean } }.run id
          (.unindexing lock { journal with state := .clean } rest)) := by
  set after := { before with
    journals := before.journals.writeFsynced { journal with state := .clean } }.run id
      (.unindexing lock { journal with state := .clean } rest) with after_eq
  have written : after.journals =
      before.journals.writeFsynced { journal with state := .clean } := rfl
  have minds := inv.tasks id _ running
  have remaining : ∀ other, after.DirtyFile key other →
      other ≠ journal.objectId ∧ before.DirtyFile key other := by
    intro other dirty
    exact ((dirtyFile_of_write written other).mp dirty).resolve_left nofun
  have kept : ∀ other, other ≠ journal.objectId → before.DirtyFile key other →
      after.DirtyFile key other := fun other ne dirty =>
    (dirtyFile_of_write written other).mpr (.inr ⟨ne, dirty⟩)
  refine inv.replace consistent running rfl (.inr (.inl rfl)) (.inr rfl)
    ⟨fun unpacked => unpacked, .inl rfl, .inl rfl, .inl rfl,
      fun other dirty => .inl (remaining other dirty).2, fun other dirty => ?_⟩
    (fun body is_latest => ?_) (fun other dirty => ?_) ?_ nofun
  · by_cases same : other = journal.objectId
    · exact .inr (.inr (congrArg some same.symm))
    · exact .inl (kept other same dirty)
  · have readable := inv.current body is_latest
    refine ⟨fun other named => ?_, readable.unheld⟩
    obtain ⟨body_eq, lies⟩ := readable.held other named
    refine ⟨body_eq, ?_⟩
    by_cases same : other = journal.objectId
    · rcases minds with foreign | ⟨_, _, uploaded⟩
      · have other_key := (consistent.journals.indexed key other named).1
        exact absurd (same ▸ other_key) (foreign _ mem_cons_self)
      · refine .inr (uploaded.stored.trans ?_)
        rw [← same, body_eq]
    · exact lies.imp_left (kept other same)
  · exact accounted_of_step running rfl (fun named => named) nofun
      (inv.dirty other (remaining other dirty).2)
  · rintro _ ⟨⟩
    exact minds.imp_right fun ⟨last, locked, uploaded⟩ =>
      ⟨last, locked, uploaded.key_eq, uploaded.held, uploaded.stored⟩

theorem markIndex (running : before.tasks id = some (.unindexing lock journal rest)) :
    KeyStep staged key latest latest before
      ({ before with journals := before.journals.removeIndex journal }.run id
        (.discarding lock journal.objectId rest)) := by
  obtain ⟨index_key, retired⟩ := consistent.known id _ running
  rcases inv.tasks id _ running with foreign | ⟨rfl, rfl, uploaded⟩
  · have ne : key ≠ journal.indexKey := by
      rw [index_key]
      exact (foreign _ mem_cons_self).symm
    exact inv.move consistent running rfl
      ⟨rfl, rfl, DirtyIndex.holder_remove_of_ne _ _ ne, fun _ => .rfl⟩ (.inl rfl) ⟨rfl, rfl⟩ rfl
      (.inl foreign)
  · have freed : (before.journals.removeIndex journal).dirty.holder key = none := by
      have named := uploaded.held
      rw [← uploaded.key_eq, ← index_key] at named ⊢
      exact (DirtyIndex.holder_remove_self _ _ _).trans (if_pos named)
    have locked : (Task.unindexing (some key) journal []).locks staged key = some () :=
      Task.locks_eq_some.mpr rfl
    refine inv.replace consistent running rfl (.inr (.inl rfl)) (.inr rfl)
      ⟨fun unpacked => unpacked, .inr ⟨locked, .inl freed⟩, .inl rfl, .inl rfl,
        fun _ dirty => .inl dirty, fun _ dirty => .inl dirty⟩ (fun body is_latest => ?_)
      (fun other dirty => ?_) ?_ nofun
    · refine ⟨fun other named => (nomatch freed.symm.trans named), fun _ => ?_⟩
      have body_eq := ((inv.current body is_latest).held _ uploaded.held).1
      exact uploaded.stored.trans (congrArg some body_eq)
    · refine accounted_of_step running rfl (fun named => ?_) nofun (inv.dirty other dirty)
      obtain ⟨found, read, _, state⟩ := dirty
      cases uploaded.held.symm.trans named
      exact nomatch (retired.file found read).symm.trans state
    · rintro _ ⟨⟩
      exact .inr ⟨rfl, rfl, freed⟩

omit inv consistent in
theorem minds_erasing (minds : (Task.discarding lock object rest).Minds staged key latest before)
    (holder : after.holder key = before.holder key) (clean : ¬after.DirtyFile key object) :
    (Task.erasing lock object rest).Minds staged key latest after := by
  rcases minds with foreign | ⟨last, locked, unheld⟩
  · exact .inl foreign
  · exact .inr ⟨last, locked, holder.trans unheld, clean⟩

theorem discardIndex (running : before.tasks id = some (.discarding lock object rest))
    (found : before.journals.read object = some journal) :
    KeyStep staged key latest latest before
      ({ before with journals := before.journals.removeIndex journal }.run id
        (.erasing lock object rest)) := by
  have retired : before.Retired object := consistent.known id _ running
  have same : (before.journals.removeIndex journal).dirty.holder key = before.holder key := by
    rcases KeyEffects.holder_removeIndex before.journals journal key with
      same | ⟨_, names, key_eq⟩
    · exact same
    rcases inv.tasks id _ running with foreign | ⟨_, _, unheld⟩
    · have index_key := (consistent.journals.named object journal found).2
      exact absurd (index_key.symm.trans key_eq) (foreign object mem_cons_self)
    · exact nomatch unheld.symm.trans names
  refine inv.move consistent running rfl ⟨rfl, rfl, same, fun _ => .rfl⟩ (.inl rfl) ⟨rfl, rfl⟩ rfl
    (minds_erasing (inv.tasks id _ running) same ?_)
  rintro ⟨other, read, _, state⟩
  exact nomatch (retired.file other read).symm.trans state

theorem erase (running : before.tasks id = some (.erasing lock object rest)) :
    KeyStep staged key latest latest before
      ({ before with journals := before.journals.removeFile object }.run id
        (.marking lock rest)) := by
  have minds := inv.tasks id _ running
  have clean : ¬before.DirtyFile key object := by
    rcases minds with foreign | ⟨_, _, _, clean⟩
    · exact fun dirty => foreign object mem_cons_self (key_of_dirtyFile consistent dirty)
    · exact clean
  refine inv.move consistent running rfl ⟨rfl, rfl, rfl, fun other => ?_⟩ (.inl rfl) ⟨rfl, rfl⟩
    rfl ?_
  · refine (dirtyFile_of_remove rfl other).trans (and_iff_right_of_imp fun dirty => ?_)
    rintro rfl
    exact clean dirty
  · rcases minds with foreign | ⟨rfl, _⟩
    · exact .inl (forall_mem_cons.mp foreign).2
    · exact .inl nofun

theorem writeEffect {body : Bytes} (running : before.tasks id = some (.writing other body)) :
    ∃ later, KeyStep staged key latest later before
      ((before.store other body).run id (.returning other body)) := by
  by_cases key_eq : other = key
  · subst key_eq
    have unheld : before.holder other = none := inv.tasks id _ running rfl
    have changes : (Task.writing other body).changes staged other = some () :=
      Task.changes_eq_some.mpr (.inl rfl)
    refine ⟨some body, inv.replace consistent running rfl (.inl ?_) (.inr rfl)
      ⟨fun unpacked => unpacked, .inl rfl, .inr (.inr ⟨unheld, changes⟩), .inr changes,
        fun _ dirty => .inl dirty, fun _ dirty => .inl dirty⟩ (fun later is_latest => ?_)
      (fun object dirty => ?_) ?_ nofun⟩
    · rfl
    · cases is_latest
      exact ⟨fun object named => (nomatch unheld.symm.trans named), fun _ => update_self other _ _⟩
    · exact accounted_of_step running rfl (fun named => named) nofun (inv.dirty object dirty)
    · rintro _ ⟨⟩ _
      rfl
  · refine ⟨latest, inv.go consistent running rfl (.inl rfl) (.inr rfl)
      ⟨rfl, update_of_ne (Ne.symm key_eq) _ _, rfl, fun _ => .rfl⟩ (fun _ _ => nofun) ?_ nofun⟩
    rintro _ ⟨⟩ same
    exact absurd same key_eq

omit consistent in
theorem deleteStart (idle : before.tasks id = none) (unlocked : ¬before.Locked staged other)
    (apart : Apart staged key before (.deleteStart other)) :
    KeyInvariant staged key (if other = key then none else latest)
      (before.run id (.deleting other .origin)) := by
  have busy_of : before.Deleting key → before.Locked staged key := fun ⟨deleter, phase, deleting⟩ =>
    ⟨deleter, _, deleting, rfl⟩
  split_ifs with key_eq
  · subst key_eq
    refine inv.enter idle rfl ⟨rfl, rfl, rfl, fun _ => .rfl⟩ nofun rfl (fun _ => unlocked)
      (fun _ => ?_) (fun _ => (apart rfl).2) (.inr ⟨rfl, Task.changes_eq_some.mpr (.inr rfl)⟩)
      fun _ => ⟨rfl, trivial⟩
    rw [System.busy_iff]
    exact not_or.mpr ⟨(apart rfl).1, mt busy_of unlocked⟩
  · refine inv.enter idle rfl ⟨rfl, rfl, rfl, fun _ => .rfl⟩ nofun rfl (fun locked => ?_)
      (fun changes => ?_) (fun deletes => ?_) (.inl rfl) fun same => absurd same key_eq
    · exact absurd (some.inj locked) key_eq
    · exact absurd (some.inj ((Task.changes_eq_some.mp changes).resolve_left nofun)) key_eq
    · exact absurd (some.inj deletes) key_eq

theorem advanceDelete (next : Option DeletePhase)
    (running : before.tasks id = some (.deleting key phase))
    (tasks : after.tasks = update before.tasks id (next.map (.deleting key)))
    (packs : before.packs key = none → after.packs key = none)
    (holder : after.holder key = before.holder key ∨ after.holder key = none)
    (gained : ∀ object, after.DirtyFile key object → before.DirtyFile key object)
    (dirty : ∀ object, after.DirtyFile key object → after.Accounted key object)
    (minds : ∀ moved, next = some moved → moved.Minds key after) :
    KeyStep staged key latest latest before after := by
  have none_left : latest = none := (inv.tasks id _ running rfl).1
  have locks : (Task.deleting key phase).locks staged key = some () := Task.locks_eq_some.mpr rfl
  refine inv.replace consistent running tasks ?_ ?_
    ⟨packs, holder.imp_right fun freed => ⟨locks, .inl freed⟩, .inr (.inl locks), .inl rfl,
      fun object is_dirty => .inl (gained object is_dirty), fun object _ =>
        .inr (.inl ⟨id, phase, running⟩)⟩ (fun body is_latest => ?_) dirty ?_ fun _ _ => rfl
  · cases next with
    | none => exact .inl rfl
    | some moved => exact .inr (.inl rfl)
  · cases next with
    | none => exact .inl rfl
    | some moved => exact .inr rfl
  · exact nomatch none_left.symm.trans is_latest
  · intro moved now
    obtain ⟨moved_phase, next_eq, rfl⟩ := map_eq_some_iff.mp now
    exact fun _ => ⟨none_left, minds moved_phase next_eq⟩

theorem deleteElsewhere (next : Option DeletePhase)
    (running : before.tasks id = some (.deleting other phase)) (ne : other ≠ key)
    (tasks : after.tasks = update before.tasks id (next.map (.deleting other)))
    (same : SameKey key before after) : KeyStep staged key latest latest before after := by
  refine inv.go consistent running tasks ?_ ?_ same
    (fun object dirty accounts => ?_) (fun moved now => ?_) fun moved now => ?_
  · cases next with
    | none => exact .inl rfl
    | some moved => exact .inr (.inl rfl)
  · cases next with
    | none => exact .inl rfl
    | some moved => exact .inr rfl
  · cases phase with
    | file removed =>
      cases accounts
      exact ne ((consistent.known id _ running).1.symm.trans (key_of_dirtyFile consistent dirty))
    | _ => cases accounts
  · obtain ⟨moved_phase, _, rfl⟩ := map_eq_some_iff.mp now
    exact fun same => absurd same ne
  · obtain ⟨moved_phase, _, same⟩ := map_eq_some_iff.mp now
    exact absurd (Task.deleting.inj same).1 ne

theorem deleteOutside (next : Option DeletePhase)
    (running : before.tasks id = some (.deleting other phase))
    (accounts : (Task.deleting other phase).accounts = none)
    (tasks : after.tasks = update before.tasks id (next.map (.deleting other)))
    (packs : ∀ name, name ≠ other → after.packs name = before.packs name)
    (unpacked : before.packs other = none → after.packs other = none)
    (origin : ∀ name, name ≠ other → after.origin name = before.origin name)
    (journals : after.journals = before.journals)
    (minds : other = key → ∀ moved, next = some moved → moved.Minds key after) :
    KeyStep staged key latest latest before after := by
  have holder : after.holder key = before.holder key := by
    rw [System.holder, journals, System.holder]
  have files : ∀ object, after.DirtyFile key object ↔ before.DirtyFile key object := by
    intro object
    rw [System.DirtyFile, journals, System.DirtyFile]
  by_cases key_eq : other = key
  · subst key_eq
    refine inv.advanceDelete consistent next running tasks unpacked (.inl holder)
      (fun object => (files object).mp) (fun object dirty => ?_) (minds rfl)
    refine accounted_of_step running tasks (fun named => holder.trans named) ?_
      (inv.dirty object ((files object).mp dirty))
    rw [accounts]
    rintro ⟨⟩
  · exact inv.deleteElsewhere consistent next running key_eq tasks
      ⟨packs key (Ne.symm key_eq), origin key (Ne.symm key_eq), holder, files⟩

theorem deleteIndex (running : before.tasks id = some (.deleting other (.index object)))
    (found : before.journals.read object = some journal) :
    KeyStep staged key latest latest before
      ({ before with journals := before.journals.removeIndex journal }.run id
        (.deleting other (.file object))) := by
  obtain ⟨named, index_key⟩ := consistent.journals.named object journal found
  have object_key : (staged object).key = other := consistent.known id _ running
  by_cases key_eq : other = key
  · subst key_eq
    have held : before.holder other = some object := (inv.tasks id _ running rfl).2
    have freed : (before.journals.removeIndex journal).dirty.holder other = none := by
      have named_too := held
      rw [← object_key, ← index_key, ← named] at named_too
      rw [← object_key, ← index_key]
      exact (DirtyIndex.holder_remove_self _ _ _).trans (if_pos named_too)
    refine inv.advanceDelete consistent (some (.file object)) running rfl
      (fun unpacked => unpacked) (.inr freed) (fun _ dirty => dirty) (fun removed dirty => ?_) ?_
    · rcases inv.dirty removed dirty with names | ⟨writer, placements, now⟩ | ⟨deleter, now⟩
      · cases held.symm.trans names
        exact .inr (.inr ⟨id, update_self id _ _⟩)
      · have removed_key := key_of_dirtyFile consistent dirty
        cases inv.eq_of_lock running now rfl (congrArg some removed_key)
      · cases inv.eq_of_lock running now rfl rfl
    · rintro _ ⟨⟩
      exact freed
  · refine inv.deleteElsewhere consistent (some (.file object)) running key_eq rfl
      ⟨rfl, rfl, DirtyIndex.holder_remove_of_ne _ _ ?_, fun _ => .rfl⟩
    rw [index_key, object_key]
    exact Ne.symm key_eq

omit inv consistent in
theorem not_gone (consistent : Consistent staged before) (held : before.holder key = some object)
    (gone : before.journals.read object = none) : False := by
  have present := (consistent.journals.indexed key object held).2
  rw [gone] at present
  cases present

theorem deleteFile (running : before.tasks id = some (.deleting other (.file object))) :
    KeyStep staged key latest latest before
      ({ before with
        journals := before.journals.removeFile object
        deleted := other :: before.deleted }.finish id) := by
  by_cases key_eq : other = key
  · subst key_eq
    refine inv.advanceDelete consistent none running rfl (fun unpacked => unpacked)
      (.inl rfl) (fun removed dirty => ?_) (fun removed dirty => ?_) nofun
    · exact ((dirtyFile_of_remove rfl removed).mp dirty).2
    · obtain ⟨ne, was_dirty⟩ := (dirtyFile_of_remove rfl removed).mp dirty
      refine accounted_of_step running rfl (fun named => named) (fun accounts => ?_)
        (inv.dirty removed was_dirty)
      exact ne (some.inj accounts).symm
  · refine inv.deleteElsewhere consistent none running key_eq rfl ⟨rfl, rfl, rfl, fun kept => ?_⟩
    refine (dirtyFile_of_remove rfl kept).trans (and_iff_right_of_imp fun dirty => ?_)
    rintro rfl
    exact key_eq ((consistent.known id _ running).1.symm.trans (key_of_dirtyFile consistent dirty))

theorem repairRead (placements : List Placement)
    (running : before.tasks id = some (.repairing (object :: rest)))
    (found : before.journals.read object = some journal)
    (apart : Apart staged key before (.repairRead object)) :
    KeyStep staged key latest latest before
      (before.run id (.rewriting { journal with placements } rest)) := by
  obtain ⟨named, index_key⟩ := consistent.journals.named object journal found
  refine inv.move consistent running rfl ⟨rfl, rfl, rfl, fun _ => .rfl⟩ (.inr rfl) ⟨rfl, rfl⟩ rfl
    fun key_eq => ?_
  have read : before.journals.read journal.objectId = some journal := by rw [named, found]
  refine ⟨⟨fun state => ⟨journal, read, key_eq, state⟩, ?_⟩, ?_⟩
  · rintro ⟨other, other_read, _, state⟩
    cases read.symm.trans other_read
    exact state
  · rintro ⟨deleter, phase, deleting⟩
    rcases of_update_eq deleting with ⟨rfl, new⟩ | ⟨_, old⟩
    · cases new
    · exact apart (index_key.symm.trans key_eq) ⟨deleter, phase, old⟩

theorem repairWrite (running : before.tasks id = some (.rewriting journal rest)) :
    KeyStep staged key latest latest before
      ({ before with journals := before.journals.writeFsynced journal }.run id
        (.repairing rest)) := by
  have index_key : journal.indexKey = (staged journal.objectId).key := consistent.known id _ running
  have copied : journal.indexKey = key ∧ journal.state = .dirty ↔
      before.DirtyFile key journal.objectId := by
    constructor
    · rintro ⟨key_eq, state⟩
      exact (inv.tasks id _ running key_eq).1.mp state
    · intro dirty
      have key_eq := index_key.trans (key_of_dirtyFile consistent dirty)
      exact ⟨key_eq, (inv.tasks id _ running key_eq).1.mpr dirty⟩
  refine inv.move consistent running rfl ⟨rfl, rfl, rfl, fun other => ?_⟩ (.inr rfl) ⟨rfl, rfl⟩ rfl
    trivial
  refine (dirtyFile_of_write rfl other).trans ?_
  by_cases same : other = journal.objectId
  · rw [same, copied]
    exact ⟨fun found => found.elim And.right fun other => absurd rfl other.1,
      fun dirty => .inl ⟨rfl, dirty⟩⟩
  · exact ⟨fun found => found.elim (fun here => absurd here.1 same) And.right,
      fun dirty => .inr ⟨same, dirty⟩⟩

theorem eq_of_dirtyFile (idle : ¬before.InProgress staged key) {first second : String}
    (first_dirty : before.DirtyFile key first) (second_dirty : before.DirtyFile key second) :
    first = second := by
  have accounted : ∀ object, before.DirtyFile key object → before.holder key = some object ∨
      ∃ id, before.tasks id = some (.deleting key (.file object)) := by
    intro object dirty
    rcases inv.dirty object dirty with named | ⟨id, placements, now⟩ | deleting
    · exact .inl named
    · exact absurd ⟨id, _, now, congrArg some (key_of_dirtyFile consistent dirty)⟩ idle
    · exact .inr deleting
  have unheld : ∀ object id, before.tasks id = some (.deleting key (.file object)) →
      before.holder key = none := fun object id now => (inv.tasks id _ now rfl).2
  rcases accounted first first_dirty with first_named | ⟨left, left_now⟩
  · rcases accounted second second_dirty with second_named | ⟨right, right_now⟩
    · exact some.inj (first_named.symm.trans second_named)
    · exact nomatch (unheld second right right_now).symm.trans first_named
  · rcases accounted second second_dirty with second_named | ⟨right, right_now⟩
    · exact nomatch (unheld first left left_now).symm.trans second_named
    · cases inv.eq_of_lock left_now right_now rfl rfl
      rfl

/-- Without a write or a delete in progress, only the indexed journal of the key is dirty. -/
theorem held_of_dirtyFile (quiet : ¬before.Busy staged key) (dirty : before.DirtyFile key object) :
    before.holder key = some object := by
  rcases inv.dirty object dirty with named | ⟨id, placements, now⟩ | ⟨id, now⟩
  · exact named
  · exact absurd (System.busy_iff.mpr (.inl
      ⟨id, _, now, congrArg some (key_of_dirtyFile consistent dirty)⟩)) quiet
  · exact absurd (System.busy_iff.mpr (.inr ⟨id, _, now⟩)) quiet

theorem restart (idle : ¬before.InProgress staged key) (packs : after.packs key = none)
    (origin : after.origin = before.origin)
    (journals : after.journals = openStore before.journals.files)
    (tasks : after.tasks = fun id => after.journals.dirtyObjectIds[id]?.map .resuming) :
    KeyStep staged key latest latest before after := by
  have files : ∀ object, after.DirtyFile key object ↔ before.DirtyFile key object := by
    intro object
    rw [System.DirtyFile, journals, read_openStore, System.DirtyFile]
  have resuming : ∀ id task, after.tasks id = some task → ∃ object, task = .resuming object := by
    intro id task now
    rw [tasks] at now
    obtain ⟨object, _, rfl⟩ := map_eq_some_iff.mp now
    exact ⟨object, rfl⟩
  have dirty_of_held : ∀ object, after.holder key = some object → before.DirtyFile key object := by
    intro object named
    rw [System.holder, journals] at named
    obtain ⟨journal, found, state, key_eq⟩ := consistent.journals.dirty_of_openStore named
    exact ⟨journal, found, key_eq, state⟩
  have held_of_dirty : ∀ object, before.DirtyFile key object → after.holder key = some object := by
    intro object dirty
    cases named : after.holder key with
    | some other =>
      rw [inv.eq_of_dirtyFile consistent idle dirty (dirty_of_held other named)]
    | none =>
      obtain ⟨journal, found, key_eq, state⟩ := dirty
      have listed : journal ∈ dirtyFor key before.journals.files.values := mem_dirtyFor.mpr
        ⟨mem_map.mpr ⟨_, OrderedMap.get_eq_some_iff.mp found, rfl⟩, state, key_eq⟩
      rw [System.holder, journals, holder_openStore, map_eq_none_iff, getLast?_eq_none_iff] at named
      rw [named] at listed
      cases listed
  refine ⟨⟨packs, exclusive_of_resuming resuming fun _ => rfl,
    exclusive_of_resuming resuming fun _ => rfl, fun body is_latest => ?_,
    fun object dirty => .inl (held_of_dirty object ((files object).mp dirty)),
    fun id task now => ?_⟩, fun quiet => ⟨rfl, ?_, fun unheld => ?_⟩⟩
  · have quiet : ¬before.Busy staged key := by
      rw [System.busy_iff]
      refine not_or.mpr ⟨idle, ?_⟩
      rintro ⟨id, phase, now⟩
      cases (inv.tasks id _ now rfl).1.symm.trans is_latest
    have readable := inv.current body is_latest
    refine ⟨fun object named => ?_, fun unheld => ?_⟩
    · have dirty := dirty_of_held object named
      obtain ⟨body_eq, _⟩ := readable.held object (inv.held_of_dirtyFile consistent quiet dirty)
      exact ⟨body_eq, .inl ((files object).mpr dirty)⟩
    · rw [origin]
      cases named : before.holder key with
      | none => exact readable.unheld named
      | some object =>
        refine (readable.held object named).2.resolve_left fun dirty => ?_
        cases unheld.symm.trans (held_of_dirty object dirty)
  · obtain ⟨object, rfl⟩ := resuming id task now
    trivial
  · rintro ⟨id, task, now, changes⟩
    obtain ⟨object, rfl⟩ := resuming id task now
    cases changes
  · cases named : after.holder key with
    | none => rfl
    | some object =>
      cases unheld.symm.trans
        (inv.held_of_dirtyFile consistent quiet (dirty_of_held object named))

theorem step (plain : ¬Reserved key.key) {event : Event}
    (happens : Step staged limit before event after) (apart : Apart staged key before event) :
    ∃ later, KeyInvariant staged key later after ∧
      (NothingStarts staged key before event → KeyStep staged key latest later before after) := by
  have calmly : ∀ {later : Option Bytes}, KeyStep staged key latest later before after →
      ∃ later, KeyInvariant staged key later after ∧
        (NothingStarts staged key before event → KeyStep staged key latest later before after) :=
    fun step => ⟨_, step.invariant, fun _ => step⟩
  cases happens with
  | @putStart id object idle fresh unlocked =>
    have unworked : ∀ other, (Task.staging object).starting = some other → ∀ place task,
        before.tasks place = some task → other ∉ task.objects ∧ task.starting ≠ some other := by
      rintro _ ⟨⟩ place task now
      exact ⟨fun works => fresh (consistent.established place task now object works).issued,
        fun starts => fresh (consistent.starting place task object now starts)⟩
    have key_of : (Task.staging object).changes staged key = some () → (staged object).key = key :=
      fun changes => some.inj ((Task.changes_eq_some.mp changes).resolve_right nofun)
    refine ⟨latest, inv.enter idle rfl {} unworked rfl (fun locked => ?_) (fun changes => ?_) nofun
      (.inl rfl) fun key_eq => ?_, fun elsewhere => ?_⟩
    · exact some.inj locked ▸ unlocked
    · rw [System.busy_iff]
      rintro (in_progress | ⟨deleter, phase, deleting⟩)
      · exact (apart (key_of changes)).1 in_progress
      · exact unlocked ⟨deleter, _, deleting, congrArg some (key_of changes).symm⟩
    · exact (findDirty_eq_holder _ _).symm.trans (apart key_eq).2
    · exact inv.enterApart idle rfl {} unworked rfl (fun locked => elsewhere (some.inj locked))
        (fun changes => elsewhere (key_of changes)) fun key_eq => absurd key_eq elsewhere
  | putFail running | acknowledge running | append running _ _ | resumeGone running _
  | bypassStop running | packNothing running | packStop running | markDone running
  | writeFail running | repairDone running =>
    exact calmly (inv.stop consistent running rfl {} rfl)
  | putJournal placements running _ => exact calmly (inv.putJournal consistent placements running)
  | putIndex running idle =>
    obtain ⟨later, indexed⟩ := inv.putIndex consistent running idle
    exact calmly indexed
  | straggle placement running _ => exact calmly (inv.straggle consistent placement running)
  | bypass running _ | bypassUnbound running _ _ _ | repairSkip running =>
    exact calmly (inv.move consistent running rfl {} (.inl rfl) ⟨rfl, rfl⟩ rfl trivial)
  | appendFlush running _ _ =>
    exact calmly (inv.move consistent running rfl {} (.inl rfl) ⟨rfl, rfl⟩ rfl nofun)
  | drain idle _ =>
    exact calmly (inv.enterApart idle rfl {} nofun rfl nofun nofun nofun)
  | @resume id object journal running found unlocked =>
    have index_key := (consistent.journals.named object journal found).2
    refine calmly (inv.go consistent running rfl ?_ (.inl rfl) {} (fun _ _ => nofun) ?_ nofun)
    · by_cases key_eq : (staged object).key = key
      · exact .inr (.inr ((index_key.trans key_eq) ▸ unlocked))
      · refine .inl (if_neg fun locked => key_eq (some.inj locked))
    · rintro _ ⟨⟩
      trivial
  | bypassRead running found dirty _ =>
    exact calmly (inv.move consistent running rfl {} (.inl rfl) ⟨rfl, rfl⟩ rfl
      fun key_eq => inv.held_of_read consistent running found dirty key_eq)
  | bypassPut running =>
    refine calmly (inv.upload consistent running rfl ⟨rfl, rfl⟩ fun after seen => ?_)
    rcases seen with elsewhere | uploaded
    · exact .inl fun other member => mem_singleton.mp member ▸ elsewhere
    · exact .inr ⟨_, rfl, congrArg some uploaded.key_eq, uploaded⟩
  | bypassPutFail landed running =>
    cases landed with
    | false => exact calmly (inv.move consistent running rfl {} (.inl rfl) ⟨rfl, rfl⟩ rfl trivial)
    | true => exact calmly (inv.upload consistent running rfl ⟨rfl, rfl⟩ fun _ _ => trivial)
  | @collect id lock stream entry batch pack rows journal running found _ =>
    refine calmly (inv.move consistent running rfl {} (.inl rfl) ⟨rfl, rfl⟩ rfl ?_)
    refine forall_mem_append.mpr ⟨inv.tasks id _ running, forall_mem_singleton.mpr ?_⟩
    have in_stream := consistent.known id _ running entry mem_cons_self
    have key_eq := (consistent.journals.named _ journal found).2
    have row_key : (⟨stream.1, stream.2, journal.key⟩ : CacheKey) =
        (staged entry.objectId).key := by
      rw [← key_eq, ← in_stream, ← key_eq]
      rfl
    exact ⟨row_key ▸ apart, apart⟩
  | @collectSkip id lock stream entry batch pack rows running
  | @packStart id lock stream pack rows packKey running _ _ _ =>
    exact calmly (inv.move consistent running rfl {} (.inl rfl) ⟨rfl, rfl⟩ rfl
      (inv.tasks id _ running))
  | @packUpload id lock stream pack packKey rows attempts running =>
    have rows_apart := inv.tasks id _ running
    have reserved : Reserved packKey := consistent.known id _ running
    refine calmly (inv.move consistent running rfl { origin := update_of_ne ?_ _ _ }
      (.inl rfl) ⟨rfl, rfl⟩ rfl ⟨fun row member => (rows_apart row member).1, ?_⟩)
    · rintro rfl
      exact plain reserved
    · intro object member
      obtain ⟨row, listed, rfl⟩ := mem_map.mp member
      exact (rows_apart row listed).2
  | @packFail id lock stream pack packKey rows attempts landed running =>
    have reserved : Reserved packKey := consistent.known id _ running
    cases landed with
    | false =>
      exact calmly (inv.move consistent running rfl {} (.inl rfl) ⟨rfl, rfl⟩ rfl
        (inv.tasks id _ running))
    | true =>
      refine calmly (inv.move consistent running rfl { origin := update_of_ne ?_ _ _ }
        (.inl rfl) ⟨rfl, rfl⟩ rfl (inv.tasks id _ running))
      rintro rfl
      exact plain reserved
  | @indexRow id lock packKey row rows packed running =>
    obtain ⟨rows_apart, packed_apart⟩ := inv.tasks id _ running
    refine calmly (inv.move consistent running rfl { packs := update_of_ne ?_ _ _ }
      (.inl rfl) ⟨rfl, rfl⟩ rfl
      ⟨(forall_mem_cons.mp rows_apart).2, packed_apart⟩)
    exact (rows_apart row mem_cons_self).symm
  | @indexDone id lock packKey packed running =>
    exact calmly (inv.move consistent running rfl {} (.inl rfl) ⟨rfl, rfl⟩ rfl
      (.inl (inv.tasks id _ running).2))
  | @markRead id lock object rest journal running _ found =>
    obtain ⟨rfl, _⟩ := consistent.journals.named object journal found
    refine calmly (inv.move consistent running rfl {} (.inl rfl) ⟨rfl, rfl⟩ rfl ?_)
    rcases inv.tasks id _ running with foreign | ⟨other, packed_eq, locked, uploaded⟩
    · exact .inl foreign
    · cases packed_eq
      exact .inr ⟨rfl, locked, uploaded.key_eq, uploaded.held, uploaded.stored⟩
  | @markGone id lock object rest running _ gone =>
    refine calmly (inv.move consistent running rfl {} (.inl rfl) ⟨rfl, rfl⟩ rfl ?_)
    rcases inv.tasks id _ running with foreign | ⟨other, packed_eq, locked, uploaded⟩
    · exact .inl foreign
    · cases packed_eq
      exact (not_gone consistent uploaded.held gone).elim
  | markWrite running => exact calmly (inv.markWrite consistent running)
  | markIndex running => exact calmly (inv.markIndex consistent running)
  | discardIndex running found => exact calmly (inv.discardIndex consistent running found)
  | @discardGone id lock object rest running gone =>
    refine calmly (inv.move consistent running rfl {} (.inl rfl) ⟨rfl, rfl⟩ rfl
      (minds_erasing (inv.tasks id _ running) rfl ?_))
    rintro ⟨journal, read, _⟩
    exact nomatch gone.symm.trans read
  | erase running => exact calmly (inv.erase consistent running)
  | writeStart idle =>
    refine ⟨latest, inv.enter idle rfl {} nofun rfl nofun (fun changes => ?_) nofun (.inl rfl)
      fun key_eq => ?_, fun elsewhere => ?_⟩
    · have key_eq := some.inj ((Task.changes_eq_some.mp changes).resolve_right nofun)
      rw [System.busy_iff]
      exact not_or.mpr ⟨(apart key_eq).1, (apart key_eq).2.2⟩
    · exact (findDirty_eq_holder _ _).symm.trans (apart key_eq).2.1
    · refine inv.enterApart idle rfl {} nofun rfl nofun (fun changes => ?_)
        fun key_eq => absurd key_eq elsewhere
      exact elsewhere (some.inj ((Task.changes_eq_some.mp changes).resolve_right nofun))
  | writeEffect running =>
    obtain ⟨later, effective⟩ := inv.writeEffect consistent running
    exact calmly effective
  | deleteStart idle unlocked =>
    refine ⟨_, inv.deleteStart idle unlocked apart, fun elsewhere => ?_⟩
    rw [if_neg elsewhere]
    refine inv.enterApart idle rfl {} nofun rfl
      (fun locked => elsewhere (some.inj locked)) (fun changes => ?_)
      fun key_eq => absurd key_eq elsewhere
    exact elsewhere (some.inj ((Task.changes_eq_some.mp changes).resolve_left nofun))
  | deleteOrigin running =>
    refine calmly (inv.deleteOutside consistent (some .row) running rfl rfl (fun _ _ => rfl)
      (fun unpacked => unpacked) (fun _ ne => update_of_ne ne _ _) rfl ?_)
    rintro _ _ ⟨⟩
    trivial
  | deleteOriginFail landed running =>
    refine calmly (inv.deleteOutside consistent none running rfl rfl (fun _ _ => rfl)
      (fun unpacked => unpacked) (fun _ ne => ?_) rfl fun _ _ now => nomatch now)
    cases landed with
    | true => exact update_of_ne ne _ _
    | false => rfl
  | deleteRow running =>
    refine calmly (inv.deleteOutside consistent (some .find) running rfl rfl
      (fun _ ne => update_of_ne ne _ _) (fun _ => update_self _ _ _)
      (fun _ _ => rfl) rfl ?_)
    rintro _ _ ⟨⟩
    trivial
  | deleteNone running _ =>
    exact calmly (inv.deleteOutside consistent none running rfl rfl (fun _ _ => rfl)
      (fun unpacked => unpacked) (fun _ _ => rfl) rfl fun _ _ now => nomatch now)
  | deleteFind running named =>
    refine calmly (inv.deleteOutside consistent (some (.index _)) running rfl rfl (fun _ _ => rfl)
      (fun unpacked => unpacked) (fun _ _ => rfl) rfl ?_)
    rintro rfl _ ⟨⟩
    exact (findDirty_eq_holder _ _).symm.trans named
  | deleteIndex running found => exact calmly (inv.deleteIndex consistent running found)
  | @deleteIndexGone id other object running gone =>
    by_cases key_eq : other = key
    · subst key_eq
      exact (not_gone consistent (inv.tasks id _ running rfl).2 gone).elim
    · exact calmly (inv.deleteElsewhere consistent (some (.file object)) running key_eq rfl {})
  | deleteFile running => exact calmly (inv.deleteFile consistent running)
  | repairStart idle =>
    exact calmly (inv.enterApart idle rfl {} nofun rfl nofun nofun trivial)
  | repairRead placements running _ found =>
    exact calmly (inv.repairRead consistent placements running found apart)
  | repairWrite running => exact calmly (inv.repairWrite consistent running)
  | restart => exact calmly (inv.restart consistent apart rfl rfl rfl rfl)

end KeyInvariant

end Verglas.Writeback
