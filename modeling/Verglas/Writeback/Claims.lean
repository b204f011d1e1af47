import Mathlib.Data.List.Flatten
import Verglas.Lib.Exclusive
import Verglas.Writeback.Coordinator

/-!
# Who is responsible for a key

The current body of a key lies in a dirty journal, behind a pack index row or at the origin, and
each of the three is updated by different tasks.  Every key with a journal in the dirty index is
claimed by one task or one offload buffer, and only the claimant changes where the key is read from.
This file says what each task knows about what it claims, and that the steps of the others do not
disturb it.
-/

namespace Verglas.Writeback

open Function List

/-- What a task or a buffer is responsible for. -/
inductive Token where
  | object (object : String)
  | key (key : CacheKey)
  | reply (key : CacheKey)
  | pack (packKey : String)
  deriving DecidableEq

/-- A task or an offload buffer. -/
abbrev Place := Nat ⊕ (String × String)

section Claims

variable (staged : String → StagedObject)

/-- Objects come with their keys. -/
def objectTokens (objects : List String) : List Token :=
  objects.flatMap fun object => [.object object, .key (staged object).key]

/-- The tokens of a task; an object whose journal left the index no longer claims its key. -/
def Task.tokens : Task → List Token
  | .staging object | .journaling object _ =>
    [.object object, .key (staged object).key, .reply (staged object).key]
  | .returning key _ => [.reply key]
  | .settling object | .bypassing object _ | .putting object _ _ => objectTokens staged [object]
  | .collecting _ _ batch _ rows =>
    objectTokens staged (batch.map PendingEntry.objectId ++ rows.map PackedRow.objectId)
  | .packing _ _ _ packKey rows _ =>
    .pack packKey :: objectTokens staged (rows.map PackedRow.objectId)
  | .indexing _ packKey _ packed => .pack packKey :: objectTokens staged packed
  | .marking _ packed => objectTokens staged packed
  | .cleaning _ journal rest | .unindexing _ journal rest =>
    objectTokens staged (journal.objectId :: rest)
  | .discarding _ object rest | .erasing _ object rest =>
    .object object :: objectTokens staged rest
  | .writing key _ => [.key key, .reply key]
  | .resuming _ | .deleting _ _ | .repairing _ | .rewriting _ _ => []

/-- The tokens of every place. -/
def System.claims (system : System) : Place → List Token
  | .inl id => ((system.tasks id).map (Task.tokens staged)).getD []
  | .inr stream => objectTokens staged ((system.buffers stream).pending.map PendingEntry.objectId)

variable {objects : List String} {token : Token} {object : String} {system before after : System}
  {id : Nat} {next : Option Task}

theorem mem_objectTokens :
    token ∈ objectTokens staged objects ↔
      ∃ object ∈ objects, token = .object object ∨ token = .key (staged object).key := by
  simp [objectTokens]

theorem object_mem_objectTokens (member : object ∈ objects) :
    .object object ∈ objectTokens staged objects :=
  (mem_objectTokens staged).mpr ⟨object, member, .inl rfl⟩

theorem key_mem_objectTokens (member : object ∈ objects) :
    .key (staged object).key ∈ objectTokens staged objects :=
  (mem_objectTokens staged).mpr ⟨object, member, .inr rfl⟩

theorem objectTokens_subperm {few many : List String} (within : few.Subperm many) :
    (objectTokens staged few).Subperm (objectTokens staged many) := by
  obtain ⟨list, perm, sublist⟩ := within
  exact ⟨_, perm.flatMap_right _, sublist.flatMap _⟩

theorem objectTokens_nil : objectTokens staged [] = [] := rfl

theorem objectTokens_append (left right : List String) :
    objectTokens staged (left ++ right) = objectTokens staged left ++ objectTokens staged right :=
  flatMap_append

theorem claims_of_task {task : Task} (running : system.tasks id = some task) :
    system.claims staged (.inl id) = task.tokens staged := by
  simp [System.claims, running]

theorem claims_of_idle (idle : system.tasks id = none) : system.claims staged (.inl id) = [] := by
  simp [System.claims, idle]

theorem mem_claims {place : Place} (claimed : token ∈ system.claims staged place) :
    (∃ id task, system.tasks id = some task ∧ token ∈ task.tokens staged) ∨
      ∃ stream, token ∈ objectTokens staged
        ((system.buffers stream).pending.map PendingEntry.objectId) := by
  cases place with
  | inr stream => exact .inr ⟨stream, claimed⟩
  | inl id =>
    cases running : system.tasks id with
    | none =>
      rw [claims_of_idle staged running] at claimed
      cases claimed
    | some task => exact .inl ⟨id, task, running, claims_of_task staged running ▸ claimed⟩

theorem claims_of_step (tasks : after.tasks = update before.tasks id next)
    (buffers : after.buffers = before.buffers) :
    after.claims staged = update (before.claims staged) (.inl id)
      ((next.map (Task.tokens staged)).getD []) := by
  funext place
  cases place with
  | inl other =>
    by_cases same : other = id
    · subst same
      rw [update_self, System.claims, tasks, update_self]
    · rw [update_of_ne (by simpa using same), System.claims, tasks,
        update_of_ne same, System.claims]
  | inr stream =>
    rw [update_of_ne Sum.inr_ne_inl, System.claims, buffers, System.claims]

theorem claims_of_exchange {stream : String × String} {buffer : OffloadBuffer}
    (tasks : after.tasks = update before.tasks id next)
    (buffers : after.buffers = update before.buffers stream buffer) :
    after.claims staged = update (update (before.claims staged) (.inl id)
      ((next.map (Task.tokens staged)).getD [])) (.inr stream)
        (objectTokens staged (buffer.pending.map PendingEntry.objectId)) := by
  have middle : System.claims staged { after with buffers := before.buffers } = _ :=
    claims_of_step staged tasks rfl
  rw [← middle]
  funext place
  cases place with
  | inl other => rw [update_of_ne Sum.inl_ne_inr, System.claims, System.claims]
  | inr other =>
    by_cases same : other = stream
    · subst same
      rw [update_self, System.claims, buffers, update_self]
    · rw [update_of_ne (by simpa using same), System.claims, buffers,
        update_of_ne same, System.claims]

end Claims

section Sound

variable (staged : String → StagedObject) (limit : Nat) (latest : CacheKey → Option Bytes)
  (system : System)

/-- The dirty index names the object. -/
def Held (object : String) : Prop := system.holder (staged object).key = some object

/-- Without a journal in the index, a read of the key returns the body. -/
def Settled (key : CacheKey) (body : Bytes) : Prop :=
  (∃ entry, system.packs key = some entry ∧ Packed system.origin key entry body) ∨
    (system.packs key = none ∧ system.origin key = some body)

/-- No row shadows the origin of an object that bypasses the offload stream. -/
def Unshadowed (object : String) : Prop :=
  limit < (staged object).body.length → system.packs (staged object).key = none

/-- The object is named and its body lies where reads look after the journal. -/
def Propagated (object : String) : Prop :=
  Held staged system object ∧ Settled system (staged object).key (staged object).body

/-- The rows of a pack under construction. -/
def RowsFit (stream : String × String) (pack : Bytes) (rows : List PackedRow) : Prop :=
  ∀ row ∈ rows, Held staged system row.objectId ∧ row.key = (staged row.objectId).key ∧
    row.key.stream = stream ∧
    slice pack (row.offset, row.offset + row.length) = (staged row.objectId).body ∧
    row.length = (staged row.objectId).body.length

/-- The entry waits in the right stream for an object that the index names. -/
def Waiting (stream : String × String) (entry : PendingEntry) : Prop :=
  Held staged system entry.objectId ∧ (staged entry.objectId).key.stream = stream

/-- A read of the key returns the body. -/
structure Current (key : CacheKey) (body : Bytes) : Prop where
  plain : ¬Reserved key.key
  held : ∀ object, system.holder key = some object → (staged object).body = body
  settled : system.holder key = none → Settled system key body

/-- What a task knows about the objects and keys that it claims. -/
def Task.Sound : Task → Prop
  | .staging object =>
    system.holder (staged object).key = none ∧ Unshadowed staged limit system object
  | .journaling object _ =>
    system.holder (staged object).key = none ∧ Unshadowed staged limit system object ∧
      (system.journals.read object).isSome
  | .returning key body => latest key = some body
  | .settling object => Held staged system object ∧ Unshadowed staged limit system object
  | .bypassing object _ => Held staged system object ∧ system.packs (staged object).key = none
  | .putting object journal _ =>
    Held staged system object ∧ system.packs (staged object).key = none ∧
      journal.indexKey = (staged object).key
  | .collecting _ stream batch pack rows =>
    (∀ entry ∈ batch, Waiting staged system stream entry) ∧
      RowsFit staged system stream pack rows
  | .packing _ stream pack packKey rows _ =>
    RowsFit staged system stream pack rows ∧ Reserved packKey ∧ packKey ∈ system.packKeys ∧
      ∀ key entry, system.packs key = some entry → entry.packKey ≠ packKey
  | .indexing _ packKey rows packed =>
    Reserved packKey ∧ packKey ∈ system.packKeys ∧
      (∀ object ∈ packed, Held staged system object ∧
        ((∃ row ∈ rows, row.objectId = object) ∨
          Settled system (staged object).key (staged object).body)) ∧
      ∀ row ∈ rows, row.objectId ∈ packed ∧ row.key = (staged row.objectId).key ∧
        Packed system.origin row.key ⟨packKey, row.offset, row.length⟩
          (staged row.objectId).body
  | .marking _ packed => ∀ object ∈ packed, Propagated staged system object
  | .cleaning _ journal rest | .unindexing _ journal rest =>
    journal.indexKey = (staged journal.objectId).key ∧
      ∀ object ∈ journal.objectId :: rest, Propagated staged system object
  | .discarding _ object rest | .erasing _ object rest =>
    system.holder (staged object).key ≠ some object ∧
      ∀ other ∈ rest, Propagated staged system other
  | .writing key _ =>
    system.holder key = none ∧ system.packs key = none ∧ ¬Reserved key.key
  | .resuming _ | .deleting _ _ | .repairing _ | .rewriting _ _ => False

end Sound

section Frame

variable {staged : String → StagedObject} {limit : Nat} {latest later : CacheKey → Option Bytes}
  {before after : System} {tokens others : List Token}

/-- A step changes shared state only where the tokens of its task allow it. -/
structure Touches (staged : String → StagedObject) (tokens : List Token)
    (latest later : CacheKey → Option Bytes) (before after : System) : Prop where
  holder : ∀ key, .key key ∉ tokens → after.holder key = before.holder key
  named : ∀ key object, .object object ∉ tokens → after.holder key = some object →
    before.holder key = some object
  packs : ∀ key, .key key ∉ tokens → after.packs key = before.packs key
  inserted : ∀ key entry, .pack entry.packKey ∉ tokens → after.packs key = some entry →
    before.packs key = some entry
  origin : ∀ key, .key key ∉ tokens → ¬Reserved key.key → after.origin key = before.origin key
  stored : ∀ key, Reserved key.key →
    (.pack key.key ∉ tokens ∨ ∃ row entry, before.packs row = some entry ∧
      entry.packKey = key.key) → after.origin key = before.origin key
  latest : ∀ key, .reply key ∉ tokens ∨ .key key ∉ tokens → later key = latest key
  files : ∀ object, .object object ∉ tokens → (before.journals.read object).isSome →
    (after.journals.read object).isSome
  packKeys : before.packKeys ⊆ after.packKeys

theorem Touches.files_only (dirty : after.journals.dirty = before.journals.dirty)
    (packs : after.packs = before.packs) (origin : after.origin = before.origin)
    (packKeys : before.packKeys ⊆ after.packKeys)
    (files : ∀ object, .object object ∉ tokens → (before.journals.read object).isSome →
      (after.journals.read object).isSome) :
    Touches staged tokens latest latest before after := by
  have holder : ∀ key, after.holder key = before.holder key := by
    intro key
    rw [System.holder, System.holder, dirty]
  exact ⟨fun key _ => holder key, fun key object _ named => holder key ▸ named,
    fun key _ => congrFun packs key, fun key entry _ row => packs ▸ row,
    fun key _ _ => congrFun origin key, fun key _ _ => congrFun origin key, fun _ _ => rfl,
    files, packKeys⟩

theorem Touches.none (journals : after.journals = before.journals)
    (packs : after.packs = before.packs) (origin : after.origin = before.origin)
    (packKeys : before.packKeys ⊆ after.packKeys) :
    Touches staged tokens latest latest before after :=
  .files_only (congrArg JournalStore.dirty journals) packs origin packKeys
    fun _ _ found => journals ▸ found

variable {key : CacheKey}

/-- A body that the origin stores touches its key, or its name if it is a pack that no row refers
to. -/
theorem Touches.store {id : Nat} {body : Bytes} {next : Task}
    (plain : ¬Reserved key.key → .key key ∈ tokens)
    (pack : Reserved key.key → .pack key.key ∈ tokens ∧
      ∀ row entry, before.packs row = some entry → entry.packKey ≠ key.key)
    (latest_eq : ∀ other, .reply other ∉ tokens ∨ .key other ∉ tokens →
      later other = latest other) :
    Touches staged tokens latest later before ((before.store key body).run id next) where
  holder _ _ := rfl
  named _ _ _ named := named
  packs _ _ := rfl
  inserted _ _ _ row := row
  origin other unclaimed free := by
    refine update_of_ne ?_ _ _
    rintro rfl
    exact unclaimed (plain free)
  stored other reserved unclaimed := by
    refine update_of_ne ?_ _ _
    rintro rfl
    obtain ⟨named, unpublished⟩ := pack reserved
    rcases unclaimed with unclaimed | ⟨row, entry, found, same⟩
    · exact unclaimed named
    · exact unpublished row entry found same
  latest := latest_eq
  files _ _ found := found
  packKeys := .refl _

theorem Packed.congr {origin other : CacheKey → Option Bytes} {entry : PackIndexEntry}
    {body : Bytes} (same : other (entry.pack key) = origin (entry.pack key))
    (packed : Packed origin key entry body) : Packed other key entry body := by
  obtain ⟨pack, stored, rest⟩ := packed
  exact ⟨pack, same ▸ stored, rest⟩

section Undisturbed

variable (touches : Touches staged tokens latest later before after)
  (apart : ∀ token ∈ others, token ∉ tokens)

include touches apart

variable {object : String}

theorem Held.frame (claimed : .key (staged object).key ∈ others)
    (held : Held staged before object) : Held staged after object := by
  rw [Held, touches.holder _ (apart _ claimed)]
  exact held

theorem Settled.frame {key : CacheKey} {body : Bytes} (claimed : .key key ∈ others)
    (plain : ¬Reserved key.key)
    (rows : ∀ entry, before.packs key = some entry → Reserved entry.packKey)
    (settled : Settled before key body) : Settled after key body := by
  have same := touches.packs key (apart _ claimed)
  rcases settled with ⟨entry, row, packed⟩ | ⟨unpacked, stored⟩
  · have kept := touches.stored (entry.pack key) (rows entry row) (.inr ⟨key, entry, row, rfl⟩)
    exact .inl ⟨entry, same.trans row, packed.congr kept⟩
  · exact .inr ⟨same.trans unpacked, (touches.origin key (apart _ claimed) plain).trans stored⟩

theorem Unshadowed.frame (claimed : .key (staged object).key ∈ others)
    (unshadowed : Unshadowed staged limit before object) : Unshadowed staged limit after object :=
  fun large => (touches.packs _ (apart _ claimed)).trans (unshadowed large)

theorem RowsFit.frame {stream : String × String} {pack : Bytes} {rows : List PackedRow}
    (claimed : ∀ row ∈ rows, .key (staged row.objectId).key ∈ others)
    (fit : RowsFit staged before stream pack rows) : RowsFit staged after stream pack rows := by
  intro row member
  obtain ⟨held, rest⟩ := fit row member
  exact ⟨held.frame touches apart (claimed row member), rest⟩

end Undisturbed

theorem Task.Sound.frame {task : Task}
    (touches : Touches staged tokens latest later before after)
    (apart : ∀ token ∈ task.tokens staged, token ∉ tokens)
    (rows : ∀ key entry, before.packs key = some entry → Reserved entry.packKey)
    (plain : ∀ object, .object object ∈ task.tokens staged → ¬Reserved (staged object).key.key)
    (sound : task.Sound staged limit latest before) : task.Sound staged limit later after := by
  have propagated : ∀ object, .object object ∈ task.tokens staged →
      .key (staged object).key ∈ task.tokens staged → Propagated staged before object →
      Propagated staged after object := by
    intro object claimed key_claimed known
    exact ⟨known.1.frame touches apart key_claimed,
      known.2.frame touches apart key_claimed (plain object claimed) (rows _)⟩
  cases task with
  | staging object =>
    have claimed : .key (staged object).key ∈ (Task.staging object).tokens staged := by
      simp [Task.tokens]
    exact ⟨(touches.holder _ (apart _ claimed)).trans sound.1, sound.2.frame touches apart claimed⟩
  | journaling object placements =>
    have claimed : .key (staged object).key ∈
        (Task.journaling object placements).tokens staged := by simp [Task.tokens]
    refine ⟨(touches.holder _ (apart _ claimed)).trans sound.1,
      sound.2.1.frame touches apart claimed, touches.files object (apart _ ?_) sound.2.2⟩
    simp [Task.tokens]
  | returning key body =>
    have claimed : .reply key ∈ (Task.returning key body).tokens staged := by simp [Task.tokens]
    exact (touches.latest key (.inl (apart _ claimed))).trans sound
  | settling object =>
    have claimed := key_mem_objectTokens staged (mem_singleton_self object)
    exact ⟨sound.1.frame touches apart claimed, sound.2.frame touches apart claimed⟩
  | bypassing object attempts =>
    have claimed := key_mem_objectTokens staged (mem_singleton_self object)
    exact ⟨sound.1.frame touches apart claimed, (touches.packs _ (apart _ claimed)).trans sound.2⟩
  | putting object journal attempts =>
    have claimed := key_mem_objectTokens staged (mem_singleton_self object)
    exact ⟨sound.1.frame touches apart claimed,
      (touches.packs _ (apart _ claimed)).trans sound.2.1, sound.2.2⟩
  | collecting lock stream batch pack found =>
    refine ⟨fun entry member => ?_, sound.2.frame touches apart fun row member => ?_⟩
    · obtain ⟨held, in_stream⟩ := sound.1 entry member
      refine ⟨held.frame touches apart (key_mem_objectTokens staged ?_), in_stream⟩
      exact mem_append_left _ (mem_map_of_mem member)
    · exact key_mem_objectTokens staged (mem_append_right _ (mem_map_of_mem member))
  | packing lock stream pack packKey found attempts =>
    obtain ⟨fit, reserved, issued, unpublished⟩ := sound
    refine ⟨fit.frame touches apart fun row member => ?_, reserved, touches.packKeys issued, ?_⟩
    · exact mem_cons_of_mem _ (key_mem_objectTokens staged (mem_map_of_mem member))
    · rintro key entry row rfl
      exact unpublished key entry (touches.inserted key entry (apart _ mem_cons_self) row) rfl
  | indexing lock packKey found packed =>
    obtain ⟨reserved, issued, objects, entries⟩ := sound
    have object_claimed : ∀ object ∈ packed,
        .object object ∈ (Task.indexing lock packKey found packed).tokens staged :=
      fun object member => mem_cons_of_mem _ (object_mem_objectTokens staged member)
    have key_claimed : ∀ object ∈ packed,
        .key (staged object).key ∈ (Task.indexing lock packKey found packed).tokens staged :=
      fun object member => mem_cons_of_mem _ (key_mem_objectTokens staged member)
    refine ⟨reserved, touches.packKeys issued, fun object member => ?_, fun row member => ?_⟩
    · obtain ⟨held, pending | settled⟩ := objects object member
      · exact ⟨held.frame touches apart (key_claimed object member), .inl pending⟩
      · exact ⟨held.frame touches apart (key_claimed object member), .inr
          (settled.frame touches apart (key_claimed object member)
            (plain object (object_claimed object member)) (rows _))⟩
    · obtain ⟨listed, key_eq, packed_row⟩ := entries row member
      exact ⟨listed, key_eq,
        packed_row.congr (touches.stored _ reserved (.inl (apart _ mem_cons_self)))⟩
  | marking lock packed =>
    intro object member
    exact propagated object (object_mem_objectTokens staged member)
      (key_mem_objectTokens staged member) (sound object member)
  | cleaning lock journal rest | unindexing lock journal rest =>
    refine ⟨sound.1, fun object member => ?_⟩
    exact propagated object (object_mem_objectTokens staged member)
      (key_mem_objectTokens staged member) (sound.2 object member)
  | discarding lock object rest | erasing lock object rest =>
    refine ⟨fun named => sound.1 (touches.named _ _ (apart _ mem_cons_self) named),
      fun other member => ?_⟩
    exact propagated other (mem_cons_of_mem _ (object_mem_objectTokens staged member))
      (mem_cons_of_mem _ (key_mem_objectTokens staged member)) (sound.2 other member)
  | writing key body =>
    have claimed : .key key ∈ (Task.writing key body).tokens staged := by simp [Task.tokens]
    exact ⟨(touches.holder _ (apart _ claimed)).trans sound.1,
      (touches.packs _ (apart _ claimed)).trans sound.2.1, sound.2.2⟩
  | resuming | deleting | repairing | rewriting => exact sound.elim

end Frame

end Verglas.Writeback
