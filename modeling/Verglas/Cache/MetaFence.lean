import Mathlib.Data.List.Count
import Verglas.Lib.Exclusive

/-!
# The fence of the mapping cache

The engine memoizes which version of a key is current.  A resolution registers with the fence before
it asks the origin and is admitted only if no invalidation of the key has come in between: the fence
counts the invalidations of every key that has a resolution in flight.  A purge advances all these
counts and then empties the cache, and a write may install its own version.  Each mapping carries
the instant at which the origin request or the write behind it began.
-/

namespace Verglas.Cache

open Function List Option

variable {Key Meta : Type*}

/-- The fence state of a key with resolutions in flight. -/
structure FenceSlot where
  epoch : Nat
  readers : Nat
  deriving DecidableEq, Repr

/-- The slots of the keys with resolutions in flight. -/
abbrev MetaFence (Key : Type*) := Key → Option FenceSlot

namespace MetaFence

/-- Advance the epoch of every slot. -/
def purgeAllEpochs (fence : MetaFence Key) : MetaFence Key :=
  fun key => (fence key).map fun slot => { slot with epoch := slot.epoch + 1 }

variable [DecidableEq Key]

/-- Enter the slot of a key and read its epoch. -/
def register (fence : MetaFence Key) (key : Key) : MetaFence Key × Nat :=
  let slot := (fence key).getD ⟨0, 0⟩
  (update fence key (some { slot with readers := slot.readers + 1 }), slot.epoch)

/-- Drop the guard of a resolution; the last one removes the slot. -/
def release (fence : MetaFence Key) (key : Key) : MetaFence Key :=
  match fence key with
  | none => fence
  | some slot =>
    update fence key
      (if slot.readers - 1 = 0 then none else some { slot with readers := slot.readers - 1 })

/-- Advance the epoch of a key that someone is in. -/
def advance (fence : MetaFence Key) (key : Key) : MetaFence Key :=
  update fence key ((fence key).map fun slot => { slot with epoch := slot.epoch + 1 })

end MetaFence

/-- A mapping with the time that it is as new as. -/
structure MappingEntry (Meta : Type*) where
  mapping : Meta
  /-- When the origin request that gave the mapping, or the write that made it, began. -/
  began : Nat

/-- The cached mappings and their fence. -/
structure Mappings (Key Meta : Type*) where
  fence : MetaFence Key := fun _ => none
  entries : Key → Option (MappingEntry Meta) := fun _ => none

namespace Mappings

variable [DecidableEq Key]

/-- Admit a mapping unless its key was invalidated since the guard was registered. -/
def admitMetaIfFresh (cache : Mappings Key Meta) (key : Key) (epoch : Nat)
    (entry : MappingEntry Meta) : Mappings Key Meta :=
  if (cache.fence key).any fun slot => slot.epoch = epoch then
    { cache with entries := update cache.entries key (some entry) }
  else cache

/-- Drop the mapping of a key. -/
def remove (cache : Mappings Key Meta) (key : Key) : Mappings Key Meta :=
  { cache with entries := update cache.entries key none }

/-- Fence off the resolutions of a key that are in flight, and remove its mapping. -/
def invalidateKey (cache : Mappings Key Meta) (key : Key) : Mappings Key Meta :=
  { cache with fence := cache.fence.advance key }.remove key

end Mappings

/-- A task that resolves, writes or populates a mapping, or a purge. -/
inductive FenceTask (Key Meta : Type*) where
  /-- A resolution or, from a current mapping, a revalidation whose request is not out yet. -/
  | registered (key : Key) (epoch : Nat) (current : Option Meta)
  | requested (key : Key) (epoch : Nat) (current : Option Meta) (began : Nat)
  | leaving (key : Key)
  | writing (key : Key) (began : Nat)
  | populating (key : Key) (epoch : Nat) (mapping : Meta) (began : Nat)
  /-- A purge that has advanced the epochs and not yet emptied the cache. -/
  | clearing

/-- The key on which a task holds a guard. -/
def FenceTask.guard : FenceTask Key Meta → Option Key
  | .registered key _ _ | .requested key _ _ _ | .leaving key | .populating key _ _ _ => some key
  | .writing _ _ | .clearing => none

/-- The engine with its tasks.  The last two fields record what has happened. -/
structure FenceSystem (Key Meta : Type*) where
  cache : Mappings Key Meta := {}
  tasks : List (FenceTask Key Meta) := []
  now : Nat := 1
  /-- When the last invalidation or purge of a key was complete. -/
  invalidated : Key → Nat := fun _ => 0

/-- The steps that a run may be restricted in. -/
inductive FenceEvent (Key : Type*) where
  | request (key : Key)
  | populate (key : Key) (began : Nat)
  | other

namespace FenceSystem

variable [DecidableEq Key]

/-- A purge has advanced the epochs and not emptied the cache. -/
def Clearing (system : FenceSystem Key Meta) : Prop := .clearing ∈ system.tasks

/-- One step of the engine.  The calls of `register`, of `admit_meta_if_fresh` and of
`invalidate_key` each hold the lock of the fence. -/
inductive Step (system : FenceSystem Key Meta) :
    FenceEvent Key → FenceSystem Key Meta → Prop
  | register (key : Key) (current : Option Meta) :
      Step system .other
        { system with
          cache := { system.cache with fence := (system.cache.fence.register key).1 }
          tasks := .registered key (system.cache.fence.register key).2 current :: system.tasks
          now := system.now + 1 }
  | request {front back : List (FenceTask Key Meta)} {key : Key} {epoch : Nat}
      {current : Option Meta}
      (running : system.tasks = front ++ .registered key epoch current :: back) :
      Step system (.request key)
        { system with
          tasks := front ++ .requested key epoch current system.now :: back
          now := system.now + 1 }
  | answer {front back : List (FenceTask Key Meta)} {key : Key} {epoch began : Nat}
      {current : Option Meta} (mapping : Meta)
      (running : system.tasks = front ++ .requested key epoch current began :: back) :
      Step system .other
        { system with
          cache := system.cache.admitMetaIfFresh key epoch ⟨mapping, began⟩
          tasks := front ++ .leaving key :: back
          now := system.now + 1 }
  | unchanged {front back : List (FenceTask Key Meta)} {key : Key} {epoch began : Nat}
      {current : Meta}
      (running : system.tasks = front ++ .requested key epoch (some current) began :: back) :
      Step system .other
        { system with
          cache := system.cache.admitMetaIfFresh key epoch ⟨current, began⟩
          tasks := front ++ .leaving key :: back
          now := system.now + 1 }
  /-- A revalidation finds no version that can be cached. -/
  | vanished {front back : List (FenceTask Key Meta)} {key : Key} {epoch began : Nat}
      {current : Meta}
      (running : system.tasks = front ++ .requested key epoch (some current) began :: back) :
      Step system .other
        { system with
          cache := system.cache.remove key
          tasks := front ++ .leaving key :: back
          now := system.now + 1 }
  | abandon {front back : List (FenceTask Key Meta)} {task : FenceTask Key Meta} {key : Key}
      (running : system.tasks = front ++ task :: back) (guarding : task.guard = some key) :
      Step system .other
        { system with tasks := front ++ .leaving key :: back, now := system.now + 1 }
  | leave {front back : List (FenceTask Key Meta)} {key : Key}
      (running : system.tasks = front ++ .leaving key :: back) :
      Step system .other
        { system with
          cache := { system.cache with fence := system.cache.fence.release key }
          tasks := front ++ back
          now := system.now + 1 }
  | write (key : Key) :
      Step system .other
        { system with
          tasks := .writing key system.now :: system.tasks, now := system.now + 1 }
  | wrote {front back : List (FenceTask Key Meta)} {key : Key} {began : Nat}
      (running : system.tasks = front ++ .writing key began :: back) :
      Step system .other { system with tasks := front ++ back, now := system.now + 1 }
  | populate {key : Key} {began : Nat} (mapping : Meta)
      (written : .writing key began ∈ system.tasks) :
      Step system (.populate key began)
        { system with
          cache := { system.cache with fence := (system.cache.fence.register key).1 }
          tasks :=
            .populating key (system.cache.fence.register key).2 mapping began :: system.tasks
          now := system.now + 1 }
  | install {front back : List (FenceTask Key Meta)} {key : Key} {epoch began : Nat}
      {mapping : Meta}
      (running : system.tasks = front ++ .populating key epoch mapping began :: back) :
      Step system .other
        { system with
          cache := system.cache.admitMetaIfFresh key epoch ⟨mapping, began⟩
          tasks := front ++ .leaving key :: back
          now := system.now + 1 }
  | invalidate (key : Key) :
      Step system .other
        { system with
          cache := system.cache.invalidateKey key
          now := system.now + 1
          invalidated := update system.invalidated key system.now }
  | purge :
      Step system .other
        { system with
          cache := { system.cache with fence := system.cache.fence.purgeAllEpochs }
          tasks := .clearing :: system.tasks
          now := system.now + 1 }
  | clear {front back : List (FenceTask Key Meta)}
      (running : system.tasks = front ++ .clearing :: back) :
      Step system .other
        { system with
          cache := { system.cache with entries := fun _ => none }
          tasks := front ++ back
          now := system.now + 1
          invalidated := fun _ => system.now }
  | evict (key : Key) :
      Step system .other { system with cache := system.cache.remove key, now := system.now + 1 }

/-- Any number of allowed steps. -/
inductive Run (Allowed : FenceSystem Key Meta → FenceEvent Key → Prop) :
    FenceSystem Key Meta → FenceSystem Key Meta → Prop
  | refl {system : FenceSystem Key Meta} : Run Allowed system system
  | step {start system after : FenceSystem Key Meta} {event : FenceEvent Key}
      (run : Run Allowed start system) (happens : Step system event after)
      (allowed : Allowed system event) : Run Allowed start after

/-- No request goes out between the two steps of a purge, and the mapping of a write is installed
only if no invalidation of the key has been completed since the write began, and not between the two
steps of a purge either. -/
def Calm (system : FenceSystem Key Meta) : FenceEvent Key → Prop
  | .request _ => ¬ system.Clearing
  | .populate key began => ¬ system.Clearing ∧ system.invalidated key < began
  | .other => True

end FenceSystem

variable {key : Key}

namespace MetaFence

variable [DecidableEq Key] {fence : MetaFence Key}

/-- How many guards hold the slot of a key. -/
def count (fence : MetaFence Key) (key : Key) : Nat :=
  ((fence key).map FenceSlot.readers).getD 0

/-- The slot of a key is still there, and its epoch has not gone back. -/
def Follows (before after : MetaFence Key) (key : Key) : Prop :=
  ∀ slot, before key = some slot → ∃ next, after key = some next ∧ slot.epoch ≤ next.epoch

theorem register_apply (key other : Key) :
    (fence.register key).1 other = if other = key then
      some ⟨(fence.register key).2, fence.count key + 1⟩ else fence other := by
  simp only [register, count]
  split
  · rename_i same
    subst same
    rw [update_self]
    cases fence other <;> rfl
  · rename_i apart
    rw [update_of_ne apart]

theorem count_register (key other : Key) :
    (fence.register key).1.count other =
      if other = key then fence.count key + 1 else fence.count other := by
  rw [count, register_apply]
  split
  · rfl
  · rfl

theorem follows_register (key other : Key) : fence.Follows (fence.register key).1 other := by
  intro slot found
  rw [register_apply]
  split
  · rename_i same
    subst same
    refine ⟨_, rfl, ?_⟩
    simp [register, found]
  · exact ⟨slot, found, Nat.le_refl _⟩

theorem release_apply (key other : Key) :
    fence.release key other = if other = key then
      (fence key).bind fun slot =>
        if slot.readers - 1 = 0 then none else some { slot with readers := slot.readers - 1 }
      else fence other := by
  rw [release]
  cases found : fence key with
  | none =>
    dsimp only
    split
    · rename_i same
      rw [same, found]
      rfl
    · rfl
  | some slot => exact update_apply fence key _ other

theorem count_release (key other : Key) :
    (fence.release key).count other =
      if other = key then fence.count key - 1 else fence.count other := by
  rw [count, release_apply]
  split
  · rw [count]
    cases fence key with
    | none => rfl
    | some slot =>
      simp only [bind_some, map_some, getD_some]
      split
      · rename_i last
        exact last.symm
      · rfl
  · rfl

/-- A slot that another guard keeps alive survives the release of one. -/
theorem follows_release {other : Key} (kept : other = key → 1 < fence.count key) :
    fence.Follows (fence.release key) other := by
  intro slot found
  rw [release_apply]
  split
  · rename_i same
    subst same
    have shared : 1 < slot.readers := by
      have bound := kept rfl
      rwa [count, found] at bound
    refine ⟨{ slot with readers := slot.readers - 1 }, ?_, Nat.le_refl _⟩
    rw [found, bind_some, if_neg (by omega)]
  · exact ⟨slot, found, Nat.le_refl _⟩

theorem count_advance (key other : Key) : (fence.advance key).count other = fence.count other := by
  by_cases same : other = key
  · subst same
    rw [count, advance, update_self, count]
    cases fence other <;> rfl
  · rw [count, advance, update_of_ne same]
    rfl

omit [DecidableEq Key] in
theorem count_purgeAllEpochs (key : Key) : fence.purgeAllEpochs.count key = fence.count key := by
  rw [count, purgeAllEpochs, count]
  cases fence key <;> rfl

end MetaFence

/-- A guard can rely on its slot, and unless the slot was advanced, its request or write began after
the last invalidation and no purge is between its steps. -/
def Guarded (fence : MetaFence Key) (invalidated : Key → Nat) (clearing : Prop) (key : Key)
    (epoch began : Nat) : Prop :=
  ∃ slot, fence key = some slot ∧ epoch ≤ slot.epoch ∧
    (epoch = slot.epoch → invalidated key < began ∧ ¬ clearing)

/-- What a task that holds a guard can rely on. -/
def FenceTask.Sound (fence : MetaFence Key) (invalidated : Key → Nat) (clearing : Prop) :
    FenceTask Key Meta → Prop
  | .registered key epoch _ => ∃ slot, fence key = some slot ∧ epoch ≤ slot.epoch
  | .requested key epoch _ began | .populating key epoch _ began =>
    Guarded fence invalidated clearing key epoch began
  | .leaving _ | .writing _ _ | .clearing => True

section Mono

variable {fence next : MetaFence Key} {invalidated later : Key → Nat} {clearing clears : Prop}

/-- The slot of a key follows, and what a guard relies on changes only with the epoch. -/
def Upholds (fence next : MetaFence Key) (invalidated later : Key → Nat) (clearing clears : Prop)
    (key : Key) : Prop :=
  ∀ slot, fence key = some slot → ∃ after, next key = some after ∧ slot.epoch ≤ after.epoch ∧
    (after.epoch = slot.epoch → ¬ clearing → later key = invalidated key ∧ ¬ clears)

theorem Guarded.mono {epoch began : Nat}
    (guarded : Guarded fence invalidated clearing key epoch began)
    (upholds : Upholds fence next invalidated later clearing clears key) :
    Guarded next later clears key epoch began := by
  obtain ⟨slot, found, reached, fresh⟩ := guarded
  obtain ⟨after, found', grown, kept⟩ := upholds slot found
  refine ⟨after, found', Nat.le_trans reached grown, fun same => ?_⟩
  have unmoved : after.epoch = slot.epoch := by omega
  obtain ⟨newer, quiet⟩ := fresh (same.trans unmoved)
  obtain ⟨later_eq, still⟩ := kept unmoved quiet
  exact ⟨later_eq ▸ newer, still⟩

theorem FenceTask.Sound.mono {task : FenceTask Key Meta}
    (sound : task.Sound fence invalidated clearing)
    (upholds : ∀ key, task.guard = some key →
      Upholds fence next invalidated later clearing clears key) :
    task.Sound next later clears := by
  cases task with
  | registered key epoch current =>
    obtain ⟨slot, found, reached⟩ := sound
    obtain ⟨after, found', grown, _⟩ := upholds key rfl slot found
    exact ⟨after, found', Nat.le_trans reached grown⟩
  | requested key epoch current began | populating key epoch mapping began =>
    exact Guarded.mono sound (upholds key rfl)
  | leaving key | writing key began | clearing => trivial

theorem Upholds.of_follows (follows : fence.Follows next key) (same : later key = invalidated key)
    (still : clears → clearing) : Upholds fence next invalidated later clearing clears key := by
  intro slot found
  obtain ⟨after, found', grown⟩ := follows slot found
  exact ⟨after, found', grown, fun _ quiet => ⟨same, fun clears => quiet (still clears)⟩⟩

end Mono

namespace FenceSystem

variable [DecidableEq Key]

/-- The guards on a key are counted in its slot, every task is sound, and every mapping is newer
than the last invalidation of its key. -/
structure Sound (system : FenceSystem Key Meta) : Prop where
  counted : ∀ key, system.tasks.countP (fun task => decide (task.guard = some key)) =
    system.cache.fence.count key
  tasks : ∀ task ∈ system.tasks,
    task.Sound system.cache.fence system.invalidated system.Clearing
  mappings : ∀ key entry, system.cache.entries key = some entry →
    system.invalidated key < entry.began
  clock : ∀ key, system.invalidated key < system.now

theorem sound_start : (({} : FenceSystem Key Meta)).Sound where
  counted := fun _ => rfl
  tasks := fun _ member => absurd member List.not_mem_nil
  mappings := fun _ _ found => nomatch found
  clock := fun _ => Nat.one_pos

section Steps

variable {system : FenceSystem Key Meta} {front back : List (FenceTask Key Meta)}
  {task next : FenceTask Key Meta} {key : Key} {epoch began : Nat}

omit [DecidableEq Key] in
theorem ne_clearing (guarding : task.guard = some key) : task ≠ .clearing := by
  rintro rfl
  cases guarding

theorem admitMetaIfFresh_eq (cache : Mappings Key Meta) (entry : MappingEntry Meta) :
    cache.admitMetaIfFresh key epoch entry =
      { cache with entries := (cache.admitMetaIfFresh key epoch entry).entries } := by
  rw [Mappings.admitMetaIfFresh]
  split <;> rfl

variable (sound : system.Sound)
include sound

/-- A step that leaves the invalidations and the purges in progress as they are. -/
theorem Sound.move {fence : MetaFence Key} {tasks : List (FenceTask Key Meta)}
    {entries : Key → Option (MappingEntry Meta)}
    (clearing_iff : .clearing ∈ tasks ↔ system.Clearing)
    (counted : ∀ key, tasks.countP (fun task => decide (task.guard = some key)) = fence.count key)
    (moved : ∀ task ∈ tasks, task.Sound fence system.invalidated system.Clearing ∨
      task ∈ system.tasks ∧ ∀ key, task.guard = some key → system.cache.fence.Follows fence key)
    (mappings : ∀ key entry, entries key = some entry →
      system.invalidated key < entry.began) :
    Sound { system with cache := { fence, entries }, tasks, now := system.now + 1 } := by
  refine ⟨counted, fun task member => ?_, mappings, fun key => Nat.lt_succ_of_lt (sound.clock key)⟩
  change task.Sound fence system.invalidated (.clearing ∈ tasks)
  rw [clearing_iff]
  rcases moved task member with started | ⟨old, follows⟩
  · exact started
  · exact (sound.tasks task old).mono fun guard guarding =>
      .of_follows (follows guard guarding) rfl id

theorem Sound.swap (running : system.tasks = front ++ task :: back)
    (guarding : task.guard = some key) (kept : next.guard = some key)
    (moved : next.Sound system.cache.fence system.invalidated system.Clearing)
    {entries : Key → Option (MappingEntry Meta)}
    (mappings : ∀ key entry, entries key = some entry →
      system.invalidated key < entry.began) :
    Sound { system with
      cache := { system.cache with entries }
      tasks := front ++ next :: back
      now := system.now + 1 } := by
  refine sound.move ?_ (fun other => ?_) (fun other member => .inl ?_) mappings
  · simp only [Clearing, running, mem_append, mem_cons, (ne_clearing guarding).symm,
      (ne_clearing kept).symm, false_or]
  · rw [← sound.counted other, running]
    simp only [countP_append, countP_cons, guarding, kept]
  · rcases mem_append.mp member with before | here
    · exact sound.tasks other (running ▸ mem_append_left _ before)
    · rcases mem_cons.mp here with rfl | behind
      · exact moved
      · exact sound.tasks other (running ▸ mem_append_right _ (mem_cons_of_mem _ behind))

theorem Sound.finish (running : system.tasks = front ++ task :: back)
    (guarding : task.guard = some key) {entries : Key → Option (MappingEntry Meta)}
    (mappings : ∀ key entry, entries key = some entry →
      system.invalidated key < entry.began) :
    Sound { system with
      cache := { system.cache with entries }
      tasks := front ++ .leaving key :: back
      now := system.now + 1 } :=
  @Sound.swap _ _ _ _ _ _ _ (.leaving key) _ sound running guarding rfl trivial _ mappings

theorem Sound.install
    (guarded : Guarded system.cache.fence system.invalidated system.Clearing key epoch began)
    (mapping : Meta) (other : Key) (entry : MappingEntry Meta)
    (found : (system.cache.admitMetaIfFresh key epoch ⟨mapping, began⟩).entries other =
      some entry) : system.invalidated other < entry.began := by
  rw [Mappings.admitMetaIfFresh] at found
  split at found
  · rename_i fresh
    rcases of_update_eq found with ⟨rfl, new⟩ | ⟨_, found⟩
    · cases new
      obtain ⟨slot, slot_eq, _, newer⟩ := guarded
      rw [slot_eq, any_some, decide_eq_true_eq] at fresh
      exact (newer fresh.symm).1
    · exact sound.mappings other entry found
  · exact sound.mappings other entry found

theorem Sound.remove (other : Key) (entry : MappingEntry Meta)
    (found : (system.cache.remove key).entries other = some entry) :
    system.invalidated other < entry.began := by
  rcases of_update_eq found with ⟨rfl, new⟩ | ⟨_, found⟩
  · cases new
  · exact sound.mappings other entry found

theorem Sound.register (guarding : task.guard = some key)
    (started : task.Sound (system.cache.fence.register key).1 system.invalidated
      system.Clearing) :
    Sound { system with
      cache := { system.cache with fence := (system.cache.fence.register key).1 }
      tasks := task :: system.tasks
      now := system.now + 1 } := by
  refine sound.move ?_ (fun other => ?_) (fun other member => ?_) sound.mappings
  · simp only [Clearing, mem_cons, (ne_clearing guarding).symm, false_or]
  · rw [MetaFence.count_register, countP_cons, sound.counted other, guarding]
    by_cases same : other = key
    · simp [same]
    · simp [same, Ne.symm same]
  · rcases mem_cons.mp member with rfl | before
    · exact .inl started
    · exact .inr ⟨before, fun guard _ => MetaFence.follows_register key guard⟩

theorem Sound.release (running : system.tasks = front ++ .leaving key :: back) :
    Sound { system with
      cache := { system.cache with fence := system.cache.fence.release key }
      tasks := front ++ back
      now := system.now + 1 } := by
  have count_eq (other : Key) : system.cache.fence.count other =
      (front ++ back).countP (fun task => decide (task.guard = some other)) +
        if other = key then 1 else 0 := by
    rw [← sound.counted other, running]
    simp only [countP_append, countP_cons, FenceTask.guard, some.injEq,
      decide_eq_true_eq, eq_comm (a := key)]
    omega
  refine sound.move ?_ (fun other => ?_) (fun other member => .inr ⟨?_, fun guard guarding => ?_⟩)
    sound.mappings
  · simp only [Clearing, running, mem_append, mem_cons, reduceCtorEq, false_or]
  · rw [MetaFence.count_release]
    by_cases same : other = key
    · subst same
      rw [if_pos rfl, count_eq other, if_pos rfl]
      rfl
    · rw [if_neg same, count_eq other, if_neg same]
      rfl
  · rw [running]
    exact mem_append.mpr ((mem_append.mp member).imp_right (mem_cons_of_mem _))
  · refine MetaFence.follows_release ?_
    -- The guard of the other task keeps the slot alive.
    rintro rfl
    have positive : 0 < (front ++ back).countP fun task => decide (task.guard = some guard) :=
      countP_pos_iff.mpr ⟨other, member, decide_eq_true guarding⟩
    rw [count_eq guard, if_pos rfl]
    omega

theorem Sound.invalidate (key : Key) :
    Sound { system with
      cache := system.cache.invalidateKey key
      now := system.now + 1
      invalidated := update system.invalidated key system.now } := by
  refine ⟨?_, ?_, ?_, ?_⟩
  · intro other
    rw [sound.counted other]
    exact (MetaFence.count_advance key other).symm
  · intro task member
    refine (sound.tasks task member).mono fun guard _ slot found => ?_
    change ∃ after, system.cache.fence.advance key guard = some after ∧ _
    by_cases same : guard = key
    · subst same
      refine ⟨{ slot with epoch := slot.epoch + 1 }, ?_, Nat.le_succ _, ?_⟩
      · rw [MetaFence.advance, update_self, found]
        rfl
      · exact fun unmoved => absurd unmoved (Nat.succ_ne_self _)
    · refine ⟨slot, ?_, Nat.le_refl _, fun _ quiet => ⟨update_of_ne same _ _, quiet⟩⟩
      rw [MetaFence.advance, update_of_ne same, found]
  · intro other entry found
    change update system.invalidated key system.now other < entry.began
    have apart : other ≠ key := by
      rintro rfl
      simp only [Mappings.invalidateKey, Mappings.remove, update_self] at found
      cases found
    rw [update_of_ne apart]
    simp only [Mappings.invalidateKey, Mappings.remove, update_of_ne apart] at found
    exact sound.mappings other entry found
  · intro other
    change update system.invalidated key system.now other < system.now + 1
    by_cases same : other = key
    · rw [same, update_self]
      exact Nat.lt_succ_self _
    · rw [update_of_ne same]
      exact Nat.lt_succ_of_lt (sound.clock other)

theorem Sound.purge :
    Sound { system with
      cache := { system.cache with fence := system.cache.fence.purgeAllEpochs }
      tasks := .clearing :: system.tasks
      now := system.now + 1 } := by
  refine ⟨?_, ?_, sound.mappings, fun key => Nat.lt_succ_of_lt (sound.clock key)⟩
  · intro key
    rw [countP_cons_of_neg (by simp [FenceTask.guard]), sound.counted key]
    exact (MetaFence.count_purgeAllEpochs key).symm
  · intro task member
    rcases mem_cons.mp member with rfl | before
    · trivial
    refine (sound.tasks task before).mono fun guard _ slot found => ?_
    refine ⟨{ slot with epoch := slot.epoch + 1 }, ?_, Nat.le_succ _,
      fun unmoved => absurd unmoved (Nat.succ_ne_self _)⟩
    simp only [MetaFence.purgeAllEpochs, found, map_some]

/-- A purge empties the cache.  No guard that could still be used is left, because the purge was
between its steps. -/
theorem Sound.clear (running : system.tasks = front ++ .clearing :: back) :
    Sound { system with
      cache := { system.cache with entries := fun _ => none }
      tasks := front ++ back
      now := system.now + 1
      invalidated := fun _ => system.now } := by
  have clearing : system.Clearing := by
    rw [Clearing, running]
    exact mem_append_right _ mem_cons_self
  refine ⟨?_, ?_, (fun _ _ found => nomatch found), fun _ => Nat.lt_succ_self _⟩
  · intro key
    rw [← sound.counted key, running]
    simp [countP_append, FenceTask.guard]
  · intro task member
    have old : task ∈ system.tasks := by
      rw [running]
      exact mem_append.mpr ((mem_append.mp member).imp_right (mem_cons_of_mem _))
    exact (sound.tasks task old).mono fun _ _ slot found =>
      ⟨slot, found, Nat.le_refl _, fun _ quiet => absurd clearing quiet⟩

theorem Sound.start_write (key : Key) :
    Sound { system with
      tasks := .writing key system.now :: system.tasks, now := system.now + 1 } := by
  refine sound.move ?_ (fun other => ?_) (fun task member => .inl ?_) sound.mappings
  · simp only [Clearing, mem_cons, reduceCtorEq, false_or]
  · rw [countP_cons_of_neg (by simp [FenceTask.guard]), sound.counted other]
  · rcases mem_cons.mp member with rfl | before
    · trivial
    · exact sound.tasks task before

theorem Sound.end_write (running : system.tasks = front ++ .writing key began :: back) :
    Sound { system with tasks := front ++ back, now := system.now + 1 } := by
  refine sound.move ?_ (fun other => ?_) (fun task member => .inl (sound.tasks task ?_))
    sound.mappings
  · simp only [Clearing, running, mem_append, mem_cons, reduceCtorEq, false_or]
  · rw [← sound.counted other, running]
    simp [countP_append, FenceTask.guard]
  · rw [running]
    exact mem_append.mpr ((mem_append.mp member).imp_right (mem_cons_of_mem _))

end Steps

theorem Sound.step {system after : FenceSystem Key Meta} {event : FenceEvent Key}
    (sound : system.Sound) (happens : Step system event after) (calm : system.Calm event) :
    after.Sound := by
  have running_sound {front back : List (FenceTask Key Meta)} {task : FenceTask Key Meta}
      (running : system.tasks = front ++ task :: back) :
      task.Sound system.cache.fence system.invalidated system.Clearing :=
    sound.tasks task (running ▸ mem_append_right _ mem_cons_self)
  have registered (key : Key) : (system.cache.fence.register key).1 key =
      some ⟨(system.cache.fence.register key).2, system.cache.fence.count key + 1⟩ := by
    rw [MetaFence.register_apply, if_pos rfl]
  cases happens with
  | register key current =>
    exact sound.register rfl ⟨_, registered key, Nat.le_refl _⟩
  | request running =>
    obtain ⟨slot, found, reached⟩ := running_sound running
    refine sound.swap running rfl rfl ?_ sound.mappings
    exact ⟨slot, found, reached, fun _ => ⟨sound.clock _, calm⟩⟩
  | answer mapping running =>
    rw [admitMetaIfFresh_eq]
    exact sound.finish running rfl (sound.install (running_sound running) mapping)
  | unchanged running | install running =>
    rw [admitMetaIfFresh_eq]
    exact sound.finish running rfl (sound.install (running_sound running) _)
  | vanished running => exact sound.finish running rfl sound.remove
  | abandon running guarding => exact sound.finish running guarding sound.mappings
  | leave running => exact sound.release running
  | write key => exact sound.start_write key
  | wrote running => exact sound.end_write running
  | populate mapping written =>
    exact sound.register rfl ⟨_, registered _, Nat.le_refl _, fun _ => ⟨calm.2, calm.1⟩⟩
  | invalidate key => exact sound.invalidate key
  | purge => exact sound.purge
  | clear running => exact sound.clear running
  | evict key =>
    exact ⟨sound.counted, sound.tasks, sound.remove, fun key => Nat.lt_succ_of_lt (sound.clock key)⟩

variable {system : FenceSystem Key Meta}

theorem Run.sound (run : Run Calm {} system) : system.Sound := by
  generalize starting : ({} : FenceSystem Key Meta) = start at run
  induction run with
  | refl => exact starting ▸ sound_start
  | step _ happens calm induction => exact induction.step happens calm

/-- In every calm run, a mapping that is in the cache was obtained from a request, or made by a
write, that began after the last invalidation or purge of its key was complete. -/
theorem mapping_newer_than_invalidation (run : Run Calm {} system) (key : Key)
    (entry : MappingEntry Meta) (memoized : system.cache.entries key = some entry) :
    system.invalidated key < entry.began :=
  run.sound.mappings key entry memoized

/-- A first write is acknowledged, a second one invalidates the key, and only then is the mapping of
the first one installed.  And a request that goes out in the middle of a purge is admitted after
it. -/
theorem old_mapping_is_installed :
    (∃ system : FenceSystem Unit String, Run (fun _ _ => True) {} system ∧
        ∃ entry, system.cache.entries () = some entry ∧ entry.mapping = "first" ∧
          entry.began < system.invalidated ()) ∧
      ∃ system : FenceSystem Unit String, Run (fun _ _ => True) {} system ∧
        ∃ entry, system.cache.entries () = some entry ∧
          entry.began < system.invalidated () := by
  have start : Run (fun (_ : FenceSystem Unit String) _ => True) {} {} := .refl
  constructor
  · have writing := start.step (.write ()) trivial
    have invalidated := writing.step (.invalidate ()) trivial
    have called := invalidated.step (.populate "first" mem_cons_self) trivial
    have installed := called.step (@Step.install _ _ _ _ [] _ _ _ _ _ rfl) trivial
    exact ⟨_, installed, ⟨"first", 1⟩, rfl, rfl, by decide⟩
  · have purging := start.step .purge trivial
    have registered := purging.step (.register () none) trivial
    have requested := registered.step (@Step.request _ _ _ _ [] _ _ _ _ rfl) trivial
    have cleared := requested.step (@Step.clear _ _ _ _ [_] [] rfl) trivial
    have admitted := cleared.step (@Step.answer _ _ _ _ [] _ _ _ _ _ "first" rfl) trivial
    exact ⟨_, admitted, ⟨"first", 3⟩, rfl, by decide⟩

/-- A key is invalidated, resolved anew and memoized. -/
theorem mapping_newer_than_invalidation_resolved :
    ∃ system : FenceSystem Unit String, Run Calm {} system ∧
      ∃ entry, system.cache.entries () = some entry ∧
        system.invalidated () < entry.began := by
  have start : Run (@Calm Unit String) {} {} := .refl
  have invalidated := start.step (.invalidate ()) trivial
  have registered := invalidated.step (.register () none) trivial
  have requested := registered.step (@Step.request _ _ _ _ [] _ _ _ _ rfl) (by
    intro clearing
    cases clearing with
    | tail _ inside => cases inside)
  have admitted := requested.step (@Step.answer _ _ _ _ [] _ _ _ _ _ "second" rfl) trivial
  exact ⟨_, admitted, ⟨"second", 3⟩, rfl,
    mapping_newer_than_invalidation admitted () ⟨"second", 3⟩ rfl⟩

end FenceSystem

end Verglas.Cache
