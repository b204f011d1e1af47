import Verglas.Writeback.Claims

/-!
# The last acknowledged write

A read returns the write that was acknowledged last in every run in which a write starts only while
its key has no journal in the dirty index, no other write in progress and, unless the write will be
packed itself, no pack index row.  A write that starts while a row exists and bypasses the offload
stream stays behind the row.
-/

namespace Verglas.Writeback

open Function List Option JournalStore

variable {staged : String → StagedObject} {limit : Nat} {latest later : CacheKey → Option Bytes}
  {before after : System} {tokens : List Token}

section Invariant

variable (staged : String → StagedObject) (limit : Nat) (latest : CacheKey → Option Bytes)
  (system : System)

/-- The invariant of runs whose writes start on quiet keys; `latest` is the body of the write to
each key that took effect last. -/
structure LastWriteInvariant : Prop where
  exclusive : Exclusive (system.claims staged)
  issued : ∀ place object, .object object ∈ system.claims staged place → object ∈ system.issued
  bodies : ∀ object ∈ system.issued,
    (staged object).body ≠ [] ∧ ¬Reserved (staged object).key.key
  tasks : ∀ id task, system.tasks id = some task → task.Sound staged limit latest system
  buffers : ∀ stream, ∀ entry ∈ (system.buffers stream).pending,
    Waiting staged system stream entry
  journals : JournalsSound staged system.journals
  rows : ∀ key entry, system.packs key = some entry →
    Reserved entry.packKey ∧ entry.packKey ∈ system.packKeys
  current : ∀ key body, latest key = some body → Current staged system key body
  acked : ∀ key body, system.acked key = some body →
    latest key = some body ∨ ∃ id other, system.tasks id = some (.returning key other)

/-- Writes and their propagation, without deletes, repairs and restarts. -/
def OnlyWrites (_ : System) : Event → Prop
  | .putStart _ | .writeStart _ _ | .collect _ | .progress => True
  | .deleteStart _ | .repairStart | .repairRead _ | .restart => False

/-- A write starts only on a quiet key: outside the reserved prefix, with no other write in
progress, no journal in the dirty index and, unless the write will be packed, no pack index row. -/
def WritesOnQuietKeys (staged : String → StagedObject) (limit : Nat) (system : System) :
    Event → Prop
  | .putStart object =>
    ¬Reserved (staged object).key.key ∧ (staged object).body ≠ [] ∧
      ¬system.InProgress staged (staged object).key ∧
      system.journals.findDirty (staged object).key = none ∧
      (limit < (staged object).body.length → system.packs (staged object).key = none)
  | .writeStart key _ =>
    ¬Reserved key.key ∧ ¬system.InProgress staged key ∧ system.journals.findDirty key = none ∧
      system.packs key = none
  | .deleteStart _ | .repairStart | .repairRead _ | .restart => False
  | .collect _ | .progress => True

end Invariant

/-- What a step must show of the shared state, where its tokens allow it to change. -/
structure Effect (staged : String → StagedObject) (tokens : List Token)
    (latest later : CacheKey → Option Bytes) (before after : System) : Prop where
  touches : Touches staged tokens latest later before after
  journals : JournalsSound staged after.journals
  rows : ∀ key entry, after.packs key = some entry →
    Reserved entry.packKey ∧ entry.packKey ∈ after.packKeys
  current : ∀ key body, .key key ∈ tokens → later key = some body → Current staged after key body

/-- What clients were told is current, or another answer for its key is on its way. -/
def Told (later : CacheKey → Option Bytes) (after : System) : Prop :=
  ∀ key body, after.acked key = some body →
    later key = some body ∨ ∃ id other, after.tasks id = some (.returning key other)

namespace LastWriteInvariant

variable (inv : LastWriteInvariant staged limit latest before)
include inv

/-- A step of one place, whose tokens bound what it touches: what the others know is kept, and what
the place itself knows is to be shown. -/
theorem advance (place : Place) (effect : Effect staged tokens latest later before after)
    (within : ∀ token ∈ tokens, token ∈ before.claims staged place)
    (exclusive : Exclusive (after.claims staged))
    (issued : ∀ place object, .object object ∈ after.claims staged place → object ∈ after.issued)
    (bodies : ∀ object ∈ after.issued,
      (staged object).body ≠ [] ∧ ¬Reserved (staged object).key.key)
    (tasks : ∀ id task, after.tasks id = some task →
      place ≠ .inl id ∧ before.tasks id = some task ∨ task.Sound staged limit later after)
    (buffers : ∀ stream, ∀ entry ∈ (after.buffers stream).pending,
      place ≠ .inr stream ∧ entry ∈ (before.buffers stream).pending ∨
        Waiting staged after stream entry)
    (acked : Told later after) : LastWriteInvariant staged limit later after where
  exclusive := exclusive
  issued := issued
  bodies := bodies
  journals := effect.journals
  rows := effect.rows
  acked := acked
  tasks id task running := by
    rcases tasks id task running with ⟨other, kept⟩ | sound
    · have claims := claims_of_task staged kept
      refine (inv.tasks id task kept).frame effect.touches ?_
        (fun key entry row => (inv.rows key entry row).1) fun object claimed => ?_
      · intro token claimed touched
        exact other (inv.exclusive.unique (within token touched) (claims ▸ claimed))
      · exact (inv.bodies object (inv.issued (.inl id) object (claims ▸ claimed))).2
    · exact sound
  buffers stream entry member := by
    rcases buffers stream entry member with ⟨other, kept⟩ | waiting
    · obtain ⟨held, in_stream⟩ := inv.buffers stream entry kept
      have claimed : .key (staged entry.objectId).key ∈ before.claims staged (.inr stream) :=
        key_mem_objectTokens staged (mem_map_of_mem kept)
      refine ⟨held.frame effect.touches (fun token claimed touched => ?_) claimed, in_stream⟩
      exact other (inv.exclusive.unique (within token touched) claimed)
    · exact waiting
  current key body is_latest := by
    by_cases touched : .key key ∈ tokens
    · exact effect.current key body touched is_latest
    rw [effect.touches.latest key (.inr touched)] at is_latest
    obtain ⟨plain, held, settled⟩ := inv.current key body is_latest
    have holder := effect.touches.holder key touched
    refine ⟨plain, fun object named => held object (holder ▸ named), fun unnamed => ?_⟩
    have apart : ∀ token ∈ [Token.key key], token ∉ tokens := by
      intro token member
      rw [mem_singleton.mp member]
      exact touched
    exact (settled (holder ▸ unnamed)).frame effect.touches apart (mem_singleton_self _)
      plain fun entry row => (inv.rows key entry row).1

theorem untouched (journals : after.journals = before.journals)
    (packs : after.packs = before.packs) (origin : after.origin = before.origin)
    (packKeys : before.packKeys ⊆ after.packKeys) :
    Effect staged [] latest latest before after where
  touches := .none journals packs origin packKeys
  journals := journals ▸ inv.journals
  rows key entry row := (inv.rows key entry (packs ▸ row)).imp_right fun issued => packKeys issued
  current := nofun

variable {id attempts : Nat} {next : Option Task} {task : Task} {stream : String × String}
  {buffer : OffloadBuffer} {key : CacheKey} {place : Place} {packKey object : String}
  {body pack : Bytes} {journal : Journal} {batch : List PendingEntry} {lock : Option CacheKey}
  {rows : List PackedRow} {rest : List String}

/-- What clients were told stays true while the tasks that answer them go on. -/
theorem acked_of_silent (silent : ∀ key body, before.tasks id ≠ some (.returning key body))
    (others : ∀ other, other ≠ id → after.tasks other = before.tasks other)
    (acked : after.acked = before.acked) : Told latest after := by
  intro key body told
  rw [acked] at told
  rcases inv.acked key body told with is_latest | ⟨waiter, other, waits⟩
  · exact .inl is_latest
  · refine .inr ⟨waiter, other, (others waiter ?_).trans waits⟩
    rintro rfl
    exact silent key other waits

theorem replace (effect : Effect staged tokens latest later before after)
    (within : ∀ token ∈ tokens, token ∈ before.claims staged (.inl id))
    (tasks : after.tasks = update before.tasks id next)
    (buffers : after.buffers = before.buffers) (grows : before.issued ⊆ after.issued)
    (bodies : ∀ object ∈ after.issued,
      (staged object).body ≠ [] ∧ ¬Reserved (staged object).key.key)
    (exclusive : Exclusive (update (before.claims staged) (.inl id)
      ((next.map (Task.tokens staged)).getD [])))
    (objects : ∀ object, .object object ∈ (next.map (Task.tokens staged)).getD [] →
      object ∈ after.issued)
    (sound : ∀ moved, next = some moved → moved.Sound staged limit later after)
    (acked : Told later after) : LastWriteInvariant staged limit later after := by
  have claims_eq := claims_of_step staged tasks buffers
  refine inv.advance (.inl id) effect within (claims_eq ▸ exclusive) ?_ bodies ?_ ?_ acked
  · intro place object claimed
    rw [claims_eq] at claimed
    rcases mem_of_update claimed with ⟨rfl, new⟩ | ⟨_, claimed⟩
    · exact objects object new
    · exact grows (inv.issued place object claimed)
  · intro other moved now
    rw [tasks] at now
    rcases of_update_eq now with ⟨rfl, new⟩ | ⟨same, now⟩
    · exact .inr (sound moved new)
    · exact .inl ⟨fun both => same (Sum.inl.inj both).symm, now⟩
  · intro stream entry member
    rw [buffers] at member
    exact .inl ⟨Sum.inl_ne_inr, member⟩

theorem relocate (running : before.tasks id = some task)
    (effect : Effect staged tokens latest later before after)
    (within : ∀ token ∈ tokens, token ∈ task.tokens staged)
    (tasks : after.tasks = update before.tasks id next)
    (buffers : after.buffers = before.buffers) (issued : after.issued = before.issued)
    (claims : ((next.map (Task.tokens staged)).getD []).Subperm (task.tokens staged))
    (sound : ∀ moved, next = some moved → moved.Sound staged limit later after)
    (acked : Told later after) : LastWriteInvariant staged limit later after := by
  rw [← claims_of_task staged running] at within claims
  refine inv.replace effect within tasks buffers ?_ ?_ (inv.exclusive.give claims) ?_ sound acked
  · exact issued ▸ .refl _
  · exact issued ▸ inv.bodies
  · intro object claimed
    exact issued ▸ inv.issued (.inl id) object (claims.subset claimed)

theorem move {next : Task} (running : before.tasks id = some task)
    (effect : Effect staged tokens latest later before after)
    (within : ∀ token ∈ tokens, token ∈ task.tokens staged)
    (tasks : after.tasks = update before.tasks id (some next))
    (buffers : after.buffers = before.buffers) (issued : after.issued = before.issued)
    (acked : after.acked = before.acked)
    (claims : (next.tokens staged).Subperm (task.tokens staged))
    (sound : next.Sound staged limit later after) (replies : ∀ key body, task ≠ .returning key body)
    (effects : ∀ key, later key = latest key ∨ ∃ body, next = .returning key body) :
    LastWriteInvariant staged limit later after := by
  refine inv.relocate running effect within tasks buffers issued claims
    (fun moved moved_eq => some.inj moved_eq ▸ sound) fun key body told => ?_
  rcases effects key with same | ⟨other, returning⟩
  · have kept := inv.acked_of_silent (fun key body waits => replies key body
      (some.inj (running.symm.trans waits)))
      (fun other ne => by rw [tasks, update_of_ne ne]) acked key body told
    exact same ▸ kept
  · refine .inr ⟨id, other, ?_⟩
    rw [tasks, update_self, returning]

theorem shuffle {next : Task} (running : before.tasks id = some task)
    (claims : (next.tokens staged).Subperm (task.tokens staged))
    (sound : next.Sound staged limit latest before)
    (replies : ∀ key body, task ≠ .returning key body) :
    LastWriteInvariant staged limit latest (before.run id next) :=
  inv.move running (inv.untouched rfl rfl rfl (.refl _)) nofun rfl rfl rfl rfl claims
    sound replies fun _ => .inl rfl

theorem stop (running : before.tasks id = some task)
    (replies : ∀ key body, task ≠ .returning key body) :
    LastWriteInvariant staged limit latest (before.finish id) := by
  refine inv.relocate running (inv.untouched rfl rfl rfl (.refl _)) nofun rfl rfl rfl
    nil_subperm (fun _ => nofun)
    (inv.acked_of_silent ?_ (fun other ne => update_of_ne ne _ _) rfl)
  intro key body waits
  exact replies key body (some.inj (running.symm.trans waits))

theorem enter {issued : List String} (idle : before.tasks id = none)
    (nodup : (task.tokens staged).Nodup)
    (fresh : ∀ token ∈ task.tokens staged, ∀ place, token ∉ before.claims staged place)
    (objects : ∀ object, .object object ∈ task.tokens staged → object ∈ issued)
    (grows : before.issued ⊆ issued)
    (bodies : ∀ object ∈ issued, (staged object).body ≠ [] ∧ ¬Reserved (staged object).key.key)
    (sound : task.Sound staged limit latest before) :
    LastWriteInvariant staged limit latest ({ before with issued }.run id task) := by
  have taken := inv.exclusive.take (.inl id) nodup fresh
  rw [claims_of_idle staged idle, append_nil] at taken
  refine inv.replace (inv.untouched rfl rfl rfl (.refl _)) nofun rfl rfl grows bodies
    taken objects ?_ (inv.acked_of_silent ?_ (fun other ne => update_of_ne ne _ _) rfl)
  · rintro _ ⟨⟩
    exact sound
  · intro key body
    rw [idle]
    nofun

theorem pass
    (claims : ((next.map (Task.tokens staged)).getD [] ++
      objectTokens staged (buffer.pending.map PendingEntry.objectId)).Subperm
        (before.claims staged (.inl id) ++ before.claims staged (.inr stream)))
    (sound : ∀ moved, next = some moved → moved.Sound staged limit latest before)
    (waiting : ∀ entry ∈ buffer.pending, Waiting staged before stream entry)
    (replies : ∀ key body, before.tasks id ≠ some (.returning key body)) :
    LastWriteInvariant staged limit latest
      { before with
        tasks := update before.tasks id next
        buffers := update before.buffers stream buffer } := by
  set after : System :=
    { before with
      tasks := update before.tasks id next
      buffers := update before.buffers stream buffer } with after_eq
  have claims_eq := claims_of_exchange staged (after_eq ▸ rfl :
    after.tasks = update before.tasks id next) (after_eq ▸ rfl :
    after.buffers = update before.buffers stream buffer)
  refine inv.advance (.inl id) (inv.untouched rfl rfl rfl (.refl _)) nofun ?_ ?_
    inv.bodies ?_ ?_ (inv.acked_of_silent replies (fun other ne => update_of_ne ne _ _) rfl)
  · rw [claims_eq]
    exact inv.exclusive.exchange Sum.inl_ne_inr claims
  · intro place object claimed
    have issued : .object object ∈ before.claims staged (.inl id) ++
        before.claims staged (.inr stream) → object ∈ before.issued := fun owned =>
      (mem_append.mp owned).elim (inv.issued _ object) (inv.issued _ object)
    rw [claims_eq] at claimed
    rcases mem_of_update claimed with ⟨rfl, new⟩ | ⟨_, claimed⟩
    · exact issued (claims.subset (mem_append_right _ new))
    · rcases mem_of_update claimed with ⟨rfl, new⟩ | ⟨_, claimed⟩
      · exact issued (claims.subset (mem_append_left _ new))
      · exact inv.issued place object claimed
  · intro other moved now
    rcases of_update_eq now with ⟨rfl, new⟩ | ⟨same, now⟩
    · exact .inr (sound moved new)
    · exact .inl ⟨fun both => same (Sum.inl.inj both).symm, now⟩
  · intro other entry member
    by_cases same : other = stream
    · subst same
      have at_stream : after.buffers other = buffer := update_self other _ _
      rw [at_stream] at member
      exact .inr (waiting entry member)
    · have elsewhere : after.buffers other = before.buffers other := update_of_ne same _ _
      rw [elsewhere] at member
      exact .inl ⟨Sum.inl_ne_inr, member⟩

omit inv in
theorem holder_of_objectTokens {objects : List String}
    (held : ∀ object ∈ objects, Held staged before object)
    (claimed : .key key ∈ objectTokens staged objects) : before.holder key ≠ none := by
  obtain ⟨object, member, impossible | same⟩ := (mem_objectTokens staged).mp claimed
  · cases impossible
  · have named := held object member
    cases same
    rw [named]
    exact some_ne_none object

theorem named_or_inProgress (claimed : .key key ∈ before.claims staged place) :
    before.holder key ≠ none ∨ before.InProgress staged key := by
  rcases mem_claims staged claimed with ⟨id, task, running, claimed⟩ | ⟨stream, waiting⟩
  swap
  · refine .inl (holder_of_objectTokens (fun object member => ?_) waiting)
    obtain ⟨entry, waits, rfl⟩ := mem_map.mp member
    exact (inv.buffers stream entry waits).1
  have sound := inv.tasks id task running
  cases task with
  | staging object | journaling object placements =>
    refine .inr ⟨id, _, running, ?_⟩
    simp only [Task.tokens, mem_cons, reduceCtorEq, Token.key.injEq, false_or,
      not_mem_nil, or_false] at claimed
    rw [Task.writes, claimed]
  | writing other body =>
    refine .inr ⟨id, _, running, ?_⟩
    simp only [Task.tokens, mem_cons, reduceCtorEq, Token.key.injEq,
      not_mem_nil, or_false] at claimed
    rw [Task.writes, claimed]
  | returning other body => simp [Task.tokens] at claimed
  | settling object | bypassing object attempts | putting object journal attempts =>
    exact .inl (holder_of_objectTokens (by simpa using sound.1) claimed)
  | collecting lock stream batch pack rows =>
    refine .inl (holder_of_objectTokens (fun object member => ?_) claimed)
    rcases mem_append.mp member with member | member
    · obtain ⟨entry, waits, rfl⟩ := mem_map.mp member
      exact (sound.1 entry waits).1
    · obtain ⟨row, listed, rfl⟩ := mem_map.mp member
      exact (sound.2 row listed).1
  | packing lock stream pack packKey rows attempts =>
    refine .inl (holder_of_objectTokens (fun object member => ?_)
      ((mem_cons.mp claimed).resolve_left (by simp)))
    obtain ⟨row, listed, rfl⟩ := mem_map.mp member
    exact (sound.1 row listed).1
  | indexing lock packKey rows packed =>
    exact .inl (holder_of_objectTokens (fun object member => (sound.2.2.1 object member).1)
      ((mem_cons.mp claimed).resolve_left (by simp)))
  | marking lock packed =>
    exact .inl (holder_of_objectTokens (fun object member => (sound object member).1) claimed)
  | cleaning lock journal rest | unindexing lock journal rest =>
    exact .inl (holder_of_objectTokens (fun object member => (sound.2 object member).1) claimed)
  | discarding lock object rest | erasing lock object rest =>
    exact .inl (holder_of_objectTokens (fun other member => (sound.2 other member).1)
      ((mem_cons.mp claimed).resolve_left (by simp)))
  | resuming | deleting | repairing | rewriting => exact sound.elim

omit inv in
theorem inProgress_of_reply (claimed : .reply key ∈ before.claims staged place) :
    before.InProgress staged key := by
  have no_reply : ∀ objects : List String, .reply key ∉ objectTokens staged objects := by
    simp [mem_objectTokens]
  rcases mem_claims staged claimed with ⟨id, task, running, claimed⟩ | ⟨stream, waiting⟩
  · refine ⟨id, task, running, ?_⟩
    cases task <;> simp [Task.tokens, no_reply] at claimed <;> simp [Task.writes, claimed]
  · exact absurd waiting (no_reply _)

theorem issued_of_pack (claimed : .pack packKey ∈ before.claims staged place) :
    packKey ∈ before.packKeys := by
  have no_pack : ∀ objects : List String, .pack packKey ∉ objectTokens staged objects := by
    simp [mem_objectTokens]
  rcases mem_claims staged claimed with ⟨id, task, running, claimed⟩ | ⟨stream, waiting⟩
  · have sound := inv.tasks id task running
    cases task with
    | packing lock stream pack other rows attempts =>
      cases (mem_cons.mp claimed).resolve_right (no_pack _)
      exact sound.2.2.1
    | indexing lock other rows packed =>
      cases (mem_cons.mp claimed).resolve_right (no_pack _)
      exact sound.2.1
    | _ => simp [Task.tokens, no_pack] at claimed
  · exact absurd waiting (no_pack _)

theorem unclaimed_of_quiet (idle : ¬before.InProgress staged key)
    (clean : before.journals.findDirty key = none) (place : Place) :
    .key key ∉ before.claims staged place ∧ .reply key ∉ before.claims staged place := by
  rw [findDirty_eq_holder] at clean
  refine ⟨fun claimed => ?_, fun claimed => idle (inProgress_of_reply claimed)⟩
  rcases inv.named_or_inProgress claimed with named | busy
  · exact named clean
  · exact idle busy

theorem putStart (idle : before.tasks id = none) (fresh : object ∉ before.issued)
    (quiet : WritesOnQuietKeys staged limit before (.putStart object)) :
    LastWriteInvariant staged limit latest
      ({ before with issued := object :: before.issued }.run id (.staging object)) := by
  obtain ⟨plain, nonempty, not_busy, clean, unshadowed⟩ := quiet
  have unclaimed := inv.unclaimed_of_quiet not_busy clean
  refine inv.enter idle ?_ ?_ ?_ (subset_cons_self _ _) ?_ ?_
  · simp [Task.tokens]
  · intro token member place
    simp only [Task.tokens, mem_cons, not_mem_nil, or_false] at member
    rcases member with rfl | rfl | rfl
    · exact fun claimed => fresh (inv.issued place object claimed)
    · exact (unclaimed place).1
    · exact (unclaimed place).2
  · intro other member
    simp only [Task.tokens, mem_cons, not_mem_nil, or_false, reduceCtorEq,
      Token.object.injEq] at member
    exact member ▸ mem_cons_self
  · intro other member
    rcases mem_cons.mp member with rfl | member
    · exact ⟨nonempty, plain⟩
    · exact inv.bodies other member
  · rw [findDirty_eq_holder] at clean
    exact ⟨clean, unshadowed⟩

theorem writeFile {next : Task} (running : before.tasks id = some task)
    (key_eq : journal.indexKey = (staged journal.objectId).key)
    (claims : (next.tokens staged).Subperm (task.tokens staged))
    (sound : next.Sound staged limit latest
      { before with journals := before.journals.writeFsynced journal })
    (replies : ∀ key body, task ≠ .returning key body) :
    LastWriteInvariant staged limit latest
      ({ before with journals := before.journals.writeFsynced journal }.run id next) := by
  have touches : Touches staged [] latest latest before
      ({ before with journals := before.journals.writeFsynced journal }.run id next) := by
    refine .files_only rfl rfl rfl (.refl _) fun object _ found => ?_
    refine (congrArg isSome (read_writeFsynced _ _ _)).trans ?_
    split
    · rfl
    · exact found
  exact inv.move running ⟨touches, inv.journals.writeFsynced key_eq, inv.rows, nofun⟩ nofun rfl rfl
    rfl rfl claims sound replies fun _ => .inl rfl

theorem straggle (placement : Placement) (running : before.tasks id = some (.settling object)) :
    LastWriteInvariant staged limit latest
      { before with journals := before.journals.addPlacement object placement } := by
  rcases inv.journals.addPlacement_cases object placement with
    same | ⟨journal, placements, _, rfl, key_eq, written⟩
  · rw [same]
    exact inv
  · have moved := @writeFile _ _ _ _ inv id _ { journal with placements } _ running key_eq
      (.refl _) (inv.tasks id _ running) nofun
    rw [System.run, update_eq_self_iff.mpr running.symm] at moved
    rw [written]
    exact moved

theorem putIndex {handler : Nat} {placements : List Placement}
    (running : before.tasks id = some (.journaling object placements))
    (idle : before.tasks handler = none) :
    LastWriteInvariant staged limit
      (update latest (staged object).key (some (staged object).body))
      (({ before with
        journals := before.journals.insertIndex (journalOf staged object placements) }.run id
          (.settling object)).run handler
            (.returning (staged object).key (staged object).body)) := by
  obtain ⟨unnamed, unshadowed, present⟩ := inv.tasks id _ running
  set middle : System := { before with
    journals := before.journals.insertIndex (journalOf staged object placements) }.run id
      (.settling object) with middle_eq
  set after := middle.run handler (.returning (staged object).key (staged object).body)
    with after_eq
  have apart : handler ≠ id := by
    rintro rfl
    rw [idle] at running
    cases running
  have names : after.holder (staged object).key = some object := DirtyIndex.holder_insert_self _ _ _
  have elsewhere : ∀ key, key ≠ (staged object).key → after.holder key = before.holder key :=
    fun key ne => DirtyIndex.holder_insert_of_ne _ _ ne
  have at_handler : after.tasks handler =
      some (.returning (staged object).key (staged object).body) := update_self _ _ _
  have at_id : after.tasks id = some (.settling object) :=
    (update_of_ne apart.symm _ _).trans (update_self _ _ _)
  have others : ∀ other, other ≠ handler → other ≠ id → after.tasks other = before.tasks other :=
    fun other not_handler not_id =>
      (update_of_ne not_handler _ _).trans (update_of_ne not_id _ _)
  have touches : Touches staged ((Task.journaling object placements).tokens staged) latest
      (update latest (staged object).key (some (staged object).body)) before after := by
    refine ⟨fun key free => elsewhere key ?_, fun key other free named => ?_, fun _ _ => rfl,
      fun _ _ _ row => row, fun _ _ _ => rfl, fun _ _ _ => rfl, fun key free => ?_,
      fun _ _ found => found, .refl _⟩
    · rintro rfl
      simp [Task.tokens] at free
    · by_cases same : key = (staged object).key
      · rw [same, names] at named
        cases named
        simp [Task.tokens] at free
      · rwa [elsewhere key same] at named
    · refine update_of_ne ?_ _ _
      rintro rfl
      simp [Task.tokens] at free
  have claims_eq : after.claims staged = update
      (update (before.claims staged) (.inl id) (objectTokens staged [object]))
      (.inl handler) [.reply (staged object).key] := by
    have first : middle.tasks = update before.tasks id (some (.settling object)) := rfl
    have second : after.tasks = update middle.tasks handler
      (some (.returning (staged object).key (staged object).body)) := rfl
    rw [claims_of_step staged second rfl, claims_of_step staged first rfl]
    rfl
  have old_claims := claims_of_task staged running
  refine inv.advance (.inl id) ⟨touches, inv.journals.insertIndex rfl present, inv.rows, ?_⟩
    (fun token member => old_claims ▸ member) ?_ ?_ inv.bodies ?_
    (fun stream entry member => .inl ⟨Sum.inl_ne_inr, member⟩) ?_
  · intro key body touched is_latest
    have key_eq : key = (staged object).key := by
      simpa [Task.tokens] using touched
    subst key_eq
    rw [update_self] at is_latest
    have claimed : .object object ∈ before.claims staged (.inl id) := by
      rw [old_claims]
      exact mem_cons_self
    refine ⟨(inv.bodies object (inv.issued _ object claimed)).2, fun other named => ?_,
      fun free => ?_⟩
    · rw [names] at named
      cases named
      exact some.inj is_latest
    · rw [names] at free
      cases free
  · rw [claims_eq]
    refine inv.exclusive.exchange (fun same => apart (Sum.inl.inj same).symm) ?_
    rw [old_claims, claims_of_idle staged idle]
    exact List.Subperm.refl _
  · intro place other claimed
    rw [claims_eq] at claimed
    rcases mem_of_update claimed with ⟨rfl, new⟩ | ⟨_, claimed⟩
    · simp at new
    rcases mem_of_update claimed with ⟨rfl, new⟩ | ⟨_, claimed⟩
    · have old : .object other ∈ before.claims staged (.inl id) := by
        rw [old_claims]
        exact mem_append_left [.reply (staged object).key] new
      exact inv.issued _ other old
    · exact inv.issued place other claimed
  · intro other moved now
    by_cases is_handler : other = handler
    · rw [is_handler, at_handler] at now
      cases now
      exact .inr (update_self _ _ _)
    · by_cases is_id : other = id
      · rw [is_id, at_id] at now
        cases now
        exact .inr ⟨names, unshadowed⟩
      · exact .inl ⟨fun same => is_id (Sum.inl.inj same).symm,
          (others other is_handler is_id).symm.trans now⟩
  · intro key body told
    by_cases same : key = (staged object).key
    · exact .inr ⟨handler, _, same ▸ at_handler⟩
    rcases inv.acked key body told with is_latest | ⟨waiter, other, waits⟩
    · exact .inl ((update_of_ne same _ _).trans is_latest)
    refine .inr ⟨waiter, other, (others waiter ?_ ?_).trans waits⟩
    · rintro rfl
      rw [idle] at waits
      cases waits
    · rintro rfl
      rw [running] at waits
      cases waits

theorem acknowledge (running : before.tasks id = some (.returning key body)) :
    LastWriteInvariant staged limit latest
      ({ before with acked := update before.acked key (some body) }.finish id) := by
  have effective : latest key = some body := inv.tasks id _ running
  refine inv.relocate running (inv.untouched rfl rfl rfl (.refl _)) nofun rfl rfl rfl
    nil_subperm (fun _ => nofun) fun other told_body told => ?_
  by_cases same : other = key
  · subst same
    have body_eq := (update_self other _ _).symm.trans told
    exact .inl (effective.trans body_eq)
  · rcases inv.acked other told_body ((update_of_ne same _ _).symm.trans told) with
      is_latest | ⟨waiter, waited, waits⟩
    · exact .inl is_latest
    refine .inr ⟨waiter, waited, (update_of_ne ?_ _ _).trans waits⟩
    rintro rfl
    rw [running] at waits
    cases waits
    exact same rfl

/-- A write to the origin takes effect when the origin stores it. -/
theorem writeEffect (running : before.tasks id = some (.writing key body)) :
    LastWriteInvariant staged limit (update latest key (some body))
      ((before.store key body).run id (.returning key body)) := by
  obtain ⟨unnamed, unpacked, plain⟩ := inv.tasks id _ running
  have touches : Touches staged [.key key, .reply key] latest (update latest key (some body)) before
      ((before.store key body).run id (.returning key body)) := by
    refine .store (fun _ => mem_cons_self) (absurd · plain) fun other free => ?_
    refine update_of_ne ?_ _ _
    rintro rfl
    simp at free
  refine inv.move running ⟨touches, inv.journals, inv.rows, ?_⟩ (fun token member => member) rfl rfl
    rfl rfl (sublist_cons_self _ _).subperm (update_self _ _ _) (by simp) fun other => ?_
  · intro other other_body touched is_latest
    have key_eq : other = key := by simpa [Task.tokens] using touched
    subst key_eq
    rw [update_self] at is_latest
    refine ⟨plain, fun object named => ?_, fun _ => .inr ⟨unpacked, ?_⟩⟩
    · cases unnamed.symm.trans named
    · exact (update_self _ _ _).trans is_latest
  · by_cases same : other = key
    · exact .inr ⟨body, same ▸ rfl⟩
    · exact .inl (update_of_ne same _ _)

theorem upload {next : Task}
    (running : before.tasks id = some (.putting object journal attempts))
    (claims : (next.tokens staged).Subperm (objectTokens staged [object]))
    (sound : next.Sound staged limit latest (before.store journal.indexKey (staged object).body)) :
    LastWriteInvariant staged limit latest
      ((before.store journal.indexKey (staged object).body).run id next) := by
  obtain ⟨held, unpacked, key_eq⟩ := inv.tasks id _ running
  have claimed : .object object ∈ before.claims staged (.inl id) := by
    rw [claims_of_task staged running]
    exact object_mem_objectTokens staged mem_cons_self
  have plain : ¬Reserved journal.indexKey.key :=
    key_eq ▸ (inv.bodies object (inv.issued _ object claimed)).2
  have touches : Touches staged [.key journal.indexKey] latest latest before
      ((before.store journal.indexKey (staged object).body).run id next) :=
    .store (fun _ => mem_cons_self) (absurd · plain) fun _ _ => rfl
  refine inv.move running ⟨touches, inv.journals, inv.rows, ?_⟩ ?_ rfl rfl rfl rfl claims sound
    nofun fun _ => .inl rfl
  · intro key body touched is_latest
    have same : key = journal.indexKey := by simpa using touched
    have current := inv.current key body is_latest
    refine ⟨current.plain, current.held, fun unnamed => ?_⟩
    have named : before.holder key = some object := by
      rw [same, key_eq]
      exact held
    exact absurd (named.symm.trans unnamed) nofun
  · intro token member
    rw [mem_singleton.mp member, key_eq]
    exact key_mem_objectTokens staged mem_cons_self

theorem collect {entry : PendingEntry}
    (running : before.tasks id = some (.collecting lock stream (entry :: batch) pack rows))
    (found : before.journals.read entry.objectId = some journal) :
    LastWriteInvariant staged limit latest
      (before.run id (.collecting lock stream batch (pack ++ (staged entry.objectId).body)
        (rows ++ [⟨entry.objectId, ⟨stream.1, stream.2, journal.key⟩, pack.length,
          (staged entry.objectId).body.length⟩]))) := by
  obtain ⟨waiting, fit⟩ := inv.tasks id _ running
  obtain ⟨held, in_stream⟩ := waiting entry mem_cons_self
  have key_eq : (⟨stream.1, stream.2, journal.key⟩ : CacheKey) = (staged entry.objectId).key := by
    rw [← (inv.journals.named _ _ found).2, ← in_stream, ← (inv.journals.named _ _ found).2]
    rfl
  refine inv.shuffle running ?_
    ⟨(forall_mem_cons.mp waiting).2, fun row member => ?_⟩ nofun
  · refine objectTokens_subperm staged (List.Perm.subperm ?_)
    simp only [map_append, map_cons, map_nil, cons_append]
    rw [← append_assoc]
    exact perm_append_singleton _ _
  · rcases mem_append.mp member with old | new
    · obtain ⟨row_held, row_key, row_stream, sliced, length_eq⟩ := fit row old
      exact ⟨row_held, row_key, row_stream, slice_append_of_eq sliced length_eq, length_eq⟩
    · cases mem_singleton.mp new
      exact ⟨held, key_eq, rfl, by simp [slice], rfl⟩

theorem packStart (running : before.tasks id = some (.collecting lock stream [] pack rows))
    (reserved : Reserved packKey) (fresh : packKey ∉ before.packKeys) :
    LastWriteInvariant staged limit latest
      ({ before with packKeys := packKey :: before.packKeys }.run id
        (.packing lock stream pack packKey rows propagationAttempts)) := by
  obtain ⟨_, fit⟩ := inv.tasks id _ running
  have single : [Token.pack packKey].Nodup := nodup_singleton _
  have taken := inv.exclusive.take (.inl id) single fun token member place claimed => by
    cases mem_singleton.mp member
    exact fresh (inv.issued_of_pack claimed)
  have claims := claims_of_task staged running
  refine inv.replace (inv.untouched rfl rfl rfl (subset_cons_self _ _)) nofun rfl rfl
    (.refl _) inv.bodies ?_ ?_ ?_
    (inv.acked_of_silent (by rw [running]; nofun) (fun other ne => update_of_ne ne _ _)
      rfl)
  · rw [claims] at taken
    exact taken
  · intro object claimed
    have owned := (mem_cons.mp claimed).resolve_left nofun
    exact inv.issued (.inl id) object (claims ▸ owned)
  · rintro _ ⟨⟩
    refine ⟨fit, reserved, mem_cons_self, fun key entry row => ?_⟩
    rintro rfl
    exact fresh (inv.rows key entry row).2

theorem uploadPack {next : Task}
    (running : before.tasks id = some (.packing lock stream pack packKey rows attempts))
    (claims : (next.tokens staged).Subperm
      ((Task.packing lock stream pack packKey rows attempts).tokens staged))
    (sound : next.Sound staged limit latest (before.store ⟨stream.1, stream.2, packKey⟩ pack)) :
    LastWriteInvariant staged limit latest
      ((before.store ⟨stream.1, stream.2, packKey⟩ pack).run id next) := by
  obtain ⟨_, reserved, _, unpublished⟩ := inv.tasks id _ running
  have touches : Touches staged [.pack packKey] latest latest before
      ((before.store ⟨stream.1, stream.2, packKey⟩ pack).run id next) :=
    .store (absurd reserved) (fun _ => ⟨mem_cons_self, unpublished⟩) fun _ _ => rfl
  refine inv.move running ⟨touches, inv.journals, inv.rows, ?_⟩ ?_ rfl rfl rfl rfl claims sound
    nofun fun _ => .inl rfl
  · intro key body member
    cases mem_singleton.mp member
  · intro token member
    exact mem_singleton.mp member ▸ mem_cons_self

theorem packUpload
    (running : before.tasks id = some (.packing lock stream pack packKey rows (attempts + 1))) :
    LastWriteInvariant staged limit latest
      ((before.store ⟨stream.1, stream.2, packKey⟩ pack).run id
        (.indexing lock packKey rows (rows.map PackedRow.objectId))) := by
  obtain ⟨fit, reserved, issued, _⟩ := inv.tasks id _ running
  refine inv.uploadPack running (.refl _)
    ⟨reserved, issued, fun object member => ?_, fun row member => ?_⟩
  · obtain ⟨row, listed, rfl⟩ := mem_map.mp member
    exact ⟨(fit row listed).1, .inl ⟨row, listed, rfl⟩⟩
  · obtain ⟨_, key_eq, in_stream, sliced, length_eq⟩ := fit row member
    refine ⟨mem_map_of_mem member, key_eq, pack, ?_, sliced, length_eq, ?_⟩
    · have name_eq : PackIndexEntry.pack row.key ⟨packKey, row.offset, row.length⟩ =
          ⟨stream.1, stream.2, packKey⟩ := by
        rw [← in_stream]
        rfl
      rw [name_eq]
      exact update_self _ _ _
    · have claimed : .object row.objectId ∈ before.claims staged (.inl id) := by
        rw [claims_of_task staged running]
        exact mem_cons_of_mem _ (object_mem_objectTokens staged (mem_map_of_mem member))
      exact (inv.bodies _ (inv.issued _ _ claimed)).1

theorem indexRow {row : PackedRow} {packed : List String}
    (running : before.tasks id = some (.indexing lock packKey (row :: rows) packed)) :
    LastWriteInvariant staged limit latest
      ({ before with
        packs := update before.packs row.key
          (some ⟨packKey, row.offset, row.length⟩) }.run id
            (.indexing lock packKey rows packed)) := by
  obtain ⟨reserved, issued, objects, entries⟩ := inv.tasks id _ running
  obtain ⟨listed, key_eq, packed_row⟩ := entries row mem_cons_self
  have held := (objects row.objectId listed).1
  set after := { before with
    packs := update before.packs row.key
      (some ⟨packKey, row.offset, row.length⟩) }.run id (.indexing lock packKey rows packed)
    with after_eq
  have at_row : after.packs row.key = some ⟨packKey, row.offset, row.length⟩ := update_self _ _ _
  have elsewhere : ∀ key, key ≠ row.key → after.packs key = before.packs key :=
    fun key ne => update_of_ne ne _ _
  have settled_row : Settled after (staged row.objectId).key (staged row.objectId).body :=
    key_eq ▸ .inl ⟨_, at_row, packed_row⟩
  have touches : Touches staged [.pack packKey, .key row.key] latest latest before after := by
    refine ⟨fun _ _ => rfl, fun _ _ _ named => named, fun key free => elsewhere key ?_,
      fun key entry free found => ?_, fun _ _ _ => rfl, fun _ _ _ => rfl, fun _ _ => rfl,
      fun _ _ found => found, .refl _⟩
    · rintro rfl
      simp at free
    · by_cases same : key = row.key
      · rw [same, at_row] at found
        cases found
        simp at free
      · rwa [elsewhere key same] at found
  refine inv.move running ⟨touches, inv.journals, ?_, ?_⟩ ?_ rfl rfl rfl rfl (.refl _)
    ⟨reserved, issued, fun object member => ?_, fun other member => ?_⟩ nofun fun _ => .inl rfl
  · intro key entry found
    by_cases same : key = row.key
    · rw [same, at_row] at found
      cases found
      exact ⟨reserved, issued⟩
    · rw [elsewhere key same] at found
      exact inv.rows key entry found
  · intro key body touched is_latest
    have same : key = row.key := by simpa using touched
    have current := inv.current key body is_latest
    refine ⟨current.plain, current.held, fun unnamed => ?_⟩
    rw [same, key_eq] at unnamed
    exact absurd (held.symm.trans unnamed) nofun
  · intro token member
    simp only [mem_cons, not_mem_nil, or_false] at member
    rcases member with rfl | rfl
    · exact mem_cons_self
    · rw [key_eq]
      exact mem_cons_of_mem _ (key_mem_objectTokens staged listed)
  · obtain ⟨object_held, progress⟩ := objects object member
    refine ⟨object_held, ?_⟩
    by_cases same : (staged object).key = row.key
    · -- one object holds the key, so the new row is that of the object
      have object_eq : object = row.objectId := by
        rw [Held, same, key_eq] at object_held
        exact some.inj (object_held.symm.trans held)
      exact .inr (object_eq ▸ settled_row)
    · rcases progress with ⟨pending, pending_mem, rfl⟩ | settled
      · rcases mem_cons.mp pending_mem with rfl | later
        · exact absurd key_eq.symm same
        · exact .inl ⟨pending, later, rfl⟩
      · refine .inr ?_
        rw [Settled, elsewhere _ same]
        exact settled
  · exact entries other (mem_cons_of_mem _ member)

theorem markIndex (running : before.tasks id = some (.unindexing lock journal rest)) :
    LastWriteInvariant staged limit latest
      ({ before with journals := before.journals.removeIndex journal }.run id
        (.discarding lock journal.objectId rest)) := by
  obtain ⟨key_eq, propagated⟩ := inv.tasks id _ running
  obtain ⟨held, settled⟩ := propagated journal.objectId mem_cons_self
  set after := { before with journals := before.journals.removeIndex journal }.run id
    (.discarding lock journal.objectId rest) with after_eq
  have freed : after.holder (staged journal.objectId).key = none := by
    refine (congrArg _ key_eq.symm).trans ((DirtyIndex.holder_remove_self _ _ _).trans (if_pos ?_))
    rw [key_eq]
    exact held
  have elsewhere : ∀ key, key ≠ (staged journal.objectId).key →
      after.holder key = before.holder key :=
    fun key ne => DirtyIndex.holder_remove_of_ne _ _ (key_eq ▸ ne)
  have touches :
      Touches staged [.key (staged journal.objectId).key] latest latest before after := by
    refine ⟨fun key free => elsewhere key ?_, fun key object _ named => ?_, fun _ _ => rfl,
      fun _ _ _ row => row, fun _ _ _ => rfl, fun _ _ _ => rfl, fun _ _ => rfl,
      fun _ _ found => found, .refl _⟩
    · rintro rfl
      exact free (mem_singleton_self _)
    · by_cases same : key = (staged journal.objectId).key
      · rw [same, freed] at named
        cases named
      · rwa [elsewhere key same] at named
  have distinct : journal.objectId ∉ rest := by
    have nodup := inv.exclusive.nodup (.inl id)
    rw [claims_of_task staged running] at nodup
    intro member
    exact (nodup_cons.mp nodup).1 (mem_cons_of_mem _ (object_mem_objectTokens staged member))
  refine inv.move running ⟨touches, inv.journals.removeIndex journal, inv.rows, ?_⟩ ?_ rfl rfl rfl
    rfl ((sublist_cons_self _ _).cons_cons _).subperm
    ⟨fun named => absurd (freed.symm.trans named) nofun, fun other member => ?_⟩ nofun
    fun _ => .inl rfl
  · intro key body touched is_latest
    have same : key = (staged journal.objectId).key := by simpa using touched
    subst same
    have current := inv.current _ body is_latest
    refine ⟨current.plain, fun object named => absurd (freed.symm.trans named) nofun, fun _ => ?_⟩
    rw [← current.held _ held]
    exact settled
  · intro token member
    rw [mem_singleton.mp member]
    exact key_mem_objectTokens staged mem_cons_self
  · obtain ⟨other_held, other_settled⟩ := propagated other (mem_cons_of_mem _ member)
    have other_ne : (staged other).key ≠ (staged journal.objectId).key := by
      intro same
      rw [Held, same] at other_held
      exact distinct (some.inj (other_held.symm.trans held) ▸ member)
    exact ⟨(elsewhere _ other_ne).trans other_held, other_settled⟩

theorem erase (running : before.tasks id = some (.erasing lock object rest)) :
    LastWriteInvariant staged limit latest
      ({ before with journals := before.journals.removeFile object }.run id
        (.marking lock rest)) := by
  obtain ⟨unnamed, propagated⟩ := inv.tasks id _ running
  have touches : Touches staged [.object object] latest latest before
      ({ before with journals := before.journals.removeFile object }.run id
        (.marking lock rest)) := by
    refine .files_only rfl rfl rfl (.refl _) fun other free found => ?_
    refine (congrArg isSome ((read_removeFile _ _ _).trans (if_neg ?_))).trans found
    rintro rfl
    exact free (mem_singleton_self _)
  refine inv.move running ⟨touches, inv.journals.removeFile unnamed, inv.rows, ?_⟩ ?_ rfl rfl rfl
    rfl (sublist_cons_self _ _).subperm propagated nofun fun _ => .inl rfl
  · intro key body member
    cases mem_singleton.mp member
  · intro token member
    exact mem_singleton.mp member ▸ mem_cons_self

theorem step {event : Event} (happens : Step staged limit before event after)
    (quiet : WritesOnQuietKeys staged limit before event) :
    ∃ later, LastWriteInvariant staged limit later after := by
  cases happens with
  | putStart idle fresh _ => exact ⟨_, inv.putStart idle fresh quiet⟩
  | putFail running | bypassStop running | packNothing running | packStop running
  | markDone running | writeFail running => exact ⟨_, inv.stop running (by simp)⟩
  | putJournal placements running _ =>
    obtain ⟨unnamed, unshadowed⟩ := inv.tasks _ _ running
    refine ⟨_, inv.writeFile running rfl (.refl _) ⟨unnamed, unshadowed, ?_⟩ (by simp)⟩
    exact congrArg isSome ((read_writeFsynced _ _ _).trans (if_pos rfl))
  | putIndex running idle => exact ⟨_, inv.putIndex running idle⟩
  | acknowledge running => exact ⟨_, inv.acknowledge running⟩
  | straggle placement running _ => exact ⟨_, inv.straggle placement running⟩
  | bypass running large =>
    obtain ⟨held, unshadowed⟩ := inv.tasks _ _ running
    exact ⟨_, inv.shuffle running (.refl _) ⟨held, unshadowed large⟩ (by simp)⟩
  | append running _ kept =>
    obtain ⟨held, _⟩ := inv.tasks _ _ running
    cases OffloadBuffer.append_none kept
    refine ⟨_, inv.pass ?_ (by simp) (fun entry member => ?_)
      fun key body => by simp [running]⟩
    · rw [claims_of_task staged running]
      simp only [OffloadBuffer.push, map_none, getD_none, nil_append, map_append,
        objectTokens_append]
      exact perm_append_comm.subperm
    · rcases mem_append.mp member with waits | new
      · exact inv.buffers _ entry waits
      · cases mem_singleton.mp new
        exact ⟨held, rfl⟩
  | appendFlush running _ reached =>
    obtain ⟨held, _⟩ := inv.tasks _ _ running
    obtain ⟨rfl, rfl⟩ := OffloadBuffer.append_some reached
    refine ⟨_, inv.pass ?_ ?_ (by simp) fun key body => by simp [running]⟩
    · rw [claims_of_task staged running]
      simp only [map_some, getD_some, Task.tokens, map_nil, append_nil,
        map_append, objectTokens_append, objectTokens_nil]
      exact perm_append_comm.subperm
    · rintro _ ⟨⟩
      refine ⟨fun entry member => ?_, fun row member => absurd member not_mem_nil⟩
      rcases mem_append.mp member with waits | new
      · exact inv.buffers _ entry waits
      · cases mem_singleton.mp new
        exact ⟨held, rfl⟩
  | drain idle taken =>
    obtain ⟨rfl, rfl⟩ := OffloadBuffer.takeAll_some taken
    refine ⟨_, inv.pass ?_ ?_ (by simp) fun key body => by simp [idle]⟩
    · rw [claims_of_idle staged idle]
      simp only [map_some, getD_some, Task.tokens, map_nil, append_nil, objectTokens_nil]
      exact List.Subperm.refl _
    · rintro _ ⟨⟩
      exact ⟨inv.buffers _, fun row member => absurd member not_mem_nil⟩
  | resume running | resumeGone running | deleteOrigin running | deleteOriginFail landed running
  | deleteRow running | deleteNone running _ | deleteFind running _ | deleteIndex running _
  | deleteIndexGone running _ | deleteFile running | repairSkip running | repairWrite running
  | repairDone running =>
    exact (inv.tasks _ _ running).elim
  | bypassRead running found _ _ =>
    obtain ⟨held, unpacked⟩ := inv.tasks _ _ running
    exact ⟨_, inv.shuffle running (.refl _)
      ⟨held, unpacked, (inv.journals.named _ _ found).2⟩ (by simp)⟩
  | bypassUnbound running _ _ _ | discardGone running gone =>
    have sound := inv.tasks _ _ running
    exact ⟨_, inv.shuffle running (.refl _) sound (by simp)⟩
  | bypassPut running =>
    obtain ⟨held, unpacked, key_eq⟩ := inv.tasks _ _ running
    refine ⟨_, inv.upload running (.refl _) fun other member => ?_⟩
    cases mem_singleton.mp member
    refine ⟨held, .inr ⟨unpacked, ?_⟩⟩
    exact (congrArg _ key_eq.symm).trans (update_self _ _ _)
  | bypassPutFail landed running =>
    obtain ⟨held, unpacked, _⟩ := inv.tasks _ _ running
    cases landed with
    | true => exact ⟨_, inv.upload running (.refl _) ⟨held, unpacked⟩⟩
    | false => exact ⟨_, inv.shuffle running (.refl _) ⟨held, unpacked⟩ (by simp)⟩
  | collect running found _ => exact ⟨_, inv.collect running found⟩
  | collectSkip running =>
    obtain ⟨waiting, fit⟩ := inv.tasks _ _ running
    exact ⟨_, inv.shuffle running (objectTokens_subperm staged (sublist_cons_self _ _).subperm)
      ⟨(forall_mem_cons.mp waiting).2, fit⟩ (by simp)⟩
  | packStart running _ reserved fresh => exact ⟨_, inv.packStart running reserved fresh⟩
  | packUpload running => exact ⟨_, inv.packUpload running⟩
  | packFail landed running =>
    have sound := inv.tasks _ _ running
    cases landed with
    | true => exact ⟨_, inv.uploadPack running (.refl _) sound⟩
    | false => exact ⟨_, inv.shuffle running (.refl _) sound (by simp)⟩
  | indexRow running => exact ⟨_, inv.indexRow running⟩
  | indexDone running =>
    obtain ⟨_, _, objects, _⟩ := inv.tasks _ _ running
    refine ⟨_, inv.shuffle running (sublist_cons_self _ _).subperm (fun object member => ?_)
      (by simp)⟩
    obtain ⟨held, ⟨row, impossible, _⟩ | settled⟩ := objects object member
    · cases impossible
    · exact ⟨held, settled⟩
  | markRead running _ found =>
    obtain ⟨rfl, key_eq⟩ := inv.journals.named _ _ found
    exact ⟨_, inv.shuffle running (.refl _) ⟨key_eq, inv.tasks _ _ running⟩ (by simp)⟩
  | markGone running _ gone =>
    -- an object of the index has its file
    obtain ⟨held, _⟩ := inv.tasks _ _ running _ mem_cons_self
    have present := (inv.journals.indexed _ _ held).2
    rw [gone] at present
    cases present
  | markWrite running =>
    have sound := inv.tasks _ _ running
    exact ⟨_, inv.writeFile running sound.1 (.refl _) sound (by simp)⟩
  | markIndex running => exact ⟨_, inv.markIndex running⟩
  | discardIndex running found =>
    have sound := inv.tasks _ _ running
    obtain ⟨rfl, key_eq⟩ := inv.journals.named _ _ found
    rw [removeIndex, DirtyIndex.remove, dif_neg (key_eq ▸ sound.1)]
    exact ⟨_, inv.shuffle running (.refl _) sound (by simp)⟩
  | erase running => exact ⟨_, inv.erase running⟩
  | writeStart idle =>
    obtain ⟨plain, not_busy, clean, unpacked⟩ := quiet
    have unclaimed := inv.unclaimed_of_quiet not_busy clean
    rw [findDirty_eq_holder] at clean
    refine ⟨_, inv.enter idle ?_ (fun token member place => ?_) ?_ (.refl _) inv.bodies
      ⟨clean, unpacked, plain⟩⟩
    · simp [Task.tokens]
    · simp only [Task.tokens, mem_cons, not_mem_nil, or_false] at member
      rcases member with rfl | rfl
      · exact (unclaimed place).1
      · exact (unclaimed place).2
    · simp [Task.tokens]
  | writeEffect running => exact ⟨_, inv.writeEffect running⟩
  | deleteStart | repairStart | repairRead | restart => exact quiet.elim

end LastWriteInvariant

theorem lastWriteInvariant_start (origin : CacheKey → Option Bytes) :
    LastWriteInvariant staged limit (fun _ => none) { origin } := by
  have unclaimed : System.claims staged { origin } = fun _ => [] := by
    funext place
    cases place with
    | inl id | inr stream => rfl
  refine ⟨unclaimed ▸ .empty, fun place object claimed => ?_, nofun,
    fun _ _ running => (nomatch running), fun stream entry waits => ?_,
    ⟨fun object journal found => ?_, fun key object named => ?_⟩, nofun, nofun, nofun⟩
  · rw [unclaimed] at claimed
    cases claimed
  · cases waits
  · cases found
  · rw [DirtyIndex.holder_empty] at named
    cases named

variable {system : System}

theorem Run.lastWriteInvariant {origin : CacheKey → Option Bytes}
    (run : Run staged limit (WritesOnQuietKeys staged limit) { origin } system) :
    ∃ latest, LastWriteInvariant staged limit latest system := by
  induction run with
  | refl => exact ⟨_, lastWriteInvariant_start origin⟩
  | step run happens quiet induction =>
    obtain ⟨latest, inv⟩ := induction
    exact inv.step happens quiet

theorem LastWriteInvariant.get_full (inv : LastWriteInvariant staged limit latest system)
    {key : CacheKey} {body : Bytes} (is_latest : latest key = some body) :
    system.get staged key .full = .ok body := by
  obtain ⟨_, held, settled⟩ := inv.current key body is_latest
  cases named : system.holder key with
  | some object =>
    obtain ⟨_, present⟩ := inv.journals.indexed key object named
    obtain ⟨journal, found⟩ := isSome_iff_exists.mp present
    have dirty : system.journals.findDirty key = some object :=
      (findDirty_eq_holder _ _).trans named
    rw [System.get, get_full_of_dirty dirty found, (inv.journals.named object journal found).1,
      held object named]
  | none =>
    have clean : system.journals.findDirty key = none := (findDirty_eq_holder _ _).trans named
    rcases settled named with ⟨entry, row, packed⟩ | ⟨unpacked, stored⟩
    · exact get_full_of_packed clean row packed
    · exact get_full_of_origin clean unpacked stored

/-- In every run whose writes start on quiet keys, a read of a key that no write has in progress
returns the body that was acknowledged last. -/
theorem last_acknowledged_write_wins (staged : String → StagedObject) (limit : Nat)
    (origin : CacheKey → Option Bytes)
    (run : Run staged limit (WritesOnQuietKeys staged limit) { origin } system) (key : CacheKey)
    (body : Bytes) (acked : system.acked key = some body) (idle : ¬system.InProgress staged key) :
    system.get staged key .full = .ok body := by
  obtain ⟨latest, inv⟩ := run.lastWriteInvariant
  rcases inv.acked key body acked with is_latest | ⟨id, other, returning⟩
  · exact inv.get_full is_latest
  · exact absurd ⟨id, _, returning, rfl⟩ idle

/-- The node after the first version was packed. -/
def packedReport : System where
  journals := ((JournalStore.put {} (journalOf reportVersions "first" [])).markClean "first").delete
    "first"
  packs := update (fun _ => none) report (some ⟨"_verglas/packs/1", 0, 1⟩)
  origin := update (fun _ => none) ⟨"main", "bucket", "_verglas/packs/1"⟩ (some [1])
  issued := ["first"]
  packKeys := ["_verglas/packs/1"]
  acked := update (fun _ => none) report (some [1])

theorem run_packedReport {condition : System → Event → Prop}
    (starts : condition {} (.putStart "first")) (progress : ∀ system, condition system .progress)
    (collects : ∀ system object, condition system (.collect object)) :
    Run reportVersions 1 condition {} packedReport := by
  have start : Run reportVersions 1 condition {} {} := .refl
  have settling := start.put 0 1 "first" [] (by decide) rfl rfl not_mem_nil
    (System.not_exists_task_of_two nofun nofun fun _ => rfl)
    (System.not_exists_task_of_two nofun nofun fun _ => rfl) starts progress
  have collecting := settling.step (@Step.appendFlush _ _ _ 0 _ _ _ rfl (by decide) rfl)
    (progress _)
  have collected := collecting.step (@Step.collect _ _ _ 0 _ _ _ _ _ _ _ rfl rfl rfl) (collects _ _)
  have packing := collected.step (@Step.packStart _ _ _ 0 _ _ _ _ "_verglas/packs/1" rfl nofun
    (by decide) not_mem_nil) (progress _)
  have indexing := packing.step (@Step.packUpload _ _ _ 0 _ _ _ _ _ _ rfl) (progress _)
  have indexed := indexing.step (@Step.indexRow _ _ _ 0 _ _ _ _ _ rfl) (progress _)
  have marking := indexed.step (@Step.indexDone _ _ _ 0 _ _ _ rfl) (progress _)
  have done := marking.retire 0 rfl (System.not_exists_task_of_two nofun nofun fun _ => rfl) rfl rfl
    progress
  simp only [System.run, System.finish, System.store, update_idem, update_eq_self] at done
  exact done

/-- A first version that was packed hides a second version that was acknowledged later and uploaded
directly. -/
theorem packed_row_shadows_direct_upload :
    ∃ system, Run reportVersions 1 OnlyWrites {} system ∧ system.acked report = some [2, 2] ∧
      ¬system.InProgress reportVersions report ∧
      system.get reportVersions report .full = .ok [1] := by
  have packed : Run reportVersions 1 OnlyWrites {} packedReport :=
    run_packedReport trivial (fun _ => trivial) fun _ _ => trivial
  have settling := packed.put 0 1 "second" [] (by decide) rfl rfl (by decide)
    (System.not_exists_task_of_two nofun nofun fun _ => rfl)
    (System.not_exists_task_of_two nofun nofun fun _ => rfl) trivial fun _ => trivial
  have bypassing := settling.step (@Step.bypass _ _ _ 0 "second" rfl (by decide)) trivial
  have putting := bypassing.step (@Step.bypassRead _ _ _ 0 _ _ _ rfl rfl rfl (by decide)) trivial
  have marking := putting.step (@Step.bypassPut _ _ _ 0 _ _ _ rfl) trivial
  have done := marking.retire 0 rfl (System.not_exists_task_of_two nofun nofun fun _ => rfl) rfl rfl
    fun _ => trivial
  exact ⟨_, done, rfl, System.not_exists_task_of_two nofun nofun fun _ => rfl, rfl⟩

/-- The packed first version is what a read returns. -/
theorem last_acknowledged_write_wins_packed :
    packedReport.acked report = some [1] ∧
      packedReport.get reportVersions report .full = .ok [1] := by
  have quiet : WritesOnQuietKeys reportVersions 1 {} (.putStart "first") :=
    ⟨by decide, by decide, System.not_exists_task_of_two nofun nofun fun _ => rfl, rfl, nofun⟩
  have run : Run reportVersions 1 (WritesOnQuietKeys reportVersions 1) {} packedReport :=
    run_packedReport quiet (fun _ => trivial) fun _ _ => trivial
  exact ⟨rfl, last_acknowledged_write_wins reportVersions 1 (fun _ => none) run report [1] rfl
    (System.not_exists_task_of_two nofun nofun fun _ => rfl)⟩

end Verglas.Writeback
