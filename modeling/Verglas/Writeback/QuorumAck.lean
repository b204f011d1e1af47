import Verglas.Writeback.Staging

/-!
# An acknowledged PUT is durable on a quorum

`Put.Sound` is what the steps of a PUT preserve.  Its core is the equation of a channel: what a task
has received, what is queued and what is still to be sent are together the shards of its fragment so
far.  A sender is dropped only when its task has ended or when everything is sent, so a task that
sees the end of its channel has received every shard.
-/

namespace Verglas.Writeback

open Cache Cluster List
open Function

section Invariant

variable {code : ErasureCode UInt8} {crc32c : Bytes → UInt32} {request : PutRequest}

/-- The shards of one fragment that are still to be sent. -/
def queuedFor (index : Nat) (pending : List (Nat × Bytes)) : List Bytes :=
  pending.filterMap fun entry => if entry.1 = index then some entry.2 else none

/-- The shards of one fragment. -/
def cells (rows : List (List Bytes)) (index : Nat) : List Bytes :=
  rows.map fun row => row.getD index []

private theorem queuedFor_zipIdx (index start : Nat) (shards : List Bytes) :
    queuedFor index ((shards.zipIdx start).map Prod.swap) =
      if index < start then [] else shards[index - start]?.toList := by
  induction shards generalizing start with
  | nil => simp [queuedFor]
  | cons shard shards induction =>
    have rest := induction (start + 1)
    rw [queuedFor] at rest ⊢
    rw [zipIdx_cons, map_cons, filterMap_cons, rest]
    by_cases here : start = index
    · simp [here]
    by_cases before : index < start
    · have later : index < start + 1 := by omega
      simp [here, before, later]
    · have position : index - start = index - (start + 1) + 1 := by omega
      have later : ¬ index < start + 1 := by omega
      simp [here, before, later, position]

theorem queuedFor_append (index : Nat) (front back : List (Nat × Bytes)) :
    queuedFor index (front ++ back) = queuedFor index front ++ queuedFor index back :=
  filterMap_append

variable {index : Nat}

theorem queuedFor_sends {total : Nat} {rows : List (List Bytes)} (inside : index < total)
    (wide : ∀ row ∈ rows, total ≤ row.length) :
    queuedFor index (sends total rows) = cells rows index := by
  induction rows with
  | nil => rfl
  | cons row rows induction =>
    have rest := induction (forall_mem_cons.mp wide).2
    have bound : index < row.length := Nat.lt_of_lt_of_le inside (wide row mem_cons_self)
    rw [sends] at rest ⊢
    rw [flatMap_cons, queuedFor_append, rest, queuedFor_zipIdx, cells, cells, map_cons,
      if_neg (Nat.not_lt_zero _), Nat.sub_zero, getElem?_take_of_lt inside,
      getElem?_eq_getElem bound, getD_eq_getElem?_getD, getElem?_eq_getElem bound]
    rfl

theorem queuedFor_cons_self (index : Nat) (shard : Bytes) (rest : List (Nat × Bytes)) :
    queuedFor index ((index, shard) :: rest) = shard :: queuedFor index rest := by
  simp [queuedFor]

theorem queuedFor_cons_of_ne {other : Nat} (ne : other ≠ index) (shard : Bytes)
    (rest : List (Nat × Bytes)) :
    queuedFor index ((other, shard) :: rest) = queuedFor index rest := by
  simp [queuedFor, ne]

/-- Every channel carries the shards of its fragment, and every result is that of a task. -/
structure Delivered (crc32c : Bytes → UInt32) (request : PutRequest) (rows : List (List Bytes))
    (put : Put) : Prop where
  pipe : ∀ index < request.total, ∀ received, (put.channels index).task = .receiving received →
    received ++ (put.channels index).queue ++ queuedFor index put.pending = cells rows index
  stored : ∀ index, (put.channels index).task = .committed →
    Stores crc32c put.plane request.objectId rows (request.placement index)
  reportedOnce : (put.results.map Prod.fst).Nodup
  reported : ∀ result ∈ put.results, result.1 < request.total ∧
    (put.channels result.1).task = if result.2 then .committed else .failed

/-- No sender is dropped while its task runs, so no fragment is committed yet. -/
structure Open (put : Put) : Prop where
  sender : ∀ index received, (put.channels index).task = .receiving received →
    (put.channels index).sender = true
  uncommitted : ∀ index, (put.channels index).task ≠ .committed

/-- The acknowledged placements are committed, and each one was reported once. -/
structure Acked (request : PutRequest) (acked : List Placement) (put : Put) : Prop where
  once : (acked.map Placement.index ++ put.results.map Prod.fst).Nodup
  committed : ∀ placement ∈ acked, placement = request.placement placement.index ∧
    placement.index < request.total ∧ (put.channels placement.index).task = .committed

/-- The whole body was encoded, with the given rows of shards. -/
def Complete (code : ErasureCode UInt8) (request : PutRequest) (geometry : Geometry)
    (objectLen : Nat) (rows : List (List Bytes)) : Prop :=
  request.admitPut = .ok geometry ∧ ∃ chunks : List Bytes, request.body = chunks.map .ok ∧
    objectLen = chunks.flatten.length ∧
    Encodes code geometry (paddedBlocks geometry.stripeDataLen 0 chunks.flatten) rows

/-- The journal records `w` committed placements of the whole body. -/
def Recorded (code : ErasureCode UInt8) (crc32c : Bytes → UInt32) (request : PutRequest)
    (journal : CodedJournal) (put : Put) : Prop :=
  ∃ geometry objectLen acked rows, journal = request.journal geometry objectLen acked ∧
    Complete code request geometry objectLen rows ∧ Delivered crc32c request rows put ∧
    Acked request acked put ∧ put.pending = [] ∧ request.coding.2.2 ≤ acked.length

/-- What holds of a PUT in each of its phases. -/
def Put.Sound (code : ErasureCode UInt8) (crc32c : Bytes → UInt32) (request : PutRequest)
    (put : Put) : Prop :=
  match put.phase with
  | .admitting => put.journal = none ∧ put.pending = [] ∧ put.results = [] ∧
      put.channels = fun _ => .absent
  | .feeding encoder rest => put.journal = none ∧ Open put ∧
      ∃ (geometry : Geometry) (chunks : List Bytes) (rows : List (List Bytes)),
        request.admitPut = .ok geometry ∧ request.body = chunks.map .ok ++ rest ∧
        encoder.Fed code geometry chunks.flatten rows ∧ Delivered crc32c request rows put
  | .flushing geometry objectLen => put.journal = none ∧ Open put ∧
      ∃ rows, Complete code request geometry objectLen rows ∧ Delivered crc32c request rows put
  | .gathering geometry objectLen acked => put.journal = none ∧ put.pending = [] ∧
      ∃ rows, Complete code request geometry objectLen rows ∧ Delivered crc32c request rows put ∧
        Acked request acked put
  | .committing journal | .journaling journal =>
    put.journal = none ∧ Recorded code crc32c request journal put
  | .acknowledged => ∃ journal, put.journal = some journal ∧
      Recorded code crc32c request journal put
  | .refused error => put.journal = none ∨ ∃ message, error = .journal message

variable {put after : Put} {rows : List (List Bytes)} {acked : List Placement}

@[simp] theorem Put.pending_setChannel (put : Put) (index : Nat) (channel : Channel) :
    (put.setChannel index channel).pending = put.pending := rfl

@[simp] theorem Put.plane_setChannel (put : Put) (index : Nat) (channel : Channel) :
    (put.setChannel index channel).plane = put.plane := rfl

@[simp] theorem Put.channels_setChannel (put : Put) (index : Nat) (channel : Channel) :
    (put.setChannel index channel).channels = update put.channels index channel := rfl

theorem Deliver.frame (step : Deliver crc32c request put after) :
    after.phase = put.phase ∧ after.pending = put.pending ∧ after.journal = put.journal := by
  cases step <;> exact ⟨rfl, rfl, rfl⟩

theorem Delivered.not_reported (delivered : Delivered crc32c request rows put)
    {received : List Bytes} (running : (put.channels index).task = .receiving received) :
    index ∉ put.results.map Prod.fst := by
  intro member
  obtain ⟨⟨_, ok⟩, listed, rfl⟩ := mem_map.mp member
  have ended := (delivered.reported _ listed).2
  rw [running] at ended
  cases ok <;> cases ended

theorem Open.setChannel (opened : Open put) {channel : Channel}
    (sender : ∀ received, channel.task = .receiving received → channel.sender = true)
    (uncommitted : channel.task ≠ .committed) :
    Open (put.setChannel index channel) where
  sender := by
    intro other received
    by_cases same : other = index
    · subst same
      simpa using sender received
    · simpa [same] using opened.sender other received
  uncommitted := by
    intro other
    by_cases same : other = index
    · subst same
      simpa using uncommitted
    · simpa [same] using opened.uncommitted other

theorem Deliver.open (step : Deliver crc32c request put after) (opened : Open put) :
    Open after := by
  cases step with
  | receive placed running queued =>
    exact opened.setChannel (fun _ _ => opened.sender _ _ running) nofun
  | @fail index received placed running =>
    have kept : Open (put.setChannel index ⟨(put.channels index).sender, [], .failed⟩) :=
      opened.setChannel nofun nofun
    exact ⟨kept.sender, kept.uncommitted⟩
  | commit placed running drained ended =>
    rw [opened.sender _ _ running] at ended
    cases ended

theorem Deliver.keeps_acked (step : Deliver crc32c request put after)
    (delivered : Delivered crc32c request rows put) (acks : Acked request acked put) :
    Acked request acked after := by
  -- The task of the step runs, so it is neither acknowledged nor reported.
  have fresh : ∀ index received, (put.channels index).task = .receiving received →
      index ∉ acked.map Placement.index ++ put.results.map Prod.fst := by
    intro index received running member
    rcases mem_append.mp member with acknowledged | reported
    · obtain ⟨placement, listed, rfl⟩ := mem_map.mp acknowledged
      rw [(acks.committed placement listed).2.2] at running
      cases running
    · exact delivered.not_reported running reported
  have others : ∀ index channel received, (put.channels index).task = .receiving received →
      ∀ placement ∈ acked, placement = request.placement placement.index ∧
        placement.index < request.total ∧
        (update put.channels index channel placement.index).task = .committed := by
    intro index channel received running placement listed
    obtain ⟨placed, inside, committed⟩ := acks.committed placement listed
    refine ⟨placed, inside, ?_⟩
    rw [update_of_ne]
    · exact committed
    · rintro rfl
      rw [committed] at running
      cases running
  have reports : ∀ index received ok, (put.channels index).task = .receiving received →
      (acked.map Placement.index ++ (put.results ++ [(index, ok)]).map Prod.fst).Nodup := by
    intro index received ok running
    rw [map_append, map_singleton, ← append_assoc]
    exact acks.once.append (nodup_singleton _)
      (disjoint_singleton.mpr (fresh index received running))
  cases step with
  | receive placed running queued => exact ⟨acks.once, others _ _ _ running⟩
  | fail placed running | commit placed running drained ended =>
    exact ⟨reports _ _ _ running, others _ _ _ running⟩

theorem Deliver.delivered (step : Deliver crc32c request put after)
    (delivered : Delivered crc32c request rows put) (safe : Open put ∨ put.pending = []) :
    Delivered crc32c request rows after := by
  have once : ∀ index received ok, (put.channels index).task = .receiving received →
      ((put.results ++ [(index, ok)]).map Prod.fst).Nodup := by
    intro index received ok running
    rw [map_append]
    exact delivered.reportedOnce.append (nodup_singleton _)
      (disjoint_singleton.mpr (delivered.not_reported running))
  have reported : ∀ index channel received, (put.channels index).task = .receiving received →
      ∀ result ∈ put.results, result.1 < request.total ∧
        (update put.channels index channel result.1).task =
          if result.2 then .committed else .failed := by
    intro index channel received running result listed
    rw [update_of_ne]
    · exact delivered.reported result listed
    · rintro rfl
      exact delivered.not_reported running (mem_map_of_mem listed)
  cases step with
  | @receive index received shard queue placed running queued =>
    refine ⟨?_, ?_, delivered.reportedOnce, reported _ _ _ running⟩
    · intro other inside taken
      by_cases same : other = index
      · subst same
        intro now
        have before := delivered.pipe other inside received running
        simp only [Put.channels_setChannel, update_self, PlacementTask.receiving.injEq] at now ⊢
        rw [← now, ← before, queued]
        simp [Put.setChannel]
      · simpa [same] using delivered.pipe other inside taken
    · intro other
      by_cases same : other = index
      · subst same
        simp
      · simpa [same] using delivered.stored other
  | @fail index received placed running =>
    refine ⟨?_, ?_, once _ _ _ running, ?_⟩
    · intro other inside taken
      by_cases same : other = index
      · subst same
        simp
      · simpa [same] using delivered.pipe other inside taken
    · intro other
      by_cases same : other = index
      · subst same
        simp
      · simpa [same] using delivered.stored other
    · refine forall_mem_append.mpr ⟨reported _ _ _ running, forall_mem_singleton.mpr ?_⟩
      exact ⟨placed, by simp⟩
  | @commit index received placed running drained ended =>
    have sent : put.pending = [] := by
      rcases safe with opened | sent
      · rw [opened.sender index received running] at ended
        cases ended
      · exact sent
    have whole : received.flatten = column rows index := by
      have pipe := delivered.pipe index placed received running
      rw [drained, sent, append_nil, queuedFor, filterMap_nil, append_nil] at pipe
      rw [pipe]
      rfl
    refine ⟨?_, ?_, once _ _ _ running, ?_⟩
    · intro other inside taken
      by_cases same : other = index
      · subst same
        simp
      · simpa [same] using delivered.pipe other inside taken
    · intro other
      by_cases same : other = index
      · subst same
        intro _
        rw [Stores, FragmentPlane.storeFragment, whole]
        exact FragmentPlane.write_self _ _ _ _
      · intro committed
        have before : (put.channels other).task = .committed := by
          simpa [same] using committed
        refine (if_neg ?_).trans (delivered.stored other before)
        rintro ⟨_, key_eq⟩
        exact same (FragmentKey.mk.inj key_eq).2
    · refine forall_mem_append.mpr ⟨reported _ _ _ running, forall_mem_singleton.mpr ?_⟩
      exact ⟨placed, by simp⟩

theorem Send.frame (step : Send put after) :
    after.phase = put.phase ∧ after.journal = put.journal ∧ put.pending ≠ [] := by
  cases step with
  | enqueue next opened running room | closed next opened stopped | dropped next gone =>
    exact ⟨rfl, rfl, by rw [next]; exact cons_ne_nil _ _⟩

theorem Send.open (step : Send put after) (opened : Open put) : Open after := by
  cases step with
  | @enqueue index shard rest received next sender running room =>
    have kept : Open (put.setChannel index
        ⟨true, (put.channels index).queue ++ [shard], .receiving received⟩) :=
      opened.setChannel (fun _ _ => rfl) nofun
    exact ⟨kept.sender, kept.uncommitted⟩
  | @closed index shard rest next sender stopped =>
    have kept : Open (put.setChannel index
        ⟨false, (put.channels index).queue, (put.channels index).task⟩) :=
      opened.setChannel (fun received running => absurd running (stopped received))
        (opened.uncommitted index)
    exact ⟨kept.sender, kept.uncommitted⟩
  | dropped next gone => exact ⟨opened.sender, opened.uncommitted⟩

theorem Send.delivered (step : Send put after) (opened : Open put)
    (delivered : Delivered crc32c request rows put) : Delivered crc32c request rows after := by
  cases step with
  | @enqueue index shard rest received next sender running room =>
    refine ⟨?_, ?_, delivered.reportedOnce, ?_⟩
    · intro other inside taken
      by_cases same : other = index
      · subst same
        intro now
        have before := delivered.pipe other inside received running
        rw [next, queuedFor_cons_self] at before
        simp only [Put.channels_setChannel, update_self, PlacementTask.receiving.injEq] at now ⊢
        rw [← now, ← before]
        simp
      · have before := delivered.pipe other inside taken
        rw [next, queuedFor_cons_of_ne (Ne.symm same)] at before
        simpa [same] using before
    · intro other committed
      by_cases same : other = index
      · subst same
        simp at committed
      · exact delivered.stored other (by simpa [same] using committed)
    · intro result listed
      have before := delivered.reported result listed
      by_cases same : result.1 = index
      · rw [same, running] at before
        cases ok : result.2 <;> simp [ok] at before
      · simpa [same] using before
  | @closed index shard rest next sender stopped =>
    refine ⟨?_, ?_, delivered.reportedOnce, ?_⟩
    · intro other inside taken
      by_cases same : other = index
      · subst same
        intro now
        exact absurd (by simpa using now) (stopped taken)
      · have before := delivered.pipe other inside taken
        rw [next, queuedFor_cons_of_ne (Ne.symm same)] at before
        simpa [same] using before
    · intro other committed
      refine absurd ?_ (opened.uncommitted other)
      by_cases same : other = index
      · subst same
        simpa using committed
      · simpa [same] using committed
    · intro result listed
      have before := delivered.reported result listed
      by_cases same : result.1 = index
      · rw [same] at before
        simpa [same] using before
      · simpa [same] using before
  | @dropped index shard rest next gone =>
    refine ⟨?_, delivered.stored, delivered.reportedOnce, delivered.reported⟩
    intro other inside taken running
    have apart : index ≠ other := by
      rintro rfl
      rw [opened.sender index taken running] at gone
      cases gone
    have before := delivered.pipe other inside taken running
    rwa [next, queuedFor_cons_of_ne apart] at before

variable {geometry : Geometry}

theorem PutRequest.admitPut_eq_ok (admitted : request.admitPut = .ok geometry) :
    geometry.Valid ∧ geometry.k = request.coding.1 ∧ geometry.m = request.coding.2.1 := by
  simp only [PutRequest.admitPut] at admitted
  split at admitted
  · cases admitted
  split at admitted
  · cases admitted
  split at admitted
  · cases admitted
  rename_i built
  cases admitted
  obtain ⟨valid, geometry_eq⟩ := Geometry.streaming_eq_ok built
  rw [geometry_eq] at valid ⊢
  exact ⟨valid, rfl, rfl⟩

theorem PutRequest.total_le (admitted : request.admitPut = .ok geometry) :
    request.total ≤ geometry.total := by
  obtain ⟨_, k_eq, m_eq⟩ := admitPut_eq_ok admitted
  rw [PutRequest.total, Geometry.total, k_eq, m_eq]
  exact Nat.min_le_right _ _

/-- Encoding more stripes puts their shards at the end of every channel. -/
theorem Delivered.extend {more : List (List Bytes)} (phase : PutPhase) (opened : Open put)
    (sent : put.pending = []) (wide : ∀ row ∈ more, request.total ≤ row.length)
    (delivered : Delivered crc32c request rows put) :
    Delivered crc32c request (rows ++ more)
      { put with phase := phase, pending := sends request.total more } where
  pipe := by
    intro index inside received running
    have before := delivered.pipe index inside received running
    rw [sent, queuedFor, filterMap_nil, append_nil] at before
    rw [queuedFor_sends inside wide, before, cells, cells, cells, map_append]
  stored := fun index committed => absurd committed (opened.uncommitted index)
  reportedOnce := delivered.reportedOnce
  reported := delivered.reported

theorem Deliver.sound (step : Deliver crc32c request put after)
    (sound : put.Sound code crc32c request) : after.Sound code crc32c request := by
  obtain ⟨phase_eq, pending_eq, journal_eq⟩ := step.frame
  have recorded : ∀ journal, Recorded code crc32c request journal put →
      Recorded code crc32c request journal after := by
    rintro journal ⟨geometry, objectLen, acked, rows, rfl, complete, delivered, acks, sent, enough⟩
    exact ⟨geometry, objectLen, acked, rows, rfl, complete, step.delivered delivered (.inr sent),
      step.keeps_acked delivered acks, pending_eq.trans sent, enough⟩
  rw [Put.Sound] at sound ⊢
  rw [phase_eq, journal_eq]
  generalize put.phase = phase at sound ⊢
  cases phase with
  | admitting =>
    obtain ⟨_, _, _, absent⟩ := sound
    cases step with
    | receive placed running | fail placed running | commit placed running =>
      simp [absent, Channel.absent] at running
  | feeding encoder rest =>
    obtain ⟨unwritten, opened, geometry, chunks, rows, admitted, body, fed, delivered⟩ := sound
    exact ⟨unwritten, step.open opened, geometry, chunks, rows, admitted, body, fed,
      step.delivered delivered (.inl opened)⟩
  | flushing geometry objectLen =>
    obtain ⟨unwritten, opened, rows, complete, delivered⟩ := sound
    exact ⟨unwritten, step.open opened, rows, complete, step.delivered delivered (.inl opened)⟩
  | gathering geometry objectLen acked =>
    obtain ⟨unwritten, sent, rows, complete, delivered, acks⟩ := sound
    exact ⟨unwritten, pending_eq.trans sent, rows, complete,
      step.delivered delivered (.inr sent), step.keeps_acked delivered acks⟩
  | committing journal | journaling journal =>
    exact ⟨sound.1, recorded journal sound.2⟩
  | acknowledged =>
    obtain ⟨journal, written, record⟩ := sound
    exact ⟨journal, written, recorded journal record⟩
  | refused error =>
    exact sound

theorem Send.sound (step : Send put after) (sound : put.Sound code crc32c request) :
    after.Sound code crc32c request := by
  obtain ⟨phase_eq, journal_eq, unsent⟩ := step.frame
  rw [Put.Sound] at sound ⊢
  rw [phase_eq, journal_eq]
  generalize put.phase = phase at sound ⊢
  cases phase with
  | admitting | gathering geometry objectLen acked =>
    exact absurd sound.2.1 unsent
  | feeding encoder rest =>
    obtain ⟨unwritten, opened, geometry, chunks, rows, admitted, body, fed, delivered⟩ := sound
    exact ⟨unwritten, step.open opened, geometry, chunks, rows, admitted, body, fed,
      step.delivered opened delivered⟩
  | flushing geometry objectLen =>
    obtain ⟨unwritten, opened, rows, complete, delivered⟩ := sound
    exact ⟨unwritten, step.open opened, rows, complete, step.delivered opened delivered⟩
  | committing journal | journaling journal =>
    obtain ⟨_, _, _, _, _, _, _, _, _, sent, _⟩ := sound
    exact absurd sent unsent
  | acknowledged =>
    obtain ⟨_, _, _, _, _, _, _, _, _, _, sent, _⟩ := sound
    exact absurd sent unsent
  | refused error =>
    exact sound

theorem Put.sound_start (plane : FragmentPlane) :
    (Put.start plane).Sound code crc32c request :=
  ⟨rfl, rfl, rfl, rfl⟩

theorem Recorded.enter {journal : CodedJournal}
    (recorded : Recorded code crc32c request journal put)
    (phase : PutPhase) (written : Option CodedJournal) :
    Recorded code crc32c request journal { put with phase, journal := written } := by
  obtain ⟨geometry, objectLen, acked, rows, journal_eq, complete, delivered, acks, rest⟩ := recorded
  exact ⟨geometry, objectLen, acked, rows, journal_eq, complete,
    ⟨delivered.pipe, delivered.stored, delivered.reportedOnce, delivered.reported⟩,
    ⟨acks.once, acks.committed⟩, rest⟩

theorem PutStep.sound (lawful : code.Lawful) (step : PutStep code crc32c request put after)
    (sound : put.Sound code crc32c request) : after.Sound code crc32c request := by
  cases step with
  | refuse phase admission | bodyFailed phase sent | pushFailed phase sent refused
  | finishFailed phase sent refused | expire phase short | consensusFailed message phase =>
    rw [Put.Sound, phase] at sound
    exact .inl sound.1
  | @accept geometry phase admission =>
    rw [Put.Sound, phase] at sound
    obtain ⟨unwritten, sent, unreported, absent⟩ := sound
    refine ⟨unwritten, ⟨?_, ?_⟩, geometry, [], [], admission, rfl,
      StreamingStripeEncoder.fed_new geometry, ⟨?_, ?_, ?_, ?_⟩⟩
    · intro index received
      dsimp only
      split
      · exact fun _ => rfl
      · exact nofun
    · intro index
      dsimp only
      split <;> exact nofun
    · intro index inside received running
      dsimp only at running ⊢
      rw [if_pos inside] at running ⊢
      cases running
      rw [sent]
      rfl
    · intro index
      dsimp only
      split <;> exact nofun
    · dsimp only
      rw [unreported]
      exact nodup_nil
    · dsimp only
      rw [unreported]
      exact fun result listed => absurd listed not_mem_nil
  | @push encoder next chunk rest more phase sent encoded =>
    rw [Put.Sound, phase] at sound
    obtain ⟨unwritten, opened, geometry, chunks, rows, admitted, body, fed, delivered⟩ := sound
    have valid := (PutRequest.admitPut_eq_ok admitted).1
    have fed_next := fed.push valid encoded
    refine ⟨unwritten, ⟨opened.sender, opened.uncommitted⟩, geometry, chunks ++ [chunk],
      rows ++ more, admitted, ?_, ?_, delivered.extend _ opened sent ?_⟩
    · rw [body, map_append, append_assoc]
      rfl
    · rwa [flatten_append, flatten_singleton]
    · intro row member
      rw [fed_next.encodes.length_of_mem lawful (mem_append_right _ member)]
      exact PutRequest.total_le admitted
  | @finish encoder more objectLen phase sent encoded =>
    rw [Put.Sound, phase] at sound
    obtain ⟨unwritten, opened, geometry, chunks, rows, admitted, body, fed, delivered⟩ := sound
    have valid := (PutRequest.admitPut_eq_ok admitted).1
    obtain ⟨length, encodes⟩ := fed.finish valid encoded
    rw [append_nil] at body
    have complete : Complete code request encoder.geometry objectLen (rows ++ more) := by
      rw [fed.geometry_eq]
      exact ⟨admitted, chunks, body, length, encodes⟩
    refine ⟨unwritten, ⟨opened.sender, opened.uncommitted⟩, rows ++ more, complete,
      delivered.extend _ opened sent ?_⟩
    intro row member
    rw [encodes.length_of_mem lawful (mem_append_right _ member)]
    exact PutRequest.total_le admitted
  | send step | deliver step => exact step.sound sound
  | @close geometry objectLen phase sent =>
    rw [Put.Sound, phase] at sound
    obtain ⟨unwritten, opened, rows, complete, delivered⟩ := sound
    refine ⟨unwritten, sent, rows, complete,
      ⟨delivered.pipe, delivered.stored, delivered.reportedOnce, delivered.reported⟩, ?_, ?_⟩
    · rw [map_nil, nil_append]
      exact delivered.reportedOnce
    · exact fun placement listed => absurd listed not_mem_nil
  | @gather geometry objectLen index ok acked results phase short next =>
    rw [Put.Sound, phase] at sound
    obtain ⟨unwritten, sent, rows, complete, delivered, acks⟩ := sound
    have once := acks.once
    have reportedOnce := delivered.reportedOnce
    have reported := delivered.reported
    rw [next] at once reportedOnce reported
    refine ⟨unwritten, sent, rows, complete, ⟨delivered.pipe, delivered.stored,
      reportedOnce.of_cons, (forall_mem_cons.mp reported).2⟩, ?_⟩
    cases ok with
    | false =>
      refine ⟨?_, acks.committed⟩
      exact once.sublist (List.Sublist.append_left (sublist_cons_self _ _) _)
    | true =>
      constructor
      · rw [if_pos rfl, map_append, append_assoc]
        exact once
      · intro placement listed
        rcases mem_append.mp listed with before | now
        · exact acks.committed placement before
        · rw [mem_singleton.mp now]
          obtain ⟨inside, task⟩ := reported (index, true) mem_cons_self
          exact ⟨rfl, inside, by simpa [PutRequest.placement] using task⟩
  | @quorum geometry objectLen acked phase enough =>
    rw [Put.Sound, phase] at sound
    obtain ⟨unwritten, sent, rows, complete, delivered, acks⟩ := sound
    have recorded : Recorded code crc32c request _ put :=
      ⟨geometry, objectLen, acked, rows, rfl, complete, delivered, acks, sent, enough⟩
    exact ⟨unwritten, recorded.enter _ _⟩
  | consensus phase =>
    rw [Put.Sound, phase] at sound
    exact ⟨sound.1, sound.2.enter _ _⟩
  | @journal journal phase =>
    rw [Put.Sound, phase] at sound
    exact ⟨journal, rfl, sound.2.enter _ _⟩
  | journalFailed message landed phase => exact .inr ⟨message, rfl⟩

variable {plane : FragmentPlane}

theorem Put.sound_of_run (lawful : code.Lawful)
    (run : Relation.ReflTransGen (PutStep code crc32c request) (Put.start plane) put) :
    put.Sound code crc32c request := by
  induction run with
  | refl => exact Put.sound_start plane
  | tail _ step induction => exact step.sound lawful induction

theorem PutRequest.nodup_nodes (request : PutRequest) : request.nodes.Nodup := by
  have ordered : (placementOrder request.score request.live).Nodup :=
    (perm_insertionSort _ _).nodup_iff.mpr request.distinct
  exact (ordered.filter _).sublist (take_sublist _ _)

theorem PutRequest.length_nodes (request : PutRequest) : request.nodes.length = request.total := by
  rw [PutRequest.nodes, length_take, PutRequest.total]
  omega

theorem Acked.nodup_nodes (acks : Acked request acked put) :
    (acked.map Placement.node).Nodup := by
  have indices : (acked.map Placement.index).Nodup := acks.once.of_append_left
  rw [List.Nodup, pairwise_map] at indices ⊢
  refine indices.imp_of_mem ?_
  intro left right leftListed rightListed apart same
  obtain ⟨left_eq, left_inside, _⟩ := acks.committed left leftListed
  obtain ⟨right_eq, right_inside, _⟩ := acks.committed right rightListed
  rw [← request.length_nodes] at left_inside right_inside
  rw [left_eq, right_eq] at same
  simp only [PutRequest.placement, getD_eq_getElem?_getD,
    getElem?_eq_getElem left_inside, getElem?_eq_getElem right_inside,
    Option.getD_some] at same
  exact apart ((List.Nodup.getElem_inj_iff request.nodup_nodes).mp same)

/-- A PUT that is acknowledged has `w` committed fragments with distinct indices on distinct nodes,
each with all shards of its index, and any `k` of them reassemble to the body; a PUT that is refused
leaves no journal, unless writing the journal itself failed.  The quorum `w` is that of the coding,
which is one fragment in a deployment of one node. -/
theorem acknowledged_put_is_quorum_durable (lawful : code.Lawful)
    (run : Relation.ReflTransGen (PutStep code crc32c request) (Put.start plane) put) :
    (put.phase = .acknowledged → ∃ (journal : CodedJournal) (chunks : List Bytes)
      (rows : List (List Bytes)),
        put.journal = some journal ∧ journal.objectId = request.objectId ∧
        request.body = chunks.map .ok ∧ journal.objectLen = chunks.flatten.length ∧
        request.coding.2.2 ≤ journal.placements.length ∧
        (journal.placements.map Placement.index).Nodup ∧
        (journal.placements.map Placement.node).Nodup ∧
        Encodes code journal.geometry
          (paddedBlocks journal.geometry.stripeDataLen 0 chunks.flatten) rows ∧
        (∀ placement ∈ journal.placements,
          Stores crc32c put.plane request.objectId rows placement) ∧
        ∀ (chosen : List Placement) (reachable : String → Bool), chosen.Nodup →
          chosen ⊆ journal.placements → journal.k ≤ chosen.length →
          (∀ placement ∈ chosen, reachable placement.node) →
          reassembleObject crc32c put.plane reachable code
            { journal with placements := chosen } = .ok chunks.flatten) ∧
    ∀ error, put.phase = .refused error → put.journal = none ∨ ∃ message, error = .journal message
    := by
  have sound := Put.sound_of_run lawful run
  refine ⟨?_, ?_⟩
  · intro phase
    rw [Put.Sound, phase] at sound
    obtain ⟨journal, written, geometry, objectLen, acked, rows, rfl, complete, delivered, acks, _,
      enough⟩ := sound
    obtain ⟨admitted, chunks, body, length, encodes⟩ := complete
    have valid := (PutRequest.admitPut_eq_ok admitted).1
    have indices : (acked.map Placement.index).Nodup := acks.once.of_append_left
    have stores : ∀ placement ∈ acked, Stores crc32c put.plane request.objectId rows placement := by
      intro placement listed
      obtain ⟨placement_eq, _, committed⟩ := acks.committed placement listed
      rw [placement_eq]
      exact delivered.stored placement.index committed
    refine ⟨_, chunks, rows, written, rfl, body, length, enough, indices, acks.nodup_nodes, encodes,
      stores, ?_⟩
    intro chosen reachable distinct listed count up
    refine reassembleObject_of_stores lawful valid encodes length ?_ ?_ ?_ up count
    · exact distinct.map_on fun left leftMember right rightMember same =>
        inj_on_of_nodup_map indices (listed leftMember) (listed rightMember) same
    · intro placement member
      exact Nat.lt_of_lt_of_le (acks.committed placement (listed member)).2.1
        (PutRequest.total_le admitted)
    · exact fun placement member => stores placement (listed member)
  · intro error phase
    rw [Put.Sound, phase] at sound
    exact sound

end Invariant

/-- A PUT of one byte with `k = 1`, `m = 1` and `w = 2`. -/
def oneBytePut (live : List String) (isSingleNode : Bool) (distinct : live.Nodup) : PutRequest where
  key := ⟨"binding", "bucket", "key"⟩
  objectId := "object"
  body := [.ok [7]]
  k := 1
  m := 1
  w := 2
  live := live
  isSingleNode := isSingleNode
  headroom := fun _ => true
  score := fun node => node.length
  distinct := distinct

/-- The only stripe of the byte. -/
def oneByteStripe : Bytes := padTo maxStripeChunk 0 [7]

theorem finish_oneByte (m : Nat) :
    (StreamingStripeEncoder.mk ⟨1, m, maxStripeChunk⟩ [7] 1).finish .mirror =
      .ok ([List.replicate (m + 1) oneByteStripe], 1) := by
  have last : lastBlock (Geometry.stripeDataLen ⟨1, m, maxStripeChunk⟩) 0 [(7 : UInt8)] =
      [oneByteStripe] := by
    rw [Geometry.stripeDataLen, Nat.one_mul]
    rfl
  have full : oneByteStripe.length = maxStripeChunk := length_padTo (by decide)
  rw [StreamingStripeEncoder.finish, last, mapM_cons, encodeOneStripe_mirror (by decide) full]
  rfl

theorem push_oneByte (m : Nat) :
    (StreamingStripeEncoder.new ⟨1, m, maxStripeChunk⟩).push .mirror [7] =
      .ok ([], StreamingStripeEncoder.mk ⟨1, m, maxStripeChunk⟩ [7] 1) := by
  have short : ([7] : Bytes).length < Geometry.stripeDataLen ⟨1, m, maxStripeChunk⟩ := by
    rw [Geometry.stripeDataLen, Nat.one_mul]
    exact (by decide : 1 < maxStripeChunk)
  rw [StreamingStripeEncoder.push]
  simp only [StreamingStripeEncoder.new, nil_append, chunksExact_eq_nil short,
    blockRest_eq_self short]
  rfl

theorem run_oneNode (crc32c : Bytes → UInt32) (plane : FragmentPlane) :
    ∃ put, Relation.ReflTransGen
        (PutStep .mirror crc32c (oneBytePut ["a"] true (List.nodup_singleton "a")))
        (Put.start plane) put ∧
      put.phase = .journaling ((oneBytePut ["a"] true (List.nodup_singleton "a")).journal
        ⟨1, 0, maxStripeChunk⟩ 1 [⟨0, "a"⟩]) := by
  have placed : 0 < (oneBytePut ["a"] true (nodup_singleton "a")).total := by decide
  have room : 0 < channelCapacity := by decide
  have admitted : Relation.ReflTransGen
      (PutStep .mirror crc32c (oneBytePut ["a"] true (nodup_singleton "a")))
      (Put.start plane) _ := .tail .refl (.accept rfl rfl)
  have pushed := admitted.tail (.push rfl rfl (push_oneByte 0))
  have finished := pushed.tail (.finish rfl rfl (finish_oneByte 0))
  have sent := finished.tail (.send (.enqueue rfl rfl rfl room))
  have received := sent.tail (.deliver (.receive placed rfl rfl))
  have closed := received.tail (.close rfl rfl)
  have committed := closed.tail (.deliver (.commit placed rfl rfl rfl))
  have gathered := committed.tail (.gather rfl (by decide) rfl)
  have quorum := gathered.tail (.quorum rfl (by decide))
  exact ⟨_, quorum.tail (.consensus rfl), rfl⟩

/-- A deployment of one node acknowledges a PUT with fewer placements than the `w` it was asked for,
and a PUT that is refused because the journal could not be synced may leave the journal behind. -/
theorem acknowledged_put_below_w :
    let request := oneBytePut ["a"] true (List.nodup_singleton "a")
    1 ≤ request.k ∧ request.k ≤ request.w ∧ request.w ≤ request.k + request.m ∧
      (∃ put journal, Relation.ReflTransGen (PutStep .mirror (fun _ => 0) request)
          (Put.start fun _ _ => none) put ∧
        put.phase = .acknowledged ∧ put.journal = some journal ∧
        journal.placements.length < request.w) ∧
      ∃ put, Relation.ReflTransGen (PutStep .mirror (fun _ => 0) request)
          (Put.start fun _ _ => none) put ∧
        put.phase = .refused (.journal "fsync") ∧ put.journal.isSome := by
  obtain ⟨put, run, phase⟩ := run_oneNode (fun _ => 0) fun _ _ => none
  exact ⟨by decide, by decide, by decide,
    ⟨_, _, run.tail (.journal phase), rfl, rfl, by decide⟩,
    _, run.tail (.journalFailed "fsync" true phase), rfl, rfl⟩

theorem nodup_twoNodes : ["a", "bb"].Nodup := by decide

theorem run_twoNodes (crc32c : Bytes → UInt32) (plane : FragmentPlane) :
    ∃ put, Relation.ReflTransGen
        (PutStep .mirror crc32c (oneBytePut ["a", "bb"] false nodup_twoNodes))
        (Put.start plane) put ∧ put.phase = .acknowledged ∧
      put.journal = some ((oneBytePut ["a", "bb"] false nodup_twoNodes).journal
        ⟨1, 1, maxStripeChunk⟩ 1 [⟨0, "bb"⟩, ⟨1, "a"⟩]) := by
  have first : 0 < (oneBytePut ["a", "bb"] false nodup_twoNodes).total := by decide
  have second : 1 < (oneBytePut ["a", "bb"] false nodup_twoNodes).total := by decide
  have room : 0 < channelCapacity := by decide
  have admitted : Relation.ReflTransGen
      (PutStep .mirror crc32c (oneBytePut ["a", "bb"] false nodup_twoNodes))
      (Put.start plane) _ := .tail .refl (.accept rfl rfl)
  have pushed := admitted.tail (.push rfl rfl (push_oneByte 1))
  have finished := pushed.tail (.finish rfl rfl (finish_oneByte 1))
  have sentFirst := finished.tail (.send (.enqueue rfl rfl rfl room))
  have sent := sentFirst.tail (.send (.enqueue rfl rfl rfl room))
  have receivedFirst := sent.tail (.deliver (.receive first rfl rfl))
  have received := receivedFirst.tail (.deliver (.receive second rfl rfl))
  have closed := received.tail (.close rfl rfl)
  have committedFirst := closed.tail (.deliver (.commit first rfl rfl rfl))
  have committed := committedFirst.tail (.deliver (.commit second rfl rfl rfl))
  have gatheredFirst := committed.tail (.gather rfl (by decide) rfl)
  have gathered := gatheredFirst.tail (.gather rfl (by decide) rfl)
  have quorum := gathered.tail (.quorum rfl (by decide))
  exact ⟨_, (quorum.tail (.consensus rfl)).tail (.journal rfl), rfl, rfl⟩

/-- On two nodes, the parity fragment alone gives the body back. -/
theorem acknowledged_put_twoNodes :
    ∃ put journal, Relation.ReflTransGen
        (PutStep .mirror (fun _ => 0) (oneBytePut ["a", "bb"] false nodup_twoNodes))
        (Put.start fun _ _ => none) put ∧
      put.phase = .acknowledged ∧ put.journal = some journal ∧ journal.placements.length = 2 ∧
      reassembleObject (fun _ => 0) put.plane (fun node => node = "a") .mirror
        { journal with placements := [⟨1, "a"⟩] } = .ok [7] := by
  obtain ⟨put, run, phase, written⟩ := run_twoNodes (fun _ => 0) fun _ _ => none
  obtain ⟨journal, chunks, rows, found, _, body, _, _, _, _, _, _, restores⟩ :=
    (acknowledged_put_is_quorum_durable ErasureCode.mirror_lawful run).1 phase
  cases written.symm.trans found
  have whole : chunks.flatten = [7] := by
    have chunks_eq : [[7]].map Except.ok = chunks.map (Except.ok (ε := String)) := body
    rw [← map_injective_iff.mpr (fun _ _ => Except.ok.inj) chunks_eq]
    rfl
  rw [whole] at restores
  refine ⟨put, _, run, phase, written, rfl, restores [⟨1, "a"⟩] _ ?_ ?_ ?_ ?_⟩
  · exact nodup_singleton _
  · decide
  · decide
  · decide

end Verglas.Writeback
