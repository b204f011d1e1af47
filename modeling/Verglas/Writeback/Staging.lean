import Verglas.Writeback.Reassembly

/-!
# Staging a write-back object

A streaming PUT encodes its body stripe by stripe.  Each fragment has a bounded channel and a task
that streams the channel to its node and commits the fragment when the channel has ended.  The
shards of a stripe are sent to the channels in turn; a channel whose task has ended drops them.  The
PUT is acknowledged when `w` fragments are committed, the consensus group has accepted the object
and the journal is written.
-/

namespace Verglas.Writeback

open Cache Cluster

/-- Why a write is refused. -/
inductive WriteError where
  | quorumShortfall (required durable : Nat)
  | geometry (error : CodecError)
  | encode (error : CodecError)
  | body (message : String)
  | consensus (message : String)
  | journal (message : String)
  deriving DecidableEq, Repr

/-- A PUT with what its node sees of the pod.  `score` is the rendezvous hash of the object and a
node, and `headroom` says which nodes have room for a stripe. -/
structure PutRequest where
  key : CacheKey
  objectId : String
  body : List (Except String Bytes)
  k : Nat
  m : Nat
  w : Nat
  live : List String
  isSingleNode : Bool
  headroom : String → Bool
  score : String → Nat
  distinct : live.Nodup := by decide

/-- Nodes by descending score, and by name where scores are equal. -/
def placementOrder (score : String → Nat) (live : List String) : List String :=
  live.insertionSort fun left right =>
    score right < score left ∨ score right = score left ∧ left ≤ right

namespace PutRequest

variable (request : PutRequest)

/-- The numbers of data fragments, parity fragments and acknowledgements.  A deployment of one node
keeps one fragment, whatever the request asks for. -/
def coding : Nat × Nat × Nat :=
  if request.isSingleNode then (1, 0, 1) else (request.k, request.m, request.w)

/-- The live nodes with room for a fragment, in placement order. -/
def candidates : List String :=
  (placementOrder request.score request.live).filter request.headroom

/-- How many fragments are placed. -/
def total : Nat := min request.candidates.length (request.coding.1 + request.coding.2.1)

/-- The node of each placed fragment. -/
def nodes : List String := request.candidates.take request.total

/-- Where a fragment goes. -/
def placement (index : Nat) : Placement := ⟨index, request.nodes.getD index ""⟩

/-- Whether the PUT may start, and the geometry that it encodes with. -/
def admitPut : Except WriteError Geometry :=
  let (k, m, w) := request.coding
  if ¬ request.isSingleNode ∧ request.live.length < w then
    .error (.quorumShortfall w request.live.length)
  else if request.candidates.length < w then
    .error (.quorumShortfall w request.candidates.length)
  else
    match Geometry.streaming k m maxStripeChunk with
    | .error error => .error (.geometry error)
    | .ok geometry => .ok geometry

/-- The journal of the object when the given placements are committed. -/
def journal (geometry : Geometry) (objectLen : Nat) (acked : List Placement) : CodedJournal where
  objectId := request.objectId
  storageBindingId := request.key.storageBindingId
  bucket := request.key.bucket
  key := request.key.key
  objectLen := objectLen
  state := .dirty
  placements := acked
  k := geometry.k
  m := geometry.m
  chunk := geometry.chunk

end PutRequest

/-- The task that streams one fragment to its node. -/
inductive PlacementTask where
  | receiving (received : List Bytes)
  | committed
  | failed
  deriving DecidableEq

/-- A shard channel with its task.  `sender` is false when the sending end is gone. -/
structure Channel where
  sender : Bool
  queue : List Bytes
  task : PlacementTask

/-- A channel to a writer that has received nothing. -/
def Channel.fresh : Channel := ⟨true, [], .receiving []⟩

/-- No channel, and so no sender. -/
def Channel.absent : Channel := ⟨false, [], .failed⟩

/-- Shards that a channel holds before its sender waits. -/
def channelCapacity : Nat := 2

/-- How far a PUT has come. -/
inductive PutPhase where
  | admitting
  | feeding (encoder : StreamingStripeEncoder) (rest : List (Except String Bytes))
  | flushing (geometry : Geometry) (objectLen : Nat)
  | gathering (geometry : Geometry) (objectLen : Nat) (acked : List Placement)
  | committing (journal : CodedJournal)
  | journaling (journal : CodedJournal)
  | acknowledged
  | refused (error : WriteError)

/-- A PUT in progress: shards to send, channels by fragment index, task results that were not read
yet, the fragment files of the pod and the journal file of the object. -/
structure Put where
  phase : PutPhase
  pending : List (Nat × Bytes)
  channels : Nat → Channel
  results : List (Nat × Bool)
  plane : FragmentPlane
  journal : Option CodedJournal

/-- Before the PUT, when its object id is new. -/
def Put.start (plane : FragmentPlane) : Put :=
  ⟨.admitting, [], fun _ => .absent, [], plane, none⟩

/-- The shards of some stripes that are sent, by channel. -/
def sends (total : Nat) (rows : List (List Bytes)) : List (Nat × Bytes) :=
  rows.flatMap fun row => (row.take total).zipIdx.map Prod.swap

namespace Put

def setChannel (put : Put) (index : Nat) (channel : Channel) : Put :=
  { put with channels := Function.update put.channels index channel }

/-- Drop every sender. -/
def closeSenders (put : Put) : Put :=
  { put with channels := fun index => { put.channels index with sender := false } }

end Put

section Steps

variable (code : ErasureCode UInt8) (crc32c : Bytes → UInt32) (request : PutRequest)

/-- A step of the task that writes one placement. -/
inductive Deliver (put : Put) : Put → Prop where
  | receive {index : Nat} {received : List Bytes} {shard : Bytes} {queue : List Bytes}
      (placed : index < request.total) (running : (put.channels index).task = .receiving received)
      (queued : (put.channels index).queue = shard :: queue) :
      Deliver put
        (put.setChannel index
          ⟨(put.channels index).sender, queue, .receiving (received ++ [shard])⟩)
  | fail {index : Nat} {received : List Bytes} (placed : index < request.total)
      (running : (put.channels index).task = .receiving received) :
      Deliver put
        { put.setChannel index ⟨(put.channels index).sender, [], .failed⟩ with
          results := put.results ++ [(index, false)] }
  | commit {index : Nat} {received : List Bytes} (placed : index < request.total)
      (running : (put.channels index).task = .receiving received)
      (drained : (put.channels index).queue = []) (ended : (put.channels index).sender = false) :
      Deliver put
        { put.setChannel index ⟨false, [], .committed⟩ with
          results := put.results ++ [(index, true)]
          plane := put.plane.storeFragment (request.placement index).node
            (FragmentRecord.new crc32c ⟨request.objectId, index⟩ received.flatten) }

/-- The next pending shard goes to the channel of its placement. -/
inductive Send (put : Put) : Put → Prop where
  | enqueue {index : Nat} {shard : Bytes} {rest : List (Nat × Bytes)} {received : List Bytes}
      (next : put.pending = (index, shard) :: rest) (opened : (put.channels index).sender = true)
      (running : (put.channels index).task = .receiving received)
      (room : (put.channels index).queue.length < channelCapacity) :
      Send put
        { put.setChannel index
            ⟨true, (put.channels index).queue ++ [shard], .receiving received⟩ with
          pending := rest }
  /-- The task of the channel has ended: the shard is dropped with the sender. -/
  | closed {index : Nat} {shard : Bytes} {rest : List (Nat × Bytes)}
      (next : put.pending = (index, shard) :: rest) (opened : (put.channels index).sender = true)
      (stopped : ∀ received, (put.channels index).task ≠ .receiving received) :
      Send put
        { put.setChannel index
            ⟨false, (put.channels index).queue, (put.channels index).task⟩ with
          pending := rest }
  | dropped {index : Nat} {shard : Bytes} {rest : List (Nat × Bytes)}
      (next : put.pending = (index, shard) :: rest) (gone : (put.channels index).sender = false) :
      Send put { put with pending := rest }

/-- A step of a PUT or of one of its placement tasks. -/
inductive PutStep (put : Put) : Put → Prop where
  | refuse {error : WriteError} (phase : put.phase = .admitting)
      (admission : request.admitPut = .error error) :
      PutStep put { put with phase := .refused error }
  | accept {geometry : Geometry} (phase : put.phase = .admitting)
      (admission : request.admitPut = .ok geometry) :
      PutStep put
        { put with
          phase := .feeding (.new geometry) request.body
          channels := fun index => if index < request.total then .fresh else .absent }
  | push {encoder after : StreamingStripeEncoder} {chunk : Bytes}
      {rest : List (Except String Bytes)} {rows : List (List Bytes)}
      (phase : put.phase = .feeding encoder (.ok chunk :: rest)) (sent : put.pending = [])
      (encoded : encoder.push code chunk = .ok (rows, after)) :
      PutStep put { put with phase := .feeding after rest, pending := sends request.total rows }
  | bodyFailed {encoder : StreamingStripeEncoder} {message : String}
      {rest : List (Except String Bytes)}
      (phase : put.phase = .feeding encoder (.error message :: rest)) (sent : put.pending = []) :
      PutStep put { put.closeSenders with phase := .refused (.body message) }
  | pushFailed {encoder : StreamingStripeEncoder} {chunk : Bytes} {error : CodecError}
      {rest : List (Except String Bytes)} (phase : put.phase = .feeding encoder (.ok chunk :: rest))
      (sent : put.pending = []) (refused : encoder.push code chunk = .error error) :
      PutStep put { put.closeSenders with phase := .refused (.encode error) }
  | finish {encoder : StreamingStripeEncoder} {rows : List (List Bytes)} {objectLen : Nat}
      (phase : put.phase = .feeding encoder []) (sent : put.pending = [])
      (encoded : encoder.finish code = .ok (rows, objectLen)) :
      PutStep put
        { put with
          phase := .flushing encoder.geometry objectLen
          pending := sends request.total rows }
  | finishFailed {encoder : StreamingStripeEncoder} {error : CodecError}
      (phase : put.phase = .feeding encoder []) (sent : put.pending = [])
      (refused : encoder.finish code = .error error) :
      PutStep put { put.closeSenders with phase := .refused (.encode error) }
  | send {after : Put} (step : Send put after) : PutStep put after
  | deliver {after : Put} (step : Deliver crc32c request put after) : PutStep put after
  | close {geometry : Geometry} {objectLen : Nat} (phase : put.phase = .flushing geometry objectLen)
      (sent : put.pending = []) :
      PutStep put { put.closeSenders with phase := .gathering geometry objectLen [] }
  | gather {geometry : Geometry} {objectLen index : Nat} {ok : Bool} {acked : List Placement}
      {results : List (Nat × Bool)} (phase : put.phase = .gathering geometry objectLen acked)
      (short : acked.length < request.coding.2.2) (next : put.results = (index, ok) :: results) :
      PutStep put
        { put with
          phase := .gathering geometry objectLen
            (if ok then acked ++ [request.placement index] else acked)
          results := results }
  /-- The deadline passes, or every task has reported. -/
  | expire {geometry : Geometry} {objectLen : Nat} {acked : List Placement}
      (phase : put.phase = .gathering geometry objectLen acked)
      (short : acked.length < request.coding.2.2) :
      PutStep put { put with phase := .refused (.quorumShortfall request.coding.2.2 acked.length) }
  | quorum {geometry : Geometry} {objectLen : Nat} {acked : List Placement}
      (phase : put.phase = .gathering geometry objectLen acked)
      (enough : request.coding.2.2 ≤ acked.length) :
      PutStep put { put with phase := .committing (request.journal geometry objectLen acked) }
  | consensus {journal : CodedJournal} (phase : put.phase = .committing journal) :
      PutStep put { put with phase := .journaling journal }
  | consensusFailed {journal : CodedJournal} (message : String)
      (phase : put.phase = .committing journal) :
      PutStep put { put with phase := .refused (.consensus message) }
  | journal {journal : CodedJournal} (phase : put.phase = .journaling journal) :
      PutStep put { put with phase := .acknowledged, journal := some journal }
  | journalFailed {journal : CodedJournal} (message : String) (landed : Bool)
      (phase : put.phase = .journaling journal) :
      PutStep put
        { put with
          phase := .refused (.journal message)
          journal := if landed then some journal else none }

end Steps

end Verglas.Writeback
