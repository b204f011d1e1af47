import Mathlib.Data.List.Basic

/-!
# Streamed writes

A body is written without holding more of it than one part.  A slicer cuts the chunks of the client
into parts of one length and carries what a chunk has left over into the next part.  A body that
ends within the first part is one request; a longer one is an upload with its parts in order, which
is completed after the last part and given up when the stream or a part fails.
-/

namespace Verglas.S3

open List

abbrev Bytes := List UInt8

/-- The chunks of a body as they arrive, up to a failure of the stream. -/
abbrev WriteBodyStream (Error : Type*) := List (Except Error Bytes)

variable {Error Headers : Type*}

/-- No item of the stream is a failure. -/
def Clean (body : WriteBodyStream Error) : Prop := ∀ error, Except.error error ∉ body

/-- The bytes of a stream. -/
def bytesOf : WriteBodyStream Error → Bytes
  | [] => []
  | .ok chunk :: body => chunk ++ bytesOf body
  | .error _ :: body => bytesOf body

/-- The chunks of one part. -/
structure BufferedSlice where
  chunks : List Bytes
  len : Nat
  /-- The body has ended within the part. -/
  ended : Bool

/-- The stream behind the parts that were taken from it. -/
structure PartSlicer (Error : Type*) where
  body : WriteBodyStream Error
  /-- What the last chunk of the previous part has left over. -/
  carry : Option Bytes := none

/-- What the slicer has still to give. -/
def PartSlicer.bytes (slicer : PartSlicer Error) : Bytes :=
  slicer.carry.getD [] ++ bytesOf slicer.body

/-- Take chunks until the part is full. -/
def fillPart (target : Nat) :
    List Bytes → Nat → WriteBodyStream Error →
      Except Error (BufferedSlice × WriteBodyStream Error)
  | chunks, len, [] => .ok (⟨chunks, len, decide (len < target)⟩, [])
  | chunks, len, .ok chunk :: body =>
    if target ≤ len then .ok (⟨chunks, len, false⟩, .ok chunk :: body)
    else fillPart target (chunks ++ [chunk]) (len + chunk.length) body
  | chunks, len, .error error :: body =>
    if target ≤ len then .ok (⟨chunks, len, false⟩, .error error :: body) else .error error

/-- Cut what the last chunk has too much. -/
def BufferedSlice.trim (target : Nat) (slice : BufferedSlice) : BufferedSlice × Option Bytes :=
  match slice.chunks.getLast? with
  | some last =>
    if target < slice.len then
      let kept := last.length - (slice.len - target)
      ({ slice with chunks := slice.chunks.dropLast ++ [last.take kept], len := target },
        some (last.drop kept))
    else (slice, none)
  | none => (slice, none)

/-- The next part: as many bytes as the target, or fewer at the end of the body. -/
def PartSlicer.nextPart (target : Nat) (slicer : PartSlicer Error) :
    Except Error (BufferedSlice × PartSlicer Error) :=
  match fillPart target slicer.carry.toList (slicer.carry.getD []).length slicer.body with
  | .error error => .error error
  | .ok (slice, body) =>
    let (slice, carry) := slice.trim target
    .ok (slice, ⟨body, carry⟩)

/-- The chunks are as long as the count says, and the last one crosses the target at most once. -/
structure Filling (target : Nat) (chunks : List Bytes) (len : Nat) : Prop where
  counted : len = chunks.flatten.length
  crosses : ∀ last, chunks.getLast? = some last → len ≤ target + last.length

variable {target : Nat} {body : WriteBodyStream Error} {slice : BufferedSlice}

theorem fillPart_spec {rest : WriteBodyStream Error} {chunks : List Bytes} {len : Nat}
    (filling : Filling target chunks len)
    (filled : fillPart target chunks len body = .ok (slice, rest)) :
    Filling target slice.chunks slice.len ∧
      slice.chunks.flatten ++ bytesOf rest = chunks.flatten ++ bytesOf body ∧
      (Clean body ↔ Clean rest) ∧
      (if slice.ended then slice.len < target ∧ rest = [] else target ≤ slice.len) := by
  induction body generalizing chunks len with
  | nil =>
    simp only [fillPart, Except.ok.injEq, Prod.mk.injEq] at filled
    obtain ⟨rfl, rfl⟩ := filled
    by_cases short : len < target
    · simp [filling, short]
    · simp [filling, short, Nat.le_of_not_lt short]
  | cons item body induction =>
    by_cases full : target ≤ len
    · have stops : fillPart target chunks len (item :: body) =
          .ok (⟨chunks, len, false⟩, item :: body) := by
        cases item <;> simp [fillPart, full]
      rw [stops] at filled
      simp only [Except.ok.injEq, Prod.mk.injEq] at filled
      obtain ⟨rfl, rfl⟩ := filled
      exact ⟨filling, rfl, Iff.rfl, by simpa using full⟩
    · cases item with
      | error error => simp [fillPart, full] at filled
      | ok chunk =>
        rw [fillPart, if_neg full] at filled
        have next : Filling target (chunks ++ [chunk]) (len + chunk.length) :=
          ⟨by simp [filling.counted], by simp; omega⟩
        obtain ⟨kept, joined, clean, ends⟩ := induction next filled
        refine ⟨kept, by simpa [bytesOf] using joined, ?_, ends⟩
        rw [← clean]
        simp [Clean]

theorem trim_spec (filling : Filling target slice.chunks slice.len) :
    (slice.trim target).1.ended = slice.ended ∧
      (slice.trim target).1.len = min slice.len target ∧
      (slice.trim target).1.len = (slice.trim target).1.chunks.flatten.length ∧
      (slice.trim target).1.chunks.flatten ++ (slice.trim target).2.getD [] =
        slice.chunks.flatten ∧
      (slice.len ≤ target → (slice.trim target).2 = none) := by
  obtain ⟨counted, crosses⟩ := filling
  cases final : slice.chunks.getLast? with
  | none =>
    have empty := getLast?_eq_none_iff.mp final
    simp [BufferedSlice.trim, counted, empty]
  | some last =>
    have crossing := crosses last final
    have parts := dropLast_append_getLast? last final
    have length : slice.len = slice.chunks.dropLast.flatten.length + last.length := by
      rw [counted, ← parts]
      simp
    by_cases long : target < slice.len
    · simp only [BufferedSlice.trim, final, long, if_true]
      refine ⟨trivial, by omega, ?_, ?_, fun short => absurd long (by omega)⟩
      · simp only [flatten_append, flatten_cons, flatten_nil, append_nil,
          length_append, length_take]
        omega
      · rw [← parts]
        simp
    · simp only [BufferedSlice.trim, final, long, if_false]
      exact ⟨trivial, by omega, counted, by simp, fun _ => trivial⟩

variable {slicer : PartSlicer Error}

/-- A part is full or the last one, and nothing of the stream is lost. -/
theorem nextPart_spec {rest : PartSlicer Error}
    (next : slicer.nextPart target = .ok (slice, rest)) :
    slice.len = slice.chunks.flatten.length ∧
      slice.chunks.flatten ++ rest.bytes = slicer.bytes ∧
      (Clean slicer.body ↔ Clean rest.body) ∧
      (if slice.ended then slice.len < target ∧ rest.body = [] ∧ rest.carry = none
        else slice.len = target) := by
  have start : Filling target slicer.carry.toList (slicer.carry.getD []).length := by
    cases slicer.carry with
    | none => exact ⟨rfl, by simp⟩
    | some carry => exact ⟨by simp, by simp⟩
  have carried : slicer.carry.toList.flatten = slicer.carry.getD [] := by
    cases slicer.carry <;> simp
  simp only [PartSlicer.nextPart] at next
  split at next
  · cases next
  rename_i filled body fills
  obtain ⟨filling, joined, clean, ends⟩ := fillPart_spec start fills
  obtain ⟨ended, cut, counted, kept, whole⟩ := trim_spec filling
  simp only [Except.ok.injEq, Prod.mk.injEq] at next
  obtain ⟨rfl, rfl⟩ := next
  refine ⟨counted, ?_, clean, ?_⟩
  · simp only [PartSlicer.bytes]
    rw [← append_assoc, kept, joined, carried]
  · rw [ended]
    split at ends
    · rename_i short
      rw [short, cut]
      exact ⟨by omega, ends.2, whole (by omega)⟩
    · rename_i full
      rw [if_neg full, cut]
      omega

/-- The checksums that a client asserts. -/
structure Checksum where
  algorithm : Option String := none
  checksumType : Option String := none
  crc32 : Option String := none
  crc32c : Option String := none
  crc64nvme : Option String := none
  sha1 : Option String := none
  sha256 : Option String := none
  deriving DecidableEq, Repr

/-- What a writer sends; a part is numbered and a completion lists the tags of the parts. -/
inductive Request (Headers : Type*) where
  | put (headers : Headers) (chunks : List Bytes)
  | create (headers : Headers)
  | part (number : Nat) (checksum : Checksum) (chunks : List Bytes)
  | complete (etags : List String) (checksum : Checksum)
  | abort

/-- A request and its reply. -/
structure Exchange (Headers Error : Type*) where
  request : Request Headers
  reply : Except Error String

/-- The reply to a request, after what was exchanged before. -/
abbrev Origin (Headers Error : Type*) :=
  List (Exchange Headers Error) → Request Headers → Except Error String

/-- What was exchanged, in order. -/
abbrev Exchanges (Headers Error : Type*) := List (Exchange Headers Error)

namespace Origin

variable (origin : Origin Headers Error) (size : Nat)

/-- The log after one more request. -/
def send (log : Exchanges Headers Error) (request : Request Headers) : Exchanges Headers Error :=
  log ++ [⟨request, origin log request⟩]

/-- Complete the upload with the tags of its parts. -/
def complete (etags : List String) (log : Exchanges Headers Error) :
    Except Error String × Exchanges Headers Error :=
  (origin log (.complete etags {}), origin.send log (.complete etags {}))

/-- Upload a part and those that follow it. -/
def uploadParts (slice : BufferedSlice) (slicer : PartSlicer Error) (etags : List String)
    (log : Exchanges Headers Error) : Except Error String × Exchanges Headers Error :=
  let part := .part (etags.length + 1) {} slice.chunks
  let sent := origin.send log part
  match origin log part with
  | .error error => (.error error, origin.send sent .abort)
  | .ok etag =>
    if slice.ended then origin.complete (etags ++ [etag]) sent
    else
      match _next : slicer.nextPart size with
      | .error error => (.error error, origin.send sent .abort)
      | .ok (following, rest) =>
        if following.len = 0 then origin.complete (etags ++ [etag]) sent
        else uploadParts following rest (etags ++ [etag]) sent
termination_by slicer.bytes.length
decreasing_by
  obtain ⟨counted, joined, -, -⟩ := nextPart_spec _next
  rw [← joined, List.length_append]
  omega

/-- Write a body in parts of one size. -/
def streamBody (headers : Headers) (body : WriteBodyStream Error) :
    Except Error String × Exchanges Headers Error :=
  match PartSlicer.nextPart size ⟨body, none⟩ with
  | .error error => (.error error, [])
  | .ok (first, slicer) =>
    if first.ended then
      (origin [] (.put headers first.chunks), origin.send [] (.put headers first.chunks))
    else
      match origin [] (.create headers) with
      | .error error => (.error error, origin.send [] (.create headers))
      | .ok _ => uploadParts origin size first slicer [] (origin.send [] (.create headers))

end Origin

/-- Every exchange carries the reply of the origin after the exchanges before it. -/
def Answered (origin : Origin Headers Error) (log : Exchanges Headers Error) : Prop :=
  ∀ before exchange after, log = before ++ exchange :: after →
    exchange.reply = origin before exchange.request

section Answers

variable {origin : Origin Headers Error} {log : Exchanges Headers Error} {size : Nat}

theorem answered_nil : Answered origin [] := by
  intro before exchange after same
  simp at same

theorem Answered.send (answered : Answered origin log) (request : Request Headers) :
    Answered origin (origin.send log request) := by
  intro before exchange after same
  rcases eq_nil_or_concat after with rfl | ⟨front, last, rfl⟩
  · obtain ⟨rfl, rfl⟩ := append_inj' same rfl |>.imp_right cons.inj |>.imp_right And.left
    rfl
  · rw [concat_eq_append, ← cons_append, ← append_assoc] at same
    exact answered before exchange front (append_inj' same rfl).1

variable {etags : List String}

theorem uploadParts_more {following : BufferedSlice} {rest : PartSlicer Error} {etag : String}
    (accepted : origin log (.part (etags.length + 1) {} slice.chunks) = .ok etag)
    (more : slice.ended = false) (next : slicer.nextPart size = .ok (following, rest))
    (filled : following.len ≠ 0) :
    origin.uploadParts size slice slicer etags log =
      origin.uploadParts size following rest (etags ++ [etag])
        (log ++ [⟨.part (etags.length + 1) {} slice.chunks, .ok etag⟩]) := by
  rw [Origin.uploadParts]
  simp only [accepted, more, Origin.send, Bool.false_eq_true, if_false]
  split
  · rename_i error failed
    rw [next] at failed
    cases failed
  · rename_i other tail same
    rw [next] at same
    cases same
    rw [if_neg filled]

theorem uploadParts_answered (answered : Answered origin log) :
    Answered origin (origin.uploadParts size slice slicer etags log).2 := by
  fun_induction Origin.uploadParts origin size slice slicer etags log with
  | case1 | case2 | case3 | case4 => exact (answered.send _).send _
  | case5 _ _ _ _ _ _ _ _ _ _ _ _ _ induction => exact induction (answered.send _)

theorem streamBody_answered (headers : Headers) (body : WriteBodyStream Error) :
    Answered origin (origin.streamBody size headers body).2 := by
  rw [Origin.streamBody]
  split
  · exact answered_nil
  split
  · exact answered_nil.send _
  split
  · exact answered_nil.send _
  · exact uploadParts_answered (answered_nil.send _)

end Answers

/-- Parts of one length, but for a last one that may be shorter. -/
structure Uniform (size : Nat) (parts : List Bytes) (whole : Bytes) : Prop where
  joined : parts.flatten = whole
  full : ∀ part ∈ parts.dropLast, part.length = size
  last : ∀ part, parts.getLast? = some part → 0 < part.length ∧ part.length ≤ size

/-- The exchanges of parts that were accepted, numbered from one. -/
def sentParts (parts : List (List Bytes × String)) : Exchanges Headers Error :=
  parts.mapIdx fun index part => ⟨.part (index + 1) {} part.1, .ok part.2⟩

/-- The origin gives the reply to some request. -/
def Origin.Replies (origin : Origin Headers Error) (reply : Except Error String) : Prop :=
  ∃ log request, origin log request = reply

/-- The requests of a streamed write and its result. -/
inductive Streamed (origin : Origin Headers Error) (size : Nat) (headers : Headers)
    (body : WriteBodyStream Error) : Except Error String × Exchanges Headers Error → Prop
  | unread (error : Error) (fails : ¬ Clean body) :
      Streamed origin size headers body (.error error, [])
  | whole (chunks : List Bytes) (reply : Except Error String) (clean : Clean body)
      (short : (bytesOf body).length < size) (joined : chunks.flatten = bytesOf body)
      (replies : origin.Replies reply) :
      Streamed origin size headers body (reply, [⟨.put headers chunks, reply⟩])
  | refused (error : Error) (long : size ≤ (bytesOf body).length)
      (replies : origin.Replies (.error error)) :
      Streamed origin size headers body (.error error, [⟨.create headers, .error error⟩])
  | givenUp (upload : String) (parts : List (List Bytes × String)) (error : Error)
      (failed : Exchanges Headers Error) (reply : Except Error String)
      (fails : ¬ Clean body ∧ failed = [] ∨ origin.Replies (.error error) ∧
        ∃ chunks, failed = [⟨.part (parts.length + 1) {} chunks, .error error⟩]) :
      Streamed origin size headers body (.error error,
        ⟨.create headers, .ok upload⟩ :: (sentParts parts ++ failed ++ [⟨.abort, reply⟩]))
  | completed (upload : String) (parts : List (List Bytes × String)) (reply : Except Error String)
      (clean : Clean body) (long : size ≤ (bytesOf body).length)
      (uniform : Uniform size (parts.map (·.1.flatten)) (bytesOf body))
      (replies : origin.Replies reply) :
      Streamed origin size headers body (reply, ⟨.create headers, .ok upload⟩ ::
        (sentParts parts ++ [⟨.complete (parts.map Prod.snd) {}, reply⟩]))

/-- An upload with some parts sent, a slice to send and the rest of the stream. -/
structure Uploading (size : Nat) (body : WriteBodyStream Error)
    (done : List (List Bytes × String)) (slice : BufferedSlice) (slicer : PartSlicer Error) :
    Prop where
  counted : slice.len = slice.chunks.flatten.length
  filled : 0 < slice.len ∧ slice.len ≤ size
  ends : if slice.ended then slicer.body = [] ∧ slicer.carry = none else slice.len = size
  full : ∀ part ∈ done, part.1.flatten.length = size
  joined : (done.map (·.1.flatten)).flatten ++ (slice.chunks.flatten ++ slicer.bytes) =
    bytesOf body
  clean : Clean body ↔ Clean slicer.body

section Upload

variable {size : Nat} {body : WriteBodyStream Error} {done : List (List Bytes × String)}
  {slice : BufferedSlice} {slicer : PartSlicer Error}

theorem Uploading.uniform (uploading : Uploading size body done slice slicer)
    (drained : slicer.bytes = []) (etag : String) :
    Uniform size ((done ++ [(slice.chunks, etag)]).map (·.1.flatten)) (bytesOf body) where
  joined := by
    rw [← uploading.joined, drained]
    simp
  full := by
    intro part member
    simp only [map_append, map_cons, map_nil, dropLast_concat, mem_map] at member
    obtain ⟨sent, member, rfl⟩ := member
    exact uploading.full sent member
  last := by
    intro part final
    simp only [map_append, map_cons, map_nil, getLast?_concat, Option.some.injEq] at final
    rw [← final, ← uploading.counted]
    exact uploading.filled

variable {following : BufferedSlice} {rest : PartSlicer Error}

theorem Uploading.next (uploading : Uploading size body done slice slicer)
    (more : slice.ended = false) (next : slicer.nextPart size = .ok (following, rest))
    (filled : following.len ≠ 0) (etag : String) :
    Uploading size body (done ++ [(slice.chunks, etag)]) following rest := by
  obtain ⟨counted, joined, clean, ends⟩ := nextPart_spec next
  have sent := uploading.ends
  rw [more] at sent
  refine ⟨counted, ?_, ?_, ?_, ?_, uploading.clean.trans clean⟩
  · split at ends <;> omega
  · split
    · rename_i ended
      rw [ended] at ends
      exact ends.2
    · rename_i full
      rw [if_neg full] at ends
      exact ends
  · intro part member
    simp only [mem_append, mem_singleton] at member
    rcases member with member | rfl
    · exact uploading.full part member
    · exact uploading.counted.symm.trans sent
  · rw [← uploading.joined, ← joined]
    simp

theorem nextPart_error {error : Error} (next : slicer.nextPart size = .error error) :
    ¬ Clean slicer.body := by
  have fails : ∀ (body : WriteBodyStream Error) (chunks : List Bytes) (len : Nat),
      fillPart size chunks len body = .error error → Except.error error ∈ body := by
    intro body
    induction body with
    | nil =>
      intro chunks len filled
      cases filled
    | cons item body induction =>
      intro chunks len filled
      cases item with
      | ok chunk =>
        rw [fillPart] at filled
        split at filled
        · cases filled
        · exact mem_cons_of_mem _ (induction _ _ filled)
      | error other =>
        rw [fillPart] at filled
        split at filled
        · cases filled
        · cases filled
          exact mem_cons_self
  simp only [PartSlicer.nextPart] at next
  split at next
  · rename_i other filled
    cases next
    exact fun clean => clean _ (fails _ _ _ filled)
  · cases next

theorem uploadParts_streamed (origin : Origin Headers Error) {headers : Headers} {upload : String}
    (positive : 0 < size) (long : size ≤ (bytesOf body).length)
    (uploading : Uploading size body done slice slicer) :
    Streamed origin size headers body (origin.uploadParts size slice slicer (done.map Prod.snd)
      (⟨.create headers, .ok upload⟩ :: sentParts done)) := by
  -- Every part but the first is taken from the bytes that the slicer has still to give.
  generalize measure : slicer.bytes.length = bytes
  induction bytes using Nat.strongRecOn generalizing done slice slicer with
  | ind bytes induction =>
    rw [Origin.uploadParts]
    simp only [length_map]
    split
    · rename_i error replied
      simp only [Origin.send, replied, cons_append, append_assoc]
      have given := fun reply => @Streamed.givenUp Error Headers origin size headers body upload
        done error _ reply (.inr ⟨⟨_, _, replied⟩, slice.chunks, rfl⟩)
      simp only [append_assoc] at given
      exact given _
    · rename_i etag replied
      have sent : (⟨.create headers, .ok upload⟩ :: sentParts done ++
            [⟨.part (done.length + 1) {} slice.chunks, .ok etag⟩] : Exchanges Headers Error) =
          ⟨.create headers, .ok upload⟩ :: sentParts (done ++ [(slice.chunks, etag)]) := by
        simp [sentParts, mapIdx_append]
      have etags : done.map Prod.snd ++ [etag] =
          (done ++ [(slice.chunks, etag)]).map Prod.snd := by simp
      simp only [Origin.send, replied, sent, etags]
      split
      · rename_i ended
        have ends := uploading.ends
        rw [if_pos ended] at ends
        refine .completed upload _ _ (uploading.clean.mpr (by simp [ends.1, Clean])) long ?_ ?_
        · exact uploading.uniform (by simp [PartSlicer.bytes, ends.1, ends.2, bytesOf]) etag
        · exact ⟨_, _, rfl⟩
      · rename_i more
        split
        · rename_i error next
          have given := fun reply =>
            @Streamed.givenUp Error Headers origin size headers body upload
            (done ++ [(slice.chunks, etag)]) error [] reply
            (.inl ⟨fun clean => nextPart_error next (uploading.clean.mp clean), rfl⟩)
          simp only [append_nil] at given
          exact given _
        · rename_i following rest next
          split
          · rename_i empty
            obtain ⟨drained, clean⟩ : slicer.bytes = [] ∧ Clean slicer.body := by
              obtain ⟨counted, joined, clean, ends⟩ := nextPart_spec next
              split at ends
              · obtain ⟨-, none, nothing⟩ := ends
                have first : following.chunks.flatten = [] := eq_nil_of_length_eq_zero (by omega)
                refine ⟨?_, clean.mpr ?_⟩
                · rw [← joined, first]
                  simp [PartSlicer.bytes, none, nothing, bytesOf]
                · simp [none, Clean]
              · omega
            exact .completed upload _ _ (uploading.clean.mpr clean) long
              (uploading.uniform drained etag) ⟨_, _, rfl⟩
          · rename_i filled
            have later := uploading.next (Bool.eq_false_iff.mpr more) next filled etag
            obtain ⟨counted, joined, -, -⟩ := nextPart_spec next
            refine induction _ ?_ later rfl
            rw [← measure, ← joined, length_append]
            omega

/-- A streamed write sends the whole body in one request or in uniform parts. -/
theorem streamBody_streamed (origin : Origin Headers Error) (positive : 0 < size)
    (headers : Headers) (body : WriteBodyStream Error) :
    Streamed origin size headers body (origin.streamBody size headers body) := by
  rw [Origin.streamBody]
  split
  · rename_i error next
    exact .unread error (nextPart_error next)
  · rename_i first slicer next
    obtain ⟨counted, joined, clean, ends⟩ := nextPart_spec next
    have whole : first.chunks.flatten ++ slicer.bytes = bytesOf body := joined
    have length := congrArg length whole
    rw [length_append, ← counted] at length
    split
    · rename_i ended
      rw [if_pos ended] at ends
      obtain ⟨short, none, nothing⟩ := ends
      have drained : slicer.bytes = [] := by simp [PartSlicer.bytes, none, nothing, bytesOf]
      rw [drained, length_nil] at length
      refine .whole first.chunks _ (clean.mpr (by simp [none, Clean])) (by omega) ?_ ⟨_, _, rfl⟩
      rw [← whole, drained, append_nil]
    · rename_i more
      rw [if_neg more] at ends
      have long : size ≤ (bytesOf body).length := by omega
      split
      · rename_i error replied
        simp only [Origin.send, replied]
        exact .refused error long ⟨_, _, replied⟩
      · rename_i upload replied
        have uploading : Uploading size body [] first slicer :=
          ⟨counted, by omega, by rw [if_neg more]; exact ends, by simp, by simpa using whole, clean⟩
        have streamed := @uploadParts_streamed Error Headers size body [] first slicer origin
          headers upload positive long uploading
        simpa [Origin.send, replied, sentParts] using streamed

end Upload

/-- The length of a part. -/
def putPartSize : Nat := 8 * 1024 * 1024

/-- What a client says about an object besides its bytes. -/
structure WriteMetadata where
  checksum : Checksum := {}
  expires : Option String := none
  fields : List (String × String) := []
  deriving DecidableEq, Repr

/-- What the typed client can carry. -/
def writeAttributes (metadata : WriteMetadata) : WriteMetadata :=
  { metadata with checksum := {}, expires := none }

/-- Write over the raw client. -/
def rawPut (raw : Origin WriteMetadata Error) (metadata : WriteMetadata)
    (body : WriteBodyStream Error) : Except Error String × Exchanges WriteMetadata Error :=
  raw.streamBody putPartSize metadata body

/-- Write over the typed client, whose upload numbers the parts in the order of the calls. -/
def streamBodyToStore (store : Origin WriteMetadata Error) (metadata : WriteMetadata)
    (body : WriteBodyStream Error) : Except Error String × Exchanges WriteMetadata Error :=
  store.streamBody putPartSize (writeAttributes metadata) body

/-- The request can replace the object. -/
def Request.publishes : Request Headers → Bool
  | .put _ _ | .complete _ _ => true
  | .create _ | .part _ _ _ | .abort => false

/-- Some part was refused. -/
def PartFailed (log : Exchanges Headers Error) : Prop :=
  ∃ number checksum chunks error, ⟨.part number checksum chunks, .error error⟩ ∈ log

variable {parts : List (List Bytes × String)}

theorem mem_sentParts {exchange : Exchange Headers Error} (member : exchange ∈ sentParts parts) :
    ∃ number chunks etag, exchange = ⟨.part number {} chunks, .ok etag⟩ := by
  obtain ⟨index, bound, rfl⟩ := mem_mapIdx.mp member
  exact ⟨_, _, _, rfl⟩

variable {size : Nat}

theorem Streamed.unpublished {origin : Origin Headers Error} {headers : Headers}
    {sent : Except Error String × Exchanges Headers Error}
    (streamed : Streamed origin size headers body sent) (fails : ¬ Clean body ∨ PartFailed sent.2) :
    ∀ exchange ∈ sent.2, exchange.request.publishes = false := by
  cases streamed with
  | unread error fails => simp
  | whole chunks reply clean short joined replies =>
    rcases fails with unclean | ⟨_, _, _, _, failed⟩
    · exact absurd clean unclean
    · simp at failed
  | refused error long replies => simp [Request.publishes]
  | givenUp upload parts error failed reply why =>
    intro exchange member
    simp only [mem_cons, mem_append, mem_nil_iff, or_false] at member
    rcases member with rfl | (accepted | other) | rfl
    · rfl
    · obtain ⟨_, _, _, rfl⟩ := mem_sentParts accepted
      rfl
    · rcases why with ⟨-, rfl⟩ | ⟨-, chunks, rfl⟩
      · cases other
      · simp only [mem_singleton] at other
        rw [other]
        rfl
    · rfl
  | completed upload parts reply clean long uniform replies =>
    rcases fails with unclean | ⟨number, checksum, chunks, error, failed⟩
    · exact absurd clean unclean
    simp only [mem_cons, mem_append, mem_nil_iff, or_false, reduceCtorEq,
      Exchange.mk.injEq, false_and, false_or] at failed
    obtain ⟨_, _, _, same⟩ := mem_sentParts failed
    simp at same

/-- Both writers send the body in one request or in uniform parts and take each reply from the
origin, and send nothing that can replace the object when the stream or a part fails. -/
theorem streamed_writes_uniform (origin : Origin WriteMetadata Error) (metadata : WriteMetadata)
    (body : WriteBodyStream Error) :
    (Streamed origin putPartSize metadata body (rawPut origin metadata body) ∧
      Streamed origin putPartSize (writeAttributes metadata) body
        (streamBodyToStore origin metadata body)) ∧
    (Answered origin (rawPut origin metadata body).2 ∧
      Answered origin (streamBodyToStore origin metadata body).2) ∧
    ((¬ Clean body ∨ PartFailed (rawPut origin metadata body).2) →
      ∀ exchange ∈ (rawPut origin metadata body).2, exchange.request.publishes = false) ∧
    ((¬ Clean body ∨ PartFailed (streamBodyToStore origin metadata body).2) →
      ∀ exchange ∈ (streamBodyToStore origin metadata body).2,
        exchange.request.publishes = false) := by
  have positive : 0 < putPartSize := by decide
  have raw := streamBody_streamed origin positive metadata body
  have typed := streamBody_streamed origin positive (writeAttributes metadata) body
  exact ⟨⟨raw, typed⟩, ⟨streamBody_answered _ _, streamBody_answered _ _⟩,
    raw.unpublished, typed.unpublished⟩

/-- An origin that refuses the second part of an upload. -/
def refusesSecond : Origin WriteMetadata String
  | _, .part 2 _ _ => .error "refused"
  | _, _ => .ok "tag"

/-- A body of two full parts and one byte more. -/
def threeParts (size : Nat) : WriteBodyStream String :=
  [.ok (replicate size 0), .ok (replicate size 1), .ok [2]]

theorem nextPart_full (positive : 0 < size) {chunk : Bytes} (full : chunk.length = size)
    (next : Bytes) (body : WriteBodyStream Error) :
    PartSlicer.nextPart size ⟨.ok chunk :: .ok next :: body, none⟩ =
      .ok (⟨[chunk], size, false⟩, ⟨.ok next :: body, none⟩) := by
  simp [PartSlicer.nextPart, fillPart, BufferedSlice.trim, full, Nat.ne_of_gt positive]

theorem streamBody_refusesSecond (positive : 0 < size) (metadata : WriteMetadata) :
    refusesSecond.streamBody size metadata (threeParts size) =
      (.error "refused", [⟨.create metadata, .ok "tag"⟩,
        ⟨.part 1 {} [replicate size 0], .ok "tag"⟩,
        ⟨.part 2 {} [replicate size 1], .error "refused"⟩, ⟨.abort, .ok "tag"⟩]) := by
  rw [Origin.streamBody, threeParts, nextPart_full positive length_replicate]
  simp only [refusesSecond, Origin.send, Bool.false_eq_true, if_false]
  rw [uploadParts_more rfl rfl (nextPart_full positive length_replicate [2] [])
    (Nat.ne_of_gt positive), Origin.uploadParts]
  rfl

/-- The second part is refused: the upload is given up and nothing replaces the object. -/
theorem streamed_writes_uniform_refused :
    (rawPut refusesSecond {} (threeParts putPartSize)).2.length = 4 ∧
      ∀ exchange ∈ (rawPut refusesSecond {} (threeParts putPartSize)).2,
        exchange.request.publishes = false := by
  have sent : rawPut refusesSecond {} (threeParts putPartSize) = _ :=
    streamBody_refusesSecond (by decide) {}
  refine ⟨by rw [sent]; rfl, (streamed_writes_uniform refusesSecond {} _).2.2.1 (.inr ?_)⟩
  rw [sent]
  exact ⟨2, {}, [replicate putPartSize 1], "refused", by simp⟩

/-- Write over the raw client what the typed one would corrupt. -/
def put (pathFaithful : String → Bool) (raw : Option (Origin WriteMetadata Error))
    (store : Origin WriteMetadata Error) (unsupported : Error) (key : String)
    (metadata : WriteMetadata) (body : WriteBodyStream Error) :
    Except Error String × Exchanges WriteMetadata Error :=
  if !pathFaithful key || metadata.expires.isSome || metadata.checksum ≠ {} then
    match raw with
    | none => (.error unsupported, [])
    | some raw => rawPut raw metadata body
  else streamBodyToStore store metadata body

/-- A checksum on a request and the bytes that the origin compares it with. -/
def Request.covers (uploaded : Bytes) : Request WriteMetadata → Option (Checksum × Bytes)
  | .put metadata chunks => some (metadata.checksum, chunks.flatten)
  | .part _ checksum chunks => some (checksum, chunks.flatten)
  | .complete _ checksum => some (checksum, uploaded)
  | .create _ | .abort => none

/-- The bytes of the parts of an upload. -/
def uploaded : Exchanges WriteMetadata Error → Bytes
  | [] => []
  | ⟨.part _ _ chunks, _⟩ :: log => chunks.flatten ++ uploaded log
  | _ :: log => uploaded log

/-- The origin received a checksum together with the bytes it covers. -/
def Received (log : Exchanges WriteMetadata Error) (checksum : Checksum) (bytes : Bytes) : Prop :=
  ∃ exchange ∈ log, exchange.request.covers (uploaded log) = some (checksum, bytes)

section Checked

variable {pathFaithful : String → Bool} {store : Origin WriteMetadata Error} {unsupported : Error}
  {key : String} {metadata : WriteMetadata} {body : WriteBodyStream Error}

theorem put_of_checksum (asserted : metadata.checksum ≠ {}) (raw : Origin WriteMetadata Error) :
    put pathFaithful (some raw) store unsupported key metadata body = rawPut raw metadata body := by
  simp [put, asserted]

theorem not_received_of_upload (asserted : metadata.checksum ≠ {}) {upload : String}
    {reply : Except Error String} :
    ¬ Received (⟨.create metadata, .ok upload⟩ ::
      (sentParts parts ++ [⟨.complete (parts.map Prod.snd) {}, reply⟩]))
      metadata.checksum (bytesOf body) := by
  rintro ⟨exchange, member, covered⟩
  simp only [mem_cons, mem_append, mem_nil_iff, or_false] at member
  rcases member with rfl | accepted | rfl
  · cases covered
  · obtain ⟨_, _, _, rfl⟩ := mem_sentParts accepted
    simp only [Request.covers, Option.some.injEq, Prod.mk.injEq] at covered
    exact asserted covered.1.symm
  · simp only [Request.covers, Option.some.injEq, Prod.mk.injEq] at covered
    exact asserted covered.1.symm

/-- A long body is acknowledged although its checksum was sent with none of its bytes. -/
theorem unverified_of_long (asserted : metadata.checksum ≠ {}) (clean : Clean body)
    (long : putPartSize ≤ (bytesOf body).length) :
    ∃ etag log, put pathFaithful (some fun _ _ => .ok "tag") store unsupported key metadata body =
      (.ok etag, log) ∧ ¬ Received log metadata.checksum (bytesOf body) := by
  have streamed := @streamBody_streamed Error WriteMetadata putPartSize (fun _ _ => .ok "tag")
    (by decide) metadata body
  rw [put_of_checksum asserted, rawPut]
  generalize Origin.streamBody _ putPartSize metadata body = sent at streamed ⊢
  cases streamed with
  | unread error fails => exact absurd clean fails
  | whole chunks reply clean short joined replies => omega
  | refused error long replies =>
    obtain ⟨log, request, replied⟩ := replies
    cases replied
  | givenUp upload parts error failed reply why =>
    rcases why with ⟨unclean, -⟩ | ⟨⟨log, request, replied⟩, -⟩
    · exact absurd clean unclean
    · cases replied
  | completed upload parts reply clean long uniform replies =>
    obtain ⟨log, request, rfl⟩ := replies
    exact ⟨_, _, rfl, not_received_of_upload asserted⟩

/-- A checksummed write is verified whenever it is acknowledged, exactly when the stream fails or
the body is shorter than one part. -/
theorem checksum_verified_iff (pathFaithful : String → Bool) (unsupported : Error) (key : String)
    (metadata : WriteMetadata) (body : WriteBodyStream Error)
    (asserted : metadata.checksum ≠ {}) :
    (∀ raw store etag log,
        put pathFaithful raw store unsupported key metadata body = (.ok etag, log) →
        Received log metadata.checksum (bytesOf body)) ↔
      ¬ Clean body ∨ (bytesOf body).length < putPartSize := by
  constructor
  · intro verified
    by_contra neither
    rw [not_or, not_not, Nat.not_lt] at neither
    obtain ⟨etag, log, accepted, unverified⟩ := @unverified_of_long Error pathFaithful
      (fun _ _ => .ok "tag") unsupported key metadata body asserted neither.1 neither.2
    exact unverified (verified _ _ etag log accepted)
  · intro short raw store etag log accepted
    cases raw with
    | none => simp [put, asserted] at accepted
    | some raw =>
      rw [put_of_checksum asserted] at accepted
      have streamed := streamBody_streamed raw (show 0 < putPartSize by decide) metadata body
      rw [rawPut] at accepted
      rw [accepted] at streamed
      cases streamed with
      | whole chunks reply clean short joined replies =>
        refine ⟨_, mem_singleton_self _, ?_⟩
        simp [Request.covers, joined]
      | completed upload parts reply clean long uniform replies =>
        rcases short with unclean | short
        · exact absurd clean unclean
        · omega

end Checked

/-- A checksum of a body as long as one part is not sent with any byte of it. -/
theorem long_body_unverified :
    ∃ (metadata : WriteMetadata) (body : WriteBodyStream String) (etag : String)
      (log : Exchanges WriteMetadata String), metadata.checksum ≠ {} ∧
      put (fun _ => true) (some fun _ _ => .ok "tag") (fun _ _ => .ok "tag") "unsupported" "table"
        metadata body = (.ok etag, log) ∧
      ¬ Received log metadata.checksum (bytesOf body) := by
  have asserted : ({ checksum := { sha256 := some "0" } } : WriteMetadata).checksum ≠ {} := by
    decide
  obtain ⟨etag, log, accepted, unverified⟩ := @unverified_of_long String (fun _ => true)
    (fun _ _ => .ok "tag") "unsupported" "table" _ [.ok (replicate putPartSize 0)] asserted
    (by simp [Clean]) (by simp [bytesOf])
  exact ⟨_, _, etag, log, asserted, accepted, unverified⟩

theorem checksum_verified_iff_short :
    (bytesOf [(.ok [0] : Except String Bytes)]).length < putPartSize ∧ ∀ raw store etag log,
      put (fun _ => true) raw store "unsupported" "table" { checksum := { crc32 := some "0" } }
        [.ok [0]] = (.ok etag, log) →
      Received log { crc32 := some "0" } [0] :=
  ⟨by decide, (checksum_verified_iff (fun _ => true) "unsupported" "table"
    { checksum := { crc32 := some "0" } } [.ok [0]] (by decide)).mpr (.inr (by decide))⟩

end Verglas.S3
