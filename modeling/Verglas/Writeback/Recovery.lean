import Mathlib.Data.List.Induction
import Verglas.Writeback.Journal

/-!
# Recovery after a crash

A node that restarts opens its journal files, rebuilds the dirty index and uploads every object that
the index names.  Several dirty journals may share an origin key, because a small object stays
buffered after the lock of its key is released.  This file says exactly when the recovery ends with
the newest acknowledged body of every key at the origin.
-/

namespace Verglas.Writeback

open List JournalStore OrderedMap Function

/-- A journal that cannot be opened. -/
inductive WritebackError where
  | invalidJournal (message : String)
  deriving DecidableEq, Repr

/-- The journals of a node and the objects of its origins. -/
structure RecoveringNode where
  journals : JournalStore
  origin : CacheKey → Option Bytes

section Upload

variable (contents : String → Bytes)

/-- Reassemble one dirty object, upload it to its own key, mark its journal clean and delete it. -/
def bypassUploadOnce (objectId : String) (node : RecoveringNode) :
    Except WritebackError RecoveringNode :=
  match node.journals.read objectId with
  | none => .ok node
  | some journal =>
    if journal.state = .clean then .ok node
    else if journal.storageBindingId = "" then
      .error (.invalidJournal (journal.objectId ++
        " has no storage binding; run the explicit journal migration"))
    else
      .ok
        { journals := (node.journals.markClean objectId).delete objectId
          origin := update node.origin journal.indexKey (some (contents objectId)) }

/-- Upload with bounded retries; after the last failure the journal stays for a later run. -/
def bypassUploadWithRetry (objectId : String) : Nat → RecoveringNode → RecoveringNode
  | 0, node => node
  | attempts + 1, node =>
    match bypassUploadOnce contents objectId node with
    | .ok uploaded => uploaded
    | .error _ => bypassUploadWithRetry objectId attempts node

/-- Upload an object whose journal is still there. -/
def resumeObject (node : RecoveringNode) (objectId : String) : RecoveringNode :=
  match node.journals.read objectId with
  | none => node
  | some _ => bypassUploadWithRetry contents objectId propagationAttempts node

/-- The spawned tasks, one after the other in some order. -/
def resumePropagation (order : List String) (node : RecoveringNode) : RecoveringNode :=
  order.foldl (resumeObject contents) node

end Upload

section Opening

theorem openJournal_none (opened : JournalStore × Nat) (journal : Journal) :
    openJournal none opened journal =
      (if journal.state = .dirty then opened.1.insertIndex journal else opened.1, opened.2) := by
  simp only [openJournal]
  split <;> rfl

theorem files_openStore (files : OrderedMap String Journal) : (openStore files).files = files := by
  have general : ∀ (journals : List Journal) (opened : JournalStore × Nat),
      (journals.foldl (openJournal none) opened).1.files = opened.1.files := by
    intro journals
    induction journals with
    | nil => intro opened; rfl
    | cons journal rest induction =>
      intro opened
      rw [foldl_cons, induction, openJournal_none]
      split <;> rfl
  exact general _ _

/-- The dirty journals of a key. -/
def dirtyFor (key : CacheKey) (journals : List Journal) : List Journal :=
  journals.filter fun journal => journal.state = .dirty ∧ journal.indexKey = key

/-- The index names the dirty journal with the greatest object id of each key. -/
theorem holder_openStore (files : OrderedMap String Journal) (key : CacheKey) :
    (openStore files).dirty.holder key =
      ((dirtyFor key files.values).getLast?).map Journal.objectId := by
  have general : ∀ (journals : List Journal) (opened : JournalStore × Nat),
      (journals.foldl (openJournal none) opened).1.dirty.holder key =
        ((dirtyFor key journals).getLast?.map Journal.objectId).or
          (opened.1.dirty.holder key) := by
    intro journals
    induction journals with
    | nil => intro opened; rfl
    | cons journal rest induction =>
      intro opened
      rw [foldl_cons, induction, openJournal_none]
      by_cases selected : journal.state = .dirty ∧ journal.indexKey = key
      · have first : dirtyFor key (journal :: rest) = journal :: dirtyFor key rest := by
          simp [dirtyFor, selected]
        rw [first, getLast?_cons]
        cases (dirtyFor key rest).getLast? with
        | some last => rfl
        | none =>
          simp only [selected.1, if_true, Option.getD_none]
          rw [← selected.2]
          exact DirtyIndex.holder_insert_self _ _ _
      · have skipped : dirtyFor key (journal :: rest) = dirtyFor key rest := by
          simp only [dirtyFor, filter_cons, decide_eq_true_eq, if_neg selected]
        rw [skipped]
        cases (dirtyFor key rest).getLast? with
        | some last => rfl
        | none =>
          split
          · rename_i dirty
            exact DirtyIndex.holder_insert_of_ne _ _ fun equal => selected ⟨dirty, equal.symm⟩
          · rfl
  rw [openStore, openInner, general, list]
  cases (dirtyFor key files.values).getLast? with
  | some last => rfl
  | none => exact DirtyIndex.holder_empty key

end Opening

section OneUpload

variable {contents : String → Bytes} {node : RecoveringNode} {objectId : String} {journal : Journal}

theorem resumeObject_of_bound (found : node.journals.read objectId = some journal)
    (dirty : journal.state = .dirty) (bound : journal.storageBindingId ≠ "") :
    resumeObject contents node objectId =
      { journals := (node.journals.markClean objectId).delete objectId
        origin := update node.origin journal.indexKey (some (contents objectId)) } := by
  have once : bypassUploadOnce contents objectId node = .ok
      { journals := (node.journals.markClean objectId).delete objectId
        origin := update node.origin journal.indexKey (some (contents objectId)) } := by
    simp only [bypassUploadOnce, found, dirty, reduceCtorEq, if_false, if_neg bound]
  simp only [resumeObject, found, propagationAttempts, bypassUploadWithRetry, once]

theorem resumeObject_of_unbound (found : node.journals.read objectId = some journal)
    (dirty : journal.state = .dirty) (unbound : journal.storageBindingId = "") :
    resumeObject contents node objectId = node := by
  have stuck : ∀ attempts, bypassUploadWithRetry contents objectId attempts node = node := by
    intro attempts
    induction attempts with
    | zero => rfl
    | succ attempts induction =>
      simp only [bypassUploadWithRetry, bypassUploadOnce, found, dirty, reduceCtorEq, if_false,
        if_pos unbound, induction]
  simp only [resumeObject, found, stuck]

theorem resumeObject_of_missing (missing : node.journals.read objectId = none) :
    resumeObject contents node objectId = node := by
  simp only [resumeObject, missing]

theorem resumeObject_of_clean (found : node.journals.read objectId = some journal)
    (clean : journal.state = .clean) : resumeObject contents node objectId = node := by
  simp only [resumeObject, found, propagationAttempts, bypassUploadWithRetry, bypassUploadOnce,
    clean, if_true]

/-- Files are stored under the object id that they name. -/
def FilesNamed (store : JournalStore) : Prop :=
  ∀ objectId journal, store.read objectId = some journal → journal.objectId = objectId

variable {other : String}

theorem read_resumeObject_of_ne (named : FilesNamed node.journals) (ne : other ≠ objectId) :
    (resumeObject contents node objectId).journals.read other = node.journals.read other := by
  cases found : node.journals.read objectId with
  | none => rw [resumeObject_of_missing found]
  | some journal =>
    cases state : journal.state with
    | clean => rw [resumeObject_of_clean found state]
    | dirty =>
      by_cases bound : journal.storageBindingId = ""
      · rw [resumeObject_of_unbound found state bound]
      · rw [resumeObject_of_bound found state bound, read_retire found (named _ _ found), if_neg ne]

theorem FilesNamed.resumeObject (named : FilesNamed node.journals) (objectId : String) :
    FilesNamed (resumeObject contents node objectId).journals := by
  intro other journal found
  by_cases same : other = objectId
  · subst same
    cases before : node.journals.read other with
    | none =>
      rw [resumeObject_of_missing before] at found
      exact named _ _ found
    | some old =>
      cases state : old.state with
      | clean =>
        rw [resumeObject_of_clean before state] at found
        exact named _ _ found
      | dirty =>
        by_cases bound : old.storageBindingId = ""
        · rw [resumeObject_of_unbound before state bound] at found
          exact named _ _ found
        · rw [resumeObject_of_bound before state bound,
            read_retire before (named _ _ before), if_pos rfl] at found
          cases found
  · rw [read_resumeObject_of_ne named same] at found
    exact named _ _ found

theorem read_resumePropagation_of_not_mem {order : List String} (named : FilesNamed node.journals)
    (unvisited : other ∉ order) :
    (resumePropagation contents order node).journals.read other = node.journals.read other := by
  induction order generalizing node with
  | nil => rfl
  | cons objectId rest induction =>
    obtain ⟨ne, later⟩ := not_or.mp (mt mem_cons.mpr unvisited)
    exact (induction (named.resumeObject objectId) later).trans (read_resumeObject_of_ne named ne)

end OneUpload

section Crash

variable {contents : String → Bytes} {origin : CacheKey → Option Bytes} {journals : List Journal}

/-- The files that hold the given journals. -/
def filesOf (journals : List Journal) : OrderedMap String Journal :=
  .ofList (journals.map fun journal => (journal.objectId, journal))

/-- A node restarted on these journals. -/
def reopened (journals : List Journal) (origin : CacheKey → Option Bytes) : RecoveringNode :=
  ⟨openStore (filesOf journals), origin⟩

variable {objectId : String} {journal : Journal} {key : CacheKey}

section Reopened

variable (distinct : (journals.map Journal.objectId).Nodup)

include distinct

theorem read_reopened :
    (reopened journals origin).journals.read objectId = some journal ↔
      journal ∈ journals ∧ journal.objectId = objectId := by
  have nodup : ((journals.map fun journal => (journal.objectId, journal)).map Prod.fst).Nodup := by
    rwa [map_map]
  rw [JournalStore.read, reopened, files_openStore, filesOf, get_ofList_eq_some_iff nodup]
  simp only [mem_map, Prod.mk.injEq]
  constructor
  · rintro ⟨other, member, named, rfl⟩
    exact ⟨member, named⟩
  · rintro ⟨member, named⟩
    exact ⟨journal, member, named, rfl⟩

theorem filesNamed_reopened :
    FilesNamed (reopened journals origin).journals :=
  fun _ _ found => ((read_reopened distinct).mp found).2

theorem mem_values_filesOf :
    journal ∈ (filesOf journals).values ↔ journal ∈ journals := by
  have nodup : ((journals.map fun journal => (journal.objectId, journal)).map Prod.fst).Nodup := by
    rwa [map_map]
  rw [values, mem_map]
  constructor
  · rintro ⟨⟨objectId, found⟩, member, rfl⟩
    have bound := (get_ofList_eq_some_iff nodup).mp (get_eq_some_iff.mpr member)
    obtain ⟨other, listed, equal⟩ := mem_map.mp bound
    cases equal
    exact listed
  · intro member
    refine ⟨(journal.objectId, journal), get_eq_some_iff.mp ?_, rfl⟩
    exact (get_ofList_eq_some_iff nodup).mpr (mem_map.mpr ⟨journal, member, rfl⟩)

theorem holder_reopened_of_dirty
    (held : (reopened journals origin).journals.dirty.holder key = some objectId) :
    ∃ journal ∈ journals, journal.state = .dirty ∧ journal.indexKey = key ∧
      journal.objectId = objectId := by
  rw [reopened, holder_openStore, Option.map_eq_some_iff] at held
  obtain ⟨journal, last, named⟩ := held
  obtain ⟨member, selected⟩ := mem_filter.mp (mem_of_getLast? last)
  obtain ⟨dirty, key_eq⟩ := of_decide_eq_true selected
  exact ⟨journal, (mem_values_filesOf distinct).mp member, dirty, key_eq, named⟩

theorem exists_holder_reopened (member : journal ∈ journals) (dirty : journal.state = .dirty) :
    ∃ objectId, (reopened journals origin).journals.dirty.holder journal.indexKey =
      some objectId := by
  rw [reopened, holder_openStore]
  have listed : journal ∈ dirtyFor journal.indexKey (filesOf journals).values :=
    mem_filter.mpr ⟨(mem_values_filesOf distinct).mpr member, by simp [dirty]⟩
  cases last : (dirtyFor journal.indexKey (filesOf journals).values).getLast? with
  | some found => exact ⟨found.objectId, rfl⟩
  | none =>
    rw [getLast?_eq_none_iff.mp last] at listed
    cases listed

end Reopened

/-- What recovery owes a key whose newest acknowledged dirty journal is `newest`: its body at the
origin and every dirty journal of the key cleaned in the end, and until its upload the index naming
it. -/
structure Replayed (contents : String → Bytes) (journals : List Journal) (start : RecoveringNode)
    (order : List String) (key : CacheKey) (newest : Journal) : Prop where
  uploaded : (resumePropagation contents order start).origin key =
    some (contents newest.objectId)
  cleaned : ∀ journal ∈ dirtyFor key journals, ∀ left,
    (resumePropagation contents order start).journals.read journal.objectId = some left →
      left.state = .clean
  named : ∀ front back, order = front ++ back →
    (∀ left, (resumePropagation contents front start).journals.read newest.objectId = some left →
      left.state = .clean) ∨
    (resumePropagation contents front start).journals.findDirty key = some newest.objectId

/-- Every key has one dirty journal at most, and each dirty journal names its binding. -/
structure Recoverable (journals : List Journal) : Prop where
  single : ∀ key, (dirtyFor key journals).length ≤ 1
  bound : ∀ journal ∈ journals, journal.state = .dirty → journal.storageBindingId ≠ ""

theorem mem_dirtyFor :
    journal ∈ dirtyFor key journals ↔
      journal ∈ journals ∧ journal.state = .dirty ∧ journal.indexKey = key := by
  rw [dirtyFor, mem_filter, decide_eq_true_eq]

theorem Recoverable.eq_of_indexKey_eq (recoverable : Recoverable journals) {left right : Journal}
    (left_mem : left ∈ journals) (right_mem : right ∈ journals) (left_dirty : left.state = .dirty)
    (right_dirty : right.state = .dirty) (same : left.indexKey = right.indexKey) :
    left = right := by
  have bound := recoverable.single right.indexKey
  have first := mem_dirtyFor.mpr ⟨left_mem, left_dirty, same⟩
  have second := mem_dirtyFor.mpr ⟨right_mem, right_dirty, rfl⟩
  match listed : dirtyFor right.indexKey journals with
  | [] =>
    rw [listed] at first
    cases first
  | [only] =>
    rw [listed, mem_singleton] at first second
    rw [first, second]
  | _ :: _ :: _ =>
    rw [listed] at bound
    simp at bound

/-- How far recovery has come: visited objects are at their origin and gone, the others are dirty
and named by the index. -/
structure Progress (contents : String → Bytes) (journals : List Journal) (visited : List String)
    (node : RecoveringNode) : Prop where
  waiting : ∀ journal ∈ journals, journal.state = .dirty → journal.objectId ∉ visited →
    node.journals.read journal.objectId = some journal ∧
      node.journals.dirty.holder journal.indexKey = some journal.objectId
  done : ∀ journal ∈ journals, journal.state = .dirty → journal.objectId ∈ visited →
    node.journals.read journal.objectId = none ∧
      node.origin journal.indexKey = some (contents journal.objectId)

theorem progress_reopened (distinct : (journals.map Journal.objectId).Nodup)
    (recoverable : Recoverable journals) :
    Progress contents journals [] (reopened journals origin) where
  waiting journal member dirty _ := by
    refine ⟨(read_reopened distinct).mpr ⟨member, rfl⟩, ?_⟩
    obtain ⟨objectId, held⟩ := @exists_holder_reopened origin journals _ distinct member dirty
    obtain ⟨other, other_mem, other_dirty, key_eq, named⟩ := holder_reopened_of_dirty distinct held
    rw [held, ← named, recoverable.eq_of_indexKey_eq other_mem member other_dirty dirty key_eq]
  done _ _ _ visited := by cases visited

theorem Progress.step {visited : List String} {node : RecoveringNode}
    (distinct : (journals.map Journal.objectId).Nodup) (recoverable : Recoverable journals)
    (progress : Progress contents journals visited node) (member : journal ∈ journals)
    (dirty : journal.state = .dirty) :
    Progress contents journals (visited ++ [journal.objectId])
      (resumeObject contents node journal.objectId) := by
  have injective : ∀ other ∈ journals, other.objectId = journal.objectId → other = journal :=
    fun other other_mem same => inj_on_of_nodup_map distinct other_mem member same
  by_cases again : journal.objectId ∈ visited
  · rw [resumeObject_of_missing (progress.done journal member dirty again).1]
    constructor
    · intro other other_mem other_dirty unvisited
      exact progress.waiting other other_mem other_dirty
        fun listed => unvisited (mem_append_left _ listed)
    · intro other other_mem other_dirty listed
      rcases mem_append.mp listed with earlier | last
      · exact progress.done other other_mem other_dirty earlier
      · rw [injective other other_mem (mem_singleton.mp last)]
        exact progress.done journal member dirty again
  · obtain ⟨found, held⟩ := progress.waiting journal member dirty again
    rw [resumeObject_of_bound found dirty (recoverable.bound journal member dirty)]
    constructor
    · intro other other_mem other_dirty unvisited
      obtain ⟨earlier, last⟩ := not_or.mp (mt mem_append.mpr unvisited)
      have ne : other.objectId ≠ journal.objectId := fun same => last (by simp [same])
      have key_ne : other.indexKey ≠ journal.indexKey := fun same =>
        ne (congrArg Journal.objectId
          (recoverable.eq_of_indexKey_eq other_mem member other_dirty dirty same))
      obtain ⟨other_found, other_held⟩ := progress.waiting other other_mem other_dirty earlier
      refine ⟨?_, ?_⟩
      · rw [read_retire found rfl, if_neg ne, other_found]
      · rw [holder_retire found rfl, if_neg fun both => key_ne both.1, other_held]
    · intro other other_mem other_dirty listed
      by_cases same : other.objectId = journal.objectId
      · rw [injective other other_mem same]
        refine ⟨?_, update_self _ _ _⟩
        rw [read_retire found rfl, if_pos rfl]
      · have earlier : other.objectId ∈ visited := by
          rcases mem_append.mp listed with earlier | last
          · exact earlier
          · exact absurd (mem_singleton.mp last) same
        have key_ne : other.indexKey ≠ journal.indexKey := fun equal =>
          same (congrArg Journal.objectId
            (recoverable.eq_of_indexKey_eq other_mem member other_dirty dirty equal))
        obtain ⟨gone, placed⟩ := progress.done other other_mem other_dirty earlier
        refine ⟨?_, ?_⟩
        · rw [read_retire found rfl, if_neg same, gone]
        · exact (update_of_ne key_ne _ _).trans placed

theorem progress_resumePropagation (distinct : (journals.map Journal.objectId).Nodup)
    (recoverable : Recoverable journals) {visited : List String}
    (listed : ∀ objectId ∈ visited, ∃ journal ∈ journals, journal.state = .dirty ∧
      journal.objectId = objectId) :
    Progress contents journals visited
      (resumePropagation contents visited (reopened journals origin)) := by
  induction visited using reverseRecOn with
  | nil => exact progress_reopened distinct recoverable
  | append_singleton visited objectId induction =>
    have earlier := induction fun other member => listed other (mem_append_left _ member)
    obtain ⟨journal, member, dirty, rfl⟩ := listed objectId (by simp)
    rw [resumePropagation, foldl_concat]
    exact earlier.step distinct recoverable member dirty

theorem exists_newest (member : journal ∈ journals) (dirty : journal.state = .dirty) :
    ∃ newest, (dirtyFor journal.indexKey journals).getLast? = some newest := by
  have listed := mem_dirtyFor.mpr ⟨member, dirty, rfl⟩
  exact ⟨_, getLast?_eq_some_getLast (ne_nil_of_mem listed)⟩

theorem read_resumePropagation_of_unbound {node : RecoveringNode} (named : FilesNamed node.journals)
    (found : node.journals.read objectId = some journal) (dirty : journal.state = .dirty)
    (unbound : journal.storageBindingId = "") (order : List String) :
    (resumePropagation contents order node).journals.read objectId = some journal := by
  induction order generalizing node with
  | nil => exact found
  | cons visited rest induction =>
    refine induction (named.resumeObject visited) ?_
    by_cases same : objectId = visited
    · subst same
      rw [resumeObject_of_unbound found dirty unbound, found]
    · rw [read_resumeObject_of_ne named same, found]

theorem length_dirtyFor_of_held (distinct : (journals.map Journal.objectId).Nodup)
    (held : ∀ journal ∈ journals, journal.state = .dirty →
      (reopened journals origin).journals.dirty.holder journal.indexKey = some journal.objectId)
    (key : CacheKey) : (dirtyFor key journals).length ≤ 1 := by
  have nodup : (dirtyFor key journals).Nodup := (List.Nodup.of_map _ distinct).filter _
  match listed : dirtyFor key journals with
  | [] => simp
  | [_] => simp
  | first :: second :: rest =>
    obtain ⟨first_mem, first_dirty, first_key⟩ :=
      mem_dirtyFor.mp (listed ▸ mem_cons_self : first ∈ dirtyFor key journals)
    obtain ⟨second_mem, second_dirty, second_key⟩ :=
      mem_dirtyFor.mp (listed ▸ by simp : second ∈ dirtyFor key journals)
    have first_held := held first first_mem first_dirty
    rw [first_key, ← second_key, held second second_mem second_dirty, Option.some.injEq]
      at first_held
    have same := inj_on_of_nodup_map distinct second_mem first_mem first_held
    rw [listed, same] at nodup
    simp at nodup

/-- Recovery ends with the newest acknowledged body of every key exactly when every key has one
dirty journal at most and each dirty journal names its binding. -/
theorem recovery_replays_newest_iff (contents : String → Bytes) (origin : CacheKey → Option Bytes)
    (distinct : (journals.map Journal.objectId).Nodup) :
    (∀ order, order.Perm (reopened journals origin).journals.dirtyObjectIds →
      ∀ key newest, (dirtyFor key journals).getLast? = some newest →
        Replayed contents journals (reopened journals origin) order key newest) ↔
      Recoverable journals := by
  constructor
  · intro replayed
    have held : ∀ journal ∈ journals, journal.state = .dirty →
        (reopened journals origin).journals.dirty.holder journal.indexKey =
          some journal.objectId := by
      intro journal member dirty
      by_contra other
      obtain ⟨newest, last⟩ := exists_newest member dirty
      have unvisited : journal.objectId ∉ (reopened journals origin).journals.dirtyObjectIds := by
        intro visited
        obtain ⟨key, held⟩ := DirtyIndex.mem_objectIds.mp visited
        obtain ⟨found, found_mem, _, rfl, named⟩ := holder_reopened_of_dirty distinct held
        rw [inj_on_of_nodup_map distinct found_mem member named] at held
        exact other held
      have left : (resumePropagation contents (reopened journals origin).journals.dirtyObjectIds
          (reopened journals origin)).journals.read journal.objectId = some journal := by
        rw [read_resumePropagation_of_not_mem (filesNamed_reopened distinct) unvisited]
        exact (read_reopened distinct).mpr ⟨member, rfl⟩
      have clean := (replayed _ (.refl _) _ newest last).cleaned journal
        (mem_dirtyFor.mpr ⟨member, dirty, rfl⟩) journal left
      rw [dirty] at clean
      cases clean
    refine ⟨length_dirtyFor_of_held distinct held, fun journal member dirty unbound => ?_⟩
    obtain ⟨newest, last⟩ := exists_newest member dirty
    have left : (resumePropagation contents (reopened journals origin).journals.dirtyObjectIds
        (reopened journals origin)).journals.read journal.objectId = some journal :=
      read_resumePropagation_of_unbound (filesNamed_reopened distinct)
        ((read_reopened distinct).mpr ⟨member, rfl⟩) dirty unbound _
    have clean := (replayed _ (.refl _) _ newest last).cleaned journal
      (mem_dirtyFor.mpr ⟨member, dirty, rfl⟩) journal left
    rw [dirty] at clean
    cases clean
  · intro recoverable order perm key newest last
    obtain ⟨member, dirty, rfl⟩ := mem_dirtyFor.mp (mem_of_getLast? last)
    have listed : ∀ objectId ∈ order, ∃ journal ∈ journals, journal.state = .dirty ∧
        journal.objectId = objectId := by
      intro objectId visited
      obtain ⟨key, held⟩ := DirtyIndex.mem_objectIds.mp (perm.mem_iff.mp visited)
      obtain ⟨journal, journal_mem, journal_dirty, _, named⟩ :=
        holder_reopened_of_dirty distinct held
      exact ⟨journal, journal_mem, journal_dirty, named⟩
    have visited : newest.objectId ∈ order := by
      have start : Progress contents journals [] (reopened journals origin) :=
        progress_reopened distinct recoverable
      have named := (start.waiting newest member dirty not_mem_nil).2
      exact perm.mem_iff.mpr (DirtyIndex.mem_objectIds.mpr ⟨_, named⟩)
    have finished : Progress contents journals order
        (resumePropagation contents order (reopened journals origin)) :=
      progress_resumePropagation distinct recoverable listed
    refine ⟨(finished.done newest member dirty visited).2, ?_, ?_⟩
    · intro journal journal_mem left found
      obtain ⟨other_mem, other_dirty, same⟩ := mem_dirtyFor.mp journal_mem
      rw [recoverable.eq_of_indexKey_eq other_mem member other_dirty dirty same,
        (finished.done newest member dirty visited).1] at found
      cases found
    · intro front back split_eq
      have reached : Progress contents journals front
          (resumePropagation contents front (reopened journals origin)) :=
        progress_resumePropagation distinct recoverable fun objectId front_mem =>
          listed objectId (split_eq ▸ mem_append_left _ front_mem)
      by_cases uploaded : newest.objectId ∈ front
      · left
        intro left found
        rw [(reached.done newest member dirty uploaded).1] at found
        cases found
      · right
        rw [findDirty_eq_holder]
        exact (reached.waiting newest member dirty uploaded).2

def olderId : String := "f1a20c5d8e4b7f9036d1c2a5b8e7f401"

/-- Object id of a newer write, smaller than the older one. -/
def newerId : String := "0c9d4e7a1b3f52688d0e6c4a2b1f7e93"

/-- Two acknowledged bodies of one key, in the order of their acknowledgements. -/
def twicePut : List Journal :=
  [⟨olderId, "default", "lake", "daily.parquet", 3, .dirty, []⟩,
    ⟨newerId, "default", "lake", "daily.parquet", 3, .dirty, []⟩]

def twicePutContents (objectId : String) : Bytes :=
  if objectId = olderId then [1, 1, 1] else [2, 2, 2]

/-- The index names the older write, recovery uploads it, and the newer one stays dirty. -/
theorem recovery_replays_older_write :
    let start := reopened twicePut fun _ => none
    let final := resumePropagation twicePutContents start.journals.dirtyObjectIds start
    start.journals.findDirty ⟨"default", "lake", "daily.parquet"⟩ = some olderId ∧
      final.origin ⟨"default", "lake", "daily.parquet"⟩ = some [1, 1, 1] ∧
      (final.journals.read newerId).map Journal.state = some .dirty ∧
      final.journals.findDirty ⟨"default", "lake", "daily.parquet"⟩ = none := by
  decide +kernel

/-- Single dirty journals of two keys are both replayed. -/
theorem recovery_replays_newest_iff_single :
    let journals : List Journal :=
      [⟨olderId, "default", "lake", "daily.parquet", 3, .dirty, []⟩,
        ⟨newerId, "default", "lake", "hourly.parquet", 3, .dirty, []⟩]
    let start := reopened journals fun _ => none
    (resumePropagation twicePutContents start.journals.dirtyObjectIds start).origin
      ⟨"default", "lake", "hourly.parquet"⟩ = some [2, 2, 2] := by
  intro journals start
  have recoverable : Recoverable journals := by
    refine ⟨fun key => ?_, by decide⟩
    by_cases daily : ⟨"default", "lake", "daily.parquet"⟩ = key
    · subst daily
      decide
    · have few : (dirtyFor key journals.tail).length ≤ 1 := length_filter_le _ _
      simpa [dirtyFor, journals, Journal.indexKey, daily] using few
  exact ((recovery_replays_newest_iff twicePutContents (fun _ => none) (by decide)).mpr
    recoverable _ (.refl _) ⟨"default", "lake", "hourly.parquet"⟩
    ⟨newerId, "default", "lake", "hourly.parquet", 3, .dirty, []⟩ (by decide)).uploaded

end Crash

end Verglas.Writeback
