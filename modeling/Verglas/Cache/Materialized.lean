import Mathlib.Algebra.GroupWithZero.Nat
import Mathlib.Tactic.Common

/-!
# Materialized pages

Reconstructed database pages share the block cache of a node.  The identity of a page is written out
as the key of an object, its fields one after the other with slashes between them, and the LSN is
the version of the object.  The fields come from the path of a request, where an encoded slash is a
character like any other.
-/

namespace Verglas.Cache

open List Function

abbrev Text := List Char

/-- The last digits of a number, in lower-case hexadecimal. -/
def lowerHexDigits : (width value : Nat) → Text
  | 0, _ => []
  | width + 1, value => lowerHexDigits width (value / 16) ++ [Nat.digitChar (value % 16)]

/-- The identity of a page image. -/
structure MaterializedPageKey where
  tenantShardId : Text
  timelineId : Text
  spcnode : Fin (2 ^ 32)
  dbnode : Fin (2 ^ 32)
  relnode : Fin (2 ^ 32)
  forknum : Fin (2 ^ 8)
  block : Fin (2 ^ 32)
  lsn : Fin (2 ^ 64)
  deriving DecidableEq

/-- The block key that a page image is cached under. -/
structure PageBlockKey where
  storageBindingId : Text
  bucket : Text
  key : Text
  etag : Text
  blockBytes : Nat
  blockIndex : Nat
  deriving DecidableEq

def join (front name : Text) : Text := front ++ '/' :: name

def decimal (value : Nat) : Text := Nat.toDigits 10 value

namespace MaterializedPageKey

/-- `MaterializedPageKey::path`. -/
def path (key : MaterializedPageKey) : Text :=
  join (join (join (join (join (join key.tenantShardId key.timelineId) (decimal key.spcnode))
    (decimal key.dbnode)) (decimal key.relnode)) (decimal key.forknum)) (decimal key.block)

/-- The block key of a page: all its fields but the LSN are in the path. -/
def blockKey (key : MaterializedPageKey) : PageBlockKey where
  storageBindingId := "@verglas-neon-pages".toList
  bucket := "@verglas-neon-pages".toList
  key := key.path
  etag := lowerHexDigits 16 key.lsn
  blockBytes := 8192
  blockIndex := 0

/-- The tenant of a request names no path. -/
def Plain (key : MaterializedPageKey) : Prop := '/' ∉ key.tenantShardId

instance : DecidablePred Plain := fun key => inferInstanceAs (Decidable ('/' ∉ key.tenantShardId))

end MaterializedPageKey

theorem lowerHexDigits_inj {width left right : Nat}
    (same : lowerHexDigits width left = lowerHexDigits width right) :
    left % 16 ^ width = right % 16 ^ width := by
  induction width generalizing left right with
  | zero => simp [Nat.mod_one]
  | succ width induction =>
    have table : ∀ left < 16, ∀ right < 16, Nat.digitChar left = Nat.digitChar right →
        left = right := by decide
    obtain ⟨front, last⟩ := append_inj' same rfl
    have high := induction front
    have low := table _ (Nat.mod_lt _ (by decide)) _ (Nat.mod_lt _ (by decide))
      (singleton_inj.mp last)
    rw [Nat.pow_succ, Nat.mul_comm, Nat.mod_mul, Nat.mod_mul, high, low]

theorem decimal_plain (value : Nat) : '/' ∉ decimal value := by
  intro member
  have digit := Nat.isDigit_of_mem_toDigits (by decide) (by decide) member
  exact absurd digit (by decide)

theorem decimal_inj {left right : Nat} (same : decimal left = decimal right) : left = right := by
  have read := congrArg (Nat.ofDigitChars 10 · 0) same
  simpa [decimal, Nat.ofDigitChars_toDigits] using read

theorem join_inj_of_first {front other name last : Text} (plain : '/' ∉ front)
    (plain_other : '/' ∉ other) (same : join front name = join other last) :
    front = other ∧ name = last := by
  induction front generalizing other with
  | nil =>
    cases other with
    | nil => simpa [join] using same
    | cons char other =>
      simp only [join, nil_append, cons_append, cons.injEq] at same
      simp [← same.1] at plain_other
  | cons char front induction =>
    cases other with
    | nil =>
      simp only [join, nil_append, cons_append, cons.injEq] at same
      simp [same.1] at plain
    | cons next other =>
      simp only [join, cons_append, cons.injEq] at same
      simp only [mem_cons, not_or] at plain plain_other
      obtain ⟨rfl, rfl⟩ := induction plain.2 plain_other.2 same.2
      exact ⟨by rw [same.1], rfl⟩

theorem join_inj_of_last {front other name last : Text} (plain : '/' ∉ name)
    (plain_last : '/' ∉ last) (same : join front name = join other last) :
    front = other ∧ name = last := by
  have turned : join name.reverse front.reverse = join last.reverse other.reverse := by
    simpa [join] using congrArg reverse same
  obtain ⟨names, fronts⟩ := join_inj_of_first (by simpa using plain) (by simpa using plain_last)
    turned
  exact ⟨reverse_inj.mp fronts, reverse_inj.mp names⟩

theorem MaterializedPageKey.blockKey_inj {left right : MaterializedPageKey} (plain : left.Plain)
    (plain_right : right.Plain) (same : left.blockKey = right.blockKey) : left = right := by
  have paths : left.path = right.path := congrArg PageBlockKey.key same
  have etags : lowerHexDigits 16 left.lsn = lowerHexDigits 16 right.lsn :=
    congrArg PageBlockKey.etag same
  obtain ⟨paths, block⟩ := join_inj_of_last (decimal_plain _) (decimal_plain _) paths
  obtain ⟨paths, forknum⟩ := join_inj_of_last (decimal_plain _) (decimal_plain _) paths
  obtain ⟨paths, relnode⟩ := join_inj_of_last (decimal_plain _) (decimal_plain _) paths
  obtain ⟨paths, dbnode⟩ := join_inj_of_last (decimal_plain _) (decimal_plain _) paths
  obtain ⟨paths, spcnode⟩ := join_inj_of_last (decimal_plain _) (decimal_plain _) paths
  obtain ⟨tenant, timeline⟩ := join_inj_of_first plain plain_right paths
  have short : ∀ lsn : Fin (2 ^ 64), lsn.val < 16 ^ 16 :=
    fun lsn => Nat.lt_of_lt_of_eq lsn.isLt (by decide)
  have lsn := lowerHexDigits_inj etags
  rw [Nat.mod_eq_of_lt (short _), Nat.mod_eq_of_lt (short _)] at lsn
  cases left
  cases right
  simp only [mk.injEq]
  exact ⟨tenant, timeline, Fin.ext (decimal_inj spcnode), Fin.ext (decimal_inj dbnode),
    Fin.ext (decimal_inj relnode), Fin.ext (decimal_inj forknum), Fin.ext (decimal_inj block),
    Fin.ext lsn⟩

variable {Node Page : Type*}

/-- The block stores of the nodes, and the pages admitted so far. -/
structure PageCaches (Node Page : Type*) where
  /-- What a node holds of a block under a generation. -/
  stores : Node × PageBlockKey × Nat → Option Page := fun _ => none
  puts : List (MaterializedPageKey × Page) := []

/-- A put, or a get with its answer. -/
inductive PageRequest (Page : Type*) where
  | put (key : MaterializedPageKey) (page : Page)
  | get (key : MaterializedPageKey) (answer : Option Page)

def PageRequest.key : PageRequest Page → MaterializedPageKey
  | .put key _ | .get key _ => key

namespace PageCaches

variable [DecidableEq Node]

def insert (caches : PageCaches Node Page) (entry : Node × PageBlockKey × Nat) (page : Page) :
    PageCaches Node Page :=
  { caches with stores := update caches.stores entry (some page) }

/-- One step, with the request that it answers if any.  The ring, the admission and the generation
of a node are arbitrary. -/
inductive Step (caches : PageCaches Node Page) :
    Option (PageRequest Page) → PageCaches Node Page → Prop
  | put (key : MaterializedPageKey) (page : Page) (owner : Node) (generation : Nat) :
      Step caches (some (.put key page))
        { caches.insert (owner, key.blockKey, generation) page with
          puts := caches.puts ++ [(key, page)] }
  /-- The page is refused, or not admitted, or its owner is not reached. -/
  | rejected (key : MaterializedPageKey) (page : Page) : Step caches (some (.put key page)) caches
  | get (key : MaterializedPageKey) (node : Node) (generation : Nat) :
      Step caches (some (.get key (caches.stores (node, key.blockKey, generation)))) caches
  /-- A node answers with what the owner holds, and may keep it. -/
  | fetch (key : MaterializedPageKey) {page : Page} (node owner : Node)
      (generation generationOwner : Nat) (keeps : Bool)
      (held : caches.stores (owner, key.blockKey, generationOwner) = some page) :
      Step caches (some (.get key (some page)))
        (if keeps then caches.insert (node, key.blockKey, generation) page else caches)
  | evict (entry : Node × PageBlockKey × Nat) :
      Step caches none { caches with stores := update caches.stores entry none }

/-- A run whose requests are all allowed. -/
inductive Run (Allowed : MaterializedPageKey → Prop) :
    PageCaches Node Page → PageCaches Node Page → Prop
  | refl {caches : PageCaches Node Page} : Run Allowed caches caches
  | step {start caches after : PageCaches Node Page} {request : Option (PageRequest Page)}
      (run : Run Allowed start caches) (happens : Step caches request after)
      (allowed : ∀ made, request = some made → Allowed made.key) : Run Allowed start after

/-- Every page that is held was put under a plain identity with its block. -/
def Sound (caches : PageCaches Node Page) : Prop :=
  ∀ node block generation page, caches.stores (node, block, generation) = some page →
    ∃ key : MaterializedPageKey, key.Plain ∧ key.blockKey = block ∧ (key, page) ∈ caches.puts

variable {caches after : PageCaches Node Page} {page : Page}

theorem Sound.insert (sound : caches.Sound) {key : MaterializedPageKey} (plain : key.Plain)
    (put : (key, page) ∈ caches.puts) (node : Node) (generation : Nat) :
    (caches.insert (node, key.blockKey, generation) page).Sound := by
  intro other block stamp held found
  simp only [PageCaches.insert, update_apply] at found
  split at found
  · rename_i same
    cases found
    exact ⟨key, plain, (congrArg (·.2.1) same).symm, put⟩
  · exact sound other block stamp held found

theorem Sound.step {request : Option (PageRequest Page)} (sound : caches.Sound)
    (happens : Step caches request after)
    (allowed : ∀ made, request = some made → made.key.Plain) : after.Sound := by
  cases happens with
  | put key page owner generation =>
    have noted : Sound { caches with puts := caches.puts ++ [(key, page)] } := by
      intro node block stamp held found
      obtain ⟨other, plain, same, put⟩ := sound node block stamp held found
      exact ⟨other, plain, same, mem_append_left _ put⟩
    exact noted.insert (allowed _ rfl) (mem_append_right _ (mem_singleton_self _)) owner generation
  | rejected key page | get key node generation => exact sound
  | fetch key node owner generation generationOwner keeps held =>
    cases keeps with
    | false => exact sound
    | true =>
      obtain ⟨other, plain, same, put⟩ := sound _ _ _ _ held
      have identity := MaterializedPageKey.blockKey_inj plain (allowed _ rfl) same
      rw [identity] at put
      exact sound.insert (allowed _ rfl) put node generation
  | evict entry =>
    intro other block stamp held found
    simp only [update_apply] at found
    split at found
    · cases found
    · exact sound other block stamp held found

theorem Sound.run {start : PageCaches Node Page} (sound : start.Sound)
    (run : Run MaterializedPageKey.Plain start caches) : caches.Sound := by
  induction run with
  | refl => exact sound
  | step run happens allowed induction => exact induction.step happens allowed

/-- Among plain tenants a get returns only what was put under the same identity. -/
theorem pages_isolated {key : MaterializedPageKey} (run : Run MaterializedPageKey.Plain {} caches)
    (answers : Step caches (some (.get key (some page))) after) (plain : key.Plain) :
    (key, page) ∈ caches.puts := by
  have start : ({} : PageCaches Node Page).Sound := by
    intro node block generation page found
    cases found
  have sound := start.run run
  have put : ∃ node generation, caches.stores (node, key.blockKey, generation) = some page := by
    generalize request : some (PageRequest.get key (some page)) = made at answers
    cases answers with
    | put | rejected | evict => cases request
    | get other node generation =>
      simp only [Option.some.injEq, PageRequest.get.injEq] at request
      obtain ⟨rfl, found⟩ := request
      exact ⟨node, generation, found.symm⟩
    | fetch other node owner generation generationOwner keeps held =>
      cases request
      exact ⟨owner, generationOwner, held⟩
  obtain ⟨node, generation, found⟩ := put
  obtain ⟨other, plain_other, same, put⟩ := sound node key.blockKey generation page found
  rw [MaterializedPageKey.blockKey_inj plain_other plain same] at put
  exact put

def pageOf (tenant timeline : String) : MaterializedPageKey :=
  ⟨tenant.toList, timeline.toList, 0, 0, 0, 0, 0, 0⟩

def holding (key : MaterializedPageKey) : PageCaches Unit Nat :=
  { ({} : PageCaches Unit Nat).insert ((), key.blockKey, 0) 7 with puts := [(key, 7)] }

theorem run_holding {Allowed : MaterializedPageKey → Prop} {key : MaterializedPageKey}
    (allowed : Allowed key) : Run Allowed {} (holding key) :=
  Run.refl.step (.put key 7 () 0) (by rintro _ ⟨⟩; exact allowed)

theorem holding_answers {key other : MaterializedPageKey} (same : other.blockKey = key.blockKey) :
    Step (holding key) (some (.get other (some 7))) (holding key) := by
  have found : (holding key).stores ((), other.blockKey, 0) = some 7 := by
    rw [same]
    exact update_self ..
  rw [← found]
  exact .get other () 0

theorem pages_isolated_held :
    (pageOf "a" "b").Plain ∧ (pageOf "a" "b", 7) ∈ (holding (pageOf "a" "b")).puts :=
  have plain : (pageOf "a" "b").Plain := by decide
  ⟨plain, pages_isolated (run_holding plain) (holding_answers rfl) plain⟩

/-- With an encoded slash a tenant reads the page of another tenant. -/
theorem tenants_share_a_block :
    ∃ (caches : PageCaches Unit Nat) (key : MaterializedPageKey),
      Run (fun _ => True) {} caches ∧ Step caches (some (.get key (some 7))) caches ∧
        ∀ put ∈ caches.puts, put.1.tenantShardId ≠ key.tenantShardId :=
  ⟨holding (pageOf "a/b" "c"), pageOf "a" "b/c", run_holding trivial,
    holding_answers (by decide), by decide⟩

end PageCaches
end Verglas.Cache
