import Mathlib.Data.String.Basic
import Verglas.Lib.Exclusive
import Verglas.Lib.OrderedMap

/-!
# Tags and vector indexes over tables

The semantic layer keeps its state in append-only tables.  Readers fold the rows of a table in
commit order, and writers append rows for what they read and changed.
-/

namespace Verglas.Semantic

open List OrderedMap Function

variable {Value : Type*}

/-- A row of a control table; `value` is what its text parses to. -/
structure Row (Value : Type*) where
  key : String
  value : Option Value
  deleted : Bool

/-- The name of a tag whose rows have the key. -/
def stripTag (key : String) : Option String :=
  if "tag:".toList <+: key.toList then some (String.ofList (key.toList.drop 4)) else none

/-- Fold one row; other keys and texts that do not parse are skipped. -/
def applyRow (tags : OrderedMap String Value) (row : Row Value) : OrderedMap String Value :=
  match stripTag row.key with
  | none => tags
  | some key =>
    if row.deleted then tags.remove key
    else match row.value with
      | some value => tags.insert key value
      | none => tags

/-- The tags that the rows of a control table describe, in commit order. -/
def controlTags (rows : List (Row Value)) : OrderedMap String Value := rows.foldl applyRow ∅

/-- A call that changes tags. -/
inductive TagCall (Value : Type*) where
  | tagResource (tags : OrderedMap String Value)
  | untagResource (tagKeys : List String)

/-- What a call makes of the tags that it read. -/
def TagCall.mutateTags (tags : OrderedMap String Value) : TagCall Value → OrderedMap String Value
  | .tagResource requested =>
    requested.entries.foldl (fun tags entry => tags.insert entry.1 entry.2) tags
  | .untagResource tagKeys => tagKeys.foldl remove tags

/-- The rows of a changed map: every tag that it has, and the keys that it lost.  The value of a
removal is not read. -/
def tagEvents (before tags : OrderedMap String Value) : List (Row Value) :=
  tags.entries.map (fun entry => ⟨"tag:" ++ entry.1, some entry.2, false⟩) ++
    (before.keys.filter fun key => !tags.contains key).map fun key => ⟨"tag:" ++ key, none, true⟩

theorem stripTag_append (key : String) : stripTag ("tag:" ++ key) = some key := by
  simp [stripTag]

theorem get_foldl_remove (keys : List String) (map : OrderedMap String Value) (key : String) :
    (keys.foldl remove map).get key = if key ∈ keys then none else map.get key := by
  induction keys generalizing map with
  | nil => simp
  | cons head rest induction =>
    rw [foldl_cons, induction, get_remove]
    by_cases same : key = head
    · simp [same]
    · simp [same]

theorem get_foldl_insert_entries (tags map : OrderedMap String Value) (key : String) :
    (tags.entries.foldl (fun map entry => map.insert entry.1 entry.2) map).get key =
      (tags.get key).or (map.get key) := by
  have nodup : (tags.entries.map Prod.fst).Nodup :=
    pairwise_map.mpr (tags.sorted.imp fun less => less.ne)
  refine Option.ext fun value => ?_
  rw [get_foldl_insert nodup, ← get_eq_some_iff, Option.or_eq_some_iff, ← OrderedMap.keys,
    mem_keys_iff, Option.not_isSome_iff_eq_none]

/-- The rows that a call appends set every tag of its map and remove those that it read and dropped,
whatever the table holds by then. -/
theorem get_append_tagEvents (rows : List (Row Value)) (read tags : OrderedMap String Value)
    (key : String) :
    (controlTags (rows ++ tagEvents read tags)).get key =
      (tags.get key).or (if key ∈ read.keys then none else (controlTags rows).get key) := by
  have folded : controlTags (rows ++ tagEvents read tags) =
      (read.keys.filter fun key => !tags.contains key).foldl remove
        (tags.entries.foldl (fun map entry => map.insert entry.1 entry.2) (controlTags rows)) := by
    rw [controlTags, foldl_append, tagEvents, foldl_append, foldl_map, foldl_map]
    simp only [applyRow, stripTag_append, if_true, if_false, Bool.false_eq_true]
    rfl
  rw [folded, get_foldl_remove, get_foldl_insert_entries]
  cases bound : tags.get key with
  | none => simp [OrderedMap.contains, bound]
  | some value => simp [OrderedMap.contains, bound]

/-- No tag that the call read and neither sets nor removes has changed, and no tag that it removes
without having read it has been set. -/
def TagCall.Undisturbed (read now : OrderedMap String Value) : TagCall Value → Prop
  | .tagResource requested => ∀ key ∈ read.keys, key ∉ requested.keys → now.get key = read.get key
  | .untagResource tagKeys => (∀ key ∈ read.keys, key ∉ tagKeys → now.get key = read.get key) ∧
      ∀ key ∈ tagKeys, key ∉ read.keys → now.get key = none

theorem TagCall.get_mutateTags {read now : OrderedMap String Value} {call : TagCall Value}
    (undisturbed : call.Undisturbed read now) (key : String) :
    ((call.mutateTags read).get key).or (if key ∈ read.keys then none else now.get key) =
      (call.mutateTags now).get key := by
  have kept : ((key ∈ read.keys) → now.get key = read.get key) →
      (read.get key).or (if key ∈ read.keys then none else now.get key) = now.get key := by
    intro same
    by_cases known : key ∈ read.keys
    · rw [if_pos known, same known, Option.or_none]
    · have unread : read.get key = none := by simpa [mem_keys_iff] using known
      rw [if_neg known, unread, Option.none_or]
  cases call with
  | tagResource requested =>
    rw [mutateTags, mutateTags, get_foldl_insert_entries, get_foldl_insert_entries]
    cases bound : requested.get key with
    | none =>
      rw [Option.none_or, Option.none_or]
      exact kept fun known => undisturbed key known (by simp [mem_keys_iff, bound])
    | some value => rfl
  | untagResource tagKeys =>
    rw [mutateTags, mutateTags, get_foldl_remove, get_foldl_remove]
    by_cases removed : key ∈ tagKeys
    · rw [if_pos removed, if_pos removed, Option.none_or]
      split
      · rfl
      · exact undisturbed.2 key removed ‹_›
    · rw [if_neg removed, if_neg removed]
      exact kept fun known => undisturbed.1 key known removed

/-- How far a call has come; `read` holds the rows that it folded. -/
inductive TagPhase (Value : Type*) where
  | began
  | read (rows : List (Row Value))
  | returned

/-- The control table of a resource and the calls on it. -/
structure TagSystem (Value : Type*) where
  rows : List (Row Value)
  calls : Nat → Option (TagPhase Value) := fun _ => none
  returned : List Nat := []
  /-- The calls that had returned when a call began. -/
  earlier : Nat → List Nat := fun _ => []

section Calls

variable (request : Nat → TagCall Value)
  (admits : TagSystem Value → Nat → List (Row Value) → Prop)

/-- A step of a call; `admits` restricts what a call may append to. -/
inductive TagStep (system : TagSystem Value) : TagSystem Value → Prop
  | begins {id : Nat} (idle : system.calls id = none) :
      TagStep system { system with
        calls := update system.calls id (some .began)
        earlier := update system.earlier id system.returned }
  | reads {id : Nat} (running : system.calls id = some .began) :
      TagStep system { system with
        calls := update system.calls id (some (.read system.rows)) }
  | appends {id : Nat} {rows : List (Row Value)} (running : system.calls id = some (.read rows))
      (admitted : admits system id rows) :
      TagStep system { system with
        rows := system.rows ++
          tagEvents (controlTags rows) ((request id).mutateTags (controlTags rows))
        calls := update system.calls id (some .returned)
        returned := system.returned ++ [id] }

/-- The runs from a control table. -/
inductive TagRun (initial : List (Row Value)) : TagSystem Value → Prop
  | start : TagRun initial { rows := initial }
  | step {before after : TagSystem Value} (run : TagRun initial before)
      (happens : TagStep request admits before after) : TagRun initial after

/-- The tags after the calls have run one after another. -/
def oneByOne (initial : List (Row Value)) (order : List Nat) : OrderedMap String Value :=
  order.foldl (fun tags id => (request id).mutateTags tags) (controlTags initial)

end Calls

/-- What was appended since the call read does not disturb it. -/
def Unchanged (request : Nat → TagCall Value) (system : TagSystem Value) (id : Nat)
    (rows : List (Row Value)) : Prop :=
  (request id).Undisturbed (controlTags rows) (controlTags system.rows)

/-- What holds while no call is disturbed. -/
structure Composed (request : Nat → TagCall Value) (initial : List (Row Value))
    (system : TagSystem Value) : Prop where
  tags : controlTags system.rows = oneByOne request initial system.returned
  done : ∀ id ∈ system.returned, system.calls id = some .returned
  earlier : ∀ id, system.earlier id ⊆ system.returned
  order : system.returned.Pairwise fun first second => second ∉ system.earlier first

variable {request : Nat → TagCall Value} {initial : List (Row Value)}
  {before after system : TagSystem Value}

theorem Composed.step (composed : Composed request initial before)
    (happens : TagStep request (Unchanged request) before after) :
    Composed request initial after := by
  cases happens with
  | @begins id idle =>
    have fresh : ∀ other ∈ before.returned, other ≠ id := by
      rintro other member rfl
      exact nomatch idle.symm.trans (composed.done other member)
    refine ⟨composed.tags, fun other member => ?_, fun other => ?_, ?_⟩
    · exact (update_of_ne (fresh other member) _ _).trans (composed.done other member)
    · by_cases same : other = id
      · simp [same]
      · simpa [same] using composed.earlier other
    · refine composed.order.imp_of_mem fun {first second} member _ apart => ?_
      simpa [fresh first member] using apart
  | @reads id running =>
    refine ⟨composed.tags, fun other member => ?_, composed.earlier, composed.order⟩
    refine (update_of_ne ?_ _ _).trans (composed.done other member)
    rintro rfl
    exact nomatch running.symm.trans (composed.done other member)
  | @appends id rows running unchanged =>
    have fresh : id ∉ before.returned := fun member =>
      nomatch running.symm.trans (composed.done id member)
    refine ⟨?_, fun other member => ?_, fun other => ?_, ?_⟩
    · refine ext_get fun key => ?_
      rw [get_append_tagEvents, TagCall.get_mutateTags unchanged, oneByOne, foldl_append,
        composed.tags]
      rfl
    · rcases mem_append.mp member with old | new
      · refine (update_of_ne ?_ _ _).trans (composed.done other old)
        rintro rfl
        exact fresh old
      · cases mem_singleton.mp new
        exact update_self _ _ _
    · exact subset_append_of_subset_left _ (composed.earlier other)
    · refine pairwise_append.mpr ⟨composed.order, pairwise_singleton _ _, ?_⟩
      intro first _ second new called
      rw [mem_singleton.mp new] at called
      exact fresh (composed.earlier first called)

theorem TagRun.composed (run : TagRun request (Unchanged request) initial system) :
    Composed request initial system := by
  induction run with
  | start => exact ⟨rfl, nofun, fun _ => .refl _, .nil⟩
  | step _ happens induction => exact induction.step happens

/-- If no call is disturbed between its read and its append, the calls compose: the tags are those
of the calls one after another, in an order in which no call precedes one that had returned before
it began. -/
theorem tag_calls_compose (request : Nat → TagCall Value) (initial : List (Row Value))
    (run : TagRun request (Unchanged request) initial system) :
    ∃ order : List Nat, order.Perm system.returned ∧
      (order.Pairwise fun first second => second ∉ system.earlier first) ∧
      controlTags system.rows = oneByOne request initial order :=
  ⟨system.returned, .refl _, run.composed.order, run.composed.tags⟩

/-- Two calls that overlap: one removes a tag, the other sets another one. -/
def overlapping : Nat → TagCall Nat
  | 0 => .untagResource ["team"]
  | _ => .tagResource (insert ∅ "stage" 2)

/-- A tag that one call removed comes back when a call that read it before sets another tag: no
order of the two calls leaves it. -/
theorem removed_tag_comes_back :
    ∃ system, TagRun overlapping (fun _ _ _ => True) [⟨"tag:team", some 1, false⟩] system ∧
      system.returned = [0, 1] ∧ (controlTags system.rows).get "team" = some 1 ∧
      ∀ order ∈ [[0, 1], [1, 0]],
        (oneByOne overlapping [⟨"tag:team", some 1, false⟩] order).get "team" = none := by
  have reached : TagRun overlapping (fun _ _ _ => True) [⟨"tag:team", some 1, false⟩] _ := .start
  have began := (reached.step (@TagStep.begins _ _ _ _ 0 rfl)).step (@TagStep.begins _ _ _ _ 1 rfl)
  have read := (began.step (@TagStep.reads _ _ _ _ 0 rfl)).step (@TagStep.reads _ _ _ _ 1 rfl)
  have removed := read.step (@TagStep.appends _ _ _ _ 0 _ rfl trivial)
  exact ⟨_, removed.step (@TagStep.appends _ _ _ _ 1 _ rfl trivial), rfl, by decide, by decide⟩

/-- If the call that sets a tag appends first, the other one is not disturbed, although both have
read before. -/
theorem tag_calls_compose_pair :
    ∃ system, TagRun overlapping (Unchanged overlapping) [⟨"tag:team", some 1, false⟩] system ∧
      system.returned = [1, 0] ∧ system.earlier 0 = [] ∧ system.earlier 1 = [] ∧
      ∃ order : List Nat, order.Perm system.returned ∧
        (order.Pairwise fun first second => second ∉ system.earlier first) ∧
        controlTags system.rows = oneByOne overlapping [⟨"tag:team", some 1, false⟩] order := by
  have reached : TagRun overlapping (Unchanged overlapping) [⟨"tag:team", some 1, false⟩] _ :=
    .start
  have began := (reached.step (@TagStep.begins _ _ _ _ 0 rfl)).step (@TagStep.begins _ _ _ _ 1 rfl)
  have read := (began.step (@TagStep.reads _ _ _ _ 0 rfl)).step (@TagStep.reads _ _ _ _ 1 rfl)
  have tagged := read.step (@TagStep.appends _ _ _ _ 1 _ rfl fun _ _ _ => rfl)
  have removed := tagged.step (@TagStep.appends _ _ _ _ 0 _ rfl ⟨by decide, by decide⟩)
  exact ⟨_, removed, rfl, rfl, rfl, tag_calls_compose _ _ removed⟩

/-- A row of a vector table. -/
structure VectorRow (Data : Type*) where
  key : String
  data : Data
  deleted : Bool

variable {Data : Type*}

/-- The vectors that the rows of a table describe, in commit order. -/
def liveVectors (rows : List (VectorRow Data)) : OrderedMap String Data :=
  rows.foldl (fun current row =>
    if row.deleted then current.remove row.key else current.insert row.key row.data) ∅

/-- How far a call has come after its commit: `attach_vector_bridge` reads the current snapshot,
then the table. -/
inductive BridgePhase (Data : Type*) where
  | committed
  | loaded (snapshot : Nat)
  | scanned (snapshot : Nat) (bridge : OrderedMap String Data)

/-- A vector table: its commits, the bridges that are attached to snapshots, and the calls.  A
snapshot is the number of commits that it holds. -/
structure VectorTable (Data : Type*) where
  commits : List (List (VectorRow Data)) := []
  attached : Nat → Option (OrderedMap String Data) := fun _ => none
  calls : Nat → Option (BridgePhase Data) := fun _ => none

/-- The rows of a snapshot. -/
def VectorTable.rowsAt (table : VectorTable Data) (snapshot : Nat) : List (VectorRow Data) :=
  (table.commits.take snapshot).flatten

section Bridges

variable (admits : VectorTable Data → Nat → Prop)

/-- A step of a `PutVectors` or `DeleteVectors` call; `admits` restricts the scans. -/
inductive VectorStep (table : VectorTable Data) : VectorTable Data → Prop
  | commits {id : Nat} (rows : List (VectorRow Data)) (idle : table.calls id = none) :
      VectorStep table { table with
        commits := table.commits ++ [rows]
        calls := update table.calls id (some .committed) }
  | loads {id : Nat} (running : table.calls id = some .committed) :
      VectorStep table { table with
        calls := update table.calls id (some (.loaded table.commits.length)) }
  | scans {id snapshot : Nat} (running : table.calls id = some (.loaded snapshot))
      (admitted : admits table snapshot) :
      VectorStep table { table with
        calls := update table.calls id
          (some (.scanned snapshot (liveVectors table.commits.flatten))) }
  | attaches {id snapshot : Nat} {bridge : OrderedMap String Data}
      (running : table.calls id = some (.scanned snapshot bridge)) :
      VectorStep table { table with
        attached := update table.attached snapshot (some bridge)
        calls := update table.calls id none }
  /-- The attachment fails after the commit, and the call returns all the same. -/
  | gives_up {id : Nat} :
      VectorStep table { table with calls := update table.calls id none }

/-- The runs from an empty table. -/
inductive VectorRun : VectorTable Data → Prop
  | start : VectorRun {}
  | step {before after : VectorTable Data} (run : VectorRun before)
      (happens : VectorStep admits before after) : VectorRun after

end Bridges

/-- No commit has followed the snapshot. -/
def IsCurrent (table : VectorTable Data) (snapshot : Nat) : Prop :=
  snapshot = table.commits.length

/-- The bridge holds the vectors of the snapshot or of a later one, and of the snapshot if scans
find it current. -/
def Describes (admits : VectorTable Data → Nat → Prop) (table : VectorTable Data)
    (snapshot : Nat) (bridge : OrderedMap String Data) : Prop :=
  ∃ scanned, snapshot ≤ scanned ∧ scanned ≤ table.commits.length ∧
    bridge = liveVectors (table.rowsAt scanned) ∧
    ((∀ table snapshot, admits table snapshot → IsCurrent table snapshot) → scanned = snapshot)

variable {admits : VectorTable Data → Nat → Prop} {table grown : VectorTable Data}
  {bridge : OrderedMap String Data}

theorem Describes.grow {snapshot : Nat} (describes : Describes admits table snapshot bridge)
    (commits : table.commits <+: grown.commits) : Describes admits grown snapshot bridge := by
  obtain ⟨scanned, after, within, bridge_eq, exact_scan⟩ := describes
  refine ⟨scanned, after, within.trans commits.length_le, ?_, exact_scan⟩
  obtain ⟨more, commits_eq⟩ := commits
  rw [bridge_eq, VectorTable.rowsAt, VectorTable.rowsAt, ← commits_eq,
    take_append_of_le_length within]

/-- What a call knows of the snapshot that it works for. -/
def BridgePhase.Sound (admits : VectorTable Data → Nat → Prop) (table : VectorTable Data) :
    BridgePhase Data → Prop
  | .committed => True
  | .loaded snapshot => snapshot ≤ table.commits.length
  | .scanned snapshot bridge => Describes admits table snapshot bridge

/-- What holds of the bridges in every run. -/
structure Bridged (admits : VectorTable Data → Nat → Prop) (table : VectorTable Data) :
    Prop where
  attached : ∀ snapshot bridge, table.attached snapshot = some bridge →
    Describes admits table snapshot bridge
  calls : ∀ id phase, table.calls id = some phase → phase.Sound admits table

theorem BridgePhase.Sound.grow {phase : BridgePhase Data} (sound : phase.Sound admits table)
    (commits : table.commits <+: grown.commits) : phase.Sound admits grown := by
  cases phase with
  | committed => trivial
  | loaded snapshot => exact sound.trans commits.length_le
  | scanned snapshot bridge => exact Describes.grow sound commits

/-- A step of one call keeps the bridges: the commits grow, and what is new is to be shown. -/
theorem Bridged.move {id : Nat} {next : Option (BridgePhase Data)}
    (bridged : Bridged admits table) (commits : table.commits <+: grown.commits)
    (calls : grown.calls = update table.calls id next)
    (attached : ∀ snapshot bridge, grown.attached snapshot = some bridge →
      table.attached snapshot = some bridge ∨ Describes admits grown snapshot bridge)
    (sound : ∀ phase, next = some phase → phase.Sound admits grown) : Bridged admits grown where
  attached snapshot bridge now := by
    rcases attached snapshot bridge now with old | new
    · exact (bridged.attached snapshot bridge old).grow commits
    · exact new
  calls other phase now := by
    rw [calls] at now
    rcases of_update_eq now with ⟨_, new⟩ | ⟨_, old⟩
    · exact sound phase new
    · exact (bridged.calls other phase old).grow commits

theorem VectorRun.bridged (run : VectorRun admits table) : Bridged admits table := by
  induction run with
  | start => exact ⟨nofun, nofun⟩
  | @step before after _ happens bridged =>
    cases happens with
    | commits rows idle =>
      refine bridged.move (prefix_append _ _) rfl (fun _ _ => .inl) ?_
      rintro _ ⟨⟩
      trivial
    | loads running =>
      refine bridged.move prefix_rfl rfl (fun _ _ => .inl) ?_
      rintro _ ⟨⟩
      exact le_rfl
    | @scans id snapshot running admitted =>
      refine bridged.move prefix_rfl rfl (fun _ _ => .inl) ?_
      rintro _ ⟨⟩
      refine ⟨before.commits.length, bridged.calls id _ running, le_rfl, ?_, ?_⟩
      · rw [VectorTable.rowsAt, take_length]
      · exact fun current => (current before snapshot admitted).symm
    | @attaches id snapshot bridge running =>
      refine bridged.move prefix_rfl rfl (fun other found now => ?_) nofun
      rcases of_update_eq now with ⟨rfl, new⟩ | ⟨_, old⟩
      · cases new
        exact .inr (bridged.calls id _ running)
      · exact .inl old
    | gives_up => exact bridged.move prefix_rfl rfl (fun _ _ => .inl) nofun

/-- Whatever the interleaving, a query that finds a bridge on the current snapshot ranks the
vectors of that snapshot. -/
theorem VectorRun.current_exact (run : VectorRun admits table)
    (found : table.attached table.commits.length = some bridge) :
    bridge = liveVectors table.commits.flatten := by
  obtain ⟨scanned, after, within, bridge_eq, _⟩ := run.bridged.attached _ _ found
  rw [bridge_eq, VectorTable.rowsAt, Nat.le_antisymm within after, take_length]

/-- The second call commits between the two reads of the first one and attaches the bridge of the
current snapshot. -/
theorem VectorRun.current_exact_first :
    ∃ (table : VectorTable Nat) (bridge : OrderedMap String Nat),
      VectorRun (fun _ _ => True) table ∧ table.commits.length = 2 ∧
      table.attached 2 = some bridge ∧ bridge = liveVectors table.commits.flatten := by
  have reached : VectorRun (fun _ _ => True) ({} : VectorTable Nat) := .start
  have first := reached.step (@VectorStep.commits _ _ _ 0 [⟨"a", 1, false⟩] rfl)
  have loaded := first.step (@VectorStep.loads _ _ _ 0 rfl)
  have second := loaded.step (@VectorStep.commits _ _ _ 1 [⟨"b", 2, false⟩] rfl)
  have scanned := second.step (@VectorStep.scans _ _ _ 0 _ rfl trivial)
  have attached := scanned.step (@VectorStep.attaches _ _ _ 0 _ _ rfl)
  have current := (attached.step (@VectorStep.loads _ _ _ 1 rfl)).step
    (@VectorStep.scans _ _ _ 1 _ rfl trivial)
  have done := current.step (@VectorStep.attaches _ _ _ 1 _ _ rfl)
  exact ⟨_, _, done, rfl, rfl, done.current_exact rfl⟩

/-- If no commit falls between the two reads of an attachment, every bridge holds exactly the
vectors of its snapshot. -/
theorem attached_bridge_exact (run : VectorRun IsCurrent table) (snapshot : Nat)
    (bridge : OrderedMap String Data) (found : table.attached snapshot = some bridge) :
    bridge = liveVectors (table.rowsAt snapshot) := by
  obtain ⟨scanned, _, _, bridge_eq, exact_scan⟩ := run.bridged.attached _ _ found
  rw [bridge_eq, exact_scan fun _ _ current => current]

/-- A commit between the two reads of an attachment leaves its key in the bridge of the snapshot
before it. -/
theorem later_key_attached :
    ∃ (table : VectorTable Nat) (bridge : OrderedMap String Nat),
      VectorRun (fun _ _ => True) table ∧ table.attached 1 = some bridge ∧
      bridge.get "b" = some 2 ∧ (liveVectors (table.rowsAt 1)).get "b" = none := by
  have reached : VectorRun (fun _ _ => True) ({} : VectorTable Nat) := .start
  have first := reached.step (@VectorStep.commits _ _ _ 0 [⟨"a", 1, false⟩] rfl)
  have loaded := first.step (@VectorStep.loads _ _ _ 0 rfl)
  have second := loaded.step (@VectorStep.commits _ _ _ 1 [⟨"b", 2, false⟩] rfl)
  have scanned := second.step (@VectorStep.scans _ _ _ 0 _ rfl trivial)
  exact ⟨_, _, scanned.step (@VectorStep.attaches _ _ _ 0 _ _ rfl), rfl, by decide, by decide⟩

/-- A commit between the scan of an attachment and its end leaves the bridge as it is, and the next
one removes a vector from the bridge of its own snapshot only. -/
theorem attached_bridge_exact_first :
    ∃ (table : VectorTable Nat) (first second : OrderedMap String Nat), VectorRun IsCurrent table ∧
      table.attached 1 = some first ∧ first = liveVectors (table.rowsAt 1) ∧
      table.attached 2 = some second ∧ second = liveVectors (table.rowsAt 2) ∧
      first.get "a" = some 1 ∧ second.get "a" = none := by
  have reached : VectorRun IsCurrent ({} : VectorTable Nat) := .start
  have added := reached.step (@VectorStep.commits _ _ _ 0 [⟨"a", 1, false⟩] rfl)
  have loaded := added.step (@VectorStep.loads _ _ _ 0 rfl)
  have scanned := loaded.step (@VectorStep.scans _ _ _ 0 _ rfl rfl)
  have removed := scanned.step (@VectorStep.commits _ _ _ 1 [⟨"a", 1, true⟩] rfl)
  have attached := removed.step (@VectorStep.attaches _ _ _ 0 _ _ rfl)
  have current := (attached.step (@VectorStep.loads _ _ _ 1 rfl)).step
    (@VectorStep.scans _ _ _ 1 _ rfl rfl)
  have done := current.step (@VectorStep.attaches _ _ _ 1 _ _ rfl)
  exact ⟨_, _, _, done, rfl, attached_bridge_exact done 1 _ rfl, rfl,
    attached_bridge_exact done 2 _ rfl, by decide, by decide⟩

end Verglas.Semantic
