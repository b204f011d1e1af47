import Verglas.Consensus.Retry
import Verglas.Consensus.Snapshot

/-!
# Catalog exports

An export reads the namespaces, the tables and the applied index of one replica in three separate
steps, and the replica may apply entries between them.  The export is the catalog after the log up
to its applied index exactly when the entries in between leave what was already read unchanged.
-/

namespace Verglas.Consensus

open List OrderedMap

/-- An export of the catalog and the applied index that it is to represent. -/
structure CatalogExport where
  appliedIndex : Nat
  bytes : Bytes
  deriving DecidableEq

def catalogNamespaces (state : StateMachineData) : List String := state.namespaces.keys

def catalogTables (state : StateMachineData) : List (String × String) := state.tables.entries

/-- The states that the four reads of an export find. -/
structure ExportReads where
  fence : StateMachineData
  namespaces : StateMachineData
  tables : StateMachineData
  index : StateMachineData

/-- Verify the payloads and encode the catalog; each read may see a later state. -/
def catalogExport (fetch : ReconstructRequest → Except PayloadError Bytes)
    (toJson : List String × List (String × String) → Option Bytes) (reads : ExportReads) :
    Except GroupError CatalogExport :=
  match readFence fetch reads.fence with
  | .error error => .error error
  | .ok () =>
    match toJson (catalogNamespaces reads.namespaces, catalogTables reads.tables) with
    | none => .error .catalogEncoding
    | some bytes => .ok ⟨appliedIndex reads.index, bytes⟩

theorem toList_of_rsplitOnce {separator : Char} {text : String} {parts : String × String}
    (split : rsplitOnce separator text = some parts) :
    text.toList = parts.1.toList ++ separator :: parts.2.toList := by
  rw [rsplitOnce] at split
  have whole := takeWhile_append_dropWhile (p := (· ≠ separator)) (l := text.toList.reverse)
  cases dropped : text.toList.reverse.dropWhile (· ≠ separator) with
  | nil =>
    rw [dropped] at split
    cases split
  | cons found before =>
    rw [dropped] at split whole
    cases split
    have found_is : found = separator := by
      have stopped := head?_dropWhile_not (fun char => decide (char ≠ separator))
        text.toList.reverse
      rw [dropped] at stopped
      simpa using stopped
    have reversed := congrArg reverse whole
    rw [reverse_reverse] at reversed
    refine reversed.symm.trans ?_
    rw [found_is]
    simp

/-- Every table has a namespace that exists. -/
def Housed (catalog : OrderedMap String Unit × OrderedMap String String) : Prop :=
  ∀ table ∈ catalog.2.keys, ∃ parts, rsplitOnce '.' table = some parts ∧ parts.1 ∈ catalog.1.keys

variable {after : OrderedMap String Unit × OrderedMap String String}
  {state left right : StateMachineData} {log : List Entry}

theorem Housed.applyAction {catalog : OrderedMap String Unit × OrderedMap String String}
    {action : CatalogAction} (housed : Housed catalog)
    (accepted : CatalogBatch.applyAction catalog action = .ok after) : Housed after := by
  cases action with
  | createNamespace name =>
    simp only [CatalogBatch.applyAction] at accepted
    split at accepted
    · cases accepted
    cases accepted
    intro table member
    obtain ⟨parts, split, known⟩ := housed table member
    refine ⟨parts, split, ?_⟩
    rw [mem_keys_iff] at known ⊢
    rw [get_insert]
    split
    · rfl
    · exact known
  | dropNamespace name =>
    simp only [CatalogBatch.applyAction] at accepted
    split at accepted
    · cases accepted
    rename_i empty
    cases accepted
    intro table member
    obtain ⟨parts, split, known⟩ := housed table member
    refine ⟨parts, split, ?_⟩
    -- A table of the dropped namespace would begin with its name and a dot.
    have other : parts.1 ≠ name := by
      rintro rfl
      have spelled := toList_of_rsplitOnce split
      simp only [Bool.or_eq_true, not_or, Bool.not_eq_true, any_eq_false] at empty
      have begins : (parts.1 ++ ".").toList.isPrefixOf table.toList :=
        isPrefixOf_iff_prefix.mpr ⟨parts.2.toList, by rw [spelled]; simp⟩
      rw [empty.1 table member] at begins
      cases begins
    rw [mem_keys_iff] at known ⊢
    rw [get_remove, if_neg other]
    exact known
  | putTable table metadataLocation =>
    simp only [CatalogBatch.applyAction] at accepted
    split at accepted
    · cases accepted
    rename_i name rest split
    split at accepted
    · cases accepted
    rename_i admitted
    cases accepted
    intro other member
    rw [mem_keys_iff] at member
    rw [get_insert] at member
    split at member
    · rename_i same
      refine ⟨(name, rest), same ▸ split, ?_⟩
      rw [mem_keys_iff]
      simp only [Bool.or_eq_true, not_or, Bool.not_eq_true, Bool.not_eq_false'] at admitted
      exact admitted.1
    · exact housed other (mem_keys_iff.mpr member)
  | dropTable table =>
    simp only [CatalogBatch.applyAction] at accepted
    split at accepted
    · cases accepted
      intro other member
      rw [mem_keys_iff] at member
      rw [get_remove] at member
      split at member
      · cases member
      · exact housed other (mem_keys_iff.mpr member)
    · cases accepted
  | putRecord | deleteRecord =>
    cases accepted
    exact housed

theorem Housed.foldlM {actions : List CatalogAction}
    {catalog : OrderedMap String Unit × OrderedMap String String} (housed : Housed catalog)
    (accepted : actions.foldlM CatalogBatch.applyAction catalog = .ok after) : Housed after := by
  induction actions generalizing catalog with
  | nil =>
    cases accepted
    exact housed
  | cons action actions induction =>
    rw [foldlM_cons] at accepted
    cases step : CatalogBatch.applyAction catalog action with
    | error error =>
      rw [step] at accepted
      cases accepted
    | ok next =>
      rw [step] at accepted
      exact induction (housed.applyAction step) accepted

/-- The namespaces and tables of a state. -/
def catalog (state : StateMachineData) : OrderedMap String Unit × OrderedMap String String :=
  (state.namespaces, state.tables)

theorem catalog_of_applyMetadata {index : Nat} {header : EntryHeader} {effect : MetadataEffect}
    (accepted : applyMetadata state index header = .ok effect) :
    catalog effect.state = catalog state ∨ ∃ batch : CatalogBatch,
      batch.apply state.namespaces state.tables = .ok (catalog effect.state) := by
  cases metadata : header.metadata with
  | catalog batch =>
    simp only [applyMetadata, metadata] at accepted
    split at accepted
    · rename_i changed _
      cases accepted
      exact .inr ⟨batch, changed⟩
    · cases accepted
  | _ =>
    left
    simp only [applyMetadata, metadata] at accepted
    repeat' split at accepted
    all_goals
      cases accepted
      try rfl

/-- An entry leaves the catalog as it is, or applies the batch of a command to it. -/
theorem catalog_applyEntry (state : StateMachineData) (entry : Entry) :
    catalog (applyEntry state entry).1 = catalog state ∨
      ∃ header, entry.payload = .normal (.commit header) ∧ ∃ batch : CatalogBatch,
        batch.apply state.namespaces state.tables = .ok (catalog (applyEntry state entry).1) := by
  rcases applyEntry_cases state entry with ⟨response, step⟩ | unchanged
  · generalize (applyEntry state entry).1 = after at step
    cases step with
    | recorded header effect payload fresh fenced transition =>
      simp only [catalog, recordCommit]
      rw [applyLease_eq]
      exact (catalog_of_applyMetadata transition).imp_right fun changed =>
        ⟨header, payload, changed⟩
    | repaired index generation certificate after payload accepted =>
      rw [(applyRepair_ok accepted).1]
      exact .inl rfl
    | _ => exact .inl rfl
  · rw [unchanged]
    exact .inl rfl

theorem housed_replay (log : List Entry) : Housed (catalog (replay log)) := by
  induction log using reverseRecOn with
  | nil => exact fun table member => absurd member not_mem_nil
  | append_singleton log entry induction =>
    rw [replay_concat]
    rcases catalog_applyEntry (replay log) entry with same | ⟨_, _, batch, changed⟩
    · rw [same]
      exact induction
    · rw [CatalogBatch.apply] at changed
      split at changed
      · exact induction.foldlM changed
      · cases changed

theorem ReplicaAt.catalog_eq (replica : ReplicaAt log state) :
    catalog state = catalog (replay log) := by
  have same := congrArg catalog replica.core_eq
  exact same

/-- The entries of a log up to an index. -/
def upTo (log : List Entry) (index : Nat) : List Entry :=
  log.filter fun entry => entry.logId.index ≤ index

theorem upTo_last {front back : List Entry} (increasing : Increasing (front ++ back)) {last : Entry}
    (last_eq : front.getLast? = some last) : upTo (front ++ back) last.logId.index = front := by
  obtain ⟨rest, rfl⟩ := getLast?_eq_some_iff.mp last_eq
  obtain ⟨front_increasing, _, apart⟩ := pairwise_append.mp increasing
  have below := (pairwise_append.mp front_increasing).2.2
  rw [upTo, filter_append, filter_eq_self.mpr, filter_eq_nil_iff.mpr, append_nil]
  · intro entry member
    have above := apart last (by simp) entry member
    simpa using above
  · intro entry member
    rcases mem_append.mp member with earlier | final
    · exact decide_eq_true (below entry earlier last (by simp)).le
    · rw [mem_singleton.mp final]
      simp

theorem catalog_replay_of_no_command
    (idle : ∀ entry ∈ log, ∀ command, entry.payload ≠ .normal command) :
    catalog (replay log) = catalog {} := by
  induction log using reverseRecOn with
  | nil => rfl
  | append_singleton log entry induction =>
    rw [replay_concat]
    rcases catalog_applyEntry (replay log) entry with same | ⟨_, payload, _⟩
    · rw [same]
      exact induction fun other member => idle other (mem_append_left _ member)
    · exact absurd payload (idle entry (by simp) _)

theorem ReplicaAt.catalog_upTo (increasing : Increasing log) (proper : Proper log) {position : Nat}
    (replica : ReplicaAt (log.take position) state) :
    catalog (replay (upTo log (appliedIndex state))) = catalog (replay (log.take position)) := by
  have applied := replica.lastApplied_eq
  cases last_eq : (log.take position).getLast? with
  | none =>
    rw [getLast?_eq_none_iff] at last_eq
    rw [appliedIndex, applied, last_eq]
    refine catalog_replay_of_no_command ?_
    intro entry member command payload
    obtain ⟨inLog, low⟩ := mem_filter.mp member
    have positive := (proper entry inLog command payload).2
    have zero : entry.logId.index = 0 := by simpa using low
    omega
  | some last =>
    rw [last_eq] at applied
    have index_eq : appliedIndex state = last.logId.index := by rw [appliedIndex, applied]; rfl
    have whole := take_append_drop position log
    rw [index_eq]
    rw [← whole] at increasing
    have same := upTo_last increasing last_eq
    rw [whole] at same
    rw [same]

/-- The steps of an export find replicas of a log, each at or behind the position of the one
before. -/
structure ExportReads.Along (reads : ExportReads) (log : List Entry)
    (first second third : Nat) : Prop where
  namespaces : ReplicaAt (log.take first) reads.namespaces
  tables : ReplicaAt (log.take second) reads.tables
  index : ReplicaAt (log.take third) reads.index
  tables_later : first ≤ second
  index_later : second ≤ third

/-- The export is the catalog after the log up to its applied index, with the namespace of every
table in it. -/
def CatalogExport.Represents (toJson : List String × List (String × String) → Option Bytes)
    (log : List Entry) (exported : CatalogExport) : Prop :=
  ∃ namespaces tables, toJson (namespaces, tables) = some exported.bytes ∧
    namespaces = catalogNamespaces (replay (upTo log exported.appliedIndex)) ∧
    tables = catalogTables (replay (upTo log exported.appliedIndex)) ∧
    ∀ table ∈ tables, ∃ parts, rsplitOnce '.' table.1 = some parts ∧ parts.1 ∈ namespaces

theorem catalogNamespaces_inj :
    catalogNamespaces left = catalogNamespaces right ↔ left.namespaces = right.namespaces := by
  refine ⟨fun same => ext_get fun key => ?_, fun same => by
    rw [catalogNamespaces, same, catalogNamespaces]⟩
  have member : key ∈ catalogNamespaces left ↔ key ∈ catalogNamespaces right := by rw [same]
  rw [catalogNamespaces, catalogNamespaces, mem_keys_iff, mem_keys_iff,
    Option.isSome_iff_exists, Option.isSome_iff_exists] at member
  cases found : left.namespaces.get key with
  | none =>
    cases other : right.namespaces.get key with
    | none => rfl
    | some value =>
      obtain ⟨_, known⟩ := member.mpr ⟨value, other⟩
      rw [found] at known
      cases known
  | some value => exact (member.mp ⟨value, found⟩).choose_spec.symm

theorem catalogTables_inj :
    catalogTables left = catalogTables right ↔ left.tables = right.tables := by
  refine ⟨fun same => ext_get fun key => ?_, fun same => by
    rw [catalogTables, same, catalogTables]⟩
  rw [catalogTables, catalogTables] at same
  rw [OrderedMap.get, OrderedMap.get, same]

/-- An export is the catalog after the log up to its applied index if and only if the entries
applied between its reads leave the namespaces and the tables that it had already read. -/
theorem catalog_export_iff (increasing : Increasing log) (proper : Proper log)
    {fetch : ReconstructRequest → Except PayloadError Bytes}
    {toJson : List String × List (String × String) → Option Bytes}
    (faithful : ∀ left right bytes, toJson left = some bytes → toJson right = some bytes →
      left = right) {reads : ExportReads} {first second third : Nat}
    (along : reads.Along log first second third) {exported : CatalogExport}
    (exports : catalogExport fetch toJson reads = .ok exported) :
    exported.Represents toJson log ↔
      (replay (log.take first)).namespaces = (replay (log.take third)).namespaces ∧
        (replay (log.take second)).tables = (replay (log.take third)).tables := by
  obtain ⟨text, index_eq⟩ : toJson (catalogNamespaces reads.namespaces,
      catalogTables reads.tables) = some exported.bytes ∧
      exported.appliedIndex = appliedIndex reads.index := by
    rw [catalogExport] at exports
    split at exports
    · cases exports
    split at exports
    · cases exports
    · cases exports
      exact ⟨‹_›, rfl⟩
  have first_eq := congrArg Prod.fst along.namespaces.catalog_eq
  have second_eq := congrArg Prod.snd along.tables.catalog_eq
  have third_eq := along.index.catalog_upTo increasing proper
  have third_namespaces := congrArg Prod.fst third_eq
  have third_tables := congrArg Prod.snd third_eq
  dsimp only [catalog] at first_eq second_eq third_namespaces third_tables
  rw [← index_eq] at third_namespaces third_tables
  rw [← first_eq, ← second_eq, ← third_namespaces, ← third_tables, ← catalogNamespaces_inj,
    ← catalogTables_inj]
  constructor
  · rintro ⟨namespaces, tables, spelled, rfl, rfl, _⟩
    have same := faithful _ _ _ text spelled
    exact ⟨congrArg Prod.fst same, congrArg Prod.snd same⟩
  · rintro ⟨namespaces_eq, tables_eq⟩
    refine ⟨_, _, text, namespaces_eq, tables_eq, ?_⟩
    intro table member
    rw [tables_eq] at member
    rw [namespaces_eq]
    exact housed_replay _ table.1 (mem_map_of_mem member)

/-- The encoder on the listings that the exports below make. -/
def listingJson (listing : List String × List (String × String)) : Option Bytes :=
  if listing = (["sales"], []) then some (asBytes "[[\"sales\"],[]]")
  else if listing = (["sales"], [("hr.people", "s3://lake/people.json")]) then
    some (asBytes "[[\"sales\"],[[\"hr.people\",\"s3://lake/people.json\"]]]")
  else none

theorem listingJson_faithful (left right : List String × List (String × String)) (bytes : Bytes)
    (first : listingJson left = some bytes) (second : listingJson right = some bytes) :
    left = right := by
  have apart : asBytes "[[\"sales\"],[]]" ≠
      asBytes "[[\"sales\"],[[\"hr.people\",\"s3://lake/people.json\"]]]" := by decide
  unfold listingJson at first second
  grind

def noFetch : ReconstructRequest → Except PayloadError Bytes := fun _ =>
  .error .reconstructionUnavailable

/-- Reads of an export with the replica at the given positions of the log. -/
def staffedReads (first second third : Nat) : ExportReads where
  fence := replay (staffedLog.take first)
  namespaces := replay (staffedLog.take first)
  tables := replay (staffedLog.take second)
  index := replay (staffedLog.take third)

theorem staffedLog_replica (position : Nat) (small : position < 3) :
    ReplicaAt (staffedLog.take position) (replay (staffedLog.take position)) :=
  .of_prefixes (by decide) small

/-- The second commit is applied between the read of the namespaces and the read of the tables: the
export has a table without its namespace and claims to be the catalog after both commits. -/
theorem export_across_a_commit_is_torn :
    (staffedReads 1 2 2).Along staffedLog 1 2 2 ∧
      catalogExport noFetch listingJson (staffedReads 1 2 2) =
        .ok ⟨2, asBytes "[[\"sales\"],[[\"hr.people\",\"s3://lake/people.json\"]]]"⟩ ∧
      catalogNamespaces (replay (upTo staffedLog 2)) = ["hr", "sales"] ∧
      "hr" ∉ catalogNamespaces (staffedReads 1 2 2).namespaces ∧
      ¬CatalogExport.Represents listingJson staffedLog
        ⟨2, asBytes "[[\"sales\"],[[\"hr.people\",\"s3://lake/people.json\"]]]"⟩ := by
  refine ⟨⟨staffedLog_replica 1 (by decide), staffedLog_replica 2 (by decide),
      staffedLog_replica 2 (by decide), by decide, by decide⟩,
    rfl, by decide, by decide, ?_⟩
  rintro ⟨namespaces, tables, spelled, rfl, rfl, _⟩
  exact absurd spelled (by decide)

/-- An export during which nothing is applied is the catalog after the first commit. -/
theorem catalog_export_iff_quiet :
    CatalogExport.Represents listingJson staffedLog ⟨1, asBytes "[[\"sales\"],[]]"⟩ := by
  have increasing : Increasing staffedLog := by
    unfold Increasing
    decide
  have proper : Proper staffedLog := .of_forall (by decide)
  have along : (staffedReads 1 1 1).Along staffedLog 1 1 1 :=
    ⟨staffedLog_replica 1 (by decide), staffedLog_replica 1 (by decide),
      staffedLog_replica 1 (by decide), le_rfl, le_rfl⟩
  have exports : catalogExport noFetch listingJson (staffedReads 1 1 1) =
      .ok ⟨1, asBytes "[[\"sales\"],[]]"⟩ := rfl
  exact (catalog_export_iff increasing proper listingJson_faithful along exports).mpr ⟨rfl, rfl⟩

/-- Whatever the replicas of a log apply, build, install or lose by a restart, every table of each
of them is named after a namespace that the replica has; the same holds after every action of a
batch that it applies. -/
theorem tables_have_namespaces {ι : Type*} [DecidableEq ι] {cluster : Cluster ι}
    (run : Relation.ReflTransGen (ClusterStep log) {} cluster) (id : ι) :
    let state := (cluster.nodes id).state
    (∀ table ∈ state.tables.keys, ∃ namespaceName name,
      table = namespaceName ++ "." ++ name ∧ namespaceName ∈ state.namespaces.keys) ∧
    ∀ (actions : List CatalogAction) namespaces tables,
      actions.foldlM CatalogBatch.applyAction (state.namespaces, state.tables) =
        .ok (namespaces, tables) →
      ∀ table ∈ tables.keys, ∃ namespaceName name,
        table = namespaceName ++ "." ++ name ∧ namespaceName ∈ namespaces.keys := by
  intro state
  have follows : state.core = (replay (log.take (cluster.nodes id).position)).core :=
    (Cluster.nodes_faithful_of_run run id).state
  have same := congrArg catalog follows
  have housed : Housed (catalog state) := Eq.mpr (congrArg Housed same) (housed_replay _)
  have inside : ∀ (actions : List CatalogAction) namespaces tables,
      actions.foldlM CatalogBatch.applyAction (catalog state) = .ok (namespaces, tables) →
      ∀ table ∈ tables.keys, ∃ namespaceName name,
        table = namespaceName ++ "." ++ name ∧ namespaceName ∈ namespaces.keys := by
    intro actions namespaces tables accepted table member
    obtain ⟨parts, split, known⟩ := housed.foldlM accepted table member
    refine ⟨parts.1, parts.2, ?_, known⟩
    rw [← String.toList_inj, toList_of_rsplitOnce split]
    simp
  exact ⟨inside [] _ _ rfl, inside⟩

/-- A replica has applied both commits and restarts from the image that it built in between. -/
theorem tables_have_namespaces_staffed :
    ∃ cluster : Cluster Unit, (cluster.nodes ()).state.tables.keys = ["hr.people"] ∧
      ∃ namespaceName name, "hr.people" = namespaceName ++ "." ++ name ∧
        namespaceName ∈ (cluster.nodes ()).state.namespaces.keys := by
  have run : Relation.ReflTransGen (ClusterStep staffedLog) ({} : Cluster Unit) _ :=
    (((Relation.ReflTransGen.refl.tail (.apply () rfl rfl)).tail (.apply () rfl rfl)).tail
      (.build () true true)).tail (.restart ())
  exact ⟨_, by rfl, (tables_have_namespaces run ()).1 "hr.people" (.head _)⟩

end Verglas.Consensus
