import OdooSemantic.Indexer.ChunkKeys
import OdooSemantic.Lib.Table

/-!
# Writing the embeddings of a module

Chunks whose text has a stored vector of the same model are written with it, the others go to
the embedder: all at once, once more, and then one by one.  The two groups are joined again by
position.  The embedder answers each call for itself, and any call may fail.
-/

set_option autoImplicit false

namespace OdooSemantic.Indexer.EmbeddingWrites

open Lib
open Indexer.EmbeddingChunks
open Indexer.ChunkKeys (chunkKey dedup)
open Indexer.JsChunks (Text)

/-- `embed call texts` is what the embedder answers as its `call`-th call: nothing when it
raises.  `callCount` is its own counter after so many calls, if it has one. -/
structure Embedder (Value : Type) where
  model : Option String
  dim : Option Int
  embed : Nat → List Text → Option (List (List Value))
  callCount : Option (Nat → Int)

section Embedding
variable {Value : Type} (embedder : Embedder Value)

def embedCalls (before after : Nat) : Int :=
  match embedder.callCount with
  | none => 1
  | some count => count after - count before

def embedSingly : Nat → List EmbeddingChunk → List EmbeddingChunk × List (List Value) × Int
  | _, [] => ([], [], 0)
  | call, chunk :: rest =>
      let (okChunks, okVecs, calls) := embedSingly (call + 1) rest
      match embedder.embed call [chunk.content] with
      | some [vec] => (chunk :: okChunks, vec :: okVecs, calls + 1)
      | _ => (okChunks, okVecs, calls)

def embedChunksResilient (chunks : List EmbeddingChunk) :
    List EmbeddingChunk × List (List Value) × Int :=
  if chunks.isEmpty then ([], [], 0)
  else
    match embedder.embed 0 (chunks.map (·.content)) with
    | some vecs => (chunks, vecs, embedCalls embedder 0 1)
    | none =>
        match embedder.embed 1 (chunks.map (·.content)) with
        | some vecs => (chunks, vecs, embedCalls embedder 1 2)
        | none => embedSingly embedder 2 chunks

end Embedding

/-- The columns a chunk is written with. -/
structure Row (Value : Type) where
  chunk : EmbeddingChunk
  profileName : String
  vec : Option (List Value)
  embeddingModel : Option String
  embeddingDim : Option Int

structure StoredRow (Value : Type) extends Row Value where
  id : Nat

section Stored
variable {Value : Type}

/-- `WHERE` of `_REUSABLE_VECTORS_SQL`. -/
def selects (module version profileName model : String) (dim : Int)
    (chunks : List EmbeddingChunk) (row : StoredRow Value) : Bool :=
  row.chunk.module == module && row.chunk.odooVersion == version &&
    row.profileName == profileName && row.embeddingModel == some model &&
    row.embeddingDim == some dim && (chunks.map (·.content)).contains row.chunk.content

def keepVector (dim : Int) (stored : List (Text × List Value)) (row : StoredRow Value) :
    List (Text × List Value) :=
  match row.vec with
  | none => stored
  | some vec =>
      if (stored.lookup row.chunk.content).isSome then stored
      else if (vec.length : Int) = dim then stored ++ [(row.chunk.content, vec)]
      else stored

/-- `seen` are the rows the lookup reads, nothing when it fails. -/
def reusableVectors (module version profileName : String) (chunks : List EmbeddingChunk)
    (embModel : Option String) (embDim : Option Int) (seen : Option (List (StoredRow Value))) :
    List (Text × List Value) :=
  match embModel, embDim with
  | some model, some dim =>
      if chunks.isEmpty || model == "" || dim == 0 then []
      else
        match seen with
        | none => []
        | some rows =>
            (rows.filter (selects module version profileName model dim chunks)).foldl
              (keepVector dim) []
  | _, _ => []

end Stored

/-! ## The write -/

inductive WriteError where
  | valueError
  | embedderDimMismatch
  | embedderModelMismatch
  | indexError
  | databaseError

structure Stats where
  attempted : Option Nat
  embedded : Option Nat
  reused : Option Nat

structure Args (Value : Type) where
  module : String
  version : String
  chunks : List EmbeddingChunk
  embedder : Embedder Value
  profileName : Option String
  replace : Bool
  stats : Option Stats
  reuse : Bool

/-- What the write finds: the rows the lookup reads, the table in the order it is scanned, and
whether a statement of the transaction fails. -/
structure Database (Value : Type) where
  seen : Option (List (StoredRow Value))
  table : Table (StoredRow Value)
  fails : Bool

/-- `inserted` are the rows of the committed `INSERT`. -/
structure Outcome (Value : Type) where
  table : Table (StoredRow Value)
  inserted : List (Row Value)
  result : Except WriteError Int
  stats : Option Stats
  incomplete : Bool

section Write
variable {Value : Type}

/-- `name.removesuffix(":latest")`. -/
def normalizeEmbedderModelName (name : Option String) : Option String :=
  name.map fun name => (name.dropSuffix ":latest").toString

def assertDimMatches (rows : List (StoredRow Value)) (configuredDim : Int)
    (configuredModel : Option String) : Except WriteError Unit :=
  if configuredDim ≤ 0 then .error .valueError
  else
    match rows.find? (·.embeddingDim.isSome) with
    | none => .ok ()
    | some row =>
        if row.embeddingDim ≠ some configuredDim then .error .embedderDimMismatch
        else
          match normalizeEmbedderModelName configuredModel,
              normalizeEmbedderModelName row.embeddingModel with
          | some configured, some stored =>
              if stored ≠ configured then .error .embedderModelMismatch else .ok ()
          | _, _ => .ok ()

/-- `[c.as_tuple(vecs[i], …) for i, c in enumerate(live_chunks)]`; nothing when an index is
out of range. -/
def asTuples (profileName : String) (embModel : Option String) (embDim : Option Int)
    (vecs : List (List Value)) : Nat → List EmbeddingChunk → Option (List (Row Value))
  | _, [] => some []
  | index, chunk :: rest =>
      match vecs[index]? with
      | none => none
      | some vec =>
          (asTuples profileName embModel embDim vecs (index + 1) rest).map
            (⟨chunk, profileName, some vec, embModel, embDim⟩ :: ·)

/-- `ux_embeddings_chunk`. -/
def Row.sameKey (row other : Row Value) : Bool :=
  chunkKey row.chunk == chunkKey other.chunk && row.chunk.module == other.chunk.module &&
    row.chunk.odooVersion == other.chunk.odooVersion && row.profileName == other.profileName

/-- `DO UPDATE SET`. -/
def StoredRow.updated (excluded : Row Value) (row : StoredRow Value) : StoredRow Value :=
  { row with
    chunk :=
      { row.chunk with
        content := excluded.chunk.content
        lineStart := excluded.chunk.lineStart
        repo := excluded.chunk.repo
        repoId := excluded.chunk.repoId }
    vec := excluded.vec
    embeddingModel := excluded.embeddingModel
    embeddingDim := excluded.embeddingDim }

def deleteModuleEmbeddings (module version profileName : String)
    (table : Table (StoredRow Value)) : Table (StoredRow Value) :=
  { table with
    rows := table.rows.filter fun row =>
      !(row.chunk.module == module && row.chunk.odooVersion == version &&
        row.profileName == profileName) }

def insertRows (rows : List (Row Value)) (table : Table (StoredRow Value)) :
    Table (StoredRow Value) :=
  table.upsert (fun new row => new.sameKey row.toRow) StoredRow.updated
    (fun id new => ⟨new, id⟩) rows

variable (args : Args Value) (database : Database Value)

/-- `stored`, over the chunks that are left for each key. -/
def stored (profileName : String) : List (Text × List Value) :=
  if args.reuse then
    reusableVectors args.module args.version profileName (dedup args.chunks) args.embedder.model
      args.embedder.dim database.seen
  else []

def reused (profileName : String) : List EmbeddingChunk :=
  (dedup args.chunks).filter fun chunk =>
    ((stored args database profileName).lookup chunk.content).isSome

def toEmbed (profileName : String) : List EmbeddingChunk :=
  (dedup args.chunks).filter fun chunk =>
    !((stored args database profileName).lookup chunk.content).isSome

/-- `stats` after the embedding. -/
def Stats.counted (attempted embedded reused : Nat) (stats : Stats) : Stats where
  attempted := some (stats.attempted.getD 0 + attempted)
  embedded := some (stats.embedded.getD 0 + embedded)
  reused := if reused = 0 then stats.reused else some (stats.reused.getD 0 + reused)

/-- The guard, for an embedder that has a dimension. -/
def checkDim : Except WriteError Unit :=
  match args.embedder.dim with
  | none => .ok ()
  | some dim => assertDimMatches database.table.rows dim args.embedder.model

def keptRows (profileName : String) : Table (StoredRow Value) :=
  if args.replace then deleteModuleEmbeddings args.module args.version profileName database.table
  else database.table

/-- The delete and the insert, in one transaction. -/
def rewrite (profileName : String) (liveChunks : List EmbeddingChunk) (vecs : List (List Value)) :
    Except WriteError (Table (StoredRow Value) × List (Row Value)) :=
  match checkDim args database with
  | .error error => .error error
  | .ok _ =>
      match asTuples profileName args.embedder.model args.embedder.dim vecs 0 liveChunks with
      | none => .error .indexError
      | some rows =>
          if database.fails then .error .databaseError
          else .ok (insertRows rows (keptRows args database profileName), rows)

def writeModuleEmbeddings : Outcome Value :=
  if args.chunks.isEmpty then ⟨database.table, [], .ok 0, args.stats, false⟩
  else
    match args.profileName with
    | none => ⟨database.table, [], .error .valueError, args.stats, false⟩
    | some profileName =>
        let reusedChunks := reused args database profileName
        let sent := toEmbed args database profileName
        let (embeddedChunks, embeddedVecs, calls) := embedChunksResilient args.embedder sent
        let stats := args.stats.map
          (Stats.counted sent.length embeddedChunks.length reusedChunks.length)
        let incomplete := decide (embeddedChunks.length < sent.length)
        let liveChunks := reusedChunks ++ embeddedChunks
        -- a reused chunk has its content in `stored`
        let vecs := reusedChunks.filterMap
          (fun chunk => (stored args database profileName).lookup chunk.content) ++ embeddedVecs
        if liveChunks.isEmpty then ⟨database.table, [], .ok calls, stats, incomplete⟩
        else
          match rewrite args database profileName liveChunks vecs with
          | .error error => ⟨database.table, [], .error error, stats, incomplete⟩
          | .ok (table, rows) => ⟨table, rows, .ok calls, stats, incomplete⟩

end Write

inductive Returned {Value : Type} (embedder : Embedder Value) (sent : List EmbeddingChunk) :
    Text → List Value → Prop where
  | batch {vecs : List (List Value)} {place : Nat} {content : Text} {vec : List Value}
      (answer : embedder.embed 0 (sent.map (·.content)) = some vecs)
      (text : (sent.map (·.content))[place]? = some content) (at' : vecs[place]? = some vec) :
      Returned embedder sent content vec
  | retry {vecs : List (List Value)} {place : Nat} {content : Text} {vec : List Value}
      (failed : embedder.embed 0 (sent.map (·.content)) = none)
      (answer : embedder.embed 1 (sent.map (·.content)) = some vecs)
      (text : (sent.map (·.content))[place]? = some content) (at' : vecs[place]? = some vec) :
      Returned embedder sent content vec
  | single {place : Nat} {chunk : EmbeddingChunk} {vec : List Value}
      (failed : embedder.embed 0 (sent.map (·.content)) = none)
      (failedAgain : embedder.embed 1 (sent.map (·.content)) = none)
      (at' : sent[place]? = some chunk)
      (answer : embedder.embed (2 + place) [chunk.content] = some [vec]) :
      Returned embedder sent chunk.content vec

section Sources
variable {Value : Type} (args : Args Value) (database : Database Value)

/-- A row of the module, read by the lookup, has the vector for the text, of the embedder's
model and dimension. -/
def StoredFor (profileName : String) (content : Text) (vec : List Value) : Prop :=
  ∃ rows model, database.seen = some rows ∧ args.embedder.model = some model ∧
    args.embedder.dim = some (vec.length : Int) ∧ ∃ row ∈ rows,
      row.chunk.module = args.module ∧ row.chunk.odooVersion = args.version ∧
      row.profileName = profileName ∧ row.embeddingModel = some model ∧
      row.embeddingDim = some (vec.length : Int) ∧ row.chunk.content = content ∧
      row.vec = some vec

def Available (profileName : String) (content : Text) (vec : List Value) : Prop :=
  Returned args.embedder (toEmbed args database profileName) content vec ∨
    StoredFor args database profileName content vec

/-- Every row that is inserted pairs a chunk with a vector for its text, every row of the table
is an old one or holds the text and the vector of an inserted one, and without vectors the table
stays as it is. -/
structure WellPaired : Prop where
  inserted : ∀ row ∈ (writeModuleEmbeddings args database).inserted, row.chunk ∈ args.chunks ∧
    row.embeddingModel = args.embedder.model ∧ row.embeddingDim = args.embedder.dim ∧
    ∃ vec, args.profileName = some row.profileName ∧ row.vec = some vec ∧
      Available args database row.profileName row.chunk.content vec
  table : ∀ row ∈ (writeModuleEmbeddings args database).table.rows,
    row ∈ database.table.rows ∨
      ∃ new ∈ (writeModuleEmbeddings args database).inserted,
        row.chunk.content = new.chunk.content ∧ row.vec = new.vec ∧
        row.embeddingModel = new.embeddingModel ∧ row.embeddingDim = new.embeddingDim
  kept : (∀ profileName, args.profileName = some profileName → ∀ chunk ∈ args.chunks, ∀ vec,
      ¬ Available args database profileName chunk.content vec) →
    (writeModuleEmbeddings args database).table = database.table

end Sources

section Answers
variable {Value : Type} {embedder : Embedder Value}

/-- What the per-chunk path keeps is aligned. -/
theorem embedSingly_pairs (embedder : Embedder Value) (chunks : List EmbeddingChunk) (call : Nat) :
    (embedSingly embedder call chunks).1.length = (embedSingly embedder call chunks).2.1.length ∧
      ∀ (index : Nat) (chunk : EmbeddingChunk) (vec : List Value),
        (embedSingly embedder call chunks).1[index]? = some chunk →
        (embedSingly embedder call chunks).2.1[index]? = some vec →
        ∃ place, chunks[place]? = some chunk ∧
          embedder.embed (call + place) [chunk.content] = some [vec] := by
  induction chunks generalizing call with
  | nil => exact ⟨rfl, fun index chunk vec listed => by cases listed⟩
  | cons first rest ih =>
      obtain ⟨lengths, pairs⟩ := ih (call + 1)
      have later : ∀ (index : Nat) (chunk : EmbeddingChunk) (vec : List Value),
          (embedSingly embedder (call + 1) rest).1[index]? = some chunk →
          (embedSingly embedder (call + 1) rest).2.1[index]? = some vec →
          ∃ place, (first :: rest)[place]? = some chunk ∧
            embedder.embed (call + place) [chunk.content] = some [vec] := by
        intro index chunk vec listed vecAt
        obtain ⟨place, isChunk, answer⟩ := pairs index chunk vec listed vecAt
        refine ⟨place + 1, by rw [List.getElem?_cons_succ, isChunk], ?_⟩
        rw [← answer, Nat.add_assoc, Nat.add_comm 1 place]
      rw [embedSingly]
      cases answer : embedder.embed call [first.content] with
      | none => exact ⟨lengths, later⟩
      | some vecs =>
          match vecs, answer with
          | [], _ => exact ⟨lengths, later⟩
          | _ :: _ :: _, _ => exact ⟨lengths, later⟩
          | [vec], answer =>
              refine ⟨congrArg Nat.succ lengths, ?_⟩
              intro index chunk other listed vecAt
              cases index with
              | zero =>
                  cases listed
                  cases vecAt
                  exact ⟨0, rfl, answer⟩
              | succ index => exact later index chunk other listed vecAt

theorem resilient_pairs (embedder : Embedder Value) (sent : List EmbeddingChunk) (index : Nat)
    (chunk : EmbeddingChunk) (vec : List Value)
    (listed : (embedChunksResilient embedder sent).1[index]? = some chunk)
    (vecAt : (embedChunksResilient embedder sent).2.1[index]? = some vec) :
    chunk ∈ sent ∧ Returned embedder sent chunk.content vec := by
  have textAt : ∀ {place : Nat}, sent[place]? = some chunk →
      (sent.map (·.content))[place]? = some chunk.content := by
    intro place isChunk
    rw [List.getElem?_map, isChunk, Option.map_some]
  unfold embedChunksResilient at listed vecAt
  split at listed
  · cases listed
  · rename_i some_
    rw [if_neg some_] at vecAt
    cases first : embedder.embed 0 (sent.map (·.content)) with
    | some vecs =>
        rw [first] at listed vecAt
        exact ⟨List.mem_of_getElem? listed, .batch first (textAt listed) vecAt⟩
    | none =>
        rw [first] at listed vecAt
        dsimp only at listed vecAt
        cases second : embedder.embed 1 (sent.map (·.content)) with
        | some vecs =>
            rw [second] at listed vecAt
            exact ⟨List.mem_of_getElem? listed, .retry first second (textAt listed) vecAt⟩
        | none =>
            rw [second] at listed vecAt
            obtain ⟨place, isChunk, answer⟩ :=
              (embedSingly_pairs embedder sent 2).2 index chunk vec listed vecAt
            exact ⟨List.mem_of_getElem? isChunk, .single first second isChunk answer⟩

/-- Without surviving chunks there are no vectors. -/
theorem resilient_none (embedder : Embedder Value) (sent : List EmbeddingChunk)
    (none_ : (embedChunksResilient embedder sent).1 = []) :
    (embedChunksResilient embedder sent).2.1 = [] := by
  unfold embedChunksResilient at none_ ⊢
  split at none_
  · rename_i empty
    rw [if_pos empty]
  · rename_i some_
    rw [if_neg some_]
    have filled : sent ≠ [] := fun empty => some_ (by rw [empty]; rfl)
    cases first : embedder.embed 0 (sent.map (·.content)) with
    | some vecs =>
        rw [first] at none_
        exact absurd none_ filled
    | none =>
        rw [first] at none_
        dsimp only at none_ ⊢
        cases second : embedder.embed 1 (sent.map (·.content)) with
        | some vecs =>
            rw [second] at none_
            exact absurd none_ filled
        | none =>
            rw [second] at none_
            have lengths := (embedSingly_pairs embedder sent 2).1
            dsimp only at none_ ⊢
            rw [none_] at lengths
            exact List.length_eq_zero_iff.mp lengths.symm

end Answers

section Lookup
variable {Value : Type} {args : Args Value} {database : Database Value} {profileName : String}

theorem mem_keepVectors (dim : Int) (rows : List (StoredRow Value))
    (start : List (Text × List Value)) {item : Text × List Value}
    (listed : item ∈ rows.foldl (keepVector dim) start) :
    item ∈ start ∨ ∃ row ∈ rows, row.chunk.content = item.1 ∧ row.vec = some item.2 ∧
      (item.2.length : Int) = dim := by
  induction rows generalizing start with
  | nil => exact .inl listed
  | cons row rest ih =>
      obtain before | ⟨later, inRest, same⟩ := ih (keepVector dim start row) listed
      · unfold keepVector at before
        cases isVec : row.vec with
        | none =>
            rw [isVec] at before
            exact .inl before
        | some vec =>
            rw [isVec] at before
            dsimp only at before
            split at before
            · exact .inl before
            · split at before
              · rename_i fits
                obtain old | new := List.mem_append.mp before
                · exact .inl old
                · refine .inr ⟨row, List.mem_cons_self, ?_⟩
                  rw [List.mem_singleton.mp new]
                  exact ⟨rfl, isVec, fits⟩
              · exact .inl before
      · exact .inr ⟨later, List.mem_cons_of_mem _ inRest, same⟩

theorem stored_from_row {content : Text} {vec : List Value}
    (found : (stored args database profileName).lookup content = some vec) :
    StoredFor args database profileName content vec := by
  obtain ⟨earlier, later, split, -⟩ := List.lookup_eq_some_iff.mp found
  have listed : (content, vec) ∈ stored args database profileName := by
    rw [split]
    exact List.mem_append_right _ List.mem_cons_self
  unfold stored at listed
  split at listed
  · unfold reusableVectors at listed
    cases isModel : args.embedder.model with
    | none =>
        rw [isModel] at listed
        cases listed
    | some model =>
        cases isDim : args.embedder.dim with
        | none =>
            rw [isModel, isDim] at listed
            cases listed
        | some dim =>
            rw [isModel, isDim] at listed
            dsimp only at listed
            split at listed
            · cases listed
            · cases isSeen : database.seen with
              | none =>
                  rw [isSeen] at listed
                  cases listed
              | some rows =>
                  rw [isSeen] at listed
                  obtain none_ | ⟨row, inRows, sameContent, isVec, length⟩ :=
                    mem_keepVectors dim _ _ listed
                  · cases none_
                  · obtain ⟨isRow, picked⟩ := List.mem_filter.mp inRows
                    simp only [selects, Bool.and_eq_true, beq_iff_eq] at picked
                    obtain ⟨⟨⟨⟨⟨sameModule, sameVersion⟩, sameProfile⟩, sameModel⟩, sameDim⟩, -⟩ :=
                      picked
                    rw [← length] at sameDim isDim
                    exact ⟨rows, model, isSeen, isModel, isDim, row, isRow, sameModule, sameVersion,
                      sameProfile, sameModel, sameDim, sameContent, isVec⟩
  · cases listed

theorem dedup_subset {chunks : List EmbeddingChunk} {chunk : EmbeddingChunk}
    (listed : chunk ∈ dedup chunks) : chunk ∈ chunks := by
  have found := OrderedDict.mem_index.mp listed
  rw [OrderedDict.lookup_index] at found
  exact List.mem_reverse.mp (List.mem_of_find?_eq_some found)

def reusedVecs (args : Args Value) (database : Database Value) (profileName : String) :
    List (List Value) :=
  (reused args database profileName).filterMap
    fun chunk => (stored args database profileName).lookup chunk.content

theorem reused_found {chunk : EmbeddingChunk} (listed : chunk ∈ reused args database profileName) :
    ∃ vec, (stored args database profileName).lookup chunk.content = some vec :=
  Option.isSome_iff_exists.mp (List.mem_filter.mp listed).2

theorem reusedVecs_pairs (args : Args Value) (database : Database Value) (profileName : String) :
    (reusedVecs args database profileName).map some =
      (reused args database profileName).map
        fun chunk => (stored args database profileName).lookup chunk.content := by
  unfold reusedVecs
  have found : ∀ chunk ∈ reused args database profileName,
      ∃ vec, (stored args database profileName).lookup chunk.content = some vec :=
    fun chunk listed => reused_found listed
  generalize reused args database profileName = chunks at found ⊢
  induction chunks with
  | nil => rfl
  | cons chunk rest ih =>
      obtain ⟨vec, isVec⟩ := found chunk List.mem_cons_self
      have rest := ih fun other listed => found other (List.mem_cons_of_mem _ listed)
      rw [List.filterMap_cons, isVec, List.map_cons, List.map_cons, isVec, rest]

end Lookup

section Joined
variable {Value : Type} {args : Args Value} {database : Database Value} {profileName : String}

def liveChunks (args : Args Value) (database : Database Value) (profileName : String) :
    List EmbeddingChunk :=
  reused args database profileName ++
    (embedChunksResilient args.embedder (toEmbed args database profileName)).1

def liveVecs (args : Args Value) (database : Database Value) (profileName : String) :
    List (List Value) :=
  reusedVecs args database profileName ++
    (embedChunksResilient args.embedder (toEmbed args database profileName)).2.1

/-- At every position a chunk has a vector for its text. -/
theorem live_pairs {index : Nat} {chunk : EmbeddingChunk} {vec : List Value}
    (listed : (liveChunks args database profileName)[index]? = some chunk)
    (vecAt : (liveVecs args database profileName)[index]? = some vec) :
    chunk ∈ args.chunks ∧ Available args database profileName chunk.content vec := by
  have pairs := reusedVecs_pairs args database profileName
  have lengths : (reusedVecs args database profileName).length =
      (reused args database profileName).length := by
    have same := congrArg List.length pairs
    rwa [List.length_map, List.length_map] at same
  rw [liveChunks] at listed
  rw [liveVecs] at vecAt
  by_cases inReused : index < (reused args database profileName).length
  · rw [List.getElem?_append_left inReused] at listed
    rw [List.getElem?_append_left (by rw [lengths]; exact inReused)] at vecAt
    have isChunk := List.mem_of_getElem? listed
    have here : ((reusedVecs args database profileName).map some)[index]? = _ :=
      congrArg (·[index]?) pairs
    rw [List.getElem?_map, List.getElem?_map, vecAt, listed] at here
    refine ⟨dedup_subset (List.mem_filter.mp isChunk).1, .inr (stored_from_row ?_)⟩
    exact (Option.some.inj here).symm
  · rw [List.getElem?_append_right (not_lt.mp inReused)] at listed
    rw [List.getElem?_append_right (by rw [lengths]; exact not_lt.mp inReused), lengths] at vecAt
    obtain ⟨isSent, returned⟩ := resilient_pairs args.embedder _ _ chunk vec listed vecAt
    exact ⟨dedup_subset (List.mem_filter.mp isSent).1, .inl returned⟩

theorem asTuples_pairs {embModel : Option String} {embDim : Option Int} {vecs : List (List Value)}
    {chunks : List EmbeddingChunk} {start : Nat} {rows : List (Row Value)}
    (made : asTuples profileName embModel embDim vecs start chunks = some rows) :
    ∀ row ∈ rows, ∃ index chunk vec, chunks[index]? = some chunk ∧
      vecs[start + index]? = some vec ∧ row = ⟨chunk, profileName, some vec, embModel, embDim⟩ := by
  induction chunks generalizing start rows with
  | nil =>
      cases made
      intro row listed
      cases listed
  | cons chunk rest ih =>
      rw [asTuples] at made
      cases vecAt : vecs[start]? with
      | none =>
          rw [vecAt] at made
          cases made
      | some vec =>
          rw [vecAt] at made
          obtain ⟨others, othersMade, rfl⟩ := Option.map_eq_some_iff.mp made
          intro row listed
          obtain isFirst | later := List.mem_cons.mp listed
          · exact ⟨0, chunk, vec, rfl, vecAt, isFirst⟩
          · obtain ⟨index, other, otherVec, isChunk, isVec, same⟩ := ih othersMade row later
            refine ⟨index + 1, other, otherVec, isChunk, ?_, same⟩
            rw [← isVec, Nat.add_assoc, Nat.add_comm 1 index]

theorem asTuples_empty {embModel : Option String} {embDim : Option Int}
    {chunks : List EmbeddingChunk} (filled : chunks ≠ []) :
    asTuples profileName embModel embDim ([] : List (List Value)) 0 chunks = none := by
  cases chunks with
  | nil => exact absurd rfl filled
  | cons chunk rest => rfl

theorem rewrite_ok {live : List EmbeddingChunk} {vecs : List (List Value)}
    {table : Table (StoredRow Value)} {rows : List (Row Value)}
    (done : rewrite args database profileName live vecs = .ok (table, rows)) :
    asTuples profileName args.embedder.model args.embedder.dim vecs 0 live = some rows ∧
      table = insertRows rows (keptRows args database profileName) := by
  unfold rewrite at done
  cases checked : checkDim args database with
  | error error =>
      rw [checked] at done
      cases done
  | ok _ =>
      rw [checked] at done
      cases made : asTuples profileName args.embedder.model args.embedder.dim vecs 0 live with
      | none =>
          rw [made] at done
          cases done
      | some tuples =>
          rw [made] at done
          dsimp only at done
          split at done
          · cases done
          · cases done
            exact ⟨rfl, rfl⟩

theorem keptRows_subset {row : StoredRow Value}
    (listed : row ∈ (keptRows args database profileName).rows) : row ∈ database.table.rows := by
  unfold keptRows at listed
  split at listed
  · exact (List.mem_filter.mp listed).1
  · exact listed

theorem insertRows_rows {rows : List (Row Value)} {table : Table (StoredRow Value)}
    {row : StoredRow Value} (listed : row ∈ (insertRows rows table).rows) :
    row ∈ table.rows ∨ ∃ new ∈ rows, row.chunk.content = new.chunk.content ∧ row.vec = new.vec ∧
      row.embeddingModel = new.embeddingModel ∧ row.embeddingDim = new.embeddingDim := by
  obtain old | inserted := List.mem_append.mp listed
  · obtain ⟨before, inTable, same⟩ := List.mem_map.mp old
    obtain ⟨new, inRows, -, isUpdate⟩ | ⟨-, untouched⟩ := Table.conflictUpdate_cases
      (fun new row => Row.sameKey new (StoredRow.toRow row)) StoredRow.updated rows before
    · rw [isUpdate] at same
      rw [← same]
      exact .inr ⟨new, inRows, rfl, rfl, rfl, rfl⟩
    · rw [untouched] at same
      rw [← same]
      exact .inl inTable
  · obtain ⟨⟨new, id⟩, inserted, same⟩ := List.mem_map.mp inserted
    have inRows := (List.mem_filter.mp (List.fst_mem_of_mem_zipIdx inserted)).1
    rw [← same]
    exact .inr ⟨new, inRows, rfl, rfl, rfl, rfl⟩

theorem write_cases (args : Args Value) (database : Database Value) :
    ((writeModuleEmbeddings args database).inserted = [] ∧
        (writeModuleEmbeddings args database).table = database.table) ∨
      ∃ profileName, args.profileName = some profileName ∧
        asTuples profileName args.embedder.model args.embedder.dim
          (liveVecs args database profileName) 0 (liveChunks args database profileName) =
            some (writeModuleEmbeddings args database).inserted ∧
        liveChunks args database profileName ≠ [] ∧
        (writeModuleEmbeddings args database).table =
          insertRows (writeModuleEmbeddings args database).inserted
            (keptRows args database profileName) := by
  unfold writeModuleEmbeddings
  split
  · exact .inl ⟨rfl, rfl⟩
  · cases isProfile : args.profileName with
    | none => exact .inl ⟨rfl, rfl⟩
    | some profileName =>
        dsimp only
        split
        · exact .inl ⟨rfl, rfl⟩
        · rename_i filled
          cases done : rewrite args database profileName (liveChunks args database profileName)
              (liveVecs args database profileName) with
          | error error =>
              rw [liveChunks, liveVecs, reusedVecs] at done
              rw [done]
              exact .inl ⟨rfl, rfl⟩
          | ok result =>
              obtain ⟨made, isTable⟩ := rewrite_ok done
              rw [liveChunks, liveVecs, reusedVecs] at done
              rw [done]
              refine .inr ⟨profileName, rfl, made, fun empty => filled ?_, isTable⟩
              rw [liveChunks] at empty
              rw [empty]
              rfl

theorem liveVecs_none (none_ : ∀ chunk ∈ args.chunks, ∀ vec,
      ¬ Available args database profileName chunk.content vec) :
    liveVecs args database profileName = [] := by
  have noReused : reused args database profileName = [] := by
    refine List.eq_nil_iff_forall_not_mem.mpr fun chunk listed => ?_
    obtain ⟨vec, found⟩ := reused_found listed
    exact none_ chunk (dedup_subset (List.mem_filter.mp listed).1) vec
      (.inr (stored_from_row found))
  cases isChunks : (embedChunksResilient args.embedder (toEmbed args database profileName)).1 with
  | nil =>
      rw [liveVecs, reusedVecs, noReused, resilient_none _ _ isChunks]
      rfl
  | cons chunk rest =>
      cases isVecs : (embedChunksResilient args.embedder (toEmbed args database profileName)).2.1 with
      | nil =>
          rw [liveVecs, reusedVecs, noReused, isVecs]
          rfl
      | cons vec others =>
          obtain ⟨isSent, returned⟩ := resilient_pairs args.embedder
            (toEmbed args database profileName) 0 chunk vec (by rw [isChunks]; rfl)
            (by rw [isVecs]; rfl)
          exact absurd (.inl returned)
            (none_ chunk (dedup_subset (List.mem_filter.mp isSent).1) vec)

end Joined

/-- For every list of chunks, stored rows and answers of the embedder. -/
theorem write_wellPaired {Value : Type} (args : Args Value) (database : Database Value) :
    WellPaired args database := by
  obtain ⟨nothing, same⟩ | ⟨profileName, isProfile, made, filled, isTable⟩ :=
    write_cases args database
  · constructor
    · intro row listed
      rw [nothing] at listed
      cases listed
    · intro row listed
      rw [same] at listed
      exact .inl listed
    · intro _
      exact same
  · have pairs := asTuples_pairs made
    constructor
    · intro row listed
      obtain ⟨index, chunk, vec, isChunk, isVec, rfl⟩ := pairs row listed
      rw [Nat.zero_add] at isVec
      obtain ⟨inChunks, available⟩ := live_pairs isChunk isVec
      exact ⟨inChunks, rfl, rfl, vec, isProfile, rfl, available⟩
    · intro row listed
      rw [isTable] at listed
      obtain old | new := insertRows_rows listed
      · exact .inl (keptRows_subset old)
      · exact .inr new
    · intro none_
      rw [liveVecs_none (none_ profileName isProfile), asTuples_empty filled] at made
      cases made

section Complete
variable {Value : Type}

theorem embedSingly_sublist (embedder : Embedder Value) (chunks : List EmbeddingChunk)
    (call : Nat) : (embedSingly embedder call chunks).1.Sublist chunks := by
  induction chunks generalizing call with
  | nil => exact List.Sublist.slnil
  | cons first rest ih =>
      rw [embedSingly]
      dsimp only
      split
      · exact (ih (call + 1)).cons_cons first
      · exact (ih (call + 1)).cons first

theorem resilient_sublist (embedder : Embedder Value) (sent : List EmbeddingChunk) :
    (embedChunksResilient embedder sent).1.Sublist sent := by
  unfold embedChunksResilient
  split
  · exact List.nil_sublist sent
  · split
    · exact List.Sublist.refl sent
    · split
      · exact List.Sublist.refl sent
      · exact embedSingly_sublist embedder sent 2

theorem asTuples_chunks {profileName : String} {embModel : Option String} {embDim : Option Int}
    {vecs : List (List Value)} {chunks : List EmbeddingChunk} {start : Nat}
    {rows : List (Row Value)}
    (made : asTuples profileName embModel embDim vecs start chunks = some rows) :
    rows.map (·.chunk) = chunks := by
  induction chunks generalizing start rows with
  | nil =>
      cases made
      rfl
  | cons chunk rest ih =>
      rw [asTuples] at made
      split at made
      · cases made
      · obtain ⟨others, othersMade, rfl⟩ := Option.map_eq_some_iff.mp made
        rw [List.map_cons, ih othersMade]

variable {args : Args Value} {database : Database Value}

theorem write_returns {calls : Int}
    (done : (writeModuleEmbeddings args database).result = .ok calls) :
    (args.chunks = [] ∧ (writeModuleEmbeddings args database).inserted = [] ∧
        (writeModuleEmbeddings args database).incomplete = false) ∨
      ∃ profileName, (writeModuleEmbeddings args database).inserted.map (·.chunk) =
          liveChunks args database profileName ∧
        (writeModuleEmbeddings args database).incomplete =
          decide ((embedChunksResilient args.embedder (toEmbed args database profileName)).1.length <
            (toEmbed args database profileName).length) := by
  unfold writeModuleEmbeddings at done ⊢
  split at done
  · rename_i empty
    rw [if_pos empty]
    exact .inl ⟨List.isEmpty_iff.mp empty, rfl, rfl⟩
  · rename_i filled
    rw [if_neg filled]
    cases isProfile : args.profileName with
    | none =>
        rw [isProfile] at done
        cases done
    | some profileName =>
        rw [isProfile] at done
        dsimp only at done ⊢
        refine .inr ⟨profileName, ?_⟩
        split at done
        · rename_i noLive
          rw [if_pos noLive]
          exact ⟨(List.isEmpty_iff.mp noLive).symm, rfl⟩
        · rename_i some_
          rw [if_neg some_]
          split at done
          · cases done
          · rename_i written
            exact ⟨asTuples_chunks (rewrite_ok written).1, rfl⟩

/-- A write that returns is complete exactly when it inserts one row for each chunk that is left
for its key, whatever the embedder failed on. -/
theorem complete_iff {Value : Type} (args : Args Value) (database : Database Value) (calls : Int)
    (done : (writeModuleEmbeddings args database).result = .ok calls) :
    (writeModuleEmbeddings args database).incomplete = false ↔
      ((writeModuleEmbeddings args database).inserted.map (·.chunk)).Perm (dedup args.chunks) := by
  rcases write_returns done with ⟨empty, nothing, whole⟩ | ⟨profileName, live, reported⟩
  · rw [nothing, whole, empty]
    exact ⟨fun _ => List.Perm.refl _, fun _ => rfl⟩
  · rw [live, reported, liveChunks, decide_eq_false_iff_not, Nat.not_lt]
    have split : (reused args database profileName ++ toEmbed args database profileName).Perm
        (dedup args.chunks) := List.filter_append_perm _ _
    have embedded := resilient_sublist args.embedder (toEmbed args database profileName)
    constructor
    · intro whole
      rwa [embedded.eq_of_length_le whole]
    · intro same
      have lengths := (same.trans split.symm).length_eq
      rw [List.length_append, List.length_append] at lengths
      omega

end Complete

def methodChunk (name : String) (content : Text) : EmbeddingChunk where
  chunkType := .method
  module := "sale"
  odooVersion := "17.0"
  entityName := name
  modelName := none
  filePath := "sale/models/sale.py"
  chunkIdx := 0
  content
  lineStart := none
  repo := none
  repoId := none

/-- The batch fails, and so does the second chunk alone. -/
def halfEmbedded : Args Nat where
  module := "sale"
  version := "17.0"
  chunks := [methodChunk "a" "a".toList, methodChunk "b" "b".toList]
  embedder := ⟨none, none, fun call _ => if call = 2 then some [[1]] else none, none⟩
  profileName := some "odoo"
  replace := false
  stats := none
  reuse := false

theorem halfEmbedded_complete_iff :
    (writeModuleEmbeddings halfEmbedded ⟨none, ⟨[], 1⟩, false⟩).incomplete = false ↔
      ((writeModuleEmbeddings halfEmbedded ⟨none, ⟨[], 1⟩, false⟩).inserted.map (·.chunk)).Perm
        (dedup halfEmbedded.chunks) :=
  complete_iff halfEmbedded ⟨none, ⟨[], 1⟩, false⟩ 1 rfl

end OdooSemantic.Indexer.EmbeddingWrites
