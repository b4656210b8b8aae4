import OdooSemantic.Lib.Cuts
import OdooSemantic.Lib.OrderedDict
import OdooSemantic.Indexer.ScssMixins

/-!
# The keys of chunks

Chunks are written one for each type, entity, file and number, the last of several. An
entity is one text or several that share its name; what each becomes is numbered from zero.
-/

namespace OdooSemantic.Indexer.ChunkKeys

open Lib.Cuts Lib.Windows
open Lib.OrderedDict (index index_keeps_iff)
open Indexer.EmbeddingChunks
open Indexer.JsChunks (Era JSChunk Text chunkAt parseEra sizes)
open Indexer.ScssParser (emit)

abbrev ChunkKey := ChunkType × String × String × Nat

/-- `(c.chunk_type, c.entity_name, c.file_path, c.chunk_idx)`. -/
def chunkKey (chunk : EmbeddingChunk) : ChunkKey :=
  (chunk.chunkType, chunk.entityName, chunk.filePath, chunk.chunkIdx)

/-- What `write_module_embeddings` keeps of its chunks: the last of each key. -/
def dedup (chunks : List EmbeddingChunk) : List EmbeddingChunk :=
  (index chunkKey chunks).map Prod.snd

def NoneLost (chunks : List EmbeddingChunk) : Prop :=
  ∀ chunk ∈ chunks, ∃ kept ∈ dedup chunks,
    chunkKey kept = chunkKey chunk ∧ kept.content = chunk.content

def KeysTell (chunks : List EmbeddingChunk) : Prop :=
  ∀ chunk ∈ chunks, ∀ other ∈ chunks, chunkKey chunk = chunkKey other →
    chunk.content = other.content

theorem noneLost_iff (chunks : List EmbeddingChunk) : NoneLost chunks ↔ KeysTell chunks := by
  rw [NoneLost, dedup, index_keeps_iff, KeysTell]

/-- A text the JavaScript chunker emits under an entity, before it is cut into windows. -/
structure JsUnit where
  filePath : String
  era : Era
  entityName : Text
  content : Text

def JsUnit.chunks (info : JsChunks.ModuleInfo) (unit : JsUnit) : List JSChunk :=
  (cut sizes unit.content).map (chunkAt info unit.filePath unit.era unit.entityName)

/-- A text a stylesheet parser emits: `_emit` is the same in the three of them. -/
structure StyleUnit where
  filePath : String
  chunkKind : ChunkKind
  entityName : Text
  content : Text

def StyleUnit.chunks (module version : String) (unit : StyleUnit) : List StyleChunk :=
  emit module version unit.filePath unit.content unit.chunkKind unit.entityName

structure ParsedModule where
  parse : ParseResult
  views : Option ViewParseResult
  js : List JsUnit
  info : Option ModuleInfo
  css : List StyleUnit
  scss : List StyleUnit
  less : List StyleUnit

section Module
variable (settings : TokenSettings) (py : PyText) (module version : String)

def ParsedModule.chunks (parsed : ParsedModule) : List EmbeddingChunk :=
  makeChunks settings py module version parsed.parse parsed.views
      (parsed.js.flatMap (JsUnit.chunks ⟨module, version⟩)) ++
    (makeCssChunks settings parsed.info (parsed.css.flatMap (StyleUnit.chunks module version)) ++
    (makeScssChunks settings parsed.info
        (parsed.scss.flatMap (StyleUnit.chunks module version)) ++
    makeLessChunks settings parsed.info
        (parsed.less.flatMap (StyleUnit.chunks module version))))

end Module

structure EntityUnit where
  chunkType : ChunkType
  entityName : String
  filePath : String
  text : Text

def EntityUnit.SameName (unit other : EntityUnit) : Prop :=
  unit.chunkType = other.chunkType ∧ unit.entityName = other.entityName ∧
    unit.filePath = other.filePath

def EntityUnit.key (unit : EntityUnit) (chunkIdx : Nat) : ChunkKey :=
  (unit.chunkType, unit.entityName, unit.filePath, chunkIdx)

section Units
variable (py : PyText) (module version : String)

def methodUnit (mod : ModuleInfo) (model : ModelInfo) (method : MethodInfo) : EntityUnit :=
  ⟨.method, model.name ++ "." ++ method.name, mod.relativePath (orElse model.filePath mod.path),
    ("[" ++ module ++ "] " ++ model.name ++ "." ++ method.name ++ " (" ++ version ++ ")" ++ "\n" ++
      orElse method.sourceCode ("def " ++ method.name ++ "(self): ...")).toList⟩

def fieldUnit (mod : ModuleInfo) (model : ModelInfo) (fld : FieldInfo) : EntityUnit :=
  ⟨.field, model.name ++ "." ++ fld.name, mod.relativePath (orElse model.filePath mod.path),
    ("[" ++ module ++ "] " ++ model.name ++ ": " ++ fld.name ++ " (" ++ fld.ttype ++ ")" ++ "\n" ++
      orElse fld.sourceDefinition
        (fld.name ++ " = fields." ++ py.capitalize fld.ttype ++ "(...)")).toList⟩

def viewUnit (mod : ModuleInfo) (view : ViewInfo) : EntityUnit :=
  ⟨.view, view.xmlid, mod.relativePath (orElse view.filePath mod.path),
    ("[" ++ module ++ "] " ++ view.xmlid ++ " (" ++ view.viewType ++
      (match view.inheritXmlid with
        | none => ""
        | some xmlid => if xmlid = "" then "" else ", inherit=" ++ xmlid) ++ ")" ++ "\n" ++
      orElse view.arch ("<!-- arch missing for " ++ view.xmlid ++ " -->")).toList⟩

def qwebUnit (mod : ModuleInfo) (qweb : QWebInfo) : EntityUnit :=
  ⟨.qweb, qweb.xmlid, mod.relativePath (orElse qweb.filePath mod.path),
    ("[" ++ module ++ "] " ++ qweb.xmlid ++ "\n" ++
      orElse qweb.content ("<!-- content missing for " ++ qweb.xmlid ++ " -->")).toList⟩

def jsUnit (mod : ModuleInfo) (unit : JsUnit) : EntityUnit :=
  ⟨.js unit.era, String.ofList unit.entityName, mod.relativePath unit.filePath, unit.content⟩

def styleUnit (chunkType : ChunkType) (kinds : Bool) (info : Option ModuleInfo)
    (unit : StyleUnit) : EntityUnit :=
  ⟨chunkType,
    if kinds then unit.chunkKind.word ++ ":" ++ String.ofList unit.entityName
    else String.ofList unit.entityName,
    match info with
      | none => unit.filePath
      | some info => info.relativePath unit.filePath,
    unit.content⟩

def ParsedModule.units (parsed : ParsedModule) : List EntityUnit :=
  let mod := parsed.parse.module
  (parsed.parse.models.flatMap fun model =>
    model.methods.map (methodUnit module version mod model) ++
      model.fields.map (fieldUnit py module mod model)) ++
  ((match parsed.views with
    | none => []
    | some views =>
        views.views.map (viewUnit module mod) ++ views.qweb.map (qwebUnit module mod)) ++
  (parsed.js.map (jsUnit mod) ++
  (parsed.css.map (styleUnit .css false parsed.info) ++
  (parsed.scss.map (styleUnit .scss true parsed.info) ++
  parsed.less.map (styleUnit .less true parsed.info)))))

end Units

section Pieces
variable (settings : TokenSettings)

def windowed : ChunkType → Bool
  | .js _ | .css | .scss | .less => true
  | _ => false

def numbered : Nat → List Text → List (Nat × Text)
  | _, [] => []
  | start, text :: rest => (start, text) :: numbered (start + 1) rest

def pieces (unit : EntityUnit) : List (Nat × Text) :=
  if windowed unit.chunkType then
    (cut sizes unit.text).flatMap fun window =>
      numbered window.1 (splitByTokenBudget settings window.2)
  else
    numbered 0 (((cut sizes unit.text).map Prod.snd).flatMap (splitByTokenBudget settings))

def keyed (chunk : EmbeddingChunk) : ChunkKey × Text := (chunkKey chunk, chunk.content)

def EntityUnit.rows (unit : EntityUnit) : List (ChunkKey × Text) :=
  (pieces settings unit).map fun piece => (unit.key piece.1, piece.2)

variable {settings}

theorem splitByTokenBudget_fits {text : Text}
    (fits : (estimateTokens settings text : Int) ≤ settings.budget) :
    splitByTokenBudget settings text = [text] := by
  rw [splitByTokenBudget]
  by_cases none : settings.budget ≤ 0
  · rw [if_pos none]
  · rw [if_neg none, if_pos fits]

theorem numbered_zipIdx (texts : List Text) (start first : Nat) :
    (texts.zipIdx first).map (fun piece => (start + piece.2, piece.1)) =
      numbered (start + first) texts := by
  induction texts generalizing first with
  | nil => rfl
  | cons text rest ih =>
      rw [List.zipIdx_cons, List.map_cons, ih, numbered]
      rfl

theorem numbered_append (start : Nat) (left right : List Text) :
    numbered start (left ++ right) = numbered start left ++ numbered (start + left.length) right := by
  induction left generalizing start with
  | nil => rfl
  | cons text rest ih =>
      have shift : start + (text :: rest).length = start + 1 + rest.length := by
        rw [List.length_cons]
        omega
      rw [List.cons_append, numbered, numbered, ih, shift, List.cons_append]

theorem mem_numbered {texts : List Text} {start number : Nat} {text : Text} :
    (number, text) ∈ numbered start texts ↔
      ∃ place, number = start + place ∧ texts[place]? = some text := by
  induction texts generalizing start with
  | nil =>
      constructor
      · intro none
        cases none
      · intro given
        obtain ⟨place, -, none⟩ := given
        cases none
  | cons first rest ih =>
      rw [numbered, List.mem_cons, ih, Prod.mk.injEq]
      constructor
      · intro either
        obtain ⟨same, isFirst⟩ | ⟨place, same, there⟩ := either
        · exact ⟨0, same, by rw [isFirst]; rfl⟩
        · exact ⟨place + 1, by omega, there⟩
      · intro given
        obtain ⟨place, same, there⟩ := given
        cases place with
        | zero =>
            cases there
            exact .inl ⟨same, rfl⟩
        | succ place => exact .inr ⟨place, by omega, there⟩

section Rows
variable {base : EmbeddingChunk}

def rowOf (base : EmbeddingChunk) (piece : Nat × Text) : ChunkKey × Text :=
  ((base.chunkType, base.entityName, base.filePath, piece.1), piece.2)

theorem keyed_tokenSplit (content : Text) (startIdx : Nat) :
    (tokenSplitChunk settings base content startIdx).map keyed =
      (numbered startIdx (splitByTokenBudget settings content)).map (rowOf base) := by
  rw [tokenSplitChunk]
  by_cases fits : (estimateTokens settings content : Int) ≤ settings.budget
  · rw [if_pos fits, splitByTokenBudget_fits fits]
    rfl
  · rw [if_neg fits, ← Nat.add_zero startIdx, ← numbered_zipIdx, List.map_map, List.map_map]
    rfl

theorem keyed_numberedWindows (windows : List Text) (idx : Nat) :
    (numberedWindows settings base idx windows).map keyed =
      (numbered idx (windows.flatMap (splitByTokenBudget settings))).map (rowOf base) := by
  induction windows generalizing idx with
  | nil => rfl
  | cons window others ih =>
      have length : (tokenSplitChunk settings base window idx).length =
          (splitByTokenBudget settings window).length := by
        rw [tokenSplitChunk]
        split
        · rename_i fits
          rw [splitByTokenBudget_fits fits]
          rfl
        · rw [List.length_map, List.length_zipIdx]
      rw [numberedWindows, List.map_append, ih, keyed_tokenSplit, length, List.flatMap_cons, numbered_append,
        List.map_append]

theorem keyed_sliding (raw : Text) (own : windowed base.chunkType = false) :
    (sliding settings base raw).map keyed =
      EntityUnit.rows settings ⟨base.chunkType, base.entityName, base.filePath, raw⟩ := by
  have whole : (sliding settings base raw).map keyed =
      (numbered 0 (((cut sizes raw).map Prod.snd).flatMap
        (splitByTokenBudget settings))).map (rowOf base) := by
    rw [sliding, cut]
    by_cases short : raw.length ≤ sizes.window
    · rw [if_pos short, if_pos short, keyed_tokenSplit, List.map_cons, List.map_nil,
        List.flatMap_cons, List.flatMap_nil, List.append_nil]
    · rw [if_neg short, if_neg short, keyed_numberedWindows]
  rw [whole, EntityUnit.rows, pieces, own, if_neg Bool.false_ne_true]
  rfl

theorem keyed_windows (raw : Text) (parsed : windowed base.chunkType = true) :
    ((cut sizes raw).flatMap fun window =>
      tokenSplitChunk settings base window.2 window.1).map keyed =
      EntityUnit.rows settings ⟨base.chunkType, base.entityName, base.filePath, raw⟩ := by
  rw [EntityUnit.rows, pieces, parsed, if_pos rfl, List.map_flatMap, List.map_flatMap]
  simp only [keyed_tokenSplit]
  rfl

end Rows

end Pieces

section ModuleRows
variable (settings : TokenSettings) (py : PyText) (module version : String)

theorem keyed_flatMap {Item : Type} (items : List Item) (make : Item → List EmbeddingChunk)
    (unitOf : Item → EntityUnit)
    (each : ∀ item, (make item).map keyed = (unitOf item).rows settings) :
    (items.flatMap make).map keyed = (items.map unitOf).flatMap (EntityUnit.rows settings) := by
  rw [List.map_flatMap, List.flatMap_map]
  simp only [each]

theorem keyed_method (mod : ModuleInfo) (model : ModelInfo) (method : MethodInfo) :
    (methodChunks settings module version mod model method).map keyed =
      (methodUnit module version mod model method).rows settings := by
  rw [methodChunks, keyed_sliding _ rfl, methodUnit]

theorem keyed_field (mod : ModuleInfo) (model : ModelInfo) (fld : FieldInfo) :
    (fieldChunks settings py module version mod model fld).map keyed =
      (fieldUnit py module mod model fld).rows settings := by
  rw [fieldChunks, keyed_sliding _ rfl, fieldUnit]

theorem keyed_view (mod : ModuleInfo) (view : ViewInfo) :
    (viewChunks settings module version mod view).map keyed =
      (viewUnit module mod view).rows settings := by
  rw [viewChunks, keyed_sliding _ rfl]
  rfl

theorem keyed_qweb (mod : ModuleInfo) (qweb : QWebInfo) :
    (qwebChunks settings module version mod qweb).map keyed =
      (qwebUnit module mod qweb).rows settings := by
  rw [qwebChunks, keyed_sliding _ rfl, qwebUnit]

theorem keyed_js (mod : ModuleInfo) (unit : JsUnit) :
    ((unit.chunks ⟨module, version⟩).flatMap (jsChunkChunks settings module version mod)).map
      keyed = (jsUnit mod unit).rows settings := by
  rw [JsUnit.chunks, List.flatMap_map]
  exact @keyed_windows settings
    { chunkType := .js unit.era, module := module, odooVersion := version
      entityName := String.ofList unit.entityName, modelName := none
      filePath := mod.relativePath unit.filePath
      chunkIdx := 0, content := [], lineStart := none
      repo := mod.repo, repoId := mod.repoId } unit.content rfl

theorem keyed_style (chunkType : ChunkType) (parsed : windowed chunkType = true) (kinds : Bool)
    (info : Option ModuleInfo) (name : StyleChunk → String)
    (names : ∀ chunk, name chunk = if kinds then kindEntity chunk else chunk.entityName)
    (unit : StyleUnit) :
    ((unit.chunks module version).flatMap fun chunk =>
      styleChunkChunks settings chunkType info (name chunk) chunk).map keyed =
        (styleUnit chunkType kinds info unit).rows settings := by
  rw [StyleUnit.chunks, emit, List.flatMap_map]
  simp only [names]
  exact @keyed_windows settings
    { chunkType := chunkType, module := module, odooVersion := version
      entityName := (styleUnit chunkType kinds info unit).entityName, modelName := none
      filePath := (styleUnit chunkType kinds info unit).filePath
      chunkIdx := 0, content := [], lineStart := none
      repo := info.bind ModuleInfo.repo, repoId := info.bind ModuleInfo.repoId } unit.content parsed

theorem keyed_models (mod : ModuleInfo) (models : List ModelInfo) :
    (models.flatMap fun model =>
      (model.methods.flatMap (methodChunks settings module version mod model)) ++
        model.fields.flatMap (fieldChunks settings py module version mod model)).map keyed =
      (models.flatMap fun model =>
        model.methods.map (methodUnit module version mod model) ++
          model.fields.map (fieldUnit py module mod model)).flatMap
            (EntityUnit.rows settings) := by
  rw [List.map_flatMap, List.flatMap_assoc]
  congr 1
  funext model
  rw [List.map_append, List.flatMap_append,
    keyed_flatMap settings _ _ _ (keyed_method settings module version mod model),
    keyed_flatMap settings _ _ _ (keyed_field settings py module version mod model)]

theorem keyed_views (mod : ModuleInfo) (result : ViewParseResult) :
    (result.views.flatMap (viewChunks settings module version mod) ++
      result.qweb.flatMap (qwebChunks settings module version mod)).map keyed =
      (result.views.map (viewUnit module mod) ++ result.qweb.map (qwebUnit module mod)).flatMap
        (EntityUnit.rows settings) := by
  rw [List.map_append, List.flatMap_append,
    keyed_flatMap settings _ _ _ (keyed_view settings module version mod),
    keyed_flatMap settings _ _ _ (keyed_qweb settings module version mod)]

theorem keyed_module (parsed : ParsedModule) :
    (parsed.chunks settings py module version).map keyed =
      (parsed.units py module version).flatMap (EntityUnit.rows settings) := by
  obtain ⟨parse, views, js, info, css, scss, less⟩ := parsed
  have scripts : ((js.flatMap (JsUnit.chunks ⟨module, version⟩)).flatMap
      (jsChunkChunks settings module version parse.module)).map keyed =
      (js.map (jsUnit parse.module)).flatMap (EntityUnit.rows settings) := by
    rw [List.flatMap_assoc]
    exact keyed_flatMap settings _ _ _ (keyed_js settings module version parse.module)
  have cssRows : (makeCssChunks settings info
      (css.flatMap (StyleUnit.chunks module version))).map keyed =
      (css.map (styleUnit .css false info)).flatMap (EntityUnit.rows settings) := by
    rw [makeCssChunks, List.flatMap_assoc]
    exact keyed_flatMap settings _ _ _ (keyed_style settings module version .css rfl false
      info StyleChunk.entityName (fun _ => rfl))
  have scssRows : (makeScssChunks settings info
      (scss.flatMap (StyleUnit.chunks module version))).map keyed =
      (scss.map (styleUnit .scss true info)).flatMap (EntityUnit.rows settings) := by
    rw [makeScssChunks, List.flatMap_assoc]
    exact keyed_flatMap settings _ _ _ (keyed_style settings module version .scss rfl true
      info kindEntity (fun _ => rfl))
  have lessRows : (makeLessChunks settings info
      (less.flatMap (StyleUnit.chunks module version))).map keyed =
      (less.map (styleUnit .less true info)).flatMap (EntityUnit.rows settings) := by
    rw [makeLessChunks, List.flatMap_assoc]
    exact keyed_flatMap settings _ _ _ (keyed_style settings module version .less rfl true
      info kindEntity (fun _ => rfl))
  have models := keyed_models settings py module version parse.module parse.models
  cases views with
  | none =>
      rw [ParsedModule.chunks, makeChunks.eq_def, ParsedModule.units]
      dsimp only
      simp only [List.map_append, List.flatMap_append] at models ⊢
      rw [models, scripts, cssRows, scssRows, lessRows]
      simp only [List.map_nil, List.flatMap_nil, List.nil_append, List.append_assoc]
  | some result =>
      have rows := keyed_views settings module version parse.module result
      rw [ParsedModule.chunks, makeChunks.eq_def, ParsedModule.units]
      dsimp only
      simp only [List.map_append, List.flatMap_append] at models rows ⊢
      rw [models, rows, scripts, cssRows, scssRows, lessRows]
      simp only [List.append_assoc]

end ModuleRows

def Tight (settings : TokenSettings) : Prop :=
  0 < settings.budget ∧ 0 < charLimit settings ∧ charLimit settings < sizes.window

instance (settings : TokenSettings) : Decidable (Tight settings) :=
  inferInstanceAs (Decidable (_ ∧ _ ∧ _))

def WindowPiece (limit : Nat) (text : Text) (window piece : Nat) (content : Text) : Prop :=
  ∃ whole, PieceAt (windowPlaces sizes) text window whole ∧
    PieceAt (limitPlaces limit) whole piece content

/-- Two texts under one name that do not take each other's place: one begins the other and ends
where a window or a piece does. Where the windows of the parsers are cut into pieces, a piece
counts from its window, and all that count the same are the same. -/
def Apart (settings : TokenSettings) (unit other : EntityUnit) : Prop :=
  if tight : Tight settings then
    if windowed unit.chunkType then
      ∀ window piece content, WindowPiece (charLimit settings) unit.text window piece content →
        ∀ otherWindow otherPiece otherContent,
          WindowPiece (charLimit settings) other.text otherWindow otherPiece otherContent →
            window + piece = otherWindow + otherPiece → content = otherContent
    else
      Begins (nestedPlaces sizes tight.2.1) unit.text other.text ∨
        Begins (nestedPlaces sizes tight.2.1) other.text unit.text
  else
    Begins (windowPlaces sizes) unit.text other.text ∨
      Begins (windowPlaces sizes) other.text unit.text

section Splitting
variable {settings : TokenSettings}

theorem fits_iff (positive : 0 < settings.budget) (text : Text) :
    (estimateTokens settings text : Int) ≤ settings.budget ↔ text.length ≤ charLimit settings := by
  have chars := settings.charsPositive
  have budget : (settings.budget.toNat : Int) = settings.budget :=
    Int.toNat_of_nonneg (Int.le_of_lt positive)
  have tokens : estimateTokens settings text ≤ settings.budget.toNat ↔
      text.length * settings.tokens ≤ settings.budget.toNat * settings.chars := by
    rw [estimateTokens, ← Nat.lt_succ_iff, Nat.div_lt_iff_lt_mul chars, Nat.succ_mul]
    omega
  rw [← budget, Int.ofNat_le, tokens, charLimit, Nat.le_div_iff_mul_le settings.tokensPositive]

theorem split_roomy (roomy : ¬ Tight settings) {text : Text}
    (short : text.length ≤ sizes.window) : splitByTokenBudget settings text = [text] := by
  rw [splitByTokenBudget]
  by_cases none : settings.budget ≤ 0
  · rw [if_pos none]
  · have positive : 0 < settings.budget := by omega
    rw [if_neg none]
    by_cases fits : (estimateTokens settings text : Int) ≤ settings.budget
    · rw [if_pos fits]
    · rw [if_neg fits]
      have beyond : ¬ text.length ≤ charLimit settings := by rwa [← fits_iff positive]
      have zero : charLimit settings = 0 := by
        by_contra some
        exact roomy ⟨positive, by omega, by omega⟩
      rw [if_pos zero]

theorem cutFrom_everyLimit {limit : Nat} (positive : 0 < limit) {text : Text} {place steps : Nat}
    (inside : place * limit < text.length) (enough : text.length ≤ place * limit + steps) :
    CutFrom (limitPlaces limit) text place (everyLimit limit steps (text.drop (place * limit))) := by
  induction steps generalizing place with
  | zero => omega
  | succ steps ih =>
      have some : (text.drop (place * limit)).isEmpty = false := by
        rw [List.isEmpty_eq_false_iff, ← List.length_pos_iff, List.length_drop]
        omega
      have next : (text.drop (place * limit)).drop limit = text.drop ((place + 1) * limit) := by
        rw [List.drop_drop, Nat.succ_mul]
      rw [everyLimit, some, if_neg Bool.false_ne_true, next]
      by_cases reaches : text.length ≤ (place + 1) * limit
      · have rest : text.drop ((place + 1) * limit) = [] := List.drop_eq_nil_of_le reaches
        have nothing : ∀ count, everyLimit limit count [] = [] := by
          intro count
          cases count with
          | zero | succ count => rfl
        have all : (text.drop (place * limit)).take limit = text.drop (place * limit) := by
          refine List.take_of_length_le ?_
          rw [Nat.succ_mul] at reaches
          rw [List.length_drop]
          omega
        rw [rest, nothing, all]
        exact .last (Nat.le_of_lt inside) reaches
      · have further := @ih (place + 1) (by omega) (by rw [Nat.succ_mul]; omega)
        have piece : (text.drop (place * limit)).take limit =
            slice text ((limitPlaces limit).start place) ((limitPlaces limit).stop place) := by
          show _ = slice text (place * limit) ((place + 1) * limit)
          rw [slice, Nat.succ_mul, Nat.add_sub_cancel_left]
        rw [piece]
        exact .more (Nat.lt_of_not_le reaches) further

theorem split_cut (budget : 0 < settings.budget) (positive : 0 < charLimit settings)
    (text : Text) :
    CutFrom (limitPlaces (charLimit settings)) text 0 (splitByTokenBudget settings text) := by
  rw [splitByTokenBudget, if_neg (by omega)]
  by_cases fits : (estimateTokens settings text : Int) ≤ settings.budget
  · rw [if_pos fits]
    have short := (fits_iff budget text).mp fits
    have one : CutFrom (limitPlaces (charLimit settings)) text 0
        [text.drop ((limitPlaces (charLimit settings)).start 0)] := by
      refine .last ?_ ?_
      · rw [(limitPlaces (charLimit settings)).first]
        exact Nat.zero_le _
      · show text.length ≤ (0 + 1) * charLimit settings
        omega
    rwa [(limitPlaces (charLimit settings)).first, List.drop_zero] at one
  · rw [if_neg fits, if_neg (by omega)]
    have beyond : ¬ text.length ≤ charLimit settings := by rwa [← fits_iff budget]
    have all := @cutFrom_everyLimit _ positive text 0 text.length (by omega) (by omega)
    rwa [Nat.zero_mul, List.drop_zero] at all

end Splitting

section Agreement
variable {settings : TokenSettings} {unit other : EntityUnit}

def PiecesAgree (settings : TokenSettings) (unit other : EntityUnit) : Prop :=
  ∀ one ∈ pieces settings unit, ∀ another ∈ pieces settings other,
    one.1 = another.1 → one.2 = another.2

theorem numbered_agree {left right : List Text} :
    (∀ one ∈ numbered 0 left, ∀ another ∈ numbered 0 right,
      one.1 = another.1 → one.2 = another.2) ↔ Agree left right := by
  constructor
  · intro agree place one another first second
    exact agree (place, one) (mem_numbered.mpr ⟨place, (Nat.zero_add place).symm, first⟩)
      (place, another) (mem_numbered.mpr ⟨place, (Nat.zero_add place).symm, second⟩) rfl
  · intro agree one listed another otherListed same
    obtain ⟨place, number, first⟩ := mem_numbered.mp (show (one.1, one.2) ∈ _ from listed)
    obtain ⟨otherPlace, otherNumber, second⟩ :=
      mem_numbered.mp (show (another.1, another.2) ∈ _ from otherListed)
    have places : place = otherPlace := by omega
    rw [← places] at second
    exact agree place one.2 another.2 first second

theorem numbered_of_pairs {windows : List (Nat × Text)} {start : Nat}
    (numbers : windows.map Prod.fst = List.range' start windows.length) :
    windows = numbered start (windows.map Prod.snd) := by
  induction windows generalizing start with
  | nil => rfl
  | cons window rest ih =>
      rw [List.map_cons, List.length_cons, List.range'_succ] at numbers
      obtain ⟨first, others⟩ := List.cons_eq_cons.mp numbers
      rw [List.map_cons, numbered, ← first, ← ih (by rwa [first])]

theorem pieces_roomy (roomy : ¬ Tight settings) :
    pieces settings unit = numbered 0 ((cut sizes unit.text).map Prod.snd) := by
  have fits := length_window sizes (cutFrom_cut sizes unit.text)
  have whole : ∀ window ∈ cut sizes unit.text,
      splitByTokenBudget settings window.2 = [window.2] :=
    fun window listed => split_roomy roomy (fits window.2 (List.mem_map_of_mem listed))
  rw [pieces]
  by_cases parsed : windowed unit.chunkType = true
  · rw [if_pos parsed, ← numbered_of_pairs (by rw [cut_numbers, List.range_eq_range'])]
    have single : ((cut sizes unit.text).flatMap fun window =>
        numbered window.1 (splitByTokenBudget settings window.2)) =
          (cut sizes unit.text).flatMap fun window => [window] := by
      refine List.flatMap_congr fun window listed => ?_
      rw [whole window listed]
      rfl
    rw [single, List.flatMap_singleton']
  · rw [if_neg parsed]
    have single : ((cut sizes unit.text).map Prod.snd).flatMap (splitByTokenBudget settings) =
        ((cut sizes unit.text).map Prod.snd).flatMap fun window => [window] := by
      refine List.flatMap_congr fun window listed => ?_
      obtain ⟨pair, pairListed, same⟩ := List.mem_map.mp listed
      rw [← same, whole pair pairListed]
    rw [single, List.flatMap_singleton']

theorem mem_pieces_windowed (tight : Tight settings) (parsed : windowed unit.chunkType = true)
    {number : Nat} {content : Text} :
    (number, content) ∈ pieces settings unit ↔
      ∃ window piece, number = window + piece ∧
        WindowPiece (charLimit settings) unit.text window piece content := by
  have numbers : cut sizes unit.text = numbered 0 ((cut sizes unit.text).map Prod.snd) :=
    numbered_of_pairs (by rw [cut_numbers, List.range_eq_range'])
  have places : ∀ {window : Nat} {whole : Text},
      (window, whole) ∈ cut sizes unit.text ↔ PieceAt (windowPlaces sizes) unit.text window whole := by
    intro window whole
    rw [← pieceAt_iff (cutFrom_cut sizes unit.text), numbers, mem_numbered, ← numbers]
    constructor
    · intro given
      obtain ⟨place, same, there⟩ := given
      rw [same, Nat.zero_add]
      exact there
    · intro there
      exact ⟨window, (Nat.zero_add window).symm, there⟩
  rw [pieces, if_pos parsed, List.mem_flatMap]
  constructor
  · intro given
    obtain ⟨⟨window, whole⟩, listed, inWindow⟩ := given
    obtain ⟨piece, same, there⟩ := mem_numbered.mp inWindow
    exact ⟨window, piece, same, whole, places.mp listed,
      (pieceAt_iff (split_cut tight.1 tight.2.1 whole)).mp there⟩
  · intro given
    obtain ⟨window, piece, same, whole, isWindow, isPiece⟩ := given
    refine ⟨(window, whole), places.mpr isWindow, mem_numbered.mpr ⟨piece, same, ?_⟩⟩
    exact (pieceAt_iff (split_cut tight.1 tight.2.1 whole)).mpr isPiece

theorem piecesAgree_iff (named : unit.SameName other) :
    PiecesAgree settings unit other ↔ Apart settings unit other := by
  rw [Apart]
  by_cases tight : Tight settings
  · rw [dif_pos tight]
    by_cases parsed : windowed unit.chunkType = true
    · have otherParsed : windowed other.chunkType = true := by rw [← named.1, parsed]
      rw [if_pos parsed]
      constructor
      · intro agree window piece content isPiece otherWindow otherPiece otherContent isOther same
        exact agree (window + piece, content)
          ((mem_pieces_windowed tight parsed).mpr ⟨window, piece, rfl, isPiece⟩)
          (otherWindow + otherPiece, otherContent)
          ((mem_pieces_windowed tight otherParsed).mpr ⟨otherWindow, otherPiece, rfl, isOther⟩) same
      · intro apart one listed another otherListed same
        obtain ⟨window, piece, number, isPiece⟩ := (mem_pieces_windowed tight parsed).mp listed
        obtain ⟨otherWindow, otherPiece, otherNumber, isOther⟩ :=
          (mem_pieces_windowed tight otherParsed).mp otherListed
        exact apart window piece one.2 isPiece otherWindow otherPiece another.2 isOther (by omega)
    · have otherParsed : ¬ windowed other.chunkType = true := by rwa [← named.1]
      have cuts : ∀ text, CutFrom (nestedPlaces sizes tight.2.1) text 0
          (((cut sizes text).map Prod.snd).flatMap (splitByTokenBudget settings)) := by
        intro text
        have all := cutFrom_nested tight.2.1
          (fun window _ => split_cut tight.1 tight.2.1 window) (cutFrom_cut sizes text)
        rwa [Nat.mul_zero] at all
      rw [if_neg parsed, PiecesAgree, pieces, if_neg parsed, pieces, if_neg otherParsed,
        numbered_agree, cuts_iff (cuts unit.text) (cuts other.text)]
  · rw [dif_neg tight, PiecesAgree, pieces_roomy tight, pieces_roomy tight, numbered_agree,
      cuts_iff (cutFrom_cut sizes unit.text) (cutFrom_cut sizes other.text)]

end Agreement

section Module
variable (settings : TokenSettings) (py : PyText) (module version : String)

theorem keysTell_iff_rows (parsed : ParsedModule) :
    KeysTell (parsed.chunks settings py module version) ↔
      ∀ unit ∈ parsed.units py module version, ∀ other ∈ parsed.units py module version,
        ∀ row ∈ unit.rows settings, ∀ another ∈ other.rows settings,
          row.1 = another.1 → row.2 = another.2 := by
  have keys : KeysTell (parsed.chunks settings py module version) ↔
      ∀ row ∈ (parsed.chunks settings py module version).map keyed,
        ∀ another ∈ (parsed.chunks settings py module version).map keyed,
          row.1 = another.1 → row.2 = another.2 := by
    constructor
    · intro tell row listed another otherListed
      obtain ⟨chunk, chunkListed, made⟩ := List.mem_map.mp listed
      obtain ⟨otherChunk, otherChunkListed, otherMade⟩ := List.mem_map.mp otherListed
      rw [← made, ← otherMade]
      exact tell chunk chunkListed otherChunk otherChunkListed
    · intro agree chunk listed other otherListed
      exact agree (keyed chunk) (List.mem_map_of_mem listed) (keyed other)
        (List.mem_map_of_mem otherListed)
  rw [keys, keyed_module]
  constructor
  · intro agree unit listed other otherListed row inUnit another inOther
    exact agree row (List.mem_flatMap.mpr ⟨unit, listed, inUnit⟩) another
      (List.mem_flatMap.mpr ⟨other, otherListed, inOther⟩)
  · intro agree row inSome another inOther
    obtain ⟨unit, listed, inUnit⟩ := List.mem_flatMap.mp inSome
    obtain ⟨other, otherListed, inOther⟩ := List.mem_flatMap.mp inOther
    exact agree unit listed other otherListed row inUnit another inOther

theorem rows_agree_iff {unit other : EntityUnit} :
    (∀ row ∈ unit.rows settings, ∀ another ∈ other.rows settings,
      row.1 = another.1 → row.2 = another.2) ↔
        (unit.SameName other → PiecesAgree settings unit other) := by
  constructor
  · intro agree named one listed another otherListed same
    obtain ⟨sameType, sameEntity, sameFile⟩ := named
    refine agree (unit.key one.1, one.2) (List.mem_map_of_mem listed) (other.key another.1, another.2)
      (List.mem_map_of_mem otherListed) ?_
    rw [EntityUnit.key, EntityUnit.key, sameType, sameEntity, sameFile, same]
  · intro agree row inUnit another inOther sameKey
    obtain ⟨one, listed, made⟩ := List.mem_map.mp inUnit
    obtain ⟨second, otherListed, otherMade⟩ := List.mem_map.mp inOther
    rw [← made, ← otherMade] at sameKey ⊢
    simp only [EntityUnit.key, Prod.mk.injEq] at sameKey
    obtain ⟨sameType, sameEntity, sameFile, sameNumber⟩ := sameKey
    exact agree ⟨sameType, sameEntity, sameFile⟩ one listed second otherListed sameNumber

/-- The keys tell all texts apart, and so none is lost, exactly when the texts under each name
do not take each other's place. -/
theorem none_lost_iff (parsed : ParsedModule) :
    (NoneLost (parsed.chunks settings py module version) ↔
      KeysTell (parsed.chunks settings py module version)) ∧
    (KeysTell (parsed.chunks settings py module version) ↔
      ∀ unit ∈ parsed.units py module version, ∀ other ∈ parsed.units py module version,
        unit.SameName other → Apart settings unit other) := by
  refine ⟨noneLost_iff _, ?_⟩
  rw [keysTell_iff_rows]
  constructor
  · intro agree unit listed other otherListed named
    exact (piecesAgree_iff named).mp
      ((rows_agree_iff settings).mp (agree unit listed other otherListed) named)
  · intro apart unit listed other otherListed
    refine (rows_agree_iff settings).mpr fun named => (piecesAgree_iff named).mpr ?_
    exact apart unit listed other otherListed named

end Module

example : ¬ Tight TokenSettings.default := by decide

/-- `.x { @include a; @include b; }`. -/
def twoIncludesFile : Text := ".x { @include a; @include b; }".toList

def webModule : ModuleInfo := ⟨none, none, "web", none⟩

def twoIncludes : ParsedModule where
  parse := ⟨webModule, []⟩
  views := none
  js := []
  info := some webModule
  css := []
  scss :=
    [⟨"web/a.scss", .includeRule, "a".toList, "@include a;".toList⟩,
      ⟨"web/a.scss", .includeRule, "a".toList, "@include b;".toList⟩,
      ⟨"web/a.scss", .selector, ".x".toList, twoIncludesFile⟩]
  less := []

/-- Both includes are numbered zero under the stem of the file: the first is lost. -/
theorem first_include_lost :
    (ScssParser.parseScssRegex ScssMixins.asciiTables (fun _ _ => none) twoIncludesFile "web" "17.0"
      "web/a.scss").1 = twoIncludes.scss.flatMap (StyleUnit.chunks "web" "17.0") ∧
    ¬ KeysTell (twoIncludes.chunks TokenSettings.default ⟨id, id⟩ "web" "17.0") ∧
    ¬ NoneLost (twoIncludes.chunks TokenSettings.default ⟨id, id⟩ "web" "17.0") := by
  have differ : ¬ KeysTell (twoIncludes.chunks TokenSettings.default ⟨id, id⟩ "web" "17.0") := by
    rw [KeysTell]
    decide +kernel
  exact ⟨by decide +kernel, differ, fun none => differ ((noneLost_iff _).mp none)⟩

end OdooSemantic.Indexer.ChunkKeys
