import OdooSemantic.Indexer.ChunkKeys

/-!
# What the splitters keep of a text

`split_by_token_budget` cuts a text into pieces for the embedder, `_sliding` cuts it into windows
first and numbers the pieces of all windows in one row.
-/

set_option autoImplicit false

namespace OdooSemantic.Indexer.SlidingChunks

open Lib.Windows
open Indexer.JsChunks (Text sizes)
open Indexer.EmbeddingChunks Indexer.ChunkKeys

section Pieces
variable {settings : TokenSettings}

def Within (settings : TokenSettings) (text : Text) : Prop :=
  (estimateTokens settings text : Int) ≤ settings.budget

instance (text : Text) : Decidable (Within settings text) :=
  inferInstanceAs (Decidable ((estimateTokens settings text : Int) ≤ settings.budget))

end Pieces

section Windows
variable {settings : TokenSettings} {base : EmbeddingChunk}

end Windows

end OdooSemantic.Indexer.SlidingChunks
