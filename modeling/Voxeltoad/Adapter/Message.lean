import Voxeltoad.Adapter.Sse
import Voxeltoad.Lib.Unmarshal

/-!
# Messages

The messages and the tools of a chat request in the unified format, `internal/adapter/adapter.go`,
and how they are read from JSON.

`Content` is kept as it came: a text, `null` or a list of parts.  `Content.text` is the plain text
of it, for those who need one.
-/

set_option autoImplicit false

namespace Voxeltoad

open Unmarshal

/-! ## Content -/

/-- `Content`: the JSON value of a message's content, or nothing. -/
structure Content where
  raw : Option JsonValue
  deriving Repr

/-- A part of a multipart content, as far as `Text` reads it. -/
structure ContentPart where
  type : String
  text : String
  deriving DecidableEq, Repr

def ContentPart.names : List String := ["type", "text"]

def ContentPart.read : Reader ContentPart :=
  record fun p ms ↦ do
    let type ← field string p.type names "type" ms
    let text ← field string p.text names "text" ms
    return ⟨type, text⟩

namespace Content

/-- `Content.UnmarshalJSON`. -/
def read : Reader Content := fun _ v ↦ some ⟨some v⟩

/-- `NewContentText`, and what `SetText` does. -/
def ofText (s : String) : Content := ⟨some (.str s)⟩

/-- **`Text`**: a text as it is, the texts among the parts, or nothing. -/
def text (c : Content) : String :=
  match c.raw with
  | some (.str s) => s
  | some (.arr parts) =>
    match items ContentPart.read ⟨"", ""⟩ [] parts with
    | none => ""
    | some parts => String.join ((parts.filter fun p ↦ p.type = "text").map ContentPart.text)
  | _ => ""

end Content

/-! ## Messages and tools -/

/-- `FunctionCall`. -/
structure FunctionCall where
  name : String
  arguments : String
  deriving DecidableEq, Repr

/-- `ToolCall`. -/
structure ToolCall where
  id : String
  type : String
  function : FunctionCall
  deriving DecidableEq, Repr

/-- `Message`. -/
structure Message where
  role : String
  content : Content
  toolCallID : String
  toolCalls : List ToolCall
  name : String
  deriving Repr

/-- `FunctionDef`.  `Parameters` is kept as it came. -/
structure FunctionDef where
  name : String
  description : String
  parameters : Option JsonValue
  deriving Repr

/-- `Tool`. -/
structure Tool where
  type : String
  function : FunctionDef
  deriving Repr

end Voxeltoad
