import DrElephant.Java.Exception

open java.lang

namespace jackson

/-- A node of a parsed document. The missing node that `path` may return is the
absent node of `Option JsonNode`, as is the null that `get` may return. -/
inductive JsonNode
  | null
  | boolean (value : Bool)
  | number (value : Int)
  | text (value : String)
  | array (elements : List JsonNode)
  | object (fields : List (String × JsonNode))

namespace JsonNode

/-- The field of an object node; no other node has fields. -/
def get? : JsonNode → String → Option JsonNode
  | object fields, field => (fields.find? fun entry => entry.1 == field).map Prod.snd
  | _, _ => none

def path (node : Option JsonNode) (field : String) : Option JsonNode := node.bind (·.get? field)

/-- Container nodes have no text of their own. -/
def getValueAsText : JsonNode → String
  | null => "null"
  | boolean value => if value then "true" else "false"
  | number value => toString value
  | text value => value
  | array _ => ""
  | object _ => ""

def getLongValue : JsonNode → Int
  | number value => value
  | _ => 0

/-- What iterating a node visits. -/
def getElements : Option JsonNode → List JsonNode
  | some (array elements) => elements
  | some (object fields) => fields.map Prod.snd
  | _ => []

/-- `node.get(field)` dereferenced at once. -/
def getOrThrow (node : JsonNode) (field : String) : Except JavaException JsonNode :=
  match node.get? field with
  | some value => .ok value
  | none => .error .nullPointer

end JsonNode

end jackson
