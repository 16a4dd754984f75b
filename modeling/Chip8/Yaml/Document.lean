import Chip8.Yaml.Node.Parser
import Chip8.Yaml.Token.Lexer
import Chip8.Yaml.Value

/-!
# Documents in texts

`document` reads a source as a document: the text is cut into tokens, the tokens make nodes, and the
nodes say values. An empty text says nothing.
-/

namespace Chip8.Yaml

def document (s : Source) : Except Error Document := do
  let (ts, fault) := tokens s
  match ← Nodes.ofTokens ts fault with
  | (some n, nodes) => nodes.document n
  | (none, _) => return {}

end Chip8.Yaml
