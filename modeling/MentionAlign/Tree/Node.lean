import MentionAlign.Span.Basic
import MentionAlign.Tree.Error

/-!
# Constituency trees

A node is a terminal, which carries a token, or a phrase over children, one of which may be its
head.  Nodes read from files are not checked, so the type also holds nodes that carry both a token
and children, and head positions without a child.
-/

namespace MentionAlign

/-- A word of the document at its place. -/
structure Token where
  text : String
  span : Span
deriving BEq, Repr

/-- A node of a constituency tree. -/
structure Node where
  label : String
  span : Span
  children : List Node := []
  headChild : Option Nat := none
  token : Option Token := none
deriving Repr

namespace Node

/-- The terminal node over a token. -/
def terminal (label : String) (token : Token) : Node where
  label
  span := token.span
  token := some token

/-- The phrase over `children`, from the start of the first to the end of the last. -/
def phrase (label : String) (children : List Node) (headChild : Option Nat) :
    Except TreeError Node :=
  match children.head?, children.getLast? with
  | some first, some last =>
    match headChild.filter (children.length ≤ ·) with
    | some index => .error (.invalidPhrase label (.headOutOfRange index children.length))
    | none =>
      match Span.ofOffsets first.span.start last.span.stop with
      | .ok span => .ok { label, span, children, headChild }
      | .error e => .error (.input e)
  | _, _ => .error (.invalidPhrase label .noChildren)

/-- Whether the node carries a token. -/
def isTerminal (n : Node) : Bool := n.token.isSome

/-- The position of the head child; an only child is the head of a node that names none. -/
def headIndex? (n : Node) : Option Nat :=
  match n.headChild with
  | some index => if index < n.children.length then some index else none
  | none => if n.children.length = 1 then some 0 else none

/-- The head child. -/
def head? (n : Node) : Option Node := n.headIndex?.bind (n.children[·]?)

mutual

/-- The terminal reached by following head children. -/
def terminalHead? : Node → Option Node
  | ⟨label, span, children, headChild, some token⟩ =>
    some ⟨label, span, children, headChild, some token⟩
  | ⟨_, _, children, some index, none⟩ => terminalHeadAt? children index
  | ⟨_, _, [child], none, none⟩ => child.terminalHead?
  | ⟨_, _, _, none, none⟩ => none

/-- The terminal reached from the node at a position of a list. -/
def terminalHeadAt? : List Node → Nat → Option Node
  | [], _ => none
  | n :: _, 0 => n.terminalHead?
  | _ :: ns, index + 1 => terminalHeadAt? ns index

end

mutual

/-- The outermost node with the offsets of `span`; only nodes that enclose it are searched. -/
def find? (span : Span) : Node → Option Node
  | ⟨label, s, children, headChild, token⟩ =>
    if s == span then some ⟨label, s, children, headChild, token⟩
    else if s.encloses span then findAmong? span children
    else none

/-- The first find among the nodes of a list. -/
def findAmong? (span : Span) : List Node → Option Node
  | [] => none
  | n :: ns => (n.find? span).or (findAmong? span ns)

end

mutual

/-- The tokens under a node, from left to right; those under a terminal are not looked at. -/
def tokens : Node → List Token
  | ⟨_, _, _, _, some token⟩ => [token]
  | ⟨_, _, children, _, none⟩ => tokensAmong children

/-- The tokens under the nodes of a list. -/
def tokensAmong : List Node → List Token
  | [] => []
  | n :: ns => n.tokens ++ tokensAmong ns

end

mutual

/-- Whether two trees agree in every field, spans by their offsets. -/
def agrees : Node → Node → Bool
  | ⟨l₁, s₁, c₁, h₁, t₁⟩, ⟨l₂, s₂, c₂, h₂, t₂⟩ =>
    l₁ == l₂ && s₁ == s₂ && agreesAmong c₁ c₂ && h₁ == h₂ && t₁ == t₂

/-- Whether two lists of trees agree. -/
def agreesAmong : List Node → List Node → Bool
  | [], [] => true
  | m :: ms, n :: ns => m.agrees n && agreesAmong ms ns
  | _, _ => false

end

instance : BEq Node where
  beq := agrees

end Node

end MentionAlign
