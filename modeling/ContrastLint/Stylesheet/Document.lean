import ContrastLint.Text.CharClass

/-!
# Stylesheet documents

An assignment is what one declaration says: a property, its value, and
whether the value is marked important.  It is read from the text of a
declaration and written back.  The text is split at its first colon, wherever
that stands.  One mark `!important` at the end of the value is split off, in
any case and with any white space inside it.  A text without a colon, or with
nothing before it, is no assignment.

A document is a list of nodes: rules, declarations outside any rule, and
at-rules, whose blocks are kept as opaque text.

Documents are parametric in what says where a node stands.  While a text is
being read the places are byte offsets; a finished document has places of
type `Position`.  Forgetting or shifting places is then an instance of `map`.
-/

namespace ContrastLint

/-! ## Assignments -/

structure Assignment where
  property : String
  /-- The value without white space at its ends and without the mark. -/
  value : String
  important : Bool
  deriving DecidableEq, Repr

namespace Assignment

/-- Whether the assigned property is `name`, ignoring ASCII case. -/
def isNamed (a : Assignment) (name : String) : Bool :=
  Text.equalsIgnoringCase a.property name

/-- What is left of a value when the mark `!important` at its end and the
white space before the mark are removed. -/
def importantStem? (value : List Char) : Option (List Char) :=
  let word := "important".toList
  let reversed := value.reverse
  if (reversed.take word.length).map Char.toLower = word.reverse then
    match (reversed.drop word.length).dropWhile Text.isWhite with
    | '!' :: stem => some (stem.dropWhile Text.isWhite).reverse
    | _ => none
  else none

def read? (text : List Char) : Option Assignment :=
  let property := Text.trim (text.takeWhile (· ≠ ':'))
  match text.dropWhile (· ≠ ':') with
  | [] => none
  | _ :: after =>
    if property.isEmpty then none
    else
      let value := Text.trim after
      match importantStem? value with
      | some stem => some ⟨.ofList property, .ofList stem, true⟩
      | none => some ⟨.ofList property, .ofList value, false⟩

def render (a : Assignment) : String :=
  a.property ++ ": " ++ a.value ++ (if a.important then " !important" else "")

end Assignment

/-! ## Documents -/

structure Declaration (Place : Type) extends Assignment where
  place : Place
  deriving DecidableEq, Repr

/-- A selector, which is not interpreted, with the declarations of its body. -/
structure Rule (Place : Type) where
  selector : String
  declarations : List (Declaration Place)
  place : Place
  deriving DecidableEq, Repr

/-- An at-rule: its name without the `@`, the text after the name, and the
raw text between its braces if it has a block. -/
structure AtRule (Place : Type) where
  name : String
  params : String
  block : Option String
  place : Place
  deriving DecidableEq, Repr

inductive Node (Place : Type)
  | rule (rule : Rule Place)
  | declaration (declaration : Declaration Place)
  | atRule (atRule : AtRule Place)
  deriving DecidableEq, Repr

structure Document (Place : Type) where
  nodes : List (Node Place)
  deriving DecidableEq, Repr

namespace Declaration

variable {α β : Type}

def map (f : α → β) (d : Declaration α) : Declaration β :=
  { toAssignment := d.toAssignment, place := f d.place }

def mapM {m : Type → Type} [Monad m] (f : α → m β) (d : Declaration α) :
    m (Declaration β) := do
  let place ← f d.place
  return { toAssignment := d.toAssignment, place }

end Declaration

namespace Rule

variable {α β : Type}

def map (f : α → β) (r : Rule α) : Rule β :=
  { selector := r.selector, declarations := r.declarations.map (·.map f), place := f r.place }

def mapM {m : Type → Type} [Monad m] (f : α → m β) (r : Rule α) : m (Rule β) := do
  let place ← f r.place
  let declarations ← r.declarations.mapM (·.mapM f)
  return { selector := r.selector, declarations, place }

end Rule

namespace AtRule

variable {α β : Type}

def map (f : α → β) (a : AtRule α) : AtRule β :=
  { name := a.name, params := a.params, block := a.block, place := f a.place }

def mapM {m : Type → Type} [Monad m] (f : α → m β) (a : AtRule α) : m (AtRule β) := do
  let place ← f a.place
  return { name := a.name, params := a.params, block := a.block, place }

end AtRule

namespace Node

variable {α β : Type}

def map (f : α → β) : Node α → Node β
  | .rule r => .rule (r.map f)
  | .declaration d => .declaration (d.map f)
  | .atRule a => .atRule (a.map f)

def mapM {m : Type → Type} [Monad m] (f : α → m β) : Node α → m (Node β)
  | .rule r => .rule <$> r.mapM f
  | .declaration d => .declaration <$> d.mapM f
  | .atRule a => .atRule <$> a.mapM f

def rule? : Node α → Option (Rule α)
  | .rule r => some r
  | _ => none

/-- The declarations of a node.  Those inside the block of an at-rule are
text, not declarations. -/
def declarations : Node α → List (Declaration α)
  | .rule r => r.declarations
  | .declaration d => [d]
  | .atRule _ => []

end Node

namespace Document

variable {α β : Type}

def empty : Document α := ⟨[]⟩

def isEmpty (doc : Document α) : Bool :=
  doc.nodes.isEmpty

def size (doc : Document α) : Nat :=
  doc.nodes.length

def push (doc : Document α) (node : Node α) : Document α :=
  ⟨doc.nodes ++ [node]⟩

def append (doc other : Document α) : Document α :=
  ⟨doc.nodes ++ other.nodes⟩

def rules (doc : Document α) : List (Rule α) :=
  doc.nodes.filterMap Node.rule?

/-- Every declaration of a document, at root level and in rules. -/
def declarations (doc : Document α) : List (Declaration α) :=
  doc.nodes.flatMap Node.declarations

def map (f : α → β) (doc : Document α) : Document β :=
  ⟨doc.nodes.map (·.map f)⟩

def mapM {m : Type → Type} [Monad m] (f : α → m β) (doc : Document α) :
    m (Document β) := do
  return ⟨← doc.nodes.mapM (·.mapM f)⟩

end Document

end ContrastLint
