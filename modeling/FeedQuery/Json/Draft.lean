import FeedQuery.Json.Token

/-!
A JSON text as far as it is well formed: a tree whose containers keep all that was read before the
flaw that ends the text. What a reader of the tree meets first is what stands first in the text,
so a reader may stop early and never learn of a flaw behind that place.
-/
namespace FeedQuery

/-- A value in a text. Containers hold what stands in them in order; the flaw after the last item
is none where the container is closed. A member that no key begins has an empty key with the
flaw. -/
inductive Draft where
  | null
  | bool (b : Bool)
  | number (n : Numeral)
  | string (s : Quotation)
  | array (items : List Draft) (flaw? : Option Flaw)
  | object (members : List (Quotation × Draft)) (flaw? : Option Flaw)
  | broken (flaw : Flaw)

namespace Draft

instance : Inhabited Draft := ⟨.null⟩

/-- An open container: what it holds already, latest first, and the key that waits for a value. -/
inductive Frame where
  | array (before : List Draft)
  | object (before : List (Quotation × Draft)) (key : Quotation)

/-- What may come next. The stack holds the open containers, the innermost first. -/
inductive State where
  | value (stack : List Frame)
  | firstItem (stack : List Frame)
  | firstKey (stack : List Frame)
  | nextKey (before : List (Quotation × Draft)) (stack : List Frame)
  | colon (before : List (Quotation × Draft)) (key : Quotation) (stack : List Frame)
  | nextItem (before : List Draft) (stack : List Frame)
  | nextMember (before : List (Quotation × Draft)) (stack : List Frame)

/-- What a token leads to: a further state, the outermost value, or the text up to a flaw. -/
inductive Progress where
  | more (state : State)
  | complete (d : Draft)
  | stuck (d : Draft)

/-- The outermost value when an inner one is the last thing in the text. -/
def enclose : List Frame → Draft → Draft
  | [], d => d
  | .array before :: stack, d => enclose stack (.array (before.reverse ++ [d]) none)
  | .object before key :: stack, d => enclose stack (.object (before.reverse ++ [(key, d)]) none)

/-- The outermost value when the text ends in some state with a flaw. -/
def State.stop (flaw : Flaw) : State → Draft
  | .value stack => enclose stack (.broken flaw)
  | .firstItem stack => enclose stack (.array [] (some flaw))
  | .firstKey stack => enclose stack (.object [] (some flaw))
  | .nextKey before stack =>
    enclose stack (.object ((⟨[], some flaw⟩, .broken flaw) :: before).reverse none)
  | .colon before key stack => enclose stack (.object ((key, .broken flaw) :: before).reverse none)
  | .nextItem before stack => enclose stack (.array before.reverse (some flaw))
  | .nextMember before stack => enclose stack (.object before.reverse (some flaw))

/-- The value that one token is. -/
def ofToken? : Token → Option Draft
  | .null => some .null
  | .bool b => some (.bool b)
  | .number n => some (.number n)
  | .string q => some (.string q)
  | .broken flaw => some (.broken flaw)
  | _ => none

/-- Goes on after a complete value. -/
def place (d : Draft) : List Frame → Progress
  | [] => .complete d
  | .array before :: stack => .more (.nextItem (d :: before) stack)
  | .object before key :: stack => .more (.nextMember ((key, d) :: before) stack)

/-- A token where a value is due. -/
def startValue (stack : List Frame) : Token → Progress
  | .openArray => .more (.firstItem stack)
  | .openObject => .more (.firstKey stack)
  | .broken flaw => .stuck ((State.value stack).stop flaw)
  | t => match ofToken? t with
    | some d => place d stack
    | none => .stuck ((State.value stack).stop .malformed)

/-- A token where a key is due. Only a string is a key. -/
def startKey (before : List (Quotation × Draft)) (stack : List Frame) : Token → Progress
  | .string q => .more (.colon before q stack)
  | _ => .stuck ((State.nextKey before stack).stop .malformed)

def step (t : Token) : State → Progress
  | .value stack => startValue stack t
  | .firstItem stack =>
    match t with
    | .closeArray => place (.array [] none) stack
    | t => startValue (.array [] :: stack) t
  | .firstKey stack =>
    match t with
    | .closeObject => place (.object [] none) stack
    | t => startKey [] stack t
  | .nextKey before stack => startKey before stack t
  | .colon before key stack =>
    match t with
    | .colon => .more (.value (.object before key :: stack))
    | _ => .stuck ((State.colon before key stack).stop .malformed)
  | .nextItem before stack =>
    match t with
    | .comma => .more (.value (.array before :: stack))
    | .closeArray => place (.array before.reverse none) stack
    | _ => .stuck ((State.nextItem before stack).stop .malformed)
  | .nextMember before stack =>
    match t with
    | .comma => .more (.nextKey before stack)
    | .closeObject => place (.object before.reverse none) stack
    | _ => .stuck ((State.nextMember before stack).stop .malformed)

/-- Reads tokens to the end of the outermost value or to the first flaw; the flag says whether
tokens are left after the value. -/
def read : List Token → State → Draft × Bool
  | [], state => (state.stop .ended, false)
  | t :: ts, state => match step t state with
    | .more state => read ts state
    | .complete d => (d, !ts.isEmpty)
    | .stuck d => (d, false)

/-- The value at the front of a text, and whether more than white space follows it. -/
def ofText (text : String) : Draft × Bool := read (Token.scan text.toList) (.value [])

end Draft

end FeedQuery
