import ClusterSync.Json.Token

/-!
# Syntax trees

A JSON text as it is written: fields in their order with repetitions, numerals and strings not
yet interpreted. `Tree.ofTokens?` is a machine with a stack of the containers that are still open,
so nesting has no limit here; a reader that wants one sets it on the tree.
-/

namespace ClusterSync.Json

/-- A JSON text as written. -/
inductive Tree
  | null
  | bool (value : Bool)
  | num (n : Numeral)
  | str (pieces : List Piece)
  | arr (items : List Tree)
  | obj (fields : List (List Piece × Tree))

namespace Tree

/-- A container that is still open, with what it holds so far, last item first. -/
inductive Frame
  | arr (done : List Tree)
  | obj (done : List (List Piece × Tree)) (key : List Piece)

/-- What may come next: a value, a value or the end of a new array, a key, a key or the end of a
new object, a colon, or what follows a finished value. -/
inductive Expect
  | value
  | firstItem
  | key (done : List (List Piece × Tree))
  | firstKey
  | colon (done : List (List Piece × Tree)) (key : List Piece)
  | after (value : Tree)

/-- The container's value once the value just finished is its last. -/
def Frame.closeArray? (frame : Frame) (value : Tree) : Option Tree :=
  match frame with
  | .arr done => some (.arr (value :: done).reverse)
  | .obj .. => none

def Frame.closeObject? (frame : Frame) (value : Tree) : Option Tree :=
  match frame with
  | .arr _ => none
  | .obj done key => some (.obj ((key, value) :: done).reverse)

/-- The value that a token is by itself. -/
def ofScalar? : Token → Option Tree
  | .null => some .null
  | .bool b => some (.bool b)
  | .numeral n => some (.num n)
  | .text pieces => some (.str pieces)
  | _ => none

/-- One token where a value may begin: what is expected then, and the containers open then. -/
def beginValue? (token : Token) (stack : List Frame) : Option (Expect × List Frame) :=
  match token with
  | .openArray => some (.firstItem, stack)
  | .openObject => some (.firstKey, stack)
  | token => (ofScalar? token).map fun v => (.after v, stack)

/-- One token after a finished value. -/
def afterValue? (value : Tree) (token : Token) : List Frame → Option (Expect × List Frame)
  | [] => none
  | frame :: stack =>
    match token, frame with
    | .comma, .arr done => some (.value, .arr (value :: done) :: stack)
    | .comma, .obj done key => some (.key ((key, value) :: done), stack)
    | .closeArray, frame => (frame.closeArray? value).map fun v => (.after v, stack)
    | .closeObject, frame => (frame.closeObject? value).map fun v => (.after v, stack)
    | _, _ => none

/-- One token in any position. A new array puts its frame on the stack with its first item. -/
def step? (expect : Expect) (stack : List Frame) (token : Token) :
    Option (Expect × List Frame) :=
  match expect with
  | .value => beginValue? token stack
  | .firstItem =>
    match token with
    | .closeArray => some (.after (.arr []), stack)
    | token => beginValue? token (.arr [] :: stack)
  | .firstKey =>
    match token with
    | .closeObject => some (.after (.obj []), stack)
    | .text key => some (.colon [] key, stack)
    | _ => none
  | .key done =>
    match token with
    | .text key => some (.colon done key, stack)
    | _ => none
  | .colon done key =>
    match token with
    | .colon => some (.value, .obj done key :: stack)
    | _ => none
  | .after value => afterValue? value token stack

/-- The value that the tokens complete. -/
def run? : Expect → List Frame → List Token → Option Tree
  | .after value, [], [] => some value
  | _, _, [] => none
  | expect, stack, token :: rest => do
    let (expect, stack) ← step? expect stack token
    run? expect stack rest

/-- The tree of a whole token sequence. -/
def ofTokens? (tokens : List Token) : Option Tree := run? .value [] tokens

/-- The tree of a whole text. -/
def ofText? (text : String) : Option Tree := (Token.ofChars? text.toList).bind ofTokens?

end Tree

end ClusterSync.Json
