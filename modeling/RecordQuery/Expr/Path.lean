import RecordQuery.Expr.Basic
import RecordQuery.Schema.Basic

/-!
# Dotted paths

* `Expr.resolve`: the field reads that a dotted path stands for;
* `Expr.chain?`: the dotted path that a chain of field reads stands for;
* `Expr.readPaths`, `Expr.memberPaths`: the longest chains on a parameter, in order of occurrence,
  and sorted without repetition.

The bare parameter is the empty path.
-/

namespace RecordQuery.Expr

/-! ## From paths to field reads -/

/-- Reads one segment of a path; a nullable record is read like a record. -/
def readSegment (s : Schema) (path : String) (e : Expr) (segment : String) : Except Error Expr :=
  let unresolved := Error.unresolved path segment e.ty.text
  if segment.isEmpty then .error unresolved
  else
    match e.ty.recordName? with
    | none => .error unresolved
    | some name => do
      match (← s.record name).field? segment with
      | none => throw unresolved
      | some f => return .field e f.name f.ty

def resolve (s : Schema) (root : Expr) (path : String) : Except Error Expr :=
  (Text.split path ".").foldlM (readSegment s path) root

/-! ## From field reads to paths -/

def extendPath (path name : String) : String := if path.isEmpty then name else path ++ "." ++ name

/-- The path of a chain of field reads on the parameter. -/
def chain? (p : Param) : Expr → Option String
  | .param q => if q.id = p.id then some "" else none
  | .field target name _ => (chain? p target).map (extendPath · name)
  | _ => none

mutual

/-- The paths of the longest chains on the parameter, from left to right. -/
def readPaths (p : Param) : Expr → List String
  | .param q => if q.id = p.id then [""] else []
  | .literal .. => []
  | .field target name _ =>
    match chain? p target with
    | some path => [extendPath path name]
    | none => readPaths p target
  | .binary _ left right => readPaths p left ++ readPaths p right
  | .not operand | .convert operand _ => readPaths p operand
  | .call _ target args => readPaths p target ++ readPathsAll p args
  | .conditional test ifTrue ifFalse _ =>
    readPaths p test ++ readPaths p ifTrue ++ readPaths p ifFalse
  | .construct _ args => readPathsAll p args

def readPathsAll (p : Param) : List Expr → List String
  | [] => []
  | e :: es => readPaths p e ++ readPathsAll p es

end

def insertSorted (text : String) : List String → List String
  | [] => [text]
  | t :: ts =>
    if text = t then t :: ts else if text < t then text :: t :: ts else t :: insertSorted text ts

/-- The paths that the expression reads on the parameter, in the order of code points. -/
def memberPaths (p : Param) (e : Expr) : List String :=
  (readPaths p e).foldl (fun paths path => insertSorted path paths) []

end RecordQuery.Expr
