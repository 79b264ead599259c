import RowMapping.Entity.Resolve
import RowMapping.Mapping.Header
/-!
# From a header to its generated headers

* `entities`: the annotated classes of a header, each resolved for itself;
* `allEntities`: the same, when all can be resolved;
* `GeneratedHeader`, `compile`: the generated headers;
* `compileNotices`: what is settled or left out, in order.
-/

namespace RowMapping

/-- A generated header: the class, the name of its file, and its text. -/
structure GeneratedHeader where
  className : String
  fileName : String
  text : String
  deriving DecidableEq, Repr

/-- The header that is generated for an entity. -/
def Entity.generate (names : SourceNames) (e : Entity) : GeneratedHeader :=
  ⟨e.className, e.fileName, Mapping.headerText e names⟩

/-- The entities of a header, each of which may fail for itself. -/
def entities (source : List Char) (file : String) : List (Except UnresolvedEnum Entity) :=
  (declaredClasses source).map fun c => c.resolve source file

/-- The entities of a header, or the first failure. -/
def allEntities (source : List Char) (file : String) : Except UnresolvedEnum (List Entity) :=
  (declaredClasses source).mapM fun c => c.resolve source file

/-- The headers that are generated for an annotated one, or the first failure. -/
def compile (source : List Char) (file : String) (names : SourceNames) :
    Except UnresolvedEnum (List GeneratedHeader) :=
  (allEntities source file).map fun es => es.map (Entity.generate names)

/-- What is settled or left out when a header is read, in order. -/
def readingNotices (source : List Char) (file : String) : List Notice :=
  let classes := declaredClasses source
  declarationNotices source ++ [.classCount file classes.length] ++
    classes.flatMap DeclaredClass.notices

/-- What is settled or left out when a header is compiled, in order. -/
def compileNotices (source : List Char) (file : String) : List Notice :=
  readingNotices source file ++
    match allEntities source file with
    | .ok es => es.flatMap Entity.notices
    | .error _ => []

end RowMapping
