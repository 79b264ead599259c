import RowMapping.Declaration.Finding
import RowMapping.Entity.Basic
import RowMapping.Entity.Specialization
import RowMapping.Name.Table
/-!
# Entities from annotated classes

Resolving fills in what the tags of a class leave open: the table, the pairs of its enums, and what
the header specializes already.  It fails only for an enum without pairs.

* `DeclaredClass.enumDrafts`: the enum mappings that tags ask for;
* `EnumMapping.resolve`: the pairs of one mapping;
* `DeclaredClass.resolve`: the entity of a class;
* `DeclaredClass.notices`: what is settled or left out on the way.
-/

namespace RowMapping

/-- An enum member whose pairs are found nowhere. -/
structure UnresolvedEnum where
  field : String
  type : String
  file : String
  deriving DecidableEq, Repr

/-- The text of the failure. -/
def UnresolvedEnum.message (e : UnresolvedEnum) : String :=
  "@relais enum on field \"" ++ e.field ++ "\": no glz::meta<" ++ e.type ++
    "> with glz::enumerate() found in " ++ e.file ++ ". Either define glz::meta<" ++ e.type ++
    "> in the source header, or use an explicit mapping: enum=val1:Variant1,val2:Variant2"

namespace ClassTag

/-- The table that a tag names. -/
def table? : ClassTag → Option String
  | table name => some name
  | _ => none

/-- The model that a tag names. -/
def model? : ClassTag → Option String
  | model name => some name
  | _ => none

/-- The page sizes that a tag gives. -/
def limits? : ClassTag → Option (List UInt16)
  | limits tiers => some tiers
  | _ => none

/-- The entity that a tag names. -/
def entity? : ClassTag → Option String
  | entity name => some name
  | _ => none

/-- The member and the pairs of an enum mapping that a tag gives. -/
def enumeration? : ClassTag → Option (String × List EnumPair)
  | enumeration field pairs => some (field, pairs)
  | _ => none

/-- The word of a tag that means nothing. -/
def other? : ClassTag → Option String
  | other word => some word
  | _ => none

end ClassTag

namespace Member

/-- The member is stored as JSON. -/
def isJson (m : Member) : Bool := m.tags.has .jsonField

/-- A tag of the member asks for an enum mapping. -/
def wantsEnum (m : Member) : Bool := !m.tags.pairs.isEmpty || m.tags.has .autoEnum

/-- The enum mapping that the tags of a member ask for; a member stored as JSON gets none. -/
def enumDraft? (m : Member) : Option EnumMapping :=
  if m.wantsEnum && !m.isJson then some ⟨m.name, m.valueType, m.tags.pairs, false⟩ else none

end Member

namespace EnumMapping

/-- Gives pairs to the first mapping of a member, unless it has some. -/
def fill (field : String) (pairs : List EnumPair) : List EnumMapping → List EnumMapping
  | [] => []
  | e :: es =>
    if e.field = field then (if e.pairs.isEmpty then { e with pairs } else e) :: es
    else e :: fill field pairs es

/-- Fills in the pairs that the header gives for the type, and whether it specializes the type. -/
def resolve (source : List Char) (scope file : String) (e : EnumMapping) :
    Except UnresolvedEnum EnumMapping :=
  let type := Name.bare e.type
  let pairs := if e.pairs.isEmpty then Specialization.pairs source type else e.pairs
  if pairs.isEmpty then .error ⟨e.field, Name.qualify scope e.type, file⟩
  else .ok { e with pairs, hasMeta := Specialization.occurs source type }

end EnumMapping

namespace DeclaredClass

/-! ### What the tags of the class say -/

/-- The last table that the block names. -/
def table? (c : DeclaredClass) : Option String := (c.tags.filterMap ClassTag.table?).getLast?

/-- The table of the class. -/
def table (c : DeclaredClass) : String := c.table?.getD (Name.tableName c.name)

/-- The last model that the block names. -/
def model? (c : DeclaredClass) : Option String := (c.tags.filterMap ClassTag.model?).getLast?

/-- The last list of page sizes in the block. -/
def tiers (c : DeclaredClass) : List UInt16 :=
  ((c.tags.filterMap ClassTag.limits?).getLast?).getD []

/-- The last entity name in the block, or else the qualified name of the class. -/
def entityName (c : DeclaredClass) : String :=
  ((c.tags.filterMap ClassTag.entity?).getLast?).getD (Name.qualify c.scope c.name)

/-- The enum mappings that the block gives, in order. -/
def classEnums (c : DeclaredClass) : List (String × List EnumPair) :=
  c.tags.filterMap ClassTag.enumeration?

/-! ### Enum mappings -/

/-- The first member of a name. -/
def member? (c : DeclaredClass) (name : String) : Option Member :=
  c.members.find? fun m => m.name == name

/-- Some member of a name is stored as JSON. -/
def isJson (c : DeclaredClass) (name : String) : Bool :=
  c.members.any fun m => m.isJson && m.name == name

/-- The mappings with one more from the block.  It counts only for a member that is there and is
not stored as JSON, and pairs behind the member win. -/
def addClassEnum (c : DeclaredClass) (es : List EnumMapping) (given : String × List EnumPair) :
    List EnumMapping :=
  match c.member? given.1 with
  | none => es
  | some m =>
    if c.isJson given.1 then es
    else if es.any fun e => e.field == given.1 then EnumMapping.fill given.1 given.2 es
    else es ++ [⟨given.1, m.valueType, given.2, false⟩]

/-- The mappings that the tags of members ask for, and those of the block after them. -/
def enumDrafts (c : DeclaredClass) : List EnumMapping :=
  c.classEnums.foldl c.addClassEnum (c.members.filterMap Member.enumDraft?)

/-- The entity of a class in a header. -/
def resolve (c : DeclaredClass) (source : List Char) (file : String) :
    Except UnresolvedEnum Entity := do
  let enums ← c.enumDrafts.mapM (EnumMapping.resolve source c.scope file)
  return {
    className := c.name
    scope := c.scope
    table := c.table
    model := c.model?
    members := c.members
    enums
    readOnly := c.tags.contains .readOnly
    tiers := c.tiers
    entityName := c.entityName
    hasStructMeta := Specialization.occurs source c.name
    file
    line := c.line }

/-! ### What is settled or left out -/

/-- A member that is tagged both as JSON and as an enum is stored as JSON. -/
def memberNotices (c : DeclaredClass) (m : Member) : List Notice :=
  if m.wantsEnum && m.isJson then [.jsonOverEnum c.name m.name] else []

/-- A mapping of the block that does not count. -/
def classEnumNotices (c : DeclaredClass) (es : List EnumMapping) (field : String) : List Notice :=
  match c.member? field with
  | none => [.unknownEnumField c.name field]
  | some _ =>
    if c.isJson field then [.jsonOverEnum c.name field]
    else
      match es.find? fun e => e.field == field with
      | some e => if e.pairs.isEmpty then [] else [.inlinePairsWin c.name field]
      | none => []

/-- The mappings of the block that do not count, after the mappings `es`. -/
def classEnumsNotices (c : DeclaredClass) (es : List EnumMapping) :
    List (String × List EnumPair) → List Notice
  | [] => []
  | given :: rest =>
    c.classEnumNotices es given.1 ++ c.classEnumsNotices (c.addClassEnum es given) rest

/-- What is settled or left out when a class is resolved, in order. -/
def notices (c : DeclaredClass) : List Notice :=
  (c.tags.filterMap ClassTag.other?).map (.ignoredTag c.name ·) ++
    (if c.table?.isSome then [] else [.derivedTable c.name (Name.tableName c.name)]) ++
    c.members.flatMap c.memberNotices ++
    c.classEnumsNotices (c.members.filterMap Member.enumDraft?) c.classEnums

end DeclaredClass

end RowMapping
